import SharedGraph.Store.ObjectIndex

/-!
# Audiences

An audience is a numbered list of attendants, each of which watches a map in its own
way.  A store whose maps have such observers carries the whole audience along.
-/

namespace SharedGraph

inductive Attendant where
  | index (sets : ObjectIndex)
  | journal (events : List MapEvent)
  | censor (refuses : MapEvent → Bool)

namespace Attendant

def notice (event : MapEvent) : Attendant → Except Failure Unit × Attendant
  | .index sets =>
    match sets.notice event with
    | (answer, sets) => (answer, .index sets)
  | .journal events => (.ok (), .journal (events ++ [event]))
  | .censor refuses =>
    if refuses event then (.error (.observerRefused event.object), .censor refuses)
    else (.ok (), .censor refuses)

def refusingAdditions (objects : List ObjectId) : Attendant :=
  .censor fun event => event.isAddition && objects.contains event.object

def refusingRemovals (objects : List ObjectId) : Attendant :=
  .censor fun event => !event.isAddition && objects.contains event.object

end Attendant

/-- Attendants by number. -/
abbrev Audience := List Attendant

namespace Audience

/-- Tells the attendant of a number of an event; a number that nobody has hears nothing. -/
def tell (number : Nat) (event : MapEvent) (audience : Audience) :
    Except Failure Unit × Audience :=
  match audience[number]? with
  | none => (.ok (), audience)
  | some attendant =>
    match attendant.notice event with
    | (answer, attendant) => (answer, audience.set number attendant)

def observer (number : Nat) : Observer Audience :=
  ⟨tell number⟩

def index? (audience : Audience) (number : Nat) : Option ObjectIndex :=
  match audience[number]? with
  | some (.index sets) => some sets
  | _ => none

def takeJournal (audience : Audience) (number : Nat) : List MapEvent × Audience :=
  match audience[number]? with
  | some (.journal events) => (events, audience.set number (.journal []))
  | _ => ([], audience)

end Audience
end SharedGraph
