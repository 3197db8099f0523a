import SharedGraph.Proofs.MessagePack.Document

/-!
# Where a reading ends

A reader delimits what it reads if more bytes behind make no difference: it finds the same, and
leaves those bytes.  Then it reads no front part of bytes that it takes as a whole.  Tokens delimit,
since each encoding of a token tells its end, and so does what is read token after token.
-/

namespace SharedGraph
namespace MessagePack

variable {α β : Type}

/-- Whether a reader finds the same when more bytes follow, and leaves those. -/
def Delimits (reader : Bytes → Option (α × Bytes)) : Prop :=
  ∀ bytes item rest, reader bytes = some (item, rest) →
    ∀ more, reader (bytes ++ more) = some (item, rest ++ more)

/-!
## Readers made of readers
-/

namespace Delimits

variable {reader : Bytes → Option (α × Bytes)} {bytes more : Bytes} {item : α}

theorem nothing : Delimits fun _ => (none : Option (α × Bytes)) := by
  intro bytes item rest hread
  cases hread

theorem done (item : α) : Delimits fun bytes => some (item, bytes) := by
  intro bytes other rest hread more
  cases hread
  rfl

theorem bind {next : α × Bytes → Option (β × Bytes)} (hdelimits : Delimits reader)
    (hnext : ∀ item, Delimits fun rest => next (item, rest)) :
    Delimits fun bytes => (reader bytes).bind next := by
  intro bytes result rest hread more
  rcases Option.bind_eq_some_iff.1 hread with ⟨⟨item, left⟩, hitem, hresult⟩
  dsimp only
  rw [hdelimits bytes item left hitem more]
  exact hnext item left result rest hresult more

theorem map {make : α × Bytes → β × Bytes} (result : α → β) (hdelimits : Delimits reader)
    (hmake : ∀ item rest, make (item, rest) = (result item, rest)) :
    Delimits fun bytes => (reader bytes).map make := by
  intro bytes other rest hread more
  rcases Option.map_eq_some_iff.1 hread with ⟨⟨item, left⟩, hitem, hpair⟩
  rw [hmake] at hpair
  cases hpair
  dsimp only
  rw [hdelimits bytes item rest hitem more, Option.map_some, hmake]

theorem choose (found : Option α) : Delimits fun bytes => found.map fun item => (item, bytes) := by
  cases found with
  | none => exact nothing
  | some item => exact done item

theorem eq_none (hdelimits : Delimits reader)
    (hwhole : reader (bytes ++ more) = some (item, [])) (hmore : more ≠ []) :
    reader bytes = none := by
  cases hread : reader bytes with
  | none => rfl
  | some found =>
    rcases found with ⟨other, rest⟩
    rw [hdelimits bytes other rest hread more, Option.some.injEq, Prod.mk.injEq] at hwhole
    exact absurd (List.append_eq_nil_iff.1 hwhole.2).2 hmore

end Delimits

/-!
## Tokens and documents
-/

theorem delimits_read : Delimits Token.read := by
  intro bytes token rest hread more
  rcases Token.exists_encoding_of_read hread with ⟨front, hbytes, hencodes⟩
  rw [hbytes, List.append_assoc]
  exact hencodes.reads (rest ++ more)

theorem delimits_readMany {readOne : Bytes → Option (α × Bytes)} (hone : Delimits readOne)
    (count : Nat) : Delimits (readMany readOne count) := by
  induction count with
  | zero => exact Delimits.done []
  | succ count ih =>
    apply hone.bind
    intro item
    exact ih.map (item :: ·) fun _ _ => rfl

theorem delimits_readEntries {readOne : Bytes → Option (α × Bytes)} (hone : Delimits readOne)
    (firstName laterName : Token → Option String) (count : Nat) :
    Delimits (readEntries firstName laterName readOne count) := by
  induction count generalizing firstName with
  | zero => exact Delimits.done []
  | succ count ih =>
    apply delimits_read.bind
    intro token
    change Delimits fun bytes => (firstName token).bind _
    cases firstName token with
    | none => exact Delimits.nothing
    | some name =>
      apply hone.bind
      intro item
      exact (ih laterName).map ((name, item) :: ·) fun _ _ => rfl

theorem delimits_readValue (levels : Nat) : Delimits (readValue levels) := by
  induction levels with
  | zero =>
    apply delimits_read.bind
    intro token
    exact Delimits.choose token.scalar?
  | succ levels ih =>
    apply delimits_read.bind
    intro token
    cases token with
    | array count => exact (delimits_readMany ih count).map Value.array fun _ _ => rfl
    | map count =>
      have hentries := delimits_readEntries ih Token.textName? Token.anyName? count
      exact hentries.map Value.ofFields fun _ _ => rfl
    | _ => exact Delimits.choose _

end MessagePack
end SharedGraph
