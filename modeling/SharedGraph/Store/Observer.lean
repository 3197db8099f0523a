import SharedGraph.Failure
import SharedGraph.MessagePack.Word

/-!
# Observers of a store map

Whoever watches a map hears of every value that is added or removed, and may refuse.
All observers of a map act on one shared audience, whose state is a parameter here; they
are asked one after another, and the first refusal ends the round.  What the observers
before it did stays done.
-/

namespace SharedGraph

inductive MapEvent where
  | added (object : ObjectId) (value : Bytes)
  | removed (object : ObjectId) (value : Bytes)
deriving DecidableEq

namespace MapEvent

def object : MapEvent → ObjectId
  | .added object _ | .removed object _ => object

def isAddition : MapEvent → Bool
  | .added .. => true
  | .removed .. => false

end MapEvent

/-- One who hears of events and acts on an audience of type `σ`. -/
structure Observer (σ : Type) where
  notice : MapEvent → σ → Except Failure Unit × σ

namespace Observer

variable {σ : Type}

def refusing (refuses : MapEvent → Bool) : Observer σ :=
  ⟨fun event audience =>
    if refuses event then (.error (.observerRefused event.object), audience)
    else (.ok (), audience)⟩

/-- Tells every observer of an event, until one refuses. -/
def announce (event : MapEvent) : List (Observer σ) → σ → Except Failure Unit × σ
  | [], audience => (.ok (), audience)
  | observer :: rest, audience =>
    match observer.notice event audience with
    | (.ok (), audience) => announce event rest audience
    | (.error failure, audience) => (.error failure, audience)

def announceAll (observers : List (Observer σ)) : List MapEvent → σ → Except Failure Unit × σ
  | [], audience => (.ok (), audience)
  | event :: rest, audience =>
    match announce event observers audience with
    | (.ok (), audience) => announceAll observers rest audience
    | (.error failure, audience) => (.error failure, audience)

@[simp] theorem announce_nil (event : MapEvent) (audience : σ) :
    announce event [] audience = (.ok (), audience) := rfl

end Observer
end SharedGraph
