import SharedGraph.Ids

/-!
# The numbering

The active server hands out places in the global order one after another.  The counter
is a 64-bit word that starts at one or later and wraps around when it is exhausted.
-/

namespace SharedGraph

/-- The counter behind the global order. -/
structure Numbering where
  upcoming : GlobalId
deriving DecidableEq, Inhabited

namespace Numbering

/-- A numbering whose first id is `first`, or one if that is zero. -/
def ofStart (first : UInt64) : Numbering :=
  ⟨⟨max first 1⟩⟩

def fresh : Numbering :=
  ofStart 1

def next (numbering : Numbering) : GlobalId × Numbering :=
  (numbering.upcoming, ⟨⟨numbering.upcoming.number + 1⟩⟩)

/-- The successor of an id, or the id itself if it is the last. -/
def successor (id : GlobalId) : GlobalId :=
  if id.number + 1 = 0 then id else ⟨id.number + 1⟩

def resumeAfter (numbering : Numbering) (seen : GlobalId) : Numbering :=
  if numbering.upcoming ≤ successor seen then ⟨successor seen⟩ else numbering

end Numbering
end SharedGraph
