import Mathlib.Data.List.Basic
import Mathlib.Data.List.Induction

/-!
# What holds since

A history is a list whose last entry is the latest one.  Something that one entry starts and
another one ends holds after a history if an entry has started it and no later one has ended it
(`Since`); what an entry starts may depend on the entries before it.  To find that of a state it is
enough to know what one more entry does to the state (`since_concat_iff`), and where the entries
before do not matter, it makes no difference whether any start is looked at or only the latest
(`since_iff`).
-/

namespace SharedGraph

variable {α : Type} {history : List α} {last : α}
variable {Begins : List α → α → Prop} {Starts Ends : α → Prop}

/-- To look for an entry in a longer history is to look at its last entry, and then for an entry of
the shorter history. -/
theorem exists_split_concat_iff {Splits : List α → α → List α → Prop} :
    (∃ earlier entry later, history ++ [last] = earlier ++ entry :: later ∧
        Splits earlier entry later) ↔
      Splits history last [] ∨
        ∃ earlier entry later, history = earlier ++ entry :: later ∧
          Splits earlier entry (later ++ [last]) := by
  constructor
  · intro hfound
    rcases hfound with ⟨earlier, entry, later, hsplit, hentry⟩
    rcases List.eq_nil_or_concat' later with hnone | ⟨front, latest, hlater⟩
    · rw [hnone] at hsplit hentry
      rcases List.append_inj' hsplit rfl with ⟨hhistory, hlast⟩
      rw [hhistory, List.head_eq_of_cons_eq hlast]
      exact Or.inl hentry
    · rw [hlater, ← List.cons_append, ← List.append_assoc] at hsplit
      rcases List.append_inj' hsplit rfl with ⟨hhistory, hlast⟩
      rw [hlater, ← List.head_eq_of_cons_eq hlast] at hentry
      exact Or.inr ⟨earlier, entry, front, hhistory, hentry⟩
  · intro hfound
    rcases hfound with hlast | ⟨earlier, entry, later, hsplit, hentry⟩
    · exact ⟨history, last, [], rfl, hlast⟩
    · refine ⟨earlier, entry, later ++ [last], ?_, hentry⟩
      rw [hsplit, List.append_assoc, List.cons_append]

theorem exists_split_eq_iff {start : α} {Splits : List α → List α → Prop} :
    (∃ earlier later, history = earlier ++ start :: later ∧ Splits earlier later) ↔
      ∃ earlier entry later, history = earlier ++ entry :: later ∧
        (entry = start ∧ Splits earlier later) := by
  constructor
  · intro hfound
    rcases hfound with ⟨earlier, later, hsplit, hsplits⟩
    exact ⟨earlier, start, later, hsplit, rfl, hsplits⟩
  · intro hfound
    rcases hfound with ⟨earlier, entry, later, hsplit, rfl, hsplits⟩
    exact ⟨earlier, later, hsplit, hsplits⟩

theorem exists_split_eq_concat_iff {start : α} {Splits : List α → List α → Prop} :
    (∃ earlier later, history ++ [last] = earlier ++ start :: later ∧ Splits earlier later) ↔
      (last = start ∧ Splits history []) ∨
        ∃ earlier later, history = earlier ++ start :: later ∧
          Splits earlier (later ++ [last]) := by
  rw [exists_split_eq_iff, exists_split_concat_iff, exists_split_eq_iff]

/-- Whether an entry has started something, given those before it, and no later one has ended it. -/
def Since (Begins : List α → α → Prop) (Ends : α → Prop) (history : List α) : Prop :=
  ∃ earlier entry later, history = earlier ++ entry :: later ∧ Begins earlier entry ∧
    ∀ next ∈ later, ¬Ends next

def EndedSince (Starts Ends : α → Prop) (history : List α) : Prop :=
  ∃ earlier entry later, history = earlier ++ entry :: later ∧ Starts entry ∧
    (∀ next ∈ later, ¬Starts next) ∧ ∃ next ∈ later, Ends next

theorem not_since_nil : ¬Since Begins Ends [] := by
  intro hsince
  rcases hsince with ⟨earlier, entry, later, hsplit, -⟩
  exact List.append_ne_nil_of_right_ne_nil earlier (List.cons_ne_nil entry later) hsplit.symm

theorem since_concat_iff :
    Since Begins Ends (history ++ [last]) ↔
      Begins history last ∨ (¬Ends last ∧ Since Begins Ends history) := by
  unfold Since
  rw [exists_split_concat_iff]
  simp only [List.forall_mem_append, List.forall_mem_singleton]
  constructor
  · intro hsince
    rcases hsince with ⟨hbegins, -⟩ | ⟨earlier, entry, later, hsplit, hbegins, hlater, hlast⟩
    · exact Or.inl hbegins
    · exact Or.inr ⟨hlast, earlier, entry, later, hsplit, hbegins, hlater⟩
  · intro hsince
    rcases hsince with hbegins | ⟨hlast, earlier, entry, later, hsplit, hbegins, hlater⟩
    · exact Or.inl ⟨hbegins, nofun⟩
    · exact Or.inr ⟨earlier, entry, later, hsplit, hbegins, hlater, hlast⟩

theorem since_self_iff :
    Since (fun _ => Starts) Starts history ↔ ∃ entry ∈ history, Starts entry := by
  induction history using List.reverseRecOn with
  | nil => simp [not_since_nil]
  | append_singleton history last ih =>
    rw [since_concat_iff, ih]
    by_cases hlast : Starts last
    · simp [hlast]
    · simp [hlast, or_and_right, exists_or]

theorem mem_or_subset_of_split {earlier later before after : List α} {entry other : α}
    (hsplit : earlier ++ entry :: later = before ++ other :: after) :
    entry ∈ after ∨ after ⊆ later := by
  induction earlier generalizing before with
  | nil =>
    right
    cases before with
    | nil =>
      rw [List.tail_eq_of_cons_eq hsplit]
      exact List.Subset.refl after
    | cons first front =>
      rw [List.nil_append, List.cons_append, List.cons.injEq] at hsplit
      rw [hsplit.2]
      exact List.subset_append_of_subset_right front (List.subset_cons_self other after)
  | cons first rest ih =>
    cases before with
    | nil =>
      rw [List.cons_append, List.nil_append, List.cons.injEq] at hsplit
      rw [← hsplit.2]
      exact Or.inl (List.mem_append_right rest List.mem_cons_self)
    | cons _ front =>
      rw [List.cons_append, List.cons_append, List.cons.injEq] at hsplit
      exact ih hsplit.2

/-- Something holds since an entry started it exactly if there is such an entry and nothing has
ended it since the latest one. -/
theorem since_iff :
    Since (fun _ => Starts) Ends history ↔
      (∃ entry ∈ history, Starts entry) ∧ ¬EndedSince Starts Ends history := by
  constructor
  · intro hsince
    rcases hsince with ⟨earlier, entry, later, rfl, hstarts, hlater⟩
    -- the entry need not be the latest start, but nothing ends behind it
    constructor
    · exact ⟨entry, List.mem_append_right earlier List.mem_cons_self, hstarts⟩
    · intro hended
      rcases hended with ⟨before, other, after, hsplit, -, hlatest, next, hnext, hends⟩
      rcases mem_or_subset_of_split hsplit with hafter | hsubset
      · exact hlatest entry hafter hstarts
      · exact hlater next (hsubset hnext) hends
  · intro hstarted
    rcases since_self_iff.2 hstarted.1 with ⟨earlier, entry, later, hsplit, hstarts, hlatest⟩
    refine ⟨earlier, entry, later, hsplit, hstarts, ?_⟩
    intro next hnext hends
    exact hstarted.2 ⟨earlier, entry, later, hsplit, hstarts, hlatest, next, hnext, hends⟩

end SharedGraph
