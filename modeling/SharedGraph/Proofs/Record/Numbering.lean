import SharedGraph.Record.Numbering

/-!
# What a numbering hands out

A numbering never goes back before it wraps around: whatever is asked of it, the ids that
it hands out from now on are not below the upcoming one, as long as the last id of all is
not among them.  A numbering that resumed after an id hands out only greater ones.  So each
id is greater than all that were handed out or seen before, exactly if the last id is not
one of these (`rising_iff`).
-/

namespace SharedGraph

namespace GlobalId

def last : GlobalId :=
  ⟨18446744073709551615⟩

theorem lt_iff_toNat_lt {first second : GlobalId} :
    first < second ↔ first.number.toNat < second.number.toNat :=
  UInt64.lt_iff_toNat_lt

theorem le_iff_toNat_le {first second : GlobalId} :
    first ≤ second ↔ first.number.toNat ≤ second.number.toNat :=
  UInt64.le_iff_toNat_le

theorem le_last (id : GlobalId) : id ≤ last :=
  le_iff_toNat_le.2 (Nat.le_of_lt_succ id.number.toNat_lt)

theorem lt_last_iff {id : GlobalId} : id < last ↔ id ≠ last := by
  constructor
  · rintro hlt rfl
    exact lt_irrefl last hlt
  · intro hne
    refine UInt64.lt_of_le_of_ne (le_last id) fun hsame => hne ?_
    cases id
    exact congrArg GlobalId.mk hsame

end GlobalId

inductive Numbering.Call where
  | next
  | resumeAfter (seen : GlobalId)

namespace Numbering

/-- The ids that a numbering hands out while it is asked one thing after another. -/
def handedOut : List Call → Numbering → List GlobalId
  | [], _ => []
  | .next :: rest, numbering => numbering.next.1 :: handedOut rest numbering.next.2
  | .resumeAfter seen :: rest, numbering => handedOut rest (numbering.resumeAfter seen)

variable {numbering : Numbering} {id seen : GlobalId}

theorem toNat_add_one {number : UInt64} (hne : number ≠ 18446744073709551615) :
    (number + 1).toNat = number.toNat + 1 := by
  have hbound := number.toNat_lt
  have hother : number.toNat ≠ 18446744073709551615 := fun hsame => hne (UInt64.toNat.inj hsame)
  have hone : (1 : UInt64).toNat = 1 := rfl
  rw [UInt64.toNat_add, hone]
  omega

theorem successor_cases (id : GlobalId) :
    (id = .last ∧ successor id = .last) ∨
      (id ≠ .last ∧ (successor id).number.toNat = id.number.toNat + 1) := by
  obtain ⟨number⟩ := id
  by_cases hlast : number = 18446744073709551615
  · subst hlast
    exact .inl ⟨rfl, rfl⟩
  · have hnext := toNat_add_one hlast
    have hzero : number + 1 ≠ 0 := by
      intro hzero
      rw [hzero] at hnext
      exact Nat.succ_ne_zero _ hnext.symm
    have hsuccessor : successor ⟨number⟩ = ⟨number + 1⟩ := if_neg hzero
    refine .inr ⟨fun hsame => hlast (congrArg GlobalId.number hsame), ?_⟩
    rw [hsuccessor]
    exact hnext

theorem upcoming_le_resumeAfter (numbering : Numbering) (seen : GlobalId) :
    numbering.upcoming ≤ (numbering.resumeAfter seen).upcoming := by
  unfold resumeAfter
  split
  · assumption
  · exact GlobalId.le_refl _

theorem successor_le_resumeAfter (numbering : Numbering) (seen : GlobalId) :
    successor seen ≤ (numbering.resumeAfter seen).upcoming := by
  unfold resumeAfter
  split
  · exact GlobalId.le_refl _
  · next hbelow => exact GlobalId.le_of_lt (GlobalId.not_le.1 hbelow)

theorem lt_upcoming_next (hlast : numbering.next.1 ≠ .last) :
    numbering.next.1 < numbering.next.2.upcoming :=
  UInt64.lt_add_one fun hsame => hlast (congrArg GlobalId.mk hsame)

theorem lt_upcoming_resumeAfter (hlast : seen ≠ .last) :
    seen < (numbering.resumeAfter seen).upcoming := by
  rcases successor_cases seen with ⟨hsame, -⟩ | ⟨-, hnext⟩
  · exact absurd hsame hlast
  · have hlt : seen < successor seen := by
      rw [GlobalId.lt_iff_toNat_lt, hnext]
      exact Nat.lt_succ_self _
    exact GlobalId.lt_of_lt_of_le hlt (successor_le_resumeAfter numbering seen)

theorem upcoming_le_handedOut {calls : List Call} (hlast : .last ∉ handedOut calls numbering) :
    ∀ id ∈ handedOut calls numbering, numbering.upcoming ≤ id := by
  induction calls generalizing numbering with
  | nil => exact fun _ hid => absurd hid List.not_mem_nil
  | cons call rest ih =>
    intro id hid
    cases call with
    | next =>
      rw [handedOut, List.mem_cons, not_or] at hlast
      rcases List.mem_cons.1 hid with rfl | hlater
      · exact GlobalId.le_refl _
      · have hnext := lt_upcoming_next (Ne.symm hlast.1)
        exact GlobalId.le_trans (GlobalId.le_of_lt hnext) (ih hlast.2 id hlater)
    | resumeAfter seen =>
      exact GlobalId.le_trans (upcoming_le_resumeAfter numbering seen) (ih hlast id hid)

/-- Until a numbering starts over, every id that it hands out is greater than those before. -/
theorem handedOut_ascending {calls : List Call} (hlast : .last ∉ handedOut calls numbering) :
    (handedOut calls numbering).Pairwise (· < ·) := by
  induction calls generalizing numbering with
  | nil => exact List.Pairwise.nil
  | cons call rest ih =>
    cases call with
    | next =>
      rw [handedOut, List.mem_cons, not_or] at hlast
      refine List.pairwise_cons.2 ⟨?_, ih hlast.2⟩
      intro id hid
      have hnext := lt_upcoming_next (Ne.symm hlast.1)
      exact GlobalId.lt_of_lt_of_le hnext (upcoming_le_handedOut hlast.2 id hid)
    | resumeAfter seen => exact ih hlast

theorem lt_handedOut_resumeAfter {calls : List Call}
    (hlast : .last ∉ handedOut calls (numbering.resumeAfter seen)) :
    ∀ id ∈ handedOut calls (numbering.resumeAfter seen), seen < id := by
  intro id hid
  have hupcoming := upcoming_le_handedOut hlast id hid
  by_cases hseen : seen = .last
  · have hstays : successor .last = .last := rfl
    have hsuccessor := GlobalId.le_trans (successor_le_resumeAfter numbering seen) hupcoming
    have hbelow : id < .last := GlobalId.lt_last_iff.2 fun hsame => hlast (hsame ▸ hid)
    rw [hseen, hstays] at hsuccessor
    exact absurd (GlobalId.lt_of_le_of_lt hsuccessor hbelow) (GlobalId.lt_irrefl _)
  · exact GlobalId.lt_of_lt_of_le (lt_upcoming_resumeAfter hseen) hupcoming

theorem lt_fresh_resumeAfter_iff :
    id < (fresh.resumeAfter seen).upcoming ↔ id ≤ seen ∧ id ≠ .last := by
  have hone : fresh.upcoming.number.toNat = 1 := rfl
  rcases successor_cases seen with ⟨rfl, hstays⟩ | ⟨hne, hnext⟩
  · have hfresh : fresh.upcoming ≤ successor .last := hstays ▸ GlobalId.le_last _
    rw [resumeAfter, if_pos hfresh, hstays, GlobalId.lt_last_iff]
    exact ⟨fun hother => ⟨GlobalId.le_last id, hother⟩, And.right⟩
  · have hfresh : fresh.upcoming ≤ successor seen := by
      rw [GlobalId.le_iff_toNat_le]
      omega
    rw [resumeAfter, if_pos hfresh, GlobalId.lt_iff_toNat_lt, GlobalId.le_iff_toNat_le, hnext]
    constructor
    · intro hlt
      have hle : id.number.toNat ≤ seen.number.toNat := by omega
      refine ⟨hle, GlobalId.lt_last_iff.1 ?_⟩
      exact GlobalId.lt_of_le_of_lt (GlobalId.le_iff_toNat_le.2 hle) (GlobalId.lt_last_iff.2 hne)
    · rintro ⟨hle, -⟩
      omega

theorem lt_fresh_iff : id < fresh.upcoming ↔ id.number = 0 :=
  UInt64.lt_one_iff

/-!
## All that a numbering meets
-/

/-- The ids that a numbering hands out and those that were seen elsewhere, in the order in which
it meets them. -/
def met : List Call → Numbering → List GlobalId
  | [], _ => []
  | .next :: rest, numbering => numbering.next.1 :: met rest numbering.next.2
  | .resumeAfter seen :: rest, numbering => seen :: met rest (numbering.resumeAfter seen)

def after : List Call → Numbering → Numbering
  | [], numbering => numbering
  | .next :: rest, numbering => after rest numbering.next.2
  | .resumeAfter seen :: rest, numbering => after rest (numbering.resumeAfter seen)

/-- Whether every id that is handed out is greater than all that were met before. -/
def Rising (calls : List Call) (numbering : Numbering) : Prop :=
  ∀ earlier, earlier ++ [.next] <+: calls →
    ∀ id ∈ met earlier numbering, id < (after earlier numbering).next.1

theorem upcoming_le_after {calls : List Call} (hlast : .last ∉ met calls numbering) :
    numbering.upcoming ≤ (after calls numbering).upcoming := by
  induction calls generalizing numbering with
  | nil => exact GlobalId.le_refl _
  | cons call rest ih =>
    cases call with
    | next =>
      rw [met, List.mem_cons, not_or] at hlast
      have hnext := lt_upcoming_next (Ne.symm hlast.1)
      exact GlobalId.le_trans (GlobalId.le_of_lt hnext) (ih hlast.2)
    | resumeAfter seen =>
      rw [met, List.mem_cons, not_or] at hlast
      exact GlobalId.le_trans (upcoming_le_resumeAfter numbering seen) (ih hlast.2)

theorem lt_upcoming_after {calls : List Call} (hlast : .last ∉ met calls numbering) :
    ∀ id ∈ met calls numbering, id < (after calls numbering).upcoming := by
  induction calls generalizing numbering with
  | nil => exact fun _ hid => absurd hid List.not_mem_nil
  | cons call rest ih =>
    intro id hid
    cases call with
    | next =>
      rw [met, List.mem_cons, not_or] at hlast
      rcases List.mem_cons.1 hid with rfl | hlater
      · exact GlobalId.lt_of_lt_of_le (lt_upcoming_next (Ne.symm hlast.1))
          (upcoming_le_after hlast.2)
      · exact ih hlast.2 id hlater
    | resumeAfter seen =>
      rw [met, List.mem_cons, not_or] at hlast
      rcases List.mem_cons.1 hid with rfl | hlater
      · exact GlobalId.lt_of_lt_of_le (lt_upcoming_resumeAfter (Ne.symm hlast.1))
          (upcoming_le_after hlast.2)
      · exact ih hlast.2 id hlater

/-- Wherever a numbering starts and whatever is asked of it: each id that it hands out is greater
than all that it has handed out or was told of before, exactly if nothing is handed out once the
last id has been met. -/
theorem rising_iff (first : UInt64) (calls : List Call) :
    Rising calls (ofStart first) ↔
      ∀ earlier, earlier ++ [.next] <+: calls → .last ∉ met earlier (ofStart first) := by
  constructor
  · intro hrising earlier hearlier hlast
    have hpast := hrising earlier hearlier .last hlast
    exact GlobalId.not_le.2 hpast (GlobalId.le_last _)
  · intro hlast earlier hearlier id hid
    exact lt_upcoming_after (hlast earlier hearlier) id hid

/-- Behind the last id a numbering starts over with zero, and after seeing the last id it hands
that id out again. -/
theorem not_rising_at_last :
    handedOut [.next, .next] (ofStart 18446744073709551615) = [.last, ⟨0⟩] ∧
      handedOut [.resumeAfter .last, .next] (ofStart 1) = [.last] ∧
      ¬∀ (first : UInt64) (calls : List Call), Rising calls (ofStart first) := by
  refine ⟨by decide, by decide, ?_⟩
  intro hrising
  have hpast := hrising 18446744073709551615 [.next, .next] [.next] (List.prefix_refl _) .last
    List.mem_cons_self
  revert hpast
  decide

end Numbering
end SharedGraph
