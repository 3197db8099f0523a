/-!
# Durations

A duration is a number of seconds and the nanoseconds beyond them, always fewer than a
second has.  Limits are kept in milliseconds, in a 64-bit word; a duration too long for
that counts as the longest.
-/

namespace SharedGraph

structure Duration where
  seconds : UInt64
  nanoseconds : UInt32
  subsecond : nanoseconds.toNat < 1000000000
deriving DecidableEq

namespace Duration

def longest : Duration :=
  ⟨18446744073709551615, 999999999, by decide⟩

instance : Inhabited Duration := ⟨0, 0, by decide⟩

/-- The duration of some seconds and nanoseconds; whole seconds among the nanoseconds are
carried, as far as the seconds can hold them. -/
def ofParts (seconds : UInt64) (nanoseconds : UInt32) : Duration :=
  let carried := seconds.toNat + nanoseconds.toNat / 1000000000
  if carried < UInt64.size then
    { seconds := UInt64.ofNat carried
      nanoseconds := nanoseconds % 1000000000
      subsecond := by
        rw [UInt32.toNat_mod]
        exact Nat.mod_lt _ (by decide) }
  else longest

/-- The whole milliseconds of a duration, as far as a word can hold them. -/
def milliseconds (duration : Duration) : UInt64 :=
  let exact := duration.seconds.toNat * 1000 + duration.nanoseconds.toNat / 1000000
  if exact < UInt64.size then UInt64.ofNat exact else 18446744073709551615

def ofMilliseconds (count : UInt64) : Duration where
  seconds := count / 1000
  nanoseconds := UInt32.ofNat (count.toNat % 1000 * 1000000)
  subsecond := by
    have below := Nat.mod_lt count.toNat (y := 1000) (by decide)
    have fits : count.toNat % 1000 * 1000000 < UInt32.size := by
      rw [show UInt32.size = 4294967296 from rfl]
      omega
    rw [UInt32.toNat_ofNat_of_lt' fits]
    omega

/-- Milliseconds are kept exactly. -/
theorem milliseconds_ofMilliseconds (count : UInt64) :
    (ofMilliseconds count).milliseconds = count := by
  have fits : count.toNat % 1000 * 1000000 < UInt32.size := by
    rw [show UInt32.size = 4294967296 from rfl]
    omega
  have whole : (ofMilliseconds count).seconds.toNat * 1000 +
      (ofMilliseconds count).nanoseconds.toNat / 1000000 = count.toNat := by
    simp only [ofMilliseconds, UInt64.toNat_div, UInt32.toNat_ofNat_of_lt' fits]
    change count.toNat / 1000 * 1000 + _ = _
    omega
  unfold milliseconds
  simp only [whole, count.toNat_lt_size, if_true, UInt64.ofNat_toNat]

example : longest.milliseconds = 18446744073709551615 := by decide

end Duration
end SharedGraph
