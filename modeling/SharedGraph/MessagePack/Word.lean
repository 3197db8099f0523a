/-!
# Words of bytes

Numbers of a fixed width are written with the most significant byte first.  Reading a
word gives back the number and the bytes that follow it, or nothing when the bytes run
out.
-/

namespace SharedGraph

abbrev Bytes := List UInt8

namespace MessagePack

def capacity : Nat → Nat
  | 0 => 1
  | width + 1 => capacity width * 256

/-- The last `width` bytes of a number, the most significant one first. -/
def writeWord : Nat → Nat → Bytes
  | 0, _ => []
  | width + 1, number => UInt8.ofNat (number / capacity width) :: writeWord width number

def wordValue : Bytes → Nat
  | [] => 0
  | byte :: rest => byte.toNat * capacity rest.length + wordValue rest

def takeBytes : Nat → Bytes → Option (Bytes × Bytes)
  | 0, bytes => some ([], bytes)
  | _ + 1, [] => none
  | count + 1, byte :: rest =>
    (takeBytes count rest).map fun (front, rest) => (byte :: front, rest)

def readWord (width : Nat) (bytes : Bytes) : Option (Nat × Bytes) :=
  (takeBytes width bytes).map fun (front, rest) => (wordValue front, rest)

/-! ## Reading back -/

@[simp] theorem length_writeWord (width number : Nat) :
    (writeWord width number).length = width := by
  induction width with
  | zero => rfl
  | succ width ih => rw [writeWord, List.length_cons, ih]

theorem takeBytes_append (front rest : Bytes) :
    takeBytes front.length (front ++ rest) = some (front, rest) := by
  induction front with
  | nil => rfl
  | cons byte front ih => simp [takeBytes, ih]

theorem wordValue_writeWord (width number : Nat) :
    wordValue (writeWord width number) = number % capacity width := by
  induction width with
  | zero => simp [writeWord, wordValue, capacity, Nat.mod_one]
  | succ width ih =>
    have parts : number % capacity (width + 1) =
        number % capacity width + capacity width * (number / capacity width % 256) := by
      rw [capacity, Nat.mod_mul]
    rw [writeWord, wordValue, length_writeWord, ih, UInt8.toNat_ofNat', parts]
    exact (Nat.add_comm _ _).trans (congrArg _ (Nat.mul_comm _ _))

theorem readWord_writeWord {width number : Nat} (fits : number < capacity width) (rest : Bytes) :
    readWord width (writeWord width number ++ rest) = some (number, rest) := by
  have taken := takeBytes_append (writeWord width number) rest
  rw [length_writeWord] at taken
  have value := wordValue_writeWord width number
  rw [Nat.mod_eq_of_lt fits] at value
  rw [readWord, taken, Option.map_some]
  exact congrArg (fun number => some (number, rest)) value

end MessagePack
end SharedGraph
