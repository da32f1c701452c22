import Mathlib.Data.Nat.Init

/-!
# Bytes put together out of bits

Pictures are stored bit by bit. Eight bits make a byte, which has just these bits, so bytes are
equal if all their bits are.
-/
namespace DotMatrix

/-- The byte of these bits, the lowest one first. -/
def byteOfBits (bit : Fin 8 → Bool) : UInt8 := UInt8.ofNat (Nat.ofBits bit)

theorem testBit_byteOfBits (bit : Fin 8 → Bool) {k : Nat} (inside : k < 8) :
    (byteOfBits bit).toNat.testBit k = bit ⟨k, inside⟩ := by
  rw [byteOfBits, UInt8.toNat_ofNat', Nat.mod_eq_of_lt (Nat.ofBits_lt_two_pow bit),
    Nat.testBit_ofBits_lt bit k inside]

theorem byteOfBits_testBit (byte : UInt8) : byteOfBits (fun k => byte.toNat.testBit k) = byte := by
  rw [byteOfBits, Nat.ofBits_testBit, Nat.mod_eq_of_lt byte.toNat_lt, UInt8.ofNat_toNat]

theorem byte_eq_of_testBit {byte other : UInt8}
    (same : ∀ k < 8, byte.toNat.testBit k = other.toNat.testBit k) : byte = other := by
  rw [← byteOfBits_testBit byte, ← byteOfBits_testBit other]
  exact congrArg byteOfBits (funext fun k => same k k.isLt)

end DotMatrix
