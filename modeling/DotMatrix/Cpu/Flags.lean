/-! The flag register. Only four flags exist; a byte loaded into the register loses its low half. -/
namespace DotMatrix

structure Flags where
  zero : Bool := false
  subtract : Bool := false
  halfCarry : Bool := false
  carry : Bool := false
deriving DecidableEq, Repr, Inhabited

namespace Flags

def ofByte (byte : UInt8) : Flags where
  zero := byte &&& 0x80 != 0
  subtract := byte &&& 0x40 != 0
  halfCarry := byte &&& 0x20 != 0
  carry := byte &&& 0x10 != 0

def toByte (flags : Flags) : UInt8 :=
  (if flags.zero then 0x80 else 0) + (if flags.subtract then 0x40 else 0) +
    (if flags.halfCarry then 0x20 else 0) + (if flags.carry then 0x10 else 0)

@[simp] theorem ofByte_toByte (flags : Flags) : ofByte flags.toByte = flags := by
  obtain ⟨_ | _, _ | _, _ | _, _ | _⟩ := flags <;> rfl

theorem toByte_ofByte (byte : UInt8) : (ofByte byte).toByte = byte &&& 0xF0 := by
  have all : ∀ n : Fin 256, (ofByte (UInt8.ofNat n)).toByte = UInt8.ofNat n &&& 0xF0 := by
    decide +kernel
  simpa using all ⟨byte.toNat, byte.toNat_lt⟩

end Flags

/-- What 8-bit addition, subtraction, comparison, increment and decrement do to the half carry:
`accurate` sets it from the low nibbles, `legacy` leaves it as it was. -/
inductive FlagPolicy where
  | accurate
  | legacy
deriving DecidableEq, Repr

instance : Inhabited FlagPolicy := ⟨.accurate⟩

def FlagPolicy.halfCarry : FlagPolicy → (computed kept : Bool) → Bool
  | .accurate, computed, _ => computed
  | .legacy, _, kept => kept

end DotMatrix
