/-! Sixteen-bit words as two bytes. Main statements: joining and splitting undo each other. -/
namespace DotMatrix.Word

def join (high low : UInt8) : UInt16 := high.toUInt16 * 256 + low.toUInt16

def high (word : UInt16) : UInt8 := (word / 256).toUInt8

def low (word : UInt16) : UInt8 := word.toUInt8

theorem toNat_join (high low : UInt8) : (join high low).toNat = 256 * high.toNat + low.toNat := by
  have := high.toNat_lt
  have := low.toNat_lt
  simp [join]
  omega

theorem toNat_high (word : UInt16) : (high word).toNat = word.toNat / 256 := by
  have := word.toNat_lt
  simp [high]
  omega

theorem toNat_low (word : UInt16) : (low word).toNat = word.toNat % 256 := by
  simp [low]

@[simp] theorem high_join (hi lo : UInt8) : high (join hi lo) = hi := by
  have := lo.toNat_lt
  apply UInt8.toNat_inj.1
  rw [toNat_high, toNat_join]
  omega

@[simp] theorem low_join (hi lo : UInt8) : low (join hi lo) = lo := by
  have := lo.toNat_lt
  apply UInt8.toNat_inj.1
  rw [toNat_low, toNat_join]
  omega

@[simp] theorem join_high_low (word : UInt16) : join (high word) (low word) = word := by
  apply UInt16.toNat_inj.1
  rw [toNat_join, toNat_high, toNat_low]
  omega

end DotMatrix.Word
