import DotMatrix.Memory.Ram
import DotMatrix.Proofs.Cpu.Reference
import DotMatrix.Proofs.Cpu.Step

/-!
# The processor computes the integer semantics

Registers, reads and effects are read as numbers. Decoding is compared byte by byte; then there is
one lemma for each way to pick an operand and for each part of the arithmetic, and one case for each
kind of instruction.
-/
namespace DotMatrix

namespace Reference

/-! ## Machine words as numbers -/

def File.ofRegisters (r : Registers) : File where
  a := r.a.toNat
  b := r.b.toNat
  c := r.c.toNat
  d := r.d.toNat
  e := r.e.toNat
  h := r.h.toNat
  l := r.l.toNat
  sp := r.sp.toNat
  pc := r.pc.toNat
  zero := r.f.zero
  negative := r.f.subtract
  half := r.f.halfCarry
  carry := r.f.carry

def Outcome.ofEffect (effect : Effect) : Outcome where
  file := .ofRegisters effect.registers
  stores := effect.writes.map fun w => (w.address.toNat, w.value.toNat)

/-- Makes the stores of an outcome on a bus, one after another. -/
def Outcome.storeIn {β : Type} [Bus β] (outcome : Outcome) (bus : β) : β :=
  outcome.stores.foldl (fun bus store => Bus.write bus (UInt16.ofNat store.1) (UInt8.ofNat store.2))
    bus

/-- The cells that can be read. -/
def view (read : Reader) : Cells := fun address => (read (UInt16.ofNat address)).toNat

theorem File.ofRegisters_inj {r r' : Registers} (h : ofRegisters r = ofRegisters r') : r = r' := by
  obtain ⟨a, ⟨z, n, hc, cy⟩, b, c, d, e, hi, l, sp, pc⟩ := r
  obtain ⟨a', ⟨z', n', hc', cy'⟩, b', c', d', e', hi', l', sp', pc'⟩ := r'
  simp only [ofRegisters, File.mk.injEq, UInt8.toNat_inj, UInt16.toNat_inj] at h
  obtain ⟨rfl, rfl, rfl, rfl, rfl, rfl, rfl, rfl, rfl, rfl, rfl, rfl, rfl⟩ := h
  rfl

theorem Outcome.storeIn_ofEffect {β : Type} [Bus β] (effect : Effect) (bus : β) :
    (ofEffect effect).storeIn bus = Bus.apply bus effect.writes := by
  simp only [storeIn, ofEffect, List.foldl_map, UInt16.ofNat_toNat, UInt8.ofNat_toNat, Bus.apply]

theorem view_toNat (read : Reader) (address : UInt16) :
    view read address.toNat = (read address).toNat := by
  rw [view, UInt16.ofNat_toNat]

theorem word_toNat_add (w k : UInt16) : word (w.toNat + k.toNat) = (w + k).toNat := by
  rw [UInt16.toNat_add, word]
  omega

theorem word_toNat_sub (w k : UInt16) : word (w.toNat - k.toNat) = (w - k).toNat := by
  have := k.toNat_lt
  rw [UInt16.toNat_sub, word]
  omega

theorem word_add_one (w : UInt16) : word (w.toNat + 1) = (w + 1).toNat := word_toNat_add w 1

theorem word_add_two (w : UInt16) : word (w.toNat + 2) = (w + 2).toNat := word_toNat_add w 2

theorem word_add_three (w : UInt16) : word (w.toNat + 3) = (w + 3).toNat := word_toNat_add w 3

theorem word_sub_one (w : UInt16) : word (w.toNat - 1) = (w - 1).toNat := word_toNat_sub w 1

theorem word_sub_two (w : UInt16) : word (w.toNat - 2) = (w - 2).toNat := word_toNat_sub w 2

theorem byte_toNat_add (v k : UInt8) : byte (v.toNat + k.toNat) = (v + k).toNat := by
  rw [UInt8.toNat_add, byte]
  omega

theorem byte_toNat_sub (v k : UInt8) : byte (v.toNat - k.toNat) = (v - k).toNat := by
  have := k.toNat_lt
  rw [UInt8.toNat_sub, byte]
  omega

theorem byte_add_one (v : UInt8) : byte (v.toNat + 1) = (v + 1).toNat := byte_toNat_add v 1

theorem byte_sub_one (v : UInt8) : byte (v.toNat - 1) = (v - 1).toNat := byte_toNat_sub v 1

/-! ## Decoding -/

theorem y_toNat (op : UInt8) : y op.toNat = (Opcode.row op).val := by
  have mask : 7 = 2 ^ 3 - 1 := rfl
  rw [y, Nat.shiftRight_eq_div_pow, mask, Nat.and_two_pow_sub_one_eq_mod]
  rfl

theorem z_toNat (op : UInt8) : z op.toNat = (Opcode.column op).val := by
  have mask : 7 = 2 ^ 3 - 1 := rfl
  rw [z, mask, Nat.and_two_pow_sub_one_eq_mod]
  rfl

theorem p_toNat (op : UInt8) : p op.toNat = (Opcode.pairIndex op).val := by
  have mask : 3 = 2 ^ 2 - 1 := rfl
  rw [p, Nat.shiftRight_eq_div_pow, mask, Nat.and_two_pow_sub_one_eq_mod]
  rfl

theorem y_mod_toNat (op : UInt8) : y op.toNat % 4 = (Opcode.conditionIndex op).val := by
  rw [y_toNat]
  simp only [Opcode.row, Opcode.conditionIndex]
  omega

/-- The instruction of a kind whose operands are picked by the fields of `op`. -/
def Kind.instruction (op : UInt8) : Kind → Instruction
  | .nop => .nop
  | .loadPair => .loadPairImmediate (Pair.ofIndex (Opcode.pairIndex op))
  | .storePointer => .storeA (.pointer (Pointer.ofIndex (Opcode.pairIndex op)))
  | .loadPointer => .loadA (.pointer (Pointer.ofIndex (Opcode.pairIndex op)))
  | .incrementPair => .incrementPair (Pair.ofIndex (Opcode.pairIndex op))
  | .decrementPair => .decrementPair (Pair.ofIndex (Opcode.pairIndex op))
  | .increment => .increment (Operand.ofIndex (Opcode.row op))
  | .decrement => .decrement (Operand.ofIndex (Opcode.row op))
  | .loadByte => .loadImmediate (Operand.ofIndex (Opcode.row op))
  | .rotateA => .rotateA
  | .jumpRelative => .jumpRelative
  | .jumpRelativeIf => .jumpRelativeIf (Condition.ofIndex (Opcode.conditionIndex op))
  | .load => .load (Operand.ofIndex (Opcode.row op)) (Operand.ofIndex (Opcode.column op))
  | .aluRegister =>
    .arithmetic (AluOp.ofIndex (Opcode.row op)) (Operand.ofIndex (Opcode.column op))
  | .aluByte => .arithmeticImmediate (AluOp.ofIndex (Opcode.row op))
  | .storeTop => .storeA .topPage
  | .loadTop => .loadA .topPage
  | .storeTopC => .storeA .topPageC
  | .loadTopC => .loadA .topPageC
  | .storeAbsolute => .storeA .absolute
  | .loadAbsolute => .loadA .absolute
  | .jump => .jump
  | .call => .call
  | .ret => .ret
  | .push => .push (StackPair.ofIndex (Opcode.pairIndex op))
  | .pop => .pop (StackPair.ofIndex (Opcode.pairIndex op))
  | .rotate => .rotate (Operand.ofIndex (Opcode.column op))
  | .testBit => .testBit (Opcode.row op) (Operand.ofIndex (Opcode.column op))

/-- The bytes taken by the opcode of an instruction of a kind. -/
def Kind.opcodeSize : Kind → UInt16
  | .rotate | .testBit => 2
  | _ => 1

theorem primary?_eq (op : UInt8) :
    Opcode.primary? op = (primaryKind op.toNat).map (Kind.instruction op) := by
  have all : ∀ n : Fin 256, Opcode.primary? (UInt8.ofNat n) =
      (primaryKind (UInt8.ofNat n).toNat).map (Kind.instruction (UInt8.ofNat n)) := by
    decide +kernel
  simpa using all ⟨op.toNat, op.toNat_lt⟩

theorem extended?_eq (op : UInt8) :
    Opcode.extended? op = (extendedKind op.toNat).map (Kind.instruction op) := by
  have all : ∀ n : Fin 256, Opcode.extended? (UInt8.ofNat n) =
      (extendedKind (UInt8.ofNat n).toNat).map (Kind.instruction (UInt8.ofNat n)) := by
    decide +kernel
  simpa using all ⟨op.toNat, op.toNat_lt⟩

theorem exists_row_of_kindIn {rows : List Row} {op : Nat} {kind : Kind}
    (h : kindIn rows op = some kind) : ∃ row ∈ rows, row.kind = kind := by
  obtain ⟨row, found, rfl⟩ := Option.map_eq_some_iff.1 h
  exact ⟨row, List.mem_of_find?_eq_some found, rfl⟩

theorem opcodeSize_of_primary {op : Nat} {kind : Kind} (h : primaryKind op = some kind) :
    kind.opcodeSize = 1 := by
  have sizes : ∀ row ∈ primaryRows, row.kind.opcodeSize = 1 := by decide
  unfold primaryKind at h
  split at h
  · contradiction
  · obtain ⟨row, member, rfl⟩ := exists_row_of_kindIn h
    exact sizes row member

theorem opcodeSize_of_extended {op : Nat} {kind : Kind} (h : extendedKind op = some kind) :
    kind.opcodeSize = 2 := by
  have sizes : ∀ row ∈ extendedRows, row.kind.opcodeSize = 2 := by decide
  obtain ⟨row, member, rfl⟩ := exists_row_of_kindIn h
  exact sizes row member

/-! ## Flags as numbers -/

theorem toNat_toByte (flags : Flags) :
    flags.toByte.toNat = 128 * flags.zero.toNat + 64 * flags.subtract.toNat +
      32 * flags.halfCarry.toNat + 16 * flags.carry.toNat := by
  obtain ⟨_ | _, _ | _, _ | _, _ | _⟩ := flags <;> rfl

theorem ofByte_eq (byte : UInt8) :
    Flags.ofByte byte =
      { zero := byte.toNat / 128 % 2 = 1
        subtract := byte.toNat / 64 % 2 = 1
        halfCarry := byte.toNat / 32 % 2 = 1
        carry := byte.toNat / 16 % 2 = 1 } := by
  have all : ∀ n : Fin 256, Flags.ofByte (UInt8.ofNat n) =
      { zero := (UInt8.ofNat n).toNat / 128 % 2 = 1
        subtract := (UInt8.ofNat n).toNat / 64 % 2 = 1
        halfCarry := (UInt8.ofNat n).toNat / 32 % 2 = 1
        carry := (UInt8.ofNat n).toNat / 16 % 2 = 1 } := by
    decide +kernel
  simpa using all ⟨byte.toNat, byte.toNat_lt⟩

/-! ## Operands -/

namespace File

variable (r : Registers)

theorem next_ofRegisters (size : UInt16) :
    (ofRegisters r).next size.toNat = ofRegisters (r.skip size) := by
  simp only [next, ofRegisters, Registers.skip, word_toNat_add]

theorem next_one : (ofRegisters r).next 1 = ofRegisters (r.skip 1) := next_ofRegisters r 1

theorem next_two : (ofRegisters r).next 2 = ofRegisters (r.skip 2) := next_ofRegisters r 2

theorem next_three : (ofRegisters r).next 3 = ofRegisters (r.skip 3) := next_ofRegisters r 3

theorem bc_ofRegisters : (ofRegisters r).bc = r.bc.toNat := (Word.toNat_join r.b r.c).symm

theorem de_ofRegisters : (ofRegisters r).de = r.de.toNat := (Word.toNat_join r.d r.e).symm

theorem hl_ofRegisters : (ofRegisters r).hl = r.hl.toNat := (Word.toNat_join r.h r.l).symm

theorem af_ofRegisters : (ofRegisters r).af = r.af.toNat := by
  rw [Registers.af, Word.toNat_join, toNat_toByte]
  rfl

theorem setBC_ofRegisters (w : UInt16) :
    (ofRegisters r).setBC w.toNat = ofRegisters (r.setBC w) := by
  simp only [setBC, ofRegisters, Registers.setBC, Word.toNat_high, Word.toNat_low]

theorem setDE_ofRegisters (w : UInt16) :
    (ofRegisters r).setDE w.toNat = ofRegisters (r.setDE w) := by
  simp only [setDE, ofRegisters, Registers.setDE, Word.toNat_high, Word.toNat_low]

theorem setHL_ofRegisters (w : UInt16) :
    (ofRegisters r).setHL w.toNat = ofRegisters (r.setHL w) := by
  simp only [setHL, ofRegisters, Registers.setHL, Word.toNat_high, Word.toNat_low]

theorem setAF_ofRegisters (w : UInt16) :
    (ofRegisters r).setAF w.toNat = ofRegisters (r.setAF w) := by
  have bits : ∀ k ∈ [16, 32, 64, 128], w.toNat % 256 / k % 2 = w.toNat / k % 2 := by
    intro k hk
    simp only [List.mem_cons, List.not_mem_nil, or_false] at hk
    obtain rfl | rfl | rfl | rfl := hk <;> omega
  simp only [setAF, ofRegisters, Registers.setAF, Word.toNat_high, ofByte_eq, Word.toNat_low,
    bits _ (by decide : 16 ∈ [16, 32, 64, 128]), bits _ (by decide : 32 ∈ [16, 32, 64, 128]),
    bits _ (by decide : 64 ∈ [16, 32, 64, 128]), bits _ (by decide : 128 ∈ [16, 32, 64, 128])]

theorem r_ofRegisters (read : Reader) (i : Fin 8) :
    (ofRegisters r).r (view read) i.val = ((Operand.ofIndex i).get read r).toNat := by
  match i with
  | 0 | 1 | 2 | 3 | 4 | 5 | 7 => rfl
  | 6 =>
    change view read (ofRegisters r).hl = _
    rw [hl_ofRegisters, view_toNat]
    rfl

theorem setR_ofRegisters (i : Fin 8) (v : UInt8) :
    (ofRegisters r).setR i.val v.toNat = Outcome.ofEffect ((Operand.ofIndex i).set r v) := by
  match i with
  | 0 | 1 | 2 | 3 | 4 | 5 | 7 => rfl
  | 6 =>
    change Outcome.mk (ofRegisters r) [((ofRegisters r).hl, v.toNat)] = _
    rw [hl_ofRegisters]
    rfl

theorem rp_ofRegisters (i : Fin 4) :
    (ofRegisters r).rp i.val = ((Pair.ofIndex i).get r).toNat := by
  match i with
  | 0 => exact bc_ofRegisters r
  | 1 => exact de_ofRegisters r
  | 2 => exact hl_ofRegisters r
  | 3 => rfl

theorem setRp_ofRegisters (i : Fin 4) (w : UInt16) :
    (ofRegisters r).setRp i.val w.toNat = ofRegisters ((Pair.ofIndex i).set r w) := by
  match i with
  | 0 => exact setBC_ofRegisters r w
  | 1 => exact setDE_ofRegisters r w
  | 2 => exact setHL_ofRegisters r w
  | 3 => rfl

theorem rp2_ofRegisters (i : Fin 4) :
    (ofRegisters r).rp2 i.val = ((StackPair.ofIndex i).get r).toNat := by
  match i with
  | 0 => exact bc_ofRegisters r
  | 1 => exact de_ofRegisters r
  | 2 => exact hl_ofRegisters r
  | 3 => exact af_ofRegisters r

theorem setRp2_ofRegisters (i : Fin 4) (w : UInt16) :
    (ofRegisters r).setRp2 i.val w.toNat = ofRegisters ((StackPair.ofIndex i).set r w) := by
  match i with
  | 0 => exact setBC_ofRegisters r w
  | 1 => exact setDE_ofRegisters r w
  | 2 => exact setHL_ofRegisters r w
  | 3 => exact setAF_ofRegisters r w

theorem pointer_ofRegisters (read : Reader) (i : Fin 4) :
    (ofRegisters r).pointer i.val =
      ((Location.pointer (Pointer.ofIndex i)).address read r).toNat := by
  match i with
  | 0 => exact bc_ofRegisters r
  | 1 => exact de_ofRegisters r
  | 2 | 3 => exact hl_ofRegisters r

theorem movePointer_ofRegisters (i : Fin 4) :
    (ofRegisters r).movePointer i.val =
      ofRegisters ((Location.pointer (Pointer.ofIndex i)).advance r) := by
  match i with
  | 0 | 1 => rfl
  | 2 =>
    change (ofRegisters r).setHL (word ((ofRegisters r).hl + 1)) = _
    rw [hl_ofRegisters, word_add_one, setHL_ofRegisters]
    rfl
  | 3 =>
    change (ofRegisters r).setHL (word ((ofRegisters r).hl - 1)) = _
    rw [hl_ofRegisters, word_sub_one, setHL_ofRegisters]
    rfl

theorem condition_ofRegisters (i : Fin 4) :
    (ofRegisters r).condition i.val = (Condition.ofIndex i).holds r.f := by
  match i with
  | 0 | 1 | 2 | 3 => rfl

theorem d8_ofRegisters (read : Reader) :
    (ofRegisters r).d8 (view read) = (read (r.pc + 1)).toNat := by
  change view read (word (r.pc.toNat + 1)) = _
  rw [word_add_one, view_toNat]

theorem d16_ofRegisters (read : Reader) :
    (ofRegisters r).d16 (view read) = (wordAt read (r.pc + 1)).toNat := by
  have two : r.pc + 1 + 1 = r.pc + 2 := by rw [UInt16.add_assoc]; rfl
  change view read (word (r.pc.toNat + 1)) + 256 * view read (word (r.pc.toNat + 2)) = _
  rw [word_add_one, word_add_two, view_toNat, view_toNat, wordAt, Word.toNat_join, two,
    Nat.add_comm]

theorem top_ofRegisters (read : Reader) :
    (ofRegisters r).top (view read) = (r.top read).toNat := by
  have two : r.sp + 1 + 1 = r.sp + 2 := by rw [UInt16.add_assoc]; rfl
  change view read (word (r.sp.toNat + 1)) + 256 * view read (word (r.sp.toNat + 2)) = _
  rw [word_add_one, word_add_two, view_toNat, view_toNat, Registers.top, wordAt,
    Word.toNat_join, two, Nat.add_comm]

theorem drop_ofRegisters : (ofRegisters r).drop = ofRegisters r.drop := by
  change { ofRegisters r with sp := word (r.sp.toNat + 2) } = _
  rw [word_add_two]
  rfl

theorem push_ofRegisters (w : UInt16) :
    (ofRegisters r).push w.toNat = Outcome.ofEffect (r.push w) := by
  change Outcome.mk { ofRegisters r with sp := word (r.sp.toNat - 2) }
    [(r.sp.toNat, w.toNat / 256), (word (r.sp.toNat - 1), w.toNat % 256)] = _
  rw [word_sub_two, word_sub_one, ← Word.toNat_high, ← Word.toNat_low]
  rfl

/-- A jump goes from behind its two bytes by the signed distance that its second byte holds. -/
theorem branch_ofRegisters (v : UInt8) :
    { ofRegisters r with pc := word (r.pc.toNat + 2 + distance v.toNat) } =
      ofRegisters ((r.skip 2).branch v) := by
  have moved : word (r.pc.toNat + 2 + distance v.toNat) = ((r.skip 2).branch v).pc.toNat := by
    have := v.toNat_lt
    by_cases forward : v < 0x80
    · have small : v.toNat < 128 := UInt8.lt_iff_toNat_lt.1 forward
      simp only [word, distance, small, ↓reduceIte, Registers.branch, Registers.skip, forward,
        UInt16.add_zero, UInt16.toNat_add, UInt16.reduceToNat, UInt8.toNat_toUInt16]
      omega
    · have large : ¬v.toNat < 128 := fun small => forward (UInt8.lt_iff_toNat_lt.2 small)
      simp only [word, distance, large, ↓reduceIte, Registers.branch, Registers.skip, forward,
        UInt16.toNat_add, UInt16.reduceToNat, UInt8.toNat_toUInt16]
      omega
  rw [moved]
  rfl

theorem topPage_toNat (v : UInt8) : 0xFF00 + v.toNat = (0xFF00 + v.toUInt16).toNat := by
  have := v.toNat_lt
  have top : (0xFF00 : UInt16).toNat = 0xFF00 := rfl
  rw [UInt16.toNat_add, UInt8.toNat_toUInt16, top]
  omega

/-! ## Arithmetic -/

theorem halfCarry_ofRegisters (policy : FlagPolicy) (computed : Bool) :
    (ofRegisters r).halfCarry policy computed = policy.halfCarry computed r.f.halfCarry := by
  cases policy <;> rfl

theorem toNat_carryBit (flags : Flags) : (Alu.carryBit flags).toNat = flags.carry.toNat := by
  unfold Alu.carryBit
  cases flags.carry <;> rfl

theorem carryBit_le_one (flags : Flags) : (Alu.carryBit flags).toNat ≤ 1 := by
  rw [toNat_carryBit]
  exact flags.carry.toNat_le

theorem toNat_lowNibble (v : UInt8) : (v &&& 0x0F).toNat = v.toNat % 16 := by
  rw [UInt8.toNat_and]
  exact Nat.and_two_pow_sub_one_eq_mod v.toNat 4

theorem decide_toNat_eq_zero (v : UInt8) : decide (v.toNat = 0) = (v == 0) := by
  rw [Bool.eq_iff_iff, beq_iff_eq, decide_eq_true_iff, ← UInt8.toNat_inj]
  rfl

theorem add_ofRegisters (policy : FlagPolicy) (n k : UInt8) (carry : k.toNat ≤ 1) :
    (ofRegisters r).add policy n.toNat k.toNat =
      ofRegisters (r.setResult (Alu.add policy r.f k r.a n)) := by
  have value : byte (r.a.toNat + n.toNat + k.toNat) = (r.a + n + k).toNat := by
    rw [UInt8.toNat_add, UInt8.toNat_add, byte]
    omega
  have half : decide (0x10 ≤ r.a.toNat % 16 + n.toNat % 16 + k.toNat) =
      decide ((r.a &&& 0x0F) + (n &&& 0x0F) + k > 0x0F) := by
    have fifteen : (0x0F : UInt8).toNat = 15 := rfl
    rw [decide_eq_decide, gt_iff_lt, UInt8.lt_iff_toNat_lt, UInt8.toNat_add, UInt8.toNat_add,
      toNat_lowNibble, toNat_lowNibble, fifteen]
    omega
  change { ofRegisters r with
    a := byte (r.a.toNat + n.toNat + k.toNat)
    zero := byte (r.a.toNat + n.toNat + k.toNat) = 0
    negative := false
    half := (ofRegisters r).halfCarry policy (0x10 ≤ r.a.toNat % 16 + n.toNat % 16 + k.toNat)
    carry := 0x100 ≤ r.a.toNat + n.toNat + k.toNat } = _
  rw [value, decide_toNat_eq_zero, half, halfCarry_ofRegisters]
  rfl

/-- Taking away as integers, and taking away modulo 256 with a borrow. -/
theorem compare_ofRegisters (policy : FlagPolicy) (n k : UInt8) (borrow : k.toNat ≤ 1) :
    (ofRegisters r).compare policy n.toNat k.toNat =
      ofRegisters { r with f := (Alu.subtract policy r.f k r.a n).flags } := by
  have value : byte (r.a.toNat - n.toNat - k.toNat) = (r.a - n - k).toNat := by
    have := n.toNat_lt
    rw [UInt8.toNat_sub, UInt8.toNat_sub, byte]
    omega
  have half : decide (((r.a.toNat % 16 : Nat) - (n.toNat % 16 : Nat) - k.toNat : Int) < 0) =
      decide ((r.a &&& 0x0F) < (n &&& 0x0F) + k) := by
    rw [decide_eq_decide, UInt8.lt_iff_toNat_lt, UInt8.toNat_add, toNat_lowNibble,
      toNat_lowNibble]
    omega
  have under : decide ((r.a.toNat - n.toNat - k.toNat : Int) < 0) =
      decide (r.a.toNat < n.toNat + k.toNat) := by
    rw [decide_eq_decide]
    omega
  change { ofRegisters r with
    zero := byte (r.a.toNat - n.toNat - k.toNat) = 0
    negative := true
    half := (ofRegisters r).halfCarry policy
      (((r.a.toNat % 16 : Nat) - (n.toNat % 16 : Nat) - k.toNat : Int) < 0)
    carry := (r.a.toNat - n.toNat - k.toNat : Int) < 0 } = _
  rw [value, decide_toNat_eq_zero, half, halfCarry_ofRegisters, under]
  rfl

theorem subtract_ofRegisters (policy : FlagPolicy) (n k : UInt8) (borrow : k.toNat ≤ 1) :
    (ofRegisters r).subtract policy n.toNat k.toNat =
      ofRegisters (r.setResult (Alu.subtract policy r.f k r.a n)) := by
  have value : byte (r.a.toNat - n.toNat - k.toNat) = (r.a - n - k).toNat := by
    have := n.toNat_lt
    rw [UInt8.toNat_sub, UInt8.toNat_sub, byte]
    omega
  change { (ofRegisters r).compare policy n.toNat k.toNat with
    a := byte (r.a.toNat - n.toNat - k.toNat) } = _
  rw [compare_ofRegisters r policy n k borrow, value]
  rfl

theorem logic_ofRegisters (v : UInt8) (half : Bool) :
    (ofRegisters r).logic v.toNat half =
      ofRegisters (r.setResult ⟨v, { zero := v == 0, halfCarry := half }⟩) := by
  change { ofRegisters r with
    a := v.toNat, zero := v.toNat = 0, negative := false, half, carry := false } = _
  rw [decide_toNat_eq_zero]
  rfl

theorem alu_ofRegisters (policy : FlagPolicy) (i : Fin 8) (n : UInt8) :
    (ofRegisters r).alu policy i.val n.toNat =
      ofRegisters (r.setResult ((AluOp.ofIndex i).apply policy r.f r.a n)) := by
  have bit := carryBit_le_one r.f
  match i with
  | 0 => exact add_ofRegisters r policy n 0 (by decide)
  | 1 =>
    change (ofRegisters r).add policy n.toNat r.f.carry.toNat = _
    rw [← toNat_carryBit, add_ofRegisters r policy n _ bit]
    rfl
  | 2 => exact subtract_ofRegisters r policy n 0 (by decide)
  | 3 =>
    change (ofRegisters r).subtract policy n.toNat r.f.carry.toNat = _
    rw [← toNat_carryBit, subtract_ofRegisters r policy n _ bit]
    rfl
  | 4 =>
    change (ofRegisters r).logic (r.a.toNat &&& n.toNat) true = _
    rw [← UInt8.toNat_and, logic_ofRegisters]
    rfl
  | 5 =>
    change (ofRegisters r).logic (r.a.toNat ^^^ n.toNat) false = _
    rw [← UInt8.toNat_xor, logic_ofRegisters]
    rfl
  | 6 =>
    change (ofRegisters r).logic (r.a.toNat ||| n.toNat) false = _
    rw [← UInt8.toNat_or, logic_ofRegisters]
    rfl
  | 7 => exact compare_ofRegisters r policy n 0 (by decide)

theorem increment_ofRegisters (policy : FlagPolicy) (v : UInt8) :
    (ofRegisters r).increment policy v.toNat =
      ofRegisters { r with f := (Alu.increment policy r.f v).flags } := by
  have half : decide (0x10 ≤ v.toNat % 16 + 1) = (v &&& 0x0F == 0x0F) := by
    have fifteen : (0x0F : UInt8).toNat = 15 := rfl
    rw [Bool.eq_iff_iff, beq_iff_eq, decide_eq_true_iff, ← UInt8.toNat_inj, toNat_lowNibble,
      fifteen]
    omega
  change { ofRegisters r with
    zero := byte (v.toNat + 1) = 0
    negative := false
    half := (ofRegisters r).halfCarry policy (0x10 ≤ v.toNat % 16 + 1) } = _
  rw [byte_add_one, decide_toNat_eq_zero, half, halfCarry_ofRegisters]
  rfl

theorem decrement_ofRegisters (policy : FlagPolicy) (v : UInt8) :
    (ofRegisters r).decrement policy v.toNat =
      ofRegisters { r with f := (Alu.decrement policy r.f v).flags } := by
  have half : decide (((v.toNat % 16 : Nat) - 1 : Int) < 0) = (v &&& 0x0F == 0) := by
    rw [← decide_toNat_eq_zero, decide_eq_decide, toNat_lowNibble]
    omega
  change { ofRegisters r with
    zero := byte (v.toNat - 1) = 0
    negative := true
    half := (ofRegisters r).halfCarry policy (((v.toNat % 16 : Nat) - 1 : Int) < 0) } = _
  rw [byte_sub_one, decide_toNat_eq_zero, half, halfCarry_ofRegisters]
  rfl

/-- The turned nine bits are the rotated byte with the carry in front of it. -/
theorem turned_ofRegisters (v : UInt8) :
    (ofRegisters r).turned v.toNat =
      256 * (Alu.rotateLeft r.f v).flags.carry.toNat + (Alu.rotateLeft r.f v).value.toNat := by
  have all : ∀ (n : Fin 256) (carry : Bool),
      (2 * (UInt8.ofNat n).toNat + carry.toNat) % 512 =
        256 * (Alu.rotateLeft { carry } (UInt8.ofNat n)).flags.carry.toNat +
          (Alu.rotateLeft { carry } (UInt8.ofNat n)).value.toNat := by
    decide +kernel
  have turned := all ⟨v.toNat, v.toNat_lt⟩ r.f.carry
  simp only [UInt8.ofNat_toNat] at turned
  exact turned

theorem turned_low (v : UInt8) :
    (ofRegisters r).turned v.toNat % 256 = (Alu.rotateLeft r.f v).value.toNat := by
  have := (Alu.rotateLeft r.f v).value.toNat_lt
  rw [turned_ofRegisters]
  omega

theorem rotate_ofRegisters (v : UInt8) :
    (ofRegisters r).rotate v.toNat = ofRegisters { r with f := (Alu.rotateLeft r.f v).flags } := by
  have carry : decide ((ofRegisters r).turned v.toNat / 256 = 1) =
      (Alu.rotateLeft r.f v).flags.carry := by
    have := (Alu.rotateLeft r.f v).value.toNat_lt
    rw [turned_ofRegisters]
    cases (Alu.rotateLeft r.f v).flags.carry with
    | false =>
      rw [decide_eq_false_iff_not, Bool.toNat_false]
      omega
    | true =>
      rw [decide_eq_true_iff, Bool.toNat_true]
      omega
  change { ofRegisters r with
    zero := (ofRegisters r).turned v.toNat % 256 = 0
    negative := false
    half := false
    carry := (ofRegisters r).turned v.toNat / 256 = 1 } = _
  rw [turned_low, decide_toNat_eq_zero, carry]
  rfl

theorem testBit_ofRegisters (bit : Fin 8) (v : UInt8) :
    (ofRegisters r).testBit bit.val v.toNat =
      ofRegisters { r with f := Alu.testBit r.f bit v } := by
  have clear : decide (v.toNat / 2 ^ bit.val % 2 = 0) = !v.toNat.testBit bit.val := by
    rw [Nat.testBit_eq_decide_div_mod_eq, ← decide_not, decide_eq_decide]
    omega
  change { ofRegisters r with
    zero := v.toNat / 2 ^ bit.val % 2 = 0, negative := false, half := true } = _
  rw [clear]
  rfl

end File

/-! ## Instructions -/

section

variable (read : Reader) (r : Registers) (size : UInt16)

theorem get_skip (operand : Operand) : operand.get read (r.skip size) = operand.get read r := by
  cases operand <;> rfl

theorem pairGet_skip (pair : Pair) : pair.get (r.skip size) = pair.get r := by
  cases pair <;> rfl

theorem stackPairGet_skip (pair : StackPair) : pair.get (r.skip size) = pair.get r := by
  cases pair <;> rfl

theorem pointerAddress_skip (pointer : Pointer) :
    (Location.pointer pointer).address read (r.skip size) =
      (Location.pointer pointer).address read r := by
  cases pointer <;> rfl

theorem skip_one_one : (r.skip 1).skip 1 = r.skip 2 := by
  rw [Registers.skip, Registers.skip, UInt16.add_assoc]
  rfl

theorem skip_one_two : (r.skip 1).skip 2 = r.skip 3 := by
  rw [Registers.skip, Registers.skip, UInt16.add_assoc]
  rfl

end

/-- Every kind of instruction, its operands picked by the fields of `op`, has the effect that the
integer semantics gives it. -/
theorem execute_ofRegisters (policy : FlagPolicy) (read : Reader) (op : UInt8) (r : Registers)
    (kind : Kind) :
    execute policy (view read) op.toNat (File.ofRegisters r) kind =
      Outcome.ofEffect ((kind.instruction op).effect policy read (r.skip kind.opcodeSize)) := by
  cases kind with
  | nop => rw [execute, File.next_one]; rfl
  | loadPair =>
    rw [execute, File.next_three, p_toNat, File.d16_ofRegisters, File.setRp_ofRegisters,
      ← skip_one_two]
    rfl
  | storePointer =>
    rw [execute, File.next_one, p_toNat, File.movePointer_ofRegisters,
      File.pointer_ofRegisters r read, ← pointerAddress_skip read r 1]
    rfl
  | loadPointer =>
    rw [execute, File.next_one, p_toNat, File.movePointer_ofRegisters,
      File.pointer_ofRegisters r read, view_toNat, ← pointerAddress_skip read r 1]
    rfl
  | incrementPair =>
    rw [execute, File.next_one, p_toNat, File.rp_ofRegisters, word_add_one,
      File.setRp_ofRegisters, ← pairGet_skip r 1]
    rfl
  | decrementPair =>
    rw [execute, File.next_one, p_toNat, File.rp_ofRegisters, word_sub_one,
      File.setRp_ofRegisters, ← pairGet_skip r 1]
    rfl
  | increment =>
    rw [execute, File.next_one, y_toNat, File.r_ofRegisters, File.increment_ofRegisters,
      byte_add_one, File.setR_ofRegisters, ← get_skip read r 1]
    rfl
  | decrement =>
    rw [execute, File.next_one, y_toNat, File.r_ofRegisters, File.decrement_ofRegisters,
      byte_sub_one, File.setR_ofRegisters, ← get_skip read r 1]
    rfl
  | loadByte =>
    rw [execute, File.next_two, y_toNat, File.d8_ofRegisters, File.setR_ofRegisters,
      ← skip_one_one]
    rfl
  | rotateA =>
    change Outcome.mk { ((File.ofRegisters r).next 1).rotate r.a.toNat with
      a := (File.ofRegisters r).turned r.a.toNat % 256, zero := false } [] = _
    rw [File.next_one, File.rotate_ofRegisters, File.turned_low]
    rfl
  | jumpRelative =>
    have branch := File.branch_ofRegisters r (read (r.pc + 1))
    rw [← skip_one_one] at branch
    rw [execute, File.d8_ofRegisters]
    exact congrArg (Outcome.mk · []) branch
  | jumpRelativeIf =>
    have branch := File.branch_ofRegisters r (read (r.pc + 1))
    rw [← skip_one_one] at branch
    rw [execute, y_mod_toNat, File.condition_ofRegisters, File.d8_ofRegisters, File.next_two,
      ← skip_one_one]
    change _ = Outcome.mk (File.ofRegisters
      (if (Condition.ofIndex (Opcode.conditionIndex op)).holds r.f then
        ((r.skip 1).skip 1).branch (read (r.pc + 1)) else (r.skip 1).skip 1)) []
    cases (Condition.ofIndex (Opcode.conditionIndex op)).holds r.f with
    | false => rfl
    | true => exact congrArg (Outcome.mk · []) branch
  | load =>
    rw [execute, File.next_one, y_toNat, z_toNat, File.r_ofRegisters, File.setR_ofRegisters,
      ← get_skip read r 1]
    rfl
  | aluRegister =>
    rw [execute, File.next_one, y_toNat, z_toNat, File.r_ofRegisters, File.alu_ofRegisters,
      ← get_skip read r 1]
    rfl
  | aluByte =>
    rw [execute, File.next_two, y_toNat, File.d8_ofRegisters, File.alu_ofRegisters,
      ← skip_one_one]
    rfl
  | storeTop =>
    rw [execute, File.next_two, File.d8_ofRegisters, File.topPage_toNat, ← skip_one_one]
    rfl
  | loadTop =>
    rw [execute, File.next_two, File.d8_ofRegisters, File.topPage_toNat, view_toNat,
      ← skip_one_one]
    rfl
  | storeTopC =>
    change Outcome.mk _ [(0xFF00 + r.c.toNat, r.a.toNat)] = _
    rw [File.next_one, File.topPage_toNat]
    rfl
  | loadTopC =>
    change Outcome.mk { (File.ofRegisters r).next 1 with
      a := view read (0xFF00 + r.c.toNat) } [] = _
    rw [File.next_one, File.topPage_toNat, view_toNat]
    rfl
  | storeAbsolute =>
    rw [execute, File.next_three, File.d16_ofRegisters, ← skip_one_two]
    rfl
  | loadAbsolute =>
    rw [execute, File.next_three, File.d16_ofRegisters, view_toNat, ← skip_one_two]
    rfl
  | jump => rw [execute, File.d16_ofRegisters]; rfl
  | call =>
    have behind : r.pc + 1 + 2 = r.pc + 3 := by rw [UInt16.add_assoc]; rfl
    change Outcome.mk { ((File.ofRegisters r).push (word (r.pc.toNat + 3))).file with
      pc := (File.ofRegisters r).d16 (view read) }
      ((File.ofRegisters r).push (word (r.pc.toNat + 3))).stores = _
    rw [word_add_three, ← behind, File.push_ofRegisters, File.d16_ofRegisters]
    rfl
  | ret => rw [execute, File.drop_ofRegisters, File.top_ofRegisters]; rfl
  | push =>
    rw [execute, File.next_one, p_toNat, File.rp2_ofRegisters, File.push_ofRegisters,
      ← stackPairGet_skip r 1]
    rfl
  | pop =>
    rw [execute, File.next_one, p_toNat, File.drop_ofRegisters, File.top_ofRegisters,
      File.setRp2_ofRegisters]
    rfl
  | rotate =>
    rw [execute, File.next_two, z_toNat, File.r_ofRegisters, File.rotate_ofRegisters,
      File.turned_low, File.setR_ofRegisters, ← get_skip read r 2]
    rfl
  | testBit =>
    rw [execute, File.next_two, y_toNat, z_toNat, File.r_ofRegisters, File.testBit_ofRegisters,
      ← get_skip read r 2]
    rfl

/-- The integer semantics finds an instruction where the processor finds one, and gives it the same
effect. -/
theorem step_ofRegisters (policy : FlagPolicy) (read : Reader) (r : Registers) :
    step policy (view read) (File.ofRegisters r) =
      (Opcode.fetch read r.pc).instruction?.map fun instruction =>
        Outcome.ofEffect
          (instruction.effect policy read (r.skip (Opcode.fetch read r.pc).size)) := by
  have op : view read (File.ofRegisters r).pc = (read r.pc).toNat := view_toNat read r.pc
  have following : view read (word ((File.ofRegisters r).pc + 1)) = (read (r.pc + 1)).toNat := by
    change view read (word (r.pc.toNat + 1)) = _
    rw [word_add_one, view_toNat]
  by_cases extended : read r.pc = 0xCB
  · have opcode : Opcode.fetch read r.pc = .extended (read (r.pc + 1)) := if_pos extended
    have first : (read r.pc).toNat = 0xCB := by rw [extended]; rfl
    rw [step, op, following, opcode, if_pos first, Opcode.instruction?, extended?_eq]
    dsimp only
    cases kind : extendedKind (read (r.pc + 1)).toNat with
    | none => rfl
    | some kind' =>
      simp only [Option.map_some, execute_ofRegisters, opcodeSize_of_extended kind, Opcode.size]
  · have opcode : Opcode.fetch read r.pc = .primary (read r.pc) := if_neg extended
    have first : (read r.pc).toNat ≠ 0xCB := fun same => extended (UInt8.toNat_inj.1 same)
    rw [step, op, opcode, if_neg first, Opcode.instruction?, primary?_eq]
    cases kind : primaryKind (read r.pc).toNat with
    | none => rfl
    | some kind' =>
      simp only [Option.map_some, execute_ofRegisters, opcodeSize_of_primary kind, Opcode.size]

end Reference

namespace Cpu

variable {β : Type} [Bus β]

/-- Wherever an opcode is supported, a step succeeds. Its registers are the ones, and the only ones,
that read as those of the integer semantics, and the bus has taken exactly the stores of it. -/
theorem step_eq_reference (cpu : Cpu) (bus : β)
    (first : (Opcode.primary (Bus.read bus cpu.registers.pc)).isSupported = true)
    (second : Bus.read bus cpu.registers.pc = 0xCB →
      (Opcode.extended (Bus.read bus (cpu.registers.pc + 1))).isSupported = true) :
    ∃ outcome registers,
      Reference.step cpu.policy (Reference.view (Bus.read bus))
        (Reference.File.ofRegisters cpu.registers) = some outcome ∧
      cpu.step bus = (.ok (), { cpu with registers }, outcome.storeIn bus) ∧
      ∀ other, Reference.File.ofRegisters other = outcome.file ↔ other = registers := by
  have supported : (Opcode.fetch (Bus.read bus) cpu.registers.pc).isSupported = true := by
    unfold Opcode.fetch
    split
    next extended => exact second extended
    next => exact first
  rw [Opcode.isSupported_fetch] at supported
  obtain ⟨instruction, found⟩ := Option.isSome_iff_exists.1 supported
  have stepped := step_of_found found
  have reference := Reference.step_ofRegisters cpu.policy (Bus.read bus) cpu.registers
  rw [found, Option.map_some] at reference
  refine ⟨_, _, reference, ?_, fun other => ⟨Reference.File.ofRegisters_inj, ?_⟩⟩
  · rw [Reference.Outcome.storeIn_ofEffect]
    exact stepped
  · rintro rfl
    rfl

/-- A rotation of a memory cell, by an opcode with a byte at each end of the address space. -/
theorem step_rotate_at_end :
    let cpu : Cpu := { registers := { h := 0x12, l := 0x34, pc := 0xFFFF } }
    let bus := ((Ram.blank.write 0xFFFF 0xCB).write 0x0000 0x16).write 0x1234 0x81
    (Opcode.primary (Bus.read bus 0xFFFF)).isSupported = true ∧
      (Opcode.extended (Bus.read bus (0xFFFF + 1))).isSupported = true ∧
      cpu.step bus =
        (.ok (), { cpu with registers := { cpu.registers with f := { carry := true }, pc := 1 } },
          bus.write 0x1234 0x02) := by
  intro cpu bus
  have first : Bus.read bus 0xFFFF = 0xCB := by simp [bus, Bus.read, Ram.read_write]
  have second : Bus.read bus (0xFFFF + 1) = 0x16 := by simp [bus, Bus.read, Ram.read_write]
  have cell : Bus.read bus 0x1234 = 0x81 := by simp [bus, Bus.read, Ram.read_write]
  have supported : (Opcode.primary (Bus.read bus 0xFFFF)).isSupported = true := by
    rw [first]
    decide
  have supported' : (Opcode.extended (Bus.read bus (0xFFFF + 1))).isSupported = true := by
    rw [second]
    decide
  have rotated : ∀ cells : Reference.Cells, cells 0xFFFF = 0xCB → cells 0x0000 = 0x16 →
      cells 0x1234 = 0x81 →
      Reference.step .accurate cells (Reference.File.ofRegisters cpu.registers) = some
        { file := .ofRegisters { cpu.registers with f := { carry := true }, pc := 1 }
          stores := [(0x1234, 0x02)] } := by
    intro cells extension opcode operand
    have kind : Reference.extendedKind 0x16 = some .rotate := by decide
    have here : cells (Reference.File.ofRegisters cpu.registers).pc = 0xCB := extension
    have wrapped : Reference.word ((Reference.File.ofRegisters cpu.registers).pc + 1) = 0 :=
      Reference.word_add_one 0xFFFF
    have there : (Reference.File.ofRegisters cpu.registers).r cells (Reference.z 0x16) = 0x81 :=
      operand
    rw [Reference.step, here, wrapped, opcode, if_pos rfl]
    dsimp only
    rw [kind, Option.map_some, Reference.execute, there]
    simp only [cpu]
    decide
  have rotatedHere := rotated (Reference.view (Bus.read bus))
    ((Reference.view_toNat _ 0xFFFF).trans (congrArg UInt8.toNat first))
    ((Reference.view_toNat _ (0xFFFF + 1)).trans (congrArg UInt8.toNat second))
    ((Reference.view_toNat _ 0x1234).trans (congrArg UInt8.toNat cell))
  obtain ⟨outcome, registers, reference, stepped, only⟩ :=
    step_eq_reference cpu bus supported fun _ => supported'
  obtain rfl := Option.some.inj (rotatedHere.symm.trans reference)
  obtain rfl := (only _).1 rfl
  exact ⟨supported, supported', stepped⟩

end Cpu

end DotMatrix
