import DotMatrix.Proofs.Checked.Basic
import DotMatrix.Proofs.Cpu.ReferenceStep

/-!
# The processor with its checks turned on

Instructions are carried out by handlers, each of which asserts which opcodes it is for. The
handlers are entered in two tables of their own, so that an assertion and the entries it is about
stand apart. Sums and differences are computed in types that are wide enough for them, one operation
at a time. Everything else goes round by intention and needs no check.
-/
namespace DotMatrix

namespace Alu

def carryIn (flags : Flags) (useCarry : Bool) : UInt8 := if useCarry then carryBit flags else 0

/-- The nibbles are added as bytes, the bytes as words. -/
def checkedAdd (policy : FlagPolicy) (flags : Flags) (useCarry : Bool) (a operand : UInt8) :
    Checked AluResult := do
  let carry := carryIn flags useCarry
  let nibbles ← Checked.unsigned 8 ((a &&& 0x0F).toNat + (operand &&& 0x0F).toNat)
  let half ← Checked.unsigned 8 (nibbles + carry.toNat)
  let bytes ← Checked.unsigned 16 (a.toNat + operand.toNat)
  let full ← Checked.unsigned 16 (bytes + carry.toNat)
  let value := UInt8.ofNat full
  return {
    value
    flags := {
      zero := value == 0
      subtract := false
      halfCarry := policy.halfCarry (half > 0x0F) flags.halfCarry
      carry := full > 0xFF } }

/-- All differences are taken as signed words. -/
def checkedSubtract (policy : FlagPolicy) (flags : Flags) (useCarry : Bool) (a operand : UInt8) :
    Checked AluResult := do
  let borrow := carryIn flags useCarry
  let nibbles ← Checked.signed16 ((a &&& 0x0F).toNat - (operand &&& 0x0F).toNat)
  let half ← Checked.signed16 (nibbles - borrow.toNat)
  let bytes ← Checked.signed16 (a.toNat - operand.toNat)
  let full ← Checked.signed16 (bytes - borrow.toNat)
  let value := UInt8.ofNat (full % 256).toNat
  return {
    value
    flags := {
      zero := value == 0
      subtract := true
      halfCarry := policy.halfCarry (half < 0) flags.halfCarry
      carry := full < 0 } }

/-- The bit is looked up through a mask. -/
def checkedTestBit (flags : Flags) (bit : Nat) (value : UInt8) : Checked Flags := do
  let distance ← Checked.distance bit
  return {
    zero := value &&& 1 <<< distance == 0
    subtract := false
    halfCarry := true
    carry := flags.carry }

end Alu

def AluOp.checkedApply (policy : FlagPolicy) (flags : Flags) (a operand : UInt8) :
    AluOp → Checked AluResult
  | .add => Alu.checkedAdd policy flags false a operand
  | .adc => Alu.checkedAdd policy flags true a operand
  | .sub => Alu.checkedSubtract policy flags false a operand
  | .sbc => Alu.checkedSubtract policy flags true a operand
  | .and => return Alu.and a operand
  | .xor => return Alu.xor a operand
  | .or => return Alu.or a operand
  | .cp => return { ← Alu.checkedSubtract policy flags false a operand with value := a }

def Instruction.checkedEffect (policy : FlagPolicy) (read : Reader) (r : Registers) :
    Instruction → Checked Effect
  | .arithmetic op source => do
    let result ← op.checkedApply policy r.f r.a (source.get read r)
    return { registers := r.setResult result }
  | .arithmeticImmediate op => do
    let result ← op.checkedApply policy r.f r.a (read r.pc)
    return { registers := (r.skip 1).setResult result }
  | .testBit bit source => do
    let f ← Alu.checkedTestBit r.f bit (source.get read r)
    return { registers := { r with f } }
  | instruction => return instruction.effect policy read r

/-! ## Handlers -/

/-- What instructions are carried out by, each for a family of opcodes. -/
inductive Handler where
  | nop | loadPairImmediate | loadImmediate | storeIndirect | loadIndirect | load
  | topPage | topPageC | absolute
  | increment | decrement | incrementPair | decrementPair
  | rotateA | arithmetic | arithmeticImmediate
  | jumpRelative | jumpRelativeIf | jump | call | ret | push | pop
  | rotate | testBit
deriving DecidableEq

namespace Handler

/-- What a handler asserts of the opcode that it is given. -/
def accepts (byte : UInt8) : Handler → Bool
  | nop | rotateA | jumpRelative | jump | call | ret => true
  | loadPairImmediate => byte ∈ [0x01, 0x11, 0x21, 0x31]
  | loadImmediate => byte ∈ [0x06, 0x0E, 0x16, 0x1E, 0x26, 0x2E, 0x36, 0x3E]
  | storeIndirect => byte ∈ [0x02, 0x12, 0x22, 0x32]
  | loadIndirect => byte ∈ [0x0A, 0x1A, 0x2A, 0x3A]
  | load => 0x40 ≤ byte ∧ byte ≤ 0x7F ∧ byte ≠ 0x76
  | topPage => byte ∈ [0xE0, 0xF0]
  | topPageC => byte ∈ [0xE2, 0xF2]
  | absolute => byte ∈ [0xEA, 0xFA]
  | increment => byte ∈ [0x04, 0x0C, 0x14, 0x1C, 0x24, 0x2C, 0x34, 0x3C]
  | decrement => byte ∈ [0x05, 0x0D, 0x15, 0x1D, 0x25, 0x2D, 0x35, 0x3D]
  | incrementPair => byte ∈ [0x03, 0x13, 0x23, 0x33]
  | decrementPair => byte ∈ [0x0B, 0x1B, 0x2B, 0x3B]
  | arithmetic => 0x80 ≤ byte ∧ byte ≤ 0xBF
  | arithmeticImmediate => byte ∈ [0xC6, 0xCE, 0xD6, 0xDE, 0xE6, 0xEE, 0xF6, 0xFE]
  | jumpRelativeIf => byte ∈ [0x20, 0x28, 0x30, 0x38]
  | push => byte ∈ [0xC5, 0xD5, 0xE5, 0xF5]
  | pop => byte ∈ [0xC1, 0xD1, 0xE1, 0xF1]
  | rotate => 0x10 ≤ byte ∧ byte ≤ 0x17
  | testBit => 0x40 ≤ byte ∧ byte ≤ 0x7F

/-- The instruction that a handler makes of its opcode. -/
def instruction (byte : UInt8) : Handler → Instruction
  | nop => .nop
  | loadPairImmediate => .loadPairImmediate (Pair.ofIndex (Opcode.pairIndex byte))
  | loadImmediate => .loadImmediate (Operand.ofIndex (Opcode.row byte))
  | storeIndirect => .storeA (.pointer (Pointer.ofIndex (Opcode.pairIndex byte)))
  | loadIndirect => .loadA (.pointer (Pointer.ofIndex (Opcode.pairIndex byte)))
  | load => .load (Operand.ofIndex (Opcode.row byte)) (Operand.ofIndex (Opcode.column byte))
  | topPage => if byte = 0xE0 then .storeA .topPage else .loadA .topPage
  | topPageC => if byte = 0xE2 then .storeA .topPageC else .loadA .topPageC
  | absolute => if byte = 0xEA then .storeA .absolute else .loadA .absolute
  | increment => .increment (Operand.ofIndex (Opcode.row byte))
  | decrement => .decrement (Operand.ofIndex (Opcode.row byte))
  | incrementPair => .incrementPair (Pair.ofIndex (Opcode.pairIndex byte))
  | decrementPair => .decrementPair (Pair.ofIndex (Opcode.pairIndex byte))
  | rotateA => .rotateA
  | arithmetic =>
    .arithmetic (AluOp.ofIndex (Opcode.row byte)) (Operand.ofIndex (Opcode.column byte))
  | arithmeticImmediate => .arithmeticImmediate (AluOp.ofIndex (Opcode.row byte))
  | jumpRelative => .jumpRelative
  | jumpRelativeIf => .jumpRelativeIf (Condition.ofIndex (Opcode.conditionIndex byte))
  | jump => .jump
  | call => .call
  | ret => .ret
  | push => .push (StackPair.ofIndex (Opcode.pairIndex byte))
  | pop => .pop (StackPair.ofIndex (Opcode.pairIndex byte))
  | rotate => .rotate (Operand.ofIndex (Opcode.column byte))
  | testBit => .testBit (Opcode.row byte) (Operand.ofIndex (Opcode.column byte))

/-- What a handler does where PC is behind the opcode. -/
def effect (policy : FlagPolicy) (read : Reader) (r : Registers) (byte : UInt8)
    (handler : Handler) : Checked Effect := do
  Checked.assert (handler.accepts byte)
  (handler.instruction byte).checkedEffect policy read r

end Handler

/-! ## The tables -/

/-- In the first table one byte leads to the second. -/
inductive Route where
  | direct (handler : Handler)
  | extension
deriving DecidableEq

/-- The places of a table that are filled at once. -/
inductive Slots where
  | listed (indices : List Nat)
  /-- From one index up to and with another, but for those left out. -/
  | range (first last : Nat) (except : List Nat)

def Slots.contain (index : Nat) : Slots → Bool
  | listed indices => indices.contains index
  | range first last except => first ≤ index && index ≤ last && !except.contains index

/-- Entries are made one after another, so that the last one for an index stays. -/
def entryFor {α : Type} (entries : List (α × Slots)) (index : Nat) : Option α :=
  (entries.reverse.find? (·.2.contain index)).map Prod.fst

def tableOf {α : Type} (entries : List (α × Slots)) : Vector (Option α) 256 :=
  Vector.ofFn fun index => entryFor entries index.val

theorem get_tableOf {α : Type} (entries : List (α × Slots)) (byte : UInt8) :
    Checked.get (tableOf entries) byte.toNat = pure (entryFor entries byte.toNat) := by
  rw [Checked.get_eq _ byte.toNat_lt, tableOf, Vector.getElem_ofFn]

def primaryEntries : List (Route × Slots) := [
  (.direct .nop, .listed [0x00]),
  (.direct .loadPairImmediate, .listed [0x01, 0x11, 0x21, 0x31]),
  (.direct .loadImmediate, .listed [0x06, 0x0E, 0x16, 0x1E, 0x26, 0x2E, 0x36, 0x3E]),
  (.direct .storeIndirect, .listed [0x02, 0x12, 0x22, 0x32]),
  (.direct .loadIndirect, .listed [0x0A, 0x1A, 0x2A, 0x3A]),
  (.direct .load, .range 0x40 0x7F [0x76]),
  (.direct .topPage, .listed [0xE0, 0xF0]),
  (.direct .topPageC, .listed [0xE2, 0xF2]),
  (.direct .absolute, .listed [0xEA, 0xFA]),
  (.direct .increment, .listed [0x04, 0x0C, 0x14, 0x1C, 0x24, 0x2C, 0x34, 0x3C]),
  (.direct .decrement, .listed [0x05, 0x0D, 0x15, 0x1D, 0x25, 0x2D, 0x35, 0x3D]),
  (.direct .incrementPair, .listed [0x03, 0x13, 0x23, 0x33]),
  (.direct .decrementPair, .listed [0x0B, 0x1B, 0x2B, 0x3B]),
  (.direct .rotateA, .listed [0x17]),
  (.direct .arithmetic, .range 0x80 0xBF []),
  (.direct .arithmeticImmediate, .listed [0xC6, 0xCE, 0xD6, 0xDE, 0xE6, 0xEE, 0xF6, 0xFE]),
  (.direct .jumpRelative, .listed [0x18]),
  (.direct .jumpRelativeIf, .listed [0x20, 0x28, 0x30, 0x38]),
  (.direct .jump, .listed [0xC3]),
  (.direct .call, .listed [0xCD]),
  (.direct .ret, .listed [0xC9]),
  (.direct .push, .listed [0xC5, 0xD5, 0xE5, 0xF5]),
  (.direct .pop, .listed [0xC1, 0xD1, 0xE1, 0xF1]),
  (.extension, .listed [0xCB])]

def extendedEntries : List (Handler × Slots) := [
  (.rotate, .range 0x10 0x17 []),
  (.testBit, .range 0x40 0x7F [])]

/-- A handler stands where its assertion holds and makes the instruction of the opcode there, and
where no handler stands there is no instruction. -/
def Handler.fits (byte : UInt8) (decoded : Option Instruction) : Option Handler → Bool
  | some handler => handler.accepts byte && decoded == some (handler.instruction byte)
  | none => decoded == none

def Route.fits (byte : UInt8) : Option Route → Bool
  | some .extension => byte == Opcode.extension
  | some (.direct handler) =>
    byte != Opcode.extension && Handler.fits byte (Opcode.primary? byte) (some handler)
  | none => byte != Opcode.extension && Handler.fits byte (Opcode.primary? byte) none

theorem primaryEntries_fit (byte : UInt8) :
    Route.fits byte (entryFor primaryEntries byte.toNat) := by
  have all : ∀ n : Fin 256, Route.fits (UInt8.ofNat n) (entryFor primaryEntries n) := by
    decide +kernel
  simpa using all ⟨byte.toNat, byte.toNat_lt⟩

theorem extendedEntries_fit (byte : UInt8) :
    Handler.fits byte (Opcode.extended? byte) (entryFor extendedEntries byte.toNat) := by
  have all : ∀ n : Fin 256, Handler.fits (UInt8.ofNat n) (Opcode.extended? (UInt8.ofNat n))
      (entryFor extendedEntries n) := by
    decide +kernel
  simpa using all ⟨byte.toNat, byte.toNat_lt⟩

/-! ## One step -/

namespace Cpu

/-- What the instruction at PC does, found through the tables. -/
def checkedEffect (cpu : Cpu) (read : Reader) : Checked (Except DecodeFault Effect) := do
  let r := cpu.registers
  let byte := read r.pc
  let failed (opcode : Opcode) : DecodeFault :=
    { opcode, address := r.pc, registers := r, window := Window.around read r.pc }
  match ← Checked.get (tableOf primaryEntries) byte.toNat with
  | some (.direct handler) => return .ok (← handler.effect cpu.policy read (r.skip 1) byte)
  | some .extension =>
    let byte := read (r.pc + 1)
    match ← Checked.get (tableOf extendedEntries) byte.toNat with
    | some handler => return .ok (← handler.effect cpu.policy read (r.skip 2) byte)
    | none => return .error (failed (.extended byte))
  | none => return .error (failed (.primary byte))

def checkedStep {β : Type} [Bus β] (cpu : Cpu) (bus : β) :
    Checked (Except DecodeFault Unit × Cpu × β) := do
  match ← cpu.checkedEffect (Bus.read bus) with
  | .ok effect =>
    return (.ok (), { cpu with registers := effect.registers }, Bus.apply bus effect.writes)
  | .error fault => return (.error fault, cpu, bus)

end Cpu

/-! ## No check fails -/

open Reference.File (toNat_lowNibble)

theorem Alu.toNat_carryIn_le_one (flags : Flags) (useCarry : Bool) :
    (carryIn flags useCarry).toNat ≤ 1 := by
  cases useCarry with
  | false => exact Nat.zero_le 1
  | true => exact Reference.File.carryBit_le_one flags

/-- Two nibbles and a carry stay below 32, two bytes and a carry below 512. -/
theorem Alu.checkedAdd_eq (policy : FlagPolicy) (flags : Flags) (useCarry : Bool)
    (a operand : UInt8) :
    checkedAdd policy flags useCarry a operand =
      pure (add policy flags (carryIn flags useCarry) a operand) := by
  have carry := toNat_carryIn_le_one flags useCarry
  unfold checkedAdd
  generalize carryIn flags useCarry = c at carry ⊢
  have := a.toNat_lt
  have := operand.toNat_lt
  have value : UInt8.ofNat (a.toNat + operand.toNat + c.toNat) = a + operand + c := by
    rw [UInt8.ofNat_add, UInt8.ofNat_add, UInt8.ofNat_toNat, UInt8.ofNat_toNat, UInt8.ofNat_toNat]
  have half : decide ((a &&& 0x0F).toNat + (operand &&& 0x0F).toNat + c.toNat > 0x0F) =
      decide ((a &&& 0x0F) + (operand &&& 0x0F) + c > 0x0F) := by
    have fifteen : (0x0F : UInt8).toNat = 15 := rfl
    rw [decide_eq_decide, gt_iff_lt, gt_iff_lt, UInt8.lt_iff_toNat_lt, UInt8.toNat_add,
      UInt8.toNat_add, toNat_lowNibble, toNat_lowNibble, fifteen]
    omega
  rw [Checked.unsigned_eq (by rw [toNat_lowNibble, toNat_lowNibble]; omega), pure_bind,
    Checked.unsigned_eq (by rw [toNat_lowNibble, toNat_lowNibble]; omega), pure_bind,
    Checked.unsigned_eq (by omega), pure_bind, Checked.unsigned_eq (by omega), pure_bind,
    value, half]
  rfl

/-- No difference is below -257. -/
theorem Alu.checkedSubtract_eq (policy : FlagPolicy) (flags : Flags) (useCarry : Bool)
    (a operand : UInt8) :
    checkedSubtract policy flags useCarry a operand =
      pure (subtract policy flags (carryIn flags useCarry) a operand) := by
  have borrow := toNat_carryIn_le_one flags useCarry
  unfold checkedSubtract
  generalize carryIn flags useCarry = b at borrow ⊢
  have := a.toNat_lt
  have := operand.toNat_lt
  have value : UInt8.ofNat (((a.toNat : Int) - operand.toNat - b.toNat) % 256).toNat =
      a - operand - b := by
    apply UInt8.toNat_inj.1
    rw [UInt8.toNat_ofNat', UInt8.toNat_sub, UInt8.toNat_sub]
    omega
  have half : decide (((a &&& 0x0F).toNat : Int) - (operand &&& 0x0F).toNat - b.toNat < 0) =
      decide ((a &&& 0x0F) < (operand &&& 0x0F) + b) := by
    rw [decide_eq_decide, UInt8.lt_iff_toNat_lt, UInt8.toNat_add, toNat_lowNibble, toNat_lowNibble]
    omega
  have full : decide ((a.toNat : Int) - operand.toNat - b.toNat < 0) =
      decide (a.toNat < operand.toNat + b.toNat) := by
    rw [decide_eq_decide]
    omega
  rw [toNat_lowNibble, toNat_lowNibble] at half
  rw [toNat_lowNibble, toNat_lowNibble, Checked.signed16_eq (by omega) (by omega), pure_bind,
    Checked.signed16_eq (by omega) (by omega), pure_bind,
    Checked.signed16_eq (by omega) (by omega), pure_bind,
    Checked.signed16_eq (by omega) (by omega), pure_bind, value, half, full]
  rfl

theorem Alu.checkedTestBit_eq (flags : Flags) (bit : Fin 8) (value : UInt8) :
    checkedTestBit flags bit.val value = pure (testBit flags bit value) := by
  have all : ∀ (bit : Fin 8) (n : Fin 256),
      (UInt8.ofNat n &&& 1 <<< UInt8.ofNat bit.val == 0) = !n.val.testBit bit.val := by
    decide +kernel
  have masked := all bit ⟨value.toNat, value.toNat_lt⟩
  rw [UInt8.ofNat_toNat] at masked
  rw [checkedTestBit, Checked.distance_eq bit.isLt, pure_bind, masked]
  rfl

theorem AluOp.checkedApply_eq (policy : FlagPolicy) (flags : Flags) (a operand : UInt8)
    (op : AluOp) :
    op.checkedApply policy flags a operand = pure (op.apply policy flags a operand) := by
  cases op with
  | add | adc => exact Alu.checkedAdd_eq policy flags _ a operand
  | sub | sbc => exact Alu.checkedSubtract_eq policy flags _ a operand
  | and | xor | or => rfl
  | cp =>
    rw [checkedApply, Alu.checkedSubtract_eq, pure_bind]
    rfl

theorem Instruction.checkedEffect_eq (policy : FlagPolicy) (read : Reader) (r : Registers)
    (instruction : Instruction) :
    instruction.checkedEffect policy read r = pure (instruction.effect policy read r) := by
  cases instruction with
  | arithmetic op source | arithmeticImmediate op =>
    rw [checkedEffect, AluOp.checkedApply_eq, pure_bind]
    rfl
  | testBit bit source =>
    rw [checkedEffect, Alu.checkedTestBit_eq, pure_bind]
    rfl
  | _ => rfl

theorem Handler.fits_some {byte : UInt8} {decoded : Option Instruction} {handler : Handler}
    (h : Handler.fits byte decoded (some handler)) :
    handler.accepts byte ∧ decoded = some (handler.instruction byte) := by
  rwa [Handler.fits, Bool.and_eq_true, beq_iff_eq] at h

theorem Handler.effect_eq {byte : UInt8} {decoded : Option Instruction} {handler : Handler}
    (fits : Handler.fits byte decoded (some handler)) (policy : FlagPolicy) (read : Reader)
    (r : Registers) :
    ∃ instruction, decoded = some instruction ∧
      handler.effect policy read r byte = pure (instruction.effect policy read r) := by
  obtain ⟨accepted, same⟩ := Handler.fits_some fits
  refine ⟨_, same, ?_⟩
  rw [Handler.effect, Checked.assert_eq accepted, pure_bind, Instruction.checkedEffect_eq]

namespace Cpu

theorem checkedEffect_eq (cpu : Cpu) (read : Reader) :
    cpu.checkedEffect read = pure (cpu.effect read) := by
  have fits := primaryEntries_fit (read cpu.registers.pc)
  rw [checkedEffect, get_tableOf, pure_bind, effect]
  generalize entryFor primaryEntries (read cpu.registers.pc).toNat = entry at fits ⊢
  cases entry with
  | none =>
    rw [Route.fits, Handler.fits, Bool.and_eq_true, bne_iff_ne, beq_iff_eq] at fits
    have fetched : Opcode.fetch read cpu.registers.pc = .primary (read cpu.registers.pc) :=
      if_neg fits.1
    rw [fetched, Opcode.instruction?, fits.2]
  | some route =>
    cases route with
    | direct handler =>
      rw [Route.fits, Bool.and_eq_true, bne_iff_ne] at fits
      have fetched : Opcode.fetch read cpu.registers.pc = .primary (read cpu.registers.pc) :=
        if_neg fits.1
      obtain ⟨instruction, found, done⟩ :=
        Handler.effect_eq fits.2 cpu.policy read (cpu.registers.skip 1)
      rw [fetched, Opcode.instruction?, found]
      dsimp only
      rw [done, pure_bind]
      rfl
    | extension =>
      rw [Route.fits, beq_iff_eq] at fits
      have fetched : Opcode.fetch read cpu.registers.pc =
          .extended (read (cpu.registers.pc + 1)) := if_pos fits
      have fits := extendedEntries_fit (read (cpu.registers.pc + 1))
      dsimp only
      rw [get_tableOf, pure_bind, fetched, Opcode.instruction?]
      generalize entryFor extendedEntries (read (cpu.registers.pc + 1)).toNat = entry at fits ⊢
      cases entry with
      | none =>
        rw [Handler.fits, beq_iff_eq] at fits
        rw [fits]
      | some handler =>
        obtain ⟨instruction, found, done⟩ :=
          Handler.effect_eq fits cpu.policy read (cpu.registers.skip 2)
        rw [found]
        dsimp only
        rw [done, pure_bind]
        rfl

theorem checkedStep_eq {β : Type} [Bus β] (cpu : Cpu) (bus : β) :
    cpu.checkedStep bus = pure (cpu.step bus) := by
  rw [checkedStep, checkedEffect_eq, pure_bind, step]
  cases cpu.effect (Bus.read bus) <;> rfl

end Cpu

end DotMatrix
