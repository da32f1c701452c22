import Mathlib.Data.List.Forall2
import DotMatrix.Proofs.Cpu.Trace

/-!
# What the half carry can reach

The two flag policies give the half carry different values. No instruction looks at it but the one
that pushes AF, so everything else stays the same; and the half carry itself is the same again after
every instruction that sets it without asking the policy.

Registers are compared through `blur`, which clears the half carry and leaves the rest.
-/
namespace DotMatrix

/-- The registers with the half carry clear. -/
def Registers.blur (r : Registers) : Registers := { r with f := { r.f with halfCarry := false } }

def Effect.blur (effect : Effect) : Effect := { effect with registers := effect.registers.blur }

theorem Effect.of_blur_eq {effect effect' : Effect} (same : effect.blur = effect'.blur) :
    effect.registers.blur = effect'.registers.blur ∧ effect.writes = effect'.writes :=
  ⟨(congrArg Effect.registers same :), (congrArg Effect.writes same :)⟩

/-- A processor of which neither the half carry nor the policy is seen. -/
def Cpu.blur (cpu : Cpu) : Cpu := { registers := cpu.registers.blur, policy := .legacy }

def DecodeFault.blur (fault : DecodeFault) : DecodeFault :=
  { fault with registers := fault.registers.blur }

def Turn.blur {β : Type} (turn : Turn β) : Turn β :=
  { turn with outcome := turn.outcome.mapError DecodeFault.blur, cpu := turn.cpu.blur }

namespace Opcode

/-- The opcode that pushes AF. -/
def pushAF : Opcode := .primary 0xF5

theorem eq_pushAF {opcode : Opcode} (decoded : opcode.instruction? = some (.push .af)) :
    opcode = pushAF := by
  cases opcode with
  | primary byte =>
    have all : ∀ n : Fin 256, primary? (UInt8.ofNat n) = some (.push .af) → n = 0xF5 := by
      decide +kernel
    have only := all ⟨byte.toNat, byte.toNat_lt⟩
    simp only [UInt8.ofNat_toNat] at only
    exact congrArg Opcode.primary (UInt8.toNat_inj.1 (congrArg Fin.val (only decoded)))
  | extended byte =>
    have none : ∀ n : Fin 256, extended? (UInt8.ofNat n) ≠ some (.push .af) := by
      decide +kernel
    have never := none ⟨byte.toNat, byte.toNat_lt⟩
    simp only [UInt8.ofNat_toNat] at never
    exact absurd decoded never

end Opcode

namespace Instruction

/-- Whether an instruction takes the half carry from elsewhere than the policy: the logical
operations, the rotations and the test of a bit set it themselves, and AF may come from the stack. -/
def setsHalfCarry : Instruction → Bool
  | .arithmetic .and _ | .arithmetic .xor _ | .arithmetic .or _ => true
  | .arithmeticImmediate .and | .arithmeticImmediate .xor | .arithmeticImmediate .or => true
  | .rotateA | .rotate _ | .testBit _ _ | .pop .af => true
  | _ => false

variable (policy : FlagPolicy) (read : Reader) (r : Registers)

/-- Whatever the policy, an instruction that does not push AF does what the other policy has it do
with the half carry clear. -/
theorem blur_effect {instruction : Instruction} (unpushed : instruction ≠ .push .af) :
    (instruction.effect policy read r).blur = (instruction.effect .legacy read r.blur).blur := by
  cases instruction with
  | nop | rotateA | jumpRelative | jump | call | ret => rfl
  | loadPairImmediate target | incrementPair target | decrementPair target => cases target <;> rfl
  | loadImmediate target | increment target | decrement target | rotate target => cases target <;> rfl
  | load target source => cases target <;> cases source <;> rfl
  | storeA location | loadA location =>
    cases location with
    | pointer pointer => cases pointer <;> rfl
    | topPage | topPageC | absolute => rfl
  | arithmetic op source => cases op <;> cases source <;> rfl
  | arithmeticImmediate op => cases op <;> rfl
  | testBit bit source => cases source <;> rfl
  | jumpRelativeIf condition =>
    have taken : condition.holds r.blur.f = condition.holds r.f := by cases condition <;> rfl
    simp only [effect, taken]
    cases condition.holds r.f <;> rfl
  | push source =>
    cases source with
    | bc | de | hl => rfl
    | af => exact absurd rfl unpushed
  | pop target => cases target <;> rfl

/-- Where an instruction sets the half carry itself, neither the policy nor the old half carry is
left in the registers. -/
theorem registers_effect_of_setsHalfCarry {instruction : Instruction}
    (sets : instruction.setsHalfCarry) :
    (instruction.effect policy read r).registers =
      (instruction.effect .legacy read r.blur).registers := by
  cases instruction with
  | arithmetic op source =>
    cases op with
    | and | xor | or => cases source <;> rfl
    | add | adc | sub | sbc | cp => cases sets
  | arithmeticImmediate op =>
    cases op with
    | and | xor | or => rfl
    | add | adc | sub | sbc | cp => cases sets
  | rotateA => rfl
  | rotate target => cases target <;> rfl
  | testBit bit source => cases source <;> rfl
  | pop target =>
    cases target with
    | af => rfl
    | bc | de | hl => cases sets
  | _ => cases sets

end Instruction

/-- What two turns have in common if only their policies are different: all that does not hold the
half carry, and the half carry as well where the instruction sets it itself. -/
structure Turn.Agree {β : Type} (turn turn' : Turn β) : Prop where
  blur_eq : turn.blur = turn'.blur
  registers_eq : ∀ instruction, turn.opcode.instruction? = some instruction →
    instruction.setsHalfCarry → turn.cpu.registers = turn'.cpu.registers

namespace Cpu

variable {β : Type} [Bus β]

theorem blur_turn (cpu : Cpu) (bus : β) (unpushed : (cpu.turn bus).opcode ≠ .pushAF) :
    (cpu.turn bus).blur = (cpu.blur.turn bus).blur := by
  cases found : (Opcode.fetch (Bus.read bus) cpu.registers.pc).instruction? with
  | none =>
    have blurred : (Opcode.fetch (Bus.read bus) cpu.blur.registers.pc).instruction? = none := found
    rw [turn_of_missing found, turn_of_missing blurred]
    rfl
  | some instruction =>
    have blurred : (Opcode.fetch (Bus.read bus) cpu.blur.registers.pc).instruction? =
      some instruction := found
    have other : instruction ≠ .push .af := by
      rintro rfl
      exact unpushed (Opcode.eq_pushAF found)
    obtain ⟨registers, writes⟩ := Effect.of_blur_eq (instruction.blur_effect cpu.policy
      (Bus.read bus) (cpu.registers.skip (Opcode.fetch (Bus.read bus) cpu.registers.pc).size) other)
    rw [turn_of_found found, turn_of_found blurred]
    simp only [Turn.blur, Cpu.blur, registers, writes]
    rfl

/-- The registers that an instruction which sets the half carry itself leaves, under any policy. -/
theorem registers_turn_of_setsHalfCarry {cpu : Cpu} {bus : β} {instruction : Instruction}
    (found : (Opcode.fetch (Bus.read bus) cpu.registers.pc).instruction? = some instruction)
    (sets : instruction.setsHalfCarry) :
    (cpu.turn bus).cpu.registers = (cpu.blur.turn bus).cpu.registers := by
  have blurred : (Opcode.fetch (Bus.read bus) cpu.blur.registers.pc).instruction? =
    some instruction := found
  rw [turn_of_found found, turn_of_found blurred]
  exact instruction.registers_effect_of_setsHalfCarry cpu.policy (Bus.read bus) _ sets

/-- One step of processors that differ in policy and half carry only. -/
theorem turn_agree {cpu cpu' : Cpu} (alike : cpu.blur = cpu'.blur) (bus : β)
    (unpushed : (cpu.turn bus).opcode ≠ .pushAF) : (cpu.turn bus).Agree (cpu'.turn bus) := by
  have pc : cpu.registers.pc = cpu'.registers.pc := (congrArg (·.registers.pc) alike :)
  have opcode : (cpu.turn bus).opcode = (cpu'.turn bus).opcode :=
    congrArg (Opcode.fetch (Bus.read bus)) pc
  refine ⟨?_, fun instruction found sets => ?_⟩
  · rw [blur_turn cpu bus unpushed, blur_turn cpu' bus (opcode ▸ unpushed), alike]
  · have found' := opcode ▸ found
    rw [registers_turn_of_setsHalfCarry found sets, registers_turn_of_setsHalfCarry found' sets,
      alike]

/-- As long as AF is not pushed, processors that differ in policy and half carry only go through
turns that agree. -/
theorem trace_agree {cpu cpu' : Cpu} (alike : cpu.blur = cpu'.blur) (bus : β) (steps : Nat)
    (unpushed : ∀ turn ∈ cpu.trace steps bus, turn.opcode ≠ .pushAF) :
    List.Forall₂ Turn.Agree (cpu.trace steps bus) (cpu'.trace steps bus) := by
  induction steps generalizing cpu cpu' bus with
  | zero => exact .nil
  | succ steps ih =>
    obtain ⟨first, others⟩ := List.forall_mem_cons.1 unpushed
    have agree := turn_agree alike bus first
    have outcome : (cpu.turn bus).outcome.mapError _ = (cpu'.turn bus).outcome.mapError _ :=
      congrArg Turn.outcome agree.blur_eq
    have cpus : (cpu.turn bus).cpu.blur = (cpu'.turn bus).cpu.blur :=
      congrArg Turn.cpu agree.blur_eq
    have buses : (cpu.turn bus).bus = (cpu'.turn bus).bus :=
      (congrArg Turn.bus agree.blur_eq :)
    refine .cons agree ?_
    cases ended : (cpu.turn bus).outcome with
    | ok =>
      cases ended' : (cpu'.turn bus).outcome with
      | ok =>
        rw [ended] at others
        rw [← buses]
        exact ih cpus _ others
      | error fault' => rw [ended, ended'] at outcome; cases outcome
    | error fault =>
      cases ended' : (cpu'.turn bus).outcome with
      | ok => rw [ended, ended'] at outcome; cases outcome
      | error fault' => exact .nil

end Cpu

end DotMatrix
