import Mathlib.Data.Nat.Digits.Defs
import Mathlib.Tactic.LinearCombination
import DotMatrix.Proofs.Cpu.Footprint
import DotMatrix.Proofs.Cpu.Program
import DotMatrix.Proofs.Cpu.ReferenceStep

/-!
# Carry chains

A processor that works on bytes computes with numbers of many bytes by a chain of sums or
differences, lowest byte first, in which the carry flag passes from one pair of bytes to the next.
The loads between them leave it alone. What holds the chain together is a balance: the bytes
computed so far, and the carry at its place, make up the bytes that went in.
-/
namespace DotMatrix

/-- The number that bytes stand for, the lowest byte first. -/
def littleEndian (bytes : List UInt8) : Nat := Nat.ofDigits 256 (bytes.map UInt8.toNat)

theorem littleEndian_cons (byte : UInt8) (rest : List UInt8) :
    littleEndian (byte :: rest) = byte.toNat + 256 * littleEndian rest := by
  simp [littleEndian, Nat.ofDigits_cons]

theorem littleEndian_lt (bytes : List UInt8) : littleEndian bytes < 256 ^ bytes.length := by
  have digits : ∀ digit ∈ bytes.map UInt8.toNat, digit < 256 := by
    intro digit mem
    obtain ⟨byte, -, rfl⟩ := List.mem_map.1 mem
    exact byte.toNat_lt
  simpa [littleEndian] using Nat.ofDigits_lt_base_pow_length (by decide : 1 < 256) digits

/-- The opcode of an operation on A and the byte behind the opcode. -/
def AluOp.immediate : AluOp → UInt8
  | .add => 0xC6
  | .adc => 0xCE
  | .sub => 0xD6
  | .sbc => 0xDE
  | .and => 0xE6
  | .xor => 0xEE
  | .or => 0xF6
  | .cp => 0xFE

theorem AluOp.primary?_immediate (op : AluOp) :
    Opcode.primary? op.immediate = some (.arithmeticImmediate op) := by
  cases op <;> decide

/-- A sum that does not fit into its byte leaves a carry, which counts 256. -/
theorem Alu.balance_add (policy : FlagPolicy) (flags : Flags) {carryIn : UInt8} (a operand : UInt8)
    (small : carryIn.toNat ≤ 1) :
    let result := add policy flags carryIn a operand
    result.value.toNat + 256 * result.flags.carry.toNat =
      a.toNat + operand.toNat + carryIn.toNat := by
  have := a.toNat_lt
  have := operand.toNat_lt
  simp only [add, UInt8.toNat_add]
  by_cases full : a.toNat + operand.toNat + carryIn.toNat > 0xFF
  · simp only [full, decide_true, Bool.toNat_true]
    omega
  · simp only [full, decide_false, Bool.toNat_false]
    omega

/-- A difference that falls below zero leaves a carry, which has been borrowed. -/
theorem Alu.balance_subtract (policy : FlagPolicy) (flags : Flags) {borrow : UInt8}
    (a operand : UInt8) (small : borrow.toNat ≤ 1) :
    let result := subtract policy flags borrow a operand
    result.value.toNat + operand.toNat + borrow.toNat =
      a.toNat + 256 * result.flags.carry.toNat := by
  have := a.toNat_lt
  have := operand.toNat_lt
  simp only [subtract, UInt8.toNat_sub]
  by_cases short : a.toNat < operand.toNat + borrow.toNat
  · simp only [short, decide_true, Bool.toNat_true]
    omega
  · simp only [short, decide_false, Bool.toNat_false]
    omega

/-- What is computed of two numbers of many bytes. -/
inductive Chain where
  | sum
  | difference
deriving DecidableEq, Repr

namespace Chain

/-- The operation on each pair of bytes; only the first may leave the carry flag aside. -/
def op : Chain → (useCarry : Bool) → AluOp
  | .sum, false => .add
  | .sum, true => .adc
  | .difference, false => .sub
  | .difference, true => .sbc

/-- Each pair's first byte is loaded, then the operation is done with the second. -/
def code (chain : Chain) (useCarry : Bool) : List (UInt8 × UInt8) → List UInt8
  | [] => []
  | (x, y) :: pairs => 0x3E :: x :: (chain.op useCarry).immediate :: y :: code chain true pairs

def total (x y c : Int) : Chain → Int
  | .sum => x + y + c
  | .difference => x - y - c

/-- Whether the total of two numbers of so many bytes is no such number. -/
def Overflows (n : Nat) (x y c : Int) : Chain → Prop
  | .sum => 256 ^ n ≤ x + y + c
  | .difference => x < y + c

/-- How much a carry counts at its place. -/
def sign : Chain → Int
  | .sum => 1
  | .difference => -1

theorem total_eq (chain : Chain) (x y c : Int) : chain.total x y c = x + chain.sign * (y + c) := by
  cases chain <;> simp only [total, sign] <;> ring

/-- One pair of bytes: the byte computed and the carry make up what went in. -/
theorem balance_op (chain : Chain) (useCarry : Bool) (policy : FlagPolicy) (flags : Flags)
    (x y : UInt8) :
    let result := (chain.op useCarry).apply policy flags x y
    (result.value.toNat : Int) + chain.sign * (256 * result.flags.carry.toNat) =
      chain.total x.toNat y.toNat (useCarry && flags.carry).toNat := by
  have bit : (if useCarry then Alu.carryBit flags else 0).toNat =
      (useCarry && flags.carry).toNat := by
    cases useCarry with
    | false => rfl
    | true => exact Reference.File.toNat_carryBit flags
  have small : (if useCarry then Alu.carryBit flags else 0).toNat ≤ 1 := by
    rw [bit]
    exact Bool.toNat_le _
  cases chain with
  | sum =>
    have same : (sum.op useCarry).apply policy flags x y =
        Alu.add policy flags (if useCarry then Alu.carryBit flags else 0) x y := by
      cases useCarry <;> rfl
    have balance := Alu.balance_add policy flags x y small
    rw [bit] at balance
    simp only [same, total, sign]
    omega
  | difference =>
    have same : (difference.op useCarry).apply policy flags x y =
        Alu.subtract policy flags (if useCarry then Alu.carryBit flags else 0) x y := by
      cases useCarry <;> rfl
    have balance := Alu.balance_subtract policy flags x y small
    rw [bit] at balance
    simp only [same, total, sign]
    omega

end Chain

namespace Cpu

/-- The processor so many cells further on, with nothing changed but A and the flags. -/
def onward (cpu : Cpu) (a : UInt8) (f : Flags) (cells : UInt16) : Cpu :=
  { cpu with registers := { cpu.registers with a, f, pc := cpu.registers.pc + cells } }

theorem onward_zero (cpu : Cpu) : cpu.onward cpu.registers.a cpu.registers.f 0 = cpu := by
  simp [onward]

theorem onward_onward (cpu : Cpu) (a a' : UInt8) (f f' : Flags) (cells cells' : UInt16) :
    (cpu.onward a f cells).onward a' f' cells' = cpu.onward a' f' (cells + cells') := by
  simp [onward, UInt16.add_assoc]

variable {β : Type} [Bus β] {cpu : Cpu} {bus : β} {sign : Int}

theorem step_loadA {x : UInt8} {rest : List UInt8}
    (holds : Bus.HoldsCode bus cpu.registers.pc (0x3E :: x :: rest)) :
    let next := cpu.onward x cpu.registers.f 2
    cpu.step bus = (.ok (), next, bus) ∧ Bus.HoldsCode bus next.registers.pc rest := by
  obtain ⟨here, behind⟩ := Bus.holdsCode_cons.1 holds
  obtain ⟨operand, behind⟩ := Bus.holdsCode_cons.1 behind
  rw [Word.add_one_add_one] at behind
  have decodes : Opcode.primary? 0x3E = some (.loadImmediate .a) := by decide
  rw [step_primary here decodes]
  simp only [Instruction.effect, Operand.set, Registers.skip, operand, Word.add_one_add_one]
  exact ⟨rfl, behind⟩

theorem step_immediate {op : AluOp} {y : UInt8} {rest : List UInt8}
    (holds : Bus.HoldsCode bus cpu.registers.pc (op.immediate :: y :: rest)) :
    let result := op.apply cpu.policy cpu.registers.f cpu.registers.a y
    let next := cpu.onward result.value result.flags 2
    cpu.step bus = (.ok (), next, bus) ∧ Bus.HoldsCode bus next.registers.pc rest := by
  obtain ⟨here, behind⟩ := Bus.holdsCode_cons.1 holds
  obtain ⟨operand, behind⟩ := Bus.holdsCode_cons.1 behind
  rw [Word.add_one_add_one] at behind
  rw [step_primary here op.primary?_immediate]
  simp only [Instruction.effect, Registers.skip, operand, Word.add_one_add_one]
  exact ⟨rfl, behind⟩

/-- What A holds after the operation on each pair. -/
def chainDigits (cpu : Cpu) (n : Nat) (bus : β) : List UInt8 :=
  (List.range n).map fun i => (cpu.advance (2 * (i + 1)) bus).2.1.registers.a

@[simp] theorem length_chainDigits (n : Nat) : (cpu.chainDigits n bus).length = n := by
  simp [chainDigits]

/-- All steps of a chain over so many pairs succeed and change nothing but A, the flags and PC, and
what they compute balances. -/
structure Chained (cpu : Cpu) (bus : β) (n : Nat) (sign total : Int) : Prop where
  advance : ∀ k ≤ 2 * n,
    ∃ a f, cpu.advance k bus = (.ok (), cpu.onward a f (UInt16.ofNat (2 * k)), bus)
  balance : (littleEndian (cpu.chainDigits n bus) : Int) +
    sign * (256 ^ n * (cpu.advance (2 * n) bus).2.1.registers.f.carry.toNat) = total

/-- Without a pair there is only the carry. -/
theorem Chained.nil : Chained cpu bus 0 sign (sign * cpu.registers.f.carry.toNat) where
  advance := by
    intro k few
    obtain rfl : k = 0 := by omega
    exact ⟨cpu.registers.a, cpu.registers.f, by simp [onward_zero]⟩
  balance := by simp [chainDigits, littleEndian]

/-- A pair in front of a chain takes two steps, and its byte is the lowest. -/
theorem Chained.cons {x value : UInt8} {flags : Flags} {n : Nat} {total : Int}
    (loaded : cpu.step bus = (.ok (), cpu.onward x cpu.registers.f 2, bus))
    (combined : (cpu.onward x cpu.registers.f 2).step bus =
      (.ok (), cpu.onward value flags 4, bus))
    (rest : Chained (cpu.onward value flags 4) bus n sign total) :
    Chained cpu bus (n + 1) sign (value.toNat + 256 * total) := by
  have behind : ∀ k, cpu.advance (k + 2) bus = (cpu.onward value flags 4).advance k bus := by
    intro k
    rw [advance_succ loaded, advance_succ combined]
  constructor
  · intro k few
    match k, few with
    | 0, _ => exact ⟨cpu.registers.a, cpu.registers.f, by simp [onward_zero]⟩
    | 1, _ => exact ⟨x, cpu.registers.f, advance_succ loaded 0⟩
    | k + 2, few =>
      obtain ⟨a, f, later⟩ := rest.advance k (by omega)
      have cells : (4 : UInt16) + UInt16.ofNat (2 * k) = UInt16.ofNat (2 * (k + 2)) := by
        rw [Nat.mul_add, UInt16.ofNat_add, UInt16.add_comm]
        rfl
      exact ⟨a, f, by rw [behind, later, onward_onward, cells]⟩
  · have digits : cpu.chainDigits (n + 1) bus =
        value :: (cpu.onward value flags 4).chainDigits n bus := by
      unfold chainDigits
      rw [List.range_succ_eq_map, List.map_cons, List.map_map]
      congr 1
      · exact congrArg (fun state => state.2.1.registers.a) (behind 0)
      · apply List.map_congr_left
        intro i _
        exact congrArg (fun state => state.2.1.registers.a) (behind (2 * (i + 1)))
    have last := behind (2 * n)
    rw [digits, littleEndian_cons, Nat.mul_add, last, pow_succ]
    push_cast
    linear_combination 256 * rest.balance

theorem chained_code (chain : Chain) {useCarry : Bool} {pairs : List (UInt8 × UInt8)}
    (nonempty : useCarry = false → pairs ≠ [])
    (holds : Bus.HoldsCode bus cpu.registers.pc (chain.code useCarry pairs)) :
    Chained cpu bus pairs.length chain.sign
      (chain.total (littleEndian (pairs.map Prod.fst)) (littleEndian (pairs.map Prod.snd))
        (useCarry && cpu.registers.f.carry).toNat) := by
  induction pairs generalizing cpu useCarry with
  | nil =>
    cases useCarry with
    | false => exact absurd rfl (nonempty rfl)
    | true => simpa [Chain.total_eq, littleEndian] using Chained.nil
  | cons pair rest ih =>
    obtain ⟨x, y⟩ := pair
    let result := (chain.op useCarry).apply cpu.policy cpu.registers.f x y
    obtain ⟨loaded, behind⟩ := step_loadA holds
    obtain ⟨combined, behind⟩ := step_immediate behind
    rw [onward_onward] at combined behind
    -- The first pair leaves the carry that the other pairs take in.
    have pair := chain.balance_op useCarry cpu.policy cpu.registers.f x y
    have totals : chain.total (littleEndian (((x, y) :: rest).map Prod.fst))
        (littleEndian (((x, y) :: rest).map Prod.snd)) (useCarry && cpu.registers.f.carry).toNat =
          result.value.toNat + 256 * chain.total (littleEndian (rest.map Prod.fst))
            (littleEndian (rest.map Prod.snd)) result.flags.carry.toNat := by
      simp only [Chain.total_eq, List.map_cons, littleEndian_cons] at pair ⊢
      push_cast
      linear_combination -pair
    rw [totals]
    exact Chained.cons loaded combined (ih (by simp) behind)

/-- A balance tells the number, which is what is left of the total within its range, and the carry,
which is there if the total is out of range. -/
theorem Chained.computes {chain : Chain} {n : Nat} {x y c : Int}
    (chained : Chained cpu bus n chain.sign (chain.total x y c)) :
    (littleEndian (cpu.chainDigits n bus) : Int) = chain.total x y c % 256 ^ n ∧
      ((cpu.advance (2 * n) bus).2.1.registers.f.carry = true ↔ chain.Overflows n x y c) := by
  have balance := chained.balance
  have below : (littleEndian (cpu.chainDigits n bus) : Int) < 256 ^ n := by
    have below := littleEndian_lt (cpu.chainDigits n bus)
    rw [length_chainDigits] at below
    exact_mod_cast below
  constructor
  · rw [← balance, mul_left_comm, Int.add_mul_emod_self_left,
      Int.emod_eq_of_lt (Int.natCast_nonneg _) below]
  · generalize (cpu.advance (2 * n) bus).2.1.registers.f.carry = carry at balance ⊢
    cases chain with
    | sum =>
      simp only [Chain.sign, Chain.total] at balance
      unfold Chain.Overflows
      cases carry <;> simp at balance ⊢ <;> omega
    | difference =>
      simp only [Chain.sign, Chain.total] at balance
      unfold Chain.Overflows
      cases carry <;> simp at balance ⊢ <;> omega

/-- A processor that meets a chain works through it and computes the sum or the difference of the
two numbers, modulo a power of 256, byte after byte in A; the carry flag tells in the end whether
that was out of range. It comes in at the first pair, unless this one is combined without it. -/
theorem chain_computes_total (cpu : Cpu) (bus : β) (chain : Chain) (useCarry : Bool)
    (pairs : List (UInt8 × UInt8)) (nonempty : useCarry = false → pairs ≠ [])
    (holds : Bus.HoldsCode bus cpu.registers.pc (chain.code useCarry pairs)) :
    let n := pairs.length
    let x : Int := littleEndian (pairs.map Prod.fst)
    let y : Int := littleEndian (pairs.map Prod.snd)
    let c : Int := if useCarry then cpu.registers.f.carry.toNat else 0
    (∀ k ≤ 2 * n,
      ∃ a f, cpu.advance k bus = (.ok (), cpu.onward a f (UInt16.ofNat (2 * k)), bus)) ∧
    (littleEndian (cpu.chainDigits n bus) : Int) = chain.total x y c % 256 ^ n ∧
    ((cpu.advance (2 * n) bus).2.1.registers.f.carry = true ↔ chain.Overflows n x y c) := by
  intro n x y c
  have chained := chained_code chain nonempty holds
  have taken : ((useCarry && cpu.registers.f.carry).toNat : Int) = c := by
    cases useCarry <;> rfl
  rw [taken] at chained
  exact ⟨chained.advance, chained.computes⟩

/-- The program goes round the end of the address space, the carry through both bytes. -/
theorem chain_computes_total_around_end :
    let pairs : List (UInt8 × UInt8) := [(0xFF, 0x00), (0xFF, 0x00)]
    let cpu : Cpu := { registers := { f := { carry := true }, pc := 0xFFFD } }
    let ram := Ram.blank.store 0xFFFD (Chain.sum.code true pairs)
    Bus.HoldsCode ram cpu.registers.pc (Chain.sum.code true pairs) ∧
      (true = false → pairs ≠ []) ∧
      (littleEndian (cpu.chainDigits 2 ram) : Int) = 0 ∧
      (cpu.advance (2 * 2) ram).2.1.registers.f.carry = true := by
  intro pairs cpu ram
  have holds : Bus.HoldsCode ram cpu.registers.pc (Chain.sum.code true pairs) :=
    Ram.blank.holdsCode_store 0xFFFD (by decide)
  have nonempty : true = false → pairs ≠ [] := by decide
  obtain ⟨-, digits, carry⟩ := chain_computes_total cpu ram .sum true pairs nonempty holds
  have x : littleEndian (pairs.map Prod.fst) = 0xFFFF := by
    simp [pairs, littleEndian, Nat.ofDigits_cons]
  have y : littleEndian (pairs.map Prod.snd) = 0 := by
    simp [pairs, littleEndian, Nat.ofDigits_cons]
  have n : pairs.length = 2 := rfl
  rw [x, y, n] at digits carry
  refine ⟨holds, nonempty, ?_, ?_⟩
  · rw [digits]
    simp [Chain.total, cpu]
  · rw [carry]
    simp [Chain.Overflows, cpu]

end Cpu

end DotMatrix
