import DotMatrix.Proofs.Cpu.Bus
import DotMatrix.Proofs.Cpu.Trace

/-!
# Calls and returns

A call leaves the address of the next instruction in two cells of the stack. Whatever the processor
does after it, as long as nothing is stored in these two cells they still hold that address, and a
return that finds the stack pointer where the call left it goes there.
-/
namespace DotMatrix

variable {β : Type} [Bus β]

/-- A word lies in two cells the way it is pushed: its high byte in this one, its low byte below. -/
structure Bus.Holds (bus : β) (address word : UInt16) : Prop where
  high : Bus.read bus address = Word.high word
  low : Bus.read bus (address - 1) = Word.low word

/-- A step that stores in neither of the two cells of a word. -/
def Turn.Spares (turn : Turn β) (address : UInt16) : Prop :=
  ∀ write ∈ turn.writes, write.address ≠ address ∧ write.address ≠ address - 1

/-- The address of the word is that of its high byte, two above the stack pointer. -/
theorem Registers.top_of_holds {r : Registers} {bus : β} {address word : UInt16}
    (holds : Bus.Holds bus address word) (below : r.sp = address - 2) :
    r.top (Bus.read bus) = word := by
  have low : r.sp + 1 = address - 1 := by
    rw [below]
    grind
  have high : address - 1 + 1 = address := UInt16.sub_add_cancel address 1
  rw [top, wordAt, low, high, holds.high, holds.low, Word.join_high_low]

section

variable [LawfulBus β]

theorem Bus.holds_push (bus : β) (r : Registers) (word : UInt16) (high : Bus.Plain β r.sp)
    (low : Bus.Plain β (r.sp - 1)) : Bus.Holds (Bus.apply bus (r.push word).writes) r.sp word := by
  have once : ((r.push word).writes.map Write.address).Nodup := by
    simp [Registers.push, r.sp_ne_sub_one]
  have first : ⟨r.sp, Word.high word⟩ ∈ (r.push word).writes := by simp [Registers.push]
  have second : ⟨r.sp - 1, Word.low word⟩ ∈ (r.push word).writes := by simp [Registers.push]
  exact ⟨read_apply_of_mem bus high once first, read_apply_of_mem bus low once second⟩

namespace Cpu

theorem holds_turn {cpu : Cpu} {bus : β} {address word : UInt16}
    (holds : Bus.Holds bus address word) (spares : (cpu.turn bus).Spares address) :
    Bus.Holds (cpu.turn bus).bus address word := by
  have absent : address ∉ (cpu.turn bus).writes.map Write.address := by
    rw [List.mem_map]
    rintro ⟨write, member, here⟩
    exact (spares write member).1 here
  have absent' : address - 1 ∉ (cpu.turn bus).writes.map Write.address := by
    rw [List.mem_map]
    rintro ⟨write, member, here⟩
    exact (spares write member).2 here
  rw [bus_turn]
  exact ⟨(Bus.read_apply_of_notMem bus absent).trans holds.high,
    (Bus.read_apply_of_notMem bus absent').trans holds.low⟩

/-- A word that nothing is stored in is still there after any number of steps. -/
theorem holds_of_getLast? {first last : Turn β} {address word : UInt16}
    (holds : Bus.Holds first.bus address word) {steps : Nat}
    (spared : ∀ turn ∈ first.cpu.trace steps first.bus, turn.Spares address)
    (ends : (first :: first.cpu.trace steps first.bus).getLast? = some last) :
    Bus.Holds last.bus address word := by
  induction steps generalizing first with
  | zero =>
    cases ends
    exact holds
  | succ steps ih =>
    unfold trace at spared ends
    obtain ⟨here, later⟩ := List.forall_mem_cons.1 spared
    have kept := holds_turn holds here
    rw [List.getLast?_cons_cons] at ends
    cases ended : (first.cpu.turn first.bus).outcome with
    | ok =>
      rw [ended] at later ends
      exact ih kept later ends
    | error fault =>
      -- A step that fails is the last one.
      rw [ended] at ends
      cases ends
      exact kept

end Cpu

end

namespace Cpu

/-- The return address is that of the byte behind the operand, wherever the opcode stands. -/
theorem turn_call {cpu : Cpu} {bus : β}
    (calling : Opcode.fetch (Bus.read bus) cpu.registers.pc = .primary 0xCD) :
    let writes := (cpu.registers.push (cpu.registers.pc + 3)).writes
    cpu.turn bus =
      { address := cpu.registers.pc, opcode := .primary 0xCD, writes, outcome := .ok ()
        cpu := { cpu with registers := { cpu.registers with
          sp := cpu.registers.sp - 2, pc := wordAt (Bus.read bus) (cpu.registers.pc + 1) } }
        bus := Bus.apply bus writes } := by
  intro writes
  have found : (Opcode.fetch (Bus.read bus) cpu.registers.pc).instruction? = some .call := by
    rw [calling]
    rfl
  have behind : cpu.registers.pc + 1 + 2 = cpu.registers.pc + 3 := UInt16.add_assoc _ 1 2
  rw [turn_of_found found, calling]
  simp only [writes, ← behind]
  rfl

theorem step_ret {cpu : Cpu} {bus : β}
    (returning : Opcode.fetch (Bus.read bus) cpu.registers.pc = .primary 0xC9) :
    cpu.step bus = (.ok (), { cpu with registers := { cpu.registers with
      pc := cpu.registers.top (Bus.read bus), sp := cpu.registers.sp + 2 } }, bus) := by
  have found : (Opcode.fetch (Bus.read bus) cpu.registers.pc).instruction? = some .ret := by
    rw [returning]
    rfl
  rw [step_of_found found]
  rfl

/-- A call is executed, and returns: after any number of steps that spare the two cells of the return
address, if the stack pointer is where the call left it and a return comes next, this goes to the
instruction behind the call, puts the stack pointer back, and does nothing else. -/
def CallReturns (cpu : Cpu) (bus : β) : Prop :=
  let call := cpu.turn bus
  call.outcome = .ok () ∧
  ∀ steps last,
    (call :: call.cpu.trace steps call.bus).getLast? = some last →
      (∀ turn ∈ call.cpu.trace steps call.bus, turn.Spares cpu.registers.sp) →
      last.cpu.registers.sp = cpu.registers.sp - 2 →
      Opcode.fetch (Bus.read last.bus) last.cpu.registers.pc = .primary 0xC9 →
      last.cpu.step last.bus = (.ok (), { last.cpu with registers := { last.cpu.registers with
        pc := cpu.registers.pc + 3, sp := cpu.registers.sp } }, last.bus)

theorem callReturns_of_plain [LawfulBus β] {cpu : Cpu} {bus : β}
    (high : Bus.Plain β cpu.registers.sp) (low : Bus.Plain β (cpu.registers.sp - 1))
    (calling : Opcode.fetch (Bus.read bus) cpu.registers.pc = .primary 0xCD) :
    cpu.CallReturns bus := by
  have called := turn_call calling
  refine ⟨congrArg Turn.outcome called, fun steps last ends spared level returning => ?_⟩
  have holds : Bus.Holds (cpu.turn bus).bus cpu.registers.sp (cpu.registers.pc + 3) := by
    rw [called]
    exact Bus.holds_push bus cpu.registers _ high low
  have kept := holds_of_getLast? holds spared ends
  rw [step_ret returning, Registers.top_of_holds kept level, level, UInt16.sub_add_cancel]

/-- Calls return, on plain cells and, unless the return address would lie in the line register, on
the machine's memory. Nothing is asked of what is run meanwhile, nor of where the call and its stack
are: the call may overwrite itself, and its stack may go on at the other end of the address space. -/
theorem call_returns (cpu : Cpu) :
    (∀ ram : Ram, Opcode.fetch ram.read cpu.registers.pc = .primary 0xCD → cpu.CallReturns ram) ∧
    ∀ memory : Memory, cpu.registers.sp ≠ Memory.lineRegister →
      cpu.registers.sp - 1 ≠ Memory.lineRegister →
      Opcode.fetch memory.read cpu.registers.pc = .primary 0xCD → cpu.CallReturns memory :=
  ⟨fun _ => callReturns_of_plain (Ram.plain _) (Ram.plain _), fun _ high low =>
    callReturns_of_plain (Memory.plain_iff.2 high) (Memory.plain_iff.2 low)⟩

/-- A call in the last cell, whose operand and stack are in the first ones: it overwrites its opcode
and half of its operand. The subroutine stores A where BC points to. -/
theorem call_returns_over_itself :
    let memory := ((((Memory.blank.write 0xFFFF 0xCD).write 0x0000 0x34).write 0x0001
      0x12).write 0x1234 0x02).write 0x1235 0xC9
    let r : Registers := { a := 0x99, b := 0x56, c := 0x78, pc := 0xFFFF }
    (r.sp ≠ Memory.lineRegister ∧ r.sp - 1 ≠ Memory.lineRegister ∧
      Opcode.fetch memory.read r.pc = .primary 0xCD) ∧
    ∃ call last, Cpu.turn { registers := r } memory = call ∧ call.cpu.trace 1 call.bus = [last] ∧
      call.bus.read 0xFFFF = 0x02 ∧ call.bus.read 0x0000 = 0x00 ∧
      last.writes = [⟨0x5678, 0x99⟩] ∧
      last.cpu.step last.bus = (.ok (), { registers := { r with pc := 0x0002 } }, last.bus) := by
  intro memory r
  have cells : Bus.read memory 0xFFFF = 0xCD ∧ Bus.read memory 0x0000 = 0x34 ∧
      Bus.read memory 0x0001 = 0x12 ∧ Bus.read memory 0x1234 = 0x02 ∧
      Bus.read memory 0x1235 = 0xC9 := by
    simp [memory, Bus.read, Memory.read_write, Memory.lineRegister]
  obtain ⟨opcode, low, high, store, ret⟩ := cells
  clear_value memory
  let called := Bus.apply memory [⟨0x0000, 0x00⟩, ⟨0xFFFF, 0x02⟩]
  let stored := Bus.apply called [⟨0x5678, 0x99⟩]
  have calling : Opcode.fetch (Bus.read memory) 0xFFFF = .primary 0xCD := by
    rw [Opcode.fetch, opcode]
    rfl
  let call : Turn Memory :=
    { address := 0xFFFF, opcode := .primary 0xCD, writes := [⟨0x0000, 0x00⟩, ⟨0xFFFF, 0x02⟩]
      outcome := .ok (), cpu := { registers := { r with sp := 0xFFFE, pc := 0x1234 } }
      bus := called }
  let last : Turn Memory :=
    { address := 0x1234, opcode := .primary 0x02, writes := [⟨0x5678, 0x99⟩], outcome := .ok ()
      cpu := { registers := { r with sp := 0xFFFE, pc := 0x1235 } }, bus := stored }
  have callEq : Cpu.turn { registers := r } memory = call := by
    have target : wordAt (Bus.read memory) (0xFFFF + 1) = 0x1234 := by
      rw [wordAt, show (0xFFFF + 1 + 1 : UInt16) = 0x0001 from rfl, high,
        show (0xFFFF + 1 : UInt16) = 0x0000 from rfl, low]
      rfl
    rw [turn_call calling]
    simp only [r, target]
    rfl
  have storeEq : Cpu.turn { registers := { r with sp := 0xFFFE, pc := 0x1234 } } called = last := by
    have kept : Bus.read called 0x1234 = 0x02 := by
      simpa [called, Bus.apply, Bus.read, Bus.write, Memory.read_write, Memory.lineRegister] using store
    have fetched : Opcode.fetch (Bus.read called) 0x1234 = .primary 0x02 := by
      rw [Opcode.fetch, kept]
      rfl
    have found : (Opcode.fetch (Bus.read called) 0x1234).instruction? =
        some (.storeA (.pointer .bc)) := by
      rw [fetched]
      rfl
    have pointed : Word.join 0x56 0x78 = 0x5678 := by decide
    refine (turn_of_found found).trans ?_
    simp only [fetched, Instruction.effect, Location.address, Location.advance, Registers.bc,
      Registers.skip, Opcode.size, r, pointed]
    rfl
  have bodyEq : call.cpu.trace 1 call.bus = [last] := by
    simp only [call, trace, storeEq, last]
  have returning : Opcode.fetch (Bus.read stored) 0x1235 = .primary 0xC9 := by
    have kept : Bus.read stored 0x1235 = 0xC9 := by
      simpa [stored, called, Bus.apply, Bus.read, Bus.write, Memory.read_write, Memory.lineRegister] using ret
    rw [Opcode.fetch, kept]
    rfl
  have elsewhere : r.sp ≠ Memory.lineRegister ∧ r.sp - 1 ≠ Memory.lineRegister := by decide
  have ends : (call :: call.cpu.trace 1 call.bus).getLast? = some last := by
    rw [bodyEq]
    rfl
  have spared : ∀ turn ∈ call.cpu.trace 1 call.bus, turn.Spares r.sp := by
    rw [bodyEq]
    simp only [Turn.Spares, last, List.mem_singleton, forall_eq]
    decide
  have behind : r.pc + 3 = 0x0002 := by decide
  obtain ⟨-, returns⟩ := (call_returns { registers := r }).2 memory elsewhere.1 elsewhere.2 calling
  rw [callEq] at returns
  have returned := returns 1 last ends spared rfl returning
  rw [behind] at returned
  refine ⟨⟨elsewhere.1, elsewhere.2, calling⟩, call, last, callEq, bodyEq, ?_, ?_, rfl, returned⟩
  · simp [call, called, Bus.apply, Bus.write, Memory.read_write, Memory.lineRegister]
  · simp [call, called, Bus.apply, Bus.write, Memory.read_write, Memory.lineRegister]

end Cpu

end DotMatrix
