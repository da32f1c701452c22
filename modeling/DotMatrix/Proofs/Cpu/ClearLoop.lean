import DotMatrix.Proofs.Cpu.Program

/-!
# The loop that clears memory

Boot code clears the upper half of the address space by a loop of three instructions: it stores A
where HL points to, moves HL down, and goes back as long as HL is still in the upper half. Wherever
HL starts there, the loop ends right below the half, and it has been all over the cells in between.
The code itself lies in the lower half, so that no store hits it; that is the invariant of the loop,
together with A, which no instruction of it touches.
-/
namespace DotMatrix

theorem Word.toNat_sub_one {word : UInt16} (positive : 0 < word.toNat) :
    (word - 1).toNat = word.toNat - 1 := by
  have := word.toNat_lt
  have one : (1 : UInt16).toNat = 1 := rfl
  rw [UInt16.toNat_sub, one]
  omega

/-- The writes of a byte to so many cells, from this one downwards. -/
def Write.fill (value : UInt8) : (top : UInt16) → (count : Nat) → List Write
  | _, 0 => []
  | top, count + 1 => ⟨top, value⟩ :: fill value (top - 1) count

section Fill

variable {value : UInt8} {top : UInt16} {count : Nat}

theorem Write.value_of_mem_fill {write : Write} (member : write ∈ fill value top count) :
    write.value = value := by
  induction count generalizing top with
  | zero => cases member
  | succ count ih =>
    obtain rfl | below := List.mem_cons.1 member
    · rfl
    · exact ih below

theorem Write.mem_addresses_fill_iff (fits : count ≤ top.toNat) {cell : UInt16} :
    cell ∈ (fill value top count).map address ↔
      top.toNat < cell.toNat + count ∧ cell.toNat ≤ top.toNat := by
  induction count generalizing top with
  | zero =>
    simp only [fill, List.map_nil, List.not_mem_nil, false_iff]
    omega
  | succ count ih =>
    have below : (top - 1).toNat = top.toNat - 1 := Word.toNat_sub_one (by omega)
    rw [fill, List.map_cons, List.mem_cons, ih (by omega), below, ← UInt16.toNat_inj]
    dsimp only
    omega

theorem Write.nodup_fill (fits : count ≤ top.toNat) :
    ((fill value top count).map address).Nodup := by
  induction count generalizing top with
  | zero => exact List.nodup_nil
  | succ count ih =>
    have below : (top - 1).toNat = top.toNat - 1 := Word.toNat_sub_one (by omega)
    refine List.nodup_cons.2 ⟨?_, ih (by omega)⟩
    rw [mem_addresses_fill_iff (by omega), below]
    dsimp only
    omega

theorem Ram.read_fill (ram : Ram) (fits : count ≤ top.toNat) (cell : UInt16) :
    (Bus.apply ram (Write.fill value top count)).read cell =
      if top.toNat < cell.toNat + count ∧ cell.toNat ≤ top.toNat then value else ram.read cell := by
  split
  · next inside =>
    obtain ⟨write, member, rfl⟩ := List.mem_map.1 ((Write.mem_addresses_fill_iff fits).2 inside)
    exact (Bus.read_apply_of_mem ram (Ram.plain _) (Write.nodup_fill fits) member).trans
      (Write.value_of_mem_fill member)
  · next outside =>
    exact Bus.read_apply_of_notMem ram (mt (Write.mem_addresses_fill_iff fits).1 outside)

end Fill

namespace Cpu

variable {β : Type} [Bus β] {cpu cpu' last : Cpu} {bus bus' after : β}

/-- After exactly so many steps, none of which fails, the processor is at an address for the first
time. -/
structure FirstReaches (cpu : Cpu) (bus : β) (steps : Nat) (address : UInt16) (last : Cpu)
    (after : β) : Prop where
  advance : cpu.advance steps bus = (.ok (), last, after)
  arrived : last.registers.pc = address
  before : ∀ k < steps, ∃ cpu' bus',
    cpu.advance k bus = (.ok (), cpu', bus') ∧ cpu'.registers.pc ≠ address

namespace FirstReaches

variable {steps : Nat} {address : UInt16}

theorem here (there : cpu.registers.pc = address) : FirstReaches cpu bus 0 address cpu bus :=
  ⟨rfl, there, nofun⟩

theorem step (elsewhere : cpu.registers.pc ≠ address) (stepped : cpu.step bus = (.ok (), cpu', bus'))
    (onwards : FirstReaches cpu' bus' steps address last after) :
    FirstReaches cpu bus (steps + 1) address last after where
  advance := (advance_succ stepped steps).trans onwards.advance
  arrived := onwards.arrived
  before := by
    intro k few
    cases k with
    | zero => exact ⟨cpu, bus, rfl, elsewhere⟩
    | succ k =>
      rw [advance_succ stepped]
      exact onwards.before k (Nat.lt_of_succ_lt_succ few)

end FirstReaches

/-! ## Once around the loop -/

/-- `LD (HL-),A`, `BIT 7,H`, `JR NZ,-5`. -/
def clearLoop : List UInt8 := [0x32, 0xCB, 0x7C, 0x20, 0xFB]

/-- The processor so many bytes further on in the loop, with another HL and other flags. -/
def inLoop (cpu : Cpu) (hl : UInt16) (f : Flags) (offset : UInt16) : Cpu :=
  { cpu with registers := { cpu.registers.setHL hl with f, pc := cpu.registers.pc + offset } }

/-- The flags that the test of H leaves: zero tells that HL is in the lower half. -/
def testedFlags (f : Flags) (hl : UInt16) : Flags where
  zero := decide (hl.toNat < 0x8000)
  halfCarry := true
  carry := f.carry

theorem testBit_high (f : Flags) (hl : UInt16) :
    Alu.testBit f 7 (Word.high hl) = testedFlags f hl := by
  have := hl.toNat_lt
  have clear : (!(Word.high hl).toNat.testBit 7) = decide (hl.toNat < 0x8000) := by
    rw [Word.toNat_high, Nat.testBit_eq_decide_div_mod_eq, ← decide_not, decide_eq_decide]
    omega
  rw [testedFlags, ← clear]
  rfl

section Round

variable {hl : UInt16} {f : Flags} (holds : Bus.HoldsCode bus cpu.registers.pc clearLoop)
include holds

theorem step_store :
    (cpu.inLoop hl f 0).step bus =
      (.ok (), cpu.inLoop (hl - 1) f 1, Bus.write bus hl cpu.registers.a) := by
  have here : Bus.read bus (cpu.registers.pc + 0) = 0x32 := holds 0 (by decide)
  have decodes : Opcode.primary? 0x32 = some (.storeA (.pointer .hlDown)) := by decide
  have pointed : ((cpu.inLoop hl f 0).registers.skip 1).hl = hl := cpu.registers.hl_setHL hl
  rw [step_primary here decodes]
  simp only [Instruction.effect, Location.address, Location.advance, pointed]
  simp only [inLoop, Registers.skip, Registers.setHL, UInt16.add_zero]
  rfl

theorem step_test :
    (cpu.inLoop hl f 1).step bus = (.ok (), cpu.inLoop hl (testedFlags f hl) 3, bus) := by
  have here : Bus.read bus (cpu.registers.pc + 1) = 0xCB := holds 1 (by decide)
  have selects : Bus.read bus (cpu.registers.pc + 1 + 1) = 0x7C := by
    rw [UInt16.add_assoc]
    exact holds 2 (by decide)
  have decodes : Opcode.extended? 0x7C = some (.testBit 7 .h) := by decide
  have passed : cpu.registers.pc + 1 + 2 = cpu.registers.pc + 3 := UInt16.add_assoc _ 1 2
  rw [step_extended here selects decodes]
  simp only [Instruction.effect, Operand.get, inLoop, Registers.skip, Registers.setHL, testBit_high,
    passed]
  rfl

theorem step_repeat :
    (cpu.inLoop hl f 3).step bus = (.ok (), cpu.inLoop hl f (if f.zero then 5 else 0), bus) := by
  have here : Bus.read bus (cpu.registers.pc + 3) = 0x20 := holds 3 (by decide)
  have behind : Bus.read bus (cpu.registers.pc + 3 + 1) = 0xFB := by
    rw [UInt16.add_assoc]
    exact holds 4 (by decide)
  have decodes : Opcode.primary? 0x20 = some (.jumpRelativeIf .notZero) := by decide
  have passed : cpu.registers.pc + 3 + 1 + 1 = cpu.registers.pc + 5 := by
    rw [UInt16.add_assoc, UInt16.add_assoc]
    rfl
  rw [step_primary here decodes]
  simp only [Instruction.effect, Condition.holds, Registers.skip, inLoop, behind, passed]
  cases f.zero with
  | true => rfl
  | false =>
    -- The displacement takes back all five bytes of the loop.
    have back : cpu.registers.pc + 5 + 0xFFFB = cpu.registers.pc + 0 := UInt16.add_assoc _ 5 0xFFFB
    simp only [Bool.not_false, if_true, Bool.false_eq_true, if_false, ← back]
    rfl

end Round

/-! ## All rounds -/

section Rounds

variable [LawfulBus β] (low : cpu.registers.pc.toNat + 4 < 0x8000) {hl : UInt16} {f : Flags}
include low

/-- Once around the loop, after which it goes on or has come to its end. -/
theorem FirstReaches.round (high : 0x8000 ≤ hl.toNat)
    (holds : Bus.HoldsCode bus cpu.registers.pc clearLoop) {steps : Nat}
    (onwards : Bus.HoldsCode (Bus.write bus hl cpu.registers.a) cpu.registers.pc clearLoop →
      FirstReaches
        (cpu.inLoop (hl - 1) (testedFlags f (hl - 1)) (if (hl - 1).toNat < 0x8000 then 5 else 0))
        (Bus.write bus hl cpu.registers.a) steps (cpu.registers.pc + 5) last after) :
    FirstReaches (cpu.inLoop hl f 0) bus (steps + 3) (cpu.registers.pc + 5) last after := by
  have inside : ∀ offset ∈ [(0 : UInt16), 1, 3],
      cpu.registers.pc + offset ≠ cpu.registers.pc + 5 := by
    intro offset member same
    rw [UInt16.add_right_inj] at same
    subst same
    revert member
    decide
  have spared : ∀ i < clearLoop.length, hl ≠ cpu.registers.pc + UInt16.ofNat i := by
    rintro i within rfl
    have : clearLoop.length = 5 := rfl
    rw [UInt16.toNat_add, UInt16.toNat_ofNat'] at high
    omega
  have kept := holds.write spared cpu.registers.a
  have repeated : (cpu.inLoop (hl - 1) (testedFlags f (hl - 1)) 3).step _ = _ := step_repeat kept
  simp only [testedFlags, decide_eq_true_eq] at repeated
  exact .step (inside 0 (by simp)) (step_store holds)
    (.step (inside 1 (by simp)) (step_test kept)
      (.step (inside 3 (by simp)) repeated (onwards kept)))

theorem firstReaches_clearLoop {count : Nat} (far : hl.toNat = 0x8000 + count)
    (holds : Bus.HoldsCode bus cpu.registers.pc clearLoop) :
    FirstReaches (cpu.inLoop hl f 0) bus (3 * (count + 1)) (cpu.registers.pc + 5)
      (cpu.inLoop 0x7FFF (testedFlags f 0x7FFF) 5)
      (Bus.apply bus (Write.fill cpu.registers.a hl (count + 1))) := by
  induction count generalizing hl f bus with
  | zero =>
    have below : (hl - 1).toNat = 0x7FFF := by
      rw [Word.toNat_sub_one (by omega), far]
    have last : hl - 1 = 0x7FFF := UInt16.toNat_inj.1 below
    refine .round low (by omega) holds fun _ => ?_
    rw [last, if_pos (by decide)]
    exact .here rfl
  | succ count ih =>
    have below : (hl - 1).toNat = 0x8000 + count := by
      rw [Word.toNat_sub_one (by omega), far]
      rfl
    refine .round low (by omega) holds fun kept => ?_
    rw [if_neg (by omega)]
    exact ih below kept

end Rounds

/-- From HL in the upper half of the address space on, the loop is left for the first time after
three steps for each cell from there down to the middle. All these cells then hold A, and no other
cell has changed; of the registers only HL, the flags and PC have. In the machine's memory the line
register, too, holds A if it is one of the cells, but still reads as the line. -/
theorem clearLoop_clears (cpu : Cpu) (low : cpu.registers.pc.toNat + 4 < 0x8000)
    (high : 0x8000 ≤ cpu.registers.hl) :
    let r := cpu.registers
    let steps := 3 * (r.hl.toNat - 0x7FFF)
    let last : Cpu := { cpu with registers := { r.setHL 0x7FFF with
      f := { zero := true, subtract := false, halfCarry := true, carry := r.f.carry }
      pc := r.pc + 5 } }
    (∀ ram : Ram, Bus.HoldsCode ram r.pc clearLoop →
      ∃ after, cpu.FirstReaches ram steps (r.pc + 5) last after ∧
        ∀ cell, after.read cell =
          if 0x8000 ≤ cell ∧ cell ≤ r.hl then r.a else ram.read cell) ∧
    ∀ memory : Memory, Bus.HoldsCode memory r.pc clearLoop →
      ∃ after, cpu.FirstReaches memory steps (r.pc + 5) last after ∧
        (∀ cell, after.ram.read cell =
          if 0x8000 ≤ cell ∧ cell ≤ r.hl then r.a else memory.ram.read cell) ∧
        ∀ cell, after.read cell =
          if 0x8000 ≤ cell ∧ cell ≤ r.hl ∧ cell ≠ Memory.lineRegister then r.a
          else memory.read cell := by
  intro r steps last
  have := r.hl.toNat_lt
  have high : 0x8000 ≤ r.hl.toNat := UInt16.le_iff_toNat_le.1 high
  have far : r.hl.toNat = 0x8000 + (r.hl.toNat - 0x8000) := by omega
  have count : 3 * (r.hl.toNat - 0x8000 + 1) = steps := by omega
  have start : cpu.inLoop r.hl r.f 0 = cpu := by
    simp [inLoop, Registers.setHL, Registers.hl, r]
  let writes := Write.fill r.a r.hl (r.hl.toNat - 0x8000 + 1)
  have reaches : ∀ {β : Type} [Bus β] [LawfulBus β] (bus : β), Bus.HoldsCode bus r.pc clearLoop →
      cpu.FirstReaches bus steps (r.pc + 5) last (Bus.apply bus writes) := by
    intro β _ _ bus holds
    have reaches := firstReaches_clearLoop low (f := r.f) far holds
    rwa [start, count] at reaches
  have cleared : ∀ (ram : Ram) cell, (Bus.apply ram writes).read cell =
      if 0x8000 ≤ cell ∧ cell ≤ r.hl then r.a else ram.read cell := by
    intro ram cell
    have range : 0x8000 ≤ cell ∧ cell ≤ r.hl ↔
        r.hl.toNat < cell.toNat + (r.hl.toNat - 0x8000 + 1) ∧ cell.toNat ≤ r.hl.toNat := by
      have half : (0x8000 : UInt16).toNat = 0x8000 := rfl
      rw [UInt16.le_iff_toNat_le, UInt16.le_iff_toNat_le, half]
      omega
    simp only [range]
    exact ram.read_fill (by omega) cell
  refine ⟨fun ram holds => ⟨_, reaches ram holds, cleared ram⟩, fun memory holds => ?_⟩
  have stored : ∀ cell, (Bus.apply memory writes).ram.read cell =
      if 0x8000 ≤ cell ∧ cell ≤ r.hl then r.a else memory.ram.read cell := by
    rw [Memory.ram_apply]
    exact cleared memory.ram
  refine ⟨_, reaches memory holds, stored, fun cell => ?_⟩
  by_cases line : cell = Memory.lineRegister
  · subst line
    rw [Memory.read_lineRegister, Memory.read_lineRegister, if_neg (by simp)]
  · rw [Memory.read_of_ne line, Memory.read_of_ne line, stored]
    simp only [line, ne_eq, not_false_eq_true, and_true]

/-- The loop right below the half, which it clears as a whole; the line register goes on reading as
the line. -/
theorem clearLoop_clears_half :
    let cpu : Cpu := { registers := { a := 0x5A, h := 0xFF, l := 0xFF, pc := 0x7FFB } }
    let memory : Memory := ⟨Ram.blank.store 0x7FFB clearLoop⟩
    (cpu.registers.pc.toNat + 4 < 0x8000 ∧ 0x8000 ≤ cpu.registers.hl ∧
      Bus.HoldsCode memory cpu.registers.pc clearLoop) ∧
    ∃ last after, cpu.FirstReaches memory 98304 0x8000 last after ∧
      last.registers.hl = 0x7FFF ∧ last.registers.f = { zero := true, halfCarry := true } ∧
      after.read 0x8000 = 0x5A ∧ after.read 0xFFFF = 0x5A ∧ after.read 0xFF44 = 0x90 ∧
      after.read 0x7FFF = memory.read 0x7FFF := by
  intro cpu memory
  have low : cpu.registers.pc.toNat + 4 < 0x8000 := by decide
  have high : 0x8000 ≤ cpu.registers.hl := by decide
  have holds : Bus.HoldsCode memory cpu.registers.pc clearLoop :=
    Memory.holdsCode_of_ram (Ram.blank.holdsCode_store 0x7FFB (by decide)) (by decide)
  obtain ⟨after, reaches, -, reads⟩ := (clearLoop_clears cpu low high).2 memory holds
  have top : cpu.registers.hl = 0xFFFF := by decide
  rw [top] at reaches reads
  refine ⟨⟨low, high, holds⟩, _, after, reaches, ?_, rfl, ?_, ?_, ?_, ?_⟩
  · exact cpu.registers.hl_setHL 0x7FFF
  · rw [reads, if_pos (by decide)]
  · rw [reads, if_pos (by decide)]
  · rw [reads, if_neg (by decide)]
    exact Memory.read_lineRegister memory
  · rw [reads, if_neg (by decide)]

end Cpu

end DotMatrix
