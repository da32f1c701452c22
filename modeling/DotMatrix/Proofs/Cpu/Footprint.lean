import DotMatrix.Proofs.Cpu.Bus
import DotMatrix.Proofs.Cpu.Trace

/-!
# The footprint of a step

The cells that an instruction looks at and those that it stores in, told by the registers and by the
bytes behind the opcode. On any bus that holds the same in the cells looked at, a step does the same,
and it changes no other cells than those stored in.
-/
namespace DotMatrix

theorem Word.add_one_add_one (word : UInt16) : word + 1 + 1 = word + 2 := UInt16.add_assoc word 1 1

/-- The cell that an operand stands for, unless it is a register. -/
def Operand.cells (r : Registers) : Operand → List UInt16
  | .atHL => [r.hl]
  | _ => []

/-- The immediate bytes that a location is formed of. -/
def Location.reads (r : Registers) : Location → List UInt16
  | .pointer _ | .topPageC => []
  | .topPage => [r.pc]
  | .absolute => [r.pc, r.pc + 1]

/-- The cells that an instruction looks at once its opcode has been passed. -/
def Instruction.reads (read : Reader) (r : Registers) : Instruction → List UInt16
  | .nop | .incrementPair _ | .decrementPair _ | .rotateA | .push _ => []
  | .loadPairImmediate _ | .jump | .call => [r.pc, r.pc + 1]
  | .loadImmediate _ | .arithmeticImmediate _ | .jumpRelative | .jumpRelativeIf _ => [r.pc]
  | .load _ operand | .increment operand | .decrement operand | .arithmetic _ operand
  | .rotate operand | .testBit _ operand => operand.cells r
  | .storeA target => target.reads r
  | .loadA source => source.reads r ++ [source.address read r]
  | .ret | .pop _ => [r.sp + 1, r.sp + 2]

/-- The cells that an instruction stores in once its opcode has been passed. -/
def Instruction.stores (read : Reader) (r : Registers) : Instruction → List UInt16
  | .loadImmediate target | .load target _ | .increment target | .decrement target
  | .rotate target => target.cells r
  | .storeA target => [target.address read r]
  | .push _ | .call => [r.sp, r.sp - 1]
  | _ => []

section Reads

variable {read read' : Reader} {r : Registers}

theorem wordAt_congr {address : UInt16}
    (agree : ∀ cell ∈ [address, address + 1], read cell = read' cell) :
    wordAt read address = wordAt read' address := by
  simp only [wordAt, agree address (by simp), agree (address + 1) (by simp)]

theorem Operand.get_congr {operand : Operand}
    (agree : ∀ cell ∈ operand.cells r, read cell = read' cell) :
    operand.get read r = operand.get read' r := by
  cases operand with
  | atHL => exact agree r.hl (by simp [cells])
  | _ => rfl

theorem Location.address_congr {location : Location}
    (agree : ∀ cell ∈ location.reads r, read cell = read' cell) :
    location.address read r = location.address read' r := by
  cases location with
  | pointer pointer => cases pointer <;> rfl
  | topPage => simp only [address, agree r.pc (by simp [reads])]
  | topPageC => rfl
  | absolute => exact wordAt_congr agree

theorem Registers.top_congr (agree : ∀ cell ∈ [r.sp + 1, r.sp + 2], read cell = read' cell) :
    r.top read = r.top read' := by
  apply wordAt_congr
  rwa [Word.add_one_add_one]

/-- What an instruction does depends on the cells that it looks at, and on no others. -/
theorem Instruction.effect_congr (policy : FlagPolicy) {instruction : Instruction}
    (agree : ∀ cell ∈ instruction.reads read r, read cell = read' cell) :
    instruction.effect policy read r = instruction.effect policy read' r := by
  cases instruction with
  | nop | incrementPair _ | decrementPair _ | rotateA | push _ => rfl
  | loadPairImmediate target | jump | call => simp only [effect, wordAt_congr agree]
  | loadImmediate _ | arithmeticImmediate _ | jumpRelative | jumpRelativeIf _ =>
    have operand : read r.pc = read' r.pc := agree r.pc (by simp [reads])
    simp only [effect, operand]
  | load _ operand | increment operand | decrement operand | arithmetic _ operand
  | rotate operand | testBit _ operand =>
    simp only [effect, Operand.get_congr agree]
  | storeA target => simp only [effect, Location.address_congr agree]
  | loadA source =>
    obtain ⟨formed, loaded⟩ := List.forall_mem_append.1 agree
    have loaded : read (source.address read r) = read' (source.address read r) :=
      loaded _ (by simp)
    simp only [effect, ← Location.address_congr formed, loaded]
  | ret | pop _ => simp only [effect, Registers.top_congr agree]

end Reads

section Stores

variable (policy : FlagPolicy) (read : Reader) (r : Registers)

theorem Operand.addresses_set (target : Operand) (value : UInt8) :
    (target.set r value).writes.map Write.address = target.cells r := by
  cases target <;> rfl

theorem Instruction.addresses_effect (instruction : Instruction) :
    (instruction.effect policy read r).writes.map Write.address = instruction.stores read r := by
  cases instruction with
  | loadImmediate target | load target _ | increment target | decrement target | rotate target =>
    exact target.addresses_set _ _
  | _ => rfl

/-- Whether an instruction stores a word, which it then pushes. -/
def Instruction.pushes : Instruction → Bool
  | .push _ | .call => true
  | _ => false

theorem Instruction.pushes_iff {instruction : Instruction} :
    instruction.pushes ↔ instruction = .call ∨ ∃ source, instruction = .push source := by
  cases instruction <;> simp [pushes]

theorem Instruction.stores_of_pushes {instruction : Instruction} (pushes : instruction.pushes) :
    instruction.stores read r = [r.sp, r.sp - 1] := by
  obtain rfl | ⟨source, rfl⟩ := pushes_iff.1 pushes <;> rfl

theorem Instruction.length_stores_le_one {instruction : Instruction}
    (unpushed : ¬ instruction.pushes) : (instruction.stores read r).length ≤ 1 := by
  have single : ∀ target : Operand, (target.cells r).length ≤ 1 := by
    intro target
    cases target <;> simp [Operand.cells]
  cases instruction with
  | push _ | call => exact absurd rfl unpushed
  | loadImmediate _ | load _ _ | increment _ | decrement _ | rotate _ => exact single _
  | _ => simp [stores]

end Stores

namespace Opcode

/-- The second table has no instructions but these. -/
theorem extended?_cases {byte : UInt8} {instruction : Instruction}
    (found : extended? byte = some instruction) :
    (∃ target, instruction = .rotate target) ∨ ∃ bit source, instruction = .testBit bit source := by
  unfold extended? at found
  split at found
  · exact .inl ⟨_, (Option.some.inj found).symm⟩
  · exact .inr ⟨_, _, (Option.some.inj found).symm⟩
  · cases found

theorem fetch_congr {read read' : Reader} {address : UInt16}
    (agree : ∀ cell ∈ [address, address + 1], read cell = read' cell) :
    fetch read address = fetch read' address := by
  simp only [fetch, agree address (by simp), agree (address + 1) (by simp)]

end Opcode

namespace Registers

variable (r : Registers) (read : Reader)

/-- The cells that the operands of the instruction at PC may stand for: those the pairs point to, and
those named by C and by the two bytes behind the opcode. -/
def locations : List UInt16 :=
  [r.bc, r.de, r.hl, 0xFF00 + r.c.toUInt16, 0xFF00 + (read (r.pc + 1)).toUInt16,
    Word.join (read (r.pc + 2)) (read (r.pc + 1))]

/-- The cells that a step may look at. -/
def reads : List UInt16 := [r.pc, r.pc + 1, r.pc + 2, r.sp + 1, r.sp + 2] ++ r.locations read

/-- The cells that a step may store in. -/
def stores : List UInt16 := [r.sp, r.sp - 1] ++ r.locations read

theorem fetched_subset : [r.pc, r.pc + 1] ⊆ r.reads read := by
  simp [reads]

theorem cells_skip_subset (operand : Operand) (bytes : UInt16) :
    operand.cells (r.skip bytes) ⊆ r.locations read := by
  cases operand <;> simp [Operand.cells, locations, skip, hl]

theorem address_skip_one_mem (location : Location) :
    location.address read (r.skip 1) ∈ r.locations read := by
  cases location with
  | pointer pointer => cases pointer <;> simp [Location.address, locations, skip, bc, de, hl]
  | topPage | topPageC => simp [Location.address, locations, skip]
  | absolute => simp [Location.address, locations, skip, wordAt, Word.add_one_add_one]

variable {r read} {opcode : Opcode} {instruction : Instruction}
  (found : opcode.instruction? = some instruction)

include found

theorem reads_subset : instruction.reads read (r.skip opcode.size) ⊆ r.reads read := by
  have within : ∀ {cells}, cells ⊆ r.locations read → cells ⊆ r.reads read := fun inner =>
    List.Subset.trans inner (List.subset_append_right _ _)
  cases opcode with
  | extended byte =>
    obtain ⟨operand, rfl⟩ | ⟨bit, operand, rfl⟩ := Opcode.extended?_cases found <;>
      exact within (r.cells_skip_subset read operand 2)
  | primary byte =>
    have formed : ∀ location : Location, location.reads (r.skip 1) ⊆ r.reads read := by
      intro location
      cases location <;> simp [Location.reads, reads, skip, Word.add_one_add_one]
    cases instruction with
    | load _ operand | increment operand | decrement operand | arithmetic _ operand
    | rotate operand | testBit _ operand => exact within (r.cells_skip_subset read operand 1)
    | storeA target => exact formed target
    | loadA source =>
      refine List.append_subset.2 ⟨formed source, within ?_⟩
      exact List.cons_subset.2 ⟨r.address_skip_one_mem read source, List.nil_subset _⟩
    | _ => simp [Instruction.reads, reads, skip, Opcode.size, Word.add_one_add_one]

theorem stores_subset : instruction.stores read (r.skip opcode.size) ⊆ r.stores read := by
  have within : ∀ {cells}, cells ⊆ r.locations read → cells ⊆ r.stores read := fun inner =>
    List.Subset.trans inner (List.subset_append_right _ _)
  cases opcode with
  | extended byte =>
    obtain ⟨target, rfl⟩ | ⟨bit, source, rfl⟩ := Opcode.extended?_cases found
    · exact within (r.cells_skip_subset read target 2)
    · exact List.nil_subset _
  | primary byte =>
    cases instruction with
    | loadImmediate target | load target _ | increment target | decrement target
    | rotate target => exact within (r.cells_skip_subset read target 1)
    | storeA target =>
      exact within (List.cons_subset.2 ⟨r.address_skip_one_mem read target, List.nil_subset _⟩)
    | push _ | call => exact List.subset_append_left _ _
    | _ => exact List.nil_subset _

end Registers

/-- What a fault tells but for the memory around it. -/
def DecodeFault.site (fault : DecodeFault) : Opcode × UInt16 × Registers :=
  (fault.opcode, fault.address, fault.registers)

namespace Cpu

variable {β β' : Type} [Bus β] [Bus β'] (cpu : Cpu) (bus : β)

theorem turn_congr_of_reads {bus : β} {bus' : β'} {cpu : Cpu}
    (agree : ∀ cell ∈ cpu.registers.reads (Bus.read bus), Bus.read bus cell = Bus.read bus' cell) :
    (cpu.turn bus).outcome.mapError DecodeFault.site =
        (cpu.turn bus').outcome.mapError DecodeFault.site ∧
      (cpu.turn bus).cpu = (cpu.turn bus').cpu ∧
      (cpu.turn bus).writes = (cpu.turn bus').writes := by
  have fetched : Opcode.fetch (Bus.read bus) cpu.registers.pc =
      Opcode.fetch (Bus.read bus') cpu.registers.pc :=
    Opcode.fetch_congr fun cell member => agree cell (cpu.registers.fetched_subset _ member)
  cases found : (Opcode.fetch (Bus.read bus) cpu.registers.pc).instruction? with
  | none =>
    have missing := fetched ▸ found
    rw [turn_of_missing found, turn_of_missing missing]
    have same : (cpu.fault (Bus.read bus)).site = (cpu.fault (Bus.read bus')).site := by
      simp only [DecodeFault.site, fault, fetched]
    exact ⟨congrArg Except.error same, rfl, rfl⟩
  | some instruction =>
    have found' := fetched ▸ found
    have effects := instruction.effect_congr cpu.policy fun cell member =>
      agree cell (Registers.reads_subset found member)
    rw [turn_of_found found, turn_of_found found', ← fetched, ← effects]
    exact ⟨rfl, rfl, rfl⟩

theorem addresses_turn_subset :
    (cpu.turn bus).writes.map Write.address ⊆ cpu.registers.stores (Bus.read bus) := by
  cases found : (Opcode.fetch (Bus.read bus) cpu.registers.pc).instruction? with
  | none =>
    rw [turn_of_missing found]
    exact List.nil_subset _
  | some instruction =>
    rw [turn_of_found found]
    dsimp only
    rw [instruction.addresses_effect]
    exact Registers.stores_subset found

/-- The two cells of a word where a word is pushed, and one cell at most everywhere else. -/
theorem addresses_turn_cases :
    let turn := cpu.turn bus
    let addresses := turn.writes.map Write.address
    turn.opcode.instruction?.any Instruction.pushes ∧
        addresses = [cpu.registers.sp, cpu.registers.sp - 1] ∨
      ¬ turn.opcode.instruction?.any Instruction.pushes ∧ addresses.length ≤ 1 := by
  intro turn addresses
  cases found : (Opcode.fetch (Bus.read bus) cpu.registers.pc).instruction? with
  | none =>
    simp only [addresses, turn, turn_of_missing found, found]
    exact .inr ⟨nofun, Nat.zero_le 1⟩
  | some instruction =>
    simp only [addresses, turn, turn_of_found found, found, instruction.addresses_effect,
      Option.any_some]
    by_cases pushes : instruction.pushes
    · exact .inl ⟨pushes, Instruction.stores_of_pushes _ _ pushes⟩
    · exact .inr ⟨pushes, Instruction.length_stores_le_one _ _ pushes⟩

/-- A step is local. What it does, the fault it reports but for the memory shown around it, the
registers it leaves and the writes it makes depend on few cells of the bus, whatever the bus is like
elsewhere and behind them. It writes the two cells of a word where it pushes one and only there,
otherwise one cell at most, which a pair, C or the bytes behind the opcode name before the step; and
all other cells stay as they are. -/
theorem turn_local {bus : β} {bus' : β'} {cpu : Cpu}
    (agree : ∀ cell ∈ cpu.registers.reads (Bus.read bus), Bus.read bus cell = Bus.read bus' cell) :
    let turn := cpu.turn bus
    let turn' := cpu.turn bus'
    let addresses := turn.writes.map Write.address
    turn.outcome.mapError DecodeFault.site = turn'.outcome.mapError DecodeFault.site ∧
    turn.cpu = turn'.cpu ∧ turn.writes = turn'.writes ∧
    turn.bus = Bus.apply bus turn.writes ∧ turn'.bus = Bus.apply bus' turn'.writes ∧
    turn.writes.length ≤ 2 ∧ addresses.Nodup ∧
    (turn.writes.length = 2 ↔ turn.opcode.instruction? = some .call ∨
      ∃ source, turn.opcode.instruction? = some (.push source)) ∧
    (turn.writes.length = 2 → addresses = [cpu.registers.sp, cpu.registers.sp - 1]) ∧
    addresses ⊆ cpu.registers.stores (Bus.read bus) ∧
    ∀ [LawfulBus β], ∀ address ∉ addresses, Bus.read turn.bus address = Bus.read bus address := by
  intro turn turn' addresses
  obtain ⟨outcomes, cpus, writes⟩ := turn_congr_of_reads agree
  have count : addresses.length = turn.writes.length := List.length_map _
  have pushing : turn.opcode.instruction?.any Instruction.pushes ↔
      turn.opcode.instruction? = some .call ∨
        ∃ source, turn.opcode.instruction? = some (.push source) := by
    cases turn.opcode.instruction? <;> simp [Instruction.pushes_iff]
  have cases := cpu.addresses_turn_cases bus
  refine ⟨outcomes, cpus, writes, cpu.bus_turn bus, cpu.bus_turn bus', ?_,
    cpu.nodup_writes_turn bus, ?_, ?_, cpu.addresses_turn_subset bus, ?_⟩
  · rw [← count]
    obtain ⟨-, pushed⟩ | ⟨-, single⟩ := cases
    · exact Nat.le_of_eq (congrArg List.length pushed)
    · exact Nat.le_succ_of_le single
  · rw [← count, ← pushing]
    obtain ⟨pushes, pushed⟩ | ⟨unpushed, single⟩ := cases
    · exact iff_of_true (congrArg List.length pushed) pushes
    · exact iff_of_false (Nat.ne_of_lt (Nat.lt_succ_of_le single)) unpushed
  · intro two
    obtain ⟨-, pushed⟩ | ⟨-, single⟩ := cases
    · exact pushed
    · exact absurd (count.trans two) (Nat.ne_of_lt (Nat.lt_succ_of_le single))
  · intro _ address absent
    rw [cpu.bus_turn bus]
    exact Bus.read_apply_of_notMem bus absent

/-- A call whose opcode is the last cell of the address space and whose target and stack are the first
ones, on plain cells and on a memory that differs from them elsewhere. -/
theorem turn_local_call_at_end :
    let cpu : Cpu := { registers := { pc := 0xFFFF } }
    let ram := ((Ram.blank.write 0xFFFF 0xCD).write 0x0000 0x34).write 0x0001 0x12
    let memory : Memory := ⟨ram.write 0x5000 0x07⟩
    (∀ cell ∈ cpu.registers.reads (Bus.read ram), Bus.read ram cell = Bus.read memory cell) ∧
    Bus.read ram 0x5000 ≠ Bus.read memory 0x5000 ∧
    (cpu.turn ram).writes.map Write.address = [0x0000, 0xFFFF] ∧
    (cpu.turn memory).writes = (cpu.turn ram).writes ∧
    (cpu.turn memory).cpu = (cpu.turn ram).cpu ∧
    Bus.read (cpu.turn ram).bus 0x1234 = Bus.read ram 0x1234 := by
  intro cpu ram memory
  have same : ∀ cell, cell ≠ 0x5000 → cell ≠ Memory.lineRegister →
      Bus.read ram cell = Bus.read memory cell := by
    intro cell elsewhere notLine
    refine Eq.trans ?_ (Memory.read_of_ne notLine).symm
    exact ((Ram.read_write _ _ _ _).trans (if_neg (Ne.symm elsewhere))).symm
  have cells : Bus.read ram 0xFFFF = 0xCD ∧ Bus.read ram 0x0000 = 0x34 ∧
      Bus.read ram 0x0001 = 0x12 ∧ Bus.read ram 0x5000 = 0 := by
    simp [ram, Bus.read, Ram.read_write]
  obtain ⟨opcode, low, high, other⟩ := cells
  have agree : ∀ cell ∈ cpu.registers.reads (Bus.read ram),
      Bus.read ram cell = Bus.read memory cell := by
    have reads : cpu.registers.reads (Bus.read ram) =
        [0xFFFF, 0x0000, 0x0001, 0x0001, 0x0002, 0x0000, 0x0000, 0x0000, 0xFF00, 0xFF34, 0x1234] := by
      simp only [cpu, Registers.reads, Registers.locations]
      rw [show (0xFFFF + 1 : UInt16) = 0x0000 from rfl, show (0xFFFF + 2 : UInt16) = 0x0001 from rfl,
        low, high]
      rfl
    rw [reads]
    intro cell member
    apply same
    · rintro rfl
      revert member
      decide
    · rintro rfl
      revert member
      decide
  have found : (cpu.turn ram).opcode.instruction? = some .call := by
    have fetched : (cpu.turn ram).opcode = .primary 0xCD := by
      simp only [turn, Opcode.fetch, cpu, opcode]
      rfl
    rw [fetched]
    rfl
  obtain ⟨-, cpus, writes, -, -, -, -, two, stack, -, kept⟩ := turn_local agree
  have addresses := stack (two.2 (.inl found))
  refine ⟨agree, ?_, addresses, writes.symm, cpus.symm, kept 0x1234 ?_⟩
  · rw [other]
    simp [memory, Bus.read, Memory.read, Memory.lineRegister, Ram.read_write]
  · rw [addresses]
    decide

end Cpu

end DotMatrix
