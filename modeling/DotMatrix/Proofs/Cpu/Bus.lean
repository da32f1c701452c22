import DotMatrix.Memory.Basic

/-!
# Cells of a bus

On a lawful bus a write changes one cell at most. The cell that is written need not read back as what
was stored in it: a plain cell does. On plain memory every cell is plain, in the machine's memory
every cell but the line register.
-/
namespace DotMatrix

/-- A bus on which a write changes no other cell than the one it names. -/
class LawfulBus (β : Type) [Bus β] : Prop where
  read_write_of_ne : ∀ (bus : β) {address other : UInt16} (value : UInt8), address ≠ other →
    Bus.read (Bus.write bus address value) other = Bus.read bus other

/-- A cell that reads back as what was last written to it. -/
def Bus.Plain (β : Type) [Bus β] (address : UInt16) : Prop :=
  ∀ (bus : β) (value : UInt8), Bus.read (Bus.write bus address value) address = value

instance : LawfulBus Ram where
  read_write_of_ne ram _ _ _ elsewhere := (ram.read_write _ _ _).trans (if_neg elsewhere)

instance : LawfulBus Memory where
  read_write_of_ne memory address other value elsewhere := by
    simp only [Bus.read, Bus.write, Memory.read_write, if_neg elsewhere]
    split
    · subst other
      exact memory.read_lineRegister.symm
    · rfl

theorem Ram.plain (address : UInt16) : Bus.Plain Ram address := fun ram value =>
  (ram.read_write address address value).trans (if_pos rfl)

theorem Memory.plain_iff {address : UInt16} :
    Bus.Plain Memory address ↔ address ≠ lineRegister := by
  constructor
  · rintro plain rfl
    have kept := (plain blank 0).symm.trans (read_lineRegister _)
    exact absurd kept (by decide)
  · intro elsewhere memory value
    refine (memory.read_write address address value).trans ?_
    rw [if_neg elsewhere, if_pos rfl]

theorem Memory.ram_apply (memory : Memory) (writes : List Write) :
    (Bus.apply memory writes).ram = Bus.apply memory.ram writes := by
  induction writes generalizing memory with
  | nil => rfl
  | cons first rest ih => exact ih (memory.write first.address first.value)

namespace Bus

variable {β : Type} [Bus β] [LawfulBus β] {writes : List Write}

/-- A cell that is not written is left as it was. -/
theorem read_apply_of_notMem (bus : β) {address : UInt16}
    (absent : address ∉ writes.map Write.address) :
    Bus.read (Bus.apply bus writes) address = Bus.read bus address := by
  induction writes generalizing bus with
  | nil => rfl
  | cons first rest ih =>
    rw [List.map_cons, List.mem_cons, not_or] at absent
    obtain ⟨elsewhere, absent⟩ := absent
    refine (ih _ absent).trans ?_
    exact LawfulBus.read_write_of_ne bus first.value (Ne.symm elsewhere)

/-- A plain cell that is written once holds what was written to it. -/
theorem read_apply_of_mem (bus : β) {write : Write} (plain : Bus.Plain β write.address)
    (once : (writes.map Write.address).Nodup) (member : write ∈ writes) :
    Bus.read (Bus.apply bus writes) write.address = write.value := by
  induction writes generalizing bus with
  | nil => cases member
  | cons first rest ih =>
    obtain ⟨fresh, once⟩ := List.nodup_cons.1 once
    obtain rfl | later := List.mem_cons.1 member
    · refine (read_apply_of_notMem _ fresh).trans ?_
      exact plain bus write.value
    · exact ih _ once later

end Bus

end DotMatrix
