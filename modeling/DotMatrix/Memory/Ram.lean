import DotMatrix.Cpu.Step

/-! Plain memory: 64 KiB of cells, each of which reads back what was last written to it. -/
namespace DotMatrix

structure Ram where
  cells : Vector UInt8 65536
deriving DecidableEq

namespace Ram

def blank : Ram := ⟨Vector.replicate 65536 0⟩

def read (ram : Ram) (address : UInt16) : UInt8 :=
  have := address.toNat_lt
  ram.cells[address.toNat]

def write (ram : Ram) (address : UInt16) (value : UInt8) : Ram :=
  ⟨ram.cells.set address.toNat value address.toNat_lt⟩

instance : Bus Ram := ⟨read, write⟩

@[simp] theorem read_blank (address : UInt16) : blank.read address = 0 := by
  simp [read, blank]

theorem read_write (ram : Ram) (address other : UInt16) (value : UInt8) :
    (ram.write address value).read other = if address = other then value else ram.read other := by
  simp [read, write, Vector.getElem_set, UInt16.toNat_inj]

/-- Writes bytes to neighbouring cells, going from the last address on to the first. -/
def store (ram : Ram) (address : UInt16) : List UInt8 → Ram
  | [] => ram
  | byte :: rest => (ram.write address byte).store (address + 1) rest

end Ram

end DotMatrix
