import DotMatrix.Memory.Basic
import DotMatrix.Fault

/-! Mapping images into memory: the boot ROM over the first page, a cartridge from the second page to
the end of the ROM window. -/
namespace DotMatrix.Memory

def bootRomSize : Nat := 0x100

/-- The first cartridge byte that is mapped; those before it stay hidden behind the boot ROM. -/
def cartridgeStart : Nat := 0x100

def romEnd : Nat := 0x8000

/-- Refuses an image that does not fit into the first page. -/
def loadBoot (memory : Memory) (image : List UInt8) : Except Fault Memory :=
  if image.length ≤ bootRomSize then .ok (memory.store 0 image)
  else .error (.load .bootRom (.oversized image.length bootRomSize))

/-- The part of an image that is mapped. -/
def mapped (image : List UInt8) : List UInt8 := (image.take romEnd).drop cartridgeStart

/-- The number of bytes mapped, and the memory with them. -/
def loadCartridge (memory : Memory) (image : List UInt8) : Nat × Memory :=
  ((mapped image).length, memory.store (UInt16.ofNat cartridgeStart) (mapped image))

end DotMatrix.Memory
