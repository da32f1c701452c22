import DotMatrix.Memory.Ram

/-! The machine's memory: plain cells but for the line register, which always reads as the first line
after the picture, whatever is stored there. -/
namespace DotMatrix

structure Memory where
  ram : Ram
deriving DecidableEq

namespace Memory

def scrollYRegister : UInt16 := 0xFF42

def scrollXRegister : UInt16 := 0xFF43

def lineRegister : UInt16 := 0xFF44

/-- The line number that tells that a picture has just been completed. -/
def frameComplete : UInt8 := 0x90

/-- Start of the tile patterns, sixteen bytes each. -/
def tileData : UInt16 := 0x8000

/-- Start of the map of 32 rows of 32 tiles. -/
def tileMap : UInt16 := 0x9800

def blank : Memory := ⟨Ram.blank⟩

def read (memory : Memory) (address : UInt16) : UInt8 :=
  if address = lineRegister then frameComplete else memory.ram.read address

def write (memory : Memory) (address : UInt16) (value : UInt8) : Memory :=
  ⟨memory.ram.write address value⟩

instance : Bus Memory := ⟨read, write⟩

instance : Inhabited Memory := ⟨blank⟩

def store (memory : Memory) (address : UInt16) (bytes : List UInt8) : Memory :=
  ⟨memory.ram.store address bytes⟩

/-- Neighbouring bytes, going from the last address on to the first. -/
def bytesAt (memory : Memory) (address : UInt16) (count : Nat) : Vector UInt8 count :=
  Vector.ofFn fun offset => memory.read (address + UInt16.ofNat offset.val)

def scrollX (memory : Memory) : UInt8 := memory.read scrollXRegister

def scrollY (memory : Memory) : UInt8 := memory.read scrollYRegister

@[simp] theorem read_lineRegister (memory : Memory) : memory.read lineRegister = frameComplete :=
  if_pos rfl

theorem read_of_ne {memory : Memory} {address : UInt16} (h : address ≠ lineRegister) :
    memory.read address = memory.ram.read address :=
  if_neg h

@[simp] theorem read_blank (address : UInt16) :
    blank.read address = if address = lineRegister then frameComplete else 0 := by
  simp [read, blank]

theorem read_write (memory : Memory) (address other : UInt16) (value : UInt8) :
    (memory.write address value).read other =
      if other = lineRegister then frameComplete
      else if address = other then value else memory.read other := by
  by_cases line : other = lineRegister <;> simp [read, write, Ram.read_write, line]

end Memory

end DotMatrix
