import DotMatrix.Cpu.Effect
import DotMatrix.Memory.Window

/-! The processor against any bus. An opcode without an instruction is a fault that carries all that
was known when it was met; the processor and the bus are then as before. -/
namespace DotMatrix

/-- A 64 KiB address space of bytes. -/
class Bus (β : Type) where
  read : β → UInt16 → UInt8
  write : β → UInt16 → UInt8 → β

def Bus.apply {β : Type} [Bus β] (bus : β) (writes : List Write) : β :=
  writes.foldl (fun bus w => Bus.write bus w.address w.value) bus

structure DecodeFault where
  opcode : Opcode
  /-- Where the first byte of the opcode was fetched. -/
  address : UInt16
  registers : Registers
  window : Window
deriving DecidableEq, Repr

def DecodeFault.message (fault : DecodeFault) : String :=
  "unsupported opcode " ++ fault.opcode.text ++ " at 0x" ++ String.ofList (hexWord fault.address)

structure Cpu where
  registers : Registers := {}
  policy : FlagPolicy := .accurate
deriving DecidableEq, Repr, Inhabited

namespace Cpu

def reset (cpu : Cpu) : Cpu := { cpu with registers := {} }

/-- What the instruction at PC does, given what can be read. -/
def effect (cpu : Cpu) (read : Reader) : Except DecodeFault Effect :=
  let address := cpu.registers.pc
  let opcode := Opcode.fetch read address
  match opcode.instruction? with
  | some instruction => .ok (instruction.effect cpu.policy read (cpu.registers.skip opcode.size))
  | none =>
    .error
      { opcode, address, registers := cpu.registers, window := Window.around read address }

@[inline] def step {β : Type} [Bus β] (cpu : Cpu) (bus : β) : Except DecodeFault Unit × Cpu × β :=
  match cpu.effect (Bus.read bus) with
  | .ok effect =>
    (.ok (), { cpu with registers := effect.registers }, Bus.apply bus effect.writes)
  | .error fault => (.error fault, cpu, bus)

end Cpu

end DotMatrix
