import DotMatrix.Cpu.Step

/-! What a user is shown of a processor: its registers, and all that is known of a decode fault. -/
namespace DotMatrix

def Registers.report (r : Registers) : String :=
  let byte (label : String) (value : UInt8) := label ++ String.ofList (hexByte value)
  let flag (label : String) (value : Bool) := label ++ if value then "1" else "0"
  "PC=0x" ++ String.ofList (hexWord r.pc) ++ " SP=0x" ++ String.ofList (hexWord r.sp) ++ "\n" ++
    byte "A=" r.a ++ byte " F=" r.f.toByte ++ byte " B=" r.b ++ byte " C=" r.c ++ byte " D=" r.d ++
    byte " E=" r.e ++ byte " H=" r.h ++ byte " L=" r.l ++ "\n" ++
    flag "Z=" r.f.zero ++ flag " N=" r.f.subtract ++ flag " H=" r.f.halfCarry ++
    flag " C=" r.f.carry ++ "\n"

def DecodeFault.report (fault : DecodeFault) : String :=
  fault.message ++ "\n" ++ fault.registers.report ++ fault.window.text

end DotMatrix
