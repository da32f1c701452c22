import DotMatrix.Cartridge.Logo
import DotMatrix.Text.HexDump

/-! Cartridge images and their header: a logo and a title. An image that ends too early has neither. -/
namespace DotMatrix

structure Cartridge where
  bytes : List UInt8
deriving DecidableEq, Repr

namespace Cartridge

def logoStart : Nat := 0x104

def titleStart : Nat := 0x134

def titleEnd : Nat := 0x144

/-- The 48 bytes of the logo. -/
def logo? (cartridge : Cartridge) : Option (List UInt8) :=
  if titleStart ≤ cartridge.bytes.length then
    some ((cartridge.bytes.take titleStart).drop logoStart)
  else none

def titleChar (byte : UInt8) : Char :=
  if 0x20 ≤ byte ∧ byte < 0x7F then Char.ofNat byte.toNat else '?'

/-- The title up to its first zero byte, with a question mark for what cannot be printed. -/
def title (cartridge : Cartridge) : String :=
  if titleEnd ≤ cartridge.bytes.length then
    let raw := (cartridge.bytes.take titleEnd).drop titleStart
    String.ofList ((raw.takeWhile (· ≠ 0)).map titleChar)
  else ""

/-- The title, then the logo as bytes and as a picture. -/
def header (cartridge : Cartridge) : String :=
  "Title: " ++ cartridge.title ++ "\n" ++
    match cartridge.logo? with
    | some logo => hexDump logo logoStart ++ (LogoPicture.decode logo).text
    | none => s!"Image too short for a header ({cartridge.bytes.length} bytes)\n"

end Cartridge

end DotMatrix
