import DotMatrix.Machine.Basic
import DotMatrix.Netpbm
import DotMatrix.Text.Numeral

/-! What the command line can ask for, why it may be refused, and how its values are read. -/
namespace DotMatrix

structure Options where
  boot : String
  cartridge : String
  output : String := "frames"
  format : ImageFormat := .pbm
  /-- Ask before every instruction. -/
  step : Bool := false
  maxSteps : Option Nat := none
  stopAt : Option UInt16 := none
  legacyFlags : Bool := false
  /-- Only show the header of the cartridge. -/
  header : Bool := false
deriving DecidableEq, Repr

def Options.config (options : Options) : Config where
  policy := if options.legacyFlags then .legacy else .accurate
  maxSteps := options.maxSteps
  stopAt := options.stopAt

/-- Why a command line is not run. -/
inductive UsageFault where
  | helpWanted
  | versionWanted
  | missingWord
  | unknownWord
  /-- A value is missing, empty or not among those allowed. -/
  | invalidValue
  | repeatedOption
  /-- A switch was given a value. -/
  | unwantedValue
  | badCount (why : NumeralFault)
  | badAddress (text : String) (why : NumeralFault)
deriving DecidableEq, Repr

/-- The wording of what is wrong with a number. -/
def UsageFault.cause? : UsageFault → Option String
  | .badCount why => some why.message
  | .badAddress text why => some ("invalid address '" ++ text ++ "': " ++ why.message)
  | _ => none

/-- Takes one hexadecimal mark away. -/
def dropHexMark : List Char → List Char
  | '0' :: 'x' :: rest => rest
  | '0' :: 'X' :: rest => rest
  | text => text

/-- Reads a hexadecimal address, with or without its mark. -/
def readAddress (text : String) : Except UsageFault UInt16 :=
  match readNumeral 16 0xFFFF (dropHexMark text.toList) with
  | .ok value => .ok (UInt16.ofNat value)
  | .error why => .error (.badAddress text why)

def readCount (text : String) : Except UsageFault Nat :=
  match readNumeral 10 0xFFFFFFFFFFFFFFFF text.toList with
  | .ok value => .ok value
  | .error why => .error (.badCount why)

def readFormat : String → Except UsageFault ImageFormat
  | "pbm" => .ok .pbm
  | "ppm" => .ok .ppm
  | _ => .error .invalidValue

/-- Any text but the empty one. -/
def readPath (text : String) : Except UsageFault String :=
  if text = "" then .error .invalidValue else .ok text

end DotMatrix
