import DotMatrix.Machine.Debugger
import DotMatrix.Report
import DotMatrix.Text.Blank

/-! The interactive debugger: it shows the next instruction and the registers, then asks what to do
until a line of input answers. Once told to go on it never asks again. -/
namespace DotMatrix

/-- What a line of input asks for. -/
inductive Command where
  | step
  | resume
  | quit
  /-- The line is no text. -/
  | unreadable
  | unknown (word : String)
deriving DecidableEq, Repr

def Command.ofText (text : String) : Command :=
  let word := String.ofList (trimBlanks text.toList)
  if word = "" ∨ word = "s" then .step
  else if word = "c" then .resume
  else if word = "q" then .quit
  else .unknown word

def Command.ofLine (line : List UInt8) : Command :=
  match String.fromUTF8? line.toByteArray with
  | some text => ofText text
  | none => .unreadable

/-- Cuts bytes after each newline. -/
def splitLines : List UInt8 → List (List UInt8)
  | [] => []
  | byte :: rest =>
    if byte = 0x0A then [byte] :: splitLines rest
    else
      match splitLines rest with
      | [] => [[byte]]
      | line :: lines => (byte :: line) :: lines

/-- Cutting loses nothing. -/
theorem flatten_splitLines (bytes : List UInt8) : (splitLines bytes).flatten = bytes := by
  induction bytes with
  | nil => rfl
  | cons byte rest ih =>
    rw [splitLines]
    split
    · simp [ih]
    · split <;> simp_all

/-- A device that shows text; a broken one refuses to take it or to deliver it. -/
inductive Display where
  | working
  | refusesText
  | refusesFlush
deriving DecidableEq, Repr

structure Stepper where
  display : Display := .working
  paused : Bool := true
  /-- The input not yet read, in lines. -/
  lines : List (List UInt8)
  /-- All that was written so far. -/
  written : String := ""
deriving DecidableEq, Repr

namespace Stepper

def ofInput (input : List UInt8) (display : Display) : Stepper where
  display
  lines := splitLines input

def question : String := "[s]tep [c]ontinue [q]uit> "

def complaint (word : String) : String := "unknown command '" ++ word ++ "'\n"

/-- The line that shows where the processor is and what comes next, then the registers. -/
def announcement (r : Registers) (read : Reader) : String :=
  let opcode := Opcode.fetch read r.pc
  "0x" ++ String.ofList (hexWord r.pc) ++ ": " ++ opcode.text ++
    (if opcode.isSupported then "" else " (unsupported)") ++ "\n" ++ r.report

/-- Asks until a line answers; the end of the input and a line that is no text stop the machine. -/
def ask (lines : List (List UInt8)) (written : String) : Action × Stepper :=
  match lines with
  | [] => (.stop, { lines := [], written := written ++ question })
  | line :: rest =>
    match Command.ofLine line with
    | .step => (.proceed, { lines := rest, written := written ++ question })
    | .resume => (.proceed, { paused := false, lines := rest, written := written ++ question })
    | .quit | .unreadable => (.stop, { lines := rest, written := written ++ question })
    | .unknown word => ask rest (written ++ question ++ complaint word)

def prompt (stepper : Stepper) (r : Registers) (read : Reader) : Action × Stepper :=
  match stepper.display with
  | .working => ask stepper.lines (stepper.written ++ announcement r read)
  | .refusesText => (.stop, stepper)
  | .refusesFlush =>
    (.stop, { stepper with written := stepper.written ++ announcement r read ++ question })

instance : Debugger Stepper where
  beforeStep cpu memory stepper :=
    if stepper.paused then stepper.prompt cpu.registers memory.read else (.proceed, stepper)

end Stepper

end DotMatrix
