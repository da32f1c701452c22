import DotMatrix.Cartridge.Header
import DotMatrix.CommandLine.Options
import DotMatrix.Files.FrameDirectory
import DotMatrix.Stepper

/-! One run of the program on given files and input: what it prints, how it fails, and the files it
leaves behind. -/
namespace DotMatrix

/-- A fault, with what was being done when it came up. -/
inductive Failure where
  | machine (doing : String) (fault : Fault)
  | files (doing : String) (fault : FileFault)
deriving DecidableEq, Repr

/-- From what was being done to the innermost cause. -/
def Failure.message : Failure → String
  | .machine doing fault =>
    doing ++ ": " ++ fault.message ++
      match fault.cause? with
      | some cause => ": " ++ cause
      | none => ""
  | .files doing fault => doing ++ ": " ++ fault.message

structure Outcome where
  printed : String := ""
  failure : Option Failure := none
  files : FileSystem

namespace Session

def readingCartridge (options : Options) : String :=
  "reading cartridge '" ++ options.cartridge ++ "'"

def creatingOutput (options : Options) : String :=
  "creating output directory '" ++ options.output ++ "'"

def loadingBoot (options : Options) : String := "loading boot ROM '" ++ options.boot ++ "'"

def running : String := "emulation stopped"

variable {δ : Type} [Debugger δ]

/-- The machine with both images loaded. -/
def prepare (options : Options) (cartridge : Cartridge) (sink : FrameDirectory) (debugger : δ) :
    Except Fault (Machine FrameDirectory δ) := do
  let boot ← sink.files.readImage .bootRom (Path.ofText options.boot)
  let machine ← (Machine.start options.config sink debugger).loadBoot boot
  return (machine.loadCartridge cartridge.bytes).2

/-- Loads the images and runs the machine. `printed` tells what the debugger has written. -/
def emulate (fuel : Nat) (options : Options) (cartridge : Cartridge) (sink : FrameDirectory)
    (debugger : δ) (printed : δ → String) : Option Outcome :=
  match prepare options cartridge sink debugger with
  | .error fault =>
    some { failure := some (.machine (loadingBoot options) fault), files := sink.files }
  | .ok machine =>
    match machine.run fuel with
    | none => none
    | some (.ok _, machine) =>
      some { printed := printed machine.debugger, files := machine.sink.files }
    | some (.error fault, machine) =>
      some {
        printed := printed machine.debugger
        failure := some (.machine running fault)
        files := machine.sink.files }

/-- The whole run; `none` if the machine does not end within `fuel` steps. -/
def run (fuel : Nat) (options : Options) (files : FileSystem) (input : List UInt8) :
    Option Outcome :=
  match files.readImage .cartridge (Path.ofText options.cartridge) with
  | .error fault => some { failure := some (.machine (readingCartridge options) fault), files }
  | .ok bytes =>
    let cartridge : Cartridge := ⟨bytes⟩
    if options.header then some { printed := cartridge.header, files }
    else
      match FrameDirectory.create files (Path.ofText options.output) options.format with
      | .error (fault, files) =>
        some { failure := some (.files (creatingOutput options) fault), files }
      | .ok sink =>
        if options.step then
          emulate fuel options cartridge sink (Stepper.ofInput input .working) (·.written)
        else emulate fuel options cartridge sink NoDebugger.noDebugger fun _ => ""

end Session

end DotMatrix
