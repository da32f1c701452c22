import DotMatrix.CommandLine.Parse
import DotMatrix.CommandLine.Usage
import DotMatrix.Session

/-! The program on real files and a real terminal. Each frame is written as soon as it is drawn, each
question is asked before its answer is read. -/
namespace DotMatrix.Program

/-- Some calls give the code of the system with a minus sign. -/
def faultOfCode (code : UInt32) (details : String) : FileFault :=
  let code := min code (0 - code)
  if code = 2 then .notFound
  else if code = 17 then .alreadyExists
  else if code = 20 then .notADirectory
  else if code = 21 then .isADirectory
  else if code = 36 then .nameTooLong
  else .other s!"{details} (os error {code})"

def faultOfError (error : IO.Error) : FileFault :=
  match error with
  | .noFileOrDirectory _ code details => faultOfCode code details
  | .alreadyExists _ code details => faultOfCode code details
  | .inappropriateType _ code details => faultOfCode code details
  | .invalidArgument _ code details => faultOfCode code details
  | .permissionDenied _ code details => faultOfCode code details
  | .resourceExhausted _ code details => faultOfCode code details
  | .otherError code details => faultOfCode code details
  | _ => .other error.toString

def attempt {α : Type} (action : IO α) : IO (Except FileFault α) := do
  try
    return .ok (← action)
  catch error =>
    return .error (faultOfError error)

/-- Only a directory already has an entry for itself. -/
def ensureDirectory (path : Path) : IO (Except FileFault Unit) := do
  match ← attempt (IO.FS.createDir path.text) with
  | .error .alreadyExists =>
    match ← attempt (IO.FS.createDir (path.text ++ "/.")) with
    | .error .alreadyExists => return .ok ()
    | _ => return .error .alreadyExists
  | answer => return answer

def makeDirectories (path : Path) : IO (Except FileFault Unit) :=
  if _h : path.isTop then return .ok ()
  else do
    match ← ensureDirectory path with
    | .error .notFound =>
      match ← makeDirectories path.parent with
      | .ok () => ensureDirectory path
      | .error fault => return .error fault
    | answer => return answer
termination_by path.names.length
decreasing_by exact path.length_parent_lt _h

partial def readLine (input : IO.FS.Stream) (line : Array UInt8) : IO (List UInt8) := do
  let next ← input.read 1
  match next.data[0]? with
  | none => return line.toList
  | some byte =>
    if byte = 0x0A then return (line.push byte).toList
    else readLine input (line.push byte)

/-- What an answer asks for, and whether to ask again before the next instruction. -/
partial def ask (input output : IO.FS.Stream) : IO (Action × Bool) := do
  output.putStr Stepper.question
  output.flush
  match ← readLine input #[] with
  | [] => return (.stop, true)
  | line =>
    match Command.ofLine line with
    | .step => return (.proceed, true)
    | .resume => return (.proceed, false)
    | .quit => return (.stop, true)
    | .unreadable => return (.stop, true)
    | .unknown word =>
      output.putStr (Stepper.complaint word)
      ask input output

def consult (paused : Bool) (m : Machine (List Frame) NoDebugger) : IO (Action × Bool) := do
  if paused then
    try
      let output ← IO.getStdout
      output.putStr (Stepper.announcement m.cpu.registers m.memory.read)
      ask (← IO.getStdin) output
    catch _ => return (.stop, true)
  else return (.proceed, false)

partial def loop (options : Options) (paused : Bool) (written : Nat)
    (m : Machine (List Frame) NoDebugger) : IO (Option Failure) := do
  if m.limit?.isSome then return none
  let (action, paused) ← consult paused m
  if action = .stop then return none
  match m.step with
  | (.error fault, _) => return some (.machine Session.running fault)
  | (.ok _, m) =>
    match m.sink with
    | [] => loop options paused written m
    | frame :: _ =>
      let file := (Path.ofText options.output).child (FrameDirectory.fileName options.format written)
      match ← attempt (IO.FS.writeBinFile file.text (frame.encode options.format).toUTF8) with
      | .ok () => loop options paused (written + 1) { m with sink := [] }
      | .error fault => return some (.machine Session.running (.sink fault.message))

def emulate (options : Options) (cartridge : Cartridge) : IO (Option Failure) := do
  let failed (fault : Fault) := some (Failure.machine (Session.loadingBoot options) fault)
  match ← attempt (IO.FS.readBinFile options.boot) with
  | .error fault => return failed (.load .bootRom (.file fault))
  | .ok boot =>
    let m := Machine.start options.config ([] : List Frame) NoDebugger.noDebugger
    match m.loadBoot boot.toList with
    | .error fault => return failed fault
    | .ok m => loop options options.step 0 (m.loadCartridge cartridge.bytes).2

def run (options : Options) : IO (Option Failure) := do
  match ← attempt (IO.FS.readBinFile options.cartridge) with
  | .error fault =>
    return some (.machine (Session.readingCartridge options) (.load .cartridge (.file fault)))
  | .ok image =>
    let cartridge : Cartridge := ⟨image.toList⟩
    if options.header then
      IO.print cartridge.header
      return none
    match ← makeDirectories (Path.ofText options.output) with
    | .error fault => return some (.files (Session.creatingOutput options) fault)
    | .ok () => emulate options cartridge

end DotMatrix.Program

open DotMatrix in
def main (words : List String) : IO UInt32 := do
  match CommandLine.parse words with
  | .error .helpWanted =>
    IO.print CommandLine.usage
    return 0
  | .error .versionWanted =>
    IO.print CommandLine.version
    return 0
  | .error fault =>
    IO.eprintln ("error: " ++ CommandLine.complaint fault)
    return 2
  | .ok options =>
    match ← Program.run options with
    | none => return 0
    | some failure =>
      if let .machine _ (.decode fault) := failure then IO.eprint fault.report
      IO.eprintln ("error: " ++ failure.message)
      return 1
