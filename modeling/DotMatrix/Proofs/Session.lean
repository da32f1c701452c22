import DotMatrix.Session
import DotMatrix.Proofs.Files.Directories
import DotMatrix.Proofs.Files.FrameFiles

/-!
# A run of the program, stage by stage

A run without questions goes through its stages in a fixed order: it reads the cartridge, shows the
header if that is all that was wanted, makes the output directory, loads the boot ROM, and runs the
machine. What a stage finds wrong ends the run, with the files as the stages before have left them.

The last stage does what the machine does that collects its frames in a list, and these are then in
the numbered files of the output directory.
-/
namespace DotMatrix

namespace Session

open FrameDirectory (Fits fileAt Wrote)

/-- The machine with both images loaded that collects its frames. -/
def collecting (options : Options) (boot cartridge : List UInt8) :
    Except Fault (Machine (List Frame) NoDebugger) := do
  let machine ← (Machine.start options.config [] NoDebugger.noDebugger).loadBoot boot
  return (machine.loadCartridge cartridge).2

theorem collecting_of_fits {boot : List UInt8} (fits : boot.length ≤ 256) (options : Options)
    (cartridge : List UInt8) :
    ∃ machine, collecting options boot cartridge = .ok machine ∧ machine.sink = [] := by
  have loaded : Memory.blank.loadBoot boot = .ok (Memory.blank.store 0 boot) := if_pos fits
  refine ⟨(Machine.loadCartridge { Machine.start options.config [] NoDebugger.noDebugger with
    memory := Memory.blank.store 0 boot } cartridge).2, ?_, rfl⟩
  change (Except.map _ (Memory.blank.loadBoot boot)).bind _ = _
  rw [loaded]
  rfl

theorem collecting_of_oversized {boot : List UInt8} (oversized : 256 < boot.length)
    (options : Options) (cartridge : List UInt8) :
    collecting options boot cartridge = .error (.load .bootRom (.oversized boot.length 256)) := by
  have refused : Memory.blank.loadBoot boot = .error (.load .bootRom (.oversized boot.length 256)) :=
    if_neg (Nat.not_le.2 oversized)
  change (Except.map _ (Memory.blank.loadBoot boot)).bind _ = _
  rw [refused]
  rfl

/-- How the end of the machine's run shows in that of the program's. -/
def failureOf : Except Fault Exit → Option Failure
  | .ok _ => none
  | .error fault => some (.machine running fault)

variable {fuel : Nat} {options : Options} {files : FileSystem} {input : List UInt8}

theorem run_of_unreadable {fault : FileFault}
    (unreadable : files.read (Path.ofText options.cartridge) = .error fault) :
    run fuel options files input = some {
      failure := some (.machine (readingCartridge options) (.load .cartridge (.file fault)))
      files } := by
  rw [run, FileSystem.readImage, unreadable]

theorem run_of_header {content : ByteArray}
    (readable : files.read (Path.ofText options.cartridge) = .ok content)
    (header : options.header = true) :
    run fuel options files input =
      some { printed := (Cartridge.mk content.toList).header, files } := by
  rw [run, FileSystem.readImage, readable]
  dsimp only
  rw [if_pos header]

section

variable {content : ByteArray}
  (readable : files.read (Path.ofText options.cartridge) = .ok content)
  (unasked : options.header = false) {made : FileSystem}
include readable unasked

theorem run_of_refused {fault : FileFault}
    (refused : files.makeDirectories (Path.ofText options.output) = (.error fault, made)) :
    run fuel options files input =
      some { failure := some (.files (creatingOutput options) fault), files := made } := by
  rw [run, FileSystem.readImage, readable]
  dsimp only
  rw [unasked, if_neg Bool.false_ne_true, FrameDirectory.create, refused]

theorem run_of_made (unattended : options.step = false)
    (succeeded : files.makeDirectories (Path.ofText options.output) = (.ok (), made)) :
    run fuel options files input =
      emulate fuel options ⟨content.toList⟩
        { files := made, directory := Path.ofText options.output, format := options.format }
        NoDebugger.noDebugger fun _ => "" := by
  rw [run, FileSystem.readImage, readable]
  dsimp only
  rw [unasked, if_neg Bool.false_ne_true, FrameDirectory.create, succeeded]
  dsimp only
  rw [unattended, if_neg Bool.false_ne_true]

end

section

variable {cartridge : Cartridge} (sink : FrameDirectory)

theorem emulate_of_unreadable {fault : FileFault}
    (unreadable : sink.files.read (Path.ofText options.boot) = .error fault) :
    emulate fuel options cartridge sink NoDebugger.noDebugger (fun _ => "") = some {
      failure := some (.machine (loadingBoot options) (.load .bootRom (.file fault)))
      files := sink.files } := by
  have unprepared : prepare options cartridge sink NoDebugger.noDebugger =
      .error (.load .bootRom (.file fault)) := by
    rw [prepare, FileSystem.readImage, unreadable]
    rfl
  rw [emulate, unprepared]

variable {image : ByteArray} (readable : sink.files.read (Path.ofText options.boot) = .ok image)
include readable

theorem prepare_of_readable :
    prepare options cartridge sink NoDebugger.noDebugger =
      (collecting options image.toList cartridge.bytes).map (·.withSink sink) := by
  rw [prepare, FileSystem.readImage, readable]
  unfold collecting Machine.loadBoot
  change ((Except.map _ (Memory.blank.loadBoot image.toList)).bind _) =
    Except.map _ ((Except.map _ (Memory.blank.loadBoot image.toList)).bind _)
  cases Memory.blank.loadBoot image.toList <;> rfl

theorem emulate_of_unloaded {fault : Fault}
    (unloaded : collecting options image.toList cartridge.bytes = .error fault) :
    emulate fuel options cartridge sink NoDebugger.noDebugger (fun _ => "") = some {
      failure := some (.machine (loadingBoot options) fault)
      files := sink.files } := by
  rw [emulate, prepare_of_readable sink readable, unloaded]
  rfl

/-- A machine that collects its frames and does not come to an end: only a frame that is refused can
then end the program. -/
theorem emulate_of_unended {machine : Machine (List Frame) NoDebugger}
    (loaded : collecting options image.toList cartridge.bytes = .ok machine)
    (unended : machine.run fuel = none) :
    emulate fuel options cartridge sink NoDebugger.noDebugger (fun _ => "") = none ∨
      ∃ reason files, emulate fuel options cartridge sink NoDebugger.noDebugger (fun _ => "") =
        some { failure := some (.machine running (.sink reason)), files } := by
  rw [emulate, prepare_of_readable sink readable, loaded]
  dsimp only [Except.map]
  obtain unended | ⟨reason, last, refused⟩ := Machine.run_of_unended unended sink
  · exact .inl (by rw [unended])
  · exact .inr ⟨reason, last.sink.files, by rw [refused]⟩

theorem emulate_of_loaded {machine last : Machine (List Frame) NoDebugger}
    {result : Except Fault Exit} (empty : machine.sink = [])
    (loaded : collecting options image.toList cartridge.bytes = .ok machine)
    (ended : machine.run fuel = some (result, last)) :
    ∃ ending,
      Machine.PassedOn (fun reason => .error (.sink reason)) (result, last)
        (FrameSink.offer sink last.sink) ending ∧
      emulate fuel options cartridge sink NoDebugger.noDebugger (fun _ => "") = some {
        failure := failureOf ending.1
        files := ending.2.sink.files } := by
  obtain ⟨drawn, ending, collected, ran, passed⟩ := Machine.run_passedOn ended sink
  rw [empty, List.nil_append] at collected
  subst collected
  refine ⟨ending, passed, ?_⟩
  rw [emulate, prepare_of_readable sink readable, loaded]
  dsimp only [Except.map]
  rw [ran]
  rcases ending with ⟨fault | exit, last⟩ <;> rfl

variable {machine last : Machine (List Frame) NoDebugger} {result : Except Fault Exit}
  {place : Place} (empty : machine.sink = [])
  (loaded : collecting options image.toList cartridge.bytes = .ok machine)
  (ended : machine.run fuel = some (result, last))
  (opens : sink.files.OpensInto sink.directory place)
  (fits : ∀ k < last.sink.length, Fits sink.directory sink.format (sink.written + k))
include empty loaded ended opens fits

theorem emulate_of_free
    (free : ∀ k < last.sink.length,
      sink.files.lookup (fileAt place sink.format (sink.written + k)) ≠ some .directory) :
    ∃ after, Wrote sink.files after place sink.format sink.written last.sink ∧
      emulate fuel options cartridge sink NoDebugger.noDebugger (fun _ => "") = some {
        failure := failureOf result, files := after } := by
  obtain ⟨ending, passed, emulated⟩ :=
    emulate_of_loaded sink readable empty loaded ended
  obtain ⟨files, offered, -, wrote⟩ := FrameDirectory.offer_of_free sink opens last.sink fits free
  rw [offered] at passed
  refine ⟨files, wrote, emulated.trans ?_⟩
  cases passed with
  | taken sink => rfl

theorem emulate_of_blocked {j : Nat} (within : j < last.sink.length)
    (free : ∀ k < j,
      sink.files.lookup (fileAt place sink.format (sink.written + k)) ≠ some .directory)
    (blocked : sink.files.lookup (fileAt place sink.format (sink.written + j)) =
      some .directory) :
    ∃ after, Wrote sink.files after place sink.format sink.written (last.sink.take j) ∧
      emulate fuel options cartridge sink NoDebugger.noDebugger (fun _ => "") = some {
        failure := some (.machine running (.sink FileFault.isADirectory.message))
        files := after } := by
  obtain ⟨ending, passed, emulated⟩ :=
    emulate_of_loaded sink readable empty loaded ended
  have count : (last.sink.take j).length = j := List.length_take_of_le (Nat.le_of_lt within)
  obtain ⟨files, offered, wrote⟩ := FrameDirectory.offer_of_blocked sink opens (last.sink.take j)
    last.sink[j] (last.sink.drop (j + 1))
    (fun k before => fits k (by omega)) (fun k before => free k (by omega)) (by rw [count, blocked])
  rw [← List.drop_eq_getElem_cons within, List.take_append_drop] at offered
  rw [offered] at passed
  refine ⟨files, wrote, emulated.trans ?_⟩
  cases passed with
  | refused _ left => rw [left]; rfl

end

/-- The program without questions. An unreadable cartridge is told first, before anything is changed.
The header is shown without regard to the boot ROM, and without changing anything. The output
directory is made with what is missing above it; if that fails, or if the boot ROM then cannot be
read or is too large, nothing else has changed. Otherwise the run ends as that of the machine that
collects its frames, and these frames, and nothing else, have been written to the files of their
numbers; but the first one that has a directory in its way ends the run. -/
theorem run_stages (fuel : Nat) (options : Options) (files : FileSystem) (input : List UInt8)
    (unattended : options.step = false) :
    (∀ fault, files.read (Path.ofText options.cartridge) = .error fault →
      run fuel options files input = some {
        failure := some (.machine (readingCartridge options) (.load .cartridge (.file fault)))
        files }) ∧
    ∀ content, files.read (Path.ofText options.cartridge) = .ok content →
      (options.header = true → ∀ boot,
        run fuel { options with boot } files input =
          some { printed := (Cartridge.mk content.toList).header, files }) ∧
      (options.header = false →
        let output := Path.ofText options.output
        let made := (files.makeDirectories output).2
        files.GrownBy made (made.OnTheWay output) ∧
        (∀ fault, (files.makeDirectories output).1 = .error fault →
          run fuel options files input =
            some { failure := some (.files (creatingOutput options) fault), files := made }) ∧
        ((files.makeDirectories output).1 = .ok () →
          ((output.isTop → files.lookup (files.startOf output) = some .directory) →
            ∃ place, made.OpensInto output place) ∧
          (∀ fault, made.read (Path.ofText options.boot) = .error fault →
            run fuel options files input = some {
              failure := some (.machine (loadingBoot options) (.load .bootRom (.file fault)))
              files := made }) ∧
          ∀ image, made.read (Path.ofText options.boot) = .ok image →
            (256 < image.toList.length → run fuel options files input = some {
              failure := some (.machine (loadingBoot options)
                (.load .bootRom (.oversized image.toList.length 256)))
              files := made }) ∧
            (image.toList.length ≤ 256 → ∃ machine,
              collecting options image.toList content.toList = .ok machine ∧
              (machine.run fuel = none → run fuel options files input = none ∨
                ∃ reason after, run fuel options files input = some {
                  failure := some (.machine running (.sink reason)), files := after }) ∧
              ∀ result last place, machine.run fuel = some (result, last) →
                made.OpensInto output place →
                (∀ k < last.sink.length, Fits output options.format k) →
                ((∀ k < last.sink.length,
                    made.lookup (fileAt place options.format k) ≠ some .directory) →
                  ∃ after, Wrote made after place options.format 0 last.sink ∧
                    run fuel options files input =
                      some { failure := failureOf result, files := after }) ∧
                (∀ j < last.sink.length,
                  (∀ k < j, made.lookup (fileAt place options.format k) ≠ some .directory) →
                  made.lookup (fileAt place options.format j) = some .directory →
                    ∃ after, Wrote made after place options.format 0 (last.sink.take j) ∧
                      run fuel options files input = some {
                        failure := some (.machine running (.sink FileFault.isADirectory.message))
                        files := after })))) := by
  refine ⟨fun fault unreadable => run_of_unreadable unreadable, fun content readable => ⟨?_, ?_⟩⟩
  · intro header boot
    exact run_of_header readable header
  intro unasked output made
  have grown : files.GrownBy made (made.OnTheWay output) := (files.makeDirectories_grown output).1
  have opens : _ → _ → ∃ place, made.OpensInto output place :=
    (files.makeDirectories_grown output).2
  have answer : files.makeDirectories output = ((files.makeDirectories output).1, made) := rfl
  clear_value made
  refine ⟨grown, fun fault refused => ?_, fun succeeded => ?_⟩
  · rw [refused] at answer
    exact run_of_refused readable unasked answer
  rw [succeeded] at answer
  rw [run_of_made readable unasked unattended answer]
  let sink : FrameDirectory := { files := made, directory := output, format := options.format }
  refine ⟨opens succeeded, fun fault unreadable => emulate_of_unreadable sink unreadable, ?_⟩
  intro image readableBoot
  refine ⟨fun oversized => ?_, fun small => ?_⟩
  · exact emulate_of_unloaded sink readableBoot (collecting_of_oversized oversized _ _)
  obtain ⟨machine, loaded, empty⟩ := collecting_of_fits small options content.toList
  refine ⟨machine, loaded, emulate_of_unended sink readableBoot loaded, ?_⟩
  intro result last place ended opens fits
  have number : ∀ k, sink.written + k = k := Nat.zero_add
  have fits : ∀ k < last.sink.length, Fits sink.directory sink.format (sink.written + k) :=
    fun k within => (number k).symm ▸ fits k within
  refine ⟨fun free => ?_, fun j within free blocked => ?_⟩
  · exact emulate_of_free sink readableBoot empty loaded ended opens fits fun k within =>
      (number k).symm ▸ free k within
  · exact emulate_of_blocked sink readableBoot empty loaded ended opens fits within
      (fun k before => (number k).symm ▸ free k before) ((number j).symm ▸ blocked)

/-- The frames of an earlier run are in the output directory: the first file is written anew, and
the second one stays as it was. -/
theorem run_stages_after_another :
    let old := "old".toUTF8
    let options : Options := { boot := "b", cartridge := "c", maxSteps := some 1 }
    let files : FileSystem := {
      root := .directory [("b", .file .empty), ("c", .file .empty),
        ("frames", .directory [("frame-00000.pbm", .file old), ("frame-00001.pbm", .file old)])] }
    ∃ after, run 2 options files [] = some { files := after } ∧
      after.lookup ["frames", "frame-00000.pbm"] =
        some (.file ((Frame.render Memory.blank).encode .pbm).toUTF8) ∧
      after.lookup ["frames", "frame-00001.pbm"] = some (.file old) := by
  intro old options files
  have home : files.OpensInto (Path.ofText "") [] := ⟨rfl, .here [], rfl⟩
  have resolves : ∀ name ∈ ["b", "c", "frames"], files.resolve (Path.ofText name) = .ok [name] := by
    intro name member
    simp only [List.mem_cons, List.not_mem_nil, or_false] at member
    obtain rfl | rfl | rfl := member <;>
      exact home.resolve_child
        ⟨by decide, by decide, by rw [String.contains_char_eq]; decide, by decide, by decide⟩
  have readCartridge : files.read (Path.ofText options.cartridge) = .ok .empty :=
    FileSystem.read_of_resolve (resolves "c" (by simp)) rfl (by decide)
  have readBoot : files.read (Path.ofText options.boot) = .ok .empty :=
    FileSystem.read_of_resolve (resolves "b" (by simp)) rfl (by decide)
  have made : files.makeDirectories (Path.ofText options.output) = (.ok (), files) := by
    rw [FileSystem.makeDirectories, dif_neg (by decide),
      FileSystem.ensureDirectory_of_present (resolves "frames" (by simp)) rfl]
  obtain ⟨plain, -, -, leads⟩ := FileSystem.resolve_eq_ok_iff.1 (resolves "frames" (by simp))
  obtain ⟨-, readable⟩ := run_stages 2 options files [] rfl
  obtain ⟨-, unasked⟩ := readable .empty readCartridge
  obtain ⟨-, -, created⟩ := unasked rfl
  rw [made] at created
  obtain ⟨-, -, loads⟩ := created rfl
  obtain ⟨-, small⟩ := loads .empty readBoot
  rw [ByteArray.toList_empty] at small
  obtain ⟨machine, loaded, -, ends⟩ := small (by decide)
  cases loaded
  have opens : files.OpensInto (Path.ofText options.output) ["frames"] := ⟨plain, leads, rfl⟩
  obtain ⟨last, ended, -, collected⟩ := Machine.run_start_once
  have onlyOne : ∀ k < last.sink.length, k = 0 := by
    rw [collected]
    exact fun k within => Nat.lt_one_iff.1 within
  have firstFile : fileAt ["frames"] options.format 0 = ["frames", "frame-00000.pbm"] := by decide
  obtain ⟨free, -⟩ := ends _ _ ["frames"] ended opens fun k within => by
    obtain rfl := onlyOne k within
    exact ⟨by decide, by decide⟩
  obtain ⟨after, wrote, ran⟩ := free fun k within => by
    obtain rfl := onlyOne k within
    rw [firstFile]
    intro blocked
    cases blocked
  refine ⟨after, ran, ?_, ?_⟩
  · have held := wrote.held 0 (by rw [collected]; exact Nat.one_pos)
    rw [firstFile] at held
    simpa only [collected, List.getElem_cons_zero] using held
  · rw [wrote.others]
    · rfl
    · intro k within
      obtain rfl := onlyOne k within
      rw [firstFile]
      decide

end Session

end DotMatrix
