import Mathlib.Tactic.MkIffOfInductiveProp
import DotMatrix.Proofs.Files.Directories
import DotMatrix.Proofs.Files.FrameFiles
import DotMatrix.Proofs.Text.Padding

/-!
# Numbers without gaps

Frames are shown to a frame directory while others remove what is in its files and make directories.
However these take turns, a frame that is taken gets the number of those taken before it and one that
is refused leaves no trace, so that the files of the frames taken are numbered without gaps. None of
them is written again.
-/
namespace DotMatrix

namespace FrameDirectory

open FileSystem (OpensInto maxPath)

/-- What can happen to a frame directory: a frame is shown to it, or others change the files. -/
inductive Event where
  | present (frame : Frame)
  | remove (place : Place)
  | makeDirectories (path : Path)

def after (sink : FrameDirectory) : Event → FrameDirectory
  | .present frame => (FrameSink.present frame sink).2
  | .remove place => { sink with files := sink.files.remove place }
  | .makeDirectories path => { sink with files := (sink.files.makeDirectories path).2 }

def afterAll : FrameDirectory → List Event → FrameDirectory := List.foldl after

/-- The frame taken in an event, if there is one. -/
def taken (sink : FrameDirectory) : Event → List Frame
  | .present frame => if (FrameSink.present frame sink).1.isOk then [frame] else []
  | .remove _ | .makeDirectories _ => []

/-- The frames taken one after another. -/
def takenAll (sink : FrameDirectory) : List Event → List Frame
  | [] => []
  | event :: rest => sink.taken event ++ (sink.after event).takenAll rest

/-- Where the files of a frame directory are, when it is there. -/
def place (sink : FrameDirectory) : Place :=
  FileSystem.target (sink.files.startOf sink.directory) sink.directory.names

/-- The file of the next frame can be written. -/
@[mk_iff]
structure Ready (sink : FrameDirectory) : Prop where
  fits : Fits sink.directory sink.format sink.written
  opens : sink.files.OpensInto sink.directory sink.place
  free : sink.files.lookup (fileAt sink.place sink.format sink.written) ≠ some .directory

/-- All that showing a frame to a frame directory can do. -/
inductive Presents (sink : FrameDirectory) (frame : Frame) :
    Except String Unit × FrameDirectory → Prop
  | taken {files : FileSystem} (ready : sink.Ready)
      (home : files.workingDirectory = sink.files.workingDirectory)
      (lookup_eq : ∀ other, files.lookup other =
        if fileAt sink.place sink.format sink.written = other then
          some (.file (frame.encode sink.format).toUTF8)
        else sink.files.lookup other) :
      Presents sink frame (.ok (), { sink with files, written := sink.written + 1 })
  | refused (fault : FileFault) (unready : ¬ sink.Ready) :
      Presents sink frame (.error fault.message, sink)

theorem ready_of_write {sink : FrameDirectory} {content : ByteArray} {files : FileSystem}
    (written : sink.files.write (sink.pathOf sink.written) content = .ok files) : sink.Ready := by
  obtain ⟨file, resolved, free, -⟩ := FileSystem.resolve_of_write written
  obtain ⟨above, opens, nameable, rfl⟩ := FileSystem.opensInto_of_resolve_child
    (fileName_ne sink.format sink.written (by decide))
    ⟨fileName_ne sink.format sink.written (by decide),
      fileName_ne sink.format sink.written (by decide)⟩ resolved
  obtain rfl : above = sink.place := opens.leads.eq_target
  exact ⟨⟨nameable.short, nameable.fits⟩, opens, free⟩

theorem present_presents (sink : FrameDirectory) (frame : Frame) :
    sink.Presents frame (FrameSink.present frame sink) := by
  cases written : sink.files.write (sink.pathOf sink.written) (frame.encode sink.format).toUTF8 with
  | ok files =>
    have presented : FrameSink.present frame sink =
        (.ok (), { sink with files, written := sink.written + 1 }) := by
      simp only [FrameSink.present, written]
    have ready := ready_of_write written
    obtain ⟨others, same, -, lookup_eq⟩ := sink.present_of_free ready.opens ready.fits frame ready.free
    obtain ⟨-, -, -, home⟩ := FileSystem.resolve_of_write written
    rw [presented] at same ⊢
    cases same
    exact .taken ready home lookup_eq
  | error fault =>
    have presented : FrameSink.present frame sink = (.error fault.message, sink) := by
      simp only [FrameSink.present, written]
    rw [presented]
    refine .refused fault fun ready => ?_
    obtain ⟨_, same, -, -⟩ := sink.present_of_free ready.opens ready.fits frame ready.free
    rw [presented] at same
    cases same

/-- What no event changes of a frame directory. -/
structure Steady (before after : FrameDirectory) : Prop where
  directory_eq : after.directory = before.directory
  format_eq : after.format = before.format
  home : after.files.workingDirectory = before.files.workingDirectory

theorem Steady.place_eq {before after : FrameDirectory} (steady : Steady before after) :
    after.place = before.place := by
  rw [place, place, FileSystem.startOf, FileSystem.startOf, steady.directory_eq, steady.home]

variable (sink : FrameDirectory)

/-- A step keeps what is steady, and its number grows with the frames taken. -/
theorem after_steps (event : Event) :
    Steady sink (sink.after event) ∧
      (sink.after event).written = sink.written + (sink.taken event).length := by
  cases event with
  | present frame =>
    have presents := sink.present_presents frame
    rw [after, taken]
    generalize FrameSink.present frame sink = presented at presents ⊢
    cases presents with
    | taken _ home _ => exact ⟨⟨rfl, rfl, home⟩, rfl⟩
    | refused _ _ => exact ⟨⟨rfl, rfl, rfl⟩, rfl⟩
  | remove place => exact ⟨⟨rfl, rfl, rfl⟩, rfl⟩
  | makeDirectories path =>
    exact ⟨⟨rfl, rfl, (sink.files.makeDirectories_grown path).1.home⟩, rfl⟩

theorem afterAll_steps (events : List Event) :
    Steady sink (sink.afterAll events) ∧
      (sink.afterAll events).written = sink.written + (sink.takenAll events).length := by
  induction events generalizing sink with
  | nil => exact ⟨⟨rfl, rfl, rfl⟩, rfl⟩
  | cons event rest ih =>
    obtain ⟨first, counted⟩ := sink.after_steps event
    obtain ⟨onwards, countedOn⟩ := ih (sink.after event)
    refine ⟨⟨onwards.directory_eq.trans first.directory_eq,
      onwards.format_eq.trans first.format_eq, onwards.home.trans first.home⟩, ?_⟩
    rw [takenAll, List.length_append, ← Nat.add_assoc, ← counted]
    exact countedOn

/-- Nothing that holds the place is removed. -/
def Event.Spares (place : Place) : Event → Prop
  | .remove removed => ¬ removed <+: place
  | .present _ | .makeDirectories _ => True

/-- The place is not that of a file which is still to be written. -/
def Past (file : Place) : Prop :=
  ∀ number ≥ sink.written, file ≠ fileAt sink.place sink.format number

variable {sink}

/-- A file that is not to be written any more stays what it is if it is not removed. -/
theorem lookup_after {event : Event} {file : Place} {content : ByteArray} (past : sink.Past file)
    (spared : event.Spares file) (held : sink.files.lookup file = some (.file content)) :
    (sink.after event).files.lookup file = some (.file content) := by
  cases event with
  | present frame =>
    have presents := sink.present_presents frame
    rw [after]
    generalize FrameSink.present frame sink = presented at presents ⊢
    cases presents with
    | taken _ _ lookup_eq => rw [lookup_eq, if_neg (past _ (Nat.le_refl _)).symm, held]
    | refused _ _ => exact held
  | remove removed =>
    have below : removed ≠ [] := by
      rintro rfl
      exact spared List.nil_prefix
    rw [after, FileSystem.lookup_remove _ below, if_neg spared, held]
  | makeDirectories path =>
    obtain same | ⟨absent, -, -⟩ := (sink.files.makeDirectories_grown path).1.lookup_eq file
    · exact same.trans held
    · rw [held] at absent
      cases absent

theorem Past.after {file : Place} (past : sink.Past file) (event : Event) :
    (sink.after event).Past file := by
  obtain ⟨steady, counted⟩ := sink.after_steps event
  intro number later
  rw [steady.place_eq, steady.format_eq]
  exact past number (by omega)

theorem lookup_afterAll {events : List Event} {file : Place} {content : ByteArray}
    (past : sink.Past file) (spared : ∀ event ∈ events, event.Spares file)
    (held : sink.files.lookup file = some (.file content)) :
    (sink.afterAll events).files.lookup file = some (.file content) := by
  induction events generalizing sink with
  | nil => exact held
  | cons event rest ih =>
    obtain ⟨first, others⟩ := List.forall_mem_cons.1 spared
    exact ih (past.after event) others (lookup_after past first held)

theorem present_eq_ok_iff {frame : Frame} :
    (FrameSink.present frame sink).1 = .ok () ↔ sink.Ready := by
  have presents := sink.present_presents frame
  generalize FrameSink.present frame sink = presented at presents
  cases presents with
  | taken ready _ _ => exact iff_of_true rfl ready
  | refused fault unready => exact iff_of_false nofun unready

/-- What becomes of a frame that is taken. -/
theorem held_of_taken {frame : Frame} {next : FrameDirectory}
    (presented : FrameSink.present frame sink = (.ok (), next)) :
    let file := fileAt sink.place sink.format sink.written
    next.written = sink.written + 1 ∧
      sink.files.resolve (sink.pathOf sink.written) = .ok file ∧
      (∀ other, next.files.lookup other =
        if other = file then some (.file (frame.encode sink.format).toUTF8)
        else sink.files.lookup other) ∧
      ∀ later, (∀ event ∈ later, event.Spares file) →
        (next.afterAll later).files.lookup file =
          some (.file (frame.encode sink.format).toUTF8) := by
  intro file
  have steady := (sink.after_steps (.present frame)).1
  have presents := sink.present_presents frame
  rw [after] at steady
  rw [presented] at presents steady
  cases presents with
  | taken ready _ lookup_eq =>
    refine ⟨rfl, ready.opens.resolve_child ready.fits.nameable, fun other => ?_, fun later spared => ?_⟩
    · rw [lookup_eq]
      exact if_congr eq_comm rfl rfl
    · refine lookup_afterAll ?_ spared ((lookup_eq file).trans (if_pos rfl))
      intro number later same
      rw [steady.place_eq] at same
      have equal := fileAt_injective same
      dsimp only at later
      omega

theorem eq_of_refused {frame : Frame} {reason : String} {next : FrameDirectory}
    (presented : FrameSink.present frame sink = (.error reason, next)) :
    next = sink ∧ ∃ fault : FileFault, reason = fault.message := by
  have presents := sink.present_presents frame
  rw [presented] at presents
  cases presents with
  | refused fault _ => exact ⟨rfl, fault, rfl⟩

/-- After whatever has happened, a frame is taken exactly when the directory is there and there is no
directory where its file would be, as long as that can be named at all, which is so for 64-bit numbers
if the path of the directory is not too long. Its number is that of the frames taken before. Then its
file holds it, whatever there was before, and keeps it until it is removed, and nothing else has
changed. A frame that is refused changes nothing, so that the next one has the same number. Different
numbers have different files. -/
theorem frames_numbered {files : FileSystem} {directory : Path} {format : ImageFormat}
    (created : create files directory format = .ok sink) (earlier : List Event) :
    let reached := sink.afterAll earlier
    let number := (sink.takenAll earlier).length
    let path := directory.child (fileName format number)
    let file := fileAt sink.place format number
    reached.written = number ∧
    (∀ index, ∃ digits, fileName format index =
        "frame-" ++ String.ofList digits ++ "." ++ format.extension ∧
      Padded 5 digits ∧ (∀ c ∈ digits, c.isDigit = true) ∧ Nat.ofDigitChars 10 digits 0 = index) ∧
    (∀ index other, index ≠ other →
      (directory.child (fileName format index)).text ≠
          (directory.child (fileName format other)).text ∧
        fileAt sink.place format index ≠ fileAt sink.place format other) ∧
    (directory.size + 31 ≤ maxPath → ∀ index < 2 ^ 64, Fits directory format index) ∧
    ∀ frame,
      ((FrameSink.present frame reached).1 = .ok () ↔
        Fits directory format number ∧ reached.files.OpensInto directory sink.place ∧
          reached.files.lookup file ≠ some .directory) ∧
      (∀ next, FrameSink.present frame reached = (.ok (), next) →
        next.written = number + 1 ∧ reached.files.resolve path = .ok file ∧
        (∀ other, next.files.lookup other =
          if other = file then some (.file (frame.encode format).toUTF8)
          else reached.files.lookup other) ∧
        ∀ later, (∀ event ∈ later, event.Spares file) →
          (next.afterAll later).files.lookup file =
            some (.file (frame.encode format).toUTF8)) ∧
      ∀ reason next, FrameSink.present frame reached = (.error reason, next) →
        next = reached ∧ (∃ fault : FileFault, reason = fault.message) ∧
        ∀ (scheduler : Scheduler) memory, scheduler.drawn ≠ some memory.scrollY →
          Frame.render memory = frame →
            scheduler.tick memory reached = (.error (.sink reason), scheduler, reached) := by
  intro reached number path file
  obtain ⟨rfl, rfl, unwritten⟩ := of_create created
  obtain ⟨steady, counted⟩ := sink.afterAll_steps earlier
  have written_eq : reached.written = number := by rw [counted, unwritten, Nat.zero_add]
  have path_eq : reached.pathOf reached.written = path := by
    rw [pathOf, steady.directory_eq, steady.format_eq, written_eq]
  have file_eq : fileAt reached.place reached.format reached.written = file := by
    rw [steady.place_eq, steady.format_eq, written_eq]
  refine ⟨written_eq, fun index => ⟨decimalNumeral 5 index, rfl,
    padded_decimalNumeral (by decide) index, fun c => isDigit_of_mem_decimalNumeral,
    ofDigitChars_decimalNumeral 5 index⟩, fun index other differ => ⟨?_, mt fileAt_injective differ⟩,
    fun short index => fits_of_short sink.format short, fun frame => ⟨?_, ?_, ?_⟩⟩
  · exact fun same => differ (fileName_injective (Path.text_child_injective _ same))
  · rw [present_eq_ok_iff, ready_iff, file_eq, steady.place_eq, steady.directory_eq,
      steady.format_eq, written_eq]
  · intro next presented
    have held := held_of_taken presented
    rwa [path_eq, file_eq, written_eq, steady.format_eq] at held
  · intro reason next presented
    obtain ⟨rfl, fault, rfl⟩ := eq_of_refused presented
    refine ⟨rfl, ⟨fault, rfl⟩, ?_⟩
    rintro scheduler memory due rfl
    rw [Scheduler.tick, if_neg due, presented]

/-- The directory is removed and made again: the frame shown in between is refused, and the next one
has the first number. -/
theorem frames_numbered_after_removal :
    let output := Path.ofText "frames"
    let frame := Frame.render Memory.blank
    ∃ sink next, create {} output .pbm = .ok sink ∧
      FrameSink.present frame (sink.afterAll
        [.remove ["frames"], .present frame, .makeDirectories output]) = (.ok (), next) ∧
      next.written = 1 ∧
      next.files.lookup ["frames", "frame-00000.pbm"] =
        some (.file (frame.encode .pbm).toUTF8) := by
  intro output frame
  have resolves : ∀ fs : FileSystem, fs.workingDirectory = [] → fs.lookup [] = some .directory →
      fs.resolve output = .ok ["frames"] := by
    intro fs home root
    have leads : fs.Leads (fs.startOf (Path.ofText "")) (Path.ofText "").names [] := by
      rw [FileSystem.startOf, home]
      exact .here []
    exact (OpensInto.mk rfl leads root).resolve_child
      ⟨by decide, by decide, by rw [String.contains_char_eq]; decide, by decide, by decide⟩
  have makes : ∀ fs : FileSystem, fs.workingDirectory = [] → fs.lookup [] = some .directory →
      fs.lookup ["frames"] = none →
        fs.makeDirectories output = (.ok (), fs.insert ["frames"] .directory) := by
    intro fs home root missing
    exact FileSystem.makeDirectories_of_missing (by decide) (resolves fs home root) missing
  let there : FileSystem := FileSystem.insert {} ["frames"] .directory
  let sink : FrameDirectory := { files := there, directory := output, format := .pbm }
  have created : create {} output .pbm = .ok sink := by rw [create, makes {} rfl rfl rfl]
  let gone : FrameDirectory := { sink with files := there.remove ["frames"] }
  have refused : ∃ reason, FrameSink.present frame gone = (.error reason, gone) := by
    obtain ⟨-, -, -, -, shown⟩ := frames_numbered created [.remove ["frames"]]
    obtain ⟨taken_iff, -, fails⟩ := shown frame
    rcases answer : FrameSink.present frame gone with ⟨reason | _, next⟩
    · obtain ⟨rfl, -, -⟩ := fails reason next answer
      exact ⟨reason, rfl⟩
    · obtain ⟨-, opens, -⟩ := taken_iff.1 (congrArg Prod.fst answer)
      have missing : gone.files.lookup ["frames"] = none := rfl
      cases missing.symm.trans opens.directory
  obtain ⟨reason, refused⟩ := refused
  let back : FrameDirectory := { sink with files := gone.files.insert ["frames"] .directory }
  have present : gone.after (.present frame) = gone := congrArg Prod.snd refused
  have made : gone.after (.makeDirectories output) = back := by
    rw [after, makes gone.files rfl rfl rfl]
  have reached : sink.afterAll [.remove ["frames"], .present frame, .makeDirectories output] =
      back := by
    calc
      _ = (gone.after (.present frame)).after (.makeDirectories output) := rfl
      _ = back := by rw [present, made]
  have none : sink.takenAll [.remove ["frames"], .present frame, .makeDirectories output] = [] := by
    have untaken : gone.taken (.present frame) = [] := by
      rw [taken, refused]
      rfl
    calc
      _ = gone.taken (.present frame) ++ [] := rfl
      _ = [] := by rw [untaken, List.nil_append]
  obtain ⟨-, -, -, -, shown⟩ :=
    frames_numbered created [.remove ["frames"], .present frame, .makeDirectories output]
  obtain ⟨taken_iff, takes, -⟩ := shown frame
  rw [reached, none] at taken_iff takes
  have opens : back.files.OpensInto output ["frames"] := by
    obtain ⟨plain, -, -, leads⟩ := FileSystem.resolve_eq_ok_iff.1 (resolves back.files rfl rfl)
    exact ⟨plain, leads, rfl⟩
  have taken := taken_iff.2 ⟨⟨by decide, by decide⟩, opens, by intro blocked; cases blocked⟩
  rcases answer : FrameSink.present frame back with ⟨_ | _, next⟩
  · rw [answer] at taken
    cases taken
  · obtain ⟨counted, -, held, -⟩ := takes next answer
    refine ⟨sink, next, created, reached ▸ answer, counted, ?_⟩
    rw [held, if_pos (by decide)]

end FrameDirectory

end DotMatrix
