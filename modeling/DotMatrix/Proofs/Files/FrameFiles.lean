import Mathlib.Data.String.Basic
import DotMatrix.Files.FrameDirectory
import DotMatrix.Proofs.Files.Resolution
import DotMatrix.Proofs.Machine.Collecting

/-!
# The files of a frame directory

Each number has a file of its own. A frame is written unless there is a directory where its file
would be; then it is refused, and nothing changes. So frames offered one after another are in the
files of their numbers in the end, whatever these held before, and nothing else has changed.
-/
namespace DotMatrix

open FileSystem (OpensInto Nameable maxName maxPath)

theorem ofDigitChars_decimalNumeral (width n : Nat) :
    Nat.ofDigitChars 10 (decimalNumeral width n) 0 = n := by
  rw [decimalNumeral, padZeros, Nat.ofDigitChars_append, Nat.ofDigitChars_replicate_zero,
    Nat.mul_zero, Nat.ofDigitChars_ten_toDigits]

theorem decimalNumeral_injective {width n m : Nat}
    (same : decimalNumeral width n = decimalNumeral width m) : n = m := by
  rw [← ofDigitChars_decimalNumeral width n, same, ofDigitChars_decimalNumeral]

theorem isDigit_of_mem_decimalNumeral {width n : Nat} {c : Char}
    (member : c ∈ decimalNumeral width n) : c.isDigit = true := by
  obtain zero | digit := List.mem_append.1 member
  · rw [List.eq_of_mem_replicate zero]
    rfl
  · exact Nat.isDigit_of_mem_toDigits (by decide) (by decide) digit

theorem utf8Len_of_isDigit {digits : List Char} (all : ∀ c ∈ digits, c.isDigit = true) :
    String.utf8Len digits = digits.length := by
  induction digits with
  | nil => rfl
  | cons c rest ih =>
    obtain ⟨first, others⟩ := List.forall_mem_cons.1 all
    have single : c.utf8Size = 1 := by
      simp only [Char.isDigit, Bool.and_eq_true, decide_eq_true_eq] at first
      exact Char.utf8Size_eq_one_iff.2 (UInt32.le_trans first.2 (by decide))
    rw [String.utf8Len_cons, ih others, single, List.length_cons]

namespace FrameDirectory

/-- What a frame directory is when it has just been made. -/
theorem of_create {files : FileSystem} {directory : Path} {format : ImageFormat}
    {sink : FrameDirectory} (created : create files directory format = .ok sink) :
    sink.directory = directory ∧ sink.format = format ∧ sink.written = 0 := by
  unfold create at created
  split at created
  · cases created
    exact ⟨rfl, rfl, rfl⟩
  · cases created

theorem toList_fileName (format : ImageFormat) (index : Nat) :
    (fileName format index).toList =
      "frame-".toList ++ decimalNumeral 5 index ++ ".".toList ++ format.extension.toList := by
  simp [fileName]

/-- Different numbers have different files. -/
theorem fileName_injective {format : ImageFormat} {index other : Nat}
    (same : fileName format index = fileName format other) : index = other := by
  have lists := congrArg String.toList same
  rw [toList_fileName, toList_fileName] at lists
  exact decimalNumeral_injective
    (List.append_cancel_left (List.append_cancel_right (List.append_cancel_right lists)))

theorem fileName_ne (format : ImageFormat) (index : Nat) {text : String}
    (start : text.toList.head? ≠ some 'f') : fileName format index ≠ text := by
  rintro rfl
  rw [toList_fileName] at start
  exact start rfl

theorem contains_fileName (format : ImageFormat) (index : Nat) :
    (fileName format index).contains '\x00' = false := by
  rw [String.contains_char_eq, decide_eq_false_iff_not, toList_fileName]
  intro member
  simp only [List.mem_append] at member
  obtain ((start | digit) | dot) | extension := member
  · revert start
    decide
  · exact absurd (isDigit_of_mem_decimalNumeral digit) (by decide)
  · revert dot
    decide
  · revert extension
    cases format <;> decide

/-- The file of a number can be created as far as its name and the text of its path are concerned. -/
def Fits (directory : Path) (format : ImageFormat) (index : Nat) : Prop :=
  (fileName format index).utf8ByteSize ≤ maxName ∧
    (directory.child (fileName format index)).size ≤ maxPath

theorem Fits.nameable {directory : Path} {format : ImageFormat} {index : Nat}
    (fits : Fits directory format index) : Nameable directory (fileName format index) where
  nonempty := fileName_ne format index (by decide)
  ordinary := ⟨fileName_ne format index (by decide), fileName_ne format index (by decide)⟩
  plain := contains_fileName format index
  short := fits.1
  fits := fits.2

/-- Nothing stands in the way of numbers of 64 bits if the path of the directory is short enough. -/
theorem fits_of_short {directory : Path} (format : ImageFormat) {index : Nat}
    (short : directory.size + 31 ≤ maxPath) (small : index < 2 ^ 64) :
    Fits directory format index := by
  have digits : (decimalNumeral 5 index).length ≤ 20 := by
    have short : (Nat.toDigits 10 index).length ≤ 20 :=
      (Nat.length_toDigits_le_iff (by decide) (by decide)).2 (Nat.lt_trans small (by decide))
    rw [decimalNumeral, padZeros, List.length_append, List.length_replicate]
    omega
  have name : (fileName format index).utf8ByteSize ≤ 30 := by
    have size : (String.ofList (decimalNumeral 5 index)).utf8ByteSize ≤ 20 := by
      rw [String.utf8ByteSize_ofList, utf8Len_of_isDigit fun c => isDigit_of_mem_decimalNumeral]
      exact digits
    have extension : format.extension.utf8ByteSize = 3 := by cases format <;> rfl
    have start : "frame-".utf8ByteSize = 6 := rfl
    have dot : ".".utf8ByteSize = 1 := rfl
    simp only [fileName, String.utf8ByteSize_append]
    omega
  obtain ⟨before, room, text_eq⟩ := directory.exists_text_child
  refine ⟨Nat.le_trans name (by decide), ?_⟩
  rw [Path.size, text_eq, String.utf8ByteSize_append]
  omega

/-- Where the file of a number is, in a directory at this place. -/
def fileAt (place : Place) (format : ImageFormat) (index : Nat) : Place :=
  place ++ [fileName format index]

theorem fileAt_injective {place : Place} {format : ImageFormat} {index other : Nat}
    (same : fileAt place format index = fileAt place format other) : index = other :=
  fileName_injective (List.singleton_inj.1 (List.append_cancel_left same))

/-- These frames were written in between, to the files of a directory from a number on, and nothing
else has changed. -/
structure Wrote (before after : FileSystem) (place : Place) (format : ImageFormat) (first : Nat)
    (frames : List Frame) : Prop where
  held : ∀ k (h : k < frames.length), after.lookup (fileAt place format (first + k)) =
    some (.file (frames[k].encode format).toUTF8)
  others : ∀ other, (∀ k < frames.length, other ≠ fileAt place format (first + k)) →
    after.lookup other = before.lookup other

theorem Wrote.cons {before mid after : FileSystem} {place : Place} {format : ImageFormat}
    {first : Nat} {frame : Frame} {rest : List Frame}
    (written : ∀ other, mid.lookup other =
      if fileAt place format first = other then some (.file (frame.encode format).toUTF8)
      else before.lookup other)
    (wrote : Wrote mid after place format (first + 1) rest) :
    Wrote before after place format first (frame :: rest) := by
  have later : ∀ k, first + (k + 1) = first + 1 + k := by omega
  constructor
  · intro k within
    cases k with
    | zero =>
      rw [wrote.others, written, Nat.add_zero, if_pos rfl]
      · rfl
      · intro k _ same
        have equal := fileAt_injective same
        omega
    | succ k =>
      rw [later]
      exact wrote.held k (Nat.lt_of_succ_lt_succ within)
  · intro other elsewhere
    rw [wrote.others, written, if_neg]
    · exact (elsewhere 0 (Nat.succ_pos _)).symm
    · intro k within
      rw [← later]
      exact elsewhere (k + 1) (Nat.succ_lt_succ within)

section

variable (sink : FrameDirectory) {place : Place} (opens : sink.files.OpensInto sink.directory place)
include opens

theorem present_of_blocked (fits : Fits sink.directory sink.format sink.written) (frame : Frame)
    (blocked : sink.files.lookup (fileAt place sink.format sink.written) = some .directory) :
    FrameSink.present frame sink = (.error FileFault.isADirectory.message, sink) := by
  have written := FileSystem.write_of_resolve (opens.resolve_child fits.nameable)
    (frame.encode sink.format).toUTF8
  rw [← fileAt, FileSystem.isDirectory_iff.2 blocked] at written
  simp only [FrameSink.present, pathOf, written, if_true]

theorem present_of_free (fits : Fits sink.directory sink.format sink.written) (frame : Frame)
    (free : sink.files.lookup (fileAt place sink.format sink.written) ≠ some .directory) :
    ∃ files, FrameSink.present frame sink =
        (.ok (), { sink with files, written := sink.written + 1 }) ∧
      files.OpensInto sink.directory place ∧
      ∀ other, files.lookup other =
        if fileAt place sink.format sink.written = other then
          some (.file (frame.encode sink.format).toUTF8)
        else sink.files.lookup other := by
  have above : sink.files.lookup (fileAt place sink.format sink.written).dropLast =
      some .directory := by
    rw [fileAt, List.dropLast_concat]
    exact opens.directory
  have written := FileSystem.write_of_resolve (opens.resolve_child fits.nameable)
    (frame.encode sink.format).toUTF8
  rw [← fileAt, if_neg (mt FileSystem.isDirectory_iff.1 free)] at written
  refine ⟨_, ?_, opens.mono (FileSystem.keepsDirectories_insert _ above free) rfl,
    FileSystem.lookup_insert _ above free⟩
  simp only [FrameSink.present, pathOf, written]

/-- Frames none of which has a directory in its way are all written. -/
theorem offer_of_free (frames : List Frame)
    (fits : ∀ k < frames.length, Fits sink.directory sink.format (sink.written + k))
    (free : ∀ k < frames.length,
      sink.files.lookup (fileAt place sink.format (sink.written + k)) ≠ some .directory) :
    ∃ files, FrameSink.offer sink frames =
        (.ok (), { sink with files, written := sink.written + frames.length }) ∧
      files.OpensInto sink.directory place ∧
      Wrote sink.files files place sink.format sink.written frames := by
  induction frames generalizing sink with
  | nil => exact ⟨sink.files, rfl, opens, nofun, fun _ _ => rfl⟩
  | cons frame rest ih =>
    have later : ∀ k, sink.written + (k + 1) = sink.written + 1 + k := by omega
    obtain ⟨mid, presented, opensMid, written⟩ :=
      present_of_free sink opens (fits 0 (Nat.succ_pos _)) frame (free 0 (Nat.succ_pos _))
    obtain ⟨files, offered, opensLast, wrote⟩ := ih
      { sink with files := mid, written := sink.written + 1 } opensMid
      (fun k within => later k ▸ fits (k + 1) (Nat.succ_lt_succ within))
      (fun k within => by
        dsimp only
        rw [written, ← later]
        split
        · nofun
        · exact free (k + 1) (Nat.succ_lt_succ within))
    refine ⟨files, ?_, opensLast, wrote.cons written⟩
    rw [FrameSink.offer, presented]
    dsimp only
    rw [offered, List.length_cons, Nat.add_assoc, Nat.add_comm 1]

/-- The first frame that has a directory in its way is refused, and those before it are written. -/
theorem offer_of_blocked (earlier : List Frame) (frame : Frame) (later : List Frame)
    (fits : ∀ k ≤ earlier.length, Fits sink.directory sink.format (sink.written + k))
    (free : ∀ k < earlier.length,
      sink.files.lookup (fileAt place sink.format (sink.written + k)) ≠ some .directory)
    (blocked : sink.files.lookup (fileAt place sink.format (sink.written + earlier.length)) =
      some .directory) :
    ∃ files, FrameSink.offer sink (earlier ++ frame :: later) =
        (.error FileFault.isADirectory.message,
          { sink with files, written := sink.written + earlier.length }) ∧
      Wrote sink.files files place sink.format sink.written earlier := by
  obtain ⟨files, offered, opensMid, wrote⟩ :=
    offer_of_free sink opens earlier (fun k within => fits k (Nat.le_of_lt within)) free
  have still : files.lookup (fileAt place sink.format (sink.written + earlier.length)) =
      some .directory := by
    rw [wrote.others, blocked]
    intro k within same
    have equal := fileAt_injective same
    omega
  have refused := present_of_blocked
    { sink with files, written := sink.written + earlier.length } opensMid
    (fits _ (Nat.le_refl _)) frame still
  refine ⟨files, ?_, wrote⟩
  rw [FrameSink.offer_append, offered]
  dsimp only
  rw [FrameSink.offer, refused]

end

end FrameDirectory

end DotMatrix
