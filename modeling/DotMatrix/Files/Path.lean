/-! Paths, from the root or from the working directory, as the parts of their text between slashes.
Main statements: a path gives back the text it was read from, and the directory that holds what a path
names is written with fewer names. -/
namespace DotMatrix

structure Path where
  /-- A part is empty at an end that is a slash, and where slashes meet. -/
  parts : List String
deriving DecidableEq, Repr

namespace Path

/-- Cuts a text at its slashes. -/
def splitSlashes : List Char → List (List Char)
  | [] => [[]]
  | c :: rest =>
    if c = '/' then [] :: splitSlashes rest
    else
      match splitSlashes rest with
      | [] => [[c]]
      | name :: names => (c :: name) :: names

def ofText (text : String) : Path := ⟨(splitSlashes text.toList).map String.ofList⟩

def text (path : Path) : String := String.intercalate "/" path.parts

/-- The bytes of the text, slashes that change nothing included. -/
def size (path : Path) : Nat := path.text.utf8ByteSize

/-- Starts at the root. -/
def rooted (path : Path) : Bool := 2 ≤ path.parts.length && path.parts.head? == some ""

/-- What the path leads through; `.` and `..` are names like any other. -/
def names (path : Path) : List String := path.parts.filter (· ≠ "")

/-- Ends in a slash, so that only a directory can be meant. -/
def slash (path : Path) : Bool := 2 ≤ path.parts.length && path.parts.getLast? == some ""

/-- The path names nothing: it is the empty text. -/
def isEmpty (path : Path) : Bool := !path.rooted && path.names.isEmpty

/-- The shortest path with these names. -/
def ofNames (rooted : Bool) : List String → Path
  | [] => if rooted then ⟨["", ""]⟩ else ⟨[""]⟩
  | names => if rooted then ⟨"" :: names⟩ else ⟨names⟩

/-- The entry `name` of the directory at a path. No slash is added behind one, or to the empty text. -/
def child (path : Path) (name : String) : Path :=
  if path.parts.getLast? = some "" then ⟨path.parts.dropLast ++ [name]⟩ else ⟨path.parts ++ [name]⟩

/-- Drops `.` from the end, but not where it is all that a path from the working directory holds. -/
def dropDots (rooted : Bool) (names : List String) : List String :=
  let kept := (names.reverse.dropWhile (· = ".")).reverse
  if kept.isEmpty && !rooted then names.take 1 else kept

/-- Nothing stands above it: the path is empty, or only dots follow the root. -/
def isTop (path : Path) : Bool := (dropDots path.rooted path.names).isEmpty

/-- The names that lead to the directory that holds what these names lead to. -/
def namesAbove (rooted : Bool) (names : List String) : List String :=
  let above := (dropDots rooted names).dropLast
  if above.isEmpty then [] else dropDots rooted above

/-- The path of the directory that holds what a path names. -/
def parent (path : Path) : Path := ofNames path.rooted (namesAbove path.rooted path.names)

theorem splitSlashes_ne_nil (text : List Char) : splitSlashes text ≠ [] := by
  cases text with
  | nil => simp [splitSlashes]
  | cons c rest =>
    rw [splitSlashes]
    split
    · simp
    · split <;> simp

/-- Cutting at the slashes loses nothing else. -/
theorem intercalate_splitSlashes (text : List Char) :
    ['/'].intercalate (splitSlashes text) = text := by
  induction text with
  | nil => rfl
  | cons c rest ih =>
    rw [splitSlashes]
    cases parts : splitSlashes rest with
    | nil => exact absurd parts (splitSlashes_ne_nil rest)
    | cons name names =>
      rw [parts] at ih
      by_cases here : c = '/'
      · subst here
        simp [ih]
      · cases names <;> simp_all

@[simp] theorem text_ofText (text : String) : (ofText text).text = text := by
  apply String.toList_inj.1
  simp [Path.text, ofText, Function.comp_def, intercalate_splitSlashes]

theorem length_names_ofNames_le (rooted : Bool) (names : List String) :
    (ofNames rooted names).names.length ≤ names.length := by
  cases names with
  | nil => cases rooted <;> simp [ofNames, Path.names]
  | cons first rest =>
    have kept := List.length_filter_le (fun name : String => decide (name ≠ "")) (first :: rest)
    cases rooted <;> simpa [ofNames, Path.names] using kept

theorem length_dropDots_le (rooted : Bool) (names : List String) :
    (dropDots rooted names).length ≤ names.length := by
  have kept : ((names.reverse.dropWhile (· = ".")).reverse).length ≤ names.length := by
    simpa using (List.dropWhile_sublist (l := names.reverse) (· = ".")).length_le
  simp only [dropDots]
  split
  · rw [List.length_take]
    exact Nat.min_le_right _ _
  · exact kept

theorem length_namesAbove_lt (rooted : Bool) {names : List String} (h : names ≠ []) :
    (namesAbove rooted names).length < names.length := by
  have nonempty := List.length_pos_iff.2 h
  have dropped := length_dropDots_le rooted names
  simp only [namesAbove]
  split
  · exact nonempty
  · have above := length_dropDots_le rooted (dropDots rooted names).dropLast
    simp only [List.length_dropLast] at above
    omega

theorem names_ne_nil_of_not_isTop {path : Path} (h : ¬ path.isTop) : path.names ≠ [] := by
  intro none
  simp [isTop, dropDots, none] at h

theorem length_parent_lt (path : Path) (h : ¬ path.isTop) :
    path.parent.names.length < path.names.length :=
  Nat.lt_of_le_of_lt (length_names_ofNames_le _ _)
    (length_namesAbove_lt _ (names_ne_nil_of_not_isTop h))

end Path

end DotMatrix
