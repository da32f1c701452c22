import Mathlib.Data.List.Induction
import DotMatrix.Files.FileSystem

/-!
# Where paths lead

The way that names lead from place to place, told apart from the walk that finds it. It depends only
on where there are directories, so that a path still leads where it led when directories are made.
-/
namespace DotMatrix

theorem Path.names_child (path : Path) {name : String} (named : name ≠ "") :
    (path.child name).names = path.names ++ [name] := by
  obtain ⟨parts⟩ := path
  cases parts using List.reverseRecOn with
  | nil => simp [child, Path.names, named]
  | append_singleton _ last => by_cases empty : last = "" <;> simp [child, Path.names, empty, named]

theorem Path.rooted_child (path : Path) (name : String) :
    (path.child name).rooted = path.rooted := by
  obtain ⟨parts⟩ := path
  rcases parts with _ | ⟨first, _ | ⟨second, rest⟩⟩
  · simp [child, rooted]
  · by_cases empty : first = "" <;> simp [child, rooted, empty]
  · by_cases empty : (second :: rest).getLast? = some "" <;> simp [child, rooted, empty]

/-- The name of an entry ends the text of its path. At most a slash is put before it. -/
theorem Path.exists_text_child (path : Path) :
    ∃ before, before.utf8ByteSize ≤ path.size + 1 ∧
      ∀ name, (path.child name).text = before ++ name := by
  obtain ⟨parts⟩ := path
  have concat : ∀ front : List String, front ≠ [] → ∀ name,
      (Path.mk (front ++ [name])).text = (Path.mk front).text ++ "/" ++ name := by
    intro front nonempty name
    simp [text, String.intercalate_append_of_ne_nil nonempty]
  by_cases empty : parts = [] ∨ parts = [""]
  · refine ⟨"", Nat.zero_le _, fun name => ?_⟩
    obtain rfl | rfl := empty <;> simp [child, text]
  by_cases slash : parts.getLast? = some ""
  · obtain ⟨front, rfl⟩ := List.getLast?_eq_some_iff.1 slash
    have nonempty : front ≠ [] := by
      rintro rfl
      exact empty (.inr rfl)
    refine ⟨(Path.mk front).text ++ "/", ?_, fun name => ?_⟩
    · simp [size, concat front nonempty, String.utf8ByteSize_append]
    · rw [child, if_pos slash, List.dropLast_concat, concat front nonempty]
  · refine ⟨(Path.mk parts).text ++ "/", ?_, fun name => ?_⟩
    · rw [String.utf8ByteSize_append]
      exact Nat.le_refl _
    · rw [child, if_neg slash, concat parts fun none => empty (.inl none)]

/-- Paths to different entries of a directory differ in their texts. -/
theorem Path.text_child_injective (path : Path) {name other : String}
    (same : (path.child name).text = (path.child other).text) : name = other := by
  obtain ⟨before, -, text_eq⟩ := path.exists_text_child
  rw [text_eq, text_eq] at same
  exact (String.append_right_inj before).1 same

namespace FileSystem

/-- The walk that follows names from a place. -/
def follow (fs : FileSystem) (place : Place) (names : List String) : Except FileFault Place :=
  walk fs.root place.reverse (fs.root.find? place) names

theorem follow_nil (fs : FileSystem) (place : Place) : fs.follow place [] = .ok place := by
  rw [follow, walk, List.reverse_reverse]

theorem follow_cons (fs : FileSystem) (place : Place) (name : String) (rest : List String) :
    fs.follow place (name :: rest) =
      match fs.lookup place with
      | none => .error .notFound
      | some (.file _) => .error .notADirectory
      | some .directory =>
        if name = "." then fs.follow place rest
        else if name = ".." then fs.follow place.dropLast rest
        else if maxName < name.utf8ByteSize then .error .nameTooLong
        else fs.follow (place ++ [name]) rest := by
  have step := walk_cons fs.root place.reverse name rest
  rw [List.tail_reverse, ← List.reverse_concat] at step
  simp only [List.reverse_reverse] at step
  exact step

/-- From this place these names lead to that one. -/
inductive Leads (fs : FileSystem) : Place → List String → Place → Prop
  | here (place : Place) : Leads fs place [] place
  | stay {place target : Place} {rest : List String}
      (directory : fs.lookup place = some .directory) (onwards : Leads fs place rest target) :
      Leads fs place ("." :: rest) target
  | up {place target : Place} {rest : List String}
      (directory : fs.lookup place = some .directory)
      (onwards : Leads fs place.dropLast rest target) : Leads fs place (".." :: rest) target
  | down {place target : Place} {name : String} {rest : List String}
      (directory : fs.lookup place = some .directory) (plain : name ≠ "." ∧ name ≠ "..")
      (short : name.utf8ByteSize ≤ maxName) (onwards : Leads fs (place ++ [name]) rest target) :
      Leads fs place (name :: rest) target

theorem Leads.follow_eq {fs : FileSystem} {place target : Place} {names : List String}
    (leads : fs.Leads place names target) : fs.follow place names = .ok target := by
  induction leads with
  | here => exact follow_nil fs _
  | stay directory _ ih => rw [follow_cons, directory, ← ih]; rfl
  | up directory _ ih => rw [follow_cons, directory, ← ih]; rfl
  | down directory plain short _ ih =>
    rw [follow_cons, directory, ← ih]
    simp only [if_neg plain.1, if_neg plain.2, if_neg (Nat.not_lt.2 short)]

theorem leads_of_follow {fs : FileSystem} {place target : Place} {names : List String}
    (followed : fs.follow place names = .ok target) : fs.Leads place names target := by
  induction names generalizing place with
  | nil =>
    rw [follow_nil] at followed
    cases followed
    exact .here _
  | cons name rest ih =>
    rw [follow_cons] at followed
    split at followed
    · cases followed
    · cases followed
    · next directory =>
      by_cases dot : name = "."
      · subst dot
        rw [if_pos rfl] at followed
        exact .stay directory (ih followed)
      rw [if_neg dot] at followed
      by_cases dots : name = ".."
      · subst dots
        rw [if_pos rfl] at followed
        exact .up directory (ih followed)
      rw [if_neg dots] at followed
      split at followed
      · cases followed
      · next short => exact .down directory ⟨dot, dots⟩ (Nat.not_lt.1 short) (ih followed)

theorem Leads.append {fs : FileSystem} {place middle target : Place} {first second : List String}
    (leads : fs.Leads place first middle) (onwards : fs.Leads middle second target) :
    fs.Leads place (first ++ second) target := by
  induction leads with
  | here => exact onwards
  | stay directory _ ih => exact .stay directory (ih onwards)
  | up directory _ ih => exact .up directory (ih onwards)
  | down directory plain short _ ih => exact .down directory plain short (ih onwards)

theorem Leads.split {fs : FileSystem} {place target : Place} {first second : List String}
    (leads : fs.Leads place (first ++ second) target) :
    ∃ middle, fs.Leads place first middle ∧ fs.Leads middle second target := by
  induction first generalizing place with
  | nil => exact ⟨place, .here place, leads⟩
  | cons name rest ih =>
    cases leads with
    | stay directory onwards =>
      obtain ⟨middle, before, after⟩ := ih onwards
      exact ⟨middle, .stay directory before, after⟩
    | up directory onwards =>
      obtain ⟨middle, before, after⟩ := ih onwards
      exact ⟨middle, .up directory before, after⟩
    | down directory plain short onwards =>
      obtain ⟨middle, before, after⟩ := ih onwards
      exact ⟨middle, .down directory plain short before, after⟩

/-- Where names lead, if they lead anywhere: this does not depend on what is there. -/
def target (place : Place) : List String → Place
  | [] => place
  | name :: rest =>
    if name = "." then target place rest
    else if name = ".." then target place.dropLast rest
    else target (place ++ [name]) rest

theorem Leads.eq_target {fs : FileSystem} {place reached : Place} {names : List String}
    (leads : fs.Leads place names reached) : reached = target place names := by
  induction leads with
  | here => rfl
  | stay _ _ ih => exact ih
  | up _ _ ih => exact ih
  | down _ plain _ _ ih => rw [target, if_neg plain.1, if_neg plain.2, ih]

/-- Whatever holds a directory has it afterwards, too. -/
def KeepsDirectories (before after : FileSystem) : Prop :=
  ∀ place, before.lookup place = some .directory → after.lookup place = some .directory

theorem Leads.mono {fs fs' : FileSystem} (keeps : KeepsDirectories fs fs') {place target : Place}
    {names : List String} (leads : fs.Leads place names target) : fs'.Leads place names target := by
  induction leads with
  | here => exact .here _
  | stay directory _ ih => exact .stay (keeps _ directory) ih
  | up directory _ ih => exact .up (keeps _ directory) ih
  | down directory plain short _ ih => exact .down (keeps _ directory) plain short ih

theorem keepsDirectories_insert {fs : FileSystem} {place : Place} (entry : Entry)
    (above : fs.lookup place.dropLast = some .directory)
    (free : fs.lookup place ≠ some .directory) : KeepsDirectories fs (fs.insert place entry) := by
  intro other directory
  rw [lookup_insert entry above free, if_neg, directory]
  rintro rfl
  exact free directory

/-- What is found somewhere is found in a directory. -/
theorem lookup_above {fs : FileSystem} {place : Place} {name : String} {entry : Entry}
    (found : fs.lookup (place ++ [name]) = some entry) : fs.lookup place = some .directory := by
  rw [lookup, Tree.lookup, Tree.find?_concat] at found
  rw [lookup, Tree.lookup]
  cases above : fs.root.find? place with
  | none =>
    rw [above] at found
    cases found
  | some tree =>
    rw [above] at found
    cases tree with
    | file content => cases found
    | directory children => rfl

theorem lookup_dropLast {fs : FileSystem} {place : Place}
    (directory : fs.lookup place = some .directory) :
    fs.lookup place.dropLast = some .directory := by
  cases place using List.reverseRecOn with
  | nil => exact directory
  | append_singleton above name =>
    rw [List.dropLast_concat]
    exact lookup_above directory

theorem isDirectory_iff {fs : FileSystem} {place : Place} :
    fs.isDirectory place = true ↔ fs.lookup place = some .directory := by
  unfold isDirectory
  rcases fs.lookup place with _ | _ | content <;> simp

/-- Names are looked up in directories only. -/
theorem Leads.directory {fs : FileSystem} {place target : Place} {names : List String}
    (leads : fs.Leads place names target) (nonempty : names ≠ []) :
    fs.lookup place = some .directory := by
  cases leads with
  | here => exact absurd rfl nonempty
  | stay directory _ | up directory _ | down directory _ _ _ => exact directory

/-- What names lead to would be found in a directory. -/
theorem Leads.above {fs : FileSystem} {place target : Place} {names : List String}
    (leads : fs.Leads place names target) (above : fs.lookup place.dropLast = some .directory) :
    fs.lookup target.dropLast = some .directory := by
  induction leads with
  | here => exact above
  | stay directory _ ih => exact ih above
  | up directory _ ih => exact ih (lookup_dropLast (lookup_dropLast directory))
  | down directory _ _ _ ih => exact ih (by rw [List.dropLast_concat, directory])

/-- Where a path starts. -/
def startOf (fs : FileSystem) (path : Path) : Place :=
  if path.rooted then [] else fs.workingDirectory

/-- A path leads to a place if its text is no obstacle. -/
theorem resolve_eq_ok_iff {fs : FileSystem} {path : Path} {place : Place} :
    fs.resolve path = .ok place ↔
      path.names.any (·.contains '\x00') = false ∧ path.isEmpty = false ∧ path.size ≤ maxPath ∧
        fs.Leads (fs.startOf path) path.names place := by
  have follows : fs.resolve path =
      if path.names.any (·.contains '\x00') then .error .zeroByte
      else if path.isEmpty then .error .notFound
      else if maxPath < path.size then .error .nameTooLong
      else fs.follow (fs.startOf path) path.names := rfl
  rw [follows]
  constructor
  · intro resolved
    split at resolved
    · cases resolved
    split at resolved
    · cases resolved
    split at resolved
    · cases resolved
    next plain nonempty short =>
      exact ⟨Bool.eq_false_iff.2 plain, Bool.eq_false_iff.2 nonempty, Nat.not_lt.1 short,
        leads_of_follow resolved⟩
  · rintro ⟨plain, nonempty, short, leads⟩
    rw [plain, nonempty, if_neg (Nat.not_lt.2 short), leads.follow_eq]
    rfl

/-- A path that leads into a directory, with nothing in its text that keeps paths behind it from being
followed. -/
structure OpensInto (fs : FileSystem) (path : Path) (place : Place) : Prop where
  plain : path.names.any (·.contains '\x00') = false
  leads : fs.Leads (fs.startOf path) path.names place
  directory : fs.lookup place = some .directory

/-- A name that a path can have behind it. -/
structure Nameable (path : Path) (name : String) : Prop where
  nonempty : name ≠ ""
  ordinary : name ≠ "." ∧ name ≠ ".."
  plain : name.contains '\x00' = false
  short : name.utf8ByteSize ≤ maxName
  fits : (path.child name).size ≤ maxPath

theorem OpensInto.resolve_child {fs : FileSystem} {path : Path} {place : Place}
    (opens : fs.OpensInto path place) {name : String} (nameable : Nameable path name) :
    fs.resolve (path.child name) = .ok (place ++ [name]) := by
  have names := path.names_child nameable.nonempty
  rw [resolve_eq_ok_iff, names]
  refine ⟨?_, ?_, nameable.fits, ?_⟩
  · rw [List.any_append, opens.plain, List.any_cons, nameable.plain]
    rfl
  · simp [Path.isEmpty, names]
  · rw [startOf, path.rooted_child]
    exact opens.leads.append (.down opens.directory nameable.ordinary nameable.short (.here _))

/-- Nothing else leads to an entry of a directory. -/
theorem opensInto_of_resolve_child {fs : FileSystem} {path : Path} {name : String} {place : Place}
    (nonempty : name ≠ "") (ordinary : name ≠ "." ∧ name ≠ "..")
    (resolved : fs.resolve (path.child name) = .ok place) :
    ∃ above, fs.OpensInto path above ∧ Nameable path name ∧ place = above ++ [name] := by
  obtain ⟨plain, -, fits, leads⟩ := resolve_eq_ok_iff.1 resolved
  rw [path.names_child nonempty, List.any_append, Bool.or_eq_false_iff] at plain
  rw [path.names_child nonempty, startOf, path.rooted_child] at leads
  obtain ⟨above, before, last⟩ := leads.split
  cases last with
  | stay => exact absurd rfl ordinary.1
  | up => exact absurd rfl ordinary.2
  | down directory _ short onwards =>
    cases onwards
    have plainName : name.contains '\x00' = false := by simpa using plain.2
    exact ⟨above, ⟨plain.1, before, directory⟩, ⟨nonempty, ordinary, plainName, short, fits⟩, rfl⟩

theorem read_of_resolve {fs : FileSystem} {path : Path} {place : Place} {content : ByteArray}
    (resolved : fs.resolve path = .ok place) (found : fs.lookup place = some (.file content))
    (slashless : path.slash = false) : fs.read path = .ok content := by
  simp [read, resolved, bind, Except.bind, found, slashless]

theorem write_of_resolve {fs : FileSystem} {path : Path} {place : Place}
    (resolved : fs.resolve path = .ok place) (content : ByteArray) :
    fs.write path content =
      if fs.isDirectory place then .error .isADirectory
      else .ok (fs.insert place (.file content)) := by
  rw [write, resolved]
  rfl

theorem resolve_of_write {fs fs' : FileSystem} {path : Path} {content : ByteArray}
    (written : fs.write path content = .ok fs') :
    ∃ place, fs.resolve path = .ok place ∧ fs.lookup place ≠ some .directory ∧
      fs'.workingDirectory = fs.workingDirectory := by
  cases resolved : fs.resolve path with
  | error fault =>
    rw [write, resolved] at written
    cases written
  | ok place =>
    rw [write_of_resolve resolved] at written
    by_cases directory : fs.isDirectory place
    · rw [if_pos directory] at written
      cases written
    · rw [if_neg directory] at written
      cases written
      exact ⟨place, rfl, mt isDirectory_iff.2 directory, rfl⟩

theorem OpensInto.mono {fs fs' : FileSystem} (keeps : KeepsDirectories fs fs')
    (home : fs'.workingDirectory = fs.workingDirectory) {path : Path} {place : Place}
    (opens : fs.OpensInto path place) : fs'.OpensInto path place where
  plain := opens.plain
  leads := by
    rw [startOf, home]
    exact opens.leads.mono keeps
  directory := keeps _ opens.directory

end FileSystem

end DotMatrix
