import Mathlib.Data.List.TakeWhile
import DotMatrix.Proofs.Files.Resolution

/-!
# Making directories

Making a directory with all that is missing above it changes nothing that was there: files and
directories stay, and what is new are empty directories on the way that the path names. If it
succeeds the path leads into a directory.
-/
namespace DotMatrix

/-- What a path names, and what is named above it. -/
inductive Path.Above : Path → Path → Prop
  | self (path : Path) : Above path path
  | parent {path above : Path} (below : ¬ path.isTop) (further : Above path.parent above) :
      Above path above

/-- Only dots are left of a path that has nothing above it. -/
theorem Path.eq_dot_of_isTop {path : Path} (top : path.isTop) : ∀ name ∈ path.names, name = "." := by
  unfold isTop dropDots at top
  dsimp only at top
  split at top
  · cases names : path.names with
    | nil => simp
    | cons first rest => simp [names] at top
  · next dots =>
    intro name member
    simp only [List.isEmpty_iff, List.reverse_eq_nil_iff, List.dropWhile_eq_nil_iff] at top
    simpa using top name (List.mem_reverse.2 member)

namespace FileSystem

/-- The place is on the way that a path leads. -/
def OnTheWay (fs : FileSystem) (path : Path) (place : Place) : Prop :=
  ∃ above, path.Above above ∧ fs.Leads (fs.startOf above) above.names place

/-- Nothing is different but for new directories, at places of this kind. -/
structure GrownBy (before after : FileSystem) (new : Place → Prop) : Prop where
  home : after.workingDirectory = before.workingDirectory
  lookup_eq : ∀ place, after.lookup place = before.lookup place ∨
    before.lookup place = none ∧ after.lookup place = some .directory ∧ new place

namespace GrownBy

variable {fs fs' fs'' : FileSystem} {new new' : Place → Prop}

theorem refl (fs : FileSystem) (new : Place → Prop) : GrownBy fs fs new := ⟨rfl, fun _ => .inl rfl⟩

theorem keepsDirectories (grown : GrownBy fs fs' new) : KeepsDirectories fs fs' := by
  intro place directory
  obtain same | ⟨absent, -, -⟩ := grown.lookup_eq place
  · rw [same, directory]
  · rw [directory] at absent
    cases absent

theorem mono (grown : GrownBy fs fs' new) (more : ∀ place, new place → new' place) :
    GrownBy fs fs' new' where
  home := grown.home
  lookup_eq place := (grown.lookup_eq place).imp_right fun ⟨absent, directory, isNew⟩ =>
    ⟨absent, directory, more place isNew⟩

theorem trans (first : GrownBy fs fs' new) (second : GrownBy fs' fs'' new) :
    GrownBy fs fs'' new where
  home := second.home.trans first.home
  lookup_eq place := by
    obtain same | ⟨absent, directory, isNew⟩ := first.lookup_eq place
    · rw [← same]
      exact second.lookup_eq place
    · exact .inr ⟨absent, second.keepsDirectories place directory, isNew⟩

theorem onTheWay (grown : GrownBy fs fs' new) {path : Path} {place : Place}
    (onTheWay : fs.OnTheWay path place) : fs'.OnTheWay path place := by
  obtain ⟨above, isAbove, leads⟩ := onTheWay
  refine ⟨above, isAbove, ?_⟩
  rw [startOf, grown.home]
  exact leads.mono grown.keepsDirectories

/-- What is made on the way stays on the way. -/
theorem andThen {path : Path} (first : GrownBy fs fs' (fs'.OnTheWay path))
    (second : GrownBy fs' fs'' (fs''.OnTheWay path)) : GrownBy fs fs'' (fs''.OnTheWay path) :=
  (first.mono fun _ => second.onTheWay).trans second

end GrownBy

theorem OnTheWay.of_parent {fs : FileSystem} {path : Path} {place : Place} (below : ¬ path.isTop)
    (onTheWay : fs.OnTheWay path.parent place) : fs.OnTheWay path place := by
  obtain ⟨above, isAbove, leads⟩ := onTheWay
  exact ⟨above, .parent below isAbove, leads⟩

/-- All that making one directory can do. -/
inductive Ensures (fs : FileSystem) (path : Path) : Except FileFault Unit × FileSystem → Prop
  | made {place : Place} (resolved : fs.resolve path = .ok place) (free : fs.lookup place = none) :
      Ensures fs path (.ok (), fs.insert place .directory)
  | present {place : Place} (resolved : fs.resolve path = .ok place)
      (directory : fs.lookup place = some .directory) : Ensures fs path (.ok (), fs)
  | refused (fault : FileFault) : Ensures fs path (.error fault, fs)

theorem ensureDirectory_of_present {fs : FileSystem} {path : Path} {place : Place}
    (resolved : fs.resolve path = .ok place) (directory : fs.lookup place = some .directory) :
    fs.ensureDirectory path = (.ok (), fs) := by
  simp [ensureDirectory, makeDirectory, resolved, bind, Except.bind, directory, leadsToDirectory,
    isDirectory]

theorem ensureDirectory_of_missing {fs : FileSystem} {path : Path} {place : Place}
    (resolved : fs.resolve path = .ok place) (missing : fs.lookup place = none) :
    fs.ensureDirectory path = (.ok (), fs.insert place .directory) := by
  simp [ensureDirectory, makeDirectory, resolved, bind, Except.bind, missing]

theorem ensureDirectory_ensures (fs : FileSystem) (path : Path) :
    fs.Ensures path (fs.ensureDirectory path) := by
  cases resolved : fs.resolve path with
  | error fault =>
    have refused : fs.ensureDirectory path = (.error fault, fs) := by
      simp [ensureDirectory, makeDirectory, resolved, bind, Except.bind, leadsToDirectory]
    exact refused ▸ .refused fault
  | ok place =>
    rcases found : fs.lookup place with _ | _ | content
    · rw [ensureDirectory_of_missing resolved found]
      exact .made resolved found
    · rw [ensureDirectory_of_present resolved found]
      exact .present resolved found
    · have refused : fs.ensureDirectory path = (.error .alreadyExists, fs) := by
        simp [ensureDirectory, makeDirectory, resolved, bind, Except.bind, found, leadsToDirectory,
          isDirectory]
      exact refused ▸ .refused .alreadyExists

/-- A directory that was missing is new, and the path leads into it. -/
theorem grown_insert {fs : FileSystem} {path : Path} {place : Place} (below : ¬ path.isTop)
    (resolved : fs.resolve path = .ok place) (free : fs.lookup place = none) :
    GrownBy fs (fs.insert place .directory) (· = place) ∧
      (fs.insert place .directory).OpensInto path place := by
  obtain ⟨plain, -, -, leads⟩ := resolve_eq_ok_iff.1 resolved
  have start := leads.directory (path.names_ne_nil_of_not_isTop below)
  have inserted : ∀ other, (fs.insert place .directory).lookup other = _ :=
    lookup_insert .directory (leads.above (lookup_dropLast start)) (by simp [free])
  have grown : GrownBy fs (fs.insert place .directory) (· = place) :=
    { home := rfl
      lookup_eq := fun other => by
        rw [inserted]
        by_cases here : place = other
        · subst here
          exact .inr ⟨free, if_pos rfl, rfl⟩
        · exact .inl (if_neg here) }
  refine ⟨grown, plain, leads.mono grown.keepsDirectories, ?_⟩
  rw [inserted, if_pos rfl]

theorem OpensInto.onTheWay {fs : FileSystem} {path : Path} {place : Place}
    (opens : fs.OpensInto path place) : fs.OnTheWay path place :=
  ⟨path, .self path, opens.leads⟩

theorem ensureDirectory_grown (fs : FileSystem) {path : Path} (below : ¬ path.isTop) :
    GrownBy fs (fs.ensureDirectory path).2 ((fs.ensureDirectory path).2.OnTheWay path) ∧
      ((fs.ensureDirectory path).1 = .ok () →
        ∃ place, (fs.ensureDirectory path).2.OpensInto path place) := by
  have ensures := fs.ensureDirectory_ensures path
  generalize fs.ensureDirectory path = ensured at ensures ⊢
  cases ensures with
  | made resolved free =>
    obtain ⟨grown, opens⟩ := grown_insert below resolved free
    refine ⟨grown.mono ?_, fun _ => ⟨_, opens⟩⟩
    rintro _ rfl
    exact opens.onTheWay
  | present resolved directory =>
    obtain ⟨plain, -, -, leads⟩ := resolve_eq_ok_iff.1 resolved
    exact ⟨.refl fs _, fun _ => ⟨_, plain, leads, directory⟩⟩
  | refused fault => exact ⟨.refl fs _, nofun⟩

theorem makeDirectories_of_missing {fs : FileSystem} {path : Path} {place : Place}
    (below : ¬ path.isTop) (resolved : fs.resolve path = .ok place)
    (missing : fs.lookup place = none) :
    fs.makeDirectories path = (.ok (), fs.insert place .directory) := by
  rw [makeDirectories, dif_neg below, ensureDirectory_of_missing resolved missing]

theorem opensInto_of_isTop {fs : FileSystem} {path : Path} (top : path.isTop)
    (start : fs.lookup (fs.startOf path) = some .directory) :
    fs.OpensInto path (fs.startOf path) := by
  have dots := path.eq_dot_of_isTop top
  refine ⟨?_, ?_, start⟩
  · rw [List.any_eq_false]
    intro name member
    simp [dots name member]
  · generalize path.names = names at dots
    induction names with
    | nil => exact .here _
    | cons name rest ih =>
      obtain ⟨rfl, others⟩ := List.forall_mem_cons.1 dots
      exact .stay start (ih others)

/-- Making directories adds directories on the way and changes nothing else. When that has succeeded
the path leads into a directory; where it names nothing, the one that it starts from. -/
theorem makeDirectories_grown (fs : FileSystem) (path : Path) :
    GrownBy fs (fs.makeDirectories path).2 ((fs.makeDirectories path).2.OnTheWay path) ∧
      ((fs.makeDirectories path).1 = .ok () →
        (path.isTop → fs.lookup (fs.startOf path) = some .directory) →
          ∃ place, (fs.makeDirectories path).2.OpensInto path place) := by
  induction fs, path using makeDirectories.induct with
  | case1 fs path top =>
    rw [makeDirectories, dif_pos top]
    exact ⟨.refl fs _, fun _ start => ⟨_, opensInto_of_isTop top (start top)⟩⟩
  | case2 fs path below fs₁ missing fs₂ parentMade ih =>
    obtain ⟨first, -⟩ := ensureDirectory_grown fs below
    obtain ⟨last, opens⟩ := ensureDirectory_grown fs₂ below
    obtain ⟨above, -⟩ := ih
    rw [missing] at first
    rw [parentMade] at above
    rw [makeDirectories, dif_neg below, missing]
    dsimp only
    rw [parentMade]
    exact ⟨(first.andThen (above.mono fun _ => .of_parent below)).andThen last, fun made _ => opens made⟩
  | case3 fs path below fs₁ missing refused ih =>
    obtain ⟨first, -⟩ := ensureDirectory_grown fs below
    obtain ⟨above, -⟩ := ih
    rw [missing] at first
    rw [makeDirectories, dif_neg below, missing]
    dsimp only
    rcases failed : fs₁.makeDirectories path.parent with ⟨fault | _, fs₂⟩
    · rw [failed] at above
      exact ⟨first.andThen (above.mono fun _ => .of_parent below), nofun⟩
    · exact absurd failed (refused fs₂)
  | case4 fs path below found =>
    obtain ⟨grown, opens⟩ := ensureDirectory_grown fs below
    rw [makeDirectories, dif_neg below]
    split
    next fs₁ missing => exact absurd missing (found fs₁)
    next => exact ⟨grown, fun made _ => opens made⟩

end FileSystem

end DotMatrix
