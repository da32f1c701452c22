/-! Trees of files and directories. What stands at a place is seen as an entry, without what is below
it. Main statement: putting an entry into a directory changes what is seen at its place only. -/
namespace DotMatrix

/-- The names that lead to something from the root on. -/
abbrev Place := List String

inductive Entry where
  | directory
  | file (content : ByteArray)

inductive Tree where
  | file (content : ByteArray)
  | directory (children : List (String × Tree))

namespace Tree

def empty : Tree := .directory []

def entry : Tree → Entry
  | .file content => .file content
  | .directory _ => .directory

def ofEntry : Entry → Tree
  | .file content => .file content
  | .directory => empty

def child? : Tree → String → Option Tree
  | .file _, _ => none
  | .directory children, name => children.lookup name

/-- Puts a child into a directory, in the place of one of that name. A file stays as it is. -/
def setChild : Tree → String → Tree → Tree
  | .file content, _, _ => .file content
  | .directory children, name, child =>
    .directory ((name, child) :: children.filter (·.1 ≠ name))

def removeChild : Tree → String → Tree
  | .file content, _ => .file content
  | .directory children, name => .directory (children.filter (·.1 ≠ name))

def find? (tree : Tree) : Place → Option Tree
  | [] => some tree
  | name :: rest =>
    match tree.child? name with
    | some child => child.find? rest
    | none => none

def lookup (tree : Tree) (place : Place) : Option Entry := (tree.find? place).map entry

/-- Puts a tree at a place. Directories that are missing on the way are made. -/
def put (new : Tree) : Tree → Place → Tree
  | _, [] => new
  | tree, name :: rest => tree.setChild name (put new ((tree.child? name).getD empty) rest)

/-- Takes away what is at a place and below it. The root stays. -/
def remove : Tree → Place → Tree
  | tree, [] => tree
  | tree, [name] => tree.removeChild name
  | tree, name :: rest =>
    match tree.child? name with
    | some child => tree.setChild name (child.remove rest)
    | none => tree

theorem lookup_filter_ne {α : Type} {name other : String} (children : List (String × α))
    (h : name ≠ other) :
    (children.filter (·.1 ≠ name)).lookup other = children.lookup other := by
  induction children with
  | nil => rfl
  | cons first rest ih =>
    obtain ⟨key, value⟩ := first
    by_cases here : key = name
    · subst here
      have differs : (other == key) = false := by simp [Ne.symm h]
      simpa [List.lookup_cons, differs] using ih
    · simp only [List.filter_cons, here, ne_eq, not_false_eq_true, decide_true, if_true,
        List.lookup_cons] at ih ⊢
      rw [ih]

theorem lookup_filter_self {α : Type} (name : String) (children : List (String × α)) :
    (children.filter (·.1 ≠ name)).lookup name = none := by
  induction children with
  | nil => rfl
  | cons first rest ih =>
    obtain ⟨key, value⟩ := first
    by_cases here : key = name
    · simpa [here] using ih
    · have differs : (name == key) = false := by simp [Ne.symm here]
      simpa [here, List.lookup_cons, differs] using ih

theorem child?_removeChild (tree : Tree) (name other : String) :
    (tree.removeChild name).child? other = if name = other then none else tree.child? other := by
  cases tree with
  | file content => simp [removeChild, child?]
  | directory children =>
    by_cases same : name = other
    · subst same
      rw [if_pos rfl]
      exact lookup_filter_self name children
    · rw [if_neg same]
      exact lookup_filter_ne children same

theorem child?_setChild_directory (children : List (String × Tree)) (name other : String)
    (child : Tree) :
    ((directory children).setChild name child).child? other =
      if name = other then some child else (directory children).child? other := by
  by_cases same : name = other
  · subst same
    simp [setChild, child?]
  · have differs : (other == name) = false := by simp [Ne.symm same]
    simp only [setChild, child?, List.lookup_cons, differs, lookup_filter_ne _ same, same, if_false]

@[simp] theorem lookup_root (tree : Tree) : tree.lookup [] = some tree.entry := rfl

theorem lookup_cons (tree : Tree) (name : String) (rest : Place) :
    tree.lookup (name :: rest) = (tree.child? name).bind (·.lookup rest) := by
  rw [lookup, find?]
  cases tree.child? name <;> rfl

theorem find?_concat (tree : Tree) (place : Place) (name : String) :
    tree.find? (place ++ [name]) = (tree.find? place).bind (·.child? name) := by
  induction place generalizing tree with
  | nil =>
    rw [List.nil_append, find?, find?, Option.bind_some]
    cases tree.child? name <;> rfl
  | cons first rest ih =>
    rw [List.cons_append, find?, find?]
    cases tree.child? first with
    | none => rfl
    | some child => exact ih child

theorem lookup_ofEntry (entry : Entry) (place : Place) :
    (ofEntry entry).lookup place = if place = [] then some entry else none := by
  cases place <;> cases entry <;> simp [lookup_cons, ofEntry, Tree.entry, child?, empty]

/-- Nothing is seen below what is no directory. -/
theorem lookup_below {tree : Tree} (h : tree.entry ≠ .directory) {place : Place}
    (below : place ≠ []) : tree.lookup place = none := by
  cases tree with
  | file content =>
    cases place with
    | nil => exact absurd rfl below
    | cons name rest => rw [lookup_cons]; rfl
  | directory children => exact absurd rfl h

/-- Where a directory holds no directory of that name, an entry can be put in. -/
theorem lookup_put (entry : Entry) {tree : Tree} {place : Place}
    (above : tree.lookup place.dropLast = some .directory)
    (free : tree.lookup place ≠ some .directory) (other : Place) :
    (put (ofEntry entry) tree place).lookup other =
      if place = other then some entry else tree.lookup other := by
  induction place generalizing tree other with
  | nil => exact absurd above free
  | cons name rest ih =>
    cases tree with
    | file content =>
      cases rest with
      | nil => simp [Tree.entry] at above
      | cons next rest => simp [lookup_cons, child?] at above
    | directory children =>
      cases other with
      | nil => simp [put, setChild, Tree.entry]
      | cons first others =>
        rw [put, lookup_cons, lookup_cons, child?_setChild_directory]
        by_cases same : name = first
        · subst same
          rw [lookup_cons] at free
          rw [if_pos rfl, Option.bind_some]
          cases rest with
          | nil =>
            rw [put, lookup_ofEntry]
            by_cases last : others = []
            · simp [last]
            · have other : ¬ [name] = name :: others := by simp [Ne.symm last]
              rw [if_neg last, if_neg other]
              cases held : (directory children).child? name with
              | none => rfl
              | some child =>
                have file : child.entry ≠ .directory := by
                  intro h
                  simp [held, h] at free
                exact (lookup_below file last).symm
          | cons next rest =>
            rw [List.dropLast_cons_cons, lookup_cons] at above
            cases held : (directory children).child? name with
            | none => simp [held] at above
            | some child =>
              simp only [held, Option.bind_some] at above free
              simp only [Option.getD_some, Option.bind_some, List.cons.injEq, true_and]
              exact ih above free others
        · have other : ¬ name :: rest = first :: others := by simp [same]
          rw [if_neg same, if_neg other]

theorem lookup_remove (tree : Tree) {place : Place} (h : place ≠ []) (other : Place) :
    (tree.remove place).lookup other = if place <+: other then none else tree.lookup other := by
  induction place generalizing tree other with
  | nil => exact absurd rfl h
  | cons name rest ih =>
    cases rest with
    | nil =>
      rw [remove]
      cases other with
      | nil => cases tree <;> simp [removeChild, Tree.entry]
      | cons first others =>
        rw [lookup_cons, lookup_cons, child?_removeChild]
        by_cases same : name = first <;> simp [same]
    | cons next rest =>
      rw [remove]
      · cases held : tree.child? name with
        | none =>
          by_cases inside : name :: next :: rest <+: other
          · obtain ⟨below, rfl⟩ := inside
            simp [lookup_cons, held]
          · simp [inside]
        | some child =>
          cases tree with
          | file content => simp [child?] at held
          | directory children =>
            cases other with
            | nil => simp [setChild, Tree.entry]
            | cons first others =>
              rw [lookup_cons, lookup_cons, child?_setChild_directory]
              by_cases same : name = first
              · subst same
                simp [held, ih child (by simp) others, List.cons_prefix_cons]
              · simp [same]
      · simp

end Tree

end DotMatrix
