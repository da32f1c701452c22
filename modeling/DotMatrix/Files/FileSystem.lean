import DotMatrix.Fault
import DotMatrix.Files.Path
import DotMatrix.Files.Tree

/-! A file system as a value: a tree, and the directory from which paths start that do not start at the
root. Main statements: what is put at a place or removed there changes nothing elsewhere. -/
namespace DotMatrix

structure FileSystem where
  root : Tree := .empty
  workingDirectory : Place := []

namespace FileSystem

/-- Nothing but the working directory, and what leads to it. -/
def startingIn (workingDirectory : Place) : FileSystem where
  root := Tree.empty.put .empty workingDirectory
  workingDirectory

def lookup (fs : FileSystem) (place : Place) : Option Entry := fs.root.lookup place

def isDirectory (fs : FileSystem) (place : Place) : Bool :=
  match fs.lookup place with
  | some .directory => true
  | _ => false

def insert (fs : FileSystem) (place : Place) (entry : Entry) : FileSystem :=
  { fs with root := (Tree.ofEntry entry).put fs.root place }

/-- Takes away what is at a place and below it. -/
def remove (fs : FileSystem) (place : Place) : FileSystem :=
  { fs with root := fs.root.remove place }

/-- What is put at a place is found there, and nothing else changes. -/
theorem lookup_insert {fs : FileSystem} {place : Place} (entry : Entry)
    (above : fs.lookup place.dropLast = some .directory)
    (free : fs.lookup place ≠ some .directory) (other : Place) :
    (fs.insert place entry).lookup other =
      if place = other then some entry else fs.lookup other :=
  Tree.lookup_put entry above free other

/-- What is removed is gone with all that is below it, and nothing else changes. -/
theorem lookup_remove (fs : FileSystem) {place : Place} (h : place ≠ []) (other : Place) :
    (fs.remove place).lookup other = if place <+: other then none else fs.lookup other :=
  Tree.lookup_remove fs.root h other

/-- The longest name that a directory can hold, in bytes. -/
def maxName : Nat := 255

/-- The longest path that is followed, in bytes of its text. -/
def maxPath : Nat := 4095

/-- Follows names from what is at a place, the names of which are given from the last to the first. All
names but the last have to name directories. -/
def walk (root : Tree) (trail : List String) (here : Option Tree) :
    List String → Except FileFault Place
  | [] => .ok trail.reverse
  | name :: rest =>
    match here with
    | none => .error .notFound
    | some (.file _) => .error .notADirectory
    | some (.directory children) =>
      if name = "." then walk root trail here rest
      else if name = ".." then walk root trail.tail (root.find? trail.tail.reverse) rest
      else if maxName < name.utf8ByteSize then .error .nameTooLong
      else walk root (name :: trail) (children.lookup name) rest

/-- The way leads from place to place, as they are seen from the root. -/
theorem walk_cons (root : Tree) (trail : List String) (name : String) (rest : List String) :
    walk root trail (root.find? trail.reverse) (name :: rest) =
      match root.lookup trail.reverse with
      | none => .error .notFound
      | some (.file _) => .error .notADirectory
      | some .directory =>
        if name = "." then walk root trail (root.find? trail.reverse) rest
        else if name = ".." then walk root trail.tail (root.find? trail.tail.reverse) rest
        else if maxName < name.utf8ByteSize then .error .nameTooLong
        else walk root (name :: trail) (root.find? (name :: trail).reverse) rest := by
  rw [Tree.lookup, List.reverse_cons, Tree.find?_concat]
  cases root.find? trail.reverse with
  | none => rfl
  | some tree => cases tree <;> rfl

/-- The place that a path leads to, where something need not exist yet. What is wrong with the text of
the path is told before anything is looked up. -/
def resolve (fs : FileSystem) (path : Path) : Except FileFault Place :=
  if path.names.any (·.contains '\x00') then .error .zeroByte
  else if path.isEmpty then .error .notFound
  else if maxPath < path.size then .error .nameTooLong
  else
    let start := if path.rooted then [] else fs.workingDirectory
    walk fs.root start.reverse (fs.root.find? start) path.names

def read (fs : FileSystem) (path : Path) : Except FileFault ByteArray := do
  let place ← fs.resolve path
  match fs.lookup place with
  | none => .error .notFound
  | some .directory => .error .isADirectory
  | some (.file content) => if path.slash then .error .notADirectory else .ok content

/-- Creates a file, or replaces what it held. -/
def write (fs : FileSystem) (path : Path) (content : ByteArray) : Except FileFault FileSystem := do
  let place ← fs.resolve path
  if fs.isDirectory place then .error .isADirectory
  else .ok (fs.insert place (.file content))

def makeDirectory (fs : FileSystem) (path : Path) : Except FileFault FileSystem := do
  let place ← fs.resolve path
  match fs.lookup place with
  | some _ => .error .alreadyExists
  | none => .ok (fs.insert place .directory)

def leadsToDirectory (fs : FileSystem) (path : Path) : Bool :=
  match fs.resolve path with
  | .ok place => fs.isDirectory place
  | .error _ => false

/-- Makes a directory where there is none already. -/
def ensureDirectory (fs : FileSystem) (path : Path) : Except FileFault Unit × FileSystem :=
  match fs.makeDirectory path with
  | .ok fs => (.ok (), fs)
  | .error fault =>
    if fault = .alreadyExists ∧ fs.leadsToDirectory path then (.ok (), fs) else (.error fault, fs)

/-- Makes a directory, and those above it that are missing; these stay if it cannot be made. The top is
always there, so that no path to it is looked up. -/
def makeDirectories (fs : FileSystem) (path : Path) : Except FileFault Unit × FileSystem :=
  if _h : path.isTop then (.ok (), fs)
  else
    match fs.ensureDirectory path with
    | (.error .notFound, fs) =>
      match fs.makeDirectories path.parent with
      | (.ok (), fs) => fs.ensureDirectory path
      | refused => refused
    | answer => answer
termination_by path.names.length
decreasing_by exact path.length_parent_lt _h

/-- Reads an image that is to be loaded. -/
def readImage (fs : FileSystem) (image : Image) (path : Path) : Except Fault (List UInt8) :=
  match fs.read path with
  | .ok content => .ok content.toList
  | .error fault => .error (.load image (.file fault))

end FileSystem

end DotMatrix
