import Trendline.Files.Basic
import Trendline.Path

/-!
Files and directories under one working directory, as a value.
-/
namespace Trendline

/-- A place in the tree by the names that lead there, innermost first, or somewhere above it. -/
inductive Place where
  | inside (names : List String)
  | outside
  deriving Repr, DecidableEq

structure FileTree where
  directories : List (List String)
  files : List (List String × ByteArray)

namespace FileTree

def empty : FileTree :=
  ⟨[], []⟩

def isDirectory (t : FileTree) : Place → Bool
  | .outside => true
  | .inside names => names.isEmpty || t.directories.contains names

def exists? (t : FileTree) : Place → Bool
  | .outside => true
  | .inside names =>
      names.isEmpty || t.directories.contains names || (t.files.lookup names).isSome

/-- The size in bytes up to which a name may grow. -/
def nameLimit : Nat := 255

/-- The size in bytes up to which a path may grow. -/
def pathLimit : Nat := 4095

/-- The place that a name leads to, whether or not there is anything. -/
def step (t : FileTree) (p : Place) (name : String) : Except FileError Place :=
  if !t.isDirectory p then
    .error .notDirectory
  else if name = "" || name = "." then
    .ok p
  else if nameLimit < name.utf8ByteSize then
    .error .nameTooLong
  else
    match p with
    | .outside => if name = ".." then .ok .outside else .error .notFound
    | .inside names =>
        if name = ".." then
          match names with
          | [] => .ok .outside
          | _ :: above => .ok (.inside above)
        else
          .ok (.inside (name :: names))

/-- The place that a name leads to, if there is something. -/
def enter (t : FileTree) (p : Place) (name : String) : Except FileError Place := do
  let q ← t.step p name
  if t.exists? q then return q else throw .notFound

def start (path : String) : Place :=
  if path.startsWith "/" then .outside else .inside []

/-- Refuses what is no path, wherever it would lead. -/
def checkPath (path : String) : Except FileError Unit :=
  if path.toList.contains '\x00' then .error .nulInPath
  else if path.isEmpty then .error .notFound
  else if pathLimit < path.utf8ByteSize then .error .nameTooLong
  else .ok ()

/-- Follows a path from name to name. -/
def resolve (t : FileTree) (path : String) : Except FileError Place := do
  checkPath path
  (path.splitOn "/").foldlM t.enter (start path)

/-- Whether a path leads to a directory. -/
def leadsToDirectory (t : FileTree) (path : String) : Bool :=
  match t.resolve path with
  | .ok p => t.isDirectory p
  | .error _ => false

def read (t : FileTree) (path : String) : Except FileError ByteArray := do
  let p ← t.resolve path
  if t.isDirectory p then throw .isDirectory
  match p with
  | .outside => throw .notFound
  | .inside names =>
      match t.files.lookup names with
      | some bytes => return bytes
      | none => throw .notFound

/-- The tree with one file put in or replaced. -/
def put (t : FileTree) (names : List String) (bytes : ByteArray) : FileTree :=
  { t with files := (names, bytes) :: t.files.filter (·.1 ≠ names) }

/-- The directory in which the last name of a path stands, which must exist, that name, and whether
slashes follow it. -/
def lastName (t : FileTree) (path : String) : Except FileError (Place × String × Bool) := do
  checkPath path
  let reversed := (path.splitOn "/").reverse
  match reversed.dropWhile String.isEmpty with
  | [] => return (start path, "", true)
  | name :: above =>
      let holder ← above.reverse.foldlM t.enter (start path)
      if !t.isDirectory holder then throw .notDirectory
      return (holder, name, reversed.head? = some "")

def write (t : FileTree) (path : String) (bytes : ByteArray) : Except FileError FileTree := do
  let (holder, name, slashed) ← t.lastName path
  if slashed then throw .isDirectory
  let p ← t.step holder name
  if t.isDirectory p then throw .isDirectory
  match p with
  | .outside => throw .notFound
  | .inside names => return t.put names bytes

/-- Makes a directory in one that exists. -/
def makeDirectory (t : FileTree) (path : String) : Except FileError FileTree := do
  let (holder, name, _) ← t.lastName path
  let p ← t.step holder name
  if t.exists? p then throw .alreadyExists
  match p with
  | .outside => throw .notFound
  | .inside names => return { t with directories := names :: t.directories }

/-- Makes a directory in one that exists, unless it is there. -/
def ensureDirectory (t : FileTree) (path : String) : Except FileError FileTree :=
  match t.makeDirectory path with
  | .error .alreadyExists =>
      if t.leadsToDirectory path then .ok t else .error .alreadyExists
  | made => made

/-- Makes the first of some directories, each of which holds the one before, after those that it
takes. -/
def ensureInner (t : FileTree) : List String → Except FileError FileTree
  | [] => .ok t
  | path :: above =>
      match t.ensureDirectory path with
      | .error .notFound => do
          let t ← t.ensureInner above
          t.ensureDirectory path
      | made => made

def makeDirectories (t : FileTree) (path : String) : Except FileError FileTree :=
  t.ensureInner (Path.ancestors path)

/-- The tree as a place where files are kept. -/
def system : FileSystem (StateM FileTree) where
  read path := do
    return (← get).read path
  write path text := do
    match (← get).write path text.toUTF8 with
    | .ok t =>
        set t
        return .ok ()
    | .error e => return .error e
  makeDirectories path := do
    match (← get).makeDirectories path with
    | .ok t =>
        set t
        return .ok ()
    | .error e => return .error e

end FileTree

end Trendline
