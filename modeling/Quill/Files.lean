/-!
# Files

Paths, what can go wrong with a file, and a tree of files in memory.  Programs that read and
write files do so through a disk, so that they run on a tree as well as on a real one.
-/

namespace Quill

inductive FileError where
  | notFound
  | notADirectory
  | isADirectory
  | nameTooLong
  | nulInName
  | other (message : String)
  deriving DecidableEq, Repr

/-- The system's message. -/
def FileError.message : FileError → String
  | .notFound => "No such file or directory (os error 2)"
  | .notADirectory => "Not a directory (os error 20)"
  | .isADirectory => "Is a directory (os error 21)"
  | .nameTooLong => "File name too long (os error 36)"
  | .nulInName => "file name contained an unexpected NUL byte"
  | .other message => message

/-- The contents of files by path. -/
abbrev FileReader := String → Except FileError ByteArray

structure Disk (m : Type → Type) where
  read : String → m (Except FileError ByteArray)
  write : String → ByteArray → m (Except FileError Unit)

namespace FileName

/-- Cut a path at its slashes. -/
def components (path : String) : List String :=
  path.splitOn "/"

/-- A path seen from a base directory; an absolute path stands for itself. -/
def join (base path : String) : String :=
  if path.startsWith "/" || base.isEmpty then path
  else if base.endsWith "/" then base ++ path
  else base ++ "/" ++ path

/-- Whether a component of a path leads nowhere. -/
def isIdle (component : String) : Bool :=
  component.isEmpty || component == "."

/-- The directory of a path.  Idle components at the end belong neither to the last name nor
to the directory, and a leading point stays. -/
def parent (path : String) : String :=
  let parts := (components path).reverse.dropWhile isIdle
  let outer := (parts.drop 1).reverse
  let kept := ((outer.drop 1).reverse.dropWhile isIdle).reverse
  match outer with
  | [] => ""
  | [""] => "/"
  | first :: _ => if first.isEmpty && kept.isEmpty then "/" else "/".intercalate (first :: kept)

end FileName

/-- The longest path, in bytes. -/
def pathLimit : Nat := 4095

/-- The longest name in a path, in bytes. -/
def nameLimit : Nat := 255

/-- Files in memory, by the names on the way to them from the root.  The directories that lead
to a file or to the working directory are there without being made, as are those of the
system. -/
structure FileTree where
  workingDirectory : List String := ["tmp", "work"]
  files : List (List String × ByteArray) := []

namespace FileTree

/-- The place of the file that is always empty and takes everything. -/
def sink : List String := ["dev", "null"]

/-- The directories of the system, all in the root. -/
def systemDirectories : List String :=
  ["bin", "dev", "etc", "home", "lib", "proc", "root", "sys", "tmp", "usr", "var"]

def file? (tree : FileTree) (place : List String) : Option ByteArray :=
  if place = sink then some .empty else tree.files.lookup place

def isDirectory (tree : FileTree) (place : List String) : Bool :=
  place.isPrefixOf tree.workingDirectory || systemDirectories.any (place == [·]) ||
    tree.files.any fun (other, _) => place.isPrefixOf other && place.length < other.length

/-- Follow the components of a path from a place on.  The last one need not exist. -/
def follow (tree : FileTree) (place : List String) : List String → Except FileError (List String)
  | [] => .ok place
  | component :: rest =>
    if (tree.file? place).isSome then .error .notADirectory
    else if !tree.isDirectory place then .error .notFound
    else if component.utf8ByteSize > nameLimit then .error .nameTooLong
    else if FileName.isIdle component then tree.follow place rest
    else if component = ".." then tree.follow place.dropLast rest
    else tree.follow (place ++ [component]) rest

/-- Where a path starts and which components it has, unless it can be no path at all. -/
def split (tree : FileTree) (path : String) : Except FileError (List String × List String) :=
  if path.toList.contains '\x00' then .error .nulInName
  else if path.utf8ByteSize > pathLimit then .error .nameTooLong
  else if path.isEmpty then .error .notFound
  else
    .ok (if path.startsWith "/" then [] else tree.workingDirectory, FileName.components path)

def read (tree : FileTree) : FileReader := fun path => do
  let (start, components) ← tree.split path
  let place ← tree.follow start components
  match tree.file? place with
  | some bytes => .ok bytes
  | none => if tree.isDirectory place then .error .isADirectory else .error .notFound

def put (tree : FileTree) (place : List String) (bytes : ByteArray) : FileTree :=
  if place = sink then tree
  else { tree with files := (place, bytes) :: tree.files.filter (·.1 != place) }

/-- Write a file into a directory that exists.  A path that ends in a slash or in dots can only
be a directory's. -/
def write (tree : FileTree) (path : String) (bytes : ByteArray) : Except FileError FileTree := do
  let (start, components) ← tree.split path
  match components.reverse.dropWhile String.isEmpty with
  | [] => .error .isADirectory
  | name :: outer =>
    let directory ← tree.follow start (outer.reverse ++ ["."])
    if FileName.isIdle name || name = ".." || path.endsWith "/" then .error .isADirectory
    else
      let place ← tree.follow directory [name]
      if tree.isDirectory place then .error .isADirectory else .ok (tree.put place bytes)

/-- The tree with one more file, in or below its working directory. -/
def insert (tree : FileTree) (path : String) (bytes : ByteArray) : FileTree :=
  tree.put (tree.workingDirectory ++ (FileName.components path).filter (!FileName.isIdle ·)) bytes

def disk : Disk (StateM FileTree) where
  read path := return (← get).read path
  write path bytes := do
    match (← get).write path bytes with
    | .ok tree =>
      set tree
      return .ok ()
    | .error error => return .error error

end FileTree

end Quill
