import SchemaRegistry.SortedMap

/-!
# Files

What the library needs of a file system is a `Disk`: reading, writing and asking what a path names.
`FileTree` is a file system that is held in memory, and `FileTree.disk` is its disk.
-/

namespace SchemaRegistry

/-- Why a file cannot be read or written. -/
inductive DiskFault where
  | notFound
  | isDirectory
  /-- A file where the path needs a directory. -/
  | notDirectory
  /-- A part of the path is longer than a name can be. -/
  | nameTooLong
  /-- The path holds the character that ends names. -/
  | zeroInName
  /-- The content is not UTF-8. -/
  | notText
  | other (message : String)
deriving DecidableEq

/-- The wording of a fault. -/
def DiskFault.message : DiskFault → String
  | .notFound => "No such file or directory (os error 2)"
  | .isDirectory => "Is a directory (os error 21)"
  | .notDirectory => "Not a directory (os error 20)"
  | .nameTooLong => "File name too long (os error 36)"
  | .zeroInName => "file name contained an unexpected NUL byte"
  | .notText => "stream did not contain valid UTF-8"
  | .other message => message

/-- What a path names. -/
inductive PathKind where
  | file
  | directory
deriving DecidableEq

/-- A file system whose operations take place in `n`. -/
structure Disk (n : Type → Type) where
  /-- What stands at a path. -/
  kind : String → n (Option PathKind)
  read : String → n (Except DiskFault ByteArray)
  write : String → String → n (Except DiskFault Unit)

namespace Disk

variable {n : Type → Type} [Monad n]

/-- Whether a path names a file. -/
def isFile (disk : Disk n) (path : String) : n Bool := return (← disk.kind path) == some .file

/-- Reads a file as text. -/
def readText (disk : Disk n) (path : String) : n (Except DiskFault String) := do
  match ← disk.read path with
  | .error fault => return .error fault
  | .ok bytes =>
    match String.fromUTF8? bytes with
    | some text => return .ok text
    | none => return .error .notText

end Disk

/-! ## Files in memory -/

/-- The segments of a path; empty ones and those that stay where they are do not count. -/
def pathSegments (path : String) : List String :=
  (path.splitOn "/").filter fun s => s ≠ "" ∧ s ≠ "."

/-- A file system in memory: the contents of the files by their path, from the working directory or, with a
slash in front, from the root of the system. A directory exists if something lies below it; a path that ends
in a slash stands for an empty directory. -/
structure FileTree where
  files : SortedMap ByteArray := ∅

namespace FileTree

/-- The key of a file. -/
def joined (segments : List String) : String := "/".intercalate segments

/-- The place of the root of the system. The place of the working directory is empty. -/
def systemRoot : List String := [""]

/-- What stands at a place. The working directory and the root of the system are directories. -/
def kindAt (t : FileTree) (segments : List String) : Option PathKind :=
  if segments = [] ∨ segments = systemRoot then some .directory
  else if t.files.contains (joined segments) then some .file
  else if t.files.keys.any (·.startsWith (joined segments ++ "/")) then some .directory
  else none

/-- Checks that there is a directory at a place. -/
def checkDirectory (t : FileTree) (place : List String) : Except DiskFault Unit :=
  match t.kindAt place with
  | some .directory => .ok ()
  | some .file => .error .notDirectory
  | none => .error .notFound

/-- Follows the parts of a path from a place. Every place that is left has to be a directory; the last one
need not exist. Above the working directory there are only directories, and above the root of the system
there is nothing but itself. -/
def follow (t : FileTree) (place : List String) : List String → Except DiskFault (List String)
  | [] => .ok place
  | s :: rest => do
    t.checkDirectory place
    if s = "" ∨ s = "." then follow t place rest
    else if s = ".." then
      if place = systemRoot then follow t place rest
      else if place ≠ [] then follow t place.dropLast rest
      else throw (if rest.all (fun s => s = "" ∨ s = "." ∨ s = "..") then .isDirectory else .notFound)
    else if 255 < s.utf8ByteSize then throw .nameTooLong
    else follow t (place ++ [s]) rest

/-- The place that a path leads to. -/
def locate (t : FileTree) (path : String) : Except DiskFault (List String) :=
  if path.toList.contains '\x00' then .error .zeroInName
  else if path = "" then .error .notFound
  else t.follow (if path.startsWith "/" then systemRoot else []) (path.splitOn "/")

/-- A path without the slashes at its end, but for the path to the root of the system. -/
def trimmed (path : String) : String :=
  let cs := (path.toList.reverse.dropWhile (· = '/')).reverse
  if cs.isEmpty ∧ path ≠ "" then "/" else String.ofList cs

/-- The content of a file. -/
def read (t : FileTree) (path : String) : Except DiskFault ByteArray := do
  let place ← t.locate path
  match t.kindAt place, t.files.get? (joined place) with
  | some .directory, _ => throw .isDirectory
  | _, some bytes => return bytes
  | _, none => throw .notFound

/-- The files after writing one. A path that ends in a slash names no file. -/
def write (t : FileTree) (path content : String) : Except DiskFault FileTree := do
  let place ← t.locate (trimmed path)
  match t.kindAt place, path.endsWith "/" with
  | some .directory, _ | none, true => throw .isDirectory
  | some .file, true => throw .notDirectory
  | _, false => return ⟨t.files.insert (joined place) content.toUTF8⟩

/-- The disk of a file system in memory. -/
def disk {n : Type → Type} [Monad n] : Disk (StateT FileTree n) where
  kind path := do
    match (← get).locate path with
    | .ok place => return (← get).kindAt place
    | .error _ => return none
  read path := return (← get).read path
  write path content := do
    match (← get).write path content with
    | .ok t =>
      set t
      return .ok ()
    | .error fault => return .error fault

end FileTree

end SchemaRegistry
