import TapeRing.Text.Split

/-! # Files

A run reads and writes files by their paths, and what a path leads to is up to the file system that
it is given (`FileSystem`). `Files` are such a system: plain files in directories, without links,
devices and permissions. Their paths are followed name by name from the root or from the working
directory, and each name but the last has to lead to a directory. -/

namespace TapeRing.CommandLine

/-- Why a file cannot be read or written. -/
inductive FileFault
  | notFound
  | notDirectory
  | isDirectory
  | nameTooLong
  | notText
  | other (text : String)
deriving DecidableEq, Repr

/-- The wording of a fault. -/
def FileFault.message : FileFault → String
  | .notFound => "No such file or directory (os error 2)"
  | .notDirectory => "Not a directory (os error 20)"
  | .isDirectory => "Is a directory (os error 21)"
  | .nameTooLong => "File name too long (os error 36)"
  | .notText => "stream did not contain valid UTF-8"
  | .other text => text

/-- The text of bytes, if they are UTF-8. -/
def textOf? (bytes : List UInt8) : Option String :=
  String.fromUTF8? ⟨bytes.toArray⟩

/-- A state in which there are files. Nothing is said of what a path leads to. Both operations may
    fail, and a write that fails can leave something behind. The standard streams of a run are no
    files: no path leads to them. -/
class FileSystem (φ : Type) where
  /-- The bytes at a path. -/
  read : φ → (path : String) → Except FileFault (List UInt8)
  /-- Puts bytes in the place of all that is at a path. -/
  write : φ → (path : String) → (bytes : List UInt8) → Except FileFault Unit × φ

namespace FileSystem

variable {φ : Type} [FileSystem φ]

/-- The text at a path. -/
def readText (files : φ) (path : String) : Except FileFault String :=
  match read files path with
  | .error fault => .error fault
  | .ok bytes =>
      match textOf? bytes with
      | some text => .ok text
      | none => .error .notText

/-- Puts a text in the place of all that is at a path. -/
def writeText (files : φ) (path : String) (text : String) : Except FileFault Unit × φ :=
  write files path text.toUTF8.toList

end FileSystem

/-! ## Plain files -/

/-- Plain files, by the names that lead to them from the root. The directories are those on the way
    to a file or to the working directory. -/
structure Files where
  workingDirectory : List String
  entries : List (List String × List UInt8)
deriving DecidableEq, Repr

/-- What a path leads to. -/
inductive Place
  | directory
  | file (names : List String) (bytes : List UInt8)
  /-- Nothing, in a directory that exists. -/
  | vacant (names : List String)
deriving DecidableEq, Repr

/-- The names along a path. -/
def pathNames (path : String) : List String :=
  splitParts '/' path

/-- A path that starts with a slash leads on from the root. -/
def startsWithSlash (path : String) : Bool :=
  path.toList.head? = some '/'

/-- A path that ends in a slash can only be that of a directory. -/
def endsInSlash (path : String) : Bool :=
  path.toList.getLast? = some '/'

namespace Files

/-- The files with the given paths from a working directory just below the root. -/
def ofList (files : List (String × List UInt8)) : Files where
  workingDirectory := ["work"]
  entries := files.map fun (path, bytes) => ("work" :: pathNames path, bytes)

/-- The bytes of the file that names lead to. -/
def bytes? (fs : Files) (names : List String) : Option (List UInt8) :=
  fs.entries.lookup names

/-- The names lead to a directory. -/
def hasDirectory (fs : Files) (names : List String) : Bool :=
  names.isPrefixOf fs.workingDirectory || fs.entries.any fun (entry, _) =>
    names.isPrefixOf entry && names.length < entry.length

/-- What names lead to from a directory. The directory above the root is the root. -/
def follow (fs : Files) : (directory : List String) → List String → Except FileFault Place
  | _, [] => .ok .directory
  | directory, name :: rest =>
      if name = "." then follow fs directory rest
      else if name = ".." then follow fs directory.dropLast rest
      else if 255 < name.utf8ByteSize then .error .nameTooLong
      else
        let names := directory ++ [name]
        if fs.hasDirectory names then follow fs names rest
        else
          match fs.bytes? names, rest with
          | some bytes, [] => .ok (.file names bytes)
          | some _, _ => .error .notDirectory
          | none, [] => .ok (.vacant names)
          | none, _ => .error .notFound

/-- What a path leads to. -/
def place (fs : Files) (path : String) : Except FileFault Place :=
  if 4096 ≤ path.utf8ByteSize then .error .nameTooLong
  else
    let directory := if startsWithSlash path then [] else fs.workingDirectory
    fs.follow directory (pathNames path)

/-- The files with the given bytes where names lead to. -/
def set (fs : Files) (names : List String) (bytes : List UInt8) : Files :=
  { fs with entries := (names, bytes) :: fs.entries.filter (·.1 ≠ names) }

instance : FileSystem Files where
  read fs path :=
    match fs.place path with
    | .error fault => .error fault
    | .ok .directory => .error .isDirectory
    | .ok (.vacant _) => .error .notFound
    | .ok (.file _ bytes) => if endsInSlash path then .error .notDirectory else .ok bytes
  write fs path bytes :=
    match fs.place path with
    | .error fault => (.error fault, fs)
    | .ok .directory => (.error .isDirectory, fs)
    | .ok (.vacant names) | .ok (.file names _) =>
        if endsInSlash path then (.error .isDirectory, fs) else (.ok (), fs.set names bytes)

/-- The text of the file at a path. -/
def readText (fs : Files) (path : String) : Except FileFault String :=
  FileSystem.readText fs path

end Files

end TapeRing.CommandLine
