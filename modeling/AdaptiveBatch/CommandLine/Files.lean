/-! # Files

A command reads the files that its arguments name. A path is followed part by part from the working
directory, or from the root if it starts with `/`, and the first part that cannot be followed
decides why there is no content.

* **`FileReader`**, **`ReadError`** — reading a file by its path, and why it fails;
* **`FileTree`** — files and directories held as values; **`FileTree.read`** — reading from them. -/

namespace AdaptiveBatch

/-- Why a file cannot be read. -/
inductive ReadError
  /-- A part of the path does not exist. -/
  | missing
  /-- The file may not be read. -/
  | denied
  /-- The path goes on behind a file. -/
  | notDirectory
  /-- The path ends at a directory. -/
  | isDirectory
  /-- The path or a part of it is too long. -/
  | nameTooLong
  /-- The content is not a text. -/
  | notText
  /-- Anything else. -/
  | other (reason : String)
deriving DecidableEq, Repr

/-- The text of an error. -/
def ReadError.message : ReadError → String
  | missing => "No such file or directory (os error 2)"
  | denied => "Permission denied (os error 13)"
  | notDirectory => "Not a directory (os error 20)"
  | isDirectory => "Is a directory (os error 21)"
  | nameTooLong => "File name too long (os error 36)"
  | notText => "stream did not contain valid UTF-8"
  | other reason => reason

/-- A way to read files: the content, or why there is none. -/
abbrev FileReader := String → Except ReadError String

/-- What stands at a place in a tree of files. -/
inductive FileEntry
  /-- A file with its content. -/
  | file (content : String)
  /-- A directory. -/
  | directory
deriving DecidableEq, Repr

/-- Files and directories by their places. A place is given by the names from the root on. -/
structure FileTree where
  /-- The files with their contents. -/
  files : List (List String × String)
  /-- Directories, beside the root and those that lead to a file. -/
  directories : List (List String) := []
deriving DecidableEq, Repr

namespace FileTree

/-- What stands at a place, if anything does. -/
def entry? (t : FileTree) (place : List String) : Option FileEntry :=
  match t.files.lookup place with
  | some content => some (.file content)
  | none =>
    if place.isEmpty || t.directories.contains place || t.files.any (place.isPrefixOf ·.1) then
      some .directory
    else none

/-- The largest size of a part of a path, in bytes. -/
def partLimit : Nat := 255

/-- The largest size of a path, in bytes. -/
def pathLimit : Nat := 4095

/-- Follows the parts of a path from a place on, and reads the file at its end. Empty parts and `.`
stay where they are, and `..` leads to the directory above. -/
def follow (t : FileTree) : (parts place : List String) → Except ReadError String
  | [], place =>
    match t.entry? place with
    | none => .error .missing
    | some (.file content) => .ok content
    | some .directory => .error .isDirectory
  | part :: rest, place =>
    match t.entry? place with
    | none => .error .missing
    | some (.file _) => .error .notDirectory
    | some .directory =>
      if part = "" ∨ part = "." then t.follow rest place
      else if part = ".." then t.follow rest place.dropLast
      else if partLimit < part.utf8ByteSize then .error .nameTooLong
      else t.follow rest (place ++ [part])

/-- Reads a file by its path, given the place of the working directory. -/
def read (t : FileTree) (working : List String) : FileReader := fun path =>
  if pathLimit < path.utf8ByteSize then .error .nameTooLong
  else t.follow (path.splitOn "/") (if path.startsWith "/" then [] else working)

/-- The place of a working directory without a name that a path could spell. -/
def scratch : List String := ["tmp", ""]

/-- The usual directories at the root of a system. -/
def rootNames : List String :=
  ["bin", "dev", "etc", "home", "lib", "mnt", "opt", "proc", "root", "run", "sbin", "srv", "sys",
    "tmp", "usr", "var"]

/-- A system with some files in an otherwise empty working directory, and a device that is always
empty. -/
def ofFiles (files : List (String × String)) : FileTree where
  files := (["dev", "null"], "") ::
    files.map fun (path, content) => (scratch ++ path.splitOn "/", content)
  directories := scratch :: rootNames.map ([·])

end FileTree

/-- Reads from a system with some files in the working directory. -/
def FileReader.ofFiles (files : List (String × String)) : FileReader :=
  (FileTree.ofFiles files).read FileTree.scratch

end AdaptiveBatch
