import Scriptlet.Text.Lines

/-!
# Files on a disk

What reading a path answers, as a function of the files there are. A path is walked from left to
right, one name after another, and the first name that cannot be taken decides the answer.
-/

namespace Scriptlet

/-- Why a file could not be read. -/
inductive FileError where
  | notFound
  | denied
  | notDirectory
  | isDirectory
  | nameTooLong
  | undecodable
  | other (message : String)
  deriving DecidableEq, Repr

/-- The wording of a file error. -/
def FileError.message : FileError → String
  | notFound => "No such file or directory (os error 2)"
  | denied => "Permission denied (os error 13)"
  | notDirectory => "Not a directory (os error 20)"
  | isDirectory => "Is a directory (os error 21)"
  | nameTooLong => "File name too long (os error 36)"
  | undecodable => Text.undecodableMessage
  | other message => message

/-- Where something stands on a disk: the names that lead to it from the top. -/
abbrev Place := List String

/-- The files of a disk, folders that may hold no file, and the folder where relative paths start. -/
structure Disk where
  files : List (Place × List UInt8)
  folders : List Place
  current : Place
  deriving Repr

namespace Disk

/-- The most bytes that a name in a path may have. -/
def nameLimit : Nat := 255

/-- The number of bytes that a path may not reach. -/
def pathLimit : Nat := 4096

/-- Whether a folder stands at a place: every place on the way to a folder or to a file is one. -/
def isFolder (disk : Disk) (place : Place) : Bool :=
  (disk.current :: disk.folders).any (place.isPrefixOf ·)
    || disk.files.any fun (file, _) => place.isPrefixOf file.dropLast

/-- Whether a file stands at a place. -/
def isFile (disk : Disk) (place : Place) : Bool :=
  (disk.files.lookup place).isSome

/-- The place that the steps of a path lead to. An empty step and a single dot stay, but, as any
step does, only in a folder; two dots go up, from the top to the top. -/
def walk (disk : Disk) (place : Place) : List String → Except FileError Place
  | [] => .ok place
  | step :: rest =>
      if !disk.isFolder place then .error .notDirectory
      else if step = "" ∨ step = "." then disk.walk place rest
      else if step = ".." then disk.walk place.dropLast rest
      else if nameLimit < step.utf8ByteSize then .error .nameTooLong
      else if disk.isFolder (place ++ [step]) || disk.isFile (place ++ [step]) then
        disk.walk (place ++ [step]) rest
      else .error .notFound

/-- What a file holds. A path with a slash in front starts at the top, and an empty path leads
nowhere. -/
def read (disk : Disk) (path : String) : Except FileError (List UInt8) :=
  if path = "" then .error .notFound
  else if pathLimit ≤ path.utf8ByteSize then .error .nameTooLong
  else
    match disk.walk (if path.front = '/' then [] else disk.current) (path.splitOn "/") with
    | .error error => .error error
    | .ok place =>
        match disk.files.lookup place with
        | some content => .ok content
        | none => .error .isDirectory

/-- A disk as a system sets it up, whose current folder holds some files, each with its path, and
whose input can be read as a file. -/
def ofFiles (files : List (String × List UInt8)) (input : List UInt8) : Disk where
  files := (["dev", "null"], []) :: (["dev", "stdin"], input) ::
    files.map fun (path, content) =>
      (current ++ (path.splitOn "/").filter fun step => step ≠ "" ∧ step ≠ ".", content)
  folders := [["bin"], ["dev"], ["etc"], ["home"], ["proc"], ["sys"], ["tmp"], ["usr"], ["var"]]
  current := current
where
  current : Place := ["tmp", "scripts"]

end Disk

end Scriptlet
