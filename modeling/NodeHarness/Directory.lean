import NodeHarness.Path
import NodeHarness.Text.Utf8

/-! A directory with files and directories below it. A path is followed step by step: an empty
part and a single dot stay where they are, two dots go up, and nothing lies above the directory
itself. -/
namespace NodeHarness

inductive FileFault
  | missing
  | denied
  | notDirectory
  | isDirectory
  | nameTooLong
  | zeroInName
  | notText
  deriving DecidableEq

def FileFault.message : FileFault → String
  | .missing => "No such file or directory (os error 2)"
  | .denied => "Permission denied (os error 13)"
  | .notDirectory => "Not a directory (os error 20)"
  | .isDirectory => "Is a directory (os error 21)"
  | .nameTooLong => "File name too long (os error 36)"
  | .zeroInName => "file name contained an unexpected NUL byte"
  | .notText => "stream did not contain valid UTF-8"

/-- Files and further directories by their steps from here; `name` is the path to here. -/
structure Directory where
  name : String
  files : List (List (List Char) × List UInt8)
  directories : List (List (List Char))

inductive Place
  | file (place : List (List Char))
  | directory (place : List (List Char))
  deriving DecidableEq

namespace Directory

def longestName : Nat := 255

def longestPath : Nat := 4095

def bytesOf (cs : List Char) : Nat := (Text.Utf8.encodeChars cs).length

def isFile (d : Directory) (place : List (List Char)) : Bool := (d.files.lookup place).isSome

/-- Directories are those that were made and those that something lies in. -/
def isDirectory (d : Directory) (place : List (List Char)) : Bool :=
  place.isEmpty || d.directories.any place.isPrefixOf
    || d.files.any fun (file, _) => place.isPrefixOf file

def enter (d : Directory) (here : List (List Char)) (part : List Char) : Except FileFault Place :=
  if !Path.isStep part then .ok (.directory here)
  else if part = Path.parent then .ok (.directory here.dropLast)
  else if longestName < bytesOf part then .error .nameTooLong
  else if d.isFile (here ++ [part]) then .ok (.file (here ++ [part]))
  else if d.isDirectory (here ++ [part]) then .ok (.directory (here ++ [part]))
  else .error .missing

/-- No step leads on from a file. -/
def walk (d : Directory) : Place → List (List Char) → Except FileFault Place
  | place, [] => .ok place
  | .file _, _ :: _ => .error .notDirectory
  | .directory here, part :: rest =>
    match d.enter here part with
    | .ok place => d.walk place rest
    | .error fault => .error fault

def locate (d : Directory) (path : String) : Except FileFault Place :=
  let cs := path.toList
  if cs.contains '\x00' then .error .zeroInName
  else if longestPath < bytesOf cs then .error .nameTooLong
  else d.walk (.directory []) (Text.pieces '/' cs)

def locateFile (d : Directory) (path : String) : Except FileFault (List (List Char)) :=
  match d.locate path with
  | .ok (.file place) => .ok place
  | .ok (.directory _) => .error .isDirectory
  | .error fault => .error fault

def has (d : Directory) (path : String) : Bool := (d.locate path).toOption.isSome

def read (d : Directory) (path : String) : Except FileFault (List UInt8) :=
  (d.locateFile path).map fun place => (d.files.lookup place).getD []

/-- The directory without a file; what held the file stays. -/
def remove (d : Directory) (path : String) : Except FileFault Directory :=
  (d.locateFile path).map fun place =>
    ⟨d.name, d.files.filter fun (file, _) => file != place, place.dropLast :: d.directories⟩

def ofList (name : String) (files : List (String × List UInt8)) (directories : List String) :
    Directory :=
  ⟨name, files.map fun (path, data) => (Path.steps path.toList, data),
    directories.map fun path => Path.steps path.toList⟩

end Directory
end NodeHarness
