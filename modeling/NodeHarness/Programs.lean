import NodeHarness.Command
import NodeHarness.Directory
import NodeHarness.Shell

/-! Starting programs. A program is found by its path, or by its name in the directory of
programs. What is found must be a program; only the few programs known here can run. -/
namespace NodeHarness.Programs

inductive Program
  | shell
  | echo
  | cat
  | success
  | failure
  deriving DecidableEq

def Program.byName : List (String × Program) :=
  [("sh", .shell), ("dash", .shell), ("echo", .echo), ("cat", .cat), ("true", .success),
   ("false", .failure)]

def programDirectories : List String := ["bin", "usr/bin"]

def plainFiles : List String := ["etc/passwd", "etc/hosts", "etc/group", "etc/hostname"]

def plainDirectories : List String :=
  ["tmp", "dev", "proc", "home", "root", "var", "opt", "lib", "sbin", "usr/lib", "usr/local/bin"]

/-- The whole file system as far as it is known here. -/
def root : Directory :=
  Directory.ofList "/"
    (plainFiles.map (fun file => (file, []))
      ++ programDirectories.flatMap fun directory =>
        Program.byName.map fun (name, _) => (directory ++ "/" ++ name, []))
    plainDirectories

/-- Where relative paths begin; nothing is known to be there. -/
def here : Directory := Directory.ofList "." [] []

def programAt? (place : List (List Char)) : Option Program :=
  match place.getLast? with
  | some name =>
    if programDirectories.any fun directory => Path.steps directory.toList = place.dropLast then
      Program.byName.lookup (String.ofList name)
    else none
  | none => none

/-- Finds a program by path, if it has a slash, and else by name. -/
def find (program : String) : Except String Program :=
  let cs := program.toList
  if cs.contains '/' then
    match (if program.startsWith "/" then root else here).locate program with
    | .ok (.file place) =>
      match programAt? place with
      | some p => .ok p
      | none => .error FileFault.denied.message
    | .ok (.directory _) => .error FileFault.denied.message
    | .error fault => .error fault.message
  else if cs = ['.'] ∨ cs = Path.parent then .error FileFault.denied.message
  else if Directory.longestName < Directory.bytesOf cs then .error FileFault.nameTooLong.message
  else
    match Program.byName.lookup program with
    | some p => .ok p
    | none => .error FileFault.missing.message

def narrow (s : String) : List Char :=
  (Text.Utf8.encode s).map fun b => Char.ofNat b.toNat

def bytesOf (cs : List Char) : List UInt8 := cs.map fun c => UInt8.ofNat c.toNat

def finished (output : List Char) (code : Option Nat) : Finished :=
  ⟨bytesOf output, code.map Int.ofNat, code = some 0⟩

def ofEffect (e : Shell.Effect) : Finished := finished (e.output ++ e.errors) (some e.status)

/-- Runs a shell on its arguments: a script behind `-c`, or one that it reads. -/
def runShell (name : List Char) (arguments : List (List Char)) (input : List Char) : Finished :=
  match arguments with
  | ['-', 'c'] :: text :: rest =>
    let (code, s) := Shell.runText text (.start (rest.head?.getD name) rest.tail input)
    finished s.combined code
  | [] =>
    let (code, s) := Shell.runText input (.start name [] [])
    finished s.combined code
  | file :: _ =>
    finished (name ++ Shell.Utility.chars ": 0: cannot open " ++ file
      ++ Shell.Utility.chars ": No such file\n") (some 2)

def runProgram (p : Program) (name : List Char) (arguments : List (List Char))
    (input : List Char) : Finished :=
  match p with
  | .shell => runShell name arguments input
  | .echo => ofEffect (Shell.Utility.echo false arguments input)
  | .cat => ofEffect (Shell.Utility.cat arguments input)
  | .success => finished [] (some 0)
  | .failure => finished [] (some 1)

def longestArgument : Nat := 131071

def run (call : Call) : Reply :=
  if (call.program :: call.arguments).any fun s => s.toList.contains '\x00' then
    .error "nul byte found in provided data"
  else
    match find call.program with
    | .error cause => .error cause
    | .ok p =>
      let arguments := call.arguments.map narrow
      if arguments.any fun a => longestArgument < a.length then
        .error "Argument list too long (os error 7)"
      else .ok (runProgram p (narrow call.program) arguments (narrow call.input))

end NodeHarness.Programs
