import NodeHarness.Shell.Arithmetic
import NodeHarness.Shell.Script
import NodeHarness.Shell.Utility

/-! Running shell scripts. What is written goes into numbered buffers: the first two are the two
outputs of the whole run, and every pipe and every substituted command has one more. Running has
fuel, and a run that uses it up ends where it is. -/
namespace NodeHarness

open Shell

/-- The state of a shell. Buffers hold their latest character first. -/
structure Shell where
  name : List Char
  arguments : List (List Char)
  values : List (List Char × List Char)
  input : List Char
  buffers : List (List Char)
  status : Nat

/-- The buffers that the two outputs of a command go to; none is written nowhere. -/
structure Channels where
  output : Option Nat
  errors : Option Nat

/-- Whether a shell goes on, ends with a code, or is killed. -/
inductive Flow
  | next
  | exit (code : Nat)
  | killed
  deriving DecidableEq

/-- Fields of a word: complete ones, latest first, and one that is being filled. -/
structure FieldList where
  complete : List (List Char)
  current : Option (List Char)

namespace FieldList

def empty : FieldList := ⟨[], none⟩

def append (f : FieldList) (cs : List Char) : FieldList :=
  { f with current := some (f.current.getD [] ++ cs) }

def close (f : FieldList) : FieldList :=
  match f.current with
  | some field => ⟨field :: f.complete, none⟩
  | none => f

def isSeparator (c : Char) : Bool := c = ' ' || c = '\t' || c = '\n'

/-- Adds text that is split where it has white space. -/
def split (f : FieldList) : List Char → FieldList
  | [] => f
  | c :: cs => if isSeparator c then f.close.split cs else (f.append [c]).split cs

/-- Adds several fields; the first one goes on where the word stands. -/
def extend (f : FieldList) : List (List Char) → FieldList
  | [] => f
  | [field] => f.append field
  | field :: rest => (f.append field).close.extend rest

def toList (f : FieldList) : List (List Char) := f.close.complete.reverse

end FieldList

namespace Shell

def processNumber : List Char := ['4', '2', '4', '2']

def write (s : Shell) (buffer : Option Nat) (cs : List Char) : Shell :=
  match buffer with
  | some i => { s with buffers := s.buffers.modify i fun old => cs.reverse ++ old }
  | none => s

def assign (s : Shell) (name value : List Char) : Shell :=
  { s with values := (name, value) :: s.values.filter fun (other, _) => other != name }

def isSet (s : Shell) (name : List Char) : Bool :=
  if name.all Char.isDigit then Nat.ofDigitChars 10 name 0 ≤ s.arguments.length
  else s.values.any fun (other, _) => other = name

def plainValue (s : Shell) (name : List Char) : List Char :=
  match name with
  | ['#'] => Nat.toDigits 10 s.arguments.length
  | ['?'] => Nat.toDigits 10 s.status
  | ['$'] => processNumber
  | ['0'] => s.name
  | '#' :: rest => Nat.toDigits 10 ((s.values.lookup rest).getD []).length
  | name =>
    if name.all Char.isDigit then
      (s.arguments[Nat.ofDigitChars 10 name 0 - 1]?).getD []
    else (s.values.lookup name).getD []

/-- The value that stands for a name; behind the name there may be a text for a parameter that is
not set, or for one that is. With a colon an empty parameter counts as not set. -/
def value (s : Shell) (name : List Char) : List Char :=
  let parameter := name.takeWhile Token.isNamePart
  if parameter.isEmpty then s.plainValue name
  else
    let filled := s.isSet parameter && !(s.plainValue parameter).isEmpty
    match name.dropWhile Token.isNamePart with
    | ':' :: '-' :: other => if filled then s.plainValue parameter else other
    | '-' :: other => if s.isSet parameter then s.plainValue parameter else other
    | ':' :: '+' :: other => if filled then other else []
    | '+' :: other => if s.isSet parameter then other else []
    | _ => s.plainValue parameter

def calculate (s : Shell) (expression : List Char) : List Char :=
  match Arithmetic.evaluate? s.value expression with
  | some (.ofNat n) => Nat.toDigits 10 n
  | some (.negSucc n) => '-' :: Nat.toDigits 10 (n + 1)
  | none => []

def expandParameter (s : Shell) (splits quoted : Bool) (name : List Char) (f : FieldList) :
    FieldList :=
  if name = ['@'] then
    if quoted then f.extend s.arguments
    else s.arguments.foldl (fun f a => (if splits then f.split a else f.append a).close) f.close
  else if name = ['*'] then
    if quoted ∨ !splits then f.append (Utility.spaced s.arguments)
    else f.split (Utility.spaced s.arguments)
  else if quoted ∨ !splits then f.append (s.value name)
  else f.split (s.value name)

/-- A line of the input, and whether a line feed ended it. -/
def takeLine (raw : Bool) (cs : List Char) : List Char × Bool × List Char :=
  match cs with
  | [] => ([], false, [])
  | '\n' :: rest => ([], true, rest)
  | '\\' :: c :: rest =>
    if raw then
      let (line, ended, rest) := takeLine raw (c :: rest)
      ('\\' :: line, ended, rest)
    else
      let (line, ended, rest) := takeLine raw rest
      (if c = '\n' then line else c :: line, ended, rest)
  | c :: rest =>
    let (line, ended, rest) := takeLine raw rest
    (c :: line, ended, rest)

def dropSeparators (cs : List Char) : List Char := cs.dropWhile FieldList.isSeparator

/-- Spreads a line over names; the last name takes all that is left. -/
def spread (s : Shell) (line : List Char) : List (List Char) → Shell
  | [] => s
  | [name] => s.assign name (dropSeparators (dropSeparators line).reverse).reverse
  | name :: rest =>
    let line := dropSeparators line
    (s.assign name (line.takeWhile fun c => !FieldList.isSeparator c)).spread
      (line.dropWhile fun c => !FieldList.isSeparator c) rest

def readLine (s : Shell) (words : List (List Char)) : Shell :=
  let raw := words.head? = some ['-', 'r']
  let names := words.filter fun w => w.head? != some '-'
  let (line, ended, rest) := takeLine raw s.input
  { s.spread line names with input := rest, status := if ended then 0 else 1 }

/-- Signals that do not end a process. -/
def harmless : List (List Char) :=
  ["0", "17", "18", "23", "28", "CHLD", "CONT", "URG", "WINCH"].map String.toList

/-- Whether a signal is sent to the shell itself that ends it. -/
def killsItself (words : List (List Char)) : Bool :=
  let signal := match words with
    | ['-', 's'] :: name :: _ => name
    | ('-' :: name) :: _ => name
    | _ => ['1', '5']
  words.contains processNumber && !harmless.contains signal

def redirect (ch : Channels) (descriptor : Nat) (target : Option Nat) : Channels :=
  if descriptor = 1 then { ch with output := target }
  else if descriptor = 2 then { ch with errors := target }
  else ch

def notFound (s : Shell) (name : List Char) : List Char :=
  s.name ++ Utility.chars ": 1: " ++ name ++ Utility.chars ": not found\n"

def leave (ch : Channels) (words : List (List Char)) (s : Shell) : Flow × Shell :=
  match words with
  | [] => (.exit s.status, s)
  | n :: _ =>
    if n ≠ [] ∧ n.all Char.isDigit then (.exit (Nat.ofDigitChars 10 n 0 % 256), s)
    else
      (.exit 2, s.write ch.errors
        (s.name ++ Utility.chars ": 1: exit: Illegal number: " ++ n ++ ['\n']))

/-- Assigns to the parameters that are named with a value. -/
def publish (words : List (List Char)) (s : Shell) : Shell :=
  words.foldl (fun s w =>
    match w.dropWhile (· ≠ '=') with
    | _ :: value => s.assign (w.takeWhile (· ≠ '=')) value
    | [] => s) { s with status := 0 }

def runWords (ch : Channels) (s : Shell) : List (List Char) → Flow × Shell
  | [] => (.next, { s with status := 0 })
  | name :: rest =>
    match String.ofList name with
    | "exit" => s.leave ch rest
    | "exec" =>
      match runWords ch s rest with
      | (.next, s) => (if rest.isEmpty then .next else .exit s.status, s)
      | other => other
    | "wait" => (.next, { s with status := 0 })
    | "export" => (.next, s.publish rest)
    | "unset" =>
      (.next, { s with values := s.values.filter fun (other, _) => !rest.contains other
                       status := 0 })
    | "read" => (.next, s.readLine rest)
    | "kill" => if killsItself rest then (.killed, s) else (.next, { s with status := 0 })
    | "shift" => (.next, { s with arguments := s.arguments.drop 1, status := 0 })
    | "set" =>
      (.next, { s with
        arguments := if rest.head? = some ['-', '-'] then rest.tail else rest, status := 0 })
    | _ =>
      match Utility.run? name rest s.input with
      | some e =>
        let s := (s.write ch.output e.output).write ch.errors e.errors
        (.next, { s with status := e.status, input := e.input })
      | none => (.next, { s.write ch.errors (s.notFound name) with status := 127 })

def isEnd (flow : Flow) : Bool := flow != .next

/-- What a part that runs apart leaves to the shell around it: what it wrote and read, and its
status. -/
def rejoin (s inner : Shell) (flow : Flow) : Shell :=
  { s with
    buffers := inner.buffers
    input := inner.input
    status := match flow with
      | .next => inner.status
      | .exit code => code
      | .killed => 137 }

mutual

def expandPieces : Nat → Bool → List Piece → FieldList → Shell → FieldList × Shell
  | 0, _, _, f, s => (f, s)
  | _ + 1, _, [], f, s => (f, s)
  | fuel + 1, splits, .text cs _ :: rest, f, s => expandPieces fuel splits rest (f.append cs) s
  | fuel + 1, splits, .parameter name quoted :: rest, f, s =>
    expandPieces fuel splits rest (s.expandParameter splits quoted name f) s
  | fuel + 1, splits, .arithmetic expression quoted :: rest, f, s =>
    let text := s.calculate expression
    expandPieces fuel splits rest (if quoted ∨ !splits then f.append text else f.split text) s
  | fuel + 1, splits, .substitution script quoted :: rest, f, s =>
    let (text, s) := capture fuel script s
    expandPieces fuel splits rest (if quoted ∨ !splits then f.append text else f.split text) s

/-- The output of a script, without the line feeds at its end. -/
def capture : Nat → List Char → Shell → List Char × Shell
  | 0, _, s => ([], s)
  | fuel + 1, script, s =>
    let buffer := s.buffers.length
    let inner := { s with buffers := s.buffers ++ [[]] }
    let (flow, inner) := match Script.ofChars? script with
      | some script => run fuel ⟨some buffer, some 1⟩ script inner
      | none => (.exit 2, inner)
    let text := (inner.buffers.getD buffer []).dropWhile (· = '\n')
    (text.reverse, s.rejoin { inner with buffers := inner.buffers.take buffer } flow)

def expandWords : Nat → List Word → Shell → List (List Char) × Shell
  | 0, _, s => ([], s)
  | _ + 1, [], s => ([], s)
  | fuel + 1, w :: rest, s =>
    let (f, s) := expandPieces fuel true w .empty s
    let (fields, s) := expandWords fuel rest s
    (f.toList ++ fields, s)

def expandWhole : Nat → Word → Shell → List Char × Shell
  | 0, _, s => ([], s)
  | fuel + 1, w, s =>
    let (f, s) := expandPieces fuel false w .empty s
    (Utility.spaced f.toList, s)

def assignAll : Nat → List (List Char × Word) → Shell → Shell
  | 0, _, s => s
  | _ + 1, [], s => s
  | fuel + 1, (name, w) :: rest, s =>
    let (value, s) := expandWhole fuel w s
    assignAll fuel rest (s.assign name value)

def redirectAll : Nat → List Redirection → Channels → Shell → Channels × Shell
  | 0, _, ch, s => (ch, s)
  | _ + 1, [], ch, s => (ch, s)
  | fuel + 1, .duplicate descriptor w :: rest, ch, s =>
    let (value, s) := expandWhole fuel w s
    let target := if value = ['1'] then ch.output else if value = ['2'] then ch.errors else none
    redirectAll fuel rest (redirect ch descriptor target) s
  | fuel + 1, .write descriptor _ :: rest, ch, s =>
    redirectAll fuel rest (redirect ch descriptor none) s
  | fuel + 1, .read _ :: rest, ch, s => redirectAll fuel rest ch { s with input := [] }

/-- Runs a command whose words are known; one that holds a script runs it, in this shell or in
another one. -/
def runCommand : Nat → Channels → List (List Char) → Shell → Flow × Shell
  | 0, _, _, s => (.exit s.status, s)
  | fuel + 1, ch, words, s =>
    match words.map String.ofList, words with
    | "eval" :: _, _ :: parts =>
      match Script.ofChars? (Utility.spaced parts) with
      | some script => run fuel ch script s
      | none => (.exit 2, s)
    | "sh" :: "-c" :: _, name :: _ :: text :: rest =>
      match Script.ofChars? text with
      | some script =>
        let inner := { s with name := rest.head?.getD name, arguments := rest.tail, status := 0 }
        let (flow, inner) := run fuel ch script inner
        (.next, s.rejoin inner flow)
      | none => (.next, { s with status := 2 })
    | _, _ => s.runWords ch words

def run : Nat → Channels → Script → Shell → Flow × Shell
  | 0, _, _, s => (.exit s.status, s)
  | fuel + 1, ch, .simple assignments words rs, s =>
    let (words, s) := expandWords fuel words s
    let input := s.input
    let (ch, s) := redirectAll fuel rs ch s
    let s := assignAll fuel assignments s
    let (flow, s) := runCommand fuel ch words s
    (flow, if rs.any (fun r => match r with
        | .read _ => true
        | _ => false) then { s with input } else s)
  | fuel + 1, ch, .pipe first second, s =>
    let buffer := s.buffers.length
    let (_, left) := run fuel { ch with output := some buffer } first
      { s with buffers := s.buffers ++ [[]] }
    let piped := (left.buffers.getD buffer []).reverse
    let (flow, right) := run fuel ch second
      { s with input := piped, buffers := left.buffers.take buffer }
    (.next, s.rejoin { right with input := left.input } flow)
  | fuel + 1, ch, .not body, s =>
    let (flow, s) := run fuel ch body s
    (flow, { s with status := if s.status = 0 then 1 else 0 })
  | fuel + 1, ch, .and first second, s =>
    let (flow, s) := run fuel ch first s
    if isEnd flow ∨ s.status ≠ 0 then (flow, s) else run fuel ch second s
  | fuel + 1, ch, .or first second, s =>
    let (flow, s) := run fuel ch first s
    if isEnd flow ∨ s.status = 0 then (flow, s) else run fuel ch second s
  | _ + 1, _, .sequence [], s => (.next, s)
  | fuel + 1, ch, .sequence (part :: rest), s =>
    let (flow, s) := run fuel ch part s
    if isEnd flow then (flow, s) else run fuel ch (.sequence rest) s
  | fuel + 1, ch, .group apart body rs, s =>
    let (ch, inner) := redirectAll fuel rs ch s
    let (flow, inner) := run fuel ch body inner
    if apart then (.next, s.rejoin inner flow) else (flow, inner)
  | fuel + 1, ch, .choice condition yes no, s =>
    let (flow, s) := run fuel ch condition s
    if isEnd flow then (flow, s)
    else if s.status = 0 then run fuel ch yes s
    else run fuel ch no { s with status := 0 }
  | fuel + 1, ch, .loop inverted condition body, s =>
    let (flow, s) := run fuel ch condition s
    if isEnd flow then (flow, s)
    else if (s.status = 0) = inverted then (.next, { s with status := 0 })
    else
      let (flow, s) := run fuel ch body s
      if isEnd flow then (flow, s) else run fuel ch (.loop inverted condition body) s
  | fuel + 1, ch, .each name words body, s =>
    let (fields, s) := expandWords fuel words s
    runEach fuel ch name fields body s

def runEach : Nat → Channels → List Char → List (List Char) → Script → Shell → Flow × Shell
  | 0, _, _, _, _, s => (.exit s.status, s)
  | _ + 1, _, _, [], _, s => (.next, s)
  | fuel + 1, ch, name, field :: rest, body, s =>
    let (flow, s) := run fuel ch body (s.assign name field)
    if isEnd flow then (flow, s) else runEach fuel ch name rest body s

end

/-- The steps that a script may take one inside the other. -/
def stepLimit : Nat := 100000

def start (name : List Char) (arguments : List (List Char)) (input : List Char) : Shell :=
  ⟨name, arguments, [], input, [[], []], 0⟩

def combined (s : Shell) : List Char := s.buffers.flatMap List.reverse

/-- Runs the text of a script; the code is none for a shell that was killed. -/
def runText (text : List Char) (s : Shell) : Option Nat × Shell :=
  match if Token.quotationsEnd none text then Script.ofChars? text else none with
  | none =>
    (some 2, s.write (some 1) (s.name ++ Utility.chars ": 1: Syntax error"
      ++ Utility.chars (if Token.quotationsEnd none text then "\n"
        else ": Unterminated quoted string\n")))
  | some script =>
    let (flow, s) := run stepLimit ⟨some 0, some 1⟩ script s
    (match flow with
      | .next => some s.status
      | .exit code => some code
      | .killed => none, s)

end Shell
end NodeHarness
