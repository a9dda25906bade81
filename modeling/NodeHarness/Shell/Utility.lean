import NodeHarness.Shell.Printf

/-! Commands that a shell runs by name. A utility gets its words and what is left of the input;
it gives what it writes, a status, and what it leaves of the input. -/
namespace NodeHarness.Shell

structure Effect where
  output : List Char
  errors : List Char
  status : Nat
  input : List Char

namespace Utility

def chars (s : String) : List Char := s.toList

def said (output : List Char) (input : List Char) : Effect := ⟨output, [], 0, input⟩

def refused (message : String) (status : Nat) (input : List Char) : Effect :=
  ⟨[], chars message, status, input⟩

def spaced (words : List (List Char)) : List Char := [' '].intercalate words

/-- Writes its words; `escapes` tells whether backslashes mean anything in them. -/
def echo (escapes : Bool) (words : List (List Char)) (input : List Char) : Effect :=
  let (ending, words) := match words with
    | ['-', 'n'] :: rest => ([], rest)
    | words => (['\n'], words)
  let line := spaced words
  if escapes then
    let (text, stop) := Printf.unescape (line.length + 1) line
    said (if stop then text else text ++ ending) input
  else said (line ++ ending) input

def printf (words : List (List Char)) (input : List Char) : Effect :=
  match words with
  | template :: arguments =>
    said (Printf.format (arguments.length + 1) template arguments) input
  | [] => refused "printf: usage: printf format [arg ...]\n" 2 input

def cat (words : List (List Char)) (input : List Char) : Effect :=
  if words.isEmpty then said input []
  else
    let step (e : Effect) (w : List Char) : Effect :=
      if w = ['-'] then { e with output := e.output ++ e.input, input := [] }
      else if w = chars "/dev/null" then e
      else
        { e with
          errors := e.errors ++ chars "cat: " ++ w ++ chars ": No such file or directory\n"
          status := 1 }
    words.foldl step (said [] input)

def naturalOf (cs : List Char) : Nat := Nat.ofDigitChars 10 (cs.filter Char.isDigit) 0

def takeLines : Nat → List Char → List Char
  | 0, _ => []
  | n + 1, cs =>
    match cs.dropWhile (· ≠ '\n') with
    | [] => cs
    | _ :: rest => cs.takeWhile (· ≠ '\n') ++ '\n' :: takeLines n rest

def head (words : List (List Char)) (input : List Char) : Effect :=
  match words with
  | ('-' :: 'c' :: n) :: rest =>
    let n := naturalOf (if n.isEmpty then rest.head?.getD [] else n)
    if words.contains (chars "/dev/zero") then said (List.replicate n '\x00') input
    else said (input.take n) (input.drop n)
  | ('-' :: 'n' :: n) :: rest =>
    said (takeLines (naturalOf (if n.isEmpty then rest.head?.getD [] else n)) input) []
  | ('-' :: n) :: _ => said (takeLines (naturalOf n) input) []
  | _ => said (takeLines 10 input) []

def wc (words : List (List Char)) (input : List Char) : Effect :=
  let counted := if words.contains ['-', 'l'] then input.countP (· = '\n') else input.length
  said (Nat.toDigits 10 counted ++ ['\n']) []

/-- Characters of a set in which a hyphen stands for everything between its neighbours. -/
def expandSet : List Char → List Char
  | a :: '-' :: b :: rest =>
    (List.range (b.toNat + 1 - a.toNat)).map (fun i => Char.ofNat (a.toNat + i)) ++ expandSet rest
  | c :: rest => c :: expandSet rest
  | [] => []

def setOf (cs : List Char) : List Char := expandSet (Printf.unescape (cs.length + 1) cs).1

def exchange (source target : List Char) (c : Char) : Char :=
  match source.findIdx? (· = c) with
  | some i => (target[i]?).getD (target.getLast?.getD c)
  | none => c

def tr (words : List (List Char)) (input : List Char) : Effect :=
  match words with
  | [['-', 'd'], set] => said (input.filter fun c => !(setOf set).contains c) []
  | [source, target] => said (input.map (exchange (setOf source) (setOf target))) []
  | _ => refused "tr: missing operand\n" 1 input

def seq (words : List (List Char)) (input : List Char) : Effect :=
  let line (n : Nat) : List Char := Nat.toDigits 10 n ++ ['\n']
  match words with
  | [last] => said ((List.range (naturalOf last)).flatMap fun i => line (i + 1)) input
  | [first, last] =>
    let first := naturalOf first
    said ((List.range (naturalOf last + 1 - first)).flatMap fun i => line (first + i)) input
  | _ => refused "seq: missing operand\n" 1 input

/-- More lines than anybody reads of a command that writes without end. -/
def plenty : Nat := 500000

def yes (words : List (List Char)) (input : List Char) : Effect :=
  let line := (if words.isEmpty then ['y'] else spaced words) ++ ['\n']
  said (List.replicate plenty line).flatten input

def holds : List (List Char) → Bool
  | [] => false
  | [w] => !w.isEmpty
  | [['!'], w] => w.isEmpty
  | [['-', 'n'], w] => !w.isEmpty
  | [['-', 'z'], w] => w.isEmpty
  | [a, ['='], b] => a = b
  | [a, ['!', '='], b] => a != b
  | [a, ['-', 'e', 'q'], b] => Printf.integerOf a = Printf.integerOf b
  | [a, ['-', 'n', 'e'], b] => Printf.integerOf a != Printf.integerOf b
  | [a, ['-', 'l', 't'], b] => Printf.integerOf a < Printf.integerOf b
  | [a, ['-', 'l', 'e'], b] => Printf.integerOf a ≤ Printf.integerOf b
  | [a, ['-', 'g', 't'], b] => Printf.integerOf b < Printf.integerOf a
  | [a, ['-', 'g', 'e'], b] => Printf.integerOf b ≤ Printf.integerOf a
  | _ => false

def test (words : List (List Char)) (input : List Char) : Effect :=
  ⟨[], [], if holds words then 0 else 1, input⟩

def run? (name : List Char) (words : List (List Char)) (input : List Char) : Option Effect :=
  match String.ofList name with
  | "echo" => some (echo true words input)
  | "/bin/echo" => some (echo false words input)
  | "printf" => some (printf words input)
  | "cat" => some (cat words input)
  | "/bin/cat" => some (cat words input)
  | "head" => some (head words input)
  | "wc" => some (wc words input)
  | "tr" => some (tr words input)
  | "seq" => some (seq words input)
  | "test" => some (test words input)
  | "[" => some (test words.dropLast input)
  | "yes" => some (yes words input)
  | "sleep" => some (said [] input)
  | "true" => some (said [] input)
  | ":" => some (said [] input)
  | "false" => some ⟨[], [], 1, input⟩
  | _ => none

end Utility
end NodeHarness.Shell
