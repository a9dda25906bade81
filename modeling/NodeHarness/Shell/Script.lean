import NodeHarness.Shell.Token

/-! Shell scripts: simple commands, and what is built of them. -/
namespace NodeHarness.Shell

/-- Where a redirection leads: to another descriptor, into a file, or out of one. -/
inductive Redirection
  | duplicate (descriptor : Nat) (w : Word)
  | write (descriptor : Nat) (w : Word)
  | read (w : Word)

inductive Script
  | simple (assignments : List (List Char × Word)) (words : List Word) (rs : List Redirection)
  | pipe (first second : Script)
  | not (body : Script)
  | and (first second : Script)
  | or (first second : Script)
  | sequence (parts : List Script)
  | group (apart : Bool) (body : Script) (rs : List Redirection)
  | choice (condition yes no : Script)
  | loop (inverted : Bool) (condition body : Script)
  | each (name : List Char) (words : List Word) (body : Script)

instance : Inhabited Script := ⟨.sequence []⟩

namespace Script

def plain? : Word → Option (List Char)
  | [] => some []
  | .text cs false :: rest => (plain? rest).map (cs ++ ·)
  | _ => none

def wordIs (w : Word) (s : String) : Bool := plain? w = some s.toList

def nextIs (s : String) : List Token → Bool
  | .word w :: _ => wordIs w s
  | .operator cs :: _ => cs = s.toList
  | _ => false

def isBreak : Token → Bool
  | .operator cs => cs = [';'] || cs = ['\n'] || cs = ['&']
  | _ => false

/-- Name and value when a word assigns to a parameter. -/
def assignment? (w : Word) : Option (List Char × Word) :=
  let name := w.takeWhile fun piece => piece ≠ .text ['='] false
  match plain? name, w.dropWhile fun piece => piece ≠ .text ['='] false with
  | some (c :: cs), _ :: value =>
    if Token.isNameStart c ∧ cs.all Token.isNamePart then some (c :: cs, value) else none
  | _, _ => none

def redirection (descriptor : Option Nat) (cs : List Char) (w : Word) : Redirection :=
  match cs with
  | ['>', '&'] => .duplicate (descriptor.getD 1) w
  | '>' :: _ => .write (descriptor.getD 1) w
  | ['<', '&'] => .duplicate (descriptor.getD 0) w
  | _ => .read w

def redirections : List Token → List Redirection × List Token
  | .redirection n cs :: .word w :: rest =>
    let (rs, rest) := redirections rest
    (redirection n cs w :: rs, rest)
  | tokens => ([], tokens)

/-- The words, assignments and redirections of a simple command. -/
def simpleParts : List Token → (List (List Char × Word) × List Word × List Redirection) × List Token
  | .redirection n cs :: .word w :: rest =>
    let ((assignments, words, rs), rest) := simpleParts rest
    ((assignments, words, redirection n cs w :: rs), rest)
  | .word w :: rest =>
    let ((assignments, words, rs), after) := simpleParts rest
    ((assignments, w :: words, rs), after)
  | tokens => (([], [], []), tokens)

/-- Assignments stand in front of the first word of a command. -/
def splitAssignments : List Word → List (List Char × Word) × List Word
  | [] => ([], [])
  | w :: rest =>
    match assignment? w with
    | some a =>
      let (assignments, words) := splitAssignments rest
      (a :: assignments, words)
    | none => ([], w :: rest)

def simpleOf (tokens : List Token) : Option (Script × List Token) :=
  let ((_, words, rs), rest) := simpleParts tokens
  let (assignments, words) := splitAssignments words
  if assignments.isEmpty ∧ words.isEmpty ∧ rs.isEmpty then none
  else some (.simple assignments words rs, rest)

def expect (s : String) (tokens : List Token) : Option (List Token) :=
  if nextIs s tokens then some tokens.tail else none

def wordsOf : List Token → List Word × List Token
  | .word w :: rest =>
    let (words, rest) := wordsOf rest
    (w :: words, rest)
  | tokens => ([], tokens)

def stopWords : List String := ["then", "else", "elif", "fi", "do", "done", ")", "\x7d"]

mutual

/-- Parts of a list up to a word that ends it. -/
def readList : Nat → List Token → Option (Script × List Token)
  | 0, _ => none
  | fuel + 1, tokens =>
    let tokens := tokens.dropWhile isBreak
    if tokens.isEmpty ∨ stopWords.any fun s => nextIs s tokens then some (.sequence [], tokens)
    else do
      let (first, rest) ← readAndOr fuel tokens
      match rest with
      | [] => return (.sequence [first], [])
      | token :: _ =>
        if isBreak token then
          let (later, rest) ← readList fuel rest
          match later with
          | .sequence parts => return (.sequence (first :: parts), rest)
          | other => return (.sequence [first, other], rest)
        else if stopWords.any fun s => nextIs s rest then return (.sequence [first], rest)
        else none

def readAndOr : Nat → List Token → Option (Script × List Token)
  | 0, _ => none
  | fuel + 1, tokens => do
    let (first, rest) ← readPipe fuel tokens
    readAndOrTail fuel first rest

def readAndOrTail : Nat → Script → List Token → Option (Script × List Token)
  | 0, _, _ => none
  | fuel + 1, first, tokens =>
    if nextIs "&&" tokens then do
      let (second, rest) ← readPipe fuel (tokens.tail.dropWhile isBreak)
      readAndOrTail fuel (.and first second) rest
    else if nextIs "||" tokens then do
      let (second, rest) ← readPipe fuel (tokens.tail.dropWhile isBreak)
      readAndOrTail fuel (.or first second) rest
    else some (first, tokens)

def readPipe : Nat → List Token → Option (Script × List Token)
  | 0, _ => none
  | fuel + 1, tokens =>
    if nextIs "!" tokens then do
      let (body, rest) ← readPipe fuel tokens.tail
      return (.not body, rest)
    else do
      let (first, rest) ← readCommand fuel tokens
      if nextIs "|" rest then
        let (second, rest) ← readPipe fuel (rest.tail.dropWhile isBreak)
        return (.pipe first second, rest)
      else return (first, rest)

def readCommand : Nat → List Token → Option (Script × List Token)
  | 0, _ => none
  | fuel + 1, tokens =>
    if nextIs "(" tokens then readGroup fuel true ")" tokens.tail
    else if nextIs "\x7b" tokens then readGroup fuel false "\x7d" tokens.tail
    else if nextIs "if" tokens then readChoice fuel tokens.tail
    else if nextIs "while" tokens then readLoop fuel false tokens.tail
    else if nextIs "until" tokens then readLoop fuel true tokens.tail
    else if nextIs "for" tokens then
      match tokens.tail with
      | .word name :: rest => do
        let name ← plain? name
        let (words, rest) := if nextIs "in" rest then wordsOf rest.tail else
          ([[.parameter ['@'] true]], rest)
        let rest ← expect "do" (rest.dropWhile isBreak)
        let (body, rest) ← readList fuel rest
        let rest ← expect "done" rest
        return (.each name words body, rest)
      | _ => none
    else if stopWords.any fun s => nextIs s tokens then none
    else simpleOf tokens

def readGroup : Nat → Bool → String → List Token → Option (Script × List Token)
  | 0, _, _, _ => none
  | fuel + 1, apart, last, tokens => do
    let (body, rest) ← readList fuel tokens
    let rest ← expect last rest
    let (rs, rest) := redirections rest
    return (.group apart body rs, rest)

def readChoice : Nat → List Token → Option (Script × List Token)
  | 0, _ => none
  | fuel + 1, tokens => do
    let (condition, rest) ← readList fuel tokens
    let rest ← expect "then" rest
    let (yes, rest) ← readList fuel rest
    if nextIs "elif" rest then
      let (no, rest) ← readChoice fuel rest.tail
      return (.choice condition yes no, rest)
    else if nextIs "else" rest then
      let (no, rest) ← readList fuel rest.tail
      let rest ← expect "fi" rest
      return (.choice condition yes no, rest)
    else
      let rest ← expect "fi" rest
      return (.choice condition yes (.sequence []), rest)

def readLoop : Nat → Bool → List Token → Option (Script × List Token)
  | 0, _, _ => none
  | fuel + 1, inverted, tokens => do
    let (condition, rest) ← readList fuel tokens
    let rest ← expect "do" rest
    let (body, rest) ← readList fuel rest
    let rest ← expect "done" rest
    let (rs, rest) := redirections rest
    return (if rs.isEmpty then .loop inverted condition body
      else .group false (.loop inverted condition body) rs, rest)

end

/-- Reads a script; text that is none gives `none`. Ten steps of fuel per token are enough. -/
def ofChars? (cs : List Char) : Option Script :=
  let tokens := Token.ofChars cs
  match readList (10 * tokens.length + 10) tokens with
  | some (script, []) => some script
  | _ => none

end Script
end NodeHarness.Shell
