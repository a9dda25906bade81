/-! Tokens of shell text. A word is made of pieces: text as it stands, parameters, arithmetic, and
commands whose output is put in their place. Quoted pieces are not split into fields. Everywhere in
a shell a character stands for one byte. -/
namespace NodeHarness.Shell

inductive Piece
  | text (cs : List Char) (quoted : Bool)
  | parameter (name : List Char) (quoted : Bool)
  | substitution (script : List Char) (quoted : Bool)
  | arithmetic (expression : List Char) (quoted : Bool)
  deriving DecidableEq

abbrev Word := List Piece

/-- An operator joins or ends commands. A redirection has the descriptor in front of it. -/
inductive Token
  | word (w : Word)
  | operator (cs : List Char)
  | redirection (descriptor : Option Nat) (cs : List Char)
  deriving DecidableEq

namespace Token

def isBlank (c : Char) : Bool := c = ' ' || c = '\t'

def isSpecial (c : Char) : Bool :=
  isBlank c || c = '\n' || c = ';' || c = '&' || c = '|' || c = '<' || c = '>' || c = '(' || c = ')'

def isNameStart (c : Char) : Bool := c.isAlpha || c = '_'

def isNamePart (c : Char) : Bool := c.isAlphanum || c = '_'

def isSpecialName (c : Char) : Bool :=
  c.isDigit || c = '@' || c = '*' || c = '#' || c = '?' || c = '$' || c = '!' || c = '-'

/-- The text up to the bracket that closes one already open, and what follows it. -/
def closeBracket : Nat → List Char → List Char × List Char
  | _, [] => ([], [])
  | depth, c :: cs =>
    if c = ')' then
      match depth with
      | 0 => ([], cs)
      | depth + 1 =>
        let (inner, rest) := closeBracket depth cs
        (c :: inner, rest)
    else
      let (inner, rest) := closeBracket (if c = '(' then depth + 1 else depth) cs
      (c :: inner, rest)

/-- What a dollar sign begins; a lone one stands for itself. -/
def expansion (quoted : Bool) (cs : List Char) : Piece × List Char :=
  match cs with
  | '(' :: rest =>
    let (script, rest) := closeBracket 0 rest
    match script with
    | '(' :: inner =>
      if inner.getLast? = some ')' then (.arithmetic inner.dropLast quoted, rest)
      else (.substitution script quoted, rest)
    | _ => (.substitution script quoted, rest)
  | '\x7b' :: rest =>
    (.parameter (rest.takeWhile (· ≠ '\x7d')) quoted, (rest.dropWhile (· ≠ '\x7d')).drop 1)
  | c :: rest =>
    if isNameStart c then
      (.parameter (cs.takeWhile isNamePart) quoted, cs.dropWhile isNamePart)
    else if isSpecialName c then (.parameter [c] quoted, rest)
    else (.text ['$'] quoted, cs)
  | [] => (.text ['$'] quoted, [])

/-- Whether every quotation of a text ends in it; `quote` is the one that is open. -/
def quotationsEnd (quote : Option Char) : List Char → Bool
  | [] => quote.isNone
  | c :: cs =>
    if quote = some c then quotationsEnd none cs
    else if c = '\\' ∧ quote ≠ some '\'' then
      match cs with
      | _ :: cs => quotationsEnd quote cs
      | [] => quote.isNone
    else if quote.isNone ∧ (c = '\'' ∨ c = '"') then quotationsEnd (some c) cs
    else quotationsEnd quote cs

/-- Characters that a backslash protects between double quotes. -/
def isProtected (c : Char) : Bool := c = '$' || c = '"' || c = '\\' || c = '\x60'

/-- Reads what stands between double quotes, from behind the first one. -/
def doubleQuoted : Nat → List Char → Word × List Char
  | 0, cs => ([], cs)
  | _ + 1, [] => ([], [])
  | fuel + 1, c :: cs =>
    if c = '"' then ([], cs)
    else
      let (piece, rest) : Piece × List Char :=
        if c = '\\' then
          match cs with
          | d :: rest =>
            if isProtected d then (.text [d] true, rest)
            else if d = '\n' then (.text [] true, rest)
            else (.text ['\\', d] true, rest)
          | [] => (.text ['\\'] true, [])
        else if c = '$' then expansion true cs
        else if c = '\x60' then
          (.substitution (cs.takeWhile (· ≠ '\x60')) true, (cs.dropWhile (· ≠ '\x60')).drop 1)
        else (.text [c] true, cs)
      let (pieces, rest) := doubleQuoted fuel rest
      (piece :: pieces, rest)

def scanWord : Nat → List Char → Word × List Char
  | 0, cs => ([], cs)
  | _ + 1, [] => ([], [])
  | fuel + 1, c :: cs =>
    if isSpecial c then ([], c :: cs)
    else
      let (first, rest) : Word × List Char :=
        if c = '\'' then
          ([.text (cs.takeWhile (· ≠ '\'')) true], (cs.dropWhile (· ≠ '\'')).drop 1)
        else if c = '"' then
          let (pieces, rest) := doubleQuoted fuel cs
          (if pieces.isEmpty then [.text [] true] else pieces, rest)
        else if c = '\\' then
          match cs with
          | d :: rest => if d = '\n' then ([], rest) else ([.text [d] true], rest)
          | [] => ([.text ['\\'] true], [])
        else if c = '$' then
          let (piece, rest) := expansion false cs
          ([piece], rest)
        else if c = '\x60' then
          ([.substitution (cs.takeWhile (· ≠ '\x60')) false], (cs.dropWhile (· ≠ '\x60')).drop 1)
        else ([.text [c] false], cs)
      let (pieces, rest) := scanWord fuel rest
      (first ++ pieces, rest)

/-- Operators and redirections of more than one character come before their first character. -/
def operators : List (List Char) :=
  ["&&", "||", ";;", "\n", ";", "&", "|", "(", ")"].map String.toList

def redirections : List (List Char) := [">&", "<&", ">>", ">", "<"].map String.toList

def descriptor? (w : Word) : Option Nat :=
  match w with
  | [.text [c] false] => if c.isDigit then some (c.toNat - '0'.toNat) else none
  | _ => none

def scan : Nat → List Char → List Token
  | 0, _ => []
  | _ + 1, [] => []
  | fuel + 1, c :: cs =>
    if isBlank c then scan fuel cs
    else if c = '#' then scan fuel (cs.dropWhile (· ≠ '\n'))
    else
      match redirections.find? fun r => r.isPrefixOf (c :: cs) with
      | some r => .redirection none r :: scan fuel ((c :: cs).drop r.length)
      | none =>
        match operators.find? fun o => o.isPrefixOf (c :: cs) with
        | some o => .operator o :: scan fuel ((c :: cs).drop o.length)
        | none =>
          let (w, rest) := scanWord (cs.length + 1) (c :: cs)
          match descriptor? w, redirections.find? fun r => r.isPrefixOf rest with
          | some n, some r => .redirection (some n) r :: scan fuel (rest.drop r.length)
          | _, _ => .word w :: scan fuel rest

/-- A token takes at least one character. -/
def ofChars (cs : List Char) : List Token := scan (cs.length + 1) cs

end Token
end NodeHarness.Shell
