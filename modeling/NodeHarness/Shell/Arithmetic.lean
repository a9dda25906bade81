import NodeHarness.Shell.Token

/-! Arithmetic in shell words. An expression has decimal integers, parameters, brackets, and
operators in levels; all operators of a level group to the left. Results are integers of 64 bits
that wrap around. -/
namespace NodeHarness.Shell.Arithmetic

/-- The operators that take two operands, from the loosest level to the tightest. -/
def levels : List (List String) :=
  [["||"], ["&&"], ["==", "!="], ["<=", ">=", "<", ">"], ["+", "-"], ["*", "/", "%"]]

def truth (b : Bool) : Int := if b then 1 else 0

def wrap (i : Int) : Int := i.bmod (1 <<< 64)

/-- Applies an operator. Division goes toward zero, and nothing is divided by zero. -/
def combine? (operator : String) (a b : Int) : Option Int :=
  match operator with
  | "||" => some (truth (a != 0 || b != 0))
  | "&&" => some (truth (a != 0 && b != 0))
  | "==" => some (truth (a == b))
  | "!=" => some (truth (a != b))
  | "<=" => some (truth (a ≤ b))
  | ">=" => some (truth (b ≤ a))
  | "<" => some (truth (a < b))
  | ">" => some (truth (b < a))
  | "+" => some (wrap (a + b))
  | "-" => some (wrap (a - b))
  | "*" => some (wrap (a * b))
  | "/" => if b = 0 then none else some (wrap (a.tdiv b))
  | "%" => if b = 0 then none else some (wrap (a.tmod b))
  | _ => none

def skipSpace (cs : List Char) : List Char := cs.dropWhile fun c => Token.isBlank c || c = '\n'

/-- The operator of a level at the front of a text. -/
def operator? (level : List String) (cs : List Char) : Option String :=
  level.find? fun operator => operator.toList.isPrefixOf cs

/-- The integer that a parameter holds; one that holds none counts as zero. -/
def integerOf (cs : List Char) : Int :=
  match skipSpace cs with
  | '-' :: digits => -(Nat.ofDigitChars 10 (digits.takeWhile Char.isDigit) 0 : Int)
  | digits => Nat.ofDigitChars 10 (digits.takeWhile Char.isDigit) 0

/-- The name of a parameter at the front of a text, with or without a dollar sign. -/
def parameter? (cs : List Char) : Option (List Char × List Char) :=
  match cs with
  | '$' :: '\x7b' :: rest =>
    some (rest.takeWhile (· ≠ '\x7d'), (rest.dropWhile (· ≠ '\x7d')).drop 1)
  | '$' :: c :: rest =>
    if Token.isNameStart c then
      some ((c :: rest).takeWhile Token.isNamePart, (c :: rest).dropWhile Token.isNamePart)
    else if Token.isSpecialName c then some ([c], rest)
    else none
  | c :: rest =>
    if Token.isNameStart c then
      some ((c :: rest).takeWhile Token.isNamePart, (c :: rest).dropWhile Token.isNamePart)
    else none
  | [] => none

mutual

/-- Reads an expression whose operators belong to the given levels. -/
def read (value : List Char → List Char) :
    Nat → List (List String) → List Char → Option (Int × List Char)
  | 0, _, _ => none
  | fuel + 1, [], cs =>
    match skipSpace cs with
    | '(' :: rest => do
      let (n, rest) ← read value fuel levels rest
      match skipSpace rest with
      | ')' :: rest => return (n, rest)
      | _ => none
    | '-' :: rest => (read value fuel [] rest).map fun (n, rest) => (wrap (-n), rest)
    | '+' :: rest => read value fuel [] rest
    | '!' :: rest => (read value fuel [] rest).map fun (n, rest) => (truth (n == 0), rest)
    | cs =>
      match parameter? cs with
      | some (name, rest) => some (integerOf (value name), rest)
      | none =>
        let digits := cs.takeWhile Char.isDigit
        if digits.isEmpty then none
        else some (wrap (Nat.ofDigitChars 10 digits 0), cs.dropWhile Char.isDigit)
  | fuel + 1, level :: tighter, cs => do
    let (n, rest) ← read value fuel tighter cs
    extend value fuel level tighter n rest

/-- Goes on behind an operand as long as operators of the level follow. -/
def extend (value : List Char → List Char) :
    Nat → List String → List (List String) → Int → List Char → Option (Int × List Char)
  | 0, _, _, _, _ => none
  | fuel + 1, level, tighter, n, cs =>
    let cs := skipSpace cs
    match operator? level cs with
    | none => some (n, cs)
    | some operator => do
      let (m, rest) ← read value fuel tighter (cs.drop operator.length)
      extend value fuel level tighter (← combine? operator n m) rest

end

/-- The value of an expression; `value` gives the text that a parameter holds. Every character
costs at most one step for each level. -/
def evaluate? (value : List Char → List Char) (cs : List Char) : Option Int :=
  match read value (8 * (cs.length + 1)) levels cs with
  | some (n, rest) => if (skipSpace rest).isEmpty then some n else none
  | none => none

end NodeHarness.Shell.Arithmetic
