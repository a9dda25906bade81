/-! Natural numbers as decimal text. The reader takes an optional plus sign and one or more
ASCII digits, leading zeros included, and refuses a number that is not below its bound. -/
namespace NodeHarness.Text.Decimal

inductive Fault
  | empty
  | invalidDigit
  | tooLarge
  deriving DecidableEq

def Fault.message : Fault → String
  | .empty => "cannot parse integer from empty string"
  | .invalidDigit => "invalid digit found in string"
  | .tooLarge => "number too large to fit in target type"

def digitValue (c : Char) : Nat := c.toNat - '0'.toNat

/-- One more digit on the right of `n`. -/
def push (bound n : Nat) (c : Char) : Except Fault Nat :=
  if c.isDigit then
    let next := n * 10 + digitValue c
    if next < bound then .ok next else .error .tooLarge
  else .error .invalidDigit

def readDigits (bound : Nat) : Nat → List Char → Except Fault Nat
  | n, [] => .ok n
  | n, c :: cs =>
    match push bound n c with
    | .ok next => readDigits bound next cs
    | .error fault => .error fault

def readBelow (bound : Nat) (cs : List Char) : Except Fault Nat :=
  match cs with
  | [] => .error .empty
  | ['+'] => .error .invalidDigit
  | '+' :: rest => readDigits bound 0 rest
  | cs => readDigits bound 0 cs

/-- How many numbers a word of 64 bits tells apart. -/
def words64 : Nat := 1 <<< 64

def words128 : Nat := 1 <<< 128

def read64 (s : String) : Except Fault Nat := readBelow words64 s.toList

def read128 (s : String) : Except Fault Nat := readBelow words128 s.toList

/-- The digits of `n` without leading zeros. -/
def digits (n : Nat) : List Char := Nat.toDigits 10 n

def text (n : Nat) : String := String.ofList (digits n)

def signedText (i : Int) : String :=
  match i with
  | .ofNat n => text n
  | .negSucc n => "-" ++ text (n + 1)

end NodeHarness.Text.Decimal
