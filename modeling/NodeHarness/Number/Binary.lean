import NodeHarness.Text.Decimal

/-! Binary floating-point numbers as sign and magnitude word, with rounding to nearest and ties
to the even word. All arithmetic is on natural numbers: a ratio is rounded once, exactly. -/
namespace NodeHarness.Number

/-- A format with `precision` significand bits, the leading one included. -/
structure BinaryFormat where
  precision : Nat
  exponentBits : Nat

def BinaryFormat.binary32 : BinaryFormat := ⟨24, 8⟩

def BinaryFormat.binary64 : BinaryFormat := ⟨53, 11⟩

namespace BinaryFormat

/-- The smallest positive number is `2 ^ -unit`. -/
def unit (f : BinaryFormat) : Nat := 1 <<< (f.exponentBits - 1) - 3 + f.precision

/-- Words from this one on do not stand for finite numbers. -/
def infinity (f : BinaryFormat) : Nat := (1 <<< f.exponentBits - 1) <<< (f.precision - 1)

def significand (f : BinaryFormat) (word : Nat) : Nat :=
  let half := 1 <<< (f.precision - 1)
  if word < half then word else half + word % half

def shift (f : BinaryFormat) (word : Nat) : Nat := word >>> (f.precision - 1) - 1

def scaled (f : BinaryFormat) (word : Nat) : Nat := f.significand word <<< f.shift word

/-- The quotient to the nearest natural number, a half going to the even neighbour. -/
def roundDiv (n d : Nat) : Nat :=
  let q := n / d
  let r := n % d
  if 2 * r < d then q
  else if d < 2 * r then q + 1
  else if q % 2 = 0 then q else q + 1

/-- The word nearest to `n / d` multiples of the smallest positive number. -/
def nearestScaled (f : BinaryFormat) (n d : Nat) : Nat :=
  let shift := (n / d).log2 - (f.precision - 1)
  let word := shift <<< (f.precision - 1) + roundDiv n (d <<< shift)
  min word f.infinity

def nearest (f : BinaryFormat) (n d : Nat) : Nat := f.nearestScaled (n <<< f.unit) d

def mul (f : BinaryFormat) (a b : Nat) : Nat :=
  f.nearestScaled (f.scaled a * f.scaled b) (1 <<< f.unit)

def div (f : BinaryFormat) (a b : Nat) : Nat :=
  f.nearestScaled (f.scaled a <<< f.unit) (f.scaled b)

/-- The word nearest to `digits * 10 ^ exponent`. -/
def nearestDecimal (f : BinaryFormat) (digits : Nat) (exponent : Int) : Nat :=
  match exponent with
  | .ofNat e => f.nearest (digits * Nat.pow 10 e) 1
  | .negSucc e => f.nearest digits (Nat.pow 10 (e + 1))

end BinaryFormat

/-- A number of a binary format: never a NaN; the word may be the format's infinity. -/
structure Floating where
  negative : Bool
  word : Nat
  deriving DecidableEq

namespace Floating

/-- Both zeros are one number. -/
def same (a b : Floating) : Bool :=
  a.word == b.word && (a.negative == b.negative || a.word == 0)

def widen (x : Floating) (source target : BinaryFormat) : Floating :=
  if source.infinity ≤ x.word then ⟨x.negative, target.infinity⟩
  else ⟨x.negative, target.nearest (source.scaled x.word) (1 <<< source.unit)⟩

def takeDecimal (cs : List Char) : List Char × List Char × List Char :=
  let whole := cs.takeWhile Char.isDigit
  match cs.dropWhile Char.isDigit with
  | '.' :: rest => (whole, rest.takeWhile Char.isDigit, rest.dropWhile Char.isDigit)
  | rest => (whole, [], rest)

def takeExponent : List Char → Option Int
  | [] => some 0
  | c :: cs =>
    if c = 'e' ∨ c = 'E' then
      let (negative, digits) := match cs with
        | '-' :: rest => (true, rest)
        | '+' :: rest => (false, rest)
        | rest => (false, rest)
      if digits ≠ [] ∧ digits.all Char.isDigit then
        let n := Nat.ofDigitChars 10 digits 0
        some (if negative then -(n : Int) else n)
      else none
    else none

/-- Exponents beyond this one give zero or infinity for every text of ordinary length. -/
def exponentLimit : Int := 100000

/-- Reads an unsigned decimal text and rounds it once. -/
def wordOfText? (f : BinaryFormat) (cs : List Char) : Option Nat :=
  let folded := cs.map Char.toLower
  if folded = ['i', 'n', 'f'] ∨ folded = ['i', 'n', 'f', 'i', 'n', 'i', 't', 'y'] then
    some f.infinity
  else
    let (whole, part, rest) := takeDecimal cs
    if whole = [] ∧ part = [] then none
    else (takeExponent rest).map fun exponent =>
      let digits := Nat.ofDigitChars 10 (whole ++ part) 0
      let exponent := max (-exponentLimit) (min exponent exponentLimit)
      if digits = 0 then 0 else f.nearestDecimal digits (exponent - part.length)

/-- A text that names no number gives `none` inside; one that is no number text gives `none`. -/
def ofText? (f : BinaryFormat) (s : String) : Option (Option Floating) :=
  let (negative, cs) := match s.toList with
    | '-' :: rest => (true, rest)
    | '+' :: rest => (false, rest)
    | cs => (false, cs)
  if cs.map Char.toLower = ['n', 'a', 'n'] then some none
  else (wordOfText? f cs).map fun word => some ⟨negative, word⟩

end Floating
end NodeHarness.Number
