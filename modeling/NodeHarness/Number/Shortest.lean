import NodeHarness.Number.Binary

/-! The shortest decimal text that reads back as a given binary number. Of all decimals with the
fewest digits in the interval of values that round to the number, the nearest one is taken, and of
two nearest ones the one with an even last digit. -/
namespace NodeHarness.Number

/-- The values that round to a word, as a ratio over `den`; the ends belong to it when closed. -/
structure Interval where
  low : Nat
  mid : Nat
  high : Nat
  den : Nat
  closed : Bool

def BinaryFormat.interval (f : BinaryFormat) (word : Nat) : Interval :=
  let m := f.significand word
  let below := if m = 1 <<< (f.precision - 1) ∧ 0 < f.shift word then 1 else 2
  ⟨(4 * m - below) <<< f.shift word, (4 * m) <<< f.shift word, (4 * m + 2) <<< f.shift word,
    4 <<< f.unit, m % 2 == 0⟩

def Interval.holds (i : Interval) (digits : Nat) (exponent : Int) : Bool :=
  let (n, low, high) := match exponent with
    | .ofNat e => (digits * Nat.pow 10 e * i.den, i.low, i.high)
    | .negSucc e => (digits * i.den, i.low * Nat.pow 10 (e + 1), i.high * Nat.pow 10 (e + 1))
  if i.closed then low ≤ n && n ≤ high else low < n && n < high

def digitCount (n : Nat) : Nat := (Text.Decimal.digits n).length

def leadingExponent (n d : Nat) : Int :=
  if d ≤ n then digitCount (n / d) - 1 else -(digitCount ((d - 1) / n) : Int)

/-- The two neighbours of the ratio on the grid of `10 ^ exponent`, the nearer one first, and of
two that are equally near the even one. -/
def gridNeighbours (n d : Nat) (exponent : Int) : Nat × Nat :=
  let (n, d) := match exponent with
    | .ofNat e => (n, d * Nat.pow 10 e)
    | .negSucc e => (n * Nat.pow 10 (e + 1), d)
  let floor := n / d
  if 2 * (n % d) < d ∨ 2 * (n % d) = d ∧ floor % 2 = 0 then (floor, floor + 1)
  else (floor + 1, floor)

/-- Tries `count` more grids, each ten times as fine as the one before it. -/
def Interval.search (i : Interval) : Nat → Int → Nat × Int
  | 0, exponent => ((gridNeighbours i.mid i.den exponent).1, exponent)
  | count + 1, exponent =>
    let (near, far) := gridNeighbours i.mid i.den exponent
    if i.holds near exponent then (near, exponent)
    else if i.holds far exponent then (far, exponent)
    else i.search count (exponent - 1)

/-- Digits and exponent of the shortest decimal for a positive finite word. -/
def BinaryFormat.shortest (f : BinaryFormat) (word : Nat) : Nat × Int :=
  let i := f.interval word
  i.search 17 (leadingExponent i.mid i.den)

/-- Which exponents of the leading digit are written without an exponent. -/
structure Positional where
  smallest : Int
  largest : Int

/-- Digits without trailing zeros, and the exponent of the leading digit. -/
def normalDigits (digits : Nat) (exponent : Int) : List Char × Int :=
  let cs := Text.Decimal.digits digits
  (dropZeros cs, exponent + cs.length - 1)
where
  dropZeros (cs : List Char) : List Char := (cs.reverse.dropWhile (· = '0')).reverse

def writeDigits (p : Positional) (cs : List Char) (exponent : Int) : List Char :=
  if p.smallest ≤ exponent ∧ exponent ≤ p.largest then
    if exponent < 0 then
      ['0', '.'] ++ List.replicate (-exponent - 1).toNat '0' ++ cs
    else
      let whole := exponent.toNat + 1
      if cs.length ≤ whole then cs ++ List.replicate (whole - cs.length) '0' ++ ['.', '0']
      else cs.take whole ++ ['.'] ++ cs.drop whole
  else
    let mantissa := match cs with
      | [c] => [c]
      | c :: rest => c :: '.' :: rest
      | [] => []
    let sign := if exponent < 0 then '-' else '+'
    mantissa ++ ['e', sign] ++ Text.Decimal.digits exponent.natAbs

def Floating.chars? (f : BinaryFormat) (p : Positional) (x : Floating) : Option (List Char) :=
  if f.infinity ≤ x.word then none
  else
    let sign := if x.negative then ['-'] else []
    if x.word = 0 then some (sign ++ ['0', '.', '0'])
    else
      let (digits, exponent) := f.shortest x.word
      let (cs, leading) := normalDigits digits exponent
      some (sign ++ writeDigits p cs leading)

/-- Double precision is positional from `0.00001` up to sixteen whole digits. -/
def Positional.binary64 : Positional := ⟨-5, 15⟩

/-- Single precision is positional from `0.000001` up to thirteen whole digits. -/
def Positional.binary32 : Positional := ⟨-6, 12⟩

end NodeHarness.Number
