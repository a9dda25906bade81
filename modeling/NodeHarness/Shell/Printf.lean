/-! Formatted output of the shell: escapes with a backslash, and conversions that each take one
argument. A format is used again while arguments are left. -/
namespace NodeHarness.Shell.Printf

def octalValue (cs : List Char) : Nat := cs.foldl (fun n c => n * 8 + (c.toNat - '0'.toNat)) 0

def isOctal (c : Char) : Bool := '0' ≤ c && c ≤ '7'

/-- The byte of an octal escape of at most `limit` digits, and the text behind it. -/
def octal (limit : Nat) (cs : List Char) : Char × List Char :=
  let digits := (cs.takeWhile isOctal).take limit
  (Char.ofNat (octalValue digits % 256), cs.drop digits.length)

def short? (c : Char) : Option Char :=
  match c with
  | 'a' => some '\x07'
  | 'b' => some '\x08'
  | 'f' => some '\x0c'
  | 'n' => some '\n'
  | 'r' => some '\r'
  | 't' => some '\t'
  | 'v' => some '\x0b'
  | '\\' => some '\\'
  | _ => none

/-- Replaces the escapes of an argument. The second part is true when an escape ends all output. -/
def unescape : Nat → List Char → List Char × Bool
  | 0, _ => ([], false)
  | _ + 1, [] => ([], false)
  | fuel + 1, '\\' :: c :: rest =>
    if c = 'c' then ([], true)
    else
      let (first, rest) : List Char × List Char :=
        if c = '0' then
          let (byte, rest) := octal 3 rest
          ([byte], rest)
        else match short? c with
          | some byte => ([byte], rest)
          | none => (['\\', c], rest)
      let (later, stop) := unescape fuel rest
      (first ++ later, stop)
  | fuel + 1, c :: rest =>
    let (later, stop) := unescape fuel rest
    (c :: later, stop)

/-- Flags, width and precision of a conversion. -/
structure Conversion where
  flags : List Char
  width : Nat
  precision : Option Nat

def isFlag (c : Char) : Bool := c = '-' || c = '0' || c = '+' || c = ' ' || c = '#'

def Conversion.read (cs : List Char) : Conversion × List Char :=
  let flags := cs.takeWhile isFlag
  let cs := cs.dropWhile isFlag
  let width := Nat.ofDigitChars 10 (cs.takeWhile Char.isDigit) 0
  match cs.dropWhile Char.isDigit with
  | '.' :: cs =>
    (⟨flags, width, some (Nat.ofDigitChars 10 (cs.takeWhile Char.isDigit) 0)⟩,
      cs.dropWhile Char.isDigit)
  | cs => (⟨flags, width, none⟩, cs)

/-- Fills a text up to its width; zeros come behind the sign. -/
def Conversion.pad (c : Conversion) (zeros : Bool) (sign body : List Char) : List Char :=
  let missing := c.width - (sign.length + body.length)
  if c.flags.contains '-' then sign ++ body ++ List.replicate missing ' '
  else if zeros ∧ c.flags.contains '0' ∧ c.precision.isNone then
    sign ++ List.replicate missing '0' ++ body
  else List.replicate missing ' ' ++ sign ++ body

def integerOf (cs : List Char) : Int :=
  match cs with
  | '\'' :: c :: _ => c.toNat
  | '"' :: c :: _ => c.toNat
  | '-' :: cs => -(Nat.ofDigitChars 10 (cs.takeWhile Char.isDigit) 0 : Int)
  | '+' :: cs => Nat.ofDigitChars 10 (cs.takeWhile Char.isDigit) 0
  | cs => Nat.ofDigitChars 10 (cs.takeWhile Char.isDigit) 0

def Conversion.integer (c : Conversion) (base : Nat) (upper : Bool) (i : Int) : List Char :=
  let digits := Nat.toDigits base i.natAbs
  let digits := if upper then digits.map Char.toUpper else digits
  let digits := List.replicate (c.precision.getD 0 - digits.length) '0' ++ digits
  let sign := if i < 0 then ['-']
    else if c.flags.contains '+' then ['+']
    else if c.flags.contains ' ' then [' ']
    else []
  c.pad true sign digits

/-- One use of a format: the text, the arguments that are left, and whether output ends here. -/
def pass : Nat → List Char → List (List Char) → List Char × List (List Char) × Bool
  | 0, _, arguments => ([], arguments, false)
  | _ + 1, [], arguments => ([], arguments, false)
  | fuel + 1, '%' :: '%' :: rest, arguments =>
    let (later, left, stop) := pass fuel rest arguments
    ('%' :: later, left, stop)
  | fuel + 1, '%' :: rest, arguments =>
    let (c, rest) := Conversion.read rest
    let argument := arguments.head?.getD []
    let (text, stop) : List Char × Bool := match rest.head? with
      | some 's' => (c.pad false [] (argument.take (c.precision.getD argument.length)), false)
      | some 'c' => (c.pad false [] (argument.take 1), false)
      | some 'b' =>
        let (text, stop) := unescape (argument.length + 1) argument
        (c.pad false [] text, stop)
      | some 'x' => (c.integer 16 false (integerOf argument), false)
      | some 'X' => (c.integer 16 true (integerOf argument), false)
      | some 'o' => (c.integer 8 false (integerOf argument), false)
      | some _ => (c.integer 10 false (integerOf argument), false)
      | none => (['%'], false)
    if stop then (text, [], true)
    else
      let (later, left, stop) := pass fuel rest.tail arguments.tail
      (text ++ later, left, stop)
  | fuel + 1, '\\' :: c :: rest, arguments =>
    if c = 'c' then ([], [], true)
    else
      let (first, rest) : List Char × List Char :=
        if isOctal c then
          let (byte, rest) := octal 3 (c :: rest)
          ([byte], rest)
        else match short? c with
          | some byte => ([byte], rest)
          | none => if c = '"' then (['"'], rest) else (['\\', c], rest)
      let (later, left, stop) := pass fuel rest arguments
      (first ++ later, left, stop)
  | fuel + 1, c :: rest, arguments =>
    let (later, left, stop) := pass fuel rest arguments
    (c :: later, left, stop)

/-- Uses a format until no argument is left; one that takes no argument is used once. -/
def format : Nat → List Char → List (List Char) → List Char
  | 0, _, _ => []
  | fuel + 1, template, arguments =>
    let (text, left, stop) := pass (template.length + 1) template arguments
    if stop ∨ left.isEmpty ∨ left.length = arguments.length then text
    else text ++ format fuel template left

end NodeHarness.Shell.Printf
