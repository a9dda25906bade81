import NodeHarness.Json.Fault

/-! The outline of a text: its structure as JSON up to the place where it stops being JSON, with
quoted texts and numbers kept as written. Every reader works on the outline, so the first fault
in the order of the text decides, whether it lies in the text or in the shape of the value.
Some faults depend on whether a part is read or only passed over; the outline keeps enough to
tell them apart. -/
namespace NodeHarness.Json

inductive TextEnd
  | closed
  | endOfInput
  | badEscape
  | badHex
  | control
  deriving DecidableEq

/-- The bytes between the quotes; every escape among them is complete. -/
structure QuotedText where
  raw : List UInt8
  finish : TextEnd
  deriving DecidableEq

inductive NumberEnd
  | complete
  | endOfInput
  | malformed
  deriving DecidableEq

/-- A number as written; `finish` tells whether the last part is whole. -/
structure NumberText where
  negative : Bool
  whole : List Nat
  fraction : Option (List Nat)
  exponent : Option (Bool × List Nat)
  finish : NumberEnd
  deriving DecidableEq

inductive ListEnd
  | closed
  | endOfInput
  | badSeparator
  | trailingComma
  | endAfterComma
  deriving DecidableEq

/-- `nameNotText` keeps the bytes that stand where the first name was expected. -/
inductive ObjectEnd
  | closed
  | endOfInput
  | badSeparator
  | nameNotText (rest : List UInt8)
  | trailingComma
  | endAfterComma
  | otherAfterComma
  deriving DecidableEq

/-- In a list or object that breaks off inside its last part, `finish` is not looked at. -/
inductive Outline
  | null
  | bool (b : Bool)
  | number (n : NumberText)
  | text (t : QuotedText)
  | list (items : List Outline) (finish : ListEnd)
  | object (members : List (QuotedText × Outline)) (finish : ObjectEnd)
  | broken (fault : Fault)

instance : Inhabited Outline := ⟨.null⟩

def isSpace (b : UInt8) : Bool := b = 0x20 || b = 0x0a || b = 0x09 || b = 0x0d

def skipSpace (bytes : List UInt8) : List UInt8 := bytes.dropWhile isSpace

def isDigitByte (b : UInt8) : Bool := 0x30 ≤ b && b ≤ 0x39

def hexValue? (b : UInt8) : Option Nat :=
  if 0x30 ≤ b && b ≤ 0x39 then some (b.toNat - 0x30)
  else if 0x61 ≤ b && b ≤ 0x66 then some (b.toNat - 0x57)
  else if 0x41 ≤ b && b ≤ 0x46 then some (b.toNat - 0x37)
  else none

def hex4? (a b c d : UInt8) : Option Nat := do
  let a ← hexValue? a
  let b ← hexValue? b
  let c ← hexValue? c
  let d ← hexValue? d
  return ((a * 16 + b) * 16 + c) * 16 + d

def shortEscape? (b : UInt8) : Option UInt8 :=
  if b = 0x22 then some 0x22
  else if b = 0x5c then some 0x5c
  else if b = 0x2f then some 0x2f
  else if b = 0x62 then some 0x08
  else if b = 0x66 then some 0x0c
  else if b = 0x6e then some 0x0a
  else if b = 0x72 then some 0x0d
  else if b = 0x74 then some 0x09
  else none

/-- Scans from behind the opening quote; `seen` holds the bytes so far, latest first. The second
part is the input behind the closing quote. -/
def scanText (seen : List UInt8) : List UInt8 → QuotedText × Option (List UInt8)
  | [] => (⟨seen.reverse, .endOfInput⟩, none)
  | 0x5c :: 0x75 :: a :: b :: c :: d :: rest =>
    if (hex4? a b c d).isSome then scanText (d :: c :: b :: a :: 0x75 :: 0x5c :: seen) rest
    else (⟨seen.reverse, .badHex⟩, none)
  | 0x5c :: e :: rest =>
    if e = 0x75 then (⟨seen.reverse, .endOfInput⟩, none)
    else if (shortEscape? e).isSome then scanText (e :: 0x5c :: seen) rest
    else (⟨seen.reverse, .badEscape⟩, none)
  | b :: rest =>
    if b = 0x22 then (⟨seen.reverse, .closed⟩, some rest)
    else if b = 0x5c then (⟨seen.reverse, .endOfInput⟩, none)
    else if b < 0x20 then (⟨seen.reverse, .control⟩, none)
    else scanText (b :: seen) rest

def takeDigits (bytes : List UInt8) : List Nat × List UInt8 :=
  ((bytes.takeWhile isDigitByte).map fun b => b.toNat - 0x30, bytes.dropWhile isDigitByte)

def brokenNumber (n : NumberText) (rest : List UInt8) : NumberText × Option (List UInt8) :=
  (⟨n.negative, n.whole, n.fraction, n.exponent, if rest = [] then .endOfInput else .malformed⟩,
    none)

def scanExponent (n : NumberText) (bytes : List UInt8) : NumberText × Option (List UInt8) :=
  match bytes with
  | [] => (n, some [])
  | e :: rest =>
    if e = 0x65 ∨ e = 0x45 then
      let (below, rest) := match rest with
        | 0x2b :: rest => (false, rest)
        | 0x2d :: rest => (true, rest)
        | rest => (false, rest)
      let (digits, after) := takeDigits rest
      let n := ⟨n.negative, n.whole, n.fraction, some (below, digits), .complete⟩
      if digits = [] then brokenNumber n rest else (n, some after)
    else (n, some (e :: rest))

def scanFraction (n : NumberText) (bytes : List UInt8) : NumberText × Option (List UInt8) :=
  match bytes with
  | 0x2e :: rest =>
    let (digits, after) := takeDigits rest
    let n := ⟨n.negative, n.whole, some digits, none, .complete⟩
    if digits = [] then brokenNumber n rest else scanExponent n after
  | bytes => scanExponent n bytes

/-- Scans from behind the sign. A leading zero stands alone. -/
def scanNumber (negative : Bool) (bytes : List UInt8) : NumberText × Option (List UInt8) :=
  let (digits, after) := takeDigits bytes
  match digits with
  | [] => brokenNumber ⟨negative, [], none, none, .complete⟩ bytes
  | 0 :: _ :: _ => (⟨negative, [0], none, none, .malformed⟩, none)
  | digits => scanFraction ⟨negative, digits, none, none, .complete⟩ after

def scanWord (value : Outline) : List UInt8 → List UInt8 → Outline × Option (List UInt8)
  | [], rest => (value, some rest)
  | _ :: _, [] => (.broken .endInValue, none)
  | expected :: word, b :: rest =>
    if b = expected then scanWord value word rest else (.broken .expectedWord, none)

mutual

/-- The outline of the value at the front of the input, and the input behind it unless the
text stops being JSON before its end. -/
def scanValue : Nat → List UInt8 → Outline × Option (List UInt8)
  | 0, _ => (.broken .endInValue, none)
  | fuel + 1, bytes =>
    match skipSpace bytes with
    | [] => (.broken .endInValue, none)
    | b :: rest =>
      if b = 0x6e then scanWord .null [0x75, 0x6c, 0x6c] rest
      else if b = 0x74 then scanWord (.bool true) [0x72, 0x75, 0x65] rest
      else if b = 0x66 then scanWord (.bool false) [0x61, 0x6c, 0x73, 0x65] rest
      else if b = 0x2d then
        let (n, after) := scanNumber true rest
        (.number n, after)
      else if isDigitByte b then
        let (n, after) := scanNumber false (b :: rest)
        (.number n, after)
      else if b = 0x22 then
        let (t, after) := scanText [] rest
        (.text t, after)
      else if b = 0x5b then
        match skipSpace rest with
        | [] => (.list [] .endOfInput, none)
        | 0x5d :: after => (.list [] .closed, some after)
        | rest =>
          let (items, finish, after) := scanItems fuel rest
          (.list items finish, after)
      else if b = 0x7b then
        match skipSpace rest with
        | [] => (.object [] .endOfInput, none)
        | 0x7d :: after => (.object [] .closed, some after)
        | 0x22 :: rest =>
          let (members, finish, after) := scanMembers fuel rest
          (.object members finish, after)
        | rest => (.object [] (.nameNotText rest), none)
      else (.broken .expectedValue, none)

def scanItems : Nat → List UInt8 → List Outline × ListEnd × Option (List UInt8)
  | 0, _ => ([.broken .endInValue], .endOfInput, none)
  | fuel + 1, bytes =>
    match scanValue fuel bytes with
    | (item, none) => ([item], .endOfInput, none)
    | (item, some rest) =>
      match skipSpace rest with
      | [] => ([item], .endOfInput, none)
      | 0x5d :: after => ([item], .closed, some after)
      | 0x2c :: rest =>
        match skipSpace rest with
        | [] => ([item], .endAfterComma, none)
        | 0x5d :: _ => ([item], .trailingComma, none)
        | rest =>
          let (items, finish, after) := scanItems fuel rest
          (item :: items, finish, after)
      | _ => ([item], .badSeparator, none)

def scanMembers : Nat → List UInt8 →
    List (QuotedText × Outline) × ObjectEnd × Option (List UInt8)
  | 0, _ => ([], .endOfInput, none)
  | fuel + 1, bytes =>
    match scanText [] bytes with
    | (name, none) => ([(name, .broken .endInText)], .endOfInput, none)
    | (name, some rest) =>
      match skipSpace rest with
      | [] => ([(name, .broken .endInObject)], .endOfInput, none)
      | 0x3a :: rest =>
        match scanValue fuel rest with
        | (value, none) => ([(name, value)], .endOfInput, none)
        | (value, some rest) =>
          match skipSpace rest with
          | [] => ([(name, value)], .endOfInput, none)
          | 0x7d :: after => ([(name, value)], .closed, some after)
          | 0x2c :: rest =>
            match skipSpace rest with
            | [] => ([(name, value)], .endAfterComma, none)
            | 0x7d :: _ => ([(name, value)], .trailingComma, none)
            | 0x22 :: rest =>
              let (members, finish, after) := scanMembers fuel rest
              ((name, value) :: members, finish, after)
            | _ => ([(name, value)], .otherAfterComma, none)
          | _ => ([(name, value)], .badSeparator, none)
      | _ => ([(name, .broken .expectedColon)], .endOfInput, none)

end

/-- The outline of a whole text; `clean` when only space follows the value. -/
structure Document where
  root : Outline
  clean : Bool

/-- Two steps of fuel per byte are more than any scan takes. -/
def outlineOf (bytes : List UInt8) : Outline × Option (List UInt8) :=
  scanValue (2 * bytes.length + 2) bytes

def documentOf (bytes : List UInt8) : Document :=
  let (root, rest) := outlineOf bytes
  ⟨root, match rest with
    | none => false
    | some rest => (skipSpace rest).isEmpty⟩

end NodeHarness.Json
