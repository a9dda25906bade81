import NodeHarness.Json.Basic
import NodeHarness.Number.Shortest
import NodeHarness.Text.Quoted

/-! Writing JSON values: `compact` without white space and with the fewest escapes, and
`describe`, which names the kind of every part and serves diagnostics. -/
namespace NodeHarness.Json

def hexDigit (n : Nat) : Char := Nat.digitChar n

def escape (c : Char) : List Char :=
  if c = '"' then ['\\', '"']
  else if c = '\\' then ['\\', '\\']
  else if c = '\x08' then ['\\', 'b']
  else if c = '\x0c' then ['\\', 'f']
  else if c = '\n' then ['\\', 'n']
  else if c = '\r' then ['\\', 'r']
  else if c = '\t' then ['\\', 't']
  else if c.toNat < 32 then
    ['\\', 'u', '0', '0', hexDigit (c.toNat / 16), hexDigit (c.toNat % 16)]
  else [c]

def printText (s : String) : List Char := '"' :: (s.toList.flatMap escape ++ ['"'])

def nullChars : List Char := ['n', 'u', 'l', 'l']

def boolChars (b : Bool) : List Char :=
  if b then ['t', 'r', 'u', 'e'] else ['f', 'a', 'l', 's', 'e']

/-- A double has its shortest text, always with a point or an exponent; no infinity is a number. -/
def printNumber : JsonNumber → List Char
  | .natural n => Text.Decimal.digits n
  | .negative n => '-' :: Text.Decimal.digits (n + 1)
  | .floating x => (x.chars? .binary64 .binary64).getD nullChars

mutual

def print : Json → List Char
  | .null => nullChars
  | .bool b => boolChars b
  | .number n => printNumber n
  | .text s => printText s
  | .list items => '[' :: (printItems items ++ [']'])
  | .object members => '\x7b' :: (printMembers members ++ ['\x7d'])

def printItems : List Json → List Char
  | [] => []
  | [item] => print item
  | item :: rest => print item ++ ',' :: printItems rest

def printMembers : List (String × Json) → List Char
  | [] => []
  | [(name, value)] => printText name ++ ':' :: print value
  | (name, value) :: rest => printText name ++ ':' :: (print value ++ ',' :: printMembers rest)

end

def compact (value : Json) : String := String.ofList (print value)

def joined (parts : List String) : String := ", ".intercalate parts

mutual

def describe : Json → String
  | .null => "Null"
  | .bool b => "Bool(" ++ String.ofList (boolChars b) ++ ")"
  | .number n => "Number(" ++ String.ofList (printNumber n) ++ ")"
  | .text s => "String(" ++ Text.Quoted.quote s ++ ")"
  | .list items => "Array [" ++ joined (describeItems items) ++ "]"
  | .object members => "Object \x7b" ++ joined (describeMembers members) ++ "\x7d"

def describeItems : List Json → List String
  | [] => []
  | item :: rest => describe item :: describeItems rest

def describeMembers : List (String × Json) → List String
  | [] => []
  | (name, value) :: rest =>
    (Text.Quoted.quote name ++ ": " ++ describe value) :: describeMembers rest

end

end NodeHarness.Json
