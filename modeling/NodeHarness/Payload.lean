import NodeHarness.Fields
import NodeHarness.Json.Fault

/-! Data that a caller hands over to be written as JSON. Not all of it can be: a map whose keys
are neither texts nor numbers has no JSON form, and a value that is stored must be an integer of
64 bits or a double, while a text may show an integer in full. -/
namespace NodeHarness

/-- Maps hold their entries in ascending order of keys, each key once. -/
inductive Payload
  | json (v : Json)
  | integer (i : Int)
  | double (x : Option Number.Floating)
  | single (x : Option Number.Floating)
  | byBytes (entries : List (List UInt8 × Int))
  | listByBytes (entries : List (List UInt8 × Int))
  | byInteger (entries : List (Int × Json))
  | byBool (entries : List (Bool × Json))
  | byUnit (s : String)
  | byOption (keys : List (Option String))

namespace Payload

/-- Writes an entry of a map ordered by `before`; the last value of a key stays. -/
def insertEntry {κ α : Type} [DecidableEq κ] (before : κ → κ → Bool) (key : κ) (value : α) :
    List (κ × α) → List (κ × α)
  | [] => [(key, value)]
  | (other, old) :: rest =>
    if key = other then (key, value) :: rest
    else if before key other then (key, value) :: (other, old) :: rest
    else (other, old) :: insertEntry before key value rest

def sortEntries {κ α : Type} [DecidableEq κ] (before : κ → κ → Bool) (entries : List (κ × α)) :
    List (κ × α) :=
  entries.foldl (fun sorted (key, value) => insertEntry before key value sorted) []

def bytesBefore : List UInt8 → List UInt8 → Bool
  | [], [] => false
  | [], _ :: _ => true
  | _ :: _, [] => false
  | a :: as, b :: bs => a < b || (a == b && bytesBefore as bs)

def optionBefore : Option String → Option String → Bool
  | none, some _ => true
  | some a, some b => a < b
  | _, none => false

def ofBytesKeys (entries : List (List UInt8 × Int)) : List (List UInt8 × Int) :=
  sortEntries bytesBefore entries

def ofIntegerKeys (entries : List (Int × Json)) : List (Int × Json) :=
  sortEntries (fun a b => a < b) entries

def ofBoolKeys (entries : List (Bool × Json)) : List (Bool × Json) :=
  sortEntries (fun a b => !a && b) entries

def ofOptionKeys (keys : List (Option String)) : List (Option String) :=
  (sortEntries optionBefore (keys.map fun key => (key, ()))).map Prod.fst

def floatingJson : Option Number.Floating → Json
  | some x =>
    if Number.BinaryFormat.binary64.infinity ≤ x.word then .null else .number (.floating x)
  | none => .null

def boolName (b : Bool) : String := String.ofList (Json.boolChars b)

def toJson : Payload → Except Json.Fault Json
  | .json v => .ok v.canonical
  | .integer i =>
    if -(Text.Decimal.words64 / 2 : Nat) ≤ i ∧ i < Text.Decimal.words64 then .ok (.integer i)
    else .error .numberRange
  | .double x => .ok (floatingJson x)
  | .single x => .ok (floatingJson (x.map fun x => x.widen .binary32 .binary64))
  | .byBytes entries => if entries.isEmpty then .ok (.object []) else .error .nameNotText
  | .listByBytes entries =>
    if entries.isEmpty then .ok (.list [.object []]) else .error .nameNotText
  | .byInteger entries =>
    .ok (Json.object (entries.map fun (i, v) => (Text.Decimal.signedText i, v))).canonical
  | .byBool entries => .ok (Json.object (entries.map fun (b, v) => (boolName b, v))).canonical
  | .byUnit _ => .error .nameNotText
  | .byOption keys =>
    if keys.contains none then .error .nameNotText
    else .ok (Json.object (keys.map fun key => (key.getD "", .natural 1))).canonical

/-- What is stored for data without a JSON form. -/
def stored (p : Payload) : Json :=
  match p.toJson with
  | .ok v => v
  | .error fault => .text ("<unserializable: " ++ fault.message ++ ">")

def print? : Payload → Except Json.Fault (List Char)
  | .integer i => .ok (Text.Decimal.signedText i).toList
  | .single x => .ok ((x.bind fun x => x.chars? .binary32 .binary32).getD Json.nullChars)
  | .byInteger entries =>
    .ok (Json.object (entries.map fun (i, v) => (Text.Decimal.signedText i, v.canonical))).print
  | .byBool entries =>
    .ok (Json.object (entries.map fun (b, v) => (boolName b, v.canonical))).print
  | p => p.toJson.map Json.print

def describeBytes (bytes : List UInt8) : String :=
  "[" ++ Json.joined (bytes.map fun b => Text.Decimal.text b.toNat) ++ "]"

def describeByBytes (entries : List (List UInt8 × Int)) : String :=
  "\x7b" ++ Json.joined (entries.map fun (key, i) =>
    describeBytes key ++ ": " ++ Text.Decimal.signedText i) ++ "\x7d"

def describeKey : Option String → String
  | none => "None"
  | some s => "Some(" ++ Text.Quoted.quote s ++ ")"

def describe : Payload → String
  | .byBytes entries => describeByBytes entries
  | .listByBytes entries => "[" ++ describeByBytes entries ++ "]"
  | .byUnit s => "\x7b(): " ++ Text.Quoted.quote s ++ "\x7d"
  | .byOption keys =>
    "\x7b" ++ Json.joined (keys.map fun key => describeKey key ++ ": 1") ++ "\x7d"
  | p => p.stored.describe

/-- The compact JSON text, or a description of the data and why it has none. -/
def format (p : Payload) : String :=
  match p.print? with
  | .ok cs => String.ofList cs
  | .error fault => p.describe ++ ";jsonMarshalErr=" ++ fault.message

end Payload

namespace Fields

/-- Stores data under a name; no write is dropped. -/
def insertPayload (fields : Fields) (name : String) (p : Payload) : Fields :=
  fields.insert name p.stored

/-- The fields of data in order; the last value of a name stays, in the place of the first. -/
def ofPayloads (entries : List (String × Payload)) : Fields :=
  entries.foldl (fun fields (name, p) => fields.insertPayload name p) empty

end Fields
end NodeHarness
