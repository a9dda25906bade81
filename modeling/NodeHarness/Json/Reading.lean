import NodeHarness.Json.Outline
import NodeHarness.Text.Utf8
import NodeHarness.Text.Blank

/-! Reading an outline. `value` takes every part as it stands and limits the depth of nesting;
`skim` passes over a part that nobody asked for, which needs no depth, no well-formed Unicode and
no number in range. The `decode` functions read a part as a given shape. -/
namespace NodeHarness.Json

/-- A list or object may be entered while two levels or more are left. -/
def depthLimit : Nat := 128

namespace QuotedText

def skim (t : QuotedText) : Except Fault Unit :=
  match t.finish with
  | .closed => .ok ()
  | .endOfInput => .error .endInText
  | .badEscape => .error .badEscape
  | .badHex => .error .badEscape
  | .control => .error .controlCharacter

def utf16High (n : Nat) : Bool := 0xd800 ≤ n && n ≤ 0xdbff

def utf16Low (n : Nat) : Bool := 0xdc00 ≤ n && n ≤ 0xdfff

def surrogatePair (high low : Nat) : Nat := 0x10000 + (high - 0xd800) * 0x400 + (low - 0xdc00)

/-- The fault when a high surrogate is the last escape before the text ends this way. -/
def afterHigh : TextEnd → Fault
  | .endOfInput => .endInText
  | .badHex => .badEscape
  | _ => .unfinishedSurrogate

def pushChar (n : Nat) (read : List UInt8) : List UInt8 :=
  (String.utf8EncodeChar (Char.ofNat n)).reverse ++ read

/-- Replaces the escapes; `read` holds the bytes so far, latest first. -/
def unescape (finish : TextEnd) (read : List UInt8) : List UInt8 → Except Fault (List UInt8)
  | [] =>
    match skim ⟨[], finish⟩ with
    | .ok _ => .ok read.reverse
    | .error fault => .error fault
  | 0x5c :: 0x75 :: a :: b :: c :: d :: rest =>
    let n := (hex4? a b c d).getD 0
    if utf16Low n then .error .loneSurrogate
    else if utf16High n then
      match rest with
      | [] => .error (afterHigh finish)
      | 0x5c :: 0x75 :: a :: b :: c :: d :: rest =>
        let low := (hex4? a b c d).getD 0
        if utf16Low low then unescape finish (pushChar (surrogatePair n low) read) rest
        else .error .loneSurrogate
      | _ => .error .unfinishedSurrogate
    else unescape finish (pushChar n read) rest
  | 0x5c :: e :: rest => unescape finish ((shortEscape? e).getD e :: read) rest
  | b :: rest => unescape finish (b :: read) rest

def decode (t : QuotedText) : Except Fault String :=
  match unescape t.finish [] t.raw with
  | .error fault => .error fault
  | .ok bytes =>
    match Text.Utf8.decode? bytes with
    | some s => .ok s
    | none => .error .badUnicode

end QuotedText

namespace NumberText

open Number

def skim (n : NumberText) : Except Fault Unit :=
  match n.finish with
  | .complete => .ok ()
  | _ => .error .badNumber

/-- Takes digits into a 64-bit significand. The second part is what is left from the first digit
on that does not fit. -/
def absorb (significand : Nat) : List Nat → Nat × List Nat
  | [] => (significand, [])
  | d :: ds =>
    if significand * 10 + d < Text.Decimal.words64 then absorb (significand * 10 + d) ds
    else (significand, d :: ds)

def tenth (e : Nat) : Nat := BinaryFormat.binary64.nearest (Nat.pow 10 e) 1

/-- The largest power of ten that is divided by or multiplied with in one step. -/
def stepExponent : Nat := 308

/-- Divides by ten to the given power in steps, rounding each; after three whole steps only
zero is left. -/
def scaleDown (word e : Nat) : Nat :=
  let steps := if e % stepExponent = 0 ∧ 0 < e then e / stepExponent - 1 else e / stepExponent
  let last := e - steps * stepExponent
  let word :=
    Nat.repeat (fun w => BinaryFormat.binary64.div w (tenth stepExponent)) (min steps 3) word
  BinaryFormat.binary64.div word (tenth last)

/-- The double for `significand * 10 ^ exponent`: the significand and the power of ten are
rounded first, then their product or quotient. -/
def scale (significand : Nat) (exponent : Int) : Option Nat :=
  let word := BinaryFormat.binary64.nearest significand 1
  match exponent with
  | Int.negSucc e => some (scaleDown word (e + 1))
  | Int.ofNat e =>
    if word = 0 then some 0
    else if stepExponent < e then none
    else
      let product := BinaryFormat.binary64.mul word (tenth e)
      if BinaryFormat.binary64.infinity ≤ product then none else some product

def exponentValue (n : NumberText) : Int :=
  match n.exponent with
  | none => 0
  | some (below, digits) =>
    let e : Nat := digits.foldl (fun n d => n * 10 + d) 0
    if below then -(e : Int) else e

/-- An integer of 64 bits, or a double. Digits that do not fit the significand only count
for the exponent. -/
def value (n : NumberText) : Except Fault JsonNumber :=
  match n.finish with
  | .endOfInput => .error .endInValue
  | .malformed => .error .badNumber
  | .complete =>
    let (whole, excess) := absorb 0 n.whole
    let floating (significand : Nat) (exponent : Int) : Except Fault JsonNumber :=
      match scale significand exponent with
      | some word => .ok (.floating ⟨n.negative, word⟩)
      | none => .error .numberRange
    match n.fraction, n.exponent, excess with
    | none, none, [] =>
      if n.negative then
        if whole = 0 ∨ Text.Decimal.words64 / 2 < whole then floating whole 0
        else .ok (.negative (whole - 1))
      else .ok (.natural whole)
    | _, _, _ =>
      let digits := n.fraction.getD []
      let (significand, unread) := absorb whole digits
      floating significand
        (n.exponentValue + (excess.length : Int) - ((digits.length - unread.length : Nat) : Int))

end NumberText

def ListEnd.fault? : ListEnd → Option Fault
  | .closed => none
  | .endOfInput => some .endInList
  | .badSeparator => some .expectedListComma
  | .trailingComma => some .trailingComma
  | .endAfterComma => some .endInValue

def ObjectEnd.fault? : ObjectEnd → Option Fault
  | .closed => none
  | .endOfInput => some .endInObject
  | .badSeparator => some .expectedObjectComma
  | .nameNotText _ => some .nameNotText
  | .trailingComma => some .trailingComma
  | .endAfterComma => some .endInValue
  | .otherAfterComma => some .nameNotText

def ListEnd.skimFault? : ListEnd → Option Fault
  | .trailingComma => some .expectedValue
  | finish => finish.fault?

def ObjectEnd.skimFault? : ObjectEnd → Option Fault
  | .trailingComma => some .nameNotText
  | .endAfterComma => some .endInObject
  | finish => finish.fault?

def endOk {α : Type} (fault : Option Fault) (value : α) : Except Fault α :=
  match fault with
  | none => .ok value
  | some fault => .error fault

namespace Outline

mutual

def skim : Outline → Except Fault Unit
  | .null => .ok ()
  | .bool _ => .ok ()
  | .number n => n.skim
  | .text t => t.skim
  | .list items finish => do
    skimItems items
    endOk finish.skimFault? ()
  | .object members finish => do
    skimMembers members
    endOk finish.skimFault? ()
  | .broken fault => .error fault

def skimItems : List Outline → Except Fault Unit
  | [] => .ok ()
  | item :: rest => do
    skim item
    skimItems rest

def skimMembers : List (QuotedText × Outline) → Except Fault Unit
  | [] => .ok ()
  | (name, value) :: rest => do
    name.skim
    skim value
    skimMembers rest

end

mutual

/-- Reads everything, with members in the order of the text and repeated names kept. -/
def value (depth : Nat) : Outline → Except Fault Json
  | .null => .ok .null
  | .bool b => .ok (.bool b)
  | .number n => (n.value).map .number
  | .text t => (t.decode).map .text
  | .list items finish =>
    if depth ≤ 1 then .error .tooDeep
    else do
      let items ← valueItems (depth - 1) items
      endOk finish.fault? (.list items)
  | .object members finish =>
    if depth ≤ 1 then .error .tooDeep
    else do
      let members ← valueMembers (depth - 1) members
      endOk finish.fault? (.object members)
  | .broken fault => .error fault

def valueItems (depth : Nat) : List Outline → Except Fault (List Json)
  | [] => .ok []
  | item :: rest => do
    let item ← value depth item
    let rest ← valueItems depth rest
    return item :: rest

def valueMembers (depth : Nat) :
    List (QuotedText × Outline) → Except Fault (List (String × Json))
  | [] => .ok []
  | (name, content) :: rest => do
    let name ← name.decode
    let content ← value depth content
    let rest ← valueMembers depth rest
    return (name, content) :: rest

end

/-- What a reader meets that expected something else. -/
def found : Outline → Except Fault Found
  | .null => .ok .null
  | .bool b => .ok (.bool b)
  | .number n => (n.value).map .number
  | .text t => (t.decode).map .text
  | .list _ _ => .ok .list
  | .object _ _ => .ok .object
  | .broken fault => .error fault

def wrongKind {α : Type} (expected : String) (o : Outline) : Except Fault α :=
  match o.found with
  | .ok found => .error (.wrongKind found expected)
  | .error fault => .error fault

def decodeText : Outline → Except Fault String
  | .text t => t.decode
  | o => o.wrongKind "a string"

def decodeBool : Outline → Except Fault Bool
  | .bool b => .ok b
  | o => o.wrongKind "a boolean"

/-- The fault when a list of fixed length is read and these items and this end are left over. -/
def restFault? (rest : List Outline) (finish : ListEnd) : Option Fault :=
  match rest, finish with
  | _ :: _, _ => some .trailingCharacters
  | [], .closed => none
  | [], .endOfInput => some .endInList
  | [], .trailingComma => some .trailingComma
  | [], _ => some .trailingCharacters

/-- Goes through members in order. `take` reads the value of a name that is asked for; the
value of another name is passed over. -/
def foldMembers {σ : Type} (take : String → Option (σ → Outline → Except Fault σ)) :
    σ → List (QuotedText × Outline) → Except Fault σ
  | state, [] => .ok state
  | state, (name, content) :: rest => do
    let name ← name.decode
    let state ← match take name with
      | some read => read state content
      | none => (content.skim).map fun _ => state
    foldMembers take state rest

def mapItems {α : Type} (read : Outline → Except Fault α) : List Outline → Except Fault (List α)
  | [] => .ok []
  | item :: rest => do
    let item ← read item
    let rest ← mapItems read rest
    return item :: rest

/-- Reads a list or an object as a record. The list's reader gives back the items it left. -/
def decodeRecord {α : Type} (expected : String) (depth : Nat)
    (ofItems : Nat → List Outline → ListEnd → Except Fault (α × List Outline))
    (ofMembers : Nat → List (QuotedText × Outline) → ObjectEnd → Except Fault α) :
    Outline → Except Fault α
  | .list items finish =>
    if depth ≤ 1 then .error .tooDeep
    else do
      let (record, rest) ← ofItems (depth - 1) items finish
      endOk (restFault? rest finish) record
  | .object members finish =>
    if depth ≤ 1 then .error .tooDeep
    else ofMembers (depth - 1) members finish
  | o => o.wrongKind expected

/-- The next item of a record in list form; at its end the fault of the end, or none. -/
def nextItem (items : List Outline) (finish : ListEnd) :
    Except Fault (Option (Outline × List Outline)) :=
  match items with
  | item :: rest => .ok (some (item, rest))
  | [] => endOk finish.fault? none

end Outline

/-- A number that may also be written as a text, which is trimmed first. -/
def natural64 : Json → Except Fault Nat
  | .number (.natural n) => .ok n
  | .text s =>
    match Text.Decimal.readBelow Text.Decimal.words64 (Text.trim s.toList) with
    | .ok n => .ok n
    | .error fault => .error (.badDecimal fault)
  | _ => .error (.noVariant "Raw")

namespace Document

/-- The reader's fault comes before the one of anything behind the value. -/
def decode {α : Type} (read : Outline → Except Fault α) (d : Document) : Except Fault α :=
  match read d.root with
  | .error fault => .error fault
  | .ok a => if d.clean then .ok a else .error .trailingCharacters

def value (d : Document) : Except Fault Json := d.decode (Outline.value depthLimit)

end Document

def ofBytes (bytes : List UInt8) : Except Fault Json := (documentOf bytes).value

def ofText (s : String) : Except Fault Json := ofBytes (Text.Utf8.encode s)

end NodeHarness.Json
