import NodeHarness.NodeStatus

/-! Accounts as the node reports them: an object of its own, or wrapped as the `value` of an
envelope. The envelope is tried first; what does not fit it is read as an account itself. -/
namespace NodeHarness

structure Account where
  address : String
  accountNumber : Nat
  sequence : Nat
  publicKey : Option Json

namespace Account

open Json

/-- The members read so far; an inner `none` is a member that was null. -/
structure Partial where
  address : Option String
  accountNumber : Option Nat
  sequence : Option Nat
  publicKey : Option (Option Json)

def Partial.empty : Partial := ⟨none, none, none, none⟩

/-- Members that are missing have the empty text, zero, or nothing. -/
def Partial.account (p : Partial) : Account :=
  ⟨p.address.getD "", p.accountNumber.getD 0, p.sequence.getD 0, p.publicKey.getD none⟩

def text? : Json → Option String
  | .text s => some s
  | _ => none

def natural? (v : Json) : Option Nat := (natural64 v).toOption

/-- Null stands for no value. -/
def present (v : Json) : Option Json :=
  match v with
  | .null => none
  | v => some v.canonical

/-- Takes one member; the four that are known may stand only once. -/
def takeMember? (p : Partial) (name : String) (v : Json) : Option Partial :=
  if name = "address" then
    if p.address.isSome then none else (text? v).map fun s => { p with address := some s }
  else if name = "account_number" then
    if p.accountNumber.isSome then none
    else (natural? v).map fun n => { p with accountNumber := some n }
  else if name = "sequence" then
    if p.sequence.isSome then none else (natural? v).map fun n => { p with sequence := some n }
  else if name = "pub_key" then
    if p.publicKey.isSome then none else some { p with publicKey := some (present v) }
  else some p

def takeMembers? : Partial → List (String × Json) → Option Partial
  | p, [] => some p
  | p, (name, v) :: rest => (takeMember? p name v).bind fun p => takeMembers? p rest

def ofMembers? (members : List (String × Json)) : Option Account :=
  (takeMembers? .empty members).map Partial.account

/-- A list holds the members in order; the last ones may be left out. -/
def ofItems? : List Json → Option Account
  | [] => some (Partial.account .empty)
  | [a] => do
    return Partial.account { Partial.empty with address := some (← text? a) }
  | [a, n] => do
    return Partial.account
      { Partial.empty with address := some (← text? a), accountNumber := some (← natural? n) }
  | [a, n, s] => do
    return ⟨← text? a, ← natural? n, ← natural? s, none⟩
  | [a, n, s, k] => do
    return ⟨← text? a, ← natural? n, ← natural? s, present k⟩
  | _ => none

def ofJson? : Json → Option Account
  | .object members => ofMembers? members
  | .list items => ofItems? items
  | _ => none

/-- The account in an envelope, which has exactly one member `value`. -/
def ofEnvelope? : Json → Option Account
  | .object members =>
    match members.filter fun (name, _) => name == "value" with
    | [(_, v)] => ofJson? v
    | _ => none
  | _ => none

def ofDocument (v : Json) : Except Fault Account :=
  match (ofEnvelope? v).orElse fun _ => ofJson? v with
  | some account => .ok account
  | none => .error (.noVariant "AccountJson")

def ofOutput (bytes : List UInt8) : Except Failure Account :=
  decodeOutput "account" (Document.decode fun o => do
    ofDocument (← Outline.value depthLimit o)) bytes

end Account
end NodeHarness
