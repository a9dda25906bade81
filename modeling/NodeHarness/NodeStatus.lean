import NodeHarness.Json.Reading
import NodeHarness.Failure

/-! The part of a node's status report that waiting relies on. -/
namespace NodeHarness

structure SyncInfo where
  height : Nat
  hash : String
  catchingUp : Bool
  deriving DecidableEq

structure NodeStatus where
  sync : SyncInfo
  deriving DecidableEq

open Json Json.Outline

namespace SyncInfo

def expected : String := "struct SyncInfo"

def heightName : String := "latest_block_height"

def hashName : String := "latest_block_hash"

def catchingUpName : String := "catching_up"

structure Partial where
  height : Option Nat
  hash : Option String
  catchingUp : Option Bool

def readOnce {α : Type} (name : String) (seen : Option α) (read : Except Fault α) :
    Except Fault α :=
  if seen.isSome then .error (.repeatedMember name) else read

def readHeight (depth : Nat) (o : Outline) : Except Fault Nat := do
  natural64 (← Outline.value depth o)

def take (depth : Nat) (name : String) : Option (Partial → Outline → Except Fault Partial) :=
  if name = heightName then some fun s o =>
    (readOnce name s.height (readHeight depth o)).map fun n => { s with height := some n }
  else if name = hashName then some fun s o =>
    (readOnce name s.hash o.decodeText).map fun t => { s with hash := some t }
  else if name = catchingUpName then some fun s o =>
    (readOnce name s.catchingUp o.decodeBool).map fun b => { s with catchingUp := some b }
  else none

def ofMembers (depth : Nat) (members : List (QuotedText × Outline)) (finish : ObjectEnd) :
    Except Fault SyncInfo := do
  let s ← foldMembers (take depth) ⟨none, none, none⟩ members
  endOk finish.fault? ()
  match s.height with
  | none => .error (.missingMember heightName)
  | some height => .ok ⟨height, s.hash.getD "", s.catchingUp.getD false⟩

/-- A list holds height, hash and flag in this order; the last two may be left out. -/
def ofItems (depth : Nat) (items : List Outline) (finish : ListEnd) :
    Except Fault (SyncInfo × List Outline) := do
  match ← nextItem items finish with
  | none => .error (.wrongLength 0 (expected ++ " with 3 elements"))
  | some (o, rest) =>
    let height ← readHeight depth o
    match ← nextItem rest finish with
    | none => .ok (⟨height, "", false⟩, [])
    | some (o, rest) =>
      let hash ← o.decodeText
      match ← nextItem rest finish with
      | none => .ok (⟨height, hash, false⟩, [])
      | some (o, rest) =>
        let catchingUp ← o.decodeBool
        .ok (⟨height, hash, catchingUp⟩, rest)

def decode (depth : Nat) : Outline → Except Fault SyncInfo :=
  decodeRecord expected depth ofItems ofMembers

end SyncInfo

namespace NodeStatus

def expected : String := "struct NodeStatus"

/-- Both spellings name one member. -/
def isSyncName (name : String) : Bool := name == "SyncInfo" || name == "sync_info"

def take (depth : Nat) (name : String) :
    Option (Option SyncInfo → Outline → Except Fault (Option SyncInfo)) :=
  if isSyncName name then some fun seen o =>
    (SyncInfo.readOnce "SyncInfo" seen (SyncInfo.decode depth o)).map some
  else none

def ofMembers (depth : Nat) (members : List (QuotedText × Outline)) (finish : ObjectEnd) :
    Except Fault NodeStatus := do
  let sync ← foldMembers (take depth) none members
  endOk finish.fault? ()
  match sync with
  | none => .error (.missingMember "SyncInfo")
  | some sync => .ok ⟨sync⟩

def ofItems (depth : Nat) (items : List Outline) (finish : ListEnd) :
    Except Fault (NodeStatus × List Outline) := do
  match ← nextItem items finish with
  | none => .error (.wrongLength 0 (expected ++ " with 1 element"))
  | some (o, rest) =>
    let sync ← SyncInfo.decode depth o
    .ok (⟨sync⟩, rest)

def decode (depth : Nat) : Outline → Except Fault NodeStatus :=
  decodeRecord expected depth ofItems ofMembers

end NodeStatus

/-- Reads command output; a refusal keeps the text. -/
def decodeOutput {α : Type} (what : String) (read : Document → Except Fault α)
    (bytes : List UInt8) : Except Failure α :=
  match read (documentOf bytes) with
  | .ok a => .ok a
  | .error fault => .error (.decode what (Text.Utf8.lossy bytes) fault)

def NodeStatus.ofOutput (bytes : List UInt8) : Except Failure NodeStatus :=
  decodeOutput "node status" (Document.decode (NodeStatus.decode depthLimit)) bytes

def NodeStatus.height (status : NodeStatus) : Nat := status.sync.height

end NodeHarness
