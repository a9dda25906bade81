import NodeHarness.NodeStatus

/-! Balances as the node reports them: coins with a denomination and an amount in text form. -/
namespace NodeHarness

structure Coin where
  denom : String
  amount : String
  deriving DecidableEq

structure Balances where
  coins : List Coin
  deriving DecidableEq

open Json Json.Outline

namespace Coin

def expected : String := "struct Coin"

structure Partial where
  denom : Option String
  amount : Option String

def take (name : String) : Option (Partial → Outline → Except Fault Partial) :=
  if name = "denom" then some fun s o =>
    (SyncInfo.readOnce name s.denom o.decodeText).map fun t => { s with denom := some t }
  else if name = "amount" then some fun s o =>
    (SyncInfo.readOnce name s.amount o.decodeText).map fun t => { s with amount := some t }
  else none

def ofMembers (_depth : Nat) (members : List (QuotedText × Outline)) (finish : ObjectEnd) :
    Except Fault Coin := do
  let s ← foldMembers take ⟨none, none⟩ members
  endOk finish.fault? ()
  match s.denom, s.amount with
  | none, _ => .error (.missingMember "denom")
  | _, none => .error (.missingMember "amount")
  | some denom, some amount => .ok ⟨denom, amount⟩

def ofItems (_depth : Nat) (items : List Outline) (finish : ListEnd) :
    Except Fault (Coin × List Outline) := do
  match ← nextItem items finish with
  | none => .error (.wrongLength 0 (expected ++ " with 2 elements"))
  | some (o, rest) =>
    let denom ← o.decodeText
    match ← nextItem rest finish with
    | none => .error (.wrongLength 1 (expected ++ " with 2 elements"))
    | some (o, rest) =>
      let amount ← o.decodeText
      .ok (⟨denom, amount⟩, rest)

def decode (depth : Nat) : Outline → Except Fault Coin :=
  decodeRecord expected depth ofItems ofMembers

end Coin

namespace Balances

def expected : String := "struct Balances"

def decodeCoins (depth : Nat) : Outline → Except Fault (List Coin)
  | .list items finish =>
    if depth ≤ 1 then .error .tooDeep
    else do
      let coins ← mapItems (Coin.decode (depth - 1)) items
      endOk finish.fault? coins
  | o => o.wrongKind "a sequence"

def take (depth : Nat) (name : String) :
    Option (Option (List Coin) → Outline → Except Fault (Option (List Coin))) :=
  if name = "balances" then some fun seen o =>
    (SyncInfo.readOnce name seen (decodeCoins depth o)).map some
  else none

def ofMembers (depth : Nat) (members : List (QuotedText × Outline)) (finish : ObjectEnd) :
    Except Fault Balances := do
  let coins ← foldMembers (take depth) none members
  endOk finish.fault? ⟨coins.getD []⟩

def ofItems (depth : Nat) (items : List Outline) (finish : ListEnd) :
    Except Fault (Balances × List Outline) := do
  match ← nextItem items finish with
  | none => .ok (⟨[]⟩, [])
  | some (o, rest) =>
    let coins ← decodeCoins depth o
    .ok (⟨coins⟩, rest)

def decode (depth : Nat) : Outline → Except Fault Balances :=
  decodeRecord expected depth ofItems ofMembers

def ofDocument (d : Document) : Except Fault Balances := d.decode (decode depthLimit)

def ofOutput (bytes : List UInt8) : Except Failure Balances :=
  decodeOutput "balances" ofDocument bytes

/-- What the first coin of a denomination holds, `none` when that is no amount, and zero when
there is no such coin. -/
def amountOf (b : Balances) (denom : String) : Option Nat :=
  match b.coins.find? fun coin => coin.denom = denom with
  | some coin => (Text.Decimal.read128 coin.amount).toOption
  | none => some 0

end Balances
end NodeHarness
