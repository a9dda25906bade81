import NodeHarness.Number.Binary

/-! JSON values. An object is a list of members, so one type covers both a document as it is
written, where order and repeated names show, and a canonical value, where every object has its
names once and in ascending order. `canonical` goes from one to the other; the last member of a
name wins. -/
namespace NodeHarness

/-- A natural number, the integer `-(n + 1)`, or a finite double. -/
inductive JsonNumber
  | natural (n : Nat)
  | negative (n : Nat)
  | floating (x : Number.Floating)
  deriving DecidableEq

inductive Json
  | null
  | bool (b : Bool)
  | number (n : JsonNumber)
  | text (s : String)
  | list (items : List Json)
  | object (members : List (String × Json))

instance : Inhabited Json := ⟨.null⟩

namespace JsonNumber

def ofInt : Int → JsonNumber
  | .ofNat n => .natural n
  | .negSucc n => .negative n

/-- Equality of numbers, where a whole double still differs from the integer. -/
def same : JsonNumber → JsonNumber → Bool
  | .floating a, .floating b => a.same b
  | a, b => a == b

end JsonNumber

namespace Json

/-- Writes a member of an ordered object, replacing an earlier one of that name. -/
def insertMember (name : String) (value : Json) :
    List (String × Json) → List (String × Json)
  | [] => [(name, value)]
  | (other, old) :: rest =>
    if name = other then (name, value) :: rest
    else if name < other then (name, value) :: (other, old) :: rest
    else (other, old) :: insertMember name value rest

/-- Members in ascending order of names, each name once with its last value. -/
def sortMembers (members : List (String × Json)) : List (String × Json) :=
  members.foldl (fun sorted (name, value) => insertMember name value sorted) []

mutual

def canonical : Json → Json
  | .null => .null
  | .bool b => .bool b
  | .number n => .number n
  | .text s => .text s
  | .list items => .list (canonicalItems items)
  | .object members => .object (sortMembers (canonicalMembers members))

def canonicalItems : List Json → List Json
  | [] => []
  | item :: rest => canonical item :: canonicalItems rest

def canonicalMembers : List (String × Json) → List (String × Json)
  | [] => []
  | (name, value) :: rest => (name, canonical value) :: canonicalMembers rest

end

mutual

def same : Json → Json → Bool
  | .null, .null => true
  | .bool a, .bool b => a == b
  | .number a, .number b => a.same b
  | .text a, .text b => a == b
  | .list as, .list bs => sameItems as bs
  | .object as, .object bs => sameMembers as bs
  | _, _ => false

def sameItems : List Json → List Json → Bool
  | [], [] => true
  | a :: as, b :: bs => same a b && sameItems as bs
  | _, _ => false

def sameMembers : List (String × Json) → List (String × Json) → Bool
  | [], [] => true
  | (m, a) :: as, (n, b) :: bs => m == n && same a b && sameMembers as bs
  | _, _ => false

end

def member? (name : String) : Json → Option Json
  | .object members => members.lookup name
  | _ => none

def natural (n : Nat) : Json := .number (.natural n)

def integer (i : Int) : Json := .number (.ofInt i)

def texts (ss : List String) : Json := .list (ss.map .text)

def optional (s : Option String) : Json :=
  match s with
  | some s => .text s
  | none => .null

end Json
end NodeHarness
