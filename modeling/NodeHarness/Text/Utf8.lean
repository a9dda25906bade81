/-! Texts as bytes. `decode?` reads well-formed UTF-8 and nothing else. `lossy` reads any bytes:
a sequence that breaks off is one replacement character, and reading goes on at the byte that
broke it. Both look at the same run of a machine over the bytes. -/
namespace NodeHarness.Text.Utf8

/-- A character begun: its value so far, the bytes it still needs, and the next byte's bounds. -/
structure Begun where
  value : Nat
  missing : Nat
  low : UInt8
  high : UInt8

/-- What a first byte says: a whole character, the beginning of one, or nothing. -/
inductive First
  | whole (c : Char)
  | begun (s : Begun)
  | invalid

def first (b : UInt8) : First :=
  if b < 0x80 then .whole (Char.ofNat b.toNat)
  else if b < 0xc2 then .invalid
  else if b < 0xe0 then .begun ⟨b.toNat % 32, 1, 0x80, 0xbf⟩
  else if b < 0xf0 then
    .begun ⟨b.toNat % 16, 2, if b = 0xe0 then 0xa0 else 0x80, if b = 0xed then 0x9f else 0xbf⟩
  else if b < 0xf5 then
    .begun ⟨b.toNat % 8, 3, if b = 0xf0 then 0x90 else 0x80, if b = 0xf4 then 0x8f else 0xbf⟩
  else .invalid

/-- The run's state: characters found, latest first, where `none` is a sequence that broke off. -/
structure Scan where
  begun : Option Begun
  found : List (Option Char)

def Scan.start (s : Scan) (b : UInt8) : Scan :=
  match first b with
  | .whole c => ⟨none, some c :: s.found⟩
  | .begun next => ⟨some next, s.found⟩
  | .invalid => ⟨none, none :: s.found⟩

def Scan.step (s : Scan) (b : UInt8) : Scan :=
  match s.begun with
  | none => s.start b
  | some p =>
    if p.low ≤ b ∧ b ≤ p.high then
      let value := p.value * 64 + b.toNat % 64
      if p.missing ≤ 1 then ⟨none, some (Char.ofNat value) :: s.found⟩
      else ⟨some ⟨value, p.missing - 1, 0x80, 0xbf⟩, s.found⟩
    else Scan.start ⟨none, none :: s.found⟩ b

def Scan.finish (s : Scan) : List (Option Char) :=
  (match s.begun with
    | none => s.found
    | some _ => none :: s.found).reverse

/-- The characters of the bytes in order, with `none` for each sequence that broke off. -/
def scan (bytes : List UInt8) : List (Option Char) :=
  (bytes.foldl Scan.step ⟨none, []⟩).finish

def replacement : Char := '\ufffd'

def lossyChars (bytes : List UInt8) : List Char :=
  (scan bytes).map fun c => c.getD replacement

def lossy (bytes : List UInt8) : String := String.ofList (lossyChars bytes)

def decodeChars? (bytes : List UInt8) : Option (List Char) :=
  let found := scan bytes
  if found.all Option.isSome then some (found.filterMap id) else none

def decode? (bytes : List UInt8) : Option String := (decodeChars? bytes).map String.ofList

def encodeChars (cs : List Char) : List UInt8 := cs.flatMap String.utf8EncodeChar

def encode (s : String) : List UInt8 := encodeChars s.toList

end NodeHarness.Text.Utf8
