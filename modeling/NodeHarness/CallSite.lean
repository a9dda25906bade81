/-! Where a log call was made: whether a stack frame lies in a given source file, and the name
of a function without the hash that a compiler appends to it. -/
namespace NodeHarness.CallSite

def dropHere : List Char → List Char
  | '.' :: '/' :: rest => dropHere rest
  | cs => cs

/-- Cuts at the last separator; without one there is nothing before it. -/
def cutLast (separator : Char) (cs : List Char) : Option (List Char × List Char) :=
  match cs.reverse.dropWhile (· ≠ separator) with
  | [] => none
  | _ :: before =>
    some (before.reverse, (cs.reverse.takeWhile (· ≠ separator)).reverse)

/-- A frame without its line and column; the whole frame when it does not end in both. -/
def framePath (frame : List Char) : List Char :=
  match cutLast ':' frame with
  | none => frame
  | some (before, _) =>
    match cutLast ':' before with
    | none => frame
    | some (path, _) => path

def sameSourceChars (frame file : List Char) : Bool :=
  let path := dropHere (framePath frame)
  let file := dropHere file
  file.isSuffixOf path || path.isSuffixOf file

/-- Whether one path is the tail of the other. -/
def sameSource (frame file : String) : Bool := sameSourceChars frame.toList file.toList

def isHexDigit (c : Char) : Bool :=
  c.isDigit || ('a' ≤ c && c ≤ 'f') || ('A' ≤ c && c ≤ 'F')

def hashLength : Nat := 16

/-- Removes a last `::h` with sixteen hexadecimal digits behind it. -/
def dropHashChars (symbol : List Char) : List Char :=
  let hash := symbol.drop (symbol.length - hashLength)
  let head := symbol.take (symbol.length - hashLength)
  if hash.length = hashLength ∧ hash.all isHexDigit ∧ [':', ':', 'h'].isSuffixOf head then
    head.take (head.length - 3)
  else symbol

def dropHash (symbol : String) : String := String.ofList (dropHashChars symbol.toList)

end NodeHarness.CallSite
