import NodeHarness.Text.Blank

/-! The transaction hash in command output: the text after the first `"txhash":` that is followed
by a quoted text, with any white space between the two. -/
namespace NodeHarness.TxHash

def label : List Char := "\"txhash\":".toList

/-- What stands between the next two quotes, if the first of them comes at once. -/
def quoted? : List Char → Option (List Char)
  | '"' :: body => if body.contains '"' then some (body.takeWhile (· ≠ '"')) else none
  | _ => none

def captureAt? (cs : List Char) : Option (List Char) :=
  if label.isPrefixOf cs then quoted? ((cs.drop label.length).dropWhile Text.isBlank) else none

def find? : List Char → Option (List Char)
  | [] => none
  | c :: cs =>
    match captureAt? (c :: cs) with
    | some hash => some hash
    | none => find? cs

/-- The first hash of a text, or the empty text. -/
def extract (s : String) : String := String.ofList ((find? s.toList).getD [])

end NodeHarness.TxHash
