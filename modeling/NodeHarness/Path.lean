import NodeHarness.Text.Blank

/-! Paths as texts. A path is cut at its slashes; empty parts and single dots name no step. -/
namespace NodeHarness.Path

def isStep (part : List Char) : Bool := part != [] && part != ['.']

def steps (path : List Char) : List (List Char) := (Text.pieces '/' path).filter isStep

def parent : List Char := ['.', '.']

/-- The last step, unless it leads back to a parent. -/
def fileName? (path : String) : Option String :=
  match (steps path.toList).getLast? with
  | none => none
  | some name => if name = parent then none else some (String.ofList name)

def join (directory path : String) : String :=
  if directory.isEmpty || path.startsWith "/" then path
  else if directory.endsWith "/" then directory ++ path
  else directory ++ "/" ++ path

end NodeHarness.Path
