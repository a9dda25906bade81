import NodeHarness.Directory
import NodeHarness.Context
import NodeHarness.Failure

/-! Fixture files of a test. A file that cannot be read halts the test; one that cannot be
removed is only logged. -/
namespace NodeHarness.Fixture

def pathName : String := "file_path"

def read (d : Directory) (path : String) (t : Context) (w : World) :
    Except Halt (List UInt8) × World :=
  let full := Path.join d.name path
  let result := (d.read path).mapError fun fault => (Failure.file full fault.message).message
  (t.withFields (Fields.empty.insert pathName (.text full))).mustBeOk result w

def clean (d : Directory) (path : String) (t : Context) (w : World) : Directory × World :=
  match d.remove path with
  | .ok d => (d, w)
  | .error fault =>
    let fields := (Fields.empty.insert "error" (.text fault.message)).insert pathName
      (.text (Path.join d.name path))
    (d, (t.withFields fields).logAt .error "error removing file" w)

end NodeHarness.Fixture
