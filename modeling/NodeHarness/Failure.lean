import NodeHarness.Json.Fault

/-! What can go wrong between a test and the node, with the texts that are reported for it. -/
namespace NodeHarness

inductive Failure
  | spawn (program cause : String)
  | command (exitCode : Option Int) (output : List UInt8) (log : String)
  | decode (what payload : String) (fault : Json.Fault)
  | statusUnavailable (inner : Failure)
  | waitTimeout (interval startHeight lastHeight polls : Nat)
  | file (path cause : String)
  deriving Inhabited

namespace Failure

def code : Failure → String
  | .spawn .. => "CLI_SPAWN_FAILED"
  | .command .. => "CLI_COMMAND_FAILED"
  | .decode .. => "CLI_DECODE_FAILED"
  | .statusUnavailable _ => "CLI_STATUS_UNAVAILABLE"
  | .waitTimeout .. => "CLI_WAIT_TIMEOUT"
  | .file .. => "CLI_IO_ERROR"

def exitLabel : Option Int → String
  | some code => Text.Decimal.signedText code
  | none => "<killed by signal>"

def message : Failure → String
  | .spawn program cause => "failed to run " ++ program ++ ": " ++ cause
  | .command exitCode _ log => "command exited with status " ++ exitLabel exitCode ++ ": " ++ log
  | .decode what _ fault => "failed to decode " ++ what ++ ": " ++ fault.message
  | .statusUnavailable inner => "could not get daemon status: " ++ inner.message
  | .waitTimeout interval startHeight lastHeight polls =>
    "waited too long for " ++ Text.Decimal.text interval ++ " block(s) past height "
      ++ Text.Decimal.text startHeight ++ ": last seen " ++ Text.Decimal.text lastHeight
      ++ " after " ++ Text.Decimal.text polls ++ " polls"
  | .file path cause => "I/O error on " ++ path ++ ": " ++ cause

def commandLog : Failure → Option String
  | .command _ _ log => some log
  | .statusUnavailable inner => inner.commandLog
  | _ => none

def payload : Failure → Option String
  | .decode _ payload _ => some payload
  | .statusUnavailable inner => inner.payload
  | _ => none

def sources : Failure → List String
  | .spawn _ cause => [cause]
  | .command .. => []
  | .decode _ _ fault => [fault.message]
  | .statusUnavailable inner => inner.message :: inner.sources
  | .waitTimeout .. => []
  | .file _ cause => [cause]

end Failure
end NodeHarness
