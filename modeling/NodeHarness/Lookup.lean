import NodeHarness.Client
import NodeHarness.Context
import NodeHarness.Account
import NodeHarness.Balances

/-! Looking up accounts and balances within a test. A lookup that fails halts the test, and the
context that reports it carries what was asked for and the record of the command. -/
namespace NodeHarness.Lookup

def commandLog : Except Failure CommandOutput → String
  | .ok o => o.log
  | .error failure => failure.commandLog.getD ""

/-- The value of a success; a failure violates a check of the context. -/
def require {α : Type} (t : Context) (result : Except Failure α) (s : Session) :
    Except Halt α × Session :=
  let (result, world) := t.mustBeOk (result.mapError Failure.message) s.world
  (result, { s with world })

def output (t : Context) (name asked : String) (c : Client) (outside : Outside)
    (words : List String) (s : Session) : Except Halt CommandOutput × Session :=
  let (result, s) := c.invoke outside words "" s
  let fields := (Fields.empty.insert name (.text asked)).insert "log" (.text (commandLog result))
  require (t.withFields fields) result s

/-- Decodes what a command gave; the context of a refusal carries it. -/
def decoded {α : Type} (t : Context) (read : List UInt8 → Except Failure α) (o : CommandOutput)
    (s : Session) : Except Halt α × Session :=
  require (t.withFields (Fields.empty.insert "acc_bytes" (.text o.text))) (read o.output) s

/-- Line feeds and spaces around an address do not belong to it. -/
def isPadding (ch : Char) : Bool := ch = '\n' || ch = ' '

def addressOf (o : CommandOutput) : String :=
  String.ofList (Text.stripBoth isPadding o.text.toList)

def address (c : Client) (outside : Outside) (name : String) (t : Context) (s : Session) :
    Except Halt String × Session :=
  let (result, s) := output t "account" name c outside ["keys", "show", name, "-a"] s
  (result.map addressOf, s)

def ofAddress {α : Type} (c : Client) (outside : Outside) (words : List String)
    (read : List UInt8 → Except Failure α) (address : String) (t : Context) (s : Session) :
    Except Halt α × Session :=
  match output t "address" address c outside (words ++ [address]) s with
  | (.error halt, s) => (.error halt, s)
  | (.ok o, s) => decoded t read o s

def accountOfAddress (c : Client) (outside : Outside) (address : String) (t : Context)
    (s : Session) : Except Halt Account × Session :=
  ofAddress c outside ["query", "account"] Account.ofOutput address t s

def accountOfName (c : Client) (outside : Outside) (name : String) (t : Context) (s : Session) :
    Except Halt Account × Session :=
  match address c outside name t s with
  | (.error halt, s) => (.error halt, s)
  | (.ok address, s) => accountOfAddress c outside address t s

def balancesOfAddress (c : Client) (outside : Outside) (address : String) (t : Context)
    (s : Session) : Except Halt Balances × Session :=
  ofAddress c outside ["query", "bank", "balances"] Balances.ofOutput address t s

end NodeHarness.Lookup
