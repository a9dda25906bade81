import NodeHarness.Telemetry.Record
import NodeHarness.Text.Blank
import NodeHarness.Text.Decimal
import NodeHarness.Text.Letters

/-! Filters of log records. A filter is a list of directives, read from a text with commas
between them. Each directive has a threshold and may ask for a target, for a span around the
record, and for fields of it. Of the directives that fit a record the most specific one decides;
a record that none fits is dropped. -/
namespace NodeHarness

/-- `threshold` is none when everything is off. A directive that is `conditional` asks for a span or
for a value of a field, and no record here has either. -/
structure Directive where
  target : Option (List Char)
  field : Option (List Char)
  conditional : Bool
  threshold : Option Level
  deriving DecidableEq

namespace Directive

/-- The threshold of a directive that gives none. -/
def unlimited : Option Level := some .trace

/-- The thresholds by number, from off to trace. -/
def byNumber : List (Option Level) :=
  [none, some .error, some .warn, some .info, some .debug, some .trace]

def threshold? (cs : List Char) : Option (Option Level) :=
  match Text.Decimal.readBelow Text.Decimal.words64 cs with
  | .ok n => byNumber[n]?
  | .error _ =>
    match String.ofList (cs.map Char.toLower) with
    | "off" => some none
    | "error" => some (some .error)
    | "warn" => some (some .warn)
    | "info" => some (some .info)
    | "debug" => some (some .debug)
    | "trace" => some (some .trace)
    | _ => none

/-- Reads what stands behind an equals sign; nothing is no limit. -/
def level? (cs : List Char) : Option (Option Level) :=
  if cs.isEmpty then some unlimited else threshold? cs

def startsTarget (c : Char) : Bool := c = '-' || c = ':' || c = '_' || Text.isLetterOrDigit c

/-- Reads what stands behind a target and a span. -/
def tail? (d : Directive) : List Char → Option Directive
  | '=' :: cs => (level? cs).map fun threshold => { d with threshold }
  | cs => if cs.all Text.isBlank then some d else none

/-- Reads a span with its brackets, from behind the first one. -/
def span? (target : Option (List Char)) (cs : List Char) : Option Directive :=
  let stops (c : Char) : Bool := c = ']' || c = '\x7b'
  let name := cs.takeWhile fun c => !stops c
  match cs.dropWhile fun c => !stops c with
  | ']' :: rest => tail? ⟨target, none, true, unlimited⟩ rest
  | '\x7b' :: rest =>
    let field := rest.takeWhile (· ≠ '\x7d')
    match rest.dropWhile (· ≠ '\x7d') with
    | '\x7d' :: ']' :: rest =>
      if field.isEmpty then none
      else tail? ⟨target, some field, !name.isEmpty || field.contains '=', unlimited⟩ rest
    | _ => none
  | _ => none

/-- Reads a directive that has no white space in front of it. -/
def ofTight? (cs : List Char) : Option Directive :=
  let name := cs.takeWhile fun c => c != '=' && c != '['
  if cs.head?.any startsTarget then
    match cs.dropWhile fun c => c != '=' && c != '[' with
    | [] =>
      match threshold? name with
      | some threshold => some ⟨none, none, false, threshold⟩
      | none => some ⟨some name, none, false, unlimited⟩
    | '[' :: rest => span? (some name) rest
    | rest => tail? ⟨some name, none, false, unlimited⟩ rest
  else
    match cs with
    | '[' :: rest => span? none rest
    | _ => none

/-- Whether an equals sign stands behind the span of a directive, or behind its target. -/
def givesLevel (cs : List Char) : Bool :=
  match cs.dropWhile fun c => c != '=' && c != '[' with
  | '[' :: rest => (rest.dropWhile (· ≠ ']')).contains '='
  | rest => !rest.isEmpty

/-- Reads a directive. White space in front of it is taken for the beginning of its name, so that
it is about no record, and leaves no level readable. -/
def ofChars? (cs : List Char) : Option Directive :=
  if cs.head?.any Text.isBlank then
    let tight := cs.dropWhile Text.isBlank
    if givesLevel tight then none
    else (ofTight? tight).map fun _ => ⟨some cs, none, false, unlimited⟩
  else ofTight? cs

def targetLength (d : Directive) : Option Nat :=
  d.target.map fun cs => (String.ofList cs).utf8ByteSize

/-- Orders by length of the target and then by the number of fields, the more specific first;
what is left is ordered by name. -/
def order (a b : Directive) : Ordering :=
  (compareOptions a.targetLength b.targetLength
    |>.then (compare (a.field.isSome.toNat) (b.field.isSome.toNat))
    |>.then (compareOptions (a.target.map String.ofList) (b.target.map String.ofList))
    |>.then (compareOptions (a.field.map String.ofList) (b.field.map String.ofList))).swap
where
  compareOptions {α : Type} [Ord α] : Option α → Option α → Ordering
    | none, none => .eq
    | none, some _ => .lt
    | some _, none => .gt
    | some a, some b => compare a b

def fits (d : Directive) (r : LogRecord) : Bool :=
  (match d.target with
    | some target => target.isPrefixOf r.target.toList
    | none => true)
    && match d.field with
      | some field => r.names.contains (String.ofList field)
      | none => true

def admits (d : Directive) (r : LogRecord) : Bool :=
  match d.threshold with
  | some threshold => r.level.enabledAt threshold
  | none => false

end Directive

structure Filter where
  directives : List Directive
  deriving DecidableEq

namespace Filter

/-- Puts a directive in its place; one that is as specific and about the same is replaced. -/
def insert (d : Directive) : List Directive → List Directive
  | [] => [d]
  | other :: rest =>
    match d.order other with
    | .lt => d :: other :: rest
    | .eq => d :: rest
    | .gt => other :: insert d rest

/-- A filter of directives; those that are conditional let nothing through. -/
def ofDirectives (ds : List Directive) : Filter :=
  ⟨(ds.filter fun d => !d.conditional).foldl (fun sorted d => insert d sorted) []⟩

def directives? : List (List Char) → Option (List Directive)
  | [] => some []
  | piece :: rest =>
    match Directive.ofChars? piece, directives? rest with
    | some d, some ds => some (d :: ds)
    | _, _ => none

/-- Reads a filter; empty pieces between commas are skipped. -/
def ofText? (s : String) : Option Filter :=
  (directives? ((Text.pieces ',' s.toList).filter fun piece => !piece.isEmpty)).map ofDirectives

def passes (f : Filter) (r : LogRecord) : Bool :=
  match f.directives.find? fun d => d.fits r with
  | some d => d.admits r
  | none => false

end Filter
end NodeHarness
