import NodeHarness.Handle

/-! Log records as a log line shows them. Records come from contexts without a test, and from
plain log calls, which keep their target a second time. -/
namespace NodeHarness

structure LogRecord where
  level : Level
  target : String
  message : String
  callSite : Bool
  fields : Option String
  fatal : Bool
  plain : Bool
  deriving DecidableEq

namespace LogRecord

def contextTarget : String := "pylons::evtesting"

def bare (level : Level) (target message : String) : LogRecord :=
  ⟨level, target, message, false, none, false, false⟩

def ofPlain (level : Level) (target message : String) : LogRecord :=
  ⟨level, target, message, false, none, false, true⟩

def ofNote? : Note → Option LogRecord
  | .record level fields message fatal =>
    some ⟨level, contextTarget, message, false, some fields.compact, fatal, false⟩
  | .callSite => some ⟨.trace, contextTarget, "", true, none, false, false⟩
  | .logged level target message => some (ofPlain level target message)
  | .report _ => none
  | .printed _ => none

def names (r : LogRecord) : List String :=
  if r.plain then ["message", "log.target", "log.module_path", "log.file", "log.line"]
  else if r.callSite then ["message", "file_line", "func"]
  else ["message"] ++ (if r.fields.isSome then ["fields"] else [])
    ++ (if r.fatal then ["fatal"] else [])

def parts (r : LogRecord) : List (String × Json) :=
  [("message", .text r.message)]
    ++ (match r.fields with
      | some fields => [("fields", .text fields)]
      | none => [])
    ++ (if r.fatal then [("fatal", .bool true)] else [])
    ++ (if r.plain then [("log.target", .text r.target)] else [])

def line (r : LogRecord) : String :=
  (Json.object [("level", .text (r.level.directive.map Char.toUpper)),
    ("fields", .object r.parts), ("target", .text r.target)]).compact

end LogRecord
end NodeHarness
