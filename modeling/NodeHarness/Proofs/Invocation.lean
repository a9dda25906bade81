import NodeHarness.Client
import NodeHarness.Proofs.Effects

/-! One command of a client. It makes one call, with the completed words, and what it gives is the
reply to that call. The world around it gains notes and nothing else. -/
namespace NodeHarness

namespace World

/-- Notes were taken between two worlds, and nothing else was done. -/
structure NotedOnly (before after : World) : Prop where
  journal : after.journal = before.journal
  signals : after.signals = before.signals
  patience : after.patience = before.patience
  quiet : Quiet before after

theorem NotedOnly.note (w : World) (n : Note) : NotedOnly w (w.note n) :=
  ⟨rfl, rfl, rfl, .cons rfl rfl⟩

theorem NotedOnly.trans {first middle last : World} (a : NotedOnly first middle)
    (b : NotedOnly middle last) : NotedOnly first last :=
  ⟨b.journal.trans a.journal, b.signals.trans a.signals, b.patience.trans a.patience,
    a.quiet.trans b.quiet⟩

end World

namespace Client

variable (c : Client) (outside : Outside) (words : List String) (input : String) (s : Session)

/-- The call that a command makes in a session. -/
def callOf : Call := ⟨c.daemon, c.complete outside words s, input⟩

def replyTo : Reply := outside.run s.calls.length (c.callOf outside words input s)

theorem invoke_result :
    (c.invoke outside words input s).1 =
      (c.judge (c.complete outside words s) (c.replyTo outside words input s)).1 := rfl

theorem invoke_calls :
    (c.invoke outside words input s).2.calls = c.callOf outside words input s :: s.calls := by
  simp only [invoke]
  split <;> rfl

theorem invoke_world : World.NotedOnly s.world (c.invoke outside words input s).2.world := by
  simp only [invoke]
  split
  · exact (World.NotedOnly.note _ _).trans (World.NotedOnly.note _ _)
  · exact World.NotedOnly.note _ _

/-- How a command fails, and the record of its run; one that did not begin has none. -/
inductive Refuses : Reply → Failure → String → Prop
  | unbegun {cause : String} : Refuses (.error cause) (.spawn c.daemon cause) ""
  | unsuccessful {finished : Finished} : finished.success = false →
      Refuses (.ok finished)
        (.command finished.exitCode finished.output
          (Command.record c.daemon words finished.output))
        (Command.record c.daemon words finished.output)

theorem judge_refused {c : Client} {words : List String} {reply : Reply} {failure : Failure}
    {log : String} (refuses : c.Refuses words reply failure log) :
    (c.judge words reply).1 = .error failure ∧ failure.commandLog.getD "" = log := by
  cases refuses with
  | unbegun => exact ⟨rfl, rfl⟩
  | unsuccessful failed => exact ⟨by simp [judge, failed], rfl⟩

theorem judge_succeeded {finished : Finished} (success : finished.success = true) :
    (c.judge words (.ok finished)).1 =
      .ok ⟨finished.output, Command.record c.daemon words finished.output⟩ := by
  simp [judge, success]

theorem refuses_or_succeeds (reply : Reply) :
    (∃ failure log, c.Refuses words reply failure log) ∨
      ∃ finished, reply = .ok finished ∧ finished.success = true := by
  cases reply with
  | error cause => exact .inl ⟨_, _, .unbegun⟩
  | ok finished =>
    cases ended : finished.success with
    | false => exact .inl ⟨_, _, .unsuccessful ended⟩
    | true => exact .inr ⟨finished, rfl, ended⟩

end Client
end NodeHarness
