import GroovyViews.Emission
import GroovyViews.Text

/-!
# Sinks

A sink takes the bytes of a view, perhaps only so many of them. Lines that do not fit are stored
as far as they fit and end the run.
-/

namespace GroovyViews

/-- A place for bytes. -/
structure Sink where
  /-- The bytes stored so far. -/
  stored : List UInt8
  /-- How many more bytes fit, if there is a limit. -/
  room : Option Nat
  /-- Whether flushing fails. -/
  refusesFlush : Bool
  deriving DecidableEq, Repr

/-- How a run of steps on a sink ended. -/
structure SinkRun where
  /-- The sink afterwards. -/
  sink : Sink
  /-- The notices given. -/
  notices : List Notice
  /-- Success, the error of the steps, or that of the sink. -/
  outcome : Except ConversionError Unit

namespace Sink

/-- An empty sink without limits. -/
def unlimited : Sink := ⟨[], none, false⟩

/-- The sink after a write, and whether all bytes were stored. -/
def write (s : Sink) (bytes : List UInt8) : Sink × Bool :=
  match s.room with
  | none => ({ s with stored := s.stored ++ bytes }, true)
  | some room =>
    ({ s with stored := s.stored ++ bytes.take room, room := some (room - bytes.length) },
      bytes.length ≤ room)

/-- Carries out steps up to the first that fails; then `outcome` is that of the steps themselves. -/
def play (s : Sink) (outcome : Except ConversionError Unit) : List Step → SinkRun
  | [] => ⟨s, [], outcome⟩
  | .notice n :: rest =>
    let run := s.play outcome rest
    { run with notices := n :: run.notices }
  | .line indent text :: rest =>
    match s.write (Text.bytes (Step.line indent text).text) with
    | (s, true) => s.play outcome rest
    | (s, false) => ⟨s, [], .error (.io .sinkFull)⟩
  | .flush :: rest =>
    if s.refusesFlush then ⟨s, [], .error (.io .flushRefused)⟩ else s.play outcome rest

/-- Writes a view, or a part of one, to the sink. -/
def run (s : Sink) (e : Emission Unit) : SinkRun := s.play e.outcome e.trace

end Sink

end GroovyViews
