import RecordConsole.Proofs.Preparation
import RecordConsole.Proofs.Table

/-! What delivering steps comes to, for every sink: the chunks in front of the first exit or
fault are offered, and they alone make up the output. A run is a delivery with at most one
diagnostic after it. -/
namespace RecordConsole

variable {σ : Type}

namespace Step

def leading : List Step → List String
  | .chunk text :: rest => text :: leading rest
  | _ => []

def ending : List Step → Except Fault Int
  | [] => .ok Status.success.code
  | .chunk _ :: rest => ending rest
  | .exit code :: _ => .ok code
  | .fault cause :: _ => .error cause

theorem leading_chunks (chunks : List String) (rest : List Step) :
    leading (chunks.map .chunk ++ rest) = chunks ++ leading rest := by
  induction chunks with
  | nil => rfl
  | cons text _ ih => exact congrArg (text :: ·) ih

theorem ending_chunks (chunks : List String) (rest : List Step) :
    ending (chunks.map .chunk ++ rest) = ending rest := by
  induction chunks with
  | nil => rfl
  | cons _ _ ih => exact ih

/-- A list of steps is its leading chunks and then nothing, an exit or a fault. -/
theorem steps_cases (steps : List Step) :
    (steps = (leading steps).map .chunk ∧ ending steps = .ok Status.success.code) ∨
    (∃ code rest, steps = (leading steps).map .chunk ++ .exit code :: rest ∧
      ending steps = .ok code) ∨
    (∃ cause rest, steps = (leading steps).map .chunk ++ .fault cause :: rest ∧
      ending steps = .error cause) := by
  induction steps with
  | nil => exact Or.inl ⟨rfl, rfl⟩
  | cons step rest ih =>
    cases step with
    | chunk text =>
      rcases ih with ⟨hs, he⟩ | ⟨code, more, hs, he⟩ | ⟨cause, more, hs, he⟩
      · exact Or.inl ⟨congrArg (Step.chunk text :: ·) hs, he⟩
      · exact Or.inr (Or.inl ⟨code, more, congrArg (Step.chunk text :: ·) hs, he⟩)
      · exact Or.inr (Or.inr ⟨cause, more, congrArg (Step.chunk text :: ·) hs, he⟩)
    | exit code => exact Or.inr (Or.inl ⟨code, rest, rfl, rfl⟩)
    | fault cause => exact Or.inr (Or.inr ⟨cause, rest, rfl, rfl⟩)

end Step

namespace Sink

def after (sink : Sink σ) (texts : List String) (state : σ) : σ :=
  texts.foldl (fun state text => (sink text state).2) state

def refusals (sink : Sink σ) : List String → σ → Nat
  | [], _ => 0
  | text :: rest, state =>
    (if (sink text state).1 then 0 else 1) + refusals sink rest (sink text state).2

def logged (sink : Sink σ) : Sink (σ × List String) := fun text (state, log) =>
  ((sink text state).1, (sink text state).2, log ++ [text])

theorem after_append (sink : Sink σ) (texts more : List String) (state : σ) :
    sink.after (texts ++ more) state = sink.after more (sink.after texts state) :=
  List.foldl_append

theorem after_logged (sink : Sink σ) (texts : List String) (state : σ) (log : List String) :
    sink.logged.after texts (state, log) = (sink.after texts state, log ++ texts) := by
  induction texts generalizing state log with
  | nil => simp [after]
  | cons text rest ih =>
    have h := ih (sink text state).2 (log ++ [text])
    simpa [after, logged] using h

end Sink

/-- Nothing but the chunks in front of the first exit or fault reaches the sink, and nothing that
the sink does changes how the delivery ends or what it keeps. -/
theorem Delivery.deliver_eq (sink : Sink σ) (steps : List Step) (delivery : Delivery) (state : σ) :
    deliver sink steps delivery state =
      (Step.ending steps,
        { output := delivery.output ++ String.join (Step.leading steps)
          chunks := delivery.chunks + (Step.leading steps).length
          rejected := delivery.rejected + sink.refusals (Step.leading steps) state },
        sink.after (Step.leading steps) state) := by
  induction steps generalizing delivery state with
  | nil => simp [deliver, Step.ending, Step.leading, Sink.refusals, Sink.after]
  | cons step rest ih =>
    cases step with
    | exit code => simp [deliver, Step.ending, Step.leading, Sink.refusals, Sink.after]
    | fault cause => simp [deliver, Step.ending, Step.leading, Sink.refusals, Sink.after]
    | chunk text =>
      have step : deliver sink (.chunk text :: rest) delivery state =
          deliver sink rest (delivery.add text (sink text state).1) (sink text state).2 := rfl
      rw [step, ih]
      simp only [Step.ending, Step.leading, Sink.after, List.foldl_cons, List.length_cons,
        Prod.mk.injEq, Delivery.mk.injEq, true_and, and_true]
      refine ⟨?_, ?_, ?_⟩
      · simp [add, String.append_assoc]
      · simp only [add]
        omega
      · rw [Sink.refusals]
        cases (sink text state).1
        · simp [add]
          omega
        · simp [add]

/-- What there is to say about a run whatever sink it has: its report, the chunks that its command
had delivered, and the stores that were fetched from. -/
structure Ending where
  report : Report
  chunks : List String
  fetched : List StoreKind
deriving DecidableEq, Repr

namespace Ending

def refused (refusal : Refusal) : Ending := ⟨.failed refusal.status "" refusal.line, [], []⟩

def ofOutput (output : Output) : Ending where
  report := match Step.ending output.steps with
    | .ok code => .completed code (String.join (Step.leading output.steps))
    | .error cause => .failed .internalError (String.join (Step.leading output.steps)) cause.line
  chunks := Step.leading output.steps
  fetched := output.fetched

def offers (ending : Ending) (forward : Bool) : List String :=
  ending.chunks ++ if forward then ending.report.diagnostic.toList else []

theorem output_refused (refusal : Refusal) :
    (refused refusal).report.output = String.join (refused refusal).chunks := rfl

theorem output_ofOutput (output : Output) :
    (ofOutput output).report.output = String.join (ofOutput output).chunks := by
  unfold ofOutput
  cases Step.ending output.steps <;> rfl

end Ending

namespace Engine

def ending (engine : Engine) (roster : Roster) (session : Session) (sources : Sources)
    (line : String) : Ending :=
  match engine.prepare roster session sources line with
  | .error refusal => .refused refusal
  | .ok output => .ofOutput output

theorem sink_refuse (engine : Engine) (sink : Sink σ) (refusal : Refusal) (output : String)
    (fetched : List StoreKind) (state : σ) :
    (engine.refuse sink refusal output fetched state).sink =
      sink.after (if engine.config.forwardDiagnostics then [refusal.line] else []) state := by
  unfold refuse
  cases engine.config.forwardDiagnostics <;> rfl

/-- A run is its ending, with the texts of the ending offered to the sink. -/
theorem run_eq (engine : Engine) (roster : Roster) (session : Session) (sources : Sources)
    (sink : Sink σ) (state : σ) (line : String) :
    engine.run roster session sources sink state line =
      { report := (engine.ending roster session sources line).report
        sink := sink.after ((engine.ending roster session sources line).offers
          engine.config.forwardDiagnostics) state
        fetched := (engine.ending roster session sources line).fetched } := by
  unfold run ending
  cases engine.prepare roster session sources line with
  | error refusal =>
    have h := sink_refuse engine sink refusal "" [] state
    exact congrArg (fun left => (⟨.failed refusal.status "" refusal.line, left, []⟩ : Run σ)) h
  | ok output =>
    simp only [Delivery.deliver_eq, Ending.ofOutput, Ending.offers, String.empty_append]
    cases Step.ending output.steps with
    | ok code => simp [Report.completed, Sink.after]
    | error cause =>
      have h := sink_refuse engine sink (.fault cause) (String.join (Step.leading output.steps))
        output.fetched (sink.after (Step.leading output.steps) state)
      simp only [Report.failed, Sink.after_append]
      exact congrArg (fun left => (⟨_, left, _⟩ : Run σ)) h

theorem output_ending (engine : Engine) (roster : Roster) (session : Session) (sources : Sources)
    (line : String) :
    (engine.ending roster session sources line).report.output =
      String.join (engine.ending roster session sources line).chunks := by
  unfold ending
  cases engine.prepare roster session sources line with
  | error refusal => exact Ending.output_refused refusal
  | ok output => exact Ending.output_ofOutput output

end Engine

def Command.scripted (name summary : String) (steps : List Step) : Command where
  name
  summary
  execute _ := { steps }

end RecordConsole
