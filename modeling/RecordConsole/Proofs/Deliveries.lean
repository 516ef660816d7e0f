import RecordConsole.Proofs.Delivery
import RecordConsole.Proofs.Service

/-! Streams of steps delivered one after another, with one account kept of all of them. How a stream
ends is its own affair; what it had to offer by then is added to the account, and every refusal of
the sink is counted there and nowhere else. -/
namespace RecordConsole

variable {σ : Type}

/-- The ways in which a stream can end, and the chunks that come before. -/
inductive Step.Ends : List Step → List String → Except Fault Int → Prop
  | runsOut (chunks) : Ends (chunks.map .chunk) chunks (.ok 0)
  | exits (chunks code rest) : Ends (chunks.map .chunk ++ .exit code :: rest) chunks (.ok code)
  | fails (chunks cause rest) :
      Ends (chunks.map .chunk ++ .fault cause :: rest) chunks (.error cause)

theorem Step.Ends.chunk {steps : List Step} {chunks : List String} {result : Except Fault Int}
    (h : Ends steps chunks result) (text : String) :
    Ends (.chunk text :: steps) (text :: chunks) result := by
  cases h with
  | runsOut => exact .runsOut (text :: chunks)
  | exits _ code rest => exact .exits (text :: chunks) code rest
  | fails _ cause rest => exact .fails (text :: chunks) cause rest

theorem Step.ends (steps : List Step) : Ends steps (leading steps) (ending steps) := by
  induction steps with
  | nil => exact .runsOut []
  | cons step rest ih =>
    cases step with
    | chunk text => exact ih.chunk text
    | exit code => exact .exits [] code rest
    | fault cause => exact .fails [] cause rest

theorem Step.ends_iff {steps : List Step} {chunks : List String} {result : Except Fault Int} :
    Ends steps chunks result ↔ chunks = leading steps ∧ result = ending steps := by
  constructor
  · intro h
    cases h with
    | runsOut =>
      have hleading := leading_chunks chunks []
      have hending := ending_chunks chunks []
      rw [List.append_nil] at hleading hending
      exact ⟨by simp [hleading, leading], hending.symm⟩
    | exits _ code rest =>
      rw [leading_chunks, ending_chunks]
      simp [leading, ending]
    | fails _ cause rest =>
      rw [leading_chunks, ending_chunks]
      simp [leading, ending]
  · rintro ⟨rfl, rfl⟩
    exact ends steps

/-- A sink with a list beside its state, where every text offered to it is written down together
with whether it was taken. -/
def Sink.recorded (sink : Sink σ) : Sink (σ × List (String × Bool)) := fun text (state, log) =>
  ((sink text state).1, (sink text state).2, log ++ [(text, (sink text state).1)])

namespace Delivery

def next (sink : Sink σ) (held : Delivery × σ) (steps : List Step) :
    Except Fault Int × Delivery × σ :=
  deliver sink steps held.1 held.2

/-- The account is of just these chunks, and a sink with this log was offered just them. -/
structure Accounts (delivery : Delivery) (log : List (String × Bool)) (chunks : List String) :
    Prop where
  output : delivery.output = String.join chunks
  count : delivery.chunks = chunks.length
  rejected : delivery.rejected = log.countP fun entry => !entry.2
  offered : log.map (·.1) = chunks

theorem accounts_empty : Accounts {} [] [] := ⟨rfl, rfl, rfl, rfl⟩

theorem Accounts.add {delivery : Delivery} {log : List (String × Bool)} {chunks : List String}
    (h : Accounts delivery log chunks) (text : String) (taken : Bool) :
    Accounts (delivery.add text taken) (log ++ [(text, taken)]) (chunks ++ [text]) := by
  constructor
  · simp [Delivery.add, h.output]
  · simp [Delivery.add, h.count]
  · cases taken with
    | true => simp [Delivery.add, h.rejected]
    | false => simp [Delivery.add, h.rejected]
  · simp [h.offered]

theorem Accounts.deliver {delivery : Delivery} {log : List (String × Bool)} {chunks : List String}
    (h : Accounts delivery log chunks) (sink : Sink σ) (state : σ) (steps : List Step) :
    Accounts (deliver sink.recorded steps delivery (state, log)).2.1
      (deliver sink.recorded steps delivery (state, log)).2.2.2
      (chunks ++ Step.leading steps) := by
  induction steps generalizing delivery log chunks state with
  | nil => simpa [Delivery.deliver, Step.leading] using h
  | cons step rest ih =>
    cases step with
    | exit code => simpa [Delivery.deliver, Step.leading] using h
    | fault cause => simpa [Delivery.deliver, Step.leading] using h
    | chunk text =>
      have hrest := ih (h.add text (sink text state).1) (sink text state).2
      rw [List.append_assoc] at hrest
      exact hrest

theorem Accounts.after {held : Delivery × σ × List (String × Bool)} {chunks : List String}
    (h : Accounts held.1 held.2.2 chunks) (sink : Sink σ) (streams : List (List Step)) :
    Accounts (Service.after (next sink.recorded) held streams).1
      (Service.after (next sink.recorded) held streams).2.2
      (chunks ++ streams.flatMap Step.leading) := by
  induction streams generalizing held chunks with
  | nil => simpa [Service.after] using h
  | cons steps rest ih =>
    have hnext := h.deliver sink held.2.1 steps
    rw [Service.after_cons, List.flatMap_cons, ← List.append_assoc]
    exact ih hnext

theorem results_eq (sink : Sink σ) (held : Delivery × σ) (streams : List (List Step)) :
    (Service.history (next sink) held streams).map (·.2) = streams.map Step.ending := by
  induction streams generalizing held with
  | nil => rfl
  | cons steps rest ih =>
    have hresult : (next sink held steps).1 = Step.ending steps := by
      rw [next, deliver_eq]
    rw [Service.history, List.map_cons, List.map_cons, hresult, ih]

/-! ## Writing down what happens changes nothing -/

def unrecorded (held : Delivery × σ × List (String × Bool)) : Delivery × σ :=
  (held.1, held.2.1)

theorem deliver_recorded (sink : Sink σ) (steps : List Step) (delivery : Delivery) (state : σ)
    (log : List (String × Bool)) :
    unrecorded (deliver sink.recorded steps delivery (state, log)).2 =
      (deliver sink steps delivery state).2 := by
  induction steps generalizing delivery state log with
  | nil => rfl
  | cons step rest ih =>
    cases step with
    | exit code => rfl
    | fault cause => rfl
    | chunk text =>
      exact ih (delivery.add text (sink text state).1) (sink text state).2 _

theorem after_recorded (sink : Sink σ) (held : Delivery × σ × List (String × Bool))
    (streams : List (List Step)) :
    unrecorded (Service.after (next sink.recorded) held streams) =
      Service.after (next sink) (unrecorded held) streams := by
  refine (List.foldl_hom unrecorded ?_).symm
  intro held steps
  exact (deliver_recorded sink steps held.1 held.2.1 held.2.2).symm

/-- After any number of streams the account is of the chunks of all of them, each up to the first
exit or fault of its stream, and the sink was offered them in this order and nothing else; what it
refused is counted. Each stream gives the result that its own steps end with, whatever the sink does
and however the streams before it have ended. -/
theorem accounts_for_streams (sink : Sink σ) (state : σ) (streams : List (List Step)) :
    (∀ k, let held := Service.after (next sink.recorded) ({}, state, []) (streams.take k)
      Accounts held.1 held.2.2 ((streams.take k).flatMap Step.leading) ∧
        unrecorded held = Service.after (next sink) ({}, state) (streams.take k)) ∧
      (Service.history (next sink) ({}, state) streams).map (·.2) = streams.map Step.ending ∧
      ∀ steps chunks result, Step.Ends steps chunks result ↔
        chunks = Step.leading steps ∧ result = Step.ending steps := by
  refine ⟨?_, results_eq sink _ streams, fun _ _ _ => Step.ends_iff⟩
  intro k held
  constructor
  · exact @Accounts.after σ ({}, state, []) [] accounts_empty sink (streams.take k)
  · exact after_recorded sink _ _

example :
    let everySecond : Sink Nat := fun _ count => (count % 2 == 0, count + 1)
    Service.after (next everySecond) ({}, 0)
        [[.chunk "a", .fault (.execution "b"), .chunk "c"], [.chunk "d", .exit 7, .chunk "e"]] =
      (⟨"ad", 2, 1⟩, 2) := by decide

end Delivery

end RecordConsole
