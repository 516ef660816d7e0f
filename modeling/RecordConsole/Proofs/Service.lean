/-! Requests served one after another, each with an answer and a next state. What one request keeps
of a state and a log is kept by any number of them, and requests that a part of the state does not
notice can be left out without a trace in it. -/
namespace RecordConsole.Service

variable {σ ρ α δ : Type} (serve : σ → ρ → α × σ)

def after (state : σ) (requests : List ρ) : σ :=
  requests.foldl (fun state request => (serve state request).2) state

def history (state : σ) : List ρ → List (ρ × α)
  | [] => []
  | request :: rest =>
    (request, (serve state request).1) :: history (serve state request).2 rest

theorem after_cons (state : σ) (request : ρ) (rest : List ρ) :
    after serve state (request :: rest) = after serve (serve state request).2 rest := rfl

variable {serve}

/-- If a state stands for a log, and still does after one request with the entry that the request
and its answer add, then it does after all requests with all their entries. -/
theorem invariant_after {Inv : σ → List δ → Prop} {logged? : ρ × α → Option δ}
    (step : ∀ state log request, Inv state log →
      Inv (serve state request).2 (log ++ (logged? (request, (serve state request).1)).toList))
    {state : σ} {log : List δ} (h : Inv state log) (requests : List ρ) :
    Inv (after serve state requests) (log ++ (history serve state requests).filterMap logged?) := by
  induction requests generalizing state log with
  | nil => simpa [after, history] using h
  | cons request rest ih =>
    have hrest := ih (step state log request h)
    rw [List.append_assoc] at hrest
    rw [after_cons, history, List.filterMap_cons]
    cases hentry : logged? (request, (serve state request).1) with
    | none => simpa [hentry] using hrest
    | some entry => simpa [hentry] using hrest

/-- Two states with the same part stay alike and answer the kept requests alike, though the others
are served in the one and not in the other. -/
theorem history_filter {Alike : σ → σ → Prop} {keep : ρ → Bool}
    (kept : ∀ state other request, keep request = true → Alike state other →
      (serve state request).1 = (serve other request).1 ∧
        Alike (serve state request).2 (serve other request).2)
    (skipped : ∀ state other request, keep request = false → Alike state other →
      Alike (serve state request).2 other)
    {state other : σ} (h : Alike state other) (requests : List ρ) :
    (history serve state requests).filter (fun entry => keep entry.1) =
        history serve other (requests.filter keep) ∧
      Alike (after serve state requests) (after serve other (requests.filter keep)) := by
  induction requests generalizing state other with
  | nil => exact ⟨rfl, h⟩
  | cons request rest ih =>
    rw [history, List.filter_cons, List.filter_cons, after_cons]
    cases hkeep : keep request with
    | true =>
      obtain ⟨hanswer, hnext⟩ := kept state other request hkeep h
      obtain ⟨hhistory, hafter⟩ := ih hnext
      refine ⟨?_, hafter⟩
      rw [if_pos rfl, if_pos rfl, history, hanswer, hhistory]
    | false => exact ih (skipped state other request hkeep h)

end RecordConsole.Service
