import RecordConsole.Command
import RecordConsole.Report

/-!
Delivering what a command yields. Every chunk is offered to the sink once and in order, and is kept
whether the sink takes it or not; the first exit or fault ends the delivery.
-/
namespace RecordConsole

/-- A receiver of texts with a state of its own. It tells whether it took the text. -/
abbrev Sink (σ : Type) := String → σ → Bool × σ

/-- What was delivered so far, over any number of runs. -/
structure Delivery where
  output : String := ""
  chunks : Nat := 0
  rejected : Nat := 0
deriving DecidableEq, Repr

namespace Delivery

def add (delivery : Delivery) (text : String) (taken : Bool) : Delivery where
  output := delivery.output ++ text
  chunks := delivery.chunks + 1
  rejected := if taken then delivery.rejected else delivery.rejected + 1

variable {σ : Type}

/-- Delivers the steps of one run and gives its exit code, or the fault that ended it. Steps that
run out count as a success. -/
def deliver (sink : Sink σ) : List Step → Delivery → σ → Except Fault Int × Delivery × σ
  | [], delivery, state => (.ok Status.success.code, delivery, state)
  | .exit code :: _, delivery, state => (.ok code, delivery, state)
  | .fault fault :: _, delivery, state => (.error fault, delivery, state)
  | .chunk text :: rest, delivery, state =>
    let (taken, state) := sink text state
    deliver sink rest (delivery.add text taken) state

end Delivery
end RecordConsole
