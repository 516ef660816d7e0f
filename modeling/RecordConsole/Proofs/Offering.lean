import RecordConsole.Proofs.Grammar
import RecordConsole.Proofs.Resolution

/-! What the sink of a run is offered: the chunks of the command that its line starts, if it starts
one, and then the diagnostic, if there is one and diagnostics are forwarded. -/
namespace RecordConsole

variable {σ : Type}

namespace Engine

section Execution

variable (engine : Engine) (roster : Roster) (session : Session) (sources : Sources)
  (line : String)

/-- The line starts this command in this context, in which its modifier has acted already. -/
inductive Executes : Command → Context → Prop
  | intro {inv before after command modifier context} :
      Line.Reads line session.author engine.config.selfKeyword inv before after →
      engine.registry.Finds ⟨inv.modifier, inv.command⟩ command modifier →
      modify modifier
        (.start roster session sources engine.config engine.registry.catalog inv) = .ok context →
      Executes command context

/-- The steps of the command that the line starts. A line that starts no command has none. -/
inductive Yields : List Step → Prop
  | started {command context} : engine.Executes roster session sources line command context →
      Yields (command.execute context).steps
  | refused : (¬ ∃ command context, engine.Executes roster session sources line command context) →
      Yields []

end Execution

variable {engine : Engine} {roster : Roster} {session : Session} {sources : Sources}
  {line : String}

theorem ready_eq_ok_iff {modifier : Option Modifier} {context : Context} :
    engine.ready roster session sources line modifier = .ok context ↔
      ∃ inv, Line.read line session.author engine.config.selfKeyword = .ok inv ∧
        modify modifier
          (.start roster session sources engine.config engine.registry.catalog inv) =
            .ok context := by
  unfold ready Engine.context
  cases Line.read line session.author engine.config.selfKeyword with
  | error e => simp [bind, Except.bind]
  | ok inv =>
    cases modifier with
    | none => simp [bind, Except.bind, modify]
    | some modifier =>
      simp only [bind, Except.bind, modify, Option.elim, Except.ok.injEq, exists_eq_left']
      cases modifier.apply (.start roster session sources engine.config engine.registry.catalog inv)
      · simp
      · simp

theorem Executes.of_read {inv : Invocation} {command : Command} {modifier : Option Modifier}
    {context : Context} (hread : Line.read line session.author engine.config.selfKeyword = .ok inv)
    (hfinds : engine.registry.Finds ⟨inv.modifier, inv.command⟩ command modifier)
    (hmodify : modify modifier
      (.start roster session sources engine.config engine.registry.catalog inv) = .ok context) :
    engine.Executes roster session sources line command context := by
  obtain ⟨before, after, hreads⟩ := Line.exists_reads hread
  exact .intro hreads hfinds hmodify

/-- A run gets as far as its output exactly if its line starts a command. -/
theorem prepare_eq_ok_iff {output : Output} :
    engine.prepare roster session sources line = .ok output ↔
      ∃ command context, engine.Executes roster session sources line command context ∧
        command.execute context = output := by
  rw [prepare_eq]
  constructor
  · intro h
    cases hresolve : engine.resolve line with
    | error refusal => simp [hresolve] at h
    | ok found =>
      obtain ⟨command, modifier⟩ := found
      cases hready : engine.ready roster session sources line modifier with
      | error refusal => simp [hresolve, hready, Except.map] at h
      | ok context =>
        obtain ⟨name, hname, hfinds⟩ := (resolve_eq_ok_iff engine line command modifier).mp hresolve
        obtain ⟨inv, hread, hmodify⟩ := ready_eq_ok_iff.mp hready
        obtain ⟨before, after, hreads⟩ := Line.exists_reads hread
        cases hname.symm.trans hreads.readName_eq
        refine ⟨command, context, .intro hreads hfinds hmodify, ?_⟩
        simpa [hresolve, hready, Except.map] using h
  · rintro ⟨command, context, ⟨hreads, hfinds, hmodify⟩, rfl⟩
    have hresolve := (resolve_eq_ok_iff engine line command _).mpr ⟨_, hreads.readName_eq, hfinds⟩
    have hready := ready_eq_ok_iff.mpr ⟨_, hreads.read_eq, hmodify⟩
    simp only [hresolve, hready, Except.map]

theorem Executes.ending_eq {command : Command} {context : Context}
    (h : engine.Executes roster session sources line command context) :
    engine.ending roster session sources line = .ofOutput (command.execute context) := by
  unfold ending
  rw [prepare_eq_ok_iff.mpr ⟨command, context, h, rfl⟩]

theorem Yields.unique {steps other : List Step}
    (h : engine.Yields roster session sources line steps)
    (h' : engine.Yields roster session sources line other) : steps = other := by
  cases h with
  | started hstarts =>
    cases h' with
    | started hstarts' =>
      have hsame := (prepare_eq_ok_iff.mpr ⟨_, _, hstarts, rfl⟩).symm.trans
        (prepare_eq_ok_iff.mpr ⟨_, _, hstarts', rfl⟩)
      rw [Except.ok.inj hsame]
    | refused hnone => exact absurd ⟨_, _, hstarts⟩ hnone
  | refused hnone =>
    cases h' with
    | started hstarts => exact absurd ⟨_, _, hstarts⟩ hnone
    | refused => rfl

theorem exists_yields (engine : Engine) (roster : Roster) (session : Session) (sources : Sources)
    (line : String) : ∃ steps, engine.Yields roster session sources line steps := by
  by_cases h : ∃ command context, engine.Executes roster session sources line command context
  · obtain ⟨command, context, hstarts⟩ := h
    exact ⟨_, .started hstarts⟩
  · exact ⟨_, .refused h⟩

theorem Yields.chunks_eq {steps : List Step}
    (h : engine.Yields roster session sources line steps) :
    (engine.ending roster session sources line).chunks = Step.leading steps := by
  cases h with
  | started hstarts =>
    rw [hstarts.ending_eq]
    rfl
  | refused hnone =>
    unfold ending
    cases hprepare : engine.prepare roster session sources line with
    | error refusal => rfl
    | ok output =>
      obtain ⟨command, context, hstarts, -⟩ := prepare_eq_ok_iff.mp hprepare
      exact absurd ⟨command, context, hstarts⟩ hnone

end Engine

/-! ## Forwarding of diagnostics -/

def Context.forwarding (forward : Bool) (context : Context) : Context :=
  { context with config := { context.config with forwardDiagnostics := forward } }

def Engine.forwarding (engine : Engine) (forward : Bool) : Engine :=
  { engine with config := { engine.config with forwardDiagnostics := forward } }

def Command.IgnoresForwarding (command : Command) : Prop :=
  ∀ forward context, (command.execute (context.forwarding forward)).steps =
    (command.execute context).steps

def Registry.IgnoresForwarding (registry : Registry) : Prop :=
  ∀ name command, registry.commands.find? name = some command → command.IgnoresForwarding

theorem Command.scripted_ignoresForwarding (name summary : String) (steps : List Step) :
    (scripted name summary steps).IgnoresForwarding := fun _ _ => rfl

theorem Registry.standard_ignoresForwarding : standard.IgnoresForwarding := by
  intro name command h
  have hmem := Table.mem_of_find?_ofList h
  simp only [List.map_cons, List.map_nil, List.mem_cons, List.not_mem_nil, Prod.mk.injEq,
    or_false] at hmem
  rcases hmem with ⟨-, rfl⟩ | ⟨-, rfl⟩ | ⟨-, rfl⟩ | ⟨-, rfl⟩ <;> intro forward context <;> rfl

theorem Registry.IgnoresForwarding.insert {registry : Registry}
    (h : registry.IgnoresForwarding) {command : Command} (hcommand : command.IgnoresForwarding) :
    { registry with
      commands := registry.commands.insert command.name command }.IgnoresForwarding := by
  intro name found hfind
  simp only [Table.find?_insert] at hfind
  split at hfind
  · exact Option.some.inj hfind ▸ hcommand
  · exact h name found hfind

theorem Context.blind_forwarding (forward : Bool) : Blind (forwarding forward) :=
  ⟨fun _ => rfl, fun _ => rfl⟩

namespace Engine

theorem ending_forwarding {engine : Engine} (ignores : engine.registry.IgnoresForwarding)
    (forward : Bool) (roster : Roster) (session : Session) (sources : Sources) (line : String) :
    ((engine.forwarding forward).ending roster session sources line).report =
      (engine.ending roster session sources line).report := by
  have hready (modifier : Option Modifier) :
      (engine.forwarding forward).ready roster session sources line modifier =
        (engine.ready roster session sources line modifier).map (Context.forwarding forward) := by
    refine ready_change (Context.blind_forwarding forward) ?_ modifier
    change (do let invocation ← Line.read line session.author engine.config.selfKeyword; _) = _
    unfold context
    cases Line.read line session.author engine.config.selfKeyword <;> rfl
  have hresolve : (engine.forwarding forward).resolve line = engine.resolve line := rfl
  unfold ending
  rw [prepare_eq, prepare_eq, hresolve]
  cases h : engine.resolve line with
  | error refusal => rfl
  | ok found =>
    obtain ⟨command, modifier⟩ := found
    obtain ⟨name, -, hfinds⟩ := (resolve_eq_ok_iff engine line command modifier).mp h
    have hsteps := ignores name.command command hfinds.command forward
    simp only [hready]
    cases engine.ready roster session sources line modifier with
    | error refusal => rfl
    | ok context => simp [Except.map, Ending.ofOutput, hsteps]

/-- Whatever ends a run, the sink is offered the chunks that the command of the line yields before
its first exit or fault, each once and in order, then the diagnostic if there is one to forward, and
no more. The output is made of the same chunks, and the report depends neither on the sink nor on
whether diagnostics are forwarded. A command that looks at that setting may yield other steps. -/
theorem run_delivery (engine : Engine) (roster : Roster) (session : Session) (sources : Sources)
    (line : String) (sink : Sink σ) (state : σ) :
    let run := engine.run roster session sources sink.logged (state, []) line
    (∃ steps, engine.Yields roster session sources line steps ∧
      (∀ other, engine.Yields roster session sources line other → other = steps) ∧
      run.sink.2 = Step.leading steps ++
        (if engine.config.forwardDiagnostics then run.report.diagnostic.toList else []) ∧
      run.report.output = String.join (Step.leading steps)) ∧
    run.sink.1 = (engine.run roster session sources sink state line).sink ∧
    (∀ {τ : Type} (other : Sink τ) (start : τ),
      (engine.run roster session sources other start line).report = run.report) ∧
    (engine.registry.IgnoresForwarding → ∀ (forward : Bool) {τ : Type} (other : Sink τ)
      (start : τ), ((engine.forwarding forward).run roster session sources other start
        line).report = run.report) := by
  intro run
  have hrun : run = _ := run_eq engine roster session sources sink.logged (state, []) line
  have hreport {τ : Type} (other : Sink τ) (start : τ) :
      (engine.run roster session sources other start line).report =
        (engine.ending roster session sources line).report := by rw [run_eq]
  refine ⟨?_, ?_, ?_, ?_⟩
  · obtain ⟨steps, hyields⟩ := exists_yields engine roster session sources line
    refine ⟨steps, hyields, fun other hother => hother.unique hyields, ?_, ?_⟩
    · rw [hrun, Sink.after_logged, Ending.offers, hyields.chunks_eq, List.nil_append]
    · rw [hreport, output_ending, hyields.chunks_eq]
  · rw [hrun, Sink.after_logged, run_eq]
  · intro τ other start
    rw [hreport, hreport]
  · intro ignores forward τ other start
    rw [run_eq, hreport]
    exact ending_forwarding ignores forward roster session sources line

theorem run_delivery_say :
    let say := Command.scripted "say" "" [.chunk "a", .chunk "b", .fault (.execution "c"), .exit 9]
    let engine : Engine :=
      ⟨{ Registry.standard with commands := Registry.standard.commands.insert say.name say }, {}⟩
    let everySecond : Sink Nat := fun _ count => (count % 2 == 0, count + 1)
    let sources : Sources := ⟨(Store.empty "users").source, (Store.empty "threads").source⟩
    let run := engine.run .empty ⟨"ada", false⟩ sources everySecond.logged (0, []) "say::self"
    engine.registry.IgnoresForwarding ∧
      run.sink.2 = ["a", "b", "❌ NXS Error: Execution error: c"] ∧ run.report.output = "ab" ∧
      ∀ forward, ((engine.forwarding forward).run .empty ⟨"ada", false⟩ sources everySecond 0
        "say::self").report = run.report := by
  intro say engine everySecond sources run
  have hignores : engine.registry.IgnoresForwarding :=
    Registry.standard_ignoresForwarding.insert (Command.scripted_ignoresForwarding _ _ _)
  have hread : Line.read "say::self" "ada" "self" = .ok ⟨none, "say", "self", "ada", ""⟩ := rfl
  have hfinds : engine.registry.Finds ⟨none, "say"⟩ say none :=
    ⟨by simp [engine, say, Command.scripted, Table.find?_insert], rfl⟩
  have hstarts : engine.Executes .empty ⟨"ada", false⟩ sources "say::self" say _ :=
    .of_read hread hfinds rfl
  have hdiagnostic : run.report.diagnostic = some "❌ NXS Error: Execution error: c" := by
    have hrun : run = _ := run_eq engine .empty ⟨"ada", false⟩ sources everySecond.logged (0, [])
      "say::self"
    rw [hrun, hstarts.ending_eq]
    rfl
  obtain ⟨⟨steps, -, hunique, hoffered, houtput⟩, -, -, hforwarding⟩ :=
    run_delivery engine .empty ⟨"ada", false⟩ sources "say::self" everySecond 0
  cases hunique _ (.started hstarts)
  refine ⟨hignores, ?_, houtput, fun forward => hforwarding hignores forward everySecond 0⟩
  refine hoffered.trans ?_
  rw [hdiagnostic]
  rfl

end Engine
end RecordConsole
