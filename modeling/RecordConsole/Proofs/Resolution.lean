import RecordConsole.Proofs.Delivery
import RecordConsole.Proofs.Line

/-! The order in which a run is decided. Names are looked up before the rest of the line is read,
the command before the modifier; then come the target, the modifier and the steps of the command.
Each rule below holds only where none of those above it does. -/
namespace RecordConsole

namespace Engine

variable {σ : Type}

/-- The line has its names in the registry and has a target, and this is the context in which its
command starts. The names that the context shows are those that were looked up. -/
structure Starts (engine : Engine) (roster : Roster) (session : Session) (sources : Sources)
    (line : String) (command : Command) (modifier : Option Modifier) (context : Context) :
    Prop where
  names : Line.Calls (Line.nameWords line)
    ⟨context.invocation.modifier, context.invocation.command⟩
  finds : engine.registry.Finds ⟨context.invocation.modifier, context.invocation.command⟩
    command modifier
  targeted : Line.Targeted line
  context : engine.context roster session sources line = .ok context

def modify (modifier : Option Modifier) (context : Context) : Except Fault Context :=
  modifier.elim (.ok context) fun modifier => modifier.apply context

/-- How a run is decided, by the first rule that applies. -/
inductive Decides (engine : Engine) (roster : Roster) (session : Session) (sources : Sources)
    (line : String) : Ending → Prop where
  | noName : Line.nameWords line = [] →
      Decides engine roster session sources line
        ⟨.failed .internalError "" LineError.missingName.fault.line, [], []⟩
  | unknownCommand {name : CallName} : Line.Calls (Line.nameWords line) name →
      engine.registry.commands.find? name.command = none →
      Decides engine roster session sources line
        ⟨.failed .unknownCommand "" (unknownCommandLine name.command), [], []⟩
  | unknownModifier {name : CallName} {command modifier} :
      Line.Calls (Line.nameWords line) name →
      engine.registry.commands.find? name.command = some command →
      name.modifier = some modifier → engine.registry.modifiers.find? modifier = none →
      Decides engine roster session sources line
        ⟨.failed .unknownCommand "" (unknownModifierLine modifier), [], []⟩
  | noSeparator {name : CallName} {command modifier} : Line.Calls (Line.nameWords line) name →
      engine.registry.Finds name command modifier → ¬ Line.HasSeparator line.toList →
      Decides engine roster session sources line
        ⟨.failed .internalError "" (LineError.missingSeparator line).fault.line, [], []⟩
  | noTarget {name : CallName} {command modifier before after} :
      Line.Calls (Line.nameWords line) name → engine.registry.Finds name command modifier →
      Line.SplitsAt line.toList before after → (∀ c ∈ after, Text.isBlank c = true) →
      Decides engine roster session sources line
        ⟨.failed .internalError "" (LineError.missingTarget name.command).fault.line, [], []⟩
  | modifierFails {command modifier context fault} :
      engine.Starts roster session sources line command modifier context →
      modify modifier context = .error fault →
      Decides engine roster session sources line ⟨.failed .internalError "" fault.line, [], []⟩
  | commandFails {command modifier context ready chunks fault rest} :
      engine.Starts roster session sources line command modifier context →
      modify modifier context = .ok ready →
      (command.execute ready).steps = chunks.map .chunk ++ .fault fault :: rest →
      Decides engine roster session sources line
        ⟨.failed .internalError (String.join chunks) fault.line, chunks,
          (command.execute ready).fetched⟩
  | exits {command modifier context ready chunks code rest} :
      engine.Starts roster session sources line command modifier context →
      modify modifier context = .ok ready →
      (command.execute ready).steps = chunks.map .chunk ++ .exit code :: rest →
      Decides engine roster session sources line
        ⟨.completed code (String.join chunks), chunks, (command.execute ready).fetched⟩
  | runsOut {command modifier context ready chunks} :
      engine.Starts roster session sources line command modifier context →
      modify modifier context = .ok ready →
      (command.execute ready).steps = chunks.map .chunk →
      Decides engine roster session sources line
        ⟨.completed 0 (String.join chunks), chunks, (command.execute ready).fetched⟩

theorem context_targeted (engine : Engine) (roster : Roster) (session : Session)
    (sources : Sources) {line : String} {name : CallName} {before after : List Char}
    (hname : Line.readName line = .ok name) (hsplit : Line.SplitsAt line.toList before after)
    (h : ∃ c ∈ after, Text.isBlank c = false) :
    engine.context roster session sources line =
      .ok (.start roster session sources engine.config engine.registry.catalog
        (Line.invocation name after session.author engine.config.selfKeyword)) := by
  unfold context
  rw [Line.read_targeted hname hsplit h]
  rfl

theorem context_error (engine : Engine) (roster : Roster) (session : Session)
    (sources : Sources) {line : String} {e : LineError}
    (h : Line.read line session.author engine.config.selfKeyword = .error e) :
    engine.context roster session sources line = .error e := by
  unfold context
  rw [h]
  rfl

theorem ending_of_resolve_error {engine : Engine} {line : String} {refusal : Refusal}
    (h : engine.resolve line = .error refusal) (roster : Roster) (session : Session)
    (sources : Sources) :
    engine.ending roster session sources line = .refused refusal := by
  unfold ending
  rw [prepare_eq, h]

theorem ending_of_context_error {engine : Engine} {roster : Roster} {session : Session}
    {sources : Sources} {line : String} {found : Command × Option Modifier} {e : LineError}
    (hresolve : engine.resolve line = .ok found)
    (h : engine.context roster session sources line = .error e) :
    engine.ending roster session sources line = .refused (.fault e.fault) := by
  unfold ending
  rw [prepare_eq, hresolve]
  simp [ready, h, Except.map]

theorem ending_of_modify {engine : Engine} {roster : Roster} {session : Session}
    {sources : Sources} {line : String} {command : Command} {modifier : Option Modifier}
    {context : Context} (hresolve : engine.resolve line = .ok (command, modifier))
    (h : engine.context roster session sources line = .ok context) :
    engine.ending roster session sources line =
      match modify modifier context with
      | .error fault => .refused (.fault fault)
      | .ok ready => .ofOutput (command.execute ready) := by
  unfold ending
  rw [prepare_eq, hresolve]
  cases modifier with
  | none => simp [ready, h, modify, Except.map]
  | some modifier =>
    simp only [ready, h, modify, Option.elim]
    cases modifier.apply context <;> simp [Except.map]

theorem resolve_of_calls {engine : Engine} {line : String} {name : CallName} {command : Command}
    {modifier : Option Modifier} (hcalls : Line.Calls (Line.nameWords line) name)
    (hfinds : engine.registry.Finds name command modifier) :
    engine.resolve line = .ok (command, modifier) :=
  (resolve_eq_ok_iff engine line command modifier).mpr
    ⟨name, Line.readName_eq_ok_iff.mpr hcalls, hfinds⟩

theorem ofOutput_exits {output : Output} {chunks : List String} {code : Int} {rest : List Step}
    (h : output.steps = chunks.map .chunk ++ .exit code :: rest) :
    Ending.ofOutput output =
      ⟨.completed code (String.join chunks), chunks, output.fetched⟩ := by
  simp [Ending.ofOutput, h, Step.ending_chunks, Step.leading_chunks, Step.ending, Step.leading]

theorem ofOutput_fails {output : Output} {chunks : List String} {fault : Fault}
    {rest : List Step} (h : output.steps = chunks.map .chunk ++ .fault fault :: rest) :
    Ending.ofOutput output =
      ⟨.failed .internalError (String.join chunks) fault.line, chunks, output.fetched⟩ := by
  simp [Ending.ofOutput, h, Step.ending_chunks, Step.leading_chunks, Step.ending, Step.leading]

theorem ofOutput_runsOut {output : Output} {chunks : List String}
    (h : output.steps = chunks.map .chunk) :
    Ending.ofOutput output = ⟨.completed 0 (String.join chunks), chunks, output.fetched⟩ := by
  have hending := Step.ending_chunks chunks []
  have hleading := Step.leading_chunks chunks []
  rw [List.append_nil] at hending hleading
  simp [Ending.ofOutput, h, hending, hleading, Step.ending, Step.leading, Status.code]

theorem Starts.ending_eq {engine : Engine} {roster : Roster} {session : Session}
    {sources : Sources} {line : String} {command : Command} {modifier : Option Modifier}
    {context : Context}
    (h : engine.Starts roster session sources line command modifier context) :
    engine.ending roster session sources line =
      match modify modifier context with
      | .error fault => .refused (.fault fault)
      | .ok ready => .ofOutput (command.execute ready) :=
  ending_of_modify (resolve_of_calls h.names h.finds) h.context

theorem Starts.report_eq {engine : Engine} {roster : Roster} {session : Session}
    {sources : Sources} {line : String} {command : Command} {modifier : Option Modifier}
    {context : Context}
    (h : engine.Starts roster session sources line command modifier context)
    (sink : Sink σ) (state : σ) :
    (engine.run roster session sources sink state line).report =
      match modify modifier context with
      | .error fault => .failed .internalError "" fault.line
      | .ok ready => (Ending.ofOutput (command.execute ready)).report := by
  rw [run_eq, h.ending_eq]
  cases modify modifier context <;> rfl

theorem Decides.eq_ending {engine : Engine} {roster : Roster} {session : Session}
    {sources : Sources} {line : String} {ending : Ending}
    (h : engine.Decides roster session sources line ending) :
    ending = engine.ending roster session sources line := by
  cases h with
  | noName hwords =>
    have hread := Line.readName_eq_error_iff.mpr ⟨hwords, rfl⟩
    have hresolve : engine.resolve line = .error (.fault LineError.missingName.fault) := by
      rw [resolve_eq, hread]
    rw [ending_of_resolve_error hresolve]
    rfl
  | @unknownCommand name hcalls hnone =>
    have hread := Line.readName_eq_ok_iff.mpr hcalls
    have hresolve : engine.resolve line = .error (.unknownCommand name.command) := by
      rw [resolve_eq, hread]
      simp only [hnone]
    rw [ending_of_resolve_error hresolve]
    rfl
  | @unknownModifier name _ modifier hcalls hcommand hmodifier hnone =>
    have hread := Line.readName_eq_ok_iff.mpr hcalls
    have hresolve : engine.resolve line = .error (.unknownModifier modifier) := by
      rw [resolve_eq, hread]
      simp only [hcommand, hmodifier, hnone]
    rw [ending_of_resolve_error hresolve]
    rfl
  | noSeparator hcalls hfinds hnone =>
    have hread := Line.readName_eq_ok_iff.mpr hcalls
    rw [ending_of_context_error (resolve_of_calls hcalls hfinds)
      (context_error engine roster session sources (Line.read_noSeparator hread hnone _ _))]
    rfl
  | noTarget hcalls hfinds hsplit hblank =>
    have hread := Line.readName_eq_ok_iff.mpr hcalls
    rw [ending_of_context_error (resolve_of_calls hcalls hfinds)
      (context_error engine roster session sources (Line.read_noTarget hread hsplit hblank _ _))]
    rfl
  | modifierFails hstarts hmodify =>
    rw [hstarts.ending_eq, hmodify]
    rfl
  | commandFails hstarts hmodify hsteps =>
    rw [hstarts.ending_eq, hmodify]
    exact (ofOutput_fails hsteps).symm
  | exits hstarts hmodify hsteps =>
    rw [hstarts.ending_eq, hmodify]
    exact (ofOutput_exits hsteps).symm
  | runsOut hstarts hmodify hsteps =>
    rw [hstarts.ending_eq, hmodify]
    exact (ofOutput_runsOut hsteps).symm

theorem names_cases (engine : Engine) (roster : Roster) (session : Session) (sources : Sources)
    (line : String) :
    (∃ ending, engine.Decides roster session sources line ending) ∨
    ∃ name command modifier, Line.Calls (Line.nameWords line) name ∧
      engine.registry.Finds name command modifier := by
  rcases Line.readName_cases line with ⟨hwords, -⟩ | ⟨name, hcalls, -⟩
  · exact Or.inl ⟨_, .noName hwords⟩
  · cases hcommand : engine.registry.commands.find? name.command with
    | none => exact Or.inl ⟨_, .unknownCommand hcalls hcommand⟩
    | some command =>
      cases hname : name.modifier with
      | none => exact Or.inr ⟨name, command, none, hcalls, hcommand, by simp [hname]⟩
      | some word =>
        cases hmodifier : engine.registry.modifiers.find? word with
        | none => exact Or.inl ⟨_, .unknownModifier hcalls hcommand hname hmodifier⟩
        | some modifier =>
          exact Or.inr ⟨name, command, some modifier, hcalls, hcommand,
            by simp [hname, hmodifier]⟩

theorem starts_of_targeted (engine : Engine) (roster : Roster) (session : Session)
    (sources : Sources) {line : String} {name : CallName} {command : Command}
    {modifier : Option Modifier} (hcalls : Line.Calls (Line.nameWords line) name)
    (hfinds : engine.registry.Finds name command modifier) (h : Line.Targeted line) :
    ∃ context, engine.Starts roster session sources line command modifier context := by
  obtain ⟨before, after, hsplit, htarget⟩ := h
  have hcontext := context_targeted engine roster session sources
    (Line.readName_eq_ok_iff.mpr hcalls) hsplit htarget
  exact ⟨_, hcalls, hfinds, ⟨before, after, hsplit, htarget⟩, hcontext⟩

theorem exists_decides (engine : Engine) (roster : Roster) (session : Session)
    (sources : Sources) (line : String) :
    ∃ ending, engine.Decides roster session sources line ending := by
  rcases names_cases engine roster session sources line with
    h | ⟨name, command, modifier, hcalls, hfinds⟩
  · exact h
  rcases Line.target_cases line with hnone | ⟨before, after, hsplit, hblank⟩ | htargeted
  · exact ⟨_, .noSeparator hcalls hfinds hnone⟩
  · exact ⟨_, .noTarget hcalls hfinds hsplit hblank⟩
  · obtain ⟨context, hstarts⟩ :=
      starts_of_targeted engine roster session sources hcalls hfinds htargeted
    cases hmodify : modify modifier context with
    | error fault => exact ⟨_, .modifierFails hstarts hmodify⟩
    | ok ready =>
      rcases Step.steps_cases (command.execute ready).steps with
        ⟨hsteps, -⟩ | ⟨code, rest, hsteps, -⟩ | ⟨fault, rest, hsteps, -⟩
      · exact ⟨_, .runsOut hstarts hmodify hsteps⟩
      · exact ⟨_, .exits hstarts hmodify hsteps⟩
      · exact ⟨_, .commandFails hstarts hmodify hsteps⟩

/-- Every run is decided by exactly one ending of the rules: the report and the fetches are those
of the ending, and the sink is offered its chunks and then the forwarded diagnostic. A line whose
names do not lead to a registered command and modifier ends like every line with the same words
before its separator, whatever stands after it. -/
theorem run_decided (engine : Engine) (roster : Roster) (session : Session) (sources : Sources)
    (line : String) :
    (∃ ending, engine.Decides roster session sources line ending ∧
      (∀ other, engine.Decides roster session sources line other → other = ending) ∧
      ∀ {σ : Type} (sink : Sink σ) (state : σ),
        let run := engine.run roster session sources sink.logged (state, []) line
        run.report = ending.report ∧ run.fetched = ending.fetched ∧
          run.sink.2 = ending.chunks ++
            if engine.config.forwardDiagnostics then ending.report.diagnostic.toList else []) ∧
    ∀ line', Line.nameWords line' = Line.nameWords line →
      (¬ ∃ name command modifier, Line.Calls (Line.nameWords line) name ∧
        engine.registry.Finds name command modifier) →
      ∀ {σ : Type} (sink : Sink σ) (state : σ),
        engine.run roster session sources sink state line' =
          engine.run roster session sources sink state line := by
  constructor
  · obtain ⟨ending, hdecides⟩ := exists_decides engine roster session sources line
    refine ⟨ending, hdecides, fun other h => h.eq_ending.trans hdecides.eq_ending.symm, ?_⟩
    intro σ sink state run
    have hrun : run = _ := run_eq engine roster session sources sink.logged (state, []) line
    rw [← hdecides.eq_ending, Sink.after_logged] at hrun
    rw [hrun]
    exact ⟨rfl, rfl, rfl⟩
  · intro line' hwords hnames σ sink state
    have hresolve : engine.resolve line' = engine.resolve line := by
      rw [resolve_eq, resolve_eq, Line.readName_congr hwords]
    have hending : engine.ending roster session sources line' =
        engine.ending roster session sources line := by
      cases hline : engine.resolve line with
      | error refusal =>
        rw [ending_of_resolve_error hline, ending_of_resolve_error (hresolve.trans hline)]
      | ok found =>
        obtain ⟨name, hread, hfinds⟩ := (resolve_eq_ok_iff engine line _ _).mp hline
        exact absurd ⟨name, _, _, Line.readName_eq_ok_iff.mp hread, hfinds⟩ hnames
    rw [run_eq, run_eq, hending]

end Engine
end RecordConsole
