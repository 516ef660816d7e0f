import RecordConsole.Proofs.Calls
import RecordConsole.Proofs.Resolution

/-! Which registered commands a line can call. The registry refuses a name with a separator in it,
but a colon at the end of a command makes a separator with the one that the line writes next. -/
namespace RecordConsole

/-- Every entry stands under its own name, and a line can hold that name as a word. -/
def Table.Named {α : Type} (nameOf : α → String) (table : Table α) : Prop :=
  ∀ name entry, table.find? name = some entry → nameOf entry = name ∧ Line.Name name.toList

namespace Registry

/-- The registries that registration leads to, from the empty one or the standard one. -/
inductive Built : Registry → Prop where
  | empty : Built .empty
  | standard : Built .standard
  | command {registry registry' : Registry} {command : Command} (h : Built registry)
      (hadd : registry.addCommand command = .ok registry') : Built registry'
  | modifier {registry registry' : Registry} {modifier : Modifier} (h : Built registry)
      (hadd : registry.addModifier modifier = .ok registry') : Built registry'

theorem isValidName_iff {name : String} : isValidName name = true ↔ Line.Name name.toList := by
  have hempty : name.isEmpty = true ↔ name.toList = [] := by
    rw [String.isEmpty_iff, ← String.toList_eq_nil_iff]
  have hblank : Text.hasBlank name = false ↔ ∀ c ∈ name.toList, Text.isBlank c = false := by
    simp [Text.hasBlank]
  have hseparator : (Line.splitAtSeparator name.toList).isNone = true ↔
      ¬ Line.HasSeparator name.toList := by
    rw [Option.isNone_iff_eq_none, Line.splitAtSeparator_eq_none_iff]
  rw [isValidName, Bool.and_eq_true, Bool.and_eq_true, Bool.not_eq_true', Bool.not_eq_true',
    hblank, hseparator, ← Bool.not_eq_true, hempty]
  constructor
  · rintro ⟨⟨hne, hfilled⟩, hunseparated⟩
    exact ⟨⟨hne, hfilled⟩, hunseparated⟩
  · rintro ⟨⟨hne, hfilled⟩, hunseparated⟩
    exact ⟨⟨hne, hfilled⟩, hunseparated⟩

theorem addCommand_eq_ok_iff {registry registry' : Registry} {command : Command} :
    registry.addCommand command = .ok registry' ↔
      isValidName command.name = true ∧ registry.commands.contains command.name = false ∧
        registry' =
          { registry with commands := registry.commands.insert command.name command } := by
  unfold addCommand
  cases isValidName command.name <;> cases registry.commands.contains command.name <;>
    simp [eq_comm]

theorem addModifier_eq_ok_iff {registry registry' : Registry} {modifier : Modifier} :
    registry.addModifier modifier = .ok registry' ↔
      isValidName modifier.name = true ∧ registry.modifiers.contains modifier.name = false ∧
        registry' =
          { registry with modifiers := registry.modifiers.insert modifier.name modifier } := by
  unfold addModifier
  cases isValidName modifier.name <;> cases registry.modifiers.contains modifier.name <;>
    simp [eq_comm]

end Registry

namespace Table

variable {α : Type} {nameOf : α → String}

theorem named_empty : (empty : Table α).Named nameOf := by
  intro name entry hfind
  cases hfind

theorem Named.insert {table : Table α} (h : table.Named nameOf) {entry : α}
    (hvalid : Registry.isValidName (nameOf entry) = true) :
    (table.insert (nameOf entry) entry).Named nameOf := by
  intro name found hfind
  rw [find?_insert] at hfind
  split at hfind
  · rename_i hname
    cases hfind
    exact ⟨hname.symm, hname ▸ Registry.isValidName_iff.mp hvalid⟩
  · exact h name found hfind

theorem named_ofList {pairs : List (String × α)}
    (h : ∀ pair ∈ pairs, nameOf pair.2 = pair.1 ∧ Registry.isValidName pair.1 = true) :
    (ofList pairs).Named nameOf := by
  intro name entry hfind
  obtain ⟨hown, hvalid⟩ := h _ (mem_of_find?_ofList hfind)
  exact ⟨hown, Registry.isValidName_iff.mp hvalid⟩

end Table

namespace Registry

theorem Built.named {registry : Registry} (h : registry.Built) :
    registry.commands.Named Command.name ∧ registry.modifiers.Named Modifier.name := by
  induction h with
  | empty => exact ⟨Table.named_empty, Table.named_empty⟩
  | standard => exact ⟨Table.named_ofList (by decide), Table.named_ofList (by decide)⟩
  | command h hadd ih =>
    obtain ⟨hvalid, -, rfl⟩ := addCommand_eq_ok_iff.mp hadd
    exact ⟨ih.1.insert hvalid, ih.2⟩
  | modifier h hadd ih =>
    obtain ⟨hvalid, -, rfl⟩ := addModifier_eq_ok_iff.mp hadd
    exact ⟨ih.1, ih.2.insert hvalid⟩

theorem Built.finds_named {registry : Registry} (h : registry.Built) {name : CallName}
    {command : Command} {modifier : Option Modifier}
    (finds : registry.Finds name command modifier) :
    (command.name = name.command ∧ Line.Name name.command.toList) ∧
      modifier.map Modifier.name = name.modifier ∧
        ∀ word ∈ name.modifier, Line.Name word.toList := by
  refine ⟨h.named.1 _ _ finds.command, ?_⟩
  have hmodifier := finds.modifier
  cases hname : name.modifier with
  | none =>
    cases modifier with
    | none => simp
    | some modifier => simp [hname] at hmodifier
  | some word =>
    cases modifier with
    | none => simp [hname] at hmodifier
    | some modifier =>
      simp only [hname, Option.map_some, Option.some.injEq] at hmodifier
      obtain ⟨hown, hword⟩ := h.named.2 _ _ hmodifier
      simpa [hown] using hword

end Registry

namespace Engine

theorem starts_call {engine : Engine} {modifier : Option String} {name : String}
    {command : Command} {found : Option Modifier}
    (finds : engine.registry.Finds ⟨modifier, name⟩ command found)
    (hmodifier : ∀ word ∈ modifier, Line.Name word.toList) (hname : Line.Name name.toList)
    (hcolon : name.toList.getLast? ≠ some ':') {target : String}
    (htarget : Text.Solid target.toList) (tail : String) (roster : Roster) (session : Session)
    (sources : Sources) :
    ∃ context, engine.Starts roster session sources (Line.call modifier name target tail) command
        found context ∧
      Line.Echoes session.author engine.config.selfKeyword modifier name target tail
        context.invocation ∧
      context.arguments = .ofTokens (Text.words tail) := by
  obtain ⟨inv, hread, hechoes⟩ := Line.read_call hmodifier hname hcolon htarget tail session.author
    engine.config.selfKeyword
  have hcalls := (Line.calls_call_iff hmodifier hname target tail).mpr hcolon
  have htargeted := (Line.complete_iff.mp ((Line.exists_read_iff _ _ _).mp ⟨inv, hread⟩)).2
  have hcontext : engine.context roster session sources (Line.call modifier name target tail) =
      .ok (.start roster session sources engine.config engine.registry.catalog inv) := by
    unfold context
    rw [hread]
    rfl
  have hnames : (⟨modifier, name⟩ : CallName) = ⟨inv.modifier, inv.command⟩ := by
    rw [hechoes.modifier, hechoes.command]
  refine ⟨_, ⟨?_, ?_, htargeted, hcontext⟩, hechoes, congrArg Arguments.ofTokens hechoes.words⟩
  · exact hnames ▸ hcalls
  · exact hnames ▸ finds

/-- The names of a line in the documented form are read as registered exactly if no colon ends the
command. The line then leads to the entries of these names, whatever colons the modifier, the
command and the target have elsewhere, and the command starts with the target as it was written and
the words of the tail as its arguments; the run reports what the modifier or the command makes of
it. -/
theorem registered_called {engine : Engine} (built : engine.registry.Built)
    {modifier : Option String} {name : String} {command : Command} {found : Option Modifier}
    (finds : engine.registry.Finds ⟨modifier, name⟩ command found) {target : String}
    (htarget : Text.Solid target.toList) (tail : String) (roster : Roster) (session : Session)
    (sources : Sources) :
    let line := Line.call modifier name target tail
    (command.name = name ∧ found.map Modifier.name = modifier) ∧
    (Line.Calls (Line.nameWords line) ⟨modifier, name⟩ ↔ name.toList.getLast? ≠ some ':') ∧
    (name.toList.getLast? ≠ some ':' →
      engine.resolve line = .ok (command, found) ∧
      ∃ context, engine.Starts roster session sources line command found context ∧
        Line.Echoes session.author engine.config.selfKeyword modifier name target tail
          context.invocation ∧
        context.arguments = .ofTokens (Text.words tail) ∧
        ∀ {σ : Type} (sink : Sink σ) (state : σ),
          (engine.run roster session sources sink state line).report =
            match modify found context with
            | .error fault => .failed .internalError "" fault.line
            | .ok ready => (Ending.ofOutput (command.execute ready)).report) := by
  intro line
  obtain ⟨⟨hcommand, hname⟩, hfound, hmodifier⟩ := built.finds_named finds
  have hcalls := Line.calls_call_iff hmodifier hname target tail
  refine ⟨⟨hcommand, hfound⟩, hcalls, fun hcolon => ⟨?_, ?_⟩⟩
  · exact resolve_of_calls (hcalls.mpr hcolon) finds
  · obtain ⟨context, hstarts, hechoes, harguments⟩ :=
      starts_call finds hmodifier hname hcolon htarget tail roster session sources
    exact ⟨context, hstarts, hechoes, harguments, fun sink state => hstarts.report_eq sink state⟩

theorem registered_called_colons :
    let pair := Command.scripted "a:b" "" [.chunk "x"]
    let up : Modifier := ⟨"up:", "", [.elevate]⟩
    let registry : Registry :=
      ⟨Registry.standard.commands.insert pair.name pair,
        Registry.standard.modifiers.insert up.name up⟩
    let engine : Engine := ⟨registry, {}⟩
    (engine.registry.Built ∧ engine.registry.Finds ⟨some "up:", "a:b"⟩ pair (some up) ∧
      Text.Solid ":ada:".toList) ∧
      engine.resolve (Line.call (some "up:") "a:b" ":ada:" " --json :: ") =
        .ok (pair, some up) := by
  intro pair up registry engine
  have hpair : Registry.standard.addCommand pair =
      .ok { Registry.standard with commands := Registry.standard.commands.insert pair.name pair } :=
    Registry.addCommand_eq_ok_iff.mpr ⟨by decide, by decide, rfl⟩
  have built : engine.registry.Built :=
    .modifier (.command .standard hpair)
      (Registry.addModifier_eq_ok_iff.mpr ⟨by decide, by decide, rfl⟩)
  have finds : engine.registry.Finds ⟨some "up:", "a:b"⟩ pair (some up) :=
    ⟨by simp [engine, registry, Table.find?_insert, pair, Command.scripted],
      by simp [engine, registry, Table.find?_insert, up]⟩
  have htarget : Text.Solid ":ada:".toList := (Registry.isValidName_iff.mp (by decide)).solid
  have hcall := registered_called built finds htarget " --json :: " .empty
    ⟨"ada", false⟩ ⟨(Store.empty "users").source, (Store.empty "threads").source⟩
  exact ⟨⟨built, finds, htarget⟩, (hcall.2.2 (by decide)).1⟩

/-- A name that ends in a colon is registered, and the line that calls it looks up the name without
this colon. -/
theorem registered_called_lastColon :
    let echo := Command.scripted "echo:" "" [.chunk "hi"]
    let registry : Registry :=
      { Registry.empty with commands := Registry.empty.commands.insert echo.name echo }
    let engine : Engine := ⟨registry, {}⟩
    Registry.addCommand .empty echo = .ok registry ∧ registry.commands.find? "echo:" = some echo ∧
      ∀ (roster : Roster) (session : Session) (sources : Sources) {σ : Type} (sink : Sink σ)
        (state : σ), (engine.run roster session sources sink state
          (Line.call none "echo:" "self" "x")).report =
            .failed .unknownCommand "" (unknownCommandLine "echo") := by
  intro echo registry engine
  have hwords : Line.nameWords (Line.call none "echo:" "self" "x") = ["echo"] := by decide
  have hnone : registry.commands.find? "echo" = none := by
    simp [registry, Table.find?_insert, echo, Command.scripted, Registry.empty, Table.find?_empty]
  refine ⟨Registry.addCommand_eq_ok_iff.mpr ⟨by decide, by decide, rfl⟩, ?_, ?_⟩
  · simp [registry, Table.find?_insert, echo, Command.scripted]
  · intro roster session sources σ sink state
    have hcalls : Line.Calls (Line.nameWords (Line.call none "echo:" "self" "x")) ⟨none, "echo"⟩ :=
      hwords ▸ .command "echo"
    have hunknown : engine.Decides roster session sources (Line.call none "echo:" "self" "x") _ :=
      .unknownCommand hcalls hnone
    rw [run_eq, ← hunknown.eq_ending]

end Engine
end RecordConsole
