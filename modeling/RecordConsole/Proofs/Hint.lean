import RecordConsole.Proofs.Blanks
import RecordConsole.Proofs.Resolution

/-! What the console suggests names for. A line ends with the code of unknown names only if one of
its names is not registered, and that name is reported. Suggestions are for the last word in front
of the separator, which is the reported name unless more words come after it. -/
namespace RecordConsole

/-- One of the words that name what is to be run is not registered: the refusal that reports it, the
word, and the words after it. The command is looked up first. -/
inductive Registry.Misses (registry : Registry) :
    List String → Refusal → String → List String → Prop
  | command {command} : registry.commands.find? command = none →
      Misses registry [command] (.unknownCommand command) command []
  | modifiedCommand {modifier command ignored} : registry.commands.find? command = none →
      Misses registry (modifier :: command :: ignored) (.unknownCommand command) command ignored
  | modifier {modifier command ignored found} : registry.commands.find? command = some found →
      registry.modifiers.find? modifier = none →
      Misses registry (modifier :: command :: ignored) (.unknownModifier modifier) modifier
        (command :: ignored)

namespace Registry.Misses

variable {registry : Registry} {words after : List String} {refusal : Refusal} {unknown : String}

theorem exists_append (h : registry.Misses words refusal unknown after) :
    ∃ before, words = before ++ unknown :: after := by
  cases h with
  | command => exact ⟨[], rfl⟩
  | modifiedCommand => exact ⟨[_], rfl⟩
  | modifier => exact ⟨[], rfl⟩

theorem status_eq (h : registry.Misses words refusal unknown after) :
    refusal.status = .unknownCommand := by
  cases h <;> rfl

end Registry.Misses

theorem getLast?_append_cons_iff {α : Type} {before after : List α} {a : α} :
    (before ++ a :: after).getLast? = some a ↔ after = [] ∨ after.getLast? = some a := by
  cases after with
  | nil => simp
  | cons b rest => simp [List.getLast?_append, List.getLast?_cons_cons]

/-! ## Exit codes of the built-in commands -/

theorem PropertyReader.ending_execute_ne (kind : StoreKind) (context : Context) :
    Step.ending (execute kind context).steps ≠ .ok Status.unknownCommand.code := by
  unfold execute
  dsimp only
  split
  · intro h
    exact absurd (Except.ok.inj h) (by decide)
  split
  · intro h
    exact absurd (Except.ok.inj h) (by decide)
  split
  · intro h
    cases h
  · intro h
    exact absurd (Except.ok.inj h) (by decide)

theorem Command.ending_ne_of_mem_builtins {command : Command} (h : command ∈ builtins)
    (context : Context) :
    Step.ending (command.execute context).steps ≠ .ok Status.unknownCommand.code := by
  simp only [builtins, List.mem_cons, List.not_mem_nil, or_false] at h
  rcases h with rfl | rfl | rfl | rfl
  · exact PropertyReader.ending_execute_ne .users context
  · exact PropertyReader.ending_execute_ne .threads context
  · intro hending
    exact absurd (Except.ok.inj hending) (by decide)
  · intro hending
    exact absurd (Except.ok.inj hending) (by decide)

theorem Ending.offers_refused (refusal : Refusal) (forward : Bool) :
    (refused refusal).offers forward = if forward then [refusal.line] else [] := rfl

namespace Engine

/-- Over the built-in commands, the code of unknown names means that a name was not found. -/
theorem misses_of_code {engine : Engine} (builtins : engine.registry.OnlyBuiltins)
    {roster : Roster} {session : Session} {sources : Sources} {line : String}
    (hcode : (engine.ending roster session sources line).report.code =
      Status.unknownCommand.code) :
    ∃ refusal unknown after, engine.registry.Misses (Line.nameWords line) refusal unknown after ∧
      engine.ending roster session sources line = .refused refusal := by
  obtain ⟨ending, hdecides⟩ := exists_decides engine roster session sources line
  have hending := hdecides.eq_ending
  rw [← hending] at hcode ⊢
  cases hdecides with
  | @unknownCommand name hcalls hnone =>
    generalize Line.nameWords line = words at hcalls
    cases hcalls with
    | command => exact ⟨_, _, _, .command hnone, rfl⟩
    | modified => exact ⟨_, _, _, .modifiedCommand hnone, rfl⟩
  | @unknownModifier name command modifier hcalls hcommand hmodifier hnone =>
    generalize Line.nameWords line = words at hcalls
    cases hcalls with
    | command => cases hmodifier
    | modified =>
      cases hmodifier
      exact ⟨_, _, _, .modifier hcommand hnone, rfl⟩
  | @exits command modifier context ready chunks code rest hstarts hmodify hsteps =>
    have hne := Command.ending_ne_of_mem_builtins (builtins _ _ hstarts.finds.command) ready
    rw [hsteps, Step.ending_chunks] at hne
    exact absurd (congrArg Except.ok hcode) hne
  | noName => cases hcode
  | noSeparator => cases hcode
  | noTarget => cases hcode
  | modifierFails => cases hcode
  | commandFails => cases hcode
  | runsOut => cases hcode

end Engine

namespace Console

def question : List String → String
  | [] => ""
  | names => "Did you mean: " ++ ", ".intercalate names ++ "?\n"

theorem hint_eq {console : Console} {line word : String} (h : hintWord? line = some word) :
    console.hint line = question (Suggestion.suggest console.engine.registry word) := by
  simp only [hint, h]
  cases Suggestion.suggest console.engine.registry word <;> rfl

/-- A line that ends with the code of unknown names reports a name that is not registered, and
suggestions are printed for the last word in front of its separator. That is the reported name
exactly if no word comes after it there or the last one that does is the same again. -/
theorem hint_about_last_word {console : Console} (builtins : console.engine.registry.OnlyBuiltins)
    {line : String} (hcode : (console.execute line).1 = Status.unknownCommand.code) :
    ∃ refusal unknown after hinted,
      console.engine.registry.Misses (Line.nameWords line) refusal unknown after ∧
      (console.engine.run console.roster console.session console.sources printing "" line).report =
        .failed .unknownCommand "" refusal.line ∧
      hintWord? line = some hinted ∧
      (console.execute line).2 =
        (if console.engine.config.forwardDiagnostics then refusal.line ++ "\n" else "") ++
          question (Suggestion.suggest console.engine.registry hinted) ∧
      (hinted = unknown ↔ after = [] ∨ after.getLast? = some unknown) := by
  have hrun := Engine.run_eq console.engine console.roster console.session console.sources printing
    "" line
  have hreport : (console.engine.ending console.roster console.session console.sources
      line).report.code = Status.unknownCommand.code := by
    rw [← hcode, execute, hrun]
  obtain ⟨refusal, unknown, after, hmisses, hending⟩ := Engine.misses_of_code builtins hreport
  obtain ⟨before, hwords⟩ := hmisses.exists_append
  have hlast : hintWord? line = (before ++ unknown :: after).getLast? := by
    rw [hintWord?_eq, hwords]
  obtain ⟨hinted, hhinted⟩ : ∃ hinted, hintWord? line = some hinted := by
    rw [hlast]
    exact Option.isSome_iff_exists.mp (by simp)
  refine ⟨refusal, unknown, after, hinted, hmisses, ?_, hhinted, ?_, ?_⟩
  · rw [hrun, hending, Ending.refused, hmisses.status_eq]
  · have hcode' : (console.engine.run console.roster console.session console.sources printing ""
        line).report.code = Status.unknownCommand.code := hcode
    have hprinted : (console.engine.run console.roster console.session console.sources printing ""
        line).sink =
          if console.engine.config.forwardDiagnostics then refusal.line ++ "\n" else "" := by
      rw [hrun, hending, Ending.offers_refused]
      cases console.engine.config.forwardDiagnostics <;> simp [Sink.after, printing]
    simp only [execute, hcode', BEq.rfl, if_true, hint_eq hhinted, hprinted]
  · rw [← getLast?_append_cons_iff, ← hlast, hhinted, Option.some.injEq]

def bare : Console where
  engine := .standard
  roster := .empty
  session := ⟨"ada", false⟩
  sources := ⟨(Store.empty "users").source, (Store.empty "threads").source⟩

theorem hint_about_last_word_repeated :
    (bare.engine.registry.OnlyBuiltins ∧
      (bare.execute "rise ugte whoami ugte::self").1 = Status.unknownCommand.code) ∧
    ∃ refusal unknown,
      bare.engine.registry.Misses ["rise", "ugte", "whoami", "ugte"] refusal unknown
        ["whoami", "ugte"] ∧ hintWord? "rise ugte whoami ugte::self" = some unknown := by
  have hbuiltins : bare.engine.registry.OnlyBuiltins := Registry.onlyBuiltins_of_standard rfl
  have hcode : (bare.execute "rise ugte whoami ugte::self").1 = Status.unknownCommand.code := by rfl
  have hwords : Line.nameWords "rise ugte whoami ugte::self" =
      ["rise", "ugte", "whoami", "ugte"] := by decide
  obtain ⟨refusal, unknown, after, hinted, hmisses, -, hhinted, -, hsame⟩ :=
    hint_about_last_word hbuiltins hcode
  rw [hwords] at hmisses
  cases hmisses with
  | modifiedCommand hnone =>
    refine ⟨⟨hbuiltins, hcode⟩, _, _, .modifiedCommand hnone, ?_⟩
    rw [hhinted, hsame.mpr (Or.inr rfl)]
  | modifier hfind => cases hfind

/-- The modifier is not registered, and the hint is about the command, which is. With a word too
many the hint is about that word. -/
theorem hint_about_other_word :
    bare.execute "rsie uget::self x" =
        (127, "❌ ModifierNotFound: rsie\nDid you mean: uget?\n") ∧
      hintWord? "rsie uget::self x" = some "uget" ∧
      bare.execute "rise ugte whoami::self x" =
        (127, "❌ CommandNotFound: ugte\nDid you mean: whoami?\n") ∧
      hintWord? "rise ugte whoami::self x" = some "whoami" := by
  refine ⟨by rfl, by rfl, by rfl, by rfl⟩

end Console
end RecordConsole
