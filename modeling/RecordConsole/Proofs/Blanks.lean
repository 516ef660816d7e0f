import RecordConsole.Console
import RecordConsole.Proofs.Confinement
import RecordConsole.Proofs.SameWords

/-! Blanks that make no difference to a run. Those around a line are in no part of what is read from
it and in no message, so that a line of a conversation, which is trimmed, runs as the same line
given whole. Those inside a line can be seen in the tail alone, and the built-in commands look only
at its words. -/
namespace RecordConsole

variable {σ : Type}

namespace Context

theorem blind_id : Blind id := ⟨fun _ => rfl, fun _ => rfl⟩

/-- Another spelling of the tail, whose arguments stay as they were read. -/
def trailing (tail : String) (context : Context) : Context :=
  { context with invocation := { context.invocation with tail } }

theorem blind_trailing (tail : String) : Blind (trailing tail) := ⟨fun _ => rfl, fun _ => rfl⟩

end Context

theorem Command.execute_trailing {command : Command} (h : command ∈ builtins) (tail : String)
    (context : Context) : command.execute (context.trailing tail) = command.execute context := by
  simp only [builtins, List.mem_cons, List.not_mem_nil, or_false] at h
  rcases h with rfl | rfl | rfl | rfl <;> rfl

namespace Engine

variable (engine : Engine) (roster : Roster) (session : Session) (sources : Sources)

theorem context_eq_map (line : String) :
    engine.context roster session sources line =
      (Line.read line session.author engine.config.selfKeyword).map
        (Context.start roster session sources engine.config engine.registry.catalog) := by
  unfold context
  cases Line.read line session.author engine.config.selfKeyword <;> rfl

theorem prepare_trim (line : String) :
    engine.prepare roster session sources (Text.trim line) =
      engine.prepare roster session sources line := by
  have hname := Line.readName_of_words (Line.splitWords_trim line)
  have hread := Line.read_trim line session.author engine.config.selfKeyword
  refine prepare_change Context.blind_id hname ?_ fun _ _ _ _ => rfl
  rw [context_eq_map, context_eq_map, mapError_map, hread, ← mapError_map, Except.map_id]
  rfl

theorem prepare_of_words (builtins : engine.registry.OnlyBuiltins) {line other : String}
    (hseparator : Line.HasSeparator line.toList)
    (hwords : Text.splitWords other.toList = Text.splitWords line.toList) :
    engine.prepare roster session sources other = engine.prepare roster session sources line := by
  obtain ⟨tail, hread, htail⟩ :=
    Line.read_of_words hseparator hwords session.author engine.config.selfKeyword
  refine prepare_change (Context.blind_trailing tail) (Line.readName_of_words hwords) ?_
    fun name command hfind => Command.execute_trailing (builtins name command hfind) tail
  rw [context_eq_map, context_eq_map, hread]
  cases hline : Line.read line session.author engine.config.selfKeyword with
  | error e => rfl
  | ok inv =>
    have harguments : Arguments.ofTail tail = Arguments.ofTail inv.tail := by
      rw [Arguments.ofTail, Arguments.ofTail, htail inv hline]
    simp only [Except.map, mapError_ok, Context.start, Context.trailing, harguments]

theorem run_trim (sink : Sink σ) (state : σ) (line : String) :
    engine.run roster session sources sink state (Text.trim line) =
      engine.run roster session sources sink state line := by
  unfold run
  rw [prepare_trim]

end Engine

namespace Console

theorem hintWord?_eq (line : String) : hintWord? line = (Line.nameWords line).getLast? := by
  rw [hintWord?, Line.nameWords, Text.words, String.toList_ofList, List.getLast?_map]

theorem execute_trim (console : Console) (line : String) :
    console.execute (Text.trim line) = console.execute line := by
  have hhint : console.hint (Text.trim line) = console.hint line := by
    rw [hint, hint, hintWord?_eq, hintWord?_eq,
      Line.nameWords_of_words (Line.splitWords_trim line)]
  simp only [execute, Engine.run_trim, hhint]

theorem reply_eq (console : Console) {line : String} (hblank : Text.trim line ≠ "")
    (hends : Text.trim line ≠ "exit" ∧ Text.trim line ≠ "quit") :
    console.reply line = some ((console.execute line).2 ++ "[exit " ++
      toString (console.execute line).1 ++ "]\n") := by
  have hfilled : ¬ (Text.trim line).isEmpty = true := by rwa [String.isEmpty_iff]
  have hgoes : ¬ (Text.trim line = "exit" ∨ Text.trim line = "quit") := by
    rintro (hexit | hquit)
    · exact hends.1 hexit
    · exact hends.2 hquit
  simp only [reply, if_neg hfilled, if_neg hgoes, execute_trim]

end Console

/-- Blanks around a line never matter, with any registry, and so a conversation and a single run
agree. Blanks inside a line that has a separator do not matter to the built-in commands: with one
space in the place of every run of them, the report is the same and the sink is offered the same
texts. -/
theorem Engine.run_ignores_blanks (engine : Engine) (roster : Roster) (session : Session)
    (sources : Sources) (sink : Sink σ) (state : σ) (line : String) :
    engine.run roster session sources sink state (Text.trim line) =
        engine.run roster session sources sink state line ∧
      (engine.registry.OnlyBuiltins → Line.HasSeparator line.toList →
        engine.run roster session sources sink state (Text.flatten [line]) =
          engine.run roster session sources sink state line) ∧
      ∀ console : Console, Text.trim line ≠ "" →
        Text.trim line ≠ "exit" ∧ Text.trim line ≠ "quit" →
        console.reply line = some ((console.execute line).2 ++ "[exit " ++
          toString (console.execute line).1 ++ "]\n") := by
  refine ⟨run_trim engine roster session sources sink state line, ?_, ?_⟩
  · intro builtins hseparator
    unfold run
    rw [prepare_of_words engine roster session sources builtins hseparator
      (Text.splitWords_flatten line)]
  · intro console hblank hends
    exact console.reply_eq hblank hends

/-- Blanks of several kinds, at the ends of the line and of the target and around the separator. -/
theorem Engine.run_ignores_blanks_wide :
    let line := "\u2003rise\t\tuget ::\u3000bob \n name   --json\u00a0"
    let root : Session := ⟨"root", true⟩
    let users := Store.ofRecords "users" [("bob", .object [("name", .string "Bob")])]
    let sources : Sources := ⟨users.source, (Store.empty "threads").source⟩
    let console : Console := ⟨.standard, .ofList ["root"], root, sources⟩
    Line.HasSeparator line.toList ∧ Text.flatten [line] = "rise uget :: bob name --json" ∧
      Text.trim line ≠ "" ∧ (Text.trim line ≠ "exit" ∧ Text.trim line ≠ "quit") ∧
      (standard.run (.ofList ["root"]) root sources Console.printing ""
          (Text.flatten [line])).report =
        (standard.run (.ofList ["root"]) root sources Console.printing "" line).report ∧
      console.reply line = some ((console.execute line).2 ++ "[exit " ++
        toString (console.execute line).1 ++ "]\n") := by
  intro line root users sources console
  have hseparator : Line.HasSeparator line.toList :=
    ⟨"\u2003rise\t\tuget ".toList, "\u3000bob \n name   --json\u00a0".toList, by decide⟩
  have hblank : Text.trim line ≠ "" := by decide
  have hends : Text.trim line ≠ "exit" ∧ Text.trim line ≠ "quit" := by decide
  obtain ⟨-, hflatten, hreply⟩ := run_ignores_blanks standard (.ofList ["root"]) root sources
    Console.printing "" line
  refine ⟨hseparator, by decide, hblank, hends, ?_, hreply console hblank hends⟩
  rw [hflatten (Registry.onlyBuiltins_of_standard rfl) hseparator]

end RecordConsole
