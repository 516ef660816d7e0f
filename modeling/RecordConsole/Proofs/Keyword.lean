import RecordConsole.Proofs.Confinement
import RecordConsole.Proofs.Registration

/-! The self keyword. A configuration is checked with its keyword trimmed, while lines are compared
with the keyword as it was configured: a keyword with blanks around it is never found in a line. -/
namespace RecordConsole

namespace Text

theorem isBlank_toLower (c : Char) : isBlank c.toLower = isBlank c := by
  by_cases hupper : 'A' ≤ c ∧ c ≤ 'Z'
  · obtain ⟨hfirst, hlast⟩ := hupper
    have hval : c.toLower.val = c.val + ('a'.val - 'A'.val) :=
      congrArg Char.val (dif_pos ⟨hfirst, hlast⟩)
    have hfirst' : 65 ≤ c.val.toNat := hfirst
    have hlast' : c.val.toNat ≤ 90 := hlast
    have hcode : c.toLower.val.toNat = c.val.toNat + 32 := by
      have hdistance : ('a'.val - 'A'.val).toNat = 32 := rfl
      rw [hval, UInt32.toNat_add, hdistance, Nat.mod_eq_of_lt (by omega)]
    have hcapital : isBlank c = false := by
      apply isBlank_eq_false
      · change 32 < c.val.toNat
        omega
      · change c.val.toNat < 127
        omega
    rw [hcapital]
    apply isBlank_eq_false
    · change 32 < c.toLower.val.toNat
      omega
    · change c.toLower.val.toNat < 127
      omega
  · have hsame : c.toLower = c := dif_neg hupper
    rw [hsame]

theorem Solid.of_toLower {word other : List Char} (h : Solid other)
    (hsame : word.map Char.toLower = other.map Char.toLower) : Solid word where
  ne_nil := by
    rintro rfl
    exact h.ne_nil (List.map_eq_nil_iff.mp hsame.symm)
  filled c hc := by
    have hlower : c.toLower ∈ other.map Char.toLower := hsame ▸ List.mem_map_of_mem hc
    obtain ⟨d, hd, heq⟩ := List.mem_map.mp hlower
    rw [← isBlank_toLower, ← heq, isBlank_toLower, h.filled d hd]

theorem trimChars_of_solid {word : List Char} (h : Solid word) : trimChars word = word := by
  have hnone : ∀ c ∈ ([] : List Char), isBlank c = true := by simp
  have htrim := trimChars_append hnone hnone h.trimmed
  rwa [List.nil_append, List.append_nil] at htrim

theorem trim_of_solid {text : String} (h : Solid text.toList) : trim text = text := by
  rw [trim, trimChars_of_solid h, String.ofList_toList]

end Text

/-- Of the keyword it is the trimmed form that is checked, as if it were a name. -/
theorem Config.validate_eq_ok_iff {config : Config} :
    config.validate = .ok () ↔
      Line.Name (Text.trim config.selfKeyword).toList ∧ config.jsonIndent ≤ maxJsonIndent := by
  rw [← Registry.isValidName_iff]
  simp only [validate, Registry.isValidName]
  cases (Text.trim config.selfKeyword).isEmpty
  · cases Text.hasBlank (Text.trim config.selfKeyword)
    · cases Line.splitAtSeparator (Text.trim config.selfKeyword).toList <;> simp
    · simp
  · simp

namespace Line

theorem isKeyword_iff {keyword word : String} :
    isKeyword keyword word = true ↔
      word.toList.map Char.toLower = keyword.toList.map Char.toLower :=
  beq_iff_eq

/-- A word that is the trimmed keyword up to case is the keyword exactly if nothing was trimmed: a
text with blanks in it is not the same as a word, whatever the case of its letters. -/
theorem isKeyword_trimmed_iff {keyword word : String}
    (hsolid : Text.Solid (Text.trim keyword).toList)
    (hword : word.toList.map Char.toLower = (Text.trim keyword).toList.map Char.toLower) :
    isKeyword keyword word = true ↔ Text.trim keyword = keyword := by
  rw [isKeyword_iff]
  constructor
  · intro hsame
    exact Text.trim_of_solid ((hsolid.of_toLower hword).of_toLower hsame.symm)
  · intro htrim
    rw [hword, htrim]

end Line

theorem Command.callable_of_mem_builtins {command : Command} (h : command ∈ builtins) :
    Line.Name command.name.toList ∧ command.name.toList.getLast? ≠ some ':' := by
  rw [← Registry.isValidName_iff]
  revert command
  decide

theorem Registry.find?_of_mem_builtins {command : Command} (h : command ∈ Command.builtins) :
    standard.commands.find? command.name = some command := by
  simp only [Command.builtins, List.mem_cons, List.not_mem_nil, or_false] at h
  rcases h with rfl | rfl | rfl | rfl <;> rfl

namespace Engine

theorem make_eq_ok_iff {registry : Registry} {config : Config} {engine : Engine} :
    make registry config = .ok engine ↔
      config.validate = .ok () ∧ engine = ⟨registry, config⟩ := by
  unfold make
  cases config.validate <;> simp [bind, Except.bind, eq_comm]

/-- In an engine that was made, a line that writes the trimmed keyword in any case starts its
built-in command. The target is the author exactly if the keyword was configured without blanks
around it, and the word as it was written otherwise. -/
theorem keyword_targets {registry : Registry} {config : Config} {engine : Engine}
    (hmake : make registry config = .ok engine) {command : Command}
    (builtin : command ∈ Command.builtins)
    (registered : registry.commands.find? command.name = some command) {word : String}
    (hword : word.toList.map Char.toLower = (Text.trim config.selfKeyword).toList.map Char.toLower)
    (tail : String) (roster : Roster) (session : Session) (sources : Sources) :
    let line := Line.call none command.name word tail
    ∃ context, engine.Starts roster session sources line command none context ∧
      context.target =
        (if Text.trim config.selfKeyword = config.selfKeyword then session.author else word) ∧
      context.arguments = .ofTokens (Text.words tail) ∧
      ∀ {σ : Type} (sink : Sink σ) (state : σ),
        (engine.run roster session sources sink state line).report =
          (Ending.ofOutput (command.execute context)).report := by
  intro line
  obtain ⟨hvalid, rfl⟩ := make_eq_ok_iff.mp hmake
  have hsolid := (Config.validate_eq_ok_iff.mp hvalid).1.solid
  obtain ⟨hname, hcolon⟩ := Command.callable_of_mem_builtins builtin
  have finds : (⟨registry, config⟩ : Engine).registry.Finds ⟨none, command.name⟩ command none :=
    ⟨registered, rfl⟩
  obtain ⟨context, hstarts, hechoes, harguments⟩ :=
    starts_call finds (by simp) hname hcolon (hsolid.of_toLower hword) tail roster session sources
  refine ⟨context, hstarts, ?_, harguments, fun sink state => hstarts.report_eq sink state⟩
  refine hechoes.target.trans ?_
  simp only [Line.isKeyword_trimmed_iff hsolid hword]

theorem keyword_targets_moi :
    let config : Config := { selfKeyword := "Moi" }
    let engine : Engine := ⟨.standard, config⟩
    let sources : Sources := ⟨(Store.empty "users").source, (Store.empty "threads").source⟩
    (make .standard config = .ok engine ∧ Command.whoami ∈ Command.builtins ∧
      Registry.standard.commands.find? Command.whoami.name = some Command.whoami ∧
      "mOI".toList.map Char.toLower = (Text.trim config.selfKeyword).toList.map Char.toLower) ∧
    ∃ context, engine.Starts .empty ⟨"ada", false⟩ sources
      (Line.call none "whoami" "mOI" "--json") Command.whoami none context ∧
        context.target = "ada" := by
  intro config engine sources
  have hvalid : config.validate = .ok () :=
    Config.validate_eq_ok_iff.mpr ⟨Registry.isValidName_iff.mp (by decide), by decide⟩
  have hmake : make .standard config = .ok engine := make_eq_ok_iff.mpr ⟨hvalid, rfl⟩
  have builtin : Command.whoami ∈ Command.builtins := by simp [Command.builtins]
  have registered := Registry.find?_of_mem_builtins builtin
  have hword : "mOI".toList.map Char.toLower =
      (Text.trim config.selfKeyword).toList.map Char.toLower := by decide
  obtain ⟨context, hstarts, htarget, -⟩ :=
    keyword_targets hmake builtin registered hword "--json" .empty ⟨"ada", false⟩ sources
  refine ⟨⟨hmake, builtin, registered, hword⟩, context, hstarts, htarget.trans ?_⟩
  exact if_pos (by decide)

/-- A keyword with a blank in front is accepted, and a line that writes it without the blank is
about the word itself. -/
theorem keyword_targets_blank :
    let config : Config := { selfKeyword := " me" }
    let engine : Engine := ⟨.standard, config⟩
    let sources : Sources := ⟨(Store.empty "users").source, (Store.empty "threads").source⟩
    make .standard config = .ok engine ∧ Text.trim config.selfKeyword = "me" ∧
      ∃ context, engine.Starts .empty ⟨"ada", false⟩ sources
        (Line.call none "whoami" "me" "x") Command.whoami none context ∧
          context.target = "me" := by
  intro config engine sources
  have hvalid : config.validate = .ok () :=
    Config.validate_eq_ok_iff.mpr ⟨Registry.isValidName_iff.mp (by decide), by decide⟩
  have builtin : Command.whoami ∈ Command.builtins := by simp [Command.builtins]
  have finds : engine.registry.Finds ⟨none, "whoami"⟩ Command.whoami none :=
    ⟨Registry.find?_of_mem_builtins builtin, rfl⟩
  have htarget : Text.Solid "me".toList := (Registry.isValidName_iff.mp (by decide)).solid
  obtain ⟨hname, hcolon⟩ := Command.callable_of_mem_builtins builtin
  obtain ⟨context, hstarts, hechoes, -⟩ :=
    starts_call finds (by simp) hname hcolon htarget "x" .empty ⟨"ada", false⟩ sources
  refine ⟨make_eq_ok_iff.mpr ⟨hvalid, rfl⟩, by decide, context, hstarts, hechoes.target.trans ?_⟩
  exact if_neg (by decide)

end Engine
end RecordConsole
