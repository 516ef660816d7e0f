import RecordConsole.Proofs.Keyword
import RecordConsole.Proofs.Registry
import RecordConsole.Suggestion

/-! Which prefixes of a registered name lead to it. A word is looked for in lower case, while names
stay as they were registered: a prefix that is not in lower case finds other names or, by the first
letter alone, perhaps the right ones. -/
namespace RecordConsole

namespace Text

theorem lowerFrom_cons (before : List Char) (c : Char) (rest : List Char) :
    ∃ first more, lowerFrom before (c :: rest) = first :: more ∧
      (first = c → more = lowerFrom (c :: before) rest) := by
  by_cases hsigma : c = 'Σ'
  · subst hsigma
    by_cases hfinal : (meetsCased before && !meetsCased rest) = true
    · refine ⟨'ς', _, by simp [lowerFrom, hfinal]; rfl, fun h => absurd h (by decide)⟩
    · refine ⟨'σ', _, by simp [lowerFrom, hfinal]; rfl, fun h => absurd h (by decide)⟩
  · by_cases hdotted : c = 'İ'
    · subst hdotted
      refine ⟨'i', _, by simp [lowerFrom]; rfl, fun h => absurd h (by decide)⟩
    · exact ⟨lowerChar c, lowerFrom (c :: before) rest, by simp [lowerFrom, hsigma, hdotted],
        fun _ => rfl⟩

theorem lowerFrom_ne_nil {before chars : List Char} (h : chars ≠ []) :
    lowerFrom before chars ≠ [] := by
  cases chars with
  | nil => exact absurd rfl h
  | cons c rest =>
    obtain ⟨first, more, hlower, -⟩ := lowerFrom_cons before c rest
    rw [hlower]
    exact List.cons_ne_nil _ _

/-- A text and its lower case begin the same text only if they are the same. -/
theorem lowerFrom_eq_self {chars : List Char} : ∀ {before whole : List Char}, chars <+: whole →
    lowerFrom before chars <+: whole → lowerFrom before chars = chars := by
  induction chars with
  | nil => intros; rfl
  | cons c rest ih =>
    intro before whole hchars hlowered
    obtain ⟨first, more, hlower, hmore⟩ := lowerFrom_cons before c rest
    rw [hlower] at hlowered ⊢
    cases whole with
    | nil => exact absurd (List.prefix_nil.mp hchars) (List.cons_ne_nil _ _)
    | cons d whole =>
      obtain ⟨rfl, hrest⟩ := List.cons_prefix_cons.mp hchars
      obtain ⟨rfl, hmoreWhole⟩ := List.cons_prefix_cons.mp hlowered
      rw [hmore rfl] at hmoreWhole ⊢
      rw [ih hrest hmoreWhole]

theorem Solid.of_prefix {chars word : List Char} (h : Solid word) (hchars : chars <+: word)
    (hne : chars ≠ []) : Solid chars where
  ne_nil := hne
  filled c hc := h.filled c (hchars.subset hc)

end Text

def Registry.Knows (registry : Registry) (name : String) : Prop :=
  (∃ command, registry.command name = .ok command) ∨
    ∃ modifier, registry.modifier name = .ok modifier

theorem Registry.Built.name_of_knows {registry : Registry} (h : registry.Built) {name : String}
    (hknows : registry.Knows name) : Line.Name name.toList := by
  rcases hknows with ⟨command, hfind⟩ | ⟨modifier, hfind⟩
  · exact (h.named.1 name command (command_eq_ok_iff.mp hfind)).2
  · exact (h.named.2 name modifier (modifier_eq_ok_iff.mp hfind)).2

namespace Suggestion

variable {registry : Registry} {word name : String}

theorem mem_vocabulary_iff : name ∈ vocabulary registry ↔ registry.Knows name := by
  rw [vocabulary, Table.mem_names_iff, Table.contains_ofNames, List.mem_append,
    Registry.commandNames, Registry.modifierNames, Table.mem_names_iff, Table.mem_names_iff,
    Table.contains_iff, Table.contains_iff]
  simp only [Registry.Knows, Registry.command_eq_ok_iff, Registry.modifier_eq_ok_iff]

theorem mem_startingWith_iff {names : List String} {start : List Char} :
    name ∈ startingWith names start ↔ name ∈ names ∧ start <+: name.toList := by
  rw [startingWith, List.mem_filter, List.isPrefixOf_iff_prefix]

theorem suggest_eq_startingWith (registry : Registry) (word : String) :
    suggest registry word = [] ∨
      ∃ start, suggest registry word = startingWith (vocabulary registry) start := by
  unfold suggest
  split
  · exact .inl rfl
  · dsimp only
    split
    · exact .inr ⟨_, rfl⟩
    · exact .inr ⟨_, rfl⟩

theorem knows_of_mem_suggest (h : name ∈ suggest registry word) : registry.Knows name := by
  rcases suggest_eq_startingWith registry word with hnone | ⟨start, hstart⟩
  · rw [hnone] at h
    cases h
  · rw [hstart, mem_startingWith_iff] at h
    exact mem_vocabulary_iff.mp h.1

theorem suggest_ascending (registry : Registry) (word : String) :
    (suggest registry word).Pairwise fun name other =>
      name.toUTF8.data.toList < other.toUTF8.data.toList := by
  rcases suggest_eq_startingWith registry word with hnone | ⟨start, hstart⟩
  · rw [hnone]
    exact List.Pairwise.nil
  · rw [hstart]
    exact (Table.names_ascending _).filter _

/-- Names are suggested that begin with the lower case of a word without blanks or, if there are
none, with its first letter. -/
theorem suggest_of_solid (registry : Registry) {start : String} (h : Text.Solid start.toList) :
    ∃ first more, (Text.lowerCase start).toList = first :: more ∧
      ((startingWith (vocabulary registry) (first :: more) ≠ [] ∧
          suggest registry start = startingWith (vocabulary registry) (first :: more)) ∨
        startingWith (vocabulary registry) (first :: more) = [] ∧
          suggest registry start = startingWith (vocabulary registry) [first]) := by
  have hne : (Text.lowerCase start).toList ≠ [] := by
    rw [Text.lowerCase, String.toList_ofList]
    exact Text.lowerFrom_ne_nil h.ne_nil
  obtain ⟨first, more, hlower⟩ := List.exists_cons_of_ne_nil hne
  refine ⟨first, more, hlower, ?_⟩
  simp only [suggest, Text.trim_of_solid h, hlower]
  cases startingWith (vocabulary registry) (first :: more) with
  | nil => exact .inr ⟨rfl, rfl⟩
  | cons found others => exact .inl ⟨List.cons_ne_nil _ _, rfl⟩

theorem startingWith_eq_nil_iff {start : List Char} :
    startingWith (vocabulary registry) start = [] ↔
      ∀ other, registry.Knows other → ¬ start <+: other.toList := by
  rw [List.eq_nil_iff_forall_not_mem]
  simp only [mem_startingWith_iff, mem_vocabulary_iff, not_and]

theorem singleton_prefix_iff {first : Char} {chars : List Char} :
    [first] <+: chars ↔ chars.head? = some first := by
  cases chars with
  | nil => simp
  | cons c rest => simp [List.cons_prefix_cons, eq_comm]

theorem lowerCase_eq_self {start : String} (hstart : start.toList <+: name.toList)
    (hlower : (Text.lowerCase start).toList <+: name.toList) : Text.lowerCase start = start := by
  rw [Text.lowerCase, String.toList_ofList] at hlower
  rw [Text.lowerCase, Text.lowerFrom_eq_self hstart hlower, String.ofList_toList]

/-- Suggestions are registered names in the order of their bytes. A prefix of a registered name
leads to it, and to nothing that it does not begin, exactly if it is in lower case or if no name
begins with its lower case, its first letter is in lower case and all names with this letter begin
with it. -/
theorem prefix_completed (built : registry.Built) :
    (∀ word, (∀ found ∈ suggest registry word, registry.Knows found) ∧
      (suggest registry word).Pairwise fun found other =>
        found.toUTF8.data.toList < other.toUTF8.data.toList) ∧
    ∀ name start : String, registry.Knows name → start ≠ "" → start.toList <+: name.toList →
      ((name ∈ suggest registry start ∧ ∀ found ∈ suggest registry start,
          start.toList <+: found.toList) ↔
        Text.lowerCase start = start ∨
          (∀ other, registry.Knows other → ¬ (Text.lowerCase start).toList <+: other.toList) ∧
          (Text.lowerCase start).toList.head? = start.toList.head? ∧
          ∀ other, registry.Knows other → other.toList.head? = start.toList.head? →
            start.toList <+: other.toList) := by
  refine ⟨fun word => ⟨fun found => knows_of_mem_suggest, suggest_ascending registry word⟩, ?_⟩
  intro name start hknows hne hstart
  have hchars : start.toList ≠ [] := mt String.toList_eq_nil_iff.mp hne
  have hsolid := (built.name_of_knows hknows).solid.of_prefix hstart hchars
  have hhead : name.toList.head? = start.toList.head? := by
    obtain ⟨c, rest, hcons⟩ := List.exists_cons_of_ne_nil hchars
    obtain ⟨after, hafter⟩ := hstart
    rw [← hafter, hcons]
    rfl
  obtain ⟨first, more, hlower, ⟨hsome, hsuggest⟩ | ⟨hnone, hsuggest⟩⟩ :=
    suggest_of_solid registry hsolid
  · constructor
    · rintro ⟨hmem, -⟩
      rw [hsuggest, mem_startingWith_iff, ← hlower] at hmem
      exact .inl (lowerCase_eq_self hstart hmem.2)
    · rintro (hsame | ⟨hnone, -⟩)
      · rw [hsuggest, ← hlower, hsame]
        simp only [mem_startingWith_iff, mem_vocabulary_iff]
        exact ⟨⟨hknows, hstart⟩, fun found hfound => hfound.2⟩
      · rw [hlower] at hnone
        exact absurd (startingWith_eq_nil_iff.mpr hnone) hsome
  · have hunmatched := startingWith_eq_nil_iff.mp hnone
    have hdiffers : Text.lowerCase start ≠ start := fun hsame =>
      hunmatched name hknows (by rwa [← hlower, hsame])
    simp only [hsuggest, mem_startingWith_iff, mem_vocabulary_iff, singleton_prefix_iff, hdiffers,
      false_or, hlower, List.head?_cons, and_imp, hhead]
    constructor
    · rintro ⟨⟨-, hfirst⟩, hall⟩
      exact ⟨hunmatched, hfirst.symm, fun other hother hletter =>
        hall other hother (hletter.trans hfirst)⟩
    · rintro ⟨-, hfirst, hall⟩
      exact ⟨⟨hknows, hfirst.symm⟩, fun other hother hletter =>
        hall other hother (hletter.trans hfirst)⟩

theorem prefix_completed_shared :
    let twin : Modifier := ⟨"uget", "", [.elevate]⟩
    let registry : Registry := { Registry.standard with
      modifiers := Registry.standard.modifiers.insert twin.name twin }
    (registry.Built ∧ registry.Knows "uget" ∧ "ug" ≠ "" ∧ "ug".toList <+: "uget".toList) ∧
      "uget" ∈ suggest registry "ug" := by
  intro twin registry
  have built : registry.Built :=
    .modifier .standard (Registry.addModifier_eq_ok_iff.mpr ⟨by decide, by decide, rfl⟩)
  have hknows : registry.Knows "uget" := .inl ⟨Command.userProperty, by rfl⟩
  have hne : "ug" ≠ "" := by decide
  have hstart : "ug".toList <+: "uget".toList := by decide
  refine ⟨⟨built, hknows, hne, hstart⟩, ?_⟩
  exact (((prefix_completed built).2 _ _ hknows hne hstart).mpr (.inl (by rfl))).1

/-- The name of a command has a capital, and no prefix of it leads to it. -/
theorem prefix_completed_capital :
    let echo := Command.scripted "Echo" "" []
    let registry : Registry :=
      { Registry.empty with commands := Registry.empty.commands.insert echo.name echo }
    Registry.addCommand .empty echo = .ok registry ∧
      "E".toList <+: "Echo".toList ∧ suggest registry "E" = [] ∧ suggest registry "Echo" = [] := by
  intro echo registry
  refine ⟨Registry.addCommand_eq_ok_iff.mpr ⟨by decide, by decide, rfl⟩, by decide, ?_, ?_⟩
  · decide
  · decide

end Suggestion
end RecordConsole
