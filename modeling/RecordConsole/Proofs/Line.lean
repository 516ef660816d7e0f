import RecordConsole.Line

/-! Where the first separator of a line stands, and which lines can be read. The name of a line is
read twice, once alone and once with the rest; both readings see the same words. -/
namespace RecordConsole.Line

def HasSeparator (text : List Char) : Prop := [':', ':'] <:+: text

/-- A line around its first separator. The colon after `before` belongs to the separator, and none
may start earlier. -/
structure SplitsAt (line before after : List Char) : Prop where
  line_eq : line = before ++ ':' :: ':' :: after
  first : ¬ HasSeparator (before ++ [':'])

theorem hasSeparator_cons {c : Char} {rest : List Char} :
    HasSeparator (c :: rest) ↔ (c = ':' ∧ ∃ after, rest = ':' :: after) ∨ HasSeparator rest := by
  unfold HasSeparator
  rw [List.infix_cons_iff]
  constructor
  · rintro (⟨after, h⟩ | h)
    · obtain ⟨rfl, rfl⟩ := List.cons.inj h
      exact Or.inl ⟨rfl, after, rfl⟩
    · exact Or.inr h
  · rintro (⟨rfl, after, rfl⟩ | h)
    · exact Or.inl ⟨after, rfl⟩
    · exact Or.inr h

theorem not_hasSeparator_nil : ¬ HasSeparator [] := by
  rintro ⟨before, after, h⟩
  simp at h

theorem SplitsAt.hasSeparator {line before after : List Char} (h : SplitsAt line before after) :
    HasSeparator line :=
  ⟨before, after, by simp [h.line_eq]⟩

theorem splitsAt_nil {after : List Char} : SplitsAt (':' :: ':' :: after) [] after :=
  ⟨rfl, by simp [hasSeparator_cons, not_hasSeparator_nil]⟩

theorem splitsAt_cons {c : Char} {rest before after : List Char}
    (h : SplitsAt rest before after) (hc : ¬ (c = ':' ∧ ∃ more, rest = ':' :: more)) :
    SplitsAt (c :: rest) (c :: before) after := by
  refine ⟨congrArg (c :: ·) h.line_eq, ?_⟩
  rw [List.cons_append, hasSeparator_cons]
  rintro (⟨hcolon, more, hmore⟩ | hrest)
  · cases before with
    | nil => exact hc ⟨hcolon, ':' :: after, h.line_eq⟩
    | cons d before =>
      obtain ⟨rfl, -⟩ := List.cons.inj hmore
      exact hc ⟨hcolon, before ++ ':' :: ':' :: after, h.line_eq⟩
  · exact h.first hrest

private theorem splitAtSeparator_cons {c : Char} {rest : List Char}
    (h : ¬ (c = ':' ∧ ∃ more, rest = ':' :: more)) :
    splitAtSeparator (c :: rest) =
      (splitAtSeparator rest).map fun (before, after) => (c :: before, after) := by
  rw [splitAtSeparator.eq_def]
  split
  · rename_i more heq
    obtain ⟨rfl, rfl⟩ := List.cons.inj heq
    exact absurd ⟨rfl, more, rfl⟩ h
  · rename_i heq
    obtain ⟨rfl, rfl⟩ := List.cons.inj heq
    rfl
  · contradiction

/-- Splitting gives the first separator, and gives nothing only where there is none. -/
theorem splitAtSeparator_spec (line : List Char) :
    (∃ before after, splitAtSeparator line = some (before, after) ∧
      SplitsAt line before after) ∨ (splitAtSeparator line = none ∧ ¬ HasSeparator line) := by
  induction line with
  | nil => exact Or.inr ⟨rfl, not_hasSeparator_nil⟩
  | cons c rest ih =>
    by_cases h : c = ':' ∧ ∃ more, rest = ':' :: more
    · obtain ⟨rfl, more, rfl⟩ := h
      exact Or.inl ⟨[], more, by simp [splitAtSeparator], splitsAt_nil⟩
    · rw [splitAtSeparator_cons h]
      rcases ih with ⟨before, after, hsplit, hspec⟩ | ⟨hsplit, hnone⟩
      · exact Or.inl ⟨c :: before, after, by simp [hsplit], splitsAt_cons hspec h⟩
      · exact Or.inr ⟨by simp [hsplit], by simpa [hasSeparator_cons, hnone] using h⟩

theorem SplitsAt.eq_nil {line after before after' : List Char} (h : SplitsAt line [] after)
    (h' : SplitsAt line before after') : before = [] := by
  have heq := h.line_eq.symm.trans h'.line_eq
  cases before with
  | nil => rfl
  | cons c before =>
    refine absurd ?_ h'.first
    rw [List.cons_append, hasSeparator_cons]
    cases before with
    | nil =>
      simp only [List.nil_append, List.cons_append, List.cons.injEq] at heq
      exact Or.inl ⟨heq.1.symm, [], rfl⟩
    | cons d before =>
      simp only [List.nil_append, List.cons_append, List.cons.injEq] at heq
      exact Or.inl ⟨heq.1.symm, before ++ [':'], by simp [← heq.2.1]⟩

theorem SplitsAt.unique {line before after before' after' : List Char}
    (h : SplitsAt line before after) (h' : SplitsAt line before' after') :
    before = before' ∧ after = after' := by
  suffices hbefore : before = before' by
    subst hbefore
    exact ⟨rfl, by simpa using h.line_eq.symm.trans h'.line_eq⟩
  induction before generalizing line before' with
  | nil => exact (h.eq_nil h').symm
  | cons c before ih =>
    cases before' with
    | nil => exact h'.eq_nil h
    | cons d before' =>
      have heq := h.line_eq.symm.trans h'.line_eq
      simp only [List.cons_append, List.cons.injEq] at heq
      have hrest : SplitsAt (before ++ ':' :: ':' :: after) before after :=
        ⟨rfl, fun hs => h.first (hasSeparator_cons.mpr (Or.inr hs))⟩
      have hrest' : SplitsAt (before ++ ':' :: ':' :: after) before' after' :=
        ⟨heq.2, fun hs => h'.first (hasSeparator_cons.mpr (Or.inr hs))⟩
      rw [heq.1, ih hrest hrest']

theorem splitAtSeparator_eq_some_iff {line before after : List Char} :
    splitAtSeparator line = some (before, after) ↔ SplitsAt line before after := by
  rcases splitAtSeparator_spec line with ⟨b, a, hsplit, hspec⟩ | ⟨hsplit, hnone⟩
  · rw [hsplit]
    constructor
    · intro h
      obtain ⟨rfl, rfl⟩ := Prod.mk.inj (Option.some.inj h)
      exact hspec
    · intro h
      obtain ⟨rfl, rfl⟩ := hspec.unique h
      rfl
  · rw [hsplit]
    exact ⟨fun h => (by cases h), fun h => absurd h.hasSeparator hnone⟩

theorem splitAtSeparator_eq_none_iff {line : List Char} :
    splitAtSeparator line = none ↔ ¬ HasSeparator line := by
  rcases splitAtSeparator_spec line with ⟨b, a, hsplit, hspec⟩ | ⟨hsplit, hnone⟩
  · simp [hsplit, hspec.hasSeparator]
  · simp [hsplit, hnone]

/-! ## Names -/

def nameWords (line : String) : List String := Text.words (.ofList (namePart line.toList))

/-- One word is a command; of two or more the first is a modifier and the second a command. -/
inductive Calls : List String → CallName → Prop where
  | command (command) : Calls [command] ⟨none, command⟩
  | modified (modifier command) (ignored) :
      Calls (modifier :: command :: ignored) ⟨some modifier, command⟩

theorem Calls.unique {words : List String} {name name' : CallName} (h : Calls words name)
    (h' : Calls words name') : name = name' := by
  cases h <;> cases h' <;> rfl

theorem Calls.modifier_eq_none {words : List String} {name : CallName} (h : Calls words name)
    (hwords : words.length ≤ 1) : name.modifier = none := by
  cases h with
  | command => rfl
  | modified =>
    simp only [List.length_cons] at hwords
    omega

theorem readName_cases (line : String) :
    (nameWords line = [] ∧ readName line = .error .missingName) ∨
    ∃ name, Calls (nameWords line) name ∧ readName line = .ok name := by
  unfold nameWords readName Text.words
  rw [String.toList_ofList]
  cases Text.splitWords (namePart line.toList) with
  | nil => exact Or.inl ⟨rfl, rfl⟩
  | cons first rest =>
    cases rest with
    | nil =>
      right
      simp only [List.map_cons, List.map_nil]
      exact ⟨_, .command _, rfl⟩
    | cons second ignored =>
      right
      simp only [List.map_cons]
      exact ⟨_, .modified _ _ _, rfl⟩

theorem readName_eq_ok_iff {line : String} {name : CallName} :
    readName line = .ok name ↔ Calls (nameWords line) name := by
  rcases readName_cases line with ⟨hwords, hread⟩ | ⟨name', hcalls, hread⟩
  · rw [hread, hwords]
    constructor <;> intro h <;> cases h
  · rw [hread, Except.ok.injEq]
    constructor
    · rintro rfl
      exact hcalls
    · exact hcalls.unique

theorem readName_eq_error_iff {line : String} {e : LineError} :
    readName line = .error e ↔ nameWords line = [] ∧ e = .missingName := by
  rcases readName_cases line with ⟨hwords, hread⟩ | ⟨name, hcalls, hread⟩
  · rw [hread]
    simp [hwords, eq_comm]
  · rw [hread]
    constructor
    · intro h
      cases h
    · rintro ⟨hwords, -⟩
      rw [hwords] at hcalls
      cases hcalls

theorem readName_congr {line line' : String} (h : nameWords line = nameWords line') :
    readName line = readName line' := by
  cases hread : readName line' with
  | ok name => rw [readName_eq_ok_iff, h, ← readName_eq_ok_iff, hread]
  | error e => rw [readName_eq_error_iff, h, ← readName_eq_error_iff, hread]

/-! ## Targets -/

def Targeted (line : String) : Prop :=
  ∃ before after, SplitsAt line.toList before after ∧ ∃ c ∈ after, Text.isBlank c = false

def rawTarget (after : List Char) : String :=
  .ofList ((Text.dropBlank after).takeWhile fun c => !Text.isBlank c)

def invocation (name : CallName) (after : List Char) (author keyword : String) : Invocation where
  modifier := name.modifier
  command := name.command
  rawTarget := rawTarget after
  target := if isKeyword keyword (rawTarget after) then author else rawTarget after
  tail := .ofList
    (Text.trimChars ((Text.dropBlank after).dropWhile fun c => !Text.isBlank c))

theorem isEmpty_rawTarget_iff {after : List Char} :
    (rawTarget after).isEmpty = true ↔ ∀ c ∈ after, Text.isBlank c = true := by
  have hempty : (rawTarget after).isEmpty = true ↔
      (Text.dropBlank after).takeWhile (fun c => !Text.isBlank c) = [] := by
    rw [String.isEmpty_iff, rawTarget, ← String.toList_inj, String.toList_ofList]
    rfl
  rw [hempty]
  clear hempty
  induction after with
  | nil => simp [Text.dropBlank]
  | cons c rest ih =>
    unfold Text.dropBlank at ih ⊢
    by_cases hc : Text.isBlank c = true
    · simp [hc, ih]
    · simp [hc]

theorem read_eq_of_splitsAt {line : String} {name : CallName} {before after : List Char}
    (hname : readName line = .ok name) (hsplit : SplitsAt line.toList before after)
    (author keyword : String) :
    read line author keyword =
      if (rawTarget after).isEmpty then .error (.missingTarget name.command)
      else .ok (invocation name after author keyword) := by
  unfold read
  rw [hname, splitAtSeparator_eq_some_iff.mpr hsplit]
  rfl

theorem read_noName {line : String} (h : nameWords line = []) (author keyword : String) :
    read line author keyword = .error .missingName := by
  unfold read
  rw [readName_eq_error_iff.mpr ⟨h, rfl⟩]
  rfl

theorem read_noSeparator {line : String} {name : CallName} (hname : readName line = .ok name)
    (h : ¬ HasSeparator line.toList) (author keyword : String) :
    read line author keyword = .error (.missingSeparator line) := by
  unfold read
  rw [hname, splitAtSeparator_eq_none_iff.mpr h]
  rfl

theorem read_noTarget {line : String} {name : CallName} {before after : List Char}
    (hname : readName line = .ok name) (hsplit : SplitsAt line.toList before after)
    (h : ∀ c ∈ after, Text.isBlank c = true) (author keyword : String) :
    read line author keyword = .error (.missingTarget name.command) := by
  rw [read_eq_of_splitsAt hname hsplit, if_pos (isEmpty_rawTarget_iff.mpr h)]

theorem read_targeted {line : String} {name : CallName} {before after : List Char}
    (hname : readName line = .ok name) (hsplit : SplitsAt line.toList before after)
    (h : ∃ c ∈ after, Text.isBlank c = false) (author keyword : String) :
    read line author keyword = .ok (invocation name after author keyword) := by
  have hraw : ¬ (rawTarget after).isEmpty = true := by
    rw [isEmpty_rawTarget_iff]
    intro hall
    obtain ⟨c, hc, hblank⟩ := h
    exact Bool.false_ne_true (hblank.symm.trans (hall c hc))
  rw [read_eq_of_splitsAt hname hsplit, if_neg hraw]

/-- Once its name is read, a line lacks the separator, lacks the target, or has both. -/
theorem target_cases (line : String) :
    ¬ HasSeparator line.toList ∨
    (∃ before after, SplitsAt line.toList before after ∧ ∀ c ∈ after, Text.isBlank c = true) ∨
    Targeted line := by
  rcases splitAtSeparator_spec line.toList with ⟨before, after, -, hsplit⟩ | ⟨-, hnone⟩
  · right
    by_cases h : ∃ c ∈ after, Text.isBlank c = false
    · exact Or.inr ⟨before, after, hsplit, h⟩
    · refine Or.inl ⟨before, after, hsplit, ?_⟩
      intro c hc
      exact Bool.of_not_eq_false fun hblank => h ⟨c, hc, hblank⟩
  · exact Or.inl hnone

end RecordConsole.Line
