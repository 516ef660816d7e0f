import RecordConsole.Proofs.Line
import RecordConsole.Proofs.Words

/-! The language of lines. A line is read exactly if it has a separator with something on both of its
sides, and what is read from it loses no word: the text after the separator is the target and the
tail, with blanks around them. -/
namespace RecordConsole.Line

def Complete (line : String) : Prop :=
  ∃ before after, SplitsAt line.toList before after ∧
    (∃ c ∈ before, Text.isBlank c = false) ∧ ∃ c ∈ after, Text.isBlank c = false

/-- The text after a separator in its parts. The gap is missing only where there is no tail. -/
structure Lays (after rawTarget tail : List Char) : Prop where
  parts : ∃ lead gap trail, (∀ c ∈ lead, Text.isBlank c = true) ∧
    (∀ c ∈ gap, Text.isBlank c = true) ∧ (∀ c ∈ trail, Text.isBlank c = true) ∧
    after = lead ++ rawTarget ++ gap ++ tail ++ trail ∧ (gap = [] → tail = [])
  target : Text.Solid rawTarget
  tail : Text.Trimmed tail

/-- What an invocation has to do with the two sides of the first separator of its line. -/
structure Reads (line author keyword : String) (inv : Invocation) (before after : List Char) :
    Prop where
  split : SplitsAt line.toList before after
  name : Calls (Text.words (.ofList before)) ⟨inv.modifier, inv.command⟩
  words : Text.words (.ofList after) = inv.rawTarget :: Text.words inv.tail
  lays : Lays after inv.rawTarget.toList inv.tail.toList
  tail_infix : inv.tail.toList <:+: line.toList
  ownTarget : inv.rawTarget.toList.map Char.toLower = keyword.toList.map Char.toLower →
    inv.target = author
  otherTarget : inv.rawTarget.toList.map Char.toLower ≠ keyword.toList.map Char.toLower →
    inv.target = inv.rawTarget

theorem nameWords_of_splitsAt {line : String} {before after : List Char}
    (h : SplitsAt line.toList before after) : nameWords line = Text.words (.ofList before) := by
  rw [nameWords, namePart, splitAtSeparator_eq_some_iff.mpr h]

theorem words_eq_nil_iff {chars : List Char} :
    Text.words (.ofList chars) = [] ↔ ∀ c ∈ chars, Text.isBlank c = true := by
  rw [Text.words, String.toList_ofList, List.map_eq_nil_iff, Text.splitWords_eq_nil_iff]

theorem exists_calls_iff {chars : List Char} :
    (∃ name, Calls (Text.words (.ofList chars)) name) ↔ ∃ c ∈ chars, Text.isBlank c = false := by
  have hnil : Text.words (.ofList chars) = [] ↔ ¬ ∃ c ∈ chars, Text.isBlank c = false := by
    rw [words_eq_nil_iff]
    simp
  constructor
  · rintro ⟨name, hcalls⟩
    refine Decidable.byContradiction fun hblank => ?_
    rw [hnil.mpr hblank] at hcalls
    cases hcalls
  · intro hfilled
    cases hwords : Text.words (.ofList chars) with
    | nil => exact absurd hfilled (hnil.mp hwords)
    | cons first rest =>
      cases rest with
      | nil => exact ⟨_, .command first⟩
      | cons second ignored => exact ⟨_, .modified first second ignored⟩

theorem lays_rawTarget {after : List Char} (h : ∃ c ∈ after, Text.isBlank c = false) :
    Lays after (rawTarget after).toList
      (Text.trimChars ((Text.dropBlank after).dropWhile fun c => !Text.isBlank c)) := by
  have hraw : (rawTarget after).toList =
      (Text.dropBlank after).takeWhile fun c => !Text.isBlank c := by
    rw [rawTarget, String.toList_ofList]
  generalize hrest : (Text.dropBlank after).dropWhile (fun c => !Text.isBlank c) = rest
  obtain ⟨lead, hlead, hafter⟩ := Text.dropBlank_spec after
  obtain ⟨gap, trail, hgap, htrail, htail⟩ := Text.trimChars_spec rest
  have hplace : Text.dropBlank after = (rawTarget after).toList ++ rest := by
    rw [hraw, ← hrest, List.takeWhile_append_dropWhile]
  refine ⟨⟨lead, gap, trail, hlead, hgap, htrail, ?_, ?_⟩, ⟨?_, ?_⟩, Text.trimmed_trimChars rest⟩
  · calc after = lead ++ ((rawTarget after).toList ++ rest) := by rw [← hplace, ← hafter]
      _ = lead ++ ((rawTarget after).toList ++ (gap ++ Text.trimChars rest ++ trail)) := by
        rw [← htail]
      _ = lead ++ (rawTarget after).toList ++ gap ++ Text.trimChars rest ++ trail := by simp
  · intro hnone
    have hstarts := Text.startsBlank_dropWhile (Text.dropBlank after)
    rw [hrest, htail, hnone, List.nil_append] at hstarts
    cases hchars : Text.trimChars rest with
    | nil => rfl
    | cons c chars =>
      rw [Text.startsBlank_append (by simp [hchars])] at hstarts
      have hfirst := (Text.trimmed_trimChars rest).first c (by rw [hchars, List.head?_cons])
      rw [hchars, Text.startsBlank, hfirst] at hstarts
      cases hstarts
  · intro hnil
    obtain ⟨c, hc, hfilled⟩ := h
    have hempty : (rawTarget after).isEmpty = true :=
      String.isEmpty_iff.mpr (String.toList_inj.mp hnil)
    exact Bool.false_ne_true (hfilled.symm.trans (isEmpty_rawTarget_iff.mp hempty c hc))
  · intro c hc
    rw [hraw] at hc
    have hall := List.all_eq_true.mp (List.all_takeWhile (l := Text.dropBlank after)) c hc
    simpa using hall

theorem Lays.exists_rest {after target tail : List Char} (h : Lays after target tail) :
    ∃ lead gap trail, (∀ c ∈ lead, Text.isBlank c = true) ∧ (∀ c ∈ gap, Text.isBlank c = true) ∧
      (∀ c ∈ trail, Text.isBlank c = true) ∧ after = lead ++ (target ++ (gap ++ tail ++ trail)) ∧
        Text.startsBlank (gap ++ tail ++ trail) = true := by
  obtain ⟨lead, gap, trail, hlead, hgap, htrail, hafter, hnone⟩ := h.parts
  refine ⟨lead, gap, trail, hlead, hgap, htrail, by simp [hafter], ?_⟩
  by_cases hempty : gap = []
  · rw [hempty, hnone hempty]
    exact Text.startsBlank_of_blanks htrail
  · rw [List.append_assoc, Text.startsBlank_append hempty]
    exact Text.startsBlank_of_blanks hgap

/-- The parts of a text after the separator are those that are read. -/
theorem Lays.invocation_eq {after target tail : List Char} (h : Lays after target tail)
    (name : CallName) (author keyword : String) :
    invocation name after author keyword = {
      modifier := name.modifier
      command := name.command
      rawTarget := .ofList target
      target := if isKeyword keyword (.ofList target) then author else .ofList target
      tail := .ofList tail } := by
  obtain ⟨lead, gap, trail, hlead, hgap, htrail, rfl, hstarts⟩ := h.exists_rest
  have hplace : Text.dropBlank (lead ++ (target ++ (gap ++ tail ++ trail))) =
      target ++ (gap ++ tail ++ trail) := by
    rw [Text.dropBlank_blanks_append hlead]
    refine Text.dropBlank_eq_self fun c hc => h.target.filled c ?_
    cases target with
    | nil => exact absurd rfl h.target.ne_nil
    | cons d target => exact Option.some.inj hc ▸ List.mem_cons_self
  have hraw : rawTarget (lead ++ (target ++ (gap ++ tail ++ trail))) = .ofList target := by
    rw [rawTarget, hplace, Text.takeWhile_solid_append h.target hstarts]
  rw [invocation, hraw, hplace, Text.dropWhile_solid_append h.target hstarts,
    Text.trimChars_append hgap htrail h.tail]

theorem Lays.words_eq {after rawTarget tail : List Char} (h : Lays after rawTarget tail) :
    Text.splitWords after = rawTarget :: Text.splitWords tail := by
  obtain ⟨lead, gap, trail, hlead, hgap, htrail, rfl, hstarts⟩ := h.exists_rest
  rw [Text.splitWords_blanks_append hlead, Text.splitWords_solid_append h.target hstarts,
    Text.splitWords_append_blanks _ htrail, Text.splitWords_blanks_append hgap]

theorem Lays.infix {after rawTarget tail : List Char} (h : Lays after rawTarget tail) :
    tail <:+: after := by
  obtain ⟨lead, gap, trail, -, -, -, hafter, -⟩ := h.parts
  exact ⟨lead ++ rawTarget ++ gap, trail, hafter.symm⟩

theorem SplitsAt.suffix {line before after : List Char} (h : SplitsAt line before after) :
    after <:+ line :=
  ⟨before ++ [':', ':'], by simp [h.line_eq]⟩

theorem reads_invocation {line : String} {name : CallName} {before after : List Char}
    (hname : readName line = .ok name) (hsplit : SplitsAt line.toList before after)
    (h : ∃ c ∈ after, Text.isBlank c = false) (author keyword : String) :
    Reads line author keyword (invocation name after author keyword) before after := by
  have hlays := lays_rawTarget h
  have htail : (invocation name after author keyword).tail.toList =
      Text.trimChars ((Text.dropBlank after).dropWhile fun c => !Text.isBlank c) :=
    String.toList_ofList
  refine ⟨hsplit, ?_, ?_, ?_, ?_, ?_, ?_⟩
  · rw [← nameWords_of_splitsAt hsplit]
    exact readName_eq_ok_iff.mp hname
  · rw [Text.words, Text.words, String.toList_ofList, hlays.words_eq, htail, List.map_cons,
      String.ofList_toList]
    rfl
  · rw [htail]
    exact hlays
  · rw [htail]
    exact hlays.infix.trans hsplit.suffix.isInfix
  · intro hsame
    have hkeyword : isKeyword keyword (rawTarget after) = true := beq_iff_eq.mpr hsame
    exact if_pos hkeyword
  · intro hother
    have hkeyword : ¬ isKeyword keyword (rawTarget after) = true := fun hsame =>
      hother (beq_iff_eq.mp hsame)
    exact if_neg hkeyword

theorem complete_iff {line : String} :
    Complete line ↔ (∃ name, readName line = .ok name) ∧ Targeted line := by
  constructor
  · rintro ⟨before, after, hsplit, hbefore, hafter⟩
    obtain ⟨name, hcalls⟩ := exists_calls_iff.mpr hbefore
    rw [← nameWords_of_splitsAt hsplit] at hcalls
    exact ⟨⟨name, readName_eq_ok_iff.mpr hcalls⟩, before, after, hsplit, hafter⟩
  · rintro ⟨⟨name, hname⟩, before, after, hsplit, hafter⟩
    have hcalls := readName_eq_ok_iff.mp hname
    rw [nameWords_of_splitsAt hsplit] at hcalls
    exact ⟨before, after, hsplit, exists_calls_iff.mp ⟨name, hcalls⟩, hafter⟩

theorem exists_read_iff (line author keyword : String) :
    (∃ inv, read line author keyword = .ok inv) ↔ Complete line := by
  constructor
  · rintro ⟨inv, hread⟩
    rcases readName_cases line with ⟨hwords, -⟩ | ⟨name, -, hname⟩
    · cases (read_noName hwords author keyword).symm.trans hread
    rcases target_cases line with hnone | ⟨before, after, hsplit, hblank⟩ | htargeted
    · cases (read_noSeparator hname hnone author keyword).symm.trans hread
    · cases (read_noTarget hname hsplit hblank author keyword).symm.trans hread
    · exact complete_iff.mpr ⟨⟨name, hname⟩, htargeted⟩
  · intro hcomplete
    obtain ⟨⟨name, hname⟩, before, after, hsplit, hafter⟩ := complete_iff.mp hcomplete
    exact ⟨_, read_targeted hname hsplit hafter author keyword⟩

theorem exists_reads {line author keyword : String} {inv : Invocation}
    (h : read line author keyword = .ok inv) :
    ∃ before after, Reads line author keyword inv before after := by
  obtain ⟨⟨name, hname⟩, before, after, hsplit, hafter⟩ :=
    complete_iff.mp ((exists_read_iff line author keyword).mp ⟨inv, h⟩)
  cases (read_targeted hname hsplit hafter author keyword).symm.trans h
  exact ⟨before, after, reads_invocation hname hsplit hafter author keyword⟩

theorem Reads.readName_eq {line author keyword : String} {inv : Invocation}
    {before after : List Char} (h : Reads line author keyword inv before after) :
    readName line = .ok ⟨inv.modifier, inv.command⟩ := by
  rw [readName_eq_ok_iff, nameWords_of_splitsAt h.split]
  exact h.name

theorem Reads.read_eq {line author keyword : String} {inv : Invocation}
    {before after : List Char} (h : Reads line author keyword inv before after) :
    read line author keyword = .ok inv := by
  have hfilled : ∃ c ∈ after, Text.isBlank c = false := by
    refine Decidable.byContradiction fun hblank => ?_
    have hnil : Text.words (.ofList after) = [] := words_eq_nil_iff.mpr (by simpa using hblank)
    cases hnil.symm.trans h.words
  have htarget : inv.target =
      if isKeyword keyword inv.rawTarget then author else inv.rawTarget := by
    by_cases hsame : isKeyword keyword inv.rawTarget = true
    · rw [if_pos hsame]
      exact h.ownTarget (beq_iff_eq.mp hsame)
    · rw [if_neg hsame]
      exact h.otherTarget fun heq => hsame (beq_iff_eq.mpr heq)
  rw [read_targeted h.readName_eq h.split hfilled, h.lays.invocation_eq]
  simp only [String.ofList_toList, ← htarget]

/-- A line is read exactly if something stands before and after its first separator, and otherwise it
is a parse failure. What is read has the first words of the name, the first word after the separator
as its target, the words after that in its tail, and the author in place of the self keyword. -/
theorem read_language (line author keyword : String) :
    ((∃ inv, read line author keyword = .ok inv) ↔ Complete line) ∧
    (∀ e, read line author keyword = .error e → ∃ text, e.fault = .parse text) ∧
    ∀ inv, read line author keyword = .ok inv →
      ∃ before after, Reads line author keyword inv before after :=
  ⟨exists_read_iff line author keyword, fun e _ => ⟨e.message, rfl⟩, fun _ h => exists_reads h⟩

end RecordConsole.Line
