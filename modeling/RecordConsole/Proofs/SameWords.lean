import Mathlib.Data.List.Induction
import RecordConsole.Proofs.Calls
import RecordConsole.Proofs.Preparation

/-! What of a line its words alone decide. A separator holds no blank, so it stands inside a word,
and the words on either side of it are the same in every line of the same words. Only the tail is
kept as it was written, with the same words in it. -/
namespace RecordConsole

namespace Text

/-! ## Cutting a text around a word -/

def Ended (chars : List Char) : Prop :=
  ∀ rest, splitWords (chars ++ rest) = splitWords chars ++ splitWords rest

theorem ended_of_blanks {blanks : List Char} (h : ∀ c ∈ blanks, isBlank c = true) :
    Ended blanks := by
  intro rest
  rw [splitWords_blanks_append h, splitWords_eq_nil_iff.mpr h, List.nil_append]

theorem ended_append_blank (chars : List Char) {c : Char} (hc : isBlank c = true) :
    Ended (chars ++ [c]) := by
  intro rest
  rw [List.append_assoc, List.singleton_append, splitWords_append_blank chars hc rest,
    splitWords_append_blank chars hc []]
  simp [splitWords]

theorem splitWords_append_of_startsBlank (chars : List Char) {rest : List Char}
    (h : startsBlank rest = true) :
    splitWords (chars ++ rest) = splitWords chars ++ splitWords rest := by
  cases rest with
  | nil => simp [splitWords]
  | cons c rest =>
    have hc : isBlank c = true := h
    rw [splitWords_append_blank chars hc, splitWords, if_pos hc]

/-- A text is what its last blank ends, and the beginning of a word after it. -/
theorem exists_ended (chars : List Char) :
    ∃ closed begun, chars = closed ++ begun ∧ Ended closed ∧ ∀ c ∈ begun, isBlank c = false := by
  induction chars using List.reverseRecOn with
  | nil => exact ⟨[], [], rfl, ended_of_blanks (by simp), by simp⟩
  | append_singleton chars c ih =>
    by_cases hc : isBlank c = true
    · exact ⟨chars ++ [c], [], by simp, ended_append_blank chars hc, by simp⟩
    · obtain ⟨closed, begun, rfl, hclosed, hbegun⟩ := ih
      refine ⟨closed, begun ++ [c], by simp, hclosed, ?_⟩
      intro d hd
      rcases List.mem_append.mp hd with hd | hd
      · exact hbegun d hd
      · rw [List.mem_singleton.mp hd]
        exact Bool.eq_false_iff.mpr hc

theorem exists_word_around (before after : List Char) {middle : List Char} (h : Solid middle) :
    ∃ closed begun finish rest, before = closed ++ begun ∧ after = finish ++ rest ∧ Ended closed ∧
      startsBlank rest = true ∧ splitWords (before ++ middle ++ after) =
        splitWords closed ++ (begun ++ middle ++ finish) :: splitWords rest := by
  obtain ⟨closed, begun, rfl, hclosed, hbegun⟩ := exists_ended before
  refine ⟨closed, begun, after.takeWhile fun c => !isBlank c, after.dropWhile fun c => !isBlank c,
    rfl, List.takeWhile_append_dropWhile.symm, hclosed, startsBlank_dropWhile after, ?_⟩
  have hword : Solid (begun ++ middle ++ after.takeWhile fun c => !isBlank c) := by
    refine ⟨by simp [h.ne_nil], ?_⟩
    intro c hc
    rcases List.mem_append.mp hc with hc | hc
    · rcases List.mem_append.mp hc with hc | hc
      · exact hbegun c hc
      · exact h.filled c hc
    · simpa using List.all_eq_true.mp List.all_takeWhile c hc
  rw [← splitWords_solid_append hword (startsBlank_dropWhile after), ← hclosed]
  congr 1
  simp

theorem exists_word {chars word : List Char} {outer more : List (List Char)}
    (h : splitWords chars = outer ++ word :: more) :
    ∃ closed rest, chars = closed ++ (word ++ rest) ∧ Ended closed ∧ splitWords closed = outer ∧
      startsBlank rest = true ∧ splitWords rest = more := by
  induction outer generalizing chars with
  | nil =>
    obtain ⟨lead, rest, hchars, hlead, hrest⟩ := exists_first_word h
    exact ⟨lead, rest, hchars, ended_of_blanks hlead, splitWords_eq_nil_iff.mpr hlead, hrest⟩
  | cons first outer ih =>
    have hsolid : ∀ part ∈ first :: outer ++ word :: more, Solid part := by
      rw [← h]
      exact fun part => solid_of_mem_splitWords
    have hfirst : Solid first := hsolid first (by simp)
    have hword : Solid word := hsolid word (by simp)
    obtain ⟨lead, others, rfl, hlead, hstarts, hothers⟩ := exists_first_word h
    obtain ⟨closed, rest, rfl, hclosed, houter, hrest⟩ := ih hothers
    have hblank : closed ≠ [] := by
      rintro rfl
      obtain ⟨c, chars, rfl⟩ := List.exists_cons_of_ne_nil hword.ne_nil
      exact Bool.false_ne_true ((hword.filled c List.mem_cons_self).symm.trans hstarts)
    rw [startsBlank_append hblank] at hstarts
    have hwords (tail : List Char) : splitWords (lead ++ (first ++ closed) ++ tail) =
        first :: splitWords (closed ++ tail) := by
      rw [List.append_assoc, splitWords_blanks_append hlead, List.append_assoc,
        splitWords_solid_append hfirst (by rwa [startsBlank_append hblank])]
    have hends := hwords []
    rw [List.append_nil, List.append_nil, houter] at hends
    refine ⟨lead ++ (first ++ closed), rest, by simp, ?_, hends, hrest⟩
    intro tail
    rw [hwords, hclosed, hends, houter, List.cons_append]

theorem trim_trim (text : String) : trim (trim text) = trim text := by
  have hblanks : ∀ c ∈ ([] : List Char), isBlank c = true := by simp
  have htrim := trimChars_append hblanks hblanks (trimmed_trimChars text.toList)
  rw [List.nil_append, List.append_nil] at htrim
  rw [trim, trim, String.toList_ofList, htrim]

theorem splitWords_flatten (line : String) :
    splitWords (flatten [line]).toList = splitWords line.toList := by
  have hsingle : wordsOfParts [line] = words line := by simp [wordsOfParts]
  rw [← map_toList_words, words_flatten, hsingle, map_toList_words]

end Text

namespace Line

/-! ## Lines of the same words -/

theorem solid_separator : Text.Solid [':', ':'] := by
  refine ⟨by simp, ?_⟩
  intro c hc
  have hcolon : c = ':' := by simpa using hc
  rw [hcolon]
  decide

/-- Whether there is a separator in a text can be told from its words. -/
theorem hasSeparator_iff_word {chars : List Char} :
    HasSeparator chars ↔ ∃ word ∈ Text.splitWords chars, HasSeparator word := by
  constructor
  · rintro ⟨before, after, rfl⟩
    obtain ⟨closed, begun, finish, rest, -, -, -, -, hwords⟩ :=
      Text.exists_word_around before after solid_separator
    refine ⟨begun ++ [':', ':'] ++ finish, ?_, begun, finish, rfl⟩
    rw [hwords]
    exact List.mem_append_right _ List.mem_cons_self
  · rintro ⟨word, hword, hseparator⟩
    exact hseparator.trans ((Text.infix_of_mem_splitWords chars).1 word hword)

theorem hasSeparator_congr {chars others : List Char}
    (h : Text.splitWords others = Text.splitWords chars) :
    HasSeparator others ↔ HasSeparator chars := by
  rw [hasSeparator_iff_word, hasSeparator_iff_word, h]

/-- The words of a line decide which of them stand on which side of the first separator. -/
theorem SplitsAt.exists_of_words {line other before after : List Char}
    (h : SplitsAt line before after) (hwords : Text.splitWords other = Text.splitWords line) :
    ∃ before' after', SplitsAt other before' after' ∧
      Text.splitWords before' = Text.splitWords before ∧
      Text.splitWords after' = Text.splitWords after := by
  obtain ⟨closed, begun, finish, rest, rfl, rfl, hclosed, hrest, hline⟩ :=
    Text.exists_word_around before after solid_separator
  have hsplit : Text.splitWords other =
      Text.splitWords closed ++ (begun ++ [':', ':'] ++ finish) :: Text.splitWords rest := by
    rw [hwords, h.line_eq, ← hline]
    simp
  obtain ⟨closed', rest', rfl, hclosed', houter, hrest', hmore⟩ := Text.exists_word hsplit
  refine ⟨closed' ++ begun, finish ++ rest', ⟨by simp, ?_⟩, ?_, ?_⟩
  · have hsame : Text.splitWords (closed' ++ begun ++ [':']) =
        Text.splitWords (closed ++ begun ++ [':']) := by
      rw [List.append_assoc, List.append_assoc, hclosed', hclosed, houter]
    rw [hasSeparator_congr hsame]
    exact h.first
  · rw [hclosed', hclosed, houter]
  · rw [Text.splitWords_append_of_startsBlank _ hrest',
      Text.splitWords_append_of_startsBlank _ hrest, hmore]

theorem exists_splitsAt {line : List Char} (h : HasSeparator line) :
    ∃ before after, SplitsAt line before after := by
  rcases splitAtSeparator_spec line with ⟨before, after, -, hsplit⟩ | ⟨-, hnone⟩
  · exact ⟨before, after, hsplit⟩
  · exact absurd h hnone

theorem nameWords_of_words {line other : String}
    (hwords : Text.splitWords other.toList = Text.splitWords line.toList) :
    nameWords other = nameWords line := by
  by_cases hseparator : HasSeparator line.toList
  · obtain ⟨before, after, hsplit⟩ := exists_splitsAt hseparator
    obtain ⟨before', after', hsplit', hbefore, -⟩ := hsplit.exists_of_words hwords
    rw [nameWords_of_splitsAt hsplit, nameWords_of_splitsAt hsplit', Text.words, Text.words,
      String.toList_ofList, String.toList_ofList, hbefore]
  · have hother : ¬ HasSeparator other.toList := by rwa [hasSeparator_congr hwords]
    rw [nameWords, nameWords, namePart, namePart, splitAtSeparator_eq_none_iff.mpr hseparator,
      splitAtSeparator_eq_none_iff.mpr hother, Text.words, Text.words, String.toList_ofList,
      String.toList_ofList, hwords]

theorem readName_of_words {line other : String}
    (hwords : Text.splitWords other.toList = Text.splitWords line.toList) :
    readName other = readName line :=
  readName_congr (nameWords_of_words hwords)

theorem filled_iff_splitWords {chars : List Char} :
    (∃ c ∈ chars, Text.isBlank c = false) ↔ Text.splitWords chars ≠ [] := by
  rw [Ne, Text.splitWords_eq_nil_iff]
  simp

/-- Lines with a separator and the same words are read alike, but for the blanks in the tail. -/
theorem read_of_words {line other : String} (hseparator : HasSeparator line.toList)
    (hwords : Text.splitWords other.toList = Text.splitWords line.toList)
    (author keyword : String) :
    ∃ tail, read other author keyword =
        (read line author keyword).map (fun inv => { inv with tail }) ∧
      ∀ inv, read line author keyword = .ok inv → Text.words tail = Text.words inv.tail := by
  obtain ⟨before, after, hsplit⟩ := exists_splitsAt hseparator
  obtain ⟨before', after', hsplit', -, hafter⟩ := hsplit.exists_of_words hwords
  rcases readName_cases line with ⟨hnone, -⟩ | ⟨name, -, hname⟩
  · refine ⟨"", ?_, ?_⟩
    · rw [read_noName hnone, read_noName ((nameWords_of_words hwords).trans hnone)]
      rfl
    · intro inv hread
      cases (read_noName hnone author keyword).symm.trans hread
  have hname' := (readName_of_words hwords).trans hname
  by_cases hfilled : ∃ c ∈ after, Text.isBlank c = false
  · have hfilled' : ∃ c ∈ after', Text.isBlank c = false := by
      rw [filled_iff_splitWords, hafter, ← filled_iff_splitWords]
      exact hfilled
    have hread := read_targeted hname hsplit hfilled author keyword
    have hparts := (reads_invocation hname hsplit hfilled author keyword).words
    have hparts' := (reads_invocation hname' hsplit' hfilled' author keyword).words
    have hsame : Text.words (.ofList after') = Text.words (.ofList after) := by
      rw [Text.words, Text.words, String.toList_ofList, String.toList_ofList, hafter]
    obtain ⟨hraw, htail⟩ := List.cons.inj (hparts'.symm.trans (hsame.trans hparts))
    have hraw : rawTarget after' = rawTarget after := hraw
    refine ⟨(invocation name after' author keyword).tail, ?_, ?_⟩
    · rw [hread, read_targeted hname' hsplit' hfilled' author keyword]
      simp only [Except.map, invocation, hraw]
    · intro inv hinv
      cases hread.symm.trans hinv
      exact htail
  · have hblank : ∀ c ∈ after, Text.isBlank c = true := by simpa using hfilled
    have hblank' : ∀ c ∈ after', Text.isBlank c = true := by
      rw [← Text.splitWords_eq_nil_iff, hafter, Text.splitWords_eq_nil_iff]
      exact hblank
    have hread := read_noTarget hname hsplit hblank author keyword
    refine ⟨"", ?_, ?_⟩
    · rw [hread, read_noTarget hname' hsplit' hblank' author keyword]
      rfl
    · intro inv hinv
      cases hread.symm.trans hinv

/-! ## Blanks around a line -/

theorem splitsAt_blanks {lead chars trail before after : List Char}
    (hlead : ∀ c ∈ lead, Text.isBlank c = true) (h : SplitsAt chars before after) :
    SplitsAt (lead ++ chars ++ trail) (lead ++ before) (after ++ trail) := by
  refine ⟨by simp [h.line_eq], ?_⟩
  rw [List.append_assoc, hasSeparator_congr (Text.splitWords_blanks_append hlead _)]
  exact h.first

theorem toList_trim (line : String) : (Text.trim line).toList = Text.trimChars line.toList :=
  String.toList_ofList

theorem splitWords_trim (line : String) :
    Text.splitWords (Text.trim line).toList = Text.splitWords line.toList := by
  rw [toList_trim, Text.splitWords_trimChars]

theorem invocation_append_blanks {after trail : List Char}
    (hfilled : ∃ c ∈ after, Text.isBlank c = false)
    (htrail : ∀ c ∈ trail, Text.isBlank c = true) (name : CallName) (author keyword : String) :
    invocation name (after ++ trail) author keyword = invocation name after author keyword := by
  have hlays := lays_rawTarget hfilled
  have hmore : Lays (after ++ trail) (rawTarget after).toList
      (Text.trimChars ((Text.dropBlank after).dropWhile fun c => !Text.isBlank c)) := by
    obtain ⟨lead, gap, last, hlead, hgap, hlast, hafter, hnone⟩ := hlays.parts
    refine ⟨⟨lead, gap, last ++ trail, hlead, hgap, ?_, ?_, hnone⟩, hlays.target, hlays.tail⟩
    · intro c hc
      exact (List.mem_append.mp hc).elim (hlast c) (htrail c)
    · exact (congrArg (· ++ trail) hafter).trans (List.append_assoc _ _ _)
  rw [hlays.invocation_eq, hmore.invocation_eq]

theorem fault_missingSeparator_trim (line : String) :
    (LineError.missingSeparator (Text.trim line)).fault =
      (LineError.missingSeparator line).fault := by
  have hmessage (line : String) : (LineError.missingSeparator line).fault =
      .parse ("expected '<command>::<target>' in '" ++ Text.trim line ++ "'") := rfl
  rw [hmessage, hmessage, Text.trim_trim]

theorem read_trim (line author keyword : String) :
    (read (Text.trim line) author keyword).mapError LineError.fault =
      (read line author keyword).mapError LineError.fault := by
  have hwords := splitWords_trim line
  rcases readName_cases line with ⟨hnone, -⟩ | ⟨name, -, hname⟩
  · rw [read_noName hnone, read_noName ((nameWords_of_words hwords).trans hnone)]
  have hname' := (readName_of_words hwords).trans hname
  rcases splitAtSeparator_spec (Text.trim line).toList with ⟨before, after, -, hsplit⟩ | ⟨-, hno⟩
  · obtain ⟨lead, trail, hlead, htrail, hchars⟩ := Text.trimChars_spec line.toList
    have hline : SplitsAt line.toList (lead ++ before) (after ++ trail) := by
      rw [hchars, ← toList_trim]
      exact splitsAt_blanks hlead hsplit
    by_cases hfilled : ∃ c ∈ after, Text.isBlank c = false
    · have hfilled' : ∃ c ∈ after ++ trail, Text.isBlank c = false := by
        obtain ⟨c, hc, hblank⟩ := hfilled
        exact ⟨c, List.mem_append_left _ hc, hblank⟩
      rw [read_targeted hname' hsplit hfilled, read_targeted hname hline hfilled',
        invocation_append_blanks hfilled htrail]
    · have hblank : ∀ c ∈ after, Text.isBlank c = true := by simpa using hfilled
      rw [read_noTarget hname' hsplit hblank, read_noTarget hname hline ?_]
      intro c hc
      exact (List.mem_append.mp hc).elim (hblank c) (htrail c)
  · have hno' : ¬ HasSeparator line.toList := by
      rwa [← hasSeparator_congr hwords]
    rw [read_noSeparator hname' hno, read_noSeparator hname hno', mapError_error, mapError_error,
      fault_missingSeparator_trim]

end Line
end RecordConsole
