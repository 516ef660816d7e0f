import RecordConsole.Text.Words

/-! What splitting into words sees of a text. Blanks around it are no matter, a run without blanks in
front of a blank is the first word, and a word is its own only word. -/
namespace RecordConsole.Text

structure Trimmed (chars : List Char) : Prop where
  first : ∀ c, chars.head? = some c → isBlank c = false
  last : ∀ c, chars.getLast? = some c → isBlank c = false

/-- Something to make a word of: a run of characters none of which is blank. -/
structure Solid (word : List Char) : Prop where
  ne_nil : word ≠ []
  filled : ∀ c ∈ word, isBlank c = false

theorem isBlank_space : isBlank ' ' = true := by decide

theorem isBlank_eq_false {c : Char} (h : 32 < c.toNat) (h' : c.toNat < 127) :
    isBlank c = false := by
  simp only [isBlank, blank, CharClass.contains, CharClass.containsCode]
  grind

theorem startsBlank_append {chars rest : List Char} (h : chars ≠ []) :
    startsBlank (chars ++ rest) = startsBlank chars := by
  cases chars with
  | nil => exact absurd rfl h
  | cons c chars => rfl

theorem startsBlank_of_blanks {blanks : List Char} (h : ∀ c ∈ blanks, isBlank c = true) :
    startsBlank blanks = true := by
  cases blanks with
  | nil => rfl
  | cons c blanks => exact h c List.mem_cons_self

theorem growFirst_ne_nil (c : Char) (words : List (List Char)) : growFirst c words ≠ [] := by
  cases words <;> exact List.cons_ne_nil _ _

theorem splitWords_eq_nil_iff {chars : List Char} :
    splitWords chars = [] ↔ ∀ c ∈ chars, isBlank c = true := by
  induction chars with
  | nil => simp [splitWords]
  | cons c rest ih =>
    rw [splitWords]
    by_cases hc : isBlank c = true
    · simp [hc, ih]
    · rw [if_neg hc]
      constructor
      · intro h
        split at h
        · contradiction
        · exact absurd h (growFirst_ne_nil _ _)
      · intro h
        exact absurd (h c List.mem_cons_self) hc

theorem splitWords_blanks_append {blanks : List Char} (h : ∀ c ∈ blanks, isBlank c = true)
    (rest : List Char) : splitWords (blanks ++ rest) = splitWords rest := by
  induction blanks with
  | nil => rfl
  | cons c blanks ih =>
    rw [List.cons_append, splitWords, if_pos (h c List.mem_cons_self)]
    exact ih fun d hd => h d (List.mem_cons_of_mem _ hd)

theorem splitWords_append_blanks (chars : List Char) {blanks : List Char}
    (h : ∀ c ∈ blanks, isBlank c = true) : splitWords (chars ++ blanks) = splitWords chars := by
  induction chars with
  | nil => exact splitWords_eq_nil_iff.mpr h
  | cons c rest ih =>
    have hstarts : startsBlank (rest ++ blanks) = startsBlank rest := by
      cases rest with
      | nil => exact startsBlank_of_blanks h
      | cons d rest => rfl
    rw [List.cons_append, splitWords, splitWords, ih, hstarts]

theorem splitWords_solid_append {word rest : List Char} (hword : Solid word)
    (hrest : startsBlank rest = true) : splitWords (word ++ rest) = word :: splitWords rest := by
  obtain ⟨hne, hfilled⟩ := hword
  induction word with
  | nil => exact absurd rfl hne
  | cons c word ih =>
    have hc : ¬ isBlank c = true := by simp [hfilled c List.mem_cons_self]
    rw [List.cons_append, splitWords, if_neg hc]
    by_cases hword : word = []
    · subst hword
      rw [List.nil_append, if_pos hrest]
    · have hfilled' : ∀ d ∈ word, isBlank d = false := fun d hd =>
        hfilled d (List.mem_cons_of_mem _ hd)
      have hstarts : ¬ startsBlank (word ++ rest) = true := by
        rw [startsBlank_append hword]
        cases word with
        | nil => exact absurd rfl hword
        | cons d word => simp [startsBlank, hfilled' d List.mem_cons_self]
      rw [if_neg hstarts, ih hword hfilled', growFirst]

theorem splitWords_solid {word : List Char} (h : Solid word) : splitWords word = [word] := by
  have hsplit : splitWords (word ++ []) = word :: splitWords [] := splitWords_solid_append h rfl
  rwa [List.append_nil] at hsplit

theorem solid_growFirst {c : Char} {words : List (List Char)} (hc : isBlank c = false)
    (h : ∀ word ∈ words, Solid word) : ∀ word ∈ growFirst c words, Solid word := by
  intro word hword
  cases words with
  | nil =>
    obtain rfl := List.mem_singleton.mp hword
    exact ⟨List.cons_ne_nil _ _, fun d hd => List.mem_singleton.mp hd ▸ hc⟩
  | cons first rest =>
    rcases List.mem_cons.mp hword with rfl | hrest
    · refine ⟨List.cons_ne_nil _ _, fun d hd => ?_⟩
      rcases List.mem_cons.mp hd with rfl | hd
      · exact hc
      · exact (h first List.mem_cons_self).filled d hd
    · exact h word (List.mem_cons_of_mem _ hrest)

theorem solid_of_mem_splitWords {chars word : List Char} (h : word ∈ splitWords chars) :
    Solid word := by
  suffices hall : ∀ word ∈ splitWords chars, Solid word from hall word h
  clear h
  induction chars with
  | nil => simp [splitWords]
  | cons c rest ih =>
    rw [splitWords]
    by_cases hc : isBlank c = true
    · rw [if_pos hc]
      exact ih
    · have hfilled : isBlank c = false := by simpa using hc
      rw [if_neg hc]
      split
      · intro word hword
        rcases List.mem_cons.mp hword with rfl | hrest
        · exact ⟨List.cons_ne_nil _ _, fun d hd => List.mem_singleton.mp hd ▸ hfilled⟩
        · exact ih word hrest
      · exact solid_growFirst hfilled ih

/-- Words are pieces of the text, and the first one is its beginning unless a blank is. -/
theorem infix_of_mem_splitWords (chars : List Char) :
    (∀ word ∈ splitWords chars, word <:+: chars) ∧
      (startsBlank chars = false → ∀ word, (splitWords chars).head? = some word →
        word <+: chars) := by
  induction chars with
  | nil => simp [splitWords]
  | cons c rest ih =>
    obtain ⟨hall, hfirst⟩ := ih
    have hlater {word : List Char} (hword : word ∈ splitWords rest) : word <:+: c :: rest :=
      (hall word hword).trans (List.suffix_cons c rest).isInfix
    rw [splitWords]
    by_cases hc : isBlank c = true
    · rw [if_pos hc]
      refine ⟨fun word hword => hlater hword, fun hstarts => ?_⟩
      exact absurd hc (Bool.not_eq_true _ ▸ hstarts)
    rw [if_neg hc]
    by_cases hrest : startsBlank rest = true
    · have hsingle : [c] <+: c :: rest := ⟨rest, rfl⟩
      rw [if_pos hrest]
      refine ⟨fun word hword => ?_, fun _ word hword => ?_⟩
      · rcases List.mem_cons.mp hword with rfl | hword
        · exact hsingle.isInfix
        · exact hlater hword
      · obtain rfl := Option.some.inj hword
        exact hsingle
    · have hgrown (word : List Char) (h : word <+: rest) : c :: word <+: c :: rest :=
        (List.prefix_cons_inj c).mpr h
      have hstarts : startsBlank rest = false := by simpa using hrest
      rw [if_neg hrest]
      cases hwords : splitWords rest with
      | nil =>
        have hsingle := hgrown [] List.nil_prefix
        refine ⟨fun word hword => ?_, fun _ word hword => ?_⟩
        · obtain rfl := List.mem_singleton.mp hword
          exact hsingle.isInfix
        · obtain rfl := Option.some.inj hword
          exact hsingle
      | cons first others =>
        have hgrow := hgrown first (hfirst hstarts first (by simp [hwords]))
        refine ⟨fun word hword => ?_, fun _ word hword => ?_⟩
        · rcases List.mem_cons.mp hword with rfl | hword
          · exact hgrow.isInfix
          · exact hlater (by simp [hwords, hword])
        · obtain rfl := Option.some.inj hword
          exact hgrow

theorem map_toList_words (text : String) :
    (words text).map String.toList = splitWords text.toList := by
  simp [words]

theorem words_of_solid {text : String} (h : Solid text.toList) : words text = [text] := by
  rw [words, splitWords_solid h]
  simp

theorem words_of_mem_words {text word : String} (h : word ∈ words text) : words word = [word] := by
  obtain ⟨chars, hchars, rfl⟩ := List.mem_map.mp h
  apply words_of_solid
  rw [String.toList_ofList]
  exact solid_of_mem_splitWords hchars

theorem wordsOfParts_eq_self {parts : List String} (h : ∀ part ∈ parts, words part = [part]) :
    wordsOfParts parts = parts := by
  induction parts with
  | nil => rfl
  | cons part rest ih =>
    have hrest := ih fun other hother => h other (List.mem_cons_of_mem _ hother)
    rw [wordsOfParts, List.flatMap_cons, h part List.mem_cons_self]
    exact congrArg (part :: ·) hrest

theorem growFirst_append (c : Char) {words : List (List Char)} (h : words ≠ [])
    (more : List (List Char)) : growFirst c (words ++ more) = growFirst c words ++ more := by
  cases words with
  | nil => exact absurd rfl h
  | cons first rest => rfl

/-- Words end at a blank, so they are those in front of it and those behind it. -/
theorem splitWords_append_blank (chars : List Char) {c : Char} (hc : isBlank c = true)
    (rest : List Char) : splitWords (chars ++ c :: rest) = splitWords chars ++ splitWords rest := by
  induction chars with
  | nil => simp [splitWords, hc]
  | cons d chars ih =>
    have hstarts : startsBlank (chars ++ c :: rest) = startsBlank chars := by
      cases chars with
      | nil => exact hc
      | cons e chars => rfl
    rw [List.cons_append, splitWords, splitWords, hstarts, ih]
    by_cases hd : isBlank d = true
    · rw [if_pos hd, if_pos hd]
    rw [if_neg hd, if_neg hd]
    by_cases hchars : startsBlank chars = true
    · rw [if_pos hchars, if_pos hchars, List.cons_append]
    · have hwords : splitWords chars ≠ [] := by
        rw [Ne, splitWords_eq_nil_iff]
        exact fun hblanks => hchars (startsBlank_of_blanks hblanks)
      rw [if_neg hchars, if_neg hchars, growFirst_append d hwords]

theorem words_intercalate (parts : List String) :
    words (" ".intercalate parts) = wordsOfParts parts := by
  induction parts with
  | nil => rfl
  | cons part rest ih =>
    cases rest with
    | nil => simp [wordsOfParts]
    | cons next more =>
      have hsplit :=
        splitWords_append_blank part.toList isBlank_space (" ".intercalate (next :: more)).toList
      rw [wordsOfParts, List.flatMap_cons, ← wordsOfParts, ← ih, String.intercalate_cons_cons,
        words, words, words, ← List.map_append, ← hsplit]
      simp

theorem words_flatten (parts : List String) : words (flatten parts) = wordsOfParts parts := by
  rw [flatten, words_intercalate]
  apply wordsOfParts_eq_self
  intro word hword
  obtain ⟨part, -, hpart⟩ := List.mem_flatMap.mp hword
  exact words_of_mem_words hpart

/-! ## Trimming -/

theorem startsBlank_dropWhile (chars : List Char) :
    startsBlank (chars.dropWhile fun c => !isBlank c) = true := by
  induction chars with
  | nil => rfl
  | cons c rest ih =>
    by_cases hc : isBlank c = true
    · simp [startsBlank, hc]
    · simp [hc, ih]

theorem first_dropBlank (chars : List Char) {c : Char} (h : (dropBlank chars).head? = some c) :
    isBlank c = false := by
  have hhead := List.head?_dropWhile_not isBlank chars
  rwa [show (chars.dropWhile isBlank).head? = some c from h] at hhead

theorem dropBlank_spec (chars : List Char) :
    ∃ lead, (∀ c ∈ lead, isBlank c = true) ∧ chars = lead ++ dropBlank chars := by
  refine ⟨chars.takeWhile isBlank, ?_, List.takeWhile_append_dropWhile.symm⟩
  intro c hc
  exact List.all_eq_true.mp List.all_takeWhile c hc

theorem dropBlankEnd_spec (chars : List Char) :
    ∃ trail, (∀ c ∈ trail, isBlank c = true) ∧ chars = dropBlankEnd chars ++ trail := by
  obtain ⟨lead, hlead, hchars⟩ := dropBlank_spec chars.reverse
  refine ⟨lead.reverse, fun c hc => hlead c (List.mem_reverse.mp hc), ?_⟩
  rw [dropBlankEnd, ← List.reverse_append, ← hchars, List.reverse_reverse]

theorem trimmed_trimChars (chars : List Char) : Trimmed (trimChars chars) where
  first c hc := by
    obtain ⟨trail, -, htrail⟩ := dropBlankEnd_spec (dropBlank chars)
    refine first_dropBlank chars ?_
    rw [htrail, List.head?_append]
    exact Option.or_eq_some_iff.mpr (Or.inl hc)
  last c hc := by
    rw [trimChars, dropBlankEnd, List.getLast?_reverse] at hc
    exact first_dropBlank _ hc

theorem trimChars_spec (chars : List Char) :
    ∃ lead trail, (∀ c ∈ lead, isBlank c = true) ∧ (∀ c ∈ trail, isBlank c = true) ∧
      chars = lead ++ trimChars chars ++ trail := by
  obtain ⟨lead, hlead, hchars⟩ := dropBlank_spec chars
  obtain ⟨trail, htrail, hdrop⟩ := dropBlankEnd_spec (dropBlank chars)
  refine ⟨lead, trail, hlead, htrail, ?_⟩
  rw [List.append_assoc, trimChars, ← hdrop, ← hchars]

theorem splitWords_trimChars (chars : List Char) :
    splitWords (trimChars chars) = splitWords chars := by
  obtain ⟨lead, trail, hlead, htrail, hchars⟩ := trimChars_spec chars
  have hwords : splitWords (lead ++ trimChars chars ++ trail) = splitWords (trimChars chars) := by
    rw [splitWords_append_blanks _ htrail, splitWords_blanks_append hlead]
  rw [← hwords, ← hchars]

theorem Solid.trimmed {word : List Char} (h : Solid word) : Trimmed word where
  first c hc := h.filled c (List.mem_of_mem_head? hc)
  last c hc := h.filled c (List.mem_of_getLast? hc)

theorem dropBlank_blanks_append {blanks : List Char} (h : ∀ c ∈ blanks, isBlank c = true)
    (rest : List Char) : dropBlank (blanks ++ rest) = dropBlank rest :=
  List.dropWhile_append_of_pos h

theorem dropBlank_eq_self {chars : List Char}
    (h : ∀ c, chars.head? = some c → isBlank c = false) : dropBlank chars = chars := by
  cases chars with
  | nil => rfl
  | cons c rest => exact List.dropWhile_cons_of_neg (by simp [h c rfl])

/-- Blanks around a text are all that trimming takes away from it. -/
theorem trimChars_append {lead chars trail : List Char} (hlead : ∀ c ∈ lead, isBlank c = true)
    (htrail : ∀ c ∈ trail, isBlank c = true) (h : Trimmed chars) :
    trimChars (lead ++ chars ++ trail) = chars := by
  rw [trimChars, List.append_assoc, dropBlank_blanks_append hlead]
  cases chars with
  | nil =>
    have hnone : dropBlank (trail ++ []) = [] := dropBlank_blanks_append htrail []
    rw [List.nil_append, ← List.append_nil trail, hnone]
    rfl
  | cons first rest =>
    have hfirst : dropBlank (first :: rest ++ trail) = first :: rest ++ trail :=
      dropBlank_eq_self h.first
    have hlast : dropBlank (first :: rest).reverse = (first :: rest).reverse := by
      refine dropBlank_eq_self fun c hc => h.last c ?_
      rwa [List.head?_reverse] at hc
    rw [hfirst, dropBlankEnd, List.reverse_append,
      dropBlank_blanks_append (fun c hc => htrail c (List.mem_reverse.mp hc)), hlast,
      List.reverse_reverse]

theorem takeWhile_solid_append {word rest : List Char} (hword : Solid word)
    (hrest : startsBlank rest = true) :
    (word ++ rest).takeWhile (fun c => !isBlank c) = word := by
  rw [List.takeWhile_append_of_pos (fun c hc => by simp [hword.filled c hc])]
  cases rest with
  | nil => simp
  | cons c rest =>
    have hc : isBlank c = true := hrest
    simp [hc]

theorem dropWhile_solid_append {word rest : List Char} (hword : Solid word)
    (hrest : startsBlank rest = true) :
    (word ++ rest).dropWhile (fun c => !isBlank c) = rest := by
  rw [List.dropWhile_append_of_pos (fun c hc => by simp [hword.filled c hc])]
  cases rest with
  | nil => rfl
  | cons c rest =>
    have hc : isBlank c = true := hrest
    simp [hc]

theorem exists_first_word {chars word : List Char} {more : List (List Char)}
    (h : splitWords chars = word :: more) :
    ∃ lead rest, chars = lead ++ (word ++ rest) ∧ (∀ c ∈ lead, isBlank c = true) ∧
      startsBlank rest = true ∧ splitWords rest = more := by
  obtain ⟨lead, hlead, hchars⟩ := dropBlank_spec chars
  have hplace : ∃ c place, dropBlank chars = c :: place := by
    refine List.exists_cons_of_ne_nil ?_
    intro hnil
    rw [hchars, hnil, List.append_nil, splitWords_eq_nil_iff.mpr hlead] at h
    cases h
  obtain ⟨c, place, hplace⟩ := hplace
  have hc : isBlank c = false := first_dropBlank chars (by rw [hplace, List.head?_cons])
  have hsolid : Solid (c :: place.takeWhile fun d => !isBlank d) := by
    refine ⟨List.cons_ne_nil _ _, ?_⟩
    intro d hd
    rcases List.mem_cons.mp hd with rfl | hd
    · exact hc
    · simpa using List.all_eq_true.mp List.all_takeWhile d hd
  have hcut : dropBlank chars =
      (c :: place.takeWhile fun d => !isBlank d) ++ place.dropWhile fun d => !isBlank d := by
    rw [hplace, List.cons_append, List.takeWhile_append_dropWhile]
  have hstarts := startsBlank_dropWhile place
  rw [hchars, splitWords_blanks_append hlead, hcut, splitWords_solid_append hsolid hstarts] at h
  obtain ⟨rfl, hmore⟩ := List.cons.inj h
  exact ⟨lead, _, by rw [← hcut, ← hchars], hlead, hstarts, hmore⟩

end RecordConsole.Text
