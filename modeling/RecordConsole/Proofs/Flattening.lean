import Mathlib.Data.List.Chain
import RecordConsole.Proofs.Words

/-! Splitting as it is specified: the parts are joined by single spaces, every run of blanks becomes
one space, blanks at the ends are cut off, and the pieces between spaces are the words. The library
never joins the parts; its words and its flat text are the specified ones all the same. A flat text
is settled by its words, and so both ways agree as soon as their words do. -/
namespace RecordConsole.Text

/-- Words are what stands between blanks, where that is anything at all. -/
theorem splitWords_eq_splitOnP (chars : List Char) :
    splitWords chars = (chars.splitOnP isBlank).filter fun piece => !piece.isEmpty := by
  induction chars with
  | nil => rfl
  | cons c rest ih =>
    rw [splitWords, List.splitOnP_cons_eq_if_modifyHead]
    by_cases hc : isBlank c = true
    · rw [if_pos hc, if_pos hc, ih]
      rfl
    rw [if_neg hc, if_neg hc]
    cases rest with
    | nil => rfl
    | cons d more =>
      rw [ih, List.splitOnP_cons_eq_if_modifyHead]
      by_cases hd : isBlank d = true
      · simp [startsBlank, hd]
      · obtain ⟨piece, others, hpieces⟩ :=
          List.exists_cons_of_ne_nil (List.splitOnP_ne_nil isBlank more)
        simp [startsBlank, hd, hpieces, growFirst]

/-! ## Runs of blanks -/

/-- Each run of blanks becomes one space; `skipping` tells that the space of a run is written. -/
def collapse (skipping : Bool) : List Char → List Char
  | [] => []
  | c :: rest =>
    if isBlank c then
      if skipping then collapse true rest else ' ' :: collapse true rest
    else c :: collapse false rest

structure Flat (chars : List Char) : Prop where
  trimmed : Trimmed chars
  single : chars.IsChain fun c d => isBlank c = true → isBlank d = false
  space : ∀ c ∈ chars, isBlank c = true → c = ' '

theorem startsBlank_collapse (chars : List Char) :
    startsBlank (collapse false chars) = startsBlank chars := by
  cases chars with
  | nil => rfl
  | cons c rest =>
    rw [collapse]
    by_cases hc : isBlank c = true
    · simp [hc, startsBlank, isBlank_space]
    · simp [hc, startsBlank]

theorem splitWords_collapse (skipping : Bool) (chars : List Char) :
    splitWords (collapse skipping chars) = splitWords chars := by
  induction chars generalizing skipping with
  | nil => rfl
  | cons c rest ih =>
    rw [collapse, splitWords]
    by_cases hc : isBlank c = true
    · rw [if_pos hc, if_pos hc]
      cases skipping with
      | true => exact ih true
      | false => exact ih true
    · rw [if_neg hc, if_neg hc, splitWords, if_neg hc, startsBlank_collapse, ih]

theorem eq_space_of_mem_collapse {skipping : Bool} {chars : List Char} {c : Char}
    (hc : c ∈ collapse skipping chars) (hblank : isBlank c = true) : c = ' ' := by
  induction chars generalizing skipping with
  | nil => cases hc
  | cons d rest ih =>
    rw [collapse] at hc
    by_cases hd : isBlank d = true
    · rw [if_pos hd] at hc
      cases skipping with
      | true => exact ih hc
      | false => exact (List.mem_cons.mp hc).elim id ih
    · rw [if_neg hd] at hc
      rcases List.mem_cons.mp hc with rfl | hrest
      · exact absurd hblank hd
      · exact ih hrest

theorem first_collapse (chars : List Char) :
    ∀ c ∈ (collapse true chars).head?, isBlank c = false := by
  induction chars with
  | nil => simp [collapse]
  | cons d rest ih =>
    rw [collapse]
    by_cases hd : isBlank d = true
    · rw [if_pos hd]
      exact ih
    · rw [if_neg hd]
      simpa using hd

theorem isChain_collapse (skipping : Bool) (chars : List Char) :
    (collapse skipping chars).IsChain fun c d => isBlank c = true → isBlank d = false := by
  induction chars generalizing skipping with
  | nil => exact .nil
  | cons c rest ih =>
    rw [collapse]
    by_cases hc : isBlank c = true
    · rw [if_pos hc]
      cases skipping with
      | true => exact ih true
      | false => exact List.isChain_cons.mpr ⟨fun d hd _ => first_collapse rest d hd, ih true⟩
    · rw [if_neg hc]
      exact List.isChain_cons.mpr ⟨fun d _ hblank => absurd hblank hc, ih false⟩

theorem flat_collapse (chars : List Char) : Flat (trimChars (collapse false chars)) := by
  obtain ⟨lead, trail, -, -, hcut⟩ := trimChars_spec (collapse false chars)
  have hchain := isChain_collapse false chars
  rw [hcut] at hchain
  constructor
  · exact trimmed_trimChars _
  · exact hchain.left_of_append.right_of_append
  · intro c hc hblank
    have hmem : c ∈ collapse false chars := by
      rw [hcut]
      exact List.mem_append_left _ (List.mem_append_right _ hc)
    exact eq_space_of_mem_collapse hmem hblank

/-! ## Flat texts -/

theorem Flat.lead_eq_nil {lead rest : List Char} (h : Flat (lead ++ rest))
    (hlead : ∀ c ∈ lead, isBlank c = true) : lead = [] := by
  cases lead with
  | nil => rfl
  | cons c lead =>
    have hfirst := h.trimmed.first c rfl
    rw [hlead c List.mem_cons_self] at hfirst
    cases hfirst

theorem Flat.eq_nil {chars : List Char} (h : Flat chars) (hwords : splitWords chars = []) :
    chars = [] := by
  rw [← List.append_nil chars] at h
  exact h.lead_eq_nil (splitWords_eq_nil_iff.mp hwords)

/-- Behind a word of a flat text there is nothing, or one space and a flat text. -/
theorem Flat.rest {word rest : List Char} (h : Flat (word ++ rest))
    (hrest : startsBlank rest = true) :
    rest = [] ∨ ∃ more, rest = ' ' :: more ∧ more ≠ [] ∧ Flat more := by
  cases rest with
  | nil => exact Or.inl rfl
  | cons c more =>
    have hc : isBlank c = true := hrest
    obtain rfl : c = ' ' := h.space c (by simp) hc
    have hsuffix : ' ' :: more <:+ word ++ ' ' :: more := List.suffix_append _ _
    have hchain := h.single.suffix hsuffix
    obtain ⟨hfirst, hsingle⟩ := List.isChain_cons.mp hchain
    have hlast : ∀ d, (' ' :: more).getLast? = some d → isBlank d = false := by
      intro d hd
      exact h.trimmed.last d (by rw [List.getLast?_append, hd]; rfl)
    right
    refine ⟨more, rfl, ?_, ⟨fun d hd => hfirst d hd hc, ?_⟩, hsingle, ?_⟩
    · rintro rfl
      exact absurd (hlast ' ' rfl) (by simp [isBlank_space])
    · intro d hd
      exact hlast d (by rw [List.getLast?_cons, hd]; rfl)
    · intro d hd
      exact h.space d (hsuffix.subset (List.mem_cons_of_mem _ hd))

theorem Flat.eq_intercalate {chars : List Char} (h : Flat chars) :
    chars = [' '].intercalate (splitWords chars) := by
  generalize hwords : splitWords chars = found
  induction found generalizing chars with
  | nil =>
    rw [h.eq_nil hwords]
    rfl
  | cons word others ih =>
    obtain ⟨lead, rest, rfl, hlead, hstarts, hothers⟩ := exists_first_word hwords
    obtain rfl := h.lead_eq_nil hlead
    rw [List.nil_append] at h ⊢
    rcases h.rest hstarts with rfl | ⟨more, rfl, hmore, hflat⟩
    · obtain rfl : others = [] := hothers.symm
      simp
    · rw [splitWords, if_pos isBlank_space] at hothers
      have hmany : others ≠ [] := by
        rintro rfl
        exact hmore (hflat.eq_nil hothers)
      obtain ⟨next, last, rfl⟩ := List.exists_cons_of_ne_nil hmany
      rw [List.intercalate_cons_cons, ← ih hflat hothers]
      simp

/-! ## Both ways of splitting -/

theorem splitOn_intercalate_solid {found : List (List Char)} (h : ∀ word ∈ found, Solid word) :
    (([' '].intercalate found).splitOn ' ').filter (fun piece => !piece.isEmpty) = found := by
  cases found with
  | nil => rfl
  | cons word others =>
    have hspace : ∀ part ∈ word :: others, ' ' ∉ part := by
      intro part hpart hmem
      have hfilled := (h part hpart).filled ' ' hmem
      rw [isBlank_space] at hfilled
      cases hfilled
    rw [List.splitOn_intercalate ' ' hspace (List.cons_ne_nil _ _), List.filter_eq_self]
    intro part hpart
    simpa using (h part hpart).ne_nil

section Parts

variable (parts : List String)

def joined : List Char := (" ".intercalate parts).toList

theorem splitWords_joined :
    splitWords (joined parts) = (wordsOfParts parts).map String.toList := by
  rw [joined, ← map_toList_words, words_intercalate]

theorem toList_flatten :
    (flatten parts).toList = [' '].intercalate (splitWords (joined parts)) := by
  rw [flatten, String.toList_intercalate, splitWords_joined]
  rfl

theorem trimChars_collapse_joined :
    trimChars (collapse false (joined parts)) = (flatten parts).toList := by
  have hflat := (flat_collapse (joined parts)).eq_intercalate
  rw [splitWords_trimChars, splitWords_collapse] at hflat
  rw [hflat, toList_flatten]

theorem wordsOfParts_flatten : wordsOfParts [flatten parts] = wordsOfParts parts := by
  rw [wordsOfParts, List.flatMap_singleton, words_flatten]

/-- The words of the parts are the words of the joined text, and they are found as well by
collapsing its blanks, trimming it and splitting at spaces. The flat text of the parts is that
collapsed text; it has no blanks but single spaces between words, and it can be split, or made flat,
again. -/
theorem parts_split_as_joined :
    let flat := trimChars (collapse false (joined parts))
    (wordsOfParts parts).map String.toList =
        ((joined parts).splitOnP isBlank).filter (fun piece => !piece.isEmpty) ∧
      (wordsOfParts parts).map String.toList =
        (flat.splitOn ' ').filter (fun piece => !piece.isEmpty) ∧
      (flatten parts).toList = flat ∧ Flat (flatten parts).toList ∧
      wordsOfParts [flatten parts] = wordsOfParts parts ∧
      flatten [flatten parts] = flatten parts := by
  intro flat
  have hflat : flat = (flatten parts).toList := trimChars_collapse_joined parts
  refine ⟨?_, ?_, hflat.symm, ?_, wordsOfParts_flatten parts, ?_⟩
  · rw [← splitWords_eq_splitOnP, splitWords_joined]
  · rw [hflat, toList_flatten, splitWords_joined, splitOn_intercalate_solid]
    rw [← splitWords_joined]
    intro word hword
    exact solid_of_mem_splitWords hword
  · rw [← hflat]
    exact flat_collapse (joined parts)
  · rw [flatten, wordsOfParts_flatten, ← flatten]

example : flatten ["  a \t b", "", "c  "] = "a b c" := by decide

end Parts

end RecordConsole.Text
