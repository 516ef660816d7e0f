import RecordConsole.Proofs.Json.Inspection

/-! Printed text with its layout taken out. Spaces and line breaks outside strings are all that the
indented form adds to the compact one, and both are read back as the value they were printed
from. -/
namespace RecordConsole.Json

/-- The text without the spaces and line breaks outside its strings; `quoted` tells that it goes on
inside a string. A backslash there takes the next character along, whatever it is. -/
def squeeze : Bool → List Char → List Char
  | _, [] => []
  | false, c :: rest =>
    if c = ' ' ∨ c = '\n' then squeeze false rest else c :: squeeze (c == '"') rest
  | true, '\\' :: c :: rest => '\\' :: c :: squeeze true rest
  | true, c :: rest => c :: squeeze (c != '"') rest

/-- Without its layout the first text is the second one, whatever follows it outside strings. -/
def SqueezesTo (cs tight : List Char) : Prop :=
  ∀ rest, squeeze false (cs ++ rest) = tight ++ squeeze false rest

abbrev Plain (c : Char) : Prop := c ≠ ' ' ∧ c ≠ '\n' ∧ c ≠ '"'

theorem SqueezesTo.append {cs tight others tightOthers : List Char} (h : SqueezesTo cs tight)
    (hothers : SqueezesTo others tightOthers) :
    SqueezesTo (cs ++ others) (tight ++ tightOthers) := by
  intro rest
  rw [List.append_assoc, h, hothers, List.append_assoc]

theorem SqueezesTo.cons {c : Char} (hc : Plain c) {cs tight : List Char} (h : SqueezesTo cs tight) :
    SqueezesTo (c :: cs) (c :: tight) := by
  intro rest
  obtain ⟨hspace, hbreak, hquote⟩ := hc
  rw [List.cons_append, squeeze, if_neg (not_or.mpr ⟨hspace, hbreak⟩), beq_false_of_ne hquote, h,
    List.cons_append]

theorem squeezesTo_nil : SqueezesTo [] [] := fun _ => rfl

theorem squeezesTo_plain {cs : List Char} (h : ∀ c ∈ cs, Plain c) : SqueezesTo cs cs := by
  induction cs with
  | nil => exact squeezesTo_nil
  | cons c cs ih =>
    exact .cons (h c List.mem_cons_self) (ih fun d hd => h d (List.mem_cons_of_mem _ hd))

theorem squeezesTo_blank {cs : List Char} (h : Blank cs) : SqueezesTo cs [] := by
  induction cs with
  | nil => exact squeezesTo_nil
  | cons c cs ih =>
    intro rest
    rw [List.cons_append, squeeze, if_pos (h c List.mem_cons_self)]
    exact ih (fun d hd => h d (List.mem_cons_of_mem _ hd)) rest

/-! ## Strings -/

theorem ne_of_hexDigit : ∀ n < 16, hexDigit n ≠ '"' ∧ hexDigit n ≠ '\\' := by decide

theorem squeeze_inside {c : Char} (hquote : c ≠ '"') (hslash : c ≠ '\\') (rest : List Char) :
    squeeze true (c :: rest) = c :: squeeze true rest := by
  have hgoes : (c != '"') = true := bne_iff_ne.mpr hquote
  rw [squeeze, hgoes]
  intro _ _ hc
  exact absurd hc hslash

theorem squeeze_escape (c : Char) (rest : List Char) :
    squeeze true (escape c ++ rest) = escape c ++ squeeze true rest := by
  unfold escape
  split
  · rfl
  rename_i hquote
  split
  · rfl
  rename_i hslash
  split
  · rfl
  split
  · rfl
  split
  · rfl
  split
  · rfl
  split
  · rfl
  split
  · obtain ⟨hquote, hslash⟩ := ne_of_hexDigit (c.toNat / 16) (by omega)
    obtain ⟨hquote', hslash'⟩ := ne_of_hexDigit (c.toNat % 16) (by omega)
    simp [squeeze, squeeze_inside, hquote, hslash, hquote', hslash']
  · exact squeeze_inside hquote hslash rest

theorem squeezesTo_string (text : String) : SqueezesTo (spellString text) (spellString text) := by
  intro rest
  have hescapes (cs : List Char) : squeeze true (cs.flatMap escape ++ '"' :: rest) =
      cs.flatMap escape ++ '"' :: squeeze false rest := by
    induction cs with
    | nil => simp [squeeze]
    | cons c cs ih =>
      rw [List.flatMap_cons, List.append_assoc, squeeze_escape, ih, List.append_assoc]
  have hopen : squeeze false ('"' :: (text.toList.flatMap escape ++ '"' :: rest)) =
      '"' :: squeeze true (text.toList.flatMap escape ++ '"' :: rest) := rfl
  rw [spellString, List.cons_append, List.append_assoc, List.singleton_append, hopen, hescapes]
  simp

/-! ## Values -/

theorem plain_numberChar {c : Char} (h : Decimal.NumberChar c) : Plain c := by
  refine ⟨?_, ?_, ?_⟩ <;> rintro rfl <;> exact absurd h (by decide)

section Values

variable (spacing : Spacing)

theorem squeezesTo_before (margin other : Nat) :
    SqueezesTo (spacing.before margin) (Spacing.none.before other) :=
  squeezesTo_blank (spacing.blank_before margin)

theorem squeezesTo_colon :
    SqueezesTo (':' :: spacing.afterColon) (':' :: Spacing.none.afterColon) :=
  .cons (by decide) (squeezesTo_blank spacing.blank_afterColon)

/-- However the value is spelled, without its layout it is the compact spelling. -/
def Squeezes (v : Json) : Prop :=
  ∀ margin other, SqueezesTo (spell spacing margin v) (spell .none other v)

variable {spacing}

theorem squeezesTo_items {items : List Json} (h : ∀ v ∈ items, Squeezes spacing v)
    (margin other : Nat) :
    SqueezesTo (spellItems spacing margin items) (spellItems .none other items) := by
  induction items with
  | nil =>
    rw [spellItems, spellItems]
    exact squeezesTo_nil
  | cons v rest ih =>
    obtain ⟨hv, hrest⟩ := List.forall_mem_cons.mp h
    have hbefore := squeezesTo_before spacing margin other
    rw [spellItems, spellItems]
    exact .cons (by decide) ((hbefore.append (hv margin other)).append (ih hrest))

theorem squeezesTo_entry (key : String) {v : Json} (hv : Squeezes spacing v) (margin other : Nat) :
    SqueezesTo
      (spacing.before margin ++ spellString key ++ ':' :: spacing.afterColon
        ++ spell spacing margin v)
      (Spacing.none.before other ++ spellString key ++ ':' :: Spacing.none.afterColon
        ++ spell .none other v) := by
  have hbefore := squeezesTo_before spacing margin other
  have hlabel := (hbefore.append (squeezesTo_string key)).append (squeezesTo_colon spacing)
  exact hlabel.append (hv margin other)

theorem squeezesTo_entries {entries : List (String × Json)}
    (h : ∀ entry ∈ entries, Squeezes spacing entry.2) (margin other : Nat) :
    SqueezesTo (spellEntries spacing margin entries) (spellEntries .none other entries) := by
  induction entries with
  | nil =>
    rw [spellEntries, spellEntries]
    exact squeezesTo_nil
  | cons entry rest ih =>
    obtain ⟨key, v⟩ := entry
    obtain ⟨hv, hrest⟩ := List.forall_mem_cons.mp h
    rw [spellEntries, spellEntries]
    exact .cons (by decide) ((squeezesTo_entry key hv margin other).append (ih hrest))

theorem squeezes_array {items : List Json} (h : ∀ v ∈ items, Squeezes spacing v) :
    Squeezes spacing (.array items) := by
  intro margin other
  cases items with
  | nil =>
    rw [spell, spell]
    exact squeezesTo_plain (by simp [Plain])
  | cons v rest =>
    obtain ⟨hv, hrest⟩ := List.forall_mem_cons.mp h
    have hfirst := (squeezesTo_before spacing (margin + spacing.width) (other + 0)).append
      (hv (margin + spacing.width) (other + 0))
    have hitems := hfirst.append (squeezesTo_items hrest (margin + spacing.width) (other + 0))
    have hclose : SqueezesTo [']'] [']'] := squeezesTo_plain (by simp [Plain])
    rw [spell, spell]
    exact .cons (by decide) ((hitems.append (squeezesTo_before spacing margin other)).append hclose)

theorem squeezes_object {entries : List (String × Json)}
    (h : ∀ entry ∈ entries, Squeezes spacing entry.2) : Squeezes spacing (.object entries) := by
  intro margin other
  cases entries with
  | nil =>
    rw [spell, spell]
    exact squeezesTo_plain (by simp [Plain])
  | cons entry rest =>
    obtain ⟨key, v⟩ := entry
    obtain ⟨hv, hrest⟩ := List.forall_mem_cons.mp h
    have hfirst := squeezesTo_entry key hv (margin + spacing.width) (other + 0)
    have hentries := hfirst.append (squeezesTo_entries hrest (margin + spacing.width) (other + 0))
    have hclose : SqueezesTo ['\x7d'] ['\x7d'] := squeezesTo_plain (by simp [Plain])
    rw [spell, spell]
    exact .cons (by decide)
      ((hentries.append (squeezesTo_before spacing margin other)).append hclose)

theorem squeezes (v : Json) : Squeezes spacing v := by
  induction v using parts_induction with
  | null =>
    intro margin other
    rw [spell, spell]
    exact squeezesTo_plain (by simp [Plain])
  | bool b =>
    intro margin other
    cases b with
    | true =>
      rw [spell, spell]
      exact squeezesTo_plain (by simp [Plain])
    | false =>
      rw [spell, spell]
      exact squeezesTo_plain (by simp [Plain])
  | number n =>
    intro margin other
    rw [spell, spell]
    exact squeezesTo_plain fun c hc => plain_numberChar (Number.numberChar_text n c hc)
  | string text =>
    intro margin other
    rw [spell, spell]
    exact squeezesTo_string text
  | array items ih => exact squeezes_array ih
  | object entries ih => exact squeezes_object ih

end Values

theorem exists_spell (indent : Nat) (v : Json) :
    ∃ spacing, (v.text indent).toList = spell spacing 0 v := by
  by_cases hindent : indent = 0
  · exact ⟨.none, by rw [text, if_pos hindent, toList_compact 0]⟩
  · exact ⟨.lines indent, by rw [text, if_neg hindent, toList_indented]⟩

/-- Both forms are one text up to layout, for any value and any indent: without the spaces and line
breaks outside its strings, indented text is the compact text. A value without floating-point
numbers is read back from it, its entries in their order, exactly if the value does not nest deeper
than values are read. -/
theorem text_lossless (v : Json) (indent : Nat) :
    squeeze false (v.text indent).toList = (v.text 0).toList ∧
      (v.Integral → v.Keyed → (readText (v.text indent) = .ok v ↔ v.depth ≤ 127)) := by
  obtain ⟨spacing, htext⟩ := exists_spell indent v
  constructor
  · have hsqueeze := @squeezes spacing v 0 0 []
    rw [List.append_nil, ← htext] at hsqueeze
    rw [hsqueeze, text, if_pos rfl, toList_compact 0]
    simp [squeeze]
  · intro hintegral hkeyed
    constructor
    · intro hread
      by_contra hdepth
      obtain ⟨e, -, hfail⟩ :=
        readText_spell_deep htext hintegral hkeyed (Nat.lt_of_not_le hdepth)
      rw [hread] at hfail
      cases hfail
    · exact readText_spell htext hintegral hkeyed

theorem text_lossless_strings :
    let v : Json := .object [("a b", .array [.string "\" ,\n", .object []]),
      ("c", .number (.integer (-7) (by decide)))]
    v.Integral ∧ v.Keyed ∧ v.depth ≤ 127 ∧ readText (v.text 3) = .ok v ∧
      squeeze false (v.text 3).toList = (v.text 0).toList ∧
      v.text 0 = "\x7b\"a b\":[\"\\\" ,\\n\",\x7b\x7d],\"c\":-7\x7d" := by
  intro v
  obtain ⟨hsqueeze, hread⟩ := text_lossless v 3
  have hintegral : v.Integral := ⟨⟨trivial, trivial, trivial⟩, trivial, trivial⟩
  have hkeyed : v.Keyed := ⟨by simp, ⟨trivial, ⟨by simp, trivial⟩, trivial⟩, trivial, trivial⟩
  have hdepth : v.depth ≤ 127 := by decide
  exact ⟨hintegral, hkeyed, hdepth, (hread hintegral hkeyed).mpr hdepth, hsqueeze, rfl⟩

end RecordConsole.Json
