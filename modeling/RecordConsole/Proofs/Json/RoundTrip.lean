import RecordConsole.Proofs.Json.Room
import RecordConsole.Proofs.Json.Spelling
import RecordConsole.Proofs.Json.Tokens

/-! Values read back from any of their spellings, whatever text follows, if there is room for
them. -/
namespace RecordConsole.Json

theorem ofDigits_natAbs {n : Int} (fits : FitsWord n) :
    Number.ofDigits (n < 0) n.natAbs = .integer n fits := by
  by_cases hn : n < 0
  · have hzero : n.natAbs ≠ 0 := by omega
    have habs : (-n.natAbs : Int) = n := by omega
    unfold Number.ofDigits
    simp only [hn, decide_true, Bool.true_and, beq_iff_eq, hzero, if_false, if_true, habs]
    exact dif_pos fits
  · have habs : (n.natAbs : Int) = n := by omega
    unfold Number.ofDigits
    simp only [hn, decide_false, Bool.false_and, habs]
    exact dif_pos fits

theorem Integral.ne_float {v : Json} (h : v.Integral) (negative : Bool)
    (magnitude : Decimal.Binary64) : v ≠ .number (.float negative magnitude) := by
  rintro rfl
  exact h

namespace Reader

open Text (encode byte)

theorem skipBlank_encode {cs : List Char} (h : Blank cs) (s : List UInt8) :
    skipBlank (encode cs ++ s) = skipBlank s := by
  induction cs with
  | nil => rfl
  | cons c cs ih =>
    have hrest := ih fun d hd => h d (List.mem_cons_of_mem _ hd)
    rcases h c List.mem_cons_self with rfl | rfl
    · rw [Text.encode_cons_ascii (by decide)]
      exact hrest
    · rw [Text.encode_cons_ascii (by decide)]
      exact hrest

theorem skipBlank_of_isDigit {b : UInt8} (h : isDigit b = true) (s : List UInt8) :
    skipBlank (b :: s) = b :: s := by
  have hlow := (Char.isDigit_iff_toNat.mp h).1
  rw [toNat_ascii] at hlow
  have hne : ∀ blank : UInt8, blank.toNat < '0'.toNat → b ≠ blank := by
    rintro blank hblank rfl
    omega
  have hblank : (b == 0x20 || b == 0x0A || b == 0x09 || b == 0x0D) = false := by
    simp [hne 0x20 (by decide), hne 0x0A (by decide), hne 0x09 (by decide), hne 0x0D (by decide)]
  rw [skipBlank, List.dropWhile_cons_of_neg (by rw [hblank]; decide)]

theorem ends_cons {c : Char} (hc : c.toNat < 128)
    (h : (c.isDigit || c == '.' || c == 'e' || c == 'E') = false) (s : List UInt8) :
    Ends (byte c :: s) := by
  rintro b rest heq
  cases heq
  simp only [Bool.or_eq_false_iff, beq_eq_false_iff_ne] at h
  obtain ⟨⟨⟨hdigit, hpoint⟩, hsmall⟩, hlarge⟩ := h
  simp [isDigit, isExponentMark, ascii_byte hc, hdigit, hpoint, hsmall, hlarge]

theorem ends_encode {cs : List Char} (h : Blank cs) {s : List UInt8} (hs : Ends s) :
    Ends (encode cs ++ s) := by
  cases cs with
  | nil => exact hs
  | cons c cs =>
    rcases h c List.mem_cons_self with rfl | rfl
    · rw [Text.encode_cons_ascii (by decide)]
      exact ends_cons (by decide) (by decide) _
    · rw [Text.encode_cons_ascii (by decide)]
      exact ends_cons (by decide) (by decide) _

/-! ## How spelled values begin -/

/-- A first character of a value: the reader neither skips it nor takes it for the end of a list. -/
structure Opens (c : Char) : Prop where
  ascii : c.toNat < 128
  kept : ∀ s, skipBlank (byte c :: s) = byte c :: s
  item : c ≠ ']'

theorem opens_of_isDigit {c : Char} (h : c.isDigit = true) : Opens c where
  ascii := toNat_lt_of_isDigit h
  kept := skipBlank_of_isDigit (isDigit_byte h)
  item := by
    rintro rfl
    exact absurd h (by decide)

theorem toList_text_integer {n : Int} (fits : FitsWord n) :
    (Number.integer n fits).text.toList =
      if n < 0 then '-' :: Nat.toDigits 10 n.natAbs else Nat.toDigits 10 n.natAbs := by
  rw [Number.text]
  split
  · rw [String.toList_append, Nat.toString_eq_repr, Nat.toList_repr]
    rfl
  · rw [Nat.toString_eq_repr, Nat.toList_repr]

theorem spell_eq_cons (spacing : Spacing) (margin : Nat) {v : Json}
    (hv : ∀ negative magnitude, v ≠ .number (.float negative magnitude)) :
    ∃ c cs, spell spacing margin v = c :: cs ∧ Opens c := by
  cases v with
  | null => exact ⟨'n', _, by rw [spell], by decide, fun _ => rfl, by decide⟩
  | bool b =>
    cases b with
    | true => exact ⟨'t', _, by rw [spell], by decide, fun _ => rfl, by decide⟩
    | false => exact ⟨'f', _, by rw [spell], by decide, fun _ => rfl, by decide⟩
  | number n =>
    cases n with
    | integer n fits =>
      rw [spell, toList_text_integer]
      split
      · exact ⟨'-', _, rfl, by decide, fun _ => rfl, by decide⟩
      · obtain ⟨c, cs, hcs, hc, -⟩ := toDigits_eq_cons n.natAbs
        exact ⟨c, cs, hcs, opens_of_isDigit hc⟩
    | float negative magnitude => exact absurd rfl (hv negative magnitude)
  | string text => exact ⟨'"', _, by rw [spell, spellString], by decide, fun _ => rfl, by decide⟩
  | array items =>
    cases items with
    | nil => exact ⟨'[', _, by rw [spell], by decide, fun _ => rfl, by decide⟩
    | cons v rest => exact ⟨'[', _, by rw [spell], by decide, fun _ => rfl, by decide⟩
  | object entries =>
    cases entries with
    | nil => exact ⟨'\x7b', _, by rw [spell], by decide, fun _ => rfl, by decide⟩
    | cons entry rest =>
      exact ⟨'\x7b', _, by rw [spell], by decide, fun _ => rfl, by decide⟩

/-! ## Values without parts -/

theorem value_of_isDigit {c : Char} (hc : c.isDigit = true) (fuel room : Nat) (s : List UInt8) :
    value (fuel + 1) room (byte c :: s) =
      andThen (number false (byte c :: s)) fun n s => .ok (.number n, s) := by
  simp only [value, skipBlank_of_isDigit (isDigit_byte hc), ascii_byte (toNat_lt_of_isDigit hc)]
  split
  all_goals first | exact absurd hc (by decide) | exact if_pos (isDigit_byte hc)

theorem value_minus (fuel room : Nat) (s : List UInt8) :
    value (fuel + 1) room (byte '-' :: s) =
      andThen (number true s) fun n s => .ok (.number n, s) := rfl

theorem value_quote (fuel room : Nat) (s : List UInt8) :
    value (fuel + 1) room (byte '"' :: s) =
      andThen (stringRest fuel [] s) fun text s => .ok (.string text, s) := rfl

theorem value_integer {n : Int} (fits : FitsWord n) (fuel room : Nat) {s : List UInt8}
    (hs : Ends s) :
    value (fuel + 1) room (encode (Number.integer n fits).text.toList ++ s) =
      .ok (.number (.integer n fits), s) := by
  have hword : n.natAbs < Text.wordLimit := by
    have := fits
    simp only [FitsWord, Text.wordLimit] at this ⊢
    omega
  have hread := ofDigits_natAbs fits
  rw [toList_text_integer]
  by_cases hn : n < 0
  · rw [if_pos hn, Text.encode_cons_ascii (by decide), List.cons_append, value_minus,
      number_encode true hword hs, ← hread, decide_eq_true hn]
    rfl
  · obtain ⟨c, cs, hcs, hc, -⟩ := toDigits_eq_cons n.natAbs
    have hnumber := number_encode false hword hs
    rw [hcs, Text.encode_cons_ascii (toNat_lt_of_isDigit hc), List.cons_append] at hnumber
    rw [if_neg hn, hcs, Text.encode_cons_ascii (toNat_lt_of_isDigit hc), List.cons_append,
      value_of_isDigit hc, hnumber, ← hread, decide_eq_false hn]
    rfl

theorem encode_spellString (text : String) :
    encode (spellString text) = byte '"' :: encode (text.toList.flatMap escape ++ ['"']) := by
  rw [spellString, Text.encode_cons_ascii (by decide)]

theorem length_spellString_pos (text : String) : 0 < (encode (spellString text)).length := by
  rw [encode_spellString, List.length_cons]
  exact Nat.succ_pos _

theorem stringRest_spelled (text : String) {fuel : Nat}
    (hfuel : (encode (spellString text)).length ≤ fuel) (s : List UInt8) :
    stringRest fuel [] (encode (text.toList.flatMap escape ++ ['"']) ++ s) = .ok (text, s) := by
  rw [encode_spellString, Text.encode_append, List.length_cons, List.length_append] at hfuel
  have hread := @stringRest_escaped text.toList [] fuel (by omega) s
  rwa [List.nil_append, String.ofList_toList] at hread

theorem value_string (text : String) {fuel : Nat} (room : Nat) (s : List UInt8)
    (hfuel : (encode (spellString text)).length ≤ fuel) :
    value (fuel + 1) room (encode (spellString text) ++ s) = .ok (.string text, s) := by
  rw [encode_spellString, List.cons_append, value_quote, stringRest_spelled text hfuel]
  rfl

/-! ## Containers -/

theorem elements_last {fuel room : Nat} {s rest close : List UInt8} {v : Json}
    (hv : value fuel room s = .ok (v, close)) (hclose : skipBlank close = byte ']' :: rest) :
    elements (fuel + 1) room s = .ok ([v], rest) := by
  simp only [elements, hv, andThen, hclose, ascii_byte (show ']'.toNat < 128 by decide)]

theorem elements_more {fuel room : Nat} {s more left : List UInt8} {v : Json} {c : Char}
    (hv : value fuel room s = .ok (v, byte ',' :: more)) (hmore : skipBlank more = byte c :: left)
    (hc : Opens c) :
    elements (fuel + 1) room s =
      andThen (elements fuel room (byte c :: left)) fun others s => .ok (v :: others, s) := by
  have hcomma : skipBlank (byte ',' :: more) = byte ',' :: more := rfl
  rw [elements, hv]
  simp only [andThen, hcomma, ascii_byte (show ','.toNat < 128 by decide), hmore,
    ascii_byte hc.ascii, hc.item, if_false]

theorem value_array {fuel room : Nat} {s left : List UInt8} {c : Char}
    (hs : skipBlank s = byte c :: left) (hc : Opens c) :
    value (fuel + 1) (room + 1) (byte '[' :: s) =
      andThen (elements fuel room (byte c :: left)) fun items s => .ok (.array items, s) := by
  have hbracket : skipBlank (byte '[' :: s) = byte '[' :: s := rfl
  simp only [value, hbracket, ascii_byte (show '['.toNat < 128 by decide), hs,
    ascii_byte hc.ascii, hc.item, if_false]

theorem members_last {fuel room : Nat} {s afterKey afterColon close rest : List UInt8}
    {key : String} {v : Json} (hkey : stringRest fuel [] s = .ok (key, afterKey))
    (hcolon : colon afterKey = .ok ((), afterColon))
    (hv : value fuel room afterColon = .ok (v, close))
    (hclose : skipBlank close = byte '\x7d' :: rest) :
    members (fuel + 1) room s = .ok ([(key, v)], rest) := by
  simp only [members, hkey, hcolon, hv, andThen, hclose,
    ascii_byte (show '\x7d'.toNat < 128 by decide)]

theorem members_more {fuel room : Nat} {s afterKey afterColon more left : List UInt8}
    {key : String} {v : Json} (hkey : stringRest fuel [] s = .ok (key, afterKey))
    (hcolon : colon afterKey = .ok ((), afterColon))
    (hv : value fuel room afterColon = .ok (v, byte ',' :: more))
    (hmore : skipBlank more = byte '"' :: left) :
    members (fuel + 1) room s =
      andThen (members fuel room left) fun others s => .ok ((key, v) :: others, s) := by
  have hcomma : skipBlank (byte ',' :: more) = byte ',' :: more := rfl
  rw [members, hkey]
  simp only [andThen, hcolon, hv, hcomma, ascii_byte (show ','.toNat < 128 by decide), hmore,
    ascii_byte (show '"'.toNat < 128 by decide)]

theorem value_object {fuel room : Nat} {s left : List UInt8} (hs : skipBlank s = byte '"' :: left) :
    value (fuel + 1) (room + 1) (byte '\x7b' :: s) =
      andThen (members fuel room left) fun pairs s => .ok (.object (entriesOf pairs), s) := by
  have hbrace : skipBlank (byte '\x7b' :: s) = byte '\x7b' :: s := rfl
  have hquote : ¬ '"' = '\x7d' := by decide
  simp only [value, hbrace, ascii_byte (show '\x7b'.toNat < 128 by decide), hs,
    ascii_byte (show '"'.toNat < 128 by decide), hquote, if_false, if_true]

/-- The value is read back from each of its spellings, given room for it and fuel for its bytes. -/
structure ReadsBack (spacing : Spacing) (v : Json) : Prop where
  opens : ∀ margin, ∃ c cs, spell spacing margin v = c :: cs ∧ Opens c
  reads : ∀ (margin fuel : Nat) {room s}, v.depth ≤ room →
    2 * (encode (spell spacing margin v)).length ≤ fuel → Ends s →
      value fuel room (encode (spell spacing margin v) ++ s) = .ok (v, s)

theorem readsBack_of {spacing : Spacing} {v : Json} (hv : v.Integral)
    (h : ∀ (margin fuel : Nat) {room : Nat} {s : List UInt8}, v.depth ≤ room →
      2 * (encode (spell spacing margin v)).length ≤ fuel + 1 → Ends s →
        value (fuel + 1) room (encode (spell spacing margin v) ++ s) = .ok (v, s)) :
    ReadsBack spacing v where
  opens margin := spell_eq_cons spacing margin hv.ne_float
  reads margin fuel room s hroom hfuel hs := by
    obtain ⟨c, cs, hcs, hc⟩ := spell_eq_cons spacing margin hv.ne_float
    have hpos : 0 < (encode (spell spacing margin v)).length := by
      rw [hcs, Text.encode_cons_ascii hc.ascii, List.length_cons]
      exact Nat.succ_pos _
    obtain ⟨left, rfl⟩ := Nat.exists_eq_succ_of_ne_zero (by omega : fuel ≠ 0)
    exact h margin left hroom hfuel hs

theorem ends_comma (s : List UInt8) : Ends (byte ',' :: s) := ends_cons (by decide) (by decide) s

theorem ends_bracket (s : List UInt8) : Ends (byte ']' :: s) := ends_cons (by decide) (by decide) s

theorem ends_brace (s : List UInt8) : Ends (byte '\x7d' :: s) :=
  ends_cons (by decide) (by decide) s

theorem skipBlank_opens {before cs : List Char} {c : Char} (hbefore : Blank before) (hc : Opens c)
    (s : List UInt8) :
    skipBlank (encode before ++ (encode (c :: cs) ++ s)) = byte c :: (encode cs ++ s) := by
  rw [skipBlank_encode hbefore, Text.encode_cons_ascii hc.ascii, List.cons_append, hc.kept]

theorem skipBlank_spellString {before : List Char} (hbefore : Blank before) (text : String)
    (s : List UInt8) :
    skipBlank (encode before ++ (encode (spellString text) ++ s)) =
      byte '"' :: (encode (text.toList.flatMap escape ++ ['"']) ++ s) := by
  rw [skipBlank_encode hbefore, encode_spellString]
  rfl

theorem value_blank {cs : List Char} (h : Blank cs) (fuel room : Nat) (s : List UInt8) :
    value (fuel + 1) room (encode cs ++ s) = value (fuel + 1) room s := by
  simp only [value, skipBlank_encode h]

theorem colon_byte (s : List UInt8) : colon (byte ':' :: s) = .ok ((), s) := rfl

section Bytes

variable (spacing : Spacing) (margin : Nat)

theorem encode_spellItems (v : Json) (rest : List Json) :
    encode (spellItems spacing margin (v :: rest)) =
      byte ',' :: (encode (spacing.before margin) ++ (encode (spell spacing margin v) ++
        encode (spellItems spacing margin rest))) := by
  rw [spellItems, Text.encode_cons_ascii (by decide), Text.encode_append, Text.encode_append,
    List.append_assoc]

theorem encode_spellEntries (key : String) (v : Json) (rest : List (String × Json)) :
    encode (spellEntries spacing margin ((key, v) :: rest)) =
      byte ',' :: (encode (spacing.before margin) ++ (encode (spellString key) ++
        byte ':' :: (encode spacing.afterColon ++ (encode (spell spacing margin v) ++
          encode (spellEntries spacing margin rest))))) := by
  rw [spellEntries, Text.encode_cons_ascii (by decide)]
  simp only [Text.encode_append, Text.encode_cons_ascii (show ':'.toNat < 128 by decide),
    List.append_assoc, List.cons_append]

theorem encode_spell_array (v : Json) (rest : List Json) :
    encode (spell spacing margin (.array (v :: rest))) =
      byte '[' :: (encode (spacing.before (margin + spacing.width)) ++
        (encode (spell spacing (margin + spacing.width) v) ++
          (encode (spellItems spacing (margin + spacing.width) rest) ++
            (encode (spacing.before margin) ++ [byte ']'])))) := by
  rw [spell, Text.encode_cons_ascii (by decide)]
  simp only [Text.encode_append, Text.encode_cons_ascii (show ']'.toNat < 128 by decide),
    Text.encode_nil, List.append_assoc]

theorem encode_spell_object (key : String) (v : Json) (rest : List (String × Json)) :
    encode (spell spacing margin (.object ((key, v) :: rest))) =
      byte '\x7b' :: (encode (spacing.before (margin + spacing.width)) ++
        (encode (spellString key) ++ byte ':' :: (encode spacing.afterColon ++
          (encode (spell spacing (margin + spacing.width) v) ++
            (encode (spellEntries spacing (margin + spacing.width) rest) ++
              (encode (spacing.before margin) ++ [byte '\x7d'])))))) := by
  rw [spell, Text.encode_cons_ascii (by decide)]
  simp only [Text.encode_append, Text.encode_cons_ascii (show ':'.toNat < 128 by decide),
    Text.encode_cons_ascii (show '\x7d'.toNat < 128 by decide), Text.encode_nil,
    List.append_assoc, List.cons_append]

end Bytes

section Containers

variable {spacing : Spacing} {close : List Char} (hclose : Blank close) (margin : Nat)

include hclose

theorem elements_spell {v : Json} (hv : ReadsBack spacing v) {rest : List Json}
    (hrest : ∀ w ∈ rest, ReadsBack spacing w) {fuel room : Nat}
    (hroom : depthItems (v :: rest) ≤ room)
    (hfuel : 2 * ((encode (spell spacing margin v)).length +
      (encode (spellItems spacing margin rest)).length) < fuel) (s : List UInt8) :
    elements fuel room (encode (spell spacing margin v) ++
        (encode (spellItems spacing margin rest) ++ (encode close ++ byte ']' :: s))) =
      .ok (v :: rest, s) := by
  obtain ⟨fuel, rfl⟩ := Nat.exists_eq_succ_of_ne_zero (by omega : fuel ≠ 0)
  obtain ⟨hdepth, hdepths⟩ := Nat.max_le.mp hroom
  induction rest generalizing v fuel with
  | nil =>
    have hread := hv.reads margin fuel hdepth (by omega) (ends_encode hclose (ends_bracket s))
    exact elements_last hread (skipBlank_encode hclose _)
  | cons w rest ih =>
    obtain ⟨hw, hrest⟩ := List.forall_mem_cons.mp hrest
    obtain ⟨c, cs, hcs, hc⟩ := hw.opens margin
    rw [encode_spellItems]
    simp only [encode_spellItems, List.length_cons, List.length_append] at hfuel
    simp only [List.cons_append, List.append_assoc]
    obtain ⟨left, rfl⟩ := Nat.exists_eq_succ_of_ne_zero (by omega : fuel ≠ 0)
    have hothers := ih hw hrest hdepths left (by omega) (Nat.max_le.mp hdepths).1
      (Nat.max_le.mp hdepths).2
    have hread := hv.reads margin (left + 1) hdepth (by omega)
      (ends_comma (encode (spacing.before margin) ++ (encode (spell spacing margin w) ++
        (encode (spellItems spacing margin rest) ++ (encode close ++ byte ']' :: s)))))
    rw [hcs] at hread hothers ⊢
    rw [Text.encode_cons_ascii hc.ascii, List.cons_append] at hothers
    rw [elements_more hread (skipBlank_opens (spacing.blank_before margin) hc _) hc, hothers]
    rfl

theorem members_spell {key : String} {v : Json} (hv : ReadsBack spacing v)
    {rest : List (String × Json)} (hrest : ∀ entry ∈ rest, ReadsBack spacing entry.2)
    {fuel room : Nat} (hroom : depthEntries ((key, v) :: rest) ≤ room)
    (hfuel : 2 * ((encode (spellString key)).length + (encode (spell spacing margin v)).length +
      (encode (spellEntries spacing margin rest)).length) < fuel) (s : List UInt8) :
    members fuel room (encode (key.toList.flatMap escape ++ ['"']) ++ byte ':' ::
        (encode spacing.afterColon ++ (encode (spell spacing margin v) ++
          (encode (spellEntries spacing margin rest) ++ (encode close ++ byte '\x7d' :: s))))) =
      .ok ((key, v) :: rest, s) := by
  obtain ⟨fuel, rfl⟩ := Nat.exists_eq_succ_of_ne_zero (by omega : fuel ≠ 0)
  obtain ⟨hdepth, hdepths⟩ := Nat.max_le.mp hroom
  have hpos := length_spellString_pos key
  obtain ⟨left, rfl⟩ := Nat.exists_eq_succ_of_ne_zero (by omega : fuel ≠ 0)
  induction rest generalizing key v left with
  | nil =>
    have hkey := @stringRest_spelled key (left + 1) (by omega)
    have hread := hv.reads margin (left + 1) hdepth (by omega) (ends_encode hclose (ends_brace s))
    rw [← value_blank spacing.blank_afterColon] at hread
    exact members_last (hkey _) (colon_byte _) hread (skipBlank_encode hclose _)
  | cons entry rest ih =>
    obtain ⟨other, w⟩ := entry
    obtain ⟨hw, hrest⟩ := List.forall_mem_cons.mp hrest
    rw [encode_spellEntries]
    simp only [encode_spellEntries, List.length_cons, List.length_append] at hfuel
    simp only [List.cons_append, List.append_assoc]
    obtain ⟨less, rfl⟩ := Nat.exists_eq_succ_of_ne_zero (by omega : left ≠ 0)
    have hothers := @ih other w hw hrest hdepths (Nat.max_le.mp hdepths).1
      (Nat.max_le.mp hdepths).2 (length_spellString_pos other) less (by omega)
    have hkey := @stringRest_spelled key (less + 2) (by omega)
    have hread := hv.reads margin (less + 2) hdepth (by omega)
      (ends_comma (encode (spacing.before margin) ++ (encode (spellString other) ++
          byte ':' :: (encode spacing.afterColon ++ (encode (spell spacing margin w) ++
            (encode (spellEntries spacing margin rest) ++ (encode close ++ byte '\x7d' :: s)))))))
    rw [← value_blank spacing.blank_afterColon] at hread
    rw [members_more (hkey _) (colon_byte _) hread
      (skipBlank_spellString (spacing.blank_before margin) other _), hothers]
    rfl

end Containers

theorem value_array_spell {spacing : Spacing} {items : List Json}
    (hitems : ∀ v ∈ items, ReadsBack spacing v) {margin fuel room : Nat}
    (hroom : depthItems items ≤ room)
    (hfuel : 2 * (encode (spell spacing margin (.array items))).length ≤ fuel + 1)
    (s : List UInt8) :
    value (fuel + 1) (room + 1) (encode (spell spacing margin (.array items)) ++ s) =
      .ok (.array items, s) := by
  cases items with
  | nil =>
    rw [spell]
    rfl
  | cons v rest =>
    obtain ⟨hv, hrest⟩ := List.forall_mem_cons.mp hitems
    obtain ⟨c, cs, hcs, hc⟩ := hv.opens (margin + spacing.width)
    simp only [encode_spell_array, List.length_cons, List.length_append] at hfuel
    have hread := @elements_spell spacing _ (spacing.blank_before margin) (margin + spacing.width)
      v hv rest hrest fuel room hroom (by omega) s
    rw [encode_spell_array]
    simp only [List.cons_append, List.append_assoc, List.nil_append]
    rw [hcs] at hread ⊢
    rw [Text.encode_cons_ascii hc.ascii, List.cons_append] at hread
    rw [value_array (skipBlank_opens (spacing.blank_before _) hc _) hc, hread]
    rfl

theorem value_object_spell {spacing : Spacing} {entries : List (String × Json)}
    (hkeys : (entries.map (·.1)).Nodup)
    (hentries : ∀ entry ∈ entries, ReadsBack spacing entry.2) {margin fuel room : Nat}
    (hroom : depthEntries entries ≤ room)
    (hfuel : 2 * (encode (spell spacing margin (.object entries))).length ≤ fuel + 1)
    (s : List UInt8) :
    value (fuel + 1) (room + 1) (encode (spell spacing margin (.object entries)) ++ s) =
      .ok (.object entries, s) := by
  cases entries with
  | nil =>
    rw [spell]
    rfl
  | cons entry rest =>
    obtain ⟨key, v⟩ := entry
    obtain ⟨hv, hrest⟩ := List.forall_mem_cons.mp hentries
    simp only [encode_spell_object, List.length_cons, List.length_append] at hfuel
    have hread := @members_spell spacing _ (spacing.blank_before margin) (margin + spacing.width)
      key v hv rest hrest fuel room hroom (by omega) s
    rw [encode_spell_object]
    simp only [List.cons_append, List.append_assoc, List.nil_append]
    rw [value_object (skipBlank_spellString (spacing.blank_before _) key _), hread]
    simp only [andThen, entriesOf_of_nodup hkeys]

/-- Printing loses nothing but the form of floating-point numbers. -/
theorem readsBack (spacing : Spacing) (v : Json) (hintegral : v.Integral) (hkeyed : v.Keyed) :
    ReadsBack spacing v := by
  induction v using parts_induction with
  | null =>
    apply readsBack_of hintegral
    intro margin fuel room s _ _ _
    rw [spell]
    rfl
  | bool b =>
    apply readsBack_of hintegral
    intro margin fuel room s _ _ _
    cases b with
    | true =>
      rw [spell]
      rfl
    | false =>
      rw [spell]
      rfl
  | number n =>
    apply readsBack_of hintegral
    intro margin fuel room s _ _ hs
    cases n with
    | integer n fits =>
      rw [spell]
      exact value_integer fits fuel room hs
    | float negative magnitude => exact hintegral.elim
  | string text =>
    apply readsBack_of hintegral
    intro margin fuel room s _ hfuel _
    rw [spell] at hfuel ⊢
    have hpos := length_spellString_pos text
    exact value_string text room s (by omega)
  | array items ih =>
    apply readsBack_of hintegral
    intro margin fuel room s hroom hfuel _
    have hitems : ∀ v ∈ items, ReadsBack spacing v := by
      intro v hv
      exact ih v hv (integralItems_iff.mp hintegral v hv) (keyedItems_iff.mp hkeyed v hv)
    cases room with
    | zero => exact absurd hroom (Nat.not_succ_le_zero _)
    | succ room => exact value_array_spell hitems (Nat.le_of_succ_le_succ hroom) hfuel s
  | object entries ih =>
    apply readsBack_of hintegral
    intro margin fuel room s hroom hfuel _
    obtain ⟨hkeys, hkeyed⟩ := hkeyed
    have hentries : ∀ entry ∈ entries, ReadsBack spacing entry.2 := by
      intro entry hentry
      exact ih entry hentry (integralEntries_iff.mp hintegral entry hentry)
        (keyedEntries_iff.mp hkeyed entry hentry)
    cases room with
    | zero => exact absurd hroom (Nat.not_succ_le_zero _)
    | succ room => exact value_object_spell hkeys hentries (Nat.le_of_succ_le_succ hroom) hfuel s

theorem ends_nil : Ends [] := by
  rintro b rest heq
  cases heq

section Documents

variable (spacing : Spacing) (margin : Nat) {v : Json} (hintegral : v.Integral) (hkeyed : v.Keyed)

include hintegral hkeyed

theorem value_spell {room : Nat} (hroom : v.depth ≤ room) :
    value (2 * (encode (spell spacing margin v)).length + 2) room
      (encode (spell spacing margin v)) = .ok (v, []) := by
  have hread := (readsBack spacing v hintegral hkeyed).reads margin
    (2 * (encode (spell spacing margin v)).length + 2) hroom (Nat.le_add_right _ _) ends_nil
  rwa [List.append_nil] at hread

theorem document_spell (hdepth : v.depth ≤ depthLimit) :
    document (encode (spell spacing margin v)) = .ok v := by
  simp only [document, bind, Except.bind, value_spell spacing margin hintegral hkeyed hdepth]
  rfl

theorem document_spell_deep (hdepth : depthLimit < v.depth) :
    ∃ left, document (encode (spell spacing margin v)) = .error ⟨.depth, left⟩ := by
  have hmore := roomAtMost_value (2 * (encode (spell spacing margin v)).length + 2)
    (Nat.le_of_lt hdepth) (encode (spell spacing margin v))
  rw [value_spell spacing margin hintegral hkeyed (Nat.le_refl _)] at hmore
  rcases hmore with ⟨left, hfail⟩ | hread
  · refine ⟨left, ?_⟩
    simp only [document, bind, Except.bind, hfail]
  · exact absurd (value_eq_ok hread).1 (Nat.not_le.mpr hdepth)

end Documents

end Reader

section Texts

variable {spacing : Spacing} {margin : Nat} {text : String} {v : Json}
  (htext : text.toList = spell spacing margin v) (hintegral : v.Integral) (hkeyed : v.Keyed)

include htext hintegral hkeyed

/-- A printed value is read back as itself if it nests no deeper than the reader goes. -/
theorem readText_spell (hdepth : v.depth ≤ depthLimit) : readText text = .ok v := by
  rw [readText, read, Text.toUTF8_eq_encode, htext]
  simp only [Reader.document_spell spacing margin hintegral hkeyed hdepth]

theorem readText_spell_deep (hdepth : depthLimit < v.depth) :
    ∃ e : ReadError, e.flaw = .depth ∧ readText text = .error e := by
  obtain ⟨left, hfail⟩ := Reader.document_spell_deep spacing margin hintegral hkeyed hdepth
  rw [readText, read, Text.toUTF8_eq_encode, htext]
  simp only [hfail]
  exact ⟨_, rfl, rfl⟩

end Texts

end RecordConsole.Json
