import RecordConsole.Proofs.Json.Inspection

/-! Where the reader stops in a printed text. Whatever a printed value is read as, if it is read at
all, the reader stops right behind it; and the keys of an object are read as they were. This needs
neither room nor the exact value of a number. -/
namespace RecordConsole.Json

namespace Reader

open Text (encode byte)

/-! ## The end of a number -/

def afterExponent : List UInt8 → List UInt8
  | [] => []
  | b :: rest =>
    if ascii b = '-' ∨ ascii b = '+' then rest.dropWhile isDigit
    else (b :: rest).dropWhile isDigit

def afterScale : List UInt8 → List UInt8
  | [] => []
  | b :: rest => if isExponentMark b then afterExponent rest else b :: rest

def afterWhole : List UInt8 → List UInt8
  | [] => []
  | b :: rest =>
    if ascii b = '.' then afterScale (rest.dropWhile isDigit) else afterScale (b :: rest)

variable {negative down : Bool} {significand : Nat} {shift : Int} {n : Number}
  {s rest : List UInt8}

/-- The definition as a whole: with its arguments in place, checking that the two sides are the same
would start to evaluate the rounding. -/
theorem scaled_eq : scaled = fun negative significand exponent s =>
    match Decimal.Binary64.ofDecimal significand exponent with
    | some magnitude => .ok (.float negative magnitude, s)
    | none => fail .numberRange s := rfl

theorem rest_of_scaled (h : scaled negative significand shift s = .ok (n, rest)) : rest = s := by
  rw [scaled_eq] at h
  beta_reduce at h
  generalize Decimal.Binary64.ofDecimal significand shift = read at h
  cases read with
  | none => cases h
  | some magnitude =>
    cases h
    rfl

theorem rest_of_exponentDigits {e : Nat}
    (h : exponentDigits negative down significand shift e s = .ok (n, rest)) :
    rest = s.dropWhile isDigit := by
  induction s generalizing e with
  | nil => exact rest_of_scaled h
  | cons b s ih =>
    rw [exponentDigits] at h
    by_cases hdigit : isDigit b = true
    · rw [List.dropWhile_cons_of_pos hdigit]
      rw [if_pos hdigit] at h
      split at h
      · exact ih h
      · split at h
        · cases h
        · cases h
          rfl
    · rw [List.dropWhile_cons_of_neg hdigit]
      rw [if_neg hdigit] at h
      exact rest_of_scaled h

def unsignedExponent (negative down : Bool) (significand : Nat) (shift : Int) :
    List UInt8 → Step Number
  | [] => fail .endInValue []
  | b :: rest =>
    if isDigit b then exponentDigits negative down significand shift (digit b) rest
    else fail .number rest

theorem exponent_cons (b : UInt8) (s : List UInt8) :
    exponent negative significand shift (b :: s) =
      if ascii b = '-' then unsignedExponent negative true significand shift s
      else if ascii b = '+' then unsignedExponent negative false significand shift s
      else unsignedExponent negative false significand shift (b :: s) := by
  by_cases hminus : ascii b = '-'
  · simp only [exponent, hminus, if_true]
    cases s <;> rfl
  · by_cases hplus : ascii b = '+'
    · simp only [exponent, hplus, if_true]
      cases s <;> rfl
    · simp only [exponent, hminus, hplus, if_false]
      rfl

theorem rest_of_unsignedExponent
    (h : unsignedExponent negative down significand shift s = .ok (n, rest)) :
    rest = s.dropWhile isDigit := by
  cases s with
  | nil => cases h
  | cons b s =>
    rw [unsignedExponent] at h
    by_cases hdigit : isDigit b = true
    · rw [if_pos hdigit] at h
      rw [List.dropWhile_cons_of_pos hdigit]
      exact rest_of_exponentDigits h
    · rw [if_neg hdigit] at h
      cases h

theorem rest_of_exponent (h : exponent negative significand shift s = .ok (n, rest)) :
    rest = afterExponent s := by
  cases s with
  | nil => cases h
  | cons b s =>
    rw [exponent_cons] at h
    rw [afterExponent]
    by_cases hminus : ascii b = '-'
    · rw [if_pos hminus] at h
      rw [if_pos (.inl hminus)]
      exact rest_of_unsignedExponent h
    · by_cases hplus : ascii b = '+'
      · rw [if_neg hminus, if_pos hplus] at h
        rw [if_pos (.inr hplus)]
        exact rest_of_unsignedExponent h
      · rw [if_neg hminus, if_neg hplus] at h
        rw [if_neg (not_or.mpr ⟨hminus, hplus⟩)]
        exact rest_of_unsignedExponent h

theorem dropWhile_appendDigits (n : Nat) (s : List UInt8) :
    (appendDigits n s).2.dropWhile isDigit = s.dropWhile isDigit := by
  induction s generalizing n with
  | nil => rfl
  | cons b s ih =>
    rw [appendDigits]
    split
    · rename_i hfits
      have hdigit : isDigit b = true := (Bool.and_eq_true_iff.mp hfits).1
      rw [ih, List.dropWhile_cons_of_pos hdigit]
    · rfl

theorem rest_of_fraction (h : fraction negative significand shift s = .ok (n, rest)) :
    rest = afterScale (s.dropWhile isDigit) := by
  cases s with
  | nil => cases h
  | cons b s =>
    by_cases hdigit : isDigit b = true
    · obtain ⟨kept, left, hkept⟩ : ∃ kept left, appendDigits significand (b :: s) = (kept, left) :=
        ⟨_, _, rfl⟩
      have hleft := dropWhile_appendDigits significand (b :: s)
      rw [hkept] at hleft
      simp only [fraction, hdigit, if_true, hkept] at h
      rw [← hleft]
      cases hafter : left.dropWhile isDigit with
      | nil =>
        rw [hafter] at h
        exact rest_of_scaled h
      | cons c more =>
        rw [hafter] at h
        simp only at h
        rw [afterScale]
        by_cases hmark : isExponentMark c = true
        · rw [if_pos hmark] at h ⊢
          exact rest_of_exponent h
        · rw [if_neg hmark] at h ⊢
          exact rest_of_scaled h
    · simp only [fraction] at h
      rw [if_neg hdigit] at h
      cases h

theorem rest_of_whole {dropped : Nat}
    (h : (if dropped = 0 then .ok (.ofDigits negative significand, s)
      else scaled negative significand dropped s : Step Number) = .ok (n, rest)) : rest = s := by
  by_cases hall : dropped = 0
  · rw [if_pos hall] at h
    exact (congrArg Prod.snd (Except.ok.inj h)).symm
  · rw [if_neg hall] at h
    exact rest_of_scaled h

theorem rest_of_numberTail {dropped : Nat}
    (h : numberTail negative significand dropped s = .ok (n, rest)) : rest = afterWhole s := by
  cases s with
  | nil =>
    simp only [numberTail] at h
    exact rest_of_whole h
  | cons b s =>
    rw [afterWhole, afterScale]
    by_cases hpoint : ascii b = '.'
    · simp only [numberTail, hpoint, if_true] at h
      rw [if_pos hpoint]
      exact rest_of_fraction h
    · simp only [numberTail, hpoint, if_false] at h
      rw [if_neg hpoint]
      by_cases hmark : isExponentMark b = true
      · rw [if_pos hmark] at h ⊢
        exact rest_of_exponent h
      · rw [if_neg hmark] at h ⊢
        exact rest_of_whole h

/-- Whatever a number is read as, the reader stops where its text does. -/
theorem rest_of_number (h : number negative s = .ok (n, rest)) :
    rest = afterWhole (s.dropWhile isDigit) := by
  cases s with
  | nil => cases h
  | cons b s =>
    simp only [number] at h
    by_cases hzero : ascii b = '0'
    · have hdigit : isDigit b = true := by
        rw [isDigit, hzero]
        rfl
      rw [if_pos hzero] at h
      rw [List.dropWhile_cons_of_pos hdigit]
      cases s with
      | nil => exact rest_of_numberTail h
      | cons c more =>
        simp only at h
        by_cases hnext : isDigit c = true
        · rw [if_pos hnext] at h
          cases h
        · rw [if_neg hnext] at h
          rw [List.dropWhile_cons_of_neg hnext]
          exact rest_of_numberTail h
    · rw [if_neg hzero] at h
      by_cases hdigit : isDigit b = true
      · rw [if_pos hdigit] at h
        rw [List.dropWhile_cons_of_pos hdigit, ← dropWhile_appendDigits (digit b)]
        exact rest_of_numberTail h
      · rw [if_neg hdigit] at h
        cases h

/-! ## Printed numbers -/

theorem dropWhile_encode {cs : List Char} (h : Decimal.Digits cs) (s : List UInt8) :
    (encode cs ++ s).dropWhile isDigit = s.dropWhile isDigit := by
  induction cs with
  | nil => rfl
  | cons c cs ih =>
    have hc := h c List.mem_cons_self
    rw [Text.encode_cons_ascii (toNat_lt_of_isDigit hc), List.cons_append,
      List.dropWhile_cons_of_pos (isDigit_byte hc)]
    exact ih fun d hd => h d (List.mem_cons_of_mem _ hd)

theorem afterScale_ends (hs : Ends s) : afterScale s = s := by
  cases s with
  | nil => rfl
  | cons b s =>
    obtain ⟨-, -, hmark⟩ := hs b s rfl
    rw [afterScale, hmark]
    rfl

theorem afterWhole_ends (hs : Ends s) : afterWhole s = s := by
  cases s with
  | nil => rfl
  | cons b s =>
    obtain ⟨-, hpoint, -⟩ := hs b s rfl
    rw [afterWhole, if_neg hpoint, afterScale_ends hs]

theorem afterExponent_encode {c : Char} (hc : c = '+' ∨ c = '-') {cs : List Char}
    (h : Decimal.Digits cs) (hs : Ends s) : afterExponent (byte c :: (encode cs ++ s)) = s := by
  have hsign : ascii (byte c) = '-' ∨ ascii (byte c) = '+' := by
    rcases hc with rfl | rfl
    · exact .inr (ascii_byte (by decide))
    · exact .inl (ascii_byte (by decide))
  rw [afterExponent, if_pos hsign, dropWhile_encode h, dropWhile_ends hs]

theorem afterScale_encode {tail : List Char} {e : Int} (h : Decimal.WritesExponent tail e)
    (hs : Ends s) :
    (encode tail ++ s).dropWhile isDigit = encode tail ++ s ∧
      afterScale (encode tail ++ s) = s := by
  have hmark : isExponentMark (byte 'e') = true := by decide
  have hletter : ¬ isDigit (byte 'e') = true := by decide
  cases h with
  | none => exact ⟨dropWhile_ends hs, afterScale_ends hs⟩
  | up hdigits =>
    rw [Text.encode_cons_ascii (by decide), Text.encode_cons_ascii (by decide), List.cons_append,
      List.cons_append, List.dropWhile_cons_of_neg hletter, afterScale, if_pos hmark]
    exact ⟨rfl, afterExponent_encode (.inl rfl) hdigits hs⟩
  | down hdigits =>
    rw [Text.encode_cons_ascii (by decide), Text.encode_cons_ascii (by decide), List.cons_append,
      List.cons_append, List.dropWhile_cons_of_neg hletter, afterScale, if_pos hmark]
    exact ⟨rfl, afterExponent_encode (.inr rfl) hdigits hs⟩

theorem afterWhole_encode {cs : List Char} {q : ℚ} (h : Decimal.Writes cs q) (hs : Ends s) :
    afterWhole ((encode cs ++ s).dropWhile isDigit) = s := by
  cases h with
  | point _ hwhole hfraction htail =>
    obtain ⟨hdrop, hscale⟩ := afterScale_encode htail hs
    have hpoint : ascii (byte '.') = '.' := ascii_byte (by decide)
    have hmark : ¬ isDigit (byte '.') = true := by decide
    rw [Text.encode_append, List.append_assoc, dropWhile_encode hwhole,
      Text.encode_cons_ascii (by decide), List.cons_append, List.dropWhile_cons_of_neg hmark,
      afterWhole, if_pos hpoint, Text.encode_append, List.append_assoc, dropWhile_encode hfraction,
      hdrop, hscale]
  | @single digit tail e hdigit hne htail =>
    obtain ⟨hdrop, hscale⟩ := afterScale_encode htail hs
    rw [Text.encode_cons_ascii (toNat_lt_of_isDigit hdigit), List.cons_append,
      List.dropWhile_cons_of_pos (isDigit_byte hdigit), hdrop]
    cases tail with
    | nil => exact absurd rfl hne
    | cons c tail =>
      have hc : c = 'e' := by cases htail <;> rfl
      subst hc
      rw [Text.encode_cons_ascii (by decide), List.cons_append] at hscale ⊢
      rw [afterWhole, if_neg (by decide), hscale]

theorem rest_of_unsigned {m : Number} (hs : Ends s)
    (h : number negative (encode m.unsigned ++ s) = .ok (n, rest)) : rest = s := by
  rw [rest_of_number h]
  cases m with
  | integer k fits =>
    have hdigits : Decimal.Digits (Number.unsigned (.integer k fits)) :=
      Decimal.digits_toDigits k.natAbs
    rw [dropWhile_encode hdigits, dropWhile_ends hs, afterWhole_ends hs]
  | float _ magnitude => exact afterWhole_encode (Decimal.writes_text Number.layout magnitude) hs

theorem rest_of_value_number {m : Number} {fuel room : Nat} {v : Json} (hs : Ends s)
    (h : value fuel room (encode m.text.toList ++ s) = .ok (v, rest)) : rest = s := by
  cases fuel with
  | zero => simp [value, fail] at h
  | succ fuel =>
    rw [Number.toList_text] at h
    cases hsign : m.negative with
    | true =>
      rw [hsign, if_pos rfl, List.singleton_append, Text.encode_cons_ascii (by decide),
        List.cons_append, value_minus] at h
      obtain ⟨n, left, hnumber, hok⟩ := andThen_eq_ok_iff.mp h
      cases hok
      exact rest_of_unsigned hs hnumber
    | false =>
      obtain ⟨c, cs, hcs, hc⟩ := m.unsigned_eq_cons
      have hbytes : encode m.unsigned ++ s = byte c :: (encode cs ++ s) := by
        rw [hcs, Text.encode_cons_ascii (toNat_lt_of_isDigit hc), List.cons_append]
      rw [hsign, if_neg Bool.false_ne_true, List.nil_append, hbytes, value_of_isDigit hc,
        ← hbytes] at h
      obtain ⟨n, left, hnumber, hok⟩ := andThen_eq_ok_iff.mp h
      cases hok
      exact rest_of_unsigned hs hnumber

/-! ## Strings -/

theorem stringRest_more_fuel {fuel : Nat} {taken : List UInt8} {text : String}
    (h : stringRest fuel taken s = .ok (text, rest)) (more : Nat) :
    stringRest (fuel + more) taken s = .ok (text, rest) := by
  induction fuel generalizing taken s with
  | zero => simp [stringRest, fail] at h
  | succ fuel ih =>
    rw [Nat.add_right_comm]
    cases s with
    | nil => simp [stringRest, fail] at h
    | cons b s =>
      rw [stringRest] at h ⊢
      split at h
      · exact h
      · obtain ⟨c, left, hescaped, hread⟩ := andThen_eq_ok_iff.mp h
        exact andThen_eq_ok_iff.mpr ⟨c, left, hescaped, ih hread⟩
      · split at h
        · cases h
        · rename_i hcontrol
          rw [if_neg hcontrol]
          exact ih h

theorem stringRest_spelled_eq {text read : String} {fuel : Nat}
    (h : stringRest fuel [] (encode (text.toList.flatMap escape ++ ['"']) ++ s) =
      .ok (read, rest)) : read = text ∧ rest = s := by
  have hmore := stringRest_more_fuel h (encode (spellString text)).length
  rw [stringRest_spelled text (Nat.le_add_left _ _)] at hmore
  cases hmore
  exact ⟨rfl, rfl⟩

/-! ## Values -/

/-- Whatever is read where a value was printed, the reader stops behind it. -/
def Stops (spacing : Spacing) (v : Json) : Prop :=
  ∀ (margin : Nat) {fuel room : Nat} {s : List UInt8} {w : Json} {rest : List UInt8}, Ends s →
    value fuel room (encode (spell spacing margin v) ++ s) = .ok (w, rest) → rest = s

theorem stops_of {spacing : Spacing} {v : Json}
    (h : ∀ (margin : Nat) {fuel room : Nat} {s : List UInt8} {w : Json} {rest : List UInt8},
      Ends s → value (fuel + 1) room (encode (spell spacing margin v) ++ s) = .ok (w, rest) →
        rest = s) : Stops spacing v := by
  intro margin fuel room s w rest hs hread
  cases fuel with
  | zero => simp [value, fail] at hread
  | succ fuel => exact h margin hs hread

theorem opens_spell (spacing : Spacing) (margin : Nat) (v : Json) :
    ∃ c cs, spell spacing margin v = c :: cs ∧ Opens c := by
  by_cases hfloat : ∃ negative magnitude, v = .number (.float negative magnitude)
  · obtain ⟨negative, magnitude, rfl⟩ := hfloat
    rw [spell, Number.toList_text]
    cases negative with
    | true => exact ⟨'-', _, rfl, by decide, fun _ => rfl, by decide⟩
    | false =>
      obtain ⟨c, cs, hcs, hc⟩ := (Number.float false magnitude).unsigned_eq_cons
      exact ⟨c, cs, hcs, opens_of_isDigit hc⟩
  · apply spell_eq_cons
    intro negative magnitude hv
    exact hfloat ⟨negative, magnitude, hv⟩

section Containers

variable {spacing : Spacing} {fuel room : Nat} {v : Json}

theorem value_of_elements (hv : Stops spacing v) {margin : Nat} {tail : List UInt8}
    (htail : Ends tail) {items : List Json}
    (h : elements fuel room (encode (spell spacing margin v) ++ tail) = .ok (items, rest)) :
    ∃ less w, fuel = less + 1 ∧
      value less room (encode (spell spacing margin v) ++ tail) = .ok (w, tail) := by
  cases fuel with
  | zero => simp [elements, fail] at h
  | succ less =>
    rw [elements] at h
    obtain ⟨w, after, hvalue, -⟩ := andThen_eq_ok_iff.mp h
    obtain rfl := hv margin htail hvalue
    exact ⟨less, w, rfl, hvalue⟩

theorem entry_of_members (hv : Stops spacing v) {key : String} {margin : Nat} {tail : List UInt8}
    (htail : Ends tail) {pairs : List (String × Json)}
    (h : members fuel room (encode (key.toList.flatMap escape ++ ['"']) ++ byte ':' ::
      (encode spacing.afterColon ++ (encode (spell spacing margin v) ++ tail))) =
        .ok (pairs, rest)) :
    ∃ less w, fuel = less + 1 ∧
      stringRest less [] (encode (key.toList.flatMap escape ++ ['"']) ++ byte ':' ::
        (encode spacing.afterColon ++ (encode (spell spacing margin v) ++ tail))) =
          .ok (key, byte ':' ::
            (encode spacing.afterColon ++ (encode (spell spacing margin v) ++ tail))) ∧
      value less room (encode spacing.afterColon ++ (encode (spell spacing margin v) ++ tail)) =
        .ok (w, tail) := by
  cases fuel with
  | zero => simp [members, fail] at h
  | succ less =>
    rw [members] at h
    obtain ⟨read, afterKey, hkey, h⟩ := andThen_eq_ok_iff.mp h
    obtain ⟨rfl, rfl⟩ := stringRest_spelled_eq hkey
    obtain ⟨⟨⟩, afterColon, hcolon, h⟩ := andThen_eq_ok_iff.mp h
    cases hcolon
    obtain ⟨w, after, hvalue, -⟩ := andThen_eq_ok_iff.mp h
    cases less with
    | zero => simp [value, fail] at hvalue
    | succ less =>
      have hafter := hvalue
      rw [value_blank spacing.blank_afterColon] at hafter
      obtain rfl := hv margin htail hafter
      exact ⟨_, w, rfl, hkey, hvalue⟩

variable {close : List Char} (hclose : Blank close) {margin : Nat}

include hclose

theorem rest_of_elements (hv : Stops spacing v) {others : List Json}
    (hothers : ∀ w ∈ others, Stops spacing w) {items : List Json}
    (h : elements fuel room (encode (spell spacing margin v) ++
      (encode (spellItems spacing margin others) ++ (encode close ++ byte ']' :: s))) =
        .ok (items, rest)) : rest = s := by
  induction others generalizing v fuel items with
  | nil =>
    rw [spellItems, Text.encode_nil, List.nil_append] at h
    obtain ⟨less, w, rfl, hvalue⟩ :=
      value_of_elements hv (ends_encode hclose (ends_bracket s)) h
    rw [elements_last hvalue (skipBlank_encode hclose _)] at h
    cases h
    rfl
  | cons w others ih =>
    obtain ⟨hw, hothers⟩ := List.forall_mem_cons.mp hothers
    obtain ⟨c, cs, hcs, hc⟩ := opens_spell spacing margin w
    rw [encode_spellItems] at h
    simp only [List.cons_append, List.append_assoc] at h
    obtain ⟨less, x, rfl, hvalue⟩ := value_of_elements hv (ends_comma _) h
    rw [hcs] at h hvalue
    rw [elements_more hvalue (skipBlank_opens (spacing.blank_before margin) hc _) hc] at h
    obtain ⟨left, after, hleft, hok⟩ := andThen_eq_ok_iff.mp h
    cases hok
    rw [← List.cons_append, ← Text.encode_cons_ascii hc.ascii, ← hcs] at hleft
    exact ih hw hothers hleft

theorem rest_of_members {key : String} (hv : Stops spacing v) {others : List (String × Json)}
    (hothers : ∀ entry ∈ others, Stops spacing entry.2) {pairs : List (String × Json)}
    (h : members fuel room (encode (key.toList.flatMap escape ++ ['"']) ++ byte ':' ::
        (encode spacing.afterColon ++ (encode (spell spacing margin v) ++
          (encode (spellEntries spacing margin others) ++ (encode close ++ byte '\x7d' :: s))))) =
      .ok (pairs, rest)) :
    rest = s ∧ pairs.map (·.1) = key :: others.map (·.1) := by
  induction others generalizing key v fuel pairs with
  | nil =>
    rw [spellEntries, Text.encode_nil, List.nil_append] at h
    obtain ⟨less, w, rfl, hkey, hvalue⟩ :=
      entry_of_members hv (ends_encode hclose (ends_brace s)) h
    rw [members_last hkey (colon_byte _) hvalue (skipBlank_encode hclose _)] at h
    cases h
    exact ⟨rfl, rfl⟩
  | cons entry others ih =>
    obtain ⟨other, w⟩ := entry
    obtain ⟨hw, hothers⟩ := List.forall_mem_cons.mp hothers
    rw [encode_spellEntries] at h
    simp only [List.cons_append, List.append_assoc] at h
    obtain ⟨less, x, rfl, hkey, hvalue⟩ := entry_of_members hv (ends_comma _) h
    rw [members_more hkey (colon_byte _) hvalue
      (skipBlank_spellString (spacing.blank_before margin) other _)] at h
    obtain ⟨left, after, hleft, hok⟩ := andThen_eq_ok_iff.mp h
    cases hok
    obtain ⟨rfl, hnames⟩ := ih hw hothers hleft
    exact ⟨rfl, congrArg (key :: ·) hnames⟩

end Containers

theorem stops_array {spacing : Spacing} {items : List Json}
    (hitems : ∀ v ∈ items, Stops spacing v) : Stops spacing (.array items) := by
  apply stops_of
  intro margin fuel room s w rest _ h
  cases items with
  | nil =>
    rw [spell] at h
    cases room with
    | zero => cases h
    | succ room =>
      cases h
      rfl
  | cons v others =>
    obtain ⟨hv, hothers⟩ := List.forall_mem_cons.mp hitems
    obtain ⟨c, cs, hcs, hc⟩ := opens_spell spacing (margin + spacing.width) v
    rw [encode_spell_array] at h
    simp only [List.cons_append, List.append_assoc, List.nil_append] at h
    cases room with
    | zero => cases h
    | succ room =>
      rw [hcs, value_array (skipBlank_opens (spacing.blank_before _) hc _) hc,
        ← List.cons_append, ← Text.encode_cons_ascii hc.ascii, ← hcs] at h
      obtain ⟨read, after, hread, hok⟩ := andThen_eq_ok_iff.mp h
      cases hok
      exact rest_of_elements (spacing.blank_before margin) hv hothers hread

/-- Where an object was printed an object is read, with the same keys. -/
theorem object_of_value {spacing : Spacing} {entries : List (String × Json)}
    (hentries : ∀ entry ∈ entries, Stops spacing entry.2) {margin fuel room : Nat} {w : Json}
    (h : value fuel room (encode (spell spacing margin (.object entries)) ++ s) = .ok (w, rest)) :
    rest = s ∧ ∃ pairs, w = .object (entriesOf pairs) ∧ pairs.map (·.1) = entries.map (·.1) := by
  cases fuel with
  | zero => simp [value, fail] at h
  | succ fuel =>
    cases entries with
    | nil =>
      rw [spell] at h
      cases room with
      | zero => cases h
      | succ room =>
        cases h
        exact ⟨rfl, [], rfl, rfl⟩
    | cons entry others =>
      obtain ⟨key, v⟩ := entry
      obtain ⟨hv, hothers⟩ := List.forall_mem_cons.mp hentries
      rw [encode_spell_object] at h
      simp only [List.cons_append, List.append_assoc, List.nil_append] at h
      cases room with
      | zero => cases h
      | succ room =>
        rw [value_object (skipBlank_spellString (spacing.blank_before _) key _)] at h
        obtain ⟨pairs, after, hread, hok⟩ := andThen_eq_ok_iff.mp h
        cases hok
        obtain ⟨rfl, hnames⟩ := rest_of_members (spacing.blank_before margin) hv hothers hread
        exact ⟨rfl, pairs, rfl, hnames⟩

theorem stops (spacing : Spacing) (v : Json) : Stops spacing v := by
  induction v using parts_induction with
  | null =>
    apply stops_of
    intro margin fuel room s w rest _ h
    rw [spell] at h
    cases h
    rfl
  | bool b =>
    apply stops_of
    intro margin fuel room s w rest _ h
    cases b with
    | true =>
      rw [spell] at h
      cases h
      rfl
    | false =>
      rw [spell] at h
      cases h
      rfl
  | number n =>
    intro margin fuel room s w rest hs h
    rw [spell] at h
    exact rest_of_value_number hs h
  | string text =>
    apply stops_of
    intro margin fuel room s w rest _ h
    rw [spell, encode_spellString, List.cons_append, value_quote] at h
    obtain ⟨read, after, hread, hok⟩ := andThen_eq_ok_iff.mp h
    cases hok
    exact (stringRest_spelled_eq hread).2
  | array items ih => exact stops_array ih
  | object entries ih =>
    intro margin fuel room s w rest _ h
    exact (object_of_value ih h).1

end Reader

/-- If the text of an object is read, it is read as an object with the same keys, whatever becomes
of the values. -/
theorem names_of_readText {spacing : Spacing} {margin : Nat} {text : String}
    {entries : List (String × Json)} (htext : text.toList = spell spacing margin (.object entries))
    {v : Json} (h : readText text = .ok v) :
    ∃ read, v = .object read ∧ read.map (·.1) = (entries.map (·.1)).eraseDups := by
  simp only [readText, read, Text.toUTF8_eq_encode, htext] at h
  split at h
  · rename_i w hdocument
    cases h
    obtain ⟨fuel, rest, hread⟩ := Reader.value_of_document hdocument
    rw [← List.append_nil (Text.encode _)] at hread
    obtain ⟨-, pairs, rfl, hnames⟩ :=
      Reader.object_of_value (fun entry _ => Reader.stops spacing entry.2) hread
    exact ⟨_, rfl, by rw [names_entriesOf, hnames]⟩
  · cases h

end RecordConsole.Json
