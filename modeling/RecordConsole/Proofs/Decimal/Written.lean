import RecordConsole.Proofs.Decimal.RoundingInterval

/-! The text of a double is the shortest decimal number, whichever way it is laid out, so no two
doubles have one text. -/
namespace RecordConsole.Decimal

def Digits (cs : List Char) : Prop := ∀ c ∈ cs, c.isDigit = true

/-- The end of a number after its digits, with the exponent that stands there. -/
inductive WritesExponent : List Char → Int → Prop
  | none : WritesExponent [] 0
  | up {cs : List Char} (hdigits : Digits cs) :
      WritesExponent ('e' :: '+' :: cs) (Nat.ofDigitChars 10 cs 0)
  | down {cs : List Char} (hdigits : Digits cs) :
      WritesExponent ('e' :: '-' :: cs) (-(Nat.ofDigitChars 10 cs 0 : Int))

/-- Numbers have digits on both sides of a point, or an exponent behind one digit. -/
inductive Writes : List Char → ℚ → Prop
  | point {whole fraction tail : List Char} {e : Int} (hne : whole ≠ []) (hwhole : Digits whole)
      (hfraction : Digits fraction) (htail : WritesExponent tail e) :
      Writes (whole ++ '.' :: (fraction ++ tail))
        (Nat.ofDigitChars 10 (whole ++ fraction) 0 * 10 ^ (e - fraction.length))
  | single {digit : Char} {tail : List Char} {e : Int} (hdigit : digit.isDigit = true)
      (hne : tail ≠ []) (htail : WritesExponent tail e) :
      Writes (digit :: tail) (Nat.ofDigitChars 10 [digit] 0 * 10 ^ e)

/-! ## Reading -/

def readExponent : List Char → Int
  | _ :: '-' :: cs => -(Nat.ofDigitChars 10 cs 0 : Int)
  | _ :: _ :: cs => Nat.ofDigitChars 10 cs 0
  | _ => 0

def readNumber (cs : List Char) : ℚ :=
  let mantissa := cs.takeWhile (· != 'e')
  Nat.ofDigitChars 10 (mantissa.filter (· != '.')) 0 *
    10 ^ (readExponent (cs.dropWhile (· != 'e')) - (mantissa.dropWhile (· != '.')).tail.length)

theorem bne_of_isDigit {c d : Char} (hc : c.isDigit = true) (hd : d.isDigit = false) :
    (c != d) = true := by
  rw [bne_iff_ne]
  rintro rfl
  rw [hc] at hd
  cases hd

theorem readExponent_eq {tail : List Char} {e : Int} (h : WritesExponent tail e) :
    readExponent tail = e := by
  cases h <;> rfl

theorem cut_writesExponent {mantissa tail : List Char} {e : Int}
    (hmantissa : ∀ c ∈ mantissa, (c != 'e') = true) (h : WritesExponent tail e) :
    (mantissa ++ tail).takeWhile (· != 'e') = mantissa ∧
      (mantissa ++ tail).dropWhile (· != 'e') = tail := by
  rw [List.takeWhile_append_of_pos hmantissa, List.dropWhile_append_of_pos hmantissa]
  cases h <;> simp

theorem readNumber_eq {cs : List Char} {q : ℚ} (h : Writes cs q) : readNumber cs = q := by
  cases h with
  | @point whole fraction tail e hne hwhole hfraction htail =>
    have hmantissa : ∀ c ∈ whole ++ '.' :: fraction, (c != 'e') = true := by
      intro c hc
      rcases List.mem_append.mp hc with hc | hc
      · exact bne_of_isDigit (hwhole c hc) (by decide)
      · rcases List.mem_cons.mp hc with rfl | hc
        · decide
        · exact bne_of_isDigit (hfraction c hc) (by decide)
    have hnoPoint : ∀ {ds : List Char}, Digits ds → ∀ c ∈ ds, (c != '.') = true :=
      fun hds c hc => bne_of_isDigit (hds c hc) (by decide)
    obtain ⟨htake, hdrop⟩ := cut_writesExponent hmantissa htail
    have hfilter : (whole ++ '.' :: fraction).filter (· != '.') = whole ++ fraction := by
      rw [List.filter_append, List.filter_cons_of_neg (by decide),
        List.filter_eq_self.mpr (hnoPoint hwhole), List.filter_eq_self.mpr (hnoPoint hfraction)]
    have hplaces : ((whole ++ '.' :: fraction).dropWhile (· != '.')).tail = fraction := by
      rw [List.dropWhile_append_of_pos (hnoPoint hwhole), List.dropWhile_cons_of_neg (by decide),
        List.tail_cons]
    rw [show whole ++ '.' :: (fraction ++ tail) = whole ++ '.' :: fraction ++ tail by simp]
    simp only [readNumber, htake, hdrop, hfilter, hplaces, readExponent_eq htail]
  | @single digit tail e hdigit hne htail =>
    have hmantissa : ∀ c ∈ [digit], (c != 'e') = true := by
      intro c hc
      cases List.mem_singleton.mp hc
      exact bne_of_isDigit hdigit (by decide)
    have hpoint : (digit != '.') = true := bne_of_isDigit hdigit (by decide)
    obtain ⟨htake, hdrop⟩ := cut_writesExponent hmantissa htail
    rw [show digit :: tail = [digit] ++ tail from rfl]
    simp only [readNumber, htake, hdrop, readExponent_eq htail]
    simp [hpoint]

/-! ## Layouts -/

theorem digits_toDigits (n : Nat) : Digits (Nat.toDigits 10 n) :=
  fun _ hc => Nat.isDigit_of_mem_toDigits (by decide) (by decide) hc

theorem digits_zeros (count : Nat) : Digits (List.replicate count '0') := by
  intro c hc
  rw [List.eq_of_mem_replicate hc]
  decide

theorem Digits.append {cs ds : List Char} (hcs : Digits cs) (hds : Digits ds) : Digits (cs ++ ds) := by
  intro c hc
  rcases List.mem_append.mp hc with hc | hc
  · exact hcs c hc
  · exact hds c hc

theorem toList_toString (n : Nat) : (toString n).toList = Nat.toDigits 10 n := by
  rw [Nat.toString_eq_repr, Nat.toList_repr]

theorem digits_zero : Digits ['0'] := digits_zeros 1

theorem ofDigitChars_append_zeros (cs : List Char) (count : Nat) :
    Nat.ofDigitChars 10 (cs ++ List.replicate count '0') 0 = Nat.ofDigitChars 10 cs 0 * 10 ^ count := by
  rw [Nat.ofDigitChars_append, Nat.ofDigitChars_replicate_zero, Nat.mul_comm]

theorem ofDigitChars_zeros_append (cs : List Char) (count : Nat) :
    Nat.ofDigitChars 10 (List.replicate count '0' ++ cs) 0 = Nat.ofDigitChars 10 cs 0 := by
  rw [Nat.ofDigitChars_append, Nat.ofDigitChars_replicate_zero, Nat.mul_zero]

theorem writes_positional (x : Scaled) : Writes x.positional.toList x.value := by
  have hdigits := digits_toDigits x.digits
  have hne : Nat.toDigits 10 x.digits ≠ [] := Nat.toDigits_ne_nil
  rw [Scaled.value, ← Nat.ofDigitChars_ten_toDigits (n := x.digits)]
  unfold Scaled.positional
  simp only [toList_toString]
  generalize Nat.toDigits 10 x.digits = ds at *
  generalize x.exponent = exponent
  split
  · rename_i hexponent
    obtain ⟨places, rfl⟩ := Int.eq_ofNat_of_zero_le hexponent
    have htext : (String.ofList ds ++ zeros (places : Int).toNat ++ ".0").toList =
        ds ++ List.replicate places '0' ++ '.' :: (['0'] ++ []) := by
      simp [zeros]
    have hvalue : (Nat.ofDigitChars 10 ds 0 : ℚ) * 10 ^ (places : Int) =
        Nat.ofDigitChars 10 (ds ++ List.replicate places '0' ++ ['0']) 0 *
          10 ^ ((0 : Int) - ['0'].length) := by
      rw [show ['0'] = List.replicate 1 '0' from rfl, ofDigitChars_append_zeros,
        ofDigitChars_append_zeros]
      simp
    rw [htext, hvalue]
    exact .point (by simp [hne]) (hdigits.append (digits_zeros places)) digits_zero .none
  · rename_i hexponent
    split
    · rename_i hwhole
      generalize hcount : (ds.length + exponent).toNat = whole at hwhole ⊢
      have htext : (String.ofList (ds.take whole) ++ "." ++ String.ofList (ds.drop whole)).toList =
          ds.take whole ++ '.' :: (ds.drop whole ++ []) := by
        simp
      have hvalue : (Nat.ofDigitChars 10 ds 0 : ℚ) * 10 ^ exponent =
          Nat.ofDigitChars 10 (ds.take whole ++ ds.drop whole) 0 *
            10 ^ (0 - ((ds.drop whole).length : Int)) := by
        rw [List.take_append_drop, List.length_drop]
        congr 2
        omega
      rw [htext, hvalue]
      refine .point ?_ (fun c hc => hdigits c (List.mem_of_mem_take hc))
        (fun c hc => hdigits c (List.mem_of_mem_drop hc)) .none
      rw [Ne, List.take_eq_nil_iff]
      rintro (hzero | hnil)
      · omega
      · exact hne hnil
    · rename_i hwhole
      generalize hcount : (-(ds.length + exponent)).toNat = count
      have htext : ("0." ++ zeros count ++ String.ofList ds).toList =
          ['0'] ++ '.' :: (List.replicate count '0' ++ ds ++ []) := by
        simp [zeros]
      have hvalue : (Nat.ofDigitChars 10 ds 0 : ℚ) * 10 ^ exponent =
          Nat.ofDigitChars 10 (['0'] ++ (List.replicate count '0' ++ ds)) 0 *
            10 ^ (0 - ((List.replicate count '0' ++ ds).length : Int)) := by
        rw [show ['0'] = List.replicate 1 '0' from rfl, ofDigitChars_zeros_append,
          ofDigitChars_zeros_append, List.length_append, List.length_replicate]
        congr 2
        omega
      rw [htext, hvalue]
      exact .point (by simp) digits_zero ((digits_zeros count).append hdigits) .none

def exponentText (first : Int) : List Char :=
  'e' :: (if 0 ≤ first then '+' else '-') :: Nat.toDigits 10 first.natAbs

theorem writesExponent_exponentText (first : Int) : WritesExponent (exponentText first) first := by
  have hdigits := digits_toDigits first.natAbs
  have hvalue : Nat.ofDigitChars 10 (Nat.toDigits 10 first.natAbs) 0 = first.natAbs :=
    Nat.ofDigitChars_ten_toDigits
  unfold exponentText
  split
  · rename_i hsign
    have h := WritesExponent.up hdigits
    rw [hvalue, Int.natAbs_of_nonneg hsign] at h
    exact h
  · rename_i hsign
    have h := WritesExponent.down hdigits
    rw [hvalue, show -(first.natAbs : Int) = first by omega] at h
    exact h

theorem toList_scientific {x : Scaled} {digit : Char} {rest : List Char}
    (h : Nat.toDigits 10 x.digits = digit :: rest) (first : Int) :
    (x.scientific first).toList =
      digit :: ((if rest = [] then [] else '.' :: rest) ++ exponentText first) := by
  have hsign : (if 0 ≤ first then "e+" else "e-").toList = ['e', if 0 ≤ first then '+' else '-'] := by
    split <;> rfl
  unfold Scaled.scientific exponentText
  rw [String.toList_append, String.toList_append, hsign, toList_toString, toList_toString, h]
  cases rest <;> simp

theorem writes_scientific (x : Scaled) :
    Writes (x.scientific (x.exponent + (toString x.digits).length - 1)).toList x.value := by
  have hdigits := digits_toDigits x.digits
  have htail := writesExponent_exponentText (x.exponent + (toString x.digits).length - 1)
  have hlength : (toString x.digits).length = (Nat.toDigits 10 x.digits).length := by
    rw [← String.length_toList, toList_toString]
  have hvalue : (Nat.ofDigitChars 10 (Nat.toDigits 10 x.digits) 0 : ℚ) = x.digits := by
    rw [Nat.ofDigitChars_ten_toDigits]
  rw [Scaled.value, ← hvalue]
  cases hchars : Nat.toDigits 10 x.digits with
  | nil => exact absurd hchars Nat.toDigits_ne_nil
  | cons digit rest =>
    rw [hchars] at hdigits hlength
    rw [toList_scientific hchars]
    have hdigit := hdigits digit List.mem_cons_self
    split
    · rename_i hrest
      have hfirst : x.exponent + (toString x.digits).length - 1 = x.exponent := by
        rw [hlength, hrest]
        simp
      rw [hfirst] at htail
      rw [hfirst, hrest]
      exact .single hdigit (List.cons_ne_nil _ _) htail
    · have hplaces : x.exponent + (toString x.digits).length - 1 - rest.length = x.exponent := by
        rw [hlength, List.length_cons]
        omega
      have h : Writes ([digit] ++ '.' :: (rest ++ _)) _ :=
        .point (List.cons_ne_nil _ _) (fun c hc => List.mem_singleton.mp hc ▸ hdigit)
          (fun c hc => hdigits c (List.mem_cons_of_mem _ hc)) htail
      rw [hplaces] at h
      exact h

/-- The number that the text of a double stands for. -/
def Binary64.decimal (x : Binary64) : ℚ := if x = .zero then 0 else x.shortest.value

theorem writes_text (layout : Layout) (x : Binary64) : Writes (layout.text x).toList x.decimal := by
  unfold Layout.text Binary64.decimal
  split
  · have h : Writes (['0'] ++ '.' :: (['0'] ++ [])) _ :=
      .point (List.cons_ne_nil _ _) digits_zero digits_zero .none
    rw [show Nat.ofDigitChars 10 (['0'] ++ ['0']) 0 = 0 from rfl, Nat.cast_zero, zero_mul] at h
    exact h
  · simp only
    split
    · exact writes_positional x.shortest
    · exact writes_scientific x.shortest

theorem Binary64.decimal_injective {x y : Binary64} (h : x.decimal = y.decimal) : x = y := by
  unfold Binary64.decimal at h
  split at h
  · rename_i hx
    split at h
    · rename_i hy
      exact hx.trans hy.symm
    · rename_i hy
      exact absurd h (Binary64.shortest_value_pos hy).ne
  · rename_i hx
    split at h
    · exact absurd h (Binary64.shortest_value_pos hx).ne'
    · rename_i hy
      exact Binary64.eq_of_shortest hx hy h

theorem Layout.text_injective (layout : Layout) {x y : Binary64}
    (h : (layout.text x).toList = (layout.text y).toList) : x = y := by
  apply Binary64.decimal_injective
  rw [← readNumber_eq (writes_text layout x), h, readNumber_eq (writes_text layout y)]

/-! ## Characters -/

abbrev NumberChar (c : Char) : Prop := c.isDigit = true ∨ c = '+' ∨ c = '-' ∨ c = '.' ∨ c = 'e'

theorem Writes.exists_mark {cs : List Char} {q : ℚ} (h : Writes cs q) :
    ∃ c ∈ cs, c.isDigit = false := by
  cases h with
  | point =>
    exact ⟨'.', by simp, by decide⟩
  | single _ hne htail =>
    cases htail with
    | none => exact absurd rfl hne
    | up => exact ⟨'e', by simp, by decide⟩
    | down => exact ⟨'e', by simp, by decide⟩

theorem Writes.eq_cons {cs : List Char} {q : ℚ} (h : Writes cs q) :
    ∃ c rest, cs = c :: rest ∧ c.isDigit = true := by
  cases h with
  | @point whole _ _ _ hne hwhole =>
    cases whole with
    | nil => exact absurd rfl hne
    | cons c whole => exact ⟨c, _, rfl, hwhole c List.mem_cons_self⟩
  | single hdigit => exact ⟨_, _, rfl, hdigit⟩

theorem WritesExponent.numberChar {cs : List Char} {e : Int} (h : WritesExponent cs e) :
    ∀ c ∈ cs, NumberChar c := by
  intro c hc
  unfold NumberChar
  cases h with
  | none => cases hc
  | up hdigits =>
    rcases List.mem_cons.mp hc with rfl | hc
    · simp
    · rcases List.mem_cons.mp hc with rfl | hc
      · simp
      · exact Or.inl (hdigits c hc)
  | down hdigits =>
    rcases List.mem_cons.mp hc with rfl | hc
    · simp
    · rcases List.mem_cons.mp hc with rfl | hc
      · simp
      · exact Or.inl (hdigits c hc)

theorem Writes.numberChar {cs : List Char} {q : ℚ} (h : Writes cs q) : ∀ c ∈ cs, NumberChar c := by
  intro c hc
  cases h with
  | point _ hwhole hfraction htail =>
    rcases List.mem_append.mp hc with hc | hc
    · exact Or.inl (hwhole c hc)
    · rcases List.mem_cons.mp hc with rfl | hc
      · simp [NumberChar]
      · rcases List.mem_append.mp hc with hc | hc
        · exact Or.inl (hfraction c hc)
        · exact htail.numberChar c hc
  | single hdigit _ htail =>
    rcases List.mem_cons.mp hc with rfl | hc
    · exact Or.inl hdigit
    · exact htail.numberChar c hc

end RecordConsole.Decimal
