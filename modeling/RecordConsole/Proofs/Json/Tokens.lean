import RecordConsole.Json.Printer
import RecordConsole.Json.Reader
import RecordConsole.Proofs.Utf8

/-! Printed tokens read back: the characters of a string with their escapes, and the digits of an
integer. Printed text is a list of characters here, and the reader sees the bytes of it. -/
namespace RecordConsole

namespace Json.Reader

open Text (encode byte)

theorem toNat_ascii (b : UInt8) : (ascii b).toNat = b.toNat := by
  have hvalid : b.toNat.isValidChar := Or.inl (by have := b.toNat_lt; omega)
  rw [ascii, Char.ofNat, dif_pos hvalid]
  rfl

theorem ascii_byte {c : Char} (h : c.toNat < 128) : ascii (byte c) = c := by
  have hbyte : (byte c).toNat = c.toNat := by
    simp [byte]
    omega
  rw [ascii, hbyte, Char.ofNat_toNat]

/-! ## Strings -/

theorem stringRest_plain {bytes : List UInt8}
    (h : ∀ b ∈ bytes, ascii b ≠ '"' ∧ ascii b ≠ '\\' ∧ ¬ b < 0x20) (fuel : Nat)
    (taken s : List UInt8) :
    stringRest (bytes.length + fuel) taken (bytes ++ s) =
      stringRest fuel (bytes.reverse ++ taken) s := by
  induction bytes generalizing taken with
  | nil => simp
  | cons b bytes ih =>
    obtain ⟨hquote, hslash, hcontrol⟩ := h b List.mem_cons_self
    rw [List.length_cons, Nat.add_right_comm, List.cons_append, stringRest]
    simp only [hcontrol, if_false, ih fun b hb => h b (List.mem_cons_of_mem _ hb),
      List.reverse_cons, List.append_assoc, List.singleton_append]

theorem le_of_mem_utf8EncodeChar {c : Char} (h : 128 ≤ c.toNat) {b : UInt8}
    (hb : b ∈ String.utf8EncodeChar c) : 128 ≤ b.toNat := by
  have hc := Text.val_lt c
  have hsmall : ¬ c.val.toNat ≤ 0x7f := Nat.not_le.mpr h
  simp only [String.utf8EncodeChar, hsmall, if_false] at hb
  split at hb
  · simp only [List.mem_cons, List.not_mem_nil, or_false] at hb
    rcases hb with rfl | rfl <;> rw [UInt8.toNat_ofNat'] <;> omega
  · split at hb
    · simp only [List.mem_cons, List.not_mem_nil, or_false] at hb
      rcases hb with rfl | rfl | rfl <;> rw [UInt8.toNat_ofNat'] <;> omega
    · simp only [List.mem_cons, List.not_mem_nil, or_false] at hb
      rcases hb with rfl | rfl | rfl | rfl <;> rw [UInt8.toNat_ofNat'] <;> omega

theorem plain_of_mem_utf8EncodeChar {c : Char} (hquote : c ≠ '"') (hslash : c ≠ '\\')
    (hcontrol : ¬ c.toNat < 32) {b : UInt8} (hb : b ∈ String.utf8EncodeChar c) :
    ascii b ≠ '"' ∧ ascii b ≠ '\\' ∧ ¬ b < 0x20 := by
  rw [UInt8.lt_iff_toNat_lt]
  by_cases hc : c.toNat < 128
  · rw [Text.utf8EncodeChar_of_ascii hc, List.mem_singleton] at hb
    rw [← toNat_ascii, hb, ascii_byte hc]
    exact ⟨hquote, hslash, hcontrol⟩
  · have hbyte := le_of_mem_utf8EncodeChar (Nat.not_lt.mp hc) hb
    rw [← toNat_ascii] at hbyte ⊢
    refine ⟨?_, ?_, ?_⟩
    · rintro heq
      exact absurd hbyte (by rw [heq]; decide)
    · rintro heq
      exact absurd hbyte (by rw [heq]; decide)
    · exact Nat.not_lt.mpr (Nat.le_trans (by decide) hbyte)

theorem hexValue?_hexDigit : ∀ n < 16, hexValue? (byte (hexDigit n)) = some n := by decide

theorem toNat_hexDigit_lt : ∀ n < 16, (hexDigit n).toNat < 128 := by decide

theorem codeUnit_control {n : Nat} (h : n < 256) (s : List UInt8) :
    codeUnit (byte '0' :: byte '0' :: byte (hexDigit (n / 16)) :: byte (hexDigit (n % 16)) :: s) =
      .ok (n, s) := by
  have hzero : hexValue? (byte '0') = some 0 := by decide
  simp only [codeUnit, hzero, hexValue?_hexDigit (n / 16) (by omega),
    hexValue?_hexDigit (n % 16) (by omega)]
  congr 2
  omega

theorem escaped_control {c : Char} (h : c.toNat < 32) (s : List UInt8) :
    escaped (encode ['u', '0', '0', hexDigit (c.toNat / 16), hexDigit (c.toNat % 16)] ++ s) =
      .ok (c, s) := by
  have hunit := codeUnit_control (show c.toNat < 256 by omega) s
  have hbytes : encode ['u', '0', '0', hexDigit (c.toNat / 16), hexDigit (c.toNat % 16)] =
      [byte 'u', byte '0', byte '0', byte (hexDigit (c.toNat / 16)),
        byte (hexDigit (c.toNat % 16))] := by
    rw [Text.encode_cons_ascii (by decide), Text.encode_cons_ascii (by decide),
      Text.encode_cons_ascii (by decide),
      Text.encode_cons_ascii (toNat_hexDigit_lt _ (by omega)),
      Text.encode_cons_ascii (toNat_hexDigit_lt _ (by omega)), Text.encode_nil]
  have hlow : ¬ 0xDC00 ≤ c.toNat := by omega
  have hhigh : ¬ 0xD800 ≤ c.toNat := by omega
  rw [hbytes]
  simp only [List.cons_append, List.nil_append, escaped, ascii_byte (show 'u'.toNat < 128 by decide),
    codePoint, hunit, andThen, hlow, hhigh, false_and, if_false, Char.ofNat_toNat]

/-- A character is written with a backslash and read back, or is written as it is. -/
theorem escape_cases (c : Char) :
    (∃ body, escape c = '\\' :: body ∧ ∀ s, escaped (encode body ++ s) = .ok (c, s)) ∨
      escape c = [c] ∧ c ≠ '"' ∧ c ≠ '\\' ∧ ¬ c.toNat < 32 := by
  unfold escape
  split
  · rename_i h
    exact Or.inl ⟨['"'], rfl, fun s => by rw [h]; rfl⟩
  rename_i hquote
  split
  · rename_i h
    exact Or.inl ⟨['\\'], rfl, fun s => by rw [h]; rfl⟩
  rename_i hslash
  split
  · rename_i h
    exact Or.inl ⟨['n'], rfl, fun s => by rw [h]; rfl⟩
  split
  · rename_i h
    exact Or.inl ⟨['t'], rfl, fun s => by rw [h]; rfl⟩
  split
  · rename_i h
    exact Or.inl ⟨['r'], rfl, fun s => by rw [h]; rfl⟩
  split
  · rename_i h
    exact Or.inl ⟨['b'], rfl, fun s => by rw [← Char.ofNat_toNat c, h]; rfl⟩
  split
  · rename_i h
    exact Or.inl ⟨['f'], rfl, fun s => by rw [← Char.ofNat_toNat c, h]; rfl⟩
  split
  · rename_i h
    exact Or.inl ⟨_, rfl, escaped_control h⟩
  · rename_i hcontrol
    exact Or.inr ⟨rfl, hquote, hslash, hcontrol⟩

theorem stringRest_escape (c : Char) {fuel : Nat}
    (hfuel : (encode (escape c)).length ≤ fuel) (taken s : List UInt8) :
    ∃ left, fuel ≤ left + (encode (escape c)).length ∧
      stringRest fuel taken (encode (escape c) ++ s) =
        stringRest left ((String.utf8EncodeChar c).reverse ++ taken) s := by
  rcases escape_cases c with ⟨body, hbody, hread⟩ | ⟨hplain, hquote, hslash, hcontrol⟩
  · rw [hbody, Text.encode_cons_ascii (by decide)] at hfuel ⊢
    obtain ⟨left, rfl⟩ := Nat.exists_eq_add_of_le' (Nat.le_trans (Nat.le_add_left 1 _) hfuel)
    refine ⟨left, by simp only [List.length_cons]; omega, ?_⟩
    simp only [List.cons_append, stringRest, ascii_byte (show '\\'.toNat < 128 by decide), hread,
      andThen]
  · rw [hplain, Text.encode_cons, Text.encode_nil, List.append_nil] at hfuel ⊢
    obtain ⟨left, rfl⟩ := Nat.exists_eq_add_of_le hfuel
    exact ⟨left, by omega,
      stringRest_plain (fun b => plain_of_mem_utf8EncodeChar hquote hslash hcontrol) left taken s⟩

theorem stringRest_quote (fuel : Nat) (cs : List Char) (s : List UInt8) :
    stringRest (fuel + 1) (encode cs).reverse (byte '"' :: s) = .ok (String.ofList cs, s) := by
  simp only [stringRest, ascii_byte (show '"'.toNat < 128 by decide), List.reverse_reverse,
    Text.decodeUtf8_encode]

/-- The rest of a printed string is read back, with fuel for each of its bytes and its quote. -/
theorem stringRest_escaped (cs taken : List Char) {fuel : Nat}
    (hfuel : (encode (cs.flatMap escape)).length < fuel) (s : List UInt8) :
    stringRest fuel (encode taken).reverse (encode (cs.flatMap escape ++ ['"']) ++ s) =
      .ok (String.ofList (taken ++ cs), s) := by
  induction cs generalizing fuel taken with
  | nil =>
    obtain ⟨left, rfl⟩ := Nat.exists_eq_add_of_lt hfuel
    rw [List.append_nil]
    exact stringRest_quote _ taken s
  | cons c cs ih =>
    rw [List.flatMap_cons, Text.encode_append, List.length_append] at hfuel
    obtain ⟨left, hleft, hread⟩ := @stringRest_escape c fuel (by omega)
      (encode taken).reverse (encode (cs.flatMap escape ++ ['"']) ++ s)
    have htaken : (String.utf8EncodeChar c).reverse ++ (encode taken).reverse =
        (encode (taken ++ [c])).reverse := by
      rw [Text.encode_append, List.reverse_append, Text.encode_cons, Text.encode_nil,
        List.append_nil]
    rw [List.flatMap_cons, List.append_assoc, Text.encode_append, List.append_assoc, hread, htaken,
      ih (taken ++ [c]) (by omega), List.append_assoc]
    rfl

/-! ## Numbers -/

/-- Bytes that go on with no digit, point or exponent. -/
def Ends (s : List UInt8) : Prop :=
  ∀ b rest, s = b :: rest → isDigit b = false ∧ ascii b ≠ '.' ∧ isExponentMark b = false

theorem toNat_lt_of_isDigit {c : Char} (h : c.isDigit = true) : c.toNat < 128 := by
  exact Nat.lt_of_le_of_lt (Char.isDigit_iff_toNat.mp h).2 (by decide)

theorem isDigit_byte {c : Char} (h : c.isDigit = true) : isDigit (byte c) = true := by
  rw [isDigit, ascii_byte (toNat_lt_of_isDigit h), h]

theorem digit_byte {c : Char} (h : c.isDigit = true) : digit (byte c) = c.toNat - 48 := by
  rw [digit, ← toNat_ascii, ascii_byte (toNat_lt_of_isDigit h)]

theorem le_ofDigitChars (cs : List Char) (n : Nat) : n ≤ Nat.ofDigitChars 10 cs n := by
  induction cs generalizing n with
  | nil => simp
  | cons c cs ih =>
    rw [Nat.ofDigitChars_cons]
    exact Nat.le_trans (by omega) (ih _)

theorem appendDigits_ends {s : List UInt8} (h : Ends s) (n : Nat) :
    appendDigits n s = (n, s) := by
  cases s with
  | nil => rfl
  | cons b rest => simp [appendDigits, (h b rest rfl).1]

theorem appendDigits_encode {cs : List Char} (hcs : ∀ c ∈ cs, c.isDigit = true) {n : Nat}
    (hword : Nat.ofDigitChars 10 cs n < Text.wordLimit) {s : List UInt8} (hs : Ends s) :
    appendDigits n (encode cs ++ s) = (Nat.ofDigitChars 10 cs n, s) := by
  induction cs generalizing n with
  | nil =>
    rw [Nat.ofDigitChars_nil]
    exact appendDigits_ends hs n
  | cons c cs ih =>
    have hc := hcs c List.mem_cons_self
    rw [Nat.ofDigitChars_cons] at hword ⊢
    have hstep : 10 * n + digit (byte c) < Text.wordLimit := by
      rw [digit_byte hc]
      exact Nat.lt_of_le_of_lt (le_ofDigitChars cs _) hword
    rw [Text.encode_cons_ascii (toNat_lt_of_isDigit hc), List.cons_append, appendDigits]
    simp only [isDigit_byte hc, hstep, decide_true, Bool.and_self, if_true]
    rw [digit_byte hc]
    exact ih (fun d hd => hcs d (List.mem_cons_of_mem _ hd)) hword

theorem numberTail_ends (negative : Bool) (n : Nat) {s : List UInt8} (hs : Ends s) :
    numberTail negative n 0 s = .ok (.ofDigits negative n, s) := by
  cases s with
  | nil => simp [numberTail]
  | cons b rest =>
    obtain ⟨-, hpoint, hmark⟩ := hs b rest rfl
    simp [numberTail, hpoint, hmark]

theorem dropWhile_ends {s : List UInt8} (hs : Ends s) : s.dropWhile isDigit = s := by
  cases s with
  | nil => rfl
  | cons b rest => simp [(hs b rest rfl).1]

theorem digitCount_ends {s : List UInt8} (hs : Ends s) : digitCount s = 0 := by
  cases s with
  | nil => rfl
  | cons b rest => simp [digitCount, (hs b rest rfl).1]

theorem toDigits_eq_cons (n : Nat) :
    ∃ c cs, Nat.toDigits 10 n = c :: cs ∧ c.isDigit = true ∧ (0 < n → c ≠ '0') := by
  induction n using Nat.strongRecOn with
  | ind n ih =>
    by_cases hsmall : n < 10
    · refine ⟨n.digitChar, [], Nat.toDigits_of_lt_base hsmall, ?_, ?_⟩
      · rw [Nat.isDigit_digitChar, decide_eq_true hsmall]
      · intro hpos
        rw [Ne, Nat.digitChar_eq_zero]
        omega
    · obtain ⟨c, cs, hcs, hdigit, hne⟩ := ih (n / 10) (by omega)
      refine ⟨c, cs ++ [(n % 10).digitChar], ?_, hdigit, fun _ => hne (by omega)⟩
      rw [Nat.toDigits_of_base_le (by decide) (by omega), hcs, List.cons_append]

theorem number_encode (negative : Bool) {n : Nat} (hn : n < Text.wordLimit) {s : List UInt8}
    (hs : Ends s) :
    number negative (encode (Nat.toDigits 10 n) ++ s) = .ok (.ofDigits negative n, s) := by
  rcases Nat.eq_zero_or_pos n with rfl | hpos
  · rw [Nat.toDigits_zero, Text.encode_cons_ascii (by decide), Text.encode_nil]
    simp only [List.cons_append, List.nil_append, number,
      ascii_byte (show '0'.toNat < 128 by decide), if_true]
    cases s with
    | nil => exact numberTail_ends negative 0 hs
    | cons b rest =>
      simp only [(hs b rest rfl).1]
      exact numberTail_ends negative 0 hs
  · obtain ⟨c, cs, hcs, hdigit, hnonzero⟩ := toDigits_eq_cons n
    have hne := hnonzero hpos
    have hvalue : Nat.ofDigitChars 10 cs (c.toNat - 48) = n := by
      have := Nat.ofDigitChars_ten_toDigits (n := n)
      rw [hcs, Nat.ofDigitChars_cons] at this
      simpa using this
    have hdigits : ∀ d ∈ cs, d.isDigit = true := fun d hd =>
      Nat.isDigit_of_mem_toDigits (b := 10) (n := n) (by decide) (by decide)
        (hcs ▸ List.mem_cons_of_mem _ hd)
    rw [hcs, Text.encode_cons_ascii (toNat_lt_of_isDigit hdigit)]
    simp only [List.cons_append, number, ascii_byte (toNat_lt_of_isDigit hdigit), hne, if_false,
      isDigit_byte hdigit, if_true, digit_byte hdigit]
    rw [appendDigits_encode hdigits (by rw [hvalue]; exact hn) hs]
    simp only [digitCount_ends hs, dropWhile_ends hs, hvalue]
    exact numberTail_ends negative n hs

end Json.Reader
end RecordConsole
