import RecordConsole.Proofs.Decimal.Written
import RecordConsole.Proofs.Json.RoundTrip
import RecordConsole.Proofs.Json.Unambiguous

/-! A dump tells everything about a value down to its depth, and nothing about what lies below. -/
namespace RecordConsole.Json

/-! ## Numbers -/

namespace Number

def negative : Number → Bool
  | .integer n _ => n < 0
  | .float negative _ => negative

def unsigned : Number → List Char
  | .integer n _ => Nat.toDigits 10 n.natAbs
  | .float _ magnitude => (layout.text magnitude).toList

theorem toList_text (n : Number) :
    n.text.toList = (if n.negative then ['-'] else []) ++ n.unsigned := by
  cases n with
  | integer n fits =>
    rw [Reader.toList_text_integer, negative, unsigned]
    by_cases hn : n < 0
    · simp [hn]
    · simp [hn]
  | float negative magnitude =>
    rw [text, String.toList_append]
    cases negative <;> rfl

theorem unsigned_eq_cons (n : Number) :
    ∃ c rest, n.unsigned = c :: rest ∧ c.isDigit = true := by
  cases n with
  | integer n _ =>
    obtain ⟨c, rest, heq, hdigit, -⟩ := Reader.toDigits_eq_cons n.natAbs
    exact ⟨c, rest, heq, hdigit⟩
  | float _ magnitude => exact (Decimal.writes_text layout magnitude).eq_cons

theorem numberChar_text (n : Number) : ∀ c ∈ n.text.toList, Decimal.NumberChar c := by
  intro c hc
  rw [toList_text] at hc
  rcases List.mem_append.mp hc with hc | hc
  · split at hc
    · cases List.mem_singleton.mp hc
      simp [Decimal.NumberChar]
    · cases hc
  · cases n with
    | integer n _ => exact Or.inl (Decimal.digits_toDigits n.natAbs c hc)
    | float _ magnitude => exact (Decimal.writes_text layout magnitude).numberChar c hc

theorem unsigned_injective {m n : Number} (hsign : m.negative = n.negative)
    (h : m.unsigned = n.unsigned) : m = n := by
  have hkinds (k : Int) (magnitude : Decimal.Binary64) :
      Nat.toDigits 10 k.natAbs ≠ (layout.text magnitude).toList := by
    intro heq
    obtain ⟨c, hc, hmark⟩ := (Decimal.writes_text layout magnitude).exists_mark
    rw [Decimal.digits_toDigits k.natAbs c (heq ▸ hc)] at hmark
    cases hmark
  cases m with
  | integer k fits =>
    cases n with
    | integer l fits' =>
      have hdigits : Nat.toDigits 10 k.natAbs = Nat.toDigits 10 l.natAbs := h
      have habs : k.natAbs = l.natAbs := by
        calc k.natAbs = Nat.ofDigitChars 10 (Nat.toDigits 10 k.natAbs) 0 :=
              Nat.ofDigitChars_ten_toDigits.symm
          _ = Nat.ofDigitChars 10 (Nat.toDigits 10 l.natAbs) 0 := by rw [hdigits]
          _ = l.natAbs := Nat.ofDigitChars_ten_toDigits
      have hsame : (k < 0) = (l < 0) := by simpa [negative] using hsign
      have hkl : k = l := by
        rcases Int.natAbs_eq_natAbs_iff.mp habs with heq | hneg
        · exact heq
        · rw [eq_iff_iff] at hsame
          omega
      subst hkl
      rfl
    | float _ magnitude => exact absurd h (hkinds k magnitude)
  | float sign magnitude =>
    cases n with
    | integer l _ => exact absurd h.symm (hkinds l magnitude)
    | float sign' magnitude' =>
      cases show sign = sign' from hsign
      cases Decimal.Layout.text_injective layout h
      rfl

theorem text_injective {m n : Number} (h : m.text.toList = n.text.toList) : m = n := by
  obtain ⟨c, rest, hm, hc⟩ := unsigned_eq_cons m
  obtain ⟨d, rest', hn, hd⟩ := unsigned_eq_cons n
  have hdash : ('-' : Char).isDigit = false := by decide
  rw [toList_text, toList_text] at h
  cases hsign : m.negative <;> cases hsign' : n.negative
  · exact unsigned_injective (hsign.trans hsign'.symm) (by simpa [hsign, hsign'] using h)
  · rw [hsign, hsign', hm] at h
    rw [(List.cons.inj h).1, hdash] at hc
    cases hc
  · rw [hsign, hsign', hn] at h
    rw [← (List.cons.inj h).1, hdash] at hd
    cases hd
  · exact unsigned_injective (hsign.trans hsign'.symm) (by simpa [hsign, hsign'] using h)

/-- What may follow a value is no character of a number. -/
theorem text_append_inj {m n : Number} {rest rest' : List Char} (hrest : Follows rest)
    (hrest' : Follows rest') (h : m.text.toList ++ rest = n.text.toList ++ rest') :
    m = n ∧ rest = rest' := by
  have hends : ∀ {cs : List Char}, Follows cs → ∀ c, cs.head? = some c →
      decide (Decimal.NumberChar c) = false := by
    intro cs hcs c hc
    rcases hcs c hc with rfl | rfl | rfl <;> decide
  have hchars (n : Number) : ∀ c ∈ n.text.toList, decide (Decimal.NumberChar c) = true :=
    fun c hc => decide_eq_true (numberChar_text n c hc)
  obtain ⟨htext, hsame⟩ :=
    run_append_inj (hchars m) (hchars n) (hends hrest) (hends hrest') h
  exact ⟨text_injective htext, hsame⟩

end Number

/-! ## Forms -/

/-- What the first characters of a text tell about the value. -/
inductive Form where
  | null
  | bool (b : Bool)
  | number
  | string
  | emptyArray
  | array
  | emptyObject
  | object
  | hiddenArray
  | hiddenObject
deriving DecidableEq

def Form.read : List Char → Form
  | 'n' :: _ => .null
  | 't' :: _ => .bool true
  | 'f' :: _ => .bool false
  | '[' :: ']' :: _ => .emptyArray
  | '[' :: 'A' :: _ => .hiddenArray
  | '[' :: 'O' :: _ => .hiddenObject
  | '[' :: _ => .array
  | '\x7b' :: '\x7d' :: _ => .emptyObject
  | '\x7b' :: _ => .object
  | c :: _ => if c = Dump.apostrophe then .string else .number
  | [] => .number

namespace Outline

def form : Outline → Form
  | .null => .null
  | .bool b => .bool b
  | .number _ => .number
  | .string _ => .string
  | .array [] => .emptyArray
  | .array (_ :: _) => .array
  | .object [] => .emptyObject
  | .object (_ :: _) => .object
  | .hiddenArray => .hiddenArray
  | .hiddenObject => .hiddenObject

theorem read_number {c : Char} (h : c.isDigit = true ∨ c = '-') (rest : List Char) :
    Form.read (c :: rest) = .number := by
  have hne {d : Char} (heq : c = d) (hd : ¬ (d.isDigit = true ∨ d = '-')) : False := hd (heq ▸ h)
  rw [Form.read, if_neg (fun heq => hne heq (by decide))]
  all_goals
    intros
    exact hne (by assumption) (by decide)

theorem read_wrapped (level : Nat) (part : String) (parts : List String) (rest : List Char) :
    Form.read ((Dump.wrapped "[" "]" level (part :: parts)).toList ++ rest) = .array ∧
      Form.read ((Dump.wrapped "\x7b" "\x7d" level (part :: parts)).toList ++ rest) = .object := by
  constructor
  · obtain ⟨broken, htext⟩ := Dump.toList_wrapped id "[" "]" level part parts
    rw [List.map_id] at htext
    rw [htext]
    cases broken <;> rfl
  · obtain ⟨broken, htext⟩ := Dump.toList_wrapped id "\x7b" "\x7d" level part parts
    rw [List.map_id] at htext
    rw [htext]
    cases broken <;> rfl

theorem read_text (level : Nat) (o : Outline) (rest : List Char) :
    Form.read ((text level o).toList ++ rest) = o.form := by
  cases o with
  | null =>
    rw [text]
    rfl
  | bool b =>
    rw [text]
    cases b <;> rfl
  | number n =>
    obtain ⟨c, digits, hchars, hdigit⟩ := Number.unsigned_eq_cons n
    rw [text, Number.toList_text, hchars]
    split
    · exact read_number (Or.inr rfl) _
    · exact read_number (Or.inl hdigit) _
  | string s =>
    rw [text, Dump.toList_quoted]
    rfl
  | array items =>
    cases items with
    | nil =>
      rw [text]
      rfl
    | cons o others =>
      rw [text]
      exact (read_wrapped level _ _ rest).1
  | object entries =>
    cases entries with
    | nil =>
      rw [text]
      rfl
    | cons entry others =>
      rw [text]
      exact (read_wrapped level _ _ rest).2
  | hiddenArray =>
    rw [text]
    rfl
  | hiddenObject =>
    rw [text]
    rfl

theorem form_eq {level : Nat} {o p : Outline} {rest rest' : List Char}
    (h : (text level o).toList ++ rest = (text level p).toList ++ rest') : p.form = o.form := by
  rw [← read_text level p rest', ← h, read_text]

/-! ## Values -/

theorem tells_of_form {level : Nat} {o : Outline}
    (ho : o = .null ∨ (∃ b, o = .bool b) ∨ o = .array [] ∨ o = .object [] ∨ o = .hiddenArray ∨
      o = .hiddenObject) : Tells (text level) o := by
  intro p rest rest' _ _ htext
  have hsame : o = p := by
    have hform := form_eq htext
    rcases ho with rfl | ⟨b, rfl⟩ | rfl | rfl | rfl | rfl
    all_goals
      unfold form at hform
      split at hform <;> first | cases hform; rfl | cases hform
  subst hsame
  exact ⟨rfl, List.append_cancel_left htext⟩

theorem parts_of_form (p : Outline) :
    (p.form = .number → ∃ n, p = .number n) ∧ (p.form = .string → ∃ s, p = .string s) ∧
      (p.form = .array → ∃ o others, p = .array (o :: others)) ∧
      (p.form = .object → ∃ entry others, p = .object (entry :: others)) := by
  unfold form
  split <;> simp

theorem tells_number (level : Nat) (n : Number) : Tells (text level) (.number n) := by
  intro p rest rest' hrest hrest' htext
  obtain ⟨m, rfl⟩ := (parts_of_form p).1 (form_eq htext)
  rw [text, text] at htext
  obtain ⟨rfl, hsame⟩ := Number.text_append_inj hrest hrest' htext
  exact ⟨rfl, hsame⟩

theorem tells_string (level : Nat) (s : String) : Tells (text level) (.string s) := by
  intro p rest rest' _ _ htext
  obtain ⟨t, rfl⟩ := (parts_of_form p).2.1 (form_eq htext)
  rw [text, text] at htext
  obtain ⟨rfl, hsame⟩ := Dump.quoted_append_inj htext
  exact ⟨rfl, hsame⟩

theorem tells_array {level : Nat} {o : Outline} {others : List Outline}
    (h : ∀ p ∈ o :: others, Tells (text (level + 1)) p) :
    Tells (text level) (.array (o :: others)) := by
  intro p rest rest' _ _ htext
  obtain ⟨q, more, rfl⟩ := (parts_of_form p).2.2.1 (form_eq htext)
  rw [text_array, text_array] at htext
  obtain ⟨hitems, hsame⟩ := Dump.wrapped_append_inj h htext
  exact ⟨congrArg Outline.array hitems, hsame⟩

theorem tells_entry {level : Nat} {name : String} {o : Outline} (h : Tells (text level) o) :
    Tells (entryText level) (name, o) := by
  rintro ⟨other, p⟩ rest rest' hrest hrest' htext
  have hspell (entry : String × Outline) (rest : List Char) :
      (entryText level entry).toList ++ rest =
        (Dump.key entry.1).toList ++ ':' :: ' ' :: ((text level entry.2).toList ++ rest) := by
    simp [entryText]
  rw [hspell, hspell] at htext
  obtain ⟨hname, hvalue⟩ := Dump.key_append_inj htext
  obtain ⟨rfl, hsame⟩ := h p rest rest' hrest hrest' (List.cons.inj hvalue).2
  exact ⟨congrArg (·, o) hname, hsame⟩

theorem tells_object {level : Nat} {entry : String × Outline} {others : List (String × Outline)}
    (h : ∀ part ∈ entry :: others, Tells (entryText (level + 1)) part) :
    Tells (text level) (.object (entry :: others)) := by
  intro p rest rest' _ _ htext
  obtain ⟨first, more, rfl⟩ := (parts_of_form p).2.2.2 (form_eq htext)
  rw [text_object, text_object] at htext
  obtain ⟨hentries, hsame⟩ := Dump.wrapped_append_inj h htext
  exact ⟨congrArg Outline.object hentries, hsame⟩

/-- Whatever may follow it, the text of an outline tells the outline. -/
theorem tells (o : Outline) : ∀ level, Tells (text level) o := by
  induction o using parts_induction with
  | null | bool | hiddenArray | hiddenObject => exact fun _ => tells_of_form (by simp)
  | number n => exact fun level => tells_number level n
  | string s => exact fun level => tells_string level s
  | array items ih =>
    intro level
    cases items with
    | nil => exact tells_of_form (by simp)
    | cons o others => exact tells_array fun p hp => ih p hp (level + 1)
  | object entries ih =>
    intro level
    cases entries with
    | nil => exact tells_of_form (by simp)
    | cons entry others => exact tells_object fun p hp => tells_entry (ih p hp (level + 1))

theorem text_injective {level : Nat} {o p : Outline} (h : text level o = text level p) : o = p := by
  refine (tells o level p [] [] follows_nil follows_nil ?_).1
  rw [h]

end Outline

/-- Values print alike exactly if they are alike down to the depth, and if one of them does not
reach below it they are the same. -/
theorem inspect_eq_iff (v w : Json) (depth : Nat) :
    (v.inspect depth = w.inspect depth ↔ v.outline depth = w.outline depth) ∧
      (v.depth ≤ depth + 1 → (v.inspect depth = w.inspect depth ↔ v = w)) := by
  have htext (u : Json) : u.inspect depth = (u.outline depth).text 0 :=
    (Outline.text_outlineAt depth 0 u).symm
  have hiff : v.inspect depth = w.inspect depth ↔ v.outline depth = w.outline depth := by
    rw [htext, htext]
    exact ⟨Outline.text_injective, fun h => congrArg (Outline.text 0) h⟩
  refine ⟨hiff, ?_⟩
  intro hdepth
  constructor
  · intro h
    exact eq_of_outlineAt hdepth (hiff.mp h)
  · intro h
    rw [h]

theorem inspect_ne_swapped :
    (Json.object [("a", .null), ("b", .null)]).depth ≤ 0 + 1 ∧
      (Json.object [("a", .null), ("b", .null)]).inspect 0 ≠
        (Json.object [("b", .null), ("a", .null)]).inspect 0 := by
  have hdepth : (Json.object [("a", .null), ("b", .null)]).depth ≤ 0 + 1 := by decide
  refine ⟨hdepth, ?_⟩
  intro h
  have hsame := ((inspect_eq_iff _ _ 0).2 hdepth).mp h
  simp at hsame

end RecordConsole.Json
