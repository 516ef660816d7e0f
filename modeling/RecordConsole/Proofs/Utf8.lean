import RecordConsole.Table
import RecordConsole.Text.Utf8

/-! Texts and their bytes. The bytes of a text decode to it again, and texts are ordered as their
bytes are. -/
namespace RecordConsole.Text

def encode (cs : List Char) : List UInt8 := cs.flatMap String.utf8EncodeChar

def byte (c : Char) : UInt8 := c.toNat.toUInt8

theorem toUTF8_eq_encode (text : String) : text.toUTF8.data.toList = encode text.toList := by
  rw [String.toUTF8_eq_toByteArray, ← String.utf8Encode_toList]
  simp [List.utf8Encode, encode, List.data_toByteArray]

theorem encode_nil : encode [] = [] := rfl

theorem encode_append (cs others : List Char) : encode (cs ++ others) = encode cs ++ encode others :=
  List.flatMap_append

theorem encode_cons (c : Char) (cs : List Char) :
    encode (c :: cs) = String.utf8EncodeChar c ++ encode cs := rfl

theorem utf8EncodeChar_of_ascii {c : Char} (h : c.toNat < 128) :
    String.utf8EncodeChar c = [byte c] := by
  have hsize : c.utf8Size = 1 := by
    rw [Char.utf8Size_eq_one_iff, UInt32.le_iff_toNat_le]
    exact Nat.le_of_lt_succ h
  rw [String.utf8EncodeChar_eq_singleton hsize]
  rfl

theorem encode_cons_ascii {c : Char} (h : c.toNat < 128) (cs : List Char) :
    encode (c :: cs) = byte c :: encode cs := by
  rw [encode_cons, utf8EncodeChar_of_ascii h]
  rfl

theorem decodeUtf8_encode (cs : List Char) :
    decodeUtf8 ⟨(encode cs).toArray⟩ = .ok (String.ofList cs) := by
  have hbytes : (⟨(encode cs).toArray⟩ : ByteArray) = (String.ofList cs).toByteArray := by
    rw [String.toByteArray_ofList]
    ext1
    simp [List.utf8Encode, encode]
  unfold decodeUtf8 String.fromUTF8?
  rw [hbytes, dif_pos (String.ofList cs).isValidUTF8]
  rfl

/-! ## Order -/

theorem val_lt (c : Char) : c.val.toNat < 1114112 := by
  rcases c.valid with hlow | ⟨-, hhigh⟩
  · exact Nat.lt_trans hlow (by decide)
  · exact hhigh

private theorem toNat_ofNat_of_lt {n : Nat} (h : n < 256) : (UInt8.ofNat n).toNat = n := by
  rw [UInt8.toNat_ofNat', Nat.mod_eq_of_lt h]

/-- Of two characters the smaller one has the smaller bytes, whatever comes after them: a longer
encoding begins with a larger byte, and within one length the bytes are digits of the code point. -/
theorem utf8EncodeChar_append_lt {c d : Char} (h : c < d) (bytes others : List UInt8) :
    String.utf8EncodeChar c ++ bytes < String.utf8EncodeChar d ++ others := by
  have hlt : c.val.toNat < d.val.toNat := h
  have hd := val_lt d
  have twice (n : Nat) : n / 4096 = n / 64 / 64 := by omega
  have thrice (n : Nat) : n / 262144 = n / 64 / 64 / 64 := by omega
  unfold String.utf8EncodeChar
  generalize c.val.toNat = m at hlt ⊢
  generalize d.val.toNat = n at hlt hd ⊢
  dsimp only
  split <;> rename_i hm <;> repeat' split
  all_goals
    simp (disch := omega) only [List.cons_append, List.cons_lt_cons_iff, UInt8.lt_iff_toNat_lt,
      ← UInt8.toNat_inj, toNat_ofNat_of_lt, twice, thrice]
    omega

theorem encode_lt {cs others : List Char} (h : cs < others) : encode cs < encode others := by
  induction h with
  | nil =>
    rename_i c rest
    cases hbytes : encode (c :: rest) with
    | nil => simp [encode_cons] at hbytes
    | cons b bytes => exact List.nil_lt_cons b bytes
  | rel hlt => exact utf8EncodeChar_append_lt hlt _ _
  | cons _ ih => exact List.append_left_lt ih

/-- Texts stand in the order of their UTF-8 bytes. -/
theorem lt_iff_bytes_lt {text other : String} :
    text < other ↔ text.toUTF8.data.toList < other.toUTF8.data.toList := by
  rw [toUTF8_eq_encode, toUTF8_eq_encode]
  constructor
  · intro h
    exact encode_lt h
  · intro h
    refine Decidable.byContradiction fun hnlt => ?_
    by_cases heq : text = other
    · exact List.lt_irrefl _ (heq ▸ h)
    · exact List.lt_asymm h (encode_lt (lt_of_not_lt_of_ne hnlt heq))

end RecordConsole.Text
