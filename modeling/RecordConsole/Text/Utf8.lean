/-!
UTF-8 texts in bytes. Core decides whether bytes are well formed; this module says where the first
fault lies and how many bytes it spans.
-/
namespace RecordConsole.Text

/-- The first place where bytes stop being UTF-8: `offset` bytes are well formed, and then come
`length` bytes that start no character, or the bytes end inside a character if there is none. -/
structure Utf8Fault where
  offset : Nat
  length : Option Nat
deriving DecidableEq, Repr

/-- A character of several bytes of which `taken` are read: the next byte lies between `low` and
`high`, and `more` continuation bytes come after it. -/
structure OpenChar where
  taken : Nat
  low : UInt8
  high : UInt8
  more : Nat

/-- The character that a byte from 128 on opens. The range of the second byte leaves out overlong
forms, surrogates and code points that are too large. -/
def OpenChar.start? (b : UInt8) : Option OpenChar :=
  if 0xC2 ≤ b && b ≤ 0xDF then some ⟨1, 0x80, 0xBF, 0⟩
  else if b = 0xE0 then some ⟨1, 0xA0, 0xBF, 1⟩
  else if b = 0xED then some ⟨1, 0x80, 0x9F, 1⟩
  else if 0xE1 ≤ b && b ≤ 0xEF then some ⟨1, 0x80, 0xBF, 1⟩
  else if b = 0xF0 then some ⟨1, 0x90, 0xBF, 2⟩
  else if b = 0xF4 then some ⟨1, 0x80, 0x8F, 2⟩
  else if 0xF1 ≤ b && b ≤ 0xF3 then some ⟨1, 0x80, 0xBF, 2⟩
  else none

def utf8FaultFrom (offset : Nat) : Option OpenChar → List UInt8 → Option Utf8Fault
  | none, [] => none
  | some _, [] => some ⟨offset, none⟩
  | none, b :: rest =>
    if b < 0x80 then utf8FaultFrom (offset + 1) none rest
    else match OpenChar.start? b with
      | none => some ⟨offset, some 1⟩
      | some char => utf8FaultFrom offset (some char) rest
  | some char, b :: rest =>
    if char.low ≤ b && b ≤ char.high then
      match char.more with
      | 0 => utf8FaultFrom (offset + char.taken + 1) none rest
      | more + 1 => utf8FaultFrom offset (some ⟨char.taken + 1, 0x80, 0xBF, more⟩) rest
    else some ⟨offset, some char.taken⟩

def utf8Fault? (bytes : ByteArray) : Option Utf8Fault :=
  utf8FaultFrom 0 none bytes.data.toList

def decodeUtf8 (bytes : ByteArray) : Except Utf8Fault String :=
  match String.fromUTF8? bytes with
  | some text => .ok text
  | none => .error ((utf8Fault? bytes).getD ⟨bytes.size, none⟩)

def Utf8Fault.message (fault : Utf8Fault) : String :=
  match fault.length with
  | some length =>
    "invalid utf-8 sequence of " ++ toString length ++ " bytes from index " ++ toString fault.offset
  | none => "incomplete utf-8 byte sequence from index " ++ toString fault.offset

end RecordConsole.Text
