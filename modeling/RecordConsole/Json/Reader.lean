import RecordConsole.Entries
import RecordConsole.Json.Value
import RecordConsole.Text.Utf8

/-!
Reading JSON from bytes. A failure names its cause and where it was seen, as a line and a column
counted in bytes; of two faults the one met first decides. Steps return what they read and the bytes
after it, and the number of bytes left bounds their number.
-/
namespace RecordConsole.Json

inductive Flaw where
  | endInValue | endInList | endInObject | endInString
  | word | value | colon | listEnd | objectEnd | key
  | trailingComma | trailingCharacters
  | number | numberRange
  | escape | loneSurrogate | brokenSurrogate | controlCharacter | encoding
  | depth
deriving DecidableEq, Repr

def Flaw.text : Flaw → String
  | .endInValue => "EOF while parsing a value"
  | .endInList => "EOF while parsing a list"
  | .endInObject => "EOF while parsing an object"
  | .endInString => "EOF while parsing a string"
  | .word => "expected ident"
  | .value => "expected value"
  | .colon => "expected `:`"
  | .listEnd => "expected `,` or `]`"
  | .objectEnd => "expected `,` or `\x7d`"
  | .key => "key must be a string"
  | .trailingComma => "trailing comma"
  | .trailingCharacters => "trailing characters"
  | .number => "invalid number"
  | .numberRange => "number out of range"
  | .escape => "invalid escape"
  | .loneSurrogate => "lone leading surrogate in hex escape"
  | .brokenSurrogate => "unexpected end of hex escape"
  | .controlCharacter => "control character (\\u0000-\\u001F) found while parsing a string"
  | .encoding => "invalid unicode code point"
  | .depth => "recursion limit exceeded"

/-- Containers may be nested this deep. -/
def depthLimit : Nat := 127

namespace Reader

/-- A flaw, and how many bytes come after the place where it was seen. -/
structure Failure where
  flaw : Flaw
  left : Nat

abbrev Step (α : Type) := Except Failure (α × List UInt8)

variable {α β : Type}

def fail (flaw : Flaw) (rest : List UInt8) : Step α := .error ⟨flaw, rest.length⟩

def andThen (step : Step α) (next : α → List UInt8 → Step β) : Step β :=
  match step with
  | .ok (a, s) => next a s
  | .error failure => .error failure

def ascii (b : UInt8) : Char := Char.ofNat b.toNat

def isDigit (b : UInt8) : Bool := (ascii b).isDigit

def digit (b : UInt8) : Nat := b.toNat - 48

def digitCount (s : List UInt8) : Nat := (s.takeWhile isDigit).length

def skipBlank (s : List UInt8) : List UInt8 :=
  s.dropWhile fun b => b == 0x20 || b == 0x0A || b == 0x09 || b == 0x0D

def word (v : Json) : List Char → List UInt8 → Step Json
  | [], s => .ok (v, s)
  | _ :: _, [] => fail .endInValue []
  | c :: letters, b :: rest => if ascii b = c then word v letters rest else fail .word rest

/-- Appends digits to a number while there are any and it stays in 64 bits. -/
def appendDigits (n : Nat) : List UInt8 → Nat × List UInt8
  | [] => (n, [])
  | b :: rest =>
    if isDigit b && 10 * n + digit b < Text.wordLimit then appendDigits (10 * n + digit b) rest
    else (n, b :: rest)

def isExponentMark (b : UInt8) : Bool := ascii b = 'e' || ascii b = 'E'

def scaled (negative : Bool) (significand : Nat) (exponent : Int) (s : List UInt8) : Step Number :=
  match Decimal.Binary64.ofDecimal significand exponent with
  | some magnitude => .ok (.float negative magnitude, s)
  | none => fail .numberRange s

def exponentLimit : Nat := 2147483648

/-- The digits of an exponent. One that needs more than 31 bits makes the number zero or too large,
and zero stays zero. -/
def exponentDigits (negative down : Bool) (significand : Nat) (shift : Int) :
    Nat → List UInt8 → Step Number
  | e, [] => scaled negative significand (if down then shift - e else shift + e) []
  | e, b :: rest =>
    if isDigit b then
      if 10 * e + digit b < exponentLimit then
        exponentDigits negative down significand shift (10 * e + digit b) rest
      else if significand ≠ 0 ∧ ¬ down then fail .numberRange rest
      else .ok (.float negative .zero, rest.dropWhile isDigit)
    else scaled negative significand (if down then shift - e else shift + e) (b :: rest)

def exponent (negative : Bool) (significand : Nat) (shift : Int) (s : List UInt8) : Step Number :=
  let (down, s) := match s with
    | [] => (false, [])
    | b :: rest =>
      if ascii b = '-' then (true, rest) else if ascii b = '+' then (false, rest)
      else (false, b :: rest)
  match s with
  | [] => fail .endInValue []
  | b :: rest =>
    if isDigit b then exponentDigits negative down significand shift (digit b) rest
    else fail .number rest

/-- The fraction, after the point. Digits that no longer fit are read and dropped. -/
def fraction (negative : Bool) (significand : Nat) (shift : Int) (s : List UInt8) : Step Number :=
  match s with
  | [] => fail .endInValue []
  | b :: rest =>
    if isDigit b then
      let (n, left) := appendDigits significand s
      let shift := shift - (digitCount s - digitCount left : Nat)
      match left.dropWhile isDigit with
      | [] => scaled negative n shift []
      | b :: rest =>
        if isExponentMark b then exponent negative n shift rest
        else scaled negative n shift (b :: rest)
    else fail .number rest

def numberTail (negative : Bool) (significand dropped : Nat) (s : List UInt8) : Step Number :=
  let whole (s : List UInt8) : Step Number :=
    if dropped = 0 then .ok (.ofDigits negative significand, s)
    else scaled negative significand dropped s
  match s with
  | [] => whole []
  | b :: rest =>
    if ascii b = '.' then fraction negative significand dropped rest
    else if isExponentMark b then exponent negative significand dropped rest
    else whole (b :: rest)

def number (negative : Bool) (s : List UInt8) : Step Number :=
  match s with
  | [] => fail .endInValue []
  | b :: rest =>
    if ascii b = '0' then
      match rest with
      | [] => numberTail negative 0 0 []
      | c :: more => if isDigit c then fail .number more else numberTail negative 0 0 (c :: more)
    else if isDigit b then
      let (n, left) := appendDigits (digit b) rest
      numberTail negative n (digitCount left) (left.dropWhile isDigit)
    else fail .number rest

def hexValue? (b : UInt8) : Option Nat :=
  let c := ascii b
  if c.isDigit then some (c.toNat - 48)
  else if 'a' ≤ c ∧ c ≤ 'f' then some (c.toNat - 87)
  else if 'A' ≤ c ∧ c ≤ 'F' then some (c.toNat - 55)
  else none

def codeUnit (s : List UInt8) : Step Nat :=
  match s with
  | a :: b :: c :: d :: rest =>
    match hexValue? a, hexValue? b, hexValue? c, hexValue? d with
    | some a, some b, some c, some d => .ok (((a * 16 + b) * 16 + c) * 16 + d, rest)
    | _, _, _, _ => fail .escape rest
  | _ => fail .endInString []

def pairMark (c : Char) (s : List UInt8) : Step Unit :=
  match s with
  | [] => fail .endInString []
  | b :: rest => if ascii b = c then .ok ((), rest) else fail .brokenSurrogate rest

def codePoint (s : List UInt8) : Step Char :=
  andThen (codeUnit s) fun high s =>
    if 0xDC00 ≤ high ∧ high ≤ 0xDFFF then fail .loneSurrogate s
    else if 0xD800 ≤ high ∧ high ≤ 0xDBFF then
      andThen (pairMark '\\' s) fun _ s =>
      andThen (pairMark 'u' s) fun _ s =>
      andThen (codeUnit s) fun low s =>
        if 0xDC00 ≤ low ∧ low ≤ 0xDFFF then
          .ok (Char.ofNat (0x10000 + (high - 0xD800) * 0x400 + (low - 0xDC00)), s)
        else fail .loneSurrogate s
    else .ok (Char.ofNat high, s)

def escaped (s : List UInt8) : Step Char :=
  match s with
  | [] => fail .endInString []
  | b :: rest =>
    match ascii b with
    | '"' => .ok ('"', rest)
    | '\\' => .ok ('\\', rest)
    | '/' => .ok ('/', rest)
    | 'b' => .ok (Char.ofNat 8, rest)
    | 'f' => .ok (Char.ofNat 12, rest)
    | 'n' => .ok ('\n', rest)
    | 'r' => .ok ('\r', rest)
    | 't' => .ok ('\t', rest)
    | 'u' => codePoint rest
    | _ => fail .escape rest

/-- The rest of a string, where `taken` are the bytes of its text so far, last byte first. The text
is checked as a whole, at the closing quote. Its first malformed byte is placed as many bytes before
the quote as it is before the end of the text, so escapes after it count for what they stand for. -/
def stringRest : Nat → List UInt8 → List UInt8 → Step String
  | 0, _, s => fail .endInString s
  | _, _, [] => fail .endInString []
  | fuel + 1, taken, b :: rest =>
    match ascii b with
    | '"' =>
      match Text.decodeUtf8 ⟨taken.reverse.toArray⟩ with
      | .ok text => .ok (text, rest)
      | .error fault => .error ⟨.encoding, rest.length + (taken.length - fault.offset)⟩
    | '\\' =>
      andThen (escaped rest) fun c s =>
        stringRest fuel ((String.utf8EncodeChar c).reverse ++ taken) s
    | _ => if b < 0x20 then fail .controlCharacter rest else stringRest fuel (b :: taken) rest

def colon (s : List UInt8) : Step Unit :=
  match skipBlank s with
  | [] => fail .endInObject []
  | b :: rest => if ascii b = ':' then .ok ((), rest) else fail .colon rest

mutual

/-- One value, with blanks in front of it allowed and room for `room` nested containers. -/
def value : Nat → Nat → List UInt8 → Step Json
  | 0, _, s => fail .depth s
  | fuel + 1, room, s =>
    match skipBlank s with
    | [] => fail .endInValue []
    | b :: rest =>
      match ascii b with
      | 'n' => word .null ['u', 'l', 'l'] rest
      | 't' => word (.bool true) ['r', 'u', 'e'] rest
      | 'f' => word (.bool false) ['a', 'l', 's', 'e'] rest
      | '"' => andThen (stringRest fuel [] rest) fun text s => .ok (.string text, s)
      | '-' => andThen (number true rest) fun n s => .ok (.number n, s)
      | '[' =>
        match room with
        | 0 => fail .depth rest
        | room + 1 =>
          match skipBlank rest with
          | [] => fail .endInList []
          | c :: more =>
            if ascii c = ']' then .ok (.array [], more)
            else andThen (elements fuel room (c :: more)) fun items s => .ok (.array items, s)
      | '\x7b' =>
        match room with
        | 0 => fail .depth rest
        | room + 1 =>
          match skipBlank rest with
          | [] => fail .endInObject []
          | c :: more =>
            if ascii c = '\x7d' then .ok (.object [], more)
            else if ascii c = '"' then
              andThen (members fuel room more) fun pairs s => .ok (.object (entriesOf pairs), s)
            else fail .key more
      | _ =>
        if isDigit b then andThen (number false (b :: rest)) fun n s => .ok (.number n, s)
        else fail .value rest

def elements : Nat → Nat → List UInt8 → Step (List Json)
  | 0, _, s => fail .depth s
  | fuel + 1, room, s =>
    andThen (value fuel room s) fun v s =>
      match skipBlank s with
      | [] => fail .endInList []
      | b :: rest =>
        match ascii b with
        | ']' => .ok ([v], rest)
        | ',' =>
          match skipBlank rest with
          | [] => fail .endInValue []
          | c :: more =>
            if ascii c = ']' then fail .trailingComma more
            else andThen (elements fuel room (c :: more)) fun others s => .ok (v :: others, s)
        | _ => fail .listEnd rest

/-- One or more entries up to the closing brace, after the quote that opens the first key. -/
def members : Nat → Nat → List UInt8 → Step (List (String × Json))
  | 0, _, s => fail .depth s
  | fuel + 1, room, s =>
    andThen (stringRest fuel [] s) fun key s =>
    andThen (colon s) fun _ s =>
    andThen (value fuel room s) fun v s =>
      match skipBlank s with
      | [] => fail .endInObject []
      | b :: rest =>
        match ascii b with
        | '\x7d' => .ok ([(key, v)], rest)
        | ',' =>
          match skipBlank rest with
          | [] => fail .endInValue []
          | c :: more =>
            match ascii c with
            | '"' => andThen (members fuel room more) fun others s => .ok ((key, v) :: others, s)
            | '\x7d' => fail .trailingComma more
            | _ => fail .key more
        | _ => fail .objectEnd rest

end

/-- A value with nothing but blanks around it. A container takes two steps of the reader, all else
at most one step a byte. -/
def document (s : List UInt8) : Except Failure Json := do
  let (v, s) ← value (2 * s.length + 2) depthLimit s
  match skipBlank s with
  | [] => .ok v
  | _ :: rest => .error ⟨.trailingCharacters, rest.length⟩

end Reader

structure ReadError where
  flaw : Flaw
  line : Nat
  column : Nat
deriving DecidableEq, Repr

/-- The place after `seen`: lines count from one, and a line break begins column zero. -/
def ReadError.after (flaw : Flaw) (seen : List UInt8) : ReadError where
  flaw := flaw
  line := seen.count 0x0A + 1
  column := (seen.reverse.takeWhile (· != 0x0A)).length

def ReadError.message (e : ReadError) : String :=
  e.flaw.text ++ " at line " ++ toString e.line ++ " column " ++ toString e.column

def read (bytes : ByteArray) : Except ReadError Json :=
  let input := bytes.data.toList
  match Reader.document input with
  | .ok v => .ok v
  | .error failure =>
    .error (.after failure.flaw (input.take (input.length - failure.left)))

def readText (text : String) : Except ReadError Json := read text.toUTF8

end RecordConsole.Json
