import RecordConsole.Json.Value

/-!
JSON text of a value: the compact form without any blanks, and the indented form with one entry a
line. Both print the same tokens.
-/
namespace RecordConsole.Json

def hexDigit (n : Nat) : Char := Char.ofNat (if n < 10 then 48 + n else 87 + n)

def escape (c : Char) : List Char :=
  if c = '"' then ['\\', '"']
  else if c = '\\' then ['\\', '\\']
  else if c = '\n' then ['\\', 'n']
  else if c = '\t' then ['\\', 't']
  else if c = '\r' then ['\\', 'r']
  else if c.toNat = 8 then ['\\', 'b']
  else if c.toNat = 12 then ['\\', 'f']
  else if c.toNat < 32 then ['\\', 'u', '0', '0', hexDigit (c.toNat / 16), hexDigit (c.toNat % 16)]
  else [c]

def quoted (text : String) : String :=
  .ofList ('"' :: (text.toList.flatMap escape ++ ['"']))

def truth (b : Bool) : String := if b then "true" else "false"

mutual

def compact : Json → String
  | .null => "null"
  | .bool b => truth b
  | .number n => n.text
  | .string s => quoted s
  | .array items => "[" ++ ",".intercalate (compactItems items) ++ "]"
  | .object entries => "\x7b" ++ ",".intercalate (compactEntries entries) ++ "\x7d"

def compactItems : List Json → List String
  | [] => []
  | v :: rest => compact v :: compactItems rest

def compactEntries : List (String × Json) → List String
  | [] => []
  | (key, v) :: rest => (quoted key ++ ":" ++ compact v) :: compactEntries rest

end

def spaces (count : Nat) : String := .ofList (List.replicate count ' ')

def bracketed (first last : String) (width margin : Nat) (parts : List String) : String :=
  let inner := "\n" ++ spaces (margin + width)
  first ++ inner ++ ("," ++ inner).intercalate parts ++ "\n" ++ spaces margin ++ last

mutual

def indented (width margin : Nat) : Json → String
  | .null => "null"
  | .bool b => truth b
  | .number n => n.text
  | .string s => quoted s
  | .array [] => "[]"
  | .array (v :: rest) =>
    bracketed "[" "]" width margin
      (indented width (margin + width) v :: indentedItems width (margin + width) rest)
  | .object [] => "\x7b\x7d"
  | .object ((key, v) :: rest) =>
    bracketed "\x7b" "\x7d" width margin
      ((quoted key ++ ": " ++ indented width (margin + width) v)
        :: indentedEntries width (margin + width) rest)

def indentedItems (width margin : Nat) : List Json → List String
  | [] => []
  | v :: rest => indented width margin v :: indentedItems width margin rest

def indentedEntries (width margin : Nat) : List (String × Json) → List String
  | [] => []
  | (key, v) :: rest =>
    (quoted key ++ ": " ++ indented width margin v) :: indentedEntries width margin rest

end

/-- Zero asks for the compact form. -/
def text (indent : Nat) (v : Json) : String :=
  if indent = 0 then compact v else indented indent 0 v

end RecordConsole.Json
