import RecordConsole.Text.CharClass

/-!
Blank characters, words and trimming. A word is a longest run of characters none of which is blank;
every line, tail and key of this library is read through its words.
-/
namespace RecordConsole.Text

/-- The characters with the White_Space property. -/
def blank : CharClass :=
  [(0x9, 0xD), (0x20, 0x20), (0x85, 0x85), (0xA0, 0xA0), (0x1680, 0x1680), (0x2000, 0x200A),
   (0x2028, 0x2029), (0x202F, 0x202F), (0x205F, 0x205F), (0x3000, 0x3000)]

def isBlank (c : Char) : Bool := blank.contains c

def startsBlank : List Char → Bool
  | [] => true
  | c :: _ => isBlank c

def growFirst (c : Char) : List (List Char) → List (List Char)
  | [] => [[c]]
  | word :: rest => (c :: word) :: rest

def splitWords : List Char → List (List Char)
  | [] => []
  | c :: rest =>
    if isBlank c then splitWords rest
    else if startsBlank rest then [c] :: splitWords rest
    else growFirst c (splitWords rest)

def words (text : String) : List String :=
  (splitWords text.toList).map String.ofList

def dropBlank (chars : List Char) : List Char := chars.dropWhile isBlank

def dropBlankEnd (chars : List Char) : List Char := (dropBlank chars.reverse).reverse

def trimChars (chars : List Char) : List Char := dropBlankEnd (dropBlank chars)

def trim (text : String) : String := .ofList (trimChars text.toList)

def hasBlank (text : String) : Bool := text.toList.any isBlank

def isAllBlank (text : String) : Bool := text.toList.all isBlank

/-- The words of each part in turn: a word never reaches across two parts. -/
def wordsOfParts (parts : List String) : List String := parts.flatMap words

def flatten (parts : List String) : String := " ".intercalate (wordsOfParts parts)

end RecordConsole.Text
