import RecordConsole.Json.Printer

/-! One text for both printed forms. They differ in the blanks between their tokens and in nothing
else, so that a spelling takes its blanks as a parameter. -/
namespace RecordConsole.Json

def Blank (cs : List Char) : Prop := ∀ c ∈ cs, c = ' ' ∨ c = '\n'

/-- The blanks before an entry or a closing bracket that stands `margin` in, the blanks after a
colon, and how much further in the entries of a container stand. -/
structure Spacing where
  before : Nat → List Char
  afterColon : List Char
  width : Nat
  blank_before : ∀ margin, Blank (before margin)
  blank_afterColon : Blank afterColon

namespace Spacing

def none : Spacing where
  before := fun _ => []
  afterColon := []
  width := 0
  blank_before := fun _ _ h => absurd h List.not_mem_nil
  blank_afterColon := fun _ h => absurd h List.not_mem_nil

def lines (width : Nat) : Spacing where
  before := fun margin => '\n' :: List.replicate margin ' '
  afterColon := [' ']
  width := width
  blank_before := by
    intro margin c hc
    rcases List.mem_cons.mp hc with h | h
    · exact Or.inr h
    · exact Or.inl (List.eq_of_mem_replicate h)
  blank_afterColon := by
    intro c hc
    exact Or.inl (List.mem_singleton.mp hc)

end Spacing

def spellString (text : String) : List Char := '"' :: (text.toList.flatMap escape ++ ['"'])

mutual

def spell (spacing : Spacing) (margin : Nat) : Json → List Char
  | .null => ['n', 'u', 'l', 'l']
  | .bool true => ['t', 'r', 'u', 'e']
  | .bool false => ['f', 'a', 'l', 's', 'e']
  | .number n => n.text.toList
  | .string s => spellString s
  | .array [] => ['[', ']']
  | .array (v :: rest) =>
    '[' :: (spacing.before (margin + spacing.width) ++ spell spacing (margin + spacing.width) v
      ++ spellItems spacing (margin + spacing.width) rest ++ spacing.before margin ++ [']'])
  | .object [] => ['\x7b', '\x7d']
  | .object ((key, v) :: rest) =>
    '\x7b' :: (spacing.before (margin + spacing.width) ++ spellString key ++ ':' :: spacing.afterColon
      ++ spell spacing (margin + spacing.width) v
      ++ spellEntries spacing (margin + spacing.width) rest ++ spacing.before margin ++ ['\x7d'])

def spellItems (spacing : Spacing) (margin : Nat) : List Json → List Char
  | [] => []
  | v :: rest =>
    ',' :: (spacing.before margin ++ spell spacing margin v ++ spellItems spacing margin rest)

def spellEntries (spacing : Spacing) (margin : Nat) : List (String × Json) → List Char
  | [] => []
  | (key, v) :: rest =>
    ',' :: (spacing.before margin ++ spellString key ++ ':' :: spacing.afterColon
      ++ spell spacing margin v ++ spellEntries spacing margin rest)

end

/-! ## Printed texts are spellings -/

theorem toList_truth (b : Bool) (spacing : Spacing) (margin : Nat) :
    (truth b).toList = spell spacing margin (.bool b) := by
  cases b <;> rfl

theorem toList_quoted (text : String) : (quoted text).toList = spellString text := by
  rw [quoted, String.toList_ofList, spellString]

theorem toList_spaces (count : Nat) : (spaces count).toList = List.replicate count ' ' := by
  rw [spaces, String.toList_ofList]

theorem toList_intercalate_cons (separator first : String) (parts : List String) :
    (separator.intercalate (first :: parts)).toList =
      first.toList ++ parts.flatMap fun part => separator.toList ++ part.toList := by
  induction parts generalizing first with
  | nil => simp
  | cons part parts ih =>
    rw [String.intercalate_cons_cons]
    simp [ih, List.append_assoc]

theorem toList_bracketed (first last : String) (width margin : Nat) (head : String)
    (parts : List String) :
    (bracketed first last width margin (head :: parts)).toList =
      first.toList ++ ((Spacing.lines width).before (margin + width) ++ head.toList ++
        (parts.flatMap fun part =>
          ',' :: ((Spacing.lines width).before (margin + width) ++ part.toList)) ++
        (Spacing.lines width).before margin ++ last.toList) := by
  simp only [bracketed, String.toList_append, toList_intercalate_cons, toList_spaces]
  simp [Spacing.lines]

mutual

theorem toList_indented (width margin : Nat) : ∀ v : Json,
    (indented width margin v).toList = spell (.lines width) margin v
  | .null => by
    rw [indented, spell]
    rfl
  | .bool b => by rw [indented, toList_truth]
  | .number n => by rw [indented, spell]
  | .string s => by rw [indented, spell, toList_quoted]
  | .array [] => by
    rw [indented, spell]
    rfl
  | .array (v :: rest) => by
    have hfirst := toList_indented width (margin + width) v
    have hothers := flatMap_indentedItems width (margin + width) rest
    rw [indented, toList_bracketed, hothers, hfirst, spell]
    rfl
  | .object [] => by
    rw [indented, spell]
    rfl
  | .object ((key, v) :: rest) => by
    have hfirst := toList_indented width (margin + width) v
    have hothers := flatMap_indentedEntries width (margin + width) rest
    rw [indented, toList_bracketed, hothers, String.toList_append,
      String.toList_append, toList_quoted, hfirst, spell]
    simp [Spacing.lines]

theorem flatMap_indentedItems (width margin : Nat) : ∀ items : List Json,
    ((indentedItems width margin items).flatMap fun part =>
        ',' :: ((Spacing.lines width).before margin ++ part.toList)) =
      spellItems (.lines width) margin items
  | [] => rfl
  | v :: rest => by
    have hfirst := toList_indented width margin v
    have hothers := flatMap_indentedItems width margin rest
    rw [indentedItems, List.flatMap_cons, hothers, hfirst, spellItems, List.cons_append]

theorem flatMap_indentedEntries (width margin : Nat) : ∀ entries : List (String × Json),
    ((indentedEntries width margin entries).flatMap fun part =>
        ',' :: ((Spacing.lines width).before margin ++ part.toList)) =
      spellEntries (.lines width) margin entries
  | [] => rfl
  | (key, v) :: rest => by
    have hfirst := toList_indented width margin v
    have hothers := flatMap_indentedEntries width margin rest
    rw [indentedEntries, List.flatMap_cons, hothers, String.toList_append, String.toList_append,
      toList_quoted, hfirst, spellEntries]
    simp [Spacing.lines]

end

mutual

theorem toList_compact (margin : Nat) : ∀ v : Json,
    (compact v).toList = spell .none margin v
  | .null => by
    rw [compact, spell]
    rfl
  | .bool b => by rw [compact, toList_truth]
  | .number n => by rw [compact, spell]
  | .string s => by rw [compact, spell, toList_quoted]
  | .array [] => by
    rw [compact, spell]
    rfl
  | .array (v :: rest) => by
    have hfirst := toList_compact margin v
    have hothers := flatMap_compactItems margin rest
    rw [compact, compactItems, spell]
    simp only [String.toList_append, toList_intercalate_cons, hfirst]
    simpa [Spacing.none] using hothers
  | .object [] => by
    rw [compact, spell]
    rfl
  | .object ((key, v) :: rest) => by
    have hfirst := toList_compact margin v
    have hothers := flatMap_compactEntries margin rest
    rw [compact, compactEntries, spell]
    simp only [String.toList_append, toList_intercalate_cons, toList_quoted, hfirst]
    simpa [Spacing.none] using hothers

theorem flatMap_compactItems (margin : Nat) : ∀ items : List Json,
    ((compactItems items).flatMap fun part => ',' :: part.toList) = spellItems .none margin items
  | [] => rfl
  | v :: rest => by
    have hfirst := toList_compact margin v
    have hothers := flatMap_compactItems margin rest
    rw [compactItems, List.flatMap_cons, hothers, hfirst, spellItems]
    rfl

theorem flatMap_compactEntries (margin : Nat) : ∀ entries : List (String × Json),
    ((compactEntries entries).flatMap fun part => ',' :: part.toList) =
      spellEntries .none margin entries
  | [] => rfl
  | (key, v) :: rest => by
    have hfirst := toList_compact margin v
    have hothers := flatMap_compactEntries margin rest
    rw [compactEntries, List.flatMap_cons, hothers, String.toList_append, String.toList_append,
      toList_quoted, hfirst, spellEntries]
    simp [Spacing.none]

end

end RecordConsole.Json
