import Mathlib.Data.List.Forall2
import RecordConsole.Json.Property
import RecordConsole.Proofs.Json.Nesting
import RecordConsole.Proofs.Table
import RecordConsole.Proofs.Words

/-! The places in a value. A place is reached by names of entries and positions of items, and the
walk gets there by the texts that spell them: names that are single words, and positions in decimal
digits. Walks go on from where they are, and null is a place that none of them leaves. -/
namespace RecordConsole

namespace Text

/-- The text is made of decimal digits that write this number, zeros in front allowed. -/
structure Numeral (text : String) (n : Nat) : Prop where
  ne_nil : text.toList ≠ []
  digits : ∀ c ∈ text.toList, c.isDigit = true
  value : Nat.ofDigitChars 10 text.toList 0 = n

theorem numeral_toString (n : Nat) : Numeral (toString n) n := by
  have hdigits : (toString n).toList = Nat.toDigits 10 n := by
    rw [Nat.toString_eq_repr, Nat.toList_repr]
  constructor
  · rw [hdigits]
    exact Nat.toDigits_ne_nil
  · intro c hc
    rw [hdigits] at hc
    exact Nat.isDigit_of_mem_toDigits (by decide) (by decide) hc
  · rw [hdigits]
    exact Nat.ofDigitChars_ten_toDigits

theorem continueNumber_eq {chars : List Char} (h : ∀ c ∈ chars, c.isDigit = true) (n : Nat) :
    continueNumber n chars = some (Nat.ofDigitChars 10 chars n) := by
  induction chars generalizing n with
  | nil => rfl
  | cons c rest ih =>
    have hc : digitValue? c = some (c.toNat - 48) := if_pos (h c List.mem_cons_self)
    rw [continueNumber, hc, Nat.ofDigitChars_cons]
    exact ih (fun d hd => h d (List.mem_cons_of_mem _ hd)) _

theorem Numeral.size? {text : String} {n : Nat} (h : Numeral text n) (hn : n < wordLimit) :
    size? text = some n := by
  have hcontinue := continueNumber_eq h.digits 0
  rw [h.value] at hcontinue
  obtain ⟨c, rest, hchars⟩ := List.exists_cons_of_ne_nil h.ne_nil
  have hplus : c ≠ '+' := by
    rintro rfl
    exact absurd (h.digits '+' (by simp [hchars])) (by decide)
  rw [hchars] at hcontinue
  simp [Text.size?, natural?, hchars, hplus, digitsValue?, hcontinue, hn]

theorem Numeral.solid {text : String} {n : Nat} (h : Numeral text n) : Solid text.toList where
  ne_nil := h.ne_nil
  filled c hc := by
    obtain ⟨hlow, hhigh⟩ := Char.isDigit_iff_toNat.mp (h.digits c hc)
    have hzero : '0'.toNat = 48 := rfl
    have hnine : '9'.toNat = 57 := rfl
    exact isBlank_eq_false (by omega) (by omega)

end Text

namespace Json

inductive Place where
  | entry (name : String)
  | item (position : Nat)

inductive Place.Spelled : Place → String → Prop
  | entry {name} : Text.Solid name.toList → Spelled (.entry name) name
  | item {position key} : position < Text.wordLimit → Text.Numeral key position →
      Spelled (.item position) key

/-- What lies in a value at the end of some steps. -/
inductive Holds : Json → List Place → Json → Prop
  | here (v) : Holds v [] v
  | entry {entries name inner path w} : (name, inner) ∈ entries → Holds inner path w →
      Holds (.object entries) (.entry name :: path) w
  | item {items position inner path w} : items[position]? = some inner → Holds inner path w →
      Holds (.array items) (.item position :: path) w

theorem Place.Spelled.solid {place : Place} {key : String} (h : place.Spelled key) :
    Text.Solid key.toList := by
  cases h with
  | entry hname => exact hname
  | item _ hkey => exact hkey.solid

theorem words_of_spelled {path : List Place} {keys : List String}
    (h : List.Forall₂ Place.Spelled path keys) : ∀ key ∈ keys, Text.words key = [key] := by
  induction h with
  | nil => simp
  | cons hspelled _ ih =>
    exact List.forall_mem_cons.mpr ⟨Text.words_of_solid hspelled.solid, ih⟩

theorem walk_of_child? {v inner : Json} {key : String} (h : v.child? key = some inner)
    (rest : List String) : v.walk (key :: rest) = inner.walk rest := by
  rw [walk, h]

theorem Holds.walk_eq {v w : Json} {path : List Place} {keys : List String} (h : v.Holds path w)
    (hkeyed : v.Keyed) (hkeys : List.Forall₂ Place.Spelled path keys) : v.walk keys = w := by
  induction h generalizing keys with
  | here v =>
    cases hkeys
    rfl
  | @entry entries name inner path w hentry _ ih =>
    obtain ⟨hnames, hvalues⟩ := hkeyed
    cases hkeys with
    | cons hspelled hrest =>
      cases hspelled
      have hchild : (object entries).child? name = some inner :=
        lookup_of_mem hnames hentry
      rw [walk_of_child? hchild]
      exact ih (keyedEntries_iff.mp hvalues _ hentry) hrest
  | @item items position inner path w hitem _ ih =>
    cases hkeys with
    | @cons _ key _ _ hspelled hrest =>
      obtain ⟨hword, hkey⟩ : position < Text.wordLimit ∧ Text.Numeral key position := by
        cases hspelled with
        | item hword hkey => exact ⟨hword, hkey⟩
      have hchild : (array items).child? key = some inner := by
        rw [child?, hkey.size? hword]
        exact hitem
      rw [walk_of_child? hchild]
      exact ih (keyedItems_iff.mp hkeyed _ (List.mem_of_getElem? hitem)) hrest

/-! ## Walks one after another -/

theorem walk_null (keys : List String) : Json.null.walk keys = .null := by
  cases keys <;> rfl

theorem walk_append (v : Json) (keys more : List String) :
    v.walk (keys ++ more) = (v.walk keys).walk more := by
  induction keys generalizing v with
  | nil => rfl
  | cons key rest ih =>
    rw [List.cons_append, walk, walk]
    cases v.child? key with
    | none => exact (walk_null more).symm
    | some inner => exact ih inner

def chain : List String → Json
  | [] => .bool true
  | key :: rest => .object [(key, chain rest)]

theorem walk_chain_iff {keys others : List String} :
    (chain keys).walk others = .bool true ↔ others = keys := by
  induction keys generalizing others with
  | nil =>
    cases others with
    | nil => simp [chain, walk]
    | cons key rest => simp [chain, walk, child?]
  | cons name names ih =>
    cases others with
    | nil => simp [chain, walk]
    | cons key rest =>
      rw [chain, walk, child?, lookup_cons_eq_ite]
      by_cases hkey : key = name
      · simp [hkey, ih]
      · simp [hkey]

theorem property_append (v : Json) (keys more : List String) :
    v.property (keys ++ more) = (v.property keys).property more := by
  rw [property, Text.wordsOfParts, List.flatMap_append, walk_append]
  rfl

/-- The walk reaches every place by the keys that spell it; it can be cut in two anywhere, and once
it has come to null it stays there; and of its keys the words count, all of them and nothing
else. -/
theorem property_reaches :
    (∀ (v w : Json) (path : List Place) (keys : List String), v.Keyed → v.Holds path w →
        List.Forall₂ Place.Spelled path keys → v.property keys = w) ∧
      (∀ (v : Json) (keys more : List String),
        v.property (keys ++ more) = (v.property keys).property more) ∧
      (∀ (v : Json) (keys more : List String),
        v.property keys = .null → v.property (keys ++ more) = .null) ∧
      ∀ keys others : List String, (∀ v : Json, v.property keys = v.property others) ↔
        Text.wordsOfParts keys = Text.wordsOfParts others := by
  refine ⟨?_, property_append, ?_, ?_⟩
  · intro v w path keys hkeyed hholds hkeys
    rw [property, Text.wordsOfParts_eq_self (words_of_spelled hkeys)]
    exact hholds.walk_eq hkeyed hkeys
  · intro v keys more hnull
    rw [property_append, hnull, property, walk_null]
  · intro keys others
    constructor
    · intro hsame
      have hend := hsame (chain (Text.wordsOfParts others))
      rw [property, property, walk_chain_iff.mpr rfl] at hend
      exact walk_chain_iff.mp hend
    · intro hwords v
      rw [property, property, hwords]

theorem property_reaches_digits :
    let record : Json := .object [("1", .array [.null, .bool true])]
    record.Keyed ∧ record.Holds [.entry "1", .item 1] (.bool true) ∧
      List.Forall₂ Place.Spelled [.entry "1", .item 1] ["1", toString 1] ∧
      record.property ["1", toString 1] = .bool true ∧
      record.property ["1", "01"] = .bool true ∧ record.property ["1 01 "] = .bool true ∧
      record.property ["1", "2"] = .null ∧ record.property ["1", "2", "1"] = .null := by
  intro record
  obtain ⟨hreaches, -, hmiss, hwords⟩ := property_reaches
  have hkeyed : record.Keyed := ⟨by simp, ⟨trivial, trivial, trivial⟩, trivial⟩
  have hholds : record.Holds [.entry "1", .item 1] (.bool true) :=
    .entry List.mem_cons_self (.item rfl (.here _))
  have hone : Text.Numeral (toString 1) 1 := Text.numeral_toString 1
  have hname : (Place.entry "1").Spelled "1" := .entry hone.solid
  have hposition : (Place.item 1).Spelled (toString 1) := .item (by decide) hone
  have hzero : (Place.item 1).Spelled "01" := .item (by decide) ⟨by simp, by simp, by decide⟩
  have hspelled := List.Forall₂.cons hname (.cons hposition .nil)
  have hreached := hreaches record _ _ _ hkeyed hholds (.cons hname (.cons hzero .nil))
  have hnull : record.property ["1", "2"] = .null := rfl
  refine ⟨hkeyed, hholds, hspelled, hreaches record _ _ _ hkeyed hholds hspelled, hreached, ?_,
    hnull, hmiss record _ ["1"] hnull⟩
  rw [← hreached]
  exact (hwords ["1 01 "] ["1", "01"]).mpr (by decide) record

end Json

end RecordConsole
