import RecordConsole.Json.Dump
import RecordConsole.Proofs.Json.Nesting
import RecordConsole.Proofs.Json.Spelling

/-! What a dump shows of a value: all of it down to a depth, and below it no more of a container than
its kind. The text is unambiguous, so two values have one text exactly if they have one outline. -/
namespace RecordConsole.Json

/-- A value some of whose containers are hidden. Entries are in order. -/
inductive Outline where
  | null
  | bool (b : Bool)
  | number (n : Number)
  | string (s : String)
  | array (items : List Outline)
  | object (entries : List (String × Outline))
  | hiddenArray
  | hiddenObject

mutual

/-- A value at a level, without the contents of containers at levels above `depth`. -/
def outlineAt (depth level : Nat) : Json → Outline
  | .null => .null
  | .bool b => .bool b
  | .number n => .number n
  | .string s => .string s
  | .array [] => .array []
  | .array (v :: rest) =>
    if depth < level then .hiddenArray
    else .array (outlineAt depth (level + 1) v :: outlineItems depth (level + 1) rest)
  | .object [] => .object []
  | .object ((name, v) :: rest) =>
    if depth < level then .hiddenObject
    else .object ((name, outlineAt depth (level + 1) v) :: outlineEntries depth (level + 1) rest)

def outlineItems (depth level : Nat) : List Json → List Outline
  | [] => []
  | v :: rest => outlineAt depth level v :: outlineItems depth level rest

def outlineEntries (depth level : Nat) : List (String × Json) → List (String × Outline)
  | [] => []
  | (name, v) :: rest => (name, outlineAt depth level v) :: outlineEntries depth level rest

end

def outline (v : Json) (depth : Nat) : Outline := outlineAt depth 0 v

theorem outlineItems_eq_map (depth level : Nat) (items : List Json) :
    outlineItems depth level items = items.map (outlineAt depth level) := by
  induction items with
  | nil => rfl
  | cons v rest ih => rw [outlineItems, ih, List.map_cons]

theorem outlineEntries_eq_map (depth level : Nat) (entries : List (String × Json)) :
    outlineEntries depth level entries =
      entries.map fun entry => (entry.1, outlineAt depth level entry.2) := by
  induction entries with
  | nil => rfl
  | cons first rest ih => rw [outlineEntries, ih, List.map_cons]

/-! ## Nothing is hidden down to the depth -/

section Shown

variable {depth level : Nat} (hshown : level ≤ depth)

include hshown

theorem outlineAt_array (items : List Json) :
    outlineAt depth level (.array items) = .array (items.map (outlineAt depth (level + 1))) := by
  cases items with
  | nil => rw [outlineAt, List.map_nil]
  | cons v rest =>
    rw [outlineAt, if_neg (Nat.not_lt.mpr hshown), outlineItems_eq_map, List.map_cons]

theorem outlineAt_object (entries : List (String × Json)) :
    outlineAt depth level (.object entries) =
      .object (entries.map fun entry => (entry.1, outlineAt depth (level + 1) entry.2)) := by
  cases entries with
  | nil => rw [outlineAt, List.map_nil]
  | cons first rest =>
    rw [outlineAt, if_neg (Nat.not_lt.mpr hshown), outlineEntries_eq_map, List.map_cons]

theorem items_of_outlineAt {v : Json} {shown : List Outline}
    (h : outlineAt depth level v = .array shown) :
    ∃ items, v = .array items ∧ items.map (outlineAt depth (level + 1)) = shown := by
  cases v with
  | array items =>
    rw [outlineAt_array hshown] at h
    cases h
    exact ⟨items, rfl, rfl⟩
  | object entries =>
    rw [outlineAt_object hshown] at h
    cases h
  | _ =>
    rw [outlineAt] at h
    cases h

theorem entries_of_outlineAt {v : Json} {shown : List (String × Outline)}
    (h : outlineAt depth level v = .object shown) :
    ∃ entries, v = .object entries ∧
      (entries.map fun entry => (entry.1, outlineAt depth (level + 1) entry.2)) = shown := by
  cases v with
  | array items =>
    rw [outlineAt_array hshown] at h
    cases h
  | object entries =>
    rw [outlineAt_object hshown] at h
    cases h
    exact ⟨entries, rfl, rfl⟩
  | _ =>
    rw [outlineAt] at h
    cases h

end Shown

theorem eq_of_map_eq {α β : Type} {f : α → β} {xs ys : List α}
    (hinj : ∀ x ∈ xs, ∀ y, f x = f y → x = y) (h : xs.map f = ys.map f) : xs = ys := by
  induction xs generalizing ys with
  | nil => exact (List.map_eq_nil_iff.mp h.symm).symm
  | cons x xs ih =>
    cases ys with
    | nil => cases h
    | cons y ys =>
      obtain ⟨hhead, htail⟩ := List.cons.inj h
      obtain rfl := hinj x List.mem_cons_self y hhead
      rw [ih (fun z hz => hinj z (List.mem_cons_of_mem _ hz)) htail]

theorem outlineAt_container (depth level : Nat) (items : List Json)
    (entries : List (String × Json)) :
    ((∃ shown, outlineAt depth level (.array items) = .array shown) ∨
        outlineAt depth level (.array items) = .hiddenArray) ∧
      ((∃ shown, outlineAt depth level (.object entries) = .object shown) ∨
        outlineAt depth level (.object entries) = .hiddenObject) := by
  by_cases hshown : level ≤ depth
  · exact ⟨Or.inl ⟨_, outlineAt_array hshown items⟩, Or.inl ⟨_, outlineAt_object hshown entries⟩⟩
  · have hdeep : depth < level := Nat.lt_of_not_le hshown
    constructor
    · cases items with
      | nil => exact Or.inl ⟨[], by rw [outlineAt]⟩
      | cons v rest => exact Or.inr (by rw [outlineAt, if_pos hdeep])
    · cases entries with
      | nil => exact Or.inl ⟨[], by rw [outlineAt]⟩
      | cons first rest => exact Or.inr (by rw [outlineAt, if_pos hdeep])

/-- The outline of a value that does not reach below the depth tells all of it. -/
theorem eq_of_outlineAt {depth level : Nat} {v w : Json} (hdepth : v.depth + level ≤ depth + 1)
    (h : outlineAt depth level v = outlineAt depth level w) : v = w := by
  induction v using parts_induction generalizing w level with
  | null | bool | number | string =>
    rw [outlineAt] at h
    cases w with
    | array items =>
      rcases (outlineAt_container depth level items []).1 with ⟨shown, heq⟩ | heq <;>
        cases h.trans heq
    | object entries =>
      rcases (outlineAt_container depth level [] entries).2 with ⟨shown, heq⟩ | heq <;>
        cases h.trans heq
    | _ =>
      rewrite [outlineAt] at h
      cases h <;> rfl
  | array items ih =>
    rw [Json.depth] at hdepth
    have hshown : level ≤ depth := by omega
    rw [outlineAt_array hshown] at h
    obtain ⟨others, rfl, hmap⟩ := items_of_outlineAt hshown h.symm
    have hparts := depthItems_le_iff.mp (Nat.le_refl (depthItems items))
    refine congrArg Json.array (eq_of_map_eq (fun v hv w => ih v hv ?_) hmap.symm)
    have := hparts v hv
    omega
  | object entries ih =>
    rw [Json.depth] at hdepth
    have hshown : level ≤ depth := by omega
    rw [outlineAt_object hshown] at h
    obtain ⟨others, rfl, hmap⟩ := entries_of_outlineAt hshown h.symm
    have hparts := depthEntries_le_iff.mp (Nat.le_refl (depthEntries entries))
    refine congrArg Json.object (eq_of_map_eq ?_ hmap.symm)
    intro entry hentry other hsame
    obtain ⟨hname, hvalue⟩ := Prod.mk.inj hsame
    have := hparts entry hentry
    exact Prod.ext hname (ih entry hentry (by omega) hvalue)

/-! ## The text depends on the outline alone -/

namespace Outline

section Induction

variable {motive : Outline → Prop} (null : motive .null) (bool : ∀ b, motive (.bool b))
  (number : ∀ n, motive (.number n)) (string : ∀ text, motive (.string text))
  (array : ∀ items, (∀ o ∈ items, motive o) → motive (.array items))
  (object : ∀ entries : List (String × Outline), (∀ entry ∈ entries, motive entry.2) →
    motive (.object entries))
  (hiddenArray : motive .hiddenArray) (hiddenObject : motive .hiddenObject)

include null bool number string array object hiddenArray hiddenObject

set_option linter.unusedSectionVars false

mutual

/-- What a container has as soon as all its parts have it, all outlines have. -/
theorem parts_induction : ∀ o, motive o
  | .null => null
  | .bool b => bool b
  | .number n => number n
  | .string text => string text
  | .array items => array items (items_induction items)
  | .object entries => object entries (entries_induction entries)
  | .hiddenArray => hiddenArray
  | .hiddenObject => hiddenObject

theorem items_induction : ∀ items : List Outline, ∀ o ∈ items, motive o
  | [] => by simp
  | o :: rest => by
    have hfirst := parts_induction o
    have hothers := items_induction rest
    exact List.forall_mem_cons.mpr ⟨hfirst, hothers⟩

theorem entries_induction : ∀ entries : List (String × Outline), ∀ entry ∈ entries, motive entry.2
  | [] => by simp
  | (_, o) :: rest => by
    have hfirst := parts_induction o
    have hothers := entries_induction rest
    exact List.forall_mem_cons.mpr ⟨hfirst, hothers⟩

end

end Induction

mutual

def text (level : Nat) : Outline → String
  | .null => "null"
  | .bool b => truth b
  | .number n => n.text
  | .string s => Dump.quoted s
  | .array [] => "[]"
  | .array (o :: rest) =>
    Dump.wrapped "[" "]" level (text (level + 1) o :: textItems (level + 1) rest)
  | .object [] => "\x7b\x7d"
  | .object ((name, o) :: rest) =>
    Dump.wrapped "\x7b" "\x7d" level
      ((Dump.key name ++ ": " ++ text (level + 1) o) :: textEntries (level + 1) rest)
  | .hiddenArray => "[Array]"
  | .hiddenObject => "[Object]"

def textItems (level : Nat) : List Outline → List String
  | [] => []
  | o :: rest => text level o :: textItems level rest

def textEntries (level : Nat) : List (String × Outline) → List String
  | [] => []
  | (name, o) :: rest => (Dump.key name ++ ": " ++ text level o) :: textEntries level rest

end

theorem textItems_eq_map (level : Nat) (items : List Outline) :
    textItems level items = items.map (text level) := by
  induction items with
  | nil => rfl
  | cons o rest ih => rw [textItems, ih, List.map_cons]

def entryText (level : Nat) (entry : String × Outline) : String :=
  Dump.key entry.1 ++ ": " ++ text level entry.2

theorem textEntries_eq_map (level : Nat) (entries : List (String × Outline)) :
    textEntries level entries = entries.map (entryText level) := by
  induction entries with
  | nil => rfl
  | cons first rest ih =>
    rw [textEntries, ih, List.map_cons]
    rfl

theorem text_array (level : Nat) (o : Outline) (others : List Outline) :
    text level (.array (o :: others)) =
      Dump.wrapped "[" "]" level ((o :: others).map (text (level + 1))) := by
  rw [text, textItems_eq_map, List.map_cons]

theorem text_object (level : Nat) (entry : String × Outline) (others : List (String × Outline)) :
    text level (.object (entry :: others)) =
      Dump.wrapped "\x7b" "\x7d" level ((entry :: others).map (entryText (level + 1))) := by
  rw [text, textEntries_eq_map, List.map_cons, entryText]

mutual

theorem text_outlineAt (depth level : Nat) : ∀ v : Json,
    text level (outlineAt depth level v) = Dump.dump depth level v
  | .null => by rw [outlineAt, text, Dump.dump]
  | .bool b => by rw [outlineAt, text, Dump.dump]
  | .number n => by rw [outlineAt, text, Dump.dump]
  | .string s => by rw [outlineAt, text, Dump.dump]
  | .array [] => by rw [outlineAt, text, Dump.dump]
  | .array (v :: rest) => by
    have hfirst := text_outlineAt depth (level + 1) v
    have hothers := textItems_outlineItems depth (level + 1) rest
    rw [outlineAt, Dump.dump]
    by_cases hdeep : depth < level
    · rw [if_pos hdeep, if_pos hdeep, text]
    · rw [if_neg hdeep, if_neg hdeep, text, hfirst, hothers]
  | .object [] => by rw [outlineAt, text, Dump.dump]
  | .object ((name, v) :: rest) => by
    have hfirst := text_outlineAt depth (level + 1) v
    have hothers := textEntries_outlineEntries depth (level + 1) rest
    rw [outlineAt, Dump.dump]
    by_cases hdeep : depth < level
    · rw [if_pos hdeep, if_pos hdeep, text]
    · rw [if_neg hdeep, if_neg hdeep, text, hfirst, hothers]

theorem textItems_outlineItems (depth level : Nat) : ∀ items : List Json,
    textItems level (outlineItems depth level items) = Dump.dumpItems depth level items
  | [] => rfl
  | v :: rest => by
    rw [outlineItems, textItems, Dump.dumpItems, text_outlineAt, textItems_outlineItems]

theorem textEntries_outlineEntries (depth level : Nat) : ∀ entries : List (String × Json),
    textEntries level (outlineEntries depth level entries) = Dump.dumpEntries depth level entries
  | [] => rfl
  | (name, v) :: rest => by
    rw [outlineEntries, textEntries, Dump.dumpEntries, text_outlineAt, textEntries_outlineEntries]

end

end Outline

end RecordConsole.Json
