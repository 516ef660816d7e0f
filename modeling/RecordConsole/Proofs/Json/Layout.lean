import RecordConsole.Proofs.Json.Inspection
import RecordConsole.Proofs.Json.Lines

/-! The layout of a dump. It changes blanks only, breaks the lines of exactly those containers that
would be too long on one line, and shows by the indentation of a line how deep it stands. -/
namespace RecordConsole.Json

namespace Outline

mutual

def flat : Outline → String
  | .null => "null"
  | .bool b => truth b
  | .number n => n.text
  | .string s => Dump.quoted s
  | .array [] => "[]"
  | .array (o :: rest) => Dump.oneLine "[" "]" (flat o :: flatItems rest)
  | .object [] => "\x7b\x7d"
  | .object ((name, o) :: rest) =>
    Dump.oneLine "\x7b" "\x7d" ((Dump.key name ++ ": " ++ flat o) :: flatEntries rest)
  | .hiddenArray => "[Array]"
  | .hiddenObject => "[Object]"

def flatItems : List Outline → List String
  | [] => []
  | o :: rest => flat o :: flatItems rest

def flatEntries : List (String × Outline) → List String
  | [] => []
  | (name, o) :: rest => (Dump.key name ++ ": " ++ flat o) :: flatEntries rest

end

/-! ## Containers -/

/-- A container with something in it that is shown. Entries of objects have a key. -/
structure Container where
  bracket : Dump.Bracket
  parts : List (Option String × Outline)

def container? : Outline → Option Container
  | .array (o :: rest) => some ⟨.square, (o :: rest).map fun o => (none, o)⟩
  | .object (entry :: rest) => some ⟨.curly, (entry :: rest).map fun e => (some e.1, e.2)⟩
  | _ => none

def label : Option String → String
  | none => ""
  | some name => Dump.key name ++ ": "

def partText (print : Outline → String) (part : Option String × Outline) : String :=
  label part.1 ++ print part.2

theorem flatItems_eq_map (items : List Outline) : flatItems items = items.map flat := by
  induction items with
  | nil => rfl
  | cons o rest ih => rw [flatItems, ih, List.map_cons]

theorem flatEntries_eq_map (entries : List (String × Outline)) :
    flatEntries entries = (entries.map fun e => (some e.1, e.2)).map (partText flat) := by
  induction entries with
  | nil => rfl
  | cons first rest ih =>
    rw [flatEntries, ih, List.map_cons, List.map_cons]
    rfl

theorem map_partText_items (print : Outline → String) (items : List Outline) :
    (items.map fun o => (none, o)).map (partText print) = items.map print := by
  rw [List.map_map]
  apply List.map_congr_left
  intro o _
  exact String.empty_append

theorem map_partText_entries (level : Nat) (entries : List (String × Outline)) :
    (entries.map fun e => (some e.1, e.2)).map (partText (text level)) =
      entries.map (entryText level) := by
  rw [List.map_map]
  rfl

section Containers

variable {o : Outline} {c : Container} (h : o.container? = some c)

include h

theorem parts_eq_cons : ∃ first rest, c.parts = first :: rest := by
  unfold container? at h
  split at h
  · cases h
    exact ⟨_, _, rfl⟩
  · cases h
    exact ⟨_, _, rfl⟩
  · cases h

theorem text_container (level : Nat) :
    text level o = Dump.wrapped c.bracket.first c.bracket.last level
      (c.parts.map (partText (text (level + 1)))) := by
  unfold container? at h
  split at h
  · cases h
    rw [map_partText_items, text_array]
    rfl
  · cases h
    rw [map_partText_entries, text_object]
    rfl
  · cases h

theorem flat_container :
    flat o = Dump.oneLine c.bracket.first c.bracket.last (c.parts.map (partText flat)) := by
  unfold container? at h
  split at h
  · cases h
    rw [map_partText_items, flat, flatItems_eq_map]
    rfl
  · cases h
    rw [flat, flatEntries_eq_map]
    rfl
  · cases h

end Containers

/-- What a container has as soon as all its parts have it, and what all else has. -/
theorem container_induction {motive : Outline → Prop}
    (plain : ∀ o, o.container? = none → motive o)
    (container : ∀ o c, o.container? = some c → (∀ part ∈ c.parts, motive part.2) → motive o)
    (o : Outline) : motive o := by
  induction o using parts_induction with
  | array items ih =>
    cases items with
    | nil => exact plain _ rfl
    | cons o rest => exact container _ _ rfl (List.forall_mem_map.mpr ih)
  | object entries ih =>
    cases entries with
    | nil => exact plain _ rfl
    | cons entry rest => exact container _ _ rfl (List.forall_mem_map.mpr ih)
  | _ => exact plain _ rfl

/-! ## Text and flat text -/

theorem starts_number (n : Number) : Dump.Starts n.text.toList := by
  obtain ⟨c, digits, hchars, hdigit⟩ := Number.unsigned_eq_cons n
  rw [Number.toList_text, hchars]
  split
  · exact ⟨'-', c :: digits, rfl, by decide, rfl⟩
  · refine ⟨c, digits, rfl, ?_, ?_⟩
    · rintro rfl
      cases hdigit
    · cases hcloses : Dump.closes c with
      | false => rfl
      | true =>
        simp only [Dump.closes, Bool.or_eq_true, beq_iff_eq] at hcloses
        rcases hcloses with rfl | rfl <;> cases hdigit

theorem solid_number (n : Number) : Dump.Solid n.text.toList := by
  refine Dump.solid_of_class (p := fun c => decide (Decimal.NumberChar c)) (by decide) ?_
  intro c hc
  exact decide_eq_true (Number.numberChar_text n c hc)

theorem plain_spec {o : Outline} (h : o.container? = none) (level : Nat) :
    text level o = flat o ∧ Dump.Solid (flat o).toList ∧ Dump.Starts (flat o).toList := by
  cases o with
  | null =>
    rw [text, flat]
    exact ⟨rfl, ⟨by decide, fun _ => rfl⟩, 'n', _, rfl, by decide, rfl⟩
  | bool b =>
    rw [text, flat]
    cases b with
    | false => exact ⟨rfl, ⟨by decide, fun _ => rfl⟩, 'f', _, rfl, by decide, rfl⟩
    | true => exact ⟨rfl, ⟨by decide, fun _ => rfl⟩, 't', _, rfl, by decide, rfl⟩
  | number n =>
    rw [text, flat]
    exact ⟨rfl, solid_number n, starts_number n⟩
  | string s =>
    rw [text, flat]
    exact ⟨rfl, Dump.solid_quoted s, Dump.apostrophe, _, Dump.toList_quoted s, by decide, rfl⟩
  | array items =>
    cases items with
    | nil =>
      rw [text, flat]
      exact ⟨rfl, ⟨by decide, fun _ => rfl⟩, '[', _, rfl, by decide, rfl⟩
    | cons o rest => cases h
  | object entries =>
    cases entries with
    | nil =>
      rw [text, flat]
      exact ⟨rfl, ⟨by decide, fun _ => rfl⟩, '\x7b', _, rfl, by decide, rfl⟩
    | cons entry rest => cases h
  | hiddenArray =>
    rw [text, flat]
    exact ⟨rfl, ⟨by decide, fun _ => rfl⟩, '[', _, rfl, by decide, rfl⟩
  | hiddenObject =>
    rw [text, flat]
    exact ⟨rfl, ⟨by decide, fun _ => rfl⟩, '[', _, rfl, by decide, rfl⟩

theorem solid_label (name : Option String) : Dump.Solid (label name).toList := by
  cases name with
  | none => exact ⟨by decide, fun _ => rfl⟩
  | some name =>
    rw [label, String.toList_append]
    exact (Dump.solid_key name).append ⟨by decide, fun _ => rfl⟩

theorem starts_key (name : String) : Dump.Starts (Dump.key name).toList := by
  unfold Dump.key
  split
  · rename_i hname
    obtain ⟨c, cs, hchars, hstarts, -⟩ := Dump.continues_of_isIdentifier hname
    have hne {d : Char} (hd : Dump.startsIdentifier d = false) : c ≠ d := by
      rintro rfl
      rw [hstarts] at hd
      cases hd
    refine ⟨c, cs, hchars, hne (by decide), ?_⟩
    simp [Dump.closes, hne (d := ']') (by decide), hne (d := '\x7d') (by decide)]
  · exact ⟨Dump.apostrophe, _, Dump.toList_quoted name, by decide, rfl⟩

theorem starts_label {name : Option String} {c : Char} {rest : List Char}
    (h : (label name).toList = c :: rest) : c ≠ ' ' ∧ Dump.closes c = false := by
  cases name with
  | none => cases h
  | some name =>
    obtain ⟨d, tail, hkey, hd⟩ := starts_key name
    rw [label, String.toList_append, hkey] at h
    cases h
    exact hd

theorem laid (o : Outline) :
    ∀ level, Dump.Laid level (text level o).toList (flat o).toList := by
  induction o using container_induction with
  | plain o hplain =>
    intro level
    obtain ⟨htext, hsolid, hstarts⟩ := plain_spec hplain level
    rw [htext]
    exact hsolid.laid hstarts level
  | container o c hc ih =>
    intro level
    rw [text_container hc, flat_container hc]
    obtain ⟨first, rest, hparts⟩ := parts_eq_cons hc
    rw [hparts] at ih ⊢
    apply Dump.laid_wrapped
    intro part hpart
    rw [partText, partText, String.toList_append, String.toList_append]
    exact (ih part hpart (level + 1)).label (solid_label part.1) fun _ _ => starts_label

theorem unbroken_text (level : Nat) (o : Outline) :
    Dump.unbroken false (text level o).toList = (flat o).toList := by
  have hjoined := (laid o level).joined []
  rw [List.append_nil] at hjoined
  exact hjoined.trans (List.append_nil _)

/-! ## Which containers are broken -/

theorem newline_not_mem_flat (o : Outline) : '\n' ∉ (flat o).toList := by
  rw [← unbroken_text 0 o]
  exact Dump.newline_not_mem_unbroken false _

theorem text_eq_flat {level : Nat} {o : Outline} (h : '\n' ∉ (text level o).toList) :
    text level o = flat o := by
  apply String.toList_inj.mp
  rw [← unbroken_text level o]
  have hsame := Dump.unbroken_append h []
  rw [List.append_nil] at hsame
  exact (hsame.trans (List.append_nil _)).symm

theorem wide_of_broken (o : Outline) :
    ∀ level, '\n' ∈ (text level o).toList → Dump.lineWidth < (flat o).utf8ByteSize := by
  induction o using container_induction with
  | plain o hplain =>
    intro level h
    rw [(plain_spec hplain level).1] at h
    exact absurd h (newline_not_mem_flat o)
  | container o c hc ih =>
    intro level h
    rw [flat_container hc]
    by_cases hparts : ∃ part ∈ c.parts, '\n' ∈ (text (level + 1) part.2).toList
    · obtain ⟨part, hpart, hbroken⟩ := hparts
      have hwide := ih part hpart (level + 1) hbroken
      have hlonger : (flat part.2).utf8ByteSize ≤ (partText flat part).utf8ByteSize := by
        rw [partText, String.utf8ByteSize_append]
        omega
      have hline := Dump.size_le_of_infix (Dump.infix_oneLine c.bracket.first c.bracket.last
        (List.mem_map_of_mem (f := partText flat) hpart))
      omega
    · have hsame : c.parts.map (partText (text (level + 1))) = c.parts.map (partText flat) := by
        apply List.map_congr_left
        intro part hpart
        rw [partText, partText, text_eq_flat fun hbroken => hparts ⟨part, hpart, hbroken⟩]
      have hflat := newline_not_mem_flat o
      rw [flat_container hc] at hflat
      rw [text_container hc, hsame] at h
      rcases Dump.wrapped_cases _ _ level (c.parts.map (partText flat)) with
        ⟨hline, -⟩ | ⟨-, hwide | hbroken⟩
      · rw [hline] at h
        exact absurd h hflat
      · exact hwide
      · exact absurd hbroken hflat

/-- A container that is too long for one line has its parts on lines of their own, one level further
in, and any other stands on one line. -/
theorem text_eq_of_container {o : Outline} {c : Container} (h : o.container? = some c)
    (level : Nat) :
    text level o =
      if Dump.lineWidth < (flat o).utf8ByteSize then
        bracketed c.bracket.first c.bracket.last Dump.step (level * Dump.step)
          (c.parts.map (partText (text (level + 1))))
      else flat o := by
  split
  · rename_i hwide
    have htext := text_container h level
    rcases Dump.wrapped_cases c.bracket.first c.bracket.last level
        (c.parts.map (partText (text (level + 1)))) with ⟨hline, hshort, hflat⟩ | ⟨hlines, -⟩
    · rw [hline] at htext
      rw [← htext] at hshort hflat
      rw [← text_eq_flat hflat] at hwide
      omega
    · exact htext.trans hlines
  · rename_i hshort
    apply text_eq_flat
    intro hbroken
    exact hshort (wide_of_broken o level hbroken)

theorem broken_iff {o : Outline} {c : Container} (h : o.container? = some c) (level : Nat) :
    '\n' ∈ (text level o).toList ↔ Dump.lineWidth < (flat o).utf8ByteSize := by
  constructor
  · exact wide_of_broken o level
  · intro hwide
    rw [text_eq_of_container h, if_pos hwide]
    simp [bracketed]

/-! ## Where a container stands -/

/-- The outline stands inside another one, at a level counted from there. -/
inductive Within (whole : Outline) : Nat → Outline → Prop
  | whole : Within whole 0 whole
  | part {level : Nat} {o : Outline} {c : Container} {part : Option String × Outline}
      (h : Within whole level o) (hc : o.container? = some c) (hpart : part ∈ c.parts) :
      Within whole (level + 1) part.2

theorem infix_of_within {whole o : Outline} {level : Nat} (h : whole.Within level o) :
    (text level o).toList <:+: (text 0 whole).toList := by
  induction h with
  | whole => exact List.infix_refl _
  | @part level o c part _ hc hpart ih =>
    have hlabel : (text (level + 1) part.2).toList <:+:
        (partText (text (level + 1)) part).toList := by
      rw [partText, String.toList_append]
      exact (List.suffix_append _ _).isInfix
    have hpart' := List.mem_map_of_mem (f := partText (text (level + 1))) hpart
    rw [text_container hc] at ih
    refine hlabel.trans (List.IsInfix.trans ?_ ih)
    rcases Dump.wrapped_cases c.bracket.first c.bracket.last level
        (c.parts.map (partText (text (level + 1)))) with ⟨hline, -⟩ | ⟨hlines, -⟩
    · rw [hline]
      exact Dump.infix_oneLine _ _ hpart'
    · rw [hlines]
      exact Dump.infix_bracketed _ _ _ _ hpart'

end Outline

/-- How a dump is laid out. Read without its line breaks it is the flat text of the value. A
container that is shown with its parts stands in it on several lines exactly if its flat text takes
more than 72 bytes; then each part starts on a line of its own, one level further in, and the
closing bracket stands on a line at the level of the container. Every new line stands two spaces in
for each bracket that is open there outside strings, where a closing bracket at its start counts
already, and no line ends in a string or a key. -/
theorem inspect_layout (v : Json) (depth : Nat) :
    v.inspect depth = (v.outline depth).text 0 ∧
      Dump.unbroken false (v.inspect depth).toList = (v.outline depth).flat.toList ∧
      (∀ level o c, (v.outline depth).Within level o → o.container? = some c →
        (o.text level).toList <:+: (v.inspect depth).toList ∧
        ('\n' ∈ (o.text level).toList ↔ 72 < o.flat.utf8ByteSize) ∧
        o.text level =
          if 72 < o.flat.utf8ByteSize then
            bracketed c.bracket.first c.bracket.last 2 (2 * level)
              (c.parts.map (Outline.partText (Outline.text (level + 1))))
          else o.flat) ∧
      (∀ before after, (v.inspect depth).toList = before ++ '\n' :: after →
        (Dump.Reading.start.after before).mode = .plain ∧
        Dump.Indented (Dump.Reading.start.after before).opened after) ∧
      ∀ text, '\n' ∉ (Dump.quoted text).toList ∧ '\n' ∉ (Dump.key text).toList := by
  have htext : v.inspect depth = (v.outline depth).text 0 :=
    (Outline.text_outlineAt depth 0 v).symm
  rw [htext]
  refine ⟨rfl, Outline.unbroken_text 0 _, ?_, ?_, ?_⟩
  · intro level o c hwithin hc
    have hlines := Outline.text_eq_of_container hc level
    rw [Nat.mul_comm] at hlines
    exact ⟨Outline.infix_of_within hwithin, Outline.broken_iff hc level, hlines⟩
  · intro before after hsplit
    have haligned := (Outline.laid (v.outline depth) 0).aligned [] trivial
    rw [List.append_nil] at haligned
    exact haligned.split hsplit
  · intro text
    exact ⟨(Dump.solid_quoted text).unbroken, (Dump.solid_key text).unbroken⟩

theorem inspect_layout_nested :
    let list : Outline := .array [.string "a fairly long string value",
      .string "another fairly long string value, and more"]
    let v : Json := .object [("list", .array [.string "a fairly long string value",
      .string "another fairly long string value, and more"])]
    (v.outline 2).Within 1 list ∧ '\n' ∈ (list.text 1).toList ∧
      ∃ before after, (v.inspect 2).toList = before ++ '\n' :: after ∧
        Dump.Indented (Dump.Reading.start.after before).opened after := by
  intro list v
  have hwithin : (v.outline 2).Within (0 + 1) ((some "list", list) : Option String × Outline).2 :=
    .part .whole rfl List.mem_cons_self
  obtain ⟨-, -, hcontainers, hlines, -⟩ := inspect_layout v 2
  obtain ⟨hstands, hbroken, -⟩ := hcontainers 1 list _ hwithin rfl
  have hbreak : '\n' ∈ (list.text 1).toList := hbroken.mpr (by decide +kernel)
  obtain ⟨before, after, hsplit⟩ := List.append_of_mem (hstands.subset hbreak)
  exact ⟨hwithin, hbreak, before, after, hsplit, (hlines before after hsplit).2⟩

end RecordConsole.Json
