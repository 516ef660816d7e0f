import RecordConsole.Proofs.Json.Unambiguous

/-! The lines of a dump. A reader goes through a text character by character and keeps count of the
brackets that are open outside strings; each new line should stand as far in as that count says.
Pieces of text that keep to this, and that start with something to see, can be put together. -/
namespace RecordConsole.Json.Dump

inductive Mode where
  | plain
  | quoted
  | escaped
deriving DecidableEq

/-- How many brackets are open, and whether the reader is in a string, and there after a
backslash. -/
structure Reading where
  opened : Nat
  mode : Mode
deriving DecidableEq

def opens (c : Char) : Bool := c == '[' || c == '\x7b'

def closes (c : Char) : Bool := c == ']' || c == '\x7d'

namespace Reading

def next (r : Reading) (c : Char) : Reading :=
  match r.mode with
  | .plain =>
    if c = apostrophe then { r with mode := .quoted }
    else if opens c then { r with opened := r.opened + 1 }
    else if closes c then { r with opened := r.opened - 1 }
    else r
  | .quoted =>
    if c = '\\' then { r with mode := .escaped }
    else if c = apostrophe then { r with mode := .plain }
    else r
  | .escaped => { r with mode := .quoted }

def after (r : Reading) (text : List Char) : Reading := text.foldl next r

theorem after_append (r : Reading) (text rest : List Char) :
    r.after (text ++ rest) = (r.after text).after rest := List.foldl_append

theorem after_cons (r : Reading) (c : Char) (rest : List Char) :
    r.after (c :: rest) = (r.next c).after rest := rfl

def start : Reading := ⟨0, .plain⟩

end Reading

/-- How many levels in a line stands that starts with this character. A closing bracket stands where
the line of its container does. -/
def lineLevel (opened : Nat) (c : Char) : Nat := if closes c then opened - 1 else opened

def Indented (opened : Nat) (line : List Char) : Prop :=
  ∃ c rest, line = List.replicate (2 * lineLevel opened c) ' ' ++ c :: rest ∧ c ≠ ' '

/-- Lines end outside strings only, and the next line stands as far in as brackets are open. -/
def Aligned : Reading → List Char → Prop
  | _, [] => True
  | r, c :: rest => (c = '\n' → r.mode = .plain ∧ Indented r.opened rest) ∧ Aligned (r.next c) rest

theorem Aligned.split {r : Reading} {text before after : List Char} (h : Aligned r text)
    (htext : text = before ++ '\n' :: after) :
    (r.after before).mode = .plain ∧ Indented (r.after before).opened after := by
  induction before generalizing r text with
  | nil =>
    subst htext
    exact h.1 rfl
  | cons c before ih =>
    subst htext
    exact ih h.2 rfl

def unbroken (skipping : Bool) : List Char → List Char
  | [] => []
  | c :: rest =>
    if c = '\n' then ' ' :: unbroken true rest
    else if skipping && c == ' ' then unbroken true rest
    else c :: unbroken false rest

theorem newline_not_mem_unbroken (skipping : Bool) (text : List Char) :
    '\n' ∉ unbroken skipping text := by
  induction text generalizing skipping with
  | nil => exact List.not_mem_nil
  | cons c rest ih =>
    rw [unbroken]
    split
    · simp [ih]
    · rename_i hbreak
      split
      · exact ih true
      · simp [ih, Ne.symm hbreak]

theorem unbroken_append {text : List Char} (h : '\n' ∉ text) (rest : List Char) :
    unbroken false (text ++ rest) = text ++ unbroken false rest := by
  induction text with
  | nil => rfl
  | cons c text ih =>
    rw [List.mem_cons, not_or] at h
    rw [List.cons_append, unbroken, if_neg (Ne.symm h.1), Bool.false_and, if_neg (by simp), ih h.2,
      List.cons_append]

theorem aligned_append {r : Reading} {text rest : List Char} (h : '\n' ∉ text)
    (hrest : Aligned (r.after text) rest) : Aligned r (text ++ rest) := by
  induction text generalizing r with
  | nil => exact hrest
  | cons c text ih =>
    rw [List.mem_cons, not_or] at h
    exact ⟨fun hc => absurd hc.symm h.1, ih h.2 hrest⟩

/-! ## Gaps -/

theorem unbroken_gap (broken : Bool) (margin : Nat) {c : Char} (hc : c ≠ ' ') (rest : List Char) :
    unbroken false (gap broken margin ++ c :: rest) = ' ' :: unbroken false (c :: rest) := by
  cases broken with
  | false => rfl
  | true =>
    have hspaces : unbroken true (List.replicate margin ' ' ++ c :: rest) =
        unbroken false (c :: rest) := by
      induction margin with
      | zero => simp [unbroken, hc]
      | succ margin ih =>
        rw [List.replicate_succ, List.cons_append, unbroken, if_neg (by decide), if_pos (by simp),
          ih]
    exact congrArg (' ' :: ·) hspaces

theorem aligned_gap (broken : Bool) {opened : Nat} {c : Char} (hc : c ≠ ' ') {rest : List Char}
    (hrest : Aligned ⟨opened, .plain⟩ (c :: rest)) :
    Aligned ⟨opened, .plain⟩ (gap broken (2 * lineLevel opened c) ++ c :: rest) := by
  have hspaces (count : Nat) :
      Aligned ⟨opened, .plain⟩ (List.replicate count ' ' ++ c :: rest) := by
    apply aligned_append
    · simp
    · have hsame :
          Reading.after ⟨opened, .plain⟩ (List.replicate count ' ') = ⟨opened, .plain⟩ := by
        induction count with
        | zero => rfl
        | succ count ih => exact ih
      rw [hsame]
      exact hrest
  cases broken with
  | false => exact hspaces 1
  | true => exact ⟨fun _ => ⟨rfl, c, rest, rfl, hc⟩, hspaces _⟩

/-! ## Pieces -/

/-- Nothing in the piece ends a line, and it opens and closes nothing on the whole. -/
structure Solid (text : List Char) : Prop where
  unbroken : '\n' ∉ text
  neutral : ∀ opened, Reading.after ⟨opened, .plain⟩ text = ⟨opened, .plain⟩

theorem Solid.append {text rest : List Char} (h : Solid text) (h' : Solid rest) :
    Solid (text ++ rest) where
  unbroken := by
    rw [List.mem_append, not_or]
    exact ⟨h.unbroken, h'.unbroken⟩
  neutral opened := by rw [Reading.after_append, h.neutral, h'.neutral]

def Bland (c : Char) : Prop := c ≠ '\n' ∧ c ≠ apostrophe ∧ opens c = false ∧ closes c = false

theorem Bland.next {c : Char} (h : Bland c) (opened : Nat) :
    Reading.next ⟨opened, .plain⟩ c = ⟨opened, .plain⟩ := by
  simp [Reading.next, h.2.1, h.2.2.1, h.2.2.2]

theorem solid_of_bland {text : List Char} (h : ∀ c ∈ text, Bland c) : Solid text where
  unbroken hmem := (h _ hmem).1 rfl
  neutral opened := by
    induction text with
    | nil => rfl
    | cons c rest ih =>
      rw [Reading.after_cons, (h c List.mem_cons_self).next]
      exact ih fun d hd => h d (List.mem_cons_of_mem c hd)

theorem after_escape (opened : Nat) (c : Char) :
    Reading.after ⟨opened, .quoted⟩ (escape c) = ⟨opened, .quoted⟩ := by
  rcases escape_cases c with ⟨hc, hslash, hquote⟩ | ⟨e, hc, -⟩
  · rw [hc]
    simp [Reading.after, Reading.next, hslash, hquote]
  · rw [hc]
    rfl

theorem newline_not_mem_escape (c : Char) : '\n' ∉ escape c := by
  intro hmem
  rcases escape_cases c with ⟨hc, -, -⟩ | ⟨e, hc, he⟩
  · rw [hc] at hmem
    obtain rfl := List.mem_singleton.mp hmem
    exact absurd hc (by decide)
  · rw [hc] at hmem
    have hbreak : e = '\n' := by simpa [eq_comm] using hmem
    subst hbreak
    have hc' : c = '\n' := he.symm.trans (by decide)
    subst hc'
    exact absurd hc (by decide)

theorem solid_quoted (text : String) : Solid (quoted text).toList := by
  rw [toList_quoted]
  constructor
  · intro hmem
    rcases List.mem_cons.mp hmem with hquote | hmem
    · exact absurd hquote (by decide)
    · rcases List.mem_append.mp hmem with hmem | hmem
      · obtain ⟨c, -, hc⟩ := List.mem_flatMap.mp hmem
        exact newline_not_mem_escape c hc
      · exact absurd (List.mem_singleton.mp hmem) (by decide)
  · intro opened
    have hescapes (chars : List Char) :
        Reading.after ⟨opened, .quoted⟩ (chars.flatMap escape) = ⟨opened, .quoted⟩ := by
      induction chars with
      | nil => rfl
      | cons c rest ih => rw [List.flatMap_cons, Reading.after_append, after_escape, ih]
    have hquote : Reading.next ⟨opened, .plain⟩ apostrophe = ⟨opened, .quoted⟩ := rfl
    rw [Reading.after_cons, hquote, Reading.after_append, hescapes]
    rfl

def marks : List Char := ['\n', apostrophe, '[', '\x7b', ']', '\x7d']

theorem bland_of_not_mem_marks {c : Char} (h : c ∉ marks) : Bland c := by
  simp only [marks, List.mem_cons, not_or] at h
  obtain ⟨hbreak, hquote, hsquare, hcurly, hsquare', hcurly', -⟩ := h
  refine ⟨hbreak, hquote, ?_, ?_⟩
  · simp [opens, hsquare, hcurly]
  · simp [closes, hsquare', hcurly']

theorem solid_of_class {p : Char → Bool} (hmarks : marks.any p = false) {text : List Char}
    (h : ∀ c ∈ text, p c = true) : Solid text := by
  apply solid_of_bland
  intro c hc
  apply bland_of_not_mem_marks
  intro hmark
  have hsome : marks.any p = true := List.any_eq_true.mpr ⟨c, hmark, h c hc⟩
  rw [hmarks] at hsome
  cases hsome

theorem solid_key (name : String) : Solid (key name).toList := by
  unfold key
  split
  · rename_i hname
    obtain ⟨c, cs, hchars, -, hcontinues⟩ := continues_of_isIdentifier hname
    rw [hchars]
    exact solid_of_class (by decide) hcontinues
  · exact solid_quoted name

/-! ## Laid out text -/

def Starts (text : List Char) : Prop :=
  ∃ c rest, text = c :: rest ∧ c ≠ ' ' ∧ closes c = false

/-- The text of a value inside as many containers as are open: without its line breaks it is the flat
text, it keeps to the levels, and it starts as values do. Both laws speak of whatever follows, so
that pieces can be put together. -/
structure Laid (opened : Nat) (text flat : List Char) : Prop where
  starts : Starts text
  joined : ∀ rest, unbroken false (text ++ rest) = flat ++ unbroken false rest
  aligned : ∀ rest, Aligned ⟨opened, .plain⟩ rest → Aligned ⟨opened, .plain⟩ (text ++ rest)

theorem Solid.laid {text : List Char} (h : Solid text) (hstarts : Starts text) (opened : Nat) :
    Laid opened text text where
  starts := hstarts
  joined rest := unbroken_append h.unbroken rest
  aligned rest hrest := aligned_append h.unbroken (by rw [h.neutral]; exact hrest)

theorem Laid.label {opened : Nat} {label text flat : List Char} (h : Laid opened text flat)
    (hlabel : Solid label)
    (hstarts : ∀ c rest, label = c :: rest → c ≠ ' ' ∧ closes c = false) :
    Laid opened (label ++ text) (label ++ flat) where
  starts := by
    cases label with
    | nil => exact h.starts
    | cons c rest => exact ⟨c, rest ++ text, rfl, hstarts c rest rfl⟩
  joined rest := by
    rw [List.append_assoc, unbroken_append hlabel.unbroken, h.joined, List.append_assoc]
  aligned rest hrest := by
    rw [List.append_assoc]
    apply aligned_append hlabel.unbroken
    rw [hlabel.neutral]
    exact h.aligned rest hrest

section Gaps

variable {opened : Nat} {text flat : List Char} (h : Laid opened text flat) (broken : Bool)
  (rest : List Char)

include h

theorem Laid.joined_gap (margin : Nat) :
    unbroken false (gap broken margin ++ (text ++ rest)) =
      gap false margin ++ (flat ++ unbroken false rest) := by
  obtain ⟨c, tail, htext, hc, -⟩ := h.starts
  rw [← h.joined, htext]
  exact unbroken_gap broken margin hc (tail ++ rest)

theorem Laid.aligned_gap (hrest : Aligned ⟨opened, .plain⟩ rest) :
    Aligned ⟨opened, .plain⟩ (gap broken (2 * opened) ++ (text ++ rest)) := by
  have htext := h.aligned rest hrest
  obtain ⟨c, tail, rfl, hc, hcloses⟩ := h.starts
  have hgap := Dump.aligned_gap broken hc htext
  rwa [lineLevel, hcloses] at hgap

end Gaps

/-! ## Containers -/

inductive Bracket where
  | square
  | curly

namespace Bracket

def first : Bracket → String
  | square => "["
  | curly => "\x7b"

def last : Bracket → String
  | square => "]"
  | curly => "\x7d"

theorem toList_first (b : Bracket) :
    ∃ c, b.first.toList = [c] ∧ c ≠ '\n' ∧ c ≠ ' ' ∧ closes c = false ∧
      ∀ opened, Reading.next ⟨opened, .plain⟩ c = ⟨opened + 1, .plain⟩ := by
  cases b with
  | square => exact ⟨'[', rfl, by decide, by decide, rfl, fun _ => rfl⟩
  | curly => exact ⟨'\x7b', rfl, by decide, by decide, rfl, fun _ => rfl⟩

theorem toList_last (b : Bracket) :
    ∃ c, b.last.toList = [c] ∧ c ≠ '\n' ∧ c ≠ ' ' ∧ closes c = true ∧
      ∀ opened, Reading.next ⟨opened + 1, .plain⟩ c = ⟨opened, .plain⟩ := by
  cases b with
  | square => exact ⟨']', rfl, by decide, by decide, rfl, fun _ => rfl⟩
  | curly => exact ⟨'\x7d', rfl, by decide, by decide, rfl, fun _ => rfl⟩

end Bracket

/-! ### What is in a container -/

theorem infix_intercalate (separator : String) {part : String} {parts : List String}
    (h : part ∈ parts) : part.toList <:+: (separator.intercalate parts).toList := by
  induction parts with
  | nil => cases h
  | cons head others ih =>
    cases others with
    | nil =>
      obtain rfl := List.mem_singleton.mp h
      exact ⟨[], [], by simp⟩
    | cons next more =>
      rw [String.intercalate_cons_cons, String.toList_append, String.toList_append]
      rcases List.mem_cons.mp h with rfl | h
      · exact ((List.prefix_append _ _).trans (List.prefix_append _ _)).isInfix
      · exact (ih h).trans (List.suffix_append _ _).isInfix

theorem infix_oneLine (first last : String) {part : String} {parts : List String}
    (h : part ∈ parts) : part.toList <:+: (oneLine first last parts).toList := by
  refine (infix_intercalate ", " h).trans ⟨(first ++ " ").toList, (" " ++ last).toList, ?_⟩
  simp [oneLine]

theorem infix_bracketed (first last : String) (width margin : Nat) {part : String}
    {parts : List String} (h : part ∈ parts) :
    part.toList <:+: (bracketed first last width margin parts).toList := by
  refine (infix_intercalate (",\n" ++ spaces (margin + width)) h).trans
    ⟨(first ++ "\n" ++ spaces (margin + width)).toList, ("\n" ++ spaces margin ++ last).toList, ?_⟩
  simp [bracketed]

theorem size_le_of_infix {part whole : String} (h : part.toList <:+: whole.toList) :
    part.utf8ByteSize ≤ whole.utf8ByteSize := by
  obtain ⟨before, after, hwhole⟩ := h
  have hsplit : String.ofList before ++ part ++ String.ofList after = whole := by
    apply String.toList_inj.mp
    simpa using hwhole
  rw [← hsplit, String.utf8ByteSize_append, String.utf8ByteSize_append]
  omega

theorem wrapped_cases (first last : String) (level : Nat) (parts : List String) :
    (wrapped first last level parts = oneLine first last parts ∧
        (oneLine first last parts).utf8ByteSize ≤ lineWidth ∧
        '\n' ∉ (oneLine first last parts).toList) ∨
      wrapped first last level parts =
          bracketed first last step (level * step) parts ∧
        (lineWidth < (oneLine first last parts).utf8ByteSize ∨
          '\n' ∈ (oneLine first last parts).toList) := by
  simp only [wrapped]
  split
  · rename_i hshort
    left
    simpa using hshort
  · rename_i hlong
    right
    refine ⟨rfl, ?_⟩
    by_cases hwide : lineWidth < (oneLine first last parts).utf8ByteSize
    · exact Or.inl hwide
    · right
      simpa [Nat.le_of_not_lt hwide] using hlong

/-! ### The layout of a container -/

section Parts

variable {α : Type} {print flat : α → String} {level : Nat} {parts : List α}
  (h : ∀ a ∈ parts, Laid (level + 1) (print a).toList (flat a).toList) (broken : Bool)
  (rest : List Char)

include h

theorem joined_tailParts :
    unbroken false (tailParts print broken (2 * (level + 1)) parts ++ rest) =
      tailParts flat false (2 * (level + 1)) parts ++ unbroken false rest := by
  induction parts with
  | nil => rfl
  | cons a others ih =>
    have hfirst := h a List.mem_cons_self
    have hothers := ih fun b hb => h b (List.mem_cons_of_mem a hb)
    simp only [tailParts, List.flatMap_cons, List.cons_append, List.append_assoc] at hothers ⊢
    rw [unbroken, if_neg (by decide), if_neg (by simp), hfirst.joined_gap, hothers]

theorem aligned_tailParts (hrest : Aligned ⟨level + 1, .plain⟩ rest) :
    Aligned ⟨level + 1, .plain⟩ (tailParts print broken (2 * (level + 1)) parts ++ rest) := by
  induction parts with
  | nil => exact hrest
  | cons a others ih =>
    have hfirst := h a List.mem_cons_self
    have hothers := ih fun b hb => h b (List.mem_cons_of_mem a hb)
    simp only [tailParts, List.flatMap_cons, List.cons_append, List.append_assoc] at hothers ⊢
    exact ⟨fun hcomma => absurd hcomma (by decide), hfirst.aligned_gap broken _ hothers⟩

end Parts

/-- A container is laid out if its parts are, one level further in. -/
theorem laid_wrapped (b : Bracket) {α : Type} {print flat : α → String} {level : Nat} {a : α}
    {others : List α}
    (h : ∀ part ∈ a :: others, Laid (level + 1) (print part).toList (flat part).toList) :
    Laid level (wrapped b.first b.last level ((a :: others).map print)).toList
      (oneLine b.first b.last ((a :: others).map flat)).toList := by
  have hfirst := h a List.mem_cons_self
  have hothers : ∀ part ∈ others, Laid (level + 1) (print part).toList (flat part).toList :=
    fun part hpart => h part (List.mem_cons_of_mem a hpart)
  obtain ⟨c, hc, hbreak, hblank, hcloses, hopening⟩ := b.toList_first
  obtain ⟨d, hd, hbreak', hblank', hcloses', hclosing⟩ := b.toList_last
  obtain ⟨broken, htext⟩ := toList_wrapped print b.first b.last level a others
  have hinner : level * step + step = 2 * (level + 1) := by simp [step]; omega
  have houter : level * step = 2 * level := Nat.mul_comm level 2
  rw [hinner, houter, hc, hd] at htext
  have hflat := toList_oneLine flat b.first b.last (2 * (level + 1)) (2 * level) a others
  rw [hc, hd] at hflat
  rw [htext, hflat]
  have hopen : '\n' ∉ [c] := by simpa using Ne.symm hbreak
  have hclose : '\n' ∉ [d] := by simpa using Ne.symm hbreak'
  constructor
  · exact ⟨c, _, rfl, hblank, hcloses⟩
  · intro rest
    have hend : unbroken false (gap broken (2 * level) ++ ([d] ++ rest)) =
        gap false (2 * level) ++ ([d] ++ unbroken false rest) := by
      rw [← unbroken_append hclose]
      exact unbroken_gap broken (2 * level) hblank' rest
    simp only [List.append_assoc]
    rw [unbroken_append hopen, hfirst.joined_gap, joined_tailParts hothers, hend]
  · intro rest hrest
    have hend : Aligned ⟨level + 1, .plain⟩ (gap broken (2 * level) ++ ([d] ++ rest)) := by
      have hlast : Aligned ⟨level + 1, .plain⟩ (d :: rest) := by
        refine ⟨fun hd => absurd hd hbreak', ?_⟩
        rw [hclosing]
        exact hrest
      have hgap := aligned_gap broken hblank' hlast
      rwa [lineLevel, if_pos hcloses', Nat.add_sub_cancel] at hgap
    simp only [List.append_assoc]
    apply aligned_append hopen
    have hafter : Reading.after ⟨level, .plain⟩ [c] = ⟨level + 1, .plain⟩ := hopening level
    rw [hafter]
    exact hfirst.aligned_gap broken _ (aligned_tailParts hothers broken _ hend)

end RecordConsole.Json.Dump
