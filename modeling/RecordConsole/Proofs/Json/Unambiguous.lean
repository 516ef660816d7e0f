import RecordConsole.Proofs.Json.Outline

/-! How the text of a dump is read off again. The first characters tell the form of a value, escapes
and identifiers tell where a string or a key ends, and what may follow a value is no part of it. -/
namespace RecordConsole.Json

/-- What may stand after the text of a value goes on with none. -/
def Follows (rest : List Char) : Prop :=
  ∀ c, rest.head? = some c → c = ',' ∨ c = ' ' ∨ c = '\n'

variable {α : Type}

/-- Whatever stands after it, the text of a part tells the part and where it ends. -/
def Tells (print : α → String) (a : α) : Prop :=
  ∀ b rest rest', Follows rest → Follows rest' →
    (print a).toList ++ rest = (print b).toList ++ rest' → a = b ∧ rest = rest'

theorem follows_nil : Follows [] := fun _ h => by cases h

theorem follows_cons {c : Char} (h : c = ',' ∨ c = ' ' ∨ c = '\n') (rest : List Char) :
    Follows (c :: rest) := by
  intro d hd
  cases hd
  exact h

theorem run_append_inj {p : Char → Bool} {run run' rest rest' : List Char}
    (hrun : ∀ c ∈ run, p c = true) (hrun' : ∀ c ∈ run', p c = true)
    (hrest : ∀ c, rest.head? = some c → p c = false)
    (hrest' : ∀ c, rest'.head? = some c → p c = false) (h : run ++ rest = run' ++ rest') :
    run = run' ∧ rest = rest' := by
  induction run generalizing run' with
  | nil =>
    cases run' with
    | nil => exact ⟨rfl, h⟩
    | cons d run' =>
      have hfalse := hrest d (by rw [List.nil_append] at h; rw [h]; rfl)
      exact absurd (hrun' d List.mem_cons_self) (by simp [hfalse])
  | cons c run ih =>
    cases run' with
    | nil =>
      have hfalse := hrest' c (by rw [List.nil_append] at h; rw [← h]; rfl)
      exact absurd (hrun c List.mem_cons_self) (by simp [hfalse])
    | cons d run' =>
      obtain ⟨rfl, htail⟩ := List.cons.inj h
      obtain ⟨hsame, hrest⟩ := ih (fun e he => hrun e (List.mem_cons_of_mem _ he))
        (fun e he => hrun' e (List.mem_cons_of_mem _ he)) htail
      exact ⟨congrArg (c :: ·) hsame, hrest⟩

namespace Dump

/-! ## Strings and keys -/

def unescaped (c : Char) : Char :=
  if c = 'n' then '\n' else if c = 't' then '\t' else if c = 'r' then '\r' else c

theorem escape_cases (c : Char) :
    (escape c = [c] ∧ c ≠ '\\' ∧ c ≠ apostrophe) ∨
      ∃ e, escape c = ['\\', e] ∧ unescaped e = c := by
  unfold escape
  split
  · rename_i h
    exact Or.inr ⟨apostrophe, rfl, by rw [h]; decide⟩
  · rename_i hquote
    split
    · rename_i h
      exact Or.inr ⟨'\\', rfl, by rw [h]; decide⟩
    · rename_i hslash
      split
      · rename_i h
        exact Or.inr ⟨'n', rfl, by rw [h]; decide⟩
      · split
        · rename_i h
          exact Or.inr ⟨'t', rfl, by rw [h]; decide⟩
        · split
          · rename_i h
            exact Or.inr ⟨'r', rfl, by rw [h]; decide⟩
          · exact Or.inl ⟨rfl, hslash, hquote⟩

theorem escape_append_inj {c d : Char} {rest rest' : List Char}
    (h : escape c ++ rest = escape d ++ rest') : c = d ∧ rest = rest' := by
  rcases escape_cases c with ⟨hc, hslash, -⟩ | ⟨e, hc, he⟩
  · rcases escape_cases d with ⟨hd, -, -⟩ | ⟨e', hd, -⟩
    · rw [hc, hd] at h
      exact List.cons.inj h
    · rw [hc, hd] at h
      exact absurd (List.cons.inj h).1 hslash
  · rcases escape_cases d with ⟨hd, hslash, -⟩ | ⟨e', hd, he'⟩
    · rw [hc, hd] at h
      exact absurd (List.cons.inj h).1.symm hslash
    · rw [hc, hd] at h
      obtain ⟨hsame, hrest⟩ := List.cons.inj (List.cons.inj h).2
      exact ⟨he.symm.trans ((congrArg unescaped hsame).trans he'), hrest⟩

theorem escape_ne_apostrophe (c : Char) (rest more : List Char) :
    escape c ++ rest ≠ apostrophe :: more := by
  intro h
  rcases escape_cases c with ⟨hc, -, hne⟩ | ⟨e, hc, -⟩
  · rw [hc] at h
    exact hne (List.cons.inj h).1
  · rw [hc] at h
    exact absurd (List.cons.inj h).1 (by decide)

theorem escaped_append_inj {cs ds rest rest' : List Char}
    (h : cs.flatMap escape ++ apostrophe :: rest = ds.flatMap escape ++ apostrophe :: rest') :
    cs = ds ∧ rest = rest' := by
  induction cs generalizing ds with
  | nil =>
    cases ds with
    | nil => exact ⟨rfl, (List.cons.inj h).2⟩
    | cons d ds =>
      rw [List.flatMap_cons, List.append_assoc] at h
      exact absurd h.symm (escape_ne_apostrophe d _ _)
  | cons c cs ih =>
    cases ds with
    | nil =>
      rw [List.flatMap_cons, List.append_assoc] at h
      exact absurd h (escape_ne_apostrophe c _ _)
    | cons d ds =>
      rw [List.flatMap_cons, List.flatMap_cons, List.append_assoc, List.append_assoc] at h
      obtain ⟨rfl, htail⟩ := escape_append_inj h
      obtain ⟨rfl, hrest⟩ := ih htail
      exact ⟨rfl, hrest⟩

theorem toList_quoted (text : String) :
    (quoted text).toList = apostrophe :: (text.toList.flatMap escape ++ [apostrophe]) := by
  rw [quoted, String.toList_ofList]

theorem quoted_append_inj {s t : String} {rest rest' : List Char}
    (h : (quoted s).toList ++ rest = (quoted t).toList ++ rest') : s = t ∧ rest = rest' := by
  rw [toList_quoted, toList_quoted] at h
  simp only [List.cons_append, List.append_assoc, List.cons.injEq, true_and,
    List.nil_append] at h
  obtain ⟨hsame, hrest⟩ := escaped_append_inj h
  exact ⟨String.toList_inj.mp hsame, hrest⟩

theorem continues_of_isIdentifier {text : String} (h : isIdentifier text = true) :
    ∃ c cs, text.toList = c :: cs ∧ startsIdentifier c = true ∧
      ∀ d ∈ c :: cs, continuesIdentifier d = true := by
  unfold isIdentifier at h
  cases hchars : text.toList with
  | nil => simp [hchars] at h
  | cons c cs =>
    simp only [hchars, Bool.and_eq_true, List.all_eq_true] at h
    refine ⟨c, cs, rfl, h.1, ?_⟩
    intro d hd
    rcases List.mem_cons.mp hd with rfl | hd
    · have hstarts := h.1
      simp only [startsIdentifier, Bool.or_eq_true] at hstarts
      simp only [continuesIdentifier, Text.isAlphanumeric, Bool.or_eq_true]
      grind
    · exact h.2 d hd

theorem not_starts_apostrophe : startsIdentifier apostrophe = false := by decide

theorem not_continues_colon : continuesIdentifier ':' = false := by decide

/-- A bare key ends at the colon, and no bare key starts like a quoted one. -/
theorem key_append_inj {name other : String} {rest rest' : List Char}
    (h : (key name).toList ++ ':' :: rest = (key other).toList ++ ':' :: rest') :
    name = other ∧ rest = rest' := by
  have hcolon : ∀ more c, (':' :: more).head? = some c → continuesIdentifier c = false := by
    intro more c hc
    cases hc
    exact not_continues_colon
  unfold key at h
  by_cases hname : isIdentifier name = true
  · obtain ⟨c, cs, hchars, hstarts, hcontinues⟩ := continues_of_isIdentifier hname
    by_cases hother : isIdentifier other = true
    · obtain ⟨d, ds, hchars', -, hcontinues'⟩ := continues_of_isIdentifier hother
      rw [if_pos hname, if_pos hother] at h
      obtain ⟨hsame, hrest⟩ := run_append_inj (hchars ▸ hcontinues) (hchars' ▸ hcontinues')
        (hcolon rest) (hcolon rest') h
      exact ⟨String.toList_inj.mp hsame, (List.cons.inj hrest).2⟩
    · rw [if_pos hname, if_neg hother, hchars, toList_quoted] at h
      rw [(List.cons.inj h).1, not_starts_apostrophe] at hstarts
      cases hstarts
  · by_cases hother : isIdentifier other = true
    · obtain ⟨d, ds, hchars', hstarts, -⟩ := continues_of_isIdentifier hother
      rw [if_neg hname, if_pos hother, hchars', toList_quoted] at h
      rw [← (List.cons.inj h).1, not_starts_apostrophe] at hstarts
      cases hstarts
    · rw [if_neg hname, if_neg hother] at h
      obtain ⟨hsame, hrest⟩ := quoted_append_inj h
      exact ⟨hsame, (List.cons.inj hrest).2⟩

/-! ## Containers -/

def gap (broken : Bool) (margin : Nat) : List Char :=
  if broken then '\n' :: List.replicate margin ' ' else [' ']

theorem gap_append_inj {broken broken' : Bool} {margin : Nat} {rest rest' : List Char}
    (h : gap broken margin ++ rest = gap broken' margin ++ rest') :
    broken = broken' ∧ rest = rest' := by
  cases broken <;> cases broken'
  · exact ⟨rfl, (List.cons.inj h).2⟩
  · exact absurd (List.cons.inj h).1 (by decide)
  · exact absurd (List.cons.inj h).1 (by decide)
  · exact ⟨rfl, List.append_cancel_left h⟩

theorem follows_gap (broken : Bool) (margin : Nat) (rest : List Char) :
    Follows (gap broken margin ++ rest) := by
  cases broken
  · exact follows_cons (by decide) _
  · exact follows_cons (by decide) _

def tailParts (print : α → String) (broken : Bool) (margin : Nat) (parts : List α) : List Char :=
  parts.flatMap fun part => ',' :: (gap broken margin ++ (print part).toList)

theorem toList_oneLine (print : α → String) (first last : String) (inner outer : Nat)
    (a : α) (others : List α) :
    (oneLine first last ((a :: others).map print)).toList =
      first.toList ++ (gap false inner ++ ((print a).toList ++
        (tailParts print false inner others ++ (gap false outer ++ last.toList)))) := by
  simp only [oneLine, List.map_cons, String.toList_append, toList_intercalate_cons]
  simp [gap, tailParts, List.flatMap_map]

theorem toList_wrapped (print : α → String) (first last : String) (level : Nat) (a : α)
    (others : List α) :
    ∃ broken, (wrapped first last level ((a :: others).map print)).toList =
      first.toList ++ (gap broken (level * step + step) ++ ((print a).toList ++
        (tailParts print broken (level * step + step) others ++
          (gap broken (level * step) ++ last.toList)))) := by
  unfold wrapped
  simp only
  split
  · exact ⟨false, toList_oneLine print first last _ _ a others⟩
  · refine ⟨true, ?_⟩
    rw [List.map_cons, toList_bracketed]
    simp [gap, tailParts, List.flatMap_map, Spacing.lines]

variable {print : α → String}

theorem follows_tailParts (broken : Bool) (margin outer : Nat) (parts : List α)
    (rest : List Char) :
    Follows (tailParts print broken margin parts ++ (gap broken outer ++ rest)) := by
  cases parts with
  | nil => exact follows_gap broken outer rest
  | cons a others => exact follows_cons (by decide) _

theorem tailParts_append_inj {broken : Bool} {margin outer : Nat} {parts others : List α}
    (htells : ∀ a ∈ parts, Tells print a) {rest rest' : List Char}
    (h : tailParts print broken margin parts ++ (gap broken outer ++ rest) =
      tailParts print broken margin others ++ (gap broken outer ++ rest')) :
    parts = others ∧ rest = rest' := by
  have hcomma : ∀ more rest, gap broken outer ++ rest ≠ ',' :: more := by
    intro more rest heq
    cases broken <;> exact absurd (List.cons.inj heq).1 (by decide)
  induction parts generalizing others with
  | nil =>
    cases others with
    | nil => exact ⟨rfl, List.append_cancel_left h⟩
    | cons b others => exact absurd h (hcomma _ _)
  | cons a parts ih =>
    cases others with
    | nil => exact absurd h.symm (hcomma _ _)
    | cons b others =>
      simp only [tailParts, List.flatMap_cons, List.cons_append, List.append_assoc,
        List.cons.injEq, true_and, List.append_cancel_left_eq] at h
      obtain ⟨rfl, htail⟩ := htells a List.mem_cons_self b _ _
        (follows_tailParts broken margin outer parts rest)
        (follows_tailParts broken margin outer others rest') h
      obtain ⟨rfl, hrest⟩ := ih (fun c hc => htells c (List.mem_cons_of_mem _ hc)) htail
      exact ⟨rfl, hrest⟩

/-- The gap after the first bracket tells the layout, and then the parts are told one by one. -/
theorem wrapped_append_inj {first last : String} {level : Nat} {a b : α} {parts others : List α}
    (htells : ∀ c ∈ a :: parts, Tells print c) {rest rest' : List Char}
    (h : (wrapped first last level ((a :: parts).map print)).toList ++ rest =
      (wrapped first last level ((b :: others).map print)).toList ++ rest') :
    a :: parts = b :: others ∧ rest = rest' := by
  obtain ⟨broken, htext⟩ := toList_wrapped print first last level a parts
  obtain ⟨broken', htext'⟩ := toList_wrapped print first last level b others
  rw [htext, htext'] at h
  simp only [List.append_assoc, List.append_cancel_left_eq] at h
  obtain ⟨rfl, hparts⟩ := gap_append_inj h
  obtain ⟨rfl, htail⟩ := htells a List.mem_cons_self b _ _
    (follows_tailParts broken _ _ parts _) (follows_tailParts broken _ _ others _) hparts
  obtain ⟨rfl, hlast⟩ :=
    tailParts_append_inj (fun c hc => htells c (List.mem_cons_of_mem _ hc)) htail
  exact ⟨rfl, List.append_cancel_left hlast⟩

end Dump

end RecordConsole.Json
