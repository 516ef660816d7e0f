import RecordConsole.Proofs.Grammar

/-! Lines in the documented form. Such a line reads as its parts, whatever its target and its tail
are, unless its command ends in a colon: the first separator then starts at that colon. -/
namespace RecordConsole.Line

def call (modifier : Option String) (command target tail : String) : String :=
  modifier.elim "" (· ++ " ") ++ command ++ separator ++ target ++ " " ++ tail

structure Name (word : List Char) : Prop where
  solid : Text.Solid word
  unseparated : ¬ HasSeparator word

/-! ## Where the separator is found -/

/-- A separator of two texts in a row is in one of them or is made where they meet. -/
theorem hasSeparator_append {text rest : List Char} :
    HasSeparator (text ++ rest) ↔
      HasSeparator text ∨ HasSeparator rest ∨
        (text.getLast? = some ':' ∧ rest.head? = some ':') := by
  induction text with
  | nil => simp [not_hasSeparator_nil]
  | cons c text ih =>
    rw [List.cons_append, hasSeparator_cons, hasSeparator_cons, ih]
    cases text with
    | nil => simp [List.head?_eq_some_iff, not_hasSeparator_nil, or_comm]
    | cons d text => simp [or_assoc]

def lead : Option String → List Char
  | none => []
  | some modifier => modifier.toList ++ [' ']

theorem toList_call (modifier : Option String) (command target tail : String) :
    (call modifier command target tail).toList =
      lead modifier ++ command.toList ++ ':' :: ':' :: (target.toList ++ ' ' :: tail.toList) := by
  cases modifier <;> simp [call, lead, separator]

theorem hasSeparator_lead_append {modifier : Option String}
    (hmodifier : ∀ word ∈ modifier, Name word.toList) {text : List Char} :
    HasSeparator (lead modifier ++ text) ↔ HasSeparator text := by
  cases modifier with
  | none => rfl
  | some word =>
    rw [lead, List.append_assoc, List.singleton_append, hasSeparator_append, hasSeparator_cons]
    simp [(hmodifier word rfl).unseparated]

theorem splitsAt_call {modifier : Option String} (hmodifier : ∀ word ∈ modifier, Name word.toList)
    {command : String} (hcommand : Name command.toList)
    (hcolon : command.toList.getLast? ≠ some ':') (target tail : String) :
    SplitsAt (call modifier command target tail).toList (lead modifier ++ command.toList)
      (target.toList ++ ' ' :: tail.toList) := by
  refine ⟨toList_call _ _ _ _, ?_⟩
  rw [List.append_assoc, hasSeparator_lead_append hmodifier, hasSeparator_append]
  simp [hcommand.unseparated, hcolon, hasSeparator_cons, not_hasSeparator_nil]

/-- The colon at the end of a command is taken for the first one of the separator. -/
theorem splitsAt_call_colon {modifier : Option String}
    (hmodifier : ∀ word ∈ modifier, Name word.toList) {command : String} {short : List Char}
    (hcommand : Name command.toList) (hshort : command.toList = short ++ [':'])
    (target tail : String) :
    SplitsAt (call modifier command target tail).toList (lead modifier ++ short)
      (':' :: (target.toList ++ ' ' :: tail.toList)) := by
  refine ⟨?_, ?_⟩
  · rw [toList_call, hshort]
    simp
  · rw [List.append_assoc, hasSeparator_lead_append hmodifier, ← hshort]
    exact hcommand.unseparated

/-! ## What is read -/

theorem splitWords_blank_cons (rest : List Char) :
    Text.splitWords (' ' :: rest) = Text.splitWords rest := by
  rw [Text.splitWords, if_pos (by decide)]

theorem splitWords_lead_append {modifier : Option String}
    (hmodifier : ∀ word ∈ modifier, Name word.toList) (rest : List Char) :
    Text.splitWords (lead modifier ++ rest) =
      modifier.toList.map String.toList ++ Text.splitWords rest := by
  cases modifier with
  | none => rfl
  | some word =>
    have hstarts : Text.startsBlank (' ' :: rest) = true := rfl
    rw [lead, List.append_assoc, List.singleton_append,
      Text.splitWords_solid_append (hmodifier word rfl).solid hstarts, splitWords_blank_cons]
    rfl

theorem nameWords_of_lead {line : String} {modifier : Option String}
    (hmodifier : ∀ word ∈ modifier, Name word.toList) {short after : List Char}
    (h : SplitsAt line.toList (lead modifier ++ short) after) :
    nameWords line = modifier.toList ++ Text.words (.ofList short) := by
  rw [nameWords_of_splitsAt h, Text.words, Text.words, String.toList_ofList, String.toList_ofList,
    splitWords_lead_append hmodifier, List.map_append, List.map_map]
  cases modifier <;> simp

theorem calls_lead (modifier : Option String) (command : String) :
    Calls (modifier.toList ++ [command]) ⟨modifier, command⟩ := by
  cases modifier with
  | none => exact .command command
  | some word => exact .modified word command []

theorem calls_call_iff {modifier : Option String} (hmodifier : ∀ word ∈ modifier, Name word.toList)
    {command : String} (hcommand : Name command.toList) (target tail : String) :
    Calls (nameWords (call modifier command target tail)) ⟨modifier, command⟩ ↔
      command.toList.getLast? ≠ some ':' := by
  constructor
  · intro hcalls hcolon
    obtain ⟨short, hshort⟩ := List.getLast?_eq_some_iff.mp hcolon
    rw [nameWords_of_lead hmodifier (splitsAt_call_colon hmodifier hcommand hshort target tail)]
      at hcalls
    by_cases hnil : short = []
    · subst hnil
      cases modifier <;> cases hcalls
    · have hsolid : Text.Solid (String.ofList short).toList := by
        rw [String.toList_ofList]
        exact ⟨hnil, fun c hc => hcommand.solid.filled c (by simp [hshort, hc])⟩
      rw [Text.words_of_solid hsolid] at hcalls
      have hname := hcalls.unique (calls_lead modifier (.ofList short))
      have hsame : command.toList = short := by
        rw [(CallName.mk.inj hname).2, String.toList_ofList]
      simp [hsame] at hshort
  · intro hcolon
    rw [nameWords_of_lead hmodifier (splitsAt_call hmodifier hcommand hcolon target tail),
      String.ofList_toList, Text.words_of_solid hcommand.solid]
    exact calls_lead modifier command

structure Echoes (author keyword : String) (modifier : Option String) (command target tail : String)
    (inv : Invocation) : Prop where
  modifier : inv.modifier = modifier
  command : inv.command = command
  rawTarget : inv.rawTarget = target
  target : inv.target = if isKeyword keyword target then author else target
  words : Text.words inv.tail = Text.words tail

theorem echoes_invocation {target : String} (htarget : Text.Solid target.toList)
    {line : String} {name : CallName} {before : List Char} (hname : readName line = .ok name)
    {tail : String} (hsplit : SplitsAt line.toList before (target.toList ++ ' ' :: tail.toList))
    (author keyword : String) :
    ∃ inv, read line author keyword = .ok inv ∧
      Echoes author keyword name.modifier name.command target tail inv := by
  have hfilled : ∃ c ∈ target.toList ++ ' ' :: tail.toList, Text.isBlank c = false := by
    obtain ⟨c, hc⟩ := List.exists_mem_of_ne_nil _ htarget.ne_nil
    exact ⟨c, List.mem_append_left _ hc, htarget.filled c hc⟩
  have hwords := (reads_invocation hname hsplit hfilled author keyword).words
  have hstarts : Text.startsBlank (' ' :: tail.toList) = true := rfl
  rw [Text.words, String.toList_ofList, Text.splitWords_solid_append htarget hstarts,
    splitWords_blank_cons, List.map_cons, String.ofList_toList] at hwords
  obtain ⟨hfirst, htail⟩ := List.cons.inj hwords
  have hraw : rawTarget (target.toList ++ ' ' :: tail.toList) = target := hfirst.symm
  refine ⟨_, read_targeted hname hsplit hfilled author keyword, rfl, rfl, hraw, ?_, htail.symm⟩
  simp only [invocation, hraw]

/-- A line in the documented form reads as its parts if no colon ends the command. -/
theorem read_call {modifier : Option String} (hmodifier : ∀ word ∈ modifier, Name word.toList)
    {command : String} (hcommand : Name command.toList)
    (hcolon : command.toList.getLast? ≠ some ':') {target : String}
    (htarget : Text.Solid target.toList) (tail author keyword : String) :
    ∃ inv, read (call modifier command target tail) author keyword = .ok inv ∧
      Echoes author keyword modifier command target tail inv := by
  have hname := readName_eq_ok_iff.mpr
    ((calls_call_iff hmodifier hcommand target tail).mpr hcolon)
  exact echoes_invocation htarget hname (splitsAt_call hmodifier hcommand hcolon target tail)
    author keyword

end RecordConsole.Line
