import RecordConsole.Proofs.Registration

/-! Invocations written as lines. A line that was read can be written from its invocation and read
again as the same one, and whatever the registry accepts as names can be written and read. A blank in
front of the separator keeps it apart from a colon at the end of the command. -/
namespace RecordConsole

/-- A line `[modifier ]command ::target[ tail]`. -/
def Line.render (modifier : Option String) (command target tail : String) : String :=
  modifier.elim "" (· ++ " ") ++ command ++ " " ++ separator ++ target ++
    if tail.isEmpty then "" else " " ++ tail

def Invocation.render (inv : Invocation) : String :=
  Line.render inv.modifier inv.command inv.rawTarget inv.tail

namespace Line

/-! ## What is written is read -/

def gap (tail : String) : List Char := if tail.isEmpty then [] else [' ']

theorem toList_render (modifier : Option String) (command target tail : String) :
    (render modifier command target tail).toList =
      (lead modifier ++ (command.toList ++ [' '])) ++
        ':' :: ':' :: (target.toList ++ gap tail ++ tail.toList) := by
  by_cases htail : tail.isEmpty = true
  · obtain rfl := String.isEmpty_iff.mp htail
    cases modifier <;> simp [render, lead, gap, separator]
  · cases modifier <;> simp [render, lead, gap, separator, htail]

theorem splitsAt_render {modifier : Option String}
    (hmodifier : ∀ word ∈ modifier, Name word.toList) {command : String}
    (hcommand : Name command.toList) (target tail : String) :
    SplitsAt (render modifier command target tail).toList
      (lead modifier ++ (command.toList ++ [' '])) (target.toList ++ gap tail ++ tail.toList) := by
  constructor
  · exact toList_render modifier command target tail
  · rw [List.append_assoc, hasSeparator_lead_append hmodifier, List.append_assoc,
      hasSeparator_append]
    simp [hcommand.unseparated, hasSeparator_cons, not_hasSeparator_nil]

theorem gap_spec (tail : String) :
    (∀ c ∈ gap tail, Text.isBlank c = true) ∧ (gap tail = [] → tail.toList = []) := by
  unfold gap
  by_cases hempty : tail.isEmpty = true
  · have htail : tail = "" := String.isEmpty_iff.mp hempty
    simp [htail]
  · rw [if_neg hempty]
    constructor
    · intro c hc
      obtain rfl := List.mem_singleton.mp hc
      rfl
    · intro hgap
      cases hgap

theorem lays_render {target tail : String} (htarget : Text.Solid target.toList)
    (htail : Text.Trimmed tail.toList) :
    Lays (target.toList ++ gap tail ++ tail.toList) target.toList tail.toList := by
  obtain ⟨hblank, hnone⟩ := gap_spec tail
  exact ⟨⟨[], gap tail, [], by simp, hblank, by simp, by simp, hnone⟩, htarget, htail⟩

/-- The first blank after the command ends it, so its own colons are no matter. -/
theorem readName_render {modifier : Option String}
    (hmodifier : ∀ word ∈ modifier, Name word.toList) {command : String}
    (hcommand : Name command.toList) (target tail : String) :
    readName (render modifier command target tail) = .ok ⟨modifier, command⟩ := by
  have hstarts : Text.startsBlank [' '] = true := rfl
  have hwords : Text.words (.ofList (command.toList ++ [' '])) = [command] := by
    rw [Text.words, String.toList_ofList, Text.splitWords_solid_append hcommand.solid hstarts,
      splitWords_blank_cons, List.map_cons, String.ofList_toList]
    rfl
  rw [readName_eq_ok_iff,
    nameWords_of_lead hmodifier (splitsAt_render hmodifier hcommand target tail), hwords]
  exact calls_lead modifier command

theorem read_render {modifier : Option String}
    (hmodifier : ∀ word ∈ modifier, Name word.toList) {command : String}
    (hcommand : Name command.toList) {target tail : String}
    (htarget : Text.Solid target.toList) (htail : Text.Trimmed tail.toList)
    (author keyword : String) :
    read (render modifier command target tail) author keyword = .ok {
      modifier
      command
      rawTarget := target
      target := if isKeyword keyword target then author else target
      tail } := by
  have hfilled : ∃ c ∈ target.toList ++ gap tail ++ tail.toList, Text.isBlank c = false := by
    obtain ⟨c, hc⟩ := List.exists_mem_of_ne_nil _ htarget.ne_nil
    exact ⟨c, by simp [hc], htarget.filled c hc⟩
  rw [read_targeted (readName_render hmodifier hcommand target tail)
      (splitsAt_render hmodifier hcommand target tail) hfilled,
    (lays_render htarget htail).invocation_eq]
  simp only [String.ofList_toList]

/-! ## What is read is written -/

theorem HasSeparator.of_infix {text part : List Char} (h : part <:+: text)
    (hpart : HasSeparator part) : HasSeparator text :=
  List.IsInfix.trans hpart h

theorem not_hasSeparator_namePart (line : List Char) : ¬ HasSeparator (namePart line) := by
  rw [namePart]
  rcases splitAtSeparator_spec line with ⟨before, after, hsome, hsplit⟩ | ⟨hnone, hunseparated⟩
  · rw [hsome]
    intro hbefore
    exact hsplit.first (hbefore.of_infix (List.prefix_append before [':']).isInfix)
  · rw [hnone]
    exact hunseparated

theorem name_of_mem_nameWords {line word : String} (h : word ∈ nameWords line) :
    Name word.toList := by
  rw [nameWords, Text.words, String.toList_ofList] at h
  obtain ⟨chars, hchars, rfl⟩ := List.mem_map.mp h
  rw [String.toList_ofList]
  constructor
  · exact Text.solid_of_mem_splitWords hchars
  · intro hseparator
    have hinfix := (Text.infix_of_mem_splitWords (namePart line.toList)).1 chars hchars
    exact not_hasSeparator_namePart line.toList (hseparator.of_infix hinfix)

theorem names_of_readName {line : String} {name : CallName} (h : readName line = .ok name) :
    Name name.command.toList ∧ ∀ word ∈ name.modifier, Name word.toList := by
  have hall : ∀ word ∈ nameWords line, Name word.toList := fun word => name_of_mem_nameWords
  have hcalls := readName_eq_ok_iff.mp h
  generalize nameWords line = words at hall hcalls
  cases hcalls with
  | command command => exact ⟨hall command (by simp), by simp⟩
  | modified modifier command ignored =>
    refine ⟨hall command (by simp), ?_⟩
    intro word hword
    obtain rfl := Option.some.inj hword
    exact hall _ (by simp)

theorem read_render_of_read {line author keyword : String} {inv : Invocation}
    (h : read line author keyword = .ok inv) : read inv.render author keyword = .ok inv := by
  obtain ⟨before, after, hreads⟩ := exists_reads h
  have hname : readName line = .ok ⟨inv.modifier, inv.command⟩ := by
    rw [readName_eq_ok_iff, nameWords_of_splitsAt hreads.split]
    exact hreads.name
  obtain ⟨hcommand, hmodifier⟩ := names_of_readName hname
  have htarget : (if isKeyword keyword inv.rawTarget then author else inv.rawTarget) =
      inv.target := by
    by_cases hkeyword : isKeyword keyword inv.rawTarget = true
    · rw [if_pos hkeyword, hreads.ownTarget (beq_iff_eq.mp hkeyword)]
    · rw [if_neg hkeyword, hreads.otherTarget (fun hsame => hkeyword (beq_iff_eq.mpr hsame))]
  rw [Invocation.render, read_render hmodifier hcommand hreads.lays.target hreads.lays.tail, htarget]

/-- Writing what was read and reading it again changes nothing. A line that is written from valid
names, a target without blanks in it and a tail without blanks around it is read as these parts, and
the names that can be read from lines are the valid ones. -/
theorem read_written (author keyword : String) :
    (∀ line inv, read line author keyword = .ok inv → read inv.render author keyword = .ok inv) ∧
    (∀ modifier command target tail,
      (∀ word ∈ modifier, Registry.isValidName word = true) →
      Registry.isValidName command = true →
      Text.Solid target.toList → Text.Trimmed tail.toList →
      read (render modifier command target tail) author keyword = .ok {
        modifier
        command
        rawTarget := target
        target := if isKeyword keyword target then author else target
        tail }) ∧
    ∀ name : CallName, (∃ line, readName line = .ok name) ↔
      Registry.isValidName name.command = true ∧
        ∀ word ∈ name.modifier, Registry.isValidName word = true := by
  simp only [Registry.isValidName_iff]
  refine ⟨fun line inv => read_render_of_read, ?_, ?_⟩
  · intro modifier command target tail hmodifier hcommand htarget htail
    exact read_render hmodifier hcommand htarget htail author keyword
  · intro name
    constructor
    · rintro ⟨line, hname⟩
      exact names_of_readName hname
    · rintro ⟨hcommand, hmodifier⟩
      exact ⟨_, readName_render hmodifier hcommand "" ""⟩

theorem read_written_colons :
    let inv : Invocation := {
      modifier := some "up:", command := "a:b:", rawTarget := ":::c", target := ":::c"
      tail := "--json ::  d" }
    inv.render = "up: a:b: :::::c --json ::  d" ∧ read inv.render "eva" "self" = .ok inv := by
  have hmodifier : ∀ word ∈ some "up:", Registry.isValidName word = true := by decide
  have hcommand : Registry.isValidName "a:b:" = true := by decide
  have htarget : Text.Solid ":::c".toList := by
    have hword : ":::c".toList ∈ Text.splitWords ":::c".toList := by decide
    exact Text.solid_of_mem_splitWords hword
  have htail : Text.Trimmed "--json ::  d".toList := by
    constructor
    · rintro c ⟨⟩
      decide
    · rintro c ⟨⟩
      decide
  constructor
  · decide
  · exact (read_written "eva" "self").2.1 _ _ _ _ hmodifier hcommand htarget htail

end Line
end RecordConsole
