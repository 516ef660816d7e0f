import RecordConsole.Json.Reader
import RecordConsole.Proofs.Entries
import RecordConsole.Proofs.Json.Nesting

/-! The room of the reader. No value that it gives nests deeper than the room it had, and less room
never makes it give anything else than what more room would: at worst it runs out. -/
namespace RecordConsole.Json

theorem depth_entriesOf_le {pairs : List (String × Json)} {n : Nat} (h : depthEntries pairs ≤ n) :
    depthEntries (entriesOf pairs) ≤ n :=
  depthEntries_le_iff.mpr fun _ hentry =>
    depthEntries_le_iff.mp h _ (mem_of_mem_entriesOf hentry)

theorem keyed_entriesOf {pairs : List (String × Json)} (h : KeyedEntries pairs) :
    KeyedEntries (entriesOf pairs) :=
  keyedEntries_iff.mpr fun _ hentry => keyedEntries_iff.mp h _ (mem_of_mem_entriesOf hentry)

namespace Reader

variable {α β : Type}

theorem andThen_eq_ok_iff {step : Step α} {next : α → List UInt8 → Step β}
    {result : β × List UInt8} :
    andThen step next = .ok result ↔ ∃ a s, step = .ok (a, s) ∧ next a s = .ok result := by
  rcases step with failure | ⟨a, s⟩
  · simp [andThen]
  · constructor
    · intro h
      exact ⟨a, s, rfl, h⟩
    · rintro ⟨a', s', heq, h⟩
      cases heq
      exact h

theorem word_ok {v w : Json} {letters : List Char} {s rest : List UInt8}
    (h : word v letters s = .ok (w, rest)) : w = v := by
  induction letters generalizing s with
  | nil =>
    cases h
    rfl
  | cons c letters ih =>
    cases s with
    | nil => exact absurd h (by simp [word, fail])
    | cons b s =>
      rw [word] at h
      split at h
      · exact ih h
      · exact absurd h (by simp [fail])

/-! ## What is read -/

/-- What holds of each reader by itself, so that one induction on the fuel gives it of all three. -/
private def ValueFits (fuel : Nat) : Prop :=
  ∀ {room s v rest}, value fuel room s = .ok (v, rest) → v.depth ≤ room ∧ v.Keyed

private def ElementsFit (fuel : Nat) : Prop :=
  ∀ {room s items rest}, elements fuel room s = .ok (items, rest) →
    depthItems items ≤ room ∧ KeyedItems items

private def MembersFit (fuel : Nat) : Prop :=
  ∀ {room s pairs rest}, members fuel room s = .ok (pairs, rest) →
    depthEntries pairs ≤ room ∧ KeyedEntries pairs

private theorem elements_fit {fuel : Nat} (hvalue : ValueFits fuel)
    (helements : ElementsFit fuel) : ElementsFit (fuel + 1) := by
  intro room s items rest h
  rw [elements] at h
  obtain ⟨v, s₁, hv, h⟩ := andThen_eq_ok_iff.mp h
  obtain ⟨hdepth, hkeyed⟩ := hvalue hv
  split at h
  · contradiction
  · split at h
    · cases h
      exact ⟨Nat.max_le.mpr ⟨hdepth, Nat.zero_le _⟩, hkeyed, trivial⟩
    · split at h
      · contradiction
      · split at h
        · contradiction
        · obtain ⟨others, s₂, hothers, h⟩ := andThen_eq_ok_iff.mp h
          cases h
          obtain ⟨hdepths, hkeyeds⟩ := helements hothers
          exact ⟨Nat.max_le.mpr ⟨hdepth, hdepths⟩, hkeyed, hkeyeds⟩
    · contradiction

private theorem members_fit {fuel : Nat} (hvalue : ValueFits fuel)
    (hmembers : MembersFit fuel) : MembersFit (fuel + 1) := by
  intro room s pairs rest h
  rw [members] at h
  obtain ⟨key, s₁, -, h⟩ := andThen_eq_ok_iff.mp h
  obtain ⟨⟨⟩, s₂, -, h⟩ := andThen_eq_ok_iff.mp h
  obtain ⟨v, s₃, hv, h⟩ := andThen_eq_ok_iff.mp h
  obtain ⟨hdepth, hkeyed⟩ := hvalue hv
  split at h
  · contradiction
  · split at h
    · cases h
      exact ⟨Nat.max_le.mpr ⟨hdepth, Nat.zero_le _⟩, hkeyed, trivial⟩
    · split at h
      · contradiction
      · split at h
        · obtain ⟨others, s₄, hothers, h⟩ := andThen_eq_ok_iff.mp h
          cases h
          obtain ⟨hdepths, hkeyeds⟩ := hmembers hothers
          exact ⟨Nat.max_le.mpr ⟨hdepth, hdepths⟩, hkeyed, hkeyeds⟩
        · contradiction
        · contradiction
    · contradiction

private theorem value_fits {fuel : Nat} (helements : ElementsFit fuel)
    (hmembers : MembersFit fuel) : ValueFits (fuel + 1) := by
  intro room s v left h
  simp only [value] at h
  split at h
  · contradiction
  · split at h
    · cases word_ok h
      exact ⟨Nat.zero_le _, trivial⟩
    · cases word_ok h
      exact ⟨Nat.zero_le _, trivial⟩
    · cases word_ok h
      exact ⟨Nat.zero_le _, trivial⟩
    · obtain ⟨text, s, -, h⟩ := andThen_eq_ok_iff.mp h
      cases h
      exact ⟨Nat.zero_le _, trivial⟩
    · obtain ⟨n, s, -, h⟩ := andThen_eq_ok_iff.mp h
      cases h
      exact ⟨Nat.zero_le _, trivial⟩
    · split at h
      · contradiction
      · split at h
        · contradiction
        · split at h
          · cases h
            exact ⟨Nat.succ_le_succ (Nat.zero_le _), trivial⟩
          · obtain ⟨items, s, hitems, h⟩ := andThen_eq_ok_iff.mp h
            cases h
            obtain ⟨hdepth, hkeyed⟩ := helements hitems
            exact ⟨Nat.succ_le_succ hdepth, hkeyed⟩
    · split at h
      · contradiction
      · split at h
        · contradiction
        · split at h
          · cases h
            exact ⟨Nat.succ_le_succ (Nat.zero_le _), List.nodup_nil, trivial⟩
          · split at h
            · obtain ⟨pairs, s, hpairs, h⟩ := andThen_eq_ok_iff.mp h
              cases h
              obtain ⟨hdepth, hkeyed⟩ := hmembers hpairs
              exact ⟨Nat.succ_le_succ (depth_entriesOf_le hdepth), nodup_entriesOf pairs,
                keyed_entriesOf hkeyed⟩
            · contradiction
    · split at h
      · obtain ⟨n, s, -, h⟩ := andThen_eq_ok_iff.mp h
        cases h
        exact ⟨Nat.zero_le _, trivial⟩
      · contradiction

private theorem all_fit (fuel : Nat) : ValueFits fuel ∧ ElementsFit fuel ∧ MembersFit fuel := by
  induction fuel with
  | zero =>
    refine ⟨?_, ?_, ?_⟩
    · intro room s v rest h
      exact absurd h (by simp [value, fail])
    · intro room s items rest h
      exact absurd h (by simp [elements, fail])
    · intro room s pairs rest h
      exact absurd h (by simp [members, fail])
  | succ fuel ih =>
    obtain ⟨hvalue, helements, hmembers⟩ := ih
    exact ⟨value_fits helements hmembers, elements_fit hvalue helements,
      members_fit hvalue hmembers⟩

/-- A value that is read fits in the room, and no object in it has a key twice. -/
theorem value_eq_ok {fuel room : Nat} {s rest : List UInt8} {v : Json}
    (h : value fuel room s = .ok (v, rest)) : v.depth ≤ room ∧ v.Keyed := (all_fit fuel).1 h

theorem value_of_document {s : List UInt8} {v : Json} (h : document s = .ok v) :
    ∃ fuel rest, value fuel depthLimit s = .ok (v, rest) := by
  simp only [document, bind, Except.bind] at h
  split at h
  · contradiction
  · rename_i result hread
    split at h
    · cases h
      exact ⟨_, _, hread⟩
    · contradiction

/-! ## More room -/

/-- The first step ran out of room, or the second one does the same. -/
def RoomAtMost (step more : Step α) : Prop := (∃ left, step = .error ⟨.depth, left⟩) ∨ step = more

theorem RoomAtMost.refl (step : Step α) : RoomAtMost step step := Or.inr rfl

theorem RoomAtMost.andThen {step more : Step α} {next next' : α → List UInt8 → Step β}
    (h : RoomAtMost step more) (hnext : ∀ a s, RoomAtMost (next a s) (next' a s)) :
    RoomAtMost (andThen step next) (andThen more next') := by
  rcases h with ⟨left, rfl⟩ | rfl
  · exact Or.inl ⟨left, rfl⟩
  · rcases step with failure | ⟨a, s⟩
    · exact Or.inr rfl
    · exact hnext a s

private def ValueMore (fuel : Nat) : Prop :=
  ∀ {room room' : Nat} (_ : room ≤ room') (s : List UInt8),
    RoomAtMost (value fuel room s) (value fuel room' s)

private def ElementsMore (fuel : Nat) : Prop :=
  ∀ {room room' : Nat} (_ : room ≤ room') (s : List UInt8),
    RoomAtMost (elements fuel room s) (elements fuel room' s)

private def MembersMore (fuel : Nat) : Prop :=
  ∀ {room room' : Nat} (_ : room ≤ room') (s : List UInt8),
    RoomAtMost (members fuel room s) (members fuel room' s)

private theorem elements_more_room {fuel : Nat} (hvalue : ValueMore fuel)
    (helements : ElementsMore fuel) : ElementsMore (fuel + 1) := by
  intro room room' hroom s
  simp only [elements]
  apply (hvalue hroom s).andThen
  intro v s
  split
  · exact .refl _
  · split
    · exact .refl _
    · split
      · exact .refl _
      · split
        · exact .refl _
        · exact (helements hroom _).andThen fun others s => .refl _
    · exact .refl _

private theorem members_more_room {fuel : Nat} (hvalue : ValueMore fuel)
    (hmembers : MembersMore fuel) : MembersMore (fuel + 1) := by
  intro room room' hroom s
  simp only [members]
  apply (RoomAtMost.refl _).andThen
  intro key s
  apply (RoomAtMost.refl _).andThen
  intro _ s
  apply (hvalue hroom s).andThen
  intro v s
  split
  · exact .refl _
  · split
    · exact .refl _
    · split
      · exact .refl _
      · split
        · exact (hmembers hroom _).andThen fun others s => .refl _
        · exact .refl _
        · exact .refl _
    · exact .refl _

private theorem value_more_room {fuel : Nat} (helements : ElementsMore fuel)
    (hmembers : MembersMore fuel) : ValueMore (fuel + 1) := by
  intro room room' hroom s
  simp only [value]
  split
  · exact .refl _
  · split
    · exact .refl _
    · exact .refl _
    · exact .refl _
    · exact .refl _
    · exact .refl _
    · cases room with
      | zero => exact Or.inl ⟨_, rfl⟩
      | succ room =>
        obtain ⟨room', rfl⟩ := Nat.exists_eq_add_of_le' (Nat.le_trans (Nat.le_add_left 1 _) hroom)
        simp only
        split
        · exact .refl _
        · split
          · exact .refl _
          · exact (helements (Nat.le_of_succ_le_succ hroom) _).andThen fun items s => .refl _
    · cases room with
      | zero => exact Or.inl ⟨_, rfl⟩
      | succ room =>
        obtain ⟨room', rfl⟩ := Nat.exists_eq_add_of_le' (Nat.le_trans (Nat.le_add_left 1 _) hroom)
        simp only
        split
        · exact .refl _
        · split
          · exact .refl _
          · split
            · exact (hmembers (Nat.le_of_succ_le_succ hroom) _).andThen fun pairs s => .refl _
            · exact .refl _
    · exact .refl _

private theorem all_more_room (fuel : Nat) :
    ValueMore fuel ∧ ElementsMore fuel ∧ MembersMore fuel := by
  induction fuel with
  | zero =>
    refine ⟨?_, ?_, ?_⟩
    · intro room room' _ s
      exact Or.inl ⟨s.length, by rw [value, fail]⟩
    · intro room room' _ s
      exact Or.inl ⟨s.length, by rw [elements, fail]⟩
    · intro room room' _ s
      exact Or.inl ⟨s.length, by rw [members, fail]⟩
  | succ fuel ih =>
    obtain ⟨hvalue, helements, hmembers⟩ := ih
    exact ⟨value_more_room helements hmembers, elements_more_room hvalue helements,
      members_more_room hvalue hmembers⟩

/-- A reader with less room gives what one with more room gives, or runs out of room. -/
theorem roomAtMost_value (fuel : Nat) {room room' : Nat} (h : room ≤ room') (s : List UInt8) :
    RoomAtMost (value fuel room s) (value fuel room' s) := (all_more_room fuel).1 h s

end Reader

theorem document_eq_ok {s : List UInt8} {v : Json} (h : Reader.document s = .ok v) :
    v.depth ≤ depthLimit ∧ v.Keyed := by
  obtain ⟨fuel, rest, hread⟩ := Reader.value_of_document h
  exact Reader.value_eq_ok hread

theorem readText_eq_ok {text : String} {v : Json} (h : readText text = .ok v) :
    v.depth ≤ depthLimit ∧ v.Keyed := by
  simp only [readText, read] at h
  split at h
  · rename_i hdocument
    cases h
    exact document_eq_ok hdocument
  · contradiction

end RecordConsole.Json
