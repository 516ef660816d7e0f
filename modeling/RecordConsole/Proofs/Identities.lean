import RecordConsole.Proofs.Roster

/-! Admins that could not have been granted. Only the identities that a roster is seeded with are
not checked, so an invalid one is an admin from the start and until it is revoked, and no other
way. -/
namespace RecordConsole.Roster

variable {roster : Roster} {identity : String}

def Revoked (entries : List Entry) (identity : String) : Prop :=
  ⟨.revoke identity, .ok .revoked⟩ ∈ entries

theorem revoked_cons_iff {entry : Entry} {entries : List Entry} :
    Revoked (entry :: entries) identity ↔
      entry = ⟨.revoke identity, .ok .revoked⟩ ∨ Revoked entries identity := by
  rw [Revoked, List.mem_cons, eq_comm, Revoked]

/-- To an invalid identity a request does nothing, other than to revoke it. -/
theorem contains_serve_of_invalid (h : ¬ ValidIdentity identity) (request : Request) :
    (roster.serve request).2.contains identity = true ↔
      roster.contains identity = true ∧
        Entry.mk request (roster.serve request).1 ≠ ⟨.revoke identity, .ok .revoked⟩ := by
  by_cases hadmits : roster.Admits request
  · rw [serve_of_admits hadmits, contains_carry]
    cases request with
    | grant granted =>
      have hother : identity ≠ granted := by
        rintro rfl
        exact h hadmits
      simp [Request.identity, hother]
    | revoke revoked =>
      by_cases hsame : identity = revoked
      · simp [Request.identity, Request.leavesAdmin, reply, hsame]
      · simp [Request.identity, hsame, Ne.symm hsame]
  · obtain ⟨e, herror⟩ := serve_of_not_admits hadmits
    simp [herror]

theorem contains_after_of_invalid (h : ¬ ValidIdentity identity) (requests : List Request) :
    (roster.after requests).contains identity = true ↔
      roster.contains identity = true ∧ ¬ Revoked (roster.history requests) identity := by
  induction requests generalizing roster with
  | nil => simp [after, history, Revoked]
  | cons request rest ih =>
    rw [history, revoked_cons_iff, not_or, ← and_assoc, ← ne_eq, ← contains_serve_of_invalid h]
    exact ih

theorem invalid_of_blank (h : Text.isAllBlank identity = true ∨ Text.hasBlank identity = true) :
    ¬ ValidIdentity identity := by
  intro hvalid
  rw [← checkIdentity_eq_ok_iff] at hvalid
  unfold checkIdentity at hvalid
  rcases h with h | h
  · simp [h] at hvalid
  · split_ifs at hvalid

theorem mem_after_of_invalid {identities : List String} (h : ¬ ValidIdentity identity)
    (requests : List Request) :
    identity ∈ ((ofList identities).after requests).toList ↔
      identity ∈ identities ∧ ¬ Revoked ((ofList identities).history requests) identity := by
  rw [mem_toList_iff, contains_after_of_invalid h, contains_ofList]

theorem all_valid_iff (identities : List String) (requests : List Request) :
    (∀ identity ∈ ((ofList identities).after requests).toList, ValidIdentity identity) ↔
      ∀ identity ∈ identities, ValidIdentity identity ∨
        Revoked ((ofList identities).history requests) identity := by
  constructor
  · intro hall identity hseed
    by_cases hvalid : ValidIdentity identity
    · exact .inl hvalid
    · refine .inr (Classical.byContradiction fun hkept => hvalid ?_)
      exact hall identity ((mem_after_of_invalid hvalid requests).mpr ⟨hseed, hkept⟩)
  · intro hseeds identity hadmin
    by_contra hinvalid
    obtain ⟨hseed, hkept⟩ := (mem_after_of_invalid hinvalid requests).mp hadmin
    exact (hseeds identity hseed).elim hinvalid hkept

/-- An identity that fails the check is an admin exactly if the roster was seeded with it and it was
not revoked since, which holds as well for the right of a session that a blank author opens. So all
admins are valid once the invalid seeds are revoked, and always are if there were none. -/
theorem invalid_admins_seeded (identities : List String) (requests : List Request) :
    let start := ofList identities
    let roster := start.after requests
    let revoked := Revoked (start.history requests)
    (∀ identity, checkIdentity identity ≠ .ok () →
      (identity ∈ roster.toList ↔ identity ∈ identities ∧ ¬ revoked identity)) ∧
    (∀ author, Text.isAllBlank author = true ∨ Text.hasBlank author = true →
      ((roster.session author).isAdmin = true ↔ author ∈ identities ∧ ¬ revoked author)) ∧
    ((∀ identity ∈ roster.toList, checkIdentity identity = .ok ()) ↔
      ∀ identity ∈ identities, checkIdentity identity = .ok () ∨ revoked identity) ∧
    ((∀ later, ∀ identity ∈ (start.after later).toList, checkIdentity identity = .ok ()) ↔
      ∀ identity ∈ identities, checkIdentity identity = .ok ()) ∧
    ∀ later, ∀ identity ∈ (empty.after later).toList, checkIdentity identity = .ok () := by
  simp only [ne_eq, checkIdentity_eq_ok_iff]
  refine ⟨fun identity hinvalid => mem_after_of_invalid hinvalid requests, ?_,
    all_valid_iff identities requests, ?_, ?_⟩
  · intro author hblank
    rw [← mem_after_of_invalid (invalid_of_blank hblank), mem_toList_iff]
    rfl
  · constructor
    · intro hever identity hseed
      exact ((all_valid_iff identities []).mp (hever []) identity hseed).resolve_right
        List.not_mem_nil
    · intro hseeds later
      exact (all_valid_iff identities later).mpr fun identity hseed => .inl (hseeds identity hseed)
  · intro later
    exact (all_valid_iff [] later).mpr fun identity hseed => absurd hseed List.not_mem_nil

theorem invalid_admins_seeded_revoked :
    let start := ofList ["two words", "ada"]
    (checkIdentity "two words" ≠ .ok () ∧ Text.hasBlank "two words" = true) ∧
      "two words" ∈ (start.after []).toList ∧
      ((start.after [.revoke "two words"]).session "two words").isAdmin = false := by
  intro start
  have hcheck : checkIdentity "two words" ≠ .ok () := by decide
  have hblank : Text.hasBlank "two words" = true := by decide
  obtain ⟨hmem, -⟩ := invalid_admins_seeded ["two words", "ada"] []
  obtain ⟨-, hsession, -⟩ := invalid_admins_seeded ["two words", "ada"] [.revoke "two words"]
  refine ⟨⟨hcheck, hblank⟩, (hmem _ hcheck).mpr ⟨by simp, List.not_mem_nil⟩, ?_⟩
  rw [Bool.eq_false_iff, ne_eq, hsession _ (.inr hblank), not_and, not_not]
  exact fun _ => List.mem_singleton.mpr (by rfl)

/-- A roster that is seeded with a blank name has it as an admin, and it opens a session as one. -/
theorem invalid_admins_seeded_blank :
    let roster := ofList [" "]
    roster.toList = [" "] ∧ checkIdentity " " = .error .emptyIdentity ∧
      roster.session " " = ⟨" ", true⟩ := by
  decide

end RecordConsole.Roster
