import RecordConsole.Proofs.Table
import RecordConsole.Proofs.Words
import RecordConsole.Roster

/-! The roster over a history of grants and revocations. The last of them that was carried out for
an identity decides whether it is an admin, and a roster that has admins never runs out of them. -/
namespace RecordConsole.Roster

/-- One word of at most 128 bytes. -/
structure ValidIdentity (identity : String) : Prop where
  word : Text.Solid identity.toList
  short : identity.utf8ByteSize ≤ 128

inductive Request where
  | grant (identity : String)
  | revoke (identity : String)
deriving DecidableEq, Repr

namespace Request

def identity : Request → String
  | grant identity => identity
  | revoke identity => identity

def leavesAdmin : Request → Bool
  | grant _ => true
  | revoke _ => false

end Request

inductive Reply where
  | granted (isNew : Bool)
  | revoked
deriving DecidableEq, Repr

def serve (roster : Roster) : Request → Except RosterError Reply × Roster
  | .grant identity =>
    match roster.grant identity with
    | .ok (isNew, next) => (.ok (.granted isNew), next)
    | .error e => (.error e, roster)
  | .revoke identity =>
    match roster.revoke identity with
    | .ok next => (.ok .revoked, next)
    | .error e => (.error e, roster)

def after (roster : Roster) (requests : List Request) : Roster :=
  requests.foldl (fun roster request => (roster.serve request).2) roster

structure Entry where
  request : Request
  answer : Except RosterError Reply

def history (roster : Roster) : List Request → List Entry
  | [] => []
  | request :: rest =>
    ⟨request, (roster.serve request).1⟩ :: history (roster.serve request).2 rest

/-- The request was carried out, and it was for this identity. -/
def Entry.settles (entry : Entry) (identity : String) : Bool :=
  entry.request.identity == identity && entry.answer.isOk

/-- What the last request that was carried out for an identity makes of it, or what it was at first
if there is none. -/
def standing (atFirst : Bool) (entries : List Entry) (identity : String) : Bool :=
  match (entries.filter (·.settles identity)).getLast? with
  | some entry => entry.request.leavesAdmin
  | none => atFirst

/-! ## Members -/

theorem mem_toList_iff {roster : Roster} {identity : String} :
    identity ∈ roster.toList ↔ roster.contains identity = true := Table.mem_names_iff

theorem contains_ofList {identities : List String} {identity : String} :
    (ofList identities).contains identity = true ↔ identity ∈ identities := Table.contains_ofNames

theorem size_eq_length (roster : Roster) : roster.size = roster.toList.length :=
  roster.admins.size_eq_length_names

theorem one_lt_size_iff {roster : Roster} {identity : String}
    (h : roster.contains identity = true) :
    1 < roster.size ↔ ∃ other, other ≠ identity ∧ roster.contains other = true := by
  have hnodup : roster.toList.Nodup := roster.admins.ascending.nodup_names
  simp only [size_eq_length, ← mem_toList_iff] at h ⊢
  generalize roster.toList = members at h hnodup
  cases members with
  | nil => cases h
  | cons first rest =>
    cases rest with
    | nil =>
      simp only [List.mem_singleton] at h ⊢
      subst h
      simp
    | cons second more =>
      have hne : first ≠ second := by
        rintro rfl
        exact (List.nodup_cons.mp hnodup).1 List.mem_cons_self
      refine ⟨fun _ => ?_, fun _ => by simp⟩
      by_cases hfirst : first = identity
      · exact ⟨second, hfirst ▸ hne.symm, by simp⟩
      · exact ⟨first, hfirst, by simp⟩

theorem contains_insert (roster : Roster) (identity other : String) :
    contains ⟨roster.admins.insert identity ()⟩ other =
      if other = identity then true else roster.contains other := by
  unfold contains Table.contains
  rw [Table.find?_insert]
  split <;> rfl

theorem contains_erase (roster : Roster) (identity other : String) :
    contains ⟨roster.admins.erase identity⟩ other =
      if other = identity then false else roster.contains other := by
  unfold contains Table.contains
  rw [Table.find?_erase]
  split <;> rfl

/-! ## One request -/

theorem checkIdentity_eq_ok_iff {identity : String} :
    checkIdentity identity = .ok () ↔ ValidIdentity identity := by
  unfold checkIdentity
  constructor
  · intro h
    split at h
    · contradiction
    split at h
    · contradiction
    split at h
    · contradiction
    rename_i hfilled hshort hblank
    refine ⟨⟨?_, ?_⟩, Nat.not_lt.mp hshort⟩
    · intro hnil
      simp [Text.isAllBlank, hnil] at hfilled
    · simpa [Text.hasBlank] using hblank
  · rintro ⟨⟨hne, hfilled⟩, hshort⟩
    have hblank : Text.hasBlank identity = false := by simpa [Text.hasBlank] using hfilled
    have hsome : ¬ Text.isAllBlank identity = true := by
      intro hall
      obtain ⟨c, hc⟩ := List.exists_mem_of_ne_nil _ hne
      exact Bool.false_ne_true ((hfilled c hc).symm.trans (List.all_eq_true.mp hall c hc))
    have hfits : ¬ identityLimit < identity.utf8ByteSize := Nat.not_lt.mpr hshort
    rw [if_neg hsome, if_neg hfits, hblank]
    rfl

def Admits (roster : Roster) : Request → Prop
  | .grant identity => ValidIdentity identity
  | .revoke identity =>
    roster.contains identity = true ∧ ∃ other, other ≠ identity ∧ roster.contains other = true

def reply (roster : Roster) : Request → Reply
  | .grant identity => .granted (!roster.contains identity)
  | .revoke _ => .revoked

def carry (roster : Roster) : Request → Roster
  | .grant identity => ⟨roster.admins.insert identity ()⟩
  | .revoke identity => ⟨roster.admins.erase identity⟩

theorem serve_of_admits {roster : Roster} {request : Request} (h : roster.Admits request) :
    roster.serve request = (.ok (roster.reply request), roster.carry request) := by
  cases request with
  | grant identity =>
    have hcheck := checkIdentity_eq_ok_iff.mpr h
    simp [serve, grant, hcheck, reply, carry, bind, Except.bind]
  | revoke identity =>
    obtain ⟨hadmin, hother⟩ := h
    have hsize : ¬ roster.size ≤ 1 := Nat.not_le.mpr ((one_lt_size_iff hadmin).mpr hother)
    simp [serve, revoke, hadmin, hsize, reply, carry]

theorem serve_of_not_admits {roster : Roster} {request : Request} (h : ¬ roster.Admits request) :
    ∃ e, roster.serve request = (.error e, roster) := by
  cases request with
  | grant identity =>
    have hcheck : checkIdentity identity ≠ .ok () := fun hok => h (checkIdentity_eq_ok_iff.mp hok)
    cases hresult : checkIdentity identity with
    | ok _ => exact absurd hresult hcheck
    | error e => exact ⟨e, by simp [serve, grant, hresult, bind, Except.bind]⟩
  | revoke identity =>
    by_cases hadmin : roster.contains identity = true
    · have hsize : roster.size ≤ 1 := Nat.not_lt.mp fun hsize =>
        h ⟨hadmin, (one_lt_size_iff hadmin).mp hsize⟩
      exact ⟨.lastAdmin, by simp [serve, revoke, hadmin, hsize]⟩
    · exact ⟨.notAdmin identity, by simp [serve, revoke, hadmin]⟩

theorem granted_new_iff (roster : Roster) {identity : String} :
    (roster.serve (.grant identity)).1 = .ok (.granted true) ↔
      ValidIdentity identity ∧ roster.contains identity = false := by
  by_cases h : roster.Admits (.grant identity)
  · have hvalid : ValidIdentity identity := h
    rw [serve_of_admits h]
    simp [reply, hvalid]
  · have hinvalid : ¬ ValidIdentity identity := h
    obtain ⟨e, herror⟩ := serve_of_not_admits h
    simp [herror, hinvalid]

theorem revoked_iff (roster : Roster) {identity : String} :
    (∃ reply, (roster.serve (.revoke identity)).1 = .ok reply) ↔
      roster.contains identity = true ∧
        ∃ other, other ≠ identity ∧ roster.contains other = true := by
  by_cases h : roster.Admits (.revoke identity)
  · rw [serve_of_admits h]
    exact ⟨fun _ => h, fun _ => ⟨_, rfl⟩⟩
  · obtain ⟨e, herror⟩ := serve_of_not_admits h
    rw [herror]
    exact ⟨fun ⟨_, hok⟩ => (by cases hok), fun hadmits => absurd hadmits h⟩

theorem serve_of_error {roster : Roster} {request : Request} {e : RosterError}
    (hfails : (roster.serve request).1 = .error e) : (roster.serve request).2 = roster := by
  by_cases h : roster.Admits request
  · rw [serve_of_admits h] at hfails
    cases hfails
  · obtain ⟨e', herror⟩ := serve_of_not_admits h
    rw [herror]

theorem contains_carry (roster : Roster) (request : Request) (identity : String) :
    (roster.carry request).contains identity =
      if identity = request.identity then request.leavesAdmin else roster.contains identity := by
  cases request with
  | grant granted => exact contains_insert roster granted identity
  | revoke revoked => exact contains_erase roster revoked identity

/-- A request settles whether its identity is an admin if it is carried out, and leaves all others as
they are. -/
theorem contains_serve (roster : Roster) (request : Request) (identity : String) :
    (roster.serve request).2.contains identity =
      if Entry.settles ⟨request, (roster.serve request).1⟩ identity then request.leavesAdmin
      else roster.contains identity := by
  by_cases h : roster.Admits request
  · have hsettles : Entry.settles ⟨request, .ok (roster.reply request)⟩ identity = true ↔
        identity = request.identity := by
      rw [Entry.settles, Except.isOk, Except.toBool, Bool.and_true, beq_iff_eq]
      exact eq_comm
    rw [serve_of_admits h, contains_carry]
    simp only [hsettles]
  · obtain ⟨e, herror⟩ := serve_of_not_admits h
    simp [herror, Entry.settles, Except.isOk, Except.toBool]

theorem exists_admin_serve {roster : Roster} (request : Request)
    (h : ∃ identity, roster.contains identity = true) :
    ∃ identity, (roster.serve request).2.contains identity = true := by
  by_cases hadmits : roster.Admits request
  · rw [serve_of_admits hadmits]
    cases request with
    | grant identity =>
      exact ⟨identity, by simp [contains_carry, Request.identity, Request.leavesAdmin]⟩
    | revoke identity =>
      obtain ⟨-, other, hne, hother⟩ := hadmits
      exact ⟨other, by simp [contains_carry, Request.identity, hne, hother]⟩
  · obtain ⟨e, herror⟩ := serve_of_not_admits hadmits
    rw [herror]
    exact h

/-! ## Histories -/

theorem standing_cons (atFirst : Bool) (entry : Entry) (entries : List Entry) (identity : String) :
    standing atFirst (entry :: entries) identity =
      standing (if entry.settles identity then entry.request.leavesAdmin else atFirst) entries
        identity := by
  unfold standing
  by_cases h : entry.settles identity = true
  · rw [List.filter_cons, if_pos h, List.getLast?_cons, if_pos h]
    cases (entries.filter (·.settles identity)).getLast? <;> rfl
  · rw [List.filter_cons, if_neg h, if_neg h]

theorem contains_after (roster : Roster) (requests : List Request) (identity : String) :
    (roster.after requests).contains identity =
      standing (roster.contains identity) (roster.history requests) identity := by
  induction requests generalizing roster with
  | nil => rfl
  | cons request rest ih =>
    rw [history, standing_cons, ← contains_serve]
    exact ih (roster.serve request).2

theorem after_append (roster : Roster) (requests more : List Request) :
    roster.after (requests ++ more) = (roster.after requests).after more := List.foldl_append

theorem exists_admin_after {roster : Roster} (requests : List Request)
    (h : ∃ identity, roster.contains identity = true) :
    ∃ identity, (roster.after requests).contains identity = true := by
  induction requests generalizing roster with
  | nil => exact h
  | cons request rest ih => exact ih (exists_admin_serve request h)

theorem toList_ne_nil_iff {roster : Roster} :
    roster.toList ≠ [] ↔ ∃ identity, roster.contains identity = true := by
  simp only [← mem_toList_iff]
  exact ⟨List.exists_mem_of_ne_nil _, fun ⟨_, h⟩ => List.ne_nil_of_mem h⟩

theorem toList_ascending (roster : Roster) :
    roster.toList.Pairwise fun identity other =>
      identity.toUTF8.data.toList < other.toUTF8.data.toList :=
  roster.admins.names_ascending

/-- An identity is an admin after some requests as the last one that was carried out for it says, or
as it was at first. A grant tells of a new admin exactly if the identity is valid and was none, and
an admin is revoked exactly if there is another one. A request that fails changes nothing, and a
roster that has admins will always have some. At any time the admins are listed once each, in the
order of their bytes. -/
theorem governed_by_requests (identities : List String) (requests : List Request) :
    let start := ofList identities
    let roster := start.after requests
    (∀ identity, start.contains identity = true ↔ identity ∈ identities) ∧
    (∀ identity, roster.contains identity =
      standing (start.contains identity) (start.history requests) identity) ∧
    (∀ identity, (roster.serve (.grant identity)).1 = .ok (.granted true) ↔
      ValidIdentity identity ∧ roster.contains identity = false) ∧
    (∀ identity, (∃ reply, (roster.serve (.revoke identity)).1 = .ok reply) ↔
      roster.contains identity = true ∧
        ∃ other, other ≠ identity ∧ roster.contains other = true) ∧
    (∀ request e, (roster.serve request).1 = .error e → (roster.serve request).2 = roster) ∧
    (roster.toList ≠ [] → ∀ more, (roster.after more).toList ≠ []) ∧
    (roster.toList.Pairwise fun identity other =>
      identity.toUTF8.data.toList < other.toUTF8.data.toList) ∧
    (∀ identity, identity ∈ roster.toList ↔ roster.contains identity = true) ∧
    roster.size = roster.toList.length := by
  intro start roster
  have hkept (hsome : roster.toList ≠ []) (more : List Request) :
      (roster.after more).toList ≠ [] := by
    rw [toList_ne_nil_iff] at hsome ⊢
    exact exists_admin_after more hsome
  refine ⟨fun _ => contains_ofList, contains_after start requests, ?_, ?_, ?_, hkept,
    roster.toList_ascending, fun _ => mem_toList_iff, roster.size_eq_length⟩
  · intro identity
    exact roster.granted_new_iff
  · intro identity
    exact roster.revoked_iff
  · intro request e hfails
    exact serve_of_error hfails

end RecordConsole.Roster
