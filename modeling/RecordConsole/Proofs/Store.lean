import RecordConsole.Proofs.Service
import RecordConsole.Proofs.Table
import RecordConsole.Store

/-! The store over a run of requests. It answers as the log of its changes says: under an id stands
what was written there last, unless it was removed since. Requests that fail are not in the log. -/
namespace RecordConsole.Store

inductive Request where
  | get (id : String)
  | set (id : String) (record : Json)
  | remove (id : String)
  | ids
  | size
  | records

inductive Answer where
  | record (record : Json)
  | previous (record : Option Json)
  | ids (ids : List String)
  | size (size : Nat)
  | records (records : List (String × Json))

def serve (store : Store) : Request → Except Fault Answer × Store
  | .get id => (((store.get id).mapError StoreError.fault).map .record, store)
  | .set id record =>
    match store.set id record with
    | .ok (previous, next) => (.ok (.previous previous), next)
    | .error e => (.error e.fault, store)
  | .remove id =>
    match store.remove id with
    | .ok (record, next) => (.ok (.record record), next)
    | .error e => (.error e.fault, store)
  | .ids => (.ok (.ids store.ids), store)
  | .size => (.ok (.size store.size), store)
  | .records => (.ok (.records store.toList), store)

inductive Change where
  | write (id : String) (record : Json)
  | removal (id : String)

namespace Change

def id : Change → String
  | write id _ => id
  | removal id => id

def of? : Request × Except Fault Answer → Option Change
  | (.set id record, .ok _) => some (write id record)
  | (.remove id, .ok _) => some (removal id)
  | _ => none

end Change

/-- The record was written under the id, and the id was neither written again nor removed since. -/
def Leaves (log : List Change) (id : String) (record : Json) : Prop :=
  ∃ before later, log = before ++ .write id record :: later ∧ ∀ change ∈ later, change.id ≠ id

/-! ## Logs -/

theorem not_leaves_nil (id : String) (record : Json) : ¬ Leaves [] id record := by
  rintro ⟨before, later, hlog, -⟩
  simp at hlog

theorem leaves_concat {log : List Change} {change : Change} {id : String} {record : Json} :
    Leaves (log ++ [change]) id record ↔
      if change.id = id then change = .write id record else Leaves log id record := by
  constructor
  · rintro ⟨before, later, hlog, hlater⟩
    rcases List.eq_nil_or_concat later with rfl | ⟨others, last, rfl⟩
    · obtain ⟨rfl, hchange⟩ := List.append_inj' hlog rfl
      obtain rfl := List.singleton_inj.mp hchange
      exact (if_pos rfl).mpr rfl
    · rw [List.concat_eq_append] at hlog hlater
      rw [← List.cons_append, ← List.append_assoc] at hlog
      obtain ⟨rfl, hchange⟩ := List.append_inj' hlog rfl
      obtain rfl := List.singleton_inj.mp hchange
      rw [if_neg (hlater change (by simp))]
      exact ⟨before, others, rfl, fun other hother => hlater other (by simp [hother])⟩
  · intro h
    by_cases hid : change.id = id
    · rw [if_pos hid] at h
      exact ⟨log, [], by rw [h], by simp⟩
    · rw [if_neg hid] at h
      obtain ⟨before, later, rfl, hlater⟩ := h
      refine ⟨before, later ++ [change], by simp, ?_⟩
      intro other hother
      rcases List.mem_append.mp hother with hother | hother
      · exact hlater other hother
      · exact List.mem_singleton.mp hother ▸ hid

/-- A store holds what a log leaves. -/
structure Stands (name : String) (store : Store) (log : List Change) : Prop where
  name_eq : store.name = name
  find_iff : ∀ id record, store.records.find? id = some record ↔ Leaves log id record

/-! ## One request -/

theorem serve_get (store : Store) (id : String) :
    (store.serve (.get id)).1 =
      match store.records.find? id with
      | some record => .ok (.record record)
      | none => .error (.recordNotFound (store.key id)) := by
  simp only [serve, get]
  cases store.records.find? id <;> rfl

theorem serve_set (store : Store) (id : String) (record : Json) :
    store.serve (.set id record) =
      if Text.isAllBlank id then (.error (.store "Record id cannot be empty"), store)
      else (.ok (.previous (store.records.find? id)),
        { store with records := store.records.insert id record }) := by
  simp only [serve, set]
  cases Text.isAllBlank id <;> rfl

theorem serve_remove (store : Store) (id : String) :
    store.serve (.remove id) =
      match store.records.find? id with
      | some record => (.ok (.record record), { store with records := store.records.erase id })
      | none => (.error (.recordNotFound (store.key id)), store) := by
  simp only [serve, remove]
  cases store.records.find? id <;> rfl

theorem serve_of_error {store : Store} {request : Request} {fault : Fault}
    (hfails : (store.serve request).1 = .error fault) : (store.serve request).2 = store := by
  cases request with
  | set id record =>
    rw [serve_set] at hfails ⊢
    split
    · rfl
    · rename_i hfilled
      rw [if_neg hfilled] at hfails
      cases hfails
  | remove id =>
    rw [serve_remove] at hfails ⊢
    cases hfind : store.records.find? id with
    | none => rfl
    | some record =>
      rw [hfind] at hfails
      cases hfails
  | get id => rfl
  | ids => rfl
  | size => rfl
  | records => rfl

variable {name : String} {store : Store} {log : List Change}

theorem Stands.write (h : Stands name store log) (id : String) (record : Json) :
    Stands name { store with records := store.records.insert id record }
      (log ++ [.write id record]) := by
  refine ⟨h.name_eq, fun other found => ?_⟩
  rw [Table.find?_insert, leaves_concat, ← h.find_iff]
  by_cases hother : other = id
  · subst hother
    simp [Change.id]
  · have hid : ¬ (Change.write id record).id = other := fun heq => hother heq.symm
    rw [if_neg hother, if_neg hid]

theorem Stands.remove (h : Stands name store log) (id : String) :
    Stands name { store with records := store.records.erase id } (log ++ [.removal id]) := by
  refine ⟨h.name_eq, fun other found => ?_⟩
  rw [Table.find?_erase, leaves_concat, ← h.find_iff]
  by_cases hother : other = id
  · subst hother
    simp [Change.id]
  · have hid : ¬ (Change.removal id).id = other := fun heq => hother heq.symm
    rw [if_neg hother, if_neg hid]

/-- A request that is carried out and changes something adds its change to the log, and any other
request leaves store and log alone. -/
theorem stands_serve (store : Store) (log : List Change) (request : Request)
    (h : Stands name store log) :
    Stands name (store.serve request).2
      (log ++ (Change.of? (request, (store.serve request).1)).toList) := by
  cases request with
  | set id record =>
    rw [serve_set]
    split
    · simpa [Change.of?] using h
    · exact h.write id record
  | remove id =>
    rw [serve_remove]
    cases store.records.find? id with
    | none => simpa [Change.of?] using h
    | some record => exact h.remove id
  | get id => simpa [serve, Change.of?] using h
  | ids => simpa [serve, Change.of?] using h
  | size => simpa [serve, Change.of?] using h
  | records => simpa [serve, Change.of?] using h

def firstWrites (initial : List (String × Json)) : List Change :=
  initial.map fun pair => .write pair.1 pair.2

theorem stands_ofRecords (name : String) (initial : List (String × Json)) :
    Stands name (ofRecords name initial) (firstWrites initial) := by
  induction initial using List.reverseRecOn with
  | nil => exact ⟨rfl, fun id record => by simp [ofRecords, Table.ofList, firstWrites,
      Table.find?_empty, not_leaves_nil]⟩
  | append_singleton initial pair ih =>
    have hofRecords : ofRecords name (initial ++ [pair]) =
        { ofRecords name initial with
          records := (ofRecords name initial).records.insert pair.1 pair.2 } := by
      simp [ofRecords, Table.ofList]
    rw [hofRecords, firstWrites, List.map_append]
    exact ih.write pair.1 pair.2

/-! ## Runs -/

structure Mirrors (name : String) (store : Store) (log : List Change) : Prop where
  get_iff : ∀ id record,
    (store.serve (.get id)).1 = .ok (.record record) ↔ Leaves log id record
  get_missing : ∀ id, (∀ record, ¬ Leaves log id record) ↔
    (store.serve (.get id)).1 = .error (.recordNotFound (name ++ "/" ++ id))
  set_previous : ∀ id record, Text.isAllBlank id = false →
    ∃ previous, (store.serve (.set id record)).1 = .ok (.previous previous) ∧
      ∀ old, previous = some old ↔ Leaves log id old
  set_blank : ∀ id record, Text.isAllBlank id = true →
    (store.serve (.set id record)).1 = .error (.store "Record id cannot be empty")
  remove_iff : ∀ id record,
    (store.serve (.remove id)).1 = .ok (.record record) ↔ Leaves log id record
  remove_missing : ∀ id, (∀ record, ¬ Leaves log id record) ↔
    (store.serve (.remove id)).1 = .error (.recordNotFound (name ++ "/" ++ id))
  get_removed : ∀ id other, ((store.serve (.remove id)).2.serve (.get other)).1 =
    if other = id then .error (.recordNotFound (name ++ "/" ++ id))
    else (store.serve (.get other)).1
  failed : ∀ request fault, (store.serve request).1 = .error fault →
    (store.serve request).2 = store
  listed : ∃ ids records,
    (store.serve .ids).1 = .ok (.ids ids) ∧
    (store.serve .size).1 = .ok (.size ids.length) ∧
    (store.serve .records).1 = .ok (.records records) ∧
    records.map (·.1) = ids ∧
    (ids.Pairwise fun id other => id.toUTF8.data.toList < other.toUTF8.data.toList) ∧
    (∀ id, id ∈ ids ↔ ∃ record, (store.serve (.get id)).1 = .ok (.record record)) ∧
    ∀ id record, (id, record) ∈ records ↔ Leaves log id record

theorem Stands.find_eq_none_iff (h : Stands name store log) (id : String) :
    store.records.find? id = none ↔ ∀ record, ¬ Leaves log id record := by
  simp only [← h.find_iff, Option.eq_none_iff_forall_not_mem, Option.mem_def]

theorem Stands.get_iff (h : Stands name store log) (id : String) (record : Json) :
    (store.serve (.get id)).1 = .ok (.record record) ↔ Leaves log id record := by
  rw [serve_get, ← h.find_iff]
  cases store.records.find? id <;> simp

theorem Stands.get_missing (h : Stands name store log) (id : String) :
    (∀ record, ¬ Leaves log id record) ↔
      (store.serve (.get id)).1 = .error (.recordNotFound (name ++ "/" ++ id)) := by
  rw [serve_get, ← h.find_eq_none_iff, key, h.name_eq]
  cases store.records.find? id <;> simp

theorem serve_remove_eq_get (store : Store) (id : String) :
    (store.serve (.remove id)).1 = (store.serve (.get id)).1 := by
  rw [serve_remove, serve_get]
  cases store.records.find? id <;> rfl

theorem get_removed (store : Store) (id other : String) :
    ((store.serve (.remove id)).2.serve (.get other)).1 =
      if other = id then .error (.recordNotFound (store.key id))
      else (store.serve (.get other)).1 := by
  rw [serve_remove]
  cases hfind : store.records.find? id with
  | none =>
    by_cases hother : other = id
    · rw [if_pos hother, hother, serve_get, hfind]
    · rw [if_neg hother]
  | some record =>
    rw [serve_get, serve_get, Table.find?_erase]
    by_cases hother : other = id
    · rw [if_pos hother, if_pos hother, hother]
      rfl
    · rw [if_neg hother, if_neg hother]
      rfl

theorem Stands.mirrors (h : Stands name store log) : Mirrors name store log where
  get_iff := h.get_iff
  get_missing := h.get_missing
  set_previous id record hfilled := by
    refine ⟨store.records.find? id, ?_, h.find_iff id⟩
    rw [serve_set, hfilled]
    rfl
  set_blank id record hblank := by
    rw [serve_set, if_pos hblank]
  remove_iff id record := by
    rw [serve_remove_eq_get]
    exact h.get_iff id record
  remove_missing id := by
    rw [serve_remove_eq_get]
    exact h.get_missing id
  get_removed id other := by
    rw [store.get_removed, key, h.name_eq]
  failed request fault hfails := serve_of_error hfails
  listed := by
    refine ⟨store.ids, store.toList, rfl, ?_, rfl, rfl, store.records.names_ascending, ?_, ?_⟩
    · rw [ids, ← store.records.size_eq_length_names]
      rfl
    · intro id
      rw [ids, Table.mem_names_iff, Table.contains_iff]
      simp only [h.find_iff, h.get_iff]
    · intro id record
      rw [toList, ← Table.find?_eq_some_iff, h.find_iff]

/-- After any requests to a store that began with any records, it answers every request as the map
that its log leaves: the first records and then the writes and removals that were carried out. -/
theorem mirrors_log (name : String) (initial : List (String × Json)) (requests : List Request) :
    let start := ofRecords name initial
    Mirrors name (Service.after serve start requests)
      (firstWrites initial ++ (Service.history serve start requests).filterMap Change.of?) := by
  intro start
  have hstart : Stands name start (firstWrites initial) := stands_ofRecords name initial
  exact (Service.invariant_after stands_serve hstart requests).mirrors

end RecordConsole.Store
