import RecordConsole.Proofs.FileTree
import RecordConsole.Proofs.Json.RoundTrip
import RecordConsole.Proofs.Table
import RecordConsole.Snapshot

/-! Loading what was saved. A snapshot nests one container deeper than its records, so the reader
takes back every record that it ever gave except those that already fill its room. -/
namespace RecordConsole

/-- A value that some text gives, without floating-point numbers. -/
structure Json.Accepted (v : Json) : Prop where
  given : ∃ text, Json.readText text = .ok v
  integral : v.Integral

/-- The stores that can be made of accepted records. -/
inductive Store.Built : Store → Prop
  | empty (name : String) : Built (.empty name)
  | ofRecords (name : String) {pairs : List (String × Json)}
      (h : ∀ pair ∈ pairs, pair.2.Accepted) : Built (.ofRecords name pairs)
  | set {store store' : Store} {id : String} {record : Json} {old : Option Json}
      (h : Built store) (hrecord : record.Accepted)
      (hset : store.set id record = .ok (old, store')) : Built store'
  | remove {store store' : Store} {id : String} {old : Json} (h : Built store)
      (hremove : store.remove id = .ok (old, store')) : Built store'

theorem Json.accepted_iff {v : Json} :
    v.Accepted ↔ v.Integral ∧ v.Keyed ∧ v.depth ≤ Json.depthLimit := by
  constructor
  · rintro ⟨⟨text, htext⟩, hintegral⟩
    obtain ⟨hdepth, hkeyed⟩ := Json.readText_eq_ok htext
    exact ⟨hintegral, hkeyed, hdepth⟩
  · rintro ⟨hintegral, hkeyed, hdepth⟩
    refine ⟨⟨v.compact, ?_⟩, hintegral⟩
    exact Json.readText_spell (Json.toList_compact 0 v) hintegral hkeyed hdepth

namespace Store

theorem Built.accepted {store : Store} (h : store.Built) {id : String} {record : Json}
    (hrecord : store.records.find? id = some record) : record.Accepted := by
  induction h generalizing id record with
  | empty name => exact absurd hrecord (by simp [Store.empty, Table.find?_empty])
  | ofRecords name hpairs => exact hpairs _ (Table.mem_of_find?_ofList hrecord)
  | set h haccepted hset ih =>
    unfold Store.set at hset
    split at hset
    · contradiction
    · cases hset
      rw [Table.find?_insert] at hrecord
      split at hrecord
      · cases hrecord
        exact haccepted
      · exact ih hrecord
  | remove h hremove ih =>
    unfold Store.remove at hremove
    split at hremove
    · cases hremove
      rw [Table.find?_erase] at hrecord
      split at hrecord
      · contradiction
      · exact ih hrecord
    · contradiction

theorem Built.accepted_of_mem {store : Store} (h : store.Built) {entry : String × Json}
    (hentry : entry ∈ store.toList) : entry.2.Accepted :=
  h.accepted ((Table.find?_eq_some_iff _ _ _).mpr hentry)

end Store

namespace Snapshot

theorem saveRecords_eq_ok {tree tree' : FileTree} {records : List (String × Json)} {path : String}
    (h : saveRecords tree records path = (tree', none)) :
    ∃ prepared written, prepareParent tree path = (prepared, none) ∧
      prepared.write (temporary path) (text records).toUTF8 = .ok written ∧
      written.renameFile (temporary path) path = .ok tree' := by
  simp only [saveRecords] at h
  split at h
  · cases h
  · rename_i prepared hprepare
    split at h
    · cases h
    · rename_i written hwrite
      split at h
      · rename_i renamed hrename
        cases h
        exact ⟨prepared, written, hprepare, hwrite, hrename⟩
      · cases h

theorem read_saveRecords {tree tree' : FileTree} {records : List (String × Json)} {path : String}
    (h : saveRecords tree records path = (tree', none)) :
    tree'.read path = .ok (text records).toUTF8 := by
  obtain ⟨prepared, written, -, hwrite, hrename⟩ := saveRecords_eq_ok h
  exact FileTree.read_renameFile (FileTree.read_write hwrite) hrename

section Texts

variable {store : Store} (hstore : store.Built) {order : List (String × Json)}
  (horder : order.Perm store.toList)

include hstore horder

theorem integral_object : (Json.object order).Integral := by
  apply Json.integralEntries_iff.mpr
  intro entry hentry
  exact (hstore.accepted_of_mem (horder.mem_iff.mp hentry)).integral

theorem keyed_object : (Json.object order).Keyed := by
  refine ⟨(horder.map _).nodup_iff.mpr store.records.ascending.nodup_names, ?_⟩
  apply Json.keyedEntries_iff.mpr
  intro entry hentry
  exact (Json.accepted_iff.mp (hstore.accepted_of_mem (horder.mem_iff.mp hentry))).2.1

omit hstore in
theorem depth_object_le_iff :
    (Json.object order).depth ≤ Json.depthLimit ↔
      ∀ entry ∈ store.toList, entry.2.depth < Json.depthLimit := by
  have hsucc : (Json.object order).depth = Json.depthEntries order + 1 := rfl
  rw [hsucc, Json.depthLimit, Nat.succ_le_succ_iff, Json.depthEntries_le_iff]
  constructor
  · intro h entry hentry
    exact Nat.lt_succ_of_le (h entry (horder.mem_iff.mpr hentry))
  · intro h entry hentry
    exact Nat.le_of_lt_succ (h entry (horder.mem_iff.mp hentry))

variable {read : String → Except FileError ByteArray} {path : String}
  (hread : read path = .ok (text order).toUTF8) (name : String)

include hread

theorem load_text (hfits : ∀ entry ∈ store.toList, entry.2.depth < Json.depthLimit) :
    load read name path = .ok ⟨name, store.records⟩ := by
  have htext : Json.read (text order).toUTF8 = .ok (.object order) :=
    Json.readText_spell (Json.toList_indented indent 0 _) (integral_object hstore horder)
      (keyed_object hstore horder) ((depth_object_le_iff horder).mpr hfits)
  rw [load, hread]
  simp only [parse, htext]
  rw [← Table.ofList_of_perm store.records horder]
  rfl

theorem load_text_deep (hdeep : ¬ ∀ entry ∈ store.toList, entry.2.depth < Json.depthLimit) :
    ∃ e : Json.ReadError, e.flaw = .depth ∧ load read name path = .error (.json e.message) := by
  have hdepth : Json.depthLimit < (Json.object order).depth :=
    Nat.not_le.mp fun h => hdeep ((depth_object_le_iff horder).mp h)
  obtain ⟨e, hflaw, htext⟩ := Json.readText_spell_deep (Json.toList_indented indent 0 _)
    (integral_object hstore horder) (keyed_object hstore horder) hdepth
  have htext : Json.read (text order).toUTF8 = .error e := htext
  refine ⟨e, hflaw, ?_⟩
  rw [load, hread]
  simp only [parse, htext]
  rfl

end Texts

/-- A saved store is loaded again with the same records exactly if none of them nests as deep as
the reader goes; otherwise the reader runs out of room, although saving went well. -/
theorem load_saveRecords {tree tree' : FileTree} {store : Store} {order : List (String × Json)}
    {path : String} (hstore : store.Built) (horder : order.Perm store.toList)
    (hsave : saveRecords tree order path = (tree', none)) (name : String) :
    ((∃ loaded, load tree'.read name path = .ok loaded ∧ loaded.name = name ∧
        loaded.toList = store.toList) ↔
      ∀ entry ∈ store.toList, entry.2.depth < Json.depthLimit) ∧
    ((¬ ∀ entry ∈ store.toList, entry.2.depth < Json.depthLimit) →
      ∃ e : Json.ReadError, e.flaw = .depth ∧
        load tree'.read name path = .error (.json e.message)) := by
  have hread := read_saveRecords hsave
  refine ⟨⟨?_, fun hfits => ⟨_, load_text hstore horder hread name hfits, rfl, rfl⟩⟩,
    load_text_deep hstore horder hread name⟩
  rintro ⟨loaded, hloaded, -, -⟩
  by_cases hfits : ∀ entry ∈ store.toList, entry.2.depth < Json.depthLimit
  · exact hfits
  · obtain ⟨e, -, hfail⟩ := load_text_deep hstore horder hread name hfits
    cases hloaded.symm.trans hfail

theorem saveRecords_empty (records : List (String × Json)) :
    saveRecords {} records "users.json" =
      ((saveRecords {} records "users.json").1, none) := rfl

theorem load_saveRecords_user :
    ∃ tree loaded,
      saveRecords {} [("ada", .object [("zeta", .bool true), ("alpha", .null)])] "users.json" =
        (tree, none) ∧
      load tree.read "users" "users.json" = .ok loaded ∧
      loaded.toList = [("ada", .object [("zeta", .bool true), ("alpha", .null)])] := by
  have hrecord : (Json.object [("zeta", .bool true), ("alpha", .null)]).Accepted :=
    Json.accepted_iff.mpr ⟨by simp [Json.Integral, Json.IntegralEntries],
      by simp [Json.Keyed, Json.KeyedEntries], by decide⟩
  have hstore := Store.Built.ofRecords "users" (List.forall_mem_singleton.mpr
    (show (("ada", Json.object [("zeta", .bool true), ("alpha", .null)]) :
      String × Json).2.Accepted from hrecord))
  have hsave := saveRecords_empty [("ada", .object [("zeta", .bool true), ("alpha", .null)])]
  obtain ⟨loaded, hload, -, hsame⟩ :=
    (load_saveRecords hstore (List.Perm.refl _) hsave "users").1.mpr
      (List.forall_mem_singleton.mpr (by decide))
  exact ⟨_, loaded, hsave, hload, hsame⟩

def nest : Nat → Json
  | 0 => .array []
  | count + 1 => .array [nest count]

theorem depth_nest (count : Nat) : (nest count).depth = count + 1 := by
  induction count with
  | zero => rfl
  | succ count ih => simp [nest, Json.depth, Json.depthItems, ih]

theorem accepted_nest {count : Nat} (h : count < Json.depthLimit) : (nest count).Accepted := by
  have hparts : (nest count).Integral ∧ (nest count).Keyed := by
    clear h
    induction count with
    | zero => exact ⟨trivial, trivial⟩
    | succ count ih => exact ⟨⟨ih.1, trivial⟩, ⟨ih.2, trivial⟩⟩
  exact Json.accepted_iff.mpr ⟨hparts.1, hparts.2, Nat.le_trans (Nat.le_of_eq (depth_nest count)) h⟩

/-- A record that the reader gave, in a snapshot that it does not take. -/
theorem load_saveRecords_deepest :
    (Store.ofRecords "users" [("r", nest 126)]).Built ∧
      ∃ tree, saveRecords {} (Store.ofRecords "users" [("r", nest 126)]).toList "users.json" =
          (tree, none) ∧
        ¬ ∃ loaded, load tree.read "users" "users.json" = .ok loaded := by
  have hstore := Store.Built.ofRecords "users" (List.forall_mem_singleton.mpr
    (show (("r", nest 126) : String × Json).2.Accepted from accepted_nest (by decide)))
  have hsave := saveRecords_empty (Store.ofRecords "users" [("r", nest 126)]).toList
  refine ⟨hstore, _, hsave, ?_⟩
  rintro ⟨loaded, hloaded⟩
  have hdeep : ¬ ∀ entry ∈ (Store.ofRecords "users" [("r", nest 126)]).toList,
      entry.2.depth < Json.depthLimit := by
    intro hfits
    have hrecord := hfits ("r", nest 126) List.mem_cons_self
    rw [depth_nest] at hrecord
    exact absurd hrecord (by decide)
  obtain ⟨e, -, hfail⟩ :=
    load_text_deep hstore (List.Perm.refl _) (read_saveRecords hsave) "users" hdeep
  cases hloaded.symm.trans hfail

end Snapshot
end RecordConsole
