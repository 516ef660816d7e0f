import RecordConsole.Proofs.Delivery
import RecordConsole.Proofs.Line

/-! Records of others stay out of a run. A context may look past its author only if the author is an
admin and the scope is elevated; in every other context the built-in commands fetch the record of
the author or none, so stores that differ elsewhere give the same run. -/
namespace RecordConsole

variable {σ : Type}

structure Store.AgreesOn (store other : Store) (id : String) : Prop where
  name : store.name = other.name
  record : store.records.find? id = other.records.find? id

theorem Store.AgreesOn.source {store other : Store} {id : String} (h : store.AgreesOn other id) :
    store.source id = other.source id := by
  simp only [Store.source, Store.get, Store.key, h.record, h.name]

def Sources.AgreeOn (sources others : Sources) (id : String) : Prop :=
  ∀ kind, sources.get kind id = others.get kind id

theorem Sources.agreeOn_of_stores {users users' threads threads' : Store} {id : String}
    (husers : users.AgreesOn users' id) (hthreads : threads.AgreesOn threads' id) :
    AgreeOn ⟨users.source, threads.source⟩ ⟨users'.source, threads'.source⟩ id := by
  intro kind
  cases kind with
  | users => exact husers.source
  | threads => exact hthreads.source

namespace Context

def reading (sources : Sources) (context : Context) : Context := { context with sources }

theorem blind_reading (sources : Sources) : Blind (reading sources) :=
  ⟨fun _ => rfl, fun _ => rfl⟩

/-- The context lets its author act on no one else: the author is no admin, or nothing has raised
the scope. -/
def Confined (context : Context) : Prop :=
  context.permissions.authorIsAdmin = false ∨ context.permissions.scope = .base

theorem Confined.author_eq {context : Context} (h : context.Confined) {author target : String}
    (hallows : context.permissions.allowsBetween author target = true) : author = target := by
  unfold Permissions.allowsBetween Permissions.allowsUnder at hallows
  rcases h with hadmin | hscope
  · cases hs : context.permissions.scope <;> simpa [hs, hadmin] using hallows
  · simpa [hscope] using hallows

end Context

theorem Action.apply_preserves {action : Action} {context next : Context}
    (h : action.apply context = .ok next) :
    next.permissions.authorIsAdmin = context.permissions.authorIsAdmin ∧
      next.author = context.author := by
  cases action with
  | elevate =>
    cases h
    exact ⟨rfl, rfl⟩
  | rise =>
    cases h
    unfold Context.rise
    split <;> exact ⟨rfl, rfl⟩
  | fail fault => cases h

theorem Modifier.apply_preserves {modifier : Modifier} {context next : Context}
    (h : modifier.apply context = .ok next) :
    next.permissions.authorIsAdmin = context.permissions.authorIsAdmin ∧
      next.author = context.author := by
  unfold apply at h
  generalize modifier.actions = actions at h
  induction actions generalizing context with
  | nil =>
    cases h
    exact ⟨rfl, rfl⟩
  | cons action rest ih =>
    rw [List.foldlM_cons] at h
    cases hstep : action.apply context with
    | error fault => simp [hstep, bind, Except.bind] at h
    | ok between =>
      rw [hstep] at h
      have hrest := ih h
      have hfirst := Action.apply_preserves hstep
      exact ⟨hrest.1.trans hfirst.1, hrest.2.trans hfirst.2⟩

namespace Command

def builtins : List Command := [userProperty, threadProperty, whoami, help]

/-- Of its sources a command sees no more than the record of the author, in confined contexts. -/
def ReadsOwn (command : Command) : Prop :=
  ∀ context sources, context.Confined → context.sources.AgreeOn sources context.author →
    command.execute (context.reading sources) = command.execute context

theorem execute_property_reading (kind : StoreKind) {context : Context} {sources : Sources}
    (confined : context.Confined) (agree : context.sources.AgreeOn sources context.author) :
    PropertyReader.execute kind (context.reading sources) =
      PropertyReader.execute kind context := by
  have hpermissions : (context.reading sources).permissions = context.permissions := rfl
  have hauthor : (context.reading sources).author = context.author := rfl
  have htarget : (context.reading sources).target = context.target := rfl
  have hconfig : (context.reading sources).config = context.config := rfl
  have harguments : (context.reading sources).arguments = context.arguments := rfl
  have hsources : (context.reading sources).sources = sources := rfl
  unfold PropertyReader.execute
  rw [hpermissions, hauthor, htarget, hconfig, harguments, hsources]
  by_cases hkeys : context.arguments.positional.isEmpty = true
  · simp only [hkeys, if_true]
  by_cases hallows : context.permissions.allowsBetween context.author context.target = true
  · have hown : context.author = context.target := confined.author_eq hallows
    have hfetch : sources.get kind context.target = context.sources.get kind context.target :=
      hown ▸ (agree kind).symm
    simp only [hfetch]
  · simp only [hallows, hkeys]
    rfl

theorem readsOwn_of_mem_builtins {command : Command} (h : command ∈ builtins) :
    command.ReadsOwn := by
  intro context sources confined agree
  simp only [builtins, List.mem_cons, List.not_mem_nil, or_false] at h
  rcases h with rfl | rfl | rfl | rfl
  · exact execute_property_reading .users confined agree
  · exact execute_property_reading .threads confined agree
  · rfl
  · rfl

end Command

def Registry.OnlyBuiltins (registry : Registry) : Prop :=
  ∀ name command, registry.commands.find? name = some command → command ∈ Command.builtins

theorem Registry.onlyBuiltins_of_standard {registry : Registry}
    (h : registry.commands = standard.commands) : registry.OnlyBuiltins := by
  intro name command hfind
  rw [h] at hfind
  have hmem := Table.mem_of_find?_ofList hfind
  obtain ⟨builtin, hbuiltin, heq⟩ := List.mem_map.mp hmem
  exact (Prod.mk.inj heq).2 ▸ hbuiltin

namespace Engine

theorem context_reading (engine : Engine) (roster : Roster) (session : Session)
    (sources others : Sources) (line : String) :
    engine.context roster session others line =
      (engine.context roster session sources line).map (Context.reading others) := by
  unfold context
  cases Line.read line session.author engine.config.selfKeyword <;> rfl

theorem context_base {engine : Engine} {roster : Roster} {session : Session} {sources : Sources}
    {line : String} {context : Context}
    (h : engine.context roster session sources line = .ok context) :
    context.permissions.scope = .base ∧
      context.permissions.authorIsAdmin = session.isAdmin ∧ context.author = session.author ∧
      context.sources = sources := by
  unfold Engine.context at h
  cases hread : Line.read line session.author engine.config.selfKeyword with
  | error e => simp [hread, bind, Except.bind] at h
  | ok invocation =>
    simp only [hread, bind, Except.bind, Except.ok.injEq] at h
    subst h
    exact ⟨rfl, rfl, rfl, rfl⟩

theorem ready_confined {engine : Engine} {roster : Roster} {session : Session}
    {sources : Sources} {line : String} {modifier : Option Modifier} {context : Context}
    (h : engine.ready roster session sources line modifier = .ok context)
    (unprivileged : session.isAdmin = false ∨ modifier = none) :
    context.Confined ∧ context.author = session.author := by
  unfold ready at h
  cases hcontext : engine.context roster session sources line with
  | error e => simp [hcontext] at h
  | ok start =>
    obtain ⟨hscope, hadmin, hauthor, -⟩ := context_base hcontext
    cases modifier with
    | none =>
      simp only [hcontext, Except.ok.injEq] at h
      subst h
      exact ⟨Or.inr hscope, hauthor⟩
    | some modifier =>
      have hfalse : session.isAdmin = false := by simpa using unprivileged
      cases happly : modifier.apply start with
      | error fault => simp [hcontext, happly] at h
      | ok next =>
        simp only [hcontext, happly, mapError_ok, Except.ok.injEq] at h
        subst h
        obtain ⟨hadmin', hauthor'⟩ := Modifier.apply_preserves happly
        exact ⟨Or.inl (hadmin'.trans (hadmin.trans hfalse)), hauthor'.trans hauthor⟩

theorem ready_sources {engine : Engine} {roster : Roster} {session : Session}
    {sources : Sources} {line : String} {modifier : Option Modifier} {context : Context}
    (h : engine.ready roster session sources line modifier = .ok context) :
    context.sources = sources := by
  have hself := ready_change (Context.blind_reading sources)
    (context_reading engine roster session sources sources line) modifier
  rw [h] at hself
  exact congrArg Context.sources (Except.ok.inj hself)

theorem prepare_confined {engine : Engine} (builtins : engine.registry.OnlyBuiltins)
    (roster : Roster) {session : Session} {sources others : Sources}
    (agree : sources.AgreeOn others session.author) {line : String}
    (unprivileged : session.isAdmin = false ∨ (Line.nameWords line).length ≤ 1) :
    engine.prepare roster session others line = engine.prepare roster session sources line := by
  rw [prepare_eq, prepare_eq]
  cases hresolve : engine.resolve line with
  | error refusal => rfl
  | ok found =>
    obtain ⟨command, modifier⟩ := found
    obtain ⟨name, hname, hfinds⟩ := (resolve_eq_ok_iff engine line command modifier).mp hresolve
    have hready := ready_change (Context.blind_reading others)
      (context_reading engine roster session sources others line) modifier
    simp only [hready]
    cases hcontext : engine.ready roster session sources line modifier with
    | error refusal => rfl
    | ok context =>
      have hmodifier : session.isAdmin = false ∨ modifier = none := by
        refine unprivileged.imp_right fun hwords => ?_
        have hnone : name.modifier = none :=
          (Line.readName_eq_ok_iff.mp hname).modifier_eq_none hwords
        have hmap := hfinds.modifier
        rw [hnone, Option.map_none] at hmap
        exact Option.map_eq_none_iff.mp hmap.symm
      obtain ⟨confined, hauthor⟩ := ready_confined hcontext hmodifier
      have hsources := ready_sources hcontext
      have hreads := Command.readsOwn_of_mem_builtins (builtins _ _ hfinds.command)
      exact congrArg Except.ok (hreads context others confined (hsources ▸ hauthor ▸ agree))

/-- Authors who are no admins, and admins on lines that name no modifier, see nothing of the
records of others: stores that hold the same records of the author, or the same lack of them, give
the same report, offer the sink the same texts and leave it in the same state. -/
theorem run_confined (engine : Engine) (builtins : engine.registry.OnlyBuiltins)
    (roster : Roster) (session : Session) {users users' threads threads' : Store}
    (husers : users.AgreesOn users' session.author)
    (hthreads : threads.AgreesOn threads' session.author) {line : String}
    (unprivileged : session.isAdmin = false ∨ (Line.nameWords line).length ≤ 1)
    (sink : Sink σ) (state : σ) :
    engine.run roster session ⟨users.source, threads.source⟩ sink.logged (state, []) line =
      engine.run roster session ⟨users'.source, threads'.source⟩ sink.logged (state, []) line := by
  have hagree := Sources.agreeOn_of_stores husers hthreads
  unfold run
  rw [prepare_confined builtins roster hagree unprivileged]

def lift : Modifier where
  name := "lift"
  summary := "raise the scope unasked"
  actions := [.elevate]

/-- The scope is raised and the target is another identity, and still its record stays out. -/
theorem run_confined_lift :
    let engine : Engine := ⟨⟨Registry.standard.commands, .ofList [("lift", lift)]⟩, {}⟩
    let ada : Session := ⟨"ada", false⟩
    let users := Store.ofRecords "users" [("ada", .bool true), ("bob", .string "secret")]
    let fewer := Store.ofRecords "users" [("ada", .bool true)]
    let threads := Store.empty "threads"
    let everySecond : Sink Nat := fun _ count => (count % 2 == 0, count + 1)
    (engine.registry.OnlyBuiltins ∧ users.AgreesOn fewer ada.author ∧
      threads.AgreesOn threads ada.author ∧ ada.isAdmin = false) ∧
    engine.run .empty ada ⟨users.source, threads.source⟩ everySecond.logged (0, [])
        "lift uget::bob all" =
      engine.run .empty ada ⟨fewer.source, threads.source⟩ everySecond.logged (0, [])
        "lift uget::bob all" := by
  intro engine ada users fewer threads everySecond
  have hbuiltins : engine.registry.OnlyBuiltins := Registry.onlyBuiltins_of_standard rfl
  have husers : users.AgreesOn fewer ada.author :=
    ⟨rfl, by simp [users, fewer, ada, Store.ofRecords, Table.find?_ofList, lookup_cons_eq_ite]⟩
  have hthreads : threads.AgreesOn threads ada.author := ⟨rfl, rfl⟩
  exact ⟨⟨hbuiltins, husers, hthreads, rfl⟩,
    run_confined engine hbuiltins .empty ada husers hthreads (Or.inl rfl) everySecond 0⟩

end Engine
end RecordConsole
