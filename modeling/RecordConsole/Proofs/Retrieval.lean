import RecordConsole.Proofs.Arguments
import RecordConsole.Proofs.Offering

/-! What reading a property of a record answers. The keys are looked at first, then the permission,
then the record; the value is the one that the keys lead to, one after the other. -/
namespace RecordConsole

/-! ## Following keys -/

/-- The key leads nowhere from this value: it is no name in an object, and no position of an array. -/
structure Json.Lacks (v : Json) (key : String) : Prop where
  entry : ∀ entries, v = .object entries → entries.lookup key = none
  item : ∀ items, v = .array items → ∀ position, Text.size? key = some position →
    items[position]? = none

/-- Where keys lead from a value, one after the other: to an entry of an object, to an item of an
array, and to null as soon as there is no such place. -/
inductive Json.Reaches : Json → List String → Json → Prop
  | here (v) : Reaches v [] v
  | entry {entries key inner rest w} : entries.lookup key = some inner → Reaches inner rest w →
      Reaches (.object entries) (key :: rest) w
  | item {items key position inner rest w} : Text.size? key = some position →
      items[position]? = some inner → Reaches inner rest w →
      Reaches (.array items) (key :: rest) w
  | missing {v key rest} : v.Lacks key → Reaches v (key :: rest) .null

theorem Json.lacks_of_child?_eq_none {v : Json} {key : String} (h : v.child? key = none) :
    v.Lacks key where
  entry entries hv := by
    subst hv
    exact h
  item items hv position hposition := by
    subst hv
    rwa [child?, hposition] at h

theorem Json.reaches_walk (v : Json) (keys : List String) : v.Reaches keys (v.walk keys) := by
  induction keys generalizing v with
  | nil => exact .here v
  | cons key rest ih =>
    rw [walk]
    cases hchild : v.child? key with
    | none => exact .missing (lacks_of_child?_eq_none hchild)
    | some inner =>
      cases v with
      | object entries => exact .entry hchild (ih inner)
      | array items =>
        obtain ⟨position, hposition, hinner⟩ := Option.bind_eq_some_iff.mp hchild
        exact .item hposition hinner (ih inner)
      | _ => cases hchild

theorem Json.Reaches.eq_walk {v w : Json} {keys : List String} (h : v.Reaches keys w) :
    w = v.walk keys := by
  induction h with
  | here => rfl
  | entry hinner _ ih =>
    rw [walk, child?, hinner]
    exact ih
  | item hposition hinner _ ih =>
    rw [walk, child?, hposition, Option.bind_some, hinner]
    exact ih
  | @missing v key rest hlacks =>
    have hchild : v.child? key = none := by
      cases v with
      | object entries => exact hlacks.entry entries rfl
      | array items =>
        refine Option.bind_eq_none_iff.mpr fun position hposition => ?_
        exact hlacks.item items rfl position hposition
      | _ => rfl
    rw [walk, hchild]

/-! ## Positional arguments are words -/

theorem Arguments.words_of_mem_positional {tail key : String}
    (h : key ∈ (ofTail tail).positional) : Text.words key = [key] := by
  rw [ofTail, positional_ofTokens] at h
  exact Text.words_of_mem_words (mem_of_mem_tokensIn h)

theorem Json.property_positional (record : Json) (tail : String) :
    record.property (Arguments.ofTail tail).positional =
      record.walk (Arguments.ofTail tail).positional := by
  rw [property, Text.wordsOfParts_eq_self fun _ hkey => Arguments.words_of_mem_positional hkey]

/-! ## Permissions -/

theorem Permissions.allowsBetween_iff (permissions : Permissions) (author target : String) :
    permissions.allowsBetween author target = true ↔
      author = target ∨ permissions.scope = .elevated ∧ permissions.authorIsAdmin = true := by
  unfold allowsBetween allowsUnder
  cases permissions.scope with
  | base => simp
  | elevated => simp [or_comm]

/-! ## Answers -/

def StoreKind.reader : StoreKind → Command
  | .users => .userProperty
  | .threads => .threadProperty

def StoreKind.pick {α : Type} (users threads : α) : StoreKind → α
  | .users => users
  | .threads => threads

namespace PropertyReader

inductive Selects (record : Json) (keys : List String) : Json → Prop
  | whole : keys.head? = some "all" → Selects record keys record
  | reached {v} : keys.head? ≠ some "all" → record.Reaches keys v → Selects record keys v

/-- What is answered to a line. Each rule holds only where none of those above it does. -/
inductive Answers (config : Config) (session : Session) (inv : Invocation) (kind : StoreKind)
    (store : Store) : Ending → Prop
  | noKeys : (Arguments.ofTail inv.tail).positional = [] →
      Answers config session inv kind store ⟨.completed 4 keysRequired, [keysRequired], []⟩
  | denied : (Arguments.ofTail inv.tail).positional ≠ [] → inv.target ≠ session.author →
      ¬ (inv.modifier = some "rise" ∧ session.isAdmin = true) →
      Answers config session inv kind store ⟨.completed 2 deniedLine, [deniedLine], []⟩
  | missing : (Arguments.ofTail inv.tail).positional ≠ [] →
      (inv.target = session.author ∨ inv.modifier = some "rise" ∧ session.isAdmin = true) →
      store.records.find? inv.target = none →
      Answers config session inv kind store
        ⟨⟨3, "", some (Fault.recordNotFound (kind.name ++ "/" ++ inv.target)).line⟩, [], [kind]⟩
  | found {record value text} : (Arguments.ofTail inv.tail).positional ≠ [] →
      (inv.target = session.author ∨ inv.modifier = some "rise" ∧ session.isAdmin = true) →
      store.records.find? inv.target = some record →
      Selects record (Arguments.ofTail inv.tail).positional value →
      text = "Property => " ++ ".".intercalate (Arguments.ofTail inv.tail).positional ++ "\n\n" ++
        (if (Arguments.ofTail inv.tail).hasFlag "json" then value.text config.jsonIndent
          else value.inspect
            (((Arguments.ofTail inv.tail).flagSize? "depth").getD config.inspectDepth)) →
      Answers config session inv kind store ⟨.completed 0 text, [text], [kind]⟩

theorem Answers.offers {config : Config} {session : Session} {inv : Invocation} {kind : StoreKind}
    {store : Store} {ending : Ending} (h : Answers config session inv kind store ending) :
    ∃ text, ending.offers true = [text] := by
  cases h <;> exact ⟨_, rfl⟩

theorem Selects.unique {record v w : Json} {keys : List String} (h : Selects record keys v)
    (h' : Selects record keys w) : v = w := by
  cases h with
  | whole hwhole =>
    cases h' with
    | whole => rfl
    | reached hkeys => exact absurd hwhole hkeys
  | reached hkeys hreaches =>
    cases h' with
    | whole hwhole => exact absurd hwhole hkeys
    | reached _ hreaches' => exact hreaches.eq_walk.trans hreaches'.eq_walk.symm

theorem Answers.unique {config : Config} {session : Session} {inv : Invocation} {kind : StoreKind}
    {store : Store} {ending other : Ending} (h : Answers config session inv kind store ending)
    (h' : Answers config session inv kind store other) : ending = other := by
  cases h with
  | noKeys hnone =>
    cases h' with
    | noKeys => rfl
    | denied hkeys => exact absurd hnone hkeys
    | missing hkeys => exact absurd hnone hkeys
    | found hkeys => exact absurd hnone hkeys
  | denied hkeys hother hrise =>
    cases h' with
    | noKeys hnone => exact absurd hnone hkeys
    | denied => rfl
    | missing _ hmay => exact absurd hmay (not_or.mpr ⟨hother, hrise⟩)
    | found _ hmay => exact absurd hmay (not_or.mpr ⟨hother, hrise⟩)
  | missing hkeys hmay hrecord =>
    cases h' with
    | noKeys hnone => exact absurd hnone hkeys
    | denied _ hother hrise => exact absurd hmay (not_or.mpr ⟨hother, hrise⟩)
    | missing => rfl
    | found _ _ hrecord' => cases hrecord.symm.trans hrecord'
  | found hkeys hmay hrecord hselects htext =>
    cases h' with
    | noKeys hnone => exact absurd hnone hkeys
    | denied _ hother hrise => exact absurd hmay (not_or.mpr ⟨hother, hrise⟩)
    | missing _ _ hrecord' => cases hrecord.symm.trans hrecord'
    | found _ _ hrecord' hselects' htext' =>
      cases hrecord.symm.trans hrecord'
      cases hselects.unique hselects'
      rw [htext, htext']

theorem selects_select (record : Json) (tail : String) :
    Selects record (Arguments.ofTail tail).positional
      (select record (Arguments.ofTail tail).positional) := by
  unfold select
  split
  · rename_i hwhole
    exact .whole hwhole
  · rename_i hkeys
    refine .reached hkeys ?_
    rw [Json.property_positional]
    exact Json.reaches_walk _ _

/-- The command answers by the rules in every context that a line can start it in. -/
theorem answers_execute {context : Context} {store : Store} {kind : StoreKind}
    (harguments : context.arguments = .ofTail context.invocation.tail)
    (hsource : context.sources.get kind = store.source) (hname : store.name = kind.name)
    (hallows : context.permissions.allowsBetween context.author context.target = true ↔
      context.invocation.target = context.session.author ∨
        context.invocation.modifier = some "rise" ∧ context.session.isAdmin = true) :
    Answers context.config context.session context.invocation kind store
      (.ofOutput (execute kind context)) := by
  unfold execute
  rw [harguments]
  by_cases hkeys : (Arguments.ofTail context.invocation.tail).positional = []
  · simp only [hkeys, List.isEmpty_nil, if_true]
    exact .noKeys hkeys
  have hsome : (Arguments.ofTail context.invocation.tail).positional.isEmpty = false := by
    simpa using hkeys
  simp only [hsome, Bool.false_eq_true, if_false]
  by_cases hallowed : context.permissions.allowsBetween context.author context.target = true
  · simp only [hallowed, Bool.not_true, Bool.false_eq_true, if_false]
    have hmay := hallows.mp hallowed
    have hfetch : context.sources.get kind context.target =
        (store.get context.invocation.target).mapError StoreError.fault := by
      rw [hsource]
      rfl
    cases hrecord : store.records.find? context.invocation.target with
    | none =>
      rw [hfetch, Store.get, hrecord, Store.key, hname]
      exact .missing hkeys hmay hrecord
    | some record =>
      rw [hfetch, Store.get, hrecord]
      exact .found hkeys hmay hrecord (selects_select record _) rfl
  · have hnot := fun hmay => hallowed (hallows.mpr hmay)
    simp only [hallowed, Bool.not_false, if_true]
    exact .denied hkeys (fun hown => hnot (Or.inl hown)) (fun hrise => hnot (Or.inr hrise))

end PropertyReader

namespace Engine

theorem find?_reader (kind : StoreKind) :
    Registry.standard.commands.find? kind.reader.name = some kind.reader := by
  cases kind <;> rfl

theorem find?_rise : Registry.standard.modifiers.find? "rise" = some Modifier.rise := rfl

theorem ending_answers {config : Config} (roster : Roster) {session : Session}
    {users threads : Store} {line : String} {inv : Invocation} {kind : StoreKind}
    (husers : users.name = "users") (hthreads : threads.name = "threads")
    (hread : Line.read line session.author config.selfKeyword = .ok inv)
    (hcommand : inv.command = kind.reader.name)
    (hmodifier : inv.modifier = none ∨ inv.modifier = some "rise") :
    PropertyReader.Answers config session inv kind (kind.pick users threads)
      ((⟨.standard, config⟩ : Engine).ending roster session ⟨users.source, threads.source⟩ line) := by
  have hfind : Registry.standard.commands.find? inv.command = some kind.reader :=
    hcommand ▸ find?_reader kind
  have hsource : Sources.get ⟨users.source, threads.source⟩ kind =
      (kind.pick users threads).source := by cases kind <;> rfl
  have hname : (kind.pick users threads).name = kind.name := by
    cases kind
    · exact husers
    · exact hthreads
  have hexecute (context : Context) :
      kind.reader.execute context = PropertyReader.execute kind context := by cases kind <;> rfl
  let start : Context := .start roster session ⟨users.source, threads.source⟩ config
    Registry.standard.catalog inv
  have hanswers (permissions : Permissions) (hraised :
      permissions.scope = .elevated ∧ permissions.authorIsAdmin = true ↔
        inv.modifier = some "rise" ∧ session.isAdmin = true) :
      PropertyReader.Answers config session inv kind (kind.pick users threads)
        (.ofOutput (PropertyReader.execute kind { start with permissions })) := by
    have hallows := Permissions.allowsBetween_iff permissions session.author inv.target
    exact @PropertyReader.answers_execute { start with permissions } _ kind rfl hsource hname
      (hallows.trans (or_congr eq_comm hraised))
  rcases hmodifier with hnone | hrise
  · have hfinds : Registry.standard.Finds ⟨inv.modifier, inv.command⟩ kind.reader none :=
      ⟨hfind, by simp [hnone]⟩
    have hmodify : modify none start = .ok start := rfl
    have hstarts : Executes ⟨.standard, config⟩ roster session _ line kind.reader start :=
      .of_read hread hfinds hmodify
    rw [hstarts.ending_eq, hexecute]
    exact hanswers start.permissions (by simp [start, Context.start, hnone])
  · have hfinds : Registry.standard.Finds ⟨inv.modifier, inv.command⟩ kind.reader
        (some .rise) := ⟨hfind, by simp [hrise, find?_rise]⟩
    have hmodify : modify (some .rise) start = .ok start.rise := rfl
    have hstarts : Executes ⟨.standard, config⟩ roster session _ line kind.reader start.rise :=
      .of_read hread hfinds hmodify
    rw [hstarts.ending_eq, hexecute, Context.rise]
    by_cases hadmin : start.session.isAdmin = true
    · rw [if_pos hadmin]
      exact hanswers start.elevate.permissions
        (by simp [start, Context.start, Context.elevate, hrise])
    · have hnot : session.isAdmin = false := Bool.eq_false_iff.mpr hadmin
      rw [if_neg hadmin]
      exact hanswers start.permissions (by simp [start, Context.start, hnot])

/-- A run that reads a property ends by the rules of its answers, of which no two apply. It has one
text to offer, a chunk or a diagnostic, and that is all the sink is offered if diagnostics are
forwarded. -/
theorem run_answers {σ : Type} {config : Config} (roster : Roster) {session : Session}
    {users threads : Store} {line : String} {inv : Invocation} {kind : StoreKind}
    (husers : users.name = "users") (hthreads : threads.name = "threads")
    (hread : Line.read line session.author config.selfKeyword = .ok inv)
    (hcommand : inv.command = kind.reader.name)
    (hmodifier : inv.modifier = none ∨ inv.modifier = some "rise")
    (sink : Sink σ) (state : σ) :
    let run := (⟨.standard, config⟩ : Engine).run roster session
      ⟨users.source, threads.source⟩ sink.logged (state, []) line
    ∃ ending text,
      PropertyReader.Answers config session inv kind (kind.pick users threads) ending ∧
      (∀ other, PropertyReader.Answers config session inv kind (kind.pick users threads) other →
        other = ending) ∧
      ending.offers true = [text] ∧ (config.forwardDiagnostics = true → run.sink.2 = [text]) ∧
      run.report = ending.report ∧ run.fetched = ending.fetched := by
  intro run
  have hanswers := ending_answers roster husers hthreads hread hcommand hmodifier
  obtain ⟨text, htext⟩ := hanswers.offers
  have hrun : run = _ := run_eq _ roster session ⟨users.source, threads.source⟩ sink.logged
    (state, []) line
  rw [Sink.after_logged] at hrun
  refine ⟨_, text, hanswers, fun other hother => hother.unique hanswers, htext, ?_⟩
  rw [hrun]
  refine ⟨?_, rfl, rfl⟩
  intro hforward
  have hforward' : (⟨.standard, config⟩ : Engine).config.forwardDiagnostics = true := hforward
  rw [hforward', htext, List.nil_append]

theorem run_answers_rise :
    let record : Json := .object [("tags", .array [.bool true, .array [.bool false]])]
    let users := Store.empty "users"
    let threads := Store.ofRecords "threads" [("bob", record)]
    let everySecond : Sink Nat := fun _ count => (count % 2 == 0, count + 1)
    let run (line : String) := standard.run .empty ⟨"ada", true⟩ ⟨users.source, threads.source⟩
      everySecond.logged (0, []) line
    let shown := "Property => tags\n\n[ true, [Array] ]"
    let spelled := "Property => tags\n\n[\n  true,\n  [\n    false\n  ]\n]"
    (Line.read "rise tget::bob tags --depth 0" "ada" "self" =
        .ok ⟨some "rise", "tget", "bob", "bob", "tags --depth 0"⟩ ∧
      (run "rise tget::bob tags --depth 0").sink.2 = [shown] ∧
      (run "rise tget::bob tags --depth 0").report = .completed 0 shown) ∧
    (Line.read "rise tget::bob tags --depth 0 --json" "ada" "self" =
        .ok ⟨some "rise", "tget", "bob", "bob", "tags --depth 0 --json"⟩ ∧
      (run "rise tget::bob tags --depth 0 --json").sink.2 = [spelled] ∧
      (run "rise tget::bob tags --depth 0 --json").report = .completed 0 spelled) := by
  intro record users threads everySecond run shown spelled
  have hrecord : threads.records.find? "bob" = some record := by
    simp [threads, Store.ofRecords, Table.find?_ofList]
  have hreaches : record.Reaches ["tags"] (.array [.bool true, .array [.bool false]]) :=
    .entry rfl (.here _)
  have hrun {line tail text : String}
      (hread : Line.read line "ada" "self" = .ok ⟨some "rise", "tget", "bob", "bob", tail⟩)
      (hfound : PropertyReader.Answers {} ⟨"ada", true⟩ ⟨some "rise", "tget", "bob", "bob", tail⟩
        .threads threads ⟨.completed 0 text, [text], [.threads]⟩) :
      (run line).sink.2 = [text] ∧ (run line).report = .completed 0 text := by
    obtain ⟨ending, offered, -, hunique, hoffered, hsink, hreport, -⟩ :=
      @run_answers Nat {} .empty ⟨"ada", true⟩ users threads line _ .threads rfl rfl hread rfl
        (Or.inr rfl) everySecond 0
    cases hunique _ hfound
    cases hoffered
    exact ⟨hsink rfl, hreport⟩
  refine ⟨⟨rfl, hrun rfl ?_⟩, ⟨rfl, hrun rfl ?_⟩⟩
  · exact .found (by decide) (Or.inr ⟨rfl, rfl⟩) hrecord (.reached (by decide) hreaches) rfl
  · exact .found (by decide) (Or.inr ⟨rfl, rfl⟩) hrecord (.reached (by decide) hreaches) rfl

end Engine
end RecordConsole
