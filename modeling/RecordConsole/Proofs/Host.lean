import RecordConsole.Command
import RecordConsole.Proofs.Roster

/-! A host with one roster and any number of sessions and contexts. Grants and revocations may come at
any time between openings and builds; a session keeps the right that its author had when it was
opened, and every context built from it has the same. -/
namespace RecordConsole

/-- What a context knows about the admin rights of its author and its target. -/
structure Rights where
  session : Session
  authorIsAdmin : Bool
  target : String
  targetIsAdmin : Bool
deriving DecidableEq, Repr

namespace Context

def rights (context : Context) : Rights where
  session := context.session
  authorIsAdmin := context.permissions.authorIsAdmin
  target := context.target
  targetIsAdmin := context.targetIsAdmin

def act (context : Context) (action : Action) : Context :=
  match action.apply context with
  | .ok next => next
  | .error _ => context

theorem rights_act (context : Context) (action : Action) :
    (context.act action).rights = context.rights := by
  cases action with
  | elevate => rfl
  | rise =>
    simp only [act, Action.apply, rise]
    split <;> rfl
  | fail fault => rfl

theorem allowsBetween_rise {context : Context}
    (h : context.permissions.authorIsAdmin = context.session.isAdmin) (acting target : String) :
    context.rise.permissions.allowsBetween acting target =
      (context.session.isAdmin || context.permissions.allowsBetween acting target) := by
  unfold rise
  cases hadmin : context.session.isAdmin with
  | true => simp [elevate, Permissions.allowsBetween, Permissions.allowsUnder, h, hadmin]
  | false => simp

end Context

structure Host where
  roster : Roster
  sessions : List Session := []
  contexts : List Context := []

namespace Host

/-- What happens at a host. Sessions and contexts go by their number, from zero on; an event about a
number that is not there yet does nothing. -/
inductive Event where
  | change (request : Roster.Request)
  | openSession (author : String)
  | build (session : Nat) (sources : Sources) (config : Config) (catalog : Catalog)
      (invocation : Invocation)
  | act (context : Nat) (action : Action)

def next (host : Host) : Event → Host
  | .change request => { host with roster := (host.roster.serve request).2 }
  | .openSession author => { host with sessions := host.sessions ++ [host.roster.session author] }
  | .build number sources config catalog invocation =>
    let built := host.sessions[number]?.map fun session =>
      Context.start host.roster session sources config catalog invocation
    { host with contexts := host.contexts ++ built.toList }
  | .act number action =>
    { host with contexts := host.contexts.modify number fun context => context.act action }

def after (host : Host) (events : List Event) : Host := events.foldl next host

def isUserAdmin? (host : Host) (session : Nat) (identity : String) : Option Bool :=
  host.sessions[session]?.map fun _ => host.roster.contains identity

def changes : List Event → List Roster.Request
  | [] => []
  | .change request :: rest => request :: changes rest
  | _ :: rest => changes rest

theorem after_append (host : Host) (events more : List Event) :
    host.after (events ++ more) = (host.after events).after more := List.foldl_append

theorem changes_append (events more : List Event) :
    changes (events ++ more) = changes events ++ changes more := by
  induction events with
  | nil => rfl
  | cons event rest ih => cases event <;> simp [changes, ih]

theorem roster_after (host : Host) (events : List Event) :
    (host.after events).roster = host.roster.after (changes events) := by
  induction events generalizing host with
  | nil => rfl
  | cons event rest ih =>
    refine (ih (host.next event)).trans ?_
    cases event <;> rfl

/-- Sessions stay as they were opened, and contexts keep their rights. -/
structure Extends (host later : Host) : Prop where
  sessions : host.sessions <+: later.sessions
  rights : host.contexts.map Context.rights <+: later.contexts.map Context.rights

theorem Extends.refl (host : Host) : host.Extends host :=
  ⟨List.prefix_rfl, List.prefix_rfl⟩

theorem Extends.trans {host later last : Host} (h : host.Extends later) (h' : later.Extends last) :
    host.Extends last :=
  ⟨h.sessions.trans h'.sessions, h.rights.trans h'.rights⟩

theorem map_rights_modify (contexts : List Context) (number : Nat) (action : Action) :
    (contexts.modify number fun context => context.act action).map Context.rights =
      contexts.map Context.rights := by
  apply List.ext_getElem?
  intro i
  rw [List.getElem?_map, List.getElem?_map, List.getElem?_modify]
  cases contexts[i]? with
  | none => rfl
  | some context =>
    refine congrArg some ?_
    dsimp only
    split
    · exact context.rights_act action
    · rfl

theorem extends_next (host : Host) (event : Event) : host.Extends (host.next event) := by
  cases event with
  | change request => exact ⟨List.prefix_rfl, List.prefix_rfl⟩
  | openSession author => exact ⟨List.prefix_append _ _, List.prefix_rfl⟩
  | build number sources config catalog invocation =>
    refine ⟨List.prefix_rfl, ?_⟩
    rw [next, List.map_append]
    exact List.prefix_append _ _
  | act number action =>
    have hrights : (host.next (.act number action)).contexts.map Context.rights =
        host.contexts.map Context.rights := map_rights_modify host.contexts number action
    exact ⟨List.prefix_rfl, hrights ▸ List.prefix_rfl⟩

theorem extends_after (host : Host) (events : List Event) : host.Extends (host.after events) := by
  induction events generalizing host with
  | nil => exact .refl host
  | cons event rest ih => exact (extends_next host event).trans (ih (host.next event))

private theorem getElem?_of_prefix {α : Type} {items longer : List α} (h : items <+: longer)
    {number : Nat} {item : α} (hitem : items[number]? = some item) :
    longer[number]? = some item := by
  obtain ⟨more, rfl⟩ := h
  obtain ⟨hnumber, -⟩ := List.getElem?_eq_some_iff.mp hitem
  rw [List.getElem?_append_left hnumber, hitem]

theorem session_opened (host : Host) (author : String) (later : List Event) :
    (host.after (.openSession author :: later)).sessions[host.sessions.length]? =
      some (host.roster.session author) := by
  have hlater := extends_after (host.next (.openSession author)) later
  refine getElem?_of_prefix hlater.sessions ?_
  exact List.getElem?_concat_length

theorem context_built {host : Host} {number : Nat} {session : Session}
    (hsession : host.sessions[number]? = some session) (sources : Sources) (config : Config)
    (catalog : Catalog) (invocation : Invocation) (later : List Event) :
    ∃ context,
      (host.after (.build number sources config catalog invocation :: later)).contexts[
        host.contexts.length]? = some context ∧
      context.rights = ⟨session, session.isAdmin, invocation.target,
        host.roster.contains invocation.target⟩ := by
  have hlater := extends_after (host.next (.build number sources config catalog invocation)) later
  have hrights : (((host.next (.build number sources config catalog invocation)).contexts.map
      Context.rights)[host.contexts.length]?) = some ⟨session, session.isAdmin, invocation.target,
        host.roster.contains invocation.target⟩ := by
    rw [next, hsession, List.getElem?_map]
    exact congrArg (Option.map Context.rights) List.getElem?_concat_length
  have hnow := getElem?_of_prefix hlater.rights hrights
  rw [List.getElem?_map] at hnow
  exact Option.map_eq_some_iff.mp hnow

/-- A session says of its author what the roster said when it was opened, in whatever order grants,
revocations, openings, builds and actions came before and come after. So does every context built
from it, at any later time, and that decides what rising and the elevated scope do in it. What a
session says of other identities is true when it is asked, and what a context says of its target was
true when it was built. -/
theorem rights_from_opening (roster : Roster) (before : List Event) (author : String) :
    let opened := (⟨roster, [], []⟩ : Host).after before
    let number := opened.sessions.length
    let atOpening := (roster.after (changes before)).contains author
    (∀ later,
      let now := opened.after (.openSession author :: later)
      now.sessions[number]? = some ⟨author, atOpening⟩ ∧
      ∀ identity, now.isUserAdmin? number identity =
        some ((roster.after (changes (before ++ later))).contains identity)) ∧
    ∀ between sources config catalog invocation later,
      let built := opened.after (.openSession author :: between)
      let now := built.after (.build number sources config catalog invocation :: later)
      ∃ context, now.contexts[built.contexts.length]? = some context ∧
        context.session = ⟨author, atOpening⟩ ∧
        context.permissions.authorIsAdmin = atOpening ∧
        context.target = invocation.target ∧
        context.targetIsAdmin =
          (roster.after (changes (before ++ between))).contains invocation.target ∧
        (context.rise = if atOpening then context.elevate else context) ∧
        (∀ acting target, context.rise.permissions.allowsBetween acting target =
          (atOpening || context.permissions.allowsBetween acting target)) ∧
        ∀ acting target, context.permissions.allowsUnder .elevated acting target =
          (atOpening || acting == target) := by
  intro opened number atOpening
  have hroster (later : List Event) :
      (opened.after (.openSession author :: later)).roster =
        roster.after (changes (before ++ later)) := by
    rw [roster_after, roster_after, changes_append, Roster.after_append]
    rfl
  have hopened : opened.roster.session author = ⟨author, atOpening⟩ := by
    rw [Roster.session, roster_after]
  refine ⟨?_, ?_⟩
  · intro later now
    have hsession : now.sessions[number]? = some ⟨author, atOpening⟩ :=
      hopened ▸ session_opened opened author later
    refine ⟨hsession, fun identity => ?_⟩
    rw [isUserAdmin?, hsession, hroster]
    rfl
  · intro between sources config catalog invocation later built now
    have hsession : built.sessions[number]? = some ⟨author, atOpening⟩ :=
      hopened ▸ session_opened opened author between
    obtain ⟨context, hcontext, hrights⟩ :=
      context_built hsession sources config catalog invocation later
    have hown : context.session = ⟨author, atOpening⟩ := congrArg Rights.session hrights
    have hadmin : context.permissions.authorIsAdmin = atOpening :=
      congrArg Rights.authorIsAdmin hrights
    refine ⟨context, hcontext, hown, hadmin, congrArg Rights.target hrights, ?_, ?_, ?_, ?_⟩
    · rw [← hroster between]
      exact congrArg Rights.targetIsAdmin hrights
    · rw [Context.rise, hown]
    · intro acting target
      rw [Context.allowsBetween_rise (by rw [hadmin, hown]), hown]
    · intro acting target
      rw [Permissions.allowsUnder, hadmin]

end Host
end RecordConsole
