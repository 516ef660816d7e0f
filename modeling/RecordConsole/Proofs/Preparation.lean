import RecordConsole.Engine

/-! From a line to the context in which its command starts. Changes to a context that modifiers
do not see, such as other sources, can be made before or after a modifier acts. -/
namespace RecordConsole

section MapError

variable {ε ε' α : Type} (f : ε → ε')

@[simp] theorem mapError_ok (a : α) : (Except.ok a : Except ε α).mapError f = .ok a := rfl

@[simp] theorem mapError_error (e : ε) :
    (Except.error e : Except ε α).mapError f = .error (f e) := rfl

theorem mapError_map {β : Type} (result : Except ε α) (g : α → β) :
    (result.map g).mapError f = (result.mapError f).map g := by
  cases result <;> rfl

end MapError

/-- A change to contexts that neither looks at the permissions nor touches the session. -/
structure Context.Blind (change : Context → Context) : Prop where
  elevate : ∀ context, (change context).elevate = change context.elevate
  session : ∀ context, (change context).session = context.session

theorem Action.apply_change {change : Context → Context} (blind : Context.Blind change)
    (action : Action) (context : Context) :
    action.apply (change context) = (action.apply context).map change := by
  cases action with
  | elevate => exact congrArg Except.ok (blind.elevate context)
  | rise =>
    simp only [apply, Context.rise, blind.session, blind.elevate]
    split <;> rfl
  | fail fault => rfl

theorem Modifier.apply_change {change : Context → Context} (blind : Context.Blind change)
    (modifier : Modifier) (context : Context) :
    modifier.apply (change context) = (modifier.apply context).map change := by
  unfold apply
  induction modifier.actions generalizing context with
  | nil => rfl
  | cons action rest ih =>
    simp only [List.foldlM_cons, Action.apply_change blind]
    cases action.apply context with
    | error fault => rfl
    | ok next => exact ih next

structure Registry.Finds (registry : Registry) (name : CallName) (command : Command)
    (modifier : Option Modifier) : Prop where
  command : registry.commands.find? name.command = some command
  modifier : name.modifier.map registry.modifiers.find? = modifier.map some

namespace Engine

theorem resolve_eq (engine : Engine) (line : String) :
    engine.resolve line =
      match Line.readName line with
      | .error e => .error (.fault e.fault)
      | .ok name =>
        match engine.registry.commands.find? name.command with
        | none => .error (.unknownCommand name.command)
        | some command =>
          match name.modifier with
          | none => .ok (command, none)
          | some modifierName =>
            match engine.registry.modifiers.find? modifierName with
            | none => .error (.unknownModifier modifierName)
            | some modifier => .ok (command, some modifier) := by
  unfold resolve Registry.command Registry.modifier
  cases Line.readName line with
  | error e => rfl
  | ok name =>
    cases hcommand : engine.registry.commands.find? name.command with
    | none => simp [bind, Except.bind, hcommand]
    | some command =>
      cases hname : name.modifier with
      | none => simp [bind, Except.bind, hcommand, hname]
      | some modifierName =>
        cases hmodifier : engine.registry.modifiers.find? modifierName <;>
          simp [bind, Except.bind, hcommand, hname, hmodifier]

theorem resolve_eq_ok_iff (engine : Engine) (line : String) (command : Command)
    (modifier : Option Modifier) :
    engine.resolve line = .ok (command, modifier) ↔
      ∃ name, Line.readName line = .ok name ∧ engine.registry.Finds name command modifier := by
  rw [resolve_eq]
  constructor
  · intro h
    cases hname : Line.readName line with
    | error e => simp [hname] at h
    | ok name =>
      refine ⟨name, rfl, ?_⟩
      cases hcommand : engine.registry.commands.find? name.command with
      | none => simp [hname, hcommand] at h
      | some found =>
        cases hm : name.modifier with
        | none =>
          simp only [hname, hcommand, hm, Except.ok.injEq, Prod.mk.injEq] at h
          obtain ⟨rfl, rfl⟩ := h
          exact ⟨hcommand, by simp [hm]⟩
        | some modifierName =>
          cases hmodifier : engine.registry.modifiers.find? modifierName with
          | none => simp [hname, hcommand, hm, hmodifier] at h
          | some found =>
            simp only [hname, hcommand, hm, hmodifier, Except.ok.injEq, Prod.mk.injEq] at h
            obtain ⟨rfl, rfl⟩ := h
            exact ⟨hcommand, by simp [hm, hmodifier]⟩
  · rintro ⟨name, hname, hcommand, hmodifier⟩
    cases hm : name.modifier with
    | none =>
      cases modifier with
      | none => simp [hname, hcommand, hm]
      | some modifier => simp [hm] at hmodifier
    | some modifierName =>
      cases modifier with
      | none => simp [hm] at hmodifier
      | some modifier =>
        simp only [hm, Option.map_some, Option.some.injEq] at hmodifier
        simp [hname, hcommand, hm, hmodifier]

/-- The context in which the command of a line starts, once its modifier has acted. -/
def ready (engine : Engine) (roster : Roster) (session : Session) (sources : Sources)
    (line : String) (modifier : Option Modifier) : Except Refusal Context :=
  match engine.context roster session sources line, modifier with
  | .error e, _ => .error (.fault e.fault)
  | .ok context, none => .ok context
  | .ok context, some modifier => (modifier.apply context).mapError .fault

theorem prepare_eq (engine : Engine) (roster : Roster) (session : Session) (sources : Sources)
    (line : String) :
    engine.prepare roster session sources line =
      match engine.resolve line with
      | .error refusal => .error refusal
      | .ok (command, modifier) =>
        (engine.ready roster session sources line modifier).map command.execute := by
  unfold prepare ready
  cases engine.resolve line with
  | error refusal => rfl
  | ok found =>
    obtain ⟨command, modifier⟩ := found
    cases engine.context roster session sources line with
    | error e => rfl
    | ok context =>
      cases modifier with
      | none => rfl
      | some modifier =>
        cases modifier.apply context <;> rfl

theorem ready_of_context {engine other : Engine} {roster : Roster} {session : Session}
    {sources sources' : Sources} {line line' : String} {change : Context → Context}
    (blind : Context.Blind change)
    (h : (other.context roster session sources' line').mapError LineError.fault =
      ((engine.context roster session sources line).map change).mapError LineError.fault)
    (modifier : Option Modifier) :
    other.ready roster session sources' line' modifier =
      (engine.ready roster session sources line modifier).map change := by
  unfold ready
  cases hcontext : engine.context roster session sources line with
  | error e =>
    cases hother : other.context roster session sources' line' with
    | error e' =>
      rw [hcontext, hother] at h
      have hfault : e'.fault = e.fault := Except.error.inj h
      simp only [hfault, Except.map]
    | ok context =>
      rw [hcontext, hother] at h
      cases h
  | ok context =>
    cases hother : other.context roster session sources' line' with
    | error e' =>
      rw [hcontext, hother] at h
      cases h
    | ok context' =>
      rw [hcontext, hother] at h
      obtain rfl : context' = change context := Except.ok.inj h
      cases modifier with
      | none => rfl
      | some modifier =>
        simp only [Modifier.apply_change blind]
        cases modifier.apply context <;> rfl

theorem ready_change {engine other : Engine} {roster : Roster} {session : Session}
    {sources sources' : Sources} {line : String} {change : Context → Context}
    (blind : Context.Blind change)
    (h : other.context roster session sources' line =
      (engine.context roster session sources line).map change) (modifier : Option Modifier) :
    other.ready roster session sources' line modifier =
      (engine.ready roster session sources line modifier).map change :=
  ready_of_context blind (congrArg (·.mapError LineError.fault) h) modifier

/-- Lines of the same names lead to the same steps if their contexts differ in nothing that modifiers
or the commands of the registry see. -/
theorem prepare_change {engine : Engine} {roster : Roster} {session : Session} {sources : Sources}
    {line line' : String} {change : Context → Context} (blind : Context.Blind change)
    (hname : Line.readName line' = Line.readName line)
    (h : (engine.context roster session sources line').mapError LineError.fault =
      ((engine.context roster session sources line).map change).mapError LineError.fault)
    (hexecute : ∀ name command, engine.registry.commands.find? name = some command →
      ∀ context, command.execute (change context) = command.execute context) :
    engine.prepare roster session sources line' = engine.prepare roster session sources line := by
  have hresolve : engine.resolve line' = engine.resolve line := by
    rw [resolve_eq, resolve_eq, hname]
  rw [prepare_eq, prepare_eq, hresolve]
  cases hfound : engine.resolve line with
  | error refusal => rfl
  | ok found =>
    obtain ⟨command, modifier⟩ := found
    obtain ⟨name, -, hfinds⟩ := (resolve_eq_ok_iff engine line command modifier).mp hfound
    simp only [ready_of_context blind h modifier]
    cases engine.ready roster session sources line modifier with
    | error refusal => rfl
    | ok context => exact congrArg Except.ok (hexecute _ _ hfinds.command context)

end Engine
end RecordConsole
