import RecordConsole.Proofs.Confinement
import RecordConsole.Proofs.Registration
import RecordConsole.Proofs.Service

/-! The registry over a history of registrations. Under each name stands what was registered there
first, for good; commands and modifiers are registered as if the others did not exist. -/
namespace RecordConsole

namespace Table

variable {α : Type}

def register (nameOf : α → String) (taken : String → RegistryError) (table : Table α) (entry : α) :
    Except RegistryError Unit × Table α :=
  if !Registry.isValidName (nameOf entry) then (.error (.invalidName (nameOf entry)), table)
  else if table.contains (nameOf entry) then (.error (taken (nameOf entry)), table)
  else (.ok (), table.insert (nameOf entry) entry)

/-- Under each name the table has the first entry of a log with that name. -/
def FirstOf (nameOf : α → String) (table : Table α) (log : List α) : Prop :=
  ∀ name, table.find? name = log.find? fun entry => nameOf entry == name

variable {nameOf : α → String} {taken : String → RegistryError} {table : Table α} {log : List α}

theorem firstOf_empty : (empty : Table α).FirstOf nameOf [] := fun _ => rfl

theorem FirstOf.contains_eq_false_iff (h : table.FirstOf nameOf log) {name : String} :
    table.contains name = false ↔ ∀ earlier ∈ log, nameOf earlier ≠ name := by
  rw [contains, h name, Option.isSome_eq_false_iff, Option.isNone_iff_eq_none,
    List.find?_eq_none]
  simp only [beq_iff_eq, ne_eq]

theorem FirstOf.insert (h : table.FirstOf nameOf log) {entry : α}
    (hfree : table.contains (nameOf entry) = false) :
    (table.insert (nameOf entry) entry).FirstOf nameOf (log ++ [entry]) := by
  intro name
  rw [find?_insert, List.find?_append, ← h name]
  by_cases hname : name = nameOf entry
  · subst hname
    have hnone : table.find? (nameOf entry) = none :=
      Option.isNone_iff_eq_none.mp (Option.isSome_eq_false_iff.mp hfree)
    simp [hnone]
  · have hother : (nameOf entry == name) = false := by simpa using Ne.symm hname
    simp [hname, hother]

theorem FirstOf.find?_later {later : Table α} {more : List α} (h : table.FirstOf nameOf log)
    (hlater : later.FirstOf nameOf (log ++ more)) {name : String} {entry : α}
    (hfind : table.find? name = some entry) : later.find? name = some entry := by
  rw [hlater, List.find?_append, ← h name, hfind, Option.some_or]

theorem firstOf_ofList {entries : List α} (distinct : (entries.map nameOf).Nodup) :
    (ofList (entries.map fun entry => (nameOf entry, entry))).FirstOf nameOf entries := by
  induction entries using List.reverseRecOn with
  | nil => exact firstOf_empty
  | append_singleton entries entry ih =>
    rw [List.map_append, List.nodup_append] at distinct
    obtain ⟨hentries, -, hapart⟩ := distinct
    have hfirst := ih hentries
    have hfree : (ofList (entries.map fun entry => (nameOf entry, entry))).contains
        (nameOf entry) = false := by
      rw [hfirst.contains_eq_false_iff]
      intro earlier hearlier
      exact hapart _ (List.mem_map_of_mem hearlier) _ (by simp)
    have hinsert := hfirst.insert hfree
    rw [ofList, List.map_append, List.foldl_append]
    exact hinsert

/-! ## One registration -/

/-- An entry is registered if its name is valid and free, and otherwise nothing is changed. -/
theorem register_cases (nameOf : α → String) (taken : String → RegistryError) (table : Table α)
    (entry : α) :
    ((Registry.isValidName (nameOf entry) = true ∧ table.contains (nameOf entry) = false) ∧
      table.register nameOf taken entry = (.ok (), table.insert (nameOf entry) entry)) ∨
    (¬ (Registry.isValidName (nameOf entry) = true ∧ table.contains (nameOf entry) = false) ∧
      ∃ e, table.register nameOf taken entry = (.error e, table)) := by
  unfold register
  cases Registry.isValidName (nameOf entry) with
  | false => exact Or.inr ⟨by simp, _, rfl⟩
  | true =>
    cases table.contains (nameOf entry) with
    | false => exact Or.inl ⟨⟨rfl, rfl⟩, rfl⟩
    | true => exact Or.inr ⟨by simp, _, rfl⟩

theorem register_of_error {entry : α} {e : RegistryError}
    (hfails : (table.register nameOf taken entry).1 = .error e) :
    (table.register nameOf taken entry).2 = table := by
  rcases register_cases nameOf taken table entry with ⟨-, hregister⟩ | ⟨-, e', hregister⟩
  · rw [hregister] at hfails
    cases hfails
  · rw [hregister]

theorem FirstOf.register (h : table.FirstOf nameOf log) (taken : String → RegistryError)
    (entry : α) :
    (table.register nameOf taken entry).2.FirstOf nameOf
      (log ++ ((table.register nameOf taken entry).1.toOption.map fun _ => entry).toList) := by
  rcases register_cases nameOf taken table entry with ⟨⟨-, hfree⟩, hregister⟩ | ⟨-, e, hregister⟩
  · rw [hregister]
    exact h.insert hfree
  · rw [hregister]
    simpa [Except.toOption] using h

theorem FirstOf.register_eq_ok_iff (h : table.FirstOf nameOf log) {entry : α} :
    (table.register nameOf taken entry).1 = .ok () ↔
      Line.Name (nameOf entry).toList ∧ ∀ earlier ∈ log, nameOf earlier ≠ nameOf entry := by
  rw [← Registry.isValidName_iff, ← h.contains_eq_false_iff]
  rcases register_cases nameOf taken table entry with ⟨hgood, hregister⟩ | ⟨hbad, e, hregister⟩
  · simp only [hregister, hgood, and_self]
  · simp only [hregister, hbad, reduceCtorEq]

/-- How registrations of one kind are answered, and what is found and listed, once those of a log
were carried out. -/
structure Registers (nameOf : α → String) (unknown : String → Fault) (log : List α)
    (register : α → Except RegistryError Unit) (lookup : String → Except Fault α)
    (names : List String) : Prop where
  register_iff : ∀ entry, register entry = .ok () ↔
    Line.Name (nameOf entry).toList ∧ ∀ earlier ∈ log, nameOf earlier ≠ nameOf entry
  lookup_first : ∀ name, lookup name =
    (log.find? fun entry => nameOf entry == name).elim (.error (unknown name)) .ok
  ascending : names.Pairwise fun name other =>
    name.toUTF8.data.toList < other.toUTF8.data.toList
  listed_iff : ∀ name, name ∈ names ↔ ∃ entry, lookup name = .ok entry

theorem FirstOf.registers (h : table.FirstOf nameOf log) {unknown : String → Fault}
    {register : α → Except RegistryError Unit} {lookup : String → Except Fault α}
    (hregister : ∀ entry, register entry = (table.register nameOf taken entry).1)
    (hlookup : ∀ name, lookup name = (table.find? name).elim (.error (unknown name)) .ok) :
    Registers nameOf unknown log register lookup table.names where
  register_iff entry := by
    rw [hregister]
    exact h.register_eq_ok_iff
  lookup_first name := by
    rw [hlookup, h name]
  ascending := table.names_ascending
  listed_iff name := by
    rw [mem_names_iff, contains_iff, hlookup]
    cases table.find? name <;> simp

end Table

namespace Registry

inductive Kind where
  | command
  | modifier
deriving DecidableEq

inductive Request where
  | command (command : Command)
  | modifier (modifier : Modifier)

def Request.kind : Request → Kind
  | command _ => .command
  | modifier _ => .modifier

def serve (registry : Registry) : Request → Except RegistryError Unit × Registry
  | .command command =>
    match registry.addCommand command with
    | .ok next => (.ok (), next)
    | .error e => (.error e, registry)
  | .modifier modifier =>
    match registry.addModifier modifier with
    | .ok next => (.ok (), next)
    | .error e => (.error e, registry)

inductive Origin where
  | empty
  | standard

namespace Origin

def registry : Origin → Registry
  | empty => .empty
  | standard => .standard

def commands : Origin → List Command
  | empty => []
  | standard => Command.builtins

def modifiers : Origin → List Modifier
  | empty => []
  | standard => [.rise]

end Origin

def commandAdded? : Request × Except RegistryError Unit → Option Command
  | (.command command, answer) => answer.toOption.map fun _ => command
  | (.modifier _, _) => none

def modifierAdded? : Request × Except RegistryError Unit → Option Modifier
  | (.command _, _) => none
  | (.modifier modifier, answer) => answer.toOption.map fun _ => modifier

def Alike (kind : Kind) (registry other : Registry) : Prop :=
  match kind with
  | .command => registry.commands = other.commands
  | .modifier => registry.modifiers = other.modifiers

/-! ## One request -/

theorem serve_command (registry : Registry) (command : Command) :
    let served := registry.commands.register Command.name .commandTaken command
    registry.serve (.command command) = (served.1, { registry with commands := served.2 }) := by
  simp only [serve, addCommand, Table.register]
  split_ifs <;> rfl

theorem serve_modifier (registry : Registry) (modifier : Modifier) :
    let served := registry.modifiers.register Modifier.name .modifierTaken modifier
    registry.serve (.modifier modifier) = (served.1, { registry with modifiers := served.2 }) := by
  simp only [serve, addModifier, Table.register]
  split_ifs <;> rfl

theorem serve_of_error {registry : Registry} {request : Request} {e : RegistryError}
    (hfails : (registry.serve request).1 = .error e) : (registry.serve request).2 = registry := by
  cases request with
  | command command =>
    rw [serve_command] at hfails ⊢
    rw [Table.register_of_error hfails]
  | modifier modifier =>
    rw [serve_modifier] at hfails ⊢
    rw [Table.register_of_error hfails]

theorem commands_serve (registry : Registry) (log : List Command) (request : Request)
    (h : registry.commands.FirstOf Command.name log) :
    (registry.serve request).2.commands.FirstOf Command.name
      (log ++ (commandAdded? (request, (registry.serve request).1)).toList) := by
  cases request with
  | command command =>
    rw [serve_command]
    exact h.register .commandTaken command
  | modifier modifier =>
    rw [serve_modifier]
    simpa [commandAdded?] using h

theorem modifiers_serve (registry : Registry) (log : List Modifier) (request : Request)
    (h : registry.modifiers.FirstOf Modifier.name log) :
    (registry.serve request).2.modifiers.FirstOf Modifier.name
      (log ++ (modifierAdded? (request, (registry.serve request).1)).toList) := by
  cases request with
  | command command =>
    rw [serve_command]
    simpa [modifierAdded?] using h
  | modifier modifier =>
    rw [serve_modifier]
    exact h.register .modifierTaken modifier

/-- What is answered to a request depends on the entries of its own kind alone. -/
theorem serve_alike (kind : Kind) (registry other : Registry) (request : Request)
    (hkind : (request.kind == kind) = true) (h : Alike kind registry other) :
    (registry.serve request).1 = (other.serve request).1 ∧
      Alike kind (registry.serve request).2 (other.serve request).2 := by
  obtain rfl := beq_iff_eq.mp hkind
  cases request with
  | command command =>
    have hsame : registry.commands = other.commands := h
    rw [serve_command, serve_command, hsame]
    exact ⟨rfl, rfl⟩
  | modifier modifier =>
    have hsame : registry.modifiers = other.modifiers := h
    rw [serve_modifier, serve_modifier, hsame]
    exact ⟨rfl, rfl⟩

theorem serve_otherKind (kind : Kind) (registry other : Registry) (request : Request)
    (hkind : (request.kind == kind) = false) (h : Alike kind registry other) :
    Alike kind (registry.serve request).2 other := by
  cases kind <;> cases request
  · cases hkind
  · rw [serve_modifier]
    exact h
  · rw [serve_command]
    exact h
  · cases hkind

/-! ## Histories -/

theorem Origin.commands_firstOf (origin : Origin) :
    origin.registry.commands.FirstOf Command.name origin.commands := by
  cases origin with
  | empty => exact Table.firstOf_empty
  | standard =>
    have distinct : (Command.builtins.map Command.name).Nodup := by decide
    exact Table.firstOf_ofList distinct

theorem Origin.modifiers_firstOf (origin : Origin) :
    origin.registry.modifiers.FirstOf Modifier.name origin.modifiers := by
  cases origin with
  | empty => exact Table.firstOf_empty
  | standard =>
    have distinct : ([Modifier.rise].map Modifier.name).Nodup := by decide
    exact Table.firstOf_ofList distinct

theorem command_eq (registry : Registry) (name : String) :
    registry.command name =
      (registry.commands.find? name).elim (.error (.unknownCommand name)) .ok := by
  unfold command
  cases registry.commands.find? name <;> rfl

theorem modifier_eq (registry : Registry) (name : String) :
    registry.modifier name =
      (registry.modifiers.find? name).elim (.error (.unknownModifier name)) .ok := by
  unfold modifier
  cases registry.modifiers.find? name <;> rfl

theorem command_eq_ok_iff {registry : Registry} {name : String} {command : Command} :
    registry.command name = .ok command ↔ registry.commands.find? name = some command := by
  rw [command_eq]
  cases registry.commands.find? name <;> simp

theorem modifier_eq_ok_iff {registry : Registry} {name : String} {modifier : Modifier} :
    registry.modifier name = .ok modifier ↔ registry.modifiers.find? name = some modifier := by
  rw [modifier_eq]
  cases registry.modifiers.find? name <;> simp

/-- After any registrations, a call succeeds exactly if its name is valid and no entry of its kind
has it, and a failing one changes nothing. Each name finds what was registered under it first, built
in or not, and always will; commands and modifiers take no notice of each other; and the listed names
are those that are found, once each and in the order of their bytes. -/
theorem first_registration_counts (origin : Origin) (requests : List Request) :
    let start := origin.registry
    let history := Service.history serve start requests
    let registry := Service.after serve start requests
    Table.Registers Command.name .unknownCommand
      (origin.commands ++ history.filterMap commandAdded?)
      (fun command => (registry.serve (.command command)).1) registry.command
      registry.commandNames ∧
    Table.Registers Modifier.name .unknownModifier
      (origin.modifiers ++ history.filterMap modifierAdded?)
      (fun modifier => (registry.serve (.modifier modifier)).1) registry.modifier
      registry.modifierNames ∧
    (∀ request e, (registry.serve request).1 = .error e → (registry.serve request).2 = registry) ∧
    (∀ name command, registry.command name = .ok command →
      ∀ more, (Service.after serve registry more).command name = .ok command) ∧
    (∀ name modifier, registry.modifier name = .ok modifier →
      ∀ more, (Service.after serve registry more).modifier name = .ok modifier) ∧
    ∀ kind,
      let alone := requests.filter fun request => request.kind == kind
      history.filter (fun entry => entry.1.kind == kind) = Service.history serve start alone ∧
        Alike kind registry (Service.after serve start alone) := by
  intro start history registry
  have hcommands : registry.commands.FirstOf Command.name
      (origin.commands ++ history.filterMap commandAdded?) :=
    Service.invariant_after commands_serve origin.commands_firstOf requests
  have hmodifiers : registry.modifiers.FirstOf Modifier.name
      (origin.modifiers ++ history.filterMap modifierAdded?) :=
    Service.invariant_after modifiers_serve origin.modifiers_firstOf requests
  refine ⟨?_, ?_, fun request e hfails => serve_of_error hfails, ?_, ?_, ?_⟩
  · exact hcommands.registers (fun command => congrArg Prod.fst (registry.serve_command command))
      registry.command_eq
  · exact hmodifiers.registers
      (fun modifier => congrArg Prod.fst (registry.serve_modifier modifier)) registry.modifier_eq
  · intro name command hfound more
    rw [command_eq_ok_iff] at hfound ⊢
    exact hcommands.find?_later (Service.invariant_after commands_serve hcommands more) hfound
  · intro name modifier hfound more
    rw [modifier_eq_ok_iff] at hfound ⊢
    exact hmodifiers.find?_later (Service.invariant_after modifiers_serve hmodifiers more) hfound
  · intro kind
    have halike : Alike kind start start := by cases kind <;> rfl
    exact Service.history_filter (fun state other request => serve_alike kind state other request)
      (fun state other request => serve_otherKind kind state other request) halike requests

end Registry
end RecordConsole
