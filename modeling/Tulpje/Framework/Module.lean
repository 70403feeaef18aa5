import Mathlib.Data.Finmap
import Tulpje.Lib.Fold
import Tulpje.Twilight.EventType

/-!
# Modules and their builder

`Module` and `ModuleBuilder` of `tulpje-framework/src/module`. A Rust `HashMap` is a `Finmap`: it has
no iteration order, and `insert` replaces. Handler functions are function pointers that the framework
only stores and calls, so each kind of pointer is a type of its own (`Funcs`).

A `BuiltModule` is a module together with the builder chain that made it. The fields of `Module` are
`pub(crate)`, so outside the framework crate there are no other modules.
-/

namespace Tulpje.Framework

abbrev HashMap (K V : Type) := Finmap fun _ : K => V

/-- `HashMap::extend`: every entry of `new` is inserted, replacing the entry of the same key. -/
def HashMap.extend {K V : Type} [DecidableEq K] (old new : HashMap K V) : HashMap K V := new ∪ old

theorem HashMap.lookup_extend {K V : Type} [DecidableEq K] (old new : HashMap K V) (k : K) :
    (HashMap.extend old new).lookup k = (new.lookup k).or (old.lookup k) := by
  unfold HashMap.extend
  by_cases hk : k ∈ new
  · obtain ⟨v, hv⟩ := Finmap.mem_iff.mp hk
    rw [Finmap.lookup_union_left hk, hv, Option.some_or]
  · rw [Finmap.lookup_union_right hk, Finmap.lookup_eq_none.mpr hk, Option.none_or]

/-- An entry after `insert` is the new one or one of another key. -/
theorem HashMap.lookup_insert_eq_some_iff {K V : Type} [DecidableEq K] {map : HashMap K V} {k k' : K} {v v' : V} :
    (map.insert k v).lookup k' = some v' ↔ k' = k ∧ v = v' ∨ k' ≠ k ∧ map.lookup k' = some v' := by
  by_cases hk : k' = k
  · subst hk
    rw [Finmap.lookup_insert, Option.some.injEq]
    simp
  · rw [Finmap.lookup_insert_of_ne _ hk]
    simp [hk]

theorem HashMap.lookup_erase_eq_some_iff {K V : Type} [DecidableEq K] {map : HashMap K V} {k k' : K} {v : V} :
    (map.erase k).lookup k' = some v ↔ k' ≠ k ∧ map.lookup k' = some v := by
  by_cases hk : k' = k
  · subst hk
    rw [Finmap.lookup_erase]
    simp
  · rw [Finmap.lookup_erase_ne hk]
    simp [hk]

/-- `collect` into a `HashMap`: a later entry replaces an earlier one of the same key. -/
def HashMap.collect {K V : Type} [DecidableEq K] (entries : List (K × V)) : HashMap K V :=
  entries.foldl (fun map entry => map.insert entry.1 entry.2) ∅

theorem HashMap.mem_collect {K V : Type} [DecidableEq K] {entries : List (K × V)} {k : K} :
    k ∈ HashMap.collect entries ↔ k ∈ entries.map Prod.fst := by
  unfold HashMap.collect
  induction entries using List.reverseRecOn with
  | nil => exact iff_of_false Finmap.notMem_empty List.not_mem_nil
  | append_singleton entries entry ih =>
    rw [List.foldl_append, List.map_append, List.mem_append, ← ih]
    simp [or_comm]

theorem HashMap.mem_of_lookup_collect {K V : Type} [DecidableEq K] {entries : List (K × V)} {k : K} {v : V}
    (h : (HashMap.collect entries).lookup k = some v) : (k, v) ∈ entries := by
  unfold HashMap.collect at h
  induction entries using List.reverseRecOn with
  | nil =>
    rw [List.foldl_nil, Finmap.lookup_empty] at h
    cases h
  | append_singleton entries entry ih =>
    rw [List.foldl_append, List.foldl_cons, List.foldl_nil] at h
    rcases HashMap.lookup_insert_eq_some_iff.mp h with ⟨rfl, rfl⟩ | ⟨-, hrest⟩
    · exact List.mem_append_right _ (List.mem_singleton_self _)
    · exact List.mem_append_left _ (ih hrest)

/-- The function pointer types of `tulpje-framework/src/handler`. -/
structure Funcs where
  CommandFunc : Type
  ComponentInteractionFunc : Type
  ModalFunc : Type
  EventFunc : Type
  TaskFunc : Type
  ServiceFunc : Type

variable {F : Funcs}

/-! ### Handlers -/

structure CommandHandler (F : Funcs) where
  module : String
  name : String
  func : F.CommandFunc

structure ComponentInteractionHandler (F : Funcs) where
  module : String
  customId : String
  func : F.ComponentInteractionFunc

structure ModalHandler (F : Funcs) where
  module : String
  customId : String
  func : F.ModalFunc

structure EventHandler (F : Funcs) where
  module : String
  event : EventType
  func : F.EventFunc

/-- A cron schedule that `Schedule::try_from` accepted, named by its expression. -/
structure Schedule where
  expression : String

structure TaskHandler (F : Funcs) where
  module : String
  name : String
  cron : Schedule
  func : F.TaskFunc

/-! ### Command builders -/

inductive CommandType
  | chatInput | user | message | primaryEntryPoint
  | unknown (value : UInt8)
  deriving DecidableEq

inductive CommandOptionType
  | subCommand | subCommandGroup | string | integer | boolean | user | channel | role | mentionable
  | number | attachment
  | unknown (value : UInt8)
  deriving DecidableEq

/-- The texts and limits of an option are left out. -/
inductive CommandOption
  | mk (name : String) (kind : CommandOptionType) (options : Option (List CommandOption))

namespace CommandOption

def name : CommandOption → String
  | mk name _ _ => name

def kind : CommandOption → CommandOptionType
  | mk _ kind _ => kind

def options : CommandOption → Option (List CommandOption)
  | mk _ _ options => options

end CommandOption

structure Command where
  name : String
  kind : CommandType
  options : List CommandOption

structure SubCommandBuilder (F : Funcs) where
  name : String
  func : Option F.CommandFunc
  options : List CommandOption

structure SubCommandGroupBuilder (F : Funcs) where
  name : String
  commands : List (SubCommandBuilder F)

structure CommandBuilder (F : Funcs) where
  name : String
  kind : CommandType
  func : Option F.CommandFunc
  groups : List (SubCommandGroupBuilder F)
  subcommands : List (SubCommandBuilder F)
  options : List CommandOption

def SubCommandBuilder.build (self : SubCommandBuilder F) : CommandOption :=
  .mk self.name .subCommand (some self.options)

def SubCommandGroupBuilder.build (self : SubCommandGroupBuilder F) : CommandOption :=
  .mk self.name .subCommandGroup (some (self.commands.map SubCommandBuilder.build))

def CommandBuilder.build (self : CommandBuilder F) : Command where
  name := self.name
  kind := self.kind
  options := self.options ++ self.groups.map SubCommandGroupBuilder.build ++
    self.subcommands.map SubCommandBuilder.build

/-! ### Modules -/

/-- `command_definitions` holds what is registered with Discord; a definition is kept as the builder
it is made from. -/
structure Module (F : Funcs) where
  name : String
  guildScoped : Bool
  commands : HashMap String (CommandHandler F)
  commandDefinitions : List (CommandBuilder F)
  components : HashMap String (ComponentInteractionHandler F)
  modals : HashMap String (ModalHandler F)
  events : HashMap EventType (List (EventHandler F))
  tasks : HashMap String (TaskHandler F)
  services : HashMap String F.ServiceFunc

/-- `ModuleBuilder` has the fields of the module it builds. -/
structure ModuleBuilder (F : Funcs) extends Module F

namespace ModuleBuilder

def new (name : String) : ModuleBuilder F where
  name := name
  guildScoped := false
  commands := ∅
  commandDefinitions := []
  components := ∅
  modals := ∅
  events := ∅
  tasks := ∅
  services := ∅

def build (self : ModuleBuilder F) : Module F := self.toModule

def guild (self : ModuleBuilder F) : ModuleBuilder F := { self with guildScoped := true }

/-- Registers one leaf under `commandName`; `none` is the panic on a leaf without a handler. -/
def insertCommand (self : ModuleBuilder F) (commandName : String) (func : Option F.CommandFunc) :
    Option (ModuleBuilder F) :=
  func.map fun func =>
    { self with commands := self.commands.insert commandName ⟨self.name, commandName, func⟩ }

def command (self : ModuleBuilder F) (command : CommandBuilder F) : Option (ModuleBuilder F) := do
  let self := { self with commandDefinitions := self.commandDefinitions ++ [command] }
  let self ← command.groups.foldlM (fun self group => group.commands.foldlM (fun self subcommand =>
    self.insertCommand (command.name ++ " " ++ group.name ++ " " ++ subcommand.name)
      subcommand.func) self) self
  let self ← command.subcommands.foldlM (fun self subcommand =>
    self.insertCommand (command.name ++ " " ++ subcommand.name) subcommand.func) self
  if command.subcommands.isEmpty && command.groups.isEmpty then
    self.insertCommand command.name command.func
  else
    pure self

def component (self : ModuleBuilder F) (customId : String) (func : F.ComponentInteractionFunc) :
    ModuleBuilder F :=
  { self with components := self.components.insert customId ⟨self.name, customId, func⟩ }

def modal (self : ModuleBuilder F) (customId : String) (func : F.ModalFunc) : ModuleBuilder F :=
  { self with modals := self.modals.insert customId ⟨self.name, customId, func⟩ }

/-- `self.events.entry(event).or_default().push(..)`: a second handler for one event is appended. -/
def event (self : ModuleBuilder F) (event : EventType) (func : F.EventFunc) : ModuleBuilder F :=
  let handlers := (self.events.lookup event).getD [] ++ [⟨self.name, event, func⟩]
  { self with events := self.events.insert event handlers }

/-- `tryFrom` is `Schedule::try_from`; `none` is the panic on an expression it rejects. -/
def task (tryFrom : String → Option Schedule) (self : ModuleBuilder F) (name schedule : String)
    (func : F.TaskFunc) : Option (ModuleBuilder F) :=
  (tryFrom schedule).map fun cron =>
    { self with tasks := self.tasks.insert name ⟨self.name, name, cron, func⟩ }

def service (self : ModuleBuilder F) (name : String) (func : F.ServiceFunc) : ModuleBuilder F :=
  { self with services := self.services.insert name func }

end ModuleBuilder

/-! ### Builder chains -/

/-- One call in a builder chain. -/
inductive BuilderCall (F : Funcs)
  | guild
  | command (command : CommandBuilder F)
  | component (customId : String) (func : F.ComponentInteractionFunc)
  | modal (customId : String) (func : F.ModalFunc)
  | event (event : EventType) (func : F.EventFunc)
  | task (name schedule : String) (func : F.TaskFunc)
  | service (name : String) (func : F.ServiceFunc)

section Chain
variable (tryFrom : String → Option Schedule)

def BuilderCall.apply (self : ModuleBuilder F) : BuilderCall F → Option (ModuleBuilder F)
  | .guild => some self.guild
  | .command c => self.command c
  | .component customId func => some (self.component customId func)
  | .modal customId func => some (self.modal customId func)
  | .event e func => some (self.event e func)
  | .task name schedule func => self.task tryFrom name schedule func
  | .service name func => some (self.service name func)

/-- A chain of calls on a builder, `none` when one of them panics. -/
def ModuleBuilder.chain (self : ModuleBuilder F) (calls : List (BuilderCall F)) :
    Option (ModuleBuilder F) :=
  calls.foldlM (BuilderCall.apply tryFrom) self

/-- A module that some builder chain returned. -/
structure BuiltModule (F : Funcs) where
  name : String
  calls : List (BuilderCall F)
  module : Module F
  built : ((ModuleBuilder.new name).chain tryFrom calls).map ModuleBuilder.build = some module

end Chain

/-- The handlers that the calls of a chain declare for event kind `k` with `ModuleBuilder::event`. -/
def declaredIn (name : String) (k : EventType) (calls : List (BuilderCall F)) :
    List (EventHandler F) :=
  calls.filterMap fun
    | .event e func => if e = k then some ⟨name, e, func⟩ else none
    | _ => none

def BuiltModule.declared {tryFrom : String → Option Schedule} (m : BuiltModule tryFrom F)
    (k : EventType) : List (EventHandler F) :=
  declaredIn m.name k m.calls

/-! ### What a chain leaves in the event map -/

/-- An entry of the event map: no entry stands for the empty list. -/
def entryOf (handlers : List (EventHandler F)) : Option (List (EventHandler F)) :=
  if handlers.isEmpty then none else some handlers

@[simp] theorem entryOf_getD (handlers : List (EventHandler F)) :
    (entryOf handlers).getD [] = handlers := by
  cases handlers <;> rfl

theorem entryOf_append_singleton (handlers : List (EventHandler F)) (h : EventHandler F) :
    entryOf (handlers ++ [h]) = some (handlers ++ [h]) := by
  simp [entryOf]

namespace ModuleBuilder

theorem insertCommand_keeps {b b' : ModuleBuilder F} {commandName : String}
    {func : Option F.CommandFunc} (h : b.insertCommand commandName func = some b') :
    (b'.name, b'.events) = (b.name, b.events) := by
  simp only [insertCommand, Option.map_eq_some_iff] at h
  obtain ⟨f, _, rfl⟩ := h
  rfl

theorem command_keeps {b b' : ModuleBuilder F} {c : CommandBuilder F} (h : b.command c = some b') :
    (b'.name, b'.events) = (b.name, b.events) := by
  unfold command at h
  obtain ⟨b₁, h₁, h⟩ := Option.bind_eq_some_iff.mp h
  obtain ⟨b₂, h₂, h⟩ := Option.bind_eq_some_iff.mp h
  let kept : ModuleBuilder F → String × HashMap EventType (List (EventHandler F)) :=
    fun b => (b.name, b.events)
  have hgroups : kept b₁ = kept b :=
    (Lib.foldlM_keeps kept
      (fun _ _ _ hg => Lib.foldlM_keeps kept (fun _ _ _ hs => insertCommand_keeps hs) hg) h₁).trans rfl
  have hsubs : kept b₂ = kept b₁ :=
    Lib.foldlM_keeps kept (fun _ _ _ hs => insertCommand_keeps hs) h₂
  change kept b' = kept b
  rw [← hgroups, ← hsubs]
  split at h
  · exact insertCommand_keeps h
  · cases h; rfl

end ModuleBuilder

/-- One call appends what it declares for `k` to the entry of `k`, and keeps the module's name. -/
theorem BuilderCall.apply_events (tryFrom : String → Option Schedule) {b b' : ModuleBuilder F}
    (call : BuilderCall F) (k : EventType) {handlers : List (EventHandler F)}
    (hb : b.events.lookup k = entryOf handlers) (h : call.apply tryFrom b = some b') :
    b'.name = b.name ∧ b'.events.lookup k = entryOf (handlers ++ declaredIn b.name k [call]) := by
  cases call with
  | event e func =>
    obtain rfl : b.event e func = b' := Option.some.inj h
    refine ⟨rfl, ?_⟩
    by_cases he : e = k
    · subst he
      simp [ModuleBuilder.event, declaredIn, hb, entryOf_append_singleton]
    · simp [ModuleBuilder.event, declaredIn, he, hb, Finmap.lookup_insert_of_ne _ (Ne.symm he)]
  | command c =>
    have hk := Prod.mk.inj (ModuleBuilder.command_keeps h)
    exact ⟨hk.1, by simp [hk.2, hb, declaredIn]⟩
  | task name schedule func =>
    simp only [apply, ModuleBuilder.task, Option.map_eq_some_iff] at h
    obtain ⟨cron, _, rfl⟩ := h
    exact ⟨rfl, by simp [hb, declaredIn]⟩
  | guild | component | modal | service =>
    cases Option.some.inj h
    refine ⟨rfl, ?_⟩
    change b.events.lookup k = _
    simp [declaredIn, hb]

theorem ModuleBuilder.chain_events (tryFrom : String → Option Schedule) (k : EventType)
    (calls : List (BuilderCall F)) {b b' : ModuleBuilder F} {handlers : List (EventHandler F)}
    (hb : b.events.lookup k = entryOf handlers) (h : b.chain tryFrom calls = some b') :
    b'.events.lookup k = entryOf (handlers ++ declaredIn b.name k calls) := by
  induction calls generalizing b handlers with
  | nil =>
    cases Option.some.inj h
    simpa [declaredIn] using hb
  | cons call calls ih =>
    rw [chain, List.foldlM_cons] at h
    obtain ⟨b₁, h₁, h⟩ := Option.bind_eq_some_iff.mp h
    obtain ⟨hname, hev⟩ := call.apply_events tryFrom k hb h₁
    rw [ih hev h, hname, List.append_assoc]
    simp only [declaredIn, ← List.filterMap_append, List.singleton_append]

/-- The event map of a built module holds exactly the handlers its chain declared, in order. -/
theorem BuiltModule.events_lookup {tryFrom : String → Option Schedule} (m : BuiltModule tryFrom F)
    (k : EventType) : m.module.events.lookup k = entryOf (m.declared k) := by
  obtain ⟨b, hb, hm⟩ := Option.map_eq_some_iff.mp m.built
  have h := ModuleBuilder.chain_events tryFrom k m.calls
    (show (ModuleBuilder.new m.name : ModuleBuilder F).events.lookup k = entryOf [] by
      simp [ModuleBuilder.new, entryOf]) hb
  rw [← hm]
  simpa [ModuleBuilder.build, ModuleBuilder.new, BuiltModule.declared] using h

end Tulpje.Framework
