import Tulpje.Framework.Module

/-!
# The registry and event dispatch

`Registry::register` merges the six maps of a module into those of the registry with
`HashMap::extend`. For commands, components, modals, tasks and services a key belongs to one module.
The event map is the one whose keys (event kinds) several modules share, and its values are lists, so
`extend` replaces the list of an earlier module by that of a later one.

`events_registerAll` says what is left: the handlers of the last module that declares the kind.
`runs_all_handlers_iff` compares this with all declared handlers.
-/

namespace Tulpje.Framework

variable {F : Funcs}

structure Registry (F : Funcs) where
  modules : HashMap String (Module F)
  commands : HashMap String (CommandHandler F)
  modals : HashMap String (ModalHandler F)
  components : HashMap String (ComponentInteractionHandler F)
  events : HashMap EventType (List (EventHandler F))
  tasks : HashMap String (TaskHandler F)
  services : HashMap String F.ServiceFunc

namespace Registry

def new : Registry F := ⟨∅, ∅, ∅, ∅, ∅, ∅, ∅⟩

def register (self : Registry F) (module : Module F) : Registry F where
  commands := self.commands.extend module.commands
  modals := self.modals.extend module.modals
  components := self.components.extend module.components
  events := self.events.extend module.events
  tasks := self.tasks.extend module.tasks
  services := self.services.extend module.services
  modules := self.modules.insert module.name module

def findCommand (self : Registry F) (name : String) : Option (CommandHandler F) :=
  self.commands.lookup name

def moduleCommands (self : Registry F) (module : String) : Option (List (CommandBuilder F)) :=
  (self.modules.lookup module).map (·.commandDefinitions)

end Registry

/-- The event half of `framework::handle`: the handlers of the event's kind run one after the other,
and an error of one is logged and does not stop the next. The result pairs each handler that ran with
its outcome. -/
def handle (run : EventHandler F → Except String Unit) (registry : Registry F) (kind : EventType) :
    List (EventHandler F × Except String Unit) :=
  match registry.events.lookup kind with
  | some handlers => handlers.map fun handler => (handler, run handler)
  | none => []

/-- `Registry::register` on each module of a list, in order. -/
def registerAll {tryFrom : String → Option Schedule} (modules : List (BuiltModule tryFrom F)) :
    Registry F :=
  modules.foldl (fun registry m => registry.register m.module) Registry.new

/-! ### The event map after registering -/

variable {tryFrom : String → Option Schedule}

theorem handle_fst (run : EventHandler F → Except String Unit) (registry : Registry F)
    (k : EventType) :
    (handle run registry k).map Prod.fst = (registry.events.lookup k).getD [] := by
  unfold handle
  cases registry.events.lookup k with
  | none => rfl
  | some handlers => simp [Function.comp_def]

theorem events_registerAll_append (modules : List (BuiltModule tryFrom F))
    (m : BuiltModule tryFrom F) (k : EventType) :
    (registerAll (modules ++ [m])).events.lookup k =
      (entryOf (m.declared k)).or ((registerAll modules).events.lookup k) := by
  simp only [registerAll, List.foldl_append, List.foldl_cons, List.foldl_nil, Registry.register]
  rw [HashMap.lookup_extend, m.events_lookup]

/-- A module that declares something for `k` hides every module registered before it, and a module
that declares nothing for `k` changes nothing. -/
theorem events_registerAll (modules : List (BuiltModule tryFrom F)) (m : BuiltModule tryFrom F)
    (k : EventType) :
    ((registerAll (modules ++ [m])).events.lookup k).getD [] =
      if m.declared k = [] then ((registerAll modules).events.lookup k).getD [] else m.declared k := by
  rw [events_registerAll_append]
  cases hd : m.declared k with
  | nil => simp [entryOf]
  | cons h t => simp [entryOf]

theorem no_handlers_iff (modules : List (BuiltModule tryFrom F)) (k : EventType) :
    modules.flatMap (·.declared k) = [] ↔ modules.countP (fun m => !(m.declared k).isEmpty) = 0 := by
  simp [List.flatMap_eq_nil_iff, List.countP_eq_zero]

/-- The handlers run for kind `k` are all the declared ones, each once and in registration order, if
and only if at most one of the registered modules declares a handler for `k`. -/
theorem runs_all_handlers_iff (run : EventHandler F → Except String Unit)
    (modules : List (BuiltModule tryFrom F)) (k : EventType) :
    (handle run (registerAll modules) k).map Prod.fst = modules.flatMap (·.declared k) ↔
      modules.countP (fun m => !(m.declared k).isEmpty) ≤ 1 := by
  rw [handle_fst]
  induction modules using List.reverseRecOn with
  | nil => simp [registerAll, Registry.new]
  | append_singleton modules m ih =>
    rw [events_registerAll, List.flatMap_append, List.flatMap_singleton, List.countP_append,
      List.countP_singleton]
    by_cases hd : m.declared k = []
    · simpa [hd] using ih
    · -- the earlier modules must not have declared anything
      rw [if_neg hd, eq_comm, List.append_left_eq_self, no_handlers_iff]
      simp [hd]

/-! ### The modules of `tulpje-handler` -/

theorem chain_events_eq_foldl (tryFrom : String → Option Schedule)
    (handlers : List (EventType × F.EventFunc)) (b : ModuleBuilder F) :
    b.chain tryFrom (handlers.map fun h => .event h.1 h.2) =
      some (handlers.foldl (fun b h => b.event h.1 h.2) b) := by
  induction handlers generalizing b with
  | nil => rfl
  | cons h handlers ih =>
    rw [List.map_cons, ModuleBuilder.chain, List.foldlM_cons, List.foldl_cons]
    exact ih (b.event h.1 h.2)

/-- The module of a builder chain with event handlers only. -/
def eventModule (tryFrom : String → Option Schedule) (name : String)
    (handlers : List (EventType × F.EventFunc)) : BuiltModule tryFrom F where
  name := name
  calls := handlers.map fun h => .event h.1 h.2
  module := (handlers.foldl (fun b h => b.event h.1 h.2) (ModuleBuilder.new name)).build
  built := by rw [chain_events_eq_foldl, Option.map_some]

/-- Handler functions named by their path. -/
abbrev Named : Funcs := ⟨String, String, String, String, String, String⟩

/-- The event handlers of `tulpje_mod_emoji::build`. -/
def emojiEvents : BuiltModule (fun s => some ⟨s⟩) Named :=
  eventModule _ "emoji" [(.messageCreate, "event_handlers::handle_message"),
    (.messageUpdate, "event_handlers::message_update"),
    (.reactionAdd, "event_handlers::reaction_add"), (.guildCreate, "event_handlers::guild_create"),
    (.guildEmojisUpdate, "event_handlers::guild_emojis_update")]

/-- The event handlers of `tulpje_mod_core::build`, which `main` registers last. -/
def coreEvents : BuiltModule (fun s => some ⟨s⟩) Named :=
  eventModule _ "core" [(.guildCreate, "event_handlers::guild_create"),
    (.guildDelete, "event_handlers::guild_delete")]

/-- In the order of `main`, the emoji module's handler for new guilds is never run. -/
theorem emoji_guild_create_dropped :
    (handle (fun _ => .ok ()) (registerAll [emojiEvents, coreEvents]) .guildCreate).map Prod.fst ≠
      [emojiEvents, coreEvents].flatMap (·.declared .guildCreate) := by
  rw [handle_fst, show [emojiEvents, coreEvents] = [emojiEvents] ++ [coreEvents] from rfl,
    events_registerAll]
  simp [BuiltModule.declared, declaredIn, emojiEvents, coreEvents, eventModule]

end Tulpje.Framework
