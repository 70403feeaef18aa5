import Tulpje.Core.Database

/-!
# The handlers of the core module

The cleanup task, the event handlers and the commands of `tulpje-mod-core`, call by call. What Discord answers is
up to the world; a statement that fails changes nothing. Log lines are left out.
-/

namespace Tulpje.Core

open Lib Framework
open Pluralkit (Error GuildId Time)

variable {F : Funcs}

inductive Call (F : Funcs)
  | sql (statement : Statement)
  | ctxGuild
  | getArgString (name : String)
  | setGuildCommands (guildId : GuildId) (commands : List (CommandBuilder F))
  | reply (message : String)

@[reducible] def Call.Reply : Call F → Type
  | sql statement => Except Error statement.Reply
  | ctxGuild => Except Error (Option GuildId)
  | getArgString _ => Except Error String
  | setGuildCommands .. | reply _ => Except Error Unit

/-- Any reply is possible, at any time on the clock of the database. -/
def world : (o : Call F) → Database → o.Reply → Database → Prop
  | .sql statement, db, r, db' =>
    match r with
    | .ok rows => ∃ now, statement.Answers { db with now } rows db'
    | .error _ => ∃ now, db' = { db with now }
  | _, db, _, db' => ∃ now, db' = { db with now }

abbrev DbCall (F : Funcs) := Called (Call F) Call.Reply Database

abbrev Task (F : Funcs) := Prog Error (Call F) Call.Reply

def send (o : Call F) : Task F o.Reply := Prog.send o

def sql (statement : Statement) : Task F statement.Reply := do
  Prog.ofExcept (← send (.sql statement))

/-- `tulpje_lib::db::guild::touch`. -/
def touch (guildId : GuildId) : Task F Unit := sql (.touch guildId)

/-! ### `tasks.rs` -/

def deleteGuild (guildId : GuildId) : Task F Unit := do
  let _ ← sql (.deleteGuild guildId)

/-- The loop of `delete_removed_guilds`. -/
def deleteGuilds (guilds : List (GuildId × Time)) : Task F Unit :=
  guilds.forM fun guild => do
    let _ ← (deleteGuild guild.1).attempt
    pure ()

def deleteRemovedGuilds : Task F Unit := do
  let guilds ← sql .guildsEligibleForDeletion
  deleteGuilds guilds

/-! ### `lib.rs` and `event_handlers.rs` -/

/-- The commands of the modules that the registry has. -/
def commandsOf (registry : Registry F) (modules : List String) : List (CommandBuilder F) :=
  (modules.filterMap registry.moduleCommands).flatten

def setGuildCommandsForGuild (modules : List String) (guildId : GuildId) (registry : Registry F) :
    Task F Unit := do
  Prog.ofExcept (← send (.setGuildCommands guildId (commandsOf registry modules)))

def registerCommands (registry : Registry F) (guildId : GuildId) : Task F Unit := do
  let commands := commandsOf registry (← sql (.guildModules guildId))
  if commands.isEmpty then
    pure ()
  else
    Prog.ofExcept (← send (.setGuildCommands guildId commands))

def guildCreate (registry : Registry F) (guildId : GuildId) : Task F Unit := do
  touch guildId
  registerCommands registry guildId

def guildDelete (guildId : GuildId) (unavailable : Option Bool) : Task F Unit :=
  if unavailable.isSome then pure () else sql (.leaveGuild guildId)

/-! ### `commands.rs` -/

/-- `registry.guild_module_names().contains(..)`. -/
def isGuildModule (registry : Registry F) (module : String) : Bool :=
  decide (∃ key ∈ registry.modules.keys, (registry.modules.lookup key).any fun m => m.guildScoped && m.name == module)

/-- What `enable` and `disable` share; they differ in the change and in the answer. -/
def switchModule (registry : Registry F) (change : GuildId → String → Task F Unit) (answer : String) :
    Task F Unit := do
  match ← Prog.ofExcept (← send .ctxGuild) with
  | none => Prog.throw "command is guild_only"
  | some guildId =>
    let module ← Prog.ofExcept (← send (.getArgString "module"))
    if isGuildModule registry module then
      change guildId module
      let modules ← sql (.guildModules guildId)
      setGuildCommandsForGuild modules guildId registry
      Prog.ofExcept (← send (.reply s!"{module} {answer}"))
    else
      Prog.ofExcept (← send (.reply s!"invalid module {module}"))

def enable (registry : Registry F) : Task F Unit :=
  switchModule registry (fun guildId module => do
    touch guildId
    sql (.enableModule guildId module)) "enabled"

def disable (registry : Registry F) : Task F Unit :=
  switchModule registry (fun guildId module => sql (.disableModule guildId module)) "disabled"

end Tulpje.Core
