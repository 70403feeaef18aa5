import Tulpje.Framework.Registry
import Tulpje.Pluralkit.Database

/-!
# The tables of the core module

`guild_modules` beside the tables of the PluralKit module, and the queries of `tulpje-mod-core/src/db.rs` and
`touch` of `tulpje-lib/src/db/guild.rs`. The primary key of `guild_modules` is the guild. All settings refer to
`guilds` with `ON DELETE CASCADE`.
-/

namespace Tulpje.Core

open Lib Framework
open Pluralkit (Error GuildId Time)

structure Database extends Pluralkit.Database where
  guildModules : Table GuildId String

def week : Time := 7 * 24 * Pluralkit.hour

namespace Database

/-- The tables after the migrations. -/
def empty : Database :=
  ⟨⟨0, Table.empty, Table.empty, Table.empty, Table.empty, Table.empty, ∅, Table.empty⟩, Table.empty⟩

variable (db : Database)

def touch (guildId : GuildId) : Database :=
  { db with
    guilds := db.guilds.upsert guildId
      (match db.guilds.row guildId with
      | some row => { row with updatedAt := db.now, deletedAt := none }
      | none => ⟨db.now, db.now, none⟩) }

def leaveGuild (guildId : GuildId) : Database :=
  match db.guilds.row guildId with
  | some row => { db with guilds := db.guilds.upsert guildId { row with deletedAt := some db.now } }
  | none => db

/-- The rows that refer to the guild go with it. -/
def deleteGuild (guildId : GuildId) : Database :=
  { db with
    guilds := db.guilds.delete guildId
    guildModules := db.guildModules.delete guildId
    pkGuilds := db.pkGuilds.delete guildId
    pkFronters := db.pkFronters.delete guildId
    pkNotifyChannels := db.pkNotifyChannels.delete guildId
    pkNotifySystems := db.pkNotifySystems.filter (·.1 ≠ guildId) }

/-- `ON CONFLICT (guild_id) DO NOTHING`. -/
def enableModule (guildId : GuildId) (module : String) : Database :=
  match db.guildModules.row guildId with
  | some _ => db
  | none => { db with guildModules := db.guildModules.upsert guildId module }

def disableModule (guildId : GuildId) (module : String) : Database :=
  { db with guildModules := db.guildModules.deleteWhere fun key enabled => key == guildId && enabled == module }

/-- The rows of `guild_modules` for a guild. -/
def modulesOf (guildId : GuildId) : List String := (db.guildModules.row guildId).toList

end Database

/-! ### Statements -/

inductive Statement
  | touch (guildId : GuildId)
  | enableModule (guildId : GuildId) (module : String)
  | disableModule (guildId : GuildId) (module : String)
  | guildModules (guildId : GuildId)
  | leaveGuild (guildId : GuildId)
  | deleteGuild (guildId : GuildId)
  | guildsEligibleForDeletion
  | pluralkit (statement : Pluralkit.Statement)

@[reducible] def Statement.Reply : Statement → Type
  | touch _ | enableModule .. | disableModule .. | leaveGuild _ => Unit
  | guildModules _ => List String
  | deleteGuild _ => Bool
  | guildsEligibleForDeletion => List (GuildId × Time)
  | pluralkit statement => statement.Reply

/-- What a statement that succeeds returns, and the tables after it. A row of `guild_modules` is inserted only
for a guild in `guilds`. -/
def Statement.Answers : (q : Statement) → Database → q.Reply → Database → Prop
  | touch guildId, db, _, db' => db' = db.touch guildId
  | enableModule guildId module, db, _, db' =>
    (db.guildModules.row guildId = none → (db.guilds.row guildId).isSome = true) ∧
      db' = db.enableModule guildId module
  | disableModule guildId module, db, _, db' => db' = db.disableModule guildId module
  | guildModules guildId, db, r, db' => r = db.modulesOf guildId ∧ db' = db
  | leaveGuild guildId, db, _, db' => db' = db.leaveGuild guildId
  | deleteGuild guildId, db, r, db' =>
    r = (db.guilds.row guildId).isSome ∧ db' = db.deleteGuild guildId
  | guildsEligibleForDeletion, db, r, db' =>
    (r.Nodup ∧ ∀ guildId deletedAt, (guildId, deletedAt) ∈ r ↔
      (db.guilds.row guildId).bind (·.deletedAt) = some deletedAt ∧ deletedAt < db.now - week) ∧ db' = db
  | pluralkit statement, db, r, db' =>
    statement.Answers db.toDatabase r db'.toDatabase ∧ db'.guildModules = db.guildModules

/-! ### The settings of a guild -/

/-- No table has a row for the guild. -/
structure Database.Forgotten (db : Database) (guildId : GuildId) : Prop where
  guilds : db.guilds.row guildId = none
  guildModules : db.guildModules.row guildId = none
  pkGuilds : db.pkGuilds.row guildId = none
  pkFronters : db.pkFronters.row guildId = none
  pkNotifyChannels : db.pkNotifyChannels.row guildId = none
  pkNotifySystems : ∀ system, (guildId, system) ∉ db.pkNotifySystems

/-- Both databases have the same rows for the guild. -/
structure Database.SameSettings (db db' : Database) (guildId : GuildId) : Prop where
  guilds : db.guilds.row guildId = db'.guilds.row guildId
  guildModules : db.guildModules.row guildId = db'.guildModules.row guildId
  pkGuilds : db.pkGuilds.row guildId = db'.pkGuilds.row guildId
  pkFronters : db.pkFronters.row guildId = db'.pkFronters.row guildId
  pkNotifyChannels : db.pkNotifyChannels.row guildId = db'.pkNotifyChannels.row guildId
  pkNotifySystems : ∀ system, (guildId, system) ∈ db.pkNotifySystems ↔ (guildId, system) ∈ db'.pkNotifySystems

theorem Database.deleteGuild_forgets (db : Database) (guildId : GuildId) :
    (db.deleteGuild guildId).Forgotten guildId := by
  refine ⟨?_, ?_, ?_, ?_, ?_, ?_⟩ <;> simp [deleteGuild]

theorem Database.deleteGuild_spares (db : Database) {guildId other : GuildId} (h : other ≠ guildId) :
    (db.deleteGuild guildId).SameSettings db other := by
  refine ⟨?_, ?_, ?_, ?_, ?_, ?_⟩ <;> simp [deleteGuild, h]

end Tulpje.Core
