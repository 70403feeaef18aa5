import Mathlib.Data.Finset.Card
import Mathlib.Data.Int.ConditionallyCompleteOrder
import Mathlib.Order.ConditionallyCompleteLattice.Basic
import Tulpje.Lib.Interference
import Tulpje.Lib.StaleQueue
import Tulpje.Lib.Table
import Tulpje.Twilight.Model

/-!
# The tables of the PluralKit module

The tables of `migrations/*_pk_*.sql` and `guilds`, with the columns that the queries of
`tulpje-mod-pluralkit` look at, and what each query answers and changes. A statement runs at the time `now`
that the clock of the server shows; a result set without `ORDER BY` comes in any order.
-/

namespace Tulpje.Pluralkit

open Twilight Lib

abbrev Error := String

structure Uuid where
  value : BitVec 128
  deriving DecidableEq

/-- The hyphenated form, as the crate prints it. -/
def Uuid.hyphenated (uuid : Uuid) : String :=
  let digits := Nat.toDigits 16 uuid.value.toNat
  let padded := List.replicate (32 - digits.length) '0' ++ digits
  let part := fun start length => String.ofList ((padded.drop start).take length)
  "-".intercalate [part 0 8, part 8 4, part 12 4, part 16 4, part 20 12]

instance : ToString Uuid := ⟨Uuid.hyphenated⟩

instance {m : Marker} : ToString (Id m) := ⟨fun id => toString id.get⟩

/-- Microseconds. -/
abbrev Time := Int

def minute : Time := 60 * 1000000

def hour : Time := 60 * minute

abbrev GuildId := Id .guild
abbrev ChannelId := Id .channel

/-- The columns of `pk_systems` beside its key. -/
structure SystemColumns where
  id : String
  name : Option String
  avatar : Option String
  createdAt : Time
  updatedAt : Time
  deriving DecidableEq

structure ModPkSystem extends SystemColumns where
  uuid : Uuid
  deriving DecidableEq

structure ModPkSystemFronters where
  fronters : List Uuid
  updatedAt : Time
  deriving DecidableEq

structure ModPkGuildRow where
  userId : Id .user
  systemUuid : Uuid
  deriving DecidableEq

structure ModPkFrontersRow where
  guildId : GuildId
  categoryId : ChannelId
  deriving DecidableEq

/-- A row of `guilds`; `leave_guild` sets `deleted_at`. -/
structure GuildRow where
  createdAt : Time
  updatedAt : Time
  deletedAt : Option Time
  deriving DecidableEq

structure Database where
  now : Time
  pkSystems : Table Uuid SystemColumns
  pkSystemFronters : Table Uuid ModPkSystemFronters
  pkGuilds : Table GuildId ModPkGuildRow
  pkFronters : Table GuildId ChannelId
  pkNotifyChannels : Table GuildId ChannelId
  pkNotifySystems : Finset (GuildId × Uuid)
  guilds : Table GuildId GuildRow

namespace Database

variable (db : Database)

/-- `guilds.deleted_at IS NULL` after the join. -/
def present (guildId : GuildId) : Bool := (db.guilds.row guildId).any (·.deletedAt.isNone)

/-- The row of `pk_fronters` that joins a row of `pk_guilds` with this system. -/
def HasCategory (system : Uuid) (row : ModPkFrontersRow) : Prop :=
  db.pkFronters.row row.guildId = some row.categoryId ∧
    (db.pkGuilds.row row.guildId).map (·.systemUuid) = some system

def Follows (guildId : GuildId) (system : Uuid) : Prop := (guildId, system) ∈ db.pkNotifySystems

/-- The second half of the `WHERE` in both `get_systems_to_update`. -/
def tracked (system : Uuid) : Bool :=
  decide (∃ follow ∈ db.pkNotifySystems, follow.2 = system ∧ db.present follow.1 = true) ||
    decide (∃ guildId ∈ db.pkFronters.keys,
      (db.pkGuilds.row guildId).map (·.systemUuid) = some system ∧ db.present guildId = true)

/-- `pk_system_fronters.updated_at` after the left join; `NULL` comes first. -/
def frontersUpdatedAt (system : Uuid) : WithBot Time :=
  (db.pkSystemFronters.row system).map (·.updatedAt)

def systemUpdatedAt (system : Uuid) : WithBot Time := (db.pkSystems.row system).map (·.updatedAt)

def staleFronters : Finset Uuid :=
  db.pkSystems.keys.filter fun system =>
    (db.pkSystemFronters.row system).all (fun row => row.updatedAt ≤ db.now - minute) &&
      db.tracked system

def staleSystems : Finset Uuid :=
  db.pkSystems.keys.filter fun system =>
    (db.pkSystems.row system).any (fun row => row.updatedAt ≤ db.now - 24 * hour) && db.tracked system

def modPkSystem (uuid : Uuid) : Option ModPkSystem := (db.pkSystems.row uuid).map fun columns => ⟨columns, uuid⟩

end Database

/-! ### Statements -/

/-- The queries of `db.rs`, `fronters/db.rs` and `notify/db.rs`. -/
inductive Statement
  | getTrackedSystemCount
  | getSystemCount
  | frontersGetSystemsToUpdate
  | getSystemsToUpdate
  | getSystem (uuid : Uuid)
  | updateSystem (system : ModPkSystem)
  | getGuildSettingsForId (guildId : GuildId)
  | getFronters (system : Uuid)
  | updateFrontersTimestamp (system : Uuid)
  | updateFronters (system : Uuid) (fronters : List Uuid) (updatedAt : Time)
  | getFronterCategoriesForSystem (system : Uuid)
  | getFronterCategory (guildId : GuildId)
  | deleteFronterCategory (categoryId : ChannelId)
  | getNotifyGuildsForSystem (system : Uuid)
  | getNotifyChannel (guildId : GuildId)
  | deleteNotifyChannel (channelId : ChannelId)
  | deleteNotifySystems (guildId : GuildId)
  | removeNotifySystemFromGuilds (system : Uuid) (guilds : List GuildId)

@[reducible] def Statement.Reply : Statement → Type
  | getTrackedSystemCount | getSystemCount => Nat
  | frontersGetSystemsToUpdate | getSystemsToUpdate => List ModPkSystem
  | getSystem _ => Option ModPkSystem
  | getGuildSettingsForId _ => Option ModPkGuildRow
  | getFronters _ => Option ModPkSystemFronters
  | getFronterCategoriesForSystem _ => List ModPkFrontersRow
  | getFronterCategory _ | getNotifyChannel _ => Option ChannelId
  | getNotifyGuildsForSystem _ => List GuildId
  | updateSystem _ | updateFrontersTimestamp _ | updateFronters .. | deleteFronterCategory _
  | deleteNotifyChannel _ | deleteNotifySystems _ | removeNotifySystemFromGuilds .. => Unit

/-- What a statement that succeeds returns, and the tables after it. -/
def Statement.Answers : (q : Statement) → Database → q.Reply → Database → Prop
  | getTrackedSystemCount, db, r, db' =>
    r = (db.pkSystems.keys.filter fun system =>
      (∃ follow ∈ db.pkNotifySystems, follow.2 = system) ∨
        ∃ guildId ∈ db.pkFronters.keys, (db.pkGuilds.row guildId).map (·.systemUuid) = some system).card ∧
      db' = db
  | getSystemCount, db, r, db' => r = db.pkSystems.keys.card ∧ db' = db
  | frontersGetSystemsToUpdate, db, r, db' =>
    (∃ batch, IsBatch 5 db.frontersUpdatedAt db.staleFronters batch ∧ r = batch.filterMap db.modPkSystem) ∧
      db' = db
  | getSystemsToUpdate, db, r, db' =>
    (∃ batch, IsBatch 5 db.systemUpdatedAt db.staleSystems batch ∧ r = batch.filterMap db.modPkSystem) ∧
      db' = db
  | getSystem uuid, db, r, db' => r = db.modPkSystem uuid ∧ db' = db
  | updateSystem system, db, _, db' =>
    db' = { db with
      pkSystems := db.pkSystems.upsert system.uuid
        { system.toSystemColumns with
          createdAt := ((db.pkSystems.row system.uuid).map (·.createdAt)).getD db.now
          updatedAt := db.now } }
  | getGuildSettingsForId guildId, db, r, db' => r = db.pkGuilds.row guildId ∧ db' = db
  | getFronters system, db, r, db' => r = db.pkSystemFronters.row system ∧ db' = db
  | updateFrontersTimestamp system, db, _, db' =>
    let fronters := ((db.pkSystemFronters.row system).map (·.fronters)).getD []
    db' = { db with pkSystemFronters := db.pkSystemFronters.upsert system ⟨fronters, db.now⟩ }
  | updateFronters system fronters updatedAt, db, _, db' =>
    db' = { db with pkSystemFronters := db.pkSystemFronters.upsert system ⟨fronters, updatedAt⟩ }
  | getFronterCategoriesForSystem system, db, r, db' =>
    (r.Nodup ∧ ∀ row, row ∈ r ↔ db.HasCategory system row) ∧ db' = db
  | getFronterCategory guildId, db, r, db' => r = db.pkFronters.row guildId ∧ db' = db
  | deleteFronterCategory categoryId, db, _, db' =>
    db' = { db with pkFronters := db.pkFronters.deleteWhere fun _ category => category == categoryId }
  | getNotifyGuildsForSystem system, db, r, db' =>
    (r.Nodup ∧ ∀ guildId, guildId ∈ r ↔ db.Follows guildId system) ∧ db' = db
  | getNotifyChannel guildId, db, r, db' => r = db.pkNotifyChannels.row guildId ∧ db' = db
  | deleteNotifyChannel channelId, db, _, db' =>
    db' = { db with
      pkNotifyChannels := db.pkNotifyChannels.deleteWhere fun _ channel => channel == channelId }
  | deleteNotifySystems guildId, db, _, db' =>
    db' = { db with pkNotifySystems := db.pkNotifySystems.filter (·.1 ≠ guildId) }
  | removeNotifySystemFromGuilds system guilds, db, _, db' =>
    db' = { db with
      pkNotifySystems := db.pkNotifySystems.filter fun follow => ¬ (follow.2 = system ∧ follow.1 ∈ guilds) }

end Tulpje.Pluralkit
