import Tulpje.Lib.Upsert
import Tulpje.Pluralkit.Notify

/-!
# The settings stores

The saves of `db.rs`, `fronters/db.rs` and `notify/db.rs` with the columns that they insert and those that they
update, and the constraints of the tables. `save_guild_settings` is passed a user that it does not update, so a guild
keeps the user of its first save: `reads_last_iff`.
-/

namespace Tulpje.Pluralkit.Settings

open Lib
open Twilight (Id)

/-! ### Saves -/

structure GuildSettings where
  guildId : GuildId
  userId : Id .user
  systemUuid : Uuid
  deriving DecidableEq

structure NotifyChannel where
  guildId : GuildId
  channelId : ChannelId
  deriving DecidableEq

/-- `ON CONFLICT (guild_id) DO UPDATE SET system_uuid = $3`. -/
def saveGuildSettings : Upsert GuildSettings GuildId ModPkGuildRow where
  key s := s.guildId
  insert s := ⟨s.userId, s.systemUuid⟩
  update s row := { row with systemUuid := s.systemUuid }

/-- `ON CONFLICT (guild_id) DO UPDATE SET category_id = $2`. -/
def saveFronterCategory : Upsert ModPkFrontersRow GuildId ChannelId where
  key s := s.guildId
  insert s := s.categoryId
  update s _ := s.categoryId

/-- `ON CONFLICT (guild_id) DO UPDATE SET channel_id = $2`. -/
def saveNotifyChannel : Upsert NotifyChannel GuildId ChannelId where
  key s := s.guildId
  insert s := s.channelId
  update s _ := s.channelId

/-- `ON CONFLICT (uuid) DO UPDATE SET id = $1, name = $3, avatar = $4, updated_at = NOW()`. -/
def updateSystem : Upsert (Time × ModPkSystem) Uuid SystemColumns where
  key s := s.2.uuid
  insert s := { id := s.2.id, name := s.2.name, avatar := s.2.avatar, createdAt := s.1, updatedAt := s.1 }
  update s row := { row with id := s.2.id, name := s.2.name, avatar := s.2.avatar, updatedAt := s.1 }

/-- It is the statement of the services. -/
theorem updateSystem_answers (system : ModPkSystem) (db db' : Database) :
    (Statement.updateSystem system).Answers db () db' ↔
      db' = { db with pkSystems := updateSystem.save db.pkSystems (db.now, system) } := by
  have hrow : { system.toSystemColumns with
      createdAt := ((db.pkSystems.row system.uuid).map (·.createdAt)).getD db.now
      updatedAt := db.now } = updateSystem.value (db.pkSystems.row system.uuid) (db.now, system) := by
    cases db.pkSystems.row system.uuid <;> rfl
  show db' = _ ↔ _
  rw [hrow]
  rfl

inductive Save
  | saveGuildSettings (settings : GuildSettings)
  | saveFronterCategory (row : ModPkFrontersRow)
  | saveNotifyChannel (channel : NotifyChannel)
  | updateSystem (system : ModPkSystem)

/-- The guild is in `guilds` and the system in `pk_systems`; ids of systems are `VARCHAR(6) UNIQUE`. -/
def Save.Succeeds : Save → Database → Database → Prop
  | saveGuildSettings settings, db, db' =>
    (db.guilds.row settings.guildId).isSome = true ∧ (db.pkSystems.row settings.systemUuid).isSome = true ∧
      db' = { db with pkGuilds := Settings.saveGuildSettings.save db.pkGuilds settings }
  | saveFronterCategory row, db, db' =>
    (db.guilds.row row.guildId).isSome = true ∧
      db' = { db with pkFronters := Settings.saveFronterCategory.save db.pkFronters row }
  | saveNotifyChannel channel, db, db' =>
    (db.guilds.row channel.guildId).isSome = true ∧
      db' = { db with pkNotifyChannels := Settings.saveNotifyChannel.save db.pkNotifyChannels channel }
  | updateSystem system, db, db' =>
    system.id.length ≤ 6 ∧
      (∀ uuid row, uuid ≠ system.uuid → db.pkSystems.row uuid = some row → row.id ≠ system.id) ∧
      db' = { db with pkSystems := Settings.updateSystem.save db.pkSystems (db.now, system) }

/-- Saves that succeed one after the other, each at its time. -/
inductive Run : List (Time × Save) → Database → Database → Prop
  | nil (db : Database) : Run [] db db
  | cons {now : Time} {save : Save} {saves : List (Time × Save)} {db db' t : Database}
      (hsave : save.Succeeds { db with now } db') (hrest : Run saves db' t) : Run ((now, save) :: saves) db t

def guildSettings : Time × Save → Option GuildSettings
  | (_, .saveGuildSettings settings) => some settings
  | _ => none

def fronterCategory : Time × Save → Option ModPkFrontersRow
  | (_, .saveFronterCategory row) => some row
  | _ => none

def notifyChannel : Time × Save → Option NotifyChannel
  | (_, .saveNotifyChannel channel) => some channel
  | _ => none

def system : Time × Save → Option (Time × ModPkSystem)
  | (now, .updateSystem system) => some (now, system)
  | _ => none

/-! ### The four stores -/

/-- What a save leaves in the tables. -/
structure Effect (save : Time × Save) (db db' : Database) : Prop where
  pkGuilds : db'.pkGuilds = (guildSettings save).elim db.pkGuilds (saveGuildSettings.save db.pkGuilds)
  pkFronters : db'.pkFronters = (fronterCategory save).elim db.pkFronters (saveFronterCategory.save db.pkFronters)
  pkNotifyChannels : db'.pkNotifyChannels =
    (notifyChannel save).elim db.pkNotifyChannels (saveNotifyChannel.save db.pkNotifyChannels)
  pkSystems : db'.pkSystems = (system save).elim db.pkSystems (updateSystem.save db.pkSystems)

theorem effect_of_succeeds {now : Time} {save : Save} {db db' : Database}
    (h : save.Succeeds { db with now } db') : Effect (now, save) db db' := by
  cases save with
  | saveGuildSettings =>
    obtain ⟨-, -, rfl⟩ := h
    exact ⟨rfl, rfl, rfl, rfl⟩
  | saveFronterCategory =>
    obtain ⟨-, rfl⟩ := h
    exact ⟨rfl, rfl, rfl, rfl⟩
  | saveNotifyChannel =>
    obtain ⟨-, rfl⟩ := h
    exact ⟨rfl, rfl, rfl, rfl⟩
  | updateSystem =>
    obtain ⟨-, -, rfl⟩ := h
    exact ⟨rfl, rfl, rfl, rfl⟩

section Stores
variable {saves : List (Time × Save)} {db t : Database}

/-- A table that each save changes as `u` does is changed so by a run. -/
theorem Run.store {S K V : Type} [DecidableEq K] {u : Upsert S K V} {store : Time × Save → Option S}
    (table : Database → Table K V) (hstep : ∀ {save db db'}, Effect save db db' →
      table db' = (store save).elim (table db) (u.save (table db))) (h : Run saves db t) :
    table t = (saves.filterMap store).foldl u.save (table db) := by
  induction h with
  | nil => rfl
  | @cons now save saves db db' t hsave _ ih =>
    rw [ih, hstep (effect_of_succeeds hsave), List.filterMap_cons]
    cases store (now, save) <;> rfl

theorem Run.pkGuilds (h : Run saves db t) :
    t.pkGuilds = (saves.filterMap guildSettings).foldl saveGuildSettings.save db.pkGuilds :=
  h.store Database.pkGuilds Effect.pkGuilds

theorem Run.pkFronters (h : Run saves db t) :
    t.pkFronters = (saves.filterMap fronterCategory).foldl saveFronterCategory.save db.pkFronters :=
  h.store Database.pkFronters Effect.pkFronters

theorem Run.pkNotifyChannels (h : Run saves db t) :
    t.pkNotifyChannels = (saves.filterMap notifyChannel).foldl saveNotifyChannel.save db.pkNotifyChannels :=
  h.store Database.pkNotifyChannels Effect.pkNotifyChannels

theorem Run.pkSystems (h : Run saves db t) :
    t.pkSystems = (saves.filterMap system).foldl updateSystem.save db.pkSystems :=
  h.store Database.pkSystems Effect.pkSystems

end Stores

/-- No other system has the id of this one. -/
def OwnId (uuid : Uuid) (db : Database) : Prop :=
  ∀ row uuid' row', db.pkSystems.row uuid = some row → db.pkSystems.row uuid' = some row' → row'.id = row.id →
    uuid' = uuid

/-- A save gives a system an id of its own, and takes none from another one. -/
theorem ownId_of_succeeds {now : Time} {save : Save} {db db' : Database} {uuid : Uuid}
    (h : save.Succeeds { db with now } db')
    (hown : OwnId uuid db ∨ (system (now, save)).any (fun s => s.2.uuid = uuid) = true) : OwnId uuid db' := by
  have htable := (effect_of_succeeds h).pkSystems
  cases save with
  | updateSystem system =>
    obtain ⟨-, hunique, -⟩ := h
    have hrow : ∀ uuid, db'.pkSystems.row uuid =
        if system.uuid = uuid then some (updateSystem.value (db.pkSystems.row uuid) (now, system))
        else db.pkSystems.row uuid := by
      intro uuid
      rw [htable]
      exact Upsert.row_save ..
    have hid : ∀ old, (updateSystem.value old (now, system)).id = system.id := by
      intro old
      cases old <;> rfl
    intro row uuid' row' hr hr' heq
    rw [hrow] at hr hr'
    split_ifs at hr hr' with huuid huuid' huuid'
    · exact huuid'.symm.trans huuid
    · obtain rfl := Option.some.inj hr
      rw [hid] at heq
      exact absurd heq (hunique uuid' row' (Ne.symm huuid') hr')
    · obtain rfl := Option.some.inj hr'
      rw [hid] at heq
      exact absurd heq.symm (hunique uuid row (Ne.symm huuid) hr)
    · rcases hown with hown | hown
      · exact hown row uuid' row' hr hr' heq
      · exact absurd (of_decide_eq_true hown) huuid
  | _ =>
    have hsame : db'.pkSystems = db.pkSystems := htable
    rcases hown with hown | hown
    · intro row uuid' row' hr hr' heq
      rw [hsame] at hr hr'
      exact hown row uuid' row' hr hr' heq
    · cases hown

theorem Run.ownId {saves : List (Time × Save)} {db t : Database} {uuid : Uuid} (h : Run saves db t)
    (hown : OwnId uuid db ∨ ∃ s ∈ saves.filterMap system, s.2.uuid = uuid) : OwnId uuid t := by
  induction h with
  | nil => exact hown.resolve_right (by simp)
  | @cons now save saves db db' t hsave _ ih =>
    apply ih
    rcases hown with hown | ⟨s, hs, huuid⟩
    · exact .inl (ownId_of_succeeds hsave (.inl hown))
    · rw [List.filterMap_cons] at hs
      cases hsystem : system (now, save) with
      | none => exact .inr ⟨s, by simpa [hsystem] using hs, huuid⟩
      | some s' =>
        simp only [hsystem, List.mem_cons] at hs
        rcases hs with rfl | hs
        · exact .inl (ownId_of_succeeds hsave (.inr (by simp [hsystem, huuid])))
        · exact .inr ⟨s, hs, huuid⟩

/-! ### Reading -/

/-- The columns that `update_system` receives. -/
def received (system : ModPkSystem) : Uuid × String × Option String × Option String :=
  (system.uuid, system.id, system.name, system.avatar)

/-- Every key reads as it was saved last, and a key that was not saved reads as before. -/
structure ReadsLast (saves : List (Time × Save)) (db t : Database) : Prop where
  guild : ∀ s, saveGuildSettings.IsLast (saves.filterMap guildSettings) s →
    ∀ r t', (Statement.getGuildSettingsForId s.guildId).Answers t r t' → r = some ⟨s.userId, s.systemUuid⟩
  category : ∀ s, saveFronterCategory.IsLast (saves.filterMap fronterCategory) s →
    ∀ r t', (Statement.getFronterCategory s.guildId).Answers t r t' → r = some s.categoryId
  channel : ∀ s, saveNotifyChannel.IsLast (saves.filterMap notifyChannel) s →
    ∀ r t', (Statement.getNotifyChannel s.guildId).Answers t r t' → r = some s.channelId
  byUuid : ∀ s, updateSystem.IsLast (saves.filterMap system) s →
    ∀ r t', (Statement.getSystem s.2.uuid).Answers t r t' → r.map received = some (received s.2)
  byId : ∀ s, updateSystem.IsLast (saves.filterMap system) s →
    ∀ r t', (NotifyStatement.getSystemById s.2.id).Answers t r t' → r.map received = some (received s.2)
  others : (∀ k, saveGuildSettings.savesFor k (saves.filterMap guildSettings) = [] →
      t.pkGuilds.row k = db.pkGuilds.row k) ∧
    (∀ k, saveFronterCategory.savesFor k (saves.filterMap fronterCategory) = [] →
      t.pkFronters.row k = db.pkFronters.row k) ∧
    (∀ k, saveNotifyChannel.savesFor k (saves.filterMap notifyChannel) = [] →
      t.pkNotifyChannels.row k = db.pkNotifyChannels.row k) ∧
    ∀ k, updateSystem.savesFor k (saves.filterMap system) = [] → t.pkSystems.row k = db.pkSystems.row k

/-- The user of the row of a guild: the one that it has before, or that of the first save. -/
def firstUser (saves : List (Time × Save)) (db : Database) (guildId : GuildId) : Option (Id .user) :=
  ((db.pkGuilds.row guildId).map (·.userId)).or
    ((saveGuildSettings.savesFor guildId (saves.filterMap guildSettings)).head?.map (·.userId))

section Reads
variable {saves : List (Time × Save)} {db t : Database}

/-- The row of the guild after a run. -/
theorem Run.guildRow (h : Run saves db t) {s : GuildSettings}
    (hlast : saveGuildSettings.IsLast (saves.filterMap guildSettings) s) :
    ∃ row, t.pkGuilds.row s.guildId = some row ∧ row.systemUuid = s.systemUuid ∧
      some row.userId = firstUser saves db s.guildId := by
  have huuid := Upsert.column_of_updated (t := db.pkGuilds) (·.systemUuid) (fun _ => rfl) (fun _ _ => rfl) hlast
  rw [← h.pkGuilds] at huuid
  have huser : (t.pkGuilds.row s.guildId).map (·.userId) = firstUser saves db s.guildId := by
    rw [h.pkGuilds]
    exact Upsert.column_of_kept ModPkGuildRow.userId (fun _ => rfl) fun _ _ => rfl
  obtain ⟨row, hrow, hsystem⟩ := Option.map_eq_some_iff.mp huuid
  have hthere : t.pkGuilds.row s.guildId = some row := hrow
  rw [hthere] at huser
  exact ⟨row, hthere, hsystem, huser⟩

/-- The row of the system after a run. -/
theorem Run.systemRow (h : Run saves db t) {s : Time × ModPkSystem}
    (hlast : updateSystem.IsLast (saves.filterMap system) s) :
    ∃ row, t.pkSystems.row s.2.uuid = some row ∧ received ⟨row, s.2.uuid⟩ = received s.2 ∧
      OwnId s.2.uuid t := by
  have hcolumns := Upsert.column_of_updated (t := db.pkSystems) (fun row => (row.id, row.name, row.avatar))
    (fun _ => rfl) (fun _ _ => rfl) hlast
  rw [← h.pkSystems] at hcolumns
  obtain ⟨row, hrow, hsame⟩ := Option.map_eq_some_iff.mp hcolumns
  have hmem : s ∈ saves.filterMap system := (List.mem_filter.mp (List.mem_of_getLast? hlast)).1
  exact ⟨row, hrow, congrArg (Prod.mk s.2.uuid) hsame, h.ownId (.inr ⟨s, hmem, rfl⟩)⟩

theorem Run.channelRow (h : Run saves db t) {s : NotifyChannel}
    (hlast : saveNotifyChannel.IsLast (saves.filterMap notifyChannel) s) :
    t.pkNotifyChannels.row s.guildId = some s.channelId := by
  have hcolumn := Upsert.column_of_updated (t := db.pkNotifyChannels) id (fun _ => rfl) (fun _ _ => rfl) hlast
  rwa [← h.pkNotifyChannels, Option.map_id] at hcolumn

theorem Run.categoryRow (h : Run saves db t) {s : ModPkFrontersRow}
    (hlast : saveFronterCategory.IsLast (saves.filterMap fronterCategory) s) :
    t.pkFronters.row s.guildId = some s.categoryId := by
  have hcolumn := Upsert.column_of_updated (t := db.pkFronters) id (fun _ => rfl) (fun _ _ => rfl) hlast
  rwa [← h.pkFronters, Option.map_id] at hcolumn

/-- Reading gives what was saved last exactly where a guild is saved last with the user that its row was created
with. -/
theorem reads_last_iff (hrun : Run saves db t) :
    ReadsLast saves db t ↔ ∀ s, saveGuildSettings.IsLast (saves.filterMap guildSettings) s →
      firstUser saves db s.guildId = some s.userId := by
  constructor
  · intro h s hlast
    obtain ⟨row, hrow, -, huser⟩ := hrun.guildRow hlast
    have hread := h.guild s hlast _ t ⟨rfl, rfl⟩
    rw [hrow] at hread
    rw [← huser, Option.some.inj hread]
  · intro h
    constructor
    · rintro s hlast r t' ⟨rfl, -⟩
      obtain ⟨row, hrow, huuid, huser⟩ := hrun.guildRow hlast
      rw [h s hlast] at huser
      rw [hrow, ← huuid, ← Option.some.inj huser]
    · rintro s hlast r t' ⟨rfl, -⟩
      exact hrun.categoryRow hlast
    · rintro s hlast r t' ⟨rfl, -⟩
      exact hrun.channelRow hlast
    · rintro s hlast r t' ⟨rfl, -⟩
      obtain ⟨row, hrow, hreceived, -⟩ := hrun.systemRow hlast
      rw [Database.modPkSystem, hrow]
      exact congrArg some hreceived
    · rintro s hlast r t' ⟨hread, -⟩
      obtain ⟨row, hrow, hreceived, hown⟩ := hrun.systemRow hlast
      have hid : row.id = s.2.id := congrArg (·.2.1) hreceived
      cases r with
      | none => exact absurd hid (hread s.2.uuid row hrow)
      | some found =>
        obtain ⟨columns, uuid⟩ := found
        obtain ⟨hfound, hfoundId⟩ := hread
        obtain ⟨row', hrow', heq⟩ := Option.map_eq_some_iff.mp hfound
        obtain rfl : row' = columns := congrArg ModPkSystem.toSystemColumns heq
        obtain rfl : uuid = s.2.uuid := hown row uuid row' hrow hrow' (hfoundId.trans hid.symm)
        obtain rfl : row' = row := Option.some.inj (hrow'.symm.trans hrow)
        exact congrArg some hreceived
    · refine ⟨fun k hk => ?_, fun k hk => ?_, fun k hk => ?_, fun k hk => ?_⟩
      · rw [hrun.pkGuilds, Upsert.row_run_of_unsaved _ hk]
      · rw [hrun.pkFronters, Upsert.row_run_of_unsaved _ hk]
      · rw [hrun.pkNotifyChannels, Upsert.row_run_of_unsaved _ hk]
      · rw [hrun.pkSystems, Upsert.row_run_of_unsaved _ hk]

end Reads

def settingsGuild : GuildId := ⟨221, by decide⟩

def firstAdmin : Id .user := ⟨222, by decide⟩

def secondAdmin : Id .user := ⟨223, by decide⟩

def storedSystem : ModPkSystem := ⟨⟨"abcde", none, none, 0, 0⟩, ⟨21⟩⟩

def storedTwin : ModPkSystem := ⟨⟨"fghij", some "Twin", none, 0, 0⟩, ⟨22⟩⟩

/-- A guild that has not been set up, and a system that another one has been set up for. -/
def beforeSetup : Database where
  now := 0
  pkSystems := Table.empty.upsert storedSystem.uuid storedSystem.toSystemColumns
  pkSystemFronters := Table.empty
  pkGuilds := Table.empty
  pkFronters := Table.empty
  pkNotifyChannels := Table.empty
  pkNotifySystems := ∅
  guilds := Table.empty.upsert settingsGuild ⟨0, 0, none⟩

/-- The user sets the guild up and does so again with another system. -/
def oneAdmin : List (Time × Save) :=
  [(1, .saveGuildSettings ⟨settingsGuild, firstAdmin, storedSystem.uuid⟩), (2, .updateSystem storedTwin),
    (3, .saveGuildSettings ⟨settingsGuild, firstAdmin, storedTwin.uuid⟩)]

theorem reads_last_of_one_admin : ∃ t, Run oneAdmin beforeSetup t ∧ ReadsLast oneAdmin beforeSetup t := by
  have hunique : ∀ uuid row, uuid ≠ storedTwin.uuid → beforeSetup.pkSystems.row uuid = some row →
      row.id ≠ storedTwin.id := by
    intro uuid row _ hrow
    by_cases huuid : uuid = storedSystem.uuid
    · subst huuid
      rw [beforeSetup, Table.row_upsert_self] at hrow
      obtain rfl := Option.some.inj hrow
      decide
    · rw [beforeSetup, Table.row_upsert_of_ne _ huuid] at hrow
      cases hrow
  have hrun : Run oneAdmin beforeSetup _ :=
    .cons ⟨by decide, by decide, rfl⟩ (.cons ⟨by decide, hunique, rfl⟩ (.cons ⟨by decide, by decide, rfl⟩ (.nil _)))
  refine ⟨_, hrun, (reads_last_iff hrun).mpr fun s hlast => ?_⟩
  have hmem : s ∈ [(⟨settingsGuild, firstAdmin, storedSystem.uuid⟩ : GuildSettings),
      ⟨settingsGuild, firstAdmin, storedTwin.uuid⟩] := (List.mem_filter.mp (List.mem_of_getLast? hlast)).1
  simp only [List.mem_cons, List.not_mem_nil, or_false] at hmem
  rcases hmem with rfl | rfl
  · decide
  · decide

/-- Another user sets the guild up again. -/
def twoAdmins : List (Time × Save) :=
  [(1, .saveGuildSettings ⟨settingsGuild, firstAdmin, storedSystem.uuid⟩),
    (2, .saveGuildSettings ⟨settingsGuild, secondAdmin, storedSystem.uuid⟩)]

/-- The row keeps the user of the first save. -/
theorem second_admin_lost : ∃ t, Run twoAdmins beforeSetup t ∧ ¬ReadsLast twoAdmins beforeSetup t := by
  have hrun : Run twoAdmins beforeSetup _ :=
    .cons ⟨by decide, by decide, rfl⟩ (.cons ⟨by decide, by decide, rfl⟩ (.nil _))
  refine ⟨_, hrun, fun h => ?_⟩
  have hread := h.guild ⟨settingsGuild, secondAdmin, storedSystem.uuid⟩ rfl _ _ ⟨rfl, rfl⟩
  revert hread
  decide

end Tulpje.Pluralkit.Settings
