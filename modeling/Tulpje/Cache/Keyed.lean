import Tulpje.Cache.Messages

/-!
# Records under their own ids

Some updates read a record and write it back under the id in it. That is where they read it, because guilds, channels
and messages are stored under their own ids (`Reachable.keyed`).
-/

namespace Tulpje.Cache

open Twilight Lib

/-! ### Entries under their own keys -/

def StoredUnder (h : HashName) (key : h.Entry → h.Field) (s : State) : Prop :=
  ∀ field entry, s.hashes h field = some entry → key entry = field

section Stored
variable {h : HashName} {key : h.Entry → h.Field} {s : State}

theorem storedUnder_dependsOn : DependsOn [.hash h] (StoredUnder h key) := by
  intro s t heq hs
  have hhash : t.hashes h = s.hashes h := heq (.hash h) List.mem_cons_self
  unfold StoredUnder
  rwa [hhash]

theorem StoredUnder.hset (hs : StoredUnder h key s) {field : h.Field} {entry : h.Entry} (hkey : key entry = field) :
    StoredUnder h key (s.hset h field entry) := by
  intro field' entry' hentry
  rw [State.hset_self] at hentry
  by_cases hfield : field' = field
  · rw [hfield, Function.update_self] at hentry
    rw [hfield, ← Option.some.inj hentry, hkey]
  · rw [Function.update_of_ne hfield] at hentry
    exact hs field' entry' hentry

theorem StoredUnder.hdel (hs : StoredUnder h key s) (fields : Finset h.Field) :
    StoredUnder h key (s.hdel h fields) := by
  intro field entry hentry
  rw [State.hdel_self] at hentry
  exact hs field entry (Option.ite_none_left_eq_some.mp hentry).2

theorem storedUnder_empty : StoredUnder h key .empty := nofun

end Stored

/-! ### Events that delete guilds -/

section Deleting
variable {h : HashName} {key : h.Entry → h.Field} {self : Cache}
  (hdelete : ∀ guildId unavailable, Prog.Keeps eval (StoredUnder h key) (self.deleteGuild guildId unavailable))
include hdelete

theorem keeps_storedUnder_unavailableGuild (guildId : Id .guild) :
    Prog.Keeps eval (StoredUnder h key) (self.unavailableGuild guildId) := by
  have htouches : Touches [.set .unavailableGuilds] False (self.unavailableGuilds.insert guildId) :=
    SetRepository.touches_insert List.mem_cons_self _
  exact (htouches.keeps storedUnder_dependsOn (by simp)).bind fun _ => hdelete guildId true

theorem keeps_storedUnder_ready (ready : Ready) : Prog.Keeps eval (StoredUnder h key) (self.ready ready) := by
  have htouches : Touches [.currentUser] False (self.cacheCurrentUser ready.user) :=
    touches_cacheCurrentUser ready.user
  refine (htouches.keeps storedUnder_dependsOn (by simp)).bind fun _ => ?_
  exact Prog.Keeps.forM fun guild _ => keeps_storedUnder_unavailableGuild hdelete guild.id

end Deleting

/-! ### Guilds -/

section Guilds
variable {self : Cache}

theorem keeps_guilds_deleteGuild (guildId : Id .guild) (unavailable : Bool) :
    Prog.Keeps eval (StoredUnder .guilds (·.id)) (self.deleteGuild guildId unavailable) := by
  rw [deleteGuild_eq]
  refine Prog.Keeps.bind ?_ fun _ => ?_
  · cases unavailable with
    | true => exact keeps_modify fun s guild hs hguild => hs.hset (hs guildId guild hguild)
    | false => exact (keeps_remove fun s hs => hs.hdel _).bind fun _ => Prog.Keeps.pure _
  · have htouches : Touches contentAreas False (self.deleteGuildContents guildId) := touches_deleteGuildContents guildId
    exact htouches.keeps storedUnder_dependsOn (by decide)

theorem keeps_guilds_changeMemberCount (guildId : Id .guild) (change : UInt64 → UInt64) :
    Prog.Keeps eval (StoredUnder .guilds (·.id)) (self.changeMemberCount guildId change) :=
  keeps_modify fun _ _ hs _ => hs.hset rfl

theorem keeps_guilds (event : Event) : Prog.Keeps eval (StoredUnder .guilds (·.id)) (self.update event) := by
  have husers : ∀ a ∈ [Area.hash .guilds], a ∉ memberAreas self.usersName.areas := by
    cases self.usersName <;> decide
  cases event with
  | guildCreate guild =>
    cases guild with
    | available guild =>
      refine keeps_cacheGuild fun step => ?_
      cases step with
      | record => exact (keeps_insert fun s hs => hs.hset rfl).bind fun _ => Prog.Keeps.pure _
      | _ => exact (GuildStep.touches _).keeps storedUnder_dependsOn (by decide)
    | unavailable guild => exact keeps_storedUnder_unavailableGuild keeps_guilds_deleteGuild guild.id
  | unavailableGuild guild => exact keeps_storedUnder_unavailableGuild keeps_guilds_deleteGuild guild.id
  | guildDelete guild => exact keeps_guilds_deleteGuild guild.id false
  | guildUpdate guild => exact keeps_modify fun _ _ hs _ => hs.hset rfl
  | memberAdd guildId member =>
    refine (keeps_guilds_changeMemberCount guildId _).bind fun _ => ?_
    exact (touches_cacheMember_own guildId member).keeps storedUnder_dependsOn husers
  | memberRemove guildId user =>
    have htouches : Touches (memberAreas self.usersName.areas) False (self.forgetMember guildId user.id) :=
      touches_forgetMember guildId user.id
    rw [update, memberRemove_eq]
    exact (keeps_guilds_changeMemberCount guildId _).bind fun _ => htouches.keeps storedUnder_dependsOn husers
  | ready ready => exact keeps_storedUnder_ready keeps_guilds_deleteGuild ready
  | _ =>
    refine keeps_update_of_areas storedUnder_dependsOn ?_
    simp only [Event.areas]
    cases self.usersName <;> decide

end Guilds

/-! ### Channels -/

section Channels
variable {self : Cache}

theorem keeps_channels_cacheChannel (channel : Channel) :
    Prog.Keeps eval (StoredUnder .channels (·.id)) (self.cacheChannel channel) := by
  refine (keeps_forM fun guildId _ => ?_).bind fun _ => ?_
  · have htouches : Touches [.set .guildChannels] False (self.guildChannels.insert guildId channel.id) :=
      MappedSetRepository.touches_insert _ List.mem_cons_self _
    exact (htouches.keeps storedUnder_dependsOn (by decide)).bind fun _ => Prog.Keeps.pure _
  · exact (keeps_insert fun s hs => hs.hset rfl).bind fun _ => Prog.Keeps.pure _

theorem keeps_channels_deleteChannel (channelId : Id .channel) :
    Prog.Keeps eval (StoredUnder .channels (·.id)) (self.deleteChannel channelId) := by
  refine (keeps_get _).bind fun channel => (keeps_forM fun channel _ => keeps_forM fun guildId _ => ?_).bind fun _ => ?_
  · have htouches : Touches [.set .guildChannels] False (self.guildChannels.remove guildId channel.id) :=
      MappedSetRepository.touches_remove _ List.mem_cons_self _
    exact (htouches.keeps storedUnder_dependsOn (by decide)).bind fun _ => Prog.Keeps.pure _
  · exact (keeps_remove fun s hs => hs.hdel _).bind fun _ => Prog.Keeps.pure _

def Op.isHset : Op → Bool
  | hset .. => true
  | _ => false

theorem StoredUnder.eval {h : HashName} {key : h.Entry → h.Field} {s : State} (hs : StoredUnder h key s) {o : Op}
    (ho : o.isHset = false) : StoredUnder h key (eval o s).2 := by
  cases o with
  | hset h' field value => cases ho
  | hdel h' fields =>
    by_cases hh : h = h'
    · subst hh
      exact hs.hdel fields
    · intro field entry hentry
      exact hs field entry ((congrFun (State.hdel_of_ne s fields hh) field).symm.trans hentry)
  | _ => exact hs

theorem all_removeIds {n : SetName} {h : HashName} {V : Type} (index : MappedSetRepository n)
    (repository : Repository h n.Elem V) (key : n.Key) :
    (removeIds index repository key).All (·.isHset = false) fun _ => True := by
  refine Prog.All.bind (SetRepository.all_members rfl) fun _ => ?_
  exact Prog.All.bind (Repository.all_removeMulti rfl) fun _ => Prog.All.pure _

/-- Behind the record of the guild, `delete_guild` only deletes. -/
theorem all_deleteGuildContents (guildId : Id .guild) :
    (self.deleteGuildContents guildId).All (·.isHset = false) fun _ => True := by
  refine (all_removeIds self.guildChannels self.channels guildId).bind fun _ => ?_
  refine (all_removeIds self.guildEmojis self.emojis guildId).bind fun _ => ?_
  refine (all_removeIds self.guildRoles self.roles guildId).bind fun _ => ?_
  refine (all_removeIds self.guildStickers self.stickers guildId).bind fun _ => ?_
  refine Prog.All.bind (SetRepository.all_clear rfl) fun _ => ?_
  refine Prog.All.bind (SetRepository.all_members rfl) fun _ => ?_
  refine Prog.All.bind (Repository.all_removeMulti rfl) fun _ => ?_
  refine Prog.All.bind (SetRepository.all_clear rfl) fun _ => ?_
  refine Prog.All.bind (SetRepository.all_members rfl) fun _ => ?_
  refine Prog.All.bind (Repository.all_removeMulti rfl) fun _ => ?_
  exact Prog.All.bind (SetRepository.all_clear rfl) fun _ => Prog.All.pure _

theorem keeps_channels_deleteGuild (guildId : Id .guild) (unavailable : Bool) :
    Prog.Keeps eval (StoredUnder .channels (·.id)) (self.deleteGuild guildId unavailable) := by
  have hrecord : Touches [.hash .guilds] False (self.deleteGuildRecord guildId unavailable) :=
    touches_deleteGuildRecord guildId unavailable
  rw [deleteGuild_eq]
  refine (hrecord.keeps storedUnder_dependsOn (by decide)).bind fun _ => ?_
  exact Prog.Keeps.of_all (all_deleteGuildContents guildId) fun _ ho _ hs => hs.eval ho

theorem keeps_channels (event : Event) : Prog.Keeps eval (StoredUnder .channels (·.id)) (self.update event) := by
  cases event with
  | channelCreate channel | channelUpdate channel | threadCreate channel | threadUpdate channel =>
    exact keeps_channels_cacheChannel channel
  | channelDelete channel => exact keeps_channels_deleteChannel channel.id
  | threadDelete id => exact keeps_channels_deleteChannel id
  | threadListSync threads => exact Prog.Keeps.forM fun thread _ => keeps_channels_cacheChannel thread
  | channelPinsUpdate channelId timestamp => exact keeps_modify fun _ _ hs _ => hs.hset rfl
  | guildCreate guild =>
    cases guild with
    | available guild =>
      refine keeps_cacheGuild fun step => ?_
      cases step with
      | channels | threads => exact Prog.Keeps.forM fun channel _ => keeps_channels_cacheChannel channel
      | _ => exact (GuildStep.touches _).keeps storedUnder_dependsOn (by decide)
    | unavailable guild => exact keeps_storedUnder_unavailableGuild keeps_channels_deleteGuild guild.id
  | unavailableGuild guild => exact keeps_storedUnder_unavailableGuild keeps_channels_deleteGuild guild.id
  | guildDelete guild => exact keeps_channels_deleteGuild guild.id false
  | ready ready => exact keeps_storedUnder_ready keeps_channels_deleteGuild ready
  | _ =>
    refine keeps_update_of_areas storedUnder_dependsOn ?_
    simp only [Event.areas]
    cases self.usersName <;> decide

end Channels

/-- Guilds, channels and messages are stored under their ids. -/
structure State.Keyed (s : State) : Prop where
  guilds : StoredUnder .guilds (·.id) s
  channels : StoredUnder .channels (·.id) s
  messages : StoredUnder .messages (·.id) s

theorem keyed_update {self : Cache} {s : State} (hs : s.Keyed) (event : Event) :
    ((self.update event).exec eval s).2.Keyed where
  guilds := (keeps_guilds event).exec hs.guilds
  channels := (keeps_channels event).exec hs.channels
  messages := by
    have hkeeps : Prog.Keeps eval (StoredMessages fun id message => message.id = id) (self.update event) :=
      keeps_storedMessages (fun _ _ h => h) (fun _ _ _ h => h) fun _ _ _ => rfl
    exact hkeeps.exec hs.messages

theorem Reachable.keyed {self : Cache} {s : State} (hs : self.Reachable s) : s.Keyed := by
  obtain ⟨events, rfl⟩ := hs
  refine applyEvents_keeps (fun event _ => Prog.Keeps.of_exec fun s hs => keyed_update hs event) ?_
  exact ⟨storedUnder_empty, storedUnder_empty, storedUnder_empty⟩

end Tulpje.Cache
