import Tulpje.Cache.Update

/-!
# What a deleted guild leaves behind

`State.Holds s g t`: the store holds the trace `t` of guild `g`, which is an entry that belongs to `g`, or
a place of `g` or of something of `g` in an index. `delete_guild` empties three of the indexes of a guild
and removes the entries that three other indexes and those of members and presences list; everything else
it leaves. `deleteGuild_leavesNoTrace_iff` says when that is enough.
-/

namespace Tulpje.Cache

open Twilight Lib

/-! ### Traces of a guild -/

inductive Trace
  | guild (guild : CachedGuild)
  | unavailable
  | guildChannel (id : Id .channel)
  | guildRole (id : Id .role)
  | guildEmoji (id : Id .emoji)
  | guildSticker (id : Id .sticker)
  | guildMember (id : Id .user)
  | guildPresence (id : Id .user)
  | guildIntegration (id : Id .integration)
  | guildScheduledEvent (id : Id .scheduledEvent)
  | guildStageInstance (id : Id .stage)
  | voiceStateGuild (id : Id .user)
  | voiceStateChannel (channelId : Id .channel) (userId : Id .user)
  | userGuild (userId : Id .user)
  | channel (id : Id .channel) (channel : CachedChannel)
  | role (id : Id .role) (role : GuildResource CachedRole)
  | emoji (slot : UInt64) (emoji : GuildResource CachedEmoji)
  | sticker (id : Id .sticker) (sticker : GuildResource CachedSticker)
  | member (id : Id .user) (member : CachedMember)
  | presence (id : Id .user) (presence : CachedPresence)
  | integration (id : Id .integration) (integration : GuildResource CachedGuildIntegration)
  | scheduledEvent (id : Id .scheduledEvent) (event : CachedGuildScheduledEvent)
  | stageInstance (id : Id .stage) (stageInstance : GuildResource CachedStageInstance)
  | voiceState (id : Id .user) (voiceState : CachedVoiceState)

/-- Entries of members, presences, integrations and voice states belong to the guild of their key. -/
def State.Holds (s : State) (g : Id .guild) : Trace → Prop
  | .guild guild => s.hashes .guilds g = some guild
  | .unavailable => g ∈ s.sets .unavailableGuilds ()
  | .guildChannel id => id ∈ s.sets .guildChannels g
  | .guildRole id => id ∈ s.sets .guildRoles g
  | .guildEmoji id => id ∈ s.sets .guildEmojis g
  | .guildSticker id => id ∈ s.sets .guildStickers g
  | .guildMember id => id ∈ s.sets .guildMembers g
  | .guildPresence id => id ∈ s.sets .guildPresences g
  | .guildIntegration id => id ∈ s.sets .guildIntegrations g
  | .guildScheduledEvent id => id ∈ s.sets .guildScheduledEvents g
  | .guildStageInstance id => id ∈ s.sets .guildStageInstances g
  | .voiceStateGuild id => id ∈ s.sets .voiceStateGuilds g
  | .voiceStateChannel channelId userId => (g, userId) ∈ s.sets .voiceStateChannels channelId
  | .userGuild userId => g ∈ s.sets .userGuilds userId
  | .channel id channel => s.hashes .channels id = some channel ∧ channel.guildId = some g
  | .role id role => s.hashes .roles id = some role ∧ role.guildId = g
  | .emoji slot emoji => s.hashes .emojis slot = some (.emoji emoji) ∧ emoji.guildId = g
  | .sticker id sticker => s.hashes .stickers id = some sticker ∧ sticker.guildId = g
  | .member id member => s.hashes .members (g, id) = some member
  | .presence id presence => s.hashes .presences (g, id) = some presence
  | .integration id integration => s.hashes .integrations (g, id) = some integration
  | .scheduledEvent id event => s.hashes .scheduledEvents id = some event ∧ event.guildId = g
  | .stageInstance id stage => s.hashes .stageInstances id = some stage ∧ stage.guildId = g
  | .voiceState id voiceState => s.hashes .voiceStates (g, id) = some voiceState

/-- Between `s` and `t` all traces of `g` have gone, and nothing that belongs to another guild changed. -/
structure LeavesNoTrace (s t : State) (g : Id .guild) : Prop where
  gone : ∀ trace, ¬ t.Holds g trace
  others : ∀ g' ≠ g, ∀ trace, t.Holds g' trace ↔ s.Holds g' trace
  messages : t.hashes .messages = s.hashes .messages

/-- The traces that `delete_guild` removes. -/
def Swept (s : State) (g : Id .guild) : Trace → Prop
  | .guild _ | .guildMember _ | .guildPresence _ | .voiceStateGuild _ => True
  | .member id _ => id ∈ s.sets .guildMembers g
  | .presence id _ => id ∈ s.sets .guildPresences g
  | _ => False

/-! ### The store after `delete_guild` -/

/-- The fields that `delete_guild` removes from a hash. -/
def sweptFields (s : State) (g : Id .guild) : (h : HashName) → Finset h.Field
  | .guilds => {g}
  | .channels => s.sets .guildChannels g
  | .emojis => (s.sets .guildEmojis g).image fun id => id.get
  | .roles => s.sets .guildRoles g
  | .stickers => s.sets .guildStickers g
  | .members => (s.sets .guildMembers g).image fun id => (g, id)
  | .presences => (s.sets .guildPresences g).image fun id => (g, id)
  | _ => ∅

/-- The sets that `delete_guild` clears. -/
def clearedSets (g : Id .guild) : (n : SetName) → n.Key → Bool
  | .voiceStateGuilds, key | .guildMembers, key | .guildPresences, key => key = g
  | _, _ => false

def swept (s : State) (g : Id .guild) : State where
  hashes h field := if field ∈ sweptFields s g h then none else s.hashes h field
  sets n key := if clearedSets g n key then ∅ else s.sets n key
  currentUser := s.currentUser

theorem exec_removeIds {n : SetName} {h : HashName} {V : Type} (guildMap : MappedSetRepository n)
    (container : Repository h n.Elem V) (hw : container.wanted = true) (key : n.Key) (s : State) :
    (removeIds guildMap container key).exec eval s =
      (.ok (), s.hdel h ((s.sets n key).image container.field)) := by
  unfold removeIds
  rw [Prog.exec_bind_ok (guildMap.exec_members key s),
    Prog.exec_bind_ok (container.exec_removeMulti hw _ s)]
  rfl

theorem exec_deleteGuild (size : Nat) (g : Id .guild) (s : State) :
    ((new (.all size)).deleteGuild g false).exec eval s = (.ok (), swept s g) := by
  generalize hself : new (.all size) = self
  have hw : ∀ r, self.config.wants r = true := fun r => hself ▸ rfl
  unfold deleteGuild deleteGuildRecord
  simp only [bind_assoc, pure_bind]
  rw [Prog.exec_bind_ok (self.guilds.exec_remove (hw _) g s),
    Prog.exec_bind_ok (exec_removeIds self.guildChannels self.channels (hw _) g _),
    Prog.exec_bind_ok (exec_removeIds self.guildEmojis self.emojis (hw _) g _),
    Prog.exec_bind_ok (exec_removeIds self.guildRoles self.roles (hw _) g _),
    Prog.exec_bind_ok (exec_removeIds self.guildStickers self.stickers (hw _) g _),
    Prog.exec_bind_ok (self.voiceStateGuilds.exec_clear g (hw _) _),
    Prog.exec_bind_ok (self.guildMembers.exec_members g _),
    Prog.exec_bind_ok (self.members.exec_removeMulti (hw _) _ _),
    Prog.exec_bind_ok (self.guildMembers.exec_clear g (hw _) _),
    Prog.exec_bind_ok (self.guildPresences.exec_members g _),
    Prog.exec_bind_ok (self.presences.exec_removeMulti (hw _) _ _),
    Prog.exec_bind_ok (self.guildPresences.exec_clear g (hw _) _)]
  refine Prod.ext rfl (State.ext_names (fun h => ?_) (fun n => ?_) rfl)
  · cases h <;> simp [swept, sweptFields, guilds, channels, emojis, roles, stickers, members,
      presences, Repository.new]
    -- equal up to the instance that decides membership
    all_goals rfl
  · cases n <;> funext key <;> simp [swept, clearedSets, Function.update_apply]

/-! ### The traces that stay -/

@[simp] theorem swept_sets (s : State) (g : Id .guild) (n : SetName) (key : n.Key) :
    (swept s g).sets n key = if clearedSets g n key then ∅ else s.sets n key := rfl

@[simp] theorem swept_hashes (s : State) (g : Id .guild) (h : HashName) (field : h.Field) :
    (swept s g).hashes h field = if field ∈ sweptFields s g h then none else s.hashes h field := rfl

/-- The four indexes whose entries `delete_guild` removes, and which it leaves as they are. -/
structure Unindexed (s : State) (g : Id .guild) : Prop where
  channels : s.sets .guildChannels g = ∅
  emojis : s.sets .guildEmojis g = ∅
  roles : s.sets .guildRoles g = ∅
  stickers : s.sets .guildStickers g = ∅

theorem unindexed_of_gone {s : State} {g : Id .guild} (h : ∀ trace, ¬ (swept s g).Holds g trace) :
    Unindexed s g where
  channels := Finset.eq_empty_of_forall_notMem fun id => h (.guildChannel id)
  emojis := Finset.eq_empty_of_forall_notMem fun id => h (.guildEmoji id)
  roles := Finset.eq_empty_of_forall_notMem fun id => h (.guildRole id)
  stickers := Finset.eq_empty_of_forall_notMem fun id => h (.guildSticker id)

theorem unindexed_of_swept {s : State} {g : Id .guild} (h : ∀ trace, s.Holds g trace → Swept s g trace) :
    Unindexed s g where
  channels := Finset.eq_empty_of_forall_notMem fun id => h (.guildChannel id)
  emojis := Finset.eq_empty_of_forall_notMem fun id => h (.guildEmoji id)
  roles := Finset.eq_empty_of_forall_notMem fun id => h (.guildRole id)
  stickers := Finset.eq_empty_of_forall_notMem fun id => h (.guildSticker id)

theorem Unindexed.holds_self {s : State} {g : Id .guild} (h : Unindexed s g) (trace : Trace) :
    (swept s g).Holds g trace ↔ s.Holds g trace ∧ ¬ Swept s g trace := by
  cases trace with
  | member id member =>
    simp [State.Holds, Swept, sweptFields]
    exact and_comm
  | presence id presence =>
    simp [State.Holds, Swept, sweptFields]
    exact and_comm
  | _ => simp [State.Holds, Swept, sweptFields, clearedSets, h.channels, h.emojis, h.roles, h.stickers]

theorem Unindexed.holds_other {s : State} {g g' : Id .guild} (h : Unindexed s g) (hne : g' ≠ g)
    (trace : Trace) : (swept s g).Holds g' trace ↔ s.Holds g' trace := by
  cases trace <;>
    simp [State.Holds, sweptFields, clearedSets, h.channels, h.emojis, h.roles, h.stickers, hne,
      hne.symm]

/-- `delete_guild(g, false)` leaves no trace of `g` exactly if `g` had only traces of the kinds that it
removes. -/
theorem deleteGuild_leavesNoTrace_iff (size : Nat) (s : State) (g : Id .guild) :
    LeavesNoTrace s (((new (.all size)).deleteGuild g false).exec eval s).2 g ↔
      ∀ trace, s.Holds g trace → Swept s g trace := by
  rw [exec_deleteGuild]
  constructor
  · intro h trace htrace
    by_contra hswept
    exact h.gone trace (((unindexed_of_gone h.gone).holds_self trace).mpr ⟨htrace, hswept⟩)
  · intro h
    have hindex := unindexed_of_swept h
    refine ⟨fun trace htrace => ?_, fun g' hne trace => hindex.holds_other hne trace, rfl⟩
    obtain ⟨hs, hswept⟩ := (hindex.holds_self trace).mp htrace
    exact hswept (h trace hs)

/-- A guild with one channel is created, then deleted: its index still lists the channel. -/
theorem deleteGuild_keeps_guildChannels :
    let g : Id .guild := ⟨1, by decide⟩
    let channel : Channel := ⟨some g, ⟨2, by decide⟩, none, "general"⟩
    let s := (new (.all 100)).applyEvents
      [.guildCreate (.available { Guild.bare g ⟨3, by decide⟩ with channels := [channel] })] .empty
    (new (.all 100)).Reachable s ∧
      ¬ LeavesNoTrace s (((new (.all 100)).deleteGuild g false).exec eval s).2 g := by
  refine ⟨⟨_, rfl⟩, fun h => h.gone (.guildChannel ⟨2, by decide⟩) ?_⟩
  show (⟨2, by decide⟩ : Id .channel) ∈ State.sets _ .guildChannels _
  decide

end Tulpje.Cache
