import Tulpje.Cache.Members
import Tulpje.Lib.Placed

/-!
# The indexes of the guilds

Each family of resources has a store and for each guild an index. As long as an id belongs to one guild for
good, the guild is the place of the id, and `Lib.Placing.Agrees` relates the two sides of a family. The events
that carry single entities keep it: they write and remove on both sides, in either order, and what they skip
because it has not changed is on both sides already.
-/

namespace Tulpje.Cache

open Twilight Lib

def FamilyAgrees (h : HashName) (n : SetName) (p : Placing h.Field n.Key n.Elem)
    (ok : h.Field → h.Entry → Prop) (s : State) : Prop := p.Agrees ok (s.sets n) (s.hashes h)

section Programs
variable {h : HashName} {n : SetName} {p : Placing h.Field n.Key n.Elem} {ok : h.Field → h.Entry → Prop}

theorem familyAgrees_empty : FamilyAgrees h n p ok .empty := Placing.agrees_empty

theorem familyAgrees_dependsOn : DependsOn [.hash h, .set n] (FamilyAgrees h n p ok) :=
  dependsOn_family (p.Agrees ok)

theorem FamilyAgrees.mem_iff {s : State} (hs : FamilyAgrees h n p ok s) {owner : h.Entry → n.Key}
    (hok : ∀ f v, ok f v → p.Owned (fun v => some (owner v)) f v) (g : n.Key) (e : n.Elem) :
    e ∈ s.sets n g ↔ ∃ v, s.hashes h (p.field g e) = some v ∧ owner v = g := by
  rw [Placing.Agrees.mem_iff hs hok g e]
  simp only [Option.some.injEq]

variable {K V : Type} {repository : Repository h K V} {index : MappedSetRepository n} {g : n.Key}
  {e : n.Elem} {key : K} {value : V}

/-- An entry is stored that has no place. -/
theorem keeps_store (hplace : p.place (repository.field key) = none)
    (hok : ok (repository.field key) (repository.encode value)) :
    Prog.Keeps eval (FamilyAgrees h n p ok) (repository.insert key value) := by
  refine keeps_insert fun s hs => ?_
  unfold FamilyAgrees
  rw [State.hset_sets, State.hset_self]
  exact Placing.Agrees.put_unlisted hs hplace hok

variable (hw : repository.wanted = true) (hi : index.wanted = true)
include hw hi

theorem keeps_listAndStore (hplace : p.place (repository.field key) = some (g, e))
    (hok : ok (repository.field key) (repository.encode value)) :
    Prog.Keeps eval (FamilyAgrees h n p ok) (do
      let _ ← index.insert g e
      let _ ← repository.insert key value
      pure ()) := by
  intro s hs
  refine Prog.wp_bind.mpr ((index.wp_insert g hi e).mpr ?_)
  refine Prog.wp_bind.mpr ((Prog.wp_of_exec (repository.exec_insert hw key value _)).mpr ?_)
  rw [Prog.wp_pure, FamilyAgrees, State.hset_sets, State.hset_self, State.sadd_self, State.sadd_hashes]
  exact Placing.Agrees.put hs hplace hok

theorem keeps_storeAndList (hplace : p.place (repository.field key) = some (g, e))
    (hok : ok (repository.field key) (repository.encode value)) :
    Prog.Keeps eval (FamilyAgrees h n p ok) (do
      let _ ← repository.insert key value
      let _ ← index.insert g e
      pure ()) := by
  intro s hs
  refine Prog.wp_bind.mpr ((Prog.wp_of_exec (repository.exec_insert hw key value s)).mpr ?_)
  refine Prog.wp_bind.mpr ((index.wp_insert g hi e).mpr ?_)
  rw [Prog.wp_pure, FamilyAgrees, State.sadd_self, State.sadd_hashes, State.hset_sets, State.hset_self]
  exact Placing.Agrees.put hs hplace hok

theorem keeps_removeAndUnlist (hplace : p.place (repository.field key) = some (g, e)) :
    Prog.Keeps eval (FamilyAgrees h n p ok) (do
      let _ ← repository.remove key
      let _ ← index.remove g e
      pure ()) := by
  intro s hs
  have hfield : p.field g e = repository.field key := p.field_of_place hplace
  have hremoved := Placing.Agrees.remove hs g {e} (by simpa [hfield] using hplace)
  rw [Finset.image_singleton, hfield] at hremoved
  refine Prog.wp_bind.mpr ((Prog.wp_of_exec (repository.exec_remove hw key s)).mpr ?_)
  refine Prog.wp_bind.mpr ((index.wp_remove g hi e).mpr ?_)
  rw [Prog.wp_pure, FamilyAgrees, State.srem_self, State.srem_hashes, State.hdel_sets, State.hdel_self]
  exact hremoved

omit hw hi

/-- A stored entry is read and written back changed. -/
theorem keeps_rewrite {wanted : Bool} {field : h.Field} {field' : h.Entry → h.Field}
    {change : h.Entry → h.Entry} (hfield : ∀ v, ok field v → field' v = field)
    (hok : ∀ v, ok field v → ok field (change v)) : Prog.Keeps eval (FamilyAgrees h n p ok) (do
      let entry ← (Repository.new h wanted).get field
      entry.forM fun entry => do
        let _ ← (Repository.new h wanted).insert (field' entry) (change entry)
        pure ()) := by
  refine keeps_modify fun s entry hs hentry => ?_
  have hentryOk : ok field entry := hs.stored hentry
  unfold FamilyAgrees
  rw [State.hset_sets, State.hset_self, hfield entry hentryOk]
  exact Placing.Agrees.rewrite hs hentry (hok entry hentryOk)

/-- What the index lists and the payload does not is removed from both sides. -/
theorem keeps_removeStale {repository : Repository h n.Elem V} (hw : repository.wanted = true)
    (hi : index.wanted = true) (hfield : repository.field = p.field g) (incoming : List n.Elem) :
    Prog.Keeps eval (FamilyAgrees h n p ok) (removeStale repository index g incoming) := by
  intro s hs
  refine (Prog.wp_of_exec (exec_removeStale repository index hw hi g incoming s)).mpr ?_
  rw [FamilyAgrees, State.hdel_sets, State.hdel_self, State.srem_self, State.srem_hashes, hfield]
  refine Placing.Agrees.remove hs g _ fun e he => ?_
  -- what is removed is listed, so its field has this place
  obtain ⟨f, hplace, -⟩ := (hs.listed g e).mp (Finset.mem_filter.mp he).1
  rwa [p.field_of_place hplace]

end Programs

/-! ### The guilds of the ids -/

/-- What an id identifies; threads are channels. -/
inductive Entity
  | channel (id : Id .channel)
  | role (id : Id .role)
  | emoji (id : Id .emoji)
  | sticker (id : Id .sticker)
  | stageInstance (id : Id .stage)
  | scheduledEvent (id : Id .scheduledEvent)
  deriving DecidableEq

def Interaction.resolvedRoles (interaction : Interaction) : List Role :=
  match interaction.data with
  | some (.applicationCommand data) => (data.resolved.map fun resolved => resolved.roles.map (·.2)).getD []
  | _ => []

/-- The ids that an event carries, each with its guild. A deletion that looks the guild up carries none. -/
def Event.placements : Event → List (Entity × Option (Id .guild))
  | .channelCreate channel | .channelUpdate channel | .threadCreate channel | .threadUpdate channel =>
    [(.channel channel.id, channel.guildId)]
  | .threadListSync threads => threads.map fun thread => (.channel thread.id, thread.guildId)
  | .roleCreate guildId role | .roleUpdate guildId role => [(.role role.id, some guildId)]
  | .roleDelete guildId roleId => [(.role roleId, some guildId)]
  | .interactionCreate interaction =>
    interaction.guildId.toList.flatMap fun guildId =>
      (Interaction.resolvedRoles interaction).map fun role => (.role role.id, some guildId)
  | .guildEmojisUpdate guildId emojis => emojis.map fun emoji => (.emoji emoji.id, some guildId)
  | .guildStickersUpdate guildId stickers => stickers.map fun sticker => (.sticker sticker.id, some guildId)
  | .stageInstanceCreate stageInstance | .stageInstanceUpdate stageInstance
  | .stageInstanceDelete stageInstance =>
    [(.stageInstance stageInstance.id, some stageInstance.guildId)]
  | .guildScheduledEventCreate event | .guildScheduledEventUpdate event
  | .guildScheduledEventDelete event => [(.scheduledEvent event.id, some event.guildId)]
  | _ => []

/-- Everything but `Ready`, `GuildCreate`, `GuildDelete` and `UnavailableGuild`. -/
def IsEntityEvent : Event → Prop
  | .ready _ | .guildCreate _ | .guildDelete _ | .unavailableGuild _ => False
  | _ => True

/-- Each id has one and the same guild wherever the events carry it, or always none. -/
def OneGuild (events : List Event) : Prop :=
  ∀ m ∈ events.flatMap Event.placements, ∀ m' ∈ events.flatMap Event.placements, m.1 = m'.1 → m.2 = m'.2

/-- The event places ids as `home` says. -/
def Respects (home : Entity → Option (Id .guild)) (event : Event) : Prop :=
  ∀ m ∈ Event.placements event, home m.1 = m.2

theorem OneGuild.exists_home {events : List Event} (h : OneGuild events) :
    ∃ home, ∀ event ∈ events, Respects home event := by
  let carried := {m // m ∈ events.flatMap Event.placements}
  have hfactors : Function.FactorsThrough (fun m : carried => m.1.2) fun m : carried => m.1.1 :=
    fun m m' heq => h m.1 m.2 m'.1 m'.2 heq
  refine ⟨Function.extend (fun m : carried => m.1.1) (fun m : carried => m.1.2) fun _ => none, ?_⟩
  intro event hevent m hm
  exact hfactors.extend_apply (fun _ => none) ⟨m, List.mem_flatMap.mpr ⟨event, hevent, hm⟩⟩

/-- A field that is the id. -/
def idNaming (m : Marker) : Naming (Id m) (Id m) where
  field := id
  elem := some
  elem_field _ := rfl
  field_elem h := (Option.some.inj h).symm

/-- A field that is the bare number of the id. -/
def slotNaming (m : Marker) : Naming (Id m) UInt64 where
  field id := id.get
  elem slot := if h : slot ≠ 0 then some ⟨slot, h⟩ else none
  elem_field id := dif_pos id.ne_zero
  field_elem {slot id} h := by
    split_ifs at h
    cases h
    rfl

/-! ### What is kept -/

section Families
variable {size : Nat} {home : Entity → Option (Id .guild)} {event : Event}

/-- An event that touches neither side of a family. -/
theorem keeps_update_off {config : Config} {areas : List Area} {I : State → Prop} (hI : DependsOn areas I)
    (h : ∀ a ∈ areas, a ∉ Event.areas [.hash .users, .set .userGuilds] event) :
    Prog.Keeps eval I ((withOwnUsers config).update event) := keeps_update_of_areas hI h

theorem touches_cacheUser_users {config : Config} (user : CachedUser) (guildId : Option (Id .guild)) :
    Touches [.hash .users, .set .userGuilds] True ((withOwnUsers config).cacheUser user guildId) :=
  touches_cacheUser_own user guildId

/-! Roles. -/

def rolePlacing (home : Entity → Option (Id .guild)) : Placing (Id .role) (Id .guild) (Id .role) :=
  .ofHome (idNaming .role) fun id => home (.role id)

def RolesAgree (home : Entity → Option (Id .guild)) : State → Prop :=
  FamilyAgrees .roles .guildRoles (rolePlacing home) ((rolePlacing home).Owned fun role => some role.guildId)

theorem keeps_cacheRole {g : Id .guild} {role : Role} (hhome : home (.role role.id) = some g) :
    Prog.Keeps eval (RolesAgree home) ((withOwnUsers (.all size)).cacheRole g role) :=
  keeps_listAndStore rfl rfl (Placing.place_of_home hhome) (Placing.ofHome_owned hhome.symm)

/-- Of an interaction only the resolved roles concern this family. -/
theorem keeps_interactionCreate_roles {interaction : Interaction}
    (hhome : Respects home (.interactionCreate interaction)) :
    Prog.Keeps eval (RolesAgree home) ((withOwnUsers (.all size)).interactionCreate interaction) := by
  have huser : ∀ user g, Prog.Keeps eval (RolesAgree home) ((withOwnUsers (.all size)).cacheUser user g) :=
    fun user g => (touches_cacheUser_users user g).keeps familyAgrees_dependsOn (by decide)
  refine Prog.Keeps.bind ?_ fun _ => Prog.Keeps.bind ?_ fun _ => ?_
  · refine keeps_forM fun member _ => keeps_forM fun g _ => keeps_forM fun user _ => ?_
    have hmember : Touches (memberAreas []) False
        ((withOwnUsers (.all size)).cacheBorrowedPartialMember g member user.id) :=
      touches_cacheBorrowedPartialMember [] g member user.id
    exact (huser user _).bind fun _ => hmember.keeps familyAgrees_dependsOn (by decide)
  · exact keeps_forM fun user _ => huser user none
  · rcases hdata : interaction.data with _ | data
    · exact Prog.Keeps.pure _
    · cases data with
      | messageComponent => exact Prog.Keeps.pure _
      | modalSubmit => exact Prog.Keeps.pure _
      | applicationCommand data =>
        refine keeps_forM fun resolved hresolved => Prog.Keeps.bind ?_ fun _ => keeps_forM fun g hg => ?_
        · refine Prog.Keeps.forM fun user _ => (huser _ _).bind fun _ => ?_
          refine keeps_forM fun g _ => keeps_forM fun member _ => ?_
          have hmember : Touches (memberAreas []) False
              ((withOwnUsers (.all size)).cacheBorrowedInteractionMember g member user.2.id) :=
            touches_cacheBorrowedInteractionMember [] g member user.2.id
          exact hmember.keeps familyAgrees_dependsOn (by decide)
        · refine Prog.Keeps.forM fun role hrole => keeps_cacheRole ?_
          refine hhome (.role role.id, some g) (List.mem_flatMap.mpr ⟨g, Option.mem_toList.mpr hg, ?_⟩)
          refine List.mem_map_of_mem ?_
          rw [Interaction.resolvedRoles, hdata]
          simpa [Option.mem_def.mp hresolved] using hrole

theorem keeps_update_roles (hevent : IsEntityEvent event) (hhome : Respects home event) :
    Prog.Keeps eval (RolesAgree home) ((withOwnUsers (.all size)).update event) := by
  cases event with
  | ready | guildCreate | guildDelete | unavailableGuild => exact hevent.elim
  | roleCreate g role | roleUpdate g role => exact keeps_cacheRole (hhome _ List.mem_cons_self)
  | roleDelete g id =>
    exact keeps_removeAndUnlist rfl rfl (Placing.place_of_home (hhome _ List.mem_cons_self))
  | interactionCreate interaction => exact keeps_interactionCreate_roles hhome
  | _ => exact keeps_update_off familyAgrees_dependsOn (by simp only [Event.areas]; decide)

/-! Stage instances and scheduled events. -/

def stagePlacing (home : Entity → Option (Id .guild)) : Placing (Id .stage) (Id .guild) (Id .stage) :=
  .ofHome (idNaming .stage) fun id => home (.stageInstance id)

def StageInstancesAgree (home : Entity → Option (Id .guild)) : State → Prop :=
  FamilyAgrees .stageInstances .guildStageInstances (stagePlacing home)
    ((stagePlacing home).Owned fun stageInstance => some stageInstance.guildId)

theorem keeps_update_stageInstances (hevent : IsEntityEvent event) (hhome : Respects home event) :
    Prog.Keeps eval (StageInstancesAgree home) ((withOwnUsers (.all size)).update event) := by
  cases event with
  | ready | guildCreate | guildDelete | unavailableGuild => exact hevent.elim
  | stageInstanceCreate stageInstance | stageInstanceUpdate stageInstance =>
    have hplace := hhome _ List.mem_cons_self
    exact keeps_listAndStore rfl rfl (Placing.place_of_home hplace) (Placing.ofHome_owned hplace.symm)
  | stageInstanceDelete stageInstance =>
    exact keeps_removeAndUnlist rfl rfl (Placing.place_of_home (hhome _ List.mem_cons_self))
  | _ => exact keeps_update_off familyAgrees_dependsOn (by simp only [Event.areas]; decide)

def scheduledEventPlacing (home : Entity → Option (Id .guild)) :
    Placing (Id .scheduledEvent) (Id .guild) (Id .scheduledEvent) :=
  .ofHome (idNaming .scheduledEvent) fun id => home (.scheduledEvent id)

def ScheduledEventsAgree (home : Entity → Option (Id .guild)) : State → Prop :=
  FamilyAgrees .scheduledEvents .guildScheduledEvents (scheduledEventPlacing home)
    ((scheduledEventPlacing home).Owned fun event => some event.guildId)

theorem keeps_update_scheduledEvents (hevent : IsEntityEvent event) (hhome : Respects home event) :
    Prog.Keeps eval (ScheduledEventsAgree home) ((withOwnUsers (.all size)).update event) := by
  cases event with
  | ready | guildCreate | guildDelete | unavailableGuild => exact hevent.elim
  | guildScheduledEventCreate event | guildScheduledEventUpdate event =>
    have hplace := hhome _ List.mem_cons_self
    exact keeps_listAndStore rfl rfl (Placing.place_of_home hplace) (Placing.ofHome_owned hplace.symm)
  | guildScheduledEventDelete event =>
    exact keeps_removeAndUnlist rfl rfl (Placing.place_of_home (hhome _ List.mem_cons_self))
  | guildScheduledEventUserAdd id | guildScheduledEventUserRemove id =>
    exact keeps_rewrite (fun _ _ => rfl) fun _ howned => howned
  | _ => exact keeps_update_off familyAgrees_dependsOn (by simp only [Event.areas]; decide)

/-! Integrations and presences are stored under their guild. -/

def IntegrationsAgree : State → Prop :=
  FamilyAgrees .integrations .guildIntegrations .pairs
    (Placing.pairs.Owned fun integration => some integration.guildId)

theorem keeps_update_integrations (hevent : IsEntityEvent event) :
    Prog.Keeps eval IntegrationsAgree ((withOwnUsers (.all size)).update event) := by
  cases event with
  | ready | guildCreate | guildDelete | unavailableGuild => exact hevent.elim
  | integrationCreate integration | integrationUpdate integration =>
    exact keeps_forM fun g _ => keeps_listAndStore rfl rfl rfl rfl
  | integrationDelete g id => exact keeps_removeAndUnlist rfl rfl rfl
  | _ => exact keeps_update_off familyAgrees_dependsOn (by simp only [Event.areas]; decide)

def PresencesAgree : State → Prop :=
  FamilyAgrees .presences .guildPresences .pairs (Placing.pairs.Owned fun presence => some presence.guildId)

theorem keeps_update_presences (hevent : IsEntityEvent event) :
    Prog.Keeps eval PresencesAgree ((withOwnUsers (.all size)).update event) := by
  cases event with
  | ready | guildCreate | guildDelete | unavailableGuild => exact hevent.elim
  | presenceUpdate presence => exact keeps_listAndStore rfl rfl rfl rfl
  | _ => exact keeps_update_off familyAgrees_dependsOn (by simp only [Event.areas]; decide)

/-! Channels and threads; a stored channel has the id of its field. -/

def channelPlacing (home : Entity → Option (Id .guild)) : Placing (Id .channel) (Id .guild) (Id .channel) :=
  .ofHome (idNaming .channel) fun id => home (.channel id)

def channelOk (home : Entity → Option (Id .guild)) (id : Id .channel) (channel : CachedChannel) : Prop :=
  channel.id = id ∧ channel.guildId = home (.channel id)

def ChannelsAgree (home : Entity → Option (Id .guild)) : State → Prop :=
  FamilyAgrees .channels .guildChannels (channelPlacing home) (channelOk home)

theorem keeps_cacheChannel {channel : Channel} (hhome : home (.channel channel.id) = channel.guildId) :
    Prog.Keeps eval (ChannelsAgree home) ((withOwnUsers (.all size)).cacheChannel channel) := by
  unfold cacheChannel
  rcases hguild : channel.guildId with _ | g
  · rw [hguild] at hhome
    have hplace : (channelPlacing home).place channel.id = none :=
      Placing.place_of_homeless (e := channel.id) hhome
    refine (keeps_store hplace ?_).bind fun _ => Prog.Keeps.pure _
    exact ⟨rfl, hguild.trans hhome.symm⟩
  · rw [hguild] at hhome
    have hplace : (channelPlacing home).place channel.id = some (g, channel.id) :=
      Placing.place_of_home (e := channel.id) hhome
    exact keeps_listAndStore rfl rfl hplace ⟨rfl, hguild.trans hhome.symm⟩

theorem ChannelsAgree.mem_iff {s : State} (hs : ChannelsAgree home s) (g : Id .guild) (id : Id .channel) :
    id ∈ s.sets .guildChannels g ↔
      ∃ channel, s.hashes .channels id = some channel ∧ channel.guildId = some g := by
  refine Placing.Agrees.mem_iff hs (fun id channel hok => ?_) g id
  exact Placing.ofHome_owned (e := id) hok.2

theorem ChannelsAgree.hdel {s : State} {id : Id .channel} (hs : ChannelsAgree home s)
    (h : home (.channel id) = none ∨ s.hashes .channels id = none) :
    ChannelsAgree home (s.hdel .channels {id}) := by
  unfold ChannelsAgree FamilyAgrees
  rw [State.hdel_sets, State.hdel_self]
  exact Placing.Agrees.remove_unlisted hs (h.imp_left fun hnone => Placing.place_of_homeless (e := id) hnone)

theorem ChannelsAgree.srem_hdel {s : State} {id : Id .channel} {g : Id .guild} (hs : ChannelsAgree home s)
    (hhome : home (.channel id) = some g) :
    ChannelsAgree home ((s.srem .guildChannels g {id}).hdel .channels {id}) := by
  have hplace : (channelPlacing home).place id = some (g, id) := Placing.place_of_home (e := id) hhome
  unfold ChannelsAgree FamilyAgrees
  rw [State.hdel_sets, State.hdel_self, State.srem_self, State.srem_hashes]
  refine Placing.Agrees.remove hs g {id} fun id' hid => ?_
  rwa [Finset.mem_singleton.mp hid]

/-- The guild of a channel that is deleted is read from the store. -/
theorem keeps_deleteChannel (id : Id .channel) :
    Prog.Keeps eval (ChannelsAgree home) ((withOwnUsers (.all size)).deleteChannel id) := by
  intro s hs
  have hremove : ∀ t, ChannelsAgree home (t.hdel .channels {id}) → (do
      let _ ← (withOwnUsers (.all size)).channels.remove id
      pure () : CacheM Unit).wp eval (fun _ => ChannelsAgree home) (ChannelsAgree home) t :=
    fun t ht => Prog.wp_bind.mpr ((Repository.wp_remove_new (h := .channels) rfl id).mpr ht)
  refine Prog.wp_bind.mpr ((Repository.wp_get_new (h := .channels) id).mpr (Prog.wp_bind.mpr ?_))
  rcases hchannel : s.hashes .channels id with _ | channel
  · exact hremove s (hs.hdel (.inr hchannel))
  · obtain ⟨hid, hguild⟩ : channelOk home id channel := hs.stored hchannel
    rw [wp_forM_some]
    rcases hhome : channel.guildId with _ | g
    · exact hremove s (hs.hdel (.inl (hguild.symm.trans hhome)))
    · rw [wp_forM_some, hid]
      refine Prog.wp_bind.mpr (((withOwnUsers (.all size)).guildChannels.wp_remove g rfl id).mpr ?_)
      exact hremove _ (hs.srem_hdel (hguild.symm.trans hhome))

theorem keeps_update_channels (hevent : IsEntityEvent event) (hhome : Respects home event) :
    Prog.Keeps eval (ChannelsAgree home) ((withOwnUsers (.all size)).update event) := by
  cases event with
  | ready | guildCreate | guildDelete | unavailableGuild => exact hevent.elim
  | channelCreate channel | channelUpdate channel | threadCreate channel | threadUpdate channel =>
    exact keeps_cacheChannel (hhome _ List.mem_cons_self)
  | threadListSync threads =>
    refine Prog.Keeps.forM fun thread hthread => keeps_cacheChannel ?_
    exact hhome (.channel thread.id, thread.guildId) (List.mem_map_of_mem hthread)
  | channelDelete channel => exact keeps_deleteChannel channel.id
  | threadDelete id => exact keeps_deleteChannel id
  | channelPinsUpdate id timestamp => exact keeps_rewrite (fun _ hok => hok.1) fun _ hok => hok
  | _ => exact keeps_update_off familyAgrees_dependsOn (by simp only [Event.areas]; decide)

/-! Emojis and stickers: what the payload lacks is removed, and what has not changed is skipped. -/

def emojiPlacing (home : Entity → Option (Id .guild)) : Placing UInt64 (Id .guild) (Id .emoji) :=
  .ofHome (slotNaming .emoji) fun id => home (.emoji id)

def EmojisAgree (home : Entity → Option (Id .guild)) : State → Prop :=
  FamilyAgrees .emojis .guildEmojis (emojiPlacing home)
    ((emojiPlacing home).Owned fun entry => entry.toEmoji.map (·.guildId))

theorem EmojisAgree.mem_iff {s : State} (hs : EmojisAgree home s) (g : Id .guild) (id : Id .emoji) :
    id ∈ s.sets .guildEmojis g ↔
      ∃ emoji, s.hashes .emojis id.get = some (.emoji emoji) ∧ emoji.guildId = g := by
  refine (Placing.Agrees.mem_iff hs (fun _ _ hok => hok) g id).trans ⟨?_, ?_⟩
  · rintro ⟨entry, hentry, howner⟩
    cases entry with
    | user user => cases howner
    | emoji emoji => exact ⟨emoji, hentry, Option.some.inj howner⟩
  · rintro ⟨emoji, hemoji, rfl⟩
    exact ⟨.emoji emoji, hemoji, rfl⟩

theorem keeps_cacheEmoji {g : Id .guild} {emoji : Emoji} (hhome : home (.emoji emoji.id) = some g) :
    Prog.Keeps eval (EmojisAgree home) ((withOwnUsers (.all size)).cacheEmoji g emoji) := by
  refine (keeps_forM fun user _ => ?_).bind fun _ => ?_
  · exact (touches_cacheUser_users user (some g)).keeps familyAgrees_dependsOn (by decide)
  · refine (keeps_get emoji.id).bind fun _ => keeps_onlyIf fun _ => ?_
    have hplace : (emojiPlacing home).place emoji.id.get = some (g, emoji.id) :=
      Placing.place_of_home (e := emoji.id) hhome
    exact keeps_storeAndList rfl rfl hplace (Placing.ofHome_owned (e := emoji.id) hhome.symm)

theorem keeps_update_emojis (hevent : IsEntityEvent event) (hhome : Respects home event) :
    Prog.Keeps eval (EmojisAgree home) ((withOwnUsers (.all size)).update event) := by
  cases event with
  | ready | guildCreate | guildDelete | unavailableGuild => exact hevent.elim
  | guildEmojisUpdate g emojis =>
    show Prog.Keeps eval _ ((withOwnUsers (.all size)).cacheEmojis g emojis)
    rw [cacheEmojis_eq]
    refine (keeps_removeStale rfl rfl rfl _).bind fun _ => Prog.Keeps.forM fun emoji hemoji => ?_
    exact keeps_cacheEmoji (hhome (.emoji emoji.id, some g) (List.mem_map_of_mem hemoji))
  | _ => exact keeps_update_off familyAgrees_dependsOn (by simp only [Event.areas]; decide)

def stickerPlacing (home : Entity → Option (Id .guild)) : Placing (Id .sticker) (Id .guild) (Id .sticker) :=
  .ofHome (idNaming .sticker) fun id => home (.sticker id)

def StickersAgree (home : Entity → Option (Id .guild)) : State → Prop :=
  FamilyAgrees .stickers .guildStickers (stickerPlacing home)
    ((stickerPlacing home).Owned fun sticker => some sticker.guildId)

theorem keeps_cacheSticker {g : Id .guild} {sticker : Sticker} (hhome : home (.sticker sticker.id) = some g) :
    Prog.Keeps eval (StickersAgree home) ((withOwnUsers (.all size)).cacheSticker g sticker) := by
  refine (keeps_get sticker.id).bind fun _ => keeps_onlyIf fun _ => (keeps_forM fun user _ => ?_).bind fun _ => ?_
  · exact (touches_cacheUser_users user (some g)).keeps familyAgrees_dependsOn (by decide)
  · exact keeps_listAndStore rfl rfl (Placing.place_of_home hhome) (Placing.ofHome_owned hhome.symm)

theorem keeps_update_stickers (hevent : IsEntityEvent event) (hhome : Respects home event) :
    Prog.Keeps eval (StickersAgree home) ((withOwnUsers (.all size)).update event) := by
  cases event with
  | ready | guildCreate | guildDelete | unavailableGuild => exact hevent.elim
  | guildStickersUpdate g stickers =>
    show Prog.Keeps eval _ ((withOwnUsers (.all size)).cacheStickers g stickers)
    rw [cacheStickers_eq]
    refine (keeps_removeStale rfl rfl rfl _).bind fun _ => Prog.Keeps.forM fun sticker hsticker => ?_
    exact keeps_cacheSticker (hhome (.sticker sticker.id, some g) (List.mem_map_of_mem hsticker))
  | _ => exact keeps_update_off familyAgrees_dependsOn (by simp only [Event.areas]; decide)

end Families

/-! ### Runs -/

/-- An id is in the index of a guild exactly when the store holds it with this guild. -/
structure IndexesAgree (s : State) : Prop where
  channels : ∀ g id, id ∈ s.sets .guildChannels g ↔
    ∃ channel, s.hashes .channels id = some channel ∧ channel.guildId = some g
  roles : ∀ g id, id ∈ s.sets .guildRoles g ↔ ∃ role, s.hashes .roles id = some role ∧ role.guildId = g
  emojis : ∀ g id, id ∈ s.sets .guildEmojis g ↔
    ∃ emoji, s.hashes .emojis id.get = some (.emoji emoji) ∧ emoji.guildId = g
  stickers : ∀ g id, id ∈ s.sets .guildStickers g ↔
    ∃ sticker, s.hashes .stickers id = some sticker ∧ sticker.guildId = g
  members : ∀ g u, u ∈ s.sets .guildMembers g ↔ ∃ member, s.hashes .members (g, u) = some member
  presences : ∀ g u, u ∈ s.sets .guildPresences g ↔
    ∃ presence, s.hashes .presences (g, u) = some presence ∧ presence.guildId = g
  integrations : ∀ g id, id ∈ s.sets .guildIntegrations g ↔
    ∃ integration, s.hashes .integrations (g, id) = some integration ∧ integration.guildId = g
  stageInstances : ∀ g id, id ∈ s.sets .guildStageInstances g ↔
    ∃ stageInstance, s.hashes .stageInstances id = some stageInstance ∧ stageInstance.guildId = g
  scheduledEvents : ∀ g id, id ∈ s.sets .guildScheduledEvents g ↔
    ∃ event, s.hashes .scheduledEvents id = some event ∧ event.guildId = g

/-- Along events that carry single entities, each of one guild, the indexes and the stores agree. -/
theorem indexes_agree (size : Nat) (events : List Event) (hevents : ∀ event ∈ events, IsEntityEvent event)
    (hguild : OneGuild events) :
    IndexesAgree ((withOwnUsers (.all size)).applyEvents events .empty) := by
  obtain ⟨home, hhome⟩ := hguild.exists_home
  have hrun : ∀ {I : State → Prop}, (∀ event, IsEntityEvent event → Respects home event →
      Prog.Keeps eval I ((withOwnUsers (.all size)).update event)) → I .empty →
      I ((withOwnUsers (.all size)).applyEvents events .empty) := by
    intro I hkeeps hempty
    exact applyEvents_keeps (fun event h => hkeeps event (hevents event h) (hhome event h)) hempty
  have hchannels := hrun (I := ChannelsAgree home) (fun _ => keeps_update_channels) familyAgrees_empty
  have hroles := hrun (I := RolesAgree home) (fun _ => keeps_update_roles) familyAgrees_empty
  have hemojis := hrun (I := EmojisAgree home) (fun _ => keeps_update_emojis) familyAgrees_empty
  have hstickers := hrun (I := StickersAgree home) (fun _ => keeps_update_stickers) familyAgrees_empty
  have hmembers : MembersCached ((withOwnUsers (.all size)).applyEvents events .empty) :=
    membersCached_of_reachable rfl rfl ⟨events, rfl⟩
  have hpresences := hrun (I := PresencesAgree) (fun _ h _ => keeps_update_presences h) familyAgrees_empty
  have hintegrations :=
    hrun (I := IntegrationsAgree) (fun _ h _ => keeps_update_integrations h) familyAgrees_empty
  have hstages :=
    hrun (I := StageInstancesAgree home) (fun _ => keeps_update_stageInstances) familyAgrees_empty
  have hscheduled :=
    hrun (I := ScheduledEventsAgree home) (fun _ => keeps_update_scheduledEvents) familyAgrees_empty
  exact {
    channels := hchannels.mem_iff
    roles := hroles.mem_iff fun _ _ howned => howned
    emojis := hemojis.mem_iff
    stickers := hstickers.mem_iff fun _ _ howned => howned
    members := hmembers.listed
    presences := hpresences.mem_iff fun _ _ howned => howned
    integrations := hintegrations.mem_iff fun _ _ howned => howned
    stageInstances := hstages.mem_iff fun _ _ howned => howned
    scheduledEvents := hscheduled.mem_iff fun _ _ howned => howned }

/-- A channel of a guild and a direct message, a role that is deleted, and an emoji that is left out later. -/
theorem indexes_agree_of_update :
    let g : Id .guild := ⟨1, by decide⟩
    let emoji : Emoji := ⟨false, true, ⟨5, by decide⟩, false, "emoji", false, [], none⟩
    let events : List Event :=
      [.channelCreate ⟨some g, ⟨2, by decide⟩, none, ""⟩, .channelCreate ⟨none, ⟨3, by decide⟩, none, ""⟩,
        .roleCreate g ⟨⟨4, by decide⟩, ""⟩, .roleDelete g ⟨4, by decide⟩, .guildEmojisUpdate g [emoji],
        .guildEmojisUpdate g []]
    IndexesAgree ((withOwnUsers (.all 100)).applyEvents events .empty) := by
  refine indexes_agree 100 _ (by simp [IsEntityEvent]) ?_
  unfold OneGuild
  decide

end Tulpje.Cache
