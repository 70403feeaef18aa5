import Tulpje.Cache.SharedHash
import Tulpje.Cache.Update

/-!
# GuildCreate as a snapshot

An available `GuildCreate` carries everything a guild has. `FullSnapshot` says that afterwards six families
of the guild are exactly what it carries; `StaleFree` says what may be in the store before for that. Of
channels the index is cleared and the store keeps old entries; of roles, stage instances and scheduled
events both keep them; of emojis and stickers what the index lists is removed.

`cacheGuild` gets to its end only if no user and emoji want the same slot of the hash they share
(`SlotsFree`). `cacheGuild_fullSnapshot_iff` puts the two together.
-/

namespace Tulpje.Cache

open Twilight Lib

/-! ### The steps of `cache_guild` -/

inductive GuildStep
  | clearChannels | channels | threads | staleEmojis | emojis | members | presences | roles
  | staleStickers | stickers | voiceStates | stageInstances | scheduledEvents | available | record
  deriving DecidableEq

namespace GuildStep

/-- The steps that come before the first user or emoji is written. -/
def opening : List GuildStep := [clearChannels, channels, threads, staleEmojis]

def rest : List GuildStep :=
  [emojis, members, presences, roles, staleStickers, stickers, voiceStates, stageInstances,
    scheduledEvents, available, record]

variable (self : Cache) (guild : Guild)

def prog : GuildStep → CacheM Unit
  | clearChannels => do
    let _ ← self.guildChannels.clear guild.id
    pure ()
  | channels =>
    self.cacheChannels (guild.channels.map fun channel => { channel with guildId := some guild.id })
  | threads =>
    self.cacheChannels (guild.threads.map fun thread => { thread with guildId := some guild.id })
  | staleEmojis => removeStale self.emojis self.guildEmojis guild.id (guild.emojis.map (·.id))
  | emojis => guild.emojis.forM (self.cacheEmoji guild.id)
  | members => self.cacheMembers guild.id guild.members
  | presences => self.cachePresences guild.id guild.presences
  | roles => self.cacheRoles guild.id guild.roles
  | staleStickers =>
    removeStale self.stickers self.guildStickers guild.id (guild.stickers.map (·.id))
  | stickers => guild.stickers.forM (self.cacheSticker guild.id)
  | voiceStates => self.cacheVoiceStates guild.voiceStates
  | stageInstances => self.cacheStageInstances guild.id guild.stageInstances
  | scheduledEvents => self.cacheGuildScheduledEvents guild.id guild.guildScheduledEvents
  | available => do
    let _ ← self.unavailableGuilds.remove guild.id
    pure ()
  | record => do
    let _ ← self.guilds.insert guild.id (.fromGuild guild)
    pure ()

theorem prog_staleEmojis : staleEmojis.prog self guild =
    removeStale self.emojis self.guildEmojis guild.id (guild.emojis.map (·.id)) := rfl

theorem prog_staleStickers : staleStickers.prog self guild =
    removeStale self.stickers self.guildStickers guild.id (guild.stickers.map (·.id)) := rfl

def areas : GuildStep → List Area
  | clearChannels => [.set .guildChannels]
  | channels | threads => [.hash .channels, .set .guildChannels]
  | staleEmojis => [.hash .emojis, .set .guildEmojis]
  | emojis => .set .guildEmojis :: userAreas
  | members => .hash .members :: .set .guildMembers :: userAreas
  | presences => [.hash .presences, .set .guildPresences]
  | roles => [.hash .roles, .set .guildRoles]
  | staleStickers => [.hash .stickers, .set .guildStickers]
  | stickers => .hash .stickers :: .set .guildStickers :: userAreas
  | voiceStates => [.hash .voiceStates, .set .voiceStateChannels, .set .voiceStateGuilds]
  | stageInstances => [.hash .stageInstances, .set .guildStageInstances]
  | scheduledEvents => [.hash .scheduledEvents, .set .guildScheduledEvents]
  | available => [.set .unavailableGuilds]
  | record => [.hash .guilds]

/-- The step reads entries of the hash of users and emojis, so it can fail. -/
def CanFail : GuildStep → Prop
  | emojis | members | stickers => True
  | _ => False

variable {self guild}

theorem touches (step : GuildStep) :
    Touches step.areas step.CanFail (step.prog self guild) := by
  cases step with
  | clearChannels => exact (MappedSetRepository.touches_clear _ (by decide)).bind fun _ => Touches.pure _
  | channels => exact touches_cacheChannels _
  | threads => exact touches_cacheChannels _
  | staleEmojis => exact touches_removeStale (by decide) (by decide) _ _
  | emojis => exact Touches.forM fun emoji => touches_cacheEmoji _ emoji
  | members => exact Touches.forM fun member => touches_cacheMember _ member
  | presences => exact touches_cachePresences _ _
  | roles => exact touches_cacheRoles _ _
  | staleStickers => exact touches_removeStale (by decide) (by decide) _ _
  | stickers => exact Touches.forM fun sticker => touches_cacheSticker _ sticker
  | voiceStates => exact touches_cacheVoiceStates _
  | stageInstances => exact touches_cacheStageInstances _ _
  | scheduledEvents => exact touches_cacheGuildScheduledEvents _ _
  | available => exact (SetRepository.touches_remove (by decide) _).bind fun _ => Touches.pure _
  | record => exact (Repository.touches_insert (by decide) _ _).bind fun _ => Touches.pure _

end GuildStep

theorem cacheGuild_eq_steps (self : Cache) (guild : Guild) :
    self.cacheGuild guild = (do
      GuildStep.opening.forM (GuildStep.prog self guild)
      GuildStep.rest.forM (GuildStep.prog self guild)) := by
  unfold cacheGuild
  simp only [cacheEmojis_eq, cacheStickers_eq, GuildStep.opening, GuildStep.rest, GuildStep.prog,
    List.forM, bind_assoc, pure_bind]

/-! ### Payloads and snapshots -/

section Payload
variable (cache : Cache) (guild : Guild)

/-- `cache_guild` puts the guild's id into its channels and threads. -/
def channelItems : List (Id .channel × CachedChannel) :=
  (guild.channels ++ guild.threads).map fun channel =>
    (channel.id, { channel with guildId := some guild.id })

def roleItems : List (Id .role × GuildResource CachedRole) :=
  guild.roles.map fun role => (role.id, ⟨guild.id, role⟩)

def emojiItems : List (Id .emoji × GuildResource CachedEmoji) := guild.emojis.map (emojiItem guild.id)

def stickerItems : List (Id .sticker × GuildResource CachedSticker) :=
  guild.stickers.map (stickerItem guild.id)

def stageItems : List (Id .stage × GuildResource CachedStageInstance) :=
  guild.stageInstances.map fun stage => (stage.id, ⟨guild.id, stage⟩)

def scheduledEventItems : List (Id .scheduledEvent × CachedGuildScheduledEvent) :=
  guild.guildScheduledEvents.map fun event => (event.id, event)

/-- What belongs to guild `g`. -/
def ownChannel (g : Id .guild) (channel : CachedChannel) : Prop := channel.guildId = some g

def ownEvent (g : Id .guild) (event : CachedGuildScheduledEvent) : Prop := event.guildId = g

def ownResource {T : Type} (g : Id .guild) (resource : GuildResource T) : Prop := resource.guildId = g

/-- After the change the six families of the guild are exactly what the payload carries, and the entries
of other guilds are where they were. -/
structure FullSnapshot (s t : State) : Prop where
  channels : Indexed.IsSnapshot (ownChannel guild.id) (channelItems guild)
    (family .guildChannels cache.channels guild.id s) (family .guildChannels cache.channels guild.id t)
  roles : Indexed.IsSnapshot (ownResource guild.id) (roleItems guild)
    (family .guildRoles cache.roles guild.id s) (family .guildRoles cache.roles guild.id t)
  emojis : Indexed.IsSnapshot (ownResource guild.id) (emojiItems guild)
    (family .guildEmojis cache.emojis guild.id s) (family .guildEmojis cache.emojis guild.id t)
  stickers : Indexed.IsSnapshot (ownResource guild.id) (stickerItems guild)
    (family .guildStickers cache.stickers guild.id s) (family .guildStickers cache.stickers guild.id t)
  stageInstances : Indexed.IsSnapshot (ownResource guild.id) (stageItems guild)
    (family .guildStageInstances cache.stageInstances guild.id s)
    (family .guildStageInstances cache.stageInstances guild.id t)
  scheduledEvents : Indexed.IsSnapshot (ownEvent guild.id) (scheduledEventItems guild)
    (family .guildScheduledEvents cache.scheduledEvents guild.id s)
    (family .guildScheduledEvents cache.scheduledEvents guild.id t)

/-- The payload's ids are distinct and belong to its guild alone, in the payload and in the store. -/
structure OwnPayload (s : State) : Prop where
  members : (guild.members.map (·.user.id)).Nodup
  channels : Indexed.Exclusive (ownChannel guild.id) (channelItems guild)
    (family .guildChannels cache.channels guild.id s)
  roles : Indexed.Exclusive (ownResource guild.id) (roleItems guild)
    (family .guildRoles cache.roles guild.id s)
  emojis : Indexed.Exclusive (ownResource guild.id) (emojiItems guild)
    (family .guildEmojis cache.emojis guild.id s)
  stickers : Indexed.Exclusive (ownResource guild.id) (stickerItems guild)
    (family .guildStickers cache.stickers guild.id s)
  stageInstances : Indexed.Exclusive (ownResource guild.id) (stageItems guild)
    (family .guildStageInstances cache.stageInstances guild.id s)
  scheduledEvents : Indexed.Exclusive (ownEvent guild.id) (scheduledEventItems guild)
    (family .guildScheduledEvents cache.scheduledEvents guild.id s)

/-- What the store may hold of the guild before: no channel, and no role, stage instance or scheduled
event in the index or the store, that the payload lacks; an emoji or sticker that the payload lacks only
if the index lists it, and the index lists none of another guild and each one that is skipped because it
has not changed. -/
structure StaleFree (s : State) : Prop where
  channels : Indexed.StoreFresh (ownChannel guild.id) (channelItems guild)
    (family .guildChannels cache.channels guild.id s)
  roles : Indexed.IndexFresh (roleItems guild) (family .guildRoles cache.roles guild.id s) ∧
    Indexed.StoreFresh (ownResource guild.id) (roleItems guild)
      (family .guildRoles cache.roles guild.id s)
  emojis : Indexed.StoreListed (ownResource guild.id) (emojiItems guild)
      (family .guildEmojis cache.emojis guild.id s) ∧
    Indexed.SkipsIndexed sameValue (emojiItems guild) (family .guildEmojis cache.emojis guild.id s) ∧
    Indexed.StaleOwn (ownResource guild.id) (emojiItems guild)
      (family .guildEmojis cache.emojis guild.id s)
  stickers : Indexed.StoreListed (ownResource guild.id) (stickerItems guild)
      (family .guildStickers cache.stickers guild.id s) ∧
    Indexed.SkipsIndexed sameValue (stickerItems guild)
      (family .guildStickers cache.stickers guild.id s) ∧
    Indexed.StaleOwn (ownResource guild.id) (stickerItems guild)
      (family .guildStickers cache.stickers guild.id s)
  stageInstances : Indexed.IndexFresh (stageItems guild)
      (family .guildStageInstances cache.stageInstances guild.id s) ∧
    Indexed.StoreFresh (ownResource guild.id) (stageItems guild)
      (family .guildStageInstances cache.stageInstances guild.id s)
  scheduledEvents : Indexed.IndexFresh (scheduledEventItems guild)
      (family .guildScheduledEvents cache.scheduledEvents guild.id s) ∧
    Indexed.StoreFresh (ownEvent guild.id) (scheduledEventItems guild)
      (family .guildScheduledEvents cache.scheduledEvents guild.id s)

/-! The slots of users and emojis. -/

/-- What the caching of the payload claims; members and stickers that are up to date claim nothing. -/
def guildClaims (s : State) : List (UInt64 × SlotKind) :=
  guild.emojis.flatMap emojiClaims ++
    guild.members.flatMap (fun member => memberClaims guild.id member s) ++
    guild.stickers.flatMap (fun sticker => stickerClaims sticker s)

/-- The emojis that are removed before anything is cached. -/
def staleEmojiIds (s : State) : Finset (Id .emoji) :=
  (s.sets .guildEmojis guild.id).filter (· ∉ guild.emojis.map (·.id))

/-- The slots that are left then. -/
def keptKinds (s : State) (slot : UInt64) : Option SlotKind :=
  if slot ∈ (staleEmojiIds guild s).image (·.get) then none else s.kinds slot

/-- No user or emoji that is cached has the number of an entry of the other kind, stored or cached. -/
structure SlotsFree (s : State) : Prop where
  stored : ∀ c ∈ guildClaims guild s, Fits (keptKinds guild s) c
  distinct : ∀ c ∈ guildClaims guild s, ∀ d ∈ guildClaims guild s, c.1 = d.1 → c.2 = d.2

end Payload

/-! ### When `cache_guild` succeeds -/

section Succeeds
variable {size : Nat} {guild : Guild}

def stepClaims (guild : Guild) : GuildStep → State → List (UInt64 × SlotKind)
  | .emojis, _ => guild.emojis.flatMap emojiClaims
  | .members, s => guild.members.flatMap fun member => memberClaims guild.id member s
  | .stickers, s => guild.stickers.flatMap fun sticker => stickerClaims sticker s
  | _, _ => []

theorem stepClaims_congr {s t : State} (hmembers : t.hashes .members = s.hashes .members)
    (hstickers : t.hashes .stickers = s.hashes .stickers) (step : GuildStep) :
    stepClaims guild step t = stepClaims guild step s := by
  cases step with
  | members =>
    simp only [stepClaims, memberClaims, hmembers]
  | stickers =>
    simp only [stepClaims, stickerClaims, hstickers]
  | _ => rfl

/-- The stickers of the payload are not among those that are removed. -/
theorem stepClaims_staleStickers (s : State) : stepClaims guild .stickers
    ((GuildStep.staleStickers.prog (new (.all size)) guild).exec eval s).2 =
      stepClaims guild .stickers s := by
  have hexec := exec_removeStale (new (.all size)).stickers (new (.all size)).guildStickers rfl rfl
    guild.id (guild.stickers.map (·.id)) s
  rw [GuildStep.prog_staleStickers, hexec]
  refine List.flatMap_congr fun sticker hsticker => ?_
  have hid : sticker.id ∈ guild.stickers.map (·.id) := List.mem_map_of_mem hsticker
  have hkept : sticker.id ∉ ((s.sets .guildStickers guild.id).filter
      (· ∉ guild.stickers.map (·.id))).image (new (.all size)).stickers.field := by
    intro hmem
    obtain ⟨id, hstale, rfl⟩ := Finset.mem_image.mp hmem
    exact (Finset.mem_filter.mp hstale).2 hid
  simp only [stickerClaims, State.hdel_self, State.srem_hashes, if_neg hkept]

/-- What a step claims does not depend on what the steps before it have written. -/
theorem stepClaims_frame : GuildStep.rest.Pairwise fun step step' => ∀ s,
    stepClaims guild step' ((step.prog (new (.all size)) guild).exec eval s).2 =
      stepClaims guild step' s := by
  have hareas : GuildStep.rest.Pairwise fun step step' =>
      (step' = .members → .hash .members ∉ step.areas) ∧
        (step' = .stickers → step = .staleStickers ∨ .hash .stickers ∉ step.areas) := by decide
  refine hareas.imp fun {step step'} h s => ?_
  have htouches : Touches step.areas step.CanFail (step.prog (new (.all size)) guild) := step.touches
  cases step' with
  | members =>
    simp only [stepClaims, memberClaims, htouches.hashes (h.1 rfl) s]
  | stickers =>
    rcases h.2 rfl with rfl | hstickers
    · exact stepClaims_staleStickers s
    · simp only [stepClaims, stickerClaims, htouches.hashes hstickers s]
  | _ => rfl

theorem claims_step_other (step : GuildStep) (hfail : ¬ step.CanFail)
    (hh : .hash .emojis ∉ step.areas) :
    Prog.Claims eval State.kinds (fun _ => []) (step.prog (new (.all size)) guild) := by
  have htouches : Touches step.areas step.CanFail (step.prog (new (.all size)) guild) := step.touches
  rw [eq_false hfail] at htouches
  exact htouches.claims hh

theorem claims_step (hmembers : (guild.members.map (·.user.id)).Nodup)
    (hstickers : (guild.stickers.map (·.id)).Nodup) {step : GuildStep} (hstep : step ∈ GuildStep.rest) :
    Prog.Claims eval State.kinds (stepClaims guild step) (step.prog (new (.all size)) guild) := by
  cases step with
  | emojis =>
    refine Prog.Claims.forM (fun emoji _ => claims_cacheEmoji emoji) ?_
    exact List.pairwise_of_forall fun _ _ _ => rfl
  | members => exact claims_cacheMembers hmembers
  | stickers => exact claims_cacheStickers hstickers
  | clearChannels | channels | threads | staleEmojis => exact absurd hstep (by decide)
  | _ => exact claims_step_other _ id (by decide)

/-- The steps before the stale emojis cannot fail, and leave what the claims look at alone. -/
theorem exec_opening_eq (config : Config) (guild : Guild) (s : State) : ∃ t,
    (GuildStep.opening.forM (GuildStep.prog (new config) guild)).exec eval s =
        (GuildStep.staleEmojis.prog (new config) guild).exec eval t ∧
      t.hashes .emojis = s.hashes .emojis ∧ t.sets .guildEmojis = s.sets .guildEmojis ∧
      t.hashes .members = s.hashes .members ∧ t.hashes .stickers = s.hashes .stickers := by
  have hfirst : Touches [.hash .channels, .set .guildChannels] False
      ([GuildStep.clearChannels, .channels, .threads].forM (GuildStep.prog (new config) guild)) := by
    refine Touches.bind ((GuildStep.touches .clearChannels).mono (by decide)) fun _ => ?_
    refine Touches.bind (GuildStep.touches .channels) fun _ => ?_
    exact Touches.bind (GuildStep.touches .threads) fun _ => Touches.pure _
  have hsplit : GuildStep.opening.forM (GuildStep.prog (new config) guild) = (do
      [GuildStep.clearChannels, .channels, .threads].forM (GuildStep.prog (new config) guild)
      GuildStep.prog (new config) guild .staleEmojis) := by
    simp only [GuildStep.opening, List.forM, bind_assoc, bind_pure_unit]
  obtain ⟨_, hexec⟩ := hfirst.exec_ok s
  refine ⟨_, ?_, hfirst.hashes (h := .emojis) (by decide) s, hfirst.sets (n := .guildEmojis) (by decide) s,
    hfirst.hashes (h := .members) (by decide) s, hfirst.hashes (h := .stickers) (by decide) s⟩
  rw [hsplit, Prog.exec_bind_ok hexec]

/-- The steps before the first claim cannot fail, and change what the claims look at as stated. -/
theorem exec_opening (size : Nat) (guild : Guild) (s : State) : ∃ t,
    (GuildStep.opening.forM (GuildStep.prog (new (.all size)) guild)).exec eval s = (.ok (), t) ∧
      t.kinds = keptKinds guild s ∧ t.hashes .members = s.hashes .members ∧
      t.hashes .stickers = s.hashes .stickers := by
  obtain ⟨u, hexec, hhash, hset, hmembers, hstickers⟩ := exec_opening_eq (.all size) guild s
  have hstale : (u.sets .guildEmojis guild.id).filter (· ∉ guild.emojis.map (·.id)) =
      staleEmojiIds guild s := by rw [hset]; rfl
  have hremove := exec_removeStale (new (.all size)).emojis (new (.all size)).guildEmojis rfl rfl
    guild.id (guild.emojis.map (·.id)) u
  rw [hstale] at hremove
  refine ⟨(u.srem .guildEmojis guild.id (staleEmojiIds guild s)).hdel .emojis
    ((staleEmojiIds guild s).image (new (.all size)).emojis.field), hexec.trans hremove, ?_, ?_, ?_⟩
  · funext slot
    unfold State.kinds keptKinds
    rw [State.hdel_self, State.srem_hashes, hhash]
    exact apply_ite _ _ _ _
  · rw [State.hdel_of_ne _ _ (by decide), State.srem_hashes, hmembers]
  · rw [State.hdel_of_ne _ _ (by decide), State.srem_hashes, hstickers]

theorem stepClaims_rest (s : State) :
    GuildStep.rest.flatMap (fun step => stepClaims guild step s) = guildClaims guild s := by
  show guild.emojis.flatMap _ ++ (guild.members.flatMap _ ++ ([] ++ ([] ++ ([] ++
    (guild.stickers.flatMap _ ++ []))))) = _
  rw [List.nil_append, List.nil_append, List.nil_append, List.append_nil, ← List.append_assoc]
  rfl

theorem exec_cacheGuild_ok_iff (hmembers : (guild.members.map (·.user.id)).Nodup)
    (hstickers : (guild.stickers.map (·.id)).Nodup) (s : State) :
    (∃ t, ((new (.all size)).cacheGuild guild).exec eval s = (.ok (), t)) ↔ SlotsFree guild s := by
  obtain ⟨u, hexec, hkinds, humembers, hustickers⟩ := exec_opening size guild s
  have hclaims : Prog.Claims eval State.kinds _
      (GuildStep.rest.forM (GuildStep.prog (new (.all size)) guild)) :=
    Prog.Claims.forM (fun step => claims_step hmembers hstickers) stepClaims_frame
  rw [cacheGuild_eq_steps, Prog.exec_bind_ok hexec, hclaims.exec_eq_ok_iff,
    stepClaims_rest, fitAll_iff, hkinds]
  have hsame : guildClaims guild u = guildClaims guild s := by
    rw [← stepClaims_rest, ← stepClaims_rest]
    exact List.flatMap_congr fun step _ => stepClaims_congr humembers hustickers step
  rw [hsame]
  exact ⟨fun h => ⟨h.1, h.2⟩, fun h => ⟨h.stored, h.distinct⟩⟩

end Succeeds

/-! ### What `cache_guild` does to each family -/

section Families
variable {size : Nat} {guild : Guild}

theorem acts_cacheGuild {β : Type} {v : State → β} (effect : GuildStep → β → β)
    (heffect : ∀ step : GuildStep, Prog.Acts eval v (effect step) (step.prog (new (.all size)) guild)) :
    Prog.Acts eval v (fun x => (GuildStep.opening ++ GuildStep.rest).foldl (fun x step => effect step x) x)
      ((new (.all size)).cacheGuild guild) := by
  have hacts : ∀ steps : List GuildStep, Prog.Acts eval v
      (fun x => steps.foldl (fun x step => effect step x) x)
      (steps.forM (GuildStep.prog (new (.all size)) guild)) :=
    fun steps => Prog.Acts.forM _ fun step _ => heffect step
  rw [cacheGuild_eq_steps]
  simp only [List.foldl_append]
  exact (hacts GuildStep.opening).bind fun _ => hacts GuildStep.rest

theorem acts_clear_guildChannels {V : Type} {h : HashName} (repository : Repository h (Id .channel) V) :
    Prog.Acts eval (family .guildChannels repository guild.id) Indexed.clearIndex
      (GuildStep.clearChannels.prog (new (.all size)) guild) := by
  intro s a t hexec
  have hclear := (new (.all size)).guildChannels.exec_clear guild.id rfl s
  have hexec := (Prog.exec_bind_ok hclear _).symm.trans hexec
  cases hexec
  exact family_del

/-- The items of a list of channels or threads. -/
def guildChannelItems (guild : Guild) (channels : List Channel) : List (Id .channel × CachedChannel) :=
  (channels.map fun channel => { channel with guildId := some guild.id }).map fun channel =>
    (channel.id, channel)

theorem channelItems_eq (guild : Guild) : channelItems guild =
    guildChannelItems guild guild.channels ++ guildChannelItems guild guild.threads := by
  simp only [channelItems, guildChannelItems, List.map_append, List.map_map]
  rfl

theorem acts_cacheGuild_channels :
    Prog.Acts eval (family .guildChannels (new (.all size)).channels guild.id)
      (fun x => x.clearIndex.putAll Indexed.never (channelItems guild))
      ((new (.all size)).cacheGuild guild) := by
  rw [channelItems_eq]
  simp only [Indexed.putAll, List.foldl_append]
  refine acts_cacheGuild
    (fun
      | .clearChannels => Indexed.clearIndex
      | .channels => Indexed.putAll Indexed.never (guildChannelItems guild guild.channels)
      | .threads => Indexed.putAll Indexed.never (guildChannelItems guild guild.threads)
      | _ => id) fun step => ?_
  have hcache : ∀ channels : List Channel, Prog.Acts eval
      (family .guildChannels (new (.all size)).channels guild.id)
      (Indexed.putAll Indexed.never (guildChannelItems guild channels))
      ((new (.all size)).cacheChannels
        (channels.map fun channel => { channel with guildId := some guild.id })) := by
    intro channels
    refine acts_cacheChannels size guild.id _ fun channel hchannel => ?_
    obtain ⟨_, -, rfl⟩ := List.mem_map.mp hchannel
    rfl
  cases step with
  | clearChannels => exact acts_clear_guildChannels _
  | channels => exact hcache guild.channels
  | threads => exact hcache guild.threads
  | _ => exact (GuildStep.touches _).acts (by decide) (by decide) _

theorem acts_cacheGuild_roles : Prog.Acts eval (family .guildRoles (new (.all size)).roles guild.id)
    (Indexed.putAll Indexed.never (roleItems guild)) ((new (.all size)).cacheGuild guild) := by
  refine acts_cacheGuild
    (fun
      | .roles => Indexed.putAll Indexed.never (roleItems guild)
      | _ => id) fun step => ?_
  cases step with
  | roles => exact acts_cacheRoles size guild.id guild.roles
  | _ => exact (GuildStep.touches _).acts (by decide) (by decide) _

theorem acts_cacheGuild_stageInstances :
    Prog.Acts eval (family .guildStageInstances (new (.all size)).stageInstances guild.id)
      (Indexed.putAll Indexed.never (stageItems guild)) ((new (.all size)).cacheGuild guild) := by
  refine acts_cacheGuild
    (fun
      | .stageInstances => Indexed.putAll Indexed.never (stageItems guild)
      | _ => id) fun step => ?_
  cases step with
  | stageInstances => exact acts_cacheStageInstances size guild.id guild.stageInstances
  | _ => exact (GuildStep.touches _).acts (by decide) (by decide) _

theorem acts_cacheGuild_scheduledEvents :
    Prog.Acts eval (family .guildScheduledEvents (new (.all size)).scheduledEvents guild.id)
      (Indexed.putAll Indexed.never (scheduledEventItems guild))
      ((new (.all size)).cacheGuild guild) := by
  refine acts_cacheGuild
    (fun
      | .scheduledEvents => Indexed.putAll Indexed.never (scheduledEventItems guild)
      | _ => id) fun step => ?_
  cases step with
  | scheduledEvents => exact acts_cacheGuildScheduledEvents size guild.id guild.guildScheduledEvents
  | _ => exact (GuildStep.touches _).acts (by decide) (by decide) _

theorem acts_cacheGuild_emojis : Prog.Acts eval (family .guildEmojis (new (.all size)).emojis guild.id)
    (fun x => (x.dropStale ((emojiItems guild).map Prod.fst)).putAll sameValue (emojiItems guild))
    ((new (.all size)).cacheGuild guild) := by
  have hids : (emojiItems guild).map Prod.fst = guild.emojis.map (·.id) := List.map_map ..
  rw [hids]
  refine acts_cacheGuild
    (fun
      | .staleEmojis => Indexed.dropStale (guild.emojis.map (·.id))
      | .emojis => Indexed.putAll sameValue (emojiItems guild)
      | _ => id) fun step => ?_
  cases step with
  | staleEmojis =>
    rw [GuildStep.prog_staleEmojis]
    exact acts_removeStale _ _ sound_emojis rfl _ _
  | emojis => exact acts_putAll _ fun emoji _ => acts_cacheEmoji emoji
  | members => exact acts_cacheMembers
  | stickers => exact Prog.Acts.forM_keep fun sticker _ => acts_cacheSticker_emojis sticker
  | _ => exact (GuildStep.touches _).acts (by decide) (by decide) _

theorem acts_cacheGuild_stickers :
    Prog.Acts eval (family .guildStickers (new (.all size)).stickers guild.id)
      (fun x => (x.dropStale ((stickerItems guild).map Prod.fst)).putAll sameValue
        (stickerItems guild))
      ((new (.all size)).cacheGuild guild) := by
  have hids : (stickerItems guild).map Prod.fst = guild.stickers.map (·.id) := List.map_map ..
  rw [hids]
  refine acts_cacheGuild
    (fun
      | .staleStickers => Indexed.dropStale (guild.stickers.map (·.id))
      | .stickers => Indexed.putAll sameValue (stickerItems guild)
      | _ => id) fun step => ?_
  cases step with
  | staleStickers =>
    rw [GuildStep.prog_staleStickers]
    exact acts_removeStale _ _ sound_stickers rfl _ _
  | stickers => exact acts_putAll _ fun sticker _ => acts_cacheSticker sticker
  | _ => exact (GuildStep.touches _).acts (by decide) (by decide) _

end Families

/-! ### The snapshot -/

/-- A run that succeeds leaves a full snapshot exactly if the store held nothing in its way. -/
theorem fullSnapshot_iff_of_ok {size : Nat} {guild : Guild} {s t : State}
    (hown : OwnPayload (new (.all size)) guild s)
    (hexec : ((new (.all size)).cacheGuild guild).exec eval s = (.ok (), t)) :
    FullSnapshot (new (.all size)) guild s t ↔ StaleFree (new (.all size)) guild s := by
  have hchannels := acts_cacheGuild_channels s () t hexec
  have hroles := acts_cacheGuild_roles s () t hexec
  have hemojis := acts_cacheGuild_emojis s () t hexec
  have hstickers := acts_cacheGuild_stickers s () t hexec
  have hstages := acts_cacheGuild_stageInstances s () t hexec
  have hevents := acts_cacheGuild_scheduledEvents s () t hexec
  constructor
  · rintro ⟨h₁, h₂, h₃, h₄, h₅, h₆⟩
    rw [hchannels, Indexed.clearIndex_putAll_isSnapshot_iff hown.channels] at h₁
    rw [hroles, Indexed.putAll_never_isSnapshot_iff hown.roles] at h₂
    rw [hemojis, Indexed.dropStale_putAll_isSnapshot_iff hown.emojis eq_of_sameValue] at h₃
    rw [hstickers, Indexed.dropStale_putAll_isSnapshot_iff hown.stickers eq_of_sameValue] at h₄
    rw [hstages, Indexed.putAll_never_isSnapshot_iff hown.stageInstances] at h₅
    rw [hevents, Indexed.putAll_never_isSnapshot_iff hown.scheduledEvents] at h₆
    exact ⟨h₁, h₂, h₃, h₄, h₅, h₆⟩
  · rintro ⟨h₁, h₂, h₃, h₄, h₅, h₆⟩
    constructor
    · rw [hchannels, Indexed.clearIndex_putAll_isSnapshot_iff hown.channels]
      exact h₁
    · rw [hroles, Indexed.putAll_never_isSnapshot_iff hown.roles]
      exact h₂
    · rw [hemojis, Indexed.dropStale_putAll_isSnapshot_iff hown.emojis eq_of_sameValue]
      exact h₃
    · rw [hstickers, Indexed.dropStale_putAll_isSnapshot_iff hown.stickers eq_of_sameValue]
      exact h₄
    · rw [hstages, Indexed.putAll_never_isSnapshot_iff hown.stageInstances]
      exact h₅
    · rw [hevents, Indexed.putAll_never_isSnapshot_iff hown.scheduledEvents]
      exact h₆

theorem cacheGuild_fullSnapshot_iff (size : Nat) (guild : Guild) (s : State)
    (hown : OwnPayload (new (.all size)) guild s) :
    (∃ t, ((new (.all size)).cacheGuild guild).exec eval s = (.ok (), t) ∧
        FullSnapshot (new (.all size)) guild s t) ↔
      SlotsFree guild s ∧ StaleFree (new (.all size)) guild s := by
  have hstickers : (guild.stickers.map (·.id)).Nodup := by
    have h := hown.stickers.nodup
    rwa [stickerItems, List.map_map] at h
  constructor
  · rintro ⟨t, hexec, hsnapshot⟩
    refine ⟨(exec_cacheGuild_ok_iff hown.members hstickers s).mp ⟨t, hexec⟩, ?_⟩
    exact (fullSnapshot_iff_of_ok hown hexec).mp hsnapshot
  · rintro ⟨hslots, hstale⟩
    obtain ⟨t, hexec⟩ := (exec_cacheGuild_ok_iff hown.members hstickers s).mpr hslots
    exact ⟨t, hexec, (fullSnapshot_iff_of_ok hown hexec).mpr hstale⟩

/-- An empty cache holds nothing that could be stale. -/
theorem staleFree_empty (size : Nat) (guild : Guild) : StaleFree (new (.all size)) guild .empty :=
  ⟨Indexed.storeFresh_empty, ⟨Indexed.indexFresh_empty, Indexed.storeFresh_empty⟩,
    ⟨Indexed.storeListed_empty, Indexed.skipsIndexed_empty, Indexed.staleOwn_empty⟩,
    ⟨Indexed.storeListed_empty, Indexed.skipsIndexed_empty, Indexed.staleOwn_empty⟩,
    ⟨Indexed.indexFresh_empty, Indexed.storeFresh_empty⟩, ⟨Indexed.indexFresh_empty, Indexed.storeFresh_empty⟩⟩

/-- A guild without contents. -/
theorem ownPayload_bare (size : Nat) (id : Id .guild) (ownerId : Id .user) (s : State) :
    OwnPayload (new (.all size)) (.bare id ownerId) s :=
  ⟨List.nodup_nil, Indexed.exclusive_nil, Indexed.exclusive_nil, Indexed.exclusive_nil, Indexed.exclusive_nil,
    Indexed.exclusive_nil, Indexed.exclusive_nil⟩

/-- A guild has come into an empty cache and comes again. If of its first contents only emojis and stickers are gone,
nothing else is left over. -/
theorem staleFree_again {size : Nat} {guild again : Guild} {s : State}
    (hown : OwnPayload (new (.all size)) guild .empty) (hagain : OwnPayload (new (.all size)) again .empty)
    (hid : again.id = guild.id) (h : FullSnapshot (new (.all size)) guild .empty s)
    (hchannels : (channelItems guild).map Prod.fst ⊆ (channelItems again).map Prod.fst)
    (hroles : (roleItems guild).map Prod.fst ⊆ (roleItems again).map Prod.fst)
    (hstages : (stageItems guild).map Prod.fst ⊆ (stageItems again).map Prod.fst)
    (hevents : (scheduledEventItems guild).map Prod.fst ⊆ (scheduledEventItems again).map Prod.fst) :
    OwnPayload (new (.all size)) again s ∧ StaleFree (new (.all size)) again s := by
  obtain ⟨hmembers, hchannel, hrole, hemoji, hsticker, hstage, hevent⟩ := hagain
  rw [hid] at hchannel hrole hemoji hsticker hstage hevent
  constructor
  · refine ⟨hmembers, ?_, ?_, ?_, ?_, ?_, ?_⟩ <;> rw [hid]
    · exact h.channels.exclusive hown.channels hchannel
    · exact h.roles.exclusive hown.roles hrole
    · exact h.emojis.exclusive hown.emojis hemoji
    · exact h.stickers.exclusive hown.stickers hsticker
    · exact h.stageInstances.exclusive hown.stageInstances hstage
    · exact h.scheduledEvents.exclusive hown.scheduledEvents hevent
  · constructor <;> rw [hid]
    · exact h.channels.storeFresh hchannels
    · exact ⟨h.roles.indexFresh hroles, h.roles.storeFresh hroles⟩
    · exact ⟨h.emojis.storeListed, h.emojis.skipsIndexed, h.emojis.staleOwn hown.emojis⟩
    · exact ⟨h.stickers.storeListed, h.stickers.skipsIndexed, h.stickers.staleOwn hown.stickers⟩
    · exact ⟨h.stageInstances.indexFresh hstages, h.stageInstances.storeFresh hstages⟩
    · exact ⟨h.scheduledEvents.indexFresh hevents, h.scheduledEvents.storeFresh hevents⟩

/-- Emojis of one user. -/
def guildOfUser (id : Id .guild) (user : User) (roles : List (Id .role)) (emojis : List (Id .emoji)) : Guild :=
  { Guild.bare id user.id with
    roles := roles.map fun id => ⟨id, "role"⟩
    emojis := emojis.map fun id => ⟨false, true, id, false, "wave", true, [], some user⟩ }

theorem ownPayload_guildOfUser {id : Id .guild} {user : User} {roles : List (Id .role)} {emojis : List (Id .emoji)}
    (hroles : roles.Nodup) (hemojis : emojis.Nodup) :
    OwnPayload (new (.all 100)) (guildOfUser id user roles emojis) .empty := by
  have hrole : (roleItems (guildOfUser id user roles emojis)).map Prod.fst = roles := by
    simp [roleItems, guildOfUser, Function.comp_def]
  have hemoji : (emojiItems (guildOfUser id user roles emojis)).map Prod.fst = emojis := by
    simp [emojiItems, emojiItem, guildOfUser, Function.comp_def]
  refine ⟨List.nodup_nil, Indexed.exclusive_nil, ⟨hrole.symm ▸ hroles, ?_, nofun⟩, ⟨hemoji.symm ▸ hemojis, ?_, nofun⟩,
    Indexed.exclusive_nil, Indexed.exclusive_nil, Indexed.exclusive_nil⟩
  · exact List.forall_mem_map.mpr fun _ _ => rfl
  · exact List.forall_mem_map.mpr fun _ _ => rfl

/-- A guild of one role and two emojis is created, and again with two roles and one of the emojis. -/
theorem cacheGuild_fullSnapshot_of_emoji_gone :
    let id : Id .guild := ⟨1, by decide⟩
    let user : User := ⟨⟨7, by decide⟩, "user"⟩
    let first : Guild := guildOfUser id user [⟨2, by decide⟩] [⟨5, by decide⟩, ⟨6, by decide⟩]
    let s := (new (.all 100)).applyEvents [.guildCreate (.available first)] .empty
    let guild : Guild := guildOfUser id user [⟨2, by decide⟩, ⟨4, by decide⟩] [⟨5, by decide⟩]
    (new (.all 100)).Reachable s ∧ (⟨6, by decide⟩ : Id .emoji) ∈ s.sets .guildEmojis guild.id ∧
      ∃ t, ((new (.all 100)).cacheGuild guild).exec eval s = (.ok (), t) ∧
        FullSnapshot (new (.all 100)) guild s t := by
  intro id user first s guild
  refine ⟨⟨_, rfl⟩, by decide, ?_⟩
  have hfirst : OwnPayload (new (.all 100)) first .empty := ownPayload_guildOfUser (by decide) (by decide)
  obtain ⟨t, hexec, hsnapshot⟩ := (cacheGuild_fullSnapshot_iff 100 _ .empty hfirst).mpr
    ⟨⟨fun c _ i hi => by simp [keptKinds, State.kinds, State.empty] at hi, by decide⟩, staleFree_empty 100 _⟩
  obtain rfl : s = t := congrArg Prod.snd hexec
  have hagain : OwnPayload (new (.all 100)) guild .empty := ownPayload_guildOfUser (by decide) (by decide)
  obtain ⟨hown, hstale⟩ : OwnPayload (new (.all 100)) guild s ∧ StaleFree (new (.all 100)) guild s :=
    staleFree_again hfirst hagain rfl hsnapshot (List.nil_subset _) (by decide) (List.nil_subset _) (List.nil_subset _)
  refine (cacheGuild_fullSnapshot_iff 100 guild s hown).mpr ⟨⟨?_, by decide⟩, hstale⟩
  unfold Fits
  decide

/-- A guild with a role is created; the role is deleted unseen, and the guild is created again. -/
theorem cacheGuild_keeps_deleted_role :
    let guild : Guild := .bare ⟨1, by decide⟩ ⟨3, by decide⟩
    let role : Role := ⟨⟨2, by decide⟩, "role"⟩
    let s := (new (.all 100)).applyEvents
      [.guildCreate (.available { guild with roles := [role] })] .empty
    (new (.all 100)).Reachable s ∧ OwnPayload (new (.all 100)) guild s ∧
      ∃ t, ((new (.all 100)).cacheGuild guild).exec eval s = (.ok (), t) ∧
        ¬ FullSnapshot (new (.all 100)) guild s t := by
  intro guild role s
  refine ⟨⟨_, rfl⟩, ownPayload_bare 100 _ _ s, _, rfl, fun h => ?_⟩
  have hlisted := (h.roles.index role.id).mp (by decide)
  exact List.not_mem_nil hlisted

end Tulpje.Cache
