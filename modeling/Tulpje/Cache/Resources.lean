import Tulpje.Cache.Repository

/-!
# Caching and deleting resources

The methods of `Cache` in `tulpje-cache/src/models`, one for each kind of resource. Every repository call
is one command; the order of the calls is that of the source.
-/

namespace Tulpje.Cache

open Twilight Lib

variable (self : Cache)

/-- `if cond { p }`. -/
def onlyIf (cond : Bool) (p : CacheM Unit) : CacheM Unit := if cond then p else pure ()

/-! ### Users -/

/-- The branch for a user that is cached already and the other one both end with `user_guilds`. -/
def cacheUser (user : CachedUser) (guildId : Option (Id .guild)) : CacheM Unit := do
  let cachedUser ← self.users.get user.id
  onlyIf (cachedUser ≠ some user) do
    let _ ← self.users.insert user.id user
    pure ()
  guildId.forM fun guildId => do
    let _ ← self.userGuilds.insert user.id guildId
    pure ()

def cacheCurrentUser (user : CurrentUser) : CacheM Unit := self.currentUser.set user

/-! ### Channels -/

def cacheChannel (channel : Channel) : CacheM Unit := do
  channel.guildId.forM fun guildId => do
    let _ ← self.guildChannels.insert guildId channel.id
    pure ()
  let _ ← self.channels.insert channel.id channel
  pure ()

def cacheChannels (channels : List Channel) : CacheM Unit := channels.forM self.cacheChannel

def deleteChannel (channelId : Id .channel) : CacheM Unit := do
  let channel ← self.channels.get channelId
  channel.forM fun channel => channel.guildId.forM fun guildId => do
    let _ ← self.guildChannels.remove guildId channel.id
    pure ()
  let _ ← self.channels.remove channelId
  pure ()

/-! ### Roles, stage instances, scheduled events, integrations -/

def cacheRole (guildId : Id .guild) (role : Role) : CacheM Unit := do
  let _ ← self.guildRoles.insert guildId role.id
  let _ ← self.roles.insert role.id ⟨guildId, role⟩
  pure ()

def cacheRoles (guildId : Id .guild) (roles : List Role) : CacheM Unit :=
  roles.forM (self.cacheRole guildId)

def deleteRole (guildId : Id .guild) (roleId : Id .role) : CacheM Unit := do
  let _ ← self.roles.remove roleId
  let _ ← self.guildRoles.remove guildId roleId
  pure ()

def cacheStageInstance (guildId : Id .guild) (stageInstance : StageInstance) : CacheM Unit := do
  let _ ← self.guildStageInstances.insert guildId stageInstance.id
  let _ ← self.stageInstances.insert stageInstance.id ⟨guildId, stageInstance⟩
  pure ()

def cacheStageInstances (guildId : Id .guild) (stageInstances : List StageInstance) : CacheM Unit :=
  stageInstances.forM (self.cacheStageInstance guildId)

def deleteStageInstance (guildId : Id .guild) (stageId : Id .stage) : CacheM Unit := do
  let _ ← self.stageInstances.remove stageId
  let _ ← self.guildStageInstances.remove guildId stageId
  pure ()

def cacheGuildScheduledEvent (guildId : Id .guild) (event : GuildScheduledEvent) : CacheM Unit := do
  let _ ← self.guildScheduledEvents.insert guildId event.id
  let _ ← self.scheduledEvents.insert event.id event
  pure ()

def cacheGuildScheduledEvents (guildId : Id .guild) (events : List GuildScheduledEvent) :
    CacheM Unit := events.forM (self.cacheGuildScheduledEvent guildId)

def cacheIntegration (guildId : Id .guild) (integration : GuildIntegration) : CacheM Unit := do
  let _ ← self.guildIntegrations.insert guildId integration.id
  let _ ← self.integrations.insert (guildId, integration.id) ⟨guildId, integration⟩
  pure ()

def deleteIntegration (guildId : Id .guild) (integrationId : Id .integration) : CacheM Unit := do
  let _ ← self.integrations.remove (guildId, integrationId)
  let _ ← self.guildIntegrations.remove guildId integrationId
  pure ()

/-! ### Emojis and stickers -/

def cacheEmoji (guildId : Id .guild) (emoji : Emoji) : CacheM Unit := do
  emoji.user.forM fun user => self.cacheUser user (some guildId)
  let cachedEmoji ← self.emojis.get emoji.id
  onlyIf (!cachedEmoji.any (·.value.eqEmoji emoji)) do
    let _ ← self.emojis.insert emoji.id ⟨guildId, .fromEmoji emoji⟩
    let _ ← self.guildEmojis.insert guildId emoji.id
    pure ()

def cacheEmojis (guildId : Id .guild) (emojis : List Emoji) : CacheM Unit := do
  let guildEmojis ← self.guildEmojis.members guildId
  onlyIf (guildEmojis ≠ ∅) do
    let incoming := emojis.map (·.id)
    let removalFilter := guildEmojis.filter (· ∉ incoming)
    let _ ← self.guildEmojis.removeMulti guildId removalFilter
    let _ ← self.emojis.removeMulti removalFilter
    pure ()
  emojis.forM (self.cacheEmoji guildId)

def cacheSticker (guildId : Id .guild) (sticker : Sticker) : CacheM Unit := do
  let cachedSticker ← self.stickers.get sticker.id
  onlyIf (!cachedSticker.any (·.value.eqSticker sticker)) do
    sticker.user.forM fun user => self.cacheUser user (some guildId)
    let _ ← self.guildStickers.insert guildId sticker.id
    let _ ← self.stickers.insert sticker.id ⟨guildId, .fromSticker sticker⟩
    pure ()

def cacheStickers (guildId : Id .guild) (stickers : List Sticker) : CacheM Unit := do
  let guildStickers ← self.guildStickers.members guildId
  onlyIf (guildStickers ≠ ∅) do
    let incoming := stickers.map (·.id)
    let removalFilter := guildStickers.filter (· ∉ incoming)
    let _ ← self.guildStickers.removeMulti guildId removalFilter
    let _ ← self.stickers.removeMulti removalFilter
    pure ()
  stickers.forM (self.cacheSticker guildId)

/-! ### Members and presences -/

def cacheMember (guildId : Id .guild) (member : Member) : CacheM Unit := do
  let memberId := member.user.id
  let id := (guildId, memberId)
  let cachedMember ← self.members.get id
  onlyIf (!cachedMember.any (·.eqMember member)) do
    self.cacheUser member.user (some guildId)
    let _ ← self.members.insert id (.fromMember member)
    let _ ← self.guildMembers.insert guildId memberId
    pure ()

def cacheMembers (guildId : Id .guild) (members : List Member) : CacheM Unit :=
  members.forM (self.cacheMember guildId)

def cacheBorrowedPartialMember (guildId : Id .guild) (member : PartialMember) (userId : Id .user) :
    CacheM Unit := do
  let id := (guildId, userId)
  let cachedMember ← self.members.get id
  onlyIf (!cachedMember.any (·.eqPartialMember member)) do
    let _ ← self.guildMembers.insert guildId userId
    let _ ← self.members.insert id (.fromPartialMember userId member)
    pure ()

def cacheBorrowedInteractionMember (guildId : Id .guild) (member : InteractionMember)
    (userId : Id .user) : CacheM Unit := do
  let id := (guildId, userId)
  let cachedMember ← self.members.get id
  onlyIf (!cachedMember.any (·.eqInteractionMember member)) do
    let avatar := cachedMember.bind (·.avatar)
    let deaf := cachedMember.bind (·.deaf)
    let mute := cachedMember.bind (·.mute)
    let _ ← self.guildMembers.insert guildId userId
    let cached := CachedMember.fromComputedInteractionMember ⟨avatar, deaf, member, mute, userId⟩
    let _ ← self.members.insert id cached
    pure ()

def cachePresence (guildId : Id .guild) (presence : Presence) : CacheM Unit := do
  let _ ← self.guildPresences.insert guildId presence.user.id
  let _ ← self.presences.insert (guildId, presence.user.id) (.fromPresence presence)
  pure ()

def cachePresences (guildId : Id .guild) (presences : List Presence) : CacheM Unit :=
  presences.forM (self.cachePresence guildId)

/-! ### Voice states -/

def cacheVoiceState (voiceState : VoiceState) : CacheM Unit :=
  voiceState.guildId.forM fun guildId => do
    let userId := voiceState.userId
    let previous ← self.voiceStates.get (guildId, userId)
    previous.forM fun previous => do
      let _ ← self.voiceStateChannels.remove previous.channelId (guildId, userId)
      pure ()
    match voiceState.channelId with
    | some channelId =>
      let cachedVoiceState := CachedVoiceState.fromVoiceState channelId guildId voiceState
      let _ ← self.voiceStates.insert (guildId, userId) cachedVoiceState
      let _ ← self.voiceStateGuilds.insert guildId userId
      let _ ← self.voiceStateChannels.insert channelId (guildId, userId)
      pure ()
    | none =>
      -- the user has left
      let _ ← self.voiceStateGuilds.remove guildId userId
      let _ ← self.voiceStates.remove (guildId, userId)
      pure ()

def cacheVoiceStates (voiceStates : List VoiceState) : CacheM Unit :=
  voiceStates.forM self.cacheVoiceState

/-! ### Guilds -/

/-- `remove_ids` in `delete_guild`: the entries of a guild's index go, the index itself stays. -/
def removeIds {n : SetName} {h : HashName} {V : Type} (guildMap : MappedSetRepository n)
    (container : Repository h n.Elem V) (guildId : n.Key) : CacheM Unit := do
  let ids ← guildMap.members guildId
  let _ ← container.removeMulti ids
  pure ()

/-- The first step of `delete_guild`: the record of a guild in an outage is marked. -/
def deleteGuildRecord (guildId : Id .guild) : (unavailable : Bool) → CacheM Unit
  | true => do
    let guild ← self.guilds.get guildId
    guild.forM fun guild => do
      let _ ← self.guilds.insert guildId { guild with unavailable := some true }
      pure ()
  | false => do
    let _ ← self.guilds.remove guildId
    pure ()

def deleteGuild (guildId : Id .guild) (unavailable : Bool) : CacheM Unit := do
  self.deleteGuildRecord guildId unavailable
  removeIds self.guildChannels self.channels guildId
  removeIds self.guildEmojis self.emojis guildId
  removeIds self.guildRoles self.roles guildId
  removeIds self.guildStickers self.stickers guildId
  let _ ← self.voiceStateGuilds.clear guildId
  let members ← self.guildMembers.members guildId
  let membersToRemove := members.image fun userId => (guildId, userId)
  let _ ← self.members.removeMulti membersToRemove
  let _ ← self.guildMembers.clear guildId
  let presences ← self.guildPresences.members guildId
  let presencesToRemove := presences.image fun userId => (guildId, userId)
  let _ ← self.presences.removeMulti presencesToRemove
  let _ ← self.guildPresences.clear guildId
  pure ()

def unavailableGuild (guildId : Id .guild) : CacheM Unit := do
  let _ ← self.unavailableGuilds.insert guildId
  self.deleteGuild guildId true

def cacheGuild (guild : Guild) : CacheM Unit := do
  -- we have the full guild so clear existing channels
  let _ ← self.guildChannels.clear guild.id
  self.cacheChannels (guild.channels.map fun channel => { channel with guildId := some guild.id })
  self.cacheChannels (guild.threads.map fun thread => { thread with guildId := some guild.id })
  self.cacheEmojis guild.id guild.emojis
  self.cacheMembers guild.id guild.members
  self.cachePresences guild.id guild.presences
  self.cacheRoles guild.id guild.roles
  self.cacheStickers guild.id guild.stickers
  self.cacheVoiceStates guild.voiceStates
  self.cacheStageInstances guild.id guild.stageInstances
  self.cacheGuildScheduledEvents guild.id guild.guildScheduledEvents
  let _ ← self.unavailableGuilds.remove guild.id
  let _ ← self.guilds.insert guild.id (.fromGuild guild)
  pure ()

def updateGuild (guildUpdate : GuildUpdate) : CacheM Unit := do
  let guild ← self.guilds.get guildUpdate.id
  guild.forM fun guild => do
    let guild := guild.updateWithGuildUpdate guildUpdate
    let _ ← self.guilds.insert guild.id guild
    pure ()

/-! ### What the methods touch -/

/-- The areas of `cache_user` when the users have this name. -/
def UsersName.areas (name : UsersName) : List Area := [.hash name.hash, .set .userGuilds]

section Touches
variable {self} {areas : List Area} {fails : Prop}

theorem touches_onlyIf {cond : Bool} {p : CacheM Unit} (hp : Touches areas fails p) :
    Touches areas fails (onlyIf cond p) := by
  cases cond
  · exact Touches.pure _
  · exact hp

theorem touches_forM {α : Type} {o : Option α} {p : α → CacheM PUnit} (hp : ∀ a, Touches areas fails (p a)) :
    Touches areas fails (o.forM p) := by
  cases o with
  | none => exact Touches.pure _
  | some a => exact hp a

section Family
variable {h : HashName} {n : SetName} {K V : Type} {repository : Repository h K V} {index : MappedSetRepository n}
  {key : n.Key} {elem : n.Elem} {id : K}

theorem touches_listAndStore {value : V} : Touches [.hash h, .set n] fails (do
    let _ ← index.insert key elem
    let _ ← repository.insert id value
    pure ()) := by
  refine (MappedSetRepository.touches_insert _ (List.mem_cons_of_mem _ List.mem_cons_self) _).bind fun _ => ?_
  exact (Repository.touches_insert List.mem_cons_self _ _).bind fun _ => Touches.pure _

theorem touches_removeAndUnlist : Touches [.hash h, .set n] fails (do
    let _ ← repository.remove id
    let _ ← index.remove key elem
    pure ()) := by
  refine (Repository.touches_remove List.mem_cons_self _).bind fun _ => ?_
  exact (MappedSetRepository.touches_remove _ (List.mem_cons_of_mem _ List.mem_cons_self) _).bind fun _ =>
    Touches.pure _

end Family

theorem touches_cacheUser_own (user : CachedUser) (guildId : Option (Id .guild)) :
    Touches self.usersName.areas True (self.cacheUser user guildId) := by
  have husers : .hash self.usersName.hash ∈ self.usersName.areas := List.mem_cons_self
  have hguilds : .set .userGuilds ∈ self.usersName.areas := List.mem_cons_of_mem _ List.mem_cons_self
  refine (Repository.touches_get husers (.inr trivial) _).bind fun _ => ?_
  refine (touches_onlyIf ?_).bind fun _ => touches_forM fun _ => ?_
  · exact (Repository.touches_insert husers _ _).bind fun _ => Touches.pure _
  · exact (MappedSetRepository.touches_insert _ hguilds _).bind fun _ => Touches.pure _

/-- The areas of `cache_user`: the users are in one of the two hashes. -/
def userAreas : List Area := [.hash .emojis, .hash .users, .set .userGuilds]

theorem touches_cacheUser (user : CachedUser) (guildId : Option (Id .guild)) :
    Touches userAreas True (self.cacheUser user guildId) := by
  refine (touches_cacheUser_own user guildId).mono ?_
  cases self.usersName <;> decide

theorem touches_cacheChannel (channel : Channel) :
    Touches [.hash .channels, .set .guildChannels] fails (self.cacheChannel channel) := by
  refine (touches_forM fun _ => ?_).bind fun _ => ?_
  · exact (MappedSetRepository.touches_insert _ (by decide) _).bind fun _ => Touches.pure _
  · exact (Repository.touches_insert (by decide) _ _).bind fun _ => Touches.pure _

theorem touches_cacheChannels (channels : List Channel) :
    Touches [.hash .channels, .set .guildChannels] fails (self.cacheChannels channels) :=
  Touches.forM touches_cacheChannel

theorem touches_deleteChannel (channelId : Id .channel) :
    Touches [.hash .channels, .set .guildChannels] fails (self.deleteChannel channelId) := by
  refine (Repository.touches_get (by decide) (.inl Option.some_ne_none) _).bind fun _ => ?_
  refine (touches_forM fun _ => touches_forM fun _ => ?_).bind fun _ => ?_
  · exact (MappedSetRepository.touches_remove _ (by decide) _).bind fun _ => Touches.pure _
  · exact (Repository.touches_remove (by decide) _).bind fun _ => Touches.pure _

theorem touches_cacheRole (guildId : Id .guild) (role : Role) :
    Touches [.hash .roles, .set .guildRoles] fails (self.cacheRole guildId role) :=
  touches_listAndStore

theorem touches_cacheRoles (guildId : Id .guild) (roles : List Role) :
    Touches [.hash .roles, .set .guildRoles] fails (self.cacheRoles guildId roles) :=
  Touches.forM (touches_cacheRole guildId)

theorem touches_deleteRole (guildId : Id .guild) (roleId : Id .role) :
    Touches [.hash .roles, .set .guildRoles] fails (self.deleteRole guildId roleId) :=
  touches_removeAndUnlist

theorem touches_cacheStageInstance (guildId : Id .guild) (stageInstance : StageInstance) :
    Touches [.hash .stageInstances, .set .guildStageInstances] fails
      (self.cacheStageInstance guildId stageInstance) :=
  touches_listAndStore

theorem touches_cacheStageInstances (guildId : Id .guild) (stageInstances : List StageInstance) :
    Touches [.hash .stageInstances, .set .guildStageInstances] fails
      (self.cacheStageInstances guildId stageInstances) :=
  Touches.forM (touches_cacheStageInstance guildId)

theorem touches_deleteStageInstance (guildId : Id .guild) (stageId : Id .stage) :
    Touches [.hash .stageInstances, .set .guildStageInstances] fails
      (self.deleteStageInstance guildId stageId) :=
  touches_removeAndUnlist

theorem touches_cacheGuildScheduledEvent (guildId : Id .guild) (event : GuildScheduledEvent) :
    Touches [.hash .scheduledEvents, .set .guildScheduledEvents] fails
      (self.cacheGuildScheduledEvent guildId event) :=
  touches_listAndStore

theorem touches_cacheGuildScheduledEvents (guildId : Id .guild) (events : List GuildScheduledEvent) :
    Touches [.hash .scheduledEvents, .set .guildScheduledEvents] fails
      (self.cacheGuildScheduledEvents guildId events) :=
  Touches.forM (touches_cacheGuildScheduledEvent guildId)

theorem touches_cacheIntegration (guildId : Id .guild) (integration : GuildIntegration) :
    Touches [.hash .integrations, .set .guildIntegrations] fails
      (self.cacheIntegration guildId integration) :=
  touches_listAndStore

theorem touches_deleteIntegration (guildId : Id .guild) (integrationId : Id .integration) :
    Touches [.hash .integrations, .set .guildIntegrations] fails
      (self.deleteIntegration guildId integrationId) :=
  touches_removeAndUnlist

theorem touches_cacheEmoji_own (guildId : Id .guild) (emoji : Emoji) :
    Touches (.hash .emojis :: .set .guildEmojis :: self.usersName.areas) True
      (self.cacheEmoji guildId emoji) := by
  have hsub : self.usersName.areas ⊆ .hash .emojis :: .set .guildEmojis :: self.usersName.areas :=
    fun _ h => List.mem_cons_of_mem _ (List.mem_cons_of_mem _ h)
  have hset : .set .guildEmojis ∈ .hash .emojis :: .set .guildEmojis :: self.usersName.areas :=
    List.mem_cons_of_mem _ List.mem_cons_self
  refine (touches_forM fun user => ?_).bind fun _ => ?_
  · exact (touches_cacheUser_own user _).mono hsub
  · refine (Repository.touches_get List.mem_cons_self (.inr trivial) _).bind fun _ => touches_onlyIf ?_
    refine (Repository.touches_insert List.mem_cons_self _ _).bind fun _ => ?_
    exact (MappedSetRepository.touches_insert _ hset _).bind fun _ => Touches.pure _

theorem touches_cacheEmoji (guildId : Id .guild) (emoji : Emoji) :
    Touches (.set .guildEmojis :: userAreas) True (self.cacheEmoji guildId emoji) := by
  refine (touches_cacheEmoji_own guildId emoji).mono ?_
  cases self.usersName <;> decide

theorem touches_cacheSticker_own (guildId : Id .guild) (sticker : Sticker) :
    Touches (.hash .stickers :: .set .guildStickers :: self.usersName.areas) True
      (self.cacheSticker guildId sticker) := by
  have hsub : self.usersName.areas ⊆ .hash .stickers :: .set .guildStickers :: self.usersName.areas :=
    fun _ h => List.mem_cons_of_mem _ (List.mem_cons_of_mem _ h)
  have hset : .set .guildStickers ∈ .hash .stickers :: .set .guildStickers :: self.usersName.areas :=
    List.mem_cons_of_mem _ List.mem_cons_self
  refine (Repository.touches_get List.mem_cons_self (.inr trivial) _).bind fun _ => touches_onlyIf ?_
  refine (touches_forM fun user => ?_).bind fun _ => ?_
  · exact (touches_cacheUser_own user _).mono hsub
  · refine (MappedSetRepository.touches_insert _ hset _).bind fun _ => ?_
    exact (Repository.touches_insert List.mem_cons_self _ _).bind fun _ => Touches.pure _

theorem touches_cacheSticker (guildId : Id .guild) (sticker : Sticker) :
    Touches (.hash .stickers :: .set .guildStickers :: userAreas) True
      (self.cacheSticker guildId sticker) := by
  refine (touches_cacheSticker_own guildId sticker).mono ?_
  cases self.usersName <;> decide

/-- The areas of the methods that cache a member. -/
def memberAreas (users : List Area) : List Area := .hash .members :: .set .guildMembers :: users

theorem hash_members_mem (users : List Area) : .hash .members ∈ memberAreas users := List.mem_cons_self

theorem set_guildMembers_mem (users : List Area) : .set .guildMembers ∈ memberAreas users :=
  List.mem_cons_of_mem _ List.mem_cons_self

theorem subset_memberAreas (users : List Area) : users ⊆ memberAreas users :=
  fun _ h => List.mem_cons_of_mem _ (List.mem_cons_of_mem _ h)

theorem touches_cacheMember_own (guildId : Id .guild) (member : Member) :
    Touches (memberAreas self.usersName.areas) True (self.cacheMember guildId member) := by
  refine (Repository.touches_get (hash_members_mem _) (.inr trivial) _).bind fun _ => touches_onlyIf ?_
  refine ((touches_cacheUser_own _ _).mono (subset_memberAreas _)).bind fun _ => ?_
  refine (Repository.touches_insert (hash_members_mem _) _ _).bind fun _ => ?_
  exact (MappedSetRepository.touches_insert _ (set_guildMembers_mem _) _).bind fun _ => Touches.pure _

theorem touches_cacheMember (guildId : Id .guild) (member : Member) :
    Touches (.hash .members :: .set .guildMembers :: userAreas) True (self.cacheMember guildId member) := by
  refine (touches_cacheMember_own guildId member).mono ?_
  cases self.usersName <;> decide

theorem touches_cacheBorrowedPartialMember (users : List Area) (guildId : Id .guild)
    (member : PartialMember) (userId : Id .user) :
    Touches (memberAreas users) fails (self.cacheBorrowedPartialMember guildId member userId) := by
  refine (Repository.touches_get (hash_members_mem _) (.inl Option.some_ne_none) _).bind fun _ =>
    touches_onlyIf ?_
  refine (MappedSetRepository.touches_insert _ (set_guildMembers_mem _) _).bind fun _ => ?_
  exact (Repository.touches_insert (hash_members_mem _) _ _).bind fun _ => Touches.pure _

theorem touches_cacheBorrowedInteractionMember (users : List Area) (guildId : Id .guild)
    (member : InteractionMember) (userId : Id .user) :
    Touches (memberAreas users) fails (self.cacheBorrowedInteractionMember guildId member userId) := by
  refine (Repository.touches_get (hash_members_mem _) (.inl Option.some_ne_none) _).bind fun _ =>
    touches_onlyIf ?_
  refine (MappedSetRepository.touches_insert _ (set_guildMembers_mem _) _).bind fun _ => ?_
  exact (Repository.touches_insert (hash_members_mem _) _ _).bind fun _ => Touches.pure _

theorem touches_cachePresence (guildId : Id .guild) (presence : Presence) :
    Touches [.hash .presences, .set .guildPresences] fails (self.cachePresence guildId presence) :=
  touches_listAndStore

theorem touches_cachePresences (guildId : Id .guild) (presences : List Presence) :
    Touches [.hash .presences, .set .guildPresences] fails (self.cachePresences guildId presences) :=
  Touches.forM (touches_cachePresence guildId)

theorem touches_cacheVoiceState (voiceState : VoiceState) :
    Touches [.hash .voiceStates, .set .voiceStateChannels, .set .voiceStateGuilds] fails
      (self.cacheVoiceState voiceState) := by
  refine touches_forM fun guildId => ?_
  refine (Repository.touches_get (by decide) (.inl Option.some_ne_none) _).bind fun _ => ?_
  refine (touches_forM fun _ => ?_).bind fun _ => ?_
  · exact (MappedSetRepository.touches_remove _ (by decide) _).bind fun _ => Touches.pure _
  · cases voiceState.channelId with
    | some channelId =>
      refine (Repository.touches_insert (by decide) _ _).bind fun _ => ?_
      refine (MappedSetRepository.touches_insert _ (by decide) _).bind fun _ => ?_
      exact (MappedSetRepository.touches_insert _ (by decide) _).bind fun _ => Touches.pure _
    | none =>
      refine (MappedSetRepository.touches_remove _ (by decide) _).bind fun _ => ?_
      exact (Repository.touches_remove (by decide) _).bind fun _ => Touches.pure _

theorem touches_cacheVoiceStates (voiceStates : List VoiceState) :
    Touches [.hash .voiceStates, .set .voiceStateChannels, .set .voiceStateGuilds] fails
      (self.cacheVoiceStates voiceStates) := Touches.forM touches_cacheVoiceState

end Touches

end Tulpje.Cache
