import Tulpje.Cache.Resources

/-!
# Updating the cache with an event

The implementations of `UpdateCache` in `tulpje-cache/src/event`, and their dispatch in `update`. A handler
process runs one update at a time; several processes share one Redis.
-/

namespace Tulpje.Cache

open Twilight Lib

variable (self : Cache)

def channelPinsUpdate (channelId : Id .channel) (lastPinTimestamp : Option Timestamp) :
    CacheM Unit := do
  let channel ← self.channels.get channelId
  channel.forM fun channel => do
    let channel := { channel with lastPinTimestamp }
    let _ ← self.channels.insert channel.id channel
    pure ()

/-! ### Scheduled events -/

def guildScheduledEventDelete (event : GuildScheduledEvent) : CacheM Unit := do
  let _ ← self.scheduledEvents.remove event.id
  let _ ← self.guildScheduledEvents.remove event.guildId event.id
  pure ()

/-- `saturating_add(1)` on a `u64`. -/
def saturatingIncr (count : UInt64) : UInt64 := if count = 0xFFFFFFFFFFFFFFFF then count else count + 1

/-- `saturating_sub(1)` on a `u64`. -/
def saturatingDecr (count : UInt64) : UInt64 := if count = 0 then count else count - 1

/-- The updates for a user that joins or leaves a scheduled event. -/
def guildScheduledEventUser (id : Id .scheduledEvent) (change : UInt64 → UInt64) : CacheM Unit := do
  let event ← self.scheduledEvents.get id
  event.forM fun event => do
    let event := { event with userCount := event.userCount.map change }
    let _ ← self.scheduledEvents.insert id event
    pure ()

def guildScheduledEventUserAdd (id : Id .scheduledEvent) : CacheM Unit :=
  self.guildScheduledEventUser id saturatingIncr

def guildScheduledEventUserRemove (id : Id .scheduledEvent) : CacheM Unit :=
  self.guildScheduledEventUser id saturatingDecr

/-! ### Interactions -/

def interactionCreate (interaction : Interaction) : CacheM Unit := do
  interaction.member.forM fun member => interaction.guildId.forM fun guildId =>
    member.user.forM fun user => do
      self.cacheUser user interaction.guildId
      self.cacheBorrowedPartialMember guildId member user.id
  interaction.user.forM fun user => self.cacheUser user none
  match interaction.data with
  | some (.applicationCommand data) =>
    data.resolved.forM fun resolved => do
      resolved.users.forM fun (_, user) => do
        self.cacheUser user interaction.guildId
        interaction.guildId.forM fun guildId =>
          (resolved.members.lookup user.id).forM fun member =>
            self.cacheBorrowedInteractionMember guildId member user.id
      interaction.guildId.forM fun guildId =>
        self.cacheRoles guildId (resolved.roles.map (·.2))
  | _ => pure ()

/-! ### Members -/

/-- The first step of `MemberAdd` and `MemberRemove`: the guild's member count is read and written back. -/
def changeMemberCount (guildId : Id .guild) (change : UInt64 → UInt64) : CacheM Unit := do
  let guild ← self.guilds.get guildId
  guild.forM fun guild => do
    let guild := { guild with memberCount := guild.memberCount.map change }
    let _ ← self.guilds.insert guild.id guild
    pure ()

def memberAdd (guildId : Id .guild) (member : Member) : CacheM Unit := do
  self.changeMemberCount guildId saturatingIncr
  self.cacheMember guildId member

def memberRemove (guildId : Id .guild) (user : User) : CacheM Unit := do
  self.changeMemberCount guildId saturatingDecr
  let _ ← self.members.remove (guildId, user.id)
  let _ ← self.guildMembers.remove guildId user.id
  let _ ← self.userGuilds.remove user.id guildId
  let empty ← self.userGuilds.isEmpty user.id
  onlyIf (!empty) do
    let _ ← self.users.remove user.id
    pure ()

def memberUpdate (update : MemberUpdate) : CacheM Unit := do
  let key := (update.guildId, update.user.id)
  let member ← self.members.get key
  member.forM fun member => do
    let _ ← self.members.insert key (member.updateWithMemberUpdate update)
    self.cacheUser update.user (some update.guildId)

def memberChunk (guildId : Id .guild) (members : List Member) : CacheM Unit :=
  onlyIf (members ≠ []) (self.cacheMembers guildId members)

/-! ### Messages -/

/-- The first step of `MessageCreate` and `MessageUpdate`. -/
def cacheAuthor (message : Message) : CacheM Unit := do
  self.cacheUser message.author message.guildId
  message.member.forM fun member => message.guildId.forM fun guildId =>
    self.cacheBorrowedPartialMember guildId member message.author.id

/-- Puts a message id in front of its channel's list, after the oldest one had to make room. -/
def pushMessage (message : Message) : CacheM Unit := do
  let channelMessages ← self.channelMessages.get message.channelId
  let channelMessages := channelMessages.getD []
  let full := decide (channelMessages.length ≥ self.config.messageCacheSize)
  let popped := if full then channelMessages.getLast? else none
  popped.forM fun poppedId => do
    let _ ← self.messages.remove poppedId
    pure ()
  let rest := if full then channelMessages.dropLast else channelMessages
  let _ ← self.channelMessages.insert message.channelId (message.id :: rest)
  pure ()

def messageCreate (message : Message) : CacheM Unit := do
  self.cacheAuthor message
  self.pushMessage message
  let _ ← self.messages.insert message.id (.fromMessage message)
  pure ()

def messageDelete (channelId : Id .channel) (id : Id .message) : CacheM Unit := do
  let _ ← self.messages.remove id
  let channelMessages ← self.channelMessages.get channelId
  let channelMessages := channelMessages.getD []
  onlyIf (channelMessages.contains id) do
    let _ ← self.channelMessages.insert channelId (channelMessages.erase id)
    pure ()

def messageDeleteBulk (channelId : Id .channel) (ids : List (Id .message)) : CacheM Unit := do
  let channelMessages ← self.channelMessages.get channelId
  let channelMessages := channelMessages.getD []
  let _ ← self.messages.removeMulti ids.toFinset
  let _ ← self.channelMessages.insert channelId (ids.foldl List.erase channelMessages)
  pure ()

def messageUpdate (message : Message) : CacheM Unit := do
  self.cacheAuthor message
  let added ← self.messages.insert message.id (.fromMessage message)
  -- a message that was still in the cache is in its channel's list
  onlyIf added (self.pushMessage message)

/-! ### Reactions -/

/-- `iter_mut().find(p)` followed by a change of the element found. -/
def updateFirst {α : Type} (p : α → Bool) (f : α → α) : List α → List α
  | [] => []
  | a :: rest => if p a then f a :: rest else a :: updateFirst p f rest

def isCurrentUser (userId : Id .user) : CacheM Bool := do
  let currentUser ← self.currentUser.get
  return currentUser.any (·.id == userId)

def reactionAdd (reaction : GatewayReaction) : CacheM Unit := do
  let message ← self.messages.get reaction.messageId
  message.forM fun message => do
    let same := fun r : Reaction => reactionsEq r.emoji reaction.emoji
    let reactions ← match message.reactions.find? same with
      | some found => do
        let me ← if found.me then pure true else self.isCurrentUser reaction.userId
        pure (updateFirst same (fun r => { r with me, count := r.count + 1 }) message.reactions)
      | none => do
        let me ← self.isCurrentUser reaction.userId
        pure (message.reactions ++ [⟨[], 1, ⟨0, 1⟩, reaction.emoji, me, false⟩])
    let _ ← self.messages.insert message.id { message with reactions }
    pure ()

def reactionRemove (reaction : GatewayReaction) : CacheM Unit := do
  let message ← self.messages.get reaction.messageId
  message.forM fun message => do
    let same := fun r : Reaction => reactionsEq r.emoji reaction.emoji
    let reactions ← match message.reactions.find? same with
      | some found => do
        let isCurrent ← if found.me then self.isCurrentUser reaction.userId else pure false
        let me := found.me && !isCurrent
        pure <| if found.count > 1 then
          updateFirst same (fun r => { r with me, count := r.count - 1 }) message.reactions
        else
          message.reactions.filter fun r => !same r
      | none => pure message.reactions
    let _ ← self.messages.insert message.id { message with reactions }
    pure ()

def reactionRemoveAll (messageId : Id .message) : CacheM Unit := do
  let message ← self.messages.get messageId
  message.forM fun message => do
    let _ ← self.messages.insert message.id { message with reactions := [] }
    pure ()

def reactionRemoveEmoji (messageId : Id .message) (emoji : EmojiReactionType) : CacheM Unit := do
  let message ← self.messages.get messageId
  message.forM fun message => do
    let reactions := message.reactions.eraseP fun r => reactionsEq r.emoji emoji
    let _ ← self.messages.insert message.id { message with reactions }
    pure ()

/-! ### Dispatch -/

def ready (ready : Ready) : CacheM Unit := do
  self.cacheCurrentUser ready.user
  ready.guilds.forM fun guild => self.unavailableGuild guild.id

def voiceStateUpdate (voiceState : VoiceState) : CacheM Unit := do
  self.cacheVoiceState voiceState
  voiceState.guildId.forM fun guildId => voiceState.member.forM fun member =>
    self.cacheMember guildId member

/-- `Cache::update` on the events of the gateway. -/
def update : Event → CacheM Unit
  | .channelCreate channel => self.cacheChannel channel
  | .channelDelete channel => self.deleteChannel channel.id
  | .channelPinsUpdate channelId lastPinTimestamp => self.channelPinsUpdate channelId lastPinTimestamp
  | .channelUpdate channel => self.cacheChannel channel
  | .guildCreate (.available guild) => self.cacheGuild guild
  | .guildCreate (.unavailable guild) => self.unavailableGuild guild.id
  | .guildDelete guild => self.deleteGuild guild.id false
  | .guildEmojisUpdate guildId emojis => self.cacheEmojis guildId emojis
  | .guildStickersUpdate guildId stickers => self.cacheStickers guildId stickers
  | .guildUpdate guild => self.updateGuild guild
  | .guildScheduledEventCreate event => self.cacheGuildScheduledEvent event.guildId event
  | .guildScheduledEventDelete event => self.guildScheduledEventDelete event
  | .guildScheduledEventUpdate event => self.cacheGuildScheduledEvent event.guildId event
  | .guildScheduledEventUserAdd id => self.guildScheduledEventUserAdd id
  | .guildScheduledEventUserRemove id => self.guildScheduledEventUserRemove id
  | .integrationCreate integration =>
    integration.guildId.forM fun guildId => self.cacheIntegration guildId integration
  | .integrationDelete guildId id => self.deleteIntegration guildId id
  | .integrationUpdate integration =>
    integration.guildId.forM fun guildId => self.cacheIntegration guildId integration
  | .interactionCreate interaction => self.interactionCreate interaction
  | .memberAdd guildId member => self.memberAdd guildId member
  | .memberRemove guildId user => self.memberRemove guildId user
  | .memberUpdate update => self.memberUpdate update
  | .memberChunk guildId members => self.memberChunk guildId members
  | .messageCreate message => self.messageCreate message
  | .messageDelete channelId id => self.messageDelete channelId id
  | .messageDeleteBulk channelId ids => self.messageDeleteBulk channelId ids
  | .messageUpdate message => self.messageUpdate message
  | .presenceUpdate presence => self.cachePresence presence.guildId presence
  | .reactionAdd reaction => self.reactionAdd reaction
  | .reactionRemove reaction => self.reactionRemove reaction
  | .reactionRemoveAll messageId => self.reactionRemoveAll messageId
  | .reactionRemoveEmoji messageId emoji => self.reactionRemoveEmoji messageId emoji
  | .ready ready => self.ready ready
  | .roleCreate guildId role => self.cacheRole guildId role
  | .roleDelete guildId roleId => self.deleteRole guildId roleId
  | .roleUpdate guildId role => self.cacheRole guildId role
  | .stageInstanceCreate stageInstance =>
    self.cacheStageInstance stageInstance.guildId stageInstance
  | .stageInstanceDelete stageInstance =>
    self.deleteStageInstance stageInstance.guildId stageInstance.id
  | .stageInstanceUpdate stageInstance =>
    self.cacheStageInstance stageInstance.guildId stageInstance
  | .threadCreate thread => self.cacheChannel thread
  | .threadUpdate thread => self.cacheChannel thread
  | .threadDelete id => self.deleteChannel id
  | .threadListSync threads => self.cacheChannels threads
  | .unavailableGuild guild => self.unavailableGuild guild.id
  | .userUpdate user => self.cacheCurrentUser user
  | .voiceStateUpdate voiceState => self.voiceStateUpdate voiceState
  | .ignored => pure ()

/-- One event after the other; an update that fails keeps what it wrote and the next event is handled. -/
def applyEvents (events : List Event) (s : State) : State :=
  events.foldl (fun s event => ((self.update event).exec eval s).2) s

/-- The states that sequences of events reach from the empty store. -/
def Reachable (s : State) : Prop := ∃ events, self.applyEvents events .empty = s

end Tulpje.Cache
