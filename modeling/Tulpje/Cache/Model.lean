import Tulpje.Twilight.Model

/-!
# Cached records

The value types of `tulpje-cache/src/models` with their conversions from gateway payloads, their partial
updates and their comparisons with payloads. `CachedChannel`, `CachedRole`, `CachedUser`,
`CachedCurrentUser`, `CachedStageInstance`, `CachedGuildScheduledEvent` and `CachedGuildIntegration`
are the gateway types themselves.
-/

namespace Tulpje.Cache

open Twilight

abbrev CachedChannel := Channel
abbrev CachedRole := Role
abbrev CachedUser := User
abbrev CachedCurrentUser := CurrentUser
abbrev CachedStageInstance := StageInstance
abbrev CachedGuildScheduledEvent := GuildScheduledEvent
abbrev CachedGuildIntegration := GuildIntegration

/-- A value that is stored together with its guild. -/
structure GuildResource (T : Type) where
  guildId : Id .guild
  value : T
  deriving DecidableEq

/-! ### Guilds -/

/-- The guild as it is cached: its channels, roles and so on are in repositories of their own. -/
structure CachedGuild where
  afkChannelId : Option (Id .channel)
  afkTimeout : UInt16
  applicationId : Option (Id .application)
  banner : Option ImageHash
  defaultMessageNotifications : UInt8
  description : Option String
  discoverySplash : Option ImageHash
  explicitContentFilter : UInt8
  features : List String
  icon : Option ImageHash
  id : Id .guild
  joinedAt : Option Timestamp
  large : Bool
  maxMembers : Option UInt64
  maxPresences : Option UInt64
  maxVideoChannelUsers : Option UInt64
  memberCount : Option UInt64
  mfaLevel : UInt8
  name : String
  nsfwLevel : UInt8
  ownerId : Id .user
  owner : Option Bool
  permissions : Option Permissions
  preferredLocale : String
  premiumProgressBarEnabled : Bool
  premiumSubscriptionCount : Option UInt64
  premiumTier : UInt8
  publicUpdatesChannelId : Option (Id .channel)
  rulesChannelId : Option (Id .channel)
  safetyAlertsChannelId : Option (Id .channel)
  splash : Option ImageHash
  systemChannelId : Option (Id .channel)
  systemChannelFlags : UInt64
  unavailable : Option Bool
  vanityUrlCode : Option String
  verificationLevel : UInt8
  widgetChannelId : Option (Id .channel)
  widgetEnabled : Option Bool

namespace CachedGuild

/-- The member count, and what only a full guild carries, stay as they were. -/
def updateWithGuildUpdate (self : CachedGuild) (guildUpdate : GuildUpdate) : CachedGuild :=
  { self with
    afkChannelId := guildUpdate.afkChannelId
    afkTimeout := guildUpdate.afkTimeout
    banner := guildUpdate.banner
    defaultMessageNotifications := guildUpdate.defaultMessageNotifications
    description := guildUpdate.description
    features := guildUpdate.features
    icon := guildUpdate.icon
    maxMembers := guildUpdate.maxMembers
    maxPresences := some (guildUpdate.maxPresences.getD 25000)
    mfaLevel := guildUpdate.mfaLevel
    name := guildUpdate.name
    nsfwLevel := guildUpdate.nsfwLevel
    owner := guildUpdate.owner
    ownerId := guildUpdate.ownerId
    permissions := guildUpdate.permissions
    preferredLocale := guildUpdate.preferredLocale
    premiumTier := guildUpdate.premiumTier
    premiumSubscriptionCount := some (guildUpdate.premiumSubscriptionCount.getD 0)
    splash := guildUpdate.splash
    systemChannelId := guildUpdate.systemChannelId
    verificationLevel := guildUpdate.verificationLevel
    vanityUrlCode := guildUpdate.vanityUrlCode
    widgetChannelId := guildUpdate.widgetChannelId
    widgetEnabled := guildUpdate.widgetEnabled }

/-- Every field comes from the payload, the member count too. -/
def fromGuild (guild : Guild) : CachedGuild where
  afkChannelId := guild.afkChannelId
  afkTimeout := guild.afkTimeout
  applicationId := guild.applicationId
  banner := guild.banner
  defaultMessageNotifications := guild.defaultMessageNotifications
  description := guild.description
  discoverySplash := guild.discoverySplash
  explicitContentFilter := guild.explicitContentFilter
  features := guild.features
  icon := guild.icon
  id := guild.id
  joinedAt := guild.joinedAt
  large := guild.large
  maxMembers := guild.maxMembers
  maxPresences := guild.maxPresences
  maxVideoChannelUsers := guild.maxVideoChannelUsers
  memberCount := guild.memberCount
  mfaLevel := guild.mfaLevel
  name := guild.name
  nsfwLevel := guild.nsfwLevel
  ownerId := guild.ownerId
  owner := guild.owner
  permissions := guild.permissions
  preferredLocale := guild.preferredLocale
  premiumProgressBarEnabled := guild.premiumProgressBarEnabled
  premiumSubscriptionCount := guild.premiumSubscriptionCount
  premiumTier := guild.premiumTier
  publicUpdatesChannelId := guild.publicUpdatesChannelId
  rulesChannelId := guild.rulesChannelId
  safetyAlertsChannelId := guild.safetyAlertsChannelId
  splash := guild.splash
  systemChannelId := guild.systemChannelId
  systemChannelFlags := guild.systemChannelFlags
  unavailable := guild.unavailable
  vanityUrlCode := guild.vanityUrlCode
  verificationLevel := guild.verificationLevel
  widgetChannelId := guild.widgetChannelId
  widgetEnabled := guild.widgetEnabled

end CachedGuild

/-! ### Members -/

/-- The member without its user, of whom only the id is kept. -/
structure CachedMember where
  avatar : Option ImageHash
  avatarDecorationData : Option String
  banner : Option ImageHash
  communicationDisabledUntil : Option Timestamp
  deaf : Option Bool
  flags : UInt64
  joinedAt : Option Timestamp
  mute : Option Bool
  nick : Option String
  pending : Bool
  premiumSince : Option Timestamp
  roles : List (Id .role)
  userId : Id .user

/-- What `cache_borrowed_interaction_member` puts together before it converts it. -/
structure ComputedInteractionMember where
  avatar : Option ImageHash
  deaf : Option Bool
  interactionMember : InteractionMember
  mute : Option Bool
  userId : Id .user

namespace CachedMember

/-- `deaf` and `mute` stay as they were when the update leaves them out. -/
def updateWithMemberUpdate (self : CachedMember) (memberUpdate : MemberUpdate) : CachedMember :=
  { self with
    avatar := memberUpdate.avatar
    deaf := memberUpdate.deaf.or self.deaf
    mute := memberUpdate.mute.or self.mute
    nick := memberUpdate.nick
    roles := memberUpdate.roles
    joinedAt := memberUpdate.joinedAt
    pending := memberUpdate.pending
    communicationDisabledUntil := memberUpdate.communicationDisabledUntil }

/-- A full member says of each flag whether it is set. -/
def fromMember (member : Member) : CachedMember where
  avatar := member.avatar
  avatarDecorationData := member.avatarDecorationData
  banner := member.banner
  communicationDisabledUntil := member.communicationDisabledUntil
  deaf := some member.deaf
  flags := member.flags
  joinedAt := member.joinedAt
  mute := some member.mute
  nick := member.nick
  pending := member.pending
  premiumSince := member.premiumSince
  roles := member.roles
  userId := member.user.id

/-- The user may be missing in the payload, so its id is given apart. -/
def fromPartialMember (userId : Id .user) (member : PartialMember) : CachedMember where
  avatar := member.avatar
  avatarDecorationData := member.avatarDecorationData
  banner := member.banner
  communicationDisabledUntil := member.communicationDisabledUntil
  deaf := some member.deaf
  flags := member.flags
  joinedAt := member.joinedAt
  mute := some member.mute
  nick := member.nick
  pending := false
  premiumSince := member.premiumSince
  roles := member.roles
  userId := (member.user.map (·.id)).getD userId

/-- What an interaction does not carry comes from the entry before. -/
def fromComputedInteractionMember (member : ComputedInteractionMember) : CachedMember where
  avatar := member.avatar
  avatarDecorationData := member.interactionMember.avatarDecorationData
  banner := member.interactionMember.banner
  communicationDisabledUntil := member.interactionMember.communicationDisabledUntil
  deaf := member.deaf
  flags := member.interactionMember.flags
  joinedAt := member.interactionMember.joinedAt
  mute := member.mute
  nick := member.interactionMember.nick
  pending := member.interactionMember.pending
  premiumSince := member.interactionMember.premiumSince
  roles := member.interactionMember.roles
  userId := member.userId

/-- Whether the entry is up to date, so that nothing need be written. Banner and decoration are not compared. -/
def eqMember (self : CachedMember) (other : Member) : Bool :=
  self.avatar == other.avatar
    && self.communicationDisabledUntil == other.communicationDisabledUntil
    && self.deaf == some other.deaf
    && self.joinedAt == other.joinedAt
    && self.mute == some other.mute
    && self.nick == other.nick
    && self.pending == other.pending
    && self.premiumSince == other.premiumSince
    && self.roles == other.roles
    && self.userId == other.user.id

def eqPartialMember (self : CachedMember) (other : PartialMember) : Bool :=
  self.communicationDisabledUntil == other.communicationDisabledUntil
    && self.deaf == some other.deaf
    && self.joinedAt == other.joinedAt
    && self.mute == some other.mute
    && self.nick == other.nick
    && self.premiumSince == other.premiumSince
    && self.roles == other.roles

def eqInteractionMember (self : CachedMember) (other : InteractionMember) : Bool :=
  self.joinedAt == other.joinedAt
    && self.nick == other.nick
    && self.premiumSince == other.premiumSince
    && self.roles == other.roles

end CachedMember

/-! ### Emojis and stickers -/

/-- The emoji without its user, of whom only the id is kept. -/
structure CachedEmoji where
  animated : Bool
  available : Bool
  id : Id .emoji
  managed : Bool
  name : String
  requireColons : Bool
  roles : List (Id .role)
  userId : Option (Id .user)
  deriving DecidableEq

namespace CachedEmoji

def fromEmoji (emoji : Emoji) : CachedEmoji where
  animated := emoji.animated
  available := emoji.available
  id := emoji.id
  managed := emoji.managed
  name := emoji.name
  requireColons := emoji.requireColons
  roles := emoji.roles
  userId := emoji.user.map (·.id)

/-- Whether the entry is up to date. -/
def eqEmoji (self : CachedEmoji) (other : Emoji) : Bool :=
  self.id == other.id
    && self.animated == other.animated
    && self.managed == other.managed
    && self.name == other.name
    && self.requireColons == other.requireColons
    && self.roles == other.roles
    && self.userId == other.user.map (·.id)
    && self.available == other.available

/-- The comparison looks at every field that `fromEmoji` fills. -/
theorem eqEmoji_iff {self : CachedEmoji} {other : Emoji} :
    self.eqEmoji other = true ↔ self = fromEmoji other := by
  obtain ⟨⟩ := self
  simp only [eqEmoji, fromEmoji, Bool.and_eq_true, beq_iff_eq, mk.injEq]
  constructor
  · rintro ⟨⟨⟨⟨⟨⟨⟨h₁, h₂⟩, h₃⟩, h₄⟩, h₅⟩, h₆⟩, h₇⟩, h₈⟩
    exact ⟨h₂, h₈, h₁, h₃, h₄, h₅, h₆, h₇⟩
  · rintro ⟨h₁, h₂, h₃, h₄, h₅, h₆, h₇, h₈⟩
    exact ⟨⟨⟨⟨⟨⟨⟨h₃, h₁⟩, h₄⟩, h₅⟩, h₆⟩, h₇⟩, h₈⟩, h₂⟩

end CachedEmoji

/-- The sticker without its user, of whom only the id is kept. -/
structure CachedSticker where
  available : Bool
  description : String
  formatType : UInt8
  guildId : Option (Id .guild)
  id : Id .sticker
  kind : UInt8
  name : String
  packId : Option (Id .stickerPack)
  sortValue : Option UInt64
  tags : String
  userId : Option (Id .user)
  deriving DecidableEq

namespace CachedSticker

def fromSticker (sticker : Sticker) : CachedSticker where
  available := sticker.available
  description := sticker.description.getD ""
  formatType := sticker.formatType
  guildId := sticker.guildId
  id := sticker.id
  kind := sticker.kind
  name := sticker.name
  packId := sticker.packId
  sortValue := sticker.sortValue
  tags := sticker.tags
  userId := sticker.user.map (·.id)

/-- Whether the entry is up to date. -/
def eqSticker (self : CachedSticker) (other : Sticker) : Bool :=
  self.available == other.available
    && self.description == other.description.getD ""
    && self.formatType == other.formatType
    && self.guildId == other.guildId
    && self.id == other.id
    && self.kind == other.kind
    && self.name == other.name
    && self.packId == other.packId
    && self.sortValue == other.sortValue
    && self.tags == other.tags
    && self.userId == other.user.map (·.id)

/-- The comparison looks at every field that `fromSticker` fills. -/
theorem eqSticker_iff {self : CachedSticker} {other : Sticker} :
    self.eqSticker other = true ↔ self = fromSticker other := by
  obtain ⟨⟩ := self
  simp only [eqSticker, fromSticker, Bool.and_eq_true, beq_iff_eq, mk.injEq, and_assoc]

end CachedSticker

/-! ### Presences and voice states -/

/-- The presence without its user, of whom only the id is kept. -/
structure CachedPresence where
  activities : List String
  clientStatus : String
  guildId : Id .guild
  status : String
  userId : Id .user

def CachedPresence.fromPresence (presence : Presence) : CachedPresence where
  activities := presence.activities
  clientStatus := presence.clientStatus
  guildId := presence.guildId
  status := presence.status
  userId := presence.user.id

/-- A voice state that is kept is in a channel of a guild. -/
structure CachedVoiceState where
  channelId : Id .channel
  deaf : Bool
  guildId : Id .guild
  mute : Bool
  requestToSpeakTimestamp : Option Timestamp
  selfDeaf : Bool
  selfMute : Bool
  selfStream : Bool
  selfVideo : Bool
  sessionId : String
  suppress : Bool
  userId : Id .user

/-- Channel and guild are given apart, since the payload may lack them. -/
def CachedVoiceState.fromVoiceState (channelId : Id .channel) (guildId : Id .guild)
    (voiceState : VoiceState) : CachedVoiceState where
  channelId := channelId
  deaf := voiceState.deaf
  guildId := guildId
  mute := voiceState.mute
  requestToSpeakTimestamp := voiceState.requestToSpeakTimestamp
  selfDeaf := voiceState.selfDeaf
  selfMute := voiceState.selfMute
  selfStream := voiceState.selfStream
  selfVideo := voiceState.selfVideo
  sessionId := voiceState.sessionId
  suppress := voiceState.suppress
  userId := voiceState.userId

/-! ### Messages -/

/-- The interaction that a message answers, without its user. -/
structure CachedMessageInteraction where
  id : Id .interaction
  kind : UInt8
  name : String
  userId : Id .user

def CachedMessageInteraction.fromMessageInteraction (interaction : MessageInteraction) :
    CachedMessageInteraction where
  id := interaction.id
  kind := interaction.kind
  name := interaction.name
  userId := interaction.user.id

/-- The message without the author and the mentioned users, of whom only the ids are kept. -/
structure CachedMessage where
  author : Id .user
  channelId : Id .channel
  guildId : Option (Id .guild)
  id : Id .message
  interaction : Option CachedMessageInteraction
  member : Option PartialMember
  mentions : List (Id .user)
  reactions : List Reaction
  threadId : Option (Id .channel)
  rest : String

def CachedMessage.fromMessage (message : Message) : CachedMessage where
  author := message.author.id
  channelId := message.channelId
  guildId := message.guildId
  id := message.id
  interaction := message.interaction.map .fromMessageInteraction
  member := message.member
  mentions := message.mentions.map (·.id)
  reactions := message.reactions
  threadId := message.thread.map (·.id)
  rest := message.rest

/-- Two reactions use the same emoji: custom ones by id, unicode ones by name. -/
def reactionsEq : EmojiReactionType → EmojiReactionType → Bool
  | .custom _ idA _, .custom _ idB _ => idA == idB
  | .unicode nameA, .unicode nameB => nameA == nameB
  | _, _ => false

end Tulpje.Cache
