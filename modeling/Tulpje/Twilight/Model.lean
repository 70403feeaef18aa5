import Mathlib.Logic.Basic

/-!
# Gateway payloads

The types of `twilight_model` that the cache reads. A wire value that the cache only copies or compares
as a whole is a string or a machine integer; the fields of a record that the cache copies without
looking at any of them are one field `rest`.
-/

namespace Tulpje.Twilight

inductive Marker
  | application | channel | emoji | guild | integration | interaction | message | role
  | scheduledEvent | stage | sticker | stickerPack | user | webhook
  deriving DecidableEq

/-- `Id<T>`: a `NonZeroU64` that remembers what it identifies. -/
structure Id (m : Marker) where
  get : UInt64
  ne_zero : get ≠ 0
  deriving DecidableEq

theorem Id.get_injective (m : Marker) : Function.Injective fun id : Id m => id.get := by
  rintro ⟨a, ha⟩ ⟨b, hb⟩ h
  cases h
  rfl

abbrev Timestamp := Int
abbrev ImageHash := String
abbrev Permissions := UInt64

structure User where
  id : Id .user
  rest : String
  deriving DecidableEq

structure CurrentUser where
  id : Id .user
  rest : String
  deriving DecidableEq

/-! ### Guild members -/

structure Member where
  avatar : Option ImageHash
  avatarDecorationData : Option String
  banner : Option ImageHash
  communicationDisabledUntil : Option Timestamp
  deaf : Bool
  flags : UInt64
  joinedAt : Option Timestamp
  mute : Bool
  nick : Option String
  pending : Bool
  premiumSince : Option Timestamp
  roles : List (Id .role)
  user : User
  deriving DecidableEq

structure PartialMember where
  avatar : Option ImageHash
  avatarDecorationData : Option String
  banner : Option ImageHash
  communicationDisabledUntil : Option Timestamp
  deaf : Bool
  flags : UInt64
  joinedAt : Option Timestamp
  mute : Bool
  nick : Option String
  permissions : Option Permissions
  premiumSince : Option Timestamp
  roles : List (Id .role)
  user : Option User
  deriving DecidableEq

structure InteractionMember where
  avatar : Option ImageHash
  avatarDecorationData : Option String
  banner : Option ImageHash
  communicationDisabledUntil : Option Timestamp
  flags : UInt64
  joinedAt : Option Timestamp
  nick : Option String
  pending : Bool
  permissions : Permissions
  premiumSince : Option Timestamp
  roles : List (Id .role)
  deriving DecidableEq

structure MemberUpdate where
  avatar : Option ImageHash
  avatarDecorationData : Option String
  banner : Option ImageHash
  communicationDisabledUntil : Option Timestamp
  deaf : Option Bool
  guildId : Id .guild
  joinedAt : Option Timestamp
  mute : Option Bool
  nick : Option String
  pending : Bool
  premiumSince : Option Timestamp
  roles : List (Id .role)
  user : User
  deriving DecidableEq

/-! ### Resources of a guild -/

structure Channel where
  guildId : Option (Id .guild)
  id : Id .channel
  lastPinTimestamp : Option Timestamp
  rest : String
  deriving DecidableEq

structure Role where
  id : Id .role
  rest : String
  deriving DecidableEq

structure Emoji where
  animated : Bool
  available : Bool
  id : Id .emoji
  managed : Bool
  name : String
  requireColons : Bool
  roles : List (Id .role)
  user : Option User
  deriving DecidableEq

structure Sticker where
  available : Bool
  description : Option String
  formatType : UInt8
  guildId : Option (Id .guild)
  id : Id .sticker
  kind : UInt8
  name : String
  packId : Option (Id .stickerPack)
  sortValue : Option UInt64
  tags : String
  user : Option User
  deriving DecidableEq

inductive UserOrId
  | user (user : User)
  | userId (id : Id .user)
  deriving DecidableEq

def UserOrId.id : UserOrId → Id .user
  | .user u => u.id
  | .userId id => id

structure Presence where
  activities : List String
  clientStatus : String
  guildId : Id .guild
  status : String
  user : UserOrId
  deriving DecidableEq

structure VoiceState where
  channelId : Option (Id .channel)
  deaf : Bool
  guildId : Option (Id .guild)
  member : Option Member
  mute : Bool
  requestToSpeakTimestamp : Option Timestamp
  selfDeaf : Bool
  selfMute : Bool
  selfStream : Bool
  selfVideo : Bool
  sessionId : String
  suppress : Bool
  userId : Id .user
  deriving DecidableEq

structure StageInstance where
  guildId : Id .guild
  id : Id .stage
  rest : String
  deriving DecidableEq

structure GuildScheduledEvent where
  guildId : Id .guild
  id : Id .scheduledEvent
  userCount : Option UInt64
  rest : String
  deriving DecidableEq

structure GuildIntegration where
  guildId : Option (Id .guild)
  id : Id .integration
  rest : String
  deriving DecidableEq

/-! ### Guilds -/

structure Guild where
  afkChannelId : Option (Id .channel)
  afkTimeout : UInt16
  applicationId : Option (Id .application)
  banner : Option ImageHash
  channels : List Channel
  defaultMessageNotifications : UInt8
  description : Option String
  discoverySplash : Option ImageHash
  emojis : List Emoji
  explicitContentFilter : UInt8
  features : List String
  guildScheduledEvents : List GuildScheduledEvent
  icon : Option ImageHash
  id : Id .guild
  joinedAt : Option Timestamp
  large : Bool
  maxMembers : Option UInt64
  maxPresences : Option UInt64
  maxVideoChannelUsers : Option UInt64
  memberCount : Option UInt64
  members : List Member
  mfaLevel : UInt8
  name : String
  nsfwLevel : UInt8
  ownerId : Id .user
  owner : Option Bool
  permissions : Option Permissions
  preferredLocale : String
  premiumProgressBarEnabled : Bool
  premiumSubscriptionCount : Option UInt64
  premiumTier : UInt8
  presences : List Presence
  publicUpdatesChannelId : Option (Id .channel)
  roles : List Role
  rulesChannelId : Option (Id .channel)
  safetyAlertsChannelId : Option (Id .channel)
  splash : Option ImageHash
  stageInstances : List StageInstance
  stickers : List Sticker
  systemChannelFlags : UInt64
  systemChannelId : Option (Id .channel)
  threads : List Channel
  unavailable : Option Bool
  vanityUrlCode : Option String
  verificationLevel : UInt8
  voiceStates : List VoiceState
  widgetChannelId : Option (Id .channel)
  widgetEnabled : Option Bool

/-- A guild with nothing in it. -/
def Guild.bare (id : Id .guild) (owner : Id .user) : Guild where
  afkChannelId := none
  afkTimeout := 300
  applicationId := none
  banner := none
  channels := []
  defaultMessageNotifications := 0
  description := none
  discoverySplash := none
  emojis := []
  explicitContentFilter := 0
  features := []
  guildScheduledEvents := []
  icon := none
  id := id
  joinedAt := none
  large := false
  maxMembers := none
  maxPresences := none
  maxVideoChannelUsers := none
  memberCount := none
  members := []
  mfaLevel := 0
  name := ""
  nsfwLevel := 0
  ownerId := owner
  owner := none
  permissions := none
  preferredLocale := "en-US"
  premiumProgressBarEnabled := false
  premiumSubscriptionCount := none
  premiumTier := 0
  presences := []
  publicUpdatesChannelId := none
  roles := []
  rulesChannelId := none
  safetyAlertsChannelId := none
  splash := none
  stageInstances := []
  stickers := []
  systemChannelFlags := 0
  systemChannelId := none
  threads := []
  unavailable := none
  vanityUrlCode := none
  verificationLevel := 0
  voiceStates := []
  widgetChannelId := none
  widgetEnabled := none

/-- `GuildUpdate` wraps a `PartialGuild`; its emoji and role lists are not read. -/
structure GuildUpdate where
  afkChannelId : Option (Id .channel)
  afkTimeout : UInt16
  applicationId : Option (Id .application)
  banner : Option ImageHash
  defaultMessageNotifications : UInt8
  description : Option String
  discoverySplash : Option ImageHash
  explicitContentFilter : UInt8
  features : List String
  icon : Option ImageHash
  id : Id .guild
  maxMembers : Option UInt64
  maxPresences : Option UInt64
  memberCount : Option UInt64
  mfaLevel : UInt8
  name : String
  nsfwLevel : UInt8
  ownerId : Id .user
  owner : Option Bool
  permissions : Option Permissions
  preferredLocale : String
  premiumProgressBarEnabled : Bool
  premiumSubscriptionCount : Option UInt64
  premiumTier : UInt8
  publicUpdatesChannelId : Option (Id .channel)
  rulesChannelId : Option (Id .channel)
  splash : Option ImageHash
  systemChannelFlags : UInt64
  systemChannelId : Option (Id .channel)
  vanityUrlCode : Option String
  verificationLevel : UInt8
  widgetChannelId : Option (Id .channel)
  widgetEnabled : Option Bool

structure UnavailableGuild where
  id : Id .guild
  unavailable : Bool

inductive GuildCreate
  | available (guild : Guild)
  | unavailable (guild : UnavailableGuild)

structure GuildDelete where
  id : Id .guild
  unavailable : Option Bool

/-! ### Messages and reactions -/

inductive EmojiReactionType
  | custom (animated : Bool) (id : Id .emoji) (name : Option String)
  | unicode (name : String)
  deriving DecidableEq

structure ReactionCountDetails where
  burst : UInt64
  normal : UInt64
  deriving DecidableEq

structure Reaction where
  burstColors : List String
  count : UInt64
  countDetails : ReactionCountDetails
  emoji : EmojiReactionType
  me : Bool
  meBurst : Bool
  deriving DecidableEq

structure GatewayReaction where
  burst : Bool
  emoji : EmojiReactionType
  messageId : Id .message
  userId : Id .user

structure MessageInteraction where
  id : Id .interaction
  kind : UInt8
  name : String
  user : User

structure Mention where
  id : Id .user
  rest : String

structure Message where
  author : User
  channelId : Id .channel
  guildId : Option (Id .guild)
  id : Id .message
  interaction : Option MessageInteraction
  member : Option PartialMember
  mentions : List Mention
  reactions : List Reaction
  thread : Option Channel
  rest : String

/-! ### Interactions -/

/-- The hash maps of `InteractionDataResolved`, each in its order of iteration. -/
structure InteractionDataResolved where
  members : List (Id .user × InteractionMember)
  roles : List (Id .role × Role)
  users : List (Id .user × User)

structure CommandData where
  resolved : Option InteractionDataResolved

inductive InteractionData
  | applicationCommand (data : CommandData)
  | messageComponent
  | modalSubmit

structure Interaction where
  data : Option InteractionData
  guildId : Option (Id .guild)
  member : Option PartialMember
  user : Option User

/-! ### Events -/

structure Ready where
  guilds : List UnavailableGuild
  user : CurrentUser

/-- The gateway events that the cache handles, with the fields it reads. `ignored` stands for the arms
of `Event::update` that return `Ok(())`. -/
inductive Event
  | channelCreate (channel : Channel)
  | channelDelete (channel : Channel)
  | channelPinsUpdate (channelId : Id .channel) (lastPinTimestamp : Option Timestamp)
  | channelUpdate (channel : Channel)
  | guildCreate (guild : GuildCreate)
  | guildDelete (guild : GuildDelete)
  | guildEmojisUpdate (guildId : Id .guild) (emojis : List Emoji)
  | guildStickersUpdate (guildId : Id .guild) (stickers : List Sticker)
  | guildUpdate (guild : GuildUpdate)
  | guildScheduledEventCreate (event : GuildScheduledEvent)
  | guildScheduledEventDelete (event : GuildScheduledEvent)
  | guildScheduledEventUpdate (event : GuildScheduledEvent)
  | guildScheduledEventUserAdd (guildScheduledEventId : Id .scheduledEvent)
  | guildScheduledEventUserRemove (guildScheduledEventId : Id .scheduledEvent)
  | integrationCreate (integration : GuildIntegration)
  | integrationDelete (guildId : Id .guild) (id : Id .integration)
  | integrationUpdate (integration : GuildIntegration)
  | interactionCreate (interaction : Interaction)
  | memberAdd (guildId : Id .guild) (member : Member)
  | memberRemove (guildId : Id .guild) (user : User)
  | memberUpdate (update : MemberUpdate)
  | memberChunk (guildId : Id .guild) (members : List Member)
  | messageCreate (message : Message)
  | messageDelete (channelId : Id .channel) (id : Id .message)
  | messageDeleteBulk (channelId : Id .channel) (ids : List (Id .message))
  | messageUpdate (message : Message)
  | presenceUpdate (presence : Presence)
  | reactionAdd (reaction : GatewayReaction)
  | reactionRemove (reaction : GatewayReaction)
  | reactionRemoveAll (messageId : Id .message)
  | reactionRemoveEmoji (messageId : Id .message) (emoji : EmojiReactionType)
  | ready (ready : Ready)
  | roleCreate (guildId : Id .guild) (role : Role)
  | roleDelete (guildId : Id .guild) (roleId : Id .role)
  | roleUpdate (guildId : Id .guild) (role : Role)
  | stageInstanceCreate (stageInstance : StageInstance)
  | stageInstanceDelete (stageInstance : StageInstance)
  | stageInstanceUpdate (stageInstance : StageInstance)
  | threadCreate (thread : Channel)
  | threadUpdate (thread : Channel)
  | threadDelete (id : Id .channel)
  | threadListSync (threads : List Channel)
  | unavailableGuild (guild : UnavailableGuild)
  | userUpdate (user : CurrentUser)
  | voiceStateUpdate (voiceState : VoiceState)
  | ignored

end Tulpje.Twilight
