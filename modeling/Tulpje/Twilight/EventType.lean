/-!
# Event kinds

The `EventType` enumeration of `twilight_gateway`, one constructor for each arm of the `Event` match
in `tulpje-cache/src/lib.rs`.
-/

namespace Tulpje

inductive EventType
  | autoModerationActionExecution | autoModerationRuleCreate | autoModerationRuleDelete
  | autoModerationRuleUpdate | banAdd | banRemove | channelCreate | channelDelete
  | channelPinsUpdate | channelUpdate | commandPermissionsUpdate | entitlementCreate
  | entitlementDelete | entitlementUpdate | gatewayClose | gatewayHeartbeat | gatewayHeartbeatAck
  | gatewayHello | gatewayInvalidateSession | gatewayReconnect | guildAuditLogEntryCreate
  | guildCreate | guildDelete | guildEmojisUpdate | guildIntegrationsUpdate
  | guildScheduledEventCreate | guildScheduledEventDelete | guildScheduledEventUpdate
  | guildScheduledEventUserAdd | guildScheduledEventUserRemove | guildStickersUpdate | guildUpdate
  | integrationCreate | integrationDelete | integrationUpdate | interactionCreate | inviteCreate
  | inviteDelete | memberAdd | memberChunk | memberRemove | memberUpdate | messageCreate
  | messageDelete | messageDeleteBulk | messagePollVoteAdd | messagePollVoteRemove | messageUpdate
  | presenceUpdate | rateLimited | reactionAdd | reactionRemove | reactionRemoveAll
  | reactionRemoveEmoji | ready | resumed | roleCreate | roleDelete | roleUpdate
  | stageInstanceCreate | stageInstanceDelete | stageInstanceUpdate | threadCreate | threadDelete
  | threadListSync | threadMembersUpdate | threadMemberUpdate | threadUpdate | typingStart
  | unavailableGuild | userUpdate | voiceServerUpdate | voiceStateUpdate | webhooksUpdate
  deriving DecidableEq, Repr

end Tulpje
