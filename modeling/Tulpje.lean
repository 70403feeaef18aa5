import Tulpje.Framework.Registry
import Tulpje.Framework.Dispatch
import Tulpje.Framework.Scheduler
import Tulpje.Framework.Interaction
import Tulpje.Framework.ConfirmationDialog
import Tulpje.Gateway.Forwarding
import Tulpje.Gateway.GuildCount
import Tulpje.Gateway.ShardReporter
import Tulpje.Amqp.Consumer
import Tulpje.Amqp.DeadConnection
import Tulpje.Amqp.Shutdown
import Tulpje.Redis.Separation
import Tulpje.Redis.Refinement
import Tulpje.Redis.Sets
import Tulpje.Cache.Concurrent
import Tulpje.Cache.GuildStatus
import Tulpje.Cache.VoiceStates
import Tulpje.Cache.Reactions
import Tulpje.Cache.ReactionDetails
import Tulpje.Cache.Reconciled
import Tulpje.Cache.MemberSkips
import Tulpje.Core.Cleanup
import Tulpje.Core.GuildModules
import Tulpje.Core.GuildCommands
import Tulpje.Pluralkit.Staleness
import Tulpje.Pluralkit.FrontChanges
import Tulpje.Pluralkit.Roles
import Tulpje.Pluralkit.FollowLimit
import Tulpje.Pluralkit.FronterChannels
import Tulpje.Pluralkit.RoleOps
import Tulpje.Pluralkit.Settings
import Tulpje.Pluralkit.Unfollowing
import Tulpje.Pluralkit.SystemRef
import Tulpje.Pluralkit.RoleUpdate
import Tulpje.Pluralkit.CategoryRace
import Tulpje.Pluralkit.Notifications
import Tulpje.Emojis.Parsing
import Tulpje.Emojis.Uses
import Tulpje.Emojis.Paging
import Tulpje.Emojis.Statistics
import Tulpje.Emojis.Sorting
import Tulpje.Emojis.Clone
import Tulpje.Release.Commits
import Tulpje.Release.Gather
import Tulpje.Release.Dependencies
import Tulpje.Release.Publish
import Tulpje.Deployment
