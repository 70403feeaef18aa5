import Tulpje.Lib.History
import Tulpje.Pluralkit.ChannelRef
import Tulpje.Pluralkit.Settings

/-!
# The setup commands

`/pk setup`, `/pk fronters setup` and `/pk notify setup`, call by call: `commands/setup.rs`, `fronters/setup.rs` and
`notify/setup.rs`, with `handle_permissions` and the search for a channel in `tulpje-lib/src/util.rs`. Whatever is
answered meanwhile, nothing is saved before everything that it takes has been answered: the permissions of the bot, the
channel or the system, and the user where something would be replaced. The user is asked only then
(`saves_only_when_allowed`).
-/

namespace Tulpje.Pluralkit.Setup

open Lib
open Settings (Save)
open Twilight (Id Permissions)

/-! ### Discord -/

inductive ChannelType
  | guildText
  | guildCategory
  | other (code : UInt8)
  deriving DecidableEq

inductive PermissionOverwriteType
  | member
  | role
  deriving DecidableEq

/-- The id of a user or a role. -/
structure PermissionOverwrite where
  allow : Permissions
  deny : Permissions
  id : UInt64
  kind : PermissionOverwriteType
  deriving DecidableEq

structure GuildChannel extends Channel where
  kind : ChannelType
  name : Option String
  permissionOverwrites : Option (List PermissionOverwrite)
  deriving DecidableEq

structure Role where
  id : Id .role
  permissions : Permissions
  deriving DecidableEq

namespace Permissions

def manageChannels : Permissions := (1 : UInt64) <<< 4
def viewChannel : Permissions := (1 : UInt64) <<< 10
def sendMessages : Permissions := (1 : UInt64) <<< 11
def embedLinks : Permissions := (1 : UInt64) <<< 14
def connect : Permissions := (1 : UInt64) <<< 20

/-- `Permissions::difference`. -/
def difference (self other : Permissions) : Permissions := self &&& ~~~other

end Permissions

/-- The id of the role that everyone has is that of the guild. -/
def everyoneRoleId (guildId : GuildId) : Id .role := ⟨guildId.get, guildId.ne_zero⟩

/-- The status of a response, if the request got one. -/
structure HttpError where
  status : Option UInt16
  message : String

def notFound : UInt16 := 404
def forbidden : UInt16 := 403

/-! ### Calls -/

inductive Dialog
  | confirmSetup (channelId : ChannelId)
  | confirmOverwriteCategory (name : String)
  | confirmOverwriteSystem (system : ModPkSystem)
  deriving DecidableEq

/-- `notify` has the calls of the other commands and of the services. -/
inductive SetupCall
  | notify (o : NotifyCall)
  | authorId
  | currentUser
  | cachedRole (roleId : Id .role)
  | role (guildId : GuildId) (roleId : Id .role)
  | cachedMember (guildId : GuildId) (userId : Id .user)
  | guildMember (guildId : GuildId) (userId : Id .user)
  | guildChannels (guildId : GuildId)
  | channel (channelId : ChannelId)
  | createGuildChannel (guildId : GuildId) (name : String) (kind : ChannelType) (overwrites : List PermissionOverwrite)
  | confirm (dialog : Dialog)
  | touch (guildId : GuildId)
  | getSystemForGuild (guildId : GuildId)
  | save (save : Save)

/-- A user is given by its id and a member by its roles. An answer of Discord may still be unreadable. -/
@[reducible] def SetupCall.Reply : SetupCall → Type
  | notify o => o.Reply
  | authorId => Option (Id .user)
  | currentUser => Except Error (Except Error (Id .user))
  | cachedRole _ => Except Error (Option Role)
  | role .. => Except Error (Except Error Role)
  | cachedMember .. => Except Error (Option (List (Id .role)))
  | guildMember .. => Except Error (Except Error (List (Id .role)))
  | guildChannels _ => Except Error (Except Error (List GuildChannel))
  | channel _ => Except HttpError (Except Error GuildChannel)
  | createGuildChannel .. => Except Error (Except Error GuildChannel)
  | confirm _ => Except Error Bool
  | getSystemForGuild _ => Except Error (Option ModPkSystem)
  | touch _ | save _ => Except Error Unit

/-- `touch` keeps when the guild was created, and takes back that it was left. -/
def Database.touch (db : Database) (guildId : GuildId) : Database :=
  let createdAt := ((db.guilds.row guildId).map (·.createdAt)).getD db.now
  { db with guilds := db.guilds.upsert guildId ⟨createdAt, db.now, none⟩ }

def Database.systemForGuild (db : Database) (guildId : GuildId) : Option ModPkSystem :=
  (db.pkGuilds.row guildId).bind fun row => db.modPkSystem row.systemUuid

/-- A statement that fails changes nothing, and the rest does not touch the database. -/
def setupWorld : (o : SetupCall) → Database → o.Reply → Database → Prop
  | .notify o, db, r, db' => notifyWorld o db r db'
  | .touch guildId, db, r, db' =>
    match r with
    | .ok () => ∃ now, db' = Database.touch { db with now } guildId
    | .error _ => ∃ now, db' = { db with now }
  | .getSystemForGuild guildId, db, r, db' =>
    (∃ now, db' = { db with now }) ∧ ∀ system, r = .ok system → system = Database.systemForGuild db guildId
  | .save save, db, r, db' =>
    match r with
    | .ok () => ∃ now, save.Succeeds { db with now } db'
    | .error _ => ∃ now, db' = { db with now }
  | _, db, _, db' => ∃ now, db' = { db with now }

abbrev SetupTask := Prog Error SetupCall SetupCall.Reply

abbrev SetupDbCall := Called SetupCall SetupCall.Reply Database

def send (o : SetupCall) : SetupTask o.Reply := Prog.send o

def lift {α : Type} : NotifyTask α → SetupTask α
  | .pure a => .pure a
  | .throw e => .throw e
  | .call o k => .call (.notify o) fun r => lift (k r)

def task {α : Type} (p : Task α) : SetupTask α := lift (Notify.lift p)

def sql (statement : Statement) : SetupTask statement.Reply := task (Pluralkit.sql statement)

def respondError (message : String) : SetupTask Unit := lift (Notify.respondError message)

def respondSuccess (message : String) : SetupTask Unit := lift (Notify.respondSuccess message)

/-! ### `tulpje-lib/src/util.rs` and `responses.rs` -/

/-- What the libraries do: `SystemRef::from_str` with its crate for UUIDs, the lower case of Unicode, the
`PermissionCalculator` and the names of permissions. -/
structure Libraries where
  fromStr : String → Option SystemRef
  toLowercase : String → String
  root : GuildId → Id .user → Permissions → List (Id .role × Permissions) → Permissions
  inChannel : GuildId → Id .user → Permissions → List (Id .role × Permissions) → ChannelType →
    List PermissionOverwrite → Permissions
  iterNames : Permissions → List String

def channelNotFound (id : ChannelId) : SetupTask Unit :=
  respondError (s!"### Error\nCouldn't find channel, are you sure it's in this server and the bot can access it?" ++
    s!"\n\nChannel ID: `{id}`")

def getRole (guildId : GuildId) (roleId : Id .role) : SetupTask Role := do
  match ← Prog.ofExcept (← send (.cachedRole roleId)) with
  | some role => pure role
  | none => Prog.ofExcept (← Prog.ofExcept (← send (.role guildId roleId)))

def getEveryoneRole (guildId : GuildId) : SetupTask Role := getRole guildId (everyoneRoleId guildId)

def getMemberRoleIds (userId : Id .user) (guildId : GuildId) : SetupTask (List (Id .role)) := do
  match ← Prog.ofExcept (← send (.cachedMember guildId userId)) with
  | some roles => pure roles
  | none => Prog.ofExcept (← Prog.ofExcept (← send (.guildMember guildId userId)))

def getRoles (guildId : GuildId) : List (Id .role) → SetupTask (List Role)
  | [] => pure []
  | roleId :: roleIds => do
    let role ← getRole guildId roleId
    let roles ← getRoles guildId roleIds
    pure (role :: roles)

def getMemberRoles (userId : Id .user) (guildId : GuildId) : SetupTask (List Role) := do
  let roleIds ← getMemberRoleIds userId guildId
  getRoles guildId roleIds

section Libraries
variable (libraries : Libraries)

/-- The permissions of the user in the channel, or else in the guild. -/
def calculatedPermissions (guildId : GuildId) (userId : Id .user) (everyoneRole : Role) (memberRoles : List Role)
    (channel : Option GuildChannel) : Permissions :=
  let memberRolePermissions := memberRoles.map fun r => (r.id, r.permissions)
  match channel with
  | some channel =>
    libraries.inChannel guildId userId everyoneRole.permissions memberRolePermissions channel.kind
      (channel.permissionOverwrites.getD [])
  | none => libraries.root guildId userId everyoneRole.permissions memberRolePermissions

/-- Without a name for a permission that is missing, `expect` panics. -/
def permissionsString (missing : Permissions) : Except Error String :=
  let names := libraries.iterNames missing
  match names.getLast? with
  | none => .error "missing_permissions isn't empty so shouldn't fail"
  | some last =>
    if names.dropLast ≠ [] then
      let others := ", ".intercalate names.dropLast
      .ok s!"{others} and {last} permissions"
    else .ok s!"{last} permission"

def handlePermissions (guildId : GuildId) (userId : Id .user) (channel : Option GuildChannel)
    (permissions : Permissions) : SetupTask Bool := do
  let everyoneRole ← getEveryoneRole guildId
  let memberRoles ← getMemberRoles userId guildId
  let calculated := calculatedPermissions libraries guildId userId everyoneRole memberRoles channel
  let missing := Permissions.difference permissions calculated
  if missing = 0 then pure true
  else
    let text ← Prog.ofExcept (permissionsString libraries missing)
    let place := (channel.map fun c => s!"<#{c.id}>").getD "server"
    respondError s!"### Error\nbot is missing {text} in {place}"
    pure false

/-- The closure of `find`, which panics on a channel without a name. -/
def findNamed (name : String) (kind : ChannelType) : List GuildChannel → Except Error (Option GuildChannel)
  | [] => .ok none
  | c :: rest =>
    if c.kind = kind then
      match c.name with
      | none => .error "guild channels have names"
      | some other => if libraries.toLowercase other = libraries.toLowercase name then .ok (some c) else
        findNamed name kind rest
    else findNamed name kind rest

def findChannelByName (guildId : GuildId) (name : String) (kind : ChannelType) : SetupTask (Option GuildChannel) := do
  let channels ← Prog.ofExcept (← Prog.ofExcept (← send (.guildChannels guildId)))
  Prog.ofExcept (findNamed libraries name kind channels)

/-- `NOT_FOUND` and `FORBIDDEN` are told the same. -/
def handleChannelFromId (guildId : GuildId) (channelId : ChannelId) : SetupTask (Option GuildChannel) := do
  match ← send (.channel channelId) with
  | .ok response =>
    let channel ← Prog.ofExcept response
    if channel.guildId.any (· ≠ guildId) then
      channelNotFound channelId
      pure none
    else pure (some channel)
  | .error err =>
    if err.status = some notFound ∨ err.status = some forbidden then
      channelNotFound channelId
      pure none
    else Prog.throw err.message

/-! ### `commands/setup.rs` -/

def unreachableGuild : Error := "internal error: entered unreachable code: command is guild_only"

/-- `system.name (id)`, or the id alone. -/
def systemText (system : ModPkSystem) : String :=
  match system.name with
  | none => s!"`{system.id}`"
  | some name => s!"{name} (`{system.id}`)"

/-- Whether the system may be saved for the guild. -/
def confirmSystem (guild : GuildId) : SetupTask Bool := do
  match ← Prog.ofExcept (← send (.getSystemForGuild guild)) with
  | none => pure true
  | some existing => Prog.ofExcept (← send (.confirm (.confirmOverwriteSystem existing)))

def saveSystem (guild : GuildId) (userId : Id .user) (system : ModPkSystem) : SetupTask Unit := do
  Prog.ofExcept (← send (.touch guild))
  Prog.ofExcept (← send (.save (.updateSystem system)))
  Prog.ofExcept (← send (.save (.saveGuildSettings ⟨guild, userId, system.uuid⟩)))
  let name := systemText system
  respondSuccess s!"### Success\nPluralKit module setup for {name}"

def setupSystem (guild : GuildId) (userId : Id .user) (systemRef : SystemRef) : SetupTask Unit := do
  match ← send (.notify (.pkGetSystem systemRef)) with
  | .error (.pk code message) =>
    if code = 20001 then
      let name := systemRef.text
      respondError s!"### Error\nCouldn't find system `{name}`"
    else Prog.throw message
  | .error (.other message) => Prog.throw message
  | .ok system =>
    let system ← task (toModPkSystem system)
    if ← confirmSystem guild then saveSystem guild userId system

def setup : SetupTask Unit := do
  let some guild ← Prog.ofExcept (← send (.notify (.other .ctxGuild))) | Prog.throw unreachableGuild
  Prog.ofExcept (← send (.notify (.other .deferEphemeral)))
  let some userId ← send .authorId | Prog.throw "no author?"
  let systemId ← Prog.ofExcept (← send (.notify (.getArgString "system_id")))
  let some systemRef ← lift (Notify.handleSystemRef libraries.fromStr systemId) | pure ()
  setupSystem guild userId systemRef

/-! ### `fronters/setup.rs` -/

def requiredCategoryPermissions : Permissions :=
  Permissions.manageChannels ||| Permissions.viewChannel ||| Permissions.connect

def categoryOverwrites (guild : GuildId) (botUser : Id .user) : List PermissionOverwrite :=
  [{ deny := Permissions.connect, allow := 0, id := guild.get, kind := .role },
    { allow := requiredCategoryPermissions, deny := 0, id := botUser.get, kind := .member }]

/-- The user is asked if there is a category and Discord tells its name. -/
def confirmCategory (guild : GuildId) : SetupTask Bool := do
  let existing ← (sql (.getFronterCategory guild)).mapError fun err => s!"couldn't fetch fronter category: {err}"
  match existing with
  | none => pure true
  | some existingCategory =>
    match ← send (.channel existingCategory) with
    | .ok (.ok channel) =>
      match channel.name with
      | some name =>
        (do Prog.ofExcept (← send (.confirm (.confirmOverwriteCategory name))) : SetupTask Bool).mapError fun err =>
          s!"error handling confirmation dialog: {err}"
      | none => pure true
    | _ => pure true

/-- From the creation of the category on. -/
def createCategory (guild : GuildId) (botUser : Id .user) (members : List Member) : SetupTask Unit := do
  let title ← Prog.ofExcept (← send (.notify (.getArgString "title")))
  let category ← Prog.ofExcept (← Prog.ofExcept (← send
    (.createGuildChannel guild title .guildCategory (categoryOverwrites guild botUser))))
  Prog.ofExcept (← send (.notify (.other (.updateFronterChannels guild category.toChannel members))))
  -- only now, against a race with the job that updates all categories
  Prog.ofExcept (← send (.save (.saveFronterCategory ⟨guild, category.id⟩)))
  respondSuccess "Fronter category succesfully set-up!"

/-- From the system of the settings on. -/
def setupCategory (guild : GuildId) (botUser : Id .user) (systemUuid : Uuid) : SetupTask Unit := do
  let found ← (sql (.getSystem systemUuid)).mapError fun err => s!"error fetching system {systemUuid}: {err}"
  let some system := found | Prog.throw "system {system_ref} missing from database"
  let displayName := system.name.getD system.id
  match ← task (getSystemFronters system.uuid).attempt with
  | .error (.frontPrivate _) =>
    respondError (s!"Fronters for system `{displayName}` are private, " ++
      "please set them to public to use the fronter category")
    let _ ← task (updateFrontersTimestamp system.uuid).attempt
    pure ()
  | .error (.notFound system) => Prog.throw s!"system {system} not found"
  | .error (.other err) => Prog.throw err
  | .ok fronters => createCategory guild botUser ((fronters.map (·.members)).getD [])

def frontersSetup : SetupTask Unit := do
  let some guild ← Prog.ofExcept (← send (.notify (.other .ctxGuild))) | Prog.throw unreachableGuild
  Prog.ofExcept (← send (.notify (.other .deferEphemeral)))
  let some guildSettings ← sql (.getGuildSettingsForId guild)
    | respondError "PluralKit module not set-up, please run `/pk setup`"
  let botUser ← Prog.ofExcept (← Prog.ofExcept (← send .currentUser))
  if ← handlePermissions libraries guild botUser none requiredCategoryPermissions then
    if ← confirmCategory guild then setupCategory guild botUser guildSettings.systemUuid

/-! ### `notify/setup.rs` -/

def requiredNotifyPermissions : Permissions :=
  Permissions.viewChannel ||| Permissions.sendMessages ||| Permissions.embedLinks

def notifyOverwrites (botUser : Id .user) : List PermissionOverwrite :=
  [{ allow := requiredNotifyPermissions, deny := 0, id := botUser.get, kind := .member }]

/-- The same channel is configured again without a question. -/
def confirmChannel (guild : GuildId) (existingChannel : Option GuildChannel) : SetupTask Bool := do
  match ← sql (.getNotifyChannel guild) with
  | none => pure true
  | some configuredChannel =>
    if existingChannel.all (·.id ≠ configuredChannel) then
      Prog.ofExcept (← send (.confirm (.confirmSetup configuredChannel)))
    else pure true

/-- `none` if the permissions are missing. -/
def notifyChannel (guild : GuildId) (botUser : Id .user) (channelNameOrRef : String)
    (existingChannel : Option GuildChannel) : SetupTask (Option GuildChannel) := do
  match existingChannel with
  | some channel =>
    if ← handlePermissions libraries guild botUser (some channel) requiredNotifyPermissions then pure (some channel)
    else pure none
  | none =>
    let channel ← Prog.ofExcept (← Prog.ofExcept (← send
      (.createGuildChannel guild channelNameOrRef .guildText (notifyOverwrites botUser))))
    pure (some channel)

def saveChannel (guild : GuildId) (channel : GuildChannel) : SetupTask Unit := do
  Prog.ofExcept (← send (.touch guild))
  Prog.ofExcept (← send (.save (.saveNotifyChannel ⟨guild, channel.id⟩)))
  respondSuccess s!"### Success\nTulpje will notify you of front changes in <#{channel.id}>"

/-- With the channel that there is, if there is one. -/
def setupChannel (guild : GuildId) (botUser : Id .user) (channelNameOrRef : String)
    (existingChannel : Option GuildChannel) : SetupTask Unit := do
  if ← confirmChannel guild existingChannel then
    let some channel ← notifyChannel libraries guild botUser channelNameOrRef existingChannel | pure ()
    saveChannel guild channel

def notifySetup : SetupTask Unit := do
  let some guild ← Prog.ofExcept (← send (.notify (.other .ctxGuild))) | Prog.throw unreachableGuild
  Prog.ofExcept (← send (.notify .defer))
  let channelNameOrRef ← Prog.ofExcept (← send (.notify (.getArgString "channel")))
  let botUser ← Prog.ofExcept (← Prog.ofExcept (← send .currentUser))
  match parseChannelRef channelNameOrRef with
  | some channelId =>
    let some channel ← handleChannelFromId guild channelId | pure ()
    setupChannel libraries guild botUser channelNameOrRef (some channel)
  | none =>
    let existingChannel ← findChannelByName libraries guild channelNameOrRef .guildText
    setupChannel libraries guild botUser channelNameOrRef existingChannel

/-- The three commands. -/
inductive Command
  | setup
  | frontersSetup
  | notifySetup
  deriving DecidableEq

def Command.handle : Command → SetupTask Unit
  | setup => Setup.setup libraries
  | frontersSetup => Setup.frontersSetup libraries
  | notifySetup => Setup.notifySetup libraries

end Libraries

/-! ### What a save takes -/

/-- Newest first. -/
abbrev History := List (Prog.Answered SetupCall.Reply)

/-- The role that the cache or Discord has. -/
def IsRole (past : History) (guild : GuildId) (roleId : Id .role) (role : Role) : Prop :=
  ⟨.cachedRole roleId, .ok (some role)⟩ ∈ past ∨ ⟨.role guild roleId, .ok (.ok role)⟩ ∈ past

def HasRoles (past : History) (guild : GuildId) (userId : Id .user) (roleIds : List (Id .role)) : Prop :=
  ⟨.cachedMember guild userId, .ok (some roleIds)⟩ ∈ past ∨ ⟨.guildMember guild userId, .ok (.ok roleIds)⟩ ∈ past

/-- The system of the guild, if it has one, may be replaced. -/
def MayReplaceSystem (past : History) (guild : GuildId) : Prop :=
  ∃ existing, ⟨.getSystemForGuild guild, .ok existing⟩ ∈ past ∧
    ∀ system, existing = some system → ⟨.confirm (.confirmOverwriteSystem system), .ok true⟩ ∈ past

/-- So may the category, unless Discord does not tell its name. -/
def MayReplaceCategory (past : History) (guild : GuildId) : Prop :=
  ∃ existing, ⟨.notify (.other (.sql (.getFronterCategory guild))), .ok existing⟩ ∈ past ∧
    ∀ categoryId, existing = some categoryId → ∃ response, ⟨.channel categoryId, response⟩ ∈ past ∧
      ∀ channel name, response = .ok (.ok channel) → channel.name = some name →
        ⟨.confirm (.confirmOverwriteCategory name), .ok true⟩ ∈ past

/-- So may the channel, by another one than `kept`. -/
def MayReplaceChannel (past : History) (guild : GuildId) (kept : Option ChannelId) : Prop :=
  ∃ configured, ⟨.notify (.other (.sql (.getNotifyChannel guild))), .ok configured⟩ ∈ past ∧
    ∀ channelId, configured = some channelId →
      kept = some channelId ∨ ⟨.confirm (.confirmSetup channelId), .ok true⟩ ∈ past

/-- The members that PluralKit answers. -/
def AreFronting (past : History) (system : Uuid) (members : List Member) : Prop :=
  (⟨.notify (.other (.pkGetSystemFronters system)), .ok none⟩ ∈ past ∧ members = []) ∨
    ∃ switch, ⟨.notify (.other (.pkGetSystemFronters system)), .ok (some switch)⟩ ∈ past ∧
      memberStructs system switch.members = .ok members

/-- The system that the user named, as PluralKit has it now. -/
structure SystemReady (libraries : Libraries) (past : History) (guild : GuildId) (system : ModPkSystem) : Prop where
  guild_mem : ⟨.notify (.other .ctxGuild), .ok (some guild)⟩ ∈ past
  named : ∃ text systemRef answer, ⟨.notify (.getArgString "system_id"), .ok text⟩ ∈ past ∧
    libraries.fromStr text = some systemRef ∧ ⟨.notify (.pkGetSystem systemRef), .ok answer⟩ ∈ past ∧
    (system.uuid, system.id, system.name, system.avatar) = (answer.uuid, answer.id, answer.name, answer.avatarUrl)
  replace : MayReplaceSystem past guild
  touched : ⟨.touch guild, .ok ()⟩ ∈ past

/-- The bot has the permissions, as far as the answers tell. -/
def Permitted (libraries : Libraries) (past : History) (guild : GuildId) (botUser : Id .user)
    (channel : Option GuildChannel) (required : Permissions) : Prop :=
  ⟨.currentUser, .ok (.ok botUser)⟩ ∈ past ∧ ∃ everyoneRole roleIds memberRoles,
    IsRole past guild (everyoneRoleId guild) everyoneRole ∧ HasRoles past guild botUser roleIds ∧
      List.Forall₂ (IsRole past guild) roleIds memberRoles ∧
      Permissions.difference required
        (calculatedPermissions libraries guild botUser everyoneRole memberRoles channel) = 0

/-- A category may be created for the fronters of the system that the guild is set up for. -/
structure CategoryReady (libraries : Libraries) (past : History) (guild : GuildId) (botUser : Id .user)
    (members : List Member) : Prop where
  guild_mem : ⟨.notify (.other .ctxGuild), .ok (some guild)⟩ ∈ past
  fronting : ∃ settings system,
    ⟨.notify (.other (.sql (.getGuildSettingsForId guild))), .ok (some settings)⟩ ∈ past ∧
      ⟨.notify (.other (.sql (.getSystem settings.systemUuid))), .ok (some system)⟩ ∈ past ∧
      AreFronting past system.uuid members
  permitted : Permitted libraries past guild botUser none requiredCategoryPermissions
  replace : MayReplaceCategory past guild

/-- The category is new and shows the fronters. -/
def CategoryMade (libraries : Libraries) (past : History) (guild : GuildId) (categoryId : ChannelId) : Prop :=
  ∃ botUser members title category, CategoryReady libraries past guild botUser members ∧
    ⟨.createGuildChannel guild title .guildCategory (categoryOverwrites guild botUser), .ok (.ok category)⟩ ∈ past ∧
    ⟨.notify (.other (.updateFronterChannels guild category.toChannel members)), .ok ()⟩ ∈ past ∧
    category.id = categoryId

/-- What is found under the name or the reference that the user gave. -/
def Found (libraries : Libraries) (past : History) (guild : GuildId) (text : String) :
    Option GuildChannel → Prop
  | some channel =>
    (∃ id, parseChannelRef text = some id ∧ ⟨.channel id, .ok (.ok channel)⟩ ∈ past ∧
      ∀ guildId, channel.guildId = some guildId → guildId = guild) ∨
    ∃ channels, parseChannelRef text = none ∧ ⟨.guildChannels guild, .ok (.ok channels)⟩ ∈ past ∧
      findNamed libraries text .guildText channels = .ok (some channel)
  | none => ∃ channels, parseChannelRef text = none ∧ ⟨.guildChannels guild, .ok (.ok channels)⟩ ∈ past ∧
      findNamed libraries text .guildText channels = .ok none

structure ChannelReady (libraries : Libraries) (past : History) (guild : GuildId) (text : String)
    (existingChannel : Option GuildChannel) : Prop where
  guild_mem : ⟨.notify (.other .ctxGuild), .ok (some guild)⟩ ∈ past
  text_mem : ⟨.notify (.getArgString "channel"), .ok text⟩ ∈ past
  found : Found libraries past guild text existingChannel
  replace : MayReplaceChannel past guild (existingChannel.map (·.id))

/-- The bot may write in the channel, or has created it so that it may. -/
def ChannelMade (libraries : Libraries) (past : History) (guild : GuildId) (channel : GuildChannel) : Prop :=
  ∃ text botUser,
    (ChannelReady libraries past guild text (some channel) ∧
      Permitted libraries past guild botUser (some channel) requiredNotifyPermissions) ∨
    (ChannelReady libraries past guild text none ∧ ⟨.currentUser, .ok (.ok botUser)⟩ ∈ past ∧
      ⟨.createGuildChannel guild text .guildText (notifyOverwrites botUser), .ok (.ok channel)⟩ ∈ past)

/-- What may be saved. -/
def Allowed (libraries : Libraries) (past : History) : Save → Prop
  | .updateSystem system => ∃ guild, SystemReady libraries past guild system
  | .saveGuildSettings settings => ⟨.authorId, some settings.userId⟩ ∈ past ∧ ∃ system,
    SystemReady libraries past settings.guildId system ∧ ⟨.save (.updateSystem system), .ok ()⟩ ∈ past ∧
      system.uuid = settings.systemUuid
  | .saveFronterCategory row => CategoryMade libraries past row.guildId row.categoryId
  | .saveNotifyChannel row => ∃ channel : GuildChannel, ChannelMade libraries past row.guildId channel ∧
    channel.id = row.channelId ∧ ⟨.touch row.guildId, .ok ()⟩ ∈ past

/-- What may be created. -/
def MayCreate (libraries : Libraries) (past : History) (guild : GuildId) (name : String) (kind : ChannelType)
    (overwrites : List PermissionOverwrite) : Prop :=
  ∃ botUser, (kind = .guildCategory ∧ overwrites = categoryOverwrites guild botUser ∧
      ∃ members, CategoryReady libraries past guild botUser members) ∨
    (kind = .guildText ∧ overwrites = notifyOverwrites botUser ∧ ⟨.currentUser, .ok (.ok botUser)⟩ ∈ past ∧
      ChannelReady libraries past guild name none)

/-- What may be told. -/
def Succeeded (past : History) (message : String) : Prop :=
  (∃ system settings, ⟨.save (.updateSystem system), .ok ()⟩ ∈ past ∧
    ⟨.save (.saveGuildSettings settings), .ok ()⟩ ∈ past ∧ system.uuid = settings.systemUuid ∧
    message = s!"### Success\nPluralKit module setup for {systemText system}") ∨
  (∃ row, ⟨.save (.saveFronterCategory row), .ok ()⟩ ∈ past ∧ message = "Fronter category succesfully set-up!") ∨
  ∃ row, ⟨.save (.saveNotifyChannel row), .ok ()⟩ ∈ past ∧
    message = s!"### Success\nTulpje will notify you of front changes in <#{row.channelId}>"

/-- What PluralKit has under the name that the user gave. -/
def Named (libraries : Libraries) (past : History) (answer : PkSystem) : Prop :=
  ∃ text systemRef, ⟨.notify (.getArgString "system_id"), .ok text⟩ ∈ past ∧
    libraries.fromStr text = some systemRef ∧ ⟨.notify (.pkGetSystem systemRef), .ok answer⟩ ∈ past

/-- Whether the row of the guild may be made. -/
def MayTouch (libraries : Libraries) (past : History) (guild : GuildId) : Prop :=
  (⟨.notify (.other .ctxGuild), .ok (some guild)⟩ ∈ past ∧ (∃ answer, Named libraries past answer) ∧
      MayReplaceSystem past guild) ∨
    ∃ channel, ChannelMade libraries past guild channel

/-- What may be asked: whether something may be replaced that there is, by something that could take its place. -/
def MayAsk (libraries : Libraries) (past : History) : Dialog → Prop
  | .confirmOverwriteSystem system => ∃ guild answer, ⟨.notify (.other .ctxGuild), .ok (some guild)⟩ ∈ past ∧
    Named libraries past answer ∧ ⟨.getSystemForGuild guild, .ok (some system)⟩ ∈ past
  | .confirmOverwriteCategory name => ∃ guild botUser settings categoryId channel,
    ⟨.notify (.other .ctxGuild), .ok (some guild)⟩ ∈ past ∧
      ⟨.notify (.other (.sql (.getGuildSettingsForId guild))), .ok (some settings)⟩ ∈ past ∧
      Permitted libraries past guild botUser none requiredCategoryPermissions ∧
      ⟨.notify (.other (.sql (.getFronterCategory guild))), .ok (some categoryId)⟩ ∈ past ∧
      ⟨.channel categoryId, .ok (.ok channel)⟩ ∈ past ∧ channel.name = some name
  | .confirmSetup channelId => ∃ guild text existingChannel,
    ⟨.notify (.other .ctxGuild), .ok (some guild)⟩ ∈ past ∧ ⟨.notify (.getArgString "channel"), .ok text⟩ ∈ past ∧
      Found libraries past guild text existingChannel ∧
      ⟨.notify (.other (.sql (.getNotifyChannel guild))), .ok (some channelId)⟩ ∈ past ∧
      existingChannel.all (·.id ≠ channelId) = true

def OnlyReads : Statement → Prop
  | .updateSystem _ | .updateFrontersTimestamp _ | .updateFronters .. | .deleteFronterCategory _
  | .deleteNotifyChannel _ | .deleteNotifySystems _ | .removeNotifySystemFromGuilds .. => False
  | _ => True

/-- The system that the guild is set up for has private fronters. -/
def IsPrivate (past : History) (system : Uuid) : Prop :=
  ∃ guild settings found message, ⟨.notify (.other .ctxGuild), .ok (some guild)⟩ ∈ past ∧
    ⟨.notify (.other (.sql (.getGuildSettingsForId guild))), .ok (some settings)⟩ ∈ past ∧
    ⟨.notify (.other (.sql (.getSystem settings.systemUuid))), .ok (some found)⟩ ∈ past ∧ found.uuid = system ∧
    ⟨.notify (.other (.pkGetSystemFronters system)), .error (.pk 30004 message)⟩ ∈ past

/-- What a call may be after the ones before it. -/
structure Rule (libraries : Libraries) (past : History) (o : SetupCall) : Prop where
  save : ∀ save, o = .save save → Allowed libraries past save
  touch : ∀ guild, o = .touch guild → MayTouch libraries past guild
  /-- the time of the last update is the only thing that the other statements write -/
  sql : ∀ statement, o = .notify (.other (.sql statement)) → OnlyReads statement ∨
    ∃ system, statement = .updateFrontersTimestamp system ∧ IsPrivate past system
  notifySql : ∀ statement, o ≠ .notify (.sql statement)
  confirm : ∀ dialog, o = .confirm dialog → MayAsk libraries past dialog
  create : ∀ guild name kind overwrites, o = .createGuildChannel guild name kind overwrites →
    MayCreate libraries past guild name kind overwrites
  update : ∀ guild category members, o = .notify (.other (.updateFronterChannels guild category members)) →
    ∃ botUser title made, CategoryReady libraries past guild botUser members ∧
      ⟨.createGuildChannel guild title .guildCategory (categoryOverwrites guild botUser), .ok (.ok made)⟩ ∈ past ∧
      category = made.toChannel
  success : ∀ message, o = .notify (.other (.respondSuccess message)) → Succeeded past message

/-! ### More history -/

section More
variable {libraries : Libraries} {past past' : History} {guild : GuildId}

theorem IsRole.mono {roleId : Id .role} {role : Role} (h : IsRole past guild roleId role) (hsub : past ⊆ past') :
    IsRole past' guild roleId role := h.imp (fun h => hsub h) fun h => hsub h

theorem HasRoles.mono {userId : Id .user} {roleIds : List (Id .role)} (h : HasRoles past guild userId roleIds)
    (hsub : past ⊆ past') : HasRoles past' guild userId roleIds := h.imp (fun h => hsub h) fun h => hsub h

theorem MayReplaceSystem.mono (h : MayReplaceSystem past guild) (hsub : past ⊆ past') :
    MayReplaceSystem past' guild := by
  obtain ⟨existing, hmem, hconfirmed⟩ := h
  exact ⟨existing, hsub hmem, fun system hsystem => hsub (hconfirmed system hsystem)⟩

theorem MayReplaceCategory.mono (h : MayReplaceCategory past guild) (hsub : past ⊆ past') :
    MayReplaceCategory past' guild := by
  obtain ⟨existing, hmem, hconfirmed⟩ := h
  refine ⟨existing, hsub hmem, fun categoryId hcategory => ?_⟩
  obtain ⟨response, hresponse, hnamed⟩ := hconfirmed categoryId hcategory
  exact ⟨response, hsub hresponse, fun channel name hchannel hname => hsub (hnamed channel name hchannel hname)⟩

theorem MayReplaceChannel.mono {kept : Option ChannelId} (h : MayReplaceChannel past guild kept)
    (hsub : past ⊆ past') : MayReplaceChannel past' guild kept := by
  obtain ⟨configured, hmem, hconfirmed⟩ := h
  exact ⟨configured, hsub hmem, fun channelId hchannel => (hconfirmed channelId hchannel).imp_right fun h => hsub h⟩

theorem AreFronting.mono {system : Uuid} {members : List Member} (h : AreFronting past system members)
    (hsub : past ⊆ past') : AreFronting past' system members :=
  h.imp (.imp_left fun h => hsub h) (.imp fun _ => .imp_left fun h => hsub h)

theorem SystemReady.mono {system : ModPkSystem} (h : SystemReady libraries past guild system)
    (hsub : past ⊆ past') : SystemReady libraries past' guild system where
  guild_mem := hsub h.guild_mem
  named := by
    obtain ⟨text, systemRef, answer, htext, hparsed, hanswer, hsame⟩ := h.named
    exact ⟨text, systemRef, answer, hsub htext, hparsed, hsub hanswer, hsame⟩
  replace := h.replace.mono hsub
  touched := hsub h.touched

theorem Permitted.mono {botUser : Id .user} {channel : Option GuildChannel} {required : Permissions}
    (h : Permitted libraries past guild botUser channel required) (hsub : past ⊆ past') :
    Permitted libraries past' guild botUser channel required := by
  obtain ⟨hbot, everyoneRole, roleIds, memberRoles, heveryone, hids, hroles, hmissing⟩ := h
  exact ⟨hsub hbot, everyoneRole, roleIds, memberRoles, heveryone.mono hsub, hids.mono hsub,
    hroles.imp fun _ _ hrole => hrole.mono hsub, hmissing⟩

theorem Named.mono {answer : PkSystem} (h : Named libraries past answer) (hsub : past ⊆ past') :
    Named libraries past' answer := by
  obtain ⟨text, systemRef, htext, hparsed, hanswer⟩ := h
  exact ⟨text, systemRef, hsub htext, hparsed, hsub hanswer⟩

theorem CategoryReady.mono {botUser : Id .user} {members : List Member}
    (h : CategoryReady libraries past guild botUser members) (hsub : past ⊆ past') :
    CategoryReady libraries past' guild botUser members where
  guild_mem := hsub h.guild_mem
  fronting := by
    obtain ⟨settings, system, hsettings, hsystem, hmembers⟩ := h.fronting
    exact ⟨settings, system, hsub hsettings, hsub hsystem, hmembers.mono hsub⟩
  permitted := h.permitted.mono hsub
  replace := h.replace.mono hsub

theorem Found.mono {text : String} {existingChannel : Option GuildChannel}
    (h : Found libraries past guild text existingChannel) (hsub : past ⊆ past') :
    Found libraries past' guild text existingChannel := by
  cases existingChannel with
  | none =>
    obtain ⟨channels, hparsed, hmem, hfound⟩ := h
    exact ⟨channels, hparsed, hsub hmem, hfound⟩
  | some channel =>
    rcases h with ⟨id, hparsed, hmem, hguild⟩ | ⟨channels, hparsed, hmem, hfound⟩
    · exact .inl ⟨id, hparsed, hsub hmem, hguild⟩
    · exact .inr ⟨channels, hparsed, hsub hmem, hfound⟩

theorem ChannelReady.mono {text : String} {existingChannel : Option GuildChannel}
    (h : ChannelReady libraries past guild text existingChannel) (hsub : past ⊆ past') :
    ChannelReady libraries past' guild text existingChannel where
  guild_mem := hsub h.guild_mem
  text_mem := hsub h.text_mem
  found := h.found.mono hsub
  replace := h.replace.mono hsub

theorem ChannelMade.mono {channel : GuildChannel} (h : ChannelMade libraries past guild channel)
    (hsub : past ⊆ past') : ChannelMade libraries past' guild channel := by
  obtain ⟨text, botUser, ⟨hready, hpermitted⟩ | ⟨hready, hbot, hcreated⟩⟩ := h
  · exact ⟨text, botUser, .inl ⟨hready.mono hsub, hpermitted.mono hsub⟩⟩
  · exact ⟨text, botUser, .inr ⟨hready.mono hsub, hsub hbot, hsub hcreated⟩⟩

end More

/-! ### Programs of the other modules -/

def taskAnswered (answered : Prog.Answered Call.Reply) : Prog.Answered SetupCall.Reply :=
  ⟨.notify (.other answered.1), answered.2⟩

section Lifts
variable {R : History → SetupCall → Prop} {past : History} {α : Type} {Q : History → α → Prop}
  {E : History → Error → Prop}

theorem traced_task {p : Task α} (own : List (Prog.Answered Call.Reply))
    (h : p.Traced (fun own o => R (own.map taskAnswered ++ past) (.notify (.other o)))
      (fun own => Q (own.map taskAnswered ++ past)) (fun own => E (own.map taskAnswered ++ past)) own) :
    (task p).Traced R Q E (own.map taskAnswered ++ past) := by
  induction p generalizing own with
  | pure a => exact h
  | throw e => exact h
  | call o k ih => exact ⟨h.1, fun r => ih r _ (h.2 r)⟩

end Lifts

/-! ### Calls that need nothing -/

def QuietTask : Call → Prop
  | .updateFronterChannels .. | .respondSuccess _ => False
  | .sql statement => OnlyReads statement
  | _ => True

/-- Nothing is saved, created, updated, asked or told to have succeeded. -/
def Quiet : SetupCall → Prop
  | .save _ | .touch _ | .confirm _ | .createGuildChannel .. | .notify (.sql _) => False
  | .notify (.other o) => QuietTask o
  | _ => True

section Quiet
variable {libraries : Libraries} {past : History} {α β : Type}

theorem rule_of_quiet {o : SetupCall} (h : Quiet o) : Rule libraries past o := by
  refine ⟨?_, ?_, ?_, ?_, ?_, ?_, ?_, ?_⟩
  · rintro save rfl
    exact h.elim
  · rintro guild rfl
    exact h.elim
  · rintro statement rfl
    exact .inl h
  · rintro statement rfl
    exact h
  · rintro dialog rfl
    exact h.elim
  · rintro guild name kind overwrites rfl
    exact h.elim
  · rintro guild category members rfl
    exact h.elim
  · rintro message rfl
    exact h.elim

/-- The calls of the program are as they may be, and it returns only if `Q` holds then. -/
def Keeps (libraries : Libraries) (past : History) (p : SetupTask α) (Q : History → α → Prop) : Prop :=
  p.Traced (Rule libraries) Q (fun _ _ => True) past

theorem Keeps.pure {a : α} {Q : History → α → Prop} (h : Q past a) : Keeps libraries past (Pure.pure a) Q := h

theorem Keeps.throw {e : Error} {Q : History → α → Prop} : Keeps libraries past (Prog.throw e) Q := trivial

theorem Keeps.ofExcept {x : Except Error α} {Q : History → α → Prop} (h : ∀ a, x = .ok a → Q past a) :
    Keeps libraries past (Prog.ofExcept x) Q := Prog.Traced.ofExcept h fun _ _ => trivial

theorem Keeps.bind {p : SetupTask α} {f : α → SetupTask β} {Q : History → α → Prop} {Q' : History → β → Prop}
    (hp : Keeps libraries past p Q) (hf : ∀ past' a, past ⊆ past' → Q past' a → Keeps libraries past' (f a) Q') :
    Keeps libraries past (p >>= f) Q' := Prog.Traced.bind_grows hp hf

theorem Keeps.send {o : SetupCall} {f : o.Reply → SetupTask β} {Q : History → β → Prop} (ho : Rule libraries past o)
    (hf : ∀ r, Keeps libraries (⟨o, r⟩ :: past) (f r) Q) : Keeps libraries past (send o >>= f) Q :=
  Prog.Traced.send_bind ho hf

/-- A call and what the program takes from its answer. -/
theorem Keeps.ask {o : SetupCall} {g : o.Reply → Except Error α} {f : α → SetupTask β} {Q : History → β → Prop}
    (ho : Rule libraries past o) (hf : ∀ r a, g r = .ok a → Keeps libraries (⟨o, r⟩ :: past) (f a) Q) :
    Keeps libraries past (do let r ← Setup.send o; let a ← Prog.ofExcept (g r); f a) Q :=
  Keeps.send ho fun r => (Keeps.ofExcept (Q := fun past' a => past' = ⟨o, r⟩ :: past ∧ g r = .ok a)
    fun _ ha => ⟨rfl, ha⟩).bind fun _ a _ h => h.1 ▸ hf r a h.2

theorem Keeps.mono {p : SetupTask α} {Q Q' : History → α → Prop} (hp : Keeps libraries past p Q)
    (h : ∀ past' a, past ⊆ past' → Q past' a → Q' past' a) : Keeps libraries past p Q' :=
  hp.grows.mono fun past' a hQ => h past' a hQ.1 hQ.2

theorem Keeps.of_all {p : SetupTask α} (hp : p.All Quiet fun _ => True) :
    Keeps libraries past p fun past' _ => past ⊆ past' := by
  have hkeeps : p.Traced (Rule libraries) (fun _ _ => True) (fun _ _ => True) past :=
    Prog.Traced.keeps (I := fun _ => True) (hp.mono (fun _ => id) fun _ _ _ _ => trivial)
      (fun _ _ ho _ => rule_of_quiet ho) (fun _ _ _ _ _ => trivial) trivial
  exact hkeeps.grows.mono fun _ _ h => h.1

theorem keeps_task {p : Task α} {Q : History → α → Prop}
    (h : p.Traced (fun _ o => QuietTask o) (fun own => Q (own.map taskAnswered ++ past)) (fun _ _ => True) []) :
    Keeps libraries past (task p) Q := by
  exact traced_task [] (h.imp fun _ o ho => rule_of_quiet ho)

end Quiet

/-! ### Permissions -/

section Permissions
variable {libraries : Libraries} {past : History}

theorem keeps_getRole (guild : GuildId) (roleId : Id .role) :
    Keeps libraries past (getRole guild roleId) fun past role => IsRole past guild roleId role := by
  refine Keeps.ask (rule_of_quiet trivial) ?_
  rintro _ cached rfl
  cases cached with
  | some role => exact Keeps.pure (.inl List.mem_cons_self)
  | none =>
    refine Keeps.ask (rule_of_quiet trivial) ?_
    rintro _ response rfl
    refine Keeps.ofExcept ?_
    rintro role rfl
    exact .inr List.mem_cons_self

theorem keeps_getMemberRoleIds (userId : Id .user) (guild : GuildId) :
    Keeps libraries past (getMemberRoleIds userId guild) fun past roleIds => HasRoles past guild userId roleIds := by
  refine Keeps.ask (rule_of_quiet trivial) ?_
  rintro _ cached rfl
  cases cached with
  | some roleIds => exact Keeps.pure (.inl List.mem_cons_self)
  | none =>
    refine Keeps.ask (rule_of_quiet trivial) ?_
    rintro _ response rfl
    refine Keeps.ofExcept ?_
    rintro roleIds rfl
    exact .inr List.mem_cons_self

theorem keeps_getRoles (guild : GuildId) (roleIds : List (Id .role)) :
    Keeps libraries past (getRoles guild roleIds) fun past roles => List.Forall₂ (IsRole past guild) roleIds roles := by
  induction roleIds generalizing past with
  | nil => exact Keeps.pure .nil
  | cons roleId roleIds ih =>
    refine (keeps_getRole guild roleId).bind fun past₁ role _ hrole => ih.bind fun past₂ roles hsub hroles => ?_
    exact Keeps.pure (.cons (hrole.mono hsub) hroles)

theorem all_respondError (message : String) : (respondError message).All Quiet fun _ => True := by
  refine ⟨trivial, fun r => ?_⟩
  cases r <;> trivial

/-- The check passes only with the permissions. -/
theorem keeps_handlePermissions {guild : GuildId} {botUser : Id .user} {channel : Option GuildChannel}
    {required : Permissions} (hbot : ⟨.currentUser, .ok (.ok botUser)⟩ ∈ past) :
    Keeps libraries past (handlePermissions libraries guild botUser channel required) fun past passed =>
      passed = true → Permitted libraries past guild botUser channel required := by
  refine (keeps_getRole guild (everyoneRoleId guild)).bind fun past₁ everyoneRole hsub₁ heveryone => ?_
  have hroles : Keeps libraries past₁ (getMemberRoles botUser guild) fun past' memberRoles =>
      ∃ roleIds, HasRoles past' guild botUser roleIds ∧ List.Forall₂ (IsRole past' guild) roleIds memberRoles := by
    refine (keeps_getMemberRoleIds botUser guild).bind fun past₂ roleIds _ hids => ?_
    exact (keeps_getRoles guild roleIds).mono fun past₃ memberRoles hsub hroles => ⟨roleIds, hids.mono hsub, hroles⟩
  refine hroles.bind fun past₂ memberRoles hsub₂ ⟨roleIds, hids, hforall⟩ => ?_
  dsimp only
  split
  next hmissing =>
    refine Keeps.pure fun _ => ⟨hsub₂ (hsub₁ hbot), everyoneRole, roleIds, memberRoles, ?_⟩
    exact ⟨heveryone.mono hsub₂, hids, hforall, hmissing⟩
  next hmissing =>
    refine (Keeps.ofExcept (Q := fun _ _ => True) fun _ _ => trivial).bind fun past₃ text _ _ => ?_
    exact (Keeps.of_all (all_respondError _)).bind fun past₄ _ _ _ => Keeps.pure nofun

end Permissions

/-! ### `/pk setup` -/

section System
variable {libraries : Libraries} {past : History} {guild : GuildId}

theorem rule_confirm {dialog : Dialog} (h : MayAsk libraries past dialog) :
    Rule libraries past (.confirm dialog) := by
  refine ⟨nofun, nofun, nofun, nofun, ?_, nofun, nofun, nofun⟩
  rintro _ ⟨⟩
  exact h

theorem rule_touch (h : MayTouch libraries past guild) : Rule libraries past (.touch guild) := by
  refine ⟨nofun, ?_, nofun, nofun, nofun, nofun, nofun, nofun⟩
  rintro _ ⟨⟩
  exact h

theorem keeps_confirmSystem {answer : PkSystem} (hguild : ⟨.notify (.other .ctxGuild), .ok (some guild)⟩ ∈ past)
    (hnamed : Named libraries past answer) : Keeps libraries past (confirmSystem guild) fun past confirmed =>
      confirmed = true → MayReplaceSystem past guild := by
  refine Keeps.ask (rule_of_quiet trivial) ?_
  rintro _ existing rfl
  cases existing with
  | none => exact Keeps.pure fun _ => ⟨none, List.mem_cons_self, nofun⟩
  | some system =>
    refine Keeps.send (rule_confirm ⟨guild, answer, List.mem_cons_of_mem _ hguild,
      hnamed.mono (List.subset_cons_self _ _), List.mem_cons_self⟩) fun confirmed => Keeps.ofExcept ?_
    rintro passed rfl rfl
    refine ⟨some system, List.mem_cons_of_mem _ List.mem_cons_self, ?_⟩
    rintro _ ⟨⟩
    exact List.mem_cons_self

theorem rule_save {save : Save} (h : Allowed libraries past save) : Rule libraries past (.save save) := by
  refine ⟨?_, nofun, nofun, nofun, nofun, nofun, nofun, nofun⟩
  rintro _ ⟨⟩
  exact h

theorem keeps_respondSuccess {message : String} (h : Succeeded past message) :
    Keeps libraries past (respondSuccess message) fun _ _ => True := by
  refine ⟨⟨nofun, nofun, nofun, nofun, nofun, nofun, nofun, ?_⟩, fun r => ?_⟩
  · rintro _ ⟨⟩
    exact h
  · cases r <;> trivial

/-- What is ready but for the row of the guild. -/
theorem keeps_saveSystem {userId : Id .user} {system : ModPkSystem} (htouch : MayTouch libraries past guild)
    (hready : ∀ past', past ⊆ past' → ⟨.touch guild, .ok ()⟩ ∈ past' → SystemReady libraries past' guild system)
    (huser : ⟨.authorId, some userId⟩ ∈ past) :
    Keeps libraries past (saveSystem guild userId system) fun _ _ => True := by
  refine Keeps.ask (rule_touch htouch) ?_
  rintro _ _ rfl
  have hsystem := hready _ (List.subset_cons_self _ _) List.mem_cons_self
  refine Keeps.ask (rule_save ⟨guild, hsystem⟩) ?_
  rintro _ _ rfl
  have hsettings : Allowed libraries (⟨.save (.updateSystem system), .ok ()⟩ :: ⟨.touch guild, .ok ()⟩ :: past)
      (.saveGuildSettings ⟨guild, userId, system.uuid⟩) :=
    ⟨List.mem_cons_of_mem _ (List.mem_cons_of_mem _ huser), system, hsystem.mono (List.subset_cons_self _ _),
      List.mem_cons_self, rfl⟩
  refine Keeps.ask (rule_save hsettings) ?_
  rintro _ _ rfl
  refine keeps_respondSuccess (.inl ⟨system, ⟨guild, userId, system.uuid⟩, ?_, List.mem_cons_self, rfl, rfl⟩)
  exact List.mem_cons_of_mem _ List.mem_cons_self

theorem keeps_setupSystem {userId : Id .user} {text : String} {systemRef : SystemRef}
    (hguild : ⟨.notify (.other .ctxGuild), .ok (some guild)⟩ ∈ past) (huser : ⟨.authorId, some userId⟩ ∈ past)
    (htext : ⟨.notify (.getArgString "system_id"), .ok text⟩ ∈ past)
    (hparsed : libraries.fromStr text = some systemRef) :
    Keeps libraries past (setupSystem guild userId systemRef) fun _ _ => True := by
  refine Keeps.send (rule_of_quiet trivial) fun reply => ?_
  cases reply with
  | error err =>
    cases err with
    | other message => exact Keeps.throw
    | pk code message =>
      dsimp only
      split
      · exact (Keeps.of_all (all_respondError _)).mono fun _ _ _ _ => trivial
      · exact Keeps.throw
  | ok answer =>
    -- the system carries what was answered, and two readings of the clock
    have hmodel : Keeps libraries (⟨.notify (.pkGetSystem systemRef), .ok answer⟩ :: past) (task (toModPkSystem answer))
        fun _ system => (system.uuid, system.id, system.name, system.avatar) =
          (answer.uuid, answer.id, answer.name, answer.avatarUrl) :=
      ⟨rule_of_quiet trivial, fun _ => ⟨rule_of_quiet trivial, fun _ => rfl⟩⟩
    refine hmodel.bind fun past₁ system hsub₁ hsystem => ?_
    have hmem₁ : past ⊆ past₁ := List.subset_of_cons_subset hsub₁
    have hnamed : Named libraries past₁ answer := ⟨text, systemRef, hmem₁ htext, hparsed, hsub₁ List.mem_cons_self⟩
    refine (keeps_confirmSystem (hmem₁ hguild) hnamed).bind fun past₂ confirmed hsub₂ hconfirmed => ?_
    split
    next hpassed =>
      have hmem : past ⊆ past₂ := List.Subset.trans hmem₁ hsub₂
      have htouch : MayTouch libraries past₂ guild :=
        .inl ⟨hmem hguild, ⟨answer, hnamed.mono hsub₂⟩, hconfirmed hpassed⟩
      refine keeps_saveSystem htouch (fun past' hsub htouched => ?_) (hmem huser)
      exact {
        guild_mem := hsub (hmem hguild)
        named := ⟨text, systemRef, answer, hsub (hmem htext), hparsed,
          hsub (hsub₂ (hsub₁ List.mem_cons_self)), hsystem⟩
        replace := (hconfirmed hpassed).mono hsub
        touched := htouched }
    next => exact Keeps.pure trivial

theorem keeps_handleSystemRef {text : String} : Keeps libraries past
    (lift (Notify.handleSystemRef libraries.fromStr text)) fun _ systemRef =>
      ∀ found, systemRef = some found → libraries.fromStr text = some found := by
  unfold Notify.handleSystemRef
  cases hparsed : libraries.fromStr text with
  | some systemRef =>
    refine Keeps.pure ?_
    rintro _ ⟨⟩
    rfl
  | none =>
    refine ⟨rule_of_quiet trivial, fun r => ?_⟩
    cases r with
    | error e => trivial
    | ok _ => exact nofun

theorem keeps_setup : Keeps libraries past (setup libraries) fun _ _ => True := by
  refine Keeps.ask (rule_of_quiet trivial) ?_
  rintro _ guild rfl
  cases guild with
  | none => exact Keeps.throw
  | some guild =>
    refine Keeps.ask (rule_of_quiet trivial) ?_
    rintro _ _ rfl
    refine Keeps.send (rule_of_quiet trivial) fun author => ?_
    cases author with
    | none => exact Keeps.throw
    | some userId =>
      refine Keeps.ask (rule_of_quiet trivial) ?_
      rintro _ text rfl
      refine keeps_handleSystemRef.bind fun past' systemRef hsub hparsed => ?_
      cases systemRef with
      | none => exact Keeps.pure trivial
      | some systemRef =>
        refine keeps_setupSystem (hsub ?_) (hsub ?_) (hsub List.mem_cons_self) (hparsed systemRef rfl)
        · simp
        · simp

end System

/-! ### `/pk fronters setup` -/

section Category
variable {libraries : Libraries} {past : History} {guild : GuildId}

theorem keeps_sql {statement : Statement} (h : OnlyReads statement) : Keeps libraries past (sql statement)
    fun past rows => ⟨.notify (.other (.sql statement)), .ok rows⟩ ∈ past := by
  refine ⟨rule_of_quiet h, fun r => ?_⟩
  cases r with
  | error e => trivial
  | ok rows => exact List.mem_cons_self

theorem Keeps.mapError {α : Type} {p : SetupTask α} {g : Error → Error} {Q : History → α → Prop}
    (hp : Keeps libraries past p Q) : Keeps libraries past (p.mapError g) Q := Prog.Traced.mapError hp

theorem keeps_confirmCategory {botUser : Id .user} {settings : ModPkGuildRow}
    (hguild : ⟨.notify (.other .ctxGuild), .ok (some guild)⟩ ∈ past)
    (hsettings : ⟨.notify (.other (.sql (.getGuildSettingsForId guild))), .ok (some settings)⟩ ∈ past)
    (hpermitted : Permitted libraries past guild botUser none requiredCategoryPermissions) :
    Keeps libraries past (confirmCategory guild) fun past confirmed =>
      confirmed = true → MayReplaceCategory past guild := by
  refine (keeps_sql (by trivial)).mapError.bind fun past₁ existing hsub₁ hexisting => ?_
  cases existing with
  | none => exact Keeps.pure fun _ => ⟨none, hexisting, nofun⟩
  | some categoryId =>
    refine Keeps.send (rule_of_quiet trivial) fun response => ?_
    have hread : ∀ past', ⟨.channel categoryId, response⟩ :: past₁ ⊆ past' →
        (∀ channel name, response = .ok (.ok channel) → channel.name = some name →
          ⟨.confirm (.confirmOverwriteCategory name), .ok true⟩ ∈ past') → MayReplaceCategory past' guild := by
      intro past' hsub hnamed
      refine ⟨some categoryId, hsub (List.mem_cons_of_mem _ hexisting), ?_⟩
      rintro _ ⟨⟩
      exact ⟨response, hsub List.mem_cons_self, hnamed⟩
    split
    next channel =>
      cases hname : channel.name with
      | none =>
        refine Keeps.pure fun _ => hread _ (List.Subset.refl _) ?_
        rintro _ name ⟨⟩ hsome
        exact absurd (hname.symm.trans hsome) nofun
      | some name =>
        have hsub := List.Subset.trans hsub₁ (List.subset_cons_self ⟨.channel categoryId, .ok (.ok channel)⟩ past₁)
        have hask : MayAsk libraries (⟨.channel categoryId, .ok (.ok channel)⟩ :: past₁)
            (.confirmOverwriteCategory name) :=
          ⟨guild, botUser, settings, categoryId, channel, hsub hguild, hsub hsettings, hpermitted.mono hsub,
            List.mem_cons_of_mem _ hexisting, List.mem_cons_self, hname⟩
        refine Keeps.mapError (Keeps.send (rule_confirm hask) fun confirmed => Keeps.ofExcept ?_)
        rintro passed rfl rfl
        refine hread _ (List.subset_cons_self _ _) ?_
        rintro _ name' ⟨⟩ hsome
        obtain rfl := Option.some.inj (hname.symm.trans hsome)
        exact List.mem_cons_self
    next hunread =>
      refine Keeps.pure fun _ => hread _ (List.Subset.refl _) ?_
      rintro channel name rfl
      exact absurd rfl (hunread channel)

/-- What PluralKit answers about the fronters. -/
structure FrontersAnswered (past : History) (system : Uuid)
    (result : Except GetSystemFrontersError (Option Fronters)) : Prop where
  fronting : ∀ fronters, result = .ok fronters → AreFronting past system ((fronters.map (·.members)).getD [])
  hidden : ∀ other, result = .error (.frontPrivate other) →
    ∃ message, ⟨.notify (.other (.pkGetSystemFronters system)), .error (.pk 30004 message)⟩ ∈ past

theorem memberStructs_ne_private (system other : Uuid) (members : List StringOrStruct) :
    memberStructs system members ≠ .error (.frontPrivate other) := by
  induction members with
  | nil => exact nofun
  | cons member members ih =>
    cases member with
    | string uuid => exact nofun
    | struct member =>
      intro h
      rw [memberStructs] at h
      cases hrest : memberStructs system members with
      | ok rest => rw [hrest] at h; cases h
      | error err =>
        rw [hrest] at h
        exact ih (hrest.trans (congrArg Except.error (Except.error.inj h)))

theorem keeps_getSystemFronters (system : Uuid) :
    Keeps libraries past (task (getSystemFronters system).attempt) fun past result =>
      FrontersAnswered past system result := by
  refine keeps_task (Prog.Traced.attempt (Prog.Traced.send_bind trivial fun reply => ?_))
  split
  next message => exact ⟨nofun, fun _ _ => ⟨message, List.mem_cons_self⟩⟩
  next => exact ⟨nofun, nofun⟩
  next => exact ⟨nofun, nofun⟩
  next =>
    refine ⟨?_, nofun⟩
    rintro _ ⟨⟩
    exact .inl ⟨List.mem_cons_self, rfl⟩
  next switch =>
    refine Prog.Traced.bind (Prog.Traced.ofExcept (fun members hmembers => ?_) fun err herr => ?_)
    · refine Prog.Traced.send_bind trivial fun timestamp => ?_
      cases timestamp with
      | none => exact ⟨nofun, nofun⟩
      | some timestamp =>
        refine ⟨?_, nofun⟩
        rintro _ ⟨⟩
        exact .inr ⟨switch, List.mem_cons_of_mem _ List.mem_cons_self, hmembers⟩
    · refine ⟨nofun, fun other hother => absurd herr ?_⟩
      rw [Except.error.inj hother]
      exact memberStructs_ne_private system other switch.members

/-- The time of the last update may be written if the fronters are private. -/
theorem keeps_updateFrontersTimestamp {system : Uuid} (h : IsPrivate past system) :
    Keeps libraries past (task (updateFrontersTimestamp system).attempt) fun _ _ => True := by
  have hrule : Rule libraries past (.notify (.other (.sql (.updateFrontersTimestamp system)))) := by
    refine ⟨nofun, nofun, ?_, nofun, nofun, nofun, nofun, nofun⟩
    rintro _ ⟨⟩
    exact .inr ⟨system, rfl, h⟩
  refine ⟨hrule, fun r => ?_⟩
  cases r <;> trivial

theorem rule_create {botUser : Id .user} {members : List Member} {title : String}
    (hready : CategoryReady libraries past guild botUser members) :
    Rule libraries past (.createGuildChannel guild title .guildCategory (categoryOverwrites guild botUser)) := by
  refine ⟨nofun, nofun, nofun, nofun, nofun, ?_, nofun, nofun⟩
  rintro _ _ _ _ ⟨⟩
  exact ⟨botUser, .inl ⟨rfl, rfl, members, hready⟩⟩

theorem rule_update {botUser : Id .user} {members : List Member} {title : String} {category : GuildChannel}
    (hready : CategoryReady libraries past guild botUser members)
    (hcreated : ⟨.createGuildChannel guild title .guildCategory (categoryOverwrites guild botUser),
      .ok (.ok category)⟩ ∈ past) :
    Rule libraries past (.notify (.other (.updateFronterChannels guild category.toChannel members))) := by
  refine ⟨nofun, nofun, nofun, nofun, nofun, nofun, ?_, nofun⟩
  rintro _ _ _ ⟨⟩
  exact ⟨botUser, title, category, hready, hcreated, rfl⟩

theorem keeps_createCategory {botUser : Id .user} {members : List Member}
    (hready : CategoryReady libraries past guild botUser members) :
    Keeps libraries past (createCategory guild botUser members) fun _ _ => True := by
  refine Keeps.ask (rule_of_quiet trivial) ?_
  rintro _ title rfl
  refine Keeps.ask (rule_create (hready.mono (List.subset_cons_self _ _))) ?_
  rintro _ response rfl
  refine (Keeps.ofExcept (Q := fun past' category => past' = _ ∧ response = .ok category)
    fun _ h => ⟨rfl, h⟩).bind ?_
  rintro _ category - ⟨rfl, rfl⟩
  refine Keeps.ask (rule_update (hready.mono ?_) List.mem_cons_self) ?_
  · exact List.subset_cons_of_subset _ (List.subset_cons_self _ _)
  rintro _ _ rfl
  refine Keeps.ask (rule_save ⟨botUser, members, title, category, hready.mono ?_, ?_, List.mem_cons_self, rfl⟩) ?_
  · exact List.subset_cons_of_subset _ (List.subset_cons_of_subset _ (List.subset_cons_self _ _))
  · exact List.mem_cons_of_mem _ List.mem_cons_self
  rintro _ _ rfl
  exact keeps_respondSuccess (.inr (.inl ⟨_, List.mem_cons_self, rfl⟩))

theorem keeps_setupCategory {botUser : Id .user} {settings : ModPkGuildRow}
    (hguild : ⟨.notify (.other .ctxGuild), .ok (some guild)⟩ ∈ past)
    (hsettings : ⟨.notify (.other (.sql (.getGuildSettingsForId guild))), .ok (some settings)⟩ ∈ past)
    (hpermitted : Permitted libraries past guild botUser none requiredCategoryPermissions)
    (hreplace : MayReplaceCategory past guild) :
    Keeps libraries past (setupCategory guild botUser settings.systemUuid) fun _ _ => True := by
  refine (keeps_sql (by trivial)).mapError.bind fun past₁ found hsub₁ hfound => ?_
  cases found with
  | none => exact Keeps.throw
  | some system =>
    refine (keeps_getSystemFronters system.uuid).bind fun past₂ result hsub₂ hfronting => ?_
    have hsub := List.Subset.trans hsub₁ hsub₂
    rcases result with (other | _ | err) | fronters
    · obtain ⟨message, hprivate⟩ := hfronting.hidden other rfl
      refine (Keeps.of_all (all_respondError _)).bind fun past₃ _ hsub₃ _ => ?_
      refine (keeps_updateFrontersTimestamp ?_).bind fun _ _ _ _ => Keeps.pure trivial
      exact ⟨guild, settings, system, message, hsub₃ (hsub hguild), hsub₃ (hsub hsettings), hsub₃ (hsub₂ hfound), rfl,
        hsub₃ hprivate⟩
    · exact Keeps.throw
    · exact Keeps.throw
    · exact keeps_createCategory {
        guild_mem := hsub hguild
        fronting := ⟨settings, system, hsub hsettings, hsub₂ hfound, hfronting.fronting fronters rfl⟩
        permitted := hpermitted.mono hsub
        replace := hreplace.mono hsub }

theorem keeps_frontersSetup : Keeps libraries past (frontersSetup libraries) fun _ _ => True := by
  refine Keeps.ask (rule_of_quiet trivial) ?_
  rintro _ guild rfl
  cases guild with
  | none => exact Keeps.throw
  | some guild =>
    refine Keeps.ask (rule_of_quiet trivial) ?_
    rintro _ _ rfl
    refine (keeps_sql (by trivial)).bind fun past₁ settings hsub₁ hsettings => ?_
    cases settings with
    | none => exact (Keeps.of_all (all_respondError _)).mono fun _ _ _ _ => trivial
    | some settings =>
      refine Keeps.ask (rule_of_quiet trivial) ?_
      rintro _ response rfl
      refine (Keeps.ofExcept (Q := fun past' botUser => past' = _ ∧ response = .ok botUser)
        fun _ h => ⟨rfl, h⟩).bind ?_
      rintro _ botUser - ⟨rfl, rfl⟩
      refine (keeps_handlePermissions List.mem_cons_self).bind fun past₂ passed hsub₂ hpermitted => ?_
      split
      next hpassed =>
        have hsub := List.subset_of_cons_subset hsub₂
        have hguild := hsub (hsub₁ (List.mem_cons_of_mem _ List.mem_cons_self))
        refine (keeps_confirmCategory hguild (hsub hsettings) (hpermitted hpassed)).bind
          fun past₃ confirmed hsub₃ hreplace => ?_
        split
        next hconfirmed =>
          exact keeps_setupCategory (hsub₃ hguild) (hsub₃ (hsub hsettings)) ((hpermitted hpassed).mono hsub₃)
            (hreplace hconfirmed)
        next => exact Keeps.pure trivial
      next => exact Keeps.pure trivial

end Category

/-! ### `/pk notify setup` -/

section Channel
variable {libraries : Libraries} {past : History} {guild : GuildId} {text : String}
  {existingChannel : Option GuildChannel}

theorem keeps_handleChannelFromId {channelId : ChannelId} (hparsed : parseChannelRef text = some channelId) :
    Keeps libraries past (handleChannelFromId guild channelId) fun past channel =>
      ∀ found, channel = some found → Found libraries past guild text (some found) := by
  have hnotFound : ∀ past, Keeps libraries past
      (do channelNotFound channelId; pure none : SetupTask (Option GuildChannel)) fun past channel =>
        ∀ found, channel = some found → Found libraries past guild text (some found) := fun past =>
    (Keeps.of_all (all_respondError _)).bind fun _ _ _ _ => Keeps.pure nofun
  refine Keeps.send (rule_of_quiet trivial) fun reply => ?_
  cases reply with
  | error err =>
    dsimp only
    split
    · exact hnotFound _
    · exact Keeps.throw
  | ok response =>
    refine (Keeps.ofExcept (Q := fun past' channel => past' = _ ∧ response = .ok channel)
      fun _ h => ⟨rfl, h⟩).bind ?_
    rintro _ channel - ⟨rfl, rfl⟩
    split
    · exact hnotFound _
    next hguild =>
      refine Keeps.pure ?_
      rintro _ ⟨⟩
      refine .inl ⟨channelId, hparsed, List.mem_cons_self, fun guildId hsome => ?_⟩
      by_contra hne
      simp [hsome, hne] at hguild

theorem keeps_findChannelByName (hparsed : parseChannelRef text = none) :
    Keeps libraries past (findChannelByName libraries guild text .guildText) fun past existingChannel =>
      Found libraries past guild text existingChannel := by
  refine Keeps.ask (rule_of_quiet trivial) ?_
  rintro _ response rfl
  refine (Keeps.ofExcept (Q := fun past' channels => past' = _ ∧ response = .ok channels)
    fun _ h => ⟨rfl, h⟩).bind ?_
  rintro _ channels - ⟨rfl, rfl⟩
  refine Keeps.ofExcept fun existingChannel hfound => ?_
  cases existingChannel with
  | none => exact ⟨channels, hparsed, List.mem_cons_self, hfound⟩
  | some channel => exact .inr ⟨channels, hparsed, List.mem_cons_self, hfound⟩

theorem keeps_confirmChannel (hguild : ⟨.notify (.other .ctxGuild), .ok (some guild)⟩ ∈ past)
    (htext : ⟨.notify (.getArgString "channel"), .ok text⟩ ∈ past)
    (hfound : Found libraries past guild text existingChannel) :
    Keeps libraries past (confirmChannel guild existingChannel) fun past confirmed =>
      confirmed = true → MayReplaceChannel past guild (existingChannel.map (·.id)) := by
  refine (keeps_sql (by trivial)).bind fun past₁ configured hsub₁ hconfigured => ?_
  cases configured with
  | none => exact Keeps.pure fun _ => ⟨none, hconfigured, nofun⟩
  | some configuredChannel =>
    dsimp only
    split
    next hother =>
      have hask : MayAsk libraries past₁ (.confirmSetup configuredChannel) :=
        ⟨guild, text, existingChannel, hsub₁ hguild, hsub₁ htext, hfound.mono hsub₁, hconfigured, hother⟩
      refine Keeps.send (rule_confirm hask) fun confirmed => Keeps.ofExcept ?_
      rintro passed rfl rfl
      refine ⟨some configuredChannel, List.mem_cons_of_mem _ hconfigured, ?_⟩
      rintro _ ⟨⟩
      exact .inr List.mem_cons_self
    next hsame =>
      refine Keeps.pure fun _ => ⟨some configuredChannel, hconfigured, ?_⟩
      rintro _ ⟨⟩
      cases existingChannel with
      | none => exact absurd rfl hsame
      | some channel => exact .inl (by simpa using hsame)

theorem keeps_notifyChannel {botUser : Id .user} (hready : ChannelReady libraries past guild text existingChannel)
    (hbot : ⟨.currentUser, .ok (.ok botUser)⟩ ∈ past) :
    Keeps libraries past (notifyChannel libraries guild botUser text existingChannel) fun past channel =>
      ∀ made, channel = some made → ChannelMade libraries past guild made := by
  cases existingChannel with
  | some channel =>
    refine (keeps_handlePermissions hbot).bind fun past₁ passed hsub hpermitted => ?_
    split
    next hpassed =>
      refine Keeps.pure ?_
      rintro _ ⟨⟩
      exact ⟨text, botUser, .inl ⟨hready.mono hsub, hpermitted hpassed⟩⟩
    next => exact Keeps.pure nofun
  | none =>
    have hcreate : Rule libraries past (.createGuildChannel guild text .guildText (notifyOverwrites botUser)) := by
      refine ⟨nofun, nofun, nofun, nofun, nofun, ?_, nofun, nofun⟩
      rintro _ _ _ _ ⟨⟩
      exact ⟨botUser, .inr ⟨rfl, rfl, hbot, hready⟩⟩
    refine Keeps.ask hcreate ?_
    rintro _ response rfl
    refine (Keeps.ofExcept (Q := fun past' channel => past' = _ ∧ response = .ok channel)
      fun _ h => ⟨rfl, h⟩).bind ?_
    rintro _ channel - ⟨rfl, rfl⟩
    refine Keeps.pure ?_
    rintro _ ⟨⟩
    exact ⟨text, botUser, .inr ⟨hready.mono (List.subset_cons_self _ _), List.mem_cons_of_mem _ hbot,
      List.mem_cons_self⟩⟩

theorem keeps_saveChannel {channel : GuildChannel} (hmade : ChannelMade libraries past guild channel) :
    Keeps libraries past (saveChannel guild channel) fun _ _ => True := by
  refine Keeps.ask (rule_touch (.inr ⟨channel, hmade⟩)) ?_
  rintro _ _ rfl
  refine Keeps.ask (rule_save ⟨channel, hmade.mono (List.subset_cons_self _ _), rfl, List.mem_cons_self⟩) ?_
  rintro _ _ rfl
  exact keeps_respondSuccess (.inr (.inr ⟨_, List.mem_cons_self, rfl⟩))

theorem keeps_setupChannel {botUser : Id .user} (hguild : ⟨.notify (.other .ctxGuild), .ok (some guild)⟩ ∈ past)
    (htext : ⟨.notify (.getArgString "channel"), .ok text⟩ ∈ past) (hbot : ⟨.currentUser, .ok (.ok botUser)⟩ ∈ past)
    (hfound : Found libraries past guild text existingChannel) :
    Keeps libraries past (setupChannel libraries guild botUser text existingChannel) fun _ _ => True := by
  refine (keeps_confirmChannel hguild htext hfound).bind fun past₁ confirmed hsub₁ hreplace => ?_
  split
  next hconfirmed =>
    have hready : ChannelReady libraries past₁ guild text existingChannel :=
      ⟨hsub₁ hguild, hsub₁ htext, hfound.mono hsub₁, hreplace hconfirmed⟩
    refine (keeps_notifyChannel hready (hsub₁ hbot)).bind fun past₂ channel _ hmade => ?_
    cases channel with
    | none => exact Keeps.pure trivial
    | some channel => exact keeps_saveChannel (hmade channel rfl)
  next => exact Keeps.pure trivial

theorem keeps_notifySetup : Keeps libraries past (notifySetup libraries) fun _ _ => True := by
  refine Keeps.ask (rule_of_quiet trivial) ?_
  rintro _ guild rfl
  cases guild with
  | none => exact Keeps.throw
  | some guild =>
    refine Keeps.ask (rule_of_quiet trivial) ?_
    rintro _ _ rfl
    refine Keeps.ask (rule_of_quiet trivial) ?_
    rintro _ text rfl
    refine Keeps.ask (rule_of_quiet trivial) ?_
    rintro _ response rfl
    refine (Keeps.ofExcept (Q := fun past' botUser => past' = _ ∧ response = .ok botUser)
      fun _ h => ⟨rfl, h⟩).bind ?_
    rintro _ botUser - ⟨rfl, rfl⟩
    split
    next channelId hparsed =>
      refine (keeps_handleChannelFromId hparsed).bind fun past₁ channel hsub hfound => ?_
      cases channel with
      | none => exact Keeps.pure trivial
      | some channel =>
        refine keeps_setupChannel (hsub ?_) (hsub ?_) (hsub List.mem_cons_self) (hfound channel rfl)
        · simp
        · simp
    next hparsed =>
      refine (keeps_findChannelByName hparsed).bind fun past₁ existingChannel hsub hfound => ?_
      refine keeps_setupChannel (hsub ?_) (hsub ?_) (hsub List.mem_cons_self) hfound
      · simp
      · simp

end Channel

/-! ### The commands -/

theorem keeps_handle {libraries : Libraries} (command : Command) :
    Keeps libraries [] (command.handle libraries) fun _ _ => True := by
  cases command with
  | setup => exact keeps_setup
  | frontersSetup => exact keeps_frontersSetup
  | notifySetup => exact keeps_notifySetup

/-- ASCII in lower case; `PermissionCalculator` without overwrites; no permission is missing here. -/
def plainLibraries : Libraries where
  fromStr _ := none
  toLowercase s := String.ofList (s.toList.map Char.toLower)
  root _ _ everyone roles := roles.foldl (fun permissions role => permissions ||| role.2) everyone
  inChannel _ _ everyone roles _ _ := roles.foldl (fun permissions role => permissions ||| role.2) everyone
  iterNames _ := []

def plainGuild : GuildId := ⟨231, by decide⟩

def plainChannel : GuildChannel := ⟨⟨⟨232, by decide⟩, some plainGuild⟩, .guildText, some "fronts", none⟩

def plainBot : Id .user := ⟨233, by decide⟩

def called (o : SetupCall) (r : o.Reply) : Called SetupCall SetupCall.Reply Unit := ⟨o, r, (), ()⟩

/-- A channel that the bot may write in, and none was configured. -/
def plainCalls : List (Called SetupCall SetupCall.Reply Unit) :=
  [called (.notify (.other .ctxGuild)) (.ok (some plainGuild)), called (.notify .defer) (.ok ()),
    called (.notify (.getArgString "channel")) (.ok "Fronts"), called .currentUser (.ok (.ok plainBot)),
    called (.guildChannels plainGuild) (.ok (.ok [plainChannel])),
    called (.notify (.other (.sql (.getNotifyChannel plainGuild)))) (.ok none),
    called (.cachedRole (everyoneRoleId plainGuild))
      (.ok (some ⟨everyoneRoleId plainGuild, requiredNotifyPermissions⟩)),
    called (.cachedMember plainGuild plainBot) (.ok (some [])), called (.touch plainGuild) (.ok ())]

def plainSave : Save := .saveNotifyChannel ⟨plainGuild, plainChannel.id⟩

def plainEnd : List (Called SetupCall SetupCall.Reply Unit) :=
  [called (.notify (.other (.respondSuccess
    s!"### Success\nTulpje will notify you of front changes in <#{plainChannel.id}>"))) (.ok ())]

end Tulpje.Pluralkit.Setup
