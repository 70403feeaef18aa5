import Tulpje.Pluralkit.Database

/-!
# Fronters

The front update service and `/pk fronters update`: `fronters/shared.rs`, `fronters/tasks.rs`,
`fronters/update.rs` and `front_update_service.rs`, call by call. What PluralKit, Discord and the libraries
answer is up to the world; a statement that fails changes nothing. `update_fronter_channels` is a single call,
which talks to Discord only.
-/

namespace Tulpje.Pluralkit

open Twilight Lib

/-! ### Calls -/

structure Member where
  uuid : Uuid
  name : String
  displayName : Option String
  deriving DecidableEq

inductive StringOrStruct
  | string (uuid : String)
  | struct (member : Member)
  deriving DecidableEq

/-- A switch as PluralKit sends it, with the seconds of its timestamp. -/
structure PkSwitch where
  members : List StringOrStruct
  timestamp : Int
  deriving DecidableEq

structure PkSystem where
  id : String
  uuid : Uuid
  name : Option String
  avatarUrl : Option String
  deriving DecidableEq

inductive PluralKitError
  | pk (code : Nat) (message : String)
  | other (message : String)
  deriving DecidableEq

def PluralKitError.message : PluralKitError → String
  | .pk _ message | .other message => message

structure Embed where
  title : String
  thumbnail : Option String
  description : String
  timestamp : Time
  deriving DecidableEq

/-- The components of the other two kinds are given by their text. -/
inductive GuildNotification
  | switch (embed : Embed)
  | notFound (text : String)
  | frontPrivate (text : String)
  deriving DecidableEq

structure Channel where
  id : ChannelId
  guildId : Option GuildId
  deriving DecidableEq

/-- An answer of Discord, which may still be unreadable; `unknown` is `ERROR_UNKNOWN_CHANNEL`. -/
inductive ChannelResult (α : Type)
  | ok (value : α)
  | unknown
  | error (err : Error)

inductive Call
  | sql (statement : Statement)
  | pkGetSystemFronters (system : Uuid)
  | pkGetSystem (system : Uuid)
  | guild (guildId : GuildId)
  | channel (channelId : ChannelId)
  | createMessage (channelId : ChannelId) (notification : GuildNotification)
  | updateFronterChannels (guildId : GuildId) (category : Channel) (members : List Member)
  | ctxGuild
  | deferEphemeral
  | respondError (message : String)
  | respondSuccess (message : String)
  | utcNow
  | fromTimestamp (seconds : Int)
  | imageSource (url : String)
  | validate (embed : Embed)
  /-- The log line in front of `notify_guild`. -/
  | notifying (guildId : GuildId) (system : Uuid) (notification : GuildNotification)

@[reducible] def Call.Reply : Call → Type
  | sql statement => Except Error statement.Reply
  | pkGetSystemFronters _ => Except PluralKitError (Option PkSwitch)
  | pkGetSystem _ => Except PluralKitError PkSystem
  | guild _ => Except Error GuildId
  | channel _ => ChannelResult (Except Error Channel)
  | createMessage .. => ChannelResult Unit
  | ctxGuild => Except Error (Option GuildId)
  | updateFronterChannels .. | deferEphemeral | respondError _ | respondSuccess _ | imageSource _
  | validate _ => Except Error Unit
  | utcNow => Time
  | fromTimestamp _ => Option Time
  | notifying .. => Unit

/-- Any reply is possible, at any time on the clock of the database. -/
def world : (o : Call) → Database → o.Reply → Database → Prop
  | .sql statement, db, r, db' =>
    match r with
    | .ok rows => ∃ now, statement.Answers { db with now } rows db'
    | .error _ => ∃ now, db' = { db with now }
  | _, db, _, db' => ∃ now, db' = { db with now }

abbrev DbCall := Called Call Call.Reply Database

abbrev TaskM (ε : Type) := Prog ε Call Call.Reply

abbrev Task := TaskM Error

def send {ε : Type} (o : Call) : TaskM ε o.Reply := Prog.send o

/-- A statement of `db`, `fronters::db` or `notify::db`. -/
def sql (statement : Statement) : Task statement.Reply := do
  Prog.ofExcept (← send (.sql statement))

/-! ### `fronters/db.rs` -/

def didFrontersChange (system : Uuid) (newFronters : List Uuid) : Task Bool := do
  match ← sql (.getFronters system) with
  | none => pure true
  | some savedFront => pure (decide (savedFront.fronters ≠ newFronters))

def updateFrontersTimestamp (system : Uuid) : Task Unit :=
  (sql (.updateFrontersTimestamp system)).mapError fun err =>
    s!"error updating fronter timestamp in db for system {system}: {err}"

def updateFronters (system : Uuid) (fronters : List Uuid) : Task Unit := do
  let now ← send .utcNow
  sql (.updateFronters system fronters now)

/-! ### `fronters/shared.rs` -/

inductive GetSystemFrontersError
  | frontPrivate (system : Uuid)
  | notFound (system : Uuid)
  | other (err : Error)
  deriving DecidableEq

structure Fronters where
  members : List Member
  timestamp : Time

/-- The loop over `switch.members`. -/
def memberStructs (system : Uuid) : List StringOrStruct → Except GetSystemFrontersError (List Member)
  | [] => .ok []
  | .string _ :: _ => .error (.other s!"system {system} returned uuids instead of member structs")
  | .struct member :: rest => (memberStructs system rest).map fun members => member :: members

def getSystemFronters (system : Uuid) : TaskM GetSystemFrontersError (Option Fronters) := do
  match ← send (.pkGetSystemFronters system) with
  | .error (.pk 30004 _) => Prog.throw (.frontPrivate system)
  | .error (.pk 20001 _) => Prog.throw (.notFound system)
  | .error err => Prog.throw (.other err.message)
  | .ok none => pure none
  | .ok (some switch) =>
    let members ← Prog.ofExcept (memberStructs system switch.members)
    match ← send (.fromTimestamp switch.timestamp) with
    | none => Prog.throw (.other s!"timestamp out of range: {switch.timestamp}")
    | some timestamp => pure (some ⟨members, timestamp⟩)

structure Switch where
  fronters : List Member
  timestamp : Time

inductive FrontChange
  | unchanged
  | changed (switch : Switch)

/-- If the fronters are private or the system is deleted, the timestamp is still updated. -/
def frontersOfReply : Except GetSystemFrontersError (Option Fronters) →
    TaskM GetSystemFrontersError (Option Fronters)
  | .ok fronters => pure fronters
  | .error (.frontPrivate uuid) => do
    (updateFrontersTimestamp uuid).mapError .other
    Prog.throw (.frontPrivate uuid)
  | .error (.notFound uuid) => do
    (updateFrontersTimestamp uuid).mapError .other
    Prog.throw (.notFound uuid)
  | .error err => Prog.throw err

/-- `FrontChange::Changed` with the switch. -/
def frontChanged (fronters : Option Fronters) : TaskM GetSystemFrontersError FrontChange := do
  let timestamp ← (match fronters with
    | some fronters => pure fronters.timestamp
    | none => send .utcNow)
  pure (.changed ⟨(fronters.map (·.members)).getD [], timestamp⟩)

/-- The second half of `update_system_fronters`. -/
def recordFronters (system : ModPkSystem) (fronters : Option Fronters) :
    TaskM GetSystemFrontersError FrontChange := do
  let fronterUuids := ((fronters.map (·.members)).getD []).map (·.uuid)
  if ← (didFrontersChange system.uuid fronterUuids).mapError .other then
    -- update the fronters in the db if they changed
    (updateFronters system.uuid fronterUuids).mapError .other
    frontChanged fronters
  else
    (updateFrontersTimestamp system.uuid).mapError .other
    pure .unchanged

def updateSystemFronters (system : ModPkSystem) : TaskM GetSystemFrontersError FrontChange := do
  let reply ← (getSystemFronters system.uuid).attempt
  let fronters ← frontersOfReply reply
  recordFronters system fronters

/-! ### `fronters/tasks.rs` -/

def getMemberName (member : Member) : String := member.displayName.getD member.name

def updateFrontersForGuild (guildId : GuildId) (categoryId : ChannelId) (members : List Member) :
    Task Unit := do
  let guild ← Prog.ofExcept (← send (.guild guildId))
  match ← send (.channel categoryId) with
  | .unknown =>
    (sql (.deleteFronterCategory categoryId)).mapError fun err =>
      s!"error deleting fronter category {categoryId} for guild {guildId}: {err}"
  | .error err => Prog.throw s!"error fetching fronter category {categoryId} for guild {guildId}: {err}"
  | .ok response =>
    let category ← Prog.ofExcept response
    if category.guildId.isNone then
      Prog.throw s!"caetgory {category.id} for guild {guild} isn't a guild channel"
    (do Prog.ofExcept (← send (.updateFronterChannels guild category members)) : Task Unit).mapError
      fun err => s!"error updating fronters for guild {guild}: {err}"

def updateFronterCategories (system : ModPkSystem) (switch : Switch) : Task Unit := do
  let guildCategories ← (sql (.getFronterCategoriesForSystem system.uuid)).mapError fun err =>
    s!"error fetching guilds for system {system.uuid} from db: {err}"
  guildCategories.forM fun guildCategory => do
    let _ ← (updateFrontersForGuild guildCategory.guildId guildCategory.categoryId
      switch.fronters).attempt
    pure ()

def maxFrontersInMessage : Nat := 20

def embedParts (fronters : List Member) : List String :=
  (fronters.take maxFrontersInMessage).map (fun member => s!"* {getMemberName member}") ++
    if fronters.length > maxFrontersInMessage then
      [s!"-# and {fronters.length - maxFrontersInMessage} more"]
    else []

def createFrontChangeEmbed (system : ModPkSystem) (switch : Switch) : Task Embed := do
  let thumbnail ← (match system.avatar with
    | none => pure none
    | some url => do
      match ← send (.imageSource url) with
      | .ok _ => pure (some url)
      | .error _ => pure none)
  let embed : Embed :=
    { title := s!"Switch: {system.name.getD system.id}"
      thumbnail := thumbnail
      description := "\n".intercalate (embedParts switch.fronters)
      timestamp := switch.timestamp }
  Prog.ofExcept (← send (.validate embed))
  pure embed

def notifyGuild (guildId : GuildId) (notification : GuildNotification) : Task Unit := do
  match ← sql (.getNotifyChannel guildId) with
  | none =>
    Prog.throw s!"no notify channel configured for guild {guildId} despite it having tracked systems"
  | some channelId =>
    match ← send (.createMessage channelId notification) with
    | .ok _ => pure ()
    | .unknown => do
      (sql (.deleteNotifyChannel channelId)).mapError fun err =>
        s!"error deleting notify channel {channelId} for guild {guildId}: {err}"
      (sql (.deleteNotifySystems guildId)).mapError fun err =>
        s!"error deleting notify channel {channelId} for guild {guildId}: {err}"
    | .error err =>
      Prog.throw s!"error sending notification to guild {guildId} channel {channelId}: {err}"

/-- The loop of `notify_guilds_for_system`, which collects the guilds that were notified. -/
def notifyGuilds (system : Uuid) (notification : GuildNotification) : List GuildId → Task (List GuildId)
  | [] => pure []
  | guildId :: guilds => do
    send (.notifying guildId system notification)
    let notified ← (notifyGuild guildId notification).attempt
    let rest ← notifyGuilds system notification guilds
    pure (if notified.isOk then guildId :: rest else rest)

def notifyGuildsForSystem (system : ModPkSystem) (notification : GuildNotification) :
    Task (List GuildId) := do
  let guilds ← sql (.getNotifyGuildsForSystem system.uuid)
  notifyGuilds system.uuid notification guilds

def notifySystemNotFound (system : ModPkSystem) : Task Unit := do
  let name := system.name.getD system.id
  let notification := GuildNotification.notFound
    s!"### System Unfollowed\nSystem `{name}` has been deleted from PluralKit, and has been unfollowed"
  let guilds ← notifyGuildsForSystem system notification
  sql (.removeNotifySystemFromGuilds system.uuid guilds)

def notifyFrontPrivate (system : ModPkSystem) : Task Unit := do
  let name := system.name.getD system.id
  let notification := GuildNotification.frontPrivate
    s!"### System Unfollowed\nCurrent fronters for `{name}` are private, system unfollowed"
  let guilds ← notifyGuildsForSystem system notification
  sql (.removeNotifySystemFromGuilds system.uuid guilds)

def notifyFrontChange (system : ModPkSystem) (switch : Switch) : Task Unit := do
  let embed ← createFrontChangeEmbed system switch
  let _ ← notifyGuildsForSystem system (.switch embed)
  pure ()

/-- What `process_system` makes of the change. -/
def processChange (system : ModPkSystem) : Except GetSystemFrontersError FrontChange → Task Unit
  | .error (.frontPrivate _) => notifyFrontPrivate system
  | .error (.notFound _) => notifySystemNotFound system
  | .error (.other err) => Prog.throw s!"error updating system fronters: {err}"
  | .ok (.changed switch) => do
    updateFronterCategories system switch
    notifyFrontChange system switch
  | .ok .unchanged => pure ()

def processSystem (system : ModPkSystem) : Task Unit := do
  let changed ← (updateSystemFronters system).attempt
  processChange system changed

/-! ### `fronters/update.rs` -/

def handle : Task Unit := do
  match ← Prog.ofExcept (← send .ctxGuild) with
  | none => Prog.throw "internal error: entered unreachable code: command is guild_only"
  | some guild =>
  Prog.ofExcept (← send .deferEphemeral)
  match ← sql (.getGuildSettingsForId guild) with
  | none => Prog.ofExcept (← send (.respondError "PluralKit module not set-up, please run `/pk setup`"))
  | some gs =>
  match ← sql (.getFronterCategory guild) with
  | none =>
    Prog.ofExcept (← send (.respondError
      "Fronter category not set-up, please run `/pk fronters setup`"))
  | some catId =>
  match ← send (.channel catId) with
  | .unknown =>
    Prog.ofExcept (← send (.respondError
      ("### Error\nTulpje can't find the fronter channel,did you delete it?\n\n" ++
        "If this was unintentional please run `/pk fronters setup` again and create a new category")))
  | .error err => Prog.throw s!"error fetching fronter category {catId} for guild {guild}: {err}"
  | .ok response =>
  let cat ← Prog.ofExcept response
  if cat.guildId.isNone then
    Prog.throw s!"channel {catId} isn't a guild channel"
  let system ← (sql (.getSystem gs.systemUuid)).mapError fun err =>
    s!"error fetching system {gs.systemUuid}: {err}"
  let displayName := (system.map fun s => s.name.getD s.id).getD (toString gs.systemUuid)
  match ← (getSystemFronters gs.systemUuid).attempt with
  | .error (.frontPrivate _) => do
    Prog.ofExcept (← send (.respondError
      (s!"Fronters for system `{displayName}` are private, " ++
        "please set them to public to use the fronter category")))
    let _ ← (updateFrontersTimestamp gs.systemUuid).attempt
    pure ()
  | .error (.notFound system) => Prog.throw s!"system {system} not found"
  | .error (.other err) => Prog.throw err
  | .ok fronters =>
  let members := (fronters.map (·.members)).getD []
  Prog.ofExcept (← send (.updateFronterChannels guild cat members))
  let _ ← (updateFronters gs.systemUuid (members.map (·.uuid))).attempt
  Prog.ofExcept (← send (.respondSuccess "Fronter category updated!"))

/-! ### `front_update_service.rs` and `system_update_service.rs` -/

/-- The loop of both ticks, which only logs the errors. -/
def processAll (process : ModPkSystem → Task Unit) (systemsToUpdate : List ModPkSystem) : Task Unit :=
  systemsToUpdate.forM fun system => do
    let _ ← (process system).attempt
    pure ()

def frontTick : Task Unit := do
  let _ ← sql .getTrackedSystemCount
  let _ ← sql .getSystemCount
  let systemsToUpdate ← sql .frontersGetSystemsToUpdate
  processAll processSystem systemsToUpdate

/-- `ModPkSystem::from`. -/
def toModPkSystem (system : PkSystem) : Task ModPkSystem := do
  let createdAt ← send .utcNow
  let updatedAt ← send .utcNow
  pure ⟨⟨system.id, system.name, system.avatarUrl, createdAt, updatedAt⟩, system.uuid⟩

/-- `process_system` of the system update service. -/
def updateSystem (system : ModPkSystem) : Task Unit := do
  match ← send (.pkGetSystem system.uuid) with
  | .error err => Prog.throw err.message
  | .ok system => do
    let system ← toModPkSystem system
    sql (.updateSystem system)

def systemTick : Task Unit := do
  let systemsToUpdate ← sql .getSystemsToUpdate
  processAll updateSystem systemsToUpdate

/-- The first ticks of a service, none of which ends its loop. -/
def start (tick : Task Unit) : Nat → Task Unit
  | 0 => pure ()
  | n + 1 => do
    let _ ← tick.attempt
    start tick n

end Tulpje.Pluralkit
