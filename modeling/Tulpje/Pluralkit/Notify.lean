import Tulpje.Pluralkit.Tables

/-!
# Following systems

`notify/add.rs`, `notify/remove.rs` and `notify/shared.rs`, call by call, beside the services and the other
commands, whose calls are the `other` ones here. `fromStr` is `SystemRef::from_str`.

A command counts the systems that the guild follows, asks PluralKit for the front and then stores the new one.
-/

namespace Tulpje.Pluralkit

open Twilight Lib

inductive SystemRef
  | discordId (userId : Id .user)
  | uuid (uuid : Uuid)
  | id (id : String)

/-- `String::from`. -/
def SystemRef.text : SystemRef → String
  | discordId value => toString value
  | uuid value => toString value
  | id value => value

/-! ### Calls -/

/-- The queries of `notify/db.rs` that write or count, and `get_system` for a short id. -/
inductive NotifyStatement
  | getSystemById (id : String)
  | doesGuildFollow (guildId : GuildId) (system : Uuid)
  | getGuildFollowCount (guildId : GuildId)
  | addNotifySystem (guildId : GuildId) (system : Uuid)
  | removeNotifySystem (guildId : GuildId) (system : Uuid)

@[reducible] def NotifyStatement.Reply : NotifyStatement → Type
  | getSystemById _ => Option ModPkSystem
  | doesGuildFollow .. => Bool
  | getGuildFollowCount _ => Nat
  | addNotifySystem .. | removeNotifySystem .. => Unit

def Database.followCount (db : Database) (guildId : GuildId) : Nat :=
  (db.pkNotifySystems.filter fun follow => follow.1 = guildId).card

/-- A row is inserted only for a guild in `guilds` and a system in `pk_systems`; a row that is there stays. -/
def NotifyStatement.Answers : (q : NotifyStatement) → Database → q.Reply → Database → Prop
  | getSystemById id, db, r, db' =>
    (match r with
      | some system => db.modPkSystem system.uuid = some system ∧ system.id = id
      | none => ∀ uuid row, db.pkSystems.row uuid = some row → row.id ≠ id) ∧ db' = db
  | doesGuildFollow guildId system, db, r, db' => r = decide ((guildId, system) ∈ db.pkNotifySystems) ∧ db' = db
  | getGuildFollowCount guildId, db, r, db' => r = db.followCount guildId ∧ db' = db
  | addNotifySystem guildId system, db, _, db' =>
    (¬ db.Follows guildId system →
      (db.guilds.row guildId).isSome = true ∧ (db.pkSystems.row system).isSome = true) ∧
      db' = { db with pkNotifySystems := insert (guildId, system) db.pkNotifySystems }
  | removeNotifySystem guildId system, db, _, db' =>
    db' = { db with pkNotifySystems := db.pkNotifySystems.erase (guildId, system) }

inductive NotifyCall
  | other (o : Call)
  | sql (statement : NotifyStatement)
  | defer
  | respondInfo (message : String)
  | getArgString (name : String)
  | pkGetSystem (systemRef : SystemRef)
  | pkGetSystemFronters (systemRef : SystemRef)

@[reducible] def NotifyCall.Reply : NotifyCall → Type
  | other o => o.Reply
  | sql statement => Except Error statement.Reply
  | defer | respondInfo _ => Except Error Unit
  | getArgString _ => Except Error String
  | pkGetSystem _ => Except PluralKitError PkSystem
  | pkGetSystemFronters _ => Except PluralKitError (Option PkSwitch)

def notifyWorld : (o : NotifyCall) → Database → o.Reply → Database → Prop
  | .other o, db, r, db' => world o db r db'
  | .sql statement, db, r, db' =>
    match r with
    | .ok rows => ∃ now, statement.Answers { db with now } rows db'
    | .error _ => ∃ now, db' = { db with now }
  | _, db, _, db' => ∃ now, db' = { db with now }

abbrev NotifyTask := Prog Error NotifyCall NotifyCall.Reply

abbrev NotifyDbCall := Called NotifyCall NotifyCall.Reply Database

namespace Notify

def send (o : NotifyCall) : NotifyTask o.Reply := Prog.send o

/-- The functions of the other modules. -/
def lift {α : Type} : Task α → NotifyTask α
  | .pure a => .pure a
  | .throw e => .throw e
  | .call o k => .call (.other o) fun r => lift (k r)

def sql (statement : NotifyStatement) : NotifyTask statement.Reply := do
  Prog.ofExcept (← send (.sql statement))

def respondError (message : String) : NotifyTask Unit := do
  Prog.ofExcept (← send (.other (.respondError message)))

def respondInfo (message : String) : NotifyTask Unit := do
  Prog.ofExcept (← send (.respondInfo message))

def respondSuccess (message : String) : NotifyTask Unit := do
  Prog.ofExcept (← send (.other (.respondSuccess message)))

/-! ### `util.rs`, `notify/shared.rs` and `fronters/shared.rs` -/

def handleSystemRef (fromStr : String → Option SystemRef) (systemRef : String) : NotifyTask (Option SystemRef) :=
  match fromStr systemRef with
  | some systemRef => pure (some systemRef)
  | none => do
    respondError s!"Invalid system reference `{systemRef}`, are you sure you entered it correctly?"
    pure none

def resolveSystemFromReference (systemRef : SystemRef) : NotifyTask (Option ModPkSystem) := do
  match ← send (.pkGetSystem systemRef) with
  | .ok system =>
    let system ← lift (toModPkSystem system)
    pure (some system)
  | .error (.pk 20001 _) =>
    match systemRef with
    | .id id => sql (.getSystemById id)
    | .uuid uuid => lift (Pluralkit.sql (.getSystem uuid))
    | .discordId _ => Prog.throw "something went wrong, please try using a system ID instead"
  | .error err => Prog.throw err.message

/-- True if the front is private, and the user was told. -/
def handlePrivateFront (systemRef : SystemRef) (message : String) : NotifyTask Bool := do
  match ← send (.pkGetSystemFronters systemRef) with
  | .ok _ => pure false
  | .error (.pk 30004 _) =>
    respondError message
    pure true
  | .error err => Prog.throw err.message

def maxFollowCount : Nat := 50

/-- The name that messages have for a system. -/
def displayName (system : ModPkSystem) : String := system.name.getD system.id

/-! ### `add.rs` and `remove.rs` -/

section Handlers
variable (fromStr : String → Option SystemRef)

/-- What both commands do first: the guild, and the system that the option names. -/
def withSystem (run : GuildId → SystemRef → ModPkSystem → NotifyTask Unit) : NotifyTask Unit := do
  match ← Prog.ofExcept (← send (.other .ctxGuild)) with
  | none => Prog.throw "internal error: entered unreachable code: command is guild_only"
  | some guild =>
  Prog.ofExcept (← send .defer)
  match ← lift (Pluralkit.sql (.getNotifyChannel guild)) with
  | none => respondError "Notification channel not set-up please run `/pk notify setup` first"
  | some _ =>
  let id ← Prog.ofExcept (← send (.getArgString "id"))
  match ← handleSystemRef fromStr id with
  | none => pure ()
  | some systemRef =>
  match ← resolveSystemFromReference systemRef with
  | none =>
    respondError (s!"Couldn't find system `{systemRef.text}`, " ++
      "are you sure you're following them and that you spelled it correctly?")
  | some system => run guild systemRef system

/-- `add::handle` behind the follow limit. -/
def follow (guild : GuildId) (systemRef : SystemRef) (system : ModPkSystem) : NotifyTask Unit := do
  if ← handlePrivateFront systemRef s!"Front for system `{displayName system}` is private" then
    pure ()
  else
    lift (Pluralkit.sql (.updateSystem system))
    sql (.addNotifySystem guild system.uuid)
    respondSuccess s!"`{displayName system}` added to notification list"

namespace Add

def handle : NotifyTask Unit :=
  withSystem fromStr fun guild systemRef system => do
    if ← sql (.doesGuildFollow guild system.uuid) then
      respondInfo s!"You're already following `{displayName system}`"
    else if (← sql (.getGuildFollowCount guild)) ≥ maxFollowCount then
      respondError (s!"### Error\nYou've hit the follow limit of {maxFollowCount} " ++
        "please consider unfollowing some systems")
    else
      follow guild systemRef system

end Add

namespace Remove

def handle : NotifyTask Unit :=
  withSystem fromStr fun guild _ system => do
    lift (Pluralkit.sql (.updateSystem system))
    if ← sql (.doesGuildFollow guild system.uuid) then
      sql (.removeNotifySystem guild system.uuid)
      respondSuccess s!"{displayName system} removed from notification list"
    else
      respondInfo s!"You don't follow `{displayName system}`"

end Remove

end Handlers

end Notify

end Tulpje.Pluralkit
