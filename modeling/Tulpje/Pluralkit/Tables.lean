import Mathlib.Data.Set.Insert
import Tulpje.Pluralkit.Fronters

/-!
# What the PluralKit functions do

Each call writes at most one cell: a row of `pk_systems` or `pk_system_fronters`, or one of the other tables.
`Confined` says of a function which cells it may write, whether it selects systems to update, and for which
system it asks PluralKit.
-/

namespace Tulpje.Pluralkit

open Twilight Lib

/-! ### Statements in a run -/

section Runs
variable {rely : Database → Database → Prop} {s t : Database} {calls : List DbCall}

theorem runs_sql {statement : Statement} {result : Except Error statement.Reply} :
    (sql statement).Runs world rely s calls result t ↔
      ∃ u, rely s u ∧ world (.sql statement) u result t ∧ calls = [⟨.sql statement, result, u, t⟩] := by
  constructor
  · intro h
    rcases Prog.runs_bind.mp h with ⟨e, rfl, hsend⟩ | ⟨reply, u, cs, ds, rfl, hsend, hreply⟩
    · obtain ⟨u, r, -, -, -, herror⟩ := Prog.runs_send.mp hsend
      cases herror
    · obtain ⟨v, r, hrely, hworld, rfl, hok⟩ := Prog.runs_send.mp hsend
      obtain rfl := Except.ok.inj hok
      obtain ⟨rfl, rfl, rfl⟩ := Prog.runs_ofExcept.mp hreply
      exact ⟨v, hrely, hworld, rfl⟩
  · rintro ⟨u, hrely, hworld, rfl⟩
    refine Prog.runs_bind.mpr (.inr ⟨result, t, [⟨.sql statement, result, u, t⟩], [], rfl, ?_, ?_⟩)
    · exact Prog.runs_send.mpr ⟨u, result, hrely, hworld, rfl, rfl⟩
    · exact Prog.runs_ofExcept.mpr ⟨rfl, rfl, rfl⟩

end Runs

/-! ### Cells -/

inductive Cell
  | pkSystem (system : Uuid)
  | pkSystemFronters (system : Uuid)
  | pkGuilds
  | pkFronters
  | pkNotifyChannels
  | pkNotifySystems
  deriving DecidableEq

@[reducible] def Cell.Value : Cell → Type
  | pkSystem _ => Option SystemColumns
  | pkSystemFronters _ => Option ModPkSystemFronters
  | pkGuilds => Table GuildId ModPkGuildRow
  | pkFronters => Table GuildId ChannelId
  | pkNotifyChannels => Table GuildId ChannelId
  | pkNotifySystems => Finset (GuildId × Uuid)

def Cell.get : (x : Cell) → Database → x.Value
  | pkSystem system, db => db.pkSystems.row system
  | pkSystemFronters system, db => db.pkSystemFronters.row system
  | pkGuilds, db => db.pkGuilds
  | pkFronters, db => db.pkFronters
  | pkNotifyChannels, db => db.pkNotifyChannels
  | pkNotifySystems, db => db.pkNotifySystems

inductive Effect
  | writes (x : Cell)
  | selects
  | asks (system : Uuid)
  deriving DecidableEq

/-- What a call writes is written if it succeeds. -/
def Call.effect : Call → Option Effect
  | .sql (.updateSystem system) => some (.writes (.pkSystem system.uuid))
  | .sql (.updateFronters system _ _) => some (.writes (.pkSystemFronters system))
  | .sql (.updateFrontersTimestamp system) => some (.writes (.pkSystemFronters system))
  | .sql (.deleteFronterCategory _) => some (.writes .pkFronters)
  | .sql (.deleteNotifyChannel _) => some (.writes .pkNotifyChannels)
  | .sql (.deleteNotifySystems _) => some (.writes .pkNotifySystems)
  | .sql (.removeNotifySystemFromGuilds ..) => some (.writes .pkNotifySystems)
  | .sql .frontersGetSystemsToUpdate | .sql .getSystemsToUpdate => some .selects
  | .pkGetSystemFronters system | .pkGetSystem system => some (.asks system)
  | _ => none

theorem Statement.Answers.frame {q : Statement} {s t : Database} {rows : q.Reply} (h : q.Answers s rows t)
    {x : Cell} (hx : (Call.sql q).effect ≠ some (.writes x)) : x.get t = x.get s := by
  cases q with
  | updateSystem other =>
    obtain rfl : t = _ := h
    cases x with
    | pkSystem system =>
      have hne : system ≠ other.uuid := fun heq => hx (heq ▸ rfl)
      exact Table.row_upsert_of_ne _ hne _
    | _ => rfl
  | updateFronters other fronters updatedAt =>
    obtain rfl : t = _ := h
    cases x with
    | pkSystemFronters system =>
      have hne : system ≠ other := fun heq => hx (heq ▸ rfl)
      exact Table.row_upsert_of_ne _ hne _
    | _ => rfl
  | updateFrontersTimestamp other =>
    obtain rfl : t = _ := h
    cases x with
    | pkSystemFronters system =>
      have hne : system ≠ other := fun heq => hx (heq ▸ rfl)
      exact Table.row_upsert_of_ne _ hne _
    | _ => rfl
  | deleteFronterCategory category =>
    obtain rfl : t = _ := h
    cases x with
    | pkFronters => exact absurd rfl hx
    | _ => rfl
  | deleteNotifyChannel channel =>
    obtain rfl : t = _ := h
    cases x with
    | pkNotifyChannels => exact absurd rfl hx
    | _ => rfl
  | deleteNotifySystems _ | removeNotifySystemFromGuilds _ _ =>
    obtain rfl : t = _ := h
    cases x with
    | pkNotifySystems => exact absurd rfl hx
    | _ => rfl
  | _ =>
    obtain ⟨-, rfl⟩ : _ ∧ t = _ := h
    rfl

@[simp] theorem Cell.get_now (x : Cell) (db : Database) (now : Time) : x.get { db with now } = x.get db := by
  cases x <;> rfl

theorem world_frame {o : Call} {s t : Database} {r : o.Reply} (h : world o s r t) {x : Cell}
    (hx : o.effect ≠ some (.writes x)) : x.get t = x.get s := by
  cases o with
  | sql statement =>
    cases r with
    | error err =>
      obtain ⟨now, rfl⟩ := h
      exact x.get_now s now
    | ok rows =>
      obtain ⟨now, h⟩ := h
      exact (h.frame hx).trans (x.get_now s now)
  | _ =>
    obtain ⟨now, rfl⟩ := h
    exact x.get_now s now

/-! ### What a function does -/

def Call.Within (effects : Set Effect) (o : Call) : Prop := ∀ e ∈ o.effect, e ∈ effects

/-- Whether or not it fails. -/
def Confined {ε α : Type} (effects : Set Effect) (p : TaskM ε α) : Prop :=
  p.All (Call.Within effects) fun _ => True

section Rules
variable {ε ε' α β : Type} {effects effects' : Set Effect} {p : TaskM ε α} {o : Call}

theorem Call.Within.of_none (h : o.effect = none) : o.Within effects := by simp [Within, h]

theorem Call.Within.of_mem (e : Effect) (h : o.effect = some e) (he : e ∈ effects) : o.Within effects := by
  intro e' he'
  rw [h] at he'
  obtain rfl := Option.some.inj he'
  exact he

theorem Confined.mono (h : Confined effects p) (hsub : effects ⊆ effects') : Confined effects' p :=
  Prog.All.imp h fun _ ho e he => hsub (ho e he)

theorem Confined.pure (a : α) : Confined effects (Pure.pure a : TaskM ε α) := trivial

theorem Confined.throw (e : ε) : Confined effects (Prog.throw e : TaskM ε α) := trivial

theorem Confined.ofExcept (x : Except ε α) : Confined effects (Prog.ofExcept x : TaskM ε α) :=
  Prog.All.ofExcept x

theorem Confined.bind {f : α → TaskM ε β} (hp : Confined effects p) (hf : ∀ a, Confined effects (f a)) :
    Confined effects (p >>= f) := Prog.All.bind hp hf

theorem Confined.mapError {g : ε → ε'} (hp : Confined effects p) : Confined effects (p.mapError g) :=
  Prog.All.mapError hp

theorem Confined.attempt (hp : Confined effects p) :
    Confined effects (p.attempt : TaskM ε' (Except ε α)) := Prog.All.attempt hp

theorem Confined.forM {xs : List α} {f : α → TaskM ε PUnit} (hf : ∀ x, Confined effects (f x)) :
    Confined effects (xs.forM f) := Prog.All.forM fun x _ => hf x

theorem Confined.send (ho : o.Within effects) : Confined effects (send o : TaskM ε o.Reply) :=
  Prog.All.send ho

theorem Confined.sql {statement : Statement} (h : (Call.sql statement).Within effects) :
    Confined effects (sql statement) := (Confined.send h).bind fun _ => Confined.ofExcept _

end Rules

/-! ### The functions -/

section Functions
variable {effects : Set Effect}

theorem confined_didFrontersChange (system : Uuid) (newFronters : List Uuid) :
    Confined effects (didFrontersChange system newFronters) := by
  refine (Confined.sql (.of_none rfl)).bind fun savedFront => ?_
  cases savedFront <;> exact Confined.pure _

theorem confined_updateFrontersTimestamp (system : Uuid) :
    Confined {.writes (.pkSystemFronters system)} (updateFrontersTimestamp system) := by
  have htimestamp : (Call.sql (.updateFrontersTimestamp system)).Within {.writes (.pkSystemFronters system)} :=
    .of_mem (.writes (.pkSystemFronters system)) rfl rfl
  exact (Confined.sql htimestamp).mapError

theorem confined_updateFronters (system : Uuid) (fronters : List Uuid) :
    Confined {.writes (.pkSystemFronters system)} (updateFronters system fronters) :=
  (Confined.send (.of_none rfl)).bind fun _ =>
    Confined.sql (.of_mem (.writes (.pkSystemFronters system)) rfl rfl)

/-- The system that the error is about. -/
def GetSystemFrontersError.About (system : Uuid) : GetSystemFrontersError → Prop
  | .frontPrivate uuid | .notFound uuid => uuid = system
  | .other _ => True

theorem memberStructs_about (system : Uuid) (members : List StringOrStruct) :
    ∀ e, memberStructs system members = .error e → e.About system := by
  induction members with
  | nil => exact fun e h => nomatch h
  | cons member rest ih =>
    intro e h
    cases member with
    | string uuid =>
      obtain rfl := Except.error.inj h
      trivial
    | struct member =>
      unfold memberStructs at h
      cases hrest : memberStructs system rest with
      | ok members => rw [hrest] at h; cases h
      | error e' =>
        rw [hrest] at h
        obtain rfl := Except.error.inj h
        exact ih e' hrest

theorem all_getSystemFronters (system : Uuid) :
    (getSystemFronters system).All (Call.Within {.asks system}) (GetSystemFrontersError.About system) := by
  have hrequest : (Call.pkGetSystemFronters system).Within {.asks system} := .of_mem (.asks system) rfl rfl
  refine (Prog.All.send hrequest).bind fun reply => ?_
  split
  · exact rfl
  · exact rfl
  · trivial
  · trivial
  · next switch =>
    refine Prog.All.bind ?_ fun members => ?_
    · cases hmembers : memberStructs system switch.members with
      | ok members => trivial
      | error e => exact memberStructs_about system _ e hmembers
    · refine (Prog.All.send (.of_none rfl)).bind fun timestamp => ?_
      cases timestamp <;> trivial

theorem confined_getSystemFronters (system : Uuid) : Confined {.asks system} (getSystemFronters system) :=
  (all_getSystemFronters system).mono (fun _ => id) fun _ _ => trivial

theorem confined_frontChanged (fronters : Option Fronters) : Confined effects (frontChanged fronters) := by
  refine Confined.bind ?_ fun _ => Confined.pure _
  cases fronters with
  | none => exact Confined.send (.of_none rfl)
  | some fronters => exact Confined.pure _

theorem confined_recordFronters (system : ModPkSystem) (fronters : Option Fronters) :
    Confined {.writes (.pkSystemFronters system.uuid)} (recordFronters system fronters) := by
  refine (confined_didFrontersChange ..).mapError.bind fun changed => ?_
  cases changed with
  | true => exact (confined_updateFronters ..).mapError.bind fun _ => confined_frontChanged fronters
  | false => exact (confined_updateFrontersTimestamp ..).mapError.bind fun _ => Confined.pure _

def updateEffects (system : Uuid) : Set Effect := {.asks system, .writes (.pkSystemFronters system)}

theorem confined_updateSystemFronters (system : ModPkSystem) :
    Confined (updateEffects system.uuid) (updateSystemFronters system) := by
  have hasks : {.asks system.uuid} ⊆ updateEffects system.uuid := Set.singleton_subset_iff.mpr (.inl rfl)
  have hwrites : {.writes (.pkSystemFronters system.uuid)} ⊆ updateEffects system.uuid :=
    Set.singleton_subset_iff.mpr (.inr rfl)
  have hrecord fronters := (confined_recordFronters system fronters).mono hwrites
  have htimestamp := ((confined_updateFrontersTimestamp system.uuid).mapError
    (g := GetSystemFrontersError.other)).mono hwrites
  have hget := (all_getSystemFronters system.uuid).imp fun _ ho e he => hasks (ho e he)
  refine hget.attempt_bind (fun fronters => hrecord fronters) fun e he => ?_
  refine Confined.bind ?_ hrecord
  -- the error is about this system
  cases e with
  | frontPrivate uuid =>
    obtain rfl : uuid = system.uuid := he
    exact htimestamp.bind fun _ => Confined.throw _
  | notFound uuid =>
    obtain rfl : uuid = system.uuid := he
    exact htimestamp.bind fun _ => Confined.throw _
  | other err => exact Confined.throw _

theorem confined_updateFrontersForGuild (guildId : GuildId) (categoryId : ChannelId) (members : List Member) :
    Confined {.writes .pkFronters} (updateFrontersForGuild guildId categoryId members) := by
  refine (Confined.send (.of_none rfl)).bind fun guild => (Confined.ofExcept _).bind fun guild => ?_
  refine (Confined.send (.of_none rfl)).bind fun channel => ?_
  cases channel with
  | unknown =>
    have hdelete : (Call.sql (.deleteFronterCategory categoryId)).Within {.writes .pkFronters} :=
      .of_mem (.writes .pkFronters) rfl rfl
    exact (Confined.sql hdelete).mapError
  | error err => exact Confined.throw _
  | ok response =>
    refine (Confined.ofExcept response).bind fun category => ?_
    have hupdate : (Call.updateFronterChannels guild category members).Within {.writes .pkFronters} :=
      .of_none rfl
    by_cases hguild : category.guildId.isNone
    · simp only [hguild, if_true]
      exact Confined.throw _
    · simp only [hguild]
      exact ((Confined.send hupdate).bind fun _ => Confined.ofExcept _).mapError

theorem confined_updateFronterCategories (system : ModPkSystem) (switch : Switch) :
    Confined {.writes .pkFronters} (updateFronterCategories system switch) := by
  refine (Confined.sql (.of_none rfl)).mapError.bind fun guildCategories => Confined.forM fun category => ?_
  exact (confined_updateFrontersForGuild ..).attempt.bind fun _ => Confined.pure _

theorem confined_createFrontChangeEmbed (system : ModPkSystem) (switch : Switch) :
    Confined effects (createFrontChangeEmbed system switch) := by
  refine Confined.bind ?_ fun thumbnail => ?_
  · cases system.avatar with
    | none => exact Confined.pure _
    | some url =>
      refine (Confined.send (.of_none rfl)).bind fun source => ?_
      cases source <;> exact Confined.pure _
  · exact (Confined.send (.of_none rfl)).bind fun _ => (Confined.ofExcept _).bind fun _ => Confined.pure _

/-- What a notification may remove. -/
def notifyEffects : Set Effect := {.writes .pkNotifyChannels, .writes .pkNotifySystems}

theorem confined_notifyGuild (guildId : GuildId) (notification : GuildNotification) :
    Confined notifyEffects (notifyGuild guildId notification) := by
  refine (Confined.sql (.of_none rfl)).bind fun channel => ?_
  cases channel with
  | none => exact Confined.throw _
  | some channelId =>
    refine (Confined.send (.of_none rfl)).bind fun message => ?_
    cases message with
    | ok _ => exact Confined.pure _
    | error err => exact Confined.throw _
    | unknown =>
      have hchannel : (Call.sql (.deleteNotifyChannel channelId)).Within notifyEffects :=
        .of_mem (.writes .pkNotifyChannels) rfl (.inl rfl)
      have hsystems : (Call.sql (.deleteNotifySystems guildId)).Within notifyEffects :=
        .of_mem (.writes .pkNotifySystems) rfl (.inr rfl)
      exact (Confined.sql hchannel).mapError.bind fun _ => (Confined.sql hsystems).mapError

theorem confined_notifyGuilds (system : Uuid) (notification : GuildNotification) (guilds : List GuildId) :
    Confined notifyEffects (notifyGuilds system notification guilds) := by
  induction guilds with
  | nil => exact Confined.pure _
  | cons guildId guilds ih =>
    refine (Confined.send (.of_none rfl)).bind fun _ => ?_
    exact (confined_notifyGuild guildId notification).attempt.bind fun _ => ih.bind fun _ => Confined.pure _

theorem confined_notifyGuildsForSystem (system : ModPkSystem) (notification : GuildNotification) :
    Confined notifyEffects (notifyGuildsForSystem system notification) :=
  (Confined.sql (.of_none rfl)).bind fun guilds => confined_notifyGuilds system.uuid notification guilds

theorem confined_notifySystemNotFound (system : ModPkSystem) :
    Confined notifyEffects (notifySystemNotFound system) :=
  (confined_notifyGuildsForSystem ..).bind fun _ =>
    Confined.sql (.of_mem (.writes .pkNotifySystems) rfl (.inr rfl))

theorem confined_notifyFrontPrivate (system : ModPkSystem) :
    Confined notifyEffects (notifyFrontPrivate system) :=
  (confined_notifyGuildsForSystem ..).bind fun _ =>
    Confined.sql (.of_mem (.writes .pkNotifySystems) rfl (.inr rfl))

theorem confined_notifyFrontChange (system : ModPkSystem) (switch : Switch) :
    Confined notifyEffects (notifyFrontChange system switch) :=
  (confined_createFrontChangeEmbed system switch).bind fun embed =>
    (confined_notifyGuildsForSystem system (.switch embed)).bind fun _ => Confined.pure _

/-- All but the fronters. -/
def attemptEffects : Set Effect := insert (.writes .pkFronters) notifyEffects

theorem confined_processChange (system : ModPkSystem) (changed : Except GetSystemFrontersError FrontChange) :
    Confined attemptEffects (processChange system changed) := by
  have hnotify : notifyEffects ⊆ attemptEffects := Set.subset_insert ..
  have hcategories : {.writes .pkFronters} ⊆ attemptEffects := Set.singleton_subset_iff.mpr (.inl rfl)
  cases changed with
  | error e =>
    cases e with
    | frontPrivate _ => exact (confined_notifyFrontPrivate system).mono hnotify
    | notFound _ => exact (confined_notifySystemNotFound system).mono hnotify
    | other err => exact Confined.throw _
  | ok change =>
    cases change with
    | unchanged => exact Confined.pure _
    | changed switch =>
      refine ((confined_updateFronterCategories system switch).mono hcategories).bind fun _ => ?_
      exact (confined_notifyFrontChange system switch).mono hnotify

theorem confined_processSystem (system : ModPkSystem) :
    Confined (updateEffects system.uuid ∪ attemptEffects) (processSystem system) := by
  refine ((confined_updateSystemFronters system).mono Set.subset_union_left).attempt.bind fun changed => ?_
  exact (confined_processChange system changed).mono Set.subset_union_right

/-- A command updates the fronters of the system of its guild. -/
theorem confined_handle : Confined {e | ∃ system, e ∈ updateEffects system} handle := by
  have hquery : ∀ {o : Call}, o.effect = none → Confined {e | ∃ system, e ∈ updateEffects system}
      (send o : Task o.Reply) := fun h => Confined.send (.of_none h)
  have hasks system : {Effect.asks system} ⊆ {e | ∃ system, e ∈ updateEffects system} :=
    Set.singleton_subset_iff.mpr ⟨system, .inl rfl⟩
  have hwrites system : {Effect.writes (.pkSystemFronters system)} ⊆ {e | ∃ system, e ∈ updateEffects system} :=
    Set.singleton_subset_iff.mpr ⟨system, .inr rfl⟩
  refine (hquery rfl).bind fun reply => (Confined.ofExcept reply).bind fun guild => ?_
  cases guild with
  | none => exact Confined.throw _
  | some guild =>
  refine (hquery rfl).bind fun reply => (Confined.ofExcept reply).bind fun _ => ?_
  refine (Confined.sql (.of_none rfl)).bind fun settings => ?_
  cases settings with
  | none => exact (hquery rfl).bind fun reply => Confined.ofExcept reply
  | some gs =>
  refine (Confined.sql (.of_none rfl)).bind fun category => ?_
  cases category with
  | none => exact (hquery rfl).bind fun reply => Confined.ofExcept reply
  | some catId =>
  refine (hquery rfl).bind fun channel => ?_
  cases channel with
  | unknown => exact (hquery rfl).bind fun reply => Confined.ofExcept reply
  | error err => exact Confined.throw _
  | ok response =>
  refine (Confined.ofExcept response).bind fun cat => ?_
  split
  · exact Confined.throw _
  · refine (Confined.sql (.of_none rfl)).mapError.bind fun system => ?_
    refine ((confined_getSystemFronters gs.systemUuid).mono (hasks _)).attempt.bind fun fronters => ?_
    cases fronters with
    | error e =>
      cases e with
      | frontPrivate uuid =>
        refine (hquery rfl).bind fun reply => (Confined.ofExcept reply).bind fun _ => ?_
        exact ((confined_updateFrontersTimestamp _).mono (hwrites _)).attempt.bind fun _ => Confined.pure _
      | notFound uuid => exact Confined.throw _
      | other err => exact Confined.throw _
    | ok fronters =>
      refine (hquery rfl).bind fun reply => (Confined.ofExcept reply).bind fun _ => ?_
      refine ((confined_updateFronters _ _).mono (hwrites _)).attempt.bind fun _ => ?_
      exact (hquery rfl).bind fun reply => Confined.ofExcept reply

end Functions

end Tulpje.Pluralkit
