import Tulpje.Pluralkit.Tables

/-!
# Who is told about a change of front

`process_system` records a changed front before it tells anyone: the fronter categories first, then the guilds
that follow the system. `/pk fronters update` records what it finds too, and tells its own guild only.
-/

namespace Tulpje.Pluralkit

open Twilight Lib

/-! ### Changes and attempts -/

def Database.storedFronters (db : Database) (system : Uuid) : Option (List Uuid) :=
  (db.pkSystemFronters.row system).map (·.fronters)

/-- The stored list of the system changes to `fronters`. -/
def Changes (c : DbCall) (system : Uuid) (fronters : List Uuid) : Prop :=
  ∃ old ≠ fronters, c.before.storedFronters system = some old ∧ c.after.storedFronters system = some fronters

/-- `notify_guild` is called with the switch to these fronters. -/
def Notifies (guildId : GuildId) (system : Uuid) (fronters : List Uuid) (o : Call) : Prop :=
  ∃ members embed, members.map Member.uuid = fronters ∧
    embed.description = "\n".intercalate (embedParts members) ∧ o = .notifying guildId system (.switch embed)

/-- `update_fronter_channels` is called with these fronters. -/
def UpdatesChannels (guildId : GuildId) (fronters : List Uuid) (o : Call) : Prop :=
  ∃ category members, members.map Member.uuid = fronters ∧ o = .updateFronterChannels guildId category members

/-- Everyone who was waiting for the system in `db` is told by one of the calls. -/
def Reported (db : Database) (system : Uuid) (fronters : List Uuid) (calls : List DbCall) : Prop :=
  (∀ guildId, db.Follows guildId system → ∃ d ∈ calls, Notifies guildId system fronters d.op) ∧
    ∀ row, db.HasCategory system row → ∃ d ∈ calls, UpdatesChannels row.guildId fronters d.op

/-! ### The service among commands -/

variable {κ : Type} [DecidableEq κ]

abbrev FrontPool (κ : Type) := Pool (Option κ) Error Call Database Call.Reply Unit

/-- `process_system` for some systems, and any number of commands. -/
def fronts (systems : List ModPkSystem) : Option κ → Task Unit
  | none => processAll processSystem systems
  | some _ => handle

def NoChangeSwallowed (calls : List (Option κ × DbCall)) : Prop :=
  ∀ pre i c post, calls = pre ++ (i, c) :: post → ∀ system fronters, Changes c system fronters →
    Reported c.after system fronters (post.map (·.2))

/-- The statement and the answers of Discord that `update_fronter_channels` waits for. -/
def CategoriesOk : (o : Call) → o.Reply → Prop
  | .sql (.getFronterCategoriesForSystem _), r => ∃ rows, r = .ok rows
  | .guild guildId, r => r = .ok guildId
  | .channel _, r => ∃ category, r = .ok (.ok category) ∧ category.guildId.isSome = true
  | _, _ => True

/-- What the notifications wait for. -/
def NotifyOk : (o : Call) → o.Reply → Prop
  | .sql (.getNotifyGuildsForSystem _), r => ∃ guilds, r = .ok guilds
  | .validate _, r => r = .ok ()
  | _, _ => True

def Call.asks (o : Call) : Bool :=
  match o.effect with
  | some (.asks _) => true
  | _ => false

/-- The calls of the service until it turns to the next system. -/
def attemptCalls (post : List (Option κ × DbCall)) : List DbCall :=
  (ownCalls none post).takeWhile fun d => !d.op.asks

def Awaited (db : Database) (system : Uuid) : Prop :=
  (∃ guildId, db.Follows guildId system) ∨ ∃ row, db.HasCategory system row

/-- Where someone waits for the system, only the service records a change, and what it needs to tell them
succeeds. -/
def StepOk (i : Option κ) (c : DbCall) (post : List (Option κ × DbCall)) : Prop :=
  ∀ system fronters, Changes c system fronters → Awaited c.after system →
    i = none ∧ (∀ d ∈ attemptCalls post, CategoriesOk d.op d.reply) ∧
      ((∃ guildId, c.after.Follows guildId system) → ∀ d ∈ attemptCalls post, NotifyOk d.op d.reply)

def StepsOk (calls : List (Option κ × DbCall)) : Prop :=
  ∀ pre i c post, calls = pre ++ (i, c) :: post → StepOk i c post

/-! ### The call that records a change -/

def Call.records : Call → Prop
  | .sql (.updateFronters ..) => True
  | _ => False

variable {rely : Database → Database → Prop} {s t : Database} {calls pre post : List DbCall} {c : DbCall}
  {system : Uuid} {fronters : List Uuid}

theorem storedFronters_upsert (db : Database) (row : ModPkSystemFronters) :
    { db with pkSystemFronters := db.pkSystemFronters.upsert system row }.storedFronters system =
      some row.fronters := by
  unfold Database.storedFronters
  rw [Table.row_upsert_self]
  rfl

theorem storedFronters_frame (h : (Cell.pkSystemFronters system).get t = (Cell.pkSystemFronters system).get s) :
    t.storedFronters system = s.storedFronters system := congrArg (Option.map ModPkSystemFronters.fronters) h

theorem not_changes_of_eq (h : c.after.storedFronters system = c.before.storedFronters system) :
    ¬ Changes c system fronters := by
  rintro ⟨old, hne, hbefore, hafter⟩
  rw [h, hbefore] at hafter
  exact hne (Option.some.inj hafter)

/-- Only `update_fronters` changes a list that is stored. -/
theorem records_of_changes (hworld : world c.op c.before c.reply c.after) (h : Changes c system fronters) :
    ∃ updatedAt, c.op = .sql (.updateFronters system fronters updatedAt) := by
  have heffect : c.op.effect = some (.writes (.pkSystemFronters system)) := by
    by_contra hne
    exact not_changes_of_eq (storedFronters_frame (world_frame hworld hne)) h
  obtain ⟨o, r, u, v⟩ := c
  dsimp only at hworld heffect ⊢
  obtain ⟨old, hne, hbefore, hafter⟩ := h
  cases o with
  | sql statement =>
    cases statement with
    | updateFronters other list updatedAt =>
      obtain rfl : other = system := by simpa [Call.effect] using heffect
      cases r with
      | error err =>
        obtain ⟨now, hv⟩ := hworld
        obtain rfl : v = _ := hv
        exact absurd (Option.some.inj (hbefore.symm.trans hafter)) hne
      | ok _ =>
        obtain ⟨now, hv⟩ := hworld
        obtain rfl : v = _ := hv
        have hlist := (storedFronters_upsert { u with now } ⟨list, updatedAt⟩).symm.trans hafter
        obtain rfl : list = fronters := Option.some.inj hlist
        exact ⟨updatedAt, rfl⟩
    | updateFrontersTimestamp other =>
      obtain rfl : other = system := by simpa [Call.effect] using heffect
      cases r with
      | error err =>
        obtain ⟨now, hv⟩ := hworld
        obtain rfl : v = _ := hv
        exact absurd (Option.some.inj (hbefore.symm.trans hafter)) hne
      | ok _ =>
        obtain ⟨now, hv⟩ := hworld
        obtain rfl : v = _ := hv
        -- the list stays
        have hlist := (storedFronters_upsert { u with now } ⟨_, now⟩).symm.trans hafter
        have hkept : ((u.pkSystemFronters.row other).map (·.fronters)).getD [] = fronters :=
          Option.some.inj hlist
        rw [show (u.pkSystemFronters.row other).map (·.fronters) = some old from hbefore] at hkept
        exact absurd hkept hne
    | _ => cases heffect
  | _ => cases heffect

/-! The functions around the record. -/

theorem Confined.not_records {ε α : Type} {effects : Set Effect} {p : TaskM ε α} (hp : Confined effects p)
    (heffects : ∀ system, .writes (.pkSystemFronters system) ∉ effects) :
    p.All (fun o => ¬ o.records) fun _ => True := by
  refine hp.imp fun o ho hrecords => ?_
  cases o with
  | sql statement =>
    cases statement with
    | updateFronters system _ _ => exact heffects system (ho _ rfl)
    | _ => exact hrecords
  | _ => exact hrecords

theorem updateFrontersTimestamp_not_records (uuid : Uuid) :
    ((updateFrontersTimestamp uuid).mapError GetSystemFrontersError.other).All (fun o => ¬ o.records)
      fun _ => True :=
  Prog.All.mapError (Prog.All.mapError ⟨id, fun r => Prog.All.ofExcept r⟩)

theorem frontersOfReply_not_records (reply : Except GetSystemFrontersError (Option Fronters)) :
    (frontersOfReply reply).All (fun o => ¬ o.records) fun _ => True := by
  cases reply with
  | ok fronters => trivial
  | error e =>
    cases e with
    | frontPrivate uuid => exact (updateFrontersTimestamp_not_records uuid).bind fun _ => trivial
    | notFound uuid => exact (updateFrontersTimestamp_not_records uuid).bind fun _ => trivial
    | other err => trivial

/-- What `/pk fronters update` and the calls of others may change. -/
def OnlyFronters (s t : Database) : Prop :=
  ∀ x : Cell, (∀ system, x ≠ .pkSystemFronters system) → x.get t = x.get s

theorem OnlyFronters.hasCategory (h : OnlyFronters s t) {row : ModPkFrontersRow}
    (hrow : s.HasCategory system row) : t.HasCategory system row := by
  have hfronters : t.pkFronters = s.pkFronters := h .pkFronters nofun
  have hguilds : t.pkGuilds = s.pkGuilds := h .pkGuilds nofun
  unfold Database.HasCategory
  rw [hfronters, hguilds]
  exact hrow

theorem OnlyFronters.follows (h : OnlyFronters s t) {guildId : GuildId}
    (hfollows : s.Follows guildId system) : t.Follows guildId system := by
  have hnotify : t.pkNotifySystems = s.pkNotifySystems := h .pkNotifySystems nofun
  unfold Database.Follows
  rw [hnotify]
  exact hfollows

/-- A run that writes no other cell. -/
theorem onlyFronters_of_confined {ε α : Type} {effects : Set Effect} {p : TaskM ε α} {result : Except ε α}
    (h : p.Runs world OnlyFronters s calls result t) (hp : Confined effects p) {x : Cell}
    (hx : ∀ system, x ≠ .pkSystemFronters system) (heffects : .writes x ∉ effects) :
    x.get t = x.get s ∧ ∀ d ∈ calls, x.get d.before = x.get s := by
  refine h.keeps (fun s t hrely => hrely x hx) fun d hd => ?_
  exact world_frame (h.answered d hd) fun hwrites => heffects (h.all hp d hd _ hwrites)

theorem runs_updateFronters {uuid : Uuid} {list : List Uuid} {result : Except Error Unit}
    (h : (updateFronters uuid list).Runs world rely s (pre ++ c :: post) result t) (hrecords : c.op.records)
    (hchange : Changes c system fronters) :
    uuid = system ∧ list = fronters ∧ post = [] ∧ result = .ok () ∧ t = c.after := by
  have hclock : (send .utcNow : Task Time).All (fun o => ¬ o.records) fun _ => True := Prog.All.send id
  obtain ⟨now, u, cs, ds, -, -, hsql⟩ := h.bind_right hclock hrecords
  obtain ⟨v, -, hworld, hcalls⟩ := runs_sql.mp hsql
  obtain ⟨rfl, hcons⟩ : ds = [] ∧ c :: post = [⟨.sql (.updateFronters uuid list now), result, v, t⟩] := by
    cases ds with
    | nil => exact ⟨rfl, hcalls⟩
    | cons d ds => simp at hcalls
  obtain ⟨rfl, rfl⟩ := List.cons.inj hcons
  obtain ⟨updatedAt, hop⟩ := records_of_changes hworld hchange
  obtain ⟨rfl, rfl, -⟩ := Statement.updateFronters.inj (Call.sql.inj hop)
  refine ⟨rfl, rfl, rfl, ?_, rfl⟩
  cases result with
  | ok _ => rfl
  | error err =>
    obtain ⟨now, hv⟩ := hworld
    obtain rfl : t = _ := hv
    exact absurd hchange (not_changes_of_eq rfl)

theorem runs_frontChanged {saved : Option Fronters} {result : Except GetSystemFrontersError FrontChange}
    (h : (frontChanged saved).Runs world OnlyFronters s calls result t) :
    (∃ timestamp, result = .ok (.changed ⟨(saved.map (·.members)).getD [], timestamp⟩)) ∧
      (∀ d ∈ calls, d.op.effect = none) ∧
      ∀ x : Cell, (∀ system, x ≠ .pkSystemFronters system) → x.get t = x.get s := by
  have hconfined : Confined ∅ (frontChanged saved) := confined_frontChanged saved
  refine ⟨?_, fun d hd => ?_, fun x hx => (onlyFronters_of_confined h hconfined hx (Set.notMem_empty _)).1⟩
  · have hreaches : (frontChanged saved).Reaches (fun _ _ => True) (fun _ => False)
        (fun change => ∃ timestamp, change = .changed ⟨(saved.map (·.members)).getD [], timestamp⟩)
        fun _ => False := by
      cases saved with
      | none => exact .inr fun now _ => ⟨now, rfl⟩
      | some fronters => exact ⟨fronters.timestamp, rfl⟩
    rcases h.reaches_or hreaches fun _ _ => trivial with
      ⟨_, -, hfalse⟩ | ⟨_, rfl, timestamp, rfl⟩ | ⟨_, -, hfalse⟩
    · exact hfalse.elim
    · exact ⟨timestamp, rfl⟩
    · exact hfalse.elim
  · exact Option.eq_none_iff_forall_not_mem.mpr fun e he => h.all hconfined d hd e he

/-- What is left of `update_system_fronters` after the change: the switch is made up. -/
theorem runs_recordFronters {row : ModPkSystem} {saved : Option Fronters}
    {result : Except GetSystemFrontersError FrontChange}
    (h : (recordFronters row saved).Runs world OnlyFronters s (pre ++ c :: post) result t)
    (hrecords : c.op.records) (hchange : Changes c system fronters) :
    row.uuid = system ∧ ∃ switch, switch.fronters.map Member.uuid = fronters ∧
      result = .ok (.changed switch) ∧ (frontChanged saved).Runs world OnlyFronters c.after post result t := by
  have hcheck : ∀ list, ((didFrontersChange row.uuid list).mapError GetSystemFrontersError.other).All
      (fun o => ¬ o.records) fun _ => True := fun list =>
    ((confined_didFrontersChange row.uuid list).mapError).not_records fun _ => Set.notMem_empty _
  obtain ⟨changed, u, cs, ds, -, -, hrest⟩ := h.bind_right (hcheck _) hrecords
  have hmem : c ∈ ds ++ c :: post := List.mem_append_right _ List.mem_cons_self
  cases changed with
  | false =>
    have hkeeps := (updateFrontersTimestamp_not_records row.uuid).bind fun _ =>
      Prog.All.pure (ε := GetSystemFrontersError) (E := fun _ => True) FrontChange.unchanged
    exact absurd hrecords (hrest.all hkeeps c hmem)
  | true =>
    have hswitch : Confined ∅ (frontChanged saved) := confined_frontChanged saved
    rcases hrest.bind_left (fun _ => hswitch.not_records fun _ => Set.notMem_empty _) hrecords with
      ⟨e, -, hfails⟩ | ⟨_, v, cs', ds', rfl, hupdate, hswitch⟩
    · obtain ⟨r, herror, hruns⟩ := Prog.runs_mapError.mp hfails
      obtain ⟨-, -, -, rfl, -⟩ := runs_updateFronters hruns hrecords hchange
      cases herror
    · obtain ⟨r, -, hruns⟩ := Prog.runs_mapError.mp hupdate
      obtain ⟨hsystem, hlist, rfl, -, rfl⟩ := runs_updateFronters hruns hrecords hchange
      obtain ⟨timestamp, rfl⟩ := (runs_frontChanged hswitch).1
      exact ⟨hsystem, _, hlist, rfl, hswitch⟩

/-- A round of the service that changes a list goes on to tell everyone. -/
theorem runs_processSystem {row : ModPkSystem} {result : Except Error Unit}
    (h : (processSystem row).Runs world OnlyFronters s (pre ++ c :: post) result t) (hrecords : c.op.records)
    (hchange : Changes c system fronters) :
    row.uuid = system ∧ ∃ switch u cs ds, switch.fronters.map Member.uuid = fronters ∧ post = cs ++ ds ∧
      (∀ d ∈ cs, d.op.effect = none) ∧
      (∀ x : Cell, (∀ system, x ≠ .pkSystemFronters system) → x.get u = x.get c.after) ∧
      (processChange row (.ok (.changed switch))).Runs world OnlyFronters u ds result t := by
  have hprocess : ∀ changed, (processChange row changed).All (fun o => ¬ o.records) fun _ => True := by
    refine fun changed => (confined_processChange row changed).not_records fun system hmem => ?_
    rcases hmem with heffect | heffect | heffect <;> cases heffect
  have hget : ((getSystemFronters row.uuid).attempt : TaskM GetSystemFrontersError _).All
      (fun o => ¬ o.records) fun _ => True := by
    refine (confined_getSystemFronters row.uuid).attempt.not_records fun system hmem => ?_
    cases hmem
  rcases h.bind_left hprocess hrecords with ⟨e, -, hfails⟩ | ⟨changed, u, cs, ds, rfl, hupdate, hrest⟩
  · obtain ⟨r, herror, -⟩ := Prog.runs_attempt.mp hfails
    cases herror
  · obtain ⟨r, hr, hupdate⟩ := Prog.runs_attempt.mp hupdate
    obtain rfl := Except.ok.inj hr
    obtain ⟨reply, v, _, _, -, -, hreply⟩ := hupdate.bind_right hget hrecords
    obtain ⟨saved, w, _, _, -, -, hrecord⟩ := hreply.bind_right (frontersOfReply_not_records reply) hrecords
    obtain ⟨hsystem, switch, hfronters, rfl, hswitch⟩ := runs_recordFronters hrecord hrecords hchange
    obtain ⟨-, hquiet, hkept⟩ := runs_frontChanged hswitch
    exact ⟨hsystem, switch, u, cs, ds, hfronters, rfl, hquiet, hkept, hrest⟩

/-! ### Telling everyone -/

theorem updateFrontersForGuild_reaches (guildId : GuildId) (categoryId : ChannelId) (members : List Member) :
    (updateFrontersForGuild guildId categoryId members).Reaches CategoriesOk
      (UpdatesChannels guildId (members.map (·.uuid))) (fun _ => False) fun _ => False := by
  refine .bind (.send fun guild hguild => ?_)
  obtain rfl : guild = .ok guildId := hguild
  refine .bind (.bind (.send fun channel hchannel => ?_))
  obtain ⟨category, rfl, hsome⟩ := hchannel
  have hcategory : category.guildId.isNone = false := by
    rw [← Option.not_isSome, hsome]
    rfl
  show Prog.Reaches _ _ _ _ (if category.guildId.isNone = true then _ else _)
  rw [hcategory]
  exact .mapError (.inl ⟨category, members, rfl, rfl⟩)

theorem runs_updateFronterCategories {row : ModPkSystem} {switch : Switch} {result : Except Error Unit}
    (h : (updateFronterCategories row switch).Runs world OnlyFronters s calls result t)
    (hok : ∀ d ∈ calls, CategoriesOk d.op d.reply) :
    result = .ok () ∧ ∀ category, s.HasCategory row.uuid category →
      ∃ d ∈ calls, UpdatesChannels category.guildId (switch.fronters.map (·.uuid)) d.op := by
  rcases Prog.runs_bind.mp h with ⟨e, rfl, hfails⟩ | ⟨rows, u, cs, ds, rfl, hrows, hloop⟩
  · obtain ⟨r, herror, hsql⟩ := Prog.runs_mapError.mp hfails
    obtain ⟨v, -, -, rfl⟩ := runs_sql.mp hsql
    obtain ⟨rows, rfl⟩ : ∃ rows, r = .ok rows := hok _ List.mem_cons_self
    cases herror
  · obtain ⟨r, hr, hsql⟩ := Prog.runs_mapError.mp hrows
    obtain ⟨v, hrely, hworld, rfl⟩ := runs_sql.mp hsql
    cases r with
    | error err => cases hr
    | ok rows' =>
      obtain rfl : rows = rows' := Except.ok.inj hr
      obtain ⟨now, ⟨-, hmem⟩, -⟩ := hworld
      have hround : ∀ category : ModPkFrontersRow, (do
          let _ ← (updateFrontersForGuild category.guildId category.categoryId switch.fronters).attempt
          pure () : Task Unit).All (fun _ => True) fun _ => False := fun _ => Prog.all_attempt_ignore _
      obtain ⟨_, rfl⟩ := hloop.not_error (Prog.All.forM fun x _ => hround x)
      refine ⟨rfl, fun category hcategory => ?_⟩
      have hrow : category ∈ rows := (hmem category).mpr (hrely.hasCategory hcategory)
      obtain ⟨w, cs, r, w', hrun, hsub⟩ := hloop.forM_mem hround hrow
      obtain ⟨-, r', hguild⟩ := Prog.runs_attempt_ignore.mp hrun
      have hokRound : ∀ d ∈ cs, CategoriesOk d.op d.reply :=
        fun d hd => hok d (List.mem_cons_of_mem _ (hsub hd))
      obtain ⟨d, hd, hupdates⟩ := hguild.reaches (updateFrontersForGuild_reaches ..) hokRound
      exact ⟨d, List.mem_cons_of_mem _ (hsub hd), hupdates⟩

theorem createFrontChangeEmbed_reaches (row : ModPkSystem) (switch : Switch) :
    (createFrontChangeEmbed row switch).Reaches NotifyOk (fun _ => False)
      (fun embed => embed.description = "\n".intercalate (embedParts switch.fronters)) fun _ => False := by
  have hembed : ∀ thumbnail : Option String,
      (do
        let embed : Embed :=
          { title := s!"Switch: {row.name.getD row.id}"
            thumbnail := thumbnail
            description := "\n".intercalate (embedParts switch.fronters)
            timestamp := switch.timestamp }
        Prog.ofExcept (← send (.validate embed))
        pure embed : Task Embed).Reaches NotifyOk (fun _ => False)
          (fun embed => embed.description = "\n".intercalate (embedParts switch.fronters)) fun _ => False := by
    intro thumbnail
    refine .bind (.send fun reply hreply => ?_)
    obtain rfl : reply = .ok () := hreply
    exact rfl
  refine .bind ?_
  cases row.avatar with
  | none => exact hembed none
  | some url =>
    refine .bind (.send fun source _ => ?_)
    cases source with
    | ok _ => exact hembed (some url)
    | error _ => exact hembed none

theorem notifyGuilds_reaches (system : Uuid) (notification : GuildNotification) {guildId : GuildId}
    {guilds : List GuildId} (h : guildId ∈ guilds) :
    (notifyGuilds system notification guilds).Reaches NotifyOk
      (fun o => o = .notifying guildId system notification) (fun _ => False) fun _ => False := by
  induction guilds with
  | nil => exact absurd h List.not_mem_nil
  | cons first guilds ih =>
    rcases List.mem_cons.mp h with rfl | h
    · exact .inl rfl
    · refine .inr fun _ _ => ?_
      show (do
        let notified ← (notifyGuild first notification).attempt
        let rest ← notifyGuilds system notification guilds
        pure (if notified.isOk then first :: rest else rest) : Task (List GuildId)).Reaches _ _ _ _
      refine .bind (.attempt ?_)
      refine (Prog.Reaches.trivial (notifyGuild first notification)).mono (fun _ _ => ?_) fun _ _ => ?_
      · exact .bind ((ih h).mono (fun _ => False.elim) fun _ => False.elim)
      · exact .bind ((ih h).mono (fun _ => False.elim) fun _ => False.elim)

theorem runs_notifyGuildsForSystem {row : ModPkSystem} {notification : GuildNotification}
    {result : Except Error (List GuildId)}
    (h : (notifyGuildsForSystem row notification).Runs world OnlyFronters s calls result t)
    (hok : ∀ d ∈ calls, NotifyOk d.op d.reply) {guildId : GuildId} (hfollows : s.Follows guildId row.uuid) :
    ∃ d ∈ calls, d.op = .notifying guildId row.uuid notification := by
  rcases Prog.runs_bind.mp h with ⟨e, rfl, hfails⟩ | ⟨guilds, u, cs, ds, rfl, hguilds, hnotify⟩
  · obtain ⟨v, -, -, rfl⟩ := runs_sql.mp hfails
    obtain ⟨guilds, hresult⟩ : ∃ guilds, Except.error e = .ok guilds := hok _ List.mem_cons_self
    cases hresult
  · obtain ⟨v, hrely, ⟨now, ⟨-, hmem⟩, -⟩, rfl⟩ := runs_sql.mp hguilds
    have hguild : guildId ∈ guilds := (hmem guildId).mpr (hrely.follows hfollows)
    have hreaches := notifyGuilds_reaches row.uuid notification hguild
    obtain ⟨d, hd, hop⟩ := hnotify.reaches hreaches fun d hd => hok d (List.mem_append_right _ hd)
    exact ⟨d, List.mem_append_right _ hd, hop⟩

theorem runs_notifyFrontChange {row : ModPkSystem} {switch : Switch} {result : Except Error Unit}
    (h : (notifyFrontChange row switch).Runs world OnlyFronters s calls result t)
    (hok : ∀ d ∈ calls, NotifyOk d.op d.reply) {guildId : GuildId} (hfollows : s.Follows guildId row.uuid) :
    ∃ d ∈ calls, Notifies guildId row.uuid (switch.fronters.map (·.uuid)) d.op := by
  have hembed := createFrontChangeEmbed_reaches row switch
  rcases Prog.runs_bind.mp h with ⟨e, -, hfails⟩ | ⟨embed, u, cs, ds, rfl, hruns, hnotify⟩
  · rcases hfails.reaches_or hembed hok with ⟨_, -, hfalse⟩ | ⟨_, hresult, -⟩ | ⟨_, -, hfalse⟩
    · exact hfalse.elim
    · cases hresult
    · exact hfalse.elim
  · obtain ⟨hokEmbed, hokNotify⟩ := List.forall_mem_append.mp hok
    have hdescription : embed.description = "\n".intercalate (embedParts switch.fronters) := by
      rcases hruns.reaches_or hembed hokEmbed with
        ⟨_, -, hfalse⟩ | ⟨_, hresult, hdescription⟩ | ⟨_, hresult, -⟩
      · exact hfalse.elim
      · exact Except.ok.inj hresult ▸ hdescription
      · cases hresult
    have hkept : u.Follows guildId row.uuid := by
      have hconfined : Confined ∅ (createFrontChangeEmbed row switch) := confined_createFrontChangeEmbed ..
      have hsystems : u.pkNotifySystems = s.pkNotifySystems :=
        (onlyFronters_of_confined (x := .pkNotifySystems) hruns hconfined nofun (Set.notMem_empty _)).1
      unfold Database.Follows
      rw [hsystems]
      exact hfollows
    have hsome : ∃ d ∈ ds, d.op = .notifying guildId row.uuid (.switch embed) := by
      rcases Prog.runs_bind.mp hnotify with ⟨e, -, hfails⟩ | ⟨_, _, cs', ds', rfl, hguilds, -⟩
      · exact runs_notifyGuildsForSystem hfails hokNotify hkept
      · obtain ⟨hokGuilds, -⟩ := List.forall_mem_append.mp hokNotify
        obtain ⟨d, hd, hop⟩ := runs_notifyGuildsForSystem hguilds hokGuilds hkept
        exact ⟨d, List.mem_append_left _ hd, hop⟩
    obtain ⟨d, hd, hop⟩ := hsome
    exact ⟨d, List.mem_append_right _ hd, switch.fronters, embed, rfl, hdescription, hop⟩

/-- With the list of one change `process_system` tells everyone who waits. -/
theorem runs_processChange {row : ModPkSystem} {switch : Switch} {result : Except Error Unit}
    (h : (processChange row (.ok (.changed switch))).Runs world OnlyFronters s calls result t)
    (hcategories : ∀ d ∈ calls, CategoriesOk d.op d.reply)
    (hnotify : (∃ guildId, s.Follows guildId row.uuid) → ∀ d ∈ calls, NotifyOk d.op d.reply) :
    Reported s row.uuid (switch.fronters.map (·.uuid)) calls := by
  rcases Prog.runs_bind.mp h with ⟨e, -, hfails⟩ | ⟨_, u, cs, ds, rfl, hruns, hrest⟩
  · obtain ⟨hresult, -⟩ := runs_updateFronterCategories hfails hcategories
    cases hresult
  · obtain ⟨hokCategories, -⟩ := List.forall_mem_append.mp hcategories
    obtain ⟨-, hupdated⟩ := runs_updateFronterCategories hruns hokCategories
    constructor
    · intro guildId hfollows
      have hkept : u.Follows guildId row.uuid := by
        have hsystems : u.pkNotifySystems = s.pkNotifySystems :=
          (onlyFronters_of_confined (x := .pkNotifySystems) hruns (confined_updateFronterCategories row switch)
            nofun (by simp)).1
        unfold Database.Follows
        rw [hsystems]
        exact hfollows
      obtain ⟨-, hokNotify⟩ := List.forall_mem_append.mp (hnotify ⟨guildId, hfollows⟩)
      obtain ⟨d, hd, hop⟩ := runs_notifyFrontChange hrest hokNotify hkept
      exact ⟨d, List.mem_append_right _ hd, hop⟩
    · intro category hcategory
      obtain ⟨d, hd, hop⟩ := hupdated category hcategory
      exact ⟨d, List.mem_append_left _ hd, hop⟩

/-! ### Runs -/

theorem OnlyFronters.refl (s : Database) : OnlyFronters s s := fun _ _ => rfl

theorem OnlyFronters.trans (s t u : Database) (h : OnlyFronters s t) (h' : OnlyFronters t u) :
    OnlyFronters s u := fun x hx => (h' x hx).trans (h x hx)

theorem OnlyFronters.symm (h : OnlyFronters s t) : OnlyFronters t s := fun x hx => (h x hx).symm

theorem Reported.mono {own : List DbCall} (h : Reported t system fronters own) (hdb : OnlyFronters s t)
    (hsub : own ⊆ calls) : Reported s system fronters calls := by
  constructor
  · intro guildId hfollows
    obtain ⟨d, hd, hop⟩ := h.1 guildId (hdb.follows hfollows)
    exact ⟨d, hsub hd, hop⟩
  · intro row hrow
    obtain ⟨d, hd, hop⟩ := h.2 row (hdb.hasCategory hrow)
    exact ⟨d, hsub hd, hop⟩

/-- Commands leave all to the service that it reads when it tells everyone. -/
theorem onlyFronters_of_command {systems : List ModPkSystem} {pool : FrontPool κ}
    {calls : List (Option κ × DbCall)} (h : Pool.Steps world ⟨fronts systems, s⟩ calls pool) :
    ∀ d ∈ calls, d.1 ≠ none → OnlyFronters d.2.before d.2.after := by
  intro d hd hcommand x hx
  obtain ⟨n, hn⟩ := Option.ne_none_iff_exists'.mp hcommand
  have hhandle : ((⟨fronts systems, s⟩ : FrontPool κ).progs (some n)).All
      (Call.Within {e | ∃ system, e ∈ updateEffects system}) fun _ => True := confined_handle
  have hwithin := h.all hhandle d hd hn
  refine world_frame (h.answered d hd) fun hwrites => ?_
  obtain ⟨system, heffect | heffect⟩ := hwithin _ hwrites
  · cases heffect
  · exact hx system (Effect.writes.inj heffect)

theorem asks_eq_false {o : Call} (h : ∀ system, o.effect ≠ some (.asks system)) : o.asks = false := by
  unfold Call.asks
  split
  · next system heffect => exact absurd heffect (h system)
  · rfl

/-- The rest of a round is among the attempt calls. -/
theorem mem_attemptCalls {calls : List (Option κ × DbCall)} {own rest : List DbCall}
    (h : ownCalls none calls = own ++ rest) (hown : ∀ d ∈ own, d.op.asks = false) :
    ∀ d ∈ own, d ∈ attemptCalls calls := by
  intro d hd
  unfold attemptCalls
  rw [h, List.takeWhile_append_of_pos fun d hd => by simp [hown d hd]]
  exact List.mem_append_left _ hd

/-- No front change is swallowed, if commands record none and the attempts are not held up. -/
theorem no_change_swallowed {systems : List ModPkSystem} {calls : List (Option κ × DbCall)}
    {pool : FrontPool κ}
    (h : Pool.Steps world ⟨fronts systems, s⟩ calls pool) (hdone : (pool.progs none).done = true)
    (hok : StepsOk calls) : NoChangeSwallowed calls := by
  intro pre i c post hcalls system fronters hchange
  by_cases hawaited : Awaited c.after system
  · obtain ⟨rfl, hcategories, hnotify⟩ := hok pre i c post hcalls system fronters hchange hawaited
    have hmem : (none, c) ∈ calls := hcalls ▸ List.mem_append_right _ List.mem_cons_self
    obtain ⟨updatedAt, hop⟩ := records_of_changes (h.answered _ hmem) hchange
    have hrecords : c.op.records := by rw [hop]; trivial
    obtain ⟨result, t, hruns⟩ := h.runs OnlyFronters.refl OnlyFronters.trans hdone fun d hd hne =>
      onlyFronters_of_command h d hd hne
    have hown : ownCalls none calls = ownCalls none pre ++ c :: ownCalls none post := by
      rw [hcalls, ownCalls_append, ownCalls_cons_self]
    rw [hown] at hruns
    obtain ⟨row, -, u, pre', post', r, v, rest, hround, hpost⟩ := Prog.Runs.forM_split hruns
    obtain ⟨-, r', hprocess⟩ := Prog.runs_attempt_ignore.mp hround
    obtain ⟨rfl, switch, w, cs, ds, rfl, rfl, hquiet, hkept, hrest⟩ :=
      runs_processSystem hprocess hrecords hchange
    have hasks : ∀ d ∈ cs ++ ds, d.op.asks = false := by
      refine List.forall_mem_append.mpr ⟨fun d hd => ?_, fun d hd => ?_⟩
      · exact asks_eq_false fun system heffect => by simp [hquiet d hd] at heffect
      · refine asks_eq_false fun system heffect => ?_
        rcases hrest.all (confined_processChange row _) d hd _ heffect with h | h | h <;> cases h
    have hattempts : ∀ d ∈ ds, d ∈ attemptCalls post := fun d hd =>
      mem_attemptCalls hpost hasks d (List.mem_append_right _ hd)
    have hreported := runs_processChange hrest (fun d hd => hcategories d (hattempts d hd)) ?_
    · refine hreported.mono hkept fun d hd => List.mem_map.mpr ⟨(none, d), mem_ownCalls.mp ?_, rfl⟩
      rw [hpost]
      exact List.mem_append_left _ (List.mem_append_right _ hd)
    · rintro ⟨guildId, hfollows⟩ d hd
      exact hnotify ⟨guildId, OnlyFronters.follows (OnlyFronters.symm hkept) hfollows⟩ d (hattempts d hd)
  · obtain ⟨hfollows, hcategory⟩ := not_or.mp hawaited
    exact ⟨fun guildId hg => absurd ⟨guildId, hg⟩ hfollows, fun row hrow => absurd ⟨row, hrow⟩ hcategory⟩

/-! ### Runs with a change -/

theorem StepsOk.cons {i : Option κ} {c : DbCall} {calls : List (Option κ × DbCall)} (hfirst : StepOk i c calls)
    (hrest : StepsOk calls) : StepsOk ((i, c) :: calls) := by
  intro pre j d post hcalls
  cases pre with
  | nil =>
    obtain ⟨hhead, rfl⟩ := List.cons.inj hcalls
    obtain ⟨rfl, rfl⟩ := Prod.mk.inj hhead
    exact hfirst
  | cons e pre => exact hrest pre j d post (List.cons.inj hcalls).2

theorem StepOk.of_eq {i : Option κ} {c : DbCall} {post : List (Option κ × DbCall)} (h : c.after = c.before) :
    StepOk i c post := fun _ _ hchange _ => absurd hchange (not_changes_of_eq (by rw [h]))

def exampleSystem : ModPkSystem := ⟨⟨"exmpl", none, none, 0, 0⟩, ⟨1⟩⟩

def exampleMember : Member := ⟨⟨3⟩, "Alex", none⟩

def exampleSwitch : PkSwitch := ⟨[.struct exampleMember], 0⟩

def exampleGuild : GuildId := ⟨41, by decide⟩

def exampleCategory : Channel := ⟨⟨51, by decide⟩, some exampleGuild⟩

/-- A guild that follows the system. -/
def exampleFollower : GuildId := ⟨61, by decide⟩

def exampleNotifyChannel : ChannelId := ⟨91, by decide⟩

/-- The guild of the system, and another one that follows it. -/
def exampleDatabase : Database :=
  { now := hour
    pkSystems := Table.empty.upsert exampleSystem.uuid exampleSystem.toSystemColumns
    pkSystemFronters := Table.empty.upsert exampleSystem.uuid ⟨[⟨2⟩], 0⟩
    pkGuilds := Table.empty.upsert exampleGuild ⟨⟨71, by decide⟩, exampleSystem.uuid⟩
    pkFronters := Table.empty.upsert exampleGuild exampleCategory.id
    pkNotifyChannels := Table.empty.upsert exampleFollower exampleNotifyChannel
    pkNotifySystems := {(exampleFollower, exampleSystem.uuid)}
    guilds := (Table.empty.upsert exampleGuild ⟨0, 0, none⟩).upsert exampleFollower ⟨0, 0, none⟩ }

/-- The same with the fronters of the switch. -/
def changedDatabase : Database :=
  { exampleDatabase with
    pkSystemFronters :=
      exampleDatabase.pkSystemFronters.upsert exampleSystem.uuid ⟨[exampleMember.uuid], hour⟩ }

def unchangedDatabase : Database :=
  { changedDatabase with
    pkSystemFronters :=
      changedDatabase.pkSystemFronters.upsert exampleSystem.uuid ⟨[exampleMember.uuid], hour⟩ }

/-- `/pk fronters update` in the guild of the system. -/
def exampleCommand : List DbCall :=
  let db := exampleDatabase
  [⟨.ctxGuild, .ok (some exampleGuild), db, db⟩, ⟨.deferEphemeral, .ok (), db, db⟩,
    ⟨.sql (.getGuildSettingsForId exampleGuild), .ok (db.pkGuilds.row exampleGuild), db, db⟩,
    ⟨.sql (.getFronterCategory exampleGuild), .ok (some exampleCategory.id), db, db⟩,
    ⟨.channel exampleCategory.id, .ok (.ok exampleCategory), db, db⟩,
    ⟨.sql (.getSystem exampleSystem.uuid), .ok (some exampleSystem), db, db⟩,
    ⟨.pkGetSystemFronters exampleSystem.uuid, .ok (some exampleSwitch), db, db⟩,
    ⟨.fromTimestamp 0, some 0, db, db⟩,
    ⟨.updateFronterChannels exampleGuild exampleCategory [exampleMember], .ok (), db, db⟩,
    ⟨.utcNow, hour, db, db⟩,
    ⟨.sql (.updateFronters exampleSystem.uuid [exampleMember.uuid] hour), .ok (), db, changedDatabase⟩,
    ⟨.respondSuccess "Fronter category updated!", .ok (), changedDatabase, changedDatabase⟩]

theorem runs_exampleCommand : handle.Runs world Eq exampleDatabase exampleCommand (.ok ()) changedDatabase := by
  refine .call rfl ⟨hour, rfl⟩ ?_
  refine .call rfl ⟨hour, rfl⟩ ?_
  refine .call rfl ⟨hour, rfl, rfl⟩ ?_
  refine .call rfl ⟨hour, rfl, rfl⟩ ?_
  refine .call rfl ⟨hour, rfl⟩ ?_
  refine .call rfl ⟨hour, rfl, rfl⟩ ?_
  refine .call rfl ⟨hour, rfl⟩ ?_
  refine .call rfl ⟨hour, rfl⟩ ?_
  refine .call rfl ⟨hour, rfl⟩ ?_
  refine .call rfl ⟨hour, rfl⟩ ?_
  refine .call rfl ⟨hour, rfl⟩ ?_
  exact .call rfl ⟨hour, rfl⟩ (.pure _ _)

/-- `process_system` afterwards, to which nothing has changed. -/
def exampleUnchanged : List DbCall :=
  let db := changedDatabase
  [⟨.pkGetSystemFronters exampleSystem.uuid, .ok (some exampleSwitch), db, db⟩,
    ⟨.fromTimestamp 0, some 0, db, db⟩,
    ⟨.sql (.getFronters exampleSystem.uuid), .ok (db.pkSystemFronters.row exampleSystem.uuid), db, db⟩,
    ⟨.sql (.updateFrontersTimestamp exampleSystem.uuid), .ok (), db, unchangedDatabase⟩]

theorem runs_exampleUnchanged : (processAll processSystem [exampleSystem]).Runs world Eq changedDatabase
    exampleUnchanged (.ok ()) unchangedDatabase := by
  refine .call rfl ⟨hour, rfl⟩ ?_
  refine .call rfl ⟨hour, rfl⟩ ?_
  refine .call rfl ⟨hour, rfl, rfl⟩ ?_
  exact .call rfl ⟨hour, rfl⟩ (.pure _ _)

def exampleCalls : List (Option Unit × DbCall) :=
  (exampleCommand.map fun c => (some (), c)) ++ exampleUnchanged.map fun c => (none, c)

theorem steps_exampleCalls : ∃ pool : FrontPool Unit,
    Pool.Steps world ⟨fronts [exampleSystem], exampleDatabase⟩ exampleCalls pool ∧
      ∀ i, (pool.progs i).done = true := by
  have hhandle : fronts [exampleSystem] (some ()) = handle := rfl
  have hcommand := Pool.Steps.of_runs runs_exampleCommand hhandle
  refine ⟨_, hcommand.append (Pool.Steps.of_runs (i := none) runs_exampleUnchanged rfl), fun i => ?_⟩
  rcases i with _ | ⟨⟩ <;> rfl

theorem changes_exampleCommand :
    Changes ⟨.sql (.updateFronters exampleSystem.uuid [exampleMember.uuid] hour), .ok (), exampleDatabase,
      changedDatabase⟩ exampleSystem.uuid [exampleMember.uuid] :=
  ⟨[⟨2⟩], by decide, rfl, rfl⟩

/-- A command records the new front, and the guild that follows the system is never told. -/
theorem command_swallows_change :
    (∃ pool : FrontPool Unit,
      Pool.Steps world ⟨fronts [exampleSystem], exampleDatabase⟩ exampleCalls pool ∧
        ∀ i, (pool.progs i).done = true) ∧
      ¬ NoChangeSwallowed exampleCalls := by
  refine ⟨steps_exampleCalls, fun h => ?_⟩
  have hreported := h (exampleCommand.take 10 |>.map fun c => (some (), c)) (some ()) _
    ((exampleCommand.drop 11).map (fun c => (some (), c)) ++ exampleUnchanged.map fun c => (none, c)) rfl
    exampleSystem.uuid [exampleMember.uuid] changes_exampleCommand
  have hfollows : changedDatabase.Follows exampleFollower exampleSystem.uuid := Finset.mem_singleton_self _
  obtain ⟨d, hd, members, embed, -, -, hop⟩ := hreported.1 exampleFollower hfollows
  simp only [exampleCommand, exampleUnchanged, List.drop, List.map_cons, List.map_nil, List.mem_cons,
    List.not_mem_nil, List.cons_append, List.nil_append, or_false] at hd
  rcases hd with rfl | rfl | rfl | rfl | rfl <;> cases hop

/-- `process_system` that finds the new front itself. -/
def exampleChanged : List DbCall :=
  let db := exampleDatabase
  let db' := changedDatabase
  [⟨.pkGetSystemFronters exampleSystem.uuid, .ok (some exampleSwitch), db, db⟩,
    ⟨.fromTimestamp 0, some 0, db, db⟩,
    ⟨.sql (.getFronters exampleSystem.uuid), .ok (db.pkSystemFronters.row exampleSystem.uuid), db, db⟩,
    ⟨.utcNow, hour, db, db⟩,
    ⟨.sql (.updateFronters exampleSystem.uuid [exampleMember.uuid] hour), .ok (), db, db'⟩,
    ⟨.sql (.getFronterCategoriesForSystem exampleSystem.uuid), .ok [⟨exampleGuild, exampleCategory.id⟩], db',
      db'⟩,
    ⟨.guild exampleGuild, .ok exampleGuild, db', db'⟩,
    ⟨.channel exampleCategory.id, .ok (.ok exampleCategory), db', db'⟩,
    ⟨.updateFronterChannels exampleGuild exampleCategory [exampleMember], .ok (), db', db'⟩,
    ⟨.validate ⟨"Switch: exmpl", none, "* Alex", 0⟩, .ok (), db', db'⟩,
    ⟨.sql (.getNotifyGuildsForSystem exampleSystem.uuid), .ok [exampleFollower], db', db'⟩,
    ⟨.notifying exampleFollower exampleSystem.uuid (.switch ⟨"Switch: exmpl", none, "* Alex", 0⟩), (), db',
      db'⟩,
    ⟨.sql (.getNotifyChannel exampleFollower), .ok (some exampleNotifyChannel), db', db'⟩,
    ⟨.createMessage exampleNotifyChannel (.switch ⟨"Switch: exmpl", none, "* Alex", 0⟩), .ok (), db', db'⟩]

theorem hasCategory_example (row : ModPkFrontersRow) :
    row ∈ [(⟨exampleGuild, exampleCategory.id⟩ : ModPkFrontersRow)] ↔
      changedDatabase.HasCategory exampleSystem.uuid row := by
  rw [List.mem_singleton]
  constructor
  · rintro rfl
    exact ⟨rfl, rfl⟩
  · rintro ⟨hcategory, -⟩
    obtain ⟨guildId, categoryId⟩ := row
    by_cases hguild : guildId = exampleGuild
    · subst hguild
      obtain rfl : exampleCategory.id = categoryId := Option.some.inj hcategory
      rfl
    · have hnone : (Table.empty.upsert exampleGuild exampleCategory.id).row guildId = none :=
        Table.row_upsert_of_ne _ hguild _
      exact absurd (hnone.symm.trans hcategory) nofun

theorem follows_example (guildId : GuildId) :
    guildId ∈ [exampleFollower] ↔ changedDatabase.Follows guildId exampleSystem.uuid := by
  unfold Database.Follows
  rw [List.mem_singleton]
  show _ ↔ _ ∈ ({(exampleFollower, exampleSystem.uuid)} : Finset (GuildId × Uuid))
  rw [Finset.mem_singleton, Prod.mk.injEq, and_iff_left rfl]

theorem runs_exampleChanged : (processAll processSystem [exampleSystem]).Runs world Eq exampleDatabase
    exampleChanged (.ok ()) changedDatabase := by
  refine .call rfl ⟨hour, rfl⟩ ?_
  refine .call rfl ⟨hour, rfl⟩ ?_
  refine .call rfl ⟨hour, rfl, rfl⟩ ?_
  refine .call rfl ⟨hour, rfl⟩ ?_
  refine .call rfl ⟨hour, rfl⟩ ?_
  refine .call rfl ⟨hour, ⟨List.nodup_singleton _, hasCategory_example⟩, rfl⟩ ?_
  refine .call rfl ⟨hour, rfl⟩ ?_
  refine .call rfl ⟨hour, rfl⟩ ?_
  refine .call rfl ⟨hour, rfl⟩ ?_
  refine .call rfl ⟨hour, rfl⟩ ?_
  refine .call rfl ⟨hour, ⟨List.nodup_singleton _, follows_example⟩, rfl⟩ ?_
  refine .call rfl ⟨hour, rfl⟩ ?_
  refine .call rfl ⟨hour, rfl, rfl⟩ ?_
  exact .call rfl ⟨hour, rfl⟩ (.pure _ _)

theorem StepsOk.of_eq {calls : List (Option κ × DbCall)} (h : ∀ d ∈ calls, d.2.after = d.2.before) :
    StepsOk calls := by
  intro pre i c post hcalls
  have hmem : (i, c) ∈ calls := hcalls ▸ List.mem_append_right _ List.mem_cons_self
  exact .of_eq (h _ hmem)

theorem stepsOk_exampleChanged : StepsOk (exampleChanged.map fun c => ((none : Option Unit), c)) := by
  have hrest : ∀ d ∈ exampleChanged.drop 5, CategoriesOk d.op d.reply ∧ NotifyOk d.op d.reply := by
    simp [exampleChanged, CategoriesOk, NotifyOk, exampleCategory]
  have hattempts : ∀ d ∈ attemptCalls ((exampleChanged.drop 5).map fun c => ((none : Option Unit), c)),
      d ∈ exampleChanged.drop 5 := by
    intro d hd
    obtain ⟨c, hc, heq⟩ := List.mem_map.mp (mem_ownCalls.mp (List.takeWhile_subset _ hd))
    exact (Prod.mk.inj heq).2 ▸ hc
  refine .cons (.of_eq rfl) (.cons (.of_eq rfl) (.cons (.of_eq rfl) (.cons (.of_eq rfl) (.cons ?_ ?_))))
  · intro system fronters _ _
    exact ⟨rfl, fun d hd => (hrest d (hattempts d hd)).1, fun _ d hd => (hrest d (hattempts d hd)).2⟩
  · refine .of_eq ?_
    simp

theorem no_change_swallowed_example :
    NoChangeSwallowed (exampleChanged.map fun c => ((none : Option Unit), c)) := by
  have hservice : fronts (κ := Unit) [exampleSystem] none = processAll processSystem [exampleSystem] := rfl
  exact no_change_swallowed (Pool.Steps.of_runs runs_exampleChanged hservice) rfl stepsOk_exampleChanged

end Tulpje.Pluralkit
