import Tulpje.Pluralkit.Calls
import Tulpje.Pluralkit.Setup

/-!
# A new category and the job that updates all of them

`/pk fronters setup` saves the new category only after it has updated its channels, so that nobody else updates them
meanwhile. `updates_wait_for_setup` is about any number of commands and services in any order of their calls: whoever
else updates the channels of a new category does so after its setup has updated and saved it.
-/

namespace Tulpje.Pluralkit.CategoryRace

open Lib
open Setup
open Twilight (Id)

/-! ### Who runs -/

inductive Actor
  | setup (command : Command)
  | frontersUpdate
  | frontService (ticks : ℕ)
  | systemService (ticks : ℕ)

def Actor.prog (libraries : Libraries) : Actor → SetupTask Unit
  | setup command => command.handle libraries
  | frontersUpdate => task Pluralkit.handle
  | frontService ticks => task (start frontTick ticks)
  | systemService ticks => task (start systemTick ticks)

abbrev Run := List (ℕ × SetupDbCall)

/-- The calls of any number of them on one database. -/
def Runs (libraries : Libraries) (actors : ℕ → Actor) (db : Database) (run : Run) : Prop :=
  ∃ rest, Pool.Steps setupWorld ⟨fun i => (actors i).prog libraries, db⟩ run rest

def answer (d : SetupDbCall) : Prog.Answered SetupCall.Reply := ⟨d.op, d.reply⟩

/-- The id of the channel that Discord creates. -/
def created : Prog.Answered SetupCall.Reply → Option ChannelId
  | ⟨.createGuildChannel .., .ok (.ok channel)⟩ => some channel.id
  | _ => none

/-- The answer is the channel that was asked for. -/
def Named : Prog.Answered SetupCall.Reply → Prop
  | ⟨.notify (.other (.channel id)), .ok (.ok channel)⟩ => channel.id = id
  | _ => True

/-- Discord gives new ids to new channels, and answers with the channel that was asked for. -/
structure Faithful (db : Database) (run : Run) : Prop where
  unsaved : ∀ i d id, (i, d) ∈ run → created (answer d) = some id → ∀ guild, db.pkFronters.row guild ≠ some id
  distinct : ∀ i j d e id, (i, d) ∈ run → (j, e) ∈ run → created (answer d) = some id →
    created (answer e) = some id → i = j
  named : ∀ c ∈ run, Named (answer c.2)

/-! ### Where a category comes from -/

/-- The id stands in `pk_fronters`. -/
def ReadId (own : List (Prog.Answered Call.Reply)) (id : ChannelId) : Prop :=
  (∃ guild, ⟨.sql (.getFronterCategory guild), .ok (some id)⟩ ∈ own) ∨
    ∃ system rows, ⟨.sql (.getFronterCategoriesForSystem system), .ok rows⟩ ∈ own ∧
      ∃ row ∈ rows, row.categoryId = id

def Read (own : List (Prog.Answered Call.Reply)) (o : Call) : Prop :=
  ∀ guild category members, o = .updateFronterChannels guild category members →
    ∃ id, ReadId own id ∧ ⟨.channel id, .ok (.ok category)⟩ ∈ own

theorem ReadId.mono {own own' : List (Prog.Answered Call.Reply)} {id : ChannelId} (h : ReadId own id)
    (hsub : own ⊆ own') : ReadId own' id :=
  h.imp (.imp fun _ h => hsub h) (.imp fun _ => .imp fun _ => .imp_left fun h => hsub h)

/-! ### Tasks that update no category -/

def Other : Call → Prop
  | .updateFronterChannels .. => False
  | _ => True

theorem other_of_common (o : Call) (h : o.Common) : Other o := by
  cases o with
  | updateFronterChannels => exact h
  | _ => trivial

theorem only_notifyFrontChange (system : ModPkSystem) (switch : Switch) :
    Only Other (notifyFrontChange system switch) := by
  refine (only_createFrontChangeEmbed other_of_common system switch).bind fun embed => ?_
  refine (only_notifyGuildsForSystem other_of_common ?_ system).bind fun _ => trivial
  exact fun _ _ => trivial

/-! ### Tasks that do -/

section Task
variable {own : List (Prog.Answered Call.Reply)} {ε α β : Type}

/-- Each category that the task updates was read. -/
def Reads (own : List (Prog.Answered Call.Reply)) (p : TaskM ε α) (Q : List (Prog.Answered Call.Reply) → α → Prop) :
    Prop := p.Traced Read Q (fun _ _ => True) own

theorem reads_of_only {p : TaskM ε α} (h : Only Other p) : Reads own p fun _ _ => True := by
  refine Prog.Traced.keeps (I := fun _ => True) (h.mono (fun _ => id) fun _ _ _ _ => trivial) ?_
    (fun _ _ _ _ _ => trivial) trivial
  rintro _ own ho - guild category members rfl
  exact ho.elim

theorem Reads.bind {p : TaskM ε α} {f : α → TaskM ε β} {Q : List (Prog.Answered Call.Reply) → α → Prop}
    {Q' : List (Prog.Answered Call.Reply) → β → Prop} (hp : Reads own p Q)
    (hf : ∀ own' a, own ⊆ own' → Q own' a → Reads own' (f a) Q') : Reads own (p >>= f) Q' :=
  Prog.Traced.bind_grows hp hf

theorem Reads.send {o : Call} {f : o.Reply → TaskM ε β} {Q : List (Prog.Answered Call.Reply) → β → Prop}
    (ho : Read own o) (hf : ∀ r, Reads (⟨o, r⟩ :: own) (f r) Q) : Reads own (Pluralkit.send o >>= f) Q :=
  Prog.Traced.send_bind ho hf

theorem Reads.ofExcept {x : Except ε α} {Q : List (Prog.Answered Call.Reply) → α → Prop}
    (h : ∀ a, x = .ok a → Q own a) : Reads own (Prog.ofExcept x) Q := Prog.Traced.ofExcept h fun _ _ => trivial

theorem Reads.mapError {ε' : Type} {p : TaskM ε α} {g : ε → ε'} {Q : List (Prog.Answered Call.Reply) → α → Prop}
    (hp : Reads own p Q) : Reads own (p.mapError g) Q := Prog.Traced.mapError hp

/-- An attempt whose result does not matter. -/
theorem Reads.attempt {p : Task α} (hp : Reads own p fun _ _ => True) :
    Reads own (do let _ ← p.attempt; pure () : Task Unit) fun _ _ => True := by
  have hattempt : Reads own (p.attempt : Task (Except Error α)) fun _ _ => True := Prog.Traced.attempt hp
  exact hattempt.bind fun _ _ _ _ => trivial

theorem reads_sql {statement : Statement} : Reads own (Pluralkit.sql statement) fun own rows =>
    ⟨.sql statement, .ok rows⟩ ∈ own := by
  refine Reads.send nofun fun r => Reads.ofExcept ?_
  rintro rows rfl
  exact List.mem_cons_self

theorem reads_updateFrontersForGuild {guildId : GuildId} {categoryId : ChannelId} {members : List Member}
    (hread : ReadId own categoryId) :
    Reads own (updateFrontersForGuild guildId categoryId members) fun _ _ => True := by
  refine Reads.send nofun fun guild => ?_
  refine (Reads.ofExcept (Q := fun _ _ => True) fun _ _ => trivial).bind fun own₁ guild hsub₁ _ => ?_
  refine Reads.send nofun fun reply => ?_
  cases reply with
  | unknown => exact reads_sql.mapError.mono fun _ _ _ => trivial
  | error err => trivial
  | ok response =>
    have hcategory : Reads (⟨.channel categoryId, .ok response⟩ :: own₁) (Prog.ofExcept response)
        fun own category => ReadId own categoryId ∧ ⟨.channel categoryId, .ok (.ok category)⟩ ∈ own := by
      refine Reads.ofExcept ?_
      rintro category rfl
      exact ⟨hread.mono (List.subset_cons_of_subset _ (List.subset_of_cons_subset hsub₁)), List.mem_cons_self⟩
    refine hcategory.bind fun own₂ category _ hread => ?_
    split
    · trivial
    · refine Reads.mapError (Reads.send ?_ fun r => Reads.ofExcept fun _ _ => trivial)
      rintro _ _ _ ⟨⟩
      exact ⟨categoryId, hread⟩

theorem reads_updateFronterCategories (system : ModPkSystem) (switch : Switch) :
    Reads own (updateFronterCategories system switch) fun _ _ => True := by
  refine reads_sql.mapError.bind fun own₁ rows _ hrows => ?_
  refine Prog.Traced.mono (Q := fun own _ => own₁ ⊆ own)
    (Prog.Traced.forM (I := fun own => own₁ ⊆ own) (fun row hrow own₂ hsub => ?_) (List.Subset.refl _))
    fun _ _ _ => trivial
  have hread : ReadId own₂ row.categoryId := .inr ⟨system.uuid, rows, hsub hrows, row, hrow, rfl⟩
  exact (reads_updateFrontersForGuild hread).attempt.grows.mono fun _ _ h => List.Subset.trans hsub h.1

theorem reads_processSystem (system : ModPkSystem) : Reads own (processSystem system) fun _ _ => True := by
  refine (reads_of_only (only_updateSystemFronters other_of_common system).attempt).bind fun own₁ change _ _ => ?_
  rcases change with (_ | _ | err) | (_ | switch)
  · exact reads_of_only (only_notifyFrontPrivate other_of_common system)
  · exact reads_of_only (only_notifySystemNotFound other_of_common system)
  · trivial
  · trivial
  · refine (reads_updateFronterCategories system switch).bind fun _ _ _ _ => ?_
    exact reads_of_only (only_notifyFrontChange system switch)

theorem reads_processAll {process : ModPkSystem → Task Unit}
    (h : ∀ own system, Reads own (process system) fun _ _ => True) (systems : List ModPkSystem) :
    Reads own (processAll process systems) fun _ _ => True :=
  Prog.Traced.forM (I := fun _ => True) (fun system _ own _ => (h own system).attempt) trivial

theorem reads_frontTick : Reads own frontTick fun _ _ => True :=
  reads_sql.bind fun _ _ _ _ => reads_sql.bind fun _ _ _ _ => reads_sql.bind fun _ systems _ _ =>
    reads_processAll (fun _ system => reads_processSystem system) systems

theorem reads_systemTick : Reads own systemTick fun _ _ => True :=
  reads_sql.bind fun _ systems _ _ =>
    reads_processAll (fun _ system => reads_of_only (only_updateSystem other_of_common system)) systems

theorem reads_start {tick : Task Unit} (h : ∀ own, Reads own tick fun _ _ => True) (ticks : ℕ) :
    Reads own (start tick ticks) fun _ _ => True := by
  induction ticks generalizing own with
  | zero => trivial
  | succ ticks ih =>
    have htick : Reads own (tick.attempt : Task (Except Error Unit)) fun _ _ => True := Prog.Traced.attempt (h own)
    exact htick.bind fun _ _ _ _ => ih

/-- A last call. -/
theorem reads_answer {o : Call} {x : o.Reply → Except Error Unit} (ho : Read own o) :
    Reads own (do Prog.ofExcept (x (← Pluralkit.send o)) : Task Unit) fun _ _ => True :=
  Reads.send ho fun _ => Reads.ofExcept fun _ _ => trivial

theorem reads_handle : Reads own Pluralkit.handle fun _ _ => True := by
  refine Reads.send nofun fun guild => ?_
  refine (Reads.ofExcept (Q := fun _ _ => True) fun _ _ => trivial).bind fun own₁ guild _ _ => ?_
  cases guild with
  | none => trivial
  | some guild =>
  refine Reads.send nofun fun deferred => ?_
  refine (Reads.ofExcept (Q := fun _ _ => True) fun _ _ => trivial).bind fun own₂ _ _ _ => ?_
  refine reads_sql.bind fun own₃ settings _ _ => ?_
  cases settings with
  | none => exact reads_answer nofun
  | some settings =>
  refine reads_sql.bind fun own₄ categoryId _ hcategory => ?_
  cases categoryId with
  | none => exact reads_answer nofun
  | some categoryId =>
  refine Reads.send nofun fun reply => ?_
  cases reply with
  | unknown => exact reads_answer nofun
  | error err => trivial
  | ok response =>
  have hread : Reads (⟨.channel categoryId, .ok response⟩ :: own₄) (Prog.ofExcept response)
      fun own category => ReadId own categoryId ∧ ⟨.channel categoryId, .ok (.ok category)⟩ ∈ own := by
    refine Reads.ofExcept ?_
    rintro category rfl
    exact ⟨.inl ⟨guild, List.mem_cons_of_mem _ hcategory⟩, List.mem_cons_self⟩
  refine hread.bind fun own₅ category _ hread => ?_
  split
  · trivial
  have hsystem : Reads own₅ ((Pluralkit.sql (.getSystem settings.systemUuid)).mapError fun err =>
      s!"error fetching system {settings.systemUuid}: {err}") fun _ _ => True :=
    Reads.mapError (reads_sql.mono fun _ _ _ => trivial)
  refine hsystem.bind fun own₆ system hsub₆ _ => ?_
  refine (reads_of_only (only_getSystemFronters other_of_common settings.systemUuid).attempt).bind
    fun own₇ fronters hsub₇ _ => ?_
  rcases fronters with (_ | _ | err) | fronters
  · refine Reads.send nofun fun response => ?_
    refine (Reads.ofExcept (Q := fun _ _ => True) fun _ _ => trivial).bind fun _ _ _ _ => ?_
    exact (reads_of_only (only_updateFrontersTimestamp other_of_common _)).attempt
  · trivial
  · trivial
  · have hupdate : Read own₇ (.updateFronterChannels guild category ((fronters.map (·.members)).getD [])) := by
      rintro _ _ _ ⟨⟩
      exact ⟨categoryId, hread.1.mono (List.Subset.trans hsub₆ hsub₇), hsub₇ (hsub₆ hread.2)⟩
    refine Reads.send hupdate fun response => ?_
    refine (Reads.ofExcept (Q := fun _ _ => True) fun _ _ => trivial).bind fun own₈ _ _ _ => ?_
    have hrecord : Reads own₈ ((updateFronters settings.systemUuid
        (((fronters.map (·.members)).getD []).map (·.uuid))).attempt : Task (Except Error Unit)) fun _ _ => True :=
      Prog.Traced.attempt (reads_of_only (only_updateFronters other_of_common ..))
    refine hrecord.bind fun _ _ _ _ => ?_
    exact reads_answer nofun

end Task

/-! ### Every actor -/

/-- What holds of the calls of any actor: it updates a category that it read, or has created, and it saves one that it
has created and updated. -/
structure CategoryRule (past : History) (o : SetupCall) : Prop where
  update : ∀ guild category members, o = .notify (.other (.updateFronterChannels guild category members)) →
    (∃ name overwrites made, ⟨.createGuildChannel guild name .guildCategory overwrites, .ok (.ok made)⟩ ∈ past ∧
      category = made.toChannel) ∨
    ∃ own : List (Prog.Answered Call.Reply), own.map taskAnswered ⊆ past ∧
      ∃ id, ReadId own id ∧ ⟨.channel id, .ok (.ok category)⟩ ∈ own
  save : ∀ row, o = .save (.saveFronterCategory row) → ∃ name overwrites made members,
    ⟨.createGuildChannel row.guildId name .guildCategory overwrites, .ok (.ok made)⟩ ∈ past ∧
    ⟨.notify (.other (.updateFronterChannels row.guildId made.toChannel members)), .ok ()⟩ ∈ past ∧
    made.id = row.categoryId

section Actor
variable {libraries : Libraries} {past : History} {o : SetupCall}

theorem categoryRule_of_rule (h : Rule libraries past o) : CategoryRule past o where
  update guild category members ho := by
    obtain ⟨botUser, title, made, -, hcreated, rfl⟩ := h.update guild category members ho
    exact .inl ⟨title, _, made, hcreated, rfl⟩
  save row ho := by
    obtain ⟨botUser, members, title, made, -, hcreated, hupdated, hid⟩ := h.save _ ho
    exact ⟨title, _, made, members, hcreated, hupdated, hid⟩

theorem traced_of_reads {p : Task Unit} (h : Reads [] p fun _ _ => True) :
    (task p).Traced CategoryRule (fun _ _ => True) (fun _ _ => True) [] := by
  refine traced_task [] (h.imp fun own o ho => ⟨?_, nofun⟩)
  rintro guild category members ⟨⟩
  exact .inr ⟨own, by simp, ho guild category members rfl⟩

theorem traced_prog (actor : Actor) :
    (actor.prog libraries).Traced CategoryRule (fun _ _ => True) (fun _ _ => True) [] := by
  cases actor with
  | setup command => exact (keeps_handle command).imp fun _ _ => categoryRule_of_rule
  | frontersUpdate => exact traced_of_reads reads_handle
  | frontService ticks => exact traced_of_reads (reads_start (fun _ => reads_frontTick) ticks)
  | systemService ticks => exact traced_of_reads (reads_start (fun _ => reads_systemTick) ticks)

end Actor

/-! ### What stands in `pk_fronters` -/

theorem row_of_notifyWorld {o : NotifyCall} {s t : Database} {r : o.Reply} (h : notifyWorld o s r t)
    {guild : GuildId} {id : ChannelId} (hrow : t.pkFronters.row guild = some id) :
    s.pkFronters.row guild = some id := by
  cases o with
  | other o =>
    by_cases hdelete : o.effect = some (.writes .pkFronters)
    · cases o with
      | sql statement =>
        cases statement with
        | deleteFronterCategory categoryId =>
          cases r with
          | error err =>
            obtain ⟨now, rfl⟩ := h
            exact hrow
          | ok rows =>
            obtain ⟨now, rfl⟩ := h
            exact (Option.filter_eq_some_iff.mp hrow).1
        | _ => cases hdelete
      | _ => cases hdelete
    · have hsame : t.pkFronters = s.pkFronters := world_frame (x := .pkFronters) h hdelete
      rwa [hsame] at hrow
  | sql statement =>
    cases r with
    | error err =>
      obtain ⟨now, rfl⟩ := h
      exact hrow
    | ok rows =>
      obtain ⟨now, h⟩ := h
      cases statement with
      | removeNotifySystem guildId system =>
        obtain rfl : t = _ := h
        exact hrow
      | _ =>
        obtain ⟨-, rfl⟩ : _ ∧ t = _ := h
        exact hrow
  | _ =>
    obtain ⟨now, rfl⟩ := h
    exact hrow

/-- A row comes from a save. -/
theorem row_of_world {o : SetupCall} {s t : Database} {r : o.Reply} (h : setupWorld o s r t) {guild : GuildId}
    {id : ChannelId} (hrow : t.pkFronters.row guild = some id) : s.pkFronters.row guild = some id ∨
      (⟨o, r⟩ : Prog.Answered SetupCall.Reply) = ⟨.save (.saveFronterCategory ⟨guild, id⟩), .ok ()⟩ := by
  cases o with
  | notify o => exact .inl (row_of_notifyWorld h hrow)
  | touch guildId =>
    cases r <;> obtain ⟨now, rfl⟩ := h <;> exact .inl hrow
  | getSystemForGuild guildId =>
    obtain ⟨⟨now, rfl⟩, -⟩ := h
    exact .inl hrow
  | save save =>
    cases r with
    | error err =>
      obtain ⟨now, rfl⟩ := h
      exact .inl hrow
    | ok _ =>
      obtain ⟨now, h⟩ := h
      have htable := (Settings.effect_of_succeeds h).pkFronters
      cases save with
      | saveFronterCategory row =>
        have hsaved : t.pkFronters = Settings.saveFronterCategory.save s.pkFronters row := htable
        rw [hsaved, Upsert.row_save] at hrow
        split at hrow
        next hguild =>
          obtain ⟨guildId, categoryId⟩ := row
          obtain rfl : guildId = guild := hguild
          have hid : Settings.saveFronterCategory.value (s.pkFronters.row guildId) ⟨guildId, categoryId⟩ =
              categoryId := by
            cases s.pkFronters.row guildId <;> rfl
          rw [hid] at hrow
          obtain rfl := Option.some.inj hrow
          exact .inr rfl
        next => exact .inl hrow
      | _ =>
        have hsame : t.pkFronters = s.pkFronters := htable
        exact .inl (hsame ▸ hrow)
  | _ =>
    obtain ⟨now, rfl⟩ := h
    exact .inl hrow

section Run
variable {c c' : Pool ℕ Error SetupCall Database SetupCall.Reply Unit} {run : Run}

theorem row_of_steps (h : Pool.Steps setupWorld c run c') {guild : GuildId} {id : ChannelId}
    (hrow : c'.store.pkFronters.row guild = some id) : c.store.pkFronters.row guild = some id ∨
      ∃ k e, (k, e) ∈ run ∧ answer e = ⟨.save (.saveFronterCategory ⟨guild, id⟩), .ok ()⟩ := by
  induction h with
  | nil c => exact .inl hrow
  | cons hprog hworld hrest ih =>
    rcases ih hrow with hbefore | ⟨k, e, he, hsave⟩
    · refine (row_of_world hworld hbefore).imp_right fun hsave => ?_
      exact ⟨_, _, List.mem_cons_self, hsave⟩
    · exact .inr ⟨k, e, List.mem_cons_of_mem _ he, hsave⟩

theorem mem_history {i : ℕ} {answered : Prog.Answered SetupCall.Reply} :
    answered ∈ Prog.history (ownCalls i run) ↔
      ∃ d, (i, d) ∈ run ∧ answer d = answered := by
  simp [Prog.history, mem_ownCalls, answer]

end Run

/-! ### Nobody is early -/

/-- The setup has updated the channels of the category and then saved it. -/
def Published (run : Run) (i : ℕ) (id : ChannelId) : Prop :=
  ∃ first e rest guild, run = first ++ (i, e) :: rest ∧
    answer e = ⟨.save (.saveFronterCategory ⟨guild, id⟩), .ok ()⟩ ∧
    ∃ d category members, (i, d) ∈ first ∧
      answer d = ⟨.notify (.other (.updateFronterChannels guild category members)), .ok ()⟩ ∧ category.id = id

section Published
variable {libraries : Libraries} {actors : ℕ → Actor} {db : Database} {run pre post : Run} {i j : ℕ}
  {d e : SetupDbCall} {id : ChannelId}

theorem Published.mono (h : Published pre i id) : Published (pre ++ post) i id := by
  obtain ⟨first, e, rest, guild, rfl, hrest⟩ := h
  exact ⟨first, e, rest ++ post, guild, by simp, hrest⟩

theorem Runs.rule (h : Runs libraries actors db run) (hrun : run = pre ++ (j, d) :: post) :
    CategoryRule (Prog.history (ownCalls j pre)) d.op := by
  subst hrun
  obtain ⟨rest, hsteps⟩ := h
  exact hsteps.traced (traced_prog (actors j))

/-- Who saves a category has created and updated it. -/
theorem Runs.published_of_save (h : Runs libraries actors db run) (hfaithful : Faithful db run) (hi : (i, e) ∈ run)
    (hcreates : created (answer e) = some id) (hrun : run = pre ++ (j, d) :: post) {guild : GuildId}
    (hsave : answer d = ⟨.save (.saveFronterCategory ⟨guild, id⟩), .ok ()⟩) :
    Published (pre ++ [(j, d)]) i id := by
  have hrule := (h.rule hrun).save ⟨guild, id⟩ (congrArg Sigma.fst hsave)
  obtain ⟨name, overwrites, made, members, hcreated, hupdated, hid⟩ := hrule
  obtain ⟨u, hu, hcreation⟩ := mem_history.mp hcreated
  obtain ⟨v, hv, hupdate⟩ := mem_history.mp hupdated
  have hmem : (j, u) ∈ run := hrun ▸ List.mem_append_left _ hu
  have hnew : created (answer u) = some id := by
    rw [hcreation]
    exact congrArg some hid
  obtain rfl : i = j := hfaithful.distinct i j e u id hi hmem hcreates hnew
  exact ⟨pre, d, [], guild, rfl, hsave, v, made.toChannel, members, hv, hupdate, hid⟩

/-- Whoever finds the category in `pk_fronters` finds it published. -/
theorem Runs.published_of_row (h : Runs libraries actors db run) (hfaithful : Faithful db run) (hi : (i, e) ∈ run)
    (hcreates : created (answer e) = some id) (hrun : run = pre ++ (j, d) :: post) {guild : GuildId}
    (hrow : d.before.pkFronters.row guild = some id) : Published pre i id := by
  obtain ⟨rest, hsteps⟩ := h
  rw [hrun] at hsteps
  obtain ⟨mid, hpre, hpost⟩ := hsteps.split
  have hmid : mid.store = d.before := by
    cases hpost with
    | cons hprog hworld hrest => rfl
  rw [← hmid] at hrow
  rcases row_of_steps hpre hrow with hinitial | ⟨k, f, hf, hsave⟩
  · exact absurd hinitial (hfaithful.unsaved i e id hi hcreates guild)
  · obtain ⟨first, later, rfl⟩ := List.append_of_mem hf
    have hsaved : run = first ++ (k, f) :: (later ++ (j, d) :: post) := by simp [hrun]
    have hpublished := Runs.published_of_save ⟨rest, hrun ▸ hsteps⟩ hfaithful hi hcreates hsaved hsave
    have hlater : Published ((first ++ [(k, f)]) ++ later) i id := hpublished.mono
    simpa using hlater

/-- What an actor read of the categories, it read from a row. -/
theorem Runs.row_of_read (h : Runs libraries actors db run) (hrun : run = pre ++ (j, d) :: post)
    {own : List (Prog.Answered Call.Reply)} (hown : own.map taskAnswered ⊆ Prog.history (ownCalls j pre))
    (hread : ReadId own id) :
    ∃ first f rest guild, pre = first ++ (j, f) :: rest ∧ f.before.pkFronters.row guild = some id := by
  obtain ⟨rest, hsteps⟩ := h
  have hanswered : ∀ answered ∈ own, ∃ first f rest, pre = first ++ (j, f) :: rest ∧
      answer f = taskAnswered answered ∧
      setupWorld f.op f.before f.reply f.after := by
    intro answered hanswered
    obtain ⟨f, hf, heq⟩ := mem_history.mp (hown (List.mem_map_of_mem hanswered))
    obtain ⟨first, later, hsplit⟩ := List.append_of_mem hf
    exact ⟨first, f, later, hsplit, heq, hsteps.answered _ (hrun ▸ List.mem_append_left _ hf)⟩
  rcases hread with ⟨guild, hmem⟩ | ⟨system, rows, hmem, row, hrow, rfl⟩
  · obtain ⟨first, ⟨o, r, s, t⟩, later, hsplit, heq, hworld⟩ := hanswered _ hmem
    cases heq
    obtain ⟨now, hfound, -⟩ := hworld
    exact ⟨first, _, later, guild, hsplit, hfound.symm⟩
  · obtain ⟨first, ⟨o, r, s, t⟩, later, hsplit, heq, hworld⟩ := hanswered _ hmem
    cases heq
    obtain ⟨now, ⟨-, hfound⟩, -⟩ := hworld
    exact ⟨first, _, later, row.guildId, hsplit, ((hfound row).mp hrow).1⟩

end Published

/-- Whoever else updates the channels of a new category does so after its setup has updated and saved it. -/
theorem updates_wait_for_setup (libraries : Libraries) (actors : ℕ → Actor) {db : Database} {run pre post : Run}
    (h : Runs libraries actors db run) (hfaithful : Faithful db run) {i j : ℕ} {d e : SetupDbCall}
    (hrun : run = pre ++ (j, d) :: post) {guild : GuildId} {category : Channel} {members : List Member}
    (hupdate : d.op = .notify (.other (.updateFronterChannels guild category members))) (hi : (i, e) ∈ run)
    (hcreates : created (answer e) = some category.id) (hne : j ≠ i) : Published pre i category.id := by
  rcases (h.rule hrun).update guild category members hupdate with
    ⟨name, overwrites, made, hcreated, rfl⟩ | ⟨own, hown, id, hread, hchannel⟩
  · -- it is a new category of its own
    obtain ⟨u, hu, hcreation⟩ := mem_history.mp hcreated
    have hmem : (j, u) ∈ run := hrun ▸ List.mem_append_left _ hu
    have hnew : created (answer u) = some made.toChannel.id := by
      rw [hcreation]
      rfl
    exact absurd (hfaithful.distinct j i u e _ hmem hi hnew hcreates) hne
  · obtain ⟨u, hu, heq⟩ := mem_history.mp (hown (List.mem_map_of_mem hchannel))
    have hmem : (j, u) ∈ run := hrun ▸ List.mem_append_left _ hu
    obtain rfl : category.id = id := by
      have hnamed := hfaithful.named _ hmem
      rwa [heq] at hnamed
    obtain ⟨first, f, rest, guild', rfl, hrow⟩ := h.row_of_read hrun hown hread
    have hfound : run = first ++ (j, f) :: (rest ++ (j, d) :: post) := by simp [hrun]
    exact (h.published_of_row hfaithful hi hcreates hfound hrow).mono

open Settings (settingsGuild firstAdmin beforeSetup)

/-- The guild is set up, and has no category. -/
def withoutCategory : Database :=
  { beforeSetup with pkGuilds := Table.empty.upsert settingsGuild ⟨firstAdmin, Settings.storedSystem.uuid⟩ }

def newCategory : GuildChannel := ⟨⟨⟨234, by decide⟩, some settingsGuild⟩, .guildCategory, some "Fronters", none⟩

def withCategory : Database :=
  { withoutCategory with pkFronters :=
      Settings.saveFronterCategory.save withoutCategory.pkFronters ⟨settingsGuild, newCategory.id⟩ }

/-- A call that leaves the database as it is. -/
def looked (db : Database) (o : SetupCall) (r : o.Reply) : SetupDbCall := ⟨o, r, db, db⟩

def everyone : Setup.Role := ⟨everyoneRoleId settingsGuild, requiredCategoryPermissions⟩

def setupCalls : List SetupDbCall :=
  [looked withoutCategory (.notify (.other .ctxGuild)) (.ok (some settingsGuild)),
    looked withoutCategory (.notify (.other .deferEphemeral)) (.ok ()),
    looked withoutCategory (.notify (.other (.sql (.getGuildSettingsForId settingsGuild))))
      (.ok (some ⟨firstAdmin, Settings.storedSystem.uuid⟩)),
    looked withoutCategory .currentUser (.ok (.ok plainBot)),
    looked withoutCategory (.cachedRole everyone.id) (.ok (some everyone)),
    looked withoutCategory (.cachedMember settingsGuild plainBot) (.ok (some [])),
    looked withoutCategory (.notify (.other (.sql (.getFronterCategory settingsGuild)))) (.ok none),
    looked withoutCategory (.notify (.other (.sql (.getSystem Settings.storedSystem.uuid))))
      (.ok (some Settings.storedSystem)),
    looked withoutCategory (.notify (.other (.pkGetSystemFronters Settings.storedSystem.uuid))) (.ok none),
    looked withoutCategory (.notify (.getArgString "title")) (.ok "Fronters"),
    looked withoutCategory (.createGuildChannel settingsGuild "Fronters" .guildCategory
      (categoryOverwrites settingsGuild plainBot)) (.ok (.ok newCategory)),
    looked withoutCategory (.notify (.other (.updateFronterChannels settingsGuild newCategory.toChannel []))) (.ok ()),
    ⟨.save (.saveFronterCategory ⟨settingsGuild, newCategory.id⟩), .ok (), withoutCategory, withCategory⟩,
    looked withCategory (.notify (.other (.respondSuccess "Fronter category succesfully set-up!"))) (.ok ())]

/-- `/pk fronters update`, up to the call that updates the category. -/
def updateCalls : List SetupDbCall :=
  [looked withCategory (.notify (.other .ctxGuild)) (.ok (some settingsGuild)),
    looked withCategory (.notify (.other .deferEphemeral)) (.ok ()),
    looked withCategory (.notify (.other (.sql (.getGuildSettingsForId settingsGuild))))
      (.ok (some ⟨firstAdmin, Settings.storedSystem.uuid⟩)),
    looked withCategory (.notify (.other (.sql (.getFronterCategory settingsGuild)))) (.ok (some newCategory.id)),
    looked withCategory (.notify (.other (.channel newCategory.id))) (.ok (.ok newCategory.toChannel)),
    looked withCategory (.notify (.other (.sql (.getSystem Settings.storedSystem.uuid))))
      (.ok (some Settings.storedSystem)),
    looked withCategory (.notify (.other (.pkGetSystemFronters Settings.storedSystem.uuid))) (.ok none)]

def updateCall : SetupDbCall :=
  looked withCategory (.notify (.other (.updateFronterChannels settingsGuild newCategory.toChannel []))) (.ok ())

def lastCalls : List SetupDbCall :=
  [looked withCategory (.notify (.other .utcNow)) 0,
    looked withCategory (.notify (.other (.sql (.updateFronters Settings.storedSystem.uuid [] 0))))
      (.error "timed out"),
    looked withCategory (.notify (.other (.respondSuccess "Fronter category updated!"))) (.ok ())]

theorem runs_setup : ((Actor.setup .frontersSetup).prog plainLibraries).Runs setupWorld Eq withoutCategory setupCalls
    (.ok ()) withCategory := by
  refine .call rfl ⟨0, rfl⟩ (.call rfl ⟨0, rfl⟩ (.call rfl ⟨0, rfl, rfl⟩ (.call rfl ⟨0, rfl⟩ ?_)))
  refine .call rfl ⟨0, rfl⟩ (.call rfl ⟨0, rfl⟩ (.call rfl ⟨0, rfl, rfl⟩ (.call rfl ⟨0, rfl, rfl⟩ ?_)))
  refine .call rfl ⟨0, rfl⟩ (.call rfl ⟨0, rfl⟩ (.call rfl ⟨0, rfl⟩ (.call rfl ⟨0, rfl⟩ ?_)))
  refine .call rfl ⟨0, by decide, rfl⟩ (.call rfl ⟨0, rfl⟩ ?_)
  exact .pure ..

theorem runs_update : (Actor.frontersUpdate.prog plainLibraries).Runs setupWorld Eq withCategory
    (updateCalls ++ updateCall :: lastCalls) (.ok ()) withCategory := by
  refine .call rfl ⟨0, rfl⟩ (.call rfl ⟨0, rfl⟩ (.call rfl ⟨0, rfl, rfl⟩ (.call rfl ⟨0, rfl, rfl⟩ ?_)))
  refine .call rfl ⟨0, rfl⟩ (.call rfl ⟨0, rfl, rfl⟩ (.call rfl ⟨0, rfl⟩ (.call rfl ⟨0, rfl⟩ ?_)))
  refine .call rfl ⟨0, rfl⟩ (.call rfl ⟨0, rfl⟩ (.call rfl ⟨0, rfl⟩ ?_))
  exact .pure ..

def raceActors : ℕ → Actor
  | 0 => .setup .frontersSetup
  | _ => .frontersUpdate

def race (calls : List SetupDbCall) : Run := setupCalls.map (fun d => (0, d)) ++ calls.map fun d => (1, d)

def wholeRace : Run := race (updateCalls ++ updateCall :: lastCalls)

theorem runs_race : Runs plainLibraries raceActors withoutCategory wholeRace := by
  have hsetup : Pool.Steps setupWorld ⟨fun i => (raceActors i).prog plainLibraries, withoutCategory⟩
      (setupCalls.map fun d => (0, d)) _ := Pool.Steps.of_runs runs_setup rfl
  exact ⟨_, hsetup.append (Pool.Steps.of_runs runs_update rfl)⟩

theorem faithful_race : Faithful withoutCategory wholeRace := by
  have hcreated : wholeRace.filterMap (fun c => (created (answer c.2)).map fun id => (c.1, id)) =
      [(0, newCategory.id)] := rfl
  have hnew : ∀ i d id, (i, d) ∈ wholeRace → created (answer d) = some id → (i, id) = (0, newCategory.id) := by
    intro i d id hmem hid
    rw [← List.mem_singleton, ← hcreated]
    exact List.mem_filterMap.mpr ⟨(i, d), hmem, by simp [hid]⟩
  refine ⟨fun i d id _ _ guild => nofun, fun i j d e id hi hj hd he => ?_, ?_⟩
  · exact (congrArg Prod.fst (hnew i d id hi hd)).trans (congrArg Prod.fst (hnew j e id hj he)).symm
  · simp only [wholeRace, race, setupCalls, updateCalls, lastCalls, List.map_cons, List.map_nil,
      List.cons_append, List.nil_append, List.forall_mem_cons]
    simp [Named, answer, looked, updateCall]

theorem updates_wait_for_setup_of_race : Published (race updateCalls) 0 newCategory.id := by
  have hrun : wholeRace = race updateCalls ++ (1, updateCall) :: lastCalls.map fun d => (1, d) := rfl
  have hcreation : (0, looked withoutCategory (.createGuildChannel settingsGuild "Fronters" .guildCategory
      (categoryOverwrites settingsGuild plainBot)) (.ok (.ok newCategory))) ∈ wholeRace := by
    simp [wholeRace, race, setupCalls]
  exact updates_wait_for_setup plainLibraries raceActors runs_race faithful_race hrun rfl hcreation rfl (by decide)

end Tulpje.Pluralkit.CategoryRace
