import Tulpje.Core.Handlers

/-!
# What the cleanup task deletes

`delete_removed_guilds` selects the guilds that were left more than a week ago and deletes them one by one, while
other tasks run. `marks` says what a statement does to `deleted_at`; `spares_present_iff` compares what is deleted
with the last such statement between the `SELECT` and the `DELETE`.
-/

namespace Tulpje.Core

open Lib Framework
open Pluralkit (Error GuildId Time)

variable {F : Funcs}

/-! ### Who is in the guild -/

theorem guilds_of_pluralkit {statement : Pluralkit.Statement} {s t : Pluralkit.Database} {r : statement.Reply}
    (h : statement.Answers s r t) : t.guilds = s.guilds := by
  cases statement with
  | updateSystem | updateFronters | updateFrontersTimestamp | deleteFronterCategory | deleteNotifyChannel
  | deleteNotifySystems | removeNotifySystemFromGuilds =>
    obtain rfl : t = _ := h
    rfl
  | _ =>
    obtain ⟨-, rfl⟩ : _ ∧ t = _ := h
    rfl

/-- Whether a call that was answered leaves `deleted_at` of the guild `NULL`, or sets it. -/
def marks (guildId : GuildId) : (o : Call F) → o.Reply → Option Bool
  | .sql (.touch other), .ok _ => if other = guildId then some true else none
  | .sql (.leaveGuild other), .ok _ | .sql (.deleteGuild other), .ok _ =>
    if other = guildId then some false else none
  | _, _ => none

/-- The last mark among the calls. -/
def lastMark (guildId : GuildId) (calls : List (DbCall F)) : Option Bool :=
  calls.foldl (fun last d => (marks guildId d.op d.reply).or last) none

theorem foldl_marks (guildId : GuildId) (calls : List (DbCall F)) (b : Bool) :
    calls.foldl (fun b d => (marks guildId d.op d.reply).getD b) b = (lastMark guildId calls).getD b := by
  show calls.foldl _ ((none : Option Bool).getD b) = _
  refine List.foldl_hom (fun last : Option Bool => last.getD b) fun last d => ?_
  cases marks guildId d.op d.reply <;> rfl

section Present
variable {db : Database} {guildId other : GuildId}

theorem present_touch : (db.touch other).present guildId = if other = guildId then true else db.present guildId := by
  by_cases h : other = guildId
  · subst h
    cases hrow : db.guilds.row other <;> simp [Database.touch, Pluralkit.Database.present, hrow]
  · simp [Database.touch, Pluralkit.Database.present, Table.row_upsert_of_ne _ (Ne.symm h), h]

theorem present_leaveGuild :
    (db.leaveGuild other).present guildId = if other = guildId then false else db.present guildId := by
  by_cases h : other = guildId
  · subst h
    cases hrow : db.guilds.row other <;> simp [Database.leaveGuild, Pluralkit.Database.present, hrow]
  · cases hrow : db.guilds.row other <;>
      simp [Database.leaveGuild, Pluralkit.Database.present, hrow, Table.row_upsert_of_ne _ (Ne.symm h), h]

theorem present_deleteGuild :
    (db.deleteGuild other).present guildId = if other = guildId then false else db.present guildId := by
  by_cases h : other = guildId
  · subst h
    simp [Database.deleteGuild, Pluralkit.Database.present]
  · simp [Database.deleteGuild, Pluralkit.Database.present, Table.row_delete_of_ne _ (Ne.symm h), h]

theorem present_world {o : Call F} {s t : Database} {r : o.Reply} (h : world o s r t) :
    t.present guildId = (marks guildId o r).getD (s.present guildId) := by
  cases o with
  | sql statement =>
    cases r with
    | error err =>
      obtain ⟨now, rfl⟩ := h
      cases statement <;> rfl
    | ok rows =>
      obtain ⟨now, h⟩ := h
      cases statement with
      | touch other =>
        obtain rfl : t = _ := h
        rw [present_touch, marks]
        split_ifs <;> rfl
      | leaveGuild other =>
        obtain rfl : t = _ := h
        rw [present_leaveGuild, marks]
        split_ifs <;> rfl
      | deleteGuild other =>
        obtain ⟨-, rfl⟩ : _ ∧ t = _ := h
        rw [present_deleteGuild, marks]
        split_ifs <;> rfl
      | enableModule other module =>
        obtain ⟨-, rfl⟩ : _ ∧ t = _ := h
        unfold Database.enableModule
        split <;> rfl
      | disableModule other module =>
        obtain rfl : t = _ := h
        rfl
      | pluralkit statement =>
        show (t.guilds.row guildId).any _ = _
        rw [guilds_of_pluralkit h.1]
        rfl
      | guildModules | guildsEligibleForDeletion =>
        obtain ⟨-, rfl⟩ : _ ∧ t = _ := h
        rfl
  | _ =>
    obtain ⟨now, rfl⟩ := h
    rfl

end Present

/-! ### The cleanup task -/

/-- No guild is deleted, or one of these. -/
def DeletesOnly (guilds : List GuildId) (o : Call F) : Prop :=
  ∀ guildId, o = .sql (.deleteGuild guildId) → guildId ∈ guilds

theorem all_sql {P : Call F → Prop} {E : Error → Prop} {statement : Statement} (h : P (.sql statement))
    (hE : ∀ e, E e) : (sql statement).All P E :=
  (Prog.All.send h).bind fun r => (Prog.All.ofExcept r).mono (fun _ => id) fun e _ => hE e

theorem all_deleteGuilds (guilds : List (GuildId × Time)) :
    (deleteGuilds guilds : Task F Unit).All (DeletesOnly (guilds.map Prod.fst)) fun _ => False := by
  refine Prog.All.forM fun guild hguild => ?_
  have hdelete : DeletesOnly (guilds.map Prod.fst) (.sql (.deleteGuild guild.1) : Call F) := by
    rintro guildId heq
    cases heq
    exact List.mem_map_of_mem hguild
  have hrun : (deleteGuild guild.1 : Task F Unit).All (DeletesOnly (guilds.map Prod.fst)) fun _ => True :=
    (all_sql hdelete fun _ => trivial).bind fun _ => trivial
  exact hrun.attempt.bind fun _ => trivial

/-- The `SELECT` that has the guild. -/
def Selects (guildId : GuildId) : (o : Call F) → o.Reply → Prop
  | .sql .guildsEligibleForDeletion, .ok guilds => guildId ∈ guilds.map Prod.fst
  | _, _ => False

theorem Selects.exists_eq {guildId : GuildId} {d : DbCall F} (h : Selects guildId d.op d.reply) :
    ∃ guilds s t, d = ⟨.sql .guildsEligibleForDeletion, .ok guilds, s, t⟩ ∧ guildId ∈ guilds.map Prod.fst := by
  obtain ⟨o, r, s, t⟩ := d
  cases o with
  | sql statement =>
    cases statement with
    | guildsEligibleForDeletion =>
      cases r with
      | ok guilds => exact ⟨guilds, s, t, rfl, h⟩
      | error err => exact h.elim
    | _ => exact h.elim
  | _ => exact h.elim

/-- A guild is deleted only if it was selected. -/
theorem after_deleteRemovedGuilds (guildId : GuildId) : (deleteRemovedGuilds : Task F Unit).After
    (Selects guildId) fun o => o = .sql (.deleteGuild guildId) := by
  refine Prog.After.call nofun fun guilds => ?_
  cases guilds with
  | error err => exact .inr trivial
  | ok guilds =>
    by_cases hguild : guildId ∈ guilds.map Prod.fst
    · exact .inl hguild
    · exact .inr (.of_all ((all_deleteGuilds guilds).mono (fun o ho heq => hguild (ho guildId heq)) fun _ => id))

/-- The cleanup task, or one that deletes no guild. -/
def Scheduled (p : Task F Unit) : Prop := p = deleteRemovedGuilds ∨ p.All (DeletesOnly []) fun _ => True

theorem scheduled_touch (guildId : GuildId) : Scheduled (touch guildId : Task F Unit) :=
  .inr (all_sql nofun fun _ => trivial)

theorem all_setGuildCommands (guildId : GuildId) (commands : List (CommandBuilder F)) :
    (do Prog.ofExcept (← send (.setGuildCommands guildId commands)) : Task F Unit).All (DeletesOnly [])
      fun _ => True :=
  (Prog.All.send nofun).bind fun _ => Prog.All.ofExcept _

theorem scheduled_guildCreate (registry : Registry F) (guildId : GuildId) :
    Scheduled (guildCreate registry guildId) := by
  refine .inr ((all_sql nofun fun _ => trivial).bind fun _ => (all_sql nofun fun _ => trivial).bind fun modules => ?_)
  dsimp only
  split_ifs
  · trivial
  · exact all_setGuildCommands guildId _

theorem scheduled_guildDelete (guildId : GuildId) (unavailable : Option Bool) :
    Scheduled (guildDelete guildId unavailable : Task F Unit) := by
  refine .inr ?_
  unfold guildDelete
  split_ifs
  · trivial
  · exact all_sql nofun fun _ => trivial

theorem scheduled_switchModule (registry : Registry F) (answer : String) {change : GuildId → String → Task F Unit}
    (hchange : ∀ guildId module, (change guildId module).All (DeletesOnly []) fun _ => True) :
    Scheduled (switchModule registry change answer) := by
  refine .inr ((Prog.All.send nofun).bind fun guild => (Prog.All.ofExcept guild).bind fun guild => ?_)
  cases guild with
  | none => trivial
  | some guildId =>
    refine (Prog.All.send nofun).bind fun arg => (Prog.All.ofExcept arg).bind fun module => ?_
    have hreply : ∀ message, (do Prog.ofExcept (← send (.reply message)) : Task F Unit).All (DeletesOnly [])
        fun _ => True := fun message => (Prog.All.send nofun).bind fun _ => Prog.All.ofExcept _
    split_ifs
    · refine (hchange guildId module).bind fun _ => (all_sql nofun fun _ => trivial).bind fun modules => ?_
      exact (all_setGuildCommands guildId _).bind fun _ => hreply _
    · exact hreply _

theorem scheduled_enable (registry : Registry F) : Scheduled (enable registry) :=
  scheduled_switchModule registry "enabled" fun _ _ =>
    (all_sql nofun fun _ => trivial).bind fun _ => all_sql nofun fun _ => trivial

theorem scheduled_disable (registry : Registry F) : Scheduled (disable registry) :=
  scheduled_switchModule registry "disabled" fun _ _ => all_sql nofun fun _ => trivial

variable {ι : Type} [DecidableEq ι]

/-- Between its `SELECT` and a `DELETE` of a task, the guild was not touched, or was left or deleted after that. -/
def NotRevived (calls : List (ι × DbCall F)) : Prop :=
  ∀ i guildId pre rows s t mid deleted s' t' post,
    calls = pre ++ (i, ⟨.sql .guildsEligibleForDeletion, rows, s, t⟩) :: mid ++
        (i, ⟨.sql (.deleteGuild guildId), .ok deleted, s', t'⟩) :: post →
      lastMark guildId (mid.map Prod.snd) ≠ some true

/-- No guild is deleted whose `deleted_at` is `NULL`. -/
def SparesPresent (calls : List (ι × DbCall F)) : Prop :=
  ∀ i guildId deleted s t, (i, ⟨.sql (.deleteGuild guildId), .ok deleted, s, t⟩) ∈ calls → s.present guildId = false

theorem present_steps {c c' : Pool ι Error (Call F) Database Call.Reply Unit} {calls : List (ι × DbCall F)}
    (h : Pool.Steps world c calls c') (guildId : GuildId) :
    c'.store.present guildId = (lastMark guildId (calls.map Prod.snd)).getD (c.store.present guildId) := by
  rw [← foldl_marks, List.foldl_map]
  exact h.view_eq (fun db => db.present guildId) (fun b d => (marks guildId d.op d.reply).getD b)
    fun _ _ _ _ => present_world

/-- A guild that the `SELECT` has was left. -/
theorem present_of_selects {guilds : List (GuildId × Time)} {s t : Database}
    (h : world (.sql .guildsEligibleForDeletion : Call F) s (.ok guilds) t) {guildId : GuildId}
    (hselected : guildId ∈ guilds.map Prod.fst) : t.present guildId = false := by
  obtain ⟨⟨guildId, deletedAt⟩, hmem, rfl⟩ := List.mem_map.mp hselected
  obtain ⟨now, ⟨-, hrows⟩, rfl⟩ := h
  obtain ⟨row, hrow, hdeleted⟩ := Option.bind_eq_some_iff.mp ((hrows guildId deletedAt).mp hmem).1
  have hguild : s.guilds.row guildId = some row := hrow
  simp [Pluralkit.Database.present, hguild, hdeleted]

/-- In any interleaving the guilds that are in are spared exactly if none was revived between the `SELECT` and
its `DELETE`. -/
theorem spares_present_iff {c c' : Pool ι Error (Call F) Database Call.Reply Unit} {calls : List (ι × DbCall F)}
    (hprogs : ∀ i, Scheduled (c.progs i)) (h : Pool.Steps world c calls c') :
    SparesPresent calls ↔ NotRevived calls := by
  constructor
  · rintro hspares i guildId pre rows s t mid deleted s' t' post rfl hmark
    obtain ⟨c₁, hpre, hdelete⟩ := h.split
    obtain ⟨c₂, -, hmid⟩ := hpre.split
    have hgone := hspares i guildId deleted s' t' (List.mem_append_right _ List.mem_cons_self)
    cases hmid with
    | cons hprog hworld hmid =>
      cases hdelete with
      | cons hprog' hworld' hpost =>
        have hpresent := present_steps hmid guildId
        rw [hmark, hgone] at hpresent
        cases hpresent
  · intro hnot i guildId deleted s' t' hmem
    obtain ⟨pre, post, rfl⟩ := List.append_of_mem hmem
    rcases hprogs i with hcleanup | hother
    · -- it was selected, so it had been left at that time
      have hafter : (c.progs i).After (Selects guildId) fun o => o = .sql (.deleteGuild guildId) :=
        hcleanup ▸ after_deleteRemovedGuilds guildId
      obtain ⟨first, e, mid, rfl, hselects⟩ := h.after hafter rfl
      obtain ⟨guilds, s, t, rfl, hselected⟩ := hselects.exists_eq
      have hmark : lastMark guildId (mid.map Prod.snd) ≠ some true :=
        hnot i guildId first _ s t mid deleted s' t' post rfl
      obtain ⟨c₁, hpre, hdelete⟩ := h.split
      obtain ⟨c₂, -, hmid⟩ := hpre.split
      cases hmid with
      | cons hprog hworld hmid =>
        cases hdelete with
        | cons hprog' hworld' hpost =>
          have hpresent := present_steps hmid guildId
          rw [present_of_selects hworld hselected] at hpresent
          rw [hpresent]
          cases hlast : lastMark guildId (mid.map Prod.snd) with
          | none => rfl
          | some b =>
            cases b with
            | false => rfl
            | true => exact absurd hlast hmark
    · exact absurd (h.all hother _ hmem rfl guildId rfl) List.not_mem_nil

def exampleGuild : GuildId := ⟨101, by decide⟩

/-- The bot left the guild eight days ago. -/
def leftDatabase : Database :=
  { Database.empty with
    now := 8 * 24 * Pluralkit.hour
    guilds := Table.empty.upsert exampleGuild ⟨0, 0, some 0⟩
    guildModules := Table.empty.upsert exampleGuild "emoji" }

/-- The cleanup task, and one that touches the guild. -/
def cleanupAndTouch : Pool Bool Error (Call Named) Database Call.Reply Unit where
  progs
    | false => deleteRemovedGuilds
    | true => touch exampleGuild
  store := leftDatabase

/-- The bot is back after the `SELECT`. -/
def revivedCalls : List (Bool × DbCall Named) :=
  [(false, ⟨.sql .guildsEligibleForDeletion, .ok [(exampleGuild, 0)], leftDatabase, leftDatabase⟩),
    (true, ⟨.sql (.touch exampleGuild), .ok (), leftDatabase, leftDatabase.touch exampleGuild⟩),
    (false, ⟨.sql (.deleteGuild exampleGuild), .ok true, leftDatabase.touch exampleGuild,
      (leftDatabase.touch exampleGuild).deleteGuild exampleGuild⟩)]

theorem scheduled_cleanupAndTouch : ∀ i, Scheduled (cleanupAndTouch.progs i)
  | false => .inl rfl
  | true => scheduled_touch exampleGuild

theorem answers_leftDatabase :
    Statement.Answers .guildsEligibleForDeletion leftDatabase [(exampleGuild, 0)] leftDatabase := by
  refine ⟨⟨List.nodup_singleton _, fun guildId deletedAt => ?_⟩, rfl⟩
  have hold : (0 : Time) < leftDatabase.now - week := by decide
  rw [List.mem_singleton, Prod.mk.injEq]
  by_cases hguild : guildId = exampleGuild
  · subst hguild
    have hrow : (leftDatabase.guilds.row exampleGuild).bind (·.deletedAt) = some 0 := rfl
    rw [hrow, Option.some_inj]
    exact ⟨fun ⟨_, heq⟩ => ⟨heq.symm, heq ▸ hold⟩, fun ⟨heq, _⟩ => ⟨rfl, heq.symm⟩⟩
  · have hrow : leftDatabase.guilds.row guildId = none := Table.row_upsert_of_ne _ hguild _
    rw [hrow]
    exact ⟨fun h => absurd h.1 hguild, nofun⟩

theorem steps_revivedCalls : ∃ c', Pool.Steps world cleanupAndTouch revivedCalls c' ∧
    c'.store.Forgotten exampleGuild :=
  ⟨_, .cons rfl ⟨leftDatabase.now, answers_leftDatabase⟩ (.cons rfl ⟨leftDatabase.now, rfl⟩
    (.cons rfl ⟨leftDatabase.now, rfl, rfl⟩ (.nil _))), Database.deleteGuild_forgets _ _⟩

/-- The guild that has just invited the bot back is deleted with its settings. -/
theorem deletes_revived_guild : (∀ i, Scheduled (cleanupAndTouch.progs i)) ∧
    (∃ c', Pool.Steps world cleanupAndTouch revivedCalls c' ∧ c'.store.Forgotten exampleGuild) ∧
      ¬ SparesPresent revivedCalls := by
  refine ⟨scheduled_cleanupAndTouch, steps_revivedCalls, fun h => ?_⟩
  have hgone := h false exampleGuild true _ _ (List.mem_cons_of_mem _ (List.mem_cons_of_mem _ List.mem_cons_self))
  rw [present_touch, if_pos rfl] at hgone
  cases hgone

theorem spares_present_iff_example : SparesPresent revivedCalls ↔ NotRevived revivedCalls := by
  obtain ⟨c', hsteps, -⟩ := steps_revivedCalls
  exact spares_present_iff scheduled_cleanupAndTouch hsteps

end Tulpje.Core
