import Tulpje.Core.GuildModules
import Tulpje.Lib.Publication

/-!
# The commands that Discord has for a guild

`enable`, `disable` and `guild_create` read the modules of a guild and register their commands with Discord, each of
them in its own time. `commands_follow_modules` says when the commands that were registered last are those of the
modules in the database.
-/

namespace Tulpje.Core

open Lib Framework
open Pluralkit (Error GuildId Time)

variable {F : Funcs}

/-- What `build` registers in the module, but for the list of modules. -/
inductive Handler
  | enable
  | disable
  | guildCreate (guildId : GuildId)
  | guildDelete (guildId : GuildId) (unavailable : Option Bool)
  | deleteRemovedGuilds

def Handler.run (registry : Registry F) : Handler → Task F Unit
  | enable => Core.enable registry
  | disable => Core.disable registry
  | guildCreate guildId => Core.guildCreate registry guildId
  | guildDelete guildId unavailable => Core.guildDelete guildId unavailable
  | deleteRemovedGuilds => Core.deleteRemovedGuilds

/-- The call changed the modules of the guild. -/
def ChangesModules (guildId : GuildId) : (o : Call F) → o.Reply → Prop
  | .sql (.enableModule other _), .ok _ | .sql (.disableModule other _), .ok _ | .sql (.deleteGuild other), .ok _ =>
    other = guildId
  | _, _ => False

def modulesRead (guildId : GuildId) : (o : Call F) → o.Reply → Option (List String)
  | .sql (.guildModules other), .ok modules => if other = guildId then some modules else none
  | _, _ => none

/-- What Discord accepted. -/
def commandsSet (guildId : GuildId) : (o : Call F) → o.Reply → Option (List (CommandBuilder F))
  | .setGuildCommands other commands, .ok _ => if other = guildId then some commands else none
  | _, _ => none

/-- The commands of a guild are published, as made from its modules. -/
def commandsOfGuild (registry : Registry F) (guildId : GuildId) :
    Publication (Call.Reply (F := F)) Database (List String) (List (CommandBuilder F)) where
  view db := db.modulesOf guildId
  publish := commandsOf registry
  changes answered := ChangesModules guildId answered.1 answered.2
  read answered := modulesRead guildId answered.1 answered.2
  published answered := commandsSet guildId answered.1 answered.2

section Lawful
variable {guildId : GuildId}

/-- Only the changes touch the row of the guild. -/
theorem guildModules_world {o : Call F} {s t : Database} {r : o.Reply} (h : world o s r t)
    (hkeeps : ¬ ChangesModules guildId o r) : t.guildModules.row guildId = s.guildModules.row guildId := by
  cases o with
  | sql statement =>
    cases r with
    | error err =>
      obtain ⟨now, rfl⟩ := h
      rfl
    | ok rows =>
      obtain ⟨now, h⟩ := h
      cases statement with
      | touch other =>
        obtain rfl : t = _ := h
        rfl
      | leaveGuild other =>
        obtain rfl : t = _ := h
        unfold Database.leaveGuild
        split <;> rfl
      | deleteGuild other =>
        obtain ⟨-, rfl⟩ : _ ∧ t = _ := h
        exact Table.row_delete_of_ne _ (Ne.symm hkeeps)
      | enableModule other module =>
        obtain ⟨-, rfl⟩ : _ ∧ t = _ := h
        exact row_run _ (.enable other module) (Ne.symm hkeeps)
      | disableModule other module =>
        obtain rfl : t = _ := h
        exact row_run _ (.disable other module) (Ne.symm hkeeps)
      | pluralkit statement => exact congrArg (·.row guildId) h.2
      | guildModules | guildsEligibleForDeletion =>
        obtain ⟨-, rfl⟩ : _ ∧ t = _ := h
        rfl
  | _ =>
    obtain ⟨now, rfl⟩ := h
    rfl

theorem modulesOf_of_read {o : Call F} {s t : Database} {r : o.Reply} {modules : List String} (h : world o s r t)
    (hread : modulesRead guildId o r = some modules) : modules = t.modulesOf guildId := by
  unfold modulesRead at hread
  split at hread
  next other rows =>
    obtain ⟨now, rfl, rfl⟩ := h
    split at hread
    next hguild =>
      obtain rfl := Option.some.inj hread
      rw [hguild]
    next => cases hread
  next => cases hread

theorem lawful_commandsOfGuild (registry : Registry F) (guildId : GuildId) :
    (commandsOfGuild registry guildId).Lawful world where
  keeps h hkeeps := congrArg Option.toList (guildModules_world h hkeeps)
  reads := modulesOf_of_read
  apart := by
    rintro ⟨o, r⟩ hchange
    cases o with
    | sql statement =>
      cases statement with
      | guildModules other => cases r <;> exact hchange.elim
      | _ => rfl
    | _ => rfl

end Lawful

/-! ### What the handlers publish -/

section Handlers
variable {registry : Registry F} {guildId : GuildId} {past : List (Prog.Answered (Call.Reply (F := F)))}

/-- Both rules of a call. -/
def Rule (registry : Registry F) (guildId : GuildId) (past : List (Prog.Answered (Call.Reply (F := F)))) (o : Call F) :
    Prop :=
  (commandsOfGuild registry guildId).FromRead past o ∧ (commandsOfGuild registry guildId).ReadsLater past o

variable {α β : Type} {R : List (Prog.Answered (Call.Reply (F := F))) → Call F → Prop}
  {Q : List (Prog.Answered (Call.Reply (F := F))) → β → Prop}

/-- A call and what the program takes from its answer. -/
theorem traced_ask {o : Call F} {g : o.Reply → Except Error α} {f : α → Task F β} (ho : R past o)
    (hf : ∀ r a, g r = .ok a → (f a).Traced R Q (fun _ _ => True) (⟨o, r⟩ :: past)) :
    (do let r ← send o; let a ← Prog.ofExcept (g r); f a : Task F β).Traced R Q (fun _ _ => True) past := by
  refine Prog.Traced.send_bind ho fun r => Prog.Traced.bind (Prog.Traced.ofExcept (fun a ha => ?_) fun _ _ => trivial)
  exact hf r a ha

theorem traced_sql {statement : Statement} {f : statement.Reply → Task F β} (ho : R past (.sql statement))
    (hf : ∀ rows, (f rows).Traced R Q (fun _ _ => True) (⟨.sql statement, .ok rows⟩ :: past)) :
    (sql statement >>= f : Task F β).Traced R Q (fun _ _ => True) past :=
  traced_ask ho fun r rows hr => by
    obtain rfl : r = .ok rows := hr
    exact hf rows

/-- Nothing is changed or published. -/
def Plain (guildId : GuildId) (o : Call F) : Prop :=
  ∀ r, ¬ ChangesModules guildId o r ∧ commandsSet guildId o r = none

theorem rule_of_plain {o : Call F} (h : Plain guildId o) : Rule registry guildId past o := by
  refine ⟨fun r w hpublished => ?_, fun r hchange => absurd hchange (h r).1⟩
  have hnone : commandsSet guildId o r = some w := hpublished
  rw [(h r).2] at hnone
  cases hnone

theorem plain_sql {statement : Statement} (h : ∀ rows, ¬ ChangesModules guildId (.sql statement : Call F) (.ok rows)) :
    Plain guildId (.sql statement : Call F) := by
  rintro (err | rows)
  · exact ⟨by cases statement <;> exact id, rfl⟩
  · exact ⟨h rows, rfl⟩

/-- Commands of modules that were read are set. -/
theorem rule_setGuildCommands {other : GuildId} {modules : List String}
    (hread : ⟨.sql (.guildModules other), .ok modules⟩ ∈ past) :
    Rule registry guildId past (.setGuildCommands other (commandsOf registry modules)) := by
  refine ⟨fun r w hpublished => ?_, fun r hchange => hchange.elim⟩
  have hset : commandsSet guildId (.setGuildCommands other (commandsOf registry modules) : Call F) r = some w :=
    hpublished
  cases r with
  | error err => cases hset
  | ok _ =>
    by_cases hother : other = guildId
    · subst hother
      obtain rfl := Option.some.inj ((if_pos rfl).symm.trans hset)
      exact ⟨_, hread, modules, if_pos rfl, rfl⟩
    · cases (if_neg hother).symm.trans hset

theorem traced_setGuildCommands {other : GuildId} {modules : List String}
    {Q : List (Prog.Answered (Call.Reply (F := F))) → Unit → Prop}
    (hread : ⟨.sql (.guildModules other), .ok modules⟩ ∈ past)
    (hQ : Q (⟨.setGuildCommands other (commandsOf registry modules), .ok ()⟩ :: past) ()) :
    (setGuildCommandsForGuild modules other registry).Traced (Rule registry guildId) Q (fun _ _ => True) past := by
  refine Prog.Traced.send_bind (rule_setGuildCommands hread) fun r =>
    Prog.Traced.ofExcept (fun _ hr => ?_) fun _ _ => trivial
  obtain rfl : r = .ok () := hr
  exact hQ

theorem fromRead_of_all {p : Task F Unit} (h : p.All (fun o => ∀ r, commandsSet guildId o r = none) fun _ => True) :
    p.Traced (commandsOfGuild registry guildId).FromRead (fun _ _ => True) (fun _ _ => True) past := by
  refine Prog.Traced.keeps (I := fun _ => True) (h.mono (fun _ => id) fun _ _ _ _ => trivial)
    (fun o past ho _ r w hpublished => ?_) (fun _ _ _ _ _ => trivial) trivial
  have hset : commandsSet guildId o r = some w := hpublished
  rw [ho r] at hset
  cases hset

theorem all_unset {statement : Statement} :
    (sql statement : Task F statement.Reply).All (fun o => ∀ r, commandsSet guildId o r = none) fun _ => True :=
  (Prog.All.send fun _ => rfl).bind fun _ => Prog.All.ofExcept _

theorem traced_guildCreate (other : GuildId) : (guildCreate registry other).Traced
    (commandsOfGuild registry guildId).FromRead (fun _ _ => True) (fun _ _ => True) past := by
  refine traced_sql (rule_of_plain (plain_sql fun _ => id)).1 fun _ =>
    traced_sql (rule_of_plain (plain_sql fun _ => id)).1 fun modules => ?_
  dsimp only
  split_ifs
  · trivial
  · exact (traced_setGuildCommands List.mem_cons_self trivial).imp fun _ _ h => h.1

theorem traced_deleteRemovedGuilds : (deleteRemovedGuilds : Task F Unit).Traced
    (commandsOfGuild registry guildId).FromRead (fun _ _ => True) (fun _ _ => True) past := by
  refine fromRead_of_all (all_unset.bind fun guilds => Prog.All.forM fun guild _ => ?_)
  have hdelete : (deleteGuild guild.1 : Task F Unit).All (fun o => ∀ r, commandsSet guildId o r = none) fun _ => True :=
    all_unset.bind fun _ => trivial
  exact hdelete.attempt.bind fun _ => trivial

/-- A change is made before the modules are read, and the commands of these are set after that. -/
theorem traced_switchModule {change : GuildId → String → Task F Unit} {answer : String}
    (hchange : ∀ other module past, (∀ answered ∈ past, modulesRead guildId answered.1 answered.2 = none) →
      (commandsOfGuild registry guildId).Settled past →
      (change other module).Traced (Rule registry guildId)
        (fun past' _ => other ≠ guildId → (commandsOfGuild registry guildId).Settled past') (fun _ _ => True) past) :
    (switchModule registry change answer).Traced (Rule registry guildId)
      (fun past _ => (commandsOfGuild registry guildId).Settled past) (fun _ _ => True) [] := by
  refine traced_ask (rule_of_plain fun _ => ⟨id, rfl⟩) fun r guild _ => ?_
  cases guild with
  | none => trivial
  | some other =>
    refine traced_ask (rule_of_plain fun _ => ⟨id, rfl⟩) fun r' module _ => ?_
    split_ifs
    · refine Prog.Traced.bind ((hchange other module _ ?_ ?_).mono fun past' _ hsettled => ?_)
      · simp [modulesRead]
      · exact .inr ⟨id, .inr ⟨id, trivial⟩⟩
      · refine traced_sql (rule_of_plain (plain_sql fun _ => id)) fun modules => Prog.Traced.bind ?_
        refine traced_setGuildCommands List.mem_cons_self ?_
        refine Prog.Traced.send_bind (rule_of_plain fun _ => ⟨id, rfl⟩) fun r =>
          Prog.Traced.ofExcept (fun _ _ => .inr ⟨id, ?_⟩) fun _ _ => trivial
        by_cases hother : other = guildId
        · exact .inl fun hnone => by cases (if_pos hother).symm.trans hnone
        · exact .inr ⟨id, .inr ⟨id, hsettled hother⟩⟩
    · refine Prog.Traced.send_bind (rule_of_plain fun _ => ⟨id, rfl⟩) fun r =>
        Prog.Traced.ofExcept (fun _ _ => ?_) fun _ _ => trivial
      exact .inr ⟨id, .inr ⟨id, .inr ⟨id, trivial⟩⟩⟩

/-- A change before anything was read. -/
theorem traced_change {statement : Statement} {Q : List (Prog.Answered (Call.Reply (F := F))) → statement.Reply → Prop}
    (hunread : ∀ answered ∈ past, modulesRead guildId answered.1 answered.2 = none)
    (hQ : ∀ rows, Q (⟨.sql statement, .ok rows⟩ :: past) rows) :
    (sql statement : Task F statement.Reply).Traced (Rule registry guildId) Q (fun _ _ => True) past := by
  have hrule : Rule registry guildId past (.sql statement : Call F) := by
    refine ⟨fun r w hpublished => ?_, fun _ _ => hunread⟩
    cases (show commandsSet guildId (.sql statement : Call F) r = some w from hpublished)
  refine Prog.Traced.send_bind hrule fun r => Prog.Traced.ofExcept (fun rows hr => ?_) fun _ _ => trivial
  obtain rfl : r = .ok rows := hr
  exact hQ rows

theorem traced_enable : (enable registry).Traced (Rule registry guildId)
    (fun past _ => (commandsOfGuild registry guildId).Settled past) (fun _ _ => True) [] := by
  refine traced_switchModule fun other module past hunread hsettled => ?_
  refine traced_sql (rule_of_plain (plain_sql fun _ => id)) fun _ => traced_change ?_ fun _ hother => ?_
  · exact List.forall_mem_cons.mpr ⟨rfl, hunread⟩
  · exact .inr ⟨hother, .inr ⟨id, hsettled⟩⟩

theorem traced_disable : (disable registry).Traced (Rule registry guildId)
    (fun past _ => (commandsOfGuild registry guildId).Settled past) (fun _ _ => True) [] := by
  refine traced_switchModule fun other module past hunread hsettled => ?_
  exact traced_change hunread fun _ hother => .inr ⟨hother, hsettled⟩

theorem Handler.traced (handler : Handler) : (handler.run registry).Traced (commandsOfGuild registry guildId).FromRead
    (fun _ _ => True) (fun _ _ => True) [] := by
  cases handler with
  | enable => exact (traced_enable.imp fun _ _ h => h.1).mono fun _ _ _ => trivial
  | disable => exact (traced_disable.imp fun _ _ h => h.1).mono fun _ _ _ => trivial
  | guildCreate other => exact traced_guildCreate other
  | guildDelete other unavailable =>
    have hall : (Core.guildDelete other unavailable : Task F Unit).All (fun o => ∀ r, commandsSet guildId o r = none)
        fun _ => True := by
      unfold Core.guildDelete
      split_ifs
      · trivial
      · exact all_unset
    exact fromRead_of_all hall
  | deleteRemovedGuilds => exact traced_deleteRemovedGuilds

end Handlers

variable {ι : Type} [DecidableEq ι]

abbrev Calls (F : Funcs) (ι : Type) := List (ι × DbCall F)

/-- The commands of a guild that Discord accepted last. -/
def registered (registry : Registry F) (guildId : GuildId) (calls : Calls F ι) : Option (List (CommandBuilder F)) :=
  (commandsOfGuild registry guildId).last calls

/-- The commands of a guild are those of its modules when the `enable` or `disable` that made the last change of the
modules has ended without an error, and no other handler has registered after this change what it read before. -/
theorem commands_follow_modules (registry : Registry F) (handlers : ι → Handler) (db : Database)
    {c' : Pool ι Error (Call F) Database Call.Reply Unit} {pre post : Calls F ι} {i : ι} {change : DbCall F}
    (h : Pool.Steps world ⟨fun j => (handlers j).run registry, db⟩ (pre ++ (i, change) :: post) c')
    (hcommand : handlers i = .enable ∨ handlers i = .disable) (hended : c'.progs i = .pure ()) (guildId : GuildId)
    (hchange : ChangesModules guildId change.op change.reply)
    (hlast : ∀ d ∈ post, ¬ ChangesModules guildId d.2.op d.2.reply)
    (hfresh : ∀ j ≠ i, ∀ d, (j, d) ∈ post → commandsSet guildId d.op d.reply ≠ none →
      ∀ e, (j, e) ∈ pre → modulesRead guildId e.op e.reply = none) :
    registered registry guildId (pre ++ (i, change) :: post) =
      some (commandsOf registry (c'.store.modulesOf guildId)) := by
  have hown : ((handlers i).run registry).Traced (Rule registry guildId)
      (fun past _ => (commandsOfGuild registry guildId).Settled past) (fun _ _ => True) [] := by
    rcases hcommand with hcommand | hcommand <;> rw [hcommand]
    · exact traced_enable
    · exact traced_disable
  have hnone : commandsSet guildId change.op change.reply = none := by
    obtain ⟨o, r, s, t⟩ := change
    cases o with
    | setGuildCommands => exact hchange.elim
    | _ => rfl
  exact (commandsOfGuild registry guildId).last_published_of_ended (lawful_commandsOfGuild registry guildId) h
    (fun j => (handlers j).traced) (hown.imp fun _ _ h => h.2) hended hchange hnone hlast hfresh

def emojiModule : Module Named :=
  { (ModuleBuilder.new "emoji").guild.build with commandDefinitions := [⟨"emoji", .chatInput, none, [], [], []⟩] }

def emojiRegistry : Registry Named := { Registry.new with modules := (∅ : HashMap String _).insert "emoji" emojiModule }

/-- The bot joins the guild, and then somebody runs `enable`. -/
def joinAndEnable : Bool → Handler
  | false => .guildCreate moduleGuild
  | true => .enable

def joined : Database := Database.empty.touch moduleGuild

def touched : Database := joined.touch moduleGuild

def emojiEnabled : Database := touched.enableModule moduleGuild "emoji"

def joinCalls : List (DbCall Named) :=
  [⟨.sql (.touch moduleGuild), .ok (), Database.empty, joined⟩,
    ⟨.sql (.guildModules moduleGuild), .ok [], joined, joined⟩]

def enableCalls : List (DbCall Named) :=
  [⟨.ctxGuild, .ok (some moduleGuild), joined, joined⟩, ⟨.getArgString "module", .ok "emoji", joined, joined⟩,
    ⟨.sql (.touch moduleGuild), .ok (), joined, touched⟩]

def enableCall : DbCall Named := ⟨.sql (.enableModule moduleGuild "emoji"), .ok (), touched, emojiEnabled⟩

def setCalls : List (DbCall Named) :=
  [⟨.sql (.guildModules moduleGuild), .ok ["emoji"], emojiEnabled, emojiEnabled⟩,
    ⟨.setGuildCommands moduleGuild (commandsOf emojiRegistry ["emoji"]), .ok (), emojiEnabled, emojiEnabled⟩,
    ⟨.reply "emoji enabled", .ok (), emojiEnabled, emojiEnabled⟩]

theorem runs_join : (guildCreate emojiRegistry moduleGuild).Runs world Eq Database.empty joinCalls (.ok ()) joined :=
  .call rfl ⟨0, rfl⟩ (.call rfl ⟨0, rfl, rfl⟩ (.pure ..))

theorem runs_enable : (enable emojiRegistry).Runs world Eq joined (enableCalls ++ enableCall :: setCalls) (.ok ())
    emojiEnabled := by
  refine .call rfl ⟨0, rfl⟩ (.call rfl ⟨0, rfl⟩ (.call rfl ⟨0, rfl⟩ (.call rfl ⟨0, fun _ => rfl, rfl⟩ ?_)))
  refine .call rfl ⟨0, rfl, rfl⟩ (.call rfl ⟨0, rfl⟩ (.call rfl ⟨0, rfl⟩ (.pure ..)))

theorem commands_follow_modules_of_enable :
    registered emojiRegistry moduleGuild ((joinCalls.map (false, ·) ++ enableCalls.map (true, ·)) ++
      (true, enableCall) :: setCalls.map (true, ·)) = some (commandsOf emojiRegistry ["emoji"]) := by
  have hjoin : Pool.Steps world ⟨fun i => (joinAndEnable i).run emojiRegistry, Database.empty⟩
      (joinCalls.map (false, ·)) _ := Pool.Steps.of_runs runs_join rfl
  have hsteps := hjoin.append (Pool.Steps.of_runs (i := true) runs_enable rfl)
  rw [List.map_append, List.map_cons, ← List.append_assoc] at hsteps
  exact commands_follow_modules emojiRegistry joinAndEnable Database.empty hsteps (.inl rfl) (by simp [Prog.ofExcept])
    moduleGuild rfl (by simp [setCalls, ChangesModules]) (by simp [setCalls])

end Tulpje.Core
