import Tulpje.Pluralkit.Calls
import Tulpje.Pluralkit.FrontChanges
import Tulpje.Lib.History

/-!
# No notification without a change

The front update service notifies a guild of a front only if it has found another one stored and has stored this one,
and has not told the guild of the system since. So nobody is told twice of one change, whatever is answered and
whoever else works on the database (`notified_only_of_changes`).
-/

namespace Tulpje.Pluralkit.Notifications

open Lib

abbrev Past := List (Prog.Answered Call.Reply)

/-- `notify_guild` is called for a switch of the system. -/
def Tells (guildId : GuildId) (system : Uuid) (o : Call) : Prop :=
  ∃ embed, o = .notifying guildId system (.switch embed)

def Silent (o : Call) : Prop := ∀ guildId system, ¬ Tells guildId system o

theorem silent_of_common (o : Call) (h : o.Common) : Silent o := by
  rintro guildId system ⟨embed, rfl⟩
  exact h

/-- Another front was found and replaced by this one, and these are the guilds that were told of the system since. -/
def Recorded (system : Uuid) (fronters : List Uuid) (told : List GuildId) (past : Past) : Prop :=
  ∃ last now mid saved first,
    past = last ++ ⟨.sql (.updateFronters system fronters now), .ok ()⟩ :: mid ++
      ⟨.sql (.getFronters system), .ok saved⟩ :: first ∧
    saved.map (·.fronters) ≠ some fronters ∧
    ∀ answered ∈ last ++ mid, ∀ guildId, Tells guildId system answered.1 → guildId ∈ told

/-- A `SELECT` of the followers has each of them once. -/
def FollowersOnce (past : Past) : Prop :=
  ∀ system guilds, ⟨.sql (.getNotifyGuildsForSystem system), .ok guilds⟩ ∈ past → guilds.Nodup

/-- What the service tells a guild of. -/
def Rule (past : Past) (o : Call) : Prop :=
  ∀ guildId system embed, o = .notifying guildId system (.switch embed) → FollowersOnce past →
    ∃ members told, embed.description = "\n".intercalate (embedParts members) ∧
      Recorded system (members.map Member.uuid) told past ∧ guildId ∉ told

theorem FollowersOnce.tail {answered : Prog.Answered Call.Reply} {past : Past} (h : FollowersOnce (answered :: past)) :
    FollowersOnce past := fun system guilds hmem => h system guilds (List.mem_cons_of_mem _ hmem)

section Recorded
variable {system : Uuid} {fronters : List Uuid} {told : List GuildId} {past : Past}

theorem Recorded.cons {o : Call} (h : Recorded system fronters told past) (r : o.Reply)
    (ho : ∀ guildId, Tells guildId system o → guildId ∈ told) : Recorded system fronters told (⟨o, r⟩ :: past) := by
  obtain ⟨last, now, mid, saved, first, rfl, hsaved, htold⟩ := h
  exact ⟨⟨o, r⟩ :: last, now, mid, saved, first, rfl, hsaved, List.forall_mem_cons.mpr ⟨ho, htold⟩⟩

theorem Recorded.silent {o : Call} (h : Recorded system fronters told past) (r : o.Reply) (ho : Silent o) :
    Recorded system fronters told (⟨o, r⟩ :: past) := h.cons r fun guildId htells => absurd htells (ho guildId system)

theorem Recorded.mono {told' : List GuildId} (h : Recorded system fronters told past) (hsub : told ⊆ told') :
    Recorded system fronters told' past := by
  obtain ⟨last, now, mid, saved, first, rfl, hsaved, htold⟩ := h
  exact ⟨last, now, mid, saved, first, rfl, hsaved, fun answered hmem guildId htells =>
    hsub (htold answered hmem guildId htells)⟩

end Recorded

/-! ### What the tasks do -/

section Tasks
variable {ε ε' α β : Type} {past : Past}

def Told (past : Past) (p : TaskM ε α) (Q : Past → α → Prop) : Prop := p.Traced Rule Q (fun _ _ => True) past

theorem Told.bind {p : TaskM ε α} {f : α → TaskM ε β} {Q : Past → α → Prop} {Q' : Past → β → Prop} (hp : Told past p Q)
    (hf : ∀ past' a, Q past' a → Told past' (f a) Q') : Told past (p >>= f) Q' := (hp.mono hf).bind

theorem Told.send {o : Call} {f : o.Reply → TaskM ε β} {Q : Past → β → Prop} (ho : Silent o)
    (hf : ∀ r, Told (⟨o, r⟩ :: past) (f r) Q) : Told past (Pluralkit.send o >>= f) Q := by
  refine Prog.Traced.send_bind ?_ hf
  intro guildId system embed heq _
  exact absurd ⟨embed, heq⟩ (ho guildId system)

theorem Told.mapError {p : TaskM ε α} {g : ε → ε'} {Q : Past → α → Prop} (hp : Told past p Q) :
    Told past (p.mapError g) Q := Prog.Traced.mapError hp

theorem Told.attempt {p : TaskM ε α} {Q : Past → α → Prop} (hp : Told past p Q) :
    Told past (p.attempt : TaskM ε' (Except ε α)) fun past r => ∀ a, r = .ok a → Q past a := by
  refine Prog.Traced.attempt (Prog.Traced.mono_error (hp.mono fun past a h => ?_) fun _ _ _ => nofun)
  rintro _ ⟨⟩
  exact h

/-- Nobody is told, so what is kept by such calls is kept. -/
theorem told_of_silent {p : TaskM ε α} {I : Past → Prop} (hp : Only Silent p)
    (hkeep : ∀ o r past, Silent o → I past → I (⟨o, r⟩ :: past)) (hI : I past) : Told past p fun past _ => I past := by
  refine Prog.Traced.keeps (hp.mono (fun _ => id) fun _ _ _ _ => trivial) ?_ hkeep hI
  intro o past ho _ guildId system embed heq _
  exact absurd ⟨embed, heq⟩ (ho guildId system)

theorem Told.of_silent {p : TaskM ε α} (hp : Only Silent p) : Told past p fun _ _ => True :=
  told_of_silent hp (fun _ _ _ _ _ => trivial) trivial

theorem told_of_recorded {p : TaskM ε α} {system : Uuid} {fronters : List Uuid} {told : List GuildId}
    (hp : Only Silent p) (h : Recorded system fronters told past) :
    Told past p fun past _ => Recorded system fronters told past :=
  told_of_silent hp (fun _ r _ ho h => h.silent r ho) h

theorem told_sql {statement : Statement} :
    Told past (sql statement) fun past' rows => past' = ⟨.sql statement, .ok rows⟩ :: past := by
  refine Told.send (silent_of_common _ trivial) fun r => Prog.Traced.ofExcept ?_ fun _ _ => trivial
  rintro rows rfl
  rfl

theorem told_didFrontersChange (system : Uuid) (fronters : List Uuid) :
    Told past (didFrontersChange system fronters) fun past changed => changed = true →
      ∃ saved first, past = ⟨.sql (.getFronters system), .ok saved⟩ :: first ∧
        saved.map (·.fronters) ≠ some fronters := by
  refine Told.bind told_sql ?_
  rintro _ saved rfl
  cases saved with
  | none => exact fun _ => ⟨none, past, rfl, nofun⟩
  | some saved =>
    refine fun hchanged => ⟨some saved, past, rfl, fun hsame => ?_⟩
    exact of_decide_eq_true hchanged (Option.some.inj hsame)

theorem told_recordFronters (system : ModPkSystem) (fronters : Option Fronters) :
    Told past (recordFronters system fronters) fun past change => ∀ switch, change = .changed switch →
      Recorded system.uuid (switch.fronters.map Member.uuid) [] past := by
  refine Told.bind (told_didFrontersChange ..).mapError fun past₁ changed hchanged => ?_
  cases changed with
  | false =>
    refine Told.bind (Told.of_silent (only_updateFrontersTimestamp silent_of_common _).mapError) fun _ _ _ => ?_
    exact fun switch => nofun
  | true =>
    obtain ⟨saved, first, rfl, hsaved⟩ := hchanged rfl
    have hupdated : Told (⟨.sql (.getFronters system.uuid), .ok saved⟩ :: first)
        (updateFronters system.uuid (((fronters.map (·.members)).getD []).map (·.uuid))) fun past _ =>
          Recorded system.uuid (((fronters.map (·.members)).getD []).map (·.uuid)) [] past := by
      refine Told.send (silent_of_common _ trivial) fun now => told_sql.mono ?_
      rintro _ _ rfl
      refine ⟨[], now, [⟨.utcNow, now⟩], saved, first, rfl, hsaved, List.forall_mem_singleton.mpr ?_⟩
      exact fun guildId htells => absurd htells (silent_of_common .utcNow trivial guildId _)
    refine Told.bind hupdated.mapError fun past₂ _ hrecorded => ?_
    cases fronters with
    | some fronters =>
      rintro switch ⟨⟩
      exact hrecorded
    | none =>
      refine Told.send (silent_of_common _ trivial) fun now => ?_
      rintro switch ⟨⟩
      exact hrecorded.silent now (silent_of_common _ trivial)

theorem told_updateSystemFronters (system : ModPkSystem) :
    Told past (updateSystemFronters system) fun past change => ∀ switch, change = .changed switch →
      Recorded system.uuid (switch.fronters.map Member.uuid) [] past := by
  refine Told.bind (Told.of_silent (only_getSystemFronters silent_of_common _).attempt) fun _ reply _ => ?_
  refine Told.bind (Told.of_silent (only_frontersOfReply silent_of_common reply)) fun _ fronters _ => ?_
  exact told_recordFronters system fronters

theorem told_createFrontChangeEmbed (system : ModPkSystem) (switch : Switch) {told : List GuildId}
    (h : Recorded system.uuid (switch.fronters.map Member.uuid) told past) :
    Told past (createFrontChangeEmbed system switch) fun past embed =>
      embed.description = "\n".intercalate (embedParts switch.fronters) ∧
        Recorded system.uuid (switch.fronters.map Member.uuid) told past := by
  refine Told.bind (told_of_recorded ?_ h) fun past₁ thumbnail h => ?_
  · cases system.avatar with
    | none => trivial
    | some url =>
      refine Only.send (silent_of_common _ trivial) fun source => ?_
      cases source <;> trivial
  · refine Told.send (silent_of_common _ trivial) fun r => ?_
    have hvalid := h.silent r (silent_of_common (.validate _) trivial)
    exact Told.bind (Prog.Traced.ofExcept (fun _ _ => hvalid) fun _ _ => trivial) fun _ _ h => ⟨rfl, h⟩

/-- The guilds that are still to be told have not been told since the change. -/
theorem told_notifyGuilds {system : Uuid} {members : List Member} {embed : Embed}
    (hembed : embed.description = "\n".intercalate (embedParts members)) (guilds : List GuildId) {told : List GuildId}
    {past : Past} (h : Recorded system (members.map Member.uuid) told past)
    (hguilds : FollowersOnce past → guilds.Nodup ∧ ∀ guildId ∈ guilds, guildId ∉ told) :
    Told past (notifyGuilds system (.switch embed) guilds) fun _ _ => True := by
  induction guilds generalizing told past with
  | nil => trivial
  | cons guildId guilds ih =>
    refine Prog.Traced.send_bind ?_ fun r => ?_
    · rintro _ _ _ ⟨⟩ honce
      exact ⟨members, told, hembed, h, (hguilds honce).2 guildId List.mem_cons_self⟩
    · have hrecorded : Recorded system (members.map Member.uuid) (guildId :: told)
          (⟨.notifying guildId system (.switch embed), r⟩ :: past) := by
        refine (h.mono (List.subset_cons_self ..)).cons r ?_
        rintro _ ⟨_, ⟨⟩⟩
        exact List.mem_cons_self
      have hrest : FollowersOnce past → guilds.Nodup ∧ ∀ other ∈ guilds, other ∉ guildId :: told := by
        intro honce
        obtain ⟨hnodup, hnew⟩ := hguilds honce
        obtain ⟨hguild, hnodup⟩ := List.nodup_cons.mp hnodup
        refine ⟨hnodup, fun other hother htold => ?_⟩
        rcases List.mem_cons.mp htold with rfl | htold
        · exact hguild hother
        · exact hnew other (List.mem_cons_of_mem _ hother) htold
      have hnotify : Told (⟨.notifying guildId system (.switch embed), r⟩ :: past)
          ((notifyGuild guildId (.switch embed)).attempt : Task (Except Error Unit)) fun past' _ =>
            Recorded system (members.map Member.uuid) (guildId :: told) past' ∧
              (FollowersOnce past' → FollowersOnce past) :=
        told_of_silent (only_notifyGuild silent_of_common ..).attempt
          (fun _ r _ ho h => ⟨h.1.silent r ho, fun honce => h.2 honce.tail⟩) ⟨hrecorded, FollowersOnce.tail⟩
      refine hnotify.bind fun past' notified h => ?_
      exact Told.bind (ih h.1 fun honce => hrest (h.2 honce)) fun _ _ _ => trivial

theorem told_notifyFrontChange (system : ModPkSystem) (switch : Switch)
    (h : Recorded system.uuid (switch.fronters.map Member.uuid) [] past) :
    Told past (notifyFrontChange system switch) fun _ _ => True := by
  refine Told.bind (told_createFrontChangeEmbed system switch h) fun past₁ embed hembed => ?_
  refine Told.bind (Q := fun _ _ => True) ?_ fun _ _ _ => trivial
  refine Told.bind told_sql ?_
  rintro _ guilds rfl
  refine told_notifyGuilds hembed.1 guilds (hembed.2.silent _ (silent_of_common _ trivial)) fun honce => ?_
  exact ⟨honce system.uuid guilds List.mem_cons_self, fun _ _ => List.not_mem_nil⟩

theorem told_processSystem (system : ModPkSystem) : Told past (processSystem system) fun _ _ => True := by
  refine Told.bind (told_updateSystemFronters system).attempt fun past₁ change hchange => ?_
  rcases change with (_ | _ | err) | (_ | switch)
  · exact .of_silent (only_notifyFrontPrivate silent_of_common system)
  · exact .of_silent (only_notifySystemNotFound silent_of_common system)
  · trivial
  · trivial
  · have hcategories : Only Silent (updateFronterCategories system switch) := by
      refine only_updateFronterCategories silent_of_common (fun _ _ _ => ?_) system switch
      rintro _ _ ⟨_, ⟨⟩⟩
    exact Told.bind (told_of_recorded hcategories (hchange _ rfl switch rfl)) fun _ _ h =>
      told_notifyFrontChange system switch h

theorem told_frontTick : Told past frontTick fun _ _ => True := by
  refine Told.bind told_sql fun _ _ _ => Told.bind told_sql fun _ _ _ => Told.bind told_sql fun _ systems _ => ?_
  refine Prog.Traced.forM (I := fun _ => True) (fun system _ past _ => ?_) trivial
  exact Told.bind (told_processSystem system).attempt fun _ _ _ => trivial

theorem told_start (ticks : ℕ) : Told past (start frontTick ticks) fun _ _ => True := by
  induction ticks generalizing past with
  | zero => trivial
  | succ ticks ih => exact Told.bind told_frontTick.attempt fun _ _ _ => ih

end Tasks

/-! ### Among others -/

/-- Another front is found stored, and this one is stored. -/
structure Records (read write : DbCall) (system : Uuid) (fronters : List Uuid) : Prop where
  finds : read.op = .sql (.getFronters system)
  differs : read.before.storedFronters system ≠ some fronters
  stores : ∃ now, write.op = .sql (.updateFronters system fronters now)
  stored : write.after.storedFronters system = some fronters

theorem records_of_answered {read write : DbCall} {system : Uuid} {fronters : List Uuid}
    {saved : Option ModPkSystemFronters} {now : Time} (hread : read.answered = ⟨.sql (.getFronters system), .ok saved⟩)
    (hsaved : saved.map (·.fronters) ≠ some fronters)
    (hwrite : write.answered = ⟨.sql (.updateFronters system fronters now), .ok ()⟩)
    (hfound : world read.op read.before read.reply read.after)
    (hstored : world write.op write.before write.reply write.after) : Records read write system fronters := by
  obtain ⟨o, r, s, t⟩ := read
  obtain ⟨o', r', s', t'⟩ := write
  cases hread
  cases hwrite
  obtain ⟨_, hrow, -⟩ := hfound
  obtain ⟨_, hafter⟩ := hstored
  refine ⟨rfl, ?_, ⟨now, rfl⟩, ?_⟩
  · rw [hrow] at hsaved
    exact hsaved
  · rw [hafter]
    exact storedFronters_upsert _ _

variable {ι : Type} [DecidableEq ι] {progs : ι → Task Unit} {db : Database} {pre post : List (ι × DbCall)}

theorem followersOnce {c c' : Pool ι Error Call Database Call.Reply Unit} {calls : List (ι × DbCall)} {service : ι}
    (h : Pool.Steps world c calls c') : FollowersOnce (Prog.history (ownCalls service calls)) := by
  intro system guilds hmem
  obtain ⟨⟨o, r, s, t⟩, hd, hanswered⟩ := mem_history_ownCalls.mp hmem
  cases hanswered
  obtain ⟨now, ⟨hnodup, -⟩, -⟩ := h.answered _ hd
  exact hnodup

/-- The first tick finds the new front and tells the follower. -/
def exampleTick : List DbCall :=
  [⟨.sql (.getTrackedSystemCount), .ok 1, exampleDatabase, exampleDatabase⟩,
    ⟨.sql (.getSystemCount), .ok 1, exampleDatabase, exampleDatabase⟩,
    ⟨.sql .frontersGetSystemsToUpdate, .ok [exampleSystem], exampleDatabase, exampleDatabase⟩] ++ exampleChanged

theorem runs_exampleTick :
    (start frontTick 1).Runs world Eq exampleDatabase exampleTick (.ok ()) changedDatabase := by
  have hbatch : IsBatch 5 exampleDatabase.frontersUpdatedAt exampleDatabase.staleFronters [exampleSystem.uuid] :=
    ⟨[exampleSystem.uuid], by decide, by decide +kernel, by decide +kernel, rfl⟩
  have htick : frontTick.Runs world Eq exampleDatabase exampleTick (.ok ()) changedDatabase := by
    refine .call rfl ⟨hour, by decide +kernel, rfl⟩ ?_
    refine .call rfl ⟨hour, by decide +kernel, rfl⟩ ?_
    exact .call rfl ⟨hour, ⟨_, hbatch, by decide +kernel⟩, rfl⟩ runs_exampleChanged
  exact Prog.runs_bind.mpr (.inr ⟨_, _, _, _, (List.append_nil _).symm,
    Prog.runs_attempt.mpr ⟨_, rfl, htick⟩, .pure () _⟩)

end Tulpje.Pluralkit.Notifications
