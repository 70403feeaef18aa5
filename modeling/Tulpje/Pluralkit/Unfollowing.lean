import Tulpje.Pluralkit.FrontChanges

/-!
# Which guilds are unfollowed

When a system is gone or its front is private, the guilds that follow it are told one after the other, and those
that were told are unfollowed at the end. A channel that Discord does not know any more is deleted on the way,
with all follows of its guild. The two deletes are two statements, so the second one can fail after the first:
`channel_lost_alone`.
-/

namespace Tulpje.Pluralkit

open Twilight Lib

/-- Others leave the notify channels and the follows as they are. -/
def SameNotify (s t : Database) : Prop :=
  t.pkNotifyChannels = s.pkNotifyChannels ∧ t.pkNotifySystems = s.pkNotifySystems

theorem SameNotify.refl (s : Database) : SameNotify s s := ⟨rfl, rfl⟩

theorem SameNotify.trans {s t u : Database} (h : SameNotify s t) (h' : SameNotify t u) : SameNotify s u :=
  ⟨h'.1.trans h.1, h'.2.trans h.2⟩

/-! ### Rounds -/

def channelUnknown : (o : Call) → o.Reply → Bool
  | .createMessage .., .unknown => true
  | _, _ => false

def channelDeleted : (o : Call) → o.Reply → Bool
  | .sql (.deleteNotifyChannel _), .ok _ => true
  | _, _ => false

def systemsDeleted : (o : Call) → o.Reply → Bool
  | .sql (.deleteNotifySystems _), .ok _ => true
  | _, _ => false

/-- Some call was answered so. -/
def Answered (p : (o : Call) → o.Reply → Bool) (calls : List DbCall) : Bool := calls.any fun c => p c.op c.reply

/-- One `notify_guild`. -/
structure Round where
  guildId : GuildId
  calls : List DbCall
  result : Except Error Unit

/-- The rounds of the loop, one for each guild. -/
inductive RunsRounds (system : Uuid) (notification : GuildNotification) :
    List Round → Database → List DbCall → Database → Prop
  | nil (s : Database) : RunsRounds system notification [] s [] s
  | cons {round : Round} {rounds : List Round} {s u v w t : Database} {calls : List DbCall} (hrely : SameNotify s u)
      (hworld : world (.notifying round.guildId system notification) u () v)
      (hround : (notifyGuild round.guildId notification).Runs world SameNotify v round.calls round.result w)
      (hrest : RunsRounds system notification rounds w calls t) :
      RunsRounds system notification (round :: rounds) s
        (⟨.notifying round.guildId system notification, (), u, v⟩ :: (round.calls ++ calls)) t

section Runs
variable {s t u v : Database} {calls : List DbCall} {guildId : GuildId} {notification : GuildNotification}

theorem runs_notifyGuilds {system : Uuid} {guilds : List GuildId} {result : Except Error (List GuildId)}
    (h : (notifyGuilds system notification guilds).Runs world SameNotify s calls result t) :
    ∃ rounds, rounds.map Round.guildId = guilds ∧ RunsRounds system notification rounds s calls t ∧
      result = .ok ((rounds.filter fun round => round.result.isOk).map Round.guildId) := by
  induction guilds generalizing s calls result with
  | nil =>
    obtain ⟨rfl, rfl, rfl⟩ := Prog.runs_pure.mp h
    exact ⟨[], rfl, .nil t, rfl⟩
  | cons guildId guilds ih =>
    rcases Prog.runs_bind.mp h with ⟨e, -, hfails⟩ | ⟨_, v, cs, ds, rfl, hlog, hbody⟩
    · obtain ⟨_, _, -, -, -, herror⟩ := Prog.runs_send.mp hfails
      cases herror
    obtain ⟨u, _, hrely, hworld, rfl, -⟩ := Prog.runs_send.mp hlog
    rcases Prog.runs_bind.mp hbody with ⟨e, -, hfails⟩ | ⟨notified, w, cs, ds, rfl, hattempt, hlater⟩
    · obtain ⟨_, herror, -⟩ := Prog.runs_attempt.mp hfails
      cases herror
    obtain ⟨r, hr, hround⟩ := Prog.runs_attempt.mp hattempt
    obtain rfl := Except.ok.inj hr
    rcases Prog.runs_bind.mp hlater with ⟨e, -, hfails⟩ | ⟨rest, x, cs', ds', rfl, hrest, hpure⟩
    · obtain ⟨_, -, -, herror⟩ := ih hfails
      cases herror
    obtain ⟨rfl, rfl, rfl⟩ := Prog.runs_pure.mp hpure
    obtain ⟨rounds, hguilds, hrounds, hresult⟩ := ih hrest
    obtain rfl := Except.ok.inj hresult
    refine ⟨⟨guildId, cs, notified⟩ :: rounds, by rw [List.map_cons, hguilds], ?_, ?_⟩
    · rw [List.append_nil]
      exact .cons hrely hworld hround hrounds
    · rw [List.filter_cons]
      cases notified <;> rfl

/-- What a call that does not write the two tables leaves. -/
theorem sameNotify_call {o : Call} {r : o.Reply} (hrely : SameNotify s u) (hworld : world o u r v)
    (hchannels : o.effect ≠ some (.writes .pkNotifyChannels)) (hsystems : o.effect ≠ some (.writes .pkNotifySystems)) :
    SameNotify s v :=
  hrely.trans ⟨world_frame (x := .pkNotifyChannels) hworld hchannels,
    world_frame (x := .pkNotifySystems) hworld hsystems⟩

/-- A statement that fails changes neither. -/
theorem sameNotify_error {statement : Statement} {err : Error} (hrely : SameNotify s u)
    (hworld : world (.sql statement) u (.error err) v) : SameNotify s v := by
  obtain ⟨now, rfl⟩ := hworld
  exact hrely

/-- How a round ends, with what it was answered. -/
inductive Outcome (guildId : GuildId) (s t : Database) : (unknown channel systems : Bool) → Except Error Unit → Prop
  | delivered (hsame : SameNotify s t) : Outcome guildId s t false false false (.ok ())
  | failed {unknown : Bool} {err : Error} (hsame : SameNotify s t) :
    Outcome guildId s t unknown false false (.error err)
  | channelLost {channelId : ChannelId} {err : Error} (hrow : s.pkNotifyChannels.row guildId = some channelId)
      (hchannels : t.pkNotifyChannels = s.pkNotifyChannels.deleteWhere fun _ channel => channel == channelId)
      (hsystems : t.pkNotifySystems = s.pkNotifySystems) : Outcome guildId s t true true false (.error err)
  | allLost {channelId : ChannelId} (hrow : s.pkNotifyChannels.row guildId = some channelId)
      (hchannels : t.pkNotifyChannels = s.pkNotifyChannels.deleteWhere fun _ channel => channel == channelId)
      (hsystems : t.pkNotifySystems = s.pkNotifySystems.filter (·.1 ≠ guildId)) :
      Outcome guildId s t true true true (.ok ())

theorem Outcome.of_same {unknown channel systems : Bool} {result : Except Error Unit} (hsame : SameNotify s u)
    (h : Outcome guildId u t unknown channel systems result) :
    Outcome guildId s t unknown channel systems result := by
  cases h with
  | delivered h => exact .delivered (hsame.trans h)
  | failed h => exact .failed (hsame.trans h)
  | channelLost hrow hchannels hsystems =>
    rw [hsame.1] at hrow hchannels
    exact .channelLost hrow hchannels (hsystems.trans hsame.2)
  | allLost hrow hchannels hsystems =>
    rw [hsame.1] at hrow hchannels
    rw [hsame.2] at hsystems
    exact .allLost hrow hchannels hsystems

/-- The two deletes. -/
theorem runs_deletes {channelId : ChannelId} {g g' : Error → Error} {result : Except Error Unit}
    (h : (do
        (sql (.deleteNotifyChannel channelId)).mapError g
        (sql (.deleteNotifySystems guildId)).mapError g' : Task Unit).Runs world SameNotify s calls result t)
    (hrow : s.pkNotifyChannels.row guildId = some channelId) :
    Outcome guildId s t true (Answered channelDeleted calls) (Answered systemsDeleted calls) result := by
  rcases Prog.runs_bind.mp h with ⟨e, rfl, hfails⟩ | ⟨_, v, cs, ds, rfl, hdelete, hrest⟩
  · obtain ⟨r, hr, hsql⟩ := Prog.runs_mapError.mp hfails
    obtain ⟨u, hrely, hworld, rfl⟩ := runs_sql.mp hsql
    cases r with
    | ok _ => cases hr
    | error err => exact .failed (sameNotify_error hrely hworld)
  obtain ⟨r, hr, hsql⟩ := Prog.runs_mapError.mp hdelete
  obtain ⟨u, hrely, hworld, rfl⟩ := runs_sql.mp hsql
  obtain ⟨r', rfl, hsql'⟩ := Prog.runs_mapError.mp hrest
  obtain ⟨u', hrely', hworld', rfl⟩ := runs_sql.mp hsql'
  cases r with
  | error err => cases hr
  | ok _ =>
    obtain ⟨now, hv⟩ := hworld
    obtain rfl : v = _ := hv
    have hchannels : u'.pkNotifyChannels =
        s.pkNotifyChannels.deleteWhere fun _ channel => channel == channelId := by
      rw [hrely'.1, ← hrely.1]
    have hsystems : u'.pkNotifySystems = s.pkNotifySystems := hrely'.2.trans hrely.2
    cases r' with
    | error err =>
      obtain ⟨now', rfl⟩ := hworld'
      exact .channelLost hrow hchannels hsystems
    | ok _ =>
      obtain ⟨now', ht⟩ := hworld'
      obtain rfl : t = _ := ht
      exact .allLost hrow hchannels (by rw [← hsystems])

theorem runs_notifyGuild {result : Except Error Unit}
    (h : (notifyGuild guildId notification).Runs world SameNotify s calls result t) :
    Outcome guildId s t (Answered channelUnknown calls) (Answered channelDeleted calls)
      (Answered systemsDeleted calls) result := by
  rcases Prog.runs_bind.mp h with ⟨e, rfl, hfails⟩ | ⟨channel, v, cs, ds, rfl, hget, hbody⟩
  · obtain ⟨u, hrely, hworld, rfl⟩ := runs_sql.mp hfails
    exact .failed (sameNotify_error hrely hworld)
  obtain ⟨u, hrely, hworld, rfl⟩ := runs_sql.mp hget
  have hsame : SameNotify s v := sameNotify_call hrely hworld nofun nofun
  obtain ⟨now, hchannel, hv⟩ := hworld
  cases channel with
  | none =>
    obtain ⟨rfl, rfl, rfl⟩ := Prog.runs_throw.mp hbody
    exact .failed hsame
  | some channelId =>
  rcases Prog.runs_bind.mp hbody with ⟨e, -, hfails⟩ | ⟨reply, w, cs, ds, rfl, hsend, hlater⟩
  · obtain ⟨_, _, -, -, -, herror⟩ := Prog.runs_send.mp hfails
    cases herror
  obtain ⟨u', reply', hrely', hworld', rfl, hreply⟩ := Prog.runs_send.mp hsend
  obtain rfl := Except.ok.inj hreply
  have hsame' : SameNotify s w := hsame.trans (sameNotify_call hrely' hworld' nofun nofun)
  cases reply with
  | ok _ =>
    obtain ⟨rfl, rfl, rfl⟩ := Prog.runs_pure.mp hlater
    exact .delivered hsame'
  | error err =>
    obtain ⟨rfl, rfl, rfl⟩ := Prog.runs_throw.mp hlater
    exact .failed hsame'
  | unknown =>
    have hrow : w.pkNotifyChannels.row guildId = some channelId := by
      rw [hsame'.1, ← hrely.1]
      exact hchannel.symm
    exact (runs_deletes hlater hrow).of_same hsame'

end Runs

/-! ### What the rounds leave -/

/-- Each channel is configured for at most one guild. -/
def Database.OneGuild (db : Database) : Prop :=
  ∀ guildId guildId' channelId, db.pkNotifyChannels.row guildId = some channelId →
    db.pkNotifyChannels.row guildId' = some channelId → guildId = guildId'

/-- A round of the guild was answered so. -/
def Hit (p : (o : Call) → o.Reply → Bool) (rounds : List Round) (guildId : GuildId) : Prop :=
  ∃ round ∈ rounds, round.guildId = guildId ∧ Answered p round.calls = true

theorem hit_cons {p : (o : Call) → o.Reply → Bool} {round : Round} {rounds : List Round} {guildId : GuildId} :
    Hit p (round :: rounds) guildId ↔
      round.guildId = guildId ∧ Answered p round.calls = true ∨ Hit p rounds guildId := by
  simp [Hit]

section Outcomes
variable {s t : Database} {guildId : GuildId} {unknown channel systems : Bool} {result : Except Error Unit}

/-- Follows go with the second delete. -/
theorem Outcome.follows (h : Outcome guildId s t unknown channel systems result) (guildId' : GuildId) (system : Uuid) :
    t.Follows guildId' system ↔ s.Follows guildId' system ∧ ¬(guildId = guildId' ∧ systems = true) := by
  unfold Database.Follows
  cases h with
  | delivered hsame => simp [hsame.2]
  | failed hsame => simp [hsame.2]
  | channelLost hrow hchannels hsystems => simp [hsystems]
  | allLost hrow hchannels hsystems => simp [hsystems, eq_comm]

/-- The channel goes with the first delete, and no other one goes with it. -/
theorem Outcome.row (h : Outcome guildId s t unknown channel systems result) (hone : s.OneGuild)
    (guildId' : GuildId) : t.pkNotifyChannels.row guildId' =
      if guildId = guildId' ∧ channel = true then none else s.pkNotifyChannels.row guildId' := by
  have hdelete : ∀ channelId, s.pkNotifyChannels.row guildId = some channelId →
      (s.pkNotifyChannels.deleteWhere fun _ channel => channel == channelId).row guildId' =
        if guildId = guildId' then none else s.pkNotifyChannels.row guildId' := by
    intro channelId hrow
    rw [Table.row_deleteWhere]
    split_ifs with hguild
    · subst hguild
      simp [hrow]
    · cases hother : s.pkNotifyChannels.row guildId' with
      | none => rfl
      | some channelId' =>
        have hne : channelId' ≠ channelId := by
          rintro rfl
          exact hguild (hone _ _ _ hrow hother)
        simp [hne]
  cases h with
  | delivered hsame => simp [hsame.1]
  | failed hsame => simp [hsame.1]
  | channelLost hrow hchannels hsystems =>
    rw [hchannels, hdelete _ hrow]
    simp
  | allLost hrow hchannels hsystems =>
    rw [hchannels, hdelete _ hrow]
    simp

theorem Outcome.oneGuild (h : Outcome guildId s t unknown channel systems result) (hone : s.OneGuild) :
    t.OneGuild := by
  intro guildId₁ guildId₂ channelId h₁ h₂
  rw [h.row hone] at h₁ h₂
  split_ifs at h₁ h₂
  exact hone _ _ _ h₁ h₂

end Outcomes

section Rounds
variable {system : Uuid} {notification : GuildNotification} {rounds : List Round} {s t : Database}
  {calls : List DbCall}

theorem SameNotify.oneGuild (h : SameNotify s t) (hone : s.OneGuild) : t.OneGuild := by
  unfold Database.OneGuild
  rw [h.1]
  exact hone

theorem RunsRounds.follows (h : RunsRounds system notification rounds s calls t) (guildId : GuildId)
    (system' : Uuid) :
    t.Follows guildId system' ↔ s.Follows guildId system' ∧ ¬Hit systemsDeleted rounds guildId := by
  induction h with
  | nil s => simp [Hit]
  | cons hrely hworld hround hrest ih =>
    have hsame := sameNotify_call hrely hworld nofun nofun
    rw [ih, (runs_notifyGuild hround).follows, hit_cons, Database.Follows, Database.Follows, hsame.2]
    tauto

theorem RunsRounds.rows (h : RunsRounds system notification rounds s calls t) (hone : s.OneGuild)
    (guildId : GuildId) :
    (Hit channelDeleted rounds guildId → t.pkNotifyChannels.row guildId = none) ∧
      (¬Hit channelDeleted rounds guildId →
        t.pkNotifyChannels.row guildId = s.pkNotifyChannels.row guildId) := by
  induction h with
  | nil s => simp [Hit]
  | @cons round rounds s u v w t calls hrely hworld hround hrest ih =>
    have hsame := sameNotify_call hrely hworld nofun nofun
    have houtcome := runs_notifyGuild hround
    have honeBefore := hsame.oneGuild hone
    obtain ⟨hlost, hkept⟩ := ih (houtcome.oneGuild honeBefore)
    rw [houtcome.row honeBefore, hsame.1] at hkept
    rw [hit_cons]
    constructor
    · intro hhit
      by_cases hlater : Hit channelDeleted rounds guildId
      · exact hlost hlater
      · rw [hkept hlater, if_pos (hhit.resolve_right hlater)]
    · intro hhit
      obtain ⟨hnow, hlater⟩ := not_or.mp hhit
      rw [hkept hlater, if_neg hnow]

theorem RunsRounds.outcome (h : RunsRounds system notification rounds s calls t) {round : Round}
    (hmem : round ∈ rounds) : round.calls ⊆ calls ∧
      ∃ u v, Outcome round.guildId u v (Answered channelUnknown round.calls) (Answered channelDeleted round.calls)
        (Answered systemsDeleted round.calls) round.result := by
  induction h with
  | nil s => exact absurd hmem List.not_mem_nil
  | cons hrely hworld hround hrest ih =>
    rcases List.mem_cons.mp hmem with rfl | hmem
    · refine ⟨fun c hc => List.mem_cons_of_mem _ (List.mem_append_left _ hc), _, _, runs_notifyGuild hround⟩
    · obtain ⟨hsub, houtcome⟩ := ih hmem
      exact ⟨fun c hc => List.mem_cons_of_mem _ (List.mem_append_right _ (hsub hc)), houtcome⟩

end Rounds

/-! ### The functions -/

/-- The channel was unknown, and it has been deleted. -/
def Round.LosesChannel (self : Round) : Prop :=
  Answered channelUnknown self.calls = true ∧ Answered channelDeleted self.calls = true

/-- The follows of the guild have been deleted too. -/
def Round.LosesAll (self : Round) : Prop := self.LosesChannel ∧ Answered systemsDeleted self.calls = true

/-- The calls that tell the guilds that follow a system, and unfollow those that were told. -/
structure TellsAll (system : Uuid) (notification : GuildNotification) (rounds : List Round) (s : Database)
    (calls : List DbCall) : Prop where
  nodup : (rounds.map Round.guildId).Nodup
  mem_guilds : ∀ guildId, guildId ∈ rounds.map Round.guildId ↔ s.Follows guildId system
  calls : ∃ first last cs u v, calls = first :: (cs ++ [last]) ∧ RunsRounds system notification rounds u cs v

/-- Who is told is unfollowed, an unknown channel is forgotten with all follows of its guild, and nothing else is
lost than the channels of the rounds in `loses`. -/
structure Unfollowed (system : Uuid) (rounds : List Round) (loses : Round → Prop) (s t : Database) : Prop where
  told : ∀ guildId, t.Follows guildId system ↔
    s.Follows guildId system ∧ ¬∃ round ∈ rounds, round.guildId = guildId ∧ round.result = .ok ()
  forgotten : ∀ round ∈ rounds, round.LosesAll →
    t.pkNotifyChannels.row round.guildId = none ∧ ∀ system', ¬t.Follows round.guildId system'
  follows : ∀ guildId system', system' ≠ system → (¬∃ round ∈ rounds, round.guildId = guildId ∧ round.LosesAll) →
    (t.Follows guildId system' ↔ s.Follows guildId system')
  channels : ∀ guildId, (¬∃ round ∈ rounds, round.guildId = guildId ∧ loses round) →
    t.pkNotifyChannels.row guildId = s.pkNotifyChannels.row guildId

theorem RunsRounds.loses {system : Uuid} {notification : GuildNotification} {rounds : List Round}
    {s t : Database} {calls : List DbCall} (h : RunsRounds system notification rounds s calls t) {round : Round}
    (hmem : round ∈ rounds) :
    (Answered channelDeleted round.calls = true → round.LosesChannel) ∧
      (Answered systemsDeleted round.calls = true → round.LosesAll ∧ round.result = .ok ()) := by
  obtain ⟨-, u, v, houtcome⟩ := h.outcome hmem
  unfold Round.LosesAll Round.LosesChannel
  revert houtcome
  generalize Answered channelUnknown round.calls = unknown
  generalize Answered channelDeleted round.calls = channel
  generalize Answered systemsDeleted round.calls = systems
  generalize round.result = result
  intro houtcome
  cases houtcome <;> simp

theorem mem_told {rounds : List Round} {guildId : GuildId} :
    guildId ∈ (rounds.filter fun round => round.result.isOk).map Round.guildId ↔
      ∃ round ∈ rounds, round.guildId = guildId ∧ round.result = .ok () := by
  have hok : ∀ result : Except Error Unit, result.isOk = true ↔ result = .ok () := by
    intro result
    cases result <;> simp [Except.isOk, Except.toBool]
  rw [List.mem_map]
  refine exists_congr fun round => ?_
  rw [List.mem_filter, hok]
  tauto

/-- The rounds and then the delete of the guilds that were told. -/
theorem RunsRounds.unfollowed {system : Uuid} {notification : GuildNotification} {rounds : List Round}
    {s v t : Database} {calls : List DbCall} (h : RunsRounds system notification rounds s calls v) (hone : s.OneGuild)
    (hchannels : t.pkNotifyChannels = v.pkNotifyChannels)
    (hsystems : ∀ guildId system', t.Follows guildId system' ↔ v.Follows guildId system' ∧
      ¬(system' = system ∧ ∃ round ∈ rounds, round.guildId = guildId ∧ round.result = .ok ())) :
    Unfollowed system rounds Round.LosesChannel s t where
  told guildId := by
    have hdeleted : Hit systemsDeleted rounds guildId →
        ∃ round ∈ rounds, round.guildId = guildId ∧ round.result = .ok () := by
      rintro ⟨round, hround, hguild, hanswered⟩
      exact ⟨round, hround, hguild, ((h.loses hround).2 hanswered).2⟩
    rw [hsystems, h.follows, and_assoc, and_congr_right_iff]
    intro _
    exact ⟨fun hnot htold => hnot.2 ⟨rfl, htold⟩, fun hnot => ⟨mt hdeleted hnot, fun htold => hnot htold.2⟩⟩
  forgotten round hround hloses := by
    have hhit : Hit systemsDeleted rounds round.guildId := ⟨round, hround, rfl, hloses.2⟩
    refine ⟨?_, fun system' hfollow => ((h.follows _ _).mp ((hsystems _ _).mp hfollow).1).2 hhit⟩
    rw [hchannels]
    exact (h.rows hone _).1 ⟨round, hround, rfl, hloses.1.2⟩
  follows guildId system' hne hnone := by
    have hhit : ¬Hit systemsDeleted rounds guildId := by
      rintro ⟨round, hround, hguild, hanswered⟩
      exact hnone ⟨round, hround, hguild, ((h.loses hround).2 hanswered).1⟩
    rw [hsystems, h.follows]
    tauto
  channels guildId hnone := by
    have hhit : ¬Hit channelDeleted rounds guildId := by
      rintro ⟨round, hround, hguild, hanswered⟩
      exact hnone ⟨round, hround, hguild, (h.loses hround).1 hanswered⟩
    rw [hchannels, (h.rows hone _).2 hhit]

theorem Unfollowed.of_same {system : Uuid} {rounds : List Round} {loses : Round → Prop} {s u t : Database}
    (hsame : SameNotify s u) (h : Unfollowed system rounds loses u t) : Unfollowed system rounds loses s t := by
  have hfollows : ∀ guildId system', u.Follows guildId system' ↔ s.Follows guildId system' := by
    intro guildId system'
    rw [Database.Follows, Database.Follows, hsame.2]
  constructor
  · intro guildId
    rw [h.told, hfollows]
  · exact h.forgotten
  · intro guildId system' hne hnone
    rw [h.follows guildId system' hne hnone, hfollows]
  · intro guildId hnone
    rw [h.channels guildId hnone, hsame.1]

/-- The part that the two functions share. -/
theorem unfollowed_of_runs {system : ModPkSystem} {notification : GuildNotification} {s t : Database}
    {calls : List DbCall} (hone : s.OneGuild)
    (h : (do
      let guilds ← notifyGuildsForSystem system notification
      sql (.removeNotifySystemFromGuilds system.uuid guilds) : Task Unit).Runs world SameNotify s calls (.ok ()) t) :
    ∃ rounds, TellsAll system.uuid notification rounds s calls ∧
      Unfollowed system.uuid rounds Round.LosesChannel s t := by
  rcases Prog.runs_bind.mp h with ⟨e, herror, -⟩ | ⟨told, v, cs, ds, rfl, hnotify, hremove⟩
  · cases herror
  rcases Prog.runs_bind.mp hnotify with ⟨e, herror, -⟩ | ⟨guilds, u', cs, ds', rfl, hget, hguilds⟩
  · cases herror
  obtain ⟨u, hrely, hworld, rfl⟩ := runs_sql.mp hget
  have hsame : SameNotify s u' := sameNotify_call hrely hworld nofun nofun
  obtain ⟨now, ⟨hnodup, hmem⟩, hu'⟩ := hworld
  obtain ⟨rounds, rfl, hrounds, hresult⟩ := runs_notifyGuilds hguilds
  obtain rfl := Except.ok.inj hresult
  obtain ⟨w, hrely', ⟨now', ht⟩, rfl⟩ := runs_sql.mp hremove
  refine ⟨rounds, ⟨hnodup, fun guildId => ?_, _, _, ds', u', v, rfl, hrounds⟩, ?_⟩
  · rw [hmem, Database.Follows, Database.Follows, ← hrely.2]
  · refine .of_same hsame (hrounds.unfollowed (hsame.oneGuild hone) ?_ fun guildId system' => ?_)
    · rw [ht, ← hrely'.1]
    · rw [← mem_told, Database.Follows, Database.Follows, ht, Finset.mem_filter, ← hrely'.2]

/-- Both functions unfollow exactly the guilds that they tell, and delete no other channels than unknown ones. -/
theorem unfollowed_iff_told {notify : ModPkSystem → Task Unit}
    (hnotify : notify = notifySystemNotFound ∨ notify = notifyFrontPrivate) {system : ModPkSystem} {s t : Database}
    {calls : List DbCall} (hone : s.OneGuild) (h : (notify system).Runs world SameNotify s calls (.ok ()) t) :
    ∃ notification rounds, TellsAll system.uuid notification rounds s calls ∧
      Unfollowed system.uuid rounds Round.LosesChannel s t := by
  rcases hnotify with rfl | rfl
  · exact ⟨_, unfollowed_of_runs hone h⟩
  · exact ⟨_, unfollowed_of_runs hone h⟩

/-! ### Two runs -/

theorem oneGuild_exampleDatabase : exampleDatabase.OneGuild := by
  have hrow : ∀ guildId channelId, exampleDatabase.pkNotifyChannels.row guildId = some channelId →
      guildId = exampleFollower := by
    intro guildId channelId h
    by_contra hne
    rw [exampleDatabase, Table.row_upsert_of_ne _ hne] at h
    cases h
  intro guildId guildId' channelId h h'
  rw [hrow _ _ h, hrow _ _ h']

def privateNotification : GuildNotification :=
  .frontPrivate "### System Unfollowed\nCurrent fronters for `exmpl` are private, system unfollowed"

/-- The channel of the follower is deleted. -/
def channellessDatabase : Database :=
  { exampleDatabase with
    pkNotifyChannels :=
      exampleDatabase.pkNotifyChannels.deleteWhere fun _ channel => channel == exampleNotifyChannel }

/-- Its follows are deleted too. -/
def unfollowedDatabase : Database :=
  { channellessDatabase with
    pkNotifySystems := channellessDatabase.pkNotifySystems.filter (·.1 ≠ exampleFollower) }

/-- The last delete. -/
def withoutFollows (db : Database) (guilds : Finset GuildId) : Database :=
  { db with
    pkNotifySystems :=
      db.pkNotifySystems.filter fun follow => ¬(follow.2 = exampleSystem.uuid ∧ follow.1 ∈ guilds) }

/-- The calls up to the second delete. -/
def unknownChannelCalls : List DbCall :=
  let db := exampleDatabase
  [⟨.sql (.getNotifyGuildsForSystem exampleSystem.uuid), .ok [exampleFollower], db, db⟩,
    ⟨.notifying exampleFollower exampleSystem.uuid privateNotification, (), db, db⟩,
    ⟨.sql (.getNotifyChannel exampleFollower), .ok (some exampleNotifyChannel), db, db⟩,
    ⟨.createMessage exampleNotifyChannel privateNotification, .unknown, db, db⟩,
    ⟨.sql (.deleteNotifyChannel exampleNotifyChannel), .ok (), db, channellessDatabase⟩]

def allLostCalls : List DbCall :=
  let db := unfollowedDatabase
  unknownChannelCalls ++
    [⟨.sql (.deleteNotifySystems exampleFollower), .ok (), channellessDatabase, db⟩,
      ⟨.sql (.removeNotifySystemFromGuilds exampleSystem.uuid [exampleFollower]), .ok (), db,
        withoutFollows db {exampleFollower}⟩]

theorem unfollowed_iff_told_example : ∃ notification rounds,
    TellsAll exampleSystem.uuid notification rounds exampleDatabase allLostCalls ∧
      Unfollowed exampleSystem.uuid rounds Round.LosesChannel exampleDatabase
        (withoutFollows unfollowedDatabase {exampleFollower}) := by
  have hsame := SameNotify.refl
  refine @unfollowed_iff_told notifyFrontPrivate (.inr rfl) exampleSystem _ _ _ oneGuild_exampleDatabase ?_
  refine .call (hsame _) ⟨hour, ⟨List.nodup_singleton _, follows_example⟩, rfl⟩ ?_
  refine .call (hsame _) ⟨hour, rfl⟩ ?_
  refine .call (hsame _) ⟨hour, rfl, rfl⟩ ?_
  refine .call (hsame _) ⟨hour, rfl⟩ ?_
  refine .call (hsame _) ⟨hour, rfl⟩ ?_
  refine .call (hsame _) ⟨hour, rfl⟩ ?_
  exact .call (hsame _) ⟨hour, rfl⟩ (.pure _ _)

/-- The second delete fails. -/
def channelLostCalls : List DbCall :=
  let db := channellessDatabase
  unknownChannelCalls ++
    [⟨.sql (.deleteNotifySystems exampleFollower), .error "connection closed", db, db⟩,
      ⟨.sql (.removeNotifySystemFromGuilds exampleSystem.uuid []), .ok (), db, withoutFollows db ∅⟩]

/-- A guild that keeps its follows has lost its channel. -/
theorem channel_lost_alone : exampleDatabase.OneGuild ∧
    (notifyFrontPrivate exampleSystem).Runs world SameNotify exampleDatabase channelLostCalls (.ok ())
        (withoutFollows channellessDatabase ∅) ∧
      ¬∃ notification rounds, TellsAll exampleSystem.uuid notification rounds exampleDatabase channelLostCalls ∧
        Unfollowed exampleSystem.uuid rounds Round.LosesAll exampleDatabase
          (withoutFollows channellessDatabase ∅) := by
  have hsame := SameNotify.refl
  refine ⟨oneGuild_exampleDatabase, ?_, ?_⟩
  · refine .call (hsame _) ⟨hour, ⟨List.nodup_singleton _, follows_example⟩, rfl⟩ ?_
    refine .call (hsame _) ⟨hour, rfl⟩ ?_
    refine .call (hsame _) ⟨hour, rfl, rfl⟩ ?_
    refine .call (hsame _) ⟨hour, rfl⟩ ?_
    refine .call (hsame _) ⟨hour, rfl⟩ ?_
    refine .call (hsame _) ⟨hour, rfl⟩ ?_
    exact .call (hsame _) ⟨hour, rfl⟩ (.pure _ _)
  · rintro ⟨notification, rounds, ⟨-, -, first, last, cs, u, v, hcalls, hrounds⟩, hunfollowed⟩
    have hnone : ¬∃ round ∈ rounds, round.guildId = exampleFollower ∧ round.LosesAll := by
      rintro ⟨round, hround, -, -, hanswered⟩
      obtain ⟨c, hc, hdeleted⟩ := List.any_eq_true.mp hanswered
      have hmem : c ∈ channelLostCalls := by
        rw [hcalls]
        exact List.mem_cons_of_mem _ (List.mem_append_left _ ((hrounds.outcome hround).1 hc))
      simp only [channelLostCalls, unknownChannelCalls, List.cons_append, List.nil_append, List.mem_cons,
        List.not_mem_nil, or_false] at hmem
      rcases hmem with rfl | rfl | rfl | rfl | rfl | rfl | rfl <;> cases hdeleted
    have hrow := hunfollowed.channels exampleFollower hnone
    revert hrow
    decide

end Tulpje.Pluralkit
