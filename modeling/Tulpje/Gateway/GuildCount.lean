import Tulpje.Gateway.ShardReporter

/-!
# The guild count of a shard

`guild_ids` accumulates over the life of the reporter, while a `Ready` names the guilds of a new session.
`session` is the set that is to be counted. The set of the reporter contains it at all times, and the two are
equal as long as each `Ready` lists the guilds of the session before it: no other event treats them differently
(`counts_session_iff`).
-/

namespace Tulpje.Gateway

open Lib

/-! ### The two sets -/

/-- The guilds of the session after an event. -/
def sessionAfter (session : Finset GuildId) : ReporterEvent → Finset GuildId
  | .event (.ready guilds) => guilds.toFinset
  | .event (.guildCreate id) => insert id session
  | .event (.guildDelete id) => session.erase id
  | _ => session

/-- `guild_ids` after an event. -/
def guildIdsAfter (guildIds : Finset GuildId) : ReporterEvent → Finset GuildId
  | .event (.ready guilds) => guildIds ∪ guilds.toFinset
  | .event (.guildCreate id) => insert id guildIds
  | .event (.guildDelete id) => guildIds.erase id
  | _ => guildIds

/-- An event and the surroundings of its `handle_event`. -/
abbrev Handled := ReporterEvent × Surroundings

/-- The guilds of the session after all events so far. -/
def session (events : List Handled) : Finset GuildId :=
  events.foldl (fun session e => sessionAfter session e.1) ∅

/-- A `Ready` lists the guilds of the session before it. -/
def Restates (session : Finset GuildId) (e : Handled) : Prop :=
  match e.1 with
  | .event (.ready guilds) => session ⊆ guilds.toFinset
  | _ => True

instance (session : Finset GuildId) (e : Handled) : Decidable (Restates session e) := by
  unfold Restates
  split <;> infer_instance

/-- The events one after the other; `none` when one of them panics. -/
def ShardReporter.handleAll (self : ShardReporter) (events : List Handled) : Option ShardReporter :=
  events.foldlM (fun reporter e => (reporter.handleEvent e.2 e.1).map Prod.snd) self

/-- The guild count is the number of these guilds, and what is published has the same guild count. -/
def ShardReporter.Counts (self : ShardReporter) (guilds : Finset GuildId) : Prop :=
  self.shard.guildCount.toNat = guilds.card ∧
    ∀ shard ∈ self.shardStatus, shard.guildCount = self.shard.guildCount

/-! ### One event -/

section Event
variable {reporter reporter' : ShardReporter} {env : Surroundings} {result : Except String Unit}

theorem tryIntoU64_toNat {n : Nat} {count : UInt64} (h : tryIntoU64 n = some count) : count.toNat = n := by
  unfold tryIntoU64 at h
  split_ifs at h with hlt
  rw [← Option.some.inj h, UInt64.toNat_ofNat_of_lt' hlt]

theorem saveShard_eq (hredis : env.redis = .ok ()) :
    reporter.saveShard env = (.ok (), { reporter with shardStatus := some reporter.shard }) := by
  unfold ShardReporter.saveShard
  rw [hredis]

theorem saveShard_counts (hredis : env.redis = .ok ()) (changed : ShardReporter) {guilds : Finset GuildId}
    (h : changed.shard.guildCount.toNat = guilds.card) :
    (changed.saveShard env).2.Counts guilds ∧ (changed.saveShard env).2.guildIds = changed.guildIds := by
  rw [saveShard_eq hredis]
  refine ⟨⟨h, fun shard hshard => ?_⟩, rfl⟩
  rw [← Option.some.inj hshard]

theorem countGuilds_counts (hredis : env.redis = .ok ()) {guildIds : Finset GuildId}
    {shard : Common.ShardState} (h : reporter.countGuilds env guildIds shard = some (result, reporter')) :
    reporter'.Counts guildIds ∧ reporter'.guildIds = guildIds := by
  obtain ⟨count, hcount, h⟩ := Option.bind_eq_some_iff.mp h
  have hsaved := saveShard_counts hredis
    { reporter with guildIds := guildIds, shard := { shard with guildCount := count } }
    (tryIntoU64_toNat hcount)
  rwa [Option.some.inj h] at hsaved

theorem handleEvent_counts (hredis : env.redis = .ok ()) (hcounts : reporter.Counts reporter.guildIds)
    {event : ReporterEvent} (h : reporter.handleEvent env event = some (result, reporter')) :
    reporter'.Counts reporter'.guildIds ∧ reporter'.guildIds = guildIdsAfter reporter.guildIds event := by
  -- the events that only save another state
  have hsave : ∀ changed : ShardReporter, some (changed.saveShard env) = some (result, reporter') →
      changed.guildIds = reporter.guildIds → changed.shard.guildCount = reporter.shard.guildCount →
        reporter'.Counts reporter'.guildIds ∧ reporter'.guildIds = reporter.guildIds := by
    intro changed heq hids hshard
    have hcount : changed.shard.guildCount.toNat = reporter.guildIds.card := hshard ▸ hcounts.1
    have hsaved := saveShard_counts hredis changed hcount
    rw [Option.some.inj heq, hids] at hsaved
    exact ⟨hsaved.2 ▸ hsaved.1, hsaved.2⟩
  have hcount : ∀ guildIds shard, reporter.countGuilds env guildIds shard = some (result, reporter') →
      reporter'.Counts reporter'.guildIds ∧ reporter'.guildIds = guildIds := by
    intro guildIds shard heq
    obtain ⟨hcounts, hids⟩ := countGuilds_counts hredis heq
    exact ⟨hids ▸ hcounts, hids⟩
  have hsame : some (Except.ok (), reporter) = some (result, reporter') →
      reporter'.Counts reporter'.guildIds ∧ reporter'.guildIds = reporter.guildIds := by
    rintro ⟨⟩
    exact ⟨hcounts, rfl⟩
  cases event with
  | gatewayHeartbeatAck event latency =>
    obtain ⟨now, -, h⟩ := Option.bind_eq_some_iff.mp h
    obtain ⟨recent, -, h⟩ := Option.bind_eq_some_iff.mp h
    obtain ⟨latency, -, h⟩ := Option.bind_eq_some_iff.mp h
    exact hsave _ h rfl rfl
  | event event =>
    cases event with
    | gatewayHello interval =>
      change reporter.helloed env interval = some (result, reporter') at h
      unfold ShardReporter.helloed at h
      split_ifs at h
      · obtain ⟨now, -, h⟩ := Option.bind_eq_some_iff.mp h
        exact hsave _ h rfl rfl
      · cases h
        exact ⟨hcounts, rfl⟩
    | ready guilds => exact hcount _ _ h
    | resumed =>
      obtain ⟨now, -, h⟩ := Option.bind_eq_some_iff.mp h
      exact hsave _ h rfl rfl
    | guildCreate id =>
      change reporter.guildCreated env id = some (result, reporter') at h
      unfold ShardReporter.guildCreated at h
      split_ifs at h with hmem
      · rw [guildIdsAfter, Finset.insert_eq_of_mem hmem]
        exact hsame h
      · exact hcount _ _ h
    | guildDelete id =>
      change reporter.guildDeleted env id = some (result, reporter') at h
      unfold ShardReporter.guildDeleted at h
      split_ifs at h with hmem
      · exact hcount _ _ h
      · rw [guildIdsAfter, Finset.erase_eq_of_notMem hmem]
        exact hsame h
    | gatewayClose frame => exact hsave _ h rfl rfl
    | gatewayHeartbeatAck | other => exact hsame h

end Event

/-! ### A run -/

theorem handleAll_counts {reporter last : ShardReporter} (hcounts : reporter.Counts reporter.guildIds)
    {events : List Handled} (hredis : ∀ e ∈ events, e.2.redis = .ok ())
    (h : reporter.handleAll events = some last) :
    last.Counts last.guildIds ∧
      last.guildIds = events.foldl (fun guildIds e => guildIdsAfter guildIds e.1) reporter.guildIds := by
  induction events generalizing reporter with
  | nil =>
    obtain rfl : reporter = last := Option.some.inj h
    exact ⟨hcounts, rfl⟩
  | cons e events ih =>
    obtain ⟨hone, hredis⟩ := List.forall_mem_cons.mp hredis
    rw [ShardReporter.handleAll, List.foldlM_cons] at h
    obtain ⟨next, hnext, h⟩ := Option.bind_eq_some_iff.mp h
    obtain ⟨⟨result, _⟩, hevent, rfl⟩ := Option.map_eq_some_iff.mp hnext
    obtain ⟨hcounts, hids⟩ := handleEvent_counts hone hcounts hevent
    rw [List.foldl_cons, ← hids]
    exact ih hcounts hredis h

theorem handleAll_of_isPrefix {reporter last : ShardReporter} {pre events : List Handled} (hpre : pre <+: events)
    (h : reporter.handleAll events = some last) : ∃ middle, reporter.handleAll pre = some middle := by
  obtain ⟨post, rfl⟩ := hpre
  rw [ShardReporter.handleAll, List.foldlM_append] at h
  obtain ⟨middle, hmiddle, -⟩ := Option.bind_eq_some_iff.mp h
  exact ⟨middle, hmiddle⟩

/-- The set of the reporter and the session. -/
abbrev Sets := Finset GuildId × Finset GuildId

def setsAfter (sets : Sets) (e : Handled) : Sets := (guildIdsAfter sets.1 e.1, sessionAfter sets.2 e.1)

theorem session_subset_step {sets : Sets} (h : sets.2 ⊆ sets.1) (e : Handled) :
    (setsAfter sets e).2 ⊆ (setsAfter sets e).1 := by
  obtain ⟨event, env⟩ := e
  cases event with
  | gatewayHeartbeatAck => exact h
  | event event =>
    cases event with
    | ready guilds => exact Finset.subset_union_right
    | guildCreate id => exact Finset.insert_subset_insert id h
    | guildDelete id => exact Finset.erase_subset_erase id h
    | _ => exact h

/-- From equal sets an event leads to equal sets, unless it is a `Ready` that leaves out a guild. -/
theorem sets_eq_step {sets : Sets} (h : sets.1 = sets.2) (e : Handled) :
    (setsAfter sets e).1 = (setsAfter sets e).2 ↔ Restates sets.2 e := by
  obtain ⟨guildIds, session⟩ := sets
  obtain ⟨event, env⟩ := e
  obtain rfl : guildIds = session := h
  cases event with
  | gatewayHeartbeatAck => exact iff_of_true rfl trivial
  | event event =>
    cases event with
    | ready guilds => exact Finset.union_eq_right
    | _ => exact iff_of_true rfl trivial

theorem sets_run (events : List Handled) :
    events.foldl setsAfter (∅, ∅) =
      (events.foldl (fun guildIds e => guildIdsAfter guildIds e.1) ∅, session events) := by
  refine Prod.ext ?_ ?_
  · exact (List.foldl_hom Prod.fst fun _ _ => rfl).symm
  · exact (List.foldl_hom Prod.snd fun _ _ => rfl).symm

/-- After each event of a run without Redis errors the guild count, in memory and published, is the size of
the session, exactly if each `Ready` of the run lists the guilds of the session before it. -/
theorem counts_session_iff (shardId : UInt32) (now : UInt64) (events : List Handled) {last : ShardReporter}
    (hhandled : (ShardReporter.new shardId now).handleAll events = some last)
    (hredis : ∀ e ∈ events, e.2.redis = .ok ()) :
    (∀ pre, pre <+: events → ∀ reporter, (ShardReporter.new shardId now).handleAll pre = some reporter →
        reporter.Counts (session pre)) ↔
      AllSteps (fun session e => sessionAfter session e.1) Restates ∅ events := by
  have hsets : (∀ pre, pre <+: events → (pre.foldl setsAfter (∅, ∅)).1 = (pre.foldl setsAfter (∅, ∅)).2) ↔
      AllSteps setsAfter (fun sets e => Restates sets.2 e) (∅, ∅) events :=
    forall_prefix_iff_allSteps (fun sets : Sets => sets.2 ⊆ sets.1) (fun sets : Sets => sets.1 = sets.2)
      (fun _ e h _ => session_subset_step h e) (fun _ e _ (_ : True) h => sets_eq_step h e) (fun _ _ => trivial)
      (Finset.Subset.refl _) rfl
  have hview : AllSteps setsAfter (fun sets e => Restates sets.2 e) (∅, ∅) events ↔
      AllSteps (fun session e => sessionAfter session e.1) Restates ∅ events :=
    allSteps_view Prod.snd (fun _ _ => rfl) _ events
  rw [← hview, ← hsets]
  refine forall₂_congr fun pre hpre => ?_
  obtain ⟨reporter, hreporter⟩ := handleAll_of_isPrefix hpre hhandled
  have hnew : (ShardReporter.new shardId now).Counts (ShardReporter.new shardId now).guildIds :=
    ⟨rfl, nofun⟩
  obtain ⟨hcounts, hids⟩ := handleAll_counts hnew (fun e he => hredis e (hpre.subset he)) hreporter
  have hsubset : session pre ⊆ reporter.guildIds := by
    have hkeep : (pre.foldl setsAfter (∅, ∅)).2 ⊆ (pre.foldl setsAfter (∅, ∅)).1 :=
      foldl_invariant (fun sets : Sets => sets.2 ⊆ sets.1) (fun _ e h => session_subset_step h e)
        (Finset.Subset.refl _) pre
    rw [sets_run] at hkeep
    rw [hids]
    exact hkeep
  rw [sets_run]
  show _ ↔ pre.foldl (fun guildIds e => guildIdsAfter guildIds e.1) ∅ = session pre
  rw [show pre.foldl _ ∅ = reporter.guildIds from hids.symm]
  constructor
  · intro h
    refine (Finset.eq_of_subset_of_card_le hsubset ?_).symm
    rw [← hcounts.1, (h reporter hreporter).1]
  · intro heq reporter' hreporter'
    obtain rfl : reporter = reporter' := Option.some.inj (hreporter.symm.trans hreporter')
    rwa [← heq]

/-- Two sessions, with a lost connection in between. -/
def twoSessions (first second : List GuildId) : List Handled :=
  let up : Surroundings := ⟨some 1700000000, .ok ()⟩
  [(.event (.ready first), up), (.event (.gatewayClose none), up), (.event (.ready second), up)]

/-- The second `Ready` restates both guilds and lists a new one. -/
theorem counts_restated_guilds :
    ∃ reporter, (ShardReporter.new 0 1700000000).handleAll (twoSessions [111, 222] [222, 333, 111]) = some reporter ∧
      reporter.Counts (session (twoSessions [111, 222] [222, 333, 111])) := by
  have hhandled : (ShardReporter.new 0 1700000000).handleAll (twoSessions [111, 222] [222, 333, 111]) =
      some _ := rfl
  have hredis : ∀ e ∈ twoSessions [111, 222] [222, 333, 111], e.2.redis = .ok () := by simp [twoSessions]
  exact ⟨_, hhandled, (counts_session_iff 0 1700000000 _ hhandled hredis).mpr (by decide) _ List.prefix_rfl _ hhandled⟩

/-- The guild 222 was left while the connection was lost. -/
theorem counts_left_guild :
    ∃ reporter, (ShardReporter.new 0 1700000000).handleAll (twoSessions [111, 222] [111]) = some reporter ∧
      reporter.shard.guildCount = 2 ∧ (session (twoSessions [111, 222] [111])).card = 1 :=
  ⟨_, rfl, rfl, rfl⟩

end Tulpje.Gateway
