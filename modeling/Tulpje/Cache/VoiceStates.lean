import Tulpje.Cache.Frame
import Tulpje.Lib.Placed

/-!
# The three stores of voice states

Where a user is connected is stored three times: the record under guild and user, the user in the set of the
guild, and guild and user in the set of the channel. `VoiceAgree` says that the three agree. A method cleans
the channel set through the record that it is about to replace, so it needs the invariant to keep it:
after the cleaning `VoiceVacant` holds, in which the pair is in no channel set and nothing else changed.
-/

namespace Tulpje.Cache

open Twilight Lib

structure VoiceAgree (s : State) : Prop where
  guilds : ∀ g u, u ∈ s.sets .voiceStateGuilds g ↔ ∃ v, s.hashes .voiceStates (g, u) = some v
  channels : ∀ c g u, (g, u) ∈ s.sets .voiceStateChannels c ↔
    ∃ v, s.hashes .voiceStates (g, u) = some v ∧ v.channelId = c

theorem voiceAgree_empty : VoiceAgree .empty where
  guilds _ _ := by simp
  channels _ _ _ := by simp

/-- A user is in the set of at most one channel of a guild. -/
theorem VoiceAgree.channel_unique {s : State} (h : VoiceAgree s) {c c' : Id .channel} {g : Id .guild}
    {u : Id .user} (hc : (g, u) ∈ s.sets .voiceStateChannels c)
    (hc' : (g, u) ∈ s.sets .voiceStateChannels c') : c = c' := by
  obtain ⟨v, hv, rfl⟩ := (h.channels c g u).mp hc
  obtain ⟨v', hv', rfl⟩ := (h.channels c' g u).mp hc'
  rw [hv] at hv'
  rw [Option.some.inj hv']

theorem voiceAgree_dependsOn :
    DependsOn [.hash .voiceStates, .set .voiceStateChannels, .set .voiceStateGuilds] VoiceAgree := by
  intro s t h hs
  have hstates : t.hashes .voiceStates = s.hashes .voiceStates := h (.hash .voiceStates) (by decide)
  have hchannels : t.sets .voiceStateChannels = s.sets .voiceStateChannels :=
    h (.set .voiceStateChannels) (by decide)
  have hguilds : t.sets .voiceStateGuilds = s.sets .voiceStateGuilds :=
    h (.set .voiceStateGuilds) (by decide)
  constructor
  · rw [hstates, hguilds]
    exact hs.guilds
  · rw [hstates, hchannels]
    exact hs.channels

/-! ### Leaving and entering a channel -/

section Move
variable {s : State} {g : Id .guild} {u : Id .user}

/-- The stores agree but for one pair, which is in no channel set. -/
structure VoiceVacant (s : State) (g : Id .guild) (u : Id .user) : Prop where
  guilds : ∀ g' u', (g', u') ≠ (g, u) →
    (u' ∈ s.sets .voiceStateGuilds g' ↔ ∃ v, s.hashes .voiceStates (g', u') = some v)
  channels : ∀ c g' u', (g', u') ≠ (g, u) → ((g', u') ∈ s.sets .voiceStateChannels c ↔
    ∃ v, s.hashes .voiceStates (g', u') = some v ∧ v.channelId = c)
  vacant : ∀ c, (g, u) ∉ s.sets .voiceStateChannels c

theorem VoiceAgree.vacant_of_none (h : VoiceAgree s) (hnone : s.hashes .voiceStates (g, u) = none) :
    VoiceVacant s g u where
  guilds g' u' _ := h.guilds g' u'
  channels c g' u' _ := h.channels c g' u'
  vacant c hc := by
    obtain ⟨v, hv, -⟩ := (h.channels c g u).mp hc
    rw [hnone] at hv
    cases hv

theorem mem_srem_channel {previous c : Id .channel} {p p' : Id .guild × Id .user} :
    p' ∈ (s.srem .voiceStateChannels previous {p}).sets .voiceStateChannels c ↔
      p' ∈ s.sets .voiceStateChannels c ∧ ¬ (c = previous ∧ p' = p) := by
  rw [State.srem_self]
  by_cases hc : c = previous
  · subst hc
    rw [Function.update_self, Finset.mem_sdiff, Finset.mem_singleton]
    simp
  · rw [Function.update_of_ne hc]
    simp [hc]

theorem VoiceAgree.vacant_of_some (h : VoiceAgree s) {previous : CachedVoiceState}
    (hsome : s.hashes .voiceStates (g, u) = some previous) :
    VoiceVacant (s.srem .voiceStateChannels previous.channelId {(g, u)}) g u where
  guilds g' u' _ := by
    rw [State.srem_of_ne _ _ _ (by decide), State.srem_hashes]
    exact h.guilds g' u'
  channels c g' u' hne := by
    rw [mem_srem_channel, State.srem_hashes, and_iff_left fun hc => hne hc.2]
    exact h.channels c g' u'
  vacant c hc := by
    rw [mem_srem_channel] at hc
    obtain ⟨v, hv, hchannel⟩ := (h.channels c g u).mp hc.1
    rw [hsome] at hv
    exact hc.2 ⟨hchannel ▸ Option.some.inj hv ▸ rfl, rfl⟩

theorem VoiceVacant.enter (h : VoiceVacant s g u) (v : CachedVoiceState) :
    VoiceAgree (((s.hset .voiceStates (g, u) v).sadd .voiceStateGuilds g u).sadd .voiceStateChannels
      v.channelId (g, u)) := by
  refine ⟨fun g' u' => ?_, fun c g' u' => ?_⟩
  · rw [State.sadd_of_ne _ _ _ (by decide), State.sadd_self, State.sadd_hashes, State.sadd_hashes,
      State.hset_self, State.hset_sets]
    exact Placing.listed_put h.guilds v g' u'
  · rw [State.sadd_self, State.sadd_hashes, State.sadd_hashes, State.hset_self,
      State.sadd_of_ne _ _ _ (by decide), State.hset_sets]
    by_cases hp : (g', u') = (g, u)
    · cases hp
      rw [Function.update_self]
      by_cases hc : c = v.channelId
      · subst hc
        rw [Function.update_self]
        exact iff_of_true (Finset.mem_insert_self ..) ⟨v, rfl, rfl⟩
      · rw [Function.update_of_ne hc]
        refine iff_of_false (h.vacant c) ?_
        rintro ⟨v', hv', rfl⟩
        exact hc (Option.some.inj hv' ▸ rfl)
    · rw [Function.update_of_ne hp, ← h.channels c g' u' hp]
      by_cases hc : c = v.channelId
      · subst hc
        rw [Function.update_self, Finset.mem_insert, or_iff_right hp]
      · rw [Function.update_of_ne hc]

theorem VoiceVacant.leave (h : VoiceVacant s g u) :
    VoiceAgree ((s.srem .voiceStateGuilds g {u}).hdel .voiceStates {(g, u)}) := by
  refine ⟨fun g' u' => ?_, fun c g' u' => ?_⟩
  · rw [State.hdel_sets, State.srem_self, State.hdel_self, State.srem_hashes]
    exact Placing.listed_remove h.guilds g' u'
  · rw [State.hdel_sets, State.hdel_self, State.srem_hashes, State.srem_of_ne _ _ _ (by decide)]
    dsimp only
    by_cases hp : (g', u') = (g, u)
    · cases hp
      rw [if_pos (Finset.mem_singleton_self _)]
      simpa using h.vacant c
    · rw [if_neg fun hmem => hp (Finset.mem_singleton.mp hmem)]
      exact h.channels c g' u' hp

end Move

/-! ### Events -/

section Events
variable {self : Cache} (hw : self.config.wants .voiceState = true)
include hw

/-- The user is taken out of the channel of the previous record before `p` writes the next one. -/
theorem wp_leavePrevious {p : CacheM Unit} {Q : Unit → State → Prop} {E : State → Prop} {g : Id .guild}
    {u : Id .user} {s : State} (hs : VoiceAgree s) (hp : ∀ t, VoiceVacant t g u → p.wp eval Q E t) :
    (do
      let previous ← self.voiceStates.get (g, u)
      previous.forM fun previous => do
        let _ ← self.voiceStateChannels.remove previous.channelId (g, u)
        pure ()
      p).wp eval Q E s := by
  refine Prog.wp_bind.mpr ((Repository.wp_get_new ..).mpr (Prog.wp_bind.mpr ?_))
  rcases hprevious : s.hashes .voiceStates (g, u) with _ | previous
  · exact hp s (hs.vacant_of_none hprevious)
  · simp only [wp_forM_some, Prog.wp_bind, self.voiceStateChannels.wp_remove _ hw, Prog.wp_pure]
    exact hp _ (hs.vacant_of_some hprevious)

theorem keeps_cacheVoiceState (voiceState : VoiceState) :
    Prog.Keeps eval VoiceAgree (self.cacheVoiceState voiceState) := by
  refine keeps_forM fun g _ => ?_
  intro s hs
  refine wp_leavePrevious hw hs fun t ht => ?_
  cases voiceState.channelId with
  | some channelId =>
    simp only [voiceStates, Prog.wp_bind, Repository.wp_insert_new hw, self.voiceStateGuilds.wp_insert g hw,
      self.voiceStateChannels.wp_insert channelId hw,
      Prog.wp_pure]
    exact ht.enter (.fromVoiceState channelId g voiceState)
  | none =>
    simp only [voiceStates, Prog.wp_bind, self.voiceStateGuilds.wp_remove g hw,
      Repository.wp_remove_new hw,
      Prog.wp_pure]
    exact ht.leave

theorem keeps_voiceStateUpdate (voiceState : VoiceState) :
    Prog.Keeps eval VoiceAgree (self.voiceStateUpdate voiceState) := by
  refine (keeps_cacheVoiceState hw voiceState).bind fun _ => keeps_forM fun g _ => keeps_forM fun member _ => ?_
  exact (touches_cacheMember g member).keeps voiceAgree_dependsOn (by decide)

theorem keeps_cacheGuild_voiceAgree (guild : Guild) :
    Prog.Keeps eval VoiceAgree (self.cacheGuild guild) := by
  refine keeps_cacheGuild fun step => ?_
  cases step with
  | voiceStates => exact Prog.Keeps.forM fun voiceState _ => keeps_cacheVoiceState hw voiceState
  | _ => exact (GuildStep.touches _).keeps voiceAgree_dependsOn (by decide)

end Events

/-- `VoiceStateUpdate` and available `GuildCreate`. -/
def IsVoiceEvent : Event → Prop
  | .voiceStateUpdate _ | .guildCreate (.available _) => True
  | _ => False

/-- After any sequence of voice state updates and available guilds the three stores agree; so no user is
in the sets of two channels of a guild. -/
theorem voice_stores_agree (self : Cache) (hw : self.config.wants .voiceState = true)
    (events : List Event) (hevents : ∀ event ∈ events, IsVoiceEvent event) :
    VoiceAgree (self.applyEvents events .empty) ∧
      ∀ c c' g u, (g, u) ∈ (self.applyEvents events .empty).sets .voiceStateChannels c →
        (g, u) ∈ (self.applyEvents events .empty).sets .voiceStateChannels c' → c = c' := by
  have hagree : VoiceAgree (self.applyEvents events .empty) := by
    refine applyEvents_keeps (fun event hevent => ?_) voiceAgree_empty
    have hvoice := hevents event hevent
    cases event with
    | voiceStateUpdate voiceState => exact keeps_voiceStateUpdate hw voiceState
    | guildCreate guild =>
      cases guild with
      | available guild => exact keeps_cacheGuild_voiceAgree hw guild
      | unavailable guild => exact hvoice.elim
    | _ => exact hvoice.elim
  exact ⟨hagree, fun c c' g u => hagree.channel_unique⟩

/-- A user joins a channel, moves to another one and leaves. -/
theorem voice_stores_agree_of_move :
    let left : VoiceState :=
      ⟨none, false, some ⟨1, by decide⟩, none, false, none, false, false, false, false, "", false,
        ⟨7, by decide⟩⟩
    let moves : List Event :=
      [.voiceStateUpdate { left with channelId := some ⟨2, by decide⟩ },
        .voiceStateUpdate { left with channelId := some ⟨3, by decide⟩ }, .voiceStateUpdate left]
    VoiceAgree ((new (.all 100)).applyEvents moves .empty) := by
  exact (voice_stores_agree (new (.all 100)) rfl _ (by simp [IsVoiceEvent])).1

end Tulpje.Cache
