import Tulpje.Cache.DeleteGuild
import Tulpje.Cache.Slots
import Tulpje.Lib.Run

/-!
# The status of a guild

Two stores say whether a guild is known and available: its record in `guilds` and its place in
`unavailable_guilds`. `GuildStatus` is the machine that they stand for and `HasStatus` how they encode it.
`TracksStatus f` is the invariant: every guild has the status that `f` gives it. Counting members and updating
a guild rewrite the record, which must then be stored under its own id.

`GuildDelete` leaves `unavailable_guilds` as it is, whatever its `unavailable` says, so it makes a guild unknown
only if it was not unavailable and an outage is only recorded if it was.
-/

namespace Tulpje.Cache

open Twilight Lib

/-! ### The machine and its encoding -/

inductive GuildStatus
  | unknown
  | available
  | unavailable
  deriving DecidableEq

/-- What an event makes of the status of guild `g`. -/
def GuildStatus.next (g : Id .guild) (status : GuildStatus) : Event → GuildStatus
  | .guildCreate (.available guild) => if guild.id = g then .available else status
  | .guildCreate (.unavailable guild) | .unavailableGuild guild =>
    if guild.id = g then .unavailable else status
  | .ready ready => if g ∈ ready.guilds.map (·.id) then .unavailable else status
  | .guildDelete guild =>
    if guild.id = g then if guild.unavailable = some true then .unavailable else .unknown else status
  | _ => status

def HasStatus (s : State) (g : Id .guild) : GuildStatus → Prop
  | .unknown => s.hashes .guilds g = none ∧ g ∉ s.sets .unavailableGuilds ()
  | .available =>
    (∃ guild, s.hashes .guilds g = some guild ∧ guild.unavailable ≠ some true) ∧
      g ∉ s.sets .unavailableGuilds ()
  | .unavailable =>
    g ∈ s.sets .unavailableGuilds () ∧
      ∀ guild, s.hashes .guilds g = some guild → guild.unavailable = some true

/-- A guild has at most one status. -/
theorem HasStatus.unique {s : State} {g : Id .guild} {status status' : GuildStatus}
    (h : HasStatus s g status) (h' : HasStatus s g status') : status = status' := by
  cases status <;> cases status' <;> simp only [HasStatus] at h h' <;> first | rfl | exfalso
  · obtain ⟨guild, hguild, -⟩ := h'.1
    rw [h.1] at hguild
    cases hguild
  · exact h.2 h'.1
  · obtain ⟨guild, hguild, -⟩ := h.1
    rw [h'.1] at hguild
    cases hguild
  · exact h.2 h'.1
  · exact h'.2 h.1
  · exact h'.2 h.1

theorem HasStatus.congr {s t : State} {g : Id .guild} {status : GuildStatus}
    (hguild : t.hashes .guilds g = s.hashes .guilds g)
    (hset : g ∈ t.sets .unavailableGuilds () ↔ g ∈ s.sets .unavailableGuilds ())
    (h : HasStatus s g status) : HasStatus t g status := by
  cases status <;> simp only [HasStatus, hguild, hset] at h ⊢ <;> exact h

structure TracksStatus (f : Id .guild → GuildStatus) (s : State) : Prop where
  id : ∀ g guild, s.hashes .guilds g = some guild → guild.id = g
  status : ∀ g, HasStatus s g (f g)

theorem tracksStatus_empty : TracksStatus (fun _ => .unknown) .empty := by
  refine ⟨fun g guild hguild => ?_, fun g => ⟨rfl, Finset.notMem_empty g⟩⟩
  cases hguild

section Tracks
variable {f : Id .guild → GuildStatus} {s : State}

theorem tracksStatus_dependsOn : DependsOn [.hash .guilds, .set .unavailableGuilds] (TracksStatus f) := by
  intro s t h hs
  have hguilds : t.hashes .guilds = s.hashes .guilds := h (.hash .guilds) (by decide)
  have hset : t.sets .unavailableGuilds = s.sets .unavailableGuilds := h (.set .unavailableGuilds) (by decide)
  refine ⟨?_, fun g => (hs.status g).congr (congrFun hguilds g) (by rw [hset])⟩
  rw [hguilds]
  exact hs.id

/-- One guild changes its status, and nothing is written about another one. -/
theorem TracksStatus.move (h : TracksStatus f s) {t : State} {g : Id .guild} {status : GuildStatus}
    (hguilds : ∀ g' ≠ g, t.hashes .guilds g' = s.hashes .guilds g')
    (hset : ∀ g' ≠ g, g' ∈ t.sets .unavailableGuilds () ↔ g' ∈ s.sets .unavailableGuilds ())
    (hid : ∀ guild, t.hashes .guilds g = some guild → guild.id = g) (hstatus : HasStatus t g status) :
    TracksStatus (Function.update f g status) t := by
  constructor
  · intro g' guild hguild
    by_cases hg : g' = g
    · subst hg
      exact hid guild hguild
    · rw [hguilds g' hg] at hguild
      exact h.id g' guild hguild
  · intro g'
    by_cases hg : g' = g
    · subst hg
      rw [Function.update_self]
      exact hstatus
    · rw [Function.update_of_ne hg]
      exact (h.status g').congr (hguilds g' hg) (hset g' hg)

/-- The record is written back with the same id and availability. -/
theorem TracksStatus.rewrite (h : TracksStatus f s) {g : Id .guild} {guild : CachedGuild}
    (guild' : CachedGuild) (hguild : s.hashes .guilds g = some guild) (hid : guild'.id = guild.id)
    (hunavailable : guild'.unavailable = guild.unavailable) :
    TracksStatus f (s.hset .guilds guild'.id guild') := by
  have hkey : guild'.id = g := hid.trans (h.id g guild hguild)
  rw [hkey]
  have hsame : Function.update f g (f g) = f := Function.update_eq_self g f
  rw [← hsame]
  refine h.move (fun g' hg => ?_) (fun g' _ => Iff.rfl) (fun written hwritten => ?_) ?_
  · rw [State.hset_self, Function.update_of_ne hg]
  · rw [State.hset_self, Function.update_self] at hwritten
    exact Option.some.inj hwritten ▸ hkey
  · have hstatus := h.status g
    cases hf : f g with
    | unknown =>
      rw [hf, HasStatus, hguild] at hstatus
      cases hstatus.1
    | available =>
      rw [hf] at hstatus
      obtain ⟨⟨record, hrecord, hne⟩, hnot⟩ := hstatus
      refine ⟨⟨guild', by rw [State.hset_self, Function.update_self], ?_⟩, hnot⟩
      rw [hunavailable, Option.some.inj (hguild.symm.trans hrecord)]
      exact hne
    | unavailable =>
      rw [hf] at hstatus
      refine ⟨hstatus.1, fun written hwritten => ?_⟩
      rw [State.hset_self, Function.update_self] at hwritten
      rw [← Option.some.inj hwritten, hunavailable]
      exact hstatus.2 guild hguild

end Tracks

/-! ### What the methods make of it -/

section Methods
variable {self : Cache} {f : Id .guild → GuildStatus}

/-- Two methods write a record only to count a member or to update the guild. -/
theorem keeps_changeMemberCount_status (g : Id .guild) (change : UInt64 → UInt64) :
    Prog.Keeps eval (TracksStatus f) (self.changeMemberCount g change) :=
  keeps_modify fun _ guild hs hguild =>
    hs.rewrite { guild with memberCount := guild.memberCount.map change } hguild rfl rfl

theorem keeps_updateGuild_status (guildUpdate : GuildUpdate) :
    Prog.Keeps eval (TracksStatus f) (self.updateGuild guildUpdate) :=
  keeps_modify fun _ guild hs hguild => hs.rewrite (guild.updateWithGuildUpdate guildUpdate) hguild rfl rfl

theorem safe_deleteGuildContents (g : Id .guild) :
    Prog.Safe eval (TracksStatus f) (self.deleteGuildContents g) := by
  have htouches : Touches contentAreas False (self.deleteGuildContents g) := touches_deleteGuildContents g
  exact Prog.Safe.of_keeps (htouches.keeps tracksStatus_dependsOn (by decide)) htouches

variable (hw : self.config.wants .guild = true)
include hw

theorem wp_unavailableGuild {s : State} (hs : TracksStatus f s) (g : Id .guild) :
    (self.unavailableGuild g).wp eval (fun _ => TracksStatus (Function.update f g .unavailable))
      (fun _ => False) s := by
  have hinsert := self.unavailableGuilds.exec_insert hw g s
  refine Prog.wp_bind.mpr ((Prog.wp_of_exec hinsert).mpr ?_)
  rw [deleteGuild_eq]
  have hother : ∀ g' ≠ g, g' ∈ (s.sadd .unavailableGuilds () g).sets .unavailableGuilds () ↔
      g' ∈ s.sets .unavailableGuilds () := by
    intro g' hg
    rw [State.sadd_self, Function.update_self, Finset.mem_insert, or_iff_right hg]
  have hmem : g ∈ (s.sadd .unavailableGuilds () g).sets .unavailableGuilds () := by
    rw [State.sadd_self, Function.update_self]
    exact Finset.mem_insert_self ..
  refine Prog.wp_bind.mpr (Prog.wp_bind.mpr ((Repository.wp_get_new _).mpr ?_))
  have hrecord : (s.sadd .unavailableGuilds () g).hashes .guilds g = s.hashes .guilds g := rfl
  rw [hrecord]
  rcases hguild : s.hashes .guilds g with _ | guild
  · refine safe_deleteGuildContents g _ (hs.move (fun _ _ => rfl) hother (hs.id g) ⟨hmem, fun guild h => ?_⟩)
    rw [State.sadd_hashes, hguild] at h
    cases h
  · refine Prog.wp_bind.mpr ((Repository.wp_insert_new hw _ _).mpr ?_)
    refine safe_deleteGuildContents g _ (hs.move (fun g' hg => ?_) hother (fun written h => ?_)
      ⟨hmem, fun written h => ?_⟩)
    · rw [State.hset_self, Function.update_of_ne hg, State.sadd_hashes]
    · rw [State.hset_self, Function.update_self] at h
      rw [← Option.some.inj h]
      exact hs.id g guild hguild
    · rw [State.hset_self, Function.update_self] at h
      rw [← Option.some.inj h]

theorem wp_unavailableGuilds {s : State} (hs : TracksStatus f s) (guilds : List UnavailableGuild) :
    (guilds.forM fun guild => self.unavailableGuild guild.id).wp eval
      (fun _ => TracksStatus fun g => if g ∈ guilds.map (·.id) then .unavailable else f g)
      (fun _ => False) s := by
  induction guilds generalizing f s with
  | nil =>
    simp only [List.map_nil, List.not_mem_nil, if_false]
    exact hs
  | cons guild guilds ih =>
    refine Prog.wp_bind.mpr (Prog.wp_mono (wp_unavailableGuild hw hs guild.id) fun _ t ht => ?_)
    refine Prog.wp_mono (ih ht) fun _ u hu => ?_
    have hsame : (fun g => if g ∈ (guild :: guilds).map (·.id) then GuildStatus.unavailable else f g) =
        fun g => if g ∈ guilds.map (·.id) then .unavailable else
          Function.update f guild.id .unavailable g := by
      funext g
      by_cases hg : g = guild.id
      · subst hg
        simp
      · simp [hg]
    rwa [hsame]

/-- The guild must have been on the side of `unavailable_guilds` where it is going to be. -/
theorem wp_deleteGuild {s : State} (hs : TracksStatus f s) (guild : GuildDelete)
    (hset : guild.id ∈ s.sets .unavailableGuilds () ↔ guild.unavailable = some true) :
    (self.deleteGuild guild.id false).wp eval
      (fun _ => TracksStatus (Function.update f guild.id
        (if guild.unavailable = some true then .unavailable else .unknown))) (fun _ => False) s := by
  rw [deleteGuild_eq]
  refine Prog.wp_bind.mpr (Prog.wp_bind.mpr ((Repository.wp_remove_new hw _).mpr ?_))
  have hgone : (s.hdel .guilds {guild.id}).hashes .guilds guild.id = none := by
    rw [State.hdel_self]
    exact if_pos (Finset.mem_singleton_self _)
  refine safe_deleteGuildContents guild.id _ (hs.move (fun g hg => ?_) (fun _ _ => Iff.rfl) (fun record h => ?_) ?_)
  · rw [State.hdel_self]
    exact if_neg fun hmem => hg (Finset.mem_singleton.mp hmem)
  · rw [hgone] at h
    cases h
  · split_ifs with houtage
    · refine ⟨hset.mpr houtage, fun record h => ?_⟩
      rw [hgone] at h
      cases h
    · exact ⟨hgone, fun hmem => houtage (hset.mp hmem)⟩

/-- A guild that cannot be cached to the end keeps its status. -/
theorem wp_cacheGuild_status {s : State} (hs : TracksStatus f s) {guild : Guild}
    (havailable : guild.unavailable ≠ some true) :
    (self.cacheGuild guild).wp eval (fun _ => TracksStatus (Function.update f guild.id .available))
      (TracksStatus f) s := by
  have hkeeps : ∀ steps : List GuildStep, (∀ step ∈ steps, step ≠ .available ∧ step ≠ .record) →
      Prog.Keeps eval (TracksStatus f) (steps.forM (GuildStep.prog self guild)) := by
    refine fun steps hsteps => Prog.Keeps.forM fun step hstep => ?_
    obtain ⟨hne, hne'⟩ := hsteps step hstep
    cases step with
    | available => exact absurd rfl hne
    | record => exact absurd rfl hne'
    | _ => exact (GuildStep.touches _).keeps tracksStatus_dependsOn (by decide)
  have hsplit : GuildStep.rest.forM (GuildStep.prog self guild) = (do
      [GuildStep.emojis, .members, .presences, .roles, .staleStickers, .stickers, .voiceStates,
        .stageInstances, .scheduledEvents].forM (GuildStep.prog self guild)
      GuildStep.prog self guild .available
      GuildStep.prog self guild .record) := by
    simp only [GuildStep.rest, List.forM, bind_assoc, bind_pure_unit]
  rw [cacheGuild_eq_steps, hsplit]
  refine Prog.wp_bind.mpr (Prog.wp_mono (hkeeps _ (by decide) s hs) fun _ t ht => ?_)
  refine Prog.wp_bind.mpr (Prog.wp_mono (hkeeps _ (by decide) t ht) fun _ u hu => ?_)
  have hremove := self.unavailableGuilds.exec_remove hw guild.id u
  refine Prog.wp_bind.mpr (Prog.wp_bind.mpr ((Prog.wp_of_exec hremove).mpr ?_))
  refine Prog.wp_bind.mpr ((Repository.wp_insert_new hw _ _).mpr ?_)
  refine hu.move (fun g hg => ?_) (fun g hg => ?_) (fun record h => ?_) ⟨⟨.fromGuild guild, ?_, havailable⟩, ?_⟩
  · rw [State.hset_self, Function.update_of_ne hg, State.srem_hashes]
  · rw [State.hset_sets, State.srem_self, Function.update_self, Finset.mem_sdiff, Finset.mem_singleton]
    exact and_iff_left hg
  · rw [State.hset_self, Function.update_self] at h
    rw [← Option.some.inj h]
    rfl
  · rw [State.hset_self, Function.update_self]
  · rw [State.hset_sets, State.srem_self, Function.update_self, Finset.mem_sdiff]
    exact fun h => h.2 (Finset.mem_singleton_self _)

end Methods

/-! ### Events -/

/-- An available guild does not call itself unavailable, and it can be cached or is available already; a
deletion is an outage exactly if the guild is in `unavailable_guilds`. -/
def KeepsStatus (config : Config) (s : State) : Event → Prop
  | .guildCreate (.available guild) =>
    guild.unavailable ≠ some true ∧ (SlotsSuit config guild s ∨ HasStatus s guild.id .available)
  | .guildDelete guild => guild.id ∈ s.sets .unavailableGuilds () ↔ guild.unavailable = some true
  | _ => True

section Events
variable {config : Config} (hw : config.wants .guild = true) {f : Id .guild → GuildStatus} {s : State}
include hw

theorem TracksStatus.guildCreate (hs : TracksStatus f s) {guild : Guild}
    (h : KeepsStatus config s (.guildCreate (.available guild))) :
    TracksStatus (Function.update f guild.id .available) (((new config).cacheGuild guild).exec eval s).2 := by
  have hw : (new config).config.wants .guild = true := hw
  obtain ⟨havailable, hsuit | hstatus⟩ := h
  · obtain ⟨t, hexec⟩ := exec_cacheGuild_ok hsuit
    have ht := (Prog.wp_of_exec hexec).mp (wp_cacheGuild_status hw hs havailable)
    rwa [hexec]
  · -- whether or not it is cached, the guild stays available
    have hsame : Function.update f guild.id .available = f := by
      rw [hstatus.unique (hs.status guild.id), Function.update_eq_self]
    have hrun := wp_cacheGuild_status hw hs havailable
    rw [hsame] at hrun ⊢
    exact Prog.exec_of_wp hrun

theorem TracksStatus.update (hs : TracksStatus f s) {event : Event} (h : KeepsStatus config s event) :
    TracksStatus (fun g => (f g).next g event) (((new config).update event).exec eval s).2 := by
  have hw : (new config).config.wants .guild = true := hw
  have hmove : ∀ (g : Id .guild) (status : GuildStatus),
      (fun g' => if g = g' then status else f g') = Function.update f g status := by
    intro g status
    funext g'
    by_cases hg : g = g'
    · subst hg
      rw [if_pos rfl, Function.update_self]
    · rw [if_neg hg, Function.update_of_ne (Ne.symm hg)]
  cases event with
  | guildCreate guild =>
    cases guild with
    | available guild =>
      simp only [GuildStatus.next, hmove]
      exact hs.guildCreate hw h
    | unavailable guild =>
      simp only [GuildStatus.next, hmove]
      exact Prog.exec_of_safe (wp_unavailableGuild hw hs guild.id)
  | unavailableGuild guild =>
    simp only [GuildStatus.next, hmove]
    exact Prog.exec_of_safe (wp_unavailableGuild hw hs guild.id)
  | guildDelete guild =>
    simp only [GuildStatus.next, hmove]
    exact Prog.exec_of_safe (wp_deleteGuild hw hs guild h)
  | ready ready =>
    have huser : Touches [.currentUser] False ((new config).cacheCurrentUser ready.user) :=
      touches_cacheCurrentUser ready.user
    have hsafe : Prog.Safe eval (TracksStatus f) ((new config).cacheCurrentUser ready.user) :=
      Prog.Safe.of_keeps (huser.keeps tracksStatus_dependsOn (by decide)) huser
    refine Prog.exec_of_safe (Prog.wp_bind.mpr (Prog.wp_mono (hsafe s hs) fun _ t ht => ?_))
    exact wp_unavailableGuilds hw ht ready.guilds
  | memberAdd g member =>
    refine Prog.Keeps.exec ?_ hs
    refine (keeps_changeMemberCount_status g _).bind fun _ => ?_
    exact (touches_cacheMember g member).keeps tracksStatus_dependsOn (by decide)
  | memberRemove g user =>
    refine Prog.Keeps.exec ?_ hs
    have htouches : Touches (memberAreas (new config).usersName.areas) False
        ((new config).forgetMember g user.id) := touches_forgetMember g user.id
    refine (keeps_changeMemberCount_status g _).bind fun _ => htouches.keeps tracksStatus_dependsOn ?_
    cases (new config).usersName <;> decide
  | guildUpdate guildUpdate => exact (keeps_updateGuild_status guildUpdate).exec hs
  | _ =>
    refine (keeps_update_of_areas tracksStatus_dependsOn ?_).exec hs
    simp only [Event.areas]
    cases (new config).usersName <;> decide

theorem TracksStatus.applyEvents {events : List Event} (hs : TracksStatus f s)
    (hevents : AllSteps (fun s event => (((new config).update event).exec eval s).2) (KeepsStatus config) s
      events) :
    TracksStatus (fun g => events.foldl (GuildStatus.next g) (f g)) ((new config).applyEvents events s) := by
  induction events generalizing f s with
  | nil => exact hs
  | cons event events ih => exact ih (hs.update hw hevents.1) hevents.2

end Events

/-- In a run whose steps meet the condition, every guild has exactly one status all along, the one that the
machine has come to. -/
theorem guild_status_eq (config : Config) (hw : config.wants .guild = true) (events : List Event)
    (hevents : AllSteps (fun s event => (((new config).update event).exec eval s).2) (KeepsStatus config)
      .empty events) :
    ∀ before, before <+: events → ∀ g status,
      HasStatus ((new config).applyEvents before .empty) g status ↔
        status = before.foldl (GuildStatus.next g) .unknown := by
  intro before hbefore g status
  have hrun := (tracksStatus_empty.applyEvents hw (hevents.of_isPrefix hbefore)).status g
  constructor
  · exact fun h => h.unique hrun
  · rintro rfl
    exact hrun

/-- A guild is announced, created and left. -/
theorem guild_status_eq_of_leave :
    let guild : Guild := .bare ⟨1, by decide⟩ ⟨3, by decide⟩
    let events : List Event :=
      [.ready ⟨[⟨guild.id, true⟩], ⟨⟨9, by decide⟩, ""⟩⟩, .guildCreate (.available guild),
        .guildDelete ⟨guild.id, none⟩]
    HasStatus ((new (.all 100)).applyEvents events .empty) guild.id .unknown := by
  intro guild events
  have hsuit : ∀ s, SlotsSuit (.all 100) guild s := fun s => ⟨nofun, nofun⟩
  have hsteps : AllSteps (fun s event => (((new (.all 100)).update event).exec eval s).2)
      (KeepsStatus (.all 100)) .empty events := by
    refine And.intro trivial (And.intro ⟨by decide, .inl (hsuit _)⟩ (And.intro ?_ trivial))
    exact iff_of_false (by decide) (by decide)
  exact (guild_status_eq (.all 100) rfl events hsteps events List.prefix_rfl guild.id .unknown).mpr rfl

/-- Whatever it says, a deletion makes a guild unknown that is not in `unavailable_guilds`, and leaves the others
unavailable. -/
theorem deleteGuild_status (size : Nat) (g : Id .guild) {s : State} {status : GuildStatus}
    (hs : HasStatus s g status) : HasStatus (((new (.all size)).deleteGuild g false).exec eval s).2 g
      (if status = .unavailable then .unavailable else .unknown) := by
  rw [exec_deleteGuild]
  have hrecord : (swept s g).hashes .guilds g = none := by simp [swept, sweptFields]
  have hset : (swept s g).sets .unavailableGuilds () = s.sets .unavailableGuilds () := by
    simp [swept, clearedSets]
  cases status with
  | unknown => exact ⟨hrecord, hset ▸ hs.2⟩
  | available => exact ⟨hrecord, hset ▸ hs.2⟩
  | unavailable =>
    refine ⟨hset ▸ hs.1, fun record h => ?_⟩
    rw [hrecord] at h
    cases h

/-- In an outage an available guild becomes unknown, and a guild that is left while it is unavailable does not
become unknown. -/
theorem guildDelete_wrong_status :
    let guild : Guild := .bare ⟨1, by decide⟩ ⟨3, by decide⟩
    let outage : List Event := [.guildCreate (.available guild), .guildDelete ⟨guild.id, some true⟩]
    let left : List Event := [.unavailableGuild ⟨guild.id, true⟩, .guildDelete ⟨guild.id, none⟩]
    (HasStatus ((new (.all 100)).applyEvents outage .empty) guild.id .unknown ∧
        outage.foldl (GuildStatus.next guild.id) .unknown = .unavailable) ∧
      HasStatus ((new (.all 100)).applyEvents left .empty) guild.id .unavailable ∧
        left.foldl (GuildStatus.next guild.id) .unknown = .unknown := by
  intro guild outage left
  have hunknown : HasStatus ((new (.all 100)).applyEvents outage .empty) guild.id .unknown := by
    have hsuit : SlotsSuit (.all 100) guild .empty := ⟨nofun, nofun⟩
    have hcreated := (tracksStatus_empty.guildCreate rfl ⟨by decide, .inl hsuit⟩).status guild.id
    rw [Function.update_self] at hcreated
    exact deleteGuild_status 100 guild.id hcreated
  have hunavailable : HasStatus ((new (.all 100)).applyEvents left .empty) guild.id .unavailable := by
    have hw : (new (.all 100)).config.wants .guild = true := rfl
    have hannounced := (Prog.exec_of_safe (wp_unavailableGuild hw tracksStatus_empty guild.id)).status guild.id
    rw [Function.update_self] at hannounced
    exact deleteGuild_status 100 guild.id hannounced
  exact ⟨⟨hunknown, rfl⟩, hunavailable, rfl⟩

end Tulpje.Cache
