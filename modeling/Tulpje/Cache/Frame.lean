import Tulpje.Cache.GuildCreate
import Tulpje.Lib.Hoare

/-!
# What an event leaves alone

The store is made of the parts that `Area` names. An update touches only the parts in `Event.areas`, so an
invariant that looks at other parts survives it (`keeps_update_of_areas`), also when the update fails half
way. The rules at the start compute the weakest preconditions of the repository operations.
-/

namespace Tulpje.Cache

open Twilight Lib

/-! ### Preconditions of repository operations -/

section Wp
variable {α : Type} {E : State → Prop} {s : State}

@[simp] theorem wp_onlyIf {cond : Bool} {p : CacheM Unit} {Q : Unit → State → Prop} :
    (onlyIf cond p).wp eval Q E s ↔ if cond then p.wp eval Q E s else Q () s := by
  cases cond <;> exact Iff.rfl

@[simp] theorem wp_forM_none {p : α → CacheM PUnit} {Q : PUnit → State → Prop} :
    ((none : Option α).forM p).wp eval Q E s ↔ Q ⟨⟩ s := Iff.rfl

@[simp] theorem wp_forM_some {a : α} {p : α → CacheM PUnit} {Q : PUnit → State → Prop} :
    ((some a).forM p).wp eval Q E s ↔ (p a).wp eval Q E s := Iff.rfl

namespace Repository
variable {h : HashName} {wanted : Bool}

theorem wp_get_new (key : h.Field) {Q : Option h.Entry → State → Prop} :
    ((Repository.new h wanted).get key).wp eval Q E s ↔ Q (s.hashes h key) s :=
  Prog.wp_of_exec (exec_get_new h wanted key s)

variable (hw : wanted = true)
include hw

theorem wp_insert_new (key : h.Field) (value : h.Entry) {Q : Bool → State → Prop} :
    ((Repository.new h wanted).insert key value).wp eval Q E s ↔
      Q (s.hashes h key).isNone (s.hset h key value) :=
  Prog.wp_of_exec (exec_insert _ hw key value s)

theorem wp_remove_new (key : h.Field) {Q : Bool → State → Prop} :
    ((Repository.new h wanted).remove key).wp eval Q E s ↔
      Q (s.hashes h key).isSome (s.hdel h {key}) :=
  Prog.wp_of_exec (exec_remove _ hw key s)

theorem wp_removeMulti_new (keys : Finset h.Field) {Q : Nat → State → Prop} :
    ((Repository.new h wanted).removeMulti keys).wp eval Q E s ↔
      Q (keys.filter fun field => (s.hashes h field).isSome).card (s.hdel h keys) := by
  have hexec := exec_removeMulti (Repository.new h wanted) hw keys s
  have hfield : keys.image (Repository.new h wanted).field = keys := Finset.image_id
  rw [hfield] at hexec
  exact Prog.wp_of_exec hexec

end Repository

namespace MappedSetRepository
variable {n : SetName} (self : MappedSetRepository n) (key : n.Key)

theorem wp_members {Q : Finset n.Elem → State → Prop} :
    (self.members key).wp eval Q E s ↔ Q (s.sets n key) s := Iff.rfl

variable (hw : self.wanted = true)
include hw

theorem wp_insert (value : n.Elem) {Q : Bool → State → Prop} :
    (self.insert key value).wp eval Q E s ↔
      Q (decide (value ∉ s.sets n key)) (s.sadd n key value) :=
  Prog.wp_of_exec (self.exec_insert key hw value s)

theorem wp_remove (value : n.Elem) {Q : Bool → State → Prop} :
    (self.remove key value).wp eval Q E s ↔
      Q (decide (value ∈ s.sets n key)) (s.srem n key {value}) :=
  Prog.wp_of_exec ((self.setRepository key).exec_remove hw value s)

theorem wp_isEmpty {Q : Bool → State → Prop} :
    (self.isEmpty key).wp eval Q E s ↔ Q (decide (s.sets n key).Nonempty) s :=
  Prog.wp_of_exec ((self.setRepository key).exec_isEmpty hw s)

theorem wp_clear {Q : Bool → State → Prop} :
    (self.clear key).wp eval Q E s ↔ Q (decide (s.sets n key).Nonempty) (s.del n key) :=
  Prog.wp_of_exec (self.exec_clear key hw s)

end MappedSetRepository

end Wp

/-! ### The parts of the store -/

def Area.Val : Area → Type
  | hash h => h.Field → Option h.Entry
  | set n => n.Key → Finset n.Elem
  | currentUser => Option CachedCurrentUser

def State.part (s : State) : (a : Area) → a.Val
  | .hash h => s.hashes h
  | .set n => s.sets n
  | .currentUser => s.currentUser

theorem eval_part {o : Op} {a : Area} (h : o.area ≠ a) (s : State) : (eval o s).2.part a = s.part a := by
  cases a with
  | hash h' => exact eval_hashes h s
  | set n => exact eval_sets h s
  | currentUser => cases o <;> first | rfl | exact absurd rfl h

theorem Touches.part {α : Type} {areas : List Area} {fails : Prop} {p : CacheM α}
    (hp : Touches areas fails p) {a : Area} (ha : a ∉ areas) (s : State) :
    (p.exec eval s).2.part a = s.part a :=
  Prog.exec_keeps (v := fun s => s.part a)
    (Prog.All.imp hp fun _ ho s => eval_part (a := a) (fun heq => ha (heq ▸ ho)) s) s

/-- Whether the property holds depends on these parts only. -/
def DependsOn (areas : List Area) (I : State → Prop) : Prop :=
  ∀ s t, (∀ a ∈ areas, t.part a = s.part a) → I s → I t

/-- What is said about one hash and one family of sets depends on these two. -/
theorem dependsOn_family {h : HashName} {n : SetName}
    (I : (n.Key → Finset n.Elem) → (h.Field → Option h.Entry) → Prop) :
    DependsOn [.hash h, .set n] fun s => I (s.sets n) (s.hashes h) := by
  intro s t heq hs
  have hstore : t.hashes h = s.hashes h := heq (.hash h) List.mem_cons_self
  have hindex : t.sets n = s.sets n := heq (.set n) (List.mem_cons_of_mem _ List.mem_cons_self)
  rwa [hstore, hindex]

/-- An invariant is kept by a program that touches none of the parts it depends on. -/
theorem Touches.keeps {α : Type} {areas areas' : List Area} {fails : Prop} {p : CacheM α}
    (hp : Touches areas fails p) {I : State → Prop} (hI : DependsOn areas' I)
    (h : ∀ a ∈ areas', a ∉ areas) : Prog.Keeps eval I p :=
  Prog.Keeps.of_exec fun s hs => hI s _ (fun a ha => hp.part (h a ha) s) hs

/-- The same for a single part. -/
theorem Touches.keeps_of_notMem {α : Type} {areas : List Area} {a : Area} {p : CacheM α}
    (hp : Touches [a] False p) {I : State → Prop} (hI : DependsOn areas I) (ha : a ∉ areas) :
    Prog.Keeps eval I p := by
  refine hp.keeps hI fun b hb hmem => ha ?_
  rwa [List.mem_singleton.mp hmem] at hb

theorem keeps_onlyIf {I : State → Prop} {cond : Bool} {p : CacheM Unit}
    (hp : cond = true → Prog.Keeps eval I p) : Prog.Keeps eval I (onlyIf cond p) := by
  cases cond
  · exact Prog.Keeps.pure _
  · exact hp rfl

theorem keeps_forM {α : Type} {I : State → Prop} {o : Option α} {p : α → CacheM PUnit}
    (hp : ∀ a ∈ o, Prog.Keeps eval I (p a)) : Prog.Keeps eval I (o.forM p) := by
  cases o with
  | none => exact Prog.Keeps.pure _
  | some a => exact hp a rfl

section Repository
variable {h : HashName} {K V : Type} {repository : Repository h K V} {I : State → Prop}

theorem keeps_get (key : K) : Prog.Keeps eval I (repository.get key) := by
  refine Prog.Keeps.of_exec fun s hs => ?_
  have hsame : ((repository.get key).exec eval s).2 = s := by
    refine Prog.exec_keeps (v := id) (E := fun _ => True) (Repository.all_get (fun _ => rfl) (.inr trivial)) s
  rwa [hsame]

theorem keeps_insert {key : K} {value : V}
    (hI : ∀ s, I s → I (s.hset h (repository.field key) (repository.encode value))) :
    Prog.Keeps eval I (repository.insert key value) := by
  refine Prog.Keeps.of_exec fun s hs => ?_
  cases hw : repository.wanted with
  | true =>
    rw [repository.exec_insert hw]
    exact hI s hs
  | false =>
    unfold Repository.insert
    rwa [hw]

theorem keeps_remove {key : K} (hI : ∀ s, I s → I (s.hdel h {repository.field key})) :
    Prog.Keeps eval I (repository.remove key) := by
  refine Prog.Keeps.of_exec fun s hs => ?_
  cases hw : repository.wanted with
  | true =>
    rw [repository.exec_remove hw]
    exact hI s hs
  | false =>
    unfold Repository.remove
    rwa [hw]

theorem keeps_removeMulti {keys : Finset K} (hI : ∀ s, I s → I (s.hdel h (keys.image repository.field))) :
    Prog.Keeps eval I (repository.removeMulti keys) := by
  refine Prog.Keeps.of_exec fun s hs => ?_
  cases hw : repository.wanted with
  | true =>
    rw [repository.exec_removeMulti hw]
    exact hI s hs
  | false =>
    unfold Repository.removeMulti
    rwa [hw]

end Repository

section MappedSet
variable {n : SetName} {repository : MappedSetRepository n} {key : n.Key} {value : n.Elem} {I : State → Prop}

theorem keeps_setRemove (hI : ∀ s, I s → I (s.srem n key {value})) :
    Prog.Keeps eval I (repository.remove key value) := by
  intro s hs
  cases hw : repository.wanted with
  | true => exact (repository.wp_remove key hw value).mpr (hI s hs)
  | false =>
    unfold MappedSetRepository.remove MappedSetRepository.setRepository SetRepository.remove
    rwa [hw]

end MappedSet

/-! Reading an entry and writing it back changed, if there is one. -/

section Modify
variable {h : HashName} {wanted : Bool} {field : h.Field} {field' : h.Entry → h.Field}
  {change : h.Entry → h.Entry}

theorem touches_modify {areas : List Area} {fails : Prop} (hh : .hash h ∈ areas) : Touches areas fails (do
    let entry ← (Repository.new h wanted).get field
    entry.forM fun entry => do
      let _ ← (Repository.new h wanted).insert (field' entry) (change entry)
      pure ()) := by
  refine (Repository.touches_get hh (.inl Option.some_ne_none) _).bind fun _ => touches_forM fun _ => ?_
  exact (Repository.touches_insert hh _ _).bind fun _ => Touches.pure _

theorem keeps_modify {I : State → Prop} (hI : ∀ s entry, I s → s.hashes h field = some entry →
      I (s.hset h (field' entry) (change entry))) : Prog.Keeps eval I (do
    let entry ← (Repository.new h wanted).get field
    entry.forM fun entry => do
      let _ ← (Repository.new h wanted).insert (field' entry) (change entry)
      pure ()) := by
  intro s hs
  refine Prog.wp_bind.mpr ((Repository.wp_get_new _).mpr ?_)
  rcases hentry : s.hashes h field with _ | entry
  · exact hs
  · cases hw : wanted with
    | true =>
      rw [wp_forM_some, Prog.wp_bind, Repository.wp_insert_new rfl, Prog.wp_pure]
      exact hI s entry hs hentry
    | false => exact hs

end Modify

theorem keeps_cacheGuild {self : Cache} {guild : Guild} {I : State → Prop}
    (h : ∀ step : GuildStep, Prog.Keeps eval I (step.prog self guild)) :
    Prog.Keeps eval I (self.cacheGuild guild) := by
  rw [cacheGuild_eq_steps]
  exact (Prog.Keeps.forM fun step _ => h step).bind fun _ => Prog.Keeps.forM fun step _ => h step

/-- An invariant that each event of a run keeps. -/
theorem applyEvents_keeps {self : Cache} {I : State → Prop} {events : List Event} {s : State}
    (hI : ∀ event ∈ events, Prog.Keeps eval I (self.update event)) (hs : I s) :
    I (self.applyEvents events s) := by
  induction events generalizing s with
  | nil => exact hs
  | cons event events ih =>
    refine ih (fun event' h => hI event' (List.mem_cons_of_mem _ h)) ?_
    exact (hI event List.mem_cons_self).exec hs

/-! ### The parts that an event touches -/

/-- The areas of `delete_guild`. -/
def guildAreas : List Area :=
  [.hash .guilds, .hash .channels, .set .guildChannels, .hash .emojis, .set .guildEmojis, .hash .roles,
    .set .guildRoles, .hash .stickers, .set .guildStickers, .set .voiceStateGuilds, .hash .members,
    .set .guildMembers, .hash .presences, .set .guildPresences]

/-- What an update with this event touches, where the areas of users are `users`. Of an available guild
it may be everything. -/
def Event.areas (users : List Area) : Event → List Area
  | .channelCreate _ | .channelDelete _ | .channelUpdate _ | .threadCreate _ | .threadUpdate _
  | .threadDelete _ | .threadListSync _ | .channelPinsUpdate _ _ => [.hash .channels, .set .guildChannels]
  | .guildCreate (.available _) => GuildStep.opening.flatMap (·.areas) ++ GuildStep.rest.flatMap (·.areas)
  | .guildCreate (.unavailable _) | .unavailableGuild _ => .set .unavailableGuilds :: guildAreas
  | .guildDelete _ => guildAreas
  | .guildEmojisUpdate _ _ => .hash .emojis :: .set .guildEmojis :: users
  | .guildStickersUpdate _ _ => .hash .stickers :: .set .guildStickers :: users
  | .guildUpdate _ => [.hash .guilds]
  | .guildScheduledEventCreate _ | .guildScheduledEventDelete _ | .guildScheduledEventUpdate _
  | .guildScheduledEventUserAdd _ | .guildScheduledEventUserRemove _ =>
    [.hash .scheduledEvents, .set .guildScheduledEvents]
  | .integrationCreate _ | .integrationDelete _ _ | .integrationUpdate _ =>
    [.hash .integrations, .set .guildIntegrations]
  | .interactionCreate _ => .hash .roles :: .set .guildRoles :: memberAreas users
  | .memberAdd _ _ | .memberRemove _ _ => .hash .guilds :: memberAreas users
  | .memberUpdate _ | .memberChunk _ _ => memberAreas users
  | .messageCreate _ | .messageUpdate _ =>
    .hash .messages :: .hash .channelMessages :: memberAreas users
  | .messageDelete _ _ | .messageDeleteBulk _ _ => [.hash .messages, .hash .channelMessages]
  | .presenceUpdate _ => [.hash .presences, .set .guildPresences]
  | .reactionAdd _ | .reactionRemove _ | .reactionRemoveAll _ | .reactionRemoveEmoji _ _ =>
    [.hash .messages, .currentUser]
  | .ready _ => .currentUser :: .set .unavailableGuilds :: guildAreas
  | .roleCreate _ _ | .roleDelete _ _ | .roleUpdate _ _ => [.hash .roles, .set .guildRoles]
  | .stageInstanceCreate _ | .stageInstanceDelete _ | .stageInstanceUpdate _ =>
    [.hash .stageInstances, .set .guildStageInstances]
  | .userUpdate _ => [.currentUser]
  | .voiceStateUpdate _ =>
    .hash .voiceStates :: .set .voiceStateChannels :: .set .voiceStateGuilds :: memberAreas users
  | .ignored => []

section Events
variable {self : Cache} {users : List Area} {fails : Prop}

theorem touches_channelPinsUpdate (channelId : Id .channel) (lastPinTimestamp : Option Timestamp) :
    Touches [.hash .channels, .set .guildChannels] fails
      (self.channelPinsUpdate channelId lastPinTimestamp) :=
  touches_modify (by decide)

theorem touches_removeIds {n : SetName} {h : HashName} {V : Type} {areas : List Area}
    (guildMap : MappedSetRepository n) (container : Repository h n.Elem V) (hh : .hash h ∈ areas)
    (hn : .set n ∈ areas) (guildId : n.Key) :
    Touches areas fails (removeIds guildMap container guildId) := by
  refine (MappedSetRepository.touches_members _ hn).bind fun _ => ?_
  exact (Repository.touches_removeMulti hh _).bind fun _ => Touches.pure _

/-- What `delete_guild` does after the record of the guild. -/
def deleteGuildContents (self : Cache) (guildId : Id .guild) : CacheM Unit := do
  removeIds self.guildChannels self.channels guildId
  removeIds self.guildEmojis self.emojis guildId
  removeIds self.guildRoles self.roles guildId
  removeIds self.guildStickers self.stickers guildId
  let _ ← self.voiceStateGuilds.clear guildId
  let members ← self.guildMembers.members guildId
  let _ ← self.members.removeMulti (members.image fun userId => (guildId, userId))
  let _ ← self.guildMembers.clear guildId
  let presences ← self.guildPresences.members guildId
  let _ ← self.presences.removeMulti (presences.image fun userId => (guildId, userId))
  let _ ← self.guildPresences.clear guildId
  pure ()

theorem deleteGuild_eq (guildId : Id .guild) (unavailable : Bool) :
    self.deleteGuild guildId unavailable = (do
      self.deleteGuildRecord guildId unavailable
      self.deleteGuildContents guildId) := rfl

/-- The areas of `delete_guild` but for the record. -/
def contentAreas : List Area := guildAreas.tail

theorem touches_deleteGuildContents (guildId : Id .guild) :
    Touches contentAreas fails (self.deleteGuildContents guildId) := by
  refine (touches_removeIds _ _ (by decide) (by decide) _).bind fun _ => ?_
  refine (touches_removeIds _ _ (by decide) (by decide) _).bind fun _ => ?_
  refine (touches_removeIds _ _ (by decide) (by decide) _).bind fun _ => ?_
  refine (touches_removeIds _ _ (by decide) (by decide) _).bind fun _ => ?_
  refine (MappedSetRepository.touches_clear _ (by decide)).bind fun _ => ?_
  refine (MappedSetRepository.touches_members _ (by decide)).bind fun _ => ?_
  refine (Repository.touches_removeMulti (by decide) _).bind fun _ => ?_
  refine (MappedSetRepository.touches_clear _ (by decide)).bind fun _ => ?_
  refine (MappedSetRepository.touches_members _ (by decide)).bind fun _ => ?_
  refine (Repository.touches_removeMulti (by decide) _).bind fun _ => ?_
  exact (MappedSetRepository.touches_clear _ (by decide)).bind fun _ => Touches.pure _

theorem touches_deleteGuildRecord (guildId : Id .guild) (unavailable : Bool) :
    Touches [.hash .guilds] fails (self.deleteGuildRecord guildId unavailable) := by
  cases unavailable with
  | false => exact (Repository.touches_remove (by decide) _).bind fun _ => Touches.pure _
  | true => exact touches_modify (by decide)

theorem touches_deleteGuild (guildId : Id .guild) (unavailable : Bool) :
    Touches guildAreas fails (self.deleteGuild guildId unavailable) := by
  rw [deleteGuild_eq]
  refine ((touches_deleteGuildRecord guildId unavailable).mono (by decide)).bind fun _ => ?_
  exact (touches_deleteGuildContents guildId).mono (by decide)

theorem touches_unavailableGuild (guildId : Id .guild) :
    Touches (.set .unavailableGuilds :: guildAreas) fails (self.unavailableGuild guildId) := by
  refine (SetRepository.touches_insert (by decide) _).bind fun _ => ?_
  exact (touches_deleteGuild guildId true).mono (by decide)

theorem touches_cacheGuild (guild : Guild) :
    Touches (Event.areas users (.guildCreate (.available guild))) True (self.cacheGuild guild) := by
  have hsteps : ∀ (steps : List GuildStep) (areas : List Area),
      (∀ step ∈ steps, step.areas ⊆ areas) →
        Touches areas True (steps.forM (GuildStep.prog self guild)) := by
    intro steps areas h
    induction steps with
    | nil => exact Touches.pure _
    | cons step steps ih =>
      have hstep : Touches areas True (step.prog self guild) :=
        Prog.All.mono step.touches (fun _ ho => h step List.mem_cons_self ho) fun _ _ => trivial
      exact hstep.bind fun _ => ih fun step' h' => h step' (List.mem_cons_of_mem _ h')
  rw [cacheGuild_eq_steps]
  refine (hsteps _ _ fun step hstep a ha => ?_).bind fun _ => hsteps _ _ fun step hstep a ha => ?_
  · exact List.mem_append_left _ (List.mem_flatMap.mpr ⟨step, hstep, ha⟩)
  · exact List.mem_append_right _ (List.mem_flatMap.mpr ⟨step, hstep, ha⟩)

theorem touches_cacheEmojis (guildId : Id .guild) (emojis : List Emoji) :
    Touches (.hash .emojis :: .set .guildEmojis :: self.usersName.areas) True
      (self.cacheEmojis guildId emojis) := by
  rw [cacheEmojis_eq]
  refine Touches.bind ?_ fun _ => Touches.forM fun emoji => touches_cacheEmoji_own guildId emoji
  exact touches_removeStale List.mem_cons_self (List.mem_cons_of_mem _ List.mem_cons_self) _ _

theorem touches_cacheStickers (guildId : Id .guild) (stickers : List Sticker) :
    Touches (.hash .stickers :: .set .guildStickers :: self.usersName.areas) True
      (self.cacheStickers guildId stickers) := by
  rw [cacheStickers_eq]
  refine Touches.bind ?_ fun _ => Touches.forM fun sticker => touches_cacheSticker_own guildId sticker
  exact touches_removeStale List.mem_cons_self (List.mem_cons_of_mem _ List.mem_cons_self) _ _

theorem touches_updateGuild (guildUpdate : GuildUpdate) :
    Touches [.hash .guilds] fails (self.updateGuild guildUpdate) :=
  touches_modify (by decide)

theorem touches_guildScheduledEventDelete (event : GuildScheduledEvent) :
    Touches [.hash .scheduledEvents, .set .guildScheduledEvents] fails
      (self.guildScheduledEventDelete event) := by
  refine (Repository.touches_remove (by decide) _).bind fun _ => ?_
  exact (MappedSetRepository.touches_remove _ (by decide) _).bind fun _ => Touches.pure _

theorem touches_guildScheduledEventUser (id : Id .scheduledEvent) (change : UInt64 → UInt64) :
    Touches [.hash .scheduledEvents, .set .guildScheduledEvents] fails
      (self.guildScheduledEventUser id change) :=
  touches_modify (by decide)

theorem touches_interactionCreate (interaction : Interaction) :
    Touches (.hash .roles :: .set .guildRoles :: memberAreas self.usersName.areas) True
      (self.interactionCreate interaction) := by
  have hmembers : memberAreas self.usersName.areas ⊆
      .hash .roles :: .set .guildRoles :: memberAreas self.usersName.areas :=
    fun _ h => List.mem_cons_of_mem _ (List.mem_cons_of_mem _ h)
  have huser : ∀ user guildId, Touches (.hash .roles :: .set .guildRoles ::
      memberAreas self.usersName.areas) True (self.cacheUser user guildId) := fun user guildId =>
    (touches_cacheUser_own user guildId).mono fun _ h => hmembers (subset_memberAreas _ h)
  refine Touches.bind ?_ fun _ => Touches.bind ?_ fun _ => ?_
  · refine touches_forM fun member => touches_forM fun guildId => touches_forM fun user => ?_
    refine (huser user _).bind fun _ => ?_
    exact (touches_cacheBorrowedPartialMember _ guildId member user.id).mono hmembers
  · exact touches_forM fun user => huser user none
  · rcases interaction.data with _ | data
    · exact Touches.pure _
    · cases data with
      | applicationCommand data =>
        refine touches_forM fun resolved => Touches.bind ?_ fun _ => touches_forM fun guildId => ?_
        · refine Touches.forM fun user => (huser _ _).bind fun _ => ?_
          refine touches_forM fun guildId => touches_forM fun member => ?_
          exact (touches_cacheBorrowedInteractionMember _ guildId member _).mono hmembers
        · exact (touches_cacheRoles guildId _).mono
            (List.cons_subset_cons _ (List.cons_subset_cons _ (List.nil_subset _)))
      | messageComponent => exact Touches.pure _
      | modalSubmit => exact Touches.pure _

theorem touches_changeMemberCount (guildId : Id .guild) (change : UInt64 → UInt64) :
    Touches [.hash .guilds] fails (self.changeMemberCount guildId change) :=
  touches_modify (by decide)

theorem touches_memberAdd (guildId : Id .guild) (member : Member) :
    Touches (.hash .guilds :: memberAreas self.usersName.areas) True
      (self.memberAdd guildId member) := by
  refine ((touches_changeMemberCount guildId _).mono ?_).bind fun _ =>
    (touches_cacheMember_own guildId member).mono fun _ h => List.mem_cons_of_mem _ h
  exact List.cons_subset_cons _ (List.nil_subset _)

/-- What `MemberRemove` does after it has counted. -/
def forgetMember (self : Cache) (guildId : Id .guild) (userId : Id .user) : CacheM Unit := do
  let _ ← self.members.remove (guildId, userId)
  let _ ← self.guildMembers.remove guildId userId
  let _ ← self.userGuilds.remove userId guildId
  let empty ← self.userGuilds.isEmpty userId
  onlyIf (!empty) do
    let _ ← self.users.remove userId
    pure ()

theorem memberRemove_eq (guildId : Id .guild) (user : User) :
    self.memberRemove guildId user = (do
      self.changeMemberCount guildId saturatingDecr
      self.forgetMember guildId user.id) := rfl

theorem touches_forgetMember (guildId : Id .guild) (userId : Id .user) :
    Touches (memberAreas self.usersName.areas) fails (self.forgetMember guildId userId) := by
  have husers : .hash self.usersName.hash ∈ self.usersName.areas := List.mem_cons_self
  have hguilds : .set .userGuilds ∈ self.usersName.areas := List.mem_cons_of_mem _ List.mem_cons_self
  refine (Repository.touches_remove (hash_members_mem _) _).bind fun _ => ?_
  refine (MappedSetRepository.touches_remove _ (set_guildMembers_mem _) _).bind fun _ => ?_
  refine (MappedSetRepository.touches_remove _ (subset_memberAreas _ hguilds) _).bind fun _ => ?_
  refine (SetRepository.touches_isEmpty (subset_memberAreas _ hguilds)).bind fun _ => touches_onlyIf ?_
  exact (Repository.touches_remove (subset_memberAreas _ husers) _).bind fun _ => Touches.pure _

theorem touches_memberRemove (guildId : Id .guild) (user : User) :
    Touches (.hash .guilds :: memberAreas self.usersName.areas) True
      (self.memberRemove guildId user) := by
  rw [memberRemove_eq]
  refine ((touches_changeMemberCount guildId _).mono ?_).bind fun _ =>
    (touches_forgetMember guildId user.id).mono fun _ h => List.mem_cons_of_mem _ h
  exact List.cons_subset_cons _ (List.nil_subset _)

theorem touches_memberUpdate (update : MemberUpdate) :
    Touches (memberAreas self.usersName.areas) True (self.memberUpdate update) := by
  refine (Repository.touches_get (hash_members_mem _) (.inr trivial) _).bind fun _ =>
    touches_forM fun _ => ?_
  refine (Repository.touches_insert (hash_members_mem _) _ _).bind fun _ => ?_
  exact (touches_cacheUser_own _ _).mono (subset_memberAreas _)

theorem touches_memberChunk (guildId : Id .guild) (members : List Member) :
    Touches (memberAreas self.usersName.areas) True (self.memberChunk guildId members) :=
  touches_onlyIf (Touches.forM fun member => touches_cacheMember_own guildId member)

theorem touches_cacheAuthor (message : Message) :
    Touches (memberAreas self.usersName.areas) True (self.cacheAuthor message) := by
  refine ((touches_cacheUser_own _ _).mono (subset_memberAreas _)).bind fun _ => ?_
  exact touches_forM fun member => touches_forM fun guildId =>
    touches_cacheBorrowedPartialMember _ guildId member _

theorem touches_pushMessage (message : Message) :
    Touches [.hash .messages, .hash .channelMessages] fails (self.pushMessage message) := by
  refine (Repository.touches_get (by decide) (.inl Option.some_ne_none) _).bind fun _ => ?_
  refine (touches_forM fun _ => ?_).bind fun _ => ?_
  · exact (Repository.touches_remove (by decide) _).bind fun _ => Touches.pure _
  · exact (Repository.touches_insert (by decide) _ _).bind fun _ => Touches.pure _

theorem touches_messageDelete (channelId : Id .channel) (id : Id .message) :
    Touches [.hash .messages, .hash .channelMessages] fails (self.messageDelete channelId id) := by
  refine (Repository.touches_remove (by decide) _).bind fun _ => ?_
  refine (Repository.touches_get (by decide) (.inl Option.some_ne_none) _).bind fun _ => touches_onlyIf ?_
  exact (Repository.touches_insert (by decide) _ _).bind fun _ => Touches.pure _

theorem touches_messageDeleteBulk (channelId : Id .channel) (ids : List (Id .message)) :
    Touches [.hash .messages, .hash .channelMessages] fails (self.messageDeleteBulk channelId ids) := by
  refine (Repository.touches_get (by decide) (.inl Option.some_ne_none) _).bind fun _ => ?_
  refine (Repository.touches_removeMulti (by decide) _).bind fun _ => ?_
  exact (Repository.touches_insert (by decide) _ _).bind fun _ => Touches.pure _

/-- Messages are written, and what `cache_author` touches. -/
def messageAreas (users : List Area) : List Area :=
  .hash .messages :: .hash .channelMessages :: memberAreas users

theorem touches_messageCreate (message : Message) :
    Touches (messageAreas self.usersName.areas) True (self.messageCreate message) := by
  have hpush : [.hash .messages, .hash .channelMessages] ⊆ messageAreas self.usersName.areas :=
    List.cons_subset_cons _ (List.cons_subset_cons _ (List.nil_subset _))
  refine ((touches_cacheAuthor message).mono fun _ h =>
    List.mem_cons_of_mem _ (List.mem_cons_of_mem _ h)).bind fun _ => ?_
  refine ((touches_pushMessage message).mono hpush).bind fun _ => ?_
  exact (Repository.touches_insert List.mem_cons_self _ _).bind fun _ => Touches.pure _

theorem touches_messageUpdate (message : Message) :
    Touches (messageAreas self.usersName.areas) True (self.messageUpdate message) := by
  have hpush : [.hash .messages, .hash .channelMessages] ⊆ messageAreas self.usersName.areas :=
    List.cons_subset_cons _ (List.cons_subset_cons _ (List.nil_subset _))
  refine ((touches_cacheAuthor message).mono fun _ h =>
    List.mem_cons_of_mem _ (List.mem_cons_of_mem _ h)).bind fun _ => ?_
  refine (Repository.touches_insert List.mem_cons_self _ _).bind fun _ => ?_
  exact touches_onlyIf ((touches_pushMessage message).mono hpush)

theorem touches_isCurrentUser (userId : Id .user) :
    Touches [.hash .messages, .currentUser] fails (self.isCurrentUser userId) :=
  (all_ifWanted (touches_send (by decide))).bind fun _ => Touches.pure _

theorem touches_writeReactions (message : CachedMessage) (reactions : List Reaction) :
    Touches [.hash .messages, .currentUser] fails (do
      let _ ← self.messages.insert message.id { message with reactions }
      pure ()) :=
  (Repository.touches_insert (by decide) _ _).bind fun _ => Touches.pure _

theorem touches_reactionAdd (reaction : GatewayReaction) :
    Touches [.hash .messages, .currentUser] fails (self.reactionAdd reaction) := by
  refine (Repository.touches_get (by decide) (.inl Option.some_ne_none) _).bind fun _ => touches_forM fun message => ?_
  dsimp only
  rcases message.reactions.find? _ with _ | found
  · exact (touches_isCurrentUser _).bind fun _ => touches_writeReactions message _
  · dsimp only
    cases found.me with
    | true => exact touches_writeReactions message _
    | false => exact (touches_isCurrentUser _).bind fun _ => touches_writeReactions message _

theorem touches_reactionRemove (reaction : GatewayReaction) :
    Touches [.hash .messages, .currentUser] fails (self.reactionRemove reaction) := by
  refine (Repository.touches_get (by decide) (.inl Option.some_ne_none) _).bind fun _ => touches_forM fun message => ?_
  dsimp only
  rcases message.reactions.find? _ with _ | found
  · exact touches_writeReactions message _
  · dsimp only
    cases found.me with
    | true => exact (touches_isCurrentUser _).bind fun _ => touches_writeReactions message _
    | false => exact touches_writeReactions message _

theorem touches_reactionRemoveAll (messageId : Id .message) :
    Touches [.hash .messages, .currentUser] fails (self.reactionRemoveAll messageId) :=
  touches_modify (by decide)

theorem touches_reactionRemoveEmoji (messageId : Id .message) (emoji : EmojiReactionType) :
    Touches [.hash .messages, .currentUser] fails (self.reactionRemoveEmoji messageId emoji) :=
  touches_modify (by decide)

theorem touches_cacheCurrentUser (user : CurrentUser) :
    Touches [.currentUser] fails (self.cacheCurrentUser user) :=
  all_ifWanted (touches_send List.mem_cons_self)

theorem touches_ready (ready : Ready) :
    Touches (.currentUser :: .set .unavailableGuilds :: guildAreas) fails (self.ready ready) := by
  refine ((touches_cacheCurrentUser _).mono (by decide)).bind fun _ => Touches.forM fun guild => ?_
  exact (touches_unavailableGuild _).mono (by decide)

theorem touches_voiceStateUpdate (voiceState : VoiceState) :
    Touches (.hash .voiceStates :: .set .voiceStateChannels :: .set .voiceStateGuilds ::
      memberAreas self.usersName.areas) True (self.voiceStateUpdate voiceState) := by
  refine ((touches_cacheVoiceState voiceState).mono ?_).bind fun _ => ?_
  · exact List.cons_subset_cons _ (List.cons_subset_cons _ (List.cons_subset_cons _ (List.nil_subset _)))
  · refine touches_forM fun guildId => touches_forM fun member => ?_
    exact (touches_cacheMember_own guildId member).mono fun _ h =>
      List.mem_cons_of_mem _ (List.mem_cons_of_mem _ (List.mem_cons_of_mem _ h))

theorem touches_update (event : Event) :
    Touches (Event.areas self.usersName.areas event) True (self.update event) := by
  cases event with
  | channelCreate channel => exact touches_cacheChannel channel
  | channelDelete channel => exact touches_deleteChannel _
  | channelPinsUpdate channelId timestamp => exact touches_channelPinsUpdate channelId timestamp
  | channelUpdate channel => exact touches_cacheChannel channel
  | guildCreate guild =>
    cases guild with
    | available guild => exact touches_cacheGuild guild
    | unavailable guild => exact touches_unavailableGuild guild.id
  | guildDelete guild => exact touches_deleteGuild guild.id false
  | guildEmojisUpdate guildId emojis => exact touches_cacheEmojis guildId emojis
  | guildStickersUpdate guildId stickers => exact touches_cacheStickers guildId stickers
  | guildUpdate guild => exact touches_updateGuild guild
  | guildScheduledEventCreate event => exact touches_cacheGuildScheduledEvent _ event
  | guildScheduledEventDelete event => exact touches_guildScheduledEventDelete event
  | guildScheduledEventUpdate event => exact touches_cacheGuildScheduledEvent _ event
  | guildScheduledEventUserAdd id => exact touches_guildScheduledEventUser id _
  | guildScheduledEventUserRemove id => exact touches_guildScheduledEventUser id _
  | integrationCreate integration => exact touches_forM fun guildId => touches_cacheIntegration guildId _
  | integrationDelete guildId id => exact touches_deleteIntegration guildId id
  | integrationUpdate integration => exact touches_forM fun guildId => touches_cacheIntegration guildId _
  | interactionCreate interaction => exact touches_interactionCreate interaction
  | memberAdd guildId member => exact touches_memberAdd guildId member
  | memberRemove guildId user => exact touches_memberRemove guildId user
  | memberUpdate update => exact touches_memberUpdate update
  | memberChunk guildId members => exact touches_memberChunk guildId members
  | messageCreate message => exact touches_messageCreate message
  | messageDelete channelId id => exact touches_messageDelete channelId id
  | messageDeleteBulk channelId ids => exact touches_messageDeleteBulk channelId ids
  | messageUpdate message => exact touches_messageUpdate message
  | presenceUpdate presence => exact touches_cachePresence _ presence
  | reactionAdd reaction => exact touches_reactionAdd reaction
  | reactionRemove reaction => exact touches_reactionRemove reaction
  | reactionRemoveAll messageId => exact touches_reactionRemoveAll messageId
  | reactionRemoveEmoji messageId emoji => exact touches_reactionRemoveEmoji messageId emoji
  | ready ready => exact touches_ready ready
  | roleCreate guildId role => exact touches_cacheRole guildId role
  | roleDelete guildId roleId => exact touches_deleteRole guildId roleId
  | roleUpdate guildId role => exact touches_cacheRole guildId role
  | stageInstanceCreate stageInstance => exact touches_cacheStageInstance _ stageInstance
  | stageInstanceDelete stageInstance => exact touches_deleteStageInstance _ _
  | stageInstanceUpdate stageInstance => exact touches_cacheStageInstance _ stageInstance
  | threadCreate thread => exact touches_cacheChannel thread
  | threadUpdate thread => exact touches_cacheChannel thread
  | threadDelete id => exact touches_deleteChannel id
  | threadListSync threads => exact touches_cacheChannels threads
  | unavailableGuild guild => exact touches_unavailableGuild guild.id
  | userUpdate user => exact touches_cacheCurrentUser user
  | voiceStateUpdate voiceState => exact touches_voiceStateUpdate voiceState
  | ignored => exact Touches.pure _

/-- An update keeps an invariant that looks at none of the parts it touches. -/
theorem keeps_update_of_areas {areas : List Area} {I : State → Prop} (hI : DependsOn areas I)
    {event : Event} (h : ∀ a ∈ areas, a ∉ Event.areas self.usersName.areas event) :
    Prog.Keeps eval I (self.update event) := (touches_update event).keeps hI h

end Events

end Tulpje.Cache
