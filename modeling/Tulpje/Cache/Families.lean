import Tulpje.Cache.Resources
import Tulpje.Lib.Indexed

/-!
# Families of resources

A family is the index of one guild together with the store that it points into. Seen as an
`Lib.Indexed`, the caching methods write their list in one of its ways: roles, stage instances, scheduled
events and channels are put, emojis and stickers are reconciled. What a method does to a family is said of
the runs that do not fail.
-/

namespace Tulpje.Cache

open Twilight Lib

variable {h : HashName} {n : SetName} {V : Type}

def family (n : SetName) (repository : Repository h n.Elem V) (key : n.Key) (s : State) : Indexed n.Elem V :=
  ⟨s.sets n key, fun id => (s.hashes h (repository.field id)).bind repository.decode⟩

/-- A wanted repository that reads back what it writes. -/
structure Repository.Sound {K : Type} (repository : Repository h K V) : Prop where
  wanted : repository.wanted = true
  decode_encode : ∀ value, repository.decode (repository.encode value) = some value
  field_injective : Function.Injective repository.field

theorem Repository.sound_new {wanted : Bool} (hw : wanted = true) (h : HashName) :
    (Repository.new h wanted).Sound :=
  ⟨hw, fun _ => rfl, Function.injective_id⟩

section Family
variable {repository : Repository h n.Elem V} {key : n.Key} {id : n.Elem} {value : V} {s : State}

theorem family_keeps {o : Op} (hh : o.area ≠ .hash h) (hn : o.area ≠ .set n) :
    family n repository key (eval o s).2 = family n repository key s := by
  unfold family
  rw [eval_hashes hh, eval_sets hn]

theorem family_hset (hs : repository.Sound) :
    family n repository key (s.hset h (repository.field id) (repository.encode value)) =
      ⟨(family n repository key s).index,
        Function.update (family n repository key s).store id (some value)⟩ := by
  unfold family
  congr 1
  funext id'
  rw [State.hset_self]
  by_cases hid : id' = id
  · rw [hid, Function.update_self, Function.update_self]
    exact hs.decode_encode value
  · rw [Function.update_of_ne hid, Function.update_of_ne fun heq => hid (hs.field_injective heq)]

theorem family_sadd : family n repository key (s.sadd n key id) =
    ⟨insert id (family n repository key s).index, (family n repository key s).store⟩ := by
  unfold family
  rw [State.sadd_self, Function.update_self]
  rfl

theorem family_sadd_hset (hs : repository.Sound) :
    family n repository key
      ((s.sadd n key id).hset h (repository.field id) (repository.encode value)) =
      (family n repository key s).put (id, value) := by
  rw [family_hset hs, family_sadd]
  rfl

theorem family_hset_sadd (hs : repository.Sound) :
    family n repository key
      ((s.hset h (repository.field id) (repository.encode value)).sadd n key id) =
      (family n repository key s).put (id, value) := by
  rw [family_sadd, family_hset hs]
  rfl

theorem family_del : family n repository key (s.del n key) = (family n repository key s).clearIndex := by
  unfold family
  rw [State.del_self, Function.update_self]
  rfl

/-- The two removals of `cache_emojis` and `cache_stickers`. -/
theorem family_removal (hs : repository.Sound) (ids : Finset n.Elem) :
    family n repository key ((s.srem n key ids).hdel h (ids.image repository.field)) =
      ⟨(family n repository key s).index \ ids,
        fun id => if id ∈ ids then none else (family n repository key s).store id⟩ := by
  unfold family
  rw [State.hdel_sets, State.srem_self, Function.update_self, State.hdel_self, State.srem_hashes]
  congr 1
  funext id
  have hmem : repository.field id ∈ ids.image repository.field ↔ id ∈ ids := by
    rw [Finset.mem_image]
    constructor
    · rintro ⟨id', hid', heq⟩
      exact hs.field_injective heq ▸ hid'
    · exact fun hid => ⟨id, hid, rfl⟩
  dsimp only
  by_cases hid : id ∈ ids
  · rw [if_pos (hmem.mpr hid), if_pos hid]
    rfl
  · rw [if_neg (hmem.not.mpr hid), if_neg hid]

end Family

/-- A program that stays off a family keeps it. -/
theorem Touches.acts {α : Type} {areas : List Area} {fails : Prop} {p : CacheM α}
    (hp : Touches areas fails p) {repository : Repository h n.Elem V} (hh : .hash h ∉ areas)
    (hn : .set n ∉ areas) (key : n.Key) : Prog.Acts eval (family n repository key) id p := by
  refine Prog.Acts.of_all (Prog.All.imp hp fun o ho s => ?_)
  exact family_keeps (fun heq => hh (heq ▸ ho)) fun heq => hn (heq ▸ ho)

/-! ### Writing a list -/

section Put
variable (repository : Repository h n.Elem V) (index : MappedSetRepository n)

theorem acts_put (hs : repository.Sound) (hi : index.wanted = true) (key : n.Key) (id : n.Elem)
    (value : V) : Prog.Acts eval (family n repository key)
      (fun x => x.putUnless Indexed.never (id, value)) (do
        let _ ← index.insert key id
        let _ ← repository.insert id value
        pure ()) := by
  intro s a t hexec
  rw [Prog.exec_bind_ok (index.exec_insert key hi id s),
    Prog.exec_bind_ok (repository.exec_insert hs.wanted id value _)] at hexec
  cases hexec
  rw [family_sadd_hset hs]
  exact (Indexed.putUnless_never (family n repository key s) (id, value)).symm

variable {repository} in
/-- A list whose elements are each put. -/
theorem acts_putAll {γ : Type} {same : V → V → Bool} {key : n.Key} {p : γ → CacheM Unit}
    (item : γ → n.Elem × V) {xs : List γ}
    (hp : ∀ x ∈ xs, Prog.Acts eval (family n repository key)
      (fun y => y.putUnless same (item x)) (p x)) :
    Prog.Acts eval (family n repository key) (Indexed.putAll same (xs.map item)) (xs.forM p) := by
  have hfold : Indexed.putAll same (xs.map item) =
      fun y => xs.foldl (fun y x => y.putUnless same (item x)) y :=
    funext fun y => List.foldl_map ..
  rw [hfold]
  exact Prog.Acts.forM _ hp

/-- The first half of `cache_emojis` and `cache_stickers`. -/
def removeStale (key : n.Key) (incoming : List n.Elem) : CacheM Unit := do
  let ids ← index.members key
  onlyIf (ids ≠ ∅) do
    let removalFilter := ids.filter (· ∉ incoming)
    let _ ← index.removeMulti key removalFilter
    let _ ← repository.removeMulti removalFilter
    pure ()

theorem exec_removeStale (hw : repository.wanted = true) (hi : index.wanted = true) (key : n.Key)
    (incoming : List n.Elem) (s : State) :
    (removeStale repository index key incoming).exec eval s =
      (.ok (), (s.srem n key ((s.sets n key).filter (· ∉ incoming))).hdel h
        (((s.sets n key).filter (· ∉ incoming)).image repository.field)) := by
  unfold removeStale
  rw [Prog.exec_bind_ok (index.exec_members key s)]
  by_cases hids : s.sets n key = ∅
  · have hsrem : s.srem n key ∅ = s := congrArg Prod.snd (srem_empty n key s)
    have hhdel : s.hdel h ∅ = s := congrArg Prod.snd (hdel_empty h s)
    rw [hids, Finset.filter_empty, Finset.image_empty, hsrem, hhdel]
    rfl
  · have hcond : decide (s.sets n key ≠ ∅) = true := decide_eq_true hids
    unfold onlyIf
    rw [if_pos hcond, Prog.exec_bind_ok (index.exec_removeMulti key hi _ s),
      Prog.exec_bind_ok (repository.exec_removeMulti hw _ _)]
    rfl

theorem acts_removeStale (hs : repository.Sound) (hi : index.wanted = true) (key : n.Key)
    (incoming : List n.Elem) : Prog.Acts eval (family n repository key) (Indexed.dropStale incoming)
      (removeStale repository index key incoming) := by
  intro s a t hexec
  rw [exec_removeStale repository index hs.wanted hi] at hexec
  cases hexec
  rw [family_removal hs]
  rfl

variable {repository index} in
theorem touches_removeStale {areas : List Area} {fails : Prop} (hh : .hash h ∈ areas)
    (hn : .set n ∈ areas) (key : n.Key) (incoming : List n.Elem) :
    Touches areas fails (removeStale repository index key incoming) := by
  refine (MappedSetRepository.touches_members _ hn).bind fun _ => touches_onlyIf ?_
  refine (MappedSetRepository.touches_removeMulti _ hn _).bind fun _ => ?_
  exact (Repository.touches_removeMulti hh _).bind fun _ => Touches.pure _

end Put

/-! ### Families that are put -/

section Methods
variable (size : Nat) (g : Id .guild)

theorem acts_cacheRoles (roles : List Role) :
    Prog.Acts eval (family .guildRoles (new (.all size)).roles g)
      (Indexed.putAll Indexed.never (roles.map fun role => (role.id, ⟨g, role⟩)))
      ((new (.all size)).cacheRoles g roles) := by
  refine acts_putAll _ fun role _ => ?_
  exact acts_put (new (.all size)).roles (new (.all size)).guildRoles (Repository.sound_new rfl _) rfl
    g role.id ⟨g, role⟩

theorem acts_cacheStageInstances (stageInstances : List StageInstance) :
    Prog.Acts eval (family .guildStageInstances (new (.all size)).stageInstances g)
      (Indexed.putAll Indexed.never (stageInstances.map fun stage => (stage.id, ⟨g, stage⟩)))
      ((new (.all size)).cacheStageInstances g stageInstances) := by
  refine acts_putAll _ fun stage _ => ?_
  exact acts_put (new (.all size)).stageInstances (new (.all size)).guildStageInstances
    (Repository.sound_new rfl _) rfl g stage.id ⟨g, stage⟩

theorem acts_cacheGuildScheduledEvents (events : List GuildScheduledEvent) :
    Prog.Acts eval (family .guildScheduledEvents (new (.all size)).scheduledEvents g)
      (Indexed.putAll Indexed.never (events.map fun event => (event.id, event)))
      ((new (.all size)).cacheGuildScheduledEvents g events) := by
  refine acts_putAll _ fun event _ => ?_
  exact acts_put (new (.all size)).scheduledEvents (new (.all size)).guildScheduledEvents
    (Repository.sound_new rfl _) rfl g event.id event

theorem acts_cacheChannels (channels : List Channel) (hg : ∀ c ∈ channels, c.guildId = some g) :
    Prog.Acts eval (family .guildChannels (new (.all size)).channels g)
      (Indexed.putAll Indexed.never (channels.map fun channel => (channel.id, channel)))
      ((new (.all size)).cacheChannels channels) := by
  refine acts_putAll _ fun channel hc => ?_
  unfold cacheChannel
  rw [hg channel hc]
  exact acts_put (new (.all size)).channels (new (.all size)).guildChannels
    (Repository.sound_new rfl _) rfl g channel.id channel

end Methods

end Tulpje.Cache
