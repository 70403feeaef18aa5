import Tulpje.Cache.Indexes
import Tulpje.Lib.Covered

/-!
# Reconciling emojis and stickers

`GuildEmojisUpdate` and `GuildStickersUpdate` carry the whole list of a guild. Deleting a guild removes its
emojis and stickers and leaves their indexes, so the two sides of a family do not agree any more; but the
indexes still cover the stores (`Lib.Placing.Covers`), whatever events come, and that is enough for the two
updates: `lists_reconciled`.
-/

namespace Tulpje.Cache

open Twilight Lib

/-! ### A family whose index covers its store -/

section Families
variable {h : HashName} {n : SetName} {V : Type}

def FamilyCovers (repository : Repository h n.Elem V) (p : Placing h.Field n.Key n.Elem) (owner : V → n.Key)
    (s : State) : Prop :=
  p.Covers (Placing.Read repository.decode owner p) (s.sets n) (s.hashes h)

/-- From `s` to `t` the family of the key has changed by `f`, and no other index has. -/
structure Changes (repository : Repository h n.Elem V) (p : Placing h.Field n.Key n.Elem) (owner : V → n.Key)
    (key : n.Key) (f : Indexed n.Elem V → Indexed n.Elem V) (s t : State) : Prop where
  covers : FamilyCovers repository p owner t
  family : family n repository key t = f (family n repository key s)
  others : ∀ key' ≠ key, t.sets n key' = s.sets n key'

/-- The program returns and changes the family so, if the index covers the store. -/
def Changing (repository : Repository h n.Elem V) (p : Placing h.Field n.Key n.Elem) (owner : V → n.Key)
    (key : n.Key) (f : Indexed n.Elem V → Indexed n.Elem V) (prog : CacheM Unit) : Prop :=
  ∀ s, FamilyCovers repository p owner s →
    prog.wp eval (fun _ t => Changes repository p owner key f s t) (fun _ => False) s

variable {repository : Repository h n.Elem V} {index : MappedSetRepository n}
  {p : Placing h.Field n.Key n.Elem} {owner : V → n.Key} {key : n.Key} {f f' : Indexed n.Elem V → Indexed n.Elem V}
  {prog prog' : CacheM Unit}

theorem familyCovers_empty : FamilyCovers repository p owner .empty := Placing.covers_empty

theorem familyCovers_dependsOn : DependsOn [.hash h, .set n] (FamilyCovers repository p owner) :=
  dependsOn_family (p.Covers (Placing.Read repository.decode owner p))

/-- Entries of any hash are removed. -/
theorem FamilyCovers.hdel {s : State} (hs : FamilyCovers repository p owner s) {h' : HashName}
    (fields : Finset h'.Field) : FamilyCovers repository p owner (s.hdel h' fields) := by
  apply Placing.Covers.forget hs
  intro field v hv
  by_cases hh : h = h'
  · subst hh
    rw [State.hdel_self] at hv
    exact (Option.ite_none_left_eq_some.mp hv).2
  · rwa [State.hdel_of_ne _ _ hh] at hv

theorem Changing.keeps (hprog : Changing repository p owner key f prog) :
    Prog.Keeps eval (FamilyCovers repository p owner) prog := by
  intro s hs
  have hwp := hprog s hs
  unfold Prog.wp at hwp ⊢
  rcases hexec : prog.exec eval s with ⟨_ | a, t⟩
  · rw [hexec] at hwp
    exact hwp.elim
  · rw [hexec] at hwp
    exact hwp.covers

theorem Changing.bind (hprog : Changing repository p owner key f prog)
    (hprog' : Changing repository p owner key f' prog') :
    Changing repository p owner key (f' ∘ f) (prog >>= fun _ => prog') := by
  intro s hs
  refine Prog.wp_bind.mpr (Prog.wp_mono (hprog s hs) fun _ t ht => ?_)
  refine Prog.wp_mono (hprog' t ht.covers) fun _ u hu => ⟨hu.covers, ?_, fun key' hkey => ?_⟩
  · rw [hu.family, ht.family]
    rfl
  · rw [hu.others key' hkey, ht.others key' hkey]

theorem Changing.pure : Changing repository p owner key id (Pure.pure ()) :=
  fun _ hs => ⟨hs, rfl, fun _ _ => rfl⟩

theorem Changing.forM {γ : Type} {xs : List γ} {step : γ → CacheM Unit} {same : V → V → Bool}
    {item : γ → n.Elem × V}
    (hstep : ∀ x ∈ xs, Changing repository p owner key (fun y => y.putUnless same (item x)) (step x)) :
    Changing repository p owner key (Indexed.putAll same (xs.map item)) (xs.forM step) := by
  induction xs with
  | nil => exact Changing.pure
  | cons x xs ih =>
    have hfirst := hstep x List.mem_cons_self
    have hrest := ih fun y hy => hstep y (List.mem_cons_of_mem _ hy)
    exact hfirst.bind hrest

/-- A program that stays off the family, before another one. -/
theorem Changing.after {areas : List Area} {first : CacheM Unit} (hfirst : Touches areas False first)
    (hareas : ∀ a ∈ [Area.hash h, .set n], a ∉ areas) (hprog : Changing repository p owner key f prog) :
    Changing repository p owner key f (first >>= fun _ => prog) := by
  intro s hs
  have hparts : ∀ a ∈ [Area.hash h, .set n], (first.exec eval s).2.part a = s.part a :=
    fun a ha => hfirst.part (hareas a ha) s
  have hstore : (first.exec eval s).2.hashes h = s.hashes h := hparts (.hash h) (by simp)
  have hindex : (first.exec eval s).2.sets n = s.sets n := hparts (.set n) (by simp)
  obtain ⟨_, hexec⟩ := hfirst.exec_ok s
  refine Prog.wp_bind.mpr ((Prog.wp_of_exec hexec).mpr ?_)
  refine Prog.wp_mono (hprog _ (familyCovers_dependsOn s _ hparts hs)) fun _ t ht => ⟨ht.covers, ?_, ?_⟩
  · rw [ht.family, Tulpje.Cache.family, hstore, hindex]
    rfl
  · intro key' hkey
    rw [ht.others key' hkey, hindex]

section Writes
variable (hsound : repository.Sound) (hi : index.wanted = true) {id : n.Elem} {value : V}
  (hplace : p.place (repository.field id) = some (key, id)) (howner : owner value = key)
include hsound hplace howner

theorem changes_put {s : State} (hs : FamilyCovers repository p owner s) :
    Changes repository p owner key (fun x => x.put (id, value)) s
      ((s.hset h (repository.field id) (repository.encode value)).sadd n key id) := by
  refine ⟨?_, family_hset_sadd hsound, fun key' hkey => ?_⟩
  · rw [FamilyCovers, State.sadd_self, State.sadd_hashes, State.hset_sets, State.hset_self]
    refine Placing.Covers.put hs hplace ⟨value, hsound.decode_encode value, ?_⟩
    rw [hplace, howner]
    rfl
  · rw [State.sadd_self, Function.update_of_ne hkey, State.hset_sets]

include hi

theorem changing_storeAndList : Changing repository p owner key (fun x => x.put (id, value)) (do
    let _ ← repository.insert id value
    let _ ← index.insert key id
    pure ()) := by
  intro s hs
  refine Prog.wp_bind.mpr ((Prog.wp_of_exec (repository.exec_insert hsound.wanted id value s)).mpr ?_)
  refine Prog.wp_bind.mpr ((index.wp_insert key hi id).mpr ?_)
  exact changes_put hsound hplace howner hs

theorem changing_listAndStore : Changing repository p owner key (fun x => x.put (id, value)) (do
    let _ ← index.insert key id
    let _ ← repository.insert id value
    pure ()) := by
  intro s hs
  refine Prog.wp_bind.mpr ((index.wp_insert key hi id).mpr ?_)
  refine Prog.wp_bind.mpr ((Prog.wp_of_exec (repository.exec_insert hsound.wanted id value _)).mpr ?_)
  exact changes_put hsound hplace howner hs

end Writes

/-- A value is put unless the one that is cached compares equal. -/
theorem Changing.unless {id : n.Elem} {value : V} {same : V → V → Bool} {equal : V → Bool}
    (hprog : Changing repository p owner key (fun x => x.put (id, value)) prog)
    (hequal : ∀ v, equal v = same v value) :
    Changing repository p owner key (fun x => x.putUnless same (id, value)) (do
      let cached ← repository.get id
      onlyIf (!cached.any equal) prog) := by
  intro s hs
  have hcached : ∀ cached, (s.hashes h (repository.field id)).bind repository.decode = cached →
      (onlyIf (!cached.any equal) prog).wp eval (fun _ t => Changes repository p owner key
        (fun x => x.putUnless same (id, value)) s t) (fun _ => False) s := by
    intro cached hread
    have hskips : (family n repository key s).skips same (id, value) = cached.any equal := by
      show ((s.hashes h (repository.field id)).bind repository.decode).any _ = _
      rw [hread, funext hequal]
    apply wp_onlyIf.mpr
    cases hany : cached.any equal with
    | true =>
      refine ⟨hs, ?_, fun _ _ => rfl⟩
      rw [Indexed.putUnless, hskips, hany, if_pos rfl]
    | false =>
      refine Prog.wp_mono (hprog s hs) fun _ t ht => ⟨ht.covers, ?_, ht.others⟩
      rw [ht.family, Indexed.putUnless, hskips, hany, if_neg Bool.false_ne_true]
  rcases hentry : s.hashes h (repository.field id) with _ | entry
  · refine Prog.wp_bind.mpr ((Prog.wp_of_exec (repository.exec_get_of_none hentry)).mpr (hcached none ?_))
    rw [hentry]
    rfl
  · -- an entry that is in order can be read
    obtain ⟨v, hv, -⟩ := hs.stored hentry
    refine Prog.wp_bind.mpr ((Prog.wp_of_exec (repository.exec_get_of_some hentry hv)).mpr
      (hcached (some v) ?_))
    rw [hentry]
    exact hv

theorem changing_removeStale (hsound : repository.Sound) (hi : index.wanted = true)
    (hfield : repository.field = p.field key) (incoming : List n.Elem) :
    Changing repository p owner key (Indexed.dropStale incoming) (removeStale repository index key incoming) := by
  intro s hs
  refine (Prog.wp_of_exec (exec_removeStale repository index hsound.wanted hi key incoming s)).mpr ?_
  refine ⟨?_, family_removal hsound _, fun key' hkey => ?_⟩
  · rw [FamilyCovers, State.hdel_sets, State.hdel_self, State.srem_self, State.srem_hashes, hfield]
    exact Placing.Covers.remove hs key _
  · rw [State.hdel_sets, State.srem_self, Function.update_of_ne hkey]

/-! Deleting a guild removes entries and clears three indexes. -/

theorem keeps_removeIds {n' : SetName} {h' : HashName} {V' : Type} (guildMap : MappedSetRepository n')
    (container : Repository h' n'.Elem V') (guildId : n'.Key) :
    Prog.Keeps eval (FamilyCovers repository p owner) (removeIds guildMap container guildId) := by
  intro s hs
  refine Prog.wp_bind.mpr ((guildMap.wp_members guildId).mpr ?_)
  exact ((keeps_removeMulti fun s hs => hs.hdel _).bind fun _ => Prog.Keeps.pure _) s hs

theorem keeps_clear {n' : SetName} (hn : n ≠ n') (index : MappedSetRepository n') (guildId : n'.Key) :
    Prog.Keeps eval (FamilyCovers repository p owner) (index.clear guildId) := by
  have hclear : Touches [.set n'] False (index.clear guildId) :=
    MappedSetRepository.touches_clear guildId List.mem_cons_self
  exact hclear.keeps familyCovers_dependsOn (by simp [hn])

variable {config : Config} (hh : h ≠ .guilds)
  (hn : n ∉ [SetName.voiceStateGuilds, .guildMembers, .guildPresences, .unavailableGuilds])
include hn

theorem keeps_deleteGuildContents (g : Id .guild) :
    Prog.Keeps eval (FamilyCovers repository p owner) ((withOwnUsers config).deleteGuildContents g) := by
  simp only [List.mem_cons, List.not_mem_nil, or_false, not_or] at hn
  obtain ⟨hvoice, hmember, hpresence, -⟩ := hn
  have hmembers : ∀ {n' : SetName} (index : MappedSetRepository n') (guildId : n'.Key),
      Prog.Keeps eval (FamilyCovers repository p owner) (index.members guildId) := fun _ _ _ hs => hs
  let self := withOwnUsers config
  refine (keeps_removeIds self.guildChannels self.channels g).bind fun _ => ?_
  refine (keeps_removeIds self.guildEmojis self.emojis g).bind fun _ => ?_
  refine (keeps_removeIds self.guildRoles self.roles g).bind fun _ => ?_
  refine (keeps_removeIds self.guildStickers self.stickers g).bind fun _ => ?_
  refine (keeps_clear hvoice self.voiceStateGuilds g).bind fun _ => ?_
  refine (hmembers self.guildMembers g).bind fun _ => ?_
  refine (keeps_removeMulti fun s hs => hs.hdel _).bind fun _ => ?_
  refine (keeps_clear hmember self.guildMembers g).bind fun _ => ?_
  refine (hmembers self.guildPresences g).bind fun _ => ?_
  refine (keeps_removeMulti fun s hs => hs.hdel _).bind fun _ => ?_
  exact (keeps_clear hpresence self.guildPresences g).bind fun _ => Prog.Keeps.pure _

include hh

theorem keeps_deleteGuild (g : Id .guild) (unavailable : Bool) :
    Prog.Keeps eval (FamilyCovers repository p owner) ((withOwnUsers config).deleteGuild g unavailable) := by
  have hrecord : Touches [.hash .guilds] False ((withOwnUsers config).deleteGuildRecord g unavailable) :=
    touches_deleteGuildRecord g unavailable
  rw [deleteGuild_eq]
  refine (hrecord.keeps familyCovers_dependsOn (by simp [hh])).bind fun _ => ?_
  exact keeps_deleteGuildContents hn g

theorem keeps_unavailableGuild (g : Id .guild) :
    Prog.Keeps eval (FamilyCovers repository p owner) ((withOwnUsers config).unavailableGuild g) := by
  have hinsert : Touches [.set .unavailableGuilds] False ((withOwnUsers config).unavailableGuilds.insert g) :=
    SetRepository.touches_insert (n := .unavailableGuilds) (by decide) g
  have hset : n ≠ .unavailableGuilds := fun heq => hn (by simp [heq])
  refine (hinsert.keeps familyCovers_dependsOn (by simp [hset])).bind fun _ => ?_
  exact keeps_deleteGuild hh hn g true

theorem keeps_ready (ready : Ready) :
    Prog.Keeps eval (FamilyCovers repository p owner) ((withOwnUsers config).ready ready) := by
  have huser : Touches [.currentUser] False ((withOwnUsers config).cacheCurrentUser ready.user) :=
    touches_cacheCurrentUser ready.user
  refine (huser.keeps familyCovers_dependsOn (by simp)).bind fun _ => ?_
  exact Prog.Keeps.forM fun guild _ => keeps_unavailableGuild hh hn guild.id

end Families

/-! ### Emojis and stickers -/

/-- The emojis and stickers that an event carries, each with its guild. -/
def Event.itemPlacements : Event → List (Entity × Id .guild)
  | .guildCreate (.available guild) =>
    guild.emojis.map (fun emoji => (.emoji emoji.id, guild.id)) ++
      guild.stickers.map (fun sticker => (.sticker sticker.id, guild.id))
  | .guildEmojisUpdate guildId emojis => emojis.map fun emoji => (.emoji emoji.id, guildId)
  | .guildStickersUpdate guildId stickers => stickers.map fun sticker => (.sticker sticker.id, guildId)
  | _ => []

/-- Each emoji and each sticker belongs to one guild for ever. -/
def OneGuildForEver (events : List Event) : Prop :=
  ∀ m ∈ events.flatMap Event.itemPlacements, ∀ m' ∈ events.flatMap Event.itemPlacements,
    m.1 = m'.1 → m.2 = m'.2

theorem OneGuildForEver.exists_home {events : List Event} (h : OneGuildForEver events) :
    ∃ home : Entity → Option (Id .guild), ∀ event ∈ events, ∀ m ∈ Event.itemPlacements event,
      home m.1 = some m.2 := by
  let carried := events.flatMap Event.itemPlacements
  refine ⟨fun entity => (carried.find? fun m => m.1 = entity).map Prod.snd, ?_⟩
  intro event hevent m hm
  have hmem : m ∈ carried := List.mem_flatMap.mpr ⟨event, hevent, hm⟩
  obtain ⟨m', hm'⟩ := Option.isSome_iff_exists.mp
    (List.find?_isSome (p := fun m' => decide (m'.1 = m.1)).mpr ⟨m, hmem, by simp⟩)
  have heq : m'.1 = m.1 := by simpa using List.find?_some hm'
  dsimp only
  rw [hm', Option.map_some, h m' (List.mem_of_find?_eq_some hm') m hmem heq]

section Items
variable {config : Config} {home : Entity → Option (Id .guild)} {g : Id .guild}

theorem touches_ownUser (user : CachedUser) (guildId : Option (Id .guild)) :
    Touches [.hash .users, .set .userGuilds] False ((withOwnUsers config).cacheUser user guildId) := by
  refine (Repository.touches_get List.mem_cons_self (.inl Option.some_ne_none) _).bind fun _ => ?_
  refine (touches_onlyIf ?_).bind fun _ => touches_forM fun _ => ?_
  · exact (Repository.touches_insert List.mem_cons_self _ _).bind fun _ => Touches.pure _
  · exact (MappedSetRepository.touches_insert _ (by decide) _).bind fun _ => Touches.pure _

def EmojisCovered (config : Config) (home : Entity → Option (Id .guild)) : State → Prop :=
  FamilyCovers (n := .guildEmojis) (withOwnUsers config).emojis (emojiPlacing home) (·.guildId)

def StickersCovered (config : Config) (home : Entity → Option (Id .guild)) : State → Prop :=
  FamilyCovers (n := .guildStickers) (withOwnUsers config).stickers (stickerPlacing home) (·.guildId)

section Emojis
variable (hw : config.wants .emoji = true)
include hw

theorem sound_ownEmojis : (withOwnUsers config).emojis.Sound :=
  ⟨hw, fun _ => rfl, Id.get_injective _⟩

theorem changing_cacheEmoji {emoji : Emoji} (hhome : home (.emoji emoji.id) = some g) :
    Changing (n := .guildEmojis) (withOwnUsers config).emojis (emojiPlacing home) (·.guildId) g
      (fun x => x.putUnless sameValue (emojiItem g emoji)) ((withOwnUsers config).cacheEmoji g emoji) := by
  have huser : Touches [.hash .users, .set .userGuilds] False
      (emoji.user.forM fun user => (withOwnUsers config).cacheUser user (some g)) :=
    touches_forM fun user => touches_ownUser user _
  have hplace : (emojiPlacing home).place emoji.id.get = some (g, emoji.id) :=
    Placing.place_of_home (e := emoji.id) hhome
  refine Changing.after huser (by decide) (Changing.unless ?_ fun v => ?_)
  · exact changing_storeAndList (sound_ownEmojis hw) hw hplace rfl
  · exact Bool.eq_iff_iff.mpr (CachedEmoji.eqEmoji_iff.trans decide_eq_true_iff.symm)

theorem changing_cacheEmojis {emojis : List Emoji} (hhome : ∀ emoji ∈ emojis, home (.emoji emoji.id) = some g) :
    Changing (n := .guildEmojis) (withOwnUsers config).emojis (emojiPlacing home) (·.guildId) g
      (Indexed.putAll sameValue (emojis.map (emojiItem g)) ∘ Indexed.dropStale (emojis.map (·.id)))
      ((withOwnUsers config).cacheEmojis g emojis) := by
  rw [cacheEmojis_eq]
  refine (changing_removeStale (sound_ownEmojis hw) hw rfl _).bind (Changing.forM fun emoji hemoji => ?_)
  exact changing_cacheEmoji hw (hhome emoji hemoji)

end Emojis

section Stickers
variable (hw : config.wants .sticker = true)
include hw

theorem changing_cacheSticker {sticker : Sticker} (hhome : home (.sticker sticker.id) = some g) :
    Changing (n := .guildStickers) (withOwnUsers config).stickers (stickerPlacing home) (·.guildId) g
      (fun x => x.putUnless sameValue (stickerItem g sticker))
      ((withOwnUsers config).cacheSticker g sticker) := by
  have huser : Touches [.hash .users, .set .userGuilds] False
      (sticker.user.forM fun user => (withOwnUsers config).cacheUser user (some g)) :=
    touches_forM fun user => touches_ownUser user _
  refine Changing.unless (Changing.after huser (by decide) ?_) fun v => ?_
  · exact changing_listAndStore (Repository.sound_new hw _) hw (Placing.place_of_home hhome) rfl
  · exact Bool.eq_iff_iff.mpr (CachedSticker.eqSticker_iff.trans decide_eq_true_iff.symm)

theorem changing_cacheStickers {stickers : List Sticker}
    (hhome : ∀ sticker ∈ stickers, home (.sticker sticker.id) = some g) :
    Changing (n := .guildStickers) (withOwnUsers config).stickers (stickerPlacing home) (·.guildId) g
      (Indexed.putAll sameValue (stickers.map (stickerItem g)) ∘ Indexed.dropStale (stickers.map (·.id)))
      ((withOwnUsers config).cacheStickers g stickers) := by
  rw [cacheStickers_eq]
  refine (changing_removeStale (Repository.sound_new hw _) hw rfl _).bind
    (Changing.forM fun sticker hsticker => ?_)
  exact changing_cacheSticker hw (hhome sticker hsticker)

end Stickers

/-! Every event keeps the covering. -/

section Events
variable {event : Event} (hhome : ∀ m ∈ Event.itemPlacements event, home m.1 = some m.2)
include hhome

theorem keeps_update_emojisCovered (hw : config.wants .emoji = true) :
    Prog.Keeps eval (EmojisCovered config home) ((withOwnUsers config).update event) := by
  cases event with
  | guildEmojisUpdate g emojis =>
    exact (changing_cacheEmojis hw fun emoji hemoji => hhome _ (List.mem_map_of_mem hemoji)).keeps
  | guildDelete guild => exact keeps_deleteGuild (by decide) (by decide) guild.id false
  | unavailableGuild guild => exact keeps_unavailableGuild (by decide) (by decide) guild.id
  | ready ready => exact keeps_ready (by decide) (by decide) ready
  | guildCreate create =>
    cases create with
    | unavailable guild => exact keeps_unavailableGuild (by decide) (by decide) guild.id
    | available guild =>
      have hemojis : ∀ emoji ∈ guild.emojis, home (.emoji emoji.id) = some guild.id := fun emoji hemoji =>
        hhome _ (List.mem_append_left _ (List.mem_map_of_mem hemoji))
      refine keeps_cacheGuild fun step => ?_
      cases step with
      | staleEmojis => exact (changing_removeStale (sound_ownEmojis hw) hw rfl _).keeps
      | emojis =>
        exact Prog.Keeps.forM fun emoji hemoji => (changing_cacheEmoji hw (hemojis emoji hemoji)).keeps
      | members =>
        refine Prog.Keeps.forM fun member _ => ?_
        have hmember : Touches (memberAreas [.hash .users, .set .userGuilds]) True
            ((withOwnUsers config).cacheMember guild.id member) := touches_cacheMember_own guild.id member
        exact hmember.keeps familyCovers_dependsOn (by decide)
      | stickers =>
        refine Prog.Keeps.forM fun sticker _ => ?_
        have hsticker : Touches [.hash .stickers, .set .guildStickers, .hash .users, .set .userGuilds] True
            ((withOwnUsers config).cacheSticker guild.id sticker) := touches_cacheSticker_own guild.id sticker
        exact hsticker.keeps familyCovers_dependsOn (by decide)
      | _ => exact (GuildStep.touches _).keeps familyCovers_dependsOn (by decide)
  | _ => exact keeps_update_off familyCovers_dependsOn (by simp only [Event.areas]; decide)

theorem keeps_update_stickersCovered (hw : config.wants .sticker = true) :
    Prog.Keeps eval (StickersCovered config home) ((withOwnUsers config).update event) := by
  cases event with
  | guildStickersUpdate g stickers =>
    exact (changing_cacheStickers hw fun sticker hsticker => hhome _ (List.mem_map_of_mem hsticker)).keeps
  | guildDelete guild => exact keeps_deleteGuild (by decide) (by decide) guild.id false
  | unavailableGuild guild => exact keeps_unavailableGuild (by decide) (by decide) guild.id
  | ready ready => exact keeps_ready (by decide) (by decide) ready
  | guildCreate create =>
    cases create with
    | unavailable guild => exact keeps_unavailableGuild (by decide) (by decide) guild.id
    | available guild =>
      have hstickers : ∀ sticker ∈ guild.stickers, home (.sticker sticker.id) = some guild.id :=
        fun sticker hsticker => hhome _ (List.mem_append_right _ (List.mem_map_of_mem hsticker))
      refine keeps_cacheGuild fun step => ?_
      cases step with
      | staleStickers => exact (changing_removeStale (Repository.sound_new hw _) hw rfl _).keeps
      | stickers =>
        refine Prog.Keeps.forM fun sticker hsticker => ?_
        exact (changing_cacheSticker hw (hstickers sticker hsticker)).keeps
      | _ => exact (GuildStep.touches _).keeps familyCovers_dependsOn (by decide)
  | _ => exact keeps_update_off familyCovers_dependsOn (by simp only [Event.areas]; decide)

end Events

end Items

/-! ### The two updates -/

/-- After the run the owner of the index has exactly these items, and the others have what they had. -/
structure Reconciles {h : HashName} {n : SetName} {V : Type} (repository : Repository h n.Elem V)
    (own : V → Prop) (key : n.Key) (items : List (n.Elem × V)) (s t : State) : Prop where
  snapshot : Indexed.IsSnapshot own items (family n repository key s) (family n repository key t)
  others : ∀ key' ≠ key, t.sets n key' = s.sets n key'

theorem Changing.reconciles {h : HashName} {n : SetName} {V : Type} {repository : Repository h n.Elem V}
    {p : Placing h.Field n.Key n.Elem} {owner : V → n.Key} {key : n.Key} {same : V → V → Bool}
    {items : List (n.Elem × V)} {ids : List n.Elem} {prog : CacheM Unit} {s : State}
    (hprog : Changing repository p owner key (Indexed.putAll same items ∘ Indexed.dropStale ids) prog)
    (hs : FamilyCovers repository p owner s) (hfield : repository.field = p.field key)
    (hids : items.map Prod.fst = ids) (hnodup : ids.Nodup)
    (hplace : ∀ item ∈ items, p.place (repository.field item.1) = some (key, item.1))
    (howner : ∀ item ∈ items, owner item.2 = key)
    (hsame : ∀ v w, owner v = key → owner w = key → same v w = true → v = w) :
    ∃ t, prog.exec eval s = (.ok (), t) ∧ Reconciles repository (fun v => owner v = key) key items s t := by
  have hwp := hprog s hs
  unfold Prog.wp at hwp
  rcases hexec : prog.exec eval s with ⟨_ | a, t⟩
  · rw [hexec] at hwp
    exact hwp.elim
  · rw [hexec] at hwp
    refine ⟨t, rfl, ?_, hwp.others⟩
    subst hids
    rw [hfield] at hplace
    have hview : family n repository key s = Placing.view repository.decode (s.sets n) (s.hashes h) p key := by
      rw [family, hfield]
      rfl
    rw [hwp.family, hview]
    exact Placing.Covers.isSnapshot hs hnodup hplace howner hsame

/-- Whatever has happened before, the two updates reconcile the list of their guild exactly. -/
theorem lists_reconciled {config : Config} (events : List Event) (g : Id .guild) :
    let self := withOwnUsers config
    let s := self.applyEvents events .empty
    (config.wants .emoji = true → ∀ emojis : List Emoji, (emojis.map (·.id)).Nodup →
      OneGuildForEver (events ++ [.guildEmojisUpdate g emojis]) →
      ∃ t, (self.update (.guildEmojisUpdate g emojis)).exec eval s = (.ok (), t) ∧
        Reconciles (n := .guildEmojis) self.emojis (ownResource g) g (emojis.map (emojiItem g)) s t) ∧
    (config.wants .sticker = true → ∀ stickers : List Sticker, (stickers.map (·.id)).Nodup →
      OneGuildForEver (events ++ [.guildStickersUpdate g stickers]) →
      ∃ t, (self.update (.guildStickersUpdate g stickers)).exec eval s = (.ok (), t) ∧
        Reconciles (n := .guildStickers) self.stickers (ownResource g) g (stickers.map (stickerItem g)) s t) := by
  intro self s
  constructor
  · intro hw emojis hnodup hguilds
    obtain ⟨home, hhome⟩ := hguilds.exists_home
    have hcovered : EmojisCovered config home s := by
      refine applyEvents_keeps (fun event hevent => ?_) familyCovers_empty
      exact keeps_update_emojisCovered (hhome event (List.mem_append_left _ hevent)) hw
    have hlast : ∀ emoji ∈ emojis, home (.emoji emoji.id) = some g := fun emoji hemoji =>
      hhome _ (List.mem_append_right _ List.mem_cons_self) _ (List.mem_map_of_mem hemoji)
    refine (changing_cacheEmojis hw hlast).reconciles hcovered rfl List.map_map hnodup ?_ ?_ eq_of_sameValue
    · intro item hitem
      obtain ⟨emoji, hemoji, rfl⟩ := List.mem_map.mp hitem
      exact Placing.place_of_home (e := emoji.id) (hlast emoji hemoji)
    · intro item hitem
      obtain ⟨emoji, -, rfl⟩ := List.mem_map.mp hitem
      rfl
  · intro hw stickers hnodup hguilds
    obtain ⟨home, hhome⟩ := hguilds.exists_home
    have hcovered : StickersCovered config home s := by
      refine applyEvents_keeps (fun event hevent => ?_) familyCovers_empty
      exact keeps_update_stickersCovered (hhome event (List.mem_append_left _ hevent)) hw
    have hlast : ∀ sticker ∈ stickers, home (.sticker sticker.id) = some g := fun sticker hsticker =>
      hhome _ (List.mem_append_right _ List.mem_cons_self) _ (List.mem_map_of_mem hsticker)
    refine (changing_cacheStickers hw hlast).reconciles hcovered rfl List.map_map hnodup ?_ ?_ eq_of_sameValue
    · intro item hitem
      obtain ⟨sticker, hsticker, rfl⟩ := List.mem_map.mp hitem
      exact Placing.place_of_home (hlast sticker hsticker)
    · intro item hitem
      obtain ⟨sticker, -, rfl⟩ := List.mem_map.mp hitem
      rfl

/-- After an outage the index of the guild still lists the emoji and the sticker, and the stores have lost them. -/
theorem lists_reconciled_after_outage :
    let g : Id .guild := ⟨1, by decide⟩
    let emoji : Emoji := ⟨false, true, ⟨5, by decide⟩, false, "emoji", false, [], none⟩
    let sticker : Sticker := ⟨true, none, 1, some g, ⟨6, by decide⟩, 2, "sticker", none, none, "", none⟩
    let self := withOwnUsers (.all 100)
    let s := self.applyEvents
      [.guildEmojisUpdate g [emoji], .guildStickersUpdate g [sticker], .unavailableGuild ⟨g, true⟩] .empty
    (∃ t, (self.update (.guildEmojisUpdate g [emoji])).exec eval s = (.ok (), t) ∧
      Reconciles (n := .guildEmojis) self.emojis (ownResource g) g [emojiItem g emoji] s t) ∧
    ∃ t, (self.update (.guildStickersUpdate g [sticker])).exec eval s = (.ok (), t) ∧
      Reconciles (n := .guildStickers) self.stickers (ownResource g) g [stickerItem g sticker] s t := by
  intro g emoji sticker self s
  obtain ⟨hemojis, hstickers⟩ := @lists_reconciled (.all 100)
    [.guildEmojisUpdate g [emoji], .guildStickersUpdate g [sticker], .unavailableGuild ⟨g, true⟩] g
  refine ⟨hemojis rfl [emoji] (by decide) ?_, hstickers rfl [sticker] (by decide) ?_⟩
  · unfold OneGuildForEver
    decide
  · unfold OneGuildForEver
    decide

end Tulpje.Cache
