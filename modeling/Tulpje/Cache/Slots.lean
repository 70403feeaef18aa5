import Tulpje.Cache.Frame

/-!
# When an available guild can be cached

In the hash that users and emojis share, `cacheGuild` looks up the users and emojis of its payload, and fails
if one of them has the number of an entry of the other kind. `SlotsSuit` says for any configuration that this
does not happen; the members and stickers that are up to date are not looked up.
-/

namespace Tulpje.Cache

open Twilight Lib

/-- Entries of this kind are written. -/
def SlotKind.wanted (config : Config) : SlotKind → Bool
  | .user => config.wants .user
  | .emoji => config.wants .emoji

section Payload
variable (config : Config) (guild : Guild) (s : State)

/-- The store does not hold one of the payload's stickers with this id as it is. -/
def stickerChanged (id : Id .sticker) : Bool :=
  guild.stickers.any fun sticker =>
    sticker.id = id && !(s.hashes .stickers sticker.id).any (·.value.eqSticker sticker)

def payloadClaims : List (UInt64 × SlotKind) :=
  guild.emojis.flatMap emojiClaims ++
    guild.members.flatMap (fun member => memberClaims guild.id member s) ++
    guild.stickers.flatMap fun sticker =>
      if stickerChanged guild s sticker.id then userClaims sticker.user else []

/-- No user or emoji that is looked up has the number of an entry of the other kind that is stored, or is
going to be. -/
structure SlotsSuit : Prop where
  stored : ∀ c ∈ payloadClaims guild s,
    Fits (if config.wants .emoji then keptKinds guild s else s.kinds) c
  distinct : ∀ c ∈ payloadClaims guild s, ∀ d ∈ payloadClaims guild s,
    c.2.wanted config = true → c.1 = d.1 → c.2 = d.2

/-- What `cache_guild` keeps until its end: the claims fit, and a member or sticker that is not as it was in
`s` has its user among them. -/
structure Suiting (t : State) : Prop where
  fits : ∀ c ∈ payloadClaims guild s, Fits t.kinds c
  members : ∀ member ∈ guild.members,
    t.hashes .members (guild.id, member.user.id) = s.hashes .members (guild.id, member.user.id) ∨
      (member.user.id.get, .user) ∈ payloadClaims guild s
  stickers : ∀ sticker ∈ guild.stickers,
    t.hashes .stickers sticker.id = s.hashes .stickers sticker.id ∨
      stickerChanged guild s sticker.id = true

end Payload

section Suiting
variable {config : Config} {guild : Guild} {s : State}

theorem suiting_dependsOn :
    DependsOn [.hash .emojis, .hash .members, .hash .stickers] (Suiting guild s) := by
  intro t u h ht
  have hemojis : u.hashes .emojis = t.hashes .emojis := h (.hash .emojis) (by decide)
  have hmembers : u.hashes .members = t.hashes .members := h (.hash .members) (by decide)
  have hstickers : u.hashes .stickers = t.hashes .stickers := h (.hash .stickers) (by decide)
  have hkinds : u.kinds = t.kinds := by
    unfold State.kinds
    rw [hemojis]
  refine ⟨?_, ?_, ?_⟩
  · rw [hkinds]
    exact ht.fits
  · rw [hmembers]
    exact ht.members
  · rw [hstickers]
    exact ht.stickers

theorem safe_of_touches {α : Type} {areas : List Area} {p : CacheM α} (hp : Touches areas False p)
    (h : ∀ a ∈ [Area.hash .emojis, .hash .members, .hash .stickers], a ∉ areas) :
    Prog.Safe eval (Suiting guild s) p :=
  Prog.Safe.of_keeps (hp.keeps suiting_dependsOn h) hp

theorem safe_onlyIf {I : State → Prop} {cond : Bool} {p : CacheM Unit}
    (hp : cond = true → Prog.Safe eval I p) : Prog.Safe eval I (onlyIf cond p) := by
  cases cond
  · exact Prog.Safe.pure _
  · exact hp rfl

theorem safe_forM {α : Type} {I : State → Prop} {o : Option α} {p : α → CacheM PUnit}
    (hp : ∀ a ∈ o, Prog.Safe eval I (p a)) : Prog.Safe eval I (o.forM p) := by
  cases o with
  | none => exact Prog.Safe.pure _
  | some a => exact hp a rfl

theorem safe_insert {h : HashName} {K V : Type} {repository : Repository h K V} {I : State → Prop} {key : K}
    {value : V} (hI : repository.wanted = true → ∀ t, I t →
      I (t.hset h (repository.field key) (repository.encode value))) :
    Prog.Safe eval I (repository.insert key value) := by
  intro t ht
  cases hw : repository.wanted with
  | true => exact (Prog.wp_of_exec (repository.exec_insert hw key value t)).mpr (hI hw t ht)
  | false =>
    unfold Repository.insert
    rw [hw]
    exact ht

variable (hsuit : SlotsSuit config guild s)
include hsuit

theorem Suiting.hset_emojis {t : State} (ht : Suiting guild s t) (slot : UInt64) (entry : EmojisEntry)
    (hclaim : (slot, entry.kind) ∈ payloadClaims guild s) (hw : entry.kind.wanted config = true) :
    Suiting guild s (t.hset .emojis slot entry) := by
  refine ⟨fun c hc => ?_, ht.members, ht.stickers⟩
  rw [State.kinds_hset, fits_fill_iff (ht.fits _ hclaim)]
  exact ⟨ht.fits c hc, hsuit.distinct _ hclaim c hc hw⟩

theorem safe_cacheUser {user : User} (hclaim : (user.id.get, .user) ∈ payloadClaims guild s)
    (guildId : Option (Id .guild)) : Prog.Safe eval (Suiting guild s) ((new config).cacheUser user guildId) := by
  refine Prog.Safe.bind (fun t ht => ?_) fun cachedUser => ?_
  · -- the slot holds no emoji
    rcases hentry : t.hashes .emojis user.id.get with _ | ⟨cached | emoji⟩
    · exact (Prog.wp_of_exec ((new config).users.exec_get_of_none hentry)).mpr ht
    · exact (Prog.wp_of_exec ((new config).users.exec_get_of_some hentry rfl)).mpr ht
    · have hkinds : t.kinds user.id.get = some .emoji := congrArg (Option.map EmojisEntry.kind) hentry
      have hkind : SlotKind.emoji = .user := ht.fits _ hclaim _ hkinds
      cases hkind
  · refine (safe_onlyIf fun _ => ?_).bind fun _ => safe_forM fun guildId _ => ?_
    · refine (safe_insert fun hw t ht => ?_).bind fun _ => Prog.Safe.pure _
      exact ht.hset_emojis hsuit user.id.get (.user user) hclaim hw
    · have hindex : Touches [.set .userGuilds] False ((new config).userGuilds.insert user.id guildId) :=
        MappedSetRepository.touches_insert _ (by decide) _
      exact (safe_of_touches hindex (by decide)).bind fun _ => Prog.Safe.pure _

/-! ### The steps that look something up -/

theorem safe_cacheEmoji {emoji : Emoji} (hemoji : emoji ∈ guild.emojis) :
    Prog.Safe eval (Suiting guild s) ((new config).cacheEmoji guild.id emoji) := by
  have hclaims : ∀ c ∈ emojiClaims emoji, c ∈ payloadClaims guild s := by
    intro c hc
    have hmem := List.mem_flatMap_of_mem hemoji hc
    exact List.mem_append_left _ (List.mem_append_left _ hmem)
  have hclaim : (emoji.id.get, .emoji) ∈ payloadClaims guild s :=
    hclaims _ (List.mem_append_right _ (List.mem_singleton_self _))
  refine Prog.Safe.bind (safe_forM fun user huser => ?_) fun _ => ?_
  · refine safe_cacheUser hsuit (hclaims _ (List.mem_append_left _ ?_)) _
    rw [userClaims, Option.mem_def.mp huser]
    exact List.mem_singleton_self _
  · refine Prog.Safe.bind (fun t ht => ?_) fun cachedEmoji => safe_onlyIf fun _ => ?_
    · -- the slot holds no user
      rcases hentry : t.hashes .emojis emoji.id.get with _ | ⟨user | cached⟩
      · exact (Prog.wp_of_exec ((new config).emojis.exec_get_of_none hentry)).mpr ht
      · have hkinds : t.kinds emoji.id.get = some .user := congrArg (Option.map EmojisEntry.kind) hentry
        have hkind : SlotKind.user = .emoji := ht.fits _ hclaim _ hkinds
        cases hkind
      · exact (Prog.wp_of_exec ((new config).emojis.exec_get_of_some hentry rfl)).mpr ht
    · refine (safe_insert fun hw t ht => ?_).bind fun _ => ?_
      · exact ht.hset_emojis hsuit emoji.id.get (.emoji ⟨guild.id, .fromEmoji emoji⟩) hclaim hw
      · have hindex : Touches [.set .guildEmojis] False ((new config).guildEmojis.insert guild.id emoji.id) :=
          MappedSetRepository.touches_insert _ (by decide) _
        exact (safe_of_touches hindex (by decide)).bind fun _ => Prog.Safe.pure _

theorem safe_cacheMember {member : Member} (hmember : member ∈ guild.members) :
    Prog.Safe eval (Suiting guild s) ((new config).cacheMember guild.id member) := by
  intro t ht
  refine Prog.wp_bind.mpr ((Repository.wp_get_new _).mpr ?_)
  refine safe_onlyIf (fun hchanged => ?_) t ht
  have hclaim : (member.user.id.get, .user) ∈ payloadClaims guild s := by
    rcases ht.members member hmember with hsame | hclaim
    · rw [hsame] at hchanged
      refine List.mem_append_left _ (List.mem_append_right _ (List.mem_flatMap_of_mem hmember ?_))
      rw [memberClaims, if_pos hchanged]
      exact List.mem_singleton_self _
    · exact hclaim
  refine (safe_cacheUser hsuit hclaim _).bind fun _ => (safe_insert fun _ u hu => ?_).bind fun _ => ?_
  · refine ⟨hu.fits, fun member' hmember' => ?_, hu.stickers⟩
    by_cases hid : member'.user.id = member.user.id
    · rw [hid]
      exact .inr hclaim
    · refine (hu.members member' hmember').imp_left fun hsame => ?_
      have hne : (guild.id, member'.user.id) ≠ (guild.id, member.user.id) := fun heq => hid (congrArg Prod.snd heq)
      rw [← hsame, State.hset_self]
      exact Function.update_of_ne hne ..
  · have hindex : Touches [.set .guildMembers] False
        ((new config).guildMembers.insert guild.id member.user.id) :=
      MappedSetRepository.touches_insert _ (by decide) _
    exact (safe_of_touches hindex (by decide)).bind fun _ => Prog.Safe.pure _

theorem safe_cacheSticker {sticker : Sticker} (hsticker : sticker ∈ guild.stickers) :
    Prog.Safe eval (Suiting guild s) ((new config).cacheSticker guild.id sticker) := by
  intro t ht
  refine Prog.wp_bind.mpr ((Repository.wp_get_new _).mpr ?_)
  refine safe_onlyIf (fun houtdated => ?_) t ht
  have hchanged : stickerChanged guild s sticker.id = true := by
    rcases ht.stickers sticker hsticker with hsame | hchanged
    · rw [hsame] at houtdated
      refine List.any_eq_true.mpr ⟨sticker, hsticker, ?_⟩
      rw [houtdated, decide_eq_true rfl]
      rfl
    · exact hchanged
  refine (safe_forM fun user huser => ?_).bind fun _ => ?_
  · refine safe_cacheUser hsuit (List.mem_append_right _ (List.mem_flatMap_of_mem hsticker ?_)) _
    rw [if_pos hchanged, userClaims, Option.mem_def.mp huser]
    exact List.mem_singleton_self _
  · have hindex : Touches [.set .guildStickers] False
        ((new config).guildStickers.insert guild.id sticker.id) :=
      MappedSetRepository.touches_insert _ (by decide) _
    refine (safe_of_touches hindex (by decide)).bind fun _ => ?_
    refine (safe_insert fun _ u hu => ?_).bind fun _ => Prog.Safe.pure _
    refine ⟨hu.fits, hu.members, fun sticker' hsticker' => ?_⟩
    by_cases hid : sticker'.id = sticker.id
    · rw [hid]
      exact .inr hchanged
    · refine (hu.stickers sticker' hsticker').imp_left fun hsame => ?_
      rw [← hsame, State.hset_self]
      exact Function.update_of_ne hid ..

end Suiting

/-! ### The run of `cache_guild` -/

section Run
variable {config : Config} {guild : Guild} {s : State}

theorem exec_removeStale_unwanted {h : HashName} {n : SetName} {V : Type} {repository : Repository h n.Elem V}
    {index : MappedSetRepository n} (hw : repository.wanted = false) (hi : index.wanted = false) (key : n.Key)
    (incoming : List n.Elem) (t : State) :
    (removeStale repository index key incoming).exec eval t = (.ok (), t) := by
  unfold removeStale
  rw [Prog.exec_bind_ok (index.exec_members key t)]
  unfold onlyIf
  split_ifs
  · unfold MappedSetRepository.removeMulti SetRepository.removeMulti MappedSetRepository.setRepository
      Repository.removeMulti
    rw [hw, hi]
    rfl
  · rfl

theorem exec_opening_suiting (hsuit : SlotsSuit config guild s) : ∃ t,
    (GuildStep.opening.forM (GuildStep.prog (new config) guild)).exec eval s = (.ok (), t) ∧
      Suiting guild s t := by
  obtain ⟨u, hexec, hemojis, hindex, hmembers, hstickers⟩ := exec_opening_eq config guild s
  rw [hexec]
  cases hw : config.wants .emoji with
  | true =>
    have hremove := exec_removeStale (new config).emojis (new config).guildEmojis hw hw guild.id
      (guild.emojis.map (·.id)) u
    refine ⟨_, hremove, fun c hc => ?_, fun member _ => .inl ?_, fun sticker _ => .inl ?_⟩
    · have hfits := hsuit.stored c hc
      rw [if_pos hw] at hfits
      have hkept : keptKinds guild s = State.kinds ((u.srem .guildEmojis guild.id
          ((u.sets .guildEmojis guild.id).filter (· ∉ guild.emojis.map (·.id)))).hdel .emojis
          (((u.sets .guildEmojis guild.id).filter (· ∉ guild.emojis.map (·.id))).image
            (new config).emojis.field)) := by
        funext slot
        unfold State.kinds keptKinds staleEmojiIds
        rw [State.hdel_self, State.srem_hashes, hemojis, hindex]
        exact (apply_ite (Option.map EmojisEntry.kind) _ none _).symm
      rwa [hkept] at hfits
    · rw [State.hdel_of_ne _ _ (by decide), State.srem_hashes, hmembers]
    · rw [State.hdel_of_ne _ _ (by decide), State.srem_hashes, hstickers]
  | false =>
    refine ⟨u, exec_removeStale_unwanted hw hw _ _ u, fun c hc => ?_, fun member _ => .inl ?_,
      fun sticker _ => .inl ?_⟩
    · have hfits := hsuit.stored c hc
      rw [hw, if_neg Bool.false_ne_true] at hfits
      unfold State.kinds at hfits ⊢
      rwa [hemojis]
    · rw [hmembers]
    · rw [hstickers]

theorem safe_staleStickers :
    Prog.Safe eval (Suiting guild s) (GuildStep.staleStickers.prog (new config) guild) := by
  intro t ht
  cases hw : config.wants .sticker with
  | true =>
    have hremove := exec_removeStale (new config).stickers (new config).guildStickers hw hw guild.id
      (guild.stickers.map (·.id)) t
    refine (Prog.wp_of_exec hremove).mpr ⟨ht.fits, ht.members, fun sticker hsticker => ?_⟩
    refine (ht.stickers sticker hsticker).imp_left fun hsame => ?_
    have hkept : sticker.id ∉ ((t.sets .guildStickers guild.id).filter
        (· ∉ guild.stickers.map (·.id))).image (new config).stickers.field := by
      intro hmem
      obtain ⟨id, hstale, rfl⟩ := Finset.mem_image.mp hmem
      exact (Finset.mem_filter.mp hstale).2 (List.mem_map_of_mem hsticker)
    rw [State.hdel_self, State.srem_hashes]
    exact (if_neg hkept).trans hsame
  | false => exact (Prog.wp_of_exec (exec_removeStale_unwanted hw hw _ _ t)).mpr ht

theorem safe_step {step : GuildStep} (hfail : ¬ step.CanFail)
    (h : ∀ a ∈ [Area.hash .emojis, .hash .members, .hash .stickers], a ∉ step.areas) :
    Prog.Safe eval (Suiting guild s) (step.prog (new config) guild) := by
  have htouches : Touches step.areas step.CanFail (step.prog (new config) guild) := step.touches
  rw [eq_false hfail] at htouches
  exact safe_of_touches htouches h

/-- When the slots suit the payload, `cache_guild` returns. -/
theorem exec_cacheGuild_ok (hsuit : SlotsSuit config guild s) :
    ∃ t, ((new config).cacheGuild guild).exec eval s = (.ok (), t) := by
  obtain ⟨u, hexec, hu⟩ := exec_opening_suiting hsuit
  have hrest : Prog.Safe eval (Suiting guild s) (GuildStep.rest.forM (GuildStep.prog (new config) guild)) := by
    refine Prog.Safe.forM fun step hstep => ?_
    cases step with
    | emojis => exact Prog.Safe.forM fun emoji hemoji => safe_cacheEmoji hsuit hemoji
    | members => exact Prog.Safe.forM fun member hmember => safe_cacheMember hsuit hmember
    | stickers => exact Prog.Safe.forM fun sticker hsticker => safe_cacheSticker hsuit hsticker
    | staleStickers => exact safe_staleStickers
    | clearChannels | channels | threads | staleEmojis => exact absurd hstep (by decide)
    | _ => exact safe_step id (by decide)
  obtain ⟨_, t, hexec', -⟩ := hrest.exec_ok hu
  refine ⟨t, ?_⟩
  rw [cacheGuild_eq_steps, Prog.exec_bind_ok hexec]
  exact hexec'

end Run

end Tulpje.Cache
