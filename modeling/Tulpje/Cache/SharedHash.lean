import Tulpje.Cache.Families
import Tulpje.Lib.Claims

/-!
# The hash that users and emojis share

A method that finds an emoji under the number of a user, or a user under that of an emoji, fails. So each
user and each emoji that is cached claims its slot (`Lib.Prog.Claims`), and the methods about users, emojis,
members and stickers succeed exactly if their claims fit. When they do, the family of emojis is changed by
the emojis alone.
-/

namespace Tulpje.Cache

open Twilight Lib

variable {h : HashName}

/-! ### The hash of users and emojis -/

inductive SlotKind
  | user
  | emoji
  deriving DecidableEq

def EmojisEntry.kind : EmojisEntry → SlotKind
  | .user _ => .user
  | .emoji _ => .emoji

def State.kinds (s : State) : UInt64 → Option SlotKind := fun slot =>
  (s.hashes .emojis slot).map EmojisEntry.kind

theorem State.kinds_hset (s : State) (slot : UInt64) (entry : EmojisEntry) :
    (s.hset .emojis slot entry).kinds = fill s.kinds (slot, entry.kind) := by
  funext k
  unfold kinds fill
  rw [State.hset_self]
  by_cases hk : k = slot
  · rw [hk, Function.update_self, Function.update_self]
    rfl
  · rw [Function.update_of_ne hk, Function.update_of_ne hk]

theorem kinds_keeps {o : Op} (ho : o.area ≠ .hash .emojis) (s : State) :
    (eval o s).2.kinds = s.kinds := by
  unfold State.kinds
  rw [eval_hashes ho]

theorem Touches.claims {α : Type} {areas : List Area} {p : CacheM α} (hp : Touches areas False p)
    (hh : .hash .emojis ∉ areas) : Prog.Claims eval State.kinds (fun _ => []) p :=
  Prog.Claims.of_all (Prog.All.imp hp fun _ ho s => kinds_keeps (fun heq => hh (heq ▸ ho)) s)

/-- Reads an entry and writes it unless it is up to date, then something elsewhere. -/
theorem claims_upToDate {K W : Type} (repository : Repository .emojis K W) {kind : SlotKind}
    (hw : repository.wanted = true)
    (hdecode : ∀ entry, (repository.decode entry).isSome = true ↔ entry.kind = kind)
    (hencode : ∀ value, (repository.encode value).kind = kind) (key : K) (value : W)
    (outdated : Option W → Bool) (hnone : outdated none = true) {areas : List Area}
    {p : CacheM Unit} (hp : Touches areas False p) (hh : .hash .emojis ∉ areas) :
    Prog.Claims eval State.kinds (fun _ => [(repository.field key, kind)]) (do
      let cached ← repository.get key
      onlyIf (outdated cached) do
        let _ ← repository.insert key value
        p) := by
  have hwrite : ∀ s, ∃ t, (do
      let _ ← repository.insert key value
      p).exec eval s = (.ok (), t) ∧ t.kinds = fill s.kinds (repository.field key, kind) := by
    intro s
    rw [Prog.exec_bind_ok (repository.exec_insert hw key value s)]
    obtain ⟨_, t, hexec, ht⟩ := (hp.claims hh).fits _ trivial
    exact ⟨t, hexec, ht.trans (by rw [List.foldl_nil, State.kinds_hset, hencode])⟩
  have hsingle : ∀ s : State, FitAll s.kinds [(repository.field key, kind)] ↔
      Fits s.kinds (repository.field key, kind) := fun s => and_iff_left trivial
  constructor
  · intro s hfit
    have hfit := (hsingle s).mp hfit
    rcases hentry : s.hashes .emojis (repository.field key) with _ | entry
    · rw [Prog.exec_bind_ok (repository.exec_get_of_none hentry), hnone]
      obtain ⟨t, hexec, ht⟩ := hwrite s
      exact ⟨(), t, hexec, ht⟩
    · have hkinds : s.kinds (repository.field key) = some entry.kind := congrArg (Option.map _) hentry
      have hkind : entry.kind = kind := hfit _ hkinds
      obtain ⟨cached, hcached⟩ := Option.isSome_iff_exists.mp ((hdecode entry).mpr hkind)
      rw [Prog.exec_bind_ok (repository.exec_get_of_some hentry hcached)]
      cases outdated (some cached) with
      | true =>
        obtain ⟨t, hexec, ht⟩ := hwrite s
        exact ⟨(), t, hexec, ht⟩
      | false =>
        refine ⟨(), s, rfl, ?_⟩
        rw [hkind] at hkinds
        show _ = Function.update _ _ _
        rw [← hkinds, Function.update_eq_self]
  · intro s hfit
    have hfit := (hsingle s).not.mp hfit
    rcases hentry : s.hashes .emojis (repository.field key) with _ | entry
    · refine absurd (fun i hi => ?_) hfit
      have hkinds : s.kinds (repository.field key) = none := congrArg (Option.map _) hentry
      rw [hkinds] at hi
      cases hi
    · have hkinds : s.kinds (repository.field key) = some entry.kind := congrArg (Option.map _) hentry
      have hkind : entry.kind ≠ kind := by
        intro hkind
        refine hfit fun i hi => ?_
        rw [← hkind]
        exact Option.some.inj (hi.symm.trans hkinds)
      have hdecoded : repository.decode entry = none :=
        Option.not_isSome_iff_eq_none.mp fun h => hkind ((hdecode entry).mp h)
      refine ⟨.json, s, ?_⟩
      rw [Prog.exec_bind, repository.exec_get_of_rejected hentry hdecoded]

/-- Reads an entry elsewhere and goes on unless it is up to date. -/
theorem claims_unless (h : HashName) (wanted : Bool) (key : h.Field)
    (outdated : Option h.Entry → Bool) {slots : List (UInt64 × SlotKind)} {p : CacheM Unit}
    (hp : Prog.Claims eval State.kinds (fun _ => slots) p) :
    Prog.Claims eval State.kinds (fun s => if outdated (s.hashes h key) then slots else []) (do
      let cached ← (Repository.new h wanted).get key
      onlyIf (outdated cached) p) := by
  constructor
  · intro s hfit
    rw [Prog.exec_bind_ok (Repository.exec_get_new h wanted key s)]
    cases houtdated : outdated (s.hashes h key) with
    | true =>
      rw [houtdated] at hfit
      exact hp.fits s hfit
    | false => exact ⟨(), s, rfl, rfl⟩
  · intro s hfit
    rw [Prog.exec_bind_ok (Repository.exec_get_new h wanted key s)]
    cases houtdated : outdated (s.hashes h key) with
    | true =>
      rw [houtdated] at hfit
      exact hp.fails s hfit
    | false =>
      rw [houtdated] at hfit
      exact absurd trivial hfit

/-! A program that writes one field of a hash, and what happens to the other fields. -/

abbrev KeepsField (h : HashName) (field : h.Field) {α : Type} (p : CacheM α) : Prop :=
  p.All (fun o => ∀ s, (eval o s).2.hashes h field = s.hashes h field) fun _ => True

theorem KeepsField.exec {α : Type} {field : h.Field} {p : CacheM α} (hp : KeepsField h field p)
    (s : State) : (p.exec eval s).2.hashes h field = s.hashes h field :=
  Prog.exec_keeps (v := fun s : State => s.hashes h field) hp s

theorem Touches.keepsField {α : Type} {areas : List Area} {p : CacheM α} (hp : Touches areas True p)
    (hh : .hash h ∉ areas) (field : h.Field) : KeepsField h field p :=
  Prog.All.imp hp fun _ ho s => congrFun (eval_hashes (fun heq => hh (heq ▸ ho)) s) field

theorem KeepsField.get {K W : Type} (repository : Repository h K W) (key : K) (field : h.Field) :
    KeepsField h field (repository.get key) :=
  Repository.all_get (fun _ => rfl) (.inr trivial)

theorem KeepsField.insert {K W : Type} (repository : Repository h K W) {key : K} (value : W)
    {field : h.Field} (hne : field ≠ repository.field key) :
    KeepsField h field (repository.insert key value) := by
  unfold Repository.insert
  cases repository.wanted
  · trivial
  · refine Prog.All.bind (Prog.All.send fun s => ?_) fun _ => trivial
    show (s.hset h _ _).hashes h field = _
    rw [State.hset_self, Function.update_of_ne hne]

/-! ### Methods that cache users -/

section Users
variable {size : Nat} {g : Id .guild} {user : User}

theorem sound_emojis : (new (.all size)).emojis.Sound := ⟨rfl, fun _ => rfl, Id.get_injective .emoji⟩

theorem acts_onlyIf {β : Type} {v : State → β} {cond : Bool} {p : CacheM Unit}
    (hp : Prog.Acts eval v id p) : Prog.Acts eval v id (onlyIf cond p) := by
  cases cond
  · exact Prog.Acts.pure _
  · exact hp

theorem acts_forM {α β : Type} {v : State → β} {o : Option α} {p : α → CacheM PUnit}
    (hp : ∀ a ∈ o, Prog.Acts eval v id (p a)) : Prog.Acts eval v id (o.forM p) := by
  cases o with
  | none => exact Prog.Acts.pure _
  | some a => exact hp a rfl

/-- Where there was no emoji before, the family of emojis does not see a user written. -/
theorem family_emojis_hset_user {s : State}
    (hs : ∀ emoji, s.hashes .emojis user.id.get ≠ some (.emoji emoji)) :
    family .guildEmojis (new (.all size)).emojis g (s.hset .emojis user.id.get (.user user)) =
      family .guildEmojis (new (.all size)).emojis g s := by
  unfold family
  congr 1
  funext id
  rw [State.hset_self]
  show (Function.update (s.hashes .emojis) _ _ id.get).bind EmojisEntry.toEmoji =
    (s.hashes .emojis id.get).bind EmojisEntry.toEmoji
  by_cases hslot : id.get = user.id.get
  · rw [hslot, Function.update_self]
    rcases hentry : s.hashes .emojis user.id.get with _ | ⟨_ | emoji⟩
    · rfl
    · rfl
    · exact absurd hentry (hs emoji)
  · rw [Function.update_of_ne hslot]

/-- The end of `cache_user`, in both branches. -/
theorem touches_userGuilds (guildId : Option (Id .guild)) :
    Touches [.set .userGuilds] False (guildId.forM fun guildId => do
      let _ ← (new (.all size)).userGuilds.insert user.id guildId
      pure ()) :=
  touches_forM fun _ =>
    (MappedSetRepository.touches_insert _ (by decide) _).bind fun _ => Touches.pure _

theorem acts_cacheUser (guildId : Option (Id .guild)) :
    Prog.Acts eval (family .guildEmojis (new (.all size)).emojis g) id
      ((new (.all size)).cacheUser user guildId) := by
  unfold cacheUser
  rw [← bind_assoc]
  refine Prog.Acts.keep_bind (fun s a t hexec => ?_) fun _ =>
    (touches_userGuilds guildId).acts (by decide) (by decide) _
  have hwrite : ∀ cached : Option CachedUser, (∀ emoji, s.hashes .emojis user.id.get ≠ some (.emoji emoji)) →
      (onlyIf (decide (cached ≠ some user)) do
        let _ ← (new (.all size)).users.insert user.id user
        pure ()).exec eval s = (.ok a, t) → family .guildEmojis (new (.all size)).emojis g t =
          family .guildEmojis (new (.all size)).emojis g s := by
    intro cached hs hexec
    unfold onlyIf at hexec
    split at hexec
    · rw [Prog.exec_bind_ok ((new (.all size)).users.exec_insert rfl user.id user s)] at hexec
      cases hexec
      exact family_emojis_hset_user hs
    · cases hexec
      rfl
  rcases hentry : s.hashes .emojis user.id.get with _ | ⟨cached | emoji⟩
  · rw [Prog.exec_bind_ok ((new (.all size)).users.exec_get_of_none hentry)] at hexec
    exact hwrite none (fun emoji h => nomatch hentry.symm.trans h) hexec
  · rw [Prog.exec_bind_ok ((new (.all size)).users.exec_get_of_some hentry rfl)] at hexec
    exact hwrite (some cached) (fun emoji h => nomatch hentry.symm.trans h) hexec
  · rw [Prog.exec_bind, (new (.all size)).users.exec_get_of_rejected hentry rfl] at hexec
    cases hexec

theorem claims_cacheUser (guildId : Option (Id .guild)) :
    Prog.Claims eval State.kinds (fun _ => [(user.id.get, .user)])
      ((new (.all size)).cacheUser user guildId) := by
  unfold cacheUser
  rw [← bind_assoc]
  have hread : Prog.Claims eval State.kinds (fun _ => [(user.id.get, .user)]) (do
      let cached ← (new (.all size)).users.get user.id
      onlyIf (cached ≠ some user) do
        let _ ← (new (.all size)).users.insert user.id user
        pure ()) := by
    have hpure : Touches [] False (pure () : CacheM Unit) := Touches.pure _
    refine claims_upToDate (new (.all size)).users rfl (fun entry => ?_) (fun _ => rfl) user.id user
      (fun cached => decide (cached ≠ some user)) rfl hpure List.not_mem_nil
    cases entry with
    | user => exact ⟨fun _ => rfl, fun _ => rfl⟩
    | emoji => exact ⟨nofun, nofun⟩
  exact hread.bind (fun _ => (touches_userGuilds guildId).claims (by decide)) fun _ => rfl

/-- The slot of the user that comes with an emoji or a sticker. -/
def userClaims (user : Option User) : List (UInt64 × SlotKind) :=
  user.toList.map fun user => (user.id.get, .user)

theorem claims_cacheUsers (user : Option User) (guildId : Option (Id .guild)) :
    Prog.Claims eval State.kinds (fun _ => userClaims user)
      (user.forM fun user => (new (.all size)).cacheUser user guildId) := by
  cases user with
  | none =>
    have hpure : Touches [] False (pure () : CacheM Unit) := Touches.pure _
    exact hpure.claims List.not_mem_nil
  | some user => exact claims_cacheUser guildId

/-! A member that is up to date is skipped, its user too. -/

/-- What `cache_member` writes after the user. -/
theorem touches_memberWrites (member : Member) : Touches [.hash .members, .set .guildMembers] False (do
    let _ ← (new (.all size)).members.insert (g, member.user.id) (.fromMember member)
    let _ ← (new (.all size)).guildMembers.insert g member.user.id
    pure ()) := by
  refine (Repository.touches_insert (by decide) _ _).bind fun _ => ?_
  exact (MappedSetRepository.touches_insert _ (by decide) _).bind fun _ => Touches.pure _

theorem acts_cacheMembers {members : List Member} :
    Prog.Acts eval (family .guildEmojis (new (.all size)).emojis g) id
      ((new (.all size)).cacheMembers g members) := by
  refine Prog.Acts.forM_keep fun member _ => ?_
  have hget : Touches [.hash .members] False
      ((new (.all size)).members.get (g, member.user.id)) :=
    Repository.touches_get (by decide) (.inl Option.some_ne_none) _
  refine (hget.acts (by decide) (by decide) _).keep_bind fun _ => acts_onlyIf ?_
  refine (acts_cacheUser _).keep_bind fun _ => ?_
  exact (touches_memberWrites member).acts (by decide) (by decide) _

def memberClaims (g : Id .guild) (member : Member) (s : State) : List (UInt64 × SlotKind) :=
  if !(s.hashes .members (g, member.user.id)).any (·.eqMember member) then
    [(member.user.id.get, .user)]
  else []

theorem claims_cacheMember (member : Member) :
    Prog.Claims eval State.kinds (memberClaims g member)
      ((new (.all size)).cacheMember g member) := by
  refine claims_unless .members true (g, member.user.id)
    (fun cached => !cached.any (·.eqMember member)) ?_
  refine Prog.Claims.bind (claims_cacheUser _) (fun _ => ?_) fun _ => rfl
  exact (touches_memberWrites member).claims (by decide)

theorem keepsField_cacheMember {member : Member} {userId : Id .user} (hne : userId ≠ member.user.id) :
    KeepsField .members (g, userId) ((new (.all size)).cacheMember g member) := by
  refine Prog.All.bind (KeepsField.get _ _ _) fun _ => ?_
  cases !Option.any _ _ with
  | false => trivial
  | true =>
    refine Prog.All.bind ((touches_cacheUser _ _).keepsField (by decide) _) fun _ => ?_
    refine Prog.All.bind (KeepsField.insert _ _ fun heq => hne (congrArg Prod.snd heq)) fun _ => ?_
    have hindex : Touches [.set .guildMembers] True (do
        let _ ← (new (.all size)).guildMembers.insert g member.user.id
        pure ()) :=
      (MappedSetRepository.touches_insert _ (by decide) _).bind fun _ => Touches.pure _
    exact hindex.keepsField (by decide) _

theorem claims_cacheMembers {members : List Member} (hnodup : (members.map (·.user.id)).Nodup) :
    Prog.Claims eval State.kinds (fun s => members.flatMap fun member => memberClaims g member s)
      ((new (.all size)).cacheMembers g members) := by
  refine Prog.Claims.forM (fun member _ => claims_cacheMember member) ?_
  refine (List.pairwise_map.mp hnodup).imp fun hne s => ?_
  unfold memberClaims
  rw [(keepsField_cacheMember hne.symm).exec]

end Users

/-! ### Emojis -/

/-- The comparison of `cache_emoji` and `cache_sticker` looks at the value, not at the guild. -/
def sameValue {T : Type} [DecidableEq T] (cached incoming : GuildResource T) : Bool :=
  decide (cached.value = incoming.value)

theorem eq_of_sameValue {T : Type} [DecidableEq T] {g : Id .guild} (v w : GuildResource T)
    (hv : v.guildId = g) (hw : w.guildId = g) (h : sameValue v w = true) : v = w := by
  obtain ⟨_, value⟩ := v
  obtain ⟨_, value'⟩ := w
  cases hv
  cases hw
  exact congrArg _ (of_decide_eq_true h)

section Emojis
variable {size : Nat} {g : Id .guild} (emoji : Emoji)

def emojiItem (g : Id .guild) (emoji : Emoji) : Id .emoji × GuildResource CachedEmoji :=
  (emoji.id, ⟨g, .fromEmoji emoji⟩)

theorem cacheEmojis_eq (self : Cache) (emojis : List Emoji) :
    self.cacheEmojis g emojis = (do
      removeStale self.emojis self.guildEmojis g (emojis.map (·.id))
      emojis.forM (self.cacheEmoji g)) := by
  unfold cacheEmojis removeStale
  rw [bind_assoc]

theorem skips_emojiItem (x : Indexed (Id .emoji) (GuildResource CachedEmoji)) :
    x.skips sameValue (emojiItem g emoji) = (x.store emoji.id).any (·.value.eqEmoji emoji) := by
  show (x.store emoji.id).any _ = _
  congr 1
  funext cached
  exact Bool.eq_iff_iff.mpr (decide_eq_true_iff.trans CachedEmoji.eqEmoji_iff.symm)

/-- What `cache_emoji` does after it has read the cached emoji. -/
theorem exec_writeEmoji (s : State) :
    (do
      let _ ← (new (.all size)).emojis.insert emoji.id ⟨g, .fromEmoji emoji⟩
      let _ ← (new (.all size)).guildEmojis.insert g emoji.id
      pure ()).exec eval s = (.ok (), (s.hset .emojis emoji.id.get
        (.emoji ⟨g, .fromEmoji emoji⟩)).sadd .guildEmojis g emoji.id) := by
  rw [Prog.exec_bind_ok ((new (.all size)).emojis.exec_insert rfl _ _ s),
    Prog.exec_bind_ok ((new (.all size)).guildEmojis.exec_insert g rfl _ _)]
  rfl

theorem acts_cacheEmoji : Prog.Acts eval (family .guildEmojis (new (.all size)).emojis g)
    (fun x => x.putUnless sameValue (emojiItem g emoji))
    ((new (.all size)).cacheEmoji g emoji) := by
  refine (acts_forM fun user _ => acts_cacheUser _).keep_bind fun _ s a t hexec => ?_
  have hwrite : ∀ cached, (family .guildEmojis (new (.all size)).emojis g s).store emoji.id = cached →
      (onlyIf (!cached.any (·.value.eqEmoji emoji)) do
        let _ ← (new (.all size)).emojis.insert emoji.id ⟨g, .fromEmoji emoji⟩
        let _ ← (new (.all size)).guildEmojis.insert g emoji.id
        pure ()).exec eval s = (.ok a, t) →
      family .guildEmojis (new (.all size)).emojis g t =
        (family .guildEmojis (new (.all size)).emojis g s).putUnless sameValue
          (emojiItem g emoji) := by
    intro cached hcached hexec
    unfold Indexed.putUnless
    rw [skips_emojiItem, hcached]
    cases hskip : cached.any (·.value.eqEmoji emoji) with
    | true =>
      rw [hskip] at hexec
      cases hexec
      rfl
    | false =>
      rw [hskip] at hexec
      have hexec := (exec_writeEmoji emoji s).symm.trans hexec
      cases hexec
      exact family_hset_sadd sound_emojis
  have hstore : ∀ entry, s.hashes .emojis emoji.id.get = entry →
      (family .guildEmojis (new (.all size)).emojis g s).store emoji.id =
        entry.bind EmojisEntry.toEmoji := fun _ h => h ▸ rfl
  rcases hentry : s.hashes .emojis emoji.id.get with _ | ⟨user | cached⟩
  · rw [Prog.exec_bind_ok ((new (.all size)).emojis.exec_get_of_none hentry)] at hexec
    exact hwrite none (hstore _ hentry) hexec
  · rw [Prog.exec_bind, (new (.all size)).emojis.exec_get_of_rejected hentry rfl] at hexec
    cases hexec
  · rw [Prog.exec_bind_ok ((new (.all size)).emojis.exec_get_of_some hentry rfl)] at hexec
    exact hwrite (some cached) (hstore _ hentry) hexec

def emojiClaims (emoji : Emoji) : List (UInt64 × SlotKind) :=
  userClaims emoji.user ++ [(emoji.id.get, .emoji)]

theorem claims_cacheEmoji : Prog.Claims eval State.kinds (fun _ => emojiClaims emoji)
    ((new (.all size)).cacheEmoji g emoji) := by
  refine (claims_cacheUsers emoji.user _).bind (fun _ => ?_) fun _ => rfl
  have hindex : Touches [.set .guildEmojis] False (do
      let _ ← (new (.all size)).guildEmojis.insert g emoji.id
      pure ()) :=
    (MappedSetRepository.touches_insert _ (by decide) _).bind fun _ => Touches.pure _
  refine claims_upToDate (new (.all size)).emojis rfl (fun entry => ?_) (fun _ => rfl) emoji.id
    ⟨g, .fromEmoji emoji⟩ (fun cached => !cached.any (·.value.eqEmoji emoji)) rfl hindex (by decide)
  cases entry with
  | user => exact ⟨nofun, nofun⟩
  | emoji => exact ⟨fun _ => rfl, fun _ => rfl⟩

end Emojis

/-! ### Stickers

A sticker that is up to date is skipped, its user too. -/

section Stickers
variable {size : Nat} {g : Id .guild} (sticker : Sticker)

def stickerItem (g : Id .guild) (sticker : Sticker) : Id .sticker × GuildResource CachedSticker :=
  (sticker.id, ⟨g, .fromSticker sticker⟩)

theorem cacheStickers_eq (self : Cache) (stickers : List Sticker) :
    self.cacheStickers g stickers = (do
      removeStale self.stickers self.guildStickers g (stickers.map (·.id))
      stickers.forM (self.cacheSticker g)) := by
  unfold cacheStickers removeStale
  rw [bind_assoc]

theorem sound_stickers : (new (.all size)).stickers.Sound := Repository.sound_new rfl _

theorem skips_stickerItem (x : Indexed (Id .sticker) (GuildResource CachedSticker)) :
    x.skips sameValue (stickerItem g sticker) =
      (x.store sticker.id).any (·.value.eqSticker sticker) := by
  show (x.store sticker.id).any _ = _
  congr 1
  funext cached
  exact Bool.eq_iff_iff.mpr (decide_eq_true_iff.trans CachedSticker.eqSticker_iff.symm)

/-- What `cache_sticker` writes after the user. -/
theorem exec_writeSticker (s : State) :
    (do
      let _ ← (new (.all size)).guildStickers.insert g sticker.id
      let _ ← (new (.all size)).stickers.insert sticker.id ⟨g, .fromSticker sticker⟩
      pure ()).exec eval s = (.ok (), (s.sadd .guildStickers g sticker.id).hset .stickers sticker.id
        ⟨g, .fromSticker sticker⟩) := by
  rw [Prog.exec_bind_ok ((new (.all size)).guildStickers.exec_insert g rfl _ _),
    Prog.exec_bind_ok ((new (.all size)).stickers.exec_insert rfl _ _ _)]
  rfl

theorem touches_stickerWrites : Touches [.hash .stickers, .set .guildStickers] False (do
    let _ ← (new (.all size)).guildStickers.insert g sticker.id
    let _ ← (new (.all size)).stickers.insert sticker.id ⟨g, .fromSticker sticker⟩
    pure ()) := touches_listAndStore

theorem acts_cacheSticker : Prog.Acts eval (family .guildStickers (new (.all size)).stickers g)
    (fun x => x.putUnless sameValue (stickerItem g sticker))
    ((new (.all size)).cacheSticker g sticker) := by
  intro s a t hexec
  have hget := Repository.exec_get_new .stickers true sticker.id s
  have hexec : (onlyIf (!(s.hashes .stickers sticker.id).any (·.value.eqSticker sticker)) do
      sticker.user.forM fun user => (new (.all size)).cacheUser user (some g)
      let _ ← (new (.all size)).guildStickers.insert g sticker.id
      let _ ← (new (.all size)).stickers.insert sticker.id ⟨g, .fromSticker sticker⟩
      pure ()).exec eval s = (.ok a, t) := (Prog.exec_bind_ok hget _).symm.trans hexec
  have hstore : (family .guildStickers (new (.all size)).stickers g s).store sticker.id =
      s.hashes .stickers sticker.id := Option.bind_fun_some _
  show _ = Indexed.putUnless _ _ _
  unfold Indexed.putUnless
  rw [skips_stickerItem, hstore]
  cases hskip : (s.hashes .stickers sticker.id).any (·.value.eqSticker sticker) with
  | true =>
    rw [hskip] at hexec
    cases hexec
    rfl
  | false =>
    rw [hskip] at hexec
    obtain ⟨_, u, huser, hwrite⟩ := Prog.exec_bind_eq_ok.mp hexec
    rw [exec_writeSticker] at hwrite
    cases hwrite
    have hkeep : Touches userAreas True
        (sticker.user.forM fun user => (new (.all size)).cacheUser user (some g)) :=
      touches_forM fun user => touches_cacheUser user _
    refine (family_sadd_hset sound_stickers).trans ?_
    rw [hkeep.acts (by decide) (by decide) _ s _ u huser]
    rfl

/-- Stickers leave the emojis alone. -/
theorem acts_cacheSticker_emojis : Prog.Acts eval (family .guildEmojis (new (.all size)).emojis g) id
    ((new (.all size)).cacheSticker g sticker) := by
  have hget : Touches [.hash .stickers] False ((new (.all size)).stickers.get sticker.id) :=
    Repository.touches_get (by decide) (.inl Option.some_ne_none) _
  refine (hget.acts (by decide) (by decide) _).keep_bind fun _ => acts_onlyIf ?_
  refine (acts_forM fun user _ => acts_cacheUser _).keep_bind fun _ => ?_
  exact (touches_stickerWrites sticker).acts (by decide) (by decide) _

def stickerClaims (sticker : Sticker) (s : State) : List (UInt64 × SlotKind) :=
  if !(s.hashes .stickers sticker.id).any (·.value.eqSticker sticker) then userClaims sticker.user
  else []

theorem claims_cacheSticker : Prog.Claims eval State.kinds (stickerClaims sticker)
    ((new (.all size)).cacheSticker g sticker) := by
  refine claims_unless .stickers true sticker.id
    (fun cached => !cached.any (·.value.eqSticker sticker)) ?_
  rw [← List.append_nil (userClaims sticker.user)]
  refine Prog.Claims.bind (claims_cacheUsers sticker.user _) (fun _ => ?_) fun _ => rfl
  exact (touches_stickerWrites sticker).claims (by decide)

theorem keepsField_cacheSticker {sticker : Sticker} {id : Id .sticker} (hne : id ≠ sticker.id) :
    KeepsField .stickers id ((new (.all size)).cacheSticker g sticker) := by
  refine Prog.All.bind (KeepsField.get _ _ _) fun _ => ?_
  cases !Option.any _ _ with
  | false => trivial
  | true =>
    have husers : Touches (.set .guildStickers :: userAreas) True (do
        sticker.user.forM fun user => (new (.all size)).cacheUser user (some g)
        (new (.all size)).guildStickers.insert g sticker.id) := by
      refine (touches_forM fun user => ?_).bind fun _ => ?_
      · exact (touches_cacheUser user _).mono (by decide)
      · exact MappedSetRepository.touches_insert _ (by decide) _
    have hbody : KeepsField .stickers id (do
        let _ ← (do
          sticker.user.forM fun user => (new (.all size)).cacheUser user (some g)
          (new (.all size)).guildStickers.insert g sticker.id)
        let _ ← (new (.all size)).stickers.insert sticker.id ⟨g, .fromSticker sticker⟩
        pure ()) := by
      refine Prog.All.bind (husers.keepsField (by decide) _) fun _ => ?_
      exact Prog.All.bind (KeepsField.insert _ _ hne) fun _ => trivial
    rwa [bind_assoc] at hbody

theorem claims_cacheStickers {stickers : List Sticker} (hnodup : (stickers.map (·.id)).Nodup) :
    Prog.Claims eval State.kinds (fun s => stickers.flatMap fun sticker => stickerClaims sticker s)
      (stickers.forM ((new (.all size)).cacheSticker g)) := by
  refine Prog.Claims.forM (fun sticker _ => claims_cacheSticker sticker) ?_
  refine (List.pairwise_map.mp hnodup).imp fun hne s => ?_
  unfold stickerClaims
  rw [(keepsField_cacheSticker hne.symm).exec]

end Stickers

end Tulpje.Cache
