import Tulpje.Cache.Frame
import Tulpje.Lib.Placed

/-!
# Members and their users

A member is stored under guild and user and listed in the index of the guild; its user is stored once for
all guilds, with the set of guilds where it was seen. `MembersCached` relates the four stores. Each method that
caches a member relies on its user: `cacheMember` caches the user itself, the two borrowing methods are called
after the user was cached (`HasUser`), and a member that is up to date has its user by the invariant. A user is
removed with the last guild of its set.

The users are taken to be stored under their own name.
-/

namespace Tulpje.Cache

open Twilight Lib

/-- The cache with the users under their own name. -/
def withOwnUsers (config : Config) : Cache := ⟨config, .users⟩

/-- The user is stored, and seen in the guild. -/
structure HasUser (s : State) (g : Id .guild) (u : Id .user) : Prop where
  guild : g ∈ s.sets .userGuilds u
  user : ∃ user, s.hashes .users u = some user

structure MembersCached (s : State) : Prop where
  listed : ∀ g u, u ∈ s.sets .guildMembers g ↔ ∃ member, s.hashes .members (g, u) = some member
  user : ∀ g u member, s.hashes .members (g, u) = some member → HasUser s g u

theorem membersCached_empty : MembersCached .empty := by
  refine ⟨fun g u => by simp, fun g u member hmember => ?_⟩
  cases hmember

theorem membersCached_dependsOn : DependsOn
    [.hash .members, .set .guildMembers, .hash .users, .set .userGuilds] MembersCached := by
  intro s t h hs
  have hmembers : t.hashes .members = s.hashes .members := h (.hash .members) (by decide)
  have hindex : t.sets .guildMembers = s.sets .guildMembers := h (.set .guildMembers) (by decide)
  have husers : t.hashes .users = s.hashes .users := h (.hash .users) (by decide)
  have hguilds : t.sets .userGuilds = s.sets .userGuilds := h (.set .userGuilds) (by decide)
  constructor
  · rw [hmembers, hindex]
    exact hs.listed
  · intro g u member hmember
    rw [hmembers] at hmember
    obtain ⟨hguild, huser⟩ := hs.user g u member hmember
    refine ⟨?_, ?_⟩
    · rwa [hguilds]
    · rwa [husers]

/-! ### What is written -/

section Writes
variable {s : State} {g g' : Id .guild} {u u' : Id .user}

theorem HasUser.hset_users (h : HasUser s g u) (user : CachedUser) :
    HasUser (s.hset .users u' user) g u := by
  refine ⟨h.guild, ?_⟩
  rw [State.hset_self]
  by_cases hu : u = u'
  · subst hu
    exact ⟨user, Function.update_self ..⟩
  · rw [Function.update_of_ne hu]
    exact h.user

theorem HasUser.sadd_userGuilds (h : HasUser s g u) : HasUser (s.sadd .userGuilds u' g') g u := by
  refine ⟨?_, h.user⟩
  rw [State.sadd_self]
  by_cases hu : u = u'
  · subst hu
    rw [Function.update_self]
    exact Finset.mem_insert_of_mem h.guild
  · rw [Function.update_of_ne hu]
    exact h.guild

theorem MembersCached.hset_users (h : MembersCached s) (user : CachedUser) :
    MembersCached (s.hset .users u user) :=
  ⟨h.listed, fun g u' member hmember => (h.user g u' member hmember).hset_users user⟩

theorem MembersCached.sadd_userGuilds (h : MembersCached s) : MembersCached (s.sadd .userGuilds u g) :=
  ⟨h.listed, fun g' u' member hmember => (h.user g' u' member hmember).sadd_userGuilds⟩

/-- A member is written and listed whose user is there. -/
theorem MembersCached.put (h : MembersCached s) (huser : HasUser s g u) (member : CachedMember) {t : State}
    (hmembers : t.hashes .members = Function.update (s.hashes .members) (g, u) (some member))
    (hindex : t.sets .guildMembers =
      Function.update (s.sets .guildMembers) g (insert u (s.sets .guildMembers g)))
    (husers : t.hashes .users = s.hashes .users) (hguilds : t.sets .userGuilds = s.sets .userGuilds) :
    MembersCached t := by
  have hsame : ∀ g u, HasUser s g u → HasUser t g u := by
    intro g u h
    refine ⟨?_, ?_⟩
    · rw [hguilds]
      exact h.guild
    · rw [husers]
      exact h.user
  constructor
  · intro g' u'
    rw [hmembers, hindex]
    exact Placing.listed_put (fun g' u' _ => h.listed g' u') member g' u'
  · intro g' u' member' hmember'
    rw [hmembers] at hmember'
    by_cases hp : (g', u') = (g, u)
    · cases hp
      exact hsame g u huser
    · rw [Function.update_of_ne hp] at hmember'
      exact hsame g' u' (h.user g' u' member' hmember')

theorem MembersCached.rewrite (h : MembersCached s) {member : CachedMember}
    (hmember : s.hashes .members (g, u) = some member) (member' : CachedMember) :
    MembersCached (s.hset .members (g, u) member') := by
  refine h.put (h.user g u member hmember) member' (State.hset_self ..) ?_ ?_ rfl
  · rw [Finset.insert_eq_of_mem ((h.listed g u).mpr ⟨member, hmember⟩), Function.update_eq_self,
      State.hset_sets]
  · rw [State.hset_of_ne _ _ _ (by decide)]

/-- The member of a user leaves, the guild is forgotten, and the user too if it was in no other guild. -/
theorem MembersCached.forget (h : MembersCached s) {t : State}
    (hmembers : t.hashes .members = fun key => if key ∈ ({(g, u)} : Finset _) then none else s.hashes .members key)
    (hindex : t.sets .guildMembers = Function.update (s.sets .guildMembers) g (s.sets .guildMembers g \ {u}))
    (hguilds : t.sets .userGuilds = Function.update (s.sets .userGuilds) u (s.sets .userGuilds u \ {g}))
    (husers : ∀ u', (u' = u → (t.sets .userGuilds u).Nonempty) → t.hashes .users u' = s.hashes .users u') :
    MembersCached t := by
  constructor
  · intro g' u'
    rw [hmembers, hindex]
    exact Placing.listed_remove (fun g' u' _ => h.listed g' u') g' u'
  · intro g' u' member hmember
    rw [hmembers, Option.ite_none_left_eq_some, Finset.mem_singleton] at hmember
    obtain ⟨hguild, huser⟩ := h.user g' u' member hmember.2
    have hmem : g' ∈ t.sets .userGuilds u' := by
      rw [hguilds]
      by_cases hu : u' = u
      · subst hu
        have hg : g' ≠ g := fun hg => hmember.1 (hg ▸ rfl)
        rw [Function.update_self, Finset.mem_sdiff, Finset.mem_singleton]
        exact ⟨hguild, hg⟩
      · rw [Function.update_of_ne hu]
        exact hguild
    -- the set of the user is not empty, so the user stays
    refine ⟨hmem, ?_⟩
    rw [husers u' fun hu => ⟨g', hu ▸ hmem⟩]
    exact huser

/-- All members of a guild leave with its index. -/
theorem MembersCached.clear (h : MembersCached s) {t : State}
    (hmembers : t.hashes .members = fun key =>
      if key ∈ (s.sets .guildMembers g).image (fun u => (g, u)) then none else s.hashes .members key)
    (hindex : t.sets .guildMembers = Function.update (s.sets .guildMembers) g ∅)
    (husers : t.hashes .users = s.hashes .users) (hguilds : t.sets .userGuilds = s.sets .userGuilds) :
    MembersCached t := by
  constructor
  · intro g' u'
    rw [hmembers, hindex]
    dsimp only
    by_cases hg : g' = g
    · subst hg
      rw [Function.update_self]
      refine iff_of_false (Finset.notMem_empty _) ?_
      rintro ⟨member, hmember⟩
      obtain ⟨hnot, hstored⟩ := Option.ite_none_left_eq_some.mp hmember
      exact hnot (Finset.mem_image_of_mem _ ((h.listed g' u').mpr ⟨member, hstored⟩))
    · rw [Function.update_of_ne hg, if_neg, h.listed g' u']
      intro hmem
      obtain ⟨_, -, heq⟩ := Finset.mem_image.mp hmem
      exact hg (congrArg Prod.fst heq).symm
  · intro g' u' member hmember
    rw [hmembers] at hmember
    obtain ⟨hguild, huser⟩ := h.user g' u' member (Option.ite_none_left_eq_some.mp hmember).2
    refine ⟨?_, ?_⟩
    · rwa [hguilds]
    · rwa [husers]

end Writes

/-! ### The methods -/

section Methods
variable {config : Config} (hu : config.wants .user = true)
include hu

theorem wp_cacheUser {s : State} (hs : MembersCached s) (user : CachedUser) (guildId : Option (Id .guild))
    {E : State → Prop} : ((withOwnUsers config).cacheUser user guildId).wp eval
      (fun _ t => MembersCached t ∧ ∀ g ∈ guildId, HasUser t g user.id) E s := by
  have hguild : ∀ t, MembersCached t → (∃ cached, t.hashes .users user.id = some cached) →
      (guildId.forM fun guildId => do
        let _ ← (withOwnUsers config).userGuilds.insert user.id guildId
        pure () : CacheM Unit).wp eval
        (fun _ t => MembersCached t ∧ ∀ g ∈ guildId, HasUser t g user.id) E t := by
    intro t ht huser
    cases guildId with
    | none => exact ⟨ht, nofun⟩
    | some g =>
      have hinsert := (withOwnUsers config).userGuilds.exec_insert user.id hu g t
      refine Prog.wp_bind.mpr ((Prog.wp_of_exec hinsert).mpr ⟨ht.sadd_userGuilds, fun g' hg => ?_⟩)
      obtain rfl : g = g' := Option.some.inj hg
      refine ⟨?_, huser⟩
      rw [State.sadd_self, Function.update_self]
      exact Finset.mem_insert_self ..
  refine Prog.wp_bind.mpr ((Repository.wp_get_new (h := .users) user.id).mpr ?_)
  refine Prog.wp_bind.mpr (wp_onlyIf.mpr ?_)
  split_ifs with houtdated
  · refine Prog.wp_bind.mpr ((Repository.wp_insert_new (h := .users) hu user.id user).mpr ?_)
    refine hguild _ (hs.hset_users user) ⟨user, ?_⟩
    rw [State.hset_self, Function.update_self]
  · refine hguild s hs ⟨user, ?_⟩
    simpa using houtdated

theorem keeps_cacheUser_members (user : CachedUser) (guildId : Option (Id .guild)) :
    Prog.Keeps eval MembersCached ((withOwnUsers config).cacheUser user guildId) :=
  fun _ hs => Prog.wp_mono (wp_cacheUser hu hs user guildId) fun _ _ ht => ht.1

omit hu

section
variable (hm : config.wants .member = true)
include hm

/-- The end of the two functions for borrowed members. -/
theorem wp_storeBorrowed {s : State} (hs : MembersCached s) {g : Id .guild} {userId : Id .user}
    (huser : HasUser s g userId) (cached : CachedMember) {E : State → Prop} :
    (do
      let _ ← (withOwnUsers config).guildMembers.insert g userId
      let _ ← (withOwnUsers config).members.insert (g, userId) cached
      pure () : CacheM Unit).wp eval (fun _ => MembersCached) E s := by
  have hinsert := (withOwnUsers config).guildMembers.exec_insert g hm userId s
  refine Prog.wp_bind.mpr ((Prog.wp_of_exec hinsert).mpr ?_)
  refine Prog.wp_bind.mpr ((Repository.wp_insert_new (h := .members) hm _ _).mpr ?_)
  refine hs.put huser cached (State.hset_self ..) (State.sadd_self ..) ?_ rfl
  rw [State.hset_of_ne _ _ _ (by decide), State.sadd_hashes]

theorem wp_cacheBorrowedPartialMember {s : State} (hs : MembersCached s) {g : Id .guild} {userId : Id .user}
    (huser : HasUser s g userId) (member : PartialMember) {E : State → Prop} :
    ((withOwnUsers config).cacheBorrowedPartialMember g member userId).wp eval (fun _ => MembersCached) E s := by
  refine Prog.wp_bind.mpr ((Repository.wp_get_new (h := .members) (g, userId)).mpr (wp_onlyIf.mpr ?_))
  split_ifs
  · exact wp_storeBorrowed hm hs huser _
  · exact hs

theorem wp_cacheBorrowedInteractionMember {s : State} (hs : MembersCached s) {g : Id .guild}
    {userId : Id .user} (huser : HasUser s g userId) (member : InteractionMember) {E : State → Prop} :
    ((withOwnUsers config).cacheBorrowedInteractionMember g member userId).wp eval
      (fun _ => MembersCached) E s := by
  refine Prog.wp_bind.mpr ((Repository.wp_get_new (h := .members) (g, userId)).mpr (wp_onlyIf.mpr ?_))
  split_ifs
  · exact wp_storeBorrowed hm hs huser _
  · exact hs

include hu

theorem keeps_cacheMember_members (g : Id .guild) (member : Member) :
    Prog.Keeps eval MembersCached ((withOwnUsers config).cacheMember g member) := by
  intro s hs
  refine Prog.wp_bind.mpr ((Repository.wp_get_new (h := .members) (g, member.user.id)).mpr (wp_onlyIf.mpr ?_))
  split_ifs
  · refine Prog.wp_bind.mpr (Prog.wp_mono (wp_cacheUser hu hs member.user (some g)) fun _ t ht => ?_)
    obtain ⟨ht, huser⟩ := ht
    refine Prog.wp_bind.mpr ((Repository.wp_insert_new (h := .members) hm _ _).mpr ?_)
    have hinsert := (withOwnUsers config).guildMembers.exec_insert g hm member.user.id
      (t.hset .members (g, member.user.id) (.fromMember member))
    refine Prog.wp_bind.mpr ((Prog.wp_of_exec hinsert).mpr ?_)
    refine ht.put (huser g rfl) (.fromMember member) (State.hset_self ..) (State.sadd_self ..) ?_ rfl
    rw [State.sadd_hashes, State.hset_of_ne _ _ _ (by decide)]
  · exact hs

theorem keeps_memberUpdate_members (update : MemberUpdate) :
    Prog.Keeps eval MembersCached ((withOwnUsers config).memberUpdate update) := by
  intro s hs
  refine Prog.wp_bind.mpr ((Repository.wp_get_new (h := .members) (update.guildId, update.user.id)).mpr ?_)
  rcases hmember : s.hashes .members (update.guildId, update.user.id) with _ | member
  · exact hs
  · refine Prog.wp_bind.mpr ((Repository.wp_insert_new (h := .members) hm _ _).mpr ?_)
    exact keeps_cacheUser_members hu update.user _ _ (hs.rewrite hmember _)

/-- The last three steps of `MemberRemove`. -/
theorem keeps_forgetMember_members (g : Id .guild) (userId : Id .user) :
    Prog.Keeps eval MembersCached ((withOwnUsers config).forgetMember g userId) := by
  intro s hs
  refine Prog.wp_bind.mpr ((Repository.wp_remove_new (h := .members) hm (g, userId)).mpr ?_)
  refine Prog.wp_bind.mpr (((withOwnUsers config).guildMembers.wp_remove g hm userId).mpr ?_)
  refine Prog.wp_bind.mpr (((withOwnUsers config).userGuilds.wp_remove userId hu g).mpr ?_)
  refine Prog.wp_bind.mpr (((withOwnUsers config).userGuilds.wp_isEmpty userId hu).mpr (wp_onlyIf.mpr ?_))
  generalize ht : (((s.hdel .members {(g, userId)}).srem .guildMembers g {userId}).srem .userGuilds userId
    {g}) = t
  have hmembers : t.hashes .members =
      fun key => if key ∈ ({(g, userId)} : Finset _) then none else s.hashes .members key := by
    rw [← ht, State.srem_hashes, State.srem_hashes, State.hdel_self]
  have hindex : t.sets .guildMembers =
      Function.update (s.sets .guildMembers) g (s.sets .guildMembers g \ {userId}) := by
    rw [← ht, State.srem_of_ne _ _ _ (by decide), State.srem_self, State.hdel_sets]
  have hguilds : t.sets .userGuilds =
      Function.update (s.sets .userGuilds) userId (s.sets .userGuilds userId \ {g}) := by
    rw [← ht, State.srem_self, State.srem_of_ne _ _ _ (by decide), State.hdel_sets]
  have husers : t.hashes .users = s.hashes .users := by
    rw [← ht, State.srem_hashes, State.srem_hashes, State.hdel_of_ne _ _ (by decide)]
  split_ifs with hempty
  · refine Prog.wp_bind.mpr ((Repository.wp_remove_new (h := .users) hu userId).mpr ?_)
    refine hs.forget (g := g) (u := userId) ?_ hindex hguilds fun u' hu' => ?_
    · rw [State.hdel_of_ne _ _ (by decide), hmembers]
    · have hnone : ¬ (t.sets .userGuilds userId).Nonempty := by simpa using hempty
      have hne : u' ∉ ({userId} : Finset _) := fun hmem => hnone (hu' (Finset.mem_singleton.mp hmem))
      rw [State.hdel_self, husers]
      exact if_neg hne
  · exact hs.forget hmembers hindex hguilds fun _ _ => by rw [husers]

theorem keeps_memberRemove_members (g : Id .guild) (user : User) :
    Prog.Keeps eval MembersCached ((withOwnUsers config).memberRemove g user) := by
  have hcount : Touches [.hash .guilds] False ((withOwnUsers config).changeMemberCount g saturatingDecr) :=
    touches_changeMemberCount g _
  rw [memberRemove_eq]
  exact (hcount.keeps membersCached_dependsOn (by decide)).bind fun _ =>
    keeps_forgetMember_members hu hm g user.id

omit hu

theorem keeps_deleteGuildContents_members (g : Id .guild) :
    Prog.Keeps eval MembersCached ((withOwnUsers config).deleteGuildContents g) := by
  have hremove : ∀ {n : SetName} {h : HashName} {V : Type} (guildMap : MappedSetRepository n)
      (container : Repository h n.Elem V) (key : n.Key), (∀ a ∈
        [Area.hash .members, .set .guildMembers, .hash .users, .set .userGuilds], a ∉ [Area.hash h, .set n]) →
      Prog.Keeps eval MembersCached (removeIds guildMap container key) := by
    intro n h V guildMap container key hareas
    have htouches : Touches [.hash h, .set n] False (removeIds guildMap container key) :=
      touches_removeIds _ _ List.mem_cons_self (List.mem_cons_of_mem _ List.mem_cons_self) _
    exact htouches.keeps membersCached_dependsOn hareas
  have hvoice : Touches [.set .voiceStateGuilds] False ((withOwnUsers config).voiceStateGuilds.clear g) :=
    MappedSetRepository.touches_clear _ (by decide)
  have hpresences : Touches [.hash .presences, .set .guildPresences] False (do
      let presences ← (withOwnUsers config).guildPresences.members g
      let _ ← (withOwnUsers config).presences.removeMulti (presences.image fun userId => (g, userId))
      let _ ← (withOwnUsers config).guildPresences.clear g
      pure () : CacheM Unit) := by
    refine (MappedSetRepository.touches_members _ (by decide)).bind fun _ => ?_
    refine (Repository.touches_removeMulti (by decide) _).bind fun _ => ?_
    exact (MappedSetRepository.touches_clear _ (by decide)).bind fun _ => Touches.pure _
  refine (hremove (n := .guildChannels) (h := .channels) _ _ g (by decide)).bind fun _ => ?_
  refine (hremove (n := .guildEmojis) (h := .emojis) _ _ g (by decide)).bind fun _ => ?_
  refine (hremove (n := .guildRoles) (h := .roles) _ _ g (by decide)).bind fun _ => ?_
  refine (hremove (n := .guildStickers) (h := .stickers) _ _ g (by decide)).bind fun _ => ?_
  refine (hvoice.keeps membersCached_dependsOn (by decide)).bind fun _ => ?_
  intro s hs
  refine Prog.wp_bind.mpr (((withOwnUsers config).guildMembers.wp_members g).mpr ?_)
  refine Prog.wp_bind.mpr ((Repository.wp_removeMulti_new (h := .members) hm _).mpr ?_)
  refine Prog.wp_bind.mpr (((withOwnUsers config).guildMembers.wp_clear g hm).mpr ?_)
  refine hpresences.keeps membersCached_dependsOn (by decide) _ ?_
  refine hs.clear (g := g) ?_ ?_ ?_ rfl
  · rw [State.del_hashes, State.hdel_self]
  · rw [State.del_self, State.hdel_sets]
  · rw [State.del_hashes, State.hdel_of_ne _ _ (by decide)]

theorem keeps_deleteGuild_members (g : Id .guild) (unavailable : Bool) :
    Prog.Keeps eval MembersCached ((withOwnUsers config).deleteGuild g unavailable) := by
  have hrecord : Touches [.hash .guilds] False ((withOwnUsers config).deleteGuildRecord g unavailable) :=
    touches_deleteGuildRecord g unavailable
  rw [deleteGuild_eq]
  exact (hrecord.keeps membersCached_dependsOn (by decide)).bind fun _ =>
    keeps_deleteGuildContents_members hm g

theorem keeps_unavailableGuild_members (g : Id .guild) :
    Prog.Keeps eval MembersCached ((withOwnUsers config).unavailableGuild g) := by
  have hinsert : Touches [.set .unavailableGuilds] False ((withOwnUsers config).unavailableGuilds.insert g) :=
    SetRepository.touches_insert (n := .unavailableGuilds) (by decide) g
  exact (hinsert.keeps membersCached_dependsOn (by decide)).bind fun _ => keeps_deleteGuild_members hm g true

theorem keeps_ready_members (ready : Ready) :
    Prog.Keeps eval MembersCached ((withOwnUsers config).ready ready) := by
  have huser : Touches [.currentUser] False ((withOwnUsers config).cacheCurrentUser ready.user) :=
    touches_cacheCurrentUser ready.user
  refine (huser.keeps membersCached_dependsOn (by decide)).bind fun _ => ?_
  exact Prog.Keeps.forM fun guild _ => keeps_unavailableGuild_members hm guild.id

/-! The methods that cache other things along with a user. -/

omit hm
include hu

theorem keeps_cacheEmoji_members (g : Id .guild) (emoji : Emoji) :
    Prog.Keeps eval MembersCached ((withOwnUsers config).cacheEmoji g emoji) := by
  refine (keeps_forM fun user _ => keeps_cacheUser_members hu user (some g)).bind fun _ => ?_
  refine (keeps_get emoji.id).bind fun _ => keeps_onlyIf fun _ => ?_
  refine (Touches.keeps_of_notMem (Repository.touches_insert List.mem_cons_self ..)
    membersCached_dependsOn (by decide)).bind fun _ => ?_
  refine (Touches.keeps_of_notMem (MappedSetRepository.touches_insert _ List.mem_cons_self _)
    membersCached_dependsOn (by decide)).bind fun _ => Prog.Keeps.pure _

theorem keeps_cacheSticker_members (g : Id .guild) (sticker : Sticker) :
    Prog.Keeps eval MembersCached ((withOwnUsers config).cacheSticker g sticker) := by
  refine (keeps_get sticker.id).bind fun _ => keeps_onlyIf fun _ => ?_
  refine (keeps_forM fun user _ => keeps_cacheUser_members hu user (some g)).bind fun _ => ?_
  refine (Touches.keeps_of_notMem (MappedSetRepository.touches_insert _ List.mem_cons_self _)
    membersCached_dependsOn (by decide)).bind fun _ => ?_
  refine (Touches.keeps_of_notMem (Repository.touches_insert List.mem_cons_self ..)
    membersCached_dependsOn (by decide)).bind fun _ => Prog.Keeps.pure _

theorem keeps_cacheEmojis_members (g : Id .guild) (emojis : List Emoji) :
    Prog.Keeps eval MembersCached ((withOwnUsers config).cacheEmojis g emojis) := by
  have hstale : Touches [.hash .emojis, .set .guildEmojis] False
      (removeStale (withOwnUsers config).emojis (withOwnUsers config).guildEmojis g (emojis.map (·.id))) :=
    touches_removeStale (by decide) (by decide) _ _
  rw [cacheEmojis_eq]
  exact (hstale.keeps membersCached_dependsOn (by decide)).bind fun _ =>
    Prog.Keeps.forM fun emoji _ => keeps_cacheEmoji_members hu g emoji

theorem keeps_cacheStickers_members (g : Id .guild) (stickers : List Sticker) :
    Prog.Keeps eval MembersCached ((withOwnUsers config).cacheStickers g stickers) := by
  have hstale : Touches [.hash .stickers, .set .guildStickers] False
      (removeStale (withOwnUsers config).stickers (withOwnUsers config).guildStickers g
        (stickers.map (·.id))) :=
    touches_removeStale (by decide) (by decide) _ _
  rw [cacheStickers_eq]
  exact (hstale.keeps membersCached_dependsOn (by decide)).bind fun _ =>
    Prog.Keeps.forM fun sticker _ => keeps_cacheSticker_members hu g sticker

include hm

theorem keeps_cacheGuild_members (guild : Guild) :
    Prog.Keeps eval MembersCached ((withOwnUsers config).cacheGuild guild) := by
  refine keeps_cacheGuild fun step => ?_
  cases step with
  | emojis => exact Prog.Keeps.forM fun emoji _ => keeps_cacheEmoji_members hu guild.id emoji
  | members => exact Prog.Keeps.forM fun member _ => keeps_cacheMember_members hu hm guild.id member
  | stickers => exact Prog.Keeps.forM fun sticker _ => keeps_cacheSticker_members hu guild.id sticker
  | _ => exact (GuildStep.touches _).keeps membersCached_dependsOn (by decide)

/-- The member of an interaction is cached after the user it names. -/
theorem keeps_interactionCreate_members (interaction : Interaction) :
    Prog.Keeps eval MembersCached ((withOwnUsers config).interactionCreate interaction) := by
  refine Prog.Keeps.bind ?_ fun _ => Prog.Keeps.bind ?_ fun _ => ?_
  · refine keeps_forM fun member _ => keeps_forM fun g hg => keeps_forM fun user _ => fun s hs => ?_
    refine Prog.wp_bind.mpr (Prog.wp_mono (wp_cacheUser hu hs user interaction.guildId) fun _ t ht => ?_)
    exact wp_cacheBorrowedPartialMember hm ht.1 (ht.2 g hg) member
  · exact keeps_forM fun user _ => keeps_cacheUser_members hu user none
  · rcases interaction.data with _ | data
    · exact Prog.Keeps.pure _
    · cases data with
      | applicationCommand data =>
        refine keeps_forM fun resolved _ => Prog.Keeps.bind ?_ fun _ => keeps_forM fun g _ => ?_
        · refine Prog.Keeps.forM fun user _ => fun s hs => ?_
          refine Prog.wp_bind.mpr
            (Prog.wp_mono (wp_cacheUser hu hs user.2 interaction.guildId) fun _ t ht => ?_)
          rcases hguild : interaction.guildId with _ | g
          · exact ht.1
          · rcases resolved.members.lookup user.2.id with _ | member
            · exact ht.1
            · exact wp_cacheBorrowedInteractionMember hm ht.1 (ht.2 g hguild) member
        · have hroles : Touches [.hash .roles, .set .guildRoles] False
              ((withOwnUsers config).cacheRoles g (resolved.roles.map (·.2))) := touches_cacheRoles g _
          exact hroles.keeps membersCached_dependsOn (by decide)
      | messageComponent => exact Prog.Keeps.pure _
      | modalSubmit => exact Prog.Keeps.pure _

theorem keeps_cacheAuthor_members (message : Message) :
    Prog.Keeps eval MembersCached ((withOwnUsers config).cacheAuthor message) := by
  intro s hs
  refine Prog.wp_bind.mpr (Prog.wp_mono (wp_cacheUser hu hs message.author message.guildId) fun _ t ht => ?_)
  rcases message.member with _ | member
  · exact ht.1
  · rcases hguild : message.guildId with _ | g
    · exact ht.1
    · exact wp_cacheBorrowedPartialMember hm ht.1 (ht.2 g hguild) member

theorem keeps_update_members (event : Event) :
    Prog.Keeps eval MembersCached ((withOwnUsers config).update event) := by
  have hmember : ∀ g member, Prog.Keeps eval MembersCached ((withOwnUsers config).cacheMember g member) :=
    keeps_cacheMember_members hu hm
  cases event with
  | guildCreate guild =>
    cases guild with
    | available guild => exact keeps_cacheGuild_members hu hm guild
    | unavailable guild => exact keeps_unavailableGuild_members hm guild.id
  | guildDelete guild => exact keeps_deleteGuild_members hm guild.id false
  | unavailableGuild guild => exact keeps_unavailableGuild_members hm guild.id
  | ready ready => exact keeps_ready_members hm ready
  | guildEmojisUpdate g emojis => exact keeps_cacheEmojis_members hu g emojis
  | guildStickersUpdate g stickers => exact keeps_cacheStickers_members hu g stickers
  | interactionCreate interaction => exact keeps_interactionCreate_members hu hm interaction
  | memberAdd g member =>
    have hcount : Touches [.hash .guilds] False ((withOwnUsers config).changeMemberCount g saturatingIncr) :=
      touches_changeMemberCount g _
    exact (hcount.keeps membersCached_dependsOn (by decide)).bind fun _ => hmember g member
  | memberRemove g user => exact keeps_memberRemove_members hu hm g user
  | memberUpdate update => exact keeps_memberUpdate_members hu hm update
  | memberChunk g members =>
    exact keeps_onlyIf fun _ => Prog.Keeps.forM fun member _ => hmember g member
  | messageCreate message =>
    have hpush : Touches [.hash .messages, .hash .channelMessages] False
        ((withOwnUsers config).pushMessage message) := touches_pushMessage message
    refine (keeps_cacheAuthor_members hu hm message).bind fun _ => ?_
    refine (hpush.keeps membersCached_dependsOn (by decide)).bind fun _ => ?_
    exact (Touches.keeps_of_notMem (Repository.touches_insert List.mem_cons_self ..)
      membersCached_dependsOn (by decide)).bind fun _ => Prog.Keeps.pure _
  | messageUpdate message =>
    have hpush : Touches [.hash .messages, .hash .channelMessages] False
        ((withOwnUsers config).pushMessage message) := touches_pushMessage message
    refine (keeps_cacheAuthor_members hu hm message).bind fun _ => ?_
    refine (Touches.keeps_of_notMem (Repository.touches_insert List.mem_cons_self ..)
      membersCached_dependsOn (by decide)).bind fun _ => ?_
    exact keeps_onlyIf fun _ => hpush.keeps membersCached_dependsOn (by decide)
  | voiceStateUpdate voiceState =>
    have hvoice : Touches [.hash .voiceStates, .set .voiceStateChannels, .set .voiceStateGuilds] False
        ((withOwnUsers config).cacheVoiceState voiceState) := touches_cacheVoiceState voiceState
    refine (hvoice.keeps membersCached_dependsOn (by decide)).bind fun _ => ?_
    exact keeps_forM fun g _ => keeps_forM fun member _ => hmember g member
  | _ => exact keeps_update_of_areas membersCached_dependsOn (by simp only [Event.areas]; decide)

theorem membersCached_of_reachable {s : State} (hs : (withOwnUsers config).Reachable s) :
    MembersCached s := by
  obtain ⟨events, rfl⟩ := hs
  exact applyEvents_keeps (fun event _ => keeps_update_members hu hm event) membersCached_empty

end

/-- Another guild of a user that leaves still lists the user. -/
theorem keeps_memberRemove_listed {g g' : Id .guild} (hg : g' ≠ g) (user : User) (u : Id .user) :
    Prog.Keeps eval (fun s => u ∈ s.sets .guildMembers g') ((withOwnUsers config).memberRemove g user) := by
  have hlisted : DependsOn [.set .guildMembers] fun s => u ∈ s.sets .guildMembers g' := by
    intro s t h hs
    have hindex : t.sets .guildMembers = s.sets .guildMembers := h (.set .guildMembers) (by decide)
    rwa [hindex]
  have hcount : Touches [.hash .guilds] False ((withOwnUsers config).changeMemberCount g saturatingDecr) :=
    touches_changeMemberCount g _
  rw [memberRemove_eq]
  refine (hcount.keeps hlisted (by decide)).bind fun _ => ?_
  refine (Touches.keeps_of_notMem (Repository.touches_remove List.mem_cons_self _) hlisted
    (by decide)).bind fun _ => ?_
  refine (keeps_setRemove fun s hs => ?_).bind fun _ => ?_
  · rwa [State.srem_self, Function.update_of_ne hg]
  refine (Touches.keeps_of_notMem (MappedSetRepository.touches_remove _ List.mem_cons_self _) hlisted
    (by decide)).bind fun _ => ?_
  refine (Touches.keeps_of_notMem (SetRepository.touches_isEmpty List.mem_cons_self) hlisted
    (by decide)).bind fun _ => keeps_onlyIf fun _ => ?_
  exact (Touches.keeps_of_notMem (Repository.touches_remove List.mem_cons_self _) hlisted
    (by simp)).bind fun _ => Prog.Keeps.pure _

/-- In every state that is reached, the index and the store of members agree, a member has a user that is
seen in its guild, and no `MemberRemove` of one guild removes a user that another guild lists. -/
theorem member_has_user (hu : config.wants .user = true) (hm : config.wants .member = true) {s : State}
    (hs : (withOwnUsers config).Reachable s) (g : Id .guild) (u : Id .user) :
    (u ∈ s.sets .guildMembers g ↔ ∃ member, s.hashes .members (g, u) = some member) ∧
      (u ∈ s.sets .guildMembers g → g ∈ s.sets .userGuilds u ∧ ∃ user, s.hashes .users u = some user) ∧
      ∀ g' user, g' ≠ g → u ∈ s.sets .guildMembers g →
        ∃ cached, (((withOwnUsers config).update (.memberRemove g' user)).exec eval s).2.hashes .users u =
          some cached := by
  have hagree := membersCached_of_reachable hu hm hs
  refine ⟨hagree.listed g u, fun hlisted => ?_, fun g' user hg hlisted => ?_⟩
  · obtain ⟨member, hmember⟩ := (hagree.listed g u).mp hlisted
    obtain ⟨hguild, huser⟩ := hagree.user g u member hmember
    exact ⟨hguild, huser⟩
  · -- the index of the other guild is what it was, and the invariant gives the user
    have hkept := (keeps_memberRemove_members hu hm g' user).exec hagree
    have hother : Prog.Keeps eval (fun s => u ∈ s.sets .guildMembers g)
        ((withOwnUsers config).memberRemove g' user) := keeps_memberRemove_listed hg.symm user u
    obtain ⟨member, hmember⟩ := (hkept.listed g u).mp (hother.exec hlisted)
    exact (hkept.user g u member hmember).user

/-- A user joins two guilds and leaves one of them. -/
theorem member_has_user_of_leave :
    let user : User := ⟨⟨7, by decide⟩, "user"⟩
    let member : Member := ⟨none, none, none, none, false, 0, none, false, none, false, none, [], user⟩
    let s := (withOwnUsers (.all 100)).applyEvents
      [.memberAdd ⟨1, by decide⟩ member, .memberAdd ⟨2, by decide⟩ member] .empty
    ∃ cached, (((withOwnUsers (.all 100)).update (.memberRemove ⟨2, by decide⟩ user)).exec eval s).2.hashes
      .users user.id = some cached := by
  intro user member s
  have hs : (withOwnUsers (.all 100)).Reachable s := ⟨_, rfl⟩
  have hlisted : user.id ∈ s.sets .guildMembers ⟨1, by decide⟩ := by decide
  exact (member_has_user rfl rfl hs ⟨1, by decide⟩ user.id).2.2 _ user (by decide) hlisted

end Methods

end Tulpje.Cache
