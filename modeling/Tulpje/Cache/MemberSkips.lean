import Tulpje.Cache.PartialUpdates

/-!
# Skipping a member that compares equal

Three methods cache a member, and each returns early if the cached member equals the payload. The comparisons
look at some fields only, and `cache_member` refreshes the user of the member after them. `storeMember` and
its kin are what follows the early return, the `Always` methods run it in every case; `run_eq_runAlways_iff`
says when the two end in the same state.
-/

namespace Tulpje.Cache

open Twilight Lib

/-! ### The methods without their early return -/

section Methods
variable (self : Cache) (guildId : Id .guild) (userId : Id .user)

/-- `cache_member` after its early return. -/
def storeMember (member : Member) : CacheM Unit := do
  self.cacheUser member.user (some guildId)
  let _ ← self.members.insert (guildId, member.user.id) (.fromMember member)
  let _ ← self.guildMembers.insert guildId member.user.id
  pure ()

/-- The end of the other two methods. -/
def storeBorrowed (cached : CachedMember) : CacheM Unit := do
  let _ ← self.guildMembers.insert guildId userId
  let _ ← self.members.insert (guildId, userId) cached
  pure ()

def cacheMemberAlways (member : Member) : CacheM Unit := do
  let _ ← self.members.get (guildId, member.user.id)
  self.storeMember guildId member

def cacheBorrowedPartialMemberAlways (member : PartialMember) : CacheM Unit := do
  let _ ← self.members.get (guildId, userId)
  self.storeBorrowed guildId userId (.fromPartialMember userId member)

/-- The record that an interaction makes of the cached one. -/
def computedMember (userId : Id .user) (member : InteractionMember) (cachedMember : Option CachedMember) :
    CachedMember :=
  .fromComputedInteractionMember ⟨cachedMember.bind (·.avatar), cachedMember.bind (·.deaf), member,
    cachedMember.bind (·.mute), userId⟩

def cacheBorrowedInteractionMemberAlways (member : InteractionMember) : CacheM Unit := do
  let cachedMember ← self.members.get (guildId, userId)
  self.storeBorrowed guildId userId (computedMember userId member cachedMember)

end Methods

/-- A call of one of the three methods. -/
inductive MemberCall
  | cacheMember (guildId : Id .guild) (member : Member)
  | cacheBorrowedPartialMember (guildId : Id .guild) (member : PartialMember) (userId : Id .user)
  | cacheBorrowedInteractionMember (guildId : Id .guild) (member : InteractionMember) (userId : Id .user)

namespace MemberCall

def run (self : Cache) : MemberCall → CacheM Unit
  | cacheMember guildId member => self.cacheMember guildId member
  | cacheBorrowedPartialMember guildId member userId => self.cacheBorrowedPartialMember guildId member userId
  | cacheBorrowedInteractionMember guildId member userId =>
    self.cacheBorrowedInteractionMember guildId member userId

def runAlways (self : Cache) : MemberCall → CacheM Unit
  | cacheMember guildId member => self.cacheMemberAlways guildId member
  | cacheBorrowedPartialMember guildId member userId => self.cacheBorrowedPartialMemberAlways guildId userId member
  | cacheBorrowedInteractionMember guildId member userId =>
    self.cacheBorrowedInteractionMemberAlways guildId userId member

def key : MemberCall → Id .guild × Id .user
  | cacheMember guildId member => (guildId, member.user.id)
  | cacheBorrowedPartialMember guildId _ userId
  | cacheBorrowedInteractionMember guildId _ userId => (guildId, userId)

/-- The comparison before the early return. -/
def equal : MemberCall → CachedMember → Bool
  | cacheMember _ member, cached => cached.eqMember member
  | cacheBorrowedPartialMember _ member _, cached => cached.eqPartialMember member
  | cacheBorrowedInteractionMember _ member _, cached => cached.eqInteractionMember member

/-- What follows the early return. -/
def store (self : Cache) : MemberCall → Option CachedMember → CacheM Unit
  | cacheMember guildId member, _ => self.storeMember guildId member
  | cacheBorrowedPartialMember guildId member userId, _ =>
    self.storeBorrowed guildId userId (.fromPartialMember userId member)
  | cacheBorrowedInteractionMember guildId member userId, cachedMember =>
    self.storeBorrowed guildId userId (computedMember userId member cachedMember)

variable {self : Cache} (call : MemberCall)

theorem run_eq : call.run self = (do
    let cachedMember ← self.members.get call.key
    onlyIf (!cachedMember.any call.equal) (call.store self cachedMember)) := by cases call <;> rfl

theorem runAlways_eq : call.runAlways self = (do
    let cachedMember ← self.members.get call.key
    call.store self cachedMember) := by cases call <;> rfl

/-- The two differ only on a member that is skipped. -/
theorem exec_run_eq_iff (s : State) :
    ((call.run self).exec eval s).2 = ((call.runAlways self).exec eval s).2 ↔
      ∀ cached, s.hashes .members call.key = some cached → call.equal cached = true →
        ((call.store self (some cached)).exec eval s).2 = s := by
  have hget : (self.members.get call.key).exec eval s = (.ok (s.hashes .members call.key), s) :=
    Repository.exec_get_new .members _ call.key s
  rw [run_eq, runAlways_eq, Prog.exec_bind_ok hget, Prog.exec_bind_ok hget]
  rcases s.hashes .members call.key with _ | cached
  · rw [Option.any_none, Bool.not_false, onlyIf, if_pos rfl]
    simp
  · rw [Option.any_some]
    cases hequal : call.equal cached with
    | false =>
      rw [Bool.not_false, onlyIf, if_pos rfl]
      refine iff_of_true rfl ?_
      rintro _ ⟨⟩ htrue
      exact absurd (hequal.symm.trans htrue) Bool.false_ne_true
    | true =>
      rw [Bool.not_true, onlyIf, if_neg Bool.false_ne_true, Prog.exec_pure]
      constructor
      · rintro h _ ⟨⟩ -
        exact h.symm
      · exact fun h => (h cached rfl hequal).symm

end MemberCall

/-! ### What is stored again -/

/-- The fields that `eqMember` does not look at. -/
structure CachedMember.AgreesUnseen (cached : CachedMember) (member : Member) : Prop where
  avatarDecorationData : cached.avatarDecorationData = member.avatarDecorationData
  banner : cached.banner = member.banner
  flags : cached.flags = member.flags

/-- The fields that `eqPartialMember` does not look at; the new record is not pending. -/
structure CachedMember.AgreesUnseenPartial (cached : CachedMember) (member : PartialMember)
    (userId : Id .user) : Prop where
  uncompared : cached.AgreesUncompared member
  pending : cached.pending = false
  userId : member.user = none → cached.userId = userId

/-- The fields that `eqInteractionMember` does not look at, less those that the new record has from the old. -/
structure CachedMember.AgreesUnseenInteraction (cached : CachedMember) (member : InteractionMember)
    (userId : Id .user) : Prop where
  avatarDecorationData : cached.avatarDecorationData = member.avatarDecorationData
  banner : cached.banner = member.banner
  communicationDisabledUntil : cached.communicationDisabledUntil = member.communicationDisabledUntil
  flags : cached.flags = member.flags
  pending : cached.pending = member.pending
  userId : cached.userId = userId

section Records
variable {cached : CachedMember} {userId : Id .user}

theorem eqMember_iff {member : Member} : cached.eqMember member = true ↔
    cached.avatar = member.avatar ∧ cached.communicationDisabledUntil = member.communicationDisabledUntil ∧
      cached.deaf = some member.deaf ∧ cached.joinedAt = member.joinedAt ∧ cached.mute = some member.mute ∧
      cached.nick = member.nick ∧ cached.pending = member.pending ∧ cached.premiumSince = member.premiumSince ∧
      cached.roles = member.roles ∧ cached.userId = member.user.id := by
  simp only [CachedMember.eqMember, Bool.and_eq_true, beq_iff_eq, and_assoc]

theorem eq_fromMember_iff {member : Member} (heq : cached.eqMember member = true) :
    cached = .fromMember member ↔ cached.AgreesUnseen member := by
  obtain ⟨havatar, hdisabled, hdeaf, hjoined, hmute, hnick, hpending, hpremium, hroles, huser⟩ :=
    eqMember_iff.mp heq
  obtain ⟨⟩ := cached
  simp only [CachedMember.fromMember, CachedMember.mk.injEq] at *
  constructor
  · rintro ⟨-, hdecoration, hbanner, -, -, hflags, -⟩
    exact ⟨hdecoration, hbanner, hflags⟩
  · intro h
    exact ⟨havatar, h.avatarDecorationData, h.banner, hdisabled, hdeaf, h.flags, hjoined, hmute, hnick,
      hpending, hpremium, hroles, huser⟩

theorem eq_fromPartialMember_iff {member : PartialMember} (heq : cached.eqPartialMember member = true) :
    cached = .fromPartialMember userId member ↔ cached.AgreesUnseenPartial member userId := by
  constructor
  · intro h
    have hcarry : cached.carryPartialMember member = .fromPartialMember userId member := by
      rw [h]
      simp only [CachedMember.carryPartialMember, CachedMember.fromPartialMember, CachedMember.mk.injEq,
        true_and]
      cases member.user <;> rfl
    obtain ⟨hpending, huser⟩ := fromPartialMember_eq_carry_iff.mp hcarry.symm
    exact ⟨(eq_carryPartialMember_iff heq).mp (h.trans hcarry.symm), hpending, huser⟩
  · intro h
    rw [fromPartialMember_eq_carry_iff.mpr ⟨h.pending, h.userId⟩]
    exact (eq_carryPartialMember_iff heq).mpr h.uncompared

theorem eq_computedMember_iff {member : InteractionMember} (heq : cached.eqInteractionMember member = true) :
    cached = computedMember userId member (some cached) ↔ cached.AgreesUnseenInteraction member userId := by
  obtain ⟨hjoined, hnick, hpremium, hroles⟩ := eqInteractionMember_iff.mp heq
  obtain ⟨⟩ := cached
  simp only [computedMember, Option.bind_some, CachedMember.fromComputedInteractionMember,
    CachedMember.mk.injEq, true_and] at *
  constructor
  · rintro ⟨hdecoration, hbanner, hdisabled, hflags, -, -, hpending, -, -, huser⟩
    exact ⟨hdecoration, hbanner, hdisabled, hflags, hpending, huser⟩
  · intro h
    exact ⟨h.avatarDecorationData, h.banner, h.communicationDisabledUntil, h.flags, hjoined, hnick, h.pending,
      hpremium, hroles, h.userId⟩

end Records

/-! ### When storing changes nothing -/

theorem State.eq_of_part {s t : State} (h : ∀ a, s.part a = t.part a) : s = t :=
  State.ext_names (fun name => h (.hash name)) (fun name => h (.set name)) (h .currentUser)

/-- If two programs about different areas leave the state, the first of them leaves it already. -/
theorem Touches.exec_eq_of_exec_eq {α β : Type} {areas areas' : List Area} {fails fails' : Prop}
    {p : CacheM α} {q : CacheM β} (hp : Touches areas fails p) (hq : Touches areas' fails' q)
    (hdisjoint : ∀ a ∈ areas, a ∉ areas') {s : State}
    (h : (q.exec eval (p.exec eval s).2).2 = s) : (p.exec eval s).2 = s := by
  refine State.eq_of_part fun a => ?_
  by_cases ha : a ∈ areas
  · rw [← hq.part (hdisjoint a ha), h]
  · exact hp.part ha s

/-- An entry and its listing in an index, if the repository of both is wanted. -/
def State.put (s : State) (wanted : Bool) (h : HashName) (field : h.Field) (entry : h.Entry) (n : SetName)
    (key : n.Key) (id : n.Elem) : State :=
  if wanted then (s.hset h field entry).sadd n key id else s

theorem State.put_eq_iff {s : State} {wanted : Bool} {h : HashName} {field : h.Field} {entry : h.Entry}
    {n : SetName} {key : n.Key} {id : n.Elem} : s.put wanted h field entry n key id = s ↔
      (wanted = true → s.hashes h field = some entry ∧ id ∈ s.sets n key) := by
  cases wanted with
  | false => exact iff_of_true rfl nofun
  | true =>
    refine ⟨fun heq _ => ⟨?_, ?_⟩, fun hput => ?_⟩
    · have hslot : (s.put true h field entry n key id).hashes h field = some entry := by simp [put]
      rwa [heq] at hslot
    · have hlisted : id ∈ (s.put true h field entry n key id).sets n key := by simp [put]
      rwa [heq] at hlisted
    · obtain ⟨hslot, hlisted⟩ := hput rfl
      have hset : s.hset h field entry = s := by
        rw [State.hset, ← hslot, Function.update_eq_self, State.setHash_same]
      rw [put, if_pos rfl, hset, State.sadd, Finset.insert_eq_of_mem hlisted, State.setSet_same]

section Unchanged
variable {self : Cache} {s : State} {g : Id .guild} {u : Id .user}

/-- The slot of the user holds an entry that is not one of a user. -/
def UserRejected (self : Cache) (s : State) (u : Id .user) : Prop :=
  ∃ entry, s.hashes self.usersName.hash (self.users.field u) = some entry ∧ self.users.decode entry = none

theorem users_wanted : self.users.wanted = self.config.wants .user := by
  obtain ⟨config, name⟩ := self
  cases name <;> rfl

theorem users_eq_encode {entry : self.usersName.hash.Entry} {user : CachedUser}
    (h : self.users.decode entry = some user) : entry = self.users.encode user := by
  obtain ⟨config, name⟩ := self
  cases name with
  | users => exact Option.some.inj h
  | emojis =>
    obtain _ | _ := entry
    · exact congrArg _ (Option.some.inj h)
    · cases h

theorem exec_cacheUser_of_rejected {user : CachedUser} (h : self.UserRejected s user.id)
    (guildId : Option (Id .guild)) : (self.cacheUser user guildId).exec eval s = (.error .json, s) := by
  obtain ⟨entry, hentry, hdecode⟩ := h
  unfold cacheUser
  rw [Prog.exec_bind, self.users.exec_get_of_rejected hentry hdecode]

/-- What `cache_user` does with the cached user; one that is up to date is not stored again. -/
theorem exec_refreshUser {user : CachedUser} {cachedUser : Option CachedUser}
    (hcached : cachedUser = some user →
      s.hashes self.usersName.hash (self.users.field user.id) = some (self.users.encode user)) :
    (do
      onlyIf (cachedUser ≠ some user) do
        let _ ← self.users.insert user.id user
        pure ()
      (some g).forM fun guildId => do
        let _ ← self.userGuilds.insert user.id guildId
        pure () : CacheM PUnit).exec eval s =
      (.ok (), s.put (self.config.wants .user) self.usersName.hash (self.users.field user.id)
        (self.users.encode user) .userGuilds user.id g) := by
  have hindex : ∀ t, ((some g).forM fun guildId => do
      let _ ← self.userGuilds.insert user.id guildId
      pure () : CacheM PUnit).exec eval t =
        (.ok (), if self.config.wants .user then t.sadd .userGuilds user.id g else t) := by
    intro t
    cases hw : self.config.wants .user with
    | true => exact Prog.exec_bind_ok (self.userGuilds.exec_insert user.id hw g t) _
    | false => exact Prog.exec_bind_ok (self.userGuilds.exec_insert_off user.id hw g t) _
  unfold onlyIf State.put
  by_cases hfresh : cachedUser = some user
  · rw [if_neg (by simpa using hfresh), Prog.exec_bind_ok (Prog.exec_pure ..), hindex]
    have hset : s.hset self.usersName.hash (self.users.field user.id) (self.users.encode user) = s := by
      rw [State.hset, ← hcached hfresh, Function.update_eq_self, State.setHash_same]
    rw [hset]
  · rw [if_pos (by simpa using hfresh), bind_assoc]
    cases hw : self.config.wants .user with
    | true =>
      rw [Prog.exec_bind_ok (self.users.exec_insert (users_wanted.trans hw) user.id user s)]
      refine (hindex _).trans ?_
      rw [hw, if_pos rfl, if_pos rfl]
    | false =>
      rw [Prog.exec_bind_ok (self.users.exec_insert_off (users_wanted.trans hw) user.id user s)]
      refine (hindex _).trans ?_
      rw [hw, if_neg Bool.false_ne_true, if_neg Bool.false_ne_true]

theorem exec_cacheUser {user : CachedUser} (h : ¬ self.UserRejected s user.id) :
    (self.cacheUser user (some g)).exec eval s =
      (.ok (), s.put (self.config.wants .user) self.usersName.hash (self.users.field user.id)
        (self.users.encode user) .userGuilds user.id g) := by
  unfold cacheUser
  rcases hentry : s.hashes self.usersName.hash (self.users.field user.id) with _ | entry
  · rw [Prog.exec_bind_ok (self.users.exec_get_of_none hentry)]
    exact exec_refreshUser nofun
  · cases hdecode : self.users.decode entry with
    | none => exact absurd ⟨entry, hentry, hdecode⟩ h
    | some cached =>
      rw [Prog.exec_bind_ok (self.users.exec_get_of_some hentry hdecode)]
      refine exec_refreshUser fun hcached => ?_
      rw [hentry, users_eq_encode hdecode, Option.some.inj hcached]

/-- The end of `cache_member`, in either order of its two writes. -/
theorem exec_fileMember (cached : CachedMember) (t : State) :
    (do
      let _ ← self.members.insert (g, u) cached
      let _ ← self.guildMembers.insert g u
      pure () : CacheM Unit).exec eval t =
      (.ok (), t.put (self.config.wants .member) .members (g, u) cached .guildMembers g u) := by
  unfold State.put
  cases hw : self.config.wants .member with
  | true =>
    rw [Prog.exec_bind_ok (self.members.exec_insert hw (g, u) cached t),
      Prog.exec_bind_ok (self.guildMembers.exec_insert g hw u _)]
    rfl
  | false =>
    rw [Prog.exec_bind_ok (self.members.exec_insert_off hw (g, u) cached t),
      Prog.exec_bind_ok (self.guildMembers.exec_insert_off g hw u _)]
    rfl

theorem exec_storeBorrowed (cached : CachedMember) :
    (self.storeBorrowed g u cached).exec eval s =
      (.ok (), s.put (self.config.wants .member) .members (g, u) cached .guildMembers g u) := by
  unfold storeBorrowed State.put
  cases hw : self.config.wants .member with
  | true =>
    rw [Prog.exec_bind_ok (self.guildMembers.exec_insert g hw u s),
      Prog.exec_bind_ok (self.members.exec_insert hw (g, u) cached _)]
    rfl
  | false =>
    rw [Prog.exec_bind_ok (self.guildMembers.exec_insert_off g hw u s),
      Prog.exec_bind_ok (self.members.exec_insert_off hw (g, u) cached _)]
    rfl

/-- The user is not touched if its slot is rejected; otherwise both records have to be there already. -/
theorem exec_storeMember_eq_iff {member : Member} :
    ((self.storeMember g member).exec eval s).2 = s ↔
      self.UserRejected s member.user.id ∨
        s.put (self.config.wants .user) self.usersName.hash (self.users.field member.user.id)
          (self.users.encode member.user) .userGuilds member.user.id g = s ∧
        s.put (self.config.wants .member) .members (g, member.user.id) (.fromMember member) .guildMembers g
          member.user.id = s := by
  unfold storeMember
  by_cases hrejected : self.UserRejected s member.user.id
  · rw [Prog.exec_bind, exec_cacheUser_of_rejected hrejected]
    exact iff_of_true rfl (.inl hrejected)
  · have huser := exec_cacheUser (g := g) hrejected
    have hdisjoint : ∀ a ∈ self.usersName.areas, a ∉ [Area.hash .members, .set .guildMembers] := by
      cases self.usersName <;> decide
    have htouches : Touches [.hash .members, .set .guildMembers] False (do
        let _ ← self.members.insert (g, member.user.id) (.fromMember member)
        let _ ← self.guildMembers.insert g member.user.id
        pure () : CacheM Unit) := by
      refine (Repository.touches_insert (by decide) _ _).bind fun _ => ?_
      exact (MappedSetRepository.touches_insert _ (by decide) _).bind fun _ => Touches.pure _
    constructor
    · intro h
      have hkept := (touches_cacheUser_own member.user (some g)).exec_eq_of_exec_eq htouches hdisjoint
        (s := s) (by rw [huser]; rwa [Prog.exec_bind_ok huser] at h)
      rw [huser] at hkept
      rw [Prog.exec_bind_ok huser, exec_fileMember] at h
      dsimp only at h hkept
      rw [hkept] at h
      exact .inr ⟨hkept, h⟩
    · intro h
      obtain ⟨huserPut, hmemberPut⟩ := h.resolve_left hrejected
      rw [Prog.exec_bind_ok huser, exec_fileMember, huserPut]
      exact hmemberPut

end Unchanged

/-- A user that is stored and listed already. -/
structure UserStored (cache : Cache) (s : State) (g : Id .guild) (user : User) : Prop where
  slot : s.hashes cache.usersName.hash (cache.users.field user.id) = some (cache.users.encode user)
  listed : g ∈ s.sets .userGuilds user.id

/-- Nothing that the call would store differs from what is there; `cached` is the member under its key. -/
def MemberCall.Stored (self : Cache) (s : State) : MemberCall → CachedMember → Prop
  | cacheMember guildId member, cached =>
    self.UserRejected s member.user.id ∨
      (self.config.wants .user = true → self.UserStored s guildId member.user) ∧
      (self.config.wants .member = true →
        cached.AgreesUnseen member ∧ member.user.id ∈ s.sets .guildMembers guildId)
  | cacheBorrowedPartialMember guildId member userId, cached =>
    self.config.wants .member = true →
      cached.AgreesUnseenPartial member userId ∧ userId ∈ s.sets .guildMembers guildId
  | cacheBorrowedInteractionMember guildId member userId, cached =>
    self.config.wants .member = true →
      cached.AgreesUnseenInteraction member userId ∧ userId ∈ s.sets .guildMembers guildId

theorem put_member_eq_iff {wanted : Bool} {s : State} {g : Id .guild} {u : Id .user}
    {cached replacement : CachedMember} (hcached : s.hashes .members (g, u) = some cached) :
    s.put wanted .members (g, u) replacement .guildMembers g u = s ↔
      (wanted = true → cached = replacement ∧ u ∈ s.sets .guildMembers g) := by
  rw [State.put_eq_iff, hcached, Option.some.injEq]

theorem MemberCall.exec_store_eq_iff {self : Cache} {call : MemberCall} {s : State} {cached : CachedMember}
    (hcached : s.hashes .members call.key = some cached) (hequal : call.equal cached = true) :
    ((call.store self (some cached)).exec eval s).2 = s ↔ call.Stored self s cached := by
  cases call with
  | cacheMember guildId member =>
    refine exec_storeMember_eq_iff.trans (or_congr_right (and_congr ?_ ?_))
    · refine State.put_eq_iff.trans (imp_congr_right fun _ => ?_)
      exact ⟨fun h => ⟨h.1, h.2⟩, fun h => ⟨h.slot, h.listed⟩⟩
    · refine (put_member_eq_iff hcached).trans (imp_congr_right fun _ => ?_)
      rw [eq_fromMember_iff hequal]
  | cacheBorrowedPartialMember guildId member userId =>
    unfold store
    rw [exec_storeBorrowed]
    refine (put_member_eq_iff hcached).trans (imp_congr_right fun _ => ?_)
    rw [eq_fromPartialMember_iff hequal]
  | cacheBorrowedInteractionMember guildId member userId =>
    unfold store
    rw [exec_storeBorrowed]
    refine (put_member_eq_iff hcached).trans (imp_congr_right fun _ => ?_)
    rw [eq_computedMember_iff hequal]

/-- Skipping an equal member is invisible exactly when what is skipped is stored already. -/
theorem run_eq_runAlways_iff (self : Cache) (s : State) (call : MemberCall) :
    ((call.run self).exec eval s).2 = ((call.runAlways self).exec eval s).2 ↔
      ∀ cached, s.hashes .members call.key = some cached → call.equal cached = true →
        call.Stored self s cached := by
  rw [call.exec_run_eq_iff]
  constructor
  · intro h cached hcached hequal
    exact (MemberCall.exec_store_eq_iff hcached hequal).mp (h cached hcached hequal)
  · intro h cached hcached hequal
    exact (MemberCall.exec_store_eq_iff hcached hequal).mpr (h cached hcached hequal)

/-- A member of a guild; a user's name is in the other fields of the record. -/
def memberNamed (name : String) : Member :=
  ⟨none, none, none, none, false, 0, none, false, none, false, none, [], ⟨⟨7, by decide⟩, name⟩⟩

/-- A user who has changed its name since it joined is not refreshed. -/
theorem skip_keeps_old_name : ∃ s, (new (.all 100)).Reachable s ∧
    ((MemberCall.cacheMember ⟨1, by decide⟩ (memberNamed "new")).run (new (.all 100)) |>.exec eval s).2.hashes
        .emojis 7 = some (.user (memberNamed "old").user) ∧
    ((MemberCall.cacheMember ⟨1, by decide⟩ (memberNamed "new")).runAlways (new (.all 100)) |>.exec eval
        s).2.hashes .emojis 7 = some (.user (memberNamed "new").user) := by
  refine ⟨_, ⟨[.memberAdd ⟨1, by decide⟩ (memberNamed "old")], rfl⟩, ?_, ?_⟩
  · rfl
  · rfl

end Tulpje.Cache
