import Tulpje.Cache.Members

/-!
# Partial updates

Four payloads update a cached record in place: `MemberUpdate` and `GuildUpdate` by a list of assignments,
`PartialMember` and `InteractionMember` by a new record, unless a comparison finds the old one up to date.

`carry` definitions say what an update should leave: the fields that the payload carries as it has them, the
others as they were. A field that an assignment list forgets, a comparison does not look at, or a new record does
not take over has to agree beforehand; `partial_updates_iff` lists them.
-/

namespace Tulpje.Cache

open Twilight Lib

/-! ### What the payloads carry -/

namespace CachedMember
variable (self : CachedMember)

def carryMemberUpdate (update : MemberUpdate) : CachedMember :=
  { self with
    avatar := update.avatar
    avatarDecorationData := update.avatarDecorationData
    banner := update.banner
    communicationDisabledUntil := update.communicationDisabledUntil
    deaf := update.deaf.or self.deaf
    joinedAt := update.joinedAt
    mute := update.mute.or self.mute
    nick := update.nick
    pending := update.pending
    premiumSince := update.premiumSince
    roles := update.roles
    userId := update.user.id }

def carryPartialMember (member : PartialMember) : CachedMember :=
  { self with
    avatar := member.avatar
    avatarDecorationData := member.avatarDecorationData
    banner := member.banner
    communicationDisabledUntil := member.communicationDisabledUntil
    deaf := some member.deaf
    flags := member.flags
    joinedAt := member.joinedAt
    mute := some member.mute
    nick := member.nick
    premiumSince := member.premiumSince
    roles := member.roles
    userId := (member.user.map (·.id)).getD self.userId }

def carryInteractionMember (member : InteractionMember) : CachedMember :=
  { self with
    avatar := member.avatar
    avatarDecorationData := member.avatarDecorationData
    banner := member.banner
    communicationDisabledUntil := member.communicationDisabledUntil
    flags := member.flags
    joinedAt := member.joinedAt
    nick := member.nick
    pending := member.pending
    premiumSince := member.premiumSince
    roles := member.roles }

end CachedMember

/-- With the code's defaults for the two counts. -/
def CachedGuild.carryGuildUpdate (self : CachedGuild) (update : GuildUpdate) : CachedGuild :=
  { self with
    afkChannelId := update.afkChannelId
    afkTimeout := update.afkTimeout
    applicationId := update.applicationId
    banner := update.banner
    defaultMessageNotifications := update.defaultMessageNotifications
    description := update.description
    discoverySplash := update.discoverySplash
    explicitContentFilter := update.explicitContentFilter
    features := update.features
    icon := update.icon
    id := update.id
    maxMembers := update.maxMembers
    maxPresences := some (update.maxPresences.getD 25000)
    memberCount := update.memberCount
    mfaLevel := update.mfaLevel
    name := update.name
    nsfwLevel := update.nsfwLevel
    ownerId := update.ownerId
    owner := update.owner
    permissions := update.permissions
    preferredLocale := update.preferredLocale
    premiumProgressBarEnabled := update.premiumProgressBarEnabled
    premiumSubscriptionCount := some (update.premiumSubscriptionCount.getD 0)
    premiumTier := update.premiumTier
    publicUpdatesChannelId := update.publicUpdatesChannelId
    rulesChannelId := update.rulesChannelId
    splash := update.splash
    systemChannelFlags := update.systemChannelFlags
    systemChannelId := update.systemChannelId
    vanityUrlCode := update.vanityUrlCode
    verificationLevel := update.verificationLevel
    widgetChannelId := update.widgetChannelId
    widgetEnabled := update.widgetEnabled }

/-! ### What has to agree beforehand -/

/-- The carried fields that `updateWithMemberUpdate` does not assign. -/
structure CachedMember.AgreesUnassigned (cached : CachedMember) (update : MemberUpdate) : Prop where
  avatarDecorationData : cached.avatarDecorationData = update.avatarDecorationData
  banner : cached.banner = update.banner
  premiumSince : cached.premiumSince = update.premiumSince
  userId : cached.userId = update.user.id

/-- The carried fields that `updateWithGuildUpdate` does not assign. -/
structure CachedGuild.AgreesUnassigned (cached : CachedGuild) (update : GuildUpdate) : Prop where
  applicationId : cached.applicationId = update.applicationId
  discoverySplash : cached.discoverySplash = update.discoverySplash
  explicitContentFilter : cached.explicitContentFilter = update.explicitContentFilter
  id : cached.id = update.id
  memberCount : cached.memberCount = update.memberCount
  premiumProgressBarEnabled : cached.premiumProgressBarEnabled = update.premiumProgressBarEnabled
  publicUpdatesChannelId : cached.publicUpdatesChannelId = update.publicUpdatesChannelId
  rulesChannelId : cached.rulesChannelId = update.rulesChannelId
  systemChannelFlags : cached.systemChannelFlags = update.systemChannelFlags

/-- The carried fields that the comparison does not look at. -/
structure CachedMember.AgreesUncompared (cached : CachedMember) (member : PartialMember) : Prop where
  avatar : cached.avatar = member.avatar
  avatarDecorationData : cached.avatarDecorationData = member.avatarDecorationData
  banner : cached.banner = member.banner
  flags : cached.flags = member.flags
  userId : ∀ user ∈ member.user, cached.userId = user.id

/-- The carried fields that the comparison does not look at. -/
structure CachedMember.AgreesUncomparedInteraction (cached : CachedMember) (member : InteractionMember) : Prop where
  avatar : cached.avatar = member.avatar
  avatarDecorationData : cached.avatarDecorationData = member.avatarDecorationData
  banner : cached.banner = member.banner
  communicationDisabledUntil : cached.communicationDisabledUntil = member.communicationDisabledUntil
  flags : cached.flags = member.flags
  pending : cached.pending = member.pending

/-! ### The assignments -/

theorem updateWithMemberUpdate_eq_carry_iff {cached : CachedMember} {update : MemberUpdate} :
    cached.updateWithMemberUpdate update = cached.carryMemberUpdate update ↔ cached.AgreesUnassigned update := by
  simp only [CachedMember.updateWithMemberUpdate, CachedMember.carryMemberUpdate, CachedMember.mk.injEq,
    true_and]
  constructor
  · rintro ⟨hdecoration, hbanner, hpremium, huser⟩
    exact ⟨hdecoration, hbanner, hpremium, huser⟩
  · intro h
    exact ⟨h.avatarDecorationData, h.banner, h.premiumSince, h.userId⟩

theorem updateWithGuildUpdate_eq_carry_iff {cached : CachedGuild} {update : GuildUpdate} :
    cached.updateWithGuildUpdate update = cached.carryGuildUpdate update ↔ cached.AgreesUnassigned update := by
  simp only [CachedGuild.updateWithGuildUpdate, CachedGuild.carryGuildUpdate, CachedGuild.mk.injEq,
    true_and, and_true]
  constructor
  · rintro ⟨happlication, hsplash, hfilter, hid, hcount, hbar, hpublic, hrules, hflags⟩
    exact ⟨happlication, hsplash, hfilter, hid, hcount, hbar, hpublic, hrules, hflags⟩
  · intro h
    exact ⟨h.applicationId, h.discoverySplash, h.explicitContentFilter, h.id, h.memberCount,
      h.premiumProgressBarEnabled, h.publicUpdatesChannelId, h.rulesChannelId, h.systemChannelFlags⟩

/-! ### The new records -/

section Comparisons
variable {cached : CachedMember}

theorem eqPartialMember_iff {member : PartialMember} : cached.eqPartialMember member = true ↔
    cached.communicationDisabledUntil = member.communicationDisabledUntil ∧ cached.deaf = some member.deaf ∧
      cached.joinedAt = member.joinedAt ∧ cached.mute = some member.mute ∧ cached.nick = member.nick ∧
      cached.premiumSince = member.premiumSince ∧ cached.roles = member.roles := by
  simp only [CachedMember.eqPartialMember, Bool.and_eq_true, beq_iff_eq, and_assoc]

theorem eqInteractionMember_iff {member : InteractionMember} : cached.eqInteractionMember member = true ↔
    cached.joinedAt = member.joinedAt ∧ cached.nick = member.nick ∧
      cached.premiumSince = member.premiumSince ∧ cached.roles = member.roles := by
  simp only [CachedMember.eqInteractionMember, Bool.and_eq_true, beq_iff_eq, and_assoc]

/-- The user of a payload that has one. -/
theorem eq_userId_getD_iff {user : Option User} {userId : Id .user} :
    userId = (user.map (·.id)).getD userId ↔ ∀ u ∈ user, userId = u.id := by
  cases user with
  | none => simp
  | some u => simp

/-- A member that the comparison finds up to date. -/
theorem eq_carryPartialMember_iff {member : PartialMember} (heq : cached.eqPartialMember member = true) :
    cached = cached.carryPartialMember member ↔ cached.AgreesUncompared member := by
  obtain ⟨hdisabled, hdeaf, hjoined, hmute, hnick, hpremium, hroles⟩ := eqPartialMember_iff.mp heq
  obtain ⟨⟩ := cached
  simp only [CachedMember.carryPartialMember, CachedMember.mk.injEq, true_and, eq_userId_getD_iff] at *
  constructor
  · rintro ⟨havatar, hdecoration, hbanner, -, -, hflags, -, -, -, -, -, huser⟩
    exact ⟨havatar, hdecoration, hbanner, hflags, huser⟩
  · intro h
    exact ⟨h.avatar, h.avatarDecorationData, h.banner, hdisabled, hdeaf, h.flags, hjoined, hmute, hnick,
      hpremium, hroles, h.userId⟩

/-- The new record is not pending, and has the user of its key unless the payload names one. -/
theorem fromPartialMember_eq_carry_iff {member : PartialMember} {userId : Id .user} :
    CachedMember.fromPartialMember userId member = cached.carryPartialMember member ↔
      cached.pending = false ∧ (member.user = none → cached.userId = userId) := by
  simp only [CachedMember.fromPartialMember, CachedMember.carryPartialMember, CachedMember.mk.injEq, true_and]
  cases member.user with
  | none => exact and_congr eq_comm ⟨fun h _ => h.symm, fun h => (h rfl).symm⟩
  | some user => exact and_congr eq_comm ⟨fun _ h => absurd h (Option.some_ne_none user), fun _ => rfl⟩

theorem eq_carryInteractionMember_iff {member : InteractionMember}
    (heq : cached.eqInteractionMember member = true) :
    cached = cached.carryInteractionMember member ↔ cached.AgreesUncomparedInteraction member := by
  obtain ⟨hjoined, hnick, hpremium, hroles⟩ := eqInteractionMember_iff.mp heq
  obtain ⟨⟩ := cached
  simp only [CachedMember.carryInteractionMember, CachedMember.mk.injEq, true_and, and_true] at *
  constructor
  · rintro ⟨havatar, hdecoration, hbanner, hdisabled, hflags, -, -, hpending, -, -⟩
    exact ⟨havatar, hdecoration, hbanner, hdisabled, hflags, hpending⟩
  · intro h
    exact ⟨h.avatar, h.avatarDecorationData, h.banner, h.communicationDisabledUntil, h.flags, hjoined, hnick,
      h.pending, hpremium, hroles⟩

/-- The new record has the avatar of the old one, and the user of its key. -/
theorem fromComputedInteractionMember_eq_carry_iff {member : InteractionMember} {userId : Id .user} :
    CachedMember.fromComputedInteractionMember ⟨cached.avatar, cached.deaf, member, cached.mute, userId⟩ =
        cached.carryInteractionMember member ↔
      cached.avatar = member.avatar ∧ cached.userId = userId := by
  simp only [CachedMember.fromComputedInteractionMember, CachedMember.carryInteractionMember,
    CachedMember.mk.injEq, true_and]
  exact and_congr_right fun _ => eq_comm

end Comparisons

/-! ### The cache -/

/-- The program returns, and leaves this record under the key. -/
def LeavesMember (p : CacheM Unit) (s : State) (key : Id .guild × Id .user) (member : CachedMember) : Prop :=
  p.wp eval (fun _ t => t.hashes .members key = some member) (fun _ => False) s

section Runs
variable {self : Cache} (hm : self.config.wants .member = true) {s : State} {g : Id .guild} {u : Id .user}
  {cached : CachedMember} (hcached : s.hashes .members (g, u) = some cached)
include hm

/-- The end of both methods. -/
theorem wp_insert_member {member : CachedMember} {Q : State → Prop} {E : State → Prop} :
    (do let _ ← self.guildMembers.insert g u
        let _ ← self.members.insert (g, u) member
        pure () : CacheM Unit).wp eval (fun _ => Q) E s ↔
      Q ((s.sadd .guildMembers g u).hset .members (g, u) member) := by
  have hinsert := self.guildMembers.exec_insert g hm u s
  rw [Prog.wp_bind, Prog.wp_of_exec hinsert, Prog.wp_bind]
  exact Repository.wp_insert_new (h := .members) hm _ _

include hcached

theorem leavesMember_cacheBorrowedPartialMember {member : PartialMember} {left : CachedMember} :
    LeavesMember (self.cacheBorrowedPartialMember g member u) s (g, u) left ↔
      (if cached.eqPartialMember member then cached else .fromPartialMember u member) = left := by
  unfold LeavesMember cacheBorrowedPartialMember
  rw [Prog.wp_bind]
  refine (Repository.wp_get_new (h := .members) (g, u)).trans ?_
  rw [hcached, Option.any_some, wp_onlyIf]
  cases cached.eqPartialMember member with
  | true => simpa using by rw [hcached, Option.some.injEq]
  | false =>
    refine (wp_insert_member hm).trans ?_
    simp

theorem leavesMember_cacheBorrowedInteractionMember {member : InteractionMember} {left : CachedMember} :
    LeavesMember (self.cacheBorrowedInteractionMember g member u) s (g, u) left ↔
      (if cached.eqInteractionMember member then cached
        else .fromComputedInteractionMember ⟨cached.avatar, cached.deaf, member, cached.mute, u⟩) = left := by
  unfold LeavesMember cacheBorrowedInteractionMember
  rw [Prog.wp_bind]
  refine (Repository.wp_get_new (h := .members) (g, u)).trans ?_
  rw [hcached, Option.any_some, wp_onlyIf]
  cases cached.eqInteractionMember member with
  | true => simpa using by rw [hcached, Option.some.injEq]
  | false =>
    refine (wp_insert_member hm).trans ?_
    simp

end Runs

/-- When each of the four updates leaves what it should. -/
theorem partial_updates_iff {self : Cache} (hm : self.config.wants .member = true) {s : State}
    {g : Id .guild} {u : Id .user} {cached : CachedMember}
    (hcached : s.hashes .members (g, u) = some cached) :
    (∀ update : MemberUpdate, cached.updateWithMemberUpdate update = cached.carryMemberUpdate update ↔
      cached.AgreesUnassigned update) ∧
    (∀ (guild : CachedGuild) (update : GuildUpdate),
      guild.updateWithGuildUpdate update = guild.carryGuildUpdate update ↔ guild.AgreesUnassigned update) ∧
    (∀ member : PartialMember,
      LeavesMember (self.cacheBorrowedPartialMember g member u) s (g, u) (cached.carryPartialMember member) ↔
        if cached.eqPartialMember member then cached.AgreesUncompared member
        else cached.pending = false ∧ (member.user = none → cached.userId = u)) ∧
    (∀ member : InteractionMember,
      LeavesMember (self.cacheBorrowedInteractionMember g member u) s (g, u)
          (cached.carryInteractionMember member) ↔
        if cached.eqInteractionMember member then cached.AgreesUncomparedInteraction member
        else cached.avatar = member.avatar ∧ cached.userId = u) := by
  refine ⟨fun update => updateWithMemberUpdate_eq_carry_iff,
    fun guild update => updateWithGuildUpdate_eq_carry_iff,
    fun member => (leavesMember_cacheBorrowedPartialMember hm hcached).trans ?_,
    fun member => (leavesMember_cacheBorrowedInteractionMember hm hcached).trans ?_⟩
  · split_ifs with heq
    · exact eq_carryPartialMember_iff heq
    · exact fromPartialMember_eq_carry_iff
  · split_ifs with heq
    · exact eq_carryInteractionMember_iff heq
    · exact fromComputedInteractionMember_eq_carry_iff

/-- A member who has not passed the screening of the guild yet. -/
def screenedMember : CachedMember :=
  ⟨none, none, none, none, some false, 0, none, some false, none, true, none, [], ⟨152, by decide⟩⟩

/-- The member gives itself a nick and writes a message. -/
def nickedMember : PartialMember :=
  ⟨none, none, none, none, false, 0, none, false, some "nick", none, none, [], none⟩

/-- The member starts to boost the guild. -/
def boost : MemberUpdate :=
  ⟨none, none, none, none, none, ⟨151, by decide⟩, none, none, none, true, some 153, [], ⟨⟨152, by decide⟩, ""⟩⟩

def screenedState : State := State.empty.hset .members (⟨151, by decide⟩, ⟨152, by decide⟩) screenedMember

/-- A message lets the member pass the screening. -/
theorem partial_updates_iff_of_message :
    ¬ LeavesMember ((new (.all 100)).cacheBorrowedPartialMember ⟨151, by decide⟩ nickedMember ⟨152, by decide⟩)
      screenedState (⟨151, by decide⟩, ⟨152, by decide⟩) (screenedMember.carryPartialMember nickedMember) := by
  have hwants : (new (.all 100)).config.wants .member = true := rfl
  have hcached : screenedState.hashes .members (⟨151, by decide⟩, ⟨152, by decide⟩) = some screenedMember := by
    simp [screenedState]
  rw [(partial_updates_iff hwants hcached).2.2.1, if_neg (by decide)]
  exact fun h => absurd h.1 (by decide)

/-- The update does not assign when the member started to boost. -/
theorem boost_not_copied :
    boost.premiumSince = some 153 ∧ (screenedMember.updateWithMemberUpdate boost).premiumSince = none ∧
      screenedMember.updateWithMemberUpdate boost ≠ screenedMember.carryMemberUpdate boost := by
  refine ⟨rfl, rfl, fun h => ?_⟩
  have hpremium : (none : Option Timestamp) = some 153 := congrArg CachedMember.premiumSince h
  cases hpremium

end Tulpje.Cache
