import Mathlib.Data.Set.Lattice
import Tulpje.Cache.Keyed

/-!
# The cells of an event

`Event.cells` says which fields of hashes and members of sets an update may look at and change, and `Event.looked`
what it only looks at (`issues_update`). Both depend on the event, and on the store where the update goes by what an
index or a channel's list holds.
-/

namespace Tulpje.Cache

open Twilight Lib

/-! ### Programs that stay among some cells -/

/-- Whatever the replies are, the program looks at and changes these cells only. -/
def Stays {α : Type} (cells : Set Cell) (p : CacheM α) : Prop :=
  p.All (fun o => o.touches ⊆ cells) fun _ => True

section Stays
variable {α β : Type} {cells cells' : Set Cell}

theorem stays_send {o : Op} (h : o.touches ⊆ cells) : Stays cells (send o) := Prog.All.send h

namespace Stays

theorem pure (a : α) : Stays cells (Pure.pure a : CacheM α) := Prog.All.pure a

theorem bind {p : CacheM α} {f : α → CacheM β} (hp : Stays cells p) (hf : ∀ a, Stays cells (f a)) :
    Stays cells (p >>= f) := Prog.All.bind hp hf

theorem mono {p : CacheM α} (hp : Stays cells p) (h : cells ⊆ cells') : Stays cells' p :=
  Prog.All.imp hp fun _ ho => ho.trans h

/-- One program and then another. -/
theorem seq {p : CacheM α} {q : α → CacheM β} (hp : Stays cells p) (hq : ∀ a, Stays cells' (q a)) :
    Stays (cells ∪ cells') (p >>= q) :=
  (hp.mono Set.subset_union_left).bind fun a => (hq a).mono Set.subset_union_right

theorem forM {xs : List α} {p : α → CacheM PUnit} {cells : α → Set Cell} (hp : ∀ x ∈ xs, Stays (cells x) (p x)) :
    Stays (⋃ x ∈ xs, cells x) (xs.forM p) :=
  Prog.All.forM fun x hx => (hp x hx).mono (Set.subset_iUnion₂_of_subset x hx subset_rfl)

theorem ifSome {o : Option α} {p : α → CacheM PUnit} (hp : ∀ x ∈ o, Stays cells (p x)) : Stays cells (o.forM p) := by
  cases o with
  | none => exact pure _
  | some a => exact hp a rfl

theorem forM_option {o : Option α} {p : α → CacheM PUnit} {cells : α → Set Cell} (hp : ∀ x ∈ o, Stays (cells x) (p x)) :
    Stays (⋃ x ∈ o, cells x) (o.forM p) :=
  ifSome fun x hx => (hp x hx).mono (Set.subset_iUnion₂_of_subset x hx subset_rfl)

theorem onlyIf {cond : Bool} {p : CacheM Unit} (hp : Stays cells p) : Stays cells (onlyIf cond p) := by
  cases cond
  · exact pure _
  · exact hp

/-- The commands of a run. -/
theorem issues {p : CacheM α} (hp : Stays cells p) (s : State) : p.Issues eval (fun o => o.touches ⊆ cells) s :=
  Prog.Issues.of_all hp s

end Stays

/-! Removing several fields or members touches these and no others. -/

theorem touches_hdel_subset {h : HashName} {fields : Finset h.Field} :
    (Op.hdel h fields).touches ⊆ cells ↔ ∀ field ∈ fields, .field h field ∈ cells := by
  constructor
  · exact fun hsub field hfield => hsub ⟨field, hfield, rfl⟩
  · rintro hfields _ ⟨field, hfield, rfl⟩
    exact hfields field hfield

theorem touches_srem_subset {n : SetName} {key : n.Key} {values : Finset n.Elem} :
    (Op.srem n key values).touches ⊆ cells ↔ ∀ value ∈ values, .member n key value ∈ cells := by
  constructor
  · exact fun hsub value hvalue => hsub ⟨value, hvalue, rfl⟩
  · rintro hvalues _ ⟨value, hvalue, rfl⟩
    exact hvalues value hvalue

theorem members_subset {n : SetName} {key : n.Key} (h : ∀ value, .member n key value ∈ cells) :
    {c | ∃ value, c = Cell.member n key value} ⊆ cells := by
  rintro _ ⟨value, rfl⟩
  exact h value

namespace Repository
variable {hash : HashName} {K V : Type} {self : Repository hash K V} {key : K}

theorem stays_get (h : .field hash (self.field key) ∈ cells) : Stays cells (self.get key) :=
  all_get (Set.singleton_subset_iff.mpr h) (.inr trivial)

theorem stays_insert (h : .field hash (self.field key) ∈ cells) (value : V) : Stays cells (self.insert key value) :=
  all_insert (Set.singleton_subset_iff.mpr h)

theorem stays_remove (h : .field hash (self.field key) ∈ cells) : Stays cells (self.remove key) :=
  all_remove (touches_hdel_subset.mpr fun _ hfield => Finset.mem_singleton.mp hfield ▸ h)

theorem stays_removeMulti {keys : Finset K} (h : ∀ key ∈ keys, .field hash (self.field key) ∈ cells) :
    Stays cells (self.removeMulti keys) :=
  all_removeMulti (touches_hdel_subset.mpr (Finset.forall_mem_image.mpr h))

end Repository

namespace SetRepository
variable {n : SetName} {self : SetRepository n} {value : n.Elem}

theorem stays_members (h : ∀ value, .member n self.key value ∈ cells) : Stays cells self.members :=
  all_members (members_subset h)

theorem stays_isEmpty (h : ∀ value, .member n self.key value ∈ cells) : Stays cells self.isEmpty :=
  all_isEmpty (members_subset h)

theorem stays_clear (h : ∀ value, .member n self.key value ∈ cells) : Stays cells self.clear :=
  all_clear (members_subset h)

theorem stays_insert (h : .member n self.key value ∈ cells) : Stays cells (self.insert value) :=
  all_insert (Set.singleton_subset_iff.mpr h)

theorem stays_remove (h : .member n self.key value ∈ cells) : Stays cells (self.remove value) :=
  all_remove (touches_srem_subset.mpr fun _ hvalue => Finset.mem_singleton.mp hvalue ▸ h)

theorem stays_removeMulti {values : Finset n.Elem} (h : ∀ value ∈ values, .member n self.key value ∈ cells) :
    Stays cells (self.removeMulti values) := all_removeMulti (touches_srem_subset.mpr h)

end SetRepository

end Stays

/-! ### The cells of the methods -/

/-- An entry, and its place in an index. -/
def familyCells (h : HashName) (field : h.Field) (n : SetName) (key : n.Key) (elem : n.Elem) : Set Cell :=
  {.field h field, .member n key elem}

/-- All places of an index, and the entries it lists. -/
def indexCells (s : State) (n : SetName) (key : n.Key) (h : HashName) (field : n.Elem → h.Field) : Set Cell :=
  {c | (∃ elem, c = .member n key elem) ∨ ∃ elem ∈ s.sets n key, c = .field h (field elem)}

def channelCells (channel : Channel) : Set Cell :=
  {.field .channels channel.id} ∪ ⋃ guildId ∈ channel.guildId, {.member .guildChannels guildId channel.id}

/-- The guild of a channel to delete is in its record. -/
def deletedChannelCells (channelId : Id .channel) : Set Cell :=
  {.field .channels channelId} ∪ {c | ∃ guildId, c = .member .guildChannels guildId channelId}

def memberCells (guildId : Id .guild) (userId : Id .user) : Set Cell :=
  familyCells .members (guildId, userId) .guildMembers guildId userId

def roleCells (guildId : Id .guild) (roleId : Id .role) : Set Cell :=
  familyCells .roles roleId .guildRoles guildId roleId

def stageInstanceCells (guildId : Id .guild) (stageId : Id .stage) : Set Cell :=
  familyCells .stageInstances stageId .guildStageInstances guildId stageId

def scheduledEventCells (guildId : Id .guild) (event : GuildScheduledEvent) : Set Cell :=
  familyCells .scheduledEvents event.id .guildScheduledEvents guildId event.id

def integrationCells (guildId : Id .guild) (integrationId : Id .integration) : Set Cell :=
  familyCells .integrations (guildId, integrationId) .guildIntegrations guildId integrationId

def presenceCells (guildId : Id .guild) (presence : Presence) : Set Cell :=
  familyCells .presences (guildId, presence.user.id) .guildPresences guildId presence.user.id

/-- The channel that a user was in before is in the record. -/
def voiceStateCells (voiceState : VoiceState) : Set Cell :=
  ⋃ guildId ∈ voiceState.guildId,
    familyCells .voiceStates (guildId, voiceState.userId) .voiceStateGuilds guildId voiceState.userId ∪
      {c | ∃ channelId, c = .member .voiceStateChannels channelId (guildId, voiceState.userId)}

/-- A message, the list of its channel, and the messages on this list, of which the oldest may have to go. -/
def messageCells (s : State) (message : Message) : Set Cell :=
  {.field .messages message.id, .field .channelMessages message.channelId} ∪
    {c | ∃ id ∈ s.channelMessages message.channelId, c = .field .messages id}

def deletedGuildCells (s : State) (guildId : Id .guild) : Set Cell :=
  {.field .guilds guildId} ∪
    indexCells s .guildChannels guildId .channels id ∪
    indexCells s .guildEmojis guildId .emojis (·.get) ∪
    indexCells s .guildRoles guildId .roles id ∪
    indexCells s .guildStickers guildId .stickers id ∪
    {c | ∃ userId, c = .member .voiceStateGuilds guildId userId} ∪
    indexCells s .guildMembers guildId .members (guildId, ·) ∪
    indexCells s .guildPresences guildId .presences (guildId, ·)

def unavailableGuildCells (s : State) (guildId : Id .guild) : Set Cell :=
  {.member .unavailableGuilds () guildId} ∪ deletedGuildCells s guildId

section Users
variable (self : Cache)

def userCells (userId : Id .user) (guildId : Option (Id .guild)) : Set Cell :=
  {.field self.usersName.hash (self.users.field userId)} ∪ ⋃ g ∈ guildId, {.member .userGuilds userId g}

def cachedMemberCells (guildId : Id .guild) (userId : Id .user) : Set Cell :=
  memberCells guildId userId ∪ self.userCells userId (some guildId)

/-- Whether the user is in another guild is looked up. -/
def forgottenMemberCells (guildId : Id .guild) (userId : Id .user) : Set Cell :=
  memberCells guildId userId ∪ self.userCells userId none ∪ {c | ∃ guildId, c = .member .userGuilds userId guildId}

def emojiCells (guildId : Id .guild) (emoji : Emoji) : Set Cell :=
  familyCells .emojis emoji.id.get .guildEmojis guildId emoji.id ∪
    ⋃ user ∈ emoji.user, self.userCells user.id (some guildId)

def stickerCells (guildId : Id .guild) (sticker : Sticker) : Set Cell :=
  familyCells .stickers sticker.id .guildStickers guildId sticker.id ∪
    ⋃ user ∈ sticker.user, self.userCells user.id (some guildId)

def authorCells (message : Message) : Set Cell :=
  self.userCells message.author.id message.guildId ∪
    ⋃ guildId ∈ message.guildId, memberCells guildId message.author.id

def resolvedCells (guildId : Option (Id .guild)) (resolved : InteractionDataResolved) : Set Cell :=
  (⋃ user ∈ resolved.users, self.userCells user.2.id guildId ∪ ⋃ g ∈ guildId, memberCells g user.2.id) ∪
    ⋃ g ∈ guildId, ⋃ role ∈ resolved.roles.map (·.2), roleCells g role.id

def interactionCells (interaction : Interaction) : Set Cell :=
  (⋃ member ∈ interaction.member, ⋃ guildId ∈ interaction.guildId, ⋃ user ∈ member.user,
      self.cachedMemberCells guildId user.id) ∪
    (⋃ user ∈ interaction.user, self.userCells user.id none) ∪
    match interaction.data with
    | some (.applicationCommand data) =>
      ⋃ resolved ∈ data.resolved, self.resolvedCells interaction.guildId resolved
    | _ => ∅

def GuildStep.cells (s : State) (guild : Guild) : GuildStep → Set Cell
  | clearChannels => {c | ∃ elem, c = .member .guildChannels guild.id elem}
  | channels =>
    ⋃ channel ∈ guild.channels.map fun channel => { channel with guildId := some guild.id }, channelCells channel
  | threads =>
    ⋃ thread ∈ guild.threads.map fun thread => { thread with guildId := some guild.id }, channelCells thread
  | staleEmojis => indexCells s .guildEmojis guild.id .emojis (·.get)
  | emojis => ⋃ emoji ∈ guild.emojis, self.emojiCells guild.id emoji
  | members => ⋃ member ∈ guild.members, self.cachedMemberCells guild.id member.user.id
  | presences => ⋃ presence ∈ guild.presences, presenceCells guild.id presence
  | roles => ⋃ role ∈ guild.roles, roleCells guild.id role.id
  | staleStickers => indexCells s .guildStickers guild.id .stickers id
  | stickers => ⋃ sticker ∈ guild.stickers, self.stickerCells guild.id sticker
  | voiceStates => ⋃ voiceState ∈ guild.voiceStates, voiceStateCells voiceState
  | stageInstances => ⋃ stageInstance ∈ guild.stageInstances, stageInstanceCells guild.id stageInstance.id
  | scheduledEvents => ⋃ event ∈ guild.guildScheduledEvents, scheduledEventCells guild.id event
  | available => {.member .unavailableGuilds () guild.id}
  | record => {.field .guilds guild.id}

/-- What an update with the event may look at and change, from a state. -/
def Event.cells (s : State) : Event → Set Cell
  | .channelCreate channel | .channelUpdate channel | .threadCreate channel | .threadUpdate channel =>
    channelCells channel
  | .channelDelete channel => deletedChannelCells channel.id
  | .threadDelete id => deletedChannelCells id
  | .threadListSync threads => ⋃ thread ∈ threads, channelCells thread
  | .channelPinsUpdate channelId _ => {.field .channels channelId}
  | .guildCreate (.available guild) => ⋃ step, GuildStep.cells self s guild step
  | .guildCreate (.unavailable guild) | .unavailableGuild guild => unavailableGuildCells s guild.id
  | .guildDelete guild => deletedGuildCells s guild.id
  | .guildEmojisUpdate guildId emojis =>
    indexCells s .guildEmojis guildId .emojis (·.get) ∪ ⋃ emoji ∈ emojis, self.emojiCells guildId emoji
  | .guildStickersUpdate guildId stickers =>
    indexCells s .guildStickers guildId .stickers id ∪ ⋃ sticker ∈ stickers, self.stickerCells guildId sticker
  | .guildUpdate guild => {.field .guilds guild.id}
  | .guildScheduledEventCreate event | .guildScheduledEventUpdate event | .guildScheduledEventDelete event =>
    scheduledEventCells event.guildId event
  | .guildScheduledEventUserAdd id | .guildScheduledEventUserRemove id => {.field .scheduledEvents id}
  | .integrationCreate integration | .integrationUpdate integration =>
    ⋃ guildId ∈ integration.guildId, integrationCells guildId integration.id
  | .integrationDelete guildId id => integrationCells guildId id
  | .interactionCreate interaction => self.interactionCells interaction
  | .memberAdd guildId member => {.field .guilds guildId} ∪ self.cachedMemberCells guildId member.user.id
  | .memberRemove guildId user => {.field .guilds guildId} ∪ self.forgottenMemberCells guildId user.id
  | .memberUpdate update => self.cachedMemberCells update.guildId update.user.id
  | .memberChunk guildId members => ⋃ member ∈ members, self.cachedMemberCells guildId member.user.id
  | .messageCreate message | .messageUpdate message => self.authorCells message ∪ messageCells s message
  | .messageDelete channelId id => {.field .messages id, .field .channelMessages channelId}
  | .messageDeleteBulk channelId ids =>
    {.field .channelMessages channelId} ∪ ⋃ id ∈ ids, {.field .messages id}
  | .presenceUpdate presence => presenceCells presence.guildId presence
  | .reactionAdd reaction | .reactionRemove reaction => {.field .messages reaction.messageId}
  | .reactionRemoveAll messageId | .reactionRemoveEmoji messageId _ => {.field .messages messageId}
  | .ready ready => {.currentUser} ∪ ⋃ guild ∈ ready.guilds, unavailableGuildCells s guild.id
  | .roleCreate guildId role | .roleUpdate guildId role => roleCells guildId role.id
  | .roleDelete guildId roleId => roleCells guildId roleId
  | .stageInstanceCreate stageInstance | .stageInstanceUpdate stageInstance | .stageInstanceDelete stageInstance =>
    stageInstanceCells stageInstance.guildId stageInstance.id
  | .userUpdate _ => {.currentUser}
  | .voiceStateUpdate voiceState =>
    voiceStateCells voiceState ∪ ⋃ guildId ∈ voiceState.guildId, ⋃ member ∈ voiceState.member,
      self.cachedMemberCells guildId member.user.id
  | .ignored => ∅

/-- Whose reaction it is. -/
def Event.looked : Event → Set Cell
  | .reactionAdd _ | .reactionRemove _ => {.currentUser}
  | _ => ∅

end Users

/-! ### The methods stay among their cells -/

section Methods
variable {self : Cache}

section Family
variable {cells : Set Cell} {h : HashName} {n : SetName} {K V : Type} {repository : Repository h K V}
  {index : MappedSetRepository n} {key : n.Key} {elem : n.Elem} {id : K}
  (hentry : .field h (repository.field id) ∈ cells) (hplace : .member n key elem ∈ cells)
include hentry hplace

theorem stays_listAndStore {value : V} : Stays cells (do
    let _ ← index.insert key elem
    let _ ← repository.insert id value
    pure ()) :=
  (SetRepository.stays_insert hplace).bind fun _ =>
    (Repository.stays_insert hentry _).bind fun _ => Stays.pure _

theorem stays_removeAndUnlist : Stays cells (do
    let _ ← repository.remove id
    let _ ← index.remove key elem
    pure ()) :=
  (Repository.stays_remove hentry).bind fun _ =>
    (SetRepository.stays_remove hplace).bind fun _ => Stays.pure _

end Family

theorem stays_cacheUser (user : CachedUser) (guildId : Option (Id .guild)) :
    Stays (self.userCells user.id guildId) (self.cacheUser user guildId) := by
  refine (Repository.stays_get (.inl rfl)).bind fun _ => (Stays.onlyIf ?_).bind fun _ => ?_
  · exact (Repository.stays_insert (.inl rfl) _).bind fun _ => Stays.pure _
  · refine (Stays.forM_option fun g _ => ?_).mono Set.subset_union_right
    exact Stays.bind (SetRepository.stays_insert rfl) fun _ => Stays.pure _

theorem stays_cacheChannel (channel : Channel) : Stays (channelCells channel) (self.cacheChannel channel) := by
  rw [channelCells, Set.union_comm]
  refine (Stays.forM_option fun g _ => ?_).seq fun _ => ?_
  · exact Stays.bind (SetRepository.stays_insert rfl) fun _ => Stays.pure _
  · refine Stays.bind (Repository.stays_insert ?_ _) fun _ => Stays.pure _
    rfl

theorem stays_cacheEmoji (guildId : Id .guild) (emoji : Emoji) :
    Stays (self.emojiCells guildId emoji) (self.cacheEmoji guildId emoji) := by
  rw [emojiCells, Set.union_comm]
  refine (Stays.forM_option fun user _ => stays_cacheUser user _).seq fun _ => ?_
  refine (Repository.stays_get (.inl rfl)).bind fun _ => Stays.onlyIf ?_
  exact (Repository.stays_insert (.inl rfl) _).bind fun _ =>
    (SetRepository.stays_insert (.inr rfl)).bind fun _ => Stays.pure _

theorem stays_cacheSticker (guildId : Id .guild) (sticker : Sticker) :
    Stays (self.stickerCells guildId sticker) (self.cacheSticker guildId sticker) := by
  refine (Repository.stays_get (.inl (.inl rfl))).bind fun _ => Stays.onlyIf ?_
  refine Stays.bind ((Stays.forM_option fun user _ => stays_cacheUser user _).mono Set.subset_union_right) fun _ => ?_
  exact (SetRepository.stays_insert (.inl (.inr rfl))).bind fun _ =>
    (Repository.stays_insert (.inl (.inl rfl)) _).bind fun _ => Stays.pure _

theorem stays_cacheMember (guildId : Id .guild) (member : Member) :
    Stays (self.cachedMemberCells guildId member.user.id) (self.cacheMember guildId member) := by
  refine (Repository.stays_get (.inl (.inl rfl))).bind fun _ => Stays.onlyIf ?_
  refine ((stays_cacheUser member.user _).mono Set.subset_union_right).bind fun _ => ?_
  exact (Repository.stays_insert (.inl (.inl rfl)) _).bind fun _ =>
    (SetRepository.stays_insert (.inl (.inr rfl))).bind fun _ => Stays.pure _

theorem stays_cacheBorrowedPartialMember (guildId : Id .guild) (member : PartialMember) (userId : Id .user) :
    Stays (memberCells guildId userId) (self.cacheBorrowedPartialMember guildId member userId) := by
  refine (Repository.stays_get (.inl rfl)).bind fun _ => Stays.onlyIf ?_
  exact (SetRepository.stays_insert (.inr rfl)).bind fun _ =>
    (Repository.stays_insert (.inl rfl) _).bind fun _ => Stays.pure _

theorem stays_cacheBorrowedInteractionMember (guildId : Id .guild) (member : InteractionMember) (userId : Id .user) :
    Stays (memberCells guildId userId) (self.cacheBorrowedInteractionMember guildId member userId) := by
  refine (Repository.stays_get (.inl rfl)).bind fun _ => Stays.onlyIf ?_
  exact (SetRepository.stays_insert (.inr rfl)).bind fun _ =>
    (Repository.stays_insert (.inl rfl) _).bind fun _ => Stays.pure _

theorem stays_cacheVoiceState (voiceState : VoiceState) :
    Stays (voiceStateCells voiceState) (self.cacheVoiceState voiceState) := by
  refine Stays.forM_option fun guildId _ => ?_
  refine (Repository.stays_get (.inl (.inl rfl))).bind fun _ => Stays.bind ?_ fun _ => ?_
  · exact Stays.ifSome fun previous _ =>
      (SetRepository.stays_remove (.inr ⟨previous.channelId, rfl⟩)).bind fun _ => Stays.pure _
  · cases voiceState.channelId with
    | some channelId =>
      refine (Repository.stays_insert (.inl (.inl rfl)) _).bind fun _ => ?_
      refine (SetRepository.stays_insert (.inl (.inr rfl))).bind fun _ => ?_
      exact (SetRepository.stays_insert (.inr ⟨channelId, rfl⟩)).bind fun _ => Stays.pure _
    | none =>
      refine (SetRepository.stays_remove (.inl (.inr rfl))).bind fun _ => ?_
      exact (Repository.stays_remove (.inl (.inl rfl))).bind fun _ => Stays.pure _

theorem stays_forgetMember (guildId : Id .guild) (userId : Id .user) :
    Stays (self.forgottenMemberCells guildId userId) (self.forgetMember guildId userId) := by
  refine (Repository.stays_remove (.inl (.inl (.inl rfl)))).bind fun _ => ?_
  refine (SetRepository.stays_remove (.inl (.inl (.inr rfl)))).bind fun _ => ?_
  refine (SetRepository.stays_remove (.inr ⟨guildId, rfl⟩)).bind fun _ => ?_
  refine (SetRepository.stays_isEmpty fun g => .inr ⟨g, rfl⟩).bind fun _ => Stays.onlyIf ?_
  exact (Repository.stays_remove (.inl (.inr (.inl rfl)))).bind fun _ => Stays.pure _

theorem stays_memberUpdate (update : MemberUpdate) :
    Stays (self.cachedMemberCells update.guildId update.user.id) (self.memberUpdate update) := by
  refine (Repository.stays_get (.inl (.inl rfl))).bind fun _ => Stays.ifSome fun _ _ => ?_
  refine (Repository.stays_insert (.inl (.inl rfl)) _).bind fun _ => ?_
  exact (stays_cacheUser update.user _).mono Set.subset_union_right

theorem stays_cacheAuthor (message : Message) : Stays (self.authorCells message) (self.cacheAuthor message) := by
  refine (stays_cacheUser message.author _).seq fun _ => ?_
  cases message.member with
  | none => exact Stays.pure _
  | some member => exact Stays.forM_option fun g _ => stays_cacheBorrowedPartialMember g member _

theorem stays_resolved (guildId : Option (Id .guild)) (resolved : InteractionDataResolved) :
    Stays (self.resolvedCells guildId resolved) (do
      resolved.users.forM fun (_, user) => do
        self.cacheUser user guildId
        guildId.forM fun guildId => (resolved.members.lookup user.id).forM fun member =>
          self.cacheBorrowedInteractionMember guildId member user.id
      guildId.forM fun guildId => self.cacheRoles guildId (resolved.roles.map (·.2))) := by
  refine Stays.seq ?_ fun _ => Stays.forM_option fun g _ => ?_
  · refine Stays.forM fun user _ => (stays_cacheUser user.2 _).seq fun _ => Stays.forM_option fun g _ => ?_
    exact Stays.ifSome fun member _ => stays_cacheBorrowedInteractionMember g member user.2.id
  · exact Stays.forM fun role _ => stays_listAndStore (.inl rfl) (.inr rfl)

theorem stays_interactionCreate (interaction : Interaction) :
    Stays (self.interactionCells interaction) (self.interactionCreate interaction) := by
  unfold interactionCells
  rw [Set.union_assoc]
  refine Stays.seq ?_ fun _ => Stays.seq ?_ fun _ => ?_
  · refine Stays.forM_option fun member _ => Stays.forM_option fun g hg => Stays.forM_option fun user _ => ?_
    rw [show interaction.guildId = some g from hg, cachedMemberCells, Set.union_comm]
    exact (stays_cacheUser user _).seq fun _ => stays_cacheBorrowedPartialMember g member user.id
  · exact Stays.forM_option fun user _ => stays_cacheUser user none
  · rcases interaction.data with _ | data | _ | _
    · exact Stays.pure _
    · exact Stays.forM_option fun resolved _ => stays_resolved interaction.guildId resolved
    · exact Stays.pure _
    · exact Stays.pure _

theorem stays_messageDelete (channelId : Id .channel) (id : Id .message) :
    Stays {.field .messages id, .field .channelMessages channelId} (self.messageDelete channelId id) := by
  refine (Repository.stays_remove (.inl rfl)).bind fun _ => ?_
  refine (Repository.stays_get (.inr rfl)).bind fun _ => Stays.onlyIf ?_
  exact (Repository.stays_insert (.inr rfl) _).bind fun _ => Stays.pure _

theorem stays_messageDeleteBulk (channelId : Id .channel) (ids : List (Id .message)) :
    Stays ({.field .channelMessages channelId} ∪ ⋃ id ∈ ids, {.field .messages id})
      (self.messageDeleteBulk channelId ids) := by
  refine (Repository.stays_get (.inl rfl)).bind fun _ => Stays.bind ?_ fun _ => ?_
  · refine Repository.stays_removeMulti fun id hid => .inr ?_
    exact Set.mem_iUnion₂.mpr ⟨id, List.mem_toFinset.mp hid, rfl⟩
  · exact (Repository.stays_insert (.inl rfl) _).bind fun _ => Stays.pure _

end Methods

/-! ### What depends on the store -/

/-- The command changes these cells only, and looks at no others but some more. -/
def Op.Within (cells looked : Set Cell) (o : Op) : Prop := o.touches ⊆ cells ∪ looked ∧ o.writes ⊆ cells

theorem Op.Within.of_touches {cells looked : Set Cell} {o : Op} (h : o.touches ⊆ cells) : o.Within cells looked :=
  ⟨h.trans Set.subset_union_left, fun _ hc => h hc.2⟩

section Runs
variable {self : Cache} {cells looked : Set Cell} {s t : State}

/-- A record is read, and written back to where it was. -/
theorem issues_modify {h : HashName} {wanted : Bool} {field : h.Field} {field' : h.Entry → h.Field}
    {change : h.Entry → h.Entry} (hcell : .field h field ∈ cells)
    (hfield : ∀ entry, s.hashes h field = some entry → field' entry = field) : Prog.Issues eval (·.touches ⊆ cells) (do
      let entry ← (Repository.new h wanted).get field
      entry.forM fun entry => do
        let _ ← (Repository.new h wanted).insert (field' entry) (change entry)
        pure ()) s := by
  refine ((Repository.stays_get hcell).issues s).bind fun entry t hexec => ?_
  rw [Repository.exec_get_new] at hexec
  cases hexec
  refine Stays.issues (Stays.ifSome fun entry hentry => ?_) s
  refine Stays.bind (Repository.stays_insert ?_ _) fun _ => Stays.pure _
  exact (hfield entry hentry).symm ▸ hcell

/-- One program, and another one that does not depend on the store. -/
theorem issues_seq {α β : Type} {cells' : Set Cell} {p : CacheM α} {q : α → CacheM β}
    (hp : p.Issues eval (·.touches ⊆ cells) s) (hq : ∀ a, Stays cells' (q a)) :
    (p >>= q).Issues eval (·.touches ⊆ cells ∪ cells') s :=
  Prog.Issues.bind (fun o ho => (hp o ho).trans Set.subset_union_left) fun a t _ =>
    ((hq a).mono Set.subset_union_right).issues t

theorem issues_changeMemberCount (hs : s.Keyed) (guildId : Id .guild) (change : UInt64 → UInt64) :
    (self.changeMemberCount guildId change).Issues eval (·.touches ⊆ {.field .guilds guildId}) s :=
  issues_modify rfl (hs.guilds guildId)

theorem issues_deleteChannel (hs : s.Keyed) (channelId : Id .channel) :
    (self.deleteChannel channelId).Issues eval (·.touches ⊆ deletedChannelCells channelId) s := by
  refine ((Repository.stays_get (.inl rfl)).issues s).bind fun channel t hexec => ?_
  have hget : (self.channels.get channelId).exec eval s = (.ok (s.hashes .channels channelId), s) :=
    Repository.exec_get_new ..
  rw [hget] at hexec
  cases hexec
  refine Stays.issues (Stays.bind ?_ fun _ => ?_) s
  · refine Stays.ifSome fun channel hchannel => Stays.ifSome fun g _ => ?_
    have hid : channel.id = channelId := hs.channels channelId channel hchannel
    exact (SetRepository.stays_remove (.inr ⟨g, by rw [hid]; rfl⟩)).bind fun _ => Stays.pure _
  · exact (Repository.stays_remove (.inl rfl)).bind fun _ => Stays.pure _

theorem issues_removeStale {n : SetName} {h : HashName} {V : Type} {repository : Repository h n.Elem V}
    {index : MappedSetRepository n} {key : n.Key} (hkey : t.sets n key ⊆ s.sets n key) (incoming : List n.Elem) :
    (removeStale repository index key incoming).Issues eval (·.touches ⊆ indexCells s n key h repository.field) t := by
  refine ((SetRepository.stays_members fun elem => .inl ⟨elem, rfl⟩).issues t).bind fun ids u hexec => ?_
  rw [SetRepository.exec_members] at hexec
  cases hexec
  refine Stays.issues (Stays.onlyIf ?_) t
  refine (SetRepository.stays_removeMulti fun elem _ => .inl ⟨elem, rfl⟩).bind fun _ => ?_
  refine (Repository.stays_removeMulti fun id hid => ?_).bind fun _ => Stays.pure _
  exact .inr ⟨id, hkey (Finset.mem_filter.mp hid).1, rfl⟩

/-- The list of the channel is as in `s`. -/
theorem issues_pushMessage {message : Message}
    (hlist : t.channelMessages message.channelId = s.channelMessages message.channelId) :
    (self.pushMessage message).Issues eval (·.touches ⊆ messageCells s message) t := by
  refine ((Repository.stays_get (.inl (.inr rfl))).issues t).bind fun list u hexec => ?_
  have hget : (self.channelMessages.get message.channelId).exec eval t =
      (.ok (t.hashes .channelMessages message.channelId), t) := Repository.exec_get_new ..
  rw [hget] at hexec
  cases hexec
  refine Stays.issues (Stays.bind ?_ fun _ => ?_) t
  · refine Stays.ifSome fun id hid => (Repository.stays_remove (.inr ⟨id, ?_, rfl⟩)).bind fun _ => Stays.pure _
    rw [← hlist]
    split_ifs at hid with hfull
    · exact List.mem_of_getLast? hid
    · cases hid
  · exact (Repository.stays_insert (.inl (.inr rfl)) _).bind fun _ => Stays.pure _

/-! ### Deleting guilds -/

/-- No index lists more than in `s`. The set of unavailable guilds is not an index. -/
def Below (s t : State) : Prop := ∀ n, n ≠ .unavailableGuilds → ∀ key, t.sets n key ⊆ s.sets n key

/-- The command puts nothing into an index. -/
def Op.Shrinks (o : Op) : Prop := ∀ n key value, o = .sadd n key value → n = .unavailableGuilds

theorem Below.step (h : Below s t) {o : Op} (ho : o.Shrinks) : Below s (eval o t).2 := by
  intro n hn key
  refine subset_trans ?_ (h n hn key)
  cases o with
  | sadd n' key' value =>
    have hne : n ≠ n' := fun heq => hn (heq.trans (ho n' key' value rfl))
    exact (congrFun (State.sadd_of_ne t key' value hne) key).subset
  | srem n' key' values =>
    by_cases hset : n = n'
    · subst hset
      show (t.srem n key' values).sets n key ⊆ _
      rw [State.srem_self]
      by_cases hkey : key = key'
      · rw [hkey, Function.update_self]
        exact Finset.sdiff_subset
      · rw [Function.update_of_ne hkey]
    · exact (congrFun (State.srem_of_ne t key' values hset) key).subset
  | del n' key' =>
    by_cases hset : n = n'
    · subst hset
      show (t.del n key').sets n key ⊆ _
      rw [State.del_self]
      by_cases hkey : key = key'
      · rw [hkey, Function.update_self]
        exact Finset.empty_subset _
      · rw [Function.update_of_ne hkey]
    · exact (congrFun (State.del_of_ne t key' hset) key).subset
  | _ => exact subset_rfl

theorem Below.exec {α : Type} {p : CacheM α} {E : Error → Prop} (hp : p.All Op.Shrinks E) (h : Below s t) :
    Below s (p.exec eval t).2 := by
  induction p generalizing t with
  | pure a => exact h
  | throw e => exact h
  | call o k ih => exact ih _ (hp.2 _) (h.step hp.1)

/-- From a state whose indexes list no more than those of `s`, to another one. -/
def Shrinks {α : Type} (s : State) (cells : Set Cell) (p : CacheM α) : Prop :=
  ∀ t, Below s t → p.Issues eval (·.touches ⊆ cells) t ∧ Below s (p.exec eval t).2

namespace Shrinks
variable {α β : Type} {cells' : Set Cell}

theorem of_stays {p : CacheM α} (hp : Stays cells p) {E : Error → Prop} (hshrinks : p.All Op.Shrinks E) :
    Shrinks s cells p := fun t ht => ⟨hp.issues t, ht.exec hshrinks⟩

theorem bind {p : CacheM α} {f : α → CacheM β} (hp : Shrinks s cells p) (hf : ∀ a, Shrinks s cells (f a)) :
    Shrinks s cells (p >>= f) := by
  intro t ht
  obtain ⟨hissues, hbelow⟩ := hp t ht
  rw [Prog.exec_bind]
  rcases hexec : p.exec eval t with ⟨e | a, u⟩
  · rw [hexec] at hbelow
    exact ⟨hissues.bind fun a v hv => (by cases hexec.symm.trans hv), hbelow⟩
  · rw [hexec] at hbelow
    obtain ⟨hissues', hbelow'⟩ := hf a u hbelow
    refine ⟨hissues.bind fun b v hv => ?_, hbelow'⟩
    cases hexec.symm.trans hv
    exact hissues'

theorem mono {p : CacheM α} (hp : Shrinks s cells p) (h : cells ⊆ cells') : Shrinks s cells' p :=
  fun t ht => ⟨fun o ho => ((hp t ht).1 o ho).trans h, (hp t ht).2⟩

theorem seq {p : CacheM α} {q : α → CacheM β} (hp : Shrinks s cells p) (hq : ∀ a, Shrinks s cells' (q a)) :
    Shrinks s (cells ∪ cells') (p >>= q) :=
  (hp.mono Set.subset_union_left).bind fun a => (hq a).mono Set.subset_union_right

theorem forM {xs : List α} {p : α → CacheM PUnit} {cells : α → Set Cell} (hp : ∀ x ∈ xs, Shrinks s (cells x) (p x)) :
    Shrinks s (⋃ x ∈ xs, cells x) (xs.forM p) := by
  intro t ht
  have hround : ∀ x ∈ xs, Shrinks s (⋃ x ∈ xs, cells x) (p x) :=
    fun x hx => (hp x hx).mono (Set.subset_iUnion₂_of_subset x hx subset_rfl)
  generalize (⋃ x ∈ xs, cells x) = all at hround
  clear hp
  induction xs generalizing t with
  | nil => exact ⟨(Stays.pure _).issues t, ht⟩
  | cons x xs ih =>
    obtain ⟨hfirst, hrest⟩ := List.forall_mem_cons.mp hround
    exact hfirst.bind (fun _ t ht => ih t ht hrest) t ht

/-- What the index lists in `s` is all that a later run reads there. -/
theorem members {n : SetName} {index : MappedSetRepository n} {key : n.Key} {f : Finset n.Elem → CacheM β}
    (hn : n ≠ .unavailableGuilds) (hcells : ∀ elem, .member n key elem ∈ cells)
    (hf : ∀ ids ⊆ s.sets n key, Shrinks s cells (f ids)) : Shrinks s cells (index.members key >>= f) := by
  intro t ht
  rw [Prog.exec_bind_ok (index.exec_members key t)]
  obtain ⟨hissues, hbelow⟩ := hf _ (ht n hn key) t ht
  refine ⟨((SetRepository.stays_members hcells).issues t).bind fun ids u hexec => ?_, hbelow⟩
  rw [SetRepository.exec_members] at hexec
  cases hexec
  exact hissues

theorem removeMulti {h : HashName} {K V : Type} {repository : Repository h K V} {keys : Finset K}
    (hkeys : ∀ key ∈ keys, .field h (repository.field key) ∈ cells) : Shrinks s cells (repository.removeMulti keys) :=
  of_stays (Repository.stays_removeMulti hkeys) (E := fun _ => True) (Repository.all_removeMulti nofun)

theorem clear {n : SetName} {index : MappedSetRepository n} {key : n.Key}
    (hcells : ∀ elem, .member n key elem ∈ cells) : Shrinks s cells (index.clear key) :=
  of_stays (SetRepository.stays_clear hcells) (E := fun _ => True) (SetRepository.all_clear nofun)

theorem pure (a : α) : Shrinks s cells (Pure.pure a : CacheM α) := fun t ht => ⟨(Stays.pure a).issues t, ht⟩

end Shrinks

theorem shrinks_removeIds {n : SetName} (hn : n ≠ .unavailableGuilds) {h : HashName} {V : Type}
    {guildMap : MappedSetRepository n} {container : Repository h n.Elem V} {key : n.Key} :
    Shrinks s (indexCells s n key h container.field) (removeIds guildMap container key) :=
  Shrinks.members hn (fun elem => .inl ⟨elem, rfl⟩) fun _ hids =>
    (Shrinks.removeMulti fun id hid => .inr ⟨id, hids hid, rfl⟩).bind fun _ => Shrinks.pure _

/-- The same, and the index is cleared. -/
def sweep {n : SetName} {h : HashName} {K V : Type} [DecidableEq K] (index : MappedSetRepository n)
    (repository : Repository h K V) (key : n.Key) (id : n.Elem → K) : CacheM Unit := do
  let ids ← index.members key
  let _ ← repository.removeMulti (ids.image id)
  let _ ← index.clear key
  pure ()

theorem shrinks_sweep {n : SetName} (hn : n ≠ .unavailableGuilds) {h : HashName} {K V : Type} [DecidableEq K]
    {index : MappedSetRepository n} {repository : Repository h K V} {key : n.Key} (id : n.Elem → K) :
    Shrinks s (indexCells s n key h (repository.field ∘ id)) (sweep index repository key id) := by
  refine Shrinks.members hn (fun elem => .inl ⟨elem, rfl⟩) fun ids hids => Shrinks.bind ?_ fun _ => ?_
  · refine Shrinks.removeMulti fun key hkey => ?_
    obtain ⟨elem, helem, rfl⟩ := Finset.mem_image.mp hkey
    exact .inr ⟨elem, hids helem, rfl⟩
  · exact (Shrinks.clear fun elem => .inl ⟨elem, rfl⟩).bind fun _ => Shrinks.pure _

/-- A program that stays away from the indexes. -/
theorem Shrinks.of_touches {α : Type} {p : CacheM α} {areas : List Area} {fails : Prop}
    (hp : Touches areas fails p) (hareas : ∀ n, .set n ∈ areas → n = .unavailableGuilds) (hstays : Stays cells p) :
    Shrinks s cells p := by
  refine of_stays hstays (E := fun _ => fails) (Prog.All.imp hp ?_)
  rintro _ ho n key value rfl
  exact hareas n ho

theorem stays_deleteGuildRecord (guildId : Id .guild) (unavailable : Bool) :
    Stays {.field .guilds guildId} (self.deleteGuildRecord guildId unavailable) := by
  cases unavailable with
  | false => exact Stays.bind (Repository.stays_remove rfl) fun _ => Stays.pure _
  | true =>
    refine Stays.bind (Repository.stays_get rfl) fun _ => Stays.ifSome fun _ _ => ?_
    refine Stays.bind (Repository.stays_insert ?_ _) fun _ => Stays.pure _
    rfl

theorem deleteGuildContents_eq (guildId : Id .guild) : self.deleteGuildContents guildId = (do
    removeIds self.guildChannels self.channels guildId
    removeIds self.guildEmojis self.emojis guildId
    removeIds self.guildRoles self.roles guildId
    removeIds self.guildStickers self.stickers guildId
    let _ ← self.voiceStateGuilds.clear guildId
    sweep self.guildMembers self.members guildId (guildId, ·)
    sweep self.guildPresences self.presences guildId (guildId, ·)) := by
  simp only [deleteGuildContents, sweep, bind_assoc, pure_bind]

theorem shrinks_deleteGuild (guildId : Id .guild) (unavailable : Bool) :
    Shrinks s (deletedGuildCells s guildId) (self.deleteGuild guildId unavailable) := by
  rw [deleteGuild_eq, deleteGuildContents_eq]
  simp only [deletedGuildCells, Set.union_assoc]
  refine Shrinks.seq ?_ fun _ => (shrinks_removeIds (by decide)).seq fun _ =>
    (shrinks_removeIds (by decide)).seq fun _ => (shrinks_removeIds (by decide)).seq fun _ =>
    (shrinks_removeIds (by decide)).seq fun _ => Shrinks.seq ?_ fun _ =>
    (shrinks_sweep (by decide) _).seq fun _ => shrinks_sweep (by decide) _
  · exact @Shrinks.of_touches _ _ _ _ _ False (touches_deleteGuildRecord guildId unavailable) (by simp)
      (stays_deleteGuildRecord guildId unavailable)
  · exact Shrinks.clear fun elem => ⟨elem, rfl⟩

theorem shrinks_unavailableGuild (guildId : Id .guild) :
    Shrinks s (unavailableGuildCells s guildId) (self.unavailableGuild guildId) := by
  refine Shrinks.seq ?_ fun _ => shrinks_deleteGuild guildId true
  exact .of_stays (SetRepository.stays_insert rfl) (E := fun _ => True) (SetRepository.all_insert fun _ _ _ h => by
    cases h
    rfl)

theorem shrinks_ready (ready : Ready) : Shrinks s ({.currentUser} ∪ ⋃ guild ∈ ready.guilds,
    unavailableGuildCells s guild.id) (self.ready ready) := by
  refine Shrinks.seq ?_ fun _ => Shrinks.forM fun guild _ => shrinks_unavailableGuild guild.id
  exact .of_stays (all_ifWanted (stays_send subset_rfl)) (E := fun _ => True) (all_ifWanted (Prog.All.send nofun))

theorem Shrinks.issues {α : Type} {p : CacheM α} (hp : Shrinks s cells p) :
    p.Issues eval (·.touches ⊆ cells) s :=
  (hp s fun _ _ _ => subset_rfl).1

/-! ### A guild that is available -/

/-- The index that a step goes by. -/
def GuildStep.reads : GuildStep → List SetName
  | staleEmojis => [.guildEmojis]
  | staleStickers => [.guildStickers]
  | _ => []

theorem GuildStep.issues {guild : Guild} (step : GuildStep) (h : ∀ n ∈ step.reads, t.sets n = s.sets n) :
    (step.prog self guild).Issues eval (·.touches ⊆ step.cells self s guild) t := by
  cases step with
  | clearChannels =>
    refine Stays.issues (Stays.bind (SetRepository.stays_clear fun elem => ?_) fun _ => Stays.pure _) t
    exact ⟨elem, rfl⟩
  | channels | threads => exact (Stays.forM fun channel _ => stays_cacheChannel channel).issues t
  | staleEmojis => exact issues_removeStale (congrFun (h _ List.mem_cons_self) guild.id).subset _
  | emojis => exact (Stays.forM fun emoji _ => stays_cacheEmoji guild.id emoji).issues t
  | members => exact (Stays.forM fun member _ => stays_cacheMember guild.id member).issues t
  | presences => exact (Stays.forM fun presence _ => stays_listAndStore (.inl rfl) (.inr rfl)).issues t
  | roles => exact (Stays.forM fun role _ => stays_listAndStore (.inl rfl) (.inr rfl)).issues t
  | staleStickers => exact issues_removeStale (congrFun (h _ List.mem_cons_self) guild.id).subset _
  | stickers => exact (Stays.forM fun sticker _ => stays_cacheSticker guild.id sticker).issues t
  | voiceStates => exact (Stays.forM fun voiceState _ => stays_cacheVoiceState voiceState).issues t
  | stageInstances => exact (Stays.forM fun stageInstance _ => stays_listAndStore (.inl rfl) (.inr rfl)).issues t
  | scheduledEvents => exact (Stays.forM fun event _ => stays_listAndStore (.inl rfl) (.inr rfl)).issues t
  | available =>
    refine Stays.issues (Stays.bind (SetRepository.stays_remove ?_) fun _ => Stays.pure _) t
    rfl
  | record =>
    refine Stays.issues (Stays.bind (Repository.stays_insert ?_ _) fun _ => Stays.pure _) t
    rfl

theorem issues_steps {guild : Guild} {steps : List GuildStep}
    (hsteps : steps.Pairwise fun a b => ∀ n ∈ b.reads, .set n ∉ a.areas)
    (h : ∀ step ∈ steps, ∀ n ∈ step.reads, t.sets n = s.sets n) :
    (steps.forM (GuildStep.prog self guild)).Issues eval (·.touches ⊆ ⋃ step, GuildStep.cells self s guild step) t := by
  induction steps generalizing t with
  | nil => exact (Stays.pure _).issues t
  | cons step steps ih =>
    obtain ⟨hhead, htail⟩ := List.pairwise_cons.mp hsteps
    obtain ⟨hstep, hsteps⟩ := List.forall_mem_cons.mp h
    refine Prog.Issues.bind (fun o ho => (step.issues hstep o ho).trans (Set.subset_iUnion _ step)) fun a u hexec => ?_
    refine ih htail fun later hlater n hn => ?_
    -- an index is as it was for the step that goes by it
    have htouches : Touches step.areas step.CanFail (step.prog self guild) := step.touches
    have hkept := htouches.sets (hhead later hlater n hn) t
    rw [hexec] at hkept
    exact hkept.trans (hsteps later hlater n hn)

theorem issues_cacheGuild (guild : Guild) :
    (self.cacheGuild guild).Issues eval (·.touches ⊆ ⋃ step, GuildStep.cells self s guild step) s := by
  have hsteps : self.cacheGuild guild = (GuildStep.opening ++ GuildStep.rest).forM (GuildStep.prog self guild) := by
    rw [cacheGuild_eq_steps]
    exact (List.forM_append ..).symm
  rw [hsteps]
  exact issues_steps (by decide) fun _ _ _ _ => rfl

/-! ### Messages and reactions -/

/-- The list of a channel is as it was before the author was cached. -/
theorem channelMessages_cacheAuthor {message : Message} {result : Except Error Unit}
    (hexec : (self.cacheAuthor message).exec eval s = (result, t)) : t.channelMessages = s.channelMessages := by
  have hpart : ((self.cacheAuthor message).exec eval s).2.part (.hash .channelMessages) =
      s.part (.hash .channelMessages) := exec_cacheAuthor_part message s (by decide)
  rw [hexec] at hpart
  have hhash : t.hashes .channelMessages = s.hashes .channelMessages := hpart
  funext channelId
  rw [State.channelMessages, State.channelMessages, hhash]

theorem issues_messageCreate (message : Message) :
    (self.messageCreate message).Issues eval (·.touches ⊆ self.authorCells message ∪ messageCells s message) s := by
  refine Prog.Issues.bind (((stays_cacheAuthor message).mono Set.subset_union_left).issues s) fun _ t hexec => ?_
  have hpush : (self.pushMessage message).Issues eval (·.touches ⊆ messageCells s message) t :=
    issues_pushMessage (congrFun (channelMessages_cacheAuthor hexec) message.channelId)
  refine Prog.Issues.bind (fun o ho => (hpush o ho).trans Set.subset_union_right) fun _ u _ => ?_
  exact ((Repository.stays_insert (.inr (.inl (.inl rfl))) _).bind fun _ => Stays.pure _).issues u

theorem issues_messageUpdate (message : Message) :
    (self.messageUpdate message).Issues eval (·.touches ⊆ self.authorCells message ∪ messageCells s message) s := by
  refine Prog.Issues.bind (((stays_cacheAuthor message).mono Set.subset_union_left).issues s) fun _ t hexec => ?_
  refine Prog.Issues.bind ((Repository.stays_insert (.inr (.inl (.inl rfl))) _).issues t) fun added u hexec' => ?_
  have hlist : u.hashes .channelMessages = t.hashes .channelMessages := by
    have htouches : Touches [.hash .messages] False (self.messages.insert message.id (.fromMessage message)) :=
      Repository.touches_insert (by decide) _ _
    have hkept := htouches.hashes (h := .channelMessages) (by decide) t
    rwa [hexec'] at hkept
  cases added with
  | false => exact (Stays.pure _).issues u
  | true =>
    have hpush : (self.pushMessage message).Issues eval (·.touches ⊆ messageCells s message) u := by
      refine issues_pushMessage ?_
      rw [← channelMessages_cacheAuthor hexec, State.channelMessages, State.channelMessages, hlist]
    exact fun o ho => (hpush o ho).trans Set.subset_union_right

section Reactions
variable {messageId : Id .message} {message : CachedMessage}

theorem all_isCurrentUser {E : Error → Prop} (userId : Id .user) :
    (self.isCurrentUser userId).All (Op.Within cells {.currentUser}) E :=
  (all_ifWanted (Prog.All.send ⟨Set.subset_union_right, fun _ hc => by cases hc.1⟩)).bind fun _ => Prog.All.pure _

theorem all_writeReactions (hmessage : message.id = messageId) {E : Error → Prop} (reactions : List Reaction) :
    Prog.All (Op.Within {.field .messages messageId} looked) E (do
      let _ ← self.messages.insert message.id { message with reactions }
      pure ()) := by
  refine Prog.All.bind (Repository.all_insert (.of_touches (Set.singleton_subset_iff.mpr ?_))) fun _ => Prog.All.pure _
  exact congrArg (Cell.field .messages) hmessage

/-- The record of the message is read, and then it is written back. -/
theorem issues_reaction (hs : s.Keyed) {p : CachedMessage → CacheM PUnit}
    (hp : ∀ message, message.id = messageId → (p message).All (Op.Within {.field .messages messageId} looked)
      fun _ => True) :
    Prog.Issues eval (Op.Within {.field .messages messageId} looked) (do
      let message ← self.messages.get messageId
      message.forM p) s := by
  have hread : (self.messages.get messageId).All (Op.Within {.field .messages messageId} looked) fun _ => True :=
    Repository.all_get (.of_touches subset_rfl) (.inr trivial)
  refine (Prog.Issues.of_all hread s).bind fun message t hexec => ?_
  have hget : (self.messages.get messageId).exec eval s = (.ok (s.hashes .messages messageId), s) :=
    Repository.exec_get_new ..
  rw [hget] at hexec
  cases hexec
  rcases hmessage : s.hashes .messages messageId with _ | message
  · exact Prog.Issues.of_all (E := fun _ => True) (Prog.All.pure _) s
  · exact Prog.Issues.of_all (hp message (hs.messages messageId message hmessage)) s

theorem issues_reactionAdd (hs : s.Keyed) (reaction : GatewayReaction) : (self.reactionAdd reaction).Issues eval
    (Op.Within {.field .messages reaction.messageId} {.currentUser}) s := by
  refine issues_reaction hs fun message hmessage => ?_
  dsimp only
  rcases message.reactions.find? _ with _ | found
  · exact (all_isCurrentUser _).bind fun _ => all_writeReactions hmessage _
  · dsimp only
    cases found.me with
    | true => exact all_writeReactions hmessage _
    | false => exact (all_isCurrentUser _).bind fun _ => all_writeReactions hmessage _

theorem issues_reactionRemove (hs : s.Keyed) (reaction : GatewayReaction) : (self.reactionRemove reaction).Issues eval
    (Op.Within {.field .messages reaction.messageId} {.currentUser}) s := by
  refine issues_reaction hs fun message hmessage => ?_
  dsimp only
  rcases message.reactions.find? _ with _ | found
  · exact all_writeReactions hmessage _
  · dsimp only
    cases found.me with
    | true => exact (all_isCurrentUser _).bind fun _ => all_writeReactions hmessage _
    | false => exact all_writeReactions hmessage _

end Reactions

/-! ### Every event -/

theorem issues_within {α : Type} {p : CacheM α} (hp : p.Issues eval (·.touches ⊆ cells) s) :
    p.Issues eval (Op.Within cells looked) s := fun o ho => .of_touches (hp o ho)

/-- Alone, an update stays among the cells of its event. -/
theorem issues_update (self : Cache) (hs : s.Keyed) (event : Event) :
    (self.update event).Issues eval (Op.Within (Event.cells self s event) (Event.looked event)) s := by
  cases event with
  | reactionAdd reaction => exact issues_reactionAdd hs reaction
  | reactionRemove reaction => exact issues_reactionRemove hs reaction
  | reactionRemoveAll messageId => exact issues_reaction hs fun message hmessage => all_writeReactions hmessage _
  | reactionRemoveEmoji messageId emoji =>
    exact issues_reaction hs fun message hmessage => all_writeReactions hmessage _
  | channelCreate channel | channelUpdate channel | threadCreate channel | threadUpdate channel =>
    exact issues_within ((stays_cacheChannel channel).issues s)
  | channelDelete channel => exact issues_within (issues_deleteChannel hs channel.id)
  | threadDelete id => exact issues_within (issues_deleteChannel hs id)
  | threadListSync threads => exact issues_within ((Stays.forM fun thread _ => stays_cacheChannel thread).issues s)
  | channelPinsUpdate channelId timestamp => exact issues_within (issues_modify rfl (hs.channels channelId))
  | guildCreate guild =>
    cases guild with
    | available guild => exact issues_within (issues_cacheGuild guild)
    | unavailable guild => exact issues_within (shrinks_unavailableGuild guild.id).issues
  | unavailableGuild guild => exact issues_within (shrinks_unavailableGuild guild.id).issues
  | guildDelete guild => exact issues_within (shrinks_deleteGuild guild.id false).issues
  | guildEmojisUpdate guildId emojis =>
    show Prog.Issues eval _ (self.cacheEmojis guildId emojis) s
    rw [cacheEmojis_eq]
    exact issues_within (issues_seq (issues_removeStale subset_rfl _) fun _ =>
      Stays.forM fun emoji _ => stays_cacheEmoji guildId emoji)
  | guildStickersUpdate guildId stickers =>
    show Prog.Issues eval _ (self.cacheStickers guildId stickers) s
    rw [cacheStickers_eq]
    exact issues_within (issues_seq (issues_removeStale subset_rfl _) fun _ =>
      Stays.forM fun sticker _ => stays_cacheSticker guildId sticker)
  | guildUpdate guild => exact issues_within (issues_modify rfl (hs.guilds guild.id))
  | guildScheduledEventCreate event | guildScheduledEventUpdate event =>
    exact issues_within ((stays_listAndStore (.inl rfl) (.inr rfl)).issues s)
  | guildScheduledEventDelete event => exact issues_within ((stays_removeAndUnlist (.inl rfl) (.inr rfl)).issues s)
  | guildScheduledEventUserAdd id => exact issues_within (issues_modify rfl fun _ _ => rfl)
  | guildScheduledEventUserRemove id => exact issues_within (issues_modify rfl fun _ _ => rfl)
  | integrationCreate integration | integrationUpdate integration =>
    exact issues_within ((Stays.forM_option fun g _ => stays_listAndStore (.inl rfl) (.inr rfl)).issues s)
  | integrationDelete guildId id => exact issues_within ((stays_removeAndUnlist (.inl rfl) (.inr rfl)).issues s)
  | interactionCreate interaction => exact issues_within ((stays_interactionCreate interaction).issues s)
  | memberAdd guildId member =>
    exact issues_within (issues_seq (issues_changeMemberCount hs guildId _) fun _ => stays_cacheMember guildId member)
  | memberRemove guildId user =>
    exact issues_within (issues_seq (issues_changeMemberCount hs guildId _) fun _ => stays_forgetMember guildId user.id)
  | memberUpdate update => exact issues_within ((stays_memberUpdate update).issues s)
  | memberChunk guildId members =>
    exact issues_within ((Stays.forM fun member _ => stays_cacheMember guildId member).onlyIf.issues s)
  | messageCreate message => exact issues_within (issues_messageCreate message)
  | messageUpdate message => exact issues_within (issues_messageUpdate message)
  | messageDelete channelId id => exact issues_within ((stays_messageDelete channelId id).issues s)
  | messageDeleteBulk channelId ids => exact issues_within ((stays_messageDeleteBulk channelId ids).issues s)
  | presenceUpdate presence => exact issues_within ((stays_listAndStore (.inl rfl) (.inr rfl)).issues s)
  | ready ready => exact issues_within (shrinks_ready ready).issues
  | roleCreate guildId role | roleUpdate guildId role =>
    exact issues_within ((stays_listAndStore (.inl rfl) (.inr rfl)).issues s)
  | roleDelete guildId roleId => exact issues_within ((stays_removeAndUnlist (.inl rfl) (.inr rfl)).issues s)
  | stageInstanceCreate stageInstance | stageInstanceUpdate stageInstance =>
    exact issues_within ((stays_listAndStore (.inl rfl) (.inr rfl)).issues s)
  | stageInstanceDelete stageInstance => exact issues_within ((stays_removeAndUnlist (.inl rfl) (.inr rfl)).issues s)
  | userUpdate user => exact issues_within (Stays.issues (all_ifWanted (stays_send subset_rfl)) s)
  | voiceStateUpdate voiceState =>
    refine issues_within (Stays.issues ((stays_cacheVoiceState voiceState).seq fun _ => ?_) s)
    exact Stays.forM_option fun g _ => Stays.forM_option fun member _ => stays_cacheMember g member
  | ignored => exact issues_within ((Stays.pure _).issues s)

end Runs

end Tulpje.Cache
