import Mathlib.Data.Finset.Option
import Tulpje.Cache.Frame
import Tulpje.Lib.Recent
import Tulpje.Lib.Run

/-!
# Messages and the lists of their channels

The hash `channel_messages` holds for each channel a list of the messages that are stored, so a stored message
belongs to its channel (`Lib.Recent`, with the channel as the owner of a message). `MessageCreate` pushes its
message without a look at whether it is stored already, as it is after an update that came first or a second
delivery; `messages_agree_iff` says that this is what breaks the lists.
-/

namespace Tulpje.Cache

open Twilight Lib

/-! ### What is stored under the id of a message -/

def StoredMessages (P : Id .message → CachedMessage → Prop) (s : State) : Prop :=
  ∀ id message, s.hashes .messages id = some message → P id message

section Stored
variable {self : Cache} {P : Id .message → CachedMessage → Prop}

theorem storedMessages_dependsOn : DependsOn [.hash .messages] (StoredMessages P) := by
  intro s t h hs
  have hmessages : t.hashes .messages = s.hashes .messages := h (.hash .messages) (by decide)
  unfold StoredMessages
  rwa [hmessages]

theorem StoredMessages.hset {s : State} (h : StoredMessages P s) {id : Id .message}
    {message : CachedMessage} (hm : P id message) :
    StoredMessages P (s.hset .messages id message) := by
  intro id' message' hstored
  rw [State.hset_self] at hstored
  by_cases hid : id' = id
  · subst hid
    rw [Function.update_self] at hstored
    exact Option.some.inj hstored ▸ hm
  · rw [Function.update_of_ne hid] at hstored
    exact h id' message' hstored

theorem StoredMessages.hdel {s : State} (h : StoredMessages P s) (ids : Finset (Id .message)) :
    StoredMessages P (s.hdel .messages ids) := by
  intro id message hstored
  rw [State.hdel_self] at hstored
  exact h id message ((Option.ite_none_left_eq_some.mp hstored).2)

theorem keeps_pushMessage_stored (message : Message) :
    Prog.Keeps eval (StoredMessages P) (self.pushMessage message) := by
  have hindex : ∀ list, Touches [.hash .channelMessages] False
      (self.channelMessages.insert message.channelId list) :=
    fun list => Repository.touches_insert (by decide) _ list
  refine (keeps_get _).bind fun _ => (keeps_forM fun id _ => ?_).bind fun _ => ?_
  · exact (keeps_remove fun s hs => hs.hdel _).bind fun _ => Prog.Keeps.pure _
  · exact ((hindex _).keeps storedMessages_dependsOn (by decide)).bind fun _ => Prog.Keeps.pure _

/-- The payload of an event that writes a whole message. -/
def messageOf : Event → Option Message
  | .messageCreate message | .messageUpdate message => some message
  | _ => none

/-! A reaction event reads a message and writes it back with other reactions, or does nothing. -/

/-- The message that a reaction event is about. -/
def reactionTarget : Event → Option (Id .message)
  | .reactionAdd reaction | .reactionRemove reaction => some reaction.messageId
  | .reactionRemoveAll messageId | .reactionRemoveEmoji messageId _ => some messageId
  | _ => none

def RewritesReactions (id : Id .message) (s t : State) : Prop :=
  t = s ∨ ∃ message reactions, s.hashes .messages id = some message ∧
    t = s.hset .messages message.id { message with reactions }

theorem rewritesReactions_write {s : State} {id : Id .message} {message : CachedMessage}
    (hstored : s.hashes .messages id = some message) (reactions : List Reaction) :
    RewritesReactions id s ((do
      let _ ← self.messages.insert message.id { message with reactions }
      pure () : CacheM Unit).exec eval s).2 := by
  cases hw : self.messages.wanted with
  | true =>
    rw [Prog.exec_bind_ok (self.messages.exec_insert hw message.id { message with reactions } s)]
    exact .inr ⟨message, reactions, hstored, rfl⟩
  | false =>
    unfold Repository.insert
    rw [hw]
    exact .inl rfl

theorem exec_isCurrentUser (self : Cache) (userId : Id .user) (s : State) :
    ∃ me, (self.isCurrentUser userId).exec eval s = (.ok me, s) := by
  unfold isCurrentUser SingleRepository.get
  cases self.currentUser.wanted with
  | true => exact ⟨_, rfl⟩
  | false => exact ⟨_, rfl⟩

theorem rewritesReactions_afterRead {s : State} {id : Id .message} {message : CachedMessage}
    (hstored : s.hashes .messages id = some message) (userId : Id .user) (reactions : Bool → List Reaction) :
    RewritesReactions id s ((do
      let me ← self.isCurrentUser userId
      let _ ← self.messages.insert message.id { message with reactions := reactions me }
      pure () : CacheM Unit).exec eval s).2 := by
  obtain ⟨me, hread⟩ := exec_isCurrentUser self userId s
  rw [Prog.exec_bind_ok hread]
  exact rewritesReactions_write hstored (reactions me)

theorem rewritesReactions_update {event : Event} {id : Id .message} (h : reactionTarget event = some id)
    (s : State) : RewritesReactions id s ((self.update event).exec eval s).2 := by
  have hread : ∀ p : CachedMessage → CacheM PUnit, (∀ message, s.hashes .messages id = some message →
      RewritesReactions id s ((p message).exec eval s).2) → RewritesReactions id s ((do
        let message ← self.messages.get id
        message.forM p : CacheM PUnit).exec eval s).2 := by
    intro p hp
    have hget : (self.messages.get id).exec eval s = (.ok (s.hashes .messages id), s) :=
      Repository.exec_get_new .messages _ id s
    rw [Prog.exec_bind_ok hget]
    rcases hstored : s.hashes .messages id with _ | message
    · exact .inl rfl
    · exact hp message hstored
  cases event with
  | reactionAdd reaction =>
    obtain rfl : reaction.messageId = id := Option.some.inj h
    refine hread _ fun message hstored => ?_
    dsimp only
    rcases message.reactions.find? _ with _ | found
    · exact rewritesReactions_afterRead hstored _ _
    · dsimp only
      cases found.me with
      | true => exact rewritesReactions_write hstored _
      | false => exact rewritesReactions_afterRead hstored _ _
  | reactionRemove reaction =>
    obtain rfl : reaction.messageId = id := Option.some.inj h
    refine hread _ fun message hstored => ?_
    dsimp only
    rcases message.reactions.find? _ with _ | found
    · exact rewritesReactions_write hstored _
    · dsimp only
      cases found.me with
      | true => exact rewritesReactions_afterRead hstored _ _
      | false => exact rewritesReactions_write hstored _
  | reactionRemoveAll messageId =>
    obtain rfl : messageId = id := Option.some.inj h
    exact hread _ fun message hstored => rewritesReactions_write hstored _
  | reactionRemoveEmoji messageId emoji =>
    obtain rfl : messageId = id := Option.some.inj h
    exact hread _ fun message hstored => rewritesReactions_write hstored _
  | _ => cases h

/-- Every stored message is as `P` says after any event, if the messages that events bring are and are wanted. -/
theorem keeps_storedMessages (hid : ∀ id message, P id message → message.id = id)
    (hreactions : ∀ id message reactions, P id message → P id { message with reactions }) {event : Event}
    (hevent : self.config.wants .message = true →
      ∀ message ∈ messageOf event, P message.id (.fromMessage message)) :
    Prog.Keeps eval (StoredMessages P) (self.update event) := by
  have hauthor : ∀ message, Prog.Keeps eval (StoredMessages P) (self.cacheAuthor message) := by
    intro message
    refine (touches_cacheAuthor message).keeps storedMessages_dependsOn ?_
    cases self.usersName <;> decide
  have hinsert : ∀ message ∈ messageOf event, Prog.Keeps eval (StoredMessages P)
      (self.messages.insert message.id (.fromMessage message)) := by
    intro message hmessage
    cases hw : self.config.wants .message with
    | true => exact keeps_insert fun s hs => hs.hset (hevent hw message hmessage)
    | false =>
      refine Prog.Keeps.of_exec fun s hs => ?_
      rwa [self.messages.exec_insert_off hw]
  have hindex : ∀ channelId list, Prog.Keeps eval (StoredMessages P)
      (self.channelMessages.insert channelId list) := by
    intro channelId list
    have htouches : Touches [.hash .channelMessages] False (self.channelMessages.insert channelId list) :=
      Repository.touches_insert (by decide) _ list
    exact htouches.keeps storedMessages_dependsOn (by decide)
  have hreaction : ∀ id, reactionTarget event = some id →
      Prog.Keeps eval (StoredMessages P) (self.update event) := by
    intro id htarget
    refine Prog.Keeps.of_exec fun s hs => ?_
    rcases rewritesReactions_update htarget s with heq | ⟨message, reactions, hstored, heq⟩
    · rwa [heq]
    · rw [heq]
      obtain rfl := hid id message (hs id message hstored)
      exact hs.hset (hreactions _ message reactions (hs _ message hstored))
  cases event with
  | messageCreate message =>
    refine (hauthor message).bind fun _ => (keeps_pushMessage_stored message).bind fun _ => ?_
    exact (hinsert message rfl).bind fun _ => Prog.Keeps.pure _
  | messageUpdate message =>
    refine (hauthor message).bind fun _ => (hinsert message rfl).bind fun _ => ?_
    exact keeps_onlyIf fun _ => keeps_pushMessage_stored message
  | messageDelete channelId id =>
    refine (keeps_remove fun s hs => hs.hdel _).bind fun _ => (keeps_get _).bind fun _ => ?_
    exact keeps_onlyIf fun _ => (hindex _ _).bind fun _ => Prog.Keeps.pure _
  | messageDeleteBulk channelId ids =>
    refine (keeps_get _).bind fun _ => (keeps_removeMulti fun s hs => hs.hdel _).bind fun _ => ?_
    exact (hindex _ _).bind fun _ => Prog.Keeps.pure _
  | reactionAdd reaction => exact hreaction _ rfl
  | reactionRemove reaction => exact hreaction _ rfl
  | reactionRemoveAll messageId => exact hreaction _ rfl
  | reactionRemoveEmoji messageId emoji => exact hreaction _ rfl
  | guildCreate guild =>
    cases guild with
    | available guild =>
      refine keeps_update_of_areas storedMessages_dependsOn ?_
      simp only [Event.areas]
      decide
    | unavailable guild =>
      refine keeps_update_of_areas storedMessages_dependsOn ?_
      simp only [Event.areas]
      decide
  | _ =>
    refine keeps_update_of_areas storedMessages_dependsOn ?_
    simp only [Event.areas]
    cases self.usersName <;> decide

end Stored

/-- A message is stored where messages are wanted, and has its key for its id. -/
theorem Reachable.stored_message {self : Cache} {s : State} (hs : self.Reachable s) :
    StoredMessages (fun id message => message.id = id ∧ self.config.wants .message = true) s := by
  obtain ⟨events, rfl⟩ := hs
  refine applyEvents_keeps (fun event _ => ?_) fun id message hstored => ?_
  · exact keeps_storedMessages (fun _ _ h => h.1) (fun _ _ _ h => h) fun hw _ _ => ⟨rfl, hw⟩
  · cases hstored

/-! ### Lists and messages -/

def State.channelMessages (s : State) (channelId : Id .channel) : List (Id .message) :=
  (s.hashes .channelMessages channelId).getD []

def State.messageIds (s : State) : Set (Id .message) := {id | (s.hashes .messages id).isSome = true}

structure MessagesAgree (size : Nat) (s : State) : Prop where
  nodup : ∀ channelId, (s.channelMessages channelId).Nodup
  bounded : ∀ channelId, (s.channelMessages channelId).length ≤ size
  listed : ∀ channelId id, id ∈ s.channelMessages channelId ↔
    ∃ message, s.hashes .messages id = some message ∧ message.channelId = channelId

/-- Stored messages are in the channel that their ids always carry. -/
def AtHome (home : Id .message → Id .channel) : State → Prop :=
  StoredMessages fun id message => message.id = id ∧ message.channelId = home id

theorem messagesAgree_iff {size : Nat} {home : Id .message → Id .channel} {s : State} (hs : AtHome home s) :
    MessagesAgree size s ↔ Recent.Valid size home s.channelMessages s.messageIds := by
  have hlisted : ∀ channelId id, (∃ message, s.hashes .messages id = some message ∧
      message.channelId = channelId) ↔ id ∈ s.messageIds ∧ home id = channelId := by
    intro channelId id
    constructor
    · rintro ⟨message, hstored, rfl⟩
      exact ⟨Option.isSome_iff_exists.mpr ⟨message, hstored⟩, (hs id message hstored).2.symm⟩
    · rintro ⟨hmem, rfl⟩
      obtain ⟨message, hstored⟩ := Option.isSome_iff_exists.mp hmem
      exact ⟨message, hstored, (hs id message hstored).2⟩
  constructor
  · exact fun h => ⟨h.nodup, h.bounded, fun channelId id => (h.listed channelId id).trans (hlisted ..)⟩
  · exact fun h => ⟨h.nodup, h.bounded, fun channelId id => (h.mem channelId id).trans (hlisted ..).symm⟩

/-- The event carries messages in the channels that their ids always carry. -/
def CarriesHome (home : Id .message → Id .channel) : Event → Prop
  | .messageCreate message | .messageUpdate message => home message.id = message.channelId
  | .messageDelete channelId id => home id = channelId
  | .messageDeleteBulk channelId ids => ∀ id ∈ ids, home id = channelId
  | _ => True

theorem keeps_atHome {self : Cache} {home : Id .message → Id .channel} {event : Event}
    (h : CarriesHome home event) : Prog.Keeps eval (AtHome home) (self.update event) := by
  refine keeps_storedMessages (fun _ _ hm => hm.1) (fun _ _ _ hm => hm) fun _ message hm => ⟨rfl, ?_⟩
  cases event with
  | messageCreate m =>
    obtain rfl : m = message := Option.some.inj hm
    exact h.symm
  | messageUpdate m =>
    obtain rfl : m = message := Option.some.inj hm
    exact h.symm
  | _ => cases hm


/-! ### The author -/

section Author
variable {self : Cache}

/-- The entry in the place of the user is not one of a user. -/
def AuthorRejected (self : Cache) (s : State) (author : User) : Prop :=
  ∃ entry, s.hashes self.usersName.hash (self.users.field author.id) = some entry ∧
    self.users.decode entry = none

theorem exec_cacheAuthor_ok {message : Message} {s : State} (h : ¬ AuthorRejected self s message.author) :
    ∃ t, (self.cacheAuthor message).exec eval s = (.ok (), t) := by
  have hget : ∃ user, (self.users.get message.author.id).exec eval s = (.ok user, s) := by
    rcases hentry : s.hashes self.usersName.hash (self.users.field message.author.id) with _ | entry
    · exact ⟨none, self.users.exec_get_of_none hentry⟩
    · rcases hdecode : self.users.decode entry with _ | user
      · exact absurd ⟨entry, hentry, hdecode⟩ h
      · exact ⟨some user, self.users.exec_get_of_some hentry hdecode⟩
  obtain ⟨user, hget⟩ := hget
  have hrest : Touches (memberAreas self.usersName.areas) False (do
      onlyIf (user ≠ some message.author) do
        let _ ← self.users.insert message.author.id message.author
        pure ()
      message.guildId.forM fun guildId => do
        let _ ← self.userGuilds.insert message.author.id guildId
        pure ()
      message.member.forM fun member => message.guildId.forM fun guildId =>
        self.cacheBorrowedPartialMember guildId member message.author.id) := by
    have husers : .hash self.usersName.hash ∈ memberAreas self.usersName.areas :=
      subset_memberAreas _ List.mem_cons_self
    have hguilds : .set .userGuilds ∈ memberAreas self.usersName.areas :=
      subset_memberAreas _ (List.mem_cons_of_mem _ List.mem_cons_self)
    refine (touches_onlyIf ?_).bind fun _ => (touches_forM fun _ => ?_).bind fun _ => ?_
    · exact (Repository.touches_insert husers _ _).bind fun _ => Touches.pure _
    · exact (MappedSetRepository.touches_insert _ hguilds _).bind fun _ => Touches.pure _
    · exact touches_forM fun member => touches_forM fun guildId =>
        touches_cacheBorrowedPartialMember _ guildId member _
  obtain ⟨_, hok⟩ := hrest.exec_ok s
  refine ⟨_, Eq.trans ?_ hok⟩
  unfold cacheAuthor cacheUser
  rw [bind_assoc, Prog.exec_bind_ok hget, bind_assoc]

theorem exec_cacheAuthor_error {message : Message} {s : State} (h : AuthorRejected self s message.author) :
    (self.cacheAuthor message).exec eval s = (.error .json, s) := by
  obtain ⟨entry, hentry, hdecode⟩ := h
  unfold cacheAuthor cacheUser
  rw [bind_assoc, Prog.exec_bind, self.users.exec_get_of_rejected hentry hdecode]

/-- What the author's caching leaves alone. -/
theorem exec_cacheAuthor_part (message : Message) (s : State) {a : Area}
    (ha : a ∈ [Area.hash .messages, .hash .channelMessages]) :
    ((self.cacheAuthor message).exec eval s).2.part a = s.part a := by
  refine (touches_cacheAuthor message).part ?_ s
  revert a
  cases self.usersName <;> decide

end Author

/-! ### Writing and pushing a message -/

section Push
variable {s : State} {id id' : Id .message} {message : CachedMessage}

@[simp] theorem channelMessages_hset_messages :
    (s.hset .messages id message).channelMessages = s.channelMessages := by
  unfold State.channelMessages
  rw [State.hset_of_ne _ _ _ (by decide)]

@[simp] theorem channelMessages_hdel_messages (ids : Finset (Id .message)) :
    (s.hdel .messages ids).channelMessages = s.channelMessages := by
  unfold State.channelMessages
  rw [State.hdel_of_ne _ _ (by decide)]

@[simp] theorem channelMessages_hset (channelId : Id .channel) (list : List (Id .message)) :
    (s.hset .channelMessages channelId list).channelMessages =
      Function.update s.channelMessages channelId list := by
  funext channelId'
  unfold State.channelMessages
  rw [State.hset_self]
  by_cases hc : channelId' = channelId
  · subst hc
    rw [Function.update_self, Function.update_self]
    rfl
  · rw [Function.update_of_ne hc, Function.update_of_ne hc]

theorem mem_messageIds_hset :
    id' ∈ (s.hset .messages id message).messageIds ↔ id' = id ∨ id' ∈ s.messageIds := by
  show ((s.hset .messages id message).hashes .messages id').isSome = true ↔ _
  rw [State.hset_self]
  by_cases hid : id' = id
  · subst hid
    simp
  · rw [Function.update_of_ne hid]
    exact (or_iff_right hid).symm

@[simp] theorem messageIds_hset_channelMessages (channelId : Id .channel) (list : List (Id .message)) :
    (s.hset .channelMessages channelId list).messageIds = s.messageIds := by
  unfold State.messageIds
  rw [State.hset_of_ne _ _ _ (by decide)]

theorem mem_messageIds_hdel {ids : Finset (Id .message)} :
    id' ∈ (s.hdel .messages ids).messageIds ↔ id' ∈ s.messageIds ∧ id' ∉ ids := by
  show ((s.hdel .messages ids).hashes .messages id').isSome = true ↔ _
  rw [State.hdel_self]
  by_cases hid : id' ∈ ids <;> simp [hid, State.messageIds]

/-- What `pushMessage` does. -/
def State.push (size : Nat) (s : State) (message : Message) : State :=
  let list := s.channelMessages message.channelId
  (s.hdel .messages (Recent.evicted size list).toFinset).hset .channelMessages message.channelId
    (message.id :: Recent.room size list)

theorem wp_pushMessage {self : Cache} (hw : self.config.wants .message = true) {message : Message}
    {Q : Unit → State → Prop} {E : State → Prop} :
    (self.pushMessage message).wp eval Q E s ↔ Q () (s.push self.config.messageCacheSize message) := by
  refine Prog.wp_bind.trans ((Repository.wp_get_new _).trans ?_)
  have hpop : ∀ popped : Option (Id .message), (popped.forM fun id => do
      let _ ← self.messages.remove id
      pure ()).exec eval s = (.ok (), s.hdel .messages popped.toFinset) := by
    intro popped
    cases popped with
    | none =>
      have hsame : s.hdel .messages ∅ = s := congrArg Prod.snd (hdel_empty .messages s)
      exact congrArg (Prod.mk (Except.ok ())) hsame.symm
    | some id => exact Prog.exec_bind_ok (Repository.exec_remove _ hw id s) _
  refine Prog.wp_bind.trans ((Prog.wp_of_exec (hpop _)).trans ?_)
  refine Prog.wp_bind.trans ((Repository.wp_insert_new hw _ _).trans ?_)
  simp only [decide_eq_true_eq]
  exact Iff.rfl

section Valid
variable {size : Nat} {home : Id .message → Id .channel}
  (hs : Recent.Valid size home s.channelMessages s.messageIds)
include hs

theorem valid_create_iff (hsize : 1 ≤ size) {message : Message} (hhome : home message.id = message.channelId)
    (cached : CachedMessage) {t : State} (ht : t = (s.push size message).hset .messages message.id cached) :
    Recent.Valid size home t.channelMessages t.messageIds ↔
      message.id ∉ Recent.room size (s.channelMessages message.channelId) := by
  have hlists : t.channelMessages = Function.update s.channelMessages message.channelId
      (message.id :: Recent.room size (s.channelMessages message.channelId)) := by
    rw [ht, channelMessages_hset_messages, State.push, channelMessages_hset, channelMessages_hdel_messages]
  constructor
  · intro h hmem
    have hnodup := h.nodup message.channelId
    rw [hlists, Function.update_self] at hnodup
    exact Recent.not_nodup_push hmem hnodup
  · intro hmem
    rw [← hhome] at hlists hmem
    refine hs.push hsize hmem hlists fun id => ?_
    rw [ht, mem_messageIds_hset, State.push, messageIds_hset_channelMessages, mem_messageIds_hdel,
      Option.mem_toFinset, Option.mem_def, hhome]

theorem valid_update_stored (cached : CachedMessage) (hstored : id ∈ s.messageIds) :
    Recent.Valid size home (s.hset .messages id cached).channelMessages
      (s.hset .messages id cached).messageIds := by
  have hids : (s.hset .messages id cached).messageIds = s.messageIds :=
    Set.ext fun id => mem_messageIds_hset.trans (or_iff_right_of_imp fun heq => heq ▸ hstored)
  rwa [channelMessages_hset_messages, hids]

theorem valid_update_new (hsize : 1 ≤ size) {message : Message} (hhome : home message.id = message.channelId)
    (cached : CachedMessage) (hnew : message.id ∉ s.messageIds) {t : State}
    (ht : t = (s.hset .messages message.id cached).push size message) :
    Recent.Valid size home t.channelMessages t.messageIds := by
  have hlist : message.id ∉ s.channelMessages message.channelId :=
    fun hmem => hnew ((hs.mem _ _).mp hmem).1
  have hroom : message.id ∉ Recent.room size (s.channelMessages message.channelId) :=
    fun hmem => hlist ((Recent.room_sublist _ _).subset hmem)
  have hevicted : Recent.evicted size (s.channelMessages message.channelId) ≠ some message.id :=
    fun heq => hlist (Recent.mem_of_evicted heq)
  have hlists : t.channelMessages = Function.update s.channelMessages message.channelId
      (message.id :: Recent.room size (s.channelMessages message.channelId)) := by
    rw [ht, State.push, channelMessages_hset, channelMessages_hdel_messages, channelMessages_hset_messages]
  rw [← hhome] at hlists hroom hevicted
  refine hs.push hsize hroom hlists fun id => ?_
  rw [ht, State.push, messageIds_hset_channelMessages, mem_messageIds_hdel, channelMessages_hset_messages,
    mem_messageIds_hset, Option.mem_toFinset, Option.mem_def, ← hhome, or_and_right]
  refine or_congr_left (and_iff_left_of_imp ?_)
  rintro rfl
  exact hevicted

theorem valid_delete {channelId : Id .channel} {ids : List (Id .message)} (hids : ∀ id ∈ ids, home id = channelId)
    {t : State} (hlists : t.channelMessages = Function.update s.channelMessages channelId
      ((s.channelMessages channelId).diff ids))
    (hmessages : t.messageIds = (s.hdel .messages ids.toFinset).messageIds) :
    Recent.Valid size home t.channelMessages t.messageIds := by
  refine hs.remove hids hlists fun id => ?_
  rw [hmessages, mem_messageIds_hdel, List.mem_toFinset]

end Valid

end Push

/-! ### Events -/

/-- The id of a created message is not in its channel's list, or it is the one that is evicted; or the author
cannot be cached, and then nothing is. -/
def CanApply (self : Cache) (s : State) : Event → Prop
  | .messageCreate message =>
    message.id ∉ s.channelMessages message.channelId ∨
      Recent.evicted self.config.messageCacheSize (s.channelMessages message.channelId) = some message.id ∨
      AuthorRejected self s message.author
  | _ => True

section Events
variable {self : Cache} {home : Id .message → Id .channel} {s : State}

def Listed (self : Cache) (home : Id .message → Id .channel) (s : State) : Prop :=
  Recent.Valid self.config.messageCacheSize home s.channelMessages s.messageIds

theorem listed_dependsOn : DependsOn [.hash .messages, .hash .channelMessages] (Listed self home) := by
  intro s t h hs
  have hmessages : t.hashes .messages = s.hashes .messages := h (.hash .messages) (by decide)
  have hlists : t.hashes .channelMessages = s.hashes .channelMessages := h (.hash .channelMessages) (by decide)
  unfold Listed State.channelMessages State.messageIds
  rwa [hmessages, hlists]

variable (hw : self.config.wants .message = true) (hsize : 1 ≤ self.config.messageCacheSize)
include hw hsize

theorem listed_messageCreate_iff {message : Message} (hhome : home message.id = message.channelId)
    (hs : Listed self home s) : Listed self home ((self.messageCreate message).exec eval s).2 ↔
      CanApply self s (.messageCreate message) := by
  by_cases hauthor : AuthorRejected self s message.author
  · have hexec : (self.messageCreate message).exec eval s = (.error .json, s) := by
      unfold messageCreate
      rw [Prog.exec_bind, exec_cacheAuthor_error hauthor]
    rw [hexec]
    exact iff_of_true hs (.inr (.inr hauthor))
  · obtain ⟨t, hexec⟩ := exec_cacheAuthor_ok hauthor
    have hpart : ∀ a ∈ [Area.hash .messages, .hash .channelMessages], t.part a = s.part a := by
      intro a ha
      have h : ((self.cacheAuthor message).exec eval s).2.part a = s.part a := exec_cacheAuthor_part message s ha
      rwa [hexec] at h
    have hlist : t.channelMessages = s.channelMessages := by
      have h : t.hashes .channelMessages = s.hashes .channelMessages := hpart (.hash .channelMessages) (by decide)
      unfold State.channelMessages
      rw [h]
    have ht : Listed self home t := listed_dependsOn s t hpart hs
    refine Prog.exec_of_wp (I := fun t => Listed self home t ↔ CanApply self s (.messageCreate message)) ?_
    refine Prog.wp_bind.mpr ((Prog.wp_of_exec hexec).mpr ?_)
    refine Prog.wp_bind.mpr ((wp_pushMessage hw).mpr ?_)
    refine Prog.wp_bind.mpr ((Repository.wp_insert_new hw _ _).mpr ?_)
    refine (valid_create_iff ht hsize hhome _ rfl).trans ?_
    have hnodup := hs.nodup message.channelId
    rw [hlist, Recent.mem_room hnodup, CanApply, not_and_or, not_not, or_iff_left hauthor]

theorem keeps_messageUpdate_listed {message : Message} (hhome : home message.id = message.channelId) :
    Prog.Keeps eval (Listed self home) (self.messageUpdate message) := by
  refine Prog.Keeps.bind ?_ fun _ => ?_
  · refine (touches_cacheAuthor message).keeps listed_dependsOn ?_
    cases self.usersName <;> decide
  · intro s hs
    refine Prog.wp_bind.mpr ((Repository.wp_insert_new hw _ _).mpr ?_)
    by_cases hstored : (s.hashes .messages message.id).isSome = true
    · rw [Option.isNone_eq_false_iff.mpr hstored]
      exact valid_update_stored hs _ hstored
    · rw [Option.not_isSome_iff_eq_none.mp hstored]
      refine wp_onlyIf.mpr ((wp_pushMessage hw).mpr ?_)
      exact valid_update_new hs hsize hhome _ hstored rfl

omit hsize

theorem keeps_messageDelete_listed {channelId : Id .channel} {id : Id .message} (hhome : home id = channelId) :
    Prog.Keeps eval (Listed self home) (self.messageDelete channelId id) := by
  intro s hs
  refine Prog.wp_bind.mpr ((Repository.wp_remove_new (h := .messages) hw id).mpr ?_)
  refine Prog.wp_bind.mpr ((Repository.wp_get_new _).mpr (wp_onlyIf.mpr ?_))
  have hlist : ((s.hdel .messages {id}).hashes .channelMessages channelId).getD [] = s.channelMessages channelId :=
    congrFun (channelMessages_hdel_messages {id}) channelId
  rw [hlist]
  have hids : ∀ i ∈ [id], home i = channelId := List.forall_mem_singleton.mpr hhome
  split_ifs with hmem
  · simp only [channelMessages, Prog.wp_bind, Repository.wp_insert_new hw, Prog.wp_pure]
    refine valid_delete hs hids ?_ ?_
    · rw [channelMessages_hset, channelMessages_hdel_messages, List.diff_cons, List.diff_nil]
    · rw [messageIds_hset_channelMessages]
      rfl
  · refine valid_delete hs hids ?_ rfl
    have hnot : id ∉ s.channelMessages channelId := fun h => hmem (List.contains_iff_mem.mpr h)
    rw [channelMessages_hdel_messages, List.diff_cons, List.diff_nil, List.erase_of_not_mem hnot,
      Function.update_eq_self]

theorem keeps_messageDeleteBulk_listed {channelId : Id .channel} {ids : List (Id .message)}
    (hhome : ∀ id ∈ ids, home id = channelId) :
    Prog.Keeps eval (Listed self home) (self.messageDeleteBulk channelId ids) := by
  intro s hs
  refine Prog.wp_bind.mpr ((Repository.wp_get_new _).mpr ?_)
  refine Prog.wp_bind.mpr ((Repository.wp_removeMulti_new hw _).mpr ?_)
  simp only [channelMessages, Prog.wp_bind, Repository.wp_insert_new hw, Prog.wp_pure]
  refine valid_delete hs hhome ?_ ?_
  · rw [channelMessages_hset, channelMessages_hdel_messages, List.diff_eq_foldl]
    rfl
  · rw [messageIds_hset_channelMessages]

omit hw

theorem listed_reaction {event : Event} {id : Id .message} (htarget : reactionTarget event = some id)
    (hhome : AtHome home s) (hs : Listed self home s) :
    Listed self home ((self.update event).exec eval s).2 := by
  rcases rewritesReactions_update htarget s with heq | ⟨message, reactions, hstored, heq⟩
  · rwa [heq]
  · rw [heq]
    obtain rfl := (hhome id message hstored).1
    exact valid_update_stored hs _ (Option.isSome_iff_exists.mpr ⟨message, hstored⟩)

include hw hsize

/-- An event that keeps the lists as they should be, and no other, can be applied. -/
theorem messagesAgree_update_iff {event : Event} (hevent : CarriesHome home event) (hhome : AtHome home s)
    (hs : MessagesAgree self.config.messageCacheSize s) :
    MessagesAgree self.config.messageCacheSize ((self.update event).exec eval s).2 ↔
      CanApply self s event := by
  have hs : Listed self home s := (messagesAgree_iff hhome).mp hs
  refine (messagesAgree_iff ((keeps_atHome hevent).exec hhome)).trans ?_
  change Listed self home _ ↔ _
  cases event with
  | messageCreate message => exact listed_messageCreate_iff hw hsize hevent hs
  | messageUpdate message => exact iff_of_true ((keeps_messageUpdate_listed hw hsize hevent).exec hs) trivial
  | messageDelete channelId id => exact iff_of_true ((keeps_messageDelete_listed hw hevent).exec hs) trivial
  | messageDeleteBulk channelId ids =>
    exact iff_of_true ((keeps_messageDeleteBulk_listed hw hevent).exec hs) trivial
  | reactionAdd reaction => exact iff_of_true (listed_reaction rfl hhome hs) trivial
  | reactionRemove reaction => exact iff_of_true (listed_reaction rfl hhome hs) trivial
  | reactionRemoveAll messageId => exact iff_of_true (listed_reaction rfl hhome hs) trivial
  | reactionRemoveEmoji messageId emoji => exact iff_of_true (listed_reaction rfl hhome hs) trivial
  | guildCreate guild =>
    refine iff_of_true ((keeps_update_of_areas listed_dependsOn ?_).exec hs) trivial
    cases guild <;> simp only [Event.areas] <;> decide
  | _ =>
    refine iff_of_true ((keeps_update_of_areas listed_dependsOn ?_).exec hs) trivial
    simp only [Event.areas]
    cases self.usersName <;> decide

end Events

/-- In a run in which every message id always carries the same channel, the lists of the channels agree with
the stored messages all along if and only if each `MessageCreate` could be applied when it came. -/
theorem messages_agree_iff (self : Cache) (hw : self.config.wants .message = true)
    (hsize : 1 ≤ self.config.messageCacheSize) (home : Id .message → Id .channel) (events : List Event)
    (hevents : ∀ event ∈ events, CarriesHome home event) :
    (∀ before, before <+: events →
        MessagesAgree self.config.messageCacheSize (self.applyEvents before .empty)) ↔
      AllSteps (fun s event => ((self.update event).exec eval s).2) (CanApply self) .empty events := by
  have hempty : AtHome home .empty := fun id message hstored => by cases hstored
  refine forall_prefix_iff_allSteps (AtHome home) (MessagesAgree self.config.messageCacheSize)
    (fun s event hs hevent => (keeps_atHome hevent).exec hs)
    (fun s event hhome hevent hs => messagesAgree_update_iff hw hsize hevent hhome hs) hevents hempty ?_
  have hids : State.empty.messageIds = ∅ := Set.eq_empty_of_forall_notMem fun _ => Bool.false_ne_true
  rw [messagesAgree_iff hempty, hids]
  exact Recent.Valid.empty _ home

/-- A message is created, updated and deleted. -/
theorem messages_agree_of_update :
    let message : Message :=
      ⟨⟨⟨7, by decide⟩, ""⟩, ⟨2, by decide⟩, none, ⟨5, by decide⟩, none, none, [], [], none, "hi"⟩
    let events : List Event :=
      [.messageCreate message, .messageUpdate message, .messageDelete message.channelId message.id]
    MessagesAgree 100 ((new (.all 100)).applyEvents events .empty) := by
  intro message events
  refine (messages_agree_iff (new (.all 100)) rfl (by decide) (fun _ => message.channelId) events ?_).mpr ?_ events
    List.prefix_rfl
  · simp [events, CarriesHome]
  · exact ⟨.inl List.not_mem_nil, trivial, trivial, trivial⟩

/-- The update of a message comes before its creation, and the list of the channel holds it twice. -/
theorem messages_disagree_of_early_update :
    let message : Message :=
      ⟨⟨⟨7, by decide⟩, ""⟩, ⟨2, by decide⟩, none, ⟨5, by decide⟩, none, none, [], [], none, "hi"⟩
    let events : List Event := [.messageUpdate message, .messageCreate message]
    (∀ event ∈ events, CarriesHome (fun _ => message.channelId) event) ∧
      ((new (.all 100)).applyEvents events .empty).channelMessages message.channelId =
        [message.id, message.id] ∧
      ¬ MessagesAgree 100 ((new (.all 100)).applyEvents events .empty) := by
  intro message events
  have hlist : ((new (.all 100)).applyEvents events .empty).channelMessages message.channelId =
      [message.id, message.id] := rfl
  refine ⟨by simp [events, CarriesHome], hlist, fun h => ?_⟩
  have hnodup := h.nodup message.channelId
  rw [hlist] at hnodup
  exact absurd hnodup (by decide)

end Tulpje.Cache
