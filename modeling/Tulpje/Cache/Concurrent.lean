import Mathlib.Order.CompletePartialOrder
import Tulpje.Cache.Footprints

/-!
# Two handlers on one Redis

Several handler processes take events from one queue and share one Redis. There is no lock and no
transaction, so the commands of two updates mix in any order.

`concurrent_update_eq_serial`: if neither event changes a cell that the other one looks at or changes (`Event.Apart`),
every order of the commands ends as after one update and then the other, whichever of them is first. Reactions to
different messages are such events. Joins of different guilds and messages of different channels are not, since they
share users, but no count and no message gets lost. If the commands in conflict are all ordered the same way, the
store ends as after one update and then the other, whatever the events are. `concurrent_updates_lost` are runs in which
they are not, and which no serial order explains.
-/

namespace Tulpje.Cache

open Twilight Lib

variable (self : Cache)

/-- Two handlers that update the cache with one event each. -/
def concurrently (event : Side → Event) (s : State) : Threads Error Op State Op.Reply Unit :=
  ⟨fun i => self.update (event i), s⟩

theorem serial_concurrently (event : Side → Event) (s : State) (first : Side) :
    (self.concurrently event s).serial eval first =
      self.applyEvents [event first, event first.other] s := rfl

/-- The commands of the handler `first` come after no command of the other one with which they are in
conflict. Two commands are in conflict when one of them changes a field of a hash, or a member of a set,
that the other one reads or changes. -/
def ConflictsOrdered (event : Side → Event) (s : State) (schedule : List Side) (first : Side) : Prop :=
  Threads.Ordered footprint.Conflict first ((self.concurrently event s).trace eval schedule)

/-! ### The member count -/

def State.memberCount (s : State) (guildId : Id .guild) : Option UInt64 :=
  (s.hashes .guilds guildId).bind (·.memberCount)

variable {self}

theorem exists_guild {s : State} {guildId : Id .guild} {count : UInt64} (h : s.memberCount guildId = some count) :
    ∃ guild, s.hashes .guilds guildId = some guild ∧ guild.memberCount = some count :=
  Option.bind_eq_some_iff.mp h

theorem memberCount_memberAdd (hw : self.config.wants .guild = true) {s : State} (hs : s.Keyed) {guildId : Id .guild}
    {count : UInt64} (h : s.memberCount guildId = some count) (member : Member) :
    (self.applyEvents [.memberAdd guildId member] s).memberCount guildId = some (saturatingIncr count) := by
  obtain ⟨guild, hguild, hcount⟩ := exists_guild h
  obtain rfl : guild.id = guildId := hs.guilds guildId guild hguild
  have hchange : (self.changeMemberCount guild.id saturatingIncr).exec eval s =
      (.ok (), s.setHash .guilds (Function.update (s.hashes .guilds) guild.id
        (some { guild with memberCount := guild.memberCount.map saturatingIncr }))) := by
    unfold changeMemberCount
    rw [Prog.exec_bind_ok (self.guilds.exec_get_of_some hguild rfl)]
    show Prog.exec eval (_ >>= fun _ => pure ()) s = _
    rw [Prog.exec_bind_ok (self.guilds.exec_insert hw _ _ s)]
    rfl
  show State.memberCount ((self.memberAdd guild.id member).exec eval s).2 guild.id = _
  unfold memberAdd
  rw [Prog.exec_bind_ok hchange, State.memberCount, (touches_cacheMember guild.id member).hashes (by decide),
    State.setHash_self, Function.update_self]
  exact congrArg (Option.map saturatingIncr) hcount

/-! ### Events about different things -/

/-- Neither event changes what the other one looks at or changes. -/
def Event.Apart (self : Cache) (s : State) (event event' : Event) : Prop :=
  Disjoint (Event.cells self s event) (Event.cells self s event' ∪ Event.looked event') ∧
    Disjoint (Event.looked event) (Event.cells self s event')

theorem Event.Apart.symm {s : State} {event event' : Event} (h : Event.Apart self s event event') :
    Event.Apart self s event' event := by
  obtain ⟨hchanged, hlooked⟩ := h
  rw [Set.disjoint_union_right] at hchanged
  exact ⟨Set.disjoint_union_right.mpr ⟨hchanged.1.symm, hlooked.symm⟩, hchanged.2.symm⟩

theorem not_conflict_of_within {cells looked cells' looked' : Set Cell} {o o' : Op} (ho : o.Within cells looked)
    (ho' : o'.Within cells' looked') (hchanged : Disjoint cells (cells' ∪ looked')) (hlooked : Disjoint looked cells') :
    ¬ footprint.Conflict o o' := by
  rw [Set.disjoint_left] at hchanged hlooked
  refine Footprint.not_conflict_iff.mpr ⟨fun c hc hc' => hchanged (ho.2 hc) (ho'.1 hc'), fun c hc hc' => ?_⟩
  rcases ho.1 hc' with hcell | hcell
  · exact hchanged hcell (.inl (ho'.2 hc))
  · exact hlooked hcell (ho'.2 hc)

/-- However their commands are mixed, updates with events that are apart end as one after the other, in either
order. -/
theorem run_eq_serial_of_apart {event : Side → Event} {s : State} (hs : s.Keyed)
    (hapart : Event.Apart self s (event .left) (event .right)) {schedule : List Side}
    (hdone : ((self.concurrently event s).run eval schedule).done = true) (first : Side) :
    ((self.concurrently event s).run eval schedule).store = self.applyEvents [event first, event first.other] s := by
  rw [← serial_concurrently]
  refine Threads.run_eq_serial_of_apart (fun _ _ => footprint.independent_of_not_conflict) schedule _ hdone ?_ first
  intro i o ho o' ho'
  have hapart : Event.Apart self s (event i) (event i.other) := by
    cases i
    · exact hapart
    · exact hapart.symm
  exact not_conflict_of_within (issues_update self hs (event i) o ho) (issues_update self hs (event i.other) o' ho')
    hapart.1 hapart.2

/-! ### Events with a part of their own -/

section Isolated
variable {α β : Type} {own other : State → β} {Q : Except Error α → β → Prop} {b : β} {h : HashName} {wanted : Bool}

theorem get_new_eq (key : h.Field) : (Repository.new h wanted).get key = send (.hget h key) := by
  refine congrArg (Prog.call (Op.hget h key)) (funext fun entry => ?_)
  cases entry <;> rfl

theorem isolated_get {key : h.Field} {f : Option h.Entry → CacheM α}
    (hf : ∀ s, own s = b → (f (s.hashes h key)).Isolated eval own other Q b) :
    ((Repository.new h wanted).get key >>= f).Isolated eval own other Q b := by
  rw [get_new_eq]
  refine Prog.Isolated.send fun s hs => ⟨rfl, ?_⟩
  have hsame : own (eval (.hget h key) s).2 = b := hs
  rw [hsame]
  exact hf s hs

variable (hw : wanted = true)
include hw

theorem isolated_insert {key : h.Field} {value : h.Entry} {f : Bool → CacheM α}
    (hf : ∀ s, own s = b → other (s.hset h key value) = other s ∧
      ∀ added, (f added).Isolated eval own other Q (own (s.hset h key value))) :
    ((Repository.new h wanted).insert key value >>= f).Isolated eval own other Q b := by
  subst hw
  exact Prog.Isolated.bind fun s hs => ⟨(hf s hs).1, (hf s hs).2 _⟩

theorem isolated_remove {key : h.Field} {f : Bool → CacheM α}
    (hf : ∀ s, own s = b → other (s.hdel h {key}) = other s ∧
      ∀ removed, (f removed).Isolated eval own other Q (own (s.hdel h {key}))) :
    ((Repository.new h wanted).remove key >>= f).Isolated eval own other Q b := by
  subst hw
  exact Prog.Isolated.bind fun s hs => ⟨(hf s hs).1, (hf s hs).2 _⟩

end Isolated

/-! Two messages in different channels. -/

/-- The list of the message's channel, and what is stored under its id. -/
def messagePart (message : Message) (s : State) : Option (List (Id .message)) × Option CachedMessage :=
  (s.hashes .channelMessages message.channelId, s.hashes .messages message.id)

section Messages
variable {message other : Message} {s : State}

theorem messagePart_hset_list (list : List (Id .message)) :
    messagePart message (s.hset .channelMessages message.channelId list) =
      (some list, s.hashes .messages message.id) := by
  rw [messagePart, State.hset_self, Function.update_self, State.hset_of_ne _ _ _ (by decide)]

theorem messagePart_hset_list_of_ne (hchannel : other.channelId ≠ message.channelId) (list : List (Id .message)) :
    messagePart other (s.hset .channelMessages message.channelId list) = messagePart other s := by
  rw [messagePart, State.hset_self, Function.update_of_ne hchannel, State.hset_of_ne _ _ _ (by decide)]
  rfl

theorem messagePart_hset (cached : CachedMessage) : messagePart message (s.hset .messages message.id cached) =
    (s.hashes .channelMessages message.channelId, some cached) := by
  rw [messagePart, State.hset_self, Function.update_self, State.hset_of_ne _ _ _ (by decide)]

theorem messagePart_hset_of_ne (hid : other.id ≠ message.id) (cached : CachedMessage) :
    messagePart other (s.hset .messages message.id cached) = messagePart other s := by
  rw [messagePart, State.hset_self, Function.update_of_ne hid, State.hset_of_ne _ _ _ (by decide)]
  rfl

theorem messagePart_hdel (id : Id .message) :
    (messagePart message (s.hdel .messages {id})).1 = (messagePart message s).1 := by
  rw [messagePart, State.hdel_of_ne _ _ (by decide)]
  rfl

theorem messagePart_hdel_of_ne {id : Id .message} (hid : id ≠ other.id) :
    messagePart other (s.hdel .messages {id}) = messagePart other s := by
  have hkept : other.id ∉ ({id} : Finset (Id .message)) := fun h => hid (Finset.mem_singleton.mp h).symm
  rw [messagePart, State.hdel_self, State.hdel_of_ne _ _ (by decide)]
  dsimp only
  rw [if_neg hkept]
  rfl

theorem messagePart_eval {o : Op} (ho : o.area ∈ memberAreas self.usersName.areas) :
    messagePart message (eval o s).2 = messagePart message s := by
  have hareas : ∀ a ∈ memberAreas self.usersName.areas, a ≠ .hash .channelMessages ∧ a ≠ .hash .messages := by
    cases self.usersName <;> decide
  obtain ⟨hlist, hmessages⟩ := hareas _ ho
  rw [messagePart, eval_hashes hlist, eval_hashes hmessages]
  rfl

/-- The message that has to go is not the other one. -/
theorem isolated_pop (hw : self.config.wants .message = true) {popped : Option (Id .message)}
    (hpopped : ∀ id ∈ popped, id ≠ other.id) {α : Type}
    {Q : Except Error α → Option (List (Id .message)) × Option CachedMessage → Prop} {next : CacheM α}
    {list : Option (List (Id .message))}
    (hnext : ∀ stored, next.Isolated eval (messagePart message) (messagePart other) Q (list, stored))
    (stored : Option CachedMessage) : Prog.Isolated eval (messagePart message) (messagePart other) Q (do
      popped.forM fun id => do
        let _ ← self.messages.remove id
        pure ()
      next) (list, stored) := by
  cases popped with
  | none => exact hnext stored
  | some id =>
    show Prog.Isolated _ _ _ _ ((self.messages.remove id >>= fun _ => pure ()) >>= fun _ => next) _
    rw [bind_assoc]
    refine isolated_remove hw fun s hs => ⟨messagePart_hdel_of_ne (hpopped id rfl), fun _ => ?_⟩
    have hlist : (messagePart message (s.hdel .messages {id})).1 = list :=
      (messagePart_hdel id).trans (congrArg Prod.fst hs)
    rw [pure_bind, ← Prod.mk.eta (p := messagePart message (s.hdel .messages {id})), hlist]
    exact hnext _

variable (hchannel : other.channelId ≠ message.channelId) (hid : other.id ≠ message.id)
include hchannel hid

theorem isolated_storeMessage (hw : self.config.wants .message = true) (list : List (Id .message))
    (part : Option (List (Id .message)) × Option CachedMessage) :
    Prog.Isolated eval (messagePart message) (messagePart other)
      (fun (result : Except Error Unit) part => result = .ok () →
        part = (some list, some (.fromMessage message))) (do
      let _ ← self.channelMessages.insert message.channelId list
      let _ ← self.messages.insert message.id (.fromMessage message)
      pure ()) part := by
  refine isolated_insert hw fun s _ => ⟨messagePart_hset_list_of_ne hchannel list, fun _ => ?_⟩
  rw [messagePart_hset_list]
  refine isolated_insert hw fun t ht => ⟨messagePart_hset_of_ne hid _, fun _ _ => ?_⟩
  have hlist : t.hashes .channelMessages message.channelId = some list := congrArg Prod.fst ht
  rw [messagePart_hset, hlist]

/-- When the other message is not on the list that this one is pushed on. -/
theorem isolated_messageCreate (hw : self.config.wants .message = true) {list : Option (List (Id .message))}
    {stored : Option CachedMessage} (hlist : other.id ∉ list.getD []) :
    (self.messageCreate message).Isolated eval (messagePart message) (messagePart other)
      (fun result part => result = .ok () →
        part = (some (message.id :: Recent.room self.config.messageCacheSize (list.getD [])),
          some (.fromMessage message))) (list, stored) := by
  refine Prog.Isolated.bind (Prog.Isolated.of_all (Prog.All.imp (touches_cacheAuthor message) fun o ho s =>
    ⟨messagePart_eval ho, messagePart_eval ho⟩) fun result => ?_)
  cases result with
  | error e => exact fun h => nomatch h
  | ok a =>
    dsimp only
    rw [pushMessage, bind_assoc]
    refine isolated_get fun s hs => ?_
    have hread : s.hashes .channelMessages message.channelId = list := congrArg Prod.fst hs
    rw [hread]
    dsimp only
    rw [bind_assoc]
    refine isolated_pop hw (fun id hpopped heq => hlist ?_) (fun stored => ?_) stored
    · split_ifs at hpopped with hfull
      · exact heq ▸ List.mem_of_getLast? hpopped
      · cases hpopped
    · simp only [bind_assoc, pure_bind]
      have hroom : Recent.room self.config.messageCacheSize (list.getD []) =
          if decide ((list.getD []).length ≥ self.config.messageCacheSize) = true then (list.getD []).dropLast
          else list.getD [] := by
        simp only [Recent.room, decide_eq_true_eq, ge_iff_le]
      rw [hroom]
      exact isolated_storeMessage hchannel hid hw _ _

end Messages

/-! Members of different guilds. -/

theorem isolated_memberAdd (hw : self.config.wants .guild = true) {guildId other : Id .guild} (hne : other ≠ guildId)
    {guild : CachedGuild} (hid : guild.id = guildId) (member : Member) :
    (self.memberAdd guildId member).Isolated eval (·.hashes .guilds guildId) (·.hashes .guilds other)
      (fun _ part => part = some { guild with memberCount := guild.memberCount.map saturatingIncr }) (some guild) := by
  subst hid
  have hareas : .hash .guilds ∉ memberAreas self.usersName.areas := by cases self.usersName <;> decide
  unfold memberAdd changeMemberCount
  rw [bind_assoc]
  refine isolated_get fun s hs => ?_
  rw [hs]
  show Prog.Isolated _ _ _ _ ((self.guilds.insert guild.id _ >>= fun _ => pure ()) >>= fun _ => _) _
  rw [bind_assoc]
  refine isolated_insert hw fun t _ => ⟨?_, fun _ => ?_⟩
  · rw [State.hset_self, Function.update_of_ne hne]
  · rw [State.hset_self, Function.update_self, pure_bind]
    have hkept : ∀ o : Op, o.area ∈ memberAreas self.usersName.areas →
        ∀ u, (eval o u).2.hashes .guilds = u.hashes .guilds :=
      fun o ho u => eval_hashes (fun heq => hareas (heq ▸ ho)) u
    refine Prog.Isolated.of_all (Prog.All.imp (touches_cacheMember_own guild.id member) fun o ho u => ?_) fun _ => rfl
    exact ⟨congrFun (hkept o ho u) _, congrFun (hkept o ho u) _⟩

/-! ### Serializability -/

section Runs
variable {event : Side → Event} {s : State} {schedule : List Side}

theorem run_eq_serial_of_ordered (hdone : ((self.concurrently event s).run eval schedule).done = true) {first : Side}
    (hordered : self.ConflictsOrdered event s schedule first) :
    ((self.concurrently event s).run eval schedule).store = self.applyEvents [event first, event first.other] s := by
  rw [← serial_concurrently]
  exact Threads.run_eq_serial (fun _ _ => footprint.independent_of_not_conflict) hdone hordered

/-- Reactions to different messages are apart: what they both look at neither of them changes. -/
theorem apart_reactionAdd {reaction reaction' : GatewayReaction} (h : reaction.messageId ≠ reaction'.messageId) :
    Event.Apart self s (.reactionAdd reaction) (.reactionAdd reaction') := by
  have hne : Cell.field .messages reaction.messageId ≠ .field .messages reaction'.messageId := by
    intro heq
    rw [Cell.field.injEq] at heq
    exact h (eq_of_heq heq.2)
  simp only [Event.Apart, Event.cells, Event.looked, Set.disjoint_singleton_left, Set.disjoint_singleton_right,
    Set.mem_union, Set.mem_singleton_iff, not_or]
  exact ⟨⟨hne, nofun⟩, nofun⟩

/-- A join and the private message of another user are apart. -/
theorem apart_memberAdd_messageCreate {guildId : Id .guild} {member : Member} {message : Message}
    (hprivate : message.guildId = none)
    (husers : self.users.field member.user.id ≠ self.users.field message.author.id) :
    Event.Apart self s (.memberAdd guildId member) (.messageCreate message) := by
  have hhash : self.usersName.hash ≠ .messages ∧ self.usersName.hash ≠ .channelMessages ∧
      self.usersName.hash ≠ .guilds ∧ self.usersName.hash ≠ .members := by
    cases self.usersName <;> decide
  obtain ⟨hmessages, hlists, hguilds, hmembers⟩ := hhash
  refine ⟨Set.disjoint_left.mpr ?_, Set.empty_disjoint _⟩
  intro c hjoin hmessage
  simp only [Event.cells, cachedMemberCells, memberCells, familyCells, userCells, authorCells, messageCells, hprivate,
    Option.mem_def, Option.some.injEq, reduceCtorEq, Set.iUnion_false, Set.iUnion_empty, Set.union_empty,
    Set.iUnion_iUnion_eq_right, Set.mem_union, Set.mem_insert_iff, Set.mem_singleton_iff, Set.mem_ofPred_eq]
    at hjoin hmessage
  rcases hmessage with (rfl | (rfl | rfl) | ⟨_, _, rfl⟩) | hlooked
  · -- the author's own entry
    simp [hguilds, hmembers, husers.symm] at hjoin
  · simp [Ne.symm hmessages] at hjoin
  · simp [Ne.symm hlists] at hjoin
  · simp [Ne.symm hmessages] at hjoin
  · exact hlooked

variable (hdone : ((self.concurrently event s).run eval schedule).done = true)

section Members
variable (hs : s.Keyed) (hw : self.config.wants .guild = true) {guildId : Side → Id .guild} {member : Side → Member}
  {count : Side → UInt64} (hevent : ∀ i, event i = .memberAdd (guildId i) (member i))
  (hcount : ∀ i, s.memberCount (guildId i) = some (count i))
include hdone hs hw hevent hcount

theorem memberCount_of_different_guilds (hne : guildId .left ≠ guildId .right) (i : Side) :
    ((self.concurrently event s).run eval schedule).store.memberCount (guildId i) =
      some (saturatingIncr (count i)) := by
  have hother : ∀ i, guildId i.other ≠ guildId i := by
    intro i
    cases i
    · exact hne.symm
    · exact hne
  have hguild : ∀ i, ∃ guild, s.hashes .guilds (guildId i) = some guild ∧ guild.memberCount = some (count i) :=
    fun i => exists_guild (hcount i)
  choose guild hguild hcount using hguild
  obtain ⟨result, hresult⟩ := Prog.exists_result (Threads.progs_done hdone i)
  have hpart := Threads.run_isolated (fun i s => s.hashes .guilds (guildId i))
    (fun i _ part => part = some { guild i with memberCount := (guild i).memberCount.map saturatingIncr }) schedule
    (self.concurrently event s) (fun i => ?_) i hresult
  · rw [State.memberCount, hpart]
    exact congrArg (Option.map saturatingIncr) (hcount i)
  · show Prog.Isolated _ _ _ _ (self.update (event i)) (s.hashes .guilds (guildId i))
    rw [hevent i, hguild i]
    exact isolated_memberAdd hw (hother i) (hs.guilds _ _ (hguild i)) (member i)

theorem memberCount_of_ordered (heq : guildId .left = guildId .right) {first : Side}
    (hordered : self.ConflictsOrdered event s schedule first) (i : Side) :
    ((self.concurrently event s).run eval schedule).store.memberCount (guildId i) =
      some (saturatingIncr (saturatingIncr (count i))) := by
  have hsame : ∀ j k, guildId j = guildId k := by
    intro j k
    cases j <;> cases k <;> first | rfl | exact heq | exact heq.symm
  have hserial : ((self.concurrently event s).run eval schedule).store =
      self.applyEvents [.memberAdd (guildId i) (member first.other)]
        (self.applyEvents [.memberAdd (guildId i) (member first)] s) := by
    rw [run_eq_serial_of_ordered hdone hordered, hevent, hevent, hsame first i, hsame first.other i]
    rfl
  rw [hserial]
  exact memberCount_memberAdd hw (keyed_update hs _) (memberCount_memberAdd hw hs (hcount i) _) _

end Members

section Messages
variable (hw : self.config.wants .message = true) {message : Side → Message}
  (hevent : ∀ i, event i = .messageCreate (message i))
  (hchannel : (message .left).channelId ≠ (message .right).channelId) (hid : (message .left).id ≠ (message .right).id)
  (hlist : ∀ i, (message i.other).id ∉ s.channelMessages (message i).channelId)
include hw hevent hchannel hid hlist

/-- Neither message gets lost, whoever their authors are. -/
theorem messages_of_different_channels (i : Side)
    (hresult : (((self.concurrently event s).run eval schedule).progs i).result = some (.ok ())) :
    messagePart (message i) ((self.concurrently event s).run eval schedule).store =
      (some ((message i).id :: Recent.room self.config.messageCacheSize (s.channelMessages (message i).channelId)),
        some (.fromMessage (message i))) := by
  have hother : ∀ i, (message i.other).channelId ≠ (message i).channelId ∧ (message i.other).id ≠ (message i).id := by
    intro i
    cases i
    · exact ⟨hchannel.symm, hid.symm⟩
    · exact ⟨hchannel, hid⟩
  refine Threads.run_isolated (fun i => messagePart (message i)) (fun i result part => result = .ok () →
    part = (some ((message i).id :: Recent.room self.config.messageCacheSize
      (s.channelMessages (message i).channelId)), some (.fromMessage (message i))))
    schedule (self.concurrently event s) (fun i => ?_) i hresult rfl
  show Prog.Isolated _ _ _ _ (self.update (event i)) (messagePart (message i) s)
  rw [hevent i]
  exact isolated_messageCreate (hother i).1 (hother i).2 hw (hlist i)

end Messages

end Runs

/-- Two handlers that update the cache at the same time end as one after the other, in either order, when their events
are about different things. -/
theorem concurrent_update_eq_serial (self : Cache) (event : Side → Event) (s : State) (hs : self.Reachable s)
    (schedule : List Side) (hdone : ((self.concurrently event s).run eval schedule).done = true) :
    let t := ((self.concurrently event s).run eval schedule).store
    (Event.Apart self s (event .left) (event .right) →
      ∀ first, t = self.applyEvents [event first, event first.other] s) ∧
    (∀ first, self.ConflictsOrdered event s schedule first → t = self.applyEvents [event first, event first.other] s) ∧
    (∀ (guildId : Side → Id .guild) (member : Side → Member) (count : Side → UInt64),
      (∀ i, event i = .memberAdd (guildId i) (member i)) → self.config.wants .guild = true →
      (∀ i, s.memberCount (guildId i) = some (count i)) →
      (guildId .left ≠ guildId .right → ∀ i, t.memberCount (guildId i) = some (saturatingIncr (count i))) ∧
      (guildId .left = guildId .right → (∃ first, self.ConflictsOrdered event s schedule first) →
        ∀ i, t.memberCount (guildId i) = some (saturatingIncr (saturatingIncr (count i))))) ∧
    (∀ reaction : Side → GatewayReaction, (∀ i, event i = .reactionAdd (reaction i)) →
      (reaction .left).messageId ≠ (reaction .right).messageId →
      ∀ first, t = self.applyEvents [event first, event first.other] s) ∧
    ∀ message : Side → Message, (∀ i, event i = .messageCreate (message i)) → self.config.wants .message = true →
      (message .left).channelId ≠ (message .right).channelId → (message .left).id ≠ (message .right).id →
      (∀ i, (message i.other).id ∉ s.channelMessages (message i).channelId) →
      ∀ i, (((self.concurrently event s).run eval schedule).progs i).result = some (.ok ()) →
        t.channelMessages (message i).channelId =
          (message i).id :: Recent.room self.config.messageCacheSize (s.channelMessages (message i).channelId) ∧
        t.hashes .messages (message i).id = some (.fromMessage (message i)) := by
  refine ⟨fun hapart first => run_eq_serial_of_apart hs.keyed hapart hdone first,
    fun first hordered => run_eq_serial_of_ordered hdone hordered, fun guildId member count hevent hw hcount => ?_,
    fun reaction hevent hne first => ?_, fun message hevent hw hchannel hid hlist i hresult => ?_⟩
  · exact ⟨fun hne => memberCount_of_different_guilds hdone hs.keyed hw hevent hcount hne,
      fun heq ⟨first, hordered⟩ => memberCount_of_ordered hdone hs.keyed hw hevent hcount heq hordered⟩
  · refine run_eq_serial_of_apart hs.keyed ?_ hdone first
    rw [hevent, hevent]
    exact apart_reactionAdd hne
  · have hpart := messages_of_different_channels hw hevent hchannel hid hlist i hresult
    exact ⟨congrArg (Option.getD · []) (congrArg Prod.fst hpart), congrArg Prod.snd hpart⟩

/-! ### Runs -/

def exampleGuildId : Id .guild := ⟨1, by decide⟩

def exampleMember (id : Id .user) : Member :=
  ⟨none, none, none, none, false, 0, none, false, none, false, none, [], ⟨id, "user"⟩⟩

def exampleMessage (id : Id .message) (author : Id .user) : Message :=
  ⟨⟨author, "user"⟩, ⟨21, by decide⟩, none, id, none, none, [], [], none, "hello"⟩

def exampleCache : Cache := .new (.all 100)

/-- A guild of five members has been created, and a message. -/
def exampleState : State :=
  exampleCache.applyEvents
    [.guildCreate (.available { Guild.bare exampleGuildId ⟨10, by decide⟩ with memberCount := some 5 }),
      .messageCreate (exampleMessage ⟨31, by decide⟩ ⟨10, by decide⟩)]
    .empty

/-- A user joins while a message of another one comes. -/
theorem concurrent_update_eq_serial_of_join_and_message :
    let event : Side → Event
      | .left => .memberAdd exampleGuildId (exampleMember ⟨11, by decide⟩)
      | .right => .messageCreate (exampleMessage ⟨32, by decide⟩ ⟨12, by decide⟩)
    let schedule := (List.replicate 8 [Side.left, .right]).flatten
    ∀ first, ((exampleCache.concurrently event exampleState).run eval schedule).store =
      exampleCache.applyEvents [event first, event first.other] exampleState := by
  intro event schedule
  refine (concurrent_update_eq_serial exampleCache event exampleState ⟨_, rfl⟩ schedule (by decide)).1 ?_
  exact apart_memberAdd_messageCreate rfl (by decide)

/-! ### Lost updates -/

/-- Two users join one guild. -/
def exampleJoins : Side → Event
  | .left => .memberAdd exampleGuildId (exampleMember ⟨11, by decide⟩)
  | .right => .memberAdd exampleGuildId (exampleMember ⟨12, by decide⟩)

/-- Two messages come in one channel. -/
def exampleMessages : Side → Event
  | .left => .messageCreate (exampleMessage ⟨32, by decide⟩ ⟨11, by decide⟩)
  | .right => .messageCreate (exampleMessage ⟨33, by decide⟩ ⟨12, by decide⟩)

/-- Two users react to one message. -/
def exampleReactions : Side → Event
  | .left => .reactionAdd ⟨false, .unicode "+1", ⟨31, by decide⟩, ⟨11, by decide⟩⟩
  | .right => .reactionAdd ⟨false, .unicode "+1", ⟨31, by decide⟩, ⟨12, by decide⟩⟩

/-- The counts of the reactions to the message. -/
def exampleCounts (s : State) : Option (List UInt64) :=
  (s.hashes .messages ⟨31, by decide⟩).map fun message => message.reactions.map (·.count)

/-- Both handlers read before one of them writes. -/
def exampleRun (event : Side → Event) (reads : ℕ) : Threads Error Op State Op.Reply Unit :=
  (exampleCache.concurrently event exampleState).run eval
    (List.replicate reads .left ++ List.replicate reads .right ++ List.replicate 7 .left ++ List.replicate 7 .right)

/-- A value that is not the same as after the serial runs. -/
theorem ne_serial {α : Type} {event : Side → Event} {t : State} (view : State → α)
    (h : ∀ first, view t ≠ view (exampleCache.applyEvents [event first, event first.other] exampleState))
    (first : Side) : t ≠ exampleCache.applyEvents [event first, event first.other] exampleState :=
  fun heq => h first (congrArg view heq)

theorem concurrent_updates_lost :
    exampleCache.Reachable exampleState ∧
      ((exampleRun exampleJoins 1).done = true ∧ exampleState.memberCount exampleGuildId = some 5 ∧
        (exampleRun exampleJoins 1).store.memberCount exampleGuildId = some 6 ∧
        ∀ first, (exampleRun exampleJoins 1).store ≠
          exampleCache.applyEvents [exampleJoins first, exampleJoins first.other] exampleState) ∧
      ((exampleRun exampleMessages 3).done = true ∧
        (exampleRun exampleMessages 3).store.channelMessages ⟨21, by decide⟩ = [⟨33, by decide⟩, ⟨31, by decide⟩] ∧
        ∀ first, (exampleRun exampleMessages 3).store ≠
          exampleCache.applyEvents [exampleMessages first, exampleMessages first.other] exampleState) ∧
      (exampleRun exampleReactions 1).done = true ∧ exampleCounts (exampleRun exampleReactions 1).store = some [1] ∧
        ∀ first, (exampleRun exampleReactions 1).store ≠
          exampleCache.applyEvents [exampleReactions first, exampleReactions first.other] exampleState := by
  refine ⟨⟨_, rfl⟩, ⟨by decide, by decide, by decide, ?_⟩, ⟨by decide, by decide, ?_⟩, by decide, by decide, ?_⟩
  · exact ne_serial (·.memberCount exampleGuildId) fun first => by cases first <;> decide
  · exact ne_serial (·.channelMessages ⟨21, by decide⟩) fun first => by cases first <;> decide
  · exact ne_serial exampleCounts fun first => by cases first <;> decide

end Tulpje.Cache
