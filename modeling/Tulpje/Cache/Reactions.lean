import Tulpje.Cache.Messages
import Tulpje.Lib.Tally

/-!
# Reactions as a set of pairs

The reactions of a cached message stand for the set of pairs of a user and an emoji: `react` says what each
reaction event does to this set, and `Reacted` that a stored message tallies it (`Lib.Tallies`). Emojis are
the same as in `reactions_eq`, so their identity is the id of a custom emoji and the name of a unicode one.

A count is below 2^64 because there are fewer user ids than that, so adding one does not overflow.
-/

namespace Tulpje.Cache

open Twilight Lib

/-! ### Emojis -/

inductive EmojiIdentity
  | custom (id : Id .emoji)
  | unicode (name : String)
  deriving DecidableEq

def emojiIdentity : EmojiReactionType → EmojiIdentity
  | .custom _ id _ => .custom id
  | .unicode name => .unicode name

theorem reactionsEq_eq (a b : EmojiReactionType) :
    reactionsEq a b = decide (emojiIdentity a = emojiIdentity b) := by
  cases a <;> cases b <;> simp [reactionsEq, emojiIdentity, beq_eq_decide]

/-! ### The set of pairs -/

abbrev Reacting := Finset (Id .user × EmojiIdentity)

def react (R : Reacting) : Event → Reacting
  | .reactionAdd reaction => insert (reaction.userId, emojiIdentity reaction.emoji) R
  | .reactionRemove reaction => R.erase (reaction.userId, emojiIdentity reaction.emoji)
  | .reactionRemoveAll _ => ∅
  | .reactionRemoveEmoji _ emoji => R.filter (·.2 ≠ emojiIdentity emoji)
  | _ => R

/-- A reaction event for this message; a user adds what it does not have and removes what it has. -/
def CanReact (message : Id .message) (R : Reacting) : Event → Prop
  | .reactionAdd reaction =>
    reaction.messageId = message ∧ (reaction.userId, emojiIdentity reaction.emoji) ∉ R
  | .reactionRemove reaction =>
    reaction.messageId = message ∧ (reaction.userId, emojiIdentity reaction.emoji) ∈ R
  | .reactionRemoveAll messageId | .reactionRemoveEmoji messageId _ => messageId = message
  | _ => False

/-- One entry for each emoji with a user, which counts its users and knows whether `current` is one. -/
def TalliesReactions (current : Id .user) (R : Reacting) (reactions : List Reaction) : Prop :=
  Tallies (fun r : Reaction => emojiIdentity r.emoji) (fun r => r.count.toNat) (·.me) current R reactions

/-- There are fewer users than a `u64` can count. -/
theorem card_usersOf_lt (R : Reacting) (k : EmojiIdentity) :
    (usersOf R k).card < UInt64.size := by
  have hinj : Set.InjOn (fun p : Id .user × EmojiIdentity => p.1.get.toNat) (usersOf R k) := by
    rintro ⟨u, k'⟩ hp ⟨v, k''⟩ hq heq
    have hkey : k' = k'' := (mem_usersOf.mp hp).2.trans (mem_usersOf.mp hq).2.symm
    exact Prod.ext (Id.get_injective .user (UInt64.toNat_inj.mp heq)) hkey
  have hmaps : ∀ p ∈ usersOf R k, p.1.get.toNat ∈ (Finset.range UInt64.size).erase 0 := by
    intro p _
    refine Finset.mem_erase.mpr ⟨fun h0 => p.1.ne_zero (UInt64.toNat_inj.mp h0), ?_⟩
    exact Finset.mem_range.mpr p.1.get.toNat_lt_size
  have hle := Finset.card_le_card_of_injOn _ hmaps hinj
  have hzero : 0 ∈ Finset.range UInt64.size := Finset.mem_range.mpr (by decide)
  rw [Finset.card_erase_of_mem hzero, Finset.card_range] at hle
  exact lt_of_le_of_lt hle (by decide)

theorem toNat_succ {x : UInt64} (h : x.toNat + 1 < UInt64.size) : (x + 1).toNat = x.toNat + 1 := by
  rw [UInt64.toNat_add]
  exact Nat.mod_eq_of_lt h

theorem toNat_pred {x : UInt64} (h : 1 < x.toNat) : (x - 1).toNat + 1 = x.toNat := by
  have hle : (1 : UInt64) ≤ x := UInt64.le_iff_toNat_le.mpr h.le
  rw [UInt64.toNat_sub_of_le x 1 hle]
  exact Nat.sub_add_cancel h.le

/-! ### The list edits -/

section Edits
variable {α K : Type} [DecidableEq K] {key : α → K} {l : List α}

theorem updateFirst_eq_map (hl : (l.map key).Nodup) (k : K) (f : α → α) :
    updateFirst (fun a => decide (key a = k)) f l = l.map fun a => if key a = k then f a else a := by
  induction l with
  | nil => rfl
  | cons a l ih =>
    obtain ⟨ha, hl⟩ := List.nodup_cons.mp hl
    rw [updateFirst, List.map_cons]
    by_cases hk : key a = k
    · subst hk
      have hne : ∀ b ∈ l, key b ≠ key a := fun b hb heq => ha (heq ▸ List.mem_map_of_mem hb)
      have hrest : (l.map fun b => if key b = key a then f b else b) = l.map id :=
        List.map_congr_left fun b hb => if_neg (hne b hb)
      rw [hrest, List.map_id, if_pos (by simp), if_pos rfl]
    · rw [if_neg hk, if_neg (by simpa using hk), ih hl]

theorem eraseP_eq_filter (hl : (l.map key).Nodup) (k : K) :
    l.eraseP (fun a => decide (key a = k)) = l.filter fun a => key a ≠ k := by
  induction l with
  | nil => rfl
  | cons a l ih =>
    obtain ⟨ha, hl⟩ := List.nodup_cons.mp hl
    by_cases hk : key a = k
    · subst hk
      rw [List.eraseP_cons_of_pos (by simp), List.filter_cons_of_neg (by simp)]
      have hne : ∀ b ∈ l, key b ≠ key a := fun b hb heq => ha (heq ▸ List.mem_map_of_mem hb)
      exact (List.filter_eq_self.mpr fun b hb => by simpa using hne b hb).symm
    · rw [List.eraseP_cons_of_neg (by simpa using hk), List.filter_cons_of_pos (by simpa using hk), ih hl]

end Edits

/-! ### What the handlers leave -/

/-- What `ReactionAdd` leaves; `isCurrent` says whether the user is the current one. -/
def addReaction (emoji : EmojiReactionType) (isCurrent : Bool) (reactions : List Reaction) : List Reaction :=
  let same := fun r : Reaction => reactionsEq r.emoji emoji
  match reactions.find? same with
  | some found => updateFirst same (fun r => { r with me := found.me || isCurrent, count := r.count + 1 }) reactions
  | none => reactions ++ [⟨[], 1, ⟨0, 1⟩, emoji, isCurrent, false⟩]

def removeReaction (emoji : EmojiReactionType) (isCurrent : Bool) (reactions : List Reaction) : List Reaction :=
  let same := fun r : Reaction => reactionsEq r.emoji emoji
  match reactions.find? same with
  | some found =>
    if found.count > 1 then
      updateFirst same (fun r => { r with me := found.me && !isCurrent, count := r.count - 1 }) reactions
    else
      reactions.filter fun r => !same r
  | none => reactions

section Handlers
variable {self : Cache} {s : State} {message : CachedMessage} {m : Id .message} {reaction : GatewayReaction}
  {isCurrent : Bool}

theorem exec_isCurrentUser_of (hu : self.config.wants .userCurrent = true) {current : CachedCurrentUser}
    (h : s.currentUser = some current) (userId : Id .user) :
    (self.isCurrentUser userId).exec eval s = (.ok (current.id == userId), s) := by
  have hget : self.currentUser.get.exec eval s = (.ok (some current), s) := by
    unfold SingleRepository.get
    rw [show self.currentUser.wanted = true from hu]
    exact congrArg (fun user => (Except.ok user, s)) h
  unfold isCurrentUser
  rw [Prog.exec_bind_ok hget]
  rfl

variable (hw : self.config.wants .message = true)

include hw

/-- The end of the four updates. -/
theorem wp_writeReactions (reactions : List Reaction) {E : State → Prop} :
    (do
      let _ ← self.messages.insert message.id { message with reactions }
      pure () : CacheM Unit).wp eval
        (fun _ t => t = s.hset .messages message.id { message with reactions }) E s := by
  simp only [messages, Prog.wp_bind, Repository.wp_insert_new hw, Prog.wp_pure]

section
variable (hstored : s.hashes .messages reaction.messageId = some message)
  (hread : (self.isCurrentUser reaction.userId).exec eval s = (.ok isCurrent, s))

include hstored hread

theorem exec_reactionAdd : ((self.reactionAdd reaction).exec eval s).2 = s.hset .messages message.id
    { message with reactions := addReaction reaction.emoji isCurrent message.reactions } := by
  refine Prog.exec_of_wp (I := (· = _)) (Prog.wp_bind.mpr ((Repository.wp_get_new _).mpr ?_))
  rw [hstored, wp_forM_some, addReaction]
  rcases hfind : message.reactions.find? (fun r => reactionsEq r.emoji reaction.emoji) with _ | found
  · simp only [hfind]
    rw [Prog.wp_bind, Prog.wp_of_exec hread]
    exact wp_writeReactions hw _
  · simp only [hfind]
    cases hme : found.me with
    | true => exact wp_writeReactions hw _
    | false =>
      rw [if_neg Bool.false_ne_true, Prog.wp_bind, Prog.wp_of_exec hread]
      exact wp_writeReactions hw _

theorem exec_reactionRemove : ((self.reactionRemove reaction).exec eval s).2 = s.hset .messages message.id
    { message with reactions := removeReaction reaction.emoji isCurrent message.reactions } := by
  refine Prog.exec_of_wp (I := (· = _)) (Prog.wp_bind.mpr ((Repository.wp_get_new _).mpr ?_))
  rw [hstored, wp_forM_some, removeReaction]
  rcases hfind : message.reactions.find? (fun r => reactionsEq r.emoji reaction.emoji) with _ | found
  · simp only [hfind]
    exact wp_writeReactions hw _
  · simp only [hfind]
    cases hme : found.me with
    | true =>
      rw [if_pos rfl, Prog.wp_bind, Prog.wp_of_exec hread]
      exact wp_writeReactions hw _
    | false => exact wp_writeReactions hw _

end

theorem exec_reactionRemoveAll (hstored : s.hashes .messages m = some message) :
    ((self.reactionRemoveAll m).exec eval s).2 =
      s.hset .messages message.id { message with reactions := [] } := by
  refine Prog.exec_of_wp (I := (· = _)) (Prog.wp_bind.mpr ((Repository.wp_get_new _).mpr ?_))
  rw [hstored, wp_forM_some]
  exact wp_writeReactions hw []

theorem exec_reactionRemoveEmoji (hstored : s.hashes .messages m = some message) (emoji : EmojiReactionType) :
    ((self.reactionRemoveEmoji m emoji).exec eval s).2 = s.hset .messages message.id
      { message with reactions := message.reactions.eraseP fun r => reactionsEq r.emoji emoji } := by
  refine Prog.exec_of_wp (I := (· = _)) (Prog.wp_bind.mpr ((Repository.wp_get_new _).mpr ?_))
  rw [hstored, wp_forM_some]
  exact wp_writeReactions hw _

end Handlers

/-! ### The tally -/

section Tallied
variable {current userId : Id .user} {emoji : EmojiReactionType} {R : Reacting} {reactions : List Reaction}

namespace TalliesReactions

/-- The entry that is found for an emoji is the only one. -/
theorem only_found (h : TalliesReactions current R reactions) {found : Reaction}
    (hfind : reactions.find? (fun r => reactionsEq r.emoji emoji) = some found) :
    emojiIdentity emoji ∈ reactions.map (fun r => emojiIdentity r.emoji) ∧
      ∀ r ∈ reactions, emojiIdentity r.emoji = emojiIdentity emoji → r = found := by
  have hfound : found ∈ reactions := List.mem_of_find?_eq_some hfind
  have hkey : emojiIdentity found.emoji = emojiIdentity emoji := by
    simpa [reactionsEq_eq] using List.find?_some hfind
  constructor
  · exact List.mem_map.mpr ⟨found, hfound, hkey⟩
  · exact fun r hr hrk => List.inj_on_of_nodup_map h.nodup hr hfound (hrk.trans hkey.symm)

theorem notMem_of_find? (hfind : reactions.find? (fun r => reactionsEq r.emoji emoji) = none) :
    emojiIdentity emoji ∉ reactions.map fun r => emojiIdentity r.emoji := by
  intro hmem
  obtain ⟨r, hr, hkey⟩ := List.mem_map.mp hmem
  exact absurd hkey (by simpa [reactionsEq_eq] using List.find?_eq_none.mp hfind r hr)

theorem add (h : TalliesReactions current R reactions) (hnew : (userId, emojiIdentity emoji) ∉ R) :
    TalliesReactions current (insert (userId, emojiIdentity emoji) R)
      (addReaction emoji (current == userId) reactions) := by
  unfold addReaction
  rcases hfind : reactions.find? (fun r => reactionsEq r.emoji emoji) with _ | found
  · -- the first user of the emoji
    simp only [hfind]
    exact h.append (notMem_of_find? hfind) rfl rfl (by simp)
  · obtain ⟨hmem, honly⟩ := h.only_found hfind
    simp only [hfind]
    simp only [reactionsEq_eq]
    rw [updateFirst_eq_map h.nodup]
    refine h.increase hmem hnew (fun _ => rfl) (fun r hr hrk => ?_) fun r hr hrk => ?_
    · refine toNat_succ ?_
      have hlt := card_usersOf_lt (insert (userId, emojiIdentity emoji) R) (emojiIdentity emoji)
      rwa [card_usersOf_insert hnew, ← hrk, ← h.count r hr] at hlt
    · obtain rfl := honly r hr hrk
      simp

theorem remove (h : TalliesReactions current R reactions) (hold : (userId, emojiIdentity emoji) ∈ R) :
    TalliesReactions current (R.erase (userId, emojiIdentity emoji))
      (removeReaction emoji (current == userId) reactions) := by
  unfold removeReaction
  rcases hfind : reactions.find? (fun r => reactionsEq r.emoji emoji) with _ | found
  · exact absurd ((h.mem _).mpr ⟨userId, hold⟩) (notMem_of_find? hfind)
  · have honly := (h.only_found hfind).2
    simp only [hfind]
    simp only [reactionsEq_eq]
    split_ifs with hcount
    · rw [updateFirst_eq_map h.nodup]
      refine h.decrease hold (fun _ => rfl) (fun r hr hrk => ?_) fun r hr hrk => ?_
      · obtain rfl := honly r hr hrk
        have hlt : 1 < r.count.toNat := UInt64.lt_iff_toNat_lt.mp hcount
        exact ⟨hlt, toNat_pred hlt⟩
      · obtain rfl := honly r hr hrk
        simp
    · have hfilter : (fun r : Reaction => !decide (emojiIdentity r.emoji = emojiIdentity emoji)) =
          fun r => decide (emojiIdentity r.emoji ≠ emojiIdentity emoji) :=
        funext fun r => (decide_not ..).symm
      rw [hfilter]
      refine h.drop_last hold fun r hr hrk => ?_
      obtain rfl := honly r hr hrk
      exact not_lt.mp fun hlt => hcount (UInt64.lt_iff_toNat_lt.mpr hlt)

theorem removeEmoji (h : TalliesReactions current R reactions) (emoji : EmojiReactionType) :
    TalliesReactions current (R.filter (·.2 ≠ emojiIdentity emoji))
      (reactions.eraseP fun r => reactionsEq r.emoji emoji) := by
  simp only [reactionsEq_eq]
  rw [eraseP_eq_filter h.nodup]
  exact h.drop _

end TalliesReactions

end Tallied

/-! ### The four events -/

section Events
variable {self : Cache} {m : Id .message} {message : CachedMessage} {current : CachedCurrentUser}
  {R : Reacting} {s : State}

/-- The message is stored under its id with a tally of `R`, its other fields as they were, and the current
user is cached. -/
structure Reacted (m : Id .message) (message : CachedMessage) (current : CachedCurrentUser) (R : Reacting)
    (s : State) : Prop where
  id : message.id = m
  user : s.currentUser = some current
  stored : ∃ reactions, s.hashes .messages m = some { message with reactions } ∧
    TalliesReactions current.id R reactions

theorem Reacted.write (h : Reacted m message current R s) {R' : Reacting} {reactions : List Reaction}
    (ht : TalliesReactions current.id R' reactions) :
    Reacted m message current R' (s.hset .messages message.id { message with reactions }) := by
  refine ⟨h.id, h.user, reactions, ?_, ht⟩
  rw [h.id, State.hset_self, Function.update_self]

theorem Reacted.update (hw : self.config.wants .message = true)
    (hu : self.config.wants .userCurrent = true) (h : Reacted m message current R s) {event : Event}
    (hok : CanReact m R event) :
    Reacted m message current (react R event) ((self.update event).exec eval s).2 := by
  obtain ⟨reactions, hstored, ht⟩ := h.stored
  cases event with
  | reactionAdd reaction =>
    obtain ⟨rfl, hnew⟩ := hok
    have hexec := exec_reactionAdd hw hstored (exec_isCurrentUser_of hu h.user reaction.userId)
    exact hexec ▸ h.write (ht.add hnew)
  | reactionRemove reaction =>
    obtain ⟨rfl, hold⟩ := hok
    have hexec := exec_reactionRemove hw hstored (exec_isCurrentUser_of hu h.user reaction.userId)
    exact hexec ▸ h.write (ht.remove hold)
  | reactionRemoveAll messageId =>
    obtain rfl : messageId = m := hok
    exact exec_reactionRemoveAll hw hstored ▸ h.write tallies_nil
  | reactionRemoveEmoji messageId emoji =>
    obtain rfl : messageId = m := hok
    exact exec_reactionRemoveEmoji hw hstored emoji ▸ h.write (ht.removeEmoji emoji)
  | _ => exact hok.elim

theorem Reacted.applyEvents (hw : self.config.wants .message = true)
    (hu : self.config.wants .userCurrent = true) (h : Reacted m message current R s)
    {events : List Event} (hevents : AllSteps react (CanReact m) R events) :
    Reacted m message current (events.foldl react R) (self.applyEvents events s) := by
  induction events generalizing R s with
  | nil => exact h
  | cons event events ih => exact ih (h.update hw hu hevents.1) hevents.2

end Events

/-- Where a message without reactions and the current user are cached, any sequence of reaction events for the
message leaves it with the tally of the set of pairs that the events describe: one entry for each emoji with
a user, the number of its users, and whether the current user is one of them. -/
theorem reactions_tally (self : Cache) (hw : self.config.wants .message = true)
    (hu : self.config.wants .userCurrent = true) (m : Id .message) (message : CachedMessage)
    (current : CachedCurrentUser) (s : State) (hs : self.Reachable s)
    (hstored : s.hashes .messages m = some message) (hnone : message.reactions = [])
    (huser : s.currentUser = some current) (events : List Event)
    (hevents : AllSteps react (CanReact m) ∅ events) :
    ∃ reactions, (self.applyEvents events s).hashes .messages m = some { message with reactions } ∧
      TalliesReactions current.id (events.foldl react ∅) reactions := by
  have hid : message.id = m := (hs.stored_message m message hstored).1
  refine (Reacted.applyEvents hw hu ⟨hid, huser, message.reactions, hstored, ?_⟩ hevents).stored
  rw [hnone]
  exact tallies_nil

/-- Two users add an emoji, and the first of them removes it again. -/
theorem reactions_tally_of_two :
    let emoji : EmojiReactionType := .unicode "wave"
    let message : Message :=
      ⟨⟨⟨7, by decide⟩, ""⟩, ⟨2, by decide⟩, none, ⟨5, by decide⟩, none, none, [], [], none, "hi"⟩
    let s := (new (.all 100)).applyEvents
      [.userUpdate ⟨⟨1, by decide⟩, ""⟩, .messageCreate message] .empty
    let events : List Event :=
      [.reactionAdd ⟨false, emoji, message.id, ⟨1, by decide⟩⟩,
        .reactionAdd ⟨false, emoji, message.id, ⟨7, by decide⟩⟩,
        .reactionRemove ⟨false, emoji, message.id, ⟨1, by decide⟩⟩]
    ∃ reactions, ((new (.all 100)).applyEvents events s).hashes .messages message.id =
        some { CachedMessage.fromMessage message with reactions } ∧
      TalliesReactions ⟨1, by decide⟩ (events.foldl react ∅) reactions := by
  intro emoji message s events
  refine reactions_tally (new (.all 100)) rfl rfl message.id (.fromMessage message)
    ⟨⟨1, by decide⟩, ""⟩ s ⟨_, rfl⟩ rfl rfl rfl events ?_
  exact ⟨⟨rfl, by decide⟩, ⟨rfl, by decide⟩, ⟨rfl, by decide⟩, trivial⟩

end Tulpje.Cache
