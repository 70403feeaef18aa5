import Tulpje.Cache.Reactions

/-!
# The details of a reaction's count

A reaction has its count and, beside it, how many of it are normal and how many burst reactions. The two
handlers that count one reaction more or less leave the details as they were, so the sum is kept exactly as long
as every event adds an emoji that is not there or removes the last of one (`details_agree_iff`).
-/

namespace Tulpje.Cache

open Twilight Lib

/-! ### The sum -/

/-- Every reaction is there at least once, and its details add up to its count. -/
def DetailsAgree (reactions : List Reaction) : Prop :=
  ∀ r ∈ reactions, r.count.toNat = r.countDetails.normal.toNat + r.countDetails.burst.toNat ∧ 1 ≤ r.count

section Lists
variable {α : Type} {p : α → Bool} {a : α} {l : List α}

theorem mem_updateFirst (f : α → α) (h : l.find? p = some a) : f a ∈ updateFirst p f l := by
  induction l with
  | nil => cases h
  | cons b l ih =>
    rw [List.find?_cons] at h
    rw [updateFirst]
    cases hb : p b with
    | true =>
      rw [hb] at h
      rw [Option.some.inj h]
      exact List.mem_cons_self
    | false =>
      rw [hb] at h
      exact List.mem_cons_of_mem b (ih h)

end Lists

section Edits
variable {emoji : EmojiReactionType} {isCurrent : Bool} {reactions : List Reaction}

/-- A count that an edit changes is no longer the sum of the details. -/
theorem not_detailsAgree_updateFirst (h : DetailsAgree reactions) {p : Reaction → Bool} {found : Reaction}
    (hfind : reactions.find? p = some found) (f : Reaction → Reaction)
    (hdetails : (f found).countDetails = found.countDetails) (hcount : (f found).count ≠ found.count) :
    ¬ DetailsAgree (updateFirst p f reactions) := by
  intro hagree
  have hold := (h found (List.mem_of_find?_eq_some hfind)).1
  have hnew := (hagree _ (mem_updateFirst f hfind)).1
  rw [hdetails, ← hold] at hnew
  exact hcount (UInt64.toNat_inj.mp hnew)

theorem detailsAgree_addReaction_iff (h : DetailsAgree reactions) :
    DetailsAgree (addReaction emoji isCurrent reactions) ↔
      reactions.find? (fun r => reactionsEq r.emoji emoji) = none := by
  unfold addReaction
  rcases hfind : reactions.find? (fun r => reactionsEq r.emoji emoji) with _ | found
  · simp only [hfind, iff_true]
    intro r hr
    rcases List.mem_append.mp hr with hr | hr
    · exact h r hr
    · rw [List.mem_singleton.mp hr]
      exact ⟨rfl, UInt64.le_refl 1⟩
  · simp only [hfind, reduceCtorEq, iff_false]
    have hne : found.count + 1 ≠ found.count := by grind
    exact not_detailsAgree_updateFirst h hfind _ rfl hne

theorem detailsAgree_removeReaction_iff (h : DetailsAgree reactions) :
    DetailsAgree (removeReaction emoji isCurrent reactions) ↔
      ∀ found ∈ reactions.find? (fun r => reactionsEq r.emoji emoji), found.count ≤ 1 := by
  unfold removeReaction
  rcases hfind : reactions.find? (fun r => reactionsEq r.emoji emoji) with _ | found
  · simp only [hfind]
    exact iff_of_true h nofun
  · simp only [hfind, Option.mem_def, Option.some.injEq, forall_eq']
    split_ifs with hcount
    · have hne : found.count - 1 ≠ found.count := by grind
      exact iff_of_false (not_detailsAgree_updateFirst h hfind _ rfl hne) (UInt64.not_le.mpr hcount)
    · exact iff_of_true (fun r hr => h r (List.mem_of_mem_filter hr)) (UInt64.not_lt.mp hcount)

end Edits

/-! ### Runs -/

/-- A reaction to the message, added or removed. -/
def AddsOrRemoves (m : Id .message) : Event → Prop
  | .reactionAdd reaction | .reactionRemove reaction => reaction.messageId = m
  | _ => False

/-- The event adds an emoji that the stored message does not have, or removes one that is not there more than
once. -/
def KeepsDetails (m : Id .message) (s : State) : Event → Prop
  | .reactionAdd reaction => ∀ message ∈ s.hashes .messages m,
    message.reactions.find? (fun r => reactionsEq r.emoji reaction.emoji) = none
  | .reactionRemove reaction => ∀ message ∈ s.hashes .messages m,
    ∀ found ∈ message.reactions.find? (fun r => reactionsEq r.emoji reaction.emoji), found.count ≤ 1
  | _ => True

section Runs
variable {self : Cache} {m : Id .message} {message : CachedMessage} {s : State}

/-- The message is stored with some reactions in place of its own. -/
def StoredWith (m : Id .message) (message : CachedMessage) (P : List Reaction → Prop) (s : State) : Prop :=
  ∃ reactions, s.hashes .messages m = some { message with reactions } ∧ P reactions

/-- A step that rewrites the reactions. -/
theorem storedWith_rewrite (hid : message.id = m) {reactions : List Reaction} {P : List Reaction → Prop} :
    StoredWith m message P (s.hset .messages message.id { message with reactions }) ↔ P reactions := by
  have hstored : (s.hset .messages message.id { message with reactions }).hashes .messages m =
      some { message with reactions } := by
    rw [hid, State.hset_self, Function.update_self]
  constructor
  · rintro ⟨reactions', hstored', hP⟩
    rw [hstored] at hstored'
    have hreactions : reactions = reactions' := congrArg CachedMessage.reactions (Option.some.inj hstored')
    rwa [hreactions]
  · exact fun hP => ⟨reactions, hstored, hP⟩

theorem storedWith_update (hw : self.config.wants .message = true) (hid : message.id = m) {event : Event}
    (hevent : AddsOrRemoves m event) (h : StoredWith m message (fun _ => True) s) :
    StoredWith m message (fun _ => True) ((self.update event).exec eval s).2 := by
  obtain ⟨reactions, hstored, -⟩ := h
  cases event with
  | reactionAdd reaction =>
    obtain rfl : reaction.messageId = m := hevent
    obtain ⟨isCurrent, hread⟩ := exec_isCurrentUser self reaction.userId s
    have hexec := exec_reactionAdd hw hstored hread
    exact hexec ▸ (storedWith_rewrite hid).mpr trivial
  | reactionRemove reaction =>
    obtain rfl : reaction.messageId = m := hevent
    obtain ⟨isCurrent, hread⟩ := exec_isCurrentUser self reaction.userId s
    have hexec := exec_reactionRemove hw hstored hread
    exact hexec ▸ (storedWith_rewrite hid).mpr trivial
  | _ => exact hevent.elim

theorem detailsAgree_update_iff (hw : self.config.wants .message = true) (hid : message.id = m) {event : Event}
    (hevent : AddsOrRemoves m event) (h : StoredWith m message DetailsAgree s) :
    StoredWith m message DetailsAgree ((self.update event).exec eval s).2 ↔ KeepsDetails m s event := by
  obtain ⟨reactions, hstored, hagree⟩ := h
  cases event with
  | reactionAdd reaction =>
    obtain rfl : reaction.messageId = m := hevent
    obtain ⟨isCurrent, hread⟩ := exec_isCurrentUser self reaction.userId s
    have hexec := exec_reactionAdd hw hstored hread
    have hkeeps : KeepsDetails reaction.messageId s (.reactionAdd reaction) ↔
        reactions.find? (fun r => reactionsEq r.emoji reaction.emoji) = none := by
      simp [KeepsDetails, hstored]
    rw [hkeeps, ← detailsAgree_addReaction_iff hagree]
    exact hexec ▸ storedWith_rewrite hid
  | reactionRemove reaction =>
    obtain rfl : reaction.messageId = m := hevent
    obtain ⟨isCurrent, hread⟩ := exec_isCurrentUser self reaction.userId s
    have hexec := exec_reactionRemove hw hstored hread
    have hkeeps : KeepsDetails reaction.messageId s (.reactionRemove reaction) ↔
        ∀ found ∈ reactions.find? (fun r => reactionsEq r.emoji reaction.emoji), found.count ≤ 1 := by
      simp [KeepsDetails, hstored]
    rw [hkeeps, ← detailsAgree_removeReaction_iff hagree]
    exact hexec ▸ storedWith_rewrite hid
  | _ => exact hevent.elim

end Runs

/-- A cached message whose details add up: every state that a sequence of added and removed reactions goes
through has them add up to counts of at least one exactly if they are at least one to begin with and every event
adds an emoji that is not there or removes one that is not there more than once. -/
theorem details_agree_iff (self : Cache) (m : Id .message) (message : CachedMessage) (s : State)
    (hs : self.Reachable s) (hstored : s.hashes .messages m = some message)
    (hsum : ∀ r ∈ message.reactions,
      r.count.toNat = r.countDetails.normal.toNat + r.countDetails.burst.toNat)
    (events : List Event) (hevents : ∀ event ∈ events, AddsOrRemoves m event) :
    (∀ pre, pre <+: events → StoredWith m message DetailsAgree (self.applyEvents pre s)) ↔
      (∀ r ∈ message.reactions, 1 ≤ r.count) ∧
        AllSteps (fun s event => ((self.update event).exec eval s).2) (KeepsDetails m) s events := by
  obtain ⟨hid, hw⟩ := hs.stored_message m message hstored
  by_cases hcounts : ∀ r ∈ message.reactions, 1 ≤ r.count
  · rw [and_iff_right hcounts]
    have hagree : DetailsAgree message.reactions := fun r hr => ⟨hsum r hr, hcounts r hr⟩
    exact forall_prefix_iff_allSteps (D := AddsOrRemoves m) (StoredWith m message fun _ => True)
      (StoredWith m message DetailsAgree)
      (fun s event h hevent => storedWith_update hw hid hevent h)
      (fun s event _ hevent h => detailsAgree_update_iff hw hid hevent h) hevents
      ⟨message.reactions, hstored, trivial⟩ ⟨message.reactions, hstored, hagree⟩
  · refine iff_of_false (fun h => hcounts fun r hr => ?_) fun h => hcounts h.1
    obtain ⟨reactions, hreactions, hagree⟩ := h [] List.nil_prefix
    obtain rfl : message.reactions = reactions :=
      congrArg CachedMessage.reactions (Option.some.inj (hstored.symm.trans hreactions))
    exact (hagree r hr).2

/-- One user adds an emoji, and removes it again. -/
theorem details_agree_of_one :
    let emoji : EmojiReactionType := .unicode "wave"
    let message : Message :=
      ⟨⟨⟨11, by decide⟩, ""⟩, ⟨12, by decide⟩, none, ⟨13, by decide⟩, none, none, [], [], none, "hi"⟩
    let s := (new (.all 100)).applyEvents [.messageCreate message] .empty
    let events : List Event :=
      [.reactionAdd ⟨false, emoji, message.id, ⟨21, by decide⟩⟩,
        .reactionRemove ⟨false, emoji, message.id, ⟨21, by decide⟩⟩]
    ∀ pre, pre <+: events → StoredWith message.id (.fromMessage message) DetailsAgree
      ((new (.all 100)).applyEvents pre s) := by
  intro emoji message s events
  refine (details_agree_iff (new (.all 100)) message.id (.fromMessage message) s ⟨_, rfl⟩ rfl (fun r hr => ?_)
    events fun event hevent => ?_).mpr ⟨fun r hr => ?_, fun stored hstored => ?_, fun stored hstored => ?_, trivial⟩
  · cases hr
  · rcases List.mem_pair.mp hevent with rfl | rfl
    · rfl
    · rfl
  · cases hr
  · -- the message has no reactions yet
    cases hstored
    rfl
  · -- it has the one that was added
    cases hstored
    rintro found ⟨⟩
    exact UInt64.le_refl 1

/-- Two users add the same emoji to a message without reactions: its count is two, and its details are one
normal reaction. -/
theorem second_reaction_breaks_details :
    let message : Message :=
      ⟨⟨⟨11, by decide⟩, ""⟩, ⟨12, by decide⟩, none, ⟨13, by decide⟩, none, none, [], [], none, "hi"⟩
    let s := (new (.all 100)).applyEvents [.messageCreate message] .empty
    let events : List Event :=
      [.reactionAdd ⟨false, .unicode "wave", message.id, ⟨21, by decide⟩⟩,
        .reactionAdd ⟨false, .unicode "wave", message.id, ⟨22, by decide⟩⟩]
    (s.hashes .messages message.id).map CachedMessage.reactions = some [] ∧
      (((new (.all 100)).applyEvents events s).hashes .messages message.id).map CachedMessage.reactions =
        some [⟨[], 2, ⟨0, 1⟩, .unicode "wave", false, false⟩] ∧
      ¬ StoredWith message.id (.fromMessage message) DetailsAgree ((new (.all 100)).applyEvents events s) := by
  intro message s events
  refine ⟨rfl, rfl, ?_⟩
  rintro ⟨reactions, hstored, hagree⟩
  obtain rfl : [⟨[], 2, ⟨0, 1⟩, .unicode "wave", false, false⟩] = reactions :=
    congrArg CachedMessage.reactions (Option.some.inj hstored)
  exact absurd (hagree _ List.mem_cons_self).1 (by decide)

end Tulpje.Cache
