import Tulpje.Emojis.Paging
import Tulpje.Lib.Pages
import Tulpje.Lib.Retention

/-!
# The table of uses and its statistics

The handlers of `tulpje-mod-emoji/src/event_handlers.rs` that write `emoji_uses`, the maintenance command, and the
queries of `db.rs`. After any run of events the statistics of a guild are about the uses in messages, edits and
reactions since the last clean-up that left the emoji out (`statistics_since_cleanup`). Its pages show every emoji
once, whatever order the database gives to emojis that tie, exactly if no tie is cut by the end of a page
(`pages_show_all_iff`).
-/

namespace Tulpje.Emojis

open Twilight Lib

/-! ### `event_handlers.rs` -/

structure ReactionAdd where
  guildId : Option GuildId
  emoji : EmojiReactionType

def reactionAdd (now : Timestamp) (reaction : ReactionAdd) : EmojiM PUnit :=
  match reaction.emoji with
  | .custom animated id name =>
    match reaction.guildId, name with
    | some guildId, some name => do
      if ← isGuildEmoji guildId id then
        let _ ← saveEmojiUse (Emoji.new id guildId name animated) now
    | _, _ => pure ⟨⟩
  | .unicode _ => pure ⟨⟩

/-- A handler that works on the table only. -/
abbrev TableM := ExceptT Error (StateM (List EmojiUse))

/-- The number of rows that were deleted. -/
def deleteEmojisNotInListForGuild (deleted : Except Error Unit) (guildId : GuildId) (emojis : List EmojiId) :
    TableM ℕ := do
  MonadExcept.ofExcept deleted
  let uses ← get
  let kept := uses.filter fun use => ¬ (use.guildId = guildId ∧ emojis.contains use.emojiId = false)
  set kept
  return uses.length - kept.length

def guildCreate (deleted : Except Error Unit) : GuildCreate → TableM Unit
  | .unavailable _ => pure ()
  | .available guild => do
    let _ ← deleteEmojisNotInListForGuild deleted guild.id (guild.emojis.map fun emoji => emoji.id)

def guildEmojisUpdate (deleted : Except Error Unit) (guildId : GuildId) (emojis : List Twilight.Emoji) :
    TableM Unit := do
  let _ ← deleteEmojisNotInListForGuild deleted guildId (emojis.map fun emoji => emoji.id)

/-! ### `commands.rs` -/

structure Maintenance where
  guild : Except Error (Option Guild)
  deferred : Except Error Unit
  emojis : Except Error (Except Error (List EmojiId))
  deleted : Except Error Unit
  update : String → Except Error Unit

def cmdEmojiMaintenance (replies : Maintenance) : TableM Unit := do
  let some guild ← MonadExcept.ofExcept replies.guild | throw "not in guild"
  MonadExcept.ofExcept replies.deferred
  let response ← MonadExcept.ofExcept replies.emojis
  let emojiIds ← MonadExcept.ofExcept response
  let count ← deleteEmojisNotInListForGuild replies.deleted guild.id emojiIds
  MonadExcept.ofExcept (replies.update s!"cleaned up {count} deleted emotes")

/-! ### Events -/

/-- An insert may fail, for example because there is no row for the guild. -/
structure Outcomes extends World where
  insert : EmojiUse → Except Error Unit

def Outcomes.eval (outcomes : Outcomes) : (o : Call) → List EmojiUse → o.Reply × List EmojiUse
  | .cacheContains guildId emojiId, uses => (outcomes.cached guildId emojiId, uses)
  | .emoji guildId emojiId, uses => (outcomes.emoji guildId emojiId, uses)
  | .emojis guildId, uses => (outcomes.emojis guildId, uses)
  | .insertUse use, uses =>
    match outcomes.insert use with
    | .ok () => (.ok (), uses ++ [use])
    | .error err => (.error err, uses)

/-- What happens to the table, with what is answered meanwhile. `guildRowDeleted` is the cascade of the foreign key. -/
inductive TableEvent
  | message (outcomes : Outcomes) (now : Timestamp) (msg : MessageCreate)
  | edit (outcomes : Outcomes) (fromMicros : Timestamp → Option Timestamp) (iterate : EmojiCounts → EmojiCounts)
      (now : Timestamp) (evt : MessageUpdate)
  | reaction (outcomes : Outcomes) (now : Timestamp) (evt : ReactionAdd)
  | guildCreate (deleted : Except Error Unit) (guild : GuildCreate)
  | guildEmojisUpdate (deleted : Except Error Unit) (guildId : GuildId) (emojis : List Twilight.Emoji)
  | maintenance (replies : Maintenance)
  | guildRowDeleted (guildId : GuildId)

namespace TableEvent

/-- The table afterwards. -/
def handle (uses : List EmojiUse) : TableEvent → List EmojiUse
  | message outcomes now msg => ((handleMessage now msg).exec outcomes.eval uses).2
  | edit outcomes fromMicros iterate now evt => ((messageUpdate fromMicros iterate now evt).exec outcomes.eval uses).2
  | reaction outcomes now evt => ((reactionAdd now evt).exec outcomes.eval uses).2
  | guildCreate deleted guild => ((Emojis.guildCreate deleted guild).run uses).2
  | guildEmojisUpdate deleted guildId emojis => ((Emojis.guildEmojisUpdate deleted guildId emojis).run uses).2
  | maintenance replies => ((cmdEmojiMaintenance replies).run uses).2
  | guildRowDeleted guildId => uses.filter fun use => use.guildId ≠ guildId

/-- The rows that the event adds to an empty table. -/
def recorded : TableEvent → List EmojiUse
  | message outcomes now msg => ((handleMessage now msg).exec outcomes.eval []).2
  | edit outcomes fromMicros iterate now evt => ((messageUpdate fromMicros iterate now evt).exec outcomes.eval []).2
  | reaction outcomes now evt => ((reactionAdd now evt).exec outcomes.eval []).2
  | guildCreate .. | guildEmojisUpdate .. | maintenance _ | guildRowDeleted _ => []

/-- The guild that the event cleans up, with the emojis that stay. -/
def cleanup : TableEvent → Option (GuildId × List EmojiId)
  | message .. | edit .. | reaction .. => none
  | guildCreate deleted guild =>
    match deleted, guild with
    | .ok (), .available guild => some (guild.id, guild.emojis.map fun emoji => emoji.id)
    | _, _ => none
  | guildEmojisUpdate deleted guildId emojis =>
    match deleted with
    | .ok () => some (guildId, emojis.map fun emoji => emoji.id)
    | .error _ => none
  | maintenance replies =>
    match replies.guild, replies.deferred, replies.emojis, replies.deleted with
    | .ok (some guild), .ok (), .ok (.ok emojiIds), .ok () => some (guild.id, emojiIds)
    | _, _, _, _ => none
  | guildRowDeleted guildId => some (guildId, [])

/-- The uses of this emoji of this guild are not cleaned up. -/
def keeps (event : TableEvent) (key : GuildId × EmojiId) : Bool :=
  event.cleanup.all fun (guildId, emojis) => ¬ (key.1 = guildId ∧ emojis.contains key.2 = false)

end TableEvent

/-! ### What counts as a use -/

namespace Outcomes

/-- Whether the emoji is one of the guild; `none` when the look-up fails. -/
def lookup (outcomes : Outcomes) (guildId : GuildId) (emojiId : EmojiId) : Option Bool :=
  match outcomes.cached guildId emojiId with
  | .error _ => none
  | .ok cached => some (cached || (outcomes.emoji guildId emojiId).isOk)

def accepts (outcomes : Outcomes) (use : EmojiUse) : Bool := (outcomes.insert use).isOk

end Outcomes

namespace TableEvent

/-- The uses of an emoji of a guild that the event stands for, as far as the table accepts them: the occurrences in
the text of a new message up to the first emoji whose look-up fails; for an edit one, the first, if the new text has
the emoji, and none if one occurs too often to be counted; a reaction. -/
def used (key : GuildId × EmojiId) : TableEvent → List EmojiUse
  | message outcomes now msg =>
    if msg.guildId = some key.1 ∧ isPkProxy msg.applicationId = false then
      let found := (parseEmojisFromString key.1 msg.content).getD []
      let reached := found.takeWhile fun emote => (outcomes.lookup key.1 emote.id).isSome
      let mine := reached.filter fun emote => emote.id = key.2 ∧ outcomes.lookup key.1 emote.id = some true
      (mine.map (useOf now)).filter outcomes.accepts
    else []
  | edit outcomes fromMicros _ now evt =>
    if evt.guildId = some key.1 ∧ isPkProxy evt.applicationId = false then
      match outcomes.emojis key.1, parseEmojisFromString key.1 evt.content with
      | .ok (.ok guildEmojis), some found =>
        let mine := found.filter fun emote => guildEmojis.contains emote.id
        if ∀ emote ∈ mine, (mine.map Emoji.id).count emote.id ≤ 32767 then
          let first := mine.find? fun emote => emote.id = key.2
          (first.toList.map (useOf ((fromMicros evt.timestamp).getD now))).filter outcomes.accepts
        else []
      | _, _ => []
    else []
  | reaction outcomes now evt =>
    match evt.emoji with
    | .custom animated id (some name) =>
      if evt.guildId = some key.1 ∧ id = key.2 ∧ outcomes.lookup key.1 id = some true then
        [useOf now (Emoji.new id key.1 name animated)].filter outcomes.accepts
      else []
    | _ => []
  | guildCreate .. | guildEmojisUpdate .. | maintenance _ | guildRowDeleted _ => []

/-- A hash map is iterated in some order. -/
def Iterates : TableEvent → Prop
  | edit _ _ iterate _ _ => ∀ counts, (iterate counts).Perm counts
  | _ => True

end TableEvent

/-- The uses of an emoji since the last clean-up that left it out. -/
def usedSince (events : List TableEvent) (key : GuildId × EmojiId) : List EmojiUse :=
  (events.rtakeWhile fun event => event.keeps key).flatMap (TableEvent.used key)

/-! ### Rows -/

def usesOf : Retention TableEvent EmojiUse (GuildId × EmojiId) where
  key := EmojiUse.key
  keeps := TableEvent.keeps
  adds := TableEvent.recorded

/-! ### `db.rs` -/

/-- `MAX` of texts, which depends on the collation, and `ANY_VALUE`. -/
structure Aggregates where
  maxName : List String → String
  anyAnimated : List Bool → Bool

/-- The columns of a group. -/
def Aggregates.statsOf (aggregates : Aggregates) (guildId : GuildId) (emojiId : EmojiId) (uses : List EmojiUse) :
    EmojiStats where
  emoji := Emoji.new emojiId guildId (aggregates.maxName (uses.map EmojiUse.name))
    (aggregates.anyAnimated (uses.map EmojiUse.animated))
  timesUsed := uses.length
  lastUsedAt := (uses.map EmojiUse.createdAt).max?.getD 0

/-- `GROUP BY emoji_id`. -/
def emojiStats (aggregates : Aggregates) (guildId : GuildId) (uses : List EmojiUse) : List EmojiStats :=
  let mine := uses.filter fun use => use.guildId = guildId
  (mine.map EmojiUse.emojiId).dedup.map fun emojiId =>
    aggregates.statsOf guildId emojiId (mine.filter fun use => use.emojiId = emojiId)

/-- `COUNT(DISTINCT emoji_id)`. -/
def getEmojiStatCount (uses : List EmojiUse) (guildId : GuildId) : ℕ :=
  ((uses.filter fun use => use.guildId = guildId).map EmojiUse.emojiId).dedup.length

/-- The `ORDER BY` clause. -/
def StatsSort.le : StatsSort → EmojiStats → EmojiStats → Prop
  | countDesc, a, b => b.timesUsed ≤ a.timesUsed
  | countAsc, a, b => a.timesUsed ≤ b.timesUsed
  | dateDesc, a, b => b.lastUsedAt ≤ a.lastUsedAt
  | dateAsc, a, b => a.lastUsedAt ≤ b.lastUsedAt

instance (sort : StatsSort) : DecidableRel sort.le :=
  match sort with
  | .countDesc | .countAsc | .dateDesc | .dateAsc => fun _ _ => inferInstanceAs (Decidable (_ ≤ _))

/-- How a query orders its rows. -/
abbrev OrderBy := StatsSort → List EmojiStats → List EmojiStats

def getEmojiStats (aggregates : Aggregates) (orderBy : OrderBy) (uses : List EmojiUse) (guildId : GuildId)
    (sort : StatsSort) (offset limit : UInt16) : List EmojiStats :=
  ((orderBy sort (emojiStats aggregates guildId uses)).drop offset.toNat).take limit.toNat

/-! ### What the handlers do to the table -/

/-- No reply depends on the table. -/
theorem eval_append (outcomes : Outcomes) (o : Call) (uses : List EmojiUse) :
    outcomes.eval o uses = ((outcomes.eval o []).1, uses ++ (outcomes.eval o []).2) := by
  cases o with
  | insertUse use =>
    simp only [Outcomes.eval]
    cases outcomes.insert use <;> simp
  | _ => simp [Outcomes.eval]

theorem filter_keeps_of_none {event : TableEvent} (h : event.cleanup = none) (uses : List EmojiUse) :
    uses.filter (fun use => event.keeps use.key) = uses :=
  List.filter_eq_self.mpr fun use _ => by simp [TableEvent.keeps, h]

theorem filter_keeps_of_some {event : TableEvent} {guildId : GuildId} {emojis : List EmojiId}
    (h : event.cleanup = some (guildId, emojis)) (uses : List EmojiUse) :
    uses.filter (fun use => event.keeps use.key) =
      uses.filter fun use => ¬ (use.guildId = guildId ∧ emojis.contains use.emojiId = false) := by
  simp only [TableEvent.keeps, h, Option.all_some]
  rfl

theorem run_guildCreate (deleted : Except Error Unit) (guild : GuildCreate) (uses : List EmojiUse) :
    ((guildCreate deleted guild).run uses).2 =
      uses.filter fun use => (TableEvent.guildCreate deleted guild).keeps use.key := by
  cases deleted with
  | error err =>
    rw [filter_keeps_of_none rfl]
    cases guild <;> rfl
  | ok =>
    cases guild with
    | unavailable guild => rw [filter_keeps_of_none rfl]; rfl
    | available guild => rw [filter_keeps_of_some rfl]; rfl

theorem run_guildEmojisUpdate (deleted : Except Error Unit) (guildId : GuildId) (emojis : List Twilight.Emoji)
    (uses : List EmojiUse) :
    ((guildEmojisUpdate deleted guildId emojis).run uses).2 =
      uses.filter fun use => (TableEvent.guildEmojisUpdate deleted guildId emojis).keeps use.key := by
  cases deleted with
  | error err => rw [filter_keeps_of_none rfl]; rfl
  | ok => rw [filter_keeps_of_some rfl]; rfl

theorem run_ofExcept (outcome : Except Error Unit) (uses : List EmojiUse) :
    ((MonadExcept.ofExcept outcome : TableM Unit).run uses).2 = uses := by
  cases outcome <;> rfl

theorem run_cmdEmojiMaintenance (replies : Maintenance) (uses : List EmojiUse) :
    ((cmdEmojiMaintenance replies).run uses).2 =
      uses.filter fun use => (TableEvent.maintenance replies).keeps use.key := by
  obtain ⟨guild, deferred, emojis, deleted, update⟩ := replies
  rcases guild with err | _ | guild
  · rw [filter_keeps_of_none rfl]; rfl
  · rw [filter_keeps_of_none rfl]; rfl
  cases deferred with
  | error err => rw [filter_keeps_of_none rfl]; rfl
  | ok =>
  rcases emojis with err | err | emojiIds
  · rw [filter_keeps_of_none rfl]; rfl
  · rw [filter_keeps_of_none rfl]; rfl
  cases deleted with
  | error err => rw [filter_keeps_of_none rfl]; rfl
  | ok =>
    rw [filter_keeps_of_some rfl]
    exact run_ofExcept (update _) _

theorem handle_eq_step (uses : List EmojiUse) (event : TableEvent) : event.handle uses = usesOf.step uses event := by
  have hexec : ∀ (outcomes : Outcomes) (handler : EmojiM PUnit),
      (handler.exec outcomes.eval uses).2 = uses ++ (handler.exec outcomes.eval []).2 := by
    intro outcomes handler
    rw [Prog.exec_append (eval_append outcomes) handler uses]
  unfold Retention.step usesOf
  dsimp only
  cases event with
  | message outcomes now msg => rw [filter_keeps_of_none rfl]; exact hexec outcomes _
  | edit outcomes fromMicros iterate now evt => rw [filter_keeps_of_none rfl]; exact hexec outcomes _
  | reaction outcomes now evt => rw [filter_keeps_of_none rfl]; exact hexec outcomes _
  | guildCreate deleted guild => exact (run_guildCreate ..).trans (List.append_nil _).symm
  | guildEmojisUpdate deleted guildId emojis => exact (run_guildEmojisUpdate ..).trans (List.append_nil _).symm
  | maintenance replies => exact (run_cmdEmojiMaintenance ..).trans (List.append_nil _).symm
  | guildRowDeleted guildId =>
    rw [filter_keeps_of_some rfl, TableEvent.recorded, List.append_nil, TableEvent.handle]
    simp

theorem consistent_usesOf : usesOf.Consistent := by
  intro event use huse
  have hkeeps : event.cleanup = none → event.keeps use.key = true := fun h => by simp [TableEvent.keeps, h]
  cases event with
  | message | edit | reaction => exact hkeeps rfl
  | guildCreate | guildEmojisUpdate | maintenance | guildRowDeleted => cases huse

/-! ### What the handlers record -/

section Recorded
variable (outcomes : Outcomes) {guildId : GuildId} {key : GuildId × EmojiId}

theorem exec_lookup (guildId : GuildId) (emojiId : EmojiId) (uses : List EmojiUse) : ∃ err,
    (isGuildEmoji guildId emojiId).exec outcomes.eval uses =
      ((outcomes.lookup guildId emojiId).elim (.error err) .ok, uses) := by
  have hcontains : (send (.cacheContains guildId emojiId)).exec outcomes.eval uses =
      (.ok (outcomes.cached guildId emojiId), uses) := rfl
  cases hcached : outcomes.cached guildId emojiId with
  | error err =>
    refine ⟨.error err, (Prog.exec_bind_ok hcontains _).trans ?_⟩
    rw [hcached, Outcomes.lookup, hcached]
    rfl
  | ok cached =>
    refine ⟨.panic, (Prog.exec_bind_ok hcontains _).trans ?_⟩
    rw [hcached, Outcomes.lookup, hcached]
    cases cached with
    | true => rfl
    | false =>
      have hemoji : (send (.emoji guildId emojiId)).exec outcomes.eval uses =
          (.ok (outcomes.emoji guildId emojiId), uses) := rfl
      refine (Prog.exec_bind_ok hemoji _).trans ?_
      cases outcomes.emoji guildId emojiId <;> rfl

theorem exec_save (emote : Emoji) (timestamp : Timestamp) (uses : List EmojiUse) :
    (do let _ ← saveEmojiUse emote timestamp : EmojiM PUnit).exec outcomes.eval uses =
      (.ok ⟨⟩, uses ++ [useOf timestamp emote].filter outcomes.accepts) := by
  have hinsert : (saveEmojiUse emote timestamp).exec outcomes.eval uses =
      (.ok (outcomes.insert (useOf timestamp emote)),
        uses ++ [useOf timestamp emote].filter outcomes.accepts) := by
    refine Prod.ext (congrArg Except.ok ?_) ?_ <;> dsimp only [saveEmojiUse, send, Prog.send, Prog.exec, Outcomes.eval]
    · cases outcomes.insert (useOf timestamp emote) <;> rfl
    · cases hinsert : outcomes.insert (useOf timestamp emote) with
      | ok u => simp [Outcomes.accepts, hinsert, Except.isOk, Except.toBool]
      | error err => simp [Outcomes.accepts, hinsert, Except.isOk, Except.toBool]
  exact (Prog.exec_bind_ok hinsert _).trans rfl

/-- The loop over the emojis of a message. -/
theorem exec_trackAll (now : Timestamp) (emotes : List Emoji) (uses : List EmojiUse) :
    ((emotes.forM fun emote => do
        if ← isGuildEmoji guildId emote.id then
          let _ ← saveEmojiUse emote now : EmojiM PUnit).exec outcomes.eval uses).2 =
      uses ++ ((((emotes.takeWhile fun emote => (outcomes.lookup guildId emote.id).isSome).filter fun emote =>
        outcomes.lookup guildId emote.id = some true).map (useOf now)).filter outcomes.accepts) := by
  induction emotes generalizing uses with
  | nil => exact (List.append_nil uses).symm
  | cons emote emotes ih =>
    obtain ⟨err, hlookup⟩ := exec_lookup outcomes guildId emote.id uses
    rw [List.takeWhile_cons]
    show ((_ >>= fun _ => emotes.forM _ : EmojiM PUnit).exec outcomes.eval uses).2 = _
    cases hfound : outcomes.lookup guildId emote.id with
    | none =>
      rw [hfound] at hlookup
      have hfails : (do if ← isGuildEmoji guildId emote.id then
          let _ ← saveEmojiUse emote now : EmojiM PUnit).exec outcomes.eval uses = (.error err, uses) := by
        rw [Prog.exec_bind, hlookup]
        rfl
      rw [Prog.exec_bind, hfails]
      simp
    | some known =>
      rw [hfound] at hlookup
      cases known with
      | false =>
        have hskips : (do if ← isGuildEmoji guildId emote.id then
            let _ ← saveEmojiUse emote now : EmojiM PUnit).exec outcomes.eval uses = (.ok ⟨⟩, uses) :=
          (Prog.exec_bind_ok hlookup _).trans rfl
        rw [Prog.exec_bind_ok hskips, ih]
        simp [hfound]
      | true =>
        have hsaves : (do if ← isGuildEmoji guildId emote.id then
            let _ ← saveEmojiUse emote now : EmojiM PUnit).exec outcomes.eval uses =
              (.ok ⟨⟩, uses ++ [useOf now emote].filter outcomes.accepts) :=
          (Prog.exec_bind_ok hlookup _).trans (exec_save outcomes emote now uses)
        rw [Prog.exec_bind_ok hsaves, ih]
        simp [hfound, List.filter_cons, List.append_assoc]
        split <;> simp

/-- The loop over the counts of an edit. -/
theorem exec_saveCounts (timestamp : Timestamp) (counts : EmojiCounts) (hpos : ∀ entry ∈ counts, ¬ entry.2 ≤ 0)
    (uses : List EmojiUse) : (saveChanges timestamp [] counts).exec outcomes.eval uses =
      (.ok ⟨⟩, uses ++ (counts.map fun entry => useOf timestamp entry.1).filter outcomes.accepts) := by
  induction counts generalizing uses with
  | nil => exact Prod.ext rfl (List.append_nil uses).symm
  | cons entry counts ih =>
    obtain ⟨hentry, hcounts⟩ := List.forall_mem_cons.mp hpos
    have hchange : ¬ entry.2 - (Counting.get Emoji.id ([] : EmojiCounts) entry.1.id).getD 0 ≤ 0 := by
      simpa [Counting.get] using hentry
    have hsaves : (if entry.2 - (Counting.get Emoji.id ([] : EmojiCounts) entry.1.id).getD 0 ≤ 0 then pure ⟨⟩
        else do let _ ← saveEmojiUse entry.1 timestamp : EmojiM PUnit).exec outcomes.eval uses =
          (.ok ⟨⟩, uses ++ [useOf timestamp entry.1].filter outcomes.accepts) := by
      rw [if_neg hchange]
      exact exec_save outcomes entry.1 timestamp uses
    refine (Prog.exec_bind_ok hsaves _).trans ((ih hcounts _).trans ?_)
    rw [List.append_assoc, ← List.filter_append]
    rfl

/-- Of the rows for these emojis, those with the key are for the emojis with its id. -/
theorem filter_rows {emotes : List Emoji} (hguild : ∀ emote ∈ emotes, emote.guildId = key.1) (timestamp : Timestamp) :
    ((emotes.map (useOf timestamp)).filter outcomes.accepts).filter (fun use => use.key = key) =
      ((emotes.filter fun emote => emote.id = key.2).map (useOf timestamp)).filter outcomes.accepts := by
  rw [List.filter_comm, List.filter_map]
  refine congrArg (fun emotes => List.filter outcomes.accepts (List.map (useOf timestamp) emotes)) ?_
  refine List.filter_congr fun emote hemote => ?_
  have hkey : (useOf timestamp emote).key = (emote.guildId, emote.id) := rfl
  rw [Function.comp_apply, hkey, hguild emote hemote]
  simp [Prod.ext_iff]

/-- Rows for emojis of another guild. -/
theorem filter_rows_of_ne {emotes : List Emoji} (hguild : ∀ emote ∈ emotes, emote.guildId = guildId)
    (hne : guildId ≠ key.1) (timestamp : Timestamp) :
    ((emotes.map (useOf timestamp)).filter outcomes.accepts).filter (fun use => use.key = key) = [] := by
  refine List.filter_eq_nil_iff.mpr fun use huse hkey => hne ?_
  obtain ⟨emote, hemote, rfl⟩ := List.mem_map.mp (List.mem_of_mem_filter huse)
  have hkey : (emote.guildId, emote.id) = key := of_decide_eq_true hkey
  rw [← hguild emote hemote, ← hkey]

theorem filter_message (now : Timestamp) (msg : MessageCreate) :
    (TableEvent.message outcomes now msg).recorded.filter (fun use => use.key = key) =
      (TableEvent.message outcomes now msg).used key := by
  obtain ⟨guild, applicationId, content⟩ := msg
  dsimp only [TableEvent.recorded, TableEvent.used, handleMessage]
  cases guild with
  | none => rfl
  | some guildId =>
    dsimp only
    cases isPkProxy applicationId with
    | true => simp
    | false =>
      rw [if_neg Bool.false_ne_true]
      by_cases hguild : guildId = key.1
      · subst hguild
        rw [if_pos ⟨rfl, rfl⟩]
        cases hparse : parseEmojisFromString key.1 content with
        | none => rfl
        | some found =>
          dsimp only [Option.getD_some]
          rw [exec_trackAll, List.nil_append, filter_rows outcomes (fun emote hemote => ?_), List.filter_filter]
          · simp only [Bool.decide_and]
          · exact guildId_of_parse hparse (List.takeWhile_subset _ (List.mem_of_mem_filter hemote))
      · rw [if_neg fun h => hguild (Option.some.inj h.1)]
        cases hparse : parseEmojisFromString guildId content with
        | none => rfl
        | some found =>
          dsimp only
          rw [exec_trackAll, List.nil_append]
          refine filter_rows_of_ne outcomes (fun emote hemote => ?_) hguild now
          exact guildId_of_parse hparse (List.takeWhile_subset _ (List.mem_of_mem_filter hemote))

theorem counts_of_countEmojis {emotes : List Emoji} {counts : EmojiCounts} (h : countEmojis emotes = some counts) :
    Counting.Counts Emoji.id (fun count => count.toInt.toNat) emotes counts := by
  by_cases hlimit : ∀ id, (emotes.map Emoji.id).count id ≤ 32767
  · obtain ⟨counts', hcounts, hvalues⟩ := Counting.countAll_of_le limited_increment _ hlimit
    obtain rfl : counts' = counts := Option.some.inj (hcounts.symm.trans h)
    exact hvalues
  · obtain ⟨id, hid⟩ := not_forall.mp hlimit
    cases h.symm.trans (Counting.countAll_of_gt limited_increment (Nat.not_le.mp hid))

theorem countEmojis_eq_none_iff (emotes : List Emoji) :
    countEmojis emotes = none ↔ ¬ ∀ emote ∈ emotes, (emotes.map Emoji.id).count emote.id ≤ 32767 := by
  constructor
  · intro hnone hle
    have hlimit : ∀ id, (emotes.map Emoji.id).count id ≤ 32767 := by
      intro id
      by_cases hid : id ∈ emotes.map Emoji.id
      · obtain ⟨emote, hemote, rfl⟩ := List.mem_map.mp hid
        exact hle emote hemote
      · rw [List.count_eq_zero_of_not_mem hid]
        exact Nat.zero_le _
    obtain ⟨counts, hcounts, -⟩ := Counting.countAll_of_le limited_increment _ hlimit
    cases hcounts.symm.trans hnone
  · intro hgt
    simp only [not_forall, Nat.not_le] at hgt
    obtain ⟨emote, -, hemote⟩ := hgt
    exact Counting.countAll_of_gt limited_increment hemote

theorem exec_edit {iterate : EmojiCounts → EmojiCounts} (hiterate : ∀ counts, (iterate counts).Perm counts)
    {evt : MessageUpdate} (hguild : evt.guildId = some guildId) (hproxy : isPkProxy evt.applicationId = false)
    (fromMicros : Timestamp → Option Timestamp) (now : Timestamp) :
    ((messageUpdate fromMicros iterate now evt).exec outcomes.eval []).2 =
      match outcomes.emojis guildId, parseEmojisFromString guildId evt.content with
      | .ok (.ok guildEmojis), some found =>
        ((countEmojis (found.filter fun emote => emote.id ∈ guildEmojis)).elim [] fun counts =>
          (((iterate counts).map Prod.fst).map
            (useOf ((fromMicros evt.timestamp).getD now))).filter outcomes.accepts)
      | _, _ => [] := by
  have hsend : (send (.emojis guildId)).exec outcomes.eval [] = (.ok (outcomes.emojis guildId), []) := rfl
  rw [messageUpdate, hproxy, if_neg Bool.false_ne_true, hguild]
  rw [Prog.exec_bind_ok hsend]
  rcases outcomes.emojis guildId with err | err | guildEmojis
  · rfl
  · rfl
  dsimp only
  have hold : countGuildEmojis guildId guildEmojis "" = some [] := by
    rw [countGuildEmojis, parse_empty]
    rfl
  rw [hold]
  cases hparse : parseEmojisFromString guildId evt.content with
  | none =>
    have hnone : countGuildEmojis guildId guildEmojis evt.content = none := by
      rw [countGuildEmojis, hparse]
      rfl
    rw [hnone]
    rfl
  | some found =>
    have hsome : countGuildEmojis guildId guildEmojis evt.content =
        countEmojis (found.filter fun emote => emote.id ∈ guildEmojis) := by
      rw [countGuildEmojis, hparse]
      rfl
    rw [hsome]
    dsimp only
    cases hcounts : countEmojis (found.filter fun emote => emote.id ∈ guildEmojis) with
    | none => rfl
    | some counts =>
      have hvalues := counts_of_countEmojis hcounts
      have hpos : ∀ entry ∈ iterate counts, ¬ entry.2 ≤ 0 := by
        intro entry hentry hle
        have hentry := (hiterate counts).mem_iff.mp hentry
        have hcount : 0 < entry.2.toInt.toNat := by
          rw [hvalues.value entry hentry]
          exact List.count_pos_iff.mpr (List.mem_map_of_mem (hvalues.element entry hentry))
        have hle : entry.2.toInt ≤ 0 := by simpa [Int16.le_iff_toInt_le] using hle
        omega
      dsimp only
      rw [exec_saveCounts outcomes _ _ hpos, List.nil_append, Option.elim_some, List.map_map]
      rfl

theorem filter_edit {iterate : EmojiCounts → EmojiCounts} (hiterate : ∀ counts, (iterate counts).Perm counts)
    (fromMicros : Timestamp → Option Timestamp) (now : Timestamp) (evt : MessageUpdate) :
    (TableEvent.edit outcomes fromMicros iterate now evt).recorded.filter (fun use => use.key = key) =
      (TableEvent.edit outcomes fromMicros iterate now evt).used key := by
  dsimp only [TableEvent.recorded, TableEvent.used]
  cases hproxy : isPkProxy evt.applicationId with
  | true => simp [messageUpdate, hproxy]
  | false =>
    cases hguild : evt.guildId with
    | none => simp [messageUpdate, hproxy, hguild]
    | some guildId =>
      rw [exec_edit outcomes hiterate hguild hproxy]
      by_cases heq : guildId = key.1
      · subst heq
        rw [if_pos ⟨rfl, rfl⟩]
        rcases outcomes.emojis key.1 with err | err | guildEmojis
        · rfl
        · rfl
        cases hparse : parseEmojisFromString key.1 evt.content with
        | none => rfl
        | some found =>
          dsimp only
          have hmine : (found.filter fun emote => guildEmojis.contains emote.id) =
              found.filter fun emote => emote.id ∈ guildEmojis :=
            List.filter_congr fun emote _ => List.contains_eq_mem ..
          rw [hmine]
          split
          next hle =>
            cases hcounts : countEmojis (found.filter fun emote => emote.id ∈ guildEmojis) with
            | none => exact absurd hle ((countEmojis_eq_none_iff _).mp hcounts)
            | some counts =>
              have hvalues := counts_of_countEmojis hcounts
              rw [Option.elim_some, filter_rows outcomes (fun emote hemote => ?_),
                Counting.filter_of_countAll hcounts hvalues.nodup (hiterate counts)]
              obtain ⟨entry, hentry, rfl⟩ := List.mem_map.mp hemote
              have hfound := hvalues.element entry ((hiterate counts).mem_iff.mp hentry)
              exact guildId_of_parse hparse (List.mem_of_mem_filter hfound)
          next hgt =>
            rw [(countEmojis_eq_none_iff _).mpr hgt]
            rfl
      · rw [if_neg fun h => heq (Option.some.inj h.1)]
        rcases outcomes.emojis guildId with err | err | guildEmojis
        · rfl
        · rfl
        cases hparse : parseEmojisFromString guildId evt.content with
        | none => rfl
        | some found =>
          dsimp only
          cases hcounts : countEmojis (found.filter fun emote => emote.id ∈ guildEmojis) with
          | none => rfl
          | some counts =>
            have hvalues := counts_of_countEmojis hcounts
            refine filter_rows_of_ne outcomes (fun emote hemote => ?_) heq _
            obtain ⟨entry, hentry, rfl⟩ := List.mem_map.mp hemote
            have hfound := hvalues.element entry ((hiterate counts).mem_iff.mp hentry)
            exact guildId_of_parse hparse (List.mem_of_mem_filter hfound)

theorem filter_reaction (now : Timestamp) (evt : ReactionAdd) :
    (TableEvent.reaction outcomes now evt).recorded.filter (fun use => use.key = key) =
      (TableEvent.reaction outcomes now evt).used key := by
  obtain ⟨guild, emoji⟩ := evt
  dsimp only [TableEvent.recorded, TableEvent.used, reactionAdd]
  cases emoji with
  | unicode name => rfl
  | custom animated id name =>
    cases name with
    | none => cases guild <;> rfl
    | some name =>
      cases guild with
      | none => rfl
      | some guildId =>
        dsimp only
        obtain ⟨err, hlookup⟩ := exec_lookup outcomes guildId id []
        have hrow : ∀ known, outcomes.lookup guildId id = some known →
            ((do if ← isGuildEmoji guildId id then
                let _ ← saveEmojiUse (Emoji.new id guildId name animated) now : EmojiM PUnit).exec outcomes.eval []).2 =
              if known = true then
                [useOf now (Emoji.new id guildId name animated)].filter outcomes.accepts else [] := by
          intro known hknown
          rw [hknown] at hlookup
          rw [Prog.exec_bind_ok hlookup]
          cases known with
          | true =>
            rw [if_pos rfl]
            exact congrArg Prod.snd (exec_save outcomes _ now [])
          | false => rfl
        cases hfound : outcomes.lookup guildId id with
        | none =>
          have hfails : (do if ← isGuildEmoji guildId id then
              let _ ← saveEmojiUse (Emoji.new id guildId name animated) now : EmojiM PUnit).exec outcomes.eval [] =
                (.error err, []) := by
            rw [Prog.exec_bind, hlookup, hfound]
            rfl
          rw [hfails, if_neg]
          · rfl
          · rintro ⟨hguild, -, htrue⟩
            obtain rfl : guildId = key.1 := Option.some.inj hguild
            rw [hfound] at htrue
            cases htrue
        | some known =>
          rw [hrow known hfound]
          by_cases hguild : guildId = key.1
          · subst hguild
            cases known with
            | true =>
              have hguild : ∀ emote ∈ [Emoji.new id key.1 name animated], emote.guildId = key.1 :=
                List.forall_mem_singleton.mpr rfl
              have hrows := filter_rows outcomes hguild now
              rw [if_pos rfl]
              refine hrows.trans ?_
              by_cases hid : id = key.2
              · subst hid
                simp [Emoji.new, hfound]
              · simp [Emoji.new, hid]
            | false => simp [hfound]
          · rw [if_neg fun h : some guildId = some key.1 ∧ _ => hguild (Option.some.inj h.1)]
            have hemote : ∀ emote ∈ [Emoji.new id guildId name animated], emote.guildId = guildId :=
              List.forall_mem_singleton.mpr rfl
            have hnone := filter_rows_of_ne outcomes hemote hguild now
            cases known with
            | true => exact hnone
            | false => rfl

/-- The rows that an event records are those of the uses that it stands for. -/
theorem filter_recorded {event : TableEvent} (h : event.Iterates) (key : GuildId × EmojiId) :
    event.recorded.filter (fun use => use.key = key) = event.used key := by
  cases event with
  | message outcomes now msg => exact filter_message outcomes now msg
  | edit outcomes fromMicros iterate now evt => exact filter_edit outcomes h fromMicros now evt
  | reaction outcomes now evt => exact filter_reaction outcomes now evt
  | guildCreate | guildEmojisUpdate | maintenance | guildRowDeleted => rfl

end Recorded

/-- The uses of an emoji in the table are those since the last clean-up that left it out. -/
theorem filter_run {events : List TableEvent} (h : ∀ event ∈ events, event.Iterates) (key : GuildId × EmojiId) :
    (events.foldl TableEvent.handle []).filter (fun use => use.key = key) = usedSince events key := by
  have hstep : TableEvent.handle = usesOf.step := funext₂ handle_eq_step
  have hrun := Retention.filter_run consistent_usesOf [] events key
  rw [List.filter_nil, ite_self, List.nil_append] at hrun
  rw [hstep]
  refine hrun.trans ?_
  rw [Retention.addedSince, List.filter_flatMap, usedSince]
  refine List.flatMap_congr fun event hevent => filter_recorded ?_ key
  exact h event ((List.rtakeWhile_suffix _ _).subset hevent)

/-! ### Statistics -/

/-- The row is about these uses of an emoji of the guild. -/
structure EmojiStats.Describes (row : EmojiStats) (guildId : GuildId) (uses : List EmojiUse) : Prop where
  guildId : row.emoji.guildId = guildId
  timesUsed : row.timesUsed = uses.length
  lastUsedAt : IsGreatest {timestamp | ∃ use ∈ uses, use.createdAt = timestamp} row.lastUsedAt
  name : ∃ use ∈ uses, use.name = row.emoji.name
  animated : ∃ use ∈ uses, use.animated = row.emoji.animated

/-- An aggregate is one of the values. -/
structure Aggregates.Chooses (aggregates : Aggregates) : Prop where
  maxName : ∀ names, names ≠ [] → aggregates.maxName names ∈ names
  anyAnimated : ∀ animated, animated ≠ [] → aggregates.anyAnimated animated ∈ animated

theorem Aggregates.Chooses.describes {aggregates : Aggregates} (h : aggregates.Chooses) (guildId : GuildId)
    (emojiId : EmojiId) {uses : List EmojiUse} (huses : uses ≠ []) :
    (aggregates.statsOf guildId emojiId uses).Describes guildId uses where
  guildId := rfl
  timesUsed := rfl
  lastUsedAt := by
    obtain ⟨latest, hlatest⟩ := Option.ne_none_iff_exists'.mp
      (mt List.max?_eq_none_iff.mp (mt List.map_eq_nil_iff.mp huses) : (uses.map EmojiUse.createdAt).max? ≠ none)
    have heq : (aggregates.statsOf guildId emojiId uses).lastUsedAt = latest := by
      rw [Aggregates.statsOf, hlatest]
      rfl
    obtain ⟨hmem, hle⟩ := List.max?_eq_some_iff.mp hlatest
    rw [heq]
    refine ⟨List.mem_map.mp hmem, ?_⟩
    rintro _ ⟨use, huse, rfl⟩
    exact hle _ (List.mem_map_of_mem huse)
  name := List.mem_map.mp (h.maxName _ (mt List.map_eq_nil_iff.mp huses))
  animated := List.mem_map.mp (h.anyAnimated _ (mt List.map_eq_nil_iff.mp huses))

section
variable (aggregates : Aggregates) (guildId : GuildId) (uses : List EmojiUse)

theorem filter_key (emojiId : EmojiId) :
    (uses.filter fun use => use.guildId = guildId).filter (fun use => use.emojiId = emojiId) =
      uses.filter fun use => use.key = (guildId, emojiId) := by
  rw [List.filter_filter]
  refine List.filter_congr fun use _ => ?_
  simp [EmojiUse.key, and_comm]

theorem ids_emojiStats :
    (emojiStats aggregates guildId uses).map (fun row => row.emoji.id) =
      ((uses.filter fun use => use.guildId = guildId).map EmojiUse.emojiId).dedup := by
  rw [emojiStats, List.map_map]
  exact List.map_id _

theorem length_emojiStats : (emojiStats aggregates guildId uses).length = getEmojiStatCount uses guildId :=
  List.length_map _

theorem mem_ids_emojiStats_iff (emojiId : EmojiId) :
    emojiId ∈ (emojiStats aggregates guildId uses).map (fun row => row.emoji.id) ↔
      uses.filter (fun use => use.key = (guildId, emojiId)) ≠ [] := by
  rw [ids_emojiStats, List.mem_dedup, ← filter_key, List.mem_map, Ne, List.filter_eq_nil_iff]
  simp [and_assoc]

theorem eq_statsOf_of_mem {row : EmojiStats} (h : row ∈ emojiStats aggregates guildId uses) :
    row = aggregates.statsOf guildId row.emoji.id
      (uses.filter fun use => use.key = (guildId, row.emoji.id)) := by
  obtain ⟨emojiId, -, rfl⟩ := List.mem_map.mp h
  rw [filter_key]
  rfl

end

/-- The first values. -/
def Aggregates.first : Aggregates := ⟨fun names => names.headD "", fun animated => animated.headD false⟩

theorem Aggregates.chooses_first : Aggregates.first.Chooses where
  maxName names hnames := by
    obtain ⟨name, names, rfl⟩ := List.exists_cons_of_ne_nil hnames
    exact List.mem_cons_self
  anyAnimated animated hanimated := by
    obtain ⟨first, animated, rfl⟩ := List.exists_cons_of_ne_nil hanimated
    exact List.mem_cons_self

section Pages
variable (aggregates : Aggregates) (uses : List EmojiUse) (guild : Guild) (sort : StatsSort)

/-- What a page is made of. -/
def shownOn (orderBy : OrderBy) (page : UInt16) : Except Failure (List EmojiStats) := do
  let offset ← pageOffset page
  return getEmojiStats aggregates orderBy uses guild.id sort offset emojisPerPage

/-- The embed of a page lists what the table has for it. -/
theorem createEmojiStatsEmbed_eq {replies : Replies} (orderBy : OrderBy)
    (hstats : ∀ offset limit, replies.stats guild.id sort offset limit =
      .ok (getEmojiStats aggregates orderBy uses guild.id sort offset limit))
    (hvalidate : ∀ embed, replies.validate embed = .ok ()) (page total : UInt16) :
    (createEmojiStatsEmbed replies guild sort page total).map Embed.description =
      (shownOn aggregates uses guild sort orderBy page).map fun stats =>
        some (describe stats ++ degradedWarn replies.messageContent) := by
  unfold createEmojiStatsEmbed shownOn
  simp only [hstats, hvalidate]
  cases pageOffset page <;> rfl

instance : Std.Total sort.le := by
  constructor
  intro a b
  cases sort <;> exact Int.le_total ..

instance : IsTrans EmojiStats sort.le := by
  constructor
  intro a b c hab hbc
  cases sort
  · exact Int.le_trans hbc hab
  · exact Int.le_trans hab hbc
  · exact Int.le_trans hbc hab
  · exact Int.le_trans hab hbc

theorem nodup_emojiStats (guildId : GuildId) : (emojiStats aggregates guildId uses).Nodup := by
  refine List.Nodup.of_map (fun row => row.emoji.id) ?_
  rw [ids_emojiStats]
  exact List.nodup_dedup _

theorem shownOn_eq (orderBy : OrderBy) {i : ℕ} (hi : i < 4370) :
    shownOn aggregates uses guild sort orderBy (UInt16.ofNat (i + 1)) =
      .ok (Pages.page 15 i (orderBy sort (emojiStats aggregates guild.id uses))) := by
  have hpage : (UInt16.ofNat (i + 1)).toNat = i + 1 :=
    UInt16.toNat_ofNat_of_lt' (Nat.lt_of_lt_of_le (by omega) (by decide : 4371 ≤ UInt16.size))
  have hrange : HasOffset (UInt16.ofNat (i + 1)).toNat := by
    rw [hpage]
    exact ⟨by omega, by omega⟩
  obtain ⟨offset, hoffset, hvalue⟩ := pageOffset_of_hasOffset hrange
  rw [hpage, Nat.add_sub_cancel] at hvalue
  rw [shownOn, hoffset, ok_bind, getEmojiStats, hvalue]
  rfl

/-- The pages of at most 65550 emojis show each of them once, whatever order the database gives to those that tie,
exactly if no tie is cut by the end of a page. -/
theorem pages_show_all_iff (hcount : getEmojiStatCount uses guild.id ≤ 65550) :
    let rows := emojiStats aggregates guild.id uses
    let total := totalPagesOf (getEmojiStatCount uses guild.id)
    (∀ orderBy : ℕ → OrderBy, (∀ i, Pages.Sorted sort.le rows (orderBy i sort rows)) →
      ∃ pages, (List.range total.toNat).mapM (fun i =>
          shownOn aggregates uses guild sort (orderBy i) (UInt16.ofNat (i + 1))) = .ok pages ∧
        pages.flatten.Perm rows) ↔ Pages.Aligned sort.le 15 rows := by
  intro rows total
  have htotal : total.toNat = min ((rows.length + 14) / 15) 65535 := by
    rw [toNat_totalPagesOf, length_emojiStats]
  have hlength : rows.length ≤ 65550 := by rwa [length_emojiStats]
  have hpages : ∀ orderBy : ℕ → OrderBy, (List.range total.toNat).mapM (fun i =>
      shownOn aggregates uses guild sort (orderBy i) (UInt16.ofNat (i + 1))) =
        .ok ((List.range total.toNat).map fun i => Pages.page 15 i (orderBy i sort rows)) := by
    intro orderBy
    refine mapM_eq_ok fun i hi => shownOn_eq aggregates uses guild sort (orderBy i) ?_
    have := List.mem_range.mp hi
    omega
  have hbrowse : (∀ query : ℕ → List EmojiStats, (∀ i, Pages.Sorted sort.le rows (query i)) →
      (Pages.browse 15 total.toNat query).Perm rows) ↔ Pages.Aligned sort.le 15 rows :=
    Pages.browse_perm_iff (by decide) (nodup_emojiStats aggregates uses guild.id) (by omega)
  rw [← hbrowse]
  constructor
  · intro h query hsorted
    obtain ⟨pages, hshown, hperm⟩ := h (fun i _ _ => query i) hsorted
    rw [hpages] at hshown
    rw [← Except.ok.inj hshown] at hperm
    exact hperm
  · intro h orderBy hsorted
    exact ⟨_, hpages orderBy, h _ hsorted⟩

/-- Sixteen emojis that were used once each, one after another. By date two pages show them all, but by count the first
page ends inside a tie. -/
theorem pages_show_all_iff_of_sixteen :
    let guild : Guild := ⟨⟨3, by decide⟩, "a guild"⟩
    let id (n : ℕ) : EmojiId := if h : UInt64.ofNat n ≠ 0 then ⟨UInt64.ofNat n, h⟩ else ⟨16, by decide⟩
    let uses := (List.range 16).map fun n => EmojiUse.mk guild.id (id n) "a" false n
    let rows := emojiStats .first guild.id uses
    (∀ orderBy : ℕ → OrderBy, (∀ i, Pages.Sorted StatsSort.dateAsc.le rows (orderBy i .dateAsc rows)) →
      ∃ pages, (List.range (totalPagesOf (getEmojiStatCount uses guild.id)).toNat).mapM (fun i =>
          shownOn .first uses guild .dateAsc (orderBy i) (UInt16.ofNat (i + 1))) = .ok pages ∧
        pages.flatten.Perm rows) ∧
    ¬ Pages.Aligned StatsSort.countAsc.le 15 rows := by
  intro guild id uses rows
  refine ⟨(pages_show_all_iff .first uses guild .dateAsc (by decide +kernel)).mpr (by decide +kernel), ?_⟩
  decide +kernel

end Pages

end Tulpje.Emojis
