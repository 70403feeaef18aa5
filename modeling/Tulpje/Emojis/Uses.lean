import Mathlib.Data.Multiset.Dedup
import Tulpje.Emojis.Parsing
import Tulpje.Lib.Command
import Tulpje.Lib.Counting
import Tulpje.Lib.Lists

/-!
# Uses of emojis in messages

`handle_message` and `message_update` in `tulpje-mod-emoji/src/event_handlers.rs`. A new message is recorded with one
use for each occurrence of an emoji of the guild. An edit is compared with an empty text, whatever the message was
before, and recorded with one use for each emoji that occurs: `uses_recorded_alike_iff`.
-/

namespace Tulpje.Emojis

open Twilight Lib

/-! ### Discord and the table -/

abbrev Error := String
abbrev ApplicationId := Id .application

/-- A row of `emoji_uses`. -/
structure EmojiUse where
  guildId : GuildId
  emojiId : EmojiId
  name : String
  animated : Bool
  createdAt : Timestamp
  deriving DecidableEq

inductive Call
  | cacheContains (guildId : GuildId) (emojiId : EmojiId)
  | emoji (guildId : GuildId) (emojiId : EmojiId)
  | emojis (guildId : GuildId)
  | insertUse (use : EmojiUse)

/-- An answer that may still be unreadable has two layers. -/
@[reducible] def Call.Reply : Call → Type
  | cacheContains .. => Except Error Bool
  | emojis _ => Except Error (Except Error (List EmojiId))
  | emoji .. | insertUse _ => Except Error Unit

inductive Failure
  | error (err : Error)
  | panic

abbrev EmojiM := Prog Failure Call Call.Reply

def send (o : Call) : EmojiM o.Reply := Prog.send o

/-- What the cache and Discord say of the emojis of guilds. -/
structure World where
  cached : GuildId → EmojiId → Except Error Bool
  emoji : GuildId → EmojiId → Except Error Unit
  emojis : GuildId → Except Error (Except Error (List EmojiId))

/-- Every insert succeeds. -/
def World.eval (world : World) : (o : Call) → List EmojiUse → o.Reply × List EmojiUse
  | .cacheContains guildId emojiId, uses => (world.cached guildId emojiId, uses)
  | .emoji guildId emojiId, uses => (world.emoji guildId emojiId, uses)
  | .emojis guildId, uses => (world.emojis guildId, uses)
  | .insertUse use, uses => (.ok (), uses ++ [use])

/-! ### `shared.rs` and `db.rs` -/

def isGuildEmoji (guildId : GuildId) (emojiId : EmojiId) : EmojiM Bool := do
  match ← send (.cacheContains guildId emojiId) with
  | .error err => Prog.throw (.error err)
  | .ok true => pure true
  | .ok false =>
    match ← send (.emoji guildId emojiId) with
    | .ok () => pure true
    | .error _ => pure false

def useOf (timestamp : Timestamp) (emote : Emoji) : EmojiUse :=
  ⟨emote.guildId, emote.id, emote.name, emote.animated, timestamp⟩

def saveEmojiUse (emote : Emoji) (timestamp : Timestamp) : EmojiM (Except Error Unit) :=
  send (.insertUse (useOf timestamp emote))

/-- `count + 1`; an overflow is a panic. -/
def increment (count : Int16) : Option Int16 := if count < Int16.maxValue then some (count + 1) else none

/-- The entries of a hash map; emojis are equal if their ids are. -/
abbrev EmojiCounts := List (Emoji × Int16)

def countEmojis (emojis : List Emoji) : Option EmojiCounts := Counting.countAll Emoji.id 1 increment emojis

example :
    let emoji id := Emoji.new id ⟨1, by decide⟩ "foo" false
    countEmojis [emoji ⟨1, by decide⟩, emoji ⟨1, by decide⟩, emoji ⟨2, by decide⟩] =
      some [(emoji ⟨1, by decide⟩, 2), (emoji ⟨2, by decide⟩, 1)] := by
  decide

/-! ### `event_handlers.rs` -/

structure MessageCreate where
  guildId : Option GuildId
  applicationId : Option ApplicationId
  content : String

structure MessageUpdate extends MessageCreate where
  timestamp : Timestamp

def isPkProxy (applicationId : Option ApplicationId) : Bool :=
  applicationId.any fun id => id.get = 466378653216014359

/-- A failure to save is logged. -/
def handleMessage (now : Timestamp) (msg : MessageCreate) : EmojiM PUnit :=
  match msg.guildId with
  | none => pure ⟨⟩
  | some guildId =>
    if isPkProxy msg.applicationId then pure ⟨⟩
    else
      match parseEmojisFromString guildId msg.content with
      | none => Prog.throw .panic
      | some emotes => emotes.forM fun emote => do
        if ← isGuildEmoji guildId emote.id then
          let _ ← saveEmojiUse emote now

/-- The uses that the counts of `new` exceed those of `old` by. -/
def saveChanges (timestamp : Timestamp) (old new : EmojiCounts) : EmojiM PUnit :=
  new.forM fun (emote, count) => do
    let change := count - (Counting.get Emoji.id old emote.id).getD 0
    if change ≤ 0 then pure ⟨⟩
    else
      let _ ← saveEmojiUse emote timestamp

def countGuildEmojis (guildId : GuildId) (guildEmojis : List EmojiId) (content : String) : Option EmojiCounts := do
  let emotes ← parseEmojisFromString guildId content
  countEmojis (emotes.filter fun e => e.id ∈ guildEmojis)

/-- `fromMicros` is `from_timestamp_micros`, and `iterate` the order of a hash map. -/
def messageUpdate (fromMicros : Timestamp → Option Timestamp) (iterate : EmojiCounts → EmojiCounts) (now : Timestamp)
    (evt : MessageUpdate) : EmojiM PUnit :=
  if isPkProxy evt.applicationId then pure ⟨⟩
  else
    match evt.guildId with
    | none => pure ⟨⟩
    | some guildId => do
      match ← send (.emojis guildId) with
      | .error err | .ok (.error err) => Prog.throw (.error err)
      | .ok (.ok guildEmojis) =>
      let timestamp := (fromMicros evt.timestamp).getD now
      match countGuildEmojis guildId guildEmojis "", countGuildEmojis guildId guildEmojis evt.content with
      | some oldEmoteCount, some newEmoteCount => saveChanges timestamp oldEmoteCount (iterate newEmoteCount)
      | _, _ => Prog.throw .panic

/-! ### What is recorded -/

/-- The occurrences of emojis of the guild. -/
def occurrences (guildEmojis : Finset EmojiId) (found : List Emoji) : Multiset EmojiId :=
  (found.filter fun e => e.id ∈ guildEmojis).map Emoji.id

/-- A use counts by its guild and its emoji. -/
def EmojiUse.key (use : EmojiUse) : GuildId × EmojiId := (use.guildId, use.emojiId)

/-- The handler returns, and has added uses of these emojis. -/
def Records (world : World) (guildId : GuildId) (handler : EmojiM PUnit) (ids : Multiset EmojiId) : Prop :=
  ∀ uses, ∃ rows : List EmojiUse, handler.exec world.eval uses = (.ok ⟨⟩, uses ++ rows) ∧
    (rows.map EmojiUse.key : Multiset (GuildId × EmojiId)) = ids.map fun id => (guildId, id)

/-- The cache, Discord and its list of emojis agree. -/
structure World.Knows (world : World) (guildId : GuildId) (guildEmojis : Finset EmojiId) : Prop where
  single : ∀ id, ∃ cached, world.cached guildId id = .ok cached ∧
    (id ∈ guildEmojis ↔ cached = true ∨ world.emoji guildId id = .ok ())
  listed : ∃ ids, world.emojis guildId = .ok (.ok ids) ∧ ∀ id, id ∈ ids ↔ id ∈ guildEmojis

section Records
variable {world : World} {guildId : GuildId} {guildEmojis : Finset EmojiId}

theorem Records.unique {handler : EmojiM PUnit} {ids ids' : Multiset EmojiId}
    (h : Records world guildId handler ids) (h' : Records world guildId handler ids') : ids = ids' := by
  obtain ⟨rows, hexec, hrows⟩ := h []
  obtain ⟨rows', hexec', hrows'⟩ := h' []
  obtain rfl : rows = rows' := by
    rw [hexec] at hexec'
    simpa using hexec'
  exact Multiset.map_injective (Prod.mk_right_injective guildId) (hrows.symm.trans hrows')

theorem guildId_of_parse {content : String} {found : List Emoji}
    (h : parseEmojisFromString guildId content = some found) {emote : Emoji} (hemote : emote ∈ found) :
    emote.guildId = guildId := by
  obtain ⟨before, m, after, -, hm⟩ := (leftmost_of_parse h).exists_match hemote
  exact hm.1

/-- Saved emojis of the guild. -/
theorem key_useOf {emotes : List Emoji} (h : ∀ emote ∈ emotes, emote.guildId = guildId) (timestamp : Timestamp) :
    ((emotes.map (useOf timestamp)).map EmojiUse.key : Multiset (GuildId × EmojiId)) =
      Multiset.map (fun id => (guildId, id)) (emotes.map Emoji.id) := by
  rw [Multiset.map_coe, List.map_map, List.map_map]
  refine congrArg _ (List.map_congr_left fun emote hemote => ?_)
  exact congrArg (·, emote.id) (h emote hemote)

/-! ### A new message -/

theorem exec_isGuildEmoji (hworld : world.Knows guildId guildEmojis) (id : EmojiId) (uses : List EmojiUse) :
    (isGuildEmoji guildId id).exec world.eval uses = (.ok (decide (id ∈ guildEmojis)), uses) := by
  obtain ⟨cached, hcached, hiff⟩ := hworld.single id
  have hcontains : (send (.cacheContains guildId id)).exec world.eval uses = (.ok (.ok cached), uses) := by
    rw [← hcached]
    rfl
  refine (Prog.exec_bind_ok hcontains _).trans ?_
  cases cached with
  | true => rw [decide_eq_true (hiff.mpr (.inl rfl))]; rfl
  | false =>
    have hemoji : (send (.emoji guildId id)).exec world.eval uses = (.ok (world.emoji guildId id), uses) := rfl
    refine (Prog.exec_bind_ok hemoji _).trans ?_
    cases hreply : world.emoji guildId id with
    | ok => rw [decide_eq_true (hiff.mpr (.inr hreply))]; rfl
    | error err =>
      rw [decide_eq_false fun hmem => by simpa [hreply] using hiff.mp hmem]
      rfl

theorem records_handleMessage (hworld : world.Knows guildId guildEmojis) {msg : MessageCreate}
    (hguild : msg.guildId = some guildId) (hproxy : isPkProxy msg.applicationId = false) {found : List Emoji}
    (hparse : parseEmojisFromString guildId msg.content = some found) (now : Timestamp) :
    Records world guildId (handleMessage now msg) (occurrences guildEmojis found) := by
  intro uses
  refine ⟨(found.filter fun e => e.id ∈ guildEmojis).map (useOf now), ?_,
    key_useOf (fun emote hemote => guildId_of_parse hparse (List.mem_of_mem_filter hemote)) now⟩
  rw [handleMessage, hguild]
  dsimp only
  rw [hproxy, if_neg Bool.false_ne_true, hparse]
  dsimp only
  rw [← foldl_append_if]
  refine Prog.exec_forM (fun emote _ uses => ?_) uses
  refine (Prog.exec_bind_ok (exec_isGuildEmoji hworld emote.id uses) _).trans ?_
  by_cases hmem : emote.id ∈ guildEmojis
  · rw [if_pos hmem, decide_eq_true hmem]
    rfl
  · rw [if_neg hmem, decide_eq_false hmem]
    rfl

/-! ### An edit -/

theorem lt_maxValue_iff (count : Int16) : count < Int16.maxValue ↔ count.toInt < 32767 := by
  rw [Int16.lt_iff_toInt_lt]
  exact Iff.rfl

theorem limited_increment : Counting.Limited 1 increment (fun count => count.toInt.toNat) 32767 where
  one := rfl
  pos := by decide
  raised count hpos h := by
    have hlt : count < Int16.maxValue := (lt_maxValue_iff count).mpr (by omega)
    have hone : (1 : Int16).toInt = 1 := rfl
    refine ⟨count + 1, if_pos hlt, ?_⟩
    rw [Int16.toInt_add, hone, Int.bmod_eq_of_le (by omega) (by omega)]
    omega
  full count h := by
    refine if_neg fun hlt => ?_
    have := (lt_maxValue_iff count).mp hlt
    omega

/-- The keys of the counts are the different elements. -/
theorem keys_eq_dedup {emotes : List Emoji} {counts : EmojiCounts}
    (h : Counting.Counts Emoji.id (fun count => count.toInt.toNat) emotes counts) :
    (counts.map fun entry => entry.1.id : Multiset EmojiId) = Multiset.dedup (emotes.map Emoji.id) := by
  refine (Multiset.Nodup.ext (Multiset.coe_nodup.mpr h.nodup) (Multiset.nodup_dedup _)).mpr fun id => ?_
  rw [Multiset.mem_dedup, Multiset.mem_coe, Multiset.mem_coe]
  exact h.mem id

theorem exec_saveChanges (timestamp : Timestamp) (old new : EmojiCounts) (uses : List EmojiUse) :
    (saveChanges timestamp old new).exec world.eval uses =
      (.ok ⟨⟩, uses ++ (new.filter fun entry =>
        ¬ entry.2 - (Counting.get Emoji.id old entry.1.id).getD 0 ≤ 0).map fun entry => useOf timestamp entry.1) := by
  rw [saveChanges, ← foldl_append_if]
  refine Prog.exec_forM (fun entry _ uses => ?_) uses
  by_cases hchange : entry.2 - (Counting.get Emoji.id old entry.1.id).getD 0 ≤ 0
  · rw [if_neg (not_not_intro hchange)]
    exact (congrArg (Prog.exec world.eval · uses) (if_pos hchange))
  · rw [if_pos hchange]
    exact (congrArg (Prog.exec world.eval · uses) (if_neg hchange))

/-- The counts of emojis of the guild. -/
theorem countGuildEmojis_eq {guildEmojis' : List EmojiId} (h : ∀ id, id ∈ guildEmojis' ↔ id ∈ guildEmojis)
    {content : String} {found : List Emoji} (hparse : parseEmojisFromString guildId content = some found) :
    countGuildEmojis guildId guildEmojis' content = countEmojis (found.filter fun e => e.id ∈ guildEmojis) := by
  rw [countGuildEmojis, hparse]
  simp only [h]
  rfl

theorem parse_empty : parseEmojisFromString guildId "" = some [] := rfl

section Edit
variable {iterate : EmojiCounts → EmojiCounts} (hiterate : ∀ counts, (iterate counts).Perm counts)
  (hworld : world.Knows guildId guildEmojis) {evt : MessageUpdate} (hguild : evt.guildId = some guildId)
  (hproxy : isPkProxy evt.applicationId = false) {found : List Emoji}
  (hparse : parseEmojisFromString guildId evt.content = some found)

include hworld hguild hproxy hparse

theorem exec_messageUpdate (fromMicros : Timestamp → Option Timestamp) (now : Timestamp) (uses : List EmojiUse) :
    (messageUpdate fromMicros iterate now evt).exec world.eval uses =
      match countEmojis (found.filter fun e => e.id ∈ guildEmojis) with
      | some counts => (saveChanges ((fromMicros evt.timestamp).getD now) [] (iterate counts)).exec world.eval uses
      | none => (.error .panic, uses) := by
  obtain ⟨ids, hids, hmem⟩ := hworld.listed
  have hsend : (send (.emojis guildId)).exec world.eval uses = (.ok (.ok (.ok ids)), uses) := by
    rw [← hids]
    rfl
  rw [messageUpdate, hproxy, if_neg Bool.false_ne_true, hguild]
  refine (Prog.exec_bind_ok hsend _).trans ?_
  dsimp only
  rw [countGuildEmojis_eq hmem parse_empty, countGuildEmojis_eq hmem hparse]
  cases countEmojis (found.filter fun e => e.id ∈ guildEmojis) <;> rfl

include hiterate in
/-- An edit is recorded with one use for each emoji that occurs. -/
theorem records_messageUpdate (hlimit : ∀ id, (occurrences guildEmojis found).count id ≤ 32767)
    (fromMicros : Timestamp → Option Timestamp) (now : Timestamp) :
    Records world guildId (messageUpdate fromMicros iterate now evt) (occurrences guildEmojis found).dedup := by
  have hcount : ∀ id, ((found.filter fun e => e.id ∈ guildEmojis).map Emoji.id).count id ≤ 32767 := by
    simpa only [occurrences, Multiset.coe_count] using hlimit
  obtain ⟨counts, hcounts, h⟩ := Counting.countAll_of_le limited_increment _ hcount
  have hmem : ∀ entry ∈ iterate counts, entry ∈ counts := fun entry => (hiterate counts).mem_iff.mp
  have hchange : (iterate counts).filter (fun entry =>
      ¬ entry.2 - (Counting.get Emoji.id [] entry.1.id).getD 0 ≤ 0) = iterate counts := by
    refine List.filter_eq_self.mpr fun entry hentry => decide_eq_true fun hle => ?_
    have hpos : 0 < entry.2.toInt.toNat := by
      rw [h.value entry (hmem entry hentry)]
      exact List.count_pos_iff.mpr (List.mem_map_of_mem (h.element entry (hmem entry hentry)))
    have hle : entry.2.toInt ≤ 0 := by simpa [Counting.get, Int16.le_iff_toInt_le] using hle
    omega
  have hguilds : ∀ emote ∈ (iterate counts).map Prod.fst, emote.guildId = guildId := by
    intro emote hemote
    obtain ⟨entry, hentry, rfl⟩ := List.mem_map.mp hemote
    exact guildId_of_parse hparse (List.mem_of_mem_filter (h.element entry (hmem entry hentry)))
  intro uses
  refine ⟨((iterate counts).map Prod.fst).map (useOf ((fromMicros evt.timestamp).getD now)), ?_, ?_⟩
  · rw [exec_messageUpdate hworld hguild hproxy hparse, countEmojis, hcounts]
    dsimp only
    rw [exec_saveChanges, hchange, List.map_map]
    rfl
  · have hids : (((iterate counts).map Prod.fst).map Emoji.id).Perm (counts.map fun entry => entry.1.id) := by
      rw [List.map_map]
      exact (hiterate counts).map _
    rw [key_useOf hguilds, Multiset.coe_eq_coe.mpr hids, keys_eq_dedup h, occurrences]

theorem not_records_messageUpdate {id : EmojiId} (hid : 32767 < (occurrences guildEmojis found).count id)
    (fromMicros : Timestamp → Option Timestamp) (now : Timestamp) (ids : Multiset EmojiId) :
    ¬ Records world guildId (messageUpdate fromMicros iterate now evt) ids := by
  intro h
  have hcount : 32767 < ((found.filter fun e => e.id ∈ guildEmojis).map Emoji.id).count id := by
    simpa only [occurrences, Multiset.coe_count] using hid
  obtain ⟨rows, hexec, -⟩ := h []
  rw [exec_messageUpdate hworld hguild hproxy hparse, countEmojis,
    Counting.countAll_of_gt limited_increment hcount] at hexec
  cases hexec

include hiterate in
theorem records_messageUpdate_iff (fromMicros : Timestamp → Option Timestamp) (now : Timestamp)
    (ids : Multiset EmojiId) :
    Records world guildId (messageUpdate fromMicros iterate now evt) ids ↔
      (∀ id, (occurrences guildEmojis found).count id ≤ 32767) ∧ ids = (occurrences guildEmojis found).dedup := by
  have hdedup := records_messageUpdate hiterate hworld hguild hproxy hparse
  constructor
  · intro h
    have hlimit : ∀ id, (occurrences guildEmojis found).count id ≤ 32767 := by
      intro id
      by_contra hid
      exact not_records_messageUpdate hworld hguild hproxy hparse (Nat.not_le.mp hid) fromMicros now ids h
    exact ⟨hlimit, h.unique (hdedup hlimit fromMicros now)⟩
  · rintro ⟨hlimit, rfl⟩
    exact hdedup hlimit fromMicros now

end Edit

end Records

/-- What is left of `s` is each element once exactly if each occurs once more than in `t`. -/
theorem sub_eq_dedup_iff {s t : Multiset EmojiId} : s - t = s.dedup ↔ ∀ id ∈ s, s.count id = t.count id + 1 := by
  rw [Multiset.ext]
  simp only [Multiset.count_sub, Multiset.count_dedup]
  constructor
  · intro hcount id hid
    have hone := hcount id
    rw [if_pos hid] at hone
    omega
  · intro hnew id
    by_cases hid : id ∈ s
    · rw [if_pos hid, hnew id hid, Nat.add_sub_cancel_left]
    · rw [if_neg hid, Multiset.count_eq_zero_of_notMem hid, Nat.zero_sub]

/-- A new message is recorded with one use for each occurrence of an emoji of the guild. An edit from an empty text
does the same if no emoji occurs twice, and an edit from any text is recorded with the occurrences that are new if of
each emoji that occurs exactly one occurrence is. -/
theorem uses_recorded_alike_iff (world : World) (guildId : GuildId) (guildEmojis : Finset EmojiId)
    (hworld : world.Knows guildId guildEmojis) (iterate : EmojiCounts → EmojiCounts)
    (hiterate : ∀ counts, (iterate counts).Perm counts) (fromMicros : Timestamp → Option Timestamp)
    (now timestamp : Timestamp) (applicationId : Option ApplicationId) (hproxy : isPkProxy applicationId = false)
    (content : String) (found : List Emoji) (hparse : parseEmojisFromString guildId content = some found) :
    let msg : MessageCreate := ⟨some guildId, applicationId, content⟩
    let edit := messageUpdate fromMicros iterate now ⟨msg, timestamp⟩
    let new := occurrences guildEmojis found
    Records world guildId (handleMessage now msg) new ∧
    (Records world guildId edit new ↔ new.Nodup) ∧
    ∀ oldContent oldFound, parseEmojisFromString guildId oldContent = some oldFound →
      let old := occurrences guildEmojis oldFound
      (Records world guildId edit (new - old) ↔
        ∀ id ∈ new, new.count id = old.count id + 1 ∧ new.count id ≤ 32767) := by
  intro msg edit new
  have hedit : ∀ ids, Records world guildId edit ids ↔ (∀ id, new.count id ≤ 32767) ∧ ids = new.dedup :=
    records_messageUpdate_iff hiterate hworld rfl hproxy hparse fromMicros now
  refine ⟨records_handleMessage hworld rfl hproxy hparse now, ?_, fun oldContent oldFound _ => ?_⟩
  · rw [hedit]
    constructor
    · exact fun h => Multiset.dedup_eq_self.mp h.2.symm
    · intro hnodup
      refine ⟨fun id => ?_, (Multiset.dedup_eq_self.mpr hnodup).symm⟩
      exact Nat.le_trans (Multiset.nodup_iff_count_le_one.mp hnodup id) (by decide)
  · intro old
    rw [hedit, sub_eq_dedup_iff, and_comm]
    constructor
    · exact fun ⟨hone, hlimit⟩ id hid => ⟨hone id hid, hlimit id⟩
    · intro hnew
      refine ⟨fun id hid => (hnew id hid).1, fun id => ?_⟩
      by_cases hid : id ∈ new
      · exact (hnew id hid).2
      · rw [Multiset.count_eq_zero_of_notMem hid]
        exact Nat.zero_le _

/-- A guild with one emoji. -/
def oneEmoji (id : EmojiId) : World where
  cached _ emojiId := .ok (emojiId = id)
  emoji _ _ := .error "not found"
  emojis _ := .ok (.ok [id])

theorem knows_oneEmoji (guildId : GuildId) (id : EmojiId) : (oneEmoji id).Knows guildId {id} where
  single emojiId := ⟨_, rfl, by simp [oneEmoji]⟩
  listed := ⟨[id], rfl, by simp⟩

/-- The emoji of the guild and another one in an edit, and the other one alone before. -/
theorem uses_recorded_alike_iff_of_one :
    let guildId : GuildId := ⟨3, by decide⟩
    let a : Emoji := .new ⟨1, by decide⟩ guildId "a" false
    let b : Emoji := .new ⟨2, by decide⟩ guildId "b" true
    let msg : MessageCreate := ⟨some guildId, none, "<:a:1><a:b:2>"⟩
    let edit := messageUpdate some (fun counts => counts) 0 ⟨msg, 0⟩
    let new := occurrences {a.id} [a, b]
    Records (oneEmoji a.id) guildId (handleMessage 0 msg) new ∧ Records (oneEmoji a.id) guildId edit new ∧
      Records (oneEmoji a.id) guildId edit (new - occurrences {a.id} [b]) := by
  intro guildId a b msg edit new
  obtain ⟨hcreate, hempty, hold⟩ := uses_recorded_alike_iff (oneEmoji a.id) guildId {a.id} (knows_oneEmoji guildId a.id)
    (fun counts => counts) (fun _ => .rfl) some 0 0 none rfl "<:a:1><a:b:2>" [a, b] (by decide)
  refine ⟨hcreate, hempty.mpr (by decide), (hold "<a:b:2>" [b] (by decide)).mpr (by decide)⟩

/-- An emoji that occurs twice is recorded twice in a new message and once in an edit. -/
theorem repeated_emoji_is_recorded_once :
    let guildId : GuildId := ⟨3, by decide⟩
    let a : Emoji := .new ⟨1, by decide⟩ guildId "a" false
    let msg : MessageCreate := ⟨some guildId, none, "<:a:1><:a:1>"⟩
    (oneEmoji a.id).Knows guildId {a.id} ∧
    (handleMessage 0 msg).exec (oneEmoji a.id).eval [] = (.ok ⟨⟩, [useOf 0 a, useOf 0 a]) ∧
    (messageUpdate some (fun counts => counts) 0 ⟨msg, 0⟩).exec (oneEmoji a.id).eval [] = (.ok ⟨⟩, [useOf 0 a]) := by
  refine ⟨knows_oneEmoji _ _, rfl, rfl⟩

end Tulpje.Emojis
