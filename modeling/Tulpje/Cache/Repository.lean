import Tulpje.Cache.Store

/-!
# Repositories

The four kinds of repository of `tulpje-cache/src/repository.rs`, the cache with its fields, and its
configuration. A repository that is not wanted writes nothing; of the reads only `is_empty` and
`SingleRepository::get` look at the flag, and `is_empty` returns whether Redis *has* the key.

For each operation there is a lemma on what it does when it is wanted, and one on the area it touches.
-/

namespace Tulpje.Cache

open Twilight Lib

/-- `serde_json` rejects the text of an entry. Redis itself does not fail here. -/
inductive Error
  | json
  deriving DecidableEq

/-- A method of the cache: its commands one after the other, each after the reply to the one before. -/
abbrev CacheM := Prog Error Op Op.Reply

def send (o : Op) : CacheM o.Reply := Prog.send o

/-- The program issues only commands about these areas, and it never fails unless `fails`. -/
def Touches {α : Type} (areas : List Area) (fails : Prop) (p : CacheM α) : Prop :=
  p.All (fun o => o.area ∈ areas) fun _ => fails

/-- Values by key in one hash. `encode` and `decode` are the text of an entry, which may be that of another type. -/
structure Repository (hash : HashName) (K V : Type) where
  field : K → hash.Field
  encode : V → hash.Entry
  decode : hash.Entry → Option V
  wanted : Bool

namespace Repository

variable {hash : HashName} {K V : Type}

/-- A repository whose hash holds no other entries. -/
def new (hash : HashName) (wanted : Bool) : Repository hash hash.Field hash.Entry :=
  ⟨id, id, some, wanted⟩

/-- `get` does not ask whether the type is wanted. -/
def get (self : Repository hash K V) (key : K) : CacheM (Option V) := do
  match ← send (.hget hash (self.field key)) with
  | none => pure none
  | some entry =>
    match self.decode entry with
    | some value => pure (some value)
    | none => Prog.throw .json

/-- Whether the field is new. Nothing is written for a type that is not wanted. -/
def insert (self : Repository hash K V) (key : K) (value : V) : CacheM Bool := do
  if !self.wanted then
    return false
  let added ← send (.hset hash (self.field key) (self.encode value))
  return added > 0

/-- Whether there was a value. -/
def remove (self : Repository hash K V) (key : K) : CacheM Bool := do
  if !self.wanted then
    return false
  let removed ← send (.hdel hash {self.field key})
  return removed > 0

/-- How many there were. Redis is not asked to remove none. -/
def removeMulti (self : Repository hash K V) (keys : Finset K) : CacheM Nat := do
  if !self.wanted then
    return 0
  let keys := keys.image self.field
  if keys = ∅ then
    return 0
  send (.hdel hash keys)

end Repository

/-- One set of Redis. -/
structure SetRepository (n : SetName) where
  key : n.Key
  wanted : Bool

namespace SetRepository

variable {n : SetName}

def members (self : SetRepository n) : CacheM (Finset n.Elem) := send (.smembers n self.key)

def contains (self : SetRepository n) (value : n.Elem) : CacheM Bool := do
  let found ← send (.sismember n self.key value)
  return found > 0

/-- The reply to `EXISTS` is passed on as it is, so a set with members is said to be empty. -/
def isEmpty (self : SetRepository n) : CacheM Bool := do
  if !self.wanted then
    return false
  send (.existsKey n self.key)

def insert (self : SetRepository n) (value : n.Elem) : CacheM Bool := do
  if !self.wanted then
    return false
  let added ← send (.sadd n self.key value)
  return added > 0

def remove (self : SetRepository n) (value : n.Elem) : CacheM Bool := do
  if !self.wanted then
    return false
  let removed ← send (.srem n self.key {value})
  return removed > 0

def removeMulti (self : SetRepository n) (values : Finset n.Elem) : CacheM Nat := do
  if !self.wanted then
    return 0
  if values = ∅ then
    return 0
  send (.srem n self.key values)

/-- The key itself is deleted. -/
def clear (self : SetRepository n) : CacheM Bool := do
  if !self.wanted then
    return false
  let removed ← send (.del n self.key)
  return removed > 0

end SetRepository

/-- A set for each key, all under one name. -/
structure MappedSetRepository (n : SetName) where
  wanted : Bool

namespace MappedSetRepository

variable {n : SetName}

/-- The repository of one key's set. -/
def setRepository (self : MappedSetRepository n) (key : n.Key) : SetRepository n := ⟨key, self.wanted⟩

def members (self : MappedSetRepository n) (key : n.Key) : CacheM (Finset n.Elem) :=
  (self.setRepository key).members

def isEmpty (self : MappedSetRepository n) (key : n.Key) : CacheM Bool :=
  (self.setRepository key).isEmpty

def contains (self : MappedSetRepository n) (key : n.Key) (value : n.Elem) : CacheM Bool :=
  (self.setRepository key).contains value

def insert (self : MappedSetRepository n) (key : n.Key) (value : n.Elem) : CacheM Bool :=
  (self.setRepository key).insert value

def remove (self : MappedSetRepository n) (key : n.Key) (value : n.Elem) : CacheM Bool :=
  (self.setRepository key).remove value

def clear (self : MappedSetRepository n) (key : n.Key) : CacheM Bool := (self.setRepository key).clear

def removeMulti (self : MappedSetRepository n) (key : n.Key) (values : Finset n.Elem) : CacheM Nat :=
  (self.setRepository key).removeMulti values

end MappedSetRepository

/-- The repository of the current user, the only value type of a `SingleRepository`. -/
structure SingleRepository where
  wanted : Bool

namespace SingleRepository

def set (self : SingleRepository) (value : CachedCurrentUser) : CacheM Unit := do
  if !self.wanted then
    return ()
  send (.set value)

def get (self : SingleRepository) : CacheM (Option CachedCurrentUser) := do
  if !self.wanted then
    return none
  send .get

end SingleRepository

/-! ### The cache -/

/-- What the cache can be told to keep. -/
inductive ResourceType
  | channel | emoji | guild | guildScheduledEvent | integration | member | message | presence
  | reaction | role | stageInstance | sticker | user | userCurrent | voiceState
  deriving DecidableEq

/-- What is cached, and how many messages of a channel. -/
structure Config where
  resourceTypes : ResourceType → Bool
  messageCacheSize : Nat

/-- All resource types. -/
def Config.all (messageCacheSize : Nat) : Config := ⟨fun _ => true, messageCacheSize⟩

def Config.wants (self : Config) (resourceType : ResourceType) : Bool := self.resourceTypes resourceType

/-- The name under which the repository of users is made. -/
inductive UsersName
  | emojis
  | users
  deriving DecidableEq

/-- The hash of that name. -/
def UsersName.hash : UsersName → HashName
  | emojis => .emojis
  | users => .users

end Tulpje.Cache

/-- A cache; its repositories are the definitions of the same names below. -/
structure Tulpje.Cache where
  config : Tulpje.Cache.Config
  usersName : Tulpje.Cache.UsersName

namespace Tulpje.Cache

open Twilight Lib

/-- `Cache::new` passes `"emojis"` as the name of the users. -/
def new (config : Config) : Cache := ⟨config, .emojis⟩

variable (self : Cache)

def guilds : Repository .guilds (Id .guild) CachedGuild := .new .guilds (self.config.wants .guild)

def guildChannels : MappedSetRepository .guildChannels := ⟨self.config.wants .channel⟩

def guildScheduledEvents : MappedSetRepository .guildScheduledEvents :=
  ⟨self.config.wants .guildScheduledEvent⟩

def guildIntegrations : MappedSetRepository .guildIntegrations := ⟨self.config.wants .integration⟩

def guildMembers : MappedSetRepository .guildMembers := ⟨self.config.wants .member⟩

def guildPresences : MappedSetRepository .guildPresences := ⟨self.config.wants .presence⟩

def guildEmojis : MappedSetRepository .guildEmojis := ⟨self.config.wants .emoji⟩

def guildRoles : MappedSetRepository .guildRoles := ⟨self.config.wants .role⟩

def guildStageInstances : MappedSetRepository .guildStageInstances :=
  ⟨self.config.wants .stageInstance⟩

def guildStickers : MappedSetRepository .guildStickers := ⟨self.config.wants .sticker⟩

def unavailableGuilds : SetRepository .unavailableGuilds := ⟨(), self.config.wants .guild⟩

def channels : Repository .channels (Id .channel) CachedChannel :=
  .new .channels (self.config.wants .channel)

def channelMessages : Repository .channelMessages (Id .channel) (List (Id .message)) :=
  .new .channelMessages (self.config.wants .message)

def scheduledEvents : Repository .scheduledEvents (Id .scheduledEvent) CachedGuildScheduledEvent :=
  .new .scheduledEvents (self.config.wants .guildScheduledEvent)

def integrations :
    Repository .integrations (Id .guild × Id .integration) (GuildResource CachedGuildIntegration) :=
  .new .integrations (self.config.wants .integration)

def members : Repository .members (Id .guild × Id .user) CachedMember :=
  .new .members (self.config.wants .member)

def messages : Repository .messages (Id .message) CachedMessage :=
  .new .messages (self.config.wants .message)

def presences : Repository .presences (Id .guild × Id .user) CachedPresence :=
  .new .presences (self.config.wants .presence)

/-- An emoji is stored under the bare number of its id. -/
def emojis : Repository .emojis (Id .emoji) (GuildResource CachedEmoji) :=
  ⟨fun key => key.get, .emoji, EmojisEntry.toEmoji, self.config.wants .emoji⟩

def roles : Repository .roles (Id .role) (GuildResource CachedRole) :=
  .new .roles (self.config.wants .role)

def stageInstances : Repository .stageInstances (Id .stage) (GuildResource CachedStageInstance) :=
  .new .stageInstances (self.config.wants .stageInstance)

def stickers : Repository .stickers (Id .sticker) (GuildResource CachedSticker) :=
  .new .stickers (self.config.wants .sticker)

def currentUser : SingleRepository := ⟨self.config.wants .userCurrent⟩

/-- Under the name of the emojis a user is stored among them. -/
def users : Repository self.usersName.hash (Id .user) CachedUser :=
  match self.usersName with
  | .emojis => ⟨fun key => key.get, .user, EmojisEntry.toUser, self.config.wants .user⟩
  | .users => .new .users (self.config.wants .user)

def userGuilds : MappedSetRepository .userGuilds := ⟨self.config.wants .user⟩

def voiceStateChannels : MappedSetRepository .voiceStateChannels := ⟨self.config.wants .voiceState⟩

def voiceStateGuilds : MappedSetRepository .voiceStateGuilds := ⟨self.config.wants .voiceState⟩

def voiceStates : Repository .voiceStates (Id .guild × Id .user) CachedVoiceState :=
  .new .voiceStates (self.config.wants .voiceState)

end Tulpje.Cache

/-! ### What the operations do -/

namespace Tulpje.Cache

open Twilight Lib

theorem exec_send (o : Op) (s : State) : (send o).exec eval s = (.ok (eval o s).1, (eval o s).2) := rfl

theorem touches_send {areas : List Area} {fails : Prop} {o : Op} (h : o.area ∈ areas) : Touches areas fails (send o) :=
  Prog.All.send h

section Touches
variable {α β : Type} {areas areas' : List Area} {fails : Prop}

theorem Touches.pure (a : α) : Touches areas fails (Pure.pure a : CacheM α) := Prog.All.pure a

theorem Touches.bind {p : CacheM α} {f : α → CacheM β} (hp : Touches areas fails p)
    (hf : ∀ a, Touches areas fails (f a)) : Touches areas fails (p >>= f) := Prog.All.bind hp hf

theorem Touches.forM {xs : List α} {p : α → CacheM PUnit} (hp : ∀ x, Touches areas fails (p x)) :
    Touches areas fails (xs.forM p) := Prog.All.forM fun x _ => hp x

/-- `if !self.wanted { return a; }` before a program. -/
theorem all_ifWanted {P : Op → Prop} {E : Error → Prop} {wanted : Bool} {a : α} {p : CacheM α} (hp : p.All P E) :
    Prog.All P E (if !wanted then Pure.pure a else p) := by
  cases wanted
  · exact Prog.All.pure a
  · exact hp

theorem Touches.mono {p : CacheM α} (hp : Touches areas fails p) (h : areas ⊆ areas') :
    Touches areas' fails p := Prog.All.imp hp fun _ ho => h ho

theorem Touches.exec_ok {p : CacheM α} (hp : Touches areas False p) (s : State) :
    ∃ a, p.exec eval s = (.ok a, (p.exec eval s).2) := Prog.exec_ok_of_all hp s

theorem Touches.hashes {p : CacheM α} (hp : Touches areas fails p) {h : HashName}
    (hh : Area.hash h ∉ areas) (s : State) : (p.exec eval s).2.hashes h = s.hashes h :=
  Prog.exec_keeps (v := fun s => s.hashes h)
    (Prog.All.imp hp fun _ ho s => eval_hashes (fun heq => hh (heq ▸ ho)) s) s

theorem Touches.sets {p : CacheM α} (hp : Touches areas fails p) {n : SetName}
    (hn : Area.set n ∉ areas) (s : State) : (p.exec eval s).2.sets n = s.sets n :=
  Prog.exec_keeps (v := fun s => s.sets n)
    (Prog.All.imp hp fun _ ho s => eval_sets (fun heq => hn (heq ▸ ho)) s) s

end Touches

/-! A wanted repository passes its command on; removing nothing sends no command, which is the same. -/

theorem hdel_empty (h : HashName) (s : State) : eval (.hdel h ∅) s = (0, s) := by
  have hsame : (eval (.hdel h ∅) s).2 = s := State.setHash_same s
  exact Prod.ext rfl hsame

theorem srem_empty (n : SetName) (key : n.Key) (s : State) : eval (.srem n key ∅) s = (0, s) := by
  have hcard : (s.sets n key ∩ ∅).card = 0 := by rw [Finset.inter_empty, Finset.card_empty]
  have hsame : s.srem n key ∅ = s := by rw [State.srem, Finset.sdiff_empty, State.setSet_same]
  exact Prod.ext hcard hsame

namespace Repository

variable {hash : HashName} {K V : Type} (self : Repository hash K V) {areas : List Area} {fails : Prop}

theorem exec_get_of_none {key : K} {s : State} (h : s.hashes hash (self.field key) = none) :
    (self.get key).exec eval s = (.ok none, s) := by
  unfold get
  rw [Prog.exec_bind_ok (exec_send ..)]
  dsimp only [eval]
  rw [h]
  rfl

theorem exec_get_of_some {key : K} {s : State} {entry : hash.Entry} {v : V}
    (h : s.hashes hash (self.field key) = some entry) (hv : self.decode entry = some v) :
    (self.get key).exec eval s = (.ok (some v), s) := by
  unfold get
  rw [Prog.exec_bind_ok (exec_send ..)]
  dsimp only [eval]
  rw [h]
  dsimp only
  rw [hv]
  rfl

theorem exec_get_of_rejected {key : K} {s : State} {entry : hash.Entry}
    (h : s.hashes hash (self.field key) = some entry) (hv : self.decode entry = none) :
    (self.get key).exec eval s = (.error .json, s) := by
  unfold get
  rw [Prog.exec_bind_ok (exec_send ..)]
  dsimp only [eval]
  rw [h]
  dsimp only
  rw [hv]
  rfl

theorem exec_insert (hw : self.wanted = true) (key : K) (value : V) (s : State) :
    (self.insert key value).exec eval s =
      (.ok (s.hashes hash (self.field key)).isNone,
        s.hset hash (self.field key) (self.encode value)) := by
  unfold insert
  rw [hw]
  refine Prod.ext (congrArg Except.ok ?_) rfl
  rcases Option.eq_none_or_eq_some (s.hashes hash (self.field key)) with h | ⟨entry, h⟩
  · simp [eval, h]
  · simp [eval, h]

theorem exec_insert_off (hw : self.wanted = false) (key : K) (value : V) (s : State) :
    (self.insert key value).exec eval s = (.ok false, s) := by
  unfold insert
  rw [hw]
  rfl

theorem exec_remove (hw : self.wanted = true) (key : K) (s : State) :
    (self.remove key).exec eval s =
      (.ok (s.hashes hash (self.field key)).isSome, s.hdel hash {self.field key}) := by
  unfold remove
  rw [hw]
  refine Prod.ext (congrArg Except.ok ?_) rfl
  rcases Option.eq_none_or_eq_some (s.hashes hash (self.field key)) with h | ⟨entry, h⟩
  · simp [eval, Finset.filter_singleton, h]
  · simp [eval, Finset.filter_singleton, h]

theorem exec_removeMulti (hw : self.wanted = true) (keys : Finset K) (s : State) :
    (self.removeMulti keys).exec eval s =
      (.ok (((keys.image self.field).filter fun field => (s.hashes hash field).isSome).card),
        s.hdel hash (keys.image self.field)) := by
  have hsend : (self.removeMulti keys).exec eval s =
      (send (.hdel hash (keys.image self.field))).exec eval s := by
    unfold removeMulti
    rw [hw]
    by_cases h : keys.image self.field = ∅
    · rw [h, exec_send, hdel_empty]
      rfl
    · dsimp only
      rw [if_neg h]
      rfl
  rw [hsend]
  rfl

/-- A hash with no other entries. -/
theorem exec_get_new (h : HashName) (wanted : Bool) (key : h.Field) (s : State) :
    ((Repository.new h wanted).get key).exec eval s = (.ok (s.hashes h key), s) := by
  rcases hentry : s.hashes h key with _ | entry
  · exact (Repository.new h wanted).exec_get_of_none hentry
  · exact (Repository.new h wanted).exec_get_of_some hentry rfl

variable {self}

theorem all_get {P : Op → Prop} {E : Error → Prop} {key : K} (h : P (.hget hash (self.field key)))
    (hfails : (∀ entry, self.decode entry ≠ none) ∨ E .json) : (self.get key).All P E := by
  refine Prog.All.bind (Prog.All.send h) fun reply => ?_
  rcases reply with _ | entry
  · trivial
  · show Prog.All _ _ (match self.decode entry with | some value => _ | none => _)
    rcases Option.eq_none_or_eq_some (self.decode entry) with hnone | ⟨value, hsome⟩
    · rw [hnone]
      exact hfails.resolve_left fun h => h entry hnone
    · rw [hsome]
      trivial

section All
variable {P : Op → Prop} {E : Error → Prop} {key : K}

theorem all_insert {value : V} (h : P (.hset hash (self.field key) (self.encode value))) :
    (self.insert key value).All P E :=
  all_ifWanted ((Prog.All.send h).bind fun _ => Prog.All.pure _)

theorem all_remove (h : P (.hdel hash {self.field key})) : (self.remove key).All P E :=
  all_ifWanted ((Prog.All.send h).bind fun _ => Prog.All.pure _)

theorem all_removeMulti {keys : Finset K} (h : P (.hdel hash (keys.image self.field))) :
    (self.removeMulti keys).All P E := by
  refine all_ifWanted ?_
  dsimp only
  by_cases hkeys : keys.image self.field = ∅
  · rw [if_pos hkeys]
    exact Prog.All.pure _
  · rw [if_neg hkeys]
    exact Prog.All.send h

end All

theorem touches_get (h : .hash hash ∈ areas) (hfails : (∀ entry, self.decode entry ≠ none) ∨ fails)
    (key : K) : Touches areas fails (self.get key) := all_get h hfails

theorem touches_insert (h : .hash hash ∈ areas) (key : K) (value : V) :
    Touches areas fails (self.insert key value) := all_insert h

theorem touches_remove (h : .hash hash ∈ areas) (key : K) : Touches areas fails (self.remove key) := all_remove h

theorem touches_removeMulti (h : .hash hash ∈ areas) (keys : Finset K) :
    Touches areas fails (self.removeMulti keys) := all_removeMulti h

end Repository

namespace SetRepository

variable {n : SetName} (self : SetRepository n) {areas : List Area} {fails : Prop}

theorem exec_members (s : State) : self.members.exec eval s = (.ok (s.sets n self.key), s) := rfl

theorem exec_isEmpty (hw : self.wanted = true) (s : State) :
    self.isEmpty.exec eval s = (.ok (decide (s.sets n self.key).Nonempty), s) := by
  unfold isEmpty
  rw [hw]
  rfl

theorem exec_insert (hw : self.wanted = true) (value : n.Elem) (s : State) :
    (self.insert value).exec eval s =
      (.ok (decide (value ∉ s.sets n self.key)), s.sadd n self.key value) := by
  unfold insert
  rw [hw]
  refine Prod.ext (congrArg Except.ok ?_) rfl
  dsimp only [eval]
  by_cases h : value ∈ s.sets n self.key <;> simp [h]

theorem exec_remove (hw : self.wanted = true) (value : n.Elem) (s : State) :
    (self.remove value).exec eval s =
      (.ok (decide (value ∈ s.sets n self.key)), s.srem n self.key {value}) := by
  unfold remove
  rw [hw]
  refine Prod.ext (congrArg Except.ok ?_) rfl
  dsimp only [eval]
  by_cases h : value ∈ s.sets n self.key <;> simp [h]

theorem exec_removeMulti (hw : self.wanted = true) (values : Finset n.Elem) (s : State) :
    (self.removeMulti values).exec eval s =
      (.ok (s.sets n self.key ∩ values).card, s.srem n self.key values) := by
  have hsend : (self.removeMulti values).exec eval s =
      (send (.srem n self.key values)).exec eval s := by
    unfold removeMulti
    rw [hw]
    by_cases h : values = ∅
    · rw [h, exec_send, srem_empty]
      rfl
    · rw [if_neg h]
      rfl
  rw [hsend]
  rfl

theorem exec_clear (hw : self.wanted = true) (s : State) :
    self.clear.exec eval s = (.ok (decide (s.sets n self.key).Nonempty), s.del n self.key) := by
  unfold clear
  rw [hw]
  refine Prod.ext (congrArg Except.ok ?_) rfl
  dsimp only [eval]
  by_cases h : (s.sets n self.key).Nonempty <;> simp [h]

variable {self}

section All
variable {P : Op → Prop} {E : Error → Prop} {value : n.Elem}

theorem all_members (h : P (.smembers n self.key)) : self.members.All P E := Prog.All.send h

theorem all_isEmpty (h : P (.existsKey n self.key)) : self.isEmpty.All P E := all_ifWanted (Prog.All.send h)

theorem all_insert (h : P (.sadd n self.key value)) : (self.insert value).All P E :=
  all_ifWanted ((Prog.All.send h).bind fun _ => Prog.All.pure _)

theorem all_remove (h : P (.srem n self.key {value})) : (self.remove value).All P E :=
  all_ifWanted ((Prog.All.send h).bind fun _ => Prog.All.pure _)

theorem all_removeMulti {values : Finset n.Elem} (h : P (.srem n self.key values)) :
    (self.removeMulti values).All P E := by
  refine all_ifWanted ?_
  by_cases hvalues : values = ∅
  · rw [if_pos hvalues]
    exact Prog.All.pure _
  · rw [if_neg hvalues]
    exact Prog.All.send h

theorem all_clear (h : P (.del n self.key)) : self.clear.All P E :=
  all_ifWanted ((Prog.All.send h).bind fun _ => Prog.All.pure _)

end All

theorem touches_members (h : .set n ∈ areas) : Touches areas fails self.members := all_members h

theorem touches_isEmpty (h : .set n ∈ areas) : Touches areas fails self.isEmpty := all_isEmpty h

theorem touches_insert (h : .set n ∈ areas) (value : n.Elem) : Touches areas fails (self.insert value) := all_insert h

theorem touches_remove (h : .set n ∈ areas) (value : n.Elem) : Touches areas fails (self.remove value) := all_remove h

theorem touches_removeMulti (h : .set n ∈ areas) (values : Finset n.Elem) :
    Touches areas fails (self.removeMulti values) := all_removeMulti h

theorem touches_clear (h : .set n ∈ areas) : Touches areas fails self.clear := all_clear h

end SetRepository

namespace MappedSetRepository

variable {n : SetName} (self : MappedSetRepository n) {areas : List Area} {fails : Prop} (key : n.Key)

theorem exec_members (s : State) : (self.members key).exec eval s = (.ok (s.sets n key), s) := rfl

theorem exec_insert (hw : self.wanted = true) (value : n.Elem) (s : State) :
    (self.insert key value).exec eval s =
      (.ok (decide (value ∉ s.sets n key)), s.sadd n key value) :=
  (self.setRepository key).exec_insert hw value s

theorem exec_insert_off (hw : self.wanted = false) (value : n.Elem) (s : State) :
    (self.insert key value).exec eval s = (.ok false, s) := by
  unfold insert SetRepository.insert setRepository
  rw [hw]
  rfl

theorem exec_removeMulti (hw : self.wanted = true) (values : Finset n.Elem) (s : State) :
    (self.removeMulti key values).exec eval s =
      (.ok (s.sets n key ∩ values).card, s.srem n key values) :=
  (self.setRepository key).exec_removeMulti hw values s

theorem exec_clear (hw : self.wanted = true) (s : State) :
    (self.clear key).exec eval s = (.ok (decide (s.sets n key).Nonempty), s.del n key) :=
  (self.setRepository key).exec_clear hw s

variable {self}

theorem touches_members (h : .set n ∈ areas) : Touches areas fails (self.members key) :=
  SetRepository.touches_members h

theorem touches_insert (h : .set n ∈ areas) (value : n.Elem) :
    Touches areas fails (self.insert key value) := SetRepository.touches_insert h value

theorem touches_remove (h : .set n ∈ areas) (value : n.Elem) :
    Touches areas fails (self.remove key value) := SetRepository.touches_remove h value

theorem touches_removeMulti (h : .set n ∈ areas) (values : Finset n.Elem) :
    Touches areas fails (self.removeMulti key values) := SetRepository.touches_removeMulti h values

theorem touches_clear (h : .set n ∈ areas) : Touches areas fails (self.clear key) :=
  SetRepository.touches_clear h

end MappedSetRepository

end Tulpje.Cache
