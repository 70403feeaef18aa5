import Mathlib.Data.Finset.Card
import Mathlib.Data.Finset.SDiff
import Tulpje.Cache.Model
import Tulpje.Lib.Interleaving

/-!
# The Redis store of the cache

The part of Redis that the cache uses, at the types of its repositories: hashes, sets, and the one string
`cache:current_user`. A hash or set that Redis does not hold is the empty one.

`Cache::new` gives the repository of users the name of the emoji repository, so the hash `emojis` holds
entries of both (`EmojisEntry`), under the bare number of the id.

`Area` says which hash or family of sets a command is about, `footprint` which single fields and members
it looks at and changes.
-/

namespace Tulpje.Cache

open Twilight Lib

/-- The hashes of the repositories, by the names that `Cache::new` gives them. -/
inductive HashName
  | guilds | channels | channelMessages | scheduledEvents | integrations | members | messages
  | presences | emojis | roles | stageInstances | stickers | users | voiceStates
  deriving DecidableEq

/-- A text of the hash `emojis` is that of a user or that of an emoji, and parses as nothing else. -/
inductive EmojisEntry
  | user (user : CachedUser)
  | emoji (emoji : GuildResource CachedEmoji)

def EmojisEntry.toUser : EmojisEntry → Option CachedUser
  | .user u => some u
  | .emoji _ => none

def EmojisEntry.toEmoji : EmojisEntry → Option (GuildResource CachedEmoji)
  | .user _ => none
  | .emoji e => some e

/-- Fields are the hashes of keys, taken without collisions; users and emojis share one field for one number. -/
@[reducible] def HashName.Field : HashName → Type
  | guilds => Id .guild
  | channels | channelMessages => Id .channel
  | scheduledEvents => Id .scheduledEvent
  | integrations => Id .guild × Id .integration
  | members | presences | voiceStates => Id .guild × Id .user
  | messages => Id .message
  | emojis => UInt64
  | roles => Id .role
  | stageInstances => Id .stage
  | stickers => Id .sticker
  | users => Id .user

@[reducible] def HashName.Entry : HashName → Type
  | guilds => CachedGuild
  | channels => CachedChannel
  | channelMessages => List (Id .message)
  | scheduledEvents => CachedGuildScheduledEvent
  | integrations => GuildResource CachedGuildIntegration
  | members => CachedMember
  | messages => CachedMessage
  | presences => CachedPresence
  | emojis => EmojisEntry
  | roles => GuildResource CachedRole
  | stageInstances => GuildResource CachedStageInstance
  | stickers => GuildResource CachedSticker
  | users => CachedUser
  | voiceStates => CachedVoiceState

instance : (h : HashName) → DecidableEq h.Field
  | .guilds => inferInstanceAs (DecidableEq (Id .guild))
  | .channels | .channelMessages => inferInstanceAs (DecidableEq (Id .channel))
  | .scheduledEvents => inferInstanceAs (DecidableEq (Id .scheduledEvent))
  | .integrations => inferInstanceAs (DecidableEq (Id .guild × Id .integration))
  | .members | .presences | .voiceStates => inferInstanceAs (DecidableEq (Id .guild × Id .user))
  | .messages => inferInstanceAs (DecidableEq (Id .message))
  | .emojis => inferInstanceAs (DecidableEq UInt64)
  | .roles => inferInstanceAs (DecidableEq (Id .role))
  | .stageInstances => inferInstanceAs (DecidableEq (Id .stage))
  | .stickers => inferInstanceAs (DecidableEq (Id .sticker))
  | .users => inferInstanceAs (DecidableEq (Id .user))

/-- The families of sets. Each key of a `MappedSetRepository` has a set of its own. -/
inductive SetName
  | guildChannels | guildScheduledEvents | guildIntegrations | guildMembers | guildPresences
  | guildEmojis | guildRoles | guildStageInstances | guildStickers | unavailableGuilds
  | userGuilds | voiceStateChannels | voiceStateGuilds
  deriving DecidableEq

/-- The one set of unavailable guilds has no key. -/
@[reducible] def SetName.Key : SetName → Type
  | unavailableGuilds => Unit
  | userGuilds => Id .user
  | voiceStateChannels => Id .channel
  | _ => Id .guild

@[reducible] def SetName.Elem : SetName → Type
  | guildChannels => Id .channel
  | guildScheduledEvents => Id .scheduledEvent
  | guildIntegrations => Id .integration
  | guildMembers | guildPresences | voiceStateGuilds => Id .user
  | guildEmojis => Id .emoji
  | guildRoles => Id .role
  | guildStageInstances => Id .stage
  | guildStickers => Id .sticker
  | unavailableGuilds | userGuilds => Id .guild
  | voiceStateChannels => Id .guild × Id .user

instance : (n : SetName) → DecidableEq n.Key
  | .unavailableGuilds => inferInstanceAs (DecidableEq Unit)
  | .userGuilds => inferInstanceAs (DecidableEq (Id .user))
  | .voiceStateChannels => inferInstanceAs (DecidableEq (Id .channel))
  | .guildChannels | .guildScheduledEvents | .guildIntegrations | .guildMembers | .guildPresences
  | .guildEmojis | .guildRoles | .guildStageInstances | .guildStickers | .voiceStateGuilds =>
    inferInstanceAs (DecidableEq (Id .guild))

instance : (n : SetName) → DecidableEq n.Elem
  | .guildChannels => inferInstanceAs (DecidableEq (Id .channel))
  | .guildScheduledEvents => inferInstanceAs (DecidableEq (Id .scheduledEvent))
  | .guildIntegrations => inferInstanceAs (DecidableEq (Id .integration))
  | .guildMembers | .guildPresences | .voiceStateGuilds => inferInstanceAs (DecidableEq (Id .user))
  | .guildEmojis => inferInstanceAs (DecidableEq (Id .emoji))
  | .guildRoles => inferInstanceAs (DecidableEq (Id .role))
  | .guildStageInstances => inferInstanceAs (DecidableEq (Id .stage))
  | .guildStickers => inferInstanceAs (DecidableEq (Id .sticker))
  | .unavailableGuilds | .userGuilds => inferInstanceAs (DecidableEq (Id .guild))
  | .voiceStateChannels => inferInstanceAs (DecidableEq (Id .guild × Id .user))

/-- All that Redis holds for the cache. -/
structure State where
  hashes : (h : HashName) → h.Field → Option h.Entry
  sets : (n : SetName) → n.Key → Finset n.Elem
  currentUser : Option CachedCurrentUser

namespace State

theorem ext_names {s t : State} (hhashes : ∀ h, s.hashes h = t.hashes h)
    (hsets : ∀ n, s.sets n = t.sets n) (huser : s.currentUser = t.currentUser) : s = t := by
  obtain ⟨⟩ := s
  obtain ⟨⟩ := t
  exact congr (congrArg₂ mk (funext hhashes) (funext hsets)) huser

def empty : State := ⟨fun _ _ => none, fun _ _ => ∅, none⟩

@[simp] theorem hashes_empty (h : HashName) (field : h.Field) : empty.hashes h field = none := rfl

@[simp] theorem sets_empty (n : SetName) (key : n.Key) : empty.sets n key = ∅ := rfl

/-- All fields of one hash are replaced. -/
def setHash (s : State) (h : HashName) (entries : h.Field → Option h.Entry) : State :=
  { s with hashes := Function.update s.hashes h entries }

/-- One set is replaced. -/
def setSet (s : State) (n : SetName) (key : n.Key) (elems : Finset n.Elem) : State :=
  { s with sets := Function.update s.sets n (Function.update (s.sets n) key elems) }

def hset (s : State) (h : HashName) (field : h.Field) (value : h.Entry) : State :=
  s.setHash h (Function.update (s.hashes h) field (some value))

/-- `HDEL` of several fields. -/
def hdel (s : State) (h : HashName) (fields : Finset h.Field) : State :=
  s.setHash h fun field => if field ∈ fields then none else s.hashes h field

def sadd (s : State) (n : SetName) (key : n.Key) (value : n.Elem) : State :=
  s.setSet n key (insert value (s.sets n key))

/-- `SREM` of several members. -/
def srem (s : State) (n : SetName) (key : n.Key) (values : Finset n.Elem) : State :=
  s.setSet n key (s.sets n key \ values)

def del (s : State) (n : SetName) (key : n.Key) : State := s.setSet n key ∅

variable (s : State) {h h' : HashName} {n n' : SetName}

theorem setHash_self (entries : h.Field → Option h.Entry) :
    (s.setHash h entries).hashes h = entries := Function.update_self ..

theorem setHash_of_ne (hne : h' ≠ h) (entries : h.Field → Option h.Entry) :
    (s.setHash h entries).hashes h' = s.hashes h' := Function.update_of_ne hne ..

theorem setHash_same : s.setHash h (s.hashes h) = s := by
  unfold setHash
  rw [Function.update_eq_self]

theorem setSet_name (key : n.Key) (elems : Finset n.Elem) :
    (s.setSet n key elems).sets n = Function.update (s.sets n) key elems := Function.update_self ..

theorem setSet_self (key : n.Key) (elems : Finset n.Elem) :
    (s.setSet n key elems).sets n key = elems := by rw [setSet_name, Function.update_self]

theorem setSet_same (key : n.Key) : s.setSet n key (s.sets n key) = s := by
  unfold setSet
  rw [Function.update_eq_self, Function.update_eq_self]

theorem setSet_key_of_ne {key key' : n.Key} (hne : key' ≠ key)
    (elems : Finset n.Elem) : (s.setSet n key elems).sets n key' = s.sets n key' := by
  rw [setSet_name, Function.update_of_ne hne]

theorem setSet_of_ne (hne : n' ≠ n) (key : n.Key) (elems : Finset n.Elem) :
    (s.setSet n key elems).sets n' = s.sets n' := Function.update_of_ne hne ..

/-! The effect of each command on a hash or set: its own, and the others. -/

section Effects
variable (field : h.Field) (value : h.Entry) (fields : Finset h.Field)
variable (key : n.Key) (elem : n.Elem) (elems : Finset n.Elem)

@[simp] theorem hset_self : (s.hset h field value).hashes h =
    Function.update (s.hashes h) field (some value) := setHash_self ..

@[simp] theorem hset_of_ne (hne : h' ≠ h) : (s.hset h field value).hashes h' = s.hashes h' :=
  setHash_of_ne s hne _

@[simp] theorem hset_sets : (s.hset h field value).sets = s.sets := rfl

@[simp] theorem hdel_self : (s.hdel h fields).hashes h =
    fun field => if field ∈ fields then none else s.hashes h field := setHash_self ..

@[simp] theorem hdel_of_ne (hne : h' ≠ h) : (s.hdel h fields).hashes h' = s.hashes h' :=
  setHash_of_ne s hne _

@[simp] theorem hdel_sets : (s.hdel h fields).sets = s.sets := rfl

@[simp] theorem sadd_self : (s.sadd n key elem).sets n =
    Function.update (s.sets n) key (insert elem (s.sets n key)) := setSet_name ..

@[simp] theorem sadd_of_ne (hne : n' ≠ n) : (s.sadd n key elem).sets n' = s.sets n' :=
  setSet_of_ne s hne _ _

@[simp] theorem sadd_hashes : (s.sadd n key elem).hashes = s.hashes := rfl

@[simp] theorem srem_self : (s.srem n key elems).sets n =
    Function.update (s.sets n) key (s.sets n key \ elems) := setSet_name ..

@[simp] theorem srem_of_ne (hne : n' ≠ n) : (s.srem n key elems).sets n' = s.sets n' :=
  setSet_of_ne s hne _ _

@[simp] theorem srem_hashes : (s.srem n key elems).hashes = s.hashes := rfl

@[simp] theorem del_self : (s.del n key).sets n = Function.update (s.sets n) key ∅ := setSet_name ..

@[simp] theorem del_of_ne (hne : n' ≠ n) : (s.del n key).sets n' = s.sets n' := setSet_of_ne s hne _ _

@[simp] theorem del_hashes : (s.del n key).hashes = s.hashes := rfl

end Effects

end State

/-! ### Commands -/

/-- The commands that the repositories issue, with what they send. -/
inductive Op
  | hget (h : HashName) (field : h.Field)
  | hset (h : HashName) (field : h.Field) (value : h.Entry)
  | hdel (h : HashName) (fields : Finset h.Field)
  | smembers (n : SetName) (key : n.Key)
  | sismember (n : SetName) (key : n.Key) (value : n.Elem)
  | existsKey (n : SetName) (key : n.Key)
  | sadd (n : SetName) (key : n.Key) (value : n.Elem)
  | srem (n : SetName) (key : n.Key) (values : Finset n.Elem)
  | del (n : SetName) (key : n.Key)
  | get
  | set (value : CachedCurrentUser)

/-- `HSET`, `SADD` and the like reply how many fields or members are new or gone. -/
@[reducible] def Op.Reply : Op → Type
  | hget h _ => Option h.Entry
  | hset .. | hdel .. | sismember .. | sadd .. | srem .. | del .. => Nat
  | smembers n _ => Finset n.Elem
  | existsKey .. => Bool
  | get => Option CachedCurrentUser
  | set _ => Unit

/-- Each command runs to its end before the next one, of whichever program, starts. -/
def eval : (o : Op) → State → o.Reply × State
  | .hget h field, s => (s.hashes h field, s)
  | .hset h field value, s => (if (s.hashes h field).isSome then 0 else 1, s.hset h field value)
  | .hdel h fields, s =>
    ((fields.filter fun field => (s.hashes h field).isSome).card, s.hdel h fields)
  | .smembers n key, s => (s.sets n key, s)
  | .sismember n key value, s => (if value ∈ s.sets n key then 1 else 0, s)
  | .existsKey n key, s => (decide (s.sets n key).Nonempty, s)
  | .sadd n key value, s => (if value ∈ s.sets n key then 0 else 1, s.sadd n key value)
  | .srem n key values, s => ((s.sets n key ∩ values).card, s.srem n key values)
  | .del n key, s => (if (s.sets n key).Nonempty then 1 else 0, s.del n key)
  | .get, s => (s.currentUser, s)
  | .set value, s => ((), { s with currentUser := some value })

/-! ### What a command is about -/

/-- The coarsest parts of the store: a hash, a family of sets, the current user. -/
inductive Area
  | hash (h : HashName)
  | set (n : SetName)
  | currentUser
  deriving DecidableEq

def Op.area : Op → Area
  | hget h _ | hset h _ _ | hdel h _ => .hash h
  | smembers n _ | sismember n _ _ | existsKey n _ | sadd n _ _ | srem n _ _ | del n _ => .set n
  | get | set _ => .currentUser

theorem eval_hashes {o : Op} {h : HashName} (harea : o.area ≠ .hash h) (s : State) :
    (eval o s).2.hashes h = s.hashes h := by
  have hne : ∀ h', Area.hash h' ≠ .hash h → h ≠ h' := fun h' hh heq => hh (congrArg _ heq.symm)
  cases o with
  | hset h' field value => exact State.hset_of_ne _ _ _ (hne h' harea)
  | hdel h' fields => exact State.hdel_of_ne _ _ (hne h' harea)
  | _ => rfl

theorem eval_sets {o : Op} {n : SetName} (harea : o.area ≠ .set n) (s : State) :
    (eval o s).2.sets n = s.sets n := by
  have hne : ∀ n', Area.set n' ≠ .set n → n ≠ n' := fun n' hh heq => hh (congrArg _ heq.symm)
  cases o with
  | sadd n' key value => exact State.sadd_of_ne _ _ _ (hne n' harea)
  | srem n' key values => exact State.srem_of_ne _ _ _ (hne n' harea)
  | del n' key => exact State.del_of_ne _ _ (hne n' harea)
  | _ => rfl

/-! ### Footprints -/

/-- The smallest things that commands look at and change. -/
inductive Cell
  | field (h : HashName) (field : h.Field)
  | member (n : SetName) (key : n.Key) (value : n.Elem)
  | currentUser

/-- What a cell holds. -/
def Cell.Val : Cell → Type
  | field h _ => Option h.Entry
  | member .. => Prop
  | currentUser => Option CachedCurrentUser

def State.look (s : State) : (c : Cell) → c.Val
  | .field h field => s.hashes h field
  | .member n key value => value ∈ s.sets n key
  | .currentUser => s.currentUser

theorem State.eq_of_look {s t : State} (h : s.look = t.look) : s = t := by
  refine State.ext_names (fun h' => ?_) (fun n => ?_) (congrFun h .currentUser)
  · exact funext fun f => congrFun h (.field h' f)
  · exact funext fun key => Finset.ext fun v => Eq.to_iff (congrFun h (.member n key v))

/-- What a command looks at or changes. A command about a whole set is about all its possible members. -/
def Op.touches : Op → Set Cell
  | hget h field | hset h field _ => {.field h field}
  | hdel h fields => {c | ∃ field ∈ fields, c = .field h field}
  | smembers n key | existsKey n key | del n key => {c | ∃ value, c = .member n key value}
  | sismember n key value | sadd n key value => {.member n key value}
  | srem n key values => {c | ∃ value ∈ values, c = .member n key value}
  | get | set _ => {.currentUser}

def Op.isWrite : Op → Bool
  | hset .. | hdel .. | sadd .. | srem .. | del .. | set _ => true
  | _ => false

def Op.writes (o : Op) : Set Cell := {c | o.isWrite = true ∧ c ∈ o.touches}

/-- Two states hold the same set if they agree on all its possible members. -/
theorem sets_eq_of_look {s t : State} {n : SetName} {key : n.Key}
    (h : ∀ c, (∃ value, c = Cell.member n key value) → s.look c = t.look c) :
    s.sets n key = t.sets n key :=
  Finset.ext fun value => Eq.to_iff (h _ ⟨value, rfl⟩)

theorem eval_frame (o : Op) (s : State) (c : Cell) (hc : c ∉ o.writes) :
    (eval o s).2.look c = s.look c := by
  have hc : o.isWrite = true → c ∉ o.touches := fun hw ht => hc ⟨hw, ht⟩
  cases o with
  | hset h field value =>
    have hc := hc rfl
    cases c with
    | field h' field' =>
      by_cases hh : h' = h
      · subst hh
        have hne : field' ≠ field := fun heq => hc (congrArg (Cell.field h') heq)
        show (State.setHash s h' _).hashes h' field' = _
        rw [State.setHash_self, Function.update_of_ne hne]
        rfl
      · exact congrFun (State.setHash_of_ne _ hh _) field'
    | _ => rfl
  | hdel h fields =>
    have hc := hc rfl
    cases c with
    | field h' field' =>
      by_cases hh : h' = h
      · subst hh
        have hmem : field' ∉ fields := fun hmem => hc ⟨field', hmem, rfl⟩
        show (State.setHash s h' _).hashes h' field' = _
        rw [State.setHash_self]
        exact if_neg hmem
      · exact congrFun (State.setHash_of_ne _ hh _) field'
    | _ => rfl
  | sadd n key value =>
    have hc := hc rfl
    cases c with
    | member n' key' value' =>
      by_cases hn : n' = n
      · subst hn
        by_cases hk : key' = key
        · subst hk
          have hne : value' ≠ value := fun heq => hc (congrArg (Cell.member n' key') heq)
          show (value' ∈ (State.setSet s n' key' _).sets n' key') = (value' ∈ s.sets n' key')
          rw [State.setSet_self, Finset.mem_insert, or_iff_right hne]
        · show (value' ∈ (State.setSet s n' key _).sets n' key') = (value' ∈ s.sets n' key')
          rw [State.setSet_key_of_ne _ hk]
      · show (value' ∈ (State.setSet s n key _).sets n' key') = (value' ∈ s.sets n' key')
        rw [State.setSet_of_ne _ hn]
    | _ => rfl
  | srem n key values =>
    have hc := hc rfl
    cases c with
    | member n' key' value' =>
      by_cases hn : n' = n
      · subst hn
        by_cases hk : key' = key
        · subst hk
          have hmem : value' ∉ values := fun hmem => hc ⟨value', hmem, rfl⟩
          show (value' ∈ (State.setSet s n' key' _).sets n' key') = (value' ∈ s.sets n' key')
          rw [State.setSet_self, Finset.mem_sdiff, and_iff_left hmem]
        · show (value' ∈ (State.setSet s n' key _).sets n' key') = (value' ∈ s.sets n' key')
          rw [State.setSet_key_of_ne _ hk]
      · show (value' ∈ (State.setSet s n key _).sets n' key') = (value' ∈ s.sets n' key')
        rw [State.setSet_of_ne _ hn]
    | _ => rfl
  | del n key =>
    have hc := hc rfl
    cases c with
    | member n' key' value' =>
      by_cases hn : n' = n
      · subst hn
        have hk : key' ≠ key := by
          rintro rfl
          exact hc ⟨value', rfl⟩
        show (value' ∈ (State.setSet s n' key _).sets n' key') = (value' ∈ s.sets n' key')
        rw [State.setSet_key_of_ne _ hk]
      · show (value' ∈ (State.setSet s n key _).sets n' key') = (value' ∈ s.sets n' key')
        rw [State.setSet_of_ne _ hn]
    | _ => rfl
  | set value =>
    have hc := hc rfl
    cases c with
    | currentUser => exact absurd rfl hc
    | _ => rfl
  | _ => rfl

theorem eval_reply_congr (o : Op) (s t : State) (h : ∀ c ∈ o.touches, s.look c = t.look c) :
    (eval o s).1 = (eval o t).1 := by
  cases o with
  | hget h' field => exact h _ rfl
  | hset h' field value =>
    have hfield : s.hashes h' field = t.hashes h' field := h _ rfl
    simp only [eval, hfield]
  | hdel h' fields =>
    have hfields : ∀ field ∈ fields, s.hashes h' field = t.hashes h' field :=
      fun field hmem => h _ ⟨field, hmem, rfl⟩
    show (fields.filter _).card = (fields.filter _).card
    rw [Finset.filter_congr fun field hmem => by rw [hfields field hmem]]
  | smembers n key => exact sets_eq_of_look h
  | sismember n key value =>
    have hmem : value ∈ s.sets n key ↔ value ∈ t.sets n key := Eq.to_iff (h _ rfl)
    simp only [eval, hmem]
  | existsKey n key => simp only [eval, sets_eq_of_look h]
  | sadd n key value =>
    have hmem : value ∈ s.sets n key ↔ value ∈ t.sets n key := Eq.to_iff (h _ rfl)
    simp only [eval, hmem]
  | srem n key values =>
    have hmem : ∀ value ∈ values, value ∈ s.sets n key ↔ value ∈ t.sets n key :=
      fun value hv => Eq.to_iff (h _ ⟨value, hv, rfl⟩)
    show (s.sets n key ∩ values).card = (t.sets n key ∩ values).card
    congr 1
    ext value
    rw [Finset.mem_inter, Finset.mem_inter]
    exact and_congr_left (hmem value)
  | del n key => simp only [eval, sets_eq_of_look h]
  | get => exact h _ rfl
  | set value => rfl

theorem eval_write_congr (o : Op) (s t : State) (h : ∀ c ∈ o.touches, s.look c = t.look c) :
    ∀ c ∈ o.writes, (eval o s).2.look c = (eval o t).2.look c := by
  rintro c ⟨hw, hc⟩
  cases o with
  | hset h' field value =>
    obtain rfl := Set.mem_singleton_iff.mp hc
    show (State.setHash s h' _).hashes h' field = (State.setHash t h' _).hashes h' field
    rw [State.setHash_self, State.setHash_self, Function.update_self, Function.update_self]
  | hdel h' fields =>
    obtain ⟨field, hmem, rfl⟩ := hc
    show (State.setHash s h' _).hashes h' field = (State.setHash t h' _).hashes h' field
    rw [State.setHash_self, State.setHash_self, if_pos hmem, if_pos hmem]
  | sadd n key value =>
    obtain rfl := Set.mem_singleton_iff.mp hc
    show (value ∈ (State.setSet s n key _).sets n key) = (value ∈ (State.setSet t n key _).sets n key)
    rw [State.setSet_self, State.setSet_self]
    exact propext (iff_of_true (Finset.mem_insert_self ..) (Finset.mem_insert_self ..))
  | srem n key values =>
    obtain ⟨value, hmem, rfl⟩ := hc
    show (value ∈ (State.setSet s n key _).sets n key) = (value ∈ (State.setSet t n key _).sets n key)
    rw [State.setSet_self, State.setSet_self, Finset.mem_sdiff, Finset.mem_sdiff]
    exact propext (iff_of_false (fun hv => hv.2 hmem) fun hv => hv.2 hmem)
  | del n key =>
    obtain ⟨value, rfl⟩ := hc
    show (value ∈ (State.setSet s n key _).sets n key) = (value ∈ (State.setSet t n key _).sets n key)
    rw [State.setSet_self, State.setSet_self]
  | set value =>
    obtain rfl := Set.mem_singleton_iff.mp hc
    rfl
  | hget h' field => exact absurd hw Bool.false_ne_true
  | smembers n key => exact absurd hw Bool.false_ne_true
  | sismember n key value => exact absurd hw Bool.false_ne_true
  | existsKey n key => exact absurd hw Bool.false_ne_true
  | get => exact absurd hw Bool.false_ne_true

def footprint : Footprint eval Cell Cell.Val where
  look := State.look
  touches := Op.touches
  writes := Op.writes
  ext _ _ := State.eq_of_look
  writes_subset _ _ := And.right
  frame := eval_frame
  reply_congr := eval_reply_congr
  write_congr := eval_write_congr

end Tulpje.Cache
