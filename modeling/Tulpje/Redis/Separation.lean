import Mathlib.Data.List.TakeWhile
import Tulpje.Cache.Repository
import Tulpje.Redis.Repository

/-!
# Whether the repositories of the cache are separate

`Cache::new` gives each field of the cache its own name in Redis, but the users get the name of the emojis.
Names have no colon in them, so the name can be read off every key that a repository uses (`nameOf`), and
repositories of different names never touch the same key. `unaffected_iff` says exactly when updates of one
field can be seen through another.
-/

namespace Tulpje.Redis

open Lib
open Tulpje.Cache (Area Config HashName SetName ResourceType GuildResource CachedEmoji
  CachedCurrentUser)
open Twilight (Id)

/-! ### The fields of the cache -/

/-- The key type of a `Repository` of the cache. -/
@[reducible] def HashKey : HashName → Type
  | .emojis => Id .emoji
  | h => h.Field

@[reducible] def HashValue : HashName → Type
  | .emojis => GuildResource CachedEmoji
  | h => h.Entry

/-- What a field of the cache stores. -/
@[reducible] def FieldValue : Area → Type
  | .hash h => HashValue h
  | .set n => n.Elem
  | .currentUser => CachedCurrentUser

/-- The words that the ids in a key feed to the hasher. -/
def hashWords : (h : HashName) → HashKey h → List UInt64
  | .guilds, id | .channels, id | .channelMessages, id | .scheduledEvents, id | .messages, id
  | .emojis, id | .roles, id | .stageInstances, id | .stickers, id | .users, id => [id.get]
  | .integrations, (guildId, id) | .members, (guildId, id) | .presences, (guildId, id)
  | .voiceStates, (guildId, id) => [guildId.get, id.get]

/-- Every key of a `MappedSetRepository` is a single id. -/
def setWords : (n : SetName) → n.Key → List UInt64
  | .unavailableGuilds, () => []
  | .guildChannels, id | .guildScheduledEvents, id | .guildIntegrations, id | .guildMembers, id
  | .guildPresences, id | .guildEmojis, id | .guildRoles, id | .guildStageInstances, id
  | .guildStickers, id | .userGuilds, id | .voiceStateChannels, id | .voiceStateGuilds, id => [id.get]

/-- The name that `Cache::new` passes for a field. -/
def fieldName : Area → String
  | .hash .guilds => "guilds"
  | .set .guildChannels => "guild_channels"
  | .set .guildScheduledEvents => "guild_scheduled_events"
  | .set .guildIntegrations => "guild_integrations"
  | .set .guildMembers => "guild_members"
  | .set .guildPresences => "guild_presences"
  | .set .guildEmojis => "guild_emojis"
  | .set .guildRoles => "guild_roles"
  | .set .guildStageInstances => "guild_stage_instances"
  | .set .guildStickers => "guild_stickers"
  | .set .unavailableGuilds => "unavailable_guilds"
  | .hash .channels => "channels"
  | .hash .channelMessages => "channel_messages"
  | .hash .scheduledEvents => "scheduled_events"
  | .hash .integrations => "integrations"
  | .hash .members => "members"
  | .hash .messages => "messages"
  | .hash .presences => "presences"
  | .hash .emojis => "emojis"
  | .hash .roles => "roles"
  | .hash .stageInstances => "stage_instances"
  | .hash .stickers => "stickers"
  | .currentUser => "current_user"
  | .hash .users => "emojis"
  | .set .userGuilds => "user_guilds"
  | .set .voiceStateChannels => "voice_state_channels"
  | .set .voiceStateGuilds => "voice_state_guilds"
  | .hash .voiceStates => "voice_states"

/-- The resource type that `Cache::new` asks the configuration about. -/
def fieldType : Area → ResourceType
  | .hash .guilds | .set .unavailableGuilds => .guild
  | .hash .channels | .set .guildChannels => .channel
  | .hash .scheduledEvents | .set .guildScheduledEvents => .guildScheduledEvent
  | .hash .integrations | .set .guildIntegrations => .integration
  | .hash .members | .set .guildMembers => .member
  | .hash .presences | .set .guildPresences => .presence
  | .hash .emojis | .set .guildEmojis => .emoji
  | .hash .roles | .set .guildRoles => .role
  | .hash .stageInstances | .set .guildStageInstances => .stageInstance
  | .hash .stickers | .set .guildStickers => .sticker
  | .hash .channelMessages | .hash .messages => .message
  | .currentUser => .userCurrent
  | .hash .users | .set .userGuilds => .user
  | .hash .voiceStates | .set .voiceStateChannels | .set .voiceStateGuilds => .voiceState

/-- The parts of the program that are not its own: `DefaultHasher`, and `serde_json` at each type. -/
structure Env where
  hash : List UInt64 → UInt64
  json : (a : Area) → Codec (FieldValue a)

variable (env : Env) (config : Config)

def wanted (a : Area) : Bool := config.wants (fieldType a)

def repository (h : HashName) : Repository (HashKey h) (HashValue h) :=
  .new (fieldName (.hash h)) (wanted config (.hash h)) (fun key => env.hash (hashWords h key))
    (env.json (.hash h))

def mappedSetRepository (n : SetName) : MappedSetRepository n.Key n.Elem :=
  .new (fieldName (.set n)) (wanted config (.set n)) (fun key => env.hash (setWords n key))
    (env.json (.set n))

def unavailableGuilds : SetRepository (Id .guild) :=
  .new (fieldName (.set .unavailableGuilds)) (wanted config (.set .unavailableGuilds))
    (env.json (.set .unavailableGuilds))

def currentUser : SingleRepository CachedCurrentUser :=
  .new (fieldName .currentUser) (wanted config .currentUser) (env.json .currentUser)

def interface : Area → Interface
  | .hash h => (repository env config h).interface
  | .set .unavailableGuilds => (unavailableGuilds env config).interface
  | .set n => (mappedSetRepository env config n).interface
  | .currentUser => (currentUser env config).interface

/-! ### Names and keys -/

def areas : List Area :=
  [.hash .guilds, .set .guildChannels, .set .guildScheduledEvents, .set .guildIntegrations,
    .set .guildMembers, .set .guildPresences, .set .guildEmojis, .set .guildRoles,
    .set .guildStageInstances, .set .guildStickers, .set .unavailableGuilds, .hash .channels,
    .hash .channelMessages, .hash .scheduledEvents, .hash .integrations, .hash .members,
    .hash .messages, .hash .presences, .hash .emojis, .hash .roles, .hash .stageInstances,
    .hash .stickers, .currentUser, .hash .users, .set .userGuilds, .set .voiceStateChannels,
    .set .voiceStateGuilds, .hash .voiceStates]

theorem mem_areas (a : Area) : a ∈ areas := by
  rcases a with h | n | _
  · cases h <;> decide
  · cases n <;> decide
  · decide

theorem colon_notMem_fieldName (a : Area) : ':' ∉ (fieldName a).toList := by
  have hall : ∀ a ∈ areas, ':' ∉ (fieldName a).toList := by decide
  exact hall a (mem_areas a)

/-- The users and the emojis. -/
def SameHash (a b : Area) : Prop :=
  a = .hash .users ∧ b = .hash .emojis ∨ a = .hash .emojis ∧ b = .hash .users

instance (a b : Area) : Decidable (SameHash a b) := inferInstanceAs (Decidable (_ ∨ _))

theorem fieldName_inj {a b : Area} (h : fieldName a = fieldName b) : a = b ∨ SameHash a b := by
  have hall : ∀ a ∈ areas, ∀ b ∈ areas, fieldName a = fieldName b → a = b ∨ SameHash a b := by decide
  exact hall a (mem_areas a) b (mem_areas b) h

/-- The name in a key: what stands between `cache:` and the next colon. -/
def nameOf (key : String) : List Char := (key.toList.drop 6).takeWhile (· ≠ ':')

theorem nameOf_plain {name : String} (h : ':' ∉ name.toList) : nameOf ("cache:" ++ name) = name.toList := by
  unfold nameOf
  rw [String.toList_append]
  refine List.takeWhile_eq_self_iff.mpr fun c hc => decide_eq_true fun heq => h (heq ▸ hc)

theorem nameOf_mapped {name : String} (h : ':' ∉ name.toList) (suffix : String) :
    nameOf ("cache:" ++ (name ++ ":" ++ suffix)) = name.toList := by
  unfold nameOf
  rw [String.toList_append, String.toList_append, String.toList_append, List.append_assoc]
  have hall : ∀ c ∈ name.toList, decide (c ≠ ':') = true :=
    fun c hc => decide_eq_true fun heq => h (heq ▸ hc)
  show List.takeWhile _ (name.toList ++ ':' :: suffix.toList) = _
  rw [List.takeWhile_append_of_pos hall]
  exact List.append_nil _

/-- The keys of the repositories of one name. -/
def keysOf (name : String) : Set String := {key | nameOf key = name.toList}

theorem disjoint_keysOf {name name' : String} (h : name ≠ name') :
    ∀ key ∈ keysOf name', key ∉ keysOf name := by
  intro key hkey' hkey
  have hlists : name.toList = name'.toList := hkey.symm.trans hkey'
  exact h (String.toList_inj.mp hlists)

section Keys
variable {env config}

theorem singleton_subset_keysOf (a : Area) : {"cache:" ++ fieldName a} ⊆ keysOf (fieldName a) :=
  Set.singleton_subset_iff.mpr (nameOf_plain (colon_notMem_fieldName a))

theorem singleton_subset_keysOf_mapped (n : SetName) (key : n.Key) :
    {((mappedSetRepository env config n).setRepository key).name} ⊆ keysOf (fieldName (.set n)) :=
  Set.singleton_subset_iff.mpr (nameOf_mapped (colon_notMem_fieldName (.set n)) _)

theorem usesKeys_mapped_apply (n : SetName) (key : n.Key) (update : SetRepository.Update n.Elem) :
    UsesKeys (keysOf (fieldName (.set n))) ((mappedSetRepository env config n).apply key update) := by
  rw [MappedSetRepository.apply_eq]
  exact (SetRepository.usesKeys_apply _ update).mono (singleton_subset_keysOf_mapped n key)

theorem usesKeys_mapped_ask (n : SetName) (key : n.Key) (query : SetRepository.Query n.Elem) :
    UsesKeys (keysOf (fieldName (.set n))) ((mappedSetRepository env config n).ask key query) := by
  rw [MappedSetRepository.ask_eq]
  exact (SetRepository.usesKeys_ask _ query).mono (singleton_subset_keysOf_mapped n key)

theorem usesKeys_apply {a : Area} (update : (interface env config a).Update) :
    UsesKeys (keysOf (fieldName a)) ((interface env config a).apply update) := by
  rcases a with h | n | _
  · exact ((repository env config h).usesKeys_apply update).mono (singleton_subset_keysOf (.hash h))
  · cases n with
    | unavailableGuilds =>
      exact ((unavailableGuilds env config).usesKeys_apply update).mono
        (singleton_subset_keysOf (.set .unavailableGuilds))
    | _ => exact usesKeys_mapped_apply _ update.1 update.2
  · exact ((currentUser env config).usesKeys_set update).mono (singleton_subset_keysOf .currentUser)

theorem usesKeys_ask {a : Area} (query : (interface env config a).Query) :
    UsesKeys (keysOf (fieldName a)) ((interface env config a).ask query) := by
  rcases a with h | n | _
  · exact ((repository env config h).usesKeys_get query).mono (singleton_subset_keysOf (.hash h))
  · cases n with
    | unavailableGuilds =>
      exact ((unavailableGuilds env config).usesKeys_ask query).mono
        (singleton_subset_keysOf (.set .unavailableGuilds))
    | _ => exact usesKeys_mapped_ask _ query.1 query.2
  · exact (currentUser env config).usesKeys_get.mono (singleton_subset_keysOf .currentUser)

end Keys

/-! ### What one field shows of another -/

/-- The hashes of the keys that an update of a `Repository` names. -/
def named : (a : Area) → (interface env config a).Update → List UInt64
  | .hash h, update => (Repository.Update.keys update).map fun key => env.hash (hashWords h key)
  | _, _ => []

/-- The hash of the key that `get` of a `Repository` asks for. -/
def asked : (a : Area) → (interface env config a).Query → Option UInt64
  | .hash h, key => some (env.hash (hashWords h key))
  | _, _ => none

/-- The updates of `a` reach what the question to `b` asks for: the fields are the users and the emojis,
updates of `a` are wanted, and one of them names a key with the hash of the one that is asked for. -/
def Interferes (a b : Area) (updates : List (interface env config a).Update)
    (query : (interface env config b).Query) : Prop :=
  SameHash a b ∧ wanted config a = true ∧
    ∃ update ∈ updates, ∃ key ∈ named env config a update, asked env config b query = some key

theorem toString_injective : Function.Injective fun n : UInt64 => toString n := by
  intro a b h
  have hdigits : Nat.toDigits 10 a.toNat = Nat.toDigits 10 b.toNat := by
    have hrepr : a.toNat.repr = b.toNat.repr := h
    rw [← Nat.toList_repr, ← Nat.toList_repr, hrepr]
  have hparsed := congrArg (fun digits => Nat.ofDigitChars 10 digits 0) hdigits
  rw [Nat.ofDigitChars_toDigits (by decide) (by decide),
    Nat.ofDigitChars_toDigits (by decide) (by decide)] at hparsed
  exact UInt64.toNat_inj.mp hparsed

variable {env config}

theorem field_mem_fields_iff {h h' : HashName} (update : Repository.Update (HashKey h) (HashValue h))
    (key : HashKey h') : (repository env config h').field key ∈ (repository env config h).fields update ↔
      ∃ k ∈ named env config (.hash h) update, asked env config (.hash h') key = some k := by
  unfold Repository.fields Repository.field named asked
  rw [List.mem_map]
  constructor
  · rintro ⟨k, hk, heq⟩
    exact ⟨_, List.mem_map_of_mem hk, congrArg some (toString_injective heq).symm⟩
  · rintro ⟨k, hk, heq⟩
    obtain ⟨k', hk', rfl⟩ := List.mem_map.mp hk
    exact ⟨k', hk', congrArg toString (Option.some.inj heq).symm⟩

theorem unaffected_iff_of_sameHash {h h' : HashName} (hsame : SameHash (.hash h) (.hash h'))
    (updates : List (interface env config (.hash h)).Update)
    (query : (interface env config (.hash h')).Query) :
    (∀ s, (interface env config (.hash h')).answer query
        ((interface env config (.hash h)).run updates s) =
          (interface env config (.hash h')).answer query s) ↔
      ¬ Interferes env config (.hash h) (.hash h') updates query := by
  have hname : (repository env config h').name = (repository env config h).name := by
    rcases hsame with ⟨heq, heq'⟩ | ⟨heq, heq'⟩ <;> cases heq <;> cases heq' <;> rfl
  refine (Repository.answer_run_iff_of_name hname updates query).trans (not_congr ?_)
  refine Iff.trans ?_ (and_iff_right hsame).symm
  exact and_congr_right fun _ => exists_congr fun update =>
    and_congr_right fun _ => field_mem_fields_iff update query

/-- Updates of one field never change an answer of another one, unless the two are the users and the
emojis. -/
theorem unaffected_iff (env : Env) (config : Config) (a b : Area) (hne : a ≠ b)
    (updates : List (interface env config a).Update) (query : (interface env config b).Query) :
    (∀ s, (interface env config b).answer query ((interface env config a).run updates s) =
        (interface env config b).answer query s) ↔ ¬ Interferes env config a b updates query := by
  by_cases hsame : SameHash a b
  · rcases hsame with ⟨rfl, rfl⟩ | ⟨rfl, rfl⟩
    · exact unaffected_iff_of_sameHash (.inl ⟨rfl, rfl⟩) updates query
    · exact unaffected_iff_of_sameHash (.inr ⟨rfl, rfl⟩) updates query
  · have hname : fieldName a ≠ fieldName b := fun heq => (fieldName_inj heq).elim hne hsame
    refine iff_of_true (fun s => ?_) fun h => hsame h.1
    exact Interface.answer_run_of_disjoint usesKeys_apply (disjoint_keysOf hname)
      (usesKeys_ask query) updates s

/-! A user and an emoji of one number. -/

/-- A hasher that keeps single ids apart, and the text of a user, which is not that of an emoji. -/
def exampleEnv : Env where
  hash words := words.foldl (fun hash word => hash * 31 + word) 0
  json
    | .hash .users => ⟨fun user => "\x7b\"id\":\"" ++ toString user.id.get ++ "\"\x7d", fun _ => none⟩
    | _ => ⟨fun _ => "null", fun _ => none⟩

def exampleUser : Twilight.User := ⟨⟨5, by decide⟩, "user"⟩

theorem users_insert_leaves_emoji_six :
    (interface exampleEnv (.all 100) (.hash .emojis)).answer (⟨6, by decide⟩ : Id .emoji)
        ((interface exampleEnv (.all 100) (.hash .users)).run
          [Repository.Update.insert exampleUser.id exampleUser] fun _ => none) =
      (interface exampleEnv (.all 100) (.hash .emojis)).answer (⟨6, by decide⟩ : Id .emoji)
        fun _ => none := by
  refine (unaffected_iff exampleEnv (.all 100) (.hash .users) (.hash .emojis) (by decide) _ _).mpr ?_ _
  rintro ⟨-, -, update, hupdate, key, hkey, hasked⟩
  cases List.mem_singleton.mp hupdate
  cases List.mem_singleton.mp hkey
  exact absurd (Option.some.inj hasked) (by decide)

theorem users_insert_changes_emojis :
    (∀ v w : UInt64, exampleEnv.hash [v] = exampleEnv.hash [w] → v = w) ∧
      (interface exampleEnv (.all 100) (.hash .emojis)).answer (⟨5, by decide⟩ : Id .emoji)
        (fun _ => none) = .ok none ∧
      (interface exampleEnv (.all 100) (.hash .emojis)).answer (⟨5, by decide⟩ : Id .emoji)
        ((interface exampleEnv (.all 100) (.hash .users)).run
          [Repository.Update.insert exampleUser.id exampleUser] fun _ => none) = .error .json := by
  refine ⟨fun v w h => ?_, rfl, rfl⟩
  simpa [exampleEnv] using h

end Tulpje.Redis
