import Mathlib.Data.Finset.Sort
import Mathlib.Data.String.Basic
import Tulpje.Lib.Simulation
import Tulpje.Redis.Separation

/-!
# The store of the cache in Redis

The cache is modelled on a store with typed keys and values (`Cache.State`). `Represents` says when the keys
of Redis hold such a store: a hash holds the texts of its entries under the hashes of their keys, a set the
texts of its members. This needs `DefaultHasher` to keep the keys apart that are in use, and `serde_json` to
read what it wrote (`Env.Lawful`). `command` is each typed command as it is sent; it simulates the typed one.
-/

namespace Tulpje.Redis

open Lib
open Tulpje.Cache (Area HashName SetName State EmojisEntry GuildResource CachedEmoji CachedUser)

/-! ### Texts -/

/-- The words of a field of a hash; emojis and users share theirs, under the bare number of the id. -/
def fieldWords : (h : HashName) → h.Field → List UInt64
  | .emojis, number => [number]
  | .guilds, id | .channels, id | .channelMessages, id | .scheduledEvents, id | .messages, id
  | .roles, id | .stageInstances, id | .stickers, id | .users, id => [id.get]
  | .integrations, (guildId, id) | .members, (guildId, id) | .presences, (guildId, id)
  | .voiceStates, (guildId, id) => [guildId.get, id.get]

theorem get_inj {m : Twilight.Marker} {a b : Twilight.Id m} (h : [a.get] = [b.get]) : a = b :=
  Twilight.Id.get_injective m (List.head_eq_of_cons_eq h)

theorem fieldWords_injective (h : HashName) : Function.Injective (fieldWords h) := by
  have hpair : ∀ {m m' : Twilight.Marker} {a b : Twilight.Id m × Twilight.Id m'},
      [a.1.get, a.2.get] = [b.1.get, b.2.get] → a = b := fun heq =>
    Prod.ext (get_inj (congrArg (List.take 1) heq)) (get_inj (congrArg (List.drop 1) heq))
  intro a b heq
  cases h with
  | emojis => exact List.head_eq_of_cons_eq heq
  | integrations => exact hpair heq
  | members => exact hpair heq
  | presences => exact hpair heq
  | voiceStates => exact hpair heq
  | _ => exact get_inj heq

theorem setWords_injective (n : SetName) : Function.Injective (setWords n) := by
  intro a b heq
  cases n with
  | unavailableGuilds => rfl
  | _ => exact get_inj heq

/-- The codec reads back what it wrote. -/
def Codec.Reads {V : Type} (json : Codec V) : Prop := ∀ value, json.ofText (json.toText value) = some value

theorem Codec.Reads.toText_injective {V : Type} {json : Codec V} (h : json.Reads) :
    Function.Injective json.toText := by
  intro a b heq
  have hread : json.ofText (json.toText a) = json.ofText (json.toText b) := congrArg json.ofText heq
  rw [h, h] at hread
  exact Option.some.inj hread

/-- Texts of both kinds; what reads as an emoji is one. -/
def sharedCodec (emojis : Codec (GuildResource CachedEmoji)) (users : Codec CachedUser) :
    Codec EmojisEntry where
  toText
    | .emoji emoji => emojis.toText emoji
    | .user user => users.toText user
  ofText text := ((emojis.ofText text).map .emoji).or ((users.ofText text).map .user)

theorem reads_sharedCodec {emojis : Codec (GuildResource CachedEmoji)} {users : Codec CachedUser}
    (hemojis : emojis.Reads) (husers : users.Reads)
    (hother : ∀ user, emojis.ofText (users.toText user) = none) : (sharedCodec emojis users).Reads := by
  intro entry
  unfold sharedCodec
  cases entry with
  | emoji emoji =>
    dsimp only
    rw [hemojis]
    rfl
  | user user =>
    dsimp only
    rw [hother, husers]
    rfl

variable (env : Env)

def entryCodec : (h : HashName) → Codec h.Entry
  | .emojis => sharedCodec (env.json (.hash .emojis)) (env.json (.hash .users))
  | .guilds => env.json (.hash .guilds)
  | .channels => env.json (.hash .channels)
  | .channelMessages => env.json (.hash .channelMessages)
  | .scheduledEvents => env.json (.hash .scheduledEvents)
  | .integrations => env.json (.hash .integrations)
  | .members => env.json (.hash .members)
  | .messages => env.json (.hash .messages)
  | .presences => env.json (.hash .presences)
  | .roles => env.json (.hash .roles)
  | .stageInstances => env.json (.hash .stageInstances)
  | .stickers => env.json (.hash .stickers)
  | .users => env.json (.hash .users)
  | .voiceStates => env.json (.hash .voiceStates)

def fieldText (h : HashName) (field : h.Field) : String := toString (env.hash (fieldWords h field))

/-- What the store of the cache relies on: the hasher keeps the keys in use apart, and `serde_json` reads
back what it wrote; a user does not read as an emoji, nor an emoji as a user. -/
structure Env.Lawful (used : Set (List UInt64)) : Prop where
  hash_injOn : Set.InjOn env.hash used
  reads : ∀ a, (env.json a).Reads
  user_text : ∀ user, (env.json (.hash .emojis)).ofText ((env.json (.hash .users)).toText user) = none
  emoji_text : ∀ emoji, (env.json (.hash .users)).ofText ((env.json (.hash .emojis)).toText emoji) = none

section Lawful
variable {env} {used : Set (List UInt64)} (hlaw : env.Lawful used)
include hlaw

theorem reads_entryCodec (h : HashName) : (entryCodec env h).Reads := by
  cases h with
  | emojis => exact reads_sharedCodec (hlaw.reads _) (hlaw.reads _) hlaw.user_text
  | _ => exact hlaw.reads _

theorem fieldText_inj {h : HashName} {a b : h.Field} (ha : fieldWords h a ∈ used)
    (hb : fieldWords h b ∈ used) (heq : fieldText env h a = fieldText env h b) : a = b :=
  fieldWords_injective h (hlaw.hash_injOn ha hb (toString_injective heq))

end Lawful

/-! ### Keys -/

/-- What the value of one key of Redis stands for. -/
inductive Place
  | hash (h : HashName)
  | set (n : SetName) (key : n.Key)
  | currentUser

namespace Place

def area : Place → Area
  | hash h => .hash h
  | set n _ => .set n
  | currentUser => .currentUser

def key : Place → String
  | hash h => "cache:" ++ fieldName (.hash h)
  | set .unavailableGuilds _ => "cache:" ++ fieldName (.set .unavailableGuilds)
  | set n key => "cache:" ++ (fieldName (.set n) ++ ":" ++ toString (env.hash (setWords n key)))
  | currentUser => "cache:" ++ fieldName .currentUser

/-- The users have no hash of their own. -/
def InUse (used : Set (List UInt64)) : Place → Prop
  | hash h => h ≠ .users
  | set n key => setWords n key ∈ used
  | currentUser => True

theorem nameOf_key (p : Place) : nameOf (p.key env) = (fieldName p.area).toList := by
  rcases p with h | ⟨n, key⟩ | _
  · exact nameOf_plain (colon_notMem_fieldName (.hash h))
  · cases n with
    | unavailableGuilds => exact nameOf_plain (colon_notMem_fieldName (.set .unavailableGuilds))
    | _ => exact nameOf_mapped (colon_notMem_fieldName _) _
  · exact nameOf_plain (colon_notMem_fieldName .currentUser)

variable {env} {used : Set (List UInt64)}

theorem area_eq_of_key_eq {p q : Place} (hp : p.InUse used) (hq : q.InUse used)
    (h : p.key env = q.key env) : p.area = q.area := by
  have hname : fieldName p.area = fieldName q.area := by
    rw [← String.toList_inj, ← p.nameOf_key env, ← q.nameOf_key env, h]
  have husers : ∀ {p : Place}, p.InUse used → p.area ≠ .hash .users := by
    rintro (h | ⟨n, key⟩ | _) hp heq
    · exact hp (Area.hash.inj heq)
    · cases heq
    · cases heq
  exact (fieldName_inj hname).resolve_right fun hsame =>
    hsame.elim (fun hu => husers hp hu.1) fun hu => husers hq hu.2

theorem eq_of_key_eq (hlaw : env.Lawful used) {p q : Place} (hp : p.InUse used) (hq : q.InUse used)
    (h : p.key env = q.key env) : p = q := by
  have harea := area_eq_of_key_eq hp hq h
  rcases p with hash | ⟨n, key⟩ | _ <;> rcases q with hash' | ⟨n', key'⟩ | _ <;> cases harea
  · rfl
  · have hwords : n ≠ .unavailableGuilds → setWords n key = setWords n key' := by
      intro hn
      refine hlaw.hash_injOn hp hq (toString_injective ?_)
      have hkeys : "cache:" ++ (fieldName (.set n) ++ ":" ++ toString (env.hash (setWords n key))) =
          "cache:" ++ (fieldName (.set n) ++ ":" ++ toString (env.hash (setWords n key'))) := by
        cases n with
        | unavailableGuilds => exact absurd rfl hn
        | _ => exact h
      exact (String.append_right_inj _).mp ((String.append_right_inj _).mp hkeys)
    by_cases hn : n = .unavailableGuilds
    · subst hn
      rfl
    · rw [setWords_injective n (hwords hn)]
  · rfl

end Place

/-! ### The store that Redis holds -/

variable (used : Set (List UInt64))

/-- The fields hold the texts of the entries, and there are no others. -/
structure Encodes (h : HashName) (typed : h.Field → Option h.Entry) (entries : Entries) : Prop where
  lookup : ∀ field, fieldWords h field ∈ used →
    entries.lookup (fieldText env h field) = (typed field).map (entryCodec env h).toText
  only : ∀ text, (∀ field, fieldWords h field ∈ used → fieldText env h field ≠ text) →
    entries.lookup text = none

/-- The value of a key holds what it stands for. -/
def Place.Holds (s : State) : Place → Option Value → Prop
  | .hash h, value => ∃ entries, value = ofHash entries ∧ Encodes env used h (s.hashes h) entries
  | .set n key, value => value = ofSet ((s.sets n key).image (env.json (.set n)).toText)
  | .currentUser, value =>
    value = s.currentUser.map fun user => .string ((env.json .currentUser).toText user)

/-- Nothing is stored outside the keys in use. -/
structure Within (s : State) : Prop where
  users : s.hashes .users = fun _ => none
  hashes : ∀ h field, fieldWords h field ∉ used → s.hashes h field = none
  sets : ∀ n key, setWords n key ∉ used → s.sets n key = ∅

structure Represents (r : Store) (s : State) : Prop where
  holds : ∀ p : Place, p.InUse used → p.Holds env used s (r (p.key env))
  within : Within used s

/-! ### The commands -/

def place : Cache.Op → Place
  | .hget h _ | .hset h _ _ | .hdel h _ => .hash h
  | .smembers n key | .sismember n key _ | .existsKey n key | .sadd n key _ | .srem n key _
  | .del n key => .set n key
  | .get | .set _ => .currentUser

/-- The command names only keys in use. -/
def OpInUse : Cache.Op → Prop
  | .hget h field | .hset h field _ => h ≠ .users ∧ fieldWords h field ∈ used
  | .hdel h fields => h ≠ .users ∧ ∀ field ∈ fields, fieldWords h field ∈ used
  | .smembers n key | .sismember n key _ | .existsKey n key | .sadd n key _ | .srem n key _
  | .del n key => setWords n key ∈ used
  | .get | .set _ => True

theorem place_inUse {used : Set (List UInt64)} {o : Cache.Op} (h : OpInUse used o) :
    (place o).InUse used := by
  cases o with
  | hget => exact h.1
  | hset => exact h.1
  | hdel => exact h.1
  | _ => exact h

/-- The repository of one set, which is wanted. -/
def setAt (n : SetName) (key : n.Key) : SetRepository n.Elem :=
  ⟨(Place.set n key).key env, true, env.json (.set n)⟩

/-- A command of the cache as Redis gets it. -/
def command : (o : Cache.Op) → RedisM o.Reply
  | .hget h field => do
    let found ← send (.hget ((Place.hash h).key env) (fieldText env h field))
    ofExcept ((entryCodec env h).read found)
  | .hset h field value =>
    send (.hset ((Place.hash h).key env) (fieldText env h field) ((entryCodec env h).toText value))
  | .hdel h fields => send (.hdel ((Place.hash h).key env) (fields.image (fieldText env h)).sort)
  | .smembers n key => (setAt env n key).members
  | .sismember n key value =>
    send (.sismember ((Place.set n key).key env) ((env.json (.set n)).toText value))
  | .existsKey n key => send (.existsKey ((Place.set n key).key env))
  | .sadd n key value => send (.sadd ((Place.set n key).key env) ((env.json (.set n)).toText value))
  | .srem n key values =>
    send (.srem ((Place.set n key).key env) (values.image (env.json (.set n)).toText).sort)
  | .del n key => send (.del ((Place.set n key).key env))
  | .get => do
    let found ← send (.get (Place.currentUser.key env))
    ofExcept ((env.json .currentUser).read found)
  | .set value => send (.set (Place.currentUser.key env) ((env.json .currentUser).toText value))

/-! Hashes. -/

theorem Codec.Reads.read_map {V : Type} {json : Codec V} (h : json.Reads) (value : Option V) :
    json.read (value.map json.toText) = .ok value := by
  cases value with
  | none => rfl
  | some value =>
    unfold read
    rw [Option.map_some]
    dsimp only
    rw [h]

section Encodes
variable {env used} {h : HashName} {typed : h.Field → Option h.Entry} {entries : Entries}

theorem encodes_empty : Encodes env used h (fun _ => none) ∅ where
  lookup _ _ := rfl
  only _ _ := rfl

theorem Encodes.mem_iff (henc : Encodes env used h typed entries) {field : h.Field}
    (hfield : fieldWords h field ∈ used) : fieldText env h field ∈ entries ↔ (typed field).isSome := by
  rw [← Finmap.lookup_isSome, henc.lookup field hfield, Option.isSome_map]

theorem Encodes.insert (henc : Encodes env used h typed entries) (hlaw : env.Lawful used)
    {field : h.Field} (hfield : fieldWords h field ∈ used) (value : h.Entry) :
    Encodes env used h (Function.update typed field (some value))
      (entries.insert (fieldText env h field) ((entryCodec env h).toText value)) where
  lookup field' hfield' := by
    by_cases heq : field' = field
    · rw [heq, Finmap.lookup_insert, Function.update_self]
      rfl
    · have hne : fieldText env h field' ≠ fieldText env h field :=
        fun htext => heq (fieldText_inj hlaw hfield' hfield htext)
      rw [Finmap.lookup_insert_of_ne _ hne, Function.update_of_ne heq, henc.lookup field' hfield']
  only text htext := by
    rw [Finmap.lookup_insert_of_ne _ (htext field hfield).symm, henc.only text htext]

theorem fieldText_mem_sort_iff (hlaw : env.Lawful used) {fields : Finset h.Field}
    (hfields : ∀ field ∈ fields, fieldWords h field ∈ used) {field : h.Field}
    (hfield : fieldWords h field ∈ used) :
    fieldText env h field ∈ (fields.image (fieldText env h)).sort ↔ field ∈ fields := by
  rw [Finset.mem_sort, Finset.mem_image]
  constructor
  · rintro ⟨field', hmem, htext⟩
    rwa [← fieldText_inj hlaw (hfields field' hmem) hfield htext]
  · exact fun hmem => ⟨field, hmem, rfl⟩

theorem Encodes.eraseAll (henc : Encodes env used h typed entries) (hlaw : env.Lawful used)
    {fields : Finset h.Field} (hfields : ∀ field ∈ fields, fieldWords h field ∈ used) :
    Encodes env used h (fun field => if field ∈ fields then none else typed field)
      (eraseAll (fields.image (fieldText env h)).sort entries) where
  lookup field hfield := by
    rw [lookup_eraseAll, henc.lookup field hfield]
    simp only [fieldText_mem_sort_iff hlaw hfields hfield]
    by_cases hmem : field ∈ fields
    · rw [if_pos hmem, if_pos hmem]
      rfl
    · rw [if_neg hmem, if_neg hmem]
  only text htext := by
    rw [lookup_eraseAll, henc.only text htext, ite_self]

/-- How many of the fields there are. -/
theorem Encodes.card_present (henc : Encodes env used h typed entries) (hlaw : env.Lawful used)
    {fields : Finset h.Field} (hfields : ∀ field ∈ fields, fieldWords h field ∈ used) :
    ((fields.image (fieldText env h)).sort.toFinset.filter (· ∈ entries)).card =
      (fields.filter fun field => (typed field).isSome).card := by
  have hpresent : fields.filter (fun field => fieldText env h field ∈ entries) =
      fields.filter fun field => (typed field).isSome :=
    Finset.filter_congr fun field hmem => henc.mem_iff (hfields field hmem)
  rw [Finset.sort_toFinset, Finset.filter_image, hpresent]
  refine Finset.card_image_of_injOn fun a ha b hb htext => ?_
  exact fieldText_inj hlaw (hfields a (Finset.mem_of_mem_filter a ha))
    (hfields b (Finset.mem_of_mem_filter b hb)) htext

end Encodes

/-! Places that a command is not about. -/

def cellPlace : Cache.Cell → Place
  | .field h _ => .hash h
  | .member n key _ => .set n key
  | .currentUser => .currentUser

theorem cellPlace_of_touches {o : Cache.Op} {c : Cache.Cell} (hc : c ∈ o.touches) :
    cellPlace c = place o := by
  cases o with
  | hdel h fields =>
    obtain ⟨field, -, rfl⟩ := hc
    rfl
  | srem n key values =>
    obtain ⟨value, -, rfl⟩ := hc
    rfl
  | smembers n key =>
    obtain ⟨value, rfl⟩ := hc
    rfl
  | existsKey n key =>
    obtain ⟨value, rfl⟩ := hc
    rfl
  | del n key =>
    obtain ⟨value, rfl⟩ := hc
    rfl
  | _ =>
    obtain rfl := Set.mem_singleton_iff.mp hc
    rfl

section Frame
variable {env used} {o : Cache.Op} {s : State}

theorem look_of_ne {p : Place} (hp : p ≠ place o) {c : Cache.Cell} (hc : cellPlace c = p) :
    (Cache.eval o s).2.look c = s.look c :=
  Cache.eval_frame o s c fun hw => hp (hc ▸ cellPlace_of_touches hw.2)

theorem hashes_of_ne {h : HashName} (hp : Place.hash h ≠ place o) :
    (Cache.eval o s).2.hashes h = s.hashes h :=
  funext fun field => look_of_ne hp (c := .field h field) rfl

theorem sets_of_ne {n : SetName} {key : n.Key} (hp : Place.set n key ≠ place o) :
    (Cache.eval o s).2.sets n key = s.sets n key := by
  refine Cache.sets_eq_of_look ?_
  rintro c ⟨value, rfl⟩
  exact look_of_ne hp rfl

theorem holds_of_ne {p : Place} (hp : p ≠ place o) {value : Option Value} (h : p.Holds env used s value) :
    p.Holds env used (Cache.eval o s).2 value := by
  rcases p with h' | ⟨n, key⟩ | _
  · obtain ⟨entries, hvalue, henc⟩ := h
    exact ⟨entries, hvalue, (hashes_of_ne hp : _ = s.hashes h').symm ▸ henc⟩
  · exact h.trans (by rw [sets_of_ne hp])
  · have huser : (Cache.eval o s).2.currentUser = s.currentUser := look_of_ne hp (c := .currentUser) rfl
    exact h.trans (by rw [huser])

theorem Within.eval (h : Within used s) (ho : OpInUse used o) : Within used (Cache.eval o s).2 where
  users := by
    rw [hashes_of_ne fun heq => (heq ▸ place_inUse ho : (Place.hash .users).InUse used) rfl, h.users]
  hashes h' field hfield := by
    refine Eq.trans (Cache.eval_frame o s (.field h' field) fun hw => hfield ?_) (h.hashes h' field hfield)
    -- a field that a command touches is in use
    have htouch := hw.2
    cases o with
    | hget =>
      cases htouch
      exact ho.2
    | hset =>
      cases htouch
      exact ho.2
    | hdel h'' fields =>
      obtain ⟨field', hmem, heq⟩ := htouch
      cases heq
      exact ho.2 _ hmem
    | _ => exact absurd (cellPlace_of_touches htouch) (by simp [cellPlace, place])
  sets n key hkey := by
    have hp : Place.set n key ≠ place o := fun heq =>
      hkey (heq ▸ place_inUse ho : (Place.set n key).InUse used)
    rw [sets_of_ne hp, h.sets n key hkey]

end Frame

/-- A command of Redis at the place of a typed one, which does to the value what this does to the store. -/
theorem Represents.eval {env : Env} {used : Set (List UInt64)} {o : Cache.Op} {raw : Op} {r : Store}
    {s : State} (hR : Represents env used r s) (hlaw : env.Lawful used) (ho : OpInUse used o)
    (hkey : raw.key = (place o).key env)
    (hholds : (place o).Holds env used (Cache.eval o s).2 (evalAt raw (r raw.key)).2) :
    Represents env used (eval raw r).2 (Cache.eval o s).2 where
  holds p hp := by
    by_cases heq : p = place o
    · rw [heq, ← hkey, eval_self]
      exact hholds
    · have hne : p.key env ≠ raw.key := fun h =>
        heq (Place.eq_of_key_eq hlaw hp (place_inUse ho) (h.trans hkey))
      rw [eval_of_ne hne]
      exact holds_of_ne heq (hR.holds p hp)
  within := hR.within.eval ho

/-! ### Simulation -/

theorem exec_send_ok {o : Op} {result : o.Result} {r : Store} (h : (evalAt o (r o.key)).1 = .ok result) :
    (send o).exec eval r = (.ok result, (eval o r).2) := by
  have hreply : (eval o r).1 = .ok result := h
  rw [exec_send, hreply]
  rfl

/-- A command that replies in full and leaves the store represented. -/
theorem simulated_send {env : Env} {used : Set (List UInt64)} {o : Cache.Op} {raw : Op} {r : Store}
    {s : State} (hR : Represents env used r s) (hlaw : env.Lawful used) (ho : OpInUse used o)
    (hkey : raw.key = (place o).key env) {result : raw.Result} {value : Option Value}
    (hval : evalAt raw (r ((place o).key env)) = (.ok result, value))
    (hholds : (place o).Holds env used (Cache.eval o s).2 value) :
    (send raw).exec eval r = (.ok result, (eval raw r).2) ∧
      Represents env used (eval raw r).2 (Cache.eval o s).2 := by
  rw [← hkey] at hval
  refine ⟨exec_send_ok (congrArg Prod.fst hval), hR.eval hlaw ho hkey ?_⟩
  rw [hval]
  exact hholds

/-- Reading the texts of a set gives the set. -/
theorem exec_members_of_eq {T : Type} [DecidableEq T] (self : SetRepository T) (hreads : self.json.Reads)
    {members : Finset T} {r : Store} (h : r self.name = ofSet (members.image self.json.toText)) :
    self.members.exec eval r = (.ok members, r) := by
  have hreply : (evalAt (.smembers self.name) (r self.name)).1 = .ok (members.image self.json.toText) := by
    rw [h, evalAt_smembers]
  have hsame : (eval (.smembers self.name) r).2 = r := Function.update_eq_self ..
  have hread : (members.image self.json.toText).filter (fun text => self.json.ofText text = none) = ∅ := by
    refine Finset.filter_eq_empty_iff.mpr fun text hmem hnone => ?_
    obtain ⟨value, -, rfl⟩ := Finset.mem_image.mp hmem
    rw [hreads] at hnone
    cases hnone
  have hall : (members.image self.json.toText).biUnion (fun text => (self.json.ofText text).toFinset) =
      members := by
    ext value
    simp only [Finset.mem_biUnion, Finset.mem_image, exists_exists_and_eq_and, hreads _,
      Option.toFinset_some, Finset.mem_singleton, exists_eq_right']
  unfold SetRepository.members
  rw [Prog.exec_bind_ok (exec_send_ok hreply), hsame, if_pos hread, hall]
  rfl

section Simulation
variable {env used} (hlaw : env.Lawful used) {r : Store} {s : State} (hR : Represents env used r s)
include hlaw hR

theorem simulated_hget {h : HashName} {field : h.Field} (ho : OpInUse used (.hget h field)) :
    (command env (.hget h field)).exec eval r = (.ok (s.hashes h field), r) := by
  obtain ⟨entries, hvalue, henc⟩ := hR.holds (.hash h) ho.1
  have hreply : (evalAt (.hget ((Place.hash h).key env) (fieldText env h field))
      (r ((Place.hash h).key env))).1 = .ok (entries.lookup (fieldText env h field)) := by
    rw [hvalue, evalAt_hget]
  have hsame : (eval (.hget ((Place.hash h).key env) (fieldText env h field)) r).2 = r :=
    Function.update_eq_self ..
  unfold command
  rw [Prog.exec_bind_ok (exec_send_ok hreply), hsame, henc.lookup field ho.2,
    (reads_entryCodec hlaw h).read_map, exec_ofExcept]

theorem simulated_get : (command env .get).exec eval r = (.ok s.currentUser, r) := by
  have hvalue := hR.holds .currentUser trivial
  have hreply : (evalAt (.get (Place.currentUser.key env)) (r (Place.currentUser.key env))).1 =
      .ok (s.currentUser.map (env.json .currentUser).toText) := by
    rw [hvalue]
    cases s.currentUser <;> rfl
  have hsame : (eval (.get (Place.currentUser.key env)) r).2 = r := Function.update_eq_self ..
  unfold command
  rw [Prog.exec_bind_ok (exec_send_ok hreply), hsame, (hlaw.reads _).read_map, exec_ofExcept]

theorem simulated_hset {h : HashName} {field : h.Field} {value : h.Entry}
    (ho : OpInUse used (.hset h field value)) : ∃ r', (command env (.hset h field value)).exec eval r =
      (.ok (if (s.hashes h field).isSome then 0 else 1), r') ∧
        Represents env used r' (s.hset h field value) := by
  obtain ⟨entries, hvalue, henc⟩ := hR.holds (.hash h) ho.1
  have hval := evalAt_hset ((Place.hash h).key env) (fieldText env h field)
    ((entryCodec env h).toText value) entries
  rw [← hvalue] at hval
  simp only [henc.mem_iff ho.2] at hval
  have henc' := henc.insert hlaw ho.2 value
  rw [← State.hset_self s] at henc'
  exact ⟨_, simulated_send hR hlaw ho rfl hval ⟨_, rfl, henc'⟩⟩

theorem simulated_hdel {h : HashName} {fields : Finset h.Field} (ho : OpInUse used (.hdel h fields)) :
    ∃ r', (command env (.hdel h fields)).exec eval r =
      (.ok (fields.filter fun field => (s.hashes h field).isSome).card, r') ∧
        Represents env used r' (s.hdel h fields) := by
  obtain ⟨entries, hvalue, henc⟩ := hR.holds (.hash h) ho.1
  have hval := evalAt_hdel ((Place.hash h).key env) (fields.image (fieldText env h)).sort entries
  rw [← hvalue, henc.card_present hlaw ho.2] at hval
  have henc' := henc.eraseAll hlaw ho.2
  rw [← State.hdel_self s] at henc'
  exact ⟨_, simulated_send hR hlaw ho rfl hval ⟨_, rfl, henc'⟩⟩

section Sets
variable {n : SetName} {key : n.Key} (hkey : setWords n key ∈ used) (value : n.Elem)
include hkey

theorem simulated_sismember : ∃ r', (command env (.sismember n key value)).exec eval r =
    (.ok (if value ∈ s.sets n key then 1 else 0), r') ∧ Represents env used r' s := by
  have hvalue := hR.holds (.set n key) hkey
  have hval := evalAt_sismember ((Place.set n key).key env) ((env.json (.set n)).toText value)
    ((s.sets n key).image (env.json (.set n)).toText)
  have hinj := (hlaw.reads (.set n)).toText_injective
  rw [← hvalue] at hval
  simp only [Finset.mem_image, hinj.eq_iff, exists_eq_right] at hval
  exact ⟨_, simulated_send (o := .sismember n key value) hR hlaw hkey rfl hval hvalue⟩

theorem simulated_existsKey : ∃ r', (command env (.existsKey n key)).exec eval r =
    (.ok (decide (s.sets n key).Nonempty), r') ∧ Represents env used r' s := by
  have hvalue := hR.holds (.set n key) hkey
  have hval := evalAt_existsKey ((Place.set n key).key env)
    ((s.sets n key).image (env.json (.set n)).toText)
  rw [← hvalue] at hval
  simp only [Finset.image_nonempty] at hval
  exact ⟨_, simulated_send (o := .existsKey n key) hR hlaw hkey rfl hval hvalue⟩

theorem simulated_sadd : ∃ r', (command env (.sadd n key value)).exec eval r =
    (.ok (if value ∈ s.sets n key then 0 else 1), r') ∧
      Represents env used r' (s.sadd n key value) := by
  have hvalue := hR.holds (.set n key) hkey
  have hval := evalAt_sadd ((Place.set n key).key env) ((env.json (.set n)).toText value)
    ((s.sets n key).image (env.json (.set n)).toText)
  have hinj := (hlaw.reads (.set n)).toText_injective
  rw [← hvalue, ← Finset.image_insert] at hval
  simp only [Finset.mem_image, hinj.eq_iff, exists_eq_right] at hval
  have hset : (s.sadd n key value).sets n key = insert value (s.sets n key) := State.setSet_self ..
  rw [← hset] at hval
  exact ⟨_, simulated_send (o := .sadd n key value) hR hlaw hkey rfl hval rfl⟩

theorem simulated_srem (values : Finset n.Elem) : ∃ r', (command env (.srem n key values)).exec eval r =
    (.ok (s.sets n key ∩ values).card, r') ∧ Represents env used r' (s.srem n key values) := by
  have hvalue := hR.holds (.set n key) hkey
  have hval := evalAt_srem ((Place.set n key).key env)
    (values.image (env.json (.set n)).toText).sort ((s.sets n key).image (env.json (.set n)).toText)
  have hinj := (hlaw.reads (.set n)).toText_injective
  rw [← hvalue, Finset.sort_toFinset, ← Finset.image_inter _ _ hinj,
    Finset.card_image_of_injective _ hinj, ← Finset.image_sdiff _ _ hinj] at hval
  have hset : (s.srem n key values).sets n key = s.sets n key \ values := State.setSet_self ..
  rw [← hset] at hval
  exact ⟨_, simulated_send (o := .srem n key values) hR hlaw hkey rfl hval rfl⟩

theorem simulated_del : ∃ r', (command env (.del n key)).exec eval r =
    (.ok (if (s.sets n key).Nonempty then 1 else 0), r') ∧ Represents env used r' (s.del n key) := by
  have hvalue := hR.holds (.set n key) hkey
  have hval := evalAt_del ((Place.set n key).key env)
    ((s.sets n key).image (env.json (.set n)).toText)
  rw [← hvalue] at hval
  simp only [Finset.image_nonempty] at hval
  have hset : (s.del n key).sets n key = ∅ := State.setSet_self ..
  refine ⟨_, simulated_send (o := .del n key) hR hlaw hkey rfl hval ?_⟩
  show ofSet ∅ = ofSet (((s.del n key).sets n key).image _)
  rw [hset, Finset.image_empty]

end Sets

/-- Redis replies to a command of the cache as the typed store does, and goes on holding it. -/
theorem simulated_command {o : Cache.Op} (ho : OpInUse used o) :
    ∃ r', (command env o).exec eval r = (.ok (Cache.eval o s).1, r') ∧
      Represents env used r' (Cache.eval o s).2 := by
  cases o with
  | hget h field => exact ⟨r, simulated_hget hlaw hR ho, hR⟩
  | hset h field value => exact simulated_hset hlaw hR ho
  | hdel h fields => exact simulated_hdel hlaw hR ho
  | smembers n key =>
    refine ⟨r, exec_members_of_eq (setAt env n key) (hlaw.reads _) ?_, hR⟩
    exact hR.holds (.set n key) ho
  | sismember n key value => exact simulated_sismember hlaw hR ho value
  | existsKey n key => exact simulated_existsKey hlaw hR ho
  | sadd n key value => exact simulated_sadd hlaw hR ho value
  | srem n key values => exact simulated_srem hlaw hR ho values
  | del n key => exact simulated_del hlaw hR ho
  | get => exact ⟨r, simulated_get hlaw hR, hR⟩
  | set value =>
    have hval : evalAt (.set (Place.currentUser.key env) ((env.json .currentUser).toText value))
        (r (Place.currentUser.key env)) =
          (.ok (), some (.string ((env.json .currentUser).toText value))) := rfl
    exact ⟨_, simulated_send (o := .set value) hR hlaw ho rfl hval rfl⟩

end Simulation

theorem simulates_command {env : Env} {used : Set (List UInt64)} (hlaw : env.Lawful used) :
    Prog.Simulates Cache.eval eval (command env) (Represents env used) (OpInUse used) :=
  fun _ ho _ _ hR => simulated_command hlaw hR ho

end Tulpje.Redis
