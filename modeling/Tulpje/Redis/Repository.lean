import Tulpje.Redis.Store

/-!
# The repositories on Redis

`tulpje-cache/src/repository.rs` with the key names and texts that it sends. The hash of a key is that of
`DefaultHasher` over the words of the ids in it; texts are those of `serde_json`. Both are parameters.
-/

namespace Tulpje.Redis

open Lib

/-- `serde_json::to_string` and `from_str` for one type. -/
structure Codec (V : Type) where
  toText : V → String
  ofText : String → Option V

variable {K V T : Type}

/-- `.map(|json| serde_json::from_str(&json)).transpose()`. -/
def Codec.read (json : Codec V) : Option String → Except Error (Option V)
  | none => .ok none
  | some text =>
    match json.ofText text with
    | some value => .ok (some value)
    | none => .error .json

/-! ### `Repository` -/

/-- Values by key in one hash of Redis. The field of a key is its 64-bit hash, so two keys may share one. -/
structure Repository (K V : Type) where
  name : String
  wanted : Bool
  hash : K → UInt64
  json : Codec V

namespace Repository

def new (name : String) (wanted : Bool) (hash : K → UInt64) (json : Codec V) : Repository K V :=
  ⟨"cache:" ++ name, wanted, hash, json⟩

variable (self : Repository K V)

/-- The field of a key: its hash in decimal. -/
def field (key : K) : String := toString (self.hash key)

/-- A text that does not parse is an error, and so is a key of another type. -/
def get (key : K) : RedisM (Option V) := do
  let found ← send (.hget self.name (self.field key))
  ofExcept (self.json.read found)

/-- Whether the field is new. -/
def insert (key : K) (value : V) : RedisM Bool := do
  if !self.wanted then
    return false
  let added ← send (.hset self.name (self.field key) (self.json.toText value))
  return added > 0

def remove (key : K) : RedisM Bool := do
  if !self.wanted then
    return false
  let removed ← send (.hdel self.name [self.field key])
  return removed > 0

/-- How many fields there were. `HDEL` without fields would be an error of Redis. -/
def removeMulti (keys : List K) : RedisM Nat := do
  if !self.wanted then
    return 0
  let keys := keys.map self.field
  if keys.isEmpty then
    return 0
  send (.hdel self.name keys)

end Repository

/-! ### `SetRepository` -/

/-- One set of Redis, whose members are the texts of the elements. -/
structure SetRepository (T : Type) where
  name : String
  wanted : Bool
  json : Codec T

namespace SetRepository

def new (name : String) (wanted : Bool) (json : Codec T) : SetRepository T :=
  ⟨"cache:" ++ name, wanted, json⟩

variable (self : SetRepository T)

/-- One member that does not parse makes the whole an error. -/
def members [DecidableEq T] : RedisM (Finset T) := do
  let jsonSet ← send (.smembers self.name)
  if jsonSet.filter (fun text => self.json.ofText text = none) = ∅ then
    return jsonSet.biUnion fun text => (self.json.ofText text).toFinset
  Prog.throw .json

def contains (value : T) : RedisM Bool := do
  let found ← send (.sismember self.name (self.json.toText value))
  return found > 0

/-- The reply to `EXISTS` is passed on as it is. -/
def isEmpty : RedisM Bool := do
  if !self.wanted then
    return false
  send (.existsKey self.name)

def insert (value : T) : RedisM Bool := do
  if !self.wanted then
    return false
  let added ← send (.sadd self.name (self.json.toText value))
  return added > 0

def remove (value : T) : RedisM Bool := do
  if !self.wanted then
    return false
  let removed ← send (.srem self.name [self.json.toText value])
  return removed > 0

/-- How many members there were. -/
def removeMulti (values : List T) : RedisM Nat := do
  if !self.wanted then
    return 0
  let jsonValues := values.map self.json.toText
  if jsonValues.isEmpty then
    return 0
  send (.srem self.name jsonValues)

/-- `DEL` of the key, of whichever type it is. -/
def clear : RedisM Bool := do
  if !self.wanted then
    return false
  let removed ← send (.del self.name)
  return removed > 0

end SetRepository

/-! ### `MappedSetRepository` -/

/-- A set for each key. -/
structure MappedSetRepository (K V : Type) where
  name : String
  wanted : Bool
  hash : K → UInt64
  json : Codec V

namespace MappedSetRepository

def new (name : String) (wanted : Bool) (hash : K → UInt64) (json : Codec V) :
    MappedSetRepository K V := ⟨name, wanted, hash, json⟩

variable (self : MappedSetRepository K V)

/-- The Redis key of one set: the name and the hash of the key. -/
def key (key : K) : String := self.name ++ ":" ++ toString (self.hash key)

def setRepository (key : K) : SetRepository V := .new (self.key key) self.wanted self.json

def members [DecidableEq V] (key : K) : RedisM (Finset V) := (self.setRepository key).members

def isEmpty (key : K) : RedisM Bool := (self.setRepository key).isEmpty

def contains (key : K) (value : V) : RedisM Bool := (self.setRepository key).contains value

def insert (key : K) (value : V) : RedisM Bool := (self.setRepository key).insert value

def remove (key : K) (value : V) : RedisM Bool := (self.setRepository key).remove value

def clear (key : K) : RedisM Bool := (self.setRepository key).clear

def removeMulti (key : K) (values : List V) : RedisM Nat := (self.setRepository key).removeMulti values

end MappedSetRepository

/-! ### `SingleRepository` -/

/-- One value, under one key of Redis. -/
structure SingleRepository (T : Type) where
  name : String
  wanted : Bool
  json : Codec T

namespace SingleRepository

def new (name : String) (wanted : Bool) (json : Codec T) : SingleRepository T :=
  ⟨"cache:" ++ name, wanted, json⟩

variable (self : SingleRepository T)

def set (value : T) : RedisM Unit := do
  if !self.wanted then
    return ()
  send (.set self.name (self.json.toText value))

def get : RedisM (Option T) := do
  if !self.wanted then
    return none
  let found ← send (.get self.name)
  ofExcept (self.json.read found)

end SingleRepository

/-! ### Updates and questions -/

/-- What a repository offers to the cache: operations that may write, and operations that read. -/
structure Interface where
  Update : Type
  Query : Type
  Answer : Query → Type
  apply : Update → RedisM Unit
  ask : (query : Query) → RedisM (Answer query)

namespace Interface

variable (self : Interface)

/-- One update after the other, whether or not they fail. -/
def run (updates : List self.Update) (s : Store) : Store :=
  updates.foldl (fun s update => ((self.apply update).exec eval s).2) s

/-- A question does not count as an update, so what it leaves behind is dropped. -/
def answer (query : self.Query) (s : Store) : Except Error (self.Answer query) :=
  ((self.ask query).exec eval s).1

variable {self}

theorem run_keeps {keys : Set String} (h : ∀ update, UsesKeys keys (self.apply update)) {key : String}
    (hkey : key ∉ keys) (updates : List self.Update) (s : Store) : self.run updates s key = s key := by
  induction updates generalizing s with
  | nil => rfl
  | cons update updates ih => exact (ih _).trans ((h update).keeps hkey s)

/-- Two repositories that never use the same key do not see each other. -/
theorem answer_run_of_disjoint {other : Interface} {keys keys' : Set String}
    (h : ∀ update, UsesKeys keys (self.apply update)) (hdisjoint : ∀ key ∈ keys', key ∉ keys)
    {query : other.Query} (h' : UsesKeys keys' (other.ask query)) (updates : List self.Update)
    (s : Store) : other.answer query (self.run updates s) = other.answer query s := by
  have hkeys : ∀ key ∈ keys', self.run updates s key = s key := by
    intro key hkey
    exact run_keeps h (hdisjoint key hkey) updates s
  exact h'.result_congr hkeys

end Interface

namespace Repository

/-- The methods that write. -/
inductive Update (K V : Type)
  | insert (key : K) (value : V)
  | remove (key : K)
  | removeMulti (keys : List K)

/-- The keys that an update names. -/
def Update.keys : Update K V → List K
  | .insert key _ | .remove key => [key]
  | .removeMulti keys => keys

variable (self : Repository K V)

def apply : Update K V → RedisM Unit
  | .insert key value => do
    let _ ← self.insert key value
    pure ()
  | .remove key => do
    let _ ← self.remove key
    pure ()
  | .removeMulti keys => do
    let _ ← self.removeMulti keys
    pure ()

/-- The only question is `get`. -/
def interface : Interface where
  Update := Update K V
  Query := K
  Answer _ := Option V
  apply := self.apply
  ask := self.get

theorem usesKeys_get (key : K) : UsesKeys {self.name} (self.get key) :=
  (usesKeys_send (Set.mem_singleton _)).bind fun _ => usesKeys_ofExcept _

theorem usesKeys_apply (update : Update K V) : UsesKeys {self.name} (self.apply update) := by
  have hname : self.name ∈ ({self.name} : Set String) := Set.mem_singleton _
  cases update with
  | insert key value =>
    refine UsesKeys.bind (UsesKeys.ifWanted ?_) fun _ => UsesKeys.pure _
    exact (usesKeys_send hname).bind fun _ => UsesKeys.pure _
  | remove key =>
    refine UsesKeys.bind (UsesKeys.ifWanted ?_) fun _ => UsesKeys.pure _
    exact (usesKeys_send hname).bind fun _ => UsesKeys.pure _
  | removeMulti keys =>
    refine UsesKeys.bind (UsesKeys.ifWanted ?_) fun _ => UsesKeys.pure _
    dsimp only
    cases (keys.map self.field).isEmpty
    · exact usesKeys_send hname
    · exact UsesKeys.pure _

/-! What an update does to the hash, and what `get` finds in it. -/

/-- The fields that an update writes or removes. -/
def fields (update : Update K V) : List String := update.keys.map self.field

/-- What an update of a wanted repository does to the entries of the hash. -/
def effect : Update K V → Entries → Entries
  | .insert key value, entries => entries.insert (self.field key) (self.json.toText value)
  | .remove key, entries => eraseAll [self.field key] entries
  | .removeMulti keys, entries => eraseAll (keys.map self.field) entries

theorem lookup_effect_of_notMem {update : Update K V} {field : String} (h : field ∉ self.fields update)
    (entries : Entries) : (self.effect update entries).lookup field = entries.lookup field := by
  cases update with
  | insert key value => exact Finmap.lookup_insert_of_ne _ fun heq => h (heq ▸ List.mem_singleton_self _)
  | remove key => exact (lookup_eraseAll _ _ _).trans (if_neg h)
  | removeMulti keys => exact (lookup_eraseAll _ _ _).trans (if_neg h)

/-- A field that the update names holds the same afterwards, whatever was there. -/
theorem lookup_effect_of_mem {update : Update K V} {field : String} (h : field ∈ self.fields update)
    (entries entries' : Entries) :
    (self.effect update entries).lookup field = (self.effect update entries').lookup field := by
  cases update with
  | insert key value =>
    have hinsert : ∀ entries, (self.effect (.insert key value) entries).lookup (self.field key) =
        some (self.json.toText value) := fun _ => Finmap.lookup_insert _
    rw [List.mem_singleton.mp h, hinsert, hinsert]
  | remove key =>
    exact ((lookup_eraseAll _ _ _).trans (if_pos h)).trans
      ((lookup_eraseAll _ _ _).trans (if_pos h)).symm
  | removeMulti keys =>
    exact ((lookup_eraseAll _ _ _).trans (if_pos h)).trans
      ((lookup_eraseAll _ _ _).trans (if_pos h)).symm

theorem asHash_apply (hw : self.wanted = true) (update : Update K V) (s : Store) :
    asHash (((self.apply update).exec eval s).2 self.name) =
      (asHash (s self.name)).map (self.effect update) := by
  cases update with
  | insert key value =>
    unfold apply insert
    simp only [hw, Bool.not_true, Bool.false_eq_true, if_false, bind_assoc, pure_bind]
    rw [exec_send_pure]
    exact (congrArg asHash (eval_self _ s)).trans (asHash_evalAt_hset ..)
  | remove key =>
    unfold apply remove
    simp only [hw, Bool.not_true, Bool.false_eq_true, if_false, bind_assoc, pure_bind]
    rw [exec_send_pure]
    exact (congrArg asHash (eval_self _ s)).trans (asHash_evalAt_hdel ..)
  | removeMulti keys =>
    unfold apply removeMulti
    simp only [hw, Bool.not_true, Bool.false_eq_true, if_false]
    cases keys with
    | nil =>
      show asHash (s self.name) = (asHash (s self.name)).map id
      cases asHash (s self.name) <;> rfl
    | cons key keys =>
      show asHash (((send (.hdel self.name ((key :: keys).map self.field)) >>= fun _ =>
        pure ()).exec eval s).2 _) = _
      rw [exec_send_pure]
      exact (congrArg asHash (eval_self _ s)).trans (asHash_evalAt_hdel ..)

theorem exec_apply_of_unwanted (hw : self.wanted = false) (update : Update K V) (s : Store) :
    ((self.apply update).exec eval s).2 = s := by
  cases update with
  | insert key value =>
    unfold apply insert
    rw [hw]
    rfl
  | remove key =>
    unfold apply remove
    rw [hw]
    rfl
  | removeMulti keys =>
    unfold apply removeMulti
    rw [hw]
    rfl

theorem asHash_run (hw : self.wanted = true) (updates : List (Update K V)) (s : Store) :
    asHash (self.interface.run updates s self.name) =
      (asHash (s self.name)).map fun entries =>
        updates.foldl (fun entries update => self.effect update entries) entries := by
  induction updates generalizing s with
  | nil =>
    show asHash (s self.name) = _
    cases asHash (s self.name) <;> rfl
  | cons update updates ih =>
    refine (ih _).trans ?_
    show (asHash (((self.apply update).exec eval s).2 self.name)).map _ = _
    rw [self.asHash_apply hw]
    cases asHash (s self.name) <;> rfl

theorem run_of_unwanted (hw : self.wanted = false) (updates : List (Update K V)) (s : Store) :
    self.interface.run updates s = s := by
  induction updates with
  | nil => rfl
  | cons update updates ih =>
    show self.interface.run updates ((self.apply update).exec eval s).2 = s
    rw [self.exec_apply_of_unwanted hw, ih]

theorem lookup_foldl_effect_of_notMem {updates : List (Update K V)} {field : String}
    (h : ∀ update ∈ updates, field ∉ self.fields update) (entries : Entries) :
    (updates.foldl (fun entries update => self.effect update entries) entries).lookup field =
      entries.lookup field := by
  induction updates generalizing entries with
  | nil => rfl
  | cons update updates ih =>
    obtain ⟨hfirst, hrest⟩ := List.forall_mem_cons.mp h
    exact (ih hrest _).trans (self.lookup_effect_of_notMem hfirst entries)

theorem lookup_foldl_effect_of_mem {updates : List (Update K V)} {field : String}
    (h : ∃ update ∈ updates, field ∈ self.fields update) (entries entries' : Entries) :
    (updates.foldl (fun entries update => self.effect update entries) entries).lookup field =
      (updates.foldl (fun entries update => self.effect update entries) entries').lookup field := by
  -- after the last update that names the field, the two sides agree on it
  have hagree : ∀ {updates : List (Update K V)} {entries entries' : Entries},
      entries.lookup field = entries'.lookup field ∨ (∃ update ∈ updates, field ∈ self.fields update) →
        (updates.foldl (fun entries update => self.effect update entries) entries).lookup field =
          (updates.foldl (fun entries update => self.effect update entries) entries').lookup
            field := by
    intro updates
    induction updates with
    | nil =>
      intro entries entries' h
      exact h.resolve_right fun ⟨_, hmem, _⟩ => List.not_mem_nil hmem
    | cons update updates ih =>
      intro entries entries' h
      by_cases hfirst : field ∈ self.fields update
      · exact ih (.inl (self.lookup_effect_of_mem hfirst entries entries'))
      · refine ih (h.imp (fun heq => ?_) fun ⟨u, hu, hfield⟩ => ?_)
        · rw [self.lookup_effect_of_notMem hfirst, self.lookup_effect_of_notMem hfirst, heq]
        · rcases List.mem_cons.mp hu with rfl | hu
          · exact absurd hfield hfirst
          · exact ⟨u, hu, hfield⟩
  exact hagree (.inr h)

/-- What `get` makes of the reply to its command. -/
def read (found : Except WrongType (Option String)) : Except Error (Option V) :=
  (found.mapError Error.redis).bind self.json.read

theorem answer_eq_read (key : K) (s : Store) : self.interface.answer key s =
    self.read ((asHash (s self.name)).map fun entries => entries.lookup (self.field key)) := by
  have hreply : (eval (.hget self.name (self.field key)) s).1 =
    (asHash (s self.name)).map fun entries => entries.lookup (self.field key) := rfl
  show ((self.get key).exec eval s).1 = _
  unfold get read
  rw [exec_send_bind, hreply]
  cases (asHash (s self.name)).map fun entries => entries.lookup (self.field key) with
  | error e => rfl
  | ok found => exact congrArg Prod.fst (exec_ofExcept _ _)

/-- Two repositories of one name see each other exactly in the fields that the updates name. -/
theorem answer_run_iff_of_name {K' V' : Type} {self : Repository K V} {other : Repository K' V'}
    (hname : other.name = self.name) (updates : List (Update K V)) (key : K') :
    (∀ s, other.interface.answer key (self.interface.run updates s) =
        other.interface.answer key s) ↔
      ¬ (self.wanted = true ∧ ∃ update ∈ updates, other.field key ∈ self.fields update) := by
  constructor
  · rintro h ⟨hw, hnamed⟩
    -- with and without an entry under the field, the updates end in the same answer
    let found : Store := fun _ => some (.hash (Finmap.singleton (other.field key) ""))
    have hsame : other.interface.answer key (self.interface.run updates fun _ => none) =
        other.interface.answer key (self.interface.run updates found) := by
      rw [answer_eq_read, answer_eq_read, hname, self.asHash_run hw, self.asHash_run hw]
      exact congrArg (fun reply => other.read (.ok reply))
        (self.lookup_foldl_effect_of_mem hnamed _ _)
    have habsent : other.interface.answer key (fun _ => none) = .ok none := by
      rw [answer_eq_read]
      rfl
    have hfound : other.interface.answer key found = other.read (.ok (some "")) := by
      rw [answer_eq_read]
      exact congrArg (fun reply => other.read (.ok reply)) Finmap.lookup_singleton_eq
    have hread : other.read (.ok (some "")) ≠ .ok none := by
      show other.json.read (some "") ≠ .ok none
      unfold Codec.read
      intro heq
      cases htext : other.json.ofText "" <;> simp only [htext] at heq <;> cases heq
    rw [h, h, habsent, hfound] at hsame
    exact hread hsame.symm
  · intro h s
    cases hw : self.wanted with
    | false => rw [self.run_of_unwanted hw]
    | true =>
      have hnamed : ∀ update ∈ updates, other.field key ∉ self.fields update :=
        fun update hmem hfield => h ⟨hw, update, hmem, hfield⟩
      rw [answer_eq_read, answer_eq_read, hname, self.asHash_run hw]
      cases asHash (s self.name) with
      | error e => rfl
      | ok entries =>
        exact congrArg (fun reply => other.read (.ok reply))
          (self.lookup_foldl_effect_of_notMem hnamed entries)

end Repository

namespace SetRepository

/-- The methods that write, on one set. -/
inductive Update (T : Type)
  | insert (value : T)
  | remove (value : T)
  | removeMulti (values : List T)
  | clear

/-- The methods that read, on one set. -/
inductive Query (T : Type)
  | members
  | contains (value : T)
  | isEmpty

def Query.Answer : Query T → Type
  | .members => Finset T
  | .contains _ | .isEmpty => Bool

variable (self : SetRepository T)

def apply : Update T → RedisM Unit
  | .insert value => do
    let _ ← self.insert value
    pure ()
  | .remove value => do
    let _ ← self.remove value
    pure ()
  | .removeMulti values => do
    let _ ← self.removeMulti values
    pure ()
  | .clear => do
    let _ ← self.clear
    pure ()

def ask [DecidableEq T] : (query : Query T) → RedisM query.Answer
  | .members => self.members
  | .contains value => self.contains value
  | .isEmpty => self.isEmpty

def interface [DecidableEq T] : Interface where
  Update := Update T
  Query := Query T
  Answer := Query.Answer
  apply := self.apply
  ask := self.ask

theorem usesKeys_ask [DecidableEq T] (query : Query T) : UsesKeys {self.name} (self.ask query) := by
  have hname : self.name ∈ ({self.name} : Set String) := Set.mem_singleton _
  cases query with
  | members =>
    refine (usesKeys_send hname).bind fun jsonSet => ?_
    by_cases h : jsonSet.filter (fun text => self.json.ofText text = none) = ∅
    · rw [if_pos h]
      exact UsesKeys.pure _
    · rw [if_neg h]
      trivial
  | contains value => exact (usesKeys_send hname).bind fun _ => UsesKeys.pure _
  | isEmpty =>
    have hexists : UsesKeys {self.name} (send (.existsKey self.name)) := usesKeys_send hname
    exact hexists.ifWanted

theorem usesKeys_apply (update : Update T) : UsesKeys {self.name} (self.apply update) := by
  have hname : self.name ∈ ({self.name} : Set String) := Set.mem_singleton _
  cases update with
  | insert value =>
    refine UsesKeys.bind (UsesKeys.ifWanted ?_) fun _ => UsesKeys.pure _
    exact (usesKeys_send hname).bind fun _ => UsesKeys.pure _
  | remove value =>
    refine UsesKeys.bind (UsesKeys.ifWanted ?_) fun _ => UsesKeys.pure _
    exact (usesKeys_send hname).bind fun _ => UsesKeys.pure _
  | removeMulti values =>
    refine UsesKeys.bind (UsesKeys.ifWanted ?_) fun _ => UsesKeys.pure _
    dsimp only
    cases (values.map self.json.toText).isEmpty
    · exact usesKeys_send hname
    · exact UsesKeys.pure _
  | clear =>
    refine UsesKeys.bind (UsesKeys.ifWanted ?_) fun _ => UsesKeys.pure _
    exact (usesKeys_send hname).bind fun _ => UsesKeys.pure _

end SetRepository

namespace MappedSetRepository

variable (self : MappedSetRepository K V)

def apply (key : K) : SetRepository.Update V → RedisM Unit
  | .insert value => do
    let _ ← self.insert key value
    pure ()
  | .remove value => do
    let _ ← self.remove key value
    pure ()
  | .removeMulti values => do
    let _ ← self.removeMulti key values
    pure ()
  | .clear => do
    let _ ← self.clear key
    pure ()

def ask [DecidableEq V] (key : K) : (query : SetRepository.Query V) → RedisM query.Answer
  | .members => self.members key
  | .contains value => self.contains key value
  | .isEmpty => self.isEmpty key

def interface [DecidableEq V] : Interface where
  Update := K × SetRepository.Update V
  Query := K × SetRepository.Query V
  Answer query := query.2.Answer
  apply update := self.apply update.1 update.2
  ask query := self.ask query.1 query.2

theorem apply_eq (key : K) (update : SetRepository.Update V) :
    self.apply key update = (self.setRepository key).apply update := by cases update <;> rfl

theorem ask_eq [DecidableEq V] (key : K) (query : SetRepository.Query V) :
    self.ask key query = (self.setRepository key).ask query := by cases query <;> rfl

end MappedSetRepository

namespace SingleRepository

variable (self : SingleRepository T)

def interface : Interface where
  Update := T
  Query := Unit
  Answer _ := Option T
  apply := self.set
  ask _ := self.get

theorem usesKeys_set (value : T) : UsesKeys {self.name} (self.set value) := by
  refine UsesKeys.ifWanted ?_
  exact usesKeys_send (Set.mem_singleton _)

theorem usesKeys_get : UsesKeys {self.name} self.get := by
  refine UsesKeys.ifWanted ?_
  exact (usesKeys_send (Set.mem_singleton _)).bind fun _ => usesKeys_ofExcept _

end SingleRepository

end Tulpje.Redis
