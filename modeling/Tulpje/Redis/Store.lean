import Mathlib.Data.Finmap
import Mathlib.Data.Finset.Card
import Tulpje.Lib.Command

/-!
# Redis

The commands that the cache sends to Redis, on a map from key names to values. A command looks at the value
of one key and changes that value only (`evalAt`). A key whose hash or set has become empty is gone, and a
command for another kind of value than the key holds fails with `WRONGTYPE`.
-/

namespace Tulpje.Redis

open Lib

/-- The fields of a hash. -/
abbrev Entries := Finmap fun _ : String => String

inductive Value
  | hash (entries : Entries)
  | set (members : Finset String)
  | string (value : String)

abbrev Store := String → Option Value

inductive WrongType
  | wrongType
  deriving DecidableEq

inductive Op
  | hget (key field : String)
  | hset (key field value : String)
  | hdel (key : String) (fields : List String)
  | smembers (key : String)
  | sismember (key value : String)
  | existsKey (key : String)
  | sadd (key value : String)
  | srem (key : String) (values : List String)
  | del (key : String)
  | get (key : String)
  | set (key value : String)

namespace Op

def key : Op → String
  | hget key _ | hset key _ _ | hdel key _ | smembers key | sismember key _ | existsKey key
  | sadd key _ | srem key _ | del key | get key | set key _ => key

@[reducible] def Result : Op → Type
  | hget .. | get _ => Option String
  | hset .. | hdel .. | sismember .. | sadd .. | srem .. | del _ => Nat
  | smembers _ => Finset String
  | existsKey _ => Bool
  | set .. => Unit

@[reducible] def Reply (o : Op) : Type := Except WrongType o.Result

end Op

/-! ### Values of one kind -/

def asHash : Option Value → Except WrongType Entries
  | none => .ok ∅
  | some (.hash entries) => .ok entries
  | some _ => .error .wrongType

def asSet : Option Value → Except WrongType (Finset String)
  | none => .ok ∅
  | some (.set members) => .ok members
  | some _ => .error .wrongType

def asString : Option Value → Except WrongType (Option String)
  | none => .ok none
  | some (.string value) => .ok (some value)
  | some _ => .error .wrongType

def ofHash (entries : Entries) : Option Value := if entries = ∅ then none else some (.hash entries)

def ofSet (members : Finset String) : Option Value :=
  if members = ∅ then none else some (.set members)

@[simp] theorem asHash_ofHash (entries : Entries) : asHash (ofHash entries) = .ok entries := by
  unfold ofHash
  by_cases h : entries = ∅
  · rw [if_pos h, h]
    rfl
  · rw [if_neg h]
    rfl

@[simp] theorem asSet_ofSet (members : Finset String) : asSet (ofSet members) = .ok members := by
  unfold ofSet
  by_cases h : members = ∅
  · rw [if_pos h, h]
    rfl
  · rw [if_neg h]
    rfl

/-! ### Commands -/

def eraseAll (fields : List String) (entries : Entries) : Entries :=
  fields.foldl (fun entries field => entries.erase field) entries

theorem lookup_eraseAll (fields : List String) (entries : Entries) (field : String) :
    (eraseAll fields entries).lookup field = if field ∈ fields then none else entries.lookup field := by
  induction fields generalizing entries with
  | nil => rfl
  | cons first fields ih =>
    show (eraseAll fields (entries.erase first)).lookup field = _
    rw [ih]
    by_cases hfirst : field = first
    · rw [hfirst, Finmap.lookup_erase, ite_self, if_pos (List.mem_cons_self ..)]
    · rw [Finmap.lookup_erase_ne hfirst]
      by_cases hmem : field ∈ fields
      · rw [if_pos hmem, if_pos (List.mem_cons_of_mem _ hmem)]
      · rw [if_neg hmem, if_neg fun h => (List.mem_cons.mp h).elim hfirst hmem]

/-- The reply to a command, and the value of its key afterwards. -/
def evalAt : (o : Op) → Option Value → o.Reply × Option Value
  | .hget _ field, value => ((asHash value).map fun entries => entries.lookup field, value)
  | .hset _ field text, value =>
    match asHash value with
    | .ok entries => (.ok (if field ∈ entries then 0 else 1), some (.hash (entries.insert field text)))
    | .error e => (.error e, value)
  | .hdel _ fields, value =>
    match asHash value with
    | .ok entries =>
      (.ok (fields.toFinset.filter (· ∈ entries)).card, ofHash (eraseAll fields entries))
    | .error e => (.error e, value)
  | .smembers _, value => (asSet value, value)
  | .sismember _ text, value => ((asSet value).map fun members => if text ∈ members then 1 else 0, value)
  | .existsKey _, value => (.ok value.isSome, value)
  | .sadd _ text, value =>
    match asSet value with
    | .ok members => (.ok (if text ∈ members then 0 else 1), some (.set (insert text members)))
    | .error e => (.error e, value)
  | .srem _ texts, value =>
    match asSet value with
    | .ok members => (.ok (members ∩ texts.toFinset).card, ofSet (members \ texts.toFinset))
    | .error e => (.error e, value)
  | .del _, value => (.ok (if value.isSome then 1 else 0), none)
  | .get _, value => (asString value, value)
  | .set _ text, _ => (.ok (), some (.string text))

theorem asHash_evalAt_hset (key field text : String) (value : Option Value) :
    asHash (evalAt (.hset key field text) value).2 =
      (asHash value).map fun entries => entries.insert field text := by
  rcases value with _ | ⟨_ | _ | _⟩ <;> rfl

theorem asHash_evalAt_hdel (key : String) (fields : List String) (value : Option Value) :
    asHash (evalAt (.hdel key fields) value).2 = (asHash value).map (eraseAll fields) := by
  rcases value with _ | ⟨_ | _ | _⟩
  · exact asHash_ofHash _
  · exact asHash_ofHash _
  · rfl
  · rfl

/-! The commands at a value of their kind. -/

theorem evalAt_hget (key field : String) (entries : Entries) :
    evalAt (.hget key field) (ofHash entries) = (.ok (entries.lookup field), ofHash entries) := by
  simp only [evalAt, asHash_ofHash]
  rfl

theorem evalAt_hset (key field text : String) (entries : Entries) :
    evalAt (.hset key field text) (ofHash entries) =
      (.ok (if field ∈ entries then 0 else 1), ofHash (entries.insert field text)) := by
  have hne : entries.insert field text ≠ ∅ := by
    intro h
    have hlookup := Finmap.lookup_insert (a := field) (b := text) entries
    rw [h] at hlookup
    cases hlookup
  simp only [evalAt, asHash_ofHash]
  exact Prod.ext rfl (if_neg hne).symm

theorem evalAt_hdel (key : String) (fields : List String) (entries : Entries) :
    evalAt (.hdel key fields) (ofHash entries) =
      (.ok (fields.toFinset.filter (· ∈ entries)).card, ofHash (eraseAll fields entries)) := by
  simp only [evalAt, asHash_ofHash]

theorem evalAt_smembers (key : String) (members : Finset String) :
    evalAt (.smembers key) (ofSet members) = (.ok members, ofSet members) := by
  simp only [evalAt, asSet_ofSet]

theorem evalAt_sismember (key text : String) (members : Finset String) :
    evalAt (.sismember key text) (ofSet members) =
      (.ok (if text ∈ members then 1 else 0), ofSet members) := by
  simp only [evalAt, asSet_ofSet]
  rfl

theorem isSome_ofSet (members : Finset String) : (ofSet members).isSome = decide members.Nonempty := by
  unfold ofSet
  by_cases h : members = ∅
  · rw [if_pos h, h]
    rfl
  · rw [if_neg h]
    exact (decide_eq_true (Finset.nonempty_iff_ne_empty.mpr h)).symm

theorem evalAt_existsKey (key : String) (members : Finset String) :
    evalAt (.existsKey key) (ofSet members) = (.ok (decide members.Nonempty), ofSet members) := by
  simp only [evalAt, isSome_ofSet]

theorem evalAt_sadd (key text : String) (members : Finset String) :
    evalAt (.sadd key text) (ofSet members) =
      (.ok (if text ∈ members then 0 else 1), ofSet (insert text members)) := by
  simp only [evalAt, asSet_ofSet]
  exact Prod.ext rfl (if_neg (Finset.insert_ne_empty text members)).symm

theorem evalAt_srem (key : String) (texts : List String) (members : Finset String) :
    evalAt (.srem key texts) (ofSet members) =
      (.ok (members ∩ texts.toFinset).card, ofSet (members \ texts.toFinset)) := by
  simp only [evalAt, asSet_ofSet]

theorem evalAt_del (key : String) (members : Finset String) :
    evalAt (.del key) (ofSet members) = (.ok (if members.Nonempty then 1 else 0), ofSet ∅) := by
  simp only [evalAt, isSome_ofSet, decide_eq_true_eq]
  rfl

def eval (o : Op) (s : Store) : o.Reply × Store :=
  let (reply, value) := evalAt o (s o.key)
  (reply, Function.update s o.key value)

theorem eval_self (o : Op) (s : Store) : (eval o s).2 o.key = (evalAt o (s o.key)).2 :=
  Function.update_self ..

theorem eval_of_ne {o : Op} {key : String} (h : key ≠ o.key) (s : Store) :
    (eval o s).2 key = s key := Function.update_of_ne h ..

/-! ### Programs -/

/-- The two ways a repository call fails: Redis refuses the command, or `serde_json` the text. -/
inductive Error
  | redis (e : WrongType)
  | json
  deriving DecidableEq

abbrev RedisM := Prog Error Op Op.Reply

/-- `?`: goes on with a result, or fails. -/
def ofExcept {α : Type} : Except Error α → RedisM α
  | .ok a => pure a
  | .error e => Prog.throw e

@[simp] theorem exec_ofExcept {α : Type} (result : Except Error α) (s : Store) :
    (ofExcept result).exec eval s = (result, s) := by cases result <;> rfl

def send (o : Op) : RedisM o.Result := do
  let reply ← Prog.send o
  ofExcept (reply.mapError Error.redis)

theorem exec_send (o : Op) (s : Store) :
    (send o).exec eval s = ((eval o s).1.mapError Error.redis, (eval o s).2) := by
  unfold send
  rw [Prog.exec_bind_ok (Prog.exec_send eval o s), exec_ofExcept]

theorem exec_send_bind {α : Type} (o : Op) (f : o.Result → RedisM α) (s : Store) :
    (send o >>= f).exec eval s =
      match (eval o s).1 with
      | .ok result => (f result).exec eval (eval o s).2
      | .error e => (.error (.redis e), (eval o s).2) := by
  rw [Prog.exec_bind, exec_send]
  cases (eval o s).1 <;> rfl

theorem exec_send_pure {α : Type} (o : Op) (f : o.Result → α) (s : Store) :
    ((send o >>= fun result => pure (f result)).exec eval s).2 = (eval o s).2 := by
  rw [exec_send_bind]
  cases (eval o s).1 <;> rfl

/-- The program sends commands about keys in `keys` only. -/
def UsesKeys {α : Type} (keys : Set String) (p : RedisM α) : Prop :=
  p.All (fun o => o.key ∈ keys) fun _ => True

section UsesKeys
variable {α β : Type} {keys keys' : Set String} {p : RedisM α}

theorem UsesKeys.pure (a : α) : UsesKeys keys (Pure.pure a : RedisM α) := Prog.All.pure a

theorem UsesKeys.bind {f : α → RedisM β} (hp : UsesKeys keys p) (hf : ∀ a, UsesKeys keys (f a)) :
    UsesKeys keys (p >>= f) := Prog.All.bind hp hf

theorem UsesKeys.mono (hp : UsesKeys keys p) (h : keys ⊆ keys') : UsesKeys keys' p :=
  Prog.All.imp hp fun _ ho => h ho

theorem usesKeys_ofExcept (result : Except Error α) : UsesKeys keys (ofExcept result) := by
  cases result <;> trivial

theorem usesKeys_send {o : Op} (h : o.key ∈ keys) : UsesKeys keys (send o) :=
  Prog.All.bind (Prog.All.send h) fun _ => usesKeys_ofExcept _

/-- `if !self.wanted { return a; }` before a program. -/
theorem UsesKeys.ifWanted {wanted : Bool} {a : α} (hp : UsesKeys keys p) :
    UsesKeys keys (if !wanted then Pure.pure a else p) := by
  cases wanted
  · exact UsesKeys.pure a
  · exact hp

/-- A program leaves the keys alone that it does not use. -/
theorem UsesKeys.keeps (hp : UsesKeys keys p) {key : String} (h : key ∉ keys) (s : Store) :
    (p.exec eval s).2 key = s key := by
  refine Prog.exec_keeps (v := fun s : Store => s key) (Prog.All.imp hp fun o ho s => ?_) s
  have hne : key ≠ o.key := fun heq => h (heq ▸ ho)
  exact eval_of_ne hne s

/-- What a program returns depends on the keys that it uses. -/
theorem UsesKeys.result_congr (hp : UsesKeys keys p) {s t : Store} (h : ∀ key ∈ keys, s key = t key) :
    (p.exec eval s).1 = (p.exec eval t).1 := by
  have hview : (fun key : keys => s key) = fun key : keys => t key :=
    funext fun key => h key key.2
  refine (Prog.exec_congr (v := fun (s : Store) (key : keys) => s key)
    (Prog.All.imp hp fun o ho s t hst => ?_) hview).1
  have hkey : s o.key = t o.key := congrFun hst ⟨o.key, ho⟩
  refine ⟨congrArg (fun value => (evalAt o value).1) hkey, funext fun key => ?_⟩
  by_cases heq : key.1 = o.key
  · rw [heq, eval_self, eval_self, hkey]
  · rw [eval_of_ne heq, eval_of_ne heq]
    exact congrFun hst key

end UsesKeys

end Tulpje.Redis
