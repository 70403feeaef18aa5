import Tulpje.Cache.Update
import Tulpje.Redis.Represents

/-!
# The cache on Redis

Sent through `command`, the operations of the cache's repositories are those of `repository.rs`, and a run
of updates on Redis goes as on the typed store: each update returns or fails alike, and Redis holds the
store that the typed run ends in (`represents_applyEvents`).
-/

namespace Tulpje.Redis

open Lib
open Tulpje.Cache (Area Config HashName SetName State CacheM)

def toError : Cache.Error → Error
  | .json => .json

variable (env : Env) (config : Config) {used : Set (List UInt64)}

/-- A program of the cache with its commands sent to Redis. -/
def onRedis {α : Type} (p : CacheM α) : RedisM α := p.handle toError (command env)

theorem onRedis_send (o : Cache.Op) : onRedis env (Cache.send o) = command env o := Prog.handle_send o

theorem onRedis_bind {α β : Type} (p : CacheM α) (f : α → CacheM β) :
    onRedis env (p >>= f) = onRedis env p >>= fun a => onRedis env (f a) := Prog.handle_bind p f

/-! ### Repositories -/

/-- The hash that a repository uses. -/
def hashOf : HashName → HashName
  | .users => .emojis
  | h => h

def cacheRepository : (h : HashName) → Cache.Repository (hashOf h) (HashKey h) (HashValue h)
  | .guilds => (Cache.new config).guilds
  | .channels => (Cache.new config).channels
  | .channelMessages => (Cache.new config).channelMessages
  | .scheduledEvents => (Cache.new config).scheduledEvents
  | .integrations => (Cache.new config).integrations
  | .members => (Cache.new config).members
  | .messages => (Cache.new config).messages
  | .presences => (Cache.new config).presences
  | .emojis => (Cache.new config).emojis
  | .roles => (Cache.new config).roles
  | .stageInstances => (Cache.new config).stageInstances
  | .stickers => (Cache.new config).stickers
  | .users => (Cache.new config).users
  | .voiceStates => (Cache.new config).voiceStates

section Repository
variable (h : HashName)

theorem cacheRepository_wanted :
    (cacheRepository config h).wanted = (repository env config h).wanted := by cases h <;> rfl

theorem cacheRepository_name : (Place.hash (hashOf h)).key env = (repository env config h).name := by
  cases h <;> rfl

theorem cacheRepository_field (key : HashKey h) :
    fieldText env (hashOf h) ((cacheRepository config h).field key) =
      (repository env config h).field key := by cases h <;> rfl

theorem cacheRepository_encode (value : HashValue h) :
    (entryCodec env (hashOf h)).toText ((cacheRepository config h).encode value) =
      (repository env config h).json.toText value := by cases h <;> rfl

theorem onRedis_insert (key : HashKey h) (value : HashValue h) :
    onRedis env ((cacheRepository config h).insert key value) =
      (repository env config h).insert key value := by
  unfold Cache.Repository.insert Repository.insert
  rw [cacheRepository_wanted env, ← cacheRepository_name, ← cacheRepository_field,
    ← cacheRepository_encode]
  cases (repository env config h).wanted <;> rfl

theorem onRedis_remove (key : HashKey h) :
    onRedis env ((cacheRepository config h).remove key) = (repository env config h).remove key := by
  unfold Cache.Repository.remove Repository.remove
  rw [cacheRepository_wanted env, ← cacheRepository_name, ← cacheRepository_field]
  cases (repository env config h).wanted with
  | false => rfl
  | true =>
    show (send (.hdel _ _) >>= fun removed => pure (decide (removed > 0))) = _
    rw [Finset.image_singleton, Finset.sort_singleton]
    rfl

/-- The order in which `HDEL` names the fields does not matter. -/
theorem eval_hdel_congr {fields fields' : List String} (hfields : fields.toFinset = fields'.toFinset)
    (key : String) (r : Store) : eval (.hdel key fields) r = eval (.hdel key fields') r := by
  have herase : ∀ entries, eraseAll fields entries = eraseAll fields' entries := by
    refine fun entries => Finmap.ext_lookup fun field => ?_
    have hmem : field ∈ fields ↔ field ∈ fields' := by
      rw [← List.mem_toFinset, hfields, List.mem_toFinset]
    rw [lookup_eraseAll, lookup_eraseAll]
    simp only [hmem]
  unfold eval evalAt
  simp only [hfields, herase]
  rfl

theorem exec_onRedis_removeMulti (keys : List (HashKey h)) [DecidableEq (HashKey h)] (r : Store) :
    (onRedis env ((cacheRepository config h).removeMulti keys.toFinset)).exec eval r =
      ((repository env config h).removeMulti keys).exec eval r := by
  unfold Cache.Repository.removeMulti Repository.removeMulti
  rw [cacheRepository_wanted env, ← cacheRepository_name]
  cases (repository env config h).wanted with
  | false => rfl
  | true =>
    cases keys with
    | nil => rfl
    | cons key keys =>
      have hne : (key :: keys).toFinset.image (cacheRepository config h).field ≠ ∅ :=
        (Finset.image_nonempty.mpr ⟨key, by simp⟩).ne_empty
      have hfields :
          (((key :: keys).toFinset.image (cacheRepository config h).field).image
            (fieldText env (hashOf h))).sort.toFinset =
              ((key :: keys).map (repository env config h).field).toFinset := by
        rw [Finset.sort_toFinset]
        ext text
        simp only [Finset.mem_image, List.mem_toFinset, List.mem_map, exists_exists_and_eq_and,
          cacheRepository_field]
      simp only [Bool.not_true, Bool.false_eq_true, if_false, if_neg hne]
      show (onRedis env (Cache.send (.hdel _ _))).exec eval r = (send (.hdel _ _)).exec eval r
      rw [onRedis_send]
      show (send (.hdel _ _)).exec eval r = _
      rw [exec_send, exec_send, eval_hdel_congr hfields]

/-- The repository reads the text of an entry of its kind, and refuses that of another. -/
theorem ofText_toText (hlaw : env.Lawful used) (entry : (hashOf h).Entry) :
    (repository env config h).json.ofText ((entryCodec env (hashOf h)).toText entry) =
      (cacheRepository config h).decode entry := by
  have hreads := hlaw.reads (.hash h)
  cases h with
  | emojis =>
    cases entry with
    | emoji emoji => exact hreads emoji
    | user user => exact hlaw.user_text user
  | users =>
    cases entry with
    | emoji emoji => exact hlaw.emoji_text emoji
    | user user => exact hreads user
  | _ => exact hreads entry

theorem exec_get (hlaw : env.Lawful used) {r : Store} {s : State} (hR : Represents env used r s)
    {key : HashKey h} (hkey : fieldWords (hashOf h) ((cacheRepository config h).field key) ∈ used) :
    ((repository env config h).get key).exec eval r =
      ((((cacheRepository config h).get key).exec Cache.eval s).1.mapError toError, r) := by
  have husers : hashOf h ≠ .users := by cases h <;> decide
  obtain ⟨entries, hvalue, henc⟩ := hR.holds (.hash (hashOf h)) husers
  have hname : r (repository env config h).name = ofHash entries := by
    rw [← cacheRepository_name]
    exact hvalue
  have hreply : (evalAt (.hget (repository env config h).name ((repository env config h).field key))
      (r (repository env config h).name)).1 =
        .ok ((s.hashes (hashOf h) ((cacheRepository config h).field key)).map
          (entryCodec env (hashOf h)).toText) := by
    rw [hname, evalAt_hget, ← cacheRepository_field, henc.lookup _ hkey]
  have hsame : (eval (.hget (repository env config h).name ((repository env config h).field key)) r).2 =
      r := Function.update_eq_self ..
  unfold Repository.get
  rw [Prog.exec_bind_ok (exec_send_ok hreply), hsame, exec_ofExcept]
  rcases hentry : s.hashes (hashOf h) ((cacheRepository config h).field key) with _ | entry
  · rw [Cache.Repository.exec_get_of_none _ hentry]
    rfl
  · have hread := ofText_toText env config h hlaw entry
    unfold Codec.read
    rw [Option.map_some]
    dsimp only
    rw [hread]
    rcases hdecode : (cacheRepository config h).decode entry with _ | value
    · rw [Cache.Repository.exec_get_of_rejected _ hentry hdecode]
      rfl
    · rw [Cache.Repository.exec_get_of_some _ hentry hdecode]
      rfl

end Repository

/-! ### Sets -/

/-- The set of a repository at a key. -/
def cacheSet : (n : SetName) → n.Key → Cache.SetRepository n
  | .unavailableGuilds, _ => (Cache.new config).unavailableGuilds
  | .guildChannels, key => (Cache.new config).guildChannels.setRepository key
  | .guildScheduledEvents, key => (Cache.new config).guildScheduledEvents.setRepository key
  | .guildIntegrations, key => (Cache.new config).guildIntegrations.setRepository key
  | .guildMembers, key => (Cache.new config).guildMembers.setRepository key
  | .guildPresences, key => (Cache.new config).guildPresences.setRepository key
  | .guildEmojis, key => (Cache.new config).guildEmojis.setRepository key
  | .guildRoles, key => (Cache.new config).guildRoles.setRepository key
  | .guildStageInstances, key => (Cache.new config).guildStageInstances.setRepository key
  | .guildStickers, key => (Cache.new config).guildStickers.setRepository key
  | .userGuilds, key => (Cache.new config).userGuilds.setRepository key
  | .voiceStateChannels, key => (Cache.new config).voiceStateChannels.setRepository key
  | .voiceStateGuilds, key => (Cache.new config).voiceStateGuilds.setRepository key

def redisSet : (n : SetName) → n.Key → SetRepository n.Elem
  | .unavailableGuilds, _ => unavailableGuilds env config
  | n, key => (mappedSetRepository env config n).setRepository key

section Sets
variable (n : SetName) (key : n.Key)

theorem redisSet_eq :
    redisSet env config n key = { setAt env n key with wanted := (cacheSet config n key).wanted } := by
  cases n <;> rfl

theorem cacheSet_key : (cacheSet config n key).key = key := by cases n <;> rfl

theorem onRedis_members : onRedis env (cacheSet config n key).members = (redisSet env config n key).members := by
  unfold Cache.SetRepository.members
  rw [onRedis_send, cacheSet_key, redisSet_eq]
  rfl

theorem onRedis_contains (value : n.Elem) :
    onRedis env ((cacheSet config n key).contains value) = (redisSet env config n key).contains value := by
  unfold Cache.SetRepository.contains
  rw [cacheSet_key, redisSet_eq]
  rfl

theorem onRedis_isEmpty : onRedis env (cacheSet config n key).isEmpty = (redisSet env config n key).isEmpty := by
  unfold Cache.SetRepository.isEmpty SetRepository.isEmpty
  rw [cacheSet_key, redisSet_eq]
  dsimp only
  cases (cacheSet config n key).wanted with
  | false => rfl
  | true => exact onRedis_send env (.existsKey n key)

theorem onRedis_set_insert (value : n.Elem) :
    onRedis env ((cacheSet config n key).insert value) = (redisSet env config n key).insert value := by
  unfold Cache.SetRepository.insert SetRepository.insert
  rw [cacheSet_key, redisSet_eq]
  dsimp only
  cases (cacheSet config n key).wanted <;> rfl

theorem onRedis_set_remove (value : n.Elem) :
    onRedis env ((cacheSet config n key).remove value) = (redisSet env config n key).remove value := by
  unfold Cache.SetRepository.remove SetRepository.remove
  rw [cacheSet_key, redisSet_eq]
  dsimp only
  cases (cacheSet config n key).wanted with
  | false => rfl
  | true =>
    show (send (.srem _ _) >>= fun removed => pure (decide (removed > 0))) = _
    rw [Finset.image_singleton, Finset.sort_singleton]
    rfl

theorem onRedis_clear : onRedis env (cacheSet config n key).clear = (redisSet env config n key).clear := by
  unfold Cache.SetRepository.clear SetRepository.clear
  rw [cacheSet_key, redisSet_eq]
  dsimp only
  cases (cacheSet config n key).wanted <;> rfl

theorem exec_onRedis_set_removeMulti (values : List n.Elem) (r : Store) :
    (onRedis env ((cacheSet config n key).removeMulti values.toFinset)).exec eval r =
      ((redisSet env config n key).removeMulti values).exec eval r := by
  unfold Cache.SetRepository.removeMulti SetRepository.removeMulti
  rw [cacheSet_key, redisSet_eq]
  dsimp only
  cases (cacheSet config n key).wanted with
  | false => rfl
  | true =>
    cases values with
    | nil => rfl
    | cons value values =>
      have hne : (value :: values).toFinset ≠ ∅ := List.toFinset_nonempty_iff _ |>.mpr (by simp) |>.ne_empty
      have htexts : ((value :: values).toFinset.image (env.json (.set n)).toText).sort.toFinset =
          ((value :: values).map (env.json (.set n)).toText).toFinset := by
        rw [Finset.sort_toFinset]
        ext text
        simp only [Finset.mem_image, List.mem_toFinset, List.mem_map]
      simp only [Bool.not_true, Bool.false_eq_true, if_false, if_neg hne]
      show (onRedis env (Cache.send (.srem _ _ _))).exec eval r = (send (.srem _ _)).exec eval r
      rw [onRedis_send]
      show (send (.srem _ _)).exec eval r = _
      rw [exec_send, exec_send]
      unfold eval evalAt
      simp only [htexts]
      rfl

end Sets

/-! ### The current user -/

theorem onRedis_currentUser_set (value : Cache.CachedCurrentUser) :
    onRedis env ((Cache.new config).currentUser.set value) = (currentUser env config).set value := by
  have hc : (Cache.new config).currentUser.wanted = config.wants .userCurrent := rfl
  have hr : (currentUser env config).wanted = config.wants .userCurrent := rfl
  unfold Cache.SingleRepository.set SingleRepository.set
  rw [hc, hr]
  cases config.wants .userCurrent with
  | false => rfl
  | true => exact onRedis_send env (.set value)

theorem onRedis_currentUser_get :
    onRedis env (Cache.new config).currentUser.get = (currentUser env config).get := by
  have hc : (Cache.new config).currentUser.wanted = config.wants .userCurrent := rfl
  have hr : (currentUser env config).wanted = config.wants .userCurrent := rfl
  unfold Cache.SingleRepository.get SingleRepository.get
  rw [hc, hr]
  cases config.wants .userCurrent with
  | false => rfl
  | true => exact onRedis_send env .get

/-! ### Runs -/

/-- One event after the other, on Redis. -/
def applyEvents (events : List Twilight.Event) (r : Store) : Store :=
  events.foldl (fun r event => ((onRedis env ((Cache.new config).update event)).exec eval r).2) r

/-- The commands of a run on the typed store. -/
def commandsOf : List Twilight.Event → State → List Cache.Op
  | [], _ => []
  | event :: events, s =>
    ((Cache.new config).update event).commands Cache.eval s ++
      commandsOf events (((Cache.new config).update event).exec Cache.eval s).2

theorem represents_empty : Represents env used (fun _ => none) State.empty where
  holds p _ := by
    rcases p with h | ⟨n, key⟩ | _
    · exact ⟨∅, rfl, encodes_empty⟩
    · rfl
    · rfl
  within := ⟨rfl, fun _ _ _ => rfl, fun _ _ _ => rfl⟩

variable {env}

/-- An update on Redis returns or fails as on the typed store, and Redis holds the result. -/
theorem represents_update (hlaw : env.Lawful used) {r : Store} {s : State} (hR : Represents env used r s)
    {event : Twilight.Event}
    (huse : ∀ o ∈ ((Cache.new config).update event).commands Cache.eval s, OpInUse used o) :
    ∃ r', (onRedis env ((Cache.new config).update event)).exec eval r =
      ((((Cache.new config).update event).exec Cache.eval s).1.mapError toError, r') ∧
        Represents env used r' (((Cache.new config).update event).exec Cache.eval s).2 :=
  Prog.exec_handle (simulates_command hlaw) hR huse

/-- A run on Redis whose commands name only keys in use holds the store of the typed run. -/
theorem represents_applyEvents (hlaw : env.Lawful used) {r : Store} {s : State}
    (hR : Represents env used r s) {events : List Twilight.Event}
    (huse : ∀ o ∈ commandsOf config events s, OpInUse used o) :
    Represents env used (applyEvents env config events r)
      ((Cache.new config).applyEvents events s) := by
  induction events generalizing r s with
  | nil => exact hR
  | cons event events ih =>
    obtain ⟨hfirst, hrest⟩ := List.forall_mem_append.mp huse
    obtain ⟨r', hexec, hR'⟩ := represents_update config hlaw hR hfirst
    have hstep := ih hR' hrest
    unfold applyEvents Cache.applyEvents
    rw [List.foldl_cons, List.foldl_cons, hexec]
    exact hstep

end Tulpje.Redis
