import Tulpje.Pluralkit.Notify

/-!
# The follow limit

`add::handle` compares the number of followed systems with `MAX_FOLLOW_COUNT` and stores the new system several calls
later. The limit holds as long as the commands of a guild do not store systems in between, or only as many as there is
room for (`follow_limit_holds`).
-/

namespace Tulpje.Pluralkit

open Twilight Lib Notify

/-! ### Counting and following -/

/-- A count of the systems that the guild follows, which are fewer than the limit. -/
def Counts (guildId : GuildId) : (o : NotifyCall) → o.Reply → Prop
  | .sql (.getGuildFollowCount other), .ok n => other = guildId ∧ n < maxFollowCount
  | _, _ => False

theorem Counts.exists_eq {guildId : GuildId} {d : NotifyDbCall} (h : Counts guildId d.op d.reply) :
    ∃ (n : ℕ) (s t : Database), d = ⟨.sql (.getGuildFollowCount guildId), .ok n, s, t⟩ ∧ n < maxFollowCount := by
  obtain ⟨o, r, s, t⟩ := d
  cases o with
  | sql statement =>
    cases statement with
    | getGuildFollowCount other =>
      cases r with
      | ok n =>
        obtain ⟨rfl, hroom⟩ := h
        exact ⟨n, s, t, rfl, hroom⟩
      | error err => exact h.elim
    | _ => exact h.elim
  | _ => exact h.elim

/-- A statement that stores a system for the guild. -/
def stores (guildId : GuildId) : NotifyCall → Bool
  | .sql (.addNotifySystem other _) => other = guildId
  | _ => false

def Stores (guildId : GuildId) (o : NotifyCall) : Prop := stores guildId o = true

/-- Whether or not it fails, it stores no system for the guild. -/
def Quiet {α : Type} (guildId : GuildId) (p : NotifyTask α) : Prop :=
  p.All (fun o => ¬ Stores guildId o) fun _ => True

section Rules
variable {A : (o : NotifyCall) → o.Reply → Prop} {guildId : GuildId} {α β : Type} {p : NotifyTask α}

theorem Quiet.pure (a : α) : Quiet guildId (Pure.pure a : NotifyTask α) := trivial

theorem Quiet.throw (err : Error) : Quiet guildId (Prog.throw err : NotifyTask α) := trivial

theorem Quiet.ofExcept (r : Except Error α) : Quiet guildId (Prog.ofExcept r : NotifyTask α) := Prog.All.ofExcept r

theorem Quiet.send {o : NotifyCall} (h : stores guildId o = false) : Quiet guildId (Notify.send o) :=
  Prog.All.send (ne_true_of_eq_false h)

theorem Quiet.bind {f : α → NotifyTask β} (hp : Quiet guildId p) (hf : ∀ a, Quiet guildId (f a)) :
    Quiet guildId (p >>= f) := Prog.All.bind hp hf

theorem Quiet.lift (p : Task α) : Quiet guildId (Notify.lift p) := by
  induction p with
  | pure a => trivial
  | throw e => trivial
  | call o k ih => exact ⟨Bool.false_ne_true, ih⟩

theorem Quiet.sql {statement : NotifyStatement} (h : stores guildId (.sql statement) = false) :
    Quiet guildId (Notify.sql statement) := (Quiet.send h).bind fun _ => Quiet.ofExcept _

theorem Quiet.after (hp : Quiet guildId p) : p.After A (Stores guildId) := .of_all hp

theorem Quiet.after_bind {f : α → NotifyTask β} (hp : Quiet guildId p)
    (hf : ∀ a, (f a).After A (Stores guildId)) : (p >>= f).After A (Stores guildId) := .bind hp hf

end Rules

/-! ### The commands -/

section Commands
variable {A : (o : NotifyCall) → o.Reply → Prop} {guildId : GuildId} {fromStr : String → Option SystemRef}

theorem quiet_respondError (message : String) : Quiet guildId (respondError message) :=
  (Quiet.send rfl).bind fun _ => Quiet.ofExcept _

theorem quiet_respondInfo (message : String) : Quiet guildId (respondInfo message) :=
  (Quiet.send rfl).bind fun _ => Quiet.ofExcept _

theorem quiet_respondSuccess (message : String) : Quiet guildId (respondSuccess message) :=
  (Quiet.send rfl).bind fun _ => Quiet.ofExcept _

theorem quiet_handleSystemRef (systemRef : String) : Quiet guildId (handleSystemRef fromStr systemRef) := by
  unfold handleSystemRef
  cases fromStr systemRef with
  | some systemRef => exact Quiet.pure _
  | none => exact (quiet_respondError _).bind fun _ => Quiet.pure _

theorem quiet_resolveSystemFromReference (systemRef : SystemRef) :
    Quiet guildId (resolveSystemFromReference systemRef) := by
  refine (Quiet.send rfl).bind fun reply => ?_
  split
  · exact (Quiet.lift _).bind fun _ => Quiet.pure _
  · split
    · exact Quiet.sql rfl
    · exact Quiet.lift _
    · exact Quiet.throw _
  · exact Quiet.throw _

theorem quiet_handlePrivateFront (systemRef : SystemRef) (message : String) :
    Quiet guildId (handlePrivateFront systemRef message) := by
  refine (Quiet.send rfl).bind fun reply => ?_
  split
  · exact Quiet.pure _
  · exact (quiet_respondError _).bind fun _ => Quiet.pure _
  · exact Quiet.throw _

theorem quiet_follow {guild : GuildId} (h : guild ≠ guildId) (systemRef : SystemRef) (system : ModPkSystem) :
    Quiet guildId (follow guild systemRef system) := by
  have hother : stores guildId (.sql (.addNotifySystem guild system.uuid)) = false := decide_eq_false h
  refine (quiet_handlePrivateFront _ _).bind fun isPrivate => ?_
  split_ifs
  · exact Quiet.pure _
  · exact (Quiet.lift _).bind fun _ => (Quiet.sql hother).bind fun _ => quiet_respondSuccess _

theorem after_withSystem {run : GuildId → SystemRef → ModPkSystem → NotifyTask Unit}
    (hrun : ∀ guild systemRef system, (run guild systemRef system).After A (Stores guildId)) :
    (withSystem fromStr run).After A (Stores guildId) := by
  refine (Quiet.send rfl).after_bind fun reply => (Quiet.ofExcept reply).after_bind fun guild => ?_
  cases guild with
  | none => exact (Quiet.throw _).after
  | some guild =>
  refine (Quiet.send rfl).after_bind fun reply => (Quiet.ofExcept reply).after_bind fun _ => ?_
  refine (Quiet.lift _).after_bind fun channel => ?_
  cases channel with
  | none => exact (quiet_respondError _).after
  | some channel =>
  refine (Quiet.send rfl).after_bind fun reply => (Quiet.ofExcept reply).after_bind fun id => ?_
  refine (quiet_handleSystemRef id).after_bind fun systemRef => ?_
  cases systemRef with
  | none => exact (Quiet.pure _).after
  | some systemRef =>
  refine (quiet_resolveSystemFromReference systemRef).after_bind fun system => ?_
  cases system with
  | none => exact (quiet_respondError _).after
  | some system => exact hrun guild systemRef system

/-- A system is stored for a guild only after those of the guild were counted and were fewer than the limit. -/
theorem after_add (guildId : GuildId) : (Add.handle fromStr).After (Counts guildId) (Stores guildId) := by
  refine after_withSystem fun guild systemRef system => (Quiet.sql rfl).after_bind fun follows => ?_
  split_ifs
  · exact (quiet_respondInfo _).after
  · by_cases hguild : guild = guildId
    · refine .call Bool.false_ne_true fun count => ?_
      cases count with
      | error err => exact .inr trivial
      | ok count =>
        by_cases hfull : maxFollowCount ≤ count
        · refine .inr ?_
          show Prog.After _ _ (if _ then _ else _)
          rw [if_pos hfull]
          exact (quiet_respondError _).after
        · exact .inl ⟨hguild, Nat.lt_of_not_le hfull⟩
    · refine (Quiet.sql rfl).after_bind fun count => ?_
      split_ifs
      · exact (quiet_respondError _).after
      · exact (quiet_follow hguild systemRef system).after

theorem after_remove : (Remove.handle fromStr).After A (Stores guildId) := by
  refine after_withSystem fun guild _ system => (Quiet.lift _).after_bind fun _ => ?_
  refine (Quiet.sql rfl).after_bind fun follows => ?_
  split_ifs
  · exact (Quiet.sql rfl).after_bind fun _ => (quiet_respondSuccess _).after
  · exact (quiet_respondInfo _).after

end Commands

/-- A run of a command, or of anything that follows no systems, such as the services that unfollow them. -/
inductive NotifyRun
  | add
  | remove
  | other (task : Task Unit)

def NotifyRun.prog (fromStr : String → Option SystemRef) : NotifyRun → NotifyTask Unit
  | add => Add.handle fromStr
  | remove => Remove.handle fromStr
  | other task => lift task

theorem NotifyRun.after (fromStr : String → Option SystemRef) (run : NotifyRun) (guildId : GuildId) :
    (run.prog fromStr).After (Counts guildId) (Stores guildId) := by
  cases run with
  | add => exact after_add guildId
  | remove => exact after_remove
  | other task => exact (Quiet.lift task).after

/-! ### What the statements do to the number of rows -/

/-- A new row for the guild. -/
def addsRow (guildId : GuildId) : NotifyDbCall → Bool
  | ⟨.sql (.addNotifySystem other system), .ok _, s, _⟩ =>
    decide (other = guildId ∧ (guildId, system) ∉ s.pkNotifySystems)
  | _ => false

theorem stores_of_addsRow {guildId : GuildId} {d : NotifyDbCall} (h : addsRow guildId d = true) :
    Stores guildId d.op := by
  obtain ⟨o, r, s, t⟩ := d
  cases o with
  | sql statement =>
    cases statement with
    | addNotifySystem other system =>
      cases r with
      | ok _ => exact decide_eq_true (of_decide_eq_true h).1
      | error err => cases h
    | _ => cases h
  | _ => cases h

section Rows
variable {guildId : GuildId} {s t : Database}

theorem followCount_mono (h : t.pkNotifySystems ⊆ s.pkNotifySystems) : t.followCount guildId ≤ s.followCount guildId :=
  Finset.card_le_card (Finset.filter_subset_filter _ h)

theorem pkNotifySystems_answers {statement : Statement} {r : statement.Reply} (h : statement.Answers s r t) :
    t.pkNotifySystems ⊆ s.pkNotifySystems := by
  cases statement with
  | updateSystem | updateFronters | updateFrontersTimestamp | deleteFronterCategory | deleteNotifyChannel =>
    obtain rfl : t = _ := h
    exact Finset.Subset.refl _
  | deleteNotifySystems | removeNotifySystemFromGuilds =>
    obtain rfl : t = _ := h
    exact Finset.filter_subset ..
  | _ =>
    obtain ⟨-, rfl⟩ : _ ∧ t = _ := h
    exact Finset.Subset.refl _

theorem followCount_insert (system : Uuid) (h : (guildId, system) ∉ s.pkNotifySystems) :
    ({ s with pkNotifySystems := insert (guildId, system) s.pkNotifySystems } : Database).followCount guildId =
      s.followCount guildId + 1 := by
  unfold Database.followCount
  rw [Finset.filter_insert, if_pos rfl, Finset.card_insert_of_notMem]
  exact fun hmem => h (Finset.mem_filter.mp hmem).1

/-- Only a new row makes them more. -/
theorem followCount_world (guildId : GuildId) {o : NotifyCall} {r : o.Reply} (h : notifyWorld o s r t) :
    t.followCount guildId ≤ s.followCount guildId + (addsRow guildId ⟨o, r, s, t⟩).toNat := by
  cases o with
  | other o =>
    refine Nat.le_add_right_of_le (followCount_mono ?_)
    cases o with
    | sql statement =>
      cases r with
      | ok rows =>
        obtain ⟨now, h⟩ := h
        have hsub : t.pkNotifySystems ⊆ ({ s with now } : Database).pkNotifySystems := pkNotifySystems_answers h
        exact hsub
      | error err =>
        obtain ⟨now, rfl⟩ := h
        exact Finset.Subset.refl _
    | _ =>
      obtain ⟨now, rfl⟩ := h
      exact Finset.Subset.refl _
  | sql statement =>
    cases r with
    | error err =>
      obtain ⟨now, rfl⟩ := h
      exact Nat.le_add_right ..
    | ok rows =>
      obtain ⟨now, h⟩ := h
      cases statement with
      | addNotifySystem other system =>
        obtain ⟨-, rfl⟩ : _ ∧ t = _ := h
        by_cases hguild : other = guildId
        · subst hguild
          by_cases hmem : (other, system) ∈ s.pkNotifySystems
          · refine Nat.le_add_right_of_le (followCount_mono ?_)
            exact (Finset.insert_eq_of_mem hmem).subset
          · have hadds : addsRow other ⟨.sql (.addNotifySystem other system), .ok rows, s,
                { s with now, pkNotifySystems := insert (other, system) s.pkNotifySystems }⟩ = true :=
              decide_eq_true ⟨rfl, hmem⟩
            rw [hadds]
            exact (followCount_insert system hmem).le
        · refine Nat.le_add_right_of_le (Eq.le ?_)
          unfold Database.followCount
          rw [Finset.filter_insert, if_neg hguild]
      | removeNotifySystem other system =>
        obtain rfl : t = _ := h
        exact Nat.le_add_right_of_le (followCount_mono (Finset.erase_subset ..))
      | _ =>
        obtain ⟨-, rfl⟩ : _ ∧ t = _ := h
        exact Nat.le_add_right ..
  | _ =>
    obtain ⟨now, rfl⟩ := h
    exact Nat.le_add_right ..

end Rows

/-! ### The limit -/

variable {ι : Type}

/-- How many systems are stored for the guild. -/
def added (guildId : GuildId) (calls : List (ι × NotifyDbCall)) : ℕ := calls.countP fun d => addsRow guildId d.2

/-- When a command stores a system, no other one was stored for the guild since it counted, or so few that there is
still room beside those it counted. -/
def NotCrowded (calls : List (ι × NotifyDbCall)) : Prop :=
  ∀ i guildId first (n : ℕ) s t mid d post,
    calls = first ++ (i, ⟨.sql (.getGuildFollowCount guildId), .ok n, s, t⟩) :: mid ++ (i, d) :: post →
      addsRow guildId d = true → added guildId mid = 0 ∨ n + added guildId mid < maxFollowCount

/-- No guild is crowded for which one system is stored at most. -/
theorem notCrowded_of_added_le {calls : List (ι × NotifyDbCall)} (h : ∀ guildId, added guildId calls ≤ 1) :
    NotCrowded calls := by
  rintro i guildId first n s t mid d post rfl hadds
  have hle := h guildId
  simp only [added, List.countP_append, List.countP_cons, hadds, if_true] at hle ⊢
  omega

variable [DecidableEq ι]

theorem followCount_steps {c c' : Pool ι Error NotifyCall Database NotifyCall.Reply Unit}
    {calls : List (ι × NotifyDbCall)} (h : Pool.Steps notifyWorld c calls c') (guildId : GuildId) :
    c'.store.followCount guildId ≤ c.store.followCount guildId + added guildId calls := by
  induction h with
  | nil c => exact Nat.le_add_right ..
  | cons hprog hworld hrest ih =>
    have hfirst := followCount_world guildId hworld
    rw [added, List.countP_cons, ← added]
    dsimp only at ih hfirst ⊢
    split_ifs with hadds
    · rw [hadds, Bool.toNat_true] at hfirst
      omega
    · rw [Bool.eq_false_of_not_eq_true hadds, Bool.toNat_false] at hfirst
      omega

/-- No guild follows more systems than it may, after any of the calls. -/
def WithinLimit (calls : List (ι × NotifyDbCall)) : Prop :=
  ∀ d ∈ calls, ∀ guildId, d.2.after.followCount guildId ≤ maxFollowCount

/-- Where the row is added, there are at most as many as were counted and came since. -/
theorem followCount_at_add {c c' : Pool ι Error NotifyCall Database NotifyCall.Reply Unit} {guildId : GuildId} {i : ι}
    {first mid post : List (ι × NotifyDbCall)} {n : Nat} {s t : Database} {d : NotifyDbCall}
    (h : Pool.Steps notifyWorld c
      (first ++ (i, ⟨.sql (.getGuildFollowCount guildId), .ok n, s, t⟩) :: mid ++ (i, d) :: post) c') :
    d.before.followCount guildId ≤ n + added guildId mid := by
  obtain ⟨c₁, hpre, hadd⟩ := h.split
  obtain ⟨c₂, -, hcount⟩ := hpre.split
  cases hcount with
  | cons hprog hworld hmid =>
    cases hadd with
    | cons hprog' hworld' hpost =>
      obtain ⟨now, rfl, rfl⟩ := hworld
      exact followCount_steps hmid guildId

section Limit
variable {fromStr : String → Option SystemRef} {runs : ι → NotifyRun} {db : Database}
  {c' : Pool ι Error NotifyCall Database NotifyCall.Reply Unit}

theorem followCount_le_of_notCrowded (hdb : ∀ guildId, db.followCount guildId ≤ maxFollowCount)
    {cs rest : List (ι × NotifyDbCall)}
    (h : Pool.Steps notifyWorld ⟨fun i => (runs i).prog fromStr, db⟩ (cs ++ rest) c')
    (hnot : NotCrowded (cs ++ rest)) {c₁ : Pool ι Error NotifyCall Database NotifyCall.Reply Unit}
    (hcs : Pool.Steps notifyWorld ⟨fun i => (runs i).prog fromStr, db⟩ cs c₁) (guildId : GuildId) :
    c₁.store.followCount guildId ≤ maxFollowCount := by
  induction cs using List.reverseRecOn generalizing rest c₁ with
  | nil =>
    cases hcs
    exact hdb guildId
  | append_singleton cs last ih =>
    rw [List.append_assoc, List.singleton_append] at h hnot
    obtain ⟨c₀, hbefore, hlast⟩ := hcs.split
    have hle := ih h hnot hbefore
    cases hlast with
    | @cons _ _ i o k r t _ hprog hworld hnil =>
      cases hnil
      have hone := followCount_world guildId hworld
      by_cases hadds : addsRow guildId ⟨o, r, c₀.store, t⟩ = true
      · -- the command has counted before, and compared with the limit
        obtain ⟨first, count, mid, rfl, hcounts⟩ := h.after ((runs i).after fromStr guildId) (stores_of_addsRow hadds)
        obtain ⟨n, s, t', rfl, hroom⟩ := hcounts.exists_eq
        have hat := followCount_at_add h
        rw [hadds, Bool.toNat_true] at hone
        rcases hnot i guildId first n s t' mid _ rest rfl hadds with hnone | hfew
        · dsimp only at hat hone ⊢
          omega
        · dsimp only at hat hone ⊢
          omega
      · rw [Bool.eq_false_of_not_eq_true hadds] at hone
        exact hone.trans hle

end Limit

/-- In any interleaving the limit holds all along, if no other systems are stored between the count of a command and its
own, or only as many as there is room for. -/
theorem follow_limit_holds (fromStr : String → Option SystemRef) (runs : ι → NotifyRun) (db : Database)
    (hdb : ∀ guildId, db.followCount guildId ≤ maxFollowCount) (calls : List (ι × NotifyDbCall))
    (c' : Pool ι Error NotifyCall Database NotifyCall.Reply Unit)
    (h : Pool.Steps notifyWorld ⟨fun i => (runs i).prog fromStr, db⟩ calls c') (hnot : NotCrowded calls) :
    WithinLimit calls := by
  intro d hd guildId
  obtain ⟨pre, post, rfl⟩ := List.append_of_mem hd
  rw [List.append_cons] at h hnot
  obtain ⟨c₁, hpre, -⟩ := h.split
  have hle := followCount_le_of_notCrowded hdb h hnot hpre guildId
  obtain ⟨c₀, -, hlast⟩ := hpre.split
  cases hlast with
  | cons hprog hworld hnil =>
    cases hnil
    exact hle

/-! ### Two commands at once -/

def followGuild : GuildId := ⟨131, by decide⟩

/-- A guild that follows 49 systems. -/
def followDatabase : Database where
  now := 0
  pkSystems := Table.empty
  pkSystemFronters := Table.empty
  pkGuilds := Table.empty
  pkFronters := Table.empty
  pkNotifyChannels := Table.empty.upsert followGuild ⟨132, by decide⟩
  pkNotifySystems := (Finset.range 49).image fun n => (followGuild, ⟨BitVec.ofNat 128 n⟩)
  guilds := Table.empty.upsert followGuild ⟨0, 0, none⟩

theorem followCount_followDatabase (guildId : GuildId) :
    followDatabase.followCount guildId = if guildId = followGuild then 49 else 0 := by
  have hinj : Set.InjOn (fun n => (followGuild, (⟨BitVec.ofNat 128 n⟩ : Uuid))) (Finset.range 49) := by
    intro a ha b hb h
    have hget := congrArg (fun follow : GuildId × Uuid => follow.2.value.toNat) h
    have ha' := Finset.mem_range.mp ha
    have hb' := Finset.mem_range.mp hb
    simp only [BitVec.toNat_ofNat] at hget
    omega
  unfold Database.followCount followDatabase
  split_ifs with hguild
  · subst hguild
    rw [Finset.filter_true_of_mem, Finset.card_image_of_injOn hinj, Finset.card_range]
    intro follow hfollow
    obtain ⟨n, -, rfl⟩ := Finset.mem_image.mp hfollow
    rfl
  · rw [Finset.card_eq_zero, Finset.filter_eq_empty_iff]
    intro follow hfollow
    obtain ⟨n, -, rfl⟩ := Finset.mem_image.mp hfollow
    exact fun heq => hguild heq.symm

def exampleRef (reference : String) : Option SystemRef := some (.id reference)

def firstSystem : PkSystem := ⟨"aaaaa", ⟨101⟩, none, none⟩

def secondSystem : PkSystem := ⟨"bbbbb", ⟨102⟩, none, none⟩

/-- `/pk notify add` up to the count. -/
def beforeCount (system : PkSystem) : List NotifyDbCall :=
  let db := followDatabase
  [⟨.other .ctxGuild, .ok (some followGuild), db, db⟩, ⟨.defer, .ok (), db, db⟩,
    ⟨.other (.sql (.getNotifyChannel followGuild)), .ok (db.pkNotifyChannels.row followGuild), db, db⟩,
    ⟨.getArgString "id", .ok system.id, db, db⟩, ⟨.pkGetSystem (.id system.id), .ok system, db, db⟩,
    ⟨.other .utcNow, (0 : Time), db, db⟩, ⟨.other .utcNow, (0 : Time), db, db⟩,
    ⟨.sql (.doesGuildFollow followGuild system.uuid), .ok false, db, db⟩]

def countCall : NotifyDbCall :=
  ⟨.sql (.getGuildFollowCount followGuild), .ok 49, followDatabase, followDatabase⟩

def storedSystem (system : PkSystem) : ModPkSystem := ⟨⟨system.id, system.name, system.avatarUrl, 0, 0⟩, system.uuid⟩

def updatedDatabase (db : Database) (system : PkSystem) : Database :=
  { db with pkSystems := db.pkSystems.upsert system.uuid ⟨system.id, system.name, system.avatarUrl, 0, 0⟩ }

def followedDatabase (db : Database) (system : PkSystem) : Database :=
  let db := updatedDatabase db system
  { db with pkNotifySystems := insert (followGuild, system.uuid) db.pkNotifySystems }

/-- The rest of it. -/
def afterCount (db : Database) (system : PkSystem) : List NotifyDbCall :=
  [⟨.pkGetSystemFronters (.id system.id), .ok none, db, db⟩,
    ⟨.other (.sql (.updateSystem (storedSystem system))), .ok (), db, updatedDatabase db system⟩,
    ⟨.sql (.addNotifySystem followGuild system.uuid), .ok (), updatedDatabase db system, followedDatabase db system⟩]

/-- Both commands count before either stores its system. -/
def crowdedCalls : List (Bool × NotifyDbCall) :=
  (beforeCount firstSystem ++ [countCall]).map (fun d => (false, d)) ++
    (beforeCount secondSystem ++ [countCall]).map (fun d => (true, d)) ++
    (afterCount followDatabase firstSystem).map (fun d => (false, d)) ++
    (afterCount (followedDatabase followDatabase firstSystem) secondSystem).map fun d => (true, d)

/-- What is left of it then. -/
def counting (system : PkSystem) : NotifyTask Unit := do
  if (← Notify.sql (.getGuildFollowCount followGuild)) ≥ maxFollowCount then
    respondError (s!"### Error\nYou've hit the follow limit of {maxFollowCount} " ++
      "please consider unfollowing some systems")
  else
    follow followGuild (.id system.id) (storedSystem system)

/-- One command comes to its count. -/
theorem advances_beforeCount {system : PkSystem}
    (hnew : (followGuild, system.uuid) ∉ followDatabase.pkNotifySystems) :
    (Add.handle exampleRef).Advances notifyWorld followDatabase (beforeCount system) (counting system)
      followDatabase := by
  refine .cons ⟨0, rfl⟩ (.cons ⟨0, rfl⟩ (.cons ⟨0, rfl, rfl⟩ ?_))
  refine .cons ⟨0, rfl⟩ (.cons ⟨0, rfl⟩ (.cons ⟨0, rfl⟩ (.cons ⟨0, rfl⟩ ?_)))
  exact .cons ⟨0, (decide_eq_false hnew).symm, rfl⟩ (.nil _ _)

theorem advances_count (system : PkSystem) : (counting system).Advances notifyWorld followDatabase [countCall]
    (follow followGuild (.id system.id) (storedSystem system)) followDatabase := by
  have hcount : 49 = followDatabase.followCount followGuild := (followCount_followDatabase followGuild).symm
  exact .cons ⟨0, hcount, rfl⟩ (.nil _ _)

/-- It stores its system, whatever other systems were stored in between. -/
theorem advances_afterCount (db : Database) (system : PkSystem) (hnow : db.now = 0)
    (hguild : (db.guilds.row followGuild).isSome = true) (hnone : db.pkSystems.row system.uuid = none) :
    ∃ q, (follow followGuild (.id system.id) (storedSystem system)).Advances notifyWorld db
      (afterCount db system) q (followedDatabase db system) := by
  have hupdate : Statement.Answers (.updateSystem (storedSystem system)) { db with now := 0 } ()
      (updatedDatabase db system) := by
    simp [Statement.Answers, updatedDatabase, storedSystem, hnone, hnow]
  have hrow : ((updatedDatabase db system).pkSystems.row system.uuid).isSome = true := by
    simp [updatedDatabase]
  have hadd : NotifyStatement.Answers (.addNotifySystem followGuild system.uuid)
      { updatedDatabase db system with now := 0 } () (followedDatabase db system) := by
    refine ⟨fun _ => ⟨hguild, hrow⟩, ?_⟩
    simp [updatedDatabase, followedDatabase, hnow]
  exact ⟨_, .cons ⟨db.now, rfl⟩ (.cons ⟨0, hupdate⟩ (.cons ⟨0, hadd⟩ (.nil _ _)))⟩

theorem steps_crowdedCalls : ∃ c', Pool.Steps notifyWorld
    ⟨fun _ => NotifyRun.add.prog exampleRef, followDatabase⟩ crowdedCalls c' := by
  have hfirst := (advances_beforeCount (show (followGuild, firstSystem.uuid) ∉ _ by decide)).append
    (advances_count firstSystem)
  have hsecond := (advances_beforeCount (show (followGuild, secondSystem.uuid) ∉ _ by decide)).append
    (advances_count secondSystem)
  obtain ⟨q, hfirst'⟩ := advances_afterCount followDatabase firstSystem rfl rfl rfl
  obtain ⟨q', hsecond'⟩ :=
    advances_afterCount (followedDatabase followDatabase firstSystem) secondSystem rfl rfl rfl
  have hcounted : Pool.Steps notifyWorld ⟨fun _ => NotifyRun.add.prog exampleRef, followDatabase⟩ _ _ :=
    (Pool.Steps.of_advances hfirst false rfl).append (.of_advances hsecond true rfl)
  exact ⟨_, (hcounted.append (.of_advances hfirst' false rfl)).append (.of_advances hsecond' true rfl)⟩

theorem followDatabase_withinLimit (guildId : GuildId) : followDatabase.followCount guildId ≤ maxFollowCount := by
  rw [followCount_followDatabase]
  split_ifs <;> decide

theorem followCount_first : (followedDatabase followDatabase firstSystem).followCount followGuild = 50 := by
  have hcount := followCount_insert (s := updatedDatabase followDatabase firstSystem) firstSystem.uuid
    (show (followGuild, firstSystem.uuid) ∉ followDatabase.pkNotifySystems by decide)
  have hstart : (updatedDatabase followDatabase firstSystem).followCount followGuild = 49 :=
    followCount_followDatabase followGuild
  rwa [hstart] at hcount

/-- The guild follows 51 systems in the end. -/
theorem follows_too_many :
    (∀ guildId, followDatabase.followCount guildId ≤ maxFollowCount) ∧
      (∃ c', Pool.Steps notifyWorld ⟨fun _ => NotifyRun.add.prog exampleRef, followDatabase⟩ crowdedCalls c') ∧
      ¬ WithinLimit crowdedCalls := by
  refine ⟨followDatabase_withinLimit, steps_crowdedCalls, fun h => ?_⟩
  have hlast := h (crowdedCalls.getLast (by decide)) (List.getLast_mem _) followGuild
  have hsecond := followCount_insert
    (s := updatedDatabase (followedDatabase followDatabase firstSystem) secondSystem) secondSystem.uuid
    (show (followGuild, secondSystem.uuid) ∉
      insert (followGuild, firstSystem.uuid) followDatabase.pkNotifySystems by decide)
  have htotal : (updatedDatabase (followedDatabase followDatabase firstSystem) secondSystem).followCount followGuild =
      50 := followCount_first
  rw [htotal] at hsecond
  have hmany : 50 + 1 ≤ maxFollowCount := hsecond ▸ hlast
  exact absurd hmany (by decide)

/-- The command counts after another one has stored its system, and refuses. -/
def refusal : List NotifyDbCall :=
  let db := followedDatabase followDatabase firstSystem
  [⟨.sql (.getGuildFollowCount followGuild), .ok 50, db, db⟩,
    ⟨.other (.respondError (s!"### Error\nYou've hit the follow limit of {maxFollowCount} " ++
      "please consider unfollowing some systems")), .ok (), db, db⟩]

theorem advances_refusal : ∃ q, (counting secondSystem).Advances notifyWorld
    (followedDatabase followDatabase firstSystem) refusal q (followedDatabase followDatabase firstSystem) :=
  ⟨_, .cons ⟨0, followCount_first.symm, rfl⟩ (.cons ⟨0, rfl⟩ (.nil _ _))⟩

def refusedCalls : List (Bool × NotifyDbCall) :=
  (beforeCount firstSystem ++ [countCall]).map (fun d => (false, d)) ++
    (beforeCount secondSystem).map (fun d => (true, d)) ++
    (afterCount followDatabase firstSystem).map (fun d => (false, d)) ++ refusal.map fun d => (true, d)

theorem steps_refusedCalls : ∃ c', Pool.Steps notifyWorld
    ⟨fun _ => NotifyRun.add.prog exampleRef, followDatabase⟩ refusedCalls c' := by
  have hfirst := (advances_beforeCount (show (followGuild, firstSystem.uuid) ∉ _ by decide)).append
    (advances_count firstSystem)
  have hsecond := advances_beforeCount (show (followGuild, secondSystem.uuid) ∉ _ by decide)
  obtain ⟨q, hfirst'⟩ := advances_afterCount followDatabase firstSystem rfl rfl rfl
  obtain ⟨q', hrefused⟩ := advances_refusal
  have hcounted : Pool.Steps notifyWorld ⟨fun _ => NotifyRun.add.prog exampleRef, followDatabase⟩ _ _ :=
    (Pool.Steps.of_advances hfirst false rfl).append (.of_advances hsecond true rfl)
  exact ⟨_, (hcounted.append (.of_advances hfirst' false rfl)).append (.of_advances hrefused true rfl)⟩

/-- Two commands at once, of which only one finds room. -/
theorem follow_limit_holds_of_refused : WithinLimit refusedCalls := by
  obtain ⟨c', h⟩ := steps_refusedCalls
  refine follow_limit_holds exampleRef (fun _ => .add) followDatabase followDatabase_withinLimit refusedCalls c' h
    (notCrowded_of_added_le fun guildId => ?_)
  have hone : added guildId refusedCalls = if followGuild = guildId ∧
      (guildId, firstSystem.uuid) ∉ (updatedDatabase followDatabase firstSystem).pkNotifySystems then 1 else 0 := by
    simp [added, refusedCalls, refusal, beforeCount, afterCount, countCall, addsRow, List.countP_cons]
  rw [hone]
  split_ifs
  · exact le_rfl
  · exact zero_le_one

end Tulpje.Pluralkit
