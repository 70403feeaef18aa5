import Tulpje.Pluralkit.Tables

/-!
# Which systems the services update

Both services take the five stalest systems and count on it that processing a system renews its timestamp.
-/

namespace Tulpje.Pluralkit

open Twilight Lib

/-! ### The two services -/

inductive Service
  | fronters
  | systems

namespace Service

def tick : Service → Task Unit
  | fronters => frontTick
  | systems => systemTick

def process : Service → ModPkSystem → Task Unit
  | fronters => processSystem
  | systems => updateSystem

/-- The timestamp that the service sorts by. -/
def key : Service → Database → Uuid → WithBot Time
  | fronters => Database.frontersUpdatedAt
  | systems => Database.systemUpdatedAt

/-- Between the calls of a service others may change all but the timestamps. -/
def rely (service : Service) (s t : Database) : Prop := service.key t = service.key s

/-- A selection, with the time of its `NOW()`. -/
def select : Service → DbCall → Option (Time × Round Uuid (WithBot Time))
  | fronters, ⟨.sql .frontersGetSystemsToUpdate, .ok rows, _, db⟩ =>
    some (db.now, ⟨db.frontersUpdatedAt, db.staleFronters, rows.map (·.uuid)⟩)
  | systems, ⟨.sql .getSystemsToUpdate, .ok rows, _, db⟩ =>
    some (db.now, ⟨db.systemUpdatedAt, db.staleSystems, rows.map (·.uuid)⟩)
  | _, _ => none

def rounds (service : Service) (calls : List DbCall) :
    List (Round Uuid (WithBot Time)) := calls.filterMap fun c => (service.select c).map (·.2)

/-- The timestamp that a call stores. -/
def storedAt : Service → DbCall → Option Time
  | fronters, ⟨.sql (.updateFronters _ _ updatedAt), _, _, _⟩ => some updatedAt
  | fronters, ⟨.sql (.updateFrontersTimestamp _), _, _, db⟩ => some db.now
  | systems, ⟨.sql (.updateSystem _), _, _, db⟩ => some db.now
  | _, _ => none

/-- No timestamp that is stored is before the `NOW()` of the last selection. -/
def Timely (service : Service) : Option Time → List DbCall → Prop
  | _, [] => True
  | last, c :: calls => (∀ now ∈ last, ∀ updatedAt ∈ service.storedAt c, now ≤ updatedAt) ∧
      service.Timely (((service.select c).map (·.1)).or last) calls

/-- The request ends in success, or as private or not found, and the statements that keep the timestamp
succeed. -/
def FrontersOk : (o : Call) → o.Reply → Prop
  | .pkGetSystemFronters _, r =>
    match r with
    | .ok none => True
    | .ok (some switch) => ∀ system, ∃ members, memberStructs system switch.members = .ok members
    | .error (.pk code _) => code = 30004 ∨ code = 20001
    | .error (.other _) => False
  | .fromTimestamp _, r => r ≠ none
  | .sql (.getFronters _), r => ∃ row, r = .ok row
  | .sql (.updateFronters ..), r | .sql (.updateFrontersTimestamp _), r => r = .ok ()
  | _, _ => True

/-- PluralKit answers with the system that was asked for, and it is stored. -/
def SystemsOk : (o : Call) → o.Reply → Prop
  | .pkGetSystem uuid, r => ∃ system, r = .ok system ∧ system.uuid = uuid
  | .sql (.updateSystem _), r => r = .ok ()
  | _, _ => True

def Ok : Service → DbCall → Prop
  | fronters, c => FrontersOk c.op c.reply
  | systems, c => SystemsOk c.op c.reply

/-! ### Processing a system -/

/-- The cell with the timestamp. -/
def cell : Service → Uuid → Cell
  | fronters => .pkSystemFronters
  | systems => .pkSystem

/-- The call writes the timestamp of the system. -/
def Stores (service : Service) (system : Uuid) (o : Call) : Prop :=
  o.effect = some (.writes (service.cell system))

variable {service : Service} {s t : Database} {calls : List DbCall}

theorem key_eq {x : Uuid} (h : (service.cell x).get t = (service.cell x).get s) :
    service.key t x = service.key s x := by
  cases service with
  | fronters => exact congrArg (Option.map ModPkSystemFronters.updatedAt) h
  | systems => exact congrArg (Option.map SystemColumns.updatedAt) h

theorem le_updatedAt {ρ : Type} {row : Option ρ} {columns : ρ} {updatedAt : ρ → Time} {T : Time}
    (hrow : row = some columns) (hle : T ≤ updatedAt columns) :
    (T : WithBot Time) ≤ (show WithBot Time from row.map updatedAt) := by
  subst hrow
  exact WithBot.coe_le_coe.mpr hle

/-- A call that stores a timestamp stores it in time. -/
theorem le_key_of_writes {c : DbCall} {T : Time} {x : Uuid}
    (hworld : world c.op c.before c.reply c.after) (hok : service.Ok c)
    (htime : ∀ updatedAt ∈ service.storedAt c, T ≤ updatedAt)
    (hwrites : service.Stores x c.op) : (T : WithBot Time) ≤ service.key c.after x := by
  obtain ⟨o, r, u, v⟩ := c
  dsimp only at hworld hwrites ⊢
  cases service with
  | fronters =>
    cases o with
    | sql statement =>
      cases statement with
      | updateFronters system fronters updatedAt =>
        obtain rfl : system = x := by simpa [Stores, Call.effect, cell] using hwrites
        obtain rfl : r = .ok () := hok
        obtain ⟨now, hafter⟩ := hworld
        obtain rfl : v = _ := hafter
        have hle : T ≤ updatedAt := htime updatedAt rfl
        exact le_updatedAt (Table.row_upsert_self ..) hle
      | updateFrontersTimestamp system =>
        obtain rfl : system = x := by simpa [Stores, Call.effect, cell] using hwrites
        obtain rfl : r = .ok () := hok
        obtain ⟨now, hafter⟩ := hworld
        obtain rfl : v = _ := hafter
        have hle : T ≤ now := htime now rfl
        exact le_updatedAt (Table.row_upsert_self ..) hle
      | _ => cases hwrites
    | _ => cases hwrites
  | systems =>
    cases o with
    | sql statement =>
      cases statement with
      | updateSystem system =>
        obtain rfl : system.uuid = x := by simpa [Stores, Call.effect, cell] using hwrites
        obtain rfl : r = .ok () := hok
        obtain ⟨now, hafter⟩ := hworld
        obtain rfl : v = _ := hafter
        have hle : T ≤ now := htime now rfl
        exact le_updatedAt (Table.row_upsert_self ..) hle
      | _ => cases hwrites
    | _ => cases hwrites

theorem le_key_of_before {c : DbCall} {T : Time} {x : Uuid}
    (hworld : world c.op c.before c.reply c.after) (hok : service.Ok c)
    (htime : ∀ updatedAt ∈ service.storedAt c, T ≤ updatedAt)
    (hbefore : (T : WithBot Time) ≤ service.key c.before x) : (T : WithBot Time) ≤ service.key c.after x := by
  by_cases hwrites : service.Stores x c.op
  · exact le_key_of_writes hworld hok htime hwrites
  · rw [key_eq (world_frame hworld hwrites)]
    exact hbefore

/-! The requests of a system that end well lead to its timestamp being stored. -/

section Reaches

theorem updateFrontersTimestamp_reaches (system : Uuid) {Q : Unit → Prop} {E : Error → Prop} :
    (updateFrontersTimestamp system).Reaches FrontersOk (Service.fronters.Stores system) Q E :=
  .mapError (.inl rfl)

theorem updateFronters_reaches (system : Uuid) (fronters : List Uuid) {Q : Unit → Prop} {E : Error → Prop} :
    (updateFronters system fronters).Reaches FrontersOk
      (Service.fronters.Stores system) Q E :=
  .bind (.send fun _ _ => .inl rfl)

theorem didFrontersChange_reaches (system : Uuid) (newFronters : List Uuid) {P : Call → Prop}
    {E : Error → Prop} : (didFrontersChange system newFronters).Reaches FrontersOk P (fun _ => True) E := by
  refine .bind (.bind (.send fun reply hreply => ?_))
  obtain ⟨row, rfl⟩ := hreply
  cases row <;> trivial

theorem getSystemFronters_reaches (system : Uuid) {P : Call → Prop} :
    (getSystemFronters system).Reaches FrontersOk P (fun _ => True) fun e =>
      e = .frontPrivate system ∨ e = .notFound system := by
  refine .bind (.send fun reply hreply => ?_)
  rcases reply with (⟨code, message⟩ | message) | _ | switch
  · obtain rfl | rfl : code = 30004 ∨ code = 20001 := hreply
    · exact .inl rfl
    · exact .inr rfl
  · exact hreply.elim
  · trivial
  · obtain ⟨members, hmembers⟩ := hreply system
    dsimp only
    rw [hmembers]
    refine .bind (.bind (.send fun timestamp htimestamp => ?_))
    cases timestamp with
    | none => exact absurd rfl htimestamp
    | some timestamp => trivial

theorem recordFronters_reaches (system : ModPkSystem) (fronters : Option Fronters) :
    (recordFronters system fronters).Reaches FrontersOk
      (Service.fronters.Stores system.uuid) (fun _ => False) fun _ => False := by
  refine .bind (.mapError ((didFrontersChange_reaches ..).mono (fun changed _ => ?_) fun _ => id))
  cases changed with
  | true => exact .bind (.mapError (updateFronters_reaches ..))
  | false => exact .bind (.mapError (updateFrontersTimestamp_reaches ..))

theorem updateSystemFronters_reaches (system : ModPkSystem) :
    (updateSystemFronters system).Reaches FrontersOk
      (Service.fronters.Stores system.uuid) (fun _ => False) fun _ => False := by
  refine .bind (.attempt ((getSystemFronters_reaches system.uuid).mono (fun fronters _ => ?_) fun e he => ?_))
  · exact .bind (recordFronters_reaches system fronters)
  · refine .bind ?_
    rcases he with rfl | rfl
    · exact .bind (.mapError (updateFrontersTimestamp_reaches ..))
    · exact .bind (.mapError (updateFrontersTimestamp_reaches ..))

theorem processSystem_reaches (system : ModPkSystem) :
    (processSystem system).Reaches FrontersOk (Service.fronters.Stores system.uuid)
      (fun _ => False) fun _ => False :=
  .bind (.attempt ((updateSystemFronters_reaches system).mono (fun _ => False.elim) fun _ => False.elim))

theorem updateSystem_reaches (system : ModPkSystem) :
    (updateSystem system).Reaches SystemsOk (Service.systems.Stores system.uuid) (fun _ => False)
      fun _ => False := by
  refine .bind (.send fun reply hreply => ?_)
  obtain ⟨answer, rfl, huuid⟩ := hreply
  refine .bind (.bind (.send fun createdAt _ => .bind (.send fun updatedAt _ => .inl ?_)))
  exact congrArg (fun uuid => some (Effect.writes (.pkSystem uuid))) huuid

end Reaches

/-- PluralKit has to answer with the system that was asked for. -/
theorem within_updateSystem {system : ModPkSystem} {result : Except Error Unit}
    {rely : Database → Database → Prop} (h : (updateSystem system).Runs world rely s calls result t)
    (hok : ∀ c ∈ calls, SystemsOk c.op c.reply) :
    ∀ c ∈ calls, c.op.Within {.asks system.uuid, .writes (.pkSystem system.uuid)} := by
  have hrequest : (Call.pkGetSystem system.uuid).Within {.asks system.uuid, .writes (.pkSystem system.uuid)} :=
    .of_mem (.asks system.uuid) rfl (.inl rfl)
  rcases Prog.runs_bind.mp h with ⟨e, -, hsend⟩ | ⟨reply, u, cs, ds, rfl, hsend, hrest⟩
  · exact hsend.all (Prog.All.send (E := fun _ => True) hrequest)
  · obtain ⟨v, r, -, -, rfl, hr⟩ := Prog.runs_send.mp hsend
    obtain rfl := Except.ok.inj hr
    obtain ⟨hanswer, -⟩ := List.forall_mem_cons.mp hok
    obtain ⟨answer, rfl, huuid⟩ := hanswer
    have hstore : ∀ now now', (Call.sql (.updateSystem ⟨⟨answer.id, answer.name, answer.avatarUrl, now, now'⟩,
        answer.uuid⟩)).Within {.asks system.uuid, .writes (.pkSystem system.uuid)} := fun now now' =>
      .of_mem (.writes (.pkSystem answer.uuid)) rfl (.inr (by rw [huuid]; rfl))
    refine List.forall_mem_cons.mpr ⟨hrequest, Prog.Runs.all (E := fun _ => True) hrest ?_⟩
    -- the two clocks are read, then the row is stored
    exact ⟨.of_none rfl, fun now => ⟨.of_none rfl, fun now' => Confined.sql (hstore now now')⟩⟩

/-- The calls for one system, when all goes well: they write its timestamp and no other. -/
theorem calls_process {system : ModPkSystem} {result : Except Error Unit}
    (h : (service.process system).Runs world service.rely s calls result t) (hok : ∀ c ∈ calls, service.Ok c) :
    (∀ c ∈ calls, ∀ x ≠ system.uuid, ¬ service.Stores x c.op) ∧
      ∃ c ∈ calls, service.Stores system.uuid c.op := by
  cases service with
  | fronters =>
    refine ⟨fun c hc x hx hwrites => ?_, h.reaches (processSystem_reaches system) hok⟩
    have hwithin := h.all (confined_processSystem system) c hc _ hwrites
    rcases hwithin with (heffect | heffect) | heffect | heffect | heffect
    · cases heffect
    · exact hx (Cell.pkSystemFronters.inj (Effect.writes.inj heffect))
    all_goals cases heffect
  | systems =>
    refine ⟨fun c hc x hx hwrites => ?_, h.reaches (updateSystem_reaches system) hok⟩
    rcases within_updateSystem h hok c hc _ hwrites with heffect | heffect
    · cases heffect
    · exact hx (Cell.pkSystem.inj (Effect.writes.inj heffect))

theorem process_renews {system : ModPkSystem} {result : Except Error Unit} {T : Time}
    (h : (service.process system).Runs world service.rely s calls result t) (hok : ∀ c ∈ calls, service.Ok c)
    (htime : ∀ c ∈ calls, ∀ updatedAt ∈ service.storedAt c, T ≤ updatedAt) :
    (∀ x ≠ system.uuid, service.key t x = service.key s x) ∧
      (T : WithBot Time) ≤ service.key t system.uuid := by
  obtain ⟨hown, c, hc, hwrites⟩ := calls_process h hok
  have hworld := h.answered
  constructor
  · intro x hx
    refine (h.keeps (v := fun db => service.key db x) (fun s t hrely => congrFun hrely x) fun c hc => ?_).1
    exact key_eq (world_frame (hworld c hc) (hown c hc x hx))
  · refine h.establishes (Q := fun db => (T : WithBot Time) ≤ service.key db system.uuid) ?_ ?_ ⟨c, hc, ?_⟩
    · intro s t hrely hs
      rw [congrFun hrely system.uuid]
      exact hs
    · exact fun c hc => le_key_of_before (hworld c hc) (hok c hc) (htime c hc)
    · exact le_key_of_writes (hworld c hc) (hok c hc) (htime c hc) hwrites

/-! ### A tick -/

theorem processAll_renews {systemsToUpdate : List ModPkSystem} {result : Except Error Unit} {T : Time}
    (h : (processAll service.process systemsToUpdate).Runs world service.rely s calls result t)
    (hok : ∀ c ∈ calls, service.Ok c) (htime : ∀ c ∈ calls, ∀ updatedAt ∈ service.storedAt c, T ≤ updatedAt) :
    (∀ x ∉ systemsToUpdate.map (·.uuid), service.key t x = service.key s x) ∧
      ∀ x ∈ systemsToUpdate.map (·.uuid), (T : WithBot Time) ≤ service.key t x := by
  induction systemsToUpdate generalizing s calls with
  | nil =>
    obtain ⟨-, -, rfl⟩ := Prog.runs_pure.mp h
    simp
  | cons system rest ih =>
    rcases Prog.runs_bind.mp h with ⟨e, -, hfirst⟩ | ⟨_, u, cs, ds, rfl, hfirst, hrest⟩
    · obtain ⟨herror, -⟩ := Prog.runs_attempt_ignore.mp hfirst
      cases herror
    · obtain ⟨-, r, hfirst⟩ := Prog.runs_attempt_ignore.mp hfirst
      obtain ⟨hokFirst, hokRest⟩ := List.forall_mem_append.mp hok
      obtain ⟨htimeFirst, htimeRest⟩ := List.forall_mem_append.mp htime
      obtain ⟨hothers, hself⟩ := process_renews hfirst hokFirst htimeFirst
      obtain ⟨hkept, hrenewed⟩ := ih hrest hokRest htimeRest
      rw [List.map_cons]
      constructor
      · intro x hx
        obtain ⟨hne, hnot⟩ := not_or.mp (mt List.mem_cons.mpr hx)
        exact (hkept x hnot).trans (hothers x hne)
      · intro x hx
        by_cases hmem : x ∈ rest.map (·.uuid)
        · exact hrenewed x hmem
        · obtain rfl : x = system.uuid := (List.mem_cons.mp hx).resolve_right hmem
          rw [hkept _ hmem]
          exact hself

theorem selects_processAll (systemsToUpdate : List ModPkSystem) :
    (processAll service.process systemsToUpdate).All (fun o => o.effect ≠ some .selects) fun _ => True := by
  refine Prog.All.forM fun system _ => Prog.All.bind (Prog.All.attempt (E := fun _ => True) ?_) fun _ => trivial
  cases service with
  | fronters =>
    refine (confined_processSystem system).imp fun o ho hselects => ?_
    rcases ho .selects hselects with (heffect | heffect) | heffect | heffect | heffect
    all_goals cases heffect
  | systems =>
    refine ⟨nofun, fun reply => ?_⟩
    cases reply with
    | error err => trivial
    | ok answer => exact ⟨nofun, fun _ => ⟨nofun, fun _ => ⟨nofun, fun r => Prog.All.ofExcept r⟩⟩⟩

theorem select_eq_none {c : DbCall} (h : c.op.effect ≠ some .selects) :
    service.select c = none := by
  obtain ⟨o, r, u, v⟩ := c
  cases o with
  | sql statement => cases service <;> cases statement <;> first | rfl | exact absurd rfl h
  | _ => cases service <;> rfl

theorem rounds_eq_nil (h : ∀ c ∈ calls, c.op.effect ≠ some .selects) : service.rounds calls = [] := by
  refine List.filterMap_eq_nil_iff.mpr fun c hc => ?_
  rw [select_eq_none (h c hc)]
  rfl

theorem rounds_append (cs ds : List DbCall) :
    service.rounds (cs ++ ds) = service.rounds cs ++ service.rounds ds := List.filterMap_append

/-! `Timely` over the parts of a run. -/

theorem Timely.right {last : Option Time} {cs ds : List DbCall}
    (h : service.Timely last (cs ++ ds)) : ∃ last', service.Timely last' ds := by
  induction cs generalizing last with
  | nil => exact ⟨last, h⟩
  | cons c cs ih => exact ih h.2

theorem Timely.left {last : Option Time} {cs ds : List DbCall}
    (h : service.Timely last (cs ++ ds)) : service.Timely last cs := by
  induction cs generalizing last with
  | nil => trivial
  | cons c cs ih => exact ⟨h.1, ih h.2⟩

theorem Timely.le {T : Time} (h : service.Timely (some T) calls)
    (hselects : ∀ c ∈ calls, c.op.effect ≠ some .selects) :
    ∀ c ∈ calls, ∀ updatedAt ∈ service.storedAt c, T ≤ updatedAt := by
  induction calls with
  | nil => simp
  | cons c calls ih =>
    obtain ⟨hfirst, hselects⟩ := List.forall_mem_cons.mp hselects
    obtain ⟨hstored, hrest⟩ := h
    rw [select_eq_none hfirst] at hrest
    exact List.forall_mem_cons.mpr ⟨hstored T rfl, ih hrest hselects⟩

/-! The selection and what it is made of. -/

theorem map_modPkSystem {db : Database} {batch : List Uuid} (h : ∀ x ∈ batch, x ∈ db.pkSystems.keys) :
    (batch.filterMap db.modPkSystem).map (·.uuid) = batch := by
  induction batch with
  | nil => rfl
  | cons x batch ih =>
    obtain ⟨hx, hbatch⟩ := List.forall_mem_cons.mp h
    obtain ⟨columns, hrow⟩ := Option.isSome_iff_exists.mp ((db.pkSystems.mem_keys x).mp hx)
    have hsystem : db.modPkSystem x = some ⟨columns, x⟩ := by rw [Database.modPkSystem, hrow]; rfl
    rw [List.filterMap_cons_some hsystem, List.map_cons, ih hbatch]

def eligible : Service → Database → Finset Uuid
  | fronters => Database.staleFronters
  | systems => Database.staleSystems

theorem mem_keys_of_eligible {db : Database} {x : Uuid} (h : x ∈ service.eligible db) :
    x ∈ db.pkSystems.keys := by
  cases service with
  | fronters => exact (Finset.mem_filter.mp h).1
  | systems => exact (Finset.mem_filter.mp h).1

/-- A row that was updated a while ago. -/
theorem updatedAt_lt {ρ : Type} {row : Option ρ} {updatedAt : ρ → Time} {now interval : Time}
    (hinterval : 0 < interval) (h : ∀ columns ∈ row, updatedAt columns ≤ now - interval) :
    (show WithBot Time from row.map updatedAt) < now := by
  cases row with
  | none => exact WithBot.bot_lt_coe now
  | some columns =>
    have hlt : updatedAt columns < now := lt_of_le_of_lt (h columns rfl) (Int.sub_lt_self now hinterval)
    exact WithBot.coe_lt_coe.mpr hlt

theorem key_lt_of_eligible {db : Database} {x : Uuid} (h : x ∈ service.eligible db) :
    service.key db x < db.now := by
  cases service with
  | fronters =>
    obtain ⟨-, hx⟩ := Finset.mem_filter.mp h
    obtain ⟨hstale, -⟩ := Bool.and_eq_true_iff.mp hx
    have hminute : 0 < minute := by decide
    refine updatedAt_lt hminute fun row hrow => ?_
    rw [Option.mem_def.mp hrow] at hstale
    exact of_decide_eq_true hstale
  | systems =>
    obtain ⟨-, hx⟩ := Finset.mem_filter.mp h
    obtain ⟨hstale, -⟩ := Bool.and_eq_true_iff.mp hx
    have hday : 0 < 24 * hour := by decide
    refine updatedAt_lt hday fun row hrow => ?_
    rw [Option.mem_def.mp hrow] at hstale
    exact of_decide_eq_true hstale

def selection : Service → Task (List ModPkSystem)
  | fronters => sql .frontersGetSystemsToUpdate
  | systems => sql .getSystemsToUpdate

/-- What the rows of a selection are. -/
structure Selects (service : Service) (s : Database) (c : DbCall)
    (rows : List ModPkSystem) (T : Time) (a : Round Uuid (WithBot Time)) : Prop where
  select : service.select c = some (T, a)
  key : a.key = service.key s
  after : service.key c.after = service.key s
  isBatch : IsBatch 5 a.key a.eligible a.batch
  batch : a.batch = rows.map (·.uuid)
  stale : ∀ x ∈ a.eligible, a.key x < T

theorem selects_of_isBatch {db : Database} {c : DbCall} {batch : List Uuid}
    (hbatch : IsBatch 5 (service.key db) (service.eligible db) batch) (hkey : service.key db = service.key s)
    (hafter : c.after = db)
    (hselect : service.select c = some (db.now, ⟨service.key db, service.eligible db,
      (batch.filterMap db.modPkSystem).map (·.uuid)⟩)) :
    service.Selects s c (batch.filterMap db.modPkSystem) db.now
      ⟨service.key db, service.eligible db, (batch.filterMap db.modPkSystem).map (·.uuid)⟩ where
  select := hselect
  key := hkey
  after := hafter ▸ hkey
  isBatch := by
    rw [map_modPkSystem fun x hx => mem_keys_of_eligible (hbatch.subset hx)]
    exact hbatch
  batch := rfl
  stale := fun x hx => key_lt_of_eligible hx

theorem runs_selection {result : Except Error (List ModPkSystem)}
    (h : service.selection.Runs world service.rely s calls result t) :
    (∃ e, result = .error e ∧ service.rounds calls = [] ∧ service.key t = service.key s) ∨
      ∃ rows c T a, result = .ok rows ∧ calls = [c] ∧ c.after = t ∧ service.Selects s c rows T a := by
  cases service with
  | fronters =>
    obtain ⟨u, hrely, hworld, rfl⟩ := runs_sql.mp h
    cases result with
    | error err =>
      obtain ⟨now, rfl⟩ := hworld
      exact .inl ⟨err, rfl, rfl, hrely⟩
    | ok rows =>
      obtain ⟨now, ⟨batch, hbatch, rfl⟩, hafter⟩ := hworld
      obtain rfl : t = _ := hafter
      exact .inr ⟨_, _, _, _, rfl, rfl, rfl, selects_of_isBatch hbatch hrely rfl rfl⟩
  | systems =>
    obtain ⟨u, hrely, hworld, rfl⟩ := runs_sql.mp h
    cases result with
    | error err =>
      obtain ⟨now, rfl⟩ := hworld
      exact .inl ⟨err, rfl, rfl, hrely⟩
    | ok rows =>
      obtain ⟨now, ⟨batch, hbatch, rfl⟩, hafter⟩ := hworld
      obtain rfl : t = _ := hafter
      exact .inr ⟨_, _, _, _, rfl, rfl, rfl, selects_of_isBatch hbatch hrely rfl rfl⟩

/-- At most one round, which renews its batch; without one all timestamps stay. -/
inductive AtMostOneRound (service : Service) (s : Database) (calls : List DbCall)
    (t : Database) : Prop
  | none : service.rounds calls = [] → service.key t = service.key s → AtMostOneRound service s calls t
  | one (a : Round Uuid (WithBot Time)) : service.rounds calls = [a] → a.key = service.key s →
      IsBatch 5 a.key a.eligible a.batch → Renews a (service.key t) → AtMostOneRound service s calls t

theorem runs_selection_bind {last : Option Time} {result : Except Error Unit}
    (h : (service.selection >>= processAll service.process).Runs world service.rely s calls result t)
    (hok : ∀ c ∈ calls, service.Ok c) (htimely : service.Timely last calls) :
    service.AtMostOneRound s calls t := by
  rcases Prog.runs_bind.mp h with ⟨e, -, hselection⟩ | ⟨rows, u, cs, ds, rfl, hselection, hrest⟩
  · rcases runs_selection hselection with ⟨_, -, hrounds, hkey⟩ | ⟨rows, c, T, a, hok, -⟩
    · exact .none hrounds hkey
    · cases hok
  · rcases runs_selection hselection with ⟨_, herror, -⟩ | ⟨rows', c, T, a, hrows, rfl, rfl, hselects⟩
    · cases herror
    · obtain rfl := Except.ok.inj hrows
      have hquiet := hrest.all (selects_processAll rows)
      have hrounds : service.rounds ([c] ++ ds) = [a] := by
        rw [rounds_append, rounds_eq_nil hquiet, rounds, List.filterMap_cons, hselects.select]
        rfl
      obtain ⟨-, hokRest⟩ := List.forall_mem_cons.mp hok
      obtain ⟨-, htimelyRest⟩ := htimely
      rw [hselects.select] at htimelyRest
      obtain ⟨hkept, hrenewed⟩ := processAll_renews hrest hokRest (Timely.le htimelyRest hquiet)
      rw [← hselects.batch, hselects.after, ← hselects.key] at hkept
      rw [← hselects.batch] at hrenewed
      refine .one a hrounds hselects.key hselects.isBatch ⟨hkept, fun x hx y hy => ?_⟩
      exact (hselects.stale y hy).trans_le (hrenewed x hx)

/-- The counts in front of the selection. -/
theorem runs_quiet {α : Type} {p : Task α} {result : Except Error α}
    (h : p.Runs world service.rely s calls result t) (hp : Confined ∅ p) :
    service.rounds calls = [] ∧ service.key t = service.key s := by
  have hwithin := h.all hp
  refine ⟨rounds_eq_nil fun c hc hselects => hwithin c hc _ hselects, ?_⟩
  refine (h.keeps (v := service.key) (fun _ _ => id) fun c hc => funext fun x => ?_).1
  exact key_eq (world_frame (h.answered c hc) fun hwrites => hwithin c hc _ hwrites)

theorem AtMostOneRound.of_quiet {cs ds : List DbCall} {u : Database}
    (hcs : service.rounds cs = []) (hkey : service.key u = service.key s)
    (h : service.AtMostOneRound u ds t) : service.AtMostOneRound s (cs ++ ds) t := by
  have hrounds : service.rounds (cs ++ ds) = service.rounds ds := by
    rw [rounds_append, hcs, List.nil_append]
  cases h with
  | none hds ht => exact .none (hrounds.trans hds) (ht.trans hkey)
  | one a hds ha hbatch hrenews => exact .one a (hrounds.trans hds) (ha.trans hkey) hbatch hrenews

theorem runs_quiet_bind {α : Type} {p : Task α} {q : Task Unit} {last : Option Time}
    {result : Except Error Unit} (hp : Confined ∅ p)
    (hq : ∀ u ds last, q.Runs world service.rely u ds result t → (∀ c ∈ ds, service.Ok c) →
      service.Timely last ds → service.AtMostOneRound u ds t)
    (h : (p >>= fun _ => q).Runs world service.rely s calls result t) (hok : ∀ c ∈ calls, service.Ok c)
    (htimely : service.Timely last calls) : service.AtMostOneRound s calls t := by
  rcases Prog.runs_bind.mp h with ⟨e, -, hfails⟩ | ⟨_, u, cs, ds, rfl, hruns, hrest⟩
  · obtain ⟨hrounds, hkey⟩ := runs_quiet hfails hp
    exact .none hrounds hkey
  · obtain ⟨hrounds, hkey⟩ := runs_quiet hruns hp
    obtain ⟨last', htimely⟩ := htimely.right
    exact .of_quiet hrounds hkey (hq u ds last' hrest (List.forall_mem_append.mp hok).2 htimely)

theorem runs_tick {last : Option Time} {result : Except Error Unit}
    (h : service.tick.Runs world service.rely s calls result t) (hok : ∀ c ∈ calls, service.Ok c)
    (htimely : service.Timely last calls) : service.AtMostOneRound s calls t := by
  cases service with
  | systems =>
    have hselection : (systems.selection >>= processAll systems.process).Runs world systems.rely s calls
        result t := h
    exact runs_selection_bind hselection hok htimely
  | fronters =>
    have htracked : Confined ∅ (sql .getTrackedSystemCount) := Confined.sql (.of_none rfl)
    have hcount : Confined ∅ (sql .getSystemCount) := Confined.sql (.of_none rfl)
    refine runs_quiet_bind htracked (fun u ds last h hok htimely => ?_) h hok htimely
    refine runs_quiet_bind hcount (fun u ds last h hok htimely => ?_) h hok htimely
    have hselection : (fronters.selection >>= processAll fronters.process).Runs world fronters.rely u ds
        result t := h
    exact runs_selection_bind hselection hok htimely

/-! ### Any number of ticks -/

theorem runs_start {n : Nat} {last : Option Time} {result : Except Error Unit}
    (h : (start service.tick n).Runs world service.rely s calls result t) (hok : ∀ c ∈ calls, service.Ok c)
    (htimely : service.Timely last calls) : Fair 5 (service.key s) (service.rounds calls) := by
  induction n generalizing s calls last with
  | zero =>
    obtain ⟨rfl, -, -⟩ := Prog.runs_pure.mp h
    trivial
  | succ n ih =>
    rcases Prog.runs_bind.mp h with ⟨e, -, hattempt⟩ | ⟨_, u, cs, ds, rfl, hattempt, hrest⟩
    · obtain ⟨r, herror, -⟩ := Prog.runs_attempt.mp hattempt
      cases herror
    · obtain ⟨r, -, htick⟩ := Prog.runs_attempt.mp hattempt
      obtain ⟨hokTick, hokRest⟩ := List.forall_mem_append.mp hok
      obtain ⟨last', htimelyRest⟩ := htimely.right
      have hfair := ih hrest hokRest htimelyRest
      rw [rounds_append]
      cases runs_tick htick hokTick htimely.left with
      | none hrounds hkey =>
        rw [hrounds, List.nil_append, ← hkey]
        exact hfair
      | one a hrounds hkey hbatch hrenews =>
        rw [hrounds]
        exact ⟨hkey, hbatch, service.key u, hrenews, hfair⟩

/-- No system is starved by others in a run in which every request of a selected system ends well. -/
theorem no_system_starves (service : Service) {n : Nat} {result : Except Error Unit}
    (h : (start service.tick n).Runs world service.rely s calls result t) (hok : ∀ c ∈ calls, service.Ok c)
    (htimely : service.Timely none calls) (x r : Uuid) : ¬ Starves x r (service.rounds calls) :=
  (runs_start h hok htimely).not_starves x r

/-! ### Runs with requests that fail, and with one that is refused -/

def exampleColumns (uuid : Uuid) : SystemColumns := ⟨s!"exmpl{uuid.value.toNat}", none, none, 0, 0⟩

/-- Systems that one guild follows. -/
def followedDatabase (uuids : List Uuid) : Database :=
  { now := 25 * hour
    pkSystems := uuids.foldr (fun uuid table => table.upsert uuid (exampleColumns uuid)) .empty
    pkSystemFronters := .empty
    pkGuilds := .empty
    pkFronters := .empty
    pkNotifyChannels := .empty
    pkNotifySystems := (uuids.map fun uuid => (⟨81, by decide⟩, uuid)).toFinset
    guilds := Table.empty.upsert ⟨81, by decide⟩ ⟨0, 0, none⟩ }

def stuckUuids : List Uuid := [⟨1⟩, ⟨2⟩, ⟨3⟩, ⟨4⟩, ⟨5⟩, ⟨6⟩]

def stuckDatabase : Database := followedDatabase stuckUuids

/-- The request for a system that PluralKit does not answer, or has deleted. -/
def failedRequest (db : Database) : Service → ModPkSystem → DbCall
  | fronters, system => ⟨.pkGetSystemFronters system.uuid, .error (.other "503 Service Unavailable"), db, db⟩
  | systems, system => ⟨.pkGetSystem system.uuid, .error (.pk 20001 "System not found."), db, db⟩

theorem runs_failing_process (service : Service) (db : Database) (system : ModPkSystem) : ∃ r,
    (service.process system).Runs world service.rely db [failedRequest db service system] r db := by
  cases service with
  | fronters => exact ⟨_, .call rfl ⟨db.now, rfl⟩ (.throw _ _)⟩
  | systems => exact ⟨_, .call rfl ⟨db.now, rfl⟩ (.throw _ _)⟩

theorem runs_failing_processAll (service : Service) (db : Database) (systemsToUpdate : List ModPkSystem) :
    (processAll service.process systemsToUpdate).Runs world service.rely db
      (systemsToUpdate.map (failedRequest db service)) (.ok ()) db := by
  induction systemsToUpdate with
  | nil => exact .pure () db
  | cons system rest ih =>
    obtain ⟨r, hfirst⟩ := runs_failing_process service db system
    exact Prog.runs_bind.mpr (.inr ⟨(), db, _, _, rfl, Prog.runs_attempt_ignore.mpr ⟨rfl, r, hfirst⟩, ih⟩)

def stuckRows : List ModPkSystem := (stuckUuids.take 5).map fun uuid => ⟨exampleColumns uuid, uuid⟩

/-- The calls of a tick in which all five requests fail. -/
def stuckTick : Service → List DbCall
  | fronters =>
    [⟨.sql .getTrackedSystemCount, .ok 6, stuckDatabase, stuckDatabase⟩,
      ⟨.sql .getSystemCount, .ok 6, stuckDatabase, stuckDatabase⟩,
      ⟨.sql .frontersGetSystemsToUpdate, .ok stuckRows, stuckDatabase, stuckDatabase⟩] ++
      stuckRows.map (failedRequest stuckDatabase fronters)
  | systems =>
    [⟨.sql .getSystemsToUpdate, .ok stuckRows, stuckDatabase, stuckDatabase⟩] ++
      stuckRows.map (failedRequest stuckDatabase systems)

theorem runs_stuckTick (service : Service) :
    service.tick.Runs world service.rely stuckDatabase service.stuckTick (.ok ()) stuckDatabase := by
  have hrows : stuckRows = (stuckUuids.take 5).filterMap stuckDatabase.modPkSystem := by decide +kernel
  cases service with
  | fronters =>
    have hbatch : IsBatch 5 stuckDatabase.frontersUpdatedAt stuckDatabase.staleFronters (stuckUuids.take 5) :=
      ⟨stuckUuids, by decide, by decide +kernel, by decide +kernel, rfl⟩
    refine .call rfl ⟨stuckDatabase.now, by decide +kernel, rfl⟩ ?_
    refine .call rfl ⟨stuckDatabase.now, by decide +kernel, rfl⟩ ?_
    refine .call rfl ⟨stuckDatabase.now, ⟨_, hbatch, hrows⟩, rfl⟩ ?_
    exact runs_failing_processAll fronters stuckDatabase stuckRows
  | systems =>
    have hbatch : IsBatch 5 stuckDatabase.systemUpdatedAt stuckDatabase.staleSystems (stuckUuids.take 5) :=
      ⟨stuckUuids, by decide, by decide +kernel, by decide +kernel, rfl⟩
    refine .call rfl ⟨stuckDatabase.now, ⟨_, hbatch, hrows⟩, rfl⟩ ?_
    exact runs_failing_processAll systems stuckDatabase stuckRows

theorem runs_stuck (service : Service) : (start service.tick 2).Runs world service.rely stuckDatabase
    (service.stuckTick ++ service.stuckTick) (.ok ()) stuckDatabase := by
  have htick : (service.tick.attempt : Task (Except Error Unit)).Runs world service.rely stuckDatabase
      service.stuckTick (.ok (.ok ())) stuckDatabase := Prog.runs_attempt.mpr ⟨_, rfl, runs_stuckTick service⟩
  refine Prog.runs_bind.mpr (.inr ⟨_, _, _, _, rfl, htick, ?_⟩)
  exact Prog.runs_bind.mpr (.inr ⟨_, _, _, _, (List.append_nil _).symm, htick, .pure () _⟩)

theorem stuck_starves (service : Service) :
    Starves ⟨1⟩ ⟨6⟩ (service.rounds (service.stuckTick ++ service.stuckTick)) := by
  cases service with
  | fronters => exact ⟨[], _, [], _, [], rfl, by decide, by decide, by decide +kernel⟩
  | systems => exact ⟨[], _, [], _, [], rfl, by decide, by decide, by decide +kernel⟩

/-- Five systems whose requests fail are selected twice, and the sixth is not. -/
theorem sixth_system_starves :
    ((start frontTick 2).Runs world fronters.rely stuckDatabase (fronters.stuckTick ++ fronters.stuckTick)
        (.ok ()) stuckDatabase ∧
      Starves ⟨1⟩ ⟨6⟩ (fronters.rounds (fronters.stuckTick ++ fronters.stuckTick))) ∧
    (start systemTick 2).Runs world systems.rely stuckDatabase (systems.stuckTick ++ systems.stuckTick)
        (.ok ()) stuckDatabase ∧
      Starves ⟨1⟩ ⟨6⟩ (systems.rounds (systems.stuckTick ++ systems.stuckTick)) :=
  ⟨⟨runs_stuck fronters, stuck_starves fronters⟩, runs_stuck systems, stuck_starves systems⟩

/-- The timestamp of a system with private fronters is renewed. -/
def renewed (db : Database) (system : Uuid) : Database :=
  let fronters := ((db.pkSystemFronters.row system).map (·.fronters)).getD []
  { db with pkSystemFronters := db.pkSystemFronters.upsert system ⟨fronters, db.now⟩ }

/-- The calls for systems with private fronters, one system after the other. -/
def privateCalls (db : Database) : List ModPkSystem → List DbCall
  | [] => []
  | system :: rest =>
    let db' := renewed db system.uuid
    ⟨.pkGetSystemFronters system.uuid, .error (.pk 30004 "Unauthorized"), db, db⟩ ::
      ⟨.sql (.updateFrontersTimestamp system.uuid), .ok (), db, db'⟩ ::
      ⟨.sql (.getNotifyGuildsForSystem system.uuid), .error "pool timed out", db', db'⟩ :: privateCalls db' rest

def renewedAll (db : Database) (rows : List ModPkSystem) : Database :=
  rows.foldl (fun db system => renewed db system.uuid) db

theorem runs_privateCalls (db : Database) (rows : List ModPkSystem) : (processAll processSystem rows).Runs world
    fronters.rely db (privateCalls db rows) (.ok ()) (renewedAll db rows) := by
  induction rows generalizing db with
  | nil => exact .pure () db
  | cons system rest ih =>
    have hfirst : ∃ r, (processSystem system).Runs world fronters.rely db
        ((privateCalls db (system :: rest)).take 3) r (renewed db system.uuid) :=
      ⟨_, .call rfl ⟨db.now, rfl⟩ (.call rfl ⟨db.now, rfl⟩ (.call rfl ⟨db.now, rfl⟩ (.throw _ _)))⟩
    obtain ⟨r, hfirst⟩ := hfirst
    exact Prog.runs_bind.mpr (.inr ⟨(), _, _, _, rfl, Prog.runs_attempt_ignore.mpr ⟨rfl, r, hfirst⟩, ih _⟩)

theorem ok_privateCalls (db : Database) (rows : List ModPkSystem) : ∀ c ∈ privateCalls db rows, fronters.Ok c := by
  induction rows generalizing db with
  | nil => exact fun c hc => absurd hc List.not_mem_nil
  | cons system rest ih =>
    simp only [privateCalls, List.forall_mem_cons]
    exact ⟨.inl rfl, rfl, trivial, ih _⟩

theorem timely_privateCalls {db : Database} {last : Option Time} (hlast : ∀ now ∈ last, now ≤ db.now)
    (rows : List ModPkSystem) {calls : List DbCall} (h : fronters.Timely last calls) :
    fronters.Timely last (privateCalls db rows ++ calls) := by
  induction rows generalizing db with
  | nil => exact h
  | cons system rest ih =>
    refine ⟨nofun, fun now hnow updatedAt hstored => ?_, nofun, ih hlast⟩
    obtain rfl : db.now = updatedAt := Option.some.inj hstored
    exact hlast now hnow

/-- A tick that selects these rows of six. -/
def privateTick (db : Database) (rows : List ModPkSystem) : List DbCall :=
  ⟨.sql .getTrackedSystemCount, .ok 6, db, db⟩ :: ⟨.sql .getSystemCount, .ok 6, db, db⟩ ::
    ⟨.sql .frontersGetSystemsToUpdate, .ok rows, db, db⟩ :: privateCalls db rows

theorem ok_privateTick (db : Database) (rows : List ModPkSystem) : ∀ c ∈ privateTick db rows, fronters.Ok c := by
  simp only [privateTick, List.forall_mem_cons]
  exact ⟨trivial, trivial, trivial, ok_privateCalls db rows⟩

theorem timely_privateTick {db : Database} {rows : List ModPkSystem} {last : Option Time}
    {calls : List DbCall} (h : fronters.Timely (some db.now) calls) :
    fronters.Timely last (privateTick db rows ++ calls) := by
  refine ⟨nofun, nofun, nofun, timely_privateCalls (fun now hnow => ?_) rows h⟩
  obtain rfl : db.now = now := Option.some.inj hnow
  exact le_refl _

/-- A minute after the first tick. -/
def laterDatabase : Database := { renewedAll stuckDatabase stuckRows with now := stuckDatabase.now + minute }

/-- The sixth system comes first now. -/
def laterUuids : List Uuid := [⟨6⟩, ⟨1⟩, ⟨2⟩, ⟨3⟩, ⟨4⟩, ⟨5⟩]

def laterRows : List ModPkSystem := (laterUuids.take 5).map fun uuid => ⟨exampleColumns uuid, uuid⟩

def privateTicks : List DbCall := privateTick stuckDatabase stuckRows ++ privateTick laterDatabase laterRows

theorem runs_privateTicks : (start frontTick 2).Runs world fronters.rely stuckDatabase privateTicks (.ok ())
    (renewedAll laterDatabase laterRows) := by
  have hfirst : IsBatch 5 stuckDatabase.frontersUpdatedAt stuckDatabase.staleFronters (stuckUuids.take 5) :=
    ⟨stuckUuids, by decide, by decide +kernel, by decide +kernel, rfl⟩
  have hsecond : IsBatch 5 laterDatabase.frontersUpdatedAt laterDatabase.staleFronters (laterUuids.take 5) :=
    ⟨laterUuids, by decide, by decide +kernel, by decide +kernel, rfl⟩
  have htick : frontTick.Runs world fronters.rely stuckDatabase (privateTick stuckDatabase stuckRows) (.ok ())
      (renewedAll stuckDatabase stuckRows) := by
    refine .call rfl ⟨stuckDatabase.now, by decide +kernel, rfl⟩ ?_
    refine .call rfl ⟨stuckDatabase.now, by decide +kernel, rfl⟩ ?_
    exact .call rfl ⟨stuckDatabase.now, ⟨_, hfirst, by decide +kernel⟩, rfl⟩ (runs_privateCalls ..)
  have hlater : frontTick.Runs world fronters.rely (renewedAll stuckDatabase stuckRows)
      (privateTick laterDatabase laterRows) (.ok ()) (renewedAll laterDatabase laterRows) := by
    refine .call rfl ⟨laterDatabase.now, by decide +kernel, rfl⟩ ?_
    refine .call rfl ⟨laterDatabase.now, by decide +kernel, rfl⟩ ?_
    exact .call rfl ⟨laterDatabase.now, ⟨_, hsecond, by decide +kernel⟩, rfl⟩ (runs_privateCalls ..)
  refine Prog.runs_bind.mpr (.inr ⟨_, _, _, _, rfl, Prog.runs_attempt.mpr ⟨_, rfl, htick⟩, ?_⟩)
  exact Prog.runs_bind.mpr (.inr ⟨_, _, _, _, (List.append_nil _).symm,
    Prog.runs_attempt.mpr ⟨_, rfl, hlater⟩, .pure () _⟩)

/-- Six systems with private fronters: the second tick selects four of them again, and first the one that had waited. -/
theorem no_system_starves_private :
    (fronters.rounds privateTicks).map (·.batch) = [stuckUuids.take 5, laterUuids.take 5] ∧
      ∀ x r, ¬ Starves x r (fronters.rounds privateTicks) := by
  refine ⟨by decide +kernel, no_system_starves fronters runs_privateTicks ?_ ?_⟩
  · exact List.forall_mem_append.mpr ⟨ok_privateTick _ _, ok_privateTick _ _⟩
  · refine timely_privateTick ?_
    rw [← List.append_nil (privateTick laterDatabase laterRows)]
    exact timely_privateTick trivial

end Service

end Tulpje.Pluralkit
