import Mathlib.Data.Finset.Dedup
import Mathlib.Data.List.Perm.Basic
import Tulpje.Core.Handlers
import Tulpje.Lib.History
import Tulpje.Lib.Run

/-!
# The modules of a guild

`enable_module` and `disable_module` against the sets of modules that they are meant to keep. The primary key of
`guild_modules` leaves a guild one row, and `ON CONFLICT (guild_id) DO NOTHING` hides that the second module of a
guild is not stored (`set_per_guild_iff`).
-/

namespace Tulpje.Core

open Lib Framework
open Pluralkit (Error GuildId Time)

variable {F : Funcs}

/-- A successful call of `enable_module` or `disable_module`. -/
inductive ModuleCall
  | enable (guildId : GuildId) (module : String)
  | disable (guildId : GuildId) (module : String)

namespace ModuleCall

def guildId : ModuleCall → GuildId
  | enable guildId _ | disable guildId _ => guildId

def statement : ModuleCall → Statement
  | enable guildId module => .enableModule guildId module
  | disable guildId module => .disableModule guildId module

def run (db : Database) : ModuleCall → Database
  | enable guildId module => db.enableModule guildId module
  | disable guildId module => db.disableModule guildId module

/-- What the calls are for. -/
def apply (enabled : GuildId → Finset String) : ModuleCall → GuildId → Finset String
  | enable guildId module => Function.update enabled guildId (insert module (enabled guildId))
  | disable guildId module => Function.update enabled guildId ((enabled guildId).erase module)

/-- No other module is enabled for the guild. -/
def Alone (enabled : GuildId → Finset String) : ModuleCall → Prop
  | enable guildId module => enabled guildId ⊆ {module}
  | disable _ _ => True

theorem run_of_answers {call : ModuleCall} {db db' : Database} {r : call.statement.Reply}
    (h : call.statement.Answers db r db') : db' = call.run db := by
  cases call with
  | enable guildId module => exact h.2
  | disable guildId module => exact h

end ModuleCall

/-! ### Registering the commands -/

/-- Others leave the modules of the guild alone. -/
def SameModules (guildId : GuildId) (s t : Database) : Prop := t.guildModules.row guildId = s.guildModules.row guildId

/-- As `enable` and `disable` call `set_guild_commands_for_guild`. -/
def setGuildCommandsOfModules (registry : Registry F) (guildId : GuildId) : Task F Unit := do
  let modules ← sql (.guildModules guildId)
  setGuildCommandsForGuild modules guildId registry

/-- Whatever is answered, the program sets exactly these commands, for this guild only, and it has set them when it ends
without an error and `needed`. -/
structure Registers (p : Task F Unit) (guildId : GuildId) (db : Database) (commands : List (CommandBuilder F))
    (needed : Prop) : Prop where
  only : ∀ calls result db', p.Runs world (SameModules guildId) db calls result db' → ∀ d ∈ calls, ∀ other set,
    d.op = .setGuildCommands other set → other = guildId ∧ set.Perm commands
  done : ∀ calls db', p.Runs world (SameModules guildId) db calls (.ok ()) db' → needed →
    ∃ d ∈ calls, ∃ set, d.answered = ⟨.setGuildCommands guildId set, .ok ()⟩

section Registers
variable {registry : Registry F} {guildId : GuildId} {db db' : Database} {calls : List (DbCall F)}
  {result : Except Error Unit}

/-- A run that starts with reading the modules reads those of the table. -/
theorem runs_guildModules {f : List String → Task F Unit}
    (h : (sql (.guildModules guildId) >>= f).Runs world (SameModules guildId) db calls result db') :
    (∃ d err, calls = [d] ∧ d.op = .sql (.guildModules guildId) ∧ result = .error err) ∨
      ∃ d u rest, calls = d :: rest ∧ d.op = .sql (.guildModules guildId) ∧
        (f (db.modulesOf guildId)).Runs world (SameModules guildId) u rest result db' := by
  cases h with
  | @call _ _ _ u v _ r rest _ hrely hworld hrest =>
    cases r with
    | error err =>
      obtain ⟨rfl, rfl, -⟩ := Prog.runs_throw.mp hrest
      exact .inl ⟨_, err, rfl, rfl, rfl⟩
    | ok modules =>
      obtain ⟨now, hmodules, -⟩ := hworld
      obtain rfl : modules = db.modulesOf guildId := hmodules.trans (congrArg Option.toList hrely)
      exact .inr ⟨_, v, rest, rfl, rfl, hrest⟩

theorem runs_setGuildCommands {commands : List (CommandBuilder F)}
    (h : (do Prog.ofExcept (← send (.setGuildCommands guildId commands)) : Task F Unit).Runs world
      (SameModules guildId) db calls result db') :
    ∃ d, calls = [d] ∧ d.answered = ⟨.setGuildCommands guildId commands, result⟩ := by
  cases h with
  | call hrely hworld hrest =>
    obtain ⟨rfl, rfl, -⟩ := Prog.runs_ofExcept.mp hrest
    exact ⟨_, rfl, rfl⟩

/-- A program that reads the modules of the table and sets the commands made from them, or sets none if there are
none. -/
theorem registers_of_reads {p : Task F Unit} {f : List String → Task F Unit} {commands : List (CommandBuilder F)}
    {needed : Prop} (hp : p = sql (.guildModules guildId) >>= f)
    (hf : f (db.modulesOf guildId) = (do
        Prog.ofExcept (← send (.setGuildCommands guildId (commandsOf registry (db.modulesOf guildId))))) ∨
      ¬ needed ∧ f (db.modulesOf guildId) = pure ())
    (hperm : (commandsOf registry (db.modulesOf guildId)).Perm commands) :
    Registers p guildId db commands needed := by
  subst hp
  refine ⟨fun calls result db' h d hd other set hop => ?_, fun calls db' h hneeded => ?_⟩
  · rcases runs_guildModules h with ⟨d', err, rfl, hop', -⟩ | ⟨d', u, rest, rfl, hop', hrest⟩
    · obtain rfl := List.mem_singleton.mp hd
      cases hop.symm.trans hop'
    · rcases List.mem_cons.mp hd with rfl | hd
      · cases hop.symm.trans hop'
      · rcases hf with hf | ⟨-, hf⟩
        · rw [hf] at hrest
          obtain ⟨d'', rfl, hanswered⟩ := runs_setGuildCommands hrest
          obtain rfl := List.mem_singleton.mp hd
          cases hop.symm.trans (congrArg Sigma.fst hanswered)
          exact ⟨rfl, hperm⟩
        · rw [hf] at hrest
          obtain ⟨rfl, -, -⟩ := Prog.runs_pure.mp hrest
          cases hd
  · rcases runs_guildModules h with ⟨d', err, -, -, herr⟩ | ⟨d', u, rest, rfl, -, hrest⟩
    · cases herr
    · rcases hf with hf | ⟨hnot, -⟩
      · rw [hf] at hrest
        obtain ⟨d, rfl, hanswered⟩ := runs_setGuildCommands hrest
        exact ⟨d, List.mem_cons_of_mem _ (List.mem_singleton_self _), _, hanswered⟩
      · exact absurd hneeded hnot

end Registers

/-- The rows are the enabled modules, each once, and the commands of all enabled modules are registered. -/
structure Agrees (registry : Registry F) (db : Database) (enabled : GuildId → Finset String) : Prop where
  nodup : ∀ guildId, (db.modulesOf guildId).Nodup
  modules : ∀ guildId module, module ∈ db.modulesOf guildId ↔ module ∈ enabled guildId
  sets : ∀ guildId, Registers (setGuildCommandsOfModules registry guildId) guildId db
    (commandsOf registry (enabled guildId).toList) True
  registers : ∀ guildId, Registers (registerCommands registry guildId) guildId db
    (commandsOf registry (enabled guildId).toList) (commandsOf registry (enabled guildId).toList ≠ [])

section Agrees
variable {registry : Registry F} {db : Database} {enabled : GuildId → Finset String}

theorem perm_commandsOf {modules modules' : List String} (h : modules.Perm modules') :
    (commandsOf registry modules).Perm (commandsOf registry modules') := (h.filterMap _).flatten

/-- The handlers register the commands of the enabled modules, if these are the rows. -/
theorem Agrees.of_modules (hnodup : ∀ guildId, (db.modulesOf guildId).Nodup)
    (hmodules : ∀ guildId module, module ∈ db.modulesOf guildId ↔ module ∈ enabled guildId) :
    Agrees registry db enabled := by
  have hperm : ∀ guildId, (commandsOf registry (db.modulesOf guildId)).Perm
      (commandsOf registry (enabled guildId).toList) := fun guildId => by
    refine perm_commandsOf ((List.perm_ext_iff_of_nodup (hnodup guildId) (Finset.nodup_toList _)).mpr fun module => ?_)
    rw [hmodules, Finset.mem_toList]
  refine ⟨hnodup, hmodules, fun guildId => registers_of_reads rfl (.inl rfl) (hperm guildId), fun guildId => ?_⟩
  refine registers_of_reads rfl ?_ (hperm guildId)
  by_cases hempty : commandsOf registry (db.modulesOf guildId) = []
  · refine .inr ⟨fun hneeded => hneeded ?_, ?_⟩
    · exact ((hperm guildId).symm.trans (hempty ▸ List.Perm.refl _)).eq_nil
    · dsimp only
      rw [hempty]
      rfl
  · refine .inl ?_
    dsimp only
    rw [if_neg (by simpa using hempty)]

/-- A guild has one row or none. -/
theorem agrees_iff : Agrees registry db enabled ↔
    ∀ guildId, enabled guildId = (db.guildModules.row guildId).elim ∅ fun module => {module} := by
  have hmem : ∀ guildId module, module ∈ db.modulesOf guildId ↔ db.guildModules.row guildId = some module :=
    fun guildId module => Option.mem_toList
  constructor
  · intro h guildId
    ext module
    rw [← h.modules, hmem]
    cases db.guildModules.row guildId with
    | none => simp
    | some module' => simp [eq_comm]
  · intro h
    refine .of_modules (fun guildId => ?_) fun guildId module => ?_
    · unfold Database.modulesOf
      cases db.guildModules.row guildId <;> simp
    · rw [hmem, h]
      cases db.guildModules.row guildId with
      | none => simp
      | some module' => simp [eq_comm]

theorem row_run (db : Database) (call : ModuleCall) {guildId : GuildId} (h : guildId ≠ call.guildId) :
    (call.run db).guildModules.row guildId = db.guildModules.row guildId := by
  cases call with
  | enable other module =>
    show (db.enableModule other module).guildModules.row guildId = _
    unfold Database.enableModule
    split
    · rfl
    · exact Table.row_upsert_of_ne _ h _
  | disable other module =>
    have hne : (guildId == other) = false := beq_false_of_ne h
    cases hrow : db.guildModules.row guildId <;> simp [ModuleCall.run, Database.disableModule, hne, hrow]

/-- One call keeps the table in step with the sets, if it does not enable a second module. -/
theorem agrees_step (h : Agrees registry db enabled) (call : ModuleCall) :
    Agrees registry (call.run db) (call.apply enabled) ↔ call.Alone enabled := by
  rw [agrees_iff] at h ⊢
  -- only the guild of the call matters
  have hown : (∀ guildId, call.apply enabled guildId =
      ((call.run db).guildModules.row guildId).elim ∅ fun module => {module}) ↔
        call.apply enabled call.guildId =
          ((call.run db).guildModules.row call.guildId).elim ∅ fun module => {module} := by
    refine ⟨fun hall => hall _, fun hcall guildId => ?_⟩
    by_cases hguild : guildId = call.guildId
    · rw [hguild, hcall]
    · rw [row_run db call hguild, ← h guildId]
      cases call <;> exact Function.update_of_ne hguild ..
  rw [hown]
  have henabled := h call.guildId
  cases call with
  | enable guildId module =>
    simp only [ModuleCall.apply, ModuleCall.run, ModuleCall.guildId, ModuleCall.Alone, Function.update_self,
      Database.enableModule] at henabled ⊢
    rw [henabled]
    cases hrow : db.guildModules.row guildId with
    | none => simp
    | some other =>
      have hsame : insert module {other} = ({other} : Finset String) ↔ other = module := by
        rw [Finset.insert_eq_self, Finset.mem_singleton, eq_comm]
      simpa [hrow] using hsame
  | disable guildId module =>
    simp only [ModuleCall.apply, ModuleCall.run, ModuleCall.guildId, ModuleCall.Alone, Function.update_self,
      Database.disableModule] at henabled ⊢
    rw [henabled, iff_true]
    cases hrow : db.guildModules.row guildId with
    | none => simp [hrow]
    | some other =>
      by_cases hother : other = module
      · simp [hrow, hother, Option.filter]
      · simp [hrow, hother, Option.filter, Finset.erase_eq_of_notMem, Ne.symm hother]

end Agrees

/-- The modules that the table has for each guild. -/
def enabledIn (db : Database) (guildId : GuildId) : Finset String := (db.modulesOf guildId).toFinset

/-- After each of the calls the table holds the enabled modules and the handlers register their commands, and no call
changes another guild's rows. -/
def SetPerGuild (registry : Registry F) (db : Database) (calls : List ModuleCall) : Prop :=
  (∀ pre, pre <+: calls →
    Agrees registry (pre.foldl ModuleCall.run db) (pre.foldl ModuleCall.apply (enabledIn db))) ∧
  ∀ pre call, pre ++ [call] <+: calls → ∀ guildId ≠ call.guildId,
    ((pre ++ [call]).foldl ModuleCall.run db).modulesOf guildId = (pre.foldl ModuleCall.run db).modulesOf guildId

/-- The table keeps a set of modules for each guild exactly if no module is enabled for a guild that has another
one enabled. -/
theorem set_per_guild_iff (registry : Registry F) (db : Database) (calls : List ModuleCall) :
    SetPerGuild registry db calls ↔ AllSteps ModuleCall.apply ModuleCall.Alone (enabledIn db) calls := by
  have hothers : ∀ pre call, pre ++ [call] <+: calls → ∀ guildId ≠ call.guildId,
      ((pre ++ [call]).foldl ModuleCall.run db).modulesOf guildId =
        (pre.foldl ModuleCall.run db).modulesOf guildId := by
    intro pre call _ guildId hne
    rw [List.foldl_append]
    exact congrArg Option.toList (row_run _ call hne)
  have hstart : Agrees registry db (enabledIn db) := agrees_iff.mpr fun guildId => by
    unfold enabledIn Database.modulesOf
    cases db.guildModules.row guildId <;> rfl
  -- the table and the sets side by side
  have hrun : (∀ pre, pre <+: calls → Agrees registry
        (pre.foldl (fun s call => (call.run s.1, call.apply s.2)) (db, enabledIn db)).1
        (pre.foldl (fun s call => (call.run s.1, call.apply s.2)) (db, enabledIn db)).2) ↔
      AllSteps (fun s call => (call.run s.1, call.apply s.2)) (fun s call => call.Alone s.2) (db, enabledIn db)
        calls :=
    forall_prefix_iff_allSteps (D := fun _ => True) (fun _ => True)
      (fun s : Database × (GuildId → Finset String) => Agrees registry s.1 s.2) (fun _ _ _ _ => trivial)
      (fun _ call _ _ hgood => agrees_step hgood call) (fun _ _ => trivial) trivial hstart
  rw [SetPerGuild, and_iff_left hothers]
  simp only [foldl_pair] at hrun
  rw [hrun]
  exact allSteps_view Prod.snd (fun _ _ => rfl) _ calls

def moduleGuild : GuildId := ⟨111, by decide⟩

/-- Both calls succeed, and the second module is not stored. -/
theorem second_module_not_stored :
    let db := Database.empty.touch moduleGuild
    let enabled := db.enableModule moduleGuild "emoji"
    Statement.Answers (.enableModule moduleGuild "emoji") db () enabled ∧
      Statement.Answers (.enableModule moduleGuild "stats") enabled () enabled ∧
      enabled.modulesOf moduleGuild = ["emoji"] ∧
      ¬ SetPerGuild (Registry.new : Registry Named) db [.enable moduleGuild "emoji", .enable moduleGuild "stats"] := by
  refine ⟨⟨fun _ => rfl, rfl⟩, ⟨fun _ => rfl, rfl⟩, rfl, fun h => ?_⟩
  have hstats := ((h.1 _ (List.prefix_refl _)).modules moduleGuild "stats").mpr (by
    simp [ModuleCall.apply])
  exact absurd hstats (by decide)

end Tulpje.Core
