import Tulpje.Framework.Registry
import Tulpje.Lib.Joined

/-!
# Commands: registration and dispatch

`extract_command` of `tulpje-framework/src/interaction.rs` against `ModuleBuilder::command` and
`Registry::register`. Both join the names on the way to a leaf by spaces. `Sends` is what Discord can send for
the definition that `build` makes of a builder (`sends_build_iff`): the names on the way to a leaf, and the
leaf's value options.

The maps of the modules are merged, so a leaf is found again if no other leaf has its joined name. Names without
spaces can be read off the joined text; a context-menu command may have spaces in its name.
-/

namespace Tulpje.Framework

open Lib

variable {F : Funcs} {Value : Type}

/-! ### Payloads -/

/-- `Value` are the values of the options that are neither subcommands nor groups. -/
inductive CommandDataOption (Value : Type)
  | value (name : String) (value : Value)
  | subCommand (name : String) (options : List (CommandDataOption Value))
  | subCommandGroup (name : String) (options : List (CommandDataOption Value))

namespace CommandDataOption

def isValue : CommandDataOption Value → Bool
  | value _ _ => true
  | _ => false

/-- The name of a subcommand or group, and its options. -/
def subOptions : CommandDataOption Value → Option (String × List (CommandDataOption Value))
  | subCommand name options | subCommandGroup name options => some (name, options)
  | value _ _ => none

theorem sizeOf_findSome? {options sub : List (CommandDataOption Value)} {name : String}
    (h : options.findSome? subOptions = some (name, sub)) : sizeOf sub < sizeOf options := by
  obtain ⟨option, hmem, hsub⟩ := List.exists_of_findSome?_eq_some h
  have hlt := List.sizeOf_lt_of_mem hmem
  have hinner : sizeOf sub < sizeOf option := by
    cases option with
    | value name value => cases hsub
    | subCommand name options =>
      cases hsub
      rw [subCommand.sizeOf_spec]
      omega
    | subCommandGroup name options =>
      cases hsub
      rw [subCommandGroup.sizeOf_spec]
      omega
  omega

end CommandDataOption

structure CommandData (Value : Type) where
  name : String
  options : List (CommandDataOption Value)

/-- `parents.join(" ")`. -/
def joined (parents : List String) : String := " ".intercalate parents

def extractCommand (name : String) (options : List (CommandDataOption Value)) (parents : List String) :
    String × List (CommandDataOption Value) :=
  let parents := parents ++ [name]
  match _ : options.findSome? CommandDataOption.subOptions with
  | some (name, options) => extractCommand name options parents
  | none => (joined parents, options)
termination_by sizeOf options
decreasing_by exact CommandDataOption.sizeOf_findSome? ‹_›

/-- The call in `parse`. -/
def CommandData.extract (command : CommandData Value) : String × List (CommandDataOption Value) :=
  extractCommand command.name command.options []

/-! ### Leaves -/

/-- A subcommand in a group, a subcommand, or a command without either, with the names on the way to it. -/
structure Leaf (F : Funcs) where
  path : List String
  func : Option F.CommandFunc

def SubCommandBuilder.leaf (parents : List String) (self : SubCommandBuilder F) : Leaf F :=
  ⟨parents ++ [self.name], self.func⟩

def SubCommandGroupBuilder.leaves (parents : List String) (self : SubCommandGroupBuilder F) : List (Leaf F) :=
  self.commands.map (SubCommandBuilder.leaf (parents ++ [self.name]))

namespace CommandBuilder

/-- The leaves below a command, with the names below its own. -/
def below (self : CommandBuilder F) : List (Leaf F) :=
  self.groups.flatMap (SubCommandGroupBuilder.leaves []) ++ self.subcommands.map (SubCommandBuilder.leaf []) ++
    if self.subcommands.isEmpty && self.groups.isEmpty then [⟨[], self.func⟩] else []

/-- The name that a leaf is registered under. -/
def leafName (self : CommandBuilder F) (leaf : Leaf F) : String := joined (self.name :: leaf.path)

end CommandBuilder

/-- The options of a payload: one group or subcommand for each name, then the value options. -/
def optionsFor (values : List (CommandDataOption Value)) : List String → List (CommandDataOption Value)
  | [] => values
  | [subcommand] => [.subCommand subcommand values]
  | group :: rest => [.subCommandGroup group (optionsFor values rest)]

def CommandOptionType.isValue : CommandOptionType → Bool
  | subCommand | subCommandGroup => false
  | _ => true

/-- What Discord can send for a command with these options. -/
inductive Sends (defs : List CommandOption) (values : List (CommandDataOption Value)) :
    List (CommandDataOption Value) → Prop
  | command : (∀ d ∈ defs, d.kind.isValue = true) → Sends defs values values
  | subCommand (d : CommandOption) : d ∈ defs → d.kind = .subCommand →
      Sends defs values [.subCommand d.name values]
  | subCommandInGroup (d e : CommandOption) : d ∈ defs → d.kind = .subCommandGroup →
      e ∈ d.options.getD [] → e.kind = .subCommand →
        Sends defs values [.subCommandGroup d.name [.subCommand e.name values]]

theorem CommandBuilder.mem_below {c : CommandBuilder F} {leaf : Leaf F} : leaf ∈ c.below ↔
    (∃ g ∈ c.groups, ∃ s ∈ g.commands, leaf = ⟨[g.name, s.name], s.func⟩) ∨
      (∃ s ∈ c.subcommands, leaf = ⟨[s.name], s.func⟩) ∨
      (c.subcommands = [] ∧ c.groups = []) ∧ leaf = ⟨[], c.func⟩ := by
  have hown : leaf ∈ (if c.subcommands.isEmpty && c.groups.isEmpty then [(⟨[], c.func⟩ : Leaf F)] else []) ↔
      (c.subcommands = [] ∧ c.groups = []) ∧ leaf = ⟨[], c.func⟩ := by
    rw [List.mem_ite_nil_right, Bool.and_eq_true, List.isEmpty_iff, List.isEmpty_iff, List.mem_singleton]
  rw [below, List.mem_append, List.mem_append, hown, or_assoc]
  simp only [List.mem_flatMap, SubCommandGroupBuilder.leaves, List.mem_map, SubCommandBuilder.leaf, eq_comm,
    List.nil_append, List.singleton_append]

theorem CommandBuilder.mem_build_options {c : CommandBuilder F} {d : CommandOption} : d ∈ c.build.options ↔
    d ∈ c.options ∨ (∃ g ∈ c.groups, g.build = d) ∨ ∃ s ∈ c.subcommands, s.build = d := by
  rw [build, List.mem_append, List.mem_append, List.mem_map, List.mem_map, or_assoc]

/-- The payloads that Discord can send for a registered command are those of its leaves. -/
theorem sends_build_iff {c : CommandBuilder F} (hoptions : ∀ d ∈ c.options, d.kind.isValue = true)
    {values options : List (CommandDataOption Value)} :
    Sends c.build.options values options ↔ ∃ leaf ∈ c.below, options = optionsFor values leaf.path := by
  constructor
  · intro h
    cases h with
    | command hall =>
      have hgroups : c.groups = [] := List.eq_nil_iff_forall_not_mem.mpr fun g hg => by
        cases hall g.build (CommandBuilder.mem_build_options.mpr (.inr (.inl ⟨g, hg, rfl⟩)))
      have hsubs : c.subcommands = [] := List.eq_nil_iff_forall_not_mem.mpr fun s hs => by
        cases hall s.build (CommandBuilder.mem_build_options.mpr (.inr (.inr ⟨s, hs, rfl⟩)))
      exact ⟨⟨[], c.func⟩, CommandBuilder.mem_below.mpr (.inr (.inr ⟨⟨hsubs, hgroups⟩, rfl⟩)), rfl⟩
    | subCommand d hd hkind =>
      rcases CommandBuilder.mem_build_options.mp hd with hd | ⟨g, -, rfl⟩ | ⟨s, hs, rfl⟩
      · have hvalue := hoptions d hd
        rw [hkind] at hvalue
        cases hvalue
      · cases hkind
      · exact ⟨_, CommandBuilder.mem_below.mpr (.inr (.inl ⟨s, hs, rfl⟩)), rfl⟩
    | subCommandInGroup d e hd hkind he hsub =>
      rcases CommandBuilder.mem_build_options.mp hd with hd | ⟨g, hg, rfl⟩ | ⟨s, -, rfl⟩
      · have hvalue := hoptions d hd
        rw [hkind] at hvalue
        cases hvalue
      · obtain ⟨s, hs, rfl⟩ := List.mem_map.mp he
        exact ⟨_, CommandBuilder.mem_below.mpr (.inl ⟨g, hg, s, hs, rfl⟩), rfl⟩
      · cases hkind
  · rintro ⟨leaf, hleaf, rfl⟩
    rcases CommandBuilder.mem_below.mp hleaf with ⟨g, hg, s, hs, rfl⟩ | ⟨s, hs, rfl⟩ | ⟨⟨hsubs, hgroups⟩, rfl⟩
    · exact .subCommandInGroup g.build s.build (CommandBuilder.mem_build_options.mpr (.inr (.inl ⟨g, hg, rfl⟩)))
        rfl (List.mem_map_of_mem hs) rfl
    · exact .subCommand s.build (CommandBuilder.mem_build_options.mpr (.inr (.inr ⟨s, hs, rfl⟩))) rfl
    · refine .command fun d hd => ?_
      rw [CommandBuilder.mem_build_options, hsubs, hgroups] at hd
      rcases hd with hd | ⟨g, hg, -⟩ | ⟨s, hs, -⟩
      · exact hoptions d hd
      · cases hg
      · cases hs

/-! ### Extraction -/

theorem extractCommand_of_values {values : List (CommandDataOption Value)}
    (hvalues : ∀ v ∈ values, v.isValue = true) (name : String) (parents : List String) :
    extractCommand name values parents = (joined (parents ++ [name]), values) := by
  have hnone : values.findSome? CommandDataOption.subOptions = none := by
    rw [List.findSome?_eq_none_iff]
    intro v hv
    have hvalue := hvalues v hv
    cases v with
    | value name value => rfl
    | _ => cases hvalue
  rw [extractCommand]
  split
  · rename_i heq
    rw [hnone] at heq
    cases heq
  · rfl

theorem extractCommand_sub {sub : List (CommandDataOption Value)} {option : CommandDataOption Value}
    {name : String} (h : option.subOptions = some (name, sub)) (parent : String) (parents : List String) :
    extractCommand parent [option] parents = extractCommand name sub (parents ++ [parent]) := by
  have hfind : [option].findSome? CommandDataOption.subOptions = some (name, sub) := by
    rw [List.findSome?_cons, h]
  rw [extractCommand]
  split
  · rename_i heq
    rw [hfind] at heq
    cases heq
    rfl
  · rename_i heq
    rw [hfind] at heq
    cases heq

theorem extractCommand_optionsFor {values : List (CommandDataOption Value)}
    (hvalues : ∀ v ∈ values, v.isValue = true) (path : List String) (name : String) (parents : List String) :
    extractCommand name (optionsFor values path) parents = (joined (parents ++ name :: path), values) := by
  induction path generalizing name parents with
  | nil => exact extractCommand_of_values hvalues name parents
  | cons sub path ih =>
    have hsub : ∃ option, optionsFor values (sub :: path) = [option] ∧
        option.subOptions = some (sub, optionsFor values path) := by
      cases path with
      | nil => exact ⟨_, rfl, rfl⟩
      | cons => exact ⟨_, rfl, rfl⟩
    obtain ⟨option, heq, hoption⟩ := hsub
    rw [heq, extractCommand_sub hoption, ih, List.append_assoc, List.singleton_append]

/-! ### Registration -/

/-- What registering a command of a module adds to the map of handlers. -/
def entriesOf (module : String) (c : CommandBuilder F) : List (String × CommandHandler F) :=
  c.below.filterMap fun leaf => leaf.func.map fun func => (c.leafName leaf, ⟨module, c.leafName leaf, func⟩)

/-- The map is filled from the entries: each key of theirs has one of them. -/
structure Filled (commands : HashMap String (CommandHandler F)) (entries : List (String × CommandHandler F)) :
    Prop where
  mem : ∀ name handler, commands.lookup name = some handler → (name, handler) ∈ entries
  found : ∀ e ∈ entries, (commands.lookup e.1).isSome = true

section Filled
variable {commands commands' : HashMap String (CommandHandler F)} {entries entries' : List (String × CommandHandler F)}

theorem filled_empty : Filled (∅ : HashMap String (CommandHandler F)) [] := by
  refine ⟨fun name handler h => ?_, nofun⟩
  rw [Finmap.lookup_empty] at h
  cases h

theorem Filled.insert (h : Filled commands entries) (name : String) (handler : CommandHandler F) :
    Filled (commands.insert name handler) (entries ++ [(name, handler)]) := by
  constructor
  · intro name' handler' hlookup
    rcases HashMap.lookup_insert_eq_some_iff.mp hlookup with ⟨rfl, rfl⟩ | ⟨-, hrest⟩
    · exact List.mem_append_right _ (List.mem_singleton_self _)
    · exact List.mem_append_left _ (h.mem name' handler' hrest)
  · intro e he
    by_cases hname : e.1 = name
    · rw [hname, Finmap.lookup_insert]
      rfl
    · rw [Finmap.lookup_insert_of_ne _ hname]
      rcases List.mem_append.mp he with he | he
      · exact h.found e he
      · exact absurd (congrArg Prod.fst (List.mem_singleton.mp he)) hname

theorem Filled.extend (h : Filled commands entries) (h' : Filled commands' entries') :
    Filled (commands.extend commands') (entries ++ entries') := by
  constructor
  · intro name handler hlookup
    rw [HashMap.lookup_extend, Option.or_eq_some_iff] at hlookup
    rcases hlookup with hnew | ⟨-, hold⟩
    · exact List.mem_append_right _ (h'.mem name handler hnew)
    · exact List.mem_append_left _ (h.mem name handler hold)
  · intro e he
    rw [HashMap.lookup_extend, Option.isSome_or, Bool.or_eq_true]
    rcases List.mem_append.mp he with he | he
    · exact .inr (h.found e he)
    · exact .inl (h'.found e he)

/-- Where no key has two entries, each entry is found. -/
theorem Filled.lookup (h : Filled commands entries) (hunique : ∀ e ∈ entries, ∀ e' ∈ entries, e.1 = e'.1 → e = e')
    {name : String} {handler : CommandHandler F} (he : (name, handler) ∈ entries) :
    commands.lookup name = some handler := by
  obtain ⟨handler', hlookup⟩ := Option.isSome_iff_exists.mp (h.found _ he)
  have heq := hunique _ (h.mem name handler' hlookup) _ he rfl
  rw [hlookup, (Prod.mk.inj heq).2]

end Filled

/-- The leaves are registered one after the other. -/
theorem ModuleBuilder.command_eq (self : ModuleBuilder F) (c : CommandBuilder F) :
    self.command c = c.below.foldlM (fun self leaf => self.insertCommand (c.leafName leaf) leaf.func)
      { self with commandDefinitions := self.commandDefinitions ++ [c] } := by
  have hgroup : ∀ (g : SubCommandGroupBuilder F) (s : SubCommandBuilder F),
      c.name ++ " " ++ g.name ++ " " ++ s.name = c.leafName (s.leaf ([] ++ [g.name])) := fun g s => by
    simp [CommandBuilder.leafName, SubCommandBuilder.leaf, joined, String.intercalate_cons_cons,
      String.append_assoc]
  have hsub : ∀ s : SubCommandBuilder F, c.name ++ " " ++ s.name = c.leafName (s.leaf []) := fun s => by
    simp [CommandBuilder.leafName, SubCommandBuilder.leaf, joined, String.intercalate_cons_cons]
  have hown : ∀ b : ModuleBuilder F, (if c.subcommands.isEmpty && c.groups.isEmpty then
      b.insertCommand c.name c.func else pure b) =
        (if c.subcommands.isEmpty && c.groups.isEmpty then [(⟨[], c.func⟩ : Leaf F)] else []).foldlM
          (fun b leaf => b.insertCommand (c.leafName leaf) leaf.func) b := fun b => by
    split_ifs
    · rw [List.foldlM_cons, CommandBuilder.leafName, joined, String.intercalate_singleton]
      exact (bind_pure _).symm
    · rfl
  rw [CommandBuilder.below, List.foldlM_append, List.foldlM_append, foldlM_flatMap, bind_assoc]
  unfold command
  simp only [SubCommandGroupBuilder.leaves, List.foldlM_map, hgroup, hsub, hown]
  rfl

/-- A command that registers fills its entries into the map, and all its leaves have handlers. -/
theorem ModuleBuilder.command_fills {b b' : ModuleBuilder F} {c : CommandBuilder F}
    {entries : List (String × CommandHandler F)} (hb : Filled b.commands entries) (h : b.command c = some b') :
    Filled b'.commands (entries ++ entriesOf b.name c) ∧ ∀ leaf ∈ c.below, leaf.func.isSome = true := by
  have hleaves : ∀ (leaves : List (Leaf F)) {b : ModuleBuilder F} {entries : List (String × CommandHandler F)},
      Filled b.commands entries →
        leaves.foldlM (fun b leaf => b.insertCommand (c.leafName leaf) leaf.func) b = some b' →
          Filled b'.commands (entries ++ leaves.filterMap fun leaf => leaf.func.map fun func =>
              (c.leafName leaf, ⟨b.name, c.leafName leaf, func⟩)) ∧
            ∀ leaf ∈ leaves, leaf.func.isSome = true := by
    intro leaves
    induction leaves with
    | nil =>
      intro b entries hb h
      obtain rfl : b = b' := Option.some.inj h
      rw [List.filterMap_nil, List.append_nil]
      exact ⟨hb, nofun⟩
    | cons leaf leaves ih =>
      intro b entries hb h
      rw [List.foldlM_cons] at h
      obtain ⟨b₁, h₁, h⟩ := Option.bind_eq_some_iff.mp h
      obtain ⟨func, hfunc, rfl⟩ := Option.map_eq_some_iff.mp h₁
      obtain ⟨hfilled, hall⟩ := ih (hb.insert (c.leafName leaf) ⟨b.name, c.leafName leaf, func⟩) h
      rw [List.append_assoc] at hfilled
      rw [List.filterMap_cons, hfunc]
      exact ⟨hfilled, List.forall_mem_cons.mpr ⟨hfunc ▸ rfl, hall⟩⟩
  rw [command_eq] at h
  let defined : ModuleBuilder F := { b with commandDefinitions := b.commandDefinitions ++ [c] }
  exact hleaves c.below (b := defined) hb h

/-- The commands that a chain declares with `ModuleBuilder::command`. -/
def commandsIn (calls : List (BuilderCall F)) : List (CommandBuilder F) :=
  calls.filterMap fun
    | .command c => some c
    | _ => none

variable {tryFrom : String → Option Schedule}

theorem ModuleBuilder.chain_fills (calls : List (BuilderCall F)) {b b' : ModuleBuilder F}
    {entries : List (String × CommandHandler F)} (hb : Filled b.commands entries)
    (h : b.chain tryFrom calls = some b') :
    Filled b'.commands (entries ++ (commandsIn calls).flatMap (entriesOf b.name)) ∧
      ∀ c ∈ commandsIn calls, ∀ leaf ∈ c.below, leaf.func.isSome = true := by
  induction calls generalizing b entries with
  | nil =>
    obtain rfl : b = b' := Option.some.inj h
    simpa [commandsIn] using hb
  | cons call calls ih =>
    rw [chain, List.foldlM_cons] at h
    obtain ⟨b₁, h₁, hcalls⟩ := Option.bind_eq_some_iff.mp h
    rw [← chain] at hcalls
    cases call with
    | command c =>
      have hname : b₁.name = b.name := (Prod.mk.inj (ModuleBuilder.command_keeps h₁)).1
      obtain ⟨hfilled, hall⟩ := ModuleBuilder.command_fills hb h₁
      obtain ⟨hrest, hallrest⟩ := ih hfilled hcalls
      rw [List.append_assoc, hname] at hrest
      exact ⟨hrest, List.forall_mem_cons.mpr ⟨hall, hallrest⟩⟩
    | task name schedule func =>
      obtain ⟨cron, -, heq⟩ := Option.map_eq_some_iff.mp h₁
      have hb₁ : Filled b₁.commands entries := heq ▸ hb
      have hname : b₁.name = b.name := heq ▸ rfl
      exact hname ▸ ih hb₁ hcalls
    | guild | component | modal | event | service =>
      have heq := Option.some.inj h₁
      have hb₁ : Filled b₁.commands entries := heq ▸ hb
      have hname : b₁.name = b.name := heq ▸ rfl
      exact hname ▸ ih hb₁ hcalls

/-- The entries of a list of modules. -/
def allEntries (modules : List (BuiltModule tryFrom F)) : List (String × CommandHandler F) :=
  modules.flatMap fun m => (commandsIn m.calls).flatMap (entriesOf m.name)

theorem BuiltModule.fills (m : BuiltModule tryFrom F) :
    Filled m.module.commands ((commandsIn m.calls).flatMap (entriesOf m.name)) ∧
      ∀ c ∈ commandsIn m.calls, ∀ leaf ∈ c.below, leaf.func.isSome = true := by
  obtain ⟨b, hb, hm⟩ := Option.map_eq_some_iff.mp m.built
  have hnew : Filled (ModuleBuilder.new m.name : ModuleBuilder F).commands [] := filled_empty
  rw [← hm]
  exact ModuleBuilder.chain_fills m.calls hnew hb

theorem registerAll_fills (modules : List (BuiltModule tryFrom F)) :
    Filled (registerAll modules).commands (allEntries modules) := by
  induction modules using List.reverseRecOn with
  | nil => exact filled_empty
  | append_singleton modules m ih =>
    rw [registerAll, List.foldl_append, ← registerAll, allEntries, List.flatMap_append, List.flatMap_singleton]
    exact ih.extend m.fills.1

/-! ### Dispatch -/

/-- The commands of a list of modules. -/
def allCommands (modules : List (BuiltModule tryFrom F)) : List (CommandBuilder F) :=
  modules.flatMap fun m => commandsIn m.calls

/-- No name has a space. -/
def Spaceless (names : List String) : Prop := ∀ name ∈ names, ' ' ∉ name.toList

/-- The names of the groups and subcommands at the first level, and of the subcommands of each group. -/
def CommandBuilder.siblings (self : CommandBuilder F) : List (List String) :=
  (self.groups.map (·.name) ++ self.subcommands.map (·.name)) :: self.groups.map fun g => g.commands.map (·.name)

structure WellNamed (commands : List (CommandBuilder F)) : Prop where
  topLevel : (commands.map (·.name)).Nodup
  siblings : ∀ c ∈ commands, ∀ names ∈ c.siblings, names.Nodup ∧ Spaceless names
  slash : ∀ c ∈ commands, c.kind = .chatInput → Spaceless [c.name]

/-- A leaf of a context-menu command does not have the joined name of a leaf of another command. -/
def MenusApart (commands : List (CommandBuilder F)) : Prop :=
  ∀ c ∈ commands, ∀ c' ∈ commands, c.kind ≠ .chatInput → c.name ≠ c'.name →
    ∀ leaf ∈ c.below, ∀ leaf' ∈ c'.below, c.leafName leaf ≠ c'.leafName leaf'

section Dispatch
variable {commands : List (CommandBuilder F)} {c c' : CommandBuilder F} {leaf leaf' : Leaf F}

theorem CommandBuilder.path_spaceless (h : ∀ names ∈ c.siblings, Spaceless names) (hleaf : leaf ∈ c.below) :
    Spaceless leaf.path := by
  have hgroup : ∀ g ∈ c.groups, ' ' ∉ g.name.toList := fun g hg =>
    h _ (List.mem_cons_self ..) _ (List.mem_append_left _ (List.mem_map_of_mem hg))
  have hsub : ∀ s ∈ c.subcommands, ' ' ∉ s.name.toList := fun s hs =>
    h _ (List.mem_cons_self ..) _ (List.mem_append_right _ (List.mem_map_of_mem hs))
  have hinner : ∀ g ∈ c.groups, ∀ s ∈ g.commands, ' ' ∉ s.name.toList := fun g hg s hs =>
    h _ (List.mem_cons_of_mem _ (List.mem_map_of_mem hg)) _ (List.mem_map_of_mem hs)
  rcases CommandBuilder.mem_below.mp hleaf with ⟨g, hg, s, hs, rfl⟩ | ⟨s, hs, rfl⟩ | ⟨-, rfl⟩
  · exact List.forall_mem_cons.mpr ⟨hgroup g hg, List.forall_mem_singleton.mpr (hinner g hg s hs)⟩
  · exact List.forall_mem_singleton.mpr (hsub s hs)
  · exact nofun

/-- The names on the way tell the leaves of one command apart. -/
theorem CommandBuilder.leaf_ext (h : ∀ names ∈ c.siblings, names.Nodup) (hleaf : leaf ∈ c.below)
    (hleaf' : leaf' ∈ c.below) (hpath : leaf.path = leaf'.path) : leaf = leaf' := by
  have htop := List.nodup_append.mp (h _ (List.mem_cons_self ..))
  have hinner : ∀ g ∈ c.groups, (g.commands.map (·.name)).Nodup := fun g hg =>
    h _ (List.mem_cons_of_mem _ (List.mem_map_of_mem hg))
  rcases CommandBuilder.mem_below.mp hleaf with ⟨g, hg, s, hs, rfl⟩ | ⟨s, hs, rfl⟩ | ⟨hown, rfl⟩ <;>
    rcases CommandBuilder.mem_below.mp hleaf' with ⟨g', hg', s', hs', rfl⟩ | ⟨s', hs', rfl⟩ | ⟨hown', rfl⟩
  · obtain ⟨hname, hnames⟩ := List.cons.inj hpath
    obtain rfl := List.inj_on_of_nodup_map htop.1 hg hg' hname
    obtain rfl := List.inj_on_of_nodup_map (hinner g hg) hs hs' (List.cons.inj hnames).1
    rfl
  · cases (List.cons.inj hpath).2
  · cases hpath
  · cases (List.cons.inj hpath).2
  · obtain rfl := List.inj_on_of_nodup_map htop.2.1 hs hs' (List.cons.inj hpath).1
    rfl
  · cases hpath
  · cases hpath
  · cases hpath
  · rfl

/-- Leaves with one joined name belong to one command and are the same. -/
theorem leaf_unique (hnamed : WellNamed commands) (hmenus : MenusApart commands) (hc : c ∈ commands)
    (hc' : c' ∈ commands) (hleaf : leaf ∈ c.below) (hleaf' : leaf' ∈ c'.below)
    (h : c.leafName leaf = c'.leafName leaf') : c.name = c'.name ∧ (c = c' → leaf = leaf') := by
  have hpath := CommandBuilder.path_spaceless (fun names hn => (hnamed.siblings c hc names hn).2) hleaf
  have hpath' := CommandBuilder.path_spaceless (fun names hn => (hnamed.siblings c' hc' names hn).2) hleaf'
  refine ⟨by_contra fun hname => ?_, ?_⟩
  · by_cases hslash : c.kind = .chatInput
    · by_cases hslash' : c'.kind = .chatInput
      · have hnames := intercalate_injective rfl
          (List.forall_mem_cons.mpr ⟨hnamed.slash c hc hslash _ (List.mem_singleton_self _), hpath⟩)
          (List.forall_mem_cons.mpr ⟨hnamed.slash c' hc' hslash' _ (List.mem_singleton_self _), hpath'⟩)
          (List.cons_ne_nil _ _) (List.cons_ne_nil _ _) h
        exact hname (List.cons.inj hnames).1
      · exact hmenus c' hc' c hc hslash' (Ne.symm hname) leaf' hleaf' leaf hleaf h.symm
    · exact hmenus c hc c' hc' hslash hname leaf hleaf leaf' hleaf' h
  · rintro rfl
    exact CommandBuilder.leaf_ext (fun names hn => (hnamed.siblings c hc names hn).1) hleaf hleaf'
      (intercalate_cons_injective rfl c.name hpath hpath' h)

end Dispatch

theorem mem_allEntries {modules : List (BuiltModule tryFrom F)} {e : String × CommandHandler F} :
    e ∈ allEntries modules ↔ ∃ m ∈ modules, ∃ c ∈ commandsIn m.calls, ∃ leaf ∈ c.below, ∃ func,
      leaf.func = some func ∧ (c.leafName leaf, ⟨m.name, c.leafName leaf, func⟩) = e := by
  simp only [allEntries, entriesOf, List.mem_flatMap, List.mem_filterMap, Option.map_eq_some_iff]

/-- The command declared under a name, with the module that declares it. -/
theorem declared_unique {modules : List (BuiltModule tryFrom F)}
    (hnodup : ((allCommands modules).map (·.name)).Nodup) {m m' : BuiltModule tryFrom F} (hm : m ∈ modules)
    (hm' : m' ∈ modules) {c c' : CommandBuilder F} (hc : c ∈ commandsIn m.calls) (hc' : c' ∈ commandsIn m'.calls)
    (hname : c.name = c'.name) : m.name = m'.name ∧ c = c' := by
  let declared := modules.flatMap fun m => (commandsIn m.calls).map fun c => (m.name, c)
  have hmem : ∀ {m : BuiltModule tryFrom F} {c : CommandBuilder F}, m ∈ modules → c ∈ commandsIn m.calls →
      (m.name, c) ∈ declared := fun hm hc => List.mem_flatMap.mpr ⟨_, hm, List.mem_map_of_mem hc⟩
  have hnames : (declared.map fun d => d.2.name) = (allCommands modules).map (·.name) := by
    simp only [declared, allCommands, List.map_flatMap, List.map_map, Function.comp_def]
  exact Prod.mk.inj (List.inj_on_of_nodup_map (hnames ▸ hnodup) (hmem hm hc) (hmem hm' hc') hname)

/-- What `extract_command` makes of the payload for a leaf is the name under which the registry has the leaf's
handler, and the leaf's value options. -/
theorem dispatch_agrees (modules : List (BuiltModule tryFrom F)) (hnamed : WellNamed (allCommands modules))
    (hmenus : MenusApart (allCommands modules)) (m : BuiltModule tryFrom F) (hm : m ∈ modules)
    (c : CommandBuilder F) (hc : c ∈ commandsIn m.calls) (leaf : Leaf F) (hleaf : leaf ∈ c.below)
    (values : List (CommandDataOption Value)) (hvalues : ∀ v ∈ values, v.isValue = true) :
    ∃ name func, (⟨c.name, optionsFor values leaf.path⟩ : CommandData Value).extract = (name, values) ∧
      (registerAll modules).findCommand name = some ⟨m.name, name, func⟩ ∧ leaf.func = some func := by
  obtain ⟨func, hfunc⟩ := Option.isSome_iff_exists.mp (m.fills.2 c hc leaf hleaf)
  refine ⟨c.leafName leaf, func, extractCommand_optionsFor hvalues leaf.path c.name [], ?_, hfunc⟩
  refine (registerAll_fills modules).lookup ?_ (mem_allEntries.mpr ⟨m, hm, c, hc, leaf, hleaf, func, hfunc, rfl⟩)
  intro e he e' he' heq
  obtain ⟨m₁, hm₁, c₁, hc₁, leaf₁, hleaf₁, func₁, hfunc₁, rfl⟩ := mem_allEntries.mp he
  obtain ⟨m₂, hm₂, c₂, hc₂, leaf₂, hleaf₂, func₂, hfunc₂, rfl⟩ := mem_allEntries.mp he'
  have hall₁ : c₁ ∈ allCommands modules := List.mem_flatMap.mpr ⟨m₁, hm₁, hc₁⟩
  have hall₂ : c₂ ∈ allCommands modules := List.mem_flatMap.mpr ⟨m₂, hm₂, hc₂⟩
  obtain ⟨hname, hsame⟩ := leaf_unique hnamed hmenus hall₁ hall₂ hleaf₁ hleaf₂ heq
  obtain ⟨hmodule, rfl⟩ := declared_unique hnamed.topLevel hm₁ hm₂ hc₁ hc₂ hname
  obtain rfl := hsame rfl
  obtain rfl := Option.some.inj (hfunc₁.symm.trans hfunc₂)
  rw [hmodule]

/-- The module of a builder chain with one command. -/
def commandModule (tryFrom : String → Option Schedule) (name : String) (c : CommandBuilder F)
    (h : ((ModuleBuilder.new name).command c).isSome = true) : BuiltModule tryFrom F where
  name := name
  calls := [.command c]
  module := (((ModuleBuilder.new name).command c).get h).build
  built := by
    rw [ModuleBuilder.chain, List.foldlM_cons]
    change (((ModuleBuilder.new name).command c).bind some).map ModuleBuilder.build = _
    rw [Option.bind_fun_some]
    exact Option.map_eq_some_iff.mpr ⟨_, (Option.some_get h).symm, rfl⟩

/-- The message command of `tulpje_mod_emoji::build`. -/
def cloneEmojis : CommandBuilder Named := ⟨"Clone Emojis", .message, some "commands::clone", [], [], []⟩

/-- A part of the command of `tulpje_mod_pluralkit::build`. -/
def pkCommand : CommandBuilder Named :=
  ⟨"pk", .chatInput, none, [⟨"notify", [⟨"add", some "notify::add::handle", [.mk "system_id" .string none]⟩]⟩],
    [⟨"setup", some "commands::setup::handle", [.mk "system_id" .string none]⟩], []⟩

def cloneModule : BuiltModule (fun s => some ⟨s⟩) Named := commandModule _ "emoji" cloneEmojis rfl

theorem dispatch_agrees_pk :
    ∃ name func, (⟨"pk", [.subCommandGroup "notify" [.subCommand "add" [.value "system_id" 5]]]⟩ :
        CommandData Nat).extract = (name, [.value "system_id" 5]) ∧
      (registerAll [cloneModule, commandModule _ "pk" pkCommand rfl]).findCommand name =
        some ⟨"pk", name, func⟩ ∧ some "notify::add::handle" = some func := by
  have hall : allCommands [cloneModule, commandModule (fun s => some ⟨s⟩) "pk" pkCommand rfl] =
      [cloneEmojis, pkCommand] := rfl
  have hbelow : pkCommand.below = [⟨["notify", "add"], some "notify::add::handle"⟩,
      ⟨["setup"], some "commands::setup::handle"⟩] := rfl
  have hsiblings : pkCommand.siblings = [["notify", "setup"], ["add"]] := rfl
  have hclone : cloneEmojis.below = [⟨[], some "commands::clone"⟩] ∧ cloneEmojis.siblings = [[]] := ⟨rfl, rfl⟩
  refine dispatch_agrees _ ?_ ?_ (commandModule _ "pk" pkCommand rfl) (by simp) pkCommand
    (List.mem_singleton_self _) ⟨["notify", "add"], some "notify::add::handle"⟩ (hbelow ▸ List.mem_cons_self ..)
    [.value "system_id" 5] (by simp [CommandDataOption.isValue])
  · rw [hall]
    constructor
    · simp [cloneEmojis, pkCommand]
    · simp [hsiblings, hclone, Spaceless]
    · simp [cloneEmojis, pkCommand, Spaceless]
  · rw [hall]
    simp [MenusApart, hbelow, hclone, CommandBuilder.leafName, joined]
    simp [cloneEmojis, pkCommand]

/-- A message command with a subcommand. -/
def cloneMenu : CommandBuilder Named := ⟨"Clone", .message, none, [], [⟨"Emojis", some "other", []⟩], []⟩

def menuModules : List (BuiltModule (fun s => some ⟨s⟩) Named) :=
  [cloneModule, commandModule _ "other" cloneMenu rfl]

/-- A subcommand of a context-menu command takes the name of another context-menu command. -/
theorem menu_subcommand_takes_name :
    WellNamed (allCommands menuModules) ∧
      (∀ c ∈ allCommands menuModules, ∀ c' ∈ allCommands menuModules, c.kind ≠ .chatInput → c'.kind = .chatInput →
        ∀ leaf ∈ c'.below, c.name ≠ c'.leafName leaf) ∧
      ⟨[], some "commands::clone"⟩ ∈ cloneEmojis.below ∧
      (⟨"Clone Emojis", []⟩ : CommandData Nat).extract = ("Clone Emojis", []) ∧
      (registerAll menuModules).findCommand "Clone Emojis" = some ⟨"other", "Clone Emojis", "other"⟩ := by
  have hall : allCommands menuModules = [cloneEmojis, cloneMenu] := rfl
  have hsiblings : cloneEmojis.siblings = [[]] ∧ cloneMenu.siblings = [["Emojis"]] := ⟨rfl, rfl⟩
  rw [hall]
  refine ⟨⟨?_, ?_, ?_⟩, ?_, List.mem_singleton_self _, ?_, ?_⟩
  · simp [cloneEmojis, cloneMenu]
  · simp [hsiblings, Spaceless]
  · simp [cloneEmojis, cloneMenu]
  · simp [cloneEmojis, cloneMenu]
  · exact extractCommand_of_values (fun _ h => absurd h List.not_mem_nil) "Clone Emojis" []
  · have hname : cloneMenu.name ++ " " ++ "Emojis" = "Clone Emojis" := by decide
    change (HashMap.extend _ (Finmap.insert _ _ ∅)).lookup _ = _
    rw [HashMap.lookup_extend, hname, Finmap.lookup_insert]
    rfl

end Tulpje.Framework
