import Tulpje.Framework.Color
import Tulpje.Framework.Module
import Tulpje.Pluralkit.Fronters

/-!
# Member roles

`roles/update.rs`: what `handle` makes of the roles of a guild and the members of a system, and the limit it
checks. The operations come in the order in which a `HashSet` gives the names of all roles, which is any order.

The check is about the roles in the end. `stays_below_limit_iff` is about the roles on the way.
-/

namespace Tulpje.Pluralkit

open Framework (HashMap Color)
open Twilight (Id)

/-- The fields of a role of a guild that are looked at. -/
structure GuildRole where
  id : Id .role
  name : String
  primaryColor : UInt32
  mentionable : Bool

/-- A member with the colour that PluralKit has for it. -/
structure SystemMember extends Member where
  color : Option String

structure MemberRole where
  roleId : Option (Id .role)
  uuid : Option Uuid
  name : String
  color : UInt32
  mentionable : Bool

def MemberRole.shouldUpdate (self desired : MemberRole) : Bool :=
  self.color != desired.color || self.mentionable != desired.mentionable

inductive ChangeOperation
  | create (name : String) (uuid : Uuid) (color : UInt32)
  | delete (id : Id .role)
  | update (id : Id .role) (color : UInt32) (mentionable : Bool)
  deriving DecidableEq

def pkColorToDiscord (hex : Option String) : UInt32 :=
  (hex.elim .default fun hex => (Color.fromStr hex).getD .default).value

def suffix : List Char := " (Alter)".toList

/-- The text before the first `sep`. -/
def splitFirst (sep : List Char) : List Char → List Char
  | [] => []
  | c :: rest => if sep.isPrefixOf (c :: rest) then [] else c :: splitFirst sep rest

/-- The pronouns in parentheses go. -/
def roleName (member : Member) : String :=
  String.ofList (splitFirst " (".toList (getMemberName member).toList ++ suffix)

def getDesiredRoles (members : List SystemMember) : HashMap String MemberRole :=
  HashMap.collect (members.map fun m =>
    (roleName m.toMember, ⟨none, some m.uuid, roleName m.toMember, pkColorToDiscord m.color, true⟩))

def getCurrentRoles (roles : List GuildRole) : HashMap String MemberRole :=
  HashMap.collect ((roles.filter fun v => suffix.isSuffixOf v.name.toList).map fun v =>
    (v.name, ⟨some v.id, none, v.name, v.primaryColor, v.mentionable⟩))

/-- The operation for one name; the outer `none` is a panic. -/
def roleOp (current desired : HashMap String MemberRole) (role : String) : Option (Option ChangeOperation) :=
  match current.lookup role, desired.lookup role with
  | some current, some desired =>
    if current.shouldUpdate desired then
      current.roleId.map fun id => some (.update id desired.color desired.mentionable)
    else some none
  | none, some desired => some (some (.create desired.name (desired.uuid.getD ⟨0⟩) desired.color))
  | some current, none => current.roleId.map fun id => some (.delete id)
  | none, none => none

/-- `get_role_ops` with the names in this order. -/
def getRoleOps (current desired : HashMap String MemberRole) (allRoles : List String) :
    Option (List ChangeOperation) :=
  (allRoles.mapM (roleOp current desired)).map List.reduceOption

/-- An order in which a `HashSet` may give the names. -/
def IsOrder (current desired : HashMap String MemberRole) (allRoles : List String) : Prop :=
  allRoles.Nodup ∧ ∀ role, role ∈ allRoles ↔ role ∈ current.keys ∪ desired.keys

def discordRoleLimit : Nat := 250

/-- The roles that there will be. -/
def totalRolesWithMembers (roles : List GuildRole) (members : List SystemMember) : Nat :=
  members.length + (roles.length - (getCurrentRoles roles).keys.card)

/-- `handle` goes on after its check. -/
def passesCheck (roles : List GuildRole) (members : List SystemMember) : Bool :=
  totalRolesWithMembers roles members ≤ discordRoleLimit

/-- The number of roles after an operation. -/
def ChangeOperation.count (n : Nat) : ChangeOperation → Nat
  | create .. => n + 1
  | delete _ => n - 1
  | update .. => n

/-! ### Operations in any order -/

def ChangeOperation.isCreate : ChangeOperation → Bool
  | create .. => true
  | _ => false

theorem count_le (ops : List ChangeOperation) (n : Nat) :
    ops.foldl ChangeOperation.count n ≤ n + ops.countP ChangeOperation.isCreate := by
  induction ops generalizing n with
  | nil => exact Nat.le_add_right n 0
  | cons op ops ih =>
    have hrest := ih (op.count n)
    rw [List.foldl_cons, List.countP_cons]
    cases op <;> simp only [ChangeOperation.count, ChangeOperation.isCreate] at hrest ⊢ <;> simp <;> omega

theorem count_creates {ops : List ChangeOperation} (h : ∀ op ∈ ops, op.isCreate = true) (n : Nat) :
    ops.foldl ChangeOperation.count n = n + ops.length := by
  induction ops generalizing n with
  | nil => rfl
  | cons op ops ih =>
    obtain ⟨hop, hops⟩ := List.forall_mem_cons.mp h
    rw [List.foldl_cons, ih hops, List.length_cons]
    cases op with
    | create => simp only [ChangeOperation.count]; omega
    | _ => cases hop

section Ops
variable {current desired : HashMap String MemberRole} {allRoles : List String}

/-- The names that get a new role. -/
def newNames (current desired : HashMap String MemberRole) : Finset String := desired.keys \ current.keys

/-- Every current role has an id. -/
def HasIds (current : HashMap String MemberRole) : Prop :=
  ∀ name role, current.lookup name = some role → role.roleId.isSome = true

theorem mem_newNames {role : String} : role ∈ newNames current desired ↔
    (desired.lookup role).isSome = true ∧ current.lookup role = none := by
  rw [newNames, Finset.mem_sdiff, Finmap.mem_keys, Finmap.mem_keys, Finmap.lookup_isSome, Finmap.lookup_eq_none]

/-- No name panics, and the new ones are created. -/
theorem roleOp_of_mem (hids : HasIds current) {role : String} (h : role ∈ current.keys ∪ desired.keys) :
    ∃ op, roleOp current desired role = some op ∧
      if role ∈ newNames current desired then ∃ created, op = some created ∧ created.isCreate = true
      else op.all (fun op => !op.isCreate) = true := by
  have hsome : (current.lookup role).isSome = true ∨ (desired.lookup role).isSome = true := by
    rwa [Finset.mem_union, Finmap.mem_keys, Finmap.mem_keys, ← Finmap.lookup_isSome, ← Finmap.lookup_isSome] at h
  simp only [mem_newNames]
  unfold roleOp
  cases hc : current.lookup role with
  | none =>
    cases hd : desired.lookup role with
    | none => simp [hc, hd] at hsome
    | some d => exact ⟨_, rfl, by simp [ChangeOperation.isCreate]⟩
  | some c =>
    obtain ⟨id, hid⟩ := Option.isSome_iff_exists.mp (hids role c hc)
    cases hd : desired.lookup role with
    | none => exact ⟨some (.delete id), by simp [hid], by simp [ChangeOperation.isCreate]⟩
    | some d =>
      by_cases hupdate : c.shouldUpdate d = true
      · refine ⟨some (.update id d.color d.mentionable), by simp [hupdate, hid], ?_⟩
        simp [ChangeOperation.isCreate]
      · exact ⟨none, by simp [hupdate], by simp⟩

theorem getRoleOps_cons (role : String) (rest : List String) : getRoleOps current desired (role :: rest) =
    (roleOp current desired role).bind fun op => (getRoleOps current desired rest).map (op.toList ++ ·) := by
  unfold getRoleOps
  rw [List.mapM_cons]
  cases roleOp current desired role with
  | none => rfl
  | some op =>
    cases List.mapM (roleOp current desired) rest with
    | none => rfl
    | some ops => cases op <;> rfl

theorem getRoleOps_append (names rest : List String) : getRoleOps current desired (names ++ rest) =
    (getRoleOps current desired names).bind fun ops => (getRoleOps current desired rest).map (ops ++ ·) := by
  induction names with
  | nil =>
    show getRoleOps current desired rest = (getRoleOps current desired rest).map id
    rw [Option.map_id]
    rfl
  | cons role names ih =>
    rw [List.cons_append, getRoleOps_cons, getRoleOps_cons, ih]
    cases roleOp current desired role with
    | none => rfl
    | some op =>
      cases getRoleOps current desired names with
      | none => rfl
      | some ops =>
        cases getRoleOps current desired rest with
        | none => rfl
        | some last => simp

/-- The operations for some of the names. -/
theorem getRoleOps_of_mem (hids : HasIds current) (hmem : ∀ role ∈ allRoles, role ∈ current.keys ∪ desired.keys) :
    ∃ ops, getRoleOps current desired allRoles = some ops ∧
      ops.countP ChangeOperation.isCreate = allRoles.countP (· ∈ newNames current desired) ∧
      ((∀ role ∈ allRoles, role ∈ newNames current desired) →
        ops.length = allRoles.length ∧ ∀ op ∈ ops, op.isCreate = true) := by
  induction allRoles with
  | nil => exact ⟨[], rfl, rfl, fun _ => ⟨rfl, nofun⟩⟩
  | cons role rest ih =>
    obtain ⟨hrole, hrest⟩ := List.forall_mem_cons.mp hmem
    obtain ⟨ops, hops, hcount, hall⟩ := ih hrest
    obtain ⟨op, hop, hcreate⟩ := roleOp_of_mem hids hrole
    refine ⟨op.toList ++ ops, by rw [getRoleOps_cons, hop, hops]; rfl, ?_, ?_⟩
    · rw [List.countP_append, List.countP_cons, hcount]
      split_ifs at hcreate with hnew
      · obtain ⟨created, rfl, hcreated⟩ := hcreate
        simp [hcreated, hnew, Nat.add_comm]
      · cases op with
        | none => simp [hnew]
        | some op => simpa [hnew] using hcreate
    · intro hnames
      obtain ⟨hnew, hnames⟩ := List.forall_mem_cons.mp hnames
      obtain ⟨hlength, hcreates⟩ := hall hnames
      rw [if_pos hnew] at hcreate
      obtain ⟨created, rfl, hcreated⟩ := hcreate
      refine ⟨by simp [hlength], ?_⟩
      exact List.forall_mem_cons.mpr ⟨hcreated, hcreates⟩

/-- Some order begins with the roles to create. -/
theorem exists_creates_first (hids : HasIds current) (desired : HashMap String MemberRole) :
    ∃ allRoles ops pre, IsOrder current desired allRoles ∧
      getRoleOps current desired allRoles = some ops ∧ pre <+: ops ∧
        ∀ n, pre.foldl ChangeOperation.count n = n + (newNames current desired).card := by
  let created := (newNames current desired).toList
  let others := ((current.keys ∪ desired.keys) \ newNames current desired).toList
  have hsub : newNames current desired ⊆ current.keys ∪ desired.keys :=
    Finset.sdiff_subset.trans Finset.subset_union_right
  have horder : IsOrder current desired (created ++ others) := by
    refine ⟨List.Nodup.append (Finset.nodup_toList _) (Finset.nodup_toList _) ?_, fun role => ?_⟩
    · intro role hcreated hothers
      exact (Finset.mem_sdiff.mp (Finset.mem_toList.mp hothers)).2 (Finset.mem_toList.mp hcreated)
    · rw [List.mem_append, Finset.mem_toList, Finset.mem_toList, ← Finset.mem_union,
        Finset.union_sdiff_of_subset hsub]
  have hmem := fun role => (horder.2 role).mp
  obtain ⟨pre, hpre, -, hcreates⟩ := getRoleOps_of_mem hids fun role h => hmem role (List.mem_append_left _ h)
  obtain ⟨rest, hrest, -, -⟩ := getRoleOps_of_mem hids fun role h => hmem role (List.mem_append_right _ h)
  obtain ⟨hlength, hall⟩ := hcreates fun role h => Finset.mem_toList.mp h
  have hops : getRoleOps current desired (created ++ others) = some (pre ++ rest) := by
    rw [getRoleOps_append, hpre, hrest]
    rfl
  refine ⟨_, pre ++ rest, pre, horder, hops, List.prefix_append .., fun n => ?_⟩
  rw [count_creates hall, hlength, Finset.length_toList]

end Ops

/-! ### The limit -/

theorem hasIds_getCurrentRoles (roles : List GuildRole) : HasIds (getCurrentRoles roles) := by
  intro name role hrole
  obtain ⟨v, -, heq⟩ := List.mem_map.mp (HashMap.mem_of_lookup_collect hrole)
  rw [← (Prod.mk.inj heq).2]
  rfl

/-- After each operation of each order there are at most as many roles as a guild may have. -/
def StaysBelowLimit (roles : List GuildRole) (members : List SystemMember) : Prop :=
  roles.length ≤ discordRoleLimit → passesCheck roles members = true →
    ∀ allRoles, IsOrder (getCurrentRoles roles) (getDesiredRoles members) allRoles →
      ∃ ops, getRoleOps (getCurrentRoles roles) (getDesiredRoles members) allRoles = some ops ∧
        ∀ pre, pre <+: ops → pre.foldl ChangeOperation.count roles.length ≤ discordRoleLimit

/-- The limit holds on the way exactly if there is room for the new roles beside all old ones. -/
theorem stays_below_limit_iff (roles : List GuildRole) (members : List SystemMember) :
    StaysBelowLimit roles members ↔
      (roles.length ≤ discordRoleLimit → passesCheck roles members = true →
        roles.length + (newNames (getCurrentRoles roles) (getDesiredRoles members)).card ≤ discordRoleLimit) := by
  have hids := hasIds_getCurrentRoles roles
  refine forall_congr' fun _ => forall_congr' fun _ => ⟨fun h => ?_, fun hroom allRoles horder => ?_⟩
  · obtain ⟨allRoles, ops, pre, horder, hops, hpre, hcount⟩ := exists_creates_first hids (getDesiredRoles members)
    obtain ⟨ops', hops', hlimit⟩ := h allRoles horder
    obtain rfl := Option.some.inj (hops.symm.trans hops')
    exact hcount roles.length ▸ hlimit pre hpre
  · obtain ⟨ops, hops, hcount, -⟩ := getRoleOps_of_mem hids fun role h => (horder.2 role).mp h
    have hcreates : ops.countP ChangeOperation.isCreate ≤
        (newNames (getCurrentRoles roles) (getDesiredRoles members)).card := by
      rw [hcount, List.countP_eq_length_filter, ← List.toFinset_card_of_nodup (horder.1.filter _)]
      refine Finset.card_le_card fun role hrole => ?_
      exact of_decide_eq_true (List.mem_filter.mp (List.mem_toFinset.mp hrole)).2
    refine ⟨ops, hops, fun pre hpre => (count_le pre _).trans (le_trans ?_ hroom)⟩
    exact Nat.add_le_add_left ((hpre.sublist.countP_le).trans hcreates) _

def otherRole (n : Fin 249) : GuildRole where
  id := ⟨UInt64.ofNat (n + 200), fun h => by
    have hget := congrArg UInt64.toNat h
    simp at hget
    omega⟩
  name := "mod"
  primaryColor := 0
  mentionable := false

/-- A full guild with one role for a member who is not in the system any more. -/
def fullGuild : List GuildRole := ⟨⟨121, by decide⟩, "Old (Alter)", 0, true⟩ :: (List.finRange 249).map otherRole

def newMember : SystemMember := ⟨⟨⟨5⟩, "New", none⟩, none⟩

theorem getCurrentRoles_fullGuild : getCurrentRoles fullGuild =
    HashMap.collect [("Old (Alter)", ⟨some ⟨121, by decide⟩, none, "Old (Alter)", 0, true⟩)] := by
  have hothers : ((List.finRange 249).map otherRole).filter (fun v => suffix.isSuffixOf v.name.toList) = [] := by
    rw [List.filter_eq_nil_iff]
    intro v hv
    obtain ⟨n, -, rfl⟩ := List.mem_map.mp hv
    have hname : ¬ suffix.isSuffixOf "mod".toList = true := by decide
    exact hname
  have hold : suffix.isSuffixOf "Old (Alter)".toList = true := by decide
  rw [getCurrentRoles, fullGuild, List.filter_cons, hothers]
  dsimp only
  rw [hold]
  rfl

/-- The check passes, and the new role may come before the old one is gone. -/
theorem exceeds_limit : ¬ StaysBelowLimit fullGuild [newMember] := by
  intro h
  have hlength : fullGuild.length = 250 := by simp [fullGuild]
  have hkeys : (getCurrentRoles fullGuild).keys = {"Old (Alter)"} := by
    ext name
    rw [getCurrentRoles_fullGuild, Finmap.mem_keys, HashMap.mem_collect, Finset.mem_singleton]
    exact List.mem_singleton
  have hpasses : passesCheck fullGuild [newMember] = true := by
    rw [passesCheck, totalRolesWithMembers, hkeys, hlength]
    rfl
  have hnew : newNames (getCurrentRoles fullGuild) (getDesiredRoles [newMember]) = {"New (Alter)"} := by
    have hdesired : (getDesiredRoles [newMember]).keys = {"New (Alter)"} := by
      ext name
      rw [Finmap.mem_keys, getDesiredRoles, HashMap.mem_collect, Finset.mem_singleton]
      exact List.mem_singleton
    rw [newNames, hkeys, hdesired]
    decide
  obtain ⟨allRoles, ops, pre, horder, hops, hpre, hcount⟩ :=
    exists_creates_first (hasIds_getCurrentRoles fullGuild) (getDesiredRoles [newMember])
  obtain ⟨ops', hops', hlimit⟩ := h hlength.le hpasses allRoles horder
  obtain rfl := Option.some.inj (hops.symm.trans hops')
  have htoo : 250 + 1 ≤ discordRoleLimit := by
    have hall := hlimit pre hpre
    rwa [hcount, hnew, hlength, Finset.card_singleton] at hall
  exact absurd htoo (by decide)

end Tulpje.Pluralkit
