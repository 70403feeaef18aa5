import Tulpje.Lib.Command
import Tulpje.Lib.Lists
import Tulpje.Lib.Numbered
import Tulpje.Pluralkit.Roles

/-!
# The operations on the roles

The loops of `handle` in `roles/update.rs` that execute what `get_role_ops` returns and assign the roles, against a
Discord that does what it is asked for. The map of the current roles stands for some roles of the guild (`Holds`).
Each operation settles one name of the map, and no other one's: `get_role_ops_settles`.
-/

namespace Tulpje.Pluralkit.RoleOps

open Framework (HashMap)
open Lib
open Twilight (Id)

/-! ### Discord -/

inductive Call
  | updateRole (guildId : GuildId) (roleId : Id .role) (color : UInt32) (mentionable : Bool)
  | createRole (guildId : GuildId) (name : String) (color : UInt32) (mentionable : Bool)
  | deleteRole (guildId : GuildId) (roleId : Id .role)
  | addGuildMemberRole (guildId : GuildId) (userId : Id .user) (roleId : Id .role)
  /-- `tracing::warn!`. -/
  | warn (message : String)

@[reducible] def Call.Reply : Call → Type
  | createRole .. => Except Error (Except Error GuildRole)
  | updateRole .. | deleteRole .. | addGuildMemberRole .. => Except Error Unit
  | warn _ => Unit

/-- The roles of the guild. -/
abbrev Discord := Numbered GuildRole.id

def restyle (color : UInt32) (mentionable : Bool) (role : GuildRole) : GuildRole :=
  { role with primaryColor := color, mentionable }

theorem id_restyle (color : UInt32) (mentionable : Bool) (role : GuildRole) :
    (restyle color mentionable role).id = role.id := rfl

/-- Every call succeeds as long as there are ids for new roles. -/
def eval : (o : Call) → Discord → o.Reply × Discord
  | .updateRole _ roleId color mentionable, s =>
    (.ok (), s.modify roleId (restyle color mentionable) (id_restyle color mentionable))
  | .createRole _ name color mentionable, s =>
    match s.create (fun id => ⟨id, name, color, mentionable⟩) fun _ => rfl with
    | none => (.error "no id for a new role", s)
    | some (role, t) => (.ok (.ok role), t)
  | .deleteRole _ roleId, s => (.ok (), s.delete roleId)
  | .addGuildMemberRole .., s => (.ok (), s)
  | .warn _, s => ((), s)

/-! ### `handle` -/

abbrev DiscordM := Prog Error Call Call.Reply

def send (o : Call) : DiscordM o.Reply := Prog.send o

/-- The keys of the map come in the order of `names`; `none` is a panic of `expect`. -/
def roleNameIdMap (current : HashMap String MemberRole) (names : List String) : Option (HashMap String (Id .role)) :=
  (names.mapM fun k => (current.lookup k).bind fun v => v.roleId.map fun roleId => (k, roleId)).map HashMap.collect

/-- One round of the loop over the operations. -/
def executeOp (guild : GuildId) (roleNameIdMap : HashMap String (Id .role)) :
    ChangeOperation → DiscordM (HashMap String (Id .role))
  | .update id color mentionable => do
    match ← send (.updateRole guild id color mentionable) with
    | .error err => Prog.throw s!"error updating role {id} in guild {guild}: {err}"
    | .ok () => pure roleNameIdMap
  | .create name memberUuid color => do
    match ← send (.createRole guild name color true) with
    | .error err =>
      Prog.throw s!"error creating role for member {memberUuid.hyphenated} in guild {guild}: {err}"
    | .ok (.error err) =>
      Prog.throw s!"error parsing role for member {memberUuid.hyphenated} in guild {guild}: {err}"
    | .ok (.ok role) => pure (roleNameIdMap.insert name role.id)
  | .delete id => do
    match ← send (.deleteRole guild id) with
    | .error err => Prog.throw s!"error deleting role {id} in guild {guild}: {err}"
    | .ok () => pure roleNameIdMap

def executeOps (guild : GuildId) :
    List ChangeOperation → HashMap String (Id .role) → DiscordM (HashMap String (Id .role))
  | [], roleNameIdMap => pure roleNameIdMap
  | op :: ops, roleNameIdMap => do executeOps guild ops (← executeOp guild roleNameIdMap op)

/-- The loop that gives the user the roles. -/
def assignRoles (guild : GuildId) (user : Id .user) (roleNameIdMap : HashMap String (Id .role)) :
    List String → DiscordM Unit
  | [] => pure ()
  | missingRoleName :: rest => do
    match roleNameIdMap.lookup missingRoleName with
    | none =>
      send (.warn s!"couldn't get role id from `role_name_id_map` for {missingRoleName}")
      assignRoles guild user roleNameIdMap rest
    | some roleId =>
    match ← send (.addGuildMemberRole guild user roleId) with
    | .error err => Prog.throw s!"error assigning role {missingRoleName} ({roleId}): {err}"
    | .ok () => assignRoles guild user roleNameIdMap rest

/-! ### Role maps -/

/-- What `get_current_roles` makes of a role. -/
def ofRole (v : GuildRole) : MemberRole := ⟨some v.id, none, v.name, v.primaryColor, v.mentionable⟩

theorem ofRole_injective : Function.Injective ofRole := by
  rintro ⟨id, name, color, mentionable⟩ ⟨id', name', color', mentionable'⟩ h
  simp only [ofRole, MemberRole.mk.injEq, Option.some.injEq] at h
  obtain ⟨rfl, -, rfl, rfl, rfl⟩ := h
  rfl

/-- The roles of the guild are those of the map and the others. -/
structure Holds (others : List GuildRole) (map : HashMap String MemberRole) (s : Discord) : Prop where
  mem_items : ∀ r, r ∈ s.items ↔ r ∈ others ∨ map.lookup r.name = some (ofRole r)
  isRole : ∀ {name role}, map.lookup name = some role → ∃ r : GuildRole, r.name = name ∧ role = ofRole r
  others : ∀ r ∈ others, map.lookup r.name ≠ some (ofRole r)

namespace Holds

variable {others : List GuildRole} {map : HashMap String MemberRole} {s t : Discord} {r r' : GuildRole}

theorem mem_of_lookup (h : Holds others map s) (hr : map.lookup r.name = some (ofRole r)) : r ∈ s.items :=
  (h.mem_items r).mpr (.inr hr)

/-- All roles but one of the map. -/
theorem mem_items_of_ne (h : Holds others map s) (hr : map.lookup r.name = some (ofRole r)) (x : GuildRole) :
    x ∈ s.items ∧ x.id ≠ r.id ↔ x ∈ others ∨ x.name ≠ r.name ∧ map.lookup x.name = some (ofRole x) := by
  constructor
  · rintro ⟨hx, hid⟩
    refine ((h.mem_items x).mp hx).imp_right fun hlookup => ⟨fun hname => ?_, hlookup⟩
    rw [hname, hr] at hlookup
    exact hid (congrArg GuildRole.id (ofRole_injective (Option.some.inj hlookup))).symm
  · intro hx
    have hitem : x ∈ s.items := (h.mem_items x).mpr (hx.imp_right And.right)
    refine ⟨hitem, fun hid => ?_⟩
    obtain rfl : x = r := Numbered.eq_of_id hitem (h.mem_of_lookup hr) hid
    rcases hx with hothers | hname
    · exact h.others x hothers hr
    · exact hname.1 rfl

theorem lookup_insert (map : HashMap String MemberRole) (r x : GuildRole) :
    (map.insert r.name (ofRole r)).lookup x.name = some (ofRole x) ↔
      x = r ∨ x.name ≠ r.name ∧ map.lookup x.name = some (ofRole x) := by
  rw [HashMap.lookup_insert_eq_some_iff, ofRole_injective.eq_iff]
  refine or_congr_left ⟨fun h => h.2.symm, ?_⟩
  rintro rfl
  exact ⟨rfl, rfl⟩

theorem isRole_insert (h : Holds others map s) (r : GuildRole) {name : String} {role : MemberRole}
    (hrole : (map.insert r.name (ofRole r)).lookup name = some role) :
    ∃ r : GuildRole, r.name = name ∧ role = ofRole r := by
  rcases HashMap.lookup_insert_eq_some_iff.mp hrole with ⟨rfl, rfl⟩ | ⟨-, hkept⟩
  · exact ⟨r, rfl, rfl⟩
  · exact h.isRole hkept

theorem update (h : Holds others map s) (hr : map.lookup r.name = some (ofRole r)) (color : UInt32)
    (mentionable : Bool) : Holds others (map.insert r.name (ofRole (restyle color mentionable r)))
      (s.modify r.id (restyle color mentionable) (id_restyle color mentionable)) where
  mem_items x := by
    rw [Numbered.mem_modify (h.mem_of_lookup hr), h.mem_items_of_ne hr]
    have hinsert := lookup_insert map (restyle color mentionable r) x
    rw [show (restyle color mentionable r).name = r.name from rfl] at hinsert
    tauto
  isRole hrole := h.isRole_insert (restyle color mentionable r) hrole
  others x hx hlookup := by
    rcases (lookup_insert map (restyle color mentionable r) x).mp hlookup with rfl | ⟨-, hlookup⟩
    · exact ((h.mem_items_of_ne hr _).mpr (.inl hx)).2 rfl
    · exact h.others x hx hlookup

theorem delete (h : Holds others map s) (hr : map.lookup r.name = some (ofRole r)) :
    Holds others (map.erase r.name) (s.delete r.id) where
  mem_items x := by
    rw [Numbered.mem_delete, h.mem_items_of_ne hr, HashMap.lookup_erase_eq_some_iff]
  isRole hrole := h.isRole (HashMap.lookup_erase_eq_some_iff.mp hrole).2
  others x hx hlookup := h.others x hx (HashMap.lookup_erase_eq_some_iff.mp hlookup).2

theorem create (h : Holds others map s) (hnew : map.lookup r.name = none) (hitems : t.items = s.items ++ [r])
    (hfresh : ∀ r' ∈ s.items, r'.id ≠ r.id) : Holds others (map.insert r.name (ofRole r)) t where
  mem_items x := by
    rw [hitems, List.mem_append, List.mem_singleton, h.mem_items, lookup_insert]
    have hname : map.lookup x.name = some (ofRole x) → x.name ≠ r.name := by
      intro hx heq
      rw [heq, hnew] at hx
      cases hx
    tauto
  isRole hrole := h.isRole_insert r hrole
  others x hx hlookup := by
    rcases (lookup_insert map r x).mp hlookup with rfl | ⟨-, hlookup⟩
    · exact hfresh x ((h.mem_items x).mpr (.inl hx)) rfl
    · exact h.others x hx hlookup

end Holds

/-! ### One operation -/

/-- The cases of `get_role_ops`. -/
inductive OpFor (current desired : HashMap String MemberRole) (name : String) : Option ChangeOperation → Prop
  | update {c d : MemberRole} {id : Id .role} (hc : current.lookup name = some c)
      (hd : desired.lookup name = some d) (hid : c.roleId = some id)
      (hdiff : (c.color, c.mentionable) ≠ (d.color, d.mentionable)) :
      OpFor current desired name (some (.update id d.color d.mentionable))
  | keep {c d : MemberRole} (hc : current.lookup name = some c) (hd : desired.lookup name = some d)
      (hsame : (c.color, c.mentionable) = (d.color, d.mentionable)) : OpFor current desired name none
  | create {d : MemberRole} (hc : current.lookup name = none) (hd : desired.lookup name = some d) :
      OpFor current desired name (some (.create d.name (d.uuid.getD ⟨0⟩) d.color))
  | delete {c : MemberRole} {id : Id .role} (hc : current.lookup name = some c)
      (hd : desired.lookup name = none) (hid : c.roleId = some id) :
      OpFor current desired name (some (.delete id))

theorem shouldUpdate_iff {c d : MemberRole} :
    c.shouldUpdate d = true ↔ (c.color, c.mentionable) ≠ (d.color, d.mentionable) := by
  simp [MemberRole.shouldUpdate, Prod.ext_iff, imp_iff_not_or]

theorem opFor_of_roleOp {current desired : HashMap String MemberRole} {name : String} {op : Option ChangeOperation}
    (h : roleOp current desired name = some op) : OpFor current desired name op := by
  unfold roleOp at h
  cases hc : current.lookup name with
  | none =>
    cases hd : desired.lookup name with
    | none => simp [hc, hd] at h
    | some d =>
      simp only [hc, hd, Option.some.injEq] at h
      subst h
      exact .create hc hd
  | some c =>
    cases hd : desired.lookup name with
    | none =>
      simp only [hc, hd, Option.map_eq_some_iff] at h
      obtain ⟨id, hid, rfl⟩ := h
      exact .delete hc hd hid
    | some d =>
      simp only [hc, hd] at h
      by_cases hupdate : c.shouldUpdate d = true
      · rw [if_pos hupdate, Option.map_eq_some_iff] at h
        obtain ⟨id, hid, rfl⟩ := h
        exact .update hc hd hid (shouldUpdate_iff.mp hupdate)
      · rw [if_neg hupdate] at h
        obtain rfl := Option.some.inj h
        exact .keep hc hd (not_not.mp (mt shouldUpdate_iff.mpr hupdate))

/-- What a role map says of the role of a name. -/
def look (map : HashMap String MemberRole) (name : String) : Option (UInt32 × Bool) :=
  (map.lookup name).map fun role => (role.color, role.mentionable)

/-- The map has the ids of the roles. -/
def Names (map : HashMap String MemberRole) (ids : HashMap String (Id .role)) : Prop :=
  ∀ name role, map.lookup name = some role → ids.lookup name = role.roleId

/-- Every role has the name that it stands at, and is mentionable. -/
def AreDesired (desired : HashMap String MemberRole) : Prop :=
  ∀ name d, desired.lookup name = some d → d.name = name ∧ d.mentionable = true

theorem areDesired_getDesiredRoles (members : List SystemMember) : AreDesired (getDesiredRoles members) := by
  intro name d hd
  obtain ⟨m, -, heq⟩ := List.mem_map.mp (HashMap.mem_of_lookup_collect hd)
  obtain ⟨hname, rfl⟩ := Prod.mk.inj heq
  exact ⟨hname, rfl⟩

section Step
variable {others : List GuildRole} {current desired map : HashMap String MemberRole} {s : Discord}
  {ids : HashMap String (Id .role)} {name : String} {op : Option ChangeOperation}

theorem look_insert_self (r : GuildRole) :
    look (map.insert r.name (ofRole r)) r.name = some (r.primaryColor, r.mentionable) := by
  rw [look, Finmap.lookup_insert]
  rfl

theorem names_insert (h : Names map ids) (r : GuildRole) :
    Names (map.insert r.name (ofRole r)) (ids.insert r.name r.id) := by
  intro name role hrole
  rcases HashMap.lookup_insert_eq_some_iff.mp hrole with ⟨rfl, rfl⟩ | ⟨hname, hkept⟩
  · exact Finmap.lookup_insert _
  · rw [Finmap.lookup_insert_of_ne _ hname]
    exact h name role hkept

/-- A role with another style keeps its id. -/
theorem names_update (h : Names map ids) {r : GuildRole} (hr : ids.lookup r.name = some r.id) :
    Names (map.insert r.name (ofRole r)) ids := by
  intro name role hrole
  rcases HashMap.lookup_insert_eq_some_iff.mp hrole with ⟨rfl, rfl⟩ | ⟨-, hkept⟩
  · exact hr
  · exact h name role hkept

theorem names_erase (h : Names map ids) (name : String) : Names (map.erase name) ids := by
  intro name' role hrole
  exact h name' role (HashMap.lookup_erase_eq_some_iff.mp hrole).2

/-- An operation settles its name, and leaves the other ones as they are. -/
theorem exec_opFor (guild : GuildId) (h : Holds others map s) (hids : Names map ids) (hdesired : AreDesired desired)
    (hop : OpFor current desired name op) (hcurrent : map.lookup name = current.lookup name)
    (hroom : op.toList.countP ChangeOperation.isCreate ≤ s.newIds.length) :
    ∃ map' ids' t, (executeOps guild op.toList ids).exec eval s = (.ok ids', t) ∧ Holds others map' t ∧
      Names map' ids' ∧ look map' name = look desired name ∧
      (∀ other ≠ name, map'.lookup other = map.lookup other) ∧
      s.newIds.length = t.newIds.length + op.toList.countP ChangeOperation.isCreate := by
  cases hop with
  | update hc hd hid hdiff =>
    rename_i c d id
    obtain ⟨r, rfl, rfl⟩ := h.isRole (hcurrent.trans hc)
    obtain rfl : r.id = id := Option.some.inj hid
    have hr := hcurrent.trans hc
    have hnames := names_update (r := restyle d.color d.mentionable r) hids (hids r.name _ hr)
    refine ⟨_, ids, _, rfl, h.update hr d.color d.mentionable, hnames, ?_, ?_, rfl⟩
    · refine (look_insert_self (restyle d.color d.mentionable r)).trans ?_
      rw [look, hd]
      rfl
    · exact fun other hother => Finmap.lookup_insert_of_ne _ hother
  | keep hc hd hsame =>
    rename_i c d
    refine ⟨map, ids, s, rfl, h, hids, ?_, fun _ _ => rfl, rfl⟩
    rw [look, look, hcurrent, hc, hd]
    exact congrArg some hsame
  | create hc hd =>
    rename_i d
    obtain ⟨rfl, hmentionable⟩ := hdesired _ d hd
    obtain ⟨id, t, hcreate, hitems, hfresh, hnew⟩ :=
      Numbered.exists_create (s := s) (fun id => (⟨id, d.name, d.color, true⟩ : GuildRole)) (fun _ => rfl) hroom
    have hexec : (executeOp guild ids (.create d.name (d.uuid.getD ⟨0⟩) d.color)).exec eval s =
        (.ok (ids.insert d.name id), t) := by
      refine (Prog.exec_bind_ok (Prog.exec_send eval _ s) _).trans ?_
      dsimp only [eval]
      rw [hcreate]
      rfl
    refine ⟨_, _, t, Prog.exec_bind_ok hexec _,
      h.create (r := ⟨id, d.name, d.color, true⟩) (hcurrent.trans hc) hitems hfresh,
      names_insert hids ⟨id, d.name, d.color, true⟩, ?_, ?_, ?_⟩
    · rw [look_insert_self ⟨id, d.name, d.color, true⟩, look, hd]
      simp [hmentionable]
    · exact fun other hother => Finmap.lookup_insert_of_ne _ hother
    · rw [hnew]
      rfl
  | delete hc hd hid =>
    rename_i c id
    obtain ⟨r, rfl, rfl⟩ := h.isRole (hcurrent.trans hc)
    obtain rfl : r.id = id := Option.some.inj hid
    have hr := hcurrent.trans hc
    refine ⟨_, ids, _, rfl, h.delete hr, names_erase hids r.name, ?_, ?_, rfl⟩
    · rw [look, look, hd, Finmap.lookup_erase]
    · exact fun other hother => Finmap.lookup_erase_ne hother

end Step

/-! ### All operations -/

/-- The operations for some names. -/
def opsFor (current desired : HashMap String MemberRole) (names : List String) : List ChangeOperation :=
  names.filterMap fun name => (roleOp current desired name).join

theorem executeOps_append (guild : GuildId) (ops ops' : List ChangeOperation) (ids : HashMap String (Id .role)) :
    executeOps guild (ops ++ ops') ids = executeOps guild ops ids >>= executeOps guild ops' := by
  induction ops generalizing ids with
  | nil => rfl
  | cons op ops ih =>
    simp only [List.cons_append, executeOps, bind_assoc]
    exact bind_congr fun ids => ih ids

section Run
variable {others : List GuildRole} {current desired map : HashMap String MemberRole} {s : Discord}
  {ids : HashMap String (Id .role)} {names : List String}

theorem opsFor_cons {name : String} {op : Option ChangeOperation} (hop : roleOp current desired name = some op) :
    opsFor current desired (name :: names) = op.toList ++ opsFor current desired names := by
  rw [opsFor, List.filterMap_cons, hop]
  cases op <;> rfl

theorem getRoleOps_eq (hids : HasIds current) (hmem : ∀ role ∈ names, role ∈ current.keys ∪ desired.keys) :
    getRoleOps current desired names = some (opsFor current desired names) := by
  induction names with
  | nil => rfl
  | cons name names ih =>
    obtain ⟨hname, hnames⟩ := List.forall_mem_cons.mp hmem
    obtain ⟨op, hop, -⟩ := roleOp_of_mem hids hname
    rw [getRoleOps_cons, hop, ih hnames, opsFor_cons hop]
    rfl

/-- The operations settle their names one after the other. -/
theorem exec_opsFor (guild : GuildId) (hcurrent : HasIds current) (hdesired : AreDesired desired)
    (hnodup : names.Nodup) (hmem : ∀ name ∈ names, name ∈ current.keys ∪ desired.keys) (h : Holds others map s)
    (hids : Names map ids) (hmap : ∀ name ∈ names, map.lookup name = current.lookup name)
    (hroom : (opsFor current desired names).countP ChangeOperation.isCreate ≤ s.newIds.length) :
    ∃ map' ids' t, (executeOps guild (opsFor current desired names) ids).exec eval s = (.ok ids', t) ∧
      Holds others map' t ∧ Names map' ids' ∧ (∀ name ∈ names, look map' name = look desired name) ∧
      ∀ name ∉ names, map'.lookup name = map.lookup name := by
  induction names generalizing map ids s with
  | nil => exact ⟨map, ids, s, rfl, h, hids, nofun, fun _ _ => rfl⟩
  | cons name names ih =>
    obtain ⟨hnew, hnodup⟩ := List.nodup_cons.mp hnodup
    obtain ⟨hname, hnames⟩ := List.forall_mem_cons.mp hmem
    obtain ⟨hlookup, hmap⟩ := List.forall_mem_cons.mp hmap
    obtain ⟨op, hop, -⟩ := roleOp_of_mem hcurrent hname
    rw [opsFor_cons hop, List.countP_append] at hroom
    obtain ⟨map₁, ids₁, s₁, hexec₁, h₁, hids₁, hlook₁, hother₁, hlength⟩ :=
      exec_opFor guild h hids hdesired (opFor_of_roleOp hop) hlookup (by omega)
    have hmap₁ : ∀ other ∈ names, map₁.lookup other = current.lookup other := by
      intro other hother
      rw [hother₁ other fun heq => hnew (heq ▸ hother)]
      exact hmap other hother
    obtain ⟨map', ids', t, hexec, h', hids', hlook, hother⟩ := ih hnodup hnames h₁ hids₁ hmap₁ (by omega)
    refine ⟨map', ids', t, ?_, h', hids', ?_, ?_⟩
    · rw [opsFor_cons hop, executeOps_append]
      exact (Prog.exec_bind_ok hexec₁ _).trans hexec
    · refine List.forall_mem_cons.mpr ⟨?_, hlook⟩
      rw [look, hother name hnew]
      exact hlook₁
    · intro other hnot
      rw [List.mem_cons, not_or] at hnot
      rw [hother other hnot.2, hother₁ other hnot.1]

end Run

/-! ### The diff -/

/-- The operation is about the role of this name. -/
def Targets (current : HashMap String MemberRole) (name : String) : ChangeOperation → Prop
  | .create n _ _ => n = name
  | .delete id | .update id _ _ => ∃ role, current.lookup name = some role ∧ role.roleId = some id

/-- At most one operation for each name, and none for one that needs none. -/
structure Minimal (current desired : HashMap String MemberRole) (ops : List ChangeOperation) : Prop where
  targets : ∀ op ∈ ops, ∃ name, Targets current name op
  once : ops.Pairwise fun op op' => ∀ name, Targets current name op → ¬Targets current name op'
  differs : ∀ op ∈ ops, ∀ name, Targets current name op → look current name ≠ look desired name

section Diff
variable {others : List GuildRole} {current desired : HashMap String MemberRole} {s : Discord}
  {names : List String} {name name' : String} {op : ChangeOperation}

theorem targets_of_opFor (hdesired : AreDesired desired) (h : OpFor current desired name (some op)) :
    Targets current name op := by
  cases h with
  | update hc hd hid hdiff => exact ⟨_, hc, hid⟩
  | create hc hd => exact (hdesired _ _ hd).1
  | delete hc hd hid => exact ⟨_, hc, hid⟩

theorem look_ne_of_opFor (h : OpFor current desired name (some op)) : look current name ≠ look desired name := by
  intro hsame
  unfold look at hsame
  cases h with
  | update hc hd hid hdiff =>
    rw [hc, hd] at hsame
    exact hdiff (Option.some.inj hsame)
  | create hc hd =>
    rw [hc, hd] at hsame
    cases hsame
  | delete hc hd hid =>
    rw [hc, hd] at hsame
    cases hsame

/-- Roles of two names have different ids. -/
theorem targets_inj (h : Holds others current s) (hname : Targets current name op)
    (hname' : Targets current name' op) : name = name' := by
  have hids : ∀ {id : Id .role}, (∃ role, current.lookup name = some role ∧ role.roleId = some id) →
      (∃ role, current.lookup name' = some role ∧ role.roleId = some id) → name = name' := by
    rintro id ⟨role, hrole, hid⟩ ⟨role', hrole', hid'⟩
    obtain ⟨r, rfl, rfl⟩ := h.isRole hrole
    obtain ⟨r', rfl, rfl⟩ := h.isRole hrole'
    have heq : r.id = r'.id := Option.some.inj (hid.trans hid'.symm)
    rw [Numbered.eq_of_id (h.mem_of_lookup hrole) (h.mem_of_lookup hrole') heq]
  cases op with
  | create n => exact hname.symm.trans hname'
  | delete id => exact hids hname hname'
  | update id => exact hids hname hname'

theorem minimal_opsFor (h : Holds others current s) (hdesired : AreDesired desired) (hnodup : names.Nodup) :
    Minimal current desired (opsFor current desired names) := by
  have hfor : ∀ {name op}, (roleOp current desired name).join = some op →
      Targets current name op ∧ look current name ≠ look desired name := by
    intro name op hop
    have hopFor := opFor_of_roleOp (Option.join_eq_some_iff.mp hop)
    exact ⟨targets_of_opFor hdesired hopFor, look_ne_of_opFor hopFor⟩
  constructor
  · intro op hmem
    obtain ⟨name, -, hop⟩ := List.mem_filterMap.mp hmem
    exact ⟨name, (hfor hop).1⟩
  · refine List.pairwise_filterMap.mpr (hnodup.imp ?_)
    intro name name' hne op hop op' hop' target htarget htarget'
    exact hne ((targets_inj h (hfor hop).1 htarget).trans (targets_inj h htarget' (hfor hop').1))
  · intro op hmem name htarget
    obtain ⟨name', -, hop⟩ := List.mem_filterMap.mp hmem
    obtain rfl := targets_inj h htarget (hfor hop).1
    exact (hfor hop).2

/-- Where nothing differs there is nothing to do. -/
theorem getRoleOps_eq_nil (hids : HasIds current) (hlook : ∀ name, look current name = look desired name)
    (hmem : ∀ role ∈ names, role ∈ current.keys ∪ desired.keys) : getRoleOps current desired names = some [] := by
  rw [getRoleOps_eq hids hmem, opsFor]
  refine congrArg some (List.filterMap_eq_nil_iff.mpr fun name hname => ?_)
  obtain ⟨op, hop, -⟩ := roleOp_of_mem hids (hmem name hname)
  rw [hop]
  cases op with
  | none => rfl
  | some op => exact absurd (hlook name) (look_ne_of_opFor (opFor_of_roleOp hop))

end Diff

/-! ### Before and after the loop -/

theorem exists_holds (s : Discord) : ∃ others, Holds others (getCurrentRoles s.items) s := by
  classical
  set current := getCurrentRoles s.items
  have hrole : ∀ {name role}, current.lookup name = some role →
      ∃ r ∈ s.items, r.name = name ∧ role = ofRole r := by
    intro name role hlookup
    obtain ⟨r, hr, heq⟩ := List.mem_map.mp (HashMap.mem_of_lookup_collect hlookup)
    obtain ⟨hname, hrole⟩ := Prod.mk.inj heq
    exact ⟨r, (List.mem_filter.mp hr).1, hname, hrole.symm⟩
  refine ⟨s.items.filter fun r => current.lookup r.name ≠ some (ofRole r), ?_, ?_, ?_⟩
  · intro r
    rw [List.mem_filter, decide_eq_true_eq]
    constructor
    · intro hr
      by_cases hlookup : current.lookup r.name = some (ofRole r)
      · exact .inr hlookup
      · exact .inl ⟨hr, hlookup⟩
    · rintro (⟨hr, -⟩ | hlookup)
      · exact hr
      · obtain ⟨r', hr', -, heq⟩ := hrole hlookup
        rwa [ofRole_injective heq]
  · intro name role hlookup
    obtain ⟨r, -, hname, heq⟩ := hrole hlookup
    exact ⟨r, hname, heq⟩
  · intro r hr
    exact of_decide_eq_true (List.mem_filter.mp hr).2

theorem names_roleNameIdMap {current : HashMap String MemberRole} (hids : HasIds current) {keys : List String}
    (hkeys : ∀ name, name ∈ keys ↔ name ∈ current) :
    ∃ ids, roleNameIdMap current keys = some ids ∧ Names current ids := by
  set entry : String → Option (String × Id .role) := fun k =>
    (current.lookup k).bind fun v => v.roleId.map fun roleId => (k, roleId)
  have hentry : ∀ {name role id}, current.lookup name = some role → role.roleId = some id →
      entry name = some (name, id) := by
    intro name role id hrole hid
    simp [entry, hrole, hid]
  have hsome : ∀ name role, current.lookup name = some role → ∃ id, role.roleId = some id :=
    fun name role hrole => Option.isSome_iff_exists.mp (hids name role hrole)
  have hmapM : keys.mapM entry = some (keys.filterMap entry) := by
    refine mapM_eq_some_of_forall fun name hname => ?_
    obtain ⟨role, hrole⟩ := Finmap.mem_iff.mp ((hkeys name).mp hname)
    obtain ⟨id, hid⟩ := hsome name role hrole
    exact ⟨_, hentry hrole hid⟩
  refine ⟨_, congrArg (Option.map HashMap.collect) hmapM, fun name role hrole => ?_⟩
  obtain ⟨id, hid⟩ := hsome name role hrole
  have hname : name ∈ keys := (hkeys name).mpr (Finmap.mem_of_lookup_eq_some hrole)
  have hthere : name ∈ HashMap.collect (keys.filterMap entry) :=
    HashMap.mem_collect.mpr (List.mem_map.mpr ⟨_, List.mem_filterMap.mpr ⟨name, hname, hentry hrole hid⟩, rfl⟩)
  obtain ⟨id', hid'⟩ := Finmap.mem_iff.mp hthere
  obtain ⟨name', -, heq⟩ := List.mem_filterMap.mp (HashMap.mem_of_lookup_collect hid')
  obtain ⟨role', hrole', heq⟩ := Option.bind_eq_some_iff.mp heq
  obtain ⟨id'', hid'', heq⟩ := Option.map_eq_some_iff.mp heq
  obtain ⟨rfl, rfl⟩ := Prod.mk.inj heq
  obtain rfl : role' = role := Option.some.inj (hrole'.symm.trans hrole)
  exact hid'.trans hid''.symm

/-- Every missing role that has an id is assigned. -/
theorem commands_assignRoles (guild : GuildId) (user : Id .user) {ids : HashMap String (Id .role)}
    {missing : List String} {P : String → Id .role → Prop}
    (h : ∀ name ∈ missing, ∃ id, ids.lookup name = some id ∧ P name id) (s : Discord) :
    ∃ roleIds, List.Forall₂ P missing roleIds ∧
      (assignRoles guild user ids missing).commands eval s = roleIds.map (.addGuildMemberRole guild user) := by
  induction missing with
  | nil => exact ⟨[], .nil, rfl⟩
  | cons name missing ih =>
    obtain ⟨⟨id, hlookup, hid⟩, hmissing⟩ := List.forall_mem_cons.mp h
    obtain ⟨roleIds, hroleIds, hcommands⟩ := ih hmissing
    refine ⟨id :: roleIds, .cons hid hroleIds, ?_⟩
    unfold assignRoles
    rw [hlookup]
    exact congrArg _ hcommands

/-- In whatever order they are executed, the operations turn the roles of the map into the desired ones, and every
desired role has its id in the map of the ids. -/
theorem get_role_ops_settles (guild : GuildId) (members : List SystemMember) (s : Discord)
    {current desired : HashMap String MemberRole} (hcurrent : current = getCurrentRoles s.items)
    (hdesired : desired = getDesiredRoles members) {allRoles : List String}
    (horder : IsOrder current desired allRoles) :
    ∃ others ops, Holds others current s ∧ getRoleOps current desired allRoles = some ops ∧
      Minimal current desired ops ∧
      ∀ (keys : List String) (ops' : List ChangeOperation), (∀ name, name ∈ keys ↔ name ∈ current) → ops'.Perm ops →
        ops.countP ChangeOperation.isCreate ≤ s.newIds.length →
        ∃ start ids result t, roleNameIdMap current keys = some start ∧
          (executeOps guild ops' start).exec eval s = (.ok ids, t) ∧ Holds others result t ∧
          (∀ name, look result name = look desired name) ∧
          (∀ again, IsOrder result desired again → getRoleOps result desired again = some []) ∧
          ∀ user missing, (∀ name ∈ missing, name ∈ desired) →
            ∃ roleIds, List.Forall₂ (fun name id => ∃ role, result.lookup name = some role ∧ role.roleId = some id)
                missing roleIds ∧
              (assignRoles guild user ids missing).commands eval t =
                roleIds.map (.addGuildMemberRole guild user) := by
  have hids : HasIds current := hcurrent ▸ hasIds_getCurrentRoles s.items
  have hare : AreDesired desired := hdesired ▸ areDesired_getDesiredRoles members
  obtain ⟨others, hholds⟩ : ∃ others, Holds others current s := hcurrent ▸ exists_holds s
  refine ⟨others, _, hholds, getRoleOps_eq hids fun name hname => (horder.2 name).mp hname,
    minimal_opsFor hholds hare horder.1, fun keys ops' hkeys hperm hroom => ?_⟩
  -- another order of the operations is one of the names
  obtain ⟨names, hnames, rfl⟩ := exists_perm_of_filterMap hperm.symm rfl
  have hmem : ∀ name ∈ names, name ∈ current.keys ∪ desired.keys :=
    fun name hname => (horder.2 name).mp (hnames.mem_iff.mp hname)
  have hroom' : (opsFor current desired names).countP ChangeOperation.isCreate ≤ s.newIds.length :=
    (hperm.countP_eq _).le.trans hroom
  obtain ⟨start, hstart, hnamesIds⟩ := names_roleNameIdMap hids hkeys
  obtain ⟨result, ids, t, hexec, hresult, hidsResult, hlook, hother⟩ :=
    exec_opsFor guild hids hare (hnames.nodup_iff.mpr horder.1) hmem hholds hnamesIds (fun _ _ => rfl) hroom'
  have hall : ∀ name, look result name = look desired name := by
    intro name
    by_cases hname : name ∈ names
    · exact hlook name hname
    · have hnone : name ∉ current.keys ∪ desired.keys := fun h =>
        hname (hnames.mem_iff.mpr ((horder.2 name).mpr h))
      rw [Finset.mem_union, Finmap.mem_keys, Finmap.mem_keys, not_or] at hnone
      rw [look, look, hother name hname, Finmap.lookup_eq_none.mpr hnone.1, Finmap.lookup_eq_none.mpr hnone.2]
  refine ⟨start, ids, result, t, hstart, hexec, hresult, hall, fun again hagain => ?_, fun user missing hmissing => ?_⟩
  · refine getRoleOps_eq_nil (fun name role hrole => ?_) hall fun name hname => (hagain.2 name).mp hname
    obtain ⟨r, -, rfl⟩ := hresult.isRole hrole
    rfl
  · refine commands_assignRoles guild user (fun name hname => ?_) t
    have hthere : (result.lookup name).isSome = true := by
      have hsome := congrArg Option.isSome (hall name)
      simpa [look, Finmap.lookup_isSome.mpr (hmissing name hname)] using hsome
    obtain ⟨role, hrole⟩ := Option.isSome_iff_exists.mp hthere
    obtain ⟨r, -, rfl⟩ := hresult.isRole hrole
    exact ⟨r.id, hidsResult name _ hrole, _, hrole, rfl⟩

def roleGuild : GuildId := ⟨211, by decide⟩

/-- One role is out of date and one is not needed any more. -/
def exampleRoles : Discord where
  items := [⟨⟨212, by decide⟩, "mod", 0, false⟩, ⟨⟨213, by decide⟩, "Ada (Alter)", 5, false⟩,
    ⟨⟨214, by decide⟩, "Bo (Alter)", 5, true⟩]
  newIds := [⟨215, by decide⟩, ⟨216, by decide⟩, ⟨217, by decide⟩]
  nodup := by decide

def exampleMembers : List SystemMember := [⟨⟨⟨11⟩, "Ada", none⟩, none⟩, ⟨⟨⟨12⟩, "Cleo", some "Cleo (she/her)"⟩, none⟩]

theorem get_role_ops_settles_example :
    ∃ others ops, Holds others (getCurrentRoles exampleRoles.items) exampleRoles ∧
      getRoleOps (getCurrentRoles exampleRoles.items) (getDesiredRoles exampleMembers)
        ["Cleo (Alter)", "Bo (Alter)", "Ada (Alter)"] = some ops ∧
      ∃ start ids result t,
        roleNameIdMap (getCurrentRoles exampleRoles.items) ["Bo (Alter)", "Ada (Alter)"] = some start ∧
        (executeOps roleGuild ops.reverse start).exec eval exampleRoles = (.ok ids, t) ∧ Holds others result t ∧
        ∀ name, look result name = look (getDesiredRoles exampleMembers) name := by
  have hkeys : ∀ name, name ∈ ["Bo (Alter)", "Ada (Alter)"] ↔ name ∈ getCurrentRoles exampleRoles.items := by
    intro name
    rw [getCurrentRoles, HashMap.mem_collect]
    show _ ↔ name ∈ ["Ada (Alter)", "Bo (Alter)"]
    simp [or_comm]
  have hdesired : ∀ name, name ∈ getDesiredRoles exampleMembers ↔ name ∈ ["Ada (Alter)", "Cleo (Alter)"] := by
    intro name
    rw [getDesiredRoles, HashMap.mem_collect]
    exact Iff.rfl
  have hunion : ∀ name, name ∈ ["Cleo (Alter)", "Bo (Alter)", "Ada (Alter)"] ↔
      name ∈ (getCurrentRoles exampleRoles.items).keys ∪ (getDesiredRoles exampleMembers).keys := by
    intro name
    rw [Finset.mem_union, Finmap.mem_keys, Finmap.mem_keys, ← hkeys, hdesired]
    simp only [List.mem_cons, List.not_mem_nil]
    tauto
  obtain ⟨others, ops, hholds, hops, -, hrun⟩ :=
    get_role_ops_settles roleGuild exampleMembers exampleRoles rfl rfl ⟨by decide, hunion⟩
  have hroom : ops.countP ChangeOperation.isCreate ≤ exampleRoles.newIds.length := by
    obtain ⟨ops', hops', hcount, -⟩ :=
      getRoleOps_of_mem (hasIds_getCurrentRoles exampleRoles.items) fun name h => (hunion name).mp h
    obtain rfl := Option.some.inj (hops.symm.trans hops')
    exact hcount ▸ List.countP_le_length
  obtain ⟨start, ids, result, t, hstart, hexec, hresult, hlook, -, -⟩ :=
    hrun _ ops.reverse hkeys ops.reverse_perm hroom
  exact ⟨others, ops, hholds, hops, start, ids, result, t, hstart, hexec, hresult, hlook⟩

end Tulpje.Pluralkit.RoleOps
