import Mathlib.Data.Finset.Dedup
import Tulpje.Lib.History
import Tulpje.Pluralkit.RoleMessages
import Tulpje.Pluralkit.RoleOps
import Tulpje.Pluralkit.Settings
import Tulpje.Pluralkit.SystemRef

/-!
# Updating the member roles of a guild

`handle` in `roles/update.rs` from beginning to end. Whatever is answered, a role is changed or assigned only after the
members pass the check and the user has confirmed, and no more often than was confirmed
(`changes_only_when_confirmed`). The numbers that the user is told on the way and in the end are those of the changes
that were made (`tells_what_was_made`), and no counter overflows as long as the guild has not far more roles than it may
have (`panics_only_beyond_limit`).
-/

namespace Tulpje.Pluralkit.RoleUpdate

open Framework (HashMap Color)
open Lib
open RoleOps (executeOp roleNameIdMap)
open Settings (GuildSettings)
open Twilight (Id)

/-! ### Calls -/

structure Guild where
  id : GuildId
  roles : List GuildRole

inductive Call
  | guild
  | deferEphemeral
  | getGuildSettings (guildId : GuildId)
  | getSystemMembers (token : String) (system : Uuid)
  | respond (color : Color) (text : String)
  | confirm (prompt : Prompt)
  | cachedMember (guildId : GuildId) (userId : Id .user)
  | guildMember (guildId : GuildId) (userId : Id .user)
  | cachedRole (roleId : Id .role)
  | guildRole (guildId : GuildId) (roleId : Id .role)
  | role (o : RoleOps.Call)

/-- A member is given by its roles. An answer of Discord may still be unreadable. -/
@[reducible] def Call.Reply : Call → Type
  | guild => Except Error (Option Guild)
  | deferEphemeral | respond .. => Except Error Unit
  | getGuildSettings _ => Except Error (Option GuildSettings)
  | getSystemMembers .. => Except PluralKitError (List SystemMember)
  | confirm _ => Except Error Bool
  | cachedMember .. => Except Error (Option (List (Id .role)))
  | guildMember .. => Except Error (Except Error (List (Id .role)))
  | cachedRole _ => Except Error (Option GuildRole)
  | guildRole .. => Except Error (Except Error GuildRole)
  | role o => o.Reply

inductive Failure
  | error (err : Error)
  | panic

abbrev UpdateM := Prog Failure Call Call.Reply

def send (o : Call) : UpdateM o.Reply := Prog.send o

/-- The `?` operator. -/
def orFail {α : Type} (x : Except Error α) : UpdateM α := Prog.ofExcept (x.mapError .error)

def orPanic {α : Type} : Option α → UpdateM α
  | some a => pure a
  | none => Prog.throw .panic

def lift {α : Type} : RoleOps.DiscordM α → UpdateM α
  | .pure a => .pure a
  | .throw err => .throw (.error err)
  | .call o k => .call (.role o) fun r => lift (k r)

def respond (color : Color) (text : String) : UpdateM Unit := do
  orFail (← send (.respond color text))

def responseSuccess : String → UpdateM Unit := respond .green
def responseInfo : String → UpdateM Unit := respond .blue
def responseError : String → UpdateM Unit := respond .red

/-! ### `update.rs` -/

/-- The orders in which hash maps and sets give their elements. -/
structure Orders where
  allRoles : HashMap String MemberRole → HashMap String MemberRole → List String
  keys : HashMap String MemberRole → List String
  difference : Finset String → List String
  isOrder : ∀ current desired, IsOrder current desired (allRoles current desired)
  mem_keys : ∀ current name, name ∈ keys current ↔ name ∈ current
  nodup_difference : ∀ names, (difference names).Nodup
  mem_difference : ∀ names name, name ∈ difference names ↔ name ∈ names

def roleLimitMessage (memberCount existingRoleCount : ℕ) : String :=
  let combined := memberCount + existingRoleCount
  let excess := combined - discordRoleLimit
  let existingNoun := roleNoun existingRoleCount
  let memberNoun := memberNoun memberCount
  let combinedNoun := roleNoun combined
  s!"### Error\nThis server currently has {existingRoleCount} {existingNoun}, adding roles for {memberCount} " ++
    s!"sytem {memberNoun} would leave you with {combined} {combinedNoun} which is {excess} more than " ++
    s!"discord's limit of {discordRoleLimit} roles"

def handleGetSystemMembers (token : String) (system : Uuid) : UpdateM (Option (List SystemMember)) := do
  match ← send (.getSystemMembers token system) with
  | .ok members => pure (some members)
  | .error (.pk code message) =>
    if code = 30001 then
      responseError s!"### Error\nMember list for `{system}` is private"
      pure none
    else if code = 20001 then
      responseError s!"### Error\nPluralKit can't find this system, does `{system}` exist?"
      pure none
    else Prog.throw (.error message)
  | .error (.other message) => Prog.throw (.error message)

def getUserRole (guildId : GuildId) (roleId : Id .role) : UpdateM GuildRole := do
  match ← orFail (← send (.cachedRole roleId)) with
  | some role => pure role
  | none => orFail (← orFail (← send (.guildRole guildId roleId)))

def getUserRoles (guildId : GuildId) (userId : Id .user) : UpdateM (List GuildRole) := do
  let memberRoles ← do
    match ← orFail (← send (.cachedMember guildId userId)) with
    | some roles => pure roles
    | none => orFail (← orFail (← send (.guildMember guildId userId)))
  memberRoles.mapM (getUserRole guildId)

/-- The names of the roles of the user that look like a member's. -/
def currentUserRoleNames (roles : List GuildRole) : Finset String :=
  ((roles.filter fun r => "(Alter)".toList.isSuffixOf r.name.toList).map GuildRole.name).toFinset

/-- A failure is logged. -/
def updateRoleProgress (stats : UpdateStats) : UpdateM Unit := do
  let _ ← send (.respond .blue (progressMessage stats))

def kindOf : ChangeOperation → Kind
  | .create .. => .create
  | .delete _ => .delete
  | .update .. => .update

/-- The loop over the operations from number `idx` on. -/
def executeOps (guildId : GuildId) :
    ℕ → List ChangeOperation → UpdateStats → HashMap String (Id .role) →
      UpdateM (UpdateStats × HashMap String (Id .role))
  | _, [], stats, roleNameIdMap => pure (stats, roleNameIdMap)
  | idx, op :: ops, stats, roleNameIdMap => do
    let roleNameIdMap ← lift (executeOp guildId roleNameIdMap op)
    let stats := { stats with done := ← orPanic (stats.done.raise (kindOf op)) }
    if idx % 10 = 0 then updateRoleProgress stats
    executeOps guildId (idx + 1) ops stats roleNameIdMap

/-- The loop over the missing roles from number `idx` on. -/
def assignRoles (gs : GuildSettings) (roleNameIdMap : HashMap String (Id .role)) :
    ℕ → List String → UpdateStats → UpdateM UpdateStats
  | _, [], stats => pure stats
  | idx, missingRoleName :: rest, stats => do
    match roleNameIdMap.lookup missingRoleName with
    | none =>
      send (.role (.warn s!"couldn't get role id from `role_name_id_map` for {missingRoleName}"))
      assignRoles gs roleNameIdMap (idx + 1) rest stats
    | some roleId =>
      match ← send (.role (.addGuildMemberRole gs.guildId gs.userId roleId)) with
      | .error err => Prog.throw (.error s!"error assigning role {missingRoleName} ({roleId}): {err}")
      | .ok () =>
        let stats := { stats with done := ← orPanic (stats.done.raise .assign) }
        if idx % 10 = 0 then updateRoleProgress stats
        assignRoles gs roleNameIdMap (idx + 1) rest stats

/-- What `handle` does after the user has confirmed the changes. -/
def applyChanges (orders : Orders) (guild : Guild) (gs : GuildSettings) (current : HashMap String MemberRole)
    (ops : List ChangeOperation) (missing : List String) (total : UpdateCounts) : UpdateM Unit := do
  let roleNameIdMap ← orPanic (roleNameIdMap current (orders.keys current))
  let (stats, roleNameIdMap) ← executeOps guild.id 0 ops ⟨.new, total⟩ roleNameIdMap
  let stats ← assignRoles gs roleNameIdMap 0 missing stats
  responseSuccess (successMessage stats.done)

def countOps (ops : List ChangeOperation) : Option UpdateCounts :=
  ops.foldlM (fun counts op => counts.raise (kindOf op)) .new

/-- What `handle` does after the checks. -/
def updateMembers (orders : Orders) (guild : Guild) (gs : GuildSettings) (members : List SystemMember) :
    UpdateM Unit := do
  let current := getCurrentRoles guild.roles
  let desired := getDesiredRoles members
  let userRoles ← getUserRoles gs.guildId gs.userId
  let missing := orders.difference (desired.keys \ currentUserRoleNames userRoles)
  let ops ← orPanic (getRoleOps current desired (orders.allRoles current desired))
  let counts ← orPanic (countOps ops)
  let total := { counts with assign := UInt16.ofNat missing.length }
  if (← orPanic total.sum) = 0 then responseInfo "Member roles are already up-to-date"
  else if ← orFail (← send (.confirm (.update total))) then applyChanges orders guild gs current ops missing total

def handle (orders : Orders) (token : Except Error (Option String)) : UpdateM Unit := do
  let some guild ← orFail (← send .guild) | Prog.throw .panic
  orFail (← send .deferEphemeral)
  let some gs ← orFail (← send (.getGuildSettings guild.id))
    | responseError "### Error\nPluralKit module not set-up, please run `/pk setup`"
  let token ← orFail token
  let some members ← handleGetSystemMembers (token.getD "") gs.systemUuid | pure ()
  let rolesWithoutMemberRoles := guild.roles.length - (getCurrentRoles guild.roles).keys.card
  let total := members.length + rolesWithoutMemberRoles
  if discordRoleLimit < total then responseError (roleLimitMessage members.length rolesWithoutMemberRoles)
  else if discordRoleLimit - remainingRoleWarning ≤ total then
    if ← orFail (← send (.confirm (.nearRoleLimit members.length rolesWithoutMemberRoles))) then
      updateMembers orders guild gs members
  else updateMembers orders guild gs members

/-! ### What was planned and made -/

/-- Newest first. -/
abbrev History := List (Prog.Answered Call.Reply)

/-- The kind of a request to Discord. -/
def kind : RoleOps.Call → Option Kind
  | .createRole .. => some .create
  | .updateRole .. => some .update
  | .deleteRole .. => some .delete
  | .addGuildMemberRole .. => some .assign
  | .warn _ => none

/-- A change that was made as far as the answer tells. -/
def madeBy : Prog.Answered Call.Reply → Option Kind
  | ⟨.role (.createRole ..), .ok (.ok _)⟩ => some .create
  | ⟨.role (.updateRole ..), .ok _⟩ => some .update
  | ⟨.role (.deleteRole ..), .ok _⟩ => some .delete
  | ⟨.role (.addGuildMemberRole ..), .ok _⟩ => some .assign
  | _ => none

def made (past : History) (kind : Kind) : ℕ := past.countP fun answered => madeBy answered = some kind

/-- The counts are those of the changes that were made. -/
def Counted (past : History) (counts : UpdateCounts) : Prop := ∀ kind, (counts.of kind).toNat = made past kind

/-- The counts of the operations. -/
def UpdateCounts.operations (self : UpdateCounts) : UpdateCounts := { self with assign := 0 }

/-- What the user is asked to confirm. -/
structure Plan where
  guild : Guild
  settings : GuildSettings
  members : List SystemMember
  ops : List ChangeOperation
  missing : List String
  total : UpdateCounts

/-- The role with this name is one of the guild's, or a new one. -/
def IsRoleOf (past : History) (guild : Guild) (name : String) (roleId : Id .role) : Prop :=
  (∃ role ∈ guild.roles, role.name = name ∧ role.id = roleId) ∨
    ∃ color role, ⟨.role (.createRole guild.id name color true), .ok (.ok role)⟩ ∈ past ∧ role.id = roleId

/-- The members pass the check, and the user accepts that the limit is near. -/
structure Checked (guild : Guild) (gs : GuildSettings) (members : List SystemMember) (past : History) : Prop where
  guild_mem : ⟨.guild, .ok (some guild)⟩ ∈ past
  settings_mem : ⟨.getGuildSettings guild.id, .ok (some gs)⟩ ∈ past
  members_mem : ∃ token, ⟨.getSystemMembers token gs.systemUuid, .ok members⟩ ∈ past
  passes : passesCheck guild.roles members = true
  nearLimit : discordRoleLimit - remainingRoleWarning ≤ totalRolesWithMembers guild.roles members →
    ⟨.confirm (.nearRoleLimit members.length (guild.roles.length - (getCurrentRoles guild.roles).keys.card)),
      .ok true⟩ ∈ past

namespace Plan

/-- The plan is what the two sides differ in, counted. -/
structure Valid (orders : Orders) (plan : Plan) : Prop where
  ops : getRoleOps (getCurrentRoles plan.guild.roles) (getDesiredRoles plan.members)
    (orders.allRoles (getCurrentRoles plan.guild.roles) (getDesiredRoles plan.members)) = some plan.ops
  missing : ∀ name ∈ plan.missing, name ∈ getDesiredRoles plan.members
  total : countOps plan.ops = some plan.total.operations
  assign : plan.total.assign.toNat = plan.missing.length

/-- The user has confirmed the plan. -/
structure Confirmed (plan : Plan) (past : History) : Prop where
  checked : Checked plan.guild plan.settings plan.members past
  update : ⟨.confirm (.update plan.total), .ok true⟩ ∈ past

/-- One of the operations, or one of the roles for the user. -/
inductive Asks (plan : Plan) (past : History) : RoleOps.Call → Prop
  | update {id : Id .role} {color : UInt32} {mentionable : Bool} (h : .update id color mentionable ∈ plan.ops) :
    Asks plan past (.updateRole plan.guild.id id color mentionable)
  | create {name : String} {uuid : Uuid} {color : UInt32} (h : .create name uuid color ∈ plan.ops) :
    Asks plan past (.createRole plan.guild.id name color true)
  | delete {id : Id .role} (h : .delete id ∈ plan.ops) : Asks plan past (.deleteRole plan.guild.id id)
  | assign {name : String} {roleId : Id .role} (h : name ∈ plan.missing)
      (hrole : IsRoleOf past plan.guild name roleId) :
    Asks plan past (.addGuildMemberRole plan.settings.guildId plan.settings.userId roleId)

end Plan

/-- A change is planned, and there are fewer of its kind so far. -/
def Permitted (orders : Orders) (past : History) (request : RoleOps.Call) (kind : Kind) : Prop :=
  ∃ plan : Plan, plan.Valid orders ∧ plan.Confirmed past ∧ plan.Asks past request ∧
    made past kind < (plan.total.of kind).toNat

/-- Everything was made as planned, and the text tells how many changes that were. -/
def Finished (orders : Orders) (past : History) (text : String) : Prop :=
  ∃ plan : Plan, plan.Valid orders ∧ plan.Confirmed past ∧ Counted past plan.total ∧
    told text = plan.total.kinds.map fun kind => (kind, [made past kind])

/-- So much was made so far as the text tells, out of what was confirmed. -/
def Progressed (orders : Orders) (past : History) (text : String) : Prop :=
  ∃ plan : Plan, plan.Valid orders ∧ plan.Confirmed past ∧
    (∀ kind, made past kind ≤ (plan.total.of kind).toNat) ∧
    told text = plan.total.kinds.map fun kind => (kind, [made past kind, (plan.total.of kind).toNat])

/-- Nothing is to be made. -/
def UpToDate (orders : Orders) (past : History) (text : String) : Prop :=
  ∃ plan : Plan, plan.Valid orders ∧ Checked plan.guild plan.settings plan.members past ∧
    plan.ops = [] ∧ plan.missing = [] ∧ text = "Member roles are already up-to-date"

/-- What a call may be after the ones before it. -/
structure Rule (orders : Orders) (past : History) (o : Call) : Prop where
  change : ∀ request made, o = .role request → kind request = some made → Permitted orders past request made
  success : ∀ text, o = .respond .green text → Finished orders past text
  info : ∀ text, o = .respond .blue text → Progressed orders past text ∨ UpToDate orders past text

/-- Only without a guild, or with far too many roles, there is a panic. -/
def Fails (past : History) : Failure → Prop
  | .error _ => True
  | .panic => ⟨.guild, .ok none⟩ ∈ past ∨
    ∃ guild, ⟨.guild, .ok (some guild)⟩ ∈ past ∧ UInt16.size ≤ guild.roles.length + 2 * discordRoleLimit

/-! ### Counting -/

section Counts
variable {counts counts' : UpdateCounts} {ops : List ChangeOperation}

theorem checkedAdd_eq_some {a b c : UInt16} (h : checkedAdd a b = some c) : c.toNat = a.toNat + b.toNat := by
  unfold checkedAdd at h
  split at h
  next hlt =>
    obtain rfl := Option.some.inj h
    rw [UInt16.toNat_add, Nat.mod_eq_of_lt hlt]
  next => cases h

theorem exists_checkedAdd {a b : UInt16} (h : a.toNat + b.toNat < UInt16.size) : ∃ c, checkedAdd a b = some c :=
  ⟨_, if_pos h⟩

theorem of_raise {kind : Kind} (h : counts.raise kind = some counts') (other : Kind) :
    (counts'.of other).toNat = (counts.of other).toNat + if other = kind then 1 else 0 := by
  cases kind <;> obtain ⟨n, hn, rfl⟩ := Option.map_eq_some_iff.mp h <;> have hn := checkedAdd_eq_some hn <;>
    cases other <;> simp [UpdateCounts.of, hn]

theorem exists_raise {kind : Kind} (h : (counts.of kind).toNat + 1 < UInt16.size) :
    ∃ counts', counts.raise kind = some counts' := by
  cases kind <;> obtain ⟨n, hn⟩ := exists_checkedAdd (b := 1) h <;> exact ⟨_, Option.map_eq_some_iff.mpr ⟨n, hn, rfl⟩⟩

theorem kindOf_ne_assign (op : ChangeOperation) : kindOf op ≠ .assign := by cases op <;> nofun

/-- Counting on from some counts. -/
def countFrom (counts : UpdateCounts) (ops : List ChangeOperation) : Option UpdateCounts :=
  ops.foldlM (fun counts op => counts.raise (kindOf op)) counts

theorem countFrom_cons {op : ChangeOperation} :
    countFrom counts (op :: ops) = (counts.raise (kindOf op)).bind fun counts => countFrom counts ops := rfl

theorem of_countFrom (h : countFrom counts ops = some counts') (kind : Kind) :
    (counts'.of kind).toNat = (counts.of kind).toNat + ops.countP fun op => kindOf op = kind := by
  induction ops generalizing counts with
  | nil =>
    obtain rfl := Option.some.inj h
    rfl
  | cons op ops ih =>
    rw [countFrom_cons] at h
    obtain ⟨next, hnext, hrest⟩ := Option.bind_eq_some_iff.mp h
    rw [ih hrest, of_raise hnext, List.countP_cons]
    by_cases hkind : kindOf op = kind
    · simp [hkind]; omega
    · simp [hkind, Ne.symm hkind]

theorem exists_countFrom (h : ∀ kind, (counts.of kind).toNat + ops.length < UInt16.size) :
    ∃ counts', countFrom counts ops = some counts' := by
  induction ops generalizing counts with
  | nil => exact ⟨counts, rfl⟩
  | cons op ops ih =>
    simp only [List.length_cons] at h
    have hroom := h (kindOf op)
    obtain ⟨next, hnext⟩ : ∃ next, counts.raise (kindOf op) = some next := exists_raise (by omega)
    have hnextRoom : ∀ kind, (next.of kind).toNat + ops.length < UInt16.size := by
      intro kind
      have hkind := h kind
      have hraise := of_raise hnext kind
      split at hraise <;> omega
    obtain ⟨counts', hcounts'⟩ := ih hnextRoom
    exact ⟨counts', by rw [countFrom_cons, hnext]; exact hcounts'⟩

/-- Every operation is of one kind. -/
theorem length_of_countFrom (h : countFrom .new ops = some counts) :
    counts.create.toNat + counts.update.toNat + counts.delete.toNat = ops.length := by
  have hkinds : ∀ ops : List ChangeOperation, (ops.countP fun op => kindOf op = .create) +
      (ops.countP fun op => kindOf op = .update) + (ops.countP fun op => kindOf op = .delete) = ops.length := by
    intro ops
    induction ops with
    | nil => rfl
    | cons op ops ih =>
      have hop := kindOf_ne_assign op
      rw [List.countP_cons, List.countP_cons, List.countP_cons, List.length_cons]
      rcases hkind : kindOf op with _ | _ | _ | _
      case assign => exact absurd hkind hop
      all_goals simp only [decide_true, if_true, reduceCtorEq, decide_false, Bool.false_eq_true, if_false]; omega
  have hcreate := of_countFrom h .create
  have hupdate := of_countFrom h .update
  have hdelete := of_countFrom h .delete
  have hlength := hkinds ops
  simp only [UpdateCounts.of, UpdateCounts.new] at hcreate hupdate hdelete
  rw [hcreate, hupdate, hdelete]
  simpa using hlength

theorem eq_of_of (h : ∀ kind, (counts.of kind).toNat = (counts'.of kind).toNat) : counts = counts' := by
  have hfield := fun kind => UInt16.toNat_inj.mp (h kind)
  obtain ⟨create, update, delete, assign⟩ := counts
  obtain ⟨create', update', delete', assign'⟩ := counts'
  obtain rfl : create = create' := hfield .create
  obtain rfl : update = update' := hfield .update
  obtain rfl : delete = delete' := hfield .delete
  obtain rfl : assign = assign' := hfield .assign
  rfl

theorem sum_eq_some {n : UInt16} (h : counts.sum = some n) : n.toNat =
    counts.create.toNat + counts.update.toNat + counts.delete.toNat + counts.assign.toNat := by
  simp only [UpdateCounts.sum, Option.bind_eq_bind, Option.bind_eq_some_iff] at h
  obtain ⟨b, hb, c, hc, hn⟩ := h
  rw [checkedAdd_eq_some hn, checkedAdd_eq_some hc, checkedAdd_eq_some hb]

theorem exists_sum (h : counts.create.toNat + counts.update.toNat + counts.delete.toNat + counts.assign.toNat <
    UInt16.size) : ∃ n, counts.sum = some n := by
  obtain ⟨b, hb⟩ := exists_checkedAdd (a := counts.create) (b := counts.update) (by omega)
  have hbnat := checkedAdd_eq_some hb
  obtain ⟨c, hc⟩ := exists_checkedAdd (a := b) (b := counts.delete) (by omega)
  have hcnat := checkedAdd_eq_some hc
  obtain ⟨n, hn⟩ := exists_checkedAdd (a := c) (b := counts.assign) (by omega)
  exact ⟨n, by simp [UpdateCounts.sum, hb, hc, hn]⟩

end Counts

/-! ### More history -/

theorem made_cons (answered : Prog.Answered Call.Reply) (past : History) (kind : Kind) :
    made (answered :: past) kind = made past kind + if madeBy answered = some kind then 1 else 0 := by
  unfold made
  rw [List.countP_cons]
  simp

/-- More calls, none of which made a change. -/
structure Extends (past past' : History) : Prop where
  subset : past ⊆ past'
  made : ∀ kind, made past' kind = made past kind

section More
variable {past past' : History} {plan : Plan} {counts : UpdateCounts} {answered : Prog.Answered Call.Reply}

theorem Extends.refl (past : History) : Extends past past := ⟨List.Subset.refl _, fun _ => rfl⟩

theorem Extends.trans {past'' : History} (h : Extends past past') (h' : Extends past' past'') :
    Extends past past'' where
  subset := List.Subset.trans h.subset h'.subset
  made kind := (h'.made kind).trans (h.made kind)

theorem Extends.cons (h : Extends past past') (hanswered : madeBy answered = none) :
    Extends past (answered :: past') where
  subset := List.subset_cons_of_subset _ h.subset
  made kind := by rw [made_cons, h.made, hanswered, if_neg nofun, Nat.add_zero]

theorem Checked.mono {guild : Guild} {gs : GuildSettings} {members : List SystemMember}
    (h : Checked guild gs members past) (hsub : past ⊆ past') : Checked guild gs members past' where
  guild_mem := hsub h.guild_mem
  settings_mem := hsub h.settings_mem
  members_mem := h.members_mem.imp fun _ hmembers => hsub hmembers
  passes := h.passes
  nearLimit hlimit := hsub (h.nearLimit hlimit)

theorem Plan.Confirmed.mono (h : plan.Confirmed past) (hsub : past ⊆ past') : plan.Confirmed past' :=
  ⟨h.checked.mono hsub, hsub h.update⟩

theorem IsRoleOf.mono {guild : Guild} {name : String} {roleId : Id .role} (h : IsRoleOf past guild name roleId)
    (hsub : past ⊆ past') : IsRoleOf past' guild name roleId := by
  refine h.imp_right ?_
  rintro ⟨color, role, hmem, hid⟩
  exact ⟨color, role, hsub hmem, hid⟩

theorem Counted.extends (h : Counted past counts) (hextends : Extends past past') : Counted past' counts :=
  fun kind => (h kind).trans (hextends.made kind).symm

theorem Counted.raise {counts' : UpdateCounts} {kind : Kind} (h : Counted past counts)
    (hraise : counts.raise kind = some counts') (hanswered : madeBy answered = some kind) :
    Counted (answered :: past) counts' := by
  intro other
  rw [of_raise hraise, made_cons, h other, hanswered]
  simp [eq_comm]

theorem counted_nil : Counted [] .new := fun kind => by cases kind <;> rfl

end More

/-! ### Calls that change nothing -/

/-- Neither a change nor a message about changes. -/
def Quiet : Call → Prop
  | .role (.warn _) => True
  | .role _ => False
  | .respond color _ => color = .red
  | _ => True

def IsError (e : Failure) : Prop := ∃ err, e = .error err

section Quiet
variable {orders : Orders} {past : History} {α : Type}

theorem rule_of_quiet {o : Call} (h : Quiet o) : Rule orders past o := by
  refine ⟨?_, ?_, ?_⟩
  · rintro request made rfl hkind
    cases request with
    | warn message => cases hkind
    | _ => exact h.elim
  · rintro text rfl
    exact absurd (show Color.green = .red from h) (by decide)
  · rintro text rfl
    exact absurd (show Color.blue = .red from h) (by decide)

theorem madeBy_of_quiet {o : Call} (h : Quiet o) (r : o.Reply) : madeBy ⟨o, r⟩ = none := by
  cases o with
  | role request =>
    cases request with
    | warn message => rfl
    | _ => exact h.elim
  | _ => rfl

theorem fails_of_isError {e : Failure} (h : IsError e) : Fails past e := by
  obtain ⟨err, rfl⟩ := h
  trivial

theorem traced_quiet {p : UpdateM α} (hp : p.All Quiet IsError) :
    p.Traced (Rule orders) (fun past' _ => Extends past past') Fails past := by
  refine Prog.Traced.keeps (hp.mono (fun _ => id) fun e he past' _ => fails_of_isError he)
    (fun o past' ho _ => rule_of_quiet ho) (fun o r past' ho h => h.cons (madeBy_of_quiet ho r)) (Extends.refl past)

theorem all_orFail (x : Except Error α) : (orFail x).All Quiet IsError := by
  cases x with
  | ok a => trivial
  | error err => exact ⟨err, rfl⟩

theorem all_send {o : Call} (h : Quiet o) : (send o).All Quiet IsError := Prog.All.send h

theorem all_responseError (text : String) : (responseError text).All Quiet IsError :=
  (all_send (o := .respond .red text) rfl).bind all_orFail

theorem all_getUserRole (guildId : GuildId) (roleId : Id .role) : (getUserRole guildId roleId).All Quiet IsError := by
  refine (all_send (o := .cachedRole roleId) trivial).bind fun cached => (all_orFail cached).bind fun role => ?_
  cases role with
  | some role => trivial
  | none =>
    refine (all_send (o := .guildRole guildId roleId) trivial).bind fun fetched => ?_
    exact (all_orFail fetched).bind all_orFail

theorem all_getUserRoles (guildId : GuildId) (userId : Id .user) :
    (getUserRoles guildId userId).All Quiet IsError := by
  have hroles : ∀ roleIds : List (Id .role), (roleIds.mapM (getUserRole guildId)).All Quiet IsError := by
    intro roleIds
    induction roleIds with
    | nil => trivial
    | cons roleId roleIds ih =>
      rw [List.mapM_cons]
      exact (all_getUserRole guildId roleId).bind fun _ => ih.bind fun _ => trivial
  refine (all_send (o := .cachedMember guildId userId) trivial).bind fun cached => ?_
  refine (all_orFail cached).bind fun member => ?_
  cases member with
  | some roles => exact hroles roles
  | none =>
    refine (all_send (o := .guildMember guildId userId) trivial).bind fun fetched => ?_
    exact (all_orFail fetched).bind fun member => (all_orFail member).bind hroles

theorem traced_orFail {x : Except Error α} {Q : History → α → Prop} (h : ∀ a, x = .ok a → Q past a) :
    (orFail x).Traced (Rule orders) Q Fails past := by
  cases x with
  | ok a => exact h a rfl
  | error err => trivial

theorem traced_orPanic {x : Option α} {Q : History → α → Prop} (hsome : ∀ a, x = some a → Q past a)
    (hnone : x = none → Fails past .panic) : (orPanic x).Traced (Rule orders) Q Fails past := by
  cases x with
  | some a => exact hsome a rfl
  | none => exact hnone rfl

end Quiet

/-! ### The operations -/

/-- After the calls `past` some of the operations are left. -/
structure Loop (orders : Orders) (plan : Plan) (past : History) (rest : List ChangeOperation) (stats : UpdateStats)
    (ids : HashMap String (Id .role)) : Prop where
  valid : plan.Valid orders
  confirmed : plan.Confirmed past
  total : stats.total = plan.total
  counted : Counted past stats.done
  ops : rest ⊆ plan.ops
  left : countFrom stats.done rest = some plan.total.operations
  roles : ∀ name id, ids.lookup name = some id → IsRoleOf past plan.guild name id
  named : ∀ name ∈ plan.missing, name ∈ ids ∨ ∃ uuid color, .create name uuid color ∈ rest

section Ops
variable {orders : Orders} {plan : Plan} {past past' : History} {op : ChangeOperation} {rest : List ChangeOperation}
  {stats : UpdateStats} {ids ids' : HashMap String (Id .role)}

theorem Loop.extends (h : Loop orders plan past rest stats ids) (hextends : Extends past past') :
    Loop orders plan past' rest stats ids where
  valid := h.valid
  confirmed := h.confirmed.mono hextends.subset
  total := h.total
  counted := h.counted.extends hextends
  ops := h.ops
  left := h.left
  roles name id hid := (h.roles name id hid).mono hextends.subset
  named := h.named

theorem of_operations_le (total : UpdateCounts) (kind : Kind) : total.operations.of kind ≤ total.of kind := by
  cases kind <;> simp [UpdateCounts.of, UpdateCounts.operations]

/-- The operation is one more of its kind. -/
theorem Loop.made_lt (h : Loop orders plan past (op :: rest) stats ids) :
    made past (kindOf op) < (plan.total.of (kindOf op)).toNat := by
  have hleft := of_countFrom h.left (kindOf op)
  have hle := UInt16.le_iff_toNat_le.mp (of_operations_le plan.total (kindOf op))
  have hcount : 0 < (op :: rest).countP fun other => kindOf other = kindOf op :=
    List.countP_pos_iff.mpr ⟨op, List.mem_cons_self, by simp⟩
  have hcounted := h.counted (kindOf op)
  omega

theorem Loop.permitted (h : Loop orders plan past (op :: rest) stats ids) {request : RoleOps.Call}
    (hasks : plan.Asks past request) (hkind : kind request = some (kindOf op)) : Rule orders past (.role request) := by
  refine ⟨?_, nofun, nofun⟩
  rintro request' made' heq hmade
  obtain rfl := Call.role.inj heq
  obtain rfl := Option.some.inj (hkind.symm.trans hmade)
  exact ⟨plan, h.valid, h.confirmed, hasks, h.made_lt⟩

theorem told_of_counted {stats : UpdateStats} {total : UpdateCounts} (hcounted : Counted past stats.done)
    (htotal : stats.total = total) : told (progressMessage stats) =
      total.kinds.map fun kind => (kind, [made past kind, (total.of kind).toNat]) := by
  subst htotal
  rw [told_progressMessage]
  exact List.map_congr_left fun kind _ => by rw [hcounted kind]

theorem Loop.progress (h : Loop orders plan past rest stats ids) :
    Rule orders past (.respond .blue (progressMessage stats)) := by
  refine ⟨nofun, ?_, ?_⟩
  · rintro text heq
    exact absurd (Call.respond.inj heq).1 (by decide)
  · rintro text heq
    obtain rfl := (Call.respond.inj heq).2
    refine .inl ⟨plan, h.valid, h.confirmed, fun kind => ?_, told_of_counted h.counted h.total⟩
    have hleft := of_countFrom h.left kind
    have hle := UInt16.le_iff_toNat_le.mp (of_operations_le plan.total kind)
    have hcounted := h.counted kind
    omega

/-- The operation was made. -/
theorem Loop.step (h : Loop orders plan past (op :: rest) stats ids) {answered : Prog.Answered Call.Reply}
    (hmade : madeBy answered = some (kindOf op))
    (hroles : ∀ name id, ids'.lookup name = some id → IsRoleOf (answered :: past) plan.guild name id)
    (hnamed : ∀ name ∈ plan.missing, name ∈ ids' ∨ ∃ uuid color, .create name uuid color ∈ rest) :
    ∃ done, stats.done.raise (kindOf op) = some done ∧
      Loop orders plan (answered :: past) rest { stats with done } ids' := by
  have hleft := h.left
  rw [countFrom_cons] at hleft
  obtain ⟨done, hdone, hrest⟩ := Option.bind_eq_some_iff.mp hleft
  exact ⟨done, hdone, {
    valid := h.valid
    confirmed := h.confirmed.mono (List.subset_cons_self _ _)
    total := h.total
    counted := h.counted.raise hdone hmade
    ops := (List.cons_subset.mp h.ops).2
    left := hrest
    roles := hroles
    named := hnamed }⟩

theorem Loop.roles_cons (h : Loop orders plan past rest stats ids) (answered : Prog.Answered Call.Reply)
    (name : String) (id : Id .role) (hid : ids.lookup name = some id) :
    IsRoleOf (answered :: past) plan.guild name id :=
  (h.roles name id hid).mono (List.subset_cons_self _ _)

/-- An operation that is not a new role names no role. -/
theorem Loop.named_of_ne (h : Loop orders plan past (op :: rest) stats ids)
    (hop : ∀ name uuid color, op ≠ .create name uuid color) :
    ∀ name ∈ plan.missing, name ∈ ids ∨ ∃ uuid color, .create name uuid color ∈ rest := by
  intro name hname
  refine (h.named name hname).imp_right ?_
  rintro ⟨uuid, color, hmem⟩
  exact ⟨uuid, color, (List.mem_cons.mp hmem).resolve_left fun heq => hop _ _ _ heq.symm⟩

/-- What one round of the loop may end in. -/
def Made (orders : Orders) (plan : Plan) (op : ChangeOperation) (rest : List ChangeOperation) (stats : UpdateStats)
    (past : History) (ids : HashMap String (Id .role)) : Prop :=
  ∃ done, stats.done.raise (kindOf op) = some done ∧ Loop orders plan past rest { stats with done } ids

theorem traced_executeOp (h : Loop orders plan past (op :: rest) stats ids) :
    (lift (executeOp plan.guild.id ids op)).Traced (Rule orders) (Made orders plan op rest stats) Fails past := by
  have hmem : op ∈ plan.ops := h.ops List.mem_cons_self
  cases op with
  | update id color mentionable =>
    refine ⟨h.permitted (.update hmem) rfl, fun r => ?_⟩
    cases r with
    | error err => trivial
    | ok => exact h.step rfl (h.roles_cons _) (h.named_of_ne nofun)
  | delete id =>
    refine ⟨h.permitted (.delete hmem) rfl, fun r => ?_⟩
    cases r with
    | error err => trivial
    | ok => exact h.step rfl (h.roles_cons _) (h.named_of_ne nofun)
  | create name uuid color =>
    refine ⟨h.permitted (.create hmem) rfl, fun r => ?_⟩
    rcases r with err | err | role
    · trivial
    · trivial
    · refine h.step rfl (fun other id hid => ?_) fun other hother => ?_
      · rcases HashMap.lookup_insert_eq_some_iff.mp hid with ⟨rfl, rfl⟩ | ⟨-, hkept⟩
        · exact .inr ⟨color, role, List.mem_cons_self, rfl⟩
        · exact h.roles_cons _ other id hkept
      · rw [Finmap.mem_insert]
        rcases h.named other hother with hids | ⟨uuid', color', hmem'⟩
        · exact .inl (.inr hids)
        · rcases List.mem_cons.mp hmem' with heq | hrest
          · obtain ⟨rfl, -, -⟩ := ChangeOperation.create.inj heq
            exact .inl (.inl rfl)
          · exact .inr ⟨uuid', color', hrest⟩

end Ops

section Progress
variable {orders : Orders} {past : History} {idx : ℕ} {stats : UpdateStats} {α : Type}

/-- A message may come before the rest. -/
theorem traced_progress {Q : History → α → Prop} {f : UpdateM α}
    (hrule : Rule orders past (.respond .blue (progressMessage stats)))
    (hf : ∀ past', Extends past past' → f.Traced (Rule orders) Q Fails past') :
    (if idx % 10 = 0 then do updateRoleProgress stats; f else f).Traced (Rule orders) Q Fails past := by
  split
  · exact Prog.Traced.send_bind hrule fun _ => hf _ ((Extends.refl past).cons rfl)
  · exact hf past (Extends.refl past)

end Progress

theorem traced_executeOps {orders : Orders} {plan : Plan} {past : History} {rest : List ChangeOperation}
    {stats : UpdateStats} {ids : HashMap String (Id .role)} (idx : ℕ) (h : Loop orders plan past rest stats ids) :
    (executeOps plan.guild.id idx rest stats ids).Traced (Rule orders)
      (fun past' (stats', ids') => Loop orders plan past' [] stats' ids') Fails past := by
  induction rest generalizing idx stats ids past with
  | nil => exact h
  | cons op rest ih =>
    unfold executeOps
    refine Prog.Traced.bind ((traced_executeOp h).mono fun past' ids' hmade => ?_)
    obtain ⟨done, hdone, hloop⟩ := hmade
    rw [hdone]
    exact traced_progress hloop.progress fun past'' hextends => ih (idx + 1) (hloop.extends hextends)

/-! ### The roles of the user -/

/-- After the calls `past` some of the roles are left. -/
structure Assigning (orders : Orders) (plan : Plan) (past : History) (rest : List String) (stats : UpdateStats)
    (ids : HashMap String (Id .role)) : Prop where
  valid : plan.Valid orders
  confirmed : plan.Confirmed past
  total : stats.total = plan.total
  counted : Counted past stats.done
  missing : rest ⊆ plan.missing
  operations : ∀ kind ≠ .assign, stats.done.of kind = plan.total.of kind
  left : stats.done.assign.toNat + rest.length = plan.total.assign.toNat
  roles : ∀ name id, ids.lookup name = some id → IsRoleOf past plan.guild name id
  named : ∀ name ∈ rest, name ∈ ids

section Assign
variable {orders : Orders} {plan : Plan} {past past' : History} {name : String} {rest : List String}
  {stats : UpdateStats} {ids : HashMap String (Id .role)}

/-- The operations are all made. -/
theorem Loop.assigning (h : Loop orders plan past [] stats ids) :
    Assigning orders plan past plan.missing stats ids := by
  have hdone : stats.done = plan.total.operations := Option.some.inj h.left
  refine ⟨h.valid, h.confirmed, h.total, h.counted, List.Subset.refl _, fun kind hkind => ?_, ?_, h.roles, ?_⟩
  · rw [hdone]
    cases kind with
    | assign => exact absurd rfl hkind
    | _ => rfl
  · rw [hdone, h.valid.assign]
    exact Nat.zero_add _
  · exact fun name hname => (h.named name hname).resolve_right fun ⟨_, _, hmem⟩ => List.not_mem_nil hmem

theorem Assigning.extends (h : Assigning orders plan past rest stats ids) (hextends : Extends past past') :
    Assigning orders plan past' rest stats ids where
  valid := h.valid
  confirmed := h.confirmed.mono hextends.subset
  total := h.total
  counted := h.counted.extends hextends
  missing := h.missing
  operations := h.operations
  left := h.left
  roles name id hid := (h.roles name id hid).mono hextends.subset
  named := h.named

theorem Assigning.done_le (h : Assigning orders plan past rest stats ids) (kind : Kind) :
    stats.done.of kind ≤ plan.total.of kind := by
  by_cases hkind : kind = .assign
  · subst hkind
    have hleft := h.left
    exact UInt16.le_iff_toNat_le.mpr (show stats.done.assign.toNat ≤ plan.total.assign.toNat by omega)
  · rw [h.operations kind hkind]
    exact UInt16.le_refl _

theorem Assigning.progress (h : Assigning orders plan past rest stats ids) :
    Rule orders past (.respond .blue (progressMessage stats)) := by
  refine ⟨nofun, ?_, ?_⟩
  · rintro text heq
    exact absurd (Call.respond.inj heq).1 (by decide)
  · rintro text heq
    obtain rfl := (Call.respond.inj heq).2
    refine .inl ⟨plan, h.valid, h.confirmed, fun kind => ?_, told_of_counted h.counted h.total⟩
    exact h.counted kind ▸ UInt16.le_iff_toNat_le.mp (h.done_le kind)

theorem Assigning.permitted (h : Assigning orders plan past (name :: rest) stats ids) {roleId : Id .role}
    (hid : ids.lookup name = some roleId) :
    Rule orders past (.role (.addGuildMemberRole plan.settings.guildId plan.settings.userId roleId)) := by
  refine ⟨?_, nofun, nofun⟩
  rintro request made' heq hmade
  obtain rfl := Call.role.inj heq
  obtain rfl := Option.some.inj hmade
  refine ⟨plan, h.valid, h.confirmed, .assign (h.missing List.mem_cons_self) (h.roles name roleId hid), ?_⟩
  have hleft := h.left
  have hcounted := h.counted .assign
  rw [← hcounted]
  show stats.done.assign.toNat < plan.total.assign.toNat
  rw [List.length_cons] at hleft
  omega

/-- The role was assigned. -/
theorem Assigning.step (h : Assigning orders plan past (name :: rest) stats ids)
    {answered : Prog.Answered Call.Reply} (hmade : madeBy answered = some .assign) :
    ∃ done, stats.done.raise .assign = some done ∧
      Assigning orders plan (answered :: past) rest { stats with done } ids := by
  have hleft := h.left
  rw [List.length_cons] at hleft
  have htotal := plan.total.assign.toNat_lt
  obtain ⟨done, hdone⟩ : ∃ done, stats.done.raise .assign = some done :=
    exists_raise (show stats.done.assign.toNat + 1 < UInt16.size by simp only [UInt16.size]; omega)
  have hraise := of_raise hdone
  exact ⟨done, hdone, {
    valid := h.valid
    confirmed := h.confirmed.mono (List.subset_cons_self _ _)
    total := h.total
    counted := h.counted.raise hdone hmade
    missing := (List.cons_subset.mp h.missing).2
    operations := fun kind hkind => by
      rw [← h.operations kind hkind]
      have hsame := hraise kind
      rw [if_neg hkind, Nat.add_zero] at hsame
      exact UInt16.toNat_inj.mp hsame
    left := by
      have hassign : done.assign.toNat = stats.done.assign.toNat + 1 := hraise .assign
      show done.assign.toNat + rest.length = plan.total.assign.toNat
      omega
    roles := fun other id hid => (h.roles other id hid).mono (List.subset_cons_self _ _)
    named := (List.forall_mem_cons.mp h.named).2 }⟩

theorem madeBy_assign (gs : GuildSettings) (roleId : Id .role) :
    madeBy ⟨.role (.addGuildMemberRole gs.guildId gs.userId roleId), .ok ()⟩ = some .assign := rfl

theorem traced_assignRoles (idx : ℕ) (h : Assigning orders plan past rest stats ids) :
    (assignRoles plan.settings ids idx rest stats).Traced (Rule orders)
      (fun past' stats' => Assigning orders plan past' [] stats' ids) Fails past := by
  induction rest generalizing idx stats past with
  | nil => exact h
  | cons name rest ih =>
    obtain ⟨roleId, hid⟩ := Finmap.mem_iff.mp (h.named name List.mem_cons_self)
    unfold assignRoles
    rw [hid]
    refine Prog.Traced.send_bind (h.permitted hid) fun r => ?_
    cases r with
    | error err => trivial
    | ok =>
      obtain ⟨done, hdone, hstep⟩ := h.step (madeBy_assign plan.settings roleId)
      dsimp only
      rw [hdone]
      exact traced_progress hstep.progress fun past'' hextends => ih (idx + 1) (hstep.extends hextends)

/-- All is made as planned. -/
theorem Assigning.finished (h : Assigning orders plan past [] stats ids) :
    Rule orders past (.respond .green (successMessage stats.done)) := by
  have hdone : stats.done = plan.total := eq_of_of fun kind => by
    by_cases hkind : kind = .assign
    · subst hkind
      exact h.left
    · rw [h.operations kind hkind]
  refine ⟨nofun, ?_, ?_⟩
  · rintro text heq
    obtain rfl := (Call.respond.inj heq).2
    have hcounted : Counted past plan.total := hdone ▸ h.counted
    refine ⟨plan, h.valid, h.confirmed, hcounted, ?_⟩
    rw [told_successMessage, hdone]
    exact List.map_congr_left fun kind _ => by rw [hcounted kind]
  · rintro text heq
    exact absurd (Call.respond.inj heq).1 (by decide)

end Assign

/-! ### The plan -/

section Sizes

theorem card_collect_le {V : Type} (entries : List (String × V)) :
    (HashMap.collect entries).keys.card ≤ entries.length := by
  have hsub : (HashMap.collect entries).keys ⊆ (entries.map Prod.fst).toFinset := by
    intro name hname
    rw [Finmap.mem_keys, HashMap.mem_collect] at hname
    exact List.mem_toFinset.mpr hname
  refine (Finset.card_le_card hsub).trans ((List.toFinset_card_le _).trans ?_)
  rw [List.length_map]

theorem card_getDesiredRoles_le (members : List SystemMember) :
    (getDesiredRoles members).keys.card ≤ members.length :=
  (card_collect_le _).trans (List.length_map _).le

theorem card_getCurrentRoles_le (roles : List GuildRole) : (getCurrentRoles roles).keys.card ≤ roles.length := by
  refine (card_collect_le _).trans ?_
  rw [List.length_map]
  exact List.length_filter_le ..

theorem Orders.length_allRoles_le (orders : Orders) (current desired : HashMap String MemberRole) :
    (orders.allRoles current desired).length ≤ current.keys.card + desired.keys.card := by
  obtain ⟨hnodup, hmem⟩ := orders.isOrder current desired
  rw [← List.toFinset_card_of_nodup hnodup]
  refine (Finset.card_le_card fun name hname => ?_).trans (Finset.card_union_le ..)
  exact (hmem name).mp (List.mem_toFinset.mp hname)

theorem Orders.length_difference (orders : Orders) (names : Finset String) :
    (orders.difference names).length = names.card := by
  rw [← List.toFinset_card_of_nodup (orders.nodup_difference names)]
  congr 1
  ext name
  rw [List.mem_toFinset, orders.mem_difference]

theorem length_le_of_passesCheck {roles : List GuildRole} {members : List SystemMember}
    (h : passesCheck roles members = true) : members.length ≤ discordRoleLimit := by
  have htotal := of_decide_eq_true h
  unfold totalRolesWithMembers at htotal
  omega

theorem length_getRoleOps_le {current desired : HashMap String MemberRole} {allRoles : List String}
    {ops : List ChangeOperation} (h : getRoleOps current desired allRoles = some ops) :
    ops.length ≤ allRoles.length := by
  obtain ⟨results, hresults, rfl⟩ := Option.map_eq_some_iff.mp h
  have hlength := congrArg List.length (mapM_eq_some_iff.mp hresults)
  rw [List.length_map, List.length_map] at hlength
  rw [hlength]
  exact List.length_filterMap_le id results

end Sizes

section Start
variable {orders : Orders} {past : History} {guild : Guild} {gs : GuildSettings} {members : List SystemMember}

/-- The ids are those of roles of the guild. -/
theorem isRoleOf_of_lookup {keys : List String} {ids : HashMap String (Id .role)}
    (h : roleNameIdMap (getCurrentRoles guild.roles) keys = some ids) {name : String} {id : Id .role}
    (hid : ids.lookup name = some id) : IsRoleOf past guild name id := by
  obtain ⟨entries, hentries, rfl⟩ := Option.map_eq_some_iff.mp h
  have hmem := List.mem_map_of_mem (f := some) (HashMap.mem_of_lookup_collect hid)
  rw [← mapM_eq_some_iff.mp hentries] at hmem
  obtain ⟨key, -, hkey⟩ := List.mem_map.mp hmem
  obtain ⟨role, hrole, hentry⟩ := Option.bind_eq_some_iff.mp hkey
  obtain ⟨roleId, hroleId, heq⟩ := Option.map_eq_some_iff.mp hentry
  obtain ⟨rfl, rfl⟩ := Prod.mk.inj heq
  obtain ⟨r, hr, heq⟩ := List.mem_map.mp (HashMap.mem_of_lookup_collect hrole)
  obtain ⟨hname, rfl⟩ := Prod.mk.inj heq
  exact .inl ⟨r, (List.mem_filter.mp hr).1, hname, Option.some.inj hroleId⟩

/-- A role that the user does not have is there, or it is one of those to create. -/
theorem mem_or_create {ids : HashMap String (Id .role)} {ops : List ChangeOperation}
    (hops : getRoleOps (getCurrentRoles guild.roles) (getDesiredRoles members)
      (orders.allRoles (getCurrentRoles guild.roles) (getDesiredRoles members)) = some ops)
    (hids : RoleOps.Names (getCurrentRoles guild.roles) ids) {name : String}
    (hname : name ∈ getDesiredRoles members) : name ∈ ids ∨ ∃ uuid color, .create name uuid color ∈ ops := by
  have hcurrent := hasIds_getCurrentRoles guild.roles
  obtain ⟨-, horder⟩ := orders.isOrder (getCurrentRoles guild.roles) (getDesiredRoles members)
  cases hlookup : (getCurrentRoles guild.roles).lookup name with
  | some role =>
    obtain ⟨id, hid⟩ := Option.isSome_iff_exists.mp (hcurrent name role hlookup)
    exact .inl (Finmap.mem_of_lookup_eq_some ((hids name role hlookup).trans hid))
  | none =>
    obtain ⟨d, hd⟩ := Finmap.mem_iff.mp hname
    rw [RoleOps.getRoleOps_eq hcurrent fun other hother => (horder other).mp hother] at hops
    obtain rfl := Option.some.inj hops
    have hmem : name ∈ orders.allRoles (getCurrentRoles guild.roles) (getDesiredRoles members) :=
      (horder name).mpr (Finset.mem_union_right _ (Finmap.mem_keys.mpr hname))
    have hnamed := (RoleOps.areDesired_getDesiredRoles members name d hd).1
    refine .inr ⟨d.uuid.getD ⟨0⟩, d.color, List.mem_filterMap.mpr ⟨name, hmem, ?_⟩⟩
    rw [roleOp, hlookup, hd]
    show some (ChangeOperation.create d.name _ _) = _
    rw [hnamed]

theorem traced_applyChanges {plan : Plan} (hvalid : plan.Valid orders) (hconfirmed : plan.Confirmed past)
    (hextends : Extends [] past) :
    (applyChanges orders plan.guild plan.settings (getCurrentRoles plan.guild.roles) plan.ops plan.missing
      plan.total).Traced (Rule orders) (fun _ _ => True) Fails past := by
  obtain ⟨ids, hids, hnames⟩ :=
    RoleOps.names_roleNameIdMap (hasIds_getCurrentRoles plan.guild.roles) (orders.mem_keys _)
  have hloop : Loop orders plan past plan.ops ⟨.new, plan.total⟩ ids :=
    { valid := hvalid
      confirmed := hconfirmed
      total := rfl
      counted := counted_nil.extends hextends
      ops := List.Subset.refl _
      left := hvalid.total
      roles := fun name id hid => isRoleOf_of_lookup hids hid
      named := fun name hname => mem_or_create hvalid.ops hnames (hvalid.missing name hname) }
  unfold applyChanges
  refine Prog.Traced.bind (traced_orPanic (fun a ha => ?_) fun hnone => absurd (hids.symm.trans hnone) nofun)
  obtain rfl := Option.some.inj (hids.symm.trans ha)
  refine Prog.Traced.bind ((traced_executeOps 0 hloop).mono fun past' r hdone => ?_)
  refine Prog.Traced.bind ((traced_assignRoles 0 hdone.assigning).mono fun past'' stats hassigned => ?_)
  exact Prog.Traced.send_bind hassigned.finished fun r => traced_orFail fun _ _ => trivial

theorem length_ops_le {ops : List ChangeOperation} (hpasses : passesCheck guild.roles members = true)
    (hops : getRoleOps (getCurrentRoles guild.roles) (getDesiredRoles members)
      (orders.allRoles (getCurrentRoles guild.roles) (getDesiredRoles members)) = some ops) :
    ops.length ≤ guild.roles.length + discordRoleLimit := by
  have hlength := (length_getRoleOps_le hops).trans (orders.length_allRoles_le ..)
  have hcurrent := card_getCurrentRoles_le guild.roles
  have hdesired := card_getDesiredRoles_le members
  have hmembers := length_le_of_passesCheck hpasses
  omega

/-- Operations that are not too many can be counted. -/
theorem exists_countOps {ops : List ChangeOperation} (h : ops.length < UInt16.size) :
    ∃ counts, countOps ops = some counts := by
  refine exists_countFrom fun kind => ?_
  have hnew : (UpdateCounts.new.of kind).toNat = 0 := by cases kind <;> rfl
  omega

theorem assign_of_countOps {ops : List ChangeOperation} {counts : UpdateCounts} (h : countOps ops = some counts) :
    counts.assign = 0 := by
  have hassign := of_countFrom h .assign
  have hnone : (ops.countP fun op => kindOf op = .assign) = 0 :=
    List.countP_eq_zero.mpr fun op _ => by simp [kindOf_ne_assign op]
  rw [hnone] at hassign
  exact UInt16.toNat_inj.mp hassign

theorem length_missing (hpasses : passesCheck guild.roles members = true) (names : Finset String) :
    (orders.difference ((getDesiredRoles members).keys \ names)).length ≤ discordRoleLimit := by
  rw [orders.length_difference]
  refine (Finset.card_le_card Finset.sdiff_subset).trans ?_
  exact (card_getDesiredRoles_le members).trans (length_le_of_passesCheck hpasses)

theorem ops_eq_nil {ops : List ChangeOperation} {counts : UpdateCounts} (h : countOps ops = some counts)
    (hzero : ∀ kind, (counts.of kind).toNat = 0) : ops = [] := by
  cases ops with
  | nil => rfl
  | cons op ops =>
    have hkind := of_countFrom h (kindOf op)
    have hcount : 0 < (op :: ops).countP fun other => kindOf other = kindOf op :=
      List.countP_pos_iff.mpr ⟨op, List.mem_cons_self, by simp⟩
    have hnone := hzero (kindOf op)
    omega

theorem traced_confirm {plan : Plan} (hvalid : plan.Valid orders)
    (hchecked : Checked plan.guild plan.settings plan.members past) (hextends : Extends [] past) :
    Prog.Traced (Rule orders) (fun _ _ => True) Fails past (do
      if ← orFail (← send (.confirm (.update plan.total))) then
        applyChanges orders plan.guild plan.settings (getCurrentRoles plan.guild.roles) plan.ops plan.missing
          plan.total) := by
  refine Prog.Traced.send_bind (rule_of_quiet trivial) fun r => Prog.Traced.bind (traced_orFail fun confirmed hr => ?_)
  subst hr
  split
  next hconfirmed =>
    subst hconfirmed
    refine traced_applyChanges hvalid ⟨hchecked.mono (List.subset_cons_self _ _), List.mem_cons_self⟩ ?_
    exact hextends.trans ((Extends.refl past).cons rfl)
  next => trivial

/-- What the user is asked about is valid. -/
theorem valid_plan (gs : GuildSettings) {ops : List ChangeOperation} {counts : UpdateCounts} {missing : List String}
    (hops : getRoleOps (getCurrentRoles guild.roles) (getDesiredRoles members)
      (orders.allRoles (getCurrentRoles guild.roles) (getDesiredRoles members)) = some ops)
    (hcounts : countOps ops = some counts) (hmissing : ∀ name ∈ missing, name ∈ getDesiredRoles members)
    (hlength : missing.length ≤ discordRoleLimit) :
    Plan.Valid orders ⟨guild, gs, members, ops, missing, { counts with assign := UInt16.ofNat missing.length }⟩ where
  ops := hops
  missing := hmissing
  total := by
    rw [hcounts, UpdateCounts.operations, ← assign_of_countOps hcounts]
  assign := by
    have hlt : missing.length < UInt16.size := hlength.trans_lt (by decide)
    exact UInt16.toNat_ofNat_of_lt hlt

theorem traced_updateMembers (hchecked : Checked guild gs members past) (hextends : Extends [] past) :
    (updateMembers orders guild gs members).Traced (Rule orders) (fun _ _ => True) Fails past := by
  unfold updateMembers
  refine Prog.Traced.bind ((traced_quiet (all_getUserRoles _ _)).mono fun past₁ roles hquiet => ?_)
  have hchecked₁ := hchecked.mono hquiet.subset
  have hextends₁ := hextends.trans hquiet
  have hpanic : UInt16.size ≤ guild.roles.length + 2 * discordRoleLimit → Fails past₁ .panic :=
    fun hmany => .inr ⟨guild, hchecked₁.guild_mem, hmany⟩
  dsimp only
  set missing := orders.difference ((getDesiredRoles members).keys \ currentUserRoleNames roles) with hdef
  have hlength : missing.length ≤ discordRoleLimit := length_missing hchecked.passes _
  have hmissing : ∀ name ∈ missing, name ∈ getDesiredRoles members := by
    intro name hname
    have hmem := (Finset.mem_sdiff.mp ((orders.mem_difference _ name).mp hname)).1
    exact Finmap.mem_keys.mp hmem
  refine Prog.Traced.bind (traced_orPanic (fun ops hops => ?_) fun hnone => ?_)
  swap
  · rw [RoleOps.getRoleOps_eq (hasIds_getCurrentRoles _) fun name hname => ((orders.isOrder _ _).2 name).mp hname]
      at hnone
    cases hnone
  have hopsLength := length_ops_le hchecked.passes hops
  refine Prog.Traced.bind (traced_orPanic (fun counts hcounts => ?_) fun hnone => ?_)
  swap
  · refine hpanic (not_lt.mp fun hroom => ?_)
    obtain ⟨counts, hcounts⟩ : ∃ counts, countOps ops = some counts := exists_countOps (by omega)
    cases hnone.symm.trans hcounts
  have hvalid := valid_plan gs hops hcounts hmissing hlength
  have hassign : (UInt16.ofNat missing.length).toNat = missing.length := hvalid.assign
  refine Prog.Traced.bind (traced_orPanic (fun n hn => ?_) fun hnone => ?_)
  swap
  · refine hpanic (not_lt.mp fun hroom => ?_)
    have hcount := length_of_countFrom hcounts
    have hfits : counts.create.toNat + counts.update.toNat + counts.delete.toNat +
        (UInt16.ofNat missing.length).toNat < UInt16.size := by omega
    obtain ⟨n, hn⟩ : ∃ n, ({ counts with assign := UInt16.ofNat missing.length } : UpdateCounts).sum = some n :=
      exists_sum hfits
    cases hnone.symm.trans hn
  have hsum := sum_eq_some hn
  simp only [hassign] at hsum
  split
  next hzero =>
    rw [hzero] at hsum
    have hnone : ∀ kind, (counts.of kind).toNat = 0 := by
      have hassign' := congrArg UInt16.toNat (assign_of_countOps hcounts)
      intro kind
      cases kind <;> simp only [UpdateCounts.of] <;> simp at hsum hassign' ⊢ <;> omega
    have hmissingNil : missing = [] := List.length_eq_zero_iff.mp (by simp at hsum; omega)
    refine Prog.Traced.send_bind ⟨nofun, ?_, ?_⟩ fun r => traced_orFail fun _ _ => trivial
    · rintro text heq
      exact absurd (Call.respond.inj heq).1 (by decide)
    · rintro text heq
      obtain rfl := (Call.respond.inj heq).2
      exact .inr ⟨_, hvalid, hchecked₁, ops_eq_nil hcounts hnone, hmissingNil, rfl⟩
  next => exact traced_confirm hvalid hchecked₁ hextends₁

/-- The members are those that were answered, or there are none. -/
theorem traced_handleGetSystemMembers (token : String) (system : Uuid) (past : History) :
    (handleGetSystemMembers token system).Traced (Rule orders)
      (fun past' answered => Extends past past' ∧
        ∀ members, answered = some members → ⟨.getSystemMembers token system, .ok members⟩ ∈ past') Fails past := by
  refine Prog.Traced.send_bind (rule_of_quiet trivial) fun r => ?_
  have hfirst : Extends past (⟨.getSystemMembers token system, r⟩ :: past) := (Extends.refl past).cons rfl
  have htold : ∀ text, (do responseError text; pure none : UpdateM (Option (List SystemMember))).Traced (Rule orders)
      (fun past' answered => Extends past past' ∧ ∀ members, answered = some members →
        ⟨.getSystemMembers token system, .ok members⟩ ∈ past') Fails
      (⟨.getSystemMembers token system, r⟩ :: past) := by
    refine fun text => Prog.Traced.bind ((traced_quiet (all_responseError text)).mono fun past' _ h => ?_)
    exact ⟨hfirst.trans h, nofun⟩
  rcases r with (⟨code, message⟩ | message) | members
  · dsimp only
    split
    · exact htold _
    · split
      · exact htold _
      · trivial
  · trivial
  · refine ⟨hfirst, fun members' heq => ?_⟩
    obtain rfl := Option.some.inj heq
    exact List.mem_cons_self

theorem traced_handle (token : Except Error (Option String)) :
    (handle orders token).Traced (Rule orders) (fun _ _ => True) Fails [] := by
  unfold handle
  refine Prog.Traced.send_bind (rule_of_quiet trivial) fun r => Prog.Traced.bind (traced_orFail fun answered hr => ?_)
  subst hr
  cases answered with
  | none => exact .inl List.mem_cons_self
  | some guild =>
  refine Prog.Traced.send_bind (rule_of_quiet trivial) fun r => Prog.Traced.bind (traced_orFail fun _ _ => ?_)
  refine Prog.Traced.send_bind (rule_of_quiet trivial) fun r => Prog.Traced.bind (traced_orFail fun answered hr => ?_)
  subst hr
  cases answered with
  | none => exact (traced_quiet (all_responseError _)).mono fun _ _ _ => trivial
  | some gs =>
  refine Prog.Traced.bind (traced_orFail fun token _ => ?_)
  refine Prog.Traced.bind ((traced_handleGetSystemMembers _ _ _).mono fun past₁ answered h => ?_)
  obtain ⟨hextends, hmembers⟩ := h
  cases answered with
  | none => trivial
  | some members =>
  have hguild : ⟨.guild, .ok (some guild)⟩ ∈ past₁ := hextends.subset (by simp)
  have hsettings : ⟨.getGuildSettings guild.id, .ok (some gs)⟩ ∈ past₁ := hextends.subset List.mem_cons_self
  have hquiet : Extends [] past₁ := by
    refine Extends.trans ?_ hextends
    exact (((Extends.refl []).cons rfl).cons rfl).cons rfl
  have hchecked : passesCheck guild.roles members = true → ∀ past', past₁ ⊆ past' →
      (discordRoleLimit - remainingRoleWarning ≤ totalRolesWithMembers guild.roles members →
        ⟨.confirm (.nearRoleLimit members.length (guild.roles.length - (getCurrentRoles guild.roles).keys.card)),
          .ok true⟩ ∈ past') → Checked guild gs members past' := fun hpasses past' hsub hnear =>
    ⟨hsub hguild, hsub hsettings, ⟨_, hsub (hmembers members rfl)⟩, hpasses, hnear⟩
  dsimp only
  split
  next => exact (traced_quiet (all_responseError _)).mono fun _ _ _ => trivial
  next htotal =>
    have hpasses : passesCheck guild.roles members = true := decide_eq_true (not_lt.mp htotal)
    split
    next hnear =>
      refine Prog.Traced.send_bind (rule_of_quiet trivial) fun r => ?_
      refine Prog.Traced.bind (traced_orFail fun confirmed hr => ?_)
      subst hr
      split
      next hconfirmed =>
        subst hconfirmed
        refine traced_updateMembers (hchecked hpasses _ (List.subset_cons_self _ _) fun _ => List.mem_cons_self) ?_
        exact hquiet.trans ((Extends.refl past₁).cons rfl)
      next => trivial
    next hfar =>
      exact traced_updateMembers (hchecked hpasses _ (List.Subset.refl _) fun hnear => absurd hnear hfar) hquiet

end Start

/-! ### Every run -/

section Runs
variable {σ : Type} {world : (o : Call) → σ → o.Reply → σ → Prop} {rely : σ → σ → Prop} {s t : σ}
  {calls : List (Called Call Call.Reply σ)} {result : Except Failure Unit}

/-- The numbers in the texts that the user is sent are those of the changes of each kind that were made, out of the
confirmed ones; in the end these are the same. -/
theorem tells_what_was_made (orders : Orders) (token : Except Error (Option String))
    (h : (handle orders token).Runs world rely s calls result t) {pre post : List (Called Call Call.Reply σ)}
    {c : Called Call Call.Reply σ} (hcalls : calls = pre ++ c :: post) {text : String} :
    (c.op = .respond .blue text →
      Progressed orders (Prog.history pre) text ∨ UpToDate orders (Prog.history pre) text) ∧
    (c.op = .respond .green text → Finished orders (Prog.history pre) text) := by
  have hrule := (h.traced (traced_handle token)).1 pre c post hcalls
  exact ⟨hrule.info text, hrule.success text⟩

/-- A guild that is known, and whose roles are not far beyond the limit, is no reason to panic. -/
theorem panics_only_beyond_limit (orders : Orders) (token : Except Error (Option String))
    (h : (handle orders token).Runs world rely s calls (.error .panic) t) :
    ⟨.guild, .ok none⟩ ∈ Prog.history calls ∨ ∃ guild, ⟨.guild, .ok (some guild)⟩ ∈ Prog.history calls ∧
      UInt16.size ≤ guild.roles.length + 2 * discordRoleLimit :=
  (h.traced (traced_handle token)).2.2 .panic rfl

end Runs

noncomputable def someOrders : Orders where
  allRoles current desired := (current.keys ∪ desired.keys).toList
  keys current := current.keys.toList
  difference names := names.toList
  isOrder _ _ := ⟨Finset.nodup_toList _, fun _ => Finset.mem_toList⟩
  mem_keys _ _ := Finset.mem_toList.trans Finmap.mem_keys
  nodup_difference := Finset.nodup_toList
  mem_difference _ _ := Finset.mem_toList

def newGuild : Guild := ⟨⟨218, by decide⟩, []⟩

def newSettings : GuildSettings := ⟨⟨218, by decide⟩, ⟨219, by decide⟩, ⟨3⟩⟩

def newRole : GuildRole := ⟨⟨220, by decide⟩, "New (Alter)", pkColorToDiscord none, true⟩

def called (o : Call) (r : o.Reply) : Called Call Call.Reply Unit := ⟨o, r, (), ()⟩

def oneEach : UpdateCounts := ⟨1, 0, 0, 1⟩

/-- One role is created and assigned. -/
def firstCalls : List (Called Call Call.Reply Unit) :=
  [called .guild (.ok (some newGuild)), called .deferEphemeral (.ok ()),
    called (.getGuildSettings newGuild.id) (.ok (some newSettings)),
    called (.getSystemMembers "" newSettings.systemUuid) (.ok [newMember]),
    called (.cachedMember newSettings.guildId newSettings.userId) (.ok (some [])),
    called (.confirm (.update oneEach)) (.ok true)]

def laterCalls : List (Called Call Call.Reply Unit) :=
  [called (.respond .blue (progressMessage ⟨⟨1, 0, 0, 0⟩, oneEach⟩)) (.ok ()),
    called (.role (.addGuildMemberRole newSettings.guildId newSettings.userId newRole.id)) (.ok ()),
    called (.respond .blue (progressMessage ⟨oneEach, oneEach⟩)) (.ok ()),
    called (.respond .green (successMessage oneEach)) (.ok ())]

def createCall : Called Call Call.Reply Unit :=
  called (.role (.createRole newGuild.id newRole.name newRole.primaryColor true)) (.ok (.ok newRole))

theorem runs_applyChanges : (applyChanges someOrders newGuild newSettings (getCurrentRoles [])
    [.create newRole.name ⟨5⟩ newRole.primaryColor] ["New (Alter)"] oneEach).Runs (fun _ _ _ _ => True)
    (fun _ _ => True) () (createCall :: laterCalls) (.ok ()) () := by
  have hkeys : someOrders.keys (getCurrentRoles []) = [] := Finset.toList_empty
  unfold applyChanges
  rw [hkeys]
  refine .call trivial trivial (.call trivial trivial ?_)
  refine .call trivial trivial (.call trivial trivial (.call trivial trivial ?_))
  exact .pure ..

theorem runs_newGuild : (handle someOrders (.ok none)).Runs (fun _ _ _ _ => True) (fun _ _ => True) ()
    (firstCalls ++ createCall :: laterCalls) (.ok ()) () := by
  have hkeys : (getDesiredRoles [newMember]).keys = {"New (Alter)"} := by
    ext name
    rw [Finmap.mem_keys, getDesiredRoles, HashMap.mem_collect, Finset.mem_singleton]
    exact List.mem_singleton
  have hall : someOrders.allRoles (getCurrentRoles []) (getDesiredRoles [newMember]) = ["New (Alter)"] := by
    show ((getCurrentRoles []).keys ∪ (getDesiredRoles [newMember]).keys).toList = _
    rw [hkeys]
    exact Finset.toList_singleton _
  have hmissing : someOrders.difference ((getDesiredRoles [newMember]).keys \ currentUserRoleNames []) =
      ["New (Alter)"] := by
    show ((getDesiredRoles [newMember]).keys \ currentUserRoleNames []).toList = _
    rw [hkeys]
    exact Finset.toList_singleton _
  have hops : getRoleOps (getCurrentRoles []) (getDesiredRoles [newMember])
      (someOrders.allRoles (getCurrentRoles []) (getDesiredRoles [newMember])) =
        some [.create newRole.name ⟨5⟩ newRole.primaryColor] := by
    rw [hall]
    rfl
  refine .call trivial trivial (.call trivial trivial (.call trivial trivial (.call trivial trivial ?_)))
  show (updateMembers someOrders newGuild newSettings [newMember]).Runs _ _ _ _ _ _
  unfold updateMembers
  refine .call trivial trivial ?_
  show Prog.Runs _ _ (do
    let ops ← orPanic (getRoleOps (getCurrentRoles []) (getDesiredRoles [newMember])
      (someOrders.allRoles (getCurrentRoles []) (getDesiredRoles [newMember])))
    let counts ← orPanic (countOps ops)
    let missing := someOrders.difference ((getDesiredRoles [newMember]).keys \ currentUserRoleNames [])
    let total := { counts with assign := UInt16.ofNat missing.length }
    if (← orPanic total.sum) = 0 then responseInfo "Member roles are already up-to-date"
    else if ← orFail (← send (.confirm (.update total))) then
      applyChanges someOrders newGuild newSettings (getCurrentRoles []) ops missing total) _ _ _ _
  rw [hops, hmissing]
  refine .call trivial trivial ?_
  show (applyChanges someOrders newGuild newSettings (getCurrentRoles [])
    [.create newRole.name ⟨5⟩ newRole.primaryColor] ["New (Alter)"] oneEach).Runs _ _ _ _ _ _
  exact runs_applyChanges

theorem tells_what_was_made_of_newGuild :
    Finished someOrders (Prog.history (firstCalls ++ createCall :: laterCalls.take 3)) (successMessage oneEach) ∧
      told (successMessage oneEach) = [(.create, [1]), (.assign, [1])] :=
  have hcalls : firstCalls ++ createCall :: laterCalls = (firstCalls ++ createCall :: laterCalls.take 3) ++
      called (.respond .green (successMessage oneEach)) (.ok ()) :: [] := rfl
  ⟨(tells_what_was_made someOrders (.ok none) runs_newGuild hcalls).2 rfl, told_successMessage oneEach⟩

theorem panics_only_beyond_limit_of_no_guild : ⟨.guild, .ok none⟩ ∈ Prog.history [called .guild (.ok none)] ∨
    ∃ guild, ⟨.guild, .ok (some guild)⟩ ∈ Prog.history [called .guild (.ok none)] ∧
      UInt16.size ≤ guild.roles.length + 2 * discordRoleLimit :=
  have h : (handle someOrders (.ok none)).Runs (fun _ _ _ _ => True) (fun _ _ => True) () [called .guild (.ok none)]
      (.error .panic) () := .call trivial trivial (.throw ..)
  panics_only_beyond_limit someOrders (.ok none) h

end Tulpje.Pluralkit.RoleUpdate
