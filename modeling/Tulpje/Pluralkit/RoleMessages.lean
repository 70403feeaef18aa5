import Tulpje.Lib.Words
import Tulpje.Pluralkit.RoleOps
import Tulpje.Pluralkit.SystemRef

/-!
# What the user is told of the changes of roles

The counters of `roles/update_stats.rs`, the prompts of `roles/prompts.rs`, and the messages of `roles/update.rs` that
count changes. A progress message tells for each kind of which there are to be any how many were made out of how many
(`told_progressMessage`), the prompt and the final message how many there will be or were (`told_promptMessage`,
`told_successMessage`).
-/

namespace Tulpje.Pluralkit.RoleUpdate

open Lib

/-! ### `update_stats.rs` -/

/-- The kinds of changes that are counted. -/
inductive Kind
  | create
  | update
  | delete
  | assign
  deriving DecidableEq

structure UpdateCounts where
  create : UInt16
  update : UInt16
  delete : UInt16
  assign : UInt16
  deriving DecidableEq

structure UpdateStats where
  done : UpdateCounts
  total : UpdateCounts

/-- `a + b`; an overflow is a panic. -/
def checkedAdd (a b : UInt16) : Option UInt16 := if a.toNat + b.toNat < UInt16.size then some (a + b) else none

namespace UpdateCounts

def new : UpdateCounts := ⟨0, 0, 0, 0⟩

def sum (self : UpdateCounts) : Option UInt16 := do
  checkedAdd (← checkedAdd (← checkedAdd self.create self.update) self.delete) self.assign

/-- One more of this kind. -/
def raise (self : UpdateCounts) : Kind → Option UpdateCounts
  | .create => (checkedAdd self.create 1).map fun create => { self with create }
  | .update => (checkedAdd self.update 1).map fun update => { self with update }
  | .delete => (checkedAdd self.delete 1).map fun delete => { self with delete }
  | .assign => (checkedAdd self.assign 1).map fun assign => { self with assign }

def of (self : UpdateCounts) : Kind → UInt16
  | .create => self.create
  | .update => self.update
  | .delete => self.delete
  | .assign => self.assign

end UpdateCounts

/-! ### `constants.rs` and `prompts.rs` -/

def remainingRoleWarning : ℕ := 10

def roleChangeMessage (counts : UpdateCounts) (between : String) : String :=
  let parts := [(counts.create, "created"), (counts.update, "updated"), (counts.delete, "deleted"),
    (counts.assign, "assigned")].filter fun part => 0 < part.1
  let between := if between ≠ "" then String.ofList (trim between.toList) ++ " " else between
  ", ".intercalate <| parts.mapIdx fun idx (count, verb) =>
    if idx = 0 then
      let noun := if count = 1 then "role" else "roles"
      s!"{count} {noun} {between}{verb}"
    else s!"{count} {between}{verb}"

/-- `NearRoleLimitWarningPrompt` and `ConfirmUpdatePrompt`. -/
inductive Prompt
  | nearRoleLimit (systemMemberCount existingRoleCount : ℕ)
  | update (total : UpdateCounts)

def roleNoun (count : ℕ) : String := if count = 1 then "role" else "roles"

def memberNoun (count : ℕ) : String := if count = 1 then "member" else "members"

def Prompt.promptMessage : Prompt → String
  | nearRoleLimit members existing =>
    let combined := members + existing
    let remaining := discordRoleLimit - combined
    let existingNoun := roleNoun existing
    let combinedNoun := roleNoun combined
    let remainingNoun := roleNoun remaining
    let memberNoun := memberNoun members
    s!"### Warning\nThis server currently has {existing} {existingNoun}, adding roles for {members} " ++
      s!"sytem {memberNoun} would leave you with {combined} {combinedNoun} which is close to " ++
      s!"discord's limit of {discordRoleLimit} roles,leaving you with {remaining} remaining {remainingNoun}, " ++
      "is that okay?"
  | update total =>
    let changes := roleChangeMessage total "will be"
    s!"### Update Roles?\n{changes}"

/-! ### `update.rs` -/

def progressMessage (stats : UpdateStats) : String :=
  let parts := [(stats.done.create, stats.total.create, "created"), (stats.done.update, stats.total.update, "updated"),
    (stats.done.delete, stats.total.delete, "deleted"), (stats.done.assign, stats.total.assign, "assigned")].filter
    fun part => 0 < part.2.1
  let text := ", ".intercalate (parts.map fun (done, total, verb) => s!"{done}/{total} {verb}")
  s!"### Updating...\n{text}"

def successMessage (done : UpdateCounts) : String :=
  let changes := roleChangeMessage done ""
  s!"### Member Roles Updated\n{changes}"

/-! ### What the texts tell -/

namespace Kind

def all : List Kind := [create, update, delete, assign]

def verb : Kind → String
  | create => "created"
  | update => "updated"
  | delete => "deleted"
  | assign => "assigned"

/-- The kind that a word names. -/
def ofWord (word : List Char) : Option Kind := all.find? fun kind => kind.verb.toList = word

theorem ofWord_verb (kind : Kind) : ofWord kind.verb.toList = some kind := by
  cases kind <;> rfl

theorem ofWord_of_isDigit (word : List Char) (h : ∃ c ∈ word, c.isDigit = true) : ofWord word = none := by
  obtain ⟨c, hc, hdigit⟩ := h
  refine List.find?_eq_none.mpr fun kind _ heq => ?_
  obtain rfl := of_decide_eq_true heq
  have hnone : kind.verb.toList.any Char.isDigit = false := by cases kind <;> rfl
  exact List.any_eq_false.mp hnone c hc hdigit

end Kind

/-- The numbers that a text gives for each kind. -/
def told (text : String) : List (Kind × List ℕ) := Words.entries Kind.ofWord text

open Words

/-- The kinds of which the counts have any. -/
def UpdateCounts.kinds (self : UpdateCounts) : List Kind := Kind.all.filter fun kind => 0 < self.of kind

theorem toList_toString (n : UInt16) : (toString n).toList = Nat.toDigits 10 n.toNat := Nat.toList_repr

/-- A verb ends what is said of its kind. -/
theorem readEntries_verb (kind : Kind) (numbers : List ℕ) (rest : List (List Char)) :
    readEntries Kind.ofWord numbers (words kind.verb.toList ++ rest) =
      (kind, numbers) :: readEntries Kind.ofWord [] rest := by
  have hverb : kind.verb.toList.all Char.isAlphanum = true := by cases kind <;> rfl
  rw [words_of_isAlphanum (List.all_eq_true.mp hverb)]
  exact readEntries_of_label kind.ofWord_verb numbers rest

theorem says_progress (done total : UInt16) (kind : Kind) :
    Says Kind.ofWord s!"{done}/{total} {kind.verb}".toList [(kind, [done.toNat, total.toNat])] := by
  intro rest
  have htext : s!"{done}/{total} {kind.verb}".toList =
      Nat.toDigits 10 done.toNat ++ '/' :: (Nat.toDigits 10 total.toNat ++ ' ' :: kind.verb.toList) := by
    simp only [String.toList_append, toList_toString, List.append_assoc]
    rfl
  rw [htext, words_toDigits_append rfl, words_toDigits_append rfl, List.cons_append, List.cons_append,
    readEntries_toDigits Kind.ofWord_of_isDigit, readEntries_toDigits Kind.ofWord_of_isDigit, readEntries_verb]
  rfl

/-- A progress message tells how many were made out of how many. -/
theorem told_progressMessage (stats : UpdateStats) : told (progressMessage stats) =
    stats.total.kinds.map fun kind => (kind, [(stats.done.of kind).toNat, (stats.total.of kind).toNat]) := by
  have hparts : [(stats.done.create, stats.total.create, "created"), (stats.done.update, stats.total.update, "updated"),
      (stats.done.delete, stats.total.delete, "deleted"), (stats.done.assign, stats.total.assign, "assigned")].filter
      (fun part => 0 < part.2.1) =
      stats.total.kinds.map fun kind => (stats.done.of kind, stats.total.of kind, kind.verb) := by
    show (Kind.all.map fun kind => (stats.done.of kind, stats.total.of kind, kind.verb)).filter _ = _
    exact List.filter_map
  have htext : (progressMessage stats).toList = "### Updating...".toList ++ '\n' ::
      (", ".intercalate (stats.total.kinds.map fun kind =>
        s!"{stats.done.of kind}/{stats.total.of kind} {kind.verb}")).toList := by
    rw [progressMessage]
    dsimp only
    rw [hparts, List.map_map]
    simp only [String.toList_append]
    rfl
  have hheader : Says Kind.ofWord "### Updating...".toList [] := says_of_others (by decide)
  have hempty : Kind.ofWord [] = none := rfl
  have hbody := says_intercalate hempty fun kind (_ : kind ∈ stats.total.kinds) =>
    says_progress (stats.done.of kind) (stats.total.of kind) kind
  refine Says.entries ?_
  rw [List.map_eq_flatMap, htext]
  exact hheader.append rfl hbody

/-- What stands before a verb, without numbers and verbs of its own. -/
def Filler (filler : String) : Prop := ∀ kind numbers rest,
  readEntries Kind.ofWord numbers (words (filler.toList ++ kind.verb.toList) ++ rest) =
    (kind, numbers) :: readEntries Kind.ofWord [] rest

theorem filler_empty : Filler "" := readEntries_verb

theorem filler_willBe : Filler "will be " := by
  intro kind numbers rest
  have hwords : words ("will be ".toList ++ kind.verb.toList) =
      "will".toList :: "be".toList :: words kind.verb.toList := rfl
  rw [hwords, List.cons_append, List.cons_append, readEntries_of_other rfl rfl, readEntries_of_other rfl rfl,
    readEntries_verb]

section Change
variable {filler : String} (h : Filler filler) (count : UInt16) (kind : Kind)

include h

theorem says_change : Says Kind.ofWord s!"{count} {filler}{kind.verb}".toList [(kind, [count.toNat])] := by
  intro rest
  have htext : s!"{count} {filler}{kind.verb}".toList =
      Nat.toDigits 10 count.toNat ++ ' ' :: (filler.toList ++ kind.verb.toList) := by
    simp only [String.toList_append, toList_toString, List.append_assoc]
    rfl
  rw [htext, words_toDigits_append rfl, List.cons_append, readEntries_toDigits Kind.ofWord_of_isDigit, h]
  rfl

theorem says_firstChange {noun : String} (hnoun : noun = "role" ∨ noun = "roles") :
    Says Kind.ofWord s!"{count} {noun} {filler}{kind.verb}".toList [(kind, [count.toNat])] := by
  intro rest
  have htext : s!"{count} {noun} {filler}{kind.verb}".toList =
      Nat.toDigits 10 count.toNat ++ ' ' :: (noun.toList ++ ' ' :: (filler.toList ++ kind.verb.toList)) := by
    simp only [String.toList_append, toList_toString, List.append_assoc]
    rfl
  have hword : words noun.toList = [noun.toList] ∧ Kind.ofWord noun.toList = none ∧ readNumber noun.toList = none := by
    rcases hnoun with rfl | rfl <;> exact ⟨rfl, rfl, rfl⟩
  rw [htext, words_toDigits_append rfl, words_append rfl, hword.1, List.singleton_append, List.cons_append,
    List.cons_append, readEntries_toDigits Kind.ofWord_of_isDigit, readEntries_of_other hword.2.1 hword.2.2, h]
  rfl

end Change

theorem says_roleChangeMessage (counts : UpdateCounts) {between filler : String} (hfiller : Filler filler)
    (hbetween : (if between ≠ "" then String.ofList (trim between.toList) ++ " " else between) = filler) :
    Says Kind.ofWord (roleChangeMessage counts between).toList
      (counts.kinds.map fun kind => (kind, [(counts.of kind).toNat])) := by
  have hparts : [(counts.create, "created"), (counts.update, "updated"), (counts.delete, "deleted"),
      (counts.assign, "assigned")].filter (fun part => 0 < part.1) =
      counts.kinds.map fun kind => (counts.of kind, kind.verb) := by
    show (Kind.all.map fun kind => (counts.of kind, kind.verb)).filter _ = _
    exact List.filter_map
  unfold roleChangeMessage
  dsimp only
  rw [hparts, hbetween, List.mapIdx_eq_zipIdx_map, List.zipIdx_map, List.map_map]
  have hsaid : counts.kinds.map (fun kind => (kind, [(counts.of kind).toNat])) =
      counts.kinds.zipIdx.flatMap fun part => [(part.1, [(counts.of part.1).toNat])] := by
    rw [← List.map_eq_flatMap]
    conv_lhs => rw [← List.zipIdx_map_fst 0 counts.kinds, List.map_map]
    rfl
  rw [hsaid]
  refine says_intercalate rfl fun part _ => ?_
  obtain ⟨kind, idx⟩ := part
  dsimp only [Function.comp_apply, Prod.map_apply, id_eq]
  split
  · exact says_firstChange hfiller _ kind (ite_eq_or_eq ..)
  · exact says_change hfiller _ kind

/-- The prompt tells how many changes there will be. -/
theorem told_promptMessage (total : UpdateCounts) : told (Prompt.update total).promptMessage =
    total.kinds.map fun kind => (kind, [(total.of kind).toNat]) := by
  have hheader : Says Kind.ofWord "### Update Roles?".toList [] := says_of_others (by decide)
  refine Says.entries ?_
  have htext : (Prompt.update total).promptMessage.toList =
      "### Update Roles?".toList ++ '\n' :: (roleChangeMessage total "will be").toList := by
    have hline : "### Update Roles?\n".toList = "### Update Roles?".toList ++ ['\n'] := by decide
    show ("### Update Roles?\n" ++ roleChangeMessage total "will be").toList = _
    rw [String.toList_append, hline, List.append_assoc, List.singleton_append]
  rw [htext]
  exact hheader.append rfl (says_roleChangeMessage total filler_willBe rfl)

/-- The final message tells how many changes there were. -/
theorem told_successMessage (done : UpdateCounts) : told (successMessage done) =
    done.kinds.map fun kind => (kind, [(done.of kind).toNat]) := by
  have hheader : Says Kind.ofWord "### Member Roles Updated".toList [] := says_of_others (by decide)
  refine Says.entries ?_
  have htext : (successMessage done).toList =
      "### Member Roles Updated".toList ++ '\n' :: (roleChangeMessage done "").toList := by
    have hline : "### Member Roles Updated\n".toList = "### Member Roles Updated".toList ++ ['\n'] := by decide
    show ("### Member Roles Updated\n" ++ roleChangeMessage done "").toList = _
    rw [String.toList_append, hline, List.append_assoc, List.singleton_append]
  rw [htext]
  exact hheader.append rfl (says_roleChangeMessage done filler_empty rfl)

end Tulpje.Pluralkit.RoleUpdate
