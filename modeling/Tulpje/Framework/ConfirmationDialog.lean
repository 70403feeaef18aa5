import Mathlib.Data.Set.Basic
import Tulpje.Twilight.Model

/-!
# Confirmation dialogs

`ConfirmationDialog` of `tulpje-lib/src/confirmation_dialog.rs`, with the methods that no dialog overrides as the
trait has them. `run` waits for the first component interaction on its message that passes a filter; the filter
lets every interaction pass, whoever it is from. The `Standby` that it waits with is a parameter.

`obeys_user_iff` compares streams that differ in the interactions of other members.
-/

namespace Tulpje.Framework

open Twilight

/-- The label and style of a button are left out. -/
structure Button where
  customId : Option String

/-- The buttons of a dialog. -/
structure ConfirmationDialog where
  confirmButton : Button
  denyButton : Button

/-- A component interaction on the message of the prompt; `Standby` hands over no others. -/
structure ComponentInteraction where
  user : Id .user
  customId : String
  deriving DecidableEq

inductive DialogError
  | twilight (message : String)
  | unknownButton (message : String)
  deriving DecidableEq

/-- What comes of sending the prompt and the message after a denial; an error is a text. -/
structure Responses where
  prompt : Except String Unit
  denied : Except String Unit

/-- `twilight_standby::Standby`, which is not dropped while somebody waits: from the interactions on the message that
have come so far, the one that a call of `wait_for_component` has returned, if it has. -/
structure Standby where
  waitForComponent : (ComponentInteraction → Bool) → List ComponentInteraction → Option ComponentInteraction
  waitForComponent_eq_some : ∀ check stream interaction, waitForComponent check stream = some interaction ↔
    ∃ earlier later, stream = earlier ++ interaction :: later ∧ check interaction = true ∧
      ∀ other ∈ earlier, check other = false

/-- A standby that looks for the first interaction that passes. -/
def Standby.first : Standby where
  waitForComponent check stream := stream.find? check
  waitForComponent_eq_some check stream interaction := by
    rw [List.find?_eq_some_iff_append]
    constructor
    · rintro ⟨hcheck, earlier, later, rfl, hearlier⟩
      exact ⟨earlier, later, rfl, hcheck, fun other hother => by simpa using hearlier other hother⟩
    · rintro ⟨earlier, later, rfl, hcheck, hearlier⟩
      exact ⟨hcheck, earlier, later, rfl, fun other hother => by simpa using hearlier other hother⟩

theorem Standby.waitForComponent_all (standby : Standby) (stream : List ComponentInteraction) :
    standby.waitForComponent (fun _ => true) stream = stream.head? := by
  refine Option.ext fun interaction => ?_
  rw [standby.waitForComponent_eq_some]
  constructor
  · rintro ⟨earlier, later, rfl, -, hearlier⟩
    cases earlier with
    | nil => rfl
    | cons other earlier => cases hearlier other List.mem_cons_self
  · intro hhead
    obtain ⟨later, rfl⟩ := List.head?_eq_some_iff.mp hhead
    exact ⟨[], later, rfl, rfl, nofun⟩

namespace ConfirmationDialog

variable (standby : Standby) (self : ConfirmationDialog)

def confirmId : String := self.confirmButton.customId.getD "confirm"

def denyId : String := self.denyButton.customId.getD "deny"

def confirm : Except DialogError Bool := .ok true

def deny (responses : Responses) : Except DialogError Bool :=
  match responses.denied with
  | .error message => .error (.twilight message)
  | .ok () => .ok false

/-- The buttons of an interaction. -/
def press (responses : Responses) (customId : String) : Except DialogError Bool :=
  if customId = self.confirmId then confirm
  else if customId = self.denyId then deny responses
  else .error (.unknownButton s!"unknown button id: {customId}")

/-- What it has returned when these interactions have come; `none` while it waits. -/
def run (responses : Responses) (stream : List ComponentInteraction) : Option (Except DialogError Bool) :=
  match responses.prompt with
  | .error message => some (.error (.twilight message))
  | .ok () =>
    (standby.waitForComponent (fun _ => true) stream).map fun interaction => self.press responses interaction.customId

end ConfirmationDialog

/-- The dialogs of `tulpje-mod-pluralkit`, whose buttons have labels only. -/
def unnamedDialog : ConfirmationDialog := ⟨⟨none⟩, ⟨none⟩⟩

/-! ### The invoking user -/

/-- What the user does in a stream. -/
def own (user : Id .user) (stream : List ComponentInteraction) : List ComponentInteraction :=
  stream.filter fun interaction => interaction.user = user

/-- A set of streams that may come, and with each the one in which the other members do nothing. -/
structure Streams (user : Id .user) where
  carrier : Set (List ComponentInteraction)
  own_mem : ∀ s ∈ carrier, own user s ∈ carrier

def Streams.all (user : Id .user) : Streams user := ⟨Set.univ, fun _ _ => Set.mem_univ _⟩

section Obeys
variable (standby : Standby) (dialog : ConfirmationDialog) (responses : Responses) (user : Id .user)

/-- Streams with the same interactions of the user lead to the same decision, and whenever `true` has been returned the
user has pressed the confirm button by then. -/
def ObeysUser (streams : Streams user) : Prop :=
  (∀ s ∈ streams.carrier, ∀ t ∈ streams.carrier, own user s = own user t →
    dialog.run standby responses s = dialog.run standby responses t) ∧
  ∀ s ∈ streams.carrier, ∀ soFar, soFar <+: s → dialog.run standby responses soFar = some (.ok true) →
    ∃ interaction ∈ soFar, interaction.user = user ∧ interaction.customId = dialog.confirmId

/-- The first interaction presses the button that the user presses first. -/
def OwnFirst (stream : List ComponentInteraction) : Prop :=
  stream.head?.map (·.customId) = (own user stream).head?.map (·.customId)

/-- The first interaction is one of the user, or presses the button that the user presses first, which is not the
confirm button. -/
def Undisturbed (stream : List ComponentInteraction) : Prop :=
  ∀ interaction ∈ stream.head?, interaction.user = user ∨
    interaction.customId ≠ dialog.confirmId ∧ OwnFirst user stream

end Obeys

section Run
variable {standby : Standby} {dialog : ConfirmationDialog} {responses : Responses} {user : Id .user}
  {s t : List ComponentInteraction}

@[simp] theorem own_own : own user (own user s) = own user s := by simp [own]

theorem run_of_prompt_error {message : String} (h : responses.prompt = .error message) :
    dialog.run standby responses s = some (.error (.twilight message)) := by
  unfold ConfirmationDialog.run
  rw [h]

theorem run_of_prompt_ok (h : responses.prompt = .ok ()) :
    dialog.run standby responses s = (s.head?.map (·.customId)).map (dialog.press responses) := by
  unfold ConfirmationDialog.run
  rw [h]
  dsimp only
  rw [standby.waitForComponent_all, Option.map_map]
  rfl

theorem deny_ne_ok_true : ConfirmationDialog.deny responses ≠ .ok true := by
  unfold ConfirmationDialog.deny
  split <;> simp

theorem deny_ne_unknownButton {message : String} :
    ConfirmationDialog.deny responses ≠ .error (.unknownButton message) := by
  unfold ConfirmationDialog.deny
  split <;> simp

/-- Only the confirm button leads to `true`. -/
theorem press_eq_ok_true {customId : String} :
    dialog.press responses customId = .ok true ↔ customId = dialog.confirmId := by
  unfold ConfirmationDialog.press
  split_ifs with hconfirm hdeny
  · simp [hconfirm, ConfirmationDialog.confirm]
  · simp [hconfirm, deny_ne_ok_true]
  · simp [hconfirm]

/-- The decision tells which button was pressed. -/
theorem press_injective : Function.Injective (dialog.press responses) := by
  intro a b h
  by_cases ha : a = dialog.confirmId
  · have hb : dialog.press responses b = .ok true := h ▸ press_eq_ok_true.mpr ha
    rw [ha, press_eq_ok_true.mp hb]
  have hb : b ≠ dialog.confirmId := fun hb => ha (press_eq_ok_true.mp (h.trans (press_eq_ok_true.mpr hb)))
  simp only [ConfirmationDialog.press, ha, hb, if_false] at h
  split_ifs at h with ha' hb' hb'
  · rw [ha', hb']
  · exact absurd h deny_ne_unknownButton
  · exact absurd h.symm deny_ne_unknownButton
  · simpa [toString] using h

/-- Two streams get the same decision iff the same button comes first in both. -/
theorem run_eq_iff (h : responses.prompt = .ok ()) :
    dialog.run standby responses s = dialog.run standby responses t ↔
      s.head?.map (·.customId) = t.head?.map (·.customId) := by
  rw [run_of_prompt_ok h, run_of_prompt_ok h]
  exact (Option.map_injective press_injective).eq_iff

/-- `true` is returned when the confirm button was the first one pressed. -/
theorem run_eq_ok_true_iff (h : responses.prompt = .ok ()) : dialog.run standby responses s = some (.ok true) ↔
    ∃ interaction ∈ s.head?, interaction.customId = dialog.confirmId := by
  rw [run_of_prompt_ok h, Option.map_map, Option.map_eq_some_iff]
  simp only [Function.comp_apply, press_eq_ok_true, Option.mem_def]

theorem ownFirst_of_own {interaction : ComponentInteraction} (h : interaction ∈ s.head?)
    (huser : interaction.user = user) : OwnFirst user s := by
  obtain ⟨rest, rfl⟩ := List.head?_eq_some_iff.mp h
  simp [OwnFirst, own, huser]

theorem Undisturbed.ownFirst (h : Undisturbed dialog user s) : OwnFirst user s := by
  cases s with
  | nil => rfl
  | cons interaction rest =>
    rcases h interaction rfl with huser | ⟨-, hfirst⟩
    · exact ownFirst_of_own rfl huser
    · exact hfirst

end Run

/-- The dialog obeys the user iff its prompt could not be sent, or in no stream another member comes first, with the
confirm button or with another one than the user presses first. -/
theorem obeys_user_iff (standby : Standby) (dialog : ConfirmationDialog) (responses : Responses) (user : Id .user)
    (streams : Streams user) :
    ObeysUser standby dialog responses user streams ↔
      (responses.prompt = .ok () → ∀ s ∈ streams.carrier, Undisturbed dialog user s) := by
  constructor
  · rintro ⟨hsame, htrue⟩ hprompt s hs interaction hhead
    have hfirst : OwnFirst user s :=
      (run_eq_iff hprompt).mp (hsame s hs (own user s) (streams.own_mem s hs) own_own.symm)
    by_cases hconfirm : interaction.customId = dialog.confirmId
    · -- the confirm button is obeyed at once, so the user must have pressed it
      obtain ⟨rest, rfl⟩ := List.head?_eq_some_iff.mp hhead
      obtain ⟨other, hother, huser, -⟩ := htrue _ hs [interaction] ⟨rest, rfl⟩
        ((run_eq_ok_true_iff hprompt).mpr ⟨interaction, rfl, hconfirm⟩)
      exact .inl (List.mem_singleton.mp hother ▸ huser)
    · exact .inr ⟨hconfirm, hfirst⟩
  intro hcalm
  cases hprompt : responses.prompt with
  | error message => exact ⟨fun s _ t _ _ => by simp only [run_of_prompt_error hprompt],
      fun s _ soFar _ hrun => by simp [run_of_prompt_error hprompt] at hrun⟩
  | ok u =>
    have hown : ∀ s ∈ streams.carrier, dialog.run standby responses s = dialog.run standby responses (own user s) :=
      fun s hs => (run_eq_iff hprompt).mpr (hcalm hprompt s hs).ownFirst
    constructor
    · intro s hs t ht hst
      rw [hown s hs, hst, ← hown t ht]
    · rintro s hs soFar ⟨rest, rfl⟩ hrun
      obtain ⟨interaction, hhead, hconfirm⟩ := (run_eq_ok_true_iff hprompt).mp hrun
      obtain ⟨later, rfl⟩ := List.head?_eq_some_iff.mp hhead
      rcases hcalm hprompt _ hs interaction rfl with huser | ⟨hother, -⟩
      · exact ⟨interaction, List.mem_cons_self, huser, hconfirm⟩
      · exact absurd hconfirm hother

/-- Another member presses the confirm button before the user cancels. -/
theorem stranger_confirms :
    let user : Id .user := ⟨141, by decide⟩
    let responses : Responses := ⟨.ok (), .ok ()⟩
    let pressed : List ComponentInteraction := [⟨⟨142, by decide⟩, "confirm"⟩, ⟨user, "deny"⟩]
    own user pressed = own user [⟨user, "deny"⟩] ∧
      unnamedDialog.run .first responses pressed = some (.ok true) ∧
      unnamedDialog.run .first responses [⟨user, "deny"⟩] = some (.ok false) ∧
      ¬ ObeysUser .first unnamedDialog responses user (Streams.all user) := by
  intro user responses pressed
  have hown : own user pressed = own user [⟨user, "deny"⟩] := by decide
  have hpressed : unnamedDialog.run .first responses pressed = some (.ok true) := by decide
  have halone : unnamedDialog.run .first responses [⟨user, "deny"⟩] = some (.ok false) := by decide
  refine ⟨hown, hpressed, halone, fun h => ?_⟩
  have hsame := h.1 pressed trivial [⟨user, "deny"⟩] trivial hown
  rw [hpressed, halone] at hsame
  cases hsame

end Tulpje.Framework
