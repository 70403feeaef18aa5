import Tulpje.Emojis.Parsing
import Tulpje.Framework.Color
import Tulpje.Lib.Hoare

/-!
# Cloning emojis

`tulpje-mod-emoji/src/clone.rs`. The slash command counts the emojis of the server and the new ones before it adds any,
so it leaves no more normal and no more animated ones than the server may have. The command of the context menu does
not count, and at most ten emojis are its only limit. What is added are clones of the emojis of the text, in their
order: `clone_within_limits`.
-/

namespace Tulpje.Emojis

open Twilight Lib Framework

/-! ### Discord -/

namespace Clone

abbrev Error := String

inductive Call
  | guild
  | deferred
  | download (id : EmojiId) (animated : Bool)
  | createEmoji (guildId : GuildId) (name data : String)
  | respond (color : Color) (text : String)

/-- A new emoji may still be unreadable. -/
@[reducible] def Call.Reply : Call → Type
  | guild => Except Error (Option Guild)
  | deferred | respond .. => Except Error Unit
  | download .. => Except Error String
  | createEmoji .. => Except Error (Except Error Twilight.Emoji)

inductive Failure
  | error (err : Error)
  | panic

abbrev CloneM := Prog Failure Call Call.Reply

def send (o : Call) : CloneM o.Reply := Prog.send o

/-- The `?` operator. -/
def ofExcept {α : Type} : Except Error α → CloneM α
  | .ok a => pure a
  | .error err => Prog.throw (.error err)

/-! ### The options of a command -/

/-- A value is a text or something else. -/
abbrev Options := String → Option (Option String)

def getArgStringOptional (options : Options) (name : String) : Except Error (Option String) :=
  match options name with
  | none => .ok none
  | some none => .error s!"option '{name}' not a string option"
  | some (some value) => .ok (some value)

def getArgString (options : Options) (name : String) : Except Error String :=
  match getArgStringOptional options name with
  | .error err => .error err
  | .ok none => .error s!"couldn't find command argument {name}"
  | .ok (some value) => .ok value

/-! ### `responses.rs` -/

def withColor (color : Color) (text : String) : CloneM Unit := do
  ofExcept (← send (.respond color text))

def responseSuccess : String → CloneM Unit := withColor .green
def responseError : String → CloneM Unit := withColor .red
def responseWarning : String → CloneM Unit := withColor .orange

/-! ### `clone.rs` -/

def emojiCloneLimit : ℕ := 10

def handleEmojiCloneLimitError : CloneM Unit :=
  responseError s!"### ERROR\ncan't add more than {emojiCloneLimit} emotes at once"

/-- The tiers are those of `PremiumTier`. -/
def guildEmojiLimit (guild : Guild) : ℕ :=
  match guild.premiumTier with
  | 0 => 50
  | 1 => 100
  | 2 => 150
  | 3 => 250
  | _ => 50

/-- Normal and animated ones. -/
def countEmojis (emojis : List Emoji) : ℕ × ℕ :=
  emojis.foldl (fun (normal, animated) emoji =>
    if emoji.animated then (normal, animated + 1) else (normal + 1, animated)) (0, 0)

def fromTwilight (emoji : Twilight.Emoji) (guildId : GuildId) : Emoji :=
  Emoji.new emoji.id guildId emoji.name emoji.animated

def overLimitText (kind : String) (added limit excess : ℕ) : String :=
  s!"\nAdding {added} **{kind}** emojis would exceed the limit of **{limit}** of this server by **{excess}**"

def handleEmojiLimits (guild : Guild) (emojis : List Emoji) : CloneM Bool := do
  let (guildNormal, guildAnimated) := countEmojis (guild.emojis.map fun emoji => fromTwilight emoji guild.id)
  let (newNormal, newAnimated) := countEmojis emojis
  let limit := guildEmojiLimit guild
  if guildNormal + newNormal ≤ limit ∧ guildAnimated + newAnimated ≤ limit then pure true
  else
    let normal :=
      if limit < guildNormal + newNormal then overLimitText "normal" newNormal limit (guildNormal + newNormal - limit)
      else ""
    let animated :=
      if limit < guildAnimated + newAnimated then
        overLimitText "animated" newAnimated limit (guildAnimated + newAnimated - limit)
      else ""
    responseError ("### Error" ++ normal ++ animated)
    pure false

inductive EmojiError
  | other (emoji : Emoji) (err : Error)
  | download (emoji : Emoji) (err : Error)
  | create (emoji : Emoji) (err : Error)

def EmojiError.asStr : EmojiError → String
  | download emoji err => s!"error downloading emoji ({emoji.name}): {err}"
  | create emoji err => s!"error creating emoji ({emoji.name}): {err}"
  | other emoji err => s!"unkown error ({emoji.name}): {err}"

def cloneEmoji (guildId : GuildId) (emoji : Emoji) (newName : String) : CloneM (Except EmojiError Emoji) := do
  match ← send (.download emoji.id emoji.animated) with
  | .error err => pure (.error (.download emoji err))
  | .ok data =>
    match ← send (.createEmoji guildId newName data) with
    | .error err => pure (.error (.create emoji err))
    | .ok (.error err) => pure (.error (.other emoji err))
    | .ok (.ok created) => pure (.ok (fromTwilight created guildId))

def added (results : List (Except EmojiError Emoji)) : List String :=
  results.filterMap fun result => result.toOption.map toString

def errors (results : List (Except EmojiError Emoji)) : List String :=
  results.filterMap fun
    | .ok _ => none
    | .error err => some err.asStr

/-- What the user is told of the results. -/
def report (results : List (Except EmojiError Emoji)) : CloneM Unit :=
  let emojisAdded := "".intercalate (added results)
  let emojiErrors := "\n\n".intercalate (errors results)
  if errors results = [] then
    responseSuccess s!"### Success\n**The following emojis were added**\n{emojisAdded}"
  else if added results = [] then
    responseError s!"### Error\n**While adding emojis the following errors occured**\n```{emojiErrors}```"
  else
    responseWarning <| s!"### Completed\n**The following emojis were added**\n{emojisAdded}\n\n" ++
      s!"**While trying to clone emojis the following errors occured**\n```{emojiErrors}```"

/-- `buffered(1)` is one after the other. -/
def cloneEmojis (guildId : GuildId) (namePrefix : Option String) (emojis : List Emoji) : CloneM Unit := do
  let results ← emojis.mapM fun emoji => cloneEmoji guildId emoji (namePrefix.getD "" ++ emoji.name)
  report results

theorem one_ne_zero_uInt64 : (1 : UInt64) ≠ 0 := by decide

/-- The guild of the emojis is a dummy. -/
def parse (content : String) : CloneM (List Emoji) :=
  match parseEmojisFromString ⟨1, one_ne_zero_uInt64⟩ content with
  | some emojis => pure emojis
  | none => Prog.throw .panic

def command (options : Options) : CloneM Unit := do
  let some guild ← ofExcept (← send .guild) | Prog.throw .panic
  ofExcept (← send .deferred)
  let emojis ← parse (← ofExcept (getArgString options "emoji"))
  match emojis with
  | [] => responseError "### ERROR\nNo emojis found in command argument"
  | first :: _ =>
    if ← handleEmojiLimits guild emojis then
      match ← ofExcept (getArgStringOptional options "new_name") with
      | some newName =>
        if 1 < emojis.length then
          responseError "### Error\ncan't add more than one emote at a time when specifying name"
        else
          match ← cloneEmoji guild.id first newName with
          | .ok emoji => responseSuccess s!"### Success\nAdded: {emoji}"
          | .error err => responseError s!"### Error\nError while cloning emoji\n```{err.asStr}```"
      | none =>
        if emojiCloneLimit < emojis.length then handleEmojiCloneLimitError
        else cloneEmojis guild.id (← ofExcept (getArgStringOptional options "prefix")) emojis

/-- The messages that the command came with, if it came with any. -/
def contextCommand (resolved : Option (List String)) : CloneM Unit := do
  let some guild ← ofExcept (← send .guild) | Prog.throw .panic
  ofExcept (← send .deferred)
  let some messages := resolved | Prog.throw (.error "no resolved data for context command")
  let some content := messages.head? | Prog.throw (.error "no message for context command")
  let emojis ← parse content
  if emojis = [] then responseError "### ERROR\nNo emojis found in message"
  else if emojiCloneLimit < emojis.length then handleEmojiCloneLimitError
  else cloneEmojis guild.id none emojis

/-! ### A server -/

/-- The answers, some of which depend on the emojis that the server has. A request to create an emoji may add one, even
if the answer is lost. -/
structure Server where
  guild : List Twilight.Emoji → Except Error (Option Guild)
  deferred : Except Error Unit
  download : EmojiId → Bool → Except Error String
  create : GuildId → String → String → List Twilight.Emoji →
    Except Error (Except Error Twilight.Emoji) × Option Twilight.Emoji
  respond : Color → String → Except Error Unit

def Server.eval (server : Server) : (o : Call) → List Twilight.Emoji → o.Reply × List Twilight.Emoji
  | .guild, emojis => (server.guild emojis, emojis)
  | .deferred, emojis => (server.deferred, emojis)
  | .download id animated, emojis => (server.download id animated, emojis)
  | .createEmoji guildId name data, emojis =>
    ((server.create guildId name data emojis).1, emojis ++ (server.create guildId name data emojis).2.toList)
  | .respond color text, emojis => (server.respond color text, emojis)

/-- The server lists its emojis, and a clone has the name it was asked for and is animated if the emoji was: `animated`
tells this of an image. -/
structure Server.Faithful (server : Server) (animated : String → Bool) : Prop where
  listed : ∀ emojis guild, server.guild emojis = .ok (some guild) → guild.emojis = emojis
  downloaded : ∀ id isAnimated data, server.download id isAnimated = .ok data → animated data = isAnimated
  created : ∀ guildId name data emojis made, (server.create guildId name data emojis).2 = some made →
    made.name = name ∧ made.animated = animated data

/-- Nothing fails. -/
structure Server.Obliging (server : Server) : Prop where
  deferred : server.deferred = .ok ()
  downloaded : ∀ id isAnimated, ∃ data, server.download id isAnimated = .ok data
  created : ∀ guildId name data emojis, ∃ made, server.create guildId name data emojis = (.ok (.ok made), some made)

/-- The server made this emoji from the image of another one, under the name. -/
structure IsClone (server : Server) (guildId : GuildId) (name : String) (made : Twilight.Emoji) (emoji : Emoji) :
    Prop where
  named : made.name = name
  animated : made.animated = emoji.animated
  image : ∃ data emojis, server.download emoji.id emoji.animated = .ok data ∧
    (server.create guildId name data emojis).2 = some made

/-! ### What is added -/

section Adds
variable {server : Server} {α β : Type} {R : Twilight.Emoji → Emoji → Prop}

/-- In every run at most one emoji for each of these is added, in their order. -/
def Adds (server : Server) (R : Twilight.Emoji → Emoji → Prop) (emojis : List Emoji) (p : CloneM α) : Prop :=
  ∀ s, ∃ created, (p.exec server.eval s).2 = s ++ created ∧ created.SublistForall₂ R emojis

/-- The program does not ask for emojis. -/
def Quiet (p : CloneM α) : Prop :=
  p.All (fun o => ∀ guildId name data, o ≠ .createEmoji guildId name data) fun _ => True

theorem Quiet.exec {p : CloneM α} (h : Quiet p) (s : List Twilight.Emoji) : (p.exec server.eval s).2 = s := by
  refine Prog.exec_keeps (v := id) (h.imp fun o ho s => ?_) s
  cases o with
  | createEmoji guildId name data => exact absurd rfl (ho guildId name data)
  | _ => rfl

theorem quiet_send {o : Call} (h : ∀ guildId name data, o ≠ .createEmoji guildId name data) : Quiet (send o) :=
  Prog.All.send h

theorem quiet_ofExcept (x : Except Error α) : Quiet (ofExcept x) := by
  cases x <;> trivial

theorem quiet_withColor (color : Color) (text : String) : Quiet (withColor color text) :=
  Prog.All.bind (quiet_send nofun) quiet_ofExcept

theorem quiet_report (results : List (Except EmojiError Emoji)) : Quiet (report results) := by
  unfold report
  dsimp only
  split
  · exact quiet_withColor ..
  · split <;> exact quiet_withColor ..

theorem quiet_parse (content : String) : Quiet (parse content) := by
  unfold parse
  split <;> trivial

theorem Quiet.adds {p : CloneM α} (h : Quiet p) (server : Server) (emojis : List Emoji) : Adds server R emojis p :=
  fun s => ⟨[], by rw [h.exec, List.append_nil], .nil⟩

theorem sublistForall₂_append {xs xs' : List Twilight.Emoji} {ys ys' : List Emoji} (h : xs.SublistForall₂ R ys)
    (h' : xs'.SublistForall₂ R ys') : (xs ++ xs').SublistForall₂ R (ys ++ ys') := by
  obtain ⟨zs, hzs, hsub⟩ := List.sublistForall₂_iff.mp h
  obtain ⟨zs', hzs', hsub'⟩ := List.sublistForall₂_iff.mp h'
  exact List.sublistForall₂_iff.mpr ⟨zs ++ zs', List.rel_append hzs hzs', hsub.append hsub'⟩

theorem Adds.bind {xs ys : List Emoji} {p : CloneM α} {f : α → CloneM β} (hp : Adds server R xs p)
    (hf : ∀ a, Adds server R ys (f a)) : Adds server R (xs ++ ys) (p >>= f) := by
  intro s
  obtain ⟨created, hexec, hsub⟩ := hp s
  rw [Prog.exec_bind]
  rcases hrun : p.exec server.eval s with ⟨err | a, t⟩
  · rw [hrun] at hexec
    have hall := sublistForall₂_append hsub (.nil : List.SublistForall₂ R [] ys)
    rw [List.append_nil] at hall
    exact ⟨created, hexec, hall⟩
  · rw [hrun] at hexec
    obtain ⟨created', hexec', hsub'⟩ := hf a t
    refine ⟨created ++ created', ?_, sublistForall₂_append hsub hsub'⟩
    rw [hexec', ← List.append_assoc]
    exact congrArg (· ++ created') hexec

theorem Adds.bind_quiet {xs : List Emoji} {p : CloneM α} {f : α → CloneM β} (hp : Adds server R xs p)
    (hf : ∀ a, Quiet (f a)) : Adds server R xs (p >>= f) := by
  have h := hp.bind fun a => (hf a).adds server []
  rwa [List.append_nil] at h

section Faithful
variable {animated : String → Bool} (hserver : server.Faithful animated) (guildId : GuildId) (name : Emoji → String)

include hserver

theorem isClone_of_create {emoji : Emoji} {newName data : String} {made : Twilight.Emoji} {s : List Twilight.Emoji}
    (hdownload : server.download emoji.id emoji.animated = .ok data)
    (hcreated : (server.create guildId newName data s).2 = some made) : IsClone server guildId newName made emoji where
  named := (hserver.created _ _ _ _ _ hcreated).1
  animated := (hserver.created _ _ _ _ _ hcreated).2.trans (hserver.downloaded _ _ _ hdownload)
  image := ⟨data, s, hdownload, hcreated⟩

theorem adds_cloneEmoji {emoji : Emoji} {newName : String}
    (hclone : ∀ made, IsClone server guildId newName made emoji → R made emoji) :
    Adds server R [emoji] (cloneEmoji guildId emoji newName) := by
  intro s
  rw [cloneEmoji, Prog.exec_bind]
  dsimp only [send, Prog.exec_send, Server.eval]
  cases hdownload : server.download emoji.id emoji.animated with
  | error err => exact ⟨[], (List.append_nil s).symm, .nil⟩
  | ok data =>
    dsimp only
    rw [Prog.exec_bind]
    dsimp only [Prog.exec_send, Server.eval]
    refine ⟨(server.create guildId newName data s).2.toList, ?_, ?_⟩
    · rcases (server.create guildId newName data s).1 with err | err | created <;> rfl
    · cases hcreated : (server.create guildId newName data s).2 with
      | none => exact .nil
      | some made => exact .cons (hclone made (isClone_of_create hserver guildId hdownload hcreated)) .nil

theorem adds_mapM (emojis : List Emoji) :
    Adds server (fun made emoji => IsClone server guildId (name emoji) made emoji) emojis
      (emojis.mapM fun emoji => cloneEmoji guildId emoji (name emoji)) := by
  induction emojis with
  | nil => exact Quiet.adds (Prog.All.pure _) server []
  | cons emoji emojis ih =>
    rw [List.mapM_cons]
    have hfirst : Adds server (fun made emoji => IsClone server guildId (name emoji) made emoji) [emoji]
        (cloneEmoji guildId emoji (name emoji)) := adds_cloneEmoji hserver guildId fun _ hclone => hclone
    exact hfirst.bind fun result => ih.bind_quiet fun results => Prog.All.pure _

theorem adds_cloneEmojis (namePrefix : Option String) (emojis : List Emoji) :
    Adds server (fun made emoji => IsClone server guildId (namePrefix.getD "" ++ emoji.name) made emoji) emojis
      (cloneEmojis guildId namePrefix emojis) :=
  (adds_mapM hserver guildId _ emojis).bind_quiet quiet_report

section Obliging
variable (hobliging : server.Obliging)

include hobliging

/-- When nothing fails the emoji is cloned. -/
theorem exec_cloneEmoji (emoji : Emoji) (newName : String) (s : List Twilight.Emoji) : ∃ made result,
    (cloneEmoji guildId emoji newName).exec server.eval s = (.ok result, s ++ [made]) ∧
      IsClone server guildId newName made emoji := by
  obtain ⟨data, hdownload⟩ := hobliging.downloaded emoji.id emoji.animated
  obtain ⟨made, hcreate⟩ := hobliging.created guildId newName data s
  have hcreated : (server.create guildId newName data s).2 = some made := congrArg Prod.snd hcreate
  refine ⟨made, .ok (fromTwilight made guildId), ?_, isClone_of_create hserver guildId hdownload hcreated⟩
  rw [cloneEmoji, Prog.exec_bind]
  dsimp only [send, Prog.exec_send, Server.eval]
  rw [hdownload]
  dsimp only
  rw [Prog.exec_bind]
  dsimp only [Prog.exec_send, Server.eval]
  rw [hcreate]
  rfl

theorem exec_mapM (emojis : List Emoji) (s : List Twilight.Emoji) : ∃ created results,
    (emojis.mapM fun emoji => cloneEmoji guildId emoji (name emoji)).exec server.eval s = (.ok results, s ++ created) ∧
      List.Forall₂ (fun made emoji => IsClone server guildId (name emoji) made emoji) created emojis := by
  induction emojis generalizing s with
  | nil => exact ⟨[], [], by rw [List.append_nil]; rfl, .nil⟩
  | cons emoji emojis ih =>
    obtain ⟨made, result, hexec, hclone⟩ := exec_cloneEmoji hserver guildId hobliging emoji (name emoji) s
    obtain ⟨created, results, hrest, hclones⟩ := ih (s ++ [made])
    refine ⟨made :: created, result :: results, ?_, .cons hclone hclones⟩
    rw [List.mapM_cons, Prog.exec_bind_ok hexec, Prog.exec_bind_ok hrest, List.append_assoc]
    rfl

theorem exec_cloneEmojis (namePrefix : Option String) (emojis : List Emoji) (s : List Twilight.Emoji) : ∃ created,
    ((cloneEmojis guildId namePrefix emojis).exec server.eval s).2 = s ++ created ∧
      List.Forall₂ (fun made emoji => IsClone server guildId (namePrefix.getD "" ++ emoji.name) made emoji)
        created emojis := by
  obtain ⟨created, results, hexec, hclones⟩ := exec_mapM hserver guildId
    (fun emoji => namePrefix.getD "" ++ emoji.name) hobliging emojis s
  refine ⟨created, ?_, hclones⟩
  rw [cloneEmojis, Prog.exec_bind_ok hexec, (quiet_report results).exec]

end Obliging

end Faithful

theorem wp_quiet {p : CloneM α} (h : Quiet p) {Q : α → List Twilight.Emoji → Prop} {E : List Twilight.Emoji → Prop}
    {s : List Twilight.Emoji} (hQ : ∀ a, p.exec server.eval s = (.ok a, s) → Q a s) (hE : E s) :
    p.wp server.eval Q E s := by
  have hs : (p.exec server.eval s).2 = s := h.exec s
  unfold Prog.wp
  rcases hrun : p.exec server.eval s with ⟨err | a, t⟩
  · obtain rfl : t = s := by rwa [hrun] at hs
    exact hE
  · obtain rfl : t = s := by rwa [hrun] at hs
    exact hQ a hrun

end Adds

/-! ### Limits -/

/-- Normal and animated emojis are counted apart. -/
def count (animated : Bool) (emojis : List Emoji) : ℕ := emojis.countP fun emoji => emoji.animated == animated

def countOf (animated : Bool) (emojis : List Twilight.Emoji) : ℕ :=
  emojis.countP fun emoji => emoji.animated == animated

theorem countEmojis_eq (emojis : List Emoji) : countEmojis emojis = (count false emojis, count true emojis) := by
  unfold countEmojis count
  suffices h : ∀ start : ℕ × ℕ, emojis.foldl (fun (normal, animated) emoji =>
      if emoji.animated then (normal, animated + 1) else (normal + 1, animated)) start =
      (start.1 + emojis.countP fun emoji => emoji.animated == false,
        start.2 + emojis.countP fun emoji => emoji.animated == true) by
    simpa using h (0, 0)
  induction emojis with
  | nil => exact fun _ => rfl
  | cons emoji emojis ih =>
    intro start
    rw [List.foldl_cons, ih]
    cases hanimated : emoji.animated <;> simp [hanimated] <;> omega

theorem count_fromTwilight (animated : Bool) (emojis : List Twilight.Emoji) (guildId : GuildId) :
    count animated (emojis.map fun emoji => fromTwilight emoji guildId) = countOf animated emojis := by
  rw [count, List.countP_map]
  rfl

/-- With the new emojis the server has no more normal and no more animated ones than it may have. -/
def Fits (guild : Guild) (emojis : List Emoji) : Prop :=
  ∀ animated, countOf animated guild.emojis + count animated emojis ≤ guildEmojiLimit guild

theorem wp_handleEmojiLimits {server : Server} {guild : Guild} {emojis : List Emoji}
    {Q : Bool → List Twilight.Emoji → Prop} {E : List Twilight.Emoji → Prop} {s : List Twilight.Emoji}
    (hfits : Fits guild emojis → Q true s) (hnot : Q false s) (hE : E s) :
    (handleEmojiLimits guild emojis).wp server.eval Q E s := by
  unfold handleEmojiLimits
  simp only [countEmojis_eq, count_fromTwilight]
  split
  next h => exact hfits fun animated => by cases animated <;> [exact h.1; exact h.2]
  next =>
    refine Prog.wp_bind.mpr (wp_quiet (quiet_withColor ..) (fun _ _ => ?_) hE)
    exact hnot

/-- The command is about the emojis of this text, in this server. -/
structure About (server : Server) (s : List Twilight.Emoji) (text : Option String) (guild : Guild)
    (found : List Emoji) : Prop where
  guild : server.guild s = .ok (some guild)
  found : ∃ content, text = some content ∧ parseEmojisFromString ⟨1, one_ne_zero_uInt64⟩ content = some found

/-- What a command may do to the emojis of the server: clone at most ten of those that it is about, and only if the rest
holds. -/
def Outcome (server : Server) (s : List Twilight.Emoji) (text : Option String) (name : Emoji → String)
    (allowed : Guild → List Twilight.Emoji → Prop) (t : List Twilight.Emoji) : Prop :=
  ∃ created, t = s ++ created ∧ created.length ≤ emojiCloneLimit ∧
    (created = [] ∨ ∃ guild found, About server s text guild found ∧ allowed guild t ∧
      created.SublistForall₂ (fun made emoji => IsClone server guild.id (name emoji) made emoji) found)

/-- Each of the emojis is cloned, in their order. -/
def ClonesAll (server : Server) (s : List Twilight.Emoji) (name : Emoji → String) (guild : Guild) (found : List Emoji)
    (t : List Twilight.Emoji) : Prop :=
  ∃ created, t = s ++ created ∧
    List.Forall₂ (fun made emoji => IsClone server guild.id (name emoji) made emoji) created found

/-- The name of a clone. -/
def Options.cloneName (options : Options) (emoji : Emoji) : String :=
  (options "new_name").join.getD ((options "prefix").join.getD "" ++ emoji.name)

/-- A new name is for one emoji, and without one there are at most ten. -/
def Options.Takes (options : Options) (found : List Emoji) : Prop :=
  match options "new_name" with
  | some newName => newName ≠ none ∧ found.length ≤ 1
  | none => options "prefix" ≠ some none ∧ found.length ≤ emojiCloneLimit

section Commands
variable {server : Server} {animated : String → Bool} (hserver : server.Faithful animated)
  {allowed : Guild → List Twilight.Emoji → Prop} {s : List Twilight.Emoji} {text : Option String}
  {name : Emoji → String} {guild : Guild} {found : List Emoji}

theorem outcome_self : Outcome server s text name allowed s :=
  ⟨[], (List.append_nil s).symm, Nat.zero_le _, .inl rfl⟩

/-- Programs that clone no more than ten emojis. -/
theorem wp_of_adds {p : CloneM Unit}
    (h : Adds server (fun made emoji => IsClone server guild.id (name emoji) made emoji) found p)
    (hlength : found.length ≤ emojiCloneLimit) (habout : About server s text guild found)
    (hallowed : ∀ created, created.SublistForall₂ (fun made emoji => IsClone server guild.id (name emoji) made emoji)
      found → allowed guild (s ++ created)) :
    p.wp server.eval (fun _ => Outcome server s text name allowed) (Outcome server s text name allowed) s := by
  obtain ⟨created, hexec, hsub⟩ := h s
  have houtcome : Outcome server s text name allowed (p.exec server.eval s).2 := by
    refine ⟨created, hexec, ?_, .inr ⟨guild, found, habout, hexec ▸ hallowed created hsub, hsub⟩⟩
    obtain ⟨cloned, hcloned, hsublist⟩ := List.sublistForall₂_iff.mp hsub
    exact hcloned.length_eq ▸ Nat.le_trans hsublist.length_le hlength
  unfold Prog.wp
  split
  next a t hrun => rwa [hrun] at houtcome
  next err t hrun => rwa [hrun] at houtcome

/-- Clones of these emojis are not more in number, neither normal nor animated ones. -/
theorem countOf_le_of_clones {guildId : GuildId} {created : List Twilight.Emoji}
    (h : created.SublistForall₂ (fun made emoji => IsClone server guildId (name emoji) made emoji) found)
    (isAnimated : Bool) : countOf isAnimated created ≤ count isAnimated found := by
  obtain ⟨cloned, hcloned, hsub⟩ := List.sublistForall₂_iff.mp h
  have hequal : countOf isAnimated created = count isAnimated cloned := by
    clear hsub h
    induction hcloned with
    | nil => rfl
    | cons hclone _ ih =>
      unfold countOf count at ih ⊢
      rw [List.countP_cons, List.countP_cons, ih, hclone.animated]
  exact hequal ▸ hsub.countP_le

theorem ok_of_exec_ofExcept {α : Type} {x : Except Error α} {a : α} {t : List Twilight.Emoji}
    (h : (ofExcept x).exec server.eval s = (.ok a, t)) : x = .ok a := by
  cases x with
  | error err => cases h
  | ok b => cases h; rfl

theorem some_of_exec_parse {content : String} {t : List Twilight.Emoji}
    (h : (parse content).exec server.eval s = (.ok found, t)) :
    parseEmojisFromString ⟨1, one_ne_zero_uInt64⟩ content = some found := by
  unfold parse at h
  cases hparse : parseEmojisFromString ⟨1, one_ne_zero_uInt64⟩ content with
  | none => rw [hparse] at h; cases h
  | some found' => rw [hparse] at h; cases h; rfl

theorem getArgStringOptional_eq_ok {options : Options} {name : String} {value : Option String} :
    getArgStringOptional options name = .ok value ↔ options name = value.map some := by
  unfold getArgStringOptional
  rcases options name with _ | _ | text <;> cases value <;> simp

theorem getArgString_eq_ok {options : Options} {name value : String} :
    getArgString options name = .ok value ↔ options name = some (some value) := by
  unfold getArgString getArgStringOptional
  rcases options name with _ | _ | text <;> simp

include hserver

theorem wp_command (options : Options) :
    let allowed (guild : Guild) after := ∀ isAnimated, countOf isAnimated after ≤ guildEmojiLimit guild
    (command options).wp server.eval (fun _ => Outcome server s (options "emoji").join options.cloneName allowed)
      (Outcome server s (options "emoji").join options.cloneName allowed) s := by
  intro allowed
  unfold command
  refine Prog.wp_bind.mpr (wp_quiet (quiet_send (o := .guild) nofun) (fun reply hreply => ?_) outcome_self)
  obtain rfl : server.guild s = reply := by simpa [send, Server.eval] using hreply
  refine Prog.wp_bind.mpr (wp_quiet (quiet_ofExcept _) (fun guild hguild => ?_) outcome_self)
  have hguild := ok_of_exec_ofExcept hguild
  cases guild with
  | none => exact outcome_self
  | some guild =>
  refine Prog.wp_bind.mpr (wp_quiet (quiet_send (o := .deferred) nofun) (fun _ _ => ?_) outcome_self)
  refine Prog.wp_bind.mpr (wp_quiet (quiet_ofExcept _) (fun _ _ => ?_) outcome_self)
  refine Prog.wp_bind.mpr (wp_quiet (quiet_ofExcept _) (fun content hcontent => ?_) outcome_self)
  have hcontent := getArgString_eq_ok.mp (ok_of_exec_ofExcept hcontent)
  refine Prog.wp_bind.mpr (wp_quiet (quiet_parse content) (fun emojis hparse => ?_) outcome_self)
  have habout : About server s (options "emoji").join guild emojis :=
    ⟨hguild, content, by rw [hcontent]; rfl, some_of_exec_parse hparse⟩
  cases emojis with
  | nil => exact wp_quiet (quiet_withColor ..) (fun _ _ => outcome_self) outcome_self
  | cons first rest =>
  refine Prog.wp_bind.mpr (wp_handleEmojiLimits (fun hfits => ?_) outcome_self outcome_self)
  have hallowed : ∀ created : List Twilight.Emoji, created.SublistForall₂
      (fun made emoji => IsClone server guild.id (options.cloneName emoji) made emoji) (first :: rest) →
        allowed guild (s ++ created) := by
    refine fun created hsub isAnimated => ?_
    have hfit := hfits isAnimated
    rw [hserver.listed s guild hguild] at hfit
    rw [countOf, List.countP_append]
    exact Nat.le_trans (Nat.add_le_add_left (countOf_le_of_clones hsub isAnimated) _) hfit
  rw [if_pos rfl]
  refine Prog.wp_bind.mpr (wp_quiet (quiet_ofExcept _) (fun newName hnewName => ?_) outcome_self)
  have hnewName := getArgStringOptional_eq_ok.mp (ok_of_exec_ofExcept hnewName)
  cases newName with
  | some newName =>
    dsimp only
    split
    next => exact wp_quiet (quiet_withColor ..) (fun _ _ => outcome_self) outcome_self
    next hone =>
      obtain rfl : rest = [] := List.eq_nil_of_length_eq_zero (by simpa using hone)
      have hname : options.cloneName first = newName := by
        rw [Options.cloneName, hnewName]
        rfl
      refine wp_of_adds ?_ (by simp [emojiCloneLimit]) habout hallowed
      refine (adds_cloneEmoji hserver guild.id fun made hclone => hname ▸ hclone).bind_quiet fun result => ?_
      cases result <;> exact quiet_withColor ..
  | none =>
    dsimp only
    split
    next => exact wp_quiet (quiet_withColor ..) (fun _ _ => outcome_self) outcome_self
    next hlength =>
      refine Prog.wp_bind.mpr (wp_quiet (quiet_ofExcept _) (fun namePrefix hprefix => ?_) outcome_self)
      have hprefix := getArgStringOptional_eq_ok.mp (ok_of_exec_ofExcept hprefix)
      have hname : options.cloneName = fun emoji => namePrefix.getD "" ++ emoji.name := by
        funext emoji
        rw [Options.cloneName, hnewName, hprefix]
        cases namePrefix <;> rfl
      refine wp_of_adds ?_ (Nat.not_lt.mp hlength) habout hallowed
      rw [hname]
      exact adds_cloneEmojis hserver guild.id namePrefix _

theorem wp_contextCommand (resolved : Option (List String)) :
    (contextCommand resolved).wp server.eval
      (fun _ => Outcome server s (resolved.bind List.head?) Emoji.name fun _ _ => True)
      (Outcome server s (resolved.bind List.head?) Emoji.name fun _ _ => True) s := by
  have hself : Outcome server s (resolved.bind List.head?) Emoji.name (fun _ _ => True) s := outcome_self
  unfold contextCommand
  refine Prog.wp_bind.mpr (wp_quiet (quiet_send (o := .guild) nofun) (fun reply hreply => ?_) outcome_self)
  obtain rfl : server.guild s = reply := by simpa [send, Server.eval] using hreply
  refine Prog.wp_bind.mpr (wp_quiet (quiet_ofExcept _) (fun guild hguild => ?_) outcome_self)
  have hguild := ok_of_exec_ofExcept hguild
  cases guild with
  | none => exact hself
  | some guild =>
  refine Prog.wp_bind.mpr (wp_quiet (quiet_send (o := .deferred) nofun) (fun _ _ => ?_) outcome_self)
  refine Prog.wp_bind.mpr (wp_quiet (quiet_ofExcept _) (fun _ _ => ?_) outcome_self)
  cases resolved with
  | none => exact hself
  | some messages =>
  cases messages with
  | nil => exact hself
  | cons content messages =>
  refine Prog.wp_bind.mpr (wp_quiet (quiet_parse content) (fun emojis hparse => ?_) outcome_self)
  split
  next => exact wp_quiet (quiet_withColor ..) (fun _ _ => outcome_self) outcome_self
  next =>
    split
    next => exact wp_quiet (quiet_withColor ..) (fun _ _ => outcome_self) outcome_self
    next hlength =>
      have hadds := adds_cloneEmojis hserver guild.id none emojis
      simp only [Option.getD_none, String.empty_append] at hadds
      exact wp_of_adds hadds (Nat.not_lt.mp hlength) ⟨hguild, content, rfl, some_of_exec_parse hparse⟩
        fun _ _ => trivial

/-! ### When nothing fails -/

section Obliging
variable (hobliging : server.Obliging)

omit hserver in
theorem exec_ofExcept_ok {α : Type} {x : Except Error α} {a : α} (h : x = .ok a) (s : List Twilight.Emoji) :
    (ofExcept x).exec server.eval s = (.ok a, s) := by
  rw [h]
  rfl

omit hserver in
theorem exec_handleEmojiLimits (h : Fits guild found) (s : List Twilight.Emoji) :
    (handleEmojiLimits guild found).exec server.eval s = (.ok true, s) := by
  unfold handleEmojiLimits
  simp only [countEmojis_eq, count_fromTwilight]
  rw [if_pos ⟨h false, h true⟩]
  rfl

include hobliging

theorem clonesAll_command (options : Options) (habout : About server s (options "emoji").join guild found)
    (hfits : Fits guild found) (htakes : options.Takes found) :
    ClonesAll server s options.cloneName guild found ((command options).exec server.eval s).2 := by
  obtain ⟨hguild, content, hcontent, hparse⟩ := habout
  have hsend : (send .guild).exec server.eval s = (.ok (.ok (some guild)), s) := by
    rw [← hguild]
    rfl
  have hdefer : (send .deferred).exec server.eval s = (.ok (.ok ()), s) := by
    rw [← hobliging.deferred]
    rfl
  have hemoji : getArgString options "emoji" = .ok content := by
    rw [getArgString_eq_ok]
    rcases hoption : options "emoji" with _ | _ | value <;> rw [hoption] at hcontent <;> cases hcontent
    rfl
  have hfound : (parse content).exec server.eval s = (.ok found, s) := by
    rw [parse, hparse]
    rfl
  rw [command, Prog.exec_bind_ok hsend, Prog.exec_bind_ok (exec_ofExcept_ok rfl s)]
  dsimp only
  rw [Prog.exec_bind_ok hdefer, Prog.exec_bind_ok (exec_ofExcept_ok rfl s),
    Prog.exec_bind_ok (exec_ofExcept_ok hemoji s), Prog.exec_bind_ok hfound]
  cases found with
  | nil => exact ⟨[], by rw [List.append_nil]; exact (quiet_withColor ..).exec s, .nil⟩
  | cons first rest =>
  dsimp only
  rw [Prog.exec_bind_ok (exec_handleEmojiLimits hfits s), if_pos rfl]
  unfold Options.Takes at htakes
  cases hnew : options "new_name" with
  | some newName =>
    rw [hnew] at htakes
    obtain ⟨hsome, hone⟩ := htakes
    obtain ⟨newName, rfl⟩ := Option.ne_none_iff_exists'.mp hsome
    obtain rfl : rest = [] := List.eq_nil_of_length_eq_zero (by simpa using hone)
    have hname : options.cloneName first = newName := by
      rw [Options.cloneName, hnew]
      rfl
    have hnewName : getArgStringOptional options "new_name" = .ok (some newName) := getArgStringOptional_eq_ok.mpr hnew
    rw [Prog.exec_bind_ok (exec_ofExcept_ok hnewName s)]
    dsimp only
    rw [if_neg (by simp)]
    obtain ⟨made, result, hexec, hclone⟩ := exec_cloneEmoji hserver guild.id hobliging first newName s
    rw [Prog.exec_bind_ok hexec]
    refine ⟨[made], ?_, .cons (hname ▸ hclone) .nil⟩
    cases result <;> exact (quiet_withColor ..).exec _
  | none =>
    rw [hnew] at htakes
    obtain ⟨hstring, hten⟩ := htakes
    have hnewName : getArgStringOptional options "new_name" = .ok none := getArgStringOptional_eq_ok.mpr hnew
    rw [Prog.exec_bind_ok (exec_ofExcept_ok hnewName s)]
    dsimp only
    rw [if_neg (Nat.not_lt.mpr hten)]
    obtain ⟨namePrefix, hprefix⟩ : ∃ namePrefix : Option String, options "prefix" = namePrefix.map some := by
      rcases hoption : options "prefix" with _ | _ | value
      · exact ⟨none, rfl⟩
      · exact absurd hoption hstring
      · exact ⟨some value, rfl⟩
    have hname : options.cloneName = fun emoji => namePrefix.getD "" ++ emoji.name := by
      funext emoji
      rw [Options.cloneName, hnew, hprefix]
      cases namePrefix <;> rfl
    rw [Prog.exec_bind_ok (exec_ofExcept_ok (getArgStringOptional_eq_ok.mpr hprefix) s), hname]
    exact exec_cloneEmojis hserver guild.id hobliging namePrefix _ s

theorem clonesAll_contextCommand (resolved : Option (List String))
    (habout : About server s (resolved.bind List.head?) guild found) (hten : found.length ≤ emojiCloneLimit) :
    ClonesAll server s Emoji.name guild found ((contextCommand resolved).exec server.eval s).2 := by
  obtain ⟨hguild, content, hcontent, hparse⟩ := habout
  obtain ⟨messages, rfl, hhead⟩ := Option.bind_eq_some_iff.mp hcontent
  have hsend : (send .guild).exec server.eval s = (.ok (.ok (some guild)), s) := by
    rw [← hguild]
    rfl
  have hdefer : (send .deferred).exec server.eval s = (.ok (.ok ()), s) := by
    rw [← hobliging.deferred]
    rfl
  have hfound : (parse content).exec server.eval s = (.ok found, s) := by
    rw [parse, hparse]
    rfl
  rw [contextCommand, Prog.exec_bind_ok hsend, Prog.exec_bind_ok (exec_ofExcept_ok rfl s)]
  dsimp only
  rw [Prog.exec_bind_ok hdefer, Prog.exec_bind_ok (exec_ofExcept_ok rfl s), hhead]
  dsimp only
  rw [Prog.exec_bind_ok hfound]
  by_cases hempty : found = []
  · subst hempty
    exact ⟨[], by rw [if_pos rfl, List.append_nil]; exact (quiet_withColor ..).exec s, .nil⟩
  · rw [if_neg hempty, if_neg (Nat.not_lt.mpr hten)]
    obtain ⟨created, hexec, hclones⟩ := exec_cloneEmojis hserver guild.id hobliging none found s
    simp only [Option.getD_none, String.empty_append] at hclones
    exact ⟨created, hexec, hclones⟩

end Obliging

end Commands

/-- Everything is allowed, and an image tells by its first letter whether it is animated. -/
def generous (guild : Guild) : Server where
  guild emojis := .ok (some { guild with emojis })
  deferred := .ok ()
  download _ isAnimated := .ok (if isAnimated then "a" else "s")
  create _ name data _ :=
    let created : Twilight.Emoji := ⟨data = "a", true, ⟨1, one_ne_zero_uInt64⟩, false, name, true, [], none⟩
    (.ok (.ok created), some created)
  respond _ _ := .ok ()

theorem faithful_generous (guild : Guild) : (generous guild).Faithful (· = "a") where
  listed emojis guild' h := by
    cases h
    rfl
  downloaded _ isAnimated data h := by
    cases h
    cases isAnimated <;> rfl
  created _ _ _ _ emoji h := by
    cases h
    exact ⟨rfl, rfl⟩

theorem obliging_generous (guild : Guild) : (generous guild).Obliging where
  deferred := rfl
  downloaded _ _ := ⟨_, rfl⟩
  created _ _ _ _ := ⟨_, rfl⟩

end Clone

end Tulpje.Emojis
