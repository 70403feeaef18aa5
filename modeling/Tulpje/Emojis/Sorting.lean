import Tulpje.Emojis.Paging

/-!
# Sorting the statistics of emojis

`cmd_emoji_stats` and `handle_emoji_stats_sort` in `tulpje-mod-emoji/src/commands.rs`. No state is kept between
interactions: the page and the sort are read back from the text of the message. This text is as good as a state, since
in any run of clicks and selections the message shows what a machine that remembers page and sort shows:
`message_remembers`.
-/

namespace Tulpje.Emojis

open Twilight Lib

/-! ### The handlers -/

def StatsSort.tryFromString (string : String) : Except Failure StatsSort :=
  match string with
  | "count_desc" => .ok .countDesc
  | "count_asc" => .ok .countAsc
  | "date_desc" => .ok .dateDesc
  | "date_asc" => .ok .dateAsc
  | _ => .error (.error s!"unknown sort {string}")

def handleEmojiStatsSort (replies : Replies) (customId : String) (values : List String) :
    Except Failure (Option (Message × List (List Component))) :=
  if customId ≠ "emoji_stats_sort" then .ok none
  else do
    replies.response.mapError .error
    let some sortBy := values.head? | throw (.error "couldn't get selected value")
    let sort ← StatsSort.tryFromString sortBy
    let some guild ← replies.guild.mapError .error | throw (.error "outside of guild")
    let count ← replies.count.mapError .error
    let totalPages := totalPagesOf count
    let embed ← createEmojiStatsEmbed replies guild sort 1 totalPages
    match replies.updateResponse with
    | .ok () => pure (some (⟨[embed]⟩, getComponents 1 totalPages))
    | .error _ => pure none

/-- The value of the first option, if there is one, is a text or something else. -/
def sortOfOption : Option (Option String) → Except Failure StatsSort
  | some (some string) => StatsSort.tryFromString string
  | some none | none => .ok .countDesc

def cmdEmojiStats (replies : Replies) (option : Option (Option String)) :
    Except Failure (Message × List (List Component)) := do
  let sort ← sortOfOption option
  let some guild ← replies.guild.mapError .error | throw (.error "not in guild")
  let count ← replies.count.mapError .error
  let totalPages := totalPagesOf count
  let embed ← createEmojiStatsEmbed replies guild sort 1 totalPages
  replies.response.mapError .error
  pure (⟨[embed]⟩, getComponents 1 totalPages)

/-! ### Runs -/

/-- A click, or a selection in the menu and what its handler is told meanwhile. -/
inductive Action
  | click (click : Click)
  | select (values : List String) (replies : Replies)

/-- The message after an interaction. -/
def Message.act (message : Message) : Action → Message
  | .click click => message.click click
  | .select values replies =>
    match handleEmojiStatsSort replies "emoji_stats_sort" values with
    | .ok (some (message, _)) => message
    | _ => message

/-- What a message is made of. -/
structure Shown where
  guild : Guild
  sort : StatsSort
  page : UInt16
  total : UInt16

namespace Shown

def embed (shown : Shown) (replies : Replies) : Except Failure Embed :=
  createEmojiStatsEmbed replies shown.guild shown.sort shown.page shown.total

/-- Show something else, if the embed can be made and delivered. -/
def update (shown next : Shown) (replies : Replies) : Shown :=
  match next.embed replies, replies.updateResponse with
  | .ok _, .ok () => next
  | _, _ => shown

/-- An interaction with a machine that remembers what it shows. Without pages there is no text to read. -/
def act (shown : Shown) : Action → Shown
  | .click ⟨button, replies⟩ =>
    match replies.guild, replies.response, replies.count with
    | .ok (some guild), .ok (), .ok count =>
      match newPage button.customId shown.page (totalPagesOf count) with
      | .ok page =>
        if 0 < shown.total then shown.update ⟨guild, shown.sort, page, totalPagesOf count⟩ replies else shown
      | .error _ => shown
    | _, _, _ => shown
  | .select values replies =>
    match replies.guild, replies.response, replies.count, values.head?.map StatsSort.tryFromString with
    | .ok (some guild), .ok (), .ok count, some (.ok sort) => shown.update ⟨guild, sort, 1, totalPagesOf count⟩ replies
    | _, _, _, _ => shown

end Shown

/-- The message shows this. -/
def Message.Shows (message : Message) (shown : Shown) : Prop :=
  ∃ replies embed, shown.embed replies = .ok embed ∧ message = ⟨[embed]⟩

variable {message : Message} {shown : Shown}

theorem Message.Shows.extract (h : message.Shows shown) :
    extractPageAndSort (some message) = if 0 < shown.total then some (shown.page, shown.sort) else none := by
  obtain ⟨replies, embed, hembed, rfl⟩ := h
  exact extractPageAndSort_embed hembed

/-- A new embed is shown if it is delivered, and else the old one stays. -/
theorem shows_update (h : message.Shows shown) (replies : Replies) (guild : Guild) (sort : StatsSort)
    (page total : UInt16) (components : List (List Component)) :
    (match (do
        let embed ← createEmojiStatsEmbed replies guild sort page total
        match replies.updateResponse with
        | .ok () => pure (some (Message.mk [embed], components))
        | .error _ => pure none) with
      | .ok (some (updated, _)) => updated
      | _ => message).Shows (shown.update ⟨guild, sort, page, total⟩ replies) := by
  unfold Shown.update Shown.embed
  cases hembed : createEmojiStatsEmbed replies guild sort page total with
  | error failure => exact h
  | ok embed =>
    cases replies.updateResponse with
    | error err => exact h
    | ok => exact ⟨replies, embed, hembed, rfl⟩

theorem shows_click (h : message.Shows shown) (click : Click) :
    (message.click click).Shows (shown.act (.click click)) := by
  obtain ⟨button, replies⟩ := click
  have hextract := h.extract
  unfold Message.click Click.handle handleEmojiPagination Shown.act
  dsimp only
  rcases hguild : replies.guild with err | _ | guild
  · exact h
  · exact h
  cases hresponse : replies.response with
  | error err => exact h
  | ok =>
  by_cases htotal : 0 < shown.total
  · rw [if_pos htotal] at hextract
    cases hcount : replies.count with
    | error err =>
      simp only [Except.mapError, ok_bind, hextract, error_bind]
      exact h
    | ok count =>
      simp only [Except.mapError, ok_bind, hextract, if_pos htotal]
      cases newPage button.customId shown.page (totalPagesOf count) with
      | error failure => exact h
      | ok page => exact shows_update h replies guild shown.sort page _ _
  · rw [if_neg htotal] at hextract
    simp only [Except.mapError, ok_bind, hextract, if_neg htotal]
    cases replies.count with
    | error err => exact h
    | ok count =>
      cases hnew : newPage button.customId shown.page (totalPagesOf count) <;> simp only [hnew] <;> exact h

theorem shows_select (h : message.Shows shown) (values : List String) (replies : Replies) :
    (message.act (.select values replies)).Shows (shown.act (.select values replies)) := by
  unfold Message.act handleEmojiStatsSort Shown.act
  simp only [ne_eq, not_true_eq_false, if_false]
  cases replies.response with
  | error err =>
    rcases replies.guild with err | _ | guild <;> exact h
  | ok =>
  cases hvalue : values.head? with
  | none =>
    rcases replies.guild with err | _ | guild
    · exact h
    · exact h
    · cases replies.count <;> exact h
  | some value =>
  simp only [Except.mapError, ok_bind, Option.map_some]
  cases StatsSort.tryFromString value with
  | error failure =>
    rcases replies.guild with err | _ | guild
    · exact h
    · exact h
    · cases replies.count <;> exact h
  | ok sort =>
  rcases replies.guild with err | _ | guild
  · exact h
  · exact h
  cases replies.count with
  | error err => exact h
  | ok count => exact shows_update h replies guild sort 1 _ _

theorem shows_act (h : message.Shows shown) (action : Action) : (message.act action).Shows (shown.act action) := by
  cases action with
  | click click => exact shows_click h click
  | select values replies => exact shows_select h values replies

theorem shows_cmdEmojiStats {replies : Replies} {option : Option (Option String)} {components : List (List Component)}
    (h : cmdEmojiStats replies option = .ok (message, components)) :
    ∃ guild sort count, replies.guild = .ok (some guild) ∧ sortOfOption option = .ok sort ∧ replies.count = .ok count ∧
      message.Shows ⟨guild, sort, 1, totalPagesOf count⟩ := by
  unfold cmdEmojiStats at h
  obtain ⟨sort, hsort, h⟩ := bind_eq_ok.mp h
  obtain ⟨guild, hguild, h⟩ := bind_eq_ok.mp h
  cases guild with
  | none => cases h
  | some guild =>
    obtain ⟨count, hcount, h⟩ := bind_eq_ok.mp h
    obtain ⟨embed, hembed, h⟩ := bind_eq_ok.mp h
    obtain ⟨_, -, h⟩ := bind_eq_ok.mp h
    cases h
    exact ⟨guild, sort, count, mapError_eq_ok.mp hguild, hsort, mapError_eq_ok.mp hcount, replies, embed, hembed, rfl⟩

/-- After any run of clicks and selections, page and sort in the text of the message are those of the machine that
remembers them. -/
theorem message_remembers (replies : Replies) (option : Option (Option String)) (message : Message)
    (components : List (List Component)) (h : cmdEmojiStats replies option = .ok (message, components)) :
    ∃ guild sort count, replies.guild = .ok (some guild) ∧ sortOfOption option = .ok sort ∧ replies.count = .ok count ∧
      ∀ actions : List Action,
        let shown := actions.foldl Shown.act ⟨guild, sort, 1, totalPagesOf count⟩
        (actions.foldl Message.act message).Shows shown ∧
          extractPageAndSort (some (actions.foldl Message.act message)) =
            if 0 < shown.total then some (shown.page, shown.sort) else none := by
  obtain ⟨guild, sort, count, hguild, hsort, hcount, hshows⟩ := shows_cmdEmojiStats h
  refine ⟨guild, sort, count, hguild, hsort, hcount, fun actions => ?_⟩
  have hrun : (actions.foldl Message.act message).Shows
      (actions.foldl Shown.act ⟨guild, sort, 1, totalPagesOf count⟩) := by
    clear h
    generalize Shown.mk guild sort 1 (totalPagesOf count) = shown at *
    induction actions generalizing message shown with
    | nil => exact hshows
    | cons action actions ih => exact ih _ _ (shows_act hshows action)
  exact ⟨hrun, hrun.extract⟩

/-- The least used emojis of a guild with 40, the next page, and then the most recently used. -/
theorem message_remembers_of_selection :
    let guild : Guild := ⟨⟨1, by decide⟩, "a guild"⟩
    let replies := repliesOf guild 40
    ∃ message components, cmdEmojiStats replies (some (some "count_asc")) = .ok (message, components) ∧
      extractPageAndSort (some (message.act (.click ⟨.next, replies⟩))) = some (2, .countAsc) ∧
      extractPageAndSort (some ((message.act (.click ⟨.next, replies⟩)).act (.select ["date_desc"] replies))) =
        some (1, .dateDesc) := by
  intro guild replies
  have htotal : totalPagesOf 40 = 3 := UInt16.toNat_inj.mp (toNat_totalPagesOf 40)
  obtain ⟨message, components, hcommand⟩ :
      ∃ message components, cmdEmojiStats replies (some (some "count_asc")) = .ok (message, components) := ⟨_, _, rfl⟩
  obtain ⟨guild', sort, count, hguild, hsort, hcount, hrun⟩ := message_remembers _ _ _ _ hcommand
  cases hguild
  cases hsort
  cases hcount
  have hupdate : ∀ shown next : Shown, HasOffset next.page.toNat → shown.update next replies = next := by
    intro shown next hpage
    obtain ⟨offset, hoffset, -⟩ := pageOffset_of_hasOffset hpage
    have hembed : ∃ embed, next.embed replies = .ok embed := by
      rw [Shown.embed, createEmojiStatsEmbed, hoffset]
      exact ⟨_, rfl⟩
    obtain ⟨embed, hembed⟩ := hembed
    rw [Shown.update, hembed]
    rfl
  have hnew : newPage Button.next.customId 1 3 = .ok 2 := by
    have hpage : HasOffset (1 : UInt16).toNat := ⟨by decide, by decide⟩
    obtain ⟨shown, hshown, htarget⟩ := newPage_eq hpage 3 .next
    rw [hshown, show shown = 2 from UInt16.toNat_inj.mp htarget]
  have hclick : Shown.act ⟨guild, .countAsc, 1, totalPagesOf 40⟩ (.click ⟨.next, replies⟩) =
      ⟨guild, .countAsc, 2, 3⟩ := by
    simp only [Shown.act, replies, repliesOf, htotal, hnew, if_pos (show (0 : UInt16) < 3 by decide)]
    exact hupdate _ ⟨guild, .countAsc, 2, 3⟩ ⟨by decide, by decide⟩
  have hselect : ∀ shown, Shown.act shown (.select ["date_desc"] replies) = ⟨guild, .dateDesc, 1, 3⟩ := by
    intro shown
    simp only [Shown.act, replies, repliesOf, htotal, List.head?_cons, Option.map_some, StatsSort.tryFromString]
    exact hupdate _ ⟨guild, .dateDesc, 1, 3⟩ ⟨by decide, by decide⟩
  refine ⟨message, components, hcommand, ?_, ?_⟩
  · refine (hrun [.click ⟨.next, replies⟩]).2.trans ?_
    rw [List.foldl_cons, List.foldl_nil, hclick]
    rfl
  · refine (hrun [.click ⟨.next, replies⟩, .select ["date_desc"] replies]).2.trans ?_
    rw [List.foldl_cons, List.foldl_cons, List.foldl_nil, hselect]
    rfl

end Tulpje.Emojis
