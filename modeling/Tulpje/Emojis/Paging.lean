import Tulpje.Emojis.Uses
import Tulpje.Lib.Rounding
import Tulpje.Lib.Run
import Tulpje.Pluralkit.SystemRef

/-!
# Paging through the statistics of emojis

`handle_emoji_pagination` in `tulpje-mod-emoji/src/commands.rs` and what it calls. The page that is shown is read back
from the text under the message, the number of pages is computed from the count that the database gives now, and both
are `u16`: an overflow is a panic.

Clicks show a page in range exactly when the count has not shrunk too far since the last one, and is not too large:
`paging_in_range_iff`.
-/

namespace Tulpje.Emojis

open Twilight Lib
open Pluralkit (isWhitespace isWhitespace_of_isDigit)

/-! ### `shared.rs` -/

inductive StatsSort
  | countDesc
  | countAsc
  | dateDesc
  | dateAsc
  deriving DecidableEq

namespace StatsSort

def name : StatsSort → String
  | countDesc => "Most Used"
  | countAsc => "Least Used"
  | dateDesc => "Most Recent"
  | dateAsc => "Least Recent"

def id : StatsSort → String
  | countDesc => "count_desc"
  | countAsc => "count_asc"
  | dateDesc => "date_desc"
  | dateAsc => "date_asc"

end StatsSort

/-! ### Messages -/

structure Embed where
  title : Option String
  description : Option String
  footer : Option String

/-- A select menu with its options as values and labels, or a button. -/
inductive Component
  | selectMenu (customId : String) (options : List (String × String))
  | button (customId : String) (disabled : Bool)

structure Message where
  embeds : List Embed

structure Guild where
  id : GuildId
  name : String

structure EmojiStats where
  emoji : Emoji
  timesUsed : ℤ
  lastUsedAt : Timestamp

/-- What a handler is told. The count is one of rows, and the rows depend on the sort, the offset and the limit. -/
structure Replies where
  guild : Except Error (Option Guild)
  response : Except Error Unit
  count : Except Error ℕ
  stats : GuildId → StatsSort → UInt16 → UInt16 → Except Error (List EmojiStats)
  validate : Embed → Except Error Unit
  updateResponse : Except Error Unit
  messageContent : Option String

/-! ### Numbers -/

/-- The result of an operation on `u16`. -/
def checkedU16 (value : ℤ) : Except Failure UInt16 :=
  if 0 ≤ value ∧ value < UInt16.size then .ok (UInt16.ofNat value.toNat) else .error .panic

/-- The value of an `f64`; none here is near the limits of its exponent. -/
def f64 (x : ℚ) : ℚ := Rounding.round 53 x

/-- `x as u16`. -/
def asU16 (x : ℚ) : UInt16 := UInt16.ofNat (min ⌊x⌋.toNat 65535)

/-! ### `commands.rs` -/

def emojisPerPage : UInt16 := 15

def totalPagesOf (count : ℕ) : UInt16 := asU16 ⌈f64 (f64 count / f64 emojisPerPage.toNat)⌉

def createEmojiStatsSortMenu : Component :=
  .selectMenu "emoji_stats_sort" <|
    [StatsSort.countDesc, .countAsc, .dateDesc, .dateAsc].map fun sort => (sort.id, sort.name)

def createEmojiStatsPaginationButtons (currentPage totalPages : UInt16) : List Component :=
  [.button "emoji_stats_first_page" (currentPage = 1), .button "emoji_stats_prev_page" (currentPage = 1),
    .button "emoji_stats_next_page" (currentPage = totalPages),
    .button "emoji_stats_last_page" (currentPage = totalPages)]

/-- Rows of components. -/
def getComponents (currentPage totalPages : UInt16) : List (List Component) :=
  if totalPages = 0 then []
  else [[createEmojiStatsSortMenu], createEmojiStatsPaginationButtons currentPage totalPages]

def pageOffset (currentPage : UInt16) : Except Failure UInt16 := do
  let before ← checkedU16 (currentPage.toNat - 1)
  checkedU16 (before.toNat * emojisPerPage.toNat)

def describe (stats : List EmojiStats) : String :=
  if stats ≠ [] then
    "\n".intercalate <| stats.map fun stat =>
      s!"{stat.emoji} • Used {stat.timesUsed} times • Last used <t:{stat.lastUsedAt}:R>"
  else "No Data"

def degradedWarn (messageContent : Option String) : String :=
  if messageContent.getD "true" = "true" then ""
  else
    "\n\n⚠️ bot is currently only tracking emoji reactions as it can't access message content. " ++
      "We're working on a fix"

def createEmojiStatsEmbed (replies : Replies) (guild : Guild) (sort : StatsSort) (currentPage totalPages : UInt16) :
    Except Failure Embed := do
  let offset ← pageOffset currentPage
  let emojiStats ← (replies.stats guild.id sort offset emojisPerPage).mapError .error
  let embed : Embed := {
    title := some (sort.name ++ " Emotes in " ++ guild.name)
    description := some (describe emojiStats ++ degradedWarn replies.messageContent)
    footer := if 0 < totalPages then
        some ("Page " ++ toString currentPage ++ " of " ++ toString totalPages)
      else none }
  (replies.validate embed).mapError .error
  pure embed

def splitWhitespace (text : List Char) : List (List Char) := (text.splitOnP isWhitespace).filter (· ≠ [])

def startsWith (text start : String) : Bool := start.toList.isPrefixOf text.toList

def sortOfTitle (title : String) : StatsSort :=
  if startsWith title StatsSort.countDesc.name then .countDesc
  else if startsWith title StatsSort.countAsc.name then .countAsc
  else if startsWith title StatsSort.dateDesc.name then .dateDesc
  else if startsWith title StatsSort.dateAsc.name then .dateAsc
  else .countDesc

/-- The message of the interaction is there or not. -/
def extractPageAndSort (message : Option Message) : Option (UInt16 × StatsSort) := do
  let message ← message
  let embed ← message.embeds.head?
  let title ← embed.title
  let footer ← embed.footer
  let pageString ← (splitWhitespace footer.toList)[1]?
  let page ← u16FromStr pageString
  return (page, sortOfTitle title)

def newPage (customId : String) (page totalPages : UInt16) : Except Failure UInt16 :=
  match customId with
  | "emoji_stats_first_page" => .ok 1
  | "emoji_stats_prev_page" => do
    let page ← checkedU16 (page.toNat - 1)
    pure (max page 1)
  | "emoji_stats_next_page" => do
    let page ← checkedU16 (page.toNat + 1)
    pure (min page totalPages)
  | "emoji_stats_last_page" => .ok totalPages
  | other => .error (.error s!"unknown interaction id for handle_emoji_pagination: {other}")

/-- The message as it is updated, or `none` if it is left. -/
def handleEmojiPagination (replies : Replies) (message : Option Message) (customId : String) :
    Except Failure (Option (Message × List (List Component))) := do
  let some guild ← replies.guild.mapError .error | throw (.error "not in guild")
  replies.response.mapError .error
  match extractPageAndSort message with
  | none => pure none
  | some (page, sort) =>
    let count ← replies.count.mapError .error
    let totalPages := totalPagesOf count
    let newPage ← newPage customId page totalPages
    let embed ← createEmojiStatsEmbed replies guild sort newPage totalPages
    match replies.updateResponse with
    | .ok () => pure (some (⟨[embed]⟩, getComponents newPage totalPages))
    | .error _ => pure none

/-! ### Clicks -/

inductive Button
  | first
  | prev
  | next
  | last
  deriving DecidableEq

def Button.customId : Button → String
  | first => "emoji_stats_first_page"
  | prev => "emoji_stats_prev_page"
  | next => "emoji_stats_next_page"
  | last => "emoji_stats_last_page"

/-- A click on a button of the message, and what the handler is told meanwhile. -/
structure Click where
  button : Button
  replies : Replies

def Click.handle (click : Click) (message : Message) : Except Failure (Option (Message × List (List Component))) :=
  handleEmojiPagination click.replies (some message) click.button.customId

/-- The message after a click. -/
def Message.click (message : Message) (click : Click) : Message :=
  match click.handle message with
  | .ok (some (message, _)) => message
  | _ => message

/-- The handler of the click reads this page and this count. -/
structure Reads (message : Message) (click : Click) (page : UInt16) (count : ℕ) : Prop where
  guild : ∃ guild, click.replies.guild = .ok (some guild)
  response : click.replies.response = .ok ()
  page : ∃ sort, extractPageAndSort (some message) = some (page, sort)
  count : click.replies.count = .ok count

/-- The handler computes without overflow, a new page in the range for the count and an offset below the count. -/
structure InRange (message : Message) (click : Click) : Prop where
  returns : click.handle message ≠ .error .panic
  shows : ∀ page count, Reads message click page count → ∃ shown offset,
    newPage click.button.customId page (totalPagesOf count) = .ok shown ∧ pageOffset shown = .ok offset ∧
      1 ≤ shown.toNat ∧ shown.toNat ≤ max 1 (totalPagesOf count).toNat ∧ (count ≠ 0 → offset.toNat < count)

/-- The count leaves the page before this one, or some page, and no page whose offset would not fit is reached. -/
def Button.Fits (page count : ℕ) : Button → Prop
  | first => True
  | prev => page ≤ 2 ∨ 15 * (page - 2) < count
  | next => 0 < count ∧ (page < 4370 ∨ count ≤ 65550)
  | last => 0 < count ∧ count ≤ 65550

def Fits (message : Message) (click : Click) : Prop :=
  ∀ page count, Reads message click page count → click.button.Fits page.toNat count

/-! ### The number of pages -/

theorem f64_natCast {n : ℕ} (hn : n < 2 ^ 53) : f64 n = n := Rounding.round_natCast (by decide) hn

theorem abs_f64_sub_le {x : ℚ} (hx : 0 < x) : |f64 x - x| ≤ x / 2 ^ 53 := Rounding.abs_round_sub_le hx

/-- Quotients of counts that a float holds are rounded up as they should. -/
theorem ceil_f64_div {count : ℕ} (hcount : count < 2 ^ 53) : ⌈f64 (count / 15)⌉ = ((count + 14) / 15 : ℕ) := by
  obtain ⟨k, hk⟩ : ∃ k, k = (count + 14) / 15 := ⟨_, rfl⟩
  have hhigh : (count : ℚ) ≤ 15 * k := by
    have : count ≤ 15 * k := by omega
    exact_mod_cast this
  have hlow : (15 : ℚ) * k ≤ count + 14 := by
    have : 15 * k ≤ count + 14 := by omega
    exact_mod_cast this
  rw [← hk, Int.ceil_eq_iff]
  by_cases hmul : count = 15 * k
  · have hquotient : (count : ℚ) / 15 = k := by
      rw [hmul]
      push_cast
      ring
    rw [hquotient, f64_natCast (by omega)]
    push_cast
    constructor <;> linarith
  · -- the error is less than the distance of the quotient from an integer
    have hpos : (0 : ℚ) < count / 15 := by
      have : (0 : ℚ) < count := by exact_mod_cast (by omega : 0 < count)
      positivity
    have herror := abs_le.mp (abs_f64_sub_le hpos)
    have hsmall : (count : ℚ) / 15 / 2 ^ 53 < 1 / 15 := by
      have : (count : ℚ) < 2 ^ 53 := by exact_mod_cast hcount
      rw [div_div, div_lt_div_iff₀ (by norm_num) (by norm_num)]
      linarith
    have hless : (count : ℚ) + 1 ≤ 15 * k := by
      have : count + 1 ≤ 15 * k := by omega
      exact_mod_cast this
    push_cast
    constructor <;> linarith [herror.1, herror.2]

/-- Larger ones stay large. -/
theorem le_f64_div {count : ℕ} (hcount : 2 ^ 53 ≤ count) : 65535 ≤ f64 (f64 count / 15) := by
  have hlarge : (2 : ℚ) ^ 53 ≤ count := by exact_mod_cast hcount
  have hpos : (0 : ℚ) < count := by linarith [hlarge]
  have hone := (abs_le.mp (abs_f64_sub_le hpos)).1
  have hquotient : (0 : ℚ) < f64 count / 15 := by
    have : (0 : ℚ) < f64 count := by linarith
    positivity
  have htwo := (abs_le.mp (abs_f64_sub_le hquotient)).1
  linarith

theorem toNat_totalPagesOf (count : ℕ) : (totalPagesOf count).toNat = min ((count + 14) / 15) 65535 := by
  have hfifteen : f64 emojisPerPage.toNat = 15 := f64_natCast (by decide)
  have hmin : ∀ n, (UInt16.ofNat (min n 65535)).toNat = min n 65535 := by
    intro n
    exact UInt16.toNat_ofNat_of_lt' (Nat.lt_of_le_of_lt (Nat.min_le_right _ _) (by decide))
  rw [totalPagesOf, asU16, Int.floor_intCast, hmin, hfifteen]
  by_cases hcount : count < 2 ^ 53
  · rw [f64_natCast hcount, ceil_f64_div hcount, Int.toNat_natCast]
  · have hlarge := le_f64_div (Nat.not_lt.mp hcount)
    have hceil : (65535 : ℤ) ≤ ⌈f64 (f64 count / 15)⌉ := by
      have : ((65535 : ℤ) : ℚ) ≤ (⌈f64 (f64 count / 15)⌉ : ℚ) := by
        push_cast
        exact hlarge.trans (Int.le_ceil _)
      exact_mod_cast this
    omega

/-! ### The new page -/

@[simp] theorem ok_bind {α β : Type} (a : α) (f : α → Except Failure β) : (Except.ok a >>= f) = f a := rfl

@[simp] theorem error_bind {α β : Type} (failure : Failure) (f : α → Except Failure β) :
    (Except.error failure >>= f) = .error failure := rfl

theorem exists_checkedU16 {value : ℤ} {n : ℕ} (hvalue : value = n) (hn : n < 65536) :
    ∃ m, checkedU16 value = .ok m ∧ m.toNat = n := by
  have hrange : 0 ≤ value ∧ value < (UInt16.size : ℕ) := by
    simp only [UInt16.size]
    omega
  refine ⟨UInt16.ofNat value.toNat, if_pos hrange, ?_⟩
  rw [hvalue, Int.toNat_natCast]
  exact UInt16.toNat_ofNat_of_lt' hn

theorem checkedU16_eq_panic {value : ℤ} (hvalue : value < 0 ∨ 65536 ≤ value) : checkedU16 value = .error .panic := by
  refine if_neg ?_
  simp only [UInt16.size]
  omega

/-- The numbers of pages whose offset is a `u16`. -/
def HasOffset (page : ℕ) : Prop := 1 ≤ page ∧ page ≤ 4370

theorem pageOffset_of_hasOffset {page : UInt16} (h : HasOffset page.toNat) :
    ∃ offset, pageOffset page = .ok offset ∧ offset.toNat = (page.toNat - 1) * 15 := by
  obtain ⟨hlow, hhigh⟩ := h
  obtain ⟨before, hbefore, hvalue⟩ : ∃ before, checkedU16 (page.toNat - 1) = .ok before ∧
      before.toNat = page.toNat - 1 := exists_checkedU16 (by omega) (by omega)
  obtain ⟨offset, hoffset, htoNat⟩ : ∃ offset, checkedU16 (before.toNat * emojisPerPage.toNat) = .ok offset ∧
      offset.toNat = before.toNat * 15 := exists_checkedU16 (Int.natCast_mul _ 15).symm (by omega)
  refine ⟨offset, ?_, by rw [htoNat, hvalue]⟩
  rw [pageOffset, hbefore, ok_bind, hoffset]

theorem pageOffset_of_not_hasOffset {page : UInt16} (h : ¬ HasOffset page.toNat) :
    pageOffset page = .error .panic := by
  unfold HasOffset at h
  by_cases hzero : page.toNat = 0
  · have hnegative : checkedU16 (page.toNat - 1) = .error .panic := checkedU16_eq_panic (.inl (by omega))
    rw [pageOffset, hnegative, error_bind]
  · have hlt := page.toNat_lt
    obtain ⟨before, hbefore, hvalue⟩ : ∃ before, checkedU16 (page.toNat - 1) = .ok before ∧
        before.toNat = page.toNat - 1 := exists_checkedU16 (by omega) (by omega)
    have hlarge : 65536 ≤ (before.toNat * emojisPerPage.toNat : ℤ) := by
      have hfifteen : (emojisPerPage.toNat : ℤ) = 15 := rfl
      rw [hvalue, hfifteen]
      omega
    rw [pageOffset, hbefore, ok_bind, checkedU16_eq_panic (.inr hlarge)]

theorem toNat_max (a b : UInt16) : (max a b).toNat = max a.toNat b.toNat := by
  change (if a ≤ b then b else a).toNat = _
  simp only [UInt16.le_iff_toNat_le]
  split <;> omega

theorem toNat_min (a b : UInt16) : (min a b).toNat = min a.toNat b.toNat := by
  change (if a ≤ b then a else b).toNat = _
  simp only [UInt16.le_iff_toNat_le]
  split <;> omega

/-- The page that a button leads to. -/
def Button.target (page totalPages : ℕ) : Button → ℕ
  | first => 1
  | prev => max (page - 1) 1
  | next => min (page + 1) totalPages
  | last => totalPages

theorem newPage_eq {page : UInt16} (hpage : HasOffset page.toNat) (totalPages : UInt16) (button : Button) :
    ∃ shown, newPage button.customId page totalPages = .ok shown ∧
      shown.toNat = button.target page.toNat totalPages.toNat := by
  obtain ⟨hlow, hhigh⟩ := hpage
  cases button with
  | first => exact ⟨1, rfl, rfl⟩
  | prev =>
    obtain ⟨before, hbefore, hvalue⟩ : ∃ before, checkedU16 (page.toNat - 1) = .ok before ∧
        before.toNat = page.toNat - 1 := exists_checkedU16 (by omega) (by omega)
    refine ⟨max before 1, ?_, by rw [toNat_max, hvalue]; rfl⟩
    simp only [Button.customId, newPage, hbefore, ok_bind]
    rfl
  | next =>
    obtain ⟨after, hafter, hvalue⟩ : ∃ after, checkedU16 (page.toNat + 1) = .ok after ∧
        after.toNat = page.toNat + 1 := exists_checkedU16 (by omega) (by omega)
    refine ⟨min after totalPages, ?_, by rw [toNat_min, hvalue]; rfl⟩
    simp only [Button.customId, newPage, hafter, ok_bind]
    rfl
  | last => exact ⟨totalPages, rfl, rfl⟩

/-- The exact condition on a page and a count. -/
theorem target_in_range_iff {page : ℕ} (hpage : HasOffset page) (count : ℕ) (button : Button) {total : ℕ}
    (htotal : total = min ((count + 14) / 15) 65535) :
    (HasOffset (button.target page total) ∧ button.target page total ≤ max 1 total ∧
      (count ≠ 0 → (button.target page total - 1) * 15 < count)) ↔ button.Fits page count := by
  have hbelow : total * 15 < count + 15 := by omega
  have habove : total = 65535 ∨ total < 65535 ∧ count ≤ total * 15 := by omega
  clear htotal
  unfold HasOffset at *
  cases button with
  | first => exact iff_of_true ⟨⟨Nat.le_refl 1, (by decide : 1 ≤ 4370)⟩, Nat.le_max_left .., Nat.pos_of_ne_zero⟩ trivial
  | prev =>
    simp only [Button.target, Button.Fits]
    omega
  | next =>
    simp only [Button.target, Button.Fits]
    omega
  | last =>
    simp only [Button.target, Button.Fits]
    omega

/-! ### One click -/

/-- The page of a message, if it has one, has an offset. -/
def Rendered (message : Message) : Prop :=
  ∀ page sort, extractPageAndSort (some message) = some (page, sort) → HasOffset page.toNat

theorem shows_iff {message : Message} (hmessage : Rendered message) {click : Click} {page : UInt16} {count : ℕ}
    (hreads : Reads message click page count) :
    (∃ shown offset, newPage click.button.customId page (totalPagesOf count) = .ok shown ∧
      pageOffset shown = .ok offset ∧ 1 ≤ shown.toNat ∧ shown.toNat ≤ max 1 (totalPagesOf count).toNat ∧
      (count ≠ 0 → offset.toNat < count)) ↔ click.button.Fits page.toNat count := by
  obtain ⟨sort, hextract⟩ := hreads.page
  have hpage := hmessage page sort hextract
  obtain ⟨shown, hshown, htarget⟩ := newPage_eq hpage (totalPagesOf count) click.button
  rw [← target_in_range_iff hpage count click.button (toNat_totalPagesOf count), ← htarget]
  constructor
  · rintro ⟨shown', offset, hshown', hoffset, -, hmax, hcount⟩
    obtain rfl : shown = shown' := Except.ok.inj (hshown.symm.trans hshown')
    have hhas : HasOffset shown.toNat := by
      by_contra hnot
      rw [pageOffset_of_not_hasOffset hnot] at hoffset
      cases hoffset
    obtain ⟨offset', hoffset', hvalue⟩ := pageOffset_of_hasOffset hhas
    obtain rfl : offset = offset' := Except.ok.inj (hoffset.symm.trans hoffset')
    exact ⟨hhas, hmax, hvalue ▸ hcount⟩
  · rintro ⟨hhas, hmax, hcount⟩
    obtain ⟨offset, hoffset, hvalue⟩ := pageOffset_of_hasOffset hhas
    exact ⟨shown, offset, hshown, hoffset, hhas.1, hmax, hvalue ▸ hcount⟩

/-- The handler fails, leaves the message, or goes on with what it has read. -/
theorem handle_cases (message : Message) (click : Click) :
    (∃ err, click.handle message = .error (.error err)) ∨ click.handle message = .ok none ∨
    ∃ page count guild sort, Reads message click page count ∧ click.handle message =
      (newPage click.button.customId page (totalPagesOf count) >>= fun shown =>
        createEmojiStatsEmbed click.replies guild sort shown (totalPagesOf count) >>= fun embed =>
          match click.replies.updateResponse with
          | .ok () => .ok (some (⟨[embed]⟩, getComponents shown (totalPagesOf count)))
          | .error _ => .ok none) := by
  unfold Click.handle handleEmojiPagination
  cases hguild : click.replies.guild with
  | error err => exact .inl ⟨err, rfl⟩
  | ok guild =>
  cases guild with
  | none => exact .inl ⟨_, rfl⟩
  | some guild =>
  cases hresponse : click.replies.response with
  | error err => exact .inl ⟨err, rfl⟩
  | ok _ =>
  cases hextract : extractPageAndSort (some message) with
  | none => exact .inr (.inl rfl)
  | some found =>
  obtain ⟨page, sort⟩ := found
  cases hcount : click.replies.count with
  | error err => exact .inl ⟨err, rfl⟩
  | ok count =>
  exact .inr (.inr ⟨page, count, guild, sort, ⟨⟨guild, hguild⟩, hresponse, ⟨sort, hextract⟩, hcount⟩, rfl⟩)

theorem createEmojiStatsEmbed_ne_panic {replies : Replies} {guild : Guild} {sort : StatsSort}
    {page total offset : UInt16} (h : pageOffset page = .ok offset) :
    createEmojiStatsEmbed replies guild sort page total ≠ .error .panic := by
  rw [createEmojiStatsEmbed, h, ok_bind]
  cases replies.stats guild.id sort offset emojisPerPage with
  | error err => exact nofun
  | ok stats =>
    simp only [Except.mapError, ok_bind]
    split
    · exact nofun
    · exact nofun

theorem createEmojiStatsEmbed_eq_ok {replies : Replies} {guild : Guild} {sort : StatsSort} {page total : UInt16}
    {embed : Embed} (h : createEmojiStatsEmbed replies guild sort page total = .ok embed) :
    HasOffset page.toNat ∧ embed.title = some (sort.name ++ " Emotes in " ++ guild.name) ∧
      embed.footer =
        if 0 < total then some ("Page " ++ toString page ++ " of " ++ toString total) else none := by
  have hpage : HasOffset page.toNat := by
    by_contra hnot
    rw [createEmojiStatsEmbed, pageOffset_of_not_hasOffset hnot, error_bind] at h
    cases h
  obtain ⟨offset, hoffset, -⟩ := pageOffset_of_hasOffset hpage
  refine ⟨hpage, ?_⟩
  rw [createEmojiStatsEmbed, hoffset, ok_bind] at h
  cases hstats : replies.stats guild.id sort offset emojisPerPage with
  | error err =>
    rw [hstats] at h
    cases h
  | ok stats =>
    rw [hstats] at h
    simp only [Except.mapError, ok_bind] at h
    split at h
    · cases h
    · cases h
      exact ⟨rfl, rfl⟩

/-- Only the arithmetic panics. -/
theorem handle_ne_panic {message : Message} {click : Click}
    (h : ∀ page count, Reads message click page count → ∃ shown offset,
      newPage click.button.customId page (totalPagesOf count) = .ok shown ∧ pageOffset shown = .ok offset) :
    click.handle message ≠ .error .panic := by
  rcases handle_cases message click with ⟨err, herr⟩ | hnone | ⟨page, count, guild, sort, hreads, hhandle⟩
  · rw [herr]
    exact nofun
  · rw [hnone]
    exact nofun
  · obtain ⟨shown, offset, hshown, hoffset⟩ := h page count hreads
    rw [hhandle, hshown, ok_bind]
    cases hembed : createEmojiStatsEmbed click.replies guild sort shown (totalPagesOf count) with
    | error failure =>
      rintro ⟨⟩
      exact createEmojiStatsEmbed_ne_panic hoffset hembed
    | ok embed =>
      rw [ok_bind]
      cases click.replies.updateResponse <;> exact nofun

/-! ### What is read back -/

theorem sortOfTitle_name (sort : StatsSort) (name : String) :
    sortOfTitle (sort.name ++ " Emotes in " ++ name) = sort := by
  have hstart : ∀ start, startsWith (sort.name ++ " Emotes in " ++ name) start =
      start.toList.isPrefixOf (sort.name.toList ++ (" Emotes in ".toList ++ name.toList)) := by
    intro start
    rw [startsWith, String.toList_append, String.toList_append, List.append_assoc]
  unfold sortOfTitle
  simp only [hstart]
  cases sort <;> rfl

/-- The second word of a footer. -/
theorem splitWhitespace_footer (page : ℕ) (rest : List Char) :
    (splitWhitespace ("Page ".toList ++ Nat.toDigits 10 page ++ ' ' :: rest))[1]? = some (Nat.toDigits 10 page) := by
  have hfirst : "Page ".toList = ['P', 'a', 'g', 'e'] ++ [' '] := rfl
  have hpage : ∀ c ∈ ['P', 'a', 'g', 'e'], isWhitespace c = false := by
    simp only [List.forall_mem_cons]
    exact ⟨rfl, rfl, rfl, rfl, nofun⟩
  have hdigits : ∀ c ∈ Nat.toDigits 10 page, isWhitespace c = false := fun c hc =>
    isWhitespace_of_isDigit (Nat.isDigit_of_mem_toDigits (by decide) (by decide) hc)
  rw [splitWhitespace, hfirst, List.append_assoc, List.append_assoc, List.singleton_append,
    List.splitOnP_append_cons_of_forall_mem hpage _ rfl, List.splitOnP_append_cons_of_forall_mem hdigits _ rfl]
  simp [Nat.toDigits_ne_nil]

theorem extractPageAndSort_embed {replies : Replies} {guild : Guild} {sort : StatsSort} {page total : UInt16}
    {embed : Embed} (h : createEmojiStatsEmbed replies guild sort page total = .ok embed) :
    extractPageAndSort (some ⟨[embed]⟩) = if 0 < total then some (page, sort) else none := by
  obtain ⟨-, htitle, hfooter⟩ := createEmojiStatsEmbed_eq_ok h
  have htoList : ∀ n : UInt16, (toString n).toList = Nat.toDigits 10 n.toNat := fun n => Nat.toList_repr
  split
  next htotal =>
    rw [if_pos htotal] at hfooter
    have hword : (splitWhitespace ("Page " ++ toString page ++ " of " ++ toString total).toList)[1]? =
        some (Nat.toDigits 10 page.toNat) := by
      have hof : " of ".toList = ' ' :: ['o', 'f', ' '] := rfl
      rw [String.toList_append, String.toList_append, String.toList_append, htoList, hof, List.append_assoc,
        List.cons_append]
      exact splitWhitespace_footer page.toNat _
    simp only [extractPageAndSort, Option.bind_eq_bind, Option.bind_some, List.head?_cons, htitle, hfooter, hword,
      u16FromStr_toDigits, sortOfTitle_name]
    rfl
  next htotal =>
    rw [if_neg htotal] at hfooter
    simp [extractPageAndSort, htitle, hfooter]

/-! ### Runs -/

theorem rendered_embed {replies : Replies} {guild : Guild} {sort : StatsSort} {page total : UInt16} {embed : Embed}
    (h : createEmojiStatsEmbed replies guild sort page total = .ok embed) : Rendered ⟨[embed]⟩ := by
  intro page' sort' hextract
  rw [extractPageAndSort_embed h] at hextract
  split at hextract
  · cases hextract
    exact (createEmojiStatsEmbed_eq_ok h).1
  · cases hextract

/-- An update shows an embed. -/
theorem exists_embed_of_handle {message message' : Message} {click : Click} {components : List (List Component)}
    (h : click.handle message = .ok (some (message', components))) :
    ∃ guild sort shown total embed,
      createEmojiStatsEmbed click.replies guild sort shown total = .ok embed ∧ message' = ⟨[embed]⟩ := by
  rcases handle_cases message click with ⟨err, herr⟩ | hnone | ⟨page, count, guild, sort, -, hhandle⟩
  · rw [herr] at h
    cases h
  · rw [hnone] at h
    cases h
  · rw [hhandle] at h
    cases hshown : newPage click.button.customId page (totalPagesOf count) with
    | error failure =>
      rw [hshown, error_bind] at h
      cases h
    | ok shown =>
      cases hembed : createEmojiStatsEmbed click.replies guild sort shown (totalPagesOf count) with
      | error failure =>
        rw [hshown, ok_bind, hembed, error_bind] at h
        cases h
      | ok embed =>
        rw [hshown, ok_bind, hembed, ok_bind] at h
        cases hupdate : click.replies.updateResponse with
        | error err =>
          rw [hupdate] at h
          cases h
        | ok _ =>
          rw [hupdate] at h
          cases h
          exact ⟨guild, sort, shown, _, embed, hembed, rfl⟩

theorem rendered_click {message : Message} (hmessage : Rendered message) (click : Click) :
    Rendered (message.click click) := by
  unfold Message.click
  split
  next message' components h =>
    obtain ⟨guild, sort, shown, total, embed, hembed, rfl⟩ := exists_embed_of_handle h
    exact rendered_embed hembed
  next => exact hmessage

theorem inRange_iff_fits {message : Message} (hmessage : Rendered message) (click : Click) :
    InRange message click ↔ Fits message click := by
  constructor
  · exact fun h page count hreads => (shows_iff hmessage hreads).mp (h.shows page count hreads)
  · intro h
    have hshows := fun page count (hreads : Reads message click page count) =>
      (shows_iff hmessage hreads).mpr (h page count hreads)
    refine ⟨handle_ne_panic fun page count hreads => ?_, hshows⟩
    obtain ⟨shown, offset, hshown, hoffset, -⟩ := hshows page count hreads
    exact ⟨shown, offset, hshown, hoffset⟩

/-- In a run of clicks from a first page, all are in range exactly if for each the count fits the page. -/
theorem paging_in_range_iff (replies : Replies) (guild : Guild) (sort : StatsSort) (total : UInt16) (embed : Embed)
    (hembed : createEmojiStatsEmbed replies guild sort 1 total = .ok embed) (clicks : List Click) :
    AllSteps Message.click InRange ⟨[embed]⟩ clicks ↔ AllSteps Message.click Fits ⟨[embed]⟩ clicks :=
  allSteps_congr Rendered (fun _ click hmessage => rendered_click hmessage click)
    (fun _ click hmessage => inRange_iff_fits hmessage click) (rendered_embed hembed) clicks

/-- Everything goes well, in a guild with this count. -/
def repliesOf (guild : Guild) (count : ℕ) : Replies where
  guild := .ok (some guild)
  response := .ok ()
  count := .ok count
  stats _ _ _ _ := .ok []
  validate _ := .ok ()
  updateResponse := .ok ()
  messageContent := none

def pagesOf (count : ℕ) : ℕ := min ((count + 14) / 15) 65535

/-- The message shows this page of so many. -/
def Message.OnPage (message : Message) (page total : ℕ) : Prop :=
  ∃ replies guild sort shown pages embed, createEmojiStatsEmbed replies guild sort shown pages = .ok embed ∧
    shown.toNat = page ∧ pages.toNat = total ∧ message = ⟨[embed]⟩

/-- A click when everything goes well. -/
theorem Message.OnPage.click {message : Message} {page total : ℕ} (h : message.OnPage page total) (htotal : 0 < total)
    (guild : Guild) (button : Button) (count : ℕ) (hfits : button.Fits page count) :
    Fits message ⟨button, repliesOf guild count⟩ ∧
      (message.click ⟨button, repliesOf guild count⟩).OnPage (button.target page (pagesOf count)) (pagesOf count) := by
  obtain ⟨replies, guild', sort, shown, pages, embed, hembed, rfl, rfl, rfl⟩ := h
  have hpage := (createEmojiStatsEmbed_eq_ok hembed).1
  have hextract := extractPageAndSort_embed hembed
  have hsome : 0 < pages := UInt16.lt_iff_toNat_lt.mpr htotal
  rw [if_pos hsome] at hextract
  constructor
  · intro page' count' hreads
    obtain ⟨sort', hread⟩ := hreads.page
    rw [hextract] at hread
    cases hread
    cases hreads.count
    exact hfits
  · obtain ⟨next, hnext, hvalue⟩ := newPage_eq hpage (totalPagesOf count) button
    rw [toNat_totalPagesOf] at hvalue
    obtain ⟨offset, hoffset, -⟩ : ∃ offset, pageOffset next = .ok offset ∧ offset.toNat = (next.toNat - 1) * 15 :=
      pageOffset_of_hasOffset (hvalue ▸ ((target_in_range_iff hpage count button rfl).mpr hfits).1)
    obtain ⟨embed', hembed'⟩ : ∃ embed',
        createEmojiStatsEmbed (repliesOf guild count) guild sort next (totalPagesOf count) = .ok embed' := by
      rw [createEmojiStatsEmbed, hoffset]
      exact ⟨_, rfl⟩
    have hhandle : (Click.mk button (repliesOf guild count)).handle ⟨[embed]⟩ =
        .ok (some (⟨[embed']⟩, getComponents next (totalPagesOf count))) := by
      show handleEmojiPagination _ _ _ = _
      unfold handleEmojiPagination
      rw [hextract]
      show (newPage button.customId shown (totalPagesOf count) >>= _) = _
      rw [hnext]
      show (createEmojiStatsEmbed _ _ _ _ _ >>= _) = _
      rw [hembed']
      rfl
    refine ⟨_, _, _, _, _, embed', hembed', hvalue, toNat_totalPagesOf count, ?_⟩
    rw [Message.click, hhandle]

/-- Clicks while emojis come and go. -/
theorem paging_in_range_iff_of_clicks :
    let guild : Guild := ⟨⟨1, by decide⟩, "a guild"⟩
    ∃ embed, createEmojiStatsEmbed (repliesOf guild 30) guild .countDesc 1 2 = .ok embed ∧
      AllSteps Message.click InRange ⟨[embed]⟩
        [⟨.next, repliesOf guild 30⟩, ⟨.next, repliesOf guild 50⟩, ⟨.last, repliesOf guild 20⟩,
          ⟨.prev, repliesOf guild 40⟩, ⟨.first, repliesOf guild 0⟩] := by
  intro guild
  obtain ⟨embed, hembed⟩ :
      ∃ embed, createEmojiStatsEmbed (repliesOf guild 30) guild .countDesc 1 2 = .ok embed := ⟨_, rfl⟩
  have hstart : (⟨[embed]⟩ : Message).OnPage 1 2 := ⟨_, _, _, _, _, _, hembed, rfl, rfl, rfl⟩
  obtain ⟨hfits₁, hpage₁⟩ := hstart.click (by decide) guild .next 30 ⟨by decide, .inl (by decide)⟩
  obtain ⟨hfits₂, hpage₂⟩ := hpage₁.click (by decide) guild .next 50 ⟨by decide, .inl (by decide)⟩
  obtain ⟨hfits₃, hpage₃⟩ := hpage₂.click (by decide) guild .last 20 ⟨by decide, by decide⟩
  obtain ⟨hfits₄, hpage₄⟩ := hpage₃.click (by decide) guild .prev 40 (.inl (by decide))
  have hfits₅ := (hpage₄.click (by decide) guild .first 0 trivial).1
  exact ⟨embed, hembed, (paging_in_range_iff _ _ _ _ embed hembed _).mpr
    ⟨hfits₁, hfits₂, hfits₃, hfits₄, hfits₅, trivial⟩⟩

/-- All uses are deleted after page 1 of 2 was shown: the next page is page 0, and its offset underflows. -/
theorem next_of_no_emojis_panics :
    let guild : Guild := ⟨⟨1, by decide⟩, "a guild"⟩
    ∃ embed, createEmojiStatsEmbed (repliesOf guild 30) guild .countDesc 1 2 = .ok embed ∧
      (Click.mk .next (repliesOf guild 0)).handle ⟨[embed]⟩ = .error .panic ∧
      ¬ InRange ⟨[embed]⟩ ⟨.next, repliesOf guild 0⟩ := by
  intro guild
  obtain ⟨embed, hembed⟩ :
      ∃ embed, createEmojiStatsEmbed (repliesOf guild 30) guild .countDesc 1 2 = .ok embed := ⟨_, rfl⟩
  have htotal : totalPagesOf 0 = 0 := UInt16.toNat_inj.mp (toNat_totalPagesOf 0)
  have hpanic : (Click.mk .next (repliesOf guild 0)).handle ⟨[embed]⟩ = .error .panic := by
    unfold Click.handle handleEmojiPagination
    rw [extractPageAndSort_embed hembed, if_pos (by decide)]
    simp only [repliesOf, Except.mapError, ok_bind, htotal]
    rfl
  exact ⟨embed, hembed, hpanic, fun h => h.returns hpanic⟩

end Tulpje.Emojis
