import Tulpje.Lib.Regex
import Tulpje.Twilight.Id

/-!
# Emojis in the text of a message

`parse_emojis_from_string` in `tulpje-mod-emoji/src/shared.rs` and the `Display` of an emoji in `db.rs`. The search
reports every digit string; `Id::from_str` refuses zero and what does not fit into 64 bits, and is unwrapped.
-/

namespace Tulpje.Emojis

open Twilight Lib

abbrev GuildId := Id .guild
abbrev EmojiId := Id .emoji

structure Emoji where
  id : EmojiId
  guildId : GuildId
  name : String
  animated : Bool
  deriving DecidableEq

def Emoji.new (id : EmojiId) (guildId : GuildId) (name : String) (animated : Bool) : Emoji :=
  { id, guildId, name, animated }

/-- `Display`. -/
instance : ToString Emoji where
  toString emoji :=
    let animated := if emoji.animated then "a" else ""
    s!"<{animated}:{emoji.name}:{emoji.id.get}>"

/-- `[[:word:]]`. -/
def isWord (c : Char) : Bool := c.isAlphanum || c == '_'

/-- `<(a?):([[:word:]]+):([[:digit:]]+)>`. -/
def emojiRegex : Regex Char :=
  .seq (.one (· == '<')) <| .seq (.group (.opt (.one (· == 'a')))) <| .seq (.one (· == ':')) <|
    .seq (.group (.plus isWord)) <| .seq (.one (· == ':')) <| .seq (.group (.plus Char.isDigit)) (.one (· == '>'))

/-- `none` is the panic of an `unwrap`. -/
def emojiOfCaptures (guildId : GuildId) : List (List Char) → Option Emoji
  | [animated, name, id] => do
    let id ← Id.fromStr (String.ofList id)
    return Emoji.new id guildId (String.ofList name) (animated = ['a'])
  | _ => none

def parseEmojisFromString (guildId : GuildId) (content : String) : Option (List Emoji) :=
  (emojiRegex.capturesIter content.toList).mapM (emojiOfCaptures guildId)

example : parseEmojisFromString ⟨1, by decide⟩ "<a:animated:1> <:static:2>" =
    some [⟨⟨1, by decide⟩, ⟨1, by decide⟩, "animated", true⟩, ⟨⟨2, by decide⟩, ⟨1, by decide⟩, "static", false⟩] := by
  decide

/-! ### What the expression matches -/

def marker (animated : Bool) : List Char := if animated then ['a'] else []

/-- `<[a]:name:digits>`. -/
def LooksLike (animated : Bool) (name digits text : List Char) : Prop :=
  text = '<' :: (marker animated ++ ':' :: (name ++ ':' :: (digits ++ ['>']))) ∧
    (name ≠ [] ∧ ∀ c ∈ name, isWord c = true) ∧ digits ≠ [] ∧ ∀ c ∈ digits, c.isDigit = true

theorem matches_marker_iff {m : List Char} {captures : List (List Char)} :
    (Regex.opt (.one (· == 'a'))).Matches m captures ↔ ∃ animated, m = marker animated ∧ captures = [] := by
  rw [Regex.Matches, Regex.matches_one_beq, Bool.exists_bool]
  exact or_comm

theorem matches_emojiRegex_iff {text : List Char} {captures : List (List Char)} :
    emojiRegex.Matches text captures ↔
      ∃ animated name digits, LooksLike animated name digits text ∧ captures = [marker animated, name, digits] := by
  unfold emojiRegex
  rw [Regex.matches_one_seq]
  constructor
  · rintro ⟨_, rfl, h₁⟩
    obtain ⟨_, _, _, _, hmarker, h₂, rfl, rfl⟩ := Regex.matches_group_seq.mp h₁
    obtain ⟨animated, rfl, rfl⟩ := matches_marker_iff.mp hmarker
    obtain ⟨_, rfl, h₃⟩ := Regex.matches_one_seq.mp h₂
    obtain ⟨name, _, _, _, ⟨hname, hword, rfl⟩, h₄, rfl, rfl⟩ := Regex.matches_group_seq.mp h₃
    obtain ⟨_, rfl, h₅⟩ := Regex.matches_one_seq.mp h₄
    obtain ⟨digits, _, _, _, ⟨hdigits, hdigit, rfl⟩, h₆, rfl, rfl⟩ := Regex.matches_group_seq.mp h₅
    obtain ⟨rfl, rfl⟩ := Regex.matches_one_beq.mp h₆
    exact ⟨animated, name, digits, ⟨rfl, ⟨hname, hword⟩, hdigits, hdigit⟩, rfl⟩
  · rintro ⟨animated, name, digits, ⟨rfl, ⟨hname, hword⟩, hdigits, hdigit⟩, rfl⟩
    have hmarker := matches_marker_iff.mpr ⟨animated, rfl, rfl⟩
    refine ⟨_, rfl, Regex.matches_group_seq.mpr ⟨_, [], _, [name, digits], hmarker, ?_, rfl, rfl⟩⟩
    refine Regex.matches_one_seq.mpr ⟨_, rfl, ?_⟩
    refine Regex.matches_group_seq.mpr ⟨name, [], _, [digits], ⟨hname, hword, rfl⟩, ?_, rfl, rfl⟩
    refine Regex.matches_one_seq.mpr ⟨_, rfl, ?_⟩
    refine Regex.matches_group_seq.mpr ⟨digits, [], _, [], ⟨hdigits, hdigit, rfl⟩, ?_, rfl, rfl⟩
    exact Regex.matches_one_beq.mpr ⟨rfl, rfl⟩

theorem colon_notMem_marker (animated : Bool) : ':' ∉ marker animated := by
  cases animated <;> decide

theorem marker_injective : Function.Injective marker := by
  decide

theorem LooksLike.colon_notMem {animated : Bool} {name digits text : List Char}
    (h : LooksLike animated name digits text) : ':' ∉ name := fun hcolon =>
  absurd (h.2.1.2 ':' hcolon) (by decide)

theorem LooksLike.unique {animated animated' : Bool} {name name' digits digits' text : List Char}
    (h : LooksLike animated name digits text) (h' : LooksLike animated' name' digits' text) :
    animated = animated' ∧ name = name' ∧ digits = digits' := by
  have htext := (List.cons.inj (h.1.symm.trans h'.1)).2
  obtain ⟨hmarker, hrest⟩ := append_cons_inj (colon_notMem_marker _) (colon_notMem_marker _) htext
  obtain ⟨hname, hdigits⟩ := append_cons_inj h.colon_notMem h'.colon_notMem hrest
  exact ⟨marker_injective hmarker, hname, List.append_cancel_right hdigits⟩

theorem LooksLike.brackets {animated : Bool} {name digits text : List Char}
    (h : LooksLike animated name digits text) :
    ∃ inner, text = '<' :: (inner ++ ['>']) ∧ '<' ∉ inner ∧ '>' ∉ inner := by
  obtain ⟨htext, ⟨-, hword⟩, -, hdigit⟩ := h
  have hinner : ∀ c, isWord c = false → c.isDigit = false → c ≠ ':' → c ≠ 'a' →
      c ∉ marker animated ++ ':' :: (name ++ ':' :: digits) := by
    intro c hnotWord hnotDigit hcolon ha hc
    rw [List.mem_append, List.mem_cons, List.mem_append, List.mem_cons] at hc
    rcases hc with hc | hc | hc | hc | hc
    · cases animated with
      | false => cases hc
      | true => exact ha (List.mem_singleton.mp hc)
    · exact hcolon hc
    · rw [hword c hc] at hnotWord
      cases hnotWord
    · exact hcolon hc
    · rw [hdigit c hc] at hnotDigit
      cases hnotDigit
  refine ⟨_, ?_, hinner '<' (by decide) (by decide) (by decide) (by decide),
    hinner '>' (by decide) (by decide) (by decide) (by decide)⟩
  rw [htext]
  simp

theorem brackets_of_matches {text : List Char} {captures : List (List Char)}
    (h : emojiRegex.Matches text captures) :
    ∃ inner, text = '<' :: (inner ++ ['>']) ∧ '<' ∉ inner ∧ '>' ∉ inner := by
  obtain ⟨animated, name, digits, hlooks, -⟩ := matches_emojiRegex_iff.mp h
  exact hlooks.brackets

theorem apart_emojiRegex : Apart emojiRegex.Matches :=
  apart_of_brackets (by decide) brackets_of_matches

theorem captures_unique {text : List Char} {captures captures' : List (List Char)}
    (h : emojiRegex.Matches text captures) (h' : emojiRegex.Matches text captures') : captures = captures' := by
  obtain ⟨animated, name, digits, hlooks, rfl⟩ := matches_emojiRegex_iff.mp h
  obtain ⟨animated', name', digits', hlooks', rfl⟩ := matches_emojiRegex_iff.mp h'
  obtain ⟨rfl, rfl, rfl⟩ := hlooks.unique hlooks'
  rfl

theorem leftmost_captures (text : List Char) : Leftmost emojiRegex.Matches text (emojiRegex.capturesIter text) := by
  refine Regex.leftmost_capturesIter (fun captures h => ?_) text
  obtain ⟨inner, htext, -⟩ := brackets_of_matches h
  cases htext

/-! ### Emojis -/

/-- The number of the digits is an id. -/
def DenotesId (digits : List Char) : Prop :=
  0 < Nat.ofDigitChars 10 digits 0 ∧ Nat.ofDigitChars 10 digits 0 < 2 ^ 64

/-- The text is the one of an emoji whose id its digits denote. -/
def Mentions (guildId : GuildId) (text : List Char) (emoji : Emoji) : Prop :=
  emoji.guildId = guildId ∧ ∃ digits, LooksLike emoji.animated emoji.name.toList digits text ∧
    Nat.ofDigitChars 10 digits 0 = emoji.id.get.toNat

section Captures

variable {guildId : GuildId} {animated : Bool} {name digits text : List Char}

theorem emojiOfCaptures_marker (guildId : GuildId) (animated : Bool) (name digits : List Char) :
    emojiOfCaptures guildId [marker animated, name, digits] =
      (Id.fromStr (String.ofList digits)).map fun id => Emoji.new id guildId (String.ofList name) animated := by
  have hanimated : decide (marker animated = ['a']) = animated := by
    cases animated <;> rfl
  rw [emojiOfCaptures, hanimated]
  cases Id.fromStr (String.ofList digits) <;> rfl

theorem mentions_of_emojiOfCaptures {captures : List (List Char)} {emoji : Emoji}
    (h : emojiRegex.Matches text captures) (hemoji : emojiOfCaptures guildId captures = some emoji) :
    Mentions guildId text emoji := by
  obtain ⟨animated, name, digits, hlooks, rfl⟩ := matches_emojiRegex_iff.mp h
  rw [emojiOfCaptures_marker] at hemoji
  obtain ⟨id, hid, rfl⟩ := Option.map_eq_some_iff.mp hemoji
  refine ⟨rfl, digits, ?_, (Id.fromStr_ofList_eq_some_iff hlooks.2.2.1 hlooks.2.2.2).mp hid⟩
  simpa [Emoji.new] using hlooks

theorem exists_emojiOfCaptures_iff (h : LooksLike animated name digits text) :
    (∃ emoji, emojiOfCaptures guildId [marker animated, name, digits] = some emoji) ↔ DenotesId digits := by
  have hread : ∀ id : EmojiId, Id.fromStr (String.ofList digits) = some id ↔
      Nat.ofDigitChars 10 digits 0 = id.get.toNat := fun _ => Id.fromStr_ofList_eq_some_iff h.2.2.1 h.2.2.2
  rw [emojiOfCaptures_marker]
  constructor
  · rintro ⟨emoji, hemoji⟩
    obtain ⟨id, hid, -⟩ := Option.map_eq_some_iff.mp hemoji
    have hpos : id.get.toNat ≠ 0 := fun hzero => id.ne_zero (UInt64.toNat_inj.mp hzero)
    rw [DenotesId, (hread id).mp hid]
    exact ⟨Nat.pos_of_ne_zero hpos, id.get.toNat_lt⟩
  · rintro ⟨hpos, hlt⟩
    have htoNat := UInt64.toNat_ofNat_of_lt' hlt
    have hne : UInt64.ofNat (Nat.ofDigitChars 10 digits 0) ≠ 0 := by
      intro hzero
      rw [hzero] at htoNat
      exact absurd htoNat.symm (Nat.ne_of_gt hpos)
    exact ⟨_, Option.map_eq_some_iff.mpr ⟨⟨_, hne⟩, (hread _).mpr htoNat.symm, rfl⟩⟩

theorem leftmost_of_parse {content : String} {emojis : List Emoji}
    (h : parseEmojisFromString guildId content = some emojis) :
    Leftmost (Mentions guildId) content.toList emojis := by
  refine (leftmost_captures content.toList).mapM (mapM_eq_some_iff.mp h) mentions_of_emojiOfCaptures ?_
  rintro m emoji ⟨-, digits, hlooks, -⟩
  exact ⟨_, matches_emojiRegex_iff.mpr ⟨_, _, _, hlooks, rfl⟩⟩

end Captures

/-- The search comes across every text that looks like an emoji. -/
theorem parse_returns_iff (guildId : GuildId) (content : String) :
    (∃ emojis, parseEmojisFromString guildId content = some emojis) ↔
      ∀ before text after animated name digits, content.toList = before ++ text ++ after →
        LooksLike animated name digits text → DenotesId digits := by
  have hsearch := leftmost_captures content.toList
  constructor
  · rintro ⟨emojis, h⟩ before text after animated name digits htext hlooks
    have hmatch : emojiRegex.Matches text [marker animated, name, digits] :=
      matches_emojiRegex_iff.mpr ⟨_, _, _, hlooks, rfl⟩
    obtain ⟨captures, hmem, hcaptures⟩ := hsearch.exists_mem apart_emojiRegex htext hmatch
    obtain rfl := captures_unique hmatch hcaptures
    have hemoji : emojiOfCaptures guildId [marker animated, name, digits] ∈ emojis.map some := by
      rw [← mapM_eq_some_iff.mp h]
      exact List.mem_map_of_mem hmem
    obtain ⟨emoji, -, hemoji⟩ := List.mem_map.mp hemoji
    exact (exists_emojiOfCaptures_iff hlooks).mp ⟨emoji, hemoji.symm⟩
  · intro h
    refine ⟨_, mapM_eq_some_of_forall fun captures hmem => ?_⟩
    obtain ⟨before, text, after, htext, hmatch⟩ := hsearch.exists_match hmem
    obtain ⟨animated, name, digits, hlooks, rfl⟩ := matches_emojiRegex_iff.mp hmatch
    exact (exists_emojiOfCaptures_iff hlooks).mpr (h _ _ _ _ _ _ htext hlooks)

theorem parse_emojis_iff (guildId : GuildId) (content : String) :
    (∃ emojis, parseEmojisFromString guildId content = some emojis ∧
        Leftmost (Mentions guildId) content.toList emojis) ↔
      ∀ before text after animated name digits, content.toList = before ++ text ++ after →
        LooksLike animated name digits text → DenotesId digits := by
  rw [← parse_returns_iff guildId content]
  constructor
  · rintro ⟨emojis, h, -⟩
    exact ⟨emojis, h⟩
  · rintro ⟨emojis, h⟩
    exact ⟨emojis, h, leftmost_of_parse h⟩

/-- Zero is no id. -/
theorem zero_id_panics : ¬∀ (guildId : GuildId) (content : String), ∃ emojis,
    parseEmojisFromString guildId content = some emojis ∧
      Leftmost (Mentions guildId) content.toList emojis := by
  intro h
  obtain ⟨emojis, hemojis, -⟩ := h ⟨1, by decide⟩ "<:a:0>"
  have hpanic : parseEmojisFromString ⟨1, by decide⟩ "<:a:0>" = none := by decide
  rw [hpanic] at hemojis
  cases hemojis

/-! ### Rendered emojis -/

/-- Emojis in a text, each followed by some text of its own. -/
def render (first : String) (emojis : List (Emoji × String)) : String :=
  first ++ String.join (emojis.map fun (emoji, after) => toString emoji ++ after)

def Emoji.digits (emoji : Emoji) : List Char := Nat.toDigits 10 emoji.id.get.toNat

def Emoji.captures (emoji : Emoji) : List (List Char) :=
  [marker emoji.animated, emoji.name.toList, emoji.digits]

/-- `[0-9A-Za-z_]+`. -/
def Emoji.WellNamed (emoji : Emoji) : Prop := emoji.name.toList ≠ [] ∧ ∀ c ∈ emoji.name.toList, isWord c = true

theorem Emoji.toList_toString (emoji : Emoji) : (toString emoji).toList =
    '<' :: (marker emoji.animated ++ ':' :: (emoji.name.toList ++ ':' :: (emoji.digits ++ ['>']))) := by
  have hid : (toString emoji.id.get).toList = emoji.digits := toList_toString_uInt64 emoji.id.get
  have hanimated : (if emoji.animated then "a" else "").toList = marker emoji.animated := by
    cases emoji.animated <;> rfl
  have htext : toString emoji =
      "<" ++ (if emoji.animated then "a" else "") ++ ":" ++ emoji.name ++ ":" ++ toString emoji.id.get ++ ">" := rfl
  rw [htext]
  simp [hid, hanimated]

theorem Emoji.looksLike {emoji : Emoji} (h : emoji.WellNamed) :
    LooksLike emoji.animated emoji.name.toList emoji.digits (toString emoji).toList :=
  ⟨emoji.toList_toString, h, Nat.toDigits_ne_nil, fun _ hc => Nat.isDigit_of_mem_toDigits (by decide) (by decide) hc⟩

theorem Emoji.emojiOfCaptures_captures (emoji : Emoji) (guildId : GuildId) :
    emojiOfCaptures guildId emoji.captures = some { emoji with guildId } := by
  have hid : Id.fromStr (String.ofList emoji.digits) = some emoji.id := emoji.id.fromStr_toString
  rw [Emoji.captures, emojiOfCaptures_marker, hid]
  simp [Emoji.new]

theorem leftmost_render (first : String) (emojis : List (Emoji × String)) (hfirst : '<' ∉ first.toList)
    (hafter : ∀ p ∈ emojis, '<' ∉ p.2.toList) (hnames : ∀ p ∈ emojis, p.1.WellNamed) :
    Leftmost emojiRegex.Matches (render first emojis).toList (emojis.map fun p => p.1.captures) := by
  have hstart : ∀ {m captures}, emojiRegex.Matches m captures → ∃ inner, m = '<' :: inner := by
    intro m captures h
    obtain ⟨inner, hm, -⟩ := brackets_of_matches h
    exact ⟨_, hm⟩
  induction emojis generalizing first with
  | nil => exact .none_of_notMem hstart (by simpa [render] using hfirst)
  | cons p emojis ih =>
    have htext : (render first (p :: emojis)).toList =
        first.toList ++ (toString p.1).toList ++ (render p.2 emojis).toList := by
      simp [render]
    rw [htext]
    refine .next_of_notMem hstart hfirst (matches_emojiRegex_iff.mpr ⟨_, _, _, ?_, rfl⟩) (ih p.2 ?_ ?_ ?_)
    · exact Emoji.looksLike (hnames p List.mem_cons_self)
    · exact hafter p List.mem_cons_self
    · exact fun q hq => hafter q (List.mem_cons_of_mem p hq)
    · exact fun q hq => hnames q (List.mem_cons_of_mem p hq)

theorem parse_render (guildId : GuildId) (first : String) (emojis : List (Emoji × String))
    (hfirst : '<' ∉ first.toList) (hafter : ∀ p ∈ emojis, '<' ∉ p.2.toList)
    (hnames : ∀ p ∈ emojis, p.1.WellNamed) :
    parseEmojisFromString guildId (render first emojis) = some (emojis.map fun p => { p.1 with guildId }) := by
  have hcaptures : emojiRegex.capturesIter (render first emojis).toList = emojis.map fun p => p.1.captures :=
    (leftmost_captures _).unique apart_emojiRegex captures_unique (leftmost_render first emojis hfirst hafter hnames)
  rw [parseEmojisFromString, hcaptures, mapM_eq_some_iff, List.map_map, List.map_map]
  exact List.map_congr_left fun p _ => p.1.emojiOfCaptures_captures guildId

/-- Names and texts may look like the rest of an emoji. -/
def exampleEmojis : List (Emoji × String) :=
  [(⟨⟨4001, by decide⟩, ⟨4000, by decide⟩, "a", false⟩, ":a:4001>"),
    (⟨⟨40010, by decide⟩, ⟨4000, by decide⟩, "a_1", true⟩, "")]

theorem parse_render_example : parseEmojisFromString ⟨2, by decide⟩ (render "a:1>" exampleEmojis) =
    some (exampleEmojis.map fun p => { p.1 with guildId := ⟨2, by decide⟩ }) :=
  have hnames : ∀ p ∈ exampleEmojis, p.1.WellNamed := by
    simp [exampleEmojis, Emoji.WellNamed, isWord]
  parse_render _ _ _ (by decide) (by decide) hnames

end Tulpje.Emojis
