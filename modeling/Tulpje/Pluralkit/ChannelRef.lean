import Mathlib.Data.List.DropRight
import Tulpje.Pluralkit.SystemRef

/-!
# References to channels as text

`parse_channel_ref` of `tulpje-lib/src/util.rs`. A reference begins with `<#`; white space is trimmed after that is
checked, so it may only follow. `parse_channel_ref_iff` is what is accepted.
-/

namespace Tulpje.Pluralkit

open Twilight Lib

/-- `str::trim_start_matches("<#")`. -/
def trimHashes : List Char → List Char
  | '<' :: '#' :: rest => trimHashes rest
  | text => text

/-- `str::trim_end_matches(">")`. -/
def trimClosing (text : List Char) : List Char := text.rdropWhile (· = '>')

def parseChannelRef (channelRef : String) : Option ChannelId :=
  match channelRef.toList with
  | '<' :: '#' :: _ => Id.fromStr (String.ofList (trimClosing (trimHashes (trim channelRef.toList))))
  | _ => none

/-- The number with its brackets. -/
def channelRef (hashes closing : ℕ) (number : List Char) : List Char :=
  (List.replicate hashes ['<', '#']).flatten ++ number ++ List.replicate closing '>'

/-! ### Trimming -/

theorem channelRef_succ (hashes closing : ℕ) (number : List Char) :
    channelRef (hashes + 1) closing number = '<' :: '#' :: channelRef hashes closing number := by
  simp [channelRef, List.replicate_succ]

theorem rdropWhile_append {p : Char → Bool} (text : List Char) {rest : List Char} (h : ∀ c ∈ rest, p c = true) :
    (text ++ rest).rdropWhile p = text.rdropWhile p := by
  have hreverse : ∀ c ∈ rest.reverse, p c = true := fun c hc => h c (List.mem_reverse.mp hc)
  rw [List.rdropWhile, List.reverse_append, List.dropWhile_append_of_pos hreverse, List.rdropWhile]

/-- A number of `<#` is trimmed. -/
theorem exists_trimHashes (text : List Char) :
    ∃ hashes, text = (List.replicate hashes ['<', '#']).flatten ++ trimHashes text := by
  fun_induction trimHashes text with
  | case1 rest ih =>
    obtain ⟨hashes, hrest⟩ := ih
    refine ⟨hashes + 1, ?_⟩
    simpa [List.replicate_succ] using hrest
  | case2 text => exact ⟨0, rfl⟩

theorem trimHashes_channelRef {number : List Char} (hne : number ≠ []) (h : '<' ∉ number) (hashes closing : ℕ) :
    trimHashes (channelRef hashes closing number) = number ++ List.replicate closing '>' := by
  induction hashes with
  | zero =>
    obtain ⟨c, rest, rfl⟩ := List.exists_cons_of_ne_nil hne
    have hc : c ≠ '<' := fun heq => h (heq ▸ List.mem_cons_self)
    simp [channelRef, trimHashes, hc]
  | succ hashes ih =>
    rw [channelRef_succ, trimHashes]
    exact ih

theorem exists_trimClosing (text : List Char) : ∃ closing, text = trimClosing text ++ List.replicate closing '>' := by
  refine ⟨(text.rtakeWhile (· = '>')).length, ?_⟩
  have hclosing : text.rtakeWhile (· = '>') = List.replicate (text.rtakeWhile (· = '>')).length '>' :=
    List.eq_replicate_iff.mpr ⟨rfl, fun c hc => by simpa using List.mem_rtakeWhile_imp hc⟩
  rw [trimClosing, ← hclosing, List.rdropWhile_append_rtakeWhile]

theorem trimClosing_append {number : List Char} (h : '>' ∉ number) (closing : ℕ) :
    trimClosing (number ++ List.replicate closing '>') = number := by
  have hself : number.rdropWhile (· = '>') = number := by
    refine List.rdropWhile_eq_self_iff.mpr fun hne heq => h ?_
    have hlast := List.getLast_mem hne
    rwa [of_decide_eq_true heq] at hlast
  rw [trimClosing, rdropWhile_append _ fun c hc => by simp [List.eq_of_mem_replicate hc]]
  exact hself

/-- Behind a `<#` white space is trimmed at the end only. -/
theorem trim_hash (rest : List Char) : trim ('<' :: '#' :: rest) = '<' :: '#' :: rest.rdropWhile isWhitespace := by
  have hstart : ('<' :: '#' :: rest).dropWhile isWhitespace = '<' :: '#' :: rest := rfl
  rw [trim, hstart]
  conv_lhs => rw [← List.rdropWhile_append_rtakeWhile (p := isWhitespace) (l := rest)]
  rw [← List.cons_append, ← List.cons_append, rdropWhile_append _ fun c hc => List.mem_rtakeWhile_imp hc]
  refine List.rdropWhile_eq_self_iff.mpr fun hne => ?_
  by_cases hnil : rest.rdropWhile isWhitespace = []
  · simp only [hnil, List.getLast_cons_cons, List.getLast_singleton]
    decide
  · rw [List.getLast_cons (List.cons_ne_nil _ _), List.getLast_cons hnil]
    exact List.rdropWhile_last_not isWhitespace rest hnil

/-! ### What is accepted -/

theorem mem_number {number : List Char} {value : UInt64} (h : u64FromStr number = some value) {c : Char}
    (hc : c ∈ number) : c = '+' ∨ c.isDigit = true := by
  by_cases hplus : c = '+'
  · exact .inl hplus
  · exact .inr (isDigit_of_readDigits (readDigits_of_u64FromStr h) c (mem_withoutPlus hplus hc))

theorem number_ne_nil {number : List Char} {value : UInt64} (h : u64FromStr number = some value) : number ≠ [] := by
  rintro rfl
  simp [u64FromStr, withoutPlus] at h

theorem rdropWhile_channelRef {number : List Char} {value : UInt64} (h : u64FromStr number = some value)
    (hashes closing : ℕ) :
    (channelRef hashes closing number).rdropWhile isWhitespace = channelRef hashes closing number := by
  have hplain : ∀ c ∈ channelRef hashes closing number, isWhitespace c = false := by
    intro c hc
    rw [channelRef, List.mem_append, List.mem_append] at hc
    rcases hc with (hc | hc) | hc
    · obtain ⟨part, hpart, hc⟩ := List.mem_flatten.mp hc
      rw [List.eq_of_mem_replicate hpart] at hc
      rcases List.mem_pair.mp hc with rfl | rfl <;> decide
    · rcases mem_number h hc with rfl | hdigit
      · decide
      · exact isWhitespace_of_isDigit hdigit
    · rw [List.eq_of_mem_replicate hc]
      decide
  refine List.rdropWhile_eq_self_iff.mpr fun hne => ?_
  rw [hplain _ (List.getLast_mem hne)]
  exact Bool.false_ne_true

/-- One or more `<#`, a number, any `>` and then any white space. -/
theorem parse_channel_ref_iff (s : String) (id : ChannelId) :
    parseChannelRef s = some id ↔ ∃ hashes closing number space,
      s.toList = channelRef (hashes + 1) closing number ++ space ∧ (∀ c ∈ space, isWhitespace c = true) ∧
        u64FromStr number = some id.get := by
  constructor
  · intro h
    unfold parseChannelRef at h
    split at h
    next rest hs =>
      rw [hs, trim_hash, trimHashes, Id.fromStr_eq_some_iff, String.toList_ofList] at h
      obtain ⟨hashes, hhashes⟩ := exists_trimHashes (rest.rdropWhile isWhitespace)
      obtain ⟨closing, hclosing⟩ := exists_trimClosing (trimHashes (rest.rdropWhile isWhitespace))
      refine ⟨hashes, closing, _, rest.rtakeWhile isWhitespace, ?_, fun c hc => List.mem_rtakeWhile_imp hc, h⟩
      rw [hs, channelRef_succ, channelRef, List.append_assoc (List.flatten _), ← hclosing, ← hhashes,
        List.cons_append, List.cons_append, List.rdropWhile_append_rtakeWhile]
    next => cases h
  · rintro ⟨hashes, closing, number, space, hs, hspace, hnumber⟩
    rw [channelRef_succ, List.cons_append, List.cons_append] at hs
    unfold parseChannelRef
    rw [hs]
    have hopening : '<' ∉ number := fun hc => absurd (mem_number hnumber hc) (by decide)
    have hend : '>' ∉ number := fun hc => absurd (mem_number hnumber hc) (by decide)
    rw [trim_hash, rdropWhile_append _ hspace, rdropWhile_channelRef hnumber, trimHashes,
      trimHashes_channelRef (number_ne_nil hnumber) hopening, trimClosing_append hend]
    exact Id.fromStr_eq_some_iff.mpr (by rwa [String.toList_ofList])

/-- The mention of a channel is read back. -/
theorem parseChannelRef_mention (id : ChannelId) : parseChannelRef s!"<#{id}>" = some id := by
  refine (parse_channel_ref_iff _ id).mpr ⟨0, 1, Nat.toDigits 10 id.get.toNat, [], ?_, by simp, u64FromStr_toDigits _⟩
  have hnumber : (toString id).toList = Nat.toDigits 10 id.get.toNat := toList_toString_uInt64 id.get
  have hopening : (toString "<#").toList = ['<', '#'] := rfl
  have hend : (toString ">").toList = ['>'] := rfl
  simp [channelRef, hnumber, hopening, hend]

end Tulpje.Pluralkit
