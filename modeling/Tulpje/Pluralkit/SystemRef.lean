import Mathlib.Data.List.DropRight
import Mathlib.Data.String.Basic
import Tulpje.Twilight.Id
import Tulpje.Pluralkit.Notify

/-!
# References to systems as text

`SystemRef` in `util.rs`. A text is tried as a short id, as a Discord id and as a UUID. `survives_printing_iff` says
when the text of what was read is read as the same again. `Uuid::from_str` is a parameter; `Uuid.fromStr` is what its
crate documents.
-/

namespace Tulpje.Pluralkit

open Twilight Lib

/-! ### White space -/

/-- `char::is_whitespace`, the Unicode property `White_Space`. -/
def isWhitespace (c : Char) : Bool :=
  let n := c.toNat
  (9 ≤ n && n ≤ 13) || n == 0x20 || n == 0x85 || n == 0xA0 || n == 0x1680 || (0x2000 ≤ n && n ≤ 0x200A) ||
    n == 0x2028 || n == 0x2029 || n == 0x202F || n == 0x205F || n == 0x3000

/-- `str::trim`. -/
def trim (text : List Char) : List Char := (text.dropWhile isWhitespace).rdropWhile isWhitespace

/-- White space stands at neither end. -/
def Trimmed (text : List Char) : Prop :=
  (∀ c ∈ text.head?, isWhitespace c = false) ∧ ∀ c ∈ text.getLast?, isWhitespace c = false

theorem trim_eq_self_iff {text : List Char} : trim text = text ↔ Trimmed text := by
  have hhead : text.dropWhile isWhitespace = text ↔ ∀ c ∈ text.head?, isWhitespace c = false := by
    cases text with
    | nil => simp
    | cons c rest =>
      rw [List.dropWhile_eq_self_iff]
      simp
  have hlast : text.rdropWhile isWhitespace = text ↔ ∀ c ∈ text.getLast?, isWhitespace c = false := by
    rw [List.rdropWhile_eq_self_iff]
    by_cases hnil : text = []
    · simp [hnil]
    · simp [List.getLast?_eq_some_getLast hnil, hnil]
  unfold trim Trimmed
  constructor
  · intro h
    -- neither end can have lost a character
    have hprefix := (List.rdropWhile_prefix isWhitespace (l := text.dropWhile isWhitespace)).length_le
    rw [h] at hprefix
    have hdrop := (List.dropWhile_suffix isWhitespace (l := text)).eq_of_length_le hprefix
    rw [hdrop] at h
    exact ⟨hhead.mp hdrop, hlast.mp h⟩
  · rintro ⟨hfirst, hend⟩
    rw [hhead.mpr hfirst, hlast.mpr hend]

theorem trim_subset (text : List Char) : trim text ⊆ text := fun _ hc =>
  List.dropWhile_subset isWhitespace ((List.rdropWhile_prefix isWhitespace _).subset hc)

/-! ### Short ids -/

/-- `str::replace("-", "")`. -/
def withoutDashes (text : List Char) : List Char := text.filter (· ≠ '-')

/-- `to_ascii_lowercase` is `Char.toLower`: it changes `A` to `Z` alone. -/
def normalizeShortId (shortId : String) : String :=
  String.ofList ((withoutDashes (trim shortId.toList)).map Char.toLower)

theorem toLower_eq_or (c : Char) :
    c.toLower = c ∧ ¬(65 ≤ c.toNat ∧ c.toNat ≤ 90) ∨
      c.toLower.toNat = c.toNat + 32 ∧ 65 ≤ c.toNat ∧ c.toNat ≤ 90 := by
  have hupper : (c.val ≥ 'A'.val ∧ c.val ≤ 'Z'.val) ↔ 65 ≤ c.toNat ∧ c.toNat ≤ 90 := by
    simp [UInt32.le_iff_toNat_le]
  unfold Char.toLower
  split
  next h =>
    have hc := hupper.mp h
    refine .inr ⟨?_, hc⟩
    change (c.val + ('a'.val - 'A'.val)).toNat = c.toNat + 32
    rw [UInt32.toNat_add]
    change (c.toNat + 32) % 2 ^ 32 = c.toNat + 32
    omega
  next h => exact .inl ⟨rfl, fun hc => h (hupper.mpr hc)⟩

theorem toLower_toLower (c : Char) : c.toLower.toLower = c.toLower := by
  rcases toLower_eq_or c with ⟨h, -⟩ | ⟨h, hc⟩
  · rw [h, h]
  · rcases toLower_eq_or c.toLower with ⟨h', -⟩ | ⟨-, hc'⟩
    · exact h'
    · omega

theorem toLower_ne_dash {c : Char} (hc : c ≠ '-') : c.toLower ≠ '-' := by
  intro heq
  rcases toLower_eq_or c with ⟨h, -⟩ | ⟨h, hbounds⟩
  · exact hc (h.symm.trans heq)
  · rw [heq] at h
    change 45 = c.toNat + 32 at h
    omega

theorem isWhitespace_of_bounds {c : Char} (hlow : 33 ≤ c.toNat) (hhigh : c.toNat ≤ 126) : isWhitespace c = false := by
  simp only [isWhitespace, Bool.or_eq_false_iff, Bool.and_eq_false_iff, decide_eq_false_iff_not, beq_eq_false_iff_ne]
  omega

theorem isWhitespace_of_isDigit {c : Char} (h : c.isDigit = true) : isWhitespace c = false := by
  have hc := toNat_of_isDigit h
  exact isWhitespace_of_bounds (by omega) (by omega)

theorem isWhitespace_toLower (c : Char) : isWhitespace c.toLower = isWhitespace c := by
  rcases toLower_eq_or c with ⟨h, -⟩ | ⟨h, hbounds⟩
  · rw [h]
  · rw [isWhitespace_of_bounds (by omega) (by omega), isWhitespace_of_bounds (by omega) (by omega)]

theorem trimmed_map_toLower {text : List Char} : Trimmed (text.map Char.toLower) ↔ Trimmed text := by
  simp [Trimmed, isWhitespace_toLower]

/-- Normalizing a text without dashes and capitals trims it. -/
theorem normalizeShortId_of_normal {text : List Char} (hdash : '-' ∉ text) (hlower : ∀ c ∈ text, c.toLower = c) :
    normalizeShortId (String.ofList text) = String.ofList (trim text) := by
  have hsubset := trim_subset text
  have hdashes : withoutDashes (trim text) = trim text := by
    rw [withoutDashes, List.filter_eq_self]
    intro c hc
    have hne : c ≠ '-' := fun h => hdash (hsubset (h ▸ hc))
    simpa using hne
  rw [normalizeShortId, String.toList_ofList, hdashes]
  congr 1
  exact List.map_congr_left (g := id) (fun c hc => hlower c (hsubset hc)) |>.trans (List.map_id _)

theorem normalizeShortId_eq_self_iff (s : String) :
    normalizeShortId (normalizeShortId s) = normalizeShortId s ↔ Trimmed (withoutDashes (trim s.toList)) := by
  rw [normalizeShortId.eq_def s, normalizeShortId_of_normal, String.ofList_inj, trim_eq_self_iff, trimmed_map_toLower]
  · simp only [List.mem_map, not_exists, not_and]
    intro c hc
    exact toLower_ne_dash (by simpa using (List.mem_filter.mp hc).2)
  · simp only [List.mem_map]
    rintro _ ⟨c, -, rfl⟩
    exact toLower_toLower c

/-! ### Parsing and printing -/

section FromStr

variable (uuidFromStr : String → Option Uuid)

def SystemRef.fromStr (s : String) : Except Error SystemRef := do
  -- PluralKit short ids
  if 5 ≤ s.utf8ByteSize ∧ s.utf8ByteSize ≤ 7 then
    let normalized := normalizeShortId s
    if 5 ≤ normalized.utf8ByteSize ∧ normalized.utf8ByteSize ≤ 6 then
      return .id normalized
  -- Discord snowflakes
  if let some userId := Id.fromStr s then
    return .discordId userId
  if let some value := uuidFromStr s then
    return .uuid value
  throw s!"Couldn't parse '{s}' into SystemRef"

/-- `Display`. -/
instance : ToString SystemRef where
  toString
    | .id id => toString id
    | .discordId userId => toString userId
    | .uuid uuid => toString uuid

theorem toString_systemRef (systemRef : SystemRef) : toString systemRef = systemRef.text := by
  cases systemRef <;> rfl

/-- The text is taken as a short id. -/
def IsShort (s : String) : Prop :=
  (5 ≤ s.utf8ByteSize ∧ s.utf8ByteSize ≤ 7) ∧
    5 ≤ (normalizeShortId s).utf8ByteSize ∧ (normalizeShortId s).utf8ByteSize ≤ 6

instance (s : String) : Decidable (IsShort s) := inferInstanceAs (Decidable (_ ∧ _))

variable {uuidFromStr} {s : String}

theorem fromStr_of_isShort (h : IsShort s) : SystemRef.fromStr uuidFromStr s = .ok (.id (normalizeShortId s)) := by
  rw [SystemRef.fromStr, if_pos h.1, if_pos h.2]
  rfl

theorem fromStr_of_not_isShort (h : ¬IsShort s) : SystemRef.fromStr uuidFromStr s =
    match Id.fromStr s, uuidFromStr s with
    | some userId, _ => .ok (.discordId userId)
    | none, some value => .ok (.uuid value)
    | none, none => .error s!"Couldn't parse '{s}' into SystemRef" := by
  rw [SystemRef.fromStr]
  by_cases hs : 5 ≤ s.utf8ByteSize ∧ s.utf8ByteSize ≤ 7
  · have hn := fun hn => h ⟨hs, hn⟩
    rw [if_pos hs, if_neg hn]
    cases Id.fromStr s with
    | some userId => rfl
    | none => cases uuidFromStr s <;> rfl
  · rw [if_neg hs]
    cases Id.fromStr s with
    | some userId => rfl
    | none => cases uuidFromStr s <;> rfl

theorem fromStr_eq_id_iff {id : String} :
    SystemRef.fromStr uuidFromStr s = .ok (.id id) ↔ IsShort s ∧ normalizeShortId s = id := by
  by_cases h : IsShort s
  · simp [fromStr_of_isShort h, h]
  · rw [fromStr_of_not_isShort h]
    split <;> simp [h]

theorem fromStr_eq_discordId_iff {userId : Id .user} :
    SystemRef.fromStr uuidFromStr s = .ok (.discordId userId) ↔ ¬IsShort s ∧ Id.fromStr s = some userId := by
  by_cases h : IsShort s
  · simp [fromStr_of_isShort h, h]
  · rw [fromStr_of_not_isShort h]
    split <;> simp_all

theorem fromStr_eq_uuid_iff {uuid : Uuid} : SystemRef.fromStr uuidFromStr s = .ok (.uuid uuid) ↔
    ¬IsShort s ∧ Id.fromStr s = (none : Option (Id .user)) ∧ uuidFromStr s = some uuid := by
  by_cases h : IsShort s
  · simp [fromStr_of_isShort h, h]
  · rw [fromStr_of_not_isShort h]
    split <;> simp_all

end FromStr

/-! ### Texts of numbers -/

theorem length_le_utf8Len (text : List Char) : text.length ≤ String.utf8Len text := by
  induction text with
  | nil => simp
  | cons c text ih =>
    have hc := c.utf8Size_pos
    rw [List.length_cons, String.utf8Len_cons]
    omega

section Digits

variable {digits : List Char} (hdigits : ∀ c ∈ digits, c.isDigit = true)
include hdigits

theorem utf8Len_of_isDigit : String.utf8Len digits = digits.length := by
  induction digits with
  | nil => rfl
  | cons c digits ih =>
    have hc := toNat_of_isDigit (hdigits c List.mem_cons_self)
    have hsize : c.utf8Size = 1 := by
      rw [Char.utf8Size_eq_one_iff, UInt32.le_iff_toNat_le]
      change c.toNat ≤ 127
      omega
    rw [String.utf8Len_cons, ih fun d hd => hdigits d (List.mem_cons_of_mem c hd), hsize, List.length_cons]

theorem normalizeShortId_of_isDigit : normalizeShortId (String.ofList digits) = String.ofList digits := by
  have hwhite : ∀ c ∈ digits, isWhitespace c = false := fun c hc => isWhitespace_of_isDigit (hdigits c hc)
  have htrimmed : Trimmed digits :=
    ⟨fun c hc => hwhite c (List.mem_of_mem_head? hc), fun c hc => hwhite c (List.mem_of_getLast? hc)⟩
  rw [normalizeShortId_of_normal, trim_eq_self_iff.mpr htrimmed]
  · intro hdash
    exact absurd (hdigits _ hdash) (by decide)
  · intro c hc
    have hbounds := toNat_of_isDigit (hdigits c hc)
    rcases toLower_eq_or c with ⟨h, -⟩ | ⟨-, hupper⟩
    · exact h
    · omega

theorem isShort_iff_of_isDigit : IsShort (String.ofList digits) ↔ 5 ≤ digits.length ∧ digits.length ≤ 6 := by
  rw [IsShort, normalizeShortId_of_isDigit hdigits, String.utf8ByteSize_ofList, utf8Len_of_isDigit hdigits]
  omega

end Digits

/-! ### UUIDs -/

/-- The digits of `Uuid.hyphenated`. -/
def Uuid.digits (uuid : Uuid) : List Char :=
  List.replicate (32 - (Nat.toDigits 16 uuid.value.toNat).length) '0' ++ Nat.toDigits 16 uuid.value.toNat

def Uuid.groups (uuid : Uuid) : List (List Char) :=
  [uuid.digits.take 8, (uuid.digits.drop 8).take 4, (uuid.digits.drop 12).take 4, (uuid.digits.drop 16).take 4,
    (uuid.digits.drop 20).take 12]

theorem Uuid.readDigits_digits (uuid : Uuid) : readDigits 16 uuid.digits = some uuid.value.toNat := by
  rw [Uuid.digits, readDigits_zeros_append _ (by decide)]
  exact readDigits_toDigits (by decide) (by decide) uuid.value.toNat

theorem Uuid.length_digits (uuid : Uuid) : uuid.digits.length = 32 := by
  have hlength : (Nat.toDigits 16 uuid.value.toNat).length ≤ 32 :=
    (Nat.length_toDigits_le_iff (by decide) (by decide)).mpr uuid.value.isLt
  rw [Uuid.digits, List.length_append, List.length_replicate]
  omega

theorem Uuid.toList_toString (uuid : Uuid) : (toString uuid).toList = ['-'].intercalate uuid.groups := by
  change (Uuid.hyphenated uuid).toList = _
  simp [Uuid.hyphenated, Uuid.groups, Uuid.digits]

theorem Uuid.length_groups (uuid : Uuid) : uuid.groups.map List.length = [8, 4, 4, 4, 12] := by
  simp [Uuid.groups, uuid.length_digits]

theorem Uuid.flatten_groups (uuid : Uuid) : uuid.groups.flatten = uuid.digits := by
  have hsplit : ∀ start length, (uuid.digits.drop start).take length ++ uuid.digits.drop (start + length) =
      uuid.digits.drop start := by
    intro start length
    rw [← List.drop_drop, List.take_append_drop]
  have hend : (uuid.digits.drop 20).take 12 = uuid.digits.drop 20 :=
    List.take_of_length_le (by simp [uuid.length_digits])
  simp only [Uuid.groups, List.flatten_cons, List.flatten_nil, List.append_nil, hend]
  rw [hsplit 16 4, hsplit 12 4, hsplit 8 4, List.take_append_drop]

theorem Uuid.digitValue_lt {uuid : Uuid} {c : Char} (hc : c ∈ uuid.digits) : digitValue c < 16 :=
  digitValue_lt_of_readDigits uuid.readDigits_digits c hc

theorem Uuid.dash_notMem {uuid : Uuid} {group : List Char} (h : group ∈ uuid.groups) : '-' ∉ group := by
  intro hdash
  have hmem : '-' ∈ uuid.digits := by
    rw [← uuid.flatten_groups]
    exact List.mem_flatten.mpr ⟨group, h, hdash⟩
  exact absurd (Uuid.digitValue_lt hmem) (by decide)

theorem Uuid.length_toString (uuid : Uuid) : (toString uuid).toList.length = 36 := by
  rw [uuid.toList_toString]
  simp [Uuid.groups, List.intercalate, uuid.length_digits]

theorem Uuid.not_isShort (uuid : Uuid) : ¬IsShort (toString uuid) := by
  intro h
  have hlength := length_le_utf8Len (toString uuid).toList
  rw [uuid.length_toString, String.utf8Len_toList] at hlength
  have hshort := h.1.2
  omega

theorem Uuid.fromStr_id (uuid : Uuid) : Id.fromStr (toString uuid) = (none : Option (Id .user)) := by
  refine Option.eq_none_iff_forall_ne_some.mpr fun userId h => ?_
  have hread := readDigits_of_u64FromStr (Id.fromStr_eq_some_iff.mp h)
  have hdash : '-' ∈ (toString uuid).toList := by
    rw [uuid.toList_toString]
    simp [Uuid.groups, List.intercalate]
  exact absurd (isDigit_of_readDigits hread _ (mem_withoutPlus (by decide) hdash)) (by decide)

/-! ### What survives -/

/-- A decimal number of five or six digits, besides a plus sign and leading zeros. -/
def FiveOrSixDigits (s : String) : Prop :=
  (∀ c ∈ withoutPlus s.toList, c.isDigit = true) ∧
    5 ≤ (significant (withoutPlus s.toList)).length ∧ (significant (withoutPlus s.toList)).length ≤ 6

/-- Removing the dashes of a short id leaves no white space at its ends; another text is no number that is printed
as long as a short id. -/
def Survives (s : String) : Prop :=
  if IsShort s then Trimmed (withoutDashes (trim s.toList)) else ¬FiveOrSixDigits s

section Survives

variable {uuidFromStr : String → Option Uuid} {s : String}

theorem id_survives_iff {id : String} (h : SystemRef.fromStr uuidFromStr s = .ok (.id id)) :
    SystemRef.fromStr uuidFromStr id = .ok (.id id) ↔ Survives s := by
  obtain ⟨hshort, rfl⟩ := fromStr_eq_id_iff.mp h
  rw [fromStr_eq_id_iff, Survives, if_pos hshort, ← normalizeShortId_eq_self_iff]
  constructor
  · exact And.right
  · intro hself
    have hlength := hshort.2
    refine ⟨⟨?_, ?_⟩, hself⟩
    · omega
    · rw [hself]
      exact hlength

theorem fiveOrSixDigits_iff {userId : Id .user} (h : Id.fromStr s = some userId) :
    FiveOrSixDigits s ↔
      5 ≤ (Nat.toDigits 10 userId.get.toNat).length ∧ (Nat.toDigits 10 userId.get.toNat).length ≤ 6 := by
  have hread := readDigits_of_u64FromStr (Id.fromStr_eq_some_iff.mp h)
  have hne : userId.get.toNat ≠ 0 := fun hzero => userId.ne_zero (UInt64.toNat_inj.mp hzero)
  have hdigits := significant_of_readDigits hread
  rw [if_neg hne] at hdigits
  rw [FiveOrSixDigits, hdigits]
  exact and_iff_right (isDigit_of_readDigits hread)

theorem discordId_survives_iff {userId : Id .user}
    (h : SystemRef.fromStr uuidFromStr s = .ok (.discordId userId)) :
    SystemRef.fromStr uuidFromStr (toString userId) = .ok (.discordId userId) ↔ Survives s := by
  obtain ⟨hshort, hs⟩ := fromStr_eq_discordId_iff.mp h
  have htext : toString userId = String.ofList (Nat.toDigits 10 userId.get.toNat) := rfl
  have hdigits : ∀ c ∈ Nat.toDigits 10 userId.get.toNat, c.isDigit = true := fun c hc =>
    Nat.isDigit_of_mem_toDigits (by decide) (by decide) hc
  have hread : Id.fromStr (toString userId) = some userId := userId.fromStr_toString
  rw [fromStr_eq_discordId_iff, and_iff_left hread, htext, isShort_iff_of_isDigit hdigits, Survives, if_neg hshort,
    fiveOrSixDigits_iff hs]

theorem fromStr_of_fiveOrSixDigits (h : FiveOrSixDigits s) : ∃ userId : Id .user, Id.fromStr s = some userId := by
  obtain ⟨hdigits, hfive, hsix⟩ := h
  have hread := readDigits_of_isDigit hdigits
  have hsignificant := significant_of_readDigits hread
  split at hsignificant
  next =>
    rw [hsignificant] at hfive
    simp at hfive
  next hne =>
    rw [hsignificant, Nat.length_toDigits_le_iff (by decide) (by decide)] at hsix
    have hnil : withoutPlus s.toList ≠ [] := by
      intro hnil
      rw [hnil] at hfive
      simp [significant] at hfive
    obtain ⟨value, hvalue⟩ : ∃ value : UInt64, value.toNat = Nat.ofDigitChars 10 (withoutPlus s.toList) 0 :=
      ⟨UInt64.ofNat _, UInt64.toNat_ofNat_of_lt' (Nat.lt_trans hsix (by decide))⟩
    have hzero : value ≠ 0 := by
      rintro rfl
      exact hne hvalue.symm
    refine ⟨⟨value, hzero⟩, Id.fromStr_eq_some_iff.mpr ?_⟩
    rw [u64FromStr, if_neg hnil, readUInt64_eq_some_iff, hread, hvalue]

theorem uuid_survives {uuid : Uuid} (hhyphenated : uuidFromStr (toString uuid) = some uuid)
    (h : SystemRef.fromStr uuidFromStr s = .ok (.uuid uuid)) :
    SystemRef.fromStr uuidFromStr (toString uuid) = .ok (.uuid uuid) ∧ Survives s := by
  obtain ⟨hshort, hs, -⟩ := fromStr_eq_uuid_iff.mp h
  constructor
  · exact fromStr_eq_uuid_iff.mpr ⟨uuid.not_isShort, uuid.fromStr_id, hhyphenated⟩
  · rw [Survives, if_neg hshort]
    intro hnumber
    obtain ⟨userId, huserId⟩ := fromStr_of_fiveOrSixDigits hnumber
    rw [hs] at huserId
    cases huserId

theorem survives_printing_iff (hhyphenated : ∀ uuid : Uuid, uuidFromStr (toString uuid) = some uuid)
    {systemRef : SystemRef} (h : SystemRef.fromStr uuidFromStr s = .ok systemRef) :
    toString systemRef = systemRef.text ∧
      (SystemRef.fromStr uuidFromStr (toString systemRef) = .ok systemRef ↔ Survives s) := by
  refine ⟨toString_systemRef systemRef, ?_⟩
  rw [toString_systemRef]
  cases systemRef with
  | id id => exact id_survives_iff h
  | discordId userId => exact discordId_survives_iff h
  | uuid uuid =>
    have hboth := uuid_survives (hhyphenated uuid) h
    exact iff_of_true hboth.1 hboth.2

end Survives

/-! ### The documented forms of a UUID -/

/-- 32 digits, capital or not. -/
def Uuid.ofDigits (digits : List Char) : Option Uuid :=
  if digits.length = 32 then (readDigits 16 digits).map fun n => ⟨BitVec.ofNat 128 n⟩ else none

def Uuid.ofGroups (text : List Char) : Option Uuid :=
  let groups := text.splitOn '-'
  if groups.map List.length = [8, 4, 4, 4, 12] then Uuid.ofDigits groups.flatten else none

/-- The simple, hyphenated, braced and URN forms. -/
def Uuid.fromStr (s : String) : Option Uuid :=
  match s.toList with
  | '{' :: text => if text.getLast? = some '}' then Uuid.ofGroups text.dropLast else none
  | 'u' :: 'r' :: 'n' :: ':' :: 'u' :: 'u' :: 'i' :: 'd' :: ':' :: text => Uuid.ofGroups text
  | text => (Uuid.ofDigits text).or (Uuid.ofGroups text)

theorem Uuid.ofDigits_digits (uuid : Uuid) : Uuid.ofDigits uuid.digits = some uuid := by
  rw [Uuid.ofDigits, if_pos uuid.length_digits, uuid.readDigits_digits]
  simp

theorem Uuid.ofGroups_toString (uuid : Uuid) : Uuid.ofGroups (toString uuid).toList = some uuid := by
  have hsplit : (toString uuid).toList.splitOn '-' = uuid.groups := by
    rw [uuid.toList_toString]
    exact List.splitOn_intercalate '-' (fun _ => Uuid.dash_notMem) (by simp [Uuid.groups])
  rw [Uuid.ofGroups, hsplit, if_pos uuid.length_groups, uuid.flatten_groups, uuid.ofDigits_digits]

theorem Uuid.digitValue_head_lt {uuid : Uuid} {c : Char} {rest : List Char}
    (h : (toString uuid).toList = c :: rest) : digitValue c < 16 := by
  obtain ⟨d, digits, hdigits⟩ := List.exists_cons_of_length_eq_add_one uuid.length_digits
  have hhead : (toString uuid).toList.head? = some d := by
    rw [uuid.toList_toString, Uuid.groups, hdigits]
    rfl
  rw [h] at hhead
  obtain rfl : c = d := Option.some.inj hhead
  apply Uuid.digitValue_lt
  rw [hdigits]
  exact List.mem_cons_self

theorem Uuid.fromStr_toString (uuid : Uuid) : Uuid.fromStr (toString uuid) = some uuid := by
  unfold Uuid.fromStr
  split
  next heq => exact absurd (Uuid.digitValue_head_lt heq) (by decide)
  next heq => exact absurd (Uuid.digitValue_head_lt heq) (by decide)
  next =>
    rw [Uuid.ofDigits, if_neg, uuid.ofGroups_toString]
    · rfl
    · rw [uuid.length_toString]
      decide

/-! ### Texts that change -/

theorem survives_printing_example : toString (SystemRef.id "exmpl") = (SystemRef.id "exmpl").text ∧
    (SystemRef.fromStr Uuid.fromStr (toString (SystemRef.id "exmpl")) = .ok (.id "exmpl") ↔ Survives " EX-mpl") :=
  survives_printing_iff Uuid.fromStr_toString (fromStr_eq_id_iff.mpr (by decide))

/-- A padded number is read as an id that is printed like a short id. -/
theorem padded_number_changes : ¬∀ (s : String) (systemRef : SystemRef),
    SystemRef.fromStr Uuid.fromStr s = .ok systemRef →
      SystemRef.fromStr Uuid.fromStr (toString systemRef) = .ok systemRef := by
  intro h
  have hread : SystemRef.fromStr Uuid.fromStr "00012345" = .ok (.discordId ⟨12345, by decide⟩) :=
    fromStr_eq_discordId_iff.mpr (by decide)
  have hshort := (fromStr_eq_discordId_iff.mp (h _ _ hread)).1
  exact hshort (by decide)

/-- Without its dash this text begins with a space. -/
example : SystemRef.fromStr Uuid.fromStr "- abcde" = .ok (.id " abcde") ∧
    SystemRef.fromStr Uuid.fromStr " abcde" = .ok (.id "abcde") :=
  ⟨fromStr_eq_id_iff.mpr (by decide), fromStr_eq_id_iff.mpr (by decide)⟩

end Tulpje.Pluralkit
