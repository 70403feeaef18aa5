import Mathlib.Data.List.TakeWhile
import Mathlib.Data.UInt
import Mathlib.Tactic.Ring

/-!
# Numbers as text

Reading the digits of a number in a radix up to 16, and a `u64` or `u16` in decimal. What `Nat.toDigits` wrote is read
back (`readDigits_toDigits`); what was read is written without its leading zeros (`significant_of_readDigits`).
-/

namespace Tulpje.Lib

/-- The value of a digit; 16 if the character is none. -/
def digitValue (c : Char) : Nat :=
  if '0' ≤ c ∧ c ≤ '9' then c.toNat - '0'.toNat
  else if 'a' ≤ c ∧ c ≤ 'f' then c.toNat - 'a'.toNat + 10
  else if 'A' ≤ c ∧ c ≤ 'F' then c.toNat - 'A'.toNat + 10
  else 16

def addDigit (radix value : Nat) (c : Char) : Option Nat :=
  if digitValue c < radix then some (radix * value + digitValue c) else none

def readDigits (radix : Nat) (digits : List Char) : Option Nat := digits.foldlM (addDigit radix) 0

/-- The digits after the leading zeros. -/
def significant (digits : List Char) : List Char := digits.dropWhile (· == '0')

/-! ### One digit -/

theorem digitValue_digitChar {d : Nat} (hd : d < 16) : digitValue d.digitChar = d := by
  have hall : ∀ d < 16, digitValue (Nat.digitChar d) = d := by decide
  exact hall d hd

theorem isDigit_of_digitValue {c : Char} (h : digitValue c < 10) : c.isDigit = true := by
  unfold digitValue at h
  split at h
  next hc => simpa [Char.isDigit, Char.le_def] using hc
  next =>
    split at h
    · omega
    · split at h <;> omega

theorem toNat_of_isDigit {c : Char} (h : c.isDigit = true) : 48 ≤ c.toNat ∧ c.toNat ≤ 57 := by
  simpa [Char.isDigit, UInt32.le_iff_toNat_le] using h

theorem digitValue_of_isDigit {c : Char} (h : c.isDigit = true) : digitValue c = c.toNat - 48 := by
  have hc : '0' ≤ c ∧ c ≤ '9' := by simpa [Char.isDigit, Char.le_def] using h
  rw [digitValue, if_pos hc]
  rfl

theorem digitChar_digitValue {c : Char} (h : digitValue c < 10) : (digitValue c).digitChar = c := by
  have hdigit := isDigit_of_digitValue h
  have hc := toNat_of_isDigit hdigit
  rw [digitValue_of_isDigit hdigit]
  apply Char.toNat_inj.mp
  rw [Nat.toNat_digitChar_of_lt_ten (by omega)]
  omega

/-! ### Digits -/

variable {radix n : Nat}

theorem addDigit_digitChar (value : Nat) {d : Nat} (hd : d < radix) (hradix : radix ≤ 16) :
    addDigit radix value d.digitChar = some (radix * value + d) := by
  rw [addDigit, digitValue_digitChar (by omega), if_pos hd]

theorem readDigits_concat (digits : List Char) (c : Char) :
    readDigits radix (digits ++ [c]) = (readDigits radix digits).bind fun value => addDigit radix value c := by
  simp [readDigits, List.foldlM_append]

theorem readDigits_toDigits (hone : 1 < radix) (hradix : radix ≤ 16) (n : Nat) :
    readDigits radix (Nat.toDigits radix n) = some n := by
  induction n using Nat.base_induction radix hone with
  | single d hd =>
    rw [Nat.toDigits_of_lt_base hd, ← List.nil_append [_], readDigits_concat]
    simpa [readDigits] using addDigit_digitChar 0 hd hradix
  | digit value d hd hvalue ih =>
    rw [← Nat.toDigits_append_toDigits hone hvalue hd, Nat.toDigits_of_lt_base hd, readDigits_concat, ih]
    exact addDigit_digitChar value hd hradix

theorem readDigits_zeros_append (zeros : Nat) (hradix : 0 < radix) (digits : List Char) :
    readDigits radix (List.replicate zeros '0' ++ digits) = readDigits radix digits := by
  have hzero : addDigit radix 0 '0' = some 0 := by simp [addDigit, digitValue, hradix]
  induction zeros with
  | zero => rfl
  | succ zeros ih =>
    rw [← ih, List.replicate_succ, List.cons_append, readDigits, List.foldlM_cons, hzero]
    rfl

theorem digitValue_lt_of_readDigits {digits : List Char} (h : readDigits radix digits = some n) :
    ∀ c ∈ digits, digitValue c < radix := by
  induction digits using List.reverseRecOn generalizing n with
  | nil => simp
  | append_singleton digits c ih =>
    rw [readDigits_concat] at h
    obtain ⟨value, hvalue, hc⟩ := Option.bind_eq_some_iff.mp h
    unfold addDigit at hc
    split at hc
    next hdigit =>
      intro d hd
      rcases List.mem_append.mp hd with hd | hd
      · exact ih hvalue d hd
      · rw [List.mem_singleton.mp hd]
        exact hdigit
    next => cases hc

theorem isDigit_of_readDigits {digits : List Char} (h : readDigits 10 digits = some n) :
    ∀ c ∈ digits, c.isDigit = true := fun c hc =>
  isDigit_of_digitValue (digitValue_lt_of_readDigits h c hc)

theorem readDigits_of_isDigit {digits : List Char} (h : ∀ c ∈ digits, c.isDigit = true) :
    readDigits 10 digits = some (Nat.ofDigitChars 10 digits 0) := by
  induction digits using List.reverseRecOn with
  | nil => rfl
  | append_singleton digits c ih =>
    have hc : c.isDigit = true := h c (by simp)
    have hbounds := toNat_of_isDigit hc
    have hvalue : digitValue c < 10 := by
      rw [digitValue_of_isDigit hc]
      omega
    rw [readDigits_concat, ih fun d hd => h d (List.mem_append_left _ hd), Option.bind_some, addDigit,
      if_pos hvalue, Nat.ofDigitChars_append, Nat.ofDigitChars_cons, Nat.ofDigitChars_nil,
      digitValue_of_isDigit hc]
    rfl

/-- A number that is read is written as its digits after the leading zeros. -/
theorem significant_of_readDigits {digits : List Char} (h : readDigits 10 digits = some n) :
    significant digits = if n = 0 then [] else Nat.toDigits 10 n := by
  induction digits using List.reverseRecOn generalizing n with
  | nil =>
    cases h
    rfl
  | append_singleton digits c ih =>
    rw [readDigits_concat] at h
    obtain ⟨value, hvalue, hc⟩ := Option.bind_eq_some_iff.mp h
    unfold addDigit at hc
    split at hc
    next hdigit =>
      obtain rfl : 10 * value + digitValue c = n := Option.some.inj hc
      have hchar : Nat.toDigits 10 (digitValue c) = [c] := by
        rw [Nat.toDigits_of_lt_base hdigit, digitChar_digitValue hdigit]
      have hih := ih hvalue
      unfold significant at hih ⊢
      rw [List.dropWhile_append, hih]
      by_cases hzero : value = 0
      · by_cases hnil : digitValue c = 0
        · have hc0 : c = '0' := by
            rw [← digitChar_digitValue hdigit, hnil]
            rfl
          simp [hzero, hc0, digitValue]
        · have hc0 : c ≠ '0' := by
            rintro rfl
            exact hnil rfl
          simp [hzero, hc0, hnil, hchar]
      · have hdigits := Nat.toDigits_append_toDigits (by decide) (by omega : 0 < value) hdigit
        rw [if_neg (by omega : ¬10 * value + digitValue c = 0), ← hdigits, hchar]
        simp [hzero]
    next => cases hc

/-! ### A `u64` and a `u16` -/

/-- A number may have a plus sign. -/
def withoutPlus : List Char → List Char
  | '+' :: digits => digits
  | digits => digits

theorem mem_withoutPlus {c : Char} {text : List Char} (hc : c ≠ '+') (h : c ∈ text) : c ∈ withoutPlus text := by
  unfold withoutPlus
  split
  next => exact (List.mem_cons.mp h).resolve_left hc
  next => exact h

def readUInt64 (digits : List Char) : Option UInt64 := do
  let n ← readDigits 10 digits
  if n < UInt64.size then some (UInt64.ofNat n) else none

/-- `u64::from_str`. -/
def u64FromStr (text : List Char) : Option UInt64 :=
  if withoutPlus text = [] then none else readUInt64 (withoutPlus text)

/-- `u16::from_str`. -/
def u16FromStr (text : List Char) : Option UInt16 :=
  if withoutPlus text = [] then none
  else do
    let n ← readDigits 10 (withoutPlus text)
    if n < UInt16.size then some (UInt16.ofNat n) else none

theorem readUInt64_eq_some_iff {digits : List Char} {n : UInt64} :
    readUInt64 digits = some n ↔ readDigits 10 digits = some n.toNat := by
  unfold readUInt64
  cases readDigits 10 digits with
  | none => simp
  | some value =>
    by_cases hvalue : value < UInt64.size
    · simp only [Option.bind_eq_bind, Option.bind_some, if_pos hvalue, Option.some.injEq]
      constructor
      · rintro rfl
        simp [UInt64.toNat_ofNat_of_lt' hvalue]
      · rintro rfl
        simp
    · simp only [Option.bind_eq_bind, Option.bind_some, if_neg hvalue, Option.some.injEq, reduceCtorEq, false_iff]
      rintro rfl
      exact hvalue n.toNat_lt

theorem withoutPlus_of_ne {text : List Char} (hplus : text.head? ≠ some '+') : withoutPlus text = text := by
  unfold withoutPlus
  split
  next => simp at hplus
  next => rfl

theorem u64FromStr_of_ne {text : List Char} (hplus : text.head? ≠ some '+') (hne : text ≠ []) :
    u64FromStr text = readUInt64 text := by
  rw [u64FromStr, withoutPlus_of_ne hplus, if_neg hne]

theorem head?_toDigits_ne (n : ℕ) : (Nat.toDigits 10 n).head? ≠ some '+' := by
  intro h
  have hdigit := Nat.isDigit_of_mem_toDigits (by decide) (by decide) (List.mem_of_mem_head? h)
  simp at hdigit

theorem u64FromStr_toDigits (n : UInt64) : u64FromStr (Nat.toDigits 10 n.toNat) = some n := by
  rw [u64FromStr_of_ne (head?_toDigits_ne n.toNat) Nat.toDigits_ne_nil, readUInt64_eq_some_iff]
  exact readDigits_toDigits (by decide) (by decide) n.toNat

theorem u16FromStr_toDigits (n : UInt16) : u16FromStr (Nat.toDigits 10 n.toNat) = some n := by
  rw [u16FromStr, withoutPlus_of_ne (head?_toDigits_ne n.toNat), if_neg Nat.toDigits_ne_nil,
    readDigits_toDigits (by decide) (by decide)]
  simp [n.toNat_lt]

theorem readDigits_of_u64FromStr {text : List Char} {n : UInt64} (h : u64FromStr text = some n) :
    readDigits 10 (withoutPlus text) = some n.toNat := by
  unfold u64FromStr at h
  split at h
  · cases h
  · exact readUInt64_eq_some_iff.mp h

/-! ### Digits of a fixed width -/

/-- `n` in upper-case digits, with zeros in front up to a width. -/
def writeUpper (radix width n : Nat) : List Char :=
  List.leftpad width '0' ((Nat.toDigits radix n).map Char.toUpper)

theorem digitValue_toUpper_digitChar {d : Nat} (hd : d < 16) : digitValue d.digitChar.toUpper = d := by
  have hall : ∀ d < 16, digitValue (Nat.digitChar d).toUpper = d := by decide
  exact hall d hd

theorem map_toUpper_toDigits_mul_add (hone : 1 < radix) {d : Nat} (hd : d < radix) (hn : 0 < n) :
    (Nat.toDigits radix (radix * n + d)).map Char.toUpper =
      (Nat.toDigits radix n).map Char.toUpper ++ [d.digitChar.toUpper] := by
  rw [← Nat.toDigits_append_toDigits hone hn hd, Nat.toDigits_of_lt_base hd, List.map_append]
  rfl

theorem readDigits_writeUpper (hone : 1 < radix) (hradix : radix ≤ 16) (width n : Nat) :
    readDigits radix (writeUpper radix width n) = some n := by
  have hdigit : ∀ value d, d < radix → addDigit radix value d.digitChar.toUpper = some (radix * value + d) := by
    intro value d hd
    rw [addDigit, digitValue_toUpper_digitChar (by omega), if_pos hd]
  rw [writeUpper, List.leftpad, readDigits_zeros_append _ (by omega)]
  induction n using Nat.base_induction radix hone with
  | single d hd =>
    rw [Nat.toDigits_of_lt_base hd]
    simpa [readDigits] using hdigit 0 d hd
  | digit value d hd hvalue ih =>
    rw [map_toUpper_toDigits_mul_add hone hd hvalue, readDigits_concat, ih]
    exact hdigit value d hd

/-- The last digit stands apart. -/
theorem writeUpper_succ (hone : 1 < radix) {d width : Nat} (hd : d < radix) (hwidth : 0 < width) (n : Nat) :
    writeUpper radix (width + 1) (radix * n + d) = writeUpper radix width n ++ [d.digitChar.toUpper] := by
  unfold writeUpper List.leftpad
  rcases Nat.eq_zero_or_pos n with rfl | hn
  · obtain ⟨width, rfl⟩ := Nat.exists_eq_add_of_lt hwidth
    rw [Nat.mul_zero, Nat.zero_add d, Nat.toDigits_of_lt_base hd, Nat.toDigits_of_lt_base (by omega)]
    simp [List.replicate_succ', Nat.digitChar]
  · rw [map_toUpper_toDigits_mul_add hone hd hn]
    simp

/-- A number below a power of the radix is written in that many digits, after those of what is above it. -/
theorem writeUpper_add (hone : 1 < radix) {width low : Nat} (hwidth : 0 < width) (count : Nat)
    (hlow : low < radix ^ (count + 1)) (n : Nat) :
    writeUpper radix (width + (count + 1)) (radix ^ (count + 1) * n + low) =
      writeUpper radix width n ++ writeUpper radix (count + 1) low := by
  induction count generalizing low with
  | zero =>
    rw [Nat.zero_add, pow_one] at hlow ⊢
    have hlast : writeUpper radix 1 low = [low.digitChar.toUpper] := by
      rw [writeUpper, Nat.toDigits_of_lt_base hlow]
      rfl
    rw [hlast, writeUpper_succ hone hlow hwidth]
  | succ count ih =>
    obtain ⟨high, d, hd, rfl⟩ : ∃ high d, d < radix ∧ low = radix * high + d :=
      ⟨low / radix, low % radix, Nat.mod_lt _ (by omega), (Nat.div_add_mod low radix).symm⟩
    have hhigh : high < radix ^ (count + 1) := by
      apply Nat.lt_of_mul_lt_mul_left
      calc radix * high ≤ radix * high + d := Nat.le_add_right ..
        _ < radix * radix ^ (count + 1) := by rwa [← Nat.pow_succ']
    have hsplit : radix ^ (count + 1 + 1) * n + (radix * high + d) =
        radix * (radix ^ (count + 1) * n + high) + d := by
      rw [Nat.pow_succ']
      ring
    rw [hsplit, ← Nat.add_assoc, writeUpper_succ hone hd (by omega), writeUpper_succ hone hd (by omega), ih hhigh,
      List.append_assoc]

end Tulpje.Lib
