import Tulpje.Lib.Radix
import Tulpje.Twilight.Model

/-!
# Ids as text

An id is written as its number and read as a `u64` that is not zero.
-/

namespace Tulpje.Twilight

open Lib

/-- `Id::from_str`, which is `NonZeroU64::from_str`. -/
def Id.fromStr {m : Marker} (s : String) : Option (Id m) := do
  let value ← u64FromStr s.toList
  if h : value ≠ 0 then some ⟨value, h⟩ else none

variable {m : Marker} {s : String} {id : Id m}

theorem Id.fromStr_eq_some_iff : Id.fromStr s = some id ↔ u64FromStr s.toList = some id.get := by
  unfold Id.fromStr
  cases u64FromStr s.toList with
  | none => simp
  | some value =>
    by_cases hvalue : value ≠ 0
    · simp only [Option.bind_eq_bind, Option.bind_some, dif_pos hvalue, Option.some.injEq]
      constructor
      · rintro rfl
        rfl
      · intro h
        exact Id.get_injective m h
    · simp only [Option.bind_eq_bind, Option.bind_some, dif_neg hvalue, Option.some.injEq, reduceCtorEq,
        false_iff]
      rintro rfl
      exact hvalue id.ne_zero

theorem toList_toString_uInt64 (n : UInt64) : (toString n).toList = Nat.toDigits 10 n.toNat :=
  Nat.toList_repr

@[simp] theorem Id.fromStr_toString (id : Id m) : Id.fromStr (toString id.get) = some id := by
  rw [Id.fromStr_eq_some_iff, toList_toString_uInt64]
  exact u64FromStr_toDigits id.get

/-- Digits are read as an id if their number is one. -/
theorem Id.fromStr_ofList_eq_some_iff {digits : List Char} (hne : digits ≠ []) (h : ∀ c ∈ digits, c.isDigit = true) :
    Id.fromStr (String.ofList digits) = some id ↔ Nat.ofDigitChars 10 digits 0 = id.get.toNat := by
  have hplus : digits.head? ≠ some '+' := fun hhead =>
    absurd (h '+' (List.mem_of_mem_head? hhead)) (by decide)
  rw [Id.fromStr_eq_some_iff, String.toList_ofList, u64FromStr_of_ne hplus hne, readUInt64_eq_some_iff,
    readDigits_of_isDigit h, Option.some.injEq]

end Tulpje.Twilight
