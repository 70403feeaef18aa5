import Tulpje.Lib.Radix

/-!
# Colours

`tulpje-framework/src/color.rs`. The text of a colour is read back (`fromStr_toString`); `from_rgb` builds another
colour than the one of the six digits of its bytes, unless red and green are equal and there is no blue.
-/

namespace Tulpje.Framework

open Lib (readDigits writeUpper)

structure Color where
  value : UInt32
  deriving DecidableEq

namespace Color

/-- `char::to_digit(16)`. -/
def hexDigit (c : Char) : Option Nat :=
  if '0' ≤ c ∧ c ≤ '9' then some (c.toNat - '0'.toNat)
  else if 'a' ≤ c ∧ c ≤ 'f' then some (c.toNat - 'a'.toNat + 10)
  else if 'A' ≤ c ∧ c ≤ 'F' then some (c.toNat - 'A'.toNat + 10)
  else none

/-- One digit of a number that has to fit into 32 bits. -/
def addDigit (value : Nat) (c : Char) : Option Nat := do
  let next := value * 16 + (← hexDigit c)
  if next < UInt32.size then some next else none

/-- `u32::from_str_radix(.., 16)`: a plus sign may stand before the digits. -/
def fromStrRadix (text : List Char) : Option UInt32 :=
  let digits := match text with
    | '+' :: digits => digits
    | _ => text
  if digits.isEmpty then none else (digits.foldlM addDigit 0).map UInt32.ofNat

def fromStr (text : String) : Option Color :=
  (fromStrRadix (text.toList.dropWhile (· == '#'))).map Color.mk

/-- `u32::from_le_bytes`: the first byte is the lowest one. -/
def u32FromLeBytes (bytes : List UInt8) : UInt32 :=
  UInt32.ofNat (bytes.foldr (fun byte value => byte.toNat + 256 * value) 0)

def fromRgb (r g b : UInt8) : Color := ⟨u32FromLeBytes [0, r, g, b]⟩

/-- `Display`: `#{:06X}`. -/
instance : ToString Color where
  toString color := String.ofList ('#' :: writeUpper 16 6 color.value.toNat)

end Color

/-- `color::roles::DEFAULT`. -/
def Color.default : Color := ⟨0x99AAB5⟩

/-! The colours of responses in `color::roles`. -/

def Color.green : Color := ⟨0x2ECC71⟩
def Color.blue : Color := ⟨0x3498DB⟩
def Color.orange : Color := ⟨0xE67E22⟩
def Color.red : Color := ⟨0xE74C3C⟩

example : Color.fromStr "#EEEEEE" = some ⟨15658734⟩ := by decide

namespace Color

variable {c : Char} {digits : List Char} {n : Nat}

/-! ### Reading -/

theorem hexDigit_eq (c : Char) :
    hexDigit c = if Lib.digitValue c < 16 then some (Lib.digitValue c) else none := by
  have hlow {b : Char} (hb : c ≤ b) : c.toNat ≤ b.toNat := UInt32.le_iff_toNat_le.mp (Char.le_def.mp hb)
  unfold hexDigit Lib.digitValue
  split
  next h =>
    have hle : c.toNat ≤ 57 := hlow h.2
    have hlt : c.toNat - '0'.toNat < 16 := by
      simp only [Char.reduceToNat]
      omega
    rw [if_pos hlt]
  next =>
    split
    next h =>
      have hle : c.toNat ≤ 102 := hlow h.2
      have hlt : c.toNat - 'a'.toNat + 10 < 16 := by
        simp only [Char.reduceToNat]
        omega
      rw [if_pos hlt]
    next =>
      split
      next h =>
        have hle : c.toNat ≤ 70 := hlow h.2
        have hlt : c.toNat - 'A'.toNat + 10 < 16 := by
          simp only [Char.reduceToNat]
          omega
        rw [if_pos hlt]
      next => rfl

theorem addDigit_eq (value : Nat) (c : Char) :
    addDigit value c = (Lib.addDigit 16 value c).filter (· < UInt32.size) := by
  rw [addDigit, hexDigit_eq, Lib.addDigit, Nat.mul_comm]
  split <;> simp [Option.filter]

/-- Digits whose number fits are read as that number: no prefix of them has a larger one. -/
theorem foldlM_addDigit (h : readDigits 16 digits = some n) (hn : n < UInt32.size) :
    digits.foldlM addDigit 0 = some n := by
  induction digits using List.reverseRecOn generalizing n with
  | nil => exact h
  | append_singleton digits c ih =>
    rw [Lib.readDigits_concat] at h
    obtain ⟨value, hvalue, hc⟩ := Option.bind_eq_some_iff.mp h
    have hle : value ≤ n := by
      unfold Lib.addDigit at hc
      split at hc
      · have := Option.some.inj hc
        omega
      · cases hc
    have hprefix := ih hvalue (by omega)
    rw [List.foldlM_append, hprefix]
    simpa [addDigit_eq, hc] using hn

theorem fromStr_hash (hne : digits ≠ []) (h : readDigits 16 digits = some n) (hn : n < UInt32.size) :
    fromStr (String.ofList ('#' :: digits)) = some ⟨UInt32.ofNat n⟩ := by
  obtain ⟨c, rest, rfl⟩ := List.exists_cons_of_ne_nil hne
  have hdigit : Lib.digitValue c < 16 := Lib.digitValue_lt_of_readDigits h c (by simp)
  have hhash : c ≠ '#' := by
    rintro rfl
    exact absurd hdigit (by decide)
  have hplus : c ≠ '+' := by
    rintro rfl
    exact absurd hdigit (by decide)
  have htrim : ('#' :: c :: rest).dropWhile (· == '#') = c :: rest := by simp [hhash]
  have hradix : fromStrRadix (c :: rest) = some (UInt32.ofNat n) := by
    unfold fromStrRadix
    split
    next heq => exact absurd (List.cons.inj heq).1 hplus
    next => simp [foldlM_addDigit h hn]
  rw [fromStr, String.toList_ofList, htrim, hradix, Option.map_some]

theorem writeUpper_ne_nil (width n : Nat) : writeUpper 16 width n ≠ [] := by
  simp [writeUpper, List.leftpad, Nat.toDigits_ne_nil]

/-- A colour is read back from its text, also when it has more than six digits. -/
theorem fromStr_toString (color : Color) : fromStr (toString color) = some color := by
  have hread := Lib.readDigits_writeUpper (by decide : 1 < 16) (Nat.le_refl 16) 6 color.value.toNat
  have hcolor := fromStr_hash (writeUpper_ne_nil _ _) hread color.value.toNat_lt
  rwa [UInt32.ofNat_toNat] at hcolor

/-! ### Three bytes -/

/-- `#RRGGBB`. -/
def rgbText (r g b : UInt8) : String :=
  String.ofList ('#' :: (writeUpper 16 2 r.toNat ++ writeUpper 16 2 g.toNat ++ writeUpper 16 2 b.toNat))

/-- The colour `#RRGGBB` stands for. -/
def ofRgb (r g b : UInt8) : Color := ⟨UInt32.ofNat (65536 * r.toNat + 256 * g.toNat + b.toNat)⟩

variable (r g b : UInt8)

theorem toNat_fromRgb : (fromRgb r g b).value.toNat = 256 * r.toNat + 65536 * g.toNat + 16777216 * b.toNat := by
  have hr := r.toNat_lt
  have hg := g.toNat_lt
  have hb := b.toNat_lt
  simp only [fromRgb, u32FromLeBytes, List.foldr, UInt8.toNat_zero, UInt32.toNat_ofNat']
  omega

theorem toNat_ofRgb : (ofRgb r g b).value.toNat = 65536 * r.toNat + 256 * g.toNat + b.toNat := by
  have hr := r.toNat_lt
  have hg := g.toNat_lt
  have hb := b.toNat_lt
  simp only [ofRgb, UInt32.toNat_ofNat']
  omega

theorem toString_ofRgb : toString (ofRgb r g b) = rgbText r g b := by
  have hg : writeUpper 16 4 (256 * r.toNat + g.toNat) = writeUpper 16 2 r.toNat ++ writeUpper 16 2 g.toNat :=
    Lib.writeUpper_add (by decide) (by decide) 1 g.toNat_lt r.toNat
  have hb : writeUpper 16 6 (256 * (256 * r.toNat + g.toNat) + b.toNat) =
      writeUpper 16 4 (256 * r.toNat + g.toNat) ++ writeUpper 16 2 b.toNat :=
    Lib.writeUpper_add (by decide) (by decide) 1 b.toNat_lt _
  have hsum : (ofRgb r g b).value.toNat = 256 * (256 * r.toNat + g.toNat) + b.toNat := by
    rw [toNat_ofRgb]
    omega
  change String.ofList ('#' :: writeUpper 16 6 (ofRgb r g b).value.toNat) = _
  rw [hsum, hb, hg]
  rfl

theorem fromStr_rgbText : fromStr (rgbText r g b) = some (ofRgb r g b) := by
  rw [← toString_ofRgb, fromStr_toString]

/-- The bytes go one place too far up, red and green in each other's. -/
theorem fromRgb_eq_ofRgb_iff : fromRgb r g b = ofRgb r g b ↔ r = g ∧ b = 0 := by
  have hr := r.toNat_lt
  have hg := g.toNat_lt
  have hb := b.toNat_lt
  have hvalue : fromRgb r g b = ofRgb r g b ↔ (fromRgb r g b).value.toNat = (ofRgb r g b).value.toNat := by
    rw [UInt32.toNat_inj, Color.mk.injEq]
  rw [hvalue, toNat_fromRgb, toNat_ofRgb, ← UInt8.toNat_inj, ← UInt8.toNat_inj, UInt8.toNat_zero]
  omega

/-- Every colour is read back from its text; `from_rgb` has the text of its three bytes, and is what that text is
read as, exactly for equal red and green without blue. -/
theorem color_text_round_trip (color : Color) (r g b : UInt8) :
    fromStr (toString color) = some color ∧
    (toString (fromRgb r g b) = rgbText r g b ↔ r = g ∧ b = 0) ∧
    (fromStr (rgbText r g b) = some (fromRgb r g b) ↔ r = g ∧ b = 0) := by
  refine ⟨fromStr_toString color, ?_, ?_⟩
  · rw [← fromRgb_eq_ofRgb_iff]
    constructor
    · intro htext
      have hread := fromStr_toString (fromRgb r g b)
      rw [htext, fromStr_rgbText] at hread
      exact (Option.some.inj hread).symm
    · intro heq
      rw [heq, toString_ofRgb]
  · rw [fromStr_rgbText, Option.some.injEq, ← fromRgb_eq_ofRgb_iff]
    exact eq_comm

/-- The bytes 1, 2 and 3. -/
theorem fromRgb_text_differs :
    toString (fromRgb 1 2 3) = "#3020100" ∧ rgbText 1 2 3 = "#010203" ∧
    fromStr (rgbText 1 2 3) ≠ some (fromRgb 1 2 3) := by
  refine ⟨by decide, by decide, ?_⟩
  rw [fromStr_rgbText]
  decide

end Color

end Tulpje.Framework
