import Mathlib.Data.Nat.Notation
import Mathlib.Order.Basic

/-!
# Byte strings and the strings they encode

Decoding is injective on valid UTF-8, and a string of ASCII characters has one byte for
each of them.
-/

namespace Pyroscope.Lib.Utf8

def IsValid (bytes : List UInt8) : Prop := (ByteArray.mk bytes.toArray).IsValidUTF8

instance (bytes : List UInt8) : Decidable (IsValid bytes) :=
  inferInstanceAs (Decidable (ByteArray.IsValidUTF8 _))

def IsAscii (bytes : List UInt8) : Prop := ∀ b ∈ bytes, b.toNat < 128

theorem fromUTF8?_valid {bytes : List UInt8} (h : IsValid bytes) :
    String.fromUTF8? ⟨bytes.toArray⟩ = some (String.fromUTF8 ⟨bytes.toArray⟩ h) := dif_pos h

theorem fromUTF8?_invalid {bytes : List UInt8} (h : ¬IsValid bytes) : String.fromUTF8? ⟨bytes.toArray⟩ = none :=
  dif_neg h

/- The string has the bytes it was made of. -/
theorem fromUTF8_inj {bytes bytes' : List UInt8} (h : IsValid bytes) (h' : IsValid bytes')
    (he : String.fromUTF8 ⟨bytes.toArray⟩ h = String.fromUTF8 ⟨bytes'.toArray⟩ h') : bytes = bytes' := by
  have hbytes : (ByteArray.mk bytes.toArray) = ⟨bytes'.toArray⟩ := congrArg String.toByteArray he
  rw [ByteArray.mk.injEq] at hbytes
  exact List.toArray_inj hbytes

theorem fromUTF8_ne_empty {bytes : List UInt8} (h : IsValid bytes) (hne : bytes ≠ []) :
    String.fromUTF8 ⟨bytes.toArray⟩ h ≠ "" := fun he => by
  have hbytes : (ByteArray.mk bytes.toArray) = ⟨[].toArray⟩ := congrArg String.toByteArray he
  rw [ByteArray.mk.injEq] at hbytes
  exact hne (List.toArray_inj hbytes)

/-! ### ASCII -/

theorem utf8EncodeChar_ascii {b : UInt8} (h : b.toNat < 128) : String.utf8EncodeChar (Char.ofNat b.toNat) = [b] := by
  have hvalid : b.toNat.isValidChar := .inl (by omega)
  have hval : (Char.ofNat b.toNat).val.toNat = b.toNat := by
    rw [Char.ofNat, dif_pos hvalid]
    rfl
  rw [String.utf8EncodeChar]
  simp only [hval]
  rw [if_pos (by omega)]
  simp

theorem utf8Encode_ascii {bytes : List UInt8} (h : IsAscii bytes) :
    (bytes.map fun b => Char.ofNat b.toNat).utf8Encode = ⟨bytes.toArray⟩ := by
  have hflat : (bytes.map fun b => Char.ofNat b.toNat).flatMap String.utf8EncodeChar = bytes := by
    induction bytes with
    | nil => rfl
    | cons b bytes ih =>
      rw [List.map_cons, List.flatMap_cons, utf8EncodeChar_ascii (h b (List.mem_cons_self ..)),
        ih fun b hb => h b (List.mem_cons_of_mem _ hb)]
      rfl
  rw [List.utf8Encode, hflat]
  exact ByteArray.ext List.data_toByteArray

/- The unchecked decoding of ASCII is the checked one. -/
theorem fromUTF8?_ascii {bytes : List UInt8} (h : IsAscii bytes) :
    String.fromUTF8? ⟨bytes.toArray⟩ = some (String.ofList (bytes.map fun b => Char.ofNat b.toNat)) := by
  rw [← utf8Encode_ascii h]
  exact dif_pos ByteArray.isValidUTF8_utf8Encode

end Pyroscope.Lib.Utf8
