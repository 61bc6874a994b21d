import EnigmaP2P.Encoding.Hex
import EnigmaP2P.Js.Object
import EnigmaP2P.Js.Value

/-!
# Prefixes and hexadecimal text of byte arrays

`remove0x` of the common utilities, which answers `null` for everything that is not text, and
`DbUtils.toHexString`.
-/

namespace Common

open Js

/-- `remove0x` of a text. -/
def strip0x (hexString : String) : String :=
  match hexString.toList with
  | '0' :: 'x' :: rest => String.ofList rest
  | _ => hexString

/-- `remove0x`; `none` is `null`. -/
def remove0x : Option Json → Option String
  | some (.str hexString) => some (strip0x hexString)
  | _ => none

/-- `DbUtils.toHexString`. -/
def toHexString (byteArray : List UInt8) : String :=
  String.ofList (Hex.encode byteArray)

/-- Lower-case hexadecimal text without prefix, two digits for each byte. -/
def IsHexAddress (text : String) : Prop :=
  ∃ bytes, text = toHexString bytes

theorem toHexString_injective : Function.Injective toHexString := by
  intro a b h
  exact Hex.encode_injective (String.ofList_injective h)

/-- No property that objects inherit is named like an address. -/
theorem IsHexAddress.not_inherited {text : String} (h : IsHexAddress text) :
    text ∉ objectPrototype := by
  have noDigits : ∀ key ∈ objectPrototype, Hex.decode? key.toList = none := by decide
  obtain ⟨bytes, rfl⟩ := h
  intro member
  have decoded := noDigits _ member
  rw [toHexString, String.toList_ofList, Hex.decode?_encode] at decoded
  cases decoded

@[simp] theorem remove0x_str (hexString : String) :
    remove0x (some (.str hexString)) = some (strip0x hexString) := rfl

private theorem encode_ne_x : ∀ (bytes : List UInt8), 'x' ∉ Hex.encode bytes
  | [] => List.not_mem_nil
  | b :: rest => by
      have digit : ∀ n, n < 16 → Nat.digitChar n ≠ 'x' := by decide
      have hb : b.toNat < 256 := b.toNat_lt
      intro member
      rcases List.mem_cons.mp member with h | member
      · exact digit _ (by omega) h.symm
      rcases List.mem_cons.mp member with h | member
      · exact digit _ (by omega) h.symm
      exact encode_ne_x rest member

/-- A text without an `x` has no prefix to remove. -/
theorem strip0x_of_not_mem {hexString : String} (h : 'x' ∉ hexString.toList) :
    strip0x hexString = hexString := by
  unfold strip0x
  split
  · rename_i rest heq
    exact absurd (by simp [heq]) h
  · rfl

@[simp] theorem strip0x_toHexString (bytes : List UInt8) :
    strip0x (toHexString bytes) = toHexString bytes :=
  strip0x_of_not_mem (by simpa [toHexString] using encode_ne_x bytes)

end Common
