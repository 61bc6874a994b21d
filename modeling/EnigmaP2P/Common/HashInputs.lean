import EnigmaP2P.Common.Cryptography

/-!
# What a hash of inputs is a hash of

Two lists of hexadecimal inputs give the same bytes to the hash function exactly if they
are the same lists up to prefixes and the case of letters. Each input stands behind its
length, so neither empty inputs nor inputs that look like a length are mistaken for
something else.
-/

namespace Common

open Js

/-- A text of digit pairs, with or without prefix, for fewer than `2 ^ 64` bytes. -/
structure HexInput where
  text : String
  bytes : List UInt8
  spelled : Hex.decode? (strip0x text).toList = some bytes
  short : bytes.length < 2 ^ 64

/-- The argument of `hashArray` for a list of inputs. -/
def inputsArray (inputs : List HexInput) : List (Option Json) :=
  inputs.map fun input => some (.str input.text)

/-- The inputs are the same text up to the prefix and the case of letters. -/
def SameHex (x y : HexInput) : Prop :=
  (strip0x x.text).toLower = (strip0x y.text).toLower

/-- In lower case and without prefix an input is the text of its bytes. -/
theorem HexInput.toLower_eq (input : HexInput) :
    (strip0x input.text).toLower = toHexString input.bytes := by
  have lower : (strip0x input.text).toLower.toList = (strip0x input.text).toList.map Char.toLower :=
    String.toList_map
  apply String.toList_injective
  rw [lower, Hex.map_toLower_of_decode? input.spelled, toHexString, String.toList_ofList]

/-- Inputs are the same exactly if they spell the same bytes. -/
theorem sameHex_iff {x y : HexInput} : SameHex x y ↔ x.bytes = y.bytes := by
  rw [SameHex, x.toLower_eq, y.toLower_eq]
  exact toHexString_injective.eq_iff

/-- The bytes for a list of inputs are the frame of what they spell. -/
theorem hashArrayBytes_inputsArray (inputs : List HexInput) :
    hashArrayBytes (inputsArray inputs) = .ok (some (Hex.frame (inputs.map (·.bytes)))) := by
  apply hashArrayBytes_hex
  · rw [inputsArray, List.forall₂_map_left_iff, List.forall₂_map_right_iff, List.forall₂_same]
    exact fun input _ => input.spelled
  · intro bytes member
    obtain ⟨input, -, rfl⟩ := List.mem_map.mp member
    exact input.short

/-- Two lists of inputs are hashed as the same bytes exactly if they are the same, element
by element, up to prefixes and the case of letters. -/
theorem hashArrayBytes_eq_iff (xs ys : List HexInput) :
    hashArrayBytes (inputsArray xs) = hashArrayBytes (inputsArray ys) ↔
      List.Forall₂ SameHex xs ys := by
  have short : ∀ (inputs : List HexInput), ∀ bytes ∈ inputs.map (·.bytes),
      bytes.length < 2 ^ 64 := by
    intro inputs bytes member
    obtain ⟨input, -, rfl⟩ := List.mem_map.mp member
    exact input.short
  have sameBytes : xs.map (·.bytes) = ys.map (·.bytes) ↔ List.Forall₂ SameHex xs ys := by
    have same : SameHex = fun x y => x.bytes = y.bytes := by
      funext x y
      exact propext sameHex_iff
    rw [← List.forall₂_eq_eq_eq, List.forall₂_map_left_iff, List.forall₂_map_right_iff, same]
  rw [hashArrayBytes_inputsArray, hashArrayBytes_inputsArray, Except.ok.injEq, Option.some.injEq,
    ← sameBytes]
  constructor
  · exact Hex.frame_injective (short xs) (short ys)
  · exact congrArg Hex.frame

end Common
