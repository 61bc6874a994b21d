import EnigmaP2P.Common.Utils
import EnigmaP2P.Js.Buffer
import Mathlib.Data.List.Nodup

/-!
# Hashing

`hash` and `hashArray` over a hash function that is a parameter. The parameters
stand for the hashing package and for the conversion of text to numbers; `Lawful`
states what the package documents about text that is hexadecimal, and that the hash
function is injective. The package answers `null` instead of the hash of no bytes.
-/

namespace Common

open Js

/-- The packages and the conversion that the hash functions call. -/
structure Platform where
  keccak256 : List UInt8 → List UInt8
  /-- `soliditySha3({ t: "bytes", v })`. -/
  soliditySha3Bytes : String → Except Exn (Option String)
  stringToNumber : String → Option Rat

/-- A text with the prefix that the package writes. -/
def hexText (bytes : List UInt8) : String :=
  String.ofList ('0' :: 'x' :: Hex.encode bytes)

/-- The text of a hash as the package returns it; `none` is `null`. -/
def sha3With (keccak256 : List UInt8 → List UInt8) (bytes : List UInt8) : Option String :=
  if keccak256 bytes = keccak256 [] then none else some (hexText (keccak256 bytes))

def Platform.sha3 (platform : Platform) (bytes : List UInt8) : Option String :=
  sha3With platform.keccak256 bytes

/-- `hash(value)`, and `_keccack256Hash`. -/
def hash (platform : Platform) (value : Option Json) : Except Exn (Option String) := do
  let buffer ← bufferFromHex platform.stringToNumber value
  pure (platform.sha3 buffer)

/-- The value has a hash. -/
def Hashable (platform : Platform) (value : Option Json) : Prop :=
  ∃ digest, Common.hash platform value = .ok digest

/-- The value has this hash, which is not `null`. -/
def HashesTo (platform : Platform) (value : Option Json) (digest : String) : Prop :=
  Common.hash platform value = .ok (some digest)

theorem HashesTo.hashable {platform : Platform} {value : Option Json} {digest : String}
    (hashed : HashesTo platform value digest) : Hashable platform value := ⟨_, hashed⟩

/-- What `hashArray` appends for one input: its length in bytes and its digits. -/
def hashArrayPart (value : Option Json) : Except Exn (List Char) :=
  match remove0x value with
  | none => .error .typeError
  | some e =>
      let length := utf16Length e.toList
      if length % 2 = 0 then
        .ok (Hex.padStart 16 (Nat.toDigits 16 (length / 2)) ++ e.toList)
      else .error .rangeError

/-- The text that `hashArray` hashes. -/
def hashArrayText : List (Option Json) → Except Exn (List Char)
  | [] => .ok []
  | value :: rest => do
      let part ← hashArrayPart value
      let text ← hashArrayText rest
      pure (part ++ text)

/-- The bytes that the package reads from the text, and gives to the hash function. -/
def hashArrayBytes (inputsArray : List (Option Json)) : Except Exn (Option (List UInt8)) :=
  (hashArrayText inputsArray).map Hex.decode?

def hashArray (platform : Platform) (inputsArray : List (Option Json)) :
    Except Exn (Option String) := do
  let hexStr ← hashArrayText inputsArray
  platform.soliditySha3Bytes (String.ofList hexStr)

/-- The hash of a byte array is that of its bytes. -/
@[simp] theorem hash_ofBytes (platform : Platform) (bytes : List UInt8) :
    Common.hash platform (some (ofBytes bytes)) = .ok (platform.sha3 bytes) := by
  rw [Common.hash, bufferFromHex_ofBytes]
  rfl

/-- What is assumed of the hashing package. -/
structure Platform.Lawful (platform : Platform) : Prop where
  keccak256_injective : Function.Injective platform.keccak256
  soliditySha3Bytes_eq : ∀ {text : String} {bytes : List UInt8},
    Hex.decode? text.toList = some bytes →
      platform.soliditySha3Bytes text = .ok (platform.sha3 bytes)

theorem hexText_injective : Function.Injective hexText := by
  intro a b h
  have chars := String.ofList_injective h
  exact Hex.encode_injective (List.cons.inj (List.cons.inj chars).2).2

/-- Two byte strings with the same hash, which is not `null`, are equal. -/
theorem Platform.sha3_injective {platform : Platform}
    (injective : Function.Injective platform.keccak256) {a b : List UInt8} {digest : String}
    (ha : platform.sha3 a = some digest) (hb : platform.sha3 b = some digest) : a = b := by
  unfold Platform.sha3 sha3With at ha hb
  split at ha
  · cases ha
  split at hb
  · cases hb
  exact injective (hexText_injective ((Option.some.inj ha).trans (Option.some.inj hb).symm))

/-- Hashes that the package returns are `0x` and lower-case digits. -/
theorem Platform.sha3_eq_some {platform : Platform} {bytes : List UInt8} {digest : String}
    (h : platform.sha3 bytes = some digest) : digest = hexText (platform.keccak256 bytes) := by
  unfold Platform.sha3 sha3With at h
  split at h
  · cases h
  · exact (Option.some.inj h).symm

/-- Only no bytes have the hash that the package writes as `null`. -/
theorem Platform.sha3_of_ne_nil {platform : Platform}
    (injective : Function.Injective platform.keccak256) {bytes : List UInt8} (ne : bytes ≠ []) :
    platform.sha3 bytes = some (hexText (platform.keccak256 bytes)) :=
  if_neg fun same => ne (injective same)

/-! ## The hash of hexadecimal inputs -/

/-- The bytes of a hexadecimal text, with or without prefix. -/
def hexBytes (value : Option Json) : Option (List UInt8) :=
  (remove0x value).bind (fun text => Hex.decode? text.toList)

/-- Hexadecimal text has one code unit for each digit. -/
theorem utf16Length_of_decode? : ∀ {text : List Char} {bytes : List UInt8},
    Hex.decode? text = some bytes → utf16Length text = 2 * bytes.length
  | [], _, h => by
      cases h
      rfl
  | [_], _, h => by cases h
  | a :: b :: rest, bytes, h => by
      simp only [Hex.decode?] at h
      split at h
      · rename_i x y hx hy
        obtain ⟨tail, decoded, rfl⟩ := Option.map_eq_some_iff.mp h
        have later := utf16Length_of_decode? decoded
        have unit : ∀ {c z}, Hex.val c = some z → c.toNat < 65536 := fun isDigit =>
          Nat.lt_trans (Hex.toNat_lt_of_val isDigit) (by decide)
        simp only [utf16Length, List.map_cons, List.sum_cons, unit hx, unit hy, if_true,
          List.length_cons] at later ⊢
        omega
      · cases h

/-- The part of a hexadecimal input decodes to its length in eight bytes and its bytes. -/
theorem hashArrayPart_hex {value : Option Json} {bytes : List UInt8}
    (decoded : hexBytes value = some bytes) (short : bytes.length < 2 ^ 64) :
    ∃ text, hashArrayPart value = .ok text ∧
      Hex.decode? text = some (Hex.bigEndian 8 bytes.length ++ bytes) := by
  obtain ⟨e, stripped, digits⟩ := Option.bind_eq_some_iff.mp decoded
  have length := utf16Length_of_decode? digits
  have fits : bytes.length < 16 ^ 16 := Nat.lt_of_lt_of_eq short (by decide)
  refine ⟨Hex.digits (2 * 8) bytes.length ++ e.toList, ?_, ?_⟩
  · rw [hashArrayPart, stripped]
    simp only [length, Nat.mul_mod_right, if_true]
    rw [Nat.mul_div_cancel_left _ (by decide), Hex.padStart_toDigits fits (by decide)]
  · rw [Hex.decode?_append _ (Hex.decode?_digits 8 bytes.length), digits]
    rfl

/-- The bytes of hexadecimal inputs are the frame of what they spell. -/
theorem hashArrayBytes_hex {inputsArray : List (Option Json)} {parts : List (List UInt8)}
    (decoded : List.Forall₂ (fun value bytes => hexBytes value = some bytes) inputsArray parts)
    (short : ∀ bytes ∈ parts, bytes.length < 2 ^ 64) :
    hashArrayBytes inputsArray = .ok (some (Hex.frame parts)) := by
  have whole : ∃ text, hashArrayText inputsArray = .ok text ∧
      Hex.decode? text = some (Hex.frame parts) := by
    induction decoded with
    | nil => exact ⟨[], rfl, rfl⟩
    | cons first rest ih =>
        obtain ⟨shortFirst, shortRest⟩ := List.forall_mem_cons.mp short
        obtain ⟨part, partOk, partBytes⟩ := hashArrayPart_hex first shortFirst
        obtain ⟨text, textOk, textBytes⟩ := ih shortRest
        refine ⟨part ++ text, ?_, ?_⟩
        · rw [hashArrayText, partOk, textOk]
          rfl
        · rw [Hex.decode?_append _ partBytes, textBytes]
          simp [Hex.frame]
  obtain ⟨text, textOk, textBytes⟩ := whole
  rw [hashArrayBytes, textOk, Except.map, textBytes]

/-- Where the package reads bytes, the hash is that of the bytes. -/
theorem hashArray_of_bytes {platform : Platform} (lawful : platform.Lawful)
    {inputsArray : List (Option Json)} {bytes : List UInt8}
    (read : hashArrayBytes inputsArray = .ok (some bytes)) :
    hashArray platform inputsArray = .ok (platform.sha3 bytes) := by
  rw [hashArrayBytes] at read
  cases text : hashArrayText inputsArray with
  | error exn =>
      rw [text] at read
      cases read
  | ok hexStr =>
      rw [text, Except.map, Except.ok.injEq] at read
      rw [hashArray, text]
      exact lawful.soliditySha3Bytes_eq (by rw [String.toList_ofList]; exact read)

/-- The hash of hexadecimal inputs is that of the frame of their bytes. -/
theorem hashArray_hex {platform : Platform} (lawful : platform.Lawful)
    {inputsArray : List (Option Json)} {parts : List (List UInt8)}
    (decoded : List.Forall₂ (fun value bytes => hexBytes value = some bytes) inputsArray parts)
    (short : ∀ bytes ∈ parts, bytes.length < 2 ^ 64) :
    hashArray platform inputsArray = .ok (platform.sha3 (Hex.frame parts)) :=
  hashArray_of_bytes lawful (hashArrayBytes_hex decoded short)

/-- Inputs with the same hash, which is not `null`, have the same bytes. -/
theorem hashArray_injective {platform : Platform} (lawful : platform.Lawful)
    {xs ys : List (Option Json)} {as bs : List (List UInt8)}
    (hx : List.Forall₂ (fun value bytes => hexBytes value = some bytes) xs as)
    (hy : List.Forall₂ (fun value bytes => hexBytes value = some bytes) ys bs)
    (shortX : ∀ bytes ∈ as, bytes.length < 2 ^ 64) (shortY : ∀ bytes ∈ bs, bytes.length < 2 ^ 64)
    {digest : String}
    (hashX : hashArray platform xs = .ok (some digest))
    (hashY : hashArray platform ys = .ok (some digest)) : as = bs := by
  rw [hashArray_hex lawful hx shortX, Except.ok.injEq] at hashX
  rw [hashArray_hex lawful hy shortY, Except.ok.injEq] at hashY
  exact Hex.frame_injective shortX shortY
    (Platform.sha3_injective lawful.keccak256_injective hashX hashY)

/-- The text of a hash is hexadecimal. -/
theorem hexBytes_hexText (bytes : List UInt8) :
    hexBytes (some (.str (hexText bytes))) = some bytes := by
  change (Hex.decode? (strip0x (hexText bytes)).toList) = some bytes
  simp [strip0x, hexText]

/-! ## Evaluating the definitions -/

/-- A platform that knows the hashes of a few texts, both given in hexadecimal, and maps
everything else to longer byte strings. -/
def Platform.ofTable (hashes : List (String × String)) : Platform :=
  let table := hashes.map fun entry =>
    (Hex.decodePrefix entry.1.toList, Hex.decodePrefix entry.2.toList)
  let keccak256 := fun bytes => (table.lookup bytes).getD (List.replicate 33 0 ++ bytes)
  { keccak256 := keccak256
    soliditySha3Bytes := fun text =>
      match Hex.decode? text.toList with
      | some bytes => .ok (sha3With keccak256 bytes)
      | none => .error .error
    stringToNumber := fun _ => none }

private theorem mem_of_lookup {table : List (List UInt8 × List UInt8)}
    {bytes digest : List UInt8} (found : table.lookup bytes = some digest) :
    (bytes, digest) ∈ table := by
  obtain ⟨before, after, split, -⟩ := List.lookup_eq_some_iff.mp found
  rw [split]
  simp

/-- A table of distinct hashes of 32 bytes extends to a lawful platform. -/
theorem Platform.ofTable_lawful {hashes : List (String × String)}
    (distinct : (hashes.map fun entry => Hex.decodePrefix entry.2.toList).Nodup)
    (short : ∀ entry ∈ hashes, (Hex.decodePrefix entry.2.toList).length = 32) :
    (Platform.ofTable hashes).Lawful := by
  let table := hashes.map fun entry =>
    (Hex.decodePrefix entry.1.toList, Hex.decodePrefix entry.2.toList)
  have values : (table.map Prod.snd).Nodup := by
    rw [List.map_map]
    exact distinct
  have length : ∀ {bytes digest}, table.lookup bytes = some digest → digest.length = 32 := by
    intro bytes digest found
    obtain ⟨entry, member, same⟩ := List.mem_map.mp (mem_of_lookup found)
    cases same
    exact short entry member
  constructor
  · intro a b same
    change (table.lookup a).getD (List.replicate 33 0 ++ a) =
      (table.lookup b).getD (List.replicate 33 0 ++ b) at same
    cases ha : table.lookup a with
    | none =>
        cases hb : table.lookup b with
        | none =>
            rw [ha, hb] at same
            exact List.append_cancel_left same
        | some digest =>
            have lengths := congrArg List.length same
            simp [ha, hb, length hb] at lengths
    | some digest =>
        cases hb : table.lookup b with
        | none =>
            have lengths := congrArg List.length same
            simp [ha, hb, length ha] at lengths
        | some other =>
            rw [ha, hb] at same
            cases (show digest = other from same)
            have entries :=
              List.inj_on_of_nodup_map values (mem_of_lookup ha) (mem_of_lookup hb) rfl
            exact (Prod.mk.inj entries).1
  · intro text bytes decoded
    change (match Hex.decode? text.toList with
      | some bytes => _
      | none => _) = _
    rw [decoded]
    rfl

end Common
