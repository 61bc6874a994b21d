import EnigmaP2P.Common.Cryptography

/-!
# Content ids made of hashes

A content id wraps a hash: the packages put a code and the length in front of its bytes, which
makes a multihash, and give it a version and a codec. The packages are parameters, with what
they document for 32 bytes.

`getKeccack256` answers the text of the whole multihash. It has two bytes more than the hash,
and no id can be made of it.
-/

namespace Common

open Js

/-- A `CID` of the package. -/
structure CID where
  version : Nat
  codec : String
  multihash : List UInt8
  deriving DecidableEq

/-- `equals` of the package. -/
def CID.equals (cid other : CID) : Bool :=
  cid.codec = other.codec && cid.version = other.version && cid.multihash = other.multihash

/-- `multihash.encode(digest, name)` and `new CID(version, codec, multihash, base)`. -/
structure CidPackages where
  encode : List UInt8 → String → Except Exn (List UInt8)
  newCID : Nat → String → List UInt8 → String → Except Exn CID

/-- The code and the length in front of the bytes of a hash. -/
def keccakMultihash (digest : List UInt8) : List UInt8 :=
  0x1b :: 0x20 :: digest

/-- What the packages document about hashes of 32 bytes. -/
structure CidPackages.Lawful (packages : CidPackages) : Prop where
  encode_eq : ∀ {digest : List UInt8}, digest.length = 32 →
    packages.encode digest "keccak-256" = .ok (keccakMultihash digest)
  newCID_eq : ∀ {digest : List UInt8}, digest.length = 32 →
    packages.newCID 1 "eth-block" (keccakMultihash digest) "base58btc" =
      .ok ⟨1, "eth-block", keccakMultihash digest⟩

namespace CIDUtil

/-- `h.substring(2)`. A character beyond 16 bits has two units, and half of one is kept as
the character, which is no digit either. -/
def substring2 : List Char → List Char
  | a :: b :: rest => if 65536 ≤ a.toNat ∨ 65536 ≤ b.toNat then b :: rest else rest
  | _ => []

/-- `parseHashStr`; `none` is `null`. -/
def parseHashStr (h : String) : Option String :=
  if utf16Length h.toList = 64 then some h
  else if utf16Length h.toList = 66 then some (String.ofList (substring2 h.toList))
  else none

/-- `createCID`; every exception becomes `null`. -/
def createCID (packages : CidPackages) (ethHash : Option String) : Option CID := do
  let h ← parseHashStr (← ethHash)
  let mh ← (packages.encode (Hex.decodePrefix h.toList) "keccak-256").toOption
  (packages.newCID 1 "eth-block" mh "base58btc").toOption

/-- `getKeccak256FromCID`. -/
def getKeccak256FromCID (cid : CID) : String :=
  toHexString cid.multihash

end CIDUtil

open CIDUtil

structure EngCID where
  cid : CID
  deriving DecidableEq

namespace EngCID

def createFromKeccack256 (packages : CidPackages) (keccack256Hash : Option String) :
    Option EngCID :=
  (createCID packages keccack256Hash).map EngCID.mk

def getKeccack256 (engCid : EngCID) (with0x : Bool) : String :=
  let h := getKeccak256FromCID engCid.cid
  if with0x then "0x" ++ h else h

def equalCID (engCid : EngCID) (cid : CID) : Bool :=
  engCid.cid.equals cid

def equalKeccack256 (packages : CidPackages) (engCid : EngCID) (keccackHash : Option String) :
    Bool :=
  match createCID packages keccackHash with
  | some cid => engCid.equalCID cid
  | none => false

end EngCID

/-- A hash of 32 bytes as text, with or without prefix. -/
structure KeccakText where
  text : String
  digest : List UInt8
  spelled : Hex.decode? (strip0x text).toList = some digest
  length : digest.length = 32

/-- The text is that of the hash, up to the case of letters. -/
def KeccakText.Spelled (hash : KeccakText) (text : String) : Prop :=
  Hex.decode? text.toList = some hash.digest

/-- The id gives the hash back in both forms, and is equal to its own hash and to no other. -/
structure KeccakRight (packages : CidPackages) (hash : KeccakText) (engCid : EngCID) : Prop where
  plain : hash.Spelled (engCid.getKeccack256 false)
  prefixed : ∃ text, engCid.getKeccack256 true = "0x" ++ text ∧ hash.Spelled text
  equal : ∀ other : KeccakText,
    engCid.equalKeccack256 packages (some other.text) = true ↔ other.digest = hash.digest
  itself : ∀ with0x,
    engCid.equalKeccack256 packages (some (engCid.getKeccack256 with0x)) = true

section

variable {packages : CidPackages} {hash : KeccakText}

/-- The digits of a hash, with or without prefix. -/
theorem parseHashStr_text (hash : KeccakText) :
    parseHashStr hash.text = some (strip0x hash.text) := by
  have digits := utf16Length_of_decode? hash.spelled
  rw [hash.length] at digits
  rw [parseHashStr]
  by_cases hasPrefix : ∃ rest, hash.text.toList = '0' :: 'x' :: rest
  · obtain ⟨rest, isText⟩ := hasPrefix
    have stripped : strip0x hash.text = String.ofList rest := by
      rw [strip0x, isText]
      rfl
    rw [stripped, String.toList_ofList] at digits
    have length : utf16Length hash.text.toList = 66 := by
      rw [isText]
      change 1 + (1 + utf16Length rest) = 66
      omega
    rw [length, if_neg (by decide), if_pos rfl, stripped, isText]
    rfl
  · have stripped : strip0x hash.text = hash.text := by
      rw [strip0x]
      split
      · rename_i rest isText
        exact absurd ⟨rest, isText⟩ hasPrefix
      · rfl
    rw [stripped] at digits
    rw [digits, if_pos rfl, stripped]

/-- The id of a hash has the multihash of its bytes. -/
theorem createCID_text (lawful : packages.Lawful) (hash : KeccakText) :
    createCID packages (some hash.text) = some ⟨1, "eth-block", keccakMultihash hash.digest⟩ := by
  have parsed := parseHashStr_text hash
  have decoded := Hex.decodePrefix_of_decode? hash.spelled
  simp only [createCID, Option.bind_eq_bind, Option.bind_some, parsed, decoded,
    lawful.encode_eq hash.length, lawful.newCID_eq hash.length, Except.toOption]

/-- A text that is no hash with or without prefix by its length. -/
theorem createCID_of_length {text : String} (not64 : utf16Length text.toList ≠ 64)
    (not66 : utf16Length text.toList ≠ 66) : createCID packages (some text) = none := by
  have parsed : parseHashStr text = none := by
    rw [parseHashStr, if_neg not64, if_neg not66]
  simp only [createCID, Option.bind_eq_bind, Option.bind_some, parsed, Option.bind_none]

/-- The id of a hash. -/
def engCidOf (hash : KeccakText) : EngCID :=
  ⟨⟨1, "eth-block", keccakMultihash hash.digest⟩⟩

theorem createFromKeccack256_text (lawful : packages.Lawful) (hash : KeccakText) :
    EngCID.createFromKeccack256 packages (some hash.text) = some (engCidOf hash) := by
  rw [EngCID.createFromKeccack256, createCID_text lawful]
  rfl

/-- Among hashes, an id is equal to those of the same bytes. -/
theorem equalKeccack256_iff (lawful : packages.Lawful) (hash other : KeccakText) :
    (engCidOf hash).equalKeccack256 packages (some other.text) = true ↔
      other.digest = hash.digest := by
  simp only [EngCID.equalKeccack256, createCID_text lawful, EngCID.equalCID, CID.equals, engCidOf,
    keccakMultihash, decide_true, Bool.true_and, decide_eq_true_iff, List.cons.injEq, true_and]
  exact eq_comm

/-- The text of an id has four digits too many for a hash. -/
theorem utf16Length_getKeccack256 (hash : KeccakText) (with0x : Bool) :
    utf16Length ((engCidOf hash).getKeccack256 with0x).toList = if with0x then 70 else 68 := by
  have bytes : (keccakMultihash hash.digest).length = 34 := by
    rw [keccakMultihash, List.length_cons, List.length_cons, hash.length]
  have digits : utf16Length (Hex.encode (keccakMultihash hash.digest)) = 68 := by
    rw [utf16Length_of_decode? (Hex.decode?_encode _), bytes]
  cases with0x with
  | false =>
      change utf16Length (toHexString (keccakMultihash hash.digest)).toList = 68
      rw [toHexString, String.toList_ofList, digits]
  | true =>
      change utf16Length ("0x" ++ toHexString (keccakMultihash hash.digest)).toList = 70
      rw [String.toList_append, toHexString, String.toList_ofList, String.toList_ofList]
      change 1 + (1 + utf16Length (Hex.encode (keccakMultihash hash.digest))) = 70
      omega

/-- An id is never equal to what it gives as its hash. -/
theorem equalKeccack256_own (packages : CidPackages) (hash : KeccakText) (with0x : Bool) :
    (engCidOf hash).equalKeccack256 packages
      (some ((engCidOf hash).getKeccack256 with0x)) = false := by
  have length := utf16Length_getKeccack256 hash with0x
  have noId : createCID packages (some ((engCidOf hash).getKeccack256 with0x)) = none := by
    apply createCID_of_length
    · rw [length]
      cases with0x <;> decide
    · rw [length]
      cases with0x <;> decide
  rw [EngCID.equalKeccack256, noId]

/-- What an id gives as its hash is not the text of the hash. -/
theorem not_spelled_getKeccack256 (hash : KeccakText) :
    ¬ hash.Spelled ((engCidOf hash).getKeccack256 false) := by
  intro spelled
  have long := utf16Length_getKeccack256 hash false
  have short := utf16Length_of_decode? spelled
  rw [hash.length] at short
  rw [short] at long
  cases long

end

/-- For no hash does its id give it back or equal what it gives instead; but among hashes it
is equal to those of the same bytes only. -/
theorem not_keccakRight {packages : CidPackages} (lawful : packages.Lawful) (hash : KeccakText) :
    ∃ engCid, EngCID.createFromKeccack256 packages (some hash.text) = some engCid ∧
      ¬ KeccakRight packages hash engCid ∧
      (∀ with0x, engCid.equalKeccack256 packages (some (engCid.getKeccack256 with0x)) = false) ∧
      ∀ other : KeccakText, engCid.equalKeccack256 packages (some other.text) = true ↔
        other.digest = hash.digest := by
  refine ⟨engCidOf hash, createFromKeccack256_text lawful hash, fun right => ?_,
    equalKeccack256_own packages hash, equalKeccack256_iff lawful hash⟩
  exact not_spelled_getKeccack256 hash right.plain

/-- The packages, without the checks that a hash of 32 bytes passes. -/
def plainPackages : CidPackages where
  encode := fun digest _ => .ok (0x1b :: UInt8.ofNat digest.length :: digest)
  newCID := fun version codec multihash _ => .ok ⟨version, codec, multihash⟩

theorem plainPackages_lawful : plainPackages.Lawful where
  encode_eq := by
    intro digest length
    change Except.ok (0x1b :: UInt8.ofNat digest.length :: digest) = _
    rw [length]
    rfl
  newCID_eq := fun _ => rfl

/-- A hash with a prefix. -/
def someHash : KeccakText where
  text := "0x1d1d1d1d1d1d1d1d1d1d1d1d1d1d1d1d1d1d1d1d1d1d1d1d1d1d1d1d1d1d1d1d"
  digest := List.replicate 32 0x1d
  spelled := by decide
  length := by decide

theorem not_keccakRight_someHash :
    ∃ engCid, EngCID.createFromKeccack256 plainPackages (some someHash.text) = some engCid ∧
      ¬ KeccakRight plainPackages someHash engCid ∧
      (∀ with0x,
        engCid.equalKeccack256 plainPackages (some (engCid.getKeccack256 with0x)) = false) ∧
      ∀ other : KeccakText, engCid.equalKeccack256 plainPackages (some other.text) = true ↔
        other.digest = someHash.digest :=
  not_keccakRight plainPackages_lawful someHash

/-- The code and the length come back too, and that is no hash. -/
theorem keccakRight_wrong :
    (EngCID.createFromKeccack256 plainPackages (some someHash.text)).map
        (·.getKeccack256 false) =
      some "1b201d1d1d1d1d1d1d1d1d1d1d1d1d1d1d1d1d1d1d1d1d1d1d1d1d1d1d1d1d1d1d1d" ∧
    ∀ engCid, EngCID.createFromKeccack256 plainPackages (some someHash.text) = some engCid →
      ¬ KeccakRight plainPackages someHash engCid := by
  have created := createFromKeccack256_text plainPackages_lawful someHash
  refine ⟨?_, ?_⟩
  · rw [created]
    decide
  · intro engCid isId right
    cases created.symm.trans isId
    exact not_spelled_getKeccack256 someHash right.plain

end Common
