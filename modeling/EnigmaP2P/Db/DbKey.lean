import EnigmaP2P.Common.Utils
import Mathlib.Data.Nat.Bitwise

/-!
# Keys of contracts and deltas

A key has the bytes that the data base uses, and the text of its address with an index. The
constructor takes an index of 0 for a missing one, so the key of the first delta is that of a
contract. Addresses are compared as they are spelled.
-/

namespace Db

open Js Common

/-! ## Bytes of keys -/

/-- `DbUtils.hexToBytes`. -/
def hexToBytes (hex : String) : List UInt8 :=
  Hex.decodePrefix (strip0x hex).toList

/-- An element of the `Uint8Array` of `intTo4BytesArr`: 32 bits with a sign are masked and
shifted, and the array keeps 8 of them. -/
def indexByte (num : Nat) (mask : BitVec 32) (shift : Nat) : UInt8 :=
  UInt8.ofBitVec (((BitVec.ofNat 32 num &&& mask).sshiftRight shift).setWidth 8)

def intTo4BytesArr (num : Nat) : Except Exn (List UInt8) :=
  if 4294967295 < num then .error .error
  else .ok [indexByte num 0xff000000 24, indexByte num 0x00ff0000 16, indexByte num 0x0000ff00 8,
    indexByte num 0x000000ff 0]

/-- `bytesArrToInt`; `readUInt32BE` throws when there are fewer than four bytes. -/
def bytesArrToInt : List UInt8 → Except Exn Nat
  | a :: b :: c :: d :: _ =>
      .ok (a.toNat * 2 ^ 24 + b.toNat * 2 ^ 16 + c.toNat * 2 ^ 8 + d.toNat)
  | _ => .error .rangeError

/-- `deltaKeyBytesToTuple`. A key of fewer than four bytes is sliced differently, and throws. -/
def deltaKeyBytesToTuple (byteKey : List UInt8) : Except Exn (String × Nat) := do
  let index ← bytesArrToInt (byteKey.drop (byteKey.length - 4))
  pure (toHexString (byteKey.take (byteKey.length - 4)), index)

/-- `toBytesKey` with an index. -/
def toBytesKey (contractByteAddr : List UInt8) (index : Nat) : Except Exn (List UInt8) := do
  pure (contractByteAddr ++ (← intTo4BytesArr index))

/-! ## Keys -/

structure DbKey where
  byteKey : List UInt8
  hexAddr : String
  idx : Option Nat
  isContract : Bool
  deriving DecidableEq

namespace DbKey

/-- The constructor; a missing index and 0 are falsy. -/
def new (byteKey : List UInt8) (hexAddr : String) (idx : Option Nat) : DbKey :=
  ⟨byteKey, strip0x hexAddr, idx, idx.getD 0 = 0⟩

def fromContractAddr (addr : String) : DbKey :=
  new (hexToBytes addr) addr none

def fromContractBytes (byteAddr : List UInt8) : DbKey :=
  new byteAddr (toHexString byteAddr) none

def fromDeltaTouple (addr : String) (idx : Nat) : Except Exn DbKey := do
  let byteKey ← toBytesKey (hexToBytes addr) idx
  pure (new byteKey addr (some idx))

def fromDeltaBytes (byteKey : List UInt8) : Except Exn DbKey := do
  let tuple ← deltaKeyBytesToTuple byteKey
  pure (new byteKey tuple.1 (some tuple.2))

def isDelta (key : DbKey) : Bool :=
  !key.isContract

def equals (key otherDbKey : DbKey) : Bool :=
  if key.isContract && otherDbKey.isContract then key.hexAddr = otherDbKey.hexAddr
  else if key.isDelta && otherDbKey.isDelta then
    decide (key.hexAddr = otherDbKey.hexAddr) && decide (key.idx = otherDbKey.idx)
  else false

end DbKey

/-! ## What keys stand for -/

/-- A hexadecimal address in any case, with or without prefix. -/
structure HexAddress where
  text : String
  bytes : List UInt8
  spelled : Hex.decode? (strip0x text).toList = some bytes

/-- The indexes that four bytes hold. -/
abbrev DeltaIndex := Fin (2 ^ 32)

/-- A call of one of the four builders. -/
inductive Build where
  | contractAddr (addr : HexAddress)
  | contractBytes (byteAddr : List UInt8)
  | deltaTouple (addr : HexAddress) (idx : DeltaIndex)
  | deltaBytes (byteKey : { byteKey : List UInt8 // 4 ≤ byteKey.length })

namespace Build

/-- The key that is built. -/
def key : Build → Except Exn DbKey
  | contractAddr addr => .ok (.fromContractAddr addr.text)
  | contractBytes byteAddr => .ok (.fromContractBytes byteAddr)
  | deltaTouple addr idx => DbKey.fromDeltaTouple addr.text idx
  | deltaBytes byteKey => DbKey.fromDeltaBytes byteKey.1

/-- The bytes of the address. -/
def address : Build → List UInt8
  | contractAddr addr => addr.bytes
  | contractBytes byteAddr => byteAddr
  | deltaTouple addr _ => addr.bytes
  | deltaBytes byteKey => byteKey.1.take (byteKey.1.length - 4)

/-- The index of a delta; a contract has none. -/
def index : Build → Option Nat
  | contractAddr _ => none
  | contractBytes _ => none
  | deltaTouple _ idx => some idx
  | deltaBytes byteKey => (bytesArrToInt (byteKey.1.drop (byteKey.1.length - 4))).toOption

/-- The address as it is spelled, without prefix. -/
def spelling : Build → String
  | contractAddr addr => strip0x addr.text
  | contractBytes byteAddr => toHexString byteAddr
  | deltaTouple addr _ => strip0x addr.text
  | deltaBytes byteKey => toHexString (byteKey.1.take (byteKey.1.length - 4))

/-- Keys of the same kind, with the same address and, for deltas, the same index. -/
def Same (build other : Build) : Prop :=
  build.address = other.address ∧ build.index = other.index

end Build

/-- Both keys are built, and are equal exactly if they stand for the same. -/
def EqualsRight (build other : Build) : Prop :=
  ∃ key otherDbKey, build.key = .ok key ∧ other.key = .ok otherDbKey ∧
    (key.equals otherDbKey = true ↔ build.Same other)

/-- A contract and its first delta are not spelled alike, and what is the same is. -/
structure Unambiguous (build other : Build) : Prop where
  contractFirst : build.index = none → other.index = some 0 → build.spelling ≠ other.spelling
  deltaFirst : build.index = some 0 → other.index = none → build.spelling ≠ other.spelling
  alike : build.Same other → build.spelling = other.spelling

/-- An address in lower case, with or without prefix. -/
structure LowerAddress where
  text : String
  bytes : List UInt8
  lower : strip0x text = toHexString bytes

/-- The key that is read back from the bytes is a delta with the address and the index. -/
def ReadBack (addr : LowerAddress) (idx : DeltaIndex) : Prop :=
  ∃ key reread, DbKey.fromDeltaTouple addr.text idx = .ok key ∧
    DbKey.fromDeltaBytes key.byteKey = .ok reread ∧ reread.isDelta = true ∧
    reread.hexAddr = strip0x addr.text ∧ reread.idx = some idx.val

/-! ## The index -/

/-- The sign does not reach the eight bits that are kept. -/
theorem setWidth_sshiftRight_and (num : Nat) {mask : BitVec 32} {shift : Nat}
    (inside : shift + 8 ≤ 32) (ones : ∀ i < 8, mask.getLsbD (shift + i) = true) :
    ((BitVec.ofNat 32 num &&& mask).sshiftRight shift).setWidth 8 =
      BitVec.ofNat 8 (num / 2 ^ shift) := by
  apply BitVec.eq_of_getLsbD_eq
  intro i small
  have here : shift + i < 32 := by omega
  have below : ¬ 32 ≤ i := by omega
  rw [BitVec.getLsbD_setWidth, BitVec.getLsbD_sshiftRight, BitVec.getLsbD_ofNat,
    BitVec.getLsbD_and, ones i small, BitVec.getLsbD_ofNat, Nat.testBit_div_two_pow,
    Nat.add_comm i shift]
  simp only [small, here, below, decide_true, decide_false, Bool.true_and, Bool.and_true, if_true,
    Bool.not_false]

theorem toNat_indexByte (num : Nat) {mask : BitVec 32} {shift : Nat} (inside : shift + 8 ≤ 32)
    (ones : ∀ i < 8, mask.getLsbD (shift + i) = true) :
    (indexByte num mask shift).toNat = num / 2 ^ shift % 2 ^ 8 := by
  rw [indexByte, setWidth_sshiftRight_and num inside ones]
  exact BitVec.toNat_ofNat _ _

/-- Every index that fits is written in four bytes, and read back from them. -/
theorem bytesArrToInt_intTo4BytesArr (idx : DeltaIndex) :
    ∃ a b c d, intTo4BytesArr idx = .ok [a, b, c, d] ∧
      bytesArrToInt [a, b, c, d] = .ok idx.val := by
  have bound := idx.isLt
  have fits : ¬ 4294967295 < idx.val := by omega
  refine ⟨_, _, _, _, by rw [intTo4BytesArr, if_neg fits], ?_⟩
  rw [bytesArrToInt,
    toNat_indexByte _ (by omega) (by decide), toNat_indexByte _ (by omega) (by decide),
    toNat_indexByte _ (by omega) (by decide), toNat_indexByte _ (by omega) (by decide)]
  apply congrArg Except.ok
  omega

/-- Four bytes have an index. -/
theorem exists_bytesArrToInt {bytes : List UInt8} (long : 4 ≤ bytes.length) :
    ∃ index, bytesArrToInt bytes = .ok index := by
  match bytes, long with
  | a :: b :: c :: d :: _, _ => exact ⟨_, rfl⟩

/-! ## Keys that are built -/

/-- A key is what it was built of, and is a delta if its index is there and not 0. -/
structure IsKey (build : Build) (key : DbKey) : Prop where
  hexAddr : key.hexAddr = build.spelling
  idx : key.idx = build.index
  isContract : key.isContract = decide (build.index.getD 0 = 0)

theorem exists_isKey (build : Build) : ∃ key, build.key = .ok key ∧ IsKey build key := by
  cases build with
  | contractAddr addr => exact ⟨_, rfl, rfl, rfl, rfl⟩
  | contractBytes byteAddr => exact ⟨_, rfl, strip0x_toHexString byteAddr, rfl, rfl⟩
  | deltaTouple addr idx =>
      obtain ⟨a, b, c, d, isBytes, -⟩ := bytesArrToInt_intTo4BytesArr idx
      refine ⟨.new (hexToBytes addr.text ++ [a, b, c, d]) addr.text (some idx), ?_, rfl, rfl, rfl⟩
      rw [Build.key, DbKey.fromDeltaTouple, toBytesKey, isBytes]
      rfl
  | deltaBytes byteKey =>
      have long : 4 ≤ (byteKey.1.drop (byteKey.1.length - 4)).length := by
        have fits := byteKey.2
        rw [List.length_drop]
        omega
      obtain ⟨index, isIndex⟩ := exists_bytesArrToInt long
      have read : (Build.deltaBytes byteKey).index = some index := by
        rw [Build.index, isIndex]
        rfl
      refine ⟨.new byteKey.1 (toHexString (byteKey.1.take (byteKey.1.length - 4))) (some index),
        ?_, strip0x_toHexString _, read.symm, ?_⟩
      · rw [Build.key, DbKey.fromDeltaBytes, deltaKeyBytesToTuple, isIndex]
        rfl
      · rw [read]
        rfl

theorem exists_eq_some_of_getD_ne {index : Option Nat} (notFirst : index.getD 0 ≠ 0) :
    ∃ idx, index = some idx ∧ idx ≠ 0 := by
  cases index with
  | none => exact absurd rfl notFirst
  | some idx => exact ⟨idx, rfl, notFirst⟩

/-- Equal keys have the same spelling, and the same index if a missing one counts as 0. -/
theorem equals_iff {build other : Build} {key otherDbKey : DbKey} (isKey : IsKey build key)
    (isOther : IsKey other otherDbKey) : key.equals otherDbKey = true ↔
      build.spelling = other.spelling ∧ build.index.getD 0 = other.index.getD 0 := by
  rw [DbKey.equals, DbKey.isDelta, DbKey.isDelta, isKey.isContract, isOther.isContract,
    isKey.hexAddr, isOther.hexAddr, isKey.idx, isOther.idx]
  by_cases contract : build.index.getD 0 = 0
  · by_cases otherContract : other.index.getD 0 = 0
    · simp [contract, otherContract]
    · simp [contract, otherContract, Ne.symm otherContract]
  · by_cases otherContract : other.index.getD 0 = 0
    · simp [contract, otherContract]
    · obtain ⟨idx, isIdx, notFirst⟩ := exists_eq_some_of_getD_ne contract
      obtain ⟨otherIdx, isOtherIdx, otherNotFirst⟩ := exists_eq_some_of_getD_ne otherContract
      simp [isIdx, isOtherIdx, notFirst, otherNotFirst]

/-- The spelling has the bytes of the address. -/
theorem decode?_spelling (build : Build) :
    Hex.decode? build.spelling.toList = some build.address := by
  have ofBytes (bytes : List UInt8) : Hex.decode? (toHexString bytes).toList = some bytes := by
    rw [toHexString, String.toList_ofList]
    exact Hex.decode?_encode bytes
  cases build with
  | contractAddr addr => exact addr.spelled
  | contractBytes byteAddr => exact ofBytes byteAddr
  | deltaTouple addr idx => exact addr.spelled
  | deltaBytes byteKey => exact ofBytes _

theorem address_of_spelling {build other : Build} (alike : build.spelling = other.spelling) :
    build.address = other.address := by
  have same := decode?_spelling build
  rw [alike, decode?_spelling] at same
  exact (Option.some.inj same).symm

/-- Two keys are compared as they should be exactly if they are unambiguous. -/
theorem equalsRight_iff_unambiguous (build other : Build) :
    EqualsRight build other ↔ Unambiguous build other := by
  obtain ⟨key, isBuilt, isKey⟩ := exists_isKey build
  obtain ⟨otherDbKey, isOtherBuilt, isOther⟩ := exists_isKey other
  have compared := equals_iff isKey isOther
  constructor
  · rintro ⟨built, otherBuilt, isSame, isOtherSame, right⟩
    cases isBuilt.symm.trans isSame
    cases isOtherBuilt.symm.trans isOtherSame
    rw [compared] at right
    constructor
    · intro missing first alike
      have same := (right.mp ⟨alike, by rw [missing, first]; rfl⟩).2
      rw [missing, first] at same
      cases same
    · intro first missing alike
      have same := (right.mp ⟨alike, by rw [missing, first]; rfl⟩).2
      rw [missing, first] at same
      cases same
    · exact fun same => (right.mpr same).1
  · intro unambiguous
    refine ⟨key, otherDbKey, isBuilt, isOtherBuilt, compared.trans ⟨?_, fun same => ?_⟩⟩
    · rintro ⟨alike, sameIndex⟩
      refine ⟨address_of_spelling alike, ?_⟩
      cases isIdx : build.index with
      | none =>
          cases isOtherIdx : other.index with
          | none => rfl
          | some otherIdx =>
              rw [isIdx, isOtherIdx] at sameIndex
              change 0 = otherIdx at sameIndex
              exact absurd alike (unambiguous.contractFirst isIdx (sameIndex ▸ isOtherIdx))
      | some idx =>
          cases isOtherIdx : other.index with
          | none =>
              rw [isIdx, isOtherIdx] at sameIndex
              change idx = 0 at sameIndex
              exact absurd alike (unambiguous.deltaFirst (sameIndex ▸ isIdx) isOtherIdx)
          | some otherIdx =>
              rw [isIdx, isOtherIdx] at sameIndex
              exact congrArg some sameIndex
    · exact ⟨unambiguous.alike same, congrArg (Option.getD · 0) same.2⟩

/-! ## Reading a key back -/

theorem hexToBytes_lower (addr : LowerAddress) : hexToBytes addr.text = addr.bytes := by
  rw [hexToBytes, addr.lower, toHexString, String.toList_ofList]
  exact Hex.decodePrefix_of_decode? (Hex.decode?_encode addr.bytes)

/-- The bytes of a key are those of the address and four for the index. -/
theorem deltaKeyBytesToTuple_append (bytes : List UInt8) {a b c d : UInt8} {idx : Nat}
    (isIndex : bytesArrToInt [a, b, c, d] = .ok idx) :
    deltaKeyBytesToTuple (bytes ++ [a, b, c, d]) = .ok (toHexString bytes, idx) := by
  have length : (bytes ++ [a, b, c, d]).length - 4 = bytes.length := by
    rw [List.length_append]
    rfl
  rw [deltaKeyBytesToTuple, length, List.drop_left, List.take_left, isIndex]
  rfl

theorem readBack_iff_ne (addr : LowerAddress) (idx : DeltaIndex) : ReadBack addr idx ↔ idx ≠ 0 := by
  obtain ⟨a, b, c, d, isBytes, isIndex⟩ := bytesArrToInt_intTo4BytesArr idx
  have built : DbKey.fromDeltaTouple addr.text idx =
      .ok (.new (addr.bytes ++ [a, b, c, d]) addr.text (some idx)) := by
    rw [DbKey.fromDeltaTouple, toBytesKey, isBytes, hexToBytes_lower]
    rfl
  have reread : DbKey.fromDeltaBytes (addr.bytes ++ [a, b, c, d]) =
      .ok (.new (addr.bytes ++ [a, b, c, d]) (toHexString addr.bytes) (some idx.val)) := by
    rw [DbKey.fromDeltaBytes, deltaKeyBytesToTuple_append _ isIndex]
    rfl
  constructor
  · rintro ⟨key, again, isKey, isAgain, isDelta, -, -⟩ rfl
    cases built.symm.trans isKey
    cases reread.symm.trans isAgain
    cases isDelta
  · intro notFirst
    have isDelta : idx.val ≠ 0 := fun isZero => notFirst (Fin.ext isZero)
    refine ⟨_, _, built, reread, ?_, ?_, rfl⟩
    · change (!decide (idx.val = 0)) = true
      rw [decide_eq_false isDelta]
      rfl
    · exact (strip0x_toHexString _).trans addr.lower.symm

/-- A delta is read back exactly if it is not the first one, and two keys are compared as they
should be exactly if no contract is spelled like its first delta and what is the same is
spelled alike. -/
theorem keysRight_iff (addr : LowerAddress) (idx : DeltaIndex) (build other : Build) :
    (ReadBack addr idx ↔ idx ≠ 0) ∧ (EqualsRight build other ↔ Unambiguous build other) :=
  ⟨readBack_iff_ne addr idx, equalsRight_iff_unambiguous build other⟩

/-- An address in lower case and one in upper case. -/
def lowerCase : HexAddress :=
  ⟨"0xab", [0xab], by decide⟩

def upperCase : HexAddress :=
  ⟨"AB", [0xab], by decide⟩

/-- The first delta of a contract is no delta when it is read back and equal to the contract,
and one address in both cases gives different keys. -/
theorem keysRight_wrong :
    ¬ ReadBack ⟨"0xab", [0xab], by decide⟩ 0 ∧
    ((DbKey.fromDeltaTouple "0xab" 0).map (DbKey.fromContractAddr "0xab").equals = .ok true ∧
      ¬ EqualsRight (.contractAddr lowerCase) (.deltaTouple lowerCase 0)) ∧
    ((DbKey.fromContractAddr "0xab").equals (.fromContractAddr "AB") = false ∧
      ¬ EqualsRight (.contractAddr lowerCase) (.contractAddr upperCase)) := by
  refine ⟨?_, ⟨rfl, ?_⟩, by decide, ?_⟩
  · rw [readBack_iff_ne]
    exact fun notFirst => notFirst rfl
  · rw [equalsRight_iff_unambiguous]
    exact fun unambiguous => unambiguous.contractFirst rfl rfl rfl
  · rw [equalsRight_iff_unambiguous]
    intro unambiguous
    exact absurd (unambiguous.alike ⟨rfl, rfl⟩) (by decide)

end Db
