import EnigmaP2P.Encoding.Hex
import EnigmaP2P.Js.Value

/-!
# Node's `Buffer.from(value, "hex")` and loops over array-likes

Text is decoded up to the first character that is not part of a digit pair.
Arrays and array-like objects give one byte for each element, converted as a
typed array converts it. Everything else is a `TypeError`.
A loop up to `v.length` reads every value that has a length, whatever it is.
-/

namespace Js

variable (stringToNumber : String → Option Rat)

/-- `Number(v)`; `none` is `NaN`. The conversion of text is a parameter. -/
def Json.toNumber : Json → Except Exn (Option Rat)
  | .null => .ok (some 0)
  | .bool b => .ok (some (if b then 1 else 0))
  | .num q => .ok (some q)
  | .str s => .ok (stringToNumber s)
  | .arr items => (Json.arr items).toKey.map stringToNumber
  | .obj fields => (Json.obj fields).toKey.map (fun _ => none)

/-- The byte a typed array stores: truncated, then modulo 256, and 0 for `NaN`. -/
def toUint8 : Option Json → Except Exn UInt8
  | none => .ok 0
  | some v => do
      match ← v.toNumber stringToNumber with
      | some q => pure (UInt8.ofNat ((q.num.tdiv q.den).emod 256).toNat)
      | none => pure 0

/-- `buffer.constants.MAX_LENGTH` of the Node versions the program runs on. -/
def maxBufferLength : Rat := 2147483647

/-- What Node reads from an object that is no array. -/
def bufferOfObject (fields : List (String × Json)) : Except Exn (List UInt8) :=
  match fields.lookup "length" with
  | some (.num q) =>
      if maxBufferLength < q then .error .rangeError
      else (List.range q.floor.toNat).mapM fun i =>
        toUint8 stringToNumber (fields.lookup (toString i))
  | some _ => .ok []
  | none =>
      match fields.lookup "type", fields.lookup "data" with
      | some (.str "Buffer"), some (.arr items) =>
          items.mapM fun item => toUint8 stringToNumber (some item)
      | _, _ => .error .typeError

/-- `Buffer.from(v, "hex")`. An own `valueOf` is called first, and is no function. -/
def bufferFromHex : Option Json → Except Exn (List UInt8)
  | some (.str s) => .ok (Hex.decodePrefix s.toList)
  | some (.arr items) => items.mapM fun item => toUint8 stringToNumber (some item)
  | some (.obj fields) =>
      match fields.lookup "valueOf" with
      | none | some .null => bufferOfObject stringToNumber fields
      | some (.str "") => .ok []
      | some _ => .error .typeError
  | _ => .error .typeError

/-- A byte array as the messages carry it. -/
def ofBytes (bytes : List UInt8) : Json :=
  .arr (bytes.map fun b => .num b.toNat)

/-- The code units of a text, as texts. Either half of a pair is written as their character. -/
def codeUnits (s : String) : List String :=
  s.toList.flatMap fun c =>
    List.replicate (if c.toNat < 65536 then 1 else 2) (String.singleton c)

/-- From here on, no index is a property. -/
def indexBound {β : Type*} : List (String × β) → Nat
  | [] => 0
  | (key, _) :: rest =>
      max (indexBound rest)
        (if key.toList.all Char.isDigit then Nat.ofDigitChars 10 key.toList 0 + 1 else 0)

/-- What `for (let i = 0; i < v.length; i++)` reads from `v`. A loop over an object stops
at the latest behind the last index that is a property, if reading from `undefined`
ends it; so the items are listed up to there. -/
def loopItems : Option Json → Except Exn (List (Option Json))
  | none | some .null => .error .typeError
  | some (.arr items) => .ok (items.map some)
  | some (.str s) => .ok ((codeUnits s).map fun c => some (.str c))
  | some (.bool _) | some (.num _) => .ok []
  | some (.obj fields) =>
      match fields.lookup "length" with
      | none => .ok []
      | some length => do
          match ← length.toNumber stringToNumber with
          | none => pure []
          | some q => pure ((List.range (min q.ceil.toNat (indexBound fields + 1))).map fun i =>
              fields.lookup (toString i))

@[simp] theorem loopItems_arr (items : List Json) :
    loopItems stringToNumber (some (.arr items)) = .ok (items.map some) := rfl

@[simp] theorem bufferFromHex_none : bufferFromHex stringToNumber none = .error .typeError := rfl

@[simp] theorem bufferFromHex_str (s : String) :
    bufferFromHex stringToNumber (some (.str s)) = .ok (Hex.decodePrefix s.toList) := rfl

theorem toUint8_byte (b : UInt8) :
    toUint8 stringToNumber (some (.num b.toNat)) = .ok b := by
  have bound : b.toNat < 256 := b.toNat_lt
  have small : Int.emod (b.toNat : Int) 256 = b.toNat :=
    Int.emod_eq_of_lt (by omega) (by omega)
  change Except.ok (UInt8.ofNat _) = Except.ok b
  simp [small]

/-- The byte that a typed array stores for a number. -/
def byteOf (q : Rat) : UInt8 :=
  UInt8.ofNat ((q.num.tdiv q.den).emod 256).toNat

/-- An array of numbers converts to their bytes. -/
theorem bufferFromHex_numbers (numbers : List Rat) :
    bufferFromHex stringToNumber (some (.arr (numbers.map .num))) = .ok (numbers.map byteOf) := by
  change (numbers.map Json.num).mapM _ = _
  induction numbers with
  | nil => rfl
  | cons q rest ih =>
      rw [List.map_cons, List.mapM_cons, ih]
      rfl

/-- A byte array converts to its bytes. -/
@[simp] theorem bufferFromHex_ofBytes (bytes : List UInt8) :
    bufferFromHex stringToNumber (some (ofBytes bytes)) = .ok bytes := by
  change (bytes.map fun b => Json.num b.toNat).mapM _ = Except.ok bytes
  induction bytes with
  | nil => rfl
  | cons b rest ih =>
      rw [List.map_cons, List.mapM_cons, toUint8_byte, ih]
      rfl

variable {stringToNumber}

theorem isDigit_of_mem_toString {n : Nat} {c : Char} (member : c ∈ (toString n).toList) :
    c.isDigit = true := by
  rw [show toString n = String.ofList (Nat.toDigits 10 n) from rfl, String.toList_ofList] at member
  exact Nat.isDigit_of_mem_toDigits (by decide) (by decide) member

theorem lookup_of_indexBound_le {β : Type*} {fields : List (String × β)} {i : Nat}
    (beyond : indexBound fields ≤ i) : fields.lookup (toString i) = none := by
  induction fields with
  | nil => rfl
  | cons field rest ih =>
      obtain ⟨key, value⟩ := field
      have rests : indexBound rest ≤ i := Nat.le_trans (Nat.le_max_left _ _) beyond
      have other : toString i ≠ key := by
        rintro rfl
        have digits : (toString i).toList.all Char.isDigit = true :=
          List.all_eq_true.mpr fun _ => isDigit_of_mem_toString
        have here := Nat.le_trans (Nat.le_max_right _ _) beyond
        rw [if_pos digits, show toString i = String.ofList (Nat.toDigits 10 i) from rfl,
          String.toList_ofList, Nat.ofDigitChars_ten_toDigits] at here
        exact absurd here (Nat.not_succ_le_self i)
      rw [List.lookup_cons, beq_false_of_ne other]
      exact ih rests

/-- A number whose text is that of a natural number is that number. -/
theorem eq_of_numToString {q : Rat} {n : Nat} (same : Json.numToString q = toString n) : q = n := by
  have digits : ∀ c ∈ (Json.numToString q).toList, c.isDigit = true := by
    rw [same]
    exact fun _ => isDigit_of_mem_toString
  unfold Json.numToString at same digits
  split at same
  · rename_i whole
    rw [if_pos whole] at digits
    have value : q = (q.num : Rat) := (Rat.den_eq_one_iff q).mp whole |>.symm
    cases num : q.num with
    | ofNat m =>
        rw [num] at same
        rw [value, num, Hex.toString_nat_injective same]
        rfl
    | negSucc m =>
        rw [num] at digits
        have minus : '-' ∈ (toString (Int.negSucc m)).toList := by
          rw [show toString (Int.negSucc m) = "-" ++ toString (m + 1) from rfl]
          simp
        exact absurd (digits '-' minus) (by decide)
  · rename_i fraction
    rw [if_neg fraction] at digits
    exact absurd (digits '/' (by simp)) (by decide)

/-- A value that is converted to the key of an index is converted to that number. -/
theorem Json.toNumber_of_toKey {key : Json} {n : Nat} (isIndex : key.toKey = .ok (toString n))
    (decimal : stringToNumber (toString n) = some (n : Rat)) :
    key.toNumber stringToNumber = .ok (some (n : Rat)) := by
  have noWord : ∀ {word : String} {c : Char}, c ∈ word.toList → c.isDigit = false →
      Except.ok (ε := Exn) word ≠ .ok (toString n) := by
    intro word c member noDigit same
    rw [Except.ok.inj same] at member
    exact Bool.false_ne_true (noDigit.symm.trans (isDigit_of_mem_toString member))
  cases key with
  | null =>
      rw [Json.toKey] at isIndex
      exact absurd isIndex (noWord (c := 'n') (by decide) rfl)
  | bool b =>
      cases b <;> rw [Json.toKey] at isIndex
      · exact absurd isIndex (noWord (c := 'f') (by decide) rfl)
      · exact absurd isIndex (noWord (c := 't') (by decide) rfl)
  | num q =>
      rw [Json.toKey] at isIndex
      rw [eq_of_numToString (Except.ok.inj isIndex)]
      rfl
  | str s =>
      rw [Json.toKey] at isIndex
      rw [Except.ok.inj isIndex, Json.toNumber, decimal]
  | arr items =>
      rw [Json.toNumber, isIndex]
      exact congrArg Except.ok decimal
  | obj fields =>
      rw [Json.toKey] at isIndex
      split at isIndex
      · cases isIndex
      · exact absurd isIndex (noWord (c := 'o') (by decide) rfl)

end Js
