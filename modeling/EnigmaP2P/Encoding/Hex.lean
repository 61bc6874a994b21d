import Mathlib.Data.List.Basic
import Mathlib.Tactic.Ring

/-!
# Hexadecimal text and length-prefixed framing

`encode` writes bytes as lower-case digits, `decode?` reads digits of either case
and refuses everything else, and `decodePrefix` reads as far as it can, which is
how Node decodes the `hex` encoding. Big-endian lengths written as padded
hexadecimal numbers decode to the bytes of the length, so a text made of such
frames is the hexadecimal form of a byte frame, and framing is injective.
-/

namespace Hex

/-- The value of a digit of either case. -/
def val (c : Char) : Option Nat :=
  if '0' ≤ c ∧ c ≤ '9' then some (c.toNat - 48)
  else if 'a' ≤ c ∧ c ≤ 'f' then some (c.toNat - 87)
  else if 'A' ≤ c ∧ c ≤ 'F' then some (c.toNat - 55)
  else none

/-- Lower-case digits, high half of each byte first. -/
def encode : List UInt8 → List Char
  | [] => []
  | b :: rest => Nat.digitChar (b.toNat / 16) :: Nat.digitChar (b.toNat % 16) :: encode rest

/-- The bytes of a text made of digit pairs only. -/
def decode? : List Char → Option (List UInt8)
  | [] => some []
  | [_] => none
  | a :: b :: rest =>
      match val a, val b with
      | some x, some y => (decode? rest).map (UInt8.ofNat (16 * x + y) :: ·)
      | _, _ => none

/-- The bytes of the longest prefix made of digit pairs. -/
def decodePrefix : List Char → List UInt8
  | a :: b :: rest =>
      match val a, val b with
      | some x, some y => UInt8.ofNat (16 * x + y) :: decodePrefix rest
      | _, _ => []
  | _ => []

/-- What the tolerant reader does not read. -/
def remainder : List Char → List Char
  | a :: b :: rest =>
      match val a, val b with
      | some _, some _ => remainder rest
      | _, _ => a :: b :: rest
  | text => text

/-- The lower case of a digit. -/
def lowerDigit (c : Char) : Char :=
  if 'A' ≤ c ∧ c ≤ 'F' then c.toLower else c

theorem val_digitChar {n : Nat} (h : n < 16) : val (Nat.digitChar n) = some n := by
  have table : ∀ m, m < 16 → val (Nat.digitChar m) = some m := by decide
  exact table n h

@[simp] theorem length_encode (bytes : List UInt8) :
    (encode bytes).length = 2 * bytes.length := by
  induction bytes with
  | nil => rfl
  | cons b rest ih =>
      simp only [encode, List.length_cons, ih]
      omega

@[simp] theorem decode?_encode (bytes : List UInt8) : decode? (encode bytes) = some bytes := by
  induction bytes with
  | nil => rfl
  | cons b rest ih =>
      have hb : b.toNat < 256 := b.toNat_lt
      have high : val (Nat.digitChar (b.toNat / 16)) = some (b.toNat / 16) :=
        val_digitChar (by omega)
      have low : val (Nat.digitChar (b.toNat % 16)) = some (b.toNat % 16) :=
        val_digitChar (by omega)
      have whole : 16 * (b.toNat / 16) + b.toNat % 16 = b.toNat := by omega
      simp [encode, decode?, high, low, whole, ih]

theorem encode_injective : Function.Injective encode := by
  intro a b h
  have decoded := congrArg decode? h
  simpa using decoded

/-- Where the strict reader succeeds, the tolerant one agrees with it. -/
theorem decodePrefix_of_decode? : ∀ {text : List Char} {bytes : List UInt8},
    decode? text = some bytes → decodePrefix text = bytes
  | [], _, h => by
      cases h
      rfl
  | [_], _, h => by cases h
  | a :: b :: rest, bytes, h => by
      simp only [decode?] at h
      split at h
      · rename_i x y hx hy
        obtain ⟨tail, ht, rfl⟩ := Option.map_eq_some_iff.mp h
        simp only [decodePrefix, hx, hy, decodePrefix_of_decode? ht]
      · cases h

theorem toNat_lt_of_val {c : Char} {x : Nat} (h : val c = some x) : c.toNat < 103 := by
  have le : ∀ d : Char, c ≤ d → c.toNat ≤ d.toNat := fun _ le => le
  rw [val] at h
  split at h
  · rename_i digit
    exact Nat.lt_of_le_of_lt (le _ digit.2) (by decide)
  split at h
  · rename_i digit
    exact Nat.lt_of_le_of_lt (le _ digit.2) (by decide)
  split at h
  · rename_i digit
    exact Nat.lt_of_le_of_lt (le _ digit.2) (by decide)
  · cases h

/-- A digit is the lower-case one of its value up to case. -/
theorem lowerDigit_of_val {c : Char} {x : Nat} (h : val c = some x) :
    lowerDigit c = Nat.digitChar x ∧ x < 16 := by
  have table : ∀ n, n < 103 → ∀ x ∈ val (Char.ofNat n),
      lowerDigit (Char.ofNat n) = Nat.digitChar x ∧ x < 16 := by decide
  have here := table c.toNat (toNat_lt_of_val h) x
  rw [Char.ofNat_toNat] at here
  exact here h

/-- A text is the encoding of what is read of it and the remainder, up to case. -/
theorem map_lowerDigit : ∀ text : List Char, text.map lowerDigit =
    encode (decodePrefix text) ++ (remainder text).map lowerDigit
  | [] => rfl
  | [_] => rfl
  | a :: b :: rest => by
      rw [decodePrefix, remainder]
      split
      · rename_i x y isHigh isLow
        obtain ⟨high, xSmall⟩ := lowerDigit_of_val isHigh
        obtain ⟨low, ySmall⟩ := lowerDigit_of_val isLow
        have byte : (UInt8.ofNat (16 * x + y)).toNat = 16 * x + y := by
          rw [UInt8.toNat_ofNat']
          exact Nat.mod_eq_of_lt (by omega)
        have highHalf : (16 * x + y) / 16 = x := by omega
        have lowHalf : (16 * x + y) % 16 = y := by omega
        rw [List.map_cons, List.map_cons, high, low, map_lowerDigit rest, encode, byte, highHalf,
          lowHalf]
        rfl
      · rfl

/-- Texts that are read as the same bytes are equal up to case if their remainders are. -/
theorem map_lowerDigit_eq_iff {s t : List Char} (sameBytes : decodePrefix s = decodePrefix t) :
    s.map lowerDigit = t.map lowerDigit ↔
      (remainder s).map lowerDigit = (remainder t).map lowerDigit := by
  rw [map_lowerDigit s, map_lowerDigit t, sameBytes]
  exact List.append_right_inj _

/-- Where the strict reader succeeds, nothing remains. -/
theorem remainder_of_decode? : ∀ {text : List Char} {bytes : List UInt8},
    decode? text = some bytes → remainder text = []
  | [], _, _ => rfl
  | [_], _, h => by cases h
  | a :: b :: rest, bytes, h => by
      simp only [decode?] at h
      split at h
      · rename_i x y hx hy
        obtain ⟨tail, ht, rfl⟩ := Option.map_eq_some_iff.mp h
        simp only [remainder, hx, hy, remainder_of_decode? ht]
      · cases h

/-- Among digits the lower case of the language is that of a digit. -/
theorem toLower_of_val {c : Char} {x : Nat} (h : val c = some x) : c.toLower = lowerDigit c := by
  have table : ∀ n, n < 103 → val (Char.ofNat n) ≠ none →
      (Char.ofNat n).toLower = lowerDigit (Char.ofNat n) := by decide
  have here := table c.toNat (toNat_lt_of_val h)
  rw [Char.ofNat_toNat] at here
  exact here (by rw [h]; nofun)

/-- A text of digit pairs is the encoding of its bytes in lower case. -/
theorem map_toLower_of_decode? {text : List Char} {bytes : List UInt8}
    (h : decode? text = some bytes) : text.map Char.toLower = encode bytes := by
  have lower : text.map Char.toLower = text.map lowerDigit := by
    induction text using decode?.induct generalizing bytes with
    | case1 => rfl
    | case2 c => cases h
    | case3 a b rest x y hx hy ih =>
        rw [decode?, hx, hy] at h
        obtain ⟨tail, ht, rfl⟩ := Option.map_eq_some_iff.mp h
        rw [List.map_cons, List.map_cons, List.map_cons, List.map_cons, toLower_of_val hx,
          toLower_of_val hy, ih ht]
    | case4 a b rest noPair =>
        rw [decode?] at h
        split at h
        · rename_i x y hx hy
          exact absurd hy (noPair x y hx)
        · cases h
  rw [lower, map_lowerDigit, remainder_of_decode? h, decodePrefix_of_decode? h]
  exact List.append_nil _

/-- A text that decodes has two digits for each byte. -/
theorem length_of_decode? : ∀ {text : List Char} {bytes : List UInt8},
    decode? text = some bytes → text.length = 2 * bytes.length
  | [], _, h => by
      cases h
      rfl
  | [_], _, h => by cases h
  | a :: b :: rest, bytes, h => by
      simp only [decode?] at h
      split at h
      · obtain ⟨tail, ht, rfl⟩ := Option.map_eq_some_iff.mp h
        have := length_of_decode? ht
        simp only [List.length_cons]
        omega
      · cases h

/-- Texts of digit pairs decode piece by piece. -/
theorem decode?_append : ∀ {left : List Char} {bytes : List UInt8} (right : List Char),
    decode? left = some bytes → decode? (left ++ right) = (decode? right).map (bytes ++ ·)
  | [], _, right, h => by
      cases h
      cases hr : decode? right <;> simp [hr]
  | [_], _, _, h => by cases h
  | a :: b :: rest, bytes, right, h => by
      simp only [decode?] at h
      split at h
      · rename_i x y hx hy
        obtain ⟨tail, ht, rfl⟩ := Option.map_eq_some_iff.mp h
        simp only [List.cons_append, decode?, hx, hy, decode?_append right ht, Option.map_map]
        rfl
      · cases h

/-! ## Big-endian numbers -/

/-- The `width` low bytes of `n`, most significant first. -/
def bigEndian : Nat → Nat → List UInt8
  | 0, _ => []
  | width + 1, n => bigEndian width (n / 256) ++ [UInt8.ofNat (n % 256)]

@[simp] theorem length_bigEndian (width n : Nat) : (bigEndian width n).length = width := by
  induction width generalizing n with
  | zero => rfl
  | succ width ih => simp [bigEndian, ih]

theorem bigEndian_injective {width m n : Nat} (hm : m < 256 ^ width) (hn : n < 256 ^ width)
    (h : bigEndian width m = bigEndian width n) : m = n := by
  induction width generalizing m n with
  | zero =>
      simp only [Nat.pow_zero] at hm hn
      omega
  | succ width ih =>
      simp only [bigEndian] at h
      have split := List.append_inj h (by simp)
      have low : m % 256 = n % 256 := by
        have := congrArg UInt8.toNat (List.cons.inj split.2).1
        simpa [UInt8.toNat_ofNat] using this
      have high : m / 256 = n / 256 := by
        refine ih ?_ ?_ split.1 <;>
          · rw [Nat.pow_succ] at hm hn
            exact Nat.div_lt_of_lt_mul (by omega)
      omega

/-- `s.padStart(width, "0")`. -/
def padStart (width : Nat) (text : List Char) : List Char :=
  List.replicate (width - text.length) '0' ++ text

/-- Exactly `width` digits of `n`. -/
def digits : Nat → Nat → List Char
  | 0, _ => []
  | width + 1, n => digits width (n / 16) ++ [Nat.digitChar (n % 16)]

@[simp] theorem length_digits (width n : Nat) : (digits width n).length = width := by
  induction width generalizing n with
  | zero => rfl
  | succ width ih => simp [digits, ih]

private theorem digits_zero (width : Nat) : digits width 0 = List.replicate width '0' := by
  induction width with
  | zero => rfl
  | succ width ih =>
      rw [digits, Nat.zero_div, ih, List.replicate_succ']
      rfl

/-- Padding a number that fits to `width` digits writes exactly those digits. -/
theorem padStart_toDigits {width n : Nat} (hn : n < 16 ^ width) (hw : 0 < width) :
    padStart width (Nat.toDigits 16 n) = digits width n := by
  induction width generalizing n with
  | zero => cases hw
  | succ width ih =>
      by_cases hlt : n < 16
      · rw [Nat.toDigits_of_lt_base hlt, padStart, digits, Nat.div_eq_of_lt hlt,
          Nat.mod_eq_of_lt hlt, digits_zero]
        rfl
      · have hle : 16 ≤ n := Nat.le_of_not_lt hlt
        have hpos : 0 < width := by
          cases width with
          | zero =>
              simp only [Nat.pow_succ, Nat.pow_zero] at hn
              omega
          | succ width => exact Nat.succ_pos width
        have hdiv : n / 16 < 16 ^ width := by
          rw [Nat.pow_succ] at hn
          exact Nat.div_lt_of_lt_mul (by omega)
        rw [Nat.toDigits_of_base_le (by decide) hle, digits, ← ih hdiv hpos, padStart, padStart,
          List.length_append, ← List.append_assoc]
        congr 2
        simp only [List.length_cons, List.length_nil]
        congr 1
        omega

/-- Twice as many digits as bytes spell the big-endian bytes. -/
theorem decode?_digits (width n : Nat) :
    decode? (digits (2 * width) n) = some (bigEndian width n) := by
  induction width generalizing n with
  | zero => rfl
  | succ width ih =>
      have high : val (Nat.digitChar (n / 16 % 16)) = some (n / 16 % 16) :=
        val_digitChar (by omega)
      have low : val (Nat.digitChar (n % 16)) = some (n % 16) := val_digitChar (by omega)
      have byte : 16 * (n / 16 % 16) + n % 16 = n % 256 := by omega
      have split : digits (2 * (width + 1)) n = digits (2 * width) (n / 256) ++
          [Nat.digitChar (n / 16 % 16), Nat.digitChar (n % 16)] := by
        rw [show 2 * (width + 1) = 2 * width + 1 + 1 from rfl, digits, digits,
          List.append_assoc, Nat.div_div_eq_div_mul]
        rfl
      rw [split, decode?_append _ (ih (n / 256))]
      simp [decode?, high, low, byte, bigEndian]

/-- Reading decimal digits back from left to right. -/
private theorem foldl_toDigits (n : Nat) :
    (Nat.toDigits 10 n).foldl (fun acc c => 10 * acc + (val c).getD 0) 0 = n := by
  induction n using Nat.strong_induction_on with
  | h n ih =>
      by_cases small : n < 10
      · rw [Nat.toDigits_of_lt_base small]
        simp [val_digitChar (Nat.lt_of_lt_of_le small (by decide))]
      · have lastDigit : n % 10 < 16 := by omega
        rw [Nat.toDigits_of_base_le (by decide) (Nat.le_of_not_lt small), List.foldl_append,
          ih (n / 10) (by omega)]
        simp only [List.foldl_cons, List.foldl_nil, val_digitChar lastDigit, Option.getD_some]
        omega

/-- Distinct numbers have distinct decimal texts. -/
theorem toString_nat_injective : Function.Injective (fun n : Nat => toString n) := by
  intro m n h
  have digits : Nat.toDigits 10 m = Nat.toDigits 10 n := String.ofList_injective h
  rw [← foldl_toDigits m, digits, foldl_toDigits]

/-! ## Frames -/

/-- Each element behind its length in eight bytes. -/
def frame (parts : List (List UInt8)) : List UInt8 :=
  parts.flatMap (fun part => bigEndian 8 part.length ++ part)

/-- Framing is injective on lists of elements that are shorter than `2 ^ 64`. -/
theorem frame_injective : ∀ {xs ys : List (List UInt8)},
    (∀ x ∈ xs, x.length < 2 ^ 64) → (∀ y ∈ ys, y.length < 2 ^ 64) →
    frame xs = frame ys → xs = ys
  | [], [], _, _, _ => rfl
  | [], y :: ys, _, _, h => by
      have lengths := congrArg List.length h
      simp only [frame, List.flatMap_nil, List.flatMap_cons, List.length_append, List.length_nil,
        length_bigEndian] at lengths
      omega
  | x :: xs, [], _, _, h => by
      have lengths := congrArg List.length h
      simp only [frame, List.flatMap_nil, List.flatMap_cons, List.length_append, List.length_nil,
        length_bigEndian] at lengths
      omega
  | x :: xs, y :: ys, hx, hy, h => by
      simp only [frame, List.flatMap_cons, List.append_assoc] at h
      have header := List.append_inj h (by simp)
      have sameLength : x.length = y.length := by
        refine @bigEndian_injective 8 _ _ ?_ ?_ header.1
        · exact hx x List.mem_cons_self
        · exact hy y List.mem_cons_self
      have body := List.append_inj header.2 sameLength
      have rest : xs = ys :=
        frame_injective (fun z hz => hx z (List.mem_cons_of_mem _ hz))
          (fun z hz => hy z (List.mem_cons_of_mem _ hz)) body.2
      rw [body.1, rest]

end Hex
