import Mathlib.Algebra.GroupWithZero.Nat
import Mathlib.Data.Rat.Defs

/-!
# JavaScript values that arrive as data

A message decoded from JSON or msgpack is a `Json` value. `undefined` is not one
of them: a property read returns an `Option`, and `none` stands for `undefined`.
Numbers are rationals, which contain every finite double a parser can return.

Only the coercions that programs apply to untrusted data are defined here:
truthiness, the conversion to a property key, and `ToNumber` as typed arrays use
it. `ToNumber` on text is a parameter wherever it can matter, because no program
built on this module depends on what it answers.
-/

namespace Js

inductive Json where
  | null
  | bool (b : Bool)
  | num (q : Rat)
  | str (s : String)
  | arr (items : List Json)
  | obj (fields : List (String × Json))

/-- What the language and its libraries throw, by constructor name. -/
inductive Exn where
  | error
  | typeError
  | rangeError
  | referenceError
  deriving DecidableEq, Repr

def Exn.name : Exn → String
  | .error => "Error"
  | .typeError => "TypeError"
  | .rangeError => "RangeError"
  | .referenceError => "ReferenceError"

/-- From a sequence that succeeds, both parts succeed. -/
theorem bind_eq_ok {α β : Type} {x : Except Exn α} {f : α → Except Exn β} {b : β} :
    (x >>= f) = .ok b ↔ ∃ a, x = .ok a ∧ f a = .ok b := by
  cases x with
  | error e => exact ⟨nofun, fun ⟨_, h, _⟩ => nomatch h⟩
  | ok a => exact ⟨fun h => ⟨a, rfl, h⟩, fun ⟨_, rfl, h⟩ => h⟩

namespace Json

mutual

/-- Structural equality, decided by recursion on both values. -/
def decEq : (a b : Json) → Decidable (a = b)
  | .null, .null => isTrue rfl
  | .bool a, .bool b =>
      if h : a = b then isTrue (h ▸ rfl) else isFalse (fun e => h (Json.bool.inj e))
  | .num a, .num b =>
      if h : a = b then isTrue (h ▸ rfl) else isFalse (fun e => h (Json.num.inj e))
  | .str a, .str b =>
      if h : a = b then isTrue (h ▸ rfl) else isFalse (fun e => h (Json.str.inj e))
  | .arr as, .arr bs =>
      match decEqItems as bs with
      | isTrue h => isTrue (h ▸ rfl)
      | isFalse h => isFalse (fun e => h (Json.arr.inj e))
  | .obj as, .obj bs =>
      match decEqFields as bs with
      | isTrue h => isTrue (h ▸ rfl)
      | isFalse h => isFalse (fun e => h (Json.obj.inj e))
  | .null, .bool _ | .null, .num _ | .null, .str _ | .null, .arr _ | .null, .obj _
  | .bool _, .null | .bool _, .num _ | .bool _, .str _ | .bool _, .arr _ | .bool _, .obj _
  | .num _, .null | .num _, .bool _ | .num _, .str _ | .num _, .arr _ | .num _, .obj _
  | .str _, .null | .str _, .bool _ | .str _, .num _ | .str _, .arr _ | .str _, .obj _
  | .arr _, .null | .arr _, .bool _ | .arr _, .num _ | .arr _, .str _ | .arr _, .obj _
  | .obj _, .null | .obj _, .bool _ | .obj _, .num _ | .obj _, .str _ | .obj _, .arr _ =>
      isFalse nofun

def decEqItems : (as bs : List Json) → Decidable (as = bs)
  | [], [] => isTrue rfl
  | a :: as, b :: bs =>
      match decEq a b, decEqItems as bs with
      | isTrue h, isTrue hs => isTrue (h ▸ hs ▸ rfl)
      | isFalse h, _ => isFalse (fun e => h (List.cons.inj e).1)
      | _, isFalse hs => isFalse (fun e => hs (List.cons.inj e).2)
  | [], _ :: _ | _ :: _, [] => isFalse nofun

def decEqFields : (as bs : List (String × Json)) → Decidable (as = bs)
  | [], [] => isTrue rfl
  | (k, a) :: as, (l, b) :: bs =>
      if hk : k = l then
        match decEq a b, decEqFields as bs with
        | isTrue h, isTrue hs => isTrue (hk ▸ h ▸ hs ▸ rfl)
        | isFalse h, _ => isFalse (fun e => h (Prod.mk.inj (List.cons.inj e).1).2)
        | _, isFalse hs => isFalse (fun e => hs (List.cons.inj e).2)
      else isFalse (fun e => hk (Prod.mk.inj (List.cons.inj e).1).1)
  | [], _ :: _ | _ :: _, [] => isFalse nofun

end

instance : DecidableEq Json := decEq

/-- `Boolean(v)`. -/
def truthy : Json → Bool
  | .null => false
  | .bool b => b
  | .num q => q ≠ 0
  | .str s => s ≠ ""
  | .arr _ => true
  | .obj _ => true

/-- An own property of an object. Arrays and primitives have none of the names
the programs read, so they answer `undefined`; reading from `null` is left to
the caller, because it throws. -/
def get? (key : String) : Json → Option Json
  | .obj fields => fields.lookup key
  | _ => none

/-- `String(q)`. Only whole numbers are ever compared with other keys; the text
of a fraction is merely one that no whole number and no identifier has. -/
def numToString (q : Rat) : String :=
  if q.den = 1 then toString q.num else toString q.num ++ "/" ++ toString q.den

mutual

/-- `String(v)`, which is also the property key that `v` is converted to. An object
with a property `toString` of its own has no method of that name to call. -/
def toKey : Json → Except Exn String
  | .null => .ok "null"
  | .bool true => .ok "true"
  | .bool false => .ok "false"
  | .num q => .ok (numToString q)
  | .str s => .ok s
  | .arr items => (itemKeys items).map (String.intercalate ",")
  | .obj fields =>
      if (fields.lookup "toString").isSome then .error .typeError else .ok "[object Object]"

/-- `Array.prototype.join` writes a `null` element as the empty string. -/
def itemKeys : List Json → Except Exn (List String)
  | [] => .ok []
  | .null :: rest => (itemKeys rest).map ("" :: ·)
  | item :: rest => do
      let key ← toKey item
      let keys ← itemKeys rest
      pure (key :: keys)

end

@[simp] theorem get?_obj (key : String) (fields : List (String × Json)) :
    (Json.obj fields).get? key = fields.lookup key := rfl

@[simp] theorem get?_null (key : String) : Json.null.get? key = none := rfl
@[simp] theorem get?_bool (key : String) (b : Bool) : (Json.bool b).get? key = none := rfl
@[simp] theorem get?_num (key : String) (q : Rat) : (Json.num q).get? key = none := rfl
@[simp] theorem get?_str (key s : String) : (Json.str s).get? key = none := rfl
@[simp] theorem get?_arr (key : String) (items : List Json) :
    (Json.arr items).get? key = none := rfl

@[simp] theorem toKey_str (s : String) : (Json.str s).toKey = .ok s := by
  simp only [toKey]

@[simp] theorem toKey_num (q : Rat) : (Json.num q).toKey = .ok (numToString q) := by
  simp only [toKey]

theorem numToString_natCast (n : Nat) : numToString n = toString n := by
  rw [numToString, if_pos (Rat.den_natCast n), Rat.num_natCast]
  rfl

end Json

/-- Truthiness of a property that may be missing. -/
def truthy? : Option Json → Bool
  | some v => v.truthy
  | none => false

@[simp] theorem truthy?_some (v : Json) : truthy? (some v) = v.truthy := rfl
@[simp] theorem truthy?_none : truthy? none = false := rfl

/-- `String(v)` of a property that may be missing. -/
def keyOf : Option Json → Except Exn String
  | some v => v.toKey
  | none => .ok "undefined"

@[simp] theorem keyOf_some (v : Json) : keyOf (some v) = v.toKey := rfl

/-- `ToPrimitive` of a value that may be missing: arrays and objects become texts. -/
def toPrimitive : Option Json → Except Exn (Option Json)
  | some (.arr items) => (Json.arr items).toKey.map fun text => some (.str text)
  | some (.obj fields) => (Json.obj fields).toKey.map fun text => some (.str text)
  | primitive => .ok primitive

/-- `ToNumber` of a primitive that is no text; `none` is `NaN`. -/
def primitiveNumber : Option Json → Option Rat
  | some (.num q) => some q
  | some (.bool b) => some (if b then 1 else 0)
  | some .null => some 0
  | _ => none

def isText : Option Json → Bool
  | some (.str _) => true
  | _ => false

/-- `a + b`: texts are joined, and other primitives are added. A sum is rounded, but only an
exact zero is rounded to zero. `none` is `NaN`. -/
def plus (a b : Option Json) : Except Exn (Option Json) := do
  let a ← toPrimitive a
  let b ← toPrimitive b
  if isText a || isText b then pure (some (.str ((← keyOf a) ++ (← keyOf b))))
  else pure (do some (.num ((← primitiveNumber a) + (← primitiveNumber b))))

/-- `s.length`: the number of UTF-16 code units. -/
def utf16Length (text : List Char) : Nat :=
  (text.map (fun c => if c.toNat < 65536 then 1 else 2)).sum

end Js
