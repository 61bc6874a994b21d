import EnigmaP2P.Js.Buffer
import EnigmaP2P.Js.Object

/-!
# Values that a decoder builds

A decoder that assigns the keys of a map to a new object builds more than plain data. The key
`__proto__` replaces the prototype: names are found that are no properties of the object
itself, or the methods that every object inherits are missing. Some decoders build binary data,
dates and objects around primitives, too. Such a value is given by what it answers to the
operations of the language. Nothing that a decoder builds is a function.
-/

namespace Js

/-- A number of the language. -/
inductive Number where
  | finite (q : Rat)
  | infinity (negative : Bool)
  | nan

/-- `String(n)`. -/
def Number.text : Number → String
  | .finite q => Json.numToString q
  | .infinity negative => if negative then "-Infinity" else "Infinity"
  | .nan => "NaN"

/-- How often `for (let i = 0; i < n; i++)` runs at most, if it ends. -/
def Number.iterations : Number → Option Nat
  | .finite q => some q.ceil.toNat
  | .infinity negative => if negative then some 0 else none
  | .nan => some 0

/-- The number that `Number` makes of a text, where `none` is `NaN`. -/
def Number.ofOption : Option Rat → Number
  | some q => .finite q
  | none => .nan

inductive Primitive where
  | undefined
  | null
  | bool (b : Bool)
  | num (n : Number)
  | str (s : String)

def Primitive.text : Primitive → String
  | .undefined => "undefined"
  | .null => "null"
  | .bool b => if b then "true" else "false"
  | .num n => n.text
  | .str s => s

/-- The type that a conversion to a primitive prefers. -/
inductive Hint where
  | string
  | number
  | default

/-- What an object answers. `get` is asked for names, `item` for indexes below `size`; no
index from there on is a property. Every order of `toString` and `valueOf` fails for one
object or for none, as what a method throws does not depend on the order. `buffer` is
`Buffer.from(v, "hex")`, and `isString` says whether `Object.prototype.toString` finds a text. -/
structure Answers (V : Type) where
  get : String → Except Exn V
  item : Nat → V
  size : Nat
  has : String → Bool
  hasOwnProperty : String → Except Exn Bool
  toPrimitive : Except Exn (Hint → Primitive)
  buffer : Except Exn (List UInt8)
  isString : Bool

inductive Foreign where
  | prim (value : Primitive)
  | object (answers : Answers Foreign)

/-- `o[name] = v` puts an own property before whatever was found under the name. It is for
names that no conversion reads. -/
def Answers.set {V : Type} (name : String) (value : V) (answers : Answers V) : Answers V :=
  { answers with
    get := fun other => if other = name then .ok value else answers.get other
    has := fun other => other = name || answers.has other
    hasOwnProperty := fun other =>
      (answers.hasOwnProperty other).map fun isOwn => other = name || isOwn }

namespace Foreign

@[match_pattern] abbrev undefined : Foreign := .prim .undefined
@[match_pattern] abbrev null : Foreign := .prim .null
@[match_pattern] abbrev str (s : String) : Foreign := .prim (.str s)

/-! ## Operations -/

/-- `Boolean(v)`. -/
def truthy : Foreign → Bool
  | .prim .undefined | .prim .null | .prim (.num .nan) => false
  | .prim (.bool b) => b
  | .prim (.num (.finite q)) => q ≠ 0
  | .prim (.num (.infinity _)) => true
  | .prim (.str s) => s ≠ ""
  | .object _ => true

/-- `v === text`. -/
def is (text : String) : Foreign → Bool
  | .prim (.str s) => s = text
  | _ => false

/-- `Object.prototype.toString.call(v) === "[object String]"`. -/
def isString : Foreign → Bool
  | .prim (.str _) => true
  | .prim _ => false
  | .object answers => answers.isString

/-- `v[name]`. A primitive inherits methods only, of which none is read here. -/
def get (name : String) : Foreign → Except Exn Foreign
  | .prim .undefined | .prim .null => .error .typeError
  | .prim (.str s) =>
      .ok (if name = "length" then .prim (.num (.finite (codeUnits s).length)) else undefined)
  | .prim _ => .ok undefined
  | .object answers => answers.get name

/-- `v[i]`, of a value from which names can be read. -/
def item (i : Nat) : Foreign → Foreign
  | .prim (.str s) => ((codeUnits s)[i]?).elim undefined str
  | .prim _ => undefined
  | .object answers => if i < answers.size then answers.item i else undefined

/-- No index from here on is a property. -/
def size : Foreign → Nat
  | .prim (.str s) => (codeUnits s).length
  | .prim _ => 0
  | .object answers => answers.size

/-- `name in v`. -/
def has (name : String) : Foreign → Except Exn Bool
  | .prim _ => .error .typeError
  | .object answers => .ok (answers.has name)

/-- `v.hasOwnProperty(name)`. -/
def hasOwnProperty (name : String) : Foreign → Except Exn Bool
  | .prim .undefined | .prim .null => .error .typeError
  | .prim (.str s) =>
      .ok (name = "length" || (List.range (codeUnits s).length).any (toString · = name))
  | .prim _ => .ok false
  | .object answers => answers.hasOwnProperty name

/-- `v[name] = value` in strict code. -/
def set (v : Foreign) (name : String) (value : Foreign) : Except Exn Foreign :=
  match v with
  | .prim _ => .error .typeError
  | .object answers => .ok (.object (answers.set name value))

def toPrimitive (hint : Hint) : Foreign → Except Exn Primitive
  | .prim value => .ok value
  | .object answers => answers.toPrimitive.map (· hint)

/-- The property key that `v` is converted to, which is also `String(v)`. -/
def toKey (v : Foreign) : Except Exn String :=
  (v.toPrimitive .string).map Primitive.text

/-- The text of `v` in a concatenation. -/
def text (v : Foreign) : Except Exn String :=
  (v.toPrimitive .default).map Primitive.text

/-- `Buffer.from(v, "hex")`. -/
def buffer : Foreign → Except Exn (List UInt8)
  | .prim (.str s) => .ok (Hex.decodePrefix s.toList)
  | .prim _ => .error .typeError
  | .object answers => answers.buffer

variable (textToNumber : String → Number)

/-- `Number(v)`. The conversion of text is a parameter. -/
def toNumber (v : Foreign) : Except Exn Number :=
  (v.toPrimitive .number).map fun
    | .undefined => .nan
    | .null => .finite 0
    | .bool b => .finite (if b then 1 else 0)
    | .num n => n
    | .str s => textToNumber s

/-- What `for (let i = 0; i < v.length; i++)` reads from `v`, up to the first index behind
all that are properties: it reads `undefined` there. -/
def loopItems (v : Foreign) : Except Exn (List Foreign) := do
  let length ← v.get "length"
  let n ← length.toNumber textToNumber
  let bound := n.iterations.elim (v.size + 1) (min · (v.size + 1))
  pure ((List.range bound).map (v.item ·))

theorem str_ne {s t : String} (ne : s ≠ t) : str s ≠ str t := fun same =>
  ne (Primitive.str.inj (prim.inj same))

theorem is_iff {text : String} {v : Foreign} : v.is text = true ↔ v = str text := by
  constructor
  · intro same
    unfold is at same
    split at same
    · rw [of_decide_eq_true same]
    · cases same
  · rintro rfl
    exact decide_eq_true rfl

/-- A value becomes a key exactly if it becomes a text in a concatenation. -/
theorem text_ok_iff {v : Foreign} : (∃ text, v.text = .ok text) ↔ ∃ key, v.toKey = .ok key := by
  cases v with
  | prim value => exact ⟨fun _ => ⟨_, rfl⟩, fun _ => ⟨_, rfl⟩⟩
  | object answers =>
      simp only [Foreign.text, toKey, toPrimitive]
      cases answers.toPrimitive with
      | error exn => exact ⟨fun ⟨_, ended⟩ => (by cases ended), fun ⟨_, ended⟩ => (by cases ended)⟩
      | ok primitive => exact ⟨fun _ => ⟨_, rfl⟩, fun _ => ⟨_, rfl⟩⟩

/-- A value with something under a name is an object. -/
theorem isObject_of_get {v found : Foreign} {name : String} (notLength : name ≠ "length")
    (read : v.get name = .ok found) (present : found ≠ undefined) :
    ∃ answers, v = .object answers := by
  cases v with
  | object answers => exact ⟨answers, rfl⟩
  | prim value =>
      cases value with
      | undefined | null => cases read
      | bool b | num n => exact absurd (Except.ok.inj read).symm present
      | str s =>
          have absent := (Except.ok.inj read).symm
          rw [if_neg notLength] at absent
          exact absurd absent present

/-- After an assignment, other names are read as before. -/
theorem get_set {v v' value : Foreign} {name : String} (assigned : v.set name value = .ok v')
    (other : String) : v'.get other = if other = name then .ok value else v.get other := by
  cases v with
  | prim _ => cases assigned
  | object answers =>
      cases assigned
      rfl

theorem isObject_of_set {v v' value : Foreign} {name : String}
    (assigned : v.set name value = .ok v') : ∃ answers, v' = .object answers := by
  cases v with
  | prim _ => cases assigned
  | object answers =>
      cases assigned
      exact ⟨_, rfl⟩

/-- A name with a character that is no digit is none of the first indexes. -/
theorem any_index_eq_false {name : String} (noIndex : name.toList.all Char.isDigit = false)
    (n : Nat) : (List.range n).any (toString · = name) = false := by
  rw [List.any_eq_false]
  intro i _ same
  have digits : name.toList.all Char.isDigit = true := by
    rw [← of_decide_eq_true same, List.all_eq_true]
    exact fun _ => isDigit_of_mem_toString
  exact Bool.false_ne_true (noIndex.symm.trans digits)

/-- A primitive has own properties at most under `length` and indexes. -/
theorem not_hasOwnProperty_prim {value : Primitive} {name : String} (notLength : name ≠ "length")
    (noIndex : name.toList.all Char.isDigit = false) :
    (prim value).hasOwnProperty name ≠ .ok true := by
  intro asked
  cases value with
  | str s =>
      have listed := Except.ok.inj asked
      rw [decide_eq_false notLength, any_index_eq_false noIndex] at listed
      cases listed
  | undefined | null | bool b | num n => cases asked

/-! ## Objects -/

/-- A method of the language, as far as it is told from `undefined`. -/
def native : Foreign :=
  .object
    { get := fun _ => .ok undefined
      item := fun _ => undefined
      size := 0
      has := fun _ => false
      hasOwnProperty := fun _ => .ok false
      toPrimitive := .ok fun _ => .str "function () { [native code] }"
      buffer := .error .typeError
      isString := false }

/-- The object of a map with these properties, where the prototypes that the map put in place
have those. They are `rooted` if they end in the prototype of every object. -/
def plainAnswers (own inherited : List (String × Foreign)) (rooted : Bool)
    (buffer : Except Exn (List UInt8)) : Answers Foreign :=
  let found := own ++ inherited
  { get := fun name => .ok ((found.lookup name).getD
      (if rooted ∧ name ∈ objectPrototype then native else undefined))
    item := fun i => (found.lookup (toString i)).getD undefined
    size := indexBound found
    has := fun name =>
      (found.lookup name).isSome || (rooted && decide (name ∈ objectPrototype))
    hasOwnProperty := fun name =>
      if rooted ∧ found.lookup "hasOwnProperty" = none then .ok (own.lookup name).isSome
      else .error .typeError
    -- a `toString` that the sender supplies is not callable, and `valueOf` gives no primitive
    toPrimitive := if rooted ∧ found.lookup "toString" = none then
        .ok fun _ => .str "[object Object]"
      else .error .typeError
    buffer := buffer
    isString := false }

def plain (own inherited : List (String × Foreign)) (rooted : Bool)
    (buffer : Except Exn (List UInt8)) : Foreign :=
  .object (plainAnswers own inherited rooted buffer)

/-- An array, with the text of its items joined. -/
def array (items : List Foreign) (joined : Except Exn String)
    (buffer : Except Exn (List UInt8)) : Foreign :=
  .object
    { get := fun name => .ok (if name = "length" then .prim (.num (.finite items.length))
        else if name ∈ arrayPrototype then native else undefined)
      item := fun i => (items[i]?).getD undefined
      size := items.length
      has := fun name => (List.range items.length).any (toString · = name) ||
        decide (name ∈ arrayPrototype)
      hasOwnProperty := fun name =>
        .ok ((List.range items.length).any (toString · = name) || name = "length")
      toPrimitive := joined.map fun text _ => .str text
      buffer := buffer
      isString := false }

theorem hasOwnProperty_plain (own inherited : List (String × Foreign)) (rooted : Bool)
    (buffer : Except Exn (List UInt8)) (name : String) :
    (plain own inherited rooted buffer).hasOwnProperty name =
      if rooted ∧ (own ++ inherited).lookup "hasOwnProperty" = none then
        .ok (own.lookup name).isSome
      else .error .typeError := rfl

/-! ## Plain data -/

section

variable (stringToNumber : String → Option Rat)

mutual

/-- Data without prototypes of its own. -/
def ofJson : Json → Foreign
  | .null => null
  | .bool b => .prim (.bool b)
  | .num q => .prim (.num (.finite q))
  | .str s => str s
  | .arr items => array (ofItems items) (Json.arr items).toKey
      (bufferFromHex stringToNumber (some (.arr items)))
  | .obj fields => plain (ofFields fields) [] true
      (bufferFromHex stringToNumber (some (.obj fields)))

def ofItems : List Json → List Foreign
  | [] => []
  | item :: rest => ofJson item :: ofItems rest

def ofFields : List (String × Json) → List (String × Foreign)
  | [] => []
  | (name, value) :: rest => (name, ofJson value) :: ofFields rest

end

/-- A property that may be missing. -/
def ofOption (value : Option Json) : Foreign :=
  value.elim undefined (ofJson stringToNumber)

end

variable {stringToNumber : String → Option Rat}

@[simp] theorem ofOption_some (value : Json) :
    ofOption stringToNumber (some value) = ofJson stringToNumber value := rfl

@[simp] theorem ofOption_none : ofOption stringToNumber none = undefined := rfl

theorem ofItems_eq_map (items : List Json) :
    ofItems stringToNumber items = items.map (ofJson stringToNumber) := by
  induction items with
  | nil => rw [ofItems, List.map_nil]
  | cons item rest ih => rw [ofItems, ih, List.map_cons]

theorem ofFields_eq_map (fields : List (String × Json)) : ofFields stringToNumber fields =
    fields.map fun field => (field.1, ofJson stringToNumber field.2) := by
  induction fields with
  | nil => rw [ofFields, List.map_nil]
  | cons field rest ih => rw [ofFields, ih, List.map_cons]

theorem lookup_ofFields (fields : List (String × Json)) (name : String) :
    (ofFields stringToNumber fields).lookup name =
      (fields.lookup name).map (ofJson stringToNumber) := by
  rw [ofFields_eq_map, lookup_mapValue]

theorem indexBound_ofFields (fields : List (String × Json)) :
    indexBound (ofFields stringToNumber fields) = indexBound fields := by
  induction fields with
  | nil => rw [ofFields]; rfl
  | cons field rest ih => rw [ofFields, indexBound, indexBound, ih]

theorem get_obj (fields : List (String × Json)) {name : String}
    (fresh : name ∉ objectPrototype) : (ofJson stringToNumber (.obj fields)).get name =
      .ok (ofOption stringToNumber (fields.lookup name)) := by
  rw [ofJson, plain, plainAnswers, get]
  simp only [List.append_nil, lookup_ofFields, fresh, and_false, if_false]
  cases fields.lookup name <;> rfl

/-- A name that neither an object nor an array inherits is read as an own property. -/
theorem get_ofJson {value : Json} (notNull : value ≠ .null) {name : String}
    (fresh : name ∉ arrayPrototype) :
    (ofJson stringToNumber value).get name = .ok (ofOption stringToNumber (value.get? name)) := by
  have notLength : name ≠ "length" := by
    rintro rfl
    exact fresh (by decide)
  cases value with
  | null => exact absurd rfl notNull
  | bool b => rfl
  | num q => rfl
  | str s => exact congrArg Except.ok (if_neg notLength)
  | arr items => exact congrArg Except.ok ((if_neg notLength).trans (if_neg fresh))
  | obj fields => exact get_obj fields fun member => fresh (List.mem_append_right _ member)

@[simp] theorem get_null (name : String) : null.get name = .error .typeError := rfl

@[simp] theorem get_undefined (name : String) : undefined.get name = .error .typeError := rfl

/-- Conversions of plain data. -/
theorem toPrimitive_ofJson (value : Json) (hint : Hint) :
    ((ofJson stringToNumber value).toPrimitive hint).map Primitive.text = value.toKey := by
  cases value with
  | null => rw [Json.toKey]; rfl
  | bool b => cases b <;> rw [Json.toKey] <;> rfl
  | num q => rw [Json.toKey]; rfl
  | str s => rw [Json.toKey]; rfl
  | arr items =>
      rw [ofJson, array, toPrimitive]
      cases (Json.arr items).toKey <;> rfl
  | obj fields =>
      rw [ofJson, plain, plainAnswers, toPrimitive, Json.toKey]
      simp only [List.append_nil, lookup_ofFields]
      cases fields.lookup "toString" <;> rfl

theorem toKey_ofOption (value : Option Json) :
    (ofOption stringToNumber value).toKey = keyOf value := by
  cases value with
  | none => rfl
  | some value => exact toPrimitive_ofJson value .string

theorem text_ofOption (value : Option Json) :
    (ofOption stringToNumber value).text = keyOf value := by
  cases value with
  | none => rfl
  | some value => exact toPrimitive_ofJson value .default

theorem is_ofJson (value : Json) (text : String) :
    (ofJson stringToNumber value).is text = decide (value = .str text) := by
  cases value with
  | str s =>
      rw [ofJson, is]
      exact decide_eq_decide.mpr (by rw [Json.str.injEq])
  | null | bool b | num q | arr items | obj fields =>
      rw [decide_eq_false fun same => by cases same]
      rfl

theorem hasOwnProperty_obj (fields : List (String × Json)) (name : String) :
    (ofJson stringToNumber (.obj fields)).hasOwnProperty name =
      if fields.lookup "hasOwnProperty" = none then .ok (fields.lookup name).isSome
      else .error .typeError := by
  rw [ofJson, hasOwnProperty_plain]
  simp only [List.append_nil, lookup_ofFields, true_and, Option.map_eq_none_iff,
    Option.isSome_map]

/-- What is no object has own properties at most under `length` and indexes. -/
theorem hasOwnProperty_of_not_obj {value : Json} (notNull : value ≠ .null)
    (notObj : ∀ fields, value ≠ .obj fields) {name : String} (notLength : name ≠ "length")
    (noIndex : name.toList.all Char.isDigit = false) :
    (ofJson stringToNumber value).hasOwnProperty name = .ok false := by
  cases value with
  | null => exact absurd rfl notNull
  | bool b => rfl
  | num q => rfl
  | str s =>
      rw [ofJson, hasOwnProperty, decide_eq_false notLength, any_index_eq_false noIndex]
      rfl
  | arr items =>
      rw [ofJson, array, hasOwnProperty]
      simp only [decide_eq_false notLength, any_index_eq_false noIndex, Bool.or_false]
  | obj fields => exact absurd rfl (notObj fields)

theorem buffer_ofOption (value : Option Json) :
    (ofOption stringToNumber value).buffer = bufferFromHex stringToNumber value := by
  cases value with
  | none => rfl
  | some value => cases value <;> rfl

/-! ## Loops over plain data -/

/-- The loop runs over every index of a value whose length counts them. -/
theorem loopItems_of_length {textToNumber : String → Number} {v : Foreign} {n : Nat}
    (isLength : v.get "length" = .ok (.prim (.num (.finite n)))) (isSize : v.size = n) :
    v.loopItems textToNumber = .ok ((List.range n).map (v.item ·)) := by
  have bound : min (Rat.ceil (n : Rat)).toNat (n + 1) = n := by
    rw [show (n : Rat).ceil = (n : Int) from Rat.ceil_intCast n, Int.toNat_natCast,
      Nat.min_eq_left (Nat.le_succ n)]
  rw [loopItems, isLength, isSize]
  change Except.ok (List.map _ (List.range (min (Rat.ceil (n : Rat)).toNat (n + 1)))) = _
  rw [bound]

/-- Without a length, nothing is read. -/
theorem loopItems_of_undefined {textToNumber : String → Number} {v : Foreign}
    (isLength : v.get "length" = .ok undefined) : v.loopItems textToNumber = .ok [] := by
  rw [loopItems, isLength]
  change Except.ok (List.map _ (List.range (min 0 _))) = _
  rw [Nat.zero_min]
  rfl

theorem toNumber_ofJson (notNumber : stringToNumber "[object Object]" = none) (value : Json) :
    (ofJson stringToNumber value).toNumber (fun s => .ofOption (stringToNumber s)) =
      (value.toNumber stringToNumber).map Number.ofOption := by
  cases value with
  | null => rfl
  | bool b => rfl
  | num q => rfl
  | str s => rfl
  | arr items =>
      rw [ofJson, array, toNumber, toPrimitive, Json.toNumber]
      cases (Json.arr items).toKey <;> rfl
  | obj fields =>
      rw [ofJson, plain, plainAnswers, toNumber, toPrimitive, Json.toNumber, Json.toKey]
      simp only [List.append_nil, lookup_ofFields]
      cases fields.lookup "toString" with
      | none => exact congrArg (fun q => Except.ok (Number.ofOption q)) notNumber
      | some _ => rfl

theorem item_obj {fields : List (String × Json)} {i : Nat} :
    (ofJson stringToNumber (.obj fields)).item i =
      ofOption stringToNumber (fields.lookup (toString i)) := by
  rw [ofJson, plain, plainAnswers, item]
  simp only [List.append_nil, indexBound_ofFields, lookup_ofFields]
  split
  · cases fields.lookup (toString i) <;> rfl
  · rename_i beyond
    rw [lookup_of_indexBound_le (Nat.le_of_not_lt beyond)]
    rfl

/-- Plain data is read item by item as it is listed. -/
theorem loopItems_ofOption (notNumber : stringToNumber "[object Object]" = none)
    (value : Option Json) :
    (ofOption stringToNumber value).loopItems (fun s => .ofOption (stringToNumber s)) =
      (Js.loopItems stringToNumber value).map (·.map (ofOption stringToNumber)) := by
  match value with
  | none | some .null => rfl
  | some (.bool _) | some (.num _) => exact loopItems_of_undefined rfl
  | some (.str s) =>
      refine (loopItems_of_length rfl rfl).trans (congrArg Except.ok ?_)
      refine List.ext_getElem (by simp [ofOption, ofJson, size]) fun i inside _ => ?_
      rw [List.length_map, List.length_range] at inside
      have inside : i < (codeUnits s).length := inside
      simp [ofOption, ofJson, item, inside]
  | some (.arr items) =>
      have length : (ofItems stringToNumber items).length = items.length := by
        rw [ofItems_eq_map, List.length_map]
      have isLength : (ofOption stringToNumber (some (.arr items))).get "length" =
          .ok (.prim (.num (.finite (ofItems stringToNumber items).length))) :=
        congrArg Except.ok (if_pos rfl)
      refine (loopItems_of_length isLength rfl).trans (congrArg Except.ok ?_)
      refine List.ext_getElem (by simp [length, ofOption, ofJson, array]) fun i _ inside => ?_
      rw [List.length_map, List.length_map] at inside
      simp [ofOption, ofJson, array, item, ofItems_eq_map, inside]
  | some (.obj fields) =>
      have isLength := @get_obj stringToNumber fields "length" (by decide)
      cases found : fields.lookup "length" with
      | none =>
          rw [found] at isLength
          rw [Js.loopItems, found]
          exact loopItems_of_undefined isLength
      | some length =>
          rw [found] at isLength
          rw [ofOption_some, loopItems, isLength, Js.loopItems, found]
          change ((ofJson stringToNumber length).toNumber _ >>= _) =
            (length.toNumber stringToNumber >>= _).map _
          rw [toNumber_ofJson notNumber]
          cases length.toNumber stringToNumber with
          | error exn => rfl
          | ok read =>
              have isSize : (ofJson stringToNumber (.obj fields)).size = indexBound fields := by
                simp only [ofJson, plain, plainAnswers, size, List.append_nil, indexBound_ofFields]
              cases read with
              | none =>
                  change Except.ok (List.map _ (List.range (min 0 _))) = Except.ok []
                  rw [Nat.zero_min]
                  rfl
              | some q =>
                  change Except.ok (List.map _ (List.range (min q.ceil.toNat _))) =
                    Except.ok (List.map _ (List.map _ _))
                  rw [isSize, List.map_map]
                  exact congrArg Except.ok (List.map_congr_left fun i _ => item_obj)

end Foreign

end Js
