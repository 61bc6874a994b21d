import Mathlib.Data.List.Basic
import Mathlib.Data.List.Nodup
import Mathlib.Data.List.Perm.Basic

/-!
# Objects as ordered lists of own properties

A plain object is the list of its own properties in the order they were created.
`entries` is the order in which the language enumerates them, which differs only
for array indexes. The `in` operator also answers for the properties that every
object inherits.
-/

namespace Js

variable {β : Type*}

/-- `o[key] = value`: an existing property keeps its place, a new one goes last. -/
def setField (key : String) (value : β) : List (String × β) → List (String × β)
  | [] => [(key, value)]
  | (k, v) :: rest =>
      if k = key then (key, value) :: rest else (k, v) :: setField key value rest

/-- The own properties after `o[key] = value`: the inherited setter `__proto__` adds none. It
ignores a primitive value, and takes an object as the new prototype. -/
def assignField (key : String) (value : β) (fields : List (String × β)) :
    List (String × β) :=
  if key = "__proto__" then fields else setField key value fields

/-- `delete o[key]`. -/
def deleteField (key : String) (fields : List (String × β)) : List (String × β) :=
  fields.filter (fun f => f.1 ≠ key)

private theorem lookup_cons_ite (key other : String) (value : β) (rest : List (String × β)) :
    ((key, value) :: rest).lookup other =
      if other = key then some value else rest.lookup other := by
  by_cases h : other = key
  · simp [h]
  · simp [List.lookup_cons, beq_false_of_ne h, h]

theorem lookup_setField (key other : String) (value : β) (fields : List (String × β)) :
    (setField key value fields).lookup other =
      if other = key then some value else fields.lookup other := by
  induction fields with
  | nil => exact lookup_cons_ite key other value []
  | cons f rest ih =>
      obtain ⟨k, v⟩ := f
      by_cases hk : k = key
      · subst hk
        simp only [setField, if_pos, lookup_cons_ite]
        split <;> rfl
      · simp only [setField, if_neg hk, lookup_cons_ite, ih]
        by_cases ho : other = k
        · simp [ho, hk]
        · simp [ho]

@[simp] theorem lookup_setField_self (key : String) (value : β) (fields : List (String × β)) :
    (setField key value fields).lookup key = some value := by
  rw [lookup_setField, if_pos rfl]

theorem lookup_setField_ne {key other : String} (h : other ≠ key) (value : β)
    (fields : List (String × β)) :
    (setField key value fields).lookup other = fields.lookup other := by
  rw [lookup_setField, if_neg h]

theorem lookup_deleteField (key other : String) (fields : List (String × β)) :
    (deleteField key fields).lookup other =
      if other = key then none else fields.lookup other := by
  induction fields with
  | nil => simp [deleteField]
  | cons f rest ih =>
      obtain ⟨k, v⟩ := f
      by_cases hk : k = key
      · subst hk
        have hdrop : deleteField k ((k, v) :: rest) = deleteField k rest := by
          simp [deleteField]
        rw [hdrop, ih, lookup_cons_ite]
        split <;> rfl
      · have hkeep : deleteField key ((k, v) :: rest) = (k, v) :: deleteField key rest := by
          simp [deleteField, hk]
        rw [hkeep, lookup_cons_ite, lookup_cons_ite, ih]
        by_cases ho : other = k
        · simp [ho, hk]
        · simp [ho]

@[simp] theorem lookup_deleteField_self (key : String) (fields : List (String × β)) :
    (deleteField key fields).lookup key = none := by
  rw [lookup_deleteField, if_pos rfl]

theorem lookup_deleteField_ne {key other : String} (h : other ≠ key)
    (fields : List (String × β)) :
    (deleteField key fields).lookup other = fields.lookup other := by
  rw [lookup_deleteField, if_neg h]

/-- A lookup commutes with a function of the values. -/
theorem lookup_mapValue {γ : Type*} (f : β → γ) (fields : List (String × β)) (key : String) :
    (fields.map fun field => (field.1, f field.2)).lookup key = (fields.lookup key).map f := by
  induction fields with
  | nil => rfl
  | cons field rest ih =>
      rw [List.map_cons, lookup_cons_ite, lookup_cons_ite, ih]
      split <;> rfl

/-- A key that the language sorts as a number when it enumerates an object. -/
def isArrayIndex (key : String) : Bool :=
  match key.toNat? with
  | some n => toString n = key && decide (n < 4294967295)
  | none => false

/-- The own properties in the order of `Object.keys` and `for … in`: array indexes
ascending, then the other keys as they were created. -/
def entries (fields : List (String × β)) : List (String × β) :=
  (fields.filter (fun f => isArrayIndex f.1)).mergeSort
      (fun f g => decide (f.1.toNat?.getD 0 ≤ g.1.toNat?.getD 0)) ++
    fields.filter (fun f => !isArrayIndex f.1)

/-- Enumeration only reorders. -/
theorem entries_perm (fields : List (String × β)) : (entries fields).Perm fields := by
  have sorted := List.mergeSort_perm (fields.filter (fun f => isArrayIndex f.1))
    (fun f g => decide (f.1.toNat?.getD 0 ≤ g.1.toNat?.getD 0))
  exact (sorted.append_right _).trans (List.filter_append_perm _ fields)

theorem entries_singleton (field : String × β) : entries [field] = [field] :=
  List.perm_singleton.mp (entries_perm [field])

/-- The properties that a plain object inherits. -/
def objectPrototype : List String :=
  ["constructor", "__defineGetter__", "__defineSetter__", "hasOwnProperty", "__lookupGetter__",
    "__lookupSetter__", "isPrototypeOf", "propertyIsEnumerable", "toString", "valueOf",
    "__proto__", "toLocaleString"]

/-- Properties of an array that are no indexes. -/
def arrayPrototype : List String :=
  ["length", "concat", "copyWithin", "entries", "every", "fill", "filter", "find", "findIndex",
    "forEach", "includes", "indexOf", "join", "keys", "lastIndexOf", "map", "pop", "push",
    "reduce", "reduceRight", "reverse", "shift", "slice", "some", "sort", "splice", "unshift",
    "values"] ++ objectPrototype

/-- `key in o` for a plain object. -/
def hasProperty (key : String) (fields : List (String × β)) : Bool :=
  (fields.lookup key).isSome || decide (key ∈ objectPrototype)

theorem hasProperty_of_lookup {key : String} {fields : List (String × β)} {value : β}
    (found : fields.lookup key = some value) : hasProperty key fields = true := by
  rw [hasProperty, found]
  rfl

/-- A key that names no property at all is not an own one. -/
theorem lookup_of_hasProperty_eq_false {key : String} {fields : List (String × β)}
    (absent : hasProperty key fields = false) : fields.lookup key = none := by
  cases found : fields.lookup key with
  | none => rfl
  | some value => cases absent.symm.trans (hasProperty_of_lookup found)

/-- For a key that is not inherited, `in` asks for an own property. -/
theorem hasProperty_eq_isSome {key : String} (h : key ∉ objectPrototype)
    (fields : List (String × β)) : hasProperty key fields = (fields.lookup key).isSome := by
  simp [hasProperty, h]

/-- With distinct keys, a lookup finds the property that is listed. -/
theorem lookup_eq_some_of_mem {fields : List (String × β)}
    (distinct : (fields.map (·.1)).Nodup) {key : String} {value : β}
    (listed : (key, value) ∈ fields) : fields.lookup key = some value := by
  induction fields with
  | nil => cases listed
  | cons f rest ih =>
      obtain ⟨hfresh, hrest⟩ := List.nodup_cons.mp distinct
      rw [lookup_cons_ite]
      rcases List.mem_cons.mp listed with rfl | later
      · rw [if_pos rfl]
      · rw [if_neg, ih hrest later]
        intro hk
        exact hfresh (List.mem_map.mpr ⟨_, later, hk⟩)

/-- What a lookup finds is listed. -/
theorem mem_of_lookup_eq_some {fields : List (String × β)} {key : String} {value : β}
    (found : fields.lookup key = some value) : (key, value) ∈ fields := by
  induction fields with
  | nil => cases found
  | cons f rest ih =>
      rw [lookup_cons_ite] at found
      by_cases hk : key = f.1
      · rw [if_pos hk, Option.some.injEq] at found
        rw [hk, ← found]
        exact List.mem_cons_self
      · rw [if_neg hk] at found
        exact List.mem_cons_of_mem _ (ih found)

/-- A new property goes last. -/
theorem setField_of_not_mem {key : String} {fields : List (String × β)}
    (fresh : key ∉ fields.map (·.1)) (value : β) :
    setField key value fields = fields ++ [(key, value)] := by
  induction fields with
  | nil => rfl
  | cons f rest ih =>
      obtain ⟨hne, hrest⟩ := not_or.mp (mt List.mem_cons.mpr fresh)
      rw [setField, if_neg (Ne.symm hne), ih hrest, List.cons_append]

/-- Assigning new, distinct keys in turn lists them behind what is there. -/
theorem foldl_setField {α : Type*} (key : α → String) (value : α → β) (items : List α)
    (fields : List (String × β)) (fresh : (fields.map (·.1) ++ items.map key).Nodup) :
    items.foldl (fun fields item => setField (key item) (value item) fields) fields =
      fields ++ items.map (fun item => (key item, value item)) := by
  induction items generalizing fields with
  | nil => simp
  | cons item rest ih =>
      have new : key item ∉ fields.map (·.1) := by
        intro member
        exact List.disjoint_of_nodup_append fresh member List.mem_cons_self
      rw [List.foldl_cons, setField_of_not_mem new, ih]
      · simp
      · simpa using fresh

/-- Among properties listed under distinct keys, each is found under its own. -/
theorem lookup_map_of_mem {α : Type*} {key : α → String} {items : List α}
    (distinct : (items.map key).Nodup) (value : α → β) {item : α} (listed : item ∈ items) :
    (items.map (fun item => (key item, value item))).lookup (key item) = some (value item) := by
  refine lookup_eq_some_of_mem ?_ (List.mem_map_of_mem listed)
  rw [List.map_map]
  exact distinct

/-- A property that is not found is not listed. -/
theorem not_mem_of_lookup_eq_none {fields : List (String × β)} {key : String}
    (absent : fields.lookup key = none) : key ∉ fields.map (·.1) := by
  induction fields with
  | nil => exact List.not_mem_nil
  | cons f rest ih =>
      rw [lookup_cons_ite] at absent
      by_cases hk : key = f.1
      · rw [if_pos hk] at absent
        cases absent
      · rw [if_neg hk] at absent
        rw [List.map_cons, List.mem_cons, not_or]
        exact ⟨hk, ih absent⟩

/-- A property that is not listed is not found. -/
theorem lookup_eq_none_of_not_mem {fields : List (String × β)} {key : String}
    (absent : key ∉ fields.map (·.1)) : fields.lookup key = none := by
  cases found : fields.lookup key with
  | none => rfl
  | some value => exact absurd (List.mem_map_of_mem (mem_of_lookup_eq_some found)) absent

/-- Deleting what is absent changes nothing. -/
theorem deleteField_of_not_mem {key : String} {fields : List (String × β)}
    (absent : key ∉ fields.map (·.1)) : deleteField key fields = fields := by
  refine List.filter_eq_self.mpr ?_
  intro f member
  rw [decide_eq_true_iff]
  rintro rfl
  exact absent (List.mem_map_of_mem member)

/-- Assigning the value that a property has changes nothing. -/
theorem setField_of_lookup {fields : List (String × β)} {key : String} {value : β}
    (found : fields.lookup key = some value) : setField key value fields = fields := by
  induction fields with
  | nil => cases found
  | cons f rest ih =>
      rw [lookup_cons_ite] at found
      by_cases hk : f.1 = key
      · rw [if_pos hk.symm] at found
        rw [setField, if_pos hk, ← hk, ← Option.some.inj found]
      · rw [if_neg (Ne.symm hk)] at found
        rw [setField, if_neg hk, ih found]

end Js
