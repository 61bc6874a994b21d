import EnigmaP2P.Js.Object
import EnigmaP2P.Transition.Runs
import Std.Data.TreeMap

/-!
# The database

`LevelDbApi` turns the calls of a level store into callbacks. The store is an ordered map
from texts to values, and its read stream emits the data in the order of the keys, then its
end and its close, or some of the data, an error and its close.

A function of the API is what it does to the map and which calls of its callback it makes.
The reference map performs the same operations and answers each of them once.
-/

namespace Db

open Js Transition

/-- What a callback gets as its error. -/
inductive DbErr where
  /-- The store has no value for the key. -/
  | notFound (key : String)
  /-- The error of a read stream. -/
  | readStream
  | text (message : String)
  deriving DecidableEq

/-- What a callback gets as its result. -/
inductive Found (ν : Type) where
  | value (value : ν)
  | keys (keys : List String)
  | all (fields : List (String × ν))
  deriving DecidableEq

/-- The arguments of a call of a callback. -/
structure Answer (ν : Type) where
  err : Option DbErr
  result : Option (Found ν)
  deriving DecidableEq

/-- The entries of the store. -/
abbrev Contents (ν : Type) := Std.TreeMap String ν

/-- The contents after some code, and the calls of the callback that it made. -/
abbrev Calls (ν : Type) := Contents ν → Contents ν × List (Answer ν)

variable {ν ι : Type}

/-- The callback of a caller is called. -/
def Calls.answer (answer : Answer ν) : Calls ν := fun db => (db, [answer])

def Calls.skip : Calls ν := fun db => (db, [])

/-- One handler after the other. -/
def Calls.andThen (first second : Calls ν) : Calls ν := fun db =>
  let (next, calls) := first db
  let (last, later) := second next
  (last, calls ++ later)

@[simp] theorem Calls.answer_apply (answer : Answer ν) (db : Contents ν) :
    Calls.answer answer db = (db, [answer]) := rfl

@[simp] theorem Calls.skip_apply (db : Contents ν) : Calls.skip db = (db, []) := rfl

/-! ## The read stream -/

inductive StreamEvent (ι : Type) where
  | data (item : ι)
  | error
  | close
  | ends

/-- What the stream emits for the entries, if it fails after some of them or does not. -/
def streamEvents (failsAfter : Option Nat) (items : List ι) : List (StreamEvent ι) :=
  match failsAfter with
  | none => items.map .data ++ [.ends, .close]
  | some number => (items.take number).map .data ++ [.error, .close]

/-- The handlers of `_readFromDB`. -/
def onStream (callback : Option DbErr → List ι → Calls ν) :
    List ι → List (StreamEvent ι) → Calls ν
  | _, [] => .skip
  | info, .data item :: events => onStream callback (info ++ [item]) events
  | info, .error :: events =>
      (callback (some .readStream) []).andThen (onStream callback info events)
  | info, .close :: events =>
      (callback (some (.text
        "the read-stream closed unexpectedly while trying to read from DB")) []).andThen
        (onStream callback info events)
  | info, .ends :: events => (callback none info).andThen (onStream callback info events)

/-- `_readFromDB`; `read` is what the options select of an entry. -/
def readFromDB (failsAfter : Option Nat) (read : String × ν → ι)
    (callback : Option DbErr → List ι → Calls ν) : Calls ν := fun db =>
  onStream callback [] (streamEvents failsAfter (db.toList.map read)) db

/-! ## The functions of the API -/

section

variable (undefinedValue : ν)

/-- What the store keeps for a value. -/
def stored (value : Option ν) : ν := value.getD undefinedValue

def delete (key : String) (callback : Answer ν → Calls ν) : Calls ν := fun db =>
  callback ⟨none, none⟩ (db.erase key)

def put (key : String) (value : Option ν) (callback : Answer ν → Calls ν) : Calls ν := fun db =>
  callback ⟨none, none⟩ (db.insert key (stored undefinedValue value))

def get (key : String) (callback : Option DbErr → Option ν → Calls ν) : Calls ν := fun db =>
  match db[key]? with
  | none => callback (some (.notFound key)) none db
  | some value => callback none (some value) db

def getAllKeys (failsAfter : Option Nat) (callback : Answer ν → Calls ν) : Calls ν :=
  readFromDB failsAfter Prod.fst fun err list =>
    callback ⟨err, if err.isSome then none else some (.keys list)⟩

/-- The object that `getAll` makes of the list. -/
def fieldsOf (list : List (String × ν)) : List (String × ν) :=
  list.foldl (fun res item => assignField item.1 item.2 res) []

def getAll (failsAfter : Option Nat) (callback : Answer ν → Calls ν) : Calls ν :=
  readFromDB failsAfter id fun err list =>
    match err with
    | none => (callback ⟨none, some (.all (fieldsOf list))⟩).andThen (callback ⟨none, none⟩)
    | some err => callback ⟨some err, none⟩

/-- `safePut`: the callback of `get` has a parameter `value` too. -/
def safePut (key : String) (_value : Option ν) (callback : Answer ν → Calls ν) : Calls ν :=
  get key fun err value =>
    match err with
    | some _ => put undefinedValue key value callback
    | none => callback ⟨some (.text "value exists"), none⟩

def putBatch (objs : List (String × Option ν)) (callback : Answer ν → Calls ν) : Calls ν :=
  fun db => callback ⟨none, none⟩
    (objs.foldl (fun db o => db.insert o.1 (stored undefinedValue o.2)) db)

end

/-! ## Sequences of operations -/

/-- An operation of a caller. A read of the whole store says where its stream fails, if it
does. -/
inductive Op (ν : Type) where
  | put (key : String) (value : Option ν)
  | delete (key : String)
  | safePut (key : String) (value : Option ν)
  | putBatch (objs : List (String × Option ν))
  | get (key : String)
  | getAll (failsAfter : Option Nat)
  | getAllKeys (failsAfter : Option Nat)
  deriving DecidableEq

/-- What the API does. -/
def perform (undefinedValue : ν) : Op ν → Calls ν
  | .put key value => put undefinedValue key value .answer
  | .delete key => delete key .answer
  | .safePut key value => safePut undefinedValue key value .answer
  | .putBatch objs => putBatch undefinedValue objs .answer
  | .get key => get key fun err value => .answer ⟨err, value.map .value⟩
  | .getAll failsAfter => getAll failsAfter .answer
  | .getAllKeys failsAfter => getAllKeys failsAfter .answer

/-- The answer of the reference map to an operation. -/
def referenceAnswer (db : Contents ν) : Op ν → Answer ν
  | .put .. | .delete _ | .putBatch _ => ⟨none, none⟩
  | .safePut key _ =>
      match db[key]? with
      | none => ⟨none, none⟩
      | some _ => ⟨some (.text "value exists"), none⟩
  | .get key =>
      match db[key]? with
      | none => ⟨some (.notFound key), none⟩
      | some value => ⟨none, some (.value value)⟩
  | .getAll none => ⟨none, some (.all (fieldsOf db.toList))⟩
  | .getAllKeys none => ⟨none, some (.keys (db.toList.map Prod.fst))⟩
  | .getAll (some _) | .getAllKeys (some _) => ⟨some .readStream, none⟩

/-- The reference map after an operation. -/
def referenceStep (undefinedValue : ν) (db : Contents ν) : Op ν → Contents ν
  | .put key value => db.insert key (stored undefinedValue value)
  | .delete key => db.erase key
  | .safePut key value =>
      match db[key]? with
      | none => db.insert key (stored undefinedValue value)
      | some _ => db
  | .putBatch objs => objs.foldl (fun db o => db.insert o.1 (stored undefinedValue o.2)) db
  | .get _ | .getAll _ | .getAllKeys _ => db

/-- The reference map answers every operation once. -/
def reference (undefinedValue : ν) (op : Op ν) : Calls ν := fun db =>
  (referenceStep undefinedValue db op, [referenceAnswer db op])

/-- An operation that reads no stream, and that does not store another value in place of the
one it was given. -/
def OpClear (undefinedValue : ν) (db : Contents ν) : Op ν → Prop
  | .safePut key value => key ∈ db ∨ stored undefinedValue value = undefinedValue
  | .getAll _ | .getAllKeys _ => False
  | _ => True

section

variable {undefinedValue : ν} {db : Contents ν}

/-- The data of a stream is collected. -/
theorem onStream_data (callback : Option DbErr → List ι → Calls ν) (info items : List ι)
    (events : List (StreamEvent ι)) :
    onStream callback info (items.map .data ++ events) =
      onStream callback (info ++ items) events := by
  induction items generalizing info with
  | nil => rw [List.map_nil, List.nil_append, List.append_nil]
  | cons item items ih =>
      rw [List.map_cons, List.cons_append, onStream, ih, List.append_assoc]
      rfl

/-- A stream that ends calls back at its end, and again when it is closed. -/
theorem readFromDB_none (read : String × ν → ι) (callback : Option DbErr → List ι → Calls ν) :
    readFromDB none read callback db =
      ((callback none (db.toList.map read)).andThen
        ((callback (some (.text
          "the read-stream closed unexpectedly while trying to read from DB")) []).andThen
          .skip)) db := by
  rw [readFromDB, streamEvents, onStream_data]
  rfl

/-- A stream that fails calls back with its error, and again when it is closed. -/
theorem readFromDB_some (number : Nat) (read : String × ν → ι)
    (callback : Option DbErr → List ι → Calls ν) :
    readFromDB (some number) read callback db =
      ((callback (some .readStream) []).andThen
        ((callback (some (.text
          "the read-stream closed unexpectedly while trying to read from DB")) []).andThen
          .skip)) db := by
  rw [readFromDB, streamEvents, onStream_data]
  rfl

theorem get_of_mem {key : String} {value : ν} (found : db[key]? = some value)
    (callback : Option DbErr → Option ν → Calls ν) :
    get key callback db = callback none (some value) db := by
  rw [get, found]

theorem get_of_not_mem {key : String} (absent : db[key]? = none)
    (callback : Option DbErr → Option ν → Calls ν) :
    get key callback db = callback (some (.notFound key)) none db := by
  rw [get, absent]

/-- The callback of `getAll` is called three times, or twice if the stream fails. -/
theorem length_getAll (failsAfter : Option Nat) :
    (getAll failsAfter .answer db).2.length = if failsAfter = none then 3 else 2 := by
  cases failsAfter with
  | none =>
      rw [getAll, readFromDB_none]
      rfl
  | some number =>
      rw [getAll, readFromDB_some]
      rfl

/-- The callback of `getAllKeys` is called twice. -/
theorem length_getAllKeys (failsAfter : Option Nat) :
    (getAllKeys failsAfter .answer db).2.length = 2 := by
  cases failsAfter with
  | none =>
      rw [getAllKeys, readFromDB_none]
      rfl
  | some number =>
      rw [getAllKeys, readFromDB_some]
      rfl

/-- A step is that of the reference map exactly if it is clear. -/
theorem perform_eq_reference_iff (op : Op ν) :
    perform undefinedValue op db = reference undefinedValue op db ↔
      OpClear undefinedValue db op := by
  cases op with
  | safePut key value =>
      have present : key ∈ db ↔ (db[key]?).isSome := Std.TreeMap.mem_iff_isSome_getElem?
      rw [OpClear, present, perform, safePut, reference, referenceStep, referenceAnswer]
      cases found : db[key]? with
      | none =>
          rw [get_of_not_mem found]
          simp only [put, stored, Option.getD_none, Calls.answer_apply, Prod.mk.injEq, and_true,
            Option.isSome_none, Bool.false_eq_true, false_or]
          constructor
          · intro same
            have looked := congrArg (fun db => db[key]?) same
            simp only [Std.TreeMap.getElem?_insert_self, Option.some.injEq] at looked
            exact looked.symm
          · intro same
            rw [same]
      | some other =>
          rw [get_of_mem found]
          exact iff_of_true rfl (.inl rfl)
  | get key =>
      refine iff_of_true ?_ trivial
      rw [perform, reference, referenceStep, referenceAnswer]
      cases found : db[key]? with
      | none =>
          rw [get_of_not_mem found]
          rfl
      | some value =>
          rw [get_of_mem found]
          rfl
  | getAll failsAfter =>
      refine iff_of_false (fun same => ?_) id
      have calls : (getAll failsAfter .answer db).2.length = 1 :=
        congrArg (fun calls => calls.2.length) same
      rw [length_getAll] at calls
      split at calls <;> omega
  | getAllKeys failsAfter =>
      refine iff_of_false (fun same => ?_) id
      have calls : (getAllKeys failsAfter .answer db).2.length = 1 :=
        congrArg (fun calls => calls.2.length) same
      rw [length_getAllKeys] at calls
      omega
  | _ => exact iff_of_true rfl trivial

end

/-- A sequence of operations has the calls and the contents of the reference map after every
operation exactly if every operation of it is clear. -/
theorem trace_eq_reference_iff (undefinedValue : ν) (db : Contents ν) (ops : List (Op ν)) :
    trace (fun db op => perform undefinedValue op db) db ops =
        trace (fun db op => reference undefinedValue op db) db ops ↔
      Meets (OpClear undefinedValue) (fun db op => (perform undefinedValue op db).1) db ops :=
  trace_eq_iff.trans (meets_iff fun _ op => perform_eq_reference_iff op)

/-- `safePut` stores what its own read did not find, and a read of the keys calls back twice. -/
theorem trace_examples :
    (trace (fun db op => perform "" op db) ∅
      [.safePut "key" (some "value"), .get "key"]).map Prod.snd =
        [[⟨none, none⟩], [⟨none, some (.value "")⟩]] ∧
    (trace (fun db op => reference "" op db) ∅
      [.safePut "key" (some "value"), .get "key"]).map Prod.snd =
        [[⟨none, none⟩], [⟨none, some (.value "value")⟩]] ∧
    (perform "" (.getAllKeys none) ∅).2 =
      [⟨none, some (.keys [])⟩, ⟨some (.text
        "the read-stream closed unexpectedly while trying to read from DB"), none⟩] := by
  refine ⟨?_, ?_, ?_⟩
  · simp [trace, perform, safePut, get, put, stored]
  · simp [trace, reference, referenceStep, referenceAnswer, stored]
  · rw [perform, getAllKeys, readFromDB_none]
    rfl

/-- The reference map answers otherwise, and once. -/
theorem trace_wrong :
    trace (fun db op => perform "" op db) ∅ [.safePut "key" (some "value"), .get "key"] ≠
      trace (fun db op => reference "" op db) ∅
        [.safePut "key" (some "value"), .get "key"] ∧
    (perform "" (.getAllKeys none) ∅).2 ≠
      (reference "" (.getAllKeys none) ∅).2 := by
  obtain ⟨stores, keeps, twice⟩ := trace_examples
  constructor
  · intro same
    rw [same, keeps] at stores
    simp at stores
  · intro same
    have lengths := congrArg List.length (twice.symm.trans same)
    cases lengths

end Db
