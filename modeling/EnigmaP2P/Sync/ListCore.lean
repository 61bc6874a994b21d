import EnigmaP2P.Sync.CoreDatabase
import Mathlib.Data.List.Dedup

/-!
# A core that keeps a list of contracts

Writes go under the address and the index that they name, and what is answered with an error is
not done. The core meets the laws of a faithful core.
-/

namespace Sync

open Js Common Ethereum Core

namespace CoreDb

/-- The contract under an address, or a new one. -/
def contractAt (db : CoreDb) (address : String) : StoredContract :=
  (db.lookup address).getD ⟨[], []⟩

def putDelta (db : CoreDb) (delta : String × Nat × List UInt8) : CoreDb :=
  let contract := db.contractAt delta.1
  setField delta.1 { contract with deltas := delta.2 :: contract.deltas } db

def putBytecode (db : CoreDb) (address : String) (bytecode : List UInt8) : CoreDb :=
  let contract := db.contractAt address
  setField address { contract with bytecode } db

/-- `UpdateDeltas` and `UpdateNewContract`. A message of another form is refused. -/
def update (db : CoreDb) : CoreWrite → CoreDb
  | .updateDeltas (some (.arr items)) =>
      match items.mapM deltaOf with
      | some deltas => deltas.foldl putDelta db
      | none => db
  | .updateNewContract (some (.str address)) (some bytecode) =>
      match bytesOf bytecode with
      | some bytes => db.putBytecode address bytes
      | none => db
  | _ => db

/-- `RemoveContract`, and `RemoveDeltas` with the upper end. -/
def remove (db : CoreDb) : Removal → CoreDb
  | .removeContract (some address) => deleteField address db
  | .removeDeltas (some address) (some (.num lower)) (some (.num upper)) =>
      match db.lookup address with
      | none => db
      | some contract =>
          let kept := contract.deltas.filter fun delta =>
            !decide (lower ≤ delta.1 ∧ (delta.1 : Rat) ≤ upper)
          setField address { contract with deltas := kept } db
  | _ => db

/-- `GetAllTips`: the address and the last index of each contract that has deltas. -/
def tips (db : CoreDb) : List LocalTip :=
  (db.map (·.1)).dedup.filterMap fun address =>
    ((db.contractAt address).deltas.map (·.1)).max?.map fun key => ⟨.text address, key⟩

def deltaAt (db : CoreDb) (address : String) (index : Nat) : Option (List UInt8) :=
  (db.lookup address).bind (·.deltas.lookup index)

def bytecodeAt (db : CoreDb) (address : String) : Option (List UInt8) :=
  (db.lookup address).map (·.bytecode)

end CoreDb

def listCore : DbCore CoreDb where
  write message response db := if truthy? (updateDbError response) then db else db.update message
  remove message db := db.remove message
  tips := CoreDb.tips
  answer := coreAnswer
  deltaAt := CoreDb.deltaAt
  bytecodeAt := CoreDb.bytecodeAt

section

variable {db : CoreDb} {address : String}

theorem lookup_contractAt (index : Nat) :
    (db.contractAt address).deltas.lookup index = db.deltaAt address index := by
  rw [CoreDb.contractAt, CoreDb.deltaAt]
  cases db.lookup address <;> rfl

theorem deltaAt_putDelta (key : Nat) (data : List UInt8) (other : String) (index : Nat) :
    (db.putDelta (address, key, data)).deltaAt other index =
      if other = address ∧ index = key then some data else db.deltaAt other index := by
  rw [CoreDb.deltaAt, CoreDb.putDelta, lookup_setField]
  by_cases here : other = address
  · subst here
    rw [if_pos rfl, Option.bind_some, List.lookup_cons, ← lookup_contractAt]
    by_cases isKey : index = key
    · subst isKey
      rw [beq_self_eq_true, if_pos ⟨rfl, rfl⟩]
    · rw [beq_false_of_ne isKey, if_neg fun same => isKey same.2]
  · rw [if_neg here, if_neg fun same => here same.1]
    rfl

theorem bytecodeAt_putDelta (key : Nat) (data : List UInt8) (other : String) :
    (db.putDelta (address, key, data)).bytecodeAt other =
      if other = address then some ((db.bytecodeAt address).getD []) else db.bytecodeAt other := by
  rw [CoreDb.bytecodeAt, CoreDb.putDelta, lookup_setField]
  split
  · rw [CoreDb.bytecodeAt, CoreDb.contractAt]
    cases db.lookup address <;> rfl
  · rfl

theorem deltaAt_putBytecode (bytecode : List UInt8) (other : String) (index : Nat) :
    (db.putBytecode address bytecode).deltaAt other index = db.deltaAt other index := by
  rw [CoreDb.deltaAt, CoreDb.putBytecode, lookup_setField]
  split
  · rename_i here
    rw [here, Option.bind_some, lookup_contractAt]
  · rfl

theorem bytecodeAt_putBytecode (bytecode : List UInt8) (other : String) :
    (db.putBytecode address bytecode).bytecodeAt other =
      if other = address then some bytecode else db.bytecodeAt other := by
  rw [CoreDb.bytecodeAt, CoreDb.putBytecode, lookup_setField]
  split <;> rfl

/-! ## Writes -/

/-- Under an address and index there is one of the deltas of the list, or what was there. -/
theorem deltaAt_foldl_putDelta (deltas : List (String × Nat × List UInt8)) (index : Nat) :
    (∃ data, (address, index, data) ∈ deltas ∧
      (deltas.foldl CoreDb.putDelta db).deltaAt address index = some data) ∨
    (∀ data, (address, index, data) ∉ deltas) ∧
      (deltas.foldl CoreDb.putDelta db).deltaAt address index = db.deltaAt address index := by
  induction deltas generalizing db with
  | nil => exact .inr ⟨fun _ => List.not_mem_nil, rfl⟩
  | cons delta rest ih =>
      obtain ⟨other, key, bytes⟩ := delta
      rw [List.foldl_cons]
      rcases @ih (db.putDelta (other, key, bytes)) with ⟨data, member, later⟩ | ⟨unnamed, same⟩
      · exact .inl ⟨data, List.mem_cons_of_mem _ member, later⟩
      · rw [same, deltaAt_putDelta]
        split
        · rename_i here
          obtain ⟨rfl, rfl⟩ := here
          exact .inl ⟨bytes, List.mem_cons_self, rfl⟩
        · rename_i elsewhere
          refine .inr ⟨fun data member => ?_, rfl⟩
          rcases List.mem_cons.mp member with first | later
          · cases first
            exact elsewhere ⟨rfl, rfl⟩
          · exact unnamed data later

/-- Deltas make no bytecode but an empty one, and change none. -/
theorem bytecodeAt_foldl_putDelta (deltas : List (String × Nat × List UInt8)) :
    (deltas.foldl CoreDb.putDelta db).bytecodeAt address = db.bytecodeAt address ∨
      (deltas.foldl CoreDb.putDelta db).bytecodeAt address = some [] ∧
        db.bytecodeAt address = none ∧ ∃ index data, (address, index, data) ∈ deltas := by
  induction deltas generalizing db with
  | nil => exact .inl rfl
  | cons delta rest ih =>
      obtain ⟨other, key, data⟩ := delta
      have first := @bytecodeAt_putDelta db other key data address
      by_cases here : address = other
      · subst here
        rw [if_pos rfl] at first
        rw [List.foldl_cons]
        have named : ∃ index bytes, (address, index, bytes) ∈ (address, key, data) :: rest :=
          ⟨key, data, List.mem_cons_self⟩
        rcases @ih (db.putDelta (address, key, data)) with same | ⟨-, isNone, -⟩
        · cases known : db.bytecodeAt address with
          | none =>
              rw [known] at first
              exact .inr ⟨same.trans first, rfl, named⟩
          | some code =>
              rw [known] at first
              exact .inl (same.trans first)
        · rw [isNone] at first
          cases first
      · rw [if_neg here] at first
        rw [List.foldl_cons, ← first]
        refine (@ih (db.putDelta (other, key, data))).imp_right fun new => ?_
        obtain ⟨isEmpty, isNone, index, bytes, member⟩ := new
        exact ⟨isEmpty, isNone, index, bytes, List.mem_cons_of_mem _ member⟩

/-- What is read from a list is read from its items. -/
theorem mem_of_mapM_eq_some {α β : Type} {f : α → Option β} {items : List α} {results : List β}
    (mapped : items.mapM f = some results) {result : β} :
    result ∈ results ↔ ∃ item ∈ items, f item = some result := by
  induction items generalizing results with
  | nil =>
      cases mapped
      simp
  | cons item rest ih =>
      rw [List.mapM_cons] at mapped
      obtain ⟨first, isFirst, mapped⟩ := Option.bind_eq_some_iff.mp mapped
      obtain ⟨others, isRest, mapped⟩ := Option.bind_eq_some_iff.mp mapped
      cases mapped
      rw [List.mem_cons, ih isRest, List.exists_mem_cons_iff, isFirst]
      exact or_congr_left (by rw [Option.some_inj, eq_comm])

theorem exists_mapM_eq_some {α β : Type} {f : α → Option β} {items : List α}
    (readable : ∀ item ∈ items, f item ≠ none) : ∃ results, items.mapM f = some results := by
  induction items with
  | nil => exact ⟨[], rfl⟩
  | cons item rest ih =>
      obtain ⟨first, later⟩ := List.forall_mem_cons.mp readable
      obtain ⟨result, isResult⟩ := Option.ne_none_iff_exists'.mp first
      obtain ⟨results, mapped⟩ := ih later
      refine ⟨result :: results, ?_⟩
      rw [List.mapM_cons, isResult, mapped]
      rfl

/-- What a write of deltas brings is in the list that is read from it. -/
theorem brings_iff {items : List Json} {deltas : List (String × Nat × List UInt8)}
    (read : items.mapM deltaOf = some deltas) {index : Nat} {data : List UInt8} :
    Brings (.updateDeltas (some (.arr items))) address index data ↔
      (address, index, data) ∈ deltas := by
  rw [mem_of_mapM_eq_some read]
  constructor
  · rintro ⟨_, item, ⟨⟩, member, isDelta⟩
    exact ⟨item, member, isDelta⟩
  · rintro ⟨item, member, isDelta⟩
    exact ⟨items, item, rfl, member, isDelta⟩

/-- A write puts the deltas that it brings, the bytecode, or nothing. -/
theorem update_cases (write : CoreWrite) :
    (∃ items deltas, write = .updateDeltas (some (.arr items)) ∧
      items.mapM deltaOf = some deltas ∧ db.update write = deltas.foldl CoreDb.putDelta db) ∨
    (∃ address bytes, BringsBytecode write address bytes ∧
      db.update write = db.putBytecode address bytes) ∨
    db.update write = db := by
  rw [CoreDb.update.eq_def]
  split
  · split
    · rename_i items _ deltas read
      exact .inl ⟨items, deltas, rfl, read, rfl⟩
    · exact .inr (.inr rfl)
  · split
    · rename_i address bytecode _ bytes isBytes
      exact .inr (.inl ⟨address, bytes, ⟨bytecode, rfl, isBytes⟩, rfl⟩)
    · exact .inr (.inr rfl)
  · exact .inr (.inr rfl)

theorem update_bytecode {write : CoreWrite} {bytes : List UInt8}
    (brings : BringsBytecode write address bytes) :
    db.update write = db.putBytecode address bytes := by
  obtain ⟨bytecode, rfl, isBytes⟩ := brings
  rw [CoreDb.update, isBytes]

/-- A delta is one of the write, or is what was there. -/
theorem deltaAt_update (write : CoreWrite) (index : Nat) :
    (∃ data, Brings write address index data ∧
      (db.update write).deltaAt address index = some data) ∨
    (db.update write).deltaAt address index = db.deltaAt address index := by
  rcases @update_cases db write with ⟨items, deltas, rfl, read, updated⟩ |
    ⟨other, bytes, -, updated⟩ | updated
  · rw [updated]
    rcases deltaAt_foldl_putDelta deltas index with ⟨data, member, found⟩ | ⟨-, same⟩
    · exact .inl ⟨data, (brings_iff read).mpr member, found⟩
    · exact .inr same
  · rw [updated, deltaAt_putBytecode]
    exact .inr rfl
  · rw [updated]
    exact .inr rfl

/-- A bytecode is as before a write, or is the empty one of a new contract, or is that of the
write. -/
theorem bytecodeAt_update (write : CoreWrite) :
    (db.update write).bytecodeAt address = db.bytecodeAt address ∨
      ((db.update write).bytecodeAt address = some [] ∧ db.bytecodeAt address = none ∧
        ∃ index data, Brings write address index data) ∨
      ∃ bytes, BringsBytecode write address bytes ∧
        (db.update write).bytecodeAt address = some bytes := by
  rcases @update_cases db write with ⟨items, deltas, rfl, read, updated⟩ |
    ⟨other, bytes, brings, updated⟩ | updated
  · rw [updated]
    refine (bytecodeAt_foldl_putDelta deltas).imp_right fun new => .inl ?_
    obtain ⟨isEmpty, isNone, index, data, member⟩ := new
    exact ⟨isEmpty, isNone, index, data, (brings_iff read).mpr member⟩
  · rw [updated, bytecodeAt_putBytecode]
    split
    · rename_i here
      subst here
      exact .inr (.inr ⟨bytes, brings, rfl⟩)
    · exact .inl rfl
  · rw [updated]
    exact .inl rfl

/-! ## Removals -/

/-- The entries whose keys are kept. -/
theorem lookup_filter_key (keep : Nat → Bool) (entries : List (Nat × List UInt8)) (key : Nat) :
    (entries.filter fun entry => keep entry.1).lookup key =
      if keep key then entries.lookup key else none := by
  induction entries with
  | nil => simp
  | cons entry rest ih =>
      obtain ⟨other, data⟩ := entry
      rw [List.filter_cons, List.lookup_cons]
      by_cases same : key = other
      · subst same
        by_cases kept : keep key = true
        · rw [if_pos kept, if_pos kept, List.lookup_cons, beq_self_eq_true]
        · rw [if_neg kept, if_neg kept, ih, if_neg kept]
      · rw [beq_false_of_ne same]
        by_cases kept : keep other = true
        · rw [if_pos kept, List.lookup_cons, beq_false_of_ne same]
          exact ih
        · rw [if_neg kept]
          exact ih

theorem deltaAt_removeDeltas (lower upper : Rat) (other : String) (index : Nat) :
    (db.remove (.removeDeltas (some address) (some (.num lower))
      (some (.num upper)))).deltaAt other index =
      if other = address ∧ lower ≤ index ∧ (index : Rat) ≤ upper then none
      else db.deltaAt other index := by
  rw [CoreDb.remove]
  cases found : db.lookup address with
  | none =>
      change db.deltaAt other index = _
      split
      · rename_i removed
        rw [removed.1, CoreDb.deltaAt, found, Option.bind_none]
      · rfl
  | some contract =>
      rw [CoreDb.deltaAt, lookup_setField]
      by_cases here : other = address
      · subst here
        rw [if_pos rfl, Option.bind_some, CoreDb.deltaAt, found, Option.bind_some,
          lookup_filter_key fun key => !decide (lower ≤ key ∧ (key : Rat) ≤ upper)]
        by_cases cut : lower ≤ index ∧ (index : Rat) ≤ upper <;> simp [cut]
      · rw [if_neg here, if_neg fun same => here same.1]
        rfl

theorem bytecodeAt_removeDeltas (lower upper : Rat) (other : String) :
    (db.remove (.removeDeltas (some address) (some (.num lower))
      (some (.num upper)))).bytecodeAt other = db.bytecodeAt other := by
  rw [CoreDb.remove]
  cases found : db.lookup address with
  | none => rfl
  | some contract =>
      rw [CoreDb.bytecodeAt, lookup_setField]
      split
      · rename_i here
        rw [here, CoreDb.bytecodeAt, found]
        rfl
      · rfl

/-! ## Tips -/

theorem mem_keys_iff {index : Nat} :
    index ∈ (db.contractAt address).deltas.map (·.1) ↔ db.deltaAt address index ≠ none := by
  rw [← lookup_contractAt, ← Option.isSome_iff_ne_none, List.lookup_isSome_iff, List.mem_map]
  constructor
  · rintro ⟨delta, member, rfl⟩
    exact ⟨delta, member, beq_self_eq_true _⟩
  · rintro ⟨delta, member, same⟩
    exact ⟨delta, member, (eq_of_beq same).symm⟩

/-- A tip has the last index of its contract. -/
theorem of_mem_tips {tip : LocalTip} (member : tip ∈ db.tips) :
    ∃ address, tip = ⟨.text address, tip.key⟩ ∧
      ((db.contractAt address).deltas.map (·.1)).max? = some tip.key := by
  obtain ⟨address, -, isTip⟩ := List.mem_filterMap.mp member
  obtain ⟨key, isMax, rfl⟩ := Option.map_eq_some_iff.mp isTip
  exact ⟨address, rfl, isMax⟩

theorem nodup_tips (db : CoreDb) : (db.tips.map fun tip => tip.address.normalized).Nodup := by
  rw [CoreDb.tips, List.map_filterMap]
  refine List.Nodup.filterMap ?_ (List.nodup_dedup _)
  intro address other name isName isOther
  simp only [Option.mem_def, Option.map_map, Option.map_eq_some_iff, Function.comp_apply,
    TipAddress.normalized] at isName isOther
  obtain ⟨-, -, rfl⟩ := isName
  obtain ⟨-, -, rfl⟩ := isOther
  rfl

theorem exists_tip {index : Nat} (held : db.deltaAt address index ≠ none) :
    ∃ tip ∈ db.tips, tip.address.normalized = address := by
  have inKeys := mem_keys_iff.mpr held
  obtain ⟨key, isMax⟩ := Option.ne_none_iff_exists'.mp
    (mt List.max?_eq_none_iff.mp (List.ne_nil_of_mem inKeys))
  refine ⟨⟨.text address, key⟩, List.mem_filterMap.mpr ⟨address, ?_, ?_⟩, rfl⟩
  · refine List.mem_dedup.mpr ?_
    obtain ⟨contract, found⟩ := Option.ne_none_iff_exists'.mp
      (show db.lookup address ≠ none from fun isNone => held (by rw [CoreDb.deltaAt, isNone]; rfl))
    exact List.mem_map_of_mem (mem_of_lookup_eq_some found)
  · rw [isMax]
    rfl

end

/-! ## The laws -/

theorem additive_listCore : Additive listCore where
  deltas := by
    intro write response db address index data found
    simp only [listCore] at found ⊢
    split at found
    · exact .inl found
    · rcases deltaAt_update write index with ⟨brought, brings, isBrought⟩ | same
      · cases isBrought.symm.trans found
        exact .inr brings
      · exact .inl (same.symm.trans found)
  keeps := by
    intro write response db address index held
    simp only [listCore] at held ⊢
    split
    · exact held
    · rcases deltaAt_update write index with ⟨brought, -, isBrought⟩ | same
      · rw [isBrought]
        exact Option.some_ne_none brought
      · rw [same]
        exact held
  bytecode := by
    intro write response db address bytes found
    simp only [listCore] at found ⊢
    split at found
    · exact .inl found
    · rcases bytecodeAt_update write with same | ⟨isEmpty, new⟩ | ⟨brought, brings, isBrought⟩
      · exact .inl (same.symm.trans found)
      · exact .inr (.inl ⟨(Option.some.inj (isEmpty.symm.trans found)).symm, new⟩)
      · cases isBrought.symm.trans found
        exact .inr (.inr brings)
  tips := by
    intro db tip member
    obtain ⟨address, same, isMax⟩ := of_mem_tips member
    rw [same]
    exact mem_keys_iff.mp (List.max?_mem isMax)

/-- What is acknowledged is done. -/
theorem listCore_write_ok (write : CoreWrite) (db : CoreDb) :
    listCore.write write okAnswer db = db.update write := rfl

theorem faithful_listCore : Faithful listCore where
  toAdditive := additive_listCore
  written := by
    intro items db address index readable ⟨data, brings⟩
    rw [listCore_write_ok]
    obtain ⟨deltas, read⟩ := exists_mapM_eq_some readable
    rw [CoreDb.update, read]
    rcases deltaAt_foldl_putDelta deltas index with ⟨found, member, isFound⟩ | ⟨unnamed, -⟩
    · exact ⟨found, (brings_iff read).mpr member, isFound⟩
    · exact absurd ((brings_iff read).mp brings) (unnamed data)
  bytecodeWritten := by
    intro write db address bytes brings
    rw [listCore_write_ok, update_bytecode brings]
    exact (bytecodeAt_putBytecode _ _).trans (if_pos rfl)
  bytecodeKept := by
    intro write db address known unnamed
    rw [listCore_write_ok]
    rcases @bytecodeAt_update db address write with same | ⟨-, isNone, -⟩ | ⟨bytes, brings, -⟩
    · exact same
    · exact absurd isNone known
    · exact absurd brings (unnamed bytes)
  contractRemoved := by
    intro db address other
    change (CoreDb.bytecodeAt (deleteField address db) other = _) ∧
      ∀ index, CoreDb.deltaAt (deleteField address db) other index = _
    simp only [CoreDb.bytecodeAt, CoreDb.deltaAt, lookup_deleteField]
    split
    · exact ⟨rfl, fun _ => rfl⟩
    · exact ⟨rfl, fun _ => rfl⟩
  deltasRemoved := fun db address lower upper other =>
    ⟨bytecodeAt_removeDeltas lower upper other, deltaAt_removeDeltas lower upper other⟩
  lastTips := by
    intro db tip member index held
    obtain ⟨address, same, isMax⟩ := of_mem_tips member
    rw [same] at held
    exact (List.max?_eq_some_iff.mp isMax).2 index (mem_keys_iff.mpr held)
  allTips := exists_tip
  distinctTips := nodup_tips
  answers := by
    intro db address contract id isBytecode held
    obtain ⟨stored, found, same⟩ := Option.map_eq_some_iff.mp isBytecode
    refine (answersFor_coreAnswer found id).of_le same fun index data isHeld => ?_
    have isStored : CoreDb.deltaAt db address index = some data := held index data isHeld
    rw [CoreDb.deltaAt, found] at isStored
    exact isStored

end Sync
