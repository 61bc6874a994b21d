import EnigmaP2P.Core.Removal
import EnigmaP2P.Sync.ReceiveAll

/-!
# The core behind a sync

The core is not part of the repository. It is a parameter: some type of states, with what its
writes and removals make of a state, its tips, its answers to queries, and the deltas and
bytecodes that it has. What the senders of its messages expect it to do is stated as laws. What
is proved about a sync is proved about what the core has.

A core that keeps a list of contracts shows that the laws can be met.
-/

namespace Sync

open Js Common Ethereum Core

/-! ## What a write brings -/

/-- The bytes of an array of numbers. -/
def bytesOf : Json → Option (List UInt8)
  | .arr items => items.mapM fun item =>
      match item with
      | .num q => some (byteOf q)
      | _ => none
  | _ => none

/-- One delta of a write: its address, its index, which is a natural number, and its data. -/
def deltaOf (item : Json) : Option (String × Nat × List UInt8) :=
  match item.get? "address", item.get? "key", item.get? "data" with
  | some (.str address), some (.num key), some data =>
      if key = key.num.toNat then (bytesOf data).map (address, key.num.toNat, ·) else none
  | _, _, _ => none

/-- The write has the delta under the address and the index. -/
def Brings (write : CoreWrite) (address : String) (index : Nat) (data : List UInt8) : Prop :=
  ∃ items item, write = .updateDeltas (some (.arr items)) ∧ item ∈ items ∧
    deltaOf item = some (address, index, data)

/-- The write has the bytecode of the contract. -/
def BringsBytecode (write : CoreWrite) (address : String) (bytes : List UInt8) : Prop :=
  ∃ bytecode, write = .updateNewContract (some (.str address)) (some bytecode) ∧
    bytesOf bytecode = some bytes

@[simp] theorem bytesOf_ofBytes (bytes : List UInt8) : bytesOf (ofBytes bytes) = some bytes := by
  have mapped : ∀ numbers : List Rat,
      bytesOf (.arr (numbers.map .num)) = some (numbers.map byteOf) := by
    intro numbers
    change (numbers.map Json.num).mapM _ = _
    induction numbers with
    | nil => rfl
    | cons q rest ih =>
        rw [List.map_cons, List.mapM_cons, ih]
        rfl
  have numbers := @mapped (bytes.map fun byte => byte.toNat)
  rw [List.map_map] at numbers
  have same := bufferFromHex_ofBytes (fun _ => none) bytes
  have converted := bufferFromHex_numbers (fun _ => none) (bytes.map fun byte => byte.toNat)
  rw [List.map_map] at converted
  exact numbers.trans (congrArg some (Except.ok.inj (converted.symm.trans same)))

theorem deltaOf_deltaItem (address : String) (key : Nat) (data : List UInt8) :
    deltaOf (deltaItem address key data) = some (address, key, data) := by
  have found : deltaOf (deltaItem address key data) =
      if (key : Rat) = (key : Rat).num.toNat then
        (bytesOf (ofBytes data)).map (address, (key : Rat).num.toNat, ·)
      else none := rfl
  rw [found, if_pos (by simp), bytesOf_ofBytes]
  simp

/-- The deltas that are written for a range. -/
theorem brings_writeFor_state {contract : StoredContract} {msg : SyncStateReqMsg}
    {address : String} {index : Nat} {data : List UInt8} :
    Brings (writeFor contract (.state msg)) address index data ↔
      address = msg.contractAddress ∧ index ∈ msg.indexes ∧ data = contract.dataAt index := by
  constructor
  · rintro ⟨_, item, ⟨⟩, member, isDelta⟩
    obtain ⟨asked, inRange, rfl⟩ := List.mem_map.mp member
    rw [deltaOf_deltaItem] at isDelta
    cases isDelta
    exact ⟨rfl, inRange, rfl⟩
  · rintro ⟨rfl, inRange, rfl⟩
    exact ⟨_, _, rfl, List.mem_map_of_mem inRange, deltaOf_deltaItem _ _ _⟩

theorem not_bringsBytecode_writeFor_state {contract : StoredContract} {msg : SyncStateReqMsg}
    {address : String} {bytes : List UInt8} :
    ¬ BringsBytecode (writeFor contract (.state msg)) address bytes := by
  rintro ⟨_, ⟨⟩, -⟩

theorem not_brings_writeFor_bcode {contract : StoredContract} {msg : SyncBcodeReqMsg}
    {address : String} {index : Nat} {data : List UInt8} :
    ¬ Brings (writeFor contract (.bcode msg)) address index data := by
  rintro ⟨_, _, ⟨⟩, -⟩

theorem bringsBytecode_writeFor_bcode {contract : StoredContract} {msg : SyncBcodeReqMsg}
    {address : String} {bytes : List UInt8} :
    BringsBytecode (writeFor contract (.bcode msg)) address bytes ↔
      address = msg.contractAddress ∧ bytes = contract.bytecode := by
  constructor
  · rintro ⟨_, ⟨⟩, isBytes⟩
    rw [bytesOf_ofBytes] at isBytes
    cases isBytes
    exact ⟨rfl, rfl⟩
  · rintro ⟨rfl, rfl⟩
    exact ⟨_, rfl, bytesOf_ofBytes _⟩

/-! ## Cores -/

/-- A core with states of the type: what a write that gets the answer, and a removal, make of a
state, the answer to `GetAllTips`, the answers to queries with an id, and what the core has. -/
structure DbCore (σ : Type) where
  write : CoreWrite → CoreResponse → σ → σ
  remove : Removal → σ → σ
  tips : σ → List LocalTip
  answer : σ → String → String → Json → CoreResponse
  deltaAt : σ → String → Nat → Option (List UInt8)
  bytecodeAt : σ → String → Option (List UInt8)

/-- Whatever it answers, the core gets from a write nothing but what the write brings, and loses
no delta. A contract that gets a delta first may have an empty bytecode. The tips are deltas. -/
structure Additive {σ : Type} (core : DbCore σ) : Prop where
  deltas : ∀ {write response state address index data},
    core.deltaAt (core.write write response state) address index = some data →
      core.deltaAt state address index = some data ∨ Brings write address index data
  keeps : ∀ {write response state address index}, core.deltaAt state address index ≠ none →
    core.deltaAt (core.write write response state) address index ≠ none
  bytecode : ∀ {write response state address bytes},
    core.bytecodeAt (core.write write response state) address = some bytes →
      core.bytecodeAt state address = some bytes ∨
      bytes = [] ∧ core.bytecodeAt state address = none ∧
        (∃ index data, Brings write address index data) ∨
      BringsBytecode write address bytes
  tips : ∀ {state}, ∀ tip ∈ core.tips state,
    core.deltaAt state tip.address.normalized tip.key ≠ none

/-- The answer of a core that has done what it was asked. -/
def okAnswer : CoreResponse :=
  [("status", .num 0)]

/-- The core does what its messages ask for: what it acknowledges is written, ranges of deltas are
removed with their upper end, as a sync sends them, and read without it, as the mock core does,
and the tips are the last deltas. -/
structure Faithful {σ : Type} (core : DbCore σ) : Prop extends Additive core where
  written : ∀ {items state address index},
    (∀ item ∈ items, deltaOf item ≠ none) →
    (∃ data, Brings (.updateDeltas (some (.arr items))) address index data) →
    ∃ data, Brings (.updateDeltas (some (.arr items))) address index data ∧
      core.deltaAt (core.write (.updateDeltas (some (.arr items))) okAnswer state) address index =
        some data
  bytecodeWritten : ∀ {write state address bytes}, BringsBytecode write address bytes →
    core.bytecodeAt (core.write write okAnswer state) address = some bytes
  bytecodeKept : ∀ {write state address}, core.bytecodeAt state address ≠ none →
    (∀ bytes, ¬ BringsBytecode write address bytes) →
    core.bytecodeAt (core.write write okAnswer state) address = core.bytecodeAt state address
  contractRemoved : ∀ state address other,
    core.bytecodeAt (core.remove (.removeContract (some address)) state) other =
        (if other = address then none else core.bytecodeAt state other) ∧
      ∀ index, core.deltaAt (core.remove (.removeContract (some address)) state) other index =
        if other = address then none else core.deltaAt state other index
  deltasRemoved : ∀ state address (lower upper : Rat) other,
    let after := core.remove
      (.removeDeltas (some address) (some (.num lower)) (some (.num upper))) state
    core.bytecodeAt after other = core.bytecodeAt state other ∧
      ∀ index : Nat, core.deltaAt after other index =
        if other = address ∧ lower ≤ index ∧ (index : Rat) ≤ upper then none
        else core.deltaAt state other index
  lastTips : ∀ {state}, ∀ tip ∈ core.tips state, ∀ index,
    core.deltaAt state tip.address.normalized index ≠ none → index ≤ tip.key
  allTips : ∀ {state address index}, core.deltaAt state address index ≠ none →
    ∃ tip ∈ core.tips state, tip.address.normalized = address
  distinctTips : ∀ state, ((core.tips state).map fun tip => tip.address.normalized).Nodup
  answers : ∀ {state address} {contract : StoredContract} (id : String),
    core.bytecodeAt state address = some contract.bytecode →
    (∀ index data, contract.deltas.lookup index = some data →
      core.deltaAt state address index = some data) →
    AnswersFor (core.answer state id) id address contract

/-! ## The writes of a sync -/

section

variable {σ : Type} {core : DbCore σ} {contract : StoredContract} {state : σ}

/-- Under an address and index of which a write has nothing the core has what it had. -/
theorem Additive.deltaAt_write (additive : Additive core) {write : CoreWrite}
    {response : CoreResponse} {address : String} {index : Nat}
    (unnamed : ∀ data, ¬ Brings write address index data) :
    core.deltaAt (core.write write response state) address index =
      core.deltaAt state address index := by
  cases found : core.deltaAt (core.write write response state) address index with
  | some data => exact ((additive.deltas found).resolve_right (unnamed data)).symm
  | none =>
      by_contra held
      exact additive.keeps (fun isNone => held isNone.symm) found

/-- A bytecode that a write has nothing to do with is as it was. -/
theorem Faithful.bytecodeAt_write (faithful : Faithful core) {write : CoreWrite}
    {address : String} (unnamed : ∀ bytes, ¬ BringsBytecode write address bytes)
    (known : core.bytecodeAt state address ≠ none ∨
      ∀ index data, ¬ Brings write address index data) :
    core.bytecodeAt (core.write write okAnswer state) address =
      core.bytecodeAt state address := by
  cases before : core.bytecodeAt state address with
  | some bytes =>
      rw [← before]
      exact faithful.bytecodeKept (before ▸ Option.some_ne_none bytes) unnamed
  | none =>
      refine Option.eq_none_iff_forall_ne_some.mpr fun bytes found => ?_
      rcases faithful.bytecode found with held | ⟨-, -, index, data, brings⟩ | named
      · rw [before] at held
        cases held
      · exact (known.resolve_left fun isSome => isSome before) index data brings
      · exact unnamed bytes named

theorem Faithful.deltaAt_state (faithful : Faithful core) (msg : SyncStateReqMsg)
    (address : String) (index : Nat) :
    core.deltaAt (core.write (writeFor contract (.state msg)) okAnswer state) address index =
      if address = msg.contractAddress ∧ index ∈ msg.indexes then some (contract.dataAt index)
      else core.deltaAt state address index := by
  split
  · rename_i asked
    have readable : ∀ item ∈ itemsOf msg.contractAddress contract msg.indexes,
        deltaOf item ≠ none := by
      intro item member
      obtain ⟨key, -, rfl⟩ := List.mem_map.mp member
      rw [deltaOf_deltaItem]
      exact Option.some_ne_none _
    obtain ⟨data, brings, written⟩ := @Faithful.written _ _ faithful _ state _ _ readable
      ⟨contract.dataAt index, brings_writeFor_state.mpr ⟨asked.1, asked.2, rfl⟩⟩
    obtain ⟨-, -, rfl⟩ := brings_writeFor_state.mp brings
    exact written
  · rename_i unasked
    refine faithful.deltaAt_write fun data brings => ?_
    obtain ⟨isAddress, inRange, -⟩ := brings_writeFor_state.mp brings
    exact unasked ⟨isAddress, inRange⟩

/-- The writes for ranges of one contract bring the deltas of the ranges. -/
theorem Faithful.deltaAt_states (faithful : Faithful core) {contractAddress : String}
    {reqs : List SyncStateReqMsg} (own : ∀ req ∈ reqs, req.contractAddress = contractAddress)
    (address : String) (index : Nat) :
    core.deltaAt (((reqs.map SyncReqMsg.state).map (writeFor contract)).foldl
      (fun state write => core.write write okAnswer state) state) address index =
      if address = contractAddress ∧ index ∈ reqs.flatMap SyncStateReqMsg.indexes then
        some (contract.dataAt index)
      else core.deltaAt state address index := by
  induction reqs generalizing state with
  | nil => exact (if_neg fun brought => List.not_mem_nil brought.2).symm
  | cons req rest ih =>
      obtain ⟨isOwn, later⟩ := List.forall_mem_cons.mp own
      rw [List.map_cons, List.map_cons, List.foldl_cons, ih later, faithful.deltaAt_state, isOwn,
        List.flatMap_cons]
      by_cases here : address = contractAddress
      · by_cases first : index ∈ req.indexes <;> simp [here, first]
      · simp [here]

/-- The writes for ranges change no bytecode that is there, nor that of another contract. -/
theorem Faithful.bytecodeAt_states (faithful : Faithful core) {contractAddress : String}
    {reqs : List SyncStateReqMsg} (own : ∀ req ∈ reqs, req.contractAddress = contractAddress)
    {address : String} (kept : address ≠ contractAddress ∨ core.bytecodeAt state address ≠ none) :
    core.bytecodeAt (((reqs.map SyncReqMsg.state).map (writeFor contract)).foldl
      (fun state write => core.write write okAnswer state) state) address =
      core.bytecodeAt state address := by
  induction reqs generalizing state with
  | nil => rfl
  | cons req rest ih =>
      obtain ⟨isOwn, later⟩ := List.forall_mem_cons.mp own
      have same : core.bytecodeAt (core.write (writeFor contract (.state req)) okAnswer state)
          address = core.bytecodeAt state address := by
        refine faithful.bytecodeAt_write (fun _ => not_bringsBytecode_writeFor_state) ?_
        refine kept.symm.imp_right fun differs index data brings => ?_
        exact differs ((brings_writeFor_state.mp brings).1.trans isOwn)
      rw [List.map_cons, List.map_cons, List.foldl_cons, ih later (same ▸ kept), same]

/-- What the core makes of the writes of one contract. -/
def received (core : DbCore σ) (contract : StoredContract) (msgs : ReqMsgs) (state : σ) : σ :=
  (msgs.all.map (writeFor contract)).foldl (fun state write => core.write write okAnswer state)
    state

variable {contractData : MissingState} {msgs : ReqMsgs}

/-- The writes of one contract bring its missing deltas. -/
theorem Faithful.deltaAt_received (faithful : Faithful core)
    (requests : Requests contractData msgs) (address : String) (index : Nat) :
    core.deltaAt (received core contract msgs state) address index =
      if address = contractData.address ∧ index ∈ contractData.deltas.map (·.index) then
        some (contract.dataAt index)
      else core.deltaAt state address index := by
  obtain ⟨reqs, states, each, -, covered⟩ := requests.ranges
  have deltas := @Faithful.deltaAt_states _ _ contract state faithful _ reqs
    (fun req member => (each req member).1) address index
  rw [covered] at deltas
  rw [received, ReqMsgs.all, states, requests.bytecode, List.map_append, List.foldl_append]
  split
  · exact (faithful.deltaAt_write fun _ => not_brings_writeFor_bcode).trans deltas
  · exact deltas

/-- The bytecode comes last, if it is missing. -/
theorem Faithful.bytecodeAt_received_new (faithful : Faithful core)
    (requests : Requests contractData msgs) (isNew : contractData.bytecodeHash.isSome = true) :
    core.bytecodeAt (received core contract msgs state) contractData.address =
      some contract.bytecode := by
  obtain ⟨reqs, states, -⟩ := requests.ranges
  rw [received, ReqMsgs.all, states, requests.bytecode, List.map_append, List.foldl_append,
    if_pos isNew]
  exact faithful.bytecodeWritten (bringsBytecode_writeFor_bcode.mpr ⟨rfl, rfl⟩)

theorem Faithful.bytecodeAt_received_old (faithful : Faithful core)
    (requests : Requests contractData msgs) {address : String}
    (kept : address ≠ contractData.address ∨
      contractData.bytecodeHash.isSome = false ∧ core.bytecodeAt state address ≠ none) :
    core.bytecodeAt (received core contract msgs state) address =
      core.bytecodeAt state address := by
  obtain ⟨reqs, states, each, -⟩ := requests.ranges
  have brought := @Faithful.bytecodeAt_states _ _ contract state faithful _ reqs
    (fun req member => (each req member).1) address (kept.imp_right (·.2))
  rw [received, ReqMsgs.all, states, requests.bytecode, List.map_append, List.foldl_append]
  split
  · rename_i isNew
    rcases kept with differs | ⟨isOld, -⟩
    · refine (faithful.bytecodeAt_write (fun bytes named => ?_)
        (.inr fun _ _ => not_brings_writeFor_bcode)).trans brought
      exact differs (bringsBytecode_writeFor_bcode.mp named).1
    · rw [isOld] at isNew
      cases isNew
  · exact brought

end

end Sync
