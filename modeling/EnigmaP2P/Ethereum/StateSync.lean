import EnigmaP2P.Common.Utils
import EnigmaP2P.Js.Object
import EnigmaP2P.Replica.Store

/-!
# Comparing the local state with the chain

`compareLocalStateToRemote` computes what a node misses and what it has in excess.
The reader of the Enigma contract is given by its two answers. A plan is applied to
a replica whose contracts are append-only logs of delta hashes: a missing delta is
appended only at the end of the log, and bytecode is added only where the contract
is absent. Reconciliation says that the plan is accepted and reaches the contracts
of the chain.
-/

namespace Ethereum

open Js Common Replica

/-- What the reader returns for a secret contract, as far as the node reads it. -/
structure ContractParams where
  codeHash : String
  deltaHashes : List String
  deriving DecidableEq

/-- The two queries of `EnigmaContractReaderAPI` that the comparison makes. -/
structure ContractReader (ε : Type) where
  getAllSecretContractAddresses : Except ε (List String)
  getContractParams : String → Except ε ContractParams

/-- The core sends addresses as byte arrays, tests also as text. -/
inductive TipAddress where
  | bytes (byteArray : List UInt8)
  | text (address : String)

/-- A local tip: `key` is the index of the last delta of the contract. -/
structure LocalTip where
  address : TipAddress
  key : Nat

structure MissingDelta where
  deltaHash : String
  index : Nat
  deriving DecidableEq

structure MissingState where
  address : String
  deltas : List MissingDelta
  bytecodeHash : Option String
  deriving DecidableEq

structure ExcessState where
  address : String
  remoteTip : Int
  localTip : Nat
  deriving DecidableEq

structure Comparison where
  missingList : List MissingState
  excessList : List ExcessState
  deriving DecidableEq

/-- The key of `tipsMap` under which a tip is kept. -/
def TipAddress.normalized : TipAddress → String
  | .bytes byteArray => toHexString byteArray
  | .text address => address

/-- The map that `reduce` builds from the local tips. -/
def tipsMapOf (localTips : List LocalTip) : List (String × Nat) :=
  localTips.foldl (fun obj item => assignField item.address.normalized item.key obj) []

/-- `missingDeltas` of one contract: all indexes from `firstMissingIndex` on. -/
def missingDeltasFrom (firstMissingIndex : Nat) (deltaHashes : List String) :
    List MissingDelta :=
  (deltaHashes.zipIdx.drop firstMissingIndex).map (fun delta => ⟨delta.1, delta.2⟩)

/-- The variables that survive an iteration of the loop over the remote contracts. -/
structure Progress where
  tipsMap : List (String × Nat)
  missingList : List MissingState
  excessList : List ExcessState

/-- One iteration over a remote contract. An inherited property is found by `in` but
holds no number: every comparison with it is false, and nothing is listed. -/
def compareContract (progress : Progress) (secretContractAddress : String)
    (contractData : ContractParams) : Progress :=
  if hasProperty secretContractAddress progress.tipsMap then
    let tipsMap := deleteField secretContractAddress progress.tipsMap
    match progress.tipsMap.lookup secretContractAddress with
    | none => { progress with tipsMap := tipsMap }
    | some tip =>
        let firstMissingIndex := tip + 1
        let excess : List ExcessState :=
          if contractData.deltaHashes.length < firstMissingIndex then
            [⟨secretContractAddress, (contractData.deltaHashes.length : Int) - 1,
              firstMissingIndex - 1⟩]
          else []
        let missingDeltas := missingDeltasFrom firstMissingIndex contractData.deltaHashes
        let missing : List MissingState :=
          if missingDeltas ≠ [] then [⟨secretContractAddress, missingDeltas, none⟩] else []
        { tipsMap := tipsMap
          missingList := progress.missingList ++ missing
          excessList := progress.excessList ++ excess }
  else
    let missingDeltas := missingDeltasFrom 0 contractData.deltaHashes
    let missing : List MissingState :=
      if missingDeltas ≠ [] then
        [⟨secretContractAddress, missingDeltas, some contractData.codeHash⟩]
      else []
    { progress with missingList := progress.missingList ++ missing }

/-- `compareLocalStateToRemote`; a failed query rejects. -/
def compareLocalStateToRemote {ε : Type} (api : ContractReader ε)
    (localTips : List LocalTip) : Except ε Comparison := do
  let remoteSecretContractsAddresses ← api.getAllSecretContractAddresses
  let progress ← remoteSecretContractsAddresses.foldlM
    (fun progress secretContractAddress => do
      let contractData ← api.getContractParams secretContractAddress
      pure (compareContract progress secretContractAddress contractData))
    { tipsMap := tipsMapOf localTips, missingList := [], excessList := [] }
  pure
    { missingList := progress.missingList
      excessList := progress.excessList ++
        (entries progress.tipsMap).map (fun tip => ⟨tip.1, -1, tip.2⟩) }

/-! ## Applying a comparison to the local replica -/

/-- A contract held locally: the hash of its bytecode and those of its deltas. -/
structure Contract where
  bytecodeHash : String
  deltas : List String
  deriving DecidableEq

abbrev LocalState := Store String Contract

/-- Append the missing deltas, behind new bytecode exactly where its hash is listed. -/
def MissingState.edit (missing : MissingState) : Edit String Contract where
  key := missing.address
  change held :=
    let indexed := missing.deltas.map (fun delta => (delta.deltaHash, delta.index))
    match held, missing.bytecodeHash with
    | none, some bytecodeHash =>
        (appendAt indexed []).map (fun log => some ⟨bytecodeHash, log⟩)
    | some contract, none =>
        (appendAt indexed contract.deltas).map (fun log => some { contract with deltas := log })
    | _, _ => none

/-- Truncate to `remoteTip`, or delete the contract when it is -1. -/
def ExcessState.edit (excess : ExcessState) : Edit String Contract where
  key := excess.address
  change
    | none => none
    | some contract =>
        if contract.deltas.length ≠ excess.localTip + 1 then none
        else if excess.remoteTip = -1 then some none
        else some (some { contract with
          deltas := contract.deltas.take (excess.remoteTip + 1).toNat })

def Comparison.edits (comparison : Comparison) : List (Edit String Contract) :=
  comparison.missingList.map MissingState.edit ++ comparison.excessList.map ExcessState.edit

def Comparison.apply (comparison : Comparison) (state : LocalState) : Option LocalState :=
  applyAll comparison.edits state

/-- The tips describe a local state: one tip for each contract held, whose index is
that of the last delta of a log without gaps. -/
structure LocalTipsOf (state : LocalState) (localTips : List LocalTip) : Prop where
  addresses : ∀ tip ∈ localTips, IsHexAddress tip.address.normalized
  distinct : (localTips.map (fun tip => tip.address.normalized)).Nodup
  held : ∀ tip ∈ localTips, ∃ contract, state tip.address.normalized = some contract ∧
    contract.deltas.length = tip.key + 1
  listed : ∀ address, state address ≠ none →
    ∃ tip ∈ localTips, tip.address.normalized = address

/-- The reader answers with the contracts of the chain, each with at least one delta. -/
structure OnChain {ε : Type} (api : ContractReader ε)
    (remote : List (String × ContractParams)) : Prop where
  listed : api.getAllSecretContractAddresses = .ok (remote.map (·.1))
  params : ∀ contract ∈ remote, api.getContractParams contract.1 = .ok contract.2
  addresses : ∀ contract ∈ remote, IsHexAddress contract.1
  distinct : (remote.map (·.1)).Nodup
  deployed : ∀ contract ∈ remote, contract.2.deltaHashes ≠ []

/-! ## What one contract contributes -/

/-- The entries of one remote contract in the missing list, given its local tip. -/
def missingOf (tip : Option Nat) (contract : String × ContractParams) : List MissingState :=
  let missingDeltas := missingDeltasFrom (tip.elim 0 (· + 1)) contract.2.deltaHashes
  if missingDeltas ≠ [] then
    [⟨contract.1, missingDeltas, if tip.isNone then some contract.2.codeHash else none⟩]
  else []

/-- The entries of one remote contract in the excess list, given its local tip. -/
def excessOf (tip : Option Nat) (contract : String × ContractParams) : List ExcessState :=
  match tip with
  | none => []
  | some tip =>
      if contract.2.deltaHashes.length < tip + 1 then
        [⟨contract.1, (contract.2.deltaHashes.length : Int) - 1, tip⟩]
      else []

/-- The missing deltas are the tail of the remote log, under the indexes it has there. -/
theorem indexed_missingDeltasFrom (firstMissingIndex : Nat) (deltaHashes : List String) :
    (missingDeltasFrom firstMissingIndex deltaHashes).map
        (fun delta => (delta.deltaHash, delta.index)) =
      (deltaHashes.drop firstMissingIndex).zipIdx firstMissingIndex := by
  have forget : ((fun delta : MissingDelta => (delta.deltaHash, delta.index)) ∘
      fun delta : String × Nat => ⟨delta.1, delta.2⟩) = id := rfl
  rw [missingDeltasFrom, List.map_map, forget, List.map_id]
  refine List.ext_getElem? fun i => ?_
  simp [List.getElem?_drop, List.getElem?_zipIdx]

theorem missingDeltasFrom_ne_nil {firstMissingIndex : Nat} {deltaHashes : List String} :
    missingDeltasFrom firstMissingIndex deltaHashes ≠ [] ↔
      firstMissingIndex < deltaHashes.length := by
  rw [missingDeltasFrom, ne_eq, List.map_eq_nil_iff, List.drop_eq_nil_iff, List.length_zipIdx,
    Nat.not_le]

/-- A contract is missing exactly when the remote log is longer than the local one. -/
theorem mem_missingOf {tip : Option Nat} {contract : String × ContractParams}
    {missing : MissingState} :
    missing ∈ missingOf tip contract ↔
      tip.elim 0 (· + 1) < contract.2.deltaHashes.length ∧
      missing = ⟨contract.1, missingDeltasFrom (tip.elim 0 (· + 1)) contract.2.deltaHashes,
        if tip.isNone then some contract.2.codeHash else none⟩ := by
  by_cases longer : tip.elim 0 (· + 1) < contract.2.deltaHashes.length
  · rw [missingOf, if_pos (missingDeltasFrom_ne_nil.mpr longer), List.mem_singleton]
    exact (and_iff_right longer).symm
  · rw [missingOf, if_neg (mt missingDeltasFrom_ne_nil.mp longer)]
    exact iff_of_false List.not_mem_nil (fun h => longer h.1)

/-- A contract that both sides have is in excess exactly when the local log is longer. -/
theorem mem_excessOf {tip : Option Nat} {contract : String × ContractParams}
    {excess : ExcessState} :
    excess ∈ excessOf tip contract ↔ ∃ key, tip = some key ∧
      contract.2.deltaHashes.length < key + 1 ∧
      excess = ⟨contract.1, (contract.2.deltaHashes.length : Int) - 1, key⟩ := by
  cases tip with
  | none => simp [excessOf]
  | some key =>
      by_cases longer : contract.2.deltaHashes.length < key + 1
      · have listed : excessOf (some key) contract =
            [⟨contract.1, (contract.2.deltaHashes.length : Int) - 1, key⟩] := if_pos longer
        rw [listed, List.mem_singleton]
        refine ⟨fun same => ⟨key, rfl, longer, same⟩, ?_⟩
        rintro ⟨_, ⟨rfl⟩, -, same⟩
        exact same
      · have listed : excessOf (some key) contract = [] := if_neg longer
        rw [listed]
        refine iff_of_false List.not_mem_nil ?_
        rintro ⟨_, ⟨rfl⟩, more, -⟩
        exact longer more

/-- A contract is listed at most once, missing or in excess. -/
theorem contributions_sublist (tip : Option Nat) (contract : String × ContractParams) :
    ((missingOf tip contract).map (·.address) ++
      (excessOf tip contract).map (·.address)).Sublist [contract.1] := by
  cases tip with
  | none =>
      simp only [missingOf, excessOf, List.map_nil, List.append_nil]
      split
      · exact List.Sublist.refl _
      · exact List.nil_sublist _
  | some tip =>
      simp only [missingOf, excessOf, missingDeltasFrom_ne_nil, Option.elim_some]
      split
      · rename_i behind
        have notAhead : ¬ contract.2.deltaHashes.length < tip + 1 := by omega
        rw [if_neg notAhead]
        exact List.Sublist.refl _
      · split
        · exact List.Sublist.refl _
        · exact List.nil_sublist _

/-- Without an inherited name, an iteration adds the contributions of its contract. -/
theorem compareContract_eq {address : String} (plain : address ∉ objectPrototype)
    (progress : Progress) (params : ContractParams) :
    compareContract progress address params =
      { tipsMap := deleteField address progress.tipsMap
        missingList := progress.missingList ++
          missingOf (progress.tipsMap.lookup address) (address, params)
        excessList := progress.excessList ++
          excessOf (progress.tipsMap.lookup address) (address, params) } := by
  rw [compareContract, hasProperty_eq_isSome plain]
  cases found : progress.tipsMap.lookup address with
  | none =>
      have kept : deleteField address progress.tipsMap = progress.tipsMap :=
        deleteField_of_not_mem (not_mem_of_lookup_eq_none found)
      simp [missingOf, excessOf, kept]
  | some tip => simp [missingOf, excessOf]

/-- The loop over distinct contracts collects each contribution at the initial tips. -/
theorem foldl_compareContract {remote : List (String × ContractParams)}
    (plain : ∀ contract ∈ remote, contract.1 ∉ objectPrototype)
    (distinct : (remote.map (·.1)).Nodup) (progress : Progress) :
    remote.foldl (fun progress contract => compareContract progress contract.1 contract.2)
        progress =
      { tipsMap := progress.tipsMap.filter (fun tip => tip.1 ∉ remote.map (·.1))
        missingList := progress.missingList ++ remote.flatMap
          (fun contract => missingOf (progress.tipsMap.lookup contract.1) contract)
        excessList := progress.excessList ++ remote.flatMap
          (fun contract => excessOf (progress.tipsMap.lookup contract.1) contract) } := by
  induction remote generalizing progress with
  | nil => simp
  | cons contract rest ih =>
      obtain ⟨fresh, later⟩ := List.nodup_cons.mp distinct
      have untouched : ∀ other ∈ rest,
          (deleteField contract.1 progress.tipsMap).lookup other.1 =
            progress.tipsMap.lookup other.1 := by
        intro other member
        refine lookup_deleteField_ne ?_ _
        intro same
        exact fresh (List.mem_map.mpr ⟨other, member, same⟩)
      rw [List.foldl_cons, compareContract_eq (plain contract List.mem_cons_self),
        ih (fun other member => plain other (List.mem_cons_of_mem _ member)) later]
      refine congr (congr (congrArg Progress.mk ?_) ?_) ?_
      · rw [deleteField, List.filter_filter]
        refine List.filter_congr fun tip _ => ?_
        simp only [List.map_cons, List.mem_cons, not_or, Bool.decide_and, Bool.and_comm]
      · rw [List.flatMap_cons, List.append_assoc]
        congr 2
        exact List.flatMap_congr fun other member => by rw [untouched other member]
      · rw [List.flatMap_cons, List.append_assoc]
        congr 2
        exact List.flatMap_congr fun other member => by rw [untouched other member]

/-! ## The comparison as a whole -/

section Comparison

variable {ε : Type} {api : ContractReader ε} {remote : List (String × ContractParams)}
variable {localTips : List LocalTip} {state : LocalState}

/-- Distinct addresses make the map of tips the list of tips. -/
theorem tipsMapOf_eq (described : LocalTipsOf state localTips) :
    tipsMapOf localTips = localTips.map (fun tip => (tip.address.normalized, tip.key)) := by
  have plain : ∀ (obj : List (String × Nat)), ∀ item ∈ localTips,
      assignField item.address.normalized item.key obj =
        setField item.address.normalized item.key obj := by
    intro obj item member
    refine if_neg fun inherited => ?_
    exact (described.addresses item member).not_inherited (inherited ▸ by decide)
  rw [tipsMapOf, List.foldl_ext _ _ _ plain, foldl_setField]
  · exact List.nil_append _
  · simpa using described.distinct

/-- The local tip of an address is one less than the length of the log held there. -/
theorem lookup_tipsMapOf (described : LocalTipsOf state localTips) (address : String) :
    (state address).map (·.deltas.length) =
      ((tipsMapOf localTips).lookup address).map (· + 1) := by
  rw [tipsMapOf_eq described]
  cases found : (localTips.map fun tip => (tip.address.normalized, tip.key)).lookup address with
  | none =>
      have unlisted := not_mem_of_lookup_eq_none found
      have absent : state address = none := by
        by_contra held
        obtain ⟨tip, member, rfl⟩ := described.listed address held
        refine unlisted (List.mem_map.mpr ⟨(tip.address.normalized, tip.key), ?_, rfl⟩)
        exact List.mem_map_of_mem (f := fun tip : LocalTip => (tip.address.normalized, tip.key))
          member
      rw [absent]
      rfl
  | some key =>
      obtain ⟨tip, member, same⟩ := List.mem_map.mp (mem_of_lookup_eq_some found)
      cases same
      obtain ⟨contract, held, length⟩ := described.held tip member
      rw [held, Option.map_some, Option.map_some, length]

/-- The comparison in closed form: the contributions of all remote contracts at the
initial tips, and every local contract that is not among them. -/
def expected (remote : List (String × ContractParams)) (localTips : List LocalTip) :
    Comparison where
  missingList := remote.flatMap
    (fun contract => missingOf ((tipsMapOf localTips).lookup contract.1) contract)
  excessList := remote.flatMap
      (fun contract => excessOf ((tipsMapOf localTips).lookup contract.1) contract) ++
    (entries ((tipsMapOf localTips).filter
      (fun tip => tip.1 ∉ remote.map (·.1)))).map (fun tip => ⟨tip.1, -1, tip.2⟩)

theorem mem_missingList {contract : String × ContractParams} (inRemote : contract ∈ remote)
    {missing : MissingState}
    (listed : missing ∈ missingOf ((tipsMapOf localTips).lookup contract.1) contract) :
    missing ∈ (expected remote localTips).missingList :=
  List.mem_flatMap.mpr ⟨contract, inRemote, listed⟩

theorem mem_excessList {contract : String × ContractParams} (inRemote : contract ∈ remote)
    {excess : ExcessState}
    (listed : excess ∈ excessOf ((tipsMapOf localTips).lookup contract.1) contract) :
    excess ∈ (expected remote localTips).excessList :=
  List.mem_append_left _ (List.mem_flatMap.mpr ⟨contract, inRemote, listed⟩)

/-- The loops compute the closed form, whatever the tips are. -/
theorem compareLocalStateToRemote_eq (chain : OnChain api remote) :
    compareLocalStateToRemote api localTips = .ok (expected remote localTips) := by
  have queries : ∀ (contracts : List (String × ContractParams)) (progress : Progress),
      (∀ contract ∈ contracts, api.getContractParams contract.1 = .ok contract.2) →
      (contracts.map (·.1)).foldlM (fun progress secretContractAddress => do
          let contractData ← api.getContractParams secretContractAddress
          pure (compareContract progress secretContractAddress contractData)) progress =
        (Except.ok (contracts.foldl
          (fun progress contract => compareContract progress contract.1 contract.2) progress) :
          Except ε Progress) := by
    intro contracts
    induction contracts with
    | nil => intro progress _; rfl
    | cons contract rest ih =>
        intro progress answers
        rw [List.map_cons, List.foldlM_cons, answers contract List.mem_cons_self,
          List.foldl_cons]
        exact ih _ (fun other member => answers other (List.mem_cons_of_mem _ member))
  have plain : ∀ contract ∈ remote, contract.1 ∉ objectPrototype :=
    fun contract member => (chain.addresses contract member).not_inherited
  rw [compareLocalStateToRemote, chain.listed]
  change ((List.foldlM _ _ _ : Except ε Progress) >>= _) = _
  rw [queries remote _ chain.params, foldl_compareContract plain chain.distinct]
  rfl

/-- No address is listed twice, in one list or in both. -/
theorem nodup_addresses (distinct : (remote.map (·.1)).Nodup)
    (described : LocalTipsOf state localTips) :
    ((expected remote localTips).missingList.map (·.address) ++
      (expected remote localTips).excessList.map (·.address)).Nodup := by
  let tips := tipsMapOf localTips
  let leftover := tips.filter (fun tip => tip.1 ∉ remote.map (·.1))
  have shared : (remote.flatMap (fun contract =>
      (missingOf (tips.lookup contract.1) contract).map (·.address) ++
        (excessOf (tips.lookup contract.1) contract).map (·.address))).Sublist
      (remote.map (·.1)) := by
    induction remote with
    | nil => exact List.Sublist.refl _
    | cons contract rest ih =>
        rw [List.flatMap_cons, List.map_cons]
        exact (contributions_sublist _ contract).append (ih (List.nodup_cons.mp distinct).2)
  have unlisted : ((entries leftover).map (·.1)).Nodup := by
    have tipsNodup : (tips.map (·.1)).Nodup := by
      change ((tipsMapOf localTips).map (·.1)).Nodup
      rw [tipsMapOf_eq described, List.map_map]
      exact described.distinct
    refine ((entries_perm leftover).map _).nodup_iff.mpr ?_
    exact tipsNodup.sublist (List.filter_sublist.map _)
  have apart : ∀ address ∈ remote.map (·.1), address ∉ (entries leftover).map (·.1) := by
    intro address member other
    obtain ⟨tip, kept, rfl⟩ := List.mem_map.mp ((entries_perm leftover).map _ |>.mem_iff.mp other)
    exact of_decide_eq_true (List.mem_filter.mp kept).2 member
  have joined := (List.flatMap_append_perm remote
    (fun contract => (missingOf (tips.lookup contract.1) contract).map (·.address))
    (fun contract => (excessOf (tips.lookup contract.1) contract).map (·.address)))
  have parts : (expected remote localTips).missingList.map (·.address) ++
      (expected remote localTips).excessList.map (·.address) =
      (remote.flatMap (fun contract =>
          (missingOf (tips.lookup contract.1) contract).map (·.address)) ++
        remote.flatMap (fun contract =>
          (excessOf (tips.lookup contract.1) contract).map (·.address))) ++
        (entries leftover).map (·.1) := by
    simp only [expected, List.map_append, List.map_flatMap, List.map_map, List.append_assoc]
    rfl
  rw [parts]
  refine List.nodup_append'.mpr ⟨?_, unlisted, ?_⟩
  · exact joined.nodup_iff.mpr (distinct.sublist shared)
  · intro address member
    exact apart address (shared.subset (joined.mem_iff.mp member))

/-- What a replica holds after reconciliation: the contracts of the chain, with the
deltas that were held already and the remote ones after them. -/
def reconciled (remote : List (String × ContractParams)) (state : LocalState) : LocalState :=
  fun address =>
    match remote.lookup address with
    | none => none
    | some params =>
        match state address with
        | none => some ⟨params.codeHash, params.deltaHashes⟩
        | some contract => some { contract with
            deltas := contract.deltas.take params.deltaHashes.length ++
              params.deltaHashes.drop contract.deltas.length }

/-- The missing entry of a contract turns what is held into what the chain has. -/
theorem change_missing (described : LocalTipsOf state localTips)
    {contract : String × ContractParams} (found : remote.lookup contract.1 = some contract.2)
    {missing : MissingState}
    (member : missing ∈ missingOf ((tipsMapOf localTips).lookup contract.1) contract) :
    missing.edit.change (state missing.edit.key) =
      some (reconciled remote state missing.edit.key) := by
  obtain ⟨longer, rfl⟩ := mem_missingOf.mp member
  have tip := lookup_tipsMapOf described contract.1
  simp only [MissingState.edit, reconciled, found, indexed_missingDeltasFrom]
  cases held : state contract.1 with
  | none =>
      have absent : (tipsMapOf localTips).lookup contract.1 = none := by
        rw [held] at tip
        exact Option.map_eq_none_iff.mp tip.symm
      have grown := appendAt_zipIdx contract.2.deltaHashes []
      simpa [absent] using grown
  | some log =>
      rw [held] at tip
      obtain ⟨key, present, length⟩ := Option.map_eq_some_iff.mp tip.symm
      rw [present, Option.elim_some, length] at longer
      have grown := appendAt_zipIdx (contract.2.deltaHashes.drop log.deltas.length) log.deltas
      simp [present, length, grown, List.take_of_length_le (Nat.le_of_lt longer)]

/-- The excess entry of a contract that both sides have truncates to the remote log. -/
theorem change_excess (described : LocalTipsOf state localTips)
    {contract : String × ContractParams} (found : remote.lookup contract.1 = some contract.2)
    (deployed : contract.2.deltaHashes ≠ []) {excess : ExcessState}
    (member : excess ∈ excessOf ((tipsMapOf localTips).lookup contract.1) contract) :
    excess.edit.change (state excess.edit.key) =
      some (reconciled remote state excess.edit.key) := by
  obtain ⟨key, present, shorter, rfl⟩ := mem_excessOf.mp member
  have tip := lookup_tipsMapOf described contract.1
  rw [present] at tip
  obtain ⟨log, held, length⟩ := Option.map_eq_some_iff.mp tip
  change log.deltas.length = key + 1 at length
  have positive : 0 < contract.2.deltaHashes.length := List.length_pos_iff.mpr deployed
  have notDeleted : (contract.2.deltaHashes.length : Int) - 1 ≠ -1 := by omega
  have covered : contract.2.deltaHashes.drop (key + 1) = [] :=
    List.drop_eq_nil_of_le (by omega)
  simp [ExcessState.edit, reconciled, found, held, length, notDeleted, covered]

/-- A local contract that the chain does not have is deleted. -/
theorem change_leftover (described : LocalTipsOf state localTips) {address : String}
    (unknown : remote.lookup address = none) {key : Nat}
    (present : (tipsMapOf localTips).lookup address = some key) :
    (ExcessState.edit ⟨address, -1, key⟩).change (state address) =
      some (reconciled remote state address) := by
  have tip := lookup_tipsMapOf described address
  rw [present] at tip
  obtain ⟨log, held, length⟩ := Option.map_eq_some_iff.mp tip
  change log.deltas.length = key + 1 at length
  simp [ExcessState.edit, reconciled, unknown, held, length]

/-- What the comparison does not list is the same on both sides already. -/
theorem reconciled_of_not_listed (chain : OnChain api remote)
    (described : LocalTipsOf state localTips) {address : String}
    (unlisted : address ∉ (expected remote localTips).missingList.map (·.address) ++
      (expected remote localTips).excessList.map (·.address)) :
    state address = reconciled remote state address := by
  have tip := lookup_tipsMapOf described address
  obtain ⟨notMissing, notExcess⟩ := not_or.mp (mt List.mem_append.mpr unlisted)
  cases known : remote.lookup address with
  | none =>
      rw [reconciled, known]
      by_contra held
      cases present : (tipsMapOf localTips).lookup address with
      | none =>
          rw [present] at tip
          exact held (Option.map_eq_none_iff.mp tip)
      | some key =>
          refine notExcess (List.mem_map.mpr ⟨⟨address, -1, key⟩, ?_, rfl⟩)
          refine List.mem_append_right _ (List.mem_map.mpr ⟨(address, key), ?_, rfl⟩)
          refine (entries_perm _).mem_iff.mpr (List.mem_filter.mpr ⟨?_, ?_⟩)
          · exact mem_of_lookup_eq_some present
          · rw [decide_eq_true_iff]
            intro member
            obtain ⟨contract, inRemote, rfl⟩ := List.mem_map.mp member
            rw [lookup_eq_some_of_mem chain.distinct inRemote] at known
            cases known
  | some params =>
      have inRemote := mem_of_lookup_eq_some known
      have positive : 0 < params.deltaHashes.length :=
        List.length_pos_iff.mpr (chain.deployed _ inRemote)
      have upToDate : ¬ ((tipsMapOf localTips).lookup address).elim 0 (· + 1) <
          params.deltaHashes.length := by
        intro longer
        have listed := (@mem_missingOf _ (address, params) _).mpr ⟨longer, rfl⟩
        exact notMissing (List.mem_map_of_mem (f := MissingState.address)
          (mem_missingList inRemote listed))
      cases present : (tipsMapOf localTips).lookup address with
      | none =>
          rw [present] at upToDate
          exact absurd positive upToDate
      | some key =>
          have notAhead : ¬ params.deltaHashes.length < key + 1 := by
            intro longer
            have listed :=
              (@mem_excessOf _ (address, params) _).mpr ⟨key, present, longer, rfl⟩
            exact notExcess (List.mem_map_of_mem (f := ExcessState.address)
              (mem_excessList inRemote listed))
          rw [present] at tip upToDate
          obtain ⟨log, held, length⟩ := Option.map_eq_some_iff.mp tip
          change log.deltas.length = key + 1 at length
          change ¬ key + 1 < params.deltaHashes.length at upToDate
          have same : params.deltaHashes.length = log.deltas.length := by omega
          rw [reconciled, known, held]
          simp only [same, List.take_length, List.drop_eq_nil_of_le (Nat.le_of_eq same),
            List.append_nil]

/-- Applying the comparison is accepted and reaches the contracts of the chain. -/
theorem apply_expected (chain : OnChain api remote) (described : LocalTipsOf state localTips) :
    (expected remote localTips).apply state = some (reconciled remote state) := by
  have keys : (expected remote localTips).edits.map Edit.key =
      (expected remote localTips).missingList.map (·.address) ++
        (expected remote localTips).excessList.map (·.address) := by
    rw [Comparison.edits, List.map_append, List.map_map, List.map_map]
    rfl
  refine applyAll_eq_some ?_ ?_ ?_
  · rw [keys]
    exact nodup_addresses chain.distinct described
  · intro edit member
    rcases List.mem_append.mp member with missing | excess
    · obtain ⟨entry, listed, rfl⟩ := List.mem_map.mp missing
      obtain ⟨contract, inRemote, listed⟩ := List.mem_flatMap.mp listed
      exact change_missing described (lookup_eq_some_of_mem chain.distinct inRemote) listed
    · obtain ⟨entry, listed, rfl⟩ := List.mem_map.mp excess
      rcases List.mem_append.mp listed with listed | leftover
      · obtain ⟨contract, inRemote, listed⟩ := List.mem_flatMap.mp listed
        exact change_excess described (lookup_eq_some_of_mem chain.distinct inRemote)
          (chain.deployed contract inRemote) listed
      · obtain ⟨tip, kept, rfl⟩ := List.mem_map.mp leftover
        have tipsNodup : ((tipsMapOf localTips).map (·.1)).Nodup := by
          rw [tipsMapOf_eq described, List.map_map]
          exact described.distinct
        obtain ⟨inTips, unknown⟩ := List.mem_filter.mp ((entries_perm _).mem_iff.mp kept)
        refine change_leftover described ?_ (lookup_eq_some_of_mem tipsNodup inTips)
        exact lookup_eq_none_of_not_mem (of_decide_eq_true unknown)
  · intro key untouched
    rw [keys] at untouched
    exact reconciled_of_not_listed chain described untouched

/-- The comparison succeeds, lists no contract twice, and its plan is accepted by the
local state and leaves exactly the contracts of the chain, each with the remote delta
indexes. Every appended index has the remote hash, and bytecode is added exactly where
the contract was absent. -/
theorem compareLocalStateToRemote_reconciles (chain : OnChain api remote)
    (described : LocalTipsOf state localTips) :
    ∃ comparison final,
      compareLocalStateToRemote api localTips = .ok comparison ∧
      (comparison.missingList.map (·.address) ++
        comparison.excessList.map (·.address)).Nodup ∧
      comparison.apply state = some final ∧
      (∀ address, final address ≠ none ↔ address ∈ remote.map (·.1)) ∧
      ∀ contract ∈ remote, ∃ log, final contract.1 = some log ∧
        log.deltas.length = contract.2.deltaHashes.length ∧
        (state contract.1 = none →
          log.bytecodeHash = contract.2.codeHash ∧ log.deltas = contract.2.deltaHashes) ∧
        ∀ held, state contract.1 = some held →
          log.bytecodeHash = held.bytecodeHash ∧
          (∀ i < log.deltas.length, i < held.deltas.length → log.deltas[i]? = held.deltas[i]?) ∧
          ∀ i, held.deltas.length ≤ i → log.deltas[i]? = contract.2.deltaHashes[i]? := by
  refine ⟨expected remote localTips, reconciled remote state, compareLocalStateToRemote_eq chain,
    nodup_addresses chain.distinct described, apply_expected chain described, ?_, ?_⟩
  · intro address
    cases known : remote.lookup address with
    | none =>
        refine iff_of_false (not_not.mpr ?_) (not_mem_of_lookup_eq_none known)
        rw [reconciled, known]
    | some params =>
        refine iff_of_true ?_ (List.mem_map_of_mem (mem_of_lookup_eq_some known))
        rw [reconciled, known]
        cases state address <;> exact Option.some_ne_none _
  · intro contract inRemote
    have known := lookup_eq_some_of_mem chain.distinct inRemote
    cases held : state contract.1 with
    | none =>
        refine ⟨⟨contract.2.codeHash, contract.2.deltaHashes⟩, ?_, rfl, fun _ => ⟨rfl, rfl⟩, ?_⟩
        · rw [reconciled, known, held]
        · rintro _ ⟨⟩
    | some log =>
        refine ⟨{ log with deltas := log.deltas.take contract.2.deltaHashes.length ++
          contract.2.deltaHashes.drop log.deltas.length }, ?_, ?_, ?_, ?_⟩
        · rw [reconciled, known, held]
        · simp only [List.length_append, List.length_take, List.length_drop]
          omega
        · rintro ⟨⟩
        · rintro _ ⟨rfl⟩
          refine ⟨rfl, ?_, ?_⟩
          · intro i inLog inHeld
            simp only [List.length_append, List.length_take, List.length_drop] at inLog
            rw [List.getElem?_append_left (by rw [List.length_take]; omega), List.getElem?_take,
              if_pos (by omega)]
          · intro i beyond
            by_cases short : i < contract.2.deltaHashes.length
            · have length : (log.deltas.take contract.2.deltaHashes.length).length =
                  log.deltas.length := by
                rw [List.length_take]
                omega
              rw [List.getElem?_append_right (by omega), length, List.getElem?_drop]
              congr 1
              omega
            · rw [List.getElem?_eq_none, List.getElem?_eq_none]
              · omega
              · simp only [List.length_append, List.length_take, List.length_drop]
                omega

end Comparison

/-- A reader of a chain that does not change during the comparison. -/
def readerOf (remote : List (String × ContractParams)) : ContractReader Unit where
  getAllSecretContractAddresses := .ok (remote.map (·.1))
  getContractParams address :=
    match remote.lookup address with
    | some params => .ok params
    | none => .error ()

/-- Of these contracts the node is behind with the first and ahead with the second, and the third
it does not have. -/
def mixedContracts : List (String × ContractParams) :=
  [("aa", ⟨"c1", ["d0", "d1", "d2"]⟩), ("bb", ⟨"c2", ["e0"]⟩), ("cc", ⟨"c3", ["f0"]⟩)]

def mixedTips : List LocalTip :=
  [⟨.bytes [0xaa], 0⟩, ⟨.text "bb", 2⟩, ⟨.text "ee", 0⟩]

/-- The contract `ee` is not on the chain. -/
def mixedState : LocalState := fun address =>
  [("aa", ⟨"c1", ["d0"]⟩), ("bb", ⟨"c2", ["e0", "e1", "e2"]⟩),
    ("ee", ⟨"c5", ["g0"]⟩)].lookup address

theorem compareLocalStateToRemote_reconciles_mixed :
    ∃ comparison final,
      compareLocalStateToRemote (readerOf mixedContracts) mixedTips = .ok comparison ∧
      (comparison.missingList.map (·.address) ++
        comparison.excessList.map (·.address)).Nodup ∧
      comparison.apply mixedState = some final ∧
      (∀ address, final address ≠ none ↔ address ∈ ["aa", "bb", "cc"]) ∧
      ∀ contract ∈ mixedContracts, ∃ log, final contract.1 = some log ∧
        log.deltas.length = contract.2.deltaHashes.length ∧
        (mixedState contract.1 = none →
          log.bytecodeHash = contract.2.codeHash ∧ log.deltas = contract.2.deltaHashes) ∧
        ∀ held, mixedState contract.1 = some held →
          log.bytecodeHash = held.bytecodeHash ∧
          (∀ i < log.deltas.length, i < held.deltas.length → log.deltas[i]? = held.deltas[i]?) ∧
          ∀ i, held.deltas.length ≤ i → log.deltas[i]? = contract.2.deltaHashes[i]? := by
  have chain : OnChain (readerOf mixedContracts) mixedContracts := by
    refine ⟨rfl, ?_, ?_, by decide, by simp [mixedContracts]⟩
    · simp only [mixedContracts, List.forall_mem_cons]
      exact ⟨rfl, rfl, rfl, by simp⟩
    · simp only [mixedContracts, List.forall_mem_cons]
      exact ⟨⟨[0xaa], rfl⟩, ⟨[0xbb], rfl⟩, ⟨[0xcc], rfl⟩, by simp⟩
  have described : LocalTipsOf mixedState mixedTips := by
    refine ⟨?_, by decide, ?_, ?_⟩
    · simp only [mixedTips, List.forall_mem_cons]
      exact ⟨⟨[0xaa], rfl⟩, ⟨[0xbb], rfl⟩, ⟨[0xee], rfl⟩, by simp⟩
    · simp only [mixedTips, List.forall_mem_cons]
      exact ⟨⟨_, rfl, rfl⟩, ⟨_, rfl, rfl⟩, ⟨_, rfl, rfl⟩, by simp⟩
    · intro address held
      obtain ⟨contract, found⟩ := Option.ne_none_iff_exists'.mp held
      have member := mem_of_lookup_eq_some found
      simp only [List.mem_cons, Prod.mk.injEq, List.not_mem_nil, or_false] at member
      rcases member with ⟨rfl, -⟩ | ⟨rfl, -⟩ | ⟨rfl, -⟩
      · exact ⟨⟨.bytes [0xaa], 0⟩, List.mem_cons_self, rfl⟩
      · exact ⟨⟨.text "bb", 2⟩, by simp [mixedTips], rfl⟩
      · exact ⟨⟨.text "ee", 0⟩, by simp [mixedTips], rfl⟩
  exact compareLocalStateToRemote_reconciles chain described

end Ethereum
