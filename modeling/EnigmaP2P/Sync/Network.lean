import EnigmaP2P.Sync.Replication
import EnigmaP2P.Transition.Runs

/-!
# Nodes that sync from each other

The chain grows, and nodes with faithful cores sync, each contract from a node that has its data
at the time. No node gets data that is not on the chain, no sync fails, and a node that has synced
is up to date until the chain grows again: it may then be asked by others.
-/

namespace Sync

open Js Common Ethereum Core Replica Transition

/-! ## Chains -/

/-- The contracts of a chain: each has deltas, and its own hexadecimal address. -/
structure ValidChain (remote : List (String × ContractParams)) : Prop where
  addresses : ∀ contract ∈ remote, IsHexAddress contract.1
  distinct : (remote.map (·.1)).Nodup
  deployed : ∀ contract ∈ remote, contract.2.deltaHashes ≠ []

/-- A later state of the chain. Contracts are deployed, and deltas appended. -/
structure Grows (remote after : List (String × ContractParams)) : Prop where
  valid : ValidChain after
  kept : ∀ address params, remote.lookup address = some params → ∃ grown,
    after.lookup address = some grown ∧ grown.codeHash = params.codeHash ∧
      params.deltaHashes <+: grown.deltaHashes

/-- All of the chain. -/
def chainState (remote : List (String × ContractParams)) : LocalState :=
  fun address => (remote.lookup address).map fun params => ⟨params.codeHash, params.deltaHashes⟩

/-- Nothing but what is on the chain, each contract from its first delta on. -/
def OnlyChain (remote : List (String × ContractParams)) (state : LocalState) : Prop :=
  ∀ address log, state address = some log → ∃ params, remote.lookup address = some params ∧
    log.bytecodeHash = params.codeHash ∧ log.deltas ≠ [] ∧ log.deltas <+: params.deltaHashes

section

variable {remote after : List (String × ContractParams)} {state : LocalState}

theorem ValidChain.onChain (valid : ValidChain remote) : OnChain (readerOf remote) remote where
  listed := rfl
  params := by
    intro contract inRemote
    simp only [readerOf, lookup_eq_some_of_mem valid.distinct inRemote]
  addresses := valid.addresses
  distinct := valid.distinct
  deployed := valid.deployed

theorem onlyChain_chainState (valid : ValidChain remote) :
    OnlyChain remote (chainState remote) := by
  intro address log held
  obtain ⟨params, known, rfl⟩ := Option.map_eq_some_iff.mp held
  exact ⟨params, known, rfl, valid.deployed _ (mem_of_lookup_eq_some known), List.prefix_refl _⟩

theorem OnlyChain.grows (only : OnlyChain remote state) (grows : Grows remote after) :
    OnlyChain after state := by
  intro address log held
  obtain ⟨params, known, bytecode, nonempty, deltas⟩ := only address log held
  obtain ⟨grown, still, sameCode, longer⟩ := grows.kept address params known
  exact ⟨grown, still, bytecode.trans sameCode.symm, nonempty, deltas.trans longer⟩

theorem OnlyChain.listable (only : OnlyChain remote state) (valid : ValidChain remote) :
    Listable state := by
  intro address log held
  obtain ⟨params, known, -, nonempty, -⟩ := only address log held
  exact ⟨valid.addresses _ (mem_of_lookup_eq_some known), nonempty⟩

/-- What is on the chain already is completed to all of the chain. -/
theorem OnlyChain.reconciled (only : OnlyChain remote state) :
    reconciled remote state = chainState remote := by
  funext address
  rw [Ethereum.reconciled, chainState]
  cases known : remote.lookup address with
  | none => rfl
  | some params =>
      cases held : state address with
      | none => rfl
      | some log =>
          obtain ⟨same, isSame, bytecode, -, rest, deltas⟩ := only address log held
          cases known.symm.trans isSame
          simp only [Option.map_some, ← deltas, bytecode]
          rw [List.take_of_length_le, List.drop_left]
          rw [List.length_append]
          exact Nat.le_add_right _ _

end

/-! ## Nodes -/

/-- The chain, and the states of the cores of the nodes. -/
structure Network (σ : Type) where
  remote : List (String × ContractParams)
  nodes : List σ

inductive NetworkLabel where
  /-- Blocks are added to the chain. -/
  | grow (remote : List (String × ContractParams))
  /-- Node `i` syncs, each contract from the node that is found for it. -/
  | sync (i : Nat) (providerOf : String → Nat)

section

variable {σ : Type} (core : DbCore σ) (platform : Platform) (id : String)

def networkStep (net : Network σ) : NetworkLabel → Network σ
  | .grow remote => { net with remote }
  | .sync i providerOf =>
      match net.nodes[i]? with
      | none => net
      | some db =>
          let found := fun address => net.nodes[providerOf address]?
          match Sync.sync core platform found id (readerOf net.remote) (core.tips db) db with
          | none => net
          | some after => { net with nodes := net.nodes.set i after }

/-- The chain only grows, and the nodes that are found have the data of the chain. -/
def NetworkAllowed (net : Network σ) : NetworkLabel → Prop
  | .grow remote => Grows net.remote remote
  | .sync _ providerOf => ∀ contract ∈ net.remote, ∃ db,
      net.nodes[providerOf contract.1]? = some db ∧
      Provides core platform db contract.1 contract.2

/-- No node has anything that is not on the chain. -/
structure NetworkRight (net : Network σ) : Prop where
  valid : ValidChain net.remote
  nodes : ∀ (i : Nat) (db : σ), net.nodes[i]? = some db →
    ∃ state, Represents core platform db state ∧ OnlyChain net.remote state

/-- The node has all of the chain. -/
def UpToDate (net : Network σ) (i : Nat) : Prop :=
  ∃ db, net.nodes[i]? = some db ∧ Represents core platform db (chainState net.remote)

end

section

variable {σ : Type} {core : DbCore σ} {platform : Platform} {id : String} {net : Network σ}

/-- An up to date node has the data of every contract. -/
theorem provides_of_represents {remote : List (String × ContractParams)} {db : σ}
    (represents : Represents core platform db (chainState remote)) (valid : ValidChain remote)
    {contract : String × ContractParams} (inRemote : contract ∈ remote) :
    Provides core platform db contract.1 contract.2 := by
  have known := lookup_eq_some_of_mem valid.distinct inRemote
  have held : chainState remote contract.1 =
      some ⟨contract.2.codeHash, contract.2.deltaHashes⟩ := by
    rw [chainState, known]
    rfl
  refine ⟨?_, fun index _ => ?_⟩
  · have bytecode := represents.bytecode contract.1
    rw [held] at bytecode
    exact bytecode
  · have deltas := represents.deltas contract.1 index
    rw [held] at deltas
    exact deltas

/-- A sync succeeds, and the node is up to date. -/
theorem NetworkRight.sync (right : NetworkRight core platform net) (faithful : Faithful core)
    {i : Nat} {providerOf : String → Nat}
    (allowed : NetworkAllowed core platform net (.sync i providerOf)) {db : σ}
    (isNode : net.nodes[i]? = some db) :
    ∃ after, networkStep core platform id net (.sync i providerOf) =
        { net with nodes := net.nodes.set i after } ∧
      Represents core platform after (chainState net.remote) := by
  obtain ⟨state, represents, only⟩ := right.nodes i db isNode
  obtain ⟨after, synced, represented⟩ := @Faithful.sync_represents _ _ _ _ _ _ _ _ _
    (fun address => net.nodes[providerOf address]?) faithful right.valid.onChain
    (represents.tips faithful (only.listable right.valid)) represents allowed id
  rw [only.reconciled] at represented
  refine ⟨after, ?_, represented⟩
  rw [networkStep, isNode]
  dsimp only
  rw [synced]

/-- A node that is not there does not sync. -/
theorem networkStep_absent {i : Nat} (absent : net.nodes[i]? = none)
    (providerOf : String → Nat) :
    networkStep core platform id net (.sync i providerOf) = net := by
  rw [networkStep, absent]

theorem NetworkRight.step (right : NetworkRight core platform net) (faithful : Faithful core)
    {label : NetworkLabel} (allowed : NetworkAllowed core platform net label) :
    NetworkRight core platform (networkStep core platform id net label) := by
  cases label with
  | grow remote =>
      refine ⟨allowed.valid, fun i db isNode => ?_⟩
      obtain ⟨state, represents, only⟩ := right.nodes i db isNode
      exact ⟨state, represents, only.grows allowed⟩
  | sync i providerOf =>
      cases isNode : net.nodes[i]? with
      | none =>
          rw [networkStep_absent isNode]
          exact right
      | some db =>
          obtain ⟨after, synced, represented⟩ :=
            @NetworkRight.sync _ _ _ id _ right faithful _ _ allowed db isNode
          rw [synced]
          refine ⟨right.valid, fun j other isOther => ?_⟩
          have isOther : (net.nodes.set i after)[j]? = some other := isOther
          by_cases same : i = j
          · subst same
            rw [List.getElem?_set_self (List.getElem?_eq_some_iff.mp isNode).1] at isOther
            cases isOther
            exact ⟨_, represented, onlyChain_chainState right.valid⟩
          · rw [List.getElem?_set_ne same] at isOther
            exact right.nodes j other isOther

/-- The node that syncs is up to date. -/
theorem upToDate_sync (right : NetworkRight core platform net) (faithful : Faithful core)
    {i : Nat} {providerOf : String → Nat}
    (allowed : NetworkAllowed core platform net (.sync i providerOf))
    (isNode : i < net.nodes.length) :
    UpToDate core platform (networkStep core platform id net (.sync i providerOf)) i := by
  obtain ⟨after, synced, represented⟩ := @NetworkRight.sync _ _ _ id _ right faithful _ _ allowed _
    (List.getElem?_eq_getElem isNode)
  rw [synced]
  exact ⟨after, List.getElem?_set_self isNode, represented⟩

/-- A node that is up to date stays so when nodes sync. -/
theorem UpToDate.sync {i j : Nat} (upToDate : UpToDate core platform net i)
    (right : NetworkRight core platform net) (faithful : Faithful core)
    {providerOf : String → Nat}
    (allowed : NetworkAllowed core platform net (.sync j providerOf)) :
    UpToDate core platform (networkStep core platform id net (.sync j providerOf)) i := by
  obtain ⟨db, isNode, represents⟩ := upToDate
  by_cases same : j = i
  · subst same
    exact upToDate_sync right faithful allowed (List.getElem?_eq_some_iff.mp isNode).1
  · cases isOther : net.nodes[j]? with
    | none =>
        rw [networkStep_absent isOther]
        exact ⟨db, isNode, represents⟩
    | some other =>
        obtain ⟨after, synced, -⟩ :=
          @NetworkRight.sync _ _ _ id _ right faithful _ _ allowed other isOther
        rw [synced]
        exact ⟨db, (List.getElem?_set_ne same).trans isNode, represents⟩

theorem length_networkStep (net : Network σ) (label : NetworkLabel) :
    (networkStep core platform id net label).nodes.length = net.nodes.length := by
  cases label with
  | grow remote => rfl
  | sync i providerOf =>
      rw [networkStep]
      split
      · rfl
      · simp only []
        split
        · rfl
        · exact List.length_set

/-- A node that is up to date is so at the end of every run without growth. -/
theorem UpToDate.run {i : Nat} (upToDate : UpToDate core platform net i)
    (right : NetworkRight core platform net) (faithful : Faithful core) {labels : List NetworkLabel}
    (meets : Meets (NetworkAllowed core platform) (networkStep core platform id) net labels)
    (noGrowth : ∀ label ∈ labels, ∀ remote, label ≠ .grow remote) :
    UpToDate core platform (Transition.run (networkStep core platform id) net labels) i := by
  induction labels generalizing net with
  | nil => exact upToDate
  | cons label rest ih =>
      obtain ⟨now, later⟩ := List.forall_mem_cons.mp noGrowth
      obtain ⟨allowed, meets⟩ := meets
      cases label with
      | grow remote => exact absurd rfl (now remote)
      | sync j providerOf =>
          exact ih (upToDate.sync right faithful allowed) (right.step faithful allowed) meets later

end

/-- Over all runs in which the chain grows, and nodes with faithful cores sync from nodes that
have the data of the chain: no node has anything that is not on the chain, and a node that has
synced since the last growth is up to date. -/
theorem network_run {σ : Type} {core : DbCore σ} (faithful : Faithful core)
    {platform : Platform} {id : String} {start : Network σ}
    (initial : NetworkRight core platform start) {labels : List NetworkLabel}
    (meets : Meets (NetworkAllowed core platform) (networkStep core platform id) start labels) :
    NetworkRight core platform (run (networkStep core platform id) start labels) ∧
      ∀ before i providerOf after, labels = before ++ .sync i providerOf :: after →
        i < start.nodes.length → (∀ label ∈ after, ∀ remote, label ≠ .grow remote) →
        UpToDate core platform (run (networkStep core platform id) start labels) i := by
  refine ⟨invariant_run initial (fun _ _ right allowed => right.step faithful allowed) meets, ?_⟩
  rintro before i providerOf after rfl isNode noGrowth
  have right := invariant_run initial (fun _ _ right allowed => right.step faithful allowed)
    meets.of_append
  have length : (run (networkStep core platform id) start before).nodes.length =
      start.nodes.length :=
    @invariant_of_step _ _ (networkStep core platform id)
      (fun net => net.nodes.length = start.nodes.length) start rfl
      (fun net label same => (length_networkStep net label).trans same) before
  obtain ⟨allowed, meetsAfter⟩ := meets.rest
  have upToDate := @upToDate_sync _ _ _ id _ right faithful _ _ allowed (length ▸ isNode)
  rw [run_append, run_cons]
  exact upToDate.run (right.step faithful allowed) faithful meetsAfter noGrowth

/-! ## Three nodes -/

theorem represents_bothContracts :
    Represents listCore threeHashes bothContracts (chainState twoContracts) := by
  obtain ⟨one, two, three⟩ := sha3_threeHashes
  constructor
  · intro address
    change Option.map _ (bothContracts.bytecodeAt address) = _
    rw [CoreDb.bytecodeAt, chainState, bothContracts, twoContracts, List.lookup_cons,
      List.lookup_cons, List.lookup_cons, List.lookup_cons]
    cases address == "aa" with
    | true => exact congrArg some one
    | false =>
        cases address == "bb" with
        | true => exact congrArg some three
        | false => rfl
  · intro address index
    change Option.map _ (bothContracts.deltaAt address index) = _
    rw [CoreDb.deltaAt, chainState, bothContracts, twoContracts, List.lookup_cons,
      List.lookup_cons, List.lookup_cons, List.lookup_cons]
    cases address == "aa" with
    | true =>
        rcases index with _ | _ | index
        · exact congrArg some two
        · exact congrArg some three
        · rfl
    | false =>
        cases address == "bb" with
        | true =>
            cases index with
            | zero => exact congrArg some two
            | succ index => rfl
        | false => rfl

/-- One node has both contracts, and two have none. -/
def threeNodes : Network CoreDb :=
  ⟨twoContracts, [bothContracts, [], []]⟩

theorem networkRight_threeNodes : NetworkRight listCore threeHashes threeNodes := by
  have valid : ValidChain twoContracts := ⟨onChain_twoContracts.addresses,
    onChain_twoContracts.distinct, onChain_twoContracts.deployed⟩
  refine ⟨valid, fun i db isNode => ?_⟩
  rcases List.mem_cons.mp (List.mem_of_getElem? isNode) with rfl | isEmpty
  · exact ⟨_, represents_bothContracts, onlyChain_chainState valid⟩
  · have isEmpty : db = [] := by
      rcases List.mem_cons.mp isEmpty with rfl | isLast
      · rfl
      · exact List.mem_singleton.mp isLast
    rw [isEmpty]
    exact ⟨fun _ => none, ⟨fun _ => rfl, fun _ _ => rfl⟩, by rintro _ _ ⟨⟩⟩

/-- The second node syncs from the first, and the third from the second. -/
theorem network_run_three :
    let labels := [NetworkLabel.sync 1 fun _ => 0, .sync 2 fun _ => 1]
    UpToDate listCore threeHashes (run (networkStep listCore threeHashes "1") threeNodes labels) 1 ∧
      UpToDate listCore threeHashes
        (run (networkStep listCore threeHashes "1") threeNodes labels) 2 := by
  intro labels
  have right := networkRight_threeNodes
  have first : NetworkAllowed listCore threeHashes threeNodes (.sync 1 fun _ => 0) :=
    fun contract inRemote => ⟨bothContracts, rfl, provides_bothContracts contract inRemote⟩
  have second : NetworkAllowed listCore threeHashes
      (networkStep listCore threeHashes "1" threeNodes (.sync 1 fun _ => 0))
      (.sync 2 fun _ => 1) := by
    intro contract inRemote
    obtain ⟨after, synced, represented⟩ :=
      @NetworkRight.sync _ _ _ "1" _ right faithful_listCore 1 _ first [] rfl
    rw [synced] at inRemote ⊢
    exact ⟨after, rfl, provides_of_represents represented right.valid inRemote⟩
  have meets : Meets (NetworkAllowed listCore threeHashes)
      (networkStep listCore threeHashes "1") threeNodes labels :=
    ⟨first, second, trivial⟩
  obtain ⟨-, upToDate⟩ := network_run faithful_listCore right meets
  refine ⟨upToDate [] 1 _ _ rfl (by decide) ?_, upToDate [_] 2 _ _ rfl (by decide) ?_⟩
  · intro label member remote
    cases List.mem_singleton.mp member
    rintro ⟨⟩
  · intro label member
    cases member

end Sync
