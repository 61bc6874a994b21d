import EnigmaP2P.Ethereum.Submission
import Mathlib.Tactic.Linarith

/-!
# A submission settled by its event or by the chain

The same result can be verified before and after its submission is on the chain. Before,
the listener compares it with one delta hash and its index; after, it is compared with the
list of delta hashes that the contract then has. The list also has the hashes of older
deltas, under any key that converts to their index, so the second check accepts results
that the first one rejects. An exception in the listener leaves the first call unsettled,
and is a verdict of the second.
-/

namespace Ethereum

open Js Common Tasks

/-! ## Transitions of a created task -/

/-- The record of a created task and its contract. -/
structure Created where
  inputsHash : String
  gasLimit : Nat
  blockNumber : Nat
  codeHash : String
  deltaHashes : List String

/-- The terminal transitions of a task: `commitReceipt`, `deploySecretContract`, their
failures, and the failure of the callback to Ethereum. -/
inductive TaskTransition where
  | receiptVerified (outputHash deltaHash : String)
  | secretContractDeployed (codeHash deltaHash : String)
  | receiptFailed (outputHash : String)
  | receiptFailedETH
  deriving DecidableEq

namespace TaskTransition

/-- A receipt needs a deployed contract, and a contract is deployed once. -/
def Possible (deltaHashes : List String) : TaskTransition → Prop
  | receiptVerified .. => deltaHashes ≠ []
  | secretContractDeployed .. => deltaHashes = []
  | receiptFailed _ | receiptFailedETH => True

/-- `stateDeltaHashes` after the transition. -/
def deltaHashes (before : Created) : TaskTransition → List String
  | receiptVerified _ deltaHash =>
      if deltaHash ≠ emptyHash then before.deltaHashes ++ [deltaHash] else before.deltaHashes
  | secretContractDeployed _ deltaHash => before.deltaHashes ++ [deltaHash]
  | receiptFailed _ | receiptFailedETH => before.deltaHashes

/-- `deltaHashIndex`, the index of a receipt's delta. -/
def deltaHashIndex (before : Created) (deltaHash : String) : Nat :=
  if deltaHash ≠ emptyHash then before.deltaHashes.length else 0

/-- The task's record after the transition. -/
def taskParams (before : Created) : TaskTransition → TaskParams
  | receiptVerified outputHash _ => record .receiptVerified outputHash
  | secretContractDeployed .. => record .receiptVerified emptyHash
  | receiptFailed outputHash => record .receiptFailed outputHash
  | receiptFailedETH => record .receiptFailedETH emptyHash
where
  record (status : EthereumTaskStatus) (outputHash : String) : TaskParams :=
    ⟨before.inputsHash, before.gasLimit, before.blockNumber, status, outputHash⟩

/-- The contract after the transition. -/
def contractParams (before : Created) (transition : TaskTransition) : ContractAnswer :=
  ⟨match transition with
    | secretContractDeployed codeHash _ => codeHash
    | _ => before.codeHash,
  some (transition.deltaHashes before)⟩

/-- The event that the contract emits. -/
def rawEvent (before : Created) (taskId : String) : TaskTransition → RawTaskEvent
  | receiptVerified outputHash deltaHash =>
      .receiptVerified taskId deltaHash outputHash (deltaHashIndex before deltaHash)
  | secretContractDeployed codeHash deltaHash =>
      .secretContractDeployed taskId codeHash deltaHash
  | receiptFailed outputHash => .receiptFailed taskId outputHash
  | receiptFailedETH => .receiptFailedETH taskId

end TaskTransition

/-- What an event says to a submission listener. -/
def TaskEvent.submissionNotice : TaskEvent → Option SubmissionNotice
  | .creation _ => none
  | .submission _ notice | .deployment _ notice => some notice

variable (platform : Platform)

/-- The local tip is the tip of the contract. -/
def IsTip (deltaHashes : List String) : Option ContractTip → Prop
  | none => deltaHashes = []
  | some tip => ∃ last, deltaHashes.getLast? = some last ∧
      tip.key = some (.num ((deltaHashes.length : Rat) - 1)) ∧ HashesTo platform tip.data last

/-! ## The two verdicts -/

section

variable (result : Result) (contractAddress : String) (localTip : Option ContractTip)

/-- `isVerified` of a call whose read answers `earlier`, and which otherwise waits for the
event of the transition. -/
def verdictByEvent (earlier : TaskParams) (event : TaskEvent) : Option Bool :=
  match verifyTaskSubmissionNow platform (.ok earlier) (.error "") result contractAddress
      localTip with
  | .settled verdict => some verdict.isVerified
  | .recordCreated _ | .recordUndefined => event.submissionNotice.bind fun notice =>
      (submissionListener platform result notice).toOption.map (·.isVerified)

/-- `isVerified` of a call after the transition. -/
def verdictByState (before : Created) (transition : TaskTransition) : Option Bool :=
  match verifyTaskSubmissionNow platform (.ok (transition.taskParams before))
      (.ok (transition.contractParams before)) result contractAddress localTip with
  | .settled verdict => some verdict.isVerified
  | .recordCreated _ | .recordUndefined => none

/-- The verdict is the same before and after. -/
def SubmissionAgrees (before : Created) (transition : TaskTransition) : Prop :=
  ∀ taskId contractAddress earlier,
    earlier.status = .recordCreated ∨ earlier.status = .recordUndefined →
      verdictByEvent platform result contractAddress localTip earlier
          (parseEvent (transition.rawEvent before taskId)) =
        verdictByState platform result contractAddress localTip before transition

end

/-! ## When the two agree -/

/-- The delta is the one of the event. -/
def EventDelta (result : Result) (deltaHash : String) (deltaIndex : Nat) : Prop :=
  deltaField "key" result = some (.num deltaIndex) ∧
    HashesTo platform (deltaField "data" result) deltaHash

/-- The delta is on the list at the index that its key converts to. -/
def ListedDelta (result : Result) (deltaHashes : List String) : Prop :=
  ∃ (i : Nat) (digest : String), keyOf (deltaField "key" result) = .ok (toString i) ∧
    deltaHashes[i]? = some digest ∧ HashesTo platform (deltaField "data" result) digest

/-- The result of a deployment with this delta hash and this code. -/
def DeployMatches (result : Result) (deltaHash codeHash : String) : Prop :=
  result.hasDelta = true ∧ EventDelta platform result deltaHash 0 ∧
    HashesTo platform result.output codeHash

/-- What is hashed of a deployment has a hash. -/
def DeployHashable (result : Result) (deltaHash : String) : Prop :=
  result.hasDelta = true → deltaField "key" result = some (.num 0) →
    Hashable platform (deltaField "data" result) ∧
    (HashesTo platform (deltaField "data" result) deltaHash → Hashable platform result.output)

/-- The condition for a computation with a delta and its receipt: what is hashed has a
hash, and if the delta is not the one of the receipt then it is not another listed one. -/
structure ReceiptHarmless (result : Result) (before : Created) (outputHash deltaHash : String) :
    Prop where
  data : Hashable platform (deltaField "data" result)
  own : EventDelta platform result deltaHash (TaskTransition.deltaHashIndex before deltaHash) →
    Hashable platform result.output ∧ (HashesTo platform result.output outputHash →
      deltaHash ≠ emptyHash ∨ before.deltaHashes.head? = some emptyHash)
  other : ¬ EventDelta platform result deltaHash (TaskTransition.deltaHashIndex before deltaHash) →
    HashesTo platform result.output outputHash →
      ¬ ListedDelta platform result
        ((TaskTransition.receiptVerified outputHash deltaHash).deltaHashes before)

/-- The condition under which the verdicts agree. -/
def SubmissionHarmless (result : Result) (before : Created) : TaskTransition → Prop
  | .receiptFailedETH => True
  | .receiptFailed _ => result.cls = .failed → Hashable platform result.output
  | .secretContractDeployed _ deltaHash =>
      match result.cls with
      | .failed => True
      | .deploy => DeployHashable platform result deltaHash
      | .compute => result.hasDelta = true → HashesTo platform result.output emptyHash →
          ¬ ListedDelta platform result [deltaHash]
  | .receiptVerified outputHash deltaHash =>
      match result.cls with
      | .failed => True
      | .deploy => ∀ first, before.deltaHashes.head? = some first →
          ¬ DeployMatches platform result first before.codeHash
      | .compute =>
          if result.hasDelta = true then ReceiptHarmless platform result before outputHash deltaHash
          else deltaHash = emptyHash → Hashable platform result.output

variable {platform} {result : Result}

/-! ## What each check accepts -/

/-- The check ends with a positive verdict. -/
def Accepts (check : Except Exn SubmissionVerdict) : Prop :=
  ∃ verdict, check = .ok verdict ∧ verdict.isVerified = true

/-- The check ends without an exception. -/
def Settles (check : Except Exn SubmissionVerdict) : Prop :=
  ∃ verdict, check = .ok verdict

@[simp] theorem accepts_accepted : Accepts (.ok .accepted) := ⟨_, rfl, rfl⟩

@[simp] theorem not_accepts_rejected (cls : ErrClass) (message : String) :
    ¬ Accepts (.ok (.rejected cls message)) := by
  rintro ⟨_, same, verified⟩
  cases same
  cases verified

@[simp] theorem not_accepts_error (exn : Exn) : ¬ Accepts (.error exn) := by
  rintro ⟨_, same, -⟩
  cases same

@[simp] theorem settles_ok (verdict : SubmissionVerdict) : Settles (.ok verdict) := ⟨_, rfl⟩

@[simp] theorem not_settles_error (exn : Exn) : ¬ Settles (.error exn) := nofun

/-- The listener's check agrees with a check whose exceptions are caught. -/
theorem toOption_eq_caught {listener read : Except Exn SubmissionVerdict} :
    listener.toOption.map (·.isVerified) = some (caught read).isVerified ↔
      Settles listener ∧ (Accepts listener ↔ Accepts read) := by
  have verified : (caught read).isVerified = true ↔ Accepts read := by
    cases read with
    | error exn => simp [caught]
    | ok verdict => exact ⟨fun h => ⟨_, rfl, h⟩, fun ⟨_, same, h⟩ => by cases same; exact h⟩
  cases listener with
  | error exn => simp [Except.toOption]
  | ok verdict =>
      have here : verdict.isVerified = true ↔ Accepts (.ok verdict) :=
        ⟨fun h => ⟨_, rfl, h⟩, fun ⟨_, same, h⟩ => by cases same; exact h⟩
      rw [← verified, ← here, ← Bool.eq_iff_iff]
      exact ⟨fun same => ⟨settles_ok _, Option.some.inj same⟩, fun both => congrArg some both.2⟩

/-- A hash comparison, once the hash is known. -/
theorem verifyHash_cases (hash : Option String) (data : Option Json) :
    (¬ Hashable platform data ∧ ∃ exn, verifyHash platform hash data = .error exn) ∨
    (Hashable platform data ∧ ∃ same, verifyHash platform hash data = .ok same ∧
      (same = true ↔ ∃ digest, hash = some digest ∧ HashesTo platform data digest)) := by
  unfold verifyHash
  cases hashed : Common.hash platform data with
  | error exn =>
      refine .inl ⟨?_, exn, rfl⟩
      rintro ⟨digest, same⟩
      rw [hashed] at same
      cases same
  | ok digest =>
      refine .inr ⟨⟨digest, hashed⟩, _, rfl, ?_⟩
      rw [Bool.and_eq_true, decide_eq_true_iff]
      constructor
      · rintro ⟨isHash, rfl⟩
        obtain ⟨text, rfl⟩ := Option.isSome_iff_exists.mp isHash
        exact ⟨text, rfl, hashed⟩
      · rintro ⟨text, rfl, same⟩
        exact ⟨rfl, Except.ok.inj (hashed.symm.trans same)⟩

theorem accepts_checkOutput {outputHash : String} :
    Accepts (checkOutput platform outputHash result) ↔
      HashesTo platform result.output outputHash := by
  unfold checkOutput
  obtain ⟨none, exn, thrown⟩ | ⟨-, same, known, isSame⟩ :=
    @verifyHash_cases platform (some outputHash) result.output
  · rw [thrown]
    exact iff_of_false (not_accepts_error exn) fun hashed => none hashed.hashable
  · rw [known]
    change Accepts (.ok (if same = true then _ else _)) ↔ _
    cases same with
    | true =>
        obtain ⟨_, digest, hashed⟩ := isSame.mp rfl
        cases digest
        exact iff_of_true accepts_accepted hashed
    | false =>
        refine iff_of_false (not_accepts_rejected _ _) fun hashed => ?_
        exact Bool.false_ne_true (isSame.mpr ⟨_, rfl, hashed⟩)

theorem settles_checkOutput {outputHash : String} :
    Settles (checkOutput platform outputHash result) ↔ Hashable platform result.output := by
  unfold checkOutput
  obtain ⟨none, exn, thrown⟩ | ⟨hashable, same, known, -⟩ :=
    @verifyHash_cases platform (some outputHash) result.output
  · rw [thrown]
    exact iff_of_false (not_settles_error exn) none
  · rw [known]
    exact iff_of_true (settles_ok _) hashable

/-- A check that goes on to the output if a hash is right, and rejects otherwise. -/
private theorem checkHash_then {hash : Option String} {data : Option Json} {cls : ErrClass}
    {message outputHash : String} :
    let check := (do
      let same ← verifyHash platform hash data
      if same then checkOutput platform outputHash result
      else pure (.rejected cls message) : Except Exn SubmissionVerdict)
    (Accepts check ↔ (∃ digest, hash = some digest ∧ HashesTo platform data digest) ∧
      HashesTo platform result.output outputHash) ∧
    (Settles check ↔ Hashable platform data ∧
      ∀ digest, hash = some digest → HashesTo platform data digest →
        Hashable platform result.output) := by
  obtain ⟨none, exn, thrown⟩ | ⟨hashable, same, known, isSame⟩ :=
    @verifyHash_cases platform hash data
  · rw [thrown]
    refine ⟨iff_of_false (not_accepts_error exn) ?_, iff_of_false (not_settles_error exn) ?_⟩
    · rintro ⟨⟨digest, -, hashed⟩, -⟩
      exact none hashed.hashable
    · exact fun both => none both.1
  · rw [known]
    change (Accepts (if same = true then _ else _) ↔ _) ∧
      (Settles (if same = true then _ else _) ↔ _)
    cases same with
    | true =>
        obtain ⟨digest, isHash, hashed⟩ := isSame.mp rfl
        rw [if_pos rfl, accepts_checkOutput, settles_checkOutput]
        refine ⟨?_, ?_⟩
        · exact ⟨fun output => ⟨⟨digest, isHash, hashed⟩, output⟩, fun both => both.2⟩
        · exact ⟨fun output => ⟨hashable, fun _ _ _ => output⟩,
            fun both => both.2 digest isHash hashed⟩
    | false =>
        have wrong : ∀ digest, hash = some digest → ¬ HashesTo platform data digest :=
          fun digest isHash hashed => Bool.false_ne_true (isSame.mpr ⟨digest, isHash, hashed⟩)
        refine ⟨iff_of_false (not_accepts_rejected _ _) ?_, iff_of_true (settles_ok _) ?_⟩
        · rintro ⟨⟨digest, isHash, hashed⟩, -⟩
          exact wrong digest isHash hashed
        · exact ⟨hashable, fun digest isHash hashed => absurd hashed (wrong digest isHash)⟩

theorem accepts_checkDeployResult {deltaHash : Option String} {codeHash : String} :
    Accepts (checkDeployResult platform result deltaHash codeHash) ↔
      ∃ digest, deltaHash = some digest ∧ DeployMatches platform result digest codeHash := by
  unfold checkDeployResult
  by_cases hasDelta : result.hasDelta = true
  · rw [if_neg (by simp [hasDelta])]
    by_cases first : deltaField "key" result = some (.num 0)
    · rw [if_neg (not_not_intro first), checkHash_then.1]
      constructor
      · rintro ⟨⟨digest, isHash, hashed⟩, output⟩
        exact ⟨digest, isHash, hasDelta, ⟨first, hashed⟩, output⟩
      · rintro ⟨digest, isHash, -, ⟨-, hashed⟩, output⟩
        exact ⟨⟨digest, isHash, hashed⟩, output⟩
    · rw [if_pos first]
      refine iff_of_false (not_accepts_rejected _ _) ?_
      rintro ⟨digest, -, -, ⟨isFirst, -⟩, -⟩
      exact first isFirst
  · rw [if_pos (by simp [hasDelta])]
    refine iff_of_false (not_accepts_rejected _ _) ?_
    rintro ⟨digest, -, has, -⟩
    exact hasDelta has

theorem settles_checkDeployResult {deltaHash codeHash : String} :
    Settles (checkDeployResult platform result (some deltaHash) codeHash) ↔
      DeployHashable platform result deltaHash := by
  unfold checkDeployResult
  by_cases hasDelta : result.hasDelta = true
  · rw [if_neg (by simp [hasDelta])]
    by_cases first : deltaField "key" result = some (.num 0)
    · rw [if_neg (not_not_intro first), checkHash_then.2]
      constructor
      · rintro ⟨data, output⟩ - -
        exact ⟨data, output deltaHash rfl⟩
      · intro hashable
        obtain ⟨data, output⟩ := hashable hasDelta first
        refine ⟨data, ?_⟩
        rintro digest ⟨rfl⟩
        exact output
    · rw [if_pos first]
      exact iff_of_true (settles_ok _) fun _ isFirst => absurd isFirst first
  · rw [if_pos (by simp [hasDelta])]
    exact iff_of_true (settles_ok _) fun has => absurd has hasDelta

/-! ## Checks of a computation -/

theorem unlessRejected_cases {error : Except Exn (Option SubmissionVerdict)}
    (rejects : ∀ verdict, error = .ok (some verdict) → verdict.isVerified = false)
    {outputHash : String} :
    (Accepts (error >>= unlessRejected platform outputHash result) ↔
      error = .ok none ∧ HashesTo platform result.output outputHash) ∧
    (Settles (error >>= unlessRejected platform outputHash result) ↔
      (∃ outcome, error = .ok outcome) ∧ (error = .ok none → Hashable platform result.output)) := by
  cases error with
  | error exn =>
      exact ⟨iff_of_false (not_accepts_error exn) nofun,
        iff_of_false (not_settles_error exn) fun both => nomatch both.1⟩
  | ok outcome =>
      cases outcome with
      | none =>
          change (Accepts (checkOutput platform outputHash result) ↔ _) ∧
            (Settles (checkOutput platform outputHash result) ↔ _)
          rw [accepts_checkOutput, settles_checkOutput]
          exact ⟨⟨fun output => ⟨rfl, output⟩, fun both => both.2⟩,
            ⟨fun output => ⟨⟨_, rfl⟩, fun _ => output⟩, fun both => both.2 rfl⟩⟩
      | some verdict =>
          have rejected := rejects verdict rfl
          refine ⟨iff_of_false ?_ nofun, iff_of_true (settles_ok verdict) ⟨⟨_, rfl⟩, nofun⟩⟩
          rintro ⟨_, same, verified⟩
          cases same
          exact Bool.false_ne_true (rejected.symm.trans verified)

theorem deltaVerdict_eq_none {wrongIndex same : Bool} :
    deltaVerdict result wrongIndex same = none ↔ same = true ∧ wrongIndex = false := by
  cases wrongIndex <;> cases same <;> simp [deltaVerdict]

theorem deltaVerdict_rejects {wrongIndex same : Bool} {verdict : SubmissionVerdict}
    (isError : deltaVerdict result wrongIndex same = some verdict) :
    verdict.isVerified = false := by
  cases wrongIndex <;> cases same <;> cases isError <;> rfl

theorem lookup_indexProperties {items : List String} {property item : String} :
    (indexProperties items).lookup property = some item ↔
      ∃ i : Nat, property = toString i ∧ items[i]? = some item := by
  have member : ∀ {property item}, (property, item) ∈ indexProperties items ↔
      ∃ i : Nat, property = toString i ∧ items[i]? = some item := by
    intro property item
    rw [indexProperties, List.mem_map]
    constructor
    · rintro ⟨⟨item, i⟩, listed, same⟩
      cases same
      exact ⟨i, rfl, List.mem_zipIdx_iff_getElem?.mp listed⟩
    · rintro ⟨i, rfl, at_i⟩
      exact ⟨(item, i), List.mem_zipIdx_iff_getElem?.mpr at_i, rfl⟩
  have distinct : ((indexProperties items).map (·.1)).Nodup := by
    have keys : (indexProperties items).map (·.1) =
        (items.zipIdx.map Prod.snd).map (fun i => toString i) := by
      rw [indexProperties, List.map_map, List.map_map]
      rfl
    rw [keys, List.zipIdx_map_snd]
    exact (List.nodup_map_iff Hex.toString_nat_injective).mpr List.nodup_range'
  rw [← member]
  exact ⟨mem_of_lookup_eq_some, lookup_eq_some_of_mem distinct⟩

theorem elementAt_eq_some {items : List String} {key : Option Json} {item : String} :
    elementAt items key = .ok (some item) ↔
      ∃ i : Nat, keyOf key = .ok (toString i) ∧ items[i]? = some item := by
  rw [elementAt, bind_eq_ok]
  constructor
  · rintro ⟨property, isKey, found⟩
    obtain ⟨i, rfl, at_i⟩ := lookup_indexProperties.mp (Except.ok.inj found)
    exact ⟨i, isKey, at_i⟩
  · rintro ⟨i, isKey, at_i⟩
    exact ⟨_, isKey, congrArg Except.ok (lookup_indexProperties.mpr ⟨i, rfl, at_i⟩)⟩

/-- The conversion of text to numbers reads decimal numbers. -/
def ReadsDecimal (platform : Platform) : Prop :=
  ∀ n : Nat, platform.stringToNumber (toString n) = some (n : Rat)

/-- A key that is converted to the index of an element is below the length. -/
theorem atLeast_of_index (decimal : ReadsDecimal platform) {key : Option Json} {i length : Nat}
    (isKey : keyOf key = .ok (toString i)) (inRange : i < length) :
    atLeast platform length key = .ok false := by
  cases key with
  | none => rfl
  | some key =>
      rw [atLeast, Json.toNumber_of_toKey isKey (decimal i)]
      change Except.ok (decide ((length : Rat) ≤ i)) = _
      rw [decide_eq_false]
      exact_mod_cast Nat.not_le.mpr inRange

/-- The delta that passes the check has the hash that is read at its key. -/
theorem listed_of_checkDelta {deltaHashes : List String}
    (passed : checkDelta platform deltaHashes result = .ok none) :
    ∃ digest, elementAt deltaHashes (deltaField "key" result) = .ok (some digest) ∧
      HashesTo platform (deltaField "data" result) digest := by
  rw [checkDelta, bind_eq_ok] at passed
  obtain ⟨wrongIndex, -, rest⟩ := passed
  obtain ⟨listed, found, rest⟩ := bind_eq_ok.mp rest
  obtain ⟨same, compared, none⟩ := bind_eq_ok.mp rest
  obtain ⟨rfl, -⟩ := deltaVerdict_eq_none.mp (Except.ok.inj none)
  obtain ⟨-, exn, thrown⟩ | ⟨-, same, known, isSame⟩ :=
    @verifyHash_cases platform listed (deltaField "data" result)
  · cases thrown.symm.trans compared
  · cases known.symm.trans compared
    obtain ⟨digest, rfl, hashed⟩ := isSame.mp rfl
    exact ⟨digest, found, hashed⟩

theorem checkDelta_eq_none (decimal : ReadsDecimal platform) {deltaHashes : List String} :
    checkDelta platform deltaHashes result = .ok none ↔
      ListedDelta platform result deltaHashes := by
  constructor
  · intro passed
    obtain ⟨digest, found, hashed⟩ := listed_of_checkDelta passed
    obtain ⟨i, isKey, at_i⟩ := elementAt_eq_some.mp found
    exact ⟨i, digest, isKey, at_i, hashed⟩
  · rintro ⟨i, digest, isKey, at_i, hashed⟩
    obtain ⟨inRange, -⟩ := List.getElem?_eq_some_iff.mp at_i
    obtain ⟨none, -⟩ | ⟨-, same, known, isSame⟩ :=
      @verifyHash_cases platform (some digest) (deltaField "data" result)
    · exact absurd hashed.hashable none
    · cases isSame.mpr ⟨digest, rfl, hashed⟩
      rw [checkDelta, bind_eq_ok]
      refine ⟨false, atLeast_of_index decimal isKey inRange, bind_eq_ok.mpr
        ⟨some digest, elementAt_eq_some.mpr ⟨i, isKey, at_i⟩, bind_eq_ok.mpr ⟨true, known, ?_⟩⟩⟩
      exact congrArg Except.ok (deltaVerdict_eq_none.mpr ⟨rfl, rfl⟩)

/-- The delta check against the chain rejects or throws unless the delta is listed. -/
theorem checkDelta_rejects {deltaHashes : List String} {verdict : SubmissionVerdict}
    (rejected : checkDelta platform deltaHashes result = .ok (some verdict)) :
    verdict.isVerified = false := by
  rw [checkDelta, bind_eq_ok] at rejected
  obtain ⟨wrongIndex, -, rest⟩ := rejected
  obtain ⟨listed, -, rest⟩ := bind_eq_ok.mp rest
  obtain ⟨same, -, isError⟩ := bind_eq_ok.mp rest
  exact deltaVerdict_rejects (Except.ok.inj isError)

theorem accepts_checkComputeResult (hasDelta : result.hasDelta = true) {outputHash : String}
    {deltaHashes : List String} {localTip : Option ContractTip} :
    Accepts (checkComputeResult platform outputHash deltaHashes result localTip) ↔
      checkDelta platform deltaHashes result = .ok none ∧
        HashesTo platform result.output outputHash := by
  rw [checkComputeResult, if_pos hasDelta]
  exact (unlessRejected_cases fun _ => checkDelta_rejects).1

theorem accepts_checkComputeResult_delta (decimal : ReadsDecimal platform)
    (hasDelta : result.hasDelta = true) {outputHash : String} {deltaHashes : List String}
    {localTip : Option ContractTip} :
    Accepts (checkComputeResult platform outputHash deltaHashes result localTip) ↔
      ListedDelta platform result deltaHashes ∧ HashesTo platform result.output outputHash :=
  (accepts_checkComputeResult hasDelta).trans (and_congr_left' (checkDelta_eq_none decimal))

theorem checkLocalTip_rejects {deltaHashes : List String} {localTip : Option ContractTip}
    {verdict : SubmissionVerdict}
    (rejected : checkLocalTip platform deltaHashes result localTip = .ok (some verdict)) :
    verdict.isVerified = false := by
  cases localTip with
  | none => cases rejected
  | some localTip =>
      rw [checkLocalTip] at rejected
      by_cases index : localTip.key = some (.num ((deltaHashes.length : Rat) - 1))
      · rw [if_neg (not_not_intro index)] at rejected
        obtain ⟨same, -, isError⟩ := bind_eq_ok.mp rejected
        cases same <;> cases isError
        rfl
      · rw [if_pos index] at rejected
        cases rejected
        rfl

/-- Without a delta, a result is accepted on the chain whose tip is the local one. -/
theorem accepts_checkComputeResult_tip (hasDelta : ¬ result.hasDelta = true)
    {outputHash : String} {deltaHashes : List String} {localTip : Option ContractTip} :
    Accepts (checkComputeResult platform outputHash deltaHashes result localTip) ↔
      (localTip ≠ none ∧ IsTip platform deltaHashes localTip) ∧
        HashesTo platform result.output outputHash := by
  rw [checkComputeResult, if_neg hasDelta]
  refine (unlessRejected_cases fun _ => checkLocalTip_rejects).1.trans (and_congr_left' ?_)
  cases localTip with
  | none => exact iff_of_false nofun fun both => both.1 rfl
  | some localTip =>
      rw [checkLocalTip]
      by_cases index : localTip.key = some (.num ((deltaHashes.length : Rat) - 1))
      · rw [if_neg (not_not_intro index)]
        obtain ⟨none, exn, thrown⟩ | ⟨-, same, known, isSame⟩ :=
          @verifyHash_cases platform deltaHashes.getLast? localTip.data
        · rw [thrown]
          refine iff_of_false nofun ?_
          rintro ⟨-, last, -, -, hashed⟩
          exact none hashed.hashable
        · rw [known]
          change Except.ok (if same = true then none else _) = _ ↔ _
          cases same with
          | true =>
              obtain ⟨last, isLast, hashed⟩ := isSame.mp rfl
              exact iff_of_true rfl ⟨nofun, last, isLast, index, hashed⟩
          | false =>
              refine iff_of_false nofun ?_
              rintro ⟨-, last, isLast, -, hashed⟩
              exact Bool.false_ne_true (isSame.mpr ⟨last, isLast, hashed⟩)
      · rw [if_pos index]
        refine iff_of_false nofun ?_
        rintro ⟨-, last, -, isIndex, -⟩
        exact index isIndex

/-- The delta check of the listener. -/
theorem checkDeltaEvent_cases (hasDelta : result.hasDelta = true) {deltaHash : String}
    {deltaIndex : Nat} :
    (∀ verdict, checkDeltaEvent platform deltaHash deltaIndex result = .ok (some verdict) →
      verdict.isVerified = false) ∧
    (checkDeltaEvent platform deltaHash deltaIndex result = .ok none ↔
      EventDelta platform result deltaHash deltaIndex) ∧
    ((∃ outcome, checkDeltaEvent platform deltaHash deltaIndex result = .ok outcome) ↔
      Hashable platform (deltaField "data" result)) := by
  rw [checkDeltaEvent, if_pos hasDelta]
  obtain ⟨none, exn, thrown⟩ | ⟨hashable, same, known, isSame⟩ :=
    @verifyHash_cases platform (some deltaHash) (deltaField "data" result)
  · rw [thrown]
    refine ⟨nofun, iff_of_false nofun fun own => none own.2.hashable, iff_of_false nofun none⟩
  · rw [known]
    refine ⟨fun verdict isError => deltaVerdict_rejects (Except.ok.inj isError), ?_,
      iff_of_true ⟨_, rfl⟩ hashable⟩
    change Except.ok (deltaVerdict _ _ _) = Except.ok none ↔ _
    rw [Except.ok.injEq, deltaVerdict_eq_none, isSame, decide_eq_false_iff_not, not_not]
    constructor
    · rintro ⟨⟨digest, isHash, hashed⟩, own⟩
      cases isHash
      exact ⟨own, hashed⟩
    · rintro ⟨own, hashed⟩
      exact ⟨⟨deltaHash, rfl, hashed⟩, own⟩

theorem checkComputeResultEvent_delta (hasDelta : result.hasDelta = true)
    {outputHash deltaHash : String} {deltaIndex : Nat} :
    (Accepts (checkComputeResultEvent platform result outputHash deltaHash deltaIndex) ↔
      EventDelta platform result deltaHash deltaIndex ∧
        HashesTo platform result.output outputHash) ∧
    (Settles (checkComputeResultEvent platform result outputHash deltaHash deltaIndex) ↔
      Hashable platform (deltaField "data" result) ∧
      (EventDelta platform result deltaHash deltaIndex → Hashable platform result.output)) := by
  obtain ⟨rejects, passes, settles⟩ := @checkDeltaEvent_cases platform result hasDelta deltaHash
    deltaIndex
  obtain ⟨accepts, ends⟩ := @unlessRejected_cases platform result _ rejects outputHash
  rw [passes] at accepts ends
  rw [settles] at ends
  exact ⟨accepts, ends⟩

theorem checkComputeResultEvent_plain (hasDelta : ¬ result.hasDelta = true)
    {outputHash deltaHash : String} {deltaIndex : Nat} :
    checkComputeResultEvent platform result outputHash deltaHash deltaIndex =
      if deltaHash ≠ emptyHash then .ok (.rejected .taskVerificationErr
        ("Mismatch in delta - task \" + " ++ idText result ++ " does not contain a delta"))
      else checkOutput platform outputHash result := by
  rw [checkComputeResultEvent, checkDeltaEvent, if_neg hasDelta]
  split <;> rfl

/-! ## Agreement -/

/-- The delta of the receipt is on the new list, where there is one. -/
private theorem listed_of_event {before : Created} {outputHash deltaHash : String}
    (own : EventDelta platform result deltaHash (TaskTransition.deltaHashIndex before deltaHash)) :
    ListedDelta platform result
        ((TaskTransition.receiptVerified outputHash deltaHash).deltaHashes before) ↔
      deltaHash ≠ emptyHash ∨ before.deltaHashes.head? = some emptyHash := by
  obtain ⟨isKey, hashed⟩ := own
  have key : keyOf (deltaField "key" result) =
      .ok (toString (TaskTransition.deltaHashIndex before deltaHash)) := by
    rw [isKey, keyOf_some, Json.toKey_num, Json.numToString_natCast]
  rw [TaskTransition.deltaHashIndex] at key
  rw [TaskTransition.deltaHashes]
  by_cases fresh : deltaHash ≠ emptyHash
  · rw [if_pos fresh] at key
    rw [if_pos fresh]
    refine iff_of_true ⟨before.deltaHashes.length, deltaHash, key, ?_, hashed⟩ (.inl fresh)
    rw [List.getElem?_append_right (Nat.le_refl _), Nat.sub_self]
    rfl
  · rw [if_neg fresh] at key
    rw [if_neg fresh, List.head?_eq_getElem?]
    obtain rfl := not_not.mp fresh
    constructor
    · rintro ⟨i, digest, isKey', at_i, hashed'⟩
      cases Hex.toString_nat_injective (Except.ok.inj (key.symm.trans isKey'))
      cases Option.some.inj (Except.ok.inj (hashed.symm.trans hashed'))
      exact .inr at_i
    · intro first
      exact ⟨0, emptyHash, key, first.resolve_left fresh, hashed⟩

private theorem receiptHarmless_iff {before : Created} {outputHash deltaHash : String} :
    ReceiptHarmless platform result before outputHash deltaHash ↔
      (Hashable platform (deltaField "data" result) ∧
        (EventDelta platform result deltaHash (TaskTransition.deltaHashIndex before deltaHash) →
          Hashable platform result.output)) ∧
      ((EventDelta platform result deltaHash (TaskTransition.deltaHashIndex before deltaHash) ∧
          HashesTo platform result.output outputHash) ↔
        ListedDelta platform result
            ((TaskTransition.receiptVerified outputHash deltaHash).deltaHashes before) ∧
          HashesTo platform result.output outputHash) := by
  constructor
  · rintro ⟨data, own, other⟩
    refine ⟨⟨data, fun isOwn => (own isOwn).1⟩, ?_⟩
    constructor
    · rintro ⟨isOwn, output⟩
      exact ⟨(listed_of_event isOwn).mpr ((own isOwn).2 output), output⟩
    · rintro ⟨listed, output⟩
      exact ⟨by_contra fun notOwn => other notOwn output listed, output⟩
  · rintro ⟨⟨data, hashable⟩, same⟩
    refine ⟨data, fun isOwn => ⟨hashable isOwn, fun output => ?_⟩, ?_⟩
    · exact (listed_of_event isOwn).mp (same.mp ⟨isOwn, output⟩).1
    · exact fun notOwn output listed => notOwn (same.mpr ⟨listed, output⟩).1

section

variable {before : Created} {contractAddress : String} {localTip : Option ContractTip}
  {earlier : TaskParams}

/-- A call that waits is settled by the listener. -/
private theorem verdictByEvent_pending
    (pending : earlier.status = .recordCreated ∨ earlier.status = .recordUndefined)
    (event : TaskEvent) :
    verdictByEvent platform result contractAddress localTip earlier event =
      event.submissionNotice.bind fun notice =>
        (submissionListener platform result notice).toOption.map (·.isVerified) := by
  obtain status | status := pending <;>
    simp only [verdictByEvent, verifyTaskSubmissionNow, status]

private theorem verdictByState_verified {outputHash deltaHash : String}
    (notFailed : result.cls ≠ .failed) :
    verdictByState platform result contractAddress localTip before
        (.receiptVerified outputHash deltaHash) =
      some (caught (if result.cls = .deploy then
        checkDeployResult platform result
          ((TaskTransition.receiptVerified outputHash deltaHash).deltaHashes before).head?
          before.codeHash
        else checkComputeResult platform outputHash
          ((TaskTransition.receiptVerified outputHash deltaHash).deltaHashes before) result
          localTip)).isVerified := by
  change some (SubmissionVerdict.isVerified (if result.cls = .failed then _ else _)) = _
  rw [if_neg notFailed]
  rfl

private theorem verdictByState_deployed {codeHash deltaHash : String}
    (notFailed : result.cls ≠ .failed) :
    verdictByState platform result contractAddress localTip before
        (.secretContractDeployed codeHash deltaHash) =
      some (caught (if result.cls = .deploy then
        checkDeployResult platform result (before.deltaHashes ++ [deltaHash]).head? codeHash
        else checkComputeResult platform emptyHash (before.deltaHashes ++ [deltaHash]) result
          localTip)).isVerified := by
  change some (SubmissionVerdict.isVerified (if result.cls = .failed then _ else _)) = _
  rw [if_neg notFailed]
  rfl

/-- Agreement compares the listener with the verdict on the chain. -/
private theorem submissionAgrees_iff_notice {transition : TaskTransition}
    {notice : SubmissionNotice} (emitted : ∀ taskId,
      (parseEvent (transition.rawEvent before taskId)).submissionNotice = some notice) :
    SubmissionAgrees platform result localTip before transition ↔
      ∀ contractAddress, (submissionListener platform result notice).toOption.map
        (·.isVerified) =
          verdictByState platform result contractAddress localTip before transition := by
  constructor
  · intro agrees contractAddress
    have here := agrees "" contractAddress ⟨"", 0, 0, .recordCreated, ""⟩ (.inl rfl)
    rw [verdictByEvent_pending (.inl rfl), emitted] at here
    exact here
  · intro same taskId contractAddress earlier pending
    rw [verdictByEvent_pending pending, emitted]
    exact same contractAddress

/-- The same for a verdict on the chain that does not use the contract's address. -/
private theorem submissionAgrees_iff_checks {transition : TaskTransition}
    {notice : SubmissionNotice} (emitted : ∀ taskId,
      (parseEvent (transition.rawEvent before taskId)).submissionNotice = some notice)
    {check : Except Exn SubmissionVerdict} (read : ∀ contractAddress,
      verdictByState platform result contractAddress localTip before transition =
        some (caught check).isVerified) :
    SubmissionAgrees platform result localTip before transition ↔
      Settles (submissionListener platform result notice) ∧
        (Accepts (submissionListener platform result notice) ↔ Accepts check) := by
  rw [submissionAgrees_iff_notice emitted, ← toOption_eq_caught]
  simp only [read, forall_const]

/-- Both reject. -/
private theorem submissionAgrees_of_rejected {transition : TaskTransition}
    {notice : SubmissionNotice} (emitted : ∀ taskId,
      (parseEvent (transition.rawEvent before taskId)).submissionNotice = some notice)
    {cls : ErrClass} {message : String}
    (listener : submissionListener platform result notice = .ok (.rejected cls message))
    (read : ∀ contractAddress,
      verdictByState platform result contractAddress localTip before transition = some false) :
    SubmissionAgrees platform result localTip before transition := by
  rw [submissionAgrees_iff_notice emitted, listener]
  exact fun contractAddress => (read contractAddress).symm

/-- A failed result is not verified by a receipt or a deployment. -/
private theorem agrees_of_failed (cls : result.cls = .failed) {transition : TaskTransition}
    {notice : SubmissionNotice} (emitted : ∀ taskId,
      (parseEvent (transition.rawEvent before taskId)).submissionNotice = some notice)
    (listener : submissionListener platform result notice =
      .ok (.rejected .taskValidityErr ("Task " ++ idText result ++ " did not fail")))
    (verified : (transition.taskParams before).status = .receiptVerified) :
    SubmissionAgrees platform result localTip before transition := by
  refine submissionAgrees_of_rejected emitted listener fun contractAddress => ?_
  simp only [verdictByState, verifyTaskSubmissionNow, verified, if_pos cls]
  rfl

private theorem agrees_receiptVerified (decimal : ReadsDecimal platform)
    {outputHash deltaHash : String} (deployed : before.deltaHashes ≠ [])
    (tip : IsTip platform before.deltaHashes localTip) :
    SubmissionAgrees platform result localTip before (.receiptVerified outputHash deltaHash) ↔
      SubmissionHarmless platform result before (.receiptVerified outputHash deltaHash) := by
  have checks := fun notFailed : result.cls ≠ .failed =>
    submissionAgrees_iff_checks (fun _ => rfl)
      (@verdictByState_verified platform result before · localTip outputHash deltaHash notFailed)
  cases cls : result.cls with
  | failed =>
      refine iff_of_true (agrees_of_failed cls (fun _ => rfl) ?_ rfl) ?_
      · simp only [submissionListener, cls]
      · rw [SubmissionHarmless, cls]
        trivial
  | deploy =>
      have first :
          ((TaskTransition.receiptVerified outputHash deltaHash).deltaHashes before).head? =
          before.deltaHashes.head? := by
        rw [TaskTransition.deltaHashes]
        split
        · rw [List.head?_append_of_ne_nil _ deployed]
        · rfl
      rw [checks (by rw [cls]; decide), if_pos cls, accepts_checkDeployResult, first]
      simp only [submissionListener, SubmissionHarmless, cls]
      constructor
      · rintro ⟨-, same⟩ digest isFirst matches_
        exact not_accepts_rejected _ _ (same.mpr ⟨digest, isFirst, matches_⟩)
      · intro other
        refine ⟨settles_ok _, iff_of_false (not_accepts_rejected _ _) ?_⟩
        rintro ⟨digest, isFirst, matches_⟩
        exact other digest isFirst matches_
  | compute =>
      rw [checks (by rw [cls]; decide), if_neg (by rw [cls]; decide)]
      simp only [submissionListener, SubmissionHarmless, cls]
      by_cases hasDelta : result.hasDelta = true
      · obtain ⟨accepts, settles⟩ := @checkComputeResultEvent_delta platform result hasDelta
          outputHash deltaHash (TaskTransition.deltaHashIndex before deltaHash)
        rw [accepts_checkComputeResult_delta decimal hasDelta, if_pos hasDelta,
          receiptHarmless_iff]
        exact and_congr settles (iff_congr accepts Iff.rfl)
      · rw [if_neg hasDelta, accepts_checkComputeResult_tip hasDelta,
          checkComputeResultEvent_plain hasDelta, TaskTransition.deltaHashes]
        have hasTip : localTip ≠ none := by
          rintro rfl
          exact deployed tip
        by_cases fresh : deltaHash ≠ emptyHash
        · rw [if_pos fresh, if_pos fresh]
          refine iff_of_true ⟨settles_ok _, iff_of_false (not_accepts_rejected _ _) ?_⟩
            fun same => absurd same fresh
          rintro ⟨⟨-, moved⟩, -⟩
          -- the new delta moved the tip away from the local one
          obtain ⟨tip', rfl⟩ := Option.ne_none_iff_exists'.mp hasTip
          obtain ⟨-, -, old, -⟩ := tip
          obtain ⟨-, -, new, -⟩ := moved
          have same := Json.num.inj (Option.some.inj (old.symm.trans new))
          rw [List.length_append, List.length_singleton] at same
          push_cast at same
          linarith
        · rw [if_neg fresh, if_neg fresh, settles_checkOutput, accepts_checkOutput]
          constructor
          · exact fun both _ => both.1
          · exact fun hashable => ⟨hashable (not_not.mp fresh),
              fun output => ⟨⟨hasTip, tip⟩, output⟩, fun both => both.2⟩

private theorem agrees_secretContractDeployed (decimal : ReadsDecimal platform)
    {codeHash deltaHash : String} (fresh : before.deltaHashes = [])
    (tip : IsTip platform before.deltaHashes localTip) :
    SubmissionAgrees platform result localTip before
        (.secretContractDeployed codeHash deltaHash) ↔
      SubmissionHarmless platform result before (.secretContractDeployed codeHash deltaHash) := by
  have checks := fun notFailed : result.cls ≠ .failed =>
    submissionAgrees_iff_checks (fun _ => rfl)
      (@verdictByState_deployed platform result before · localTip codeHash deltaHash notFailed)
  have noTip : localTip = none := by
    cases localTip with
    | none => rfl
    | some localTip =>
        obtain ⟨last, isLast, -⟩ := tip
        rw [fresh] at isLast
        cases isLast
  cases cls : result.cls with
  | failed =>
      refine iff_of_true (agrees_of_failed cls (fun _ => rfl) ?_ rfl) ?_
      · simp only [submissionListener, cls]
      · rw [SubmissionHarmless, cls]
        trivial
  | deploy =>
      rw [checks (by rw [cls]; decide), if_pos cls, fresh]
      simp only [submissionListener, SubmissionHarmless, cls]
      rw [settles_checkDeployResult]
      exact and_iff_left Iff.rfl
  | compute =>
      rw [checks (by rw [cls]; decide), if_neg (by rw [cls]; decide), fresh]
      simp only [submissionListener, SubmissionHarmless, cls]
      by_cases hasDelta : result.hasDelta = true
      · rw [accepts_checkComputeResult_delta decimal hasDelta]
        constructor
        · rintro ⟨-, same⟩ - output listed
          exact not_accepts_rejected _ _ (same.mpr ⟨listed, output⟩)
        · intro other
          refine ⟨settles_ok _, iff_of_false (not_accepts_rejected _ _) ?_⟩
          exact fun both => other hasDelta both.2 both.1
      · rw [accepts_checkComputeResult_tip hasDelta, noTip]
        refine iff_of_true ⟨settles_ok _, iff_of_false (not_accepts_rejected _ _) ?_⟩
          fun has => absurd has hasDelta
        exact fun both => both.1.1 rfl

end

/-- The verdict of a submission is the same before and after its transition exactly where
the delta, the output and the class of the result leave the two checks no room. -/
theorem submissionAgrees_iff (decimal : ReadsDecimal platform) {before : Created}
    {localTip : Option ContractTip} (tip : IsTip platform before.deltaHashes localTip)
    {transition : TaskTransition} (possible : transition.Possible before.deltaHashes) :
    SubmissionAgrees platform result localTip before transition ↔
      SubmissionHarmless platform result before transition := by
  cases transition with
  | receiptVerified outputHash deltaHash => exact agrees_receiptVerified decimal possible tip
  | secretContractDeployed codeHash deltaHash =>
      exact agrees_secretContractDeployed decimal possible tip
  | receiptFailedETH =>
      exact iff_of_true (submissionAgrees_of_rejected (fun _ => rfl) rfl fun _ => rfl) trivial
  | receiptFailed outputHash =>
      rw [SubmissionHarmless]
      by_cases cls : result.cls = .failed
      · have read : ∀ contractAddress, verdictByState platform result contractAddress localTip
            before (.receiptFailed outputHash) =
              some (caught (checkOutput platform outputHash result)).isVerified := by
          intro contractAddress
          change some (SubmissionVerdict.isVerified (if result.cls = .failed then _ else _)) = _
          rw [if_pos cls]
          rfl
        rw [submissionAgrees_iff_checks (fun _ => rfl) read, submissionListener, if_pos cls,
          settles_checkOutput]
        exact ⟨fun both _ => both.1, fun hashable => ⟨hashable cls, Iff.rfl⟩⟩
      · refine iff_of_true ?_ fun failed => absurd failed cls
        refine submissionAgrees_of_rejected (fun _ => rfl) (if_neg cls) fun contractAddress => ?_
        change some (SubmissionVerdict.isVerified (if result.cls = .failed then _ else _)) = _
        rw [if_neg cls]
        rfl

/-! ## A delta that the contract already has -/

/-- Hashes of no bytes, of two deltas and of an output. -/
def receiptHashes : List (String × String) :=
  [("", "c5d2460186f7233c927e7db2dcc703c0e500b653ca82273b7bfad8045d85a470"),
    ("01", "5fe7f977e71dba2ea1a68e21057beebb9be2ac30c6410aa38d4f3fbe41dcffd2"),
    ("02", "f2ee15ea639b73fa3db9b34a245bdfa015c260c598b211bf05a1ecc4b3e3b4f2"),
    ("05", "dbb8d0f4c497851a5043c6363657698cb1387682cac2f786c731f8936109d795")]

def receiptPlatform : Platform :=
  { Platform.ofTable receiptHashes with
    stringToNumber := fun text => some (Nat.ofDigitChars 10 text.toList 0 : Nat) }

theorem receiptPlatform_readsDecimal : ReadsDecimal receiptPlatform := by
  intro n
  change some ((Nat.ofDigitChars 10 (toString n).toList 0 : Nat) : Rat) = _
  rw [show toString n = String.ofList (Nat.toDigits 10 n) from rfl, String.toList_ofList,
    Nat.ofDigitChars_toDigits (by decide) (by decide)]

/-- The contract has the delta `01`, and the receipt adds the delta `02`. -/
def receiptBefore : Created :=
  ⟨"0x00", 0, 1, "0x00", ["0x5fe7f977e71dba2ea1a68e21057beebb9be2ac30c6410aa38d4f3fbe41dcffd2"]⟩

def receiptTransition : TaskTransition :=
  .receiptVerified "0xdbb8d0f4c497851a5043c6363657698cb1387682cac2f786c731f8936109d795"
    "0xf2ee15ea639b73fa3db9b34a245bdfa015c260c598b211bf05a1ecc4b3e3b4f2"

def receiptTip : ContractTip := ⟨some (.num 0), some (.str "01")⟩

/-- A computation with the output `05` and a delta. -/
def receiptResult (key : Rat) (data : String) : Result where
  cls := .compute
  taskId := some (.str "aa")
  status := some (.str "SUCCESS")
  output := some (.str "05")
  delta := some (.obj [("key", .num key), ("data", .str data)])
  usedGas := some (.num 0)
  ethereumPayload := some (.str "")
  ethereumAddress := some (.str "")
  signature := some (.str "00")
  preCodeHash := none

theorem receiptTip_isTip :
    IsTip receiptPlatform receiptBefore.deltaHashes (some receiptTip) :=
  ⟨_, rfl, by decide +kernel, by unfold HashesTo; decide +kernel⟩

/-- The old delta in a new result is rejected with the event and accepted on the chain. -/
theorem submission_disagrees_on_old_delta :
    ¬ SubmissionAgrees receiptPlatform (receiptResult 0 "01") (some receiptTip) receiptBefore
      receiptTransition := by
  intro agrees
  have here := agrees "0xaa" "bb" ⟨"0x00", 0, 1, .recordCreated, emptyHash⟩ (.inl rfl)
  revert here
  decide +kernel

/-- With the delta of the receipt both verdicts are the same. -/
theorem submissionAgrees_on_new_delta :
    SubmissionAgrees receiptPlatform (receiptResult 1 "02") (some receiptTip) receiptBefore
      receiptTransition := by
  have data : HashesTo receiptPlatform (deltaField "data" (receiptResult 1 "02"))
      "0xf2ee15ea639b73fa3db9b34a245bdfa015c260c598b211bf05a1ecc4b3e3b4f2" := by
    unfold HashesTo
    decide +kernel
  have output : HashesTo receiptPlatform (receiptResult 1 "02").output
      "0xdbb8d0f4c497851a5043c6363657698cb1387682cac2f786c731f8936109d795" := by
    unfold HashesTo
    decide +kernel
  have harmless : ReceiptHarmless receiptPlatform (receiptResult 1 "02") receiptBefore
      "0xdbb8d0f4c497851a5043c6363657698cb1387682cac2f786c731f8936109d795"
      "0xf2ee15ea639b73fa3db9b34a245bdfa015c260c598b211bf05a1ecc4b3e3b4f2" :=
    ⟨data.hashable, fun _ => ⟨output.hashable, fun _ => .inl (by decide)⟩,
      fun other => absurd ⟨rfl, data⟩ other⟩
  refine (submissionAgrees_iff receiptPlatform_readsDecimal receiptTip_isTip
    (show receiptTransition.Possible _ from List.cons_ne_nil _ _)).mpr ?_
  rw [receiptTransition, SubmissionHarmless]
  exact harmless

end Ethereum
