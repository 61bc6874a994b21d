import EnigmaP2P.Ethereum.Settlement
import EnigmaP2P.Sync.Verifier

/-!
# Data that passes a verifier

Outputs and deltas come from peers as texts or as arrays of numbers. Both verifiers compare
the hash of the bytes that they convert to, and what is stored or sent to the core is the
value itself. The conversion loses the part of a text from the first character on that is
not part of a pair of digits, and what a number exceeds its byte by.
-/

namespace Ethereum

open Js Common Tasks Sync

/-- An output, the data of a delta or a bytecode as it comes from a peer. -/
inductive PeerData where
  | text (text : String)
  | numbers (numbers : List Rat)
  deriving DecidableEq

namespace PeerData

def toJson : PeerData → Json
  | text s => .str s
  | numbers items => .arr (items.map .num)

/-- The bytes that are hashed. -/
def bytes : PeerData → List UInt8
  | text s => Hex.decodePrefix s.toList
  | numbers items => items.map byteOf

/-- What a number exceeds its byte by. -/
def excess (q : Rat) : Rat :=
  q - (byteOf q).toNat

/-- Equal data, up to the case of hexadecimal digits. -/
def Same : PeerData → PeerData → Prop
  | text s, text t => s.toList.map Hex.lowerDigit = t.toList.map Hex.lowerDigit
  | numbers items, numbers others => items = others
  | _, _ => False

/-- Two texts or two arrays of which the conversion loses the same. -/
def SameLoss : PeerData → PeerData → Prop
  | text s, text t =>
      (Hex.remainder s.toList).map Hex.lowerDigit = (Hex.remainder t.toList).map Hex.lowerDigit
  | numbers items, numbers others => items.map excess = others.map excess
  | _, _ => False

instance : DecidableRel Same
  | text _, text _ => inferInstanceAs (Decidable (_ = _))
  | numbers _, numbers _ => inferInstanceAs (Decidable (_ = _))
  | text _, numbers _ => .isFalse id
  | numbers _, text _ => .isFalse id

theorem bufferFromHex_toJson (stringToNumber : String → Option Rat) (data : PeerData) :
    bufferFromHex stringToNumber (some data.toJson) = .ok data.bytes := by
  cases data with
  | text s => rfl
  | numbers items => exact bufferFromHex_numbers stringToNumber items

/-- Numbers with the same bytes are equal if they exceed them by the same. -/
theorem eq_iff_map_excess : ∀ {items others : List Rat},
    items.map byteOf = others.map byteOf →
      (items = others ↔ items.map excess = others.map excess)
  | [], [], _ => by simp
  | [], _ :: _, sameBytes => by cases sameBytes
  | _ :: _, [], sameBytes => by cases sameBytes
  | q :: items, r :: others, sameBytes => by
      obtain ⟨first, rest⟩ := List.cons.inj sameBytes
      have head : q = r ↔ excess q = excess r := by
        rw [excess, excess, first, sub_left_inj]
      rw [List.map_cons, List.map_cons, List.cons.injEq, List.cons.injEq, head,
        eq_iff_map_excess rest]

/-- Data with the same bytes is the same if the conversion loses the same of it. -/
theorem same_iff_of_bytes {a b : PeerData} (sameBytes : a.bytes = b.bytes) :
    a.Same b ↔ a.SameLoss b := by
  cases a with
  | text s =>
      cases b with
      | text t => exact Hex.map_lowerDigit_eq_iff sameBytes
      | numbers others => exact Iff.rfl
  | numbers items =>
      cases b with
      | text t => exact Iff.rfl
      | numbers others => exact eq_iff_map_excess sameBytes

/-- A text of digit pairs, or an array of bytes. -/
def WellFormed : PeerData → Prop
  | text s => ∃ bytes, Hex.decode? s.toList = some bytes
  | numbers items => ∃ bytes : List UInt8, items = bytes.map fun b => (b.toNat : Rat)

theorem excess_byte (b : UInt8) : excess (b.toNat : Rat) = 0 := by
  have same : byteOf (b.toNat : Rat) = b := Except.ok.inj (toUint8_byte (fun _ => none) b)
  rw [excess, same, sub_self]

def isText : PeerData → Bool
  | text _ => true
  | numbers _ => false

/-- Nothing is lost of well-formed data. -/
theorem sameLoss_of_wellFormed {a b : PeerData} (first : a.WellFormed) (second : b.WellFormed)
    (sameKind : a.isText = b.isText) (sameBytes : a.bytes = b.bytes) : a.SameLoss b := by
  cases a with
  | text s =>
      cases b with
      | text t =>
          obtain ⟨_, isFirst⟩ := first
          obtain ⟨_, isSecond⟩ := second
          rw [SameLoss, Hex.remainder_of_decode? isFirst, Hex.remainder_of_decode? isSecond]
      | numbers others => cases sameKind
  | numbers items =>
      cases b with
      | text t => cases sameKind
      | numbers others =>
          obtain ⟨_, rfl⟩ := first
          obtain ⟨_, rfl⟩ := second
          have lengths := congrArg List.length sameBytes
          simp only [bytes, List.length_map] at lengths
          simp only [SameLoss, List.map_map, Function.comp_def, excess_byte, List.map_const',
            lengths]

end PeerData

/-! ## What the verifiers accept -/

/-- The hash that a listener compares the output with. -/
def outputHashOf : SubmissionNotice → Option String
  | .taskSuccessSubmission _ _ outputHash | .taskFailureSubmission outputHash => some outputHash
  | .secretContractDeployment codeHash _ => some codeHash
  | .newEpoch | .taskFailureDueToEthereumCB => none

/-- The hash that a listener compares the delta with. -/
def deltaHashOf : SubmissionNotice → Option String
  | .taskSuccessSubmission stateDeltaHash _ _ | .secretContractDeployment _ stateDeltaHash =>
      some stateDeltaHash
  | _ => none

variable (platform : Platform)

/-- The submission verifier accepts a result with this output or delta, which it compares
with this hash: that of an event, or that of the task and its contract. -/
inductive SubmissionAccepts (digest : String) (value : Json) : Prop
  | listenedOutput {result : Result} {notice : SubmissionNotice}
      (accepts : Accepts (submissionListener platform result notice))
      (compared : outputHashOf notice = some digest) (output : result.output = some value)
  | listenedDelta {result : Result} {notice : SubmissionNotice}
      (accepts : Accepts (submissionListener platform result notice))
      (compared : deltaHashOf notice = some digest) (hasDelta : result.hasDelta = true)
      (delta : deltaField "data" result = some value)
  | readOutput {params : TaskParams} {answer : Except String ContractAnswer} {result : Result}
      {contractAddress : String} {localTip : Option ContractTip} {verdict : SubmissionVerdict}
      (settled : verifyTaskSubmissionNow platform (.ok params) answer result contractAddress
        localTip = .settled verdict) (isVerified : verdict.isVerified = true)
      (compared : if result.cls = .deploy then answer.map (·.codeHash) = .ok digest
        else params.outputHash = digest)
      (output : result.output = some value)
  | readDelta {params : TaskParams} {codeHash : String} {deltaHashes : List String}
      {result : Result} {contractAddress : String} {localTip : Option ContractTip}
      {verdict : SubmissionVerdict}
      (settled : verifyTaskSubmissionNow platform (.ok params)
        (.ok ⟨codeHash, some deltaHashes⟩) result contractAddress localTip = .settled verdict)
      (isVerified : verdict.isVerified = true) (succeeded : result.cls ≠ .failed)
      (compared : elementAt deltaHashes (deltaField "key" result) = .ok (some digest))
      (hasDelta : result.hasDelta = true) (delta : deltaField "data" result = some value)

/-- The sync verifier accepts a response that carries this delta or bytecode, for which this
hash is recorded. -/
inductive SyncAccepts (digest : String) (value : Json) : Prop
  | delta {remoteMissingStates : RemoteMissingStates} {msg : SyncResMsg}
      {address index : String} {remote : RemoteState}
      (verified : verify platform remoteMissingStates msg = .ok none)
      (carried : CarriesDelta platform msg address index (some value))
      (known : remoteMissingStates.lookup address = some remote)
      (compared : remote.deltas.lookup index = some digest)
  | bytecode {remoteMissingStates : RemoteMissingStates} {msg : SyncResMsg}
      {address : String} {remote : RemoteState}
      (verified : verify platform remoteMissingStates msg = .ok none)
      (carried : CarriesBytecode msg address (some value))
      (known : remoteMissingStates.lookup address = some remote)
      (compared : remote.bytecodeHash = some digest)

def VerifierAccepts (digest : String) (value : Json) : Prop :=
  SubmissionAccepts platform digest value ∨ SyncAccepts platform digest value

variable {platform} {digest : String} {value : Json}

theorem accepts_caught {check : Except Exn SubmissionVerdict}
    (isVerified : (caught check).isVerified = true) : Accepts check := by
  cases check with
  | error exn => cases isVerified
  | ok verdict => exact ⟨verdict, rfl, isVerified⟩

/-- An accepted computation has the output of its task. -/
theorem hashesTo_of_accepts_compute {outputHash : String} {deltaHashes : List String}
    {result : Result} {localTip : Option ContractTip}
    (accepts : Accepts (checkComputeResult platform outputHash deltaHashes result localTip)) :
    HashesTo platform result.output outputHash := by
  by_cases hasDelta : result.hasDelta = true
  · exact ((accepts_checkComputeResult hasDelta).mp accepts).2
  · exact ((accepts_checkComputeResult_tip hasDelta).mp accepts).2

/-- What a listener accepts has the hashes of its event. -/
theorem hashesTo_of_listener {result : Result} {notice : SubmissionNotice}
    (accepts : Accepts (submissionListener platform result notice)) :
    (∀ digest ∈ outputHashOf notice, HashesTo platform result.output digest) ∧
    (result.hasDelta = true → ∀ digest ∈ deltaHashOf notice,
      HashesTo platform (deltaField "data" result) digest) := by
  cases notice with
  | newEpoch => exact ⟨nofun, nofun⟩
  | taskFailureDueToEthereumCB => exact ⟨nofun, nofun⟩
  | taskFailureSubmission outputHash =>
      refine ⟨?_, nofun⟩
      rintro _ ⟨⟩
      simp only [submissionListener] at accepts
      split at accepts
      · exact accepts_checkOutput.mp accepts
      · exact absurd accepts (not_accepts_rejected _ _)
  | secretContractDeployment codeHash stateDeltaHash =>
      simp only [submissionListener] at accepts
      split at accepts
      · exact absurd accepts (not_accepts_rejected _ _)
      · obtain ⟨_, ⟨rfl⟩, -, delta, output⟩ := accepts_checkDeployResult.mp accepts
        constructor
        · rintro _ ⟨⟩
          exact output
        · rintro - _ ⟨⟩
          exact delta.2
      · exact absurd accepts (not_accepts_rejected _ _)
  | taskSuccessSubmission stateDeltaHash index outputHash =>
      simp only [submissionListener] at accepts
      split at accepts
      · exact absurd accepts (not_accepts_rejected _ _)
      · by_cases hasDelta : result.hasDelta = true
        · obtain ⟨delta, output⟩ := (checkComputeResultEvent_delta hasDelta).1.mp accepts
          constructor
          · rintro _ ⟨⟩
            exact output
          · rintro - _ ⟨⟩
            exact delta.2
        · refine ⟨?_, fun has => absurd has hasDelta⟩
          rintro _ ⟨⟩
          rw [checkComputeResultEvent_plain hasDelta] at accepts
          split at accepts
          · exact absurd accepts (not_accepts_rejected _ _)
          · exact accepts_checkOutput.mp accepts
      · exact absurd accepts (not_accepts_rejected _ _)

/-- A settled and accepted result is one that failed with its output, or one that passed the
check of its class against the contract. -/
theorem of_settled {params : TaskParams} {answer : Except String ContractAnswer}
    {result : Result} {contractAddress : String} {localTip : Option ContractTip}
    {verdict : SubmissionVerdict}
    (settled : verifyTaskSubmissionNow platform (.ok params) answer result contractAddress
      localTip = .settled verdict) (isVerified : verdict.isVerified = true) :
    (result.cls = .failed ∧ HashesTo platform result.output params.outputHash) ∨
    ∃ codeHash deltaHashes, answer = .ok ⟨codeHash, some deltaHashes⟩ ∧
      Accepts (if result.cls = .deploy then
        checkDeployResult platform result deltaHashes.head? codeHash
      else checkComputeResult platform params.outputHash deltaHashes result localTip) := by
  rw [verifyTaskSubmissionNow] at settled
  cases status : params.status with
  | receiptVerified =>
      simp only [status] at settled
      cases settled
      split at isVerified
      · cases isVerified
      · have accepts := accepts_caught isVerified
        cases answer with
        | error reason => exact absurd accepts (not_accepts_rejected _ _)
        | ok answer =>
            obtain ⟨codeHash, _ | deltaHashes⟩ := answer
            · exact absurd accepts (not_accepts_rejected _ _)
            · exact .inr ⟨codeHash, deltaHashes, rfl, accepts⟩
  | receiptFailed =>
      simp only [status] at settled
      cases settled
      split at isVerified
      · rename_i failed
        exact .inl ⟨failed, accepts_checkOutput.mp (accepts_caught isVerified)⟩
      · cases isVerified
  | receiptFailedETH =>
      simp only [status] at settled
      cases settled
      cases isVerified
  | receiptFailedCancelled =>
      simp only [status] at settled
      cases settled
      cases isVerified
  | recordCreated =>
      simp only [status] at settled
      cases settled
  | recordUndefined =>
      simp only [status] at settled
      cases settled

/-- Whatever the submission verifier accepts has the hash that it is compared with. -/
theorem SubmissionAccepts.hashesTo (accepted : SubmissionAccepts platform digest value) :
    HashesTo platform (some value) digest := by
  cases accepted with
  | listenedOutput accepts compared output =>
      rw [← output]
      exact (hashesTo_of_listener accepts).1 digest compared
  | listenedDelta accepts compared hasDelta delta =>
      rw [← delta]
      exact (hashesTo_of_listener accepts).2 hasDelta digest compared
  | readOutput settled isVerified compared output =>
      rw [← output]
      rcases of_settled settled isVerified with ⟨failed, hashed⟩ | ⟨code, list, rfl, accepts⟩
      · rw [if_neg (by rw [failed]; nofun)] at compared
        rw [← compared]
        exact hashed
      · split at accepts
        · rename_i deploys
          rw [if_pos deploys] at compared
          cases compared
          obtain ⟨_, -, -, -, output⟩ := accepts_checkDeployResult.mp accepts
          exact output
        · rename_i computes
          rw [if_neg computes] at compared
          rw [← compared]
          exact hashesTo_of_accepts_compute accepts
  | readDelta settled isVerified succeeded compared hasDelta delta =>
      rw [← delta]
      rcases of_settled settled isVerified with ⟨failed, -⟩ | ⟨_, _, ⟨rfl⟩, accepts⟩
      · exact absurd failed succeeded
      · split at accepts
        · obtain ⟨first, isFirst, -, ⟨isKey, hashed⟩, -⟩ := accepts_checkDeployResult.mp accepts
          have listed : elementAt _ (deltaField "key" _) = .ok (some first) :=
            elementAt_eq_some.mpr ⟨0, by rw [isKey]; rfl, by rw [← List.head?_eq_getElem?, isFirst]⟩
          cases listed.symm.trans compared
          exact hashed
        · obtain ⟨passed, -⟩ := (accepts_checkComputeResult hasDelta).mp accepts
          obtain ⟨listed, found, hashed⟩ := listed_of_checkDelta passed
          cases found.symm.trans compared
          exact hashed

/-- Whatever the sync verifier accepts has the hash that is recorded for it. -/
theorem SyncAccepts.hashesTo (accepted : SyncAccepts platform digest value) :
    HashesTo platform (some value) digest := by
  cases accepted with
  | delta verified carried known compared =>
      obtain ⟨remote, recorded, known', compared', hashed⟩ := matches_of_verify verified carried
      cases known.symm.trans known'
      cases compared.symm.trans compared'
      exact hashed
  | bytecode verified carried known compared =>
      obtain ⟨remote, recorded, known', compared', hashed⟩ :=
        matchesBytecode_of_verify verified carried
      cases known.symm.trans known'
      cases compared.symm.trans compared'
      exact hashed

/-- The bytes of accepted data have the hash. -/
theorem VerifierAccepts.sha3 {data : PeerData}
    (accepted : VerifierAccepts platform digest data.toJson) :
    platform.sha3 data.bytes = some digest := by
  have hashed : HashesTo platform (some data.toJson) digest :=
    accepted.elim (·.hashesTo) (·.hashesTo)
  rw [HashesTo, Common.hash, PeerData.bufferFromHex_toJson] at hashed
  exact Except.ok.inj hashed

/-- The output of a failed task is accepted if its bytes have the hash. -/
theorem submissionAccepts_of_sha3 {data : PeerData}
    (hashed : platform.sha3 data.bytes = some digest) :
    SubmissionAccepts platform digest data.toJson := by
  refine @SubmissionAccepts.listenedOutput platform digest data.toJson
    (.ofFields .failed [("output", data.toJson)]) (.taskFailureSubmission digest) ?_ rfl rfl
  refine accepts_checkOutput.mpr ?_
  change Common.hash platform (some data.toJson) = _
  rw [Common.hash, PeerData.bufferFromHex_toJson]
  exact congrArg Except.ok hashed

/-- The data of a delta in a response is accepted if its bytes have the hash. -/
theorem syncAccepts_of_sha3 {data : PeerData}
    (hashed : platform.sha3 data.bytes = some digest) :
    SyncAccepts platform digest data.toJson := by
  let delta : Json := .obj [("address", .str "aa"), ("key", .num 0), ("data", data.toJson)]
  let msg : SyncResMsg := .state [("result", .obj [("deltas", .arr [delta])])]
  have recorded : MatchesDelta platform [("aa", ⟨[("0", digest)], none⟩)] "aa" "0"
      (some data.toJson) := by
    refine ⟨_, digest, rfl, rfl, ?_⟩
    rw [Common.hash, PeerData.bufferFromHex_toJson]
    exact congrArg Except.ok hashed
  have passes : ∀ item ∈ [some delta], verifyDelta platform [("aa", ⟨[("0", digest)], none⟩)]
      item = .ok none := by
    intro item member
    cases List.mem_singleton.mp member
    have notNull : delta ≠ .null := by simp [delta]
    exact verifyDelta_of_matches notNull rfl rfl recorded
  have carried : CarriesDelta platform msg "aa" "0" (some data.toJson) :=
    ⟨_, _, _, delta, rfl, rfl, rfl, List.mem_singleton_self _, rfl, rfl, rfl⟩
  have verified : verify platform [("aa", ⟨[("0", digest)], none⟩)] msg = .ok none :=
    verifyDeltas_of_forall passes
  exact .delta verified carried rfl rfl

/-- Data that is accepted against one hash is the same exactly if both are texts or both
arrays and the conversion to bytes loses the same of both. -/
theorem same_iff_of_accepted (injective : Function.Injective platform.keccak256)
    {a b : PeerData} (first : VerifierAccepts platform digest a.toJson)
    (second : VerifierAccepts platform digest b.toJson) : a.Same b ↔ a.SameLoss b :=
  PeerData.same_iff_of_bytes (Platform.sha3_injective injective first.sha3 second.sha3)

/-- The hash of the byte 171. -/
def abHash : String :=
  "0x468fc9c005382579139846222b7b0aebc9182ba073b2455938a86d9753bfb078"

def abPlatform : Platform :=
  .ofTable [("ab", "468fc9c005382579139846222b7b0aebc9182ba073b2455938a86d9753bfb078")]

theorem abPlatform_injective : Function.Injective abPlatform.keccak256 :=
  (Platform.ofTable_lawful (by decide) (by decide +kernel)).keccak256_injective

theorem abPlatform_sha3 : abPlatform.sha3 [171] = some abHash := by decide +kernel

/-- A text with something that is no digit at its end is an accepted output, an array with a
number that is no byte is an accepted delta, and a text is accepted for an array. -/
theorem different_accepted :
    (SubmissionAccepts abPlatform abHash (PeerData.text "ab").toJson ∧
      SubmissionAccepts abPlatform abHash (PeerData.text "abzz").toJson ∧
      ¬ (PeerData.text "ab").Same (.text "abzz")) ∧
    (SyncAccepts abPlatform abHash (PeerData.numbers [171]).toJson ∧
      SyncAccepts abPlatform abHash (PeerData.numbers [427]).toJson ∧
      ¬ (PeerData.numbers [171]).Same (.numbers [427])) ∧
    (SyncAccepts abPlatform abHash (PeerData.numbers [171]).toJson ∧
      SyncAccepts abPlatform abHash (PeerData.text "ab").toJson ∧
      ¬ (PeerData.numbers [171]).Same (.text "ab")) ∧
    Function.Injective abPlatform.keccak256 :=
  ⟨⟨submissionAccepts_of_sha3 abPlatform_sha3, submissionAccepts_of_sha3 abPlatform_sha3,
    by decide⟩,
  ⟨syncAccepts_of_sha3 abPlatform_sha3, syncAccepts_of_sha3 abPlatform_sha3, by decide⟩,
  ⟨syncAccepts_of_sha3 abPlatform_sha3, syncAccepts_of_sha3 abPlatform_sha3, by decide⟩,
  abPlatform_injective⟩

theorem same_iff_of_accepted_case :
    (PeerData.text "ab").Same (.text "AB") ↔ (PeerData.text "ab").SameLoss (.text "AB") :=
  same_iff_of_accepted abPlatform_injective (.inl (submissionAccepts_of_sha3 abPlatform_sha3))
    (.inl (submissionAccepts_of_sha3 abPlatform_sha3))

end Ethereum
