import EnigmaP2P.Common.Cryptography
import EnigmaP2P.Common.Errors
import EnigmaP2P.Tasks.Task

/-!
# Binding of a task to its record

`_verifyTaskCreateParams` compares the hash of a task's inputs with the inputs hash of
the task record on the chain. The hash is over a list without a tag for the class of the
task: its third element is the hash of the pre-code of a deployment, or the contract
address of a computation. For hexadecimal inputs, which are what the hashing package
documents, the record binds the bytes of every element and nothing else.
-/

namespace Ethereum

open Js Common Tasks

/-- The `isVerified` and `error` of an answer. -/
structure Verdict where
  isVerified : Bool
  error : Option Err
  deriving DecidableEq

def Verdict.accepted : Verdict := ⟨true, none⟩

variable (platform : Platform)

/-- The list whose hash the record holds. -/
def paramsArray : Task → Except Exn (List (Option Json))
  | .deploy fields preCode => do
      let preCodeHash ← Common.hash platform preCode
      pure [fields.encryptedFn, fields.encryptedArgs, preCodeHash.map .str, fields.userDHKey]
  | .compute fields =>
      .ok [fields.encryptedFn, fields.encryptedArgs, fields.contractAddr.map .str,
        fields.userDHKey]

/-- `_verifyTaskCreateParams`. -/
def verifyTaskCreateParams (inputsHash : String) (task : Task) : Except Exn Verdict := do
  let params ← paramsArray platform task
  let digest ← hashArray platform params
  if digest = some inputsHash then pure .accepted
  else pure ⟨false, some ⟨.taskVerificationErr,
    "Mismatch in inputs hash in task record " ++ orNull task.getTaskId⟩⟩

/-! ## Bytes of a task -/

/-- The field is hexadecimal text of fewer than `2 ^ 64` bytes. -/
def IsHexField (value : Option Json) : Prop :=
  ∃ bytes, hexBytes value = some bytes ∧ bytes.length < 2 ^ 64

/-- `Buffer.from(preCode, "hex")`, where that does not throw. -/
def preCodeBytes (preCode : Option Json) : Option (List UInt8) :=
  (bufferFromHex platform.stringToNumber preCode).toOption

/-- The inputs are hexadecimal text, and the hash of a pre-code has 32 bytes. -/
def HexInputs : Task → Prop
  | .deploy fields preCode =>
      IsHexField fields.encryptedFn ∧ IsHexField fields.encryptedArgs ∧
      IsHexField fields.userDHKey ∧
      ∀ bytes, preCodeBytes platform preCode = some bytes →
        (platform.keccak256 bytes).length = 32
  | .compute fields =>
      IsHexField fields.encryptedFn ∧ IsHexField fields.encryptedArgs ∧
      IsHexField fields.userDHKey ∧ IsHexField (fields.contractAddr.map .str)

/-- The third element of the hashed list, as bytes. -/
def codeBytes : Task → Option (List UInt8)
  | .deploy _ preCode => (preCodeBytes platform preCode).map platform.keccak256
  | .compute fields => hexBytes (fields.contractAddr.map .str)

variable {platform}

/-- What acceptance says: the record holds the hash of the inputs. -/
theorem accepted_iff {inputsHash : String} {task : Task} :
    verifyTaskCreateParams platform inputsHash task = .ok .accepted ↔
      ∃ params, paramsArray platform task = .ok params ∧
        hashArray platform params = .ok (some inputsHash) := by
  constructor
  · intro accepted
    obtain ⟨params, built, accepted⟩ := bind_eq_ok.mp accepted
    obtain ⟨digest, hashed, accepted⟩ := bind_eq_ok.mp accepted
    split at accepted
    · rename_i same
      exact ⟨params, built, same ▸ hashed⟩
    · cases accepted
  · rintro ⟨params, built, hashed⟩
    rw [verifyTaskCreateParams, built]
    change (hashArray platform params >>= _) = _
    rw [hashed]
    exact if_pos rfl

/-- The hashed list of a task with hexadecimal inputs, whose hash is not `null`. -/
theorem params_of_accepted {task : Task} (hex : HexInputs platform task)
    {params : List (Option Json)} {digest : String}
    (built : paramsArray platform task = .ok params)
    (hashed : hashArray platform params = .ok (some digest)) :
    ∃ fn args code key,
      hexBytes task.fields.encryptedFn = some fn ∧ hexBytes task.fields.encryptedArgs = some args ∧
      codeBytes platform task = some code ∧ hexBytes task.fields.userDHKey = some key ∧
      List.Forall₂ (fun value bytes => hexBytes value = some bytes) params [fn, args, code, key] ∧
      ∀ bytes ∈ [fn, args, code, key], bytes.length < 2 ^ 64 := by
  cases task with
  | compute fields =>
      obtain ⟨⟨fn, hfn, sfn⟩, ⟨args, hargs, sargs⟩, ⟨key, hkey, skey⟩, code, hcode, scode⟩ := hex
      cases built
      refine ⟨fn, args, code, key, hfn, hargs, hcode, hkey,
        .cons hfn (.cons hargs (.cons hcode (.cons hkey .nil))), ?_⟩
      simp only [List.forall_mem_cons]
      exact ⟨sfn, sargs, scode, skey, nofun⟩
  | deploy fields preCode =>
      obtain ⟨⟨fn, hfn, sfn⟩, ⟨args, hargs, sargs⟩, ⟨key, hkey, skey⟩, digestLength⟩ := hex
      obtain ⟨preCodeHash, codeHashed, built⟩ := bind_eq_ok.mp built
      cases built
      obtain ⟨bytes, buffer, digestOf⟩ := bind_eq_ok.mp codeHashed
      have read : preCodeBytes platform preCode = some bytes := by
        rw [preCodeBytes, buffer]
        rfl
      cases preCodeHash with
      | none =>
          -- `hashArray` throws at an element that is `null`
          have thrown : hashArray platform [fields.encryptedFn, fields.encryptedArgs, none,
              fields.userDHKey] = .error .typeError := by
            obtain ⟨fnText, fnOk, -⟩ := hashArrayPart_hex hfn sfn
            obtain ⟨argsText, argsOk, -⟩ := hashArrayPart_hex hargs sargs
            rw [hashArray, hashArrayText, hashArrayText, hashArrayText, fnOk, argsOk]
            rfl
          cases thrown.symm.trans hashed
      | some text =>
          have isDigest := Platform.sha3_eq_some (Except.ok.inj digestOf)
          have hcode : hexBytes (some (.str text)) = some (platform.keccak256 bytes) := by
            rw [isDigest]
            exact hexBytes_hexText _
          refine ⟨fn, args, platform.keccak256 bytes, key, hfn, hargs, ?_, hkey,
            .cons hfn (.cons hargs (.cons hcode (.cons hkey .nil))), ?_⟩
          · rw [codeBytes, read]
            rfl
          · have scode : (platform.keccak256 bytes).length < 2 ^ 64 := by
              rw [digestLength bytes read]
              decide
            simp only [List.forall_mem_cons]
            exact ⟨sfn, sargs, scode, skey, nofun⟩

/-- Two tasks that are accepted against one inputs hash have the same bytes in every
element of the hashed list. In particular two tasks of one class have the same contract
address or pre-code, and the contract address of a computation that is accepted where a
deployment is accepted is the hash of the pre-code of that deployment. -/
theorem verifyTaskCreateParams_binding (lawful : platform.Lawful) {inputsHash : String}
    {a b : Task} (hexA : HexInputs platform a) (hexB : HexInputs platform b)
    (acceptedA : verifyTaskCreateParams platform inputsHash a = .ok .accepted)
    (acceptedB : verifyTaskCreateParams platform inputsHash b = .ok .accepted) :
    hexBytes a.fields.encryptedFn = hexBytes b.fields.encryptedFn ∧
    hexBytes a.fields.encryptedArgs = hexBytes b.fields.encryptedArgs ∧
    hexBytes a.fields.userDHKey = hexBytes b.fields.userDHKey ∧
    match a, b with
    | .deploy _ preCodeA, .deploy _ preCodeB =>
        preCodeBytes platform preCodeA = preCodeBytes platform preCodeB
    | .compute fieldsA, .compute fieldsB =>
        hexBytes (fieldsA.contractAddr.map .str) = hexBytes (fieldsB.contractAddr.map .str)
    | .deploy _ preCode, .compute fields | .compute fields, .deploy _ preCode =>
        hexBytes (fields.contractAddr.map .str) =
          (preCodeBytes platform preCode).map platform.keccak256 := by
  obtain ⟨paramsA, builtA, hashedA⟩ := accepted_iff.mp acceptedA
  obtain ⟨paramsB, builtB, hashedB⟩ := accepted_iff.mp acceptedB
  obtain ⟨fnA, argsA, codeA, keyA, hfnA, hargsA, hcodeA, hkeyA, allA, shortA⟩ :=
    params_of_accepted hexA builtA hashedA
  obtain ⟨fnB, argsB, codeB, keyB, hfnB, hargsB, hcodeB, hkeyB, allB, shortB⟩ :=
    params_of_accepted hexB builtB hashedB
  have same := hashArray_injective lawful allA allB shortA shortB hashedA hashedB
  injection same with fn rest
  injection rest with args rest
  injection rest with code rest
  injection rest with key
  subst fn args code key
  refine ⟨hfnA.trans hfnB.symm, hargsA.trans hargsB.symm, hkeyA.trans hkeyB.symm, ?_⟩
  have sameCode := hcodeA.trans hcodeB.symm
  cases a with
  | deploy fieldsA preCodeA =>
      cases b with
      | deploy fieldsB preCodeB =>
          exact Option.map_injective lawful.keccak256_injective sameCode
      | compute fieldsB => exact sameCode.symm
  | compute fieldsA =>
      cases b with
      | deploy fieldsB preCodeB => exact sameCode
      | compute fieldsB => exact sameCode

/-- Hashes of no bytes, of the pre-code `01`, and of the inputs of a deployment with it. -/
def deploymentHashes : List (String × String) :=
  [("", "c5d2460186f7233c927e7db2dcc703c0e500b653ca82273b7bfad8045d85a470"),
    ("01", "5fe7f977e71dba2ea1a68e21057beebb9be2ac30c6410aa38d4f3fbe41dcffd2"),
    ("000000000000000102000000000000000103" ++
      "00000000000000205fe7f977e71dba2ea1a68e21057beebb9be2ac30c6410aa38d4f3fbe41dcffd2" ++
      "000000000000000105", "c58047d11b8988dc21ef944b3e38967ac716a5739582252d38b655d92445999e")]

def deploymentInputs (contractAddr : String) : TaskFields where
  taskId := some "aa"
  contractAddr := some contractAddr
  encryptedArgs := some (.str "03")
  encryptedFn := some (.str "02")
  userDHKey := some (.str "05")
  gasLimit := some (.num 0)
  blockNumber := some (.num 0)

def deploymentInputsHash : String :=
  "0xc58047d11b8988dc21ef944b3e38967ac716a5739582252d38b655d92445999e"

theorem deploymentHashes_lawful : (Platform.ofTable deploymentHashes).Lawful :=
  Platform.ofTable_lawful (by decide +kernel) (by decide +kernel)

/-- The hash of the pre-code `01`, and that it is written as in the list. -/
def preCodeDigest : List UInt8 :=
  (Platform.ofTable deploymentHashes).keccak256 [1]

private theorem hexBytes_preCodeDigest :
    hexBytes (some (.str "5fe7f977e71dba2ea1a68e21057beebb9be2ac30c6410aa38d4f3fbe41dcffd2")) =
      some preCodeDigest := by
  decide +kernel

private theorem length_preCodeDigest : preCodeDigest.length = 32 := by
  decide +kernel

private theorem decodePrefix_preCode : Hex.decodePrefix "01".toList = [1] := by
  decide

private theorem hexText_deployment :
    hexText ((Platform.ofTable deploymentHashes).keccak256
      (Hex.frame [[2], [3], preCodeDigest, [5]])) = deploymentInputsHash := by
  decide +kernel

/-- Whatever spells these bytes has the inputs hash. -/
private theorem hashArray_deployment {params : List (Option Json)}
    (spelled : List.Forall₂ (fun value bytes => hexBytes value = some bytes) params
      [[2], [3], preCodeDigest, [5]]) :
    hashArray (Platform.ofTable deploymentHashes) params = .ok (some deploymentInputsHash) := by
  have lawful := deploymentHashes_lawful
  have one : ∀ byte : UInt8, [byte].length < 2 ^ 64 := fun _ => Nat.one_lt_two_pow (by decide)
  have digest : preCodeDigest.length < 2 ^ 64 := by
    rw [length_preCodeDigest]
    decide
  have short : ∀ bytes ∈ [[2], [3], preCodeDigest, [5]], bytes.length < 2 ^ 64 :=
    List.forall_mem_cons.mpr ⟨one 2, List.forall_mem_cons.mpr ⟨one 3,
      List.forall_mem_cons.mpr ⟨digest, List.forall_mem_singleton.mpr (one 5)⟩⟩⟩
  rw [hashArray_hex lawful spelled short,
    Platform.sha3_of_ne_nil lawful.keccak256_injective (by nofun), hexText_deployment]

/-- So the deployment of the pre-code is accepted, however its inputs are spelled. -/
private theorem tableDeployment_accepted {fields : TaskFields}
    (fn : hexBytes fields.encryptedFn = some [2]) (args : hexBytes fields.encryptedArgs = some [3])
    (key : hexBytes fields.userDHKey = some [5]) :
    verifyTaskCreateParams (Platform.ofTable deploymentHashes) deploymentInputsHash
      (.deploy fields (some (.str "01"))) = .ok .accepted := by
  have hashed : Common.hash (Platform.ofTable deploymentHashes) (some (.str "01")) =
      .ok (some (hexText preCodeDigest)) := by
    rw [Common.hash, bufferFromHex_str, decodePrefix_preCode]
    change Except.ok (Platform.sha3 _ [1]) = _
    rw [Platform.sha3_of_ne_nil deploymentHashes_lawful.keccak256_injective
      (List.cons_ne_nil 1 []), preCodeDigest]
  refine accepted_iff.mpr ⟨_, ?_, hashArray_deployment
    (.cons fn (.cons args (.cons (hexBytes_hexText preCodeDigest) (.cons key .nil))))⟩
  rw [paramsArray, hashed]
  rfl

/-- And so is the computation on the contract address that is its hash. -/
private theorem tableComputation_accepted :
    verifyTaskCreateParams (Platform.ofTable deploymentHashes) deploymentInputsHash
      (.compute (deploymentInputs
        "5fe7f977e71dba2ea1a68e21057beebb9be2ac30c6410aa38d4f3fbe41dcffd2")) = .ok .accepted :=
  accepted_iff.mpr ⟨_, rfl, hashArray_deployment
    (.cons (by decide) (.cons (by decide)
      (.cons hexBytes_preCodeDigest (.cons (by decide) .nil))))⟩

/-- One inputs hash accepts a deployment, the computation on the contract address that is
the hash of its pre-code, and the same deployment with a prefixed function. -/
theorem verifyTaskCreateParams_both_classes :
    let platform := Platform.ofTable deploymentHashes
    let deploy := Task.deploy (deploymentInputs "aa") (some (.str "01"))
    let compute := Task.compute (deploymentInputs
      "5fe7f977e71dba2ea1a68e21057beebb9be2ac30c6410aa38d4f3fbe41dcffd2")
    let respelled := Task.deploy
      { deploymentInputs "aa" with encryptedFn := some (.str "0x02") } (some (.str "01"))
    platform.Lawful ∧ deploy.getTaskId = compute.getTaskId ∧
      deploy.getTaskId = respelled.getTaskId ∧
      verifyTaskCreateParams platform deploymentInputsHash deploy = .ok .accepted ∧
      verifyTaskCreateParams platform deploymentInputsHash compute = .ok .accepted ∧
      verifyTaskCreateParams platform deploymentInputsHash respelled = .ok .accepted ∧
      deploy.fields.encryptedFn ≠ respelled.fields.encryptedFn :=
  ⟨deploymentHashes_lawful, by decide, by decide,
    tableDeployment_accepted (by decide) (by decide) (by decide), tableComputation_accepted,
    tableDeployment_accepted (by decide) (by decide) (by decide), by decide⟩

/-- The binding at a deployment and the computation that shares its inputs hash. -/
theorem verifyTaskCreateParams_binding_both_classes :
    let computation := deploymentInputs
      "5fe7f977e71dba2ea1a68e21057beebb9be2ac30c6410aa38d4f3fbe41dcffd2"
    hexBytes (deploymentInputs "aa").encryptedFn = hexBytes computation.encryptedFn ∧
    hexBytes (deploymentInputs "aa").encryptedArgs = hexBytes computation.encryptedArgs ∧
    hexBytes (deploymentInputs "aa").userDHKey = hexBytes computation.userDHKey ∧
    hexBytes (some (.str "5fe7f977e71dba2ea1a68e21057beebb9be2ac30c6410aa38d4f3fbe41dcffd2")) =
      (preCodeBytes (Platform.ofTable deploymentHashes) (some (.str "01"))).map
        (Platform.ofTable deploymentHashes).keccak256 := by
  intro computation
  have one : ∀ byte : UInt8, [byte].length < 2 ^ 64 := fun _ => Nat.one_lt_two_pow (by decide)
  have hexA : HexInputs (Platform.ofTable deploymentHashes)
      (.deploy (deploymentInputs "aa") (some (.str "01"))) := by
    refine ⟨⟨[2], by decide, one 2⟩, ⟨[3], by decide, one 3⟩, ⟨[5], by decide, one 5⟩, ?_⟩
    intro bytes read
    rw [preCodeBytes, bufferFromHex_str, decodePrefix_preCode] at read
    cases read
    exact length_preCodeDigest
  have hexB : HexInputs (Platform.ofTable deploymentHashes) (.compute (deploymentInputs
      "5fe7f977e71dba2ea1a68e21057beebb9be2ac30c6410aa38d4f3fbe41dcffd2")) := by
    refine ⟨⟨[2], by decide, one 2⟩, ⟨[3], by decide, one 3⟩, ⟨[5], by decide, one 5⟩,
      ⟨preCodeDigest, hexBytes_preCodeDigest, ?_⟩⟩
    rw [length_preCodeDigest]
    decide
  have accepted := @tableDeployment_accepted (deploymentInputs "aa") (by decide) (by decide)
    (by decide)
  exact verifyTaskCreateParams_binding deploymentHashes_lawful hexA hexB accepted
    tableComputation_accepted

end Ethereum
