import EnigmaP2P.Common.Utils

/-!
# Tasks that wait for verification

`DeployTask` and `ComputeTask` as their messages build them. The fields are whatever the
message holds; only the two identifiers lose their prefix, and are `null` if they are no
text.
-/

namespace Tasks

open Js Common

/-- What both classes keep. -/
structure TaskFields where
  taskId : Option String
  contractAddr : Option String
  encryptedArgs : Option Json
  encryptedFn : Option Json
  userDHKey : Option Json
  gasLimit : Option Json
  blockNumber : Option Json
  deriving DecidableEq

inductive Task where
  | deploy (fields : TaskFields) (preCode : Option Json)
  | compute (fields : TaskFields)
  deriving DecidableEq

def Task.fields : Task → TaskFields
  | .deploy fields _ => fields
  | .compute fields => fields

/-- `getTaskId()`. -/
def Task.getTaskId (task : Task) : Option String :=
  task.fields.taskId

/-- The properties of a message that both constructors receive. -/
def fieldsOf (reqMsg : List (String × Json)) : TaskFields where
  taskId := remove0x (reqMsg.lookup "taskId")
  contractAddr := remove0x (reqMsg.lookup "contractAddress")
  encryptedArgs := reqMsg.lookup "encryptedArgs"
  encryptedFn := reqMsg.lookup "encryptedFn"
  userDHKey := reqMsg.lookup "userDHKey"
  gasLimit := reqMsg.lookup "gasLimit"
  blockNumber := reqMsg.lookup "blockNumber"

/-- What the message of a computation must have. -/
def computeExpected : List String :=
  ["taskId", "encryptedArgs", "encryptedFn", "userDHKey", "gasLimit", "contractAddress",
    "blockNumber"]

/-- `ComputeTask.buildTask`; `none` is `null`. -/
def buildComputeTask (computeReqMsg : List (String × Json)) : Option Task :=
  if computeExpected.any (fun attr => !hasProperty attr computeReqMsg) then none
  else some (.compute (fieldsOf computeReqMsg))

/-- What the message of a deployment must have. -/
def deployExpected : List String :=
  ["taskId", "preCode", "encryptedArgs", "encryptedFn", "userDHKey", "gasLimit",
    "contractAddress", "blockNumber"]

/-- `DeployTask.buildTask`. -/
def buildDeployTask (deployReqMsg : List (String × Json)) : Option Task :=
  if deployExpected.any (fun attr => !hasProperty attr deployReqMsg) then none
  else some (.deploy (fieldsOf deployReqMsg) (deployReqMsg.lookup "preCode"))

end Tasks
