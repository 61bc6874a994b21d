/-!
# Constants of the protocol

The values of `constants.js` that the modelled functions read. Names are part of
messages on the network and between the processes of a node.
-/

namespace Common

namespace P2PMessages

def syncStateReq : String := "SYNC_STATE_REQ"
def syncStateRes : String := "SYNC_STATE_RES"
def syncBcodeReq : String := "SYNC_BCODE_REQ"
def syncBcodeRes : String := "SYNC_BCODE_RES"

end P2PMessages

namespace MainControllerNotifications

def dbRequest : String := "dbreq"
def proxy : String := "proxy"

end MainControllerNotifications

namespace NodeNotifications

def getTaskStatus : String := "gtstatus"
def getTaskResult : String := "gltresult"

end NodeNotifications

/-- `CONTENT_ROUTING.RANGE_LIMIT`: the most deltas that one request asks for. -/
def rangeLimit : Nat := 10

namespace CoreRequests

def coreDbAction : String := "CORE_DB_ACTION"
def getRegistrationParams : String := "GetRegistrationParams"
def getTips : String := "GetTips"
def getAllTips : String := "GetAllTips"
def getAllAddrs : String := "GetAllAddrs"
def getDelta : String := "GetDelta"
def getDeltas : String := "GetDeltas"
def getContract : String := "GetContract"
def removeContract : String := "RemoveContract"
def removeDeltas : String := "RemoveDeltas"
def updateNewContract : String := "UpdateNewContract"
def updateNewContractOnDeployment : String := "UpdateNewContractOnDeployment"
def updateDeltas : String := "UpdateDeltas"
def updateDb : String := "UpdateDb"
def newTaskEncryptionKey : String := "NewTaskEncryptionKey"
def deploySecretContract : String := "DeploySecretContract"
def computeTask : String := "ComputeTask"
def failedTask : String := "FailedTask"
def getPTTRequest : String := "GetPTTRequest"
def pttResponse : String := "PTTResponse"

end CoreRequests

namespace TaskStatus

def unverified : String := "UNVERIFIED"
def inProgress : String := "INPROGRESS"
def success : String := "SUCCESS"
def failed : String := "FAILED"
def failedEthereumCb : String := "ETHEREUMFAILURE"

end TaskStatus

end Common
