import EnigmaP2P.Common.Constants
import EnigmaP2P.Common.Cryptography
import EnigmaP2P.Common.EngCID
import EnigmaP2P.Common.Errors
import EnigmaP2P.Common.HashInputs
import EnigmaP2P.Common.Utils
import EnigmaP2P.Core.Communicator
import EnigmaP2P.Core.Completion
import EnigmaP2P.Core.Dispatch
import EnigmaP2P.Core.Removal
import EnigmaP2P.Core.SelfTopic
import EnigmaP2P.Correlation.Matching
import EnigmaP2P.Db.DbKey
import EnigmaP2P.Db.LevelDbApi
import EnigmaP2P.Db.UpdateDb
import EnigmaP2P.Encoding.Hex
import EnigmaP2P.Ethereum.AcceptedData
import EnigmaP2P.Ethereum.Board
import EnigmaP2P.Ethereum.Callbacks
import EnigmaP2P.Ethereum.CommitReceipt
import EnigmaP2P.Ethereum.Confirmations
import EnigmaP2P.Ethereum.EnigmaContract
import EnigmaP2P.Ethereum.EpochLookup
import EnigmaP2P.Ethereum.EpochSlots
import EnigmaP2P.Ethereum.Ingestion
import EnigmaP2P.Ethereum.Listeners
import EnigmaP2P.Ethereum.Residues
import EnigmaP2P.Ethereum.Selection
import EnigmaP2P.Ethereum.Settlement
import EnigmaP2P.Ethereum.Spelling
import EnigmaP2P.Ethereum.StateSync
import EnigmaP2P.Ethereum.Submission
import EnigmaP2P.Ethereum.TaskCreation
import EnigmaP2P.Ethereum.TaskEvents
import EnigmaP2P.Ethereum.Timeouts
import EnigmaP2P.Ethereum.Transactions
import EnigmaP2P.Ethereum.WorkerGroup
import EnigmaP2P.Ethereum.WorkerParams
import EnigmaP2P.Js.Buffer
import EnigmaP2P.Js.Foreign
import EnigmaP2P.Js.Object
import EnigmaP2P.Js.Value
import EnigmaP2P.Proxy.Dispatcher
import EnigmaP2P.Proxy.RoundTrip
import EnigmaP2P.Replica.Refinement
import EnigmaP2P.Replica.Store
import EnigmaP2P.Sampling.FirstDistinct
import EnigmaP2P.Startup.InitWorker
import EnigmaP2P.Sync.CoreDatabase
import EnigmaP2P.Sync.Failover
import EnigmaP2P.Sync.FindProviders
import EnigmaP2P.Sync.Integrity
import EnigmaP2P.Sync.Messages
import EnigmaP2P.Sync.Network
import EnigmaP2P.Sync.Pipeline
import EnigmaP2P.Sync.Provider
import EnigmaP2P.Sync.ReceiveAll
import EnigmaP2P.Sync.Receiver
import EnigmaP2P.Sync.Replication
import EnigmaP2P.Sync.Requests
import EnigmaP2P.Sync.Untrusted
import EnigmaP2P.Sync.Verifier
import EnigmaP2P.Tasks.KeyTransfer
import EnigmaP2P.Tasks.Lifecycle
import EnigmaP2P.Tasks.OrderlyEnd
import EnigmaP2P.Tasks.Publication
import EnigmaP2P.Tasks.Reads
import EnigmaP2P.Tasks.Records
import EnigmaP2P.Tasks.Result
import EnigmaP2P.Tasks.Rollback
import EnigmaP2P.Tasks.StateKeys
import EnigmaP2P.Tasks.Task
import EnigmaP2P.Tasks.TaskManager
import EnigmaP2P.Tasks.VerifyAndStore
import EnigmaP2P.Tasks.Worker
import EnigmaP2P.Tasks.WorkerResults
import EnigmaP2P.Transition.Gather
import EnigmaP2P.Transition.Runs
import EnigmaP2P.Weighted.Choice
import EnigmaP2P.Window.Latest
