import EnigmaP2P.Common.Constants
import EnigmaP2P.Tasks.Result

/-!
# Requests on their way to the core

A runtime wraps a request in an `Envelop`, the main controller passes it to the core
runtime if it has an id, and the core runtime chooses an action by the type that the
request itself names. Each action builds the message for the IPC client. `dispatch` is
that message, or none where the request ends before the client.

The content of an envelop is given by what reading its properties finds.
-/

namespace Core

open Js Common

/-- `Envelop`; without an id `_id` is `false`. -/
structure Envelop where
  id : Option String
  content : Json
  msgType : String

/-- The id that the constructor takes: a text, or a new one for `true`. -/
def envelopId (randId : String) : Option Json → Option String
  | some (.str id) => if id = "" then none else some id
  | some (.bool true) => some randId
  | _ => none

/-- The constructor. It gives an object without an id a new one if there is an id for the
envelop, and throws for a primitive. An array has no id. -/
def newEnvelop (randId : String) (sequenceOrId obj : Option Json) (msgType : String) :
    Except Exn Envelop :=
  let id := envelopId randId sequenceOrId
  match obj with
  | some (.obj fields) =>
      .ok ⟨id, .obj (if hasProperty "id" fields || id.isNone then fields
        else setField "id" (.str randId) fields), msgType⟩
  | some (.arr items) => .ok ⟨id, .arr items, msgType⟩
  | _ => .error .typeError

/-- The actions of the core runtime. -/
inductive CoreAction where
  | sendToCore
  | preParse
  | getDb
  | updateDb
  deriving DecidableEq, Repr

/-- `_actions`; the entry of `GetDelta` is `null`. -/
def actions : List (String × Option CoreAction) :=
  [(CoreRequests.coreDbAction, some .sendToCore),
    (CoreRequests.deploySecretContract, some .preParse),
    (CoreRequests.computeTask, some .preParse),
    (CoreRequests.getRegistrationParams, some .preParse),
    (CoreRequests.newTaskEncryptionKey, some .preParse),
    (CoreRequests.getAllTips, some .getDb),
    (CoreRequests.getAllAddrs, some .getDb),
    (CoreRequests.getDeltas, some .getDb),
    (CoreRequests.getContract, some .getDb),
    (CoreRequests.updateDb, some .updateDb),
    (CoreRequests.getDelta, none),
    (CoreRequests.getTips, some .getDb),
    (CoreRequests.getPTTRequest, some .getDb),
    (CoreRequests.pttResponse, some .getDb)]

/-- The action that a key names. Inherited properties are truthy and have no `execute`. -/
def actionOf (key : String) : Except Exn (Option CoreAction) :=
  match actions.lookup key with
  | some action => .ok action
  | none => if key ∈ objectPrototype then .error .typeError else .ok none

/-- `UpdateDbAction._buildRequest` on parsed JSON, where nothing is a function: an object
with a truthy type is the request, and everything else fails when `type()` is called. -/
def buildRequest : Option Json → Except Exn Json
  | some (.obj fields) =>
      if truthy? (fields.lookup "type") then .ok (.obj fields) else .error .typeError
  | _ => .error .typeError

/-- The `sendMsg` of an action. `SendToCoreAction` itself expects one and throws. -/
def sendMsg (envelop : Envelop) : CoreAction → Except Exn Json
  | .preParse => .ok envelop.content
  | .getDb => .ok (Tasks.definedFields [("id", envelop.content.get? "id"),
      ("type", envelop.content.get? "type"), ("input", envelop.content.get? "input")])
  | .updateDb => buildRequest (envelop.content.get? "input")
  | .sendToCore => .error .typeError

/-- `SendToCoreAction`: a message without an id gets that of the envelop. -/
def sendToCore (envelop : Envelop) (sendMsg : Json) : Json :=
  match sendMsg with
  | .obj fields =>
      if truthy? (fields.lookup "id") then sendMsg
      else .obj (setField "id" (envelop.id.elim (.bool false) .str) fields)
  | other => other

/-- The message handler of `setChannel`; `some` is a message for the IPC client. -/
def onMessage (envelop : Envelop) : Except Exn (Option Json) := do
  let concreteCmd ← keyOf (envelop.content.get? "type")
  match ← actionOf concreteCmd with
  | none => pure none
  | some action => do
      let message ← sendMsg envelop action
      pure (some (sendToCore envelop message))

/-- `DbAction` of the main controller, and the core runtime behind it. -/
def dispatch (envelop : Envelop) : Except Exn (Option Json) :=
  match envelop.id with
  | none => .ok none
  | some _ => onMessage envelop

/-- `NewTaskEncryptionKeyAction` up to the message for the client; it sends an invalid envelop,
too. -/
def newTaskEncryptionKey (randId : String) : Option Json → Except Exn (Option Json)
  | none | some .null => .error .typeError
  | some request => do
      let requestEnvelop ← newEnvelop randId (request.get? "id") (some request)
        MainControllerNotifications.dbRequest
      dispatch requestEnvelop

/-! ## What is sent -/

/-- The envelop of an object that has an id holds the object itself. -/
theorem newEnvelop_obj {randId id : String} {fields : List (String × Json)} {msgType : String}
    (found : envelopId randId (fields.lookup "id") = some id) :
    newEnvelop randId (fields.lookup "id") (some (.obj fields)) msgType =
      .ok ⟨some id, .obj fields, msgType⟩ := by
  have own : ∃ value, fields.lookup "id" = some value := by
    cases isId : fields.lookup "id" with
    | none =>
        rw [isId] at found
        cases found
    | some value => exact ⟨value, rfl⟩
  obtain ⟨value, isId⟩ := own
  rw [newEnvelop, found]
  simp only [hasProperty_of_lookup isId, Bool.true_or, if_true]

/-- A message for the client is that of the action that the type of the request names. -/
theorem dispatch_eq_some {envelop : Envelop} {message : Json} :
    dispatch envelop = .ok (some message) ↔ envelop.id ≠ none ∧
      ∃ key action sent, keyOf (envelop.content.get? "type") = .ok key ∧
        actionOf key = .ok (some action) ∧ sendMsg envelop action = .ok sent ∧
        message = sendToCore envelop sent := by
  cases isId : envelop.id with
  | none =>
      rw [dispatch, isId]
      exact iff_of_false nofun (fun both => both.1 rfl)
  | some id =>
      rw [dispatch, isId]
      simp only [onMessage, ne_eq, reduceCtorEq, not_false_eq_true, true_and]
      constructor
      · intro handled
        obtain ⟨key, named, handled⟩ := bind_eq_ok.mp handled
        obtain ⟨action, found, handled⟩ := bind_eq_ok.mp handled
        cases action with
        | none => cases handled
        | some action =>
            obtain ⟨sent, isSent, same⟩ := bind_eq_ok.mp handled
            cases same
            exact ⟨key, action, sent, named, found, isSent, rfl⟩
      · rintro ⟨key, action, sent, named, found, isSent, rfl⟩
        exact bind_eq_ok.mpr ⟨key, named, bind_eq_ok.mpr ⟨some action, found,
          bind_eq_ok.mpr ⟨sent, isSent, rfl⟩⟩⟩

/-- A request for an encryption key with an id goes to the core as it is. -/
theorem newTaskEncryptionKey_self {randId id : String} {fields : List (String × Json)}
    (nonempty : id ≠ "") (hasId : fields.lookup "id" = some (.str id))
    (hasType : fields.lookup "type" = some (.str CoreRequests.newTaskEncryptionKey)) :
    newTaskEncryptionKey randId (some (.obj fields)) = .ok (some (.obj fields)) := by
  have isId : envelopId randId (fields.lookup "id") = some id := by
    rw [hasId]
    exact if_neg nonempty
  have named : keyOf (fields.lookup "type") = .ok CoreRequests.newTaskEncryptionKey := by
    rw [hasType]
    exact Json.toKey_str _
  have truthy : truthy? (fields.lookup "id") = true := by
    rw [hasId]
    exact decide_eq_true nonempty
  refine bind_eq_ok.mpr ⟨_, newEnvelop_obj isId, dispatch_eq_some.mpr ⟨nofun,
    CoreRequests.newTaskEncryptionKey, .preParse, .obj fields, named, by decide, rfl, ?_⟩⟩
  rw [sendToCore, if_pos truthy]

end Core
