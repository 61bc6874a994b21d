import EnigmaP2P.Core.Dispatch
import EnigmaP2P.Js.Foreign
import EnigmaP2P.Tasks.Task

/-!
# The worker's own topic

Whoever knows the signing key of a worker can publish on its topic. A message asks for an
encryption key, hands over a task, or asks for the status of one. `onPublish` gives the
requests for the core that handling a decoded message places, with what placed them: the
handler itself, or the verification of a new task, which first reads the registration
parameters.

The request for an encryption key goes into an envelop as it came, and the core runtime
acts on its type, which may be that of a prototype that the peer put in place. So the message
chooses the request, unless that type stays within `KeepsToKeys`.
-/

namespace Core.SelfTopic

open Js Common

/-- `Envelop`; without an id `_id` is `false`. -/
structure Envelop where
  id : Option Foreign
  content : Foreign
  msgType : String

/-- What the rest of the worker contributes: new ids for an envelop and for its content, which
are not empty, and whether a task with these fields is added to the pool of unverified tasks. -/
structure Env where
  randId : String
  contentId : String
  nonempty : contentId ≠ ""
  isOkToAdd : List Foreign → Bool

variable (env : Env)

/-- The id that the constructor takes: a text, which may be an object around one, or a new one
for `true`. -/
def envelopId (sequenceOrId : Foreign) : Option Foreign :=
  if sequenceOrId.truthy && sequenceOrId.isString then some sequenceOrId
  else
    match sequenceOrId with
    | .prim (.bool true) => some (.str env.randId)
    | _ => none

/-- The constructor. It gives an object without an id a new one if there is an id for the
envelop, and throws for a primitive. -/
def newEnvelop (sequenceOrId obj : Foreign) (msgType : String) : Except Exn Envelop := do
  let id := envelopId env sequenceOrId
  if (← obj.has "id") || id.isNone then pure ⟨id, obj, msgType⟩
  else
    let obj ← obj.set "id" (.str env.contentId)
    pure ⟨id, obj, msgType⟩

/-- `UpdateDbAction._buildRequest`, where nothing is a function: a value with a truthy type is
the request, and everything else fails when `type()` is called. -/
def buildRequest (msgObj : Foreign) : Except Exn Foreign := do
  let type ← msgObj.get "type"
  if type.truthy then pure msgObj else throw .typeError

/-- The request of `GetDbAction`. -/
def getDbRequest (content : Foreign) : Except Exn Foreign := do
  let id ← content.get "id"
  let type ← content.get "type"
  let input ← content.get "input"
  pure (.plain [("id", id), ("type", type), ("input", input)] [] true (.error .typeError))

/-- The `sendMsg` of an action. `SendToCoreAction` itself expects one and throws. -/
def sendMsg (envelop : Envelop) : CoreAction → Except Exn Foreign
  | .preParse => .ok envelop.content
  | .getDb => getDbRequest envelop.content
  | .updateDb => do
      let input ← envelop.content.get "input"
      buildRequest input
  | .sendToCore => .error .typeError

/-- `SendToCoreAction`: a message without an id gets that of the envelop. -/
def sendToCore (envelop : Envelop) (sendMsg : Foreign) : Except Exn Foreign := do
  let id ← sendMsg.get "id"
  if id.truthy then pure sendMsg
  else sendMsg.set "id" (envelop.id.getD (.prim (.bool false)))

/-- The message handler of `setChannel`; `some` is a message for the IPC client. -/
def onMessage (envelop : Envelop) : Except Exn (Option Foreign) := do
  let type ← envelop.content.get "type"
  let concreteCmd ← type.toKey
  match ← actionOf concreteCmd with
  | none => pure none
  | some action => do
      let message ← sendMsg envelop action
      let sent ← sendToCore envelop message
      pure (some sent)

/-- `DbAction` of the main controller, and the core runtime behind it. -/
def dispatch (envelop : Envelop) : Except Exn (Option Foreign) :=
  match envelop.id with
  | none => .ok none
  | some _ => onMessage envelop

/-! ## The handler -/

/-- What places a request. -/
inductive Origin where
  | handler
  | verification
  deriving DecidableEq, Repr

/-- A message for the IPC client. -/
structure CoreRequest where
  origin : Origin
  sendMsg : Foreign

/-- `NewTaskEncryptionKeyAction` up to the envelop; it sends an invalid one too. -/
def newTaskEncryptionKey (request : Foreign) : Except Exn (List CoreRequest) := do
  let id ← request.get "id"
  let requestEnvelop ← newEnvelop env id request "dbreq"
  let sent ← dispatch requestEnvelop
  pure (sent.toList.map fun sendMsg => ⟨.handler, sendMsg⟩)

/-- `GetRegistrationParamsAction`, with which `VerifyNewTaskAction` begins. -/
def getRegistrationParams : Except Exn (List CoreRequest) := do
  let requestEnvelop ← newEnvelop env (.prim (.bool true))
    (.plain [("type", .str CoreRequests.getRegistrationParams)] [] true (.error .typeError)) "dbreq"
  let sent ← dispatch requestEnvelop
  pure (sent.toList.map fun sendMsg => ⟨.verification, sendMsg⟩)

/-- `buildTask` of either class: the fields that it reads, or `none` if one is missing. -/
def buildTask (expected : List String) (reqMsg : Foreign) : Except Exn (Option (List Foreign)) := do
  let present ← expected.mapM fun attr => reqMsg.has attr
  if present.all id then
    let fields ← expected.mapM fun attr => reqMsg.get attr
    pure (some fields)
  else pure none

/-- The task of `StartTaskExecutionAction`. Assigning to a primitive throws. -/
def startTask (type request : Foreign) : Except Exn (Option (List Foreign)) := do
  let request ← request.set "gasLimit" (.prim (.num (.finite 0)))
  let request ← request.set "blockNumber" (.prim (.num (.finite 0)))
  if type.is CoreRequests.deploySecretContract then
    let contractAddress ← request.get "contractAddress"
    let request ← request.set "taskId" contractAddress
    buildTask Tasks.deployExpected request
  else buildTask Tasks.computeExpected request

/-- `StartTaskExecutionAction`, `addTaskUnverified` and the start of the verification. A call
of `onResponse` comes after it, and throws. -/
def startTaskExecution (data type : Foreign) : Except Exn (List CoreRequest) := do
  let request ← data.get "request"
  let _ ← data.get "onResponse"
  match ← startTask type request with
  | some fields => if env.isOkToAdd fields then getRegistrationParams env else pure []
  | none => pure []

/-- `onPublish` on the decoded message. An exception ends the handling. -/
def onPublish (data : Foreign) : Except Exn (List CoreRequest) := do
  if data.truthy then
    let type ← data.get "type"
    let _ ← type.text
    let request ← data.get "request"
    if type.is CoreRequests.newTaskEncryptionKey then
      let _ ← data.get "targetTopic"
      newTaskEncryptionKey env request
    else if type.is CoreRequests.deploySecretContract || type.is CoreRequests.computeTask then
      startTaskExecution env data type
    else pure []
  else pure []

/-- The requests of a message, none after an exception. -/
def requestsOf (data : Foreign) : List CoreRequest :=
  (onPublish env data).toOption.getD []

/-! ## Which messages keep to encryption keys -/

/-- The request names a type, as the IPC client looks it up. -/
def Names (request : Foreign) (name : String) : Prop :=
  ∃ type, request.get "type" = .ok type ∧ type.toKey = .ok name

/-- The read of the registration parameters, which has nothing of a message. -/
def registrationRequest : Foreign :=
  .object ((Foreign.plainAnswers [("type", .str CoreRequests.getRegistrationParams)] [] true
    (.error .typeError)).set "id" (.str env.contentId))

/-- The handler places requests for encryption keys only, and verification only the read of
the registration parameters. -/
def OnlyKeyRequests (data : Foreign) : Prop :=
  ∀ request ∈ requestsOf env data,
    (request.origin = .handler → Names request.sendMsg CoreRequests.newTaskEncryptionKey) ∧
    (request.origin = .verification → request.sendMsg = registrationRequest env)

/-- An id with which an envelop is passed on. -/
def UsableId (id : Foreign) : Prop :=
  id = .prim (.bool true) ∨ id.truthy = true ∧ id.isString = true

/-- In a message for an encryption key, the type of a request with a usable id names no
action that sends something else: it is the one for encryption keys, or that of a database
update whose input has no truthy type or names encryption keys, or none. Types, ids and inputs
are what reading them finds, at the request or at its prototypes. -/
def KeepsToKeys (data : Foreign) : Prop :=
  ∀ targetTopic request id type key action,
    data.get "type" = .ok (.str CoreRequests.newTaskEncryptionKey) →
    data.get "targetTopic" = .ok targetTopic → data.get "request" = .ok request →
    request.get "id" = .ok id → UsableId id →
    request.get "type" = .ok type → type.toKey = .ok key → actionOf key = .ok (some action) →
      match action with
      | .sendToCore => True
      | .preParse => key = CoreRequests.newTaskEncryptionKey
      | .getDb => (∃ input, request.get "input" = .ok input) →
          key = CoreRequests.newTaskEncryptionKey
      | .updateDb => ∀ input inputType inputId, request.get "input" = .ok input →
          input.get "type" = .ok inputType → inputType.truthy = true →
          input.get "id" = .ok inputId → inputType.toKey = .ok CoreRequests.newTaskEncryptionKey

section

variable {env : Env}

private theorem envelopId_isSome_iff {id : Foreign} :
    (∃ envelopId', envelopId env id = some envelopId') ↔ UsableId id := by
  constructor
  · rintro ⟨envelopId', found⟩
    unfold envelopId at found
    split at found
    · rename_i isText
      exact .inr ((Bool.and_eq_true _ _).mp isText)
    · split at found
      · exact .inl rfl
      · cases found
  · rintro (rfl | ⟨truthy, isText⟩)
    · exact ⟨_, rfl⟩
    · refine ⟨id, if_pos ?_⟩
      rw [truthy, isText]
      rfl

private theorem UsableId.truthy {id : Foreign} (usable : UsableId id) : id.truthy = true := by
  rcases usable with rfl | ⟨truthy, -⟩
  · rfl
  · exact truthy

/-- The content of an envelop: the request itself, or with a new id. -/
structure ContentOf (request content : Foreign) : Prop where
  isObject : ∃ answers, content = .object answers
  id : ∃ contentId, content.get "id" = .ok contentId
  same : ∀ name, name ≠ "id" → content.get name = request.get name

/-- The envelop of a request holds its content. -/
private theorem of_newEnvelop {request id : Foreign} {envelop : Envelop}
    (isId : request.get "id" = .ok id)
    (wrapped : newEnvelop env id request "dbreq" = .ok envelop) :
    envelop.id = envelopId env id ∧ ContentOf request envelop.content := by
  obtain ⟨has, asked, wrapped⟩ := bind_eq_ok.mp wrapped
  split at wrapped
  · cases wrapped
    cases request with
    | prim _ => cases asked
    | object answers => exact ⟨rfl, ⟨answers, rfl⟩, ⟨id, isId⟩, fun _ _ => rfl⟩
  · obtain ⟨content, assigned, wrapped⟩ := bind_eq_ok.mp wrapped
    cases wrapped
    have read := Foreign.get_set assigned
    refine ⟨rfl, Foreign.isObject_of_set assigned, ⟨_, (read "id").trans (if_pos rfl)⟩, ?_⟩
    exact fun name other => (read name).trans (if_neg other)

/-- A request with an id has an envelop. -/
private theorem newEnvelop_ok {request id : Foreign} (isId : request.get "id" = .ok id)
    (usable : UsableId id) : ∃ envelop, newEnvelop env id request "dbreq" = .ok envelop := by
  have present : id ≠ .undefined := by
    rintro rfl
    cases usable.truthy
  obtain ⟨answers, rfl⟩ := Foreign.isObject_of_get (by decide) isId present
  change ∃ envelop, (if (answers.has "id" || (envelopId env id).isNone) = true then _ else _) =
    Except.ok envelop
  split <;> exact ⟨_, rfl⟩

/-- An id does not change the type that a message names. -/
private theorem names_sendToCore {envelop : Envelop} {message sent : Foreign}
    (placed : sendToCore envelop message = .ok sent) (name : String) :
    Names sent name ↔ Names message name := by
  obtain ⟨id, -, placed⟩ := bind_eq_ok.mp placed
  split at placed
  · cases placed
    rfl
  · rw [Names, Names, Foreign.get_set placed, if_neg (by decide)]

private theorem sendToCore_ok {answers : Answers Foreign} {id : Foreign} (envelop : Envelop)
    (isId : (Foreign.object answers).get "id" = .ok id) :
    ∃ sent, sendToCore envelop (.object answers) = .ok sent := by
  rw [sendToCore, isId]
  change ∃ sent, (if id.truthy = true then _ else _) = Except.ok sent
  split <;> exact ⟨_, rfl⟩

/-- A message for the client is that of the action that the type of the request names. -/
private theorem dispatch_eq_some {envelop : Envelop} {sent : Foreign} :
    dispatch envelop = .ok (some sent) ↔ envelop.id ≠ none ∧
      ∃ type key action message, envelop.content.get "type" = .ok type ∧ type.toKey = .ok key ∧
        actionOf key = .ok (some action) ∧ sendMsg envelop action = .ok message ∧
        sendToCore envelop message = .ok sent := by
  cases isId : envelop.id with
  | none =>
      rw [dispatch, isId]
      exact iff_of_false nofun (fun both => both.1 rfl)
  | some id =>
      rw [dispatch, isId]
      simp only [onMessage, ne_eq, reduceCtorEq, not_false_eq_true, true_and]
      constructor
      · intro handled
        obtain ⟨type, isType, handled⟩ := bind_eq_ok.mp handled
        obtain ⟨key, named, handled⟩ := bind_eq_ok.mp handled
        obtain ⟨action, found, handled⟩ := bind_eq_ok.mp handled
        cases action with
        | none => cases handled
        | some action =>
            obtain ⟨message, isMessage, handled⟩ := bind_eq_ok.mp handled
            obtain ⟨sent', isSent, same⟩ := bind_eq_ok.mp handled
            cases same
            exact ⟨type, key, action, message, isType, named, found, isMessage, isSent⟩
      · rintro ⟨type, key, action, message, isType, named, found, isMessage, isSent⟩
        exact bind_eq_ok.mpr ⟨type, isType, bind_eq_ok.mpr ⟨key, named, bind_eq_ok.mpr
          ⟨some action, found, bind_eq_ok.mpr ⟨message, isMessage, bind_eq_ok.mpr
            ⟨sent, isSent, rfl⟩⟩⟩⟩⟩

/-- The requests of the action for encryption keys: the message of the action that the type
of the request names. -/
private theorem mem_newTaskEncryptionKey {request : Foreign} {requests : List CoreRequest}
    (ran : newTaskEncryptionKey env request = .ok requests) {sent : CoreRequest}
    (member : sent ∈ requests) :
    ∃ id envelop type key action message, request.get "id" = .ok id ∧ UsableId id ∧
      ContentOf request envelop.content ∧ request.get "type" = .ok type ∧ type.toKey = .ok key ∧
      actionOf key = .ok (some action) ∧ sendMsg envelop action = .ok message ∧
      sendToCore envelop message = .ok sent.sendMsg ∧ sent.origin = .handler := by
  obtain ⟨id, isId, ran⟩ := bind_eq_ok.mp ran
  obtain ⟨envelop, wrapped, ran⟩ := bind_eq_ok.mp ran
  obtain ⟨dispatched, isDispatched, same⟩ := bind_eq_ok.mp ran
  cases same
  obtain ⟨message, isMessage, rfl⟩ := List.mem_map.mp member
  rw [Option.mem_toList] at isMessage
  cases isMessage
  obtain ⟨hasId, type, key, action, sent, isType, named, found, isSent, placed⟩ :=
    dispatch_eq_some.mp isDispatched
  obtain ⟨sameId, content⟩ := of_newEnvelop isId wrapped
  rw [sameId] at hasId
  rw [content.same "type" (by decide)] at isType
  exact ⟨id, envelop, type, key, action, sent, isId,
    envelopId_isSome_iff.mp (Option.ne_none_iff_exists'.mp hasId), content, isType, named, found,
    isSent, placed, rfl⟩

/-- Whatever id the content gets, the action has an object to send, whose id can be read. -/
private def Sends (request : Foreign) (action : CoreAction) : Prop :=
  ∀ envelop : Envelop, ContentOf request envelop.content → ∃ message answers contentId,
    sendMsg envelop action = .ok message ∧ message = .object answers ∧
      message.get "id" = .ok contentId

private theorem sends_preParse {request : Foreign} : Sends request .preParse := by
  intro envelop content
  obtain ⟨answers, isObject⟩ := content.isObject
  obtain ⟨contentId, isContentId⟩ := content.id
  exact ⟨_, answers, contentId, rfl, isObject, isContentId⟩

private theorem sends_getDb {request type input : Foreign} (isType : request.get "type" = .ok type)
    (isInput : request.get "input" = .ok input) : Sends request .getDb := by
  intro envelop content
  obtain ⟨contentId, isContentId⟩ := content.id
  have sent : sendMsg envelop .getDb = .ok _ := bind_eq_ok.mpr ⟨contentId, isContentId,
    bind_eq_ok.mpr ⟨type, (content.same "type" (by decide)).trans isType,
      bind_eq_ok.mpr ⟨input, (content.same "input" (by decide)).trans isInput, rfl⟩⟩⟩
  exact ⟨_, _, contentId, sent, rfl, rfl⟩

/-- A database update sends its input, if that has a type. -/
private theorem sendMsg_updateDb {request input inputType : Foreign}
    (isInput : request.get "input" = .ok input) (isInputType : input.get "type" = .ok inputType)
    (truthy : inputType.truthy = true) {envelop : Envelop}
    (content : ContentOf request envelop.content) : sendMsg envelop .updateDb = .ok input :=
  bind_eq_ok.mpr ⟨input, (content.same "input" (by decide)).trans isInput,
    bind_eq_ok.mpr ⟨inputType, isInputType, if_pos truthy⟩⟩

private theorem sends_updateDb {request input inputType inputId : Foreign}
    (isInput : request.get "input" = .ok input) (isInputType : input.get "type" = .ok inputType)
    (truthy : inputType.truthy = true) (isInputId : input.get "id" = .ok inputId) :
    Sends request .updateDb := by
  intro envelop content
  have present : inputType ≠ .undefined := by
    rintro rfl
    cases truthy
  obtain ⟨answers, isObject⟩ := Foreign.isObject_of_get (by decide) isInputType present
  exact ⟨input, answers, inputId, sendMsg_updateDb isInput isInputType truthy content, isObject,
    isInputId⟩

/-- Such a message is placed. -/
private theorem newTaskEncryptionKey_eq {request id type : Foreign} {key : String}
    {action : CoreAction} (isId : request.get "id" = .ok id) (usable : UsableId id)
    (isType : request.get "type" = .ok type) (named : type.toKey = .ok key)
    (found : actionOf key = .ok (some action)) (sends : Sends request action) :
    ∃ envelop message sent, ContentOf request envelop.content ∧
      sendMsg envelop action = .ok message ∧ sendToCore envelop message = .ok sent ∧
      newTaskEncryptionKey env request = .ok [⟨.handler, sent⟩] := by
  obtain ⟨envelop, wrapped⟩ := @newEnvelop_ok env _ _ isId usable
  obtain ⟨sameId, content⟩ := of_newEnvelop isId wrapped
  obtain ⟨message, answers, contentId, isMessage, rfl, isContentId⟩ := sends envelop content
  obtain ⟨sent, placed⟩ := sendToCore_ok envelop isContentId
  refine ⟨envelop, _, sent, content, isMessage, placed, ?_⟩
  have isDispatched : dispatch envelop = .ok (some sent) := by
    refine dispatch_eq_some.mpr ⟨?_, type, key, action, _, ?_, named, found, isMessage, placed⟩
    · rw [sameId]
      exact Option.ne_none_iff_exists'.mpr (envelopId_isSome_iff.mpr usable)
    · rw [content.same "type" (by decide)]
      exact isType
  exact bind_eq_ok.mpr ⟨id, isId, bind_eq_ok.mpr ⟨envelop, wrapped, bind_eq_ok.mpr
    ⟨some sent, isDispatched, rfl⟩⟩⟩

/-- The read of the registration parameters. -/
private theorem getRegistrationParams_eq :
    getRegistrationParams env = .ok [⟨.verification, registrationRequest env⟩] := by
  have placed : ∀ envelop, sendToCore envelop (registrationRequest env) =
      .ok (registrationRequest env) := fun envelop => if_pos (decide_eq_true env.nonempty)
  have isDispatched : dispatch ⟨some (.str env.randId), registrationRequest env, "dbreq"⟩ =
      .ok (some (registrationRequest env)) :=
    dispatch_eq_some.mpr ⟨nofun, .str CoreRequests.getRegistrationParams,
      CoreRequests.getRegistrationParams, .preParse, _, rfl, rfl, by decide, rfl, placed _⟩
  exact bind_eq_ok.mpr ⟨_, rfl, bind_eq_ok.mpr ⟨_, isDispatched, rfl⟩⟩

/-- A message for an encryption key is handled by its action. -/
private theorem onPublish_of_key {data request targetTopic : Foreign}
    (isKeys : data.get "type" = .ok (.str CoreRequests.newTaskEncryptionKey))
    (isTopic : data.get "targetTopic" = .ok targetTopic)
    (isRequest : data.get "request" = .ok request) :
    onPublish env data = newTaskEncryptionKey env request := by
  obtain ⟨answers, rfl⟩ := Foreign.isObject_of_get (by decide) isKeys nofun
  have truthy : (Foreign.object answers).truthy = true := rfl
  rw [onPublish, if_pos truthy, isKeys]
  change (Foreign.get "request" _ >>= _) = _
  rw [isRequest]
  change (Foreign.get "targetTopic" _ >>= _) = _
  rw [isTopic]
  rfl

/-- The requests of a message, by the branch that handles it. -/
private theorem mem_requestsOf {data : Foreign} {sent : CoreRequest}
    (member : sent ∈ requestsOf env data) :
    (∃ targetTopic request requests,
      data.get "type" = .ok (.str CoreRequests.newTaskEncryptionKey) ∧
      data.get "targetTopic" = .ok targetTopic ∧ data.get "request" = .ok request ∧
      newTaskEncryptionKey env request = .ok requests ∧ sent ∈ requests) ∨
    sent = ⟨.verification, registrationRequest env⟩ := by
  unfold requestsOf at member
  cases ran : onPublish env data with
  | error exn =>
      rw [ran] at member
      cases member
  | ok requests =>
      rw [ran] at member
      change sent ∈ requests at member
      unfold onPublish at ran
      split at ran
      · obtain ⟨type, isType, ran⟩ := bind_eq_ok.mp ran
        obtain ⟨_, -, ran⟩ := bind_eq_ok.mp ran
        obtain ⟨request, isRequest, ran⟩ := bind_eq_ok.mp ran
        split at ran
        · rename_i isKeys
          rw [Foreign.is_iff.mp isKeys] at isType
          obtain ⟨targetTopic, isTopic, ran⟩ := bind_eq_ok.mp ran
          exact .inl ⟨targetTopic, request, requests, isType, isTopic, isRequest, ran, member⟩
        · split at ran
          · obtain ⟨_, -, ran⟩ := bind_eq_ok.mp ran
            obtain ⟨_, -, ran⟩ := bind_eq_ok.mp ran
            obtain ⟨task, -, ran⟩ := bind_eq_ok.mp ran
            cases task with
            | none =>
                cases ran
                cases member
            | some fields =>
                simp only at ran
                split at ran
                · rw [getRegistrationParams_eq] at ran
                  cases ran
                  exact .inr (List.mem_singleton.mp member)
                · cases ran
                  cases member
          · cases ran
            cases member
      · cases ran
        cases member

/-- An action passes on the type of the request, `UpdateDb` the one of its input. -/
private theorem names_of_sendMsg {request : Foreign} {envelop : Envelop} {type : Foreign}
    {action : CoreAction} {message : Foreign} (content : ContentOf request envelop.content)
    (isType : request.get "type" = .ok type) (sent : sendMsg envelop action = .ok message)
    (name : String) : Names message name ↔
      (action = .updateDb ∧ ∃ input inputType, request.get "input" = .ok input ∧
        input.get "type" = .ok inputType ∧ inputType.truthy = true ∧ message = input ∧
        inputType.toKey = .ok name) ∨
      (action ≠ .updateDb ∧ type.toKey = .ok name) := by
  have contentType : envelop.content.get "type" = .ok type :=
    (content.same "type" (by decide)).trans isType
  cases action with
  | sendToCore => cases sent
  | preParse =>
      cases sent
      simp [Names, contentType]
  | getDb =>
      obtain ⟨id, -, sent⟩ := bind_eq_ok.mp sent
      obtain ⟨type', isType', sent⟩ := bind_eq_ok.mp sent
      obtain ⟨input, -, sent⟩ := bind_eq_ok.mp sent
      cases contentType.symm.trans isType'
      cases sent
      have read : (Foreign.plain [("id", id), ("type", type), ("input", input)] [] true
          (.error .typeError)).get "type" = .ok type := rfl
      simp [Names, read]
  | updateDb =>
      obtain ⟨input, isInput, sent⟩ := bind_eq_ok.mp sent
      obtain ⟨inputType, isInputType, sent⟩ := bind_eq_ok.mp sent
      rw [content.same "input" (by decide)] at isInput
      split at sent
      · rename_i truthy
        cases sent
        simp [Names, isInput, isInputType, truthy]
      · cases sent

/-- If only requests for keys are placed, then what an action sends for the request of a message
names encryption keys. -/
private theorem OnlyKeyRequests.names {data targetTopic request id type : Foreign} {key : String}
    {action : CoreAction} (only : OnlyKeyRequests env data)
    (isKeys : data.get "type" = .ok (.str CoreRequests.newTaskEncryptionKey))
    (isTopic : data.get "targetTopic" = .ok targetTopic)
    (isRequest : data.get "request" = .ok request) (isId : request.get "id" = .ok id)
    (usable : UsableId id) (isType : request.get "type" = .ok type) (named : type.toKey = .ok key)
    (found : actionOf key = .ok (some action)) (sends : Sends request action) :
    ∃ envelop message, ContentOf request envelop.content ∧ sendMsg envelop action = .ok message ∧
      Names message CoreRequests.newTaskEncryptionKey := by
  obtain ⟨envelop, message, sent, content, isMessage, placed, ran⟩ :=
    @newTaskEncryptionKey_eq env _ _ _ _ _ isId usable isType named found sends
  have member : ⟨.handler, sent⟩ ∈ requestsOf env data := by
    rw [requestsOf, onPublish_of_key isKeys isTopic isRequest, ran]
    exact List.mem_singleton_self _
  exact ⟨envelop, message, content, isMessage,
    (names_sendToCore placed _).mp ((only _ member).1 rfl)⟩

private theorem KeepsToKeys.of_only {data : Foreign} (only : OnlyKeyRequests env data) :
    KeepsToKeys data := by
  intro targetTopic request id type key action isKeys isTopic isRequest isId usable isType named
    found
  have names : Sends request action → _ :=
    only.names isKeys isTopic isRequest isId usable isType named found
  -- an action that passes the request on names its own type
  have isKey : action ≠ .updateDb → Sends request action →
      key = CoreRequests.newTaskEncryptionKey := by
    intro other sends
    obtain ⟨envelop, message, content, isMessage, isName⟩ := names sends
    rcases (names_of_sendMsg content isType isMessage _).mp isName with ⟨same, -⟩ | ⟨-, isName⟩
    · exact absurd same other
    · exact Except.ok.inj (named.symm.trans isName)
  cases action with
  | sendToCore => trivial
  | preParse => exact isKey nofun sends_preParse
  | getDb =>
      rintro ⟨input, isInput⟩
      exact isKey nofun (sends_getDb isType isInput)
  | updateDb =>
      intro input inputType inputId isInput isInputType truthy isInputId
      obtain ⟨envelop, message, content, isMessage, type', isType', isName⟩ :=
        names (sends_updateDb isInput isInputType truthy isInputId)
      cases (sendMsg_updateDb isInput isInputType truthy content).symm.trans isMessage
      cases isInputType.symm.trans isType'
      exact isName

/-- What the action for encryption keys places names them, if the message keeps to keys. -/
private theorem KeepsToKeys.names {data targetTopic request : Foreign}
    {requests : List CoreRequest} (keeps : KeepsToKeys data)
    (isKeys : data.get "type" = .ok (.str CoreRequests.newTaskEncryptionKey))
    (isTopic : data.get "targetTopic" = .ok targetTopic)
    (isRequest : data.get "request" = .ok request)
    (ran : newTaskEncryptionKey env request = .ok requests) {sent : CoreRequest}
    (member : sent ∈ requests) :
    sent.origin = .handler ∧ Names sent.sendMsg CoreRequests.newTaskEncryptionKey := by
  obtain ⟨id, envelop, type, key, action, message, isId, usable, content, isType, named, found,
    isMessage, placed, fromHandler⟩ := mem_newTaskEncryptionKey ran member
  have kept := keeps targetTopic request id type key action isKeys isTopic isRequest isId usable
    isType named found
  refine ⟨fromHandler, (names_sendToCore placed _).mpr
    ((names_of_sendMsg content isType isMessage _).mpr ?_)⟩
  cases action with
  | sendToCore => cases isMessage
  | preParse => exact .inr ⟨nofun, named.trans (congrArg _ kept)⟩
  | getDb =>
      obtain ⟨_, -, isMessage⟩ := bind_eq_ok.mp isMessage
      obtain ⟨_, -, isMessage⟩ := bind_eq_ok.mp isMessage
      obtain ⟨input, isInput, -⟩ := bind_eq_ok.mp isMessage
      rw [content.same "input" (by decide)] at isInput
      exact .inr ⟨nofun, named.trans (congrArg _ (kept ⟨input, isInput⟩))⟩
  | updateDb =>
      obtain ⟨input, isInput, isMessage⟩ := bind_eq_ok.mp isMessage
      obtain ⟨inputType, isInputType, isMessage⟩ := bind_eq_ok.mp isMessage
      rw [content.same "input" (by decide)] at isInput
      split at isMessage
      · rename_i truthy
        cases isMessage
        obtain ⟨inputId, isInputId, -⟩ := bind_eq_ok.mp placed
        exact .inl ⟨rfl, message, inputType, isInput, isInputType, truthy, rfl,
          kept message inputType inputId isInput isInputType truthy isInputId⟩
      · cases isMessage

end

/-- A message places requests for encryption keys only, apart from the fixed read with which
verification begins, exactly if it keeps to keys. -/
theorem onlyKeyRequests_iff (env : Env) (data : Foreign) :
    OnlyKeyRequests env data ↔ KeepsToKeys data := by
  refine ⟨KeepsToKeys.of_only, fun keeps sent member => ?_⟩
  rcases mem_requestsOf member with
    ⟨targetTopic, request, requests, isKeys, isTopic, isRequest, ran, member⟩ | rfl
  · obtain ⟨fromHandler, named⟩ := keeps.names isKeys isTopic isRequest ran member
    refine ⟨fun _ => named, fun other => ?_⟩
    rw [fromHandler] at other
    cases other
  · exact ⟨nofun, fun _ => rfl⟩

/-! ## Requests that are not for keys -/

/-- A database update that removes a contract. -/
def removal : List (String × Foreign) :=
  [("type", .str CoreRequests.updateDb), ("input", .plain
    [("type", .str CoreRequests.removeContract), ("address", .str "0b")] [] true
      (.error .typeError))]

/-- A message for an encryption key with this request. -/
def messageWith (request : Foreign) : Foreign :=
  .plain [("type", .str CoreRequests.newTaskEncryptionKey), ("targetTopic", .str "0a"),
    ("request", request)] [] true (.error .typeError)

/-- The core is asked to remove the contract, whether the update is the request itself or the
prototype that the peer gave it, `{id, __proto__: {type, input}}`. -/
theorem not_onlyKeyRequests_removeContract :
    let env : Env := ⟨"2", "3", by decide, fun _ => true⟩
    ¬ OnlyKeyRequests env
      (messageWith (.plain (("id", .str "1") :: removal) [] true (.error .typeError))) ∧
    ¬ OnlyKeyRequests env
      (messageWith (.plain [("id", .str "1")] removal true (.error .typeError))) := by
  intro env
  have names : ∀ request, (∃ sent, requestsOf env (messageWith request) = [⟨.handler, sent⟩] ∧
      sent.get "type" = .ok (.str CoreRequests.removeContract)) →
      ¬ OnlyKeyRequests env (messageWith request) := by
    rintro request ⟨sent, placed, isType⟩ only
    obtain ⟨type, isType', named⟩ := (only ⟨.handler, sent⟩ (by
      rw [placed]
      exact List.mem_singleton_self _)).1 rfl
    cases isType.symm.trans isType'
    exact absurd (Except.ok.inj named) (by decide)
  exact ⟨names _ ⟨_, rfl, rfl⟩, names _ ⟨_, rfl, rfl⟩⟩

/-! ## Contents that are given by what reading finds -/

section

variable {env : Env} {stringToNumber : String → Option Rat}

/-- Reading a name of the object finds what the plain data has, whether the object has it or a
prototype. -/
structure Reads (stringToNumber : String → Option Rat) (v : Foreign)
    (fields : List (String × Json)) : Prop where
  isObject : ∃ answers, v = .object answers
  get : ∀ name, name ∉ objectPrototype →
    v.get name = .ok (.ofOption stringToNumber (fields.lookup name))

/-- The same exception, no message, or messages of which the same is read. -/
def SameMessage (stringToNumber : String → Option Rat) :
    Except Exn (Option Foreign) → Except Exn (Option Json) → Prop
  | .error exn, .error exn' => exn = exn'
  | .ok none, .ok none => True
  | .ok (some sent), .ok (some (.obj fields)) => Reads stringToNumber sent fields
  | _, _ => False

theorem Reads.ofJson (fields : List (String × Json)) :
    Reads stringToNumber (.ofJson stringToNumber (.obj fields)) fields :=
  ⟨⟨_, rfl⟩, fun _ fresh => Foreign.get_obj fields fresh⟩

theorem Reads.set {v v' : Foreign} {fields : List (String × Json)} {name : String} {value : Json}
    (reads : Reads stringToNumber v fields)
    (assigned : v.set name (.ofJson stringToNumber value) = .ok v') :
    Reads stringToNumber v' (setField name value fields) := by
  refine ⟨Foreign.isObject_of_set assigned, fun other fresh => ?_⟩
  rw [Foreign.get_set assigned, lookup_setField]
  split
  · rfl
  · exact reads.get other fresh

private theorem truthy_ofOption (value : Option Json) :
    (Foreign.ofOption stringToNumber value).truthy = truthy? value := by
  match value with
  | none | some .null | some (.bool _) | some (.num _) | some (.str _) | some (.arr _)
  | some (.obj _) => rfl

private theorem envelopId_ofOption (value : Option Json) :
    envelopId env (.ofOption stringToNumber value) =
      (Core.envelopId env.randId value).map Foreign.str := by
  match value with
  | some (.str s) =>
      by_cases empty : s = ""
      · subst empty
        rfl
      · have isText : ((Foreign.str s).truthy && (Foreign.str s).isString) = true := by
          change (decide (s ≠ "") && true) = true
          rw [decide_eq_true empty]
          rfl
        rw [Core.envelopId, if_neg empty]
        exact if_pos isText
  | some (.bool true) | some (.bool false) => rfl
  | none | some .null | some (.arr _) | some (.obj _) => rfl
  | some (.num q) =>
      change (if (decide (q ≠ 0) && false) = true then _ else _) = _
      rw [Bool.and_false]
      rfl

/-- A database update passes on the same input. -/
private theorem buildRequest_ofOption (input : Option Json) :
    buildRequest (.ofOption stringToNumber input) =
      (Core.buildRequest input).map (Foreign.ofJson stringToNumber) := by
  match input with
  | none | some .null => rfl
  | some (.bool _) | some (.num _) | some (.str _) | some (.arr _) => rfl
  | some (.obj fields) =>
      rw [buildRequest, Foreign.ofOption_some, Foreign.get_obj fields (by decide),
        Core.buildRequest]
      change (if (Foreign.ofOption stringToNumber (fields.lookup "type")).truthy = true then _
        else _)
        = _
      rw [truthy_ofOption]
      split <;> rfl

private theorem getDbRequest_reads {content : Foreign} {fields : List (String × Json)}
    (reads : Reads stringToNumber content fields) :
    ∃ message sent, getDbRequest content = .ok message ∧
      Tasks.definedFields [("id", fields.lookup "id"), ("type", fields.lookup "type"),
        ("input", fields.lookup "input")] = .obj sent ∧ Reads stringToNumber message sent := by
  refine ⟨_, _, bind_eq_ok.mpr ⟨_, reads.get "id" (by decide), bind_eq_ok.mpr
    ⟨_, reads.get "type" (by decide), bind_eq_ok.mpr ⟨_, reads.get "input" (by decide), rfl⟩⟩⟩,
    rfl, ⟨_, rfl⟩, fun name fresh => ?_⟩
  change Except.ok _ = Except.ok (Foreign.ofOption stringToNumber
    ((Tasks.definedFields [("id", fields.lookup "id"), ("type", fields.lookup "type"),
      ("input", fields.lookup "input")]).get? name))
  simp only [fresh, and_false, if_false, List.append_nil, List.lookup_cons,
    Tasks.get?_definedFields_cons, Tasks.get?_definedFields_nil, Option.or_none]
  by_cases isId : name = "id"
  · subst isId
    simp
  · by_cases isType : name = "type"
    · subst isType
      simp
    · by_cases isInput : name = "input"
      · subst isInput
        simp
      · simp [isId, isType, isInput, beq_false_of_ne]

/-- With the same type, id and input to read, the core gets the same message. -/
private theorem sendMsg_reads {envelop : Envelop} {plain : Core.Envelop}
    {fields : List (String × Json)} (reads : Reads stringToNumber envelop.content fields)
    (isContent : plain.content = .obj fields) (action : CoreAction) :
    SameMessage stringToNumber ((sendMsg envelop action).map some)
      ((Core.sendMsg plain action).map some) := by
  cases action with
  | sendToCore => rfl
  | preParse =>
      rw [Core.sendMsg, isContent]
      exact reads
  | getDb =>
      obtain ⟨message, sent, isMessage, isSent, same⟩ := getDbRequest_reads reads
      rw [sendMsg, isMessage, Core.sendMsg, isContent]
      simp only [Json.get?_obj, isSent]
      exact same
  | updateDb =>
      have sent : sendMsg envelop .updateDb =
          buildRequest (.ofOption stringToNumber (fields.lookup "input")) := by
        change (Foreign.get "input" envelop.content >>= buildRequest) = _
        rw [reads.get "input" (by decide)]
        rfl
      rw [sent, buildRequest_ofOption, Core.sendMsg, isContent, Json.get?_obj]
      cases fields.lookup "input" with
      | none => rfl
      | some input =>
          cases input with
          | null | bool b | num q | str s | arr items => rfl
          | obj inputFields =>
              rw [Core.buildRequest]
              split
              · exact Reads.ofJson inputFields
              · rfl

private theorem sendToCore_reads {envelop : Envelop} {plain : Core.Envelop} {message : Foreign}
    {fields : List (String × Json)} (reads : Reads stringToNumber message fields)
    (isId : envelop.id = plain.id.map Foreign.str) :
    SameMessage stringToNumber ((sendToCore envelop message).map some)
      (.ok (some (Core.sendToCore plain (.obj fields)))) := by
  obtain ⟨answers, rfl⟩ := reads.isObject
  rw [sendToCore, reads.get "id" (by decide), Core.sendToCore]
  change SameMessage _ (Except.map some (if (Foreign.ofOption _ _).truthy = true then _ else _)) _
  rw [truthy_ofOption]
  split
  · exact reads
  · have value : envelop.id.getD (.prim (.bool false)) =
        .ofJson stringToNumber (plain.id.elim (.bool false) .str) := by
      rw [isId]
      cases plain.id <;> rfl
    rw [value]
    exact reads.set rfl

/-- The handler of the core runtime does the same with an object as with what is read of it. -/
private theorem onMessage_reads {envelop : Envelop} {plain : Core.Envelop}
    {fields : List (String × Json)} (reads : Reads stringToNumber envelop.content fields)
    (isContent : plain.content = .obj fields) (isId : envelop.id = plain.id.map Foreign.str) :
    SameMessage stringToNumber (onMessage envelop) (Core.onMessage plain) := by
  rw [onMessage, reads.get "type" (by decide), Core.onMessage, isContent, Json.get?_obj]
  change SameMessage _ ((Foreign.ofOption _ _).toKey >>= _) _
  rw [Foreign.toKey_ofOption]
  cases keyOf (fields.lookup "type") with
  | error exn => rfl
  | ok key =>
      change SameMessage _ (actionOf key >>= _) (actionOf key >>= _)
      cases actionOf key with
      | error exn => rfl
      | ok action =>
          cases action with
          | none => trivial
          | some action =>
              have same := sendMsg_reads reads isContent action
              change SameMessage _ (sendMsg envelop action >>= _) (Core.sendMsg plain action >>= _)
              cases sent : sendMsg envelop action with
              | error exn =>
                  rw [sent] at same
                  cases sent' : Core.sendMsg plain action with
                  | error exn' => rwa [sent'] at same
                  | ok message' => rw [sent'] at same; cases same
              | ok message =>
                  rw [sent] at same
                  cases sent' : Core.sendMsg plain action with
                  | error exn' => rw [sent'] at same; cases same
                  | ok message' =>
                      rw [sent'] at same
                      cases message' with
                      | obj fields' => exact sendToCore_reads same isId
                      | null | bool b | num q | str s | arr items => cases same

/-- The core gets the same message for an object as for the plain data that reading it finds. -/
theorem newTaskEncryptionKey_reads {request : Foreign} {fields : List (String × Json)}
    (reads : Reads stringToNumber request fields)
    (has : request.has "id" = .ok (hasProperty "id" fields)) :
    SameMessage stringToNumber
      ((newTaskEncryptionKey env request).map fun requests => (requests.map (·.sendMsg)).head?)
      (Core.newTaskEncryptionKey env.randId (some (.obj fields))) := by
  let id := Core.envelopId env.randId (fields.lookup "id")
  have isId : envelopId env (.ofOption stringToNumber (fields.lookup "id")) = id.map Foreign.str :=
    envelopId_ofOption _
  have known : (hasProperty "id" fields || id.isNone) = true := by
    cases own : fields.lookup "id" with
    | some value =>
        rw [hasProperty_of_lookup own]
        rfl
    | none =>
        have absent : id = none := congrArg (Core.envelopId env.randId) own
        rw [absent]
        exact Bool.or_true _
  -- so neither constructor assigns a new id
  have wrapped : newEnvelop env (.ofOption stringToNumber (fields.lookup "id")) request "dbreq" =
      .ok ⟨id.map Foreign.str, request, "dbreq"⟩ := by
    rw [newEnvelop, isId, has, Option.isNone_map]
    exact if_pos known
  have wrapped' : Core.newEnvelop env.randId (fields.lookup "id") (some (.obj fields)) "dbreq" =
      .ok ⟨id, .obj fields, "dbreq"⟩ := by
    change Except.ok (Core.Envelop.mk id (.obj (if _ then _ else _)) _) = _
    rw [if_pos known]
  have placed : (newTaskEncryptionKey env request).map (fun requests =>
      (requests.map (·.sendMsg)).head?) = dispatch ⟨id.map Foreign.str, request, "dbreq"⟩ := by
    rw [newTaskEncryptionKey, reads.get "id" (by decide)]
    change Except.map _ (newEnvelop env (.ofOption stringToNumber _) request "dbreq" >>= _) = _
    rw [wrapped]
    change Except.map _ (dispatch _ >>= _) = _
    match dispatch ⟨id.map Foreign.str, request, "dbreq"⟩ with
    | .error _ | .ok none | .ok (some _) => rfl
  have placed' : Core.newTaskEncryptionKey env.randId (some (.obj fields)) =
      Core.dispatch ⟨id, .obj fields, "dbreq"⟩ := by
    change (Core.newEnvelop _ _ _ "dbreq" >>= Core.dispatch) = _
    rw [Json.get?_obj, wrapped']
    rfl
  rw [placed, placed']
  cases isSome : id with
  | none => trivial
  | some text => exact onMessage_reads reads rfl rfl

end

end Core.SelfTopic
