import EnigmaP2P.Tasks.Reads

/-!
# Requests of clients

The JSON-RPC server passes five kinds of requests on to the worker of the gateway. Its
dispatcher routes a request to a remote worker, or answers it from its own tasks. A blocking
route subscribes to a topic and waits for what the remote worker publishes there; every other
way ends in a response or in none.

What the network and the unpacking of pre-code do is the environment's. An exception ends the
handling of a request without a response.
-/

namespace Proxy

open Js Common Tasks

/-- A request with the properties of its content. Tasks are sent with all the parameters
of the client. -/
inductive ProxyRequest where
  | newTaskEncryptionKey (workerSignKey userPubKey : Option Json)
  | getTaskStatus (taskId workerAddress withResult : Option Json)
  | deploySecretContract (request : List (String × Json))
  | computeTask (request : List (String × Json))
  | getTaskResult (taskId : Option Json)
  deriving DecidableEq

/-- The content that the JSON-RPC server makes of a request. -/
def ProxyRequest.content : ProxyRequest → Json
  | .newTaskEncryptionKey workerSignKey userPubKey =>
      definedFields [("workerSignKey", workerSignKey), ("userPubKey", userPubKey),
        ("type", some (.str CoreRequests.newTaskEncryptionKey))]
  | .getTaskStatus taskId workerAddress withResult =>
      definedFields [("taskId", taskId), ("workerAddress", workerAddress),
        ("withResult", withResult), ("type", some (.str NodeNotifications.getTaskStatus))]
  | .deploySecretContract request =>
      .obj [("type", .str CoreRequests.deploySecretContract), ("request", .obj request)]
  | .computeTask request =>
      .obj [("type", .str CoreRequests.computeTask), ("request", .obj request)]
  | .getTaskResult taskId =>
      definedFields [("taskId", taskId), ("type", some (.str NodeNotifications.getTaskResult))]

/-- The request that the dispatcher reads from a content of the server. -/
def requestOf (content : Json) : Option ProxyRequest :=
  match content.get? "type" with
  | some (.str type) =>
      if type = CoreRequests.newTaskEncryptionKey then
        some (.newTaskEncryptionKey (content.get? "workerSignKey") (content.get? "userPubKey"))
      else if type = NodeNotifications.getTaskStatus then
        some (.getTaskStatus (content.get? "taskId") (content.get? "workerAddress")
          (content.get? "withResult"))
      else if type = NodeNotifications.getTaskResult then
        some (.getTaskResult (content.get? "taskId"))
      else
        match content.get? "request" with
        | some (.obj request) =>
            if type = CoreRequests.deploySecretContract then some (.deploySecretContract request)
            else if type = CoreRequests.computeTask then some (.computeTask request)
            else none
        | _ => none
  | _ => none

/-- The dispatcher reads the request that the server sent. -/
theorem requestOf_setField {request : ProxyRequest} {fields : List (String × Json)}
    (isContent : request.content = .obj fields) (id : Json) :
    requestOf (.obj (setField "id" id fields)) = some request := by
  have read : ∀ name, name ≠ "id" →
      (Json.obj (setField "id" id fields)).get? name = request.content.get? name := by
    intro name other
    rw [isContent, Json.get?_obj, Json.get?_obj, lookup_setField_ne other]
  simp only [requestOf, read _ (by decide : "type" ≠ "id"), read _ (by decide : "request" ≠ "id"),
    read _ (by decide : "workerSignKey" ≠ "id"), read _ (by decide : "userPubKey" ≠ "id"),
    read _ (by decide : "taskId" ≠ "id"), read _ (by decide : "workerAddress" ≠ "id"),
    read _ (by decide : "withResult" ≠ "id")]
  cases request with
  | newTaskEncryptionKey workerSignKey userPubKey =>
      simp [ProxyRequest.content, get?_definedFields_cons, get?_definedFields_nil]
  | getTaskStatus taskId workerAddress withResult =>
      have other : NodeNotifications.getTaskStatus ≠ CoreRequests.newTaskEncryptionKey := by decide
      simp [ProxyRequest.content, get?_definedFields_cons, get?_definedFields_nil, other]
  | getTaskResult taskId =>
      have other : NodeNotifications.getTaskResult ≠ CoreRequests.newTaskEncryptionKey := by decide
      have other' : NodeNotifications.getTaskResult ≠ NodeNotifications.getTaskStatus := by decide
      simp [ProxyRequest.content, get?_definedFields_cons, get?_definedFields_nil, other, other']
  | deploySecretContract request => rfl
  | computeTask request => rfl

/-- What the rest of the node contributes. -/
structure ProxyEnv where
  parse : String → Except Exn Json
  selfId : String
  /-- The id that the content got with its envelop. -/
  sequence : String
  /-- `Buffer.from(preCode, "base64")` and `gunzip`; `none` if one of them throws. -/
  unpack : Option Json → Option (List UInt8)
  /-- `EncoderUtil.encode` has a result. -/
  encodes : Json → Bool
  /-- The network layer takes the topic of a message, or of a subscription, and does not throw. -/
  publishes : Json → Bool
  subscribes : Json → Bool
  /-- The read of the database fails. -/
  fails : Bool

/-- An object literal; a property without a value is sent as `null`. -/
def literal (fields : List (String × Option Json)) : Json :=
  .obj (fields.map fun field => (field.1, field.2.getD .null))

/-- `_sendResponseEnvelope`: the content of the response. -/
def responseOf (result : Json) (error : Option String) : Json :=
  literal [("result", some result), ("error", error.map .str)]

/-- Where the handling of a request has ended. -/
inductive Handling where
  /-- Nothing more happens after these responses. -/
  | ended (responses : List Json)
  /-- There is a subscription to the topic. -/
  | waits (topic : Json)
  deriving DecidableEq

section

variable (env : ProxyEnv) (state : ManagerState)

/-- `RouteRpcBlockingAction`. -/
def routeRpcBlocking (type : String) (content : List (String × Option Json))
    (targetTopic workerSignKey : Option Json) : Handling :=
  match targetTopic with
  | some topic =>
      if !topic.truthy || env.sequence = "" || !truthy? workerSignKey then
        .ended [responseOf (.bool false) (some "error no sequence/targetTopic/signKey")]
      else if !env.encodes (literal [("type", some (.str type)),
          ("request", some (literal content)), ("sequence", some (.str env.sequence)),
          ("targetTopic", some topic)]) then
        .ended [responseOf (.bool false) (some "error in encoding routed message")]
      else if env.subscribes topic then .waits topic
      else .ended []
  | none => .ended [responseOf (.bool false) (some "error no sequence/targetTopic/signKey")]

/-- `onPublish` of the subscription, on the decoded message; `none` if decoding failed. -/
def onPublish (data : Option Json) : Json :=
  match data with
  | some data =>
      if data.truthy then literal [("result", data.get? "result"), ("error", none)]
      else responseOf (.bool false) (some "error in decoding response message")
  | none => responseOf (.bool false) (some "error in decoding response message")

/-- `RouteRpcNonBlockingAction`. -/
def routeRpcNonBlocking (type : String) (request : List (String × Json)) : Handling :=
  match request.lookup "workerAddress" with
  | some targetTopic =>
      if !targetTopic.truthy then
        .ended [responseOf (.obj [("sent", .bool false)]) (some "error no targetTopic/request")]
      else if !env.encodes (literal [("type", some (.str type)),
          ("request", some (.obj request))]) then
        .ended [responseOf (.obj [("sent", .bool false)]) (some "error in encoding routed message")]
      else if env.publishes targetTopic then .ended [responseOf (.obj [("sent", .bool true)]) none]
      else .ended []
  | none => .ended [responseOf (.obj [("sent", .bool false)]) (some "error no targetTopic/request")]

/-- `getResult()`. -/
def getResult : StoredTask → Option Result
  | .own task => task.result
  | .outside task => task.result

/-- The database reads no key that is `undefined` or `null`. -/
def readFails (taskId : Option Json) : Bool :=
  env.fails || decide (taskId = none ∨ taskId = some .null)

/-- `GetResultAction` with `asyncExecCmd`: the promise is not settled, is rejected (`some none`),
or has the result of the task, `none` being `null`. -/
def getTaskResultAction (taskId : Option Json) : Option (Option (Option Result)) :=
  match keyOf taskId with
  | .error _ => some none
  | .ok id =>
      (asyncGetTask env.parse state (readFails env taskId) id).map fun answer =>
        answer.toOption.map getResult

/-- `GetStatusProxyAction`. A result that is `null` has no status, and the exception is caught. -/
def getStatusProxy (content : List (String × Option Json))
    (taskId targetTopic workerSignKey : Option Json) : Handling :=
  match getTaskResultAction env state taskId with
  | none => .ended []
  | some (some (some result)) =>
      .ended [literal [("result", result.status), ("output", result.output)]]
  | some _ => routeRpcBlocking env NodeNotifications.getTaskStatus content targetTopic workerSignKey

/-- `_getTaskResult`. -/
def getTaskResult (taskId : Option Json) : Handling :=
  match getTaskResultAction env state taskId with
  | none => .ended []
  | some result => .ended [literal [("result", result.join.map Result.toDbJson)]]

/-- The content of a request for an encryption key, with its topic. -/
def keyContent (workerSignKey userPubKey targetTopic : Option Json) :
    List (String × Option Json) :=
  [("workerSignKey", workerSignKey), ("userPubKey", userPubKey),
    ("type", some (.str CoreRequests.newTaskEncryptionKey)),
    ("id", some (.str env.sequence)), ("targetTopic", targetTopic)]

/-- The content of a request for a status, with its topic. -/
def statusContent (taskId workerAddress withResult targetTopic : Option Json) :
    List (String × Option Json) :=
  [("taskId", taskId), ("workerAddress", workerAddress), ("withResult", withResult),
    ("type", some (.str NodeNotifications.getTaskStatus)), ("id", some (.str env.sequence)),
    ("targetTopic", targetTopic), ("workerSignKey", workerAddress)]

/-- The parameters of a deployment with its pre-code as bytes. -/
def unpacked (preCode : List UInt8) (request : List (String × Json)) : List (String × Json) :=
  setField "preCode" (.arr (preCode.map fun byte => .num byte.toNat)) request

/-- `ProxyDispatcherAction`. -/
def dispatch : ProxyRequest → Handling
  | .newTaskEncryptionKey workerSignKey userPubKey =>
      match keyOf workerSignKey with
      | .error _ => .ended []
      | .ok key =>
          let targetTopic := some (.str (env.selfId ++ key ++ env.sequence))
          routeRpcBlocking env CoreRequests.newTaskEncryptionKey
            (keyContent env workerSignKey userPubKey targetTopic) targetTopic workerSignKey
  | .getTaskStatus taskId workerAddress withResult =>
      match plus taskId workerAddress with
      | .error _ => .ended []
      | .ok targetTopic =>
          getStatusProxy env state (statusContent env taskId workerAddress withResult targetTopic)
            taskId targetTopic workerAddress
  | .deploySecretContract request =>
      match env.unpack (request.lookup "preCode") with
      | none => .ended []
      | some preCode =>
          routeRpcNonBlocking env CoreRequests.deploySecretContract (unpacked preCode request)
  | .computeTask request => routeRpcNonBlocking env CoreRequests.computeTask request
  | .getTaskResult taskId => getTaskResult env state taskId

/-- `ProxyDispatcherAction` on the content of an envelop, which has an id. -/
def dispatchContent (content : Json) : Handling :=
  match requestOf content, content.get? "id" with
  | some request, some (.str sequence) => dispatch { env with sequence } state request
  | _, _ => .ended []

/-- The responses to a request, when the remote worker has published these messages on the
topic. -/
def Handling.responses (published : List (Option Json)) : Handling → List Json
  | ended responses => responses
  | waits _ => published.map onPublish

/-- The request waits for a remote worker. -/
def Handling.Waits (handling : Handling) : Prop := ∃ topic, handling = waits topic

/-- If the remote worker answers at most once, there is at most one response, and exactly one
if the request does not wait. -/
def ProxyRight (request : ProxyRequest) : Prop :=
  ∀ published, published.length ≤ 1 →
    ((dispatch env state request).responses published).length ≤ 1 ∧
    (¬ (dispatch env state request).Waits →
      ((dispatch env state request).responses published).length = 1)

/-! ## When a client gets its response -/

/-- A blocking route that is not refused has a topic that the network takes. -/
def BlockingClear (type : String) (content : List (String × Option Json))
    (targetTopic workerSignKey : Option Json) : Prop :=
  ∀ topic ∈ targetTopic, topic.truthy = true → env.sequence ≠ "" →
    truthy? workerSignKey = true →
      env.encodes (literal [("type", some (.str type)), ("request", some (literal content)),
        ("sequence", some (.str env.sequence)), ("targetTopic", some topic)]) = true →
        env.subscribes topic = true

/-- A non-blocking route that is not refused has a topic that the network takes. -/
def NonBlockingClear (type : String) (request : List (String × Json)) : Prop :=
  ∀ topic ∈ request.lookup "workerAddress", topic.truthy = true →
    env.encodes (literal [("type", some (.str type)), ("request", some (.obj request))]) = true →
      env.publishes topic = true

/-- The read of a task is clear, if its id is a key at all. -/
def LocalClear (taskId : Option Json) : Prop :=
  ∀ id, keyOf taskId = .ok id → ReadClear env.parse state (readFails env taskId) id

/-- The result of the task with the id. -/
def localResult (taskId : Option Json) : Option Result :=
  (keyOf taskId).toOption.bind fun id =>
    (taskOf env.parse state (readFails env taskId) id).bind getResult

/-- The topic of a request can be made, its pre-code unpacked and its task read, and the
network takes the topic of a route. -/
def ProxyClear : ProxyRequest → Prop
  | .newTaskEncryptionKey workerSignKey userPubKey => ∃ key, keyOf workerSignKey = .ok key ∧
      let targetTopic := some (.str (env.selfId ++ key ++ env.sequence))
      BlockingClear env CoreRequests.newTaskEncryptionKey
        (keyContent env workerSignKey userPubKey targetTopic) targetTopic workerSignKey
  | .getTaskStatus taskId workerAddress withResult =>
      ∃ targetTopic, plus taskId workerAddress = .ok targetTopic ∧ LocalClear env state taskId ∧
        (localResult env state taskId = none → BlockingClear env NodeNotifications.getTaskStatus
          (statusContent env taskId workerAddress withResult targetTopic) targetTopic workerAddress)
  | .deploySecretContract request => ∃ preCode,
      env.unpack (request.lookup "preCode") = some preCode ∧
      NonBlockingClear env CoreRequests.deploySecretContract (unpacked preCode request)
  | .computeTask request => NonBlockingClear env CoreRequests.computeTask request
  | .getTaskResult taskId => LocalClear env state taskId

/-- The content is that of a clear request, with the id it got. -/
def ContentClear (content : Json) : Prop :=
  ∃ request sequence, requestOf content = some request ∧
    content.get? "id" = some (.str sequence) ∧ ProxyClear { env with sequence } state request

end

section

variable {env : ProxyEnv} {state : ManagerState}

/-- A handling that has ended has one response, unless it has none. -/
def Handling.Single : Handling → Prop
  | ended [] | ended [.obj _] | waits _ => True
  | ended _ => False

theorem routeRpcBlocking_single (type : String) (content : List (String × Option Json))
    (targetTopic workerSignKey : Option Json) :
    (routeRpcBlocking env type content targetTopic workerSignKey).Single := by
  cases targetTopic with
  | none => trivial
  | some topic =>
      rw [routeRpcBlocking]
      split
      · trivial
      · split
        · trivial
        · split <;> trivial

theorem routeRpcNonBlocking_single (type : String) (request : List (String × Json)) :
    (routeRpcNonBlocking env type request).Single := by
  rw [routeRpcNonBlocking]
  split
  · split
    · trivial
    · split
      · trivial
      · split <;> trivial
  · trivial

/-- No request gets two responses from the gateway itself. -/
theorem dispatch_single (request : ProxyRequest) : (dispatch env state request).Single := by
  cases request with
  | newTaskEncryptionKey workerSignKey userPubKey =>
      rw [dispatch]
      split
      · trivial
      · exact routeRpcBlocking_single _ _ _ _
  | getTaskStatus taskId workerAddress withResult =>
      rw [dispatch]
      split
      · trivial
      · rw [getStatusProxy]
        split
        · trivial
        · trivial
        · exact routeRpcBlocking_single _ _ _ _
  | deploySecretContract request =>
      rw [dispatch]
      split
      · trivial
      · exact routeRpcNonBlocking_single _ _
  | computeTask request => exact routeRpcNonBlocking_single _ _
  | getTaskResult taskId =>
      rw [dispatch, getTaskResult]
      split <;> trivial

/-- So a request is handled right exactly if its handling does not end in silence. -/
theorem proxyRight_iff_ne (request : ProxyRequest) :
    ProxyRight env state request ↔ dispatch env state request ≠ .ended [] := by
  have single := @dispatch_single env state request
  rw [ProxyRight]
  cases handled : dispatch env state request with
  | waits topic =>
      refine iff_of_true (fun published once => ⟨?_, fun waits => absurd ⟨topic, rfl⟩ waits⟩) nofun
      rw [Handling.responses, List.length_map]
      exact once
  | ended responses =>
      have ended : ¬ (Handling.ended responses).Waits := nofun
      rw [handled] at single
      match responses, single with
      | [], _ =>
          refine iff_of_false (fun right => ?_) fun ends => ends rfl
          have one := (right [] (Nat.zero_le 1)).2 ended
          cases one
      | [.obj _], _ => exact iff_of_true (fun _ _ => ⟨Nat.le_refl 1, fun _ => rfl⟩) nofun

/-- A blocking route ends in silence only if the network does not take the topic. -/
theorem routeRpcBlocking_ne_iff (type : String) (content : List (String × Option Json))
    (targetTopic workerSignKey : Option Json) :
    routeRpcBlocking env type content targetTopic workerSignKey ≠ .ended [] ↔
      BlockingClear env type content targetTopic workerSignKey := by
  rw [BlockingClear]
  cases targetTopic with
  | none => exact iff_of_true nofun nofun
  | some topic =>
      simp only [routeRpcBlocking, Option.mem_some_iff, forall_eq']
      split
      · rename_i refused
        refine iff_of_true nofun fun isTopic isSequence isKey => ?_
        simp [isTopic, isSequence, isKey] at refused
      · rename_i routed
        simp only [Bool.or_eq_true, Bool.not_eq_true', decide_eq_true_eq, not_or,
          Bool.not_eq_false] at routed
        obtain ⟨⟨isTopic, isSequence⟩, isKey⟩ := routed
        split
        · rename_i unencoded
          refine iff_of_true nofun fun _ _ _ encoded => ?_
          simp [encoded] at unencoded
        · rename_i encoded
          simp only [Bool.not_eq_true', Bool.not_eq_false] at encoded
          split
          · rename_i taken
            exact iff_of_true nofun fun _ _ _ _ => taken
          · rename_i untaken
            exact iff_of_false (fun ends => ends rfl)
              fun clear => untaken (clear isTopic isSequence isKey encoded)

/-- A non-blocking route, too, ends in silence only if the network does not take the topic. -/
theorem routeRpcNonBlocking_ne_iff (type : String) (request : List (String × Json)) :
    routeRpcNonBlocking env type request ≠ .ended [] ↔ NonBlockingClear env type request := by
  rw [NonBlockingClear, routeRpcNonBlocking]
  cases request.lookup "workerAddress" with
  | none => exact iff_of_true nofun nofun
  | some topic =>
      simp only [Option.mem_some_iff, forall_eq']
      split
      · rename_i refused
        refine iff_of_true nofun fun isTopic => ?_
        simp [isTopic] at refused
      · rename_i isTopic
        simp only [Bool.not_eq_true', Bool.not_eq_false] at isTopic
        split
        · rename_i unencoded
          refine iff_of_true nofun fun _ encoded => ?_
          simp [encoded] at unencoded
        · rename_i encoded
          simp only [Bool.not_eq_true', Bool.not_eq_false] at encoded
          split
          · rename_i taken
            exact iff_of_true nofun fun _ _ => taken
          · rename_i untaken
            exact iff_of_false (fun ends => ends rfl) fun clear => untaken (clear isTopic encoded)

/-- The promise of a task's result is settled with the result of the task, or not at all. -/
theorem getTaskResultAction_eq (taskId : Option Json) :
    (LocalClear env state taskId ∧ ∃ result, getTaskResultAction env state taskId = some result ∧
      result.join = localResult env state taskId) ∨
    (¬ LocalClear env state taskId ∧ getTaskResultAction env state taskId = none) := by
  rw [LocalClear, getTaskResultAction, localResult]
  cases isKey : keyOf taskId with
  | error exn => exact .inl ⟨nofun, none, rfl, rfl⟩
  | ok id =>
      simp only [Except.ok.injEq, forall_eq']
      by_cases clear : ReadClear env.parse state (readFails env taskId) id
      · obtain ⟨answer, isTask, calls⟩ := getTask_of_clear clear
        refine .inl ⟨clear, answer.toOption.map getResult, ?_, ?_⟩
        · rw [asyncGetTask, calls]
          rfl
        · change (answer.toOption.map getResult).join =
            (taskOf env.parse state (readFails env taskId) id).bind getResult
          rw [isTask]
          cases taskOf env.parse state (readFails env taskId) id <;> rfl
      · refine .inr ⟨clear, ?_⟩
        have silent : getTask env.parse state (readFails env taskId) id (fun answer => [answer]) =
            [] := by
          by_contra calls
          exact clear (clear_of_getTask calls)
        rw [asyncGetTask, silent]
        rfl

/-- A status ends in silence if its task is not read, or if it is routed and the network does
not take the topic. -/
theorem getStatusProxy_ne_iff (content : List (String × Option Json))
    (taskId targetTopic workerSignKey : Option Json) :
    getStatusProxy env state content taskId targetTopic workerSignKey ≠ .ended [] ↔
      LocalClear env state taskId ∧ (localResult env state taskId = none →
        BlockingClear env NodeNotifications.getTaskStatus content targetTopic workerSignKey) := by
  rw [getStatusProxy]
  cases @getTaskResultAction_eq env state taskId with
  | inr unread =>
      rw [unread.2]
      exact iff_of_false (fun ends => ends rfl) fun clear => unread.1 clear.1
  | inl read =>
      obtain ⟨clear, result, isResult, join⟩ := read
      rw [isResult, ← join]
      match result with
      | some (some result) => exact iff_of_true nofun ⟨clear, nofun⟩
      | some none =>
          exact (routeRpcBlocking_ne_iff _ _ _ _).trans
            ⟨fun blocking => ⟨clear, fun _ => blocking⟩, fun both => both.2 rfl⟩
      | none =>
          exact (routeRpcBlocking_ne_iff _ _ _ _).trans
            ⟨fun blocking => ⟨clear, fun _ => blocking⟩, fun both => both.2 rfl⟩

/-- A request is handled in silence exactly if it is not clear. -/
theorem dispatch_ne_iff (request : ProxyRequest) :
    dispatch env state request ≠ .ended [] ↔ ProxyClear env state request := by
  cases request with
  | newTaskEncryptionKey workerSignKey userPubKey =>
      rw [dispatch, ProxyClear]
      cases isKey : keyOf workerSignKey with
      | error exn => exact iff_of_false (fun ends => ends rfl) (fun ⟨_, isOk, _⟩ => nomatch isOk)
      | ok key =>
          simp only [Except.ok.injEq, exists_eq_left']
          exact routeRpcBlocking_ne_iff _ _ _ _
  | getTaskStatus taskId workerAddress withResult =>
      rw [dispatch, ProxyClear]
      cases isTopic : plus taskId workerAddress with
      | error exn => exact iff_of_false (fun ends => ends rfl) (fun ⟨_, isOk, _⟩ => nomatch isOk)
      | ok targetTopic =>
          simp only [Except.ok.injEq, exists_eq_left']
          exact getStatusProxy_ne_iff _ _ _ _
  | deploySecretContract request =>
      rw [dispatch, ProxyClear]
      cases unpacked : env.unpack (request.lookup "preCode") with
      | none => exact iff_of_false (fun ends => ends rfl) (fun ⟨_, isSome, _⟩ => nomatch isSome)
      | some preCode =>
          simp only [Option.some.injEq, exists_eq_left']
          exact routeRpcNonBlocking_ne_iff _ _
  | computeTask request => exact routeRpcNonBlocking_ne_iff _ _
  | getTaskResult taskId =>
      rw [dispatch, ProxyClear, getTaskResult]
      cases @getTaskResultAction_eq env state taskId with
      | inl read =>
          obtain ⟨clear, result, isResult, -⟩ := read
          rw [isResult]
          exact iff_of_true nofun clear
      | inr unread =>
          rw [unread.2]
          exact iff_of_false (fun ends => ends rfl) unread.1

/-- A request is handled right in every state of the task manager exactly if it is clear. -/
theorem proxyRight_iff (env : ProxyEnv) (state : ManagerState) (request : ProxyRequest) :
    ProxyRight env state request ↔ ProxyClear env state request := by
  rw [proxyRight_iff_ne]
  exact dispatch_ne_iff request

theorem onPublish_obj (data : Option Json) : ∃ content, onPublish data = .obj content := by
  unfold onPublish
  split
  · split <;> exact ⟨_, rfl⟩
  · exact ⟨_, rfl⟩

/-- A content is handled in silence exactly if it is not that of a clear request. -/
theorem dispatchContent_ne_iff (env : ProxyEnv) (state : ManagerState) (content : Json) :
    dispatchContent env state content ≠ .ended [] ↔ ContentClear env state content := by
  unfold dispatchContent
  constructor
  · intro speaks
    split at speaks
    · rename_i request sequence isRequest isId
      exact ⟨request, sequence, isRequest, isId, (dispatch_ne_iff request).mp speaks⟩
    · exact absurd rfl speaks
  · rintro ⟨request, sequence, isRequest, isId, clear⟩
    rw [isRequest, isId]
    exact (dispatch_ne_iff request).mpr clear

theorem dispatchContent_single (env : ProxyEnv) (state : ManagerState) (content : Json) :
    (dispatchContent env state content).Single := by
  unfold dispatchContent
  split
  · exact dispatch_single _
  · trivial

end

/-- A node whose network takes every text as a topic, and that unpacks nothing. -/
def openProxy : ProxyEnv where
  parse := noTexts
  selfId := "Qm"
  sequence := "1"
  unpack := fun _ => none
  encodes := fun _ => true
  publishes := fun topic => isText (some topic)
  subscribes := fun topic => isText (some topic)
  fails := false

/-- A deployment whose pre-code cannot be unpacked gets no response, and neither do the status
and the result of a task that waits for its verdict. -/
theorem proxyRight_wrong :
    ¬ ProxyRight openProxy (.initial []) (.deploySecretContract [("preCode", .str "00")]) ∧
    ¬ ProxyRight openProxy (Transition.run (managerStep noTexts) (.initial [])
      [.addTaskUnverified (submission "01")])
        (.getTaskStatus (some (.str "aa")) (some (.str "bb")) none) ∧
    ¬ ProxyRight openProxy (Transition.run (managerStep noTexts) (.initial [])
      [.addTaskUnverified (submission "01")]) (.getTaskResult (some (.str "aa"))) := by
  simp only [proxyRight_iff_ne]
  decide

end Proxy
