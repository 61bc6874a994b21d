import EnigmaP2P.Core.Dispatch
import EnigmaP2P.Proxy.Dispatcher
import EnigmaP2P.Transition.Runs

/-!
# Blocking requests between gateways and workers

A gateway subscribes to a topic that it makes up for a request, and publishes the request on
the topic of the worker that the client names. The worker answers on the topic that the request
carries, with the key that its core gives out or with the status of a task.

Gateways, workers and everybody else publish on the same network. What belongs together is told
by the name of a topic alone: a response is right if no two different requests make up the same
one and nobody else uses it.
-/

namespace Proxy

open Js Common Tasks Core Transition

/-- What was published on a topic; `none` is data that no node decodes. -/
structure Publication where
  topic : Json
  data : Option Json

/-- A request that waits for what is published on the topic. -/
structure Asked where
  env : ProxyEnv
  request : ProxyRequest
  topic : Json
  responses : List Json

/-- A worker, with its tasks as they are while it handles a message. -/
structure WorkerEnv where
  signingKey : Json
  randId : String
  parse : String → Except Exn Json
  tasks : ManagerState
  fails : Bool
  encodes : Json → Bool
  publishes : Json → Bool

/-- A message for the core of a worker, with the topic for its answer. The promise is settled
with `encKeyResult`. -/
structure Held where
  worker : WorkerEnv
  sendMsg : Json
  targetTopic : Option Json
  encKeyResult : Option Json

/-- A worker that read the status of a task. -/
structure Report where
  worker : WorkerEnv
  taskId : Option Json

structure RpcNet where
  asked : List Asked
  published : List Publication
  held : List Held
  reports : List Report

/-- The type of a routed request, its content and the topic it is published on. -/
structure Route where
  type : String
  content : List (String × Option Json)
  workerSignKey : Option Json

/-- What `RouteRpcBlockingAction` routes for a request. -/
def route (env : ProxyEnv) (topic : Json) : ProxyRequest → Option Route
  | .newTaskEncryptionKey workerSignKey userPubKey =>
      some ⟨CoreRequests.newTaskEncryptionKey,
        keyContent env workerSignKey userPubKey (some topic), workerSignKey⟩
  | .getTaskStatus taskId workerAddress withResult =>
      some ⟨NodeNotifications.getTaskStatus,
        statusContent env taskId workerAddress withResult (some topic), workerAddress⟩
  | _ => none

/-- The message that is encoded. -/
def routedMessage (env : ProxyEnv) (topic : Json) (route : Route) : Json :=
  literal [("type", some (.str route.type)), ("request", some (literal route.content)),
    ("sequence", some (.str env.sequence)), ("targetTopic", some topic)]

/-- The status that `getTaskStatus` calls back with, if it does; `some none` is `null`. -/
def WorkerEnv.statusOf (worker : WorkerEnv) (taskId : Option Json) : Option (Option Json) :=
  match keyOf taskId with
  | .error _ => none
  | .ok id => (Tasks.getTaskStatus worker.parse worker.tasks
      (worker.fails || decide (taskId = none ∨ taskId = some .null)) id
      fun status => [status]).head?

/-- The message with the core's answer. Reading from a missing result throws. -/
def keyMessage (encKeyResult : Json) : Option Json :=
  if encKeyResult.get? "type" = some (.str "Error") then none
  else match encKeyResult.get? "result" with
    | none | some .null => none
    | some result => some (literal [("result", some (literal
        [("workerEncryptionKey", result.get? "workerEncryptionKey"),
          ("workerSig", result.get? "workerSig")]))])

namespace RpcNet

def initial : RpcNet := ⟨[], [], [], []⟩

/-- A worker publishes a message that can be encoded. -/
def publish (worker : WorkerEnv) (targetTopic : Option Json) (message : Json) (net : RpcNet) :
    RpcNet :=
  match targetTopic with
  | some topic =>
      if worker.encodes message && worker.publishes topic then
        { net with published := net.published ++ [⟨topic, some message⟩] }
      else net
  | none => net

/-- `_executeNewTaskEncryptionKey` up to the answer of the core. -/
def executeNewTaskEncryptionKey (worker : WorkerEnv) (request targetTopic : Option Json)
    (net : RpcNet) : RpcNet :=
  let sendMsg := (newTaskEncryptionKey worker.randId request).toOption.join
  { net with held := net.held ++
      sendMsg.toList.map fun sendMsg => ⟨worker, sendMsg, targetTopic, none⟩ }

/-- `_getTaskStatus`. -/
def getTaskStatus (worker : WorkerEnv) (request targetTopic : Option Json) (net : RpcNet) :
    RpcNet :=
  match request with
  | none | some .null => net
  | some request =>
      match worker.statusOf (request.get? "taskId") with
      | some (some status) =>
          if status.truthy then
            let reports := net.reports ++ [⟨worker, request.get? "taskId"⟩]
            let net := { net with reports }
            net.publish worker targetTopic (literal [("result", some status)])
          else net
      | _ => net

/-- `onPublish` of a worker's subscription, for the types that are answered on a topic. -/
def handle (worker : WorkerEnv) (data : Json) (net : RpcNet) : RpcNet :=
  if !data.truthy then net
  else if data.get? "type" = some (.str CoreRequests.newTaskEncryptionKey) then
    net.executeNewTaskEncryptionKey worker (data.get? "request") (data.get? "targetTopic")
  else if data.get? "type" = some (.str NodeNotifications.getTaskStatus) then
    net.getTaskStatus worker (data.get? "request") (data.get? "targetTopic")
  else net

/-- A gateway gets a request of a client. One that does not wait is not followed. -/
def ask (env : ProxyEnv) (tasks : ManagerState) (request : ProxyRequest) (net : RpcNet) : RpcNet :=
  match dispatch env tasks request with
  | .waits topic => { net with asked := net.asked ++ [⟨env, request, topic, []⟩] }
  | .ended _ => net

/-- `onSubscribed` of a gateway's subscription. -/
def subscribed (asked : Asked) (net : RpcNet) : RpcNet :=
  match route asked.env asked.topic asked.request with
  | some found =>
      match found.workerSignKey with
      | some key =>
          if asked.env.publishes key then
            { net with published := net.published ++
                [⟨key, some (routedMessage asked.env asked.topic found)⟩] }
          else net
      | none => net
  | none => net

/-- The core answers. -/
def answered (k : Nat) (held : Held) (encKeyResult : Json) (net : RpcNet) : RpcNet :=
  let net := { net with held := net.held.set k { held with encKeyResult := some encKeyResult } }
  match keyMessage encKeyResult with
  | some message => net.publish held.worker held.targetTopic message
  | none => net

end RpcNet

/-- A client asks, a subscription is there, a worker and a gateway get what was published, a core
answers, and something else is published. The network may deliver late, twice or never. -/
inductive RpcLabel where
  | ask (env : ProxyEnv) (tasks : ManagerState) (request : ProxyRequest)
  | subscribed (i : Nat)
  | handled (worker : WorkerEnv) (j : Nat)
  | answered (k : Nat) (encKeyResult : Json)
  | delivered (i j : Nat)
  | other (publication : Publication)

def rpcStep (net : RpcNet) : RpcLabel → RpcNet
  | .ask env tasks request => net.ask env tasks request
  | .subscribed i =>
      match net.asked[i]? with
      | some asked => net.subscribed asked
      | none => net
  | .handled worker j =>
      match net.published[j]? with
      | some ⟨topic, some data⟩ => if topic = worker.signingKey then net.handle worker data else net
      | _ => net
  | .answered k encKeyResult =>
      match net.held[k]? with
      | some ⟨worker, sendMsg, targetTopic, none⟩ =>
          net.answered k ⟨worker, sendMsg, targetTopic, none⟩ encKeyResult
      | _ => net
  | .delivered i j =>
      match net.asked[i]?, net.published[j]? with
      | some asked, some publication =>
          if publication.topic = asked.topic then
            let responses := asked.responses ++ [onPublish publication.data]
            { net with asked := net.asked.set i { asked with responses } }
          else net
      | _, _ => net
  | .other publication => { net with published := net.published ++ [publication] }

/-! ## What a response should be -/

/-- What a gateway asks a worker for: an answer of its core to a request, or the status of a
task. -/
inductive Question where
  | key (signingKey : Option Json) (request : Json)
  | status (signingKey taskId : Option Json)

def Question.signingKey : Question → Option Json
  | key signingKey _ | status signingKey _ => signingKey

def question (env : ProxyEnv) (topic : Json) : ProxyRequest → Option Question
  | .newTaskEncryptionKey workerSignKey userPubKey =>
      some (.key workerSignKey (literal (keyContent env workerSignKey userPubKey (some topic))))
  | .getTaskStatus taskId workerAddress _ => some (.status workerAddress (some (taskId.getD .null)))
  | _ => none

/-- The message is what a worker with the signing key gave for the question. -/
def RpcNet.Reply (net : RpcNet) (message : Json) : Question → Prop
  | .key signingKey request => ∃ held ∈ net.held, some held.worker.signingKey = signingKey ∧
      held.sendMsg = request ∧ ∃ encKeyResult ∈ held.encKeyResult,
        keyMessage encKeyResult = some message
  | .status signingKey taskId => ∃ report ∈ net.reports,
      some report.worker.signingKey = signingKey ∧ report.taskId = taskId ∧
      ∃ status, report.worker.statusOf taskId = some (some status) ∧
        message = literal [("result", some status)]

/-- Every response to a waiting request is made of a reply to its own question. -/
def RoundTrip (net : RpcNet) : Prop :=
  ∀ asked ∈ net.asked, ∀ response ∈ asked.responses,
    ∃ own message, question asked.env asked.topic asked.request = some own ∧
      net.Reply message own ∧ response = onPublish (some message)

/-- A request of the run waits on the topic for a reply to the question. -/
def Asks (labels : List RpcLabel) (topic : Json) (own : Question) : Prop :=
  ∃ env tasks request, RpcLabel.ask env tasks request ∈ labels ∧
    dispatch env tasks request = .waits topic ∧ question env topic request = some own

/-- Ids have fixed lengths and tell the requests apart, and nobody else uses the topics. -/
structure Orderly (width addressWidth : Nat) (labels : List RpcLabel) : Prop where
  sequence_length : ∀ {env tasks workerSignKey userPubKey},
    .ask env tasks (.newTaskEncryptionKey workerSignKey userPubKey) ∈ labels →
      env.sequence.length = width
  sequence_own : ∀ {env tasks workerSignKey userPubKey env' tasks' workerSignKey' userPubKey'},
    .ask env tasks (.newTaskEncryptionKey workerSignKey userPubKey) ∈ labels →
    .ask env' tasks' (.newTaskEncryptionKey workerSignKey' userPubKey') ∈ labels →
      env.sequence = env'.sequence → workerSignKey = workerSignKey' ∧ userPubKey = userPubKey'
  address : ∀ {env tasks taskId workerAddress withResult},
    .ask env tasks (.getTaskStatus taskId workerAddress withResult) ∈ labels →
      ∃ id address, taskId = some (.str id) ∧ workerAddress = some (.str address) ∧
        address.length = addressWidth
  apart : ∀ {env tasks workerSignKey userPubKey env' tasks' id address withResult},
    .ask env tasks (.newTaskEncryptionKey workerSignKey userPubKey) ∈ labels →
    .ask env' tasks' (.getTaskStatus (some (.str id)) (some (.str address)) withResult) ∈ labels →
      ∀ start, id ++ address ≠ start ++ env.sequence
  signingKey : ∀ {topic own topic' own'}, Asks labels topic own → Asks labels topic' own' →
    own.signingKey ≠ some topic'
  other : ∀ {publication topic own}, .other publication ∈ labels → Asks labels topic own →
    publication.topic ≠ topic ∧ ∀ data ∈ publication.data, data.get? "targetTopic" ≠ some topic

/-! ## The topics of a run -/

variable {width addressWidth : Nat} {labels : List RpcLabel} {net : RpcNet}

/-- A blocking route waits on its own topic, and only with a sequence and a key. -/
theorem routeRpcBlocking_waits {env : ProxyEnv} {type : String}
    {content : List (String × Option Json)} {targetTopic workerSignKey : Option Json}
    {topic : Json}
    (waits : routeRpcBlocking env type content targetTopic workerSignKey = .waits topic) :
    targetTopic = some topic ∧ env.sequence ≠ "" := by
  unfold routeRpcBlocking at waits
  split at waits
  · split at waits
    · cases waits
    · rename_i routed
      simp only [Bool.or_eq_true, Bool.not_eq_true', decide_eq_true_eq, not_or,
        Bool.not_eq_false] at routed
      split at waits
      · cases waits
      · split at waits
        · cases waits
          exact ⟨rfl, routed.1.2⟩
        · cases waits
  · cases waits

theorem routeRpcNonBlocking_ne_waits {env : ProxyEnv} (type : String)
    (request : List (String × Json)) (topic : Json) :
    routeRpcNonBlocking env type request ≠ .waits topic := by
  intro waits
  unfold routeRpcNonBlocking at waits
  split at waits
  · split at waits
    · cases waits
    · split at waits
      · cases waits
      · split at waits <;> cases waits
  · cases waits

/-- A request that waits asks a question, and its topic is made of its ids. -/
theorem dispatch_waits {env : ProxyEnv} {tasks : ManagerState} {request : ProxyRequest}
    {topic : Json} (waits : dispatch env tasks request = .waits topic) :
    env.sequence ≠ "" ∧
      ((∃ workerSignKey userPubKey key, request = .newTaskEncryptionKey workerSignKey userPubKey ∧
        topic = .str (env.selfId ++ key ++ env.sequence)) ∨
      ∃ taskId workerAddress withResult, request = .getTaskStatus taskId workerAddress withResult ∧
        plus taskId workerAddress = .ok (some topic)) := by
  cases request with
  | newTaskEncryptionKey workerSignKey userPubKey =>
      rw [dispatch] at waits
      split at waits
      · cases waits
      · rename_i key _
        obtain ⟨same, sequence⟩ := routeRpcBlocking_waits waits
        cases same
        exact ⟨sequence, .inl ⟨workerSignKey, userPubKey, key, rfl, rfl⟩⟩
  | getTaskStatus taskId workerAddress withResult =>
      rw [dispatch] at waits
      split at waits
      · cases waits
      · rename_i targetTopic isTopic
        rw [getStatusProxy] at waits
        split at waits
        · cases waits
        · cases waits
        · obtain ⟨rfl, sequence⟩ := routeRpcBlocking_waits waits
          exact ⟨sequence, .inr ⟨taskId, workerAddress, withResult, rfl, isTopic⟩⟩
  | deploySecretContract request =>
      rw [dispatch] at waits
      split at waits
      · cases waits
      · exact absurd waits (routeRpcNonBlocking_ne_waits _ _ _)
  | computeTask request => exact absurd waits (routeRpcNonBlocking_ne_waits _ _ _)
  | getTaskResult taskId =>
      rw [dispatch, getTaskResult] at waits
      split at waits <;> cases waits

/-- Texts with ends of the same length are equal if their parts are. -/
theorem append_inj_of_length {a b c d : String} (same : a ++ b = c ++ d)
    (length : b.length = d.length) : a = c ∧ b = d := by
  have lists : a.toList ++ b.toList = c.toList ++ d.toList := by
    rw [← String.toList_append, same, String.toList_append]
  have lengths : b.toList.length = d.toList.length := by
    rw [String.length_toList, String.length_toList, length]
  obtain ⟨first, second⟩ := List.append_inj' lists lengths
  exact ⟨String.toList_inj.mp first, String.toList_inj.mp second⟩

theorem topic_of_plus {a b : String} {topic : Json}
    (isTopic : plus (some (.str a)) (some (.str b)) = .ok (some topic)) :
    topic = .str (a ++ b) := by
  have joined : plus (some (.str a)) (some (.str b)) = .ok (some (.str (a ++ b))) := by
    have keys : ∀ text : String, keyOf (some (.str text)) = .ok text := Json.toKey_str
    change (do pure (some (Json.str ((← keyOf (some (.str a))) ++ (← keyOf (some (.str b))))))) = _
    rw [keys, keys]
    rfl
  exact Option.some.inj (Except.ok.inj (isTopic.symm.trans joined))

/-- A topic belongs to one question. -/
theorem Orderly.unique (orderly : Orderly width addressWidth labels) {topic : Json}
    {own own' : Question} (asks : Asks labels topic own) (asks' : Asks labels topic own') :
    own = own' := by
  obtain ⟨env, tasks, request, member, waits, isOwn⟩ := asks
  obtain ⟨env', tasks', request', member', waits', isOwn'⟩ := asks'
  rcases (dispatch_waits waits).2 with
    ⟨signKey, userPubKey, key, rfl, rfl⟩ | ⟨t, w, r, rfl, isTopic⟩
  · cases isOwn
    rcases (dispatch_waits waits').2 with
      ⟨signKey', userPubKey', key', rfl, sameTopic⟩ | ⟨t, w, r, rfl, isTopic⟩
    · cases isOwn'
      have length := (orderly.sequence_length member).trans (orderly.sequence_length member').symm
      have sequence := (append_inj_of_length (Json.str.inj sameTopic) length).2
      obtain ⟨rfl, rfl⟩ := orderly.sequence_own member member' sequence
      rw [keyContent, keyContent, sequence]
    · obtain ⟨id, address, rfl, rfl, -⟩ := orderly.address member'
      exact absurd (Json.str.inj (topic_of_plus isTopic)).symm (orderly.apart member member' _)
  · obtain ⟨id, address, rfl, rfl, length⟩ := orderly.address member
    cases isOwn
    rcases (dispatch_waits waits').2 with ⟨k, u, key, rfl, rfl⟩ | ⟨t', w', r', rfl, isTopic'⟩
    · exact absurd (Json.str.inj (topic_of_plus isTopic)).symm (orderly.apart member' member _)
    · obtain ⟨id', address', rfl, rfl, length'⟩ := orderly.address member'
      cases isOwn'
      have same := (topic_of_plus isTopic).symm.trans (topic_of_plus isTopic')
      obtain ⟨rfl, rfl⟩ := append_inj_of_length (Json.str.inj same) (length.trans length'.symm)
      rfl

/-! ## What is on its way -/

/-- The message asks a worker the question. -/
def Carries (data : Json) : Question → Prop
  | .key _ request => data.get? "type" = some (.str CoreRequests.newTaskEncryptionKey) ∧
      data.get? "request" = some request ∧
      ∀ randId, newTaskEncryptionKey randId (some request) = .ok (some request)
  | .status _ taskId => data.get? "type" = some (.str NodeNotifications.getTaskStatus) ∧
      ∃ request, data.get? "request" = some request ∧ request.get? "taskId" = taskId

/-- A publication on the topic of a waiting request is a reply to its question, and one that
carries the topic asks it. -/
structure Fits (labels : List RpcLabel) (net : RpcNet) (publication : Publication) : Prop where
  reply : ∀ own, Asks labels publication.topic own →
    ∃ message, publication.data = some message ∧ net.Reply message own
  carries : ∀ data ∈ publication.data, ∀ topic ∈ data.get? "targetTopic", ∀ own,
    Asks labels topic own → some publication.topic = own.signingKey ∧ Carries data own

/-- Whatever uses the topic of a waiting request belongs to its question. -/
structure RpcInv (labels : List RpcLabel) (net : RpcNet) : Prop where
  asked : ∀ asked ∈ net.asked, ∃ tasks own,
    RpcLabel.ask asked.env tasks asked.request ∈ labels ∧
    dispatch asked.env tasks asked.request = .waits asked.topic ∧
    question asked.env asked.topic asked.request = some own ∧
    ∀ response ∈ asked.responses, ∃ message, net.Reply message own ∧
      response = onPublish (some message)
  published : ∀ publication ∈ net.published, Fits labels net publication
  held : ∀ held ∈ net.held, ∀ topic ∈ held.targetTopic, ∀ own, Asks labels topic own →
    own = .key (some held.worker.signingKey) held.sendMsg

/-- What a gateway routes asks its question. -/
theorem carries_routedMessage {env : ProxyEnv} {topic : Json} {request : ProxyRequest}
    {found : Route} {own : Question} (sequence : env.sequence ≠ "")
    (routed : route env topic request = some found)
    (isOwn : question env topic request = some own) :
    Carries (routedMessage env topic found) own ∧ own.signingKey = found.workerSignKey := by
  cases request with
  | newTaskEncryptionKey workerSignKey userPubKey =>
      cases routed
      cases isOwn
      refine ⟨⟨rfl, rfl, fun randId => ?_⟩, rfl⟩
      exact newTaskEncryptionKey_self sequence rfl rfl
  | getTaskStatus taskId workerAddress withResult =>
      cases routed
      cases isOwn
      exact ⟨⟨rfl, _, rfl, rfl⟩, rfl⟩
  | deploySecretContract request => cases routed
  | computeTask request => cases routed
  | getTaskResult taskId => cases routed

/-- A reply stays one while answers and reports are kept. -/
theorem RpcNet.Reply.mono {net' : RpcNet} {message : Json} {own : Question}
    (reply : net.Reply message own)
    (held : ∀ held ∈ net.held, held.encKeyResult ≠ none → held ∈ net'.held)
    (reports : net.reports ⊆ net'.reports) : net'.Reply message own := by
  cases own with
  | key signingKey request =>
      obtain ⟨pending, member, signed, sent, encKeyResult, answered, isMessage⟩ := reply
      exact ⟨pending, held pending member (Option.ne_none_iff_exists'.mpr ⟨_, answered⟩), signed,
        sent, encKeyResult, answered, isMessage⟩
  | status signingKey taskId =>
      obtain ⟨report, member, read⟩ := reply
      exact ⟨report, reports member, read⟩

/-- So does a publication that fits. -/
theorem Fits.mono {net' : RpcNet} {publication : Publication} (fits : Fits labels net publication)
    (held : ∀ held ∈ net.held, held.encKeyResult ≠ none → held ∈ net'.held)
    (reports : net.reports ⊆ net'.reports) : Fits labels net' publication := by
  refine ⟨fun own asks => ?_, fits.carries⟩
  obtain ⟨message, isMessage, reply⟩ := fits.reply own asks
  exact ⟨message, isMessage, reply.mono held reports⟩

/-- The invariant stays while answers and reports are kept and what is held fits. -/
theorem RpcInv.mono {net' : RpcNet} (inv : RpcInv labels net) (asked : net'.asked = net.asked)
    (published : net'.published = net.published)
    (kept : ∀ held ∈ net.held, held.encKeyResult ≠ none → held ∈ net'.held)
    (reports : net.reports ⊆ net'.reports)
    (held : ∀ held ∈ net'.held, ∀ topic ∈ held.targetTopic, ∀ own, Asks labels topic own →
      own = .key (some held.worker.signingKey) held.sendMsg) : RpcInv labels net' where
  asked := by
    intro entry member
    rw [asked] at member
    obtain ⟨tasks, own, isLabel, waits, isOwn, right⟩ := inv.asked entry member
    refine ⟨tasks, own, isLabel, waits, isOwn, fun response isResponse => ?_⟩
    obtain ⟨message, reply, same⟩ := right response isResponse
    exact ⟨message, reply.mono kept reports, same⟩
  published := by
    intro publication member
    rw [published] at member
    exact (inv.published publication member).mono kept reports
  held := held

/-- A publication that fits can be added. -/
theorem RpcInv.concat {publication : Publication} (inv : RpcInv labels net)
    (fits : Fits labels net publication) :
    RpcInv labels { net with published := net.published ++ [publication] } where
  asked := inv.asked
  published := by
    intro other member
    rcases List.mem_append.mp member with old | new
    · exact ⟨(inv.published other old).reply, (inv.published other old).carries⟩
    · obtain rfl := List.mem_singleton.mp new
      exact ⟨fits.reply, fits.carries⟩
  held := inv.held

/-- A worker may publish a reply, which carries no topic. -/
theorem RpcInv.publish {worker : WorkerEnv} {targetTopic : Option Json} {message : Json}
    (inv : RpcInv labels net) (noTopic : message.get? "targetTopic" = none)
    (reply : ∀ topic ∈ targetTopic, ∀ own, Asks labels topic own → net.Reply message own) :
    RpcInv labels (net.publish worker targetTopic message) := by
  cases targetTopic with
  | none => exact inv
  | some topic =>
      rw [RpcNet.publish]
      split
      · refine inv.concat ⟨fun own asks => ⟨message, rfl, reply topic rfl own asks⟩, ?_⟩
        intro data isData target isTarget
        cases isData
        rw [noTopic] at isTarget
        cases isTarget
      · exact inv

/-- A worker that handles what was published on its topic keeps the invariant. -/
theorem RpcInv.handle {worker : WorkerEnv} {data : Json} (inv : RpcInv labels net)
    (carries : ∀ topic ∈ data.get? "targetTopic", ∀ own, Asks labels topic own →
      some worker.signingKey = own.signingKey ∧ Carries data own) :
    RpcInv labels (net.handle worker data) := by
  rw [RpcNet.handle]
  split
  · exact inv
  · split
    · rename_i isKey
      refine inv.mono rfl rfl (fun held member _ => List.mem_append_left _ member)
        (List.Subset.refl _) fun held member topic isTopic own asks => ?_
      rcases List.mem_append.mp member with old | new
      · exact inv.held held old topic isTopic own asks
      · obtain ⟨sent, isSent, rfl⟩ := List.mem_map.mp new
        obtain ⟨signed, asked⟩ := carries topic isTopic own asks
        cases own with
        | key signingKey request =>
            obtain ⟨-, isRequest, placed⟩ := asked
            rw [isRequest, placed worker.randId] at isSent
            obtain rfl := List.mem_singleton.mp isSent
            exact congrArg (Question.key · _) signed.symm
        | status signingKey taskId =>
            have types := isKey.symm.trans asked.1
            exact absurd types (by decide)
    · split
      · rename_i isStatus
        rw [RpcNet.getTaskStatus.eq_def]
        split
        · exact inv
        · exact inv
        · rename_i request isRequest
          split
          · rename_i status isRead
            split
            · refine RpcInv.publish (inv.mono rfl rfl (fun held member _ => member)
                (List.subset_append_left _ _) inv.held) rfl fun topic isTopic own asks => ?_
              obtain ⟨signed, asked⟩ := carries topic isTopic own asks
              cases own with
              | key signingKey request =>
                  have types := isStatus.symm.trans asked.1
                  exact absurd types (by decide)
              | status signingKey taskId =>
                  obtain ⟨-, found, isFound, rfl⟩ := asked
                  cases isFound.symm.trans isRequest
                  exact ⟨_, List.mem_append_right _ (List.mem_singleton_self _), signed, rfl,
                    status, isRead, rfl⟩
            · exact inv
          · exact inv
      · exact inv

/-- So does the answer of a core. -/
theorem RpcInv.answered {k : Nat} {worker : WorkerEnv} {sendMsg : Json} {targetTopic : Option Json}
    {encKeyResult : Json} (inv : RpcInv labels net)
    (found : net.held[k]? = some ⟨worker, sendMsg, targetTopic, none⟩) :
    RpcInv labels (net.answered k ⟨worker, sendMsg, targetTopic, none⟩ encKeyResult) := by
  obtain ⟨inside, isHeld⟩ := List.getElem?_eq_some_iff.mp found
  have member : (⟨worker, sendMsg, targetTopic, none⟩ : Held) ∈ net.held :=
    List.mem_of_getElem? found
  have settled : RpcInv labels { net with
      held := net.held.set k ⟨worker, sendMsg, targetTopic, some encKeyResult⟩ } := by
    refine inv.mono rfl rfl (fun held isOld answered => ?_) (List.Subset.refl _)
      fun held isNew topic isTopic own asks => ?_
    · obtain ⟨i, isAt⟩ := List.mem_iff_getElem?.mp isOld
      refine List.mem_iff_getElem?.mpr ⟨i, ?_⟩
      rw [List.getElem?_set_ne, isAt]
      rintro rfl
      rw [found] at isAt
      cases isAt
      exact answered rfl
    · rcases List.mem_or_eq_of_mem_set isNew with old | rfl
      · exact inv.held held old topic isTopic own asks
      · exact inv.held _ member topic isTopic own asks
  rw [RpcNet.answered]
  split
  · rename_i message isMessage
    refine settled.publish ?_ fun topic isTopic own asks => ?_
    · unfold keyMessage at isMessage
      split at isMessage
      · cases isMessage
      · split at isMessage
        · cases isMessage
        · cases isMessage
        · cases isMessage
          rfl
    · cases inv.held _ member topic isTopic own asks
      exact ⟨_, List.mem_set inside _, rfl, rfl, encKeyResult, rfl, isMessage⟩
  · exact settled

/-- Every label of an orderly run keeps the invariant. -/
theorem RpcInv.step (orderly : Orderly width addressWidth labels) (inv : RpcInv labels net)
    {label : RpcLabel} (isLabel : label ∈ labels) : RpcInv labels (rpcStep net label) := by
  cases label with
  | ask env tasks request =>
      rw [rpcStep, RpcNet.ask]
      split
      · rename_i topic waits
        refine ⟨fun asked member => ?_, fun other member => (inv.published other member).mono
          (fun _ kept _ => kept) (List.Subset.refl _), inv.held⟩
        rcases List.mem_append.mp member with old | new
        · exact inv.asked asked old
        · obtain rfl := List.mem_singleton.mp new
          obtain ⟨own, isOwn⟩ : ∃ own, question env topic request = some own := by
            rcases (dispatch_waits waits).2 with ⟨_, _, _, rfl, -⟩ | ⟨_, _, _, rfl, -⟩ <;>
              exact ⟨_, rfl⟩
          exact ⟨tasks, own, isLabel, waits, isOwn,
            fun _ isResponse => absurd isResponse List.not_mem_nil⟩
      · exact inv
  | subscribed i =>
      rw [rpcStep]
      split
      · rename_i asked found
        obtain ⟨tasks, own, isAsk, waits, isOwn, -⟩ :=
          inv.asked asked (List.mem_of_getElem? found)
        have asks : Asks labels asked.topic own := ⟨_, _, _, isAsk, waits, isOwn⟩
        rw [RpcNet.subscribed]
        split
        · rename_i route routed
          obtain ⟨carried, signed⟩ :=
            carries_routedMessage (dispatch_waits waits).1 routed isOwn
          split
          · rename_i key isKey
            split
            · refine inv.concat ⟨fun other asksOther => ?_, ?_⟩
              · exact absurd (signed.trans isKey) (orderly.signingKey asks asksOther)
              · intro data isData topic isTopic other asksOther
                cases isData
                cases isTopic
                obtain rfl := orderly.unique asks asksOther
                exact ⟨(signed.trans isKey).symm, carried⟩
            · exact inv
          · exact inv
        · exact inv
      · exact inv
  | handled worker j =>
      rw [rpcStep]
      split
      · rename_i topic data found
        split
        · rename_i same
          subst same
          exact inv.handle ((inv.published _ (List.mem_of_getElem? found)).carries data rfl)
        · exact inv
      · exact inv
  | answered k encKeyResult =>
      rw [rpcStep]
      split
      · rename_i found
        exact inv.answered found
      · exact inv
  | delivered i j =>
      rw [rpcStep]
      split
      · rename_i asked publication isAsked isPublished
        split
        · rename_i same
          refine ⟨fun entry member => ?_, fun other member => (inv.published other member).mono
            (fun _ kept _ => kept) (List.Subset.refl _), inv.held⟩
          rcases List.mem_or_eq_of_mem_set member with old | rfl
          · exact inv.asked entry old
          · obtain ⟨tasks, own, isAsk, waits, isOwn, right⟩ :=
              inv.asked asked (List.mem_of_getElem? isAsked)
            refine ⟨tasks, own, isAsk, waits, isOwn, fun response isResponse => ?_⟩
            rcases List.mem_append.mp isResponse with old | new
            · exact right response old
            · obtain rfl := List.mem_singleton.mp new
              have asks : Asks labels publication.topic own := by
                rw [same]
                exact ⟨_, _, _, isAsk, waits, isOwn⟩
              obtain ⟨message, isMessage, reply⟩ :=
                (inv.published publication (List.mem_of_getElem? isPublished)).reply own asks
              exact ⟨message, reply, congrArg onPublish isMessage⟩
        · exact inv
      · exact inv
  | other publication =>
      refine inv.concat ⟨fun own asks => ?_, fun data isData topic isTopic own asks => ?_⟩
      · exact absurd rfl (orderly.other isLabel asks).1
      · exact absurd isTopic ((orderly.other isLabel asks).2 data isData)

/-- In every orderly run, however it interleaves the requests, the messages and the answers of
the cores, a response carries what the worker that the client named gave for this request. -/
theorem roundTrip_run (orderly : Orderly width addressWidth labels) :
    RoundTrip (run rpcStep .initial labels) := by
  have inv : RpcInv labels (run rpcStep .initial labels) :=
    invariant_of_mem ⟨nofun, nofun, nofun⟩ fun net label isLabel inv => inv.step orderly isLabel
  intro asked member response isResponse
  obtain ⟨-, own, -, -, isOwn, right⟩ := inv.asked asked member
  obtain ⟨message, reply, same⟩ := right response isResponse
  exact ⟨own, message, isOwn, reply, same⟩

/-! ## Two clients at once -/

def gateway (selfId sequence : String) : ProxyEnv :=
  { openProxy with selfId, sequence }

def keyFor (userPubKey : String) : ProxyRequest :=
  .newTaskEncryptionKey (some (.str "w")) (some (.str userPubKey))

def askKey (selfId sequence userPubKey : String) : RpcLabel :=
  .ask (gateway selfId sequence) (.initial [])
    (.newTaskEncryptionKey (some (.str "w")) (some (.str userPubKey)))

def busyWorker : WorkerEnv where
  signingKey := .str "w"
  randId := "0"
  parse := noTexts
  tasks := .initial []
  fails := false
  encodes := fun _ => true
  publishes := fun topic => isText (some topic)

def keyResponse (key : String) : Json :=
  .obj [("type", .str CoreRequests.newTaskEncryptionKey),
    ("result", .obj [("workerEncryptionKey", .str key), ("workerSig", .str "s")])]

/-- Two gateways ask the same worker, whose core answers in the other order. -/
def crossed : List RpcLabel :=
  [askKey "Qa" "1" "u", askKey "Qb" "2" "v", .subscribed 1, .subscribed 0,
    .handled busyWorker 0, .handled busyWorker 1, .answered 1 (keyResponse "k1"),
    .answered 0 (keyResponse "k0"), .delivered 0 2, .delivered 0 3, .delivered 1 3]

/-- The requests of the run. -/
theorem ask_mem_crossed {env : ProxyEnv} {tasks : ManagerState} {request : ProxyRequest}
    (member : .ask env tasks request ∈ crossed) : tasks = .initial [] ∧
      (env = gateway "Qa" "1" ∧ request = keyFor "u" ∨
        env = gateway "Qb" "2" ∧ request = keyFor "v") := by
  simp only [crossed, askKey, List.mem_cons, RpcLabel.ask.injEq, reduceCtorEq, List.not_mem_nil,
    or_false] at member
  rcases member with ⟨rfl, rfl, rfl⟩ | ⟨rfl, rfl, rfl⟩
  · exact ⟨rfl, .inl ⟨rfl, rfl⟩⟩
  · exact ⟨rfl, .inr ⟨rfl, rfl⟩⟩

theorem asks_crossed {topic : Json} {own : Question} (asks : Asks crossed topic own) :
    (topic = .str "Qaw1" ∨ topic = .str "Qbw2") ∧ own.signingKey = some (.str "w") := by
  obtain ⟨env, tasks, request, member, waits, isOwn⟩ := asks
  obtain ⟨rfl, ⟨rfl, rfl⟩ | ⟨rfl, rfl⟩⟩ := ask_mem_crossed member
  · cases isOwn
    have topics : dispatch (gateway "Qa" "1") (.initial []) (keyFor "u") =
        .waits (.str "Qaw1") := by
      decide
    exact ⟨.inl (Handling.waits.inj (waits.symm.trans topics)), rfl⟩
  · cases isOwn
    have topics : dispatch (gateway "Qb" "2") (.initial []) (keyFor "v") =
        .waits (.str "Qbw2") := by
      decide
    exact ⟨.inr (Handling.waits.inj (waits.symm.trans topics)), rfl⟩

theorem orderly_crossed : Orderly 1 0 crossed where
  sequence_length := by
    intro env tasks workerSignKey userPubKey member
    obtain ⟨-, ⟨rfl, -⟩ | ⟨rfl, -⟩⟩ := ask_mem_crossed member <;> rfl
  sequence_own := by
    intro env tasks signKey userPubKey env' tasks' signKey' userPubKey' member member' same
    obtain ⟨-, ⟨rfl, isKey⟩ | ⟨rfl, isKey⟩⟩ := ask_mem_crossed member <;>
      obtain ⟨-, ⟨rfl, isKey'⟩ | ⟨rfl, isKey'⟩⟩ := ask_mem_crossed member'
    · exact ProxyRequest.newTaskEncryptionKey.inj (isKey.trans isKey'.symm)
    · exact absurd same (by decide)
    · exact absurd same (by decide)
    · exact ProxyRequest.newTaskEncryptionKey.inj (isKey.trans isKey'.symm)
  address := by
    intro env tasks taskId workerAddress withResult member
    obtain ⟨-, ⟨-, isKey⟩ | ⟨-, isKey⟩⟩ := ask_mem_crossed member <;> cases isKey
  apart := by
    intro env tasks workerSignKey userPubKey env' tasks' id address withResult member member'
    obtain ⟨-, ⟨-, isKey⟩ | ⟨-, isKey⟩⟩ := ask_mem_crossed member' <;> cases isKey
  signingKey := by
    intro topic own topic' own' asks asks' same
    rw [(asks_crossed asks).2] at same
    rcases (asks_crossed asks').1 with rfl | rfl <;> exact absurd same (by decide)
  other := by
    intro publication topic own member
    simp [crossed, askKey] at member

/-- Each gets the key for its own request, whatever else is delivered. -/
theorem roundTrip_run_crossed : RoundTrip (run rpcStep .initial crossed) ∧
    (run rpcStep .initial crossed).asked.map (·.responses) =
      [[onPublish (keyMessage (keyResponse "k1"))], [onPublish (keyMessage (keyResponse "k0"))]] :=
  ⟨roundTrip_run orderly_crossed, by decide⟩

end Proxy
