import EnigmaP2P.Core.Dispatch
import EnigmaP2P.Proxy.Dispatcher
import EnigmaP2P.Transition.Runs

/-!
# Requests and responses between the runtimes

Every runtime has a channel to the main controller, with a `Communicator` at each end, and
the core runtime has an `IpcClient`. `sendAndReceive` registers the promise as a listener
of the other end, for the event that the id of the envelop names, and emits the general
message event `m`. The main controller forwards an envelop to the core or to the node in
the same way, and sends the response back when its own promise resolves. The client keeps
one callback for each message id. The node answers what its dispatcher answers.

Nothing ever removes a listener, and a promise resolves once: a listener whose promise has
resolved does nothing. Everything that a request does before the first `await` happens in
its turn of the event loop. The listeners for `m` are registered before any request.

What a request is known by (`root`) and whether a message is a response are observations.
-/

namespace Core

open Js Common Transition

inductive Runtime where
  | core
  | node
  | jsonRpc
  deriving DecidableEq

/-- The two ends of the channel of a runtime: that of the main controller and its own. -/
inductive Port where
  | main (runtime : Runtime)
  | own (runtime : Runtime)
  deriving DecidableEq

/-- An envelop with the request that it belongs to. -/
structure Message where
  envelop : Envelop
  root : Nat
  isResponse : Bool

/-- What a promise is settled with. A listener for `newListener` gets the name of the event,
and an exception of a handler rejects the promise. -/
inductive Outcome where
  | envelop (message : Message)
  | event (name : String)
  | thrown

/-- A promise of `sendAndReceive` with its listener: where it is registered and for which
event, and the runtime that the main controller sends the response back to. -/
structure Waiter where
  root : Nat
  port : Port
  event : String
  replyTo : Option Runtime
  outcome : Option Outcome
  forwarded : Bool

/-- A call of the callback of `sendJsonAndReceive`: with an error, or with the response to
the message of some call. -/
inductive Completion where
  | error
  | response (call : Nat)
  deriving DecidableEq

inductive CallPhase where
  | validating
  | sent
  | ended
  deriving DecidableEq

/-- A call of `sendJsonAndReceive`; `origin` is the envelop of `SendToCoreAction`. -/
structure IpcCall where
  root : Nat
  origin : Option Message
  message : Json
  phase : CallPhase
  completions : List Completion

/-- What `_msgMapping` inherits from: the prototype of every object, a callback that was
assigned to `__proto__`, or nothing. -/
inductive MappingPrototype where
  | object
  | callback (call : Nat)
  | missing
  deriving DecidableEq

/-- `_msgMapping`, a plain object of callbacks; `none` is `null`. -/
structure MsgMapping where
  own : List (String × Option Nat)
  prototype : MappingPrototype

/-- The properties of every function that cannot be assigned. -/
def functionNames : List String :=
  ["length", "name", "arguments", "caller"]

namespace MsgMapping

def empty : MsgMapping :=
  ⟨[], .object⟩

/-- `_msgMapping[key] = value` in strict code. -/
def assign (key : String) (value : Option Nat) (mapping : MsgMapping) : Except Exn MsgMapping :=
  if (mapping.own.lookup key).isSome || mapping.prototype = .missing then
    .ok { mapping with own := setField key value mapping.own }
  else if key = "__proto__" then
    .ok { mapping with prototype := value.elim .missing .callback }
  else if mapping.prototype ≠ .object ∧ key ∈ functionNames then .error .typeError
  else .ok { mapping with own := setField key value mapping.own }

/-- The callback `_msgMapping[key]`. Whatever else is inherited completes no call. -/
def find (key : String) (mapping : MsgMapping) : Option Nat :=
  match mapping.own.lookup key with
  | some value => value
  | none =>
      match mapping.prototype with
      | .callback call => if key = "__proto__" then some call else none
      | _ => none

/-- No function is inherited from that has the key as a property of its own. -/
def Assignable (mapping : MsgMapping) (key : String) : Prop :=
  key ∈ functionNames → (mapping.own.lookup key).isSome = true ∨ mapping.prototype = .object ∨
    mapping.prototype = .missing

theorem find_setField {key : String} {value : Option Nat} {mapping : MsgMapping}
    (other : String) :
    ({ mapping with own := setField key value mapping.own } : MsgMapping).find other =
      if other = key then value else mapping.find other := by
  by_cases same : other = key
  · subst same
    simp only [find, lookup_setField_self, if_true]
  · simp only [find, lookup_setField_ne same, same, if_false]

/-- An assignment changes what is found under its key only. -/
theorem find_assign {key : String} {value : Option Nat} {mapping after : MsgMapping}
    (assigned : mapping.assign key value = .ok after) (other : String) :
    after.find other = if other = key then value else mapping.find other := by
  unfold assign at assigned
  split at assigned
  · cases assigned
    exact find_setField other
  · rename_i notOwn
    split at assigned
    · -- the setter replaces the prototype
      rename_i isProto
      subst isProto
      cases assigned
      rw [Bool.not_eq_true, Bool.or_eq_false_iff, Option.isSome_eq_false_iff,
        Option.isNone_iff_eq_none] at notOwn
      by_cases same : other = "__proto__"
      · subst same
        cases value <;> simp [find, notOwn.1]
      · have prototypes : ∀ prototype, ({ mapping with prototype } : MsgMapping).find other =
            (mapping.own.lookup other).join := by
          intro prototype
          cases found : mapping.own.lookup other <;> cases prototype <;> simp [find, found, same]
        rw [if_neg same, prototypes]
        exact (prototypes mapping.prototype).symm
    · split at assigned
      · cases assigned
      · cases assigned
        exact find_setField other

theorem assign_of_assignable {key : String} {mapping : MsgMapping}
    (assignable : mapping.Assignable key) (value : Option Nat) :
    ∃ after, mapping.assign key value = .ok after := by
  unfold assign
  split
  · exact ⟨_, rfl⟩
  · rename_i notOwn
    split
    · exact ⟨_, rfl⟩
    · split
      · rename_i refused
        rw [Bool.or_eq_true, decide_eq_true_eq, not_or] at notOwn
        rcases assignable refused.2 with own | isObject | isMissing
        · exact absurd own notOwn.1
        · exact absurd isObject refused.1
        · exact absurd isMissing notOwn.2
      · exact ⟨_, rfl⟩

end MsgMapping

/-- Where the node's handling of a request is: with the dispatcher, waiting for what is
published on a topic, past the first message published there, or over. -/
inductive ProxyPhase where
  | dispatching
  | waiting
  | published
  | ended
  deriving DecidableEq

/-- A request that the main controller passed to the node. -/
structure Proxied where
  message : Message
  phase : ProxyPhase

structure Net where
  waiters : List Waiter
  calls : List IpcCall
  msgMapping : MsgMapping
  proxied : List Proxied
  roots : Nat

/-- The general message event `_M`. -/
def generalEvent : String := "m"

/-- The event that the id of an envelop names as a listener's; `false` becomes a text. -/
def Envelop.event (envelop : Envelop) : String :=
  envelop.id.getD "false"

/-- The event that `send` emits. -/
def Envelop.sendEvent (envelop : Envelop) : String :=
  envelop.id.getD generalEvent

/-- A listener of the event settles its promise. -/
def Waiter.settle (port : Port) (event : String) (outcome : Outcome) (waiter : Waiter) : Waiter :=
  if waiter.port = port ∧ waiter.event = event ∧ waiter.outcome.isNone then
    { waiter with outcome := some outcome }
  else waiter

namespace Net

def initial : Net :=
  ⟨[], [], .empty, [], 0⟩

/-- The listeners among the first ones are called. -/
def deliver (count : Nat) (port : Port) (event : String) (outcome : Outcome) (net : Net) : Net :=
  { net with waiters := (net.waiters.take count).map (·.settle port event outcome) ++
      net.waiters.drop count }

/-- `on(event, …)` of a promise; it first emits `newListener`. -/
def listen (port : Port) (event : String) (root : Nat) (replyTo : Option Runtime) (net : Net) :
    Net :=
  let net := net.deliver net.waiters.length port "newListener" (.event event)
  { net with waiters := net.waiters ++ [⟨root, port, event, replyTo, none, false⟩] }

/-- `sendJsonAndReceive` up to the validation. Without an id the callback gets an error, and
the call goes on. A message of `SendToCoreAction` always has an id. Where the callback cannot be
stored, the call ends. -/
def sendJsonAndReceive (message : Json) (origin : Option Message) (root : Nat) (net : Net) : Net :=
  let completions := if truthy? (message.get? "id") then [] else [.error]
  match keyOf (message.get? "id") >>= (net.msgMapping.assign · (some net.calls.length)) with
  | .error _ => { net with
      calls := net.calls ++ [⟨root, origin, message, .ended, completions⟩] }
  | .ok msgMapping => { net with
      calls := net.calls ++ [⟨root, origin, message, .validating, completions⟩]
      msgMapping }

/-- The handler of a runtime for general messages, and whether it throws. The node's action
for a request of its own type calls a callback that an envelop does not have. -/
def handle (runtime : Runtime) (message : Message) (net : Net) : Net × Bool :=
  match runtime with
  | .core =>
      match onMessage message.envelop with
      | .error _ => (net, true)
      | .ok none => (net, false)
      | .ok (some sendMsg) => (net.sendJsonAndReceive sendMsg (some message) message.root, false)
  | .node =>
      if message.envelop.msgType = MainControllerNotifications.proxy then
        ({ net with proxied := net.proxied ++ [⟨message, .dispatching⟩] }, false)
      else (net, message.envelop.msgType = MainControllerNotifications.dbRequest)
  | .jsonRpc => (net, false)

/-- The main controller emits on its end of a channel. -/
def emitMain (runtime : Runtime) (event : String) (message : Message) (net : Net) : Net × Bool :=
  let (net, thrown) := if event = generalEvent then net.handle runtime message else (net, false)
  if thrown then (net, true)
  else (net.deliver net.waiters.length (.main runtime) event (.envelop message), false)

/-- `sendAndReceive` of the main controller; an exception rejects its promise. -/
def request (responder requester : Runtime) (message : Message) (net : Net) : Net :=
  let i := net.waiters.length
  let net := net.listen (.own responder) message.envelop.event message.root (some requester)
  let (net, thrown) := net.emitMain responder generalEvent message
  if thrown then { net with
    waiters := net.waiters.modify i fun waiter =>
      { waiter with outcome := waiter.outcome.or (some .thrown) } }
  else net

/-- The main controller's actions: `DbAction` and `ProxyAction`. -/
def dispatch (requester : Runtime) (message : Message) (net : Net) : Net :=
  if message.envelop.id = none then net
  else if message.envelop.msgType = MainControllerNotifications.dbRequest then
    net.request .core requester message
  else if message.envelop.msgType = MainControllerNotifications.proxy then
    net.request .node requester message
  else net

/-- A runtime emits on its end of the channel. Listeners that are registered meanwhile are
not called. -/
def emitOwn (runtime : Runtime) (event : String) (message : Message) (net : Net) : Net :=
  let count := net.waiters.length
  let net := if event = generalEvent then net.dispatch runtime message else net
  net.deliver count (.own runtime) event (.envelop message)

/-- `sendAndReceive` of a runtime. -/
def sendAndReceive (runtime : Runtime) (envelop : Envelop) (net : Net) : Net :=
  let message : Message := ⟨envelop, net.roots, false⟩
  let net := { net with roots := net.roots + 1 }
  (net.listen (.main runtime) envelop.event message.root none).emitOwn runtime generalEvent message

/-- A runtime sends a response to a request that it got. -/
def respond (runtime : Runtime) (request : Message) (root : Nat) (content : Json)
    (randId : String) (net : Net) : Net :=
  match newEnvelop randId (request.envelop.id.map .str) (some content) request.envelop.msgType with
  | .error _ => net
  | .ok envelop => net.emitOwn runtime envelop.sendEvent ⟨envelop, root, true⟩

/-- The callback of a call runs; that of `SendToCoreAction` sends a response. -/
def callback (i : Nat) (completion : Completion) (root : Nat) (content : Json) (randId : String)
    (net : Net) : Net :=
  match net.calls[i]? with
  | none => net
  | some call =>
      let net := { net with calls := net.calls.modify i fun call =>
        { call with completions := call.completions ++ [completion] } }
      match call.origin with
      | none => net
      | some request => net.respond .core request root content randId

def setPhase (i : Nat) (phase : CallPhase) (net : Net) : Net :=
  { net with calls := net.calls.modify i fun call => { call with phase } }

/-- The validation of a message against its scheme, which is `none` or a reason, is done. -/
def validated (validate : Json → Option Json) (i : Nat) (randId : String) (net : Net) : Net :=
  match net.calls[i]? with
  | some ⟨root, _, message, .validating, _⟩ =>
      match validate message with
      | none => net.setPhase i .sent
      | some reason => (net.setPhase i .ended).callback i .error root
          (.obj [("error", reason)]) randId
  | _ => net

/-- Core answers a message that was sent. -/
def answer (i : Nat) (response : List (String × Json)) (randId : String) (net : Net) : Net :=
  match net.calls[i]? with
  | some ⟨root, _, _, .sent, _⟩ =>
      let net := net.setPhase i .ended
      match keyOf (response.lookup "id") with
      | .error _ => net
      | .ok key =>
          match net.msgMapping.find key with
          | some c =>
              let net := net.callback c (.response i) root (.obj response) randId
              { net with
                msgMapping := (net.msgMapping.assign key none).toOption.getD net.msgMapping }
          | none => net
  | _ => net

def setProxyPhase (i : Nat) (phase : ProxyPhase) (net : Net) : Net :=
  { net with proxied := net.proxied.modify i fun proxied => { proxied with phase } }

/-- The main controller sends back what its promise resolved with. -/
def forward (i : Nat) (net : Net) : Net :=
  match net.waiters[i]? with
  | some ⟨_, _, _, some runtime, some outcome, false⟩ =>
      let net := { net with waiters := net.waiters.modify i ({ · with forwarded := true }) }
      match outcome with
      | .envelop message => (net.emitMain runtime message.envelop.sendEvent message).1
      | _ => net
  | _ => net

/-- The node's dispatcher is done with a request that it was passed: it sent its responses, or
subscribed to a topic. -/
def dispatched (env : Proxy.ProxyEnv) (tasks : Tasks.ManagerState) (i : Nat) (randId : String)
    (net : Net) : Net :=
  match net.proxied[i]? with
  | some ⟨message, .dispatching⟩ =>
      match Proxy.dispatchContent env tasks message.envelop.content with
      | .waits _ => net.setProxyPhase i .waiting
      | .ended responses =>
          responses.foldl
            (fun net response => net.respond .node message message.root response randId)
            (net.setProxyPhase i .ended)
  | _ => net

/-- Something is published on the topic that a request waits for. -/
def published (i : Nat) (data : Option Json) (randId : String) (net : Net) : Net :=
  match net.proxied[i]? with
  | some ⟨message, .waiting⟩ | some ⟨message, .published⟩ =>
      (net.setProxyPhase i .published).respond .node message message.root (Proxy.onPublish data)
        randId
  | _ => net

end Net

/-- A runtime requests something of the core, the JSON-RPC server passes on a request of a client,
the IPC client is called directly, a message is validated, core answers, the main controller
sends back, the node's dispatcher is done with a request, and a remote worker publishes. -/
inductive NetLabel where
  | request (runtime : Runtime) (sequenceOrId obj : Option Json) (randId : String)
  | routeNext (request : Proxy.ProxyRequest) (randId : String)
  | ipc (message : List (String × Json))
  | validated (i : Nat) (randId : String)
  | answer (i : Nat) (response : List (String × Json)) (randId : String)
  | forward (i : Nat)
  | dispatched (env : Proxy.ProxyEnv) (tasks : Tasks.ManagerState) (i : Nat) (randId : String)
  | published (i : Nat) (data : Option Json) (randId : String)

/-- An envelop is sent, unless its constructor throws. -/
def Net.sendNew (runtime : Runtime) (sequenceOrId obj : Option Json) (msgType randId : String)
    (net : Net) : Net :=
  match newEnvelop randId sequenceOrId obj msgType with
  | .error _ => net
  | .ok envelop => net.sendAndReceive runtime envelop

/-- One label. -/
def netStep (validate : Json → Option Json) (net : Net) : NetLabel → Net
  | .request runtime sequenceOrId obj randId =>
      net.sendNew runtime sequenceOrId obj MainControllerNotifications.dbRequest randId
  | .routeNext request randId =>
      net.sendNew .jsonRpc (some (.bool true)) (some request.content)
        MainControllerNotifications.proxy randId
  | .ipc message =>
      { net with roots := net.roots + 1 }.sendJsonAndReceive (.obj message) none net.roots
  | .validated i randId => net.validated validate i randId
  | .answer i response randId => net.answer i response randId
  | .forward i => net.forward i
  | .dispatched env tasks i randId => net.dispatched env tasks i randId
  | .published i data randId => net.published i data randId

/-! ## What should hold, and when -/

/-- The promise is resolved with the response to its request. -/
def Waiter.Answered (waiter : Waiter) (outcome : Outcome) : Prop :=
  ∃ message, outcome = .envelop message ∧ message.root = waiter.root ∧ message.isResponse = true

/-- The node has yet to handle the request, or waits for a remote worker. -/
def ProxyPhase.Going (phase : ProxyPhase) : Prop :=
  phase = .dispatching ∨ phase = .waiting

instance (phase : ProxyPhase) : Decidable phase.Going :=
  inferInstanceAs (Decidable (_ ∨ _))

/-- A response to a request is still on its way. -/
def Busy (net : Net) : Prop :=
  (∃ call ∈ net.calls, call.phase ≠ .ended) ∨
  (∃ proxied ∈ net.proxied, proxied.phase.Going) ∨
  ∃ waiter ∈ net.waiters, waiter.replyTo ≠ none ∧ waiter.forwarded = false ∧
    ∃ message, waiter.outcome = some (.envelop message)

/-- Whatever is complete has its own response, a callback was called at most once, and when
nothing is on its way everything is complete. -/
structure NetRight (net : Net) : Prop where
  promises : ∀ waiter ∈ net.waiters, ∀ outcome ∈ waiter.outcome, waiter.Answered outcome
  callbacks : ∀ (i : Nat) (call : IpcCall), net.calls[i]? = some call →
    call.completions = [] ∨ call.completions = [.error] ∨ call.completions = [.response i]
  complete : ¬ Busy net → (∀ waiter ∈ net.waiters, waiter.outcome ≠ none) ∧
    ∀ call ∈ net.calls, call.completions ≠ []

/-- Core's response has the id of the message that it answers. -/
def Echoes (net : Net) : NetLabel → Prop
  | .answer i response _ => ∀ call, net.calls[i]? = some call →
      keyOf (response.lookup "id") = keyOf (call.message.get? "id")
  | _ => True

/-- The message has an id that no message on its way has, and under which a callback can be
stored. -/
def Sendable (net : Net) (message : Json) : Prop :=
  truthy? (message.get? "id") = true ∧ ∃ key, keyOf (message.get? "id") = .ok key ∧
    net.msgMapping.Assignable key ∧
    ∀ call ∈ net.calls, call.phase ≠ .ended → keyOf (call.message.get? "id") ≠ .ok key

/-- The envelop has an id that is no other event of an emitter and under which nobody waits. -/
def Addressed (net : Net) (envelop : Envelop) : Prop :=
  ∃ id, envelop.id = some id ∧ id ≠ "" ∧ id ≠ generalEvent ∧ id ≠ "newListener" ∧
    ∀ waiter ∈ net.waiters, waiter.outcome = none → waiter.event ≠ id

/-- The envelop has its own id and is for the core, with a message for the client that may be
sent. -/
def Requestable (net : Net) (envelop : Envelop) : Prop :=
  Addressed net envelop ∧ ∃ message, onMessage envelop = .ok (some message) ∧ Sendable net message

/-- What is sent is requestable, the node's dispatcher can handle what it is passed, and a remote
worker answers once. -/
def CleanNetLabel (net : Net) : NetLabel → Prop
  | .request _ sequenceOrId obj randId => ∀ envelop,
      newEnvelop randId sequenceOrId obj MainControllerNotifications.dbRequest = .ok envelop →
        Requestable net envelop
  | .routeNext request randId => ∀ envelop,
      newEnvelop randId (some (.bool true)) (some request.content)
        MainControllerNotifications.proxy = .ok envelop → Addressed net envelop
  | .ipc message => Sendable net (.obj message)
  | .dispatched env tasks i _ => ∀ message, net.proxied[i]? = some ⟨message, .dispatching⟩ →
      Proxy.ContentClear env tasks message.envelop.content
  | .published i _ _ => ∀ proxied, net.proxied[i]? = some proxied → proxied.phase ≠ .published
  | _ => True

end Core
