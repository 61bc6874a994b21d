import EnigmaP2P.Core.Communicator
import EnigmaP2P.Correlation.Matching

/-!
# Every request is completed

The promises that are not settled are waiters in the sense of a matching, under the id of
the envelop at an end of a channel. In flight for them are the calls of the client that came
from an envelop, the requests that the node was passed, and what the main controller has yet
to send back. While what is sent is requestable, waiters and flights belong together.
-/

namespace Core

open Js Common Transition Correlation

/-- What is in flight. -/
inductive Item where
  | call (i : Nat)
  | reply (i : Nat)
  | forward (i : Nat)

/-- The waiter of a promise that is not settled. -/
def Waits (net : Net) (k : Nat) (waiting : Waiting Nat Port String) : Prop :=
  ∃ waiter, net.waiters[k]? = some waiter ∧ waiter.outcome = none ∧
    waiting = ⟨waiter.root, waiter.port, waiter.event, waiter.replyTo.map .main⟩

/-- The answer of something in flight, which goes to an end of a channel. -/
inductive InFlight (net : Net) : Item → Flight Nat Port String → Prop
  | call {i : Nat} {call : IpcCall} {request : Message} {id : String}
      (found : net.calls[i]? = some call) (going : call.phase ≠ .ended)
      (origin : call.origin = some request) (isId : request.envelop.id = some id) :
      InFlight net (.call i) ⟨call.root, .own .core, id⟩
  | reply {i : Nat} {proxied : Proxied} {id : String} (found : net.proxied[i]? = some proxied)
      (going : proxied.phase.Going) (isId : proxied.message.envelop.id = some id) :
      InFlight net (.reply i) ⟨proxied.message.root, .own .node, id⟩
  | forward {i : Nat} {waiter : Waiter} {runtime : Runtime} {message : Message} {id : String}
      (found : net.waiters[i]? = some waiter) (replyTo : waiter.replyTo = some runtime)
      (outcome : waiter.outcome = some (.envelop message)) (going : waiter.forwarded = false)
      (isId : message.envelop.id = some id) :
      InFlight net (.forward i) ⟨waiter.root, .main runtime, id⟩

/-- An id that is no other event. -/
def Proper (id : String) : Prop :=
  id ≠ "" ∧ id ≠ generalEvent ∧ id ≠ "newListener"

/-- The message has an envelop with a proper id. -/
def Message.Proper (message : Message) : Prop :=
  ∃ id, message.envelop.id = some id ∧ Core.Proper id

/-- What the tables hold, each for itself: promises are settled with their own responses,
and a call is complete or has its entry in the mapping. -/
structure NetTables (net : Net) : Prop where
  waiters : ∀ waiter ∈ net.waiters, Proper waiter.event ∧ waiter.root < net.roots ∧
    (waiter.outcome = none → waiter.forwarded = false) ∧
    ∀ outcome ∈ waiter.outcome, ∃ message, outcome = .envelop message ∧
      message.root = waiter.root ∧ message.isResponse = true ∧ message.Proper
  calls : ∀ call ∈ net.calls, call.root < net.roots ∧ ∀ request ∈ call.origin, request.Proper
  proxied : ∀ proxied ∈ net.proxied, proxied.message.root < net.roots ∧ proxied.message.Proper
  mapping : ∀ (i : Nat) (call : IpcCall), net.calls[i]? = some call → call.phase ≠ .ended →
    call.completions = [] ∧ ∃ key, keyOf (call.message.get? "id") = .ok key ∧
      net.msgMapping.find key = some i
  ended : ∀ (i : Nat) (call : IpcCall), net.calls[i]? = some call → call.phase = .ended →
    call.completions = [.error] ∨ call.completions = [.response i]

structure NetInv (net : Net) : Prop extends NetTables net where
  matching : Matching (Waits net) (InFlight net)

theorem netInv_initial : NetInv .initial where
  matching := by
    refine ⟨?_, ?_, ?_, ?_, ?_, ?_, ?_⟩
    · rintro k a b ⟨waiter, found, -⟩
      cases found
    · rintro i a b (⟨found, -, -, -⟩ | ⟨found, -, -⟩ | ⟨found, -, -, -, -⟩) <;> cases found
    · rintro j k a b ⟨waiter, found, -⟩
      cases found
    · rintro j k a b ⟨waiter, found, -⟩
      cases found
    · rintro i j a b (⟨found, -, -, -⟩ | ⟨found, -, -⟩ | ⟨found, -, -, -, -⟩) <;> cases found
    · rintro i a (⟨found, -, -, -⟩ | ⟨found, -, -⟩ | ⟨found, -, -, -, -⟩) <;> cases found
    · rintro k b ⟨waiter, found, -⟩
      cases found
  waiters := List.forall_mem_nil _
  calls := List.forall_mem_nil _
  proxied := List.forall_mem_nil _
  mapping := fun _ _ found => nomatch found
  ended := fun _ _ found => nomatch found

/-! ## Emissions -/

section

variable {net : Net}

/-- An event that nobody listens for changes nothing. -/
theorem deliver_unheard {count : Nat} {port : Port} {event : String} {outcome : Outcome}
    (unheard : ∀ waiter ∈ net.waiters, waiter.event ≠ event) :
    net.deliver count port event outcome = net := by
  have same : (net.waiters.take count).map (·.settle port event outcome) =
      net.waiters.take count := by
    rw [List.map_congr_left, List.map_id]
    intro waiter member
    rw [Waiter.settle, if_neg fun heard => unheard waiter (List.mem_of_mem_take member) heard.2.1]
    rfl
  rw [Net.deliver, same, List.take_append_drop]

/-- All listeners are called. -/
theorem deliver_all (port : Port) (event : String) (outcome : Outcome) :
    net.deliver net.waiters.length port event outcome =
      { net with waiters := net.waiters.map (·.settle port event outcome) } := by
  rw [Net.deliver, List.take_length, List.drop_length, List.append_nil]

/-- Whoever listens for the event waits no longer. -/
theorem waits_deliver {port : Port} {event : String} {outcome : Outcome} {k : Nat}
    {b : Waiting Nat Port String} :
    Waits (net.deliver net.waiters.length port event outcome) k b ↔
      Waits net k b ∧ ¬ (b.port = port ∧ b.key = event) := by
  rw [deliver_all, Waits, Waits]
  simp only [List.getElem?_map]
  constructor
  · rintro ⟨waiter, found, pending, rfl⟩
    obtain ⟨before, isBefore, rfl⟩ := Option.map_eq_some_iff.mp found
    rw [Waiter.settle] at pending ⊢
    split at pending
    · cases pending
    · rename_i deaf
      rw [if_neg deaf]
      refine ⟨⟨before, isBefore, pending, rfl⟩, fun heard => deaf ⟨heard.1, heard.2, ?_⟩⟩
      rw [pending]
      rfl
  · rintro ⟨⟨waiter, found, pending, rfl⟩, deaf⟩
    have same : waiter.settle port event outcome = waiter := by
      rw [Waiter.settle, if_neg fun heard => deaf ⟨heard.1, heard.2.1⟩]
    exact ⟨waiter, by rw [found, Option.map_some, same], pending, rfl⟩

/-- What is emitted to a promise of the main controller is to be sent back. -/
theorem inFlight_deliver {port : Port} {event : String} {message : Message}
    (isId : message.envelop.id = some event)
    (fresh : ∀ waiter ∈ net.waiters, waiter.outcome = none → waiter.forwarded = false)
    {j : Item} {c : Flight Nat Port String} :
    InFlight (net.deliver net.waiters.length port event (.envelop message)) j c ↔
      InFlight net j c ∨ ∃ k b next, j = .forward k ∧ Waits net k b ∧ b.port = port ∧
        b.key = event ∧ b.next = some next ∧ c = ⟨b.root, next, event⟩ := by
  rw [deliver_all]
  constructor
  · rintro (⟨found, going, origin, hasId⟩ | ⟨found, going, hasId⟩ |
      @⟨i, waiter, runtime, resolved, id, found, replyTo, outcome, going, hasId⟩)
    · exact .inl (.call found going origin hasId)
    · exact .inl (.reply found going hasId)
    · rw [List.getElem?_map] at found
      obtain ⟨before, isBefore, rfl⟩ := Option.map_eq_some_iff.mp found
      rw [Waiter.settle] at replyTo outcome going ⊢
      split at outcome
      · rename_i heard
        rw [if_pos heard] at replyTo going ⊢
        cases outcome
        cases isId.symm.trans hasId
        exact .inr ⟨i, _, .main runtime, rfl,
          ⟨before, isBefore, Option.isNone_iff_eq_none.mp heard.2.2, rfl⟩, heard.1, heard.2.1,
          congrArg (Option.map Port.main) replyTo, rfl⟩
      · rename_i deaf
        rw [if_neg deaf] at replyTo going ⊢
        exact .inl (.forward isBefore replyTo outcome going hasId)
  · rintro (flies | ⟨k, b, next, rfl, ⟨waiter, found, pending, rfl⟩, isPort, isEvent, isNext, rfl⟩)
    · rcases flies with ⟨found, going, origin, hasId⟩ | ⟨found, going, hasId⟩ |
        ⟨found, replyTo, outcome, going, hasId⟩
      · exact .call found going origin hasId
      · exact .reply found going hasId
      · refine .forward ?_ replyTo outcome going hasId
        have settled : ∀ (waiter : Waiter) {resolved : Message},
            waiter.outcome = some (.envelop resolved) →
              waiter.settle port event (.envelop message) = waiter := by
          intro waiter resolved isSome
          rw [Waiter.settle, if_neg fun heard => by rw [isSome] at heard; cases heard.2.2]
        rw [List.getElem?_map, found, Option.map_some, settled _ outcome]
    · obtain ⟨runtime, isRuntime, rfl⟩ := Option.map_eq_some_iff.mp isNext
      have heard : waiter.settle port event (.envelop message) =
          { waiter with outcome := some (.envelop message) } := by
        rw [Waiter.settle, if_pos ⟨isPort, isEvent, by rw [pending]; rfl⟩]
      refine @InFlight.forward _ k { waiter with outcome := some (.envelop message) } runtime
        message event ?_ isRuntime rfl (fresh waiter (List.mem_of_getElem? found) pending) isId
      rw [List.getElem?_map, found, Option.map_some, heard]

/-! ## What is in flight -/

theorem inFlight_call_iff {i : Nat} {c : Flight Nat Port String} :
    InFlight net (.call i) c ↔ ∃ call request id, net.calls[i]? = some call ∧
      call.phase ≠ .ended ∧ call.origin = some request ∧ request.envelop.id = some id ∧
      c = ⟨call.root, .own .core, id⟩ := by
  constructor
  · rintro (⟨found, going, origin, isId⟩)
    exact ⟨_, _, _, found, going, origin, isId, rfl⟩
  · rintro ⟨call, request, id, found, going, origin, isId, rfl⟩
    exact .call found going origin isId

theorem inFlight_reply_iff {i : Nat} {c : Flight Nat Port String} :
    InFlight net (.reply i) c ↔ ∃ proxied id, net.proxied[i]? = some proxied ∧
      proxied.phase.Going ∧ proxied.message.envelop.id = some id ∧
      c = ⟨proxied.message.root, .own .node, id⟩ := by
  constructor
  · rintro (_ | ⟨found, going, isId⟩)
    exact ⟨_, _, found, going, isId, rfl⟩
  · rintro ⟨proxied, id, found, going, isId, rfl⟩
    exact .reply found going isId

theorem inFlight_forward_iff {i : Nat} {c : Flight Nat Port String} :
    InFlight net (.forward i) c ↔ ∃ waiter runtime message id, net.waiters[i]? = some waiter ∧
      waiter.replyTo = some runtime ∧ waiter.outcome = some (.envelop message) ∧
      waiter.forwarded = false ∧ message.envelop.id = some id ∧
      c = ⟨waiter.root, .main runtime, id⟩ := by
  constructor
  · rintro (_ | _ | ⟨found, replyTo, outcome, going, isId⟩)
    exact ⟨_, _, _, _, found, replyTo, outcome, going, isId, rfl⟩
  · rintro ⟨waiter, runtime, message, id, found, replyTo, outcome, going, isId, rfl⟩
    exact .forward found replyTo outcome going isId

/-- The response to something in flight is emitted: `after` is the state without it. -/
theorem NetInv.emitted (inv : NetInv net) {i : Item} {a : Flight Nat Port String}
    (isFlight : InFlight net i a) (after : Net) (tables : NetTables after)
    (waits : ∀ k b, Waits after k b ↔ Waits net k b)
    (flies : ∀ j c, InFlight after j c ↔ InFlight net j c ∧ j ≠ i) {message : Message}
    (isId : message.envelop.id = some a.key) (isRoot : message.root = a.root)
    (isResponse : message.isResponse = true) (proper : Proper a.key) :
    NetInv (after.deliver after.waiters.length a.port a.key (.envelop message)) := by
  have fresh := fun waiter member => (tables.waiters waiter member).2.2.1
  refine ⟨⟨?_, ?_, ?_, ?_, ?_⟩, ?_⟩
  · rw [deliver_all]
    intro waiter member
    obtain ⟨before, isBefore, rfl⟩ := List.mem_map.mp member
    obtain ⟨isProper, below, isFresh, answered⟩ := tables.waiters before isBefore
    rw [Waiter.settle]
    split
    · rename_i heard
      refine ⟨isProper, below, (fun waits => nomatch waits), ?_⟩
      rintro _ ⟨⟩
      obtain ⟨k, found⟩ := List.getElem?_of_mem isBefore
      have wasWaiting := (waits k _).mp
        ⟨before, found, Option.isNone_iff_eq_none.mp heard.2.2, rfl⟩
      have root := inv.matching.root_of_gets isFlight wasWaiting heard.2.1
      exact ⟨message, rfl, isRoot.trans root.symm, isResponse, _, isId, proper⟩
    · exact ⟨isProper, below, isFresh, answered⟩
  · exact tables.calls
  · exact tables.proxied
  · exact tables.mapping
  · exact tables.ended
  · refine inv.matching.arrived isFlight .forward ?_ ?_ ?_
    · rintro k b c ⟨waiter, found, pending, -⟩ flying
      obtain ⟨waiter', _, _, _, found', -, outcome, -⟩ := inFlight_forward_iff.mp flying
      cases found.symm.trans found'
      cases pending.symm.trans outcome
    · intro k b
      rw [waits_deliver, waits]
      rfl
    · intro j c
      rw [inFlight_deliver isId fresh, flies]
      refine or_congr_right ⟨?_, ?_⟩
      · rintro ⟨k, b, next, isForward, waiting, isPort, isKey, isNext, rfl⟩
        have wasWaiting := (waits k b).mp waiting
        refine ⟨k, b, next, isForward, wasWaiting, ⟨isPort, isKey⟩, isNext, ?_⟩
        rw [inv.matching.root_of_gets isFlight wasWaiting isKey]
      · rintro ⟨k, b, next, isForward, waiting, ⟨isPort, isKey⟩, isNext, rfl⟩
        refine ⟨k, b, next, isForward, (waits k b).mpr waiting, isPort, isKey, isNext, ?_⟩
        rw [inv.matching.root_of_gets isFlight waiting isKey]

/-- An emission of another event than the general one only calls the listeners. -/
theorem emitOwn_of_ne {runtime : Runtime} {event : String} (special : event ≠ generalEvent)
    (message : Message) :
    net.emitOwn runtime event message =
      net.deliver net.waiters.length (.own runtime) event (.envelop message) := by
  rw [Net.emitOwn, if_neg special]

theorem emitMain_of_ne {runtime : Runtime} {event : String} (special : event ≠ generalEvent)
    (message : Message) :
    (net.emitMain runtime event message).1 =
      net.deliver net.waiters.length (.main runtime) event (.envelop message) := by
  rw [Net.emitMain, if_neg special]
  rfl

/-- The envelop of a response has the id of the request. -/
theorem respond_eq {runtime : Runtime} {request : Message} {id : String}
    (isId : request.envelop.id = some id) (proper : Proper id) (root : Nat)
    (content : List (String × Json)) (randId : String) :
    ∃ message : Message, message.envelop.id = some id ∧ message.root = root ∧
      message.isResponse = true ∧ net.respond runtime request root (.obj content) randId =
        net.deliver net.waiters.length (.own runtime) id (.envelop message) := by
  obtain ⟨envelop, made, hasId⟩ : ∃ envelop, newEnvelop randId (some (.str id))
      (some (.obj content)) request.envelop.msgType = .ok envelop ∧ envelop.id = some id :=
    ⟨_, rfl, if_neg proper.1⟩
  refine ⟨⟨envelop, root, true⟩, hasId, rfl, rfl, ?_⟩
  rw [Net.respond, isId, Option.map_some, made]
  change net.emitOwn runtime (envelop.id.getD generalEvent) _ = _
  rw [hasId]
  exact emitOwn_of_ne proper.2.1 _

/-! ## Calls of the client -/

/-- The state after the call is complete, before a response is sent. -/
def Net.withCompletion (net : Net) (i : Nat) (completion : Completion) : Net :=
  { net with calls := net.calls.modify i fun call =>
      { call with phase := .ended, completions := call.completions ++ [completion] } }

/-- An entry of a list with one entry modified. -/
private theorem getElem?_modify_eq_some {α : Type} {f : α → α} {entries : List α} {i k : Nat}
    {entry : α} : (entries.modify i f)[k]? = some entry ↔
      ∃ before, entries[k]? = some before ∧ entry = if i = k then f before else before := by
  rw [List.getElem?_modify, Option.map_eq_map, Option.map_eq_some_iff]
  exact exists_congr fun before => and_congr_right fun _ => eq_comm

theorem callback_setPhase {i : Nat} {call : IpcCall} (found : net.calls[i]? = some call)
    (completion : Completion) (root : Nat) (content : Json) (randId : String) :
    (net.setPhase i .ended).callback i completion root content randId =
      match call.origin with
      | none => net.withCompletion i completion
      | some request => (net.withCompletion i completion).respond .core request root content
          randId := by
  have inside : (net.setPhase i .ended).calls[i]? = some { call with phase := .ended } := by
    rw [Net.setPhase, List.getElem?_modify, found]
    simp
  have twice : (net.calls.modify i fun call => { call with phase := CallPhase.ended }).modify i
      (fun call => { call with completions := call.completions ++ [completion] }) =
      net.calls.modify i fun call =>
        { call with phase := .ended, completions := call.completions ++ [completion] } := by
    rw [List.modify_modify_eq]
    rfl
  rw [Net.callback, inside]
  simp only [Net.setPhase, twice]
  rfl

/-- The calls other than the completed one are as they were. -/
theorem withCompletion_calls {i j : Nat} {completion : Completion} {call : IpcCall} :
    (net.withCompletion i completion).calls[j]? = some call ↔ ∃ before,
      net.calls[j]? = some before ∧ call = if i = j then
        { before with phase := .ended, completions := before.completions ++ [completion] }
      else before := by
  rw [Net.withCompletion, getElem?_modify_eq_some]

theorem NetTables.withCompletion (tables : NetTables net) {i : Nat} {call : IpcCall}
    (found : net.calls[i]? = some call) (going : call.phase ≠ .ended) {completion : Completion}
    (own : completion = .error ∨ completion = .response i) :
    NetTables (net.withCompletion i completion) := by
  refine ⟨tables.waiters, ?_, tables.proxied, ?_, ?_⟩
  · intro other member
    obtain ⟨j, isOther⟩ := List.getElem?_of_mem member
    obtain ⟨before, wasOther, rfl⟩ := withCompletion_calls.mp isOther
    have same := tables.calls before (List.mem_of_getElem? wasOther)
    split <;> exact same
  · intro j other isOther otherGoing
    obtain ⟨before, wasOther, rfl⟩ := withCompletion_calls.mp isOther
    split at otherGoing
    · exact absurd rfl otherGoing
    · rename_i differs
      rw [if_neg differs]
      exact tables.mapping j before wasOther otherGoing
  · intro j other isOther otherEnded
    obtain ⟨before, wasOther, rfl⟩ := withCompletion_calls.mp isOther
    split at otherEnded
    · rename_i same
      subst same
      cases found.symm.trans wasOther
      rw [if_pos rfl, (tables.mapping i call found going).1]
      exact own.imp (congrArg ([·])) (congrArg ([·]))
    · rename_i differs
      rw [if_neg differs]
      exact tables.ended j before wasOther otherEnded

/-- Besides the completed call, the same is in flight. -/
theorem inFlight_withCompletion {i : Nat} {completion : Completion} {j : Item}
    {c : Flight Nat Port String} :
    InFlight (net.withCompletion i completion) j c ↔ InFlight net j c ∧ j ≠ .call i := by
  cases j with
  | reply j =>
      rw [inFlight_reply_iff, inFlight_reply_iff]
      exact (and_iff_left nofun).symm
  | forward j =>
      rw [inFlight_forward_iff, inFlight_forward_iff]
      exact (and_iff_left nofun).symm
  | call j =>
      rw [inFlight_call_iff, inFlight_call_iff]
      constructor
      · rintro ⟨call, request, id, found, going, origin, isId, rfl⟩
        obtain ⟨before, wasCall, rfl⟩ := withCompletion_calls.mp found
        by_cases same : i = j
        · rw [if_pos same] at going
          exact absurd rfl going
        · rw [if_neg same] at going origin ⊢
          refine ⟨⟨before, request, id, wasCall, going, origin, isId, rfl⟩, ?_⟩
          rintro ⟨⟩
          exact same rfl
      · rintro ⟨⟨call, request, id, found, going, origin, isId, rfl⟩, differs⟩
        refine ⟨call, request, id, withCompletion_calls.mpr ⟨call, found, ?_⟩, going, origin, isId,
          rfl⟩
        rw [if_neg]
        rintro rfl
        exact differs rfl

/-- A call that is complete, with the response that `SendToCoreAction` sends for it. -/
theorem NetInv.completed (inv : NetInv net) {i : Nat} {call : IpcCall}
    (found : net.calls[i]? = some call) (going : call.phase ≠ .ended) {completion : Completion}
    (own : completion = .error ∨ completion = .response i) (content : List (String × Json))
    (randId : String) :
    NetInv ((net.setPhase i .ended).callback i completion call.root (.obj content) randId) ∧
    ((net.setPhase i .ended).callback i completion call.root (.obj content) randId).calls =
      (net.withCompletion i completion).calls := by
  have tables := inv.toNetTables.withCompletion found going own
  rw [callback_setPhase found]
  cases origin : call.origin with
  | none =>
      refine ⟨⟨tables, inv.matching.congr (fun _ _ => Iff.rfl) fun j c => ?_⟩, rfl⟩
      rw [inFlight_withCompletion, and_iff_left_iff_imp]
      rintro flies rfl
      obtain ⟨other, request, id, isOther, -, isSome, -⟩ := inFlight_call_iff.mp flies
      cases found.symm.trans isOther
      cases origin.symm.trans isSome
  | some request =>
      obtain ⟨id, isId, proper⟩ := (inv.calls call (List.mem_of_getElem? found)).2 request origin
      obtain ⟨message, hasId, isRoot, isResponse, sends⟩ :=
        @respond_eq (net.withCompletion i completion) .core request id isId proper call.root content
          randId
      simp only [sends]
      refine ⟨?_, rfl⟩
      exact inv.emitted (.call found going origin isId) (net.withCompletion i completion) tables
        (fun _ _ => Iff.rfl) (fun _ _ => inFlight_withCompletion) hasId isRoot isResponse proper

/-- The mapping may lose the entries of calls that are complete. -/
theorem NetInv.unmapped (inv : NetInv net) {key : String} {mapping : MsgMapping}
    (others : ∀ other, other ≠ key → mapping.find other = net.msgMapping.find other)
    (unused : ∀ (i : Nat) (call : IpcCall), net.calls[i]? = some call → call.phase ≠ .ended →
      keyOf (call.message.get? "id") ≠ .ok key) :
    NetInv { net with msgMapping := mapping } := by
  refine ⟨⟨inv.waiters, inv.calls, inv.proxied, ?_, inv.ended⟩, ?_⟩
  · intro i call found going
    obtain ⟨isOpen, other, isKey, mapped⟩ := inv.mapping i call found going
    refine ⟨isOpen, other, isKey, (others other ?_).trans mapped⟩
    rintro rfl
    exact unused i call found going isKey
  · refine inv.matching.congr (fun _ _ => Iff.rfl) fun j c => ?_
    cases j with
    | call j => rw [inFlight_call_iff, inFlight_call_iff]
    | reply j => rw [inFlight_reply_iff, inFlight_reply_iff]
    | forward j => rw [inFlight_forward_iff, inFlight_forward_iff]

/-- The entry of a response is cleared, if it can be. -/
theorem find_cleared {mapping : MsgMapping} {key other : String} (differs : other ≠ key) :
    ((mapping.assign key none).toOption.getD mapping).find other = mapping.find other := by
  cases assigned : mapping.assign key none with
  | error exn => rfl
  | ok after => exact (MsgMapping.find_assign assigned other).trans (if_neg differs)

/-- The calls with a new phase of one of them. -/
theorem setPhase_calls {i j : Nat} {phase : CallPhase} {call : IpcCall} :
    (net.setPhase i phase).calls[j]? = some call ↔ ∃ before, net.calls[j]? = some before ∧
      call = { before with phase := if i = j then phase else before.phase } := by
  rw [Net.setPhase, getElem?_modify_eq_some]
  refine exists_congr fun before => and_congr_right fun _ => ?_
  split <;> rfl

/-- A call that goes on may do so in another phase. -/
theorem NetInv.setPhase (inv : NetInv net) {i : Nat} {call : IpcCall}
    (found : net.calls[i]? = some call) (going : call.phase ≠ .ended) {phase : CallPhase}
    (goesOn : phase ≠ .ended) : NetInv (net.setPhase i phase) := by
  have phases : ∀ {j : Nat} {before : IpcCall}, net.calls[j]? = some before →
      ((if i = j then phase else before.phase) = .ended ↔ before.phase = .ended) := by
    intro j before wasCall
    split
    · rename_i same
      subst same
      cases found.symm.trans wasCall
      exact iff_of_false goesOn going
    · rfl
  refine ⟨⟨inv.waiters, ?_, inv.proxied, ?_, ?_⟩, ?_⟩
  · intro call member
    obtain ⟨j, isCall⟩ := List.getElem?_of_mem member
    obtain ⟨before, wasCall, rfl⟩ := setPhase_calls.mp isCall
    exact inv.calls before (List.mem_of_getElem? wasCall)
  · intro j call isCall isGoing
    obtain ⟨before, wasCall, rfl⟩ := setPhase_calls.mp isCall
    exact inv.mapping j before wasCall (mt (phases wasCall).mpr isGoing)
  · intro j call isCall isEnded
    obtain ⟨before, wasCall, rfl⟩ := setPhase_calls.mp isCall
    exact inv.ended j before wasCall ((phases wasCall).mp isEnded)
  · refine inv.matching.congr (fun _ _ => Iff.rfl) fun j c => ?_
    cases j with
    | reply j => rw [inFlight_reply_iff, inFlight_reply_iff]; rfl
    | forward j => rw [inFlight_forward_iff, inFlight_forward_iff]; rfl
    | call j =>
        rw [inFlight_call_iff, inFlight_call_iff]
        constructor
        · rintro ⟨call, request, id, isCall, isGoing, isOrigin, isId, rfl⟩
          obtain ⟨before, wasCall, rfl⟩ := setPhase_calls.mp isCall
          exact ⟨before, request, id, wasCall, mt (phases wasCall).mpr isGoing, isOrigin, isId, rfl⟩
        · rintro ⟨call, request, id, isCall, isGoing, isOrigin, isId, rfl⟩
          exact ⟨_, request, id, setPhase_calls.mpr ⟨call, isCall, rfl⟩,
            mt (phases isCall).mp isGoing, isOrigin, isId, rfl⟩

theorem NetInv.validated (inv : NetInv net) (validate : Json → Option Json) (i : Nat)
    (randId : String) : NetInv (net.validated validate i randId) := by
  rw [Net.validated.eq_def]
  split
  · rename_i root origin message completions found
    have going : CallPhase.validating ≠ .ended := nofun
    split
    · exact inv.setPhase found going nofun
    · exact (inv.completed found going (.inl rfl) _ randId).1
  · exact inv

theorem NetInv.answer (inv : NetInv net) {i : Nat} {response : List (String × Json)}
    {randId : String} (echoes : Echoes net (.answer i response randId)) :
    NetInv (net.answer i response randId) := by
  rw [Net.answer.eq_def]
  split
  · rename_i root origin message completions found
    have going : CallPhase.sent ≠ .ended := nofun
    obtain ⟨-, key, isKey, mapped⟩ := inv.mapping i _ found going
    have isEcho : keyOf (response.lookup "id") = .ok key := (echoes _ found).trans isKey
    have stillMapped : (net.setPhase i .ended).msgMapping.find key = some i := mapped
    simp only [isEcho, stillMapped]
    obtain ⟨completed, calls⟩ := inv.completed found going (.inr rfl) response randId
    refine completed.unmapped (fun _ => find_cleared) fun j call isCall isGoing sameKey => ?_
    rw [calls] at isCall
    obtain ⟨before, wasCall, rfl⟩ := withCompletion_calls.mp isCall
    by_cases same : i = j
    · rw [if_pos same] at isGoing
      exact isGoing rfl
    · rw [if_neg same] at isGoing sameKey
      obtain ⟨-, other, isOther, mappedOther⟩ := inv.mapping j before wasCall isGoing
      cases sameKey.symm.trans isOther
      cases mapped.symm.trans mappedOther
      exact same rfl
  · exact inv

/-! ## What is sent back and replied -/

theorem NetInv.forward (inv : NetInv net) (i : Nat) : NetInv (net.forward i) := by
  rw [Net.forward.eq_def]
  split
  · rename_i root port event runtime outcome found
    obtain ⟨isProper, below, -, answered⟩ := inv.waiters _ (List.mem_of_getElem? found)
    obtain ⟨message, rfl, isRoot, isResponse, id, isId, proper⟩ := answered outcome rfl
    have flight : InFlight net (.forward i) ⟨root, .main runtime, id⟩ :=
      .forward found rfl rfl rfl isId
    have sendEvent : message.envelop.sendEvent = id := by
      rw [Envelop.sendEvent, isId]
      rfl
    simp only [sendEvent, emitMain_of_ne proper.2.1]
    refine inv.emitted flight { net with
      waiters := net.waiters.modify i fun waiter => { waiter with forwarded := true } }
      ⟨?_, inv.calls, inv.proxied, inv.mapping, inv.ended⟩ ?_ ?_ isId isRoot isResponse proper
    · intro waiter member
      obtain ⟨k, isWaiter⟩ := List.getElem?_of_mem member
      obtain ⟨before, wasWaiter, rfl⟩ := getElem?_modify_eq_some.mp isWaiter
      have same := inv.waiters before (List.mem_of_getElem? wasWaiter)
      split
      · rename_i isI
        subst isI
        cases found.symm.trans wasWaiter
        exact ⟨same.1, same.2.1, nofun, same.2.2.2⟩
      · exact same
    · intro k b
      constructor
      · rintro ⟨waiter, isWaiter, pending, rfl⟩
        obtain ⟨before, wasWaiter, rfl⟩ := getElem?_modify_eq_some.mp isWaiter
        by_cases isI : i = k
        · subst isI
          cases found.symm.trans wasWaiter
          rw [if_pos rfl] at pending
          cases pending
        · rw [if_neg isI] at pending ⊢
          exact ⟨before, wasWaiter, pending, rfl⟩
      · rintro ⟨waiter, isWaiter, pending, rfl⟩
        refine ⟨waiter, getElem?_modify_eq_some.mpr ⟨waiter, isWaiter, ?_⟩, pending, rfl⟩
        rw [if_neg]
        rintro rfl
        cases found.symm.trans isWaiter
        cases pending
    · intro j c
      cases j with
      | call j =>
          rw [inFlight_call_iff, inFlight_call_iff]
          exact (and_iff_left nofun).symm
      | reply j =>
          rw [inFlight_reply_iff, inFlight_reply_iff]
          exact (and_iff_left nofun).symm
      | forward j =>
          rw [inFlight_forward_iff, inFlight_forward_iff]
          constructor
          · rintro ⟨waiter, r, m, id', isWaiter, replyTo, outcome, going, hasId, rfl⟩
            obtain ⟨before, wasWaiter, rfl⟩ := getElem?_modify_eq_some.mp isWaiter
            by_cases isI : i = j
            · rw [if_pos isI] at going
              cases going
            · rw [if_neg isI] at replyTo outcome going ⊢
              refine ⟨⟨before, r, m, id', wasWaiter, replyTo, outcome, going, hasId, rfl⟩, ?_⟩
              rintro ⟨⟩
              exact isI rfl
          · rintro ⟨⟨waiter, r, m, id', isWaiter, replyTo, outcome, going, hasId, rfl⟩, differs⟩
            refine ⟨waiter, r, m, id', getElem?_modify_eq_some.mpr ⟨waiter, isWaiter, ?_⟩, replyTo,
              outcome, going, hasId, rfl⟩
            rw [if_neg]
            rintro rfl
            exact differs rfl
  · exact inv

/-- The requests to the node with a new phase of one of them. -/
theorem setProxyPhase_proxied {i j : Nat} {phase : ProxyPhase} {proxied : Proxied} :
    (net.setProxyPhase i phase).proxied[j]? = some proxied ↔
      ∃ before, net.proxied[j]? = some before ∧
        proxied = { before with phase := if i = j then phase else before.phase } := by
  rw [Net.setProxyPhase, getElem?_modify_eq_some]
  refine exists_congr fun before => and_congr_right fun _ => ?_
  split <;> rfl

theorem NetTables.setProxyPhase (tables : NetTables net) (i : Nat) (phase : ProxyPhase) :
    NetTables (net.setProxyPhase i phase) := by
  refine ⟨tables.waiters, tables.calls, ?_, tables.mapping, tables.ended⟩
  intro proxied member
  obtain ⟨k, isProxied⟩ := List.getElem?_of_mem member
  obtain ⟨before, wasProxied, rfl⟩ := setProxyPhase_proxied.mp isProxied
  exact tables.proxied before (List.mem_of_getElem? wasProxied)

/-- A request that the node has subscribed for goes on. -/
theorem NetInv.subscribed (inv : NetInv net) {i : Nat} {proxied : Proxied}
    (found : net.proxied[i]? = some proxied) (going : proxied.phase.Going) {phase : ProxyPhase}
    (goesOn : phase.Going) : NetInv (net.setProxyPhase i phase) := by
  have phases : ∀ {j : Nat} {before : Proxied}, net.proxied[j]? = some before →
      ((if i = j then phase else before.phase).Going ↔ before.phase.Going) := by
    intro j before wasProxied
    split
    · rename_i same
      subst same
      cases found.symm.trans wasProxied
      exact iff_of_true goesOn going
    · rfl
  refine ⟨inv.toNetTables.setProxyPhase i phase, ?_⟩
  refine inv.matching.congr (fun _ _ => Iff.rfl) fun j c => ?_
  cases j with
  | call j => rw [inFlight_call_iff, inFlight_call_iff]; rfl
  | forward j => rw [inFlight_forward_iff, inFlight_forward_iff]; rfl
  | reply j =>
      rw [inFlight_reply_iff, inFlight_reply_iff]
      constructor
      · rintro ⟨proxied, id, isProxied, isGoing, isId, rfl⟩
        obtain ⟨before, wasProxied, rfl⟩ := setProxyPhase_proxied.mp isProxied
        exact ⟨before, id, wasProxied, (phases wasProxied).mp isGoing, isId, rfl⟩
      · rintro ⟨proxied, id, isProxied, isGoing, isId, rfl⟩
        exact ⟨_, id, setProxyPhase_proxied.mpr ⟨proxied, isProxied, rfl⟩,
          (phases isProxied).mpr isGoing, isId, rfl⟩

/-- The node responds to a request, and is through with it. -/
theorem NetInv.replied (inv : NetInv net) {i : Nat} {proxied : Proxied}
    (found : net.proxied[i]? = some proxied) (going : proxied.phase.Going) {phase : ProxyPhase}
    (settled : ¬ phase.Going) (content : List (String × Json)) (randId : String) :
    NetInv ((net.setProxyPhase i phase).respond .node proxied.message proxied.message.root
      (.obj content) randId) := by
  obtain ⟨below, id, isId, proper⟩ := inv.proxied _ (List.mem_of_getElem? found)
  obtain ⟨message, hasId, isRoot, isResponse, sends⟩ :=
    @respond_eq (net.setProxyPhase i phase) .node proxied.message id isId proper
      proxied.message.root content randId
  rw [sends]
  refine inv.emitted (.reply found going isId) (net.setProxyPhase i phase)
    (inv.toNetTables.setProxyPhase i phase) (fun _ _ => Iff.rfl) ?_ hasId isRoot isResponse proper
  intro j c
  cases j with
  | call j =>
      rw [inFlight_call_iff, inFlight_call_iff]
      exact (and_iff_left nofun).symm
  | forward j =>
      rw [inFlight_forward_iff, inFlight_forward_iff]
      exact (and_iff_left nofun).symm
  | reply j =>
      rw [inFlight_reply_iff, inFlight_reply_iff]
      constructor
      · rintro ⟨proxied', id', isProxied, isGoing, hasId', rfl⟩
        obtain ⟨before, wasProxied, rfl⟩ := setProxyPhase_proxied.mp isProxied
        by_cases isI : i = j
        · rw [if_pos isI] at isGoing
          exact absurd isGoing settled
        · rw [if_neg isI] at isGoing hasId' ⊢
          refine ⟨⟨before, id', wasProxied, isGoing, hasId', rfl⟩, ?_⟩
          rintro ⟨⟩
          exact isI rfl
      · rintro ⟨⟨proxied', id', isProxied, isGoing, hasId', rfl⟩, differs⟩
        refine ⟨proxied', id', setProxyPhase_proxied.mpr ⟨proxied', isProxied, ?_⟩, isGoing,
          hasId', rfl⟩
        rw [if_neg]
        rintro rfl
        exact differs rfl

/-- The node's dispatcher is done with a clear request. -/
theorem NetInv.dispatched (inv : NetInv net) {env : Proxy.ProxyEnv} {tasks : Tasks.ManagerState}
    {i : Nat} {randId : String} (clean : CleanNetLabel net (.dispatched env tasks i randId)) :
    NetInv (net.dispatched env tasks i randId) := by
  rw [Net.dispatched.eq_def]
  split
  · rename_i message found
    have speaks := (Proxy.dispatchContent_ne_iff env tasks _).mpr (clean message found)
    have single := Proxy.dispatchContent_single env tasks message.envelop.content
    match Proxy.dispatchContent env tasks message.envelop.content, speaks, single with
    | .waits topic, _, _ => exact inv.subscribed found (.inl rfl) (.inr rfl)
    | .ended [], speaks, _ => exact absurd rfl speaks
    | .ended [.obj content], _, _ => exact inv.replied found (.inl rfl) (by decide) content randId
  · exact inv

/-- A remote worker answers for the first time. -/
theorem NetInv.published (inv : NetInv net) {i : Nat} {data : Option Json} {randId : String}
    (clean : CleanNetLabel net (.published i data randId)) :
    NetInv (net.published i data randId) := by
  obtain ⟨content, isContent⟩ := Proxy.onPublish_obj data
  rw [Net.published.eq_def, isContent]
  split
  · rename_i message found
    exact inv.replied found (.inr rfl) (by decide) content randId
  · rename_i message found
    exact absurd rfl (clean _ found)
  · exact inv

/-! ## What is sent -/

/-- More requests may be known. -/
theorem NetTables.more (tables : NetTables net) :
    NetTables { net with roots := net.roots + 1 } := by
  refine ⟨?_, ?_, ?_, tables.mapping, tables.ended⟩
  · intro waiter member
    obtain ⟨isProper, below, rest⟩ := tables.waiters waiter member
    exact ⟨isProper, Nat.lt_succ_of_lt below, rest⟩
  · intro call member
    obtain ⟨below, rest⟩ := tables.calls call member
    exact ⟨Nat.lt_succ_of_lt below, rest⟩
  · intro proxied member
    obtain ⟨below, rest⟩ := tables.proxied proxied member
    exact ⟨Nat.lt_succ_of_lt below, rest⟩

/-- The state with another call of the client. -/
def Net.withCall (net : Net) (message : Json) (origin : Option Message) (root : Nat)
    (msgMapping : MsgMapping) : Net :=
  { net with
    calls := net.calls ++ [⟨root, origin, message, .validating, []⟩]
    msgMapping }

theorem sendJsonAndReceive_eq {message : Json} {key : String} {mapping : MsgMapping}
    (hasId : truthy? (message.get? "id") = true) (isKey : keyOf (message.get? "id") = .ok key)
    (assigned : net.msgMapping.assign key (some net.calls.length) = .ok mapping)
    (origin : Option Message) (root : Nat) :
    net.sendJsonAndReceive message origin root = net.withCall message origin root mapping := by
  have stored : (keyOf (message.get? "id") >>= (net.msgMapping.assign · (some net.calls.length))) =
      .ok mapping := bind_eq_ok.mpr ⟨key, isKey, assigned⟩
  rw [Net.sendJsonAndReceive, stored, hasId]
  rfl

theorem withCall_calls {message : Json} {origin : Option Message} {root : Nat}
    {mapping : MsgMapping} {i : Nat} {call : IpcCall} :
    (net.withCall message origin root mapping).calls[i]? = some call ↔ net.calls[i]? = some call ∨
      i = net.calls.length ∧ call = ⟨root, origin, message, .validating, []⟩ :=
  getElem?_concat_eq_some

/-- The new call has its entry, and it takes that of no call that is not complete. -/
theorem NetTables.withCall (tables : NetTables net) {message : Json} {key : String}
    {mapping : MsgMapping} (isKey : keyOf (message.get? "id") = .ok key)
    (assigned : net.msgMapping.assign key (some net.calls.length) = .ok mapping)
    (fresh : ∀ call ∈ net.calls, call.phase ≠ .ended → keyOf (call.message.get? "id") ≠ .ok key)
    {origin : Option Message} (proper : ∀ request ∈ origin, request.Proper) {root : Nat}
    (below : root < net.roots) : NetTables (net.withCall message origin root mapping) := by
  have finds := MsgMapping.find_assign assigned
  refine ⟨tables.waiters, ?_, tables.proxied, ?_, ?_⟩
  · intro call member
    rcases List.mem_append.mp member with old | new
    · exact tables.calls call old
    · obtain rfl := List.mem_singleton.mp new
      exact ⟨below, proper⟩
  · intro i call found going
    rcases withCall_calls.mp found with old | ⟨rfl, rfl⟩
    · obtain ⟨isOpen, other, isOther, mapped⟩ := tables.mapping i call old going
      refine ⟨isOpen, other, isOther, ((finds other).trans (if_neg ?_)).trans mapped⟩
      rintro rfl
      exact fresh call (List.mem_of_getElem? old) going isOther
    · exact ⟨rfl, key, isKey, (finds key).trans (if_pos rfl)⟩
  · intro i call found ended
    rcases withCall_calls.mp found with old | ⟨-, rfl⟩
    · exact tables.ended i call old ended
    · cases ended

/-- A direct call of the client, which belongs to no envelop. -/
theorem NetInv.ipc (inv : NetInv net) {message : Json} (sendable : Sendable net message) :
    NetInv ({ net with roots := net.roots + 1 }.sendJsonAndReceive message none net.roots) := by
  obtain ⟨hasId, key, isKey, assignable, fresh⟩ := sendable
  obtain ⟨mapping, assigned⟩ := MsgMapping.assign_of_assignable assignable (some net.calls.length)
  rw [@sendJsonAndReceive_eq { net with roots := net.roots + 1 } _ _ _ hasId isKey assigned]
  have noOrigin : ∀ request ∈ (none : Option Message), request.Proper := by
    rintro _ ⟨⟩
  refine ⟨inv.toNetTables.more.withCall isKey assigned fresh noOrigin (Nat.lt_succ_self _), ?_⟩
  refine inv.matching.congr (fun _ _ => Iff.rfl) fun j c => ?_
  cases j with
  | reply j => rw [inFlight_reply_iff, inFlight_reply_iff]; rfl
  | forward j => rw [inFlight_forward_iff, inFlight_forward_iff]; rfl
  | call j =>
      rw [inFlight_call_iff, inFlight_call_iff]
      constructor
      · rintro ⟨call, request, id, found, going, origin, isId, rfl⟩
        rcases withCall_calls.mp found with old | ⟨-, rfl⟩
        · exact ⟨call, request, id, old, going, origin, isId, rfl⟩
        · cases origin
      · rintro ⟨call, request, id, found, going, origin, isId, rfl⟩
        exact ⟨call, request, id, withCall_calls.mpr (.inl found), going, origin, isId, rfl⟩

/-! ### The listeners of a request -/

/-- The state with another listener. -/
def Net.withWaiter (net : Net) (port : Port) (event : String) (root : Nat)
    (replyTo : Option Runtime) : Net :=
  { net with waiters := net.waiters ++ [⟨root, port, event, replyTo, none, false⟩] }

theorem events_withWaiter (events : ∀ waiter ∈ net.waiters, Proper waiter.event) {port : Port}
    {event : String} (proper : Proper event) {root : Nat} {replyTo : Option Runtime} :
    ∀ waiter ∈ (net.withWaiter port event root replyTo).waiters, Proper waiter.event := by
  intro waiter member
  rcases List.mem_append.mp member with old | new
  · exact events waiter old
  · rw [List.mem_singleton.mp new]
    exact proper

theorem listen_eq (events : ∀ waiter ∈ net.waiters, Proper waiter.event) (port : Port)
    (event : String) (root : Nat) (replyTo : Option Runtime) :
    net.listen port event root replyTo = net.withWaiter port event root replyTo := by
  rw [Net.listen, deliver_unheard fun waiter member => (events waiter member).2.2]
  rfl

/-- The promises of the requester and of the main controller. -/
def Net.listening (net : Net) (requester responder : Runtime) (id : String) : Net :=
  ({ net with roots := net.roots + 1 }.withWaiter (.main requester) id net.roots none).withWaiter
    (.own responder) id net.roots (some requester)

/-- The general message event has no listener but the handlers. -/
theorem emitMain_general (events : ∀ waiter ∈ net.waiters, Proper waiter.event)
    {runtime : Runtime} {message : Message} {after : Net}
    (handled : net.handle runtime message = (after, false)) (same : after.waiters = net.waiters) :
    net.emitMain runtime generalEvent message = (after, false) := by
  have unheard : ∀ waiter ∈ after.waiters, waiter.event ≠ generalEvent := by
    rw [same]
    exact fun waiter member => (events waiter member).2.1
  rw [Net.emitMain, if_pos rfl, handled]
  simp only [Bool.false_eq_true, if_false, deliver_unheard unheard]

/-- A request that the responder handles: two more listeners, and what the responder does. -/
theorem sendAndReceive_eq (events : ∀ waiter ∈ net.waiters, Proper waiter.event)
    {requester responder : Runtime} {envelop : Envelop} {id : String}
    (isId : envelop.id = some id) (proper : Proper id)
    (action : ∀ (net : Net) (root : Nat), net.dispatch requester ⟨envelop, root, false⟩ =
      net.request responder requester ⟨envelop, root, false⟩) {after : Net}
    (handled : (net.listening requester responder id).handle responder
      ⟨envelop, net.roots, false⟩ = (after, false))
    (same : after.waiters = (net.listening requester responder id).waiters) :
    net.sendAndReceive requester envelop = after := by
  have isEvent : envelop.event = id := by
    rw [Envelop.event, isId]
    rfl
  have eventsOwn := @events_withWaiter { net with roots := net.roots + 1 } events
    (.main requester) id proper net.roots none
  have eventsBoth := @events_withWaiter _ eventsOwn (.own responder) id proper net.roots
    (some requester)
  have unheard : ∀ waiter ∈ after.waiters, waiter.event ≠ generalEvent := by
    rw [same]
    exact fun waiter member => (eventsBoth waiter member).2.1
  have listens := @listen_eq { net with roots := net.roots + 1 } events (.main requester) id
    net.roots none
  have forwards := listen_eq eventsOwn (.own responder) id net.roots (some requester)
  have emits : (net.listening requester responder id).emitMain responder generalEvent
      ⟨envelop, net.roots, false⟩ = (after, false) := emitMain_general eventsBoth handled same
  have requests : ({ net with roots := net.roots + 1 }.withWaiter (.main requester) id net.roots
      none).request responder requester ⟨envelop, net.roots, false⟩ = after := by
    simp only [Net.request, isEvent, forwards]
    rw [← Net.listening, emits]
    rfl
  rw [Net.sendAndReceive, isEvent, listens, Net.emitOwn, if_pos rfl, action]
  simp only [requests]
  exact deliver_unheard unheard

theorem listening_waiters {requester responder : Runtime} {id : String} {k : Nat}
    {waiter : Waiter} :
    (net.listening requester responder id).waiters[k]? = some waiter ↔
      net.waiters[k]? = some waiter ∨
      (k = net.waiters.length + 1 ∧
        waiter = ⟨net.roots, .own responder, id, some requester, none, false⟩) ∨
      (k = net.waiters.length ∧ waiter = ⟨net.roots, .main requester, id, none, none, false⟩) := by
  have first := @getElem?_concat_eq_some _ net.waiters
    ⟨net.roots, .main requester, id, none, none, false⟩ waiter k
  have both := @getElem?_concat_eq_some _
    (net.waiters ++ [(⟨net.roots, .main requester, id, none, none, false⟩ : Waiter)])
    ⟨net.roots, .own responder, id, some requester, none, false⟩ waiter k
  rw [List.length_append] at both
  exact both.trans ((or_congr_left first).trans (or_assoc.trans (or_congr_right or_comm)))

theorem NetTables.listening (tables : NetTables net) (requester responder : Runtime) {id : String}
    (proper : Proper id) : NetTables (net.listening requester responder id) := by
  refine ⟨?_, tables.more.calls, tables.more.proxied, tables.mapping, tables.ended⟩
  intro waiter member
  obtain ⟨k, found⟩ := List.getElem?_of_mem member
  rcases listening_waiters.mp found with old | ⟨-, rfl⟩ | ⟨-, rfl⟩
  · exact tables.more.waiters waiter (List.mem_of_getElem? old)
  · exact ⟨proper, Nat.lt_succ_self _, fun _ => rfl, by rintro _ ⟨⟩⟩
  · exact ⟨proper, Nat.lt_succ_self _, fun _ => rfl, by rintro _ ⟨⟩⟩

/-- The listeners of a request and what the responder has in hand for it. -/
theorem NetInv.requested (inv : NetInv net) {requester responder : Runtime} {id : String}
    (free : ∀ waiter ∈ net.waiters, waiter.outcome = none → waiter.event ≠ id) (after : Net)
    (tables : NetTables after)
    (same : after.waiters = (net.listening requester responder id).waiters) {item : Item}
    (newItem : ∀ a, ¬ InFlight net item a)
    (flies : ∀ j c, InFlight after j c ↔
      InFlight net j c ∨ (j = item ∧ c = ⟨net.roots, .own responder, id⟩)) : NetInv after := by
  have outside : ∀ (k : Nat) (b : Waiting Nat Port String), net.waiters.length ≤ k →
      ¬ Waits net k b := by
    rintro k b beyond ⟨waiter, found, -, -⟩
    cases (List.getElem?_eq_none beyond).symm.trans found
  have freshFlight : ∀ (j : Item) (c : Flight Nat Port String), InFlight net j c →
      c.root ≠ net.roots := by
    rintro j c (⟨found, -, -, -⟩ | ⟨found, -, -⟩ | ⟨found, -, -, -, -⟩)
    · exact Nat.ne_of_lt (inv.calls _ (List.mem_of_getElem? found)).1
    · exact Nat.ne_of_lt (inv.proxied _ (List.mem_of_getElem? found)).1
    · exact Nat.ne_of_lt (inv.waiters _ (List.mem_of_getElem? found)).2.1
  have nowWaits : ∀ k b, Waits after k b ↔ Waits net k b ∨
      (k = net.waiters.length + 1 ∧
        b = ⟨net.roots, .own responder, id, some (.main requester)⟩) ∨
      (k = net.waiters.length ∧ b = ⟨net.roots, .main requester, id, none⟩) := by
    intro k b
    rw [Waits, same]
    constructor
    · rintro ⟨waiter, found, pending, rfl⟩
      rcases listening_waiters.mp found with old | ⟨isK, rfl⟩ | ⟨isK, rfl⟩
      · exact .inl ⟨waiter, old, pending, rfl⟩
      · exact .inr (.inl ⟨isK, rfl⟩)
      · exact .inr (.inr ⟨isK, rfl⟩)
    · rintro (⟨waiter, old, pending, rfl⟩ | ⟨isK, rfl⟩ | ⟨isK, rfl⟩)
      · exact ⟨waiter, listening_waiters.mpr (.inl old), pending, rfl⟩
      · exact ⟨_, listening_waiters.mpr (.inr (.inl ⟨isK, rfl⟩)), rfl, rfl⟩
      · exact ⟨_, listening_waiters.mpr (.inr (.inr ⟨isK, rfl⟩)), rfl, rfl⟩
  have freshKey : ∀ k b, Waits net k b → b.key ≠ id := by
    rintro k b ⟨waiter, found, pending, rfl⟩
    exact free waiter (List.mem_of_getElem? found) pending
  have freshWaiter : ∀ k b, Waits net k b → b.root ≠ net.roots := by
    rintro k b ⟨waiter, found, -, rfl⟩
    exact Nat.ne_of_lt (inv.waiters waiter (List.mem_of_getElem? found)).2.1
  have newNames := And.intro (Nat.succ_ne_self net.waiters.length) (And.intro
    (fun b => outside _ b (Nat.le_succ _)) (fun b => outside _ b (Nat.le_refl _)))
  have differ : Port.own responder ≠ .main requester := nofun
  exact ⟨tables, inv.matching.requested differ freshKey ⟨freshWaiter, freshFlight⟩ newNames newItem
    nowWaits flies⟩

/-- Nothing is to be sent back yet for the new listeners. -/
theorem inFlight_forward_listening {requester responder : Runtime} {id : String} {after : Net}
    (same : after.waiters = (net.listening requester responder id).waiters) {i : Nat}
    {c : Flight Nat Port String} :
    InFlight after (.forward i) c ↔ InFlight net (.forward i) c := by
  rw [inFlight_forward_iff, inFlight_forward_iff, same]
  constructor
  · rintro ⟨waiter, runtime, message, id', found, replyTo, outcome, rest⟩
    rcases listening_waiters.mp found with old | ⟨-, rfl⟩ | ⟨-, rfl⟩
    · exact ⟨waiter, runtime, message, id', old, replyTo, outcome, rest⟩
    · cases outcome
    · cases outcome
  · rintro ⟨waiter, runtime, message, id', found, rest⟩
    exact ⟨waiter, runtime, message, id', listening_waiters.mpr (.inl found), rest⟩

/-- A request to the core, whose message the client validates. -/
theorem NetInv.requestCore (inv : NetInv net) {requester : Runtime} {envelop : Envelop}
    {id : String} (isId : envelop.id = some id) (proper : Proper id)
    (free : ∀ waiter ∈ net.waiters, waiter.outcome = none → waiter.event ≠ id)
    (isDbRequest : envelop.msgType = MainControllerNotifications.dbRequest) {message : Json}
    (handled : onMessage envelop = .ok (some message)) (sendable : Sendable net message) :
    NetInv (net.sendAndReceive requester envelop) := by
  obtain ⟨hasId, key, isKey, assignable, fresh⟩ := sendable
  obtain ⟨mapping, assigned⟩ := MsgMapping.assign_of_assignable assignable (some net.calls.length)
  let request : Message := ⟨envelop, net.roots, false⟩
  let after := (net.listening requester .core id).withCall message (some request) net.roots mapping
  have action : ∀ (net : Net) (root : Nat), net.dispatch requester ⟨envelop, root, false⟩ =
      net.request .core requester ⟨envelop, root, false⟩ := by
    intro net root
    rw [Net.dispatch, if_neg (by rw [isId]; nofun), if_pos isDbRequest]
  have sends : (net.listening requester .core id).handle .core request = (after, false) := by
    simp only [Net.handle, request, handled]
    rw [@sendJsonAndReceive_eq (net.listening requester .core id) _ _ _ hasId isKey assigned]
  rw [sendAndReceive_eq (fun waiter member => (inv.waiters waiter member).1) isId proper action
    sends rfl]
  have properOrigin : ∀ origin ∈ some request, origin.Proper := by
    rintro _ ⟨⟩
    exact ⟨id, isId, proper⟩
  have newItem : ∀ a, ¬ InFlight net (.call net.calls.length) a := by
    intro a flies
    obtain ⟨call, _, _, found, -⟩ := inFlight_call_iff.mp flies
    cases (List.getElem?_eq_none (Nat.le_refl _)).symm.trans found
  refine inv.requested free after
    ((inv.listening requester .core proper).withCall isKey assigned fresh
    properOrigin (Nat.lt_succ_self _)) rfl newItem fun j c => ?_
  cases j with
  | forward j =>
      rw [@inFlight_forward_listening net requester _ id after rfl]
      exact (or_iff_left fun new => nomatch new.1).symm
  | reply j =>
      rw [inFlight_reply_iff, inFlight_reply_iff]
      exact (or_iff_left fun new => nomatch new.1).symm
  | call j =>
      rw [inFlight_call_iff, inFlight_call_iff]
      constructor
      · rintro ⟨call, origin, id', found, going, isOrigin, hasId', rfl⟩
        rcases withCall_calls.mp found with old | ⟨rfl, rfl⟩
        · exact .inl ⟨call, origin, id', old, going, isOrigin, hasId', rfl⟩
        · cases isOrigin
          cases isId.symm.trans hasId'
          exact .inr ⟨rfl, rfl⟩
      · rintro (⟨call, origin, id', found, going, isOrigin, hasId', rfl⟩ | ⟨isJ, rfl⟩)
        · exact ⟨call, origin, id', withCall_calls.mpr (.inl found), going, isOrigin, hasId', rfl⟩
        · cases isJ
          exact ⟨_, request, id, withCall_calls.mpr (.inr ⟨rfl, rfl⟩), nofun, rfl, isId, rfl⟩

/-- A request to the node, which is passed on. -/
theorem NetInv.requestNode (inv : NetInv net) {requester : Runtime} {envelop : Envelop}
    {id : String} (isId : envelop.id = some id) (proper : Proper id)
    (free : ∀ waiter ∈ net.waiters, waiter.outcome = none → waiter.event ≠ id)
    (isProxy : envelop.msgType = MainControllerNotifications.proxy) :
    NetInv (net.sendAndReceive requester envelop) := by
  let request : Message := ⟨envelop, net.roots, false⟩
  let after : Net := { net.listening requester .node id with
    proxied := net.proxied ++ [⟨request, .dispatching⟩] }
  have action : ∀ (net : Net) (root : Nat), net.dispatch requester ⟨envelop, root, false⟩ =
      net.request .node requester ⟨envelop, root, false⟩ := by
    intro net root
    have other : envelop.msgType ≠ MainControllerNotifications.dbRequest := by
      rw [isProxy]
      decide
    rw [Net.dispatch, if_neg (by rw [isId]; nofun), if_neg other, if_pos isProxy]
  have passes : (net.listening requester .node id).handle .node request = (after, false) := by
    rw [Net.handle, if_pos isProxy]
    rfl
  rw [sendAndReceive_eq (fun waiter member => (inv.waiters waiter member).1) isId proper action
    passes rfl]
  have listening := inv.listening requester .node proper
  have tables : NetTables after := by
    refine ⟨listening.waiters, listening.calls, ?_, listening.mapping, listening.ended⟩
    intro proxied member
    rcases List.mem_append.mp member with old | new
    · exact listening.proxied proxied old
    · rw [List.mem_singleton.mp new]
      exact ⟨Nat.lt_succ_self _, id, isId, proper⟩
  have newItem : ∀ a, ¬ InFlight net (.reply net.proxied.length) a := by
    intro a flies
    obtain ⟨proxied, _, found, -⟩ := inFlight_reply_iff.mp flies
    cases (List.getElem?_eq_none (Nat.le_refl _)).symm.trans found
  refine inv.requested free after tables rfl newItem fun j c => ?_
  cases j with
  | forward j =>
      rw [@inFlight_forward_listening net requester _ id after rfl]
      exact (or_iff_left fun new => nomatch new.1).symm
  | call j =>
      rw [inFlight_call_iff, inFlight_call_iff]
      exact (or_iff_left fun new => nomatch new.1).symm
  | reply j =>
      rw [inFlight_reply_iff, inFlight_reply_iff]
      constructor
      · rintro ⟨proxied, id', found, going, hasId, rfl⟩
        rcases getElem?_concat_eq_some.mp found with old | ⟨rfl, rfl⟩
        · exact .inl ⟨proxied, id', old, going, hasId, rfl⟩
        · cases isId.symm.trans hasId
          exact .inr ⟨rfl, rfl⟩
      · rintro (⟨proxied, id', found, going, hasId, rfl⟩ | ⟨isJ, rfl⟩)
        · exact ⟨proxied, id', getElem?_concat_eq_some.mpr (.inl found), going, hasId, rfl⟩
        · cases isJ
          exact ⟨_, id, getElem?_concat_eq_some.mpr (.inr ⟨rfl, rfl⟩), .inl rfl, isId, rfl⟩

end

/-! ## Whole runs -/

/-- A new envelop has the type that it is made with. -/
theorem msgType_of_newEnvelop {randId msgType : String} {sequenceOrId obj : Option Json}
    {envelop : Envelop} (made : newEnvelop randId sequenceOrId obj msgType = .ok envelop) :
    envelop.msgType = msgType := by
  unfold newEnvelop at made
  split at made <;> cases made <;> rfl

theorem NetInv.step (validate : Json → Option Json) {net : Net} {label : NetLabel}
    (inv : NetInv net) (echoes : Echoes net label) (clean : CleanNetLabel net label) :
    NetInv (netStep validate net label) := by
  cases label with
  | request runtime sequenceOrId obj randId =>
      rw [netStep, Net.sendNew]
      split
      · exact inv
      · rename_i envelop made
        obtain ⟨⟨id, isId, notEmpty, notGeneral, notListener, free⟩, message, handled, sendable⟩ :=
          clean envelop made
        exact inv.requestCore isId ⟨notEmpty, notGeneral, notListener⟩ free
          (msgType_of_newEnvelop made) handled sendable
  | routeNext request randId =>
      rw [netStep, Net.sendNew]
      split
      · exact inv
      · rename_i envelop made
        obtain ⟨id, isId, notEmpty, notGeneral, notListener, free⟩ := clean envelop made
        exact inv.requestNode isId ⟨notEmpty, notGeneral, notListener⟩ free
          (msgType_of_newEnvelop made)
  | ipc message => exact inv.ipc clean
  | validated i randId => exact inv.validated validate i randId
  | answer i response randId => exact inv.answer echoes
  | forward i => exact inv.forward i
  | dispatched env tasks i randId => exact inv.dispatched clean
  | published i data randId => exact inv.published clean

/-- What is in flight is on its way. -/
theorem busy_of_inFlight {net : Net} {j : Item} {c : Flight Nat Port String}
    (flies : InFlight net j c) : Busy net := by
  rcases flies with ⟨found, going, -, -⟩ | ⟨found, going, -⟩ | ⟨found, replyTo, outcome, going, -⟩
  · exact .inl ⟨_, List.mem_of_getElem? found, going⟩
  · exact .inr (.inl ⟨_, List.mem_of_getElem? found, going⟩)
  · refine .inr (.inr ⟨_, List.mem_of_getElem? found, ?_, going, _, outcome⟩)
    rw [replyTo]
    nofun

theorem NetInv.right {net : Net} (inv : NetInv net) : NetRight net := by
  refine ⟨?_, ?_, ?_⟩
  · intro waiter member outcome isOutcome
    obtain ⟨message, rfl, isRoot, isResponse, -⟩ := (inv.waiters waiter member).2.2.2 outcome
      isOutcome
    exact ⟨message, rfl, isRoot, isResponse⟩
  · intro i call found
    by_cases ended : call.phase = .ended
    · exact .inr (inv.ended i call found ended)
    · exact .inl (inv.mapping i call found ended).1
  · intro quiet
    refine ⟨fun waiter member pending => quiet ?_, fun call member => ?_⟩
    · obtain ⟨k, found⟩ := List.getElem?_of_mem member
      obtain ⟨j, c, flies, -⟩ := inv.matching.coming ⟨waiter, found, pending, rfl⟩
      exact busy_of_inFlight flies
    · obtain ⟨i, found⟩ := List.getElem?_of_mem member
      have ended : call.phase = .ended := by
        by_contra going
        exact quiet (.inl ⟨call, member, going⟩)
      rcases inv.ended i call found ended with isError | isResponse
      · rw [isError]
        nofun
      · rw [isResponse]
        nofun

/-- Core echoes the ids and what is sent is requestable: every promise and every callback
completes once, with its own response. -/
theorem netRight_run (validate : Json → Option Json) {labels : List NetLabel}
    (echoes : Meets Echoes (netStep validate) .initial labels)
    (clean : Meets CleanNetLabel (netStep validate) .initial labels) :
    NetRight (run (netStep validate) .initial labels) := by
  have preserved : ∀ net label, NetInv net → (Echoes net label ∧ CleanNetLabel net label) →
      NetInv (netStep validate net label) := by
    intro net label inv both
    exact inv.step validate both.1 both.2
  exact (invariant_run netInv_initial preserved (echoes.and clean)).right

/-! ### Runs with and without a proper id -/

/-- The scheme of `NewTaskEncryptionKey`. -/
def keyScheme (message : Json) : Option Json :=
  match message.get? "type", message.get? "id", message.get? "userPubKey" with
  | some (.str _), some (.str _), some (.str _) => none
  | _, _, _ => some (.str "Validation Failed")

def ownKey : String × Json := ("userPubKey", .str "5a")

/-- A peer's request for an encryption key, which the node passes on with the id it has. -/
def keyRequest (fields : List (String × Json)) : NetLabel :=
  .request .node (fields.lookup "id")
    (some (.obj (("type", .str CoreRequests.newTaskEncryptionKey) :: fields))) "7f"

def keyAnswer (i : Nat) (id : String) : NetLabel :=
  .answer i [("id", .str id), ("type", .str CoreRequests.newTaskEncryptionKey)] "7f"

/-- Nothing is on its way when the calls and the requests to the node are over and the main
controller has sent everything back. -/
theorem not_busy {net : Net} (calls : ∀ call ∈ net.calls, call.phase = .ended)
    (proxied : ∀ proxied ∈ net.proxied, ¬ proxied.phase.Going)
    (waiters : ∀ waiter ∈ net.waiters, waiter.replyTo = none ∨ waiter.forwarded = true ∨
      waiter.outcome.isNone = true) : ¬ Busy net := by
  rintro (⟨call, member, going⟩ | ⟨request, member, going⟩ |
    ⟨waiter, member, replies, going, message, outcome⟩)
  · exact going (calls call member)
  · exact proxied request member going
  · rcases waiters waiter member with noReply | forwarded | pending
    · exact replies noReply
    · exact absurd forwarded (ne_true_of_eq_false going)
    · rw [outcome] at pending
      cases pending

/-- The run of a request without an id. -/
def withoutId : List NetLabel :=
  [keyRequest [ownKey]]

/-- A request whose id is the general message event, with a message that is rejected. -/
def withGeneralId : List NetLabel :=
  [keyRequest [("id", .str "m")], .validated 0 "7f", .forward 1]

/-- Two requests with one id, and the response to the first one. -/
def withSameId : List NetLabel :=
  [keyRequest [("id", .str "x"), ownKey], keyRequest [("id", .str "x"), ownKey],
    .validated 0 "7f", .validated 1 "7f", keyAnswer 0 "x"]

/-- A direct call of the client without an id. -/
def directWithoutId : List NetLabel :=
  [.ipc [ownKey], .validated 0 "7f"]

/-- A deployment of a client whose pre-code cannot be unpacked. -/
def proxiedDeployment : List NetLabel :=
  [.routeNext (.deploySecretContract [("preCode", .str "00")]) "7f",
    .dispatched Proxy.openProxy (.initial []) 0 "7f"]

/-- A request whose id replaces what the mapping inherits from, and one whose id is then a name
that cannot be assigned. -/
def withInheritedId : List NetLabel :=
  [keyRequest [("id", .str "__proto__"), ownKey], keyRequest [("id", .str "length"), ownKey],
    .validated 0 "7f", keyAnswer 0 "__proto__", .forward 1]

/-- Requests without a proper id are never completed, and neither are the deployment and the
request with an inherited name. Of the two requests with one id the second one gets the first
response, and the direct call has two errors. -/
theorem netRight_run_wrong :
    (Meets Echoes (netStep keyScheme) .initial withoutId ∧
      ¬ NetRight (run (netStep keyScheme) .initial withoutId)) ∧
    (Meets Echoes (netStep keyScheme) .initial withGeneralId ∧
      ¬ NetRight (run (netStep keyScheme) .initial withGeneralId)) ∧
    (Meets Echoes (netStep keyScheme) .initial withSameId ∧
      ¬ NetRight (run (netStep keyScheme) .initial withSameId)) ∧
    (Meets Echoes (netStep keyScheme) .initial directWithoutId ∧
      ¬ NetRight (run (netStep keyScheme) .initial directWithoutId)) ∧
    (Meets Echoes (netStep keyScheme) .initial proxiedDeployment ∧
      ¬ NetRight (run (netStep keyScheme) .initial proxiedDeployment)) ∧
    (Meets Echoes (netStep keyScheme) .initial withInheritedId ∧
      ¬ NetRight (run (netStep keyScheme) .initial withInheritedId)) := by
  refine ⟨⟨⟨trivial, trivial⟩, fun right => ?_⟩, ⟨⟨trivial, trivial, trivial, trivial⟩,
    fun right => ?_⟩, ⟨⟨trivial, trivial, trivial, trivial, ?_, trivial⟩, fun right => ?_⟩,
    ⟨⟨trivial, trivial, trivial⟩, fun right => ?_⟩, ⟨⟨trivial, trivial, trivial⟩,
    fun right => ?_⟩, ⟨trivial, trivial, trivial, ?_, trivial, trivial⟩, fun right => ?_⟩
  · -- the main controller ignores an envelop without an id
    have complete := right.complete (not_busy (by decide) (by decide) (by decide))
    exact complete.1 ⟨0, .main .node, "false", none, none, false⟩ (.head _) rfl
  · -- the response is sent back as a general message, which the node takes for a request
    have complete := right.complete (not_busy (by decide) (by decide) (by decide))
    exact complete.1 ⟨0, .main .node, "m", none, none, false⟩ (.head _) rfl
  · rintro call ⟨⟩
    rfl
  · have second := right.callbacks 1 _ rfl
    exact absurd second (by decide)
  · have first := right.callbacks 0 _ rfl
    exact absurd first (by decide)
  · -- the dispatcher returns without a response
    have complete := right.complete (not_busy (by decide) (by decide) (by decide))
    exact complete.1 ⟨0, .main .jsonRpc, "7f", none, none, false⟩ (.head _) rfl
  · rintro call ⟨⟩
    rfl
  · -- the second callback is not stored
    have complete := right.complete (not_busy (by decide) (by decide) (by decide))
    exact complete.1 ⟨1, .main .node, "length", none, none, false⟩ (.tail _ (.tail _ (.head _))) rfl

/-- Two peers with their own ids, of whom the second one has its message rejected first, and a
computation of a client. -/
theorem netRight_run_keys :
    NetRight (run (netStep keyScheme) .initial
      [keyRequest [("id", .str "x"), ownKey], keyRequest [("id", .str "y")],
        .routeNext (.computeTask [("workerAddress", .str "5b")]) "8c", .validated 1 "7f",
        .dispatched Proxy.openProxy (.initial []) 0 "7f", .validated 0 "7f", keyAnswer 0 "x",
        .forward 3, .forward 5, .forward 1]) := by
  refine netRight_run keyScheme
    ⟨trivial, trivial, trivial, trivial, trivial, trivial, ?_, trivial, trivial, trivial, trivial⟩
    ⟨?_, ?_, ?_, trivial, ?_, trivial, trivial, trivial, trivial, trivial, trivial⟩
  · rintro call ⟨⟩
    rfl
  · rintro envelop ⟨⟩
    refine ⟨⟨"x", rfl, by decide, by decide, by decide, nofun⟩, _, rfl, rfl, "x", rfl, nofun, ?_⟩
    rintro call ⟨⟩
  · rintro envelop ⟨⟩
    refine ⟨⟨"y", rfl, by decide, by decide, by decide, by decide⟩, _, rfl, rfl, "y", rfl,
      fun isName => absurd isName (by decide), ?_⟩
    intro call member _
    rw [List.mem_singleton.mp member]
    nofun
  · rintro envelop ⟨⟩
    exact ⟨"8c", rfl, by decide, by decide, by decide, by decide⟩
  · rintro message ⟨⟩
    refine ⟨.computeTask [("workerAddress", .str "5b")], "8c", rfl, rfl, ?_⟩
    rintro topic ⟨⟩ _ _
    rfl

end Core
