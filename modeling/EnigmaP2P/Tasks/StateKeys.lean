import EnigmaP2P.Js.Buffer

/-!
# One transfer of state keys

`GetStateKeysAction` asks core for a request, sends it to the principal node, which is asked
again while an epoch changes, and hands the answer to core. Every way out has to release the
flag of the transfer and to call back.

An exception ends the action where no handler is around it, with the flag kept. An `Error`
message to the last exchange is looked for in the answer to the first one, so it becomes an
error that is missing, and that is success.
-/

namespace Tasks

open Js

/-- A response of core. A transport error is its field `error`. -/
abbrev CoreMessage := List (String × Json)

structure MsgPrincipal where
  request : Json
  sig : Json
  addresses : Option (List String)
  blockNumber : Option Nat

/-- The parameters of the action. -/
structure PttParams where
  addresses : Option (List String)
  blockNumber : Option Nat

/-- `MsgPrincipal.build`; `none` is `null`, and a block number of 0 is falsy. -/
def MsgPrincipal.build (request sig : Option Json) (params : PttParams) : Option MsgPrincipal :=
  if truthy? request && truthy? sig then
    some ⟨request.getD .null, sig.getD .null, params.addresses,
      params.blockNumber.filter (· ≠ 0)⟩
  else none

def MsgPrincipal.toJson (msg : MsgPrincipal) : List (String × Json) :=
  [("data", msg.request), ("sig", msg.sig)] ++
    (msg.blockNumber.map fun blockNumber =>
      ("block_number", Json.str (toString blockNumber))).toList ++
    (msg.addresses.map fun addresses => ("addresses", Json.arr (addresses.map .str))).toList

/-- What the action does to the outside. -/
inductive PttEffect where
  | startPTT
  | askPrincipal (dict : List (String × Json))
  | pttResponse (response sig : Option Json)
  | onPTTEnd
  | onResponse (err : Option Json)
  | uncaught (exn : Exn)

/-! ## The principal node -/

/-- How the principal node answers an attempt: an error of the client, or a response, which
may have no body. -/
inductive PrincipalReply where
  | failed (err : { err : Json // err.truthy = true })
  | response (value : Option Json)

def epochStateTransitionErrorCode : Rat := -32002

/-- The attempt is made again if the retries are not used up. -/
def PrincipalReply.retriable : PrincipalReply → Bool
  | .failed _ => true
  | .response none => false
  | .response (some value) =>
      match value.get? "error" with
      | some error => error.get? "code" = some (.num epochStateTransitionErrorCode)
      | none => false

/-- How `getStateKeys` ends; an exception in the callback of the client leaves it pending. -/
inductive Settled where
  | rejected (err : { err : Json // err.truthy = true })
  | resolved (result : Option Json)
  | pending (exn : Exn)

/-- The rest of the callback of the client. -/
def PrincipalReply.settle : PrincipalReply → Settled
  | .failed err => .rejected err
  | .response none => .pending .typeError
  | .response (some .null) => .pending .typeError
  | .response (some value) =>
      match value.get? "error" with
      | some error =>
          if isError : error.truthy = true then .rejected ⟨error, isError⟩
          else .resolved (value.get? "result")
      | none => .resolved (value.get? "result")

/-- The attempts from number `i` on, with the retries that are left: how many there are, and
how the last one settles. -/
def requestKeys (replies : Nat → PrincipalReply) : Nat → Nat → Nat × Settled
  | 0, i => (i + 1, (replies i).settle)
  | retries + 1, i =>
      if (replies i).retriable then requestKeys replies retries (i + 1)
      else (i + 1, (replies i).settle)

/-- `retryOptions.retries`. -/
def retries : Nat := 10

/-! ## The action -/

variable (stringToNumber : String → Option Rat)

/-- `message.type === "Error"`. -/
def isErrorMessage (message : CoreMessage) : Bool :=
  message.lookup "type" = some (.str "Error")

def handleError (err : Option Json) : List PttEffect :=
  [.onPTTEnd, .onResponse err]

/-- An exception as the object that it is. -/
def exnValue (exn : Exn) : Json :=
  .obj [("name", .str exn.name)]

/-- The handler of the exceptions of `getStateKeys`. Its log text converts two properties. -/
def onPrincipalError (err : Json) : List PttEffect :=
  match keyOf (err.get? "code"), keyOf (err.get? "message") with
  | .ok _, .ok _ => handleError (some err)
  | .error exn, _ => [.uncaught exn]
  | _, .error exn => [.uncaught exn]

/-- `_buildRequestMsg`. -/
def buildRequestMsg (coreResponse : CoreMessage) (params : PttParams) :
    Except Exn (Option MsgPrincipal) :=
  match coreResponse.lookup "result" with
  | none => .error .typeError
  | some .null => .error .typeError
  | some result =>
      .ok (MsgPrincipal.build (result.get? "request") (result.get? "workerSig") params)

/-- `response.result.errors.length > 0`. -/
def hasErrors (response : CoreMessage) : Except Exn Bool :=
  match response.lookup "result" with
  | none => .error .typeError
  | some .null => .error .typeError
  | some result =>
      match result.get? "errors" with
      | none => .error .typeError
      | some .null => .error .typeError
      | some (.arr errors) => .ok (decide (0 < errors.length))
      | some (.str errors) => .ok (decide (0 < utf16Length errors.toList))
      | some (.obj errors) =>
          match errors.lookup "length" with
          | none => .ok false
          | some length => (length.toNumber stringToNumber).map (·.any (0 < ·))
      | some _ => .ok false

/-- The error branch of the callback of `_pttResponse`. The message is asked for its type in
the wrong variable. -/
def reportPttError (coreResponse response : CoreMessage) (err : Option Json) : List PttEffect :=
  if isErrorMessage coreResponse then handleError (coreResponse.lookup "msg")
  else if truthy? (response.lookup "result") then
    match hasErrors stringToNumber response with
    | .error exn => [.uncaught exn]
    | .ok true => handleError (response.lookup "result")
    | .ok false => handleError err
  else handleError err

/-- The callback of `_pttResponse`. -/
def onPttAnswer (coreResponse response : CoreMessage) : List PttEffect :=
  let err := response.lookup "error"
  if truthy? err || isErrorMessage response then
    reportPttError stringToNumber coreResponse response err
  else
    match hasErrors stringToNumber response with
    | .error exn => [.uncaught exn]
    | .ok true => reportPttError stringToNumber coreResponse response err
    | .ok false => [.onPTTEnd, .onResponse (some .null)]

/-- What follows when `getStateKeys` has settled. -/
def onSettled (coreResponse response : CoreMessage) : Settled → List PttEffect
  | .rejected err => onPrincipalError err.1
  | .pending exn => [.uncaught exn]
  | .resolved none => [.uncaught .typeError]
  | .resolved (some .null) => [.uncaught .typeError]
  | .resolved (some principalResponse) =>
      .pttResponse (principalResponse.get? "data") (principalResponse.get? "sig") ::
        onPttAnswer stringToNumber coreResponse response

/-- `onPTTRequestResponse`. Without a message `getStateKeys` rejects before it asks. -/
def onPTTRequestResponse (params : PttParams) (replies : Nat → PrincipalReply)
    (coreResponse response : CoreMessage) : List PttEffect :=
  let err := coreResponse.lookup "error"
  if truthy? err || isErrorMessage coreResponse then
    handleError (if isErrorMessage coreResponse then coreResponse.lookup "msg" else err)
  else
    match buildRequestMsg coreResponse params with
    | .error exn => onPrincipalError (exnValue exn)
    | .ok none => onPrincipalError (exnValue .error)
    | .ok (some msg) =>
        let (attempts, settled) := requestKeys replies retries 0
        List.replicate attempts (.askPrincipal msg.toJson) ++
          onSettled stringToNumber coreResponse response settled

/-- `execute`, with what it gets from core and from the principal node. -/
def getStateKeys (pttInProgress : Bool) (params : PttParams) (replies : Nat → PrincipalReply)
    (coreResponse response : CoreMessage) : List PttEffect :=
  if pttInProgress then
    [.onResponse (some (.str "PTT in progress.. aborting GetStateKeysAction"))]
  else
    .startPTT :: onPTTRequestResponse stringToNumber params replies coreResponse response

/-! ## What is claimed of a transfer -/

def PttEffect.isEnd : PttEffect → Bool
  | .onPTTEnd => true
  | _ => false

def PttEffect.reported : PttEffect → Option (Option Json)
  | .onResponse err => some err
  | _ => none

def PttEffect.isPttResponse : PttEffect → Bool
  | .pttResponse _ _ => true
  | _ => false

/-- The list of errors of an answer. -/
def errorsOf (response : CoreMessage) : Option Json := do
  (← response.lookup "result").get? "errors"

/-- No transport error, no `Error` message, and an empty list of errors. -/
structure AnswerOk (response : CoreMessage) : Prop where
  noError : truthy? (response.lookup "error") = false
  noErrorMessage : isErrorMessage response = false
  noErrors : errorsOf response = some (.arr [])

/-- The flag is released once, one result is reported, and it is success exactly if the answer
of core to the response of the principal node is good. -/
structure TransferRight (response : CoreMessage) (effects : List PttEffect) : Prop where
  released : effects.countP (·.isEnd) = 1
  reported : ∃ err, effects.filterMap (·.reported) = [err] ∧
    (truthy? err = false ↔
      (effects.any (·.isPttResponse) = true ∧ AnswerOk response))

/-- The reply that settles: the first that is not retried, or the last one. -/
def decisive (replies : Nat → PrincipalReply) : PrincipalReply :=
  replies (((List.range retries).find? fun i => !(replies i).retriable).getD retries)

/-- The principal node is asked: core answers with a request and a signature. -/
def AsksPrincipal (coreResponse : CoreMessage) : Prop :=
  truthy? (coreResponse.lookup "error") = false ∧ isErrorMessage coreResponse = false ∧
    ∃ result, coreResponse.lookup "result" = some result ∧
      truthy? (result.get? "request") = true ∧ truthy? (result.get? "workerSig") = true

/-- The two properties of an error can be written to the log. -/
def Printable (err : Json) : Prop :=
  (∃ text, keyOf (err.get? "code") = .ok text) ∧ ∃ text, keyOf (err.get? "message") = .ok text

/-- The settled reply of the principal node is an error that can be written, or has a result,
and then core answers cleanly. -/
def CleanSettled (clean : Prop) : Settled → Prop
  | .rejected err => Printable err.1
  | .pending _ => False
  | .resolved none => False
  | .resolved (some .null) => False
  | .resolved (some _) => clean

/-- With a transport error or an `Error` message there is an error to report: the transport
error, or a result with errors. Otherwise there is a list of errors. -/
def CleanAnswer (response : CoreMessage) : Prop :=
  if truthy? (response.lookup "error") || isErrorMessage response then
    if truthy? (response.lookup "result") then
      ∃ errors, hasErrors stringToNumber response = .ok errors ∧
        (truthy? (response.lookup "error") = true ∨ errors = true)
    else truthy? (response.lookup "error") = true
  else ∃ errors, hasErrors stringToNumber response = .ok errors ∧
    (errors = false → errorsOf response = some (.arr []))

/-- An `Error` message to the first request has a text; and where the principal node is asked,
its settled reply and the answer of core are clean. -/
structure CleanReplies (replies : Nat → PrincipalReply) (coreResponse response : CoreMessage) :
    Prop where
  request : isErrorMessage coreResponse = true → truthy? (coreResponse.lookup "msg") = true
  answers : AsksPrincipal coreResponse →
    CleanSettled (CleanAnswer stringToNumber response) (decisive replies).settle

/-! ## Ways out -/

variable {stringToNumber} {response : CoreMessage} {before : List PttEffect} {sent : Bool}

/-- Before the flag is released and a result is reported. -/
structure StillOpen (sent : Bool) (before : List PttEffect) : Prop where
  noEnd : before.countP (·.isEnd) = 0
  noReport : before.filterMap (·.reported) = []
  isSent : before.any (·.isPttResponse) = sent

theorem stillOpen_asked (attempts : Nat) (dict : List (String × Json)) :
    StillOpen false (.startPTT :: List.replicate attempts (.askPrincipal dict)) := by
  induction attempts with
  | zero => exact ⟨rfl, rfl, rfl⟩
  | succ attempts ih => exact ⟨ih.noEnd, ih.noReport, ih.isSent⟩

theorem StillOpen.send (stillOpen : StillOpen false before) (data sig : Option Json) :
    StillOpen true (before ++ [.pttResponse data sig]) where
  noEnd := by
    rw [List.countP_append, stillOpen.noEnd]
    rfl
  noReport := by
    rw [List.filterMap_append, stillOpen.noReport]
    rfl
  isSent := by
    rw [List.any_append, stillOpen.isSent]
    rfl

/-- What is reported has to be success exactly for a good answer. -/
theorem transferRight_handleError (stillOpen : StillOpen sent before) (err : Option Json) :
    TransferRight response (before ++ handleError err) ↔
      (truthy? err = false ↔ (sent = true ∧ AnswerOk response)) := by
  have ends : (before ++ handleError err).countP (·.isEnd) = 1 := by
    rw [List.countP_append, stillOpen.noEnd]
    rfl
  have reports : (before ++ handleError err).filterMap (·.reported) = [err] := by
    rw [List.filterMap_append, stillOpen.noReport]
    rfl
  have sends : (before ++ handleError err).any (·.isPttResponse) = sent := by
    rw [List.any_append, stillOpen.isSent]
    exact Bool.or_false sent
  constructor
  · rintro ⟨-, reported, isReported, right⟩
    rw [reports] at isReported
    cases isReported
    rw [sends] at right
    exact right
  · intro right
    rw [← sends] at right
    exact ⟨ends, err, reports, right⟩

/-- An exception keeps the flag. -/
theorem not_transferRight_uncaught (stillOpen : StillOpen sent before) (exn : Exn) :
    ¬ TransferRight response (before ++ [.uncaught exn]) := by
  intro right
  have released := right.released
  rw [List.countP_append, stillOpen.noEnd] at released
  cases released

/-- Without an answer of core, an error has to be reported. -/
theorem transferRight_unsent (stillOpen : StillOpen false before) (err : Option Json) :
    TransferRight response (before ++ handleError err) ↔ truthy? err = true := by
  rw [transferRight_handleError stillOpen]
  simp only [Bool.false_eq_true, false_and, iff_false, Bool.not_eq_false]

theorem transferRight_onPrincipalError (stillOpen : StillOpen false before)
    {err : Json} (isError : err.truthy = true) :
    TransferRight response (before ++ onPrincipalError err) ↔ Printable err := by
  rw [onPrincipalError, Printable]
  cases keyOf (err.get? "code") with
  | error exn =>
      refine iff_of_false (not_transferRight_uncaught stillOpen exn) ?_
      rintro ⟨⟨text, isText⟩, -⟩
      cases isText
  | ok code =>
      cases keyOf (err.get? "message") with
      | error exn =>
          refine iff_of_false (not_transferRight_uncaught stillOpen exn) ?_
          rintro ⟨-, text, isText⟩
          cases isText
      | ok message =>
          exact iff_of_true ((transferRight_unsent stillOpen _).mpr isError)
            ⟨⟨code, rfl⟩, message, rfl⟩

/-- An exception of the action itself is reported. -/
theorem transferRight_exnValue (stillOpen : StillOpen false before) (exn : Exn) :
    TransferRight response (before ++ onPrincipalError (exnValue exn)) :=
  (transferRight_onPrincipalError stillOpen rfl).mpr ⟨⟨_, rfl⟩, _, rfl⟩

/-! ## The answer of core -/

/-- An empty list has no errors. -/
theorem hasErrors_of_errorsOf (isEmpty : errorsOf response = some (.arr [])) :
    hasErrors stringToNumber response = .ok false := by
  rw [errorsOf, Option.bind_eq_bind, Option.bind_eq_some_iff] at isEmpty
  obtain ⟨result, isResult, noErrors⟩ := isEmpty
  cases result with
  | obj fields =>
      rw [Json.get?_obj] at noErrors
      simp only [hasErrors, isResult, Json.get?_obj, noErrors]
      rfl
  | _ => cases noErrors

/-- Errors are read from an object. -/
theorem truthy_of_hasErrors {errors : Bool}
    (isRead : hasErrors stringToNumber response = .ok errors) :
    truthy? (response.lookup "result") = true := by
  rw [hasErrors] at isRead
  cases isResult : response.lookup "result" with
  | none =>
      rw [isResult] at isRead
      cases isRead
  | some result =>
      rw [isResult] at isRead
      cases result with
      | obj fields => rfl
      | _ => cases isRead

theorem not_answerOk_of_failed
    (failed : (truthy? (response.lookup "error") || isErrorMessage response) = true) :
    ¬ AnswerOk response := by
  intro ok
  rw [ok.noError, ok.noErrorMessage] at failed
  cases failed

/-- An error to a failed answer is reported with the result or with the transport error. -/
theorem transferRight_reportPttError (stillOpen : StillOpen true before)
    {coreResponse : CoreMessage} (noErrorMessage : isErrorMessage coreResponse = false)
    (failed : (truthy? (response.lookup "error") || isErrorMessage response) = true) :
    TransferRight response (before ++
        reportPttError stringToNumber coreResponse response (response.lookup "error")) ↔
      if truthy? (response.lookup "result") then
        ∃ errors, hasErrors stringToNumber response = .ok errors ∧
          (truthy? (response.lookup "error") = true ∨ errors = true)
      else truthy? (response.lookup "error") = true := by
  have notOk := not_answerOk_of_failed failed
  have reports (err : Option Json) : TransferRight response (before ++ handleError err) ↔
      truthy? err = true := by
    rw [transferRight_handleError stillOpen]
    simp only [notOk, and_false, iff_false, Bool.not_eq_false]
  rw [reportPttError, noErrorMessage, if_neg Bool.false_ne_true]
  by_cases hasResult : truthy? (response.lookup "result") = true
  · rw [if_pos hasResult, if_pos hasResult]
    cases hasErrors stringToNumber response with
    | error exn =>
        refine iff_of_false (not_transferRight_uncaught stillOpen exn) ?_
        rintro ⟨errors, isRead, -⟩
        cases isRead
    | ok errors =>
        cases errors with
        | true => exact iff_of_true ((reports _).mpr hasResult) ⟨true, rfl, .inr rfl⟩
        | false =>
            rw [reports]
            constructor
            · exact fun isError => ⟨false, rfl, .inl isError⟩
            · rintro ⟨errors, isRead, isError | isTrue⟩
              · exact isError
              · cases isRead
                cases isTrue
  · rw [if_neg hasResult, if_neg hasResult]
    exact reports _

/-- The answer of core to the response of the principal node. -/
theorem transferRight_onPttAnswer (stillOpen : StillOpen true before) {coreResponse : CoreMessage}
    (noErrorMessage : isErrorMessage coreResponse = false) :
    TransferRight response (before ++ onPttAnswer stringToNumber coreResponse response) ↔
      CleanAnswer stringToNumber response := by
  rw [onPttAnswer, CleanAnswer]
  by_cases failed : (truthy? (response.lookup "error") || isErrorMessage response) = true
  · rw [if_pos failed, if_pos failed]
    exact transferRight_reportPttError stillOpen noErrorMessage failed
  · rw [if_neg failed, if_neg failed]
    have noError := Bool.or_eq_false_iff.mp (Bool.not_eq_true _ ▸ failed)
    cases isRead : hasErrors stringToNumber response with
    | error exn =>
        refine iff_of_false (not_transferRight_uncaught stillOpen exn) ?_
        rintro ⟨errors, isOk, -⟩
        cases isOk
    | ok errors =>
        cases errors with
        | true =>
            have hasResult := truthy_of_hasErrors isRead
            have reported : reportPttError stringToNumber coreResponse response
                (response.lookup "error") = handleError (response.lookup "result") := by
              rw [reportPttError, noErrorMessage, if_neg Bool.false_ne_true, if_pos hasResult,
                isRead]
            have notOk : ¬ AnswerOk response := by
              intro ok
              rw [hasErrors_of_errorsOf ok.noErrors] at isRead
              cases isRead
            refine iff_of_true ?_ ⟨true, rfl, nofun⟩
            change TransferRight response (before ++ reportPttError stringToNumber coreResponse
              response (response.lookup "error"))
            rw [reported, transferRight_handleError stillOpen]
            simp only [notOk, and_false, iff_false, Bool.not_eq_false]
            exact hasResult
        | false =>
            change TransferRight response (before ++ handleError (some .null)) ↔ _
            rw [transferRight_handleError stillOpen]
            constructor
            · intro right
              exact ⟨false, rfl, fun _ => (right.mp rfl).2.noErrors⟩
            · rintro ⟨errors, isOk, noErrors⟩
              cases isOk
              exact iff_of_true rfl ⟨rfl, noError.1, noError.2, noErrors rfl⟩

/-! ## The principal node -/

/-- The reply that settles is the first from number `i` on that is not retried. -/
theorem requestKeys_settled (replies : Nat → PrincipalReply) (retriesLeft i : Nat) :
    (requestKeys replies retriesLeft i).2 =
      (replies (((List.range' i retriesLeft).find? fun j => !(replies j).retriable).getD
        (i + retriesLeft))).settle := by
  induction retriesLeft generalizing i with
  | zero => rfl
  | succ retriesLeft ih =>
      rw [requestKeys, List.range'_succ, List.find?_cons]
      cases (replies i).retriable with
      | true =>
          rw [if_pos rfl, ih, Nat.add_right_comm]
          rfl
      | false => rfl

theorem requestKeys_decisive (replies : Nat → PrincipalReply) :
    (requestKeys replies retries 0).2 = (decisive replies).settle := by
  rw [requestKeys_settled, Nat.zero_add, ← List.range_eq_range']
  rfl

theorem transferRight_onSettled {attempts : Nat} {dict : List (String × Json)}
    {coreResponse : CoreMessage} (noErrorMessage : isErrorMessage coreResponse = false)
    (settled : Settled) :
    TransferRight response (.startPTT :: (List.replicate attempts (.askPrincipal dict) ++
        onSettled stringToNumber coreResponse response settled)) ↔
      CleanSettled (CleanAnswer stringToNumber response) settled := by
  have stillOpen := stillOpen_asked attempts dict
  rw [← List.cons_append]
  cases settled with
  | rejected err => exact transferRight_onPrincipalError stillOpen err.2
  | pending exn => exact iff_of_false (not_transferRight_uncaught stillOpen exn) not_false
  | resolved result =>
      cases result with
      | none => exact iff_of_false (not_transferRight_uncaught stillOpen _) not_false
      | some principalResponse =>
          cases principalResponse with
          | null => exact iff_of_false (not_transferRight_uncaught stillOpen _) not_false
          | _ =>
              rw [onSettled, List.append_cons]
              · exact transferRight_onPttAnswer (stillOpen.send _ _) noErrorMessage
              · rintro ⟨⟩

/-! ## A transfer -/

/-- A message is built exactly where the principal node is asked. -/
theorem asksPrincipal_iff {coreResponse : CoreMessage}
    (noError : truthy? (coreResponse.lookup "error") = false)
    (noErrorMessage : isErrorMessage coreResponse = false) (params : PttParams) :
    AsksPrincipal coreResponse ↔ ∃ msg, buildRequestMsg coreResponse params = .ok (some msg) := by
  rw [AsksPrincipal, buildRequestMsg]
  constructor
  · rintro ⟨-, -, result, isResult, hasRequest, hasSig⟩
    have both : (truthy? (result.get? "request") && truthy? (result.get? "workerSig")) = true := by
      rw [hasRequest, hasSig]
      rfl
    cases result with
    | obj fields =>
        rw [isResult]
        exact ⟨_, congrArg Except.ok (if_pos both)⟩
    | _ => cases hasRequest
  · rintro ⟨msg, isMsg⟩
    cases isResult : coreResponse.lookup "result" with
    | none =>
        rw [isResult] at isMsg
        cases isMsg
    | some result =>
        rw [isResult] at isMsg
        cases result with
        | obj fields =>
            have built := Except.ok.inj isMsg
            rw [MsgPrincipal.build] at built
            split at built
            · rename_i both
              have parts := Bool.and_eq_true_iff.mp both
              exact ⟨noError, noErrorMessage, .obj fields, rfl, parts.1, parts.2⟩
            · cases built
        | _ => cases isMsg

/-- A transfer is right exactly if the replies are clean. -/
theorem transferRight_iff (params : PttParams) (replies : Nat → PrincipalReply)
    (coreResponse response : CoreMessage) :
    TransferRight response
        (getStateKeys stringToNumber false params replies coreResponse response) ↔
      CleanReplies stringToNumber replies coreResponse response := by
  rw [getStateKeys, if_neg Bool.false_ne_true, onPTTRequestResponse]
  by_cases failed :
      (truthy? (coreResponse.lookup "error") || isErrorMessage coreResponse) = true
  · rw [if_pos failed]
    refine (transferRight_unsent (stillOpen_asked 0 []) _).trans ?_
    have notAsked : ¬ AsksPrincipal coreResponse := by
      rintro ⟨noError, noErrorMessage, -⟩
      rw [noError, noErrorMessage] at failed
      cases failed
    by_cases isMessage : isErrorMessage coreResponse = true
    · rw [if_pos isMessage]
      exact ⟨fun hasText => ⟨fun _ => hasText, fun asks => absurd asks notAsked⟩,
        fun clean => clean.request isMessage⟩
    · rw [if_neg isMessage]
      have isError := (Bool.or_eq_true_iff.mp failed).resolve_right isMessage
      exact iff_of_true isError
        ⟨fun isOther => absurd isOther isMessage, fun asks => absurd asks notAsked⟩
  · rw [if_neg failed]
    have noError := Bool.or_eq_false_iff.mp (Bool.not_eq_true _ ▸ failed)
    have noMessage : ¬ isErrorMessage coreResponse = true := by
      rw [noError.2]
      exact Bool.false_ne_true
    have asks := asksPrincipal_iff noError.1 noError.2 params
    cases built : buildRequestMsg coreResponse params with
    | error exn =>
        rw [built] at asks
        refine iff_of_true (transferRight_exnValue (stillOpen_asked 0 []) exn)
          ⟨fun isMessage => absurd isMessage noMessage, fun asked => ?_⟩
        obtain ⟨msg, isMsg⟩ := asks.mp asked
        cases isMsg
    | ok msg =>
        cases msg with
        | none =>
            rw [built] at asks
            refine iff_of_true (transferRight_exnValue (stillOpen_asked 0 []) .error)
              ⟨fun isMessage => absurd isMessage noMessage, fun asked => ?_⟩
            obtain ⟨msg, isMsg⟩ := asks.mp asked
            cases isMsg
        | some msg =>
            have asked := asks.mpr ⟨msg, built⟩
            refine (transferRight_onSettled noError.2 (requestKeys replies retries 0).2).trans ?_
            rw [requestKeys_decisive]
            exact ⟨fun clean => ⟨fun isMessage => absurd isMessage noMessage, fun _ => clean⟩,
              fun clean => clean.answers asked⟩

/-- The request of core, as it is documented. -/
def requested : CoreMessage :=
  [("id", .str "1"), ("type", .str "GetPTTRequest"),
    ("result", .obj [("request", .str "ab"), ("workerSig", .str "cd")])]

/-- The principal node answers with the keys. -/
def keysReply : PrincipalReply :=
  .response (some (.obj [("result", .obj [("data", .str "ef"), ("sig", .str "01")])]))

/-- An `Error` message of core to the keys. -/
def refusal : CoreMessage :=
  [("id", .str "2"), ("type", .str "Error"), ("msg", .str "keys not decrypted")]

/-- The refused keys are reported as success; and a response of the principal node without a
result keeps the flag. -/
theorem transferRight_wrong :
    (getStateKeys (fun _ => none) false ⟨none, none⟩ (fun _ => keysReply) requested
        refusal).filterMap (·.reported) = [none] ∧
      ¬ TransferRight refusal (getStateKeys (fun _ => none) false ⟨none, none⟩
        (fun _ => keysReply) requested refusal) ∧
    (getStateKeys (fun _ => none) false ⟨none, none⟩ (fun _ => .response (some (.obj [])))
        requested refusal).countP (·.isEnd) = 0 ∧
      ¬ TransferRight refusal (getStateKeys (fun _ => none) false ⟨none, none⟩
        (fun _ => .response (some (.obj []))) requested refusal) := by
  refine ⟨rfl, fun right => ?_, rfl, fun right => ?_⟩
  · obtain ⟨err, isReported, isRight⟩ := right.reported
    cases isReported
    have ok := (isRight.mp rfl).2.noErrorMessage
    cases ok
  · have released := right.released
    cases released

end Tasks
