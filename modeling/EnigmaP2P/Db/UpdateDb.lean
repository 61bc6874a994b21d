import EnigmaP2P.Core.Dispatch
import EnigmaP2P.Sync.Receiver

/-!
# What a write to the core reports

The response of the core is wrapped by `SendToCoreAction`, taken apart by the worker's
`DbRequestAction`, and read by its `UpdateDbAction`. The last one reads `status` and `errors`
at the top level only, where the documentation of the messages has both in `result`. Without
them, it reports the status that is not there as its error, and that is success.
-/

namespace Db

open Js Core Sync

/-- How a message to the core is answered: the IPC client reports an error, or passes on a
response. -/
inductive CoreAnswer where
  | failed (err : { err : Json // err.truthy = true })
  | response (msg : CoreResponse)

/-- The callback of `sendJsonAndReceive`: an error becomes the response. -/
def onAnswer (err : Option Json) (responseMsg : CoreResponse) : CoreResponse :=
  if truthy? err then [("error", err.getD .null)] else responseMsg

/-- The message that an answer makes of it. -/
def CoreAnswer.responseMsg : CoreAnswer → CoreResponse
  | .failed err => onAnswer (some err.1) []
  | .response msg => onAnswer none msg

/-- `SendToCoreAction` on an answer, up to the response envelop. -/
def sendToCoreResponse (randId id : String) (answer : CoreAnswer) : Except Exn Envelop :=
  newEnvelop randId (some (.str id)) (some (.obj answer.responseMsg)) "dbreq"

/-- The arguments that the worker's `UpdateDbAction` hands to its callback; it gets those that
`DbRequestAction` takes from the response envelop. -/
def updateDb (randId id : String) (answer : CoreAnswer) :
    Except Exn (Option Json × CoreResponse) := do
  let responseEnvelop ← sendToCoreResponse randId id answer
  match responseEnvelop.content with
  | .obj parsedResponse => pure (updateDbError parsedResponse, parsedResponse)
  | _ => .error .typeError

/-- The status inside `result`, as the messages are documented. -/
def resultStatus (msg : CoreResponse) : Option Json :=
  match msg.lookup "result" with
  | some (.obj result) => result.lookup "status"
  | _ => none

/-- The answer is a response with the status `OK`, at the top level or inside `result`. -/
def CoreAnswer.CarriesOk : CoreAnswer → Prop
  | .failed _ => False
  | .response msg => msg.lookup "status" = some (.num 0) ∨
      (msg.lookup "status" = none ∧ resultStatus msg = some (.num 0))

/-- Success is reported exactly for the status `OK`. -/
def ReportedRight (randId id : String) (answer : CoreAnswer) : Prop :=
  ∃ error result, updateDb randId id answer = .ok (error, result) ∧
    (truthy? error = false ↔ answer.CarriesOk)

/-- A field of the top level that is there and truthy. -/
def Says (msg : CoreResponse) (key : String) : Prop :=
  truthy? (msg.lookup key) = true

/-- A status at the top level is `OK` without an error, or it is truthy or comes with an error;
and without one, the status in `result` is `OK` exactly if there is no error. -/
def CoreAnswer.Plain : CoreAnswer → Prop
  | .failed _ => True
  | .response msg =>
      match msg.lookup "status" with
      | none => resultStatus msg = some (.num 0) ↔ ¬ Says msg "error" ∧ ¬ Says msg "errors"
      | some status =>
          (status = .num 0 → ¬ Says msg "error") ∧
            (status ≠ .num 0 → status.truthy = true ∨ Says msg "error" ∨ Says msg "errors")

/-! ## What is reported -/

/-- An id that is given to a response does not change what is read of it. -/
theorem updateDbError_setField_id (msg : CoreResponse) (value : Json) :
    updateDbError (setField "id" value msg) = updateDbError msg := by
  simp only [updateDbError, lookup_setField_ne (show "error" ≠ "id" by decide),
    lookup_setField_ne (show "errors" ≠ "id" by decide),
    lookup_setField_ne (show "status" ≠ "id" by decide)]

/-- The error that is reported is read from the response. -/
theorem updateDb_eq (randId id : String) (answer : CoreAnswer) :
    ∃ result, updateDb randId id answer = .ok (updateDbError answer.responseMsg, result) := by
  rw [updateDb, sendToCoreResponse, newEnvelop]
  by_cases hasId : (hasProperty "id" answer.responseMsg ||
      (envelopId randId (some (.str id))).isNone) = true
  · simp only [if_pos hasId]
    exact ⟨_, rfl⟩
  · simp only [if_neg hasId]
    refine ⟨setField "id" (.str randId) answer.responseMsg, ?_⟩
    rw [← updateDbError_setField_id answer.responseMsg (.str randId)]
    rfl

/-- `UpdateDbAction` reports success for the status `OK`, and where nothing says otherwise. -/
theorem updateDbError_falsy_iff (msg : CoreResponse) :
    truthy? (updateDbError msg) = false ↔ ¬ Says msg "error" ∧
      (msg.lookup "status" = some (.num 0) ∨
        (¬ Says msg "errors" ∧ truthy? (msg.lookup "status") = false)) := by
  rw [updateDbError, Says, Says]
  by_cases hasError : truthy? (msg.lookup "error") = true
  · simp only [hasError, if_true, not_true, false_and, Bool.true_eq_false]
  · simp only [hasError, Bool.false_eq_true, if_false, not_false_iff, true_and]
    by_cases isOk : msg.lookup "status" = some (.num 0)
    · simp only [isOk, ne_eq, not_true, if_false, true_or, iff_true]
      exact Bool.not_eq_true _ ▸ hasError
    · simp only [isOk, ne_eq, not_false_iff, if_true, false_or]
      by_cases hasErrors : truthy? (msg.lookup "errors") = true
      · simp only [hasErrors, if_true, not_true, false_and, Bool.true_eq_false]
      · simp only [hasErrors, Bool.false_eq_true, if_false, not_false_iff, true_and]

/-- An error of the IPC client is reported. -/
theorem truthy_updateDbError_failed (err : { err : Json // err.truthy = true }) :
    truthy? (updateDbError (CoreAnswer.failed err).responseMsg) = true := by
  have isError : (CoreAnswer.failed err).responseMsg = [("error", err.1)] := by
    rw [CoreAnswer.responseMsg, onAnswer, truthy?_some, err.2]
    rfl
  have found : [("error", err.1)].lookup "error" = some err.1 := rfl
  rw [isError, updateDbError]
  simp only [found, truthy?_some, err.2, if_true]

theorem reportedRight_iff_reported (randId id : String) (answer : CoreAnswer) :
    ReportedRight randId id answer ↔
      (truthy? (updateDbError answer.responseMsg) = false ↔ answer.CarriesOk) := by
  obtain ⟨reported, isReported⟩ := updateDb_eq randId id answer
  constructor
  · rintro ⟨error, result, isResult, right⟩
    cases isReported.symm.trans isResult
    exact right
  · exact fun right => ⟨_, reported, isReported, right⟩

theorem reportedRight_failed (randId id : String) (err : { err : Json // err.truthy = true }) :
    ReportedRight randId id (.failed err) := by
  rw [reportedRight_iff_reported, truthy_updateDbError_failed]
  exact iff_of_false (fun same => nomatch same) (fun carriesOk => carriesOk)

theorem reportedRight_response (randId id : String) (msg : CoreResponse) :
    ReportedRight randId id (.response msg) ↔ (CoreAnswer.response msg).Plain := by
  rw [reportedRight_iff_reported]
  change (truthy? (updateDbError msg) = false ↔ _) ↔ _
  rw [updateDbError_falsy_iff, CoreAnswer.CarriesOk, CoreAnswer.Plain]
  cases isStatus : msg.lookup "status" with
  | none =>
      simp only [reduceCtorEq, truthy?_none, false_or, and_true, true_and]
      exact iff_comm
  | some status =>
      simp only [Option.some.injEq, truthy?_some, reduceCtorEq, false_and, or_false]
      by_cases isOk : status = .num 0
      · simp only [isOk, true_or, and_true, iff_true, true_implies, ne_eq, not_true,
          false_implies]
      · simp only [isOk, false_or, iff_false, false_implies, ne_eq, not_false_iff, true_implies,
          true_and]
        rw [← Bool.not_eq_true]
        tauto

/-- Of the responses that the documentation describes, with `status` and `errors` in `result`,
those with the status `OK` are reported as they should be, and no others. -/
theorem reportedRight_documented (randId id : String) {msg : CoreResponse}
    (noStatus : msg.lookup "status" = none) (noErrors : msg.lookup "errors" = none)
    (noError : msg.lookup "error" = none) :
    ReportedRight randId id (.response msg) ↔ resultStatus msg = some (.num 0) := by
  have silent : ¬ Says msg "error" ∧ ¬ Says msg "errors" := by
    rw [Says, Says, noError, noErrors]
    exact ⟨Bool.false_ne_true, Bool.false_ne_true⟩
  rw [reportedRight_response, CoreAnswer.Plain, noStatus]
  exact iff_true_right silent

/-- Success is reported exactly for the status `OK` if and only if the answer is plain. -/
theorem reportedRight_iff (randId id : String) (answer : CoreAnswer) :
    ReportedRight randId id answer ↔ answer.Plain := by
  cases answer with
  | failed err => exact iff_of_true (reportedRight_failed randId id err) trivial
  | response msg => exact reportedRight_response randId id msg

/-- The documented response to deltas that could not be written. -/
def notWritten : CoreResponse :=
  [("id", .str "1"), ("type", .str "UpdateDeltas"), ("result", .obj [("status", .num 1)])]

/-- It is reported as success. -/
theorem reportedRight_wrong :
    updateDb "2" "1" (.response notWritten) = .ok (none, notWritten) ∧
      ¬ ReportedRight "2" "1" (.response notWritten) := by
  refine ⟨rfl, ?_⟩
  rw [reportedRight_documented _ _ rfl rfl rfl]
  intro isOk
  cases isOk

end Db
