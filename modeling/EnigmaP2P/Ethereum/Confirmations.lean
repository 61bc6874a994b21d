import EnigmaP2P.Transition.Runs
import Mathlib.Data.List.Induction

/-!
# Waiting for confirmations

`subscribe` of the contract's reader parses each log of an event, reads the number of the
current block, and then watches the block headers until enough blocks have followed: only then
the callback gets the parsed log. The logs, the answers to the reads and the headers come in
any order.

The subscription to the headers ends behind the call of the callback. If the callback throws,
it does not end, and the callback is called again at the next header. The error of a header is
passed on under a name that does not exist, so nothing happens then.
-/

namespace Ethereum

open Transition

/-- How far a log is: the block number is being read, or the headers are watched, or nothing
more happens. -/
inductive LogStage where
  | reading
  | waiting (confirmedBlockNumber : Nat)
  | ended
  deriving DecidableEq

structure Watched (ρ : Type) where
  result : ρ
  stage : LogStage
  deriving DecidableEq

/-- A call of the callback for a log, and whether it returns. -/
structure WatcherCall (ρ : Type) where
  index : Nat
  argument : Except String ρ
  returns : Bool

/-- The logs in the order in which they came. -/
structure Watcher (ρ : Type) where
  logs : List (Watched ρ)
  calls : List (WatcherCall ρ)

inductive WatcherLabel (ε : Type) where
  | data (event : ε)
  /-- `getEthereumBlockNumber` for log `i`; `none` if it fails. -/
  | answered (i : Nat) (startingBlockNumber : Option Nat)
  /-- A header, or an error, for the subscription of log `i`, and whether the callback returns
  if it is called. -/
  | header (i : Nat) (number : Option Nat) (returns : Bool)
  | error (i : Nat) (err : String)

namespace Watcher

variable {ρ : Type}

def initial : Watcher ρ := ⟨[], []⟩

def setStage (state : Watcher ρ) (i : Nat) (log : Watched ρ) (stage : LogStage) : Watcher ρ :=
  { state with logs := state.logs.set i { log with stage } }

def call (state : Watcher ρ) (call : WatcherCall ρ) : Watcher ρ :=
  { state with calls := state.calls ++ [call] }

/-- What the callback got for a log, in calls that returned. -/
def deliveries (state : Watcher ρ) (i : Nat) : List ρ :=
  state.calls.filterMap fun call =>
    match call.argument with
    | .ok result => if call.index = i ∧ call.returns then some result else none
    | .error _ => none

end Watcher

section

variable {ε ρ : Type} (parse : ε → Option ρ) (minimumConfirmations : Nat)

/-- The handlers of `subscribe`. A parser that throws leaves nothing. -/
def watcherStep (state : Watcher ρ) : WatcherLabel ε → Watcher ρ
  | .data event =>
      match parse event with
      | none => state
      | some result => { state with logs := state.logs ++ [⟨result, .reading⟩] }
  | .answered i startingBlockNumber =>
      match state.logs[i]? with
      | some ⟨result, .reading⟩ =>
          state.setStage i ⟨result, .reading⟩ (match startingBlockNumber with
            | none => .ended
            | some number => .waiting (number + minimumConfirmations))
      | _ => state
  | .header i number returns =>
      match state.logs[i]?, number with
      | some ⟨result, .waiting confirmedBlockNumber⟩, some number =>
          if confirmedBlockNumber ≤ number then
            let called := state.call ⟨i, .ok result, returns⟩
            if returns then called.setStage i ⟨result, .waiting confirmedBlockNumber⟩ .ended
            else called
          else state
      | _, _ => state
  | .error i err =>
      match state.logs[i]? with
      | some ⟨_, .waiting _⟩ => state.call ⟨i, .error err, true⟩
      | _ => state

/-- A read of the block number is answered once. -/
def AnsweredOnce (state : Watcher ρ) : WatcherLabel ε → Prop
  | .answered i _ => state.logs[i]?.map (·.stage) = some .reading
  | _ => True

/-- At some label the log has enough confirmations, and the callback returns. -/
def Confirmed (labels : List (WatcherLabel ε)) (i : Nat) : Prop :=
  Happens (fun before label => ∃ startingBlockNumber number,
    label = .header i (some number) true ∧
      .answered i (some startingBlockNumber) ∈ before ∧
      startingBlockNumber + minimumConfirmations ≤ number) labels

/-- What is known of a log after some labels. -/
inductive LogInv (passed : List (WatcherLabel ε)) (state : Watcher ρ) (i : Nat) : Prop where
  | absent (noLog : state.logs[i]? = none)
      (unanswered : ∀ number, .answered i number ∉ passed) (undelivered : state.deliveries i = [])
  | reading (result : ρ) (isLog : state.logs[i]? = some ⟨result, .reading⟩)
      (unanswered : ∀ number, .answered i number ∉ passed) (undelivered : state.deliveries i = [])
  | waiting (result : ρ) (start : Nat)
      (isLog : state.logs[i]? = some ⟨result, .waiting (start + minimumConfirmations)⟩)
      (answered : .answered i (some start) ∈ passed)
      (once : ∀ number, .answered i number ∈ passed → number = some start)
      (unconfirmed : ¬ Confirmed minimumConfirmations passed i)
      (undelivered : state.deliveries i = [])
  | failed (result : ρ) (isLog : state.logs[i]? = some ⟨result, .ended⟩)
      (unanswered : ∀ number, .answered i (some number) ∉ passed)
      (undelivered : state.deliveries i = [])
  | delivered (result : ρ) (isLog : state.logs[i]? = some ⟨result, .ended⟩)
      (confirmed : Confirmed minimumConfirmations passed i)
      (delivered : state.deliveries i = [result])

end

section

variable {ε ρ : Type} {parse : ε → Option ρ} {minimumConfirmations : Nat}
  {passed : List (WatcherLabel ε)} {state : Watcher ρ} {label : WatcherLabel ε} {i : Nat}

/-! ## One label more -/

theorem confirmed_concat : Confirmed minimumConfirmations (passed ++ [label]) i ↔
    Confirmed minimumConfirmations passed i ∨ ∃ start number,
      label = .header i (some number) true ∧ .answered i (some start) ∈ passed ∧
        start + minimumConfirmations ≤ number :=
  happens_concat

theorem not_confirmed_of_unanswered
    (unanswered : ∀ number, .answered i (some number) ∉ passed) :
    ¬ Confirmed minimumConfirmations passed i := by
  rintro ⟨before, label, after, rfl, start, number, -, answered, -⟩
  exact unanswered start (List.mem_append_left _ answered)

@[simp] theorem deliveries_setStage (j : Nat) (log : Watched ρ) (stage : LogStage) :
    (state.setStage j log stage).deliveries i = state.deliveries i := rfl

theorem deliveries_call (call : WatcherCall ρ) :
    (state.call call).deliveries i = state.deliveries i ++ (match call.argument with
      | .ok result => if call.index = i ∧ call.returns then [result] else []
      | .error _ => []) := by
  rw [Watcher.deliveries, Watcher.call, List.filterMap_append, ← Watcher.deliveries]
  congr 1
  rcases call with ⟨index, _ | result, returns⟩
  · rfl
  · rw [List.filterMap_cons]
    dsimp only
    split
    · rename_i none
      split at none
      · cases none
      · rename_i other
        rw [if_neg other, List.filterMap_nil]
    · rename_i some
      split at some
      · rename_i here
        cases some
        rw [if_pos here, List.filterMap_nil]
      · cases some

/-- A label that is no answer for the log adds none. -/
theorem mem_answered_concat (noAnswer : ∀ number, label ≠ .answered i number)
    {number : Option Nat} :
    .answered i number ∈ passed ++ [label] ↔ .answered i number ∈ passed := by
  rw [List.mem_append, List.mem_singleton]
  exact or_iff_left fun same => noAnswer number same.symm

/-- A label that changes nothing for a log, and brings no confirmation for which it waits. -/
theorem LogInv.keep {after : Watcher ρ} (inv : LogInv minimumConfirmations passed state i)
    (sameLog : after.logs[i]? = state.logs[i]?)
    (sameDeliveries : after.deliveries i = state.deliveries i)
    (noAnswer : ∀ number, label ≠ .answered i number)
    (notEnough : ∀ result confirmedBlockNumber number,
      state.logs[i]? = some ⟨result, .waiting confirmedBlockNumber⟩ →
        label = .header i (some number) true → ¬ confirmedBlockNumber ≤ number) :
    LogInv minimumConfirmations (passed ++ [label]) after i := by
  have answers := fun number =>
    @mem_answered_concat ε passed label i noAnswer number
  cases inv with
  | absent noLog unanswered undelivered =>
      exact .absent (sameLog.trans noLog) (fun number => mt (answers number).mp (unanswered number))
        (sameDeliveries.trans undelivered)
  | reading result isLog unanswered undelivered =>
      exact .reading result (sameLog.trans isLog)
        (fun number => mt (answers number).mp (unanswered number))
        (sameDeliveries.trans undelivered)
  | waiting result start isLog answered once unconfirmed undelivered =>
      refine .waiting result start (sameLog.trans isLog) ((answers _).mpr answered)
        (fun number member => once number ((answers number).mp member)) ?_
        (sameDeliveries.trans undelivered)
      rw [confirmed_concat]
      rintro (already | ⟨other, number, isHeader, isAnswer, enough⟩)
      · exact unconfirmed already
      · cases once _ isAnswer
        exact notEnough result _ number isLog isHeader enough
  | failed result isLog unanswered undelivered =>
      exact .failed result (sameLog.trans isLog)
        (fun number => mt (answers _).mp (unanswered number)) (sameDeliveries.trans undelivered)
  | delivered result isLog confirmed delivered =>
      exact .delivered result (sameLog.trans isLog) (confirmed_concat.mpr (.inl confirmed))
        (sameDeliveries.trans delivered)

/-- A new log. -/
theorem LogInv.data (inv : LogInv minimumConfirmations passed state i) (event : ε) :
    LogInv minimumConfirmations (passed ++ [.data event])
      (watcherStep parse minimumConfirmations state (.data event)) i := by
  have noAnswer : ∀ number, WatcherLabel.data event ≠ .answered i number := by rintro _ ⟨⟩
  rw [watcherStep]
  split
  · exact inv.keep rfl rfl noAnswer (by rintro _ _ _ _ ⟨⟩)
  · rename_i result _
    rcases Nat.lt_trichotomy i state.logs.length with below | rfl | above
    · exact inv.keep (List.getElem?_append_left below) rfl noAnswer (by rintro _ _ _ _ ⟨⟩)
    · cases inv with
      | absent noLog unanswered undelivered =>
          exact .reading result List.getElem?_concat_length
            (fun number => mt (mem_answered_concat noAnswer).mp (unanswered number)) undelivered
      | _ => simp_all
    · refine inv.keep ?_ rfl noAnswer (by rintro _ _ _ _ ⟨⟩)
      rw [List.getElem?_eq_none (Nat.le_of_lt above), List.getElem?_eq_none]
      rw [List.length_append]
      exact above

/-- The answer to the read of a log that waits for it. -/
theorem LogInv.answered (inv : LogInv minimumConfirmations passed state i) {j : Nat}
    {startingBlockNumber : Option Nat}
    (allowed : AnsweredOnce state (.answered j startingBlockNumber : WatcherLabel ε)) :
    LogInv minimumConfirmations (passed ++ [.answered j startingBlockNumber])
      (watcherStep parse minimumConfirmations state (.answered j startingBlockNumber)) i := by
  obtain ⟨⟨own, stage⟩, isOwn, isReading⟩ := Option.map_eq_some_iff.mp allowed
  cases isReading
  simp only [watcherStep, isOwn]
  by_cases same : j = i
  · subst same
    cases inv with
    | reading result isLog unanswered undelivered =>
        cases isOwn.symm.trans isLog
        have inside := (List.getElem?_eq_some_iff.mp isOwn).1
        cases startingBlockNumber with
        | none =>
            refine .failed own (List.getElem?_set_self inside) (fun number member => ?_) undelivered
            rcases List.mem_append.mp member with before | last
            · exact unanswered _ before
            · cases List.mem_singleton.mp last
        | some start =>
            have once : ∀ number, WatcherLabel.answered j number ∈
                passed ++ [.answered j (some start)] → number = some start := by
              intro number member
              rcases List.mem_append.mp member with before | last
              · exact absurd before (unanswered number)
              · cases List.mem_singleton.mp last
                rfl
            refine .waiting own start (List.getElem?_set_self inside)
              (List.mem_append_right _ List.mem_cons_self) once ?_ undelivered
            rw [confirmed_concat]
            rintro (already | ⟨_, _, ⟨⟩, -⟩)
            exact not_confirmed_of_unanswered (fun number => unanswered (some number)) already
    | _ => simp_all
  · refine inv.keep (List.getElem?_set_ne same) rfl ?_ (by rintro _ _ _ _ ⟨⟩)
    intro number isSame
    cases isSame
    exact same rfl

/-- Calls with an error deliver nothing. -/
theorem LogInv.error (inv : LogInv minimumConfirmations passed state i) (j : Nat) (err : String) :
    LogInv minimumConfirmations (passed ++ [.error j err])
      (watcherStep parse minimumConfirmations state (.error j err)) i := by
  rw [watcherStep]
  split
  · refine inv.keep rfl ?_ (by rintro _ ⟨⟩) (by rintro _ _ _ _ ⟨⟩)
    rw [deliveries_call, List.append_nil]
  · exact inv.keep rfl rfl (by rintro _ ⟨⟩) (by rintro _ _ _ _ ⟨⟩)

/-- A header for the subscription of some log. -/
theorem LogInv.header (inv : LogInv minimumConfirmations passed state i) (j : Nat)
    (number : Option Nat) (returns : Bool) :
    LogInv minimumConfirmations (passed ++ [.header j number returns])
      (watcherStep parse minimumConfirmations state (.header j number returns)) i := by
  have noAnswer : ∀ answer, WatcherLabel.header (ε := ε) j number returns ≠ .answered i answer := by
    rintro _ ⟨⟩
  simp only [watcherStep.eq_def]
  split
  · rename_i own confirmedBlockNumber number isOwn
    split
    · rename_i enough
      by_cases same : j = i
      · subst same
        cases inv with
        | waiting result start isLog answered once unconfirmed undelivered =>
            cases isOwn.symm.trans isLog
            cases returns with
            | true =>
                refine .delivered own
                  (List.getElem?_set_self (List.getElem?_eq_some_iff.mp isOwn).1)
                  (confirmed_concat.mpr (.inr ⟨start, number, rfl, answered, enough⟩)) ?_
                rw [if_pos rfl, deliveries_setStage, deliveries_call, undelivered]
                exact if_pos ⟨rfl, rfl⟩
            | false =>
                refine .waiting own start isLog ((mem_answered_concat noAnswer).mpr answered)
                  (fun answer member => once answer ((mem_answered_concat noAnswer).mp member))
                  ?_ ?_
                · rw [confirmed_concat]
                  rintro (already | ⟨_, _, ⟨⟩, -⟩)
                  exact unconfirmed already
                · rw [if_neg Bool.false_ne_true, deliveries_call, undelivered]
                  exact if_neg fun called => Bool.false_ne_true called.2
        | _ => simp_all
      · refine inv.keep ?_ ?_ noAnswer ?_
        · split
          · exact List.getElem?_set_ne same
          · rfl
        · have other : ∀ called : WatcherCall ρ, called = ⟨j, .ok own, returns⟩ →
              (state.call called).deliveries i = state.deliveries i := by
            rintro called rfl
            rw [deliveries_call]
            dsimp only
            rw [if_neg fun here => same here.1, List.append_nil]
          split
          · exact other _ rfl
          · exact other _ rfl
        · rintro _ _ _ _ ⟨⟩
          exact absurd rfl same
    · rename_i tooFew
      refine inv.keep rfl rfl noAnswer ?_
      rintro result other number isLog ⟨⟩
      cases isOwn.symm.trans isLog
      exact tooFew
  · rename_i noneWaiting
    refine inv.keep rfl rfl noAnswer ?_
    rintro result other number isLog ⟨⟩
    exact absurd rfl (noneWaiting result other number isLog)

theorem LogInv.step (inv : LogInv minimumConfirmations passed state i)
    (allowed : AnsweredOnce state label) :
    LogInv minimumConfirmations (passed ++ [label])
      (watcherStep parse minimumConfirmations state label) i := by
  cases label with
  | data event => exact inv.data event
  | answered j startingBlockNumber => exact inv.answered allowed
  | header j number returns => exact inv.header j number returns
  | error j err => exact inv.error j err

/-! ## Runs -/

/-- The events among the labels. -/
def eventsOf (labels : List (WatcherLabel ε)) : List ε :=
  labels.filterMap fun label =>
    match label with
    | .data event => some event
    | _ => none

theorem results_setStage {j : Nat} {log : Watched ρ} (isLog : state.logs[j]? = some log)
    (stage : LogStage) :
    (state.setStage j log stage).logs.map (·.result) = state.logs.map (·.result) := by
  obtain ⟨inside, rfl⟩ := List.getElem?_eq_some_iff.mp isLog
  rw [Watcher.setStage, List.map_set]
  refine List.ext_getElem? fun k => ?_
  by_cases same : j = k
  · subst same
    rw [List.getElem?_set_self (by rw [List.length_map]; exact inside), List.getElem?_map,
      List.getElem?_eq_getElem inside]
    rfl
  · rw [List.getElem?_set_ne same]

/-- A step adds the parsed log of its event. -/
theorem results_watcherStep (state : Watcher ρ) (label : WatcherLabel ε) :
    (watcherStep parse minimumConfirmations state label).logs.map (·.result) =
      state.logs.map (·.result) ++ (eventsOf [label]).filterMap parse := by
  cases label with
  | data event =>
      simp only [watcherStep, eventsOf, List.filterMap_cons, List.filterMap_nil]
      cases parse event with
      | none => rw [List.append_nil]
      | some result => rw [List.map_append, List.map_singleton]
  | answered j startingBlockNumber =>
      simp only [watcherStep]
      split
      · rename_i result isLog
        exact (results_setStage isLog _).trans (List.append_nil _).symm
      · exact (List.append_nil _).symm
  | header j number returns =>
      simp only [watcherStep.eq_def]
      split
      · rename_i result confirmedBlockNumber number isLog
        split
        · split
          · refine (@results_setStage ρ (state.call _) j _ ?_ .ended).trans
              (List.append_nil _).symm
            exact isLog
          · exact (List.append_nil _).symm
        · exact (List.append_nil _).symm
      · exact (List.append_nil _).symm
  | error j err =>
      simp only [watcherStep]
      split <;> exact (List.append_nil _).symm

theorem results_run (state : Watcher ρ) (labels : List (WatcherLabel ε)) :
    (run (watcherStep parse minimumConfirmations) state labels).logs.map (·.result) =
      state.logs.map (·.result) ++ (eventsOf labels).filterMap parse := by
  induction labels generalizing state with
  | nil => exact (List.append_nil _).symm
  | cons label rest ih =>
      have split : eventsOf (label :: rest) = eventsOf [label] ++ eventsOf rest := by
        cases label <;> rfl
      rw [run_cons, ih, results_watcherStep, split, List.filterMap_append, List.append_assoc]

/-- The invariant of each log holds after every run. -/
theorem logInv_run {labels : List (WatcherLabel ε)}
    (meets : Meets AnsweredOnce (watcherStep parse minimumConfirmations) Watcher.initial labels)
    (i : Nat) :
    LogInv minimumConfirmations labels
      (run (watcherStep parse minimumConfirmations) Watcher.initial labels) i := by
  induction labels using List.reverseRecOn with
  | nil => exact .absent rfl (fun _ => List.not_mem_nil) rfl
  | append_singleton labels label ih =>
      rw [run_append, run_cons, run_nil]
      exact (ih meets.of_append).step meets.last

end

/-- Over all runs of a subscription, whatever comes in which order: a parsed log is handed over
by a call that returns exactly once if a header has confirmed it, and not at all otherwise. -/
theorem subscribe_run {ε ρ : Type} {parse : ε → Option ρ} {minimumConfirmations : Nat}
    {labels : List (WatcherLabel ε)}
    (meets : Meets AnsweredOnce (watcherStep parse minimumConfirmations) Watcher.initial labels) :
    let final := run (watcherStep parse minimumConfirmations) Watcher.initial labels
    (∀ i, Confirmed minimumConfirmations labels i → ∃ result,
      ((eventsOf labels).filterMap parse)[i]? = some result ∧ final.deliveries i = [result]) ∧
    ∀ i, ¬ Confirmed minimumConfirmations labels i → final.deliveries i = [] := by
  intro final
  have results : final.logs.map (·.result) = (eventsOf labels).filterMap parse :=
    results_run Watcher.initial labels
  refine ⟨fun i confirmed => ?_, fun i unconfirmed => ?_⟩
  · cases logInv_run meets i with
    | delivered result isLog _ delivered =>
        refine ⟨result, ?_, delivered⟩
        rw [← results, List.getElem?_map, isLog]
        rfl
    | absent _ unanswered =>
        exact absurd confirmed (not_confirmed_of_unanswered fun number => unanswered (some number))
    | reading _ _ unanswered =>
        exact absurd confirmed (not_confirmed_of_unanswered fun number => unanswered (some number))
    | waiting _ _ _ _ _ unconfirmed => exact absurd confirmed unconfirmed
    | failed _ _ unanswered => exact absurd confirmed (not_confirmed_of_unanswered unanswered)
  · cases logInv_run meets i with
    | delivered _ _ confirmed => exact absurd confirmed unconfirmed
    | absent _ _ undelivered => exact undelivered
    | reading _ _ _ undelivered => exact undelivered
    | waiting _ _ _ _ _ _ undelivered => exact undelivered
    | failed _ _ _ undelivered => exact undelivered

/-- A log is confirmed by the second header, and its callback throws at first. -/
theorem subscribe_run_thrown :
    let labels : List (WatcherLabel Nat) := [.data 7, .answered 0 (some 100),
      .header 0 (some 105) true, .header 0 none true, .header 0 (some 112) false,
      .header 0 (some 113) true, .header 0 (some 114) true]
    let final := run (watcherStep some 12) Watcher.initial labels
    (∀ i, Confirmed 12 labels i → ∃ result,
      ((eventsOf labels).filterMap some)[i]? = some result ∧ final.deliveries i = [result]) ∧
    ∀ i, ¬ Confirmed 12 labels i → final.deliveries i = [] :=
  subscribe_run ⟨trivial, rfl, trivial, trivial, trivial, trivial, trivial, trivial⟩

/-! ## In the order of the chain -/

/-- A node in order: the reads are answered one after the other, and a header goes to all
subscriptions. -/
inductive Round (ε : Type) where
  | data (event : ε)
  | answered (startingBlockNumber : Nat)
  | head (number : Nat)

section

variable {ε ρ : Type} (parse : ε → Option ρ) (minimumConfirmations : Nat)

/-- The labels of a round. Every call of the callback returns. -/
def roundLabels (state : Watcher ρ) : Round ε → List (WatcherLabel ε)
  | .data event => [.data event]
  | .answered startingBlockNumber =>
      [.answered (state.logs.findIdx fun log => decide (log.stage = .reading))
        (some startingBlockNumber)]
  | .head number => (List.range' 0 state.logs.length).map fun i => .header i (some number) true

def roundStep (state : Watcher ρ) (round : Round ε) : Watcher ρ :=
  run (watcherStep parse minimumConfirmations) state (roundLabels state round)

/-- There is a read to answer, and the numbers that are read do not decrease. -/
def RoundAllowed (state : Watcher ρ) : Round ε → Prop
  | .answered startingBlockNumber => (∃ log ∈ state.logs, log.stage = .reading) ∧
      ∀ log ∈ state.logs, ∀ confirmedBlockNumber, log.stage = .waiting confirmedBlockNumber →
        confirmedBlockNumber ≤ startingBlockNumber + minimumConfirmations
  | _ => True

def roundEvents (rounds : List (Round ε)) : List ε :=
  rounds.filterMap fun round =>
    match round with
    | .data event => some event
    | _ => none

/-- What the callback got, in the order of the calls. -/
def Watcher.received (state : Watcher ρ) : List ρ :=
  state.calls.filterMap fun call => call.argument.toOption

/-- A log after a header. -/
def Watched.atHead (number : Nat) (log : Watched ρ) : Watched ρ :=
  match log.stage with
  | .waiting confirmedBlockNumber =>
      if confirmedBlockNumber ≤ number then { log with stage := .ended } else log
  | _ => log

/-- What a header confirms. -/
def Watched.confirmedAt (number : Nat) (log : Watched ρ) : Option ρ :=
  match log.stage with
  | .waiting confirmedBlockNumber =>
      if confirmedBlockNumber ≤ number then some log.result else none
  | _ => none

/-- The logs that have been handed over, those that wait for headers, and those whose reads are
not answered, in this order, and with ascending numbers. -/
structure InOrder (state : Watcher ρ) (ended : List ρ) (waiting : List (ρ × Nat))
    (reading : List ρ) : Prop where
  logs : state.logs = ended.map (⟨·, .ended⟩) ++ waiting.map (fun log => ⟨log.1, .waiting log.2⟩) ++
    reading.map (⟨·, .reading⟩)
  ascending : waiting.Pairwise (·.2 ≤ ·.2)
  received : state.received = ended

end

section

variable {ε ρ : Type} {parse : ε → Option ρ} {minimumConfirmations : Nat} {state : Watcher ρ}

/-- A header goes through the subscriptions. -/
theorem run_headers (number : Nat) (before rest : List (Watched ρ)) (calls : List (WatcherCall ρ)) :
    ∃ added, run (watcherStep parse minimumConfirmations) ⟨before ++ rest, calls⟩
        ((List.range' before.length rest.length).map fun i =>
          .header i (some number) true) =
        ⟨before ++ rest.map (Watched.atHead number), calls ++ added⟩ ∧
      added.filterMap (·.argument.toOption) = rest.filterMap (Watched.confirmedAt number) := by
  induction rest generalizing before calls with
  | nil => exact ⟨[], by simp, rfl⟩
  | cons log rest ih =>
      have here : (before ++ log :: rest)[before.length]? = some log := by simp
      have step : ∃ added, watcherStep parse minimumConfirmations ⟨before ++ log :: rest, calls⟩
          (.header before.length (some number) true) =
            ⟨(before ++ [log.atHead number]) ++ rest, calls ++ added⟩ ∧
          added.filterMap (·.argument.toOption) = (log.confirmedAt number).toList := by
        obtain ⟨result, stage⟩ := log
        cases stage with
        | waiting confirmedBlockNumber =>
            simp only [watcherStep, here, Watched.atHead, Watched.confirmedAt]
            split
            · exact ⟨[⟨before.length, .ok result, true⟩],
                by simp [Watcher.setStage, Watcher.call], rfl⟩
            · exact ⟨[], by simp, rfl⟩
        | _ => exact ⟨[], by simp [watcherStep, Watched.atHead], rfl⟩
      obtain ⟨first, isStep, confirmed⟩ := step
      obtain ⟨added, isRun, confirmedLater⟩ := ih (before ++ [log.atHead number]) (calls ++ first)
      refine ⟨first ++ added, ?_, ?_⟩
      · rw [List.length_cons, List.range'_succ, List.map_cons, run_cons, isStep]
        rw [List.length_append, List.length_singleton] at isRun
        rw [isRun, List.map_cons, List.append_assoc, List.append_assoc]
        rfl
      · rw [List.filterMap_append, confirmed, confirmedLater, List.filterMap_cons]
        cases log.confirmedAt number <;> rfl

/-- With ascending numbers a header confirms a first part. -/
theorem exists_confirmed_prefix {waiting : List (ρ × Nat)}
    (ascending : waiting.Pairwise (·.2 ≤ ·.2)) (number : Nat) :
    ∃ first later, waiting = first ++ later ∧ (∀ log ∈ first, log.2 ≤ number) ∧
      ∀ log ∈ later, number < log.2 := by
  induction waiting with
  | nil => exact ⟨[], [], rfl, by simp, by simp⟩
  | cons log rest ih =>
      obtain ⟨least, ascending⟩ := List.pairwise_cons.mp ascending
      rcases Nat.lt_or_ge number log.2 with above | enough
      · refine ⟨[], log :: rest, rfl, by simp, fun other member => ?_⟩
        rcases List.mem_cons.mp member with rfl | later
        · exact above
        · exact Nat.lt_of_lt_of_le above (least other later)
      · obtain ⟨first, later, rfl, confirmed, above⟩ := ih ascending
        exact ⟨log :: first, later, rfl, List.forall_mem_cons.mpr ⟨enough, confirmed⟩, above⟩

/-- A header hands over the first logs that wait. -/
theorem InOrder.head {ended reading : List ρ} {waiting : List (ρ × Nat)}
    (order : InOrder state ended waiting reading) (number : Nat) :
    ∃ first later, waiting = first ++ later ∧
      InOrder (roundStep parse minimumConfirmations state (.head number : Round ε))
        (ended ++ first.map (·.1)) later reading := by
  obtain ⟨first, later, rfl, confirmed, above⟩ := exists_confirmed_prefix order.ascending number
  obtain ⟨added, isRun, isAdded⟩ :=
    @run_headers ε ρ parse minimumConfirmations number [] state.logs state.calls
  have isStep : roundStep parse minimumConfirmations state (.head number : Round ε) =
      ⟨state.logs.map (Watched.atHead number), state.calls ++ added⟩ := isRun
  have handedOver : ∀ log ∈ first, (⟨log.1, .waiting log.2⟩ : Watched ρ).atHead number =
      ⟨log.1, .ended⟩ := fun log member => if_pos (confirmed log member)
  have notYet : ∀ log ∈ later, (⟨log.1, .waiting log.2⟩ : Watched ρ).atHead number =
      ⟨log.1, .waiting log.2⟩ := fun log member => if_neg (Nat.not_le_of_lt (above log member))
  refine ⟨first, later, rfl, ?_, (List.pairwise_append.mp order.ascending).2.1, ?_⟩
  · rw [isStep, order.logs]
    simp only [List.map_append, List.map_map]
    rw [List.map_congr_left (f := Watched.atHead number ∘ _) (l := first) handedOver,
      List.map_congr_left (f := Watched.atHead number ∘ _) (l := later) notYet]
    simp only [List.append_assoc]
    rfl
  · have confirmedFirst : first.filterMap (fun log =>
        (⟨log.1, .waiting log.2⟩ : Watched ρ).confirmedAt number) = first.map (·.1) := by
      rw [← List.filterMap_eq_map]
      exact List.filterMap_congr fun log member => if_pos (confirmed log member)
    have confirmedLater : later.filterMap (fun log =>
        (⟨log.1, .waiting log.2⟩ : Watched ρ).confirmedAt number) = [] := by
      refine List.filterMap_eq_nil_iff.mpr fun log member => ?_
      exact if_neg (Nat.not_le_of_lt (above log member))
    have others : ∀ (logs : List ρ) (stage : LogStage), (∀ number, stage ≠ .waiting number) →
        (logs.map (⟨·, stage⟩)).filterMap (Watched.confirmedAt number) = [] := by
      intro logs stage notWaiting
      refine List.filterMap_eq_nil_iff.mpr fun log member => ?_
      obtain ⟨result, -, rfl⟩ := List.mem_map.mp member
      cases stage with
      | waiting other => exact absurd rfl (notWaiting other)
      | _ => rfl
    have received := order.received
    rw [Watcher.received] at received
    rw [isStep, Watcher.received, List.filterMap_append, received, isAdded, order.logs]
    simp only [List.filterMap_append, List.map_append]
    rw [others ended .ended (by rintro _ ⟨⟩), others reading .reading (by rintro _ ⟨⟩),
      List.filterMap_map, List.filterMap_map]
    refine congrArg (ended ++ ·) ?_
    rw [List.nil_append, List.append_nil]
    exact (congrArg₂ (· ++ ·) confirmedFirst confirmedLater).trans (List.append_nil _)

/-- The answer goes to the first log that is being read. -/
theorem InOrder.answered {ended reading : List ρ} {waiting : List (ρ × Nat)}
    (order : InOrder state ended waiting reading) {start : Nat}
    (allowed : RoundAllowed minimumConfirmations state (.answered start : Round ε)) :
    ∃ result rest, reading = result :: rest ∧
      InOrder (roundStep parse minimumConfirmations state (.answered start : Round ε))
        ended (waiting ++ [(result, start + minimumConfirmations)]) rest := by
  obtain ⟨⟨log, member, isReading⟩, least⟩ := allowed
  have notReading : ∀ other ∈ ended.map (⟨·, .ended⟩) ++
      waiting.map (fun log => (⟨log.1, .waiting log.2⟩ : Watched ρ)), other.stage ≠ .reading := by
    intro other inFront
    rcases List.mem_append.mp inFront with inEnded | inWaiting
    · obtain ⟨result, -, rfl⟩ := List.mem_map.mp inEnded
      rintro ⟨⟩
    · obtain ⟨waits, -, rfl⟩ := List.mem_map.mp inWaiting
      rintro ⟨⟩
  cases reading with
  | nil =>
      rw [order.logs, List.map_nil, List.append_nil] at member
      exact absurd isReading (notReading log member)
  | cons result rest =>
      have logs := order.logs
      generalize inFront : ended.map (⟨·, .ended⟩) ++
        waiting.map (fun log => (⟨log.1, .waiting log.2⟩ : Watched ρ)) = front at logs notReading
      have position : (state.logs.findIdx fun log => decide (log.stage = .reading)) =
          front.length := by
        rw [logs, List.findIdx_append, if_neg, List.map_cons, List.findIdx_cons]
        · simp
        · rw [List.findIdx_lt_length]
          rintro ⟨other, inside, isOther⟩
          exact notReading other inside (of_decide_eq_true isOther)
      have here : state.logs[front.length]? = some ⟨result, .reading⟩ := by
        rw [logs, List.map_cons, List.getElem?_append_right (Nat.le_refl _), Nat.sub_self]
        rfl
      have isStep : roundStep parse minimumConfirmations state (.answered start : Round ε) =
          state.setStage front.length ⟨result, .reading⟩
            (.waiting (start + minimumConfirmations)) := by
        rw [roundStep, roundLabels, position, run_cons, run_nil]
        simp only [watcherStep, here]
      refine ⟨result, rest, rfl, ?_, ?_, ?_⟩
      · rw [isStep, Watcher.setStage]
        dsimp only
        rw [logs, List.map_cons, List.set_append_right _ _ (Nat.le_refl _), Nat.sub_self,
          List.set_cons_zero, List.map_append, ← List.append_assoc, inFront, List.append_assoc]
        rfl
      · refine List.pairwise_append.mpr ⟨order.ascending, List.pairwise_singleton _ _, ?_⟩
        intro log inWaiting last isLast
        cases List.mem_singleton.mp isLast
        refine least ⟨log.1, .waiting log.2⟩ ?_ log.2 rfl
        rw [order.logs]
        exact List.mem_append_left _ (List.mem_append_right _ (List.mem_map_of_mem inWaiting))
      · rw [isStep]
        exact order.received

theorem InOrder.step {ended reading : List ρ} {waiting : List (ρ × Nat)}
    (order : InOrder state ended waiting reading) {round : Round ε}
    (allowed : RoundAllowed minimumConfirmations state round) :
    ∃ ended waiting reading,
      InOrder (roundStep parse minimumConfirmations state round) ended waiting reading := by
  cases round with
  | data event =>
      rw [roundStep, roundLabels, run_cons, run_nil, watcherStep]
      split
      · exact ⟨ended, waiting, reading, order⟩
      · rename_i result _
        refine ⟨ended, waiting, reading ++ [result], ?_, order.ascending, order.received⟩
        dsimp only
        rw [order.logs, List.map_append, List.append_assoc]
        rfl
  | answered start =>
      obtain ⟨result, rest, -, after⟩ := @InOrder.answered ε ρ parse minimumConfirmations state
        ended reading waiting order start allowed
      exact ⟨_, _, _, after⟩
  | head number =>
      obtain ⟨first, later, -, after⟩ :=
        @InOrder.head ε ρ parse minimumConfirmations state ended reading waiting order number
      exact ⟨_, _, _, after⟩

theorem results_runRounds (state : Watcher ρ) (rounds : List (Round ε)) :
    (run (roundStep parse minimumConfirmations) state rounds).logs.map (·.result) =
      state.logs.map (·.result) ++ (roundEvents rounds).filterMap parse := by
  induction rounds generalizing state with
  | nil => exact (List.append_nil _).symm
  | cons round rest ih =>
      have split : roundEvents (round :: rest) = roundEvents [round] ++ roundEvents rest := by
        cases round <;> rfl
      have events : eventsOf (roundLabels state round) = roundEvents [round] := by
        cases round with
        | head number =>
            refine List.filterMap_eq_nil_iff.mpr fun label member => ?_
            obtain ⟨i, -, rfl⟩ := List.mem_map.mp member
            rfl
        | _ => rfl
      rw [run_cons, ih, roundStep, results_run, events, split, List.filterMap_append,
        List.append_assoc]

end

/-- With a node in order, a callback that always returns gets the logs in the order in which
they came, each once and without gaps. -/
theorem subscribe_inOrder {ε ρ : Type} {parse : ε → Option ρ} {minimumConfirmations : Nat}
    {rounds : List (Round ε)}
    (meets : Meets (RoundAllowed minimumConfirmations) (roundStep parse minimumConfirmations)
      Watcher.initial rounds) :
    (run (roundStep parse minimumConfirmations) Watcher.initial rounds).received <+:
      (roundEvents rounds).filterMap parse := by
  obtain ⟨ended, waiting, reading, order⟩ : ∃ ended waiting reading,
      InOrder (run (roundStep parse minimumConfirmations) Watcher.initial rounds)
        ended waiting reading := by
    refine @invariant_run _ _ _ _
      (fun state => ∃ ended waiting reading, InOrder state ended waiting reading) Watcher.initial
      ⟨[], [], [], rfl, List.Pairwise.nil, rfl⟩ ?_ rounds meets
    rintro state round ⟨ended, waiting, reading, order⟩ allowed
    exact order.step allowed
  have results : _ = (roundEvents rounds).filterMap parse :=
    @results_runRounds ε ρ parse minimumConfirmations Watcher.initial rounds
  rw [order.logs, List.map_append, List.map_append, List.map_map, List.append_assoc] at results
  rw [order.received, ← results]
  exact ⟨_, congrArg (· ++ _) (List.map_id ended).symm⟩

/-- Two logs, and a header that confirms the first one. -/
theorem subscribe_inOrder_two :
    (run (roundStep some 12) Watcher.initial ([.data 7, .data 8, .answered 100, .head 111,
      .answered 101, .head 112] : List (Round Nat))).received <+:
    (roundEvents ([.data 7, .data 8, .answered 100, .head 111, .answered 101, .head 112] :
      List (Round Nat))).filterMap some := by
  refine subscribe_inOrder ⟨trivial, trivial, ⟨⟨_, List.mem_cons_self, rfl⟩, ?_⟩, trivial,
    ⟨⟨_, List.mem_cons_of_mem _ List.mem_cons_self, rfl⟩, ?_⟩, trivial, trivial⟩
  · change ∀ log ∈ [(⟨7, .reading⟩ : Watched Nat), ⟨8, .reading⟩], _
    simp
  · change ∀ log ∈ [(⟨7, .waiting 112⟩ : Watched Nat), ⟨8, .reading⟩], _
    simp

end Ethereum
