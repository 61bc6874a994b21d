import EnigmaP2P.Sync.Receiver

/-!
# Failing over to the next provider

`trySyncReceive` makes a waterfall of jobs: one for the first provider, one for each of those
in between, and one for the last. A job asks its provider unless an earlier one is done. What
is asked is recorded as positions of the list, and each call of the callback.

The first job and the last one are made for every list. A list of one provider has two jobs
for it, and if it fails it is asked again.
-/

namespace Sync.Failover

open Js

/-- The arguments with which `trySyncOneContractOneRequest` calls back. -/
structure Tried (E R : Type) where
  err : Option E
  resultList : R

/-- The end of a job: whom it asked, and the arguments of its callback. -/
structure JobEnd (E R : Type) where
  asked : List Nat
  err : Option E
  isDone : Bool
  resultList : R

/-- What `trySyncReceive` does: the positions it asks, and the calls of the callback. -/
structure Run (E R : Type) where
  asked : List Nat
  calls : List (Option E × Bool × R)

section

variable {P E R : Type} (outcome : Option P → Tried E R) (providersList : List P)

/-- A job that asks a provider and goes on whatever it answers. -/
def askThenGoOn (i : Nat) : JobEnd E R :=
  let tried := outcome providersList[i]?
  ⟨[i], none, tried.err.isNone, tried.resultList⟩

def firstJob : JobEnd E R :=
  askThenGoOn outcome providersList 0

def middleJob (i : Nat) (isDone : Bool) (resultList : R) : JobEnd E R :=
  if isDone then ⟨[], none, isDone, resultList⟩
  else askThenGoOn outcome providersList i

/-- The last job ends with the error of its provider. -/
def lastJob (isDone : Bool) (resultList : R) : JobEnd E R :=
  if isDone then ⟨[], none, isDone, resultList⟩
  else
    let i := providersList.length - 1
    let tried := outcome providersList[i]?
    ⟨[i], tried.err, tried.err.isNone, tried.resultList⟩

/-- `waterfall` of the package async: an error ends it, else the next job gets what the last
one handed on. -/
def waterfall : JobEnd E R → List (Bool → R → JobEnd E R) → Run E R
  | done, [] => ⟨done.asked, [(done.err, done.isDone, done.resultList)]⟩
  | done, job :: jobs =>
      if done.err.isSome then ⟨done.asked, [(done.err, done.isDone, done.resultList)]⟩
      else
        let run := waterfall (job done.isDone done.resultList) jobs
        ⟨done.asked ++ run.asked, run.calls⟩

/-- The jobs after the first one. -/
def laterJobs : List (Bool → R → JobEnd E R) :=
  (List.range' 1 (providersList.length - 2)).map (middleJob outcome providersList) ++
    [lastJob outcome providersList]

def trySyncReceive : Run E R :=
  waterfall (firstJob outcome providersList) (laterJobs outcome providersList)

/-- Whether the provider at a position fails. -/
def Fails (i : Nat) : Prop :=
  (outcome providersList[i]?).err ≠ none

instance (i : Nat) : Decidable (Fails outcome providersList i) :=
  decidable_of_iff ((outcome providersList[i]?).err.isSome = true) Option.isSome_iff_ne_none

/-- Providers are asked in order and at most once, up to the first that succeeds, and the
callback is called once: with the results of that one, or with an error if all fail. -/
structure TriedRight (run : Run E R) : Prop where
  inOrder : run.asked.Pairwise (· < ·)
  inside : ∀ i ∈ run.asked, i < providersList.length
  calledOnce : run.calls.length = 1
  firstSuccess : ∀ i < providersList.length, ¬ Fails outcome providersList i →
    (∀ j < i, Fails outcome providersList j) → run.asked = List.range (i + 1) ∧
      run.calls = [(none, true, (outcome providersList[i]?).resultList)]
  errorIff : (∃ call ∈ run.calls, call.1 ≠ none) ↔
    ∀ i < providersList.length, Fails outcome providersList i

end

variable {P E R : Type} {outcome : Option P → Tried E R} {providersList : List P}

/-! ## In order until one succeeds -/

/-- Ask from position `i` on, until one succeeds or `m` more have failed. -/
def askFrom (outcome : Option P → Tried E R) (providersList : List P) : Nat → Nat → Run E R
  | i, 0 =>
      let tried := outcome providersList[i]?
      ⟨[i], [(tried.err, tried.err.isNone, tried.resultList)]⟩
  | i, m + 1 =>
      if Fails outcome providersList i then
        let run := askFrom outcome providersList (i + 1) m
        ⟨i :: run.asked, run.calls⟩
      else ⟨[i], [(none, true, (outcome providersList[i]?).resultList)]⟩

/-- Those before the last that is asked fail, and the last one gives the arguments of the
callback. -/
theorem askFrom_spec (i m : Nat) : ∃ k ≤ m,
    askFrom outcome providersList i m =
      ⟨List.range' i (k + 1), [((outcome providersList[i + k]?).err,
        (outcome providersList[i + k]?).err.isNone,
        (outcome providersList[i + k]?).resultList)]⟩ ∧
    (∀ j, i ≤ j → j < i + k → Fails outcome providersList j) ∧
    (k = m ∨ ¬ Fails outcome providersList (i + k)) := by
  induction m generalizing i with
  | zero => exact ⟨0, Nat.le_refl 0, rfl, fun j from_ below => by omega, .inl rfl⟩
  | succ m ih =>
      rw [askFrom]
      split
      · rename_i fails
        obtain ⟨k, bound, isRun, before, last⟩ := ih (i + 1)
        refine ⟨k + 1, by omega, ?_, fun j atLeast below => ?_, ?_⟩
        · rw [isRun, @List.range'_succ i (k + 1) 1, Nat.add_assoc, Nat.add_comm 1 k]
        · rcases Nat.eq_or_lt_of_le atLeast with rfl | later
          · exact fails
          · exact before j later (by omega)
        · rw [← Nat.add_assoc, Nat.add_right_comm]
          apply last.imp_left
          omega
      · rename_i succeeds
        have noError : (outcome providersList[i]?).err = none := not_not.mp succeeds
        refine ⟨0, Nat.zero_le _, ?_, fun j atLeast below => by omega, .inr succeeds⟩
        simp only [Nat.add_zero, noError, Option.isNone_none]
        rfl

/-- Asking all providers in order until one succeeds is right. -/
theorem triedRight_askFrom (nonempty : providersList ≠ []) :
    TriedRight outcome providersList
      (askFrom outcome providersList 0 (providersList.length - 1)) := by
  have positive := List.length_pos_of_ne_nil nonempty
  obtain ⟨k, bound, isRun, before, last⟩ :=
    @askFrom_spec P E R outcome providersList 0 (providersList.length - 1)
  simp only [Nat.zero_add, Nat.zero_le, forall_const] at isRun before last
  rw [isRun]
  constructor
  · exact List.pairwise_lt_range'
  · intro i member
    have within := List.mem_range'_1.mp member
    omega
  · rfl
  · intro i inside succeeds failed
    have isLast : k = i := by
      rcases Nat.lt_trichotomy k i with less | same | greater
      · rcases last with isEnd | ends
        · omega
        · exact absurd (failed k less) ends
      · exact same
      · exact absurd (before i greater) succeeds
    have noError : (outcome providersList[i]?).err = none := not_not.mp succeeds
    rw [isLast, noError, List.range_eq_range']
    exact ⟨rfl, rfl⟩
  · constructor
    · rintro ⟨call, member, isError⟩ i inside
      cases List.mem_singleton.mp member
      have isEnd : k = providersList.length - 1 := last.resolve_right (not_not_intro isError)
      rcases Nat.lt_or_ge i k with less | atLeast
      · exact before i less
      · have same : i = k := by omega
        exact same ▸ isError
    · intro all
      exact ⟨_, List.mem_singleton_self _, all k (by omega)⟩

/-! ## The jobs -/

/-- The next job gets what a job without error hands on. -/
theorem waterfall_cons (asked : List Nat) (isDone : Bool) (resultList : R)
    (job : Bool → R → JobEnd E R) (jobs : List (Bool → R → JobEnd E R)) :
    waterfall ⟨asked, none, isDone, resultList⟩ (job :: jobs) =
      ⟨asked ++ (waterfall (job isDone resultList) jobs).asked,
        (waterfall (job isDone resultList) jobs).calls⟩ := rfl

/-- A job that is handed a success hands it on. -/
theorem waterfall_done (asked : List Nat) (resultList : R) (positions : List Nat) :
    waterfall ⟨asked, none, true, resultList⟩
        (positions.map (middleJob outcome providersList) ++ [lastJob outcome providersList]) =
      ⟨asked, [(none, true, resultList)]⟩ := by
  induction positions generalizing asked with
  | nil =>
      change (⟨asked ++ [], [(none, true, resultList)]⟩ : Run E R) = _
      rw [List.append_nil]
  | cons i positions ih =>
      have handedOn := ih []
      have passes : middleJob outcome providersList i true resultList =
          ⟨[], none, true, resultList⟩ := rfl
      rw [List.map_cons, List.cons_append, waterfall_cons, passes, handedOn, List.append_nil]

theorem askThenGoOn_of_fails {i : Nat} (fails : Fails outcome providersList i) :
    askThenGoOn outcome providersList i =
      ⟨[i], none, false, (outcome providersList[i]?).resultList⟩ := by
  rw [askThenGoOn, Option.isNone_eq_false_iff.mpr (Option.isSome_iff_ne_none.mpr fails)]

theorem askThenGoOn_of_succeeds {i : Nat} (succeeds : ¬ Fails outcome providersList i) :
    askThenGoOn outcome providersList i =
      ⟨[i], none, true, (outcome providersList[i]?).resultList⟩ := by
  rw [askThenGoOn, Option.isNone_iff_eq_none.mpr (not_not.mp succeeds)]

/-- A job and those after it ask in order, if the last position is after it. -/
theorem waterfall_eq_askFrom {i m : Nat} (last : providersList.length - 1 = i + (m + 1)) :
    waterfall (askThenGoOn outcome providersList i)
        ((List.range' (i + 1) m).map (middleJob outcome providersList) ++
          [lastJob outcome providersList]) =
      askFrom outcome providersList i (m + 1) := by
  induction m generalizing i with
  | zero =>
      rw [askFrom]
      split
      · rename_i fails
        have asksLast (resultList : R) :
          waterfall (lastJob outcome providersList false resultList) [] =
            askFrom outcome providersList (i + 1) 0 := by
          rw [askFrom, ← last]
          rfl
        rw [askThenGoOn_of_fails fails, List.range'_zero, List.map_nil, List.nil_append,
          waterfall_cons, asksLast]
        rfl
      · rename_i succeeds
        rw [askThenGoOn_of_succeeds succeeds]
        exact waterfall_done _ _ _
  | succ m ih =>
      rw [askFrom]
      split
      · rename_i fails
        have later := @ih (i + 1) (by omega)
        have asks (resultList : R) : middleJob outcome providersList (i + 1) false resultList =
            askThenGoOn outcome providersList (i + 1) := rfl
        rw [askThenGoOn_of_fails fails, List.range'_succ, List.map_cons, List.cons_append,
          waterfall_cons, asks, later]
        rfl
      · rename_i succeeds
        rw [askThenGoOn_of_succeeds succeeds]
        exact waterfall_done _ _ _

/-- From two providers on, the jobs ask in order. -/
theorem trySyncReceive_eq_askFrom (several : 2 ≤ providersList.length) :
    trySyncReceive outcome providersList =
      askFrom outcome providersList 0 (providersList.length - 1) := by
  have last : providersList.length - 1 = 0 + (providersList.length - 2 + 1) := by omega
  rw [trySyncReceive, firstJob, laterJobs, waterfall_eq_askFrom last]
  congr 1
  omega

/-- The only provider is asked again if it fails. -/
theorem trySyncReceive_single {provider : P} :
    trySyncReceive outcome [provider] =
      if Fails outcome [provider] 0 then
        ⟨[0, 0], [((outcome provider).err, (outcome provider).err.isNone,
          (outcome provider).resultList)]⟩
      else askFrom outcome [provider] 0 0 := by
  rw [trySyncReceive, firstJob]
  split
  · rename_i fails
    rw [askThenGoOn_of_fails fails]
    rfl
  · rename_i succeeds
    have noError : (outcome provider).err = none := not_not.mp succeeds
    rw [askThenGoOn_of_succeeds succeeds, laterJobs]
    change (⟨[0], [(none, true, (outcome provider).resultList)]⟩ : Run E R) =
      ⟨[0], [((outcome provider).err, (outcome provider).err.isNone, _)]⟩
    rw [noError]
    rfl

/-! ## Attempts by streams -/

section

variable (platform : Common.Platform) (remoteMissingStates : RemoteMissingStates)
  (attempt : Option P → Attempt)

/-- The arguments of the callback of an attempt. Without a call they do not matter. -/
def triedOf (peer : Option P) : Tried String (List SyncStatus) :=
  match trySyncOneContractOneRequest platform remoteMissingStates (attempt peer) with
  | .called err stored => ⟨err, stored.map Stored.syncStatus⟩
  | .silent _ => ⟨none, []⟩

/-- Every attempt is called back. -/
def Heard : Prop :=
  ∀ peer, ∃ err stored,
    trySyncOneContractOneRequest platform remoteMissingStates (attempt peer) = .called err stored

variable {platform remoteMissingStates attempt}

/-- The positions that the jobs in between ask. -/
theorem tail_dropLast_eq (providersList : List P) :
    providersList.tail.dropLast.map some =
      (List.range' 1 (providersList.length - 2)).map (providersList[·]?) := by
  apply List.ext_getElem
  · simp only [List.length_map, List.length_dropLast, List.length_tail, List.length_range']
    omega
  · intro i inside _
    simp only [List.length_map, List.length_dropLast, List.length_tail] at inside
    simp only [List.getElem_map, List.getElem_dropLast, List.getElem_tail, List.getElem_range',
      Nat.one_mul, Nat.add_comm 1 i]
    exact (List.getElem?_eq_getElem (by omega)).symm

theorem triedOf_called {peer : Option P} {err : Option String} {stored : List Stored}
    (called : trySyncOneContractOneRequest platform remoteMissingStates (attempt peer) =
      .called err stored) :
    triedOf platform remoteMissingStates attempt peer = ⟨err, stored.map Stored.syncStatus⟩ := by
  rw [triedOf, called]

/-- The last attempt ends a run, whatever it gives. -/
theorem callback_last {job : Attempt} {err : Option String} {stored : List Stored}
    (called : trySyncOneContractOneRequest platform remoteMissingStates job = .called err stored)
    (earlier : List Stored) :
    (Sync.waterfall platform remoteMissingStates earlier job []).callback =
      some (err, err.isNone, stored.map Stored.syncStatus) := by
  rw [Sync.waterfall, called]
  cases err with
  | none => rfl
  | some err => rfl

/-- An attempt before the last one ends a run with success, or the next one follows. -/
theorem callback_next {job : Attempt} {err : Option String} {stored : List Stored}
    (called : trySyncOneContractOneRequest platform remoteMissingStates job = .called err stored)
    (earlier : List Stored) (next : Attempt) (jobs : List Attempt) :
    (Sync.waterfall platform remoteMissingStates earlier job (next :: jobs)).callback =
      if err.isNone then some (none, true, stored.map Stored.syncStatus)
      else
        (Sync.waterfall platform remoteMissingStates (earlier ++ stored) next jobs).callback := by
  rw [Sync.waterfall, called]
  cases err with
  | none => rfl
  | some err => rfl

/-- The jobs from a position on hand on what the attempts give. -/
theorem waterfall_calls (heard : Heard platform remoteMissingStates attempt)
    (earlier : List Stored) (i : Nat) (positions : List Nat) :
    (waterfall (askThenGoOn (triedOf platform remoteMissingStates attempt) providersList i)
        (positions.map (middleJob (triedOf platform remoteMissingStates attempt) providersList) ++
          [lastJob (triedOf platform remoteMissingStates attempt) providersList])).calls =
      (Sync.waterfall platform remoteMissingStates earlier (attempt providersList[i]?)
        ((positions.map (providersList[·]?) ++
          [providersList[providersList.length - 1]?]).map attempt)).callback.toList := by
  induction positions generalizing earlier i with
  | nil =>
      obtain ⟨err, stored, called⟩ := heard providersList[i]?
      obtain ⟨lastErr, lastStored, lastCalled⟩ := heard providersList[providersList.length - 1]?
      rw [List.map_nil, List.nil_append, List.map_nil, List.nil_append, List.map_singleton,
        callback_next called, callback_last lastCalled, askThenGoOn, triedOf_called called]
      cases err with
      | none => rfl
      | some err =>
          simp only [waterfall_cons, lastJob, triedOf_called lastCalled]
          rfl
  | cons j positions ih =>
      obtain ⟨err, stored, called⟩ := heard providersList[i]?
      rw [List.map_cons, List.cons_append, List.map_cons, List.cons_append, List.map_cons,
        callback_next called, askThenGoOn, triedOf_called called]
      cases err with
      | none =>
          rw [← List.cons_append, ← List.map_cons]
          exact congrArg Run.calls (waterfall_done _ _ _)
      | some err => exact ih _ _

/-- Where every attempt is called back, the run of the attempts ends with the one call of the
run of the jobs. -/
theorem trySyncReceive_callback (heard : Heard platform remoteMissingStates attempt) :
    (trySyncReceive (triedOf platform remoteMissingStates attempt) providersList).calls =
      (Sync.trySyncReceive platform remoteMissingStates (fun _ => attempt)
        providersList).callback.toList := by
  have later : ((jobProviders providersList).tail.zipIdx 1).map (fun job => attempt job.1) =
      (((List.range' 1 (providersList.length - 2)).map (providersList[·]?)) ++
        [providersList[providersList.length - 1]?]).map attempt := by
    rw [jobProviders, List.tail_cons, tail_dropLast_eq, List.getLast?_eq_getElem?]
    exact (List.map_map).symm.trans (congrArg _ (List.zipIdx_map_fst _ _))
  rw [Sync.trySyncReceive, later, List.head?_eq_getElem?, trySyncReceive, firstJob, laterJobs]
  exact waterfall_calls heard [] 0 _

end

/-- The run is right exactly if there are several providers or the only one succeeds. -/
theorem triedRight_iff (nonempty : providersList ≠ []) :
    TriedRight outcome providersList (trySyncReceive outcome providersList) ↔
      2 ≤ providersList.length ∨ ¬ Fails outcome providersList 0 := by
  rcases Nat.lt_or_ge providersList.length 2 with single | several
  · obtain ⟨provider, rfl⟩ : ∃ provider, providersList = [provider] :=
      List.length_eq_one_iff.mp (by have := List.length_pos_of_ne_nil nonempty; omega)
    rw [trySyncReceive_single]
    split
    · rename_i fails
      refine iff_of_false (fun right => ?_) (by rintro (several | succeeds) <;> contradiction)
      exact absurd (List.pairwise_cons.mp right.inOrder).1 (by simp)
    · rename_i succeeds
      exact iff_of_true (triedRight_askFrom nonempty) (.inr succeeds)
  · rw [trySyncReceive_eq_askFrom several]
    exact iff_of_true (triedRight_askFrom nonempty) (.inl several)

/-- Two providers, of which the second one succeeds. -/
theorem triedRight_iff_two :
    TriedRight (fun provider => ⟨if provider = some 7 then some "error" else none, ()⟩) [7, 8]
        (trySyncReceive (fun provider => ⟨if provider = some 7 then some "error" else none, ()⟩)
          [7, 8]) ↔
      2 ≤ [7, 8].length ∨
        ¬ Fails (fun provider => ⟨if provider = some 7 then some "error" else none, ()⟩) [7, 8] 0 :=
  triedRight_iff (List.cons_ne_nil 7 [8])

/-- The only provider fails. -/
theorem triedRight_wrong :
    (trySyncReceive (fun _ => ⟨some "error", ()⟩) [7]).asked = [0, 0] ∧
    ¬ TriedRight (fun _ => ⟨some "error", ()⟩) [7]
      (trySyncReceive (fun _ => ⟨some "error", ()⟩) [7]) := by
  refine ⟨rfl, fun right => ?_⟩
  have increasing := right.inOrder
  cases increasing with
  | cons first _ => exact absurd (first 0 List.mem_cons_self) (Nat.lt_irrefl 0)

end Sync.Failover
