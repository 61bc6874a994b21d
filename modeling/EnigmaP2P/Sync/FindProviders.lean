import EnigmaP2P.Common.EngCID
import EnigmaP2P.Sync.Pipeline
import EnigmaP2P.Transition.Gather

/-!
# Finding providers for a batch of content ids

The ids are looked up side by side, and what is found for each is put in one result. The list
without the node itself is made and dropped. Making it throws when a lookup fails without a
list, and a job whose lookup throws never ends.
-/

namespace Sync.FindProviders

open Js Common Transition

/-- What a lookup in the network calls back with. -/
inductive Lookup (P E : Type) where
  | found (providers : List P)
  | failed (error : E)

def Lookup.err {P E : Type} : Lookup P E → Option E
  | .found _ => none
  | .failed error => some error

def Lookup.providers {P E : Type} : Lookup P E → Option (List P)
  | .found providers => some providers
  | .failed _ => none

/-- What a job of the batch ends with. -/
structure JobResult (P E : Type) where
  error : Option E
  ecid : EngCID
  providers : List P

structure FindProviderResult (P E : Type) where
  map : List (String × List P × EngCID) := []
  errored : List (String × EngCID × E) := []
  completeError : Bool := false

namespace FindProviderResult

variable {P E : Type}

def addProviderResult (result : FindProviderResult P E) (engCid : EngCID) (providerList : List P) :
    FindProviderResult P E :=
  { result with map := setField (engCid.getKeccack256 false) (providerList, engCid) result.map }

def addErroredProviderResult (result : FindProviderResult P E) (engCid : EngCID) (error : E) :
    FindProviderResult P E :=
  { result with errored := setField (engCid.getKeccack256 false) (engCid, error) result.errored }

def getProvidersFor (result : FindProviderResult P E) (ecid : EngCID) : Option (List P) :=
  (result.map.lookup (ecid.getKeccack256 false)).map (·.1)

end FindProviderResult

section

variable {P E : Type} (isSelf : P → Bool)

/-- The list minus the node itself. -/
def others (providers : List P) : List P :=
  providers.filter fun p => !isSelf p

/-- `_findProvider`: `filter` throws without a list, and the list without the node that it
returns is not used. -/
def findProvider (lookup : Lookup P E) : Except Exn (Option E × List P) :=
  match lookup.providers with
  | none => .error .typeError
  | some providers => .ok (lookup.err, providers)

/-- The result as the pipeline of a sync reads it. -/
def FindProviderResult.forPipeline (result : FindProviderResult P E) :
    Sync.FindProviderResult P where
  completeError := result.completeError
  errored := result.errored.map (·.1)
  providers := result.map.map fun entry => (entry.1, entry.2.1)

/-- A batch in progress, with the exceptions of its callbacks. -/
structure Batch (P E : Type) where
  gather : Gather (JobResult P E)
  thrown : List Exn

/-- The lookup of a job calls back. -/
def lookupEnds (lookups : List (EngCID × Lookup P E)) (batch : Batch P E) (i : Nat) : Batch P E :=
  match lookups[i]? with
  | none => batch
  | some (ecid, lookup) =>
      match findProvider lookup with
      | .error exn => { batch with thrown := batch.thrown ++ [exn] }
      | .ok (err, providers) =>
          { batch with gather := batch.gather.complete i ⟨err, ecid, providers⟩ }

/-- The callback of `parallel`. No job hands on an error. -/
def collectResults (results : List (JobResult P E)) : FindProviderResult P E :=
  results.foldl (fun findProviderResult res =>
    match res.error with
    | some error => findProviderResult.addErroredProviderResult res.ecid error
    | none => findProviderResult.addProviderResult res.ecid res.providers) {}

/-- The calls of the callback, and the exceptions. -/
structure BatchEnd (P E : Type) where
  calls : List (FindProviderResult P E)
  thrown : List Exn

/-- `findProvidersBatch`, where the lookups call back in an order. -/
def findProvidersBatch (lookups : List (EngCID × Lookup P E)) (order : List Nat) : BatchEnd P E :=
  let batch := order.foldl (lookupEnds lookups) ⟨Gather.start lookups.length, []⟩
  ⟨batch.gather.calls.map collectResults, batch.thrown⟩

/-- An id is in the map with the others that were found, or in the errored map, and not in
both. -/
def Placed (result : FindProviderResult P E) (ecid : EngCID) : Lookup P E → Prop
  | .found providers => result.getProvidersFor ecid = some (others isSelf providers) ∧
      result.errored.lookup (ecid.getKeccack256 false) = none
  | .failed _ => result.getProvidersFor ecid = none ∧
      result.errored.lookup (ecid.getKeccack256 false) ≠ none

/-- The batch calls back once without an exception, and each id is in its place. -/
structure BatchRight (lookups : List (EngCID × Lookup P E)) (ended : BatchEnd P E) : Prop where
  noThrow : ended.thrown = []
  placed : ∃ result, ended.calls = [result] ∧
    ∀ ecid lookup, (ecid, lookup) ∈ lookups → Placed isSelf result ecid lookup

/-- What the last lookup of an id in the batch finds. -/
def lastFound (lookups : List (EngCID × Lookup P E)) (ecid : EngCID) : Option (List P) :=
  (lookups.reverse.find? fun entry =>
    entry.1.getKeccack256 false = ecid.getKeccack256 false).bind (·.2.providers)

/-- No lookup fails, and what each finds is, minus the node itself, what the last one of its id
finds. -/
def OthersFound (lookups : List (EngCID × Lookup P E)) : Prop :=
  ∀ ecid lookup, (ecid, lookup) ∈ lookups →
    ∃ providers, lookup = .found providers ∧
      lastFound lookups ecid = some (others isSelf providers)

end

section

variable {P E : Type} {isSelf : P → Bool} {lookups : List (EngCID × Lookup P E)}

/-! ## A lookup that fails -/

theorem thrown_of_thrown {batch : Batch P E} (thrown : batch.thrown ≠ []) (order : List Nat) :
    (order.foldl (lookupEnds lookups) batch).thrown ≠ [] := by
  induction order generalizing batch with
  | nil => exact thrown
  | cons i order ih =>
      apply ih
      rw [lookupEnds]
      split
      · exact thrown
      · split
        · exact List.append_ne_nil_of_left_ne_nil thrown _
        · exact thrown

/-- Its job throws, whenever it calls back. -/
theorem thrown_of_failed {i : Nat} {ecid : EngCID} {error : E}
    (failed : lookups[i]? = some (ecid, .failed error)) {order : List Nat} (member : i ∈ order) :
    (findProvidersBatch lookups order).thrown ≠ [] := by
  obtain ⟨before, after, rfl⟩ := List.append_of_mem member
  rw [findProvidersBatch, List.foldl_append, List.foldl_cons]
  apply thrown_of_thrown
  rw [lookupEnds, failed]
  exact List.append_ne_nil_of_right_ne_nil _ (List.cons_ne_nil _ _)

/-! ## A batch in which all is found -/

/-- What a lookup that finds a list ends its job with. -/
def foundResult (entry : EngCID × Lookup P E) : JobResult P E :=
  ⟨entry.2.err, entry.1, entry.2.providers.getD []⟩

theorem foldl_lookupEnds (all : ∀ entry ∈ lookups, ∃ providers, entry.2 = .found providers)
    (order : List Nat) (gather : Gather (JobResult P E)) :
    order.foldl (lookupEnds lookups) ⟨gather, []⟩ =
      ⟨gather.completeAll (lookups.map foundResult) order, []⟩ := by
  induction order generalizing gather with
  | nil => rfl
  | cons i order ih =>
      rw [Gather.completeAll, List.foldl_cons, List.foldl_cons, lookupEnds, List.getElem?_map]
      cases isEntry : lookups[i]? with
      | none => exact ih gather
      | some entry =>
          obtain ⟨ecid, lookup⟩ := entry
          obtain ⟨providers, isFound⟩ := all _ (List.mem_of_getElem? isEntry)
          cases isFound
          exact ih _

/-- Whatever the order, the results are collected once. -/
theorem findProvidersBatch_eq (all : ∀ entry ∈ lookups, ∃ providers, entry.2 = .found providers)
    {order : List Nat} (ordered : order.Perm (List.range lookups.length)) :
    findProvidersBatch lookups order =
      ⟨[collectResults (lookups.map foundResult)], []⟩ := by
  rw [← List.length_map foundResult] at ordered
  have gathered := Gather.calls_of_perm _ ordered
  rw [List.length_map] at gathered
  rw [findProvidersBatch, foldl_lookupEnds all, gathered]
  rfl

/-- The map has what is found last for an id. -/
theorem collectResults_found (all : ∀ entry ∈ lookups, ∃ providers, entry.2 = .found providers) :
    (collectResults (lookups.map foundResult)).errored = [] ∧
      ∀ ecid, (collectResults (lookups.map foundResult)).getProvidersFor ecid =
        lastFound lookups ecid := by
  induction lookups using List.reverseRecOn with
  | nil => exact ⟨rfl, fun _ => rfl⟩
  | append_singleton lookups entry ih =>
      obtain ⟨noError, found⟩ := ih fun other member => all other (List.mem_append_left _ member)
      obtain ⟨engCid, lookup⟩ := entry
      obtain ⟨providers, isFound⟩ := all _ (List.mem_append_right _ (List.mem_singleton_self _))
      cases isFound
      have last : collectResults ((lookups ++ [(engCid, Lookup.found providers)]).map foundResult) =
          (collectResults (lookups.map foundResult)).addProviderResult engCid providers := by
        rw [collectResults, List.map_append, List.foldl_append]
        rfl
      rw [last]
      refine ⟨noError, fun ecid => ?_⟩
      rw [FindProviderResult.getProvidersFor, FindProviderResult.addProviderResult,
        lookup_setField, lastFound, List.reverse_append, List.reverse_singleton,
        List.singleton_append, List.find?_cons]
      by_cases same : ecid.getKeccack256 false = engCid.getKeccack256 false
      · rw [if_pos same, decide_eq_true same.symm]
        rfl
      · rw [if_neg same, decide_eq_false (Ne.symm same)]
        exact found ecid

/-- The pipeline finds the same providers. -/
theorem getProvidersFor_forPipeline (result : FindProviderResult P E) (ecid : EngCID) :
    result.forPipeline.getProvidersFor (ecid.getKeccack256 false) =
      result.getProvidersFor ecid := by
  change (result.map.map _).lookup _ = (result.map.lookup _).map _
  induction result.map with
  | nil => rfl
  | cons entry map ih =>
      rw [List.map_cons, List.lookup_cons, List.lookup_cons]
      split
      · rfl
      · exact ih

/-- A batch is right exactly if no lookup fails, and what is found last for each id is what its
lookups find minus the node itself. -/
theorem batchRight_iff {order : List Nat} (ordered : order.Perm (List.range lookups.length)) :
    BatchRight isSelf lookups (findProvidersBatch lookups order) ↔
      OthersFound isSelf lookups := by
  by_cases all : ∀ entry ∈ lookups, ∃ providers, entry.2 = .found providers
  · obtain ⟨noError, found⟩ := collectResults_found all
    rw [findProvidersBatch_eq all ordered]
    constructor
    · rintro ⟨-, result, isResult, placed⟩ ecid lookup member
      cases isResult
      obtain ⟨providers, isFound⟩ := all _ member
      have here := placed ecid lookup member
      cases isFound
      exact ⟨providers, rfl, (found ecid).symm.trans here.1⟩
    · intro othersFound
      refine ⟨rfl, _, rfl, fun ecid lookup member => ?_⟩
      obtain ⟨providers, rfl, isLast⟩ := othersFound ecid lookup member
      refine ⟨(found ecid).trans isLast, ?_⟩
      rw [noError]
      rfl
  · refine iff_of_false (fun right => ?_) (fun othersFound => ?_)
    · obtain ⟨⟨ecid, lookup⟩, notAll⟩ := not_forall.mp all
      obtain ⟨member, notFound⟩ := Classical.not_imp.mp notAll
      obtain ⟨i, inside, isEntry⟩ := List.getElem_of_mem member
      cases lookup with
      | found providers => exact notFound ⟨providers, rfl⟩
      | failed error =>
          refine thrown_of_failed (List.getElem?_eq_some_iff.mpr ⟨inside, isEntry⟩) ?_ right.noThrow
          exact ordered.mem_iff.mpr (List.mem_range.mpr inside)
    · apply all
      rintro ⟨ecid, lookup⟩ member
      obtain ⟨providers, isFound, -⟩ := othersFound ecid lookup member
      exact ⟨providers, isFound⟩

/-- In a batch of different ids, each is looked up once. -/
theorem lastFound_of_distinct
    (distinct : (lookups.map fun entry => entry.1.getKeccack256 false).Nodup) {ecid : EngCID}
    {lookup : Lookup P E} (member : (ecid, lookup) ∈ lookups) :
    lastFound lookups ecid = lookup.providers := by
  rw [lastFound]
  cases isLast : lookups.reverse.find? _ with
  | none =>
      have notHere := List.find?_eq_none.mp isLast _ (List.mem_reverse.mpr member)
      exact absurd (decide_eq_true rfl) notHere
  | some entry =>
      have same := List.find?_some isLast
      rw [decide_eq_true_iff] at same
      have isMember := List.mem_reverse.mp (List.mem_of_find?_eq_some isLast)
      rw [List.inj_on_of_nodup_map distinct isMember member same]
      rfl

/-- There the condition is that no lookup fails and no list has the node itself. -/
theorem othersFound_iff_of_distinct
    (distinct : (lookups.map fun entry => entry.1.getKeccack256 false).Nodup) :
    OthersFound isSelf lookups ↔ ∀ ecid lookup, (ecid, lookup) ∈ lookups →
      ∃ providers, lookup = .found providers ∧ ∀ p ∈ providers, isSelf p = false := by
  apply forall₃_congr
  intro ecid lookup member
  apply exists_congr
  intro providers
  apply and_congr_right
  rintro rfl
  rw [lastFound_of_distinct distinct member, Lookup.providers, others, Option.some_inj, eq_comm,
    List.filter_eq_self]
  simp only [Bool.not_eq_true']

end

/-- Another node is found for an id. -/
theorem batchRight_iff_one :
    BatchRight (P := Nat) (E := String) (· == 0) [(engCidOf someHash, .found [1])]
        (findProvidersBatch [(engCidOf someHash, .found [1])] [0]) ↔
      OthersFound (P := Nat) (E := String) (· == 0) [(engCidOf someHash, .found [1])] :=
  batchRight_iff (List.Perm.refl [0])

/-- The node itself stays in the list, and a failed lookup throws. -/
theorem batchRight_wrong :
    ((findProvidersBatch (P := Nat) (E := String)
        [(engCidOf someHash, .found [0, 1])] [0]).calls.map
          (·.getProvidersFor (engCidOf someHash)) = [some [0, 1]] ∧
      ¬ BatchRight (P := Nat) (E := String) (· == 0) [(engCidOf someHash, .found [0, 1])]
        (findProvidersBatch [(engCidOf someHash, .found [0, 1])] [0])) ∧
    (findProvidersBatch (P := Nat) [(engCidOf someHash, .failed "timeout")] [0] =
        ⟨[], [.typeError]⟩ ∧
      ¬ BatchRight (P := Nat) (· == 0) [(engCidOf someHash, .failed "timeout")]
        (findProvidersBatch [(engCidOf someHash, .failed "timeout")] [0])) := by
  refine ⟨⟨?_, fun right => ?_⟩, rfl, fun right => ?_⟩
  · rfl
  · obtain ⟨result, isResult, placed⟩ := right.placed
    cases isResult
    have found := (placed _ _ List.mem_cons_self).1
    cases found
  · exact absurd right.noThrow (List.cons_ne_nil _ _)

end Sync.FindProviders
