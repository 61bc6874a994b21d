import Mathlib.Data.Finset.Card
import Mathlib.Data.Finset.Range

/-!
# Gathering the results of jobs

Jobs that run side by side end in any order. Each stores its result at its place and counts,
and the one that makes the count full hands on all results. Whatever the order, they are
handed on once, and in the order of the jobs.
-/

namespace Transition

/-- The results so far, how many there are, and what was handed on. -/
structure Gather (ρ : Type) where
  results : List (Option ρ)
  completed : Nat
  calls : List (List ρ)

namespace Gather

variable {ρ : Type}

/-- Without jobs, the results are handed on at once. -/
def start (jobs : Nat) : Gather ρ :=
  ⟨List.replicate jobs none, 0, if jobs = 0 then [[]] else []⟩

/-- A job ends with its result. -/
def complete (gather : Gather ρ) (i : Nat) (result : ρ) : Gather ρ :=
  let results := gather.results.set i (some result)
  let completed := gather.completed + 1
  ⟨results, completed, if completed = results.length then gather.calls ++ [results.filterMap id]
    else gather.calls⟩

/-- The jobs end in an order, with the results that are listed in theirs. -/
def completeAll (gather : Gather ρ) (values : List ρ) (order : List Nat) : Gather ρ :=
  order.foldl (fun gather i => values[i]?.elim gather (gather.complete i)) gather

/-- What is stored and handed on after the jobs in `ended`. -/
structure IsAfter (values : List ρ) (ended : List Nat) (gather : Gather ρ) : Prop where
  length : gather.results.length = values.length
  stored : ∀ i < values.length,
    gather.results[i]? = some (if i ∈ ended then values[i]? else none)
  completed : gather.completed = ended.length
  calls : gather.calls = if ended.length = values.length then [values] else []

theorem isAfter_start (values : List ρ) : IsAfter values [] (start values.length) where
  length := List.length_replicate
  stored := fun i inside => by
    rw [start, List.getElem?_replicate, if_pos inside, if_neg List.not_mem_nil]
  completed := rfl
  calls := by
    cases values with
    | nil => rfl
    | cons value values => rfl

/-- As many different jobs as there are, are all of them. -/
theorem mem_of_full {jobs : Nat} {ended : List Nat} (different : ended.Nodup)
    (inside : ∀ i ∈ ended, i < jobs) (full : ended.length = jobs) {i : Nat} (isJob : i < jobs) :
    i ∈ ended := by
  have within : ended.toFinset ⊆ Finset.range jobs :=
    fun j member => Finset.mem_range.mpr (inside j (List.mem_toFinset.mp member))
  have all : ended.toFinset = Finset.range jobs := by
    apply Finset.eq_of_subset_of_card_le within
    rw [Finset.card_range, List.toFinset_card_of_nodup different, full]
  apply List.mem_toFinset.mp
  rw [all]
  exact Finset.mem_range.mpr isJob

/-- Where all results are stored, they are handed on in the order of the jobs. -/
theorem filterMap_of_stored {values : List ρ} {results : List (Option ρ)}
    (length : results.length = values.length)
    (stored : ∀ i < values.length, results[i]? = some values[i]?) :
    results.filterMap id = values := by
  have all : results = values.map some := by
    apply List.ext_getElem?
    intro i
    rcases Nat.lt_or_ge i values.length with inside | outside
    · rw [stored i inside, List.getElem?_map, List.getElem?_eq_getElem inside]
      rfl
    · rw [List.getElem?_eq_none (by omega), List.getElem?_eq_none]
      rw [List.length_map]
      exact outside
  rw [all, List.filterMap_map]
  exact List.filterMap_some

/-- A job that had not ended ends. -/
theorem IsAfter.complete {values : List ρ} {ended : List Nat} {gather : Gather ρ}
    (after : IsAfter values ended gather) {i : Nat} {value : ρ} (isValue : values[i]? = some value)
    (different : (ended ++ [i]).Nodup) (inside : ∀ j ∈ ended ++ [i], j < values.length) :
    IsAfter values (ended ++ [i]) (gather.complete i value) := by
  have new : i ∉ ended := fun member =>
    List.disjoint_of_nodup_append different member (List.mem_singleton_self i)
  have isJob : i < values.length :=
    inside i (List.mem_append_right _ (List.mem_singleton_self i))
  have stored : ∀ j < values.length, (gather.results.set i (some value))[j]? =
      some (if j ∈ ended ++ [i] then values[j]? else none) := by
    intro j isOther
    rw [List.getElem?_set]
    split
    · rename_i same
      have member : j ∈ ended ++ [i] := same ▸ List.mem_append_right _ (List.mem_singleton_self i)
      rw [if_pos (after.length ▸ isJob), if_pos member, ← same, isValue]
    · rename_i other
      rw [after.stored j isOther]
      simp only [List.mem_append, List.mem_singleton, Ne.symm other, or_false]
  have length : (gather.results.set i (some value)).length = values.length := by
    rw [List.length_set, after.length]
  refine ⟨length, stored, ?_, ?_⟩
  · rw [Gather.complete, after.completed, List.length_append, List.length_singleton]
  · have notFull : ended.length ≠ values.length := by
      intro full
      have before : ∀ j ∈ ended, j < values.length :=
        fun j member => inside j (List.mem_append_left _ member)
      exact new (mem_of_full (List.nodup_append.mp different).1 before full isJob)
    have noCall := after.calls
    rw [if_neg notFull] at noCall
    rw [Gather.complete, noCall, after.completed, length, List.length_append, List.length_singleton,
      List.nil_append]
    split
    · rename_i full
      have all : ∀ j < values.length, j ∈ ended ++ [i] := fun j isOther =>
        mem_of_full different inside (by rwa [List.length_append]) isOther
      rw [filterMap_of_stored length]
      intro j isOther
      rw [stored j isOther, if_pos (all j isOther)]
    · rfl

theorem IsAfter.completeAll {values : List ρ} {ended order : List Nat} {gather : Gather ρ}
    (after : IsAfter values ended gather) (different : (ended ++ order).Nodup)
    (inside : ∀ j ∈ ended ++ order, j < values.length) :
    IsAfter values (ended ++ order) (gather.completeAll values order) := by
  induction order generalizing ended gather with
  | nil =>
      rw [List.append_nil]
      exact after
  | cons i order ih =>
      rw [List.append_cons] at different inside ⊢
      have first : ∀ j ∈ ended ++ [i], j < values.length :=
        fun j member => inside j (List.mem_append_left _ member)
      have isJob : i < values.length :=
        first i (List.mem_append_right _ (List.mem_singleton_self i))
      have isValue := List.getElem?_eq_getElem isJob
      have next := after.complete isValue (List.nodup_append.mp different).1 first
      have step : gather.completeAll values (i :: order) =
          (gather.complete i values[i]).completeAll values order := by
        rw [Gather.completeAll, List.foldl_cons, isValue]
        rfl
      rw [step]
      exact ih next different inside

/-- Whatever the order in which all jobs end, their results are handed on once and in order. -/
theorem calls_of_perm (values : List ρ) {order : List Nat}
    (all : order.Perm (List.range values.length)) :
    ((start values.length).completeAll values order).calls = [values] := by
  have inside : ∀ j ∈ [] ++ order, j < values.length :=
    fun j member => List.mem_range.mp (all.mem_iff.mp member)
  have after := (isAfter_start values).completeAll (all.nodup_iff.mpr List.nodup_range) inside
  rw [List.nil_append] at after
  rw [after.calls, all.length_eq, List.length_range, if_pos rfl]

end Gather

end Transition
