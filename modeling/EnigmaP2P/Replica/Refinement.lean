import EnigmaP2P.Replica.Store
import Mathlib.Data.List.Perm.Basic
import Mathlib.Data.List.Nodup

/-!
# Refining edits

A concrete operation refines an edit if it does to a concrete state what the edit does to a
store that the state represents. Operations that refine the edits of a list refine the list.
Edits of distinct keys may be done in any order.
-/

namespace Replica

universe u v

variable {κ : Type u} {ν : Type v} [DecidableEq κ] {store target : Store κ ν}
  {edits others : List (Edit κ ν)}

/-! ## The order of edits -/

/-- What an edit does to its key, and that it does no more. -/
theorem Edit.apply_eq_some {edit : Edit κ ν} (applied : edit.apply store = some target) :
    edit.change (store edit.key) = some (target edit.key) ∧
      ∀ key, key ≠ edit.key → target key = store key := by
  obtain ⟨content, changed, rfl⟩ := Option.map_eq_some_iff.mp applied
  rw [Function.update_self]
  exact ⟨changed, fun key differs => Function.update_of_ne differs content store⟩

/-- What edits of distinct keys reach, as `applyAll_eq_some` has it. -/
theorem of_applyAll (distinct : (edits.map Edit.key).Nodup)
    (applied : applyAll edits store = some target) :
    (∀ edit ∈ edits, edit.change (store edit.key) = some (target edit.key)) ∧
      ∀ key, key ∉ edits.map Edit.key → store key = target key := by
  induction edits generalizing store with
  | nil =>
      cases applied
      exact ⟨fun _ member => absurd member List.not_mem_nil, fun _ _ => rfl⟩
  | cons edit rest ih =>
      obtain ⟨fresh, later⟩ := List.nodup_cons.mp distinct
      obtain ⟨middle, first, applied⟩ := Option.bind_eq_some_iff.mp applied
      obtain ⟨changed, untouched⟩ := edit.apply_eq_some first
      obtain ⟨changes, kept⟩ := ih later applied
      refine ⟨List.forall_mem_cons.mpr ⟨?_, fun other member => ?_⟩, fun key unlisted => ?_⟩
      · rw [← kept edit.key fresh]
        exact changed
      · have differs : other.key ≠ edit.key := by
          rintro same
          exact fresh (same ▸ List.mem_map_of_mem member)
        rw [← untouched other.key differs]
        exact changes other member
      · obtain ⟨differs, notLater⟩ := not_or.mp (mt List.mem_cons.mpr unlisted)
        rw [← untouched key differs]
        exact kept key notLater

/-- Edits of distinct keys reach the same store in any order. -/
theorem applyAll_of_perm (perm : others.Perm edits) (distinct : (edits.map Edit.key).Nodup)
    (applied : applyAll edits store = some target) : applyAll others store = some target := by
  have keys := perm.map Edit.key
  obtain ⟨changed, kept⟩ := of_applyAll distinct applied
  refine applyAll_eq_some (keys.nodup_iff.mpr distinct) ?_ ?_
  · exact fun edit member => changed edit (perm.mem_iff.mp member)
  · exact fun key unlisted => kept key fun listed => unlisted (keys.mem_iff.mpr listed)

/-- The first part of a list of edits, and the rest. -/
theorem applyAll_append (edits others : List (Edit κ ν)) (store : Store κ ν) :
    applyAll (edits ++ others) store = (applyAll edits store).bind (applyAll others) := by
  induction edits generalizing store with
  | nil => rfl
  | cons edit rest ih =>
      rw [List.cons_append, applyAll, applyAll]
      cases edit.apply store with
      | none => rfl
      | some middle => exact ih middle

/-! ## Refinement -/

section

variable {σ : Type v} {ι : Type u} {represents : σ → Store κ ν → Prop}

/-- The operation does what the edit does, and does not fail where the edit is accepted. -/
def Refines (represents : σ → Store κ ν → Prop) (operation : σ → Option σ) (edit : Edit κ ν) :
    Prop :=
  ∀ state store target, represents state store → edit.apply store = some target →
    ∃ after, operation state = some after ∧ represents after target

/-- Operations that refine the edits of a list refine the list. -/
theorem foldlM_refines {operation : σ → ι → Option σ} {edit : ι → Edit κ ν} {items : List ι}
    (refines : ∀ item ∈ items, Refines represents (operation · item) (edit item)) {state : σ}
    (related : represents state store)
    (applied : applyAll (items.map edit) store = some target) :
    ∃ after, items.foldlM operation state = some after ∧ represents after target := by
  induction items generalizing state store with
  | nil =>
      cases applied
      exact ⟨state, rfl, related⟩
  | cons item rest ih =>
      obtain ⟨middle, first, applied⟩ := Option.bind_eq_some_iff.mp applied
      obtain ⟨now, later⟩ := List.forall_mem_cons.mp refines
      obtain ⟨between, performed, related⟩ := now state store middle related first
      obtain ⟨after, rest, related⟩ := ih later related applied
      have performed : operation state item = some between := performed
      refine ⟨after, ?_, related⟩
      rw [List.foldlM_cons, performed]
      exact rest

end

/-! ## Append-only logs -/

variable {δ : Type v}

/-- Entries that a log accepts come behind it, under their indexes. -/
theorem of_appendAt {items : List (δ × Nat)} {log grown : List δ}
    (appended : appendAt items log = some grown) :
    grown = log ++ items.map (·.1) ∧
      items.map (·.2) = List.range' log.length items.length := by
  induction items generalizing log with
  | nil =>
      cases appended
      exact ⟨(List.append_nil _).symm, rfl⟩
  | cons item rest ih =>
      obtain ⟨entry, index⟩ := item
      rw [appendAt] at appended
      split at appended
      · rename_i isNext
        obtain ⟨rfl, indexes⟩ := ih appended
        refine ⟨?_, ?_⟩
        · rw [List.append_assoc]
          rfl
        · rw [List.length_append, List.length_singleton] at indexes
          rw [List.map_cons, indexes, isNext]
          rfl
      · cases appended

end Replica
