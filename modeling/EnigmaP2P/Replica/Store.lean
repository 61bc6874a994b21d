import Mathlib.Data.List.Nodup
import Mathlib.Logic.Function.Basic

/-!
# Editing a replicated store

A store maps keys to contents. An edit concerns one key, may refuse the content it
finds, and otherwise says what the key holds afterwards. Edits of distinct keys do
not see each other, so a whole list of them is described key by key.

The contents used here are append-only logs: an entry is appended only at the
index that is the length of the log, so a list of indexed entries that a log
accepts neither skips nor repeats an index.
-/

namespace Replica

universe u v

variable {κ : Type u} {ν : Type v}

/-- What a replica holds under each key. -/
abbrev Store (κ : Type u) (ν : Type v) := κ → Option ν

/-- One edit: `none` refuses, `some content` is what the key holds afterwards. -/
structure Edit (κ : Type u) (ν : Type v) where
  key : κ
  change : Option ν → Option (Option ν)

variable [DecidableEq κ]

def Edit.apply (edit : Edit κ ν) (store : Store κ ν) : Option (Store κ ν) :=
  (edit.change (store edit.key)).map (Function.update store edit.key)

def applyAll : List (Edit κ ν) → Store κ ν → Option (Store κ ν)
  | [], store => some store
  | edit :: rest, store => (edit.apply store).bind (applyAll rest)

/-- Edits of distinct keys reach the store that agrees with each edit at its own key
and with the old store everywhere else. -/
theorem applyAll_eq_some {edits : List (Edit κ ν)} {store target : Store κ ν}
    (distinct : (edits.map Edit.key).Nodup)
    (changed : ∀ edit ∈ edits, edit.change (store edit.key) = some (target edit.key))
    (kept : ∀ key, key ∉ edits.map Edit.key → store key = target key) :
    applyAll edits store = some target := by
  induction edits generalizing store with
  | nil =>
      have same : store = target := funext fun key => kept key List.not_mem_nil
      rw [applyAll, same]
  | cons edit rest ih =>
      obtain ⟨fresh, later⟩ := List.nodup_cons.mp distinct
      have first := changed edit List.mem_cons_self
      rw [applyAll, Edit.apply, first]
      refine ih later ?_ ?_
      · intro other member
        have differs : other.key ≠ edit.key := by
          rintro same
          exact fresh (same ▸ List.mem_map_of_mem member)
        rw [Function.update_of_ne differs]
        exact changed other (List.mem_cons_of_mem _ member)
      · intro key untouched
        by_cases same : key = edit.key
        · rw [same, Function.update_self]
        · rw [Function.update_of_ne same]
          exact kept key (by simp [same, untouched])

/-! ## Append-only logs -/

variable {δ : Type v}

/-- Appends indexed entries, each at the end of the log. -/
def appendAt : List (δ × Nat) → List δ → Option (List δ)
  | [], log => some log
  | (entry, index) :: rest, log =>
      if index = log.length then appendAt rest (log ++ [entry]) else none

/-- The entries of a longer log from the length of the shorter one on. -/
theorem appendAt_zipIdx (entries log : List δ) :
    appendAt (entries.zipIdx log.length) log = some (log ++ entries) := by
  induction entries generalizing log with
  | nil => simp [appendAt]
  | cons entry rest ih =>
      have next := ih (log ++ [entry])
      rw [List.length_append, List.length_singleton] at next
      rw [List.zipIdx_cons, appendAt, if_pos rfl, next, List.append_assoc, List.singleton_append]

end Replica
