import Mathlib.Data.List.Basic
import Mathlib.Data.List.Forall2
import Mathlib.Order.Lattice

/-!
# The latest entries of a history

`latest n` keeps the last `n` entries of a history. A buffer that appends an entry and
then drops its first one when it is longer than `n` holds the latest entries of whatever
was written, in order, when it held those of what was written before.
-/

namespace Window

universe u v

variable {α : Type u} {β : Type v}

/-- The last `n` entries, or all of a shorter history. -/
def latest (n : Nat) (history : List α) : List α :=
  history.drop (history.length - n)

/-- Append an entry and drop the first one when there are more than `n`. -/
def push (n : Nat) (window : List α) (entry : α) : List α :=
  if n < (window ++ [entry]).length then (window ++ [entry]).tail else window ++ [entry]

theorem length_latest (n : Nat) (history : List α) :
    (latest n history).length = min n history.length := by
  rw [latest, List.length_drop]
  omega

theorem latest_of_le {n : Nat} {history : List α} (short : history.length ≤ n) :
    latest n history = history := by
  rw [latest, Nat.sub_eq_zero_of_le short, List.drop_zero]

@[simp] theorem latest_map (n : Nat) (f : α → β) (history : List α) :
    latest n (history.map f) = (latest n history).map f := by
  rw [latest, latest, List.length_map, List.map_drop]

theorem latest_suffix (n : Nat) (history : List α) : latest n history <:+ history :=
  List.drop_suffix _ _

theorem mem_of_mem_latest {n : Nat} {history : List α} {entry : α}
    (member : entry ∈ latest n history) : entry ∈ history :=
  (latest_suffix n history).subset member

/-- A window that is full loses its first entry to a new one. -/
theorem latest_append_of_full {n : Nat} {history : List α} (full : n ≤ history.length)
    (entry : α) : latest n (history ++ [entry]) = (latest n history ++ [entry]).tail := by
  cases n with
  | zero => simp [latest]
  | succ n =>
      have first : history.length - (n + 1) < history.length := by omega
      have split : latest (n + 1) history =
          history[history.length - (n + 1)] :: history.drop (history.length - n) := by
        rw [latest, List.drop_eq_getElem_cons first]
        congr 2
        omega
      rw [split, latest, List.length_append, List.length_singleton,
        List.drop_append_of_le_length (by omega)]
      simp only [List.cons_append, List.tail_cons]
      congr 2
      omega

/-- Pushing onto the window of a history is the window of the longer history. -/
theorem push_latest {n : Nat} (history : List α) (entry : α) :
    push n (latest n history) entry = latest n (history ++ [entry]) := by
  rw [push, List.length_append, length_latest, List.length_singleton]
  by_cases full : n ≤ history.length
  · rw [if_pos (by omega), latest_append_of_full full]
  · rw [if_neg (by omega), latest_of_le (by omega), latest_of_le (by simp; omega)]

/-- Every member of a list has a partner in a related list. -/
theorem exists_partner {related : α → β → Prop} {window : List α} {other : List β}
    (windows : List.Forall₂ related window other) {a : α} (member : a ∈ window) :
    ∃ b ∈ other, related a b := by
  induction windows with
  | nil => cases member
  | cons first rest ih =>
      rcases List.mem_cons.mp member with rfl | later
      · exact ⟨_, List.mem_cons_self, first⟩
      · obtain ⟨b, inRest, relates⟩ := ih later
        exact ⟨b, List.mem_cons_of_mem _ inRest, relates⟩

/-- Pushing related entries onto related windows. -/
theorem push_forall₂ {n : Nat} {related : α → β → Prop} {window : List α} {other : List β}
    (windows : List.Forall₂ related window other) {a : α} {b : β} (entries : related a b) :
    List.Forall₂ related (push n window a) (push n other b) := by
  have appended : List.Forall₂ related (window ++ [a]) (other ++ [b]) :=
    List.rel_append windows (.cons entries .nil)
  unfold push
  rw [appended.length_eq]
  split
  · rw [← List.drop_one, ← List.drop_one]
    exact List.forall₂_drop 1 appended
  · exact appended

/-- Either no entry satisfies the predicate or there is a last one that does. -/
theorem none_or_last (p : α → Prop) (history : List α) :
    (∀ entry ∈ history, ¬ p entry) ∨ ∃ before entry after,
      history = before ++ entry :: after ∧ p entry ∧ ∀ later ∈ after, ¬ p later := by
  induction history with
  | nil => exact .inl nofun
  | cons entry rest ih =>
      rcases ih with none | ⟨before, last, after, split, holds, later⟩
      · by_cases here : p entry
        · exact .inr ⟨[], entry, rest, rfl, here, none⟩
        · exact .inl (List.forall_mem_cons.mpr ⟨here, none⟩)
      · exact .inr ⟨entry :: before, last, after, by rw [split]; rfl, holds, later⟩

/-- There is only one last entry. -/
theorem last_unique {p : α → Prop} {before before' after after' : List α} {entry entry' : α}
    (same : before ++ entry :: after = before' ++ entry' :: after') (holds : p entry)
    (holds' : p entry')
    (later : ∀ other ∈ after, ¬ p other) (later' : ∀ other ∈ after', ¬ p other) :
    before = before' ∧ entry = entry' ∧ after = after' := by
  rcases List.append_eq_append_iff.mp same with ⟨between, rfl, rest⟩ | ⟨between, rfl, rest⟩
  · cases between with
    | nil =>
        cases rest
        exact ⟨(List.append_nil _).symm, rfl, rfl⟩
    | cons first between =>
        cases rest
        exact absurd holds' (later entry' (by simp))
  · cases between with
    | nil =>
        cases rest
        exact ⟨List.append_nil _, rfl, rfl⟩
    | cons first between =>
        cases rest
        exact absurd holds (later' entry (by simp))

/-- In an ascending history the latest entries are those with fewer than `n` later ones. -/
theorem mem_latest_iff [LinearOrder α] {n : Nat} {history : List α}
    (ascending : history.Pairwise (· < ·)) {entry : α} :
    entry ∈ latest n history ↔
      entry ∈ history ∧ (history.filter (entry < ·)).length < n := by
  obtain ⟨before, whole⟩ := latest_suffix n history
  have parts := whole ▸ ascending
  obtain ⟨-, later, apart⟩ := List.pairwise_append.mp parts
  have length := length_latest n history
  constructor
  · intro member
    refine ⟨mem_of_mem_latest member, ?_⟩
    have noneBefore : before.filter (entry < ·) = [] := by
      rw [List.filter_eq_nil_iff]
      intro other early
      simpa using le_of_lt (apart other early entry member)
    have notItself : ((latest n history).filter (entry < ·)).length < (latest n history).length :=
      List.length_filter_lt_length_iff_exists.mpr ⟨entry, member, by simp⟩
    rw [← whole, List.filter_append, noneBefore, List.nil_append]
    omega
  · rintro ⟨member, few⟩
    rw [← whole] at member few
    rcases List.mem_append.mp member with early | late
    · have all : (latest n history).filter (entry < ·) = latest n history := by
        rw [List.filter_eq_self]
        intro other late
        exact decide_eq_true (apart entry early other late)
      rw [List.filter_append, List.length_append, all] at few
      have full : history.length = before.length + (latest n history).length := by
        rw [← List.length_append, whole]
      have some : 0 < before.length := List.length_pos_of_mem early
      omega
    · exact late

end Window
