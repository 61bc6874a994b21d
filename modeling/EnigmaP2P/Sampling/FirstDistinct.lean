import Mathlib.Data.Finset.Card
import Mathlib.Order.Nat

/-!
# The first distinct draws of a sequence

A sampler without replacement draws until it has a number of different values. Its collection
is what the first draws give, each once, and grows by at most one value with a draw. So it
has any number of values that are all drawn some time, after a first number of draws; and a
loop that draws until then ends there.
-/

namespace Sampling

variable {α : Type} [BEq α] [LawfulBEq α] (draw : Nat → α)

/-- A value is collected once. -/
def collect (seen : List α) (value : α) : List α :=
  if value ∈ seen then seen else seen ++ [value]

/-- What the first draws give, in the order of their first draw. -/
def firstDistinct (n : Nat) : List α :=
  ((List.range n).map draw).eraseDups

theorem eraseDups_concat (values : List α) (value : α) :
    (values ++ [value]).eraseDups = collect values.eraseDups value := by
  rw [List.eraseDups_append, collect, List.removeAll]
  split
  · rename_i seen
    rw [List.mem_eraseDups] at seen
    simp [seen]
  · rename_i new
    rw [List.mem_eraseDups] at new
    simp [new, List.eraseDups_cons]

theorem firstDistinct_succ (n : Nat) :
    firstDistinct draw (n + 1) = collect (firstDistinct draw n) (draw n) := by
  rw [firstDistinct, List.range_succ, List.map_append]
  exact eraseDups_concat _ _

theorem nodup_collect {seen : List α} (nodup : seen.Nodup) (value : α) :
    (collect seen value).Nodup := by
  rw [collect]
  split
  · exact nodup
  · rename_i new
    exact List.nodup_append.mpr ⟨nodup, List.nodup_singleton _,
      fun a isSeen b isValue same => new (List.mem_singleton.mp isValue ▸ same ▸ isSeen)⟩

theorem length_collect_le (seen : List α) (value : α) :
    (collect seen value).length ≤ seen.length + 1 := by
  rw [collect]
  split
  · omega
  · rw [List.length_append, List.length_singleton]

theorem nodup_firstDistinct (n : Nat) : (firstDistinct draw n).Nodup := by
  induction n with
  | zero => exact List.nodup_nil
  | succ n ih =>
      rw [firstDistinct_succ]
      exact nodup_collect ih _

theorem mem_firstDistinct {n : Nat} {value : α} :
    value ∈ firstDistinct draw n ↔ ∃ i < n, draw i = value := by
  rw [firstDistinct, List.mem_eraseDups, List.mem_map]
  simp only [List.mem_range]

/-- Draws give at most one value each. -/
theorem length_firstDistinct_succ_le (n : Nat) :
    (firstDistinct draw (n + 1)).length ≤ (firstDistinct draw n).length + 1 := by
  rw [firstDistinct_succ]
  exact length_collect_le _ _

variable {draw}

/-- Values that are all drawn some time are all among the first draws. -/
theorem exists_subset_firstDistinct {values : Finset α}
    (drawn : ∀ value ∈ values, ∃ i, draw i = value) :
    ∃ n, ∀ value ∈ values, value ∈ firstDistinct draw n := by
  classical
  induction values using Finset.induction_on with
  | empty => exact ⟨0, fun _ none => absurd none (Finset.notMem_empty _)⟩
  | insert value values _ ih =>
      obtain ⟨n, within⟩ := ih fun other member => drawn other (Finset.mem_insert_of_mem member)
      obtain ⟨i, isValue⟩ := drawn value (Finset.mem_insert_self _ _)
      refine ⟨max n (i + 1), fun other member => (mem_firstDistinct draw).mpr ?_⟩
      rcases Finset.mem_insert.mp member with rfl | member
      · exact ⟨i, by omega, isValue⟩
      · obtain ⟨j, below, isOther⟩ := (mem_firstDistinct draw).mp (within other member)
        exact ⟨j, by omega, isOther⟩

/-- So many draws, and no fewer, give `k` values. -/
structure IsTurn (draw : Nat → α) (k n : Nat) : Prop where
  length : (firstDistinct draw n).length = k
  first : ∀ m < n, (firstDistinct draw m).length < k

/-- There is such a number of draws if there are `k` values that are all drawn some time. -/
theorem exists_isTurn {values : Finset α} (drawn : ∀ value ∈ values, ∃ i, draw i = value)
    {k : Nat} (enough : k ≤ values.card) : ∃ n, IsTurn draw k n := by
  classical
  have reached : ∃ n, k ≤ (firstDistinct draw n).length := by
    obtain ⟨n, within⟩ := exists_subset_firstDistinct drawn
    have subset : values ⊆ (firstDistinct draw n).toFinset :=
      fun value member => List.mem_toFinset.mpr (within value member)
    have bound := Finset.card_le_card subset
    rw [List.toFinset_card_of_nodup (nodup_firstDistinct draw n)] at bound
    exact ⟨n, Nat.le_trans enough bound⟩
  refine ⟨Nat.find reached, ?_, fun m less => Nat.lt_of_not_le (Nat.find_min reached less)⟩
  apply Nat.le_antisymm _ (Nat.find_spec reached)
  cases isFirst : Nat.find reached with
  | zero => exact Nat.zero_le _
  | succ n =>
      have before : (firstDistinct draw n).length < k :=
        Nat.lt_of_not_le (Nat.find_min reached (isFirst ▸ Nat.lt_succ_self n))
      have grows := length_firstDistinct_succ_le draw n
      omega

/-! ## The loop -/

/-- Draw at least once, and until there are `k` values; `none` when the fuel is used up. -/
def drawUntil (draw : Nat → α) (k : Nat) : Nat → Nat → List α → Option (List α)
  | fuel, n, seen =>
      if (collect seen (draw n)).length < k then
        match fuel with
        | 0 => none
        | fuel + 1 => drawUntil draw k fuel (n + 1) (collect seen (draw n))
      else some (collect seen (draw n))

/-- With enough fuel, the loop ends with the first draws that give `k` values. -/
theorem drawUntil_firstDistinct {k last n fuel : Nat} (turn : IsTurn draw k (last + 1))
    (started : n ≤ last) (enough : last ≤ n + fuel) :
    drawUntil draw k fuel n (firstDistinct draw n) = some (firstDistinct draw (last + 1)) := by
  induction fuel generalizing n with
  | zero =>
      have isLast : n = last := by omega
      rw [drawUntil, ← firstDistinct_succ, isLast, turn.length, if_neg (Nat.lt_irrefl k)]
  | succ fuel ih =>
      rw [drawUntil, ← firstDistinct_succ]
      rcases Nat.eq_or_lt_of_le started with isLast | before
      · rw [isLast, turn.length, if_neg (Nat.lt_irrefl k)]
      · rw [if_pos (turn.first (n + 1) (by omega))]
        exact ih before (by omega)

/-- The loop draws once even for no value. -/
theorem drawUntil_zero (draw : Nat → α) (fuel : Nat) :
    drawUntil draw 0 fuel 0 [] = some [draw 0] := by
  unfold drawUntil
  rfl

end Sampling
