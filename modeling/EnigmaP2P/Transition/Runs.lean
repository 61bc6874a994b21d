import Mathlib.Data.List.Basic

/-!
# Runs of a total step function

A run is the fold of a step function over the labels that occurred. A condition
on labels may depend on the state it meets; `Meets` says that every label of a run
met it. Preservation by one step that meets the condition is enough for every
state of such a run, and the states of a run are those after its prefixes.
-/

namespace Transition

universe u v

variable {σ : Type u} {ι : Type v}

/-- The state after the labels of a run. -/
def run (step : σ → ι → σ) (start : σ) (labels : List ι) : σ :=
  labels.foldl step start

@[simp] theorem run_nil (step : σ → ι → σ) (start : σ) : run step start [] = start := rfl

@[simp] theorem run_cons (step : σ → ι → σ) (start : σ) (label : ι) (labels : List ι) :
    run step start (label :: labels) = run step (step start label) labels := rfl

theorem run_append (step : σ → ι → σ) (start : σ) (first second : List ι) :
    run step start (first ++ second) = run step (run step start first) second :=
  List.foldl_append

/-- Each label satisfies the condition in the state it meets. -/
def Meets (condition : σ → ι → Prop) (step : σ → ι → σ) : σ → List ι → Prop
  | _, [] => True
  | state, label :: labels =>
      condition state label ∧ Meets condition step (step state label) labels

variable {condition : σ → ι → Prop} {step : σ → ι → σ}

/-- A prefix of a run meets what the whole run meets. -/
theorem Meets.of_append {start : σ} {first second : List ι}
    (meets : Meets condition step start (first ++ second)) :
    Meets condition step start first := by
  induction first generalizing start with
  | nil => exact trivial
  | cons label first ih => exact ⟨meets.1, ih meets.2⟩

/-- After a prefix of a run, its rest meets what the whole run meets. -/
theorem Meets.rest {start : σ} {first second : List ι}
    (meets : Meets condition step start (first ++ second)) :
    Meets condition step (run step start first) second := by
  induction first generalizing start with
  | nil => exact meets
  | cons label first ih => exact ih meets.2

/-- A condition on labels alone can be met along with another one. -/
theorem Meets.and_all {allowed : ι → Prop} {start : σ} {labels : List ι}
    (meets : Meets condition step start labels) (all : ∀ label ∈ labels, allowed label) :
    Meets (fun state label => condition state label ∧ allowed label) step start labels := by
  induction labels generalizing start with
  | nil => exact trivial
  | cons label labels ih =>
      obtain ⟨first, later⟩ := List.forall_mem_cons.mp all
      exact ⟨⟨meets.1, first⟩, ih meets.2 later⟩

/-- Two conditions are met together. -/
theorem Meets.and {other : σ → ι → Prop} {start : σ} {labels : List ι}
    (meets : Meets condition step start labels) (meetsOther : Meets other step start labels) :
    Meets (fun state label => condition state label ∧ other state label) step start labels := by
  induction labels generalizing start with
  | nil => exact trivial
  | cons label labels ih => exact ⟨⟨meets.1, meetsOther.1⟩, ih meets.2 meetsOther.2⟩

/-- The label after a prefix meets the condition in the state after it. -/
theorem Meets.last {start : σ} {passed : List ι} {label : ι}
    (meets : Meets condition step start (passed ++ [label])) :
    condition (run step start passed) label := by
  induction passed generalizing start with
  | nil => exact meets.1
  | cons first passed ih => exact ih meets.2

/-- An invariant of the steps that meet the condition holds at the end of every run
that meets it. -/
theorem invariant_run {Inv : σ → Prop} {start : σ} (initial : Inv start)
    (preserved : ∀ state label, Inv state → condition state label → Inv (step state label))
    {labels : List ι} (meets : Meets condition step start labels) :
    Inv (run step start labels) := by
  induction labels generalizing start with
  | nil => exact initial
  | cons label labels ih => exact ih (preserved start label initial meets.1) meets.2

/-- An invariant of every step holds at the end of every run. -/
theorem invariant_of_step {Inv : σ → Prop} {start : σ} (initial : Inv start)
    (preserved : ∀ state label, Inv state → Inv (step state label)) (labels : List ι) :
    Inv (run step start labels) := by
  induction labels generalizing start with
  | nil => exact initial
  | cons label labels ih => exact ih (preserved start label initial)

/-- An invariant of every step with a label of the run holds at its end. -/
theorem invariant_of_mem {Inv : σ → Prop} {start : σ} {labels : List ι} (initial : Inv start)
    (preserved : ∀ state, ∀ label ∈ labels, Inv state → Inv (step state label)) :
    Inv (run step start labels) := by
  induction labels generalizing start with
  | nil => exact initial
  | cons label labels ih =>
      exact ih (preserved start label List.mem_cons_self initial)
        fun state other member => preserved state other (List.mem_cons_of_mem label member)

/-- What follows from an invariant and a condition is met by every run that meets the condition,
if the steps that do so keep the invariant. -/
theorem meets_of_invariant {Inv : σ → Prop} {other : σ → ι → Prop} {start : σ}
    (initial : Inv start)
    (preserved : ∀ state label, Inv state → condition state label → Inv (step state label))
    (follows : ∀ state label, Inv state → condition state label → other state label)
    {labels : List ι} (meets : Meets condition step start labels) :
    Meets other step start labels := by
  induction labels generalizing start with
  | nil => exact trivial
  | cons label labels ih =>
      have here := follows start label initial meets.1
      exact ⟨here, ih (preserved start label initial meets.1) meets.2⟩

/-- Two conditions that agree wherever an invariant holds, which one of them keeps, are met by
the same runs. -/
theorem meets_congr {Inv : σ → Prop} {allowed : ι → Prop} {other : σ → ι → Prop} {start : σ}
    (initial : Inv start)
    (same : ∀ state label, Inv state → allowed label → (condition state label ↔ other state label))
    (preserved : ∀ state label, Inv state → allowed label → other state label →
      Inv (step state label))
    {labels : List ι} (all : ∀ label ∈ labels, allowed label) :
    Meets condition step start labels ↔ Meets other step start labels := by
  induction labels generalizing start with
  | nil => exact Iff.rfl
  | cons label labels ih =>
      obtain ⟨first, later⟩ := List.forall_mem_cons.mp all
      have here := same start label initial first
      constructor
      · rintro ⟨meets, rest⟩
        have holds := here.mp meets
        exact ⟨holds, (ih (preserved start label initial first holds) later).mp rest⟩
      · rintro ⟨holds, rest⟩
        exact ⟨here.mpr holds, (ih (preserved start label initial first holds) later).mpr rest⟩

/-- A reflexive and transitive relation between neighbouring states relates the ends of
every run. -/
theorem related_run {Rel : σ → σ → Prop} (refl : ∀ state, Rel state state)
    (trans : ∀ {a b c}, Rel a b → Rel b c → Rel a c)
    (related : ∀ state label, Rel state (step state label)) (start : σ) (labels : List ι) :
    Rel start (run step start labels) := by
  induction labels generalizing start with
  | nil => exact refl start
  | cons label labels ih => exact trans (related start label) (ih (step start label))

/-- The states of a run after its first one, each with what the step to it gave out. -/
def trace {ω : Type v} (step : σ → ι → σ × ω) : σ → List ι → List (σ × ω)
  | _, [] => []
  | state, label :: labels => step state label :: trace step (step state label).1 labels

/-- Two machines have the same trace exactly if they agree at every step of it. -/
theorem trace_eq_iff {ω : Type v} {step other : σ → ι → σ × ω} {start : σ} {labels : List ι} :
    trace step start labels = trace other start labels ↔
      Meets (fun state label => step state label = other state label)
        (fun state label => (step state label).1) start labels := by
  induction labels generalizing start with
  | nil => exact iff_of_true rfl trivial
  | cons label labels ih =>
      rw [trace, trace, List.cons.injEq, Meets, ← ih]
      constructor
      · rintro ⟨same, later⟩
        rw [← same] at later
        exact ⟨same, later⟩
      · rintro ⟨same, later⟩
        rw [← same]
        exact ⟨rfl, later⟩

/-- Conditions that agree everywhere are met by the same runs. -/
theorem meets_iff {other : σ → ι → Prop}
    (same : ∀ state label, condition state label ↔ other state label) {start : σ}
    {labels : List ι} : Meets condition step start labels ↔ Meets other step start labels := by
  have equal : condition = other := by
    funext state label
    exact propext (same state label)
  rw [equal]

/-- The entries of a log to which a step adds one. -/
theorem getElem?_concat_eq_some {α : Type u} {entries : List α} {entry found : α} {i : Nat} :
    (entries ++ [entry])[i]? = some found ↔
      entries[i]? = some found ∨ i = entries.length ∧ found = entry := by
  rcases Nat.lt_trichotomy i entries.length with below | rfl | above
  · rw [List.getElem?_append_left below]
    exact (or_iff_left fun last => absurd last.1 (Nat.ne_of_lt below)).symm
  · rw [List.getElem?_concat_length, List.getElem?_eq_none (Nat.le_refl _), Option.some.injEq]
    simp [eq_comm]
  · have outside : (entries ++ [entry]).length ≤ i := by
      rw [List.length_append]
      exact above
    rw [List.getElem?_eq_none outside, List.getElem?_eq_none (Nat.le_of_lt above)]
    simp [Nat.ne_of_gt above]

/-- Some label comes behind labels with which it has the property. -/
def Happens (property : List ι → ι → Prop) (labels : List ι) : Prop :=
  ∃ before label after, labels = before ++ label :: after ∧ property before label

theorem not_happens_nil (property : List ι → ι → Prop) : ¬ Happens property [] := by
  rintro ⟨before, label, after, split, -⟩
  exact absurd split.symm (by simp)

/-- It happened before the last label, or happens there. -/
theorem happens_concat {property : List ι → ι → Prop} {passed : List ι} {label : ι} :
    Happens property (passed ++ [label]) ↔ Happens property passed ∨ property passed label := by
  constructor
  · rintro ⟨before, other, after, split, holds⟩
    rcases after.eq_nil_or_concat with rfl | ⟨after, last, rfl⟩
    · obtain ⟨rfl, same⟩ := List.append_inj' split rfl
      cases same
      exact .inr holds
    · rw [List.concat_eq_append, ← List.cons_append, ← List.append_assoc] at split
      obtain ⟨rfl, -⟩ := List.append_inj' split rfl
      exact .inl ⟨before, other, after, rfl, holds⟩
  · rintro (⟨before, other, after, rfl, holds⟩ | holds)
    · exact ⟨before, other, after ++ [label], by simp, holds⟩
    · exact ⟨passed, label, [], rfl, holds⟩

end Transition
