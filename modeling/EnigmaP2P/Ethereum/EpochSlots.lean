import EnigmaP2P.Ethereum.EnigmaContract
import EnigmaP2P.Window.Latest

/-!
# The slots as a ring

Epochs arrive with ascending block numbers. The slots then hold the latest five epochs,
first the newer ones that have overwritten slots in this turn and then the older ones
that are still to be overwritten, with empty slots at the end until all five are used.
-/

namespace Ethereum

open Window

/-- Epochs in the order of their first blocks. -/
def Ascending (history : List Epoch) : Prop :=
  history.Pairwise (·.firstBlockNumber < ·.firstBlockNumber)

/-- The slots hold a window of epochs, beginning somewhere and going around. -/
structure IsRing (window older newer : List Epoch) (slots : List WorkersParams) : Prop where
  split : window = older ++ newer
  layout : slots = (newer ++ older).map Epoch.toWorkersParams ++
    List.replicate (5 - window.length) emptySlot
  turn : older = [] ↔ window.length < 5

/-- Slots in use are passed over, and the first empty one is taken. -/
private theorem paramIndex_empty (slots : List WorkersParams) {used : List WorkersParams}
    (started : ∀ slot ∈ used, slot.firstBlockNumber ≠ 0) (rest : List WorkersParams) :
    ∀ pi best, paramIndex slots (used ++ emptySlot :: rest) pi best = pi + used.length := by
  induction used with
  | nil => exact fun _ _ => rfl
  | cons slot used ih =>
      intro pi best
      obtain ⟨first, later⟩ := List.forall_mem_cons.mp started
      rw [List.cons_append, paramIndex, if_neg first, List.length_cons]
      split
      · rw [ih later]
        omega
      · rw [ih later]
        omega

/-- After the lowest slot the index does not change. -/
private theorem paramIndex_after {slots : List WorkersParams} {best : Nat}
    {rest : List WorkersParams} (started : ∀ slot ∈ rest, slot.firstBlockNumber ≠ 0)
    (lowest : ∀ slot ∈ rest,
      (slots.getD best emptySlot).firstBlockNumber < slot.firstBlockNumber) :
    ∀ pi, paramIndex slots rest pi best = best := by
  induction rest with
  | nil => exact fun _ => rfl
  | cons slot rest ih =>
      intro pi
      obtain ⟨first, later⟩ := List.forall_mem_cons.mp started
      obtain ⟨above, lowest⟩ := List.forall_mem_cons.mp lowest
      rw [paramIndex, if_neg first, if_neg (by omega), ih later lowest]

/-- With every slot in use, the lowest one is taken. -/
private theorem paramIndex_lowest {slots before after : List WorkersParams}
    {lowest : WorkersParams} {done : List WorkersParams}
    (split : slots = done ++ before ++ lowest :: after)
    (started : ∀ slot ∈ slots, slot.firstBlockNumber ≠ 0)
    (belowBefore : ∀ slot ∈ before, lowest.firstBlockNumber < slot.firstBlockNumber)
    (belowAfter : ∀ slot ∈ after, lowest.firstBlockNumber < slot.firstBlockNumber)
    {best : Nat} (sofar : best = (done ++ before).length ∨
      lowest.firstBlockNumber < (slots.getD best emptySlot).firstBlockNumber) :
    paramIndex slots (before ++ lowest :: after) done.length best =
      (done ++ before).length := by
  induction before generalizing done best with
  | nil =>
      rw [List.append_nil] at split sofar ⊢
      have here : slots.getD done.length emptySlot = lowest := by
        rw [split, List.getD_append_right _ _ _ _ (Nat.le_refl _), Nat.sub_self]
        rfl
      have inUse : ∀ slot ∈ after, slot.firstBlockNumber ≠ 0 := fun slot member =>
        started slot (by simp [split, member])
      have after' := paramIndex_after inUse (here.symm ▸ belowAfter) (done.length + 1)
      rw [List.nil_append, paramIndex, if_neg (started lowest (by simp [split]))]
      rcases sofar with rfl | above
      · rw [here, if_neg (Nat.lt_irrefl _), after']
      · rw [if_pos above, after']
  | cons slot before ih =>
      obtain ⟨below, belowBefore⟩ := List.forall_mem_cons.mp belowBefore
      have here : slots.getD done.length emptySlot = slot := by
        rw [split, List.append_assoc, List.getD_append_right _ _ _ _ (Nat.le_refl _),
          Nat.sub_self]
        rfl
      have next : done.length + 1 = (done ++ [slot]).length := by simp
      have split' : slots = (done ++ [slot]) ++ before ++ lowest :: after := by simp [split]
      have target : (done ++ slot :: before).length = (done ++ [slot] ++ before).length := by simp
      rw [List.cons_append, paramIndex, if_neg (started slot (by simp [split])), target]
      by_cases lower : slot.firstBlockNumber < (slots.getD best emptySlot).firstBlockNumber
      · rw [if_pos lower, next]
        exact ih split' belowBefore (Or.inr (here.symm ▸ below))
      · rw [if_neg lower, next]
        refine ih split' belowBefore ?_
        rcases sofar with same | above
        · exact Or.inl (same.trans target)
        · exact Or.inr above

/-- The slots that hold epochs are in use. -/
private theorem map_started (epochs : List Epoch) :
    ∀ slot ∈ epochs.map Epoch.toWorkersParams, slot.firstBlockNumber ≠ 0 := by
  intro slot member
  obtain ⟨epoch, -, rfl⟩ := List.mem_map.mp member
  exact Nat.ne_of_gt epoch.started

private theorem set_append_length {α : Type} (before : List α) (old new : α) (after : List α) :
    (before ++ old :: after).set before.length new = before ++ new :: after := by
  simp

/-- A ring that is not full gets the epoch in its first empty slot, a full one in the
slot of its oldest epoch. -/
theorem IsRing.afterWrite {window older newer : List Epoch} {slots : List WorkersParams}
    (ring : IsRing window older newer slots) (atMost : window.length ≤ 5) {epoch : Epoch}
    (ascending : Ascending (window ++ [epoch])) :
    ∃ older newer, IsRing (push 5 window epoch) older newer (setWorkersParams slots epoch) := by
  obtain ⟨split, layout, turn⟩ := ring
  by_cases free : window.length < 5
  · have none : older = [] := turn.mpr free
    subst none
    obtain ⟨more, room⟩ : ∃ more, 5 - window.length = more + 1 := ⟨4 - window.length, by omega⟩
    have written : setWorkersParams slots epoch =
        (window ++ [epoch]).map Epoch.toWorkersParams ++ List.replicate more emptySlot := by
      rw [List.append_nil, ← show window = newer from split, room, List.replicate_succ] at layout
      have index := paramIndex_empty slots (map_started window) (List.replicate more emptySlot) 0 0
      rw [← layout, Nat.zero_add] at index
      rw [setWorkersParams, index, layout, set_append_length]
      simp
    have pushed : push 5 window epoch = window ++ [epoch] := by
      rw [push, if_neg (by simp; omega)]
    rw [pushed, written]
    have length : (window ++ [epoch]).length = window.length + 1 := by simp
    have rest : more = 5 - (window ++ [epoch]).length := by omega
    by_cases last : window.length = 4
    · exact ⟨window ++ [epoch], [], by simp, by rw [rest]; rfl, by simp [last]⟩
    · exact ⟨[], window ++ [epoch], rfl, by rw [List.append_nil, rest], by simp; omega⟩
  · have full : window.length = 5 := by omega
    cases older with
    | nil => exact absurd (turn.mp rfl) free
    | cons oldest older =>
        have window' : window = oldest :: (older ++ newer) := split
        have oldestFirst : ∀ other ∈ older ++ newer,
            oldest.firstBlockNumber < other.firstBlockNumber := by
          rw [Ascending, window'] at ascending
          intro other member
          exact (List.pairwise_cons.mp ascending).1 other (List.mem_append_left _ member)
        have below : ∀ part : List Epoch, part ⊆ older ++ newer →
            ∀ slot ∈ part.map Epoch.toWorkersParams,
              oldest.firstBlockNumber < slot.firstBlockNumber := by
          intro part subset slot member
          obtain ⟨other, inPart, rfl⟩ := List.mem_map.mp member
          exact oldestFirst other (subset inPart)
        have slots' : slots = newer.map Epoch.toWorkersParams ++
            oldest.toWorkersParams :: older.map Epoch.toWorkersParams := by
          rw [layout, full]
          simp
        have index : paramIndex slots slots 0 0 = (newer.map Epoch.toWorkersParams).length := by
          have started := map_started (newer ++ oldest :: older)
          have same : (newer ++ oldest :: older).map Epoch.toWorkersParams = slots := by
            rw [slots']
            simp
          rw [same] at started
          have sofar : 0 = (newer.map Epoch.toWorkersParams).length ∨
              oldest.firstBlockNumber < (slots.getD 0 emptySlot).firstBlockNumber := by
            cases newer with
            | nil => exact Or.inl rfl
            | cons first newer =>
                refine Or.inr ?_
                rw [slots']
                exact oldestFirst first (by simp)
          have found := @paramIndex_lowest slots _ _ _ [] slots' started
            (below newer (List.subset_append_right _ _))
            (below older (List.subset_append_left _ _)) 0 sofar
          rw [← slots'] at found
          exact found
        have written : setWorkersParams slots epoch =
            (newer ++ [epoch] ++ older).map Epoch.toWorkersParams := by
          rw [setWorkersParams, index, slots', set_append_length]
          simp
        have pushed : push 5 window epoch = older ++ (newer ++ [epoch]) := by
          rw [push, if_pos (by simp; omega), window']
          simp
        have length : (older ++ (newer ++ [epoch])).length = 5 := by
          rw [window'] at full
          simp at full ⊢
          omega
        rw [pushed, written]
        cases older with
        | nil =>
            refine ⟨newer ++ [epoch], [], by simp, ?_, ?_⟩
            · rw [length]
              simp
            · simp at length ⊢
              omega
        | cons second older =>
            refine ⟨second :: older, newer ++ [epoch], rfl, ?_, ?_⟩
            · rw [length]
              simp
            · rw [length]
              simp

/-- The slots after a history are a ring of its latest five epochs. -/
theorem slotsAfter_ring {history : List Epoch} (ascending : Ascending history) :
    ∃ older newer, IsRing (latest 5 history) older newer (slotsAfter history) := by
  induction history using List.reverseRecOn with
  | nil => exact ⟨[], [], rfl, rfl, by simp [latest]⟩
  | append_singleton history epoch ih =>
      obtain ⟨older, newer, ring⟩ := ih (List.pairwise_append.mp ascending).1
      have suffix : latest 5 history ++ [epoch] <:+ history ++ [epoch] := by
        obtain ⟨before, whole⟩ := latest_suffix 5 history
        exact ⟨before, by rw [← List.append_assoc, whole]⟩
      obtain ⟨older, newer, ring⟩ := ring.afterWrite
        (by rw [length_latest]; exact Nat.min_le_left _ _) (ascending.sublist suffix.sublist)
      refine ⟨older, newer, ?_⟩
      rw [push_latest] at ring
      rw [slotsAfter, List.foldl_append]
      exact ring

/-! ## The lookup in a ring -/

section

variable {window older newer : List Epoch} {slots : List WorkersParams}

theorem IsRing.mem_of_mem (ring : IsRing window older newer slots) {epoch : Epoch}
    (member : epoch ∈ window) : epoch.toWorkersParams ∈ slots := by
  rw [ring.layout]
  refine List.mem_append_left _ (List.mem_map_of_mem ?_)
  rw [ring.split] at member
  exact List.mem_append.mpr (List.mem_append.mp member).symm

theorem IsRing.of_mem (ring : IsRing window older newer slots) {slot : WorkersParams}
    (member : slot ∈ slots) :
    slot = emptySlot ∨ ∃ epoch ∈ window, slot = epoch.toWorkersParams := by
  rw [ring.layout] at member
  rcases List.mem_append.mp member with used | unused
  · obtain ⟨epoch, inRing, rfl⟩ := List.mem_map.mp used
    refine .inr ⟨epoch, ?_, rfl⟩
    rw [ring.split]
    exact List.mem_append.mpr (List.mem_append.mp inRing).symm
  · exact .inl (List.mem_replicate.mp unused).2

/-- The slot at an index that the lookup finds. -/
private theorem IsRing.found (ring : IsRing window older newer slots) {blockNumber index : Nat}
    (found : getWorkerParamsIndex slots blockNumber = some index) :
    slots.getD index emptySlot = emptySlot ∨ ∃ epoch ∈ window,
      epoch.firstBlockNumber ≤ blockNumber ∧
      slots.getD index emptySlot = epoch.toWorkersParams := by
  obtain ⟨inRange, started⟩ := (getWorkerParamsIndex_spec slots blockNumber).1 index found
  rw [List.getD_eq_getElem _ _ inRange] at started ⊢
  rcases ring.of_mem (List.getElem_mem inRange) with empty | ⟨epoch, member, used⟩
  · exact .inl empty
  · exact .inr ⟨epoch, member, by rw [used] at started; exact started, used⟩

/-- The contract finds the last epoch that has started. -/
theorem IsRing.getWorkerParamsIndex_last (ring : IsRing window older newer slots)
    (ascending : Ascending window) {before after : List Epoch} {epoch : Epoch}
    (split : window = before ++ epoch :: after) {blockNumber : Nat}
    (started : epoch.firstBlockNumber ≤ blockNumber)
    (later : ∀ other ∈ after, ¬ other.firstBlockNumber ≤ blockNumber) :
    ∃ index, getWorkerParamsIndex slots blockNumber = some index ∧
      slots.getD index emptySlot = epoch.toWorkersParams := by
  have held : epoch.toWorkersParams ∈ slots := ring.mem_of_mem (by simp [split])
  obtain ⟨index, found, newest⟩ :=
    (getWorkerParamsIndex_spec slots blockNumber).2 _ held started
  refine ⟨index, found, ?_⟩
  rcases ring.found found with empty | ⟨other, member, otherStarted, slot⟩
  · have positive := epoch.started
    rw [empty] at newest
    exact absurd (Nat.lt_of_lt_of_le positive newest) (Nat.lt_irrefl 0)
  · rw [slot] at newest ⊢
    rw [split] at member ascending
    rcases List.mem_append.mp member with early | late
    · have below := (List.pairwise_append.mp ascending).2.2 other early epoch List.mem_cons_self
      omega
    · rcases List.mem_cons.mp late with rfl | inAfter
      · rfl
      · exact absurd otherStarted (later other inAfter)

/-- Before the first epoch the contract finds no slot in use. -/
theorem IsRing.getWorkerParamsIndex_none (ring : IsRing window older newer slots)
    {blockNumber : Nat} (later : ∀ epoch ∈ window, ¬ epoch.firstBlockNumber ≤ blockNumber)
    {index : Nat} (found : getWorkerParamsIndex slots blockNumber = some index) :
    slots.getD index emptySlot = emptySlot := by
  rcases ring.found found with empty | ⟨epoch, member, started, -⟩
  · exact empty
  · exact absurd started (later epoch member)

end

end Ethereum
