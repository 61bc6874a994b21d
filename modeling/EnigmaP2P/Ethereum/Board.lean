import EnigmaP2P.Ethereum.Callbacks

/-!
# Calls that wait for a read or a listener

A call of the verifier returns a promise, starts a read, and registers a listener under
the id of its task. A board has the calls of one kind, which are numbered in the order they
were made, with the object of their listeners. The first answer of a promise stands.

The operations know nothing of whose listener they remove. `Attached` is the invariant that
a call without an answer finds its own listener under its key. Each operation keeps it
where no call without an answer has the key that is written or removed.
-/

namespace Ethereum

open Js

/-- A call: the key of its listener, what it verifies, the read that it still expects, and
its answer. -/
structure Call (κ ρ α : Type) where
  key : String
  subject : κ
  read : Option ρ
  answer : Option α
  deriving DecidableEq

structure Board (κ ρ α : Type) where
  calls : List (Call κ ρ α)
  listeners : Listeners Nat
  deriving DecidableEq

variable {κ ρ α ν : Type}

namespace Board

def empty : Board κ ρ α := ⟨[], []⟩

/-- A call that registers its listener and starts its read. What the object of the listeners
inherits is left out: a listener under `__proto__` is not found. -/
def register (board : Board κ ρ α) (key : String) (subject : κ) (read : ρ) (blockNumber : Nat) :
    Board κ ρ α where
  calls := board.calls ++ [⟨key, subject, some read, none⟩]
  listeners := assignField key ⟨blockNumber, board.calls.length⟩ board.listeners

/-- A call changes its own record only. -/
def update (board : Board κ ρ α) (id : Nat) (change : Call κ ρ α → Call κ ρ α) : Board κ ρ α :=
  { board with calls := board.calls.modify id change }

/-- The read of a call goes on to another one, or is over. -/
def setRead (board : Board κ ρ α) (id : Nat) (read : Option ρ) : Board κ ρ α :=
  board.update id fun call => { call with read := read }

/-- A call is answered, unless an exception leaves it without an answer. -/
def resolve (board : Board κ ρ α) (id : Nat) (answer : κ → Option α) : Board κ ρ α :=
  board.update id fun call => { call with answer := call.answer.or (answer call.subject) }

def remove (board : Board κ ρ α) (key : String) : Board κ ρ α :=
  { board with listeners := deleteField key board.listeners }

/-- A listener is removed and told. -/
def fire (board : Board κ ρ α) (key : String) (answer : κ → Option α) : Board κ ρ α :=
  match board.listeners.lookup key with
  | none => board
  | some listener => (board.resolve listener.owner answer).remove key

/-- The call has no answer yet. -/
def Open (board : Board κ ρ α) (id : Nat) (call : Call κ ρ α) : Prop :=
  board.calls[id]? = some call ∧ call.answer = none

/-- A call without an answer finds its own listener under its key. -/
def Attached (board : Board κ ρ α) : Prop :=
  ∀ id call, board.Open id call →
    ∃ blockNumber, board.listeners.lookup call.key = some ⟨blockNumber, id⟩

/-- Every call is still there, and its answer stands. -/
def Kept (before after : Board κ ρ α) : Prop :=
  ∀ (id : Nat) (call : Call κ ρ α), before.calls[id]? = some call →
    ∃ later : Call κ ρ α, after.calls[id]? = some later ∧
      later.key = call.key ∧ later.subject = call.subject ∧
      ∀ answer, call.answer = some answer → later.answer = some answer

/-- Every call without an answer has another key. -/
def Free (board : Board κ ρ α) (key : String) : Prop :=
  ∀ id call, board.Open id call → call.key ≠ key

/-- Every other call without an answer has another key. -/
def FreeBut (board : Board κ ρ α) (id : Nat) (key : String) : Prop :=
  ∀ other call, board.Open other call → other ≠ id → call.key ≠ key

variable {board : Board κ ρ α}

/-! ## Answers stand -/

theorem Kept.refl (board : Board κ ρ α) : Kept board board :=
  fun _ call found => ⟨call, found, rfl, rfl, fun _ same => same⟩

theorem Kept.trans {a b c : Board κ ρ α} (first : Kept a b) (second : Kept b c) : Kept a c := by
  intro id call found
  obtain ⟨next, foundNext, key, subject, stands⟩ := first id call found
  obtain ⟨later, foundLater, key', subject', stands'⟩ := second id next foundNext
  exact ⟨later, foundLater, key'.trans key, subject'.trans subject,
    fun answer isAnswer => stands' answer (stands answer isAnswer)⟩

theorem kept_register (board : Board κ ρ α) (key : String) (subject : κ) (read : ρ)
    (blockNumber : Nat) : Kept board (board.register key subject read blockNumber) := by
  intro id call found
  have inside := (List.getElem?_eq_some_iff.mp found).1
  refine ⟨call, ?_, rfl, rfl, fun _ same => same⟩
  rw [register, List.getElem?_append_left inside]
  exact found

/-- A change that lets key, subject and answers stand keeps every call. -/
theorem kept_update (board : Board κ ρ α) (id : Nat) {change : Call κ ρ α → Call κ ρ α}
    (sameKey : ∀ call, (change call).key = call.key)
    (sameSubject : ∀ call, (change call).subject = call.subject)
    (stands : ∀ call answer, call.answer = some answer → (change call).answer = some answer) :
    Kept board (board.update id change) := by
  intro other call found
  have changed : (board.update id change).calls[other]? =
      some (if id = other then change call else call) := by
    rw [update, List.getElem?_modify, found]
    rfl
  refine ⟨_, changed, ?_⟩
  split
  · exact ⟨sameKey call, sameSubject call, stands call⟩
  · exact ⟨rfl, rfl, fun _ same => same⟩

theorem kept_setRead (board : Board κ ρ α) (id : Nat) (read : Option ρ) :
    Kept board (board.setRead id read) :=
  kept_update board id (fun _ => rfl) (fun _ => rfl) fun _ _ same => same

theorem kept_resolve (board : Board κ ρ α) (id : Nat) (answer : κ → Option α) :
    Kept board (board.resolve id answer) := by
  refine kept_update board id (fun _ => rfl) (fun _ => rfl) fun call answer same => ?_
  rw [same]
  rfl

theorem kept_of_calls {before after : Board κ ρ α} (same : after.calls = before.calls) :
    Kept before after := by
  intro id call found
  exact ⟨call, same ▸ found, rfl, rfl, fun _ isAnswer => isAnswer⟩

theorem kept_remove (board : Board κ ρ α) (key : String) : Kept board (board.remove key) :=
  kept_of_calls rfl

theorem kept_fire (board : Board κ ρ α) (key : String) (answer : κ → Option α) :
    Kept board (board.fire key answer) := by
  unfold fire
  split
  · exact Kept.refl board
  · exact (kept_resolve board _ answer).trans (kept_remove _ key)

/-! ## Listeners stay attached -/

theorem attached_empty : (empty : Board κ ρ α).Attached := by
  rintro id call ⟨found, -⟩
  cases found

/-- The new call owns the listener that is written, and no other call had it. -/
theorem Attached.register (attached : board.Attached) {key : String} (free : board.Free key)
    (proper : key ≠ "__proto__") (subject : κ) (read : ρ) (blockNumber : Nat) :
    (board.register key subject read blockNumber).Attached := by
  rintro id call ⟨found, isOpen⟩
  rw [Board.register] at found
  simp only [Board.register, assignField, if_neg proper]
  rcases Nat.lt_trichotomy id board.calls.length with inside | rfl | outside
  · rw [List.getElem?_append_left inside] at found
    rw [lookup_setField_ne (free id call ⟨found, isOpen⟩)]
    exact attached id call ⟨found, isOpen⟩
  · rw [List.getElem?_concat_length] at found
    cases found
    exact ⟨blockNumber, lookup_setField_self _ _ _⟩
  · rw [List.getElem?_append_right (by omega), List.getElem?_eq_none (by simp; omega)] at found
    cases found

/-- A call that is open after a change of another's record was open before it. -/
theorem open_of_update {id other : Nat} {change : Call κ ρ α → Call κ ρ α} {call : Call κ ρ α}
    (isOpen : (board.update id change).Open other call) :
    ∃ before, board.calls[other]? = some before ∧
      call = if id = other then change before else before := by
  obtain ⟨found, -⟩ := isOpen
  rw [update, List.getElem?_modify] at found
  obtain ⟨before, foundBefore, rfl⟩ := Option.map_eq_some_iff.mp found
  exact ⟨before, foundBefore, rfl⟩

/-- Answers and reads of calls are no matter of the listeners. -/
theorem Attached.update (attached : board.Attached) (id : Nat)
    {change : Call κ ρ α → Call κ ρ α} (sameKey : ∀ call, (change call).key = call.key)
    (stillOpen : ∀ call, (change call).answer = none → call.answer = none) :
    (board.update id change).Attached := by
  intro other call isOpen
  obtain ⟨before, found, rfl⟩ := open_of_update isOpen
  have unanswered := isOpen.2
  split at unanswered
  · rename_i same
    rw [if_pos same, sameKey]
    exact attached other before ⟨found, stillOpen before unanswered⟩
  · rename_i differs
    rw [if_neg differs]
    exact attached other before ⟨found, unanswered⟩

theorem Attached.setRead (attached : board.Attached) (id : Nat) (read : Option ρ) :
    (board.setRead id read).Attached :=
  attached.update id (fun _ => rfl) fun _ unanswered => unanswered

theorem Attached.resolve (attached : board.Attached) (id : Nat) (answer : κ → Option α) :
    (board.resolve id answer).Attached :=
  attached.update id (fun _ => rfl) fun _ unanswered => (Option.or_eq_none_iff.mp unanswered).1

/-- A key that no open call has can be removed. -/
theorem Attached.remove (attached : board.Attached) {key : String} (free : board.Free key) :
    (board.remove key).Attached := by
  intro id call isOpen
  obtain ⟨blockNumber, found⟩ := attached id call isOpen
  refine ⟨blockNumber, ?_⟩
  rw [Board.remove, lookup_deleteField_ne (free id call isOpen)]
  exact found

/-- A call that gets an answer is no longer open. -/
theorem free_resolve {id : Nat} {key : String} {answer : κ → Option α}
    (others : board.FreeBut id key)
    (answers : ∀ call, board.Open id call → call.key = key → answer call.subject ≠ none) :
    (board.resolve id answer).Free key := by
  intro other call isOpen
  obtain ⟨before, found, rfl⟩ := open_of_update isOpen
  have unanswered := isOpen.2
  split at unanswered
  · rename_i same
    subst same
    rw [if_pos rfl]
    obtain ⟨wasOpen, noAnswer⟩ := Option.or_eq_none_iff.mp unanswered
    intro isKey
    exact answers before ⟨found, wasOpen⟩ isKey noAnswer
  · rename_i differs
    rw [if_neg differs]
    exact others other before ⟨found, unanswered⟩ (Ne.symm differs)

/-- A listener that is fired is that of the open call with its key, if there is one. -/
theorem Attached.fire (attached : board.Attached) {key : String} {answer : κ → Option α}
    (answers : ∀ listener call, board.listeners.lookup key = some listener →
      board.Open listener.owner call → answer call.subject ≠ none) :
    (board.fire key answer).Attached := by
  unfold Board.fire
  split
  · exact attached
  · rename_i listener registered
    refine (attached.resolve listener.owner answer).remove (free_resolve ?_ ?_)
    · rintro other call isOpen differs rfl
      obtain ⟨blockNumber, own⟩ := attached other call isOpen
      rw [own] at registered
      cases registered
      exact differs rfl
    · intro call isOpen _
      exact answers listener call registered isOpen

/-- A listener that is registered again is still its owner's. -/
theorem Attached.retime (attached : board.Attached) {key : String} {listener : Listener Nat}
    (registered : board.listeners.lookup key = some listener) (blockNumber : Nat) :
    Attached { board with
      listeners := setField key ⟨blockNumber, listener.owner⟩ board.listeners } := by
  intro id call isOpen
  obtain ⟨since, own⟩ := attached id call isOpen
  rw [lookup_setField]
  split
  · rename_i same
    rw [same, registered] at own
    cases own
    exact ⟨blockNumber, rfl⟩
  · exact ⟨since, own⟩

end Board

end Ethereum
