import EnigmaP2P.Ethereum.CommitReceipt
import EnigmaP2P.Transition.Runs
import Mathlib.Data.List.Induction

/-!
# Transactions of the writer

A method of the contract's writer sends a transaction and returns a promise. The error of the
transaction rejects it. Its receipt, or a confirmation with a high enough number, resolves it,
for some methods with the events that the contract has emitted: the event of success if there is
one, and else what is found under the name of the failure.

The events are read after the listener for confirmations has been taken away. A read that fails
leaves the promise as it is, and there may be nothing after it that settles it.
-/

namespace Ethereum

open Js Common Tasks Core Transition

namespace RawEthereumEvents

def receiptVerified : String := "ReceiptVerified"
def receiptFailed : String := "ReceiptFailed"
def receiptFailedETH : String := "ReceiptFailedETH"
def secretContractDeployed : String := "SecretContractDeployed"

end RawEthereumEvents

/-- A method of the writer, and the names under which it searches events, in this order. Those
that search none resolve with `null`. -/
structure WriterMethod where
  method : String
  searched : List String

namespace WriterMethod

def register : WriterMethod := ⟨"register", []⟩
def unregister : WriterMethod := ⟨"unregister", []⟩
def login : WriterMethod := ⟨"login", []⟩
def logout : WriterMethod := ⟨"logout", []⟩

def deploySecretContract : WriterMethod :=
  ⟨"deploySecretContract",
    [RawEthereumEvents.secretContractDeployed, RawEthereumEvents.receiptFailedETH]⟩

def commitReceipt : WriterMethod :=
  ⟨"commitReceipt", [RawEthereumEvents.receiptVerified, RawEthereumEvents.receiptFailedETH]⟩

def commitTaskFailure : WriterMethod :=
  ⟨"commitTaskFailure", [RawEthereumEvents.receiptFailed]⟩

def deploySecretContractFailure : WriterMethod :=
  ⟨"deploySecretContractFailure", [RawEthereumEvents.receiptFailed]⟩

end WriterMethod

/-- The object of `_parsePastEvents`: events by their names. -/
abbrev ParsedEvents (ε : Type) := List (String × ε)

/-- A transaction and its promise. A search is the list of the names that are left; the event
of the first one is being read. -/
structure Transaction (ε : Type) where
  sent : Bool
  listening : Bool
  searches : List (List String)
  settled : Option (Except String (Option (ParsedEvents ε)))

inductive TransactionLabel (ε : Type) where
  /-- The chain id, the signature and the number of the block are there. -/
  | prepared
  | error (err : String)
  | receipt
  | confirmation (confNumber : Nat)
  /-- The answer to the read of a search; `none` if it fails or cannot be parsed. -/
  | answered (i : Nat) (events : Option (ParsedEvents ε))

section

variable {ε : Type}

namespace Transaction

def initial : Transaction ε := ⟨false, false, [], none⟩

/-- `resolve` and `reject`; only the first call counts. -/
def settle (state : Transaction ε) (value : Except String (Option (ParsedEvents ε))) :
    Transaction ε :=
  { state with settled := state.settled <|> some value }

/-- `resolveLogic`, up to its first read. -/
def resolveLogic (searched : List String) (state : Transaction ε) : Transaction ε :=
  match searched with
  | [] => state.settle (.ok none)
  | names => { state with searches := state.searches ++ [names] }

end Transaction

/-- `minimumConfirmations === 0 || !Number.isInteger(minimumConfirmations)`, where `none` is no
number. -/
def atReceipt : Option Rat → Bool
  | some q => decide (q = 0) || decide (q.den ≠ 1)
  | none => true

/-- `confNumber >= minimumConfirmations`. -/
def reached (minimumConfirmations : Option Rat) (confNumber : Nat) : Bool :=
  match minimumConfirmations with
  | some q => decide (q ≤ confNumber)
  | none => false

variable (minimumConfirmations : Option Rat) (searched : List String)

/-- The handlers of the transaction, and what follows a read. -/
def transactionStep (state : Transaction ε) : TransactionLabel ε → Transaction ε
  | .prepared => if state.sent then state else { state with sent := true, listening := true }
  | .error err => if state.sent then state.settle (.error err) else state
  | .receipt =>
      if state.sent && atReceipt minimumConfirmations then state.resolveLogic searched else state
  | .confirmation confNumber =>
      if state.listening && reached minimumConfirmations confNumber then
        { state with listening := false }.resolveLogic searched
      else state
  | .answered i events =>
      match state.searches[i]? with
      | some (_ :: rest) =>
          match events with
          | none => { state with searches := state.searches.set i [] }
          | some events =>
              if !events.isEmpty || rest.isEmpty then
                { state with searches := state.searches.set i [] }.settle (.ok (some events))
              else { state with searches := state.searches.set i rest }
      | _ => state

/-! ## What a transaction comes to -/

/-- A receipt or a confirmation that resolves the promise. -/
def Suffices : TransactionLabel ε → Prop
  | .receipt => atReceipt minimumConfirmations = true
  | .confirmation confNumber => reached minimumConfirmations confNumber = true
  | _ => False

/-- The transaction was sent, and confirmed well enough later. -/
def Enough (labels : List (TransactionLabel ε)) : Prop :=
  Happens (fun before label => .prepared ∈ before ∧ Suffices minimumConfirmations label) labels

/-- What a search finds on a chain that has these events. -/
def searchResult (onChain : String → ParsedEvents ε) : List String → ParsedEvents ε
  | [] => []
  | name :: rest =>
      if !(onChain name).isEmpty || rest.isEmpty then onChain name else searchResult onChain rest

/-- What the promise resolves with. -/
def resolution (onChain : String → ParsedEvents ε) (searched : List String) :
    Option (ParsedEvents ε) :=
  if searched.isEmpty then none else some (searchResult onChain searched)

/-- Reads that do not fail are answered from the chain. -/
def ReadsChain (onChain : String → ParsedEvents ε) (state : Transaction ε) :
    TransactionLabel ε → Prop
  | .answered i (some events) => ∀ name rest, state.searches[i]? = some (name :: rest) →
      events = onChain name
  | _ => True

/-- The promise is rejected with an error of the transaction only, and resolved only after
enough confirmations with what the chain has. While it is pending and no read has failed, there
was no error, and once there were enough confirmations the events are being read. -/
structure TransactionRight (onChain : String → ParsedEvents ε)
    (labels : List (TransactionLabel ε)) (state : Transaction ε) : Prop where
  rejected : ∀ err, state.settled = some (.error err) → .error err ∈ labels
  resolved : ∀ value, state.settled = some (.ok value) →
    Enough minimumConfirmations labels ∧ value = resolution onChain searched
  pending : state.settled = none → (∀ i, .answered i none ∉ labels) →
    (∀ err, ¬ Happens (fun before label => .prepared ∈ before ∧ label = .error err) labels) ∧
    (Enough minimumConfirmations labels → ∃ search ∈ state.searches, search ≠ [])

/-- What else is known after some labels. -/
structure TransactionInv (onChain : String → ParsedEvents ε)
    (labels : List (TransactionLabel ε)) (state : Transaction ε) : Prop where
  right : TransactionRight minimumConfirmations searched onChain labels state
  sent : state.sent = true ↔ .prepared ∈ labels
  listening : state.listening = true → state.sent = true
  enough : state.sent = true → state.listening = false → Enough minimumConfirmations labels
  searching : ∀ search ∈ state.searches, Enough minimumConfirmations labels ∧
    (search ≠ [] → searched ≠ [] ∧ searchResult onChain search = searchResult onChain searched)
  reading : state.settled = none → (∀ i, .answered i none ∉ labels) →
    ∀ search ∈ state.searches, search ≠ []

end

section

variable {ε : Type} {minimumConfirmations : Option Rat} {searched : List String}
  {onChain : String → ParsedEvents ε} {passed : List (TransactionLabel ε)}
  {state : Transaction ε} {label : TransactionLabel ε}

/-! ## One label more -/

theorem enough_concat : Enough minimumConfirmations (passed ++ [label]) ↔
    Enough minimumConfirmations passed ∨
      .prepared ∈ passed ∧ Suffices minimumConfirmations label :=
  happens_concat

/-- What the promise is settled with. -/
theorem of_settle {value found : Except String (Option (ParsedEvents ε))}
    (isSettled : (state.settle value).settled = some found) :
    state.settled = some found ∨ found = value := by
  rw [Transaction.settle] at isSettled
  cases before : state.settled with
  | none =>
      rw [before] at isSettled
      exact .inr (Option.some.inj isSettled).symm
  | some earlier =>
      rw [before] at isSettled
      exact .inl isSettled

theorem settle_settled_ne_none (value : Except String (Option (ParsedEvents ε))) :
    (state.settle value).settled ≠ none := by
  rw [Transaction.settle]
  cases state.settled <;> exact Option.some_ne_none _

theorem searchResult_cons (name : String) (rest : List String) :
    searchResult onChain (name :: rest) =
      if !(onChain name).isEmpty || rest.isEmpty then onChain name
      else searchResult onChain rest := rfl

/-- A label at which nothing changes, and that brings nothing. -/
theorem TransactionInv.keep
    (inv : TransactionInv minimumConfirmations searched onChain passed state)
    (noneYet : .prepared ∈ passed → Suffices minimumConfirmations label →
      Enough minimumConfirmations passed)
    (noError : .prepared ∈ passed → ∀ err, label ≠ .error err)
    (already : label = .prepared → state.sent = true) :
    TransactionInv minimumConfirmations searched onChain (passed ++ [label]) state := by
  have same : Enough minimumConfirmations (passed ++ [label]) ↔
      Enough minimumConfirmations passed := by
    rw [enough_concat]
    exact or_iff_left_of_imp fun ⟨isPrepared, suffices_⟩ => noneYet isPrepared suffices_
  have fewer : (∀ i, .answered i none ∉ passed ++ [label]) → ∀ i, .answered i none ∉ passed :=
    fun noFailure i member => noFailure i (List.mem_append_left _ member)
  refine ⟨⟨?_, ?_, ?_⟩, ?_, inv.listening, ?_, ?_, ?_⟩
  · exact fun err isRejected => List.mem_append_left _ (inv.right.rejected err isRejected)
  · intro value isResolved
    obtain ⟨enough, isValue⟩ := inv.right.resolved value isResolved
    exact ⟨same.mpr enough, isValue⟩
  · intro isPending noFailure
    obtain ⟨noErrors, reads⟩ := inv.right.pending isPending (fewer noFailure)
    refine ⟨fun err happens => ?_, fun enough => reads (same.mp enough)⟩
    rcases happens_concat.mp happens with before | ⟨isPrepared, isError⟩
    · exact noErrors err before
    · exact noError isPrepared err isError
  · rw [inv.sent, List.mem_append, List.mem_singleton]
    exact (or_iff_left_of_imp fun isLabel => inv.sent.mp (already isLabel.symm)).symm
  · exact fun isSent isOff => same.mpr (inv.enough isSent isOff)
  · intro search member
    obtain ⟨enough, finds⟩ := inv.searching search member
    exact ⟨same.mpr enough, finds⟩
  · exact fun isPending noFailure => inv.reading isPending (fewer noFailure)

/-- The promise is settled, now or before. -/
theorem TransactionInv.settle
    (inv : TransactionInv minimumConfirmations searched onChain passed state)
    {base : Transaction ε} {value : Except String (Option (ParsedEvents ε))}
    (sameSettled : base.settled = state.settled) (sameSent : base.sent = state.sent)
    (notPrepared : label ≠ .prepared)
    (rejected : ∀ err, value = .error err → label = .error err)
    (resolved : ∀ found, value = .ok found →
      Enough minimumConfirmations (passed ++ [label]) ∧ found = resolution onChain searched)
    (listening : base.listening = true → state.listening = true)
    (enough : base.listening = false → state.listening = false ∨
      Enough minimumConfirmations (passed ++ [label]))
    (searching : ∀ search ∈ base.searches, search ∈ state.searches ∨ search = [] ∧
      Enough minimumConfirmations (passed ++ [label])) :
    TransactionInv minimumConfirmations searched onChain (passed ++ [label])
      (base.settle value) := by
  have more : Enough minimumConfirmations passed →
      Enough minimumConfirmations (passed ++ [label]) := fun before =>
    enough_concat.mpr (.inl before)
  refine ⟨⟨?_, ?_, ?_⟩, ?_, ?_, ?_, ?_, ?_⟩
  · intro err isRejected
    rcases of_settle isRejected with before | now
    · exact List.mem_append_left _ (inv.right.rejected err (sameSettled ▸ before))
    · rw [rejected err now.symm]
      exact List.mem_append_right _ List.mem_cons_self
  · intro found isResolved
    rcases of_settle isResolved with before | now
    · obtain ⟨enough, isFound⟩ := inv.right.resolved found (sameSettled ▸ before)
      exact ⟨more enough, isFound⟩
    · exact resolved found now.symm
  · exact fun isPending => absurd isPending (settle_settled_ne_none value)
  · change base.sent = true ↔ _
    rw [sameSent, inv.sent, List.mem_append, List.mem_singleton]
    exact (or_iff_left fun isLabel => notPrepared isLabel.symm).symm
  · intro isOn
    change base.sent = true
    rw [sameSent]
    exact inv.listening (listening isOn)
  · intro isSent isOff
    have isSent : base.sent = true := isSent
    rcases enough isOff with before | now
    · exact more (inv.enough (sameSent ▸ isSent) before)
    · exact now
  · intro search member
    rcases searching search member with before | ⟨isOver, now⟩
    · obtain ⟨enough, finds⟩ := inv.searching search before
      exact ⟨more enough, finds⟩
    · exact ⟨now, fun isOpen => absurd isOver isOpen⟩
  · exact fun isPending => absurd isPending (settle_settled_ne_none value)

/-- Enough confirmations: the promise is resolved, or a search begins. -/
theorem TransactionInv.resolveLogic
    (inv : TransactionInv minimumConfirmations searched onChain passed state)
    {base : Transaction ε} (sameSettled : base.settled = state.settled)
    (sameSent : base.sent = state.sent) (sameSearches : base.searches = state.searches)
    (isSent : state.sent = true) (suffices_ : Suffices minimumConfirmations label)
    (listening : base.listening = true → state.listening = true) :
    TransactionInv minimumConfirmations searched onChain (passed ++ [label])
      (base.resolveLogic searched) := by
  have enough : Enough minimumConfirmations (passed ++ [label]) :=
    enough_concat.mpr (.inr ⟨inv.sent.mp isSent, suffices_⟩)
  have notPrepared : label ≠ .prepared := by
    rintro rfl
    exact suffices_
  cases searched with
  | nil =>
      refine inv.settle sameSettled sameSent notPrepared (by rintro _ ⟨⟩) ?_ listening
        (fun _ => .inr enough) fun search member => .inl (sameSearches ▸ member)
      rintro found ⟨⟩
      exact ⟨enough, rfl⟩
  | cons name rest =>
      have fewer : (∀ i, .answered i none ∉ passed ++ [label]) → ∀ i, .answered i none ∉ passed :=
        fun noFailure i member => noFailure i (List.mem_append_left _ member)
      refine ⟨⟨?_, ?_, ?_⟩, ?_, ?_, fun _ _ => enough, ?_, ?_⟩
      · intro err isRejected
        have before : state.settled = some (.error err) := sameSettled ▸ isRejected
        exact List.mem_append_left _ (inv.right.rejected err before)
      · intro value isResolved
        have before : state.settled = some (.ok value) := sameSettled ▸ isResolved
        exact ⟨enough, (inv.right.resolved value before).2⟩
      · intro isPending noFailure
        have before : state.settled = none := sameSettled ▸ isPending
        refine ⟨fun err happens => ?_, fun _ => ⟨name :: rest,
          List.mem_append_right _ List.mem_cons_self, List.cons_ne_nil _ _⟩⟩
        rcases happens_concat.mp happens with earlier | ⟨-, isError⟩
        · exact (inv.right.pending before (fewer noFailure)).1 err earlier
        · rw [isError] at suffices_
          exact suffices_
      · change base.sent = true ↔ _
        rw [sameSent, inv.sent, List.mem_append, List.mem_singleton]
        exact (or_iff_left fun isLabel => notPrepared isLabel.symm).symm
      · intro isOn
        change base.sent = true
        rw [sameSent]
        exact isSent
      · intro search member
        refine ⟨enough, fun isOpen => ?_⟩
        rcases List.mem_append.mp member with before | last
        · exact (inv.searching search (sameSearches ▸ before)).2 isOpen
        · cases List.mem_singleton.mp last
          exact ⟨List.cons_ne_nil _ _, rfl⟩
      · intro isPending noFailure search member
        have before : state.settled = none := sameSettled ▸ isPending
        rcases List.mem_append.mp member with earlier | last
        · exact inv.reading before (fewer noFailure) search (sameSearches ▸ earlier)
        · cases List.mem_singleton.mp last
          exact List.cons_ne_nil _ _

/-- A search goes on, or ends with a read that fails. -/
theorem TransactionInv.replace {i : Nat} {events : Option (ParsedEvents ε)}
    (inv : TransactionInv minimumConfirmations searched onChain passed state)
    {old search : List String} (isOld : state.searches[i]? = some old)
    (finds : search ≠ [] → searched ≠ [] ∧
      searchResult onChain search = searchResult onChain searched)
    (failed : search = [] → events = none) :
    TransactionInv minimumConfirmations searched onChain (passed ++ [.answered i events])
      { state with searches := state.searches.set i search } := by
  obtain ⟨inside, isOld⟩ := List.getElem?_eq_some_iff.mp isOld
  have kept : TransactionInv minimumConfirmations searched onChain
      (passed ++ [.answered i events]) state :=
    inv.keep (fun _ suffices_ => suffices_.elim) (by rintro _ _ ⟨⟩) (by rintro ⟨⟩)
  have open_ : (∀ j, .answered j none ∉ passed ++ [.answered i events]) → search ≠ [] := by
    intro noFailure isOver
    rw [failed isOver] at noFailure
    exact noFailure i (List.mem_append_right _ List.mem_cons_self)
  refine ⟨⟨kept.right.rejected, kept.right.resolved, ?_⟩, kept.sent, kept.listening, kept.enough,
    ?_, ?_⟩
  · intro isPending noFailure
    exact ⟨(kept.right.pending isPending noFailure).1, fun _ =>
      ⟨search, List.mem_set inside search, open_ noFailure⟩⟩
  · intro other member
    rcases List.mem_or_eq_of_mem_set member with before | rfl
    · exact kept.searching other before
    · exact ⟨(kept.searching old (isOld ▸ List.getElem_mem inside)).1, finds⟩
  · intro isPending noFailure other member
    rcases List.mem_or_eq_of_mem_set member with before | rfl
    · exact kept.reading isPending noFailure other before
    · exact open_ noFailure

/-- The answer to a read. -/
theorem TransactionInv.answered {i : Nat} {events : Option (ParsedEvents ε)}
    (inv : TransactionInv minimumConfirmations searched onChain passed state)
    (fromChain : ReadsChain onChain state (.answered i events)) :
    TransactionInv minimumConfirmations searched onChain (passed ++ [.answered i events])
      (transactionStep minimumConfirmations searched state (.answered i events)) := by
  simp only [transactionStep.eq_def]
  split
  · rename_i name rest isSearch
    have searching := inv.searching _ (List.mem_of_getElem? isSearch)
    obtain ⟨isSearched, finds⟩ := searching.2 (List.cons_ne_nil _ _)
    cases events with
    | none => exact inv.replace isSearch (fun isOpen => absurd rfl isOpen) fun _ => rfl
    | some events =>
        have isFound : events = onChain name := fromChain name rest isSearch
        rw [searchResult_cons, ← isFound] at finds
        dsimp only
        split
        · rename_i isLast
          rw [if_pos isLast] at finds
          refine inv.settle rfl rfl (by rintro ⟨⟩) (by rintro _ ⟨⟩) ?_ id .inl ?_
          · rintro found ⟨⟩
            refine ⟨enough_concat.mpr (.inl searching.1), ?_⟩
            rw [resolution, if_neg (mt List.isEmpty_iff.mp isSearched), finds]
          · intro other member
            refine (List.mem_or_eq_of_mem_set member).imp_right fun isOver => ?_
            exact ⟨isOver, enough_concat.mpr (.inl searching.1)⟩
        · rename_i notLast
          rw [if_neg notLast] at finds
          refine inv.replace isSearch (fun _ => ⟨isSearched, finds⟩) ?_
          rintro rfl
          exact absurd (Bool.or_true _) notLast
  · exact inv.keep (fun _ suffices_ => suffices_.elim) (by rintro _ _ ⟨⟩) (by rintro ⟨⟩)

theorem TransactionInv.step
    (inv : TransactionInv minimumConfirmations searched onChain passed state)
    (fromChain : ReadsChain onChain state label) :
    TransactionInv minimumConfirmations searched onChain (passed ++ [label])
      (transactionStep minimumConfirmations searched state label) := by
  cases label with
  | prepared =>
      rw [transactionStep]
      split
      · rename_i isSent
        exact inv.keep (fun _ suffices_ => suffices_.elim) (by rintro _ _ ⟨⟩) fun _ => isSent
      · rename_i notSent
        have unsent : .prepared ∉ passed := mt inv.sent.mpr notSent
        have fresh : ¬ Enough minimumConfirmations passed := by
          rintro ⟨before, _, after, rfl, isPrepared, -⟩
          exact unsent (List.mem_append_left _ isPrepared)
        refine ⟨⟨?_, ?_, ?_⟩, ?_, fun _ => rfl, (by rintro _ ⟨⟩), ?_, ?_⟩
        · exact fun err isRejected => List.mem_append_left _ (inv.right.rejected err isRejected)
        · exact fun value isResolved => absurd (inv.right.resolved value isResolved).1 fresh
        · intro isPending noFailure
          refine ⟨fun err happens => ?_, fun enough => ?_⟩
          · rcases happens_concat.mp happens with ⟨before, _, after, rfl, isPrepared, -⟩ | ⟨-, ⟨⟩⟩
            exact unsent (List.mem_append_left _ isPrepared)
          · rcases enough_concat.mp enough with before | ⟨isPrepared, -⟩
            · exact absurd before fresh
            · exact absurd isPrepared unsent
        · exact iff_of_true rfl (List.mem_append_right _ List.mem_cons_self)
        · exact fun search member => absurd (inv.searching search member).1 fresh
        · exact fun _ _ search member => absurd (inv.searching search member).1 fresh
  | error err =>
      rw [transactionStep]
      split
      · refine inv.settle rfl rfl (by rintro ⟨⟩) (fun other same => ?_) (by rintro _ ⟨⟩) id .inl
          fun search member => .inl member
        cases same
        rfl
      · rename_i notSent
        exact inv.keep (fun _ suffices_ => suffices_.elim)
          (fun isPrepared => absurd (inv.sent.mpr isPrepared) notSent) (by rintro ⟨⟩)
  | receipt =>
      rw [transactionStep]
      split
      · rename_i both
        obtain ⟨isSent, isEnough⟩ := (Bool.and_eq_true_iff).mp both
        exact inv.resolveLogic rfl rfl rfl isSent isEnough id
      · rename_i notBoth
        refine inv.keep (fun isPrepared isEnough => ?_) (by rintro _ _ ⟨⟩) (by rintro ⟨⟩)
        exact absurd (Bool.and_eq_true_iff.mpr ⟨inv.sent.mpr isPrepared, isEnough⟩) notBoth
  | confirmation confNumber =>
      rw [transactionStep]
      split
      · rename_i both
        obtain ⟨isOn, isEnough⟩ := (Bool.and_eq_true_iff).mp both
        exact inv.resolveLogic rfl rfl rfl (inv.listening isOn) isEnough (by rintro ⟨⟩)
      · rename_i notBoth
        refine inv.keep (fun isPrepared isEnough => ?_) (by rintro _ _ ⟨⟩) (by rintro ⟨⟩)
        refine inv.enough (inv.sent.mpr isPrepared) (Bool.eq_false_iff.mpr fun isOn => ?_)
        exact notBoth (Bool.and_eq_true_iff.mpr ⟨isOn, isEnough⟩)
  | answered i events => exact inv.answered fromChain

/-- What is settled stays. -/
theorem settled_step {value : Except String (Option (ParsedEvents ε))}
    (isSettled : state.settled = some value) (label : TransactionLabel ε) :
    (transactionStep minimumConfirmations searched state label).settled = some value := by
  have settle : ∀ (base : Transaction ε) (other : Except String (Option (ParsedEvents ε))),
      base.settled = some value → (base.settle other).settled = some value := by
    intro base other same
    rw [Transaction.settle, same]
    rfl
  have resolveLogic : ∀ base : Transaction ε, base.settled = some value →
      (base.resolveLogic searched).settled = some value := by
    intro base same
    cases searched with
    | nil => exact settle base _ same
    | cons name rest => exact same
  cases label with
  | prepared => rw [transactionStep]; split <;> exact isSettled
  | error err =>
      rw [transactionStep]
      split
      · exact settle state _ isSettled
      · exact isSettled
  | receipt =>
      rw [transactionStep]
      split
      · exact resolveLogic state isSettled
      · exact isSettled
  | confirmation confNumber =>
      rw [transactionStep]
      split
      · exact resolveLogic _ isSettled
      · exact isSettled
  | answered i events =>
      simp only [transactionStep.eq_def]
      split
      · split
        · exact isSettled
        · split
          · exact settle _ _ isSettled
          · exact isSettled
      · exact isSettled

end

/-! ## Runs -/

theorem transactionInv_run {ε : Type} {minimumConfirmations : Option Rat}
    {searched : List String} {onChain : String → ParsedEvents ε}
    {labels : List (TransactionLabel ε)}
    (meets : Meets (ReadsChain onChain) (transactionStep minimumConfirmations searched)
      Transaction.initial labels) :
    TransactionInv minimumConfirmations searched onChain labels
      (run (transactionStep minimumConfirmations searched) Transaction.initial labels) := by
  induction labels using List.reverseRecOn with
  | nil =>
      have fresh : ¬ Enough minimumConfirmations ([] : List (TransactionLabel ε)) :=
        not_happens_nil _
      refine ⟨⟨by rintro _ ⟨⟩, by rintro _ ⟨⟩, fun _ _ => ⟨fun _ => not_happens_nil _,
        fun enough => absurd enough fresh⟩⟩, iff_of_false Bool.false_ne_true List.not_mem_nil,
        (by rintro ⟨⟩), (by rintro ⟨⟩), by rintro _ ⟨⟩, by rintro _ _ _ ⟨⟩⟩
  | append_singleton labels label ih =>
      rw [run_append, run_cons, run_nil]
      exact (ih meets.of_append).step meets.last

/-- Over all runs of a transaction: the promise settles once and for all, it is rejected with an
error of the transaction only, and it is resolved only after enough confirmations, with the
events of the chain. Unless a read fails, it is pending only while nothing that settles it has
come, or the events are being read. -/
theorem transaction_run {ε : Type} {minimumConfirmations : Option Rat} {searched : List String}
    {onChain : String → ParsedEvents ε} {labels : List (TransactionLabel ε)}
    (meets : Meets (ReadsChain onChain) (transactionStep minimumConfirmations searched)
      Transaction.initial labels) :
    TransactionRight minimumConfirmations searched onChain labels
      (run (transactionStep minimumConfirmations searched) Transaction.initial labels) ∧
    ∀ value before, before <+: labels →
      (run (transactionStep minimumConfirmations searched) Transaction.initial before).settled =
        some value →
      (run (transactionStep minimumConfirmations searched) Transaction.initial labels).settled =
        some value := by
  refine ⟨(transactionInv_run meets).right, ?_⟩
  rintro value before ⟨after, rfl⟩ isSettled
  rw [run_append]
  exact @invariant_of_step _ _ (transactionStep minimumConfirmations searched)
    (fun state => state.settled = some value) _ isSettled
    (fun _ label same => settled_step same label) after

/-- The chain has the event of a failed callback, and two confirmations are asked for. -/
theorem transaction_run_failedETH :
    let onChain : String → ParsedEvents Unit := fun name =>
      if name = RawEthereumEvents.receiptFailedETH then [(name, ())] else []
    let labels : List (TransactionLabel Unit) := [.prepared, .receipt, .confirmation 1,
      .confirmation 2, .answered 0 (some []),
      .answered 0 (some [(RawEthereumEvents.receiptFailedETH, ())]), .error "late"]
    let step := transactionStep (some 2) WriterMethod.commitReceipt.searched
    TransactionRight (some 2) WriterMethod.commitReceipt.searched onChain labels
      (run step Transaction.initial labels) ∧
    ∀ value before, before <+: labels →
      (run step Transaction.initial before).settled = some value →
      (run step Transaction.initial labels).settled = some value := by
  intro onChain labels step
  refine transaction_run ⟨trivial, trivial, trivial, trivial, ?_, ?_, trivial, trivial⟩
  · rintro name rest isSearch
    have isSearch : some [RawEthereumEvents.receiptVerified, RawEthereumEvents.receiptFailedETH] =
        some (name :: rest) := isSearch
    cases isSearch
    rfl
  · rintro name rest isSearch
    have isSearch : some [RawEthereumEvents.receiptFailedETH] = some (name :: rest) := isSearch
    cases isSearch
    rfl

/-! ## What a commit makes of it -/

/-- How `CommitReceiptAction` reads a promise that is settled: it looks for the event of the
failure only. -/
def commitOutcome {ε : Type} : Except String (Option (ParsedEvents ε)) → CommitOutcome
  | .error message => .rejected message
  | .ok events =>
      if hasProperty RawEthereumEvents.receiptFailedETH (events.getD []) then .receiptFailedETH
      else .succeeded

/-- The method that a task with a successful result is committed with. -/
def methodOf : Task → WriterMethod
  | .deploy .. => WriterMethod.deploySecretContract
  | .compute _ => WriterMethod.commitReceipt

/-- The event of the method's success. -/
def successOf : Task → String
  | .deploy .. => RawEthereumEvents.secretContractDeployed
  | .compute _ => RawEthereumEvents.receiptVerified

/-- The chain has the event of the failure and not that of the success, and each under its own
name. -/
def TookFailure {ε : Type} (onChain : String → ParsedEvents ε) (task : Task) : Prop :=
  onChain (successOf task) = [] ∧ onChain RawEthereumEvents.receiptFailedETH ≠ []

section

variable {ε : Type} {onChain : String → ParsedEvents ε} {platform : Platform}
  {finished : FinishedTask} {update : Except String Unit}

/-- The outcome of a promise that is resolved is that of the chain. -/
theorem commitOutcome_resolution (named : ∀ name, ∀ event ∈ onChain name, event.1 = name)
    (task : Task) :
    commitOutcome (.ok (resolution onChain (methodOf task).searched)) = .receiptFailedETH ↔
      TookFailure onChain task := by
  have searched : (methodOf task).searched =
      [successOf task, RawEthereumEvents.receiptFailedETH] := by
    cases task <;> rfl
  have other : successOf task ≠ RawEthereumEvents.receiptFailedETH := by
    cases task with
    | deploy fields preCode =>
        exact (by decide :
          RawEthereumEvents.secretContractDeployed ≠ RawEthereumEvents.receiptFailedETH)
    | compute fields =>
        exact (by decide :
          RawEthereumEvents.receiptVerified ≠ RawEthereumEvents.receiptFailedETH)
  have plain : RawEthereumEvents.receiptFailedETH ∉ objectPrototype := by decide
  have found : ∀ events : ParsedEvents ε,
      (if hasProperty RawEthereumEvents.receiptFailedETH events then
        CommitOutcome.receiptFailedETH else .succeeded) = .receiptFailedETH ↔
      RawEthereumEvents.receiptFailedETH ∈ events.map (·.1) := by
    intro events
    rw [hasProperty_eq_isSome plain]
    cases known : events.lookup RawEthereumEvents.receiptFailedETH with
    | none =>
        refine iff_of_false ?_ (not_mem_of_lookup_eq_none known)
        rintro ⟨⟩
    | some event => exact iff_of_true rfl (List.mem_map_of_mem (mem_of_lookup_eq_some known))
  rw [resolution, searched, if_neg (by simp), commitOutcome, Option.getD_some, found,
    TookFailure, searchResult_cons]
  cases isSuccess : onChain (successOf task) with
  | nil =>
      rw [if_neg (by simp), searchResult_cons, if_pos (by simp)]
      constructor
      · intro member
        refine ⟨rfl, fun isEmpty => ?_⟩
        rw [isEmpty] at member
        cases member
      · rintro ⟨-, nonempty⟩
        obtain ⟨event, rest, isFailure⟩ := List.exists_cons_of_ne_nil nonempty
        have isNamed := named RawEthereumEvents.receiptFailedETH event
          (isFailure ▸ List.mem_cons_self)
        rw [isFailure, ← isNamed]
        exact List.mem_cons_self
  | cons event rest =>
      rw [if_pos (by simp)]
      refine iff_of_false (fun member => ?_) (fun took => List.cons_ne_nil _ _ took.1)
      obtain ⟨failure, inSuccess, isNamed⟩ := List.mem_map.mp member
      exact other ((named (successOf task) failure (isSuccess ▸ inSuccess)).symm.trans isNamed)

theorem revertState_calls (task : Task) (result : Result) (calls : List ChainCall)
    (err : Option CommitError) : (revertState task result update calls err).calls = calls := by
  unfold revertState
  split <;> rfl

theorem revertState_removals {task : Task} {result : Result} {message : Removal}
    (isMessage : revertMessage task result = .ok message) (calls : List ChainCall)
    (err : Option CommitError) :
    (revertState task result update calls err).removals ≠ [] := by
  unfold revertState
  rw [isMessage]
  exact List.cons_ne_nil _ _

/-- A deployment that has been called is undone unless the call succeeded. -/
theorem deploy_removals_iff {outcome : CommitOutcome} {fields : TaskFields} {preCode : Option Json}
    {result : Result} (success : result.isSuccess = true)
    (called : (commitDeployTask platform (.deploy fields preCode) result outcome update).calls ≠
      []) :
    (commitDeployTask platform (.deploy fields preCode) result outcome update).removals ≠ [] ↔
      outcome ≠ .succeeded := by
  have removes : revertMessage (.deploy fields preCode) result =
      .ok (.removeContract fields.contractAddr) := rfl
  rw [commitDeployTask, if_pos success] at called ⊢
  by_cases hasDelta : (!result.hasDelta) = true
  · rw [if_pos hasDelta] at called
    exact absurd rfl called
  · rw [if_neg hasDelta] at called ⊢
    cases call : deployCall platform (.deploy fields preCode) result with
    | error exn =>
        rw [call] at called
        exact absurd (revertState_calls _ _ [] _) called
    | ok chainCall =>
        cases outcome with
        | succeeded => exact iff_of_false (not_not_intro rfl) (not_not_intro rfl)
        | receiptFailedETH =>
            exact iff_of_true (revertState_removals removes [chainCall] _) (by rintro ⟨⟩)
        | rejected message =>
            exact iff_of_true (revertState_removals removes [chainCall] _) (by rintro ⟨⟩)

/-- A computation that has been called is undone only after the event of the failure. -/
theorem compute_removals_iff {outcome : CommitOutcome} {fields : TaskFields} {result : Result}
    (success : result.isSuccess = true) (hasDelta : result.hasDelta = true) {key : Nat}
    (isKey : deltaField "key" result = some (.num key))
    (called : (commitComputeTask platform (.compute fields) result outcome update).calls ≠ []) :
    (commitComputeTask platform (.compute fields) result outcome update).removals ≠ [] ↔
      outcome = .receiptFailedETH := by
  obtain ⟨message, sent, -⟩ := (deltaRemoved_iff .exclusive fields.contractAddr key).mpr rfl
  have removes : revertMessage (.compute fields) result = .ok message := by
    rw [revertMessage, isKey]
    exact sent
  rw [commitComputeTask, if_pos success] at called ⊢
  cases hashed : commitDeltaHash platform result with
  | error exn =>
      rw [hashed] at called
      exact absurd rfl called
  | ok deltaHash =>
      rw [hashed] at called
      simp only at called ⊢
      cases call : receiptCall platform (.compute fields) result deltaHash with
      | error exn =>
          rw [call] at called
          exact absurd rfl called
      | ok chainCall =>
          cases outcome with
          | succeeded => exact iff_of_false (not_not_intro rfl) (by rintro ⟨⟩)
          | receiptFailedETH =>
              refine iff_of_true ?_ rfl
              simp only [if_pos hasDelta]
              exact revertState_removals removes [chainCall] none
          | rejected message => exact iff_of_false (not_not_intro rfl) (by rintro ⟨⟩)

end

/-- A task that changed the state of the core, the methods that commit it, and any run of their
transaction. If the promise is rejected, then with an error of the transaction, and a deployment
is undone and a computation is not. If it is resolved, then after enough confirmations, and the
change is undone exactly if the chain took it as a failure. -/
theorem commit_follows_chain {ε : Type} {onChain : String → ParsedEvents ε} {platform : Platform}
    {finished : FinishedTask} {update : Except String Unit} {minimumConfirmations : Option Rat}
    {labels : List (TransactionLabel ε)} (changed : ChangedState finished)
    (keyed : ∀ fields, finished.task = .compute fields →
      ∃ key : Nat, deltaField "key" finished.result = some (.num key))
    (named : ∀ name, ∀ event ∈ onChain name, event.1 = name)
    (meets : Meets (ReadsChain onChain)
      (transactionStep minimumConfirmations (methodOf finished.task).searched)
      Transaction.initial labels)
    {value : Except String (Option (ParsedEvents ε))}
    (settled : (run (transactionStep minimumConfirmations (methodOf finished.task).searched)
      Transaction.initial labels).settled = some value)
    (called : (Ethereum.commitReceipt platform finished (commitOutcome value) update).calls ≠ []) :
    let undone :=
      (Ethereum.commitReceipt platform finished (commitOutcome value) update).removals ≠ []
    match value with
    | .error err => .error err ∈ labels ∧
        (undone ↔ ∃ fields preCode, finished.task = .deploy fields preCode)
    | .ok _ => Enough minimumConfirmations labels ∧
        (undone ↔ TookFailure onChain finished.task) := by
  intro undone
  have right := (transactionInv_run meets).right
  have outcomes : ∀ outcome : CommitOutcome, outcome = commitOutcome value →
      (undone ↔ outcome = .receiptFailedETH ∨ (∃ message, outcome = .rejected message) ∧
        ∃ fields preCode, finished.task = .deploy fields preCode) := by
    rintro outcome rfl
    have success := changed.1
    obtain ⟨task, result, failed⟩ := finished
    cases task with
    | deploy fields preCode =>
        refine (deploy_removals_iff success called).trans ?_
        cases commitOutcome value with
        | succeeded => simp
        | receiptFailedETH => simp
        | rejected message => simp
    | compute fields =>
        obtain ⟨key, isKey⟩ := keyed fields rfl
        refine (compute_removals_iff success changed.2 isKey called).trans ?_
        simp
  cases value with
  | error err =>
      refine ⟨right.rejected err settled, (outcomes (.rejected err) rfl).trans ?_⟩
      simp
  | ok found =>
      obtain ⟨enough, isFound⟩ := right.resolved found settled
      refine ⟨enough, (outcomes _ rfl).trans ?_⟩
      have resolved := commitOutcome_resolution named finished.task
      rw [← isFound] at resolved
      rw [← resolved]
      refine or_iff_left ?_
      rintro ⟨⟨message, isRejected⟩, -⟩
      rw [commitOutcome] at isRejected
      split at isRejected <;> cases isRejected

/-- The contract emits the event of a failed callback for a computation with a delta. -/
theorem commit_follows_chain_failedETH :
    let onChain : String → ParsedEvents Unit := fun name =>
      if name = RawEthereumEvents.receiptFailedETH then [(name, ())] else []
    let found : ParsedEvents Unit := [(RawEthereumEvents.receiptFailedETH, ())]
    let labels : List (TransactionLabel Unit) :=
      [.prepared, .receipt, .confirmation 2, .answered 0 (some []), .answered 0 (some found)]
    Enough (some 2) labels ∧
      ((Ethereum.commitReceipt (Platform.ofTable []) commitExample
        (commitOutcome (.ok (some found)))
        (.ok ())).removals ≠ [] ↔ TookFailure onChain commitExample.task) := by
  intro onChain found labels
  have named : ∀ name, ∀ event ∈ onChain name, event.1 = name := by
    intro name event member
    have member : event ∈ if name = RawEthereumEvents.receiptFailedETH then [(name, ())] else [] :=
      member
    split at member
    · rw [List.mem_singleton.mp member]
    · cases member
  have changed : ChangedState commitExample := ⟨rfl, rfl⟩
  have keyed : ∀ fields, commitExample.task = .compute fields →
      ∃ key : Nat, deltaField "key" commitExample.result = some (.num key) :=
    fun _ _ => ⟨3, rfl⟩
  have meets : Meets (ReadsChain onChain)
      (transactionStep (some 2) (methodOf commitExample.task).searched)
      Transaction.initial labels := by
    refine ⟨trivial, trivial, trivial, ?_, ?_, trivial⟩
    · rintro name rest isSearch
      have isSearch : some [RawEthereumEvents.receiptVerified,
          RawEthereumEvents.receiptFailedETH] = some (name :: rest) := isSearch
      cases isSearch
      rfl
    · rintro name rest isSearch
      have isSearch : some [RawEthereumEvents.receiptFailedETH] = some (name :: rest) := isSearch
      cases isSearch
      rfl
  have called : (Ethereum.commitReceipt (Platform.ofTable []) commitExample
      (commitOutcome (.ok (some found))) (.ok ())).calls ≠ [] := by
    intro isEmpty
    have noCall := congrArg List.isEmpty isEmpty
    revert noCall
    decide +kernel
  exact @commit_follows_chain Unit onChain (Platform.ofTable []) commitExample (.ok ()) (some 2)
    labels changed keyed named meets (.ok (some found)) rfl called

end Ethereum
