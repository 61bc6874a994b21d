import Mathlib.Data.Option.Basic

/-!
# Waiters and what is in flight for them

A request has waiters, each for an answer under a key at a port; what a waiter gets it may
pass on to another port. Answers are on their way to a port, under a key. Keys are chosen
by the requests, and an answer goes to whoever waits under its key at its port.

`Matching` says that keys tell the requests apart as long as anyone waits, that exactly one
answer is on its way for each request with waiters, and that someone waits for it. Answers
that arrive and new requests whose key nobody waits under preserve it.
-/

namespace Correlation

universe u v w

/-- Somebody who waits for an answer, and to which port it is passed on. -/
structure Waiting (Root : Type u) (Port : Type v) (Key : Type w) where
  root : Root
  port : Port
  key : Key
  next : Option Port

/-- An answer on its way. -/
structure Flight (Root : Type u) (Port : Type v) (Key : Type w) where
  root : Root
  port : Port
  key : Key

variable {Root : Type u} {Port : Type v} {Key : Type w} {κ ι : Type*}
variable {waits waits' : κ → Waiting Root Port Key → Prop}
variable {flight flight' : ι → Flight Root Port Key → Prop}

/-- The answer is for this one. -/
def Waiting.Gets (waiter : Waiting Root Port Key) (answer : Flight Root Port Key) : Prop :=
  waiter.port = answer.port ∧ waiter.key = answer.key

/-- Waiters and answers belong together. -/
structure Matching (waits : κ → Waiting Root Port Key → Prop)
    (flight : ι → Flight Root Port Key → Prop) : Prop where
  waiter : ∀ {k a b}, waits k a → waits k b → a = b
  answer : ∀ {i a b}, flight i a → flight i b → a = b
  /-- Who waits under one key belongs to one request. -/
  keys : ∀ {j k a b}, waits j a → waits k b → a.key = b.key → a.root = b.root
  /-- Only one waits under a key at a port. -/
  places : ∀ {j k a b}, waits j a → waits k b → a.key = b.key → a.port = b.port → j = k
  /-- Only one answer is on its way for a request. -/
  single : ∀ {i j a b}, flight i a → flight j b → a.root = b.root → i = j
  /-- Someone waits for an answer, and someone waits where it is passed on to. -/
  expected : ∀ {i a}, flight i a → ∃ k b, waits k b ∧ b.root = a.root ∧ b.Gets a ∧
    ∀ port, b.next = some port → ∃ j c, waits j c ∧ c.root = a.root ∧ c.key = a.key ∧
      c.port = port ∧ c.next = none
  /-- For who waits there is an answer, on its way here or to who passes it on. -/
  coming : ∀ {k b}, waits k b → ∃ i a, flight i a ∧ a.root = b.root ∧ a.key = b.key ∧
    (a.port = b.port ∨ b.next = none ∧ ∃ j c, waits j c ∧ c.root = b.root ∧ c.Gets a ∧
      c.next = some b.port)

namespace Matching

theorem congr (matching : Matching waits flight) (sameWaits : ∀ k b, waits' k b ↔ waits k b)
    (sameFlight : ∀ i a, flight' i a ↔ flight i a) : Matching waits' flight' := by
  obtain rfl : waits' = waits := funext fun k => funext fun b => propext (sameWaits k b)
  obtain rfl : flight' = flight := funext fun i => funext fun a => propext (sameFlight i a)
  exact matching

/-- Whoever gets the answer belongs to its request. -/
theorem root_of_gets (matching : Matching waits flight) {i : ι} {a : Flight Root Port Key}
    (isFlight : flight i a) {k : κ} {b : Waiting Root Port Key} (isWaiting : waits k b)
    (sameKey : b.key = a.key) : b.root = a.root := by
  obtain ⟨j, c, waitsC, rootC, ⟨-, keyC⟩, -⟩ := matching.expected isFlight
  exact (matching.keys isWaiting waitsC (sameKey.trans keyC.symm)).trans rootC

/-- An answer arrives: whoever gets it waits no longer, and it is passed on. -/
theorem arrived (matching : Matching waits flight) {i : ι} {a : Flight Root Port Key}
    (isFlight : flight i a) (pass : κ → ι) (idle : ∀ k b c, waits k b → ¬ flight (pass k) c)
    (stillWaits : ∀ k b, waits' k b ↔ waits k b ∧ ¬ b.Gets a)
    (stillFlies : ∀ j c, flight' j c ↔ (flight j c ∧ j ≠ i) ∨
      ∃ k b port, j = pass k ∧ waits k b ∧ b.Gets a ∧ b.next = some port ∧
        c = ⟨a.root, port, a.key⟩) : Matching waits' flight' := by
  obtain ⟨k₀, b₀, waits₀, root₀, gets₀, later⟩ := matching.expected isFlight
  have only : ∀ {k b}, waits k b → b.Gets a → k = k₀ ∧ b = b₀ := by
    intro k b isWaiting gets
    obtain rfl := matching.places isWaiting waits₀ (gets.2.trans gets₀.2.symm)
      (gets.1.trans gets₀.1.symm)
    exact ⟨rfl, matching.waiter isWaiting waits₀⟩
  have stays : ∀ {j c k b}, flight j c → j ≠ i → waits k b → b.root = c.root → waits' k b := by
    intro j c k b isOther differs isWaiting sameRoot
    refine (stillWaits k b).mpr ⟨isWaiting, fun gets => differs ?_⟩
    have rootB := matching.root_of_gets isFlight isWaiting gets.2
    exact matching.single isOther isFlight (sameRoot.symm.trans rootB)
  have passed : ∀ {j c}, flight' j c → (flight j c ∧ j ≠ i) ∨
      ∃ port, j = pass k₀ ∧ b₀.next = some port ∧ c = ⟨a.root, port, a.key⟩ := by
    intro j c isFlying
    rcases (stillFlies j c).mp isFlying with other | ⟨k, b, port, isPass, isWaiting, gets, next,
      isAnswer⟩
    · exact .inl other
    · obtain ⟨rfl, rfl⟩ := only isWaiting gets
      exact .inr ⟨port, isPass, next, isAnswer⟩
  refine ⟨?_, ?_, ?_, ?_, ?_, ?_, ?_⟩
  · intro k b c first second
    exact matching.waiter ((stillWaits k b).mp first).1 ((stillWaits k c).mp second).1
  · intro j b c first second
    rcases passed first with ⟨isFirst, -⟩ | ⟨port, isPass, next, rfl⟩
    · rcases passed second with ⟨isSecond, -⟩ | ⟨port, isPass, -, -⟩
      · exact matching.answer isFirst isSecond
      · exact absurd (isPass ▸ isFirst) (idle k₀ b₀ b waits₀)
    · rcases passed second with ⟨isSecond, -⟩ | ⟨port', -, next', rfl⟩
      · exact absurd (isPass ▸ isSecond) (idle k₀ b₀ c waits₀)
      · cases next.symm.trans next'
        rfl
  · intro j k b c first second
    exact matching.keys ((stillWaits j b).mp first).1 ((stillWaits k c).mp second).1
  · intro j k b c first second
    exact matching.places ((stillWaits j b).mp first).1 ((stillWaits k c).mp second).1
  · intro j k b c first second sameRoot
    rcases passed first with ⟨isFirst, differs⟩ | ⟨port, isPass, -, rfl⟩
    · rcases passed second with ⟨isSecond, -⟩ | ⟨port, -, -, rfl⟩
      · exact matching.single isFirst isSecond sameRoot
      · exact absurd (matching.single isFirst isFlight sameRoot) differs
    · rcases passed second with ⟨isSecond, differs⟩ | ⟨port', isPass', -, rfl⟩
      · exact absurd (matching.single isSecond isFlight sameRoot.symm) differs
      · exact isPass.trans isPass'.symm
  · intro j c isFlying
    rcases passed isFlying with ⟨isOther, differs⟩ | ⟨port, -, next, rfl⟩
    · obtain ⟨k, b, isWaiting, rootB, gets, onward⟩ := matching.expected isOther
      refine ⟨k, b, stays isOther differs isWaiting rootB, rootB, gets, fun port next => ?_⟩
      obtain ⟨k', b', isWaiting', rootB', rest⟩ := onward port next
      exact ⟨k', b', stays isOther differs isWaiting' rootB', rootB', rest⟩
    · obtain ⟨k, b, isWaiting, rootB, keyB, portB, final⟩ := later port next
      refine ⟨k, b, (stillWaits k b).mpr ⟨isWaiting, fun gets => ?_⟩, rootB, ⟨portB, keyB⟩, ?_⟩
      · obtain ⟨-, rfl⟩ := only isWaiting gets
        cases final.symm.trans next
      · intro onward isOnward
        cases final.symm.trans isOnward
  · intro k b isWaiting
    obtain ⟨wasWaiting, notGets⟩ := (stillWaits k b).mp isWaiting
    obtain ⟨j, c, isFlying, rootC, keyC, here⟩ := matching.coming wasWaiting
    by_cases same : j = i
    · subst same
      obtain rfl := matching.answer isFlying isFlight
      rcases here with portC | ⟨final, k', b', waits', rootB', gets', next'⟩
      · exact absurd ⟨portC.symm, keyC.symm⟩ notGets
      · -- the answer goes to the one that passes it on here
        obtain ⟨rfl, rfl⟩ := only waits' gets'
        refine ⟨pass k', ⟨c.root, b.port, c.key⟩, (stillFlies _ _).mpr (.inr ?_), rootC, keyC,
          .inl rfl⟩
        exact ⟨k', b', b.port, rfl, waits', gets', next', rfl⟩
    · refine ⟨j, c, (stillFlies j c).mpr (.inl ⟨isFlying, same⟩), rootC, keyC, ?_⟩
      rcases here with portC | ⟨final, k', b', waits', rootB', gets', next'⟩
      · exact .inl portC
      · exact .inr ⟨final, k', b', stays isFlying same waits' (rootB'.trans rootC.symm), rootB',
          gets', next'⟩

/-- A new request under a key that nobody waits under: its first waiter passes the answer on
to its second one. -/
theorem requested (matching : Matching waits flight) {root : Root} {port home : Port} {key : Key}
    (differ : port ≠ home) (freshKey : ∀ k b, waits k b → b.key ≠ key)
    (freshRoot : (∀ k b, waits k b → b.root ≠ root) ∧ ∀ i a, flight i a → a.root ≠ root)
    {relay final : κ} {item : ι} (newNames : relay ≠ final ∧ (∀ b, ¬ waits relay b) ∧
      ∀ b, ¬ waits final b) (newItem : ∀ a, ¬ flight item a)
    (nowWaits : ∀ k b, waits' k b ↔ waits k b ∨ (k = relay ∧ b = ⟨root, port, key, some home⟩) ∨
      (k = final ∧ b = ⟨root, home, key, none⟩))
    (nowFlies : ∀ i a, flight' i a ↔ flight i a ∨ (i = item ∧ a = ⟨root, port, key⟩)) :
    Matching waits' flight' := by
  obtain ⟨namesDiffer, noRelay, noFinal⟩ := newNames
  have relayWaits : waits' relay ⟨root, port, key, some home⟩ :=
    (nowWaits _ _).mpr (.inr (.inl ⟨rfl, rfl⟩))
  have finalWaits : waits' final ⟨root, home, key, none⟩ :=
    (nowWaits _ _).mpr (.inr (.inr ⟨rfl, rfl⟩))
  have itemFlies : flight' item ⟨root, port, key⟩ := (nowFlies _ _).mpr (.inr ⟨rfl, rfl⟩)
  have still : ∀ {k b}, waits k b → waits' k b := fun isWaiting =>
    (nowWaits _ _).mpr (.inl isWaiting)
  -- whoever is new has the new key, and nobody else has
  have newKey : ∀ {k b}, waits' k b → ¬ waits k b → b.key = key ∧ b.root = root := by
    intro k b isWaiting isNew
    rcases (nowWaits k b).mp isWaiting with old | ⟨-, rfl⟩ | ⟨-, rfl⟩
    · exact absurd old isNew
    · exact ⟨rfl, rfl⟩
    · exact ⟨rfl, rfl⟩
  have bothOld : ∀ {j k b c}, waits' j b → waits' k c → b.key = c.key →
      (waits j b ∧ waits k c) ∨ (¬ waits j b ∧ ¬ waits k c) := by
    intro j k b c first second sameKey
    by_cases oldB : waits j b
    · by_cases oldC : waits k c
      · exact .inl ⟨oldB, oldC⟩
      · exact absurd (sameKey.trans (newKey second oldC).1) (freshKey j b oldB)
    · by_cases oldC : waits k c
      · exact absurd (sameKey.symm.trans (newKey first oldB).1) (freshKey k c oldC)
      · exact .inr ⟨oldB, oldC⟩
  refine ⟨?_, ?_, ?_, ?_, ?_, ?_, ?_⟩
  · intro k b c first second
    rcases (nowWaits k b).mp first with old | ⟨rfl, rfl⟩ | ⟨rfl, rfl⟩
    · rcases (nowWaits k c).mp second with old' | ⟨rfl, -⟩ | ⟨rfl, -⟩
      · exact matching.waiter old old'
      · exact absurd old (noRelay b)
      · exact absurd old (noFinal b)
    · rcases (nowWaits k c).mp second with old' | ⟨-, rfl⟩ | ⟨same, -⟩
      · exact absurd old' (noRelay c)
      · rfl
      · exact absurd same namesDiffer
    · rcases (nowWaits k c).mp second with old' | ⟨same, -⟩ | ⟨-, rfl⟩
      · exact absurd old' (noFinal c)
      · exact absurd same.symm namesDiffer
      · rfl
  · intro i a b first second
    rcases (nowFlies i a).mp first with old | ⟨rfl, rfl⟩
    · rcases (nowFlies i b).mp second with old' | ⟨rfl, -⟩
      · exact matching.answer old old'
      · exact absurd old (newItem a)
    · rcases (nowFlies i b).mp second with old' | ⟨-, rfl⟩
      · exact absurd old' (newItem b)
      · rfl
  · intro j k b c first second sameKey
    rcases bothOld first second sameKey with ⟨oldB, oldC⟩ | ⟨newB, newC⟩
    · exact matching.keys oldB oldC sameKey
    · exact (newKey first newB).2.trans (newKey second newC).2.symm
  · intro j k b c first second sameKey samePort
    rcases bothOld first second sameKey with ⟨oldB, oldC⟩ | ⟨newB, newC⟩
    · exact matching.places oldB oldC sameKey samePort
    · rcases (nowWaits j b).mp first with old | ⟨rfl, rfl⟩ | ⟨rfl, rfl⟩
      · exact absurd old newB
      · rcases (nowWaits k c).mp second with old | ⟨rfl, rfl⟩ | ⟨rfl, rfl⟩
        · exact absurd old newC
        · rfl
        · exact absurd samePort differ
      · rcases (nowWaits k c).mp second with old | ⟨rfl, rfl⟩ | ⟨rfl, rfl⟩
        · exact absurd old newC
        · exact absurd samePort.symm differ
        · rfl
  · intro i j a b first second sameRoot
    rcases (nowFlies i a).mp first with old | ⟨rfl, rfl⟩
    · rcases (nowFlies j b).mp second with old' | ⟨rfl, rfl⟩
      · exact matching.single old old' sameRoot
      · exact absurd sameRoot (freshRoot.2 i a old)
    · rcases (nowFlies j b).mp second with old' | ⟨rfl, rfl⟩
      · exact absurd sameRoot.symm (freshRoot.2 j b old')
      · rfl
  · intro i a isFlying
    rcases (nowFlies i a).mp isFlying with old | ⟨rfl, rfl⟩
    · obtain ⟨k, b, isWaiting, rootB, gets, onward⟩ := matching.expected old
      refine ⟨k, b, still isWaiting, rootB, gets, fun next isNext => ?_⟩
      obtain ⟨k', b', isWaiting', rest⟩ := onward next isNext
      exact ⟨k', b', still isWaiting', rest⟩
    · refine ⟨relay, _, relayWaits, rfl, ⟨rfl, rfl⟩, ?_⟩
      rintro _ ⟨⟩
      exact ⟨final, _, finalWaits, rfl, rfl, rfl, rfl⟩
  · intro k b isWaiting
    rcases (nowWaits k b).mp isWaiting with old | ⟨rfl, rfl⟩ | ⟨rfl, rfl⟩
    · obtain ⟨i, a, isFlying, rootA, keyA, here⟩ := matching.coming old
      refine ⟨i, a, (nowFlies i a).mpr (.inl isFlying), rootA, keyA, here.imp_right ?_⟩
      rintro ⟨last, k', b', isWaiting', rest⟩
      exact ⟨last, k', b', still isWaiting', rest⟩
    · exact ⟨item, _, itemFlies, rfl, rfl, .inl rfl⟩
    · exact ⟨item, _, itemFlies, rfl, rfl, .inr ⟨rfl, relay, _, relayWaits, rfl, ⟨rfl, rfl⟩, rfl⟩⟩

end Matching

end Correlation
