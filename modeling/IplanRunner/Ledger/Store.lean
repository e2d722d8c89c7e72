import IplanRunner.Ledger.Types

/-!
The hash-chained execution log (`ledger/store.py`).

* `computeEventHash`, `verifyChain`, `appendEvent`: the functions of the module.  `verifyChain`
  reads an arbitrary document, `appendEvent` extends the log of a ledger.
* `ChainedFrom`: what `verifyChain` asks of the events of a ledger, record by record;
  `verifyChain_toVal` is the equivalence.
* `Chained.appendEvent`: appending keeps a chained log chained.
-/

namespace IplanRunner

open Foundation

variable [PyRuntime]

/-- `compute_event_hash`. -/
def computeEventHash (sequence : ℤ) (previousEventHash : Option String)
    (eventType subjectId atTime : String) : String :=
  let prev := previousEventHash.getD ""
  "sha256:" ++ PyRuntime.sha256 s!"{sequence}|{prev}|{eventType}|{subjectId}|{atTime}"

/-- The body of the loop of `verify_chain`: the hash of an event that continues the chain, `none`
where the loop returns `False`. -/
def verifyEvent (prevHash : Option String) (index : ℕ) (event : Val) :
    Except PyErr (Option String) := do
  if !(← event.get "sequence").pyEq (.int (index + 1)) then
    return none
  if !((← event.get "previous_event_hash").orElse .none).pyEq (optStr prevHash) then
    return none
  let expected := computeEventHash (← (← event.item "sequence").pyInt) prevHash
    (← event.item "event_type").pyStr (← event.item "subject_id").pyStr (← event.item "at").pyStr
  if !(← event.get "event_hash").pyEq (.str expected) then
    return none
  return some (← event.get "event_hash").pyStr

/-- The loop of `verify_chain` from position `index` on. -/
def verifyChainFrom (prevHash : Option String) (index : ℕ) : List Val → Except PyErr Bool
  | [] => .ok true
  | event :: rest => do
      match ← verifyEvent prevHash index event with
      | some hash => verifyChainFrom (some hash) (index + 1) rest
      | none => return false

/-- `verify_chain`. -/
def verifyChain (executionLog : List Val) : Except PyErr Bool := verifyChainFrom none 0 executionLog

/-- `append_event`, on the log of the ledger. -/
def appendEvent (log : List Event) (event : EventBody) : List Event :=
  let sequence := log.length + 1
  let previous := log.getLast?.map (·.eventHash.pyStr)
  log ++ [{
    toEventBody := event
    sequence := .int sequence
    previousEventHash := optStr previous
    eventHash := .str (computeEventHash sequence previous event.kind.toVal.pyStr
      event.subjectId.pyStr event.atTime.pyStr)
    signature := none }]

@[simp] lemma length_appendEvent (log : List Event) (e : EventBody) :
    (appendEvent log e).length = log.length + 1 := by
  simp [appendEvent]

@[simp] lemma appendEvent_map_body (log : List Event) (e : EventBody) :
    (appendEvent log e).map (·.toEventBody) = log.map (·.toEventBody) ++ [e] := by
  simp [appendEvent]

lemma prefix_appendEvent (log : List Event) (e : EventBody) : log <+: appendEvent log e :=
  ⟨_, rfl⟩

/-! ### Chained logs -/

/-- The event at position `index` continues a chain that ended in `prevHash`. -/
structure Continues (prevHash : Option String) (index : ℕ) (e : Event) : Prop where
  sequence : e.sequence.pyEq (.int (index + 1)) = true
  previous : e.previousEventHash.orElse .none = optStr prevHash
  hash : e.eventHash = .str (computeEventHash (index + 1) prevHash e.kind.toVal.pyStr
    e.subjectId.pyStr e.atTime.pyStr)

/-- The log continues a chain that ended in `prevHash` before position `index`. -/
def ChainedFrom : Option String → ℕ → List Event → Prop
  | _, _, [] => True
  | prevHash, index, e :: rest =>
      Continues prevHash index e ∧ ChainedFrom (some e.eventHash.pyStr) (index + 1) rest

/-- The log is a chain from its first event on. -/
def Chained (log : List Event) : Prop := ChainedFrom none 0 log

instance (prevHash : Option String) (index : ℕ) (e : Event) :
    Decidable (Continues prevHash index e) :=
  decidable_of_iff (_ ∧ _ ∧ _) ⟨fun h => ⟨h.1, h.2.1, h.2.2⟩, fun h => ⟨h.1, h.2, h.3⟩⟩

omit [PyRuntime] in
lemma pyEq_optStr_iff (v : Val) (o : Option String) : v.pyEq (optStr o) = true ↔ v = optStr o := by
  cases o with
  | none => exact Val.pyEq_none_iff v
  | some s => exact Val.pyEq_str_iff v s

/-- On the document of an event the loop body never raises, and accepts it exactly when it
continues the chain. -/
lemma verifyEvent_toVal (prevHash : Option String) (index : ℕ) (e : Event) :
    verifyEvent prevHash index e.toVal
      = .ok (if Continues prevHash index e then some e.eventHash.pyStr else none) := by
  rw [verifyEvent]
  simp only [Event.get_sequence, Event.item_sequence, Event.get_previous, Event.get_hash,
    Event.item_kind, Event.item_subject, Event.item_at, bind, Except.bind, pure, Except.pure]
  by_cases hseq : e.sequence.pyEq (.int (index + 1)) = true
  · simp only [hseq, Val.pyInt_of_pyEq hseq, Bool.not_true, Bool.false_eq_true, if_false]
    by_cases hprev : (e.previousEventHash.orElse .none).pyEq (optStr prevHash) = true
    · simp only [hprev, Bool.not_true, Bool.false_eq_true, if_false]
      have hprev' := (pyEq_optStr_iff _ _).mp hprev
      by_cases hhash : e.eventHash.pyEq (.str (computeEventHash (index + 1) prevHash
          e.kind.toVal.pyStr e.subjectId.pyStr e.atTime.pyStr)) = true
      · have hc : Continues prevHash index e := ⟨hseq, hprev', (Val.pyEq_str_iff _ _).mp hhash⟩
        simp [hhash, hc]
      · have hc : ¬ Continues prevHash index e := fun h => hhash ((Val.pyEq_str_iff _ _).mpr h.hash)
        simp [hhash, hc]
    · have hc : ¬ Continues prevHash index e :=
        fun h => hprev ((pyEq_optStr_iff _ _).mpr h.previous)
      simp [hprev, hc]
  · have hc : ¬ Continues prevHash index e := fun h => hseq h.sequence
    simp [hseq, hc]

lemma verifyChainFrom_toVal (prevHash : Option String) (index : ℕ) (log : List Event) :
    verifyChainFrom prevHash index (log.map Event.toVal) = .ok true
      ↔ ChainedFrom prevHash index log := by
  induction log generalizing prevHash index with
  | nil => simp [verifyChainFrom, ChainedFrom]
  | cons e rest ih =>
      rw [List.map_cons, verifyChainFrom, verifyEvent_toVal, ChainedFrom]
      by_cases hc : Continues prevHash index e
      · simpa [hc, bind, Except.bind] using ih (some e.eventHash.pyStr) (index + 1)
      · simp [hc, bind, Except.bind, pure, Except.pure]

/-- **`verify_chain` on the log of a ledger** accepts exactly the chained logs. -/
theorem verifyChain_toVal (log : List Event) :
    verifyChain (log.map Event.toVal) = .ok true ↔ Chained log :=
  verifyChainFrom_toVal none 0 log

/-! ### Appending -/

/-- What the next event chains to after `log`, when the chain before it ended in `prevHash`. -/
def lastHash (prevHash : Option String) (log : List Event) : Option String :=
  (log.getLast?.map (·.eventHash.pyStr)).or prevHash

lemma chainedFrom_append (prevHash : Option String) (index : ℕ) (log : List Event) (e : Event) :
    ChainedFrom prevHash index (log ++ [e])
      ↔ ChainedFrom prevHash index log
        ∧ Continues (lastHash prevHash log) (index + log.length) e := by
  induction log generalizing prevHash index with
  | nil => simp [ChainedFrom, lastHash]
  | cons x log ih =>
      have hlast : lastHash (some x.eventHash.pyStr) log = lastHash prevHash (x :: log) := by
        cases log <;> simp [lastHash, List.getLast?_cons]
      rw [List.cons_append, ChainedFrom, ih, ChainedFrom, hlast, and_assoc, List.length_cons,
        show index + 1 + log.length = index + (log.length + 1) by omega]

/-- A computed hash is never empty. -/
lemma computeEventHash_ne (n : ℤ) (p : Option String) (a b c : String) :
    computeEventHash n p a b c ≠ "" := by
  intro h
  have h1 := congrArg String.length h
  simp only [computeEventHash, String.length_append] at h1
  exact absurd h1 (by simp)

lemma Chained.eventHash_ne {prevHash : Option String} {index : ℕ} {log : List Event}
    (h : ChainedFrom prevHash index log) : ∀ e ∈ log, e.eventHash.pyStr ≠ "" := by
  induction log generalizing prevHash index with
  | nil => simp
  | cons x log ih =>
      intro e he
      rcases List.mem_cons.mp he with rfl | he'
      · rw [h.1.hash]
        exact computeEventHash_ne _ _ _ _ _
      · exact ih h.2 e he'

/-- **Appending keeps the chain.** -/
theorem Chained.appendEvent {log : List Event} (h : Chained log) (e : EventBody) :
    Chained (appendEvent log e) := by
  have hlast : lastHash none log = log.getLast?.map (·.eventHash.pyStr) := by
    rw [lastHash, Option.or_none]
  rw [Chained, IplanRunner.appendEvent, chainedFrom_append]
  refine ⟨h, ?_, ?_, ?_⟩
  · simp
  · rw [hlast]
    cases hl : log.getLast? with
    | none => rfl
    | some x =>
        have hx := Chained.eventHash_ne h x (List.mem_of_getLast? hl)
        simp [optStr, Val.orElse, Val.truthy, hx]
  · rw [hlast, Nat.zero_add]
    simp

end IplanRunner
