import IplanRunner.Foundation.Apart
import IplanRunner.Relay.Replica

/-!
The drains of one ledger and those of another.

* `SameOutbox`: two states of the store that differ in the outboxes of other ledgers only.
* `ledgersApart`: the drains of some ledgers, and the sweeps, apart from the drains of the others.
* `ledgers_apart`: every run of drains and sweeps is, without the calls of the other ledgers, a run
  in which the first ledgers' drains do the same and leave the same rows.
-/

namespace IplanRunner

open Foundation

/-- The states agree on the outboxes of some ledgers, and on everything else. -/
structure SameOutbox (kept : String → Bool) (s t : RelayState) : Prop where
  delivery : ∀ ledgerId key, kept ledgerId = true →
    s.db.delivery (ledgerId, key) = t.db.delivery (ledgerId, key)
  identity : s.db.identity = t.db.identity
  acceptedTask : s.db.acceptedTask = t.db.acceptedTask
  ledgers : s.ledgers = t.ledgers
  slots : s.slots = t.slots

variable {kept : String → Bool} {s t : RelayState}

lemma SameOutbox.refl (s : RelayState) : SameOutbox kept s s :=
  ⟨fun _ _ _ => rfl, rfl, rfl, rfl, rfl⟩

lemma SameOutbox.loadSettled (h : SameOutbox kept s t) {ledgerId : String}
    (hkept : kept ledgerId = true) : loadSettled s.db ledgerId = loadSettled t.db ledgerId := by
  funext key
  rw [IplanRunner.loadSettled, h.delivery ledgerId key hkept]
  rfl

/-- A row of a kept ledger that is written in both states. -/
lemma SameOutbox.update (h : SameOutbox kept s t) (k : String × String)
    {row row' : Option DeliveryRow} (hrow : kept k.1 = true → row = row') :
    SameOutbox kept { s with db := { s.db with delivery := Function.update s.db.delivery k row } }
      { t with db := { t.db with delivery := Function.update t.db.delivery k row' } } := by
  refine { h with delivery := fun ledgerId key hkept => ?_ }
  dsimp only
  rw [Function.update_apply, Function.update_apply]
  split_ifs with hk
  · exact hrow (by rw [← hk]; exact hkept)
  · exact h.delivery ledgerId key hkept

/-- A row of another ledger that is written in one state. -/
lemma SameOutbox.hide (h : SameOutbox kept s t) {k : String × String} (hk : kept k.1 = false)
    (row : Option DeliveryRow) :
    SameOutbox kept { s with db := { s.db with delivery := Function.update s.db.delivery k row } }
      t := by
  refine { h with delivery := fun ledgerId key hkept => ?_ }
  dsimp only
  rw [Function.update_apply, if_neg, h.delivery ledgerId key hkept]
  rintro rfl
  rw [hkept] at hk
  cases hk

/-- What the drains of the kept ledgers call, and the sweeps. -/
def nearCalls (kept : String → Bool) : RelayOp → Prop
  | .now => True
  | .post _ => True
  | .loadSettled ledgerId => kept ledgerId = true
  | .markSettled ledgerId _ => kept ledgerId = true
  | .deadLetter ledgerId _ _ => kept ledgerId = true
  | .pruneSettled _ => True
  | _ => False

/-- What the drains of the other ledgers call. -/
def awayCalls (kept : String → Bool) : RelayOp → Prop
  | .now => True
  | .post _ => True
  | .loadSettled _ => True
  | .markSettled ledgerId _ => kept ledgerId = false
  | .deadLetter ledgerId _ _ => kept ledgerId = false
  | _ => False

/-- The drains of the kept ledgers, and every other job. -/
def drainsKept (kept : String → Bool) : RelayJob → Bool
  | .drain D => kept D.ledgerId
  | _ => true

section Runtime

variable [PyRuntime]

/-- What a near call does goes by the kept outboxes. -/
lemma near_effect {op : RelayOp} {out : Except Raised op.Res} {s' : RelayState}
    {jobs : List RelayJob} (hop : nearCalls kept op) (h : SameOutbox kept s t)
    (heffect : op.effect s out s' jobs) :
    jobs = [] ∧ ∃ t', op.effect t out t' jobs ∧ SameOutbox kept s' t' := by
  cases out with
  | error e =>
      obtain ⟨hmay, rfl, rfl⟩ := heffect
      exact ⟨rfl, t, ⟨hmay, rfl, rfl⟩, h⟩
  | ok answer =>
      cases op with
      | now =>
          obtain ⟨rfl, rfl⟩ := heffect
          exact ⟨rfl, t, ⟨rfl, rfl⟩, h⟩
      | post event =>
          obtain ⟨rfl, rfl⟩ := heffect
          exact ⟨rfl, t, ⟨rfl, rfl⟩, h⟩
      | loadSettled ledgerId =>
          obtain ⟨rfl, rfl, rfl⟩ := heffect
          exact ⟨rfl, t, ⟨h.loadSettled hop, rfl, rfl⟩, h⟩
      | markSettled ledgerId key =>
          obtain ⟨now, rfl, rfl⟩ := heffect
          refine ⟨rfl, _, ⟨now, rfl, rfl⟩, h.update (ledgerId, key) fun hkept => ?_⟩
          rw [h.delivery ledgerId key hkept]
      | deadLetter ledgerId event reason =>
          obtain ⟨now, rfl, rfl⟩ := heffect
          exact ⟨rfl, _, ⟨now, rfl, rfl⟩, h.update (ledgerId, eventKey event) fun _ => rfl⟩
      | pruneSettled maxAgeS =>
          obtain ⟨cutoff, rfl, rfl⟩ := heffect
          refine ⟨rfl, _, ⟨cutoff, rfl, rfl⟩, ?_, h.identity, ?_, h.ledgers, h.slots⟩
          · intro ledgerId key hkept
            rw [pruneSettled, pruneSettled]
            dsimp only
            rw [h.delivery ledgerId key hkept]
          · rw [pruneSettled, pruneSettled]
            dsimp only
            rw [h.acceptedTask]
      | _ => exact hop.elim

/-- What an away call does is not seen. -/
lemma away_effect {op : RelayOp} {out : Except Raised op.Res} {s' : RelayState}
    {jobs : List RelayJob} (hop : awayCalls kept op) (h : SameOutbox kept s t)
    (heffect : op.effect s out s' jobs) : jobs = [] ∧ SameOutbox kept s' t := by
  cases out with
  | error e =>
      obtain ⟨-, rfl, rfl⟩ := heffect
      exact ⟨rfl, h⟩
  | ok answer =>
      cases op with
      | now | post =>
          obtain ⟨rfl, rfl⟩ := heffect
          exact ⟨rfl, h⟩
      | loadSettled ledgerId =>
          obtain ⟨-, rfl, rfl⟩ := heffect
          exact ⟨rfl, h⟩
      | markSettled ledgerId key =>
          obtain ⟨now, rfl, rfl⟩ := heffect
          have hother : kept (ledgerId, key).1 = false := hop
          exact ⟨rfl, h.hide hother _⟩
      | deadLetter ledgerId event reason =>
          obtain ⟨now, rfl, rfl⟩ := heffect
          have hother : kept (ledgerId, eventKey event).1 = false := hop
          exact ⟨rfl, h.hide hother _⟩
      | _ => exact hop.elim

variable [SqlText]

/-- The drains of the kept ledgers and the sweeps, apart from the drains of the other ledgers. -/
def ledgersApart (deps : ReceiverDeps) (kept : String → Bool) : (relayPlatform deps).Apart where
  admits job := (∃ D, job = .drain D) ∨ ∃ maxAgeS, job = .sweep maxAgeS
  mine := drainsKept kept
  near := nearCalls kept
  away := awayCalls kept
  view := SameOutbox kept
  nearBody := by
    rintro job (⟨D, rfl⟩ | ⟨maxAgeS, rfl⟩) hmine
    · refine Routine.Only.bind ((only_drain D).mono fun op hop => ?_) fun _ => Routine.only_done _
      have hkept : kept D.ledgerId = true := hmine
      cases op with
      | now | post => trivial
      | loadSettled ledgerId | markSettled ledgerId key | deadLetter ledgerId event reason =>
          cases hop
          exact hkept
      | _ => exact hop.elim
    · exact Routine.only_perform trivial
  awayBody := by
    rintro job (⟨D, rfl⟩ | ⟨maxAgeS, rfl⟩) hmine
    · refine Routine.Only.bind ((only_drain D).mono fun op hop => ?_) fun _ => Routine.only_done _
      have hkept : kept D.ledgerId = false := hmine
      cases op with
      | now | post | loadSettled => trivial
      | markSettled ledgerId key | deadLetter ledgerId event reason =>
          cases hop
          exact hkept
      | _ => exact hop.elim
    · cases hmine
  refl := SameOutbox.refl
  seen := by
    intro op s t out s' jobs hop h heffect
    obtain ⟨rfl, t', heffect', h'⟩ := near_effect hop h heffect
    exact ⟨by simp, t', heffect', h'⟩
  hidden := fun op s t out s' jobs hop h heffect => away_effect hop h heffect
  recover := fun s t h => { h with slots := rfl }

/-- **Ledgers do not interfere.**  Take any run of drains and sweeps over one store, from any
content, and any set of ledgers: without the calls of the drains of the other ledgers it is a run
still; in it every sweep and every drain of these ledgers makes the same calls, gets the same
answers and ends the same, and the outboxes of these ledgers end up the same, row by row. -/
theorem ledgers_apart {deps : ReceiverDeps} {P P₀ : RelayPool} {trail : List RelayChange}
    (h : (relayPlatform deps).Run P₀ trail P) (hstart : P₀.threads = []) (kept : String → Bool)
    (hjobs : ∀ c ∈ trail, ∀ job, c.move = .start job →
      (∃ D, job = .drain D) ∨ ∃ maxAgeS, job = .sweep maxAgeS) :
    ∃ trail' P', (relayPlatform deps).Run P₀ trail' P'
      ∧ (∀ c ∈ trail', (ledgersApart deps kept).foreign c = false)
      ∧ trail'.map Change.move
        = (trail.filter fun c => !(ledgersApart deps kept).foreign c).map Change.move
      ∧ (∀ (i : ℕ) (t : RelayThread), P.threads[i]? = some t → drainsKept kept t.job = true →
        P'.threads[i]? = some t)
      ∧ ∀ ledgerId key, kept ledgerId = true →
        P'.shared.db.delivery (ledgerId, key) = P.shared.db.delivery (ledgerId, key) := by
  have hinit : (ledgersApart deps kept).Admitted P₀ := by
    refine ⟨?_, ?_⟩
    · rw [hstart]
      exact fun t ht => absurd ht List.not_mem_nil
    · rw [Platform.Kept, hstart]
      exact fun t ht => absurd ht List.not_mem_nil
  obtain ⟨trail', P', hrun, hown, hmoves, hshadow⟩ := Platform.Apart.run h hinit hjobs
  refine ⟨trail', P', hrun, hown, hmoves, fun i t ht hmine => ?_, fun ledgerId key hkept => ?_⟩
  · obtain ⟨t', ht', -, hsame⟩ := hshadow.threads i t ht
    rw [ht', hsame hmine]
  · exact (hshadow.view.delivery ledgerId key hkept).symm

end Runtime

section Example

attribute [local instance] cpython stringText

/-- A drain of a second ledger, with the same log. -/
def otherDrain : DrainJob := { twoEventDrain with ledgerId := "LEDGER-2" }

/-- Two drains of two ledgers take turns. -/
def takingTurns : List (Cue RelayJob RelayChoice) :=
  [.start (.drain twoEventDrain), .start (.drain otherDrain), .call 0 .ok, .call 1 .ok, .call 0 .ok,
    .call 1 .ok, .call 1 .ok, .call 0 .ok]

/-- Without the calls of the second drain the first does the same. -/
theorem ledgers_apart_of_two : ∃ (trail trail' : List RelayChange) (P P' : RelayPool),
    (relayPlatform scriptDeps).Run freshPool trail P
      ∧ (relayPlatform scriptDeps).Run freshPool trail' P' ∧ trail'.length < trail.length
      ∧ P.threads[0]?.isSome = true ∧ P'.threads[0]? = P.threads[0]? := by
  let kept : String → Bool := fun ledgerId => ledgerId == "LEDGER-1"
  have hplayed : ((relayAnswers scriptDeps).play freshPool takingTurns).any (fun r =>
      r.1.any (ledgersApart scriptDeps kept).foreign
        && r.2.threads[0]?.any fun t => drainsKept kept t.job) = true := by decide +kernel
  obtain ⟨⟨trail, P⟩, hplay, hcheck⟩ := (Option.any_eq_true _ _).mp hplayed
  obtain ⟨hforeign, hfirst⟩ := (Bool.and_eq_true _ _).mp hcheck
  obtain ⟨t, ht, hmine⟩ := (Option.any_eq_true _ _).mp hfirst
  have hrun := AnswerBook.play_run _ hplay
  have hjobs : ∀ c ∈ trail, ∀ job, c.move = .start job →
      (∃ D, job = .drain D) ∨ ∃ maxAgeS, job = .sweep maxAgeS := by
    intro c hc job hm
    have hcue := AnswerBook.play_starts _ hplay c hc hm
    obtain rfl | rfl : job = .drain twoEventDrain ∨ job = .drain otherDrain := by
      simpa [takingTurns] using hcue
    · exact Or.inl ⟨_, rfl⟩
    · exact Or.inl ⟨_, rfl⟩
  obtain ⟨trail', P', hrun', -, hmoves, hsame, -⟩ := ledgers_apart hrun rfl kept hjobs
  refine ⟨trail, trail', P, P', hrun, hrun', ?_, ?_, ?_⟩
  · have hlength := congrArg List.length hmoves
    rw [List.length_map, List.length_map] at hlength
    rw [hlength]
    refine List.length_filter_lt_length_iff_exists.mpr ?_
    obtain ⟨c, hc, hforeign⟩ := List.any_eq_true.mp hforeign
    exact ⟨c, hc, by simp [hforeign]⟩
  · exact Option.isSome_iff_exists.mpr ⟨t, ht⟩
  · have ht' : P.threads[0]? = some t := ht
    rw [ht', hsame 0 t ht' hmine]

end Example

end IplanRunner
