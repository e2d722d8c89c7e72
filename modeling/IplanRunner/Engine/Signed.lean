import IplanRunner.Foundation.Plays
import IplanRunner.Runs.AppendOnly
import IplanRunner.Security.Integrity

/-!
The operations of an engine with a signing key (`resume`, `resolve_blocker` and `land` of
`ClaudeEngine`), and what they leave of the signatures.

* `EngineOp`, `EngineOp.perform`: the operations; only `land` signs.
* `signedUnder_iff`: a log verifies when it is a chain of events with matching signatures.
* `stays_signed_iff`: along a run the log stays verified exactly when every operation that appends
  an event is a landing that returns.
-/

namespace IplanRunner

open Foundation

section Runtime

variable [PyRuntime]

/-! ### Operations of an engine -/

/-- An operation of an engine on a ledger.  `resume` and `land` run under any host and, the latter,
on any repository; `land` may be given no actor. -/
inductive EngineOp : Type 1 where
  | resume {W : Type} (h : Host W) (maxRetries : ℕ) (backoffBase : ℚ) (manifest : Manifest) (w : W)
  | resolveBlocker (blockerId decision : String) (actor : Actor) (atTime : String)
  | land {W : Type} (h : Host W) (repo : Repo W) (branch message : String) (actor : Option Actor)
      (w : W)

/-- `if actor is not None` of `land`. -/
def authorizeLand : Option Actor → Except PyErr Unit
  | none => .ok ()
  | some actor =>
      match authorize actor "land" with
      | .error reason => .error (.permissionError s!"authz denied land: {reason}")
      | .ok () => .ok ()

/-- `land`, behind the check of the actor: what it appended stays unsigned when it raises. -/
def landSigned {W : Type} (key : String) (h : Host W) (repo : Repo W) (branch message : String)
    (w : W) (L : Ledger) : Except PyErr Unit × Ledger :=
  match land h repo branch message (some defaultGate) ⟨L, w, []⟩ with
  | (.error e, s) => (.error e, s.ledger)
  | (.ok _, s) => if key = "" then (.ok (), s.ledger) else s.ledger.sign key

/-- What an operation of an engine with the given key returns, and the ledger it leaves. -/
def EngineOp.perform (key : String) : EngineOp → Ledger → Except PyErr Unit × Ledger
  | .resume h maxRetries backoffBase manifest w, L =>
      let r := IplanRunner.resume h ⟨maxRetries, backoffBase, defaultGate⟩ manifest ⟨L, w, []⟩
      (r.1.map fun _ => (), r.2.ledger)
  | .resolveBlocker blockerId decision actor atTime, L =>
      match IplanRunner.resolveBlocker L blockerId decision actor atTime with
      | .error e => (.error e, L)
      | .ok L' => (.ok (), L')
  | .land h repo branch message actor w, L =>
      match authorizeLand actor with
      | .error e => (.error e, L)
      | .ok () => landSigned key h repo branch message w L

/-- Operations one after the other, each recorded with the ledger it is done to. -/
def EngineRun (key : String) (L₀ : Ledger) (moves : List (Ledger × EngineOp)) (L : Ledger) : Prop :=
  Plays (fun L op L' => (op.perform key L).2 = L') L₀ moves L

/-! ### Signatures -/

/-- `verify_ledger(ledger, key)` is true. -/
def SignedUnder (key : String) (L : Ledger) : Prop := verifyLedger L.logDoc key = .ok true

/-- The digest is written in ASCII, as every hexadecimal digest is. -/
def AsciiDigests : Prop :=
  ∀ key text : String, (PyRuntime.hmacSha256 key text).toList.all (·.toNat < 128) = true

/-- The loop of `verify_ledger` passes when every signature matches. -/
lemma signaturesOk_of_forall {key : String} {log : List Val}
    (h : ∀ e ∈ log, signatureOk key e = .ok true) : signaturesOk key log = .ok true := by
  induction log with
  | nil => rfl
  | cons e rest ih =>
      rw [signaturesOk, h e List.mem_cons_self]
      exact ih fun e he => h e (List.mem_cons_of_mem _ he)

/-- **A log verifies** when it is a chain and every signature matches. -/
lemma signedUnder_iff {key : String} {L : Ledger} :
    SignedUnder key L ↔ Chained L.executionLog
      ∧ ∀ e ∈ L.executionLog, signatureOk key e.toVal = .ok true := by
  rw [SignedUnder, Ledger.logDoc]
  constructor
  · intro h
    obtain ⟨hchain, hall⟩ := verifyLedger_eq_true h
    exact ⟨(verifyChain_toVal _).mp hchain, fun e he => hall _ (List.mem_map_of_mem he)⟩
  · rintro ⟨hchain, hall⟩
    have hsigs := @signaturesOk_of_forall _ key (L.executionLog.map Event.toVal) fun v hv => by
      obtain ⟨e, he, rfl⟩ := List.mem_map.mp hv
      exact hall e he
    rw [verifyLedger, (verifyChain_toVal _).mpr hchain]
    exact hsigs

omit [PyRuntime] in
/-- The member `signature` of a logged event. -/
lemma Event.get_signature (e : Event) :
    e.toVal.get "signature" = .ok (e.signature.getD .none) := by
  have hothers : e.others.lookup "signature" = none := by
    rw [List.lookup_eq_none_iff]
    intro p hp
    rw [bne_iff_ne]
    intro heq
    exact e.others_names p hp (heq ▸ by decide)
  cases hs : e.signature with
  | none => simp [Event.toVal, Val.get, hs, hothers, List.lookup_cons]
  | some s => simp [Event.toVal, Val.get, hs, List.lookup_cons]

omit [PyRuntime] in
/-- What is signed of an event does not depend on its signature. -/
lemma unsigned_toVal (e : Event) (s : Option Val) :
    unsigned ({ e with signature := s } : Event).toVal = unsigned e.toVal := by
  have hone : ∀ (front rest : Dict) (v : Val), Dict.erase (front ++ [("signature", v)] ++ rest)
      "signature" = Dict.erase (front ++ [] ++ rest) "signature" := by
    intro front rest v
    simp [Dict.erase, List.filter_append]
  cases hs : e.signature <;> cases s <;> simp only [Event.toVal, unsigned, hs, hone]

/-- An event without a signature fails. -/
lemma signatureOk_unsigned {key : String} {e : Event} (h : e.signature = none) :
    signatureOk key e.toVal ≠ .ok true := by
  rw [signatureOk, Event.get_signature, h]
  intro hok
  cases hok

/-- A signed event passes. -/
lemma signatureOk_sign (hascii : AsciiDigests) {key : String} {e e' : Event}
    (h : e.sign key = .ok e') : signatureOk key e'.toVal = .ok true := by
  obtain ⟨s, hs, heq⟩ := except_bind_eq_ok.mp h
  cases heq
  have hsame : signEvent ({ e with signature := some (.str s) } : Event).toVal key = .ok s := by
    rw [← hs, signEvent, signEvent, canonical, canonical, unsigned_toVal]
  obtain ⟨text, -, htext⟩ := except_bind_eq_ok.mp hs
  have hall : s.toList.all (·.toNat < 128) = true := by
    cases htext
    rw [String.toList_append, List.all_append, Bool.and_eq_true]
    exact ⟨by decide, hascii key text⟩
  rw [signatureOk, Event.get_signature]
  simp [bind, Except.bind, hsame, compareDigest, hall]

/-! ### What one operation leaves -/

/-- **Appending** to a verified log keeps it verified only when nothing is appended. -/
lemma signedUnder_appends_iff {key : String} {L L' : Ledger} (hL : SignedUnder key L)
    (h : Appends L.executionLog L'.executionLog) :
    SignedUnder key L' ↔ L'.executionLog = L.executionLog := by
  constructor
  · intro hL'
    obtain ⟨fresh, hlog, hnone⟩ := h.unsigned
    rw [hlog, List.append_right_eq_self]
    by_contra hne
    obtain ⟨e, he⟩ := List.exists_mem_of_ne_nil fresh hne
    exact signatureOk_unsigned (hnone e he)
      ((signedUnder_iff.mp hL').2 e (by rw [hlog]; exact List.mem_append_right _ he))
  · intro hlog
    rw [SignedUnder, Ledger.logDoc, hlog]
    exact hL

/-- A ledger that is signed throughout verifies, if its log is a chain. -/
lemma signedUnder_sign (hascii : AsciiDigests) {key : String} {L : Ledger}
    (hchain : Chained L.executionLog) (hsign : (L.sign key).1 = .ok ()) :
    SignedUnder key (L.sign key).2 := by
  have hall : List.Forall₂ (fun e e' => Event.sign key e = .ok e') L.executionLog
      (L.sign key).2.executionLog := updateEach_ok (Prod.ext hsign rfl)
  refine signedUnder_iff.mpr ⟨(extends_sign key L.executionLog).chained hchain, fun e' he' => ?_⟩
  obtain ⟨i, hi, hget⟩ := List.getElem_of_mem he'
  have hone := List.Forall₂.get hall (by rw [hall.length_eq]; exact hi) hi
  rw [← hget]
  exact signatureOk_sign hascii hone

omit [PyRuntime] in
/-- A loop that raises leaves the element it raised at as it was. -/
lemma updateEach_error {α ε : Type} {f : α → Except ε α} {xs : List α} {err : ε}
    (h : (updateEach f xs).1 = .error err) :
    ∃ x ∈ (updateEach f xs).2, x ∈ xs ∧ f x = .error err := by
  induction xs with
  | nil => cases h
  | cons x xs ih =>
      rw [updateEach] at h ⊢
      cases hx : f x with
      | error e =>
          rw [hx] at h
          obtain rfl : e = err := Except.error.inj h
          exact ⟨x, List.mem_cons_self, List.mem_cons_self, hx⟩
      | ok y =>
          rw [hx] at h
          obtain ⟨z, hz, hmem, hf⟩ := ih h
          exact ⟨z, List.mem_cons_of_mem _ hz, List.mem_cons_of_mem _ hmem, hf⟩

/-- An event that passes can be signed. -/
lemma sign_ne_error {key : String} {e : Event} (h : signatureOk key e.toVal = .ok true)
    {err : PyErr} : e.sign key ≠ .error err := by
  intro herr
  rw [signatureOk, Event.get_signature] at h
  cases hs : signEvent e.toVal key with
  | ok s =>
      rw [Event.sign, hs] at herr
      cases herr
  | error err' =>
      simp only [bind, Except.bind, hs, pure, Except.pure] at h
      split at h <;> cases h

/-- **Signing what was appended** to a verified log verifies it, unless an appended event raises. -/
lemma signedUnder_sign_iff (hascii : AsciiDigests) {key : String} {L L' : Ledger}
    (hL : SignedUnder key L) (h : Appends L.executionLog L'.executionLog) :
    SignedUnder key (L'.sign key).2 ↔ (L'.executionLog ≠ L.executionLog →
      (L'.sign key).1 = .ok ()) := by
  obtain ⟨hchain, hsigs⟩ := signedUnder_iff.mp hL
  cases hsign : (L'.sign key).1 with
  | ok u =>
      exact iff_of_true (signedUnder_sign hascii (h.extends.chained hchain) hsign) fun _ => rfl
  | error err =>
      obtain ⟨e, he, hmem, herr⟩ := updateEach_error hsign
      refine iff_of_false (fun hverified => ?_) fun himp => ?_
      · exact sign_ne_error ((signedUnder_iff.mp hverified).2 e he) herr
      · refine absurd (himp fun hlog => ?_) (by simp)
        exact sign_ne_error (hsigs e (hlog ▸ hmem)) herr

/-- A decision appends at most its event. -/
lemma appends_perform_resolve (key blockerId decision atTime : String) (actor : Actor)
    (L : Ledger) :
    Appends L.executionLog
      ((EngineOp.resolveBlocker blockerId decision actor atTime).perform key L).2.executionLog := by
  rw [EngineOp.perform]
  split
  · exact Appends.refl _
  · rename_i hres
    exact appends_resolve hres

/-- The operation is a landing. -/
def EngineOp.isLand : EngineOp → Bool
  | .land .. => true
  | _ => false

/-- The operation is a landing, and it returns. -/
def EngineOp.Lands (key : String) (L : Ledger) (op : EngineOp) : Prop :=
  op.isLand = true ∧ (op.perform key L).1 = .ok ()

/-- The operation appends an event. -/
def EngineOp.Logs (key : String) (L : Ledger) (op : EngineOp) : Prop :=
  L.executionLog.length < (op.perform key L).2.executionLog.length

/-- **One operation** keeps a verified ledger verified, unless it appends an event and is no landing
that returns. -/
lemma EngineOp.signedUnder_iff (hascii : AsciiDigests) {key : String} (hkey : key ≠ "")
    {L : Ledger} (hL : SignedUnder key L) (op : EngineOp) :
    SignedUnder key (op.perform key L).2 ↔ (op.Logs key L → op.Lands key L) := by
  -- an operation that signs nothing may append nothing
  have hplain : ∀ {L' : Ledger}, Appends L.executionLog L'.executionLog →
      (SignedUnder key L' ↔ ¬ L.executionLog.length < L'.executionLog.length) := by
    intro L' happ
    rw [signedUnder_appends_iff hL happ, happ.length_lt_iff, not_not]
  have hother : ∀ {L' : Ledger} {P : Prop}, ¬ P → Appends L.executionLog L'.executionLog →
      (SignedUnder key L' ↔ (L.executionLog.length < L'.executionLog.length → P)) := by
    intro L' P hP happ
    rw [hplain happ]
    exact ⟨fun hlt h => absurd h hlt, fun himp h => hP (himp h)⟩
  cases op with
  | resume h maxRetries backoffBase manifest w =>
      exact hother (fun hlands => by cases hlands.1) (logsOnly_resume h _ manifest ⟨L, w, []⟩)
  | resolveBlocker blockerId decision actor atTime =>
      exact hother (fun hlands => by cases hlands.1) (appends_perform_resolve key ..)
  | land h repo branch message actor w =>
      have hland := logsOnly_land h repo branch message (some defaultGate) ⟨L, w, []⟩
      rw [EngineOp.Logs, EngineOp.Lands, EngineOp.perform]
      cases hauth : authorizeLand actor with
      | error e => exact hother (by simp) (Appends.refl _)
      | ok u =>
          dsimp only
          rw [landSigned]
          rcases hrun : IplanRunner.land h repo branch message (some defaultGate) ⟨L, w, []⟩ with
            ⟨_ | res, s⟩
          · rw [hrun] at hland
            exact hother (by simp) hland
          · rw [hrun] at hland
            dsimp only
            rw [if_neg hkey, signedUnder_sign_iff hascii hL hland, ← hland.length_lt_iff]
            have hlength : (s.ledger.sign key).2.executionLog.length
                = s.ledger.executionLog.length :=
              (updateEach_forall (Event.sign key) s.ledger.executionLog).length_eq.symm
            rw [hlength]
            exact ⟨fun himp hlt => ⟨rfl, himp hlt⟩, fun himp hlt => (himp hlt).2⟩

/-! ### Main results -/

/-- **A ledger stays signed, exactly.**  Let an engine with a key do any operations, one after the
other, to a ledger that verifies under the key.  It verifies after each of them if and only if every
operation that appends an event is a landing that returns. -/
theorem stays_signed_iff (hascii : AsciiDigests) {key : String} (hkey : key ≠ "") {L₀ L : Ledger}
    {moves : List (Ledger × EngineOp)} (hrun : EngineRun key L₀ moves L)
    (hsigned : SignedUnder key L₀) :
    ((∀ m ∈ moves, SignedUnder key m.1) ∧ SignedUnder key L)
      ↔ ∀ m ∈ moves, m.2.Logs key m.1 → m.2.Lands key m.1 :=
  Plays.safe_iff hrun hsigned fun L op L' hL hstep => by
    subst hstep
    exact EngineOp.signedUnder_iff hascii hkey hL op

end Runtime

section Example

attribute [local instance] cpython

lemma cpython_asciiDigests : AsciiDigests := fun _ _ => hexdigest_ascii _

/-- A workspace with changes, whose commit succeeds. -/
private def changedRepo : Repo MockWorld := ⟨fun w => (.ok true, w), fun _ _ w => (.ok "0a1b", w)⟩

/-- The landing of an operator. -/
private def landing : EngineOp :=
  .land (steadyHost []) changedRepo "main" "iops landing" (some scriptOperator) (.fresh [])

/-- The ledger of a run of one task, before the task is taken up. -/
private def newLedger : Option Ledger := (startLedger (scriptManifest [("T1", [])])).toOption

/-- A landing leaves its ledger signed. -/
theorem stays_signed_landed :
    ∃ L, newLedger = some L ∧ landing.Logs "key" L
      ∧ SignedUnder "key" (landing.perform "key" L).2 := by
  obtain ⟨L, hL, hchecks⟩ : ∃ L, newLedger = some L ∧ decide (L.executionLog = []
      ∧ L.executionLog.length < (landing.perform "key" L).2.executionLog.length
      ∧ (landing.perform "key" L).1.toBool = true) = true := by
    refine (Option.any_eq_true _ _).mp ?_
    decide +kernel
  obtain ⟨hempty, hlogs, hreturns⟩ := of_decide_eq_true hchecks
  have hsigned : SignedUnder "key" L := by
    rw [SignedUnder, Ledger.logDoc, hempty]
    rfl
  have hrun : EngineRun "key" L [(L, landing)] (landing.perform "key" L).2 := Plays.start.move rfl
  have hreturned : (landing.perform "key" L).1 = .ok () := by
    cases h : (landing.perform "key" L).1 with
    | ok u => rfl
    | error e =>
        rw [h] at hreturns
        cases hreturns
  refine ⟨L, hL, hlogs, ((stays_signed_iff cpython_asciiDigests (by decide) hrun hsigned).mpr
    fun m hm _ => ?_).2⟩
  rw [List.mem_singleton.mp hm]
  exact ⟨rfl, hreturned⟩

/-- The ledger of a run whose task fails. -/
private def failedRun : Option Ledger :=
  playRun (fun _ _ => true) (scriptManifest [("T1", [])]) [("T1", .always mockFailure)] [] []

/-- The operator's override of the blocker. -/
private def overriding : EngineOp := .resolveBlocker "B1" "override" scriptOperator scriptNow

/-- **An override that is not signed**: the ledger of a failed run is signed and verifies; the
override takes effect and is logged, and the ledger no longer verifies. -/
theorem override_unsigned :
    ∃ R L, failedRun = some R ∧ R.sign "key" = (.ok (), L) ∧ SignedUnder "key" L
      ∧ L.blockers.map (·.blockerId) = ["B1"]
      ∧ (overriding.perform "key" L).1 = .ok () ∧ (overriding.perform "key" L).2.blockers = []
      ∧ overriding.Logs "key" L ∧ ¬ SignedUnder "key" (overriding.perform "key" L).2 := by
  obtain ⟨R, hR, hchecks⟩ : ∃ R, failedRun = some R
      ∧ decide ((R.sign "key").1.toOption = some ()
        ∧ (R.sign "key").2.blockers.map (·.blockerId) = ["B1"]
        ∧ (overriding.perform "key" (R.sign "key").2).1.toOption = some ()
        ∧ (overriding.perform "key" (R.sign "key").2).2.blockers = []
        ∧ (R.sign "key").2.executionLog.length
          < (overriding.perform "key" (R.sign "key").2).2.executionLog.length) = true := by
    refine (Option.any_eq_true _ _).mp ?_
    decide +kernel
  obtain ⟨hsign, hblocker, hreturns, hcleared, hlogs⟩ := of_decide_eq_true hchecks
  have hsigned : SignedUnder "key" (R.sign "key").2 := by
    obtain ⟨res, w', fx, hrun, hplay⟩ := playRun_run (scriptManifest_roots _) hR
    obtain rfl : res.ledger = R := by simpa [play] using hplay
    exact signedUnder_sign cpython_asciiDigests (chained_run hrun) (eq_ok_of_toOption hsign)
  have happ : Appends (R.sign "key").2.executionLog
      (overriding.perform "key" (R.sign "key").2).2.executionLog := appends_perform_resolve ..
  refine ⟨R, _, hR, Prod.ext (eq_ok_of_toOption hsign) rfl, hsigned, hblocker,
    eq_ok_of_toOption hreturns, hcleared, hlogs, fun hverified => ?_⟩
  exact happ.length_lt_iff.mp hlogs ((signedUnder_appends_iff hsigned happ).mp hverified)

end Example

end IplanRunner
