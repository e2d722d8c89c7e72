import Mathlib.Data.Set.Insert
import IplanRunner.Ledger.Persistence

/-!
The stored ledger is always a whole one.

* `StoreState.Sound`: the invariant of the store.  All calls that are past opening have the same
  lock file; only the one that holds its lock has the temporary file under way; what readers have
  open, and what the ledger's name refers to, is sealed and holds the dump of a ledger.
* `Sound.goes`: what a step of a call has to keep of the files and the locks; `StoreStep.sound`:
  every step keeps the invariant.
* `saves_atomic`: what the ledger's name and every reader find.
-/

namespace IplanRunner

open Foundation

variable (dump : Ledger → List Char) (storeDir ledgerId : String)

/-! ### The invariant -/

/-- The inode of the lock file a call has open. -/
def SaveStage.lock? : SaveStage → Option ℕ
  | .opened n | .locked n | .writing n _ _ | .written n | .replaced n | .failed n => some n
  | .called | .returned | .raised | .killed => none

/-- The inode a call holds the lock of. -/
def SaveStage.held? : SaveStage → Option ℕ
  | .locked n | .writing n _ _ | .written n | .replaced n | .failed n => some n
  | .called | .opened _ | .returned | .raised | .killed => none

/-- The names the calls write. -/
def writtenNames : Set String := {tmpPath storeDir ledgerId, lockPath storeDir ledgerId}

/-- What is known of a call. -/
structure SaveCall.Sound (s : StoreState) (i : ℕ) (c : SaveCall) : Prop where
  id : c.ledger.control.ledgerId = ledgerId
  lock : ∀ n, c.stage.lock? = some n → s.files.entry (lockPath storeDir ledgerId) = some n
  held : ∀ n, c.stage.held? = some n → s.locks n = some i
  writing : ∀ n m left, c.stage = .writing n m left →
    s.files.entry (tmpPath storeDir ledgerId) = some m ∧ s.files.text m ++ left = dump c.ledger
  written : ∀ n, c.stage = .written n →
    ∃ m, s.files.entry (tmpPath storeDir ledgerId) = some m ∧ s.files.text m = dump c.ledger

/-- A file that is written no more and holds the dump of a ledger passed to a call. -/
structure StoreState.Dumped (s : StoreState) (n : ℕ) : Prop where
  sealed : s.files.Sealed (writtenNames storeDir ledgerId) n
  text : ∃ i c, s.saves i = some c ∧ s.files.text n = dump c.ledger

/-- What is known of a reader. -/
structure Reading.Sound (s : StoreState) (d : Reading) : Prop where
  dumped : s.Dumped dump storeDir ledgerId d.inode
  got : d.got <+: s.files.text d.inode
  ended : d.ended = true → d.got = s.files.text d.inode

/-- **The invariant of the store.** -/
structure StoreState.Sound (s : StoreState) : Prop where
  saves : ∀ i c, s.saves i = some c → c.Sound dump storeDir ledgerId s i
  loads : ∀ r d, s.loads r = some d → d.Sound dump storeDir ledgerId s
  target : ∀ n, s.files.entry (ledgerPath storeDir ledgerId) = some n →
    s.Dumped dump storeDir ledgerId n

/-- A step leaves the sealed files as they are, and the calls with their ledgers. -/
structure StoreState.Keeps (s s' : StoreState) : Prop where
  sealed : ∀ n, s.files.Sealed (writtenNames storeDir ledgerId) n →
    s'.files.Sealed (writtenNames storeDir ledgerId) n ∧ s'.files.text n = s.files.text n
  saves : ∀ i c, s.saves i = some c → ∃ stage, s'.saves i = some ⟨c.ledger, stage⟩

variable {dump storeDir ledgerId} {s s' : StoreState}

lemma StoreState.Keeps.dumped {n : ℕ} (h : s.Keeps storeDir ledgerId s')
    (hn : s.Dumped dump storeDir ledgerId n) : s'.Dumped dump storeDir ledgerId n := by
  obtain ⟨hsealed, i, c, hc, htext⟩ := hn
  obtain ⟨hsealed', hsame⟩ := h.sealed n hsealed
  obtain ⟨stage, hstage⟩ := h.saves i c hc
  exact ⟨hsealed', i, _, hstage, hsame.trans htext⟩

lemma Reading.Sound.keeps {d : Reading} (h : s.Keeps storeDir ledgerId s')
    (hd : d.Sound dump storeDir ledgerId s) : d.Sound dump storeDir ledgerId s' := by
  have hsame := (h.sealed _ hd.dumped.sealed).2
  exact ⟨h.dumped hd.dumped, by rw [hsame]; exact hd.got, by rw [hsame]; exact hd.ended⟩

@[simp] lemma goes_saves_self (s : StoreState) (i : ℕ) (L : Ledger) (stage : SaveStage) :
    (s.goes i L stage).saves i = some ⟨L, stage⟩ := by
  simp [StoreState.goes]

lemma goes_saves_of_ne {i j : ℕ} (hj : j ≠ i) (L : Ledger) (stage : SaveStage) :
    (s.goes i L stage).saves j = s.saves j :=
  Function.update_of_ne hj ..

lemma SaveStage.lock?_of_held? {stage : SaveStage} {n : ℕ} (h : stage.held? = some n) :
    stage.lock? = some n := by
  cases stage <;> first | exact h | cases h

/-- Of two calls only one holds the lock. -/
lemma StoreState.Sound.alone (hs : s.Sound dump storeDir ledgerId) {i j : ℕ} {c d : SaveCall}
    {n m : ℕ} (hc : s.saves i = some c) (hd : s.saves j = some d) (hi : c.stage.held? = some n)
    (hj : d.stage.held? = some m) : i = j := by
  have hn := (hs.saves i c hc).lock n (SaveStage.lock?_of_held? hi)
  have hm := (hs.saves j d hd).lock m (SaveStage.lock?_of_held? hj)
  rw [hn] at hm
  cases hm
  have hholder := (hs.saves i c hc).held n hi
  rw [(hs.saves j d hd).held n hj] at hholder
  exact (Option.some.inj hholder).symm

/-- **A step of a call** keeps the invariant, when it leaves the sealed files, the name of the lock
file and the locks of the others, has the lock or leaves the temporary file, and gives the ledger's
name to no file but one that holds its dump and is sealed. -/
lemma StoreState.Sound.goes (hs : s.Sound dump storeDir ledgerId) {i : ℕ} {L : Ledger}
    {stage : SaveStage} {files : Inodes String Char} {locks : ℕ → Option ℕ}
    (hi : ∀ c, s.saves i = some c → c.ledger = L)
    (hsealed : ∀ n, s.files.Sealed (writtenNames storeDir ledgerId) n →
      files.Sealed (writtenNames storeDir ledgerId) n ∧ files.text n = s.files.text n)
    (hlock : ∀ n, s.files.entry (lockPath storeDir ledgerId) = some n →
      files.entry (lockPath storeDir ledgerId) = some n)
    (hlocks : ∀ n j, j ≠ i → s.locks n = some j → locks n = some j)
    (htmp : (∀ m, s.files.entry (tmpPath storeDir ledgerId) = some m →
        files.entry (tmpPath storeDir ledgerId) = some m ∧ files.text m = s.files.text m)
      ∨ ∃ c n, s.saves i = some c ∧ c.stage.held? = some n)
    (htarget : ∀ n, files.entry (ledgerPath storeDir ledgerId) = some n →
      s.files.entry (ledgerPath storeDir ledgerId) = some n
        ∨ (files.Sealed (writtenNames storeDir ledgerId) n ∧ files.text n = dump L))
    (hnew : SaveCall.Sound dump storeDir ledgerId
      (((s.setFiles files).setLocks locks).goes i L stage)
      i ⟨L, stage⟩) :
    (((s.setFiles files).setLocks locks).goes i L stage).Sound dump storeDir ledgerId
      ∧ s.Keeps storeDir ledgerId (((s.setFiles files).setLocks locks).goes i L stage) := by
  have hself := goes_saves_self ((s.setFiles files).setLocks locks) i L stage
  have hother : ∀ j, j ≠ i →
      (((s.setFiles files).setLocks locks).goes i L stage).saves j = s.saves j :=
    fun j hj => goes_saves_of_ne hj L stage
  have hkeeps : s.Keeps storeDir ledgerId (((s.setFiles files).setLocks locks).goes i L stage) := by
    refine ⟨hsealed, fun j c hc => ?_⟩
    by_cases hj : j = i
    · subst hj
      exact ⟨stage, by rw [hself, hi c hc]⟩
    · exact ⟨c.stage, by rw [hother j hj, hc]⟩
  refine ⟨⟨fun j c hc => ?_, fun r d hd => (hs.loads r d hd).keeps hkeeps, fun n hn => ?_⟩, hkeeps⟩
  · by_cases hj : j = i
    · subst hj
      rw [hself] at hc
      cases hc
      exact hnew
    · rw [hother j hj] at hc
      have hold := hs.saves j c hc
      -- while another call holds the lock, this one has no temporary file
      have hfree : ∀ n, c.stage.held? = some n → ∀ m,
          s.files.entry (tmpPath storeDir ledgerId) = some m →
            files.entry (tmpPath storeDir ledgerId) = some m ∧ files.text m = s.files.text m := by
        intro n hn
        rcases htmp with htmp | ⟨c', n', hc', hn'⟩
        · exact htmp
        · exact absurd (hs.alone hc hc' hn hn') hj
      refine ⟨hold.id, fun n hn => hlock n (hold.lock n hn),
        fun n hn => hlocks n j hj (hold.held n hn), fun n m left hst => ?_, fun n hst => ?_⟩
      · obtain ⟨hentry, htext⟩ := hold.writing n m left hst
        obtain ⟨hentry', hsame⟩ := hfree n (by rw [hst]; rfl) m hentry
        exact ⟨hentry', (congrArg (· ++ left) hsame).trans htext⟩
      · obtain ⟨m, hentry, htext⟩ := hold.written n hst
        obtain ⟨hentry', hsame⟩ := hfree n (by rw [hst]; rfl) m hentry
        exact ⟨m, hentry', hsame.trans htext⟩
  · rcases htarget n hn with hold | ⟨hseal, htext⟩
    · exact hkeeps.dumped (hs.target n hold)
    · exact ⟨hseal, i, _, hself, htext⟩

/-! ### The steps -/

/-- A step of a reader. -/
lemma StoreState.Sound.reads (hs : s.Sound dump storeDir ledgerId) {r : ℕ} {d : Reading}
    (hd : d.Sound dump storeDir ledgerId s) :
    (s.reads r d).Sound dump storeDir ledgerId ∧ s.Keeps storeDir ledgerId (s.reads r d) := by
  have hkeeps : s.Keeps storeDir ledgerId (s.reads r d) :=
    ⟨fun _ hn => ⟨hn, rfl⟩, fun i c hc => ⟨c.stage, hc⟩⟩
  refine ⟨⟨fun i c hc => ?_, fun r' d' hd' => ?_,
    fun n hn => hkeeps.dumped (hs.target n hn)⟩, hkeeps⟩
  · obtain ⟨hid, hlock, hheld, hwriting, hwritten⟩ := hs.saves i c hc
    exact ⟨hid, hlock, hheld, hwriting, hwritten⟩
  · by_cases hr : r' = r
    · subst hr
      have hself : (s.reads r' d).loads r' = some d := Function.update_self ..
      rw [hself] at hd'
      cases hd'
      exact hd.keeps hkeeps
    · have hother : (s.reads r d).loads r' = s.loads r' := Function.update_of_ne hr ..
      rw [hother] at hd'
      exact (hs.loads r' d' hd').keeps hkeeps

/-- A step of a call that changes no file. -/
lemma StoreState.Sound.goes_files (hs : s.Sound dump storeDir ledgerId) {i : ℕ} {L : Ledger}
    {stage : SaveStage} {locks : ℕ → Option ℕ} (hi : ∀ c, s.saves i = some c → c.ledger = L)
    (hlocks : ∀ n j, j ≠ i → s.locks n = some j → locks n = some j)
    (hnew :
      SaveCall.Sound dump storeDir ledgerId ((s.setLocks locks).goes i L stage) i ⟨L, stage⟩) :
    ((s.setLocks locks).goes i L stage).Sound dump storeDir ledgerId
      ∧ s.Keeps storeDir ledgerId ((s.setLocks locks).goes i L stage) :=
  @StoreState.Sound.goes dump storeDir ledgerId s hs i L stage s.files locks hi
    (fun _ hn => ⟨hn, rfl⟩) (fun _ hn => hn) hlocks (.inl fun _ hm => ⟨hm, rfl⟩)
    (fun _ hn => .inl hn) hnew

/-- A call that has no lock file open is known to be one for the ledger. -/
lemma SaveCall.Sound.closed {i : ℕ} {L : Ledger} {stage : SaveStage}
    (hid : L.control.ledgerId = ledgerId) (hlock : stage.lock? = none) :
    SaveCall.Sound dump storeDir ledgerId s i ⟨L, stage⟩ := by
  refine ⟨hid, fun n hn => ?_, fun n hn => ?_, fun n m left hst => ?_, fun n hst => ?_⟩
  · rw [hlock] at hn
    cases hn
  · rw [SaveStage.lock?_of_held? hn] at hlock
    cases hlock
  · subst hst
    cases hlock
  · subst hst
    cases hlock

lemma released_of_ne {locks : ℕ → Option ℕ} {i j n : ℕ} (hj : j ≠ i) (h : locks n = some j) :
    released locks i n = some j := by
  rw [released, h, if_neg fun heq => hj (Option.some.inj heq)]

/-- **Every step keeps the invariant**, and leaves the sealed files as they are. -/
theorem StoreStep.sound {move : StoreMove} (hstep : StoreStep dump storeDir ledgerId s move s')
    (hs : s.Sound dump storeDir ledgerId) :
    s'.Sound dump storeDir ledgerId ∧ s.Keeps storeDir ledgerId s' := by
  obtain ⟨hledgerTmp, hledgerLock, hlockTmp⟩ := store_paths storeDir ledgerId
  have hcall : ∀ {i L stage}, s.saves i = some ⟨L, stage⟩ →
      ∀ c, s.saves i = some c → c.ledger = L := by
    intro i L stage hi c hc
    rw [hi] at hc
    cases hc
    rfl
  cases hstep with
  | save hnone hid =>
      refine hs.goes_files (fun c hc => ?_) (fun _ _ _ h => h) (.closed hid rfl)
      rw [hnone] at hc
      cases hc
  | @openLock i L hi =>
      have hid : L.control.ledgerId = ledgerId := (hs.saves i _ hi).id
      subst hid
      have hnew : (s.files.openW (lockPath storeDir L.control.ledgerId)).2.entry _ = some _ :=
        Inodes.entry_openW_self
      refine @StoreState.Sound.goes _ _ _ s hs i L _ _ s.locks (hcall hi)
        (fun n hn => hn.openW (by simp [writtenNames])) (fun n hn => ?_) (fun _ _ _ h => h)
        (.inl fun m hm => ?_) (fun n hn => .inl ?_) ⟨rfl, fun n hn => ?_, ?_, ?_, ?_⟩
      · rw [hnew, Inodes.openW_fst hn]
      · have hne : s.files.entry (lockPath storeDir L.control.ledgerId) ≠ some m :=
          fun h => hlockTmp (s.files.single h hm)
        exact ⟨by rw [Inodes.entry_openW_of_ne hlockTmp.symm, hm],
          Inodes.text_openW_of_ne hne (s.files.known hm)⟩
      · rw [← hn, Inodes.entry_openW_of_ne hledgerLock]
      · cases hn
        exact hnew
      · intro n hn
        cases hn
      · intro n m left hst
        cases hst
      · intro n hst
        cases hst
  | @flock i L n hi hfree =>
      have hold := hs.saves i _ hi
      refine hs.goes_files (hcall hi) (fun m j _ hm => ?_)
        ⟨hold.id, fun m hm => hold.lock m hm, fun m hm => ?_, ?_, ?_⟩
      · have hne : m ≠ n := by
          rintro rfl
          rw [hfree] at hm
          cases hm
        rw [Function.update_of_ne hne, hm]
      · cases hm
        exact Function.update_self ..
      · intro n m left hst
        cases hst
      · intro n hst
        cases hst
  | @openTmp i L n hi =>
      have hold := hs.saves i _ hi
      have hid : L.control.ledgerId = ledgerId := hold.id
      subst hid
      have hnew : (s.files.openW (tmpPath storeDir L.control.ledgerId)).2.entry _ = some _ :=
        Inodes.entry_openW_self
      refine @StoreState.Sound.goes _ _ _ s hs i L _ _ s.locks (hcall hi)
        (fun n hn => hn.openW (by simp [writtenNames])) (fun m hm => ?_) (fun _ _ _ h => h)
        (.inr ⟨_, n, hi, rfl⟩) (fun m hm => .inl ?_)
        ⟨rfl, fun m hm => ?_, fun m hm => hold.held m hm, ?_, ?_⟩
      · rw [Inodes.entry_openW_of_ne hlockTmp, hm]
      · rw [← hm, Inodes.entry_openW_of_ne hledgerTmp]
      · exact (Inodes.entry_openW_of_ne hlockTmp).trans (hold.lock m hm)
      · intro k m left hst
        cases hst
        exact ⟨hnew, congrArg (· ++ dump L) Inodes.text_openW_self⟩
      · intro k hst
        cases hst
  | @write i k L n m left hi =>
      have hold := hs.saves i _ hi
      obtain ⟨hentry, htext⟩ := hold.writing n m left rfl
      refine @StoreState.Sound.goes _ _ _ s hs i L _ _ s.locks (hcall hi)
        (fun j hj => hj.append (Set.mem_insert _ _) hentry _) (fun _ hm => hm)
        (fun _ _ _ h => h) (.inr ⟨_, n, hi, rfl⟩) (fun _ hm => .inl hm)
        ⟨hold.id, fun m hm => hold.lock m hm, fun m hm => hold.held m hm, ?_, ?_⟩
      · intro n' m' left' hst
        cases hst
        refine ⟨hentry, ?_⟩
        calc (s.files.append m (left.take k)).text m ++ left.drop k
            = s.files.text m ++ left.take k ++ left.drop k := by rw [Inodes.text_append_self]
          _ = s.files.text m ++ left := by rw [List.append_assoc, List.take_append_drop]
          _ = dump L := htext
      · intro n' hst
        cases hst
  | @close i L n m hi =>
      have hold := hs.saves i _ hi
      obtain ⟨hentry, htext⟩ := hold.writing n m [] rfl
      refine @StoreState.Sound.goes_files _ _ _ s hs i L _ s.locks (hcall hi) (fun _ _ _ h => h)
        ⟨hold.id, fun m hm => hold.lock m hm, fun m hm => hold.held m hm, ?_, ?_⟩
      · intro n' m' left' hst
        cases hst
      · intro n' hst
        exact ⟨m, hentry, by rw [← htext, List.append_nil]; rfl⟩
  | @replace i L n m hi htmp =>
      have hold := hs.saves i _ hi
      have hid : L.control.ledgerId = ledgerId := hold.id
      subst hid
      have hout : ledgerPath storeDir L.control.ledgerId
          ∉ writtenNames storeDir L.control.ledgerId := by
        simp [writtenNames, hledgerTmp, hledgerLock]
      obtain ⟨m', hentry, htext⟩ := hold.written n rfl
      rw [htmp] at hentry
      cases hentry
      refine @StoreState.Sound.goes _ _ _ s hs i L _ _ s.locks (hcall hi)
        (fun j hj => hj.rename htmp hout) (fun j hj => ?_) (fun _ _ _ h => h)
        (.inr ⟨_, n, hi, rfl⟩) (fun j hj => .inr ?_)
        ⟨rfl, fun j hj => ?_, fun m hm => hold.held m hm, ?_, ?_⟩
      · exact (Inodes.entry_rename_of_ne htmp hlockTmp hledgerLock.symm).trans hj
      · obtain rfl := Option.some.inj ((Inodes.entry_rename_self htmp).symm.trans hj)
        exact ⟨Inodes.sealed_rename htmp hout, htext⟩
      · exact (Inodes.entry_rename_of_ne htmp hlockTmp hledgerLock.symm).trans (hold.lock j hj)
      · intro n' m' left' hst
        cases hst
      · intro n' hst
        cases hst
  | @failUnlocked i L stage hi _ =>
      exact @StoreState.Sound.goes_files _ _ _ s hs i L _ s.locks (hcall hi) (fun _ _ _ h => h)
        (.closed (hs.saves i _ hi).id rfl)
  | @failLocked i L stage n hi hstage =>
      have hold := hs.saves i _ hi
      have hheld : stage.lock? = some n ∧ stage.held? = some n := by
        rcases hstage with rfl | ⟨m, left, rfl⟩ | rfl <;> exact ⟨rfl, rfl⟩
      refine @StoreState.Sound.goes_files _ _ _ s hs i L _ s.locks (hcall hi) (fun _ _ _ h => h)
        ⟨hold.id, fun m hm => ?_, fun m hm => ?_, ?_, ?_⟩
      · cases hm
        exact hold.lock n hheld.1
      · cases hm
        exact hold.held n hheld.2
      · intro n' m' left' hst
        cases hst
      · intro n' hst
        cases hst
  | @unlockReplaced i L n hi =>
      exact hs.goes_files (hcall hi) (fun _ _ hj => released_of_ne hj)
        (.closed (hs.saves i _ hi).id rfl)
  | @unlockFailed i L n hi =>
      exact hs.goes_files (hcall hi) (fun _ _ hj => released_of_ne hj)
        (.closed (hs.saves i _ hi).id rfl)
  | @kill i L stage hi _ _ _ =>
      exact hs.goes_files (hcall hi) (fun _ _ hj => released_of_ne hj)
        (.closed (hs.saves i _ hi).id rfl)
  | @load r n hr hentry =>
      exact hs.reads ⟨hs.target n hentry, List.nil_prefix, fun h => by cases h⟩
  | @read r k n got hr =>
      have hold := hs.loads r _ hr
      refine hs.reads ⟨hold.dumped, ?_, fun h => by cases h⟩
      obtain ⟨rest, hrest⟩ := hold.got
      have hrest : got ++ rest = s.files.text n := hrest
      refine ⟨rest.drop k, ?_⟩
      calc got ++ ((s.files.text n).drop got.length).take k ++ rest.drop k
          = got ++ rest.take k ++ rest.drop k := by rw [← hrest, List.drop_left]
        _ = got ++ rest := by rw [List.append_assoc, List.take_append_drop]
        _ = s.files.text n := hrest
  | @eof r n got hr hlen =>
      have hold := hs.loads r _ hr
      exact hs.reads ⟨hold.dumped, hold.got, fun _ =>
        hold.got.eq_of_length (le_antisymm hold.got.length_le hlen)⟩

/-! ### What is stored -/

/-- The call whose ledger a step stores. -/
def StoreMove.replaced? : StoreMove → Option ℕ
  | .replace i => some i
  | _ => none

/-- The calls whose ledgers were stored, in the order of their replacing. -/
def replaces (moves : List (StoreState × StoreMove)) : List ℕ :=
  moves.filterMap fun m => m.2.replaced?

/-- A call is past replacing. -/
def SaveStage.Stored (stage : SaveStage) : Prop := stage = .returned ∨ ∃ n, stage = .replaced n

lemma goes_saves {i j : ℕ} {L : Ledger} {stage : SaveStage} {c : SaveCall}
    (h : (s.goes i L stage).saves j = some c) :
    (j = i ∧ c = ⟨L, stage⟩) ∨ (j ≠ i ∧ s.saves j = some c) := by
  by_cases hj : j = i
  · subst hj
    rw [goes_saves_self] at h
    exact .inl ⟨rfl, (Option.some.inj h).symm⟩
  · rw [goes_saves_of_ne hj] at h
    exact .inr ⟨hj, h⟩

/-- A call comes past replacing only by replacing. -/
lemma StoreStep.stored_of {move : StoreMove} (hstep : StoreStep dump storeDir ledgerId s move s')
    {j : ℕ} {c : SaveCall} (hc : s'.saves j = some c) (hstored : c.stage.Stored) :
    (∃ c₀, s.saves j = some c₀ ∧ c₀.stage.Stored) ∨ move.replaced? = some j := by
  -- the stages a step other than `replace` and `unlock` takes a call to are not past replacing
  have hother : ∀ {x : StoreState} {i : ℕ} {L : Ledger} {stage : SaveStage}, x.saves = s.saves →
      ¬ stage.Stored → (x.goes i L stage).saves j = some c →
      ∃ c₀, s.saves j = some c₀ ∧ c₀.stage.Stored := by
    intro x i L stage hx hstage h
    rcases goes_saves h with ⟨-, rfl⟩ | ⟨-, h⟩
    · exact absurd hstored hstage
    · exact ⟨c, by rw [← hx, h], hstored⟩
  cases hstep with
  | save _ _ => exact .inl (hother rfl (by simp [SaveStage.Stored]) hc)
  | openLock _ => exact .inl (hother rfl (by simp [SaveStage.Stored]) hc)
  | flock _ _ => exact .inl (hother rfl (by simp [SaveStage.Stored]) hc)
  | openTmp _ => exact .inl (hother rfl (by simp [SaveStage.Stored]) hc)
  | write _ => exact .inl (hother rfl (by simp [SaveStage.Stored]) hc)
  | close _ => exact .inl (hother rfl (by simp [SaveStage.Stored]) hc)
  | failUnlocked _ _ => exact .inl (hother rfl (by simp [SaveStage.Stored]) hc)
  | failLocked _ _ => exact .inl (hother rfl (by simp [SaveStage.Stored]) hc)
  | unlockFailed _ => exact .inl (hother rfl (by simp [SaveStage.Stored]) hc)
  | kill _ _ _ _ => exact .inl (hother rfl (by simp [SaveStage.Stored]) hc)
  | replace _ _ =>
      rcases goes_saves hc with ⟨rfl, -⟩ | ⟨-, h⟩
      · exact .inr rfl
      · exact .inl ⟨c, h, hstored⟩
  | unlockReplaced hi =>
      rcases goes_saves hc with ⟨rfl, -⟩ | ⟨-, h⟩
      · exact .inl ⟨_, hi, .inr ⟨_, rfl⟩⟩
      · exact .inl ⟨c, h, hstored⟩
  | load _ _ => exact .inl ⟨c, hc, hstored⟩
  | read _ => exact .inl ⟨c, hc, hstored⟩
  | eof _ _ => exact .inl ⟨c, hc, hstored⟩

/-- Only replacing gives the ledger's name to another file. -/
lemma StoreStep.target_eq {move : StoreMove} (hs : s.Sound dump storeDir ledgerId)
    (hstep : StoreStep dump storeDir ledgerId s move s') (hmove : move.replaced? = none) :
    s'.files.entry (ledgerPath storeDir ledgerId)
      = s.files.entry (ledgerPath storeDir ledgerId) := by
  obtain ⟨hledgerTmp, hledgerLock, -⟩ := store_paths storeDir ledgerId
  cases hstep with
  | @openLock i L hi =>
      have hid : L.control.ledgerId = ledgerId := (hs.saves i _ hi).id
      subst hid
      exact Inodes.entry_openW_of_ne hledgerLock
  | @openTmp i L n hi =>
      have hid : L.control.ledgerId = ledgerId := (hs.saves i _ hi).id
      subst hid
      exact Inodes.entry_openW_of_ne hledgerTmp
  | replace _ _ => cases hmove
  | _ => rfl

/-- What the moves of a run have stored: nothing, or the ledger of the call that replaced last. -/
structure StoredBy (dump : Ledger → List Char) (storeDir ledgerId : String)
    (moves : List (StoreState × StoreMove)) (s : StoreState) : Prop where
  calls : ∀ i c, s.saves i = some c → c.stage.Stored → i ∈ replaces moves
  absent : replaces moves = [] → s.files.entry (ledgerPath storeDir ledgerId) = none
  last : ∀ i, (replaces moves).getLast? = some i →
    ∃ n c, s.files.entry (ledgerPath storeDir ledgerId) = some n ∧ s.saves i = some c
      ∧ s.files.text n = dump c.ledger

lemma replaces_append (moves : List (StoreState × StoreMove)) (s : StoreState) (move : StoreMove) :
    replaces (moves ++ [(s, move)]) = replaces moves ++ move.replaced?.toList := by
  rw [replaces, List.filterMap_append, replaces]
  cases move <;> rfl

/-- **One step** stores what it should. -/
lemma StoredBy.step {moves : List (StoreState × StoreMove)} {move : StoreMove}
    (hs : s.Sound dump storeDir ledgerId) (hstep : StoreStep dump storeDir ledgerId s move s')
    (h : StoredBy dump storeDir ledgerId moves s) :
    StoredBy dump storeDir ledgerId (moves ++ [(s, move)]) s' := by
  obtain ⟨hcalls, habsent, hlast⟩ := h
  have hkeeps := (hstep.sound hs).2
  have hcalls' : ∀ i c, s'.saves i = some c → c.stage.Stored →
      i ∈ replaces (moves ++ [(s, move)]) := by
    intro i c hc hstored
    rw [replaces_append, List.mem_append]
    rcases hstep.stored_of hc hstored with ⟨c₀, hc₀, hstored₀⟩ | hmove
    · exact .inl (hcalls i c₀ hc₀ hstored₀)
    · exact .inr (by rw [hmove]; exact List.mem_singleton_self i)
  cases hmove : move.replaced? with
  | none =>
      have hsame : replaces (moves ++ [(s, move)]) = replaces moves := by
        rw [replaces_append, hmove, Option.toList_none, List.append_nil]
      have htarget := hstep.target_eq hs hmove
      refine ⟨hcalls', fun hnone => ?_, fun i hi => ?_⟩
      · rw [htarget]
        exact habsent (hsame ▸ hnone)
      · rw [hsame] at hi
        obtain ⟨n, c, hn, hc, htext⟩ := hlast i hi
        obtain ⟨stage, hstage⟩ := hkeeps.saves i c hc
        exact ⟨n, _, htarget.trans hn, hstage,
          (hkeeps.sealed n (hs.target n hn).sealed).2.trans htext⟩
  | some j =>
      have hgrown : replaces (moves ++ [(s, move)]) = replaces moves ++ [j] := by
        rw [replaces_append, hmove, Option.toList_some]
      refine ⟨hcalls', fun hnone => by simp [hgrown] at hnone, fun i hi => ?_⟩
      rw [hgrown, List.getLast?_append, List.getLast?_singleton, Option.some_or] at hi
      cases hi
      cases hstep with
      | @replace i L n m hcall htmp =>
          obtain rfl : i = j := Option.some.inj hmove
          have hold := hs.saves i _ hcall
          have hid : L.control.ledgerId = ledgerId := hold.id
          subst hid
          obtain ⟨m', hentry, htext⟩ := hold.written n rfl
          obtain rfl := Option.some.inj (htmp.symm.trans hentry)
          exact ⟨m, _, Inodes.entry_rename_self htmp, Function.update_self .., htext⟩
      | _ => cases hmove

/-- The invariant and the history of a run. -/
lemma StoreRun.sound {moves : List (StoreState × StoreMove)}
    (hrun : StoreRun dump storeDir ledgerId moves s) :
    s.Sound dump storeDir ledgerId ∧ StoredBy dump storeDir ledgerId moves s := by
  induction hrun with
  | start =>
      refine ⟨⟨fun _ _ h => ?_, fun _ _ h => ?_, fun _ h => ?_⟩, ⟨fun _ _ h => ?_, fun _ => rfl,
        fun _ h => ?_⟩⟩ <;> cases h
  | move _ hstep ih => exact ⟨(hstep.sound ih.1).1, ih.2.step ih.1 hstep⟩

/-! ### Main result -/

/-- **Saves are atomic**, for any calls of `save` and readers of the same ledger, step by step in
any order, any of the calls killed or raising anywhere.  The ledger's name refers to nothing or to
the dump of a ledger passed to some call; behind a call that returned it refers to the dump of its
ledger, or of one that replaced it later; and a reader that comes to the end of its file has read
the dump of a ledger passed to some call. -/
theorem saves_atomic {moves : List (StoreState × StoreMove)}
    (hrun : StoreRun dump storeDir ledgerId moves s) :
    (s.files.textAt (ledgerPath storeDir ledgerId) = none
        ∨ ∃ i c, s.saves i = some c
          ∧ s.files.textAt (ledgerPath storeDir ledgerId) = some (dump c.ledger))
      ∧ (∀ i L, s.saves i = some ⟨L, .returned⟩ → i ∈ replaces moves
        ∧ ∃ j c, (replaces moves).getLast? = some j ∧ s.saves j = some c
          ∧ s.files.textAt (ledgerPath storeDir ledgerId) = some (dump c.ledger))
      ∧ ∀ r d, s.loads r = some d → d.ended = true →
        ∃ i c, s.saves i = some c ∧ d.got = dump c.ledger := by
  obtain ⟨hsound, hcalls, -, hlast⟩ := hrun.sound
  refine ⟨?_, fun i L hi => ?_, fun r d hd hended => ?_⟩
  · cases hentry : s.files.entry (ledgerPath storeDir ledgerId) with
    | none => exact .inl (by rw [Inodes.textAt, hentry, Option.map_none])
    | some n =>
        obtain ⟨-, i, c, hc, htext⟩ := hsound.target n hentry
        exact .inr ⟨i, c, hc, by rw [Inodes.textAt, hentry, Option.map_some, htext]⟩
  · have hmem := hcalls i _ hi (.inl rfl)
    obtain ⟨j, hj⟩ := Option.isSome_iff_exists.mp
      (List.getLast?_isSome.mpr (List.ne_nil_of_mem hmem))
    obtain ⟨n, c, hn, hc, htext⟩ := hlast j hj
    exact ⟨hmem, j, c, hj, hc, by rw [Inodes.textAt, hn, Option.map_some, htext]⟩
  · obtain ⟨⟨-, i, c, hc, htext⟩, -, hgot⟩ := hsound.loads r d hd
    exact ⟨i, c, hc, (hgot hended).trans htext⟩

section Example

/-- A ledger without tasks. -/
private def bareLedger : Ledger where
  control := ⟨"LEDGER-1", .str "IPLAN-1", .str "1.0.0", .str "sha256:0", .inProgress, .running,
    false⟩
  isolationScope := []
  taskLedger := []
  agentLeases := []
  executionEvidence := []
  blockers := []
  reconciliation := ⟨false, 0, 0⟩
  sagaJournal := []
  executionHistory := []
  executionLog := []
  resolutions := []
  vcs := none

/-- The first lines of a dump. -/
private def dumpHead (L : Ledger) : List Char :=
  ("ledger_control:\n  ledger_id: " ++ L.control.ledgerId ++ "\n").toList

/-- A save that returns has stored its ledger. -/
theorem saves_atomic_returned :
    ∃ moves s, StoreRun dumpHead "store" "LEDGER-1" moves s
      ∧ s.saves 0 = some ⟨bareLedger, .returned⟩ ∧ replaces moves = [0]
      ∧ s.files.textAt (ledgerPath "store" "LEDGER-1") = some (dumpHead bareLedger) := by
  have hself := fun s stage => goes_saves_self s 0 bareLedger stage
  have hstart : StoreRun dumpHead "store" "LEDGER-1" [] .empty := Plays.start
  have hlocked := Plays.move (Plays.move (Plays.move hstart
    (StoreStep.save (i := 0) (L := bareLedger) rfl rfl)) (StoreStep.openLock (hself _ _)))
    (StoreStep.flock (hself _ _) rfl)
  have hwriting := Plays.move (Plays.move hlocked (StoreStep.openTmp (hself _ _)))
    (StoreStep.write (k := (dumpHead bareLedger).length) (hself _ _))
  rw [List.drop_length] at hwriting
  have hwritten : StoreRun dumpHead "store" "LEDGER-1" _ _ :=
    Plays.move hwriting (StoreStep.close (hself _ _))
  obtain ⟨m, htmp, -⟩ := (hwritten.sound.1.saves 0 _ (hself _ _)).written _ rfl
  have hrun : StoreRun dumpHead "store" "LEDGER-1" _ _ :=
    Plays.move (Plays.move hwritten (StoreStep.replace (hself _ _) htmp))
      (StoreStep.unlockReplaced (hself _ _))
  refine ⟨_, _, hrun, hself _ _, rfl, ?_⟩
  obtain ⟨-, j, c, hj, hc, htext⟩ := (saves_atomic hrun).2.1 0 bareLedger (hself _ _)
  obtain rfl : 0 = j := Option.some.inj hj
  obtain rfl := Option.some.inj ((hself _ _).symm.trans hc)
  exact htext

end Example

end IplanRunner
