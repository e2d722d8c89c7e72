import Mathlib.Data.List.DropRight
import IplanRunner.Foundation.Inodes
import IplanRunner.Foundation.Plays
import IplanRunner.Ledger.Types

/-!
How ledgers are stored (`ledger/persistence.py`).

* `ledgerPath`, `lockPath`, `tmpPath`: the names of the files of a ledger; `store_paths` says that
  they differ.
* `SaveStage`: how far a call of `save` has come; `StoreStep`: one step of any call of `save`, or of
  a reader that takes no lock, or the death of a saving process.
* `StoreRun`: the steps of any number of calls, in any order.
-/

namespace IplanRunner

open Foundation

/-! ### Paths -/

/-- `dir / name`. -/
def slash (dir name : String) : String :=
  if name.toList.head? = some '/' then name else dir ++ "/" ++ name

/-- `ledger_path`. -/
def ledgerPath (storeDir ledgerId : String) : String := slash storeDir (ledgerId ++ ".yaml")

/-- The lock file `save` opens. -/
def lockPath (storeDir ledgerId : String) : String := slash storeDir ("." ++ ledgerId ++ ".lock")

/-- `PurePath.stem` of a name: what stands before a dot that is neither its first nor its last
character. -/
def stem (name : List Char) : List Char :=
  let before := (name.rdropWhile (· ≠ '.')).dropLast
  if before = [] ∨ name.rtakeWhile (· ≠ '.') = [] then name else before

/-- `with_suffix`. -/
def withSuffix (path suffix : String) : String :=
  String.ofList (path.toList.rdropWhile (· ≠ '/') ++ stem (path.toList.rtakeWhile (· ≠ '/'))
    ++ suffix.toList)

/-- The temporary file all calls of `save` for a ledger write. -/
def tmpPath (storeDir ledgerId : String) : String :=
  withSuffix (ledgerPath storeDir ledgerId) ".yaml.tmp"

lemma slash_last {dir name : String} {c : Char} (h : name.toList.getLast? = some c) :
    (slash dir name).toList.getLast? = some c := by
  rw [slash]
  split
  · exact h
  · rw [String.toList_append, List.getLast?_append, h]
    rfl

/-- **The three files of a ledger are different ones.** -/
lemma store_paths (storeDir ledgerId : String) :
    ledgerPath storeDir ledgerId ≠ tmpPath storeDir ledgerId
      ∧ ledgerPath storeDir ledgerId ≠ lockPath storeDir ledgerId
      ∧ lockPath storeDir ledgerId ≠ tmpPath storeDir ledgerId := by
  have hledger : (ledgerPath storeDir ledgerId).toList.getLast? = some 'l' :=
    slash_last (by rw [String.toList_append, List.getLast?_append]; rfl)
  have hlock : (lockPath storeDir ledgerId).toList.getLast? = some 'k' :=
    slash_last (by rw [String.toList_append, List.getLast?_append]; rfl)
  have htmp : (tmpPath storeDir ledgerId).toList.getLast? = some 'p' := by
    rw [tmpPath, withSuffix, String.toList_ofList, List.getLast?_append]
    rfl
  refine ⟨fun h => ?_, fun h => ?_, fun h => ?_⟩
  · rw [h, htmp] at hledger
    cases hledger
  · rw [h, hlock] at hledger
    cases hledger
  · rw [h, htmp] at hlock
    cases hlock

/-! ### Calls of `save` -/

/-- How far a call of `save` has come: it has the lock file open, with its inode; it holds the lock;
it writes the temporary file, with what is left to write; the file is closed; it has replaced the
ledger; it has raised inside the lock.  At last it has returned, has raised, or its process is
dead. -/
inductive SaveStage where
  | called
  | opened (lock : ℕ)
  | locked (lock : ℕ)
  | writing (lock tmp : ℕ) (left : List Char)
  | written (lock : ℕ)
  | replaced (lock : ℕ)
  | failed (lock : ℕ)
  | returned
  | raised
  | killed
  deriving DecidableEq

/-- A call of `save`: the ledger it is given, and how far it has come. -/
structure SaveCall where
  ledger : Ledger
  stage : SaveStage

/-- A reader of the stored ledger: the file it has open, what it has read of it, and whether it has
come to its end. -/
structure Reading where
  inode : ℕ
  got : List Char
  ended : Bool

/-- The store of a ledger: its files, the calls that hold locks on them, and the calls there
were. -/
structure StoreState where
  files : Inodes String Char
  locks : ℕ → Option ℕ
  saves : ℕ → Option SaveCall
  loads : ℕ → Option Reading

/-- An empty store. -/
def StoreState.empty : StoreState := ⟨.empty, fun _ => none, fun _ => none, fun _ => none⟩

/-- A call of `save` goes on to a stage. -/
def StoreState.goes (s : StoreState) (i : ℕ) (L : Ledger) (stage : SaveStage) : StoreState :=
  { s with saves := Function.update s.saves i (some ⟨L, stage⟩) }

/-- The store with other files. -/
def StoreState.setFiles (s : StoreState) (files : Inodes String Char) : StoreState :=
  { s with files := files }

/-- The store with other locks. -/
def StoreState.setLocks (s : StoreState) (locks : ℕ → Option ℕ) : StoreState :=
  { s with locks := locks }

/-- A reader goes on. -/
def StoreState.reads (s : StoreState) (r : ℕ) (d : Reading) : StoreState :=
  { s with loads := Function.update s.loads r (some d) }

/-- The locks without those of a call. -/
def released (locks : ℕ → Option ℕ) (i : ℕ) : ℕ → Option ℕ :=
  fun n => if locks n = some i then none else locks n

/-- A step of a call of `save`, of a reader, or of the system. -/
inductive StoreMove where
  | save (i : ℕ) (L : Ledger)
  | openLock (i : ℕ)
  | flock (i : ℕ)
  | openTmp (i : ℕ)
  | write (i k : ℕ)
  | close (i : ℕ)
  | replace (i : ℕ)
  | fail (i : ℕ)
  | unlock (i : ℕ)
  | kill (i : ℕ)
  | load (r : ℕ)
  | read (r k : ℕ)
  | eof (r : ℕ)

variable (dump : Ledger → List Char) (storeDir ledgerId : String)

/-- **One step**, `dump` being what `yaml.safe_dump` writes.  The pieces a call writes are of any
length; a call raises wherever it can, leaving what it has written. -/
inductive StoreStep (s : StoreState) : StoreMove → StoreState → Prop
  | save {i : ℕ} {L : Ledger} : s.saves i = none → L.control.ledgerId = ledgerId →
      StoreStep s (.save i L) (s.goes i L .called)
  | openLock {i : ℕ} {L : Ledger} : s.saves i = some ⟨L, .called⟩ →
      StoreStep s (.openLock i)
        ((s.setFiles (s.files.openW (lockPath storeDir L.control.ledgerId)).2).goes i L
          (.opened (s.files.openW (lockPath storeDir L.control.ledgerId)).1))
  | flock {i : ℕ} {L : Ledger} {n : ℕ} : s.saves i = some ⟨L, .opened n⟩ → s.locks n = none →
      StoreStep s (.flock i)
        ((s.setLocks (Function.update s.locks n (some i))).goes i L (.locked n))
  | openTmp {i : ℕ} {L : Ledger} {n : ℕ} : s.saves i = some ⟨L, .locked n⟩ →
      StoreStep s (.openTmp i)
        ((s.setFiles (s.files.openW (tmpPath storeDir L.control.ledgerId)).2).goes i L
          (.writing n (s.files.openW (tmpPath storeDir L.control.ledgerId)).1 (dump L)))
  | write {i k : ℕ} {L : Ledger} {n m : ℕ} {left : List Char} :
      s.saves i = some ⟨L, .writing n m left⟩ →
      StoreStep s (.write i k)
        ((s.setFiles (s.files.append m (left.take k))).goes i L (.writing n m (left.drop k)))
  | close {i : ℕ} {L : Ledger} {n m : ℕ} : s.saves i = some ⟨L, .writing n m []⟩ →
      StoreStep s (.close i) (s.goes i L (.written n))
  | replace {i : ℕ} {L : Ledger} {n m : ℕ} : s.saves i = some ⟨L, .written n⟩ →
      (htmp : s.files.entry (tmpPath storeDir L.control.ledgerId) = some m) →
      StoreStep s (.replace i)
        ((s.setFiles (s.files.rename (tmpPath storeDir L.control.ledgerId)
          (ledgerPath storeDir L.control.ledgerId) m htmp)).goes i L (.replaced n))
  | failUnlocked {i : ℕ} {L : Ledger} {stage : SaveStage} : s.saves i = some ⟨L, stage⟩ →
      stage = .called ∨ (∃ n, stage = .opened n) →
      StoreStep s (.fail i) (s.goes i L .raised)
  | failLocked {i : ℕ} {L : Ledger} {stage : SaveStage} {n : ℕ} : s.saves i = some ⟨L, stage⟩ →
      stage = .locked n ∨ (∃ m left, stage = .writing n m left) ∨ stage = .written n →
      StoreStep s (.fail i) (s.goes i L (.failed n))
  | unlockReplaced {i : ℕ} {L : Ledger} {n : ℕ} : s.saves i = some ⟨L, .replaced n⟩ →
      StoreStep s (.unlock i) ((s.setLocks (released s.locks i)).goes i L .returned)
  | unlockFailed {i : ℕ} {L : Ledger} {n : ℕ} : s.saves i = some ⟨L, .failed n⟩ →
      StoreStep s (.unlock i) ((s.setLocks (released s.locks i)).goes i L .raised)
  | kill {i : ℕ} {L : Ledger} {stage : SaveStage} : s.saves i = some ⟨L, stage⟩ →
      stage ≠ .returned → stage ≠ .raised → stage ≠ .killed →
      StoreStep s (.kill i) ((s.setLocks (released s.locks i)).goes i L .killed)
  | load {r n : ℕ} : s.loads r = none → s.files.entry (ledgerPath storeDir ledgerId) = some n →
      StoreStep s (.load r) (s.reads r ⟨n, [], false⟩)
  | read {r k n : ℕ} {got : List Char} : s.loads r = some ⟨n, got, false⟩ →
      StoreStep s (.read r k)
        (s.reads r ⟨n, got ++ ((s.files.text n).drop got.length).take k, false⟩)
  | eof {r n : ℕ} {got : List Char} : s.loads r = some ⟨n, got, false⟩ →
      (s.files.text n).length ≤ got.length → StoreStep s (.eof r) (s.reads r ⟨n, got, true⟩)

/-- Steps of any calls and readers, in any order, from an empty store on. -/
def StoreRun (moves : List (StoreState × StoreMove)) (s : StoreState) : Prop :=
  Plays (StoreStep dump storeDir ledgerId) .empty moves s

end IplanRunner
