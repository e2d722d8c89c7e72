import Mathlib.Data.Set.Basic
import Mathlib.Logic.Function.Basic

/-!
Files as the kernel keeps them: names refer to inodes, and inodes hold the text.

* `Inodes`: the names and the inodes; `openW`, `append`, `rename`, `textAt`: opening for writing,
  writing on, replacing one name by another, and reading by name.
* `Sealed`: an inode that none of some names refers to.  What is written through these names does
  not reach it; `Sealed.openW`, `Sealed.append`, `Sealed.rename` say so of each call, and
  `sealed_rename` how a file becomes sealed.
-/

namespace Foundation

/-- Names that refer to inodes, no two to the same one, and what the inodes hold. -/
structure Inodes (Name β : Type*) where
  entry : Name → Option ℕ
  text : ℕ → List β
  next : ℕ
  known : ∀ {name : Name} {n : ℕ}, entry name = some n → n < next
  single : ∀ {a b : Name} {n : ℕ}, entry a = some n → entry b = some n → a = b

namespace Inodes

variable {Name β : Type*}

/-- No files. -/
def empty : Inodes Name β where
  entry := fun _ => none
  text := fun _ => []
  next := 0
  known := by simp
  single := by simp

variable (D : Inodes Name β)

/-- What is read under a name. -/
def textAt (name : Name) : Option (List β) := (D.entry name).map D.text

/-- Writing at the end of an open file. -/
def append (n : ℕ) (piece : List β) : Inodes Name β :=
  { D with text := Function.update D.text n (D.text n ++ piece) }

/-- An open file cut to nothing. -/
def truncate (n : ℕ) : Inodes Name β := { D with text := Function.update D.text n [] }

variable [DecidableEq Name]

/-- A new file under a name that refers to none. -/
def create (name : Name) (hnone : D.entry name = none) : Inodes Name β where
  entry := Function.update D.entry name (some D.next)
  text := Function.update D.text D.next []
  next := D.next + 1
  known := by
    intro other n h
    by_cases hname : other = name
    · subst hname
      rw [Function.update_self] at h
      cases h
      exact Nat.lt_succ_self _
    · rw [Function.update_of_ne hname] at h
      exact Nat.lt_succ_of_lt (D.known h)
  single := by
    intro a b n ha hb
    by_cases hname : a = name <;> by_cases hother : b = name
    · rw [hname, hother]
    · subst hname
      rw [Function.update_self] at ha
      rw [Function.update_of_ne hother] at hb
      cases ha
      exact absurd (D.known hb) (lt_irrefl _)
    · subst hother
      rw [Function.update_of_ne hname] at ha
      rw [Function.update_self] at hb
      cases hb
      exact absurd (D.known ha) (lt_irrefl _)
    · rw [Function.update_of_ne hname] at ha
      rw [Function.update_of_ne hother] at hb
      exact D.single ha hb

/-- Opening for writing: the file of the name is cut to nothing, or made; with its inode. -/
def openW (name : Name) : ℕ × Inodes Name β :=
  match h : D.entry name with
  | some n => (n, D.truncate n)
  | none => (D.next, D.create name h)

/-- The second name refers to the file of the first, `n`, which itself is gone. -/
def rename (a b : Name) (n : ℕ) (ha : D.entry a = some n) : Inodes Name β where
  entry := Function.update (Function.update D.entry a none) b (some n)
  text := D.text
  next := D.next
  known := by
    intro name m h
    by_cases hb : name = b
    · subst hb
      rw [Function.update_self] at h
      cases h
      exact D.known ha
    · rw [Function.update_of_ne hb] at h
      by_cases hname : name = a
      · rw [hname, Function.update_self] at h
        cases h
      · rw [Function.update_of_ne hname] at h
        exact D.known h
  single := by
    have hold : ∀ {name m}, name ≠ b → Function.update (Function.update D.entry a none) b (some n)
        name = some m → name ≠ a ∧ D.entry name = some m := by
      intro name m hb h
      rw [Function.update_of_ne hb] at h
      by_cases hname : name = a
      · rw [hname, Function.update_self] at h
        cases h
      · rw [Function.update_of_ne hname] at h
        exact ⟨hname, h⟩
    intro c d m hc hd
    by_cases hcb : c = b <;> by_cases hdb : d = b
    · rw [hcb, hdb]
    · subst hcb
      rw [Function.update_self] at hc
      cases hc
      obtain ⟨hne, hd⟩ := hold hdb hd
      exact absurd (D.single hd ha) hne
    · subst hdb
      rw [Function.update_self] at hd
      cases hd
      obtain ⟨hne, hc⟩ := hold hcb hc
      exact absurd (D.single hc ha) hne
    · exact D.single (hold hcb hc).2 (hold hdb hd).2

variable {D} {name other : Name} {n m : ℕ}

/-! ### What the calls leave -/

lemma openW_some (h : D.entry name = some n) : D.openW name = (n, D.truncate n) := by
  rw [openW]
  split
  · rename_i m hm
    rw [h] at hm
    cases hm
    rfl
  · rename_i hm
    rw [h] at hm
    cases hm

lemma openW_none (h : D.entry name = none) : D.openW name = (D.next, D.create name h) := by
  rw [openW]
  split
  · rename_i m hm
    rw [h] at hm
    cases hm
  · rfl

@[simp] lemma entry_openW_self : (D.openW name).2.entry name = some (D.openW name).1 := by
  cases h : D.entry name with
  | some n =>
      rw [openW_some h]
      exact h
  | none =>
      rw [openW_none h]
      exact Function.update_self ..

lemma entry_openW_of_ne (hne : other ≠ name) :
    (D.openW name).2.entry other = D.entry other := by
  cases h : D.entry name with
  | some n => rw [openW_some h]; rfl
  | none =>
      rw [openW_none h]
      exact Function.update_of_ne hne ..

/-- The inode of a name opened once is found again. -/
lemma openW_fst (h : D.entry name = some n) : (D.openW name).1 = n := by
  rw [openW_some h]

@[simp] lemma text_openW_self : (D.openW name).2.text (D.openW name).1 = [] := by
  cases h : D.entry name with
  | some n =>
      rw [openW_some h]
      exact Function.update_self ..
  | none =>
      rw [openW_none h]
      exact Function.update_self ..

lemma text_openW_of_ne (hne : D.entry name ≠ some n) (hn : n < D.next) :
    (D.openW name).2.text n = D.text n := by
  cases h : D.entry name with
  | some m =>
      rw [openW_some h]
      refine Function.update_of_ne ?_ ..
      rintro rfl
      exact hne h
  | none =>
      rw [openW_none h]
      exact Function.update_of_ne hn.ne ..

lemma next_le_openW : D.next ≤ (D.openW name).2.next := by
  cases h : D.entry name with
  | some n => rw [openW_some h]; exact le_rfl
  | none => rw [openW_none h]; exact Nat.le_succ _

omit [DecidableEq Name] in
@[simp] lemma text_append_self (piece : List β) :
    (D.append n piece).text n = D.text n ++ piece :=
  Function.update_self ..

omit [DecidableEq Name] in
lemma text_append_of_ne {piece : List β} (hne : m ≠ n) : (D.append n piece).text m = D.text m :=
  Function.update_of_ne hne ..

lemma entry_rename_self (ha : D.entry other = some n) :
    (D.rename other name n ha).entry name = some n :=
  Function.update_self ..

lemma entry_rename_source (ha : D.entry other = some n) (hne : other ≠ name) :
    (D.rename other name n ha).entry other = none := by
  rw [rename]
  exact (Function.update_of_ne hne ..).trans (Function.update_self ..)

lemma entry_rename_of_ne {a b : Name} (ha : D.entry a = some n) (hnea : name ≠ a)
    (hneb : name ≠ b) : (D.rename a b n ha).entry name = D.entry name := by
  rw [rename]
  exact (Function.update_of_ne hneb ..).trans (Function.update_of_ne hnea ..)

/-! ### Files that are written no more -/

/-- An inode in use that none of the names refers to. -/
def Sealed (D : Inodes Name β) (written : Set Name) (n : ℕ) : Prop :=
  n < D.next ∧ ∀ name ∈ written, D.entry name ≠ some n

variable {written : Set Name}

/-- Opening one of the names leaves a sealed file sealed, and as it is. -/
lemma Sealed.openW (h : D.Sealed written n) (hname : name ∈ written) :
    (D.openW name).2.Sealed written n ∧ (D.openW name).2.text n = D.text n := by
  refine ⟨⟨lt_of_lt_of_le h.1 next_le_openW, fun other hother => ?_⟩,
    text_openW_of_ne (h.2 name hname) h.1⟩
  by_cases hne : other = name
  · subst hne
    cases hentry : D.entry other with
    | some m =>
        rw [entry_openW_self, openW_fst hentry, ← hentry]
        exact h.2 other hother
    | none =>
        rw [entry_openW_self, openW_none hentry]
        intro heq
        exact absurd (Option.some.inj heq) h.1.ne'
  · rw [entry_openW_of_ne hne]
    exact h.2 other hother

omit [DecidableEq Name] in
/-- Writing to a file of one of the names leaves a sealed file as it is. -/
lemma Sealed.append (h : D.Sealed written n) (hname : name ∈ written) (hm : D.entry name = some m)
    (piece : List β) :
    (D.append m piece).Sealed written n ∧ (D.append m piece).text n = D.text n := by
  refine ⟨h, text_append_of_ne ?_⟩
  rintro rfl
  exact h.2 name hname hm

/-- Replacing a name that is not written leaves a sealed file sealed, and as it is. -/
lemma Sealed.rename {a b : Name} (h : D.Sealed written n) (ha : D.entry a = some m)
    (hb : b ∉ written) :
    (D.rename a b m ha).Sealed written n ∧ (D.rename a b m ha).text n = D.text n := by
  refine ⟨⟨h.1, fun name hname => ?_⟩, rfl⟩
  have hnb : name ≠ b := fun heq => hb (heq ▸ hname)
  by_cases hna : name = a
  · subst hna
    rw [entry_rename_source ha hnb]
    exact Option.some_ne_none n |>.symm
  · rw [entry_rename_of_ne ha hna hnb]
    exact h.2 name hname

/-- **A file is sealed by giving it a name that is not written.** -/
lemma sealed_rename {a b : Name} (ha : D.entry a = some n) (hb : b ∉ written) :
    (D.rename a b n ha).Sealed written n := by
  refine ⟨D.known ha, fun name hname => ?_⟩
  have hnb : name ≠ b := fun heq => hb (heq ▸ hname)
  by_cases hna : name = a
  · subst hna
    rw [entry_rename_source ha hnb]
    exact Option.some_ne_none n |>.symm
  · rw [entry_rename_of_ne ha hna hnb]
    exact fun hn => hna (D.single hn ha)

end Inodes

end Foundation
