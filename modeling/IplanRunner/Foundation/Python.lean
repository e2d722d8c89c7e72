import Mathlib.Tactic.Common
import Mathlib.Data.Rat.Defs

/-!
The values a Python program reads from a JSON or YAML document, and the few operations of the
language the programs modelled here perform on them.

* `Val`: the documents, a dictionary being the list of its members in insertion order.  A float is
  known by its value and by its `str()`, a YAML timestamp by its `str()`; `nan` and the infinities
  are left out.
* `Val.truthy`, `Val.pyEq`, `Val.pyStr`, `Val.pyInt`: `bool()`, `==`, `str()` and `int()`;
  `Val.same`: equality up to the order of members.
* `Val.get`, `Val.item`, `Val.iter`: `d.get(k)`, `d[k]` and `for x in d`, with the exceptions they
  raise on a value of another shape.
* `PyRuntime`: what the standard library computes and no proof needs to look into.
-/

namespace Foundation

/-- The exceptions the modelled functions raise or let through. -/
inductive PyErr where
  | keyError (key : String)
  | typeError
  | attributeError
  | valueError (message : String)
  | permissionError (message : String)
  | other (name : String)
  deriving DecidableEq, Repr

/-- A value of a document. -/
inductive Val where
  | none
  | bool (b : Bool)
  | int (n : ℤ)
  | float (value : ℚ) (text : String)
  | str (s : String)
  | stamp (text : String)
  | list (xs : List Val)
  | dict (kvs : List (String × Val))

/-- The members of a dictionary, in insertion order. -/
abbrev Dict := List (String × Val)

instance : Inhabited Val := ⟨.none⟩

/-! ### Structural equality -/

mutual

/-- Structural equality of documents. -/
def Val.beq : Val → Val → Bool
  | .none, .none => true
  | .bool a, .bool b => a == b
  | .int a, .int b => a == b
  | .float a s, .float b t => a == b && s == t
  | .str a, .str b => a == b
  | .stamp a, .stamp b => a == b
  | .list xs, .list ys => Val.beqList xs ys
  | .dict xs, .dict ys => Val.beqDict xs ys
  | _, _ => false

/-- Structural equality of lists of documents. -/
def Val.beqList : List Val → List Val → Bool
  | [], [] => true
  | x :: xs, y :: ys => Val.beq x y && Val.beqList xs ys
  | _, _ => false

/-- Structural equality of dictionaries, order included. -/
def Val.beqDict : List (String × Val) → List (String × Val) → Bool
  | [], [] => true
  | (k, x) :: xs, (l, y) :: ys => k == l && Val.beq x y && Val.beqDict xs ys
  | _, _ => false

end

mutual

theorem Val.beq_iff : ∀ a b : Val, Val.beq a b = true ↔ a = b
  | .list xs, b => by cases b <;> simp [Val.beq, Val.beqList_iff xs]
  | .dict xs, b => by cases b <;> simp [Val.beq, Val.beqDict_iff xs]
  | .none, b => by cases b <;> simp [Val.beq]
  | .bool _, b => by cases b <;> simp [Val.beq]
  | .int _, b => by cases b <;> simp [Val.beq]
  | .float _ _, b => by cases b <;> simp [Val.beq]
  | .str _, b => by cases b <;> simp [Val.beq]
  | .stamp _, b => by cases b <;> simp [Val.beq]

theorem Val.beqList_iff : ∀ xs ys : List Val, Val.beqList xs ys = true ↔ xs = ys
  | [], ys => by cases ys <;> simp [Val.beqList]
  | x :: xs, ys => by cases ys <;> simp [Val.beqList, Val.beq_iff x, Val.beqList_iff xs]

theorem Val.beqDict_iff : ∀ xs ys : List (String × Val), Val.beqDict xs ys = true ↔ xs = ys
  | [], ys => by cases ys <;> simp [Val.beqDict]
  | (k, x) :: xs, ys => by
      cases ys <;>
        simp [Val.beqDict, Val.beq_iff x, Val.beqDict_iff xs, Prod.ext_iff, and_assoc]

end

instance : DecidableEq Val := fun a b => decidable_of_iff _ (Val.beq_iff a b)

/-! ### The runtime -/

/-- A parsed ISO-8601 timestamp in microseconds, with or without a time zone. -/
inductive IsoStamp where
  | naive (micros : ℤ)
  | aware (micros : ℤ)
  deriving DecidableEq, Repr

/-- The parts of the runtime and its libraries whose inside no proof looks into: the SHA-256 and
HMAC-SHA-256 digests in hexadecimal, the text of a list or dictionary, the RFC 8785 text of a
document, the text `json.dumps` writes with sorted keys and without blanks, and the ISO-8601
reader. -/
class PyRuntime where
  sha256 : String → String
  hmacSha256 : String → String → String
  repr : Val → String
  canonicalJson : Val → String
  jsonDumps : Val → Except PyErr String
  fromisoformat : String → Option IsoStamp

namespace Val

/-! ### `bool()`, `==`, `str()`, `int()` -/

/-- `bool(v)`. -/
def truthy : Val → Bool
  | .none => false
  | .bool b => b
  | .int n => n != 0
  | .float q _ => q != 0
  | .str s => s != ""
  | .stamp _ => true
  | .list xs => !xs.isEmpty
  | .dict kvs => !kvs.isEmpty

/-- `v or w`. -/
def orElse (v w : Val) : Val := if v.truthy then v else w

/-- The number a boolean, an integer or a float stands for in a comparison. -/
def num? : Val → Option ℚ
  | .bool b => some (if b then 1 else 0)
  | .int n => some n
  | .float q _ => some q
  | _ => Option.none

mutual

/-- `a == b`: numbers compare by value whatever their type, dictionaries whatever their order.
Every value equals itself. -/
def pyEq : Val → Val → Bool
  | .list xs, b => match b with | .list ys => pyEqList xs ys | _ => false
  | .dict xs, b =>
      match b with
      | .dict ys => beqDict xs ys || xs.length == ys.length && pyEqDict xs ys
      | _ => false
  | .none, b => match b with | .none => true | _ => false
  | .str s, b => match b with | .str t => s == t | _ => false
  | .stamp s, b => match b with | .stamp t => s == t | _ => false
  | .int m, b => match b with | .int n => m == n | b => b.num? == some (m : ℚ)
  | .bool p, b => match b with | .bool q => p == q | b => b.num? == some (if p then 1 else 0)
  | .float q _, b => b.num? == some q

/-- `==` on lists. -/
def pyEqList : List Val → List Val → Bool
  | [], [] => true
  | x :: xs, y :: ys => pyEq x y && pyEqList xs ys
  | _, _ => false

/-- Every member of the first dictionary is an equal member of the second. -/
def pyEqDict : List (String × Val) → List (String × Val) → Bool
  | [], _ => true
  | (k, x) :: xs, ys =>
      (match ys.lookup k with | some y => pyEq x y | Option.none => false) && pyEqDict xs ys

end

mutual

theorem pyEq_refl : ∀ v : Val, v.pyEq v = true
  | .list xs => by
      rw [pyEq]
      exact pyEqList_refl xs
  | .dict kvs => by simp [pyEq, (beqDict_iff kvs kvs).mpr rfl]
  | .none => by simp [pyEq]
  | .bool _ => by simp [pyEq]
  | .int _ => by simp [pyEq]
  | .float _ _ => by simp [pyEq, num?]
  | .str _ => by simp [pyEq]
  | .stamp _ => by simp [pyEq]

theorem pyEqList_refl : ∀ xs : List Val, pyEqList xs xs = true
  | [] => by simp [pyEqList]
  | x :: xs => by simp [pyEqList, pyEq_refl x, pyEqList_refl xs]

end

@[simp] lemma pyEq_str_str (s t : String) : pyEq (.str s) (.str t) = (s == t) := by
  simp [pyEq]

@[simp] lemma pyEq_int_int (m n : ℤ) : pyEq (.int m) (.int n) = (m == n) := by
  simp [pyEq]

@[simp] lemma pyEq_none_none : pyEq .none .none = true := by simp [pyEq]

lemma pyEq_str_iff (v : Val) (s : String) : pyEq v (.str s) = true ↔ v = .str s := by
  cases v <;> simp [pyEq, num?]

lemma pyEq_none_iff (v : Val) : pyEq v .none = true ↔ v = .none := by
  cases v <;> simp [pyEq, num?]

mutual

/-- Equality of documents up to the order of their members; numbers of different types differ. -/
def same : Val → Val → Bool
  | .list xs, b => match b with | .list ys => sameList xs ys | _ => false
  | .dict xs, b =>
      match b with
      | .dict ys => xs.length == ys.length && sameDict xs ys
      | _ => false
  | a, b => a == b

/-- The elements are the same, one by one. -/
def sameList : List Val → List Val → Bool
  | [], [] => true
  | x :: xs, y :: ys => same x y && sameList xs ys
  | _, _ => false

/-- Every member of the first dictionary is the same in the second. -/
def sameDict : List (String × Val) → List (String × Val) → Bool
  | [], _ => true
  | (k, x) :: xs, ys =>
      (match ys.lookup k with | some y => same x y | Option.none => false) && sameDict xs ys

end

lemma sameDict_lookup {xs ys : List (String × Val)} (h : sameDict xs ys = true) {key : String}
    {v : Val} (hv : xs.lookup key = some v) : ∃ w, ys.lookup key = some w ∧ v.same w = true := by
  induction xs with
  | nil => simp at hv
  | cons p xs ih =>
      obtain ⟨k, x⟩ := p
      rw [sameDict, Bool.and_eq_true] at h
      by_cases hk : key = k
      · subst hk
        obtain rfl : x = v := by simpa [List.lookup_cons] using hv
        cases hl : ys.lookup key with
        | none => simp [hl] at h
        | some w => exact ⟨w, rfl, by simpa [hl] using h.1⟩
      · have hne : (key == k) = false := by simpa using hk
        rw [List.lookup_cons, hne] at hv
        exact ih h.2 hv

/-- What is the same as a number is that number. -/
lemma eq_of_same_number {v w : Val} {n : ℤ} (hv : v.pyEq (.int n) = true)
    (h : v.same w = true) : w = v := by
  cases v with
  | list xs => simp [pyEq] at hv
  | dict kvs => simp [pyEq] at hv
  | _ => exact (by simpa [same] using h : _ = w).symm

/-- `str(v)`. -/
def pyStr [PyRuntime] : Val → String
  | .none => "None"
  | .bool b => if b then "True" else "False"
  | .int n => toString n
  | .float _ text => text
  | .str s => s
  | .stamp text => text
  | v => PyRuntime.repr v

@[simp] lemma pyStr_str [PyRuntime] (s : String) : pyStr (.str s) = s := rfl

/-- The value of a nonempty run of decimal digits, underscores being allowed between two digits. -/
def digits : List Char → Option ℕ → Option ℕ
  | [], acc => acc
  | '_' :: c :: cs, some n =>
      if c.isDigit then digits cs (some (10 * n + (c.toNat - '0'.toNat))) else Option.none
  | c :: cs, acc =>
      if c.isDigit then digits cs (some (10 * acc.getD 0 + (c.toNat - '0'.toNat)))
      else Option.none

/-- The integer a decimal literal denotes, surrounding blanks being ignored. -/
def intOfString (s : String) : Option ℤ :=
  let blank : Char → Bool := fun c => c.isWhitespace
  match ((s.toList.dropWhile blank).reverse.dropWhile blank).reverse with
  | '-' :: cs => (digits cs Option.none).map fun n => -(n : ℤ)
  | '+' :: cs => (digits cs Option.none).map fun n => (n : ℤ)
  | cs => (digits cs Option.none).map fun n => (n : ℤ)

/-- `int(v)`. -/
def pyInt : Val → Except PyErr ℤ
  | .bool b => .ok (if b then 1 else 0)
  | .int n => .ok n
  | .float q _ => .ok (if 0 ≤ q then q.floor else q.ceil)
  | .str s =>
      match intOfString s with
      | some n => .ok n
      | Option.none => .error (.valueError "invalid literal for int()")
  | _ => .error .typeError

/-- `int()` of a value that equals an integer is that integer. -/
lemma pyInt_of_pyEq {v : Val} {n : ℤ} (h : v.pyEq (.int n) = true) : v.pyInt = .ok n := by
  cases v with
  | bool b =>
      have hn : (n : ℚ) = if b then 1 else 0 := by simpa [pyEq, num?] using h
      have hn' : n = if b then 1 else 0 := by cases b <;> simpa using hn
      rw [pyInt, hn']
  | int m =>
      have hm : m = n := by simpa using h
      rw [pyInt, hm]
  | float q _ =>
      have hq : (n : ℚ) = q := by simpa [pyEq, num?] using h
      rw [pyInt, ← hq, Rat.floor_intCast, Rat.ceil_intCast, ite_self]
  | _ => simp [pyEq] at h

/-- Whether a value can be put in a set: lists and dictionaries cannot. -/
def hashable : Val → Bool
  | .list _ => false
  | .dict _ => false
  | _ => true

/-! ### Reading documents -/

/-- `d.get(key, default)`. -/
def get (d : Val) (key : String) (default : Val := .none) : Except PyErr Val :=
  match d with
  | .dict kvs => .ok ((kvs.lookup key).getD default)
  | _ => .error .attributeError

/-- `d[key]`. -/
def item (d : Val) (key : String) : Except PyErr Val :=
  match d with
  | .dict kvs =>
      match kvs.lookup key with
      | some v => .ok v
      | Option.none => .error (.keyError key)
  | _ => .error .typeError

/-- `for x in v`: the characters of a string, the keys of a dictionary. -/
def iter : Val → Except PyErr (List Val)
  | .list xs => .ok xs
  | .str s => .ok (s.toList.map fun c => .str (String.singleton c))
  | .dict kvs => .ok (kvs.map fun p => .str p.1)
  | _ => .error .typeError

end Val

namespace Dict

/-- `d.get(key)`. -/
def get (d : Dict) (key : String) : Val := (d.lookup key).getD .none

/-- `d[key] = v`: an existing member keeps its place. -/
def set (d : Dict) (key : String) (v : Val) : Dict :=
  if d.any (fun p => p.1 == key) then d.map fun p => if p.1 == key then (key, v) else p
  else d ++ [(key, v)]

/-- `{**d, **e}`. -/
def update (d e : Dict) : Dict := e.foldl (fun d p => Dict.set d p.1 p.2) d

/-- `d` without the member `key`. -/
def erase (d : Dict) (key : String) : Dict := d.filter fun p => p.1 != key

/-- Erasing a member leaves the others. -/
lemma lookup_erase_of_ne (d : Dict) {k key : String} (h : k ≠ key) :
    (d.erase key).lookup k = d.lookup k := by
  induction d with
  | nil => rfl
  | cons p rest ih =>
      by_cases hp : p.1 = key
      · have hne : (k == p.1) = false := by simpa [hp] using h
        have hcons : erase (p :: rest) key = erase rest key := by simp [erase, hp]
        rw [hcons, ih, List.lookup_cons, hne]
      · have hcons : erase (p :: rest) key = p :: erase rest key := by simp [erase, hp]
        rw [hcons, List.lookup_cons, List.lookup_cons, ih]

/-- Setting a member leaves no trace where the names kept do not include it. -/
lemma filter_set (d : Dict) {key : String} {keep : String → Bool} (h : keep key = false) (v : Val) :
    (set d key v).filter (fun p => keep p.1) = d.filter fun p => keep p.1 := by
  rw [set]
  split
  · have hkeep : (fun p : String × Val => keep p.1)
        ∘ (fun p => if p.1 == key then (key, v) else p) = fun p => keep p.1 := by
      funext p
      by_cases hp : p.1 = key <;> simp [hp, h]
    rw [List.filter_map, hkeep]
    refine (List.map_congr_left fun p hp => ?_).trans (List.map_id _)
    have hne : p.1 ≠ key := by
      intro heq
      have hkept := (List.mem_filter.mp hp).2
      rw [heq, h] at hkept
      cases hkept
    simp [hne]
  · simp [List.filter_append, h]

/-- The member that is set is found. -/
lemma lookup_set_self (d : Dict) (key : String) (v : Val) : (set d key v).lookup key = some v := by
  rw [set]
  split
  · rename_i hany
    induction d with
    | nil => simp at hany
    | cons p rest ih =>
        obtain ⟨k, w⟩ := p
        by_cases hk : k = key
        · simp [hk]
        · have hrest : rest.any (fun p => p.1 == key) = true := by simpa [hk] using hany
          have hne : (key == k) = false := by simpa using Ne.symm hk
          simp only [List.map_cons, beq_iff_eq, hk, if_false, List.lookup_cons, hne]
          simpa using ih hrest
  · rename_i hany
    have hnone : d.lookup key = none := by
      rw [List.lookup_eq_none_iff]
      intro p hp
      rw [List.any_eq_true, not_exists] at hany
      have hne := hany p
      simp only [hp, true_and, beq_iff_eq] at hne
      simpa using Ne.symm hne
    simp [List.lookup_append, hnone]

/-- Setting the erased member leaves no trace. -/
lemma erase_set_self (d : Dict) (key : String) (v : Val) :
    (set d key v).erase key = d.erase key :=
  @filter_set d key (· != key) (by simp) v

@[simp] lemma get_set_self (d : Dict) (key : String) (v : Val) : (set d key v).get key = v := by
  rw [get, lookup_set_self, Option.getD_some]

/-- A dictionary with a member is no empty one. -/
lemma truthy_set (d : Dict) (key : String) (v : Val) : Val.truthy (.dict (set d key v)) = true := by
  have hfound := lookup_set_self d key v
  cases hset : set d key v with
  | nil =>
      rw [hset] at hfound
      cases hfound
  | cons p rest => rfl

/-- Another member is found as before. -/
lemma lookup_set_of_ne (d : Dict) {k key : String} (h : k ≠ key) (v : Val) :
    (set d key v).lookup k = d.lookup k := by
  rw [← lookup_erase_of_ne (set d key v) h, erase_set_self, lookup_erase_of_ne d h]

lemma get_set_of_ne (d : Dict) {k key : String} (h : k ≠ key) (v : Val) :
    (set d key v).get k = d.get k := by
  rw [get, get, lookup_set_of_ne d h]

/-- `d[key]` once a member is set. -/
lemma item_set_self (d : Dict) (key : String) (v : Val) :
    (Val.dict (set d key v)).item key = .ok v := by
  rw [Val.item, lookup_set_self]

lemma item_set_of_ne (d : Dict) {k key : String} (h : k ≠ key) (v : Val) :
    (Val.dict (set d key v)).item k = (Val.dict d).item k := by
  rw [Val.item, Val.item, lookup_set_of_ne d h]

/-- The members once one is set: it, and the others. -/
lemma mem_set_iff (d : Dict) (key : String) (v : Val) (p : String × Val) :
    p ∈ set d key v ↔ p = (key, v) ∨ p ∈ d.erase key := by
  have hfound : (key, v) ∈ set d key v := by
    obtain ⟨before, after, hset, -⟩ := List.lookup_eq_some_iff.mp (lookup_set_self d key v)
    rw [hset]
    exact List.mem_append_right _ List.mem_cons_self
  have hnamed : p ∈ set d key v → p.1 = key → p = (key, v) := by
    rw [set]
    split
    · intro hp hkey
      obtain ⟨q, -, rfl⟩ := List.mem_map.mp hp
      by_cases hq : q.1 = key
      · simp [hq]
      · simp [hq] at hkey
    · rename_i hany
      intro hp hkey
      rcases List.mem_append.mp hp with hp | hp
      · exact absurd (List.any_eq_true.mpr ⟨p, hp, by simpa using hkey⟩) hany
      · exact List.mem_singleton.mp hp
  rw [← erase_set_self d key v, erase, List.mem_filter, bne_iff_ne]
  by_cases hkey : p.1 = key
  · constructor
    · exact fun hp => Or.inl (hnamed hp hkey)
    · rintro (rfl | h)
      · exact hfound
      · exact h.1
  · constructor
    · exact fun hp => Or.inr ⟨hp, hkey⟩
    · rintro (rfl | h)
      · exact hfound
      · exact h.1

/-- Setting another member and erasing can be exchanged. -/
lemma erase_set_of_ne (d : Dict) {k key : String} (h : k ≠ key) (v : Val) :
    (set d k v).erase key = set (d.erase key) k v := by
  have hany : (d.erase key).any (fun p => p.1 == k) = d.any fun p => p.1 == k := by
    rw [erase, List.any_filter]
    congr 1
    funext p
    by_cases hp : p.1 = k <;> simp [hp, h]
  rw [set, set, hany]
  split
  · have hkeep : (fun p : String × Val => p.1 != key)
        ∘ (fun p => if p.1 == k then (k, v) else p) = fun p => p.1 != key := by
      funext p
      by_cases hp : p.1 = k <;> simp [hp]
    rw [erase, List.filter_map, hkeep, erase]
  · rw [erase, List.filter_append, erase]
    simp [h]

/-- Erasing a member from an updated dictionary. -/
lemma erase_update (d e : Dict) (key : String) :
    (update d e).erase key = update (d.erase key) (e.erase key) := by
  induction e generalizing d with
  | nil => rfl
  | cons p rest ih =>
      have hstep : update d (p :: rest) = update (set d p.1 p.2) rest := rfl
      rw [hstep, ih]
      by_cases hp : p.1 = key
      · rw [← hp, erase_set_self]
        simp [erase]
      · rw [erase_set_of_ne _ hp]
        have hcons : erase (p :: rest) key = p :: erase rest key := by simp [erase, hp]
        rw [hcons]
        rfl

/-- The members of a merged dictionary are those of the two. -/
lemma mem_update {d e : Dict} {p : String × Val} (h : p ∈ Dict.update d e) : p ∈ d ∨ p ∈ e := by
  induction e generalizing d with
  | nil => exact Or.inl h
  | cons q rest ih =>
      rcases ih h with hset | hrest
      · rcases (Dict.mem_set_iff d q.1 q.2 p).mp hset with rfl | hold
        · exact Or.inr List.mem_cons_self
        · exact Or.inl (List.mem_filter.mp hold).1
      · exact Or.inr (List.mem_cons_of_mem _ hrest)

end Dict

namespace Val

lemma get_dict (d : Dict) (key : String) : (Val.dict d).get key = .ok (Dict.get d key) := rfl

/-- A member that is read as something else than `None` is there. -/
lemma item_of_get {d v : Val} {key : String} (h : d.get key = .ok v) (hv : v ≠ .none) :
    d.item key = .ok v := by
  cases d with
  | dict kvs =>
      have hget : (kvs.lookup key).getD .none = v := by simpa [Val.get] using h
      rw [Val.item]
      cases hl : kvs.lookup key with
      | none => exact absurd (by rw [← hget, hl]; rfl) hv
      | some w => rw [← hget, hl]; rfl
  | _ => simp [Val.get] at h

end Val

end Foundation
