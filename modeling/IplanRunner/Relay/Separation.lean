import IplanRunner.Ledger.Fanout
import IplanRunner.Receiver.Script

/-!
When the events of two ledgers have keys in common.

* `start_of_hash_eq`, `hash_of_start_eq`: entries of two verified logs have the same hash exactly
  when the logs have said the same up to there.
* `SharedStart`: the logs say the same up to an entry that is projected.
* `keys_disjoint_iff`: the keys are disjoint exactly when the run ids differ as texts or the logs
  have no start in common; the id of the dispatched task is in no key.
-/

namespace IplanRunner

open Foundation

section Runtime

variable [PyRuntime]

/-! ### Entries with the same hash -/

/-- An entry of a verified log, and what it is chained to. -/
lemma verifyChainFrom_split {front rest : List Val} {e : Val} {prevHash : Option String} {index : ℕ}
    (h : verifyChainFrom prevHash index (front ++ e :: rest) = .ok true) :
    ∃ prev hash, Continued prev (index + front.length) e hash
      ∧ payload prev (index + front.length) e ∈ payloadsFrom prevHash index (front ++ e :: rest)
      ∧ (front = [] ∧ prev = prevHash ∨ ∃ before x p, front = before ++ [x]
        ∧ x.get "event_hash" = .ok (.str p) ∧ prev = some p) := by
  induction front generalizing prevHash index with
  | nil =>
      obtain ⟨hash, hcont, -⟩ := verifyChainFrom_cons h
      exact ⟨prevHash, hash, hcont, List.mem_cons_self, Or.inl ⟨rfl, rfl⟩⟩
  | cons a front ih =>
      obtain ⟨hash, hcont, hrest⟩ := verifyChainFrom_cons h
      obtain ⟨prev, hash', hcont', hmem, hprev⟩ := ih hrest
      have hindex : index + (a :: front).length = index + 1 + front.length := by
        rw [List.length_cons]
        omega
      rw [hindex]
      refine ⟨prev, hash', hcont', ?_, Or.inr ?_⟩
      · rw [List.cons_append, payloadsFrom, hcont.hash]
        exact List.mem_cons_of_mem _ hmem
      · rcases hprev with ⟨rfl, rfl⟩ | ⟨before, x, p, rfl, hx, rfl⟩
        · exact ⟨[], a, hash, rfl, hcont.hash, rfl⟩
        · exact ⟨a :: before, x, p, rfl, hx, rfl⟩

omit [PyRuntime] in
/-- The parts of what is hashed, where the hash chained to holds no separator. -/
lemma chainText_split {p q : Option String} {i j : ℕ} {u v : String}
    (hp : '|' ∉ (p.getD "").toList) (hq : '|' ∉ (q.getD "").toList)
    (h : chainText p i ++ u = chainText q j ++ v) : i = j ∧ p.getD "" = q.getD "" ∧ u = v := by
  obtain rfl := chainText_index h
  have hbar : "|".toList = ['|'] := rfl
  have hlist := congrArg String.toList h
  simp only [chainText, toString, String.toList_append, hbar, List.append_assoc, List.cons_append,
    List.nil_append] at hlist
  have htail := (List.cons.injEq _ _ _ _).mp (List.append_cancel_left hlist)
  obtain ⟨hprev, htext⟩ := split_first hp hq htail.2
  exact ⟨rfl, String.toList_inj.mp hprev, String.toList_inj.mp htext⟩

/-- The digests of what is hashed in a log hold no separator of a key or of a hashed text. -/
def ClearDigests (log : List Val) : Prop :=
  ∀ p ∈ payloads log, ∀ c ∈ (PyRuntime.sha256 p).toList, c ≠ ':' ∧ c ≠ '|'

instance (log : List Val) : Decidable (ClearDigests log) :=
  @List.decidableBAll String (fun p => ∀ c ∈ (PyRuntime.sha256 p).toList, c ≠ ':' ∧ c ≠ '|')
    (fun p => List.decidableBAll (fun c => c ≠ ':' ∧ c ≠ '|') (PyRuntime.sha256 p).toList)
    (payloads log)

/-- The hash of an entry is a digest of what is hashed in the log. -/
lemma hash_of_mem {log : List Val} (h : verifyChain log = .ok true) {e : Val} (he : e ∈ log) :
    ∃ p ∈ payloads log, e.get "event_hash" = .ok (.str ("sha256:" ++ PyRuntime.sha256 p)) := by
  obtain ⟨prev, j, hash, -, hmem, hcont⟩ := chain_mem h he
  obtain ⟨text, htext, hhash⟩ := hcont.joined
  refine ⟨_, hmem, ?_⟩
  rw [hcont.hash, hhash, payload, htext]
  rfl

lemma hash_clear {log : List Val} (h : verifyChain log = .ok true) (hclear : ClearDigests log)
    {e : Val} (he : e ∈ log) {hash : String} (hhash : e.get "event_hash" = .ok (.str hash)) :
    '|' ∉ hash.toList := by
  obtain ⟨p, hp, heq⟩ := hash_of_mem h he
  rw [hhash, Except.ok.injEq, Val.str.injEq] at heq
  rw [heq, String.toList_append, List.mem_append]
  rintro (hin | hin)
  · exact absurd hin (by decide)
  · exact (hclear p hp _ hin).2 rfl

variable {log₁ log₂ : List Val}

/-- What an entry is chained to holds no separator. -/
lemma prev_clear {log front rest : List Val} {e : Val} {prev : Option String}
    (h : verifyChain log = .ok true) (hclear : ClearDigests log) (hlog : log = front ++ e :: rest)
    (hprev : front = [] ∧ prev = none ∨ ∃ before x p, front = before ++ [x]
      ∧ x.get "event_hash" = .ok (.str p) ∧ prev = some p) : '|' ∉ (prev.getD "").toList := by
  rcases hprev with ⟨-, rfl⟩ | ⟨before, x, p, rfl, hx, rfl⟩
  · exact List.not_mem_nil
  · exact hash_clear h hclear (by rw [hlog]; simp) hx

/-- Entries with the same hash have the same text, at the same place, and are chained to the same
hash. -/
lemma chained_of_hash_eq (h₁ : verifyChain log₁ = .ok true) (h₂ : verifyChain log₂ = .ok true)
    (hsha : ∀ p ∈ payloads log₁, ∀ q ∈ payloads log₂, PyRuntime.sha256 p = PyRuntime.sha256 q →
      p = q)
    (hclear₁ : ClearDigests log₁) (hclear₂ : ClearDigests log₂)
      {front₁ rest₁ front₂ rest₂ : List Val}
    {e₁ e₂ : Val} {hash : String} (hlog₁ : log₁ = front₁ ++ e₁ :: rest₁)
    (hlog₂ : log₂ = front₂ ++ e₂ :: rest₂) (hhash₁ : e₁.get "event_hash" = .ok (.str hash))
    (hhash₂ : e₂.get "event_hash" = .ok (.str hash)) :
    joinedText e₁ = joinedText e₂ ∧ (front₁ = [] ∧ front₂ = []
      ∨ ∃ before₁ x₁ before₂ x₂ p, front₁ = before₁ ++ [x₁] ∧ front₂ = before₂ ++ [x₂]
        ∧ x₁.get "event_hash" = .ok (.str p) ∧ x₂.get "event_hash" = .ok (.str p)) := by
  have hchain₁ := h₁
  have hchain₂ := h₂
  rw [verifyChain, hlog₁] at hchain₁
  rw [verifyChain, hlog₂] at hchain₂
  obtain ⟨prev₁, hash₁, hcont₁, hmem₁, hprev₁⟩ := verifyChainFrom_split hchain₁
  obtain ⟨prev₂, hash₂, hcont₂, hmem₂, hprev₂⟩ := verifyChainFrom_split hchain₂
  obtain ⟨text₁, htext₁, hmade₁⟩ := hcont₁.joined
  obtain ⟨text₂, htext₂, hmade₂⟩ := hcont₂.joined
  have hsame : payload prev₁ (0 + front₁.length) e₁ = payload prev₂ (0 + front₂.length) e₂ := by
    refine hsha _ (by rw [payloads, hlog₁]; exact hmem₁) _ (by rw [payloads, hlog₂]; exact hmem₂) ?_
    have heq₁ := hcont₁.hash.symm.trans hhash₁
    have heq₂ := hcont₂.hash.symm.trans hhash₂
    rw [Except.ok.injEq, Val.str.injEq] at heq₁ heq₂
    have hjoin := hmade₁.symm.trans (heq₁.trans (heq₂.symm.trans hmade₂))
    rw [payload, payload, htext₁, htext₂]
    exact (String.append_right_inj _).mp hjoin
  rw [payload, payload, htext₁, htext₂] at hsame
  obtain ⟨hindex, hprev, htext⟩ := chainText_split (prev_clear h₁ hclear₁ hlog₁ hprev₁)
    (prev_clear h₂ hclear₂ hlog₂ hprev₂) hsame
  have hlength : front₁.length = front₂.length := by omega
  refine ⟨htext₁.trans ((congrArg Except.ok htext).trans htext₂.symm), ?_⟩
  rcases hprev₁ with ⟨rfl, -⟩ | ⟨before₁, x₁, p, rfl, hx₁, rfl⟩
  · exact Or.inl ⟨rfl, List.length_eq_zero_iff.mp hlength.symm⟩
  · rcases hprev₂ with ⟨rfl, -⟩ | ⟨before₂, x₂, q, rfl, hx₂, rfl⟩
    · simp at hlength
    · obtain rfl : p = q := hprev
      exact Or.inr ⟨before₁, x₁, before₂, x₂, p, rfl, rfl, hx₁, hx₂⟩

/-- **Entries with the same hash come behind the same texts.** -/
theorem start_of_hash_eq (h₁ : verifyChain log₁ = .ok true) (h₂ : verifyChain log₂ = .ok true)
    (hsha : ∀ p ∈ payloads log₁, ∀ q ∈ payloads log₂, PyRuntime.sha256 p = PyRuntime.sha256 q →
      p = q)
    (hclear₁ : ClearDigests log₁) (hclear₂ : ClearDigests log₂)
      {front₁ rest₁ front₂ rest₂ : List Val}
    {e₁ e₂ : Val} {hash : String} (hlog₁ : log₁ = front₁ ++ e₁ :: rest₁)
    (hlog₂ : log₂ = front₂ ++ e₂ :: rest₂) (hhash₁ : e₁.get "event_hash" = .ok (.str hash))
    (hhash₂ : e₂.get "event_hash" = .ok (.str hash)) :
    (front₁ ++ [e₁]).map joinedText = (front₂ ++ [e₂]).map joinedText := by
  induction front₁ using List.reverseRecOn generalizing e₁ rest₁ front₂ e₂ rest₂ hash with
  | nil =>
      obtain ⟨htext, ⟨-, rfl⟩ | ⟨before₁, x₁, -, -, -, hempty, -⟩⟩ :=
        chained_of_hash_eq h₁ h₂ hsha hclear₁ hclear₂ hlog₁ hlog₂ hhash₁ hhash₂
      · rw [List.nil_append, List.nil_append, List.map_singleton, List.map_singleton, htext]
      · simp at hempty
  | append_singleton before₁ x₁ ih =>
      obtain ⟨htext, ⟨hempty, -⟩ | ⟨before, x, before₂, x₂, p, hfront, rfl, hx₁, hx₂⟩⟩ :=
        chained_of_hash_eq h₁ h₂ hsha hclear₁ hclear₂ hlog₁ hlog₂ hhash₁ hhash₂
      · simp at hempty
      · obtain ⟨rfl, hlast⟩ := List.append_inj' hfront rfl
        cases hlast
        rw [List.append_assoc] at hlog₁ hlog₂
        have hbefore := ih hlog₁ hlog₂ hx₁ hx₂
        calc ((before₁ ++ [x₁]) ++ [e₁]).map joinedText
            = (before₁ ++ [x₁]).map joinedText ++ [joinedText e₁] := by simp
          _ = (before₂ ++ [x₂]).map joinedText ++ [joinedText e₂] := by rw [hbefore, htext]
          _ = ((before₂ ++ [x₂]) ++ [e₂]).map joinedText := by simp

/-- **Behind the same texts two chains have the same hash.** -/
theorem hash_of_start_eq {prevHash : Option String} {index : ℕ}
    {front₁ rest₁ front₂ rest₂ : List Val}
    {e₁ e₂ : Val} (h₁ : verifyChainFrom prevHash index (front₁ ++ e₁ :: rest₁) = .ok true)
    (h₂ : verifyChainFrom prevHash index (front₂ ++ e₂ :: rest₂) = .ok true)
    (htexts : (front₁ ++ [e₁]).map joinedText = (front₂ ++ [e₂]).map joinedText) :
    e₁.get "event_hash" = e₂.get "event_hash" := by
  have hone : ∀ {prev : Option String} {i : ℕ} {a b : Val} {u v : String}, Continued prev i a u →
      Continued prev i b v → joinedText a = joinedText b → u = v := by
    intro prev i a b u v ha hb hsame
    obtain ⟨text, htext, hu⟩ := ha.joined
    obtain ⟨text', htext', hv⟩ := hb.joined
    rw [htext, htext', Except.ok.injEq] at hsame
    rw [hu, hv, hsame]
  induction front₁ generalizing prevHash index front₂ with
  | nil =>
      cases front₂ with
      | nil =>
          obtain ⟨u, hu, -⟩ := verifyChainFrom_cons h₁
          obtain ⟨v, hv, -⟩ := verifyChainFrom_cons h₂
          rw [hu.hash, hv.hash, hone hu hv (by simpa using htexts)]
      | cons b front₂ => simp at htexts
  | cons a front₁ ih =>
      cases front₂ with
      | nil => simp at htexts
      | cons b front₂ =>
          rw [List.cons_append, List.cons_append, List.map_cons, List.map_cons, List.cons.injEq]
            at htexts
          obtain ⟨u, hu, hrest₁⟩ := verifyChainFrom_cons h₁
          obtain ⟨v, hv, hrest₂⟩ := verifyChainFrom_cons h₂
          obtain rfl := hone hu hv htexts.1
          exact ih hrest₁ hrest₂ htexts.2

/-! ### Keys in common -/

/-- The entry is of a kind that is projected. -/
def IsProjected (e : Val) : Prop := ∃ kind, e.get "event_type" = .ok kind ∧ mappedKind kind ≠ none

/-- The logs say the same up to an entry that is projected: the kinds, the subjects and the
times. -/
def SharedStart (log₁ log₂ : List Val) : Prop :=
  ∃ front₁ e₁ rest₁ front₂ e₂ rest₂, log₁ = front₁ ++ e₁ :: rest₁ ∧ log₂ = front₂ ++ e₂ :: rest₂
    ∧ (front₁ ++ [e₁]).map joinedText = (front₂ ++ [e₂]).map joinedText
    ∧ IsProjected e₁ ∧ IsProjected e₂

/-- A projected event comes from an entry of the log. -/
lemma built_of_mem {ledger entries : Val} {log : List Val} {payload : Dict} {key : String}
    {keyId : Val} {events : List Dict}
    (hentries : ledger.get "execution_log" (.list []) = .ok entries) (hlog : entries.iter = .ok log)
    (h : toExecutionEvents ledger payload key keyId = .ok events) {event : Dict}
    (hevent : event ∈ events) : ∃ e ∈ log, ∃ kind passed eventType, e.get "event_type" = .ok kind
      ∧ eventType ∈ emittedTypes kind passed ∧ BuiltFrom payload key keyId e eventType event := by
  rw [toExecutionEvents] at h
  obtain ⟨results, -, hcollect⟩ := except_bind_eq_ok.mp h
  rw [hentries, ok_bind, hlog, ok_bind] at hcollect
  obtain ⟨e, he, part, hpart, hin⟩ := ((collect_eq_ok hcollect).2 event).mp hevent
  obtain ⟨kind, passed, hkind, -, hbuilt⟩ := projectEntry_emits hpart
  obtain ⟨eventType, htype, hone⟩ := exists_of_forall₂ hbuilt hin
  exact ⟨e, he, kind, passed, eventType, hkind, htype, hone⟩

/-- An entry of a projected kind has an event of the type its kind is mapped to. -/
lemma built_of_projected {ledger entries : Val} {log : List Val} {payload : Dict} {key : String}
    {keyId : Val} {events : List Dict}
    (hentries : ledger.get "execution_log" (.list []) = .ok entries) (hlog : entries.iter = .ok log)
    (h : toExecutionEvents ledger payload key keyId = .ok events) {e kind : Val} (he : e ∈ log)
    (hkind : e.get "event_type" = .ok kind) {eventType status : String}
    (hmapped : mappedKind kind = some (eventType, status)) :
    ∃ event ∈ events, BuiltFrom payload key keyId e eventType event := by
  rw [toExecutionEvents] at h
  obtain ⟨results, -, hcollect⟩ := except_bind_eq_ok.mp h
  rw [hentries, ok_bind, hlog, ok_bind] at hcollect
  obtain ⟨part, hpart⟩ := (collect_eq_ok hcollect).1 e he
  obtain ⟨kind', passed, hkind', -, hbuilt⟩ := projectEntry_emits hpart
  rw [hkind, Except.ok.injEq] at hkind'
  subst hkind'
  have hfirst : ∃ others, emittedTypes kind passed = eventType :: others := by
    rw [emittedTypes_eq, hmapped, Option.elim_some]
    by_cases hcompleted : kind = .str "task_completed"
    · rw [if_pos hcompleted]
      exact ⟨_, rfl⟩
    · rw [if_neg hcompleted]
      exact ⟨_, rfl⟩
  obtain ⟨others, hfirst⟩ := hfirst
  rw [hfirst] at hbuilt
  cases hbuilt with
  | cons hone hrest =>
      exact ⟨_, ((collect_eq_ok hcollect).2 _).mpr ⟨e, he, _, hpart, List.mem_cons_self⟩, hone⟩

/-- Projected entries with the same text are of the same kind. -/
lemma kind_of_joined {e₁ e₂ kind₁ kind₂ : Val} (hkind₁ : e₁.get "event_type" = .ok kind₁)
    (hkind₂ : e₂.get "event_type" = .ok kind₂) (hmapped₁ : mappedKind kind₁ ≠ none)
    (hmapped₂ : mappedKind kind₂ ≠ none) {text : String} (htext₁ : joinedText e₁ = .ok text)
    (htext₂ : joinedText e₂ = .ok text) : kind₁ = kind₂ := by
  have hone : ∀ {e kind : Val}, e.get "event_type" = .ok kind → mappedKind kind ≠ none →
      joinedText e = .ok text → ∃ k rest, kind = .str k ∧ '|' ∉ k.toList
        ∧ text.toList = k.toList ++ '|' :: rest := by
    intro e kind hkind hmapped htext
    obtain ⟨k, rfl⟩ : ∃ k, kind = .str k := by
      cases kind with
      | str k => exact ⟨k, rfl⟩
      | _ => exact absurd rfl hmapped
    refine ⟨k, ?_⟩
    have hclear : '|' ∉ k.toList := by
      obtain ⟨p, hp⟩ := Option.ne_none_iff_exists'.mp hmapped
      have hmem : (k, p) ∈ eventMap := List.lookup_eq_some_iff.mp hp |>.elim
        fun l₁ h₂ => h₂.elim fun l₂ h₃ => h₃.1 ▸ by simp
      have hall : ∀ q ∈ eventMap, '|' ∉ q.1.toList := by decide
      exact hall _ hmem
    rw [joinedText, fieldText, Val.item_of_get hkind (by simp)] at htext
    obtain ⟨t, ht, htext⟩ := except_bind_eq_ok.mp htext
    cases ht
    obtain ⟨s, -, htext⟩ := except_bind_eq_ok.mp htext
    obtain ⟨x, -, htext⟩ := except_bind_eq_ok.mp htext
    cases htext
    have hbar : "|".toList = ['|'] := rfl
    refine ⟨s.toList ++ '|' :: x.toList, rfl, hclear, ?_⟩
    simp [toString, String.toList_append, hbar]
  obtain ⟨k₁, rest₁, rfl, hclear₁, hlist₁⟩ := hone hkind₁ hmapped₁ htext₁
  obtain ⟨k₂, rest₂, rfl, hclear₂, hlist₂⟩ := hone hkind₂ hmapped₂ htext₂
  rw [hlist₁] at hlist₂
  rw [String.toList_inj.mp (split_first hclear₁ hclear₂ hlist₂).1]

/-- The parts of a key whose hash is a digest. -/
lemma key_split {run₁ run₂ : Val} {d₁ d₂ t₁ t₂ : String} (ht₁ : ':' ∉ t₁.toList)
    (ht₂ : ':' ∉ t₂.toList) (hd₁ : ':' ∉ d₁.toList) (hd₂ : ':' ∉ d₂.toList)
    (h : idempotencyKey run₁ (.str ("sha256:" ++ d₁)) t₁
      = idempotencyKey run₂ (.str ("sha256:" ++ d₂)) t₂) : run₁.pyStr = run₂.pyStr ∧ d₁ = d₂ := by
  have hcolon : ":".toList = [':'] := rfl
  have hsha : "sha256:".toList = "sha256".toList ++ [':'] := rfl
  have hlist := congrArg String.toList h
  simp only [idempotencyKey, Val.pyStr_str, toString, String.toList_append, hcolon, hsha] at hlist
  have hshape : ∀ (run d t : List Char),
    (((run ++ [':']) ++ (("sha256".toList ++ [':']) ++ d)) ++ [':'])
      ++ t = ((run ++ ':' :: "sha256".toList) ++ ':' :: d) ++ ':' :: t := by
    intro run d t
    simp
  rw [hshape, hshape] at hlist
  obtain ⟨hfront, -⟩ := split_last ht₁ ht₂ hlist
  obtain ⟨hrun, hd⟩ := split_last hd₁ hd₂ hfront
  exact ⟨String.toList_inj.mp (List.append_cancel_right hrun), String.toList_inj.mp hd⟩

/-- **When the keys of two ledgers are disjoint**: exactly when the run ids differ as texts, or the
logs say nothing in common up to a projected entry. -/
theorem keys_disjoint_iff {ledger₁ ledger₂ entries₁ entries₂ : Val}
    (hentries₁ : ledger₁.get "execution_log" (.list []) = .ok entries₁)
    (hentries₂ : ledger₂.get "execution_log" (.list []) = .ok entries₂)
    (hlog₁ : entries₁.iter = .ok log₁) (hlog₂ : entries₂.iter = .ok log₂)
    (h₁ : verifyChain log₁ = .ok true) (h₂ : verifyChain log₂ = .ok true)
    (hsha : ∀ p ∈ payloads log₁, ∀ q ∈ payloads log₂, PyRuntime.sha256 p = PyRuntime.sha256 q →
      p = q)
    (hclear₁ : ClearDigests log₁) (hclear₂ : ClearDigests log₂) {payload₁ payload₂ : Dict}
    {key : String} {keyId : Val} {events₁ events₂ : List Dict}
    (hevents₁ : toExecutionEvents ledger₁ payload₁ key keyId = .ok events₁)
    (hevents₂ : toExecutionEvents ledger₂ payload₂ key keyId = .ok events₂) :
    List.Disjoint (events₁.map eventKey) (events₂.map eventKey)
      ↔ (payload₁.get "run_id").pyStr ≠ (payload₂.get "run_id").pyStr
        ∨ ¬ SharedStart log₁ log₂ := by
  have hkey : ∀ {payload : Dict} {e : Val} {t hash : String} {event : Dict},
      e.get "event_hash" = .ok (.str hash) → BuiltFrom payload key keyId e t event →
      eventKey event = idempotencyKey (payload.get "run_id") (.str hash) t := by
    rintro payload e t hash event hhash ⟨status, hash', occurredAt, refs, hitem, -, hbuild⟩
    rw [Val.item_of_get hhash (by simp), Except.ok.injEq] at hitem
    subst hitem
    exact eventKey_of_build hbuild
  constructor
  · intro hdisjoint
    by_contra hboth
    push Not at hboth
    obtain ⟨hrun, front₁, e₁, rest₁, front₂, e₂, rest₂, rfl, rfl, htexts, ⟨kind₁, hkind₁, hmapped₁⟩,
      ⟨kind₂, hkind₂, hmapped₂⟩⟩ := hboth
    have hhash := hash_of_start_eq h₁ h₂ htexts
    have hmem₁ : e₁ ∈ front₁ ++ e₁ :: rest₁ := by simp
    have hmem₂ : e₂ ∈ front₂ ++ e₂ :: rest₂ := by simp
    obtain ⟨p, -, hp⟩ := hash_of_mem h₁ hmem₁
    rw [List.map_append, List.map_append] at htexts
    obtain ⟨-, htext⟩ := List.append_inj' htexts rfl
    obtain ⟨prev, j, hash', -, -, hcont⟩ := chain_mem h₁ hmem₁
    obtain ⟨text, htext₁, -⟩ := hcont.joined
    have htext₂ : joinedText e₂ = .ok text := by
      rw [List.map_singleton, List.map_singleton, List.singleton_inj] at htext
      rw [← htext, htext₁]
    obtain rfl := kind_of_joined hkind₁ hkind₂ hmapped₁ hmapped₂ htext₁ htext₂
    obtain ⟨⟨eventType, status⟩, hmapped⟩ := Option.ne_none_iff_exists'.mp hmapped₁
    obtain ⟨event₁, hin₁, hbuilt₁⟩ :=
      built_of_projected hentries₁ hlog₁ hevents₁ hmem₁ hkind₁ hmapped
    obtain ⟨event₂, hin₂, hbuilt₂⟩ :=
      built_of_projected hentries₂ hlog₂ hevents₂ hmem₂ hkind₂ hmapped
    have hsame : eventKey event₁ = eventKey event₂ := by
      rw [hkey hp hbuilt₁, hkey (hhash.symm.trans hp) hbuilt₂, idempotencyKey, idempotencyKey, hrun]
    exact hdisjoint (List.mem_map_of_mem hin₁) (hsame ▸ List.mem_map_of_mem hin₂)
  · rintro hcond k hk₁ hk₂
    obtain ⟨event₁, hin₁, rfl⟩ := List.mem_map.mp hk₁
    obtain ⟨event₂, hin₂, hsame⟩ := List.mem_map.mp hk₂
    obtain ⟨e₁, hmem₁, kind₁, passed₁, t₁, hkind₁, ht₁, hbuilt₁⟩ :=
      built_of_mem hentries₁ hlog₁ hevents₁ hin₁
    obtain ⟨e₂, hmem₂, kind₂, passed₂, t₂, hkind₂, ht₂, hbuilt₂⟩ :=
      built_of_mem hentries₂ hlog₂ hevents₂ hin₂
    obtain ⟨p, hp, hhash₁⟩ := hash_of_mem h₁ hmem₁
    obtain ⟨q, hq, hhash₂⟩ := hash_of_mem h₂ hmem₂
    rw [hkey hhash₁ hbuilt₁, hkey hhash₂ hbuilt₂] at hsame
    obtain ⟨hrun, hdigest⟩ := key_split (emittedTypes_colon kind₂ passed₂ t₂ ht₂)
      (emittedTypes_colon kind₁ passed₁ t₁ ht₁) (fun hc => (hclear₂ q hq _ hc).1 rfl)
      (fun hc => (hclear₁ p hp _ hc).1 rfl) hsame
    obtain ⟨front₁, rest₁, rfl⟩ := List.append_of_mem hmem₁
    obtain ⟨front₂, rest₂, rfl⟩ := List.append_of_mem hmem₂
    rw [hdigest] at hhash₂
    have htexts := start_of_hash_eq h₁ h₂ hsha hclear₁ hclear₂ rfl rfl hhash₁ hhash₂
    have hprojected : ∀ {kind : Val} {passed : Bool} {t : String}, t ∈ emittedTypes kind passed →
        mappedKind kind ≠ none := by
      intro kind passed t ht hnone
      rw [emittedTypes_eq, hnone] at ht
      cases ht
    rcases hcond with hne | hnot
    · exact hne hrun.symm
    · exact hnot ⟨front₁, e₁, rest₁, front₂, e₂, rest₂, rfl, rfl, htexts,
        ⟨kind₁, hkind₁, hprojected ht₁⟩, ⟨kind₂, hkind₂, hprojected ht₂⟩⟩

/-- A ledger the run of a dispatched task may end with. -/
def RunOf (payload : Dict) (L : Ledger) : Prop :=
  ∃ workspace adapted manifest, adaptDispatchedTask payload workspace = .ok adapted
    ∧ ingestTaskPayloadDict adapted = .ok manifest
    ∧ ∃ (W : Type) (h : Host W) (cfg : RunConfig) (w : W) (result : RunResult),
      (run h cfg manifest.toManifest w).1 = .ok result ∧ result.ledger = L

/-- The ledger of a dispatched task whose todos all succeed. -/
def dispatchedLedger (payload : Dict) : Option Ledger :=
  (adaptDispatchedTask payload "/w").toOption.bind fun adapted =>
    (ingestTaskPayloadDict adapted).toOption.bind fun manifest =>
      if manifest.isolationScope.lookup "allowed_roots" = some (strList ["/w"]) then
        playRun (fun _ _ => false) manifest.toManifest [] [] []
      else none

/-- The events of a ledger. -/
def sentEvents (payload : Dict) (L : Ledger) : Option (List Dict) :=
  (toExecutionEvents L.toDoc payload "k" (.str "default")).toOption

end Runtime

section Example

attribute [local instance] cpython

lemma dispatchedLedger_run {payload : Dict} {L : Ledger} (h : dispatchedLedger payload = some L) :
    RunOf payload L := by
  obtain ⟨adapted, hadapted, h⟩ := Option.bind_eq_some_iff.mp h
  obtain ⟨manifest, hmanifest, h⟩ := Option.bind_eq_some_iff.mp h
  split_ifs at h with hroots
  obtain ⟨result, w', fx, hrun, hplay⟩ := playRun_run ⟨["/w"], hroots⟩ h
  rw [play, Option.some.injEq] at hplay
  refine ⟨"/w", adapted, manifest, eq_ok_of_toOption hadapted, eq_ok_of_toOption hmanifest, ?_⟩
  exact ⟨_, mockHost [] scriptNow, scriptConfig, .fresh [], result, by rw [hrun], hplay⟩

set_option maxRecDepth 4096 in
/-- One log under two run ids. -/
theorem keys_disjoint_of_runs : ∃ events₁ events₂,
    toExecutionEvents completedDoc [("run_id", .str "R1")] "k" (.str "default") = .ok events₁
      ∧ toExecutionEvents completedDoc [("run_id", .str "R2")] "k" (.str "default") = .ok events₂
      ∧ List.Disjoint (events₁.map eventKey) (events₂.map eventKey) := by
  have hentries : completedDoc.get "execution_log" (.list []) = .ok (.list
      [onlyEvent (.str "task_completed") (.str "T1") (.str "2026-06-26T00:00:00+00:00")]) := rfl
  have hmade : ((toExecutionEvents completedDoc [("run_id", .str "R1")] "k"
        (.str "default")).toOption.isSome
      && (toExecutionEvents completedDoc [("run_id", .str "R2")] "k"
        (.str "default")).toOption.isSome) = true := by decide +kernel
  rw [Bool.and_eq_true, Option.isSome_iff_exists, Option.isSome_iff_exists] at hmade
  obtain ⟨⟨events₁, h₁⟩, events₂, h₂⟩ := hmade
  refine ⟨events₁, events₂, eq_ok_of_toOption h₁, eq_ok_of_toOption h₂, ?_⟩
  exact (keys_disjoint_iff hentries hentries rfl rfl (by decide +kernel) (by decide +kernel)
    (by decide +kernel) (by decide +kernel) (by decide +kernel) (eq_ok_of_toOption h₁)
    (eq_ok_of_toOption h₂)).mpr (Or.inl (by decide))

/-- Two tasks of one run with a todo of the same name, taken up in the same second: their events
have the same keys. -/
theorem keys_not_disjoint : ¬ ∀ (payload₁ payload₂ : Dict) (L₁ L₂ : Ledger)
    (events₁ events₂ : List Dict), RunOf payload₁ L₁ → RunOf payload₂ L₂ →
    (payload₁.get "run_id", payload₁.get "task_id")
      ≠ (payload₂.get "run_id", payload₂.get "task_id") →
    toExecutionEvents L₁.toDoc payload₁ "k" (.str "default") = .ok events₁ →
    toExecutionEvents L₂.toDoc payload₂ "k" (.str "default") = .ok events₂ →
    List.Disjoint (events₁.map eventKey) (events₂.map eventKey) := by
  intro hdisjoint
  have hplayed : (dispatchedLedger (oneTodoPayload "T1")).any (fun L₁ =>
      (dispatchedLedger (oneTodoPayload "T2")).any fun L₂ =>
        (sentEvents (oneTodoPayload "T1") L₁).any fun events₁ =>
          (sentEvents (oneTodoPayload "T2") L₂).any fun events₂ =>
            events₁.head?.any fun e₁ => events₂.head?.any fun e₂ => eventKey e₁ == eventKey e₂)
      = true := by decide +kernel
  obtain ⟨L₁, hL₁, hplayed⟩ := (Option.any_eq_true _ _).mp hplayed
  obtain ⟨L₂, hL₂, hplayed⟩ := (Option.any_eq_true _ _).mp hplayed
  obtain ⟨events₁, hevents₁, hplayed⟩ := (Option.any_eq_true _ _).mp hplayed
  obtain ⟨events₂, hevents₂, hplayed⟩ := (Option.any_eq_true _ _).mp hplayed
  obtain ⟨e₁, he₁, hplayed⟩ := (Option.any_eq_true _ _).mp hplayed
  obtain ⟨e₂, he₂, hsame⟩ := (Option.any_eq_true _ _).mp hplayed
  have hk₁ := List.mem_map_of_mem (f := eventKey) (List.mem_of_head? he₁)
  have hk₂ := List.mem_map_of_mem (f := eventKey) (List.mem_of_head? he₂)
  rw [← beq_iff_eq.mp hsame] at hk₂
  exact hdisjoint _ _ _ _ _ _ (dispatchedLedger_run hL₁) (dispatchedLedger_run hL₂) (by decide)
    (eq_ok_of_toOption hevents₁) (eq_ok_of_toOption hevents₂) hk₁ hk₂

end Example

end IplanRunner
