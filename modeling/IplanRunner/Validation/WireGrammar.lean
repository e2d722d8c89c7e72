import Mathlib.Data.List.TakeWhile
import IplanRunner.Foundation.Runtime
import IplanRunner.Intake.Door
import IplanRunner.Vcs.Clone

/-!
The grammar of the wire and what the door accepts.

* `ExecutorId`, `CloneUrl`: an id of the canonical form, and a clone url with a host.
* `PayloadGrammar`: the payloads whose id and url are of given languages;
  `validatePayload_clean_iff`: those of the patterns are the ones without findings.
* `doors_agree_iff`: the door accepts the grammar of the wire, but for an id with a line feed behind
  it and a url with a query or a fragment for a host.
-/

namespace IplanRunner

open Foundation

/-! ### The two languages -/

/-- `exec:` and sixteen or more letters of the base-32 alphabet. -/
def ExecutorId (id : List Char) : Prop :=
  ∃ hash, id = "exec:".toList ++ hash ∧ 16 ≤ hash.length ∧ ∀ c ∈ hash, executorIdChar c = true

/-- What stands behind the slashes of an `https` or `ssh` url, in either case. -/
def Behind (url rest : List Char) : Prop :=
  ∃ scheme, url = scheme ++ "://".toList ++ rest
    ∧ (scheme.map Char.toLower = "https".toList ∨ scheme.map Char.toLower = "ssh".toList)

/-- The authority: the text up to the first slash, question mark or number sign. -/
def authority (rest : List Char) : List Char :=
  rest.takeWhile fun c => c ≠ '/' && c ≠ '?' && c ≠ '#'

/-- An `https` or `ssh` url with an authority. -/
def CloneUrl (url : List Char) : Prop := ∃ rest, Behind url rest ∧ authority rest ≠ []

/-- An id with a line feed behind it. -/
def FedId (id : List Char) : Prop := ∃ whole, ExecutorId whole ∧ id = whole ++ ['\n']

/-- A url with a query or a fragment where its authority would be. -/
def HostlessUrl (url : List Char) : Prop :=
  ∃ rest, Behind url rest ∧ (rest.head? = some '?' ∨ rest.head? = some '#')

/-- The pattern of the executor id matches an id, and one with a line feed behind it. -/
lemma executorIdMatches_iff {text : String} :
    executorIdMatches text = true ↔ ExecutorId text.toList ∨ FedId text.toList := by
  have hlf : executorIdChar '\n' = false := rfl
  rw [executorIdMatches]
  simp only [Bool.and_eq_true, Bool.or_eq_true, beq_iff_eq, decide_eq_true_eq]
  constructor
  · rintro ⟨⟨hexec, hlen⟩, htail⟩
    have htext : text.toList = "exec:".toList ++ ((text.toList.drop 5).takeWhile executorIdChar
        ++ (text.toList.drop 5).dropWhile executorIdChar) := by
      rw [List.takeWhile_append_dropWhile, ← hexec, List.take_append_drop]
    have hid : ExecutorId ("exec:".toList ++ (text.toList.drop 5).takeWhile executorIdChar) :=
      ⟨_, rfl, hlen, List.all_eq_true.mp List.all_takeWhile⟩
    rcases htail with hnone | hfeed
    · left
      rw [hnone, List.append_nil] at htext
      rw [htext]
      exact hid
    · right
      rw [hfeed, ← List.append_assoc] at htext
      exact ⟨_, hid, htext⟩
  · rintro (⟨hash, htext, hlen, hall⟩ | ⟨whole, ⟨hash, rfl, hlen, hall⟩, htext⟩)
    · have hdrop : text.toList.drop 5 = hash := by rw [htext]; rfl
      have htake : text.toList.take 5 = "exec:".toList := by rw [htext]; rfl
      rw [hdrop, List.takeWhile_eq_self_iff.mpr hall, List.dropWhile_eq_nil_iff.mpr hall]
      exact ⟨⟨htake, hlen⟩, .inl rfl⟩
    · rw [List.append_assoc] at htext
      have hdrop : text.toList.drop 5 = hash ++ ['\n'] := by rw [htext]; rfl
      have htake : text.toList.take 5 = "exec:".toList := by rw [htext]; rfl
      rw [hdrop, takeWhile_run hall hlf, dropWhile_run hall hlf]
      exact ⟨⟨htake, hlen⟩, .inr rfl⟩

/-- A letter whose lower-case form is one is one. -/
lemma isAlpha_of_toLower {c : Char} (h : c.toLower.isAlpha = true) : c.isAlpha = true := by
  by_cases hupper : c.isUpper = true
  · exact (Bool.or_eq_true _ _).mpr (.inl hupper)
  · have hsame : c.toLower = c := dif_neg fun hbounds => hupper (decide_eq_true hbounds)
    rwa [hsame] at h

/-- The characters of a safe scheme are letters. -/
lemma scheme_alpha {scheme : List Char}
    (h : scheme.map Char.toLower = "https".toList ∨ scheme.map Char.toLower = "ssh".toList) :
    scheme ≠ [] ∧ ∀ c ∈ scheme, c.isAlpha = true := by
  have hletters : scheme.map Char.toLower ≠ []
      ∧ ∀ c ∈ scheme.map Char.toLower, c.isAlpha = true := by
    rcases h with h | h
    · rw [h]
      exact ⟨by decide, List.all_eq_true.mp (by decide)⟩
    · rw [h]
      exact ⟨by decide, List.all_eq_true.mp (by decide)⟩
  exact ⟨fun hnil => hletters.1 (by rw [hnil, List.map_nil]),
    fun c hc => isAlpha_of_toLower (hletters.2 _ (List.mem_map_of_mem hc))⟩

lemma urlScheme_eq_some {url scheme rest : String} :
    urlScheme url = some (scheme, rest)
      ↔ url.toList = scheme.toList ++ "://".toList ++ rest.toList
        ∧ scheme.toList.head?.any Char.isAlpha = true
          ∧ ∀ c ∈ scheme.toList, schemeChar c = true := by
  rw [urlScheme]
  constructor
  · intro h
    split at h
    · rename_i hcond
      simp only [Bool.and_eq_true, beq_iff_eq, List.isPrefixOf_iff_prefix] at hcond
      obtain ⟨⟨hfirst, tail, htail⟩, hcolon⟩ := hcond
      obtain ⟨hscheme, hrest⟩ := Prod.ext_iff.mp (Option.some.inj h)
      dsimp only at hscheme hrest
      subst hscheme hrest
      simp only [String.toList_ofList]
      refine ⟨?_, hfirst, List.all_eq_true.mp List.all_takeWhile⟩
      have hsplit : url.toList.dropWhile schemeChar
          = "://".toList ++ (url.toList.dropWhile schemeChar).drop 3 := by
        cases hd : url.toList.dropWhile schemeChar with
        | nil => rw [hd] at hcolon; cases hcolon
        | cons c cs =>
            rw [hd] at hcolon htail
            obtain rfl : c = ':' := by simpa using hcolon
            rw [List.drop_succ_cons, List.drop_zero] at htail
            rw [← htail]
            rfl
      rw [List.append_assoc, ← hsplit, List.takeWhile_append_dropWhile]
    · cases h
  · rintro ⟨hurl, hfirst, hall⟩
    rw [List.append_assoc, show "://".toList = ':' :: ['/', '/'] from rfl, List.cons_append] at hurl
    rw [hurl, takeWhile_run hall rfl, dropWhile_run hall rfl, hfirst]
    simp

/-- The pattern of the url lets any first character behind the slashes pass but a slash. -/
lemma cloneUrlOk_iff {url : String} :
    cloneUrlOk [] url = true ↔ CloneUrl url.toList ∨ HostlessUrl url.toList := by
  have hlanguage : CloneUrl url.toList ∨ HostlessUrl url.toList
      ↔ ∃ rest, Behind url.toList rest ∧ rest ≠ [] ∧ rest.head? ≠ some '/' := by
    have hone : ∀ rest : List Char, (authority rest ≠ [] ∨ rest.head? = some '?'
      ∨ rest.head? = some '#')
        ↔ rest ≠ [] ∧ rest.head? ≠ some '/' := by
      intro rest
      cases rest with
      | nil => simp [authority]
      | cons c cs =>
          simp only [authority, List.takeWhile_cons, List.head?_cons, Option.some.injEq]
          by_cases h1 : c = '/' <;> by_cases h2 : c = '?' <;> by_cases h3 : c = '#' <;> simp_all
    simp only [CloneUrl, HostlessUrl, ← hone, and_or_left, exists_or]
  rw [hlanguage, cloneUrlOk]
  constructor
  · intro h
    split at h
    · cases h
    · rename_i text rest hscheme
      obtain ⟨hurl, -, -⟩ := urlScheme_eq_some.mp hscheme
      dsimp only at h
      split at h
      · cases h
      · rename_i hsafe
        rw [List.append_nil, not_not] at hsafe
        have hlist : ∀ name : String, text.toLower = name →
          text.toList.map Char.toLower = name.toList := by
          intro name hname
          rw [← hname]
          exact String.toList_map.symm
        have hmem : text.toLower = "https" ∨ text.toLower = "ssh" := by
          simpa [safeCloneSchemes] using hsafe
        have hrest : rest.toList ≠ [] ∧ rest.toList.head? ≠ some '/' := by
          simpa [hsafe] using h
        exact ⟨rest.toList, ⟨text.toList, hurl, hmem.imp (hlist _) (hlist _)⟩, hrest⟩
  · rintro ⟨rest, ⟨scheme, hurl, hscheme⟩, hne, hslash⟩
    obtain ⟨hsome, halpha⟩ := scheme_alpha hscheme
    have hread : urlScheme url = some (String.ofList scheme, String.ofList rest) := by
      refine urlScheme_eq_some.mpr ⟨by simp only [String.toList_ofList, hurl], ?_, ?_⟩
      · rw [String.toList_ofList]
        cases scheme with
        | nil => exact absurd rfl hsome
        | cons c cs => exact halpha c List.mem_cons_self
      · rw [String.toList_ofList]
        intro c hc
        simp [schemeChar, Char.isAlphanum, halpha c hc]
    have hsafe : (String.ofList scheme).toLower ∈ safeCloneSchemes := by
      have hlower : ∀ name : String, scheme.map Char.toLower = name.toList →
          (String.ofList scheme).toLower = name := by
        intro name hname
        have hmap : ((String.ofList scheme).toLower).toList
            = (String.ofList scheme).toList.map Char.toLower := String.toList_map
        rw [← String.toList_inj, hmap, String.toList_ofList, hname]
      rcases hscheme with h | h
      · rw [hlower _ h]; decide
      · rw [hlower _ h]; decide
    rw [hread]
    simp [hsafe, hne, hslash]

/-! ### The payloads -/

/-- The three fields of a repository, its url of a language. -/
structure RepositoryGrammar (urlOk : List Char → Prop) (repository : Dict) : Prop where
  texts : ∀ f ∈ repositoryFields, ∃ s, Dict.get repository f = .str s ∧ s ≠ ""
  url : ∀ s, Dict.get repository "url" = .str s → urlOk s.toList
  refs : ∀ f ∈ ["base_ref", "default_branch"], ∀ s, Dict.get repository f = .str s →
    s.toList.head? ≠ some '-'

/-- The payloads whose executor id and url are of two languages. -/
structure PayloadGrammar (idOk urlOk : List Char → Prop) (payload : Dict) : Prop where
  ids : ∀ k ∈ requiredIds, (payload.get k).truthy = true
  executor : ∃ id, payload.get "executor_id" = .str id ∧ idOk id.toList
  todos : ∃ workOrder, payload.get "work_order" = .dict workOrder
    ∧ (Dict.get workOrder "todos").truthy = true
  context : (payload.get "context_package").truthy = true
  repository : ∀ context repository, payload.get "context_package" = .dict context →
    Dict.get context "repository" = .dict repository → RepositoryGrammar urlOk repository

/-- The grammar of the wire. -/
def WireGrammar : Dict → Prop := PayloadGrammar ExecutorId CloneUrl

/-- What the two patterns match. -/
def PatternGrammar : Dict → Prop :=
  PayloadGrammar (fun id => ExecutorId id ∨ FedId id) fun url => CloneUrl url ∨ HostlessUrl url

lemma isText_iff {v : Val} : isText v = true ↔ ∃ s, v = .str s ∧ s ≠ "" := by
  cases v <;> simp [isText]

/-- The findings on a repository. -/
lemma repositoryFindings_eq_nil_iff {repository : Dict} :
    repositoryFindings [] (.dict repository) = []
      ↔ RepositoryGrammar (fun url => CloneUrl url ∨ HostlessUrl url) repository := by
  rw [repositoryFindings]
  by_cases htexts : (repositoryFields.all fun f => isText (Dict.get repository f)) = true
  · rw [htexts]
    have htext : ∀ f ∈ repositoryFields, ∃ s, Dict.get repository f = .str s ∧ s ≠ "" :=
      fun f hf => isText_iff.mp (List.all_eq_true.mp htexts f hf)
    obtain ⟨url, hurl, -⟩ := htext "url" (by decide)
    have hscheme : cloneTextOk [] (Dict.get repository "url") = true
        ↔ CloneUrl url.toList ∨ HostlessUrl url.toList := by
      rw [hurl]
      exact cloneUrlOk_iff
    have hdash : (["base_ref", "default_branch"].any fun f =>
      leadingDash (Dict.get repository f)) = true
        ↔ ¬ ∀ f ∈ ["base_ref", "default_branch"], ∀ s, Dict.get repository f = .str s →
          s.toList.head? ≠ some '-' := by
      rw [List.any_eq_true]
      push Not
      refine exists_congr fun f => and_congr_right fun hf => ?_
      obtain ⟨s, hs, -⟩ := htext f (by revert f; decide)
      rw [hs]
      simp [leadingDash]
    rw [if_neg (by simp), List.append_eq_nil_iff, ite_eq_right_iff, ite_eq_right_iff,
      Bool.not_eq_true']
    constructor
    · rintro ⟨hok, href⟩
      refine ⟨htext, fun s hs => ?_, by_contra fun hnot => ?_⟩
      · obtain rfl : url = s := Val.str.inj (hurl.symm.trans hs)
        by_contra hbad
        exact absurd (hok (Bool.eq_false_iff.mpr fun htrue => hbad (hscheme.mp htrue))) (by simp)
      · exact absurd (href (hdash.mpr hnot)) (by simp)
    · intro h
      refine ⟨fun hbad => ?_, fun hbad => absurd h.refs (hdash.mp hbad)⟩
      rw [hscheme.mpr (h.url url hurl)] at hbad
      cases hbad
  · refine iff_of_false ?_ fun h => htexts ?_
    · rw [if_pos (by simpa using htexts)]
      simp
    · exact List.all_eq_true.mpr fun f hf => isText_iff.mpr (h.texts f hf)

/-- **A payload has no finding** exactly when the two patterns match its texts. -/
theorem validatePayload_clean_iff {payload : Dict}
    (hwork : ∀ v, payload.lookup "work_order" = some v → ∃ workOrder, v = .dict workOrder) :
    validatePayload [] payload = .ok [] ↔ PatternGrammar payload := by
  have hformat : ∀ v : Val, v.truthy = true →
      ((v.truthy && !isExecutorId v) = false
        ↔ ∃ id, v = .str id ∧ (ExecutorId id.toList ∨ FedId id.toList)) := by
    intro v hv
    rw [hv, Bool.true_and, Bool.not_eq_false']
    cases v <;> simp [isExecutorId, executorIdMatches_iff]
  have hrepository : ∀ context : Dict, repositoryFindings [] (Dict.get context "repository") = []
      ↔ ∀ repository, Dict.get context "repository" = .dict repository →
        RepositoryGrammar (fun url => CloneUrl url ∨ HostlessUrl url) repository := by
    intro context
    cases hr : Dict.get context "repository" with
    | dict repository =>
        rw [repositoryFindings_eq_nil_iff]
        refine ⟨fun h repository' hr' => ?_, fun h => h repository rfl⟩
        obtain rfl := Val.dict.inj hr'
        exact h
    | _ => exact iff_of_true rfl (by simp)
  have hwork' : ∃ todos, ((payload.get "work_order").orElse (.dict [])).get "todos" = .ok todos
      ∧ (todos.truthy = true ↔ ∃ workOrder, payload.get "work_order" = .dict workOrder
        ∧ (Dict.get workOrder "todos").truthy = true) := by
    cases hl : payload.lookup "work_order" with
    | none =>
        have hnone : payload.get "work_order" = .none := by rw [Dict.get, hl, Option.getD_none]
        rw [hnone]
        exact ⟨.none, rfl, by simp [Val.truthy]⟩
    | some v =>
        obtain ⟨workOrder, rfl⟩ := hwork v hl
        have hsome : payload.get "work_order" = .dict workOrder := by
          rw [Dict.get, hl, Option.getD_some]
        have hor : (Val.dict workOrder).orElse (.dict []) = .dict workOrder := by
          cases workOrder <;> rfl
        rw [hsome, hor]
        refine ⟨Dict.get workOrder "todos", rfl, fun h => ⟨workOrder, rfl, h⟩, ?_⟩
        rintro ⟨workOrder', heq, h⟩
        rwa [Val.dict.inj heq]
  obtain ⟨todos, htodos, hsome⟩ := hwork'
  have hlist : (todos.orElse (.list [])).truthy = todos.truthy := by
    rw [Val.orElse]
    by_cases h : todos.truthy = true
    · rw [if_pos h]
    · rw [if_neg h, Bool.eq_false_iff.mpr h]
      rfl
  rw [validatePayload, htodos, ok_bind]
  simp only [hlist, pure, Except.pure, Except.ok.injEq, List.append_eq_nil_iff, ite_eq_right_iff,
    List.cons_ne_nil, imp_false, Bool.not_eq_true, Bool.not_eq_false', and_assoc]
  constructor
  · rintro ⟨hids, hexecutor, hnone, hcontext⟩
    have hall : ∀ k ∈ requiredIds, (payload.get k).truthy = true := by simpa using hids
    have hexec := (hformat _ (hall "executor_id" (by decide))).mp hexecutor
    have hctx : (payload.get "context_package").truthy = true := by
      by_contra hfalse
      rw [Bool.eq_false_iff.mpr hfalse] at hcontext
      cases hcontext
    rw [hctx] at hcontext
    refine ⟨hall, hexec, hsome.mp hnone, hctx, fun context repository hdict hr => ?_⟩
    rw [hdict] at hcontext
    exact (hrepository context).mp hcontext repository hr
  · rintro ⟨hids, hexec, hwo, hctx, hrepo⟩
    refine ⟨by simpa using hids, (hformat _ (hids "executor_id" (by decide))).mpr hexec,
      hsome.mpr hwo, ?_⟩
    rw [hctx]
    cases hdict : payload.get "context_package" with
    | dict context =>
        exact (hrepository context).mpr fun repository => hrepo context repository hdict
    | _ => rfl

/-! ### The door and the grammar -/

/-- An id of the grammar holds no line feed. -/
lemma not_executorId_of_fed {id : List Char} (h : FedId id) : ¬ ExecutorId id := by
  rintro ⟨hash, rfl, -, hall⟩
  obtain ⟨whole, -, heq⟩ := h
  have hmem : '\n' ∈ "exec:".toList ++ hash := by
    rw [heq]
    exact List.mem_append_right _ (List.mem_singleton.mpr rfl)
  rcases List.mem_append.mp hmem with hexec | hhash
  · exact absurd hexec (by decide)
  · exact absurd (hall _ hhash) (by decide)

/-- The text behind the slashes is determined by the url. -/
lemma Behind.unique {url rest rest' : List Char} (h : Behind url rest) (h' : Behind url rest') :
    rest = rest' := by
  obtain ⟨scheme, hurl, hscheme⟩ := h
  obtain ⟨scheme', hurl', hscheme'⟩ := h'
  have hcolon : ∀ {name : List Char}, (∀ c ∈ name, c.isAlpha = true) → ':' ∉ name :=
    fun hall hc => absurd (hall _ hc) (by decide)
  rw [List.append_assoc] at hurl hurl'
  obtain ⟨-, hrest⟩ :=
    split_first (hcolon (scheme_alpha hscheme).2) (hcolon (scheme_alpha hscheme').2)
    (hurl.symm.trans hurl')
  exact (List.append_right_inj ['/', '/']).mp hrest

/-- A url of the grammar has an authority. -/
lemma not_cloneUrl_of_hostless {url : List Char} (h : HostlessUrl url) : ¬ CloneUrl url := by
  rintro ⟨rest, hbehind, hauthority⟩
  obtain ⟨rest', hbehind', hfirst⟩ := h
  obtain rfl := hbehind.unique hbehind'
  refine hauthority ?_
  cases rest with
  | nil => rfl
  | cons c cs =>
      rw [authority, List.takeWhile_cons, if_neg]
      rcases hfirst with h | h <;> obtain rfl := Option.some.inj h <;> decide

lemma PayloadGrammar.mono {idOk idOk' urlOk urlOk' : List Char → Prop} {payload : Dict}
    (h : PayloadGrammar idOk urlOk payload) (hid : ∀ id, idOk id → idOk' id)
    (hurl : ∀ url, urlOk url → urlOk' url) : PayloadGrammar idOk' urlOk' payload := by
  obtain ⟨id, hread, hok⟩ := h.executor
  exact ⟨h.ids, ⟨id, hread, hid _ hok⟩, h.todos, h.context, fun context repository hc hr =>
    ⟨(h.repository context repository hc hr).texts,
      fun s hs => hurl _ ((h.repository context repository hc hr).url s hs),
      (h.repository context repository hc hr).refs⟩⟩

/-- A payload in order but for a line feed behind its executor id, or a query or a fragment for the
host of its repository. -/
def Slips (payload : Dict) : Prop :=
  PatternGrammar payload
    ∧ ((∃ id, payload.get "executor_id" = .str id ∧ FedId id.toList)
      ∨ ∃ context repository url, payload.get "context_package" = .dict context
        ∧ Dict.get context "repository" = .dict repository ∧ Dict.get repository "url" = .str url
        ∧ HostlessUrl url.toList)

lemma wireGrammar_iff {payload : Dict} :
    WireGrammar payload ↔ PatternGrammar payload ∧ ¬ Slips payload := by
  constructor
  · intro h
    refine ⟨h.mono (fun _ => .inl) fun _ => .inl, ?_⟩
    rintro ⟨-, ⟨id, hid, hfed⟩ | ⟨context, repository, url, hc, hr, hu, hhost⟩⟩
    · obtain ⟨id', hid', hok⟩ := h.executor
      obtain rfl := Val.str.inj (hid.symm.trans hid')
      exact not_executorId_of_fed hfed hok
    · exact not_cloneUrl_of_hostless hhost ((h.repository context repository hc hr).url url hu)
  · rintro ⟨h, hslip⟩
    refine ⟨h.ids, ?_, h.todos, h.context, fun context repository hc hr => ?_⟩
    · obtain ⟨id, hid, hok | hfed⟩ := h.executor
      · exact ⟨id, hid, hok⟩
      · exact absurd ⟨h, .inl ⟨id, hid, hfed⟩⟩ hslip
    · have hrepo := h.repository context repository hc hr
      refine ⟨hrepo.texts, fun url hu => ?_, hrepo.refs⟩
      rcases hrepo.url url hu with hok | hhost
      · exact hok
      · exact absurd ⟨h, .inr ⟨context, repository, url, hc, hr, hu, hhost⟩⟩ hslip

/-- The guard of `clone` has nothing against a url the door lets in. -/
lemma not_refused_of_cloneUrlOk {url : String} (h : cloneUrlOk [] url = true) :
    refusedUrl url = false := by
  obtain ⟨rest, scheme, hurl, hscheme⟩ : ∃ rest, Behind url.toList rest := by
    rcases cloneUrlOk_iff.mp h with ⟨rest, hbehind, -⟩ | ⟨rest, hbehind, -⟩
      <;> exact ⟨rest, hbehind⟩
  obtain ⟨hsome, halpha⟩ := scheme_alpha hscheme
  have hall : ∀ c ∈ scheme, schemeChar c = true := fun c hc => by
    simp [schemeChar, Char.isAlphanum, halpha c hc]
  rw [List.append_assoc, show "://".toList = ':' :: ['/', '/'] from rfl, List.cons_append] at hurl
  rw [refusedUrl, remoteHelper, hurl, takeWhile_run hall rfl, dropWhile_run hall rfl]
  cases scheme with
  | nil => exact absurd rfl hsome
  | cons c cs =>
      have hdash : c ≠ '-' := by
        rintro rfl
        exact absurd (halpha _ List.mem_cons_self) (by decide)
      simp [hdash, List.isPrefixOf]

section Runtime

variable [PyRuntime]

/-- **The door and the grammar of the wire** agree on a payload unless it slips through one of the
two patterns.  The guard of `clone` has nothing against a url the door lets in, and `git` is run on
no url with a leading dash or of the form of a remote helper. -/
theorem doors_agree_iff {payload : Dict}
    (hwork : ∀ v, payload.lookup "work_order" = some v → ∃ workOrder, v = .dict workOrder) :
    ((validatePayload [] payload = .ok [] ↔ WireGrammar payload)
      ∧ (∀ url, cloneUrlOk [] url = true → refusedUrl url = false)
      ∧ ∀ (W : Type) (run : List String → Call PyErr W String) (url ref dest : String) (w : W),
        (clone (recording run) url ref dest (w, [])).2.2 ≠ [] → ¬ UnsafeUrl url)
    ↔ ¬ Slips payload := by
  rw [validatePayload_clean_iff hwork, wireGrammar_iff]
  constructor
  · rintro ⟨hagree, -⟩ hslip
    exact (hagree.mp hslip.1).2 hslip
  · intro hslip
    exact ⟨⟨fun h => ⟨h, hslip⟩, fun h => h.1⟩, fun url => not_refused_of_cloneUrlOk,
      fun W run url ref dest w => recorded_clone⟩

end Runtime

/-- A payload with the given executor id and repository url. -/
private def wirePayload (executorId url : String) : Dict :=
  [("org_id", .str "o1"), ("project_id", .str "p1"), ("run_id", .str "R1"), ("step_id", .str "S1"),
    ("executor_id", .str executorId),
    ("work_order", .dict [("todos", .list [.dict [("todo_id", .str "x")]])]),
    ("context_package", .dict [("repository", .dict [("url", .str url),
      ("default_branch", .str "main"), ("base_ref", .str "main")])])]

/-- The payload of the receiver's tests does not slip through. -/
theorem doors_agree_plain :
    validatePayload [] (wirePayload "exec:iopsremote2zqf7kx3a" "https://example.com/r.git") = .ok []
      ↔ WireGrammar (wirePayload "exec:iopsremote2zqf7kx3a" "https://example.com/r.git") := by
  let _ := cpython
  refine ((doors_agree_iff fun v hv => ?_).mpr ?_).1
  · exact ⟨_, (Option.some.inj hv).symm⟩
  · rintro ⟨-, ⟨id, hid, whole, -, heq⟩ | ⟨context, repository, url, hc, hr, hu, hhost⟩⟩
    · obtain rfl := Val.str.inj hid
      have hlast := congrArg List.getLast? heq
      rw [List.getLast?_concat] at hlast
      exact absurd hlast (by decide)
    · obtain rfl := Val.dict.inj hc
      obtain rfl := Val.dict.inj hr
      obtain rfl := Val.str.inj hu
      exact not_cloneUrl_of_hostless hhost
        ⟨_, ⟨"https".toList, (by decide : _ = _ ++ "example.com/r.git".toList),
          .inl rfl⟩, by decide⟩

/-- An id with a line feed behind it and a url without a host are let in, and are not of the
grammar. -/
theorem doors_disagree :
    ¬ (validatePayload [] (wirePayload "exec:iopsremote2zqf7kx3a\n" "https://example.com/r.git")
      = .ok []
        ↔ WireGrammar (wirePayload "exec:iopsremote2zqf7kx3a\n" "https://example.com/r.git"))
      ∧ ¬ (validatePayload [] (wirePayload "exec:iopsremote2zqf7kx3a" "https://?x") = .ok []
        ↔ WireGrammar (wirePayload "exec:iopsremote2zqf7kx3a" "https://?x")) := by
  constructor
  · intro hagree
    have hclean : validatePayload []
        (wirePayload "exec:iopsremote2zqf7kx3a\n" "https://example.com/r.git") = .ok [] := by
      decide +kernel
    obtain ⟨id, hid, hash, heq, -, hall⟩ := (hagree.mp hclean).executor
    obtain rfl := Val.str.inj hid
    have hmem : '\n' ∈ "exec:".toList ++ hash := by
      rw [← heq]
      decide
    rcases List.mem_append.mp hmem with hexec | hhash
    · exact absurd hexec (by decide)
    · exact absurd (hall _ hhash) (by decide)
  · intro hagree
    have hclean :
        validatePayload [] (wirePayload "exec:iopsremote2zqf7kx3a" "https://?x") = .ok [] := by
      decide +kernel
    have hrepo := (hagree.mp hclean).repository _ _ rfl rfl
    exact not_cloneUrl_of_hostless
      ⟨_, ⟨"https".toList, (by decide : _ = _ ++ "?x".toList), .inl rfl⟩,
        .inl rfl⟩ (hrepo.url _ rfl)

end IplanRunner
