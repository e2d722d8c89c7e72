import Mathlib.Data.Set.List
import IplanRunner.Foundation.Runtime
import IplanRunner.Intake.Payload
import IplanRunner.Security.CanonicalForm

/-!
When payloads of one canonical form have equal manifests.

* `TaskNode.Equal`, `RemoteManifest.Equal`: `==` of nodes and of manifests.
* `Copied`: the places at which a manifest holds what the payload holds.
* `manifests_agree_iff`: two payloads of one form have equal manifests exactly when they hold `None`
  at the same of these places.
-/

namespace IplanRunner

open Foundation

/-! ### Equality of manifests -/

/-- `==` of two nodes. -/
structure TaskNode.Equal (t t' : TaskNode) : Prop where
  taskId : t.taskId.pyEq t'.taskId = true
  title : t.title.pyEq t'.title = true
  dependsOn : Val.pyEqList t.dependsOn t'.dependsOn = true
  acceptance : t.acceptance.pyEq t'.acceptance = true

/-- `==` of two manifests. -/
structure RemoteManifest.Equal (m m' : RemoteManifest) : Prop where
  schemaVersion : m.schemaVersion.pyEq m'.schemaVersion = true
  sourceIplan : m.control.sourceIplan.pyEq m'.control.sourceIplan = true
  sourceIplanVersion : m.control.sourceIplanVersion.pyEq m'.control.sourceIplanVersion = true
  sourceIplanChecksum : m.control.sourceIplanChecksum.pyEq m'.control.sourceIplanChecksum = true
  approved : m.control.approved.pyEq m'.control.approved = true
  execReadyScore : m.control.execReadyScore.pyEq m'.control.execReadyScore = true
  isolationScope : (Val.dict m.isolationScope).pyEq (.dict m'.isolationScope) = true
  taskGraph : List.Forall₂ TaskNode.Equal m.taskGraph m'.taskGraph
  remoteExecution : (Val.dict m.remoteExecution).pyEq (.dict m'.remoteExecution) = true

/-! ### The sections of payloads of one form -/

/-- A section `v or {}` of two payloads of one form: below it each holds `None` where its payload
does. -/
structure Sections₂ (v v' : Val) (d d' : Dict) : Prop where
  left : distinctKeys (.dict d) = true
  right : distinctKeys (.dict d') = true
  form : SameForm (.dict d) (.dict d')
  nulls : ∀ rest ≠ [], (NullAt v rest ↔ NullAt (.dict d) rest)
  nulls' : ∀ rest ≠ [], (NullAt v' rest ↔ NullAt (.dict d') rest)

/-- Nothing is below a value that is no dictionary and no list with elements. -/
lemma not_nullAt_of_atom {v : Val} (hdict : ∀ kvs, v ≠ .dict kvs)
    (hlist : ∀ x xs, v ≠ .list (x :: xs))
    {path : List DocStep} (hne : path ≠ []) : ¬ NullAt v path := by
  intro h
  cases path with
  | nil => exact hne rfl
  | cons step rest =>
      cases step with
      | key k =>
          obtain ⟨kvs, rfl⟩ := dict_of_nullAt h
          exact hdict kvs rfl
      | index i =>
          obtain ⟨xs, rfl⟩ := list_of_nullAt h
          cases xs with
          | nil => simp [nullAt_index] at h
          | cons x xs => exact hlist x xs rfl

lemma orElse_dict (kvs : Dict) : (Val.dict kvs).orElse (.dict []) = .dict kvs := by
  cases kvs <;> rfl

/-- The sections of payloads of one form have one form. -/
lemma section_of_form {v v' : Val} {d : Dict} (hv : distinctKeys v = true)
    (hv' : distinctKeys v' = true) (h : SameForm v v') (hd : v.orElse (.dict []) = .dict d) :
    ∃ d', v'.orElse (.dict []) = .dict d' ∧ Sections₂ v v' d d' := by
  by_cases hdict : ∃ kvs, v = .dict kvs
  · obtain ⟨kvs, rfl⟩ := hdict
    obtain ⟨kvs', rfl⟩ := h.dict
    rw [orElse_dict] at hd
    obtain rfl := Val.dict.inj hd
    exact ⟨kvs', orElse_dict kvs', hv, hv', h, fun _ _ => Iff.rfl, fun _ _ => Iff.rfl⟩
  · -- any other section is empty
    have hfalsy : v.truthy = false := by
      by_contra htrue
      rw [Val.orElse, if_pos (by simpa using htrue)] at hd
      exact hdict ⟨d, hd⟩
    have hempty : v' = v := by
      cases v with
      | list xs =>
          obtain ⟨ys, rfl, hall⟩ := h.list
          cases hall with
          | nil => rfl
          | cons _ _ => cases hfalsy
      | dict kvs => exact absurd ⟨kvs, rfl⟩ hdict
      | _ => exact h.eq_of_atom (by simp) (by simp)
    rw [Val.orElse, if_neg (by simp [hfalsy])] at hd
    obtain rfl := Val.dict.inj hd
    have hnone : ∀ rest ≠ [], (NullAt v rest ↔ NullAt (.dict []) rest) := by
      intro rest hrest
      refine iff_of_false (not_nullAt_of_atom (fun kvs hk => hdict ⟨kvs, hk⟩) ?_ hrest) ?_
      · rintro x xs rfl
        cases hfalsy
      · cases rest with
        | nil => exact absurd rfl hrest
        | cons step rest => cases step <;> simp [NullAt]
    rw [hempty]
    exact ⟨[], by rw [Val.orElse, if_neg (by simp [hfalsy])], rfl, rfl, by decide, hnone, hnone⟩

/-! ### Values a manifest copies -/

/-- A value copied as it is. -/
lemma pyEq_get_iff {d d' : Dict} (hd : distinctKeys (.dict d) = true)
    (hd' : distinctKeys (.dict d') = true) (h : SameForm (.dict d) (.dict d')) (k : String) :
    (Dict.get d k).pyEq (Dict.get d' k) = true
      ↔ ∀ rest ≠ [], (NullAt (.dict d) (.key k :: rest) ↔ NullAt (.dict d') (.key k :: rest)) := by
  rw [pyEq_iff_nullsAlike (distinctKeys_get hd k) (distinctKeys_get hd' k) (h.get hd hd' k)]
  refine forall_congr' fun rest => forall_congr' fun hrest => ?_
  rw [nullAt_get hrest, nullAt_get hrest]

/-- A value copied in place of a default, which is not `None`. -/
lemma pyEq_getD_iff {d d' : Dict} (hd : distinctKeys (.dict d) = true)
    (hd' : distinctKeys (.dict d') = true) (h : SameForm (.dict d) (.dict d')) (k : String)
    {default : Val} (hdefault : default ≠ .none) :
    ((d.lookup k).getD default).pyEq ((d'.lookup k).getD default) = true
      ↔ ∀ rest, NullAt (.dict d) (.key k :: rest) ↔ NullAt (.dict d') (.key k :: rest) := by
  have hform := h.get hd hd' k
  rw [Dict.get, Dict.get] at hform
  simp only [nullAt_key]
  cases hv : d.lookup k with
  | none =>
      cases hw : d'.lookup k with
      | none => simp [Val.pyEq_refl]
      | some w =>
          rw [hv, hw, Option.getD_none, Option.getD_some, sameForm_none_iff] at hform
          subst hform
          refine iff_of_false ?_ fun hall => ?_
          · rw [Option.getD_none, Option.getD_some, Val.pyEq_none_iff]
            exact hdefault
          · simpa using hall []
  | some v =>
      cases hw : d'.lookup k with
      | none =>
          rw [hv, hw, Option.getD_none, Option.getD_some, sameForm_to_none_iff] at hform
          subst hform
          refine iff_of_false ?_ fun hall => ?_
          · rw [Option.getD_none, Option.getD_some]
            cases default <;> simp_all [Val.pyEq]
          · simpa using hall []
      | some w =>
          rw [hv, hw, Option.getD_some, Option.getD_some] at hform
          have hdv := distinctKeys_of_lookup hd hv
          have hdw := distinctKeys_of_lookup hd' hw
          simp only [Option.getD_some, Option.some.injEq, exists_eq_left']
          constructor
          · exact fun heq rest => nullAt_of_pyEq hdv hdw heq
          · exact fun hall => (pyEq_iff_nullsAlike hdv hdw hform).mpr fun rest _ => hall rest

/-- A value copied unless it is empty. -/
lemma pyEq_orElse_iff {v w : Val} (hv : distinctKeys v = true) (hw : distinctKeys w = true)
    (h : SameForm v w) :
    (v.orElse (.list [])).pyEq (w.orElse (.list [])) = true ↔ NullsAlike v w := by
  rw [← pyEq_iff_nullsAlike hv hw h]
  cases v with
  | dict kvs =>
      obtain ⟨kvs', rfl⟩ := h.dict
      cases kvs <;> cases kvs' <;>
        simp [Val.orElse, Val.truthy, Val.pyEq, Val.pyEqList, Val.pyEqDict, Val.beqDict]
  | list xs =>
      obtain ⟨ys, rfl, hall⟩ := h.list
      cases hall <;> simp [Val.orElse, Val.truthy]
  | _ =>
      rw [h.eq_of_atom (by simp) (by simp)]
      simp [Val.pyEq_refl]

/-! ### The graph -/

/-- The fields of a todo a node copies. -/
def todoFields : List String := ["todo_id", "description", "acceptance_criteria"]

/-- The node of a todo that is an object. -/
def nodeOf (t : Dict) : TaskNode where
  taskId := Dict.get t "todo_id"
  title := Dict.get t "description"
  dependsOn := []
  acceptance := .dict [("criteria", (Dict.get t "acceptance_criteria").orElse (.list []))]

lemma todoNode_dict (t : Dict) : todoNode (.dict t) = .ok (nodeOf t) := rfl

lemma TaskNode.Equal.refl (t : TaskNode) : t.Equal t :=
  ⟨Val.pyEq_refl _, Val.pyEq_refl _, Val.pyEqList_refl _, Val.pyEq_refl _⟩

/-- Two todos of one form have equal nodes when their fields hold `None` at the same places. -/
lemma nodeOf_equal_iff {t t' : Dict} (hd : distinctKeys (.dict t) = true)
    (hd' : distinctKeys (.dict t') = true) (h : SameForm (.dict t) (.dict t')) :
    (nodeOf t).Equal (nodeOf t') ↔ ∀ f ∈ todoFields, ∀ rest ≠ [],
      (NullAt (.dict t) (.key f :: rest) ↔ NullAt (.dict t') (.key f :: rest)) := by
  have hcriteria : (nodeOf t).acceptance.pyEq (nodeOf t').acceptance = true
      ↔ ∀ rest ≠ [], (NullAt (.dict t) (.key "acceptance_criteria" :: rest)
        ↔ NullAt (.dict t') (.key "acceptance_criteria" :: rest)) := by
    have hone : (nodeOf t).acceptance.pyEq (nodeOf t').acceptance = true
        ↔ NullsAlike (Dict.get t "acceptance_criteria") (Dict.get t' "acceptance_criteria") := by
      rw [← pyEq_orElse_iff (distinctKeys_get hd _) (distinctKeys_get hd' _) (h.get hd hd' _)]
      dsimp only [nodeOf]
      refine (pyEq_dict_of_keys ?_ ?_).trans ?_
      · rfl
      · simp
      · rw [List.forall₂_cons]
        simp
    rw [hone, NullsAlike]
    refine forall_congr' fun rest => forall_congr' fun hrest => ?_
    rw [nullAt_get hrest, nullAt_get hrest]
  have hid := pyEq_get_iff hd hd' h "todo_id"
  have htitle := pyEq_get_iff hd hd' h "description"
  constructor
  · rintro ⟨h1, h2, -, h4⟩
    simp only [todoFields, List.forall_mem_cons, List.not_mem_nil, false_imp_iff,
      implies_true, and_true]
    exact ⟨hid.mp h1, htitle.mp h2, hcriteria.mp h4⟩
  · intro hall
    exact ⟨hid.mpr (hall _ (by decide)), htitle.mpr (hall _ (by decide)), rfl,
      hcriteria.mpr (hall _ (by decide))⟩

/-- The graph of a list is that of its objects. -/
lemma graphOf_list {xs : List Val} {graph : List TaskNode} (h : graphOf (.list xs) = .ok graph) :
    ∃ ts : List Dict, xs = ts.map .dict ∧ graph = ts.map nodeOf := by
  have hor : (Val.list xs).orElse (.list []) = .list xs := by cases xs <;> rfl
  rw [graphOf, hor] at h
  change xs.mapM todoNode = .ok graph at h
  induction xs generalizing graph with
  | nil =>
      cases h
      exact ⟨[], rfl, rfl⟩
  | cons x xs ih =>
      rw [List.mapM_cons] at h
      obtain ⟨node, hnode, h⟩ := except_bind_eq_ok.mp h
      obtain ⟨nodes, hnodes, h⟩ := except_bind_eq_ok.mp h
      obtain ⟨ts, rfl, rfl⟩ := ih (by cases xs <;> rfl) hnodes
      obtain ⟨t, rfl⟩ : ∃ t, x = .dict t := by
        cases x with
        | dict t => exact ⟨t, rfl⟩
        | _ => cases hnode
      rw [todoNode_dict] at hnode
      cases hnode
      cases h
      exact ⟨t :: ts, rfl, rfl⟩

lemma graphOf_objects (ts : List Dict) : graphOf (.list (ts.map .dict)) = .ok (ts.map nodeOf) := by
  have hor : (Val.list (ts.map .dict)).orElse (.list []) = .list (ts.map .dict) := by
    cases ts <;> rfl
  rw [graphOf, hor]
  change (ts.map Val.dict).mapM todoNode = .ok (ts.map nodeOf)
  induction ts with
  | nil => rfl
  | cons t ts ih =>
      rw [List.map_cons, List.mapM_cons, todoNode_dict, ok_bind,
        ih (by cases ts <;> rfl)]
      rfl

/-- An object with members has no graph: its keys are no objects. -/
lemma graphOf_members {p : String × Val} {kvs : Dict} {graph : List TaskNode} :
    graphOf (.dict (p :: kvs)) ≠ .ok graph := by
  intro h
  have hread : graphOf (.dict (p :: kvs))
      = ((p :: kvs).map fun q => Val.str q.1).mapM todoNode := rfl
  rw [hread, List.map_cons, List.mapM_cons] at h
  obtain ⟨node, hnode, -⟩ := except_bind_eq_ok.mp h
  cases hnode

/-- **The graphs of todos of one form** are equal when the fields of each todo hold `None` at the
same places, and no member stands in for an absent list. -/
theorem graphs_agree_iff {v v' : Val} {graph : List TaskNode} (hv : distinctKeys v = true)
    (hv' : distinctKeys v' = true) (h : SameForm v v') (hgraph : graphOf v = .ok graph) :
    (∃ graph', graphOf v' = .ok graph' ∧ List.Forall₂ TaskNode.Equal graph graph')
      ↔ (∀ k, NullAt v [.key k] ↔ NullAt v' [.key k])
        ∧ ∀ i, ∀ f ∈ todoFields, ∀ rest ≠ [],
          (NullAt v (.index i :: .key f :: rest) ↔ NullAt v' (.index i :: .key f :: rest)) := by
  cases v with
  | list xs =>
      obtain ⟨ys, rfl, hall⟩ := h.list
      obtain ⟨ts, rfl, rfl⟩ := graphOf_list hgraph
      -- the elements on the other side are objects too
      obtain ⟨ts', rfl⟩ : ∃ ts' : List Dict, ys = ts'.map .dict := by
        have hobjects : ∀ y ∈ ys, ∃ t', Val.dict t' = y := by
          intro y hy
          obtain ⟨x, hx, hform⟩ := exists_of_forall₂ hall hy
          obtain ⟨t, -, rfl⟩ := List.mem_map.mp hx
          obtain ⟨t', rfl⟩ := hform.dict
          exact ⟨t', rfl⟩
        have hrange : ys ∈ Set.range (List.map Val.dict) := by
          rw [Set.range_list_map]
          exact hobjects
        obtain ⟨ts', hts'⟩ := hrange
        exact ⟨ts', hts'.symm⟩
      have hkey : ∀ k, NullAt (.list (ts.map .dict)) [.key k]
        ↔ NullAt (.list (ts'.map .dict)) [.key k] := by
        intro k
        simp [NullAt]
      have hgraphs : (∃ graph', graphOf (.list (ts'.map .dict)) = .ok graph'
          ∧ List.Forall₂ TaskNode.Equal (ts.map nodeOf) graph')
          ↔ List.Forall₂ TaskNode.Equal (ts.map nodeOf) (ts'.map nodeOf) := by
        rw [graphOf_objects]
        simp
      rw [hgraphs, and_iff_right hkey, List.forall₂_map_left_iff, List.forall₂_map_right_iff]
      rw [List.forall₂_map_left_iff, List.forall₂_map_right_iff, List.forall₂_iff_get] at hall
      obtain ⟨hlen, hforms⟩ := hall
      rw [distinctKeys_list_iff] at hv hv'
      have hnode : ∀ i hi hi', (nodeOf (List.get ts ⟨i, hi⟩)).Equal (nodeOf (List.get ts' ⟨i, hi'⟩))
          ↔ ∀ f ∈ todoFields, ∀ rest ≠ [],
            (NullAt (.list (ts.map .dict)) (.index i :: .key f :: rest)
            ↔ NullAt (.list (ts'.map .dict)) (.index i :: .key f :: rest)) := by
        intro i hi hi'
        rw [nodeOf_equal_iff (hv _ (List.mem_map_of_mem (List.get_mem ts ⟨i, hi⟩)))
          (hv' _ (List.mem_map_of_mem (List.get_mem ts' ⟨i, hi'⟩))) (hforms i hi hi')]
        refine forall_congr' fun f => forall_congr' fun _ => forall_congr' fun rest =>
          forall_congr' fun _ => ?_
        rw [nullAt_index, nullAt_index]
        simp [List.getElem?_eq_getElem hi, List.getElem?_eq_getElem hi']
      rw [List.forall₂_iff_get]
      constructor
      · rintro ⟨-, hequal⟩ i
        by_cases hi : i < ts.length
        · exact (hnode i hi (hlen ▸ hi)).mp (hequal i hi (hlen ▸ hi))
        · intro f _ rest _
          rw [nullAt_index, nullAt_index]
          simp [List.getElem?_eq_none (by omega : ts.length ≤ i),
            List.getElem?_eq_none (by omega : ts'.length ≤ i)]
      · exact fun hnulls => ⟨hlen, fun i hi hi' => (hnode i hi hi').mpr (hnulls i)⟩
  | dict kvs =>
      obtain ⟨kvs', rfl⟩ := h.dict
      cases kvs with
      | cons p kvs => exact absurd hgraph graphOf_members
      | nil =>
          cases hgraph
          cases kvs' with
          | nil => exact iff_of_true ⟨[], rfl, .nil⟩ ⟨fun _ => Iff.rfl, fun _ _ _ _ _ => Iff.rfl⟩
          | cons p kvs' =>
              refine iff_of_false ?_ fun hnulls => ?_
              · rintro ⟨graph', hgraph', -⟩
                exact graphOf_members hgraph'
              · obtain ⟨k, w⟩ := p
                have hform := h.get hv hv' k
                have hnone : w = .none := by simpa [Dict.get, sameForm_none_iff] using hform
                have hkey := hnulls.1 k
                rw [nullAt_key, nullAt_key] at hkey
                simp [hnone] at hkey
  | _ =>
      rw [h.eq_of_atom (by simp) (by simp), hgraph]
      refine iff_of_true ⟨graph, rfl, ?_⟩ ⟨fun _ => Iff.rfl, fun _ _ _ _ _ => Iff.rfl⟩
      exact List.forall₂_same.mpr fun t _ => TaskNode.Equal.refl t

/-! ### The manifest -/

/-- A place of a payload at which a `None` shows in the manifest. -/
inductive Copied : List DocStep → Prop
  | top {k : String} {rest : List DocStep} (hk : k ∈ remoteIds) (hrest : rest ≠ []) :
      Copied (.key k :: rest)
  | context {k : String} {rest : List DocStep} (hk : k ∈ ["repository", "forbidden_paths"]) :
      Copied (.key "context_package" :: .key k :: rest)
  | workOrderId {rest : List DocStep} (hrest : rest ≠ []) :
      Copied (.key "work_order" :: .key "work_order_id" :: rest)
  | todos {k : String} : Copied [.key "work_order", .key "todos", .key k]
  | todo {i : ℕ} {f : String} {rest : List DocStep} (hf : f ∈ todoFields) (hrest : rest ≠ []) :
      Copied (.key "work_order" :: .key "todos" :: .index i :: .key f :: rest)

/-- The parts of two manifests that are equal. -/
lemma manifestOf_equal_iff {p q workOrder workOrder' context context' : Dict}
    {graph graph' : List TaskNode} {checksum : String} :
    (manifestOf p workOrder context graph checksum).Equal
      (manifestOf q workOrder' context' graph' checksum)
      ↔ List.Forall₂ TaskNode.Equal graph graph'
        ∧ (∀ k ∈ remoteIds, (p.get k).pyEq (q.get k) = true)
        ∧ ((context.lookup "repository").getD (.str ".")).pyEq
          ((context'.lookup "repository").getD (.str ".")) = true
        ∧ ((context.lookup "forbidden_paths").getD (.list [])).pyEq
          ((context'.lookup "forbidden_paths").getD (.list [])) = true
        ∧ (Dict.get workOrder "work_order_id").pyEq (Dict.get workOrder' "work_order_id")
          = true := by
  have hscope : (Val.dict (manifestOf p workOrder context graph checksum).isolationScope).pyEq
        (.dict (manifestOf q workOrder' context' graph' checksum).isolationScope) = true
      ↔ (p.get "org_id").pyEq (q.get "org_id") = true
        ∧ (p.get "project_id").pyEq (q.get "project_id") = true
        ∧ ((context.lookup "repository").getD (.str ".")).pyEq
          ((context'.lookup "repository").getD (.str ".")) = true
        ∧ ((context.lookup "forbidden_paths").getD (.list [])).pyEq
          ((context'.lookup "forbidden_paths").getD (.list [])) = true := by
    refine (pyEq_dict_of_keys ?_ ?_).trans ?_
    · rfl
    · simp [manifestOf]
    · simp [manifestOf, Val.pyEq, Val.pyEqList]
  have hremote : (Val.dict (manifestOf p workOrder context graph checksum).remoteExecution).pyEq
        (.dict (manifestOf q workOrder' context' graph' checksum).remoteExecution) = true
      ↔ (∀ k ∈ remoteIds, (p.get k).pyEq (q.get k) = true)
        ∧ (Dict.get workOrder "work_order_id").pyEq (Dict.get workOrder' "work_order_id")
          = true := by
    refine (pyEq_dict_of_keys ?_ ?_).trans ?_
    · rfl
    · simp [manifestOf, remoteIds]
    · simp [manifestOf, remoteIds, and_assoc]
  constructor
  · intro h
    obtain ⟨-, -, hrepository, hforbidden⟩ := hscope.mp h.isolationScope
    obtain ⟨hids, hid⟩ := hremote.mp h.remoteExecution
    exact ⟨h.taskGraph, hids, hrepository, hforbidden, hid⟩
  · rintro ⟨hgraph, hids, hrepository, hforbidden, hid⟩
    exact ⟨Val.pyEq_refl _, hids "iplan_id" (by decide), hids "plan_version_id" (by decide),
      Val.pyEq_refl _, Val.pyEq_refl _, Val.pyEq_refl _, hscope.mpr ⟨hids "org_id" (by decide),
        hids "project_id" (by decide), hrepository, hforbidden⟩, hgraph, hremote.mpr ⟨hids, hid⟩⟩

/-- The places at which a `None` shows, section by section. -/
lemma copied_iff {P : List DocStep → Prop} : (∀ path, Copied path → P path)
    ↔ (∀ k ∈ remoteIds, ∀ rest ≠ [], P (.key k :: rest))
      ∧ (∀ rest, P (.key "context_package" :: .key "repository" :: rest))
      ∧ (∀ rest, P (.key "context_package" :: .key "forbidden_paths" :: rest))
      ∧ (∀ rest ≠ [], P (.key "work_order" :: .key "work_order_id" :: rest))
      ∧ (∀ k, P [.key "work_order", .key "todos", .key k])
      ∧ ∀ i, ∀ f ∈ todoFields, ∀ rest ≠ [],
        P (.key "work_order" :: .key "todos" :: .index i :: .key f :: rest) := by
  constructor
  · intro h
    exact ⟨fun k hk rest hrest => h _ (.top hk hrest), fun rest => h _ (.context (by simp)),
      fun rest => h _ (.context (by simp)), fun rest hrest => h _ (.workOrderId hrest),
      fun k => h _ .todos, fun i f hf rest hrest => h _ (.todo hf hrest)⟩
  · rintro ⟨htop, hrepository, hforbidden, hid, htodos, htodo⟩ path hpath
    cases hpath with
    | top hk hrest => exact htop _ hk _ hrest
    | context hk =>
        rcases List.mem_pair.mp hk with rfl | rfl
        · exact hrepository _
        · exact hforbidden _
    | workOrderId hrest => exact hid _ hrest
    | todos => exact htodos _
    | todo hf hrest => exact htodo _ _ hf _ hrest

/-- **Payloads of one form** whose manifest is built with one checksum. -/
theorem buildManifest_agree_iff {p q : Dict} {checksum : String} {m : RemoteManifest}
    (hp : distinctKeys (.dict p) = true) (hq : distinctKeys (.dict q) = true)
    (h : SameForm (.dict p) (.dict q)) (hm : buildManifest p checksum = .ok m) :
    (∃ m', buildManifest q checksum = .ok m' ∧ m.Equal m')
      ↔ ∀ path, Copied path → (NullAt (.dict p) path ↔ NullAt (.dict q) path) := by
  obtain ⟨workOrder, context, graph, hworkOrder, hcontext, hgraph, rfl⟩ :=
    buildManifest_eq_ok_iff.mp hm
  obtain ⟨workOrder', hworkOrder', sw⟩ :=
    section_of_form (distinctKeys_get hp _) (distinctKeys_get hq _)
    (h.get hp hq _) hworkOrder
  obtain ⟨context', hcontext', sc⟩ :=
    section_of_form (distinctKeys_get hp _) (distinctKeys_get hq _)
    (h.get hp hq _) hcontext
  -- what is below a section of the payload is below the dictionary it is read as
  have hwork : ∀ rest ≠ [], ((NullAt (.dict p) (.key "work_order" :: rest)
        ↔ NullAt (.dict q) (.key "work_order" :: rest))
      ↔ (NullAt (.dict workOrder) rest ↔ NullAt (.dict workOrder') rest)) := by
    intro rest hrest
    rw [nullAt_get hrest, nullAt_get hrest, sw.nulls rest hrest, sw.nulls' rest hrest]
  have hcon : ∀ rest ≠ [], ((NullAt (.dict p) (.key "context_package" :: rest)
        ↔ NullAt (.dict q) (.key "context_package" :: rest))
      ↔ (NullAt (.dict context) rest ↔ NullAt (.dict context') rest)) := by
    intro rest hrest
    rw [nullAt_get hrest, nullAt_get hrest, sc.nulls rest hrest, sc.nulls' rest hrest]
  have hbuilt : (∃ m', buildManifest q checksum = .ok m'
        ∧ (manifestOf p workOrder context graph checksum).Equal m')
      ↔ ∃ graph', graphOf (Dict.get workOrder' "todos") = .ok graph'
        ∧ (manifestOf p workOrder context graph checksum).Equal
          (manifestOf q workOrder' context' graph' checksum) := by
    constructor
    · rintro ⟨m', hm', hequal⟩
      obtain ⟨w, c, graph', hw, hc, hgraph', rfl⟩ := buildManifest_eq_ok_iff.mp hm'
      obtain rfl := Val.dict.inj (hworkOrder'.symm.trans hw)
      obtain rfl := Val.dict.inj (hcontext'.symm.trans hc)
      exact ⟨graph', hgraph', hequal⟩
    · rintro ⟨graph', hgraph', hequal⟩
      exact ⟨_, buildManifest_eq_ok_iff.mpr ⟨_, _, _, hworkOrder', hcontext', hgraph', rfl⟩, hequal⟩
  have hids : (∀ k ∈ remoteIds, (p.get k).pyEq (q.get k) = true) ↔ ∀ k ∈ remoteIds, ∀ rest ≠ [],
      (NullAt (.dict p) (.key k :: rest) ↔ NullAt (.dict q) (.key k :: rest)) :=
    forall_congr' fun k => forall_congr' fun _ => pyEq_get_iff hp hq h k
  have hgraphs :=
    graphs_agree_iff (distinctKeys_get sw.left "todos") (distinctKeys_get sw.right "todos")
    (sw.form.get sw.left sw.right "todos") hgraph
  have htodos : ∀ rest ≠ [], ((NullAt (.dict p) (.key "work_order" :: .key "todos" :: rest)
        ↔ NullAt (.dict q) (.key "work_order" :: .key "todos" :: rest))
      ↔ (NullAt (Dict.get workOrder "todos") rest
        ↔ NullAt (Dict.get workOrder' "todos") rest)) := by
    intro rest hrest
    rw [hwork _ (by simp), nullAt_get hrest, nullAt_get hrest]
  rw [hbuilt, copied_iff]
  simp only [manifestOf_equal_iff]
  rw [hids, pyEq_getD_iff sc.left sc.right sc.form "repository" (by simp),
    pyEq_getD_iff sc.left sc.right sc.form "forbidden_paths" (by simp),
    pyEq_get_iff sw.left sw.right sw.form "work_order_id"]
  simp only [hcon _ (List.cons_ne_nil _ _), htodos _ (List.cons_ne_nil _ _),
    hwork _ (List.cons_ne_nil _ _)]
  constructor
  · rintro ⟨graph', hgraph', hequal, htop, hrepository, hforbidden, hid⟩
    obtain ⟨hkeys, hfields⟩ := hgraphs.mp ⟨graph', hgraph', hequal⟩
    exact ⟨htop, hrepository, hforbidden, hid, hkeys, hfields⟩
  · rintro ⟨htop, hrepository, hforbidden, hid, hkeys, hfields⟩
    obtain ⟨graph', hgraph', hequal⟩ := hgraphs.mpr ⟨hkeys, hfields⟩
    exact ⟨graph', hgraph', hequal, htop, hrepository, hforbidden, hid⟩

section Runtime

variable [PyRuntime]

/-- **Equal checksum, equal manifest?**  Of two payloads with the same canonical form, one of which
has a manifest, the other has an equal one exactly when the two hold `None` at the same of the
places at which it shows. -/
theorem manifests_agree_iff {p q : Dict} {m : RemoteManifest} (hp : distinctKeys (.dict p) = true)
    (hq : distinctKeys (.dict q) = true) (h : SameForm (.dict p) (.dict q))
    (htext : canonicalize (.dict p) = canonicalize (.dict q))
    (hm : ingestTaskPayloadDict p = .ok m) :
    (∃ m', ingestTaskPayloadDict q = .ok m' ∧ m.Equal m')
      ↔ ∀ path, Copied path → (NullAt (.dict p) path ↔ NullAt (.dict q) path) := by
  obtain ⟨hash, hhash, hm⟩ := except_bind_eq_ok.mp hm
  have hhash' : canonicalHash (.dict q) = .ok hash := by
    rw [← hhash, canonicalHash, canonicalHash, htext]
  have hingest : ingestTaskPayloadDict q = buildManifest q ("sha256:" ++ hash) := by
    rw [ingestTaskPayloadDict, hhash']
    rfl
  rw [hingest]
  exact buildManifest_agree_iff hp hq h hm

end Runtime

section Example

attribute [local instance] cpython

/-- A payload with the given context and work order. -/
private def payloadOf (context workOrder : Dict) : Dict :=
  [("org_id", .str "o1"), ("project_id", .str "p1"), ("iplan_id", .str "IPLAN-1"),
    ("plan_version_id", .str "1.0.0"), ("context_package", .dict context),
    ("work_order", .dict workOrder)]

/-- A member of the work order that nothing reads may be `None`. -/
theorem manifests_agree_note :
    ∃ m, ingestTaskPayloadDict (payloadOf [("repository", .str ".")] [("todos", .list [])]) = .ok m
      ∧ ((∃ m', ingestTaskPayloadDict (payloadOf [("repository", .str ".")]
            [("note", .none), ("todos", .list [])]) = .ok m' ∧ m.Equal m')
        ↔ ∀ path, Copied path →
          (NullAt (.dict (payloadOf [("repository", .str ".")] [("todos", .list [])])) path
            ↔ NullAt (.dict (payloadOf [("repository", .str ".")]
              [("note", .none), ("todos", .list [])])) path)) := by
  refine ⟨_, rfl, manifests_agree_iff (by decide +kernel) (by decide +kernel) (by decide +kernel) ?_
    rfl⟩
  rw [canonicalize, canonicalize]
  rfl

/-- Forbidden paths that are `None` show in the manifest, where none at all read as an empty
list. -/
theorem manifests_differ :
    ∃ m m', SameForm (.dict (payloadOf [("repository", .str ".")] [("todos", .list [])]))
        (.dict (payloadOf [("repository", .str "."), ("forbidden_paths", .none)]
          [("todos", .list [])]))
      ∧ ingestTaskPayloadDict (payloadOf [("repository", .str ".")] [("todos", .list [])]) = .ok m
      ∧ ingestTaskPayloadDict (payloadOf [("repository", .str "."), ("forbidden_paths", .none)]
        [("todos", .list [])]) = .ok m'
      ∧ m.control.sourceIplanChecksum = m'.control.sourceIplanChecksum ∧ ¬ m.Equal m' := by
  refine ⟨_, _, by decide +kernel, rfl, rfl, rfl, fun h => ?_⟩
  have hscope := h.isolationScope
  revert hscope
  decide +kernel

end Example

end IplanRunner
