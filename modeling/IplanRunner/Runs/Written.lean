import IplanRunner.Runs.Grammar

/-!
What a run leaves of its tasks, read off the blocks it has written.

* `TaskBlock.mem_events`: the events of a block, and the paths they name.
* `Writes.entry_cases`, `Writes.task?_of_mem`: every entry is as the run found it, or as the block
  of its task left it.
* `RunWrites.entry_of_block`, `RunWrites.block_of_entry`: the two directions for a whole run.
-/

namespace IplanRunner

open Foundation

section Runtime

variable [PyRuntime]

/-! ### Events -/

/-- The paths of an event, as the gate reads them. -/
def Event.paths (e : Event) : List String :=
  match e.touchedPaths.iter with
  | .ok paths => paths.map Val.pyStr
  | .error _ => []

section LoopEvent

variable {scope : Dict} {e : Event} {kind : EventKind} {taskId atTime : String}
  {paths : List String}

lemma paths_loopEvent (he : e.toEventBody = loopEvent scope kind taskId atTime paths) :
    e.paths = paths := by
  have htouched : e.touchedPaths = strList paths := congrArg EventBody.touchedPaths he
  rw [Event.paths, htouched]
  show (paths.map Val.str).map Val.pyStr = paths
  simp [Function.comp_def, Val.pyStr]

omit [PyRuntime] in
/-- The events of a block are the loop's; only the block of a started task names paths, and one that
completes its task in `file_edited` events only. -/
lemma TaskBlock.mem_events {block : TaskBlock} {body : EventBody}
    (h : body ∈ block.events scope taskId) :
    ∃ kind atTime paths, body = loopEvent scope kind taskId atTime paths
      ∧ (block.started = false → paths = [])
      ∧ (block.completes = true → kind = .fileEdited ∨ paths = []) := by
  cases block with
  | unmet _ =>
      obtain rfl := List.mem_singleton.mp h
      exact ⟨_, _, _, rfl, fun _ => rfl, by rintro ⟨⟩⟩
  | succeeded _ edits _ _ =>
      simp only [TaskBlock.events, List.mem_cons, List.mem_append, List.mem_map,
        List.not_mem_nil, or_false] at h
      rcases h with (rfl | ⟨edit, -, rfl⟩) | rfl
      · exact ⟨_, _, _, rfl, by rintro ⟨⟩, fun _ => Or.inr rfl⟩
      · exact ⟨_, _, _, rfl, by rintro ⟨⟩, fun _ => Or.inl rfl⟩
      · exact ⟨_, _, _, rfl, by rintro ⟨⟩, fun _ => Or.inr rfl⟩
  | failed _ paths _ _ _ =>
      simp only [TaskBlock.events, List.mem_cons, List.mem_append, List.not_mem_nil, or_false] at h
      rcases h with (rfl | h) | rfl
      · exact ⟨_, _, _, rfl, by rintro ⟨⟩, by rintro ⟨⟩⟩
      · split at h
        · cases h
        · obtain rfl := List.mem_singleton.mp h
          exact ⟨_, _, _, rfl, by rintro ⟨⟩, by rintro ⟨⟩⟩
      · exact ⟨_, _, _, rfl, by rintro ⟨⟩, by rintro ⟨⟩⟩

end LoopEvent

/-! ### Entries -/

omit [PyRuntime] in
lemma TaskBlock.entry_taskId (block : TaskBlock) (e : TaskEntry) :
    (block.entry e).taskId = e.taskId := by
  cases block with
  | succeeded _ _ evidence _ => exact evidenceChange_taskId _ e
  | _ => rfl

omit [PyRuntime] in
/-- A block settles the entry of its task. -/
lemma TaskBlock.entry_settles (block : TaskBlock) (e : TaskEntry) :
    (block.entry e).status = .completed ∨ (block.entry e).status = .blocked := by
  cases block with
  | unmet _ => exact Or.inr rfl
  | succeeded _ _ _ _ => exact Or.inl rfl
  | failed _ _ _ _ _ => exact Or.inr rfl

omit [PyRuntime] in
lemma TaskBlock.entry_completed (block : TaskBlock) (e : TaskEntry) :
    (block.entry e).status = .completed ↔ block.completes = true := by
  cases block <;> simp [TaskBlock.entry, TaskBlock.completes, blockEntry, completeEntry]

section Writes

variable {scope : Dict} {L L' : Ledger} {blocks : List (String × TaskBlock)}

omit [PyRuntime] in
private lemma named_entry (b c : String × TaskBlock) (e : TaskEntry) :
    (b.2.entry e).named c.1 = e.named c.1 := by
  rw [TaskEntry.named, TaskEntry.named, TaskBlock.entry_taskId]

omit [PyRuntime] in
private lemma named_disjoint (hnodup : (blocks.map Prod.fst).Nodup) :
    blocks.Pairwise fun b c => ∀ e : TaskEntry, e.named b.1 = true → e.named c.1 = false := by
  rw [List.Nodup, List.pairwise_map] at hnodup
  refine hnodup.imp fun {b c} hne e he => ?_
  have hid : e.taskId = .str b.1 := by simpa [TaskEntry.named] using he
  simp [TaskEntry.named, hid, hne]

omit [PyRuntime] in
/-- Every entry is as it was, or as the block of its task left it. -/
lemma Writes.entry_cases (h : Writes scope L L' blocks) (hnodup : (blocks.map Prod.fst).Nodup)
    {e : TaskEntry} (he : e ∈ L'.taskLedger) :
    e ∈ L.taskLedger ∨ ∃ b ∈ blocks, ∃ x ∈ L.taskLedger, e = b.2.entry x := by
  rw [h.tasks] at he
  rcases mem_foldl_updateFirst named_entry (named_disjoint hnodup) he with h1 | ⟨b, hb, x, hx, -,
    rfl⟩
  · exact Or.inl h1
  · exact Or.inr ⟨b, hb, x, hx, rfl⟩

omit [PyRuntime] in
/-- Blocks rename no entry. -/
lemma Writes.taskIds (h : Writes scope L L' blocks) :
    L'.taskLedger.map (·.taskId) = L.taskLedger.map (·.taskId) := by
  rw [h.tasks]
  clear h
  generalize L.taskLedger = entries
  induction blocks generalizing entries with
  | nil => rfl
  | cons b blocks ih =>
      rw [List.foldl_cons, ih]
      exact map_updateFirst _ _ _ b.2.entry_taskId _

omit [PyRuntime] in
/-- The entry of a task after its block. -/
lemma Writes.task?_of_mem (h : Writes scope L L' blocks) (hnodup : (blocks.map Prod.fst).Nodup)
    {b : String × TaskBlock} (hb : b ∈ blocks) :
    L'.task? b.1 = (L.task? b.1).map b.2.entry := by
  rw [Ledger.task?, h.tasks]
  exact find?_foldl_updateFirst named_entry (named_disjoint hnodup) hb _

omit [PyRuntime] in
/-- The entry of a task without a block. -/
lemma Writes.task?_of_not_mem (h : Writes scope L L' blocks) {t : String}
    (ht : t ∉ blocks.map Prod.fst) : L'.task? t = L.task? t := by
  rw [Ledger.task?, h.tasks]
  refine find?_foldl_updateFirst_of_disjoint
    (fun b e => named_entry b (t, b.2) e) (fun b hb e he => ?_) _
  have hid : e.taskId = .str b.1 := by simpa [TaskEntry.named] using he
  have hne : b.1 ≠ t := fun heq => ht (heq ▸ List.mem_map_of_mem hb)
  simp [TaskEntry.named, hid, hne]

end Writes

/-! ### Runs -/

omit [PyRuntime] in
lemma scopeOk_of_accepted {m : Manifest} (h : m.Accepted) :
    scopeOk (.dict m.isolationScope) = .ok true := by
  obtain ⟨⟨h1, h2, h3⟩, -⟩ := accepted_fields h
  rw [scopeOk, allPresent, Val.get_dict, ok_bind, h1, Val.get_dict, ok_bind, h2, Val.get_dict,
    ok_bind, h3]
  rfl

omit [PyRuntime] in
/-- Where ids are distinct, every entry is the one `task` finds. -/
lemma task?_of_distinct {L : Ledger} (hd : (L.taskLedger.map (·.taskId)).Nodup) {e : TaskEntry}
    (he : e ∈ L.taskLedger) {t : String} (ht : e.taskId = .str t) : L.task? t = some e := by
  have hnamed : e.named t = true := by simp [TaskEntry.named, ht]
  have hsome : (L.taskLedger.find? (·.named t)).isSome := List.find?_isSome.mpr ⟨e, he, hnamed⟩
  obtain ⟨x, hx⟩ := Option.isSome_iff_exists.mp hsome
  have hid : x.taskId = .str t := by simpa [TaskEntry.named] using List.find?_some hx
  have hsame := List.inj_on_of_nodup_map hd (List.mem_of_find?_eq_some hx) he (by rw [hid, ht])
  rw [Ledger.task?, hx, hsame]

/-- What a run that returns has gated. -/
lemma run_gated {W : Type} {h : Host W} {cfg : RunConfig} {m : Manifest} {w w' : W}
    {res : RunResult} {fx : List Effect}
    (hrun : run h cfg m w = (.ok res, w', fx)) :
    runGate res.ledger.toDoc cfg.gate = .ok res.gateResult := by
  rw [run] at hrun
  cases hstart : startLedger m with
  | error e => rw [hstart] at hrun; cases hrun
  | ok L =>
      rw [hstart] at hrun
      have hdrive : (drive h cfg m [] ⟨L, w, []⟩).1 = .ok res := congrArg Prod.fst hrun
      generalize hcall : drive h cfg m [] ⟨L, w, []⟩ = out at hdrive
      obtain ⟨r, s⟩ := out
      obtain rfl : r = .ok res := hdrive
      rw [drive] at hcall
      obtain ⟨order, s1, -, hcall⟩ := Call.bind_eq_ok.mp hcall
      obtain ⟨state, s2, -, hcall⟩ := Call.bind_eq_ok.mp hcall
      obtain ⟨_, s3, -, hcall⟩ := Call.bind_eq_ok.mp hcall
      obtain ⟨_, s4, -, hcall⟩ := Call.bind_eq_ok.mp hcall
      obtain ⟨ledger, s5, -, hcall⟩ := Call.bind_eq_ok.mp hcall
      obtain ⟨g, s6, hgate, hcall⟩ := Call.bind_eq_ok.mp hcall
      have hres : res = ⟨ledger, g⟩ := by
        cases hcall
        rfl
      rw [hres]
      exact congrArg Prod.fst hgate

section Final

variable {W : Type} {h : Host W} {cfg : RunConfig} {m : Manifest} {final L L' : Ledger}
  {order : List String} {blocks : List (String × TaskBlock)} {state : RunState} {fx : List Effect}
  (hw : RunWrites h cfg m final order blocks L L' state fx)
include hw

lemma RunWrites.taskLedger : final.taskLedger = L'.taskLedger := by
  rw [hw.settled]
  rfl

lemma RunWrites.isolationScope : final.isolationScope = m.isolationScope := by
  rw [hw.settled, ← (startLedger_new hw.start).scope, ← hw.wrote.isolation]
  rfl

lemma RunWrites.vcs : final.vcs = none := by
  rw [hw.settled, ← (startLedger_new hw.start).uncommitted, ← hw.wrote.vcs]
  rfl

lemma RunWrites.requiresLanding : final.control.requiresLanding = false := by
  rw [hw.settled, reconcile_requiresLanding, ← (startLedger_new hw.start).unlanded,
    ← hw.wrote.control]
  rfl

/-- Every event of the log is one of a block. -/
lemma RunWrites.event {e : Event} (he : e ∈ final.executionLog) : ∃ b ∈ blocks,
    ∃ kind atTime paths, e.toEventBody = loopEvent m.isolationScope kind b.1 atTime paths
      ∧ (b.2.started = false → paths = [])
      ∧ (b.2.completes = true → kind = .fileEdited ∨ paths = []) := by
  have hmem : e.toEventBody ∈ final.bodies := List.mem_map_of_mem he
  rw [hw.bodies] at hmem
  obtain ⟨b, hb, hbody⟩ := List.mem_flatMap.mp hmem
  exact ⟨b, hb, TaskBlock.mem_events hbody⟩

/-- The ids of the blocks are distinct. -/
lemma RunWrites.nodup : (blocks.map Prod.fst).Nodup :=
  ((topoOrder_perm hw.ordered).nodup_iff.mpr (nodup_nodeIds _)).sublist hw.part.sublist

/-- The entry the run found of a task of the order. -/
lemma RunWrites.entry_of_order (hids : StringIds m.taskGraph) {t : String} (ht : t ∈ order) :
    ∃ x, L.task? t = some x ∧ x.status = .pending :=
  Option.map_eq_some_iff.mp
    (startLedger_fresh hids hw.start ((topoOrder_perm hw.ordered).mem_iff.mp ht)).pending

lemma RunWrites.taskIds : final.taskLedger.map (·.taskId) = m.taskGraph.map (·.taskId) := by
  rw [hw.taskLedger, hw.wrote.taskIds, (startLedger_entries hw.start).2]

/-- A block has left an entry of the final ledger. -/
lemma RunWrites.entry_of_block (hids : StringIds m.taskGraph) {b : String × TaskBlock}
    (hb : b ∈ blocks) : ∃ x ∈ L.taskLedger, b.2.entry x ∈ final.taskLedger := by
  obtain ⟨x, hx, -⟩ := hw.entry_of_order hids (hw.part.subset (List.mem_map_of_mem hb))
  have hfind := hw.wrote.task?_of_mem hw.nodup hb
  rw [hx, Option.map_some] at hfind
  rw [hw.taskLedger]
  exact ⟨x, List.mem_of_find?_eq_some hx, List.mem_of_find?_eq_some hfind⟩

/-- An entry that is completed was left so by the block of its task. -/
lemma RunWrites.block_of_entry {e : TaskEntry} (he : e ∈ final.taskLedger)
    (hdone : e.status = .completed) :
    ∃ b ∈ blocks, ∃ x, e = b.2.entry x ∧ x.acceptance.result = .none := by
  rw [hw.taskLedger] at he
  rcases hw.wrote.entry_cases hw.nodup he with hold | ⟨b, hb, x, hx, rfl⟩
  · rw [(startLedger_entries hw.start).1 e hold] at hdone
    cases hdone
  · exact ⟨b, hb, x, rfl, startLedger_unproven hw.start x hx⟩

/-- When every entry is completed, every block completes its task. -/
lemma RunWrites.completes (hids : StringIds m.taskGraph)
    (hall : ∀ e ∈ final.taskLedger, e.status = .completed) :
      ∀ b ∈ blocks, b.2.completes = true := by
  intro b hb
  obtain ⟨x, -, hx⟩ := hw.entry_of_block hids hb
  exact (b.2.entry_completed x).mp (hall _ hx)

/-- When every entry is completed, every task of the order has a block. -/
lemma RunWrites.covers (hids : StringIds m.taskGraph)
    (hall : ∀ e ∈ final.taskLedger, e.status = .completed) :
    ∀ t ∈ order, t ∈ blocks.map Prod.fst := by
  intro t ht
  by_contra hnone
  obtain ⟨x, hx, hpending⟩ := hw.entry_of_order hids ht
  have hfind := hw.wrote.task?_of_not_mem hnone
  rw [hx] at hfind
  have hdone := hall x (hw.taskLedger ▸ List.mem_of_find?_eq_some hfind)
  rw [hpending] at hdone
  cases hdone

end Final

end Runtime

end IplanRunner
