import DistributedFs.Reconcile.Outcome

namespace DistributedFs.Healing

open Go Fsm MetadataFSM Scheduler Reconcile
open Concurrency hiding Config Prog World Run

inductive Renewing : (label : Label) → System → label.Result → System → Prop where
  | uuid (s : System) (jid : String) (unused : jid ∉ s.fsm.repairJobRegistry) : Renewing .uuid s jid s
  | other {label : Label} {s later : System} {result : label.Result} (apart : label ≠ .uuid)
    (ran : Synchronous label s result later) : Renewing label s result later

theorem Renewing.synchronous (label : Label) (s : System) (result : label.Result) (later : System)
    (ran : Renewing label s result later) : Synchronous label s result later := by
  cases ran with
  | uuid => exact .other (by intro cmd same; cases same) (.uuid _ _)
  | other _ ran => exact ran

theorem Renewing.unused {s later : System} {jid : String} (ran : Renewing .uuid s jid later) :
    jid ∉ s.fsm.repairJobRegistry := by
  cases ran with
  | uuid _ _ unused => exact unused
  | other apart _ => exact absurd rfl apart

theorem renewing_total (label : Label) (s : System) : ∃ result later, Renewing label s result later := by
  by_cases draws : label = .uuid
  · subst draws
    obtain ⟨jid, unused⟩ := Infinite.exists_notMem_finset s.fsm.repairJobRegistry.keys
    exact ⟨jid, s, .uuid s jid fun used => unused (Finmap.mem_keys.mpr used)⟩
  · obtain ⟨result, later, ran⟩ := synchronous_total label s
    exact ⟨result, later, .other draws ran⟩

def Running (m : FSM) (nodeID : String) : Prop :=
  ∃ node, m.nodeRegistry.lookup nodeID = some node ∧ node.status ≠ .dead

def RunningBeside (m : FSM) (nodeID chunkID : String) : Prop :=
  ∃ other, other ≠ nodeID ∧ Lists m chunkID other ∧ Running m other

def ReadFrom (m : FSM) (nodeID chunkID : String) : Prop :=
  ∃ id job, m.repairJobRegistry.lookup id = some job ∧ job.status.active = true ∧ job.chunkID = chunkID ∧
    job.sourceNodeID = nodeID

theorem liveBeside_ne_zero {m : FSM} (keys : RegistryKeys m) (nodeID chunkID : String) :
    liveBeside m nodeID chunkID ≠ 0 ↔ RunningBeside m nodeID chunkID := by
  have running (id : String) : (statusOf m id).any (· ≠ .dead) = true ↔ Running m id := by
    unfold statusOf Running
    cases m.nodeRegistry.lookup id <;> simp
  rw [liveBeside, ← List.length_map NodeEntry.nodeID, liveEntries_ids keys.nodes, ← Nat.pos_iff_ne_zero,
    List.length_pos_iff_exists_mem]
  simp only [List.mem_filter, running, decide_eq_true_eq]
  constructor
  · intro held
    obtain ⟨other, ⟨listed, apart⟩, runs⟩ := held
    exact ⟨other, apart, listed, runs⟩
  · intro held
    obtain ⟨other, apart, listed, runs⟩ := held
    exact ⟨other, ⟨listed, apart⟩, runs⟩

abbrev Did := List ((label : Label) × label.Result)

def Succeeded (did : Did) : Prop := ∀ entry ∈ did, Answered entry.1 entry.2

theorem Succeeded.append {did : Did} (before : Succeeded did) {label : Label} {result : label.Result}
    (answered : Answered label result) : Succeeded (did ++ [⟨label, result⟩]) := by
  intro entry member
  rcases List.mem_append.mp member with member | member
  · exact before entry member
  · cases List.mem_singleton.mp member
    exact answered

/-- How far the loop of `TriggerRepair` is for a node that leaves: it is off the lists of the
    chunks gone through, and jobs were added only for chunks that another node serves.
    If ids are `unused` no proposal was refused. -/
structure Leaving (unused : Prop) (m : FSM) (nodeID : String) (seen : List String) (did : Did) (s : System) :
    Prop where
  nodes : s.fsm.nodeRegistry = m.nodeRegistry
  chunks : ∀ cid, s.fsm.chunkRegistry.lookup cid =
    (m.chunkRegistry.lookup cid).map (withdrawn nodeID [] seen cid)
  kept : ∀ id job, m.repairJobRegistry.lookup id = some job → s.fsm.repairJobRegistry.lookup id = some job
  created : ∀ id job, s.fsm.repairJobRegistry.lookup id = some job →
    m.repairJobRegistry.lookup id = some job ∨ liveBeside m nodeID job.chunkID ≠ 0
  succeeded : unused → Succeeded did

section Loop

variable {exec : (label : Label) → System → label.Result → System → Prop}
  (synchronous : ∀ label s result later, exec label s result later → Synchronous label s result later)
  {unused : Prop} (draws : unused → ∀ s jid later, exec .uuid s jid later → jid ∉ s.fsm.repairJobRegistry)
  {m : FSM} {nodeID chunkID : String} {seen : List String} {did : Did} {s later : System}

theorem Leaving.quiet (leaving : Leaving unused m nodeID seen did s) (label : Label) (result : label.Result)
    (same : later.fsm = s.fsm) (answered : Answered label result) :
    Leaving unused m nodeID seen (did ++ [⟨label, result⟩]) later where
  nodes := same ▸ leaving.nodes
  chunks := same ▸ leaving.chunks
  kept := same ▸ leaving.kept
  created := same ▸ leaving.created
  succeeded holds := (leaving.succeeded holds).append answered

theorem Leaving.job (leaving : Leaving unused m nodeID seen did s) (req : CommandCreateRepairJob)
    (served : liveBeside m nodeID req.chunkID ≠ 0) (drawn : unused → req.jobID ∉ s.fsm.repairJobRegistry)
    (orders : Nat → MapOrder) :
    Leaving unused m nodeID seen
      (did ++ [⟨.propose (.createRepairJob req), (s.fsm.handle orders (.createRepairJob req)).2⟩])
      { s with fsm := (s.fsm.handle orders (.createRepairJob req)).1 } := by
  by_cases taken : req.jobID ∈ s.fsm.repairJobRegistry
  · have refused : (s.fsm.handle orders (.createRepairJob req)).1 = s.fsm := by
      simp [handle, handleCmdCreateRepairJob, taken]
    rw [refused]
    exact ⟨leaving.nodes, leaving.chunks, leaving.kept, leaving.created,
      fun holds => absurd taken (drawn holds)⟩
  · have applied : s.fsm.handle orders (.createRepairJob req) =
        (s.fsm.setJob req.jobID (newJob req), none) := by
      simp [handle, handleCmdCreateRepairJob, taken, upsert, setJob, newJob]
    rw [applied]
    refine ⟨leaving.nodes, leaving.chunks, ?_, ?_, fun holds => (leaving.succeeded holds).append rfl⟩
    · intro id job found
      have older := leaving.kept id job found
      have other : id ≠ req.jobID := by
        intro same
        exact taken (Finmap.mem_of_lookup_eq_some (same ▸ older))
      simpa [setJob, GoMap.lookup_insert, other] using older
    · intro id job found
      rcases lookup_setJob found with ⟨_, same⟩ | ⟨_, older⟩
      · subst same
        exact .inr served
      · exact leaving.created id job older

include synchronous

theorem alone_look {post : Did → System → Prop} {next : FSM → MapOrder → Prog}
    (rest : ∀ order, (Setting.alone exec).Ensures post (did ++ [⟨.look, (s.fsm, order)⟩])
      (next s.fsm order) s) :
    (Setting.alone exec).Ensures post did (Prog.look next) s := by
  apply Setting.Ensures.of_act
  intro looked after ran
  obtain ⟨same, kept⟩ := look_result (synchronous _ _ _ _ ran)
  obtain ⟨m, order⟩ := looked
  cases same
  rw [kept]
  exact rest order

theorem alone_propose {post : Did → System → Prop} {cmd : Time → Command} {next : Option GoError → Prog}
    (rest : ∀ now orders, (Setting.alone exec).Ensures post
      (did ++ [⟨.clock, now⟩] ++ [⟨.propose (cmd now), (s.fsm.handle orders (cmd now)).2⟩])
      (next (s.fsm.handle orders (cmd now)).2) { s with fsm := (s.fsm.handle orders (cmd now)).1 }) :
    (Setting.alone exec).Ensures post did (Prog.clock fun now => Prog.propose (cmd now) next) s := by
  apply Setting.Ensures.of_act
  intro now after ran
  cases clock_result (synchronous _ _ _ _ ran)
  apply Setting.Ensures.of_act
  intro answer after ran
  obtain ⟨orders, rfl, rfl⟩ := propose_result (synchronous _ _ _ _ ran)
  exact rest now orders

include draws

theorem Leaving.schedule (rs : RepairScheduler) (leaving : Leaving unused m nodeID seen did s)
    (served : liveBeside m nodeID chunkID ≠ 0) (live : List NodeEntry) (deficit : Int) :
    (Setting.alone exec).Ensures (Leaving unused m nodeID seen) did
      (scheduleRepairJobs rs chunkID live deficit) s := by
  let inv (drawn : Option String) (did : Did) (s : System) : Prop :=
    Leaving unused m nodeID seen did s ∧
      ∀ jid, drawn = some jid → unused → jid ∉ s.fsm.repairJobRegistry
  have start : inv none did s := ⟨leaving, fun _ none => nomatch none⟩
  refine (Setting.Ensures.of_protocol ?_ (scheduleRepairJobs_issuing rs chunkID live deficit none) start).mono
    fun did s held => held.choose_spec.1
  intro drawn did label s result after issues ran holds
  refine ⟨draw drawn label result, rfl, ?_⟩
  obtain ⟨leaving, fresh⟩ := holds
  have acted := synchronous label s result after ran
  cases label with
  | propose cmd =>
    cases cmd with
    | createRepairJob req =>
      obtain ⟨rfl, rfl⟩ := issues
      obtain ⟨orders, rfl, rfl⟩ := propose_result acted
      exact ⟨leaving.job req served (fresh req.jobID rfl) orders, fun _ none => nomatch none⟩
    | _ => cases issues
  | uuid =>
    have same := scheduling_quiet acted issues (by intro cmd here; cases here)
    refine ⟨leaving.quiet _ result same trivial, ?_⟩
    intro jid now holds
    cases now
    rw [same]
    exact draws holds s result after ran
  | clock =>
    have same := scheduling_quiet acted issues (by intro cmd here; cases here)
    exact ⟨leaving.quiet _ result same trivial, by rw [same]; exact fresh⟩
  | look | pendingKey | enqueue =>
    have same := scheduling_quiet acted issues (by intro cmd here; cases here)
    exact ⟨leaving.quiet _ result same trivial, fun _ none => nomatch none⟩
  | _ => cases issues

omit draws in
theorem Leaving.evict (leaving : Leaving unused m nodeID seen did s) (sets : ReplicaSets m)
    {chunk : ChunkRecord (List String)} (found : m.chunkRegistry.lookup chunkID = some chunk)
    (listed : nodeID ∈ chunk.replicas) (unseen : chunkID ∉ seen) (reason : String)
    {post : Did → System → Prop} {next : Prog}
    (rest : ∀ did s, Leaving unused m nodeID (seen ++ [chunkID]) did s →
      (Setting.alone exec).Ensures post did next s) :
    (Setting.alone exec).Ensures post did (proposeEvictChunk chunkID nodeID reason fun _ => next) s := by
  have still : s.fsm.chunkRegistry.lookup chunkID = some chunk := by
    rw [leaving.chunks, found]
    simp [withdrawn, unseen]
  apply alone_propose synchronous
  intro evictedAt orders
  obtain ⟨evicted, handled, nodes, jobs, chunks⟩ :=
    evict_listed orders ⟨chunkID, nodeID, evictedAt, reason⟩ still listed (sets chunkID chunk found)
  rw [handled]
  apply rest
  refine ⟨nodes.trans leaving.nodes, lookup_withdrawn leaving.chunks found List.not_mem_nil chunks,
    jobs ▸ leaving.kept, jobs ▸ leaving.created, ?_⟩
  intro holds
  apply Succeeded.append
  · exact (leaving.succeeded holds).append trivial
  · rfl

theorem Leaving.repairs_chunk (rs : RepairScheduler) (keys : RegistryKeys m) (sets : ReplicaSets m)
    (leaving : Leaving unused m nodeID seen did s) (listed : Lists m chunkID nodeID)
    (unseen : chunkID ∉ seen) :
    (Setting.alone exec).Ensures (Leaving unused m nodeID (seen ++ [chunkID])) did
      (repairAfterDeath rs nodeID chunkID) s := by
  obtain ⟨chunk, found⟩ := lists_registered listed
  rw [lists_found found] at listed
  apply leaving.evict synchronous sets found listed unseen
  intro did s leaving
  have evicted := leaving.chunks chunkID
  rw [found, Option.map_some, withdrawn, if_pos (by simp)] at evicted
  obtain ⟨live, locations, count, absent⟩ := locations_withdrawn keys leaving.nodes found evicted
  have others : excludeNode live nodeID = live := by
    apply List.filter_eq_self.mpr
    simpa using absent
  apply alone_look synchronous
  intro order
  simp only [locations, others]
  have looked := leaving.quiet .look (s.fsm, order) rfl trivial
  by_cases enough : rs.replicationFactor - live.length ≤ 0
  · rw [if_pos enough]
    exact Setting.Ensures.of_done looked
  · rw [if_neg enough]
    by_cases served : liveBeside m nodeID chunkID = 0
    · -- nobody is left to copy from, and the list of the chunk stays empty
      rw [served] at count
      rw [scheduleRepairJobs, if_pos (by omega), if_pos count]
      exact Setting.Ensures.of_done looked
    · exact looked.schedule synchronous draws rs served live _

theorem Leaving.repairs_all (rs : RepairScheduler) (keys : RegistryKeys m) (sets : ReplicaSets m)
    (leaving : Leaving unused m nodeID [] did s) (here : s.fsm = m) :
    (Setting.alone exec).Ensures
      (fun did s => ∃ seen, (∀ cid, Lists m cid nodeID ↔ cid ∈ seen) ∧ Leaving unused m nodeID seen did s) did
      (triggerRepair rs nodeID) s := by
  apply alone_look synchronous
  intro order
  rw [here]
  have start := leaving.quiet .look (m, order) rfl trivial
  have listing (cid : String) : Lists m cid nodeID ↔ cid ∈ m.getChunksByNode order nodeID :=
    (mem_chunksByNode keys order cid nodeID).symm
  have distinct := chunksByNode_nodup keys order nodeID
  have loop : (Setting.alone exec).Ensures (Leaving unused m nodeID (m.getChunksByNode order nodeID))
      (did ++ [⟨.look, (m, order)⟩])
      (.forEach (repairAfterDeath rs nodeID) (m.getChunksByNode order nodeID)) s := by
    refine Setting.Ensures.forEachDistinct distinct ?_ ?_ start
    · intro seen did s later same leaving
      cases same
      exact leaving
    · intro seen cid member unseen did s leaving
      exact leaving.repairs_chunk synchronous draws rs keys sets ((listing cid).mpr member) unseen
  exact loop.mono fun did s left => ⟨_, listing, left⟩

end Loop

theorem deregister_known {m : FSM} (orders : Nat → MapOrder) (req : CommandDeregisterNode) {node : NodeEntry}
    (registered : m.nodeRegistry.lookup req.nodeID = some node) :
    ∃ draining, m.handle orders (.deregisterNode req) = (draining, none) ∧
      draining.chunkRegistry = m.chunkRegistry ∧ draining.repairJobRegistry = m.repairJobRegistry ∧
      ∀ other, other ≠ req.nodeID → draining.nodeRegistry.lookup other = m.nodeRegistry.lookup other := by
  simp only [handle, handleCmdDeregisterNode, updateNode, (getNode_ok m).mpr registered]
  refine ⟨_, rfl, rfl, rfl, ?_⟩
  intro other apart
  exact Finmap.lookup_insert_of_ne _ apart

structure Deregistered (unused : Prop) (nodeID : String) (m : FSM) (did : Did) (after : FSM) : Prop where
  nodes : ∀ other, other ≠ nodeID → after.nodeRegistry.lookup other = m.nodeRegistry.lookup other
  lists : ∀ cid other, Lists after cid other ↔ Lists m cid other ∧ other ≠ nodeID
  kept : ∀ id job, m.repairJobRegistry.lookup id = some job → after.repairJobRegistry.lookup id = some job
  created : ∀ id job, after.repairJobRegistry.lookup id = some job →
    m.repairJobRegistry.lookup id = some job ∨ RunningBeside m nodeID job.chunkID
  succeeded : unused → Succeeded did

section Deregister

variable {exec : (label : Label) → System → label.Result → System → Prop}
  (synchronous : ∀ label s result later, exec label s result later → Synchronous label s result later)
  {unused : Prop} (draws : unused → ∀ s jid later, exec .uuid s jid later → jid ∉ s.fsm.repairJobRegistry)
  {history : History} {s : System} (reached : Reached history s.fsm) {nodeID : String} {node : NodeEntry}
  (registered : s.fsm.nodeRegistry.lookup nodeID = some node)

theorem Leaving.deregistered {m draining : FSM} {nodeID : String} {seen : List String} {did : Did}
    {after : System} (leaving : Leaving unused draining nodeID seen did after)
    (listing : ∀ cid, Lists draining cid nodeID ↔ cid ∈ seen) (keys : RegistryKeys draining)
    (chunks : draining.chunkRegistry = m.chunkRegistry)
    (jobs : draining.repairJobRegistry = m.repairJobRegistry)
    (nodes : ∀ other, other ≠ nodeID → draining.nodeRegistry.lookup other = m.nodeRegistry.lookup other) :
    Deregistered unused nodeID m did after.fsm where
  nodes other apart := by rw [leaving.nodes, nodes other apart]
  lists cid other := by
    have now := leaving.chunks cid
    cases found : draining.chunkRegistry.lookup cid with
    | none =>
      rw [found] at now
      rw [chunks] at found
      simp [Scheduler.Lists, replicasOf, now, found]
    | some chunk =>
      have known := listing cid
      rw [lists_found found] at known
      rw [found, Option.map_some] at now
      rw [chunks] at found
      rw [lists_found now, lists_found found, withdrawn]
      by_cases held : cid ∈ seen
      · simp [held]
      · have apart : other ∈ chunk.replicas → other ≠ nodeID := by
          intro member same
          exact held (known.mp (same ▸ member))
        simpa [held] using apart
  kept := jobs ▸ leaving.kept
  created id job found := by
    rw [← jobs]
    refine (leaving.created id job found).imp_right ?_
    intro served
    obtain ⟨other, apart, listed, entry, present, alive⟩ :=
      (liveBeside_ne_zero keys nodeID job.chunkID).mp served
    rw [nodes other apart] at present
    rw [Scheduler.Lists, replicasOf, chunks] at listed
    exact ⟨other, apart, listed, entry, present, alive⟩
  succeeded := leaving.succeeded

include synchronous draws reached registered

theorem deregisterNode_leaves (parts : Components) :
    (Setting.alone exec).Ensures (fun did after => Deregistered unused nodeID s.fsm did after.fsm) []
      (deregisterNode parts nodeID) s := by
  apply alone_look synchronous
  intro order
  have known := (getNode_ok s.fsm).mpr registered
  simp only [known]
  apply alone_propose synchronous
  intro updatedAt orders
  have later := reached.command orders (.deregisterNode ⟨nodeID, updatedAt⟩)
  obtain ⟨draining, handled, chunks, jobs, nodes⟩ := deregister_known orders ⟨nodeID, updatedAt⟩ registered
  rw [handled] at later ⊢
  have keys := reached_registryKeys later
  have start : Leaving unused draining nodeID [] ([] ++ [⟨.look, (s.fsm, order)⟩] ++ [⟨.clock, updatedAt⟩] ++
      [⟨.propose (.deregisterNode ⟨nodeID, updatedAt⟩), none⟩]) { s with fsm := draining } := by
    refine ⟨rfl, ?_, fun _ _ found => found, fun _ _ found => .inl found, ?_⟩
    · intro cid
      have untouched : withdrawn nodeID [] [] cid = id := by
        funext chunk
        simp [withdrawn]
      rw [untouched, Option.map_id]
      rfl
    · intro _ entry member
      simp only [List.nil_append, List.cons_append, List.mem_cons, List.not_mem_nil, or_false] at member
      rcases member with rfl | rfl | rfl
      · trivial
      · trivial
      · rfl
  refine (start.repairs_all synchronous draws parts.scheduler keys (reached_replicaSets later) rfl).mono ?_
  intro did after left
  obtain ⟨seen, listing, leaving⟩ := left
  exact leaving.deregistered listing keys chunks jobs nodes

end Deregister

/-- Every chunk committed on the node is served by a node that is not dead, or an active job reads it
    from the node that leaves. -/
def Handed (m : FSM) (nodeID : String) (after : FSM) : Prop :=
  ∀ cid chunk, m.chunkRegistry.lookup cid = some chunk → chunk.status = .complete → nodeID ∈ chunk.replicas →
    (∃ other, Lists after cid other ∧ Running after other) ∨ ReadFrom after nodeID cid

theorem Deregistered.handed_iff {unused : Prop} {nodeID : String} {m after : FSM} {did : Did}
    (deregistered : Deregistered unused nodeID m did after) :
    Handed m nodeID after ↔ ∀ cid chunk, m.chunkRegistry.lookup cid = some chunk → chunk.status = .complete →
      nodeID ∈ chunk.replicas → RunningBeside m nodeID cid ∨ ReadFrom m nodeID cid := by
  have served (cid : String) : (∃ other, Lists after cid other ∧ Running after other) ↔
      RunningBeside m nodeID cid := by
    constructor
    · intro held
      obtain ⟨other, listed, entry, found, alive⟩ := held
      obtain ⟨listed, apart⟩ := (deregistered.lists cid other).mp listed
      rw [deregistered.nodes other apart] at found
      exact ⟨other, apart, listed, entry, found, alive⟩
    · intro held
      obtain ⟨other, apart, listed, entry, found, alive⟩ := held
      rw [← deregistered.nodes other apart] at found
      exact ⟨other, (deregistered.lists cid other).mpr ⟨listed, apart⟩, entry, found, alive⟩
  have read (cid : String) : RunningBeside m nodeID cid ∨ ReadFrom after nodeID cid ↔
      RunningBeside m nodeID cid ∨ ReadFrom m nodeID cid := by
    constructor
    · intro held
      rcases held with beside | ⟨id, job, found, active, chunk, source⟩
      · exact .inl beside
      · rcases deregistered.created id job found with older | beside
        · exact .inr ⟨id, job, older, active, chunk, source⟩
        · exact .inl (chunk ▸ beside)
    · intro held
      rcases held with beside | ⟨id, job, found, active, chunk, source⟩
      · exact .inl beside
      · exact .inr ⟨id, job, deregistered.kept id job found, active, chunk, source⟩
  simp only [Handed, served, read]

theorem exists_deregistration {history : History} {s : System} (reached : Reached history s.fsm)
    {nodeID : String} {node : NodeEntry} (registered : s.fsm.nodeRegistry.lookup nodeID = some node)
    (parts : Components) :
    ∃ did after, Alone Synchronous (deregisterNode parts nodeID) s did after ∧ Succeeded did ∧
      Deregistered True nodeID s.fsm did after.fsm := by
  have draws (_ : True) (s : System) (jid : String) (later : System) (ran : Renewing .uuid s jid later) :
      jid ∉ s.fsm.repairJobRegistry := ran.unused
  obtain ⟨did, after, ran⟩ := Alone.exists_run renewing_total (deregisterNode parts nodeID) s
  have deregistered := (deregisterNode_leaves Renewing.synchronous draws reached registered parts).run ran
  rw [List.nil_append] at deregistered
  exact ⟨did, after, ran.mono Renewing.synchronous, deregistered.succeeded trivial, deregistered⟩

/-- Every `DeregisterNode` whose proposals succeed hands over the chunks of the node exactly if each of
    them is already listed on another running node, or is being read from this one. -/
theorem deregisterNode_hands_over_iff {history : History} {s : System} (reached : Reached history s.fsm)
    {nodeID : String} {node : NodeEntry} (registered : s.fsm.nodeRegistry.lookup nodeID = some node)
    (parts : Components) :
    (∀ did after, Alone Synchronous (deregisterNode parts nodeID) s did after → Succeeded did →
      Handed s.fsm nodeID after.fsm) ↔
    ∀ cid chunk, s.fsm.chunkRegistry.lookup cid = some chunk → chunk.status = .complete →
      nodeID ∈ chunk.replicas → RunningBeside s.fsm nodeID cid ∨ ReadFrom s.fsm nodeID cid := by
  constructor
  · intro hands
    obtain ⟨did, after, ran, succeeded, deregistered⟩ := exists_deregistration reached registered parts
    exact deregistered.handed_iff.mp (hands did after ran succeeded)
  · intro condition did after ran _
    have draws : False → ∀ s jid later, Synchronous .uuid s jid later → jid ∉ s.fsm.repairJobRegistry :=
      False.elim
    have deregistered :=
      (deregisterNode_leaves (fun _ _ _ _ ran => ran) draws reached registered parts).run ran
    exact deregistered.handed_iff.mpr condition

theorem deregisterNode_hands_over_iff_uploaded : (∃ history, Reached history uploaded.2.fsm) ∧
    ∀ did after, Alone Synchronous (deregisterNode twoCopies "n1") uploaded.2 did after → Succeeded did →
      Handed uploaded.2.fsm "n1" after.fsm := by
  obtain ⟨procs, _, sequential⟩ := uploaded_reachable
  obtain ⟨history, reached⟩ := reached_fsm twoCopies ⟨[], Reached.empty⟩ sequential
  have registered : uploaded.2.fsm.nodeRegistry.lookup "n1" =
      some ⟨"n1", "10.0.0.1:9000", .alive, 100000, 0, 0, 0, 0⟩ := by decide +kernel
  have only : uploaded.2.fsm.chunkRegistry = Finmap.singleton "ck-1" stored := by decide +kernel
  have job : uploaded.2.fsm.repairJobRegistry.lookup "job-" =
      some ⟨"job-", "ck-1", "", false, "n1", "n2", .pending, 0, 3, 3⟩ := by decide +kernel
  refine ⟨⟨history, reached⟩, (deregisterNode_hands_over_iff reached registered twoCopies).mpr ?_⟩
  intro cid chunk found _ _
  rw [only] at found
  cases (Finmap.mem_singleton _ _ _).mp (Finmap.mem_of_lookup_eq_some found)
  exact .inr ⟨"job-", _, job, rfl, rfl, rfl⟩

/-- `n1` and `n3` join, and a file is created. `n3` leaves before `n1` receives the chunk; then `n2` joins. -/
def joinedLate : System :=
  let first := alone 0 (registerNode (newNode "n1" "10.0.0.1:9000")) System.empty
  let second := alone 0 (registerNode (newNode "n3" "10.0.0.3:9000")) first.2
  let created := alone 1 (Prog.propose newFile fun _ => Prog.done) second.2
  let left := alone 1 (deregisterNode twoCopies "n3") created.2
  let written := alone 2 (Prog.act (.store "n1" "ck-1") fun _ => Prog.done) left.2
  let committed := alone 3 (commitChunk twoCopies ⟨"ck-1", ["n1"], [7]⟩) written.2
  (alone 4 (registerNode (newNode "n2" "10.0.0.2:9000")) committed.2).2

theorem joinedLate_reachable : Sequential twoCopies (fun _ _ _ => True) joinedLate := by
  have start := Sequential.empty twoCopies fun _ _ _ => True
  have one := start.andCall twoCopies 0
    (.component (.registerNode _ (newNode "n1" "10.0.0.1:9000") (newNode_inventory _ rfl)))
  have two := one.andCall twoCopies 0
    (.component (.registerNode _ (newNode "n3" "10.0.0.3:9000") (newNode_inventory _ rfl)))
  have three := two.andCall twoCopies 1 (.component (.client _ newFile rfl))
  have four := three.andCall twoCopies 1 (.component (.deregisterNode _ "n3"))
  have five := four.andCall twoCopies 2 (.component (.store _ "n1" "ck-1"))
  have six := five.andCall twoCopies 3 (.component (.commitChunk _ ⟨"ck-1", ["n1"], [7]⟩))
  exact six.andCall twoCopies 4
    (.component (.registerNode _ (newNode "n2" "10.0.0.2:9000") (newNode_inventory _ rfl)))

/-- When `n1` leaves, nobody is listed for the chunk any more, and no job copies it to `n2`. -/
theorem orphaned_joinedLate : Sequential twoCopies (fun _ _ _ => True) joinedLate ∧
    ∃ did after, Alone Synchronous (deregisterNode twoCopies "n1") joinedLate did after ∧ Succeeded did ∧
      ¬Handed joinedLate.fsm "n1" after.fsm := by
  have reachable := joinedLate_reachable
  obtain ⟨procs, _, sequential⟩ := joinedLate_reachable
  obtain ⟨history, reached⟩ := reached_fsm twoCopies ⟨[], Reached.empty⟩ sequential
  have registered : joinedLate.fsm.nodeRegistry.lookup "n1" =
      some ⟨"n1", "10.0.0.1:9000", .alive, 100000, 0, 0, 0, 0⟩ := by decide +kernel
  have chunk : joinedLate.fsm.chunkRegistry.lookup "ck-1" = some stored := by decide +kernel
  have jobs : joinedLate.fsm.repairJobRegistry = ∅ := by decide +kernel
  obtain ⟨did, after, ran, succeeded, deregistered⟩ := exists_deregistration reached registered twoCopies
  refine ⟨reachable, did, after, ran, succeeded, ?_⟩
  rw [deregistered.handed_iff]
  intro condition
  rcases condition "ck-1" stored chunk rfl (by decide) with beside | read
  · obtain ⟨other, apart, listed, _⟩ := beside
    rw [lists_found chunk] at listed
    exact apart (List.mem_singleton.mp listed)
  · obtain ⟨id, job, found, _⟩ := read
    rw [jobs] at found
    cases found

end DistributedFs.Healing
