import DistributedFs.Concurrency.Alone
import DistributedFs.Scheduler.NodeDeath

namespace DistributedFs.Reconcile

open Go Fsm MetadataFSM Healing Scheduler
open Concurrency hiding Config

abbrev Action := Label ⊕ String

abbrev Script := Concurrency.Prog Action (CallResult Label.Result)

namespace Script

def look (next : FSM → MapOrder → Script) : Script := .act (.inl .look) fun seen => next seen.1 seen.2

def proposeEvictChunk (chunkID nodeID reason : String) (next : Option GoError → Script) : Script :=
  .act (.inl .clock) fun evictedAt =>
    .act (.inl (.propose (.evictChunkFromNode ⟨chunkID, nodeID, evictedAt, reason⟩))) next

def evictStaleReplica (nodeID nodeAddr chunkID : String) : Script :=
  proposeEvictChunk chunkID nodeID "stale replica during reconciliation" fun _ =>
    .act (.inl (.deleteChunk nodeID nodeAddr chunkID)) fun _ => .done

def handleMissingReplica (replicationFactor : Int) (nodeID chunkID : String) : Script :=
  proposeEvictChunk chunkID nodeID "missing replica during reconciliation" fun
    | some _ => .done
    | none =>
      look fun m _ =>
        match m.getChunkLocations chunkID with
        | .error _ => .done
        | .ok liveReplicas =>
          let stillListed := liveReplicas.any fun n => n.nodeID = nodeID
          let expectedLiveCount : Int :=
            if stillListed then liveReplicas.length - 1 else liveReplicas.length
          if expectedLiveCount < replicationFactor then .act (.inr chunkID) fun _ => .done else .done

def reconcileNode (replicationFactor : Int) (nodeID : String) (reportedChunks : List String) : Script :=
  look fun m _ =>
    match m.getNode nodeID with
    | .error _ => .done
    | .ok node =>
      look fun m order =>
        let expectedChunks := m.getChunksByNode order nodeID
        (Prog.forEach (fun cid =>
          if cid ∈ expectedChunks then .done
          else look fun m _ =>
            evictStaleReplica nodeID
              ((m.nodeRegistry.lookup nodeID).map NodeEntry.address |>.getD node.address) cid)
          reportedChunks).andThen
        (Prog.forEach (fun cid =>
          if cid ∈ reportedChunks then .done
          else handleMissingReplica replicationFactor nodeID cid) expectedChunks)

end Script

section Inline

variable (rs : RepairScheduler)

theorem inline_handleMissingReplica (replicationFactor : Int) (nodeID chunkID : String) :
    (Script.handleMissingReplica replicationFactor nodeID chunkID).inline (scheduleRepairForChunk rs) =
      handleMissingReplica rs replicationFactor nodeID chunkID := by
  unfold Script.handleMissingReplica Script.proposeEvictChunk handleMissingReplica proposeEvictChunk
  simp only [Prog.inline, Healing.Prog.clock, Healing.Prog.propose]
  congr 1
  funext evictedAt
  congr 1
  funext answer
  cases answer with
  | some err => rfl
  | none =>
    simp only [Script.look, Prog.inline, Healing.Prog.look]
    congr 1
    funext seen
    cases seen.1.getChunkLocations chunkID with
    | error err => rfl
    | ok live =>
      dsimp only
      generalize (if live.any fun n => n.nodeID = nodeID then (live.length : Int) - 1 else live.length) = count
      by_cases few : count < replicationFactor
      · rw [if_pos few, if_pos few]
        exact (scheduleRepairForChunk rs chunkID).andThen_done
      · rw [if_neg few, if_neg few]
        rfl

/-- With the scheduler in the place of the interface this is the program of the reconciler. -/
theorem inline_reconcileNode (replicationFactor : Int) (nodeID : String) (reported : List String) :
    (Script.reconcileNode replicationFactor nodeID reported).inline (scheduleRepairForChunk rs) =
      reconcileNode rs replicationFactor nodeID reported := by
  unfold Script.reconcileNode reconcileNode
  simp only [Script.look, Prog.inline, Healing.Prog.look]
  congr 1
  funext seen
  cases seen.1.getNode nodeID with
  | error err => rfl
  | ok node =>
    simp only [Prog.inline]
    congr 1
    funext seen
    rw [Prog.inline_andThen, Prog.inline_forEach, Prog.inline_forEach]
    congr 1
    · congr 1
      funext cid
      split
      · rfl
      · rfl
    · congr 1
      funext cid
      split
      · rfl
      · exact inline_handleMissingReplica rs replicationFactor nodeID cid

end Inline

/-- A proposer that applies each command before it returns, and nothing else that is refused. -/
inductive Synchronous : (label : Label) → System → label.Result → System → Prop where
  | applied (s : System) (cmd : Command) (orders : Nat → MapOrder) :
    Synchronous (.propose cmd) s (s.fsm.handle orders cmd).2 { s with fsm := (s.fsm.handle orders cmd).1 }
  | other {label : Label} {s later : System} {result : label.Result} (apart : ∀ cmd, label ≠ .propose cmd)
    (ran : Exec label s result later) : Synchronous label s result later

abbrev Acts (rs : RepairScheduler) :
    (action : Action) → System → CallResult Label.Result action → System → Prop :=
  CallExec Synchronous (scheduleRepairForChunk rs)

abbrev Log := List ((action : Action) × CallResult Label.Result action)

def sent (did : Log) : List (String × String × String) :=
  did.filterMap fun entry =>
    match entry.1 with
    | .inl (.deleteChunk nodeID addr chunkID) => some (nodeID, addr, chunkID)
    | _ => none

def called (did : Log) : List String :=
  did.filterMap fun entry =>
    match entry.1 with
    | .inr chunkID => some chunkID
    | .inl _ => none

theorem sent_append (did more : Log) : sent (did ++ more) = sent did ++ sent more :=
  List.filterMap_append

theorem called_append (did more : Log) : called (did ++ more) = called did ++ called more :=
  List.filterMap_append

section Actions

variable {s later : System}

theorem look_result {seen : FSM × MapOrder} (ran : Synchronous .look s seen later) :
    seen.1 = s.fsm ∧ later = s := by
  cases ran with
  | other _ ran =>
    cases ran
    exact ⟨rfl, rfl⟩

theorem clock_result {now : Time} (ran : Synchronous .clock s now later) : later = s := by
  cases ran with
  | other _ ran =>
    cases ran
    rfl

theorem propose_result {cmd : Command} {answer : Option GoError}
    (ran : Synchronous (.propose cmd) s answer later) :
    ∃ orders, answer = (s.fsm.handle orders cmd).2 ∧ later = { s with fsm := (s.fsm.handle orders cmd).1 } := by
  cases ran with
  | applied _ _ orders => exact ⟨orders, rfl, rfl⟩
  | other apart _ => exact absurd rfl (apart cmd)

theorem deleteChunk_result {nodeID addr chunkID : String} {answer : Bool}
    (ran : Synchronous (.deleteChunk nodeID addr chunkID) s answer later) : later.fsm = s.fsm := by
  cases ran with
  | other _ ran =>
    cases ran with
    | deleted => rfl
    | deleteFailed => rfl

structure KeepsRegistries (s later : System) : Prop where
  chunks : later.fsm.chunkRegistry = s.fsm.chunkRegistry
  nodes : later.fsm.nodeRegistry = s.fsm.nodeRegistry

theorem KeepsRegistries.refl (s : System) : KeepsRegistries s s := ⟨rfl, rfl⟩

theorem KeepsRegistries.trans {s mid later : System} (first : KeepsRegistries s mid) (second : KeepsRegistries mid later) :
    KeepsRegistries s later :=
  ⟨second.chunks.trans first.chunks, second.nodes.trans first.nodes⟩

theorem synchronous_exec (label : Label) (s : System) (result : label.Result) (later : System)
    (ran : Synchronous label s result later) : Exec label s result later := by
  cases ran with
  | applied cmd orders => exact .applied _ _ _
  | other _ ran => exact ran

theorem scheduling_quiet {label : Label} {result : label.Result} (ran : Synchronous label s result later)
    (schedules : Scheduling label) (apart : ∀ cmd, label ≠ .propose cmd) : later.fsm = s.fsm := by
  cases ran with
  | applied _ cmd => exact absurd rfl (apart cmd)
  | other _ ran =>
    cases ran with
    | enqueue => exact enqueue_fsm _ _
    | look | clock | uuid | pendingKey => rfl
    | applied | refused | unconfirmed => exact absurd rfl (apart _)
    | _ => cases schedules

theorem scheduling_undisturbed (label : Label) (s : System) (result : label.Result) (later : System)
    (ran : Synchronous label s result later) (schedules : Scheduling label) : KeepsRegistries s later := by
  by_cases proposes : ∃ cmd, label = .propose cmd
  · obtain ⟨cmd, rfl⟩ := proposes
    obtain ⟨orders, _, rfl⟩ := propose_result ran
    cases cmd with
    | createRepairJob req =>
      have onJobs : jobCommand (.createRepairJob req) = true := rfl
      obtain ⟨jobs, same⟩ := jobCommand_frame onJobs s.fsm orders
      rw [same]
      exact ⟨rfl, rfl⟩
    | _ => cases schedules
  · have same := scheduling_quiet ran schedules fun cmd here => proposes ⟨cmd, here⟩
    exact ⟨by rw [same], by rw [same]⟩

theorem schedule_undisturbed {rs : RepairScheduler} {chunkID : String}
    {did : List ((label : Label) × label.Result)}
    (ran : Alone Synchronous (scheduleRepairForChunk rs chunkID) s did later) : KeepsRegistries s later :=
  ran.keeps .refl .trans scheduling_undisturbed (scheduleRepairForChunk_scheduling rs chunkID)

end Actions

theorem evict_listed {m : FSM} (orders : Nat → MapOrder) (req : CommandEvictChunkFromNode)
    {chunk : ChunkRecord (List String)} (found : m.chunkRegistry.lookup req.chunkID = some chunk)
    (listed : req.nodeID ∈ chunk.replicas) (distinct : chunk.replicas.Nodup) :
    ∃ after, m.handle orders (.evictChunkFromNode req) = (after, none) ∧
      after.nodeRegistry = m.nodeRegistry ∧ after.repairJobRegistry = m.repairJobRegistry ∧
      after.chunkRegistry = m.chunkRegistry.insert req.chunkID
        { chunk with replicas := chunk.replicas.filter (· ≠ req.nodeID) } := by
  have place : ∃ idx, chunk.replicas.findIdx? (· = req.nodeID) = some idx := by
    rw [← Option.isSome_iff_exists, List.findIdx?_isSome]
    simpa using listed
  obtain ⟨idx, place⟩ := place
  refine ⟨m.setChunk req.chunkID { chunk with replicas := chunk.replicas.filter (· ≠ req.nodeID) }, ?_,
    rfl, rfl, rfl⟩
  simp only [handle, handleCmdEvictChunkFromNode, (getChunk_ok m).mpr found, place]
  rw [eraseIdx_eq_filter distinct place]

theorem evict_unlisted {m : FSM} (orders : Nat → MapOrder) {req : CommandEvictChunkFromNode}
    (absent : ¬Lists m req.chunkID req.nodeID) :
    (m.handle orders (.evictChunkFromNode req)).1 = m := by
  simp only [handle, handleCmdEvictChunkFromNode]
  cases read : m.getChunk req.chunkID with
  | error err => rfl
  | ok chunk =>
    have found := (getChunk_ok m).mp read
    rw [lists_found found] at absent
    have nowhere : chunk.replicas.findIdx? (· = req.nodeID) = none := by
      rw [List.findIdx?_eq_none_iff]
      intro id member
      simp only [decide_eq_false_iff_not]
      intro same
      exact absent (same ▸ member)
    simp only [nowhere]

theorem lists_registered {m : FSM} {chunkID nodeID : String} (listed : Lists m chunkID nodeID) :
    ∃ chunk, m.chunkRegistry.lookup chunkID = some chunk := by
  cases found : m.chunkRegistry.lookup chunkID with
  | none => simp [Scheduler.Lists, replicasOf, found] at listed
  | some chunk => exact ⟨chunk, rfl⟩

def liveBeside (m : FSM) (nodeID chunkID : String) : Nat :=
  (liveEntries m.nodeRegistry (((replicasOf m chunkID).getD []).filter (· ≠ nodeID))).length

/-- The record of a chunk once the loop over missing replicas has gone through `seen`. -/
def withdrawn (nodeID : String) (reported seen : List String) (chunkID : String)
    (chunk : ChunkRecord (List String)) : ChunkRecord (List String) :=
  if chunkID ∈ seen ∧ chunkID ∉ reported then
    { chunk with replicas := chunk.replicas.filter (· ≠ nodeID) }
  else chunk

theorem lookup_withdrawn {m now : FSM} {nodeID chunkID : String} {reported seen : List String}
    (before : ∀ cid, now.chunkRegistry.lookup cid =
      (m.chunkRegistry.lookup cid).map (withdrawn nodeID reported seen cid))
    {chunk : ChunkRecord (List String)} (found : m.chunkRegistry.lookup chunkID = some chunk)
    (absent : chunkID ∉ reported) {later : FSM}
    (evicted : later.chunkRegistry = now.chunkRegistry.insert chunkID
      { chunk with replicas := chunk.replicas.filter (· ≠ nodeID) }) (cid : String) :
    later.chunkRegistry.lookup cid =
      (m.chunkRegistry.lookup cid).map (withdrawn nodeID reported (seen ++ [chunkID]) cid) := by
  rw [evicted, GoMap.lookup_insert]
  by_cases here : cid = chunkID
  · rw [if_pos here, here, found]
    simp [withdrawn, absent]
  · rw [if_neg here, before]
    congr 1
    funext chunk
    simp [withdrawn, here]

structure Stale (m : FSM) (nodeID addr : String) (expected seen : List String) (did : Log) (s : System) :
    Prop where
  fsm : s.fsm = m
  sent : sent did = (seen.filter (· ∉ expected)).map fun cid => (nodeID, addr, cid)
  called : called did = []

structure Missing (m : FSM) (replicationFactor : Int) (nodeID : String) (reported : List String)
    (deletes : List (String × String × String)) (seen : List String) (did : Log) (s : System) : Prop where
  nodes : s.fsm.nodeRegistry = m.nodeRegistry
  chunks : ∀ cid, s.fsm.chunkRegistry.lookup cid =
    (m.chunkRegistry.lookup cid).map (withdrawn nodeID reported seen cid)
  sent : sent did = deletes
  called : called did = seen.filter fun cid =>
    cid ∉ reported ∧ (liveBeside m nodeID cid : Int) < replicationFactor

section Loops

variable {rs : RepairScheduler} {m : FSM} {nodeID addr : String} {expected seen reported : List String}
  {did : Log} {s : System} {replicationFactor : Int} {deletes : List (String × String × String)}

theorem ensures_look {post : Log → System → Prop} {next : FSM → MapOrder → Script}
    (rest : ∀ order, (Setting.alone (Acts rs)).Ensures post (did ++ [⟨.inl .look, (s.fsm, order)⟩])
      (next s.fsm order) s) : (Setting.alone (Acts rs)).Ensures post did (Script.look next) s := by
  apply Setting.Ensures.of_act
  intro seen after ran
  cases ran with
  | act ran =>
    obtain ⟨same, rfl⟩ := look_result ran
    obtain ⟨m, order⟩ := seen
    cases same
    exact rest order

theorem ensures_evict {post : Log → System → Prop} {chunkID reason : String}
    {next : Option GoError → Script}
    (rest : ∀ evictedAt orders answer more, sent more = [] → called more = [] →
      answer = (s.fsm.handle orders (.evictChunkFromNode ⟨chunkID, nodeID, evictedAt, reason⟩)).2 →
      (Setting.alone (Acts rs)).Ensures post (did ++ more) (next answer) { s with fsm :=
        (s.fsm.handle orders (.evictChunkFromNode ⟨chunkID, nodeID, evictedAt, reason⟩)).1 }) :
    (Setting.alone (Acts rs)).Ensures post did (Script.proposeEvictChunk chunkID nodeID reason next) s := by
  apply Setting.Ensures.of_act
  intro evictedAt after ran
  cases ran with
  | act ran =>
    cases clock_result ran
    apply Setting.Ensures.of_act
    intro answer after ran
    cases ran with
    | act ran =>
      obtain ⟨orders, same, rfl⟩ := propose_result ran
      rw [List.append_assoc]
      exact rest evictedAt orders answer _ rfl rfl same

theorem staleLoop (fresh : ∀ cid, Lists m cid nodeID ↔ cid ∈ expected) (node : NodeEntry)
    (registered : m.nodeRegistry.lookup nodeID = some node) (before : called did = []) (none : sent did = [])
    (here : s.fsm = m) :
    (Setting.alone (Acts rs)).Ensures (Stale m nodeID node.address expected reported) did
      (Prog.forEach (fun cid =>
        if cid ∈ expected then .done
        else Script.look fun m _ =>
          Script.evictStaleReplica nodeID
            ((m.nodeRegistry.lookup nodeID).map NodeEntry.address |>.getD node.address) cid) reported) s := by
  have start : Stale m nodeID node.address expected [] did s := ⟨here, none, before⟩
  refine Setting.Ensures.forEach reported [] ?_ ?_ start
  · intro seen did s later same stale
    cases same
    exact stale
  · intro seen cid rest _ did s stale
    by_cases wanted : cid ∈ expected
    · rw [if_pos wanted]
      apply Setting.Ensures.of_done
      exact ⟨stale.fsm, by simp [stale.sent, wanted], stale.called⟩
    · rw [if_neg wanted]
      apply ensures_look
      intro order
      rw [stale.fsm, registered]
      apply ensures_evict
      intro evictedAt orders answer more nothing uncalled _
      rw [evict_unlisted orders (by rw [stale.fsm]; exact fun listed => wanted ((fresh cid).mp listed))]
      apply Setting.Ensures.of_act
      intro answer after ran
      cases ran with
      | act ran =>
        have kept := deleteChunk_result ran
        apply Setting.Ensures.of_done
        refine ⟨kept.trans stale.fsm, ?_, ?_⟩
        · simp only [sent_append, stale.sent, nothing]
          simp [sent, wanted]
        · simp only [called_append, stale.called, uncalled]
          rfl

theorem locations_withdrawn (keys : RegistryKeys m) {later : FSM} (nodes : later.nodeRegistry = m.nodeRegistry)
    {chunkID : String} {chunk : ChunkRecord (List String)} (found : m.chunkRegistry.lookup chunkID = some chunk)
    (evicted : later.chunkRegistry.lookup chunkID =
      some { chunk with replicas := chunk.replicas.filter (· ≠ nodeID) }) :
    ∃ live, later.getChunkLocations chunkID = .ok live ∧ live.length = liveBeside m nodeID chunkID ∧
      (live.any fun n => n.nodeID = nodeID) = false := by
  refine ⟨liveEntries m.nodeRegistry (chunk.replicas.filter (· ≠ nodeID)), ?_, ?_, ?_⟩
  · simp only [getChunkLocations, (getChunk_ok _).mpr evicted, nodes]
  · simp only [liveBeside, replicasOf, found, Option.map_some, Option.getD_some]
  · rw [liveEntries_filter keys.nodes]
    simp

theorem Missing.withdraw (missing : Missing m replicationFactor nodeID reported deletes seen did s)
    {cid : String} (absent : cid ∉ reported) {chunk : ChunkRecord (List String)}
    (found : m.chunkRegistry.lookup cid = some chunk) {later : System} {more : Log}
    (nodes : later.fsm.nodeRegistry = s.fsm.nodeRegistry)
    (chunks : later.fsm.chunkRegistry = s.fsm.chunkRegistry.insert cid
      { chunk with replicas := chunk.replicas.filter (· ≠ nodeID) })
    (nothing : Reconcile.sent more = [])
    (calls : Reconcile.called more =
      if (liveBeside m nodeID cid : Int) < replicationFactor then [cid] else []) :
    Missing m replicationFactor nodeID reported deletes (seen ++ [cid]) (did ++ more) later where
  nodes := nodes.trans missing.nodes
  chunks := lookup_withdrawn missing.chunks found absent chunks
  sent := by rw [sent_append, missing.sent, nothing, List.append_nil]
  called := by
    rw [called_append, missing.called, calls, List.filter_append]
    by_cases few : (liveBeside m nodeID cid : Int) < replicationFactor
    · simp [few, absent]
    · simp [few]

theorem Missing.skip (missing : Missing m replicationFactor nodeID reported deletes seen did s)
    {cid : String} (present : cid ∈ reported) :
    Missing m replicationFactor nodeID reported deletes (seen ++ [cid]) did s where
  nodes := missing.nodes
  chunks other := by
    rw [missing.chunks]
    congr 1
    funext chunk
    by_cases here : other = cid
    · simp [withdrawn, here, present]
    · simp [withdrawn, here]
  sent := missing.sent
  called := by
    rw [missing.called, List.filter_append]
    simp [present]

theorem Missing.round (missing : Missing m replicationFactor nodeID reported deletes seen did s)
    (keys : RegistryKeys m) (sets : ReplicaSets m) {cid : String} (absent : cid ∉ reported)
    (listed : Lists m cid nodeID) (unseen : cid ∉ seen) :
    (Setting.alone (Acts rs)).Ensures (Missing m replicationFactor nodeID reported deletes (seen ++ [cid])) did
      (Script.handleMissingReplica replicationFactor nodeID cid) s := by
  obtain ⟨chunk, found⟩ := lists_registered listed
  rw [lists_found found] at listed
  have still : s.fsm.chunkRegistry.lookup cid = some chunk := by
    rw [missing.chunks, found]
    simp [withdrawn, unseen]
  apply ensures_evict
  intro evictedAt orders answer more nothing uncalled answered
  obtain ⟨after, handled, nodes, _, chunks⟩ := evict_listed orders
    ⟨cid, nodeID, evictedAt, "missing replica during reconciliation"⟩ still listed (sets cid chunk found)
  rw [handled] at answered ⊢
  cases answered
  have evicted : after.chunkRegistry.lookup cid =
      some { chunk with replicas := chunk.replicas.filter (· ≠ nodeID) } := by
    rw [chunks]
    exact Finmap.lookup_insert _
  obtain ⟨live, locations, count, gone⟩ :=
    locations_withdrawn keys (nodes.trans missing.nodes) found evicted
  apply ensures_look
  intro order
  simp only [locations, gone, count, Bool.false_eq_true, if_false]
  by_cases few : (liveBeside m nodeID cid : Int) < replicationFactor
  · rw [if_pos few]
    apply Setting.Ensures.of_act
    intro result after ran
    cases ran with
    | call ran =>
      have kept := schedule_undisturbed ran
      apply Setting.Ensures.of_done
      rw [List.append_assoc, List.append_assoc]
      apply missing.withdraw absent found (kept.nodes.trans nodes) (kept.chunks.trans chunks)
      · simp [sent_append, nothing]
        rfl
      · simp [called_append, uncalled, few]
        rfl
  · rw [if_neg few]
    apply Setting.Ensures.of_done
    rw [List.append_assoc]
    apply missing.withdraw absent found nodes chunks
    · simp [sent_append, nothing]
      rfl
    · simp [called_append, uncalled, few]
      rfl

theorem missingLoop (keys : RegistryKeys m) (sets : ReplicaSets m)
    (fresh : ∀ cid, Lists m cid nodeID ↔ cid ∈ expected) (distinct : expected.Nodup)
    (start : Missing m replicationFactor nodeID reported deletes [] did s) :
    (Setting.alone (Acts rs)).Ensures (Missing m replicationFactor nodeID reported deletes expected) did
      (Prog.forEach (fun cid =>
        if cid ∈ reported then .done
        else Script.handleMissingReplica replicationFactor nodeID cid) expected) s := by
  refine Setting.Ensures.forEachDistinct distinct ?_ ?_ start
  · intro seen did s later same missing
    cases same
    exact missing
  · intro seen cid member unseen did s missing
    by_cases present : cid ∈ reported
    · rw [if_pos present]
      exact Setting.Ensures.of_done (missing.skip present)
    · rw [if_neg present]
      exact missing.round keys sets present ((fresh cid).mpr member) unseen

end Loops

structure Reconciled (rs : RepairScheduler) (replicationFactor : Int) (nodeID addr : String)
    (reported : List String) (s after : System) (did : Log) : Prop where
  listed : ∀ cid, Lists after.fsm cid nodeID ↔ Lists s.fsm cid nodeID ∧ cid ∈ reported
  others : ∀ cid, (replicasOf after.fsm cid).map (List.filter (· ≠ nodeID)) =
    (replicasOf s.fsm cid).map (List.filter (· ≠ nodeID))
  deleted : ∀ call, call ∈ sent did ↔
    ∃ cid, call = (nodeID, addr, cid) ∧ cid ∈ reported ∧ ¬Lists s.fsm cid nodeID
  repaired : ∀ cid, cid ∈ called did ↔ Lists s.fsm cid nodeID ∧ cid ∉ reported ∧
    ((liveIDs after.fsm cid).length : Int) < replicationFactor
  once : (called did).Nodup
  settled : ∀ again, (∀ cid, cid ∈ again ↔ Lists after.fsm cid nodeID) → ∀ more last,
    Alone (Acts rs) (Script.reconcileNode replicationFactor nodeID again) after more last →
      last = after ∧ ∀ entry ∈ more, entry.1 = .inl .look

section Outcome

variable {rs : RepairScheduler} {nodeID : String} {replicationFactor : Int} {s after : System}

theorem reconcile_expected (rs : RepairScheduler) (replicationFactor : Int)
    (keys : ∀ cid chunk, s.fsm.chunkRegistry.lookup cid = some chunk → chunk.chunkID = cid)
    {again : List String} (same : ∀ cid, cid ∈ again ↔ Lists s.fsm cid nodeID) :
    (Setting.alone (Acts rs)).Ensures (fun did last => last = s ∧ ∀ entry ∈ did, entry.1 = .inl .look) []
      (Script.reconcileNode replicationFactor nodeID again) s := by
  have expected (order : MapOrder) (cid : String) :
      cid ∈ s.fsm.getChunksByNode order nodeID ↔ cid ∈ again := by
    rw [mem_getChunksByNode keys, same, Scheduler.Lists, replicasOf]
    cases s.fsm.chunkRegistry.lookup cid <;> simp
  apply ensures_look
  intro order
  cases s.fsm.getNode nodeID with
  | error err =>
    apply Setting.Ensures.of_done
    simp
  | ok node =>
    apply ensures_look
    intro order
    dsimp only
    rw [Prog.forEach_done, Prog.forEach_done]
    · apply Setting.Ensures.of_done
      simp
    · intro cid member
      rw [if_pos ((expected order cid).mp member)]
    · intro cid member
      rw [if_pos ((expected order cid).mpr member)]

section

variable {deletes : List (String × String × String)} {reported expected : List String} {did : Log}

theorem Missing.lists_iff (fresh : ∀ cid, Lists s.fsm cid nodeID ↔ cid ∈ expected)
    (missing : Missing s.fsm replicationFactor nodeID reported deletes expected did after) (cid : String) :
    Lists after.fsm cid nodeID ↔ Lists s.fsm cid nodeID ∧ cid ∈ reported := by
  have chunks := missing.chunks cid
  cases found : s.fsm.chunkRegistry.lookup cid with
  | none => simp [Scheduler.Lists, replicasOf, chunks, found]
  | some chunk =>
    rw [found, Option.map_some] at chunks
    rw [lists_found chunks, lists_found found, withdrawn]
    by_cases kept : cid ∈ reported
    · simp [kept]
    · have known := fresh cid
      rw [lists_found found] at known
      by_cases wanted : cid ∈ expected
      · simp [kept, wanted]
      · simp [kept, wanted, known]

theorem Missing.chunkKeys (keys : RegistryKeys s.fsm)
    (missing : Missing s.fsm replicationFactor nodeID reported deletes expected did after) (cid : String)
    (chunk : ChunkRecord (List String)) (found : after.fsm.chunkRegistry.lookup cid = some chunk) :
    chunk.chunkID = cid := by
  rw [missing.chunks, Option.map_eq_some_iff] at found
  obtain ⟨old, found, rfl⟩ := found
  rw [← keys.chunks cid old found, withdrawn]
  split <;> rfl

end

theorem Missing.reconciled {addr : String} {reported expected : List String} {did : Log}
    (keys : RegistryKeys s.fsm) (fresh : ∀ cid, Lists s.fsm cid nodeID ↔ cid ∈ expected) (distinct : expected.Nodup)
    (missing : Missing s.fsm replicationFactor nodeID reported
      ((reported.filter (· ∉ expected)).map fun cid => (nodeID, addr, cid)) expected did after) :
    Reconciled rs replicationFactor nodeID addr reported s after did where
  listed := missing.lists_iff fresh
  others cid := by
    have chunks := missing.chunks cid
    simp only [replicasOf, chunks, Option.map_map]
    congr 1
    funext chunk
    simp only [Function.comp_apply, withdrawn]
    split
    · rw [List.filter_filter]
      simp
    · rfl
  deleted call := by
    rw [missing.sent]
    simp only [List.mem_map, List.mem_filter, decide_eq_true_eq, fresh]
    constructor
    · intro held
      obtain ⟨cid, ⟨reported, stale⟩, rfl⟩ := held
      exact ⟨cid, rfl, reported, stale⟩
    · intro held
      obtain ⟨cid, rfl, reported, stale⟩ := held
      exact ⟨cid, ⟨reported, stale⟩, rfl⟩
  repaired cid := by
    rw [missing.called]
    simp only [List.mem_filter, decide_eq_true_eq]
    rw [← fresh]
    apply and_congr_right
    intro listed
    apply and_congr_right
    intro absent
    obtain ⟨chunk, found⟩ := lists_registered listed
    have evicted := missing.chunks cid
    rw [found, Option.map_some, withdrawn, if_pos ⟨(fresh cid).mp listed, absent⟩] at evicted
    obtain ⟨live, locations, count, _⟩ := locations_withdrawn keys missing.nodes found evicted
    rw [liveIDs, locations, ← count, List.length_map]
  once := by
    rw [missing.called]
    exact distinct.filter _
  settled again same more last ran := by
    have ended := (reconcile_expected rs replicationFactor (missing.chunkKeys keys) same).run ran
    simpa using ended

theorem synchronous_total (label : Label) (s : System) : ∃ result later, Synchronous label s result later := by
  cases label with
  | propose cmd => exact ⟨_, _, .applied s cmd fun _ => default⟩
  | _ => exact ⟨_, _, .other (by intro cmd same; cases same) (execAt_exec 0 _ s)⟩

/-- Every reconciliation of a registered node ends, and has this outcome. -/
theorem reconcileNode_outcome {history : History} {s : System} (reached : Reached history s.fsm)
    {nodeID : String} {node : NodeEntry} (registered : s.fsm.nodeRegistry.lookup nodeID = some node)
    (rs : RepairScheduler) (replicationFactor : Int) (reported : List String) :
    (∃ log after, Alone Synchronous (reconcileNode rs replicationFactor nodeID reported) s log after) ∧
    (∀ log after, Alone Synchronous (reconcileNode rs replicationFactor nodeID reported) s log after →
      ∃ did, Alone (Acts rs) (Script.reconcileNode replicationFactor nodeID reported) s did after) ∧
    ∀ did after, Alone (Acts rs) (Script.reconcileNode replicationFactor nodeID reported) s did after →
      Reconciled rs replicationFactor nodeID node.address reported s after did := by
  have keys := reached_registryKeys reached
  have sets := reached_replicaSets reached
  refine ⟨Alone.exists_run synchronous_total _ s, ?_, ?_⟩
  · intro log after ran
    rw [← inline_reconcileNode] at ran
    exact ran.of_inline
  · intro did after ran
    have ensured : (Setting.alone (Acts rs)).Ensures
        (fun did after => Reconciled rs replicationFactor nodeID node.address reported s after did) []
        (Script.reconcileNode replicationFactor nodeID reported) s := by
      apply ensures_look
      intro _
      have known : s.fsm.getNode nodeID = .ok node := by simp [getNode, registered]
      rw [known]
      apply ensures_look
      intro order
      have fresh (cid : String) : Lists s.fsm cid nodeID ↔ cid ∈ s.fsm.getChunksByNode order nodeID :=
        (mem_chunksByNode keys order cid nodeID).symm
      apply Setting.Ensures.andThen
      refine (staleLoop fresh node registered rfl rfl rfl).mono ?_
      intro did mid stale
      have start : Missing s.fsm replicationFactor nodeID reported
          ((reported.filter (· ∉ s.fsm.getChunksByNode order nodeID)).map fun cid => (nodeID, node.address, cid))
          [] did mid := by
        refine ⟨by rw [stale.fsm], ?_, stale.sent, stale.called⟩
        intro cid
        have untouched : withdrawn nodeID reported [] cid = id := by
          funext chunk
          simp [withdrawn]
        rw [stale.fsm, untouched, Option.map_id]
        rfl
      have distinct := chunksByNode_nodup keys order nodeID
      refine (missingLoop keys sets fresh distinct start).mono ?_
      intro did after missing
      exact missing.reconciled keys fresh distinct
    exact ensured.run ran

end Outcome

/-- After an upload to `n1`, it reports a chunk that it should not have and misses the one that it should:
    every reconciliation deletes the one and takes `n1` off the other. -/
theorem reconcileNode_outcome_uploaded :
    (∃ log after, Alone Synchronous (reconcileNode twoCopies.scheduler 2 "n1" ["ck-9"]) uploaded.2 log after) ∧
    Lists uploaded.2.fsm "ck-1" "n1" ∧
    ∀ did after, Alone (Acts twoCopies.scheduler) (Script.reconcileNode 2 "n1" ["ck-9"]) uploaded.2 did after →
      ("n1", "10.0.0.1:9000", "ck-9") ∈ sent did ∧ ¬Lists after.fsm "ck-1" "n1" := by
  obtain ⟨_, -, run⟩ := uploaded_reachable
  obtain ⟨history, reached⟩ := reached_fsm twoCopies ⟨[], .empty⟩ run
  have registered : uploaded.2.fsm.nodeRegistry.lookup "n1" =
      some ⟨"n1", "10.0.0.1:9000", .alive, 100000, 0, 0, 0, 0⟩ := by decide +kernel
  obtain ⟨ends, -, outcome⟩ := reconcileNode_outcome reached registered twoCopies.scheduler 2 ["ck-9"]
  have unlisted : ¬Lists uploaded.2.fsm "ck-9" "n1" := by decide +kernel
  refine ⟨ends, by decide +kernel, ?_⟩
  intro did after ran
  have reconciled := outcome did after ran
  refine ⟨(reconciled.deleted _).mpr ⟨"ck-9", rfl, by simp, unlisted⟩, ?_⟩
  intro listed
  simpa using ((reconciled.listed "ck-1").mp listed).2

end DistributedFs.Reconcile
