import DistributedFs.Scheduler.JobIntegrity

namespace DistributedFs.Scheduler

open Go Fsm MetadataFSM Healing Healing.Prog Concurrency

section Due

variable {nodeID jobID chunkID target : String}

structure Due (nodeID jobID chunkID target : String) (s : System) : Prop where
  pending : Pending s nodeID jobID
  node : nodeID ∈ s.fsm.nodeRegistry
  job : ∃ job, s.fsm.repairJobRegistry.lookup jobID = some job ∧ job.jobID = jobID ∧ job.chunkID = chunkID ∧
    job.targetNodeID = target

theorem pending_retire {s : System} {node done : String} (other : ¬(node = nodeID ∧ done = jobID))
    (pending : Pending s nodeID jobID) : Pending (s.retire node done) nodeID jobID := by
  unfold Pending at *
  rw [pendingFor_retire]
  split
  · rename_i same
    have kept : jobID ≠ done := fun here => other ⟨same.symm, here.symm⟩
    exact (List.mem_erase_of_ne kept).mpr pending
  · exact pending

theorem exec_due {label : Label} {s later : System} {result : label.Result} (ran : Exec label s result later)
    (unreported : label ≠ .retire nodeID jobID) (due : Due nodeID jobID chunkID target s) :
    Due nodeID jobID chunkID target later := by
  have step := exec_fsmStep ran
  obtain ⟨job, found, named, chunk, aimed⟩ := due.job
  refine ⟨?_, step.grows.nodes _ due.node, ?_⟩
  · cases ran with
    | publish _ job => exact pending_publish.mpr (.inl due.pending)
    | retire _ node done =>
      refine pending_retire (fun same => unreported ?_) due.pending
      rw [same.1, same.2]
    | enqueue _ queued =>
      unfold System.enqueue
      split
      · exact due.pending
      · exact due.pending
    | _ => exact due.pending
  · rcases step.jobs.kept found with same | ⟨req, -, -, updated⟩
    · exact ⟨job, same, named, chunk, aimed⟩
    · exact ⟨job.updated req, updated, named, chunk, aimed⟩

end Due

def reign (parts : Components) : World System Label Label.Result where
  exec := Exec
  spawn s prog later := SpawnReads parts s prog later ∧ later.pendingJobs = s.pendingJobs

section Heartbeats

variable {nodeID jobID chunkID target : String}

def waiting (nodeID jobID chunkID target : String) : Setting System Label Label.Result where
  exec label s result later := Exec label s result later
  promise _ _ _ _ := True
  rely s t := Due nodeID jobID chunkID target s → Due nodeID jobID chunkID target t
  refl _ := id
  trans first second := second ∘ first

def IsFor (jobID chunkID target : String) (r : Server.RepairInstruction) : Prop :=
  r.jobId = jobID ∧ r.chunkId = chunkID ∧ r.targetNodeId = target

def HandsOut (nodeID jobID chunkID target : String) (did : List ((label : Label) × label.Result)) : Prop :=
  ∃ instructions, ⟨.deliver nodeID instructions, ()⟩ ∈ did ∧ ∃ r ∈ instructions, IsFor jobID chunkID target r

variable {s : System} {did : List ((label : Label) × label.Result)}
  {post : List ((label : Label) × label.Result) → System → Prop}

theorem ensures_act {label : Label} {next : label.Result → Prog} (other : label ≠ .retire nodeID jobID)
    (due : Due nodeID jobID chunkID target s)
    (rest : ∀ t result later, Due nodeID jobID chunkID target t → Exec label t result later →
      Due nodeID jobID chunkID target later →
      (waiting nodeID jobID chunkID target).Ensures post (did ++ [⟨label, result⟩]) (next result) later) :
    (waiting nodeID jobID chunkID target).Ensures post did (act label next) s := by
  intro met others result later ran
  have here := others due
  exact ⟨trivial, rest met result later here ran (exec_due ran other here)⟩

theorem readAddr_ensures {id : String} {next : String → Prog} (due : Due nodeID jobID chunkID target s)
    (rest : ∀ t addr did, Due nodeID jobID chunkID target t →
      (waiting nodeID jobID chunkID target).Ensures post did (next addr) t) :
    (waiting nodeID jobID chunkID target).Ensures post did (readAddr id next) s := by
  unfold readAddr
  split
  · refine ensures_act (by simp) due fun t seen t' _ _ later => ?_
    dsimp only
    cases seen.1.getNode id with
    | error err => exact rest t' "" _ later
    | ok node => exact rest t' node.address _ later
  · exact rest s "" _ due

theorem readInstruction_ensures {id : String} {next : Option Server.RepairInstruction → Prog}
    (due : Due nodeID jobID chunkID target s)
    (rest : ∀ t found did, Due nodeID jobID chunkID target t →
      (id = jobID → ∃ r, found = some r ∧ IsFor jobID chunkID target r) →
      (waiting nodeID jobID chunkID target).Ensures post did (next found) t) :
    (waiting nodeID jobID chunkID target).Ensures post did (readInstruction id next) s := by
  refine ensures_act (by simp) due fun t seen t' here ran later => ?_
  cases ran with
  | look _ order =>
    obtain ⟨job, found, named, chunk, aimed⟩ := here.job
    cases known : t.fsm.repairJobRegistry.lookup id with
    | none =>
      simp only [getRepairJob, known]
      refine rest t none _ later fun same => ?_
      rw [same, found] at known
      cases known
    | some val =>
      dsimp only
      rw [getRepairJob_ok known]
      refine readAddr_ensures later fun u sourceAddr _ first => readAddr_ensures first fun v targetAddr _ second => ?_
      refine rest v _ _ second fun same => ⟨_, rfl, ?_⟩
      rw [same, found] at known
      cases known
      exact ⟨named, chunk, aimed⟩

theorem readInstructions_ensures {next : List Server.RepairInstruction → Prog} (pjobs : List String)
    (ins : List Server.RepairInstruction) (due : Due nodeID jobID chunkID target s)
    (listed : jobID ∈ pjobs ∨ ∃ r ∈ ins, IsFor jobID chunkID target r)
    (rest : ∀ t ins did, Due nodeID jobID chunkID target t → (∃ r ∈ ins, IsFor jobID chunkID target r) →
      (waiting nodeID jobID chunkID target).Ensures post did (next ins) t) :
    (waiting nodeID jobID chunkID target).Ensures post did (readInstructions next pjobs ins) s := by
  induction pjobs generalizing s ins did with
  | nil => exact rest s ins did due (listed.resolve_left (by simp))
  | cons id others ih =>
    refine readInstruction_ensures due fun t found did here mine => ?_
    cases found with
    | none =>
      -- a job that is not on record is another one
      refine ih ins here (listed.imp_left fun member => ?_)
      rcases List.mem_cons.mp member with same | later
      · obtain ⟨r, none, -⟩ := mine same.symm
        cases none
      · exact later
    | some r =>
      refine ih (ins ++ [r]) here ?_
      rcases listed with member | ⟨old, before, fits⟩
      · rcases List.mem_cons.mp member with same | later
        · obtain ⟨r', found, fits⟩ := mine same.symm
          cases found
          exact .inr ⟨r, by simp, fits⟩
        · exact .inl later
      · exact .inr ⟨old, List.mem_append_left _ before, fits⟩

theorem answerReads_ensures (due : Due nodeID jobID chunkID target s) :
    (waiting nodeID jobID chunkID target).Ensures (fun did _ => HandsOut nodeID jobID chunkID target did) did
      (answerReads nodeID) s := by
  refine ensures_act (by simp) due fun t pjobs t' here ran first => ?_
  cases ran with
  | pendingFor =>
    refine readInstructions_ensures _ [] first (.inl here.pending) fun u ins did second fits => ?_
    refine ensures_act (by simp) second fun v _ v' _ _ _ last _ => ?_
    exact ⟨ins, by simp, fits⟩

theorem heartbeatReads_ensures {req : Server.HeartbeatRequest} (count : Nat)
    (due : Due req.nodeId jobID chunkID target s) :
    (waiting req.nodeId jobID chunkID target).Ensures (fun did _ => HandsOut req.nodeId jobID chunkID target did)
      did (heartbeatReads req count) s := by
  refine ensures_act (by simp) due fun t seen t' here ran first => ?_
  cases ran with
  | look _ order =>
    obtain ⟨node, found⟩ := Finmap.mem_iff.mp here.node
    have registered : t.fsm.getNode req.nodeId = .ok node := by simp only [getNode, found]
    dsimp only
    rw [registered]
    refine ensures_act (by simp) first fun u now u' _ _ second => ?_
    refine ensures_act (by simp) second fun v _ v' _ _ third => ?_
    split
    · refine ensures_act (by simp) third fun w then_ w' _ _ fourth => ?_
      exact ensures_act (by simp) fourth fun _ _ _ _ _ fifth => answerReads_ensures fifth
    · exact answerReads_ensures third

end Heartbeats

section Runs

variable {parts : Components} {nodeID jobID chunkID target : String}

theorem reign_due {s later : System} {prog : Prog} (spawned : (reign parts).spawn s prog later)
    (due : Due nodeID jobID chunkID target s) : Due nodeID jobID chunkID target later := by
  obtain ⟨call, same⟩ := spawned
  have fsm := spawnReads_fsm parts call
  refine ⟨?_, by rw [fsm]; exact due.node, by rw [fsm]; exact due.job⟩
  unfold Pending
  rw [same]
  exact due.pending

/-- A job that waits for a node goes on waiting, whatever becomes of it, until this node reports on it or
    another leader takes over, and every heartbeat of the node that returns meanwhile has handed it out. -/
theorem pending_job_redelivered (source : parts.scheduler.sourceStrategy.Sound)
    (target : parts.scheduler.targetStrategy.Sound) {history events : List (Event System Label Label.Result)}
    {c last : Config} (before : Steps (worldReads parts) empty history c) (pending : Pending c.state nodeID jobID)
    (steps : Steps (reign parts) c events last) (unreported : ∀ e ∈ events, e.label ≠ .retire nodeID jobID) :
    ∃ job, c.state.fsm.repairJobRegistry.lookup jobID = some job ∧ Pending last.state nodeID jobID ∧
      ∀ i req count, req.nodeId = nodeID → c.procs[i]? = some (heartbeatReads req count) →
        last.procs[i]? = some .done → ∃ e ∈ events, e.proc = i ∧ ∃ instructions,
          e.label = .deliver nodeID instructions ∧
            ∃ r ∈ instructions, IsFor jobID job.chunkID job.targetNodeID r := by
  obtain ⟨kept, -⟩ := run_bookkept source target (fun _ => True) before fun _ _ => trivial
  obtain ⟨onRecord, registered⟩ := kept.pending nodeID jobID pending
  obtain ⟨job, found⟩ := Finmap.mem_iff.mp onRecord
  have due : Due nodeID jobID job.chunkID job.targetNodeID c.state :=
    ⟨pending, registered, job, found, (kept.jobs jobID job found).named, rfl, rfl⟩
  have stays : ∀ e ∈ events, Due nodeID jobID job.chunkID job.targetNodeID e.before →
      Due nodeID jobID job.chunkID job.targetNodeID e.after :=
    fun e member => exec_due (steps.exec e member) (unreported e member)
  refine ⟨job, found, ?_, ?_⟩
  · exact (steps.stable reign_due stays due).pending
  · intro i req count here running ended
    subst here
    obtain ⟨instructions, handed, content⟩ := (heartbeatReads_ensures count due).finished running steps ended
      (fun e member _ => steps.exec e member) (fun e member _ => stays e member)
      (fun _ _ _ spawned => reign_due spawned)
    obtain ⟨e, own, same⟩ := List.mem_map.mp handed
    obtain ⟨member, proc⟩ := List.mem_filter.mp own
    refine ⟨e, member, by simpa using proc, instructions, ?_, content⟩
    exact congrArg Sigma.fst same

end Runs

theorem executed_pending : Pending executed.2 "n1" "job-" := by
  unfold Pending
  decide +kernel

theorem handedOut_unreported : ∀ x ∈ handedOut.1, x.2 ≠ .retire "n1" "job-" := by
  have none : ∀ x ∈ handedOut.1, (match x.2 with | .retire .. => false | _ => true) = true := by decide +kernel
  intro x member same
  have here := none x member
  rw [same] at here
  cases here

theorem pending_job_redelivered_handedOut :
    ∃ c last events, Pending c.state "n1" "job-" ∧ Steps (reign twoCopies) c events last ∧
      last.state = handedOut.2 ∧ Pending last.state "n1" "job-" ∧ ∃ e ∈ events, ∃ instructions,
        e.label = .deliver "n1" instructions ∧ ∃ r ∈ instructions, r.jobId = "job-" := by
  obtain ⟨procs, -, reached⟩ := executed_reachable
  obtain ⟨history, before⟩ := reached.steps
  have spawned := (steps_reads twoCopies before).spawn _ _ (.heartbeat _ ⟨"n1", 900, 1⟩ 1)
  let c : Config := ⟨executed.2, procs ++ [heartbeatReads ⟨"n1", 900, 1⟩ 1]⟩
  have running : c.procs[procs.length]? = some (heartbeatReads ⟨"n1", 900, 1⟩ 1) := List.getElem?_concat_length
  have start : Steps (reign twoCopies) c [] c := .refl
  obtain ⟨events, later, steps, ended, trace, -⟩ := start.runAlone (execFresh_exec 7) _ running
  have unreported : ∀ e ∈ events, e.label ≠ .retire "n1" "job-" := by
    intro e member
    have listed : (e.before, e.label) ∈ handedOut.1 := by
      unfold handedOut alone
      rw [← trace]
      exact List.mem_map_of_mem member
    exact handedOut_unreported _ listed
  obtain ⟨job, -, still, handed⟩ := pending_job_redelivered (Placement.leastLoadedStrategy_sound _)
    (Placement.mostFreeSpaceStrategy_sound _) spawned executed_pending steps unreported
  obtain ⟨e, member, -, instructions, label, r, listed, forJob⟩ := handed _ _ _ rfl running ended
  exact ⟨c, _, events, executed_pending, steps, rfl, still, e, member, instructions, label, r, listed, forJob.1⟩

end DistributedFs.Scheduler
