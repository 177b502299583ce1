import DistributedFs.Concurrency.RelyGuarantee
import DistributedFs.Scheduler.Runs

namespace DistributedFs.Scheduler

open Go Fsm MetadataFSM Healing Healing.Prog Concurrency

def SameTask (m : FSM) (jobID : String) (job : RepairJob) : Prop :=
  ∃ now, m.repairJobRegistry.lookup jobID = some now ∧ now.chunkID = job.chunkID ∧
    now.targetNodeID = job.targetNodeID ∧ now.deleteSource = job.deleteSource

theorem JobStep.sameTask {m after : FSM} {label : Label} (step : JobStep m label after) {jobID : String}
    {job : RepairJob} (task : SameTask m jobID job) : SameTask after jobID job := by
  obtain ⟨now, found, same⟩ := task
  rcases step.kept found with unchanged | ⟨req, _, _, later⟩
  · exact ⟨now, unchanged, same⟩
  · exact ⟨now.updated req, later, same⟩

def Adds : Label → Prop
  | .propose (.addChunkReplica _) => True
  | _ => False

def Evicts (chunkID nodeID : String) : Label → Prop
  | .propose (.evictChunkFromNode req) => req.chunkID = chunkID ∧ req.nodeID = nodeID
  | _ => False

def Unlists (chunkID nodeID : String) : Label → Prop
  | .propose (.commitChunk req) => req.chunkID = chunkID
  | label => Evicts chunkID nodeID label

def Relists (chunkID nodeID : String) : Label → Prop
  | .propose (.commitChunk req) => req.chunkID = chunkID
  | .propose (.addChunkReplica req) => req.chunkID = chunkID ∧ req.nodeID = nodeID
  | _ => False

theorem lists_created (m : FSM) (req : CommandCreateFile) (fresh : ∀ cid ∈ req.chunkIDs, cid ∉ m.chunkRegistry)
    (chunkID nodeID : String) :
    Lists { m with
      chunkRegistry := insertChunks m.chunkRegistry (chunkStubs req)
      fileIndex := m.fileIndex.insert req.fileID (MetadataFSM.newFile req) } chunkID nodeID ↔
      Lists m chunkID nodeID := by
  rcases lookup_created m req chunkID with ⟨index, member, stub⟩ | ⟨_, same⟩
  · have absent : m.chunkRegistry.lookup chunkID = none := Finmap.lookup_eq_none.mpr
      (fresh chunkID (List.mem_of_getElem? member))
    simp only [Lists, replicasOf, stub, absent]
    exact ⟨fun listed => (List.not_mem_nil listed).elim, fun listed => (List.not_mem_nil listed).elim⟩
  · simp only [Lists, replicasOf]
    rw [same]

theorem step_lists {m after : FSM} {orders : Nat → MapOrder} {cmd : Command} {result : Option GoError}
    (step : Step m orders cmd after result) (chunkID nodeID : String) :
    (Lists m chunkID nodeID → Lists after chunkID nodeID ∨ Unlists chunkID nodeID (.propose cmd)) ∧
      (Lists after chunkID nodeID → Lists m chunkID nodeID ∨ Relists chunkID nodeID (.propose cmd)) := by
  have same (iff : Lists after chunkID nodeID ↔ Lists m chunkID nodeID) :
      (Lists m chunkID nodeID → Lists after chunkID nodeID ∨ Unlists chunkID nodeID (.propose cmd)) ∧
        (Lists after chunkID nodeID → Lists m chunkID nodeID ∨ Relists chunkID nodeID (.propose cmd)) :=
    ⟨fun listed => .inl (iff.mpr listed), fun listed => .inl (iff.mp listed)⟩
  have edited {cid : String} {chunk later : ChunkRecord (List String)}
      (found : m.chunkRegistry.lookup cid = some chunk)
      (kept : chunkID = cid → (nodeID ∈ later.replicas ↔ nodeID ∈ chunk.replicas)) :
      Lists (m.setChunk cid later) chunkID nodeID ↔ Lists m chunkID nodeID := by
    rw [lists_setChunk]
    split
    · rename_i here
      subst here
      rw [lists_found found]
      exact kept rfl
    · rfl
  cases step with
  | failed | alreadyListed | nodes | jobs | mdNodes | commitFile | deleteFile => exact same Iff.rfl
  | createFile req newID fresh => exact same (lists_created m req fresh chunkID nodeID)
  | commitChunk req chunk found guard =>
    by_cases here : req.chunkID = chunkID
    · exact ⟨fun _ => .inr here, fun _ => .inr here⟩
    · exact same (edited found fun there => absurd there.symm here)
  | evict req chunk idx found listed =>
    by_cases pair : req.chunkID = chunkID ∧ req.nodeID = nodeID
    · refine ⟨fun _ => .inr pair, fun left => .inl ?_⟩
      obtain ⟨rfl, rfl⟩ := pair
      exact (lists_found found _).mpr (mem_of_findIdx? listed)
    · refine same (edited found ?_)
      intro here
      have apart : nodeID ≠ req.nodeID := fun equal => pair ⟨here.symm, equal.symm⟩
      exact ⟨fun member => List.mem_of_mem_eraseIdx member, fun member => mem_eraseIdx_of_ne listed member apart⟩
  | markLost req chunk found => exact same (edited found fun _ => Iff.rfl)
  | addReplica req chunk found absent =>
    by_cases pair : req.chunkID = chunkID ∧ req.nodeID = nodeID
    · refine ⟨fun listed => ?_, fun _ => .inr pair⟩
      obtain ⟨rfl, rfl⟩ := pair
      exact absurd ((lists_found found _).mp listed) absent
    · refine same (edited found ?_)
      intro here
      have apart : nodeID ≠ req.nodeID := fun equal => pair ⟨here.symm, equal.symm⟩
      simp [apart]

theorem exec_lists {label : Label} {s later : System} {result : label.Result} (ran : Exec label s result later)
    (chunkID nodeID : String) :
    (Lists s.fsm chunkID nodeID → Lists later.fsm chunkID nodeID ∨ Unlists chunkID nodeID label) ∧
      (Lists later.fsm chunkID nodeID → Lists s.fsm chunkID nodeID ∨ Relists chunkID nodeID label) := by
  have step := exec_fsmStep ran
  generalize later.fsm = after at step
  cases step with
  | command cmd orders => exact step_lists (handle_step s.fsm orders cmd) chunkID nodeID
  | seen node ts =>
    obtain ⟨registry, same⟩ := s.fsm.updateLastSeen_nodes_only node ts
    rw [same]
    exact ⟨.inl, .inl⟩
  | same => exact ⟨.inl, .inl⟩

theorem exec_evicts {label : Label} {s later : System} {result : label.Result} (ran : Exec label s result later)
    (sets : ReplicaSets s.fsm) {chunkID nodeID : String} (evicts : Evicts chunkID nodeID label)
    (effective : later.fsm ≠ s.fsm) : ¬Lists later.fsm chunkID nodeID := by
  have step := exec_fsmStep ran
  generalize later.fsm = after at step effective
  cases step with
  | command cmd orders =>
    cases cmd with
    | evictChunkFromNode req =>
      obtain ⟨rfl, rfl⟩ := evicts
      simp only [handle, handleCmdEvictChunkFromNode] at effective ⊢
      cases read : s.fsm.getChunk req.chunkID with
      | error err => simp [read] at effective
      | ok chunk =>
        cases listed : chunk.replicas.findIdx? (· = req.nodeID) with
        | none => simp [read, listed] at effective
        | some idx =>
          have distinct := sets _ chunk ((getChunk_ok s.fsm).mp read)
          simp only [listed]
          rw [lists_setChunk, if_pos rfl, eraseIdx_eq_filter distinct listed]
          simp
    | _ => cases evicts
  | seen => cases evicts
  | same => exact absurd rfl effective

/-- Among others that do as they like, the process that handles a success report touches no
    replica list but by adding the target of the job to its chunk. -/
def reporting (jobID : String) (job : RepairJob) : Setting System Label Label.Result where
  exec := Exec
  promise label s _ after :=
    (after.fsm.chunkRegistry = s.fsm.chunkRegistry ∧ ¬Adds label) ∨
      label = .propose (.addChunkReplica ⟨job.chunkID, job.targetNodeID⟩)
  rely s later := SameTask s.fsm jobID job → SameTask later.fsm jobID job
  refl _ := id
  trans first second := second ∘ first

theorem exec_sameTask {label : Label} {s later : System} {result : label.Result}
    (ran : Exec label s result later) {jobID : String} {job : RepairJob} :
    SameTask s.fsm jobID job → SameTask later.fsm jobID job :=
  (exec_fsmStep ran).jobs.sameTask

theorem reporting_onJobComplete {jobID : String} {job : RepairJob} (copies : job.deleteSource = false)
    (rs : RepairScheduler) (nodeID : String) {s : System} (task : SameTask s.fsm jobID job)
    (did : List ((label : Label) × label.Result)) :
    (reporting jobID job).Ensures (fun _ _ => True) did (onJobComplete rs nodeID jobID true) s := by
  intro met others _ after ran
  have task := exec_sameTask ran (others task)
  cases ran
  refine ⟨.inl ⟨by rw [retire_fsm], id⟩, ?_⟩
  intro met others seen after ran
  obtain ⟨now, found, chunk, target, direction⟩ := others task
  cases ran
  refine ⟨.inl ⟨rfl, id⟩, ?_⟩
  simp only [getRepairJob_ok found, if_true, direction, copies, Bool.false_eq_true, if_false]
  intro met others answer after ran
  refine ⟨.inr ?_, fun _ _ => trivial⟩
  rw [chunk, target]

theorem reporting_reportRepairResult {jobID : String} {job : RepairJob} (copies : job.deleteSource = false)
    (parts : Components) (nodeID : String) {s : System} (task : SameTask s.fsm jobID job) :
    (reporting jobID job).Ensures (fun _ _ => True) [] (reportRepairResult parts nodeID jobID true) s := by
  intro met others now after ran
  have task := exec_sameTask ran (others task)
  cases ran
  refine ⟨.inl ⟨rfl, id⟩, ?_⟩
  intro met others answer after ran
  have task := exec_sameTask ran (others task)
  refine ⟨.inl ⟨(exec_jobCommand rfl ran).1, id⟩, ?_⟩
  cases answer with
  | some err => exact fun _ _ => trivial
  | none => exact reporting_onJobComplete copies parts.scheduler nodeID task _

theorem steps_reporting {parts : Components} {c last : Config} {events : List (Event System Label Label.Result)}
    (steps : Steps (world parts) c events last) {jobID : String} {job : RepairJob}
    (task : SameTask c.state.fsm jobID job) (copies : job.deleteSource = false) {i : Nat} {nodeID : String}
    (running : c.procs[i]? = some (reportRepairResult parts nodeID jobID true))
    (e : Event System Label Label.Result) (member : e ∈ events) (mine : e.proc = i) :
    (e.after.fsm.chunkRegistry = e.before.fsm.chunkRegistry ∧ ¬Adds e.label) ∨
      e.label = .propose (.addChunkReplica ⟨job.chunkID, job.targetNodeID⟩) := by
  refine ((reporting_reportRepairResult copies parts nodeID task).steps running steps ?_ ?_ ?_).1 e member mine
  · exact fun e member _ => steps.exec e member
  · exact fun e member _ => exec_sameTask (steps.exec e member)
  · exact fun s prog later spawned task => (spawn_fsm parts spawned).symm ▸ task

theorem steps_sameTask {parts : Components} {c last : Config} {events : List (Event System Label Label.Result)}
    (steps : Steps (world parts) c events last) {jobID : String} {job : RepairJob}
    (task : SameTask c.state.fsm jobID job) : SameTask last.state.fsm jobID job := by
  refine steps.stable (P := fun s => SameTask s.fsm jobID job) ?_ ?_ task
  · exact fun spawned task => (spawn_fsm parts spawned).symm ▸ task
  · exact fun e member task => exec_sameTask (steps.exec e member) task

section Between

variable {parts : Components} {c last : Config} {pre between post : List (Event System Label Label.Result)}
variable {earlier e : Event System Label Label.Result} {chunkID nodeID : String}

theorem listed_between (steps : Steps (world parts) c (pre ++ earlier :: (between ++ e :: post)) last)
    (kept : ∀ x ∈ between, Unlists chunkID nodeID x.label → x.after.fsm = x.before.fsm)
    (listed : Lists earlier.after.fsm chunkID nodeID) : Lists e.before.fsm chunkID nodeID := by
  refine steps.between (P := fun s => Lists s.fsm chunkID nodeID) ?_ ?_ listed
  · exact fun spawned listed => (spawn_fsm parts spawned).symm ▸ listed
  · intro x member listed
    rcases (exec_lists (steps.exec x (by simp [member])) _ _).1 listed with listed | unlists
    · exact listed
    · exact (kept x member unlists).symm ▸ listed

theorem unlisted_between (steps : Steps (world parts) c (pre ++ earlier :: (between ++ e :: post)) last)
    (unlisted : ∀ x ∈ between, ¬Relists chunkID nodeID x.label)
    (absent : ¬Lists earlier.after.fsm chunkID nodeID) : ¬Lists e.before.fsm chunkID nodeID := by
  refine steps.between (P := fun s => ¬Lists s.fsm chunkID nodeID) ?_ ?_ absent
  · exact fun spawned absent => (spawn_fsm parts spawned).symm ▸ absent
  · intro x member absent listed
    rcases (exec_lists (steps.exec x (by simp [member])) _ _).2 listed with before | relists
    · exact absent before
    · exact unlisted x member relists

end Between

theorem addReplica_accepted {req : CommandAddChunkReplica} {s later : System} {answer : Option GoError}
    (ran : Exec (.propose (.addChunkReplica req)) s answer later) (nil : answer = none) :
    Lists later.fsm req.chunkID req.nodeID := by
  obtain ⟨orders, accepted, rfl⟩ := ran.accepted nil
  simp only [handle, handleCmdAddChunkReplica] at accepted ⊢
  cases read : s.fsm.getChunk req.chunkID with
  | error err =>
    rw [read] at accepted
    cases accepted
  | ok chunk =>
    dsimp only
    split
    · rename_i listed
      exact (lists_found ((getChunk_ok s.fsm).mp read) _).mpr listed
    · rw [lists_setChunk, if_pos rfl]
      simp

theorem event_accepted {e : Event System Label Label.Result} {req : CommandAddChunkReplica}
    (ran : Exec e.label e.before e.result e.after) (adds : e.label = .propose (.addChunkReplica req))
    (accepted : Answered e.label e.result) : Lists e.after.fsm req.chunkID req.nodeID := by
  obtain ⟨proc, before, label, result, after⟩ := e
  dsimp only at adds ran accepted ⊢
  subst adds
  exact addReplica_accepted ran accepted

theorem addReplica_listed {req : CommandAddChunkReplica} {s later : System} {answer : Option GoError}
    (ran : Exec (.propose (.addChunkReplica req)) s answer later)
    (listed : Lists s.fsm req.chunkID req.nodeID) : later.fsm = s.fsm := by
  have same (orders : Nat → MapOrder) : (s.fsm.handle orders (.addChunkReplica req)).1 = s.fsm := by
    simp only [handle, handleCmdAddChunkReplica]
    cases read : s.fsm.getChunk req.chunkID with
    | error err => rfl
    | ok chunk =>
      have member := (lists_found ((getChunk_ok s.fsm).mp read) _).mp listed
      simp only [member, if_true]
  cases ran with
  | applied _ _ orders | unconfirmed _ _ orders => exact same orders
  | refused => rfl

/-- Two success reports for one job in one run, the second one delayed at will. Once the first
    one's target was added, no action of the second one changes the replica list, unless the
    target was evicted or the chunk committed anew in between; and it brings an evicted target
    back that nothing else has listed since. -/
theorem report_takes_effect_once {parts : Components} {c mid last : Config}
    {earlier events : List (Event System Label Label.Result)} (first : Steps (world parts) c earlier mid)
    (second : Steps (world parts) mid events last) (reached : ∃ history, Reached history c.state.fsm)
    {jobID : String} {job : RepairJob} (found : c.state.fsm.repairJobRegistry.lookup jobID = some job)
    (copies : job.deleteSource = false) {i j : Nat} {nodeID reporter : String}
    (report : c.procs[i]? = some (reportRepairResult parts nodeID jobID true))
    (again : mid.procs[j]? = some (reportRepairResult parts reporter jobID true))
    {sofar post pre between : List (Event System Label Label.Result)}
    {e added : Event System Label Label.Result} (now : events = sofar ++ e :: post) (own : e.proc = j)
    (order : earlier ++ sofar = pre ++ added :: between) (mine : added.proc = i) (adds : Adds added.label)
    (accepted : Answered added.label added.result) :
    ((∀ x ∈ between, Unlists job.chunkID job.targetNodeID x.label → x.after.fsm = x.before.fsm) →
      replicasOf e.after.fsm job.chunkID = replicasOf e.before.fsm job.chunkID) ∧
    (∀ older newer evicted, between = older ++ evicted :: newer →
      Evicts job.chunkID job.targetNodeID evicted.label → evicted.after.fsm ≠ evicted.before.fsm →
      (∀ x ∈ newer, ¬Relists job.chunkID job.targetNodeID x.label) →
      Adds e.label → Answered e.label e.result →
        ¬Lists e.before.fsm job.chunkID job.targetNodeID ∧ Lists e.after.fsm job.chunkID job.targetNodeID) := by
  have task : SameTask c.state.fsm jobID job := ⟨job, found, rfl, rfl, rfl⟩
  have steps := first.append second
  have whole : earlier ++ events = pre ++ added :: (between ++ e :: post) := by
    rw [now, ← List.append_assoc, order]
    simp
  rw [whole] at steps
  have ran := steps.exec
  have kind := steps_reporting second (steps_sameTask first task) copies again e (by simp [now]) own
  have did := ran e (by simp)
  constructor
  · intro kept
    have listed : Lists added.after.fsm job.chunkID job.targetNodeID := by
      rcases steps_reporting steps task copies report added (by simp) mine with ⟨_, other⟩ | same
      · exact absurd adds other
      · exact event_accepted (ran added (by simp)) same accepted
    have still := listed_between steps kept listed
    rcases kind with ⟨same, _⟩ | same
    · simp only [replicasOf]
      rw [same]
    · obtain ⟨proc, before, label, result, after⟩ := e
      dsimp only at same did ⊢
      subst same
      rw [addReplica_listed did still]
  · intro older newer evicted split evicts effective unlisted readds answered
    rcases kind with ⟨_, other⟩ | same
    · exact absurd readds other
    · refine ⟨?_, event_accepted did same answered⟩
      obtain ⟨history, known⟩ := (steps_reached parts steps reached).2 evicted (by simp [split])
      have absent := exec_evicts (ran evicted (by simp [split])) (reached_replicaSets known) evicts effective
      have apart : pre ++ added :: (between ++ e :: post) =
          (pre ++ added :: older) ++ evicted :: (newer ++ e :: post) := by simp [split]
      rw [apart] at steps
      exact unlisted_between steps unlisted absent

def declaredDead : System := (alone 20 (propose (.markNodeDead ⟨"n2", 20⟩) fun _ => done) confirmed.2).2

def evicted : System := (alone 21 (triggerRepair twoCopies.scheduler "n2") declaredDead).2

def reportedAgain : System := (alone 30 (reportRepairResult twoCopies "n1" "job-" true) evicted).2

theorem evicted_target_returns :
    ∃ procs mid late events more, Reachable (world twoCopies) empty ⟨confirmed.2, procs⟩ ∧
      replicasOf confirmed.2.fsm "ck-1" = some ["n1", "n2"] ∧
      Steps (world twoCopies) ⟨confirmed.2, procs⟩ events ⟨evicted, mid⟩ ∧
      (∃ job, evicted.fsm.repairJobRegistry.lookup "job-" = some job ∧ job.status = .done ∧
        job.targetNodeID = "n2" ∧ job.deleteSource = false) ∧
      replicasOf evicted.fsm "ck-1" = some ["n1"] ∧
      Steps (world twoCopies) ⟨evicted, mid⟩ more ⟨reportedAgain, late⟩ ∧
      replicasOf reportedAgain.fsm "ck-1" = some ["n1", "n2"] := by
  obtain ⟨procs, _, reached⟩ := confirmed_reachable
  have start : Steps (world twoCopies) ⟨confirmed.2, procs⟩ [] ⟨confirmed.2, procs⟩ := .refl
  obtain ⟨_, others, dead, _⟩ := start.call (execFresh_exec 20) (.command _ (.markNodeDead ⟨"n2", 20⟩) rfl)
  obtain ⟨_, mid, out, _⟩ := dead.call (execFresh_exec 21) (.triggerRepair _ "n2")
  have begun : Steps (world twoCopies) ⟨evicted, mid⟩ [] ⟨evicted, mid⟩ := .refl
  obtain ⟨more, late, again, _⟩ := begun.call (execFresh_exec 30)
    (.component (.reportRepairResult _ "n1" "job-" true))
  refine ⟨procs, mid, late, _, _, reached, by decide, out, ?_, by decide, again, by decide⟩
  exact ⟨⟨"job-", "ck-1", "", false, "n1", "n2", .done, 0, 3, 6⟩, by decide, rfl, rfl, rfl⟩

instance (label : Label) : Decidable (Adds label) :=
  decidable_of_iff ((match label with
    | .propose (.addChunkReplica _) => true
    | _ => false) = true) (by unfold Adds; split <;> simp)

instance (chunkID nodeID : String) (label : Label) : Decidable (Unlists chunkID nodeID label) :=
  decidable_of_iff ((match label with
    | .propose (.commitChunk req) => decide (req.chunkID = chunkID)
    | .propose (.evictChunkFromNode req) => decide (req.chunkID = chunkID ∧ req.nodeID = nodeID)
    | _ => false) = true) (by unfold Unlists Evicts; split <;> simp)

def firstReport : Config := ⟨executed.2, [reportRepairResult twoCopies "n1" "job-" true]⟩

def corrupted : List (System × Label) × System := alone 8 (reportCorruption twoCopies "ck-1" "n1") confirmed.2

def repeated : List (System × Label) × System :=
  alone 9 (reportRepairResult twoCopies "n1" "job-" true) corrupted.2

theorem report_takes_effect_once_repeated :
    ∃ earlier events mid last, Steps (world twoCopies) firstReport earlier mid ∧
      replicasOf mid.state.fsm "ck-1" = some ["n2"] ∧ Steps (world twoCopies) mid events last ∧ events ≠ [] ∧
      ∀ e ∈ events, replicasOf e.after.fsm "ck-1" = replicasOf e.before.fsm "ck-1" := by
  have adds : ∃ x ∈ confirmed.1, Adds x.2 ∧ Answered x.2 (execFresh 6 x.2 x.1).1 := by decide
  have kept : ∀ x ∈ confirmed.1 ++ corrupted.1 ++ repeated.1, ¬Unlists "ck-1" "n2" x.2 := by decide
  have left : replicasOf corrupted.2.fsm "ck-1" = some ["n2"] := by decide
  have acts : repeated.1 ≠ [] := by decide
  have stored : firstReport.state.fsm.repairJobRegistry.lookup "job-" =
    some ⟨"job-", "ck-1", "", false, "n1", "n2", .inProgress, 0, 3, 5⟩ := by decide
  obtain ⟨first, procs, handled, _, trace, own⟩ :=
    alone_steps twoCopies 6 (reportRepairResult twoCopies "n1" "job-" true) executed.2
  obtain ⟨found, others, checked, trace', _⟩ :=
    handled.call (execFresh_exec 8) (.reportCorruption _ "ck-1" "n1")
  let mid : Config := ⟨corrupted.2, others ++ [reportRepairResult twoCopies "n1" "job-" true]⟩
  have spawned : Steps (world twoCopies) firstReport (first ++ found) mid :=
    checked.spawn _ _ (.component (.reportRepairResult _ "n1" "job-" true))
  have begun : Steps (world twoCopies) mid [] mid := .refl
  have running : mid.procs[others.length]? = some (reportRepairResult twoCopies "n1" "job-" true) := by
    simp [mid]
  obtain ⟨events, late, again, _, trace'', own'⟩ := begun.runAlone (execFresh_exec 9) _ running
  have trace : (first.map fun e => (e.before, e.label)) = confirmed.1 := trace
  have trace' : (found.map fun e => (e.before, e.label)) = corrupted.1 := trace'
  have trace'' : (events.map fun e => (e.before, e.label)) = repeated.1 := trace''
  refine ⟨first ++ found, events, mid, _, spawned, left, again, ?_, ?_⟩
  · rintro rfl
    exact acts trace''.symm
  · obtain ⟨x, member, adds, accepted⟩ := adds
    rw [← trace] at member
    obtain ⟨added, inside, rfl⟩ := List.mem_map.mp member
    obtain ⟨pre, rest, split⟩ := List.append_of_mem inside
    obtain ⟨mine, result, _⟩ := own added inside
    have reached : ∃ history, Reached history executed.2.fsm := by
      obtain ⟨_, _, reached⟩ := executed_reachable
      exact reached_fsm twoCopies ⟨[], .empty⟩ reached
    intro e member
    obtain ⟨sofar, post, now⟩ := List.append_of_mem member
    have order : first ++ found ++ sofar = pre ++ added :: (rest ++ found ++ sofar) := by simp [split]
    have once := report_takes_effect_once spawned again reached stored rfl rfl running now (own' e member).1
      order mine adds (result ▸ accepted)
    refine once.1 ?_
    intro x between unlists
    refine absurd unlists (kept (x.before, x.label) ?_)
    rw [← trace, ← trace', ← trace'', ← List.map_append, ← List.map_append]
    refine List.mem_map_of_mem ?_
    simp only [split, now, List.mem_append, List.mem_cons] at between ⊢
    tauto

end DistributedFs.Scheduler
