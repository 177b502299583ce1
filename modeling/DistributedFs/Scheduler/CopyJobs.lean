import DistributedFs.Concurrency.Alone
import DistributedFs.Scheduler.Reports

namespace DistributedFs.Scheduler

open Go Fsm MetadataFSM Healing Healing.Prog Reconcile Concurrency
open Concurrency.Protocol (Follows only)

def Copying : Label → Prop
  | .propose (.createRepairJob req) => req.deleteSource = false
  | _ => True

theorem copying_routine (label : Label) (routine : Routine label) (stage : Unit) :
    (only Copying : Concurrency.Protocol Unit Label Label.Result).allowed stage label := by
  cases label with
  | propose cmd =>
    cases cmd with
    | createRepairJob => exact routine.elim
    | _ => trivial
  | _ => trivial

theorem spawn_copying (parts : Components) {s later : System} {prog : Prog} (spawned : Spawn parts s prog later) :
    (only Copying).Follows () prog :=
  spawn_only parts (fun label routine => copying_routine label routine ()) (fun _ => trivial) (fun _ => trivial)
    (fun _ copies => copies) (fun _ _ => trivial) spawned

def CopiesOnly (m : FSM) : Prop :=
  ∀ jobID job, m.repairJobRegistry.lookup jobID = some job → job.deleteSource = false

theorem JobStep.copiesOnly {m after : FSM} {label : Label} (step : JobStep m label after)
    (copying : Copying label) (copies : CopiesOnly m) : CopiesOnly after := by
  intro jobID job found
  rcases step.origin found with older | ⟨req, rfl, _, rfl⟩ | ⟨req, old, _, _, older, rfl⟩
  · exact copies jobID job older
  · exact copying
  · exact copies jobID old older

structure Copied (c : Config) : Prop where
  jobs : CopiesOnly c.state.fsm
  procs : ∀ (i : Nat) prog, c.procs[i]? = some prog → (only Copying).Follows () prog

namespace Copied

variable {parts : Components} {c : Config}

theorem spawn (inv : Copied c) {prog : Prog} {later : System} (spawned : Spawn parts c.state prog later) :
    Copied ⟨later, c.procs ++ [prog]⟩ where
  jobs := by
    rw [CopiesOnly, spawn_fsm parts spawned]
    exact inv.jobs
  procs i other running := by
    rcases getElem?_spawned running with rfl | older
    · exact spawn_copying parts spawned
    · exact inv.procs i other older

theorem act (inv : Copied c) {i : Nat} {label : Label} {next : label.Result → Prog} {result : label.Result}
    {later : System} (running : c.procs[i]? = some (.act label next)) (ran : Exec label c.state result later) :
    Copied ⟨later, c.procs.set i (next result)⟩ := by
  obtain ⟨copying, rest⟩ := inv.procs i _ running
  refine ⟨(exec_fsmStep ran).jobs.copiesOnly copying inv.jobs, ?_⟩
  intro j other runs
  rcases getElem?_set_cases runs with ⟨_, rfl⟩ | ⟨_, older⟩
  · exact rest result () trivial
  · exact inv.procs j other older

theorem empty : Copied Scheduler.empty where
  jobs jobID job found := by cases found
  procs i prog running := by cases running

theorem run {start : Config} (reached : Reachable (world parts) start c) (inv : Copied start) : Copied c := by
  induction reached with
  | start => exact inv
  | spawn _ prog later allowed ih => exact ih.spawn allowed
  | act _ i label next running _ result later ran ih => exact ih.act running ran

theorem steps {last : Config} {events : List (Event System Label Label.Result)}
    (steps : Steps (world parts) c events last) (inv : Copied c) :
    Copied last ∧ ∀ e ∈ events, CopiesOnly e.before.fsm ∧ Copying e.label := by
  induction steps with
  | refl => exact ⟨inv, by simp⟩
  | spawn _ prog later allowed ih => exact ⟨ih.1.spawn allowed, ih.2⟩
  | act _ i label next running result later ran ih =>
    refine ⟨ih.1.act running ran, ?_⟩
    intro e member
    rcases List.mem_append.mp member with older | here
    · exact ih.2 e older
    · cases List.mem_singleton.mp here
      exact ⟨ih.1.jobs, (ih.1.procs i _ running).1⟩

end Copied

def Adding : Label → Prop
  | .propose (.addChunkReplica _) | .propose (.createRepairJob _) | .propose (.updateRepairJob _) => True
  | .propose _ => False
  | _ => True

theorem adding_scheduling {label : Label} (scheduling : Scheduling label) : Adding label := by
  cases label with
  | propose cmd =>
    cases cmd with
    | createRepairJob => trivial
    | _ => exact scheduling.elim
  | _ => trivial

theorem addChunkReplica_lists (m : FSM) (orders : Nat → MapOrder) (req : CommandAddChunkReplica)
    {chunkID nodeID : String} (listed : Lists m chunkID nodeID) :
    Lists (m.handle orders (.addChunkReplica req)).1 chunkID nodeID := by
  simp only [handle, handleCmdAddChunkReplica]
  cases read : m.getChunk req.chunkID with
  | error err => exact listed
  | ok chunk =>
    dsimp only
    split
    · exact listed
    · rw [lists_setChunk]
      split
      · rename_i here
        subst here
        exact List.mem_append_left _ ((lists_found ((getChunk_ok m).mp read) nodeID).mp listed)
      · exact listed

theorem Adding.lists {label : Label} (adding : Adding label) {s later : System} {result : label.Result}
    (ran : Exec label s result later) {chunkID nodeID : String} (listed : Lists s.fsm chunkID nodeID) :
    Lists later.fsm chunkID nodeID := by
  have step := exec_fsmStep ran
  generalize later.fsm = after at step
  cases step with
  | command cmd orders =>
    cases cmd with
    | addChunkReplica req => exact addChunkReplica_lists _ _ _ listed
    | createRepairJob req =>
      obtain ⟨registry, same⟩ := jobCommand_frame (show jobCommand (.createRepairJob req) = true from rfl) s.fsm orders
      rw [same]
      exact listed
    | updateRepairJob req =>
      obtain ⟨registry, same⟩ := jobCommand_frame (show jobCommand (.updateRepairJob req) = true from rfl) s.fsm orders
      rw [same]
      exact listed
    | _ => exact adding.elim
  | seen nodeID ts =>
    obtain ⟨registry, same⟩ := s.fsm.updateLastSeen_nodes_only nodeID ts
    rw [same]
    exact listed
  | same => exact listed

def handling : Setting System Label Label.Result where
  exec := Exec
  promise label _ _ _ := Adding label
  rely s later := CopiesOnly s.fsm → CopiesOnly later.fsm
  refl _ := id
  trans first second := second ∘ first

theorem scheduleRepairForChunk_handling (rs : RepairScheduler) (chunkID : String)
    (did : List ((label : Label) × label.Result)) (s : System) :
    handling.Ensures (fun _ _ => True) did (scheduleRepairForChunk rs chunkID) s :=
  Setting.Ensures.of_follows (fun _ _ _ _ => adding_scheduling) (scheduleRepairForChunk_scheduling rs chunkID)

theorem onJobComplete_handling (rs : RepairScheduler) (nodeID jobID : String) (success : Bool) {s : System}
    (copies : CopiesOnly s.fsm) (did : List ((label : Label) × label.Result)) :
    handling.Ensures (fun _ _ => True) did (onJobComplete rs nodeID jobID success) s := by
  intro met others _ after ran
  have copies := (exec_fsmStep ran).jobs.copiesOnly trivial (others copies)
  refine ⟨trivial, ?_⟩
  intro met others seen after ran
  have copies := others copies
  cases ran
  refine ⟨trivial, ?_⟩
  dsimp only
  cases read : met.fsm.getRepairJob jobID with
  | error err => exact fun _ _ => trivial
  | ok job =>
    have found := lookup_of_getRepairJob read
    cases success with
    | true =>
      simp only [if_true, copies jobID job found, Bool.false_eq_true, if_false]
      exact fun _ _ _ _ _ => ⟨trivial, fun _ _ => trivial⟩
    | false =>
      simp only [Bool.false_eq_true, if_false]
      intro met others seen after ran
      refine ⟨trivial, ?_⟩
      dsimp only
      split
      · exact fun _ _ => trivial
      · exact scheduleRepairForChunk_handling rs _ _ _

theorem reportRepairResult_handling (parts : Components) (nodeID jobID : String) (success : Bool) {s : System}
    (copies : CopiesOnly s.fsm) :
    handling.Ensures (fun _ _ => True) [] (reportRepairResult parts nodeID jobID success) s := by
  intro met others now after ran
  have copies := (exec_fsmStep ran).jobs.copiesOnly trivial (others copies)
  refine ⟨trivial, ?_⟩
  intro met others answer after ran
  have copies := (exec_fsmStep ran).jobs.copiesOnly trivial (others copies)
  refine ⟨trivial, ?_⟩
  cases answer with
  | some err => exact fun _ _ => trivial
  | none => exact onJobComplete_handling _ nodeID jobID success copies _

/-- The over-replication branch of the scheduler is dead: in no run is there a job that removes a
    replica, so that the report of a repair, good or bad and whatever runs beside it, takes no node
    off the list of any chunk. -/
theorem repair_reports_only_add {parts : Components} {c last : Config}
    (reached : Reachable (world parts) empty c) {i : Nat} {nodeID jobID : String} {success : Bool}
    (running : c.procs[i]? = some (reportRepairResult parts nodeID jobID success))
    {events : List (Event System Label Label.Result)} (steps : Steps (world parts) c events last) :
    (∀ id job, last.state.fsm.repairJobRegistry.lookup id = some job → job.deleteSource = false) ∧
      ∀ e ∈ events, e.proc = i → ∀ chunkID node, Lists e.before.fsm chunkID node →
        Lists e.after.fsm chunkID node := by
  have copied := Copied.run reached Copied.empty
  obtain ⟨after, along⟩ := copied.steps steps
  refine ⟨after.jobs, ?_⟩
  have ran := steps.exec
  have promised := ((reportRepairResult_handling parts nodeID jobID success copied.jobs).steps running steps
    (fun e member _ => ran e member)
    (fun e member _ => (exec_fsmStep (ran e member)).jobs.copiesOnly (along e member).2)
    (fun s prog later spawned copies => (spawn_fsm parts spawned).symm ▸ copies)).1
  intro e member own chunkID node listed
  exact Adding.lists (promised e member own) (ran e member) listed

theorem repair_reports_only_add_confirmed :
    ∃ (c last : Config) (i : Nat) (events : List (Event System Label Label.Result)),
      Reachable (world twoCopies) empty c ∧
      c.procs[i]? = some (reportRepairResult twoCopies "n1" "job-" true) ∧
      Steps (world twoCopies) c events last ∧ last.state = confirmed.2 ∧
      ∀ e ∈ events, e.proc = i → ∀ chunkID node, Lists e.before.fsm chunkID node →
        Lists e.after.fsm chunkID node := by
  obtain ⟨procs, _, before⟩ := executed_reachable
  have reached : Reachable (world twoCopies) empty _ :=
    before.spawn (reportRepairResult twoCopies "n1" "job-" true) executed.2
      (.component (.reportRepairResult _ "n1" "job-" true))
  let c : Config := ⟨executed.2, procs ++ [reportRepairResult twoCopies "n1" "job-" true]⟩
  have running : c.procs[procs.length]? = some (reportRepairResult twoCopies "n1" "job-" true) :=
    List.getElem?_concat_length
  have start : Steps (world twoCopies) c [] c := .refl
  obtain ⟨events, later, steps, _⟩ := start.runAlone (execFresh_exec 6) _ running
  exact ⟨_, _, _, _, reached, running, steps, rfl, (repair_reports_only_add reached running steps).2⟩

end DistributedFs.Scheduler
