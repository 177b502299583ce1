import DistributedFs.Scheduler.Runs

namespace DistributedFs.Scheduler

open Go Fsm MetadataFSM Healing Healing.Prog

variable (parts : Components)

def readAddr (nodeID : String) (next : String → Prog) : Prog :=
  if nodeID ≠ "" then
    look fun m _ =>
      match m.getNode nodeID with
      | .error _ => next ""
      | .ok node => next node.address
  else next ""

def readInstruction (jobID : String) (next : Option Server.RepairInstruction → Prog) : Prog :=
  look fun m _ =>
    match m.getRepairJob jobID with
    | .error _ => next none
    | .ok val =>
      readAddr val.sourceNodeID fun sourceAddr => readAddr val.targetNodeID fun targetAddr =>
        next (some
          { jobId := val.jobID, chunkId := val.chunkID
            sourceNodeId := val.sourceNodeID, sourceAddr := sourceAddr
            targetNodeId := val.targetNodeID, targetAddr := targetAddr
            deleteSource := val.deleteSource })

/-- `buildRepairInstructions` as the handler runs it: others may act between its reads. -/
def readInstructions (next : List Server.RepairInstruction → Prog) :
    List String → List Server.RepairInstruction → Prog
  | [], ins => next ins
  | jobID :: rest, ins => readInstruction jobID fun
    | none => readInstructions next rest ins
    | some r => readInstructions next rest (ins ++ [r])

def answerReads (nodeID : String) : Prog :=
  act (.pendingFor nodeID) fun pjobs =>
    readInstructions (fun ins => act (.deliver nodeID ins) fun _ => done) pjobs []

def heartbeatReads (req : Server.HeartbeatRequest) (count : Nat) : Prog :=
  look fun m _ =>
    match m.getNode req.nodeId with
    | .error _ => done
    | .ok _ =>
      clock fun now => act (.updateLastSeen req.nodeId now) fun _ =>
        if count % 10 = 0 then
          clock fun now => propose (.updateNodeSpace
            ⟨req.nodeId, req.freeSpace.toUInt64, req.chunkCount.toInt64.toUInt64, now⟩) fun _ =>
              answerReads req.nodeId
        else answerReads req.nodeId

inductive SpawnReads : System → Prog → System → Prop where
  | call {s later : System} {prog : Prog} (spawned : Spawn parts s prog later) : SpawnReads s prog later
  | heartbeat (s : System) (req : Server.HeartbeatRequest) (count : Nat) : SpawnReads s (heartbeatReads req count) s

def worldReads : Concurrency.World System Label Label.Result := ⟨Exec, SpawnReads parts⟩

theorem spawnReads_fsm {s later : System} {prog : Prog} (spawned : SpawnReads parts s prog later) :
    later.fsm = s.fsm := by
  cases spawned with
  | call spawned => exact spawn_fsm parts spawned
  | heartbeat => rfl

theorem steps_reads {c last : Config} {events : List (Concurrency.Event System Label Label.Result)}
    (steps : Concurrency.Steps (world parts) c events last) :
    Concurrency.Steps (worldReads parts) c events last := by
  induction steps with
  | refl => exact .refl
  | spawn _ prog later allowed ih => exact ih.spawn prog later (.call allowed)
  | act _ i label next running result later ran ih => exact ih.act i label next running result later ran

section Alone

def deeds (trace : List (System × Label)) : List Label :=
  trace.filterMap fun x => match x.2 with
    | .look => none
    | label => some label

variable {exec : (label : Label) → System → label.Result × System}

def SameAlone (exec : (label : Label) → System → label.Result × System) (s : System) (p q : Prog) : Prop :=
  deeds (p.runAlone exec s).1 = deeds (q.runAlone exec s).1 ∧ (p.runAlone exec s).2 = (q.runAlone exec s).2

theorem SameAlone.symm {s : System} {p q : Prog} (same : SameAlone exec s p q) : SameAlone exec s q p :=
  ⟨same.1.symm, same.2.symm⟩

theorem SameAlone.trans {s : System} {p q r : Prog} (first : SameAlone exec s p q) (second : SameAlone exec s q r) :
    SameAlone exec s p r := ⟨first.1.trans second.1, first.2.trans second.2⟩

theorem SameAlone.act {s : System} {label : Label} {p q : label.Result → Prog}
    (rest : SameAlone exec (exec label s).2 (p (exec label s).1) (q (exec label s).1)) :
    SameAlone exec s (act label p) (act label q) := by
  refine ⟨?_, rest.2⟩
  have same : deeds [(s, label)] ++ deeds ((p (exec label s).1).runAlone exec (exec label s).2).1 =
      deeds [(s, label)] ++ deeds ((q (exec label s).1).runAlone exec (exec label s).2).1 := by rw [rest.1]
  unfold deeds at same
  rw [← List.filterMap_append, ← List.filterMap_append] at same
  exact same

variable (reads : ∀ s, (exec .look s).1.1 = s.fsm ∧ (exec .look s).2 = s)
include reads

theorem look_alone (s : System) {next : FSM → MapOrder → Prog} {rest : Prog}
    (same : ∀ order, next s.fsm order = rest) : SameAlone exec s (look next) rest := by
  obtain ⟨fsm, state⟩ := reads s
  have began : (look next).runAlone exec s =
      ((s, .look) :: (rest.runAlone exec s).1, (rest.runAlone exec s).2) := by
    simp only [look, Concurrency.Prog.runAlone]
    rw [fsm, state, same]
  unfold SameAlone
  rw [began]
  exact ⟨rfl, rfl⟩

theorem readAddr_alone (s : System) (nodeID : String) (next : String → Prog) :
    SameAlone exec s (readAddr nodeID next) (next (Server.instructionAddr s.fsm nodeID)) := by
  unfold readAddr Server.instructionAddr
  split
  · refine look_alone reads s fun _ => ?_
    cases s.fsm.getNode nodeID with
    | error err => rfl
    | ok node => rfl
  · exact ⟨rfl, rfl⟩

theorem readInstructions_alone (s : System) (next : List Server.RepairInstruction → Prog) (pjobs : List String)
    (ins : List Server.RepairInstruction) :
    SameAlone exec s (readInstructions next pjobs ins) (next (ins ++ Server.buildRepairInstructions s.fsm pjobs)) := by
  induction pjobs generalizing ins with
  | nil =>
    rw [Server.buildRepairInstructions, List.filterMap_nil, List.append_nil]
    exact ⟨rfl, rfl⟩
  | cons jobID rest ih =>
    unfold readInstructions readInstruction Server.buildRepairInstructions
    refine (look_alone reads s fun _ => rfl).trans ?_
    rw [List.filterMap_cons]
    cases s.fsm.getRepairJob jobID with
    | error err => exact ih ins
    | ok val =>
      refine (readAddr_alone reads s _ _).trans ((readAddr_alone reads s _ _).trans ((ih _).trans ?_))
      rw [List.append_assoc]
      exact ⟨rfl, rfl⟩

/-- A heartbeat that nobody disturbs does read by read what it does with one read. -/
theorem heartbeatReads_alone (s : System) (req : Server.HeartbeatRequest) (count : Nat) :
    SameAlone exec s (heartbeatReads req count) (heartbeat req count) := by
  have answer : ∀ t, SameAlone exec t (answerReads req.nodeId) (act (.pendingFor req.nodeId) fun pjobs =>
      look fun m _ => act (.deliver req.nodeId (Server.buildRepairInstructions m pjobs)) fun _ => done) := by
    intro t
    refine SameAlone.act ((readInstructions_alone reads _ _ _ _).trans ?_)
    exact (look_alone reads _ fun _ => rfl).symm
  refine SameAlone.act ?_
  dsimp only
  cases (exec .look s).1.1.getNode req.nodeId with
  | error err => exact ⟨rfl, rfl⟩
  | ok node =>
    refine SameAlone.act (SameAlone.act ?_)
    by_cases tenth : count % 10 = 0
    · rw [if_pos tenth, if_pos tenth]
      exact SameAlone.act (SameAlone.act (answer _))
    · rw [if_neg tenth, if_neg tenth]
      exact answer _

end Alone

end DistributedFs.Scheduler
