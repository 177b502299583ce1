import DistributedFs.Fsm.Reads
import DistributedFs.Fsm.Snapshot
import DistributedFs.Fsm.Step
import DistributedFs.Replication.Log

namespace DistributedFs.Fsm

open Go MetadataFSM

/-- Apply a log in order and collect the result of every entry. `oracle i k` is the
    iteration order of the `k`-th map loop run by the `i`-th entry. -/
def runLog (oracle : Nat → Nat → MapOrder) (m : FSM) (log : List Command) :
    FSM × List (Option GoError) :=
  Replication.run (fun i m cmd => m.handle (oracle i) cmd) m log

abbrev History := List (Command × Option GoError)

/-- `m` is a state of some replica after `history`: reached from the empty state by
    commands, by heartbeats, and by restoring a snapshot of another such state, after
    which the replica stands for the history of that state. -/
inductive Reached : History → FSM → Prop where
  | empty : Reached [] newEmptyMetadataFsm
  | command {history : History} {m : FSM} (orders : Nat → MapOrder) (cmd : Command)
    (before : Reached history m) :
    Reached (history ++ [(cmd, (m.handle orders cmd).2)]) (m.handle orders cmd).1
  | heartbeat {history : History} {m : FSM} (nodeID : String) (ts : Time)
    (before : Reached history m) : Reached history (m.updateLastSeen nodeID ts).1
  | restore {history source : History} {m s : FSM} (before : Reached history m)
    (taken : Reached source s) : Reached source (m.restore s.snapshot.persist).1

theorem Reached.runLog {history : History} {m : FSM} (reached : Reached history m)
    (oracle : Nat → Nat → MapOrder) (log : List Command) :
    Reached (history ++ log.zip (runLog oracle m log).2) (runLog oracle m log).1 := by
  induction log generalizing oracle history m with
  | nil => simpa [Fsm.runLog, Replication.run] using reached
  | cons cmd rest ih =>
    have last := ih (reached.command (oracle 0) cmd) fun i => oracle (i + 1)
    simpa [Fsm.runLog, Replication.run] using last

theorem Reached.files_and_chunks {P : History → FSM → Prop}
    (empty : P [] newEmptyMetadataFsm)
    (nodes : ∀ history m registry, P history m → P history { m with nodeRegistry := registry })
    (step : ∀ history m orders cmd after result, P history m → Step m orders cmd after result →
      P (history ++ [(cmd, result)]) after)
    {history : History} {m : FSM} (reached : Reached history m) : P history m := by
  induction reached with
  | empty => exact empty
  | command orders cmd _ ih => exact step _ _ orders cmd _ _ ih (handle_step _ orders cmd)
  | heartbeat nodeID ts _ ih =>
    rename_i m _
    obtain ⟨registry, same⟩ := m.updateLastSeen_nodes_only nodeID ts
    rw [same]
    exact nodes _ _ registry ih
  | restore _ _ _ ih =>
    rw [restore_persist]
    exact nodes _ _ _ ih

end DistributedFs.Fsm
