import DistributedFs.Concurrency.Alone
import DistributedFs.Concurrency.RelyGuarantee
import DistributedFs.Scheduler.Runs
import DistributedFs.Watcher.Registration

namespace DistributedFs.Watcher

open Go Fsm Server Healing Healing.Prog Scheduler Concurrency Concurrency.Protocol

def DeclaresOnly (now : Time) (nodes : List String) : Label → Prop
  | .propose (.markNodeDead req) => req.updatedAt = now ∧ req.nodeID ∈ nodes
  | _ => True

section Programs

variable (now : Time) (nodes : List String)

theorem declaresOnly_of_other {label : Label} (other : ∀ req, label ≠ .propose (.markNodeDead req)) :
    DeclaresOnly now nodes label := by
  unfold DeclaresOnly
  split
  · rename_i req
    exact absurd rfl (other req)
  · trivial

theorem triggerRepair_declaresOnly (rs : RepairScheduler) (nodeID : String) :
    (only (DeclaresOnly now nodes)).Follows () (triggerRepair rs nodeID) := by
  have copies (chunkID source target : String) (stage : Unit) :
      (only (DeclaresOnly now nodes)).Follows stage (scheduleCopy chunkID source target) :=
    follows_scheduleCopy (fun _ => trivial)
      (fun _ => follows_createJob trivial trivial (fun _ => trivial) fun _ _ => trivial) stage
  have rules := follow_rules rs (fun _ _ other _ => declaresOnly_of_other now nodes other) copies
  exact rules.triggerRepair (c := (⟨(), trivial⟩ : {_q : Unit // True})) nodeID

theorem declarations_follow (rs : RepairScheduler) :
    (only (DeclaresOnly now nodes)).Follows () (forEach (fun nodeID => propose (.markNodeDead ⟨nodeID, now⟩) fun
      | some _ => done
      | none => triggerRepair rs nodeID) nodes) := by
  refine (sequences (only (DeclaresOnly now nodes))).forEach (c := (⟨(), trivial⟩ : {_q : Unit // True})) nodes ?_
  intro nodeID member _ _
  refine Follows.act ⟨rfl, member⟩ ?_
  intro answer _
  cases answer with
  | some err => trivial
  | none => exact triggerRepair_declaresOnly now nodes rs nodeID

end Programs

section Runs

variable {parts : Components} {c last : Scheduler.Config} {events : List (Event System Label Label.Result)} {i : Nat}

/-- A sweep copies the registry once: whenever it proposes a death, that was decided at the moment of the copy,
    whatever has happened since. -/
theorem sweep_decides (steps : Steps (Scheduler.world parts) c events last)
    (running : c.procs[i]? = some (Healing.sweep parts)) {e : Event System Label Label.Result} (taken : e ∈ events)
    (own : e.proc = i) {req : CommandMarkNodeDead} (declares : e.label = .propose (.markNodeDead req)) :
    ∃ pre copied post order, events = pre ++ copied :: post ∧ copied.proc = i ∧ copied.label = .look ∧ e ∈ post ∧
      .markNodeDead req ∈ sweep ⟨true, ""⟩ parts.suspectTimeout copied.before.fsm order req.updatedAt := by
  obtain ⟨pre, _, now, _, post, _, split, taken, _, running, steps⟩ :=
    steps.passed running taken own (by simp [declares])
  obtain ⟨mid, _, seen, _, post, _, again, taken, ran, running, steps⟩ :=
    steps.passed running taken own (by simp [declares])
  cases ran
  rename_i s order
  have allowed := steps.allowed running (declarations_follow now _ parts.scheduler) e taken own
  rw [declares] at allowed
  obtain ⟨rfl, stale⟩ := allowed
  refine ⟨pre ++ _ :: mid, _, post, order, by rw [split, again, List.append_assoc]; rfl, rfl, rfl, taken, ?_⟩
  exact List.mem_map.mpr ⟨req.nodeID, stale, rfl⟩

def Timely (t : Time) : Label → Prop
  | .propose (.registerNode req) => t ≤ req.createdAt
  | .updateLastSeen _ ts => t ≤ ts
  | _ => True

theorem since_of_fsmStep {t : Time} {m after : FSM} {label : Label} (step : FsmStep m label after)
    (timely : Timely t label) : Since t m after := by
  cases step with
  | command cmd orders =>
    refine Since.start.command orders cmd ?_
    rintro req rfl
    exact timely
  | seen nodeID ts => exact Since.start.heartbeat nodeID ts timely
  | same => exact .start

/-- A node that was seen at `t` is declared dead only by a sweep whose clock shows more than the timeout since. -/
theorem sweep_spares {t : Time} {nodeID : String} (steps : Steps (Scheduler.world parts) c events last)
    (running : c.procs[i]? = some (Healing.sweep parts)) (clocks : ∀ e ∈ events, Timely t e.label)
    (seen : SeenSince t nodeID c.state.fsm) {e : Event System Label Label.Result} (taken : e ∈ events)
    (own : e.proc = i) {now : Time} (declares : e.label = .propose (.markNodeDead ⟨nodeID, now⟩)) :
    parts.suspectTimeout < Time.sub now t := by
  obtain ⟨pre, copied, post, order, split, _, _, _, decided⟩ := sweep_decides steps running taken own declares
  obtain ⟨mid, before, same⟩ := steps.upTo split
  have there : SeenSince t nodeID mid.state.fsm := by
    refine before.stable (P := fun s => SeenSince t nodeID s.fsm) ?_ ?_ seen
    · exact fun spawned seen => (spawn_fsm parts spawned).symm ▸ seen
    · intro x member seen
      have timely := clocks x (by simp [split, member])
      exact seen.later (since_of_fsmStep (exec_fsmStep (before.exec x member)) timely)
  rw [same] at there
  by_contra recent
  exact there.spared (Int.not_lt.mp recent) _ order decided

end Runs

end DistributedFs.Watcher
