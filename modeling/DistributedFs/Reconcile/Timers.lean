import DistributedFs.Concurrency.Prog
import DistributedFs.Go.Map

namespace DistributedFs.Reconcile.Timers

open Go

/-- Where a timer of `time.AfterFunc` is: armed, stopped before it fired, or in its callback,
    before `ReconcileNode`, in it, before the clean-up and after it. -/
inductive Phase where
  | pending
  | stopped
  | fired
  | reconciling
  | reconciled
  | done
deriving DecidableEq

structure Timer where
  nodeID : String
  reported : List String
  phase : Phase
deriving DecidableEq

/-- `r.timers`, and the timers that `Schedule` has made; the map holds their positions. -/
structure Reconciler where
  timers : GoMap Nat
  created : List Timer

def newReconciler : Reconciler := ⟨∅, []⟩

def Timer.stop (timer : Timer) : Timer :=
  if timer.phase = .pending then { timer with phase := .stopped } else timer

def Reconciler.stop (r : Reconciler) (id : Nat) : Reconciler :=
  { r with created := r.created.modify id Timer.stop }

def Reconciler.stopOld (r : Reconciler) (nodeID : String) : Reconciler :=
  match r.timers.lookup nodeID with
  | some old => r.stop old
  | none => r

def Reconciler.schedule (r : Reconciler) (nodeID : String) (reportedChunks : List String) : Reconciler :=
  let stopped := r.stopOld nodeID
  { timers := stopped.timers.insert nodeID stopped.created.length
    created := stopped.created ++ [⟨nodeID, reportedChunks, .pending⟩] }

def Reconciler.cancel (r : Reconciler) (nodeID : String) : Reconciler :=
  match r.timers.lookup nodeID with
  | some old =>
    let stopped := r.stop old
    { stopped with timers := stopped.timers.erase nodeID }
  | none => r

def Reconciler.advance (r : Reconciler) (id : Nat) (phase : Phase) : Reconciler :=
  { r with created := r.created.modify id fun timer => { timer with phase := phase } }

def Reconciler.cleanUp (r : Reconciler) (id : Nat) (nodeID : String) : Reconciler :=
  { r.advance id .done with timers := r.timers.erase nodeID }

inductive Event where
  | schedule (id : Nat) (nodeID : String) (reported : List String)
  | cancel (nodeID : String)
  | fire (id : Nat)
  | reconcile (id : Nat) (nodeID : String) (reported : List String)
  | returned (id : Nat)
  | cleanUp (id : Nat) (nodeID : String)
deriving DecidableEq

def Event.Renews (nodeID : String) : Event → Prop
  | .schedule _ node _ => node = nodeID
  | .cancel node => node = nodeID
  | _ => False

/-- The calls run under the lock; a timer fires at any time, and its callback runs
    `ReconcileNode` for as long as it takes before it locks to clean up. -/
inductive Step (r : Reconciler) : Event → Reconciler → Prop where
  | schedule (nodeID : String) (reportedChunks : List String) :
    Step r (.schedule r.created.length nodeID reportedChunks) (r.schedule nodeID reportedChunks)
  | cancel (nodeID : String) : Step r (.cancel nodeID) (r.cancel nodeID)
  | fire (id : Nat) {nodeID : String} {reported : List String}
    (armed : r.created[id]? = some ⟨nodeID, reported, .pending⟩) : Step r (.fire id) (r.advance id .fired)
  | reconcile (id : Nat) {nodeID : String} {reported : List String}
    (fired : r.created[id]? = some ⟨nodeID, reported, .fired⟩) :
    Step r (.reconcile id nodeID reported) (r.advance id .reconciling)
  | returned (id : Nat) {nodeID : String} {reported : List String}
    (running : r.created[id]? = some ⟨nodeID, reported, .reconciling⟩) :
    Step r (.returned id) (r.advance id .reconciled)
  | cleanUp (id : Nat) {nodeID : String} {reported : List String}
    (finished : r.created[id]? = some ⟨nodeID, reported, .reconciled⟩) :
    Step r (.cleanUp id nodeID) (r.cleanUp id nodeID)

inductive Run (ok : Reconciler → Event → Prop) : List Event → Reconciler → Prop where
  | start : Run ok [] newReconciler
  | step {events : List Event} {r later : Reconciler} {e : Event} (before : Run ok events r)
    (next : Step r e later) (met : ok r e) : Run ok (events ++ [e]) later

/-- No reconciliation starts after a later call for its node, unless its timer had fired before
    the call. -/
def NeverStale (events : List Event) : Prop :=
  ∀ before call last id nodeID reported, events = before ++ call :: last →
    .schedule id nodeID reported ∈ before → call.Renews nodeID →
    .reconcile id nodeID reported ∈ last → .fire id ∈ before

def KeepsArmed (r : Reconciler) : Event → Prop
  | .cleanUp _ nodeID => ∀ id timer, r.timers.lookup nodeID = some id → r.created[id]? = some timer →
    timer.phase ≠ .pending
  | _ => True

def Phase.begun : Phase → Bool
  | .pending | .stopped => false
  | .fired | .reconciling | .reconciled | .done => true

inductive Phase.Moves (e : Event) (id : Nat) : Phase → Phase → Prop where
  | stay (phase : Phase) : Moves e id phase phase
  | stop : Moves e id .pending .stopped
  | fire (fires : e = .fire id) : Moves e id .pending .fired
  | goOn {phase next : Phase} (before : phase.begun = true) (after : next.begun = true) : Moves e id phase next

section

variable {r later : Reconciler} {e : Event} {id : Nat} {timer : Timer}

theorem stop_moves (timer : Timer) :
    ∃ phase, timer.stop = { timer with phase := phase } ∧ Phase.Moves e id timer.phase phase := by
  unfold Timer.stop
  split
  · rename_i armed
    exact ⟨.stopped, rfl, armed ▸ .stop⟩
  · exact ⟨timer.phase, rfl, .stay _⟩

theorem timers_stopOld (r : Reconciler) (nodeID : String) : (r.stopOld nodeID).timers = r.timers := by
  unfold Reconciler.stopOld
  split <;> rfl

theorem length_stopOld (r : Reconciler) (nodeID : String) :
    (r.stopOld nodeID).created.length = r.created.length := by
  unfold Reconciler.stopOld
  split
  · exact List.length_modify ..
  · rfl

theorem created_stopOld (found : r.created[id]? = some timer) (nodeID : String) :
    (r.stopOld nodeID).created[id]? =
      some (if r.timers.lookup nodeID = some id then timer.stop else timer) := by
  unfold Reconciler.stopOld
  cases current : r.timers.lookup nodeID with
  | none =>
    rw [if_neg nofun]
    exact found
  | some old =>
    simp only [Reconciler.stop, List.getElem?_modify, found, Option.map_eq_map, Option.map_some,
      Option.some.injEq]

theorem created_advance (found : r.created[id]? = some timer) (i : Nat) (phase : Phase) :
    (r.advance i phase).created[id]? = some (if i = id then { timer with phase := phase } else timer) := by
  simp only [Reconciler.advance, List.getElem?_modify, found, Option.map_eq_map, Option.map_some]

theorem created_cancel (r : Reconciler) (nodeID : String) :
    (r.cancel nodeID).created = (r.stopOld nodeID).created := by
  unfold Reconciler.cancel Reconciler.stopOld
  split <;> rfl

theorem lookup_cancel (r : Reconciler) (nodeID other : String) :
    (r.cancel nodeID).timers.lookup other = if other = nodeID then none else r.timers.lookup other := by
  unfold Reconciler.cancel
  split
  · by_cases same : other = nodeID
    · rw [if_pos same, same]
      exact Finmap.lookup_erase _ _
    · rw [if_neg same]
      exact Finmap.lookup_erase_ne same
  · rename_i absent
    by_cases same : other = nodeID
    · rw [if_pos same, same, absent]
    · rw [if_neg same]

theorem created_schedule (found : r.created[id]? = some timer) (nodeID : String) (reported : List String) :
    (r.schedule nodeID reported).created[id]? =
      some (if r.timers.lookup nodeID = some id then timer.stop else timer) := by
  have old := created_stopOld found nodeID
  have inside := (List.getElem?_eq_some_iff.mp old).1
  show ((r.stopOld nodeID).created ++ [⟨nodeID, reported, .pending⟩])[id]? = _
  rw [List.getElem?_append_left inside]
  exact old

theorem created_schedule_new (r : Reconciler) (nodeID : String) (reported : List String) :
    (r.schedule nodeID reported).created[r.created.length]? = some ⟨nodeID, reported, .pending⟩ := by
  show ((r.stopOld nodeID).created ++ [⟨nodeID, reported, .pending⟩])[r.created.length]? = _
  rw [← length_stopOld r nodeID, List.getElem?_concat_length]

theorem stopOld_moves (r : Reconciler) (timer : Timer) (nodeID : String) (e : Event) :
    ∃ phase, some (if r.timers.lookup nodeID = some id then timer.stop else timer) =
      some { timer with phase := phase } ∧ Phase.Moves e id timer.phase phase := by
  split
  · obtain ⟨phase, same, moves⟩ := stop_moves timer
    exact ⟨phase, congrArg some same, moves⟩
  · exact ⟨timer.phase, rfl, .stay _⟩

theorem advance_moves (found : r.created[id]? = some timer) {i : Nat} {old : Timer}
    (known : r.created[i]? = some old) (next : Phase) (moves : Phase.Moves e i old.phase next) :
    ∃ phase, (r.advance i next).created[id]? = some { timer with phase := phase } ∧
      Phase.Moves e id timer.phase phase := by
  rw [created_advance found]
  split
  · rename_i same
    subst same
    cases found.symm.trans known
    exact ⟨next, rfl, moves⟩
  · exact ⟨timer.phase, rfl, .stay _⟩

theorem lookup_schedule (r : Reconciler) (nodeID other : String) (reported : List String) :
    (r.schedule nodeID reported).timers.lookup other =
      if other = nodeID then some r.created.length else r.timers.lookup other := by
  show ((r.stopOld nodeID).timers.insert nodeID (r.stopOld nodeID).created.length).lookup other = _
  rw [GoMap.lookup_insert, length_stopOld, timers_stopOld]

theorem Step.moves (step : Step r e later) (found : r.created[id]? = some timer) :
    ∃ phase, later.created[id]? = some { timer with phase := phase } ∧ Phase.Moves e id timer.phase phase := by
  cases step with
  | schedule nodeID reported =>
    rw [created_schedule found]
    exact stopOld_moves r timer nodeID _
  | cancel nodeID =>
    rw [created_cancel, created_stopOld found]
    exact stopOld_moves r timer nodeID _
  | fire i armed => exact advance_moves found armed .fired (.fire rfl)
  | reconcile i fired => exact advance_moves found fired .reconciling (.goOn rfl rfl)
  | returned i running => exact advance_moves found running .reconciled (.goOn rfl rfl)
  | cleanUp i finished => exact advance_moves found finished .done (.goOn rfl rfl)

theorem Step.made (step : Step r e later) (found : later.created[id]? = some timer) :
    (∃ old, r.created[id]? = some old) ∨
      timer.phase = .pending ∧ e = .schedule id timer.nodeID timer.reported := by
  have known (inside : id < r.created.length) : ∃ old, r.created[id]? = some old :=
    ⟨_, List.getElem?_eq_getElem inside⟩
  have below := (List.getElem?_eq_some_iff.mp found).1
  cases step with
  | schedule nodeID reported =>
    change ((r.stopOld nodeID).created ++ [⟨nodeID, reported, .pending⟩])[id]? = some timer at found
    rw [List.getElem?_append] at found
    split at found
    · rename_i inside
      rw [length_stopOld] at inside
      exact .inl (known inside)
    · rename_i outside
      obtain ⟨last, rfl⟩ := List.getElem?_eq_some_iff.mp found
      rw [List.length_singleton, length_stopOld] at last
      rw [length_stopOld] at outside
      have position : id = r.created.length := by omega
      refine .inr ⟨?_, ?_⟩
      · simp
      · simp [position]
  | cancel nodeID =>
    rw [created_cancel, length_stopOld] at below
    exact .inl (known below)
  | fire | reconcile | returned | cleanUp =>
    exact .inl (known (lt_of_lt_of_eq below (List.length_modify ..)))

theorem Step.stays_stopped (step : Step r e later) {nodeID : String} {reported : List String}
    (found : r.created[id]? = some ⟨nodeID, reported, .stopped⟩) :
    later.created[id]? = some ⟨nodeID, reported, .stopped⟩ := by
  obtain ⟨phase, same, moves⟩ := step.moves found
  cases moves with
  | stay => exact same
  | goOn before after => cases before

def Listed (r : Reconciler) : Prop :=
  ∀ id nodeID reported, r.created[id]? = some ⟨nodeID, reported, .pending⟩ → r.timers.lookup nodeID = some id

theorem Step.renews (listed : Listed r) (step : Step r e later) {nodeID : String} {reported : List String}
    (armed : r.created[id]? = some ⟨nodeID, reported, .pending⟩) (renews : e.Renews nodeID) :
    later.created[id]? = some ⟨nodeID, reported, .stopped⟩ := by
  have current := listed id nodeID reported armed
  cases step with
  | schedule node chunks =>
    cases renews
    rw [created_schedule armed, if_pos current]
    rfl
  | cancel node =>
    cases renews
    rw [created_cancel, created_stopOld armed, if_pos current]
    rfl
  | fire | reconcile | returned | cleanUp => cases renews

theorem Step.armed (step : Step r e later) (found : r.created[id]? = some timer) {nodeID : String}
    {reported : List String} (armed : later.created[id]? = some ⟨nodeID, reported, .pending⟩) :
    r.created[id]? = some ⟨nodeID, reported, .pending⟩ := by
  obtain ⟨phase, same, moves⟩ := step.moves found
  rw [armed, Option.some.injEq, Timer.mk.injEq] at same
  obtain ⟨node, chunks, rfl⟩ := same
  obtain ⟨timerNode, timerChunks, timerPhase⟩ := timer
  cases moves with
  | stay => rw [found, node, chunks]
  | goOn before after => cases after

theorem Step.listed (listed : Listed r) (step : Step r e later) (kept : KeepsArmed r e) : Listed later := by
  intro id nodeID reported armed
  rcases step.made armed with ⟨old, known⟩ | ⟨-, new⟩
  · have before := step.armed known armed
    have current := listed id nodeID reported before
    have unrenewed : ¬ e.Renews nodeID := by
      intro renews
      have stopped := step.renews listed before renews
      rw [armed] at stopped
      cases stopped
    cases step with
    | schedule node chunks =>
      rw [lookup_schedule, if_neg fun same => unrenewed same.symm]
      exact current
    | cancel node =>
      rw [lookup_cancel, if_neg fun same => unrenewed same.symm]
      exact current
    | fire | reconcile | returned => exact current
    | @cleanUp done node =>
      have apart : nodeID ≠ node := by
        rintro rfl
        exact kept id _ current before rfl
      exact (Finmap.lookup_erase_ne apart).trans current
  · cases step with
    | schedule node chunks =>
      cases new
      rw [lookup_schedule, if_pos rfl]
    | cancel | fire | reconcile | returned | cleanUp => cases new

end

structure Sound (events : List Event) (r : Reconciler) : Prop where
  made : ∀ id nodeID reported, .schedule id nodeID reported ∈ events →
    ∃ phase, r.created[id]? = some ⟨nodeID, reported, phase⟩
  fired : ∀ id timer, r.created[id]? = some timer → timer.phase.begun = true → .fire id ∈ events
  stopped : ∀ before call last id nodeID reported, events = before ++ call :: last →
    .schedule id nodeID reported ∈ before → call.Renews nodeID → .fire id ∉ before →
      r.created[id]? = some ⟨nodeID, reported, .stopped⟩

section

variable {events : List Event} {r later : Reconciler} {e : Event}

theorem Sound.step (sound : Sound events r) (listed : Listed r) (step : Step r e later) :
    Sound (events ++ [e]) later := by
  refine ⟨?_, ?_, ?_⟩
  · intro id nodeID reported scheduled
    rcases List.mem_append.mp scheduled with earlier | new
    · obtain ⟨phase, found⟩ := sound.made id nodeID reported earlier
      obtain ⟨next, same, -⟩ := step.moves found
      exact ⟨next, same⟩
    · cases List.mem_singleton.mp new
      cases step
      exact ⟨.pending, created_schedule_new r nodeID reported⟩
  · intro id timer found begun
    rcases step.made found with ⟨⟨node, chunks, old⟩, known⟩ | ⟨new, -⟩
    · obtain ⟨phase, same, moves⟩ := step.moves known
      rw [found, Option.some.injEq] at same
      subst same
      cases moves with
      | stay => exact List.mem_append_left _ (sound.fired id _ known begun)
      | stop => cases begun
      | fire fires => exact List.mem_append_right _ (List.mem_singleton.mpr fires.symm)
      | goOn before => exact List.mem_append_left _ (sound.fired id _ known before)
    · rw [new] at begun
      cases begun
  · intro before call last id nodeID reported split scheduled renews unfired
    rcases Concurrency.concat_cases split with ⟨-, rfl, rfl⟩ | ⟨rest, -, earlier⟩
    · -- the call is this step: the timer is still armed, or was stopped before
      obtain ⟨phase, found⟩ := sound.made id nodeID reported scheduled
      cases phase with
      | pending => exact step.renews listed found renews
      | stopped => exact step.stays_stopped found
      | fired | reconciling | reconciled | done => exact absurd (sound.fired id _ found rfl) unfired
    · exact step.stays_stopped (sound.stopped before call rest id nodeID reported earlier scheduled renews unfired)

theorem NeverStale.step (fresh : NeverStale events) (sound : Sound events r) (step : Step r e later) :
    NeverStale (events ++ [e]) := by
  intro before call last id nodeID reported split scheduled renews started
  rcases Concurrency.concat_cases split with ⟨rfl, -, -⟩ | ⟨rest, rfl, earlier⟩
  · cases started
  · rcases List.mem_append.mp started with old | new
    · exact fresh before call rest id nodeID reported earlier scheduled renews old
    · cases List.mem_singleton.mp new
      cases step with
      | reconcile _ fired =>
        by_contra unfired
        have stopped := sound.stopped before call rest id nodeID reported earlier scheduled renews unfired
        rw [fired] at stopped
        cases stopped

theorem Run.sound (run : Run KeepsArmed events r) : Listed r ∧ Sound events r ∧ NeverStale events := by
  induction run with
  | start =>
    refine ⟨?_, ⟨?_, ?_, ?_⟩, ?_⟩
    · intro id nodeID reported found
      cases found
    · intro id nodeID reported scheduled
      cases scheduled
    · intro id timer found
      cases found
    · intro before call last id nodeID reported split
      cases before <;> cases split
    · intro before call last id nodeID reported split
      cases before <;> cases split
  | step before next met ih =>
    obtain ⟨listed, sound, fresh⟩ := ih
    exact ⟨next.listed listed met, sound.step listed next, fresh.step sound next⟩

end

structure Origin (events : List Event) (r : Reconciler) : Prop where
  scheduled : ∀ id timer, r.created[id]? = some timer → .schedule id timer.nodeID timer.reported ∈ events
  begun : ∀ id, .fire id ∈ events → ∃ timer, r.created[id]? = some timer ∧ timer.phase.begun = true
  mapped : ∀ nodeID id, r.timers.lookup nodeID = some id →
    ∃ reported phase, r.created[id]? = some ⟨nodeID, reported, phase⟩

section

variable {events : List Event} {r later : Reconciler} {e : Event}

theorem Origin.stepMapped (origin : Origin events r) (step : Step r e later) {nodeID : String} {id : Nat}
    (current : later.timers.lookup nodeID = some id) :
    ∃ reported phase, later.created[id]? = some ⟨nodeID, reported, phase⟩ := by
  have kept (before : r.timers.lookup nodeID = some id) :
      ∃ reported phase, later.created[id]? = some ⟨nodeID, reported, phase⟩ := by
    obtain ⟨reported, phase, found⟩ := origin.mapped nodeID id before
    obtain ⟨next, same, -⟩ := step.moves found
    exact ⟨reported, next, same⟩
  cases step with
  | schedule node chunks =>
    rw [lookup_schedule] at current
    split at current
    · rename_i same
      cases current
      rw [same]
      exact ⟨chunks, .pending, created_schedule_new r node chunks⟩
    · exact kept current
  | cancel node =>
    rw [lookup_cancel] at current
    split at current
    · cases current
    · exact kept current
  | fire | reconcile | returned => exact kept current
  | @cleanUp done node =>
    have apart : nodeID ≠ node := by
      rintro rfl
      cases current.symm.trans (Finmap.lookup_erase nodeID r.timers)
    exact kept ((Finmap.lookup_erase_ne apart).symm.trans current)

theorem Origin.step (origin : Origin events r) (step : Step r e later) : Origin (events ++ [e]) later := by
  refine ⟨?_, ?_, fun _ _ => origin.stepMapped step⟩
  · intro id timer found
    rcases step.made found with ⟨old, known⟩ | ⟨-, new⟩
    · obtain ⟨phase, same, -⟩ := step.moves known
      rw [found, Option.some.injEq] at same
      subst same
      exact List.mem_append_left _ (origin.scheduled id old known)
    · exact List.mem_append_right _ (List.mem_singleton.mpr new.symm)
  · intro id fired
    rcases List.mem_append.mp fired with earlier | new
    · obtain ⟨⟨node, chunks, old⟩, known, begun⟩ := origin.begun id earlier
      obtain ⟨phase, same, moves⟩ := step.moves known
      refine ⟨_, same, ?_⟩
      cases moves with
      | stay => exact begun
      | stop => cases begun
      | fire => rfl
      | goOn before after => exact after
    · cases List.mem_singleton.mp new
      cases step with
      | fire _ armed => exact ⟨_, created_advance armed _ _, by rw [if_pos rfl]; rfl⟩

theorem Run.origin {ok : Reconciler → Event → Prop} (run : Run ok events r) : Origin events r := by
  induction run with
  | start =>
    refine ⟨?_, ?_, ?_⟩
    · intro id timer found
      cases found
    · intro id fired
      cases fired
    · intro nodeID id current
      cases current
  | step before next met origin => exact origin.step next

theorem Run.unguarded {ok : Reconciler → Event → Prop} (run : Run ok events r) : Run (fun _ _ => True) events r := by
  induction run with
  | start => exact .start
  | step before next met ih => exact ih.step next trivial

theorem exists_stale (run : Run KeepsArmed events r) (step : Step r e later) (breaks : ¬ KeepsArmed r e) :
    ∃ more final, Run (fun _ _ => True) (events ++ e :: more) final ∧ ¬ NeverStale (events ++ e :: more) := by
  cases step with
  | schedule | cancel | fire | reconcile | returned => exact absurd trivial breaks
  | @cleanUp done nodeID reportedDone finished =>
    simp only [KeepsArmed, Classical.not_forall, not_not] at breaks
    obtain ⟨id, timer, current, found, armed⟩ := breaks
    obtain ⟨reported, phase, known⟩ := run.origin.mapped nodeID id current
    cases found.symm.trans known
    cases armed
    have other : done ≠ id := by
      rintro rfl
      cases finished.symm.trans known
    have cleaned : (r.cleanUp done nodeID).created[id]? = some ⟨nodeID, reported, .pending⟩ := by
      have kept := created_advance known done .done
      rw [if_neg other] at kept
      exact kept
    have cancelled : (r.cleanUp done nodeID).cancel nodeID = r.cleanUp done nodeID := by
      have absent : (r.cleanUp done nodeID).timers.lookup nodeID = none := Finmap.lookup_erase _ _
      unfold Reconciler.cancel
      rw [absent]
    have fired : ((r.cleanUp done nodeID).advance id .fired).created[id]? = some ⟨nodeID, reported, .fired⟩ := by
      rw [created_advance cleaned, if_pos rfl]
    have call := (run.unguarded.step (.cleanUp done finished) trivial).step (.cancel nodeID) trivial
    rw [cancelled] at call
    have started := (call.step (.fire id cleaned) trivial).step (.reconcile id fired) trivial
    simp only [List.append_assoc, List.cons_append, List.nil_append] at started
    refine ⟨_, _, started, fun fresh => ?_⟩
    have before := fresh (events ++ [.cleanUp done nodeID]) (.cancel nodeID)
      [.fire id, .reconcile id nodeID reported] id nodeID reported
      (by rw [List.append_assoc, List.singleton_append])
      (List.mem_append_left _ (run.origin.scheduled id _ known)) rfl (List.mem_cons_of_mem _ List.mem_cons_self)
    rcases List.mem_append.mp before with earlier | same
    · obtain ⟨timer, again, begun⟩ := run.origin.begun id earlier
      cases again.symm.trans known
      cases begun
    · cases List.mem_singleton.mp same

end

/-- In a run whose clean-ups never delete the entry of an armed timer no reconciliation is stale,
    and the first clean-up that does has a stale continuation. -/
theorem reconciliations_fresh {events : List Event} {r : Reconciler} (run : Run KeepsArmed events r) :
    NeverStale events ∧
      ∀ e later, Step r e later → ¬ KeepsArmed r e →
        ∃ more final, Run (fun _ _ => True) (events ++ e :: more) final ∧ ¬ NeverStale (events ++ e :: more) :=
  ⟨run.sound.2.2, fun _ _ step breaks => exists_stale run step breaks⟩

theorem reconciliations_fresh_overlap :
    NeverStale [.schedule 0 "n1" ["c1"], .fire 0, .reconcile 0 "n1" ["c1"], .schedule 1 "n1" ["c2"], .fire 1,
      .returned 0, .cleanUp 0 "n1", .cancel "n1", .reconcile 1 "n1" ["c2"]] := by
  have first : Run KeepsArmed [.schedule 0 "n1" ["c1"], .fire 0, .reconcile 0 "n1" ["c1"]] _ :=
    ((Run.start.step (.schedule "n1" ["c1"]) trivial).step (.fire 0 rfl) trivial).step (.reconcile 0 rfl) trivial
  have second := ((first.step (.schedule "n1" ["c2"]) trivial).step (.fire 1 rfl) trivial).step
    (.returned 0 rfl) trivial
  have cleaned := second.step (.cleanUp 0 rfl) (by
    intro id timer current found
    cases current
    cases found
    exact Phase.noConfusion)
  have last := (cleaned.step (.cancel "n1") trivial).step (.reconcile 1 rfl) trivial
  exact (reconciliations_fresh last).1

/-- The clean-up of the first reconciliation deletes the entry of the second timer, which
    `Cancel` then does not stop. -/
theorem cancelled_timer_reconciles :
    ∃ r, Run (fun _ _ => True) [.schedule 0 "n1" ["c1"], .fire 0, .reconcile 0 "n1" ["c1"],
      .schedule 1 "n1" ["c2"], .returned 0, .cleanUp 0 "n1", .cancel "n1", .fire 1, .reconcile 1 "n1" ["c2"]] r ∧
    ¬ NeverStale [.schedule 0 "n1" ["c1"], .fire 0, .reconcile 0 "n1" ["c1"],
      .schedule 1 "n1" ["c2"], .returned 0, .cleanUp 0 "n1", .cancel "n1", .fire 1, .reconcile 1 "n1" ["c2"]] := by
  have first : Run (fun _ _ => True) [.schedule 0 "n1" ["c1"], .fire 0, .reconcile 0 "n1" ["c1"]] _ :=
    ((Run.start.step (.schedule "n1" ["c1"]) trivial).step (.fire 0 rfl) trivial).step (.reconcile 0 rfl) trivial
  have second := ((first.step (.schedule "n1" ["c2"]) trivial).step (.returned 0 rfl) trivial).step
    (.cleanUp 0 rfl) trivial
  have last := ((second.step (.cancel "n1") trivial).step (.fire 1 rfl) trivial).step (.reconcile 1 rfl) trivial
  refine ⟨_, last, fun fresh => ?_⟩
  have fired := fresh [.schedule 0 "n1" ["c1"], .fire 0, .reconcile 0 "n1" ["c1"], .schedule 1 "n1" ["c2"],
    .returned 0, .cleanUp 0 "n1"] (.cancel "n1") [.fire 1, .reconcile 1 "n1" ["c2"]] 1 "n1" ["c2"] rfl
    (by decide) rfl (by decide)
  exact absurd fired (by decide)

end DistributedFs.Reconcile.Timers
