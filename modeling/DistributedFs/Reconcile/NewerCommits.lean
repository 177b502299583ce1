import DistributedFs.Concurrency.Alone
import DistributedFs.Scheduler.Runs

namespace DistributedFs.Reconcile

open Go Fsm MetadataFSM Healing.Prog Scheduler
open Healing hiding world Spawn
open Concurrency hiding Config

def Removes (chunkID nodeID : String) : Label → Prop
  | .propose (.evictChunkFromNode req) => req.chunkID = chunkID ∧ req.nodeID = nodeID
  | .deleteChunk node _ cid => cid = chunkID ∧ node = nodeID
  | _ => False

def recording (chunkID nodeID : String) : Command → Prop
  | .commitChunk req => req.chunkID = chunkID
  | .addChunkReplica req => req = ⟨chunkID, nodeID⟩
  | _ => False

def Recorded (e : Event System Label Label.Result) (chunkID nodeID : String) : Prop :=
  ∃ cmd orders, recording chunkID nodeID cmd ∧ e.label = .propose cmd ∧
    (e.before.fsm.handle orders cmd).2 = none ∧ e.after.fsm = (e.before.fsm.handle orders cmd).1 ∧
    Lists e.after.fsm chunkID nodeID

theorem step_lists {m after : FSM} {orders : Nat → MapOrder} {cmd : Command} {result : Option GoError}
    (step : Step m orders cmd after result) {chunkID nodeID : String} (listed : Lists after chunkID nodeID) :
    Lists m chunkID nodeID ∨ recording chunkID nodeID cmd ∧ result = none := by
  cases step with
  | failed | alreadyListed | nodes | jobs | mdNodes | commitFile | deleteFile => exact .inl listed
  | createFile req newID fresh =>
    left
    rcases lookup_created m req chunkID with ⟨index, _, stub⟩ | ⟨_, same⟩
    · exact absurd ((lists_found stub nodeID).mp listed) List.not_mem_nil
    · simpa only [Scheduler.Lists, replicasOf, same] using listed
  | commitChunk req chunk found guard =>
    rw [lists_setChunk] at listed
    split at listed
    · rename_i here
      exact .inr ⟨here.symm, rfl⟩
    · exact .inl listed
  | evict req chunk idx found present =>
    left
    rw [lists_setChunk] at listed
    split at listed
    · rename_i here
      rw [here]
      exact (lists_found found nodeID).mpr ((List.eraseIdx_sublist _ _).subset listed)
    · exact listed
  | markLost req chunk found =>
    left
    rw [lists_setChunk] at listed
    split at listed
    · rename_i here
      rw [here]
      exact (lists_found found nodeID).mpr listed
    · exact listed
  | addReplica req chunk found absent =>
    rw [lists_setChunk] at listed
    split at listed
    · rename_i here
      rw [here]
      rcases List.mem_append.mp listed with listed | listed
      · exact .inl ((lists_found found nodeID).mpr listed)
      · rw [List.mem_singleton.mp listed]
        exact .inr ⟨rfl, rfl⟩
    · exact .inl listed

theorem exec_lists {e : Event System Label Label.Result} (ran : Exec e.label e.before e.result e.after)
    {chunkID nodeID : String} (listed : Lists e.after.fsm chunkID nodeID) :
    Lists e.before.fsm chunkID nodeID ∨ Recorded e chunkID nodeID := by
  have step := exec_fsmStep ran
  generalize label : e.label = acted at step
  generalize reached : e.after.fsm = after at step listed
  cases step with
  | command cmd orders =>
    rcases step_lists (handle_step e.before.fsm orders cmd) listed with held | ⟨kind, accepted⟩
    · exact .inl held
    · exact .inr ⟨cmd, orders, kind, label, accepted, reached, reached ▸ listed⟩
  | seen seenID ts =>
    obtain ⟨registry, same⟩ := e.before.fsm.updateLastSeen_nodes_only seenID ts
    rw [same] at listed
    exact .inl listed
  | same => exact .inl listed

variable {parts : Components}

theorem steps_lists {c last : Config} {events : List (Event System Label Label.Result)}
    (steps : Steps (world parts) c events last) {chunkID nodeID : String}
    (listed : Lists last.state.fsm chunkID nodeID) :
    Lists c.state.fsm chunkID nodeID ∨ ∃ e ∈ events, Recorded e chunkID nodeID := by
  induction steps with
  | refl => exact .inl listed
  | spawn _ prog later allowed ih =>
    rw [spawn_fsm parts allowed] at listed
    exact ih listed
  | act _ i label next running result later ran ih =>
    rename_i mid _
    rcases exec_lists (e := ⟨i, mid.state, label, result, later⟩) ran listed with held | recorded
    · rcases ih held with held | ⟨e, member, recorded⟩
      · exact .inl held
      · exact .inr ⟨e, List.mem_append_left _ member, recorded⟩
    · exact .inr ⟨_, by simp, recorded⟩

def reconciling (nodeID : String) (differ : String → Prop) : Setting System Label Label.Result where
  exec _ _ _ _ := True
  promise label _ _ _ := ∀ chunkID, Removes chunkID nodeID label → differ chunkID
  rely _ _ := True
  refl _ := trivial
  trans _ _ := trivial

section Program

variable {nodeID : String} {differ : String → Prop} {s : System}
  {did : List ((label : Label) × label.Result)}

theorem ensures_act {label : Label} {next : label.Result → Prog}
    (kept : ∀ chunkID, Removes chunkID nodeID label → differ chunkID)
    (rest : ∀ result did s, (reconciling nodeID differ).Ensures (fun _ _ => True) did (next result) s) :
    (reconciling nodeID differ).Ensures (fun _ _ => True) did (.act label next) s :=
  fun _ _ result after _ => ⟨kept, rest result _ after⟩

theorem ensures_forEach {α : Type} {body : α → Prog} {items : List α}
    (each : ∀ item ∈ items, ∀ did s, (reconciling nodeID differ).Ensures (fun _ _ => True) did (body item) s) :
    (reconciling nodeID differ).Ensures (fun _ _ => True) did (forEach body items) s := by
  refine Setting.Ensures.forEach items [] (fun _ _ _ _ _ _ => trivial) ?_ trivial
  intro before item rest whole did s _
  rw [List.nil_append] at whole
  exact each item (by simp [whole]) did s

theorem ensures_ite {P : Prop} [Decidable P] {first second : Prog}
    (yes : (reconciling nodeID differ).Ensures (fun _ _ => True) did first s)
    (no : (reconciling nodeID differ).Ensures (fun _ _ => True) did second s) :
    (reconciling nodeID differ).Ensures (fun _ _ => True) did (if P then first else second) s := by
  split
  · exact yes
  · exact no

theorem schedule_removes_nothing (rs : RepairScheduler) (chunkID : String) :
    (reconciling nodeID differ).Ensures (fun _ _ => True) did (scheduleRepairForChunk rs chunkID) s := by
  refine Setting.Ensures.of_follows ?_ (scheduleRepairForChunk_scheduling rs chunkID)
  intro label _ _ _ scheduling other removes
  cases label with
  | propose cmd =>
    cases cmd with
    | createRepairJob => cases removes
    | _ => cases scheduling
  | deleteChunk => cases scheduling
  | _ => cases removes

theorem evict_removes {chunkID reason : String} {next : Option GoError → Prog} (differs : differ chunkID)
    (rest : ∀ answer did s, (reconciling nodeID differ).Ensures (fun _ _ => True) did (next answer) s) :
    (reconciling nodeID differ).Ensures (fun _ _ => True) did
      (proposeEvictChunk chunkID nodeID reason next) s := by
  apply ensures_act (fun _ => False.elim)
  intro evictedAt did s
  apply ensures_act ?_ rest
  intro other removes
  exact removes.1 ▸ differs

/-- The loops of `ReconcileNode` remove chunks on which the inventory and the list of expected
    chunks differ, and no others. -/
theorem loops_remove (rs : RepairScheduler) (replicationFactor : Int) (node : NodeEntry)
    (reported expected : List String) (differs : ∀ cid, ¬ (cid ∈ reported ↔ cid ∈ expected) → differ cid) :
    (reconciling nodeID differ).Ensures (fun _ _ => True) did
      ((forEach (fun cid =>
          if cid ∈ expected then done
          else look fun m _ =>
            evictStaleReplica nodeID
              ((m.nodeRegistry.lookup nodeID).map NodeEntry.address |>.getD node.address) cid) reported).andThen
        (forEach (fun cid =>
          if cid ∈ reported then done
          else handleMissingReplica rs replicationFactor nodeID cid) expected)) s := by
  apply Setting.Ensures.andThen
  have missing (did : List ((label : Label) × label.Result)) (s : System) :
      (reconciling nodeID differ).Ensures (fun _ _ => True) did (forEach (fun cid =>
        if cid ∈ reported then done
        else handleMissingReplica rs replicationFactor nodeID cid) expected) s := by
    apply ensures_forEach
    intro cid member did s
    split
    · exact fun _ _ => trivial
    · rename_i absent
      apply evict_removes (differs cid (by simp [absent, member]))
      intro answer did s
      cases answer with
      | some err => exact fun _ _ => trivial
      | none =>
        apply ensures_act (fun _ => False.elim)
        intro seen did s
        dsimp only
        split
        · exact fun _ _ => trivial
        · exact ensures_ite (schedule_removes_nothing rs cid) fun _ _ => trivial
  refine Setting.Ensures.mono ?_ fun did s (_ : True) => missing did s
  apply ensures_forEach
  intro cid member did s
  split
  · exact fun _ _ => trivial
  · rename_i absent
    have differs := differs cid (by simp [absent, member])
    apply ensures_act (fun _ => False.elim)
    intro seen did s
    apply evict_removes differs
    intro answer did s
    apply ensures_act ?_ fun _ _ _ _ _ => trivial
    intro other removes
    exact removes.1 ▸ differs

end Program

def ReadsExpected (i : Nat) (events pre : List (Event System Label Label.Result)) (s : System)
    (post : List (Event System Label Label.Result)) : Prop :=
  ∃ order, events = pre ++ ⟨i, s, .look, (s.fsm, order), s⟩ :: post ∧ (ownLog i pre).length = 1

/-- Until the reconciliation reads the expected chunks, only chunks of the inventory are recorded
    for the node, and after that only chunks on which the inventory and the expected ones agree. -/
structure Foreseen (i : Nat) (nodeID : String) (inventory : List String)
    (earlier events : List (Event System Label Label.Result)) : Prop where
  delayed : ∀ e ∈ earlier, ∀ chunkID, Recorded e chunkID nodeID → chunkID ∈ inventory
  unread : ∀ pre s post, ReadsExpected i events pre s post →
    ∀ e ∈ pre, ∀ chunkID, Recorded e chunkID nodeID → chunkID ∈ inventory
  read : ∀ pre s post, ReadsExpected i events pre s post →
    ∀ e ∈ post, ∀ chunkID, Recorded e chunkID nodeID → (chunkID ∈ inventory ↔ Lists s.fsm chunkID nodeID)

theorem look_not_recorded {e : Event System Label Label.Result} (looks : e.label = .look)
    (chunkID nodeID : String) : ¬ Recorded e chunkID nodeID := by
  intro recorded
  obtain ⟨cmd, _, _, proposes, _⟩ := recorded
  cases looks.symm.trans proposes

theorem ended_acts_not {c last : Config} {events : List (Event System Label Label.Result)}
    (steps : Steps (world parts) c events last) {i : Nat} (ended : c.procs[i]? = some .done) :
    ∀ e ∈ events, e.proc ≠ i := by
  rcases steps.firstOwn ended with none | ⟨_, _, _, _, _, _, _, _, program, _⟩
  · exact none
  · cases program

theorem firstLook {c last : Config} {events pre post : List (Event System Label Label.Result)}
    (steps : Steps (world parts) c events last) {i : Nat} {next : FSM → MapOrder → Prog}
    (running : c.procs[i]? = some (look next)) {e : Event System Label Label.Result}
    (split : events = pre ++ e :: post) (mine : e.proc = i) (acts : e.label ≠ .look) :
    ∃ waited s order later procs, pre = waited ++ ⟨i, s, .look, (s.fsm, order), s⟩ :: later ∧
      (∀ other ∈ waited, other.proc ≠ i) ∧ procs[i]? = some (next s.fsm order) ∧
      Steps (world parts) ⟨s, procs⟩ (later ++ e :: post) last := by
  have ran := steps.exec
  rcases steps.firstOwn running with
    none | ⟨waited, first, rest, after, procs, whole, before, own, program, resumed, others⟩
  · exact absurd mine (none e (by simp [split]))
  · obtain ⟨proc, s, label, result, left⟩ := first
    have looked : Exec label s result left := ran ⟨proc, s, label, result, left⟩ (by simp [whole])
    cases program
    cases own
    cases looked with
    | look _ order =>
      rcases split_cases (split.symm.trans whole) with ⟨later, place, same⟩ | same | member
      · rw [same] at others
        exact ⟨waited, s, order, later, procs, place, before, resumed, others⟩
      · rw [same] at acts
        exact absurd rfl acts
      · exact absurd mine (before e member)

theorem ownLog_of_others {i : Nat} {events : List (Event System Label Label.Result)}
    (others : ∀ e ∈ events, e.proc ≠ i) : ownLog i events = [] := by
  simp only [ownLog, List.map_eq_nil_iff, List.filter_eq_nil_iff, decide_eq_true_eq]
  exact others

section Reconciliation

variable {registered started last : Config} {earlier events : List (Event System Label Label.Result)} {i : Nat}
  {nodeID : String} {inventory : List String} {history : History}

theorem removal_after_read
    (running : started.procs[i]? =
      some (reconcileNode parts.scheduler parts.replicationFactor nodeID inventory))
    (steps : Steps (world parts) started events last)
    {pre post : List (Event System Label Label.Result)} {e : Event System Label Label.Result}
    (split : events = pre ++ e :: post) (mine : e.proc = i) {chunkID : String}
    (removes : Removes chunkID nodeID e.label) :
    ∃ unread s order read procs, pre = unread ++ ⟨i, s, .look, (s.fsm, order), s⟩ :: read ∧
      (ownLog i unread).length = 1 ∧ Steps (world parts) ⟨s, procs⟩ (read ++ e :: post) last ∧
      ¬ (chunkID ∈ inventory ↔ chunkID ∈ s.fsm.getChunksByNode order nodeID) := by
  have acts : e.label ≠ .look := by
    intro looks
    rw [looks] at removes
    exact removes
  obtain ⟨waited, s, order, later, procs, place, before, resumed, rest⟩ :=
    firstLook steps running split mine acts
  cases registered : s.fsm.getNode nodeID with
  | error err =>
    rw [registered] at resumed
    exact absurd mine (ended_acts_not rest resumed e (by simp))
  | ok node =>
    rw [registered] at resumed
    obtain ⟨unread, s', order', read, procs', place', before', resumed', rest'⟩ :=
      firstLook rest resumed rfl mine acts
    refine ⟨waited ++ ⟨i, s, .look, (s.fsm, order), s⟩ :: unread, s', order', read, procs', ?_, ?_, rest', ?_⟩
    · simp [place, place']
    · have first := ownLog_of_others before
      have second := ownLog_of_others before'
      simp only [ownLog, List.map_eq_nil_iff] at first second
      simp [ownLog, first, second]
    · have loops : (reconciling nodeID fun cid => ¬ (cid ∈ inventory ↔
          cid ∈ s'.fsm.getChunksByNode order' nodeID)).Ensures (fun _ _ => True) [] _ s' :=
        loops_remove parts.scheduler parts.replicationFactor node inventory
          (s'.fsm.getChunksByNode order' nodeID) fun _ differs => differs
      have promised := (Setting.Ensures.steps (c := ⟨s', procs'⟩) loops resumed' rest'
        (fun _ _ _ => trivial) (fun _ _ _ => trivial) fun _ _ _ _ => trivial).1
      exact promised e (by simp) mine chunkID removes

/-- Where only foreseen replicas are recorded from the inventory on, a delayed reconciliation
    takes no replica from a list or a disk that was recorded since. -/
theorem newer_replicas_kept (reached : Reached history registered.state.fsm)
    (delay : Steps (world parts) registered earlier started)
    (running : started.procs[i]? =
      some (reconcileNode parts.scheduler parts.replicationFactor nodeID inventory))
    (steps : Steps (world parts) started events last) (foreseen : Foreseen i nodeID inventory earlier events) :
    ∀ pre e post, events = pre ++ e :: post → e.proc = i → ∀ chunkID, Removes chunkID nodeID e.label →
      Lists e.before.fsm chunkID nodeID → ∀ newer ∈ earlier ++ pre, ¬ Recorded newer chunkID nodeID := by
  intro pre e post split mine chunkID removes listed newer member recorded
  obtain ⟨unread, s, order, read, procs, place, once, rest, differs⟩ :=
    removal_after_read running steps split mine removes
  have reads : ReadsExpected i events unread s (read ++ e :: post) := ⟨order, by simp [split, place], once⟩
  have expected : chunkID ∈ s.fsm.getChunksByNode order nodeID ↔ Lists s.fsm chunkID nodeID := by
    have known := (steps_reached parts steps (steps_reached parts delay ⟨history, reached⟩).1).2
      ⟨i, s, .look, (s.fsm, order), s⟩ (by simp [split, place])
    obtain ⟨_, known⟩ := known
    exact mem_chunksByNode (reached_registryKeys known) order chunkID nodeID
  have unrecorded : ∀ e ∈ read, ¬ Recorded e chunkID nodeID := by
    intro other inside recorded
    apply differs
    rw [expected]
    exact foreseen.read unread s _ reads other (by simp [inside]) chunkID recorded
  have then_ : Lists s.fsm chunkID nodeID := by
    obtain ⟨mid, between, met⟩ := rest.upTo rfl
    rw [← met] at listed
    rcases steps_lists between listed with held | ⟨other, inside, recorded⟩
    · exact held
    · exact absurd recorded (unrecorded other inside)
  have inventoried : chunkID ∈ inventory := by
    rw [place] at member
    rcases List.mem_append.mp member with member | member
    · exact foreseen.delayed newer member chunkID recorded
    · rcases List.mem_append.mp member with member | member
      · exact foreseen.unread unread s _ reads newer member chunkID recorded
      · rcases List.mem_cons.mp member with rfl | member
        · exact absurd recorded (look_not_recorded rfl chunkID nodeID)
        · exact absurd recorded (unrecorded newer member)
  apply differs
  exact ⟨fun _ => expected.mpr then_, fun _ => inventoried⟩

end Reconciliation

/-- A file is created, `n2` leaves, and `n1` receives the chunk of the file. -/
def receive (s : System) : List (System × Label) × System :=
  let created := alone 3 (propose newFile fun _ => done) s
  let left := alone 3 (deregisterNode twoCopies "n2") created.2
  let written := alone 3 (act (.store "n1" "ck-1") fun _ => done) left.2
  let committed := alone 3 (commitChunk twoCopies ⟨"ck-1", ["n1"], [7]⟩) written.2
  (created.1 ++ left.1 ++ written.1 ++ committed.1, committed.2)

theorem receive_steps (s : System) (procs : List Prog) :
    ∃ earlier procs', Steps (world twoCopies) ⟨s, procs⟩ earlier ⟨(receive s).2, procs'⟩ ∧
      (earlier.map fun e => (e.before, e.label)) = (receive s).1 ∧
      ∀ e ∈ earlier, e.after = (execFresh 3 e.label e.before).2 := by
  have start : Steps (world twoCopies) ⟨s, procs⟩ [] ⟨s, procs⟩ := .refl
  obtain ⟨first, _, created, trace, own⟩ :=
    start.call (execFresh_exec 3) (.component (.client _ newFile rfl))
  obtain ⟨second, _, left, trace', own'⟩ :=
    created.call (execFresh_exec 3) (.component (.deregisterNode _ "n2"))
  obtain ⟨third, _, written, trace'', own''⟩ :=
    left.call (execFresh_exec 3) (.component (.store _ "n1" "ck-1"))
  obtain ⟨fourth, procs', committed, last, ownLast⟩ :=
    written.call (execFresh_exec 3) (.component (.commitChunk _ ⟨"ck-1", ["n1"], [7]⟩))
  refine ⟨_, procs', committed, ?_, ?_⟩
  · simp only [List.nil_append, List.map_append, trace, trace', trace'', last]
    rfl
  · intro e member
    simp only [List.nil_append, List.mem_append] at member
    rcases member with ((member | member) | member) | member
    · exact own e member
    · exact own' e member
    · exact own'' e member
    · exact ownLast e member

instance (chunkID nodeID : String) (label : Label) : Decidable (Removes chunkID nodeID label) :=
  decidable_of_iff ((match label with
    | .propose (.evictChunkFromNode req) => decide (req.chunkID = chunkID ∧ req.nodeID = nodeID)
    | .deleteChunk node _ cid => decide (cid = chunkID ∧ node = nodeID)
    | _ => false) = true) (by unfold Removes; split <;> simp)

def Commits (s : System) (chunkID nodeID : String) : Label → Prop
  | .propose (.commitChunk req) => req.chunkID = chunkID ∧
      (s.fsm.handle (fun _ => default) (.commitChunk req)).2 = none ∧
      Lists (s.fsm.handle (fun _ => default) (.commitChunk req)).1 chunkID nodeID
  | _ => False

instance (s : System) (chunkID nodeID : String) (label : Label) : Decidable (Commits s chunkID nodeID label) :=
  decidable_of_iff ((match label with
    | .propose (.commitChunk req) => decide (req.chunkID = chunkID ∧
      (s.fsm.handle (fun _ => default) (.commitChunk req)).2 = none ∧
      Lists (s.fsm.handle (fun _ => default) (.commitChunk req)).1 chunkID nodeID)
    | _ => false) = true) (by unfold Commits; split <;> simp)

theorem Commits.recorded {e : Event System Label Label.Result} {chunkID nodeID : String}
    (commits : Commits e.before chunkID nodeID e.label) (left : e.after = (execFresh 3 e.label e.before).2) :
    Recorded e chunkID nodeID := by
  obtain ⟨proc, before, label, result, after⟩ := e
  dsimp only at commits left
  unfold Commits at commits
  split at commits
  · obtain ⟨named, accepted, listed⟩ := commits
    subst left
    exact ⟨.commitChunk _, _, named, rfl, accepted, rfl, listed⟩
  · cases commits

def fired (s : System) (inventory : List String) : System :=
  { (receive s).2 with armed := (receive s).2.armed.erase ("n1", inventory) }

def timer (inventory : List String) : Prog :=
  reconcileNode twoCopies.scheduler twoCopies.replicationFactor "n1" inventory

def reconciled (s : System) (inventory : List String) : List (System × Label) × System :=
  alone 60 (timer inventory) (fired s inventory)

theorem reconciled_steps {s : System} {inventory : List String} (procs : List Prog)
    (armed : ("n1", inventory) ∈ (receive s).2.armed) :
    ∃ started last earlier events i, Steps (world twoCopies) ⟨s, procs⟩ earlier started ∧
      started.procs[i]? = some (timer inventory) ∧ Steps (world twoCopies) started events last ∧
      ((earlier.map fun e => (e.before, e.label)) = (receive s).1 ∧
        ∀ e ∈ earlier, e.after = (execFresh 3 e.label e.before).2) ∧
      (events.map fun e => (e.before, e.label)) = (reconciled s inventory).1 ∧
        ∀ e ∈ events, e.proc = i ∧ e.after = (execFresh 60 e.label e.before).2 := by
  obtain ⟨earlier, others, delay, trace, own⟩ := receive_steps s procs
  have waiting : Steps (world twoCopies) ⟨s, procs⟩ earlier ⟨fired s inventory, others ++ [timer inventory]⟩ :=
    delay.spawn _ _ (.component (.reconcile _ "n1" inventory armed))
  have start : Steps (world twoCopies) ⟨fired s inventory, others ++ [timer inventory]⟩ []
      ⟨fired s inventory, others ++ [timer inventory]⟩ := .refl
  have running : (others ++ [timer inventory])[others.length]? = some (timer inventory) := by simp
  obtain ⟨events, _, steps, _, trace', own'⟩ := start.runAlone (execFresh_exec 60) _ running
  exact ⟨_, _, earlier, events, others.length, waiting, running, steps, ⟨trace, own⟩, trace',
    fun e member => ⟨(own' e member).1, (own' e member).2.2⟩⟩

def registeredBare : System :=
  (alone 0 (registerNode (newNode "n1" "10.0.0.1:9000"))
    (alone 0 (registerNode (newNode "n2" "10.0.0.2:9000")) System.empty).2).2

theorem fresh_upload_evicted :
    ∃ registered started last earlier events i,
      Reachable (world twoCopies) empty registered ∧ (∀ cid, cid ∉ registered.state.disks "n1") ∧
      ("n1", []) ∈ registered.state.armed ∧ Steps (world twoCopies) registered earlier started ∧
      started.procs[i]? = some (timer []) ∧ Steps (world twoCopies) started events last ∧
      (∃ newer ∈ earlier, Recorded newer "ck-1" "n1") ∧
      ∃ e ∈ events, e.proc = i ∧ Removes "ck-1" "n1" e.label ∧ "ck-1" ∈ e.before.disks "n1" ∧
        Lists e.before.fsm "ck-1" "n1" ∧ ¬ Lists e.after.fsm "ck-1" "n1" := by
  have commit : ∃ x ∈ (receive registeredBare).1, Commits x.1 "ck-1" "n1" x.2 := by decide
  have removal : ∃ x ∈ (reconciled registeredBare []).1, Removes "ck-1" "n1" x.2 ∧ "ck-1" ∈ x.1.disks "n1" ∧
    Lists x.1.fsm "ck-1" "n1" ∧ ¬ Lists (execFresh 60 x.2 x.1).2.fsm "ck-1" "n1" := by decide
  have armed : ("n1", []) ∈ registeredBare.armed := by decide
  have later : ("n1", []) ∈ (receive registeredBare).2.armed := by decide
  have beside := (Sequential.empty twoCopies fun _ _ _ => True).andCall twoCopies 0
    (.component (.registerNode _ (newNode "n2" "10.0.0.2:9000") (newNode_inventory _ rfl)))
  obtain ⟨procs, _, reached⟩ := beside.andCall twoCopies 0
    (.component (.registerNode _ (newNode "n1" "10.0.0.1:9000") (newNode_inventory _ rfl)))
  obtain ⟨started, last, earlier, events, i, delay, running, steps, ⟨trace, own⟩, trace', own'⟩ :=
    reconciled_steps procs later
  refine ⟨_, started, last, earlier, events, i, reached, fun _ => Finset.notMem_empty _, armed, delay, running,
    steps, ?_, ?_⟩
  · obtain ⟨x, member, commits⟩ := commit
    rw [← trace] at member
    obtain ⟨newer, inside, rfl⟩ := List.mem_map.mp member
    exact ⟨newer, inside, Commits.recorded commits (own newer inside)⟩
  · obtain ⟨x, member, removes, held, listed, unlisted⟩ := removal
    rw [← trace'] at member
    obtain ⟨e, inside, rfl⟩ := List.mem_map.mp member
    obtain ⟨mine, left⟩ := own' e inside
    exact ⟨e, inside, mine, removes, held, listed, left ▸ unlisted⟩

def registeredHolding : System :=
  (alone 0 (registerNode ⟨"n1", "10.0.0.1:9000", 100000, ["ck-1"]⟩)
    (alone 0 (act (.store "n1" "ck-1") fun _ => done)
      (alone 0 (registerNode (newNode "n2" "10.0.0.2:9000")) System.empty).2).2).2

def looks : Label → Bool
  | .look => true
  | _ => false

theorem newer_replicas_kept_inventoried :
    ∃ registered started last earlier events, ∃ i : Nat, Steps (world twoCopies) registered earlier started ∧
      started.procs[i]? = some (timer ["ck-1"]) ∧ Steps (world twoCopies) started events last ∧
      (∃ newer ∈ earlier, Recorded newer "ck-1" "n1") ∧
      ∀ e ∈ events, Removes "ck-1" "n1" e.label → ¬ Lists e.before.fsm "ck-1" "n1" := by
  have commit : ∃ x ∈ (receive registeredHolding).1, Commits x.1 "ck-1" "n1" x.2 := by decide
  have only : ∀ x ∈ (receive registeredHolding).1, ∀ cid chunk,
    (execFresh 3 x.2 x.1).2.fsm.chunkRegistry.lookup cid = some chunk → cid ∈ ["ck-1"] := by decide
  have quiet : ∀ x ∈ (reconciled registeredHolding ["ck-1"]).1, looks x.2 = true := by decide
  have later : ("n1", ["ck-1"]) ∈ (receive registeredHolding).2.armed := by decide
  have joined : ∃ history, Reached history registeredHolding.fsm := by
    have beside := (Sequential.empty twoCopies fun _ _ _ => True).andCall twoCopies 0
      (.component (.registerNode _ (newNode "n2" "10.0.0.2:9000") (newNode_inventory _ rfl)))
    have stored := beside.andCall twoCopies 0 (.component (.store _ "n1" "ck-1"))
    have held : (alone 0 (act (.store "n1" "ck-1") fun _ => done)
        (alone 0 (registerNode (newNode "n2" "10.0.0.2:9000")) System.empty).2).2.disks "n1" = {"ck-1"} := by decide
    obtain ⟨_, _, run⟩ := stored.andCall twoCopies 0
      (.component (.registerNode _ ⟨"n1", "10.0.0.1:9000", 100000, ["ck-1"]⟩ (by simp [held])))
    exact reached_fsm twoCopies ⟨[], .empty⟩ run
  obtain ⟨history, reached⟩ := joined
  obtain ⟨started, last, earlier, events, i, delay, running, steps, ⟨trace, own⟩, trace', own'⟩ :=
    reconciled_steps [] later
  have silent (e : Event System Label Label.Result) (member : e ∈ events) : e.label = .look := by
    have looked := quiet (e.before, e.label) (trace' ▸ List.mem_map_of_mem member)
    dsimp only at looked
    unfold looks at looked
    split at looked
    · assumption
    · cases looked
  have foreseen : Foreseen i "n1" ["ck-1"] earlier events := by
    refine ⟨?_, ?_, ?_⟩
    · intro e member chunkID recorded
      obtain ⟨_, _, _, _, _, _, listed⟩ := recorded
      cases found : e.after.fsm.chunkRegistry.lookup chunkID with
      | none => simp [Scheduler.Lists, replicasOf, found] at listed
      | some chunk =>
        rw [own e member] at found
        exact only (e.before, e.label) (trace ▸ List.mem_map_of_mem member) chunkID chunk found
    · intro pre s post reads e member chunkID recorded
      obtain ⟨_, split, _⟩ := reads
      exact absurd recorded (look_not_recorded (silent e (by simp [split, member])) _ _)
    · intro pre s post reads e member chunkID recorded
      obtain ⟨_, split, _⟩ := reads
      exact absurd recorded (look_not_recorded (silent e (by simp [split, member])) _ _)
  obtain ⟨x, member, commits⟩ := commit
  rw [← trace] at member
  obtain ⟨newer, inside, rfl⟩ := List.mem_map.mp member
  have recorded := Commits.recorded commits (own newer inside)
  refine ⟨_, started, last, earlier, events, i, delay, running, steps, ⟨newer, inside, recorded⟩, ?_⟩
  intro e member removes listed
  obtain ⟨pre, post, split⟩ := List.append_of_mem member
  exact newer_replicas_kept reached delay running steps foreseen pre e post split (own' e member).1 "ck-1" removes
    listed newer (List.mem_append_left _ inside) recorded

end DistributedFs.Reconcile
