import DistributedFs.Fsm.Agreement
import DistributedFs.Fsm.Lifecycle
import DistributedFs.Internal.Retry
import DistributedFs.Storage.FanOut
import DistributedFs.Storage.Replication
import DistributedFs.Storage.Service

namespace DistributedFs.Internal

open Go

/-- `Policy.Do` between two attempts: how many it has made, and the error of the last one. -/
structure Retrying where
  attempt : Nat
  lastErr : Option GoError

def Retrying.start : Retrying := ⟨0, none⟩

namespace Policy

/-- The error with which the loop ends before an attempt. A context that ends while the loop
    sleeps is noticed here as well. -/
def enter (p : Policy) (ctxErr : Option GoError) (r : Retrying) : Option GoError :=
  if (r.attempt : Int) < p.maxAttempts then ctxErr else some (exhausted r.lastErr)

def leave (p : Policy) (r : Retrying) : Option GoError → Except (Option GoError) Retrying
  | none => .error none
  | some err =>
    if (r.attempt : Int) = p.maxAttempts - 1 then .error (some (exhausted (some err)))
    else .ok ⟨r.attempt + 1, some err⟩

theorem attempts_eq_turn {σ : Type} {p : Policy} {left attempt : Nat}
    (count : p.maxAttempts = attempt + (left + 1 : Nat)) (waits : Waits) (fn : Nat → σ → Option GoError × σ)
    (lastErr : Option GoError) (s : σ) :
    attempts waits fn (left + 1) attempt lastErr s =
      match p.enter (waits.ctxErr attempt) ⟨attempt, lastErr⟩ with
      | some err => (some err, s)
      | none =>
        match p.leave ⟨attempt, lastErr⟩ (fn attempt s).1 with
        | .error result => (result, (fn attempt s).2)
        | .ok r =>
          match waits.asleep attempt with
          | some err => (some err, (fn attempt s).2)
          | none => attempts waits fn left r.attempt r.lastErr (fn attempt s).2 := by
  have entered : (attempt : Int) < p.maxAttempts := by omega
  simp only [attempts, enter, entered, if_true]
  cases waits.ctxErr attempt with
  | some err => rfl
  | none =>
    generalize fn attempt s = outcome
    obtain ⟨result, after⟩ := outcome
    cases result with
    | none => rfl
    | some err =>
      by_cases last : left = 0
      · have final : (attempt : Int) = p.maxAttempts - 1 := by omega
        simp only [leave, last, final, if_true]
      · have more : ¬(attempt : Int) = p.maxAttempts - 1 := by omega
        cases waits.asleep attempt with
        | none => simp only [leave, last, more, if_false]
        | some ended => simp only [leave, last, more, if_false]

theorem leave_nil {p : Policy} {r : Retrying} {outcome : Option GoError} (ends : p.leave r outcome = .error none) :
    outcome = none := by
  cases outcome with
  | none => rfl
  | some err =>
    simp only [leave] at ends
    split at ends
    · cases ends
    · cases ends

end Policy

end DistributedFs.Internal

namespace DistributedFs.Storage

open Go Fsm MetadataFSM Server DiskStore Internal ReplicationManager

/-- The text of an error of `replicateToSingleNode`; `quote` is the verb `%q`. -/
def ReplicationError.err (quote : String → String) (chunkId address : String) : ReplicationError → GoError
  | .cancelled cause => cause
  | .dial cause => .new ("dial " ++ quote address ++ ": " ++ cause.text)
  | .openStream cause => .new ("open ReplicateChunk stream to " ++ quote address ++ ": " ++ cause.text)
  | .openReader cause => .new ("open ChunkReader for " ++ quote chunkId ++ ": " ++ cause.text)
  | .readFrame cause => .new ("read frame for " ++ quote chunkId ++ ": " ++ cause.text)
  | .sendFrame cause =>
    .new ("send frame for " ++ quote chunkId ++ " to " ++ quote address ++ ": " ++ cause.text)
  | .recvAck cause => .new ("recv ack from " ++ quote address ++ ": " ++ cause.text)
  | .negativeAck => .new ("negative ack from " ++ quote address ++ " for chunk " ++ quote chunkId)
  | .closeSend cause => .new ("close send to " ++ quote address ++ ": " ++ cause.text)
  | .recvFinal cause => .new ("recv final response from " ++ quote address ++ ": " ++ cause.text)

/-- A node that sends chunks, the stores behind the addresses it knows, and its retry policy. -/
structure Site where
  source : DiskStore
  stores : String → DiskStore
  policy : Policy
  quote : String → String

structure Disks where
  source : Disk
  peers : String → Disk

namespace Site

variable {site : Site} {env : LinkEnv} {chunkId addr : String} {disks : Disks} {content : List UInt8}

def transfer (site : Site) (env : LinkEnv) (chunkId addr : String) (disks : Disks) : Option GoError × Disks :=
  let done := replicateToSingleNode site.source (site.stores addr) env chunkId disks.source (disks.peers addr)
  (done.1.map (ReplicationError.err site.quote chunkId addr),
    { disks with peers := fun other => if other = addr then done.2 else disks.peers other })

theorem transfer_ok (held : Holding site.source chunkId content disks.source)
    (apart : Apart (site.stores addr) chunkId env.peer.others)
    (copied : (site.transfer env chunkId addr disks).1 = none) :
    Holding (site.stores addr) chunkId content ((site.transfer env chunkId addr disks).2.peers addr) := by
  have ran := Option.map_eq_none_iff.mp copied
  simp only [transfer, if_true]
  exact (replicateToSingleNode_ok held apart ran).2

theorem transfer_other {other : String} (away : other ≠ addr) :
    (site.transfer env chunkId addr disks).2.peers other = disks.peers other := by
  simp only [transfer, away, if_false]

def server (site : Site) (nodeID : String) : StorageServer := ⟨nodeID, site.source, true, true⟩

end Site

namespace FanOut

structure World where
  call : State
  goroutines : List (String × Retrying)
  disks : Disks

def World.begin (targets : List String) (ctxErr : Option GoError) (disks : Disks) : World :=
  ⟨start targets false ctxErr, targets.map fun addr => (addr, .start), disks⟩

def State.sent (s : State) (running : List String) (r : Result) : State :=
  { s with running := running, results := s.results ++ [r] }

/-- A step of a fan-out of `chunkId`: of one goroutine, of the caller, the timer or the context,
    or of anybody else on the disks, where the copies of the chunk with this content stay. While a
    goroutine sends the chunk, no other session of the peer writes it. -/
inductive Progress (site : Site) (chunkId : String) (content : List UInt8) (targets : List String) :
    World → List Event → World → Prop where
  | stop {w : World} {before after : List (String × Retrying)} {addr : String} {r : Retrying} {err : GoError}
    (active : w.goroutines = before ++ (addr, r) :: after)
    (ends : site.policy.enter w.call.ctxErr r = some err) (room : w.call.results.length < targets.length) :
    Progress site chunkId content targets w []
      ⟨w.call.sent ((before ++ after).map Prod.fst) ⟨addr, some err⟩, before ++ after, w.disks⟩
  | retry {w : World} {before after : List (String × Retrying)} {addr : String} {r later : Retrying}
    (active : w.goroutines = before ++ (addr, r) :: after)
    (goes : site.policy.enter w.call.ctxErr r = none) (env : LinkEnv)
    (apart : Apart (site.stores addr) chunkId env.peer.others)
    (again : site.policy.leave r (site.transfer env chunkId addr w.disks).1 = .ok later) :
    Progress site chunkId content targets w []
      ⟨w.call, before ++ (addr, later) :: after, (site.transfer env chunkId addr w.disks).2⟩
  | finish {w : World} {before after : List (String × Retrying)} {addr : String} {r : Retrying}
    {result : Option GoError} (active : w.goroutines = before ++ (addr, r) :: after)
    (goes : site.policy.enter w.call.ctxErr r = none) (env : LinkEnv)
    (apart : Apart (site.stores addr) chunkId env.peer.others)
    (ends : site.policy.leave r (site.transfer env chunkId addr w.disks).1 = .error result)
    (room : w.call.results.length < targets.length) :
    Progress site chunkId content targets w []
      ⟨w.call.sent ((before ++ after).map Prod.fst) ⟨addr, result⟩, before ++ after,
        (site.transfer env chunkId addr w.disks).2⟩
  | call {w : World} {events : List Event} {later : State} (step : Step targets w.call events later)
    (same : later.running = w.call.running) :
    Progress site chunkId content targets w events { w with call := later }
  | others {w : World} (disks : Disks)
    (source : Holding site.source chunkId content w.disks.source →
      Holding site.source chunkId content disks.source)
    (peers : ∀ addr, Holding (site.stores addr) chunkId content (w.disks.peers addr) →
      Holding (site.stores addr) chunkId content (disks.peers addr)) :
    Progress site chunkId content targets w [] { w with disks := disks }

inductive Fanning (site : Site) (chunkId : String) (content : List UInt8) (targets : List String)
    (first : World) : List Event → World → Prop where
  | start : Fanning site chunkId content targets first [] first
  | step {events received : List Event} {w later : World}
    (before : Fanning site chunkId content targets first events w)
    (next : Progress site chunkId content targets w received later) :
    Fanning site chunkId content targets first (events ++ received) later

section

variable {site : Site} {chunkId : String} {content : List UInt8} {targets : List String}
  {w later : World} {events received : List Event}

def World.Aligned (w : World) : Prop := w.goroutines.map Prod.fst = w.call.running

theorem Step.of_sent {before after : List (String × Retrying)} {addr : String} {r : Retrying}
    (aligned : w.Aligned) (active : w.goroutines = before ++ (addr, r) :: after)
    (room : w.call.results.length < targets.length) (err : Option GoError) :
    Step targets w.call [] (w.call.sent ((before ++ after).map Prod.fst) ⟨addr, err⟩) := by
  have running : w.call.running = before.map Prod.fst ++ addr :: after.map Prod.fst := by
    rw [← aligned, active, List.map_append, List.map_cons]
  rw [List.map_append]
  exact .send err running room

theorem Progress.call_step (aligned : w.Aligned) (next : Progress site chunkId content targets w received later) :
    later.Aligned ∧ (Step targets w.call received later.call ∨ received = [] ∧ later.call = w.call) := by
  cases next with
  | stop active ends room => exact ⟨rfl, .inl (.of_sent aligned active room _)⟩
  | retry active goes env apart again =>
    refine ⟨?_, .inr ⟨rfl, rfl⟩⟩
    have running := aligned
    unfold World.Aligned at running ⊢
    rw [← running, active, List.map_append, List.map_append, List.map_cons, List.map_cons]
  | finish active goes env apart ends room => exact ⟨rfl, .inl (.of_sent aligned active room _)⟩
  | call step same => exact ⟨aligned.trans same.symm, .inl step⟩
  | others disks source peers => exact ⟨aligned, .inr ⟨rfl, rfl⟩⟩

theorem begin_aligned (some : targets ≠ []) (ctxErr : Option GoError) (disks : Disks) :
    (World.begin targets ctxErr disks).Aligned := by
  have filled : targets.length ≠ 0 := by simpa using some
  simp only [World.Aligned, World.begin, start, filled, if_false, List.map_map]
  exact List.map_id targets

theorem Fanning.run {first : World} (aligned : first.Aligned)
    (fanning : Fanning site chunkId content targets first events w) :
    w.Aligned ∧ Run targets first.call events w.call := by
  induction fanning with
  | start => exact ⟨aligned, .start⟩
  | step _ next ih =>
    obtain ⟨later, stepped | ⟨rfl, same⟩⟩ := next.call_step ih.1
    · exact ⟨later, ih.2.step stepped⟩
    · rw [List.append_nil, same]
      exact ⟨later, ih.2⟩

structure Truthful (site : Site) (chunkId : String) (content : List UInt8) (events : List Event) (w : World) :
    Prop where
  source : Holding site.source chunkId content w.disks.source
  waiting : ∀ r ∈ w.call.results, r.err = none →
    Holding (site.stores r.addr) chunkId content (w.disks.peers r.addr)
  received : ∀ addr ∈ successes events, Holding (site.stores addr) chunkId content (w.disks.peers addr)

theorem successes_sublist (events : List Event) :
    (successes events).Sublist (events.filterMap Event.addr?) := by
  induction events with
  | nil => exact List.Sublist.refl _
  | cons event rest ih =>
    cases event with
    | timeout => simpa [successes, List.filterMap_cons, Event.success?, Event.addr?] using ih
    | cancelled err => simpa [successes, List.filterMap_cons, Event.success?, Event.addr?] using ih
    | result r =>
      obtain ⟨addr, err⟩ := r
      simp only [successes, List.filterMap_cons, Event.success?, Event.addr?]
      cases err with
      | none => exact ih.cons_cons addr
      | some err => exact ih.cons addr

/-- A goroutine that runs has no result yet, so what it does to its node touches no success. -/
theorem Truthful.transferred (truthful : Truthful site chunkId content events w)
    (accounted : Accounted targets events w.call) (distinct : targets.Nodup) {addr : String}
    (running : addr ∈ w.call.running) (env : LinkEnv) :
    Truthful site chunkId content events { w with disks := (site.transfer env chunkId addr w.disks).2 } := by
  have separate := accounted.nodup_iff.mpr distinct
  rw [List.nodup_append] at separate
  obtain ⟨_, _, apart⟩ := separate
  refine ⟨truthful.source, ?_, ?_⟩
  · intro r member success
    have away : r.addr ≠ addr := apart r.addr (List.mem_append_right _ (List.mem_map_of_mem member)) addr running
    show Holding _ _ _ ((site.transfer env chunkId addr w.disks).2.peers r.addr)
    rw [Site.transfer_other away]
    exact truthful.waiting r member success
  · intro other member
    have away : other ≠ addr :=
      apart other (List.mem_append_left _ ((successes_sublist events).subset member)) addr running
    show Holding _ _ _ ((site.transfer env chunkId addr w.disks).2.peers other)
    rw [Site.transfer_other away]
    exact truthful.received other member

theorem Truthful.sent (truthful : Truthful site chunkId content events w) (running : List String)
    (goroutines : List (String × Retrying)) {addr : String} {err : Option GoError}
    (honest : err = none → Holding (site.stores addr) chunkId content (w.disks.peers addr)) :
    Truthful site chunkId content events ⟨w.call.sent running ⟨addr, err⟩, goroutines, w.disks⟩ := by
  refine ⟨truthful.source, ?_, truthful.received⟩
  intro r member success
  rcases List.mem_append.mp member with member | member
  · exact truthful.waiting r member success
  · cases List.mem_singleton.mp member
    exact honest success

theorem Truthful.call (truthful : Truthful site chunkId content events w) {after : State}
    (step : Step targets w.call received after) (same : after.running = w.call.running) :
    Truthful site chunkId content (events ++ received) { w with call := after } := by
  cases step with
  | send err active room =>
    -- a result that is sent leaves the goroutines that run
    rw [active] at same
    have lengths := congrArg List.length same
    simp only [List.length_append, List.length_cons] at lengths
    omega
  | expire => exact ⟨truthful.source, truthful.waiting, by simpa [successes] using truthful.received⟩
  | cancel err live => exact ⟨truthful.source, truthful.waiting, by simpa [successes] using truthful.received⟩
  | timeout loops ready =>
    exact ⟨truthful.source, truthful.waiting,
      by simpa [successes, List.filterMap_cons, Event.success?] using truthful.received⟩
  | done loops ready =>
    exact ⟨truthful.source, truthful.waiting,
      by simpa [successes, List.filterMap_cons, Event.success?] using truthful.received⟩
  | finish loops => exact ⟨truthful.source, truthful.waiting, by simpa [successes] using truthful.received⟩
  | receive loops ready =>
    rename_i r rest
    have waiting := truthful.waiting
    rw [ready] at waiting
    refine ⟨truthful.source, fun other member => waiting other (List.mem_cons_of_mem r member), ?_⟩
    intro addr member
    rw [successes, List.filterMap_append] at member
    rcases List.mem_append.mp member with earlier | now
    · exact truthful.received addr earlier
    · obtain ⟨target, err⟩ := r
      cases err with
      | some err => simp [Event.success?] at now
      | none =>
        simp only [List.filterMap_cons, Event.success?, List.filterMap_nil, List.mem_singleton] at now
        subst now
        exact waiting _ List.mem_cons_self rfl

theorem Progress.truthful (truthful : Truthful site chunkId content events w) (aligned : w.Aligned)
    (accounted : Accounted targets events w.call) (distinct : targets.Nodup)
    (next : Progress site chunkId content targets w received later) :
    Truthful site chunkId content (events ++ received) later := by
  have runs {before after : List (String × Retrying)} {addr : String} {r : Retrying}
      (active : w.goroutines = before ++ (addr, r) :: after) : addr ∈ w.call.running := by
    rw [← aligned, active]
    simp
  cases next with
  | stop active ends room =>
    rw [List.append_nil]
    exact truthful.sent _ _ nofun
  | retry active goes env apart again =>
    rw [List.append_nil]
    have moved := truthful.transferred accounted distinct (runs active) env
    exact ⟨moved.source, moved.waiting, moved.received⟩
  | finish active goes env apart ends room =>
    rw [List.append_nil]
    refine (truthful.transferred accounted distinct (runs active) env).sent _ _ ?_
    intro success
    subst success
    exact Site.transfer_ok truthful.source apart (Policy.leave_nil ends)
  | call step same => exact truthful.call step same
  | others disks source peers =>
    rw [List.append_nil]
    exact ⟨source truthful.source, fun r member success => peers r.addr (truthful.waiting r member success),
      fun addr member => peers addr (truthful.received addr member)⟩

theorem Fanning.source {first : World} (held : Holding site.source chunkId content first.disks.source)
    (fanning : Fanning site chunkId content targets first events w) :
    Holding site.source chunkId content w.disks.source := by
  induction fanning with
  | start => exact held
  | step _ next ih =>
    cases next with
    | others disks source peers => exact source ih
    | stop => exact ih
    | retry => exact ih
    | finish => exact ih
    | call => exact ih

theorem Fanning.returned {first : World} {nodes : List String} {err : Option GoError}
    (returned : first.call.caller = .returned nodes err)
    (fanning : Fanning site chunkId content targets first events w) : w.call.caller = .returned nodes err := by
  induction fanning with
  | start => exact returned
  | step _ next ih =>
    cases next with
    | others disks source peers => exact ih
    | stop => exact ih
    | retry => exact ih
    | finish => exact ih
    | call step same =>
      cases step with
      | send => exact ih
      | expire => exact ih
      | cancel => exact ih
      | timeout loops | done loops | finish loops | receive loops => cases loops.symm.trans ih

theorem Fanning.confirmed (distinct : targets.Nodup) {ctxErr : Option GoError}
    {disks : Disks} (held : Holding site.source chunkId content disks.source)
    (fanning : Fanning site chunkId content targets (World.begin targets ctxErr disks) events w)
    {nodes : List String} {err : Option GoError} (returned : w.call.caller = .returned nodes err) :
    ∀ addr ∈ nodes, addr ∈ targets ∧ Holding (site.stores addr) chunkId content (w.disks.peers addr) := by
  by_cases none : targets = []
  · subst none
    cases (fanning.returned rfl).symm.trans returned
    simp
  · have start := begin_aligned none ctxErr disks
    have truthful : Truthful site chunkId content events w := by
      clear returned
      induction fanning with
      | start =>
        have filled : targets.length ≠ 0 := by simpa using none
        refine ⟨held, ?_, ?_⟩
        · simp [World.begin, FanOut.start, filled]
        · simp [successes]
      | step before next ih =>
        obtain ⟨aligned, run⟩ := before.run start
        exact next.truthful ih aligned (run_reflects none run).2 distinct
    obtain ⟨_, run⟩ := fanning.run start
    obtain ⟨reflects, accounted⟩ := run_reflects none run
    rw [returned] at reflects
    obtain ⟨same, _⟩ := reflects
    subst same
    intro addr member
    refine ⟨?_, truthful.received addr member⟩
    apply accounted.subset
    exact List.mem_append_left _ (List.mem_append_left _ ((successes_sublist events).subset member))

end

end FanOut

section Commit

def Names (nodes : GoMap NodeEntry) (entry nodeID : String) : Prop :=
  nodeID = entry ∨ ∃ id node, nodes.lookup id = some node ∧ node.address = entry ∧ node.nodeID = nodeID

theorem mem_normalizeLoop {nodes : GoMap NodeEntry} {orders : Nat → MapOrder} (rawIDs : List String) :
    ∀ {k : Nat} {normalized seen : List String} {id : String},
      id ∈ normalizeLoop nodes orders rawIDs k normalized seen →
      id ∈ normalized ∨ ∃ entry ∈ rawIDs, Names nodes entry id := by
  induction rawIDs with
  | nil =>
    intro k normalized seen id member
    exact .inl member
  | cons entry rest ih =>
    intro k normalized seen id member
    -- what the rest of the loop appends, given what this turn does
    have later {appended : List String} {noted : List String}
        (named : ∀ other ∈ appended, Names nodes entry other)
        (member : id ∈ normalizeLoop nodes orders rest (k + 1) (normalized ++ appended) noted) :
        id ∈ normalized ∨ ∃ raw ∈ entry :: rest, Names nodes raw id := by
      rcases ih member with listed | ⟨raw, among, names⟩
      · rcases List.mem_append.mp listed with earlier | now
        · exact .inl earlier
        · exact .inr ⟨entry, List.mem_cons_self, named id now⟩
      · exact .inr ⟨raw, List.mem_cons_of_mem entry among, names⟩
    have itself : ∀ other ∈ [entry], Names nodes entry other := by
      intro other now
      exact .inl (List.mem_singleton.mp now)
    have nothing : ∀ other ∈ ([] : List String), Names nodes entry other := nofun
    simp only [normalizeLoop] at member
    split at member
    · rw [← List.append_nil normalized] at member
      exact later nothing member
    · split at member
      · exact later itself member
      · split at member
        · rename_i resolved
          split at member
          · rw [← List.append_nil normalized] at member
            exact later nothing member
          · refine later ?_ member
            intro other now
            cases List.mem_singleton.mp now
            rcases scanAddress_spec entry (GoMap.range (orders k) nodes) with
              ⟨key, node, listed, address, found⟩ | ⟨_, empty⟩
            · exact .inr ⟨key, node, (GoMap.mem_range _ _ _ _).mp listed, address, found.symm⟩
            · exact absurd empty resolved
        · exact later itself member

theorem commitChunk_names {m : FSM} {orders : Nat → MapOrder} {req : CommandCommitChunk}
    (accepted : (m.handle orders (.commitChunk req)).2 = none) :
    ∃ chunk, (m.handle orders (.commitChunk req)).1.chunkRegistry.lookup req.chunkID = some chunk ∧
      chunk.checksum = req.checksum ∧
      ∀ nodeID ∈ chunk.replicas, ∃ entry ∈ req.nodeIDs, Names m.nodeRegistry entry nodeID := by
  obtain ⟨chunk, found, unset, uncommitted⟩ := commitChunk_accepted accepted
  rw [commitChunk_open orders found unset uncommitted]
  refine ⟨{ chunk with
    status := .complete, checksum := req.checksum,
    replicas := normalizeReplicaNodeIDs m.nodeRegistry orders req.nodeIDs }, ?_, rfl, ?_⟩
  · simp only [MetadataFSM.setChunk, GoMap.lookup_insert, if_true]
  · intro nodeID member
    rcases mem_normalizeLoop req.nodeIDs member with nothing | named
    · cases nothing
    · exact named

variable {server : StorageServer} {env : PutEnv} {ending : Ending} {chunkId : String}

inductive Gathering (ds : DiskStore) (disk : Disk) (chunkId : String) : Option Receiving → List UInt8 → Prop where
  | nothing : Gathering ds disk chunkId none []
  | writing {taken : List UInt8} {receiving : Receiving}
    (carrying : Carrying ds disk chunkId taken ⟨receiving.writer, receiving.registeredChunkId⟩) :
    Gathering ds disk chunkId (some receiving) taken

theorem Spares.gathering {ds : DiskStore} {disk after : Disk} {receiving : Option Receiving} {taken : List UInt8}
    (spares : Spares ds chunkId disk after) (gathering : Gathering ds disk chunkId receiving taken) :
    Gathering ds after chunkId receiving taken := by
  cases gathering with
  | nothing => exact .nothing
  | writing carrying => exact .writing (spares.carrying carrying)

theorem newChunkWriter_writing {ds : DiskStore} {fault : Option GoError} {id : GoString} {disk after : Disk}
    {cw : ChunkWriter} (created : newChunkWriter ds fault id disk = (.ok cw, after)) :
    Writing ds disk after cw ∧ cw.chunkId = id ∧ cw.hasher = [] := by
  rcases ds.validateChunkId_cases id with valid | invalid
  · obtain ⟨opened, later, ran, writing, named, hashed⟩ := newChunkWriter_valid valid disk
    cases fault with
    | none =>
      cases created.symm.trans ran
      exact ⟨writing, named, hashed⟩
    | some err => simp [newChunkWriter, valid_nonempty valid, tempPath_of_valid valid] at created
  · cases created.symm.trans (newChunkWriter_invalid invalid fault disk)

theorem takeFrame_named {k : Nat} {frame : PutChunkRequest} {receiving : Option Receiving} {disk after : Disk}
    {later : Receiving} (took : server.takeFrame env k frame receiving disk = (.ok later, after)) :
    later.registeredChunkId = frame.chunkId ∧
      ∀ r ∈ receiving, later.registeredChunkId = r.registeredChunkId := by
  unfold StorageServer.takeFrame at took
  cases receiving with
  | none =>
    split at took
    · cases took
    · split at took
      · cases took
      · rename_i same
        split at took
        · cases took
        · cases took
          exact ⟨not_not.mp same, by simp⟩
  | some r =>
    simp only [StorageServer.openWriter] at took
    split at took
    · cases took
    · rename_i same
      split at took
      · cases took
      · cases took
        exact ⟨not_not.mp same, by simp⟩

theorem receive_named {lastFrame : PutChunkRequest} {final : Receiving} {after : Disk}
    (frames : List PutChunkRequest) : ∀ {k : Nat} {receiving : Receiving} {frame : PutChunkRequest} {disk : Disk},
      frame.chunkId = receiving.registeredChunkId →
      server.receive env ending frames k (some receiving) (some frame) disk = (.ok (final, lastFrame), after) →
      lastFrame.chunkId = receiving.registeredChunkId := by
  induction frames with
  | nil =>
    intro k receiving frame disk named ran
    cases StorageServer.endStream_lastFrame ran
    exact named
  | cons next rest ih =>
    intro k receiving frame disk named ran
    simp only [StorageServer.receive] at ran
    split at ran
    · cases ran
    · rename_i took
      obtain ⟨same, kept⟩ := takeFrame_named took
      rw [ih same.symm ran]
      exact kept receiving rfl

theorem Gathering.takeFrame {k : Nat} {frame : PutChunkRequest} {receiving : Option Receiving}
    {disk after : Disk} {taken : List UInt8} {later : Receiving}
    (gathering : Gathering server.store disk chunkId receiving taken)
    (took : server.takeFrame env k frame receiving disk = (.ok later, after)) (named : frame.chunkId = chunkId) :
    Gathering server.store after chunkId (some later) (taken ++ frame.data) := by
  have opened : ∃ opened disk', server.openWriter env frame receiving disk = (.ok opened, disk') ∧
      Carrying server.store disk' chunkId taken ⟨opened.writer, opened.registeredChunkId⟩ := by
    cases gathering with
    | writing carrying => exact ⟨_, disk, rfl, carrying⟩
    | nothing =>
      simp only [StorageServer.takeFrame, StorageServer.openWriter] at took ⊢
      cases created : newChunkWriter server.store env.create (bytes frame.chunkId) disk with
      | mk result disk' =>
        rw [created] at took
        cases result with
        | error err => cases took
        | ok cw =>
          obtain ⟨writing, id, hashed⟩ := newChunkWriter_writing created
          exact ⟨_, disk', rfl, writing.here, by rw [id, named], hashed, named⟩
  obtain ⟨opened, disk', ran, carrying⟩ := opened
  simp only [StorageServer.takeFrame, ran] at took
  split at took
  · cases took
  · cases wrote : opened.writer.write (env.write k) frame.data disk' with
    | mk written result =>
      obtain ⟨writer, disk''⟩ := written
      rw [wrote] at took
      cases result with
      | some err => cases took
      | none =>
        cases took
        obtain ⟨cw, final, ran, writing, id, _, hashed⟩ := carrying.writing.write frame.data
        cases ran.symm.trans (ChunkWriter.write_ok wrote)
        exact .writing ⟨writing.here, id.trans carrying.id, by rw [hashed, carrying.hashed], carrying.registered⟩

theorem receive_holding {lastFrame : PutChunkRequest} {final : Receiving} {after : Disk}
    (apart : ∀ k disk, Spares server.store chunkId disk (env.others k disk))
    (named : lastFrame.chunkId = chunkId) (frames : List PutChunkRequest) :
    ∀ {k : Nat} {receiving : Option Receiving} {last : Option PutChunkRequest} {disk : Disk} {taken : List UInt8},
      Gathering server.store disk chunkId receiving taken →
      server.receive env ending frames k receiving last disk = (.ok (final, lastFrame), after) →
      lastFrame.checksum = Sha256.sum256 (taken ++ payload frames) ∧
        Holding server.store chunkId (taken ++ payload frames) after := by
  induction frames with
  | nil =>
    intro k receiving last disk taken gathering ran
    replace gathering := (apart k disk).gathering gathering
    simp only [StorageServer.receive] at ran
    cases StorageServer.endStream_lastFrame ran
    cases ending with
    | broken => cases gathering <;> cases ran
    | eof =>
      cases gathering with
      | nothing => cases ran
      | writing carrying =>
        simp only [StorageServer.endStream] at ran
        split at ran
        · cases ran
        · split at ran
          · cases ran
          · rename_i finalized
            cases ran
            have stored := carrying.finalize finalized
            simpa [payload] using stored
  | cons frame rest ih =>
    intro k receiving last disk taken gathering ran
    simp only [StorageServer.receive] at ran
    split at ran
    · cases ran
    · rename_i later disk' took
      have same : frame.chunkId = chunkId := by
        have registered := (takeFrame_named took).1
        rw [← registered, ← receive_named rest registered.symm ran, named]
      have gathered := ((apart k disk).gathering gathering).takeFrame took same
      have whole : taken ++ payload (frame :: rest) = taken ++ frame.data ++ payload rest := by
        simp [payload]
      rw [whole]
      exact ih gathered ran

variable {frames : List PutChunkRequest} {disk after : Disk} {commit : CommandCommitChunk}

theorem putChunk_holding (apart : ∀ k disk, Spares server.store commit.chunkID disk (env.others k disk))
    (stored : server.putChunk env frames ending disk = (.ok (some commit), after)) :
    Holding server.store commit.chunkID (payload frames) after ∧
      commit.checksum = Sha256.sum256 (payload frames) ∧
      ∀ entry ∈ commit.nodeIDs, entry = server.nodeID ∨ entry ∈ env.successfulReplicas := by
  unfold StorageServer.putChunk at stored
  split at stored
  · cases stored
  · rename_i receiving lastFrame disk' received
    simp only [StorageServer.commitRequest, Prod.mk.injEq, Except.ok.injEq] at stored
    obtain ⟨requested, rfl⟩ := stored
    split at requested
    · cases requested
      obtain ⟨checksum, held⟩ := receive_holding apart rfl frames .nothing received
      refine ⟨held, checksum, ?_⟩
      intro entry member
      rcases List.mem_cons.mp member with first | rest
      · exact .inl first
      · split at rest
        · exact .inr rest
        · cases rest
    · cases requested

end Commit

/-- When `PutChunk` commits a chunk after its fan-out, whatever failed, was retried, lost or late in it,
    the primary and every node it confirms hold exactly the committed bytes; so does every node that
    the state machine then lists. -/
theorem confirmed_nodes_hold_chunk (site : Site) (nodeID : String) {env : PutEnv} {disk after : Disk}
    {frames : List PutChunkRequest} {ending : Ending} {commit : CommandCommitChunk}
    (stored : (site.server nodeID).putChunk env frames ending disk = (.ok (some commit), after))
    (apart : ∀ k disk, Spares site.source commit.chunkID disk (env.others k disk))
    (distinct : (replicaTargets frames).Nodup)
    {ctxErr : Option GoError} {peers : String → Disk} {events : List FanOut.Event} {w : FanOut.World}
    (fanning : FanOut.Fanning site commit.chunkID (payload frames) (replicaTargets frames)
      (.begin (replicaTargets frames) ctxErr ⟨after, peers⟩) events w)
    {err : Option GoError} (returned : w.call.caller = .returned env.successfulReplicas err) (fsm : FSM)
    (orders : Nat → MapOrder) (applied : (fsm.handle orders (.commitChunk commit)).2 = none) :
    ∃ chunk, (fsm.handle orders (.commitChunk commit)).1.chunkRegistry.lookup commit.chunkID = some chunk ∧
      chunk.checksum = Sha256.sum256 (payload frames) ∧
      ∀ replica ∈ chunk.replicas, ∃ entry ∈ commit.nodeIDs, Names fsm.nodeRegistry entry replica ∧
        (entry = nodeID ∧ Holding site.source commit.chunkID (payload frames) w.disks.source ∨
          entry ∈ replicaTargets frames ∧
            Holding (site.stores entry) commit.chunkID (payload frames) (w.disks.peers entry)) := by
  have apart : ∀ k disk, Spares (site.server nodeID).store commit.chunkID disk (env.others k disk) := apart
  obtain ⟨held, checksum, entries⟩ := putChunk_holding apart stored
  have held : Holding site.source commit.chunkID (payload frames) after := held
  obtain ⟨chunk, found, recorded, named⟩ := commitChunk_names applied
  refine ⟨chunk, found, recorded.trans checksum, ?_⟩
  intro replica listed
  obtain ⟨entry, member, names⟩ := named replica listed
  refine ⟨entry, member, names, ?_⟩
  rcases entries entry member with primary | other
  · exact .inl ⟨primary, fanning.source held⟩
  · exact .inr (fanning.confirmed distinct held returned entry other)

def pairSite : Site := ⟨store, fun _ => store, ⟨3⟩, fun text => text⟩

def pairFrame : PutChunkRequest :=
  ⟨"ab12cd", "file-1", ["10.0.0.2:9000"], [1, 2, 3], Sha256.sum256 [1, 2, 3], true⟩

def pairCommit : CommandCommitChunk := ⟨"ab12cd", ["n1", "10.0.0.2:9000"], Sha256.sum256 [1, 2, 3]⟩

def pairStored : Disk :=
  ((pairSite.server "n1").putChunk (.quiet ["10.0.0.2:9000"]) [pairFrame] .eof emptyDisk).2

theorem pairStored_eq : (pairSite.server "n1").putChunk (.quiet ["10.0.0.2:9000"]) [pairFrame] .eof emptyDisk =
    (.ok (some pairCommit), pairStored) := by
  have repr : Represents (pairSite.server "n1").store emptyDisk BoundedMap.empty := Represents.fresh store .empty
  have received := receive_start repr [pairFrame] .eof ["10.0.0.2:9000"] (by decide)
  have verdict : putVerdict (pairSite.server "n1").store .eof [pairFrame] = .ok pairFrame := by
    have valid : (pairSite.server "n1").store.validateChunkId (bytes pairFrame.chunkId) = .ok () := rfl
    simp [putVerdict, laterVerdict, valid]
    simp [pairFrame, payload]
  have fits : (BoundedMap.empty : Contents (pairSite.server "n1").store).put (bytes pairFrame.chunkId)
      (payload [pairFrame]) ≠ none := by
    decide +kernel
  rw [verdict] at received
  simp only [pairStored, StorageServer.putChunk]
  generalize (pairSite.server "n1").receive (.quiet ["10.0.0.2:9000"]) .eof [pairFrame] 0 none none emptyDisk =
    outcome at received
  cases received with
  | full _ full => exact absurd full fits
  | stored _ later room receiving targets =>
    simp only [StorageServer.commitRequest, targets]
    rfl

theorem pair_apart (k : Nat) (disk : Disk) :
    Spares (pairSite.server "n1").store pairCommit.chunkID disk
      ((PutEnv.quiet ["10.0.0.2:9000"]).others k disk) :=
  Apart.idle store "ab12cd" none disk

theorem pair_holding : Holding store "ab12cd" [1, 2, 3] pairStored := (putChunk_holding pair_apart pairStored_eq).1

def unreachable : LinkEnv := { LinkEnv.reliable with dial := some (.new "connection refused") }

def pairBegun : Disks := ⟨pairStored, fun _ => emptyDisk⟩

def pairMissed : Disks := (pairSite.transfer unreachable "ab12cd" "10.0.0.2:9000" pairBegun).2

theorem pair_transfer : (pairSite.transfer (.beside otherUpload) "ab12cd" "10.0.0.2:9000" pairMissed).1 =
    none := by
  have source : pairMissed.source = pairStored := by simp only [pairMissed, pairBegun, Site.transfer]
  have empty : pairMissed.peers "10.0.0.2:9000" = emptyDisk := by
    simp [pairMissed, pairBegun, Site.transfer, replicateToSingleNode, unreachable, LinkEnv.reliable,
      LinkEnv.beside]
  have room : HasRoom store "ab12cd" [1, 2, 3] emptyDisk := ⟨_, rfl, by decide +kernel⟩
  have ran := replicateToSingleNode_reliable pair_holding (by decide) otherUpload_apart
    (fun k disk room => (otherUpload_apart k disk).hasRoom rfl room) room
  simp only [Site.transfer, source, empty]
  exact Option.map_eq_none_iff.mpr ran

theorem pair_fanning : ∃ w, FanOut.Fanning pairSite "ab12cd" [1, 2, 3] ["10.0.0.2:9000"]
    (.begin ["10.0.0.2:9000"] none pairBegun) [.result ⟨"10.0.0.2:9000", none⟩] w ∧
      w.call.caller = .returned ["10.0.0.2:9000"] none := by
  have begun : FanOut.Fanning pairSite "ab12cd" [1, 2, 3] ["10.0.0.2:9000"]
    (.begin ["10.0.0.2:9000"] none pairBegun) [] _ := .start
  have active (r : Retrying) : [("10.0.0.2:9000", r)] = [] ++ ("10.0.0.2:9000", r) :: [] := rfl
  have missed := begun.step
    (.retry (active .start) rfl unreachable (Apart.idle store "ab12cd") rfl)
  have ends (lastErr : Option GoError) : pairSite.policy.leave ⟨1, lastErr⟩
      (pairSite.transfer (.beside otherUpload) "ab12cd" "10.0.0.2:9000" pairMissed).1 = .error none := by
    rw [pair_transfer]
    rfl
  have sent := missed.step (.finish (active _) rfl (.beside otherUpload) otherUpload_apart (ends _) (by decide))
  have received := sent.step (.call (.receive rfl rfl) rfl)
  exact ⟨_, received.step (.call (.finish rfl) rfl), rfl⟩

def pairFsm : FSM :=
  let first := (newEmptyMetadataFsm : FSM).handle (fun _ => default)
    (.registerNode ⟨"n1", "10.0.0.1:9000", 100000, 0, 1⟩)
  let second := first.1.handle (fun _ => default) (.registerNode ⟨"n2", "10.0.0.2:9000", 100000, 0, 1⟩)
  (second.1.handle (fun _ => default) (.createFile ⟨"file-1", "notes.txt", ["ab12cd"], 3, 65536, [], 1⟩)).1

theorem confirmed_nodes_hold_chunk_pair :
    ∃ (chunk : ChunkRecord (List String)) (w : FanOut.World),
      (pairFsm.handle (fun _ => default) (.commitChunk pairCommit)).1.chunkRegistry.lookup "ab12cd" =
        some chunk ∧ chunk.checksum = Sha256.sum256 [1, 2, 3] ∧
      ∀ replica ∈ chunk.replicas, ∃ entry ∈ pairCommit.nodeIDs, Names pairFsm.nodeRegistry entry replica ∧
        (entry = "n1" ∧ Holding store "ab12cd" [1, 2, 3] w.disks.source ∨
          entry ∈ ["10.0.0.2:9000"] ∧ Holding store "ab12cd" [1, 2, 3] (w.disks.peers entry)) := by
  obtain ⟨w, fanning, returned⟩ := pair_fanning
  obtain ⟨chunk, found, checksum, held⟩ := confirmed_nodes_hold_chunk pairSite "n1" pairStored_eq pair_apart
    (by decide) fanning returned pairFsm (fun _ => default) (by decide +kernel)
  exact ⟨chunk, w, found, checksum, held⟩

end DistributedFs.Storage
