import DistributedFs.Client.Download
import DistributedFs.Client.Upload
import DistributedFs.Internal.Retry

namespace DistributedFs.Client

open Go Fsm MetadataFSM Storage Internal

/-- The metadata and the disk of the primary while a chunk is uploaded. `pending` are the
    `CommitChunk` commands whose caller has given up but which may still be applied, `applied`
    those that the state machine has answered with nil. -/
structure Cluster where
  fsm : FSM
  disk : Disk
  pending : List CommandCommitChunk
  applied : List CommandCommitChunk

inductive Meanwhile where
  | command (cmd : Command) (orders : Nat → MapOrder)
  | heartbeat (nodeID : String) (ts : Time)
  | late (k : Nat) (orders : Nat → MapOrder)

namespace Cluster

def start (m : FSM) (disk : Disk) : Cluster := ⟨m, disk, [], []⟩

def apply (s : Cluster) (orders : Nat → MapOrder) (req : CommandCommitChunk) : Option GoError × Cluster :=
  let (fsm, answer) := s.fsm.handle orders (.commitChunk req)
  (answer, { s with fsm := fsm, applied := if answer = none then req :: s.applied else s.applied })

def give (s : Cluster) (req : CommandCommitChunk) : Cluster := { s with pending := req :: s.pending }

def happen (s : Cluster) : Meanwhile → Cluster
  | .command cmd orders => { s with fsm := (s.fsm.handle orders cmd).1 }
  | .heartbeat nodeID ts => { s with fsm := (s.fsm.updateLastSeen nodeID ts).1 }
  | .late k orders =>
    match s.pending[k]? with
    | none => s
    | some req => (apply { s with pending := s.pending.eraseIdx k } orders req).2

def meanwhile (s : Cluster) (events : List Meanwhile) : Cluster := events.foldl happen s

end Cluster

/-- How `raft.Apply` ends. After a timeout the entry may still be committed. -/
inductive Proposal where
  | applied (orders : Nat → MapOrder)
  | refused (err : GoError)
  | timedOut (err : GoError)

def propose (proposal : Proposal) (req : CommandCommitChunk) (s : Cluster) : Option GoError × Cluster :=
  match proposal with
  | .applied orders => s.apply orders req
  | .refused err => (some err, s)
  | .timedOut err => (some err, s.give req)

/-- `MetadataServiceHandler.CommitChunk` at a server that sees `raft` and `seen`. What it lets the
    scheduler do after a commit is left to `Meanwhile`. -/
def commitChunk (raft : Server.RaftView) (seen : FSM) (proposal : Proposal) (req : CommandCommitChunk)
    (s : Cluster) : Option Server.RpcError × Cluster :=
  if raft.isLeader = false then (some (Server.leaderRedirect raft seen), s)
  else
    match propose proposal req s with
    | (some err, s) =>
      (some (StorageServer.internal
        ("error proposing commit-chunk command: " ++ err.text)), s)
    | (none, s) => (none, s)

/-- What becomes of one call of `CommitChunk`. A delayed one is given up by its caller and served
    later; a delivered one is served, and its reply may be lost. -/
inductive Delivery where
  | undelivered (err : CallError)
  | delayed (err : CallError)
  | delivered (raft : Server.RaftView) (seen : FSM) (proposal : Proposal) (lost : Option CallError)

structure CommitCall where
  before : List Meanwhile
  delivery : Delivery

def sendCommit (call : CommitCall) (req : CommandCommitChunk) (s : Cluster) :
    Option CallError × Cluster :=
  let s := s.meanwhile call.before
  match call.delivery with
  | .undelivered err => (some err, s)
  | .delayed err => (some err, s.give req)
  | .delivered raft seen proposal lost =>
    let (answer, s) := commitChunk raft seen proposal req s
    (lost <|> answer.map .status, s)

/-- How the stream of a `PutChunk` goes. Unless it is delivered, the primary meets a broken stream
    after the frames that arrived; a delivered one is answered, and the answer may be lost. -/
inductive Transport where
  | notDialled (err : GoError)
  | notOpened (err : GoError)
  | notSent (arrived : Nat) (err : GoError)
  | notClosed (arrived : Nat) (err : GoError)
  | delivered (lost : Option GoError)

structure PutAttempt where
  before : List Meanwhile
  transport : Transport
  put : PutEnv
  met : Nat → Round
  calls : Nat → CommitCall

/-- `StorageServerHandler.PutChunk`; `policy` is that of its metadata client. -/
def handlePutChunk (server : StorageServer) (policy : Policy) (a : PutAttempt)
    (frames : List PutChunkRequest) (ending : Ending) (s : Cluster) : Option Server.RpcError × Cluster :=
  match server.putChunk a.put frames ending s.disk with
  | (.error err, disk) => (some err, { s with disk := disk })
  | (.ok none, disk) => (none, { s with disk := disk })
  | (.ok (some req), disk) =>
    match policy.invoke a.met (fun k => sendCommit (a.calls k) req) { s with disk := disk } with
    | (some err, s) =>
      (some (StorageServer.internal ("metadata commit failed: " ++ err.text)), s)
    | (none, s) => (none, s)

structure ChunkUpload where
  upload : Upload
  desc : ChunkDescriptor
  placement : Server.ChunkPlacement
  primary : StorageServer
  policy : Policy

namespace ChunkUpload

def frames (c : ChunkUpload) (buffer : List UInt8) : List PutChunkRequest :=
  putFrames c.upload.cfg.frameSize c.desc.chunkID c.desc.fileID
    (c.placement.replicas.map Server.NodeInfo.address) buffer (Sha256.sum256 buffer)

theorem commit_of_frames {c : ChunkUpload} {buffer : List UInt8} {server : StorageServer} {env : PutEnv}
    {arrived : Nat} {ending : Ending} {disk after : Disk} {req : CommandCommitChunk}
    (stored : server.putChunk env ((c.frames buffer).take arrived) ending disk = (.ok (some req), after)) :
    req.chunkID = c.desc.chunkID ∧ req.checksum = Sha256.sum256 buffer := by
  obtain ⟨frame, member, named, summed⟩ := StorageServer.putChunk_commits stored
  obtain ⟨here, whole⟩ := mem_putFrames (List.mem_of_mem_take member)
  exact ⟨named.trans here, summed.trans whole⟩

def putChunk (c : ChunkUpload) (buffer : List UInt8) (a : PutAttempt) (s : Cluster) :
    Option GoError × Cluster :=
  let s := s.meanwhile a.before
  let handle := fun (arrived : List PutChunkRequest) (ending : Ending) =>
    handlePutChunk c.primary c.policy a arrived ending s
  match a.transport with
  | .notDialled err =>
    (some (wrap ("storageclient: failed to connect to " ++ c.placement.primary.address) err), s)
  | .notOpened err => (some (wrap "storageclient: PutChunk stream open failed" err), s)
  | .notSent arrived err =>
    let text := if buffer = [] then "storageclient: PutChunk send empty frame failed"
      else "storageclient: PutChunk send frame failed"
    (some (wrap text err), (handle ((c.frames buffer).take arrived) .broken).2)
  | .notClosed arrived err =>
    (some (wrap "storageclient: PutChunk close failed" err),
      (handle ((c.frames buffer).take arrived) .broken).2)
  | .delivered lost =>
    let (answer, s) := handle (c.frames buffer) .eof
    ((lost <|> answer.map fun err => GoError.new err.text).map
      (wrap "storageclient: PutChunk close failed"), s)

def uploadChunkWithRetry (c : ChunkUpload) (waits : Waits) (env : Nat → PutAttempt) (s : Cluster) :
    Option GoError × Cluster :=
  match readAt c.upload.content c.desc.offset c.desc.size with
  | .error err => (some (wrap "failed to read chunk data" err), s)
  | .ok buffer =>
    let policy : Policy := ⟨c.upload.cfg.retryAttempts⟩
    let (err, s) := policy.do_ waits (fun k => c.putChunk buffer (env k)) s
    (err.map (wrap ("uploadChunkWithRetry chunk=" ++ c.desc.chunkID ++ " primary=" ++
      c.placement.primary.address)), s)

end ChunkUpload

structure PutAttempt.Meets (allowed : Meanwhile → Prop) (a : PutAttempt) : Prop where
  before : ∀ event ∈ a.before, allowed event
  calls : ∀ k, ∀ event ∈ (a.calls k).before, allowed event

/-- What must be shown of a property for a whole call to keep it. The first argument of `Inv` is
    the command that the primary is trying to get applied, and `Done` is what a reply without an
    error stands for. -/
structure Closed (server : StorageServer) (frames : List PutChunkRequest) (allowed : Meanwhile → Prop)
    (Inv : Option CommandCommitChunk → Cluster → Prop) (Done : Cluster → Prop) : Prop where
  happen : ∀ {sending s event}, Inv sending s → allowed event → Inv sending (s.happen event)
  refused : ∀ {s env arrived ending err disk}, Inv none s →
    server.putChunk env (frames.take arrived) ending s.disk = (.error err, disk) →
      Inv none { s with disk := disk }
  served : ∀ {s env arrived ending commit disk}, Inv none s →
    (ending = .eof → frames.length ≤ arrived) →
    server.putChunk env (frames.take arrived) ending s.disk = (.ok commit, disk) →
      Inv commit { s with disk := disk } ∧ (commit = none → Done { s with disk := disk })
  apply : ∀ {s req}, Inv (some req) s → ∀ orders, Keeps (Inv (some req)) Done (s.apply orders req)
  give : ∀ {s req}, Inv (some req) s → Inv (some req) (s.give req)
  sent : ∀ {s req}, Inv (some req) s → Inv none s

namespace Closed

variable {server : StorageServer} {frames : List PutChunkRequest} {allowed : Meanwhile → Prop}
  {Inv : Option CommandCommitChunk → Cluster → Prop} {Done : Cluster → Prop} {s : Cluster}
  (closed : Closed server frames allowed Inv Done)
include closed

theorem meanwhile {sending : Option CommandCommitChunk} (start : Inv sending s)
    {events : List Meanwhile} (permitted : ∀ event ∈ events, allowed event) :
    Inv sending (s.meanwhile events) := by
  induction events generalizing s with
  | nil => exact start
  | cons event rest ih =>
    have first := closed.happen start (permitted event List.mem_cons_self)
    exact ih first fun other member => permitted other (List.mem_cons_of_mem _ member)

theorem commitChunk {req : CommandCommitChunk} (start : Inv (some req) s) (raft : Server.RaftView)
    (seen : FSM) (proposal : Proposal) :
    Keeps (Inv (some req)) Done (commitChunk raft seen proposal req s) := by
  unfold Client.commitChunk
  split
  · exact .failed start _
  · have proposed : Keeps (Inv (some req)) Done (propose proposal req s) := by
      cases proposal with
      | applied orders => exact closed.apply start orders
      | refused err => exact .failed start err
      | timedOut err => exact .failed (closed.give start) err
    generalize propose proposal req s = result at proposed
    obtain ⟨answer, later⟩ := result
    cases answer with
    | none => exact ⟨proposed.kept, fun _ => proposed.done rfl⟩
    | some err => exact .failed proposed.kept _

theorem sendCommit {req : CommandCommitChunk} (start : Inv (some req) s) {call : CommitCall}
    (permitted : ∀ event ∈ call.before, allowed event) :
    Keeps (Inv (some req)) Done (sendCommit call req s) := by
  have begun := closed.meanwhile start permitted
  unfold Client.sendCommit
  cases call.delivery with
  | undelivered err => exact .failed begun err
  | delayed err => exact .failed (closed.give begun) err
  | delivered raft seen proposal lost =>
    apply (closed.commitChunk begun raft seen proposal).seen
    intro nil
    cases lost with
    | none => exact Option.map_eq_none_iff.mp nil
    | some err => cases nil

theorem handlePutChunk (start : Inv none s) {a : PutAttempt} (meets : a.Meets allowed) (policy : Policy)
    (arrived : Nat) (ending : Ending) (whole : ending = .eof → frames.length ≤ arrived) :
    Keeps (Inv none) Done (handlePutChunk server policy a (frames.take arrived) ending s) := by
  unfold Client.handlePutChunk
  split
  · rename_i err disk failed
    exact .failed (closed.refused start failed) err
  · rename_i disk stored
    obtain ⟨kept, done⟩ := closed.served start whole stored
    exact ⟨kept, fun _ => done rfl⟩
  · rename_i req disk stored
    obtain ⟨kept, _⟩ := closed.served start whole stored
    have invoked : Keeps (Inv (some req)) Done
        (policy.invoke a.met (fun k => Client.sendCommit (a.calls k) req) { s with disk := disk }) := by
      apply policy.invoke_keeps _ kept
      intro k before kept
      exact closed.sendCommit kept (meets.calls k)
    generalize policy.invoke a.met (fun k => Client.sendCommit (a.calls k) req) _ = result at invoked ⊢
    obtain ⟨answer, later⟩ := result
    cases answer with
    | none => exact ⟨closed.sent invoked.kept, fun _ => invoked.done rfl⟩
    | some err => exact .failed (closed.sent invoked.kept) _

end Closed

namespace ChunkUpload

variable {c : ChunkUpload} {buffer : List UInt8} {allowed : Meanwhile → Prop}
  {Inv : Option CommandCommitChunk → Cluster → Prop} {Done : Cluster → Prop} {s : Cluster}
  (closed : Closed c.primary (c.frames buffer) allowed Inv Done)
include closed

theorem putChunk_keeps (start : Inv none s) {a : PutAttempt} (meets : a.Meets allowed) :
    Keeps (Inv none) Done (c.putChunk buffer a s) := by
  have begun := closed.meanwhile start meets.before
  unfold putChunk
  cases a.transport with
  | notDialled err | notOpened err => exact .failed begun _
  | notSent arrived err | notClosed arrived err =>
    exact .failed (closed.handlePutChunk begun meets c.policy arrived .broken (by simp)).kept _
  | delivered lost =>
    have handled := closed.handlePutChunk begun meets c.policy _ .eof fun _ => le_rfl
    rw [List.take_length] at handled
    apply handled.seen
    intro nil
    cases lost with
    | none => exact Option.map_eq_none_iff.mp (Option.map_eq_none_iff.mp nil)
    | some err => cases nil

theorem uploadChunkWithRetry_keeps (read : readAt c.upload.content c.desc.offset c.desc.size = .ok buffer)
    (start : Inv none s) {env : Nat → PutAttempt} (meets : ∀ k, (env k).Meets allowed) (waits : Waits) :
    Keeps (Inv none) Done (c.uploadChunkWithRetry waits env s) := by
  unfold uploadChunkWithRetry
  rw [read]
  exact (Policy.do_keeps _ (fun k _ kept => putChunk_keeps closed kept (meets k)) start).seen
    Option.map_eq_none_iff.mp

end ChunkUpload

def Meanwhile.Foreign (u : Upload) : Meanwhile → Prop
  | command cmd _ => ∀ req, cmd = .commitChunk req → req.chunkID ∉ u.chunkIDs
  | heartbeat .. | late .. => True

/-- The steps of the upload have led from `first` to `t`, which shows the metadata of the cluster and
    has every `CommitChunk` call that may still be served. -/
structure Follows (u : Upload) (chunkID : String) (first : UploadState)
    (sending : Option CommandCommitChunk) (s : Cluster) (t : UploadState) : Prop where
  run : UploadRun u first t
  fsm : t.fsm = s.fsm
  pending : ∀ req ∈ s.pending, req ∈ t.requests
  sending : ∀ req ∈ sending, req ∈ t.requests ∧ req.chunkID = chunkID
  phase : t.phase = first.phase
  placements : t.placements = first.placements
  progress : t.progress = first.progress

namespace Follows

variable {u : Upload} {chunkID : String} {first t : UploadState} {sending : Option CommandCommitChunk}
  {s : Cluster}

theorem command (follows : Follows u chunkID first sending s t) {cmd : Command} {orders : Nat → MapOrder}
    (foreign : ∀ req, cmd = .commitChunk req → req.chunkID ∉ u.chunkIDs) :
    Follows u chunkID first sending (s.happen (.command cmd orders))
      { t with fsm := (t.fsm.handle orders cmd).1 } :=
  { follows with
    run := follows.run.tail (.command cmd orders foreign)
    fsm := by rw [follows.fsm]; rfl }

theorem heartbeat (follows : Follows u chunkID first sending s t) (nodeID : String) (ts : Time) :
    Follows u chunkID first sending (s.happen (.heartbeat nodeID ts))
      { t with fsm := (t.fsm.updateLastSeen nodeID ts).1 } :=
  { follows with
    run := follows.run.tail (.heartbeat nodeID ts)
    fsm := by rw [follows.fsm]; rfl }

theorem apply (follows : Follows u chunkID first sending s t) {req : CommandCommitChunk}
    (known : req ∈ t.requests) (orders : Nat → MapOrder) :
    Follows u chunkID first sending (s.apply orders req).2 { t with
      fsm := (t.fsm.handle orders (.commitChunk req)).1
      answered :=
        if (t.fsm.handle orders (.commitChunk req)).2 = none then req.chunkID :: t.answered
        else t.answered } :=
  { follows with
    run := follows.run.tail (.commitChunk req orders known)
    fsm := by rw [follows.fsm]; rfl }

end Follows

namespace ChunkUpload

variable {c : ChunkUpload} {buffer : List UInt8} {first : UploadState}

theorem follows_closed (read : readAt c.upload.content c.desc.offset c.desc.size = .ok buffer)
    (started : first.phase ≠ .creating) (chunk : c.desc ∈ c.upload.descriptors)
    (placed : c.placement ∈ first.placements ∧ c.placement.chunkId = c.desc.chunkID) :
    Closed c.primary (c.frames buffer) (Meanwhile.Foreign c.upload)
      (fun sending s => ∃ t, Follows c.upload c.desc.chunkID first sending s t)
      (fun s => ∃ t, Follows c.upload c.desc.chunkID first none s t ∧ c.desc.chunkID ∈ t.answered) where
  happen := by
    intro sending s event held foreign
    obtain ⟨t, follows⟩ := held
    cases event with
    | command cmd orders => exact ⟨_, follows.command foreign⟩
    | heartbeat nodeID ts => exact ⟨_, follows.heartbeat nodeID ts⟩
    | late k orders =>
      simp only [Cluster.happen]
      split
      · exact ⟨t, follows⟩
      · rename_i req position
        have rest : Follows c.upload c.desc.chunkID first sending
            { s with pending := s.pending.eraseIdx k } t := { follows with
          pending := fun other member => follows.pending other (List.mem_of_mem_eraseIdx member) }
        exact ⟨_, rest.apply (follows.pending req (List.mem_of_getElem? position)) orders⟩
  refused := by
    intro s _ _ _ _ disk held _
    obtain ⟨t, follows⟩ := held
    exact ⟨t, { follows with }⟩
  served := by
    intro s env arrived ending commit disk held whole stored
    obtain ⟨t, follows⟩ := held
    have framed : c.upload.frames c.desc c.placement = .ok (c.frames buffer) := by
      rw [Upload.frames, read]
      rfl
    have step := UploadStep.putChunk (u := c.upload) (s := t) c.desc c.placement _ c.primary env arrived
      ending s.disk disk commit (follows.phase ▸ started) chunk
      (by rw [follows.placements]; exact placed) framed whole stored
    have sending : ∀ req ∈ commit, req ∈ commit.toList ++ t.requests ∧ req.chunkID = c.desc.chunkID := by
      intro req sent
      cases sent
      exact ⟨List.mem_append_left _ (by simp), (commit_of_frames stored).1⟩
    have next : Follows c.upload c.desc.chunkID first commit { s with disk := disk } _ := { follows with
      run := follows.run.tail step
      pending := fun req member => List.mem_append_right _ (follows.pending req member)
      sending := sending }
    refine ⟨⟨_, next⟩, ?_⟩
    intro silent
    subst silent
    exact ⟨_, next, List.mem_cons_self⟩
  apply := by
    intro s req held orders
    obtain ⟨t, follows⟩ := held
    obtain ⟨known, named⟩ := follows.sending req rfl
    have next := follows.apply known orders
    refine ⟨⟨_, next⟩, ?_⟩
    intro nil
    refine ⟨_, { next with sending := by simp }, ?_⟩
    have accepted : (t.fsm.handle orders (.commitChunk req)).2 = none := by
      rw [follows.fsm]
      exact nil
    rw [if_pos accepted, ← named]
    exact List.mem_cons_self
  give := by
    intro s req held
    obtain ⟨t, follows⟩ := held
    exact ⟨t, { follows with
      pending := List.forall_mem_cons.mpr ⟨(follows.sending req rfl).1, follows.pending⟩ }⟩
  sent := by
    intro s req held
    obtain ⟨t, follows⟩ := held
    exact ⟨t, { follows with sending := by simp }⟩

/-- A call of `uploadChunkWithRetry` is a run of the steps of the upload: it moves the metadata as
    they do, and its result decides the progress of its chunk. -/
theorem uploadChunkWithRetry_run (started : first.phase ≠ .creating) {i n : Nat}
    (chunk : c.upload.descriptors[i]? = some c.desc)
    (placed : c.placement ∈ first.placements ∧ c.placement.chunkId = c.desc.chunkID)
    (pending : first.progress i = .pending n) {s : Cluster} (same : first.fsm = s.fsm)
    (known : ∀ req ∈ s.pending, req ∈ first.requests) {env : Nat → PutAttempt}
    (foreign : ∀ k, (env k).Meets (Meanwhile.Foreign c.upload)) (waits : Waits) :
    ∃ t, UploadRun c.upload first t ∧ t.fsm = (c.uploadChunkWithRetry waits env s).2.fsm ∧
      t.progress = Function.update first.progress i
        (if (c.uploadChunkWithRetry waits env s).1 = none then .done else .failed) := by
  have start : Follows c.upload c.desc.chunkID first none s first :=
    ⟨.refl, same, known, by simp, rfl, rfl, rfl⟩
  have gaveUp {later : Cluster} {t : UploadState}
      (follows : Follows c.upload c.desc.chunkID first none later t) :
      ∃ t, UploadRun c.upload first t ∧ t.fsm = later.fsm ∧
        t.progress = Function.update first.progress i .failed := by
    rw [← follows.progress] at pending
    exact ⟨_, follows.run.tail (.cancelled i n pending), follows.fsm, by rw [follows.progress]⟩
  cases read : readAt c.upload.content c.desc.offset c.desc.size with
  | error err =>
    simp only [uploadChunkWithRetry, read]
    exact gaveUp start
  | ok buffer =>
    have member : c.desc ∈ c.upload.descriptors := List.mem_of_getElem? chunk
    have keeps := uploadChunkWithRetry_keeps (follows_closed read started member placed) read
      ⟨first, start⟩ foreign waits
    generalize c.uploadChunkWithRetry waits env s = result at keeps
    obtain ⟨answer, later⟩ := result
    cases answer with
    | some err =>
      obtain ⟨t, follows⟩ := keeps.kept
      exact gaveUp follows
    | none =>
      obtain ⟨t, follows, answered⟩ := keeps.done rfl
      rw [← follows.progress] at pending ⊢
      exact ⟨_, follows.run.tail (.attemptOk i n c.desc chunk pending answered), follows.fsm, rfl⟩

end ChunkUpload

end DistributedFs.Client
