import DistributedFs.Client.ChunkUpload
import DistributedFs.Client.RoundTrip

namespace DistributedFs.Client

open Go Fsm MetadataFSM Storage Internal

def Spares (chunkID : String) : Command → Prop
  | .markChunkLost req => req.chunkID ≠ chunkID
  | _ => True

def Meanwhile.Calm (chunkID : String) : Meanwhile → Prop
  | command cmd _ => Spares chunkID cmd
  | heartbeat .. | late .. => True

structure Committed (chunkID : String) (hash : List UInt8) (calm : Prop) (m : FSM) : Prop where
  record : ∃ chunk, m.chunkRegistry.lookup chunkID = some chunk ∧ chunk.checksum = hash ∧
    (calm → chunk.status = .complete)

section

variable {chunkID : String} {hash : List UInt8} {calm : Prop}

theorem Committed.setChunk {m : FSM} (committed : Committed chunkID hash calm m) {cid : String}
    {chunk later : ChunkRecord (List String)} (found : m.chunkRegistry.lookup cid = some chunk)
    (checksum : cid = chunkID → chunk.checksum = hash → later.checksum = hash)
    (status : cid = chunkID → calm → chunk.status = .complete → later.status = .complete) :
    Committed chunkID hash calm (m.setChunk cid later) := by
  obtain ⟨old, stored, same, complete⟩ := committed.record
  constructor
  simp only [MetadataFSM.setChunk, GoMap.lookup_insert]
  split
  · rename_i here
    rw [here, found] at stored
    cases stored
    exact ⟨later, rfl, checksum here.symm same, fun quiet => status here.symm quiet (complete quiet)⟩
  · exact ⟨old, stored, same, complete⟩

theorem Committed.step {m after : FSM} (committed : Committed chunkID hash calm m) (hashed : hash ≠ [])
    {cmd : Command} (spares : calm → Spares chunkID cmd) {orders : Nat → MapOrder}
    {result : Option GoError} (step : Fsm.Step m orders cmd after result) :
    Committed chunkID hash calm after := by
  cases step with
  | failed | alreadyListed => exact committed
  | nodes | jobs | mdNodes | commitFile | deleteFile => exact ⟨committed.record⟩
  | createFile req newID fresh =>
    obtain ⟨chunk, stored, kept⟩ := committed.record
    rcases lookup_created m req chunkID with ⟨index, position, _⟩ | ⟨_, same⟩
    · exact absurd (Finmap.mem_of_lookup_eq_some stored) (fresh _ (List.mem_of_getElem? position))
    · exact ⟨chunk, same.trans stored, kept⟩
  | commitChunk req chunk found guard =>
    refine committed.setChunk found ?_ (fun _ _ _ => rfl)
    intro _ same
    rw [guard.1] at same
    exact absurd same.symm hashed
  | evict req chunk idx found | addReplica req chunk found =>
    exact committed.setChunk found (fun _ same => same) (fun _ _ complete => complete)
  | markLost req chunk found =>
    exact committed.setChunk found (fun _ same => same) fun here quiet _ => absurd here (spares quiet)

theorem commit_accepted {m : FSM} {orders : Nat → MapOrder} {req : CommandCommitChunk}
    (accepted : (m.handle orders (.commitChunk req)).2 = none) :
    (∃ chunk, m.chunkRegistry.lookup req.chunkID = some chunk ∧ chunk.checksum = []) ∧
      Committed req.chunkID req.checksum calm (m.handle orders (.commitChunk req)).1 := by
  change (m.handleCmdCommitChunk orders req).2 = none at accepted
  change _ ∧ Committed _ _ _ (m.handleCmdCommitChunk orders req).1
  unfold handleCmdCommitChunk at accepted ⊢
  cases read : m.getChunk req.chunkID with
  | error err => simp [read] at accepted
  | ok chunk =>
    simp only [read] at accepted ⊢
    split at accepted
    · rename_i guard
      rw [if_pos guard]
      refine ⟨⟨chunk, (getChunk_ok m).mp read, List.eq_nil_of_length_eq_zero guard.1⟩, ⟨?_⟩⟩
      simp [MetadataFSM.setChunk]
    · cases accepted

structure Own (primary : StorageServer) (chunkID : String) (hash : List UInt8)
    (req : CommandCommitChunk) : Prop where
  hasMetaClient : primary.hasMetaClient = true
  chunkID : req.chunkID = chunkID
  checksum : req.checksum = hash

/-- What holds while the chunk is uploaded with the checksum `hash`. Once one of the commands has
    been applied the record is that of a committed chunk; `settled` says that this has happened. -/
structure Sound (primary : StorageServer) (chunkID : String) (hash : List UInt8) (calm settled : Prop)
    (sending : Option CommandCommitChunk) (s : Cluster) : Prop where
  sending : ∀ req ∈ sending, Own primary chunkID hash req
  pending : ∀ req ∈ s.pending, Own primary chunkID hash req
  applied : ∀ req ∈ s.applied, Own primary chunkID hash req
  committed : s.applied ≠ [] → Committed chunkID hash calm s.fsm
  settled : settled → s.applied ≠ []

variable {primary : StorageServer} {settled : Prop} {sending : Option CommandCommitChunk} {s : Cluster}

theorem Sound.apply (sound : Sound primary chunkID hash calm settled sending s) (hashed : hash ≠ [])
    {req : CommandCommitChunk} (own : Own primary chunkID hash req) (orders : Nat → MapOrder) :
    Keeps (Sound primary chunkID hash calm settled sending) (fun _ => ¬ settled) (s.apply orders req) := by
  have step := handle_step s.fsm orders (.commitChunk req)
  have accepted := @commit_accepted calm s.fsm orders req
  unfold Cluster.apply
  generalize s.fsm.handle orders (.commitChunk req) = result at step accepted
  obtain ⟨fsm, answer⟩ := result
  cases answer with
  | some err =>
    refine .failed ⟨sound.sending, sound.pending, sound.applied, ?_, sound.settled⟩ err
    intro happened
    exact (sound.committed happened).step hashed (fun _ => by trivial) step
  | none =>
    obtain ⟨⟨chunk, stored, open_⟩, committed⟩ := accepted rfl
    rw [own.chunkID] at stored
    rw [own.chunkID, own.checksum] at committed
    refine ⟨⟨sound.sending, sound.pending, List.forall_mem_cons.mpr ⟨own, sound.applied⟩,
      fun _ => committed, fun _ => List.cons_ne_nil _ _⟩, ?_⟩
    intro _ happened
    -- a committed chunk has a checksum, so the guard of the handler does not let it through
    obtain ⟨_, same, checksum, _⟩ := (sound.committed (sound.settled happened)).record
    cases same.symm.trans stored
    exact hashed (checksum.symm.trans open_)

theorem Sound.command (sound : Sound primary chunkID hash calm settled sending s) (hashed : hash ≠ [])
    {cmd : Command} (spares : calm → Spares chunkID cmd) (orders : Nat → MapOrder) :
    Sound primary chunkID hash calm settled sending { s with fsm := (s.fsm.handle orders cmd).1 } where
  sending := sound.sending
  pending := sound.pending
  applied := sound.applied
  committed happened := (sound.committed happened).step hashed spares (handle_step s.fsm orders cmd)
  settled := sound.settled

theorem Sound.heartbeat (sound : Sound primary chunkID hash calm settled sending s) (nodeID : String)
    (ts : Time) :
    Sound primary chunkID hash calm settled sending { s with fsm := (s.fsm.updateLastSeen nodeID ts).1 } where
  sending := sound.sending
  pending := sound.pending
  applied := sound.applied
  committed happened := by
    obtain ⟨registry, same⟩ := s.fsm.updateLastSeen_nodes_only nodeID ts
    rw [same]
    exact ⟨(sound.committed happened).record⟩
  settled := sound.settled

namespace ChunkUpload

theorem sound_closed (c : ChunkUpload) (buffer : List UInt8) (calm settled : Prop) :
    Closed c.primary (c.frames buffer) (fun event => calm → event.Calm c.desc.chunkID)
      (Sound c.primary c.desc.chunkID (Sha256.sum256 buffer) calm settled) (fun _ => ¬ settled) where
  happen := by
    intro sending s event sound spares
    have hashed := Upload.sum256_ne_nil buffer
    cases event with
    | command cmd orders => exact sound.command hashed spares orders
    | heartbeat nodeID ts => exact sound.heartbeat nodeID ts
    | late k orders =>
      simp only [Cluster.happen]
      split
      · exact sound
      · rename_i req position
        have rest : Sound c.primary c.desc.chunkID (Sha256.sum256 buffer) calm settled sending
            { s with pending := s.pending.eraseIdx k } := { sound with
          pending := fun other member => sound.pending other (List.mem_of_mem_eraseIdx member) }
        exact (rest.apply hashed (sound.pending req (List.mem_of_getElem? position)) orders).kept
  refused := by
    intro s _ _ _ _ disk sound _
    exact { sound with }
  served := by
    intro s env arrived ending commit disk sound _ stored
    have clients := StorageServer.putChunk_isSome stored
    refine ⟨{ sound with sending := ?_ }, ?_⟩
    · intro req sent
      cases sent
      obtain ⟨named, summed⟩ := commit_of_frames stored
      exact ⟨clients.symm, named, summed⟩
    · intro silent happened
      obtain ⟨req, member⟩ := List.exists_mem_of_ne_nil _ (sound.settled happened)
      rw [silent, (sound.applied req member).hasMetaClient] at clients
      cases clients
  apply := by
    intro s req sound orders
    exact sound.apply (Upload.sum256_ne_nil buffer) (sound.sending req rfl) orders
  give := by
    intro s req sound
    exact { sound with
      pending := List.forall_mem_cons.mpr ⟨sound.sending req rfl, sound.pending⟩ }
  sent := by
    intro s req sound
    exact { sound with sending := by simp }

variable {c : ChunkUpload} {buffer : List UInt8}

def after (c : ChunkUpload) (buffer : List UInt8) (s : Cluster) (attempted : List PutAttempt) : Cluster :=
  attempted.foldl (fun s a => (c.putChunk buffer a s).2) s

theorem after_sound (attempted : List PutAttempt)
    (spares : ∀ a ∈ attempted, a.Meets fun event => calm → event.Calm c.desc.chunkID)
    (sound : Sound c.primary c.desc.chunkID (Sha256.sum256 buffer) calm settled none s) :
    Sound c.primary c.desc.chunkID (Sha256.sum256 buffer) calm settled none (c.after buffer s attempted) := by
  induction attempted generalizing s with
  | nil => exact sound
  | cons a rest ih =>
    have first := putChunk_keeps (c.sound_closed buffer calm settled) sound (spares a List.mem_cons_self)
    exact ih (fun other member => spares other (List.mem_cons_of_mem _ member)) first.kept

def Rejected (c : ChunkUpload) (buffer : List UInt8) (calm : Prop) (result : Option GoError × Cluster) :
    Prop :=
  result.1 ≠ none ∧ Committed c.desc.chunkID (Sha256.sum256 buffer) calm result.2.fsm

theorem rejected_of_keeps {result : Option GoError × Cluster}
    (keeps : Keeps (Sound c.primary c.desc.chunkID (Sha256.sum256 buffer) calm True none)
      (fun _ => ¬ True) result) : c.Rejected buffer calm result :=
  ⟨fun nil => keeps.done nil trivial, keeps.kept.committed (keeps.kept.settled trivial)⟩

end ChunkUpload

end

theorem PutAttempt.Meets.unless {calm : Prop} {allowed : Meanwhile → Prop} {a : PutAttempt}
    (meets : calm → a.Meets allowed) : a.Meets fun event => calm → allowed event where
  before event member quiet := (meets quiet).before event member
  calls k event member quiet := (meets quiet).calls k event member

/-- Once a `CommitChunk` of the upload has been applied, no later attempt reports success: not one
    call of `PutChunk`, not the rest of the retry loop, not a new call with the same arguments. The
    chunk keeps the checksum of its content, and is complete unless somebody marks it lost. -/
theorem retry_after_commit_rejected (c : ChunkUpload) {buffer : List UInt8}
    (read : readAt c.upload.content c.desc.offset c.desc.size = .ok buffer) (m : FSM) (disk : Disk)
    (attempted : List PutAttempt) (carriedOut : (c.after buffer (.start m disk) attempted).applied ≠ [])
    (waits : Waits) (env : Nat → PutAttempt) :
    let calm := (∀ a ∈ attempted, a.Meets (Meanwhile.Calm c.desc.chunkID)) ∧
      ∀ k, (env k).Meets (Meanwhile.Calm c.desc.chunkID)
    let s := c.after buffer (.start m disk) attempted
    (∀ k, c.Rejected buffer calm (c.putChunk buffer (env k) s)) ∧
      (∀ left attempt lastErr, c.Rejected buffer calm
        (attempts waits (fun k => c.putChunk buffer (env k)) left attempt lastErr s)) ∧
      c.Rejected buffer calm (c.uploadChunkWithRetry waits env s) := by
  intro calm s
  have fresh : Sound c.primary c.desc.chunkID (Sha256.sum256 buffer) calm False none (.start m disk) :=
    ⟨nofun, nofun, nofun, fun happened => absurd rfl happened, False.elim⟩
  have sound := ChunkUpload.after_sound attempted
    (fun a member => .unless fun quiet : calm => quiet.1 a member) fresh
  have settled : Sound c.primary c.desc.chunkID (Sha256.sum256 buffer) calm True none s :=
    { sound with settled := fun _ => carriedOut }
  have closed := c.sound_closed buffer calm True
  have meets (k : Nat) : (env k).Meets fun event => calm → event.Calm c.desc.chunkID :=
    .unless fun quiet => quiet.2 k
  refine ⟨?_, ?_, ?_⟩
  · intro k
    exact ChunkUpload.rejected_of_keeps (ChunkUpload.putChunk_keeps closed settled (meets k))
  · intro left attempt lastErr
    apply ChunkUpload.rejected_of_keeps
    apply attempts_keeps _ left attempt lastErr settled
    intro k before kept
    exact ChunkUpload.putChunk_keeps closed kept (meets k)
  · exact ChunkUpload.rejected_of_keeps
      (ChunkUpload.uploadChunkWithRetry_keeps closed read settled meets waits)

def letterChunk : ChunkUpload :=
  ⟨{ letter with cfg := { letter.cfg with retryAttempts := 2 } }, descriptorAt "file-1" 1 65536 0,
    letterPlacement, letterServer, ⟨5⟩⟩

def steady : Waits := ⟨fun _ => none, fun _ => none⟩

def liveAttempt (lost : Option GoError) : PutAttempt :=
  ⟨[], .delivered lost, quiet, fun _ => ⟨none, true, true, none⟩,
    fun _ => ⟨[], .delivered ⟨true, "n"⟩ created.fsm (.applied fun _ => default) none⟩⟩

def lossy : PutAttempt := liveAttempt (some (.new "connection reset"))

def letterLost : Cluster := letterChunk.after [65] (.start created.fsm emptyDisk) [lossy]

theorem letterLost_applied : letterLost.applied = [letterCommit] := by decide +kernel

/-- The first attempt is carried out and its reply is lost. The second fails at the same nodes, where
    an upload that loses nothing succeeds. -/
theorem lost_reply_fails_retry :
    (letterChunk.uploadChunkWithRetry steady (fun _ => liveAttempt none)
        (.start created.fsm emptyDisk)).1 = none ∧
      letterLost.applied = [letterCommit] ∧
      (letterChunk.putChunk [65] (liveAttempt none) letterLost).1 = some (.new
        ("storageclient: PutChunk close failed: rpc error: code = Internal desc = " ++
          "metadata commit failed: rpc error: code = Internal desc = " ++
          "error proposing commit-chunk command: cmdCommitChunk: chunk validation failed")) ∧
      (letterChunk.uploadChunkWithRetry steady (fun k => if k = 0 then lossy else liveAttempt none)
        (.start created.fsm emptyDisk)).1 ≠ none := by
  refine ⟨?_, letterLost_applied, ?_, ?_⟩ <;> decide +kernel

theorem liveAttempt_calm (lost : Option GoError) (chunkID : String) :
    (liveAttempt lost).Meets (Meanwhile.Calm chunkID) where
  before := nofun
  calls _ := nofun

theorem retry_after_commit_rejected_letter :
    (letterChunk.uploadChunkWithRetry steady (fun _ => liveAttempt none) letterLost).1 ≠ none ∧
      ∃ chunk, (letterChunk.uploadChunkWithRetry steady (fun _ => liveAttempt none)
          letterLost).2.fsm.chunkRegistry.lookup letterChunk.desc.chunkID = some chunk ∧
        chunk.checksum = Sha256.sum256 [65] ∧ chunk.status = .complete := by
  have read : readAt letterChunk.upload.content letterChunk.desc.offset letterChunk.desc.size =
      .ok [65] := by decide +kernel
  have applied : letterLost.applied ≠ [] := by
    rw [letterLost_applied]
    exact List.cons_ne_nil _ _
  obtain ⟨_, _, failed, chunk, stored, checksum, complete⟩ := retry_after_commit_rejected letterChunk
    read created.fsm emptyDisk [lossy] applied steady fun _ => liveAttempt none
  unfold letterLost
  refine ⟨failed, chunk, stored, checksum, complete ⟨?_, fun _ => liveAttempt_calm none _⟩⟩
  intro a member
  cases List.mem_singleton.mp member
  exact liveAttempt_calm _ _

end DistributedFs.Client
