import DistributedFs.Storage.ReplicateChunk

namespace DistributedFs.Storage

open Go Server WeightedMap DiskStore

def content (frames : List ReplicateChunkRequest) : List UInt8 :=
  frames.flatMap ReplicateChunkRequest.data

/-- `part` is the stream up to its first frame with `IsLast`: it opens one chunk and names no
    other one. -/
structure Formed (ds : DiskStore) (frames part : List ReplicateChunkRequest) (chunkId : String) : Prop where
  reached : part <+: frames
  valid : ds.validateChunkId (bytes chunkId) = .ok ()
  first : ∃ first rest, part = first :: rest ∧ first.isFirst = true ∧ first.chunkId = chunkId ∧
    ∀ frame ∈ rest, frame.isFirst = false ∧ (frame.chunkId = "" ∨ frame.chunkId = chunkId)
  last : ∃ front last, part = front ++ [last] ∧ last.isLast = true ∧
    ∀ frame ∈ front, frame.isLast = false

def NoTemps (ds : DiskStore) (disk : Disk) : Prop :=
  ∀ id p, ds.tempPath id = .ok p → disk.files.read p = none

/-- The receiver stores the chunk of a well-formed stream for which there is room; any other
    stream ends with an error and leaves the chunks; no temporary file is left. -/
structure Exact (ds : DiskStore) (m : Contents ds) (frames : List ReplicateChunkRequest)
    (outcome : Option RpcError × Disk) : Prop where
  stored : ∀ part chunkId later, Formed ds frames part chunkId →
    m.put (bytes chunkId) (content part) = some later → outcome.1 = none ∧ Represents ds outcome.2 later
  refused : (∀ part chunkId, Formed ds frames part chunkId → m.put (bytes chunkId) (content part) = none) →
    outcome.1 ≠ none ∧ Represents ds outcome.2 m
  clean : NoTemps ds outcome.2

/-- The frames after one that opened `chunkId`: a frame marked first again names the same
    chunk, the sender does not close the stream early, and a stream with a frame marked first
    again does not reach an acceptable end. -/
def Sealed (ds : DiskStore) (m : Contents ds) (ending : Ending) (chunkId : String) :
    Bool → List UInt8 → List ReplicateChunkRequest → Prop
  | _, _, [] => ending = .broken
  | again, data, frame :: rest =>
    if frame.isFirst = true ∧ frame.chunkId ≠ chunkId then False
    else if frame.chunkId ≠ "" ∧ frame.chunkId ≠ chunkId then True
    else if frame.isLast then
      (again || frame.isFirst) = false ∨
        m.put (bytes chunkId) ((if frame.isFirst then [] else data) ++ frame.data) = none
    else
      Sealed ds m ending chunkId (again || frame.isFirst)
        ((if frame.isFirst then [] else data) ++ frame.data) rest

def Orderly (ds : DiskStore) (m : Contents ds) (ending : Ending) : List ReplicateChunkRequest → Prop
  | [] => True
  | first :: rest => first.isFirst = true → ds.validateChunkId (bytes first.chunkId) = .ok () →
    first.isLast = true ∨ Sealed ds m ending first.chunkId false first.data rest

variable {ds : DiskStore} {m : Contents ds} {before disk after : Disk}
  {frames part taken : List ReplicateChunkRequest} {chunkId : String}

namespace Formed

theorem longer (formed : Formed ds frames part chunkId) (reached : taken <+: frames)
    (unfinished : ∀ frame ∈ taken, frame.isLast = false) : ∃ next more, part = taken ++ next :: more := by
  obtain ⟨front, last, split, marked, _⟩ := formed.last
  have outside : ¬part <+: taken := by
    intro inside
    have member : last ∈ taken := inside.subset (by simp [split])
    cases (unfinished last member).symm.trans marked
  rcases List.prefix_or_prefix_of_prefix formed.reached reached with inside | beyond
  · exact absurd inside outside
  · obtain ⟨rest, rfl⟩ := beyond
    cases rest with
    | nil => exact absurd (by simp) outside
    | cons next more => exact ⟨next, more, rfl⟩

theorem unique {other : List ReplicateChunkRequest} {otherId : String}
    (formed : Formed ds frames part chunkId) (also : Formed ds frames other otherId) :
    other = part ∧ otherId = chunkId := by
  have within {left right : List ReplicateChunkRequest} {id id' : String}
      (first : Formed ds frames left id) (second : Formed ds frames right id')
      (shorter : left <+: right) : left = right := by
    obtain ⟨front, last, rfl, marked, _⟩ := first.last
    obtain ⟨front', last', split, _, unfinished⟩ := second.last
    obtain ⟨rest, joined⟩ := shorter
    cases rest using List.reverseRecOn with
    | nil => simpa using joined
    | append_singleton more end_ =>
      rw [split, ← List.append_assoc] at joined
      have same := (List.append_inj' joined rfl).1
      have member : last ∈ front' := by
        rw [← same]
        simp
      cases (unfinished last member).symm.trans marked
  have same : other = part := by
    rcases List.prefix_or_prefix_of_prefix formed.reached also.reached with shorter | shorter
    · exact (within formed also shorter).symm
    · exact within also formed shorter
  subst same
  obtain ⟨first, rest, split, _, id, _⟩ := formed.first
  obtain ⟨first', rest', split', _, id', _⟩ := also.first
  cases split.symm.trans split'
  exact ⟨rfl, id'.symm.trans id⟩

end Formed

theorem Exact.of_discarded {id : GoString} {p : Path} (gone : Discarded before after p)
    (temp : ds.tempPath id = .ok p) (repr : Represents ds before m) (clean : NoTemps ds before)
    (nothing : ∀ part chunkId, Formed ds frames part chunkId → m.put (bytes chunkId) (content part) = none)
    (err : RpcError) : Exact ds m frames (some err, after) where
  stored part chunkId later formed room := by
    cases (nothing part chunkId formed).symm.trans room
  refused _ := by
    refine ⟨by simp, gone.represents ?_ repr⟩
    intro other path
    exact pathForChunk_ne_tempPath path temp rfl
  clean other q path := by
    show after.files.read q = none
    rw [gone.reads]
    by_cases here : q = p
    · rw [if_pos here]
    · rw [if_neg here]
      exact clean other q path

theorem Exact.of_unchanged (repr : Represents ds before m) (clean : NoTemps ds before)
    (unformed : ∀ part chunkId, ¬Formed ds frames part chunkId) (err : RpcError) :
    Exact ds m frames (some err, before) where
  stored part chunkId _ formed _ := absurd formed (unformed part chunkId)
  refused _ := ⟨by simp, repr⟩
  clean := clean

theorem not_exact_of_success {outcome : Option RpcError × Disk} (success : outcome.1 = none)
    (unformed : ∀ part chunkId, ¬Formed ds frames part chunkId) : ¬Exact ds m frames outcome := by
  intro exact
  have refused := exact.refused fun part chunkId formed => absurd formed (unformed part chunkId)
  exact refused.1 success

theorem takeFrame_invalid {frame : ReplicateChunkRequest} (first : frame.isFirst = true)
    (invalid : ds.validateChunkId (bytes frame.chunkId) = .error errInvalidChunkId)
    (incoming : Option Incoming) (k : Nat) (disk : Disk) :
    ∃ err, ReplicateChunk.takeFrame ds .quiet k frame incoming disk = (.failed err, disk) := by
  simp only [ReplicateChunk.takeFrame, ReplicateChunk.openWriter, first, if_true]
  by_cases empty : frame.chunkId = ""
  · rw [if_pos empty]
    exact ⟨_, rfl⟩
  · rw [if_neg empty, newChunkWriter_invalid invalid]
    exact ⟨_, rfl⟩

theorem takeFrame_opens {frame : ReplicateChunkRequest} (first : frame.isFirst = true)
    (valid : ds.validateChunkId (bytes frame.chunkId) = .ok ()) (env : ReplicateEnv) (k : Nat)
    (created : env.create k = none) (incoming : Option Incoming) (disk : Disk) :
    ∃ cw after, Writing ds disk after cw ∧ cw.chunkId = bytes frame.chunkId ∧
      cw.hasher = [] ∧ ReplicateChunk.takeFrame ds env k frame incoming disk =
        ReplicateChunk.fill ds env k frame ⟨cw, frame.chunkId⟩ after := by
  obtain ⟨cw, after, opened, writing, id, hashed⟩ := newChunkWriter_valid valid disk
  refine ⟨cw, after, writing, id, hashed, ?_⟩
  have named : frame.chunkId ≠ "" := by
    intro empty
    rw [empty] at valid
    exact valid_nonempty valid rfl
  simp only [ReplicateChunk.takeFrame, ReplicateChunk.openWriter, first, if_true, if_neg named,
    created, opened]

theorem takeFrame_later {frame : ReplicateChunkRequest} (later : frame.isFirst = false)
    (env : ReplicateEnv) (incoming : Incoming) (k : Nat) (disk : Disk) :
    ReplicateChunk.takeFrame ds env k frame (some incoming) disk =
      ReplicateChunk.fill ds env k frame incoming disk := by
  simp [ReplicateChunk.takeFrame, ReplicateChunk.openWriter, later]

def resume (ds : DiskStore) (env : ReplicateEnv) (ending : Ending) (rest : List ReplicateChunkRequest)
    (k : Nat) (turn : Turn × Disk) : Option RpcError × Disk :=
  match turn with
  | (.failed err, disk) => (some err, disk)
  | (.finished _, disk) => (none, disk)
  | (.acked incoming, disk) => ReplicateChunk.serve ds env ending rest (k + 1) (some incoming) disk

theorem serve_cons {env : ReplicateEnv} (idle : env.Idle) (ending : Ending) (frame : ReplicateChunkRequest)
    (rest : List ReplicateChunkRequest) (k : Nat) (incoming : Option Incoming) (disk : Disk) :
    ReplicateChunk.serve ds env ending (frame :: rest) k incoming disk =
      resume ds env ending rest k (ReplicateChunk.takeFrame ds env k frame incoming disk) := by
  rw [ReplicateChunk.serve, idle]
  rfl

theorem length_content_cons (frame : ReplicateChunkRequest) (rest : List ReplicateChunkRequest) :
    (content (frame :: rest)).length = frame.data.length + (content rest).length := by
  simp [content]

def Leftover (ds : DiskStore) (disk : Disk) (p : Path) : Prop :=
  ∃ id q, ds.tempPath id = .ok q ∧ q ≠ p ∧ disk.files.read q ≠ none

theorem Leftover.of_discarded {p : Path} (leftover : Leftover ds before p)
    (gone : Discarded before after p) : ¬NoTemps ds after := by
  obtain ⟨id, q, temp, away, present⟩ := leftover
  intro clean
  apply present
  have read := gone.reads q
  rw [if_neg away] at read
  exact read.symm.trans (clean id q temp)

theorem Leftover.of_writing {cw : ChunkWriter} (leftover : Leftover ds before cw.filepath)
    (writing : Writing ds before disk cw) : Leftover ds disk cw.filepath := by
  obtain ⟨id, q, temp, away, present⟩ := leftover
  refine ⟨id, q, temp, away, ?_⟩
  rw [writing.others q away]
  exact present

theorem Leftover.opens {cw : ChunkWriter} (leftover : Leftover ds disk cw.filepath)
    (writing : Writing ds before disk cw) (p : Path) : Leftover ds disk p := by
  obtain ⟨id, q, temp, away, present⟩ := leftover
  by_cases here : q = p
  · subst here
    refine ⟨cw.chunkId, cw.filepath, writing.temp, Ne.symm away, ?_⟩
    rw [writing.read]
    simp
  · exact ⟨id, q, temp, here, present⟩

def Leaves (ds : DiskStore) (m : Contents ds) (ending : Ending) (rest : List ReplicateChunkRequest) : Prop :=
  ∀ {incoming : Incoming} {before disk : Disk} (k : Nat), Writing ds before disk incoming.writer →
    Represents ds before m → incoming.writer.hasher.length + (content rest).length < 2 ^ 64 →
    Leftover ds before incoming.writer.filepath →
    (ReplicateChunk.serve ds .quiet ending rest k (some incoming) disk).1 = none ∨
      ¬NoTemps ds (ReplicateChunk.serve ds .quiet ending rest k (some incoming) disk).2

theorem Leaves.resume {ending : Ending} {rest : List ReplicateChunkRequest} (leaves : Leaves ds m ending rest)
    {incoming : Incoming} (writing : Writing ds before disk incoming.writer) (repr : Represents ds before m)
    {frame : ReplicateChunkRequest}
    (short : incoming.writer.hasher.length + (content (frame :: rest)).length < 2 ^ 64)
    (leftover : Leftover ds before incoming.writer.filepath) (k : Nat) :
    (resume ds .quiet ending rest k (ReplicateChunk.fill ds .quiet k frame incoming disk)).1 = none ∨
      ¬NoTemps ds (resume ds .quiet ending rest k (ReplicateChunk.fill ds .quiet k frame incoming disk)).2 := by
  rw [length_content_cons] at short
  have turn := fill_filled writing repr frame (by rw [List.length_append]; omega) k
  generalize ReplicateChunk.fill ds .quiet k frame incoming disk = outcome at turn
  cases turn with
  | other _ _ err after gone => exact .inr (leftover.of_discarded gone)
  | full _ _ _ err after gone => exact .inr (leftover.of_discarded gone)
  | stored => exact .inl rfl
  | acked _ _ later after writing _ path hashed =>
    apply leaves (k + 1) writing repr
    · rw [hashed, List.length_append]
      omega
    · rw [path]
      exact leftover

theorem serve_leaves (ending : Ending) (rest : List ReplicateChunkRequest) : Leaves ds m ending rest := by
  induction rest with
  | nil =>
    intro incoming before disk k writing repr short leftover
    cases ending with
    | eof => exact .inl rfl
    | broken => exact .inr (leftover.of_discarded writing.abort)
  | cons frame rest ih =>
    intro incoming before disk k writing repr short leftover
    rw [serve_cons ReplicateEnv.quiet_idle]
    have lying := leftover.of_writing writing
    cases first : frame.isFirst with
    | false =>
      rw [takeFrame_later first]
      exact ih.resume writing repr short leftover k
    | true =>
      rcases ds.validateChunkId_cases (bytes frame.chunkId) with valid | invalid
      · obtain ⟨cw, opened, held, _, hashed, ran⟩ := takeFrame_opens first valid .quiet k rfl (some incoming) disk
        rw [ran]
        apply ih.resume held (writing.represents repr) _ (lying.opens writing cw.filepath)
        show cw.hasher.length + _ < _
        rw [hashed, List.length_nil]
        omega
      · obtain ⟨err, ran⟩ := takeFrame_invalid first invalid (some incoming) k disk
        rw [ran]
        obtain ⟨id, q, temp, _, present⟩ := lying
        exact .inr fun clean => present (clean id q temp)

structure Opened (ds : DiskStore) (before disk : Disk) (taken : List ReplicateChunkRequest)
    (incoming : Incoming) (again : Bool) : Prop where
  writing : Writing ds before disk incoming.writer
  id : incoming.writer.chunkId = bytes incoming.registeredChunkId
  small : incoming.writer.hasher.length ≤ (content taken).length
  unfinished : ∀ frame ∈ taken, frame.isLast = false
  first : ∃ first rest, taken = first :: rest ∧ first.isFirst = true ∧
    first.chunkId = incoming.registeredChunkId ∧ (again = true → ∃ frame ∈ rest, frame.isFirst = true) ∧
    (again = false → ∀ frame ∈ rest, frame.isFirst = false ∧
      (frame.chunkId = "" ∨ frame.chunkId = incoming.registeredChunkId))
  hashed : again = false → incoming.writer.hasher = content taken

namespace Opened

variable {incoming : Incoming} {again : Bool} {frame : ReplicateChunkRequest}
  {rest : List ReplicateChunkRequest}

theorem unformed_again (opened : Opened ds before disk taken incoming true) (reached : taken <+: frames)
    (part : List ReplicateChunkRequest) (chunkId : String) : ¬Formed ds frames part chunkId := by
  intro formed
  obtain ⟨next, more, rfl⟩ := formed.longer reached opened.unfinished
  obtain ⟨first, others, rfl, _, _, repeated, _⟩ := opened.first
  obtain ⟨start, later, split, _, _, plain⟩ := formed.first
  cases split
  obtain ⟨other, member, marked⟩ := repeated rfl
  cases (plain other (List.mem_append_left _ member)).1.symm.trans marked

theorem unformed_end (opened : Opened ds before disk taken incoming again)
    (part : List ReplicateChunkRequest) (chunkId : String) : ¬Formed ds taken part chunkId := by
  intro formed
  obtain ⟨next, more, rfl⟩ := formed.longer (List.prefix_refl _) opened.unfinished
  have length := formed.reached.length_le
  simp only [List.length_append, List.length_cons] at length
  omega

theorem next (opened : Opened ds before disk taken incoming again)
    (formed : Formed ds (taken ++ frame :: rest) part chunkId) : chunkId = incoming.registeredChunkId ∧
      frame.isFirst = false ∧ (frame.chunkId = "" ∨ frame.chunkId = chunkId) := by
  obtain ⟨next, more, rfl⟩ := formed.longer (List.prefix_append _ _) opened.unfinished
  have same : next = frame := by
    have reached := (List.prefix_append_right_inj taken).mp formed.reached
    obtain ⟨tail, joined⟩ := reached
    cases joined
    rfl
  subst same
  obtain ⟨first, others, rfl, _, id, _⟩ := opened.first
  obtain ⟨start, later, split, _, named, plain⟩ := formed.first
  cases split
  refine ⟨named.symm.trans id, plain next ?_⟩
  simp

theorem unformed_first (opened : Opened ds before disk taken incoming again) (marked : frame.isFirst = true)
    (part : List ReplicateChunkRequest) (chunkId : String) :
    ¬Formed ds (taken ++ frame :: rest) part chunkId := by
  intro formed
  cases (opened.next formed).2.1.symm.trans marked

theorem valid (opened : Opened ds before disk taken incoming again) :
    ds.validateChunkId (bytes incoming.registeredChunkId) = .ok () := by
  have temp := opened.writing.temp
  rw [opened.id] at temp
  obtain ⟨_, valid, _⟩ := bind_eq_ok temp
  exact valid

theorem formed (opened : Opened ds before disk taken incoming false) (later : frame.isFirst = false)
    (same : frame.chunkId = "" ∨ frame.chunkId = incoming.registeredChunkId) (last : frame.isLast = true) :
    Formed ds (taken ++ frame :: rest) (taken ++ [frame]) incoming.registeredChunkId := by
  refine ⟨⟨rest, by simp⟩, opened.valid, ?_, taken, frame, rfl, last, opened.unfinished⟩
  obtain ⟨first, others, split, marked, id, _, plain⟩ := opened.first
  refine ⟨first, others ++ [frame], by rw [split]; rfl, marked, id, ?_⟩
  intro other member
  rcases List.mem_append.mp member with member | member
  · exact plain rfl other member
  · cases List.mem_singleton.mp member
    exact ⟨later, same⟩

theorem content_formed (opened : Opened ds before disk taken incoming again) (unrepeated : again = false)
    (frame : ReplicateChunkRequest) :
    content (taken ++ [frame]) = incoming.writer.hasher ++ frame.data := by
  rw [opened.hashed unrepeated]
  simp [content]

theorem append (opened : Opened ds before disk taken incoming again) (going : frame.isLast = false)
    (same : frame.chunkId = "" ∨ frame.chunkId = incoming.registeredChunkId) {later : ChunkWriter}
    {after : Disk} (writing : Writing ds before after later) (id : later.chunkId = incoming.writer.chunkId)
    (hashed : later.hasher = (if frame.isFirst then [] else incoming.writer.hasher) ++ frame.data) :
    Opened ds before after (taken ++ [frame]) ⟨later, incoming.registeredChunkId⟩
      (again || frame.isFirst) := by
  have grown : (content (taken ++ [frame])).length = (content taken).length + frame.data.length := by
    simp [content]
  refine ⟨writing, id.trans opened.id, ?_, ?_, ?_, ?_⟩
  · have small := opened.small
    rw [grown, hashed, List.length_append]
    split
    · simp
    · omega
  · intro other member
    rcases List.mem_append.mp member with member | member
    · exact opened.unfinished other member
    · cases List.mem_singleton.mp member
      exact going
  · obtain ⟨first, others, split, marked, named, repeated, plain⟩ := opened.first
    refine ⟨first, others ++ [frame], by rw [split]; rfl, marked, named, ?_, ?_⟩
    · intro second
      rcases Bool.or_eq_true_iff.mp second with earlier | now
      · obtain ⟨other, member, marked⟩ := repeated earlier
        exact ⟨other, List.mem_append_left _ member, marked⟩
      · exact ⟨frame, by simp, now⟩
    · intro once
      obtain ⟨earlier, now⟩ := Bool.or_eq_false_iff.mp once
      intro other member
      rcases List.mem_append.mp member with member | member
      · exact plain earlier other member
      · cases List.mem_singleton.mp member
        exact ⟨now, same⟩
  · intro once
    obtain ⟨earlier, now⟩ := Bool.or_eq_false_iff.mp once
    rw [opened.content_formed earlier frame]
    simp [hashed, now]

end Opened

theorem Exact.of_stored {later : Contents ds} {p : Path}
    (formed : Formed ds frames part chunkId) (room : m.put (bytes chunkId) (content part) = some later)
    (held : Represents ds after later) (clean : NoTemps ds before)
    (reads : ∀ q, (∀ id, ds.pathForChunk id ≠ .ok q) →
      after.files.read q = if q = p then none else before.files.read q) :
    Exact ds m frames (none, after) where
  stored other otherId other' also fits := by
    obtain ⟨same, sameId⟩ := formed.unique also
    subst same sameId
    cases room.symm.trans fits
    exact ⟨rfl, held⟩
  refused nothing := by
    cases (nothing part chunkId formed).symm.trans room
  clean other q path := by
    have loose : ∀ id, ds.pathForChunk id ≠ .ok q := by
      intro id chunk
      exact pathForChunk_ne_tempPath chunk path rfl
    show after.files.read q = none
    rw [reads q loose]
    by_cases here : q = p
    · rw [if_pos here]
    · rw [if_neg here]
      exact clean other q path

def ExactIffSealed (ds : DiskStore) (m : Contents ds) (ending : Ending) (before : Disk)
    (rest : List ReplicateChunkRequest) : Prop :=
  ∀ {taken : List ReplicateChunkRequest} {incoming : Incoming} {disk : Disk} {again : Bool} (k : Nat),
    Opened ds before disk taken incoming again → (content (taken ++ rest)).length < 2 ^ 63 →
    (Exact ds m (taken ++ rest) (ReplicateChunk.serve ds .quiet ending rest k (some incoming) disk) ↔
      Sealed ds m ending incoming.registeredChunkId again incoming.writer.hasher rest)

section

variable {ending : Ending} {rest : List ReplicateChunkRequest} {incoming : Incoming} {again : Bool}
  {frame : ReplicateChunkRequest}

theorem Opened.put_formed (opened : Opened ds before disk taken incoming again)
    (same : frame.chunkId = "" ∨ frame.chunkId = incoming.registeredChunkId) (last : frame.isLast = true)
    (formed : Formed ds (taken ++ frame :: rest) part chunkId) : (again || frame.isFirst) = false ∧
      m.put (bytes chunkId) (content part) =
        m.put (bytes incoming.registeredChunkId) (incoming.writer.hasher ++ frame.data) := by
  have once : again = false := by
    cases again with
    | false => rfl
    | true => exact absurd formed (opened.unformed_again (List.prefix_append _ _) part chunkId)
  subst once
  have later := (opened.next formed).2.1
  obtain ⟨samePart, sameId⟩ := (opened.formed later same last).unique formed
  rw [samePart, sameId, opened.content_formed rfl frame]
  exact ⟨by rw [later]; rfl, rfl⟩

theorem ExactIffSealed.resume (settled : ExactIffSealed ds m ending before rest)
    (opened : Opened ds before disk taken incoming again) (repr : Represents ds before m)
    (clean : NoTemps ds before) (short : (content (taken ++ frame :: rest)).length < 2 ^ 63)
    (own : frame.isFirst = true → frame.chunkId = incoming.registeredChunkId) {cw : ChunkWriter}
    (id : cw.chunkId = incoming.writer.chunkId) (temp : ds.tempPath cw.chunkId = .ok cw.filepath)
    (hashed : cw.hasher = if frame.isFirst then [] else incoming.writer.hasher) {outcome : Turn × Disk}
    (turn : Filled ds before m frame ⟨cw, incoming.registeredChunkId⟩ outcome) (k : Nat) :
    Exact ds m (taken ++ frame :: rest) (resume ds .quiet ending rest k outcome) ↔
      Sealed ds m ending incoming.registeredChunkId again incoming.writer.hasher (frame :: rest) := by
  have ownFrame : ¬(frame.isFirst = true ∧ frame.chunkId ≠ incoming.registeredChunkId) :=
    fun held => held.2 (own held.1)
  rw [Sealed, if_neg ownFrame]
  have sameName (same : frame.chunkId = "" ∨ frame.chunkId = incoming.registeredChunkId) :
      ¬(frame.chunkId ≠ "" ∧ frame.chunkId ≠ incoming.registeredChunkId) := by
    intro other
    rcases same with unnamed | named
    · exact other.1 unnamed
    · exact other.2 named
  cases turn with
  | other named differs err after gone =>
    rw [if_pos ⟨named, differs⟩, iff_true]
    refine .of_discarded gone temp repr clean ?_ err
    intro part chunkId formed
    obtain ⟨sameId, _, same⟩ := opened.next formed
    subst sameId
    exact absurd ⟨named, differs⟩ (sameName same)
  | acked same going later after writing id' path' hashed' =>
    have appended := opened.append going same writing (id'.trans id) (by rw [hashed', hashed])
    have whole : taken ++ frame :: rest = taken ++ [frame] ++ rest := by simp
    rw [whole] at short ⊢
    have settled := settled (k + 1) appended short
    rw [hashed', hashed] at settled
    simp only [if_neg (sameName same), going, Bool.false_eq_true, if_false]
    exact settled
  | full same last refused err after gone =>
    rw [if_neg (sameName same), if_pos last]
    have full : m.put (bytes incoming.registeredChunkId)
        ((if frame.isFirst then [] else incoming.writer.hasher) ++ frame.data) = none := by
      rw [← opened.id, ← id, ← hashed]
      exact refused
    refine ⟨fun _ => .inr full, fun _ => .of_discarded gone temp repr clean ?_ err⟩
    intro part chunkId formed
    obtain ⟨once, put⟩ := opened.put_formed (m := m) same last formed
    rw [(Bool.or_eq_false_iff.mp once).2] at full
    exact put.trans full
  | stored same last later room after held reads =>
    rw [if_neg (sameName same), if_pos last]
    have fits : m.put (bytes incoming.registeredChunkId)
        ((if frame.isFirst then [] else incoming.writer.hasher) ++ frame.data) = some later := by
      rw [← opened.id, ← id, ← hashed]
      exact room
    rw [fits]
    simp only [reduceCtorEq, or_false]
    constructor
    · intro exact
      cases repeated : (again || frame.isFirst) with
      | false => rfl
      | true =>
        refine absurd exact (not_exact_of_success rfl ?_)
        intro part chunkId formed
        cases (opened.put_formed (m := m) same last formed).1.symm.trans repeated
    · intro once
      obtain ⟨earlier, now⟩ := Bool.or_eq_false_iff.mp once
      subst earlier
      refine .of_stored (opened.formed now same last) ?_ held clean reads
      rw [opened.content_formed rfl frame, ← fits, now]
      rfl

theorem Opened.not_exact_of_other (opened : Opened ds before disk taken incoming again)
    (repr : Represents ds before m) (short : (content (taken ++ frame :: rest)).length < 2 ^ 63)
    (first : frame.isFirst = true) (other : frame.chunkId ≠ incoming.registeredChunkId) (k : Nat) :
    ¬Exact ds m (taken ++ frame :: rest)
      (resume ds .quiet ending rest k (ReplicateChunk.takeFrame ds .quiet k frame (some incoming) disk)) := by
  have present : disk.files.read incoming.writer.filepath ≠ none := by
    rw [opened.writing.read]
    simp
  rcases ds.validateChunkId_cases (bytes frame.chunkId) with valid | invalid
  · obtain ⟨cw, after, writing, id, hashed, ran⟩ := takeFrame_opens first valid .quiet k rfl (some incoming) disk
    have leftover : Leftover ds disk cw.filepath := by
      refine ⟨_, _, opened.writing.temp, ?_, present⟩
      intro same
      apply other
      apply bytes_injective
      rw [← id, ← opened.id]
      exact tempPath_injective writing.temp (same ▸ opened.writing.temp)
    have size : (content (taken ++ frame :: rest)).length =
        (content taken).length + (content (frame :: rest)).length := by
      simp [content]
    have writing : Writing ds disk after (Incoming.mk cw frame.chunkId).writer := writing
    have small : cw.hasher.length + (content (frame :: rest)).length < 2 ^ 64 := by
      rw [hashed, List.length_nil]
      omega
    have leaves := Leaves.resume (serve_leaves (m := m) ending rest) writing
      (opened.writing.represents repr) small leftover k
    rw [ran]
    rcases leaves with success | left
    · exact not_exact_of_success success (opened.unformed_first first)
    · exact fun exact => left exact.clean
  · obtain ⟨err, ran⟩ := takeFrame_invalid first invalid (some incoming) k disk
    rw [ran]
    exact fun exact => present (exact.clean _ _ opened.writing.temp)

end

theorem serve_exactIffSealed (ending : Ending) (repr : Represents ds before m) (clean : NoTemps ds before)
    (rest : List ReplicateChunkRequest) : ExactIffSealed ds m ending before rest := by
  induction rest with
  | nil =>
    intro taken incoming disk again k opened short
    rw [List.append_nil, Sealed]
    cases ending with
    | eof =>
      simp only [reduceCtorEq, iff_false]
      exact not_exact_of_success rfl opened.unformed_end
    | broken =>
      simp only [iff_true]
      exact .of_discarded opened.writing.abort opened.writing.temp repr clean
        (fun part id formed => absurd formed (opened.unformed_end part id)) _
  | cons frame rest ih =>
    intro taken incoming disk again k opened short
    rw [serve_cons ReplicateEnv.quiet_idle]
    have size : (content (taken ++ frame :: rest)).length =
        (content taken).length + (frame.data.length + (content rest).length) := by
      simp [content]
    have small := opened.small
    cases first : frame.isFirst with
    | false =>
      rw [takeFrame_later first]
      have turn := fill_filled opened.writing repr frame (by rw [List.length_append]; omega) k
      exact ih.resume opened repr clean short (by simp [first]) rfl opened.writing.temp (by simp [first]) turn k
    | true =>
      by_cases own : frame.chunkId = incoming.registeredChunkId
      · obtain ⟨cw, after, writing, id, hashed, ran⟩ :=
          takeFrame_opens first (own ▸ opened.valid) .quiet k rfl (some incoming) disk
        have sameId : cw.chunkId = incoming.writer.chunkId := by rw [id, own, opened.id]
        have reopened : Writing ds before after (Incoming.mk cw incoming.registeredChunkId).writer :=
          opened.writing.reopened writing sameId
        rw [ran, own]
        have turn := fill_filled reopened repr frame (by rw [hashed, List.nil_append]; omega) k
        exact ih.resume opened repr clean short (fun _ => own) sameId reopened.temp (by simp [first, hashed])
          turn k
      · rw [Sealed, if_pos ⟨first, own⟩, iff_false]
        exact opened.not_exact_of_other repr short first own k

theorem Formed.single {first : ReplicateChunkRequest} (rest : List ReplicateChunkRequest)
    (valid : ds.validateChunkId (bytes first.chunkId) = .ok ()) (marked : first.isFirst = true)
    (last : first.isLast = true) : Formed ds (first :: rest) [first] first.chunkId where
  reached := ⟨rest, rfl⟩
  valid := valid
  first := ⟨first, [], rfl, marked, rfl, by simp⟩
  last := ⟨[], first, rfl, last, by simp⟩

theorem Formed.head {first : ReplicateChunkRequest} {rest part : List ReplicateChunkRequest} {chunkId : String}
    (formed : Formed ds (first :: rest) part chunkId) : first.isFirst = true ∧ first.chunkId = chunkId := by
  obtain ⟨start, others, rfl, marked, id, _⟩ := formed.first
  obtain ⟨more, joined⟩ := formed.reached
  cases joined
  exact ⟨marked, id⟩

theorem Filled.exact_iff_orderly {first : ReplicateChunkRequest} {rest : List ReplicateChunkRequest}
    (repr : Represents ds disk m) (clean : NoTemps ds disk) (ending : Ending)
    (short : (content (first :: rest)).length < 2 ^ 63) (marked : first.isFirst = true)
    (valid : ds.validateChunkId (bytes first.chunkId) = .ok ()) {cw : ChunkWriter}
    (id : cw.chunkId = bytes first.chunkId) (hashed : cw.hasher = [])
    (temp : ds.tempPath cw.chunkId = .ok cw.filepath) {outcome : Turn × Disk}
    (turn : Filled ds disk m first ⟨cw, first.chunkId⟩ outcome) :
    Exact ds m (first :: rest) (resume ds .quiet ending rest 0 outcome) ↔ Orderly ds m ending (first :: rest) := by
  have put (last : first.isLast = true) (part : List ReplicateChunkRequest) (chunkId : String)
      (formed : Formed ds (first :: rest) part chunkId) :
      m.put (bytes chunkId) (content part) = m.put cw.chunkId (cw.hasher ++ first.data) := by
    obtain ⟨rfl, rfl⟩ := (Formed.single rest valid marked last).unique formed
    rw [id, hashed]
    simp [content]
  cases turn with
  | other named differs => exact absurd rfl differs
  | full _ last refused err final gone =>
    refine ⟨fun _ _ _ => .inl last, fun _ => .of_discarded gone temp repr clean ?_ err⟩
    intro part chunkId formed
    exact (put last part chunkId formed).trans refused
  | stored _ last later room final held reads =>
    refine ⟨fun _ _ _ => .inl last, fun _ => ?_⟩
    have formed := Formed.single rest valid marked last
    exact .of_stored formed ((put last _ _ formed).trans room) held clean reads
  | acked same going later final held laterId path taken =>
    have opened : Opened ds disk final [first] ⟨later, first.chunkId⟩ false := by
      refine ⟨held, laterId.trans id, ?_, ?_, ⟨first, [], rfl, marked, rfl, nofun, by simp⟩, ?_⟩
      · rw [taken, hashed]
        simp [content]
      · intro frame member
        cases List.mem_singleton.mp member
        exact going
      · intro _
        rw [taken, hashed]
        simp [content]
    have settled := serve_exactIffSealed ending repr clean rest 1 opened short
    rw [taken, hashed] at settled
    refine settled.trans ?_
    simp [Orderly, marked, valid, going]

/-- `ReplicateChunk` accepts exactly the well-formed streams if and only if the stream is
    orderly. -/
theorem replicateChunk_exact_iff_orderly (repr : Represents ds disk m) (clean : NoTemps ds disk)
    (frames : List ReplicateChunkRequest) (ending : Ending) (short : (content frames).length < 2 ^ 63) :
    Exact ds m frames (replicateChunk ds .quiet frames ending disk) ↔ Orderly ds m ending frames := by
  cases frames with
  | nil =>
    have unformed : ∀ part chunkId, ¬Formed ds [] part chunkId := by
      intro part chunkId formed
      obtain ⟨first, rest, rfl, _⟩ := formed.first
      cases List.prefix_nil.mp formed.reached
    refine ⟨fun _ => trivial, fun _ => ?_⟩
    cases ending with
    | eof => exact .of_unchanged repr clean unformed _
    | broken => exact .of_unchanged repr clean unformed _
  | cons first rest =>
    rw [replicateChunk, serve_cons ReplicateEnv.quiet_idle]
    cases marked : first.isFirst with
    | false =>
      have unformed : ∀ part chunkId, ¬Formed ds (first :: rest) part chunkId := by
        intro part chunkId formed
        cases marked.symm.trans formed.head.1
      simp only [ReplicateChunk.takeFrame, ReplicateChunk.openWriter, marked, Bool.false_eq_true, if_false]
      refine ⟨fun _ first => ?_, fun _ => .of_unchanged repr clean unformed _⟩
      cases marked.symm.trans first
    | true =>
      rcases ds.validateChunkId_cases (bytes first.chunkId) with valid | invalid
      · obtain ⟨cw, after, writing, id, hashed, ran⟩ := takeFrame_opens marked valid .quiet 0 rfl none disk
        have writing : Writing ds disk after (Incoming.mk cw first.chunkId).writer := writing
        have size := length_content_cons first rest
        have turn := fill_filled writing repr first (by rw [hashed, List.nil_append]; omega) 0
        rw [ran]
        exact turn.exact_iff_orderly repr clean ending short marked valid id hashed writing.temp
      · obtain ⟨err, ran⟩ := takeFrame_invalid marked invalid none 0 disk
        rw [ran]
        refine ⟨fun _ _ valid => ?_, fun _ => .of_unchanged repr clean ?_ err⟩
        · rw [invalid] at valid
          cases valid
        · intro part chunkId formed
          have valid := formed.valid
          rw [← formed.head.2, invalid] at valid
          cases valid

def openingFrame : ReplicateChunkRequest := ⟨"ab12cd", [1], true, false⟩

def closingFrame : ReplicateChunkRequest := ⟨"ab12cd", [2], true, true⟩

theorem emptyDisk_noTemps : NoTemps store emptyDisk := fun _ _ _ => rfl

def finalFrame : ReplicateChunkRequest := ⟨"", [2], false, true⟩

theorem replicateChunk_exact_iff_orderly_twoFrames :
    Exact store BoundedMap.empty [openingFrame, finalFrame]
        (replicateChunk store .quiet [openingFrame, finalFrame] .eof emptyDisk) ∧
      Exact store BoundedMap.empty [openingFrame]
        (replicateChunk store .quiet [openingFrame] .broken emptyDisk) := by
  have orderly : Orderly store BoundedMap.empty .eof [openingFrame, finalFrame] := by
    intro _ _
    simp [Sealed, openingFrame, finalFrame]
  have broken : Orderly store BoundedMap.empty .broken [openingFrame] := by
    intro _ _
    exact .inr rfl
  exact ⟨(replicateChunk_exact_iff_orderly (Represents.fresh store .empty) emptyDisk_noTemps _ _ (by decide)).mpr orderly,
    (replicateChunk_exact_iff_orderly (Represents.fresh store .empty) emptyDisk_noTemps _ _ (by decide)).mpr broken⟩

/-- A stream that is closed before its last frame is answered without an error and leaves its
    temporary file, and one that is opened twice is stored without what came before. -/
theorem replicateChunk_not_exact :
    (¬Exact store BoundedMap.empty [openingFrame]
        (replicateChunk store .quiet [openingFrame] .eof emptyDisk) ∧
      (store.tempPath chunk).toOption.bind
        (replicateChunk store .quiet [openingFrame] .eof emptyDisk).2.files.read = some [1]) ∧
    (¬Exact store BoundedMap.empty [openingFrame, closingFrame]
        (replicateChunk store .quiet [openingFrame, closingFrame] .eof emptyDisk) ∧
      (store.read none chunk
        (replicateChunk store .quiet [openingFrame, closingFrame] .eof emptyDisk).2).toOption = some [2]) := by
  refine ⟨⟨?_, by decide +kernel⟩, ?_, by decide +kernel⟩
  · apply not_exact_of_success (Option.isNone_iff_eq_none.mp (by decide +kernel))
    intro part chunkId formed
    obtain ⟨front, last, rfl, marked, _⟩ := formed.last
    have member : last ∈ [openingFrame] := formed.reached.subset (by simp)
    cases List.mem_singleton.mp member
    cases marked
  · apply not_exact_of_success (Option.isNone_iff_eq_none.mp (by decide +kernel))
    intro part chunkId formed
    obtain ⟨next, more, rfl⟩ := formed.longer (List.prefix_append [openingFrame] [closingFrame]) (by
      intro frame member
      cases List.mem_singleton.mp member
      rfl)
    obtain ⟨rest, joined⟩ := formed.reached
    have same : next = closingFrame ∧ more ++ rest = [] := by simpa using joined
    obtain ⟨first, others, split, _, _, plain⟩ := formed.first
    cases split
    cases same.1
    cases (plain closingFrame (by simp)).1

end DistributedFs.Storage
