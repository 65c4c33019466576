import SimFerret.Guest.Runtime

/-!
# SimFerret.Guest.Batch — bounded and fair output batches (`runtime.rs`)

A batch alternates between the two output pipes and offers each half of what is left of a budget of frames and
bytes. In `Runtime` the reads of both pipes are on one tape; here each pipe has its own answers, for ever.

* `pipedBatch`: `drain_batch` on two pipes; `pipedLoop_merges`: it is `drainBatch` on the answers in the order
  of the calls.
* `Framed`: the frames of a batch, with their offsets and sequence numbers.
* `drainBatch_bounded`: a batch ends, within its budget, and serves a readable standard error.
-/

namespace SimFerret.Guest

open Workload

variable {limits : RuntimeLimits}

/-! ## Two pipes -/

/-- An invocation, the events so far, and the answers of each pipe to the reads to come. -/
structure Piped where
  active : Invocation
  events : List Event
  tapes : OutputStream → List ReadAnswer

abbrev Batch (α : Type) := ExceptT IoError (StateM Piped) α

/-- `drain_stream` on the pipe of its stream. -/
def pipedStream (limits : RuntimeLimits) (stream : OutputStream) (maxFrames maxBytes : Nat) : Batch (Nat × Nat) :=
  fun p =>
    let (drained, s) := drainStream limits stream maxFrames maxBytes ⟨p.active,
      { reads := p.tapes stream }, p.events⟩
    (drained, ⟨s.active, s.events, Function.update p.tapes stream s.os.reads⟩)

/-- One stream's turn, as `drainTurn`. -/
def pipedTurn (limits : RuntimeLimits) (stream : OutputStream)
    (frames bytes : Nat) : Batch (Option (Nat × Nat)) := do
  let remainingFrames := maxServiceFrames - frames
  let remainingBytes := maxServiceBytes - bytes
  if remainingFrames = 0 ∨ remainingBytes = 0 then return none
  let (drained, size) ← pipedStream limits stream ((remainingFrames + 1) / 2) ((remainingBytes + 1) / 2)
  return some (frames + drained, bytes + size)

/-- The rounds, as `batchLoop`. -/
def pipedLoop (limits : RuntimeLimits) : Nat → Nat → Nat → Batch Unit
  | 0, _, _ => return ()
  | rounds + 1, frames, bytes => do
    let some (frames1, bytes1) ← pipedTurn limits .stdout frames bytes | return ()
    let some (frames2, bytes2) ← pipedTurn limits .stderr frames1 bytes1 | return ()
    if frames2 = frames then return ()
    pipedLoop limits rounds frames2 bytes2

/-- `drain_batch`. -/
def pipedBatch (limits : RuntimeLimits) : Batch Unit := pipedLoop limits (maxServiceFrames + 1) 0 0

/-! ## Frames -/

/-- A frame of a batch: its stream and its bytes. -/
abbrev Chunk := OutputStream × Bytes

def bytesOf (stream : OutputStream) (chunks : List Chunk) : Nat :=
  ((chunks.filter fun chunk => chunk.1 = stream).map fun chunk => chunk.2.length).sum

def totalBytes (chunks : List Chunk) : Nat := (chunks.map fun chunk => chunk.2.length).sum

/-- The events of frames, numbered on from a sequence number and from an offset for each stream. -/
def frameEvents (id sequence : Nat) (offsets : OutputStream → Nat) : List Chunk → List Event
  | [] => []
  | (stream, buffer) :: rest => .workloadOutput id stream (offsets stream) (sequence + 1) (encodeBytes buffer) ::
      frameEvents id (sequence + 1) (fun s => offsets s + if stream = s then buffer.length else 0) rest

/-- What a part of a batch emits, and the invocation behind it. -/
structure Framed (limits : RuntimeLimits) (chunks : List Chunk) (a a' : Invocation) (events events' : List Event) :
    Prop where
  events_eq : events' = events ++ frameEvents a.id a.sequence (fun s => (a.state s).offset) chunks
  sizes : ∀ chunk ∈ chunks, 1 ≤ chunk.2.length ∧ chunk.2.length ≤ limits.outputFrameBytes
  id : a'.id = a.id
  sequence : a'.sequence = a.sequence + chunks.length
  offset : ∀ stream, (a'.state stream).offset = (a.state stream).offset + bytesOf stream chunks

variable {id sequence : Nat} {offsets : OutputStream → Nat} {chunks more : List Chunk}

@[simp] theorem bytesOf_nil (stream : OutputStream) : bytesOf stream [] = 0 := rfl

theorem bytesOf_cons (stream : OutputStream) (chunk : Chunk) :
    bytesOf stream (chunk :: chunks) = (if chunk.1 = stream then chunk.2.length else 0) +
        bytesOf stream chunks := by
  unfold bytesOf
  rw [List.filter_cons]
  by_cases h : chunk.1 = stream
  · rw [if_pos (decide_eq_true h), if_pos h, List.map_cons, List.sum_cons]
  · rw [if_neg (by rw [decide_eq_true_eq]; exact h), if_neg h, Nat.zero_add]

theorem bytesOf_append (stream : OutputStream) :
    bytesOf stream (chunks ++ more) = bytesOf stream chunks + bytesOf stream more := by
  unfold bytesOf
  rw [List.filter_append, List.map_append, List.sum_append]

theorem totalBytes_append : totalBytes (chunks ++ more) = totalBytes chunks + totalBytes more := by
  unfold totalBytes
  rw [List.map_append, List.sum_append]

/-- Numbering goes on behind a part. -/
theorem frameEvents_append : frameEvents id sequence offsets (chunks ++ more) =
    frameEvents id sequence offsets chunks ++
      frameEvents id (sequence + chunks.length) (fun s => offsets s + bytesOf s chunks) more := by
  induction chunks generalizing sequence offsets with
  | nil => rfl
  | cons chunk chunks ih =>
    obtain ⟨stream, buffer⟩ := chunk
    rw [List.cons_append, frameEvents, frameEvents, ih, List.cons_append, List.length_cons]
    congr 3
    · omega
    · funext s
      rw [bytesOf_cons, Nat.add_assoc]

theorem length_frameEvents : (frameEvents id sequence offsets chunks).length = chunks.length := by
  induction chunks generalizing sequence offsets with
  | nil => rfl
  | cons chunk chunks ih => rw [frameEvents, List.length_cons, List.length_cons, ih]

/-- **Contiguous offsets and consecutive numbers**: the event of a frame says what came before it. -/
theorem frameEvents_getElem (before after : List Chunk) (stream : OutputStream) (buffer : Bytes) :
    (frameEvents id sequence offsets (before ++ (stream, buffer) :: after))[before.length]? =
      some (.workloadOutput id stream (offsets stream + bytesOf stream before) (sequence + before.length + 1)
        (encodeBytes buffer)) := by
  rw [frameEvents_append, List.getElem?_append_right (by rw [length_frameEvents]), length_frameEvents,
    Nat.sub_self]
  rfl

namespace Framed

variable {a a1 a' : Invocation} {events events1 events' : List Event}

theorem refl (a : Invocation) (events : List Event) : Framed limits [] a a events events :=
  ⟨(List.append_nil _).symm, fun _ h => absurd h List.not_mem_nil, rfl, rfl, fun _ => rfl⟩

theorem trans (h : Framed limits chunks a a1 events events1) (h' : Framed limits more a1 a' events1 events') :
    Framed limits (chunks ++ more) a a' events events' where
  events_eq := by
    rw [h'.events_eq, h.events_eq, frameEvents_append, List.append_assoc, h.id, h.sequence]
    simp only [h.offset]
  sizes chunk hmem := (List.mem_append.mp hmem).elim (h.sizes chunk) (h'.sizes chunk)
  id := h'.id.trans h.id
  sequence := by rw [h'.sequence, h.sequence, List.length_append, Nat.add_assoc]
  offset stream := by rw [h'.offset, h.offset, bytesOf_append, Nat.add_assoc]

/-- An end of file emits nothing. -/
theorem eof (a : Invocation) (events : List Event) (stream : OutputStream) :
    Framed limits [] a (a.setState stream { a.state stream with eof := true }) events events := by
  refine ⟨(List.append_nil _).symm, fun _ h => absurd h List.not_mem_nil, ?_, ?_, fun s => ?_⟩ <;> cases stream
  · rfl
  · rfl
  · rfl
  · rfl
  · cases s <;> rfl
  · cases s <;> rfl

/-- One frame. -/
theorem frame (a : Invocation) (events : List Event) (stream : OutputStream) {buffer : Bytes}
    (hpos : 1 ≤ buffer.length) (hle : buffer.length ≤ limits.outputFrameBytes) :
    Framed limits [(stream, buffer)] a (takeOutput a stream buffer) events (events ++
        [outputEvent a stream buffer]) := by
  refine ⟨rfl, fun chunk h => ?_, ?_, ?_, fun s => ?_⟩
  · rw [List.mem_singleton.mp h]
    exact ⟨hpos, hle⟩
  · cases stream <;> rfl
  · rfl
  · rw [bytesOf_cons, bytesOf_nil, Nat.add_zero]
    cases stream <;> cases s <;> rfl

end Framed

/-! ## The budget -/

/-- A part of a batch that began with a budget of so many frames and bytes stays within it. -/
structure Within (limits : RuntimeLimits) (chunks : List Chunk) (frames bytes : Nat) (a a' : Invocation)
    (events events' : List Event) : Prop where
  emits : Framed limits chunks a a' events events'
  frames_le : chunks.length ≤ frames
  bytes_le : totalBytes chunks ≤ bytes

theorem Within.trans {a a1 a' : Invocation} {events events1 events' : List Event} {frames bytes : Nat}
    (h : Within limits chunks frames bytes a a1 events events1)
    (h' : Within limits more (frames - chunks.length) (bytes - totalBytes chunks) a1 a' events1 events') :
    Within limits (chunks ++ more) frames bytes a a' events events' := by
  have hframes := h.frames_le
  have hbytes := h.bytes_le
  have hframes' := h'.frames_le
  have hbytes' := h'.bytes_le
  refine ⟨h.emits.trans h'.emits, ?_, ?_⟩
  · rw [List.length_append]
    omega
  · rw [totalBytes_append]
    omega

/-- The refusal of `drain_stream`. -/
def outputExceeded : IoError := ⟨.invalidData, "invocation output exceeds the configured bound"⟩

section Loop

variable {stream : OutputStream} {maxFrames maxBytes drained size : Nat} {a : Invocation} {events : List Event}

/-- The loop reads no further. -/
theorem drainLoop_spent (reads : List ReadAnswer)
    (h : ¬ (drained < maxFrames ∧ size < maxBytes ∧ min limits.outputFrameBytes (maxBytes - size) ≠ 0)) :
    drainLoop limits stream maxFrames maxBytes reads drained size a events =
        (.ok (drained, size), a, events, reads) := by
  unfold drainLoop
  rw [if_neg h]

/-- An empty pipe ends the loop. -/
theorem drainLoop_nil :
    drainLoop limits stream maxFrames maxBytes [] drained size a events =
        (.ok (drained, size), a, events, []) := by
  unfold drainLoop
  split <;> rfl

/-- **What one answer does**: it ends the loop without a frame, it was an interruption, or it is a frame. -/
theorem drainLoop_step (limits : RuntimeLimits) (stream : OutputStream) (a : Invocation) (events : List Event)
    (answer : ReadAnswer)
    (h : drained < maxFrames ∧ size < maxBytes ∧ min limits.outputFrameBytes (maxBytes - size) ≠ 0) :
    (∃ r a', (∀ reads, drainLoop limits stream maxFrames maxBytes (answer :: reads) drained size a events =
        (r, a', events, reads)) ∧ (a' = a ∨ a' = a.setState stream { a.state stream with eof := true }) ∧
      (∀ d z, r = .ok (d, z) → d = drained ∧ z = size) ∧
      (∀ e, r = .error e → answer = .failure e ∨ e = outputExceeded) ∧
      ∀ bytes, answer = .data bytes → bytes ≠ [] → r = .error outputExceeded) ∨
    (answer = .interrupted ∧ ∀ reads, drainLoop limits stream maxFrames maxBytes (answer :: reads) drained
      size a events = drainLoop limits stream maxFrames maxBytes reads drained size a events) ∨
    ∃ buffer : Bytes, 1 ≤ buffer.length ∧ buffer.length ≤ min limits.outputFrameBytes (maxBytes - size) ∧
      ∀ reads, drainLoop limits stream maxFrames maxBytes (answer :: reads) drained size a events =
        drainLoop limits stream maxFrames maxBytes reads (drained + 1) (size + buffer.length)
          (takeOutput a stream buffer) (events ++ [outputEvent a stream buffer]) := by
  have hok : ∀ d z, (Except.ok (drained, size) : IoResult (Nat × Nat)) = .ok (d, z) → d = drained ∧ z = size := by
    rintro d z ⟨⟩
    exact ⟨rfl, rfl⟩
  have hnotError : ∀ e, (Except.ok (drained, size) : IoResult (Nat × Nat)) = .error e →
      answer = .failure e ∨ e = outputExceeded := by
    rintro e ⟨⟩
  cases answer with
  | interrupted =>
    refine .inr (.inl ⟨rfl, fun reads => ?_⟩)
    rw [drainLoop]
    exact if_pos h
  | wouldBlock =>
    refine .inl ⟨.ok (drained, size), a, fun reads => ?_, .inl rfl, hok, hnotError, ?_⟩
    · rw [drainLoop]
      exact if_pos h
    · rintro bytes ⟨⟩
  | failure error =>
    refine .inl ⟨.error error, a, fun reads => ?_, .inl rfl, ?_, ?_, ?_⟩
    · rw [drainLoop]
      exact if_pos h
    · rintro d z ⟨⟩
    · rintro e ⟨⟩
      exact .inl rfl
    · rintro bytes ⟨⟩
  | endOfFile =>
    refine .inl ⟨.ok (drained, size), a.setState stream { a.state stream with eof := true }, fun reads => ?_,
      .inr rfl, hok, hnotError, ?_⟩
    · rw [drainLoop]
      exact if_pos h
    · rintro bytes ⟨⟩
  | data bytes =>
    by_cases hempty : bytes.take (min limits.outputFrameBytes (maxBytes - size)) = []
    · refine .inl ⟨.ok (drained, size), a.setState stream { a.state stream with eof := true }, fun reads => ?_,
        .inr rfl, hok, hnotError, ?_⟩
      · rw [drainLoop]
        exact (if_pos h).trans (if_pos hempty)
      · rintro bytes' ⟨⟩ hne
        exact absurd ((List.take_eq_nil_iff.mp hempty).resolve_left h.2.2) hne
    by_cases hbound : saturatingAdd (a.state stream).bytes
        (bytes.take (min limits.outputFrameBytes (maxBytes - size))).length > limits.outputBytes
    · refine .inl ⟨.error outputExceeded, a, fun reads => ?_, .inl rfl, ?_, ?_, fun _ _ _ => rfl⟩
      · rw [drainLoop]
        exact (if_pos h).trans ((if_neg hempty).trans (if_pos hbound))
      · rintro d z ⟨⟩
      · rintro e ⟨⟩
        exact .inr rfl
    · refine .inr (.inr ⟨bytes.take (min limits.outputFrameBytes (maxBytes - size)),
        List.length_pos_iff.mpr hempty, List.length_take_le _ _, fun reads => ?_⟩)
      rw [drainLoop]
      exact (if_pos h).trans ((if_neg hempty).trans (if_neg hbound))

/-- **The drain loop**: frames of its stream, at most as many as allowed, and their count. -/
theorem drainLoop_within : ∀ (reads : List ReadAnswer) {drained size : Nat} {a a' : Invocation}
    {events events' : List Event} {r : IoResult (Nat × Nat)} {left : List ReadAnswer},
    drained ≤ maxFrames → size ≤ maxBytes →
    drainLoop limits stream maxFrames maxBytes reads drained size a events = (r, a', events', left) →
    ∃ chunks, Within limits chunks (maxFrames - drained) (maxBytes - size) a a' events events' ∧
      (∀ chunk ∈ chunks, chunk.1 = stream) ∧
      ∀ d z, r = .ok (d, z) → d = drained + chunks.length ∧ z = size + totalBytes chunks := by
  intro reads
  have hdone : ∀ {drained size : Nat} {a a' : Invocation} {events : List Event} {r : IoResult (Nat × Nat)},
      Framed limits [] a a' events events → (∀ d z, r = .ok (d, z) → d = drained ∧ z = size) →
      ∃ chunks, Within limits chunks (maxFrames - drained) (maxBytes - size) a a' events events ∧
        (∀ chunk ∈ chunks, chunk.1 = stream) ∧
        ∀ d z, r = .ok (d, z) → d = drained + chunks.length ∧ z = size + totalBytes chunks := by
    intro drained size a a' events r hemits hr
    exact ⟨[], ⟨hemits, Nat.zero_le _, Nat.zero_le _⟩, fun _ h => absurd h List.not_mem_nil, hr⟩
  have hok : ∀ {drained size : Nat}, ∀ d z, (Except.ok (drained, size) : IoResult (Nat × Nat)) = .ok (d, z) →
      d = drained ∧ z = size := by
    rintro drained size d z ⟨⟩
    exact ⟨rfl, rfl⟩
  induction reads with
  | nil =>
    intro drained size a a' events events' r left hd hz h
    rw [drainLoop_nil] at h
    cases h
    exact hdone (Framed.refl _ _) hok
  | cons answer reads ih =>
    intro drained size a a' events events' r left hd hz h
    by_cases hmore : drained < maxFrames ∧ size < maxBytes ∧ min limits.outputFrameBytes (maxBytes - size) ≠ 0
    swap
    · rw [drainLoop_spent _ hmore] at h
      cases h
      exact hdone (Framed.refl _ _) hok
    rcases drainLoop_step limits stream a events answer hmore with
      ⟨_, _, hrun, heof, hr, -⟩ | ⟨-, hrun⟩ | ⟨buffer, hpos, hle, hrun⟩
    · rw [hrun] at h
      cases h
      rcases heof with rfl | rfl
      · exact hdone (Framed.refl _ _) hr
      · exact hdone (Framed.eof _ _ stream) hr
    · rw [hrun] at h
      exact ih hd hz h
    · rw [hrun] at h
      obtain ⟨chunks, hwithin, hstream, hr⟩ := ih (by omega) (by omega) h
      have htotal : totalBytes [(stream, buffer)] = buffer.length := by
        rw [totalBytes, List.map_singleton, List.sum_singleton]
      have hone : Within limits [(stream, buffer)] (maxFrames - drained) (maxBytes - size) a
          (takeOutput a stream buffer) events (events ++ [outputEvent a stream buffer]) :=
        ⟨Framed.frame a events stream hpos (by omega), by rw [List.length_singleton]; omega, by rw [htotal]; omega⟩
      refine ⟨[(stream, buffer)] ++ chunks, hone.trans ?_, ?_, fun d z heq => ?_⟩
      · rw [List.length_singleton, htotal, Nat.sub_sub, Nat.sub_sub]
        exact hwithin
      · intro chunk hmem
        rcases List.mem_append.mp hmem with hmem | hmem
        · rw [List.mem_singleton.mp hmem]
        · exact hstream chunk hmem
      · obtain ⟨hd', hz'⟩ := hr d z heq
        rw [List.length_append, List.length_singleton, totalBytes_append, htotal]
        omega

end Loop

section Stream

variable {stream : OutputStream} {maxFrames maxBytes : Nat} {p p' : Piped}

theorem drainStream_eof {s : Service} (h : (s.active.state stream).eof = true) :
    drainStream limits stream maxFrames maxBytes s = (.ok (0, 0), s) := if_pos h

theorem drainStream_closed {s : Service} (heof : (s.active.state stream).eof = false)
    (h : s.active.isOpen stream = false) : drainStream limits stream maxFrames maxBytes s =
      (.ok (0, 0), { s with active := s.active.setState stream { s.active.state stream with eof := true } }) := by
  unfold drainStream
  rw [if_neg (by rw [heof]; exact Bool.false_ne_true), if_pos (by rw [h]; rfl)]

theorem drainStream_open {s : Service} (heof : (s.active.state stream).eof = false)
    (h : s.active.isOpen stream = true) {r : IoResult (Nat × Nat)} {a' : Invocation} {events' : List Event}
    {left : List ReadAnswer} (hloop : drainLoop limits stream maxFrames maxBytes s.os.reads 0 0 s.active
    s.events = (r, a', events', left)) : drainStream limits stream maxFrames maxBytes s =
    (r, ⟨a', { s.os with reads := left }, events'⟩) := by
  unfold drainStream
  rw [if_neg (by rw [heof]; exact Bool.false_ne_true), if_neg (by rw [h]; exact Bool.false_ne_true), hloop]

theorem pipedStream_eof (h : (p.active.state stream).eof = true) :
    pipedStream limits stream maxFrames maxBytes p = (.ok (0, 0), p) := by
  unfold pipedStream
  rw [drainStream_eof h]
  dsimp only
  rw [Function.update_eq_self]

theorem pipedStream_closed (heof : (p.active.state stream).eof = false) (h : p.active.isOpen stream = false) :
    pipedStream limits stream maxFrames maxBytes p =
      (.ok (0, 0), { p with active := p.active.setState stream { p.active.state stream with eof := true } }) := by
  unfold pipedStream
  rw [drainStream_closed heof h]
  dsimp only
  rw [Function.update_eq_self]

theorem pipedStream_open (heof : (p.active.state stream).eof = false) (h : p.active.isOpen stream = true)
    {r : IoResult (Nat × Nat)} {a' : Invocation} {events' : List Event} {left : List ReadAnswer}
    (hloop : drainLoop limits stream maxFrames maxBytes (p.tapes stream) 0 0 p.active p.events =
      (r, a', events', left)) : pipedStream limits stream maxFrames maxBytes p =
      (r, ⟨a', events', Function.update p.tapes stream left⟩) := by
  unfold pipedStream
  rw [drainStream_open heof h hloop]

theorem pipedStream_within {r : IoResult (Nat × Nat)}
    (h : pipedStream limits stream maxFrames maxBytes p = (r, p')) :
    ∃ chunks, Within limits chunks maxFrames maxBytes p.active p'.active p.events p'.events ∧
      (∀ chunk ∈ chunks, chunk.1 = stream) ∧ ∀ d z, r = .ok (d, z) → d = chunks.length ∧
          z = totalBytes chunks := by
  have hnone : ∀ {a' : Invocation}, Framed limits [] p.active a' p.events p.events →
      ∃ chunks, Within limits chunks maxFrames maxBytes p.active a' p.events p.events ∧
        (∀ chunk ∈ chunks, chunk.1 = stream) ∧ ∀ d z, (Except.ok (0, 0) : IoResult (Nat × Nat)) = .ok (d, z) →
          d = chunks.length ∧ z = totalBytes chunks := by
    intro a' hemits
    refine ⟨[], ⟨hemits, Nat.zero_le _, Nat.zero_le _⟩, fun _ hmem => absurd hmem List.not_mem_nil, ?_⟩
    rintro d z ⟨⟩
    exact ⟨rfl, rfl⟩
  cases heof : (p.active.state stream).eof with
  | true =>
    rw [pipedStream_eof heof] at h
    cases h
    exact hnone (Framed.refl _ _)
  | false =>
    cases hopen : p.active.isOpen stream with
    | false =>
      rw [pipedStream_closed heof hopen] at h
      cases h
      exact hnone (Framed.eof _ _ stream)
    | true =>
      rw [pipedStream_open heof hopen rfl] at h
      cases h
      obtain ⟨chunks, hwithin, hstream, hr⟩ :=
        @drainLoop_within limits stream maxFrames maxBytes (p.tapes stream) 0 0
        p.active _ p.events _ _ _ (Nat.zero_le _) (Nat.zero_le _) rfl
      refine ⟨chunks, hwithin, hstream, fun d z heq => ?_⟩
      obtain ⟨hd, hz⟩ := hr d z heq
      exact ⟨hd.trans (Nat.zero_add _), hz.trans (Nat.zero_add _)⟩

end Stream

/-- A rounded-up half of a budget is within it. -/
theorem Within.of_half {a a' : Invocation} {events events' : List Event} {frames bytes : Nat}
    (h : Within limits chunks ((frames + 1) / 2) ((bytes + 1) / 2) a a' events events') :
    Within limits chunks frames bytes a a' events events' := by
  have hframes := h.frames_le
  have hbytes := h.bytes_le
  exact ⟨h.emits, by omega, by omega⟩

/-- One turn takes at most half of what is left. -/
theorem pipedTurn_within {stream : OutputStream} {frames bytes : Nat} {p p' : Piped}
    {r : IoResult (Option (Nat × Nat))} (h : pipedTurn limits stream frames bytes p = (r, p')) :
    ∃ chunks, Within limits chunks ((maxServiceFrames - frames + 1) / 2)
        ((maxServiceBytes - bytes + 1) / 2) p.active p'.active p.events p'.events ∧
        (∀ chunk ∈ chunks, chunk.1 = stream) ∧
      ∀ d z, r = .ok (some (d, z)) → d = frames + chunks.length ∧ z = bytes + totalBytes chunks := by
  unfold pipedTurn at h
  dsimp only at h
  split at h
  · cases h
    refine ⟨[], ⟨Framed.refl _ _, Nat.zero_le _, Nat.zero_le _⟩, fun _ hmem => absurd hmem List.not_mem_nil, ?_⟩
    intro d z hr
    cases hr
  next hleft =>
    rw [Attempt.bind_run] at h
    generalize hstream : pipedStream limits stream _ _ p = out at h
    obtain ⟨_ | ⟨d, z⟩, p1⟩ := out
    · cases h
      obtain ⟨chunks, hwithin, hchunks, -⟩ := pipedStream_within hstream
      exact ⟨chunks, hwithin, hchunks, fun d z hr => by cases hr⟩
    · cases h
      obtain ⟨chunks, hwithin, hchunks, hr⟩ := pipedStream_within hstream
      refine ⟨chunks, hwithin, hchunks, ?_⟩
      rintro d' z' ⟨⟩
      obtain ⟨rfl, rfl⟩ := hr d z rfl
      exact ⟨rfl, rfl⟩

/-- **The rounds** stay within the budget, by induction on them. -/
theorem pipedLoop_within : ∀ (rounds : Nat) {frames bytes : Nat} {p p' : Piped} {r : IoResult Unit},
    pipedLoop limits rounds frames bytes p = (r, p') →
    ∃ chunks, Within limits chunks (maxServiceFrames - frames)
      (maxServiceBytes - bytes) p.active p'.active p.events p'.events
  | 0, frames, bytes, p, p', r, h => by
    cases h
    exact ⟨[], Framed.refl _ _, Nat.zero_le _, Nat.zero_le _⟩
  | rounds + 1, frames, bytes, p, p', r, h => by
    unfold pipedLoop at h
    rw [Attempt.bind_run] at h
    generalize hfirst : pipedTurn limits .stdout frames bytes p = out at h
    obtain ⟨_ | _ | ⟨frames1, bytes1⟩, p1⟩ := out
    · cases h
      obtain ⟨chunks, hwithin, -, -⟩ := pipedTurn_within hfirst
      exact ⟨chunks, hwithin.of_half⟩
    · cases h
      obtain ⟨chunks, hwithin, -, -⟩ := pipedTurn_within hfirst
      exact ⟨chunks, hwithin.of_half⟩
    obtain ⟨chunks, hwithin, -, hr⟩ := pipedTurn_within hfirst
    obtain ⟨rfl, rfl⟩ := hr _ _ rfl
    have hwithin := hwithin.of_half
    dsimp only at h
    rw [Attempt.bind_run] at h
    generalize hsecond : pipedTurn limits .stderr (frames + chunks.length)
      (bytes + totalBytes chunks) p1 = out at h
    obtain ⟨result, p2⟩ := out
    obtain ⟨more, hmore, -, hr'⟩ := pipedTurn_within hsecond
    have hmore := hmore.of_half
    rw [← Nat.sub_sub, ← Nat.sub_sub] at hmore
    obtain _ | _ | ⟨frames2, bytes2⟩ := result
    · cases h
      exact ⟨chunks ++ more, hwithin.trans hmore⟩
    · cases h
      exact ⟨chunks ++ more, hwithin.trans hmore⟩
    obtain ⟨rfl, rfl⟩ := hr' _ _ rfl
    dsimp only at h
    split at h
    · cases h
      exact ⟨chunks ++ more, hwithin.trans hmore⟩
    · obtain ⟨rest, hrest⟩ := pipedLoop_within rounds h
      refine ⟨chunks ++ (more ++ rest), hwithin.trans (hmore.trans ?_)⟩
      rw [Nat.sub_sub, Nat.sub_sub, Nat.sub_sub, Nat.sub_sub, ← Nat.add_assoc, ← Nat.add_assoc]
      exact hrest

/-- A round that goes on has drained a frame, so rounds beyond the frame budget change nothing. -/
theorem pipedLoop_rounds : ∀ (rounds more : Nat) {frames bytes : Nat} (p : Piped),
    maxServiceFrames < rounds + frames → pipedLoop limits (rounds + more) frames bytes p =
    pipedLoop limits rounds frames bytes p
  | 0, 0, frames, bytes, p, _ => rfl
  | 0, more + 1, frames, bytes, p, h => by
    have hspent : pipedTurn limits .stdout frames bytes p = (.ok none, p) := by
      unfold pipedTurn
      dsimp only
      rw [if_pos (.inl (by omega))]
      rfl
    rw [Nat.zero_add]
    unfold pipedLoop
    rw [Attempt.bind_run, hspent]
  | rounds + 1, more, frames, bytes, p, h => by
    rw [Nat.add_right_comm]
    unfold pipedLoop
    rw [Attempt.bind_run, Attempt.bind_run]
    generalize hfirst : pipedTurn limits .stdout frames bytes p = out
    obtain ⟨_ | _ | ⟨frames1, bytes1⟩, p1⟩ := out
    · rfl
    · rfl
    obtain ⟨chunks, -, -, hr⟩ := pipedTurn_within hfirst
    obtain ⟨rfl, -⟩ := hr _ _ rfl
    dsimp only
    rw [Attempt.bind_run, Attempt.bind_run]
    generalize hsecond : pipedTurn limits .stderr (frames + chunks.length) bytes1 p1 = out
    obtain ⟨_ | _ | ⟨frames2, bytes2⟩, p2⟩ := out
    · rfl
    · rfl
    obtain ⟨others, -, -, hr'⟩ := pipedTurn_within hsecond
    obtain ⟨rfl, -⟩ := hr' _ _ rfl
    dsimp only
    split
    · rfl
    · exact pipedLoop_rounds rounds more p2 (by omega)

/-! ## The end of a batch -/

/-- The answers of a pipe from one position to another. -/
def slice (pipe : Nat → ReadAnswer) (start stop : Nat) : List ReadAnswer :=
    (List.range' start (stop - start)).map pipe

theorem slice_self (pipe : Nat → ReadAnswer) (start : Nat) : slice pipe start start = [] := by
  rw [slice, Nat.sub_self]
  rfl

theorem slice_cons (pipe : Nat → ReadAnswer) {start stop : Nat} (h : start < stop) :
    slice pipe start stop = pipe start :: slice pipe (start + 1) stop := by
  obtain ⟨length, hlength⟩ : ∃ length, stop - start = length + 1 := ⟨stop - start - 1, by omega⟩
  rw [slice, slice, hlength, List.range'_succ, List.map_cons, show stop - (start + 1) = length by omega]

theorem slice_append (pipe : Nat → ReadAnswer) {start middle stop : Nat} (h : start ≤ middle)
    (h' : middle ≤ stop) : slice pipe start middle ++ slice pipe middle stop = slice pipe start stop := by
  unfold slice
  rw [← List.map_append, show List.range' middle (stop - middle) = List.range' (start + (middle - start))
    (stop - middle) by rw [Nat.add_sub_cancel' h], List.range'_append_1,
    show middle - start + (stop - middle) = stop - start by omega]

/-- How far a batch got: the invocation, the events, and the answers it took from each pipe. -/
structure Progress where
  active : Invocation
  events : List Event
  taken : OutputStream → Nat

/-- The two pipes with the answers that were not taken, up to some position. -/
def Progress.piped (t : Progress) (pipes : OutputStream → Nat → ReadAnswer) (ends : OutputStream → Nat) : Piped :=
  ⟨t.active, t.events, fun s => slice (pipes s) (t.taken s) (ends s)⟩

/-- The computation ends with this result, and takes these answers and no others. -/
structure Runs {α : Type} (pipes : OutputStream → Nat → ReadAnswer) (x : Batch α) (t : Progress) (r : IoResult α)
    (t' : Progress) : Prop where
  taken_le : ∀ s, t.taken s ≤ t'.taken s
  run : ∀ ends : OutputStream → Nat, (∀ s, t'.taken s ≤ ends s) → x (t.piped pipes ends) = (r, t'.piped pipes ends)

section Termination

variable {α β : Type} {pipes : OutputStream → Nat → ReadAnswer} {x : Batch α} {f : α → Batch β}
  {t t1 t' : Progress}

theorem Runs.pure (a : α) (t : Progress) : Runs pipes (Pure.pure a : Batch α) t (.ok a) t :=
    ⟨fun _ => le_refl _, fun _ _ => rfl⟩

theorem Runs.bind {a : α} {r : IoResult β} (h : Runs pipes x t (.ok a) t1) (h' : Runs pipes (f a) t1 r t') :
    Runs pipes (x >>= f) t r t' := by
  refine ⟨fun s => (h.taken_le s).trans (h'.taken_le s), fun ends hends => ?_⟩
  rw [Attempt.bind_run, h.run ends fun s => (h'.taken_le s).trans (hends s)]
  exact h'.run ends hends

theorem Runs.bind_error {e : IoError} (h : Runs pipes x t (.error e) t1) :
    Runs pipes (x >>= f) t (.error e) t1 := by
  refine ⟨h.taken_le, fun ends hends => ?_⟩
  rw [Attempt.bind_run, h.run ends hends]

/-- A computation ends when its steps do. -/
theorem Runs.exists_bind (h : ∃ r t1, Runs pipes x t r t1)
    (h' : ∀ a t1, Runs pipes x t (.ok a) t1 → ∃ r t', Runs pipes (f a) t1 r t') : ∃ r t',
      Runs pipes (x >>= f) t r t' := by
  obtain ⟨r, t1, hx⟩ := h
  cases r with
  | error e => exact ⟨.error e, t1, hx.bind_error⟩
  | ok a =>
    obtain ⟨r, t', hf⟩ := h' a t1 hx
    exact ⟨r, t', hx.bind hf⟩

end Termination

/-- **The drain loop ends** on a pipe with finitely many interruptions: each read that goes on uses up a frame
or an interruption. -/
theorem drainLoop_ends {stream : OutputStream} {maxFrames maxBytes last : Nat} (pipe : Nat → ReadAnswer)
    (hlast : ∀ n, last ≤ n → pipe n ≠ .interrupted) :
    ∀ (left start drained size : Nat) (a : Invocation) (events : List Event),
    maxFrames - drained + (last - start) ≤ left →
    ∃ stop r a' events', start ≤ stop ∧ ∀ more,
      drainLoop limits stream maxFrames maxBytes (slice pipe start stop ++ more) drained size a events =
        (r, a', events', more) := by
  intro left
  induction left with
  | zero =>
    intro start drained size a events hleft
    refine ⟨start, .ok (drained, size), a, events, le_refl _, fun more => ?_⟩
    rw [slice_self, List.nil_append]
    exact drainLoop_spent more fun h => by omega
  | succ left ih =>
    intro start drained size a events hleft
    by_cases hmore : drained < maxFrames ∧ size < maxBytes ∧ min limits.outputFrameBytes (maxBytes - size) ≠ 0
    swap
    · refine ⟨start, .ok (drained, size), a, events, le_refl _, fun more => ?_⟩
      rw [slice_self, List.nil_append]
      exact drainLoop_spent more hmore
    have hfirst : ∀ {stop : Nat} {more : List ReadAnswer}, start + 1 ≤ stop →
        slice pipe start stop ++ more = pipe start :: (slice pipe (start + 1) stop ++ more) := by
      intro stop more hstop
      rw [slice_cons pipe hstop, List.cons_append]
    rcases drainLoop_step limits stream a events (pipe start) hmore with
      ⟨r, a', hrun, -⟩ | ⟨hanswer, hrun⟩ | ⟨buffer, -, -, hrun⟩
    · refine ⟨start + 1, r, a', events, by omega, fun more => ?_⟩
      rw [hfirst (le_refl _), slice_self, List.nil_append]
      exact hrun more
    · have hstart : start < last := by
        by_contra hle
        exact hlast start (by omega) hanswer
      obtain ⟨stop, r, a', events', hstop, hrest⟩ := ih (start + 1) drained size a events (by omega)
      refine ⟨stop, r, a', events', by omega, fun more => ?_⟩
      rw [hfirst hstop, hrun]
      exact hrest more
    · obtain ⟨stop, r, a', events', hstop, hrest⟩ := ih (start + 1) (drained + 1) (size + buffer.length)
        (takeOutput a stream buffer) (events ++ [outputEvent a stream buffer]) (by omega)
      refine ⟨stop, r, a', events', by omega, fun more => ?_⟩
      rw [hfirst hstop, hrun]
      exact hrest more

section Ends

variable {pipes : OutputStream → Nat → ReadAnswer}
  (hfinite : ∀ stream, ∃ last, ∀ n, last ≤ n → pipes stream n ≠ .interrupted)
include hfinite

theorem pipedStream_ends (stream : OutputStream) (maxFrames maxBytes : Nat) (t : Progress) :
    ∃ r t', Runs pipes (pipedStream limits stream maxFrames maxBytes) t r t' := by
  cases heof : (t.active.state stream).eof with
  | true => exact ⟨.ok (0, 0), t, fun _ => le_refl _, fun ends _ => pipedStream_eof heof⟩
  | false =>
    cases hopen : t.active.isOpen stream with
    | false =>
      exact ⟨.ok (0, 0), { t with active := t.active.setState stream { t.active.state stream with eof := true } },
        fun _ => le_refl _, fun ends _ => pipedStream_closed heof hopen⟩
    | true =>
      obtain ⟨last, hlast⟩ := hfinite stream
      obtain ⟨stop, r, a', events', hstop, hrun⟩ :=
        @drainLoop_ends limits stream maxFrames maxBytes last (pipes stream)
        hlast _ (t.taken stream) 0 0 t.active t.events (le_refl _)
      refine ⟨r, ⟨a', events', Function.update t.taken stream stop⟩, fun s => ?_, fun ends hends => ?_⟩
      · by_cases hs : s = stream
        · subst hs
          show t.taken s ≤ Function.update t.taken s stop s
          rw [Function.update_self]
          exact hstop
        · show t.taken s ≤ Function.update t.taken stream stop s
          rw [Function.update_of_ne hs]
      · have hend : stop ≤ ends stream := by
          have hle := hends stream
          rwa [show (⟨a', events', Function.update t.taken stream stop⟩ : Progress).taken stream = stop from
            Function.update_self ..] at hle
        have hloop := hrun (slice (pipes stream) stop (ends stream))
        rw [slice_append _ hstop hend] at hloop
        rw [pipedStream_open (p := t.piped pipes ends) heof hopen hloop]
        refine congrArg (fun tapes => (r, Piped.mk a' events' tapes)) (funext fun s => ?_)
        by_cases hs : s = stream
        · subst hs
          show Function.update (t.piped pipes ends).tapes s (slice (pipes s) stop (ends s)) s =
            slice (pipes s) (Function.update t.taken s stop s) (ends s)
          rw [Function.update_self, Function.update_self]
        · show (Function.update (t.piped pipes ends).tapes stream (slice (pipes stream) stop (ends stream)) :
            OutputStream → List ReadAnswer) s = slice (pipes s) (Function.update t.taken stream stop s) (ends s)
          rw [Function.update_of_ne hs, Function.update_of_ne hs]
          rfl

theorem pipedTurn_ends (stream : OutputStream) (frames bytes : Nat) (t : Progress) :
    ∃ r t', Runs pipes (pipedTurn limits stream frames bytes) t r t' := by
  unfold pipedTurn
  dsimp only
  split
  · exact ⟨_, t, Runs.pure none t⟩
  · exact Runs.exists_bind (pipedStream_ends hfinite stream _ _ t) fun a t1 _ => ⟨_, t1, Runs.pure _ t1⟩

/-- **A batch ends**, by induction on its rounds. -/
theorem pipedLoop_ends : ∀ (rounds frames bytes : Nat) (t : Progress),
    ∃ r t', Runs pipes (pipedLoop limits rounds frames bytes) t r t'
  | 0, frames, bytes, t => ⟨_, t, Runs.pure () t⟩
  | rounds + 1, frames, bytes, t => by
    unfold pipedLoop
    refine Runs.exists_bind (pipedTurn_ends hfinite .stdout frames bytes t) fun first t1 _ => ?_
    obtain _ | ⟨frames1, bytes1⟩ := first
    · exact ⟨_, t1, Runs.pure () t1⟩
    refine Runs.exists_bind (pipedTurn_ends hfinite .stderr frames1 bytes1 t1) fun second t2 _ => ?_
    obtain _ | ⟨frames2, bytes2⟩ := second
    · exact ⟨_, t2, Runs.pure () t2⟩
    dsimp only
    split
    · exact ⟨_, t2, Runs.pure () t2⟩
    · exact pipedLoop_ends rounds frames2 bytes2 t2

end Ends

/-! ## One tape -/

/-- On a tape with the answers in the order of the calls, `y` does what `x` does on the two pipes. -/
def Merges {α : Type} (x : Batch α) (y : Serve α) (p : Piped) : Prop :=
  ∃ tape, ∀ (os : Os) (more : List ReadAnswer), y ⟨p.active, { os with reads := tape ++ more }, p.events⟩ =
    ((x p).1, ⟨(x p).2.active, { os with reads := more }, (x p).2.events⟩)

section Merged

variable {α β : Type} {x : Batch α} {y : Serve α} {f : α → Batch β} {g : α → Serve β} {p : Piped}

theorem Merges.pure (a : α) (p : Piped) : Merges (Pure.pure a) (Pure.pure a) p := ⟨[], fun _ _ => rfl⟩

theorem Merges.bind (h : Merges x y p) (h' : ∀ a, (x p).1 = .ok a → Merges (f a) (g a) (x p).2) :
    Merges (x >>= f) (y >>= g) p := by
  obtain ⟨tape, htape⟩ := h
  unfold Merges
  rw [Attempt.bind_run]
  rcases hx : x p with ⟨_ | a, p1⟩
  · refine ⟨tape, fun os more => ?_⟩
    rw [Attempt.bind_run, htape, hx]
  · rw [hx] at h'
    obtain ⟨rest, hrest⟩ := h' a rfl
    refine ⟨tape ++ rest, fun os more => ?_⟩
    rw [Attempt.bind_run, List.append_assoc, htape, hx]
    exact hrest os more

end Merged

section Loop

variable {stream : OutputStream} {maxFrames maxBytes : Nat}

/-- What the loop read, with the refusal that an empty pipe gives. -/
theorem drainLoop_used : ∀ (reads : List ReadAnswer) {drained size : Nat} {a a' : Invocation}
    {events events' : List Event} {r : IoResult (Nat × Nat)} {left : List ReadAnswer},
    drainLoop limits stream maxFrames maxBytes reads drained size a events = (r, a', events', left) →
    ∃ used, ∀ more, drainLoop limits stream maxFrames maxBytes (used ++ more) drained size a events =
      (r, a', events', more) := by
  intro reads
  induction reads with
  | nil =>
    intro drained size a a' events events' r left h
    rw [drainLoop_nil] at h
    cases h
    by_cases hmore : drained < maxFrames ∧ size < maxBytes ∧ min limits.outputFrameBytes (maxBytes - size) ≠ 0
    · refine ⟨[.wouldBlock], fun more => ?_⟩
      rw [List.singleton_append, drainLoop]
      exact if_pos hmore
    · exact ⟨[], fun more => drainLoop_spent more hmore⟩
  | cons answer reads ih =>
    intro drained size a a' events events' r left h
    by_cases hmore : drained < maxFrames ∧ size < maxBytes ∧ min limits.outputFrameBytes (maxBytes - size) ≠ 0
    swap
    · rw [drainLoop_spent _ hmore] at h
      cases h
      exact ⟨[], fun more => drainLoop_spent more hmore⟩
    rcases drainLoop_step limits stream a events answer hmore with
      ⟨_, _, hrun, -⟩ | ⟨-, hrun⟩ | ⟨buffer, -, -, hrun⟩
    · rw [hrun] at h
      cases h
      exact ⟨[answer], hrun⟩
    · rw [hrun] at h
      obtain ⟨used, hused⟩ := ih h
      exact ⟨answer :: used, fun more => (hrun _).trans (hused more)⟩
    · rw [hrun] at h
      obtain ⟨used, hused⟩ := ih h
      exact ⟨answer :: used, fun more => (hrun _).trans (hused more)⟩

theorem pipedStream_merges (p : Piped) :
    Merges (pipedStream limits stream maxFrames maxBytes) (drainStream limits stream maxFrames maxBytes) p := by
  unfold Merges
  by_cases heof : (p.active.state stream).eof = true
  · rw [pipedStream_eof heof]
    exact ⟨[], fun os more => drainStream_eof heof⟩
  rw [Bool.not_eq_true] at heof
  by_cases hopen : p.active.isOpen stream = true
  · rcases hloop : drainLoop limits stream maxFrames maxBytes (p.tapes stream) 0 0 p.active p.events with
      ⟨r, a', events', left⟩
    rw [pipedStream_open heof hopen hloop]
    obtain ⟨used, hused⟩ := drainLoop_used _ hloop
    exact ⟨used, fun os more => drainStream_open heof hopen (hused more)⟩
  · rw [Bool.not_eq_true] at hopen
    rw [pipedStream_closed heof hopen]
    exact ⟨[], fun os more => drainStream_closed heof hopen⟩

end Loop

theorem pipedTurn_merges (stream : OutputStream) (frames bytes : Nat) (p : Piped) :
    Merges (pipedTurn limits stream frames bytes) (drainTurn limits stream frames bytes) p := by
  unfold pipedTurn drainTurn
  dsimp only
  split
  · exact Merges.pure none p
  · exact (pipedStream_merges p).bind fun a _ => Merges.pure _ _

/-- **The model with one tape**: `drainBatch` on the answers in the order of the calls. -/
theorem pipedLoop_merges : ∀ (rounds frames bytes : Nat) (p : Piped),
    Merges (pipedLoop limits rounds frames bytes) (batchLoop limits rounds frames bytes) p
  | 0, frames, bytes, p => Merges.pure () p
  | rounds + 1, frames, bytes, p => by
    unfold pipedLoop batchLoop
    refine (pipedTurn_merges .stdout frames bytes p).bind fun first _ => ?_
    obtain _ | ⟨frames1, bytes1⟩ := first
    · exact Merges.pure () _
    refine (pipedTurn_merges .stderr frames1 bytes1 _).bind fun second _ => ?_
    obtain _ | ⟨frames2, bytes2⟩ := second
    · exact Merges.pure () _
    dsimp only
    split
    · exact Merges.pure () _
    · exact pipedLoop_merges rounds frames2 bytes2 _

/-! ## Fairness -/

section Fair

variable {stream : OutputStream} {maxFrames maxBytes : Nat}

/-- A batch fails because a read failed or the output bound was exceeded. -/
theorem drainLoop_error : ∀ (reads : List ReadAnswer) {drained size : Nat} {a a' : Invocation}
    {events events' : List Event} {e : IoError} {left : List ReadAnswer},
    drainLoop limits stream maxFrames maxBytes reads drained size a events = (.error e, a', events', left) →
    ReadAnswer.failure e ∈ reads ∨ e = outputExceeded := by
  intro reads
  induction reads with
  | nil =>
    intro drained size a a' events events' e left h
    rw [drainLoop_nil] at h
    cases h
  | cons answer reads ih =>
    intro drained size a a' events events' e left h
    by_cases hmore : drained < maxFrames ∧ size < maxBytes ∧ min limits.outputFrameBytes (maxBytes - size) ≠ 0
    swap
    · rw [drainLoop_spent _ hmore] at h
      cases h
    rcases drainLoop_step limits stream a events answer hmore with
      ⟨_, _, hrun, -, -, he, -⟩ | ⟨-, hrun⟩ | ⟨buffer, -, -, hrun⟩
    · rw [hrun] at h
      cases h
      rcases he e rfl with hfailure | hbound
      · rw [hfailure]
        exact .inl List.mem_cons_self
      · exact .inr hbound
    · rw [hrun] at h
      exact (ih h).imp (List.mem_cons_of_mem _) fun h => h
    · rw [hrun] at h
      exact (ih h).imp (List.mem_cons_of_mem _) fun h => h

/-- The loop leaves the other stream and the descriptors alone. -/
theorem drainLoop_aside : ∀ (reads : List ReadAnswer) {drained size : Nat} {a a' : Invocation}
    {events events' : List Event} {r : IoResult (Nat × Nat)} {left : List ReadAnswer},
    drainLoop limits .stdout maxFrames maxBytes reads drained size a events = (r, a', events', left) →
    a'.state .stderr = a.state .stderr ∧ a'.isOpen .stderr = a.isOpen .stderr := by
  intro reads
  induction reads with
  | nil =>
    intro drained size a a' events events' r left h
    rw [drainLoop_nil] at h
    cases h
    exact ⟨rfl, rfl⟩
  | cons answer reads ih =>
    intro drained size a a' events events' r left h
    by_cases hmore : drained < maxFrames ∧ size < maxBytes ∧ min limits.outputFrameBytes (maxBytes - size) ≠ 0
    swap
    · rw [drainLoop_spent _ hmore] at h
      cases h
      exact ⟨rfl, rfl⟩
    rcases drainLoop_step limits .stdout a events answer hmore with
      ⟨_, _, hrun, heof, -⟩ | ⟨-, hrun⟩ | ⟨buffer, -, -, hrun⟩
    · rw [hrun] at h
      cases h
      rcases heof with rfl | rfl <;> exact ⟨rfl, rfl⟩
    · rw [hrun] at h
      exact ih h
    · rw [hrun] at h
      obtain ⟨hstate, hopen⟩ := ih h
      exact ⟨hstate, hopen⟩

/-- Behind interruptions the first data are a frame, or the bound is exceeded. -/
theorem drainLoop_data {bytes : Bytes} (hbytes : bytes ≠ []) (rest : List ReadAnswer)
    (hmore : 0 < maxFrames ∧ 0 < maxBytes ∧ limits.outputFrameBytes ≠ 0) : ∀ (interruptions : Nat)
    {a a' : Invocation} {events events' : List Event} {d z : Nat} {left : List ReadAnswer},
    drainLoop limits stream maxFrames maxBytes (List.replicate interruptions .interrupted ++
      .data bytes :: rest) 0 0 a events = (.ok (d, z), a', events', left) → 1 ≤ d := by
  have hread : 0 < maxFrames ∧ 0 < maxBytes ∧ min limits.outputFrameBytes (maxBytes - 0) ≠ 0 :=
    ⟨hmore.1, hmore.2.1, by omega⟩
  intro interruptions
  induction interruptions with
  | zero =>
    intro a a' events events' d z left h
    rcases drainLoop_step limits stream a events (.data bytes) hread with
      ⟨r, _, hrun, -, -, -, herror⟩ | ⟨hanswer, -⟩ | ⟨buffer, -, hle, hrun⟩
    · rw [List.replicate_zero, List.nil_append, hrun, herror bytes rfl hbytes] at h
      cases h
    · cases hanswer
    · rw [List.replicate_zero, List.nil_append, hrun] at h
      obtain ⟨chunks, -, -, hr⟩ := drainLoop_within _ (by omega) (by omega) h
      have hd := (hr d z rfl).1
      omega
  | succ interruptions ih =>
    intro a a' events events' d z left h
    rw [List.replicate_succ, List.cons_append, drainLoop] at h
    exact ih ((if_pos hread).symm.trans h)

end Fair

/-- Standard error is open and holds data: the first read of it that is not interrupted returns some. -/
structure Readable (a : Invocation) (tape : List ReadAnswer) : Prop where
  live : (a.state .stderr).eof = false
  opened : a.isOpen .stderr = true
  data : ∃ interruptions bytes rest, bytes ≠ [] ∧
    tape = List.replicate interruptions .interrupted ++ .data bytes :: rest

/-- The turn of standard output keeps what standard error holds. -/
theorem pipedTurn_aside {frames bytes : Nat} {p p' : Piped} {r : IoResult (Option (Nat × Nat))}
    (h : pipedTurn limits .stdout frames bytes p = (r, p')) : p'.tapes .stderr = p.tapes .stderr ∧
      p'.active.state .stderr = p.active.state .stderr ∧ p'.active.isOpen .stderr = p.active.isOpen .stderr := by
  have hstream : ∀ {maxFrames maxBytes : Nat} {r : IoResult (Nat × Nat)} {p1 : Piped},
      pipedStream limits .stdout maxFrames maxBytes p = (r, p1) → p1.tapes .stderr = p.tapes .stderr ∧
        p1.active.state .stderr = p.active.state .stderr ∧ p1.active.isOpen .stderr = p.active.isOpen .stderr := by
    intro maxFrames maxBytes r p1 h
    by_cases heof : (p.active.state .stdout).eof = true
    · rw [pipedStream_eof heof] at h
      cases h
      exact ⟨rfl, rfl, rfl⟩
    rw [Bool.not_eq_true] at heof
    by_cases hopen : p.active.isOpen .stdout = true
    · rcases hloop : drainLoop limits .stdout maxFrames maxBytes (p.tapes .stdout) 0 0 p.active p.events with
        ⟨result, a', events', left⟩
      rw [pipedStream_open heof hopen hloop] at h
      cases h
      exact ⟨rfl, drainLoop_aside _ hloop⟩
    · rw [Bool.not_eq_true] at hopen
      rw [pipedStream_closed heof hopen] at h
      cases h
      exact ⟨rfl, rfl, rfl⟩
  unfold pipedTurn at h
  dsimp only at h
  split at h
  · cases h
    exact ⟨rfl, rfl, rfl⟩
  · rw [Attempt.bind_run] at h
    generalize hout : pipedStream limits .stdout _ _ p = out at h
    obtain ⟨_ | ⟨d, z⟩, p1⟩ := out
    · cases h
      exact hstream hout
    · cases h
      exact hstream hout

/-- Without a failed read, a turn fails for the output bound. -/
theorem pipedTurn_error {stream : OutputStream} {frames bytes : Nat} {p p' : Piped} {e : IoError}
    (h : pipedTurn limits stream frames bytes p = (.error e, p'))
    (hreads : ∀ e, ReadAnswer.failure e ∉ p.tapes stream) : e = outputExceeded := by
  unfold pipedTurn at h
  dsimp only at h
  split at h
  · cases h
  · rw [Attempt.bind_run] at h
    generalize hout : pipedStream limits stream _ _ p = out at h
    obtain ⟨_ | ⟨d, z⟩, p1⟩ := out
    · cases h
      by_cases heof : (p.active.state stream).eof = true
      · rw [pipedStream_eof heof] at hout
        cases hout
      rw [Bool.not_eq_true] at heof
      by_cases hopen : p.active.isOpen stream = true
      · rcases hloop : drainLoop limits stream _ _ (p.tapes stream) 0 0 p.active p.events
          with ⟨result, a', events', left⟩
        rw [pipedStream_open heof hopen hloop] at hout
        cases hout
        exact (drainLoop_error _ hloop).resolve_left (hreads e)
      · rw [Bool.not_eq_true] at hopen
        rw [pipedStream_closed heof hopen] at hout
        cases hout
    · cases h

/-- With budget left, the turn of a readable standard error drains a frame. -/
theorem pipedTurn_readable {frames bytes d z : Nat} {p p' : Piped} (hlimit : limits.outputFrameBytes ≠ 0)
    (hframes : frames < maxServiceFrames) (hbytes : bytes < maxServiceBytes)
    (hreadable : Readable p.active (p.tapes .stderr))
    (h : pipedTurn limits .stderr frames bytes p = (.ok (some (d, z)), p')) : frames < d := by
  unfold pipedTurn at h
  dsimp only at h
  rw [if_neg (by omega), Attempt.bind_run] at h
  obtain ⟨interruptions, data, rest, hdata, htape⟩ := hreadable.data
  rcases hloop : drainLoop limits .stderr ((maxServiceFrames - frames + 1) / 2) ((maxServiceBytes - bytes + 1) / 2)
    (p.tapes .stderr) 0 0 p.active p.events with ⟨_ | ⟨d', z'⟩, a', events', left⟩
  · rw [pipedStream_open hreadable.live hreadable.opened hloop] at h
    cases h
  · rw [pipedStream_open hreadable.live hreadable.opened hloop] at h
    cases h
    rw [htape] at hloop
    have hpos := drainLoop_data hdata rest ⟨by omega, by omega, hlimit⟩ interruptions hloop
    omega

/-- **A readable standard error is served** in the first round, unless the output bound was exceeded. -/
theorem pipedLoop_fair (rounds : Nat) {p p' : Piped} {r : IoResult Unit} (hlimit : limits.outputFrameBytes ≠ 0)
    (hreadable : Readable p.active (p.tapes .stderr)) (hreads : ∀ stream e, ReadAnswer.failure e ∉ p.tapes stream)
    (h : pipedLoop limits (rounds + 1) 0 0 p = (r, p')) : r = .error outputExceeded ∨
      ∃ chunks buffer, (OutputStream.stderr, buffer) ∈ chunks ∧
        Within limits chunks maxServiceFrames maxServiceBytes p.active p'.active p.events p'.events := by
  unfold pipedLoop at h
  rw [Attempt.bind_run] at h
  generalize hfirst : pipedTurn limits .stdout 0 0 p = out at h
  obtain ⟨e | first, p1⟩ := out
  · cases h
    exact .inl (congrArg _ (pipedTurn_error hfirst (hreads .stdout)))
  obtain ⟨htape, hstate, hopen⟩ := pipedTurn_aside hfirst
  obtain ⟨chunks, hwithin, -, hr⟩ := pipedTurn_within hfirst
  obtain _ | ⟨frames1, bytes1⟩ := first
  · -- the whole budget is left
    unfold pipedTurn at hfirst
    dsimp only at hfirst
    rw [if_neg (by decide), Attempt.bind_run] at hfirst
    generalize pipedStream limits .stdout _ _ p = out at hfirst
    obtain ⟨_ | ⟨d, z⟩, p2⟩ := out <;> cases hfirst
  obtain ⟨rfl, rfl⟩ := hr _ _ rfl
  have hframes := hwithin.frames_le
  have hbytes := hwithin.bytes_le
  have hbudget : maxServiceFrames = 64 ∧ maxServiceBytes = 65536 := ⟨rfl, rfl⟩
  have hwithin := hwithin.of_half
  have hreadable1 : Readable p1.active (p1.tapes .stderr) := by
    rw [htape]
    exact ⟨hstate ▸ hreadable.live, hopen ▸ hreadable.opened, hreadable.data⟩
  dsimp only at h
  rw [Attempt.bind_run] at h
  generalize hsecond : pipedTurn limits .stderr (0 + chunks.length) (0 + totalBytes chunks) p1 = out at h
  obtain ⟨e | second, p2⟩ := out
  · cases h
    exact .inl (congrArg _ (pipedTurn_error hsecond (htape ▸ hreads .stderr)))
  obtain ⟨more, hmore, hstream, hr'⟩ := pipedTurn_within hsecond
  have hmore := hmore.of_half
  rw [← Nat.sub_sub, ← Nat.sub_sub] at hmore
  obtain _ | ⟨frames2, bytes2⟩ := second
  · -- at least half of the budget is left
    unfold pipedTurn at hsecond
    dsimp only at hsecond
    rw [if_neg (by omega), Attempt.bind_run] at hsecond
    generalize pipedStream limits .stderr _ _ p1 = out at hsecond
    obtain ⟨_ | ⟨d, z⟩, p3⟩ := out <;> cases hsecond
  have hserved := pipedTurn_readable hlimit (by omega) (by omega) hreadable1 hsecond
  obtain ⟨rfl, rfl⟩ := hr' _ _ rfl
  obtain ⟨⟨stream, buffer⟩, hbuffer⟩ := List.exists_mem_of_length_pos (show 0 < more.length by omega)
  obtain rfl : stream = .stderr := hstream _ hbuffer
  dsimp only at h
  rw [if_neg (by omega)] at h
  obtain ⟨rest, hrest⟩ := pipedLoop_within rounds h
  refine .inr ⟨chunks ++ (more ++ rest), buffer, List.mem_append_right _ (List.mem_append_left _ hbuffer), ?_⟩
  refine hwithin.trans (hmore.trans ?_)
  rw [Nat.sub_sub, Nat.sub_sub, Nat.sub_sub, Nat.sub_sub]
  rw [Nat.zero_add, Nat.zero_add] at hrest ⊢
  exact hrest

/-- When the batch starts, standard error is open and its pipe holds data. -/
structure Ready (a : Invocation) (pipe : Nat → ReadAnswer) : Prop where
  live : (a.state .stderr).eof = false
  opened : a.isOpen .stderr = true
  data : ∃ first bytes, bytes ≠ [] ∧ (∀ n < first, pipe n = .interrupted) ∧ pipe first = .data bytes

theorem slice_interrupted (pipe : Nat → ReadAnswer) : ∀ {first start : Nat},
    (∀ n < start + first, start ≤ n → pipe n = .interrupted) →
    slice pipe start (start + first) = List.replicate first .interrupted
  | 0, start, _ => slice_self pipe start
  | first + 1, start, h => by
    have hrest := @slice_interrupted pipe first (start + 1) fun n hn hle => h n (by omega) (by omega)
    rw [slice_cons pipe (by omega), h start (by omega) (le_refl _), List.replicate_succ,
      show start + (first + 1) = start + 1 + first by omega, hrest]

theorem Ready.readable {a : Invocation} {pipe : Nat → ReadAnswer} (h : Ready a pipe) :
    ∃ enough, ∀ stop, enough ≤ stop → Readable a (slice pipe 0 stop) := by
  obtain ⟨first, bytes, hbytes, hinterrupted, hdata⟩ := h.data
  refine ⟨first + 1, fun stop hstop => ⟨h.live, h.opened, first, bytes, slice pipe (first + 1) stop, hbytes, ?_⟩⟩
  have hbefore := @slice_interrupted pipe first 0 fun n hn _ => hinterrupted n (by omega)
  rw [Nat.zero_add] at hbefore
  rw [← slice_append pipe (Nat.zero_le first) (by omega), hbefore, slice_cons pipe (by omega), hdata]

theorem outputFrameBytes_pos (h : validateLimits limits = .ok ()) : limits.outputFrameBytes ≠ 0 := by
  obtain ⟨_, hframes, -⟩ := bind_eq_ok.mp h
  rw [require_eq_ok, Bool.and_eq_true, Bool.and_eq_true, bne_iff_ne] at hframes
  exact hframes.1.2

/-- **Bounded and fair batches**: on pipes with finitely many interruptions a batch ends, after as many answers
as it takes; it emits at most the budget of frames and bytes, numbered on from the state it found, and serves a
standard error that holds data, unless a stream exceeds its output bound. -/
theorem drainBatch_bounded (hlimits : validateLimits limits = .ok ()) (a : Invocation) (events : List Event)
    (pipes : OutputStream → Nat → ReadAnswer)
    (hfinite : ∀ stream, ∃ last, ∀ n, last ≤ n → pipes stream n ≠ .interrupted) :
    ∃ r t chunks,
      Runs pipes (pipedBatch limits) ⟨a, events, fun _ => 0⟩ r t ∧
      (∀ more p, pipedLoop limits (maxServiceFrames + 1 + more) 0 0 p = pipedBatch limits p) ∧
      (∃ tape, ∀ (os : Os) (more : List ReadAnswer),
        drainBatch limits ⟨a, { os with reads := tape ++ more }, events⟩ =
        (r, ⟨t.active, { os with reads := more }, t.events⟩)) ∧
      Within limits chunks maxServiceFrames maxServiceBytes a t.active events t.events ∧
      (∀ before stream buffer after, chunks = before ++ (stream, buffer) :: after →
        t.events[events.length + before.length]? = some (.workloadOutput a.id stream
          ((a.state stream).offset + bytesOf stream before) (a.sequence + before.length + 1)
          (encodeBytes buffer))) ∧ (Ready a (pipes .stderr) → (∀ stream n e, pipes stream n ≠ .failure e) →
        (∃ buffer, (OutputStream.stderr, buffer) ∈ chunks) ∨ r = .error outputExceeded) := by
  obtain ⟨r, t, hruns⟩ := @pipedLoop_ends limits pipes hfinite (maxServiceFrames + 1) 0 0 ⟨a, events, fun _ => 0⟩
  have hmerges := @pipedLoop_merges limits (maxServiceFrames + 1) 0 0
    ((⟨a, events, fun _ => 0⟩ : Progress).piped pipes t.taken)
  obtain ⟨tape, htape⟩ := hmerges
  rw [hruns.run t.taken fun _ => le_refl _] at htape
  -- a long enough piece of the tapes shows what a readable standard error holds
  have hchunks : ∃ chunks, Within limits chunks maxServiceFrames maxServiceBytes a t.active events t.events ∧
      (Ready a (pipes .stderr) → (∀ stream n e, pipes stream n ≠ .failure e) →
        (∃ buffer, (OutputStream.stderr, buffer) ∈ chunks) ∨ r = .error outputExceeded) := by
    by_cases hfair : Ready a (pipes .stderr) ∧ ∀ stream n e, pipes stream n ≠ .failure e
    · obtain ⟨hready, hfailures⟩ := hfair
      obtain ⟨enough, hreadable⟩ := hready.readable
      have hrun := hruns.run (fun s => max (t.taken s) enough) fun s => Nat.le_max_left _ _
      have hreads : ∀ stream e, ReadAnswer.failure e ∉ slice (pipes stream) 0 (max (t.taken stream) enough) := by
        intro stream e hmem
        obtain ⟨n, -, hn⟩ := List.mem_map.mp hmem
        exact hfailures stream n e hn
      rcases pipedLoop_fair maxServiceFrames (outputFrameBytes_pos hlimits)
        (hreadable _ (Nat.le_max_right _ _)) hreads hrun with herror | ⟨chunks, buffer, hbuffer, hwithin⟩
      · obtain ⟨chunks, hwithin⟩ := pipedLoop_within _ hrun
        exact ⟨chunks, hwithin, fun _ _ => .inr herror⟩
      · exact ⟨chunks, hwithin, fun _ _ => .inl ⟨buffer, hbuffer⟩⟩
    · obtain ⟨chunks, hwithin⟩ := pipedLoop_within _ (hruns.run t.taken fun _ => le_refl _)
      exact ⟨chunks, hwithin, fun hready hfailures => absurd ⟨hready, hfailures⟩ hfair⟩
  obtain ⟨chunks, hwithin, hfair⟩ := hchunks
  refine ⟨r, t, chunks, hruns, fun more p => ?_, ⟨tape, htape⟩, hwithin, ?_, hfair⟩
  · exact pipedLoop_rounds (maxServiceFrames + 1) more p (by omega)
  · rintro before stream buffer after rfl
    rw [hwithin.emits.events_eq, List.getElem?_append_right (Nat.le_add_right _ _), Nat.add_sub_cancel_left]
    exact frameEvents_getElem before after stream buffer

/-! ### Samples -/

/-- An output bound of a single byte. -/
def tightLimits : RuntimeLimits := { outputBytes := 1, outputFrameBytes := 1 }

def sampleInvocation : Invocation := { id := 1, pid := 2 }

/-- Both pipes hold data, and standard output more than its bound. -/
def tightPiped : Piped where
  active := sampleInvocation
  events := []
  tapes
    | .stdout => [.data [120, 120], .data [120]]
    | .stderr => [.data [121]]

/-- The bound of one stream ends the batch before the other stream is served. -/
theorem tightBatch_starves : validateLimits tightLimits = .ok () ∧
    Readable tightPiped.active (tightPiped.tapes .stderr) ∧
    (pipedBatch tightLimits tightPiped).1 = .error outputExceeded ∧
    (pipedBatch tightLimits tightPiped).2.events = [.workloadOutput 1 .stdout 0 1 (encodeBytes [120])] := by
  refine ⟨by decide, ⟨rfl, rfl, 0, [121], [], by decide, rfl⟩, by decide +kernel, by decide +kernel⟩

/-- Standard output is readable for ever; standard error held one line. -/
def chattyPipes : OutputStream → Nat → ReadAnswer
  | .stdout, _ => .data (List.replicate 4096 120)
  | .stderr, 0 => .data [121, 10]
  | .stderr, _ + 1 => .wouldBlock

theorem chattyPipes_ne (stream : OutputStream) (n : Nat) :
    chattyPipes stream n ≠ .interrupted ∧ ∀ e, chattyPipes stream n ≠ .failure e := by
  cases stream with
  | stdout =>
    constructor
    · rintro ⟨⟩
    · rintro e ⟨⟩
  | stderr =>
    cases n with
    | zero =>
      constructor
      · rintro ⟨⟩
      · rintro e ⟨⟩
    | succ n =>
      constructor
      · rintro ⟨⟩
      · rintro e ⟨⟩

theorem drainBatch_bounded_chatty : ∃ r t chunks,
    Runs chattyPipes (pipedBatch {}) ⟨sampleInvocation, [], fun _ => 0⟩ r t ∧
    Within {} chunks maxServiceFrames maxServiceBytes sampleInvocation t.active [] t.events ∧
    ((∃ buffer, (OutputStream.stderr, buffer) ∈ chunks) ∨ r = .error outputExceeded) := by
  obtain ⟨r, t, chunks, hruns, -, -, hwithin, -, hfair⟩ := @drainBatch_bounded {} (by decide) sampleInvocation []
    chattyPipes fun stream => ⟨0, fun n _ => (chattyPipes_ne stream n).1⟩
  have hready : Ready sampleInvocation (chattyPipes .stderr) :=
    ⟨rfl, rfl, 0, [121, 10], by decide, fun n hn => absurd hn (Nat.not_lt_zero n), rfl⟩
  exact ⟨r, t, chunks, hruns, hwithin, hfair hready fun stream n e => (chattyPipes_ne stream n).2 e⟩

end SimFerret.Guest
