import SimFerret.Checker.Growth
import SimFerret.Guest.Agent

/-!
# SimFerret.Guest.Contract — what the checker requires of the frames of a guest

* `Accepted`, `Lawful`: a frame continues the frames before it, and every frame does so in its turn.
* `Caused`: an event that answers a command is emitted for a command that was received.
* `Follows`: the state of an invocation is what the checker has reconstructed of it.
* `Follows.output`, `Follows.input`, `Follows.terminates`, `Follows.exits`, `follows_start`: one event keeps
  both in step.
-/

namespace SimFerret.Guest

open Checker WorkloadTrace

/-! ## Lawful frames -/

/-- What an exit and a cleanup report is what the frames before them carry. -/
def Reports (sha256 : Sha256) (events : List EventFrame) : Event → Prop
  | .workloadExited invocation _ stdoutBytes stdoutSha256 stderrBytes stderrSha256 frames =>
    stdoutBytes = (streamBytes events invocation .stdout).length ∧
      stdoutSha256 = sha256Hex sha256 (streamBytes events invocation .stdout) ∧
      stderrBytes = (streamBytes events invocation .stderr).length ∧
      stderrSha256 = sha256Hex sha256 (streamBytes events invocation .stderr) ∧
      frames = frameCount events invocation
  | .cleanupComplete _ reaped => 1 ≤ reaped
  | _ => True

/-- The frame continues the frames before it; `last` is the last command received. -/
structure Accepted (sha256 : Sha256) (last : Nat) (events : List EventFrame) (frame : EventFrame) : Prop where
  version : frame.protocolVersion = protocolVersion
  eventId : frame.eventId = events.length + 1
  command : 1 ≤ frame.commandId ∧ frame.commandId ≤ last
  admits : (ofEvents events).Admits frame
  reports : Reports sha256 events frame.event

/-- Every frame continues those before it. -/
def Lawful (sha256 : Sha256) (last : Nat) (events : List EventFrame) : Prop :=
  ∀ before frame after, events = before ++ frame :: after → Accepted sha256 last before frame

section Lawful

variable {sha256 : Sha256} {last : Nat} {events : List EventFrame}

theorem lawful_nil : Lawful sha256 last [] := by
  intro before frame after h
  exact absurd h (by simp)

theorem Lawful.mono {last' : Nat} (h : Lawful sha256 last events)
    (hle : last ≤ last') : Lawful sha256 last' events := by
  intro before frame after heq
  have hacc := h before frame after heq
  exact ⟨hacc.version, hacc.eventId, ⟨hacc.command.1, hacc.command.2.trans hle⟩, hacc.admits, hacc.reports⟩

theorem Lawful.snoc {frame : EventFrame} (h : Lawful sha256 last events)
    (hacc : Accepted sha256 last events frame) : Lawful sha256 last (events ++ [frame]) := by
  intro before f after heq
  rcases List.eq_nil_or_concat after with rfl | ⟨after, final, rfl⟩
  · obtain ⟨rfl, hf⟩ := List.append_inj' heq rfl
    cases hf
    exact hacc
  · have hsplit : events ++ [frame] = (before ++ f :: after) ++ [final] := by rw [heq]; simp
    exact h before f after (List.append_inj' hsplit rfl).1

theorem Lawful.sound (h : Lawful sha256 last events) : (ofEvents events).Sound :=
  sound_of_admits fun before frame after heq => (h before frame after heq).admits

theorem Lawful.mirrors (h : Lawful sha256 last events) : Mirrors (ofEvents events) events :=
    mirrors_of_sound h.sound

/-- The trace behind an accepted frame. -/
theorem Accepted.trace {frame : EventFrame} (h : Accepted sha256 last events frame) :
    ofEvents (events ++ [frame]) = (ofEvents events).record frame := by
  rw [ofEvents_snoc, push_of_admits h.admits]

end Lawful

/-! ## Invocations that never started -/

/-- The trace knows nothing of the invocation. -/
structure Unknown (t : WorkloadTrace) (k : Nat) : Prop where
  streams : t.streams k = {}
  exited : t.exited k = false
  terminated : t.terminated k = false
  cleaned : t.cleaned k = false

/-- An admitted frame of an invocation that has not started starts it. -/
theorem unknown_record {t : WorkloadTrace} {frame : EventFrame} {k : Nat} (hadm : t.Admits frame)
    (hstart : (t.record frame).started k = false) (h : t.started k = false → Unknown t k) :
    Unknown (t.record frame) k := by
  have hother : ∀ {invocation : Nat}, t.started invocation = true → t.started k = false → ¬ invocation = k := by
    intro invocation h1 h2 heq
    rw [heq, h2] at h1
    exact Bool.false_ne_true h1
  unfold Admits at hadm
  unfold record at hstart ⊢
  cases hev : frame.event <;> rw [hev] at hadm hstart
  case workloadStarted invocation launch =>
    have hold : t.started k = false := by
      rw [started, List.any_append, Bool.or_eq_false_iff] at hstart
      exact hstart.1
    exact ⟨(h hold).streams, (h hold).exited, (h hold).terminated, (h hold).cleaned⟩
  case workloadExited invocation _ _ _ _ _ _ =>
    have hne := hother hadm.1 hstart
    refine ⟨(h hstart).streams, ?_, (h hstart).terminated, (h hstart).cleaned⟩
    rw [exited, List.any_append, Bool.or_eq_false_iff]
    exact ⟨(h hstart).exited, by simp [hne]⟩
  case terminationRequested invocation _ =>
    have hne := hother hadm.1 hstart
    refine ⟨(h hstart).streams, (h hstart).exited, ?_, (h hstart).cleaned⟩
    rw [terminated, List.any_append, Bool.or_eq_false_iff]
    exact ⟨(h hstart).terminated, by simp [hne]⟩
  case cleanupComplete invocation _ =>
    have hne := hother hadm.1 hstart
    refine ⟨(h hstart).streams, (h hstart).exited, (h hstart).terminated, ?_⟩
    rw [cleaned, List.any_append, Bool.or_eq_false_iff]
    exact ⟨(h hstart).cleaned, by simp [hne]⟩
  case workloadOutput invocation stream offset sequence bytes =>
    obtain ⟨hk, -, ⟨data, hd⟩, -⟩ := hadm
    dsimp only at hstart ⊢
    rw [hd] at hstart ⊢
    refine ⟨?_, (h hstart).exited, (h hstart).terminated, (h hstart).cleaned⟩
    rw [streams_setStreams, if_neg (hother hk hstart)]
    exact (h hstart).streams
  case inputAccepted invocation offset bytes eof =>
    refine ⟨?_, (h hstart).exited, (h hstart).terminated, (h hstart).cleaned⟩
    rw [streams_setStreams, if_neg (hother hadm.1 hstart)]
    exact (h hstart).streams
  all_goals exact ⟨(h hstart).streams, (h hstart).exited, (h hstart).terminated, (h hstart).cleaned⟩

theorem unknown_of_not_started {k : Nat} : ∀ {events : List EventFrame}, (ofEvents events).Sound →
    (ofEvents events).started k = false → Unknown (ofEvents events) k := by
  intro events
  induction events using List.reverseRecOn with
  | nil => exact fun _ _ => ⟨streams_default k, rfl, rfl, rfl⟩
  | append_singleton events frame ih =>
    intro hsound hstart
    have hadm : (ofEvents events).Admits frame :=
      admits_of_sound (show (ofEvents (events ++ frame :: [])).Sound from hsound)
    rw [ofEvents_snoc, push_of_admits hadm] at hstart ⊢
    exact unknown_record hadm hstart (ih hsound.initial)

/-! ## Events that answer commands -/

def startedBy (frame : CommandFrame) : Option Nat :=
  match frame.command with
  | .start invocation _ => some invocation
  | _ => none

def terminatedBy (frame : CommandFrame) : Option Nat :=
  match frame.command with
  | .terminate invocation => some invocation
  | _ => none

def activates (frame : CommandFrame) : Bool :=
  match frame.command with
  | .activateOutage _ => true
  | _ => false

def restores (frame : CommandFrame) : Bool :=
  match frame.command with
  | .restoreNetwork _ => true
  | _ => false

/-- An event that answers a command answers one of those received; `configured` is whether the network is. -/
def Caused (received : List CommandFrame) (configured : Bool) : Event → Prop
  | .workloadStarted invocation _ => invocation ∈ received.filterMap startedBy
  | .launchFailed invocation _ _ => invocation ∈ received.filterMap startedBy
  | .terminationRequested invocation _ => invocation ∈ received.filterMap terminatedBy
  | .outageActivated _ _ => ∃ frame ∈ received, activates frame = true
  | .networkRestored _ => ∃ frame ∈ received, restores frame = true
  | .networkConfigured _ _ _ => configured = true
  | _ => True

theorem mem_filterMap_append_left {f : CommandFrame → Option Nat} {received more : List CommandFrame} {k : Nat}
    (h : k ∈ received.filterMap f) : k ∈ (received ++ more).filterMap f := by
  rw [List.filterMap_append]
  exact List.mem_append_left _ h

theorem Caused.mono {received more : List CommandFrame} {configured configured' : Bool} {event : Event}
    (h : Caused received configured event) (hc : configured = true → configured' = true) :
    Caused (received ++ more) configured' event := by
  cases event
  case workloadStarted => exact mem_filterMap_append_left h
  case launchFailed => exact mem_filterMap_append_left h
  case terminationRequested => exact mem_filterMap_append_left h
  case outageActivated =>
    obtain ⟨frame, hframe, ha⟩ := h
    exact ⟨frame, List.mem_append_left _ hframe, ha⟩
  case networkRestored =>
    obtain ⟨frame, hframe, ha⟩ := h
    exact ⟨frame, List.mem_append_left _ hframe, ha⟩
  case networkConfigured => exact hc h
  all_goals trivial

/-- An event that needs no configured network. -/
theorem Caused.configured {received : List CommandFrame} {event : Event} (h : Caused received false event)
    (configured : Bool) : Caused received configured event := by
  cases event
  case networkConfigured => exact absurd h Bool.false_ne_true
  all_goals exact h

/-- No record names a number that is none of the keys. -/
theorem any_filterMap_eq_false {ρ : Type} {of : EventFrame → Option ρ} {key : ρ → Nat} {keys : List Nat}
    {events : List EventFrame} {k : Nat} (h : ∀ f ∈ events, ∀ r, of f = some r → key r ∈ keys) (hk : k ∉ keys) :
    (events.filterMap of).any (fun r => key r == k) = false := by
  rw [List.any_eq_false]
  intro r hr heq
  obtain ⟨f, hf, hfr⟩ := List.mem_filterMap.mp hr
  have hmem := h f hf r hfr
  rw [beq_iff_eq.mp heq] at hmem
  exact hk hmem

section Caused

variable {received : List CommandFrame} {configured : Bool} {events : List EventFrame}
  (hmirrors : Mirrors (ofEvents events) events) (hcaused : ∀ f ∈ events, Caused received configured f.event)
include hmirrors hcaused

theorem not_started_of_caused {k : Nat} (hk : k ∉ received.filterMap startedBy) :
    (ofEvents events).started k = false := by
  rw [started, hmirrors.starts]
  refine any_filterMap_eq_false (fun f hf r hr => ?_) hk
  have hc := hcaused f hf
  unfold startOf at hr
  split at hr
  · rename_i hev
    rw [hev] at hc
    cases hr
    exact hc
  · cases hr

theorem not_launchFailed_of_caused {k : Nat} (hk : k ∉ received.filterMap startedBy) :
    (ofEvents events).launchFailed k = false := by
  rw [launchFailed, hmirrors.launchFailures]
  refine any_filterMap_eq_false (fun f hf r hr => ?_) hk
  have hc := hcaused f hf
  unfold launchFailureOf at hr
  split at hr
  · rename_i hev
    rw [hev] at hc
    cases hr
    exact hc
  · cases hr

theorem not_terminated_of_caused {k : Nat} (hk : k ∉ received.filterMap terminatedBy) :
    (ofEvents events).terminated k = false := by
  rw [terminated, hmirrors.terminations]
  refine any_filterMap_eq_false (fun f hf r hr => ?_) hk
  have hc := hcaused f hf
  unfold terminationOf at hr
  split at hr
  · rename_i hev
    rw [hev] at hc
    cases hr
    exact hc
  · cases hr

theorem no_activation_of_caused (hno : ∀ frame ∈ received, activates frame = false) :
    (ofEvents events).activations = [] := by
  rw [hmirrors.activations, List.filterMap_eq_nil_iff]
  intro f hf
  have hc := hcaused f hf
  unfold activationOf
  split
  · rename_i peer rule hev
    rw [hev] at hc
    obtain ⟨frame, hframe, ha⟩ := hc
    rw [hno frame hframe] at ha
    cases ha
  · rfl

theorem no_restoration_of_caused (hno : ∀ frame ∈ received, restores frame = false) :
    (ofEvents events).restorations = [] := by
  rw [hmirrors.restorations, List.filterMap_eq_nil_iff]
  intro f hf
  have hc := hcaused f hf
  unfold restorationOf
  split
  · rename_i peer hev
    rw [hev] at hc
    obtain ⟨frame, hframe, ha⟩ := hc
    rw [hno frame hframe] at ha
    cases ha
  · rfl

end Caused

/-- A network that is not configured has no configuration on record. -/
theorem configured_of_caused {received : List CommandFrame} : ∀ {events : List EventFrame},
    (∀ f ∈ events, Caused received false f.event) → (ofEvents events).configured = none := by
  intro events
  induction events using List.reverseRecOn with
  | nil => exact fun _ => rfl
  | append_singleton events frame ih =>
    intro hcaused
    have hold := ih fun f hf => hcaused f (List.mem_append_left _ hf)
    have hframe := hcaused frame (by simp)
    have hrecord : ∀ t : WorkloadTrace, (t.record frame).configured = t.configured := by
      intro t
      unfold record
      cases hev : frame.event
      case networkConfigured =>
        rw [hev] at hframe
        cases hframe
      case workloadOutput => dsimp only; split <;> rfl
      all_goals rfl
    rw [ofEvents_snoc]
    rcases (ofEvents events).push_cases frame with ⟨v, heq⟩ | heq | ⟨v, heq⟩
    · rw [heq]
      exact hold
    · rw [heq, hrecord]
      exact hold
    · rw [heq, hrecord]
      exact hold

/-! ## An invocation and what the checker made of it -/

/-- Limits that `validate_limits` passed and that bind: a saturated byte count never exceeds `usize::MAX`. -/
structure RuntimeLimits.Valid (limits : RuntimeLimits) : Prop where
  outputFrame : limits.outputFrameBytes ≤ maxOutputFrameBytes
  input : limits.inputBytes + 1 < u64Size
  output : limits.outputBytes + 1 < u64Size

structure StreamFollows (limits : RuntimeLimits) (l : LineStream) (state : StreamState) : Prop where
  offset : l.offset = state.offset
  bytes : l.bytes = state.hashed
  total : state.offset = state.bytes
  size : state.bytes = state.hashed.length
  bound : state.bytes ≤ limits.outputBytes

/-- The streams of an invocation are those that the checker reconstructed; `last` is the last command received. -/
structure StreamsFollow (limits : RuntimeLimits) (last : Nat) (s : InvocationStreams) (a : Invocation) : Prop where
  stream : ∀ stream, StreamFollows limits (s.stream stream) (a.state stream)
  sequence : s.sequence = a.sequence
  frames : s.frames = a.frames
  inputOffset : s.inputOffset = a.inputOffset
  inputBytes : a.inputOffset = a.inputBytes
  inputBound : a.inputBytes ≤ limits.inputBytes
  inputEof : s.inputEof = a.eofRequested
  commands : ∀ c ∈ s.inputCommands, c ≤ last

/-- A live invocation is the one that the checker sees. -/
structure Follows (limits : RuntimeLimits) (last : Nat) (events : List EventFrame) (a : Invocation) : Prop where
  started : (ofEvents events).started a.id = true
  live : (ofEvents events).exited a.id = false
  uncleaned : (ofEvents events).cleaned a.id = false
  terminating : (ofEvents events).terminated a.id = true → a.terminating = true
  streams : StreamsFollow limits last ((ofEvents events).streams a.id) a
  sequence_le : a.sequence ≤ events.length
  incomplete : a.cleanupComplete = false
  reaped : a.exit.isSome = true → 1 ≤ a.reaped

/-- Two states of an invocation that the checker cannot tell apart. -/
structure Agrees (a a' : Invocation) : Prop where
  id : a'.id = a.id
  stream : ∀ stream, (a'.state stream).offset = (a.state stream).offset ∧
    (a'.state stream).bytes = (a.state stream).bytes ∧ (a'.state stream).hashed = (a.state stream).hashed
  sequence : a'.sequence = a.sequence
  frames : a'.frames = a.frames
  inputOffset : a'.inputOffset = a.inputOffset
  inputBytes : a'.inputBytes = a.inputBytes
  eofRequested : a'.eofRequested = a.eofRequested
  terminating : a'.terminating = a.terminating
  cleanupComplete : a'.cleanupComplete = a.cleanupComplete
  reaped : (a.exit.isSome = true → 1 ≤ a.reaped) → a'.exit.isSome = true → 1 ≤ a'.reaped

section Follows

variable {sha256 : Sha256} {limits : RuntimeLimits} {last : Nat} {events : List EventFrame} {a : Invocation}

theorem Follows.agrees {a' : Invocation} (h : Follows limits last events a) (hagree : Agrees a a') :
    Follows limits last events a' := by
  refine ⟨?_, ?_, ?_, ?_, ⟨fun stream => ?_, ?_, ?_, ?_, ?_, ?_, ?_, ?_⟩, ?_, ?_, hagree.reaped h.reaped⟩
  · exact hagree.id ▸ h.started
  · exact hagree.id ▸ h.live
  · exact hagree.id ▸ h.uncleaned
  · rw [hagree.id, hagree.terminating]
    exact h.terminating
  · obtain ⟨h1, h2, h3⟩ := hagree.stream stream
    have hs := h.streams.stream stream
    rw [hagree.id]
    exact ⟨hs.offset.trans h1.symm, hs.bytes.trans h3.symm, by rw [h1, h2, hs.total], by rw [h2, h3, hs.size],
      h2 ▸ hs.bound⟩
  · rw [hagree.id, hagree.sequence, h.streams.sequence]
  · rw [hagree.id, hagree.frames, h.streams.frames]
  · rw [hagree.id, hagree.inputOffset, h.streams.inputOffset]
  · rw [hagree.inputOffset, hagree.inputBytes, h.streams.inputBytes]
  · rw [hagree.inputBytes]
    exact h.streams.inputBound
  · rw [hagree.id, hagree.eofRequested, h.streams.inputEof]
  · rw [hagree.id]
    exact h.streams.commands
  · rw [hagree.sequence]
    exact h.sequence_le
  · rw [hagree.cleanupComplete]
    exact h.incomplete

theorem Follows.mono {last' : Nat} (h : Follows limits last events a) (hle : last ≤ last') :
    Follows limits last' events a :=
  { h with streams := { h.streams with commands := fun c hc => (h.streams.commands c hc).trans hle } }

/-- A frame that leaves the records and the streams of the invocation alone. -/
theorem Follows.frame {frame : EventFrame} (h : Follows limits last events a)
    (hstarted : (ofEvents (events ++ [frame])).started a.id = true)
    (hexits : (ofEvents (events ++ [frame])).exits = (ofEvents events).exits)
    (hterminations : (ofEvents (events ++ [frame])).terminations = (ofEvents events).terminations)
    (hcleanups : (ofEvents (events ++ [frame])).cleanups = (ofEvents events).cleanups)
    (hstreams : (ofEvents (events ++ [frame])).streams a.id = (ofEvents events).streams a.id) :
    Follows limits last (events ++ [frame]) a := by
  refine ⟨hstarted, ?_, ?_, ?_, ?_, ?_, h.incomplete, h.reaped⟩
  · rw [exited, hexits]
    exact h.live
  · rw [cleaned, hcleanups]
    exact h.uncleaned
  · rw [terminated, hterminations]
    exact h.terminating
  · rw [hstreams]
    exact h.streams
  · rw [List.length_append]
    exact Nat.le_add_right_of_le h.sequence_le

/-- The state of a stream behind one output frame. -/
theorem state_takeOutput (a : Invocation) (stream other : OutputStream) (buffer : Bytes) :
    (takeOutput a stream buffer).state other =
      if other = stream then { a.state stream with
        offset := (a.state stream).offset + buffer.length
        bytes := (a.state stream).bytes + buffer.length
        hashed := (a.state stream).hashed ++ buffer }
      else a.state other := by
  cases stream <;> cases other <;> rfl

theorem id_takeOutput (a : Invocation) (stream : OutputStream) (buffer : Bytes) :
    (takeOutput a stream buffer).id = a.id := by
  cases stream <;> rfl

theorem StreamFollows.push {l : LineStream} {state : StreamState} (h : StreamFollows limits l state)
    (hlimits : limits.Valid) (eventId : Nat) (buffer : Bytes)
    (hbytes : state.bytes + buffer.length ≤ limits.outputBytes) :
    StreamFollows limits (l.push eventId state.offset buffer) { state with
      offset := state.offset + buffer.length
      bytes := state.bytes + buffer.length
      hashed := state.hashed ++ buffer } := by
  have hout := hlimits.output
  refine ⟨?_, ?_, ?_, ?_, hbytes⟩
  · rw [LineStream.offset_push]
    exact saturatingAdd_of_lt (by have := h.total; omega)
  · rw [LineStream.bytes_push, h.bytes]
  · rw [h.total]
  · rw [h.size, List.length_append]

variable (sha256) in
/-- **One output frame** is accepted and keeps the invocation in step. -/
theorem Follows.output (h : Follows limits last events a) (hlimits : limits.Valid) (hlast : 1 ≤ last)
    {stream : OutputStream} {buffer : Bytes} (hframe : buffer.length ≤ limits.outputFrameBytes)
    (hbytes : (a.state stream).bytes + buffer.length ≤ limits.outputBytes) (hlen : events.length + 1 < u64Size) :
    Accepted sha256 last events (eventFrame (events.length + 1) last (outputEvent a stream buffer)) ∧
      Follows limits last (events ++ [eventFrame (events.length + 1) last (outputEvent a stream buffer)])
        (takeOutput a stream buffer) := by
  set frame := eventFrame (events.length + 1) last (outputEvent a stream buffer) with hframeEq
  have hdecode : decodeBytes (encodeBytes buffer) maxOutputFrameBytes = .ok buffer :=
    decodeBytes_encodeBytes (hframe.trans hlimits.outputFrame) (by decide)
  have hseq := h.sequence_le
  have hadmits : ((ofEvents events).streams a.id).Admits stream (a.state stream).offset (a.sequence + 1) := by
    refine ⟨checkedAdd_eq_some.mpr ⟨?_, ?_⟩, (h.streams.stream stream).offset.symm⟩
    · rw [h.streams.sequence]
    · rw [h.streams.sequence]
      omega
  have hacc : Accepted sha256 last events frame :=
    ⟨rfl, rfl, ⟨hlast, Nat.le_refl _⟩, ⟨h.started, h.live, ⟨buffer, hdecode⟩, hadmits⟩, trivial⟩
  refine ⟨hacc, ?_⟩
  have htrace : ofEvents (events ++ [frame]) = (ofEvents events).setStreams a.id
      (((ofEvents events).streams a.id).push (events.length + 1) a.id stream (a.state stream).offset
        (a.sequence + 1) buffer) := by
    rw [hacc.trace]
    simp only [hframeEq, record, eventFrame, outputEvent, hdecode]
  have hspec := ((ofEvents events).streams a.id).push_spec (events.length + 1) a.id stream (a.state stream).offset
    (a.sequence + 1) buffer
  have hstreams : (ofEvents (events ++ [frame])).streams a.id = ((ofEvents events).streams a.id).push
      (events.length + 1) a.id stream (a.state stream).offset (a.sequence + 1) buffer := by
    rw [htrace, streams_setStreams, if_pos rfl]
  have hid := id_takeOutput a stream buffer
  refine ⟨?_, ?_, ?_, ?_, ?_, ?_, ?_, ?_⟩
  · rw [hid, htrace]
    exact h.started
  · rw [hid, htrace]
    exact h.live
  · rw [hid, htrace]
    exact h.uncleaned
  · rw [hid, htrace]
    intro hterm
    cases stream <;> exact h.terminating hterm
  · rw [hid, hstreams]
    refine ⟨fun other => ?_, ?_, ?_, ?_, ?_, ?_, ?_, ?_⟩
    · rw [hspec.streams other, state_takeOutput]
      split
      · exact (h.streams.stream stream).push hlimits _ _ hbytes
      · exact h.streams.stream other
    · rw [hspec.sequence_eq]
      rfl
    · rw [hspec.frames_eq, h.streams.frames]
      rfl
    · rw [hspec.input.inputOffset, h.streams.inputOffset]
      cases stream <;> rfl
    · cases stream <;> exact h.streams.inputBytes
    · cases stream <;> exact h.streams.inputBound
    · rw [hspec.input.inputEof, h.streams.inputEof]
      cases stream <;> rfl
    · rw [hspec.input.inputCommands]
      exact h.streams.commands
  · rw [List.length_append]
    exact Nat.succ_le_succ hseq
  · cases stream <;> exact h.incomplete
  · cases stream <;> exact h.reaped

variable (sha256) in
/-- **One accepted input** keeps the invocation in step. -/
theorem Follows.input (h : Follows limits last events a) (hlimits : limits.Valid) {command : Nat} (bytes : Nat)
    (eof : Bool) (hcommand : last < command) (hlive : a.terminating = false) (heof : eof = true ↔ bytes = 0)
    (hopen : a.eofRequested = false) (hbytes : a.inputBytes + bytes ≤ limits.inputBytes) :
    Accepted sha256 command events
        (eventFrame (events.length + 1) command (.inputAccepted a.id (a.inputOffset + bytes) bytes eof)) ∧
      Follows limits command
        (events ++ [eventFrame (events.length + 1) command
          (.inputAccepted a.id (a.inputOffset + bytes) bytes eof)])
        { a with
          inputOffset := a.inputOffset + bytes
          inputBytes := a.inputBytes + bytes
          eofRequested := eof } := by
  set frame := eventFrame (events.length + 1) command (.inputAccepted a.id (a.inputOffset + bytes) bytes eof)
    with hframeEq
  have hin := hlimits.input
  have htotal := h.streams.inputBytes
  have hadmits : ((ofEvents events).streams a.id).AdmitsInput command (a.inputOffset + bytes) bytes eof := by
    refine ⟨checkedAdd_eq_some.mpr ⟨?_, ?_⟩, heof, ?_, fun previous hprev => ?_⟩
    · rw [h.streams.inputOffset]
    · rw [h.streams.inputOffset]
      omega
    · rw [h.streams.inputEof]
      exact hopen
    · exact Nat.lt_of_le_of_lt (h.streams.commands previous (List.mem_of_getLast? hprev)) hcommand
  have hterm : (ofEvents events).terminated a.id = false := by
    by_contra hne
    have ht := h.terminating (by simpa using hne)
    rw [hlive] at ht
    exact Bool.false_ne_true ht
  have hacc : Accepted sha256 command events frame :=
    ⟨rfl, rfl, ⟨by show 1 ≤ command; omega, Nat.le_refl _⟩, ⟨h.started, h.live, hterm, hadmits⟩, trivial⟩
  refine ⟨hacc, ?_⟩
  have htrace : ofEvents (events ++ [frame]) = (ofEvents events).setStreams a.id
      (((ofEvents events).streams a.id).pushInput a.id (events.length + 1) command (a.inputOffset + bytes) bytes
        eof) := hacc.trace
  have hspec := ((ofEvents events).streams a.id).pushInput_spec a.id (events.length + 1) command
    (a.inputOffset + bytes) bytes eof
  have hstreams : (ofEvents (events ++ [frame])).streams a.id = ((ofEvents events).streams a.id).pushInput a.id
      (events.length + 1) command (a.inputOffset + bytes) bytes eof := by
    rw [htrace, streams_setStreams, if_pos rfl]
  refine ⟨?_, ?_, ?_, ?_, ?_, ?_, h.incomplete, h.reaped⟩
  · rw [htrace]
    exact h.started
  · rw [htrace]
    exact h.live
  · rw [htrace]
    exact h.uncleaned
  · rw [htrace]
    exact h.terminating
  · show StreamsFollow limits command ((ofEvents (events ++ [frame])).streams a.id) _
    rw [hstreams]
    refine ⟨fun other => ?_, ?_, ?_, hspec.inputOffset, ?_, hbytes, ?_, ?_⟩
    · rw [hspec.streams other]
      cases other <;> exact h.streams.stream _
    · rw [hspec.sequence, h.streams.sequence]
    · rw [hspec.frames, h.streams.frames]
    · exact congrArg (· + bytes) htotal
    · rw [hspec.inputEof, h.streams.inputEof, hopen, Bool.false_or]
    · rw [hspec.inputCommands]
      intro c hc
      rcases List.mem_append.mp hc with hc | hc
      · exact (h.streams.commands c hc).trans hcommand.le
      · exact (List.mem_singleton.mp hc).le
  · rw [List.length_append]
    exact Nat.le_add_right_of_le h.sequence_le

variable (sha256) in
/-- **The termination** of an invocation that was not terminated before keeps it in step. -/
theorem Follows.terminates (h : Follows limits last events a) {command : Nat} (hle : last ≤ command)
    (hcommand : 1 ≤ command) (signal : Int) (hfresh : (ofEvents events).terminated a.id = false) :
    Accepted sha256 command events (eventFrame (events.length + 1) command (.terminationRequested a.id signal)) ∧
      Follows limits command (events ++
        [eventFrame (events.length + 1) command (.terminationRequested a.id signal)])
        { a with terminating := true, pendingInput := [], stdin := false } := by
  set frame := eventFrame (events.length + 1) command (.terminationRequested a.id signal)
  have hacc : Accepted sha256 command events frame :=
    ⟨rfl, rfl, ⟨hcommand, Nat.le_refl _⟩, ⟨h.started, h.live, hfresh⟩, trivial⟩
  have htrace : ofEvents (events ++ [frame]) = { ofEvents events with
      terminations := (ofEvents events).terminations ++ [⟨a.id, signal, events.length + 1⟩] } := hacc.trace
  refine ⟨hacc, ?_, ?_, ?_, fun _ => rfl, ?_, ?_, h.incomplete, h.reaped⟩
  · rw [htrace]
    exact h.started
  · rw [htrace]
    exact h.live
  · rw [htrace]
    exact h.uncleaned
  · show StreamsFollow limits command ((ofEvents (events ++ [frame])).streams a.id) _
    rw [htrace]
    have hs := (h.mono hle).streams
    exact ⟨fun stream => by cases stream <;> exact hs.stream _, hs.sequence, hs.frames, hs.inputOffset,
      hs.inputBytes, hs.inputBound, hs.inputEof, hs.commands⟩
  · rw [List.length_append]
    exact Nat.le_add_right_of_le h.sequence_le

/-- An event that is not about the course of an invocation. -/
def Unrelated : Event → Prop
  | .workloadStarted .. => False
  | .workloadExited .. => False
  | .terminationRequested .. => False
  | .cleanupComplete .. => False
  | .workloadOutput .. => False
  | .inputAccepted .. => False
  | _ => True

theorem Follows.unrelated (h : Follows limits last events a) {command : Nat} (hle : last ≤ command)
    {frame : EventFrame} (hacc : Accepted sha256 command events frame) (hun : Unrelated frame.event) :
    Follows limits command (events ++ [frame]) a := by
  have hrecord : ∀ t : WorkloadTrace, (t.record frame).starts = t.starts ∧ (t.record frame).exits = t.exits ∧
      (t.record frame).terminations = t.terminations ∧ (t.record frame).cleanups = t.cleanups ∧
      (t.record frame).streams a.id = t.streams a.id := by
    intro t
    unfold record
    cases hev : frame.event <;> rw [hev] at hun <;> first | exact hun.elim | exact ⟨rfl, rfl, rfl, rfl, rfl⟩
  obtain ⟨h1, h2, h3, h4, h5⟩ := hrecord (ofEvents events)
  rw [← hacc.trace] at h1 h2 h3 h4 h5
  refine (h.mono hle).frame ?_ h2 h3 h4 h5
  rw [WorkloadTrace.started, h1]
  exact h.started

/-- **The exit and the cleanup** of an invocation are accepted, and report what its frames carried. -/
theorem Follows.exits (h : Follows limits last events a) (hlaw : Lawful sha256 last events) (hlast : 1 ≤ last)
    {exit : ProcessExit} (hexit : a.exit = some exit) :
    Lawful sha256 last (events ++
      [eventFrame (events.length + 1) last (.workloadExited a.id exit a.stdoutState.bytes
          (sha256Hex sha256 a.stdoutState.hashed) a.stderrState.bytes
            (sha256Hex sha256 a.stderrState.hashed) a.frames),
        eventFrame (events.length + 2) last (.cleanupComplete a.id a.reaped)]) := by
  set exited := eventFrame (events.length + 1) last (.workloadExited a.id exit a.stdoutState.bytes
    (sha256Hex sha256 a.stdoutState.hashed) a.stderrState.bytes (sha256Hex sha256 a.stderrState.hashed) a.frames)
  set cleanup := eventFrame (events.length + 2) last (.cleanupComplete a.id a.reaped)
  have hmirror := hlaw.mirrors.streams a.id
  have hout : streamBytes events a.id .stdout = a.stdoutState.hashed :=
    (hmirror.bytes .stdout).symm.trans (h.streams.stream .stdout).bytes
  have herr : streamBytes events a.id .stderr = a.stderrState.hashed :=
    (hmirror.bytes .stderr).symm.trans (h.streams.stream .stderr).bytes
  have hreports : Reports sha256 events exited.event := by
    refine ⟨?_, ?_, ?_, ?_, ?_⟩
    · rw [hout]
      exact (h.streams.stream .stdout).size
    · rw [hout]
    · rw [herr]
      exact (h.streams.stream .stderr).size
    · rw [herr]
    · rw [← hmirror.frames, h.streams.frames]
  have hexited : Accepted sha256 last events exited := by
    refine ⟨rfl, rfl, ⟨hlast, Nat.le_refl _⟩, ?_, hreports⟩
    exact ⟨h.started, h.live⟩
  -- the exit record is the first of the invocation, so it is the one that the cleanup is held against
  have hfind : ∃ r, (ofEvents (events ++ [exited])).exits.find? (·.invocation == a.id) = some r ∧
      r.eventId ≤ cleanup.eventId := by
    refine ⟨⟨a.id, exit, a.stdoutState.bytes, sha256Hex sha256 a.stdoutState.hashed, a.stderrState.bytes,
      sha256Hex sha256 a.stderrState.hashed, a.frames, events.length + 1⟩, ?_, Nat.le_succ _⟩
    rw [hexited.trace]
    show ((ofEvents events).exits ++ [_]).find? _ = _
    have hnone : (ofEvents events).exits.find? (·.invocation == a.id) = none :=
      List.find?_eq_none.mpr fun r hr => List.any_eq_false.mp h.live r hr
    rw [List.find?_append, hnone]
    simp [exited, eventFrame]
  have hreaped := h.reaped (by rw [hexit]; rfl)
  have hcleanup : Accepted sha256 last (events ++ [exited]) cleanup := by
    refine ⟨rfl, ?_, ⟨hlast, Nat.le_refl _⟩, ⟨?_, ?_, hfind, ?_⟩, hreaped⟩
    · rw [List.length_append]
      rfl
    · rw [hexited.trace]
      exact h.started
    · rw [hexited.trace]
      exact h.uncleaned
    · omega
  rw [show events ++ [exited, cleanup] = (events ++ [exited]) ++ [cleanup] by simp]
  exact (hlaw.snoc hexited).snoc hcleanup

end Follows

/-- **The start** of an invocation that the checker does not know begins a live one. -/
theorem follows_start {sha256 : Sha256} (limits : RuntimeLimits) {last invocation : Nat} {events : List EventFrame}
    (identity : Workload.LaunchIdentity) (pid : Int) (hlaw : Lawful sha256 last events) (hlast : 1 ≤ last)
    (hfresh : (ofEvents events).started invocation = false) :
    Accepted sha256 last events (eventFrame (events.length + 1) last (.workloadStarted invocation identity)) ∧
      Follows limits last (events ++ [eventFrame (events.length + 1) last (.workloadStarted invocation identity)])
        { id := invocation, pid := pid } := by
  set frame := eventFrame (events.length + 1) last (.workloadStarted invocation identity)
  have hunknown := unknown_of_not_started hlaw.sound hfresh
  have hacc : Accepted sha256 last events frame := ⟨rfl, rfl, ⟨hlast, Nat.le_refl _⟩, hfresh, trivial⟩
  have htrace : ofEvents (events ++ [frame]) = { ofEvents events with
      starts := (ofEvents events).starts ++ [⟨invocation, identity, events.length + 1⟩] } := hacc.trace
  have hstreams : (ofEvents (events ++ [frame])).streams invocation = {} := by
    rw [htrace]
    exact hunknown.streams
  refine ⟨hacc, ?_, ?_, ?_, ?_, ?_, Nat.zero_le _, rfl, fun h => absurd h Bool.false_ne_true⟩
  · rw [htrace, started, List.any_append]
    simp
  · rw [htrace]
    exact hunknown.exited
  · rw [htrace]
    exact hunknown.cleaned
  · rw [htrace]
    intro hterm
    exact absurd (hunknown.terminated.symm.trans hterm) Bool.false_ne_true
  · show StreamsFollow limits last ((ofEvents (events ++ [frame])).streams invocation) _
    rw [hstreams]
    refine ⟨fun stream => ?_, rfl, rfl, rfl, rfl, Nat.zero_le _, rfl, fun c hc => absurd hc List.not_mem_nil⟩
    cases stream <;> exact ⟨rfl, rfl, rfl, rfl, Nat.zero_le _⟩

end SimFerret.Guest
