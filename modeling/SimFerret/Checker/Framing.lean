import SimFerret.Checker.Trace

/-!
# SimFerret.Checker.Framing — how the streams were cut into frames does not matter

A byte of a stream is tagged with the event of the frame that carried it.  What `InvocationStreams.push`
reconstructs is a scan of the tagged bytes, and what it says of them apart from the events depends on the bytes
alone.

* `OutputFrame`, `Framing`: one way of cutting two byte strings into frames.
* `scan`: the completed lines and the pending bytes of tagged bytes; `scan_append` runs it on from any point.
* `matches_push`: a frame extends the tagged bytes of its stream.
* `Folded`: what the fold has reached after some of the frames.
* `framing_independent`: **two framings of the same bytes are read alike**.
-/

namespace SimFerret.Checker

/-! ## Framings -/

/-- One output frame of an invocation. -/
structure OutputFrame where
  eventId : Nat
  stream : OutputStream
  offset : Nat
  sequence : Nat
  data : Bytes

/-- The bytes that frames carry on a stream. -/
def bytesOf (frames : List OutputFrame) (stream : OutputStream) : Bytes :=
  (frames.filter (·.stream = stream)).flatMap OutputFrame.data

/-- The frames are numbered from one, and each continues its stream; the numbers are those of `u64` fields. -/
def Numbered (frames : List OutputFrame) : Prop :=
  ∀ earlier frame later, frames = earlier ++ frame :: later →
    frame.sequence = earlier.length + 1 ∧ frame.sequence < u64Size ∧
      frame.offset = (bytesOf earlier frame.stream).length ∧ frame.offset < u64Size

/-- The frames cut the two byte strings, in some interleaving. -/
structure Framing (stdout stderr : Bytes) (frames : List OutputFrame) : Prop where
  numbered : Numbered frames
  stdout : bytesOf frames .stdout = stdout
  stderr : bytesOf frames .stderr = stderr

/-- The fold of `InvocationStreams::push`. -/
def pushFrames (invocation : Nat) (frames : List OutputFrame) : InvocationStreams :=
  frames.foldl (fun s frame => s.push frame.eventId invocation frame.stream frame.offset frame.sequence
    frame.data) {}

/-- The frame carried the byte of a stream at a position. -/
def OutputFrame.Carries (frame : OutputFrame) (stream : OutputStream) (position : Nat) : Prop :=
  frame.stream = stream ∧ frame.offset ≤ position ∧ position < frame.offset + frame.data.length

/-! ## Tagged bytes -/

/-- Bytes with the events that carried them. -/
abbrev Tagged := List (UInt8 × Nat)

def tag (eventId : Nat) (data : Bytes) : Tagged := data.map fun byte => (byte, eventId)

/-- The tagged bytes of a stream. -/
def taggedOf (frames : List OutputFrame) (stream : OutputStream) : Tagged :=
  (frames.filter (·.stream = stream)).flatMap fun frame => tag frame.eventId frame.data

/-- The lines that the bytes behind an unfinished line complete, and the unfinished line they leave. -/
def scan : Tagged → Tagged → List CompletedLine × Tagged
  | current, [] => ([], current)
  | current, (byte, eventId) :: rest =>
    if byte = newline then
      let line : CompletedLine :=
        ⟨Utf8.lossy (current.map Prod.fst), eventId, (current.head?.map Prod.snd).getD eventId⟩
      (line :: (scan [] rest).1, (scan [] rest).2)
    else scan (current ++ [(byte, eventId)]) rest

theorem scan_append : ∀ (bytes current more : Tagged), scan current (bytes ++ more) =
    ((scan current bytes).1 ++ (scan (scan current bytes).2 more).1, (scan (scan current bytes).2 more).2)
  | [], current, more => rfl
  | (byte, eventId) :: rest, current, more => by
    rw [List.cons_append, scan, scan]
    split
    · rw [scan_append rest [] more]
      rfl
    · exact scan_append rest _ more

/-- The unfinished line has no newline. -/
theorem newline_not_mem_scan : ∀ (bytes : Tagged) {current : Tagged}, newline ∉ current.map Prod.fst →
    newline ∉ (scan current bytes).2.map Prod.fst
  | [], _, h => h
  | (byte, eventId) :: rest, current, h => by
    rw [scan]
    split
    · exact newline_not_mem_scan rest (by simp)
    · rename_i hbyte
      refine newline_not_mem_scan rest ?_
      rw [List.map_append, List.mem_append, not_or]
      exact ⟨h, by simpa using fun heq => hbyte heq.symm⟩

theorem splitOn_append_newline {a : Bytes} (h : newline ∉ a) (b : Bytes) :
    (a ++ newline :: b).splitOn newline = a :: b.splitOn newline := by
  rw [List.splitOn_append_cons_self, List.splitOn_eq_singleton h]
  rfl

/-! ## A frame of one stream -/

namespace LineStream

/-- The drain loop scans the bytes of its frame. -/
theorem drain_scan (eventId : Nat) : ∀ (data : Bytes) (current : Tagged) (l : LineStream),
    newline ∉ current.map Prod.fst →
    (current ++ tag eventId data ≠ [] → l.lineEvent = (current ++ tag eventId data).head?.map Prod.snd) →
    (l.drain eventId ((current.map Prod.fst ++ data).splitOn newline)).lines =
        l.lines ++ (scan current (tag eventId data)).1 ∧
      (l.drain eventId ((current.map Prod.fst ++ data).splitOn newline)).pending =
        (scan current (tag eventId data)).2.map Prod.fst ∧
      ((scan current (tag eventId data)).2 ≠ [] →
        (l.drain eventId ((current.map Prod.fst ++ data).splitOn newline)).lineEvent =
          (scan current (tag eventId data)).2.head?.map Prod.snd)
  | [], current, l, hcurrent, hevent => by
    rw [List.append_nil, List.splitOn_eq_singleton hcurrent]
    refine ⟨(List.append_nil _).symm, rfl, fun hne => ?_⟩
    have hhead := hevent (by rwa [tag, List.map_nil, List.append_nil])
    rwa [tag, List.map_nil, List.append_nil] at hhead
  | byte :: data, current, l, hcurrent, hevent => by
    have htag : tag eventId (byte :: data) = (byte, eventId) :: tag eventId data := rfl
    rw [htag] at hevent ⊢
    have hhead := hevent (by simp)
    rw [scan]
    by_cases hbyte : byte = newline
    · -- the line is complete, and the next one starts in this frame
      subst hbyte
      rw [if_pos rfl, splitOn_append_newline hcurrent]
      have hdrain : ∀ parts, parts ≠ [] → l.drain eventId (current.map Prod.fst :: parts) =
          (l.complete eventId (current.map Prod.fst) (parts != [[]])).drain eventId parts := by
        intro parts hparts
        cases parts with
        | nil => exact absurd rfl hparts
        | cons second next => rfl
      have hmore : data.splitOn newline = [[]] → data = [] := fun h => by
        have hjoin : [newline].intercalate (data.splitOn newline) = data := List.intercalate_splitOn ..
        rw [h] at hjoin
        exact hjoin.symm
      have hline : l.lineEvent.getD eventId = (current.head?.map Prod.snd).getD eventId := by
        rw [hhead]
        cases current <;> rfl
      rw [hdrain _ (List.splitOn_ne_nil _ _)]
      obtain ⟨hlines, hpending, hlast⟩ := drain_scan eventId data []
        (l.complete eventId (current.map Prod.fst) (data.splitOn newline != [[]])) (by simp) fun hne => by
          have hdata : data ≠ [] := by
            rintro rfl
            exact hne rfl
          have hmore' : (data.splitOn newline != [[]]) = true := by
            rw [bne_iff_ne]
            exact fun h => hdata (hmore h)
          rw [complete, hmore']
          cases data with
          | nil => exact absurd rfl hdata
          | cons byte data => rfl
      refine ⟨?_, hpending, hlast⟩
      rw [show ([] : Tagged).map Prod.fst ++ data = data from rfl] at hlines
      rw [hlines, complete, hline, List.append_assoc]
      rfl
    · rw [if_neg hbyte]
      have hcurrent' : newline ∉ (current ++ [(byte, eventId)]).map Prod.fst := by
        rw [List.map_append, List.mem_append, not_or]
        exact ⟨hcurrent, by simpa using fun heq => hbyte heq.symm⟩
      have hevent' : current ++ [(byte, eventId)] ++ tag eventId data ≠ [] →
          l.lineEvent = (current ++ [(byte, eventId)] ++ tag eventId data).head?.map Prod.snd := by
        rw [List.append_assoc, List.singleton_append]
        exact hevent
      have hstep := drain_scan eventId data (current ++ [(byte, eventId)]) l hcurrent' hevent'
      rwa [List.map_append, List.append_assoc] at hstep

/-- What a line stream has reconstructed from tagged bytes. -/
structure Matches (l : LineStream) (tagged : Tagged) : Prop where
  bytes : l.bytes = tagged.map Prod.fst
  lines : l.lines = (scan [] tagged).1
  pending : l.pending = (scan [] tagged).2.map Prod.fst
  lineEvent : (scan [] tagged).2 ≠ [] → l.lineEvent = (scan [] tagged).2.head?.map Prod.snd

theorem matches_push {l : LineStream} {tagged : Tagged} (h : l.Matches tagged) (eventId offset : Nat)
    (data : Bytes) : (l.push eventId offset data).Matches (tagged ++ tag eventId data) := by
  have hcurrent := @newline_not_mem_scan tagged [] (by simp)
  have hevent : (scan [] tagged).2 ++ tag eventId data ≠ [] → (l.extend eventId offset data).lineEvent =
      ((scan [] tagged).2 ++ tag eventId data).head?.map Prod.snd := by
    intro hne
    unfold extend
    rw [h.pending]
    cases hscan : (scan [] tagged).2 with
    | nil =>
      cases data with
      | nil => exact absurd (by rw [hscan]; rfl) hne
      | cons byte data => rfl
    | cons first rest =>
      have hfirst := h.lineEvent (by rw [hscan]; simp)
      rw [hscan] at hfirst
      exact hfirst
  obtain ⟨hlines, hpending, hlast⟩ := drain_scan eventId data (scan [] tagged).2 (l.extend eventId offset data)
    hcurrent hevent
  rw [← h.pending] at hlines hpending hlast
  have hscan := scan_append tagged [] (tag eventId data)
  refine ⟨?_, ?_, ?_, ?_⟩
  · rw [bytes_push, h.bytes, List.map_append, tag, List.map_map]
    exact congrArg _ (List.map_id data).symm
  · rw [push, hlines, hscan]
    exact congrArg (· ++ _) h.lines
  · rw [push, hpending, hscan]
  · rw [push, hscan]
    exact hlast

end LineStream

/-! ## The flags and the violations of a frame -/

/-- The line is longer than a response may be. -/
def TooLong (line : Bytes) : Prop := maxResponseLineBytes < (Utf8.lossy line).length

namespace InvocationStreams

/-- One line of the drain loop. -/
theorem flags_completeLine (s : InvocationStreams) (invocation eventId : Nat) (stream : OutputStream) (raw : Bytes)
    (more : Bool) : let s' := s.completeLine invocation eventId stream raw more
      (s'.violations = [] ↔ s.violations = [] ∧ ¬ TooLong raw) ∧
      (s'.stdoutOverBound = true ↔ s.stdoutOverBound = true ∧ stream ≠ .stdout) ∧
      (s'.stdoutOverBoundSeen = true ↔ s.stdoutOverBoundSeen = true ∨ stream = .stdout ∧ TooLong raw) := by
  unfold completeLine TooLong
  by_cases hlong : (Utf8.lossy raw).length > maxResponseLineBytes
  · rw [decide_eq_true hlong]
    have hlong' : maxResponseLineBytes < (Utf8.lossy raw).length := hlong
    cases stream <;> simp [violateIf, setStream, hlong']
  · rw [decide_eq_false hlong]
    have hlong' : ¬ maxResponseLineBytes < (Utf8.lossy raw).length := hlong
    cases stream <;> simp [violateIf, setStream, hlong']

/-- What the drain loop leaves in the flags and in the violations, by induction on the lines it completes. -/
theorem flags_drainLines (invocation eventId : Nat) (stream : OutputStream) (rest : Bytes) :
    ∀ (raws : List Bytes) (s : InvocationStreams),
      let s' := s.drainLines invocation eventId stream (raws ++ [rest])
      (s'.violations = [] ↔ s.violations = [] ∧ ∀ raw ∈ raws, ¬ TooLong raw) ∧
      (s'.stdoutOverBound = true ↔ s.stdoutOverBound = true ∧ (stream = .stdout → raws = [])) ∧
      (s'.stdoutOverBoundSeen = true ↔ s.stdoutOverBoundSeen = true ∨ stream = .stdout ∧ ∃ raw ∈ raws, TooLong raw)
  | [], s => by
    cases stream <;> simp [drainLines, setStream]
  | raw :: raws, s => by
    have hstep : s.drainLines invocation eventId stream (raw :: raws ++ [rest]) =
        (s.completeLine invocation eventId stream raw (raws ++ [rest] != [[]])).drainLines invocation
          eventId stream (raws ++ [rest]) := by
      cases raws <;> rfl
    intro s'
    obtain ⟨hviolations, hopen, hseen⟩ := flags_drainLines invocation eventId stream rest raws
      (s.completeLine invocation eventId stream raw (raws ++ [rest] != [[]]))
    have hs' : s' = _ := hstep
    obtain ⟨hviolations', hopen', hseen'⟩ :=
      flags_completeLine s invocation eventId stream raw (raws ++ [rest] != [[]])
    rw [hs', hviolations, hopen, hseen, hviolations', hopen', hseen']
    refine ⟨?_, ?_, ?_⟩
    · simp [and_assoc]
    · simp only [List.cons_ne_nil, imp_false, and_assoc, ne_eq]
      exact and_congr_right fun _ => ⟨fun h => h.1, fun h => ⟨h, fun hstdout => absurd hstdout h⟩⟩
    · simp only [List.mem_cons, exists_eq_or_imp, and_or_left, or_assoc]

/-- The check of the open line. -/
theorem flags_checkOpenLine (s : InvocationStreams) (invocation : Nat) (stream : OutputStream) :
    let s' := s.checkOpenLine invocation stream
    (s'.violations = [] ↔ s.violations = [] ∧
      (stream = .stdout → s.stdoutOverBound = true ∨ s.stdout.pending.length ≤ maxResponseLineBytes)) ∧
    (s'.stdoutOverBound = true ↔ s.stdoutOverBound = true ∨
      stream = .stdout ∧ maxResponseLineBytes < s.stdout.pending.length) ∧
    (s'.stdoutOverBound = true ∨ s'.stdoutOverBoundSeen = true ↔
      (s.stdoutOverBound = true ∨ s.stdoutOverBoundSeen = true) ∨
        stream = .stdout ∧ maxResponseLineBytes < s.stdout.pending.length) := by
  unfold checkOpenLine
  cases stream with
  | stderr => simp
  | stdout =>
    by_cases hlong : s.stdout.pending.length > maxResponseLineBytes
    · rw [decide_eq_true hlong]
      have hlong' : ¬ s.stdout.pending.length ≤ maxResponseLineBytes := Nat.not_le.mpr hlong
      cases hopen : s.stdoutOverBound <;> simp [violate, hopen, hlong, hlong']
    · rw [decide_eq_false hlong]
      have hlong' : s.stdout.pending.length ≤ maxResponseLineBytes := Nat.le_of_not_lt hlong
      cases hopen : s.stdoutOverBound <;> simp [hopen, hlong']

/-- What the flags and the violations of an invocation say of its streams. -/
structure Flags (s : InvocationStreams) : Prop where
  violations : s.violations = [] ↔
    (∀ stream, ∀ line ∈ (s.stream stream).lines, ¬ maxResponseLineBytes < line.text.length) ∧
      ¬ maxResponseLineBytes < s.stdout.pending.length
  unfinished : s.stdoutOverBound = true ↔ maxResponseLineBytes < s.stdout.pending.length
  seen : s.stdoutOverBound = true ∨ s.stdoutOverBoundSeen = true ↔
    (∃ line ∈ s.stdout.lines, maxResponseLineBytes < line.text.length) ∨
      maxResponseLineBytes < s.stdout.pending.length

/-- The first part of a split starts with what was pending. -/
theorem pending_le_of_splitOn {pending data rest : Bytes} {raws : List Bytes} (hpending : newline ∉ pending)
    (h : (pending ++ data).splitOn newline = raws ++ [rest]) :
    (raws = [] → pending.length ≤ rest.length) ∧ ∀ raw more, raws = raw :: more → pending.length ≤ raw.length := by
  by_cases hdata : newline ∈ data
  · obtain ⟨before, behind, rfl, hbefore⟩ := List.eq_append_cons_of_mem hdata
    have hfirst : newline ∉ pending ++ before := by
      rw [List.mem_append, not_or]
      exact ⟨hpending, hbefore⟩
    rw [← List.append_assoc, splitOn_append_newline hfirst] at h
    refine ⟨?_, ?_⟩
    · rintro rfl
      have hnil := (List.cons.inj h).2
      exact absurd hnil (List.splitOn_ne_nil _ _)
    · rintro raw more rfl
      rw [← (List.cons.inj h).1, List.length_append]
      omega
  · rw [List.splitOn_eq_singleton (by rw [List.mem_append, not_or]; exact ⟨hpending, hdata⟩)] at h
    refine ⟨?_, ?_⟩
    · rintro rfl
      rw [← (List.cons.inj h).1, List.length_append]
      omega
    · rintro raw more rfl
      have hlength := congrArg List.length h
      simp at hlength

/-- An admitted frame: the lines it completes, and what it leaves in the flags and in the violations. -/
theorem push_admitted {s : InvocationStreams} {eventId invocation offset sequence : Nat} {stream : OutputStream}
    {data : Bytes} (hadmits : s.Admits stream offset sequence) :
    ∃ raws rest, ((s.stream stream).pending ++ data).splitOn newline = raws ++ [rest] ∧
      let s' := s.push eventId invocation stream offset sequence data
      (∃ added : List CompletedLine, (s'.stream stream).lines = (s.stream stream).lines ++ added ∧
        added.map CompletedLine.text = raws.map Utf8.lossy) ∧
      (s'.stream stream).pending = rest ∧ (∀ other, other ≠ stream → s'.stream other = s.stream other) ∧
      (s'.violations = [] ↔ (s.violations = [] ∧ ∀ raw ∈ raws, ¬ TooLong raw) ∧
        (stream = .stdout → (s.stdoutOverBound = true ∧ raws = []) ∨ rest.length ≤ maxResponseLineBytes)) ∧
      (s'.stdoutOverBound = true ↔ (s.stdoutOverBound = true ∧ (stream = .stdout → raws = [])) ∨
        stream = .stdout ∧ maxResponseLineBytes < rest.length) ∧
      (s'.stdoutOverBound = true ∨ s'.stdoutOverBoundSeen = true ↔
        ((s.stdoutOverBound = true ∧ (stream = .stdout → raws = [])) ∨ s.stdoutOverBoundSeen = true ∨
          stream = .stdout ∧ ∃ raw ∈ raws, TooLong raw) ∨ stream = .stdout ∧
              maxResponseLineBytes < rest.length) := by
  obtain ⟨added, hlines, -, raws, rest, hparts, htexts, hrest⟩ := LineStream.drain_spec eventId
    (((s.stream stream).pending ++ data).splitOn newline) ((s.stream stream).extend eventId offset data)
    (List.splitOn_ne_nil _ _)
  have hstreams := (push_spec s eventId invocation stream offset sequence data).streams
  have hself := hstreams stream
  rw [if_pos rfl] at hself
  have hpushed : (s.stream stream).push eventId offset data = ((s.stream stream).extend eventId offset data).drain
      eventId (((s.stream stream).pending ++ data).splitOn newline) := rfl
  set s1 := s.checkFrame eventId invocation stream offset sequence with hs1
  set s2 := s1.setStream stream ((s1.stream stream).extend eventId offset data) with hs2
  set s3 := s2.drainLines invocation eventId stream (((s1.stream stream).pending ++ data).splitOn newline) with hs3
  have hstream1 : s1.stream stream = s.stream stream := stream_checkFrame s _ _ _ _ _ _
  have hviolations1 : s2.violations = s.violations := by
    obtain ⟨extra, hextra, hnone, -⟩ := violations_checkFrame s eventId invocation stream offset sequence
    rw [hnone.mp hadmits, List.append_nil] at hextra
    rw [hs2, ← hextra]
    cases stream <;> rfl
  have hflags1 : s2.stdoutOverBound = s.stdoutOverBound ∧ s2.stdoutOverBoundSeen = s.stdoutOverBoundSeen := by
    rw [hs2, hs1]
    cases stream <;> exact ⟨rfl, rfl⟩
  have hdrained := flags_drainLines invocation eventId stream rest raws s2
  rw [← hparts, ← hstream1, ← hs3, hviolations1, hflags1.1, hflags1.2] at hdrained
  obtain ⟨hviolations, hopen, hseen⟩ := hdrained
  have hpending3 : stream = .stdout → s3.stdout.pending = rest := by
    rintro rfl
    have hstream3 := stream_drainLines invocation eventId .stdout .stdout
      (((s1.stream .stdout).pending ++ data).splitOn newline) s2
    rw [if_pos rfl, ← hs3, hs2, stream_setStream, hstream1] at hstream3
    show (s3.stream .stdout).pending = rest
    rw [hstream3, hrest]
  have hchecked := flags_checkOpenLine s3 invocation stream
  refine ⟨raws, rest, hparts, ⟨added, ?_, htexts⟩, ?_, fun other hother => ?_, ?_, ?_, ?_⟩
  · rw [hself, hpushed, hlines]
    rfl
  · rw [hself, hpushed, hrest]
  · rw [hstreams other, if_neg hother]
  · refine hchecked.1.trans ?_
    rw [hviolations]
    refine and_congr_right fun _ => forall_congr' fun hstdout => ?_
    rw [hopen, hpending3 hstdout]
    simp [hstdout]
  · refine hchecked.2.1.trans ?_
    rw [hopen]
    refine or_congr_right (and_congr_right fun hstdout => ?_)
    rw [hpending3 hstdout]
  · refine hchecked.2.2.trans ?_
    rw [hopen, hseen]
    refine or_congr_right (and_congr_right fun hstdout => ?_)
    rw [hpending3 hstdout]

/-- **An admitted frame keeps what the flags say.** -/
theorem flags_push {s : InvocationStreams} (h : s.Flags) (hunbroken : newline ∉ s.stdout.pending)
    {eventId invocation offset sequence : Nat} {stream : OutputStream} {data : Bytes}
    (hadmits : s.Admits stream offset sequence) :
    (s.push eventId invocation stream offset sequence data).Flags := by
  obtain ⟨raws, rest, hparts, ⟨added, hlines, htexts⟩, hpending, hothers, hviolations, hopen, hseen⟩ :=
    @push_admitted s eventId invocation offset sequence stream data hadmits
  set s' := s.push eventId invocation stream offset sequence data with hs'
  -- the new lines are too long exactly when the parts are
  have hadded : ∀ P : Nat → Prop, (∀ line ∈ added, P line.text.length) ↔
      ∀ raw ∈ raws, P (Utf8.lossy raw).length := by
    intro P
    have hmap : (∀ text ∈ added.map CompletedLine.text, P text.length) ↔
        ∀ text ∈ raws.map Utf8.lossy, P text.length := by rw [htexts]
    simpa only [List.forall_mem_map] using hmap
  have hnone : (∀ line ∈ added, ¬ maxResponseLineBytes < line.text.length) ↔ ∀ raw ∈ raws, ¬ TooLong raw :=
    hadded fun length => ¬ maxResponseLineBytes < length
  have hsome : (∃ line ∈ added, maxResponseLineBytes < line.text.length) ↔ ∃ raw ∈ raws, TooLong raw := by
    have hnot := not_congr hnone
    simpa only [not_forall, not_not, exists_prop] using hnot
  have hshort : (∀ line ∈ (s'.stream stream).lines, ¬ maxResponseLineBytes < line.text.length) ↔
      (∀ line ∈ (s.stream stream).lines, ¬ maxResponseLineBytes < line.text.length) ∧ ∀ raw ∈ raws,
          ¬ TooLong raw := by
    rw [hlines, List.forall_mem_append, hnone]
  have hboth : ∀ P : OutputStream → Prop, (∀ stream, P stream) ↔ P .stdout ∧ P .stderr := fun P =>
    ⟨fun h => ⟨h _, h _⟩, fun h stream => by cases stream <;> [exact h.1; exact h.2]⟩
  have hold := h.violations
  rw [hboth] at hold
  cases stream with
  | stderr =>
    have hstdout : s'.stdout = s.stdout := hothers .stdout (by decide)
    have hkept : s'.stream .stdout = s.stream .stdout := hstdout
    refine ⟨?_, ?_, ?_⟩
    · rw [hviolations, hold, hboth, hkept, hshort, hstdout]
      constructor
      · rintro ⟨⟨⟨⟨hout, herr⟩, hpend⟩, hraws⟩, -⟩
        exact ⟨⟨hout, herr, hraws⟩, hpend⟩
      · rintro ⟨⟨hout, herr, hraws⟩, hpend⟩
        exact ⟨⟨⟨⟨hout, herr⟩, hpend⟩, hraws⟩, by simp⟩
    · rw [hopen, hstdout, ← h.unfinished]
      simp
    · rw [hseen, hstdout, ← h.seen]
      simp
  | stdout =>
    have hkept : s'.stream .stderr = s.stream .stderr := hothers .stderr (by decide)
    have hrest : s'.stdout.pending = rest := hpending
    obtain ⟨hempty, hfirst⟩ := pending_le_of_splitOn hunbroken hparts
    -- a line that was over the bound before the frame is over it behind the frame
    have hcarried : maxResponseLineBytes < s.stdout.pending.length →
        (raws = [] → maxResponseLineBytes < rest.length) ∧ (raws ≠ [] → ∃ raw ∈ raws, TooLong raw) := by
      intro hlong
      refine ⟨fun hnil => hlong.trans_le (hempty hnil), fun hne => ?_⟩
      obtain ⟨raw, more, rfl⟩ := List.exists_cons_of_ne_nil hne
      exact ⟨raw, List.mem_cons_self, hlong.trans_le ((hfirst raw more rfl).trans (Utf8.length_le_lossy raw))⟩
    have hlonger : (∃ line ∈ s'.stdout.lines, maxResponseLineBytes < line.text.length) ↔
        (∃ line ∈ s.stdout.lines, maxResponseLineBytes < line.text.length) ∨ ∃ raw ∈ raws, TooLong raw := by
      rw [show s'.stdout.lines = s.stdout.lines ++ added from hlines, ← hsome]
      simp only [List.mem_append, or_and_right, exists_or]
    refine ⟨?_, ?_, ?_⟩
    · rw [hviolations, hold, hboth, hkept, hshort, hrest]
      constructor
      · rintro ⟨⟨⟨⟨hout, herr⟩, hpend⟩, hraws⟩, hcheck⟩
        refine ⟨⟨⟨hout, hraws⟩, herr⟩, fun hlong => ?_⟩
        obtain ⟨hover, -⟩ | hle := hcheck rfl
        · exact hpend (h.unfinished.mp hover)
        · exact absurd hlong (Nat.not_lt.mpr hle)
      · rintro ⟨⟨⟨hout, hraws⟩, herr⟩, hle⟩
        refine ⟨⟨⟨⟨hout, herr⟩, fun hlong => ?_⟩, hraws⟩, fun _ => .inr (Nat.not_lt.mp hle)⟩
        obtain ⟨hnil, hcons⟩ := hcarried hlong
        by_cases hraws' : raws = []
        · exact hle (hnil hraws')
        · obtain ⟨raw, hraw, htoo⟩ := hcons hraws'
          exact hraws raw hraw htoo
    · rw [hopen, hrest, h.unfinished]
      constructor
      · rintro (⟨hlong, hnil⟩ | ⟨-, hlong⟩)
        · exact (hcarried hlong).1 (hnil rfl)
        · exact hlong
      · exact fun hlong => .inr ⟨rfl, hlong⟩
    · rw [hseen, hlonger, hrest]
      have hseen' := h.seen
      constructor
      · rintro ((⟨hover, hnil⟩ | hflag | ⟨-, hraw⟩) | ⟨-, hlong⟩)
        · exact .inr ((hcarried (h.unfinished.mp hover)).1 (hnil rfl))
        · obtain hline | hlong := hseen'.mp (.inr hflag)
          · exact .inl (.inl hline)
          · by_cases hraws' : raws = []
            · exact .inr ((hcarried hlong).1 hraws')
            · exact .inl (.inr ((hcarried hlong).2 hraws'))
        · exact .inl (.inr hraw)
        · exact .inr hlong
      · rintro ((hline | hraw) | hlong)
        · obtain hover | hflag := hseen'.mpr (.inl hline)
          · by_cases hraws' : raws = []
            · exact .inl (.inl ⟨hover, fun _ => hraws'⟩)
            · exact .inl (.inr (.inr ⟨rfl, (hcarried (h.unfinished.mp hover)).2 hraws'⟩))
          · exact .inl (.inr (.inl hflag))
        · exact .inl (.inr (.inr ⟨rfl, hraw⟩))
        · exact .inr ⟨rfl, hlong⟩

end InvocationStreams

/-! ## A run of frames -/

theorem bytesOf_snoc (frames : List OutputFrame) (frame : OutputFrame) (stream : OutputStream) :
    bytesOf (frames ++ [frame]) stream =
      bytesOf frames stream ++ if frame.stream = stream then frame.data else [] := by
  unfold bytesOf
  rw [List.filter_append, List.flatMap_append]
  by_cases h : frame.stream = stream <;> simp [h]

theorem taggedOf_snoc (frames : List OutputFrame) (frame : OutputFrame) (stream : OutputStream) :
    taggedOf (frames ++ [frame]) stream =
      taggedOf frames stream ++ if frame.stream = stream then tag frame.eventId frame.data else [] := by
  unfold taggedOf
  rw [List.filter_append, List.flatMap_append]
  by_cases h : frame.stream = stream <;> simp [h]

theorem map_fst_tag (eventId : Nat) (data : Bytes) : (tag eventId data).map Prod.fst = data := by
  rw [tag, List.map_map]
  exact List.map_id data

theorem map_fst_taggedOf (frames : List OutputFrame) (stream : OutputStream) :
    (taggedOf frames stream).map Prod.fst = bytesOf frames stream := by
  induction frames using List.reverseRecOn with
  | nil => rfl
  | append_singleton frames frame ih =>
    rw [taggedOf_snoc, bytesOf_snoc, List.map_append, ih]
    split
    · rw [map_fst_tag]
    · rfl

theorem Numbered.initial {frames : List OutputFrame} {frame : OutputFrame} (h : Numbered (frames ++ [frame])) :
    Numbered frames := by
  intro earlier other later heq
  refine h earlier other (later ++ [frame]) ?_
  rw [heq, List.append_assoc, List.cons_append]

theorem Numbered.last {frames : List OutputFrame} {frame : OutputFrame} (h : Numbered (frames ++ [frame])) :
    frame.sequence = frames.length + 1 ∧ frame.sequence < u64Size ∧
      frame.offset = (bytesOf frames frame.stream).length ∧ frame.offset < u64Size :=
  h frames frame [] rfl

theorem numbered_nil : Numbered [] := by
  intro earlier frame later h
  simp at h

theorem Numbered.snoc {frames : List OutputFrame} {frame : OutputFrame} (h : Numbered frames)
    (hlast : frame.sequence = frames.length + 1 ∧ frame.sequence < u64Size ∧
      frame.offset = (bytesOf frames frame.stream).length ∧ frame.offset < u64Size) :
    Numbered (frames ++ [frame]) := by
  intro earlier other later heq
  rcases List.eq_nil_or_concat later with rfl | ⟨before, final, rfl⟩
  · obtain ⟨rfl, hframe⟩ := List.append_inj' heq rfl
    cases hframe
    exact hlast
  · rw [List.concat_eq_append, ← List.cons_append, ← List.append_assoc] at heq
    exact h earlier other before (List.append_inj' heq rfl).1

/-- What the fold has reached after frames. -/
structure Folded (s : InvocationStreams) (frames : List OutputFrame) : Prop where
  sequence : s.sequence = frames.length
  matched : ∀ stream, (s.stream stream).Matches (taggedOf frames stream)
  offsets : ∀ stream, (s.stream stream).offset = min (bytesOf frames stream).length (u64Size - 1)
  flags : s.Flags

theorem folded_default : Folded {} [] := by
  refine ⟨rfl, fun stream => ?_, fun stream => ?_, ⟨?_, ?_, ?_⟩⟩
  · cases stream <;> exact ⟨rfl, rfl, rfl, fun h => absurd rfl h⟩
  · cases stream <;> rfl
  · refine ⟨fun _ => ⟨fun stream => ?_, Nat.not_lt_zero _⟩, fun _ => rfl⟩
    cases stream <;> exact fun _ h => absurd h (List.not_mem_nil)
  · exact ⟨fun h => absurd h Bool.false_ne_true, fun h => absurd h (Nat.not_lt_zero _)⟩
  · constructor
    · rintro (h | h) <;> exact absurd h Bool.false_ne_true
    · rintro (⟨_, h, -⟩ | h)
      · exact absurd h List.not_mem_nil
      · exact absurd h (Nat.not_lt_zero _)

/-- **One frame.** -/
theorem Folded.push {s : InvocationStreams} {frames : List OutputFrame} {frame : OutputFrame} (h : Folded s frames)
    (hnumbered : Numbered (frames ++ [frame])) (invocation : Nat) :
    Folded (s.push frame.eventId invocation frame.stream frame.offset frame.sequence frame.data)
      (frames ++ [frame]) := by
  obtain ⟨hsequence, hlast, hoffset, hsmall⟩ := hnumbered.last
  have hadmits : s.Admits frame.stream frame.offset frame.sequence := by
    refine ⟨checkedAdd_eq_some.mpr ⟨?_, ?_⟩, ?_⟩
    · rw [h.sequence, hsequence]
    · rw [h.sequence, ← hsequence]
      exact hlast
    · rw [h.offsets, ← hoffset]
      omega
  have hpushed := InvocationStreams.push_spec s frame.eventId invocation frame.stream frame.offset frame.sequence
    frame.data
  have hunbroken : newline ∉ (s.stream .stdout).pending := by
    rw [(h.matched .stdout).pending]
    exact newline_not_mem_scan _ (by simp)
  refine ⟨?_, fun stream => ?_, fun stream => ?_, InvocationStreams.flags_push h.flags hunbroken hadmits⟩
  · rw [hpushed.sequence_eq, hsequence, List.length_append]
    rfl
  · rw [hpushed.streams, taggedOf_snoc]
    by_cases hstream : stream = frame.stream
    · subst hstream
      rw [if_pos rfl, if_pos rfl]
      exact LineStream.matches_push (h.matched _) _ _ _
    · rw [if_neg hstream, if_neg (Ne.symm hstream), List.append_nil]
      exact h.matched stream
  · rw [hpushed.streams, bytesOf_snoc]
    by_cases hstream : stream = frame.stream
    · subst hstream
      rw [if_pos rfl, if_pos rfl, LineStream.offset_push, hoffset, List.length_append]
      rfl
    · rw [if_neg hstream, if_neg (Ne.symm hstream), List.append_nil]
      exact h.offsets stream

theorem pushFrames_snoc (invocation : Nat) (frames : List OutputFrame) (frame : OutputFrame) :
    pushFrames invocation (frames ++ [frame]) = (pushFrames invocation frames).push frame.eventId invocation
      frame.stream frame.offset frame.sequence frame.data := by
  unfold pushFrames
  rw [List.foldl_append]
  rfl

/-- **Every run of numbered frames**, by induction on the frames. -/
theorem folded_pushFrames (invocation : Nat) (frames : List OutputFrame) (h : Numbered frames) :
    Folded (pushFrames invocation frames) frames := by
  induction frames using List.reverseRecOn with
  | nil => exact folded_default
  | append_singleton frames frame ih =>
    rw [pushFrames_snoc]
    exact (ih h.initial).push h invocation

/-! ## Where the lines lie -/

/-- A scan splits the bytes at their newlines, and takes the events of a line from its first byte and its
newline. -/
theorem scan_located : ∀ (tagged current : Tagged), newline ∉ current.map Prod.fst →
    ∃ raws, ((current ++ tagged).map Prod.fst).splitOn newline = raws ++ [(scan current tagged).2.map Prod.fst] ∧
      (scan current tagged).1.map CompletedLine.text = raws.map Utf8.lossy ∧
      ∀ before raw after, raws = before ++ raw :: after → ∃ line,
        (scan current tagged).1[before.length]? = some line ∧
        (current ++ tagged)[(LineStream.joinLines before).length]?.map Prod.snd = some line.firstEventId ∧
        (current ++ tagged)[(LineStream.joinLines before).length + raw.length]?.map Prod.snd = some line.eventId
  | [], current, h => by
    refine ⟨[], ?_, rfl, fun before raw after hraws => ?_⟩
    · rw [List.append_nil, List.splitOn_eq_singleton h]
      rfl
    · simp at hraws
  | (byte, eventId) :: rest, current, h => by
    rw [scan]
    by_cases hbyte : byte = newline
    · subst hbyte
      rw [if_pos rfl]
      obtain ⟨raws, hsplit, htexts, hlocated⟩ := scan_located rest [] (by simp)
      refine ⟨current.map Prod.fst :: raws, ?_, congrArg (_ :: ·) htexts, fun before raw after hraws => ?_⟩
      · rw [List.map_append, List.map_cons, splitOn_append_newline h]
        exact congrArg (_ :: ·) hsplit
      · cases before with
        | nil =>
          obtain ⟨hraw, -⟩ := List.cons.inj hraws
          refine ⟨_, rfl, ?_, ?_⟩
          · cases current <;> rfl
          · rw [← hraw, List.length_map]
            simp [LineStream.joinLines]
        | cons first before =>
          obtain ⟨hfirst, htail⟩ := List.cons.inj hraws
          obtain ⟨line, hline, hstart, hend⟩ := hlocated before raw after htail
          -- the line starts behind the newline that ended the first one
          have hjoin : (LineStream.joinLines (first :: before)).length =
              current.length + 1 + (LineStream.joinLines before).length := by
            rw [← hfirst]
            simp only [LineStream.joinLines, List.flatMap_cons, List.length_append, List.length_map,
              List.length_singleton]
          have hshift : ∀ position, (current ++ (newline, eventId) :: rest)[current.length + 1 + position]? =
              rest[position]? := by
            intro position
            rw [List.getElem?_append_right (by omega), show current.length + 1 + position - current.length =
              position + 1 by omega, List.getElem?_cons_succ]
          refine ⟨line, hline, ?_, ?_⟩
          · rw [hjoin, hshift]
            exact hstart
          · rw [hjoin, Nat.add_assoc, hshift]
            exact hend
    · rw [if_neg hbyte]
      have hcurrent : newline ∉ (current ++ [(byte, eventId)]).map Prod.fst := by
        rw [List.map_append, List.mem_append, not_or]
        exact ⟨h, by simpa using fun heq => hbyte heq.symm⟩
      have hstep := scan_located rest (current ++ [(byte, eventId)]) hcurrent
      rwa [List.append_assoc] at hstep

/-- The event at a position of a stream is that of a frame that carried the byte. -/
theorem carries_of_taggedOf {frames : List OutputFrame} (h : Numbered frames) {stream : OutputStream}
    {position eventId : Nat} (hevent : (taggedOf frames stream)[position]?.map Prod.snd = some eventId) :
    ∃ frame ∈ frames, frame.Carries stream position ∧ frame.eventId = eventId := by
  induction frames using List.reverseRecOn with
  | nil => simp [taggedOf] at hevent
  | append_singleton frames frame ih =>
    rw [taggedOf_snoc] at hevent
    have hlength : (taggedOf frames stream).length = (bytesOf frames stream).length := by
      rw [← map_fst_taggedOf, List.length_map]
    by_cases hposition : position < (taggedOf frames stream).length
    · rw [List.getElem?_append_left hposition] at hevent
      obtain ⟨other, hother, hcarries⟩ := ih h.initial hevent
      exact ⟨other, List.mem_append_left _ hother, hcarries⟩
    · rw [List.getElem?_append_right (Nat.le_of_not_lt hposition)] at hevent
      split at hevent
      · rename_i hstream
        obtain ⟨-, -, hoffset, -⟩ := h.last
        rw [hstream, ← hlength] at hoffset
        rw [tag, List.getElem?_map, Option.map_map, Option.map_eq_some_iff] at hevent
        obtain ⟨byte, hbyte, hid⟩ := hevent
        obtain ⟨hin, -⟩ := List.getElem?_eq_some_iff.mp hbyte
        exact ⟨frame, List.mem_append_right _ List.mem_cons_self, ⟨hstream, by omega, by omega⟩, hid⟩
      · simp at hevent

/-! ## The independence -/

/-- Two reconstructions differ at most in the events of their lines and in the texts of their violations. -/
structure Alike (invocation : Nat) (s s' : InvocationStreams) : Prop where
  bytes : ∀ stream, (s.stream stream).bytes = (s'.stream stream).bytes
  texts : ∀ stream, (s.stream stream).lines.map CompletedLine.text =
    (s'.stream stream).lines.map CompletedLine.text
  pending : ∀ stream, (s.stream stream).pending = (s'.stream stream).pending
  overBound : ∀ t t' : WorkloadTrace,
    (t.setStreams invocation s).overBoundLine invocation = (t'.setStreams invocation s').overBoundLine invocation
  violations : s.violations = [] ↔ s'.violations = []

/-- The lines are the parts of the stream that end with a newline, and the events of a line are those of the
frames that carried its first byte and its newline. -/
def Located (frames : List OutputFrame) (stream : OutputStream) (l : LineStream) : Prop :=
  ∃ raws, l.bytes.splitOn newline = raws ++ [l.pending] ∧ l.lines.map CompletedLine.text = raws.map Utf8.lossy ∧
    ∀ before raw after, raws = before ++ raw :: after → ∃ line, l.lines[before.length]? = some line ∧
      (∃ frame ∈ frames, frame.Carries stream (LineStream.joinLines before).length ∧
        frame.eventId = line.firstEventId) ∧
      ∃ frame ∈ frames, frame.Carries stream ((LineStream.joinLines before).length + raw.length) ∧
        frame.eventId = line.eventId

theorem Folded.located {s : InvocationStreams} {frames : List OutputFrame} (h : Folded s frames)
    (hnumbered : Numbered frames) (stream : OutputStream) : Located frames stream (s.stream stream) := by
  have hmatched := h.matched stream
  obtain ⟨raws, hsplit, htexts, hlocated⟩ := scan_located (taggedOf frames stream) [] (by simp)
  refine ⟨raws, ?_, ?_, fun before raw after hraws => ?_⟩
  · rw [hmatched.bytes, hmatched.pending]
    exact hsplit
  · rw [hmatched.lines]
    exact htexts
  · obtain ⟨line, hline, hstart, hend⟩ := hlocated before raw after hraws
    rw [← hmatched.lines] at hline
    exact ⟨line, hline, carries_of_taggedOf hnumbered hstart, carries_of_taggedOf hnumbered hend⟩

/-- The longest line decides, so the texts and the pending bytes do. -/
theorem InvocationStreams.Flags.alike {s s' : InvocationStreams} (h : s.Flags) (h' : s'.Flags)
    (htexts : ∀ stream, (s.stream stream).lines.map CompletedLine.text =
      (s'.stream stream).lines.map CompletedLine.text)
    (hpending : ∀ stream, (s.stream stream).pending = (s'.stream stream).pending) :
    (s.violations = [] ↔ s'.violations = []) ∧ (s.stdoutOverBound = true ∨ s.stdoutOverBoundSeen = true ↔
      s'.stdoutOverBound = true ∨ s'.stdoutOverBoundSeen = true) := by
  have hall : ∀ stream, (∀ line ∈ (s.stream stream).lines, ¬ maxResponseLineBytes < line.text.length) ↔
      ∀ line ∈ (s'.stream stream).lines, ¬ maxResponseLineBytes < line.text.length := by
    intro stream
    have hmap : (∀ text ∈ (s.stream stream).lines.map CompletedLine.text, ¬ maxResponseLineBytes < text.length) ↔
        ∀ text ∈ (s'.stream stream).lines.map CompletedLine.text, ¬ maxResponseLineBytes < text.length := by
      rw [htexts]
    simpa only [List.forall_mem_map] using hmap
  have hany : (∃ line ∈ (s.stream .stdout).lines, maxResponseLineBytes < line.text.length) ↔
      ∃ line ∈ (s'.stream .stdout).lines, maxResponseLineBytes < line.text.length := by
    have hnot := not_congr (hall .stdout)
    simpa only [not_forall, not_not, exists_prop] using hnot
  have hstdout : s.stdout.pending = s'.stdout.pending := hpending .stdout
  refine ⟨?_, ?_⟩
  · rw [h.violations, h'.violations, hstdout]
    exact and_congr_left' (forall_congr' hall)
  · rw [h.seen, h'.seen, hstdout]
    exact or_congr_left hany

/-- **Two framings of the same bytes are read alike**, and each locates its lines in its own frames. -/
theorem framing_independent (invocation : Nat) {stdout stderr : Bytes} {frames frames' : List OutputFrame}
    (h : Framing stdout stderr frames) (h' : Framing stdout stderr frames') :
    (pushFrames invocation frames).stdout.bytes = stdout ∧ (pushFrames invocation frames).stderr.bytes = stderr ∧
      Alike invocation (pushFrames invocation frames) (pushFrames invocation frames') ∧
      (∀ stream, Located frames stream ((pushFrames invocation frames).stream stream)) ∧
      ∀ stream, Located frames' stream ((pushFrames invocation frames').stream stream) := by
  have hfolded := folded_pushFrames invocation frames h.numbered
  have hfolded' := folded_pushFrames invocation frames' h'.numbered
  set s := pushFrames invocation frames
  set s' := pushFrames invocation frames'
  have hbytes : ∀ stream, (s.stream stream).bytes = bytesOf frames stream := fun stream => by
    rw [(hfolded.matched stream).bytes, map_fst_taggedOf]
  have hbytes' : ∀ stream, (s'.stream stream).bytes = bytesOf frames' stream := fun stream => by
    rw [(hfolded'.matched stream).bytes, map_fst_taggedOf]
  have hsame : ∀ stream, (s.stream stream).bytes = (s'.stream stream).bytes := by
    intro stream
    rw [hbytes, hbytes']
    cases stream with
    | stdout => exact h.stdout.trans h'.stdout.symm
    | stderr => exact h.stderr.trans h'.stderr.symm
  have hlocated := hfolded.located h.numbered
  have hlocated' := hfolded'.located h'.numbered
  -- both split the same bytes
  have hread : ∀ stream, (s.stream stream).lines.map CompletedLine.text =
      (s'.stream stream).lines.map CompletedLine.text ∧
          (s.stream stream).pending = (s'.stream stream).pending := by
    intro stream
    obtain ⟨raws, hsplit, htexts, -⟩ := hlocated stream
    obtain ⟨raws', hsplit', htexts', -⟩ := hlocated' stream
    rw [hsame, hsplit'] at hsplit
    obtain ⟨hraws, hpending⟩ := List.append_inj' hsplit rfl
    rw [htexts, htexts', hraws]
    exact ⟨rfl, (List.cons.inj hpending).1.symm⟩
  obtain ⟨hviolations, hseen⟩ := hfolded.flags.alike hfolded'.flags (fun stream => (hread stream).1)
    fun stream => (hread stream).2
  refine ⟨(hbytes .stdout).trans h.stdout, (hbytes .stderr).trans h.stderr,
    ⟨hsame, fun stream => (hread stream).1, fun stream => (hread stream).2, fun t t' => ?_, hviolations⟩, hlocated,
    hlocated'⟩
  unfold WorkloadTrace.overBoundLine
  rw [WorkloadTrace.streams_setStreams, WorkloadTrace.streams_setStreams, if_pos rfl, if_pos rfl, Bool.eq_iff_iff,
    Bool.or_eq_true, Bool.or_eq_true]
  exact hseen

/-- One frame with all the bytes. -/
def wholeFrames : List OutputFrame := [⟨1, .stdout, 0, 1, [97, 10, 98]⟩]

/-- The same bytes, cut between a line and its newline, with an empty frame of the other stream there. -/
def cutFrames : List OutputFrame := [⟨1, .stdout, 0, 1, [97]⟩, ⟨2, .stderr, 0, 2, []⟩,
    ⟨3, .stdout, 1, 3, [10, 98]⟩]

theorem framing_wholeFrames : Framing [97, 10, 98] [] wholeFrames :=
  ⟨numbered_nil.snoc (by decide), rfl, rfl⟩

theorem framing_cutFrames : Framing [97, 10, 98] [] cutFrames :=
  ⟨((numbered_nil.snoc (by decide)).snoc (by decide)).snoc (by decide), rfl, rfl⟩

theorem framing_independent_sample : Alike 1 (pushFrames 1 wholeFrames) (pushFrames 1 cutFrames) :=
  (framing_independent 1 framing_wholeFrames framing_cutFrames).2.2.1

end SimFerret.Checker
