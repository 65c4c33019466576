import SimFerret.Checker.Growth
import SimFerret.Lib.Lines
import SimFerret.Lib.PrefixCode

/-!
# SimFerret.Checker.Stderr — how many stderr bytes an invocation wrote (`checker.rs`)

`stderr_bytes` and the stderr failure of `response_integrity` add the whole stream and its unfinished line.

* `acceptedStderr`: the bytes of the frames that the trace took.
* `Accounts.foldl`: the stream is these bytes, the pending bytes are their unfinished line.
* `responseIntegrity_stderr`: the failure names the same sum as `stderrBytes`.
* `stderrCounted_iff`: **the count is right exactly when no line is unfinished**; the bytes of an unfinished
  line are counted twice.
-/

namespace SimFerret.Checker

open WorkloadTrace

/-! ## The bytes that were accepted -/

/-- The stderr bytes that the trace takes of a frame. -/
def WorkloadTrace.takenStderr (t : WorkloadTrace) (frame : EventFrame) (invocation : Nat) : Bytes :=
  if t.started invocation && !t.exited invocation then outputOf frame invocation .stderr else []

/-- The stderr bytes that a trace takes of further frames. -/
def takenFrom (invocation : Nat) : WorkloadTrace → List EventFrame → Bytes
  | _, [] => []
  | t, frame :: frames => t.takenStderr frame invocation ++ takenFrom invocation (t.push frame) frames

/-- The stderr bytes decoded from the output frames that were accepted for an invocation. -/
def acceptedStderr (events : List EventFrame) (invocation : Nat) : Bytes := takenFrom invocation {} events

/-- The stream took these bytes. -/
structure Accounts (l : LineStream) (bytes : Bytes) : Prop where
  bytes_eq : l.bytes = bytes
  pending_eq : l.pending = unfinishedLine newline bytes

section Stream

variable {t : WorkloadTrace} {k : Nat} {l : LineStream} {bytes : Bytes}

theorem LineStream.pending_push (l : LineStream) (eventId offset : Nat) (data : Bytes) :
    (l.push eventId offset data).pending = unfinishedLine newline (l.pending ++ data) := by
  obtain ⟨added, -, -, raws, rest, hparts, -, hpending⟩ :=
    LineStream.drain_spec eventId ((l.pending ++ data).splitOn newline) (l.extend eventId offset data)
      (List.splitOn_ne_nil _ _)
  rw [LineStream.push, hpending]
  rw [splitOn_eq_lines] at hparts
  exact (List.singleton_inj.mp (List.append_inj_right' hparts rfl)).symm

theorem Accounts.push (h : Accounts l bytes) (eventId offset : Nat) (data : Bytes) :
    Accounts (l.push eventId offset data) (bytes ++ data) := by
  constructor
  · rw [LineStream.bytes_push, h.bytes_eq]
  · rw [LineStream.pending_push, h.pending_eq, unfinishedLine_append newline bytes data]

/-- A frame that carries no output leaves the stream as it is. -/
theorem WorkloadTrace.stderr_push_other {frame : EventFrame} (h : isOutputOf frame k = false) :
    ((t.push frame).streams k).stderr = (t.streams k).stderr := by
  rcases t.streams_push frame k with heq | ⟨hout, -⟩ | ⟨offset, bytes, eof, heq⟩
  · rw [heq]
  · rw [h] at hout
    cases hout
  · rw [heq, InvocationStreams.stderr_pushInput]

/-- An output frame is refused, and nothing is taken of it, or its bytes reach the stream. -/
theorem WorkloadTrace.push_output {frame : EventFrame} {stream : OutputStream} {offset sequence : Nat}
    {text : Text} (hev : frame.event = .workloadOutput k stream offset sequence text) :
    (∃ v, t.push frame = t.violate v ∧ t.takenStderr frame k = []) ∨
    ∃ data, t.push frame = t.setStreams k ((t.streams k).push frame.eventId k stream offset sequence data) ∧
      t.takenStderr frame k = if stream = .stderr then data else [] := by
  by_cases hstarted : t.started k = true
  · by_cases hexited : t.exited k = true
    · exact .inl ⟨.afterExit "output frame" k frame.eventId, by simp [WorkloadTrace.push, hev, hstarted, hexited],
        by simp [takenStderr, hexited]⟩
    · cases hd : decodeBytes text maxOutputFrameBytes with
      | error e =>
        exact .inl ⟨.unreadableFrame k frame.eventId, by simp [WorkloadTrace.push, hev, hstarted, hexited, hd],
          by simp [takenStderr, outputOf, hev, hd, Except.toOption]⟩
      | ok data =>
        refine .inr ⟨data, by simp [WorkloadTrace.push, hev, hstarted, hexited, hd], ?_⟩
        simp [takenStderr, outputOf, hev, hd, hstarted, hexited, Except.toOption]
  · exact .inl ⟨.beforeStart "output frame" k frame.eventId, by simp [WorkloadTrace.push, hev, hstarted],
      by simp [takenStderr, hstarted]⟩

theorem WorkloadTrace.takenStderr_other {frame : EventFrame} (h : isOutputOf frame k = false) :
    t.takenStderr frame k = [] := by
  have hnone : outputOf frame k .stderr = [] := by
    cases hev : frame.event
    case workloadOutput i stream offset sequence text =>
      have hne : i ≠ k := by simpa [isOutputOf, hev] using h
      simp [outputOf, hev, hne]
    all_goals simp [outputOf, hev]
  rw [takenStderr, hnone, ite_self]

/-- One frame adds to the stream what the trace takes of it. -/
theorem Accounts.frame (h : Accounts (t.streams k).stderr bytes) (frame : EventFrame) :
    Accounts ((t.push frame).streams k).stderr (bytes ++ t.takenStderr frame k) := by
  by_cases hout : isOutputOf frame k = true
  · obtain ⟨stream, offset, sequence, text, hev⟩ : ∃ stream offset sequence text,
        frame.event = .workloadOutput k stream offset sequence text := by
      unfold isOutputOf at hout
      split at hout
      · next i stream offset sequence text hev => exact ⟨stream, offset, sequence, text, eq_of_beq hout ▸ hev⟩
      · cases hout
    rcases t.push_output hev with ⟨v, hpush, hnone⟩ | ⟨data, hpush, htaken⟩
    · rw [hpush, hnone, List.append_nil]
      exact h
    · rw [hpush, htaken, streams_setStreams, if_pos rfl, InvocationStreams.stderr_push]
      by_cases hstream : stream = .stderr
      · rw [if_pos hstream, if_pos hstream.symm]
        exact h.push frame.eventId offset data
      · rw [if_neg hstream, if_neg (Ne.symm hstream), List.append_nil]
        exact h
  · rw [Bool.not_eq_true] at hout
    rw [takenStderr_other hout, List.append_nil, stderr_push_other hout]
    exact h

/-- A fold adds what it takes of each frame. -/
theorem Accounts.foldl (frames : List EventFrame) : ∀ {t : WorkloadTrace} {bytes : Bytes},
    Accounts (t.streams k).stderr bytes →
      Accounts ((frames.foldl WorkloadTrace.push t).streams k).stderr (bytes ++ takenFrom k t frames) := by
  induction frames with
  | nil =>
    intro t bytes h
    rw [takenFrom, List.append_nil]
    exact h
  | cons frame frames ih =>
    intro t bytes h
    rw [takenFrom, ← List.append_assoc]
    exact ih (h.frame frame)

theorem accounts_ofEvents (events : List EventFrame) (k : Nat) :
    Accounts ((ofEvents events).streams k).stderr (acceptedStderr events k) := by
  have hempty : Accounts (({} : WorkloadTrace).streams k).stderr [] := by
    rw [streams_default]
    exact ⟨rfl, rfl⟩
  exact hempty.foldl events

end Stream

/-! ## The failure of `response_integrity` -/

/-- The stderr failure of `response_integrity`. -/
def stderrFailure (invocation count : Nat) : Text :=
  "invocation " ++ decimal invocation ++ " wrote " ++ decimal count ++ " stderr byte(s)"

/-- Two bytes of a failure's text that say which failure it is: those behind its second word. -/
def failureMark (detail : Text) : Text := ((detail.drop 11).dropWhile (· != 32)).take 2

/-- The mark of the stderr failure. -/
def stderrMark : Text := " w"

section Failure

variable {t : WorkloadTrace} {choices : WorkloadChoicePlan} {sha256 : Sha256} {detail : Text}

theorem bind_eq_error {α β ε : Type} {x : Except ε α} {f : α → Except ε β} {e : ε} :
    (x >>= f) = .error e ↔ x = .error e ∨ ∃ a, x = .ok a ∧ f a = .error e := by
  cases x with
  | error e' => simp [bind, Except.bind]
  | ok a => simp [bind, Except.bind]

theorem demand_eq_error {c : Bool} {d : Text} : demand c d = .error detail ↔ c = false ∧ d = detail := by
  unfold demand
  cases c <;> simp

theorem demandNone_eq_error {α : Type} {v : Option α} {d : α → Text} :
    demandNone v d = .error detail ↔ ∃ a, v = some a ∧ d a = detail := by
  cases v <;> simp [demandNone]

theorem forM_eq_error {α ε : Type} {f : α → Except ε Unit} {e : ε} : ∀ {l : List α}, l.forM f = .error e →
    ∃ a ∈ l, f a = .error e
  | [], h => by cases h
  | a :: l, h => by
    rw [show (a :: l).forM f = (f a >>= fun _ => l.forM f) from rfl, bind_eq_error] at h
    rcases h with h | ⟨_, -, h⟩
    · exact ⟨a, List.mem_cons_self, h⟩
    · obtain ⟨b, hb, h⟩ := forM_eq_error h
      exact ⟨b, List.mem_cons_of_mem _ hb, h⟩

theorem space_notMem_decimal (n : Nat) : 32 ∉ decimal n :=
  fun hmem => absurd (mem_digits (by omega) (by omega) hmem).1 (by decide)

/-- The mark of a failure that names an invocation. -/
theorem failureMark_invocation (invocation : Nat) (mark : UInt8) (rest : Text) :
    failureMark (utf8 "invocation " ++ (decimal invocation ++ 32 :: mark :: rest)) = [32, mark] := by
  have hdrop : (utf8 "invocation " ++ (decimal invocation ++ 32 :: mark :: rest)).drop 11 =
      decimal invocation ++ 32 :: mark :: rest := rfl
  have hdigits : ∀ b ∈ decimal invocation, (b != 32) = true := by
    intro b hb
    rw [bne_iff_ne]
    rintro rfl
    exact space_notMem_decimal invocation hb
  rw [failureMark, hdrop, List.dropWhile_append_of_pos hdigits]
  rfl

theorem failureMark_stderrFailure (invocation count : Nat) :
    failureMark (stderrFailure invocation count) = stderrMark := by
  simp only [stderrFailure, List.append_assoc]
  exact failureMark_invocation invocation 119 _

/-- The text names its invocation and its count. -/
theorem stderrFailure_inj {invocation invocation' count count' : Nat}
    (h : stderrFailure invocation count = stderrFailure invocation' count') : invocation = invocation' ∧
      count = count' := by
  have hfield : Delimits (fun _ : Nat => True) (fun n => decimal n ++ [32]) decimal :=
    delimits_terminated fun n _ => space_notMem_decimal n
  have hinj : ∀ {m n : Nat}, decimal m = decimal n → m = n := by
    intro m n heq
    rw [← digitsValue_decimal m, heq, digitsValue_decimal]
  have hfields : ∀ i c, stderrFailure i c = utf8 "invocation " ++ ((decimal i ++ [32]) ++
      (utf8 "wrote " ++ ((decimal c ++ [32]) ++ utf8 "stderr byte(s)"))) := by
    intro i c
    simp only [stderrFailure, List.append_assoc]
    rfl
  rw [hfields, hfields] at h
  obtain ⟨hinvocation, h⟩ := hfield _ _ trivial trivial _ _ (List.append_cancel_left h)
  obtain ⟨hcount, -⟩ := hfield _ _ trivial trivial _ _ (List.append_cancel_left h)
  exact ⟨hinj hinvocation, hinj hcount⟩

/-- The checks of the responses have failures of their own. -/
theorem invocationResponses_error {invocation : Nat}
    (h : invocationResponses t choices invocation = .error detail) :
    failureMark detail ≠ stderrMark := by
  rcases bind_eq_error.mp h with h | ⟨_, -, h⟩
  · rw [← (demand_eq_error.mp h).2]
    simp only [List.append_assoc]
    exact (failureMark_invocation invocation 112 _).trans_ne (by decide)
  rcases bind_eq_error.mp h with h | ⟨_, -, h⟩
  · obtain ⟨index, -, htext⟩ := demandNone_eq_error.mp h
    rw [← htext]
    simp only [List.append_assoc]
    exact (failureMark_invocation invocation 114 _).trans_ne (by decide)
  rcases bind_eq_error.mp h with h | ⟨_, -, h⟩
  · rw [← (demand_eq_error.mp h).2]
    simp only [List.append_assoc]
    exact (failureMark_invocation invocation 97 _).trans_ne (by decide)
  · obtain ⟨index, -, htext⟩ := demandNone_eq_error.mp h
    rw [← htext]
    simp only [List.append_assoc]
    exact (failureMark_invocation invocation 114 _).trans_ne (by decide)

/-- The stderr failure of an exit record names the sum of `stderr_bytes`. -/
theorem exitTotals_error {exit : ExitRecord} (h : exitTotals sha256 t exit = .error detail)
    (hmark : failureMark detail = stderrMark) :
    detail = stderrFailure exit.invocation (t.stderrBytes exit.invocation) := by
  have hended : ∀ rest, failureMark (utf8 "invocation " ++ (decimal exit.invocation ++ 32 :: 101 :: rest)) ≠
      stderrMark :=
    fun rest => (failureMark_invocation exit.invocation 101 rest).trans_ne (by decide)
  rcases bind_eq_error.mp h with h | ⟨_, -, h⟩
  · rw [← (demand_eq_error.mp h).2] at hmark
    simp only [List.append_assoc] at hmark
    exact absurd hmark (hended _)
  rcases bind_eq_error.mp h with h | ⟨_, -, h⟩
  · rw [← (demand_eq_error.mp h).2]
    rfl
  rcases bind_eq_error.mp h with h | ⟨_, -, h⟩
  · rw [← (demand_eq_error.mp h).2] at hmark
    simp only [List.append_assoc] at hmark
    exact absurd hmark (hended _)
  · rw [← (demand_eq_error.mp h).2] at hmark
    simp only [List.append_assoc] at hmark
    exact absurd hmark (hended _)

/-- **The stderr failure names the sum of `stderr_bytes`.** -/
theorem responseIntegrity_stderr {invocation count : Nat}
    (h : responseIntegrity sha256 t choices = .error (stderrFailure invocation count)) :
    count = t.stderrBytes invocation := by
  have hmark := failureMark_stderrFailure invocation count
  rcases bind_eq_error.mp h with h | ⟨_, -, h⟩
  · exact absurd hmark (invocationResponses_error h)
  rcases bind_eq_error.mp h with h | ⟨_, -, h⟩
  · exact absurd hmark (invocationResponses_error h)
  rcases bind_eq_error.mp h with h | ⟨_, -, h⟩
  · obtain ⟨line, -, htext⟩ := demandNone_eq_error.mp h
    rw [← htext] at hmark
    cases hmark
  rcases bind_eq_error.mp h with h | ⟨_, -, h⟩
  · obtain ⟨exit, -, herror⟩ := forM_eq_error h
    obtain ⟨rfl, rfl⟩ := stderrFailure_inj (exitTotals_error herror hmark)
    rfl
  rcases bind_eq_error.mp h with h | ⟨_, -, h⟩
  · obtain ⟨v, -, htext⟩ := demandNone_eq_error.mp h
    rw [← htext] at hmark
    cases hmark
  · cases h

end Failure

/-! ## When the count is right -/

/-- `stderr_bytes`, and whatever count the stderr failure names for the invocation, is the number of bytes
accepted. -/
structure StderrCounted (sha256 : Sha256) (choices : WorkloadChoicePlan) (events : List EventFrame)
    (invocation : Nat) : Prop where
  bytes : (ofEvents events).stderrBytes invocation = (acceptedStderr events invocation).length
  failure : ∀ count, responseIntegrity sha256 (ofEvents events) choices = .error (stderrFailure invocation count) →
    count = (acceptedStderr events invocation).length

/-- The stream has no unfinished line. -/
def EndsLine (bytes : Bytes) : Prop := bytes = [] ∨ bytes.getLast? = some newline

instance (bytes : Bytes) : Decidable (EndsLine bytes) := inferInstanceAs (Decidable (_ ∨ _))

/-- The bytes of an unfinished line are counted twice. -/
theorem stderrBytes_eq (events : List EventFrame) (invocation : Nat) : (ofEvents events).stderrBytes invocation =
    (acceptedStderr events invocation).length +
      (unfinishedLine newline (acceptedStderr events invocation)).length := by
  have haccounts := accounts_ofEvents events invocation
  rw [stderrBytes, haccounts.pending_eq, haccounts.bytes_eq]

theorem stderrBytes_exact (events : List EventFrame) (invocation : Nat) :
    (ofEvents events).stderrBytes invocation = (acceptedStderr events invocation).length ↔
      EndsLine (acceptedStderr events invocation) := by
  rw [stderrBytes_eq, EndsLine, ← unfinishedLine_eq_nil, Nat.add_eq_left, List.length_eq_zero_iff]

/-- **The count is right exactly when no stderr line is unfinished**, and so is the count that a stderr failure
names. -/
theorem stderrCounted_iff (sha256 : Sha256) (choices : WorkloadChoicePlan) (events : List EventFrame)
    (invocation : Nat) : (StderrCounted sha256 choices events invocation ↔
    EndsLine (acceptedStderr events invocation)) ∧
    ∀ count, responseIntegrity sha256 (ofEvents events) choices = .error (stderrFailure invocation count) →
      (count = (acceptedStderr events invocation).length ↔ EndsLine (acceptedStderr events invocation)) := by
  have hexact := stderrBytes_exact events invocation
  refine ⟨⟨fun h => hexact.mp h.bytes, fun h => ⟨hexact.mpr h, fun count hfailure => ?_⟩⟩,
    fun count hfailure => ?_⟩
  · rw [responseIntegrity_stderr hfailure]
    exact hexact.mpr h
  · rw [responseIntegrity_stderr hfailure]
    exact hexact

/-- The digests of the run: those of the passing run, and that of `oops`. -/
def unfinishedSha256 : Sha256 := fun bytes =>
  if bytes = utf8 "oops" then
    match decodePairs "d13f2eadd4ed5b027fa773a29520cc0d65ce374365d641112de786f8a029c2fe" with
    | .ok digest => digest
    | .error _ => []
  else sampleSha256 bytes

/-- The passing run, but its second invocation writes `oops` to stderr before it exits. -/
def unfinishedRun : List (Nat × Event) :=
  let out := LineStream.joinLines (expectedLines samplePlan 2)
  sampleRun.take (sampleRun.length - 3) ++
    [(16, .workloadOutput 2 .stderr 0 6 (encodeBytes "oops")),
      (16, .workloadExited 2 (.exited 0) out.length (sha256Hex unfinishedSha256 out) 4
        (sha256Hex unfinishedSha256 "oops") 6),
      (16, .cleanupComplete 2 1), (17, .agentStopped)]

def unfinishedEvents : List EventFrame :=
  unfinishedRun.zipIdx.map fun entry => ⟨protocolVersion, entry.2 + 1, entry.1.1, entry.1.2, {}⟩

/-- The four bytes are reported as eight. -/
theorem stderr_counted_twice : (ofEvents unfinishedEvents).allViolations = [] ∧
    acceptedStderr unfinishedEvents 2 = "oops" ∧ (ofEvents unfinishedEvents).stderrBytes 2 = 8 ∧
    responseIntegrity unfinishedSha256 (ofEvents unfinishedEvents) samplePlan = .error (stderrFailure 2 8) ∧
    ¬ ∀ sha256 choices events invocation, StderrCounted sha256 choices events invocation := by
  have htaken : acceptedStderr unfinishedEvents 2 = "oops" := by decide +kernel
  have hbytes : (ofEvents unfinishedEvents).stderrBytes 2 = 8 := by decide +kernel
  refine ⟨by decide +kernel, htaken, hbytes, by decide +kernel, fun hall => ?_⟩
  have hcounted := (hall unfinishedSha256 samplePlan unfinishedEvents 2).bytes
  rw [htaken, hbytes] at hcounted
  cases hcounted

theorem stderrCounted_iff_sample : ¬ EndsLine (acceptedStderr unfinishedEvents 2) ∧
    ¬ StderrCounted unfinishedSha256 samplePlan unfinishedEvents 2 ∧
    StderrCounted unfinishedSha256 samplePlan sampleEvents 2 := by
  have hunfinished : ¬ EndsLine (acceptedStderr unfinishedEvents 2) := by decide +kernel
  have hsilent : EndsLine (acceptedStderr sampleEvents 2) := by decide +kernel
  have hfailure : responseIntegrity unfinishedSha256 (ofEvents unfinishedEvents) samplePlan =
      .error (stderrFailure 2 8) := by
    decide +kernel
  obtain ⟨hcounted, hnamed⟩ := stderrCounted_iff unfinishedSha256 samplePlan unfinishedEvents 2
  have hwrong : 8 ≠ (acceptedStderr unfinishedEvents 2).length :=
    fun heq => hunfinished ((hnamed 8 hfailure).mp heq)
  exact ⟨hunfinished, fun h => hwrong (h.failure 8 hfailure),
    (stderrCounted_iff unfinishedSha256 samplePlan sampleEvents 2).1.mpr hsilent⟩

end SimFerret.Checker
