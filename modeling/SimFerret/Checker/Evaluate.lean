import SimFerret.Assertions
import SimFerret.Checker.Trace

/-!
# SimFerret.Checker.Evaluate — the report of one workload run (`checker.rs`)

`evaluateWorkload` folds the frames into a trace and evaluates `processSafety`, `responseIntegrity` and the
properties of the fault, `controlledOutage`, `restorationResult` and `boundedRecovery`.  An evaluator that
returns early with a failed assertion is an `Except` chain whose error is the detail of the failure (`assertion`).
-/

namespace SimFerret.Checker

open Workload (LaunchIdentity)

def readyLine : Text := "ready version=1"
def freshStateLine : Text := "state value=fresh root=fresh"
def stateLinePrefix : Text := "state value="
def escapedDescendantLine : Text := "descendant state=escaped"

/-- The deterministic echo token for one invocation. -/
def echoToken (seed : UInt64) (invocation : Nat) : Text :=
  "echo-" ++ decimal invocation ++ "-" ++ hexPadded 16 seed.toNat

/-- The phase one request belongs to, given the seeded fault transitions. -/
def requestPhase (index activation restoration : Nat) : RequestPhase :=
  if index < activation then .preOutage else if index < restoration then .outage else .recovery

/-- The exact response line the fixture emits for one planned request in one phase. -/
def expectedNetworkLine (request : PlannedRequest) : RequestPhase → Text
  | .outage => "network state=unavailable request=" ++ request.requestId ++ " errno=" ++ decimal eacces
  | .preOutage | .recovery => "network state=ok request=" ++ request.requestId

/-- `{:?}` of `ProcessExit`. -/
def processExitDebug : ProcessExit → Text
  | .exited code => "Exited \x7b code: " ++ decimalInt code ++ " \x7d"
  | .signaled signal => "Signaled \x7b signal: " ++ decimalInt signal ++ " \x7d"

/-- `passed(name, detail)` or `failed(name, detail)`. -/
def assertion (name : AssertionName) : Except Text Text → AssertionResult
  | .ok detail => ⟨name, true, detail⟩
  | .error detail => ⟨name, false, detail⟩

/-- `if !condition { return failed(name, detail) }`. -/
def demand (condition : Bool) (detail : Text) : Except Text Unit := if condition then .ok () else .error detail

/-- `let Some(value) = value else { return failed(name, detail) }`. -/
def demandSome {α : Type} (value : Option α) (detail : Text) : Except Text α :=
  match value with
  | some a => .ok a
  | none => .error detail

/-- `if let Some(value) = value { return failed(name, detail(value)) }`. -/
def demandNone {α : Type} (value : Option α) (detail : α → Text) : Except Text Unit :=
  match value with
  | some a => .error (detail a)
  | none => .ok ()

@[simp] theorem demand_eq_ok {c : Bool} {d : Text} {u : Unit} : demand c d = .ok u ↔ c = true := by
  unfold demand
  cases c <;> simp

@[simp] theorem demandSome_eq_ok {α : Type} {v : Option α} {d : Text} {a : α} :
    demandSome v d = .ok a ↔ v = some a := by
  cases v <;> simp [demandSome]

@[simp] theorem demandNone_eq_ok {α : Type} {v : Option α} {d : α → Text} {u : Unit} :
    demandNone v d = .ok u ↔ v = none := by
  cases v <;> simp [demandNone]

theorem assertion_passed {name : AssertionName} {r : Except Text Text} (h : (assertion name r).passed = true) :
    ∃ detail, r = .ok detail := by
  cases r with
  | ok detail => exact ⟨detail, rfl⟩
  | error detail => exact absurd h Bool.false_ne_true

def processSafety (t : WorkloadTrace) (choices : WorkloadChoicePlan) (launch : LaunchIdentity) :
    Except Text Text := do
  demandNone t.allViolations.head? fun v => "stream structure violation: " ++ v.message
  demandNone t.launchFailures.head? fun failure => "invocation " ++ decimal failure.invocation ++
    " reported launch failure " ++ launchFailureDebug failure.failure
  demand (t.starts.length == 2)
    ("expected exactly two workload starts, observed " ++ decimal t.starts.length)
  demand (t.starts.map (fun s => (s.invocation, s.launch)) == [(1, launch), (2, launch)])
    "the started invocation identities do not match the materialized workload"
  demand (t.terminations.length == 1)
    ("expected exactly one termination record, observed " ++ decimal t.terminations.length)
  let terminated ← demandSome (t.terminations.find? (·.invocation == 1))
    "the first invocation was never terminated"
  demand (terminated.signal == terminationSignal)
    ("termination signal " ++ decimalInt terminated.signal ++ " is not the fixed SIGKILL")
  let firstExit ← demandSome (t.exits.find? (·.invocation == 1)) "the first invocation has no exit record"
  demand (firstExit.exit == .signaled terminationSignal)
    ("the first invocation did not report SIGKILL: " ++ processExitDebug firstExit.exit)
  let firstCleanup ← demandSome (t.cleanups.find? (·.invocation == 1))
    "the first invocation has no cleanup-complete barrier"
  demand (terminated.eventId < firstExit.eventId && firstExit.eventId < firstCleanup.eventId)
    "the termination, exit, and cleanup barrier for the first invocation are out of order"
  demand (2 ≤ firstCleanup.reaped) ("the cleanup barrier reaped " ++ decimal firstCleanup.reaped ++
    " process(es), so the escaped descendant was not confirmed killed")
  demand ((t.starts.drop 1).all fun start => firstCleanup.eventId < start.eventId)
    "the second invocation started before the first cleanup barrier completed"
  let escaped ← demandSome (t.anyStdoutLine escapedDescendantLine)
    "the first invocation never reported an escaped descendant"
  demand (escaped.eventId ≤ terminated.eventId)
    "the escaped descendant was reported after the termination was requested"
  let secondExit ← demandSome (t.exits.find? (·.invocation == 2)) "the second invocation has no exit record"
  demand (secondExit.exit == .exited 0)
    ("the second invocation did not exit cleanly: " ++ processExitDebug secondExit.exit)
  demand (t.cleaned 2) "the second invocation has no cleanup-complete barrier"
  let freshOne := (t.stdoutLines 1).countP (·.text == freshStateLine)
  let freshTwo := (t.stdoutLines 2).countP (·.text == freshStateLine)
  demandNone ((t.stdoutLines 1 ++ t.stdoutLines 2).find? fun line =>
      stateLinePrefix.isPrefixOf line.text && line.text != freshStateLine)
    fun stale => "an invocation observed the first invocation's root mutation at event " ++ decimal stale.eventId
  demand (freshOne == 1 && freshTwo == 1) ("each invocation must report a fresh root once, observed " ++
    decimal freshOne ++ " and " ++ decimal freshTwo)
  demand (choices.processFaultRequestIndex != 0) "the process fault must follow at least one recorded request"
  pure ("invocation 1 was killed and cleaned up before invocation 2 started fresh at request " ++
    decimal choices.processFaultRequestIndex)

/-- The response line of every planned request in its phase. -/
def networkLines (choices : WorkloadChoicePlan) : List Text :=
  choices.requests.zipIdx.map fun (request, index) => expectedNetworkLine request
    (requestPhase index choices.outageActivationRequestIndex choices.restorationRequestIndex)

/-- The response lines that one of the two invocations must emit. -/
def expectedLines (choices : WorkloadChoicePlan) (invocation : Nat) : List Text :=
  [readyLine, utf8 "echo value=" ++ echoToken choices.seed invocation, freshStateLine] ++
    if invocation = 1 then
      (networkLines choices).take choices.processFaultRequestIndex ++ [escapedDescendantLine]
    else (networkLines choices).drop choices.processFaultRequestIndex

/-- The checks of `response_integrity` on one invocation. -/
def invocationResponses (t : WorkloadTrace) (choices : WorkloadChoicePlan) (invocation : Nat) :
    Except Text Unit := do
  let expected := expectedLines choices invocation
  let actual := t.stdoutLines invocation
  demand (actual.length == expected.length) ("invocation " ++ decimal invocation ++ " produced " ++
    decimal actual.length ++ " response lines; expected " ++ decimal expected.length)
  demandNone ((actual.zip expected).findIdx? fun (line, wanted) => line.text != wanted) fun index =>
    "invocation " ++ decimal invocation ++ " response line " ++ decimal index ++ " does not match its command"
  let data := (t.streams invocation).dataInputEvents
  let eofs := (t.streams invocation).eofInputs
  let expectedEofs := if invocation = 2 then 1 else 0
  demand (data.length == expected.length - 1 && eofs == expectedEofs) ("invocation " ++ decimal invocation ++
    " acknowledged " ++ decimal data.length ++ " input command(s) and " ++ decimal eofs ++
    " end(s) of input; expected " ++ decimal (expected.length - 1) ++ " and " ++ decimal expectedEofs)
  demandNone ((data.zip (actual.drop 1)).findIdx? fun (acknowledged, line) => line.firstEventId ≤ acknowledged)
    fun index => "invocation " ++ decimal invocation ++ " response line " ++ decimal index ++
      " was recorded before the input command it answers"

/-- The checks of `response_integrity` on one exit record. -/
def exitTotals (sha256 : Sha256) (t : WorkloadTrace) (exit : ExitRecord) : Except Text Unit := do
  let s := t.streams exit.invocation
  demand s.stdout.pending.isEmpty ("invocation " ++ decimal exit.invocation ++ " ended with " ++
    decimal s.stdout.pending.length ++ " byte(s) after its last complete line")
  demand (s.stderr.pending.isEmpty && s.stderr.bytes.isEmpty) ("invocation " ++ decimal exit.invocation ++
    " wrote " ++ decimal (s.stderr.bytes.length + s.stderr.pending.length) ++ " stderr byte(s)")
  demand (exit.stdoutBytes == s.stdout.bytes.length && exit.stderrBytes == s.stderr.bytes.length &&
      exit.frames == s.frames)
    ("invocation " ++ decimal exit.invocation ++ " exit totals do not match the recorded output frames")
  demand (exit.stdoutSha256 == sha256Hex sha256 s.stdout.bytes &&
    exit.stderrSha256 == sha256Hex sha256 s.stderr.bytes)
    ("invocation " ++ decimal exit.invocation ++ " exit digests do not match the recorded output frames")

def responseIntegrity (sha256 : Sha256) (t : WorkloadTrace) (choices : WorkloadChoicePlan) : Except Text Text := do
  invocationResponses t choices 1
  invocationResponses t choices 2
  demandNone ((t.stderrLines 1).head?.or (t.stderrLines 2).head?) fun error =>
    "the workload reported an application error at event " ++ decimal error.eventId
  t.exits.forM (exitTotals sha256 t)
  demandNone t.allViolations.head? fun v => "stream structure violation: " ++ v.message
  pure ("all " ++ decimal choices.requests.length ++ " responses matched the recorded input")

/-! ## Fault properties -/

/-- The first planned request of a phase. -/
def firstOfPhase (choices : WorkloadChoicePlan) (phase : RequestPhase) : Option Nat :=
  (List.range choices.requests.length).find? fun index =>
    requestPhase index choices.outageActivationRequestIndex choices.restorationRequestIndex = phase

/-- The peer of the scenario as a host route. -/
def peerCidr (scenario : WorkloadScenario) : Text := scenario.fixturePeer ++ utf8 "/32"

/-- The activation that follows the configuration of the scenario's peer. -/
def activationOfScenario (t : WorkloadTrace) (scenario : WorkloadScenario) : Option (Text × Nat) := do
  let configured ← t.configured.filter (·.gateway == scenario.fixturePeer)
  t.activations.find? fun (peer, eventId) => peer == peerCidr scenario && decide (eventId > configured.eventId)

/-- The restoration that follows the activation. -/
def restorationOfScenario (t : WorkloadTrace) (scenario : WorkloadScenario) : Option (Text × Nat) := do
  let (activatedPeer, activationId) ← activationOfScenario t scenario
  t.restorations.find? fun (peer, eventId) => peer == activatedPeer && decide (eventId > activationId)

/-- The first outage request answered while the outage was in force: the event of its line and its distance. -/
def observedOutage (t : WorkloadTrace) (scenario : WorkloadScenario) (choices : WorkloadChoicePlan) :
    Option (Nat × Nat) := do
  let (_, activationId) ← activationOfScenario t scenario
  let index ← firstOfPhase choices .outage
  let request ← choices.requests[index]?
  let (line, acknowledged) ← t.stdoutLineWithAck (expectedNetworkLine request .outage)
  let beforeRestoration := (restorationOfScenario t scenario).all fun (_, restorationId) =>
    decide (line.eventId < restorationId)
  if acknowledged > activationId && line.eventId > activationId && beforeRestoration &&
      decide (line.eventId - activationId ≤ scenario.outageEventBound) then
    some (line.eventId, line.eventId - activationId)
  else none

/-- The first recovery request answered after the restoration. -/
def observedRecovery (t : WorkloadTrace) (scenario : WorkloadScenario) (choices : WorkloadChoicePlan) :
    Option (Nat × Nat) := do
  let (_, restorationId) ← restorationOfScenario t scenario
  let index ← firstOfPhase choices .recovery
  let request ← choices.requests[index]?
  let (line, acknowledged) ← t.stdoutLineWithAck (expectedNetworkLine request .recovery)
  if acknowledged > restorationId && line.eventId > restorationId &&
      decide (line.eventId - restorationId ≤ scenario.livenessEventBound) then
    some (line.eventId, line.eventId - restorationId)
  else none

/-- The echo line of the restarted invocation within the liveness bound of its start. -/
def observedRestart (t : WorkloadTrace) (scenario : WorkloadScenario) (choices : WorkloadChoicePlan) :
    Option (Nat × Nat) := do
  let start ← t.starts.find? (·.invocation == 2)
  let line ← (t.stdoutLines 2).find? (·.text == utf8 "echo value=" ++ echoToken choices.seed 2)
  if line.eventId > start.eventId && decide (line.eventId - start.eventId ≤ scenario.livenessEventBound) then
    some (line.eventId, line.eventId - start.eventId)
  else none

def controlledOutage (t : WorkloadTrace) (scenario : WorkloadScenario) (choices : WorkloadChoicePlan) :
    Except Text Text :=
  match observedOutage t scenario choices with
  | some (eventId, distance) => .ok ("the workload observed the administrative prohibition at event " ++
      decimal eventId ++ " after " ++ decimal distance ++ " event(s)")
  | none => .error ("no workload request reported EACCES within " ++ decimal scenario.outageEventBound ++
      " event(s) of activation")

def restorationResult (t : WorkloadTrace) (scenario : WorkloadScenario) : Except Text Text :=
  match restorationOfScenario t scenario with
  | some (_, eventId) => .ok ("network restoration of " ++ peerCidr scenario ++ " was confirmed at event " ++
      decimal eventId)
  | none => .error ("network restoration of " ++ peerCidr scenario ++ " was not confirmed after activation")

def boundedRecovery (t : WorkloadTrace) (scenario : WorkloadScenario) (choices : WorkloadChoicePlan) :
    Except Text Text :=
  match observedRecovery t scenario choices, observedRestart t scenario choices with
  | some (eventId, distance), some (restartId, restartDistance) =>
    .ok ("the workload recovered at event " ++ decimal eventId ++ " after " ++ decimal distance ++
      " event(s) and the restarted invocation answered at event " ++ decimal restartId ++ " after " ++
      decimal restartDistance ++ " event(s)")
  | none, _ => .error ("no matching workload response arrived within " ++ decimal scenario.livenessEventBound ++
      " event(s) of restoration")
  | some _, none => .error ("the restarted invocation did not answer within " ++
      decimal scenario.livenessEventBound ++ " event(s) of its start")

/-- The report on a folded trace. -/
def evaluateTrace (sha256 : Sha256) (t : WorkloadTrace) (scenario : WorkloadScenario)
    (choices : WorkloadChoicePlan) (launch : LaunchIdentity) : AssertionReport :=
  let assertions :=
    [assertion .processSafety (processSafety t choices launch),
      assertion .responseIntegrity (responseIntegrity sha256 t choices),
      assertion .controlledOutage (controlledOutage t scenario choices),
      assertion .restoration (restorationResult t scenario),
      assertion .boundedRecovery (boundedRecovery t scenario choices)]
  ⟨assertions.all (·.passed), assertions⟩

/-- Evaluate the process, response-integrity, outage and recovery properties of one workload run. -/
def evaluateWorkload (sha256 : Sha256) (events : List EventFrame) (scenario : WorkloadScenario)
    (choices : WorkloadChoicePlan) (launch : LaunchIdentity) : AssertionReport :=
  evaluateTrace sha256 (WorkloadTrace.ofEvents events) scenario choices launch

/-! ## What passing evaluators leave -/

/-- What `processSafety` checked when it passed. -/
structure SafeProcesses (t : WorkloadTrace) (launch : LaunchIdentity) (terminated : TerminationRecord)
    (firstExit : ExitRecord) (firstCleanup : CleanupRecord) (secondExit : ExitRecord) : Prop where
  clean : t.allViolations = []
  launched : t.launchFailures = []
  starts : t.starts.map (fun s => (s.invocation, s.launch)) = [(1, launch), (2, launch)]
  one_termination : t.terminations.length = 1
  terminated_first : t.terminations.find? (·.invocation == 1) = some terminated
  signal : terminated.signal = terminationSignal
  first_exit : t.exits.find? (·.invocation == 1) = some firstExit
  first_killed : firstExit.exit = .signaled terminationSignal
  first_cleanup : t.cleanups.find? (·.invocation == 1) = some firstCleanup
  termination_lt : terminated.eventId < firstExit.eventId
  exit_lt : firstExit.eventId < firstCleanup.eventId
  reaped : 2 ≤ firstCleanup.reaped
  restart : ∀ start ∈ t.starts.drop 1, firstCleanup.eventId < start.eventId
  second_exit : t.exits.find? (·.invocation == 2) = some secondExit
  second_clean : secondExit.exit = .exited 0
  second_cleanup : t.cleaned 2 = true

theorem processSafety_ok {t : WorkloadTrace} {choices : WorkloadChoicePlan} {launch : LaunchIdentity}
    {detail : Text} (h : processSafety t choices launch = .ok detail) :
    ∃ terminated firstExit firstCleanup secondExit,
      SafeProcesses t launch terminated firstExit firstCleanup secondExit := by
  unfold processSafety at h
  obtain ⟨_, hclean, h⟩ := bind_eq_ok.mp h
  obtain ⟨_, hlaunched, h⟩ := bind_eq_ok.mp h
  obtain ⟨_, -, h⟩ := bind_eq_ok.mp h
  obtain ⟨_, hstarts, h⟩ := bind_eq_ok.mp h
  obtain ⟨_, hone, h⟩ := bind_eq_ok.mp h
  obtain ⟨terminated, hterm, h⟩ := bind_eq_ok.mp h
  obtain ⟨_, hsignal, h⟩ := bind_eq_ok.mp h
  obtain ⟨firstExit, hfirst, h⟩ := bind_eq_ok.mp h
  obtain ⟨_, hkilled, h⟩ := bind_eq_ok.mp h
  obtain ⟨firstCleanup, hcleanup, h⟩ := bind_eq_ok.mp h
  obtain ⟨_, horder, h⟩ := bind_eq_ok.mp h
  obtain ⟨_, hreaped, h⟩ := bind_eq_ok.mp h
  obtain ⟨_, hrestart, h⟩ := bind_eq_ok.mp h
  obtain ⟨_, -, h⟩ := bind_eq_ok.mp h
  obtain ⟨_, -, h⟩ := bind_eq_ok.mp h
  obtain ⟨secondExit, hsecond, h⟩ := bind_eq_ok.mp h
  obtain ⟨_, hclean2, h⟩ := bind_eq_ok.mp h
  obtain ⟨_, hcleaned, -⟩ := bind_eq_ok.mp h
  simp only [demand_eq_ok, demandSome_eq_ok, demandNone_eq_ok, List.head?_eq_none_iff, beq_iff_eq,
    Bool.and_eq_true, decide_eq_true_eq, List.all_eq_true] at *
  exact ⟨terminated, firstExit, firstCleanup, secondExit, hclean, hlaunched, hstarts, hone, hterm, hsignal, hfirst,
    hkilled, hcleanup, horder.1, horder.2, hreaped, hrestart, hsecond, hclean2, hcleaned⟩

/-- What `responseIntegrity` checked on one invocation when it passed. -/
structure Responses (t : WorkloadTrace) (choices : WorkloadChoicePlan) (invocation : Nat) : Prop where
  texts : (t.stdoutLines invocation).map CompletedLine.text = expectedLines choices invocation
  data : (t.streams invocation).dataInputEvents.length = (expectedLines choices invocation).length - 1
  eofs : (t.streams invocation).eofInputs = if invocation = 2 then 1 else 0
  acknowledged : ∀ pair ∈ (t.streams invocation).dataInputEvents.zip ((t.stdoutLines invocation).drop 1),
    pair.1 < pair.2.firstEventId

theorem texts_of_zip : ∀ {actual : List CompletedLine} {expected : List Text},
    actual.length = expected.length → (∀ p ∈ actual.zip expected, p.1.text = p.2) →
      actual.map CompletedLine.text = expected
  | [], [], _, _ => rfl
  | line :: actual, wanted :: expected, hlen, h => by
    rw [List.map_cons, texts_of_zip (by simpa using hlen) fun p hp => h p (List.mem_cons_of_mem _ hp)]
    rw [h (line, wanted) List.mem_cons_self]

theorem invocationResponses_ok {t : WorkloadTrace} {choices : WorkloadChoicePlan} {invocation : Nat} {u : Unit}
    (h : invocationResponses t choices invocation = .ok u) : Responses t choices invocation := by
  unfold invocationResponses at h
  obtain ⟨_, hlen, h⟩ := bind_eq_ok.mp h
  obtain ⟨_, htexts, h⟩ := bind_eq_ok.mp h
  obtain ⟨_, hdata, hacks⟩ := bind_eq_ok.mp h
  simp only [demand_eq_ok, demandNone_eq_ok, List.findIdx?_eq_none_iff, beq_iff_eq, Bool.and_eq_true,
    bne_eq_false_iff_eq, decide_eq_false_iff_not, not_le] at hlen htexts hdata hacks
  exact ⟨texts_of_zip hlen htexts, hdata.1, hdata.2, hacks⟩

/-- What `responseIntegrity` checked on one exit record when it passed. -/
structure ExitMatches (sha256 : Sha256) (t : WorkloadTrace) (exit : ExitRecord) : Prop where
  pending : (t.streams exit.invocation).stdout.pending = []
  stderr : (t.streams exit.invocation).stderr.bytes = []
  stdout_bytes : exit.stdoutBytes = (t.streams exit.invocation).stdout.bytes.length
  stderr_bytes : exit.stderrBytes = (t.streams exit.invocation).stderr.bytes.length
  frames : exit.frames = (t.streams exit.invocation).frames
  stdout_sha256 : exit.stdoutSha256 = sha256Hex sha256 (t.streams exit.invocation).stdout.bytes
  stderr_sha256 : exit.stderrSha256 = sha256Hex sha256 (t.streams exit.invocation).stderr.bytes

theorem exitTotals_ok {sha256 : Sha256} {t : WorkloadTrace} {exit : ExitRecord} {u : Unit}
    (h : exitTotals sha256 t exit = .ok u) : ExitMatches sha256 t exit := by
  unfold exitTotals at h
  obtain ⟨_, hpending, h⟩ := bind_eq_ok.mp h
  obtain ⟨_, hstderr, h⟩ := bind_eq_ok.mp h
  obtain ⟨_, htotals, hdigests⟩ := bind_eq_ok.mp h
  simp only [demand_eq_ok, List.isEmpty_iff, Bool.and_eq_true, beq_iff_eq] at hpending hstderr htotals hdigests
  exact ⟨hpending, hstderr.2, htotals.1.1, htotals.1.2, htotals.2, hdigests.1, hdigests.2⟩

theorem responseIntegrity_ok {sha256 : Sha256} {t : WorkloadTrace} {choices : WorkloadChoicePlan} {detail : Text}
    (h : responseIntegrity sha256 t choices = .ok detail) :
    Responses t choices 1 ∧ Responses t choices 2 ∧ ∀ exit ∈ t.exits, ExitMatches sha256 t exit := by
  unfold responseIntegrity at h
  obtain ⟨_, h1, h⟩ := bind_eq_ok.mp h
  obtain ⟨_, h2, h⟩ := bind_eq_ok.mp h
  obtain ⟨_, -, h⟩ := bind_eq_ok.mp h
  obtain ⟨_, hexits, -⟩ := bind_eq_ok.mp h
  exact ⟨invocationResponses_ok h1, invocationResponses_ok h2,
    fun exit he => exitTotals_ok (forM_eq_ok.mp hexits exit he)⟩

/-- A passing report passed every evaluator. -/
theorem evaluateTrace_passed {sha256 : Sha256} {t : WorkloadTrace} {scenario : WorkloadScenario}
    {choices : WorkloadChoicePlan} {launch : LaunchIdentity}
    (h : (evaluateTrace sha256 t scenario choices launch).passed = true) :
    (∃ d, processSafety t choices launch = .ok d) ∧ (∃ d, responseIntegrity sha256 t choices = .ok d) ∧
      (∃ d, controlledOutage t scenario choices = .ok d) ∧ (∃ d, restorationResult t scenario = .ok d) ∧
      ∃ d, boundedRecovery t scenario choices = .ok d := by
  simp only [evaluateTrace, List.all_cons, List.all_nil, Bool.and_true, Bool.and_eq_true] at h
  exact ⟨assertion_passed h.1, assertion_passed h.2.1, assertion_passed h.2.2.1, assertion_passed h.2.2.2.1,
    assertion_passed h.2.2.2.2⟩

end SimFerret.Checker
