import SimFerret.Driver.NetworkVerdict
import SimFerret.Run.Replay
import SimFerret.Store.Load

/-!
# SimFerret.Run.Profiles — what a recorded run and its replay agree on (`run.rs`)

* `Profile.Repeats`: whatever the VM did, the checks of a recording accept what the drive left, and a replay
  over the same events, with any diagnostics, leaves it again.
* `networkRun_repeats`, `workloadRun_repeats`: **both kinds of runs do**, by the theorems about the two drivers.
* `Profile.Receives.real`: what was recorded was read from the channel, with the checks of its reader.
* `Profile.Reads`: a replay that ends read the recorded events and nothing else.
* `loaded_valid`: what a store loads passes the checks of a manifest.
-/

namespace SimFerret.Run

open Workload Driver

/-! ## The two drivers -/

/-- What the checks of a recording ask of it, and what its replay does. -/
structure Profile.Repeated {σ κ : Type} (profile : Profile σ κ) (scenario : σ) (choices : κ)
    (events : List NormalizedEvent) (assertions : AssertionReport) : Prop where
  numbered : ∀ index event, events[index]? = some event → event.protocolVersion = protocolVersion ∧
    event.eventId = index + 1
  counted : profile.counted scenario events = .ok ()
  valid : validProfile assertions profile.assertions = true
  evaluated : profile.evaluate scenario choices (events.map NormalizedEvent.frame) = assertions
  again : ∀ (process : Process) (frames : List EventFrame) (tail : List Delivery),
    process.queue = frames.map .event ++ .closed :: tail →
    frames.map EventFrame.normalize = events → profile.replay scenario choices events process =
      .ok (events, assertions)

/-- Every run of a VM is repeated by its replay. -/
def Profile.Repeats {σ κ : Type} (profile : Profile σ κ) (scenario : σ) (choices : κ) : Prop :=
  ∀ process events assertions, profile.drive scenario choices process = .ok (events, assertions) →
    profile.Repeated scenario choices events assertions

section Repeats

variable {formats : Formats} {frames : List EventFrame} {events : List NormalizedEvent}

theorem numbered_events (h : Numbered 1 frames) (hevents : frames.map EventFrame.normalize = events) (index : Nat)
    (event : NormalizedEvent) (hget : events[index]? = some event) :
    event.protocolVersion = protocolVersion ∧ event.eventId = index + 1 := by
  rw [← hevents, List.getElem?_map, Option.map_eq_some_iff] at hget
  obtain ⟨frame, hframe, rfl⟩ := hget
  obtain ⟨hversion, hid⟩ := h index frame hframe
  exact ⟨hversion, hid.trans (Nat.add_comm 1 index)⟩

/-- The frames that replay rebuilds from events differ from the received ones in their diagnostics. -/
theorem likewise_rebuilt (hevents : frames.map EventFrame.normalize = events) :
    Likewise frames (events.map NormalizedEvent.frame) := by
  rw [Likewise, List.map_map]
  exact (List.map_id events).trans hevents.symm

theorem drive_ok {ε α σ : Type} {x : Except ε (α × σ)} {error : ε → IoError} {a : α} :
    ((x.mapError error).map (·.1)) = .ok a ↔ ∃ s, x = .ok (a, s) := by
  cases x with
  | error e => simp [Except.mapError, Except.map]
  | ok r =>
    obtain ⟨b, s⟩ := r
    simp [Except.mapError, Except.map]

/-- **A network run is repeated.** -/
theorem networkRun_repeats {scenario : Scenario} (hvalid : scenario.validate = .ok ()) (seed : UInt64) :
    (networkRun formats).Repeats scenario (scenario.choices seed) := by
  intro process events assertions h
  obtain ⟨⟨rest, c⟩, h⟩ := drive_ok.mp h
  obtain ⟨frames, -, hevents, hrecorded⟩ :=
    driveScenarioInner_recorded (networkPlan_choices hvalid seed).toPlacedTransitions ⟨rfl, rfl, rfl⟩ h
  have hcount : events.length = 2 * scenario.requestCount + 5 := by
    have hrequests : (scenario.choices seed).requests.length = scenario.requestCount :=
      length_plannedRequests _ _ _ _
    rw [← hevents, List.length_map, hrecorded.count, hrequests]
  refine ⟨numbered_events hrecorded.numbered hevents, ?_, hrecorded.valid, ?_,
    fun process' frames' tail hqueue hframes' => ?_⟩
  · have hsmall := (Scenario.validate_shape hvalid).requests_le
    have hmul : checkedMul scenario.requestCount 2 = some (scenario.requestCount * 2) :=
      if_pos (by simp only [u64Size, maxRequestCount] at *; omega)
    have hadd : checkedAdd (scenario.requestCount * 2) 5 = some (scenario.requestCount * 2 + 5) :=
      if_pos (by simp only [u64Size, maxRequestCount] at *; omega)
    refine bind_eq_ok.mpr ⟨scenario.requestCount * 2 + 5, ?_, require_eq_ok.mpr ?_⟩
    · rw [hmul, Option.bind_some, hadd]
      rfl
    · rw [beq_iff_eq, hcount, Nat.mul_comm]
  · exact (evaluate_likewise (likewise_rebuilt hevents) _ _).trans hrecorded.report_eq
  · obtain ⟨c', hagain⟩ := driveScenarioInner_replayed formats.tables h hframes'
    refine drive_ok.mpr ⟨(tail, c'), ?_⟩
    rw [hqueue]
    exact hagain

/-- **A workload run is repeated.** -/
theorem workloadRun_repeats (launch : LaunchIdentity) (scenario : WorkloadScenario)
    (choices : WorkloadChoicePlan) : (workloadRun formats launch).Repeats scenario choices := by
  intro process events assertions h
  obtain ⟨s, h⟩ := drive_ok.mp h
  obtain ⟨frames, -, hevents, hrecorded⟩ := driveWorkloadScenario_recorded h
  refine ⟨numbered_events hrecorded.numbered hevents, rfl, hrecorded.valid, ?_,
    fun process' frames' tail hqueue hframes' => ?_⟩
  · exact (evaluateWorkload_likewise (likewise_rebuilt hevents)).trans hrecorded.report_eq
  · have hlike : Likewise frames frames' := hframes'.trans hevents.symm
    have hagain : replayWorkloadEvents (frames.map EventFrame.normalize) (frames'.map .event ++ .closed :: tail) =
        .ok (frames', tail) := replayWorkloadEvents_recorded hrecorded hlike
    rw [hevents, ← hqueue] at hagain
    refine bind_eq_ok.mpr ⟨(frames', tail), hagain, pure_eq_ok.mpr ?_⟩
    rw [hframes', evaluateWorkload_likewise hlike, hrecorded.report_eq]

/-- The recorded events are those of frames that the VM sent. -/
def Profile.Receives {σ κ : Type} (profile : Profile σ κ) (scenario : σ) (choices : κ) : Prop :=
  ∀ process events assertions, profile.drive scenario choices process = .ok (events, assertions) →
    ∀ event ∈ events, ∃ frame, .event frame ∈ process.queue ∧ frame.normalize = event

theorem networkRun_receives {scenario : Scenario} (hvalid : scenario.validate = .ok ()) (seed : UInt64) :
    (networkRun formats).Receives scenario (scenario.choices seed) := by
  intro process events assertions h event hevent
  obtain ⟨⟨rest, c⟩, h⟩ := drive_ok.mp h
  obtain ⟨frames, hqueue, rfl, -⟩ :=
    driveScenarioInner_recorded (networkPlan_choices hvalid seed).toPlacedTransitions ⟨rfl, rfl, rfl⟩ h
  obtain ⟨frame, hframe, rfl⟩ := List.mem_map.mp hevent
  refine ⟨frame, ?_, rfl⟩
  rw [hqueue]
  exact List.mem_append_left _ (List.mem_map_of_mem hframe)

theorem workloadRun_receives (launch : LaunchIdentity) (scenario : WorkloadScenario)
    (choices : WorkloadChoicePlan) : (workloadRun formats launch).Receives scenario choices := by
  intro process events assertions h event hevent
  obtain ⟨s, h⟩ := drive_ok.mp h
  obtain ⟨frames, hreceived, rfl, -⟩ := driveWorkloadScenario_recorded h
  obtain ⟨frame, hframe, rfl⟩ := List.mem_map.mp hevent
  exact ⟨frame, hreceived frame hframe, rfl⟩

/-- **What was recorded has the exit records that Linux reports**: it was read from the channel. -/
theorem Profile.Receives.real {σ κ : Type} {profile : Profile σ κ} {scenario : σ} {choices : κ} {process : Process}
    {assertions : AssertionReport} (h : profile.Receives scenario choices)
    (hdrive : profile.drive scenario choices process = .ok (events, assertions)) : ∀ event ∈ events,
      event.event.Real := by
  intro event hevent
  obtain ⟨frame, hframe, rfl⟩ := h process events assertions hdrive event hevent
  obtain ⟨raw, hraw⟩ := process.decoded frame hframe
  exact Event.real_of_deserialize hraw

/-- What a replay that ends read of the VM. -/
def Profile.Reads {σ κ : Type} (profile : Profile σ κ) (scenario : σ) (choices : κ) : Prop :=
  ∀ expected process events assertions, profile.replay scenario choices expected process =
    .ok (events, assertions) → ∃ (frames : List EventFrame) (tail : List Delivery),
    process.queue = frames.map .event ++ .closed :: tail ∧
      frames.map EventFrame.normalize = events ∧
        assertions = profile.evaluate scenario choices (events.map NormalizedEvent.frame)

theorem networkRun_reads {scenario : Scenario} (hvalid : scenario.validate = .ok ()) (seed : UInt64) :
    (networkRun formats).Reads scenario (scenario.choices seed) := by
  intro expected process events assertions h
  obtain ⟨⟨rest, c⟩, h⟩ := drive_ok.mp h
  obtain ⟨frames, hqueue, hevents, hrecorded⟩ :=
    driveScenarioInner_recorded (networkPlan_choices hvalid seed).toPlacedTransitions ⟨rfl, rfl, rfl⟩ h
  exact ⟨frames, rest, hqueue, hevents,
    ((evaluate_likewise (likewise_rebuilt hevents) _ _).trans hrecorded.report_eq).symm⟩

theorem workloadRun_reads (launch : LaunchIdentity) (scenario : WorkloadScenario) (choices : WorkloadChoicePlan) :
    (workloadRun formats launch).Reads scenario choices := by
  intro expected process events assertions h
  obtain ⟨⟨frames, tail⟩, hreplay, h⟩ := bind_eq_ok.mp h
  obtain ⟨hevents, hreport⟩ := Prod.mk.inj (pure_eq_ok.mp h)
  obtain ⟨hqueue, -⟩ := replayWorkloadEvents_reads hreplay
  refine ⟨frames, tail, hqueue, hevents, ?_⟩
  rw [← hreport]
  exact (evaluateWorkload_likewise (likewise_rebuilt hevents)).symm

end Repeats

/-! ## The plans -/

/-- The files of a fixture have names of their own. -/
structure Served (requests : List PlannedRequest) : Prop where
  distinct : (requests.map PlannedRequest.requestId).Nodup
  names : ∀ request ∈ requests, request.requestId ≠ utf8 "." ∧ request.requestId ≠ utf8 ".."

theorem served_plannedRequests {left : Nat} (hleft : left ≤ maxRequestCount) (payloadBytes : Nat)
    (state : UInt64) : Served (plannedRequests payloadBytes left 0 state) := by
  have hid : ∀ i request, (plannedRequests payloadBytes left 0 state)[i]? = some request →
      i < 10 ^ 4 ∧ ∃ nonce, request.requestId = requestIdText i nonce := by
    intro i request hget
    obtain ⟨⟨nonce, hid⟩, -⟩ := getElem?_plannedRequests hget
    have hbound := (List.getElem?_eq_some_iff.mp hget).1
    rw [length_plannedRequests] at hbound
    rw [Nat.zero_add] at hid
    exact ⟨by unfold maxRequestCount at hleft; omega, nonce, hid⟩
  constructor
  · rw [List.Nodup, List.pairwise_map, List.pairwise_iff_getElem]
    intro i j hi hj hij heq
    obtain ⟨hsmall, nonce, hrequest⟩ := hid i _ (List.getElem?_eq_getElem hi)
    obtain ⟨hsmall', nonce', hrequest'⟩ := hid j _ (List.getElem?_eq_getElem hj)
    rw [hrequest, hrequest'] at heq
    exact absurd (requestIdText_inj hsmall hsmall' heq) (by omega)
  · intro request hmem
    obtain ⟨i, hget⟩ := List.mem_iff_getElem?.mp hmem
    obtain ⟨hsmall, nonce, hrequest⟩ := hid i request hget
    have hlength : request.requestId.length = 29 := hrequest ▸ length_requestIdText hsmall nonce
    constructor <;> intro heq <;> rw [heq] at hlength <;> revert hlength <;> decide

/-- What the rest of the code takes from the two kinds of runs. -/
structure Profile.Lawful {σ κ : Type} (profile : Profile σ κ) : Prop where
  sized : ∀ source scenario, profile.parse source = .ok scenario → source.length ≤ maxScenarioSourceBytes
  served : ∀ source scenario seed, profile.parse source = .ok scenario →
    Served (profile.requests (profile.choices scenario seed))
  repeats : ∀ source scenario seed, profile.parse source = .ok scenario →
    profile.Repeats scenario (profile.choices scenario seed)
  receives : ∀ source scenario seed, profile.parse source = .ok scenario →
    profile.Receives scenario (profile.choices scenario seed)
  reads : ∀ source scenario seed, profile.parse source = .ok scenario →
    profile.Reads scenario (profile.choices scenario seed)

section Lawful

variable (formats : Formats)

theorem parseScenario_ok {σ : Type} {toml : Text → Except TomlError σ} {validate : σ → IoResult Unit}
    {source : Bytes} {scenario : σ} (h : formats.parseScenario toml validate source = .ok scenario) :
    source.length ≤ maxScenarioSourceBytes ∧ validate scenario = .ok () := by
  obtain ⟨_, hlength, h⟩ := bind_eq_ok.mp h
  obtain ⟨_, -, h⟩ := bind_eq_ok.mp h
  obtain ⟨_, -, h⟩ := bind_eq_ok.mp h
  obtain ⟨_, hvalid, h⟩ := bind_eq_ok.mp h
  obtain rfl := pure_eq_ok.mp h
  exact ⟨of_decide_eq_true (require_eq_ok.mp hlength), hvalid⟩

theorem networkRun_lawful : (networkRun formats).Lawful where
  sized _ _ h := (parseScenario_ok formats h).1
  served _ _ _ h := served_plannedRequests (Scenario.validate_shape (parseScenario_ok formats h).2).requests_le _ _
  repeats _ _ seed h := networkRun_repeats (parseScenario_ok formats h).2 seed
  receives _ _ seed h := networkRun_receives (parseScenario_ok formats h).2 seed
  reads _ _ seed h := networkRun_reads (parseScenario_ok formats h).2 seed

theorem workloadRun_lawful (launch : LaunchIdentity) : (workloadRun formats launch).Lawful where
  sized _ _ h := (parseScenario_ok formats h).1
  served _ _ _ h :=
    served_plannedRequests (WorkloadScenario.validate_shape (parseScenario_ok formats h).2).requests_le _ _
  repeats _ _ _ _ := workloadRun_repeats launch _ _
  receives _ _ _ _ := workloadRun_receives launch _ _
  reads _ _ _ _ := workloadRun_reads launch _ _

end Lawful

/-! ## A loaded workload -/

/-- What a computation returns satisfies `post`. -/
def Ensures {α : Type} (x : IoResult α) (post : α → Prop) : Prop := ∀ a, x = .ok a → post a

/-- A launch that passes its checks. -/
def LaunchValid (launch : LaunchIdentity) : Prop := validateLaunchIdentity launch = .ok ()

section Loaded

variable {α β : Type} {x : IoResult α} {f : α → IoResult β} {mid : α → Prop} {post : β → Prop}

theorem Ensures.bind (hx : Ensures x mid) (hf : ∀ a, mid a → Ensures (f a) post) : Ensures (x >>= f) post := by
  intro b h
  obtain ⟨a, ha, h⟩ := bind_eq_ok.mp h
  exact hf a (hx a ha) b h

/-- Steps that do not matter. -/
theorem Ensures.after (hf : ∀ a, Ensures (f a) post) : Ensures (x >>= f) post :=
  Ensures.bind (fun a (_ : x = .ok a) => trivial) fun a _ => hf a

theorem Ensures.pure {b : β} (h : post b) : Ensures (Pure.pure b) post := fun _ heq => (pure_eq_ok.mp heq) ▸ h

/-- A value behind the check of its launch. -/
theorem Ensures.checked {launch : LaunchIdentity} {b : β} (h : LaunchValid launch → post b) :
    Ensures (validateLaunchIdentity launch >>= fun _ => Pure.pure b) post := by
  intro c hc
  obtain ⟨_, hvalid, hc⟩ := bind_eq_ok.mp hc
  exact pure_eq_ok.mp hc ▸ h hvalid

theorem binaryTreeAndLaunch_valid (executable : Bytes) (input : Store.BinaryInput) :
    Ensures (Store.binaryTreeAndLaunch executable input) fun result => LaunchValid result.2 := by
  unfold Store.binaryTreeAndLaunch
  iterate 11 refine Ensures.after fun _ => ?_
  exact Ensures.checked id

theorem normalizeLaunch_valid (config : Map) (tree : Tree) :
    Ensures (normalizeLaunch config tree) LaunchValid := by
  unfold normalizeLaunch
  -- each of the paths through the optional fields ends with the check
  repeat' first
    | exact Ensures.checked id
    | refine Ensures.after fun _ => ?_
    | split
    | dsimp only

theorem parseGraph_valid (libraries : Libraries) (objects : OciObjects) :
    Ensures (parseGraph libraries objects) fun graph => LaunchValid graph.launch := by
  unfold parseGraph
  iterate 5 refine Ensures.after fun _ => ?_
  unfold parseManifest
  iterate 25 refine Ensures.after fun _ => ?_
  exact Ensures.bind (normalizeLaunch_valid _ _) fun launch hlaunch => Ensures.pure hlaunch

theorem replayGraph_valid (crates : Store.Crates) (closure : Store.Closure) (objects : Store.Objects) :
    Ensures (Store.replayGraph crates closure objects) fun graph => LaunchValid graph.launch := by
  unfold Store.replayGraph
  split
  · unfold Store.replayBinary
    iterate 6 refine Ensures.after fun _ => ?_
    exact Ensures.bind (binaryTreeAndLaunch_valid _ _) fun result hresult => Ensures.pure hresult
  · unfold Store.replayOci
    iterate 4 refine Ensures.after fun _ => ?_
    exact Ensures.bind (parseGraph_valid _ _) fun graph hgraph => Ensures.pure hgraph

/-- **What a store loads passes the checks of a manifest.** -/
theorem loaded_valid {formats : Formats} {store : Store.Disk} {loaded : Store.LoadedWorkload}
    (h : Store.evaluate (Store.load formats.crates) store = .ok loaded) :
    (workloadIdentity formats loaded).validate = .ok () := by
  obtain ⟨closureBytes, closure, objects, derived, stored, h⟩ := Store.reads_load.evaluate h
  obtain ⟨graph, hgraph, hchecks⟩ := bind_eq_ok.mp h.rederived
  obtain ⟨_, -, hchecks⟩ := bind_eq_ok.mp hchecks
  obtain ⟨_, hlaunch, hchecks⟩ := bind_eq_ok.mp hchecks
  obtain ⟨_, -, hchecks⟩ := bind_eq_ok.mp hchecks
  obtain ⟨_, hcanonical, -⟩ := bind_eq_ok.mp hchecks
  have hvalid : LaunchValid closure.launch :=
    eq_of_beq (require_eq_ok.mp hlaunch) ▸ replayGraph_valid _ _ _ graph hgraph
  have hhex : ∀ bytes, validSha256 (formats.crates.digest bytes) = true := fun bytes =>
    validSha256_hex (formats.crates.sha256_length bytes)
  have htree : validSha256 closure.canonicalDigest = true := by
    rw [← eq_of_beq (require_eq_ok.mp hcanonical)]
    exact hhex _
  have htemplate := validSha256_sha256Hex formats.crates.sha256_length loaded.template
  rw [h.loaded] at htemplate ⊢
  refine bind_eq_ok.mpr ⟨(), require_eq_ok.mpr ?_, ?_⟩
  · simp only [workloadIdentity, List.all_cons, List.all_nil, Bool.and_true, Bool.and_eq_true]
    exact ⟨hhex _, htree, htemplate⟩
  · show (validateLaunchIdentity closure.launch).mapError _ = .ok ()
    rw [show validateLaunchIdentity closure.launch = .ok () from hvalid]
    rfl

end Loaded

end SimFerret.Run
