import Mathlib.Data.List.GetD
import SimFerret.Protocol

/-!
# SimFerret.Scenario — scenarios and their seeded plans (`scenario.rs`)

`Scenario` drives the network fixture, `WorkloadScenario` the packaged workload.  Both are validated and then
expanded by `choices`, a `SplitMix64` stream seeded by the run.

* `WorkloadScenario.choices_bounds`: where the seeded transitions and the process fault fall in a validated
  scenario.
* `choices_requests_ascii`: the request identifiers are ASCII.
-/

namespace SimFerret

def scenarioVersion : Nat := 1
def choicePlanVersion : Nat := 1
def maxScenarioNameBytes : Nat := 256
def maxRequestCount : Nat := 256
def maxTotalPayloadBytes : Nat := 1024 * 1024
def workloadScenarioVersion : Nat := 1
def workloadChoicePlanVersion : Nat := 1
def minWorkloadRequestCount : Nat := 4
def maxWorkloadPayloadBytes : Nat := 63

structure PlannedRequest where
  requestId : Text
  payload : Text
deriving DecidableEq, Repr

structure Scenario where
  version : Nat
  name : Text
  requestCount : Nat
  payloadBytes : Nat
  fixturePeer : Text
  outageEventBound : Nat
  livenessEventBound : Nat
  corruptResponses : Bool
deriving DecidableEq, Repr

structure ChoicePlan where
  version : Nat
  seed : UInt64
  outageActivationRequestIndex : Nat
  restorationRequestIndex : Nat
  requests : List PlannedRequest
deriving DecidableEq, Repr

structure WorkloadScenario where
  version : Nat
  name : Text
  requestCount : Nat
  payloadBytes : Nat
  fixturePeer : Text
  outageEventBound : Nat
  livenessEventBound : Nat
  corruptResponses : Bool
deriving DecidableEq, Repr

structure WorkloadChoicePlan where
  version : Nat
  seed : UInt64
  /-- The request index before which the first invocation is terminated and the second is started. -/
  processFaultRequestIndex : Nat
  outageActivationRequestIndex : Nat
  restorationRequestIndex : Nat
  requests : List PlannedRequest
deriving DecidableEq, Repr

/-! ## Peers -/

/-- `Ipv4Addr::from_str`: four decimal octets without leading zeros. -/
def parseOctet (part : Text) : Option Nat :=
  let value := part.foldl (fun acc digit => acc * 10 + (digit - 48).toNat) 0
  if part.isEmpty || part.length > 3 || !part.all Workload.isAsciiDigit then none
  else if part.length > 1 && part.head? == some 48 then none
  else if value < 256 then some value else none

def parseIpv4 (text : Text) : Option (List Nat) :=
  match text.splitOn 46 with
  | [a, b, c, d] => [a, b, c, d].mapM parseOctet
  | _ => none

/-- The number of 16-bit groups of a colon-separated list, whose last part may be an IPv4 address. -/
def ipv6Groups (embedded : Bool) (text : Text) : Option Nat :=
  let parts := text.splitOn 58
  let isGroup : Text → Bool := fun part =>
    !part.isEmpty && part.length ≤ 4 && part.all Workload.isAsciiHexdigit
  if parts.all isGroup then some parts.length
  else if embedded && parts.dropLast.all isGroup && ((parts.getLast?.bind parseIpv4).isSome) then
    some (parts.length + 1)
  else none

/-- `Ipv6Addr::from_str` accepts: eight groups, or a `::` that stands for at least one of them. -/
def isIpv6 (text : Text) : Bool :=
  let cuts := (List.range text.length).filter fun i => (text.drop i).take 2 == [58, 58]
  match cuts with
  | [] => ipv6Groups true text == some 8
  | cut :: _ =>
    let head := text.take cut
    let tail := text.drop (cut + 2)
    match (if head.isEmpty then some 0 else ipv6Groups false head),
        (if tail.isEmpty then some 0 else ipv6Groups true tail) with
    | some n, some k => n + k ≤ 7
    | _, _ => false

/-- The `fixture_peer` check of both scenarios. -/
def validatePeer (peer : Text) : IoResult Unit :=
  match parseIpv4 peer with
  | some octets =>
    require (octets == [10, 0, 2, 2]) (invalid "fixture_peer must be the fixed private peer 10.0.2.2")
  | none =>
    if isIpv6 peer then .error (invalid "fixture_peer must be the fixed private peer 10.0.2.2")
    else .error (invalid "invalid fixture_peer: invalid IP address syntax")

/-! ## Validation -/

/-- The checks that follow the version check in both `validate` functions: the least request count, the largest
payload and the texts of their errors are the two scenarios' own. -/
def validateShape (name : Text) (requestCount payloadBytes outageEventBound livenessEventBound : Nat)
    (peer : Text) (minRequests maxPayload : Nat) (payloadText : Text) : IoResult Unit := do
  require (!name.isEmpty && name.length ≤ maxScenarioNameBytes)
    (invalid ("scenario name must contain between 1 and " ++ decimal maxScenarioNameBytes ++ " bytes"))
  require (minRequests ≤ requestCount && requestCount ≤ maxRequestCount)
    (invalid ("request_count must be between " ++ decimal minRequests ++ " and " ++ decimal maxRequestCount))
  require (payloadBytes != 0 && payloadBytes ≤ maxPayload) (invalid payloadText)
  require (requestCount * payloadBytes < u64Size) (invalid "scenario payload budget overflowed")
  require (requestCount * payloadBytes ≤ maxTotalPayloadBytes)
    (invalid ("request_count * payload_bytes must not exceed " ++ decimal maxTotalPayloadBytes))
  require (outageEventBound != 0 && 2 ≤ livenessEventBound)
    (invalid "outage_event_bound must be positive and liveness_event_bound must be at least 2")
  validatePeer peer

def Scenario.validate (s : Scenario) : IoResult Unit := do
  require (s.version == scenarioVersion) (invalid ("unsupported scenario version " ++ decimal s.version))
  validateShape s.name s.requestCount s.payloadBytes s.outageEventBound s.livenessEventBound s.fixturePeer 3
    (maxRequestDataLength / 4) ("payload_bytes must be between 1 and " ++ decimal (maxRequestDataLength / 4))

def WorkloadScenario.validate (s : WorkloadScenario) : IoResult Unit := do
  require (s.version == workloadScenarioVersion)
    (invalid ("unsupported workload scenario version " ++ decimal s.version))
  validateShape s.name s.requestCount s.payloadBytes s.outageEventBound s.livenessEventBound s.fixturePeer
    minWorkloadRequestCount maxWorkloadPayloadBytes
    ("payload_bytes must be between 1 and " ++ decimal maxWorkloadPayloadBytes ++
      ", because the fixture's hex-encoded token must stay under 128 bytes")

/-! ## The random stream -/

/-- `SplitMix64::next`: the new state and the value. -/
def splitMix64Next (state : UInt64) : UInt64 × UInt64 :=
  let state := state + 0x9e3779b97f4a7c15
  let value := (state ^^^ (state >>> 30)) * 0xbf58476d1ce4e5b9
  let value := (value ^^^ (value >>> 27)) * 0x94d049bb133111eb
  (state, value ^^^ (value >>> 31))

/-- `SplitMix64::hex_bytes` from byte `index` on, with the value the current eight bytes come from. -/
def hexBytesLoop : Nat → Nat → UInt64 → UInt64 → UInt64 × Text
  | 0, _, state, _ => (state, [])
  | left + 1, index, state, value =>
    let (state, value) := if index % 8 = 0 then splitMix64Next state else (state, value)
    let byte := (value >>> (UInt64.ofNat (index % 8 * 8))).toUInt8
    let (state, text) := hexBytesLoop left (index + 1) state value
    (state, nibbleDigit (byte >>> 4) :: nibbleDigit (byte &&& 0xf) :: text)

def splitMix64HexBytes (state : UInt64) (length : Nat) : UInt64 × Text := hexBytesLoop length 0 state 0

/-- The identifier of the request at `index`. -/
def requestIdText (index : Nat) (nonce : UInt64) : Text :=
  "request-" ++ decimalPadded 4 index ++ "-" ++ hexPadded 16 nonce.toNat

/-- The planned requests from `index` on. -/
def plannedRequests (payloadBytes : Nat) : Nat → Nat → UInt64 → List PlannedRequest
  | 0, _, _ => []
  | left + 1, index, state =>
    let (state, nonce) := splitMix64Next state
    let (state, payload) := splitMix64HexBytes state payloadBytes
    ⟨requestIdText index nonce, payload⟩ :: plannedRequests payloadBytes left (index + 1) state

/-- The activation index that a random value picks. -/
def activationIndex (requestCount : Nat) (value : UInt64) : Nat := 1 + value.toNat % (requestCount - 2)

/-- The restoration index that a random value picks after the activation. -/
def restorationIndex (requestCount activation : Nat) (value : UInt64) : Nat :=
  activation + 1 + value.toNat % (requestCount - activation - 1)

def Scenario.choices (s : Scenario) (seed : UInt64) : ChoicePlan :=
  let (state, value) := splitMix64Next seed
  let activation := activationIndex s.requestCount value
  let (state, value) := splitMix64Next state
  { version := choicePlanVersion
    seed
    outageActivationRequestIndex := activation
    restorationRequestIndex := restorationIndex s.requestCount activation value
    requests := plannedRequests s.payloadBytes s.requestCount 0 state }

/-- The request indices before which the process fault may fall. -/
def faultCandidates (requestCount activation restoration : Nat) : List Nat :=
  (List.range' 1 (requestCount - 1)).filter fun index => index != activation && index != restoration

def WorkloadScenario.choices (s : WorkloadScenario) (seed : UInt64) : WorkloadChoicePlan :=
  let (state, value) := splitMix64Next seed
  let activation := activationIndex s.requestCount value
  let (state, value) := splitMix64Next state
  let restoration := restorationIndex s.requestCount activation value
  let candidates := faultCandidates s.requestCount activation restoration
  let (state, value) := splitMix64Next state
  { version := workloadChoicePlanVersion
    seed
    processFaultRequestIndex := candidates.getD (value.toNat % candidates.length) 0
    outageActivationRequestIndex := activation
    restorationRequestIndex := restoration
    requests := plannedRequests s.payloadBytes s.requestCount 0 state }

/-! ## What validation leaves -/

theorem parseOctet_ok {part : Text} {value : Nat} (h : parseOctet part = some value) : part = decimal value := by
  unfold parseOctet at h
  dsimp only at h
  split_ifs at h with h1 h2 h3
  cases h
  simp only [Bool.or_eq_true, List.isEmpty_iff, decide_eq_true_eq, Bool.not_eq_true', not_or, Bool.not_eq_false,
    List.all_eq_true] at h1
  have hdigits : ∀ b ∈ part, 48 ≤ b ∧ b ≤ 57 := by
    intro b hb
    simpa [Workload.isAsciiDigit] using h1.2 b hb
  by_cases hhead : part.head? = some 48
  · -- a leading zero is the whole part
    have hlen : part.length = 1 := by
      have hpos := List.length_pos_iff.mpr h1.1.1
      have hshort : ¬ part.length > 1 := fun hlong => h2 (by simp [hlong, hhead])
      omega
    obtain ⟨b, rfl⟩ := List.length_eq_one_iff.mp hlen
    cases hhead
    rfl
  · exact (decimal_digitsValue part hdigits h1.1.1 hhead).2.symm

/-- **The peer** of a validated scenario is the fixed one. -/
theorem validatePeer_ok {peer : Text} (h : validatePeer peer = .ok ()) : peer = "10.0.2.2" := by
  unfold validatePeer at h
  split at h
  · rename_i octets hoctets
    have hfixed : octets = [10, 0, 2, 2] := by simpa using h
    subst hfixed
    unfold parseIpv4 at hoctets
    split at hoctets
    · rename_i a b c d hsplit
      have hjoin : peer = [46].intercalate [a, b, c, d] := by rw [← hsplit, List.intercalate_splitOn]
      rw [hjoin]
      have hparts : parseOctet a = some 10 ∧ parseOctet b = some 0 ∧ parseOctet c = some 2 ∧
          parseOctet d = some 2 := by
        simpa [List.mapM_cons, Option.bind_eq_some_iff] using hoctets
      rw [parseOctet_ok hparts.1, parseOctet_ok hparts.2.1, parseOctet_ok hparts.2.2.1, parseOctet_ok hparts.2.2.2]
      decide
    · cases hoctets
  · split at h <;> cases h

/-- What both `validate` functions check. -/
structure ValidShape (requestCount payloadBytes outageEventBound livenessEventBound : Nat) (peer : Text)
    (minRequests maxPayload : Nat) : Prop where
  requests_ge : minRequests ≤ requestCount
  requests_le : requestCount ≤ maxRequestCount
  payload_le : payloadBytes ≤ maxPayload
  outage_pos : 1 ≤ outageEventBound
  liveness_ge : 2 ≤ livenessEventBound
  peer_eq : peer = "10.0.2.2"

theorem validateShape_ok {name peer payloadText : Text}
    {requestCount payloadBytes outageEventBound livenessEventBound minRequests maxPayload : Nat}
    (h : validateShape name requestCount payloadBytes outageEventBound livenessEventBound peer
      minRequests maxPayload payloadText = .ok ()) :
    ValidShape requestCount payloadBytes outageEventBound livenessEventBound peer minRequests maxPayload := by
  unfold validateShape at h
  obtain ⟨_, -, h⟩ := bind_eq_ok.mp h
  obtain ⟨_, hcount, h⟩ := bind_eq_ok.mp h
  obtain ⟨_, hpayload, h⟩ := bind_eq_ok.mp h
  obtain ⟨_, -, h⟩ := bind_eq_ok.mp h
  obtain ⟨_, -, h⟩ := bind_eq_ok.mp h
  obtain ⟨_, hbounds, hpeer⟩ := bind_eq_ok.mp h
  simp only [require_eq_ok, Bool.and_eq_true, decide_eq_true_eq, bne_iff_ne] at hcount hpayload hbounds
  exact ⟨hcount.1, hcount.2, hpayload.2, Nat.pos_of_ne_zero hbounds.1, hbounds.2, validatePeer_ok hpeer⟩

theorem validateShape_budget {name peer payloadText : Text}
    {requestCount payloadBytes outageEventBound livenessEventBound minRequests maxPayload : Nat}
    (h : validateShape name requestCount payloadBytes outageEventBound livenessEventBound peer
      minRequests maxPayload payloadText = .ok ()) : requestCount * payloadBytes ≤ maxTotalPayloadBytes := by
  unfold validateShape at h
  obtain ⟨_, -, h⟩ := bind_eq_ok.mp h
  obtain ⟨_, -, h⟩ := bind_eq_ok.mp h
  obtain ⟨_, -, h⟩ := bind_eq_ok.mp h
  obtain ⟨_, -, h⟩ := bind_eq_ok.mp h
  obtain ⟨_, hbudget, -⟩ := bind_eq_ok.mp h
  simpa only [require_eq_ok, decide_eq_true_eq] using hbudget

theorem WorkloadScenario.validate_shape {s : WorkloadScenario} (h : s.validate = .ok ()) :
    ValidShape s.requestCount s.payloadBytes s.outageEventBound s.livenessEventBound s.fixturePeer
      minWorkloadRequestCount maxWorkloadPayloadBytes := by
  obtain ⟨_, -, h⟩ := bind_eq_ok.mp h
  exact validateShape_ok h

theorem Scenario.validate_shape {s : Scenario} (h : s.validate = .ok ()) :
    ValidShape s.requestCount s.payloadBytes s.outageEventBound s.livenessEventBound s.fixturePeer 3
      (maxRequestDataLength / 4) := by
  obtain ⟨_, -, h⟩ := bind_eq_ok.mp h
  exact validateShape_ok h

theorem Scenario.validate_budget {s : Scenario} (h : s.validate = .ok ()) :
    s.requestCount * s.payloadBytes ≤ maxTotalPayloadBytes := by
  obtain ⟨_, -, h⟩ := bind_eq_ok.mp h
  exact validateShape_budget h

theorem WorkloadScenario.validate_budget {s : WorkloadScenario} (h : s.validate = .ok ()) :
    s.requestCount * s.payloadBytes ≤ maxTotalPayloadBytes := by
  obtain ⟨_, -, h⟩ := bind_eq_ok.mp h
  exact validateShape_budget h

/-! ## What a plan looks like -/

theorem length_plannedRequests (payloadBytes : Nat) : ∀ (left index : Nat) (state : UInt64),
    (plannedRequests payloadBytes left index state).length = left
  | 0, _, _ => rfl
  | left + 1, index, state => by
    rw [plannedRequests]
    simp [length_plannedRequests payloadBytes left]

theorem length_hexBytesLoop : ∀ (left index : Nat) (state value : UInt64),
    (hexBytesLoop left index state value).2.length = 2 * left
  | 0, _, _, _ => rfl
  | left + 1, index, state, value => by
    rw [hexBytesLoop]
    simp only [List.length_cons, length_hexBytesLoop left]
    omega

/-- The request at a position names that position, and its payload has the digits of the scenario's bytes. -/
theorem getElem?_plannedRequests {payloadBytes : Nat} : ∀ {left index : Nat} {state : UInt64} {i : Nat}
    {request : PlannedRequest}, (plannedRequests payloadBytes left index state)[i]? = some request →
    (∃ nonce, request.requestId = requestIdText (index + i) nonce) ∧ request.payload.length = 2 * payloadBytes
  | 0, _, _, _, _, h => by simp [plannedRequests] at h
  | left + 1, index, state, 0, request, h => by
    rw [plannedRequests] at h
    simp only [List.getElem?_cons_zero, Option.some.injEq] at h
    subst h
    exact ⟨⟨_, rfl⟩, length_hexBytesLoop _ _ _ _⟩
  | left + 1, index, state, i + 1, request, h => by
    rw [plannedRequests] at h
    simp only [List.getElem?_cons_succ] at h
    obtain ⟨⟨nonce, hid⟩, hpayload⟩ := getElem?_plannedRequests h
    exact ⟨⟨nonce, by rw [hid, Nat.add_right_comm, Nat.add_assoc]⟩, hpayload⟩

theorem length_requestIdText {index : Nat} (h : index < 10 ^ 4) (nonce : UInt64) :
    (requestIdText index nonce).length = 29 := by
  have hhex := length_hexPadded (show 0 < 16 by decide) (show nonce.toNat < 16 ^ 16 from nonce.toNat_lt)
  simp only [requestIdText, List.length_append, hhex, length_decimalPadded (show 0 < 4 by decide) h]
  rfl

/-- An identifier determines its index. -/
theorem requestIdText_inj {i j : Nat} (hi : i < 10 ^ 4) (hj : j < 10 ^ 4) {nonce nonce' : UInt64}
    (h : requestIdText i nonce = requestIdText j nonce') : i = j := by
  unfold requestIdText at h
  rw [List.append_assoc, List.append_assoc, List.append_assoc, List.append_assoc, List.append_cancel_left_eq] at h
  have hlen := (length_decimalPadded (show 0 < 4 by decide) hi).trans
    (length_decimalPadded (show 0 < 4 by decide) hj).symm
  have hpadded := (List.append_inj h hlen).1
  rw [← digitsValue_decimalPadded 4 i, hpadded, digitsValue_decimalPadded]

theorem isAscii_requestIdText (index : Nat) (nonce : UInt64) : IsAscii (requestIdText index nonce) := by
  refine .append (.append (.append ?_ (isAscii_decimalPadded 4 index)) ?_) (isAscii_hexPadded 16 nonce.toNat)
  · decide
  · decide

theorem isAscii_plannedRequests (payloadBytes : Nat) : ∀ (left index : Nat) (state : UInt64),
    ∀ r ∈ plannedRequests payloadBytes left index state, IsAscii r.requestId
  | 0, _, _, r, h => by simp [plannedRequests] at h
  | left + 1, index, state, r, h => by
    rw [plannedRequests] at h
    rcases List.mem_cons.mp h with rfl | h
    · exact isAscii_requestIdText _ _
    · exact isAscii_plannedRequests payloadBytes left _ _ r h

/-- Where the activation, the restoration and the fault of a plan may fall. -/
structure PlanBounds (plan : WorkloadChoicePlan) (requestCount : Nat) : Prop where
  activation_pos : 1 ≤ plan.outageActivationRequestIndex
  activation_lt : plan.outageActivationRequestIndex < plan.restorationRequestIndex
  restoration_lt : plan.restorationRequestIndex < requestCount
  fault_pos : 1 ≤ plan.processFaultRequestIndex
  fault_lt : plan.processFaultRequestIndex < requestCount
  fault_ne_activation : plan.processFaultRequestIndex ≠ plan.outageActivationRequestIndex
  fault_ne_restoration : plan.processFaultRequestIndex ≠ plan.restorationRequestIndex
  requests_length : plan.requests.length = requestCount

theorem activationIndex_bounds {n : Nat} (hn : 3 ≤ n) (value : UInt64) :
    1 ≤ activationIndex n value ∧ activationIndex n value < n - 1 := by
  have := Nat.mod_lt value.toNat (show 0 < n - 2 by omega)
  unfold activationIndex
  omega

theorem restorationIndex_bounds {n a : Nat} (ha : a < n - 1) (value : UInt64) :
    a < restorationIndex n a value ∧ restorationIndex n a value < n := by
  have := Nat.mod_lt value.toNat (show 0 < n - a - 1 by omega)
  unfold restorationIndex
  omega

theorem mem_faultCandidates {n a r i : Nat} :
    i ∈ faultCandidates n a r ↔ (1 ≤ i ∧ i < n) ∧ i ≠ a ∧ i ≠ r := by
  unfold faultCandidates
  rw [List.mem_filter, List.mem_range'_1]
  simp only [Bool.and_eq_true, bne_iff_ne]
  constructor
  · rintro ⟨h1, h2⟩
    exact ⟨by omega, h2⟩
  · rintro ⟨h1, h2⟩
    exact ⟨by omega, h2⟩

/-- A validated workload scenario leaves a candidate for the fault. -/
theorem faultCandidates_ne_nil {n a r : Nat} (hn : 4 ≤ n) (har : a < r) :
    faultCandidates n a r ≠ [] := by
  -- one of 1, 2, 3 is neither transition
  intro hnil
  have hno : ∀ i, i ∉ faultCandidates n a r := by simp [hnil]
  have h1 := hno 1
  have h2 := hno 2
  have h3 := hno 3
  rw [mem_faultCandidates] at h1 h2 h3
  omega

theorem validate_requestCount {s : WorkloadScenario} (h : s.validate = .ok ()) :
    4 ≤ s.requestCount ∧ s.requestCount ≤ maxRequestCount :=
  ⟨(WorkloadScenario.validate_shape h).requests_ge, (WorkloadScenario.validate_shape h).requests_le⟩

/-- **The seeded indices of a validated scenario.** -/
theorem WorkloadScenario.choices_bounds {s : WorkloadScenario} (h : s.validate = .ok ()) (seed : UInt64) :
    PlanBounds (s.choices seed) s.requestCount := by
  have hn := (validate_requestCount h).1
  obtain ⟨ha1, ha2⟩ := activationIndex_bounds (show 3 ≤ s.requestCount by omega) (splitMix64Next seed).2
  obtain ⟨hr1, hr2⟩ := restorationIndex_bounds ha2 (splitMix64Next (splitMix64Next seed).1).2
  have hne := faultCandidates_ne_nil hn hr1
  have hfault : (s.choices seed).processFaultRequestIndex ∈ faultCandidates s.requestCount
      (s.choices seed).outageActivationRequestIndex (s.choices seed).restorationRequestIndex := by
    unfold WorkloadScenario.choices
    dsimp only
    rw [List.getD_eq_getElem _ _ (Nat.mod_lt _ (List.length_pos_iff.mpr hne))]
    exact List.getElem_mem _
  rw [mem_faultCandidates] at hfault
  exact ⟨ha1, hr1, hr2, hfault.1.1, hfault.1.2, hfault.2.1, hfault.2.2, length_plannedRequests _ _ _ _⟩

theorem choices_requests_ascii (s : WorkloadScenario) (seed : UInt64) :
    ∀ r ∈ (s.choices seed).requests, IsAscii r.requestId :=
  isAscii_plannedRequests _ _ _ _

end SimFerret
