import SimFerret.Vm.Difference

/-!
# SimFerret.Vm.Identity — the recorded environment of a run, and its comparison at replay (`vm.rs`)

* `VmIdentity`, `NetworkIdentity` and their parts, with `toValue`: what `serde_json::to_value` makes of them.
* `validateIdentityCompatibility`, `validateReplayNetworkIdentity`: the checks before a replay is launched.
* `firstIdentityDifference_complete`: **the search names a difference whenever there is one**.
* `vmIdentities_compared`, `networkIdentities_compared`: the serializations of different environments differ, so
  the checks return an answer for any two.
-/

namespace SimFerret

open Json

@[ext] structure FileIdentity where
  path : Text
  sha256 : Text
deriving DecidableEq, Repr

@[ext] structure NicIdentity where
  model : Text
  macAddress : Text
  bus : Text
  pciAddress : Text
  optionRom : Bool
deriving DecidableEq, Repr

@[ext] structure BackendIdentity where
  kind : Text
  id : Text
  restricted : Bool
deriving DecidableEq, Repr

@[ext] structure ReplayFilterIdentity where
  kind : Text
  id : Text
  backendId : Text
  queue : Text
deriving DecidableEq, Repr

@[ext] structure AddressingIdentity where
  guestCidr : Text
  gateway : Text
  peer : Text
deriving DecidableEq, Repr

@[ext] structure RouteIdentity where
  destination : Text
  gateway : Text
  interface : Text
deriving DecidableEq, Repr

@[ext] structure FixtureIdentity where
  transport : Text
  behavior : Text
  contentSha256 : Text
deriving DecidableEq, Repr

@[ext] structure FaultIdentity where
  mechanism : Text
  direction : Text
  peerCidr : Text
  rule : Text
  tool : FileIdentity
deriving DecidableEq, Repr

@[ext] structure NetworkIdentity where
  nic : NicIdentity
  backend : BackendIdentity
  replayFilter : Option ReplayFilterIdentity
  addressing : AddressingIdentity
  route : RouteIdentity
  fixture : FixtureIdentity
  fault : FaultIdentity
deriving DecidableEq, Repr

@[ext] structure VmIdentity where
  qemu : FileIdentity
  qemuVersion : Text
  kernel : FileIdentity
  initramfsSha256 : Text
  machine : Text
  cpu : Text
  memoryMib : Nat
  vcpus : Nat
  accelerator : Text
  firmware : List FileIdentity
  devices : List Text
  network : Option NetworkIdentity
deriving DecidableEq, Repr

/-! ## Their serializations

The members of each object stand in the order of their keys, as the map keeps them. -/

section Serialization

variable {F : Type}

def FileIdentity.toValue (file : FileIdentity) : Value Text (Number F) := .object [
  (utf8 "path", .string file.path),
  (utf8 "sha256", .string file.sha256)]

def NicIdentity.toValue (nic : NicIdentity) : Value Text (Number F) := .object [
  (utf8 "bus", .string nic.bus),
  (utf8 "mac_address", .string nic.macAddress),
  (utf8 "model", .string nic.model),
  (utf8 "option_rom", .bool nic.optionRom),
  (utf8 "pci_address", .string nic.pciAddress)]

def BackendIdentity.toValue (backend : BackendIdentity) : Value Text (Number F) := .object [
  (utf8 "id", .string backend.id),
  (utf8 "kind", .string backend.kind),
  (utf8 "restricted", .bool backend.restricted)]

def ReplayFilterIdentity.toValue (filter : ReplayFilterIdentity) : Value Text (Number F) := .object [
  (utf8 "backend_id", .string filter.backendId),
  (utf8 "id", .string filter.id),
  (utf8 "kind", .string filter.kind),
  (utf8 "queue", .string filter.queue)]

def AddressingIdentity.toValue (addressing : AddressingIdentity) : Value Text (Number F) := .object [
  (utf8 "gateway", .string addressing.gateway),
  (utf8 "guest_cidr", .string addressing.guestCidr),
  (utf8 "peer", .string addressing.peer)]

def RouteIdentity.toValue (route : RouteIdentity) : Value Text (Number F) := .object [
  (utf8 "destination", .string route.destination),
  (utf8 "gateway", .string route.gateway),
  (utf8 "interface", .string route.interface)]

def FixtureIdentity.toValue (fixture : FixtureIdentity) : Value Text (Number F) := .object [
  (utf8 "behavior", .string fixture.behavior),
  (utf8 "content_sha256", .string fixture.contentSha256),
  (utf8 "transport", .string fixture.transport)]

def FaultIdentity.toValue (fault : FaultIdentity) : Value Text (Number F) := .object [
  (utf8 "direction", .string fault.direction),
  (utf8 "mechanism", .string fault.mechanism),
  (utf8 "peer_cidr", .string fault.peerCidr),
  (utf8 "rule", .string fault.rule),
  (utf8 "tool", fault.tool.toValue)]

/-- An absent filter is written as `null`. -/
def NetworkIdentity.toValue (network : NetworkIdentity) : Value Text (Number F) := .object [
  (utf8 "addressing", network.addressing.toValue),
  (utf8 "backend", network.backend.toValue),
  (utf8 "fault", network.fault.toValue),
  (utf8 "fixture", network.fixture.toValue),
  (utf8 "nic", network.nic.toValue),
  (utf8 "replay_filter", network.replayFilter.elim .null ReplayFilterIdentity.toValue),
  (utf8 "route", network.route.toValue)]

/-- An absent network is not written at all. -/
def VmIdentity.toValue (vm : VmIdentity) : Value Text (Number F) := .object ([
  (utf8 "accelerator", .string vm.accelerator),
  (utf8 "cpu", .string vm.cpu),
  (utf8 "devices", .array (vm.devices.map .string)),
  (utf8 "firmware", .array (vm.firmware.map FileIdentity.toValue)),
  (utf8 "initramfs_sha256", .string vm.initramfsSha256),
  (utf8 "kernel", vm.kernel.toValue),
  (utf8 "machine", .string vm.machine),
  (utf8 "memory_mib", .number (.posInt vm.memoryMib))] ++
  vm.network.toList.map (fun network => (utf8 "network", network.toValue)) ++ [
  (utf8 "qemu", vm.qemu.toValue),
  (utf8 "qemu_version", .string vm.qemuVersion),
  (utf8 "vcpus", .number (.posInt vm.vcpus))])

theorem FileIdentity.sorted (file : FileIdentity) : (file.toValue : Value Text (Number F)).Sorted := by
  have hkeys : [utf8 "path", utf8 "sha256"].Pairwise (· < ·) := by decide
  exact ⟨hkeys, trivial, trivial, trivial⟩

theorem NicIdentity.sorted (nic : NicIdentity) : (nic.toValue : Value Text (Number F)).Sorted := by
  have hkeys : [utf8 "bus", utf8 "mac_address", utf8 "model",
      utf8 "option_rom", utf8 "pci_address"].Pairwise (· < ·) := by decide
  exact ⟨hkeys, trivial, trivial, trivial, trivial, trivial, trivial⟩

theorem BackendIdentity.sorted (backend : BackendIdentity) : (backend.toValue : Value Text (Number F)).Sorted := by
  have hkeys : [utf8 "id", utf8 "kind", utf8 "restricted"].Pairwise (· < ·) := by decide
  exact ⟨hkeys, trivial, trivial, trivial, trivial⟩

theorem ReplayFilterIdentity.sorted (filter : ReplayFilterIdentity) :
    (filter.toValue : Value Text (Number F)).Sorted := by
  have hkeys : [utf8 "backend_id", utf8 "id", utf8 "kind", utf8 "queue"].Pairwise (· < ·) := by decide
  exact ⟨hkeys, trivial, trivial, trivial, trivial, trivial⟩

theorem AddressingIdentity.sorted (addressing : AddressingIdentity) :
    (addressing.toValue : Value Text (Number F)).Sorted := by
  have hkeys : [utf8 "gateway", utf8 "guest_cidr", utf8 "peer"].Pairwise (· < ·) := by decide
  exact ⟨hkeys, trivial, trivial, trivial, trivial⟩

theorem RouteIdentity.sorted (route : RouteIdentity) : (route.toValue : Value Text (Number F)).Sorted := by
  have hkeys : [utf8 "destination", utf8 "gateway", utf8 "interface"].Pairwise (· < ·) := by decide
  exact ⟨hkeys, trivial, trivial, trivial, trivial⟩

theorem FixtureIdentity.sorted (fixture : FixtureIdentity) : (fixture.toValue : Value Text (Number F)).Sorted := by
  have hkeys : [utf8 "behavior", utf8 "content_sha256", utf8 "transport"].Pairwise (· < ·) := by decide
  exact ⟨hkeys, trivial, trivial, trivial, trivial⟩

theorem FaultIdentity.sorted (fault : FaultIdentity) : (fault.toValue : Value Text (Number F)).Sorted := by
  have hkeys : [utf8 "direction", utf8 "mechanism", utf8 "peer_cidr",
      utf8 "rule", utf8 "tool"].Pairwise (· < ·) := by decide
  exact ⟨hkeys, trivial, trivial, trivial, trivial, fault.tool.sorted, trivial⟩

theorem NetworkIdentity.sorted (network : NetworkIdentity) : (network.toValue : Value Text (Number F)).Sorted := by
  have hkeys : [utf8 "addressing", utf8 "backend", utf8 "fault", utf8 "fixture", utf8 "nic", utf8 "replay_filter",
      utf8 "route"].Pairwise (· < ·) := by decide
  have hfilter : (network.replayFilter.elim .null ReplayFilterIdentity.toValue :
      Value Text (Number F)).Sorted := by
    cases network.replayFilter with
    | none => exact trivial
    | some filter => exact filter.sorted
  exact ⟨hkeys, network.addressing.sorted, network.backend.sorted, network.fault.sorted, network.fixture.sorted,
    network.nic.sorted, hfilter, network.route.sorted, trivial⟩

theorem VmIdentity.sorted (vm : VmIdentity) : (vm.toValue : Value Text (Number F)).Sorted := by
  have hkeys : [utf8 "accelerator", utf8 "cpu", utf8 "devices", utf8 "firmware", utf8 "initramfs_sha256",
      utf8 "kernel", utf8 "machine", utf8 "memory_mib", utf8 "network", utf8 "qemu", utf8 "qemu_version",
      utf8 "vcpus"].Pairwise (· < ·) := by decide
  have hdevices : Value.SortedItems (vm.devices.map fun device => (.string device : Value Text (Number F))) := by
    rw [Value.sortedItems_iff, List.forall_mem_map]
    exact fun _ _ => trivial
  have hfirmware : Value.SortedItems (vm.firmware.map fun file => (file.toValue : Value Text (Number F))) := by
    rw [Value.sortedItems_iff, List.forall_mem_map]
    exact fun file _ => file.sorted
  rw [VmIdentity.toValue]
  cases vm.network with
  | none =>
    have hfewer := hkeys.sublist (List.eraseIdx_sublist _ 8)
    exact ⟨hfewer, trivial, trivial, hdevices, hfirmware, trivial, vm.kernel.sorted, trivial, trivial,
      vm.qemu.sorted, trivial, trivial, trivial⟩
  | some network =>
    exact ⟨hkeys, trivial, trivial, hdevices, hfirmware, trivial, vm.kernel.sorted, trivial, trivial,
      network.sorted, vm.qemu.sorted, trivial, trivial, trivial⟩

variable [BEq F]

theorem FileIdentity.eq_of_same {a b : FileIdentity}
    (h : (a.toValue : Value Text (Number F)).same b.toValue = true) :
    a = b := by
  simp only [toValue, Value.same, Value.sameMembers, Bool.and_eq_true, decide_eq_true_iff] at h
  obtain ⟨⟨-, hpath⟩, ⟨-, hsha256⟩, -⟩ := h
  exact FileIdentity.ext hpath hsha256

theorem NicIdentity.eq_of_same {a b : NicIdentity}
    (h : (a.toValue : Value Text (Number F)).same b.toValue = true) :
    a = b := by
  simp only [toValue, Value.same, Value.sameMembers, Bool.and_eq_true, decide_eq_true_iff, beq_iff_eq] at h
  obtain ⟨⟨-, hbus⟩, ⟨-, hmac⟩, ⟨-, hmodel⟩, ⟨-, hrom⟩, ⟨-, hpci⟩, -⟩ := h
  exact NicIdentity.ext hmodel hmac hbus hpci hrom

theorem BackendIdentity.eq_of_same {a b : BackendIdentity}
    (h : (a.toValue : Value Text (Number F)).same b.toValue = true) :
    a = b := by
  simp only [toValue, Value.same, Value.sameMembers, Bool.and_eq_true, decide_eq_true_iff, beq_iff_eq] at h
  obtain ⟨⟨-, hid⟩, ⟨-, hkind⟩, ⟨-, hrestricted⟩, -⟩ := h
  exact BackendIdentity.ext hkind hid hrestricted

theorem ReplayFilterIdentity.eq_of_same {a b : ReplayFilterIdentity}
    (h : (a.toValue : Value Text (Number F)).same b.toValue = true) :
    a = b := by
  simp only [toValue, Value.same, Value.sameMembers, Bool.and_eq_true, decide_eq_true_iff] at h
  obtain ⟨⟨-, hbackend⟩, ⟨-, hid⟩, ⟨-, hkind⟩, ⟨-, hqueue⟩, -⟩ := h
  exact ReplayFilterIdentity.ext hkind hid hbackend hqueue

theorem AddressingIdentity.eq_of_same {a b : AddressingIdentity}
    (h : (a.toValue : Value Text (Number F)).same b.toValue = true) :
    a = b := by
  simp only [toValue, Value.same, Value.sameMembers, Bool.and_eq_true, decide_eq_true_iff] at h
  obtain ⟨⟨-, hgateway⟩, ⟨-, hcidr⟩, ⟨-, hpeer⟩, -⟩ := h
  exact AddressingIdentity.ext hcidr hgateway hpeer

theorem RouteIdentity.eq_of_same {a b : RouteIdentity}
    (h : (a.toValue : Value Text (Number F)).same b.toValue = true) :
    a = b := by
  simp only [toValue, Value.same, Value.sameMembers, Bool.and_eq_true, decide_eq_true_iff] at h
  obtain ⟨⟨-, hdestination⟩, ⟨-, hgateway⟩, ⟨-, hinterface⟩, -⟩ := h
  exact RouteIdentity.ext hdestination hgateway hinterface

theorem FixtureIdentity.eq_of_same {a b : FixtureIdentity}
    (h : (a.toValue : Value Text (Number F)).same b.toValue = true) :
    a = b := by
  simp only [toValue, Value.same, Value.sameMembers, Bool.and_eq_true, decide_eq_true_iff] at h
  obtain ⟨⟨-, hbehavior⟩, ⟨-, hsha256⟩, ⟨-, htransport⟩, -⟩ := h
  exact FixtureIdentity.ext htransport hbehavior hsha256

theorem FaultIdentity.eq_of_same {a b : FaultIdentity}
    (h : (a.toValue : Value Text (Number F)).same b.toValue = true) :
    a = b := by
  simp only [toValue, Value.same, Value.sameMembers, Bool.and_eq_true, decide_eq_true_iff] at h
  obtain ⟨⟨-, hdirection⟩, ⟨-, hmechanism⟩, ⟨-, hpeer⟩, ⟨-, hrule⟩, ⟨-, htool⟩, -⟩ := h
  exact FaultIdentity.ext hmechanism hdirection hpeer hrule (FileIdentity.eq_of_same htool)

theorem NetworkIdentity.eq_of_same {a b : NetworkIdentity}
    (h : (a.toValue : Value Text (Number F)).same b.toValue = true) : a = b := by
  simp only [toValue, Value.same, Value.sameMembers, Bool.and_eq_true] at h
  obtain ⟨⟨-, haddressing⟩, ⟨-, hbackend⟩, ⟨-, hfault⟩, ⟨-, hfixture⟩, ⟨-, hnic⟩, ⟨-, hfilter⟩,
    ⟨-, hroute⟩, -⟩ := h
  have hfilters : a.replayFilter = b.replayFilter := by
    cases ha : a.replayFilter with
    | none =>
      cases hb : b.replayFilter with
      | none => rfl
      | some g =>
        rw [ha, hb] at hfilter
        cases hfilter
    | some f =>
      cases hb : b.replayFilter with
      | none =>
        rw [ha, hb] at hfilter
        cases hfilter
      | some g =>
        rw [ha, hb] at hfilter
        rw [ReplayFilterIdentity.eq_of_same hfilter]
  exact NetworkIdentity.ext (NicIdentity.eq_of_same hnic) (BackendIdentity.eq_of_same hbackend) hfilters
    (AddressingIdentity.eq_of_same haddressing) (RouteIdentity.eq_of_same hroute)
    (FixtureIdentity.eq_of_same hfixture)
    (FaultIdentity.eq_of_same hfault)

/-- Lists are equal when their serializations are, item by item. -/
theorem eq_of_sameItems {α : Type} {f : α → Value Text (Number F)} (hf : ∀ {a b}, (f a).same (f b) = true → a = b)
    {l l' : List α} (h : Value.sameItems (l.map f) (l'.map f) = true) : l = l' := by
  rw [Value.sameItems_iff, List.forall₂_map_left_iff, List.forall₂_map_right_iff] at h
  rw [← List.forall₂_eq_eq_eq]
  exact h.imp fun _ _ => hf

theorem Number.eq_of_posInt {n m : Nat} (h : (Number.posInt n == (Number.posInt m : Number F)) = true) : n = m :=
  eq_of_beq (show (n == m) = true from h)

/-- **Different environments have different serializations.** -/
theorem VmIdentity.eq_of_same {a b : VmIdentity} (h : (a.toValue : Value Text (Number F)).same b.toValue = true) :
    a = b := by
  simp only [toValue, List.cons_append, Value.same, Value.sameMembers, Bool.and_eq_true, decide_eq_true_iff] at h
  obtain ⟨⟨-, haccelerator⟩, ⟨-, hcpu⟩, ⟨-, hdevices⟩, ⟨-, hfirmware⟩, ⟨-, hinitramfs⟩, ⟨-, hkernel⟩,
    ⟨-, hmachine⟩, ⟨-, hmemory⟩, hrest⟩ := h
  have hdevice : ∀ {a b : Text}, (Value.string a : Value Text (Number F)).same (.string b) = true → a = b :=
    fun h => of_decide_eq_true h
  -- A name that one side does not have stands against `qemu`.
  have hname : utf8 "network" ≠ utf8 "qemu" := by decide
  have htail : a.network = b.network ∧ a.qemu = b.qemu ∧ a.qemuVersion = b.qemuVersion ∧ a.vcpus = b.vcpus := by
    cases ha : a.network with
    | none =>
      cases hb : b.network with
      | none =>
        rw [ha, hb] at hrest
        simp only [Option.toList_none, List.map_nil, List.nil_append, Value.same, Value.sameMembers,
          Bool.and_eq_true, decide_eq_true_iff] at hrest
        obtain ⟨⟨-, hqemu⟩, ⟨-, hversion⟩, ⟨-, hvcpus⟩, -⟩ := hrest
        exact ⟨rfl, FileIdentity.eq_of_same hqemu, hversion, Number.eq_of_posInt hvcpus⟩
      | some m =>
        rw [ha, hb] at hrest
        simp only [Option.toList_none, Option.toList_some, List.map_nil, List.map_cons, List.nil_append,
          List.cons_append, Value.sameMembers, Bool.and_eq_true, decide_eq_true_iff] at hrest
        exact absurd hrest.1.1.symm hname
    | some n =>
      cases hb : b.network with
      | none =>
        rw [ha, hb] at hrest
        simp only [Option.toList_none, Option.toList_some, List.map_nil, List.map_cons, List.nil_append,
          List.cons_append, Value.sameMembers, Bool.and_eq_true, decide_eq_true_iff] at hrest
        exact absurd hrest.1.1 hname
      | some m =>
        rw [ha, hb] at hrest
        simp only [Option.toList_some, List.map_nil, List.map_cons, List.nil_append, List.cons_append, Value.same,
          Value.sameMembers, Bool.and_eq_true, decide_eq_true_iff] at hrest
        obtain ⟨⟨-, hnetwork⟩, ⟨-, hqemu⟩, ⟨-, hversion⟩, ⟨-, hvcpus⟩, -⟩ := hrest
        rw [NetworkIdentity.eq_of_same hnetwork]
        exact ⟨rfl, FileIdentity.eq_of_same hqemu, hversion, Number.eq_of_posInt hvcpus⟩
  obtain ⟨hnetwork, hqemu, hversion, hvcpus⟩ := htail
  exact VmIdentity.ext hqemu hversion (FileIdentity.eq_of_same hkernel) hinitramfs hmachine hcpu
    (Number.eq_of_posInt hmemory) hvcpus haccelerator (eq_of_sameItems FileIdentity.eq_of_same hfirmware)
    (eq_of_sameItems hdevice hdevices) hnetwork

end Serialization

/-! ## The checks -/

/-- What `serde_json::to_value` makes of an environment. -/
def vmValue (F : Type) (vm : VmIdentity) : Except Text (JsonValue F) := .ok ⟨vm.toValue, vm.sorted⟩

/-- What it makes of the network of one; where there is none, `null`. -/
def networkValue (F : Type) : Option NetworkIdentity → Except Text (JsonValue F)
  | none => .ok ⟨.null, trivial⟩
  | some network => .ok ⟨network.toValue, network.sorted⟩

section Checks

variable {F : Type} [BEq F]

def validateIdentityCompatibility (toValue : VmIdentity → Except Text (JsonValue F))
    (expected actual : VmIdentity) : Machine IoError Unit :=
  validateIdentity toValue (utf8 "vm") expected actual

def validateReplayNetworkIdentity (toValue : Option NetworkIdentity → Except Text (JsonValue F))
    (expected : VmIdentity) (actual : Option NetworkIdentity) : Machine IoError Unit :=
  validateIdentity toValue (utf8 "vm.network") expected.network actual

end Checks

/-- **The search names a difference whenever there is one.**  Two values compare equal exactly when it finds
nothing, and below the path it names at most one of them has a value or the two are not equal; so neither check
panics on identities whose serializations are not equal. -/
theorem firstIdentityDifference_complete {F : Type} [BEq F] :
    (∀ (path : Text) (expected actual : JsonValue F),
      (firstIdentityDifference path expected.1 actual.1 = none ↔ expected.1.same actual.1 = true) ∧
        ∀ q, firstIdentityDifference path expected.1 actual.1 = some q →
          Names path q expected.1.get? actual.1.get?) ∧
      (∀ (toValue : VmIdentity → Except Text (JsonValue F)) (expected actual : VmIdentity),
        (∀ v w, toValue expected = .ok v → toValue actual = .ok w → v.1.same w.1 = false) →
          ¬ (validateIdentityCompatibility toValue expected actual).Faults) ∧
      ∀ (toValue : Option NetworkIdentity → Except Text (JsonValue F)) (expected : VmIdentity)
        (actual : Option NetworkIdentity),
        (∀ v w, toValue expected.network = .ok v → toValue actual = .ok w → v.1.same w.1 = false) →
          ¬ (validateReplayNetworkIdentity toValue expected actual).Faults :=
  ⟨firstIdentityDifference_spec, fun _ _ _ => validateIdentity_not_faults,
    fun _ _ _ => validateIdentity_not_faults⟩

/-- An environment for one processor model. -/
def sampleVm (cpu : Text) : VmIdentity where
  qemu := ⟨utf8 "bin/qemu-system-x86_64", utf8 "00"⟩
  qemuVersion := utf8 "10.0"
  kernel := ⟨utf8 "kernel", utf8 "01"⟩
  initramfsSha256 := utf8 "02"
  machine := utf8 "q35"
  cpu := cpu
  memoryMib := 256
  vcpus := 1
  accelerator := utf8 "tcg"
  firmware := [⟨utf8 "share/qemu/bios-256k.bin", utf8 "03"⟩]
  devices := [utf8 "isa-serial"]
  network := none

theorem firstIdentityDifference_complete_sample :
    firstIdentityDifference (utf8 "vm") (sampleVm (utf8 "qemu64")).toValue
        ((sampleVm (utf8 "max")).toValue : Value Text (Number Unit)) = some (utf8 "vm.cpu") ∧
      Names (utf8 "vm") (utf8 "vm.cpu") (sampleVm (utf8 "qemu64")).toValue.get?
        ((sampleVm (utf8 "max")).toValue : Value Text (Number Unit)).get? ∧
      ¬ (validateIdentityCompatibility (vmValue Unit) (sampleVm (utf8 "qemu64"))
          (sampleVm (utf8 "max"))).Faults := by
  have hcomplete := firstIdentityDifference_complete (F := Unit)
  have hfound : firstIdentityDifference (utf8 "vm") (sampleVm (utf8 "qemu64")).toValue
      ((sampleVm (utf8 "max")).toValue : Value Text (Number Unit)) = some (utf8 "vm.cpu") := by decide
  have hdiffer : ((sampleVm (utf8 "qemu64")).toValue : Value Text (Number Unit)).same
      (sampleVm (utf8 "max")).toValue = false := by decide
  refine ⟨hfound, (hcomplete.1 (utf8 "vm") ⟨_, (sampleVm (utf8 "qemu64")).sorted⟩ ⟨_,
    (sampleVm (utf8 "max")).sorted⟩).2 _ hfound, hcomplete.2.1 (vmValue Unit) _ _ fun v w hv hw => ?_⟩
  rw [← Except.ok.inj hv, ← Except.ok.inj hw]
  exact hdiffer

/-! ## What the checks answer -/

/-- **Any two environments are compared without a panic.**  The check accepts equal ones, and names a difference
between others. -/
theorem vmIdentities_compared (F : Type) [BEq F] (expected actual : VmIdentity) :
    expected = actual ∧ (validateIdentityCompatibility (vmValue F) expected actual).Returns (.ok ()) ∨
      expected ≠ actual ∧ ∃ q, Names (utf8 "vm") q expected.toValue.get?
        (actual.toValue : Value Text (Number F)).get? ∧
        (validateIdentityCompatibility (vmValue F) expected actual).Returns
          (.error (invalidData (utf8 "replay environment identity differs at " ++ q))) := by
  have hdiffer : ∀ v w, vmValue F expected = .ok v → vmValue F actual = .ok w → v.1.same w.1 = true →
      expected = actual := by
    intro v w hv hw hsame
    rw [← Except.ok.inj hv, ← Except.ok.inj hw] at hsame
    exact VmIdentity.eq_of_same hsame
  have hok : ∀ vm, ∃ v, vmValue F vm = .ok v := fun vm => ⟨_, rfl⟩
  rcases validateIdentity_decides hok hdiffer with heq | ⟨hne, v, w, q, hv, hw, hq, hr⟩
  · exact .inl heq
  · rw [← Except.ok.inj hv, ← Except.ok.inj hw] at hq
    exact .inr ⟨hne, q, hq, hr⟩

theorem networkValue_same {F : Type} [BEq F] {a b : Option NetworkIdentity} {v w : JsonValue F}
    (hv : networkValue F a = .ok v) (hw : networkValue F b = .ok w) (h : v.1.same w.1 = true) : a = b := by
  cases a with
  | none =>
    cases b with
    | none => rfl
    | some m =>
      rw [← Except.ok.inj hv, ← Except.ok.inj hw] at h
      cases h
  | some n =>
    cases b with
    | none =>
      rw [← Except.ok.inj hv, ← Except.ok.inj hw] at h
      cases h
    | some m =>
      rw [← Except.ok.inj hv, ← Except.ok.inj hw] at h
      rw [NetworkIdentity.eq_of_same h]

/-- The same holds for the network of an environment. -/
theorem networkIdentities_compared (F : Type) [BEq F] (expected : VmIdentity) (actual : Option NetworkIdentity) :
    expected.network = actual ∧ (validateReplayNetworkIdentity (networkValue F) expected actual).Returns (.ok ()) ∨
      expected.network ≠ actual ∧ ∃ v w q, networkValue F expected.network = .ok v ∧
        networkValue F actual = .ok w ∧ Names (utf8 "vm.network") q v.1.get? w.1.get? ∧
        (validateReplayNetworkIdentity (networkValue F) expected actual).Returns
          (.error (invalidData (utf8 "replay environment identity differs at " ++ q))) := by
  refine validateIdentity_decides (fun network => ?_) fun v w hv hw => networkValue_same hv hw
  cases network with
  | none => exact ⟨_, rfl⟩
  | some network => exact ⟨_, rfl⟩

end SimFerret
