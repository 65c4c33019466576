import Mathlib.Data.List.Perm.Basic
import SimFerret.Digests
import SimFerret.Driver.Fits
import SimFerret.Frames
import SimFerret.Guest.Agent
import SimFerret.Vm.Identity

/-!
# SimFerret.Vm.Launch — the network profile, its fixture and the launch of a VM (`vm.rs`)

The emulator itself is a parameter: what it is given, what it reports, and what it leaves under the names of its
outputs.

* `restrictedTftp`, `NetworkIdentity.validate`: the one supported network profile, and the check of a profile.
* `createPrepared`: the fixture, read from its directory and copied for the VM.
* `QemuAdapter.launch`: the checks in front of a launch, and the readiness of the guest behind it.
* `launchReplay_ok`: **a VM that is replayed has the environment of the recording**.
* `launchReplay_of_record`: **a VM that was recorded is launched again**, if the replayed configuration names
  what the recorded one did.
-/

namespace SimFerret

open Workload Driver

/-- What `open` finds at a path: a regular file has the length of its metadata and what reading it gives. -/
inductive Artifact where
  | regular (length : Nat) (contents : Bytes)
  | special
deriving DecidableEq, Repr

/-- A file that was written and closed. -/
def Artifact.file (contents : Bytes) : Artifact := .regular contents.length contents

/-- `valid_sha256`. -/
def validSha256 (value : Text) : Bool :=
  value.length == 64 && value.all fun byte => isAsciiDigit byte || (97 ≤ byte && byte ≤ 102)

/-! ## The profile -/

structure NetworkConfig where
  identity : NetworkIdentity
  /-- The files of the fixture directory in a recording, as `readdir` lists them. -/
  fixtureDirectory : Option (List (Text × Bytes))

def restrictedTftp (fixtureDirectory : Option (List (Text × Bytes)))
    (fixtureContentSha256 busyboxSha256 : Text) : NetworkConfig where
  identity :=
    { nic := ⟨"rtl8139", "52:54:00:12:34:56", "pci.0", "0x3", false⟩
      backend := ⟨"user", "simnet", true⟩
      replayFilter := some ⟨"filter-replay", "simnet-replay", "simnet", "all"⟩
      addressing := ⟨"10.0.2.15/24", "10.0.2.2", "10.0.2.2"⟩
      route := ⟨"0.0.0.0/0", "10.0.2.2", "eth0"⟩
      fixture := ⟨"tftp", "immutable-files", fixtureContentSha256⟩
      fault := ⟨"prohibit-route", "outbound", "10.0.2.2/32", "prohibit 10.0.2.2/32",
        ⟨"/bin/busybox", busyboxSha256⟩⟩ }
  fixtureDirectory := fixtureDirectory

def NetworkIdentity.validate (network : NetworkIdentity) : IoResult Unit := do
  require (network.nic.model == "rtl8139") (invalidNetwork "only the rtl8139 NIC is supported")
  require (network.nic.macAddress == "52:54:00:12:34:56")
    (invalidNetwork "the NIC MAC must match the proven fixed address")
  require (network.nic.bus == "pci.0" && network.nic.pciAddress == "0x3")
    (invalidNetwork "the NIC must use the proven fixed PCI attachment")
  require (!network.nic.optionRom) (invalidNetwork "the NIC option ROM must be disabled")
  require (network.backend.kind == "user")
    (invalidNetwork "TAP, bridge, socket, passthrough, and other network backends are not supported")
  require (network.backend.id == "simnet" && network.backend.restricted)
    (invalidNetwork "the user network backend must be restricted and use the fixed identifier")
  let filter ← okOr network.replayFilter (invalidNetwork
    "the replay filter is mandatory for every network backend")
  require (filter.kind == "filter-replay" && filter.id == "simnet-replay" &&
      filter.backendId == network.backend.id && filter.queue == "all")
    (invalidNetwork "the replay filter must use the proven backend attachment and all queues")
  require (network.addressing.guestCidr == "10.0.2.15/24" && network.addressing.gateway == "10.0.2.2" &&
      network.addressing.peer == "10.0.2.2")
    (invalidNetwork "guest addressing must match the proven private user-network profile")
  require (network.route.destination == "0.0.0.0/0" && network.route.gateway == network.addressing.gateway &&
      network.route.interface == "eth0")
    (invalidNetwork "the guest route must match the proven private user-network profile")
  require (network.fixture.transport == "tftp" && network.fixture.behavior == "immutable-files")
    (invalidNetwork "only immutable content served by restricted TFTP is supported")
  require (validSha256 network.fixture.contentSha256)
    (invalidNetwork "fixture content must have a lowercase SHA-256 identity")
  require (network.fault.mechanism == "prohibit-route" && network.fault.direction == "outbound" &&
      network.fault.peerCidr == "10.0.2.2/32" && network.fault.rule == "prohibit 10.0.2.2/32")
    (invalidNetwork "the fault must be the proven outbound peer-specific prohibit route")
  require (network.fault.tool.path == "/bin/busybox" && validSha256 network.fault.tool.sha256)
    (invalidNetwork "the fault tool must be the digested /bin/busybox executable")

/-! ## The fixture -/

section Fixture

variable {files entries : List (Text × Bytes)}

theorem readDirectoryNames_eq : ∀ {names taken read : List Text}, readDirectoryNames names taken = .ok read →
    read = taken ++ names.filter fun name => name != utf8 "." && name != utf8 ".."
  | [], taken, read, h => by
    obtain rfl := Except.ok.inj h
    simp
  | name :: names, taken, read, h => by
    rw [readDirectoryNames] at h
    split_ifs at h with hvalid hdots hmany hchars
    · rw [readDirectoryNames_eq h, List.filter_cons_of_neg]
      rw [Bool.or_eq_true, beq_iff_eq, beq_iff_eq] at hdots
      rcases hdots with rfl | rfl <;> simp
    · rw [readDirectoryNames_eq h, List.filter_cons_of_pos, List.append_assoc, List.singleton_append]
      rw [Bool.or_eq_true, beq_iff_eq, beq_iff_eq, not_or] at hdots
      simp [hdots.1, hdots.2]

theorem readEntries_eq : ∀ {names : List Text} {total : Nat} {entries : List (Text × Bytes)},
    readEntries files names total = .ok entries → entries.map Prod.fst = names ∧ ∀ entry ∈ entries, entry ∈ files
  | [], _, entries, h => by
    obtain rfl := Except.ok.inj h
    exact ⟨rfl, fun _ hentry => absurd hentry List.not_mem_nil⟩
  | name :: names, total, entries, h => by
    obtain ⟨file, hfile, h⟩ := bind_eq_ok.mp h
    obtain ⟨_, -, h⟩ := bind_eq_ok.mp h
    obtain ⟨_, -, h⟩ := bind_eq_ok.mp h
    obtain ⟨_, -, h⟩ := bind_eq_ok.mp h
    obtain ⟨rest, hrest, h⟩ := bind_eq_ok.mp h
    obtain rfl := pure_eq_ok.mp h
    obtain ⟨hnames, hmem⟩ := readEntries_eq hrest
    have hfound := okOr_eq_ok.mp hfile
    have hsame := List.find?_some hfound
    have hname : file.1 = name := eq_of_beq hsame
    refine ⟨by rw [List.map_cons, hnames], fun entry hentry => ?_⟩
    rcases List.mem_cons.mp hentry with rfl | hentry
    · rw [← hname]
      exact List.mem_of_find?_eq_some hfound
    · exact hmem entry hentry

/-- **A fixture is read as it was written**, in the order of its names. -/
theorem readFixtureEntries_perm (hnames : (files.map Prod.fst).Nodup)
    (hdots : ∀ file ∈ files, file.1 ≠ utf8 "." ∧ file.1 ≠ utf8 "..") (h : readFixtureEntries files = .ok entries) :
    entries.Perm files := by
  obtain ⟨names, hread, h⟩ := bind_eq_ok.mp h
  obtain ⟨_, -, h⟩ := bind_eq_ok.mp h
  obtain ⟨hsorted, hmem⟩ := readEntries_eq h
  have hall : names = files.map Prod.fst := by
    rw [readDirectoryNames_eq hread, List.nil_append, List.filter_eq_self]
    intro name hname
    obtain ⟨file, hfile, rfl⟩ := List.mem_map.mp hname
    simp [hdots file hfile]
  have hkeys : (entries.map Prod.fst).Perm (files.map Prod.fst) := by
    rw [hsorted, ← hall]
    exact List.perm_insertionSort _ _
  have hdistinct := hkeys.nodup_iff.mpr hnames
  refine (List.perm_ext_iff_of_nodup (List.Nodup.of_map _ hdistinct) (List.Nodup.of_map _ hnames)).mpr
    fun file => ?_
  refine ⟨hmem file, fun hfile => ?_⟩
  obtain ⟨entry, hentry, hsame⟩ := List.mem_map.mp (hkeys.mem_iff.mpr (List.mem_map_of_mem hfile))
  rwa [← List.inj_on_of_nodup_map hnames (hmem entry hentry) hfile hsame]

end Fixture

inductive ExecutionMode where
  | record | replay
deriving DecidableEq, Repr

section Launch

variable (sha256 : Sha256) (order : UnstableSort (Text × Bytes) Text Prod.fst)

/-- `restricted_tftp_record_with_tool_digest`. -/
def restrictedTftpRecord (fixtureDirectory : List (Text × Bytes))
    (busyboxSha256 : Text) : IoResult NetworkConfig := do
  let entries ← readFixtureEntries fixtureDirectory
  return restrictedTftp (some fixtureDirectory) (digestFixtureEntries sha256 order entries) busyboxSha256

/-- `PreparedFixture::create_in`: the files that the VM serves. -/
def createPrepared (create : IoResult Unit) (network : NetworkConfig)
    (mode : ExecutionMode) : IoResult (List (Text × Bytes)) := do
  create
  match mode, network.fixtureDirectory with
  | .record, some source => do
    let entries ← readFixtureEntries source
    let actual := digestFixtureEntries sha256 order entries
    require (actual == network.identity.fixture.contentSha256)
      (invalidNetwork ("fixture content changed after configuration: expected " ++
        network.identity.fixture.contentSha256 ++ ", actual " ++ actual))
    pure entries
  | .record, none => .error (invalidNetwork "record mode requires content-controlled fixture input")
  | .replay, none => .ok []
  | .replay, some _ => .error (invalidNetwork "replay mode does not accept live fixture input")

/-! ## The launch -/

/-- `RecordConfig`; the guest image and the replay log with what lies at their paths. -/
structure RecordConfig where
  kernel : Text
  initramfs : Text
  image : Bytes
  replayLog : Text
  recording : IoResult Artifact
  qmpSocket : Text
  serialLog : Text
  qemuLog : Text
  network : Option NetworkConfig

/-- What a started emulator does: the reads of its event channel, what its sends return, how it exits (with the
text of a status that is no success), and what it leaves under the names of its outputs. -/
structure Process where
  queue : List Delivery
  sends : List (IoResult Unit)
  status : IoResult (Option Text)
  outputs : Text → IoResult Artifact
  /-- The reader of the channel deserialized its events. -/
  decoded : ∀ frame, .event frame ∈ queue → ∃ raw : Event, raw.deserialize = .ok frame.event

/-- The rest of the channel. -/
def Process.behind (process : Process) {first : Delivery} {queue : List Delivery}
    (h : process.queue = first :: queue) : Process :=
  { process with
    queue
    decoded := fun frame hframe => process.decoded frame (h ▸ List.mem_cons_of_mem first hframe) }

/-- `wait`, and the check of the status. -/
def Process.wait (process : Process) (what : Text) : IoResult Unit := do
  match ← process.status with
  | none => pure ()
  | some status => .error ⟨.other, what ++ " exited with " ++ status⟩

structure RunningVm extends Process where
  identity : VmIdentity

structure QemuAdapter where
  executable : Text
  bios : Text
  linuxboot : Text
  /-- `File::open` and reading to the end. -/
  files : Text → IoResult Bytes
  /-- Whether `--version` succeeded, and what it printed. -/
  version : IoResult (Bool × Bytes)
  /-- The directory of the prepared fixture. -/
  temporary : IoResult Unit
  /-- The command line, the start of the process and its negotiation. -/
  start : RecordConfig → ExecutionMode → List (Text × Bytes) → IoResult Process

def machine : Text := "pc-i440fx-9.2"
def cpu : Text := "qemu64"
def memoryMib : Nat := 128

/-- `validate_utf8_paths`. -/
def RecordConfig.validatePaths (config : RecordConfig) : IoResult Unit :=
  [config.kernel, config.initramfs, config.replayLog, config.qmpSocket, config.serialLog,
      config.qemuLog].forM fun path =>
    require (path.head? == some slash && Utf8.valid path) (invalid "QEMU paths must be absolute valid UTF-8")

def validateNetwork (config : RecordConfig) : IoResult Unit :=
  match config.network with
  | none => .ok ()
  | some network => network.identity.validate

namespace QemuAdapter

variable (adapter : QemuAdapter)

def fileIdentity (path : Text) : IoResult FileIdentity := do
  require (Utf8.valid path) (invalid "identity path is not UTF-8")
  let contents ← adapter.files path
  return ⟨path, sha256Hex sha256 contents⟩

variable (utf8Error : Bytes → Text)

/-- The machine that runs; `utf8Error` is the text for a version that is not UTF-8. -/
def identity (config : RecordConfig) : IoResult VmIdentity := do
  config.validatePaths
  validateNetwork config
  let (success, output) ← adapter.version
  require success ⟨.other, "qemu --version failed"⟩
  require (Utf8.valid output) (invalidData (utf8Error output))
  let qemu ← adapter.fileIdentity sha256 adapter.executable
  let kernel ← adapter.fileIdentity sha256 config.kernel
  let bios ← adapter.fileIdentity sha256 adapter.bios
  let linuxboot ← adapter.fileIdentity sha256 adapter.linuxboot
  return {
    qemu, kernel, machine, cpu, memoryMib
    qemuVersion := (textLines output).headD []
    initramfsSha256 := sha256Hex sha256 config.image
    vcpus := 1
    accelerator := "tcg"
    firmware := [bios, linuxboot]
    devices := ["isa-serial:diagnostics", "isa-serial:agent"]
    network := config.network.map NetworkConfig.identity }

/-- A comparison of two identities; it does not panic. -/
def compared (x : Machine IoError Unit) : IoResult Unit := Option.getD x (.error ⟨.other, "panicked"⟩)

def validateExpected (config : RecordConfig) : Option VmIdentity → IoResult Unit
  | none => .ok ()
  | some expected =>
    compared (validateReplayNetworkIdentity (networkValue Unit) expected
    (config.network.map NetworkConfig.identity))

def validateCompatible (actual : VmIdentity) : Option VmIdentity → IoResult Unit
  | none => .ok ()
  | some expected => compared (validateIdentityCompatibility (vmValue Unit) expected actual)

/-- The fixture of a configuration with a network. -/
def prepare (config : RecordConfig) (mode : ExecutionMode) : IoResult (List (Text × Bytes)) :=
  match config.network with
  | none => .ok []
  | some network => createPrepared sha256 order adapter.temporary network mode

/-- The replay log of a replay must be there. -/
def requireLog (config : RecordConfig) : ExecutionMode → IoResult Unit
  | .record => .ok ()
  | .replay =>
    match config.recording with
    | .ok (.regular ..) => .ok ()
    | _ => .error ⟨.notFound, "replay log is missing: " ++ config.replayLog⟩

/-- The first event of a VM: the guest is ready. -/
def awaitReady (process : Process) : IoResult Process :=
  match hqueue : process.queue with
  | .event ready :: _ => do
    require (ready.protocolVersion == protocolVersion && ready.eventId == 0 && ready.commandId == 0 &&
        ready.event == .agentReady)
      (invalidData "guest did not send the expected readiness event")
    return process.behind hqueue
  | queue => .error (receiveError queue)

def launch (config : RecordConfig) (mode : ExecutionMode) (expected : Option VmIdentity) : IoResult RunningVm := do
  config.validatePaths
  validateExpected config expected
  validateNetwork config
  let fixture ← adapter.prepare sha256 order config mode
  let identity ← adapter.identity sha256 utf8Error config
  validateCompatible identity expected
  requireLog config mode
  let process ← adapter.start config mode fixture
  let process ← awaitReady process
  return { process with identity }

def launchRecord (config : RecordConfig) : IoResult RunningVm :=
    adapter.launch sha256 order utf8Error config .record none

def launchReplay (config : RecordConfig) (expected : VmIdentity) : IoResult RunningVm :=
  adapter.launch sha256 order utf8Error config .replay (some expected)

/-! ## What a launch checked -/

variable {sha256 order adapter utf8Error} {adapter' : QemuAdapter} {config config' : RecordConfig}
  {mode : ExecutionMode} {expected : Option VmIdentity} {vm : RunningVm}

/-- The environment of a VM is that of its configuration. -/
theorem launch_ok (h : adapter.launch sha256 order utf8Error config mode expected = .ok vm) :
    adapter.identity sha256 utf8Error config = .ok vm.identity ∧ validateNetwork config = .ok () ∧
        config.validatePaths = .ok () := by
  obtain ⟨_, hpaths, h⟩ := bind_eq_ok.mp h
  obtain ⟨_, -, h⟩ := bind_eq_ok.mp h
  obtain ⟨_, hnetwork, h⟩ := bind_eq_ok.mp h
  obtain ⟨_, -, h⟩ := bind_eq_ok.mp h
  obtain ⟨identity, hidentity, h⟩ := bind_eq_ok.mp h
  obtain ⟨_, -, h⟩ := bind_eq_ok.mp h
  obtain ⟨_, -, h⟩ := bind_eq_ok.mp h
  obtain ⟨_, -, h⟩ := bind_eq_ok.mp h
  obtain ⟨_, -, h⟩ := bind_eq_ok.mp h
  obtain rfl := pure_eq_ok.mp h
  exact ⟨hidentity, hnetwork, hpaths⟩

/-- An accepted comparison is one of equal environments. -/
theorem validateCompatible_ok {actual expected : VmIdentity}
    (h : validateCompatible actual (some expected) = .ok ()) : actual = expected := by
  rcases vmIdentities_compared Unit expected actual with ⟨heq, -⟩ | ⟨-, _, -, hreturns⟩
  · exact heq.symm
  · rw [validateCompatible, compared, hreturns] at h
    cases h

/-- **A VM that is replayed** has the environment of the recording, and is given no files. -/
theorem launchReplay_ok {expected : VmIdentity}
    (h : adapter.launchReplay sha256 order utf8Error config expected = .ok vm) :
    vm.identity = expected ∧ adapter.identity sha256 utf8Error config = .ok vm.identity ∧
      ∃ process ready, adapter.start config .replay [] = .ok process ∧ process.queue = .event ready :: vm.queue ∧
        ready.event = .agentReady ∧ vm.status = process.status := by
  obtain ⟨_, -, h⟩ := bind_eq_ok.mp h
  obtain ⟨_, -, h⟩ := bind_eq_ok.mp h
  obtain ⟨_, -, h⟩ := bind_eq_ok.mp h
  obtain ⟨fixture, hprepare, h⟩ := bind_eq_ok.mp h
  obtain ⟨identity, hidentity, h⟩ := bind_eq_ok.mp h
  obtain ⟨_, hcompatible, h⟩ := bind_eq_ok.mp h
  obtain ⟨_, -, h⟩ := bind_eq_ok.mp h
  obtain ⟨process, hstart, h⟩ := bind_eq_ok.mp h
  obtain ⟨launched, hready, h⟩ := bind_eq_ok.mp h
  obtain rfl := pure_eq_ok.mp h
  obtain rfl : fixture = [] := by
    unfold prepare at hprepare
    cases hnetwork : config.network with
    | none =>
      rw [hnetwork] at hprepare
      exact (Except.ok.inj hprepare).symm
    | some network =>
      rw [hnetwork] at hprepare
      obtain ⟨_, -, hprepare⟩ := bind_eq_ok.mp hprepare
      cases hlive : network.fixtureDirectory with
      | none =>
        rw [hlive] at hprepare
        exact (Except.ok.inj hprepare).symm
      | some files =>
        rw [hlive] at hprepare
        cases hprepare
  refine ⟨validateCompatible_ok hcompatible, hidentity, process, ?_⟩
  unfold awaitReady at hready
  split at hready
  · next ready queue hqueue =>
    obtain ⟨_, hagent, hready⟩ := bind_eq_ok.mp hready
    obtain rfl := pure_eq_ok.mp hready
    have hagent := (Bool.and_eq_true_iff.mp (require_eq_ok.mp hagent)).2
    exact ⟨ready, hstart, hqueue, eq_of_beq hagent, rfl⟩
  · cases hready

/-- What an environment says of the guest image and of the network. -/
theorem identity_ok {identity : VmIdentity} (h : adapter.identity sha256 utf8Error config = .ok identity) :
    identity.initramfsSha256 = sha256Hex sha256 config.image ∧
      identity.network = config.network.map NetworkConfig.identity := by
  obtain ⟨_, -, h⟩ := bind_eq_ok.mp h
  obtain ⟨_, -, h⟩ := bind_eq_ok.mp h
  obtain ⟨_, -, h⟩ := bind_eq_ok.mp h
  obtain ⟨_, -, h⟩ := bind_eq_ok.mp h
  obtain ⟨_, -, h⟩ := bind_eq_ok.mp h
  obtain ⟨_, -, h⟩ := bind_eq_ok.mp h
  obtain ⟨_, -, h⟩ := bind_eq_ok.mp h
  obtain ⟨_, -, h⟩ := bind_eq_ok.mp h
  obtain ⟨_, -, h⟩ := bind_eq_ok.mp h
  obtain rfl := pure_eq_ok.mp h
  exact ⟨rfl, rfl⟩

/-- Two adapters of one installation. -/
structure SameInstallation (adapter adapter' : QemuAdapter) : Prop where
  executable : adapter'.executable = adapter.executable
  bios : adapter'.bios = adapter.bios
  linuxboot : adapter'.linuxboot = adapter.linuxboot
  files : adapter'.files = adapter.files
  version : adapter'.version = adapter.version

/-- Two configurations of one environment. -/
structure SameEnvironment (config config' : RecordConfig) : Prop where
  kernel : config'.kernel = config.kernel
  image : config'.image = config.image
  network : config'.network.map NetworkConfig.identity = config.network.map NetworkConfig.identity

theorem validateNetwork_congr (h : SameEnvironment config config') :
    validateNetwork config' = validateNetwork config := by
  have hnetwork := h.network
  unfold validateNetwork
  cases hconfig : config.network with
  | none =>
    rw [hconfig, Option.map_none, Option.map_eq_none_iff] at hnetwork
    rw [hnetwork]
  | some network =>
    rw [hconfig, Option.map_some, Option.map_eq_some_iff] at hnetwork
    obtain ⟨network', hnetwork', heq⟩ := hnetwork
    rw [hnetwork']
    exact congrArg NetworkIdentity.validate heq

/-- **The environment** depends on the installation and on what the configuration names of it. -/
theorem identity_congr (hadapter : SameInstallation adapter adapter') (h : SameEnvironment config config')
    (hpaths : config.validatePaths = .ok ()) (hpaths' : config'.validatePaths = .ok ()) :
    adapter'.identity sha256 utf8Error config' = adapter.identity sha256 utf8Error config := by
  have hfile : ∀ path, adapter'.fileIdentity sha256 path = adapter.fileIdentity sha256 path := fun path => by
    rw [fileIdentity, fileIdentity, hadapter.files]
  unfold identity
  rw [hpaths, hpaths', validateNetwork_congr h, hadapter.version, hadapter.executable, hadapter.bios,
    hadapter.linuxboot, h.kernel, h.image, h.network]
  simp only [hfile]

theorem compared_self {F : Type} [BEq F] {ι : Type} [DecidableEq ι] (toValue : ι → Except Text (JsonValue F))
    (path : Text) (identity : ι) : compared (validateIdentity toValue path identity identity) = .ok () := by
  rw [validateIdentity, if_pos rfl]
  rfl

/-- **A VM that was recorded is launched again** in the environment of the recording. -/
theorem launchReplay_of_record {vm : RunningVm} {process : Process} {ready : EventFrame} {queue : List Delivery}
    (h : adapter.launchRecord sha256 order utf8Error config = .ok vm)
    (hadapter : SameInstallation adapter adapter')
    (hconfig : SameEnvironment config config') (hpaths' : config'.validatePaths = .ok ())
    (hlive : ∀ network, config'.network = some network → network.fixtureDirectory = none)
    (htemporary : adapter'.temporary = .ok ())
    (hlog : ∃ length contents, config'.recording = .ok (.regular length contents))
    (hstart : adapter'.start config' .replay [] = .ok process) (hqueue : process.queue = .event ready :: queue)
    (hready : ready.protocolVersion = protocolVersion ∧ ready.eventId = 0 ∧ ready.commandId = 0 ∧
      ready.event = .agentReady) : adapter'.launchReplay sha256 order utf8Error config' vm.identity =
      .ok { toProcess := process.behind hqueue, identity := vm.identity } := by
  obtain ⟨hidentity, hnetwork, hpaths⟩ := launch_ok h
  obtain ⟨-, hrecorded⟩ := identity_ok hidentity
  have hidentity' : adapter'.identity sha256 utf8Error config' = .ok vm.identity :=
    (identity_congr hadapter hconfig hpaths hpaths').trans hidentity
  have hexpected : validateExpected config' (some vm.identity) = .ok () := by
    rw [validateExpected, validateReplayNetworkIdentity, hrecorded, ← hconfig.network]
    exact compared_self _ _ _
  have hprepare : adapter'.prepare sha256 order config' .replay = .ok [] := by
    unfold prepare
    cases hsome : config'.network with
    | none => rfl
    | some network =>
      simp only [createPrepared, hlive network hsome, htemporary]
      rfl
  have hrequire : requireLog config' .replay = .ok () := by
    obtain ⟨length, contents, hrecording⟩ := hlog
    rw [requireLog, hrecording]
  have hawait : awaitReady process = .ok (process.behind hqueue) := by
    obtain ⟨hversion, hevent, hcommand, hagent⟩ := hready
    unfold awaitReady
    split
    · next hfirst =>
      obtain ⟨hsame, rfl⟩ := List.cons.inj (hqueue.symm.trans hfirst)
      obtain rfl := Delivery.event.inj hsame
      refine bind_eq_ok.mpr ⟨(), require_eq_ok.mpr ?_, rfl⟩
      rw [hversion, hevent, hcommand, hagent]
      rfl
    · next hother => exact absurd hqueue (hother ready queue)
  refine bind_eq_ok.mpr ⟨(), hpaths', bind_eq_ok.mpr ⟨(), hexpected, bind_eq_ok.mpr ⟨(), ?_, ?_⟩⟩⟩
  · exact (validateNetwork_congr hconfig).trans hnetwork
  refine bind_eq_ok.mpr ⟨[], hprepare, bind_eq_ok.mpr ⟨vm.identity, hidentity',
    bind_eq_ok.mpr ⟨(), compared_self _ _ _, ?_⟩⟩⟩
  exact bind_eq_ok.mpr ⟨(), hrequire, bind_eq_ok.mpr ⟨process, hstart, bind_eq_ok.mpr ⟨_, hawait, rfl⟩⟩⟩

end QemuAdapter

end Launch

end SimFerret
