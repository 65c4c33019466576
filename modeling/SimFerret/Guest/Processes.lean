import Mathlib.Data.List.Sort
import SimFerret.Guest.Steps
import SimFerret.Lib.Utf8

/-!
# SimFerret.Guest.Processes — which guest processes the cleanup barrier kills (`runtime.rs`)

A stat record is the process id, the command name in parentheses and the numbered fields.  The workload chooses the
command name, byte for byte.

* `statFlags`, `isKernelThread`, `guestProcessTable`: the functions of the source on a `/proc` that is read.
* `statFlags_eq`: the flags depend on the bytes behind the last parenthesis only.
* `statFlags_command`: **whatever the command name, the flags are those of the record**.
* `mem_guestProcessTable`: a process is spared exactly for its flags.
* `barrier_empties`: **a barrier that completes has seen a table without a member**.
-/

namespace SimFerret.Guest

/-! ## Numbers -/

/-- The digit loop of `from_str_radix`, with `checked_mul` and `checked_add`. -/
def parseDigits (size : Nat) : Nat → Text → Option Nat
  | value, [] => some value
  | value, digit :: rest =>
    if 48 ≤ digit ∧ digit ≤ 57 then
      let next := value * 10 + (digit - 48).toNat
      if next < size then parseDigits size next rest else none
    else none

/-- `str::parse` at an unsigned type of `size` values: a sign `+` is taken, no digit is an error. -/
def parseUnsigned (size : Nat) (text : Text) : Option Nat :=
  let digits := if text.head? = some 43 then text.tail else text
  if digits = [] then none else parseDigits size 0 digits

/-- A decimal numeral, leading zeros or not. -/
def IsNumeral (text : Text) : Prop := text ≠ [] ∧ ∀ digit ∈ text, 48 ≤ digit ∧ digit ≤ 57

instance (text : Text) : Decidable (IsNumeral text) := inferInstanceAs (Decidable (_ ∧ _))

theorem le_foldl_digits (text : Text) : ∀ value : Nat,
    value ≤ text.foldl (fun acc digit => acc * 10 + (digit - 48).toNat) value := by
  induction text with
  | nil => exact fun value => Nat.le_refl value
  | cons digit rest ih =>
    intro value
    have hrest := ih (value * 10 + (digit - 48).toNat)
    rw [List.foldl_cons]
    omega

/-- The loop has read the value of the digits before it. -/
theorem parseDigits_ok {size : Nat} {text : Text} (hdigits : ∀ digit ∈ text, 48 ≤ digit ∧ digit ≤ 57) :
    ∀ {value : Nat}, text.foldl (fun acc digit => acc * 10 + (digit - 48).toNat) value < size →
      parseDigits size value text = some (text.foldl (fun acc digit => acc * 10 + (digit - 48).toNat) value) := by
  induction text with
  | nil => exact fun _ => rfl
  | cons digit rest ih =>
    intro value hlt
    rw [List.forall_mem_cons] at hdigits
    rw [List.foldl_cons] at hlt
    have hnext : value * 10 + (digit - 48).toNat < size := (le_foldl_digits rest _).trans_lt hlt
    rw [parseDigits, if_pos hdigits.1, if_pos hnext, ih hdigits.2 hlt, List.foldl_cons]

theorem parseUnsigned_numeral {size : Nat} {text : Text} (h : IsNumeral text) (hlt : digitsValue text < size) :
    parseUnsigned size text = some (digitsValue text) := by
  have hsign : text.head? ≠ some 43 := by
    intro hhead
    have hmem := List.mem_of_mem_head? hhead
    exact absurd (h.2 43 hmem).1 (by decide)
  unfold parseUnsigned
  rw [if_neg hsign, if_neg h.1]
  exact parseDigits_ok h.2 hlt

/-! ## Stat records -/

/-- `b')'`. -/
def closeParen : UInt8 := 41

/-- `u8::is_ascii_whitespace`: space, tab, newline, form feed and carriage return. -/
def isAsciiWhitespace (byte : UInt8) : Bool := byte == 32 || byte == 9 || byte == 10 || byte == 12 || byte == 13

/-- The whitespace-separated fields. -/
def statFields (rest : Bytes) : List Bytes := (rest.splitOnP isAsciiWhitespace).filter fun field => !field.isEmpty

/-- What is done with the bytes behind the command name. -/
def fieldFlags (rest : Bytes) : IoResult Nat := do
  let flags ← okOr (statFields rest)[6]? (invalid "a guest process state record has no flags field")
  require (Utf8.valid flags) (invalid "a guest process state record has an invalid flags field")
  okOr (parseUnsigned u64Size flags) (invalid "a guest process state record has an invalid flags field")

/-- Extract the process flags field from `/proc/<pid>/stat`. -/
def statFlags (stat : Bytes) : IoResult Nat := do
  let terminator ← okOr (rposition (· == closeParen) stat)
    (invalid "a guest process state record has no command terminator")
  fieldFlags (stat.drop (terminator + 1))

/-- The record of a process: its id, its command name in parentheses and the rest. -/
def statRecord (pid comm rest : Bytes) : Bytes := pid ++ " (" ++ comm ++ ")" ++ rest

theorem rposition_last {α : Type} {pred : α → Bool} {x : α} {r : List α} (hx : pred x = true)
    (hr : ∀ y ∈ r, pred y = false) : ∀ l : List α, rposition pred (l ++ x :: r) = some l.length
  | [] => by
    rw [List.nil_append, rposition, rposition_eq_none.mpr hr]
    exact if_pos hx
  | y :: l => by
    rw [List.cons_append, rposition, rposition_last hx hr l]
    rfl

/-- **The flags are read behind the last parenthesis.** -/
theorem statFlags_eq (front : Bytes) {rest : Bytes} (h : closeParen ∉ rest) :
    statFlags (front ++ closeParen :: rest) = fieldFlags rest := by
  have hrest : ∀ byte ∈ rest, (byte == closeParen) = false := by
    intro byte hbyte
    rw [beq_eq_false_iff_ne]
    rintro rfl
    exact h hbyte
  have hlast : rposition (· == closeParen) (front ++ closeParen :: rest) = some front.length :=
    @rposition_last _ (· == closeParen) _ _ (beq_self_eq_true closeParen) hrest front
  have hdrop : (front ++ closeParen :: rest).drop (front.length + 1) = rest := by
    rw [← List.drop_drop, List.drop_left]
    rfl
  unfold statFlags
  rw [hlast]
  show fieldFlags ((front ++ closeParen :: rest).drop (front.length + 1)) = _
  rw [hdrop]

theorem statFlags_record (pid comm : Bytes) {rest : Bytes} (h : closeParen ∉ rest) :
    statFlags (statRecord pid comm rest) = fieldFlags rest := by
  have hfront : statRecord pid comm rest = (pid ++ utf8 " (" ++ comm) ++ closeParen :: rest := by
    rw [statRecord, List.append_assoc _ (utf8 ")")]
    rfl
  rw [hfront, statFlags_eq _ h]

theorem fieldFlags_numeral {rest field : Bytes} (hfield : (statFields rest)[6]? = some field)
    (hnumeral : IsNumeral field) (hlt : digitsValue field < u64Size) :
    fieldFlags rest = .ok (digitsValue field) := by
  have hvalid : Utf8.valid field = true :=
    Utf8.valid_of_ascii fun byte hbyte => UInt8.lt_of_le_of_lt (hnumeral.2 byte hbyte).2 (by decide)
  refine bind_eq_ok.mpr ⟨field, okOr_eq_ok.mpr hfield, bind_eq_ok.mpr ⟨(), require_eq_ok.mpr hvalid, ?_⟩⟩
  exact okOr_eq_ok.mpr (parseUnsigned_numeral hnumeral hlt)

/-- **A workload cannot disguise itself as a kernel thread.** Whatever its command name, the flags of a record
are the number in the seventh field behind it, so records that differ in the command name only have the same
flags. -/
theorem statFlags_command (pid comm : Bytes) {rest : Bytes} (h : closeParen ∉ rest) :
    (∀ (field : Bytes) (flags : Nat), (statFields rest)[6]? = some field → IsNumeral field →
      digitsValue field = flags → flags < u64Size → statFlags (statRecord pid comm rest) = .ok flags) ∧
    ∀ comm' : Bytes, statFlags (statRecord pid comm' rest) = statFlags (statRecord pid comm rest) := by
  constructor
  · rintro field flags hfield hnumeral rfl hlt
    rw [statFlags_record pid comm h, fieldFlags_numeral hfield hnumeral hlt]
  · intro comm'
    rw [statFlags_record pid comm' h, statFlags_record pid comm h]

/-- A command name that looks like the rest of a kernel thread's record. -/
def disguise : Bytes := utf8 ") S 0 0 0 0 -1 2097152" ++ [10, 0xff]

theorem statFlags_command_sample : closeParen ∉ utf8 " S 0 1 1 0 -1 4194304 0" ∧
    statFlags (statRecord "7" disguise " S 0 1 1 0 -1 4194304 0") = .ok 4194304 ∧
    statFlags (statRecord "7" "cat" " S 0 1 1 0 -1 4194304 0") =
      statFlags (statRecord "7" disguise " S 0 1 1 0 -1 4194304 0") := by
  have hrest : closeParen ∉ utf8 " S 0 1 1 0 -1 4194304 0" := by decide
  obtain ⟨hflags, hsame⟩ := statFlags_command "7" disguise hrest
  exact ⟨hrest, hflags "4194304" 4194304 (by decide +kernel) (by decide +kernel) (by decide +kernel)
    (by decide +kernel), hsame "cat"⟩

/-! ## The process table -/

/-- `PF_KTHREAD`. -/
def kernelThreadFlag : Nat := 0x00200000

/-- Why `std::fs::read` of a stat record failed. -/
inductive StatFailure where
  /-- `ENOENT` or `ESRCH`. -/
  | vanished
  | failed (kind : ErrorKind) (error : Text)
deriving DecidableEq, Repr

/-- `/proc`: the directory as it is listed, and the stat records. -/
structure Proc where
  entries : Except (ErrorKind × Text) (List (Except (ErrorKind × Text) Bytes))
  stat : Nat → Except StatFailure Bytes

/-- Report whether a guest pid is a kernel thread; `none` for a process that vanished. -/
def isKernelThread (proc : Proc) (pid : Nat) : IoResult (Option Bool) :=
  match proc.stat pid with
  | .ok stat => do
    let flags ← statFlags stat
    pure (some (flags &&& kernelThreadFlag != 0))
  | .error .vanished => .ok none
  | .error (.failed kind error) =>
    .error ⟨kind, "cannot read the state of guest pid " ++ decimal pid ++ ": " ++ error⟩

/-- The pid that a directory entry names. -/
def entryPid (name : Bytes) : Option Nat := if Utf8.valid name then parseUnsigned (2 ^ 32) name else none

/-- The loop of `guest_process_table`. -/
def collectMembers (own : Nat) (proc : Proc) : List (Except (ErrorKind × Text) Bytes) → IoResult (List Nat)
  | [] => .ok []
  | .error (kind, error) :: _ => .error ⟨kind, "cannot read a guest process entry: " ++ error⟩
  | .ok name :: rest =>
    match entryPid name with
    | none => collectMembers own proc rest
    | some pid =>
      if pid = own then collectMembers own proc rest
      else do
        let kernel ← isKernelThread proc pid
        let members ← collectMembers own proc rest
        pure (if kernel = some false then pid :: members else members)

/-- Every userspace process in the guest other than the agent. -/
def guestProcessTable (own : Nat) (proc : Proc) : IoResult (List Nat) :=
  match proc.entries with
  | .error (kind, error) => .error ⟨kind, "cannot enumerate the guest process table: " ++ error⟩
  | .ok entries => do
    let members ← collectMembers own proc entries
    pure (members.insertionSort fun left right => left ≤ right)

/-- The listing names a process. -/
def Listed (names : List (Except (ErrorKind × Text) Bytes)) (pid : Nat) : Prop :=
  ∃ name, Except.ok name ∈ names ∧ entryPid name = some pid

section Table

variable {own pid : Nat} {proc : Proc} {members : List Nat}

theorem listed_cons {name : Bytes} {names : List (Except (ErrorKind × Text) Bytes)} :
    Listed (.ok name :: names) pid ↔ entryPid name = some pid ∨ Listed names pid := by
  constructor
  · rintro ⟨other, hother, hpid⟩
    rcases List.mem_cons.mp hother with heq | hmem
    · cases heq
      exact .inl hpid
    · exact .inr ⟨other, hmem, hpid⟩
  · rintro (hpid | ⟨other, hother, hpid⟩)
    · exact ⟨name, List.mem_cons_self, hpid⟩
    · exact ⟨other, List.mem_cons_of_mem _ hother, hpid⟩

/-- The loop keeps the listed processes, other than the agent, that are no kernel threads. -/
theorem mem_collectMembers : ∀ {names : List (Except (ErrorKind × Text) Bytes)} {members : List Nat},
    collectMembers own proc names = .ok members →
      (pid ∈ members ↔ pid ≠ own ∧ Listed names pid ∧ isKernelThread proc pid = .ok (some false))
  | [], members, h => by
    cases h
    simp [Listed]
  | .error _ :: _, members, h => by cases h
  | .ok name :: rest, members, h => by
    rw [listed_cons]
    rw [collectMembers] at h
    cases hname : entryPid name with
    | none =>
      simp only [hname] at h
      rw [mem_collectMembers h]
      simp
    | some other =>
      simp only [hname] at h
      by_cases hown : other = own
      · rw [if_pos hown] at h
        rw [mem_collectMembers h]
        constructor
        · rintro ⟨hne, hlisted, hkernel⟩
          exact ⟨hne, .inr hlisted, hkernel⟩
        · rintro ⟨hne, hlisted | hlisted, hkernel⟩
          · cases hlisted
            exact absurd hown hne
          · exact ⟨hne, hlisted, hkernel⟩
      · rw [if_neg hown] at h
        obtain ⟨kernel, hkernel, h⟩ := bind_eq_ok.mp h
        obtain ⟨more, hmore, h⟩ := bind_eq_ok.mp h
        rw [pure_eq_ok] at h
        have hrest := mem_collectMembers hmore
        by_cases hspared : kernel = some false
        · rw [if_pos hspared] at h
          rw [← h, List.mem_cons, hrest]
          constructor
          · rintro (rfl | ⟨hne, hlisted, hpid⟩)
            · exact ⟨hown, .inl rfl, hspared ▸ hkernel⟩
            · exact ⟨hne, .inr hlisted, hpid⟩
          · rintro ⟨hne, hlisted | hlisted, hpid⟩
            · cases hlisted
              exact .inl rfl
            · exact .inr ⟨hne, hlisted, hpid⟩
        · rw [if_neg hspared] at h
          rw [← h, hrest]
          constructor
          · rintro ⟨hne, hlisted, hpid⟩
            exact ⟨hne, .inr hlisted, hpid⟩
          · rintro ⟨hne, hlisted | hlisted, hpid⟩
            · cases hlisted
              rw [hpid] at hkernel
              cases hkernel
              exact absurd rfl hspared
            · exact ⟨hne, hlisted, hpid⟩

/-- **The barrier kills every listed process that is no kernel thread**, and nothing else. -/
theorem mem_guestProcessTable (h : guestProcessTable own proc = .ok members) :
    pid ∈ members ↔ pid ≠ own ∧ (∃ names, proc.entries = .ok names ∧ Listed names pid) ∧
      isKernelThread proc pid = .ok (some false) := by
  unfold guestProcessTable at h
  cases hentries : proc.entries with
  | error failure =>
    rw [hentries] at h
    cases h
  | ok names =>
    rw [hentries] at h
    obtain ⟨collected, hcollected, h⟩ := bind_eq_ok.mp h
    rw [pure_eq_ok] at h
    rw [← h, List.mem_insertionSort, mem_collectMembers hcollected]
    simp

/-- A process whose record has the flags of a userspace process is killed, whatever its command name. -/
theorem member_of_record (h : guestProcessTable own proc = .ok members) (hown : pid ≠ own)
    {names : List (Except (ErrorKind × Text) Bytes)} (hnames : proc.entries = .ok names)
    (hlisted : Listed names pid) {id comm rest field : Bytes}
    (hstat : proc.stat pid = .ok (statRecord id comm rest)) (hrest : closeParen ∉ rest)
    (hfield : (statFields rest)[6]? = some field) (hnumeral : IsNumeral field) (hlt : digitsValue field < u64Size)
    (huser : digitsValue field &&& kernelThreadFlag = 0) : pid ∈ members := by
  refine (mem_guestProcessTable h).mpr ⟨hown, ⟨names, hnames, hlisted⟩, ?_⟩
  have hflags : statFlags (statRecord id comm rest) = .ok (digitsValue field) := by
    rw [statFlags_record id comm hrest, fieldFlags_numeral hfield hnumeral hlt]
  unfold isKernelThread
  rw [hstat]
  show (do
    let flags ← statFlags (statRecord id comm rest)
    pure (some (flags &&& kernelThreadFlag != 0))) = _
  rw [hflags]
  show Except.ok (some (digitsValue field &&& kernelThreadFlag != 0)) = _
  rw [huser]
  rfl

end Table

/-! ## The cleanup barrier -/

open Attempt

/-- `members_remain` in the scope of the guest. -/
def guestMembersRemain (own : Nat) (proc : Proc) : IoResult Bool := do
  let members ← guestProcessTable own proc
  return !members.isEmpty

theorem guestMembersRemain_false {own : Nat} {proc : Proc} (h : guestMembersRemain own proc = .ok false) :
    guestProcessTable own proc = .ok [] := by
  obtain ⟨members, hmembers, h⟩ := bind_eq_ok.mp h
  rw [pure_eq_ok, Bool.not_eq_false', List.isEmpty_iff] at h
  rw [hmembers, h]

/-- The run asks `members_remain` for nothing. -/
def SameMembers {α : Type} (x : Serve α) : Prop := Along (fun s s' => s'.os.members = s.os.members) x

section Barrier

variable {limits : RuntimeLimits} {α β : Type}

theorem SameMembers.bind {x : Serve α} {f : α → Serve β} (hx : SameMembers x) (hf : ∀ a, SameMembers (f a)) :
    SameMembers (x >>= f) :=
  Along.bind (fun h h' => h'.trans h) hx hf

theorem SameMembers.pure (a : α) : SameMembers (pure a : Serve α) := fun _ => rfl

theorem sameMembers_drainStream (stream : OutputStream) (maxFrames maxBytes : Nat) :
    SameMembers (drainStream limits stream maxFrames maxBytes) := by
  intro s
  unfold drainStream
  split
  · rfl
  · split <;> rfl

theorem sameMembers_drainTurn (stream : OutputStream) (frames bytes : Nat) :
    SameMembers (drainTurn limits stream frames bytes) := by
  unfold drainTurn
  dsimp only
  split
  · exact .pure _
  · exact (sameMembers_drainStream _ _ _).bind fun _ => .pure _

theorem sameMembers_batchLoop : ∀ rounds frames bytes, SameMembers (batchLoop limits rounds frames bytes)
  | 0, _, _ => .pure _
  | rounds + 1, frames, bytes => by
    unfold batchLoop
    refine (sameMembers_drainTurn _ _ _).bind fun first => ?_
    cases first with
    | none => exact .pure _
    | some first =>
      refine (sameMembers_drainTurn _ _ _).bind fun second => ?_
      cases second with
      | none => exact .pure _
      | some second =>
        dsimp only
        split
        · exact .pure _
        · exact sameMembers_batchLoop rounds second.1 second.2

theorem sameMembers_waitForOutput : SameMembers waitForOutput := by
  intro s
  unfold waitForOutput
  dsimp only
  split <;> rfl

/-- A round asks once, and is complete only where no member remains. -/
theorem barrierRound_members {s s' : Service} {complete : Bool} (h : barrierRound limits s = (.ok complete, s')) :
    s'.os.members = s.os.members.tail ∧ (complete = true → s.os.members.headD (.ok false) = .ok false) := by
  obtain ⟨_, s1, hsignal, h⟩ := bind_ok.mp h
  obtain ⟨_, s2, hreap, h⟩ := bind_ok.mp h
  obtain ⟨_, s3, hdrain, h⟩ := bind_ok.mp h
  obtain ⟨members, s4, hmembers, h⟩ := bind_ok.mp h
  obtain ⟨a, s5, hactive, h⟩ := bind_ok.mp h
  have hsame : s3.os.members = s.os.members := by
    have hdrained := Along.of_run (sameMembers_batchLoop _ _ _) hdrain
    obtain ⟨-, rfl⟩ := Prod.mk.inj hsignal
    obtain ⟨-, rfl⟩ := Prod.mk.inj hreap
    exact hdrained
  cases hactive
  obtain ⟨hanswer, rfl⟩ := Prod.mk.inj hmembers
  obtain ⟨hcomplete, rfl⟩ := Prod.mk.inj h
  refine ⟨congrArg List.tail hsame, fun hdone => ?_⟩
  have hnone := (Except.ok.inj hcomplete).trans hdone
  rw [Bool.and_eq_true, Bool.and_eq_true, Bool.not_eq_true'] at hnone
  rw [← hsame, hanswer, hnone.1.1]

/-- **The barrier loop**, by induction on the answers of its deadline: if it ends, a round found no member. -/
theorem barrierLoop_members : ∀ {deadlines : List Bool} {s s' : Service},
    barrierLoop limits deadlines s = (.ok (), s') →
    ∃ k ≤ deadlines.length, (s.os.members[k]?).getD (.ok false) = .ok false
  | [], s, s', h => by
    obtain ⟨complete, s1, hround, h⟩ := bind_ok.mp h
    refine ⟨0, Nat.le_refl 0, ?_⟩
    rw [← List.head?_eq_getElem?, ← List.headD_eq_head?_getD]
    cases complete with
    | true => exact (barrierRound_members hround).2 rfl
    | false => exact absurd h throw_ok
  | ahead :: deadlines, s, s', h => by
    obtain ⟨complete, s1, hround, h⟩ := bind_ok.mp h
    obtain ⟨htail, hcomplete⟩ := barrierRound_members hround
    cases complete with
    | true =>
      refine ⟨0, Nat.zero_le _, ?_⟩
      rw [← List.head?_eq_getElem?, ← List.headD_eq_head?_getD]
      exact hcomplete rfl
    | false =>
      obtain ⟨_, s2, hmodify, h⟩ := bind_ok.mp h
      cases ahead with
      | false =>
        obtain ⟨_, _, hthrow, -⟩ := bind_ok.mp h
        exact absurd hthrow throw_ok
      | true =>
        obtain ⟨_, s3, hwait, h⟩ := bind_ok.mp h
        have hsame : s3.os.members = s.os.members.tail := by
          rw [← htail, ← congrArg (fun s => s.os.members) (modify_ok.mp hmodify)]
          exact Along.of_run sameMembers_waitForOutput hwait
        obtain ⟨k, hle, hget⟩ := barrierLoop_members h
        rw [hsame, List.getElem?_tail] at hget
        exact ⟨k + 1, Nat.succ_le_succ hle, hget⟩

/-- **The barrier and the process table**: asked in each round for the members of the guest, a barrier that
completes has seen a table in which every listed process, other than the agent, is a kernel thread or has
vanished. -/
theorem barrier_empties {own : Nat} {procs : List Proc} {s s' : Service}
    (hscope : s.os.members = procs.map (guestMembersRemain own)) (hrounds : s.os.deadlines.length < procs.length)
    (h : barrier limits s = (.ok (), s')) :
    ∃ proc ∈ procs, ∀ pid names, pid ≠ own → proc.entries = .ok names → Listed names pid →
      isKernelThread proc pid ≠ .ok (some false) := by
  obtain ⟨_, s1, hupdate, h⟩ := bind_ok.mp h
  obtain ⟨_, s2, hget, h⟩ := bind_ok.mp h
  obtain ⟨_, s3, hloop, -⟩ := bind_ok.mp h
  cases hupdate
  cases hget
  obtain ⟨k, hle, hanswer⟩ := barrierLoop_members hloop
  have hlt : k < procs.length := Nat.lt_of_le_of_lt hle hrounds
  dsimp only at hanswer
  rw [hscope, List.getElem?_map, List.getElem?_eq_getElem hlt] at hanswer
  have hempty := guestMembersRemain_false hanswer
  refine ⟨procs[k], List.getElem_mem hlt, fun pid names hown hnames hlisted hkernel => ?_⟩
  exact absurd ((mem_guestProcessTable hempty).mpr ⟨hown, ⟨names, hnames, hlisted⟩, hkernel⟩) List.not_mem_nil

end Barrier

end SimFerret.Guest
