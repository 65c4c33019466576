import SimFerret.Lib.Attempt

/-!
# SimFerret.Lib.Transport — reads and writes that move what they can

A duplex transport of items.  Each call of `read` and `write` takes one entry of its tape: a bound on what the call
moves, or an error; past the end of a tape a call moves all it can.  `readExact` and `writeAll` are the loops of
the standard library over them.

* `Accepts`, `Steady`: the transport, or its outgoing side, fails in no other way than by an interruption.
* `writeAll_accepts`, `outgoing_writeAll`, `readExact_steady`: the loops over such transports.
* `Yields`, `Took`: reading until the end of the stream, or until an error, and part of the way.
* `yields_of_reads`: a reader that takes one encoded item at a time takes a whole stream of them.
-/

namespace Transport

structure Wire (α ε : Type) where
  incoming : List α
  /-- Each entry allows one item more than it says. -/
  reads : List (Except ε Nat) := []
  outgoing : List α := []
  writes : List (Except ε Nat) := []
  flushes : List (Except ε Unit) := []

abbrev Io (α ε β : Type) := ExceptT ε (StateM (Wire α ε)) β

/-- The errors that the loops of the standard library look for and make. -/
structure Failures (ε : Type) where
  interrupted : ε → Bool
  /-- `read_exact` met the end of the stream. -/
  unexpectedEof : ε
  /-- `write_all` wrote nothing. -/
  writeZero : ε

variable {α ε β : Type}

/-! ## Calls -/

/-- One `read` into a buffer of `n` items; nothing read is the end of the stream. -/
def read (n : Nat) : Io α ε (List α) := fun wire =>
  match wire.reads with
  | [] => (.ok (wire.incoming.take n), { wire with incoming := wire.incoming.drop n })
  | .ok extra :: reads => (.ok (wire.incoming.take (min n (extra + 1))),
      { wire with incoming := wire.incoming.drop (min n (extra + 1)), reads })
  | .error e :: reads => (.error e, { wire with reads })

/-- One `write` of a buffer, and how many of its items were written. -/
def write (buffer : List α) : Io α ε Nat := fun wire =>
  match wire.writes with
  | [] => (.ok buffer.length, { wire with outgoing := wire.outgoing ++ buffer })
  | .ok count :: writes => (.ok (min count buffer.length),
      { wire with outgoing := wire.outgoing ++ buffer.take count, writes })
  | .error e :: writes => (.error e, { wire with writes })

def flush : Io α ε Unit := fun wire =>
  match wire.flushes with
  | [] => (.ok (), wire)
  | outcome :: flushes => (outcome, { wire with flushes })

/-- What a loop of reads uses up. -/
def Wire.size (wire : Wire α ε) : Nat := wire.incoming.length + wire.reads.length

theorem size_of_read {n : Nat} {wire wire' : Wire α ε} {a : α} {rest : List α}
    (h : read n wire = (.ok (a :: rest), wire')) : wire'.size < wire.size := by
  unfold read at h
  split at h
  next hreads =>
    obtain ⟨hchunk, rfl⟩ := Prod.mk.inj h
    have hlen := congrArg List.length (Except.ok.inj hchunk)
    simp only [List.length_take, List.length_cons] at hlen
    simp only [Wire.size, List.length_drop]
    omega
  next hreads =>
    obtain ⟨-, rfl⟩ := Prod.mk.inj h
    simp only [Wire.size, List.length_drop, hreads, List.length_cons]
    omega
  next hreads => cases h

theorem size_of_failed_read {n : Nat} {wire wire' : Wire α ε} {e : ε} (h : read n wire = (.error e, wire')) :
    wire'.size < wire.size := by
  unfold read at h
  split at h
  next hreads => cases h
  next hreads => cases h
  next hreads =>
    obtain ⟨-, rfl⟩ := Prod.mk.inj h
    simp only [Wire.size, hreads, List.length_cons]
    omega

/-- What is read is the front of the stream. -/
theorem incoming_of_read {n : Nat} {wire wire' : Wire α ε} {items : List α}
    (h : read n wire = (.ok items, wire')) : wire.incoming = items ++ wire'.incoming ∧
    wire'.outgoing = wire.outgoing := by
  unfold read at h
  split at h <;> cases h
  · exact ⟨(List.take_append_drop _ _).symm, rfl⟩
  · exact ⟨(List.take_append_drop _ _).symm, rfl⟩

theorem failed_read {n : Nat} {wire wire' : Wire α ε} {e : ε} (h : read n wire = (.error e, wire')) :
    wire'.incoming = wire.incoming ∧ wire'.outgoing = wire.outgoing := by
  unfold read at h
  split at h <;> cases h
  exact ⟨rfl, rfl⟩

/-- Nothing read is the end of the stream. -/
theorem ended_of_read {n : Nat} {wire wire' : Wire α ε} (hn : 0 < n) (h : read n wire = (.ok [], wire')) :
    wire.incoming = [] := by
  unfold read at h
  split at h
  · obtain ⟨hnil, -⟩ := Prod.mk.inj h
    rcases List.take_eq_nil_iff.mp (Except.ok.inj hnil) with hzero | hnil
    · omega
    · exact hnil
  · obtain ⟨hnil, -⟩ := Prod.mk.inj h
    rcases List.take_eq_nil_iff.mp (Except.ok.inj hnil) with hzero | hnil
    · omega
    · exact hnil
  · cases h

theorem length_of_read {n : Nat} {wire wire' : Wire α ε} {items : List α} (h : read n wire = (.ok items, wire')) :
    items.length ≤ n := by
  unfold read at h
  split at h <;> cases h
  · exact List.length_take_le _ _
  · rw [List.length_take]
    omega

theorem mem_reads_of_failed_read {n : Nat} {wire wire' : Wire α ε} {e : ε} (h : read n wire = (.error e, wire')) :
    .error e ∈ wire.reads := by
  unfold read at h
  split at h <;> cases h
  next hreads => exact hreads ▸ List.mem_cons_self

/-- A read uses the front of its tape, and leaves the outgoing side as it was. -/
theorem tapes_of_read {n : Nat} {wire wire' : Wire α ε} {r : Except ε (List α)} (h : read n wire = (r, wire')) :
    (∀ call ∈ wire'.reads, call ∈ wire.reads) ∧ wire'.writes = wire.writes ∧ wire'.flushes = wire.flushes := by
  unfold read at h
  split at h <;> cases h
  · exact ⟨fun _ hcall => hcall, rfl, rfl⟩
  next hreads => exact ⟨fun _ hcall => hreads ▸ List.mem_cons_of_mem _ hcall, rfl, rfl⟩
  next hreads => exact ⟨fun _ hcall => hreads ▸ List.mem_cons_of_mem _ hcall, rfl, rfl⟩

theorem length_of_failed_write {buffer : List α} {wire wire' : Wire α ε} {e : ε}
    (h : write buffer wire = (.error e, wire')) : wire'.writes.length < wire.writes.length := by
  unfold write at h
  split at h
  next hwrites => cases h
  next hwrites => cases h
  next hwrites =>
    obtain ⟨-, rfl⟩ := Prod.mk.inj h
    simp only [hwrites, List.length_cons]
    omega

theorem length_of_write {buffer : List α} {wire wire' : Wire α ε} {n : Nat}
    (h : write buffer wire = (.ok n, wire')) : n ≤ buffer.length ∧ wire'.writes.length ≤ wire.writes.length ∧
      wire'.outgoing = wire.outgoing ++ buffer.take n := by
  unfold write at h
  split at h
  next hwrites =>
    obtain ⟨hn, rfl⟩ := Prod.mk.inj h
    cases hn
    exact ⟨Nat.le_refl _, Nat.le_refl _, by rw [List.take_length]⟩
  next hwrites =>
    obtain ⟨hn, rfl⟩ := Prod.mk.inj h
    cases hn
    refine ⟨Nat.min_le_right _ _, by simp [hwrites], ?_⟩
    simp only [List.take_eq_take_iff, List.append_cancel_left_eq]
    omega
  next hwrites => cases h

theorem outgoing_of_failed_write {buffer : List α} {wire wire' : Wire α ε} {e : ε}
    (h : write buffer wire = (.error e, wire')) : wire'.outgoing = wire.outgoing := by
  unfold write at h
  split at h <;> cases h
  rfl

/-! ## The loops of the standard library -/

/-- `Read::read_exact`. -/
def readExact (failures : Failures ε) (n : Nat) (wire : Wire α ε) : Except ε (List α) × Wire α ε :=
  if n = 0 then (.ok [], wire)
  else
    match _h : (read n wire : Except ε (List α) × Wire α ε) with
    | (.ok [], wire') => (.error failures.unexpectedEof, wire')
    | (.ok (a :: rest), wire') =>
      match readExact failures (n - (rest.length + 1)) wire' with
      | (.ok more, wire'') => (.ok (a :: rest ++ more), wire'')
      | (.error e, wire'') => (.error e, wire'')
    | (.error e, wire') => if failures.interrupted e then readExact failures n wire' else (.error e, wire')
termination_by wire.size
decreasing_by
  · exact size_of_read _h
  · exact size_of_failed_read _h

/-- `Write::write_all`. -/
def writeAll (failures : Failures ε) (buffer : List α) (wire : Wire α ε) : Except ε Unit × Wire α ε :=
  if buffer = [] then (.ok (), wire)
  else
    match h : (write buffer wire : Except ε Nat × Wire α ε) with
    | (.ok 0, wire') => (.error failures.writeZero, wire')
    | (.ok (n + 1), wire') => writeAll failures (buffer.drop (n + 1)) wire'
    | (.error e, wire') => if failures.interrupted e then writeAll failures buffer wire' else (.error e, wire')
termination_by buffer.length + wire.writes.length
decreasing_by
  · have hlen := length_of_write h
    simp only [List.length_drop]
    omega
  · have hlen := length_of_failed_write h
    omega

/-! ## The other direction

What is written leaves the incoming side of the transport as it was. -/

def Wire.SameInput (wire wire' : Wire α ε) : Prop := wire'.incoming = wire.incoming ∧ wire'.reads = wire.reads

theorem Wire.SameInput.trans {wire wire' wire'' : Wire α ε} (h : wire.SameInput wire')
    (h' : wire'.SameInput wire'') : wire.SameInput wire'' :=
  ⟨h'.1.trans h.1, h'.2.trans h.2⟩

theorem Wire.SameInput.size {wire wire' : Wire α ε} (h : wire.SameInput wire') : wire'.size = wire.size := by
  rw [Wire.size, Wire.size, h.1, h.2]

theorem sameInput_of_write {buffer : List α} {wire wire' : Wire α ε} {r : Except ε Nat}
    (h : write buffer wire = (r, wire')) : wire.SameInput wire' := by
  unfold write at h
  split at h <;> cases h <;> exact ⟨rfl, rfl⟩

theorem sameInput_flush (wire : Wire α ε) : wire.SameInput (flush wire).2 := by
  unfold flush
  split <;> exact ⟨rfl, rfl⟩

theorem sameInput_writeAll (failures : Failures ε) (buffer : List α) (wire : Wire α ε) :
    wire.SameInput (writeAll failures buffer wire).2 := by
  induction buffer, wire using writeAll.induct failures with
  | case1 wire =>
    rw [writeAll, if_pos rfl]
    exact ⟨rfl, rfl⟩
  | case2 buffer wire hbuffer wire' hwrite =>
    rw [writeAll, if_neg hbuffer]
    split <;> rename_i heq <;> rw [hwrite] at heq <;> cases heq
    exact sameInput_of_write hwrite
  | case3 buffer wire hbuffer n wire' hwrite ih =>
    rw [writeAll, if_neg hbuffer]
    split <;> rename_i heq <;> rw [hwrite] at heq <;> cases heq
    exact (sameInput_of_write hwrite).trans ih
  | case4 buffer wire hbuffer e wire' hwrite he ih =>
    rw [writeAll, if_neg hbuffer]
    split <;> rename_i heq <;> rw [hwrite] at heq <;> cases heq
    rw [if_pos he]
    exact (sameInput_of_write hwrite).trans ih
  | case5 buffer wire hbuffer e wire' hwrite he =>
    rw [writeAll, if_neg hbuffer]
    split <;> rename_i heq <;> rw [hwrite] at heq <;> cases heq
    rw [if_neg he]
    exact sameInput_of_write hwrite

theorem size_flush (wire : Wire α ε) : (flush wire).2.size = wire.size := (sameInput_flush wire).size

theorem size_writeAll (failures : Failures ε) (buffer : List α) (wire : Wire α ε) :
    (writeAll failures buffer wire).2.size = wire.size :=
  (sameInput_writeAll failures buffer wire).size

theorem outgoing_flush (wire : Wire α ε) : (flush wire).2.outgoing = wire.outgoing := by
  unfold flush
  split <;> rfl

theorem writeAll_written {failures : Failures ε} {buffer : List α} {wire wire' : Wire α ε} {n : Nat}
    (hbuffer : buffer ≠ []) (h : write buffer wire = (.ok (n + 1), wire')) :
    writeAll failures buffer wire = writeAll failures (buffer.drop (n + 1)) wire' := by
  rw [writeAll, if_neg hbuffer]
  split <;> rename_i heq <;> rw [h] at heq <;> cases heq
  rfl

theorem writeAll_interrupted {failures : Failures ε} {buffer : List α} {wire wire' : Wire α ε} {e : ε}
    (hbuffer : buffer ≠ []) (h : write buffer wire = (.error e, wire')) (he : failures.interrupted e = true) :
    writeAll failures buffer wire = writeAll failures buffer wire' := by
  rw [writeAll, if_neg hbuffer]
  split <;> rename_i heq <;> rw [h] at heq <;> cases heq
  rw [if_pos he]

/-- What `write_all` reports written is written. -/
theorem outgoing_writeAll (failures : Failures ε) (buffer : List α) (wire : Wire α ε) :
    ∀ {wire' : Wire α ε}, writeAll failures buffer wire = (.ok (), wire') →
        wire'.outgoing = wire.outgoing ++ buffer := by
  induction buffer, wire using writeAll.induct failures with
  | case1 wire =>
    intro wire' h
    rw [writeAll, if_pos rfl] at h
    cases h
    rw [List.append_nil]
  | case2 buffer wire hbuffer wire1 hwrite =>
    intro wire' h
    rw [writeAll, if_neg hbuffer] at h
    split at h <;> rename_i heq <;> rw [hwrite] at heq <;> cases heq
    cases h
  | case3 buffer wire hbuffer n wire1 hwrite ih =>
    intro wire' h
    rw [writeAll_written hbuffer hwrite] at h
    rw [ih h, (length_of_write hwrite).2.2, List.append_assoc, List.take_append_drop]
  | case4 buffer wire hbuffer e wire1 hwrite he ih =>
    intro wire' h
    rw [writeAll_interrupted hbuffer hwrite he] at h
    rw [ih h, outgoing_of_failed_write hwrite]
  | case5 buffer wire hbuffer e wire1 hwrite he =>
    intro wire' h
    rw [writeAll, if_neg hbuffer] at h
    split at h <;> rename_i heq <;> rw [hwrite] at heq <;> cases heq
    rw [if_neg he] at h
    cases h

/-! ## Transports that accept what is written -/

/-- Writes are interrupted and move less than they could, and nothing else goes wrong. -/
structure Wire.Accepts (failures : Failures ε) (wire : Wire α ε) : Prop where
  writes : ∀ e, .error e ∈ wire.writes → failures.interrupted e = true
  accepting : .ok 0 ∉ wire.writes
  flushes : ∀ e, .error e ∉ wire.flushes

section

variable {failures : Failures ε} {wire : Wire α ε}

theorem write_accepts {buffer : List α} (hwire : wire.Accepts failures) (hbuffer : buffer ≠ []) :
    (∃ e wire', write buffer wire = (.error e, wire') ∧ failures.interrupted e = true ∧ wire'.Accepts failures) ∨
      ∃ n wire', write buffer wire = (.ok (n + 1), wire') ∧ wire'.Accepts failures := by
  obtain ⟨a, rest, rfl⟩ := List.exists_cons_of_ne_nil hbuffer
  cases hwrites : wire.writes with
  | nil =>
    refine .inr ⟨rest.length, { wire with outgoing := wire.outgoing ++ a :: rest },
      by simp only [write, hwrites, List.length_cons], ?_⟩
    exact ⟨hwire.writes, hwire.accepting, hwire.flushes⟩
  | cons call writes =>
    have hrest : ({ wire with writes } : Wire α ε).Accepts failures :=
      ⟨fun e he => hwire.writes e (hwrites ▸ List.mem_cons_of_mem _ he),
        fun h => hwire.accepting (hwrites ▸ List.mem_cons_of_mem _ h), hwire.flushes⟩
    cases call with
    | error e =>
      exact .inl ⟨e, { wire with writes }, by simp only [write, hwrites],
        hwire.writes e (hwrites ▸ List.mem_cons_self), hrest⟩
    | ok count =>
      have hcount : count ≠ 0 := by
        rintro rfl
        exact hwire.accepting (hwrites ▸ List.mem_cons_self)
      obtain ⟨n, rfl⟩ := Nat.exists_eq_succ_of_ne_zero hcount
      refine .inr ⟨min n rest.length, { wire with outgoing := wire.outgoing ++ (a :: rest).take (n + 1), writes },
        by simp only [write, hwrites, List.length_cons, Nat.succ_eq_add_one, Nat.add_min_add_right], ?_⟩
      exact ⟨hrest.writes, hrest.accepting, hrest.flushes⟩

theorem Wire.Accepts.of_read {n : Nat} {wire' : Wire α ε} {r : Except ε (List α)} (hwire : wire.Accepts failures)
    (h : read n wire = (r, wire')) : wire'.Accepts failures := by
  obtain ⟨-, hwrites, hflushes⟩ := tapes_of_read h
  exact ⟨hwrites ▸ hwire.writes, hwrites ▸ hwire.accepting, hflushes ▸ hwire.flushes⟩

theorem flush_accepts (hwire : wire.Accepts failures) :
    ∃ wire', flush wire = (.ok (), wire') ∧ wire'.Accepts failures := by
  cases hflushes : wire.flushes with
  | nil => exact ⟨wire, by simp only [flush, hflushes], hwire⟩
  | cons outcome flushes =>
    cases outcome with
    | error e => exact absurd (hflushes ▸ List.mem_cons_self) (hwire.flushes e)
    | ok u =>
      refine ⟨{ wire with flushes }, by simp only [flush, hflushes], ?_⟩
      exact ⟨hwire.writes, hwire.accepting, fun e he => hwire.flushes e (hflushes ▸ List.mem_cons_of_mem _ he)⟩

/-- **`write_all` delivers its buffer**, in as many writes as it takes. -/
theorem writeAll_accepts (buffer : List α) (wire : Wire α ε) (hwire : wire.Accepts failures) :
    ∃ wire', writeAll failures buffer wire = (.ok (), wire') ∧ wire'.Accepts failures := by
  by_cases hbuffer : buffer = []
  · subst hbuffer
    exact ⟨wire, by rw [writeAll, if_pos rfl], hwire⟩
  · rcases write_accepts hwire hbuffer with ⟨e, wire1, hwrite, he, haccepts⟩ | ⟨n, wire1, hwrite, haccepts⟩
    · have hless := length_of_failed_write hwrite
      obtain ⟨wire', hrun, haccepts'⟩ := writeAll_accepts buffer wire1 haccepts
      exact ⟨wire', (writeAll_interrupted hbuffer hwrite he).trans hrun, haccepts'⟩
    · have hless := length_of_write hwrite
      obtain ⟨wire', hrun, haccepts'⟩ := writeAll_accepts (buffer.drop (n + 1)) wire1 haccepts
      exact ⟨wire', (writeAll_written hbuffer hwrite).trans hrun, haccepts'⟩
termination_by buffer.length + wire.writes.length
decreasing_by
  · omega
  · simp only [List.length_drop]
    omega

end

/-! ## Steady transports -/

/-- Calls are interrupted and move less than they could, and nothing else goes wrong. -/
structure Wire.Steady (failures : Failures ε) (wire : Wire α ε) : Prop where
  reads : ∀ e, .error e ∈ wire.reads → failures.interrupted e = true
  writes : ∀ e, .error e ∈ wire.writes → failures.interrupted e = true
  accepting : .ok 0 ∉ wire.writes
  flushes : ∀ e, .error e ∉ wire.flushes

variable {failures : Failures ε} {wire : Wire α ε}

theorem Wire.Steady.accepts (h : wire.Steady failures) : wire.Accepts failures :=
    ⟨h.writes, h.accepting, h.flushes⟩

theorem Wire.Accepts.steady {wire' : Wire α ε} (h : wire'.Accepts failures) (hwire : wire.Steady failures)
    (hsame : wire.SameInput wire') : wire'.Steady failures :=
  ⟨fun e he => hwire.reads e (hsame.2 ▸ he), h.writes, h.accepting, h.flushes⟩

theorem Wire.Steady.of_read {n : Nat} {wire' : Wire α ε} {r : Except ε (List α)} (hwire : wire.Steady failures)
    (h : read n wire = (r, wire')) : wire'.Steady failures := by
  have haccepts := hwire.accepts.of_read h
  exact ⟨fun e he => hwire.reads e ((tapes_of_read h).1 _ he), haccepts.writes, haccepts.accepting,
    haccepts.flushes⟩

/-- A read of a steady transport is interrupted or takes items from the front of the stream. -/
theorem read_steady {n : Nat} (hwire : wire.Steady failures) (hn : 0 < n) :
    (∃ e wire', read n wire = (.error e, wire') ∧ failures.interrupted e = true ∧ wire'.Steady failures ∧
      wire'.incoming = wire.incoming ∧ wire'.outgoing = wire.outgoing) ∨
    ∃ chunk wire', read n wire = (.ok chunk, wire') ∧ chunk ++ wire'.incoming = wire.incoming ∧ chunk.length ≤ n ∧
      (chunk = [] → wire.incoming = []) ∧ wire'.Steady failures ∧ wire'.outgoing = wire.outgoing := by
  rcases hread : read n wire with ⟨e | chunk, wire'⟩
  · obtain ⟨hin, hout⟩ := failed_read hread
    exact .inl ⟨e, wire', rfl, hwire.reads e (mem_reads_of_failed_read hread), hwire.of_read hread, hin, hout⟩
  · obtain ⟨hin, hout⟩ := incoming_of_read hread
    refine .inr ⟨chunk, wire', rfl, hin.symm, length_of_read hread, ?_, hwire.of_read hread, hout⟩
    rintro rfl
    exact ended_of_read hn hread

theorem flush_steady (hwire : wire.Steady failures) : ∃ wire', flush wire = (.ok (), wire') ∧
    wire'.Steady failures ∧ wire'.incoming = wire.incoming ∧ wire'.outgoing = wire.outgoing := by
  obtain ⟨wire', hrun, haccepts⟩ := flush_accepts hwire.accepts
  have hsame := sameInput_flush wire
  have hout := outgoing_flush wire
  rw [hrun] at hsame hout
  exact ⟨wire', hrun, haccepts.steady hwire hsame, hsame.1, hout⟩

/-! ## The loops over a steady transport -/

theorem writeAll_steady (failures : Failures ε) (buffer : List α) (wire : Wire α ε)
    (hwire : wire.Steady failures) : ∃ wire', writeAll failures buffer wire = (.ok (), wire') ∧
    wire'.outgoing = wire.outgoing ++ buffer ∧
      wire'.Steady failures ∧ wire'.incoming = wire.incoming := by
  obtain ⟨wire', hrun, haccepts⟩ := writeAll_accepts buffer wire hwire.accepts
  have hsame := sameInput_writeAll failures buffer wire
  rw [hrun] at hsame
  exact ⟨wire', hrun, outgoing_writeAll failures buffer wire hrun, haccepts.steady hwire hsame, hsame.1⟩

theorem readExact_took {n : Nat} {wire' : Wire α ε} {a : α} {rest : List α} (hn : n ≠ 0)
    (h : read n wire = (.ok (a :: rest), wire')) :
    readExact failures n wire = match readExact failures (n - (rest.length + 1)) wire' with
      | (.ok more, wire'') => (.ok (a :: rest ++ more), wire'')
      | (.error e, wire'') => (.error e, wire'') := by
  rw [readExact, if_neg hn]
  split <;> rename_i heq <;> rw [h] at heq <;> cases heq
  rfl

theorem readExact_ended {n : Nat} {wire' : Wire α ε} (hn : n ≠ 0) (h : read n wire = (.ok [], wire')) :
    readExact failures n wire = (.error failures.unexpectedEof, wire') := by
  rw [readExact, if_neg hn]
  split <;> rename_i heq <;> rw [h] at heq <;> cases heq
  rfl

theorem readExact_interrupted {n : Nat} {wire' : Wire α ε} {e : ε} (hn : n ≠ 0)
    (h : read n wire = (.error e, wire')) (he : failures.interrupted e = true) :
    readExact failures n wire = readExact failures n wire' := by
  rw [readExact, if_neg hn]
  split <;> rename_i heq <;> rw [h] at heq <;> cases heq
  rw [if_pos he]

/-- **`read_exact` takes what is there**, in as many reads as it takes, and fails where the stream is too short. -/
theorem readExact_steady (failures : Failures ε) (n : Nat) (wire : Wire α ε) (hwire : wire.Steady failures) :
    ∃ wire', wire'.Steady failures ∧ wire'.outgoing = wire.outgoing ∧
      (n ≤ wire.incoming.length → readExact failures n wire = (.ok (wire.incoming.take n), wire') ∧
        wire'.incoming = wire.incoming.drop n) ∧
      (wire.incoming.length < n → readExact failures n wire = (.error failures.unexpectedEof, wire')) := by
  by_cases hn : n = 0
  · subst hn
    exact ⟨wire, hwire, rfl, fun _ => ⟨by rw [readExact, if_pos rfl, List.take_zero], rfl⟩,
      fun h => absurd h (Nat.not_lt_zero _)⟩
  · rcases read_steady hwire (Nat.pos_of_ne_zero hn) with ⟨e, wire1, hread, he, hsteady, hin, hout⟩ |
      ⟨chunk, wire1, hread, hchunk, hlen, hnil, hsteady, hout⟩
    · have hless := size_of_failed_read hread
      obtain ⟨wire', hsteady', hout', henough, hshort⟩ := readExact_steady failures n wire1 hsteady
      rw [hin] at henough hshort
      rw [← readExact_interrupted hn hread he] at henough hshort
      exact ⟨wire', hsteady', hout'.trans hout, henough, hshort⟩
    · cases chunk with
      | nil =>
        refine ⟨wire1, hsteady, hout, fun h => absurd h ?_, fun _ => readExact_ended hn hread⟩
        rw [hnil rfl]
        exact fun h => hn (Nat.le_zero.mp h)
      | cons a rest =>
        have hless := size_of_read hread
        obtain ⟨wire', hsteady', hout', henough, hshort⟩ :=
          readExact_steady failures (n - (rest.length + 1)) wire1 hsteady
        have htotal := congrArg List.length hchunk
        simp only [List.length_append, List.length_cons] at htotal hlen
        refine ⟨wire', hsteady', hout'.trans hout, fun h => ?_, fun h => ?_⟩
        · obtain ⟨hrun, hin⟩ := henough (by omega)
          rw [readExact_took hn hread, hrun, ← hchunk, List.take_append, List.drop_append, hin]
          rw [List.take_of_length_le (l := a :: rest) hlen, List.drop_of_length_le (l := a :: rest) hlen]
          exact ⟨rfl, rfl⟩
        · rw [readExact_took hn hread, hshort (by omega)]
termination_by wire.size

/-! ## Reading a stream to its end -/

/-- Repeating `next` takes the items and then stops: at the end of the stream, or with an error. -/
inductive Yields {σ : Type} (next : σ → Except ε (Option β) × σ) : σ → List β → Except ε Unit → Prop
  | ended {s s' : σ} : next s = (.ok none, s') → Yields next s [] (.ok ())
  | failed {s s' : σ} {e : ε} : next s = (.error e, s') → Yields next s [] (.error e)
  | item {s s' : σ} {b : β} {items : List β} {outcome : Except ε Unit} :
    next s = (.ok (some b), s') → Yields next s' items outcome → Yields next s (b :: items) outcome

/-- A state has one stream. -/
theorem Yields.unique {σ : Type} {next : σ → Except ε (Option β) × σ} {s : σ} {items items' : List β}
    {outcome outcome' : Except ε Unit} (h : Yields next s items outcome) (h' : Yields next s items' outcome') :
    items = items' ∧ outcome = outcome' := by
  induction h generalizing items' outcome' with
  | ended hs => cases h' <;> simp_all
  | failed hs => cases h' <;> simp_all
  | item hs _ ih =>
    cases h' with
    | ended hs' => simp_all
    | failed hs' => simp_all
    | item hs' hrest' =>
      rw [hs] at hs'
      cases hs'
      obtain ⟨rfl, rfl⟩ := ih hrest'
      exact ⟨rfl, rfl⟩

/-- Repeating `next` from the first state gave the items and came to the second. -/
inductive Took {σ : Type} (next : σ → Except ε (Option β) × σ) (s : σ) : List β → σ → Prop
  | none : Took next s [] s
  | next {s' s'' : σ} {items : List β} {b : β} :
    Took next s items s' → next s' = (.ok (some b), s'') → Took next s (items ++ [b]) s''

theorem Took.cons {σ : Type} {next : σ → Except ε (Option β) × σ} {s s' s'' : σ} {b : β} {items : List β}
    (h : next s = (.ok (some b), s')) (hitems : Took next s' items s'') : Took next s (b :: items) s'' := by
  induction hitems with
  | none => exact Took.next .none h
  | next _ hnext ih => exact ih.next hnext

/-- What a stream ends in is what `next` says behind its last item. -/
theorem Yields.took {σ : Type} {next : σ → Except ε (Option β) × σ} {s : σ} {items : List β}
    {outcome : Except ε Unit} (h : Yields next s items outcome) : ∃ s' s'', Took next s items s' ∧
      (outcome = .ok () → next s' = (.ok none, s'')) ∧ ∀ e, outcome = .error e → next s' = (.error e, s'') := by
  induction h with
  | @ended s s' hs =>
    refine ⟨s, s', .none, fun _ => hs, ?_⟩
    rintro _ ⟨⟩
  | @failed s s' _ hs =>
    refine ⟨s, s', .none, ?_, ?_⟩
    · rintro ⟨⟩
    · rintro _ ⟨⟩
      exact hs
  | item hs _ ih =>
    obtain ⟨s', s'', htook, hended, hfailed⟩ := ih
    exact ⟨s', s'', .cons hs htook, hended, hfailed⟩

/-- A stream ends where every item uses something up. -/
theorem exists_yields {σ : Type} {next : σ → Except ε (Option β) × σ} (size : σ → Nat)
    (hsize : ∀ s b s', next s = (.ok (some b), s') → size s' < size s) (s : σ) :
    ∃ items outcome, Yields next s items outcome := by
  induction hn : size s using Nat.strongRecOn generalizing s with
  | _ n ih =>
    rcases hs : next s with ⟨e | _ | b, s'⟩
    · exact ⟨[], .error e, .failed hs⟩
    · exact ⟨[], .ok (), .ended hs⟩
    · obtain ⟨items, outcome, hrest⟩ := ih (size s') (hn ▸ hsize s b s' hs) s' rfl
      exact ⟨b :: items, outcome, .item hs hrest⟩

/-- The reader takes the encoded item from the front of every steady transport. -/
def Reads (failures : Failures ε) (next : Wire α ε → Except ε (Option β) × Wire α ε) (encoded : List α)
    (b : β) : Prop :=
  ∀ (wire : Wire α ε) (rest : List α), wire.Steady failures → wire.incoming = encoded ++ rest →
    ∃ wire', next wire = (.ok (some b), wire') ∧ wire'.Steady failures ∧ wire'.incoming = rest

/-- A stream of encoded items is read item by item, and then the reader goes on with what follows them. -/
theorem yields_of_reads {next : Wire α ε → Except ε (Option β) × Wire α ε} {encode : β → List α} {tail : List α}
    {outcome : Except ε Unit} {items : List β} (hitems : ∀ b ∈ items, Reads failures next (encode b) b)
    (htail : ∀ wire : Wire α ε, wire.Steady failures → wire.incoming = tail → Yields next wire [] outcome)
    (wire : Wire α ε) (hwire : wire.Steady failures) (hincoming : wire.incoming = items.flatMap encode ++ tail) :
    Yields next wire items outcome := by
  induction items generalizing wire with
  | nil => exact htail wire hwire hincoming
  | cons b items ih =>
    rw [List.flatMap_cons, List.append_assoc] at hincoming
    obtain ⟨wire', hnext, hsteady, hrest⟩ := hitems b List.mem_cons_self wire _ hwire hincoming
    exact .item hnext (ih (fun c hc => hitems c (List.mem_cons_of_mem _ hc)) wire' hsteady hrest)

end Transport
