import SimFerret.Driver.Network
import SimFerret.Lib.Attempt
import SimFerret.Workload.Path

/-!
# SimFerret.Fixture — the guest's TFTP client (`fixture.rs`)

The client latches the address of the first datagram, takes blocks of 512 bytes in order, acknowledges each, and
stops behind the first short one.

* `UdpSocket`: what a socket does to the state of the network it is bound to.
* `tftpRound`, `tftpLoop`, `tftpRequest`: the code, over any such socket.
* `Peer`: a server that sends a block when the one before is acknowledged, among datagrams of others.
* `parseFixtureResponse_iff`: what the client accepts of the contents.
* `tftpRequest_reassembles`: **the contents that the server has are those that are parsed**.
-/

namespace SimFerret.Fixture

open Driver (textLines stripStart parseFixtureResponse tftpResponse)

/-! ## The text of a response -/

/-- A text that `str::lines` gives back as one line. -/
def IsLine (text : Text) : Prop := 10 ∉ text ∧ text.getLast? ≠ some 13

instance (text : Text) : Decidable (IsLine text) := inferInstanceAs (Decidable (_ ∧ _))

theorem newline_not_mem_of_textLines {text line : Text} (h : line ∈ textLines text) : 10 ∉ line := by
  have hpart : ∀ part ∈ text.splitOn 10, (10 : UInt8) ∉ part := fun part hpart => (Workload.mem_splitOn hpart).1
  rw [textLines, List.mem_append, List.mem_map] at h
  rcases h with ⟨part, hmem, rfl⟩ | h
  · have hnot := hpart part (List.dropLast_subset _ hmem)
    split_ifs
    · exact fun hin => hnot (List.dropLast_subset _ hin)
    · exact hnot
  · have hlast := List.getLast?_eq_some_getLast (List.splitOn_ne_nil (10 : UInt8) text)
    rw [hlast, Option.getD_some] at h
    split_ifs at h
    · exact absurd h List.not_mem_nil
    · exact List.mem_singleton.mp h ▸ hpart _ (List.getLast_mem _)

/-- `str::lines` drops a carriage return in front of the newline. -/
def chomp (line : Text) : Text := if line.getLast? = some 13 then line.dropLast else line

theorem textLines_two_lines {first second : Text} (hfirst : 10 ∉ first) (hsecond : 10 ∉ second) :
    textLines (first ++ 10 :: (second ++ [10])) = [chomp first, chomp second] := by
  have hsplit : (first ++ 10 :: (second ++ [10])).splitOn (10 : UInt8) = [first, second, []] := by
    rw [List.splitOn_append_cons_self_of_not_mem hfirst, List.splitOn_append_cons_self_of_not_mem hsecond,
      List.splitOn_nil]
  rw [textLines, hsplit]
  rfl

theorem chomp_eq_self {line : Text} : chomp line = line ↔ line.getLast? ≠ some 13 := by
  rw [chomp]
  split_ifs with h
  · refine ⟨fun heq => ?_, fun hne => absurd h hne⟩
    have hlength := congrArg List.length heq
    have hne : line ≠ [] := by
      rintro rfl
      cases h
    have hpos := List.length_pos_iff.mpr hne
    rw [List.length_dropLast] at hlength
    omega
  · exact ⟨fun _ => h, fun _ => rfl⟩

theorem stripStart_eq_some {start text rest : Text} : stripStart start text = some rest ↔
    text = start ++ rest := by
  rw [stripStart]
  split_ifs with h
  · obtain ⟨tail, rfl⟩ := List.isPrefixOf_iff_prefix.mp h
    rw [List.drop_left, Option.some.injEq, List.append_cancel_left_eq]
  · refine ⟨False.elim, fun heq => absurd ?_ h⟩
    rw [heq, List.isPrefixOf_iff_prefix]
    exact List.prefix_append start rest

/-- The bytes of a response. -/
def canonicalResponse (requestId payload : Text) : Bytes :=
  utf8 "request_id=" ++ requestId ++ utf8 "\npayload=" ++ payload ++ utf8 "\n"

theorem canonicalResponse_eq (requestId payload : Text) : canonicalResponse requestId payload =
    (utf8 "request_id=" ++ requestId) ++ 10 :: ((utf8 "payload=" ++ payload) ++ [10]) := by
  have hnewline : utf8 "\npayload=" = 10 :: utf8 "payload=" := by decide
  have hend : utf8 "\n" = [10] := by decide
  rw [canonicalResponse, hnewline, hend]
  simp only [List.append_assoc, List.cons_append]

/-- A label without a newline does not change whether a line is one. -/
theorem isLine_append {label text : Text} (hlabel : 10 ∉ label) (hlast : label.getLast? ≠ some 13) :
    IsLine (label ++ text) ↔ IsLine text := by
  rw [IsLine, IsLine, List.mem_append, List.getLast?_append]
  cases htext : text.getLast? with
  | none =>
    rw [List.getLast?_eq_none_iff] at htext
    simp [htext, hlabel, hlast]
  | some last => simp [hlabel]

/-- **What the client accepts.** -/
theorem parseFixtureResponse_iff {utf8Error : Bytes → Text} {contents requestId payload : Text} :
    parseFixtureResponse utf8Error contents = .ok (requestId, payload) ↔
      Utf8.valid contents = true ∧ contents = canonicalResponse requestId payload ∧ IsLine requestId ∧
          IsLine payload := by
  have hid : IsLine (utf8 "request_id=" ++ requestId) ↔ IsLine requestId := isLine_append (by decide) (by decide)
  have hpayload : IsLine (utf8 "payload=" ++ payload) ↔ IsLine payload := isLine_append (by decide) (by decide)
  rw [← hid, ← hpayload, parseFixtureResponse]
  constructor
  · intro h
    obtain ⟨_, hvalid, h⟩ := bind_eq_ok.mp h
    obtain ⟨id', hfirst, h⟩ := bind_eq_ok.mp h
    obtain ⟨payload', hsecond, h⟩ := bind_eq_ok.mp h
    obtain ⟨_, hthird, h⟩ := bind_eq_ok.mp h
    obtain ⟨_, hsame, h⟩ := bind_eq_ok.mp h
    obtain ⟨rfl, rfl⟩ := Prod.mk.inj (pure_eq_ok.mp h)
    obtain ⟨first, hline, hfirst⟩ := Option.bind_eq_some_iff.mp (okOr_eq_ok.mp hfirst)
    obtain ⟨second, hline', hsecond⟩ := Option.bind_eq_some_iff.mp (okOr_eq_ok.mp hsecond)
    obtain rfl := stripStart_eq_some.mp hfirst
    obtain rfl := stripStart_eq_some.mp hsecond
    have hsame : canonicalResponse id' payload' = contents := eq_of_beq (require_eq_ok.mp hsame)
    have hnot := newline_not_mem_of_textLines (List.mem_of_getElem? hline)
    have hnot' := newline_not_mem_of_textLines (List.mem_of_getElem? hline')
    have hlines := textLines_two_lines hnot hnot'
    rw [← canonicalResponse_eq, hsame] at hlines
    rw [hlines] at hline hline'
    refine ⟨require_eq_ok.mp hvalid, hsame.symm, ⟨hnot, ?_⟩, hnot', ?_⟩
    · exact chomp_eq_self.mp (Option.some.inj hline)
    · exact chomp_eq_self.mp (Option.some.inj hline')
  · rintro ⟨hvalid, rfl, hfirst, hsecond⟩
    have hlines := textLines_two_lines hfirst.1 hsecond.1
    rw [chomp_eq_self.mpr hfirst.2, chomp_eq_self.mpr hsecond.2, ← canonicalResponse_eq] at hlines
    rw [hvalid, hlines]
    refine bind_eq_ok.mpr ⟨(), rfl, bind_eq_ok.mpr ⟨requestId, ?_, bind_eq_ok.mpr ⟨payload, ?_, ?_⟩⟩⟩
    · exact okOr_eq_ok.mpr (stripStart_eq_some.mpr rfl)
    · exact okOr_eq_ok.mpr (stripStart_eq_some.mpr rfl)
    · refine bind_eq_ok.mpr ⟨(), rfl, bind_eq_ok.mpr ⟨(), ?_, rfl⟩⟩
      exact require_eq_ok.mpr (beq_self_eq_true (canonicalResponse requestId payload))

/-! ## The client -/

section Client

variable {Ip σ : Type} [DecidableEq Ip]

/-- `SocketAddr`: an address and a port. -/
abbrev SocketAddr (Ip : Type) := Ip × Nat

structure Datagram (Ip : Type) where
  bytes : Bytes
  source : SocketAddr Ip

/-- Code that uses the network. -/
abbrev Net (σ α : Type) := ExceptT IoError (StateM σ) α

/-- What the calls of the standard library do to the network. -/
structure UdpSocket (Ip σ : Type) where
  /-- `IpAddr::from_str`. -/
  parseIp : Text → Except Text Ip
  /-- `UdpSocket::bind` and the two timeouts. -/
  bind : Net σ Unit
  sendTo : Bytes → SocketAddr Ip → Net σ Unit
  /-- The next datagram; the read timeout is an error. -/
  recvFrom : Net σ (Datagram Ip)

/-- `u16::to_be_bytes`. -/
def be16 (n : Nat) : Bytes := [UInt8.ofNat (n / 256), UInt8.ofNat n]

/-- `u16::from_be_bytes([packet[offset], packet[offset + 1]])`. -/
def word (packet : Bytes) (offset : Nat) : Nat :=
  ((packet.drop offset).take 2).foldl (fun value byte => value * 256 + byte.toNat) 0

/-- What the loop has collected. -/
structure Transfer (Ip : Type) where
  contents : Bytes := []
  expectedBlock : Nat := 1
  server : Option (SocketAddr Ip) := none

/-- `[0_u8; 516]`. -/
def packetSize : Nat := 516

variable (socket : UdpSocket Ip σ)

/-- The contents with those of a packet. -/
def acceptBlock (expectedBlock : Nat) (contents packet : Bytes) : IoResult Bytes := do
  require (4 ≤ packet.length) (invalidData "truncated TFTP packet")
  let opcode := word packet 0
  require (opcode ≠ 5) ⟨.notFound, "TFTP server returned an error"⟩
  let block := word packet 2
  require (opcode = 3 ∧ block = expectedBlock) (invalidData "unexpected TFTP packet")
  let contents := contents ++ packet.drop 4
  require (contents.length ≤ maxRequestDataLength) (invalidData "TFTP response exceeds protocol limit")
  return contents

/-- `expected_block.checked_add(1)`. -/
def nextBlock (expectedBlock : Nat) : IoResult Nat :=
  if expectedBlock + 1 < 2 ^ 16 then .ok (expectedBlock + 1) else .error (invalidData "TFTP block overflow")

/-- The part of the loop body behind the check of the source. -/
def takePacket (transfer : Transfer Ip) (packet : Bytes) (source : SocketAddr Ip) :
    Net σ (Transfer Ip ⊕ Bytes) := do
  let contents ← liftM (acceptBlock transfer.expectedBlock transfer.contents packet)
  socket.sendTo ([0, 4] ++ (packet.drop 2).take 2) source
  if packet.length < packetSize then return .inr contents
  else do
    let expectedBlock ← liftM (nextBlock transfer.expectedBlock)
    return .inl { contents, expectedBlock, server := some source }

/-- One round of the loop: what it has collected, or the contents behind the last block. -/
def tftpRound (transfer : Transfer Ip) : Net σ (Transfer Ip ⊕ Bytes) := do
  let datagram ← socket.recvFrom
  if transfer.server.any fun server => datagram.source ≠ server then return .inl transfer
  else takePacket socket transfer (datagram.bytes.take packetSize) datagram.source

/-- The loop, cut off after `rounds` rounds. -/
def tftpLoop : Nat → Transfer Ip → Net σ (Option Bytes)
  | 0, _ => pure none
  | rounds + 1, transfer => do
    let next ← tftpRound socket transfer
    next.elim (tftpLoop rounds) fun contents => pure (some contents)

/-- A read request. -/
def readRequest (filename : Text) : Bytes := [0, 1] ++ filename ++ utf8 "\x00octet\x00"

/-- `tftp_request`, with the rounds that its loop is given. -/
def tftpRequest (utf8Error : Bytes → Text) (rounds : Nat)
    (peer filename : Text) : Net σ (Option (Text × Text)) := do
  let ip ← liftM ((socket.parseIp peer).mapError invalid)
  socket.bind
  socket.sendTo (readRequest filename) (ip, 69)
  let contents ← tftpLoop socket rounds {}
  contents.elim (pure none) fun contents => liftM ((parseFixtureResponse utf8Error contents).map some)

end Client

/-! ## The server -/

section Server

variable {Ip : Type} [DecidableEq Ip]

/-- A server with one file, and what others send to the client. -/
structure Peer (Ip : Type) where
  ip : Ip
  filename : Text
  contents : Bytes
  /-- Where the blocks come from. -/
  address : SocketAddr Ip
  /-- The datagrams of others that reach the client before a block does. -/
  others : Nat → List (Datagram Ip)

/-- The network between the two. -/
structure Wire (Ip : Type) where
  ahead : List (Datagram Ip) := []
  /-- The block that comes behind the datagrams of others. -/
  due : Option Nat := none
  /-- The last block that was received. -/
  served : Nat := 0
  /-- What the client sent. -/
  sent : List (Bytes × SocketAddr Ip) := []

/-- How many bytes a full block has. -/
def blockSize : Nat := 512

/-- Acknowledgement of a block. -/
def ackPacket (block : Nat) : Bytes := [0, 4] ++ be16 block

namespace Peer

variable (peer : Peer Ip)

/-- The blocks are numbered from one; the last one is shorter than the others. -/
def blocks : Nat := peer.contents.length / blockSize + 1

def block (i : Nat) : Bytes := (peer.contents.drop (blockSize * (i - 1))).take blockSize

def dataPacket (i : Nat) : Bytes := [0, 3] ++ be16 i ++ peer.block i

/-- The server sends a block. -/
def offer (i : Nat) (wire : Wire Ip) : Wire Ip := { wire with ahead := peer.others i, due := some i }

/-- The server answers its read request with the first block, and each acknowledgement of the last block it sent
with the next. -/
def answer (bytes : Bytes) (target : SocketAddr Ip) (wire : Wire Ip) : Wire Ip :=
  if target = (peer.ip, 69) ∧ bytes = readRequest peer.filename then peer.offer 1 wire
  else if target = peer.address ∧ bytes = ackPacket wire.served ∧ wire.served < peer.blocks then
    peer.offer (wire.served + 1) wire
  else wire

def sendTo (bytes : Bytes) (target : SocketAddr Ip) : Net (Wire Ip) Unit := fun wire =>
  (.ok (), peer.answer bytes target { wire with sent := wire.sent ++ [(bytes, target)] })

def recvFrom : Net (Wire Ip) (Datagram Ip) := fun wire =>
  match wire.ahead, wire.due with
  | datagram :: ahead, _ => (.ok datagram, { wire with ahead })
  | [], some i => (.ok ⟨peer.dataPacket i, peer.address⟩, { wire with due := none, served := i })
  | [], none => (.error ⟨.wouldBlock, "Resource temporarily unavailable (os error 11)"⟩, wire)

def socket (parseIp : Text → Except Text Ip) : UdpSocket Ip (Wire Ip) where
  parseIp := parseIp
  bind := pure ()
  sendTo := peer.sendTo
  recvFrom := peer.recvFrom

/-- The acknowledgements of the first blocks. -/
def acks (n : Nat) : List (Bytes × SocketAddr Ip) := (List.range' 1 n).map fun i => (ackPacket i, peer.address)

/-- The network when a block is due. -/
def waiting (i : Nat) : Wire Ip where
  ahead := peer.others i
  due := some i
  served := i - 1
  sent := (readRequest peer.filename, (peer.ip, 69)) :: peer.acks (i - 1)

/-- The client when a block is due. -/
def transfer (i : Nat) : Transfer Ip where
  contents := peer.contents.take (blockSize * (i - 1))
  expectedBlock := i
  server := if i = 1 then none else some peer.address

/-- The network behind the last block. -/
def finished : Wire Ip where
  served := peer.blocks
  sent := (readRequest peer.filename, (peer.ip, 69)) :: peer.acks peer.blocks

/-! ## One round -/

variable {peer : Peer Ip} {parseIp : Text → Except Text Ip} {utf8Error : Bytes → Text} {i : Nat}

theorem word_be16 {n : Nat} (h : n < 2 ^ 16) (rest : Bytes) : word (be16 n ++ rest) 0 = n := by
  have hfront : (be16 n ++ rest).take 2 = be16 n := List.take_left' rfl
  rw [word, List.drop_zero, hfront]
  simp only [be16, List.foldl_cons, List.foldl_nil, UInt8.toNat_ofNat']
  omega

omit [DecidableEq Ip] in
theorem length_block_le : (peer.block i).length ≤ blockSize := by
  rw [block, List.length_take]
  omega

omit [DecidableEq Ip] in
/-- What a block adds. -/
theorem take_block (hi : 1 ≤ i) :
    peer.contents.take (blockSize * (i - 1)) ++ peer.block i = peer.contents.take (blockSize * i) := by
  obtain ⟨n, rfl⟩ : ∃ n, i = n + 1 := ⟨i - 1, by omega⟩
  rw [block, Nat.add_sub_cancel, Nat.mul_add, Nat.mul_one, List.take_add]

omit [DecidableEq Ip] in
/-- The last block is the one that is not full. -/
theorem length_block_lt (hi : 1 ≤ i) (hle : i ≤ peer.blocks) :
    (peer.block i).length < blockSize ↔ i = peer.blocks := by
  have hlength : (peer.block i).length = min 512 (peer.contents.length - 512 * (i - 1)) := by
    rw [block, List.length_take, List.length_drop]
    rfl
  have hblocks : peer.blocks = peer.contents.length / 512 + 1 := rfl
  have hsize : blockSize = 512 := rfl
  omega

/-- A datagram of another source is passed over. -/
theorem tftpRound_other {transfer : Transfer Ip} {wire : Wire Ip} {datagram : Datagram Ip}
    {ahead : List (Datagram Ip)} (hserver : transfer.server = some peer.address)
    (hahead : wire.ahead = datagram :: ahead) (hne : datagram.source ≠ peer.address) :
    tftpRound (peer.socket parseIp) transfer wire = (.ok (.inl transfer), { wire with ahead }) := by
  have hrecv : (peer.socket parseIp).recvFrom wire = (.ok datagram, { wire with ahead }) := by
    show peer.recvFrom wire = _
    rw [recvFrom, hahead]
  have hother : (transfer.server.any fun server => datagram.source ≠ server) = true := by
    rw [hserver]
    exact decide_eq_true hne
  rw [tftpRound, Attempt.bind_run, hrecv]
  simp only [hother, if_true]
  rfl

omit [DecidableEq Ip] in
/-- What the client makes of a block. -/
theorem acceptBlock_dataPacket (hi : 1 ≤ i) (hword : i < 2 ^ 16) :
    acceptBlock (peer.transfer i).expectedBlock (peer.transfer i).contents (peer.dataPacket i) =
      if (peer.contents.take (blockSize * i)).length ≤ maxRequestDataLength then
        .ok (peer.contents.take (blockSize * i))
      else .error (invalidData "TFTP response exceeds protocol limit") := by
  have hlength : 4 ≤ (peer.dataPacket i).length := Nat.le_add_left 4 _
  have hopcode : word (peer.dataPacket i) 0 = 3 := rfl
  have hblock : word (peer.dataPacket i) 2 = i := word_be16 hword (peer.block i)
  have hdrop : (peer.dataPacket i).drop 4 = peer.block i := rfl
  have hpassed : ∀ {c : Bool} {e : IoError}, c = true → require c e = .ok () := fun h => if_pos h
  show acceptBlock i (peer.contents.take (blockSize * (i - 1))) (peer.dataPacket i) = _
  rw [acceptBlock, hopcode, hblock, hdrop, take_block hi, hpassed (decide_eq_true hlength)]
  show (require (3 = 3 ∧ i = i) _ >>= fun _ => require _ _ >>= fun _ => pure _) = _
  rw [hpassed (decide_eq_true ⟨rfl, rfl⟩)]
  show (require _ _ >>= fun _ => pure _) = _
  split_ifs with hfit
  · rw [hpassed (decide_eq_true hfit)]
    rfl
  · rw [require, if_neg (by simpa using hfit)]
    rfl

omit [DecidableEq Ip] in
theorem acks_succ (n : Nat) : peer.acks (n + 1) = peer.acks n ++ [(ackPacket (n + 1), peer.address)] := by
  rw [acks, acks, List.range'_1_concat, List.map_append, Nat.add_comm]
  rfl

/-- The network with a block received. -/
def received (peer : Peer Ip) (i : Nat) : Wire Ip where
  served := i
  sent := (readRequest peer.filename, (peer.ip, 69)) :: peer.acks (i - 1)

/-- An acknowledged block is followed by the next one. -/
theorem sendTo_ack (hi : 1 ≤ i) : peer.sendTo (ackPacket i) peer.address (peer.received i) =
    (.ok (), if i < peer.blocks then peer.waiting (i + 1)
      else { peer.received i with sent := (peer.waiting (i + 1)).sent }) := by
  obtain ⟨n, rfl⟩ : ∃ n, i = n + 1 := ⟨i - 1, by omega⟩
  have hrequest : ackPacket (n + 1) ≠ readRequest peer.filename := by
    intro heq
    cases (List.cons.inj (List.cons.inj heq).2).1
  have hsent : (peer.received (n + 1)).sent ++ [(ackPacket (n + 1), peer.address)] =
      (peer.waiting (n + 2)).sent := by
    show (_ :: peer.acks n) ++ _ = _ :: peer.acks (n + 1)
    rw [acks_succ, List.cons_append]
  rw [sendTo, hsent, answer, if_neg fun h => hrequest h.2]
  split_ifs with hmore hlast hlast
  · rfl
  · exact absurd hmore.2.2 hlast
  · exact absurd ⟨rfl, rfl, hlast⟩ hmore
  · rfl

/-- Nothing but the block is ahead. -/
def arriving (peer : Peer Ip) (i : Nat) : Wire Ip := { peer.waiting i with ahead := [] }

/-- The block of the server is taken, whoever was latched before the first one. -/
theorem tftpRound_arriving : tftpRound (peer.socket parseIp) (peer.transfer i) (peer.arriving i) =
    takePacket (peer.socket parseIp) (peer.transfer i) (peer.dataPacket i) peer.address (peer.received i) := by
  have hpacket : (peer.dataPacket i).take packetSize = peer.dataPacket i := by
    refine List.take_of_length_le ?_
    have hblock : (peer.block i).length ≤ blockSize := length_block_le
    show (peer.block i).length + 4 ≤ blockSize + 4
    omega
  have hserver : ((peer.transfer i).server.any fun server => peer.address ≠ server) = false := by
    rw [transfer]
    split_ifs
    · rfl
    · simp
  have hrecv : (peer.socket parseIp).recvFrom (peer.arriving i) =
      (.ok ⟨peer.dataPacket i, peer.address⟩, peer.received i) := rfl
  rw [tftpRound, Attempt.bind_run, hrecv]
  simp only [hpacket, hserver, Bool.false_eq_true, if_false]

/-- A block that makes the contents too long is refused. -/
theorem takePacket_refused (hi : 1 ≤ i) (hword : i < 2 ^ 16)
    (hlong : maxRequestDataLength < (peer.contents.take (blockSize * i)).length) :
    takePacket (peer.socket parseIp) (peer.transfer i) (peer.dataPacket i) peer.address (peer.received i) =
      (.error (invalidData "TFTP response exceeds protocol limit"), peer.received i) := by
  have haccept := @acceptBlock_dataPacket _ peer i hi hword
  rw [if_neg (by omega)] at haccept
  rw [takePacket, Attempt.bind_run, haccept]
  rfl

section Accepted

variable (hi : 1 ≤ i) (hword : i + 1 < 2 ^ 16)
  (hfits : (peer.contents.take (blockSize * i)).length ≤ maxRequestDataLength)

include hi hword hfits

/-- An accepted block that is not the last is acknowledged, and the next one is due. -/
theorem takePacket_next (hmore : i < peer.blocks) :
    takePacket (peer.socket parseIp) (peer.transfer i) (peer.dataPacket i) peer.address (peer.received i) =
      (.ok (.inl (peer.transfer (i + 1))), peer.waiting (i + 1)) := by
  have haccept := @acceptBlock_dataPacket _ peer i hi (by omega)
  rw [if_pos hfits] at haccept
  have hsend := @sendTo_ack _ _ peer i hi
  rw [if_pos hmore] at hsend
  have hfull : ¬ (peer.dataPacket i).length < packetSize := by
    intro hshort
    have hlt : (peer.block i).length < blockSize := Nat.lt_of_add_lt_add_right (n := 4) hshort
    have hlast := (length_block_lt hi (by omega)).mp hlt
    omega
  have hserver : (if i + 1 = 1 then none else some peer.address) = some peer.address := if_neg (by omega)
  rw [takePacket, Attempt.bind_run, haccept]
  show ((peer.sendTo (ackPacket i) peer.address >>= fun _ => _) : Net (Wire Ip) _) (peer.received i) = _
  rw [Attempt.bind_run, hsend]
  simp only [if_neg hfull]
  rw [show nextBlock (peer.transfer i).expectedBlock = .ok (i + 1) from if_pos hword, transfer, hserver]
  rfl

/-- The last block is acknowledged, and ends the loop. -/
theorem takePacket_last (hlast : i = peer.blocks) :
    takePacket (peer.socket parseIp) (peer.transfer i) (peer.dataPacket i) peer.address (peer.received i) =
      (.ok (.inr peer.contents), peer.finished) := by
  have haccept := @acceptBlock_dataPacket _ peer i hi (by omega)
  rw [if_pos hfits] at haccept
  have hsend := @sendTo_ack _ _ peer i hi
  rw [if_neg (by omega)] at hsend
  have hshort : (peer.dataPacket i).length < packetSize :=
    Nat.add_lt_add_right ((length_block_lt hi (by omega)).mpr hlast) 4
  have hall : peer.contents.take (blockSize * i) = peer.contents := by
    have hsize : blockSize = 512 := rfl
    rw [hlast, blocks, hsize]
    exact List.take_of_length_le (by omega)
  rw [takePacket, Attempt.bind_run, haccept]
  show ((peer.sendTo (ackPacket i) peer.address >>= fun _ => _) : Net (Wire Ip) _) (peer.received i) = _
  rw [Attempt.bind_run, hsend]
  simp only [if_pos hshort]
  rw [hall, hlast]
  rfl

end Accepted

/-! ## The loop -/

/-- The datagrams of others cost a round each, and nothing else. -/
theorem tftpLoop_others {transfer : Transfer Ip} (hserver : transfer.server = some peer.address) (rounds : Nat)
    (wire : Wire Ip) : ∀ ahead : List (Datagram Ip), (∀ datagram ∈ ahead, datagram.source ≠ peer.address) →
      tftpLoop (peer.socket parseIp) (rounds + ahead.length) transfer { wire with ahead } =
        tftpLoop (peer.socket parseIp) rounds transfer { wire with ahead := [] }
  | [], _ => rfl
  | datagram :: ahead, h => by
    have hround : tftpRound (peer.socket parseIp) transfer { wire with ahead := datagram :: ahead } =
        (.ok (.inl transfer), { wire with ahead }) :=
      tftpRound_other hserver rfl (h datagram List.mem_cons_self)
    have hrest := tftpLoop_others hserver rounds wire ahead fun other hother =>
      h other (List.mem_cons_of_mem _ hother)
    rw [List.length_cons, ← Nat.add_assoc, tftpLoop, Attempt.bind_run, hround]
    exact hrest

/-- Only the peer sends from its address, and the first datagram that arrives is its first block. -/
structure Undisturbed (peer : Peer Ip) : Prop where
  others : ∀ i, ∀ datagram ∈ peer.others i, datagram.source ≠ peer.address
  first : peer.others 1 = []

theorem tftpLoop_arriving (h : peer.Undisturbed) (hi : 1 ≤ i) (rounds : Nat) :
    tftpLoop (peer.socket parseIp) (rounds + (peer.others i).length) (peer.transfer i) (peer.waiting i) =
      tftpLoop (peer.socket parseIp) rounds (peer.transfer i) (peer.arriving i) := by
  by_cases hone : i = 1
  · subst hone
    rw [arriving, waiting, h.first]
    rfl
  · have hserver : (peer.transfer i).server = some peer.address := if_neg hone
    exact tftpLoop_others hserver rounds (peer.waiting i) (peer.others i) (h.others i)

/-- A block that is not the last leads to the next. -/
theorem tftpLoop_next (h : peer.Undisturbed) (hi : 1 ≤ i) (hword : i + 1 < 2 ^ 16) (hmore : i < peer.blocks)
    (hfits : (peer.contents.take (blockSize * i)).length ≤ maxRequestDataLength) (rounds : Nat) :
    tftpLoop (peer.socket parseIp) (rounds + 1 + (peer.others i).length) (peer.transfer i) (peer.waiting i) =
      tftpLoop (peer.socket parseIp) rounds (peer.transfer (i + 1)) (peer.waiting (i + 1)) := by
  rw [tftpLoop_arriving h hi, tftpLoop, Attempt.bind_run, tftpRound_arriving, takePacket_next hi hword hfits hmore]
  rfl

/-- From a block that is due the loop goes on to the last one, if the contents are not too long. -/
theorem tftpLoop_fits (h : peer.Undisturbed) (hfits : peer.contents.length ≤ maxRequestDataLength) :
    ∀ (left i : Nat), 1 ≤ i → i + left = peer.blocks → ∃ enough, ∀ rounds,
      tftpLoop (peer.socket parseIp) (rounds + enough) (peer.transfer i) (peer.waiting i) =
        (.ok (some peer.contents), peer.finished) := by
  have hblocks : peer.blocks = peer.contents.length / 512 + 1 := rfl
  have hlimit : maxRequestDataLength = 65536 := rfl
  have htake : ∀ i, (peer.contents.take (blockSize * i)).length ≤ maxRequestDataLength := by
    intro i
    rw [List.length_take]
    omega
  intro left
  induction left with
  | zero =>
    intro i hi hlast
    refine ⟨1 + (peer.others i).length, fun rounds => ?_⟩
    rw [← Nat.add_assoc, tftpLoop_arriving h hi, tftpLoop, Attempt.bind_run, tftpRound_arriving,
      takePacket_last hi (by omega) (htake i) hlast]
    rfl
  | succ left ih =>
    intro i hi hmore
    obtain ⟨enough, hrest⟩ := ih (i + 1) (by omega) (by omega)
    refine ⟨enough + 1 + (peer.others i).length, fun rounds => ?_⟩
    rw [← Nat.add_assoc, ← Nat.add_assoc, tftpLoop_next h hi (by omega) (by omega) (htake i)]
    exact hrest rounds

/-- Contents that are too long are refused with the first block behind the limit. -/
theorem tftpLoop_long (h : peer.Undisturbed) (hlong : maxRequestDataLength < peer.contents.length) :
    ∀ (left i : Nat), 1 ≤ i → i + left = maxRequestDataLength / blockSize + 1 → ∃ enough wire, ∀ rounds,
      tftpLoop (peer.socket parseIp) (rounds + enough) (peer.transfer i) (peer.waiting i) =
        (.error (invalidData "TFTP response exceeds protocol limit"), wire) := by
  have hblocks : peer.blocks = peer.contents.length / 512 + 1 := rfl
  have hlimit : maxRequestDataLength = 65536 := rfl
  have hsize : blockSize = 512 := rfl
  have hnumber : maxRequestDataLength / blockSize = 128 := rfl
  intro left
  induction left with
  | zero =>
    intro i hi hlast
    refine ⟨1 + (peer.others i).length, peer.received i, fun rounds => ?_⟩
    rw [← Nat.add_assoc, tftpLoop_arriving h hi, tftpLoop, Attempt.bind_run, tftpRound_arriving,
      takePacket_refused hi (by omega) (by rw [List.length_take, hsize]; omega)]
  | succ left ih =>
    intro i hi hmore
    obtain ⟨enough, wire, hrest⟩ := ih (i + 1) (by omega) (by omega)
    refine ⟨enough + 1 + (peer.others i).length, wire, fun rounds => ?_⟩
    rw [← Nat.add_assoc, ← Nat.add_assoc,
      tftpLoop_next h hi (by omega) (by omega) (by rw [List.length_take, hsize]; omega)]
    exact hrest rounds

/-- The request makes the first block due. -/
theorem tftpRequest_start {name : Text} (hparse : parseIp name = .ok peer.ip) (rounds : Nat) :
    tftpRequest (peer.socket parseIp) utf8Error rounds name peer.filename {} =
      (tftpLoop (peer.socket parseIp) rounds (peer.transfer 1) >>= fun contents =>
        contents.elim (pure none) fun contents => liftM ((parseFixtureResponse utf8Error contents).map some))
            (peer.waiting 1) := by
  have hsend : (peer.socket parseIp).sendTo (readRequest peer.filename) (peer.ip, 69)
      {} = (.ok (), peer.waiting 1) := by
    show peer.sendTo _ _ _ = _
    rw [sendTo, answer, if_pos ⟨rfl, rfl⟩]
    rfl
  have hip : (liftM (((peer.socket parseIp).parseIp name).mapError invalid) : Net (Wire Ip) Ip)
      {} = (.ok peer.ip, {}) := by
    rw [show (peer.socket parseIp).parseIp name = .ok peer.ip from hparse]
    rfl
  have hbind : (peer.socket parseIp).bind {} = (.ok (), {}) := rfl
  rw [tftpRequest, Attempt.bind_of_ok hip, Attempt.bind_of_ok hbind, Attempt.bind_of_ok hsend]
  rfl

/-- What the client makes of contents that it may take. -/
theorem tftpRequest_fits {name : Text} (hparse : parseIp name = .ok peer.ip) (h : peer.Undisturbed)
    (hfits : peer.contents.length ≤ maxRequestDataLength) : ∃ enough, ∀ rounds,
      tftpRequest (peer.socket parseIp) utf8Error (rounds + enough) name peer.filename {} =
        ((parseFixtureResponse utf8Error peer.contents).map some, peer.finished) := by
  have hblocks : peer.blocks = peer.contents.length / 512 + 1 := rfl
  obtain ⟨enough, hloop⟩ := @tftpLoop_fits _ _ peer parseIp h hfits (peer.blocks - 1) 1 (by omega) (by omega)
  refine ⟨enough, fun rounds => ?_⟩
  rw [tftpRequest_start hparse, Attempt.bind_of_ok (hloop rounds)]
  rfl

/-- What it makes of others. -/
theorem tftpRequest_long {name : Text} (hparse : parseIp name = .ok peer.ip) (h : peer.Undisturbed)
    (hlong : maxRequestDataLength < peer.contents.length) : ∃ enough wire, ∀ rounds,
      tftpRequest (peer.socket parseIp) utf8Error (rounds + enough) name peer.filename {} =
        (.error (invalidData "TFTP response exceeds protocol limit"), wire) := by
  obtain ⟨enough, wire, hloop⟩ := @tftpLoop_long _ _ peer parseIp h hlong 128 1 (by omega) rfl
  refine ⟨enough, wire, fun rounds => ?_⟩
  rw [tftpRequest_start hparse, Attempt.bind_of_error (hloop rounds)]

/-- The result is the one that the model of the peer gives to the agent. -/
theorem tftpRequest_tftpResponse {name : Text} (hparse : parseIp name = .ok peer.ip) (h : peer.Undisturbed) :
    ∃ enough, ∀ rounds, (tftpRequest (peer.socket parseIp) utf8Error (rounds + enough) name peer.filename {}).1 =
      (tftpResponse utf8Error peer.contents).map some := by
  by_cases hfits : peer.contents.length ≤ maxRequestDataLength
  · obtain ⟨enough, hrun⟩ := tftpRequest_fits hparse h hfits
    refine ⟨enough, fun rounds => ?_⟩
    rw [hrun, tftpResponse, require, if_pos (by simpa using hfits)]
    rfl
  · obtain ⟨enough, wire, hrun⟩ := tftpRequest_long hparse h (by omega)
    refine ⟨enough, fun rounds => ?_⟩
    rw [hrun, tftpResponse, require, if_neg (by simpa using hfits)]
    rfl

end Peer

/-- **The client reassembles what the server has.**  With any datagrams of others behind the first block, the
loop ends after the last block, each block acknowledged once and in order, and its result is that of the
contents; contents that are too long are an error; and what is accepted of the contents is known. -/
theorem tftpRequest_reassembles (parseIp : Text → Except Text Ip) (utf8Error : Bytes → Text) :
    (∀ (peer : Peer Ip) (name : Text), parseIp name = .ok peer.ip → peer.Undisturbed →
      ∃ enough, ∀ rounds,
        (peer.contents.length ≤ maxRequestDataLength →
          tftpRequest (peer.socket parseIp) utf8Error (rounds + enough) name peer.filename {} =
            ((parseFixtureResponse utf8Error peer.contents).map some, {
              served := peer.blocks
              sent := (readRequest peer.filename, (peer.ip, 69)) ::
                (List.range' 1 peer.blocks).map fun i => (ackPacket i, peer.address) })) ∧
        (maxRequestDataLength < peer.contents.length →
          ∃ wire, tftpRequest (peer.socket parseIp) utf8Error (rounds + enough) name peer.filename {} =
            (.error (invalidData "TFTP response exceeds protocol limit"), wire))) ∧
      ∀ contents requestId payload, parseFixtureResponse utf8Error contents = .ok (requestId, payload) ↔
        Utf8.valid contents = true ∧
          contents = utf8 "request_id=" ++ requestId ++ utf8 "\npayload=" ++ payload ++ utf8 "\n" ∧
          (10 ∉ requestId ∧ requestId.getLast? ≠ some 13) ∧ 10 ∉ payload ∧ payload.getLast? ≠ some 13 := by
  refine ⟨fun peer name hparse h => ?_, fun contents requestId payload => parseFixtureResponse_iff⟩
  by_cases hfits : peer.contents.length ≤ maxRequestDataLength
  · obtain ⟨enough, hrun⟩ := Peer.tftpRequest_fits hparse h hfits
    exact ⟨enough, fun rounds => ⟨fun _ => hrun rounds, fun hlong => absurd hfits (by omega)⟩⟩
  · obtain ⟨enough, wire, hrun⟩ := Peer.tftpRequest_long hparse h (by omega)
    exact ⟨enough, fun rounds => ⟨fun hle => absurd hle hfits, fun _ => ⟨wire, hrun rounds⟩⟩⟩

/-- A server with a file of two blocks; somebody else sends a byte before the second. -/
def samplePeer : Peer Unit where
  ip := ()
  filename := utf8 "request-1"
  contents := canonicalResponse (utf8 "request-1") (List.replicate 500 120)
  address := ((), 50000)
  others i := if i = 1 then [] else [⟨[0], ((), 50001)⟩]

theorem samplePeer_undisturbed : samplePeer.Undisturbed where
  others i datagram h := by
    have hother : datagram ∈ (if i = 1 then [] else [(⟨[0], ((), 50001)⟩ : Datagram Unit)]) := h
    split_ifs at hother
    · exact absurd hother List.not_mem_nil
    · rw [List.mem_singleton.mp hother]
      decide
  first := rfl

theorem tftpRequest_reassembles_sample :
    ∃ enough, tftpRequest (samplePeer.socket fun _ => .ok ()) (fun _ => []) enough (utf8 "10.0.2.2")
      (utf8 "request-1") {} = (.ok (some (utf8 "request-1", List.replicate 500 120)), {
        served := 2
        sent := [(readRequest (utf8 "request-1"), ((), 69)), (ackPacket 1, ((), 50000)),
            (ackPacket 2, ((), 50000))] }) := by
  obtain ⟨hserved, hparsed⟩ := @tftpRequest_reassembles Unit _ (fun _ => .ok ()) fun _ => []
  obtain ⟨enough, hrun⟩ := hserved samplePeer (utf8 "10.0.2.2") rfl samplePeer_undisturbed
  have hresponse : parseFixtureResponse (fun _ => []) samplePeer.contents =
      .ok (utf8 "request-1", List.replicate 500 120) :=
    (hparsed _ _ _).mpr ⟨by decide +kernel, rfl, by decide +kernel, by decide +kernel, by decide +kernel⟩
  have hshort := (hrun 0).1 (by decide +kernel)
  have hblocks : samplePeer.blocks = 2 := by decide +kernel
  rw [hresponse, hblocks, Nat.zero_add] at hshort
  exact ⟨enough, hshort⟩

end Server

end SimFerret.Fixture
