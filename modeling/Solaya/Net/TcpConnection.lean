import Solaya.Net.Receive
import Solaya.Core.Machine

/-!
# One TCP connection and its `established_loop`

`net/tcp_connection.rs` keeps a connection as a `TcpConnection` behind a spin
lock, shared by the kernel task that runs `established_loop` and by everyone
else: `process_tcp_packet` on whichever CPU received a segment appends it to the
connection's mailbox, and the user's `write`, `shutdown` and `read` append to
the send buffer, set `user_close_requested` and drain the receive buffer.

The model is the connection with every party's critical sections as steps
(`ConnSystem.step`).  The loop's task is a state machine over `LoopPhase`,
where it stands between two of its lock sections: at the top of the loop body
(`drain`), awaiting `wait_for_segment` (`waitSegment`), in the `for` loop of
`wait_for_fin_ack` (`waitFinAck`), or returned.  One `pollLoop` event runs one
lock section and the sends that follow it, so the events of the other parties
interleave with the loop at every point where the code releases the lock.
Wakers only decide when the task is polled; the model lets it be polled at
any time, and a poll of a pending future changes nothing.

The segments the loop sends are recorded in `wire` as the fields
`send_data_packet` hands to `create_tcp_packet`
(`TcpHeader.createTcpPacket_parses` shows the frame built from them reads back
as exactly these fields); a send whose segment does not fit in one IPv4 packet
panics there.

What the model shows:
* the receive side keeps the bytes it has appended a prefix of the peer's
  stream and `recv_ack` one past them (`recvInvariant_of_reachable`), but a FIN
  is accepted whatever its sequence number (`processSegment_fin`), so the
  connection can close before the stream has arrived;
* between the user's writes and the wire no byte is lost or duplicated while
  the loop drains (`sentData_run`), but bytes queued after the last drain and
  before a close are never sent (`sentData_of_closing`).
-/

namespace Solaya.Net

/-- `WINDOW_SIZE`. -/
def WINDOW_SIZE : UInt16 := 8192

/-- `MAX_RETRANSMITS`. -/
def MAX_RETRANSMITS : ℕ := 5

/-- `len_as_seq`: `u32::try_from(len).expect(..)`. -/
def lenAsSeq (len : ℕ) : Option UInt32 :=
  if len < 2 ^ 32 then some (UInt32.ofNat len) else none

/-- `core::task::Poll`. -/
inductive Poll (α : Type) where
  | ready (value : α)
  | pending
  deriving DecidableEq, Repr

/-- `ConnectionId`. -/
structure ConnectionId where
  localPort : UInt16
  remoteIp : Ipv4Addr
  remotePort : UInt16
  deriving DecidableEq, Repr

/-- `ReceivedSegment`: what `process_tcp_packet` keeps of a parsed segment. -/
structure ReceivedSegment where
  seq : UInt32
  ack : UInt32
  flags : UInt16
  data : List UInt8
  deriving DecidableEq, Repr

/-- `TcpConnection` without its two wakers. -/
structure TcpConnection where
  id : ConnectionId
  remoteMac : MacAddress
  sendSeq : UInt32
  recvAck : UInt32
  recvBuffer : List UInt8
  segmentMailbox : List ReceivedSegment
  established : Bool
  closed : Bool
  userCloseRequested : Bool
  sendBuffer : List UInt8
  deriving DecidableEq

namespace TcpConnection

/-- `TcpConnection::new`. -/
def new (id : ConnectionId) (remoteMac : MacAddress) (initialSeq : UInt32) : TcpConnection where
  id := id
  remoteMac := remoteMac
  sendSeq := initialSeq
  recvAck := 0
  recvBuffer := []
  segmentMailbox := []
  established := false
  closed := false
  userCloseRequested := false
  sendBuffer := []

/-- `deliver_segment`. -/
def deliverSegment (c : TcpConnection) (segment : ReceivedSegment) : TcpConnection :=
  { c with segmentMailbox := c.segmentMailbox ++ [segment] }

/-- `recv_data`: the first `min count len` buffered bytes. -/
def recvData (c : TcpConnection) (count : ℕ) : TcpConnection × List UInt8 :=
  let n := min count c.recvBuffer.length
  ({ c with recvBuffer := c.recvBuffer.drop n }, c.recvBuffer.take n)

/-- `has_recv_data`. -/
def hasRecvData (c : TcpConnection) : Bool := !c.recvBuffer.isEmpty

/-- `queue_send_data`. -/
def queueSendData (c : TcpConnection) (data : List UInt8) : TcpConnection :=
  { c with sendBuffer := c.sendBuffer ++ data }

/-- `request_close`. -/
def requestClose (c : TcpConnection) : TcpConnection :=
  { c with userCloseRequested := true }

end TcpConnection

/-- `WaitForSegment::poll`: the next mailbox segment; `Ready(None)` once the
user has asked to close or has queued data. -/
def WaitForSegment.poll (c : TcpConnection) : TcpConnection × Poll (Option ReceivedSegment) :=
  match c.segmentMailbox with
  | seg :: rest => ({ c with segmentMailbox := rest }, .ready (some seg))
  | [] =>
    if c.userCloseRequested || !c.sendBuffer.isEmpty then (c, .ready none) else (c, .pending)

/-- `SegmentOrTimeout::poll`: the segment future first, then the one-second
`Sleep`, which has fired when `timerExpired`. -/
def SegmentOrTimeout.poll (timerExpired : Bool) (c : TcpConnection) :
    TcpConnection × Poll (Option ReceivedSegment) :=
  match WaitForSegment.poll c with
  | (c, .ready seg) => (c, .ready seg)
  | (c, .pending) => if timerExpired then (c, .ready none) else (c, .pending)

/-- `WaitForRecvData::poll`. -/
def WaitForRecvData.poll (c : TcpConnection) (count : ℕ) : TcpConnection × Poll (List UInt8) :=
  if c.hasRecvData then
    let (c, data) := c.recvData count
    (c, .ready data)
  else if c.closed then (c, .ready []) else (c, .pending)

/-! ## Sending -/

/-- A segment as `send_data_packet` passes it to `create_tcp_packet`. -/
structure OutgoingSegment where
  flags : UInt16
  seq : UInt32
  ack : UInt32
  data : List UInt8
  deriving DecidableEq, Repr

/-- `send_data_packet`: `none` where `create_tcp_packet` panics. -/
def sendDataPacket (stack : NetworkStack) (c : TcpConnection) (flags : UInt16) (seq ack : UInt32)
    (data : List UInt8) : Option OutgoingSegment := do
  let _packet ← TcpHeader.createTcpPacket stack.ipAddr stack.macAddress c.id.remoteIp
    c.remoteMac c.id.localPort c.id.remotePort seq ack flags WINDOW_SIZE data
  pure ⟨flags, seq, ack, data⟩

/-- `if let Some((seq, ack)) = send_ack { send_data_packet(.., FLAG_ACK, seq, ack, &[]) }`. -/
def sendAck (stack : NetworkStack) (c : TcpConnection) :
    Option (UInt32 × UInt32) → Option (List OutgoingSegment)
  | some (seq, ack) => (sendDataPacket stack c FLAG_ACK seq ack []).map fun segment => [segment]
  | none => some []

/-! ## `established_loop` -/

/-- Where the task running `established_loop` stands. -/
inductive LoopPhase where
  /-- At the top of the loop body, before the send buffer is drained. -/
  | drain
  /-- Awaiting `wait_for_segment`. -/
  | waitSegment
  /-- In `wait_for_fin_ack` with `turns` turns of its `for` loop left; at `0`
  the caller's `conn.lock().closed = true` is next. -/
  | waitFinAck (turns : ℕ)
  /-- `established_loop` has returned. -/
  | returned
  deriving DecidableEq, Repr

/-- The drain at the top of the loop body: the whole send buffer becomes one
data segment at `send_seq`, and `send_seq` moves past it. -/
def drainSendBuffer (stack : NetworkStack) (c : TcpConnection) :
    Option (TcpConnection × List OutgoingSegment) :=
  if !c.sendBuffer.isEmpty then do
    let len ← lenAsSeq c.sendBuffer.length
    let c' := { c with sendBuffer := [], sendSeq := c.sendSeq + len }
    let segment ← sendDataPacket stack c' FLAG_ACK c.sendSeq c.recvAck c.sendBuffer
    pure (c', [segment])
  else some (c, [])

/-- `!seg.data.is_empty() && seg.seq == c.recv_ack`: the segment carries data
that starts where the received stream ends. -/
def ReceivedSegment.inOrder (seg : ReceivedSegment) (recvAck : UInt32) : Bool :=
  !seg.data.isEmpty && seg.seq == recvAck

/-- The data half of the `Some(seg)` arm's lock section: in-order data is
appended and `recv_ack` moves past it; anything else is dropped. -/
def appendInOrder (c : TcpConnection) (seg : ReceivedSegment) : Option TcpConnection :=
  if seg.inOrder c.recvAck then
    (lenAsSeq seg.data.length).map fun len =>
      { c with recvAck := c.recvAck + len, recvBuffer := c.recvBuffer ++ seg.data }
  else some c

/-- The lock section of the `Some(seg)` arm after the RST check: the data half,
then a FIN, accepted whatever its sequence number, or a pending user close.
Returns the connection, the `(seq, ack)` of the ACK to send, `do_fin_ack` and
`do_user_close`. -/
def acceptSegment (c : TcpConnection) (seg : ReceivedSegment) :
    Option (TcpConnection × Option (UInt32 × UInt32) × Bool × Bool) :=
  let needAck := seg.inOrder c.recvAck
  (appendInOrder c seg).map fun c =>
    if seg.flags &&& FLAG_FIN ≠ 0 then
      let c := { c with recvAck := c.recvAck + 1, closed := true }
      (c, some (c.sendSeq, c.recvAck), true, false)
    else if c.userCloseRequested then
      ({ c with sendSeq := c.sendSeq + 1 }, if needAck then some (c.sendSeq, c.recvAck) else none,
        false, true)
    else (c, if needAck then some (c.sendSeq, c.recvAck) else none, false, false)

/-- The `Some(seg)` arm of `established_loop`. -/
def processSegment (stack : NetworkStack) (c : TcpConnection) (seg : ReceivedSegment) :
    Option (TcpConnection × LoopPhase × List OutgoingSegment) :=
  if seg.flags &&& FLAG_RST ≠ 0 then some ({ c with closed := true }, .returned, [])
  else do
    let (c, ackInfo, doFinAck, doUserClose) ← acceptSegment c seg
    let acks ← sendAck stack c ackInfo
    if doFinAck then pure (c, .returned, acks)
    else if doUserClose then
      let fin ← sendDataPacket stack c (FLAG_FIN ||| FLAG_ACK) (c.sendSeq - 1) c.recvAck []
      pure (c, .waitFinAck MAX_RETRANSMITS, acks ++ [fin])
    else pure (c, .drain, acks)

/-- The `None` arm of `established_loop`: a user close sends our FIN at
`send_seq`; otherwise the loop goes round to drain the queued data. -/
def closeWithoutSegment (stack : NetworkStack) (c : TcpConnection) :
    Option (TcpConnection × LoopPhase × List OutgoingSegment) :=
  if c.userCloseRequested then do
    let c' := { c with sendSeq := c.sendSeq + 1 }
    let fin ← sendDataPacket stack c' (FLAG_FIN ||| FLAG_ACK) c.sendSeq c.recvAck []
    pure (c', .waitFinAck MAX_RETRANSMITS, [fin])
  else some (c, .drain, [])

/-- A segment received in `wait_for_fin_ack`: an ACK ends the wait (after
acknowledging a FIN that comes with it), an RST ends it, anything else uses up
the turn. -/
def finAckSegment (stack : NetworkStack) (c : TcpConnection) (seg : ReceivedSegment) (turns : ℕ) :
    Option (TcpConnection × LoopPhase × List OutgoingSegment) :=
  if seg.flags &&& FLAG_ACK ≠ 0 then
    if seg.flags &&& FLAG_FIN ≠ 0 then do
      let c := { c with recvAck := c.recvAck + 1 }
      let ack ← sendDataPacket stack c FLAG_ACK c.sendSeq c.recvAck []
      pure (c, .waitFinAck 0, [ack])
    else some (c, .waitFinAck 0, [])
  else if seg.flags &&& FLAG_RST ≠ 0 then some (c, .waitFinAck 0, [])
  else some (c, .waitFinAck turns, [])

/-- One lock section of the task running `established_loop`, with the sends
that follow it; `none` where it panics. -/
def establishedLoopStep (stack : NetworkStack) (timerExpired : Bool) (c : TcpConnection) :
    LoopPhase → Option (TcpConnection × LoopPhase × List OutgoingSegment)
  | .drain => (drainSendBuffer stack c).map fun (c, sent) => (c, .waitSegment, sent)
  | .waitSegment =>
    match WaitForSegment.poll c with
    | (c, .ready (some seg)) => processSegment stack c seg
    | (c, .ready none) => closeWithoutSegment stack c
    | (c, .pending) => some (c, .waitSegment, [])
  | .waitFinAck 0 => some ({ c with closed := true }, .returned, [])
  | .waitFinAck (turns + 1) =>
    match SegmentOrTimeout.poll timerExpired c with
    | (c, .ready (some seg)) => finAckSegment stack c seg turns
    | (c, .ready none) => do
      -- the timeout arm: retransmit our FIN at `send_seq - 1`
      let fin ← sendDataPacket stack c (FLAG_FIN ||| FLAG_ACK) (c.sendSeq - 1) c.recvAck []
      pure (c, .waitFinAck turns, [fin])
    | (c, .pending) => some (c, .waitFinAck (turns + 1), [])
  | .returned => some (c, .returned, [])

/-! ## The connection with all its parties -/

/-- What can happen to an established connection. -/
inductive ConnEvent where
  /-- `process_tcp_packet` found the connection in `TCP_CONNECTIONS`. -/
  | deliverSegment (segment : ReceivedSegment)
  /-- `write` or `sendto` on the stream. -/
  | queueSendData (data : List UInt8)
  /-- `shutdown`. -/
  | requestClose
  /-- `read` or `recvfrom`: one poll of `WaitForRecvData`. -/
  | pollRecvData (count : ℕ)
  /-- The kernel worker runs one lock section of `established_loop`. -/
  | pollLoop (timerExpired : Bool)
  deriving DecidableEq, Repr

/-- The connection, where its loop stands, the segments the loop has sent and
the bytes the user's reads have returned. -/
structure ConnSystem where
  conn : TcpConnection
  phase : LoopPhase
  wire : List OutgoingSegment
  received : List UInt8
  deriving DecidableEq

/-- One event; `none` where the kernel panics. -/
def ConnSystem.step (stack : NetworkStack) (s : ConnSystem) : ConnEvent → Option ConnSystem
  | .deliverSegment segment => some { s with conn := s.conn.deliverSegment segment }
  | .queueSendData data => some { s with conn := s.conn.queueSendData data }
  | .requestClose => some { s with conn := s.conn.requestClose }
  | .pollRecvData count =>
    match WaitForRecvData.poll s.conn count with
    | (c, .ready data) => some { s with conn := c, received := s.received ++ data }
    | (c, .pending) => some { s with conn := c }
  | .pollLoop timerExpired =>
    (establishedLoopStep stack timerExpired s.conn s.phase).map fun (c, phase, sent) =>
      { s with conn := c, phase := phase, wire := s.wire ++ sent }

/-! ## Spec lemmas of the pieces -/

theorem TcpHeader.createTcpPacket_isSome_iff (ourIp : Ipv4Addr) (ourMac : MacAddress)
    (destinationIp : Ipv4Addr) (destinationMac : MacAddress) (sourcePort destinationPort : UInt16)
    (seq ack : UInt32) (flags window : UInt16) (data : List UInt8) :
    (TcpHeader.createTcpPacket ourIp ourMac destinationIp destinationMac sourcePort
        destinationPort seq ack flags window data).isSome ↔
      IpV4Header.HEADER_SIZE + TcpHeader.HEADER_SIZE + data.length < 2 ^ 16 := by
  simp only [IpV4Header.HEADER_SIZE, TcpHeader.HEADER_SIZE]
  by_cases hfit : 20 + 20 + data.length < 65536
  · -- both the IPv4 total length and the TCP length fit in a `u16`
    have hip : 20 + (20 + data.length) < 65536 := by omega
    have htcp : 20 + data.length < 65536 := by omega
    simp [TcpHeader.createTcpPacket, IpV4Header.new, TcpHeader.computeChecksum,
      TcpHeader.pseudoHeader, IpV4Header.HEADER_SIZE, TcpHeader.HEADER_SIZE, hip, htcp, hfit]
  · have hip : ¬ 20 + (20 + data.length) < 65536 := by omega
    simp [TcpHeader.createTcpPacket, IpV4Header.new, IpV4Header.HEADER_SIZE,
      TcpHeader.HEADER_SIZE, hip, hfit]

/-- `send_data_packet` panics exactly when the segment does not fit in one
IPv4 packet, 40 header bytes and its data. -/
theorem sendDataPacket_eq (stack : NetworkStack) (c : TcpConnection) (flags : UInt16)
    (seq ack : UInt32) (data : List UInt8) :
    sendDataPacket stack c flags seq ack data =
      if 40 + data.length < 65536 then some ⟨flags, seq, ack, data⟩ else none := by
  have hfits := TcpHeader.createTcpPacket_isSome_iff stack.ipAddr stack.macAddress c.id.remoteIp
    c.remoteMac c.id.localPort c.id.remotePort seq ack flags WINDOW_SIZE data
  simp only [IpV4Header.HEADER_SIZE, TcpHeader.HEADER_SIZE] at hfits
  rw [sendDataPacket]
  cases hpacket : TcpHeader.createTcpPacket stack.ipAddr stack.macAddress c.id.remoteIp
    c.remoteMac c.id.localPort c.id.remotePort seq ack flags WINDOW_SIZE data with
  | none =>
    have hlarge : ¬ 40 + data.length < 65536 := by simpa [hpacket] using hfits
    rw [if_neg hlarge]
    rfl
  | some packet =>
    have hsmall : 40 + data.length < 65536 := by simpa [hpacket] using hfits
    rw [if_pos hsmall]
    rfl

@[simp]
theorem sendDataPacket_nil (stack : NetworkStack) (c : TcpConnection) (flags : UInt16)
    (seq ack : UInt32) : sendDataPacket stack c flags seq ack [] = some ⟨flags, seq, ack, []⟩ := by
  rw [sendDataPacket_eq, if_pos (by simp)]

@[simp]
theorem sendAck_eq (stack : NetworkStack) (c : TcpConnection) (ackInfo : Option (UInt32 × UInt32)) :
    sendAck stack c ackInfo =
      some (ackInfo.toList.map fun (seq, ack) => ⟨FLAG_ACK, seq, ack, []⟩) := by
  cases ackInfo with
  | none => rfl
  | some info => simp [sendAck]

/-- The drain sends the whole buffer as one segment, and panics when it does
not fit in one IPv4 packet. -/
theorem drainSendBuffer_eq (stack : NetworkStack) (c : TcpConnection) :
    drainSendBuffer stack c =
      if c.sendBuffer = [] then some (c, [])
      else if 40 + c.sendBuffer.length < 65536 then
        some ({ c with sendBuffer := [], sendSeq := c.sendSeq + UInt32.ofNat c.sendBuffer.length },
          [⟨FLAG_ACK, c.sendSeq, c.recvAck, c.sendBuffer⟩])
      else none := by
  by_cases hempty : c.sendBuffer = []
  · simp [drainSendBuffer, hempty]
  · by_cases hfit : 40 + c.sendBuffer.length < 65536
    · have hlen : c.sendBuffer.length < 4294967296 := by omega
      simp [drainSendBuffer, hempty, hfit, lenAsSeq, hlen, sendDataPacket_eq]
    · by_cases hlen : c.sendBuffer.length < 4294967296
      · simp [drainSendBuffer, hempty, hfit, lenAsSeq, hlen, sendDataPacket_eq]
      · simp [drainSendBuffer, hempty, hfit, lenAsSeq, hlen]

/-- The data half appends either nothing or the segment's data, when it starts
at `recv_ack`, and moves `recv_ack` by what it appends. -/
theorem appendInOrder_eq_some {c c₁ : TcpConnection} {seg : ReceivedSegment}
    (h : appendInOrder c seg = some c₁) :
    ∃ data, (data = [] ∨ (seg.seq = c.recvAck ∧ data = seg.data)) ∧ data.length < 2 ^ 32 ∧
      c₁ = { c with recvAck := c.recvAck + UInt32.ofNat data.length,
                    recvBuffer := c.recvBuffer ++ data } := by
  unfold appendInOrder at h
  split_ifs at h with horder
  · simp only [lenAsSeq] at h
    split_ifs at h with hlen
    · simp only [Option.map_some, Option.some.injEq] at h
      simp only [ReceivedSegment.inOrder, Bool.and_eq_true, beq_iff_eq] at horder
      exact ⟨seg.data, .inr ⟨horder.2, rfl⟩, hlen, h.symm⟩
    · cases h
  · cases h
    exact ⟨[], .inl rfl, by simp, by simp⟩

/-- The `Some(seg)` arm without RST, with its sends evaluated. -/
theorem processSegment_eq (stack : NetworkStack) (c : TcpConnection) {seg : ReceivedSegment}
    (hrst : seg.flags &&& FLAG_RST = 0) :
    processSegment stack c seg = (appendInOrder c seg).map fun c₁ =>
      let acks : List OutgoingSegment :=
        if seg.inOrder c.recvAck then [⟨FLAG_ACK, c₁.sendSeq, c₁.recvAck, []⟩] else []
      if seg.flags &&& FLAG_FIN ≠ 0 then
        ({ c₁ with recvAck := c₁.recvAck + 1, closed := true }, .returned,
          [⟨FLAG_ACK, c₁.sendSeq, c₁.recvAck + 1, []⟩])
      else if c₁.userCloseRequested then
        ({ c₁ with sendSeq := c₁.sendSeq + 1 }, .waitFinAck MAX_RETRANSMITS,
          acks ++ [⟨FLAG_FIN ||| FLAG_ACK, c₁.sendSeq, c₁.recvAck, []⟩])
      else (c₁, .drain, acks) := by
  simp only [processSegment, hrst, ne_eq, not_true_eq_false, if_false, acceptSegment]
  cases appendInOrder c seg with
  | none => rfl
  | some c₁ =>
    simp only [Option.map_some]
    split_ifs <;> simp

/-- A FIN without data is accepted whatever its sequence number: the loop
moves `recv_ack` one on, closes the connection and returns. -/
theorem processSegment_fin (stack : NetworkStack) (c : TcpConnection) {seg : ReceivedSegment}
    (hrst : seg.flags &&& FLAG_RST = 0) (hfin : seg.flags &&& FLAG_FIN ≠ 0) (hdata : seg.data = []) :
    processSegment stack c seg =
      some ({ c with recvAck := c.recvAck + 1, closed := true }, .returned,
        [⟨FLAG_ACK, c.sendSeq, c.recvAck + 1, []⟩]) := by
  have hskip : appendInOrder c seg = some c := by
    simp [appendInOrder, ReceivedSegment.inOrder, hdata]
  rw [processSegment_eq stack c hrst, hskip, Option.map_some, if_pos hfin]

/-! ## The lock sections as a relation -/

/-- The lock sections of `established_loop` as a relation between the
connection and phase before and after and the segments sent. -/
inductive LoopSection (stack : NetworkStack) :
    TcpConnection → LoopPhase → TcpConnection → LoopPhase → List OutgoingSegment → Prop
  | drain {c c' sent} : drainSendBuffer stack c = some (c', sent) →
      LoopSection stack c .drain c' .waitSegment sent
  | segment {c c' phase' sent seg rest} : c.segmentMailbox = seg :: rest →
      processSegment stack { c with segmentMailbox := rest } seg = some (c', phase', sent) →
      LoopSection stack c .waitSegment c' phase' sent
  | noSegment {c c' phase' sent} : c.segmentMailbox = [] →
      closeWithoutSegment stack c = some (c', phase', sent) →
      LoopSection stack c .waitSegment c' phase' sent
  | finAckSegment {c c' phase' sent seg rest turns} : c.segmentMailbox = seg :: rest →
      finAckSegment stack { c with segmentMailbox := rest } seg turns = some (c', phase', sent) →
      LoopSection stack c (.waitFinAck (turns + 1)) c' phase' sent
  | retransmitFin {c turns} : c.segmentMailbox = [] →
      LoopSection stack c (.waitFinAck (turns + 1)) c (.waitFinAck turns)
        [⟨FLAG_FIN ||| FLAG_ACK, c.sendSeq - 1, c.recvAck, []⟩]
  | finish {c} : LoopSection stack c (.waitFinAck 0) { c with closed := true } .returned []
  | idle {c phase} : LoopSection stack c phase c phase []

/-- Every lock section the loop runs is one of `LoopSection`'s. -/
theorem loopSection_of_establishedLoopStep {stack : NetworkStack} {timerExpired : Bool}
    {c c' : TcpConnection} {phase phase' : LoopPhase} {sent : List OutgoingSegment}
    (h : establishedLoopStep stack timerExpired c phase = some (c', phase', sent)) :
    LoopSection stack c phase c' phase' sent := by
  cases phase with
  | drain =>
    simp only [establishedLoopStep, Option.map_eq_some_iff] at h
    obtain ⟨⟨c₁, sent₁⟩, hdrain, hpair⟩ := h
    simp only [Prod.mk.injEq] at hpair
    obtain ⟨rfl, rfl, rfl⟩ := hpair
    exact .drain hdrain
  | waitSegment =>
    simp only [establishedLoopStep, WaitForSegment.poll] at h
    cases hmail : c.segmentMailbox with
    | cons seg rest =>
      rw [hmail] at h
      exact .segment hmail h
    | nil =>
      rw [hmail] at h
      split_ifs at h with hready
      · exact .noSegment hmail h
      · simp only [Option.some.injEq, Prod.mk.injEq] at h
        obtain ⟨rfl, rfl, rfl⟩ := h
        exact .idle
  | waitFinAck turns =>
    cases turns with
    | zero =>
      simp only [establishedLoopStep, Option.some.injEq, Prod.mk.injEq] at h
      obtain ⟨rfl, rfl, rfl⟩ := h
      exact .finish
    | succ turns =>
      simp only [establishedLoopStep, SegmentOrTimeout.poll, WaitForSegment.poll] at h
      cases hmail : c.segmentMailbox with
      | cons seg rest =>
        rw [hmail] at h
        exact .finAckSegment hmail h
      | nil =>
        rw [hmail] at h
        split_ifs at h <;> simp only [sendDataPacket_nil, Option.pure_def,
          Option.some.injEq, Prod.mk.injEq] at h <;> obtain ⟨rfl, rfl, rfl⟩ := h
        -- the segment future is ready with `None`, or the timer has fired
        · exact .retransmitFin hmail
        · exact .retransmitFin hmail
        · exact .retransmitFin hmail
        -- both futures are pending
        · exact .idle
  | returned =>
    simp only [establishedLoopStep, Option.some.injEq, Prod.mk.injEq] at h
    obtain ⟨rfl, rfl, rfl⟩ := h
    exact .idle

/-! ## The receive side -/

/-- The loop takes nothing more from the peer: `wait_for_fin_ack` is over or
the loop has returned. -/
def LoopPhase.done : LoopPhase → Bool
  | .waitFinAck 0 => true
  | .returned => true
  | _ => false

/-- The `None` arm of the loop body, with its send evaluated. -/
theorem closeWithoutSegment_eq (stack : NetworkStack) (c : TcpConnection) :
    closeWithoutSegment stack c =
      if c.userCloseRequested then
        some ({ c with sendSeq := c.sendSeq + 1 }, .waitFinAck MAX_RETRANSMITS,
          [⟨FLAG_FIN ||| FLAG_ACK, c.sendSeq, c.recvAck, []⟩])
      else some (c, .drain, []) := by
  unfold closeWithoutSegment
  split_ifs <;> simp

/-- What a segment does to the receive side in the loop body: it appends
nothing or its own data, when that starts at `recv_ack`; `recv_ack` moves past
what is appended, and one further for a FIN, after which the loop returns. -/
theorem processSegment_recv {stack : NetworkStack} {c c' : TcpConnection} {phase' : LoopPhase}
    {sent : List OutgoingSegment} {seg : ReceivedSegment}
    (h : processSegment stack c seg = some (c', phase', sent)) :
    c'.segmentMailbox = c.segmentMailbox ∧
      ∃ data, (data = [] ∨ (seg.seq = c.recvAck ∧ data = seg.data)) ∧ data.length < 2 ^ 32 ∧
        c'.recvBuffer = c.recvBuffer ++ data ∧
        (c'.recvAck = c.recvAck + UInt32.ofNat data.length ∨
          (c'.recvAck = c.recvAck + UInt32.ofNat data.length + 1 ∧ phase' = .returned)) := by
  by_cases hrst : seg.flags &&& FLAG_RST = 0
  · rw [processSegment_eq stack c hrst, Option.map_eq_some_iff] at h
    obtain ⟨c₁, happend, hresult⟩ := h
    obtain ⟨data, hdata, hlen, rfl⟩ := appendInOrder_eq_some happend
    by_cases hfin : seg.flags &&& FLAG_FIN ≠ 0
    · rw [if_pos hfin] at hresult
      simp only [Prod.mk.injEq] at hresult
      obtain ⟨rfl, rfl, rfl⟩ := hresult
      exact ⟨rfl, data, hdata, hlen, rfl, .inr ⟨rfl, rfl⟩⟩
    · -- a user close or a plain ACK: `recv_ack` moves past the data only
      rw [if_neg hfin] at hresult
      split_ifs at hresult <;> simp only [Prod.mk.injEq] at hresult <;>
        obtain ⟨rfl, rfl, rfl⟩ := hresult <;> exact ⟨rfl, data, hdata, hlen, rfl, .inl rfl⟩
  · rw [processSegment, if_pos hrst] at h
    cases h
    exact ⟨rfl, [], .inl rfl, by simp, by simp, .inl (by simp)⟩

/-- In `wait_for_fin_ack` no data is appended; an ACK with a FIN moves
`recv_ack` one on and ends the wait. -/
theorem finAckSegment_recv {stack : NetworkStack} {c c' : TcpConnection} {phase' : LoopPhase}
    {sent : List OutgoingSegment} {seg : ReceivedSegment} {turns : ℕ}
    (h : finAckSegment stack c seg turns = some (c', phase', sent)) :
    c'.segmentMailbox = c.segmentMailbox ∧ c'.recvBuffer = c.recvBuffer ∧
      (c'.recvAck = c.recvAck ∨ (c'.recvAck = c.recvAck + 1 ∧ phase' = .waitFinAck 0)) := by
  unfold finAckSegment at h
  split_ifs at h <;> simp only [sendDataPacket_nil, Option.pure_def,
    Option.some.injEq, Prod.mk.injEq] at h <;> obtain ⟨rfl, rfl, rfl⟩ := h
  · exact ⟨rfl, rfl, .inr ⟨rfl, rfl⟩⟩
  all_goals exact ⟨rfl, rfl, .inl rfl⟩

/-- What the peer may send for its byte stream `S`, whose sequence numbers
start after `irs`: data taken from `S` at the segment's offset, and a FIN right
after `S`. -/
def SegmentOf (S : List UInt8) (irs : UInt32) (seg : ReceivedSegment) : Prop :=
  seg.data = (S.drop (seg.seq - irs - 1).toNat).take seg.data.length ∧
    (seg.flags &&& FLAG_FIN ≠ 0 → seg.seq = irs + 1 + UInt32.ofNat S.length)

instance (S : List UInt8) (irs : UInt32) (seg : ReceivedSegment) : Decidable (SegmentOf S irs seg) :=
  inferInstanceAs (Decidable (_ ∧ _))

/-- The peer sends only segments of `S`; the other parties are unconstrained. -/
def ConnEvent.FromPeer (S : List UInt8) (irs : UInt32) : ConnEvent → Prop
  | .deliverSegment segment => SegmentOf S irs segment
  | _ => True

/-- Every byte the connection has appended to `recv_buffer`: those the user
has read, then those still buffered. -/
def ConnSystem.appended (s : ConnSystem) : List UInt8 := s.received ++ s.conn.recvBuffer

/-- The receive side against the peer's stream `S`: what has been appended is
a prefix of `S`, the mailbox holds segments of `S`, and `recv_ack` is one past
the appended bytes, or two once a FIN has been accepted. -/
structure RecvInvariant (S : List UInt8) (irs : UInt32) (s : ConnSystem) : Prop where
  prefixOfStream : s.appended <+: S
  mailbox : ∀ seg ∈ s.conn.segmentMailbox, SegmentOf S irs seg
  recvAck : s.conn.recvAck = irs + 1 + UInt32.ofNat s.appended.length ∨
    (s.conn.recvAck = irs + 1 + UInt32.ofNat s.appended.length + 1 ∧ s.phase.done)

/-- A read moves bytes from the buffer to the user: the appended bytes, the
mailbox, `recv_ack`, the phase and the wire stay. -/
theorem ConnSystem.step_pollRecvData {stack : NetworkStack} {s s' : ConnSystem} {count : ℕ}
    (h : ConnSystem.step stack s (.pollRecvData count) = some s') :
    s'.appended = s.appended ∧ s'.conn.segmentMailbox = s.conn.segmentMailbox ∧
      s'.conn.recvAck = s.conn.recvAck ∧ s'.phase = s.phase ∧ s'.wire = s.wire := by
  simp only [ConnSystem.step, WaitForRecvData.poll, TcpConnection.recvData] at h
  split_ifs at h <;> simp only [Option.some.injEq] at h <;> subst h
  · refine ⟨?_, rfl, rfl, rfl, rfl⟩
    simp only [ConnSystem.appended, List.append_assoc, List.take_append_drop]
  all_goals exact ⟨by simp [ConnSystem.appended], rfl, rfl, rfl, rfl⟩

/-- A done loop stays done and appends nothing. -/
theorem LoopSection.done {stack : NetworkStack} {c c' : TcpConnection}
    {phase phase' : LoopPhase} {sent : List OutgoingSegment}
    (hsection : LoopSection stack c phase c' phase' sent) (hdone : phase.done = true) :
    phase'.done = true ∧ c'.recvBuffer = c.recvBuffer := by
  cases hsection with
  | drain => cases hdone
  | segment => cases hdone
  | noSegment => cases hdone
  | finAckSegment => cases hdone
  | retransmitFin => cases hdone
  | finish => exact ⟨rfl, rfl⟩
  | idle => exact ⟨hdone, rfl⟩

/-- Once the loop is done, no run appends another byte. -/
theorem ConnSystem.appended_of_done {stack : NetworkStack} {s s' : ConnSystem}
    {events : List ConnEvent} (hdone : s.phase.done = true)
    (h : Machine.run (ConnSystem.step stack) s events = some s') :
    s'.phase.done = true ∧ s'.appended = s.appended := by
  refine Machine.run_induction
    (fun t : ConnSystem => t.phase.done = true ∧ t.appended = s.appended)
    (fun _ => True) ?_ ⟨hdone, rfl⟩ (fun _ _ => trivial) h
  intro t e t' ⟨htdone, htappended⟩ _ hstep
  cases e with
  | pollLoop timerExpired =>
    simp only [ConnSystem.step, Option.map_eq_some_iff] at hstep
    obtain ⟨⟨c', phase', sent⟩, hloop, rfl⟩ := hstep
    obtain ⟨hphase, hbuffer⟩ := (loopSection_of_establishedLoopStep hloop).done htdone
    refine ⟨hphase, ?_⟩
    rw [← htappended]
    simp only [ConnSystem.appended, hbuffer]
  | pollRecvData count =>
    obtain ⟨happended, -, -, hphase, -⟩ := ConnSystem.step_pollRecvData hstep
    exact ⟨hphase ▸ htdone, happended.trans htappended⟩
  | deliverSegment | queueSendData | requestClose =>
    cases hstep
    exact ⟨htdone, htappended⟩

section RecvInvariant

variable {S : List UInt8} {irs : UInt32}

/-- Data of `S` that starts where the appended bytes end extends them within
`S`, as long as offsets into `S` do not wrap. -/
theorem prefix_append_segmentOf {appended : List UInt8} {seg : ReceivedSegment}
    (hS : S.length < 2 ^ 32) (hpre : appended <+: S) (hseg : SegmentOf S irs seg)
    (hseq : seg.seq = irs + 1 + UInt32.ofNat appended.length) :
    appended ++ seg.data <+: S := by
  obtain ⟨rest, rfl⟩ := hpre
  have hlen : appended.length < 2 ^ 32 := by
    rw [List.length_append] at hS
    omega
  have hoffset : (seg.seq - irs - 1).toNat = appended.length := by
    have hsub : irs + 1 + UInt32.ofNat appended.length - irs - 1 = UInt32.ofNat appended.length := by
      grind
    rw [hseq, hsub]
    simp only [UInt32.toNat_ofNat']
    omega
  have hdata : seg.data = rest.take seg.data.length := by
    have hslice := hseg.1
    rwa [hoffset, List.drop_left] at hslice
  rw [hdata]
  exact (List.prefix_append_right_inj appended).mpr (List.take_prefix _ rest)

theorem RecvInvariant.recvAck_of_not_done {s : ConnSystem} (hinv : RecvInvariant S irs s)
    (hphase : s.phase.done = false) :
    s.conn.recvAck = irs + 1 + UInt32.ofNat s.appended.length := by
  rcases hinv.recvAck with hack | ⟨-, hdone⟩
  · exact hack
  · rw [hphase] at hdone
    cases hdone

/-- A lock section that leaves the receive side alone, takes nothing into the
mailbox and leaves a done loop done keeps the invariant. -/
theorem RecvInvariant.of_recv_eq {s : ConnSystem} {c' : TcpConnection} {phase' : LoopPhase}
    {wire : List OutgoingSegment} (hinv : RecvInvariant S irs s)
    (hbuffer : c'.recvBuffer = s.conn.recvBuffer) (hack : c'.recvAck = s.conn.recvAck)
    (hmailbox : ∀ seg ∈ c'.segmentMailbox, seg ∈ s.conn.segmentMailbox)
    (hdone : s.phase.done = true → phase'.done = true) :
    RecvInvariant S irs { s with conn := c', phase := phase', wire := wire } := by
  have happended : ({ s with conn := c', phase := phase', wire := wire } : ConnSystem).appended =
      s.appended := by
    simp only [ConnSystem.appended, hbuffer]
  refine ⟨happended ▸ hinv.prefixOfStream, fun seg hseg => hinv.mailbox seg (hmailbox seg hseg), ?_⟩
  rw [happended, hack]
  rcases hinv.recvAck with hack' | ⟨hack', hdone'⟩
  · exact .inl hack'
  · exact .inr ⟨hack', hdone hdone'⟩

/-- A lock section in a phase that is not done that appends data of `S` at
`recv_ack` and moves `recv_ack` past it, and past an accepted FIN only into a
done phase, keeps the invariant. -/
theorem RecvInvariant.of_append {s : ConnSystem} {c' : TcpConnection} {phase' : LoopPhase}
    {wire : List OutgoingSegment} {seg : ReceivedSegment} {data : List UInt8}
    (hS : S.length < 2 ^ 32) (hinv : RecvInvariant S irs s) (hphase : s.phase.done = false)
    (hseg : SegmentOf S irs seg)
    (hdata : data = [] ∨ (seg.seq = s.conn.recvAck ∧ data = seg.data))
    (hbuffer : c'.recvBuffer = s.conn.recvBuffer ++ data)
    (hack : c'.recvAck = s.conn.recvAck + UInt32.ofNat data.length ∨
      (c'.recvAck = s.conn.recvAck + UInt32.ofNat data.length + 1 ∧ phase'.done = true))
    (hmailbox : ∀ seg ∈ c'.segmentMailbox, seg ∈ s.conn.segmentMailbox) :
    RecvInvariant S irs { s with conn := c', phase := phase', wire := wire } := by
  have hack₀ := hinv.recvAck_of_not_done hphase
  have happended : ({ s with conn := c', phase := phase', wire := wire } : ConnSystem).appended =
      s.appended ++ data := by
    simp only [ConnSystem.appended, hbuffer, List.append_assoc]
  have hpre : s.appended ++ data <+: S := by
    rcases hdata with rfl | ⟨hseq, rfl⟩
    · simpa using hinv.prefixOfStream
    · exact prefix_append_segmentOf hS hinv.prefixOfStream hseg (hseq.trans hack₀)
  have hlength : irs + 1 + UInt32.ofNat (s.appended ++ data).length =
      s.conn.recvAck + UInt32.ofNat data.length := by
    rw [hack₀, List.length_append, UInt32.ofNat_add]
    ac_rfl
  refine ⟨happended ▸ hpre, fun seg hseg => hinv.mailbox seg (hmailbox seg hseg), ?_⟩
  rw [happended, hlength]
  rcases hack with hack' | ⟨hack', hdone⟩
  · exact .inl hack'
  · exact .inr ⟨hack', hdone⟩

/-- One lock section of the loop keeps the invariant. -/
theorem RecvInvariant.loopSection {stack : NetworkStack} {s : ConnSystem} {c' : TcpConnection}
    {phase' : LoopPhase} {sent : List OutgoingSegment} (hS : S.length < 2 ^ 32)
    (hinv : RecvInvariant S irs s) (hsection : LoopSection stack s.conn s.phase c' phase' sent) :
    RecvInvariant S irs { s with conn := c', phase := phase', wire := s.wire ++ sent } := by
  obtain ⟨conn, phase, wire, received⟩ := s
  simp only at hsection hinv ⊢
  cases hsection with
  | drain hdrain =>
    rw [drainSendBuffer_eq] at hdrain
    split_ifs at hdrain <;> simp only [Option.some.injEq, Prod.mk.injEq] at hdrain <;>
      obtain ⟨rfl, rfl⟩ := hdrain
    all_goals exact hinv.of_recv_eq rfl rfl (fun _ hseg => hseg) (by simp [LoopPhase.done])
  | @segment _ _ _ seg rest hmail hprocess =>
    obtain ⟨hmailbox, data, hdata, -, hbuffer, hack⟩ := processSegment_recv hprocess
    simp only at hmailbox hdata hbuffer hack
    refine hinv.of_append hS rfl (hinv.mailbox seg (by simp [hmail])) hdata hbuffer ?_ ?_
    · rcases hack with hack | ⟨hack, rfl⟩
      · exact .inl hack
      · exact .inr ⟨hack, rfl⟩
    · intro seg' hseg'
      rw [hmailbox] at hseg'
      rw [hmail]
      exact List.mem_cons_of_mem seg hseg'
  | noSegment hmail hclose =>
    rw [closeWithoutSegment_eq] at hclose
    split_ifs at hclose <;> simp only [Option.some.injEq, Prod.mk.injEq] at hclose <;>
      obtain ⟨rfl, rfl, rfl⟩ := hclose
    all_goals exact hinv.of_recv_eq rfl rfl (fun _ hseg => hseg) (by simp [LoopPhase.done])
  | @finAckSegment _ _ _ seg rest turns hmail hfin =>
    -- no data is appended here: the invariant step for the empty append
    obtain ⟨hmailbox, hbuffer, hack⟩ := finAckSegment_recv hfin
    simp only at hmailbox hbuffer hack
    have hbuffer' : c'.recvBuffer = conn.recvBuffer ++ [] := by rw [hbuffer, List.append_nil]
    refine hinv.of_append hS rfl (hinv.mailbox seg (by simp [hmail])) (.inl rfl) hbuffer' ?_ ?_
    · rcases hack with hack | ⟨hack, rfl⟩
      · exact .inl (by simpa using hack)
      · exact .inr ⟨by simpa using hack, rfl⟩
    · intro seg' hseg'
      rw [hmailbox] at hseg'
      rw [hmail]
      exact List.mem_cons_of_mem seg hseg'
  | retransmitFin hmail =>
    exact hinv.of_recv_eq rfl rfl (fun _ hseg => hseg) (by simp [LoopPhase.done])
  | finish =>
    exact hinv.of_recv_eq rfl rfl (fun _ hseg => hseg) (by simp [LoopPhase.done])
  | idle =>
    exact hinv.of_recv_eq rfl rfl (fun _ hseg => hseg) id

/-- Every event in which the peer sends a segment of `S` keeps the invariant. -/
theorem RecvInvariant.step {stack : NetworkStack} {s s' : ConnSystem} {e : ConnEvent}
    (hS : S.length < 2 ^ 32) (hinv : RecvInvariant S irs s) (he : e.FromPeer S irs)
    (h : ConnSystem.step stack s e = some s') : RecvInvariant S irs s' := by
  cases e with
  | deliverSegment segment =>
    cases h
    refine ⟨hinv.prefixOfStream, ?_, hinv.recvAck⟩
    intro seg hseg
    rcases List.mem_append.mp hseg with hold | hnew
    · exact hinv.mailbox seg hold
    · rw [List.mem_singleton.mp hnew]
      exact he
  | queueSendData data =>
    cases h
    exact ⟨hinv.prefixOfStream, hinv.mailbox, hinv.recvAck⟩
  | requestClose =>
    cases h
    exact ⟨hinv.prefixOfStream, hinv.mailbox, hinv.recvAck⟩
  | pollRecvData count =>
    obtain ⟨happended, hmailbox, hack, hphase, -⟩ := ConnSystem.step_pollRecvData h
    refine ⟨happended ▸ hinv.prefixOfStream, hmailbox ▸ hinv.mailbox, ?_⟩
    rw [happended, hack, hphase]
    exact hinv.recvAck
  | pollLoop timerExpired =>
    simp only [ConnSystem.step, Option.map_eq_some_iff] at h
    obtain ⟨⟨c', phase', sent⟩, hstep, rfl⟩ := h
    exact hinv.loopSection hS (loopSection_of_establishedLoopStep hstep)

/-- The receive side of every run in which the peer sends only segments of
its stream `S` (in any order, with losses, duplicates and retransmissions):
what the connection has appended is a prefix of `S`, and `recv_ack` is one past
it, or two after the FIN. -/
theorem recvInvariant_run {stack : NetworkStack} {s s' : ConnSystem} {events : List ConnEvent}
    (hS : S.length < 2 ^ 32) (hinit : RecvInvariant S irs s)
    (hpeer : ∀ e ∈ events, e.FromPeer S irs)
    (hrun : Machine.run (ConnSystem.step stack) s events = some s') : RecvInvariant S irs s' :=
  Machine.run_induction (RecvInvariant S irs) (ConnEvent.FromPeer S irs)
    (fun _ _ _ hinv he hstep => hinv.step hS he hstep) hinit hpeer hrun

end RecvInvariant

/-- The peer's stream is one byte, `0x41`, after `irs = 1000`; its FIN (at
`1002 = irs + 1 + 1`) overtakes the data segment (at `1001`).  The loop accepts
the FIN, closes the connection and returns with nothing appended, and no
continuation of the run ever appends the byte. -/
theorem establishedLoop_fin_closes_before_data :
    let stack : NetworkStack := ⟨⟨0x0A00020F⟩, ⟨0x525400123456⟩, fun _ => none⟩
    let conn : TcpConnection :=
      { TcpConnection.new ⟨49152, ⟨0x0A000202⟩, 80⟩ ⟨0x525400123402⟩ 5000 with
        sendSeq := 5001, recvAck := 1001, established := true }
    let fin : ReceivedSegment := ⟨1002, 5001, FLAG_FIN ||| FLAG_ACK, []⟩
    let data : ReceivedSegment := ⟨1001, 5001, FLAG_ACK, [0x41]⟩
    SegmentOf [0x41] 1000 fin ∧ SegmentOf [0x41] 1000 data ∧
      ∃ s, Machine.run (ConnSystem.step stack) ⟨conn, .drain, [], []⟩
          [.deliverSegment fin, .deliverSegment data, .pollLoop false, .pollLoop false] = some s ∧
        s.conn.closed = true ∧ s.phase = .returned ∧
        ∀ events s', Machine.run (ConnSystem.step stack) s events = some s' → s'.appended = [] := by
  intro stack conn fin data
  have hrun : Machine.run (ConnSystem.step stack) ⟨conn, .drain, [], []⟩
      [.deliverSegment fin, .deliverSegment data, .pollLoop false, .pollLoop false] =
      some ⟨{ conn with recvAck := 1002, closed := true, segmentMailbox := [data] }, .returned,
        [⟨FLAG_ACK, 5001, 1002, []⟩], []⟩ := by
    decide
  refine ⟨by decide, by decide, _, hrun, rfl, rfl, fun events s' h => ?_⟩
  exact (ConnSystem.appended_of_done rfl h).2

/-! ## The send side -/

/-- The data the segments of a list carry, in order. -/
def sentData (segments : List OutgoingSegment) : List UInt8 :=
  (segments.map OutgoingSegment.data).flatten

@[simp]
theorem sentData_nil : sentData [] = [] := rfl

@[simp]
theorem sentData_cons (segment : OutgoingSegment) (segments : List OutgoingSegment) :
    sentData (segment :: segments) = segment.data ++ sentData segments := rfl

@[simp]
theorem sentData_append (segments segments' : List OutgoingSegment) :
    sentData (segments ++ segments') = sentData segments ++ sentData segments' := by
  simp [sentData]

/-- The bytes an event writes. -/
def ConnEvent.written : ConnEvent → List UInt8
  | .queueSendData data => data
  | _ => []

/-- The loop has left its body for good: it waits in `wait_for_fin_ack` or has
returned, and drains the send buffer no more. -/
def LoopPhase.leftBody : LoopPhase → Bool
  | .waitFinAck _ => true
  | .returned => true
  | _ => false

theorem drainSendBuffer_eq_some {stack : NetworkStack} {c c' : TcpConnection}
    {sent : List OutgoingSegment} (h : drainSendBuffer stack c = some (c', sent)) :
    c' = { c with sendBuffer := [], sendSeq := c.sendSeq + UInt32.ofNat c.sendBuffer.length } ∧
      sentData sent = c.sendBuffer := by
  rw [drainSendBuffer_eq] at h
  split_ifs at h with hempty
  · simp only [Option.some.injEq, Prod.mk.injEq] at h
    obtain ⟨rfl, rfl⟩ := h
    refine ⟨?_, by simp [hempty]⟩
    -- an empty buffer: the update changes nothing
    cases c
    simp only at hempty
    simp [hempty]
  · simp only [Option.some.injEq, Prod.mk.injEq] at h
    obtain ⟨rfl, rfl⟩ := h
    simp

/-- A segment sends no data and leaves the send buffer alone. -/
theorem processSegment_send {stack : NetworkStack} {c c' : TcpConnection} {phase' : LoopPhase}
    {sent : List OutgoingSegment} {seg : ReceivedSegment}
    (h : processSegment stack c seg = some (c', phase', sent)) :
    c'.sendBuffer = c.sendBuffer ∧ sentData sent = [] := by
  by_cases hrst : seg.flags &&& FLAG_RST = 0
  · rw [processSegment_eq stack c hrst, Option.map_eq_some_iff] at h
    obtain ⟨c₁, happend, hresult⟩ := h
    obtain ⟨data, -, -, rfl⟩ := appendInOrder_eq_some happend
    split_ifs at hresult <;> simp only [Prod.mk.injEq] at hresult <;>
      obtain ⟨rfl, rfl, rfl⟩ := hresult <;> simp
  · rw [processSegment, if_pos hrst] at h
    cases h
    exact ⟨rfl, rfl⟩

/-- In `wait_for_fin_ack` the loop sends no data and stays out of its body. -/
theorem finAckSegment_send {stack : NetworkStack} {c c' : TcpConnection} {phase' : LoopPhase}
    {sent : List OutgoingSegment} {seg : ReceivedSegment} {turns : ℕ}
    (h : finAckSegment stack c seg turns = some (c', phase', sent)) :
    c'.sendBuffer = c.sendBuffer ∧ sentData sent = [] ∧ phase'.leftBody = true := by
  unfold finAckSegment at h
  split_ifs at h <;> simp only [sendDataPacket_nil, Option.pure_def,
    Option.some.injEq, Prod.mk.injEq] at h <;> obtain ⟨rfl, rfl, rfl⟩ := h <;>
    exact ⟨rfl, rfl, rfl⟩

/-- A lock section sends what it takes from the front of the send buffer: the
drain all of it, every other section nothing. -/
theorem LoopSection.sendBuffer {stack : NetworkStack} {c c' : TcpConnection}
    {phase phase' : LoopPhase} {sent : List OutgoingSegment}
    (hsection : LoopSection stack c phase c' phase' sent) :
    sentData sent ++ c'.sendBuffer = c.sendBuffer := by
  cases hsection with
  | drain hdrain =>
    obtain ⟨rfl, hsent⟩ := drainSendBuffer_eq_some hdrain
    simp [hsent]
  | segment hmail hprocess =>
    obtain ⟨hbuffer, hsent⟩ := processSegment_send hprocess
    rw [hbuffer, hsent, List.nil_append]
  | noSegment hmail hclose =>
    rw [closeWithoutSegment_eq] at hclose
    split_ifs at hclose <;> simp only [Option.some.injEq, Prod.mk.injEq] at hclose <;>
      obtain ⟨rfl, rfl, rfl⟩ := hclose <;> simp
  | finAckSegment hmail hfin =>
    obtain ⟨hbuffer, hsent, -⟩ := finAckSegment_send hfin
    rw [hbuffer, hsent, List.nil_append]
  | retransmitFin hmail => simp
  | finish => simp
  | idle => simp

/-- Once the loop has left its body it stays out, and sends no more data. -/
theorem LoopSection.leftBody {stack : NetworkStack} {c c' : TcpConnection}
    {phase phase' : LoopPhase} {sent : List OutgoingSegment}
    (hsection : LoopSection stack c phase c' phase' sent) (hleft : phase.leftBody = true) :
    phase'.leftBody = true ∧ sentData sent = [] := by
  cases hsection with
  | drain => cases hleft
  | segment => cases hleft
  | noSegment => cases hleft
  | finAckSegment hmail hfin =>
    obtain ⟨-, hsent, hphase⟩ := finAckSegment_send hfin
    exact ⟨hphase, hsent⟩
  | retransmitFin => exact ⟨rfl, rfl⟩
  | finish => exact ⟨rfl, rfl⟩
  | idle => exact ⟨hleft, rfl⟩

/-- No byte is lost or duplicated by one event: what has been sent, then what
is still queued, grows by what the event writes. -/
theorem ConnSystem.sentData_step {stack : NetworkStack} {s s' : ConnSystem} {e : ConnEvent}
    (h : ConnSystem.step stack s e = some s') :
    sentData s'.wire ++ s'.conn.sendBuffer = sentData s.wire ++ s.conn.sendBuffer ++ e.written := by
  cases e with
  | deliverSegment segment =>
    cases h
    simp [ConnEvent.written, TcpConnection.deliverSegment]
  | queueSendData data =>
    cases h
    simp [ConnEvent.written, TcpConnection.queueSendData]
  | requestClose =>
    cases h
    simp [ConnEvent.written, TcpConnection.requestClose]
  | pollRecvData count =>
    simp only [ConnSystem.step, WaitForRecvData.poll, TcpConnection.recvData] at h
    split_ifs at h <;> simp only [Option.some.injEq] at h <;> subst h <;>
      simp [ConnEvent.written]
  | pollLoop timerExpired =>
    simp only [ConnSystem.step, Option.map_eq_some_iff] at h
    obtain ⟨⟨c', phase', sent⟩, hstep, rfl⟩ := h
    have hsection := (loopSection_of_establishedLoopStep hstep).sendBuffer
    simp only [ConnEvent.written, sentData_append, List.append_nil, List.append_assoc, hsection]

/-- After the loop has left its body, no run sends another byte of data:
whatever is still queued then is never sent. -/
theorem ConnSystem.sentData_of_leftBody {stack : NetworkStack} {s s' : ConnSystem}
    {events : List ConnEvent} (hleft : s.phase.leftBody = true)
    (h : Machine.run (ConnSystem.step stack) s events = some s') :
    s'.phase.leftBody = true ∧ sentData s'.wire = sentData s.wire := by
  refine Machine.run_induction
    (fun t : ConnSystem => t.phase.leftBody = true ∧ sentData t.wire = sentData s.wire)
    (fun _ => True) ?_ ⟨hleft, rfl⟩ (fun _ _ => trivial) h
  intro t e t' ⟨htleft, htsent⟩ _ hstep
  cases e with
  | pollLoop timerExpired =>
    simp only [ConnSystem.step, Option.map_eq_some_iff] at hstep
    obtain ⟨⟨c', phase', sent⟩, hloop, rfl⟩ := hstep
    obtain ⟨hphase, hsent⟩ := (loopSection_of_establishedLoopStep hloop).leftBody htleft
    exact ⟨hphase, by simp [hsent, htsent]⟩
  | pollRecvData count =>
    obtain ⟨-, -, -, hphase, hwire⟩ := ConnSystem.step_pollRecvData hstep
    exact ⟨hphase ▸ htleft, hwire ▸ htsent⟩
  | deliverSegment | queueSendData | requestClose =>
    cases hstep
    exact ⟨htleft, htsent⟩

/-- The user writes `0x41` while the loop awaits a segment and shuts the
stream down before the loop is polled again.  The loop sees the close request,
sends its FIN at `5001`, the sequence number the byte should have had, and no
continuation of the run ever sends the byte. -/
theorem establishedLoop_shutdown_drops_queued_data :
    let stack : NetworkStack := ⟨⟨0x0A00020F⟩, ⟨0x525400123456⟩, fun _ => none⟩
    let conn : TcpConnection :=
      { TcpConnection.new ⟨49152, ⟨0x0A000202⟩, 80⟩ ⟨0x525400123402⟩ 5000 with
        sendSeq := 5001, recvAck := 1001, established := true }
    ∃ s, Machine.run (ConnSystem.step stack) ⟨conn, .drain, [], []⟩
        [.pollLoop false, .pollLoop false, .queueSendData [0x41], .requestClose, .pollLoop false] =
        some s ∧
      s.wire = [⟨FLAG_FIN ||| FLAG_ACK, 5001, 1001, []⟩] ∧
      ∀ events s', Machine.run (ConnSystem.step stack) s events = some s' → sentData s'.wire = [] := by
  intro stack conn
  have hrun : Machine.run (ConnSystem.step stack) ⟨conn, .drain, [], []⟩
      [.pollLoop false, .pollLoop false, .queueSendData [0x41], .requestClose, .pollLoop false] =
      some ⟨{ conn with sendSeq := 5002, userCloseRequested := true, sendBuffer := [0x41] },
        .waitFinAck MAX_RETRANSMITS, [⟨FLAG_FIN ||| FLAG_ACK, 5001, 1001, []⟩], []⟩ := by
    decide
  refine ⟨_, hrun, rfl, fun events s' h => ?_⟩
  exact (ConnSystem.sentData_of_leftBody rfl h).2

end Solaya.Net
