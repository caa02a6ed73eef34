import Solaya.Net.Packets
import Solaya.Core.Machine

/-!
# The UDP socket registry

`net/sockets.rs` hands out a UDP port by `OpenSockets::try_get_socket`, which
records a weak reference to the new `AssignedSocket` in a map from ports.  The
socket is shared by an `Arc` among the descriptors that hold it (`dup`, `fork`),
and its `Drop`, run when the last strong reference goes, takes the map's lock
and removes the port.  `put_data`, called by the receive path for each
datagram, takes the map's lock, upgrades the port's weak reference with
`expect` and queues the datagram; the temporary strong reference it made is
released at the end of its `match` arm, while the map's lock is still held.

The model is the registry with every socket ever handed out, indexed by
allocation (its `Arc` identity), with the strong references its descriptors
hold and whether its `Drop` has run; the `Arc`'s strong count is those, plus
one while `put_data` holds its temporary reference.  Releasing a handle and
the `Drop` that may follow are separate events: `Arc::drop` brings the count to
zero without a lock, and the `Drop` body then spins for the map's lock, so
other CPUs act in between.  `put_data` is two events for the same reason, its
lock section and the release of its temporary reference.

Two windows panic.  A datagram that arrives after the last handle has gone and
before `Drop` has removed the port finds a weak reference that no longer
upgrades (`putData_eq_none_iff`).  And when the last handle goes while
`put_data` holds its temporary reference, that reference is the last one: its
release runs `Drop` on the CPU that holds the map's lock, and the spin lock's
same-CPU check panics (`putDataEnd_eq_none_iff`).
-/

namespace Solaya.Net

/-- `Datagram`; `source` is its `from` field. -/
structure Datagram where
  source : Ipv4Addr
  fromPort : UInt16
  data : List UInt8
  deriving DecidableEq, Repr

/-- `AssignedSocket`, with the strong references its descriptors hold and
whether its `Drop` has run. -/
structure AssignedSocket where
  datagrams : List Datagram
  port : UInt16
  handles : ℕ
  dropped : Bool
  deriving DecidableEq, Repr

namespace AssignedSocket

/-- `AssignedSocket::put_data`. -/
def putData (socket : AssignedSocket) (source : Ipv4Addr) (fromPort : UInt16)
    (data : List UInt8) : AssignedSocket :=
  { socket with datagrams := socket.datagrams ++ [⟨source, fromPort, data⟩] }

/-- `AssignedSocket::get_datagram` into a buffer of `bufferLength` bytes: the
oldest datagram, cut to the buffer. -/
def getDatagram (socket : AssignedSocket) (bufferLength : ℕ) :
    AssignedSocket × Option (List UInt8 × Ipv4Addr × UInt16) :=
  match socket.datagrams with
  | [] => (socket, none)
  | datagram :: rest =>
    let len := min datagram.data.length bufferLength
    ({ socket with datagrams := rest },
      some (datagram.data.take len, datagram.source, datagram.fromPort))

end AssignedSocket

/-- `OpenSockets`: the map from ports to weak references, every socket it has
handed out, and the socket whose temporary strong reference a `put_data` on
some CPU holds together with the map's lock. -/
structure OpenSockets where
  sockets : UInt16 → Option ℕ
  assigned : List AssignedSocket
  putInFlight : Option ℕ

namespace OpenSockets

/-- `OpenSockets::new`. -/
def new : OpenSockets := ⟨fun _ => none, [], none⟩

/-- `try_get_socket`: a fresh socket with one strong reference, unless the map
has the port; `none` in the result is its `None`. -/
def tryGetSocket (o : OpenSockets) (port : UInt16) : OpenSockets × Option ℕ :=
  match o.sockets port with
  | some _ => (o, none)
  | none =>
    let index := o.assigned.length
    ({ o with sockets := Function.update o.sockets port (some index),
              assigned := o.assigned ++ [⟨[], port, 1, false⟩] }, some index)

/-- The lock section of `put_data` up to the end of its `match` arm: a
vacant port drops the datagram; otherwise the weak reference is upgraded,
which `expect`s the socket's strong count, its handles' references, to be
non-zero, and the datagram is queued. -/
def putData (o : OpenSockets) (source : Ipv4Addr) (fromPort toPort : UInt16)
    (data : List UInt8) : Option OpenSockets :=
  match o.sockets toPort with
  | none => some o
  | some index =>
    match o.assigned[index]? with
    | none => none
    | some socket =>
      if socket.handles = 0 then none
      else some { o with
        assigned := o.assigned.set index (socket.putData source fromPort data),
        putInFlight := some index }

/-- The end of `put_data`'s `match` arm, with the map's lock still held: the
temporary strong reference is released.  When it was the last one, the
socket's `Drop` runs here and locks the map this CPU holds, which the spin
lock's same-CPU check turns into a panic. -/
def putDataEnd (o : OpenSockets) : Option OpenSockets :=
  match o.putInFlight with
  | none => some o
  | some index =>
    match o.assigned[index]? with
    | none => none
    | some socket => if socket.handles = 0 then none else some { o with putInFlight := none }

/-- Cloning a handle (`dup`, `fork`): one more strong reference to a live
socket. -/
def cloneHandle (o : OpenSockets) (index : ℕ) : OpenSockets :=
  match o.assigned[index]? with
  | some socket =>
    if socket.handles ≠ 0 then
      { o with assigned := o.assigned.set index { socket with handles := socket.handles + 1 } }
    else o
  | none => o

/-- Releasing a handle (`close`, process exit): `Arc::drop` lowers the strong
count without a lock; at zero the socket's `Drop` is due. -/
def dropHandle (o : OpenSockets) (index : ℕ) : OpenSockets :=
  match o.assigned[index]? with
  | some socket =>
    if socket.handles ≠ 0 then
      { o with assigned := o.assigned.set index { socket with handles := socket.handles - 1 } }
    else o
  | none => o

/-- `AssignedSocket::drop`, due once the strong count is zero: it spins while
a `put_data` holds the map's lock, then asserts that the map has the port and
removes it. -/
def dropSocket (o : OpenSockets) (index : ℕ) : Option OpenSockets :=
  match o.assigned[index]? with
  | some socket =>
    if socket.handles = 0 ∧ socket.dropped = false ∧ o.putInFlight ≠ some index then
      if o.putInFlight.isSome then some o
      else
        match o.sockets socket.port with
        | none => none
        | some _ => some { o with
            sockets := Function.update o.sockets socket.port none,
            assigned := o.assigned.set index { socket with dropped := true } }
    else some o
  | none => some o

/-- `get_datagram` on a live socket, as `do_recvfrom` calls it. -/
def getDatagram (o : OpenSockets) (index : ℕ) (bufferLength : ℕ) :
    OpenSockets × Option (List UInt8 × Ipv4Addr × UInt16) :=
  match o.assigned[index]? with
  | some socket =>
    let (socket, result) := socket.getDatagram bufferLength
    ({ o with assigned := o.assigned.set index socket }, result)
  | none => (o, none)

end OpenSockets

/-- What happens to the registry, on any CPU. -/
inductive SocketEvent where
  /-- `bind` of a UDP socket: `try_get_socket`. -/
  | bind (port : UInt16)
  /-- A descriptor holding the socket is duplicated. -/
  | cloneHandle (index : ℕ)
  /-- A descriptor holding the socket is closed. -/
  | dropHandle (index : ℕ)
  /-- The socket's `Drop` takes the map's lock. -/
  | dropSocket (index : ℕ)
  /-- A datagram reaches `put_data`. -/
  | putData (source : Ipv4Addr) (fromPort toPort : UInt16) (data : List UInt8)
  /-- `put_data` leaves its `match` arm. -/
  | putDataEnd
  /-- `recvfrom` reads a datagram into a buffer of `bufferLength` bytes. -/
  | getDatagram (index : ℕ) (bufferLength : ℕ)
  deriving DecidableEq, Repr

/-- One event; `none` where the kernel panics.  A `put_data` holds the
`OPEN_SOCKETS` lock and the map's lock until it ends, so the events that need
either lock spin (change nothing) meanwhile. -/
def OpenSockets.step (o : OpenSockets) : SocketEvent → Option OpenSockets
  | .bind port => if o.putInFlight.isSome then some o else some (o.tryGetSocket port).1
  | .cloneHandle index => some (o.cloneHandle index)
  | .dropHandle index => some (o.dropHandle index)
  | .dropSocket index => o.dropSocket index
  | .putData source fromPort toPort data =>
    if o.putInFlight.isSome then some o else o.putData source fromPort toPort data
  | .putDataEnd => o.putDataEnd
  | .getDatagram index bufferLength => some (o.getDatagram index bufferLength).1

namespace OpenSockets

/-- `put_data` panics exactly when the port's weak reference does not
upgrade: the port names a socket whose descriptors have all been closed, or
one that is gone. -/
theorem putData_eq_none_iff (o : OpenSockets) (source : Ipv4Addr) (fromPort toPort : UInt16)
    (data : List UInt8) :
    o.putData source fromPort toPort data = none ↔
      ∃ index, o.sockets toPort = some index ∧ ∀ socket ∈ o.assigned[index]?, socket.handles = 0 := by
  unfold putData
  cases hentry : o.sockets toPort with
  | none => simp
  | some index =>
    cases hsocket : o.assigned[index]? with
    | none => simp [hsocket]
    | some socket =>
      by_cases hhandles : socket.handles = 0 <;> simp [hsocket, hhandles]

/-- The end of `put_data` panics exactly when its temporary reference has
become the socket's last. -/
theorem putDataEnd_eq_none_iff (o : OpenSockets) :
    o.putDataEnd = none ↔
      ∃ index, o.putInFlight = some index ∧ ∀ socket ∈ o.assigned[index]?, socket.handles = 0 := by
  unfold putDataEnd
  cases hflight : o.putInFlight with
  | none => simp
  | some index =>
    cases hsocket : o.assigned[index]? with
    | none => simp [hsocket]
    | some socket =>
      by_cases hhandles : socket.handles = 0 <;> simp [hsocket, hhandles]

/-- The last descriptor is closed while `put_data` holds its temporary
reference: releasing it runs the socket's `Drop` under the map's lock. -/
example : Machine.run OpenSockets.step OpenSockets.new
    [.bind 5000, .putData ⟨0x0A000202⟩ 1234 5000 [0x41], .dropHandle 0, .putDataEnd] = none := rfl

end OpenSockets

/-- One descriptor holds the UDP socket bound to port 5000.  It is closed, and
before the socket's `Drop` has taken the map's lock a datagram for port 5000
arrives: `put_data` finds the port, its weak reference no longer upgrades, and
the `expect` panics. -/
theorem putData_after_last_handle_dropped :
    Machine.run OpenSockets.step OpenSockets.new
      [.bind 5000, .dropHandle 0, .putData ⟨0x0A000202⟩ 1234 5000 [0x41]] = none := rfl

end Solaya.Net
