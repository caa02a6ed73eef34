import Solaya.Net.TcpConnection

/-!
# The TCP endpoint tables

`net/tcp_connection.rs` keeps three globals: the counter `NEXT_EPHEMERAL_PORT`
from which `connect` takes its local port, `TCP_CONNECTIONS` from a connection
id to its shared connection, and `TCP_LISTENERS` from a port to its listener.
The syscalls and the receive path change them by a few operations: `connect`
allocates a port and inserts its connection, `listen` registers a listener,
a connection's task removes its entry when it ends, and `process_tcp_packet`
delivers to a known connection, inserts a server connection for a SYN to a
listener, or answers with an RST.

The model keeps the tables with the shared connections and listeners named by
the identity of their allocation (`Arc` identity), so that a replaced entry is
visible.  Closing a descriptor changes none of the tables: the model has no
event for it.

The counter is a `u16` that `fetch_add` wraps and that nothing ever gives back:
`nextEphemeralPort_run` says that after any run it stands at `49152` plus the
number of `connect` calls so far, so the `connect` after the 16384th panics
however few connections are left (`connect_after_ephemeral_ports_exhausted`).
-/

namespace Solaya.Net

/-- `allocate_ephemeral_port`: the counter's value, and the counter after
`fetch_add(1)`, which wraps; the `assert!` is its panic. -/
def allocateEphemeralPort (nextEphemeralPort : UInt16) : Option (UInt16 × UInt16) :=
  let port := nextEphemeralPort
  if port ≥ 49152 then some (port, nextEphemeralPort + 1) else none

/-- `NEXT_EPHEMERAL_PORT`, `TCP_CONNECTIONS` and `TCP_LISTENERS`, the shared
connections and listeners by the identity of their allocation. -/
structure TcpTables where
  nextEphemeralPort : UInt16
  connections : ConnectionId → Option ℕ
  listeners : UInt16 → Option ℕ

namespace TcpTables

/-- The tables at boot. -/
def boot : TcpTables := ⟨49152, fun _ => none, fun _ => none⟩

/-- `register_listener`: `BTreeMap::insert` replaces a listener already
registered on the port. -/
def registerListener (t : TcpTables) (port : UInt16) (listener : ℕ) : TcpTables :=
  { t with listeners := Function.update t.listeners port (some listener) }

/-- `cleanup_connection`. -/
def cleanupConnection (t : TcpTables) (id : ConnectionId) : TcpTables :=
  { t with connections := Function.update t.connections id none }

/-- `do_connect` up to the handshake: a local port from the counter, then
`initiate_connect`, which inserts the new connection unless the ARP cache has
no entry for the destination. -/
def doConnect (stack : NetworkStack) (t : TcpTables) (destIp : Ipv4Addr) (destPort : UInt16)
    (conn : ℕ) : Option TcpTables := do
  let (localPort, nextEphemeralPort) ← allocateEphemeralPort t.nextEphemeralPort
  let t := { t with nextEphemeralPort := nextEphemeralPort }
  match stack.arpCache destIp with
  | none => pure t
  | some _ =>
    let id : ConnectionId := ⟨localPort, destIp, destPort⟩
    pure { t with connections := Function.update t.connections id (some conn) }

/-- What `process_tcp_packet` does with a parsed segment. -/
inductive Dispatch where
  /-- Handed to the connection's mailbox. -/
  | deliver (conn : ℕ)
  /-- A SYN to a listener: a server connection is inserted and its task spawned. -/
  | spawnServer (conn listener : ℕ)
  /-- Answered with an RST. -/
  | reset
  deriving DecidableEq, Repr

/-- The table half of `process_tcp_packet`; `conn` is the connection a SYN to
a listener allocates. -/
def processTcpPacket (t : TcpTables) (id : ConnectionId) (flags : UInt16) (conn : ℕ) :
    TcpTables × Dispatch :=
  match t.connections id with
  | some existing => (t, .deliver existing)
  | none =>
    match flags &&& FLAG_SYN != 0, t.listeners id.localPort with
    | true, some listener =>
      ({ t with connections := Function.update t.connections id (some conn) },
        .spawnServer conn listener)
    | _, _ => (t, .reset)

end TcpTables

/-- What changes the tables. -/
inductive TableEvent where
  /-- `connect` to `destIp:destPort`; `conn` is the connection it allocates. -/
  | connect (destIp : Ipv4Addr) (destPort : UInt16) (conn : ℕ)
  /-- `listen` on a descriptor bound to `port`, holding listener `listener`. -/
  | listen (port : UInt16) (listener : ℕ)
  /-- A connection's task ends and calls `cleanup_connection`. -/
  | connectionEnded (id : ConnectionId)
  /-- A parsed segment for `id` reaches `process_tcp_packet`. -/
  | segment (id : ConnectionId) (flags : UInt16) (conn : ℕ)
  deriving DecidableEq, Repr

/-- One event; `none` where the kernel panics. -/
def TcpTables.step (stack : NetworkStack) (t : TcpTables) : TableEvent → Option TcpTables
  | .connect destIp destPort conn => t.doConnect stack destIp destPort conn
  | .listen port listener => some (t.registerListener port listener)
  | .connectionEnded id => some (t.cleanupConnection id)
  | .segment id flags conn => some (t.processTcpPacket id flags conn).1

/-- The number of `connect` calls among the events. -/
def TableEvent.connects : List TableEvent → ℕ
  | [] => 0
  | .connect .. :: events => TableEvent.connects events + 1
  | _ :: events => TableEvent.connects events

theorem allocateEphemeralPort_eq_some {nextEphemeralPort port next : UInt16} :
    allocateEphemeralPort nextEphemeralPort = some (port, next) ↔
      49152 ≤ nextEphemeralPort ∧ port = nextEphemeralPort ∧ next = nextEphemeralPort + 1 := by
  simp only [allocateEphemeralPort]
  split_ifs with hfree
  · simp only [Option.some.injEq, Prod.mk.injEq]
    constructor
    · rintro ⟨rfl, rfl⟩
      exact ⟨hfree, rfl, rfl⟩
    · rintro ⟨-, rfl, rfl⟩
      exact ⟨rfl, rfl⟩
  · simp only [false_iff, not_and]
    exact fun hfree' => absurd hfree' hfree

/-- Only `connect` moves the counter, by one, and only from a value the
assertion accepts. -/
theorem TcpTables.step_nextEphemeralPort {stack : NetworkStack} {t t' : TcpTables} {e : TableEvent}
    (h : t.step stack e = some t') :
    t'.nextEphemeralPort = t.nextEphemeralPort + UInt16.ofNat (TableEvent.connects [e]) ∧
      (TableEvent.connects [e] = 1 → 49152 ≤ t.nextEphemeralPort) := by
  cases e with
  | connect destIp destPort conn =>
    simp only [TcpTables.step, TcpTables.doConnect] at h
    cases halloc : allocateEphemeralPort t.nextEphemeralPort with
    | none => simp [halloc] at h
    | some result =>
      obtain ⟨port, next⟩ := result
      obtain ⟨hfree, -, rfl⟩ := allocateEphemeralPort_eq_some.mp halloc
      refine ⟨?_, fun _ => hfree⟩
      simp only [halloc] at h
      split at h <;> cases h <;> rfl
  | listen port listener =>
    cases h
    exact ⟨by simp [TableEvent.connects, TcpTables.registerListener], by simp [TableEvent.connects]⟩
  | connectionEnded id =>
    cases h
    exact ⟨by simp [TableEvent.connects, TcpTables.cleanupConnection], by simp [TableEvent.connects]⟩
  | segment id flags conn =>
    simp only [TcpTables.step, Option.some.injEq] at h
    subst h
    refine ⟨?_, by simp [TableEvent.connects]⟩
    unfold TcpTables.processTcpPacket
    split
    · simp [TableEvent.connects]
    · split <;> simp [TableEvent.connects]

theorem TableEvent.connects_cons (e : TableEvent) (events : List TableEvent) :
    TableEvent.connects (e :: events) = TableEvent.connects [e] + TableEvent.connects events := by
  cases e <;> simp [TableEvent.connects, Nat.add_comm]

/-- `49152 + k` passes the assertion exactly while `k < 16384`. -/
theorem ephemeralPort_free_iff {k : ℕ} (hk : k ≤ 16384) :
    49152 ≤ (49152 + UInt16.ofNat k : UInt16) ↔ k < 16384 := by
  simp only [UInt16.le_iff_toNat_le, UInt16.toNat_add, UInt16.toNat_ofNat', UInt16.reduceToNat]
  omega

/-- The counter counts the `connect` calls: from `49152 + k` with `k` calls
behind it, a run leaves it at `49152` plus all calls, at most 16384 of them. -/
theorem TcpTables.nextEphemeralPort_run_from {stack : NetworkStack} :
    ∀ {t t' : TcpTables} {k : ℕ} {events : List TableEvent},
      t.nextEphemeralPort = 49152 + UInt16.ofNat k → k ≤ 16384 →
      Machine.run (TcpTables.step stack) t events = some t' →
      t'.nextEphemeralPort = 49152 + UInt16.ofNat (k + TableEvent.connects events) ∧
        k + TableEvent.connects events ≤ 16384 := by
  intro t t' k events
  induction events generalizing t k with
  | nil =>
    intro hcounter hk hrun
    cases hrun
    exact ⟨hcounter, hk⟩
  | cons e events ih =>
    intro hcounter hk hrun
    rw [Machine.run_cons] at hrun
    cases hfirst : t.step stack e with
    | none => simp [hfirst] at hrun
    | some t₁ =>
      rw [hfirst, Option.bind_some] at hrun
      obtain ⟨hnext, hfree⟩ := TcpTables.step_nextEphemeralPort hfirst
      -- a `connect` only happens below the wrap, so the count stays at most 16384
      have hk₁ : k + TableEvent.connects [e] ≤ 16384 := by
        cases hone : TableEvent.connects [e] with
        | zero => omega
        | succ n =>
          have hone' : TableEvent.connects [e] = 1 := by
            cases e <;> simp [TableEvent.connects] at hone ⊢
          have hlt := (ephemeralPort_free_iff hk).mp (hcounter ▸ hfree hone')
          omega
      have hcounter₁ : t₁.nextEphemeralPort = 49152 + UInt16.ofNat (k + TableEvent.connects [e]) := by
        rw [hnext, hcounter, UInt16.ofNat_add, UInt16.add_assoc]
      obtain ⟨hcounter', hk'⟩ := ih hcounter₁ hk₁ hrun
      rw [TableEvent.connects_cons, ← Nat.add_assoc]
      exact ⟨hcounter', hk'⟩

/-- From boot, every run leaves the counter at `49152` plus the number of
`connect` calls, of which there are at most 16384: ports are never reused or
given back. -/
theorem TcpTables.nextEphemeralPort_run {stack : NetworkStack} {t : TcpTables}
    {events : List TableEvent} (hrun : Machine.run (TcpTables.step stack) TcpTables.boot events = some t) :
    t.nextEphemeralPort = 49152 + UInt16.ofNat (TableEvent.connects events) ∧
      TableEvent.connects events ≤ 16384 := by
  have h := @TcpTables.nextEphemeralPort_run_from stack TcpTables.boot t 0 events rfl (by omega) hrun
  simpa using h

/-- After 16384 `connect` calls from boot, every further `connect` panics,
however many of the connections have ended. -/
theorem TcpTables.doConnect_exhausted {stack : NetworkStack} {t : TcpTables}
    {events : List TableEvent}
    (hrun : Machine.run (TcpTables.step stack) TcpTables.boot events = some t)
    (hcount : TableEvent.connects events = 16384) (destIp : Ipv4Addr) (destPort : UInt16)
    (conn : ℕ) : t.doConnect stack destIp destPort conn = none := by
  obtain ⟨hcounter, -⟩ := TcpTables.nextEphemeralPort_run hrun
  have hwrapped : ¬ 49152 ≤ t.nextEphemeralPort := by
    rw [hcounter, hcount, ephemeralPort_free_iff le_rfl]
    omega
  have halloc : allocateEphemeralPort t.nextEphemeralPort = none := by
    simp [allocateEphemeralPort, hwrapped]
  simp [TcpTables.doConnect, halloc]

/-- No event removes a listener: a port with a registered listener keeps one
in every later state, whatever happens to the descriptors that held it. -/
theorem TcpTables.listeners_run {stack : NetworkStack} {t t' : TcpTables}
    {events : List TableEvent} {port : UInt16} (hport : t.listeners port ≠ none)
    (hrun : Machine.run (TcpTables.step stack) t events = some t') : t'.listeners port ≠ none := by
  refine Machine.run_induction (fun t : TcpTables => t.listeners port ≠ none) (fun _ => True) ?_
    hport (fun _ _ => trivial) hrun
  intro t e t' htport _ hstep
  cases e with
  | connect destIp destPort conn =>
    simp only [TcpTables.step, TcpTables.doConnect] at hstep
    cases halloc : allocateEphemeralPort t.nextEphemeralPort with
    | none => simp [halloc] at hstep
    | some result =>
      simp only [halloc] at hstep
      split at hstep <;> cases hstep <;> exact htport
  | listen port' listener =>
    cases hstep
    by_cases hsame : port = port'
    · simp [TcpTables.registerListener, hsame]
    · simpa [TcpTables.registerListener, hsame] using htport
  | connectionEnded id =>
    cases hstep
    exact htport
  | segment id flags conn =>
    simp only [TcpTables.step, Option.some.injEq] at hstep
    subst hstep
    unfold TcpTables.processTcpPacket
    split
    · exact htport
    · split <;> exact htport

/-- A SYN for an id with no connection, to a port with a listener, always
makes a server connection; with `listeners_run`, also after every descriptor
of the listener has been closed. -/
theorem TcpTables.processTcpPacket_syn {t : TcpTables} {id : ConnectionId} {flags : UInt16}
    {listener : ℕ} (hnone : t.connections id = none) (hsyn : flags &&& FLAG_SYN ≠ 0)
    (hlistener : t.listeners id.localPort = some listener) (conn : ℕ) :
    t.processTcpPacket id flags conn =
      ({ t with connections := Function.update t.connections id (some conn) },
        .spawnServer conn listener) := by
  have hsyn' : (flags &&& FLAG_SYN != 0) = true := by simpa using hsyn
  simp [TcpTables.processTcpPacket, hnone, hsyn', hlistener]

/-- `n` rounds of a `connect` to `destIp:destPort` whose connection ends
before the next one: at most one ephemeral port is in use at any time. -/
def connectRounds (destIp : Ipv4Addr) (destPort : UInt16) : ℕ → List TableEvent
  | 0 => []
  | n + 1 => connectRounds destIp destPort n ++
      [.connect destIp destPort n, .connectionEnded ⟨49152 + UInt16.ofNat n, destIp, destPort⟩]

theorem run_connectRounds {stack : NetworkStack} {destIp : Ipv4Addr} {destPort : UInt16}
    {mac : MacAddress} (hdest : stack.arpCache destIp = some mac) :
    ∀ {n : ℕ}, n ≤ 16384 →
      Machine.run (TcpTables.step stack) TcpTables.boot (connectRounds destIp destPort n) =
        some ⟨49152 + UInt16.ofNat n, fun _ => none, fun _ => none⟩ := by
  intro n
  induction n with
  | zero => intro _; rfl
  | succ n ih =>
    intro hn
    have hfree : 49152 ≤ (49152 + UInt16.ofNat n : UInt16) :=
      (ephemeralPort_free_iff (by omega)).mpr (by omega)
    rw [connectRounds, Machine.run_append, ih (by omega), Option.bind_some]
    simp [Machine.run_cons, TcpTables.step, TcpTables.doConnect, allocateEphemeralPort, hfree,
      hdest, TcpTables.cleanupConnection, UInt16.ofNat_add, UInt16.add_assoc]

/-- The 16385th `connect` panics although every earlier connection has ended:
the counter has wrapped to `0`, below the assertion's bound. -/
theorem connect_after_ephemeral_ports_exhausted :
    let stack : NetworkStack := ⟨⟨0x0A00020F⟩, ⟨0x525400123456⟩, fun _ => some ⟨0x525400123402⟩⟩
    ∃ t, Machine.run (TcpTables.step stack) TcpTables.boot
        (connectRounds ⟨0x0A000202⟩ 80 16384) = some t ∧
      (∀ id, t.connections id = none) ∧
      t.step stack (.connect ⟨0x0A000202⟩ 80 16384) = none := by
  intro stack
  refine ⟨_, run_connectRounds rfl le_rfl, fun _ => rfl, ?_⟩
  rfl

end Solaya.Net
