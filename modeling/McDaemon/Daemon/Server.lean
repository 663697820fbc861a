/-
# McDaemon.Daemon.Server — the socket server, its clients and their connections.

The server accepts clients, each with a `Connection` of its own and a thread that reads commands.
A client with a command waits in the queue of the one worker thread, which calls the daemon's
handlers; a client whose connection broke waits there as well, and the worker drops its connection.
The main loop deletes the clients that are done.  `NQ_CONNECT` takes the connection away from its
client and hands it to a session.

The device is the machine of `McDaemon.Device.Machine`.  The netlink server, which has connections
of its own, and the threads of the device step beside the socket server.
-/
import McDaemon.Device.Machine

namespace McDaemon.Daemon

open McDaemon.Lib McDaemon.Device

/-! ## The server's state -/

/-- `Client`.  `connection` is `connection_`, which is `NULL` when the client is detached; `locked`
is set while the client waits for the worker. -/
structure Client where
  connection : Option Conn
  dead : Bool
  locked : Bool
  exiting : Bool
deriving DecidableEq, Repr

/-- The constructor. -/
def Client.new (conn : Conn) : Client := ⟨some conn, false, false, false⟩

def Client.isDetached (c : Client) : Bool := c.connection == none

/-- Where the worker thread stands in its loop. -/
inductive Worker where
  | idle
  /-- In `handleCommand` for the client behind `p`. -/
  | handling (p : Nat) (conn : Conn)
  /-- In `dropConnection` for the client behind `p`. -/
  | dropping (p : Nat) (conn : Conn)
deriving DecidableEq, Repr

/-- The daemon with its socket server.  Connections are named in the order in which they are made;
`peers` are those of the netlink server, `reaped` those that were deleted with their clients. -/
structure ServerState where
  device : DeviceState
  clients : PtrList Client
  queue : List Nat
  worker : Worker
  next : Conn
  peers : List Conn
  reaped : List Conn

/-- What the threads around the device do. -/
inductive ServerAction where
  /-- A new client connects to the socket server, or a new peer to the netlink server. -/
  | accept
  | connectPeer
  /-- A client's thread has read a command for the worker. -/
  | receive (p : Nat)
  /-- A client's thread handles `NOTIFY` itself. -/
  | notify (p : Nat) (sessionId : UInt32)
  /-- A client's thread finds its connection broken, or taken away. -/
  | hangUp (p : Nat)
  /-- The worker handles a command on the device for the first client in the queue. -/
  | handle (a : Device.Action)
  /-- The same for a command that leaves the device alone. -/
  | handleOther
  /-- The worker's handler returns. -/
  | handled
  /-- The worker turns to a client that is dead, and is done with it. -/
  | handleDead
  | dropped
  /-- The main loop deletes a client. -/
  | reap (p : Nat)
  /-- A step of the device that is not a command of a client of the socket server. -/
  | device (a : Device.Action)
deriving DecidableEq, Repr

namespace ServerState

/-- The server after `start`. -/
def started (mciReused : Bool) : ServerState where
  device := .started mciReused
  clients := .empty
  queue := []
  worker := .idle
  next := 0
  peers := []
  reaped := []

/-- `Server::detachConnection`: the first client with this connection loses it. -/
def detachConnection (s : ServerState) (conn : Conn) : ServerState :=
  match s.clients.find? fun c => c.connection == some conn with
  | none => s
  | some p =>
    { s with clients := s.clients.modify p fun c => { c with connection := none } }

/-- Whether `processNqConnect` takes the connection from its client: when the connection has a
device open, it answers with an error before. -/
def detachedBy (s : ServerState) : Device.Action → Option Conn
  | .concurrent (.nqConnect conn _) =>
    if conn ∈ s.device.connectionData then none else some conn
  | _ => none

/-- A step of the device, with what the handler does to the clients. -/
def deviceStep (s : ServerState) (a : Device.Action) : Option ServerState :=
  (s.device.step a).map fun d =>
    let s' := { s with device := d }
    match s.detachedBy a with
    | some conn => s'.detachConnection conn
    | none => s'

/-- The connection for which a device command is handled. -/
def commandOf : Device.Action → Option Conn
  | .command conn _ | .concurrent (.nqConnect conn _) => some conn
  | _ => none

/-- The connection in whose name a thread outside the device starts a step. -/
def startedBy : Device.Action → Option Conn
  | .command conn _ | .drop conn | .concurrent (.nqConnect conn _)
  | .concurrent (.notify conn _) => some conn
  | _ => none

/-- Whether the device still works on a command of this connection. -/
def busyWith (s : ServerState) (conn : Conn) : Bool :=
  s.device.mcp.client? == some conn || s.device.nq.map NqFlush.conn == some conn

/-- `unlock`, after which the client's thread goes on. -/
def unlock (s : ServerState) (p : Nat) : ServerState :=
  { s with clients := s.clients.modify p fun c => { c with locked := false }, worker := .idle }

/-- `setExiting` and `unlock`. -/
def exit (s : ServerState) (p : Nat) : ServerState :=
  { s with
    clients := s.clients.modify p fun c => { c with exiting := true, locked := false }
    worker := .idle }

/-- `queue_.push(this)`: the client's thread waits for the worker. -/
def enqueue (s : ServerState) (p : Nat) (dead : Bool) : ServerState :=
  { s with
    clients := s.clients.modify p fun c => { c with dead := dead, locked := true }
    queue := s.queue ++ [p] }

/-- `delete client`, with the connection that it still has. -/
def deleteClient (s : ServerState) (p : Nat) (c : Client) : ServerState :=
  { s with clients := s.clients.remove p, reaped := c.connection.toList ++ s.reaped }

/-- The first client in the queue, when the worker is free for it. -/
def popped (s : ServerState) : Option (Nat × Client × ServerState) :=
  match s.worker, s.queue with
  | .idle, p :: ps => (s.clients.get? p).map fun c => (p, c, { s with queue := ps })
  | _, _ => none

/-- `Server::Private::run`, the branch of a client that is dead. -/
def runDead (s : ServerState) (p : Nat) (c : Client) : Option ServerState :=
  match c.connection with
  | none => some (s.exit p)
  | some conn =>
    (s.deviceStep (.drop conn)).map fun t => { t with worker := .dropping p conn }

/-- The same, the branch of a command. -/
def runCommand (s : ServerState) (p : Nat) (c : Client) (a : Device.Action) :
    Option ServerState :=
  match c.connection with
  | none => none
  | some conn =>
    if commandOf a = some conn then
      (s.deviceStep a).map fun t => { t with worker := .handling p conn }
    else none

def step (s : ServerState) : ServerAction → Option ServerState
  | .accept => some { s with clients := s.clients.push (.new s.next), next := s.next + 1 }
  | .connectPeer => some { s with peers := s.next :: s.peers, next := s.next + 1 }
  | .receive p => do
    let c ← s.clients.get? p
    if c.locked || c.dead || c.isDetached then none else some (s.enqueue p false)
  | .notify p sessionId => do
    let c ← s.clients.get? p
    let conn ← c.connection
    if c.locked || c.dead then none else s.deviceStep (.concurrent (.notify conn sessionId))
  | .hangUp p => do
    let c ← s.clients.get? p
    if c.locked || c.dead then none else some (s.enqueue p true)
  | .handle a => do
    let (p, c, s) ← s.popped
    if c.dead then none else s.runCommand p c a
  | .handleOther => do
    let (p, c, s) ← s.popped
    if c.dead || c.isDetached then none else some (s.unlock p)
  | .handled =>
    match s.worker with
    | .handling p conn => if s.busyWith conn then none else some (s.unlock p)
    | _ => none
  | .handleDead => do
    let (p, c, s) ← s.popped
    if c.dead then s.runDead p c else none
  | .dropped =>
    match s.worker with
    | .dropping p conn => if s.busyWith conn then none else some (s.exit p)
    | _ => none
  | .reap p => do
    let c ← s.clients.get? p
    if c.exiting then some (s.deleteClient p c) else none
  | .device a =>
    match startedBy a with
    | none => s.deviceStep a
    | some conn => if conn ∈ s.peers then s.deviceStep a else none

end ServerState

/-- The daemon with its socket server. -/
def serverMachine : Machine ServerState ServerAction where
  init := fun s => ∃ mciReused, s = ServerState.started mciReused
  step := ServerState.step

end McDaemon.Daemon
