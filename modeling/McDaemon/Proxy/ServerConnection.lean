/-
# McDaemon.Proxy.ServerConnection — one client's connection at the proxy server.

The server has a thread for each client, with a driver client of its own and at most one session.
What a session holds in memory belongs to the session object of the server.  The thread closes the
driver when it ends, which the driver refuses while it has sessions; the objects go later, when the
accept loop finds the connection dead, and they go in the order of their destructors: first the
session with its memory, then the driver with its connection to the daemon.
-/
import McDaemon.Api
import McDaemon.Proxy.BufferTables

namespace McDaemon.Proxy

open McDaemon.Lib

/-! ## The connection -/

/-- A session that the daemon has open for the connection, with the memory of the server that is
mapped to it. -/
structure DaemonSession where
  id : UInt32
  tci : Option Nat
  bufs : List Mapping
deriving DecidableEq, Repr

def DaemonSession.memory (d : DaemonSession) : List Nat := d.tci.toList ++ d.bufs.map Mapping.va

/-- The `Device` of the client library, as far as sessions are concerned. -/
structure Device where
  isValid : Bool
  sessionList : List UInt32
deriving DecidableEq, Repr

/-- `Session`.  Its memory is unmapped when it is deleted. -/
structure Session where
  id : UInt32
  tci : Option Nat
  buffers : List BufferInfo
deriving DecidableEq, Repr

def Session.memory (s : Session) : List Nat := s.tci.toList ++ s.buffers.map BufferInfo.va

/-- Where a connection is in its life: its thread is running, has ended, the destructor of the
connection has run, and those of its members have. -/
inductive Stage
  | running
  | ended
  | destructed
  | deleted
deriving DecidableEq, Repr

/-- `ServerConnection` with its driver.  `daemon` is what the daemon holds for the driver's
connection, `none` when that is closed; `indeterminate` is as in `Tables`. -/
structure ServerConnection where
  stage : Stage
  device : Option Device
  daemon : Option (List DaemonSession)
  session_ : Option Session
  indeterminate : Bool
deriving DecidableEq, Repr

/-- After `ServerConnection::open`. -/
def opened : ServerConnection := ⟨.running, some ⟨true, []⟩, some [], none, false⟩

namespace ServerConnection

def isRunning (c : ServerConnection) : Bool := c.stage = .running

/-- `DriverClient::isOpen`. -/
def isOpen (c : ServerConnection) : Bool := c.device.any Device.isValid

/-- The sessions that are open in the daemon. -/
def openSessions (c : ServerConnection) : List DaemonSession := c.daemon.getD []

/-! ## Opening a session -/

structure OpenSessionRequest where
  uuid : List UInt8
  isGpUuid : Bool
  tci : Option (List UInt8)
  loginType : UInt32
  loginData : List UInt8
deriving DecidableEq, Repr

structure OpenTrustletRequest where
  spid : UInt32
  trustapp : List UInt8
  tci : Option (List UInt8)
deriving DecidableEq, Repr

/-- What becomes of an open request before the daemon is asked. -/
inductive Opening
  | refused
  | indeterminate
  | daemon (tci : Bool)
deriving DecidableEq, Repr

/-- `LOGIN_PUBLIC`. -/
def loginPublic : UInt32 := 0

/-- The checks of `openSession`, and those of the driver client.  `none` is a request that does not
parse or lacks a field. -/
def checkOpenSession (request : Option OpenSessionRequest) : Opening :=
  match request with
  | none => .refused
  | some r =>
    if r.uuid.length ≠ 16 then .refused
    -- no memory is allocated for an empty TCI, as for a buffer of length zero
    else if r.tci = some [] then .indeterminate
    else if r.loginData.length ≠ 16 then .refused
    else if r.loginType ≠ loginPublic then .refused
    else if mcMaxTciLen.toNat < (r.tci.getD []).length then .refused
    else .daemon r.tci.isSome

/-- The checks of `openTrustlet`; the client library insists on a TCI. -/
def checkOpenTrustlet (request : Option OpenTrustletRequest) : Opening :=
  match request with
  | none => .refused
  | some r =>
    if r.tci = some [] then .indeterminate
    else if r.tci = none then .refused
    else if mcMaxTciLen.toNat < (r.tci.getD []).length then .refused
    else .daemon true

/-- What others do during an open call: the memory that is allocated for the TCI, the session that
the daemon opens, if it does, and whether the client library can connect to it. -/
structure OpenAnswers where
  address : Nat
  session : Option UInt32
  connects : Bool
deriving DecidableEq, Repr

/-- `openSession` and `openTrustlet`, once the request is checked.  A session that the client
library cannot connect to stays open in the daemon, and nobody else knows of it. -/
def openWith (c : ServerConnection) (o : Opening) (a : OpenAnswers) : ServerConnection :=
  if c.session_.isSome then c
  else
    match o with
    | .refused => c
    | .indeterminate => { c with indeterminate := true }
    | .daemon tci =>
      let tci := if tci then some a.address else none
      match c.daemon, a.session with
      | some sessions, some id =>
        if a.connects then
          { c with
            daemon := some (sessions ++ [⟨id, tci, []⟩])
            device := c.device.map fun d => { d with sessionList := d.sessionList ++ [id] }
            session_ := some ⟨id, tci, []⟩ }
        else { c with daemon := some (sessions ++ [⟨id, tci, []⟩]) }
      | _, _ => c

/-! ## Requests to a session -/

/-- `ServerConnection::closeSession`; `closes` tells whether the daemon closes the session. -/
def closeSession (c : ServerConnection) (request : Option UInt32) (closes : Bool) :
    ServerConnection :=
  match request, c.session_, c.device with
  | some id, some _, some device =>
    if id ∉ device.sessionList then c
    else
      match c.daemon with
      | none => { c with device := some { device with isValid := false } }
      | some sessions =>
        if closes then
          { c with
            daemon := some (sessions.filter (·.id ≠ id))
            device := some { device with sessionList := device.sessionList.erase id }
            session_ := none }
        else c
  | _, _, _ => c

/-- The session in the daemon that the driver reaches under an id. -/
def reached (c : ServerConnection) (sid : UInt32) : Option DaemonSession :=
  match c.device with
  | none => none
  | some device =>
    if sid ∈ device.sessionList then c.openSessions.find? (·.id = sid) else none

/-- The buffer tables of the server's session and of a session in the daemon. -/
def tables (s : Session) (d : DaemonSession) : Tables := ⟨none, s.buffers, d.bufs, true, false⟩

/-- The tables as a request has left them. -/
def withTables (c : ServerConnection) (s : Session) (d : DaemonSession) (t : Tables) :
    ServerConnection :=
  { c with
    device := c.device.map fun device => { device with isValid := t.isOpen }
    daemon := c.daemon.map fun sessions =>
      sessions.map fun e => if e.id = d.id then { e with bufs := t.driver } else e
    session_ := some { s with buffers := t.server }
    indeterminate := t.indeterminate }

/-- `ServerConnection::map` behind its checks.  Where the driver reaches no session it maps
nothing. -/
def mapWith (c : ServerConnection) (s : Session) (sid : UInt32) (bufs : List MapEntry) :
    ServerConnection :=
  match c.reached sid with
  | none => if prepare bufs = .indeterminate then { c with indeterminate := true } else c
  | some d => c.withTables s d (serverMap (tables s d) bufs).2

/-- `ServerConnection::map`. -/
def map (c : ServerConnection) (request : Option (UInt32 × List MapEntry)) : ServerConnection :=
  match request, c.session_ with
  | some (sid, bufs), some s => if mcMapMax < bufs.length then c else c.mapWith s sid bufs
  | _, _ => c

/-- `ServerConnection::unmap`. -/
def unmap (c : ServerConnection) (request : Option (UInt32 × List UnmapEntry)) :
    ServerConnection :=
  match request, c.session_ with
  | some (sid, bufs), some s =>
    if mcMapMax < bufs.length then c
    else
      match c.reached sid with
      | none => c
      | some d => c.withTables s d (serverUnmap (tables s d) bufs).2
  | _, _ => c

/-! ## The end -/

/-- `Connection::isConnectionAlive`.  A `poll` that is interrupted counts as a dead connection. -/
def isConnectionAlive (c : ServerConnection) (interrupted : Bool) : Bool :=
  c.daemon.isSome && !interrupted

/-- `mcCloseDevice_`.  The daemon closes the sessions it has open for the device. -/
def mcCloseDevice_ (c : ServerConnection) (interrupted : Bool) : McResult × ServerConnection :=
  match c.device with
  | none => (mcDrvErrDaemonDeviceNotOpen, c)
  | some device =>
    if c.isConnectionAlive interrupted = false then
      (mcDrvErrDaemonUnreachable, { c with device := some { device with isValid := false } })
    else if device.sessionList ≠ [] then (mcDrvErrSessionPending, c)
    else (mcDrvOk, { c with daemon := some [], device := some { device with isValid := false } })

/-- The destructor of the device closes the connection, and the daemon drops what it has open for
it. -/
def deleteDevice (c : ServerConnection) : ServerConnection :=
  { c with device := none, daemon := none }

/-- `DriverClient::close`. -/
def driverClose (c : ServerConnection) (interrupted : Bool) : ServerConnection :=
  let (mcResult, c) := c.mcCloseDevice_ interrupted
  if mcResult ≠ mcDrvErrSessionPending then c.deleteDevice else c

/-- The last lines of `connectionThread`. -/
def exitThread (c : ServerConnection) (interrupted : Bool) : ServerConnection :=
  { c.driverClose interrupted with stage := .ended }

/-! ## Runs -/

/-- What happens to a connection.  A request is `none` when it does not parse or lacks a field; the
thread may end at any time, as the client may go or the stream break. -/
inductive Action
  | openSession (request : Option OpenSessionRequest) (answers : OpenAnswers)
  | openTrustlet (request : Option OpenTrustletRequest) (answers : OpenAnswers)
  | closeSession (request : Option UInt32) (closes : Bool)
  | map (request : Option (UInt32 × List MapEntry))
  | unmap (request : Option (UInt32 × List UnmapEntry))
  /-- `notify`, `waitNotification`, the calls without a session, or an unknown method. -/
  | otherRequest
  /-- The daemon goes, or closes the connection. -/
  | daemonGone
  /-- A call of the driver finds that the daemon is gone. -/
  | deviceInvalid
  | exitThread (interrupted : Bool)
  /-- `ServerConnection::~ServerConnection`, of which the accept loop makes sure that the thread has
  ended, or on shut-down waits for it. -/
  | deleteSession
  /-- The destructors of the members. -/
  | deleteDriver
deriving DecidableEq, Repr

/-- The daemon gives a session an id that no other has. -/
def Opens (c : ServerConnection) (a : OpenAnswers) : Prop :=
  ∀ id ∈ a.session, ∀ d ∈ c.openSessions, d.id ≠ id

instance (c : ServerConnection) (a : OpenAnswers) : Decidable (Opens c a) :=
  Option.decidableForallMem (p := fun id => ∀ d ∈ c.openSessions, d.id ≠ id) a.session

/-- The memory that is allocated for a map, and the addresses that the secure world gives it, are
new. -/
def Maps (c : ServerConnection) : Option (UInt32 × List MapEntry) → Prop
  | none => True
  | some (sid, bufs) =>
    ∀ s ∈ c.session_, (∀ b ∈ bufs, b.address ∉ s.memory) ∧
      ∀ d ∈ c.reached sid, Allocates (tables s d) bufs

instance (c : ServerConnection) (request : Option (UInt32 × List MapEntry)) :
    Decidable (Maps c request) :=
  match request with
  | none => .isTrue trivial
  | some (sid, bufs) =>
    inferInstanceAs (Decidable (∀ s ∈ c.session_, (∀ b ∈ bufs, b.address ∉ s.memory) ∧
      ∀ d ∈ c.reached sid, Allocates (tables s d) bufs))

/-- The thread is at its next request. -/
def serves (c : ServerConnection) : Bool := c.isRunning && c.isOpen && !c.indeterminate

def step (c : ServerConnection) : Action → Option ServerConnection
  | .openSession request a =>
    if c.serves ∧ Opens c a then some (c.openWith (checkOpenSession request) a) else none
  | .openTrustlet request a =>
    if c.serves ∧ Opens c a then some (c.openWith (checkOpenTrustlet request) a) else none
  | .closeSession request closes => if c.serves then some (c.closeSession request closes) else none
  | .map request => if c.serves ∧ Maps c request then some (c.map request) else none
  | .unmap request => if c.serves then some (c.unmap request) else none
  | .otherRequest => if c.serves then some c else none
  | .daemonGone => some { c with daemon := none }
  | .deviceInvalid =>
    if c.isRunning ∧ c.daemon = none then
      some { c with device := c.device.map fun d => { d with isValid := false } }
    else none
  | .exitThread interrupted => if c.isRunning then some (c.exitThread interrupted) else none
  | .deleteSession =>
    if c.stage = .ended then some { c with session_ := none, stage := .destructed } else none
  | .deleteDriver =>
    if c.stage = .destructed then some { c.deleteDevice with stage := .deleted } else none

end ServerConnection

end McDaemon.Proxy
