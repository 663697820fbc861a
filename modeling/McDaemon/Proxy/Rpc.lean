/-
# McDaemon.Proxy.Rpc — calls over a connection between the proxy client and the proxy server.

A call is a frame of bytes to the server and a frame back.  The client sends in `send_all`, the
thread of the server receives in `recv_all`, and each `send` and `recv` moves as many bytes as it
likes, so the two move against each other in any order; either of them may also fail at any point.
What the server serves is what the client has called, in its order and each call once, and what the
client gets back is what the server has replied.  At the end of its thread the server closes the
driver.
-/
import McDaemon.Lib.Bytes
import McDaemon.Lib.Machine
import McDaemon.Proxy.SplitWait

namespace McDaemon.Proxy.Rpc

open McDaemon.Lib
open McDaemon.Proxy.SplitWait (protocolMagic protocolVersion)

/-! ## Frames -/

def le16 (n : UInt16) : List UInt8 := [n.toUInt8, (n >>> 8).toUInt8]

structure RequestHeader where
  magic : List UInt8
  version : UInt16
  method : UInt16
  length : UInt32
deriving DecidableEq, Repr

structure ResponseHeader where
  magic : List UInt8
  version : UInt16
  method : UInt16
  protoRc : Int32
  methodRc : UInt32
deriving DecidableEq, Repr

/-- `sizeof(RequestHeader)` and `sizeof(ResponseHeader)`. -/
def requestHeaderSize : Nat := 12
def responseHeaderSize : Nat := 16

def RequestHeader.bytes (h : RequestHeader) : List UInt8 :=
  h.magic ++ le16 h.version ++ le16 h.method ++ le32 h.length

def RequestHeader.ofBytes (bs : List UInt8) : RequestHeader where
  magic := bs.take 4
  version := .ofNat (ofLe ((bs.drop 4).take 2))
  method := .ofNat (ofLe ((bs.drop 6).take 2))
  length := .ofNat (ofLe ((bs.drop 8).take 4))

def ResponseHeader.bytes (h : ResponseHeader) : List UInt8 :=
  h.magic ++ le16 h.version ++ le16 h.method ++ le32 h.protoRc.toUInt32 ++ le32 h.methodRc

def ResponseHeader.ofBytes (bs : List UInt8) : ResponseHeader where
  magic := bs.take 4
  version := .ofNat (ofLe ((bs.drop 4).take 2))
  method := .ofNat (ofLe ((bs.drop 6).take 2))
  protoRc := (UInt32.ofNat (ofLe ((bs.drop 8).take 4))).toInt32
  methodRc := .ofNat (ofLe ((bs.drop 12).take 4))

/-- The sizes of messages are counted in an `int`. -/
def sizeLimit : Nat := 0x80000000

/-- A call that the client makes: the number of the method and the serialized request. -/
structure Request where
  method : UInt16
  data : List UInt8
deriving DecidableEq, Repr

def Request.header (c : Request) : RequestHeader :=
  ⟨protocolMagic, protocolVersion, c.method, .ofNat c.data.length⟩

/-- What the server makes of a request: the return code of `ServerConnection::call`, that of the
method, and the serialized response, as far as it is sent. -/
structure Reply where
  protoRc : Int32
  methodRc : UInt32
  data : List UInt8
  length_data : data.length = protoRc.toInt.toNat
deriving DecidableEq

def Reply.header (method : UInt16) (r : Reply) : ResponseHeader :=
  ⟨protocolMagic, protocolVersion, method, r.protoRc, r.methodRc⟩

/-- What `ClientConnection::call` makes of a response, up to the parsing of its data. -/
inductive Result where
  | protocolError (errno : Int32)
  | answered (methodRc : UInt32) (data : List UInt8)
deriving DecidableEq, Repr

def Reply.result (r : Reply) : Result :=
  if r.protoRc < 0 then .protocolError (-r.protoRc) else .answered r.methodRc r.data

/-! ## The two parties -/

/-- Where the client is in `ClientConnection::call`: `left` is still to be sent, `got` has been
received.  It is dead once it has given up in the middle of a frame. -/
inductive ClientPhase where
  | idle
  | sendsHeader (left data : List UInt8)
  | sendsData (left : List UInt8)
  | receivesHeader (got : List UInt8)
  | receivesData (header : ResponseHeader) (got : List UInt8)
  | dead
deriving DecidableEq, Repr

/-- Where the server is in `connectionThread`. -/
inductive ServerPhase where
  | receivesHeader (got : List UInt8)
  | receivesData (header : RequestHeader) (got : List UInt8)
  | serves (method : UInt16) (buffer : List UInt8)
  | sendsHeader (left data : List UInt8)
  | sendsData (left : List UInt8)
  | stopped
deriving DecidableEq, Repr

/-- A `send_all` that has sent everything returns. -/
def ClientPhase.sendingData (left : List UInt8) : ClientPhase :=
  if left = [] then .receivesHeader [] else .sendsData left

def ClientPhase.sendingHeader (left data : List UInt8) : ClientPhase :=
  if left = [] then .sendingData data else .sendsHeader left data

/-- A `recv_all` of the data that has received everything returns, and with it the call. -/
def ClientPhase.receivingData (h : ResponseHeader) (got : List UInt8) :
    ClientPhase × Option Result :=
  if (got.length : Int) < h.protoRc.toInt then (.receivesData h got, none)
  else (.idle, some (.answered h.methodRc got))

/-- A `recv_all` of the header, and the checks behind it. -/
def ClientPhase.receivingHeader (got : List UInt8) : ClientPhase × Option Result :=
  if got.length < responseHeaderSize then (.receivesHeader got, none)
  else
    let h := ResponseHeader.ofBytes got
    if h.magic ≠ protocolMagic then (.dead, none)
    else if h.version ≠ protocolVersion then (.dead, none)
    else if h.protoRc < 0 then (.idle, some (.protocolError (-h.protoRc)))
    else ClientPhase.receivingData h []

def ServerPhase.receivingData (h : RequestHeader) (got : List UInt8) : ServerPhase :=
  if got.length < h.length.toNat then .receivesData h got else .serves h.method got

def ServerPhase.receivingHeader (got : List UInt8) : ServerPhase :=
  if got.length < requestHeaderSize then .receivesHeader got
  else
    let h := RequestHeader.ofBytes got
    if h.magic ≠ protocolMagic then .stopped
    else if h.version ≠ protocolVersion then .stopped
    else .receivingData h []

/-- Behind a response the thread goes on while the driver is open. -/
def ServerPhase.sendingData (isOpen : Bool) (left : List UInt8) : ServerPhase :=
  if left = [] then if isOpen then .receivesHeader [] else .stopped else .sendsData left

def ServerPhase.sendingHeader (isOpen : Bool) (left data : List UInt8) : ServerPhase :=
  if left = [] then .sendingData isOpen data else .sendsHeader left data

/-- What serves the requests: `ServerConnection::call` on the state of the connection and its
driver, and the driver at the end. -/
structure Service (σ : Type) where
  call : σ → Request → σ × Reply
  isOpen : σ → Bool
  close : σ → σ

/-- The two parties, the bytes under way, the state behind the server and whether the driver has been
closed at the end of the thread, and what has been called, served and returned so far. -/
structure State (σ : Type) where
  client : ClientPhase
  server : ServerPhase
  toServer : List UInt8
  toClient : List UInt8
  driver : σ
  closed : Bool
  calls : List Request
  served : List (Request × Reply)
  results : List Result

inductive Action where
  | begins (c : Request)
  | clientSends (n : Nat)
  | clientReceives (n : Nat)
  | clientFails
  | serverReceives (n : Nat)
  | serverServes
  | serverSends (n : Nat)
  | serverCloses
  | serverFails
deriving DecidableEq

/-- A `send` or a `recv` moves at least one byte, and at most those that there are. -/
def moves (n available : Nat) : Bool := 0 < n && n ≤ available

variable {σ : Type}

def State.clientGets (s : State σ) (n : Nat) (next : ClientPhase × Option Result) : State σ :=
  { s with
    client := next.1
    toClient := s.toClient.drop n
    results := s.results ++ next.2.toList }

def clientSends (s : State σ) (n : Nat) : Option (State σ) :=
  match s.client with
  | .sendsHeader left data =>
    if moves n left.length then
      some { s with
        client := .sendingHeader (left.drop n) data
        toServer := s.toServer ++ left.take n }
    else none
  | .sendsData left =>
    if moves n left.length then
      some { s with
        client := .sendingData (left.drop n)
        toServer := s.toServer ++ left.take n }
    else none
  | _ => none

def clientReceives (s : State σ) (n : Nat) : Option (State σ) :=
  match s.client with
  | .receivesHeader got =>
    if moves n (min s.toClient.length (responseHeaderSize - got.length)) then
      some (s.clientGets n (ClientPhase.receivingHeader (got ++ s.toClient.take n)))
    else none
  | .receivesData h got =>
    if moves n (min s.toClient.length (h.protoRc.toInt.toNat - got.length)) then
      some (s.clientGets n (ClientPhase.receivingData h (got ++ s.toClient.take n)))
    else none
  | _ => none

def serverReceives (s : State σ) (n : Nat) : Option (State σ) :=
  match s.server with
  | .receivesHeader got =>
    if moves n (min s.toServer.length (requestHeaderSize - got.length)) then
      some { s with
        server := .receivingHeader (got ++ s.toServer.take n)
        toServer := s.toServer.drop n }
    else none
  | .receivesData h got =>
    if moves n (min s.toServer.length (h.length.toNat - got.length)) then
      some { s with
        server := .receivingData h (got ++ s.toServer.take n)
        toServer := s.toServer.drop n }
    else none
  | _ => none

def serverServes (S : Service σ) (s : State σ) : Option (State σ) :=
  match s.server with
  | .serves method buffer =>
    let c : Request := ⟨method, buffer⟩
    let (driver, reply) := S.call s.driver c
    some { s with
      server := .sendingHeader (S.isOpen driver) (reply.header method).bytes reply.data
      driver := driver
      served := s.served ++ [(c, reply)] }
  | _ => none

def serverSends (S : Service σ) (s : State σ) (n : Nat) : Option (State σ) :=
  match s.server with
  | .sendsHeader left data =>
    if moves n left.length then
      some { s with
        server := .sendingHeader (S.isOpen s.driver) (left.drop n) data
        toClient := s.toClient ++ left.take n }
    else none
  | .sendsData left =>
    if moves n left.length then
      some { s with
        server := .sendingData (S.isOpen s.driver) (left.drop n)
        toClient := s.toClient ++ left.take n }
    else none
  | _ => none

/-- Behind its loop the thread closes the driver. -/
def serverCloses (S : Service σ) (s : State σ) : Option (State σ) :=
  if s.server = .stopped ∧ s.closed = false then
    some { s with driver := S.close s.driver, closed := true }
  else none

/-- One step.  The calls on a connection take turns; none is made with a request that is too long to
be serialized, and none once one has given up in the middle of a frame: its caller deletes the
connection. -/
def step (S : Service σ) (s : State σ) : Action → Option (State σ)
  | .begins c =>
    if s.client = .idle ∧ c.data.length < sizeLimit then
      some { s with
        client := .sendingHeader c.header.bytes c.data
        calls := s.calls ++ [c] }
    else none
  | .clientSends n => clientSends s n
  | .clientReceives n => clientReceives s n
  | .clientFails => if s.client = .idle then none else some { s with client := .dead }
  | .serverReceives n => serverReceives s n
  | .serverServes => serverServes S s
  | .serverSends n => serverSends S s n
  | .serverCloses => serverCloses S s
  | .serverFails => some { s with server := .stopped }

/-- A connection that has been opened, with the driver behind it. -/
def opened (driver : σ) : State σ := ⟨.idle, .receivesHeader [], [], [], driver, false, [], [], []⟩

def machine (S : Service σ) (driver : σ) : Machine (State σ) Action where
  init s := s = opened driver
  step := step S

end McDaemon.Proxy.Rpc
