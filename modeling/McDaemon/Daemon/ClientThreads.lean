/-
# McDaemon.Daemon.ClientThreads — the threads around the clients of the socket server.

Every client has a thread that reads commands from its connection, and puts the client into a queue
for each of them; the worker takes the clients out of the queue; the main thread accepts clients and
deletes those that are done.  `NQ_CONNECT` takes the connection away from its client.

A step is what a thread does in one go: a section under a mutex, the reading of a command, or a call
of the handler.  Clients are numbered as they are made, and so are their connections.
-/
import McDaemon.Daemon.Command
import McDaemon.Lib.Cutoff
import McDaemon.Lib.Ledger
import McDaemon.Lib.Machine
import Mathlib.Logic.Function.Basic

namespace McDaemon.Daemon.Threads

open McDaemon.Lib

/-! ## State -/

/-- Where the thread of a client is. -/
inductive ClientStage
  | absent
  /-- Constructed, and not started. -/
  | created
  /-- At the head of its loop. -/
  | reading
  /-- About to lock `mutex_` and to push the client. -/
  | queueing
  /-- It has pushed, and still holds `mutex_`. -/
  | pushed
  /-- In `pthread_cond_wait`. -/
  | waiting
  | ended
deriving DecidableEq, Repr

/-- A `Client`.  The commands that its thread has read for the worker and those that have been
handled are kept beside it, and for every call of `dropConnection` how many those were. -/
structure Client where
  stage : ClientStage
  connection : Option Nat
  commandId : UInt32
  locked : Bool
  dead : Bool
  exiting : Bool
  received : List UInt32
  handled : List UInt32
  drops : List Nat
deriving DecidableEq, Repr

def Client.absent : Client := ⟨.absent, none, 0, false, false, false, [], [], []⟩

/-- The constructor; two of the fields are not initialised. -/
def Client.new (conn : Nat) (commandId : UInt32) (locked : Bool) : Client :=
  ⟨.created, some conn, commandId, locked, false, false, [], [], []⟩

/-- Where the worker is in its loop, with the client it has taken. -/
inductive Worker
  | popping
  | chosen (c : Nat)
  | dropping (c : Nat)
  | exiting (c : Nat)
  /-- In `handleCommand`. -/
  | handling (c : Nat) (connection : Option Nat) (commandId : UInt32)
  | unlocking (c : Nat)
  | stopped
deriving DecidableEq, Repr

def Worker.client : Worker → Option Nat
  | .popping | .stopped => none
  | .chosen c | .dropping c | .exiting c | .handling c _ _ | .unlocking c => some c

/-- Where the main thread is.  It reaps with `clients_mutex_` held. -/
inductive MainThread
  | selecting
  | starting (c : Nat)
  | reaping (rest : List Nat)
  | joining (c : Nat) (rest : List Nat)
  | stopped
deriving DecidableEq, Repr

inductive Event
  /-- A thread reads or writes fields of clients, or locks their mutexes. -/
  | uses (cs : List Nat)
  | deletes (c : Nat)
deriving DecidableEq, Repr

def objects : Ledger Event Nat where
  touched
    | .uses cs => cs
    | .deletes c => [c]
  released
    | .uses _ => none
    | .deletes c => some c

/-- All clients there have been, the list of those that there are, the queue, in which `none` is
`NULL`, and how often the worker has gone round. -/
structure ServerState where
  client : Nat → Client
  made : Nat
  clients : List Nat
  queue : List (Option Nat)
  worker : Worker
  main : MainThread
  rounds : Nat
  log : List Event

def started : ServerState := ⟨fun _ => .absent, 0, [], [], .popping, .selecting, 0, []⟩

namespace ServerState

/-! ## Steps -/

/-- A step that uses one client and leaves it as `x`. -/
def put (s : ServerState) (c : Nat) (x : Client) : ServerState :=
  { s with client := Function.update s.client c x, log := s.log ++ [.uses [c]] }

/-- `readCommand` gives a command or fails; `NOTIFY` is handled on the spot. -/
def read (s : ServerState) (c : Nat) (x : Client) : Option UInt32 → ServerState
  | none => s.put c { x with dead := true, stage := .queueing }
  | some commandId =>
    if commandId = DrvCommand.notify.commandId then s.put c { x with commandId }
    else s.put c { x with commandId, received := x.received ++ [commandId], stage := .queueing }

/-- The next step of `Client::run`, other than reading. -/
def stepClient (s : ServerState) (c : Nat) (x : Client) : Option ServerState :=
  match x.stage with
  | .queueing =>
    some ({ s with queue := s.queue ++ [some c] }.put c { x with stage := .pushed })
  | .pushed => some (s.put c { x with locked := true, stage := .waiting })
  | .waiting =>
    if x.locked then none
    else some (s.put c { x with stage := if x.dead then .ended else .reading })
  | .absent | .created | .reading | .ended => none

/-- The next step of `Server::Private::run`.  To unlock a client its mutex has to be free. -/
def stepWorker (s : ServerState) : Option ServerState :=
  match s.worker with
  | .popping =>
    match s.queue with
    | [] => none
    | none :: queue => some { s with queue, worker := .stopped }
    | some c :: queue => some { s with queue, worker := .chosen c }
  | .chosen c =>
    some ({ s with worker :=
      if (s.client c).dead then
        if (s.client c).connection = none then .exiting c else .dropping c
      else .handling c (s.client c).connection (s.client c).commandId }.put c (s.client c))
  | .dropping c =>
    some ({ s with worker := .exiting c }.put c
      { s.client c with drops := (s.client c).drops ++ [(s.client c).handled.length] })
  | .exiting c =>
    some ({ s with worker := .unlocking c }.put c { s.client c with exiting := true })
  | .handling c _ commandId =>
    some ({ s with worker := .unlocking c }.put c
      { s.client c with handled := (s.client c).handled ++ [commandId] })
  | .unlocking c =>
    if (s.client c).stage = .pushed then none
    else some ({ s with worker := .popping, rounds := s.rounds + 1 }.put c
      { s.client c with locked := false })
  | .stopped => none

/-- `clients_mutex_` is free. -/
def unlocked (s : ServerState) : Bool :=
  match s.main with
  | .reaping _ | .joining _ _ => false
  | .selecting | .starting _ | .stopped => true

/-- `Server::detachConnection` -/
def detachConnection (s : ServerState) (conn : Nat) : ServerState :=
  { s with
    client := match s.clients.find? fun c => (s.client c).connection == some conn with
      | some c => Function.update s.client c { s.client c with connection := none }
      | none => s.client
    log := s.log ++
      [.uses (upTo (fun _ c => (s.client c).connection == some conn) [] s.clients)] }

/-- The next step of the main thread, from the start of a client on. -/
def stepMain (s : ServerState) (ok : Bool) : Option ServerState :=
  match s.main with
  | .starting c =>
    some ({ s with main := .reaping s.clients }.put c
      { s.client c with stage := if ok then .reading else .created })
  | .reaping [] => some { s with main := .selecting }
  | .reaping (c :: rest) =>
    some ((if (s.client c).exiting then
      { s with clients := s.clients.erase c, main := .joining c rest }
    else { s with main := .reaping rest }).put c (s.client c))
  | .joining c rest =>
    if (s.client c).stage = .ended then
      some { s with main := .reaping rest, log := s.log ++ [.deletes c] }
    else none
  | .selecting | .stopped => none

/-! ## Runs -/

inductive Action
  /-- A new client; whether one comes, or `select` fails. -/
  | accept (commandId : UInt32) (locked : Bool)
  | acceptFails
  | selectFails
  | main (ok : Bool)
  | read (c : Nat) (answer : Option UInt32)
  | client (c : Nat)
  | worker
  /-- `NQ_CONNECT` takes the connection away. -/
  | detach
  /-- Another server takes away a connection of its own. -/
  | detachOther
deriving DecidableEq, Repr

/-- The main thread in `select`, and what comes of it. -/
def select (s : ServerState) (t : ServerState) : Option ServerState :=
  if s.main = .selecting then some t else none

def step (s : ServerState) : Action → Option ServerState
  | .accept commandId locked =>
    s.select ({ s with
      made := s.made + 1
      clients := s.clients ++ [s.made]
      main := .starting s.made }.put s.made (.new s.made commandId locked))
  | .acceptFails => s.select { s with main := .reaping s.clients }
  | .selectFails => s.select { s with main := .stopped, queue := s.queue ++ [none] }
  | .main ok => s.stepMain ok
  | .read c answer =>
    if (s.client c).stage = .reading then
      some (s.read c (s.client c) (if (s.client c).connection = none then none else answer))
    else none
  | .client c => s.stepClient c (s.client c)
  | .worker => s.stepWorker
  | .detach =>
    match s.worker with
    | .handling _ (some conn) commandId =>
      if s.unlocked && commandId = DrvCommand.nqConnect.commandId then
        some (s.detachConnection conn)
      else none
    | _ => none
  | .detachOther => if s.unlocked then some { s with log := s.log ++ [.uses s.clients] } else none

end ServerState

end McDaemon.Daemon.Threads
