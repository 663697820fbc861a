/-
# McDaemon.Daemon.McpExclusion — who may write into `mcpMessage`, and when.

The worker thread of the socket server, the netlink server thread and the TA-exit handler all
send commands to MobiCore through the one `mcpMessage`.  Each command of the dispatcher
`handleCommand` and each of the two clean-up paths is written down here as a script: the mutexes
that it and its callees take, and the exchanges that it makes.  All exchanges are made under
`mutex_mcp` but one: `loadToken` is called by the registry commands, which hold `reg_mutex` only.
-/
import McDaemon.Daemon.Command
import McDaemon.Lib.Exchange

namespace McDaemon.Daemon

open McDaemon.Lib

/-! ## Threads, mutexes, commands -/

/-- The threads that call into the daemon after start-up.  A client thread is one per socket
client and handles nothing but `NOTIFY`. -/
inductive DaemonThread
  | socketWorker
  | netlinkServer
  | taExitHandler
  | client (n : Nat)
deriving DecidableEq, Repr

inductive DaemonMutex
  | mutexMcp
  | regMutex
  | siqMutex
deriving DecidableEq, Repr

/-- The commands that the daemon writes into `mcpMessage`. -/
inductive McpCommand
  | openSession
  | closeSession
  | map
  | unmap
  | checkLoadTa
  | getMobiCoreVersion
  | loadToken
deriving DecidableEq, Repr

/-- What a thread takes up: a command read from a client, a connection to be dropped, or a pass of
the TA-exit handler. -/
inductive Request
  | command (c : DrvCommand)
  | dropConnection
  | handleTaExit
deriving DecidableEq, Repr

abbrev McpScript := Script DaemonMutex McpCommand

/-! ## Handlers -/

/-- `MobiCoreDevice::openSession`.  The TCI fields of the command are written before the checks of
the TCI are over. -/
def openSession (k : McpScript) : McpScript :=
  .branch k (.write .openSession
    (.branch (.giveUp k) (.notify (.await (.read k) (.giveUp k)))))

/-- `MobiCoreDevice::closeSession`.  A GP session that died while it was being closed is closed a
second time. -/
def closeSession (k : McpScript) : McpScript :=
  .branch k (.write .closeSession (.notify
    (.await (.read (.branch k (.exchange .closeSession k))) (.giveUp k))))

/-- A device function that may return before it writes its command. -/
def exchangeOrReturn (c : McpCommand) (k : McpScript) : McpScript := .branch k (.exchange c k)

/-- A handler under one of the dispatcher's mutexes. -/
def underMutex (m : DaemonMutex) (body : McpScript → McpScript) : McpScript :=
  .lock m (body (.unlock m .done))

/-- The loop of `MobiCoreDevice::close`: any number of exchanges, until no session is left. -/
def closeDevice (k : McpScript) : McpScript := .exchanges .closeSession k

/-- `MobiCoreDriverDaemon::loadToken`, which returns early when the token cannot be registered. -/
def loadToken (k : McpScript) : McpScript := exchangeOrReturn .loadToken k

/-- `processLoadCheck` and `MobiCoreDevice::checkLoad`, which takes `mutex_mcp` itself. -/
def processLoadCheck (k : McpScript) : McpScript :=
  .branch k (.lock .mutexMcp (.exchange .checkLoadTa (.unlock .mutexMcp k)))

/-- `MobiCoreDriverDaemon::handleCommand`. -/
def handleCommand : DrvCommand → McpScript
  | .openDevice => underMutex .mutexMcp fun k => k
  | .closeDevice => underMutex .mutexMcp closeDevice
  | .openSession => underMutex .mutexMcp openSession
  | .openTrustlet => underMutex .mutexMcp openSession
  | .openTrustedApp => underMutex .mutexMcp openSession
  | .closeSession => underMutex .mutexMcp closeSession
  | .nqConnect => underMutex .siqMutex fun k => k
  | .notify => underMutex .siqMutex fun k => k
  | .mapBulkBuf => underMutex .mutexMcp (exchangeOrReturn .map)
  | .unmapBulkBuf => underMutex .mutexMcp (exchangeOrReturn .unmap)
  | .getVersion => .done
  | .getMobiCoreVersion => underMutex .mutexMcp (exchangeOrReturn .getMobiCoreVersion)
  | .regStoreAuthToken => underMutex .regMutex loadToken
  | .regWriteRootCont => underMutex .regMutex loadToken
  | .regWriteSpCont => underMutex .regMutex fun k => k
  | .regWriteTlCont => underMutex .regMutex fun k => k
  | .regWriteSoData => underMutex .regMutex fun k => k
  | .regStoreTaBlob => underMutex .regMutex processLoadCheck
  | .regReadAuthToken => underMutex .regMutex fun k => k
  | .regReadRootCont => underMutex .regMutex fun k => k
  | .regReadSpCont => underMutex .regMutex fun k => k
  | .regReadTlCont => underMutex .regMutex fun k => k
  | .regDeleteAuthToken => underMutex .regMutex fun k => k
  -- installEndorsementToken
  | .regDeleteRootCont => underMutex .regMutex loadToken
  | .regDeleteSpCont => underMutex .regMutex fun k => k
  | .regDeleteTlCont => underMutex .regMutex fun k => k

/-- `MobiCoreDriverDaemon::dropConnection`, which does nothing without an open device. -/
def dropConnection : McpScript := .branch .done (underMutex .mutexMcp closeDevice)

/-- One pass of `TrustZoneDevice::handleTaExit`: the dead sessions are closed one by one. -/
def handleTaExit : McpScript := underMutex .mutexMcp fun k => .exchanges .closeSession k

def Request.script : Request → McpScript
  | .command c => handleCommand c
  | .dropConnection => Daemon.dropConnection
  | .handleTaExit => Daemon.handleTaExit

/-- Who takes up what.  After a fault `readCommand` lets no command through. -/
def DaemonThread.takes : DaemonThread → Request → Bool → Bool
  | .socketWorker, .command _, mcFault | .netlinkServer, .command _, mcFault => !mcFault
  | .socketWorker, .dropConnection, _ | .netlinkServer, .dropConnection, _ => true
  | .taExitHandler, .handleTaExit, _ => true
  | .client _, .command c, mcFault => decide (c = .notify) && !mcFault
  | _, _, _ => false

/-- The mutex under which the daemon writes a command. -/
def McpCommand.guard : McpCommand → DaemonMutex
  | .loadToken => .regMutex
  | _ => .mutexMcp

/-- The MCP buffer as the daemon's threads use it. -/
def mcpBus : Bus DaemonThread DaemonMutex McpCommand Request where
  guard := McpCommand.guard
  script := Request.script
  takes := DaemonThread.takes

abbrev McpState := BusState DaemonThread DaemonMutex McpCommand

abbrev McpAction := BusAction DaemonThread Request

/-! ## Exclusion -/

/-- Every handler releases what it takes and writes only under the guard of its command. -/
theorem script_check (r : Request) : r.script.check McpCommand.guard [] none = true := by
  cases r with
  | command c => cases c <;> rfl
  | dropConnection => rfl
  | handleTaExit => rfl

/-- No step writes `LOAD_TOKEN` while another command is in flight, or another command while
`LOAD_TOKEN` is in flight. -/
def LoadTokenApart (s : McpState) : McpAction → Prop
  | .advance t _ =>
    match s.script t with
    | .write c _ => ∀ u e, u ≠ t → s.exchange u = some e →
        (e.command = .loadToken ↔ c = .loadToken)
    | _ => True
  | _ => True

theorem guard_eq_guard_iff (c d : McpCommand) :
    c.guard = d.guard ↔ (c = .loadToken ↔ d = .loadToken) := by
  cases c <;> cases d <;> decide

theorem sameGuard_iff_loadTokenApart (s : McpState) (a : McpAction) :
    mcpBus.SameGuard s a ↔ LoadTokenApart s a := by
  cases a with
  | advance t choice =>
    cases hscript : s.script t with
    | write c k => simp only [Bus.SameGuard, LoadTokenApart, hscript, mcpBus, guard_eq_guard_iff]
    | _ => simp only [Bus.SameGuard, LoadTokenApart, hscript]
  | _ => exact Iff.rfl

/-- **Exclusion of the MCP exchanges.** In a run of the daemon's threads no command is written
while the response to another command has still to be read, and each response read belongs to the
command that reads it, exactly when `LOAD_TOKEN` is never written into another command's exchange,
nor another command into an exchange of `LOAD_TOKEN`. -/
theorem mcpExclusion_iff_loadTokenApart (as : List McpAction) :
    mcpBus.machine.RunMeets Bus.Undisturbed .idle as ↔
      mcpBus.machine.RunMeets LoadTokenApart .idle as := by
  have hguard : mcpBus.SameGuard = LoadTokenApart := by
    funext s a
    exact propext (sameGuard_iff_loadTokenApart s a)
  rw [← hguard]
  exact Bus.undisturbed_iff_sameGuard script_check as

/-- The netlink server waits for the answer to an open while the socket worker stores an
authentication token, up to the point where the netlink server reads. -/
def loadTokenRun : List McpAction :=
  [.start .netlinkServer (.command .openSession), .advance .netlinkServer true,
   .advance .netlinkServer false, .advance .netlinkServer true, .advance .netlinkServer false,
   .advance .netlinkServer true,
   .start .socketWorker (.command .regStoreAuthToken), .advance .socketWorker true,
   .advance .socketWorker false, .advance .socketWorker true,
   .answer, .advance .netlinkServer true]

/-- The token is written over the open command, and the netlink server is about to read the
response to `LOAD_TOKEN`. -/
theorem mcpExclusion_loadToken :
    ∃ t, mcpBus.machine.run .idle loadTokenRun = some t ∧
      t.script .netlinkServer = .read (.unlock .mutexMcp .done) ∧
      t.exchange .netlinkServer = some ⟨.openSession, 0, .answered⟩ ∧
      t.exchange .socketWorker = some ⟨.loadToken, 1, .written⟩ ∧
      t.buffer = some ⟨1, true⟩ ∧
      ¬ mcpBus.machine.RunMeets Bus.Undisturbed .idle loadTokenRun := by
  refine ⟨_, rfl, rfl, rfl, rfl, rfl, fun hrun => ?_⟩
  have hwrite := hrun.2.2.2.2.2.2.2.2.2.1 .netlinkServer (by decide)
  cases hwrite

end McDaemon.Daemon
