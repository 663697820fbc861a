/-
# McDaemon.RootPa.ContentManager — a batch of commands and the session it is executed in.

The handle of the session is kept by the module.  A batch that finds none opens a session of its own
and closes it behind the last command.  A command that fails and may not be ignored returns from
inside the loop, behind which the session would be closed and the last error of the handle handed
to the caller.
-/
import McDaemon.RootPa.CommandRuns

namespace McDaemon.RootPa.ContentManager

open McDaemon.Lib McDaemon.RootPa.Commands

/-! ## The handle -/

/-- `lasterror` of the handle behind the last round of a command: only `tltChannelTransmit` sets
it. -/
def roundLasterror (before : McResult) : Round → McResult
  | .notMapped _ | .notPrepared _ => before
  | .notTransmitted _ lasterror => lasterror
  | .notUnderstood | .notUnmapped _ | .answered => mcDrvOk

/-- `lasterror` of the handle behind a command that has come to `executeOneCmpCommand`.  A round
that leads to another has transmitted without error. -/
def executedLasterror (before : McResult) (m : CmpCommand) : McResult :=
  if m.content.length < 4 || !m.execution.supported then before
  else roundLasterror (if m.execution.retries > 0 then mcDrvOk else before) m.execution.last

/-- The handle of the module with its last error, if a session is open, and what the next attempt to
open one ends with (an error or not). -/
structure Manager where
  handle_ : Option McResult
  tltChannelOpen : Option McResult
deriving DecidableEq, Repr

/-- `openCmtlSession`, when none is open.  A new handle has no error. -/
def openCmtlSession (o : Manager) : RootpaError × Option McResult :=
  match o.tltChannelOpen with
  | none => (.ok, some mcDrvOk)
  | some error =>
    (if error = mcDrvErrNoFreeMemory then .outOfMemory else .mobicoreConnection, none)

/-! ## The batch -/

/-- What the loop has come to: whether it has returned from inside, the result, the last error of
the handle, the responses, and the commands that have been executed. -/
structure Executed where
  returned : Bool
  ret : RootpaError
  lasterror : McResult
  responses : List CmpResponse
  commands : List CmpCommand
deriving DecidableEq, Repr

def Executed.behind (x : Executed) (rsp : CmpResponse) (commands : List CmpCommand) : Executed :=
  { x with responses := rsp :: x.responses, commands := commands ++ x.commands }

/-- The loop over the commands. -/
def executeCommands : RootpaError → McResult → List CmpCommand → Executed
  | ret, lasterror, [] => ⟨false, ret, lasterror, [], []⟩
  | ret, lasterror, m :: rest =>
    if m.content.length > 0 then
      let lasterror := executedLasterror lasterror m
      if m.executed.1 ≠ .ok then
        let rsp := if m.executed.2.ret = .ok then { m.executed.2 with ret := m.executed.1 } else m.executed.2
        if !m.ignoreError then
          ⟨true, m.executed.1, lasterror, rsp :: rest.map fun _ => CmpResponse.blank, [m]⟩
        else (executeCommands m.executed.1 lasterror rest).behind rsp [m]
      else (executeCommands ret lasterror rest).behind m.executed.2 [m]
    else (executeCommands ret lasterror rest).behind m.request []

/-- What a batch returns, and what it leaves: the handle of the module, and the last error of the
handle that the commands were executed on. -/
structure Returned where
  ret : RootpaError
  internalError : McResult
  handle_ : Option McResult
  lasterror : Option McResult
  responses : List CmpResponse
  commands : List CmpCommand
deriving DecidableEq, Repr

/-- The part behind the opening of the session, with its handle. -/
def executeWithHandle (selfOpened : Bool) (lasterror : McResult) (commands : List CmpCommand) :
    Returned :=
  let x := executeCommands .ok lasterror commands
  if x.returned then
    -- neither the error is handed on nor the session closed
    ⟨x.ret, 0, some x.lasterror, some x.lasterror, x.responses, x.commands⟩
  else
    ⟨x.ret, if x.ret ≠ .ok then x.lasterror else 0, if selfOpened then none else some x.lasterror,
      some x.lasterror, x.responses, x.commands⟩

/-- The part behind the opening of the session, without one.  The code that is compared is not the
one that the opening has ended with. -/
def executeWithoutHandle (internalError : McResult) (commands : List CmpCommand) : Returned :=
  ⟨if internalError = mcDrvErrNoFreeMemory then .outOfMemory else .mobicoreConnection,
    internalError, none, none, commands.map fun _ => CmpResponse.blank, []⟩

def executeContentManagementCommands (o : Manager) (commands : List CmpCommand) : Returned :=
  match o.handle_ with
  | some lasterror => executeWithHandle false lasterror commands
  | none =>
    match (openCmtlSession o).2 with
    | some lasterror => executeWithHandle true lasterror commands
    | none => executeWithoutHandle 0 commands

/-- What the batch of a request knows of the module. -/
def Manager.surroundings (o : Manager) (callbackP : Bool) : Surroundings :=
  ⟨o.handle_.isSome, o.tltChannelOpen, callbackP⟩

/-! ## The loop -/

section Loop

variable (ret : RootpaError) (lasterror : McResult) {m : CmpCommand} {rest : List CmpCommand}

/-- The command is executed. -/
def isExecuted (m : CmpCommand) : Bool := m.content.length > 0

/-- The last error of the handle behind the commands. -/
def lasterrorBehind (lasterror : McResult) (commands : List CmpCommand) : McResult :=
  (commands.filter isExecuted).foldl executedLasterror lasterror

theorem executeCommands_cons (m : CmpCommand) :
    executeCommands ret lasterror (m :: rest) =
      if m.content.length > 0 then
        if m.executed.1 ≠ .ok then
          if (!m.ignoreError) = true then
            ⟨true, m.executed.1, executedLasterror lasterror m,
              (if m.executed.2.ret = .ok then { m.executed.2 with ret := m.executed.1 }
                else m.executed.2) :: rest.map fun _ => CmpResponse.blank, [m]⟩
          else
            (executeCommands m.executed.1 (executedLasterror lasterror m) rest).behind
              (if m.executed.2.ret = .ok then { m.executed.2 with ret := m.executed.1 }
                else m.executed.2) [m]
        else (executeCommands ret (executedLasterror lasterror m) rest).behind m.executed.2 [m]
      else (executeCommands ret lasterror rest).behind m.request [] := rfl

theorem executeCommands_stops (h : m.stops = true) :
    executeCommands ret lasterror (m :: rest) =
      ⟨true, m.executed.1, lasterrorBehind lasterror [m],
        m.response :: rest.map fun _ => CmpResponse.blank, [m].filter isExecuted⟩ := by
  obtain ⟨hfails, hignore⟩ := Bool.and_eq_true_iff.mp h
  have hexecuted : m.content.length > 0 ∧ m.executed.1 ≠ .ok := by
    simpa [CmpCommand.fails] using hfails
  have hfilter : [m].filter isExecuted = [m] := by simp [isExecuted, hexecuted.1]
  rw [executeCommands_cons, if_pos hexecuted.1, if_pos hexecuted.2, if_pos hignore, CmpCommand.response,
    if_pos hexecuted.1, lasterrorBehind, hfilter]
  simp only [hfails, true_and, List.foldl_cons, List.foldl_nil]

theorem executeCommands_passes (h : m.stops = false) :
    executeCommands ret lasterror (m :: rest) =
      (executeCommands (if m.fails then m.executed.1 else ret) (lasterrorBehind lasterror [m])
        rest).behind m.response ([m].filter isExecuted) := by
  rw [executeCommands_cons]
  by_cases hlen : m.content.length > 0
  · have hfilter : [m].filter isExecuted = [m] := by simp [isExecuted, hlen]
    rw [if_pos hlen, CmpCommand.response, if_pos hlen, lasterrorBehind, hfilter]
    by_cases hret : m.executed.1 = .ok
    · have hfails : m.fails = false := by simp [CmpCommand.fails, hret]
      rw [if_neg (not_not_intro hret), hfails]
      rfl
    · have hfails : m.fails = true := by simp [CmpCommand.fails, hret, hlen]
      have hignore : m.ignoreError = true := by simpa [CmpCommand.stops, hfails] using h
      rw [if_pos hret, if_neg (by simp [hignore]), hfails]
      simp only [true_and]
      rfl
  · have hfails : m.fails = false := by simp [CmpCommand.fails, hlen]
    have hfilter : [m].filter isExecuted = [] := by simp [isExecuted, hlen]
    rw [if_neg hlen, CmpCommand.response, if_neg hlen, lasterrorBehind, hfilter, hfails]
    rfl

/-- Result and responses are those of the loop that a request is answered with. -/
theorem executeCommands_eq (commands : List CmpCommand) :
    (executeCommands ret lasterror commands).ret = (executeBatch ret commands).ret ∧
      (executeCommands ret lasterror commands).responses =
        (executeBatch ret commands).responses := by
  induction commands generalizing ret lasterror with
  | nil => exact ⟨rfl, rfl⟩
  | cons m rest ih =>
    cases hstops : m.stops with
    | true =>
      rw [executeCommands_stops ret lasterror hstops, executeBatch_stops ret hstops]
      exact ⟨rfl, rfl⟩
    | false =>
      rw [executeCommands_passes ret lasterror hstops, executeBatch_passes ret hstops]
      obtain ⟨hret, hresponses⟩ := ih (if m.fails then m.executed.1 else ret)
        (lasterrorBehind lasterror [m])
      exact ⟨hret, congrArg (List.cons _) hresponses⟩

theorem batched_of_stops (h : m.stops = true) : batched (m :: rest) = [m] :=
  upTo_cons_of_stops h

theorem batched_of_passes (h : m.stops = false) : batched (m :: rest) = m :: batched rest := by
  have hbefore := upTo_map (g := id) (r := CmpCommand.stops) (l := rest) [] [m]
  rw [List.map_id, List.map_id] at hbefore
  rw [batched, upTo_cons_of_passes (p := fun _ => CmpCommand.stops) h]
  exact congrArg (List.cons m) hbefore

/-- **What the loop has done.**  It has executed the commands up to the first that fails and may not
be ignored, and returned from inside if there is one. -/
theorem executeCommands_spec (commands : List CmpCommand) :
    (executeCommands ret lasterror commands).returned = (commands.find? CmpCommand.stops).isSome ∧
      (∀ m, commands.find? CmpCommand.stops = some m →
        (executeCommands ret lasterror commands).ret = m.executed.1) ∧
      (executeCommands ret lasterror commands).lasterror =
        lasterrorBehind lasterror (batched commands) ∧
      (executeCommands ret lasterror commands).commands =
        (batched commands).filter isExecuted := by
  induction commands generalizing ret lasterror with
  | nil => exact ⟨rfl, nofun, rfl, rfl⟩
  | cons m rest ih =>
    cases hstops : m.stops with
    | true =>
      have hfind : (m :: rest).find? CmpCommand.stops = some m := List.find?_cons_of_pos hstops
      rw [executeCommands_stops ret lasterror hstops, hfind, batched_of_stops hstops]
      refine ⟨rfl, fun m' hm' => ?_, rfl, rfl⟩
      rw [Option.some.inj hm']
    | false =>
      have hfind : (m :: rest).find? CmpCommand.stops = rest.find? CmpCommand.stops :=
        List.find?_cons_of_neg (by simp [hstops])
      have hfilter : (m :: batched rest).filter isExecuted =
          [m].filter isExecuted ++ (batched rest).filter isExecuted :=
        List.filter_append (p := isExecuted) [m] (batched rest)
      obtain ⟨hreturned, hret, hlasterror, hcommands⟩ :=
        ih (if m.fails then m.executed.1 else ret) (lasterrorBehind lasterror [m])
      rw [executeCommands_passes ret lasterror hstops, hfind, batched_of_passes hstops]
      refine ⟨hreturned, hret, ?_, ?_⟩
      · show _ = ((m :: batched rest).filter isExecuted).foldl executedLasterror lasterror
        rw [hfilter, List.foldl_append]
        exact hlasterror
      · rw [hfilter]
        exact congrArg (_ ++ ·) hcommands

end Loop

/-- Result and responses are those of the batch that a request is answered with. -/
theorem executeContentManagementCommands_eq (o : Manager) (callbackP : Bool)
    (commands : List CmpCommand) :
    (executeContentManagementCommands o commands).ret =
        (Commands.executeContentManagementCommands (o.surroundings callbackP) commands).ret ∧
      (executeContentManagementCommands o commands).responses =
        (Commands.executeContentManagementCommands (o.surroundings callbackP) commands).responses := by
  have hhandle : ∀ selfOpened lasterror,
      (executeWithHandle selfOpened lasterror commands).ret = (executeBatch .ok commands).ret ∧
        (executeWithHandle selfOpened lasterror commands).responses =
          (executeBatch .ok commands).responses := by
    intro selfOpened lasterror
    obtain ⟨hret, hresponses⟩ := executeCommands_eq .ok lasterror commands
    unfold executeWithHandle
    dsimp only
    split
    · exact ⟨hret, hresponses⟩
    · exact ⟨hret, hresponses⟩
  obtain ⟨handle, opened⟩ := o
  cases handle with
  | some lasterror => exact hhandle false lasterror
  | none =>
    cases opened with
    | none => exact hhandle true mcDrvOk
    | some error => exact ⟨rfl, rfl⟩

/-! ## The session behind the batch -/

/-- The session that the commands are executed in, with the last error of its handle. -/
def Manager.session (o : Manager) : Option McResult :=
  match o.handle_ with
  | some lasterror => some lasterror
  | none => (openCmtlSession o).2

/-- The batch leaves the module as it has found it, and its result is that of the first command that
fails and may not be ignored. -/
structure LeavesAsFound (o : Manager) (commands : List CmpCommand) : Prop where
  session : (executeContentManagementCommands o commands).handle_.isSome = o.handle_.isSome
  ret : ∀ m, commands.find? CmpCommand.stops = some m → o.session.isSome = true →
    (executeContentManagementCommands o commands).ret = m.executed.1
  executed : (executeContentManagementCommands o commands).commands =
    if o.session.isSome then (batched commands).filter isExecuted else []
  internalError : (executeContentManagementCommands o commands).ret ≠ .ok → ∀ error,
    (executeContentManagementCommands o commands).lasterror = some error →
      (executeContentManagementCommands o commands).internalError = error

/-- If a command fails that may not be ignored, the session was open before and the failure has left
no error in its handle. -/
def FailsQuietly (o : Manager) (commands : List CmpCommand) : Prop :=
  ∀ m, commands.find? CmpCommand.stops = some m → ∀ lasterror, o.session = some lasterror →
    o.handle_.isSome = true ∧ lasterrorBehind lasterror (batched commands) = mcDrvOk

theorem ret_executeWithHandle (selfOpened : Bool) (lasterror : McResult)
    (commands : List CmpCommand) : (executeWithHandle selfOpened lasterror commands).ret =
      (executeCommands .ok lasterror commands).ret ∧
    (executeWithHandle selfOpened lasterror commands).commands =
      (executeCommands .ok lasterror commands).commands ∧
    (executeWithHandle selfOpened lasterror commands).lasterror =
      some (executeCommands .ok lasterror commands).lasterror := by
  unfold executeWithHandle
  dsimp only
  split
  · exact ⟨rfl, rfl, rfl⟩
  · exact ⟨rfl, rfl, rfl⟩

theorem executed_ne_ok_of_stops {m : CmpCommand} (h : m.stops = true) : m.executed.1 ≠ .ok := by
  have hfails := (Bool.and_eq_true_iff.mp h).1
  exact of_decide_eq_true (Bool.and_eq_true_iff.mp hfails).2

/-- What is left of a batch that has a session to be executed in. -/
theorem leaves_executeWithHandle_iff (selfOpened : Bool) (lasterror : McResult)
    (commands : List CmpCommand) :
    ((executeWithHandle selfOpened lasterror commands).handle_.isSome = !selfOpened ∧
      ((executeWithHandle selfOpened lasterror commands).ret ≠ .ok → ∀ error,
        (executeWithHandle selfOpened lasterror commands).lasterror = some error →
          (executeWithHandle selfOpened lasterror commands).internalError = error)) ↔
      ∀ m, commands.find? CmpCommand.stops = some m →
        selfOpened = false ∧ lasterrorBehind lasterror (batched commands) = mcDrvOk := by
  obtain ⟨hreturned, hret, hlasterror, -⟩ := executeCommands_spec .ok lasterror commands
  cases hfind : commands.find? CmpCommand.stops with
  | none =>
    -- the loop comes to its end
    rw [hfind] at hreturned
    refine iff_of_true ?_ nofun
    unfold executeWithHandle
    dsimp only
    rw [if_neg (by simp [hreturned])]
    refine ⟨?_, fun hne error herror => ?_⟩
    · cases selfOpened with
      | true => rfl
      | false => rfl
    · rw [if_pos hne]
      exact Option.some.inj herror
  | some m =>
    replace hreturned : (executeCommands .ok lasterror commands).returned = true := by
      rw [hreturned, hfind]
      rfl
    have hne : (executeCommands .ok lasterror commands).ret ≠ .ok := by
      rw [hret m hfind]
      exact executed_ne_ok_of_stops (List.find?_some hfind)
    unfold executeWithHandle
    dsimp only
    rw [if_pos hreturned, ← hlasterror]
    constructor
    · rintro ⟨hopen, herror⟩ _ _
      refine ⟨?_, (herror hne _ rfl).symm⟩
      cases selfOpened with
      | true => cases hopen
      | false => rfl
    · intro h
      obtain ⟨rfl, hquiet⟩ := h m rfl
      refine ⟨rfl, fun _ error herror => ?_⟩
      rw [← Option.some.inj herror, hquiet]
      rfl

/-- **When a batch leaves the session as it was.**  Exactly when no command fails that may not be
ignored, or it does so in a session that was open before and whose handle then has no error. -/
theorem leavesAsFound_iff (o : Manager) (commands : List CmpCommand) :
    LeavesAsFound o commands ↔ FailsQuietly o commands := by
  have hwith : ∀ selfOpened lasterror, o.session = some lasterror →
      o.handle_.isSome = !selfOpened →
      executeContentManagementCommands o commands =
        executeWithHandle selfOpened lasterror commands →
      (LeavesAsFound o commands ↔ FailsQuietly o commands) := by
    intro selfOpened lasterror hsession hhandle hrun
    obtain ⟨-, hret, -, hcommands⟩ := executeCommands_spec .ok lasterror commands
    obtain ⟨hsameRet, hsameCommands, -⟩ := ret_executeWithHandle selfOpened lasterror commands
    have hiff := leaves_executeWithHandle_iff selfOpened lasterror commands
    have hquiet : FailsQuietly o commands ↔ ∀ m, commands.find? CmpCommand.stops = some m →
        selfOpened = false ∧ lasterrorBehind lasterror (batched commands) = mcDrvOk := by
      refine forall₂_congr fun m _ => ?_
      rw [hsession, hhandle]
      simp
    rw [hquiet, ← hiff, ← hhandle]
    constructor
    · intro h
      have hleft := h.session
      have herror := h.internalError
      rw [hrun] at hleft herror
      exact ⟨hleft, herror⟩
    · rintro ⟨hleft, herror⟩
      rw [← hrun] at hleft herror hsameRet hsameCommands
      refine ⟨hleft, fun m hm _ => hsameRet.trans (hret m hm), ?_, herror⟩
      rw [hsameCommands, hcommands, hsession]
      rfl
  obtain ⟨handle, opened⟩ := o
  cases handle with
  | some lasterror => exact hwith false lasterror rfl rfl rfl
  | none =>
    cases opened with
    | none => exact hwith true mcDrvOk rfl rfl rfl
    | some error =>
      -- there is no session
      refine iff_of_true ⟨rfl, fun _ _ h => ?_, rfl, fun _ _ h => ?_⟩ fun _ _ _ h => ?_
      · cases h
      · cases h
      · cases h

/-! ## A command that fails -/

/-- A command that the trustlet is not notified of. -/
def failingCommand : CmpCommand where
  id := 1
  ignoreError := false
  content := [0, 0, 0, 0]
  execution :=
    { supported := true
      retries := 0
      last := .notTransmitted false mcDrvErrDaemonUnreachable
      answer := ⟨false, none, 0, 0⟩
      unmaps := true }

/-- Nobody has opened a session before. -/
def closedManager : Manager := ⟨none, none⟩

/-- The batch returns the error with its session open, and without the code behind the error. -/
theorem not_leavesAsFound_failingCommand :
    (executeContentManagementCommands closedManager [failingCommand]).ret = .mobicoreConnection ∧
      (executeContentManagementCommands closedManager [failingCommand]).internalError = mcDrvOk ∧
      ¬ LeavesAsFound closedManager [failingCommand] := by
  refine ⟨by decide, by decide, fun h => ?_⟩
  exact absurd h.session (by decide)

end McDaemon.RootPa.ContentManager
