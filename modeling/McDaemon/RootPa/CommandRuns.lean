/-
# McDaemon.RootPa.CommandRuns — the loops over commands, each as a run up to where it stops.

The loop over the document, the loop over the batch and the two loops over the results each have
their own idea of when to stop.  Here each of them is what one command gives it, over the commands
that it gets to.
-/
import McDaemon.RootPa.CommandList
import McDaemon.Lib.Cutoff

namespace McDaemon.RootPa.Commands

open McDaemon.Lib

/-- What is handed on. -/
def Operation.data : Operation → List UInt8
  | .cmpCommand content => content
  | .authToken container _ => container
  | .trustlet container => container

/-! ## The document -/

namespace Command

/-- The entry of the batch. -/
def cmpCommand (c : Command) : CmpCommand :=
  ⟨c.getCommandId, c.getCommandIgnoreError, c.data, c.cmp⟩

/-- A CMP command that gets into the batch. -/
def isBatched (c : Command) : Bool := c.isCmp && c.commandValue.isSome

/-- The upload counts as failed. -/
def uploadFails (s : Surroundings) (c : Command) : Bool := (handleUploadCommand s c).ret ≠ .ok

end Command

/-- The first CMP command has no value. -/
def startsEmpty (commands : List Command) : Bool :=
  (commands.filter Command.isCmp).head?.any fun c => c.commandValue.isNone

/-- The last upload has failed. -/
def endsFailing (s : Surroundings) (commands : List Command) : Bool :=
  (commands.filter Command.isUpload).getLast?.any (Command.uploadFails s)

/-- The document is not read behind `c`, when the commands `before` have gone before it. -/
def leaves (s : Surroundings) (before : List Command) (c : Command) : Bool :=
  startsEmpty (before ++ [c]) ||
    (!c.isCmp && !c.getCommandIgnoreError && endsFailing s (before ++ [c]))

/-- What the commands of a document leave when all of them are read. -/
def collected (s : Surroundings) (commands : List Command) : Parsed where
  ret := if startsEmpty commands then .outOfMemory else .ok
  cmpCommands :=
    if commands.filter Command.isCmp = [] then none
    else some ((commands.filter Command.isBatched).map Command.cmpCommand)
  uploadCommands := (commands.filter Command.isUpload).map (handleUploadCommand s)
  operations := (commands.filter Command.isUpload).flatMap (uploadOperations s)

theorem extractCmpCommand_eq (commands : List Command) (c : Command) (hc : c.isCmp = true)
    (s : Surroundings) :
    extractCmpCommand (collected s commands).cmpCommands c =
      ((commands ++ [c]).filter Command.isBatched).map Command.cmpCommand := by
  have hgetD : (collected s commands).cmpCommands.getD [] =
      (commands.filter Command.isBatched).map Command.cmpCommand := by
    show (if _ then none else some _).getD [] = _
    by_cases hnil : commands.filter Command.isCmp = []
    · have hbatched : commands.filter Command.isBatched = [] := by
        rw [List.filter_eq_nil_iff] at hnil ⊢
        intro d hd hb
        exact hnil d hd (Bool.and_eq_true_iff.mp hb).1
      rw [if_pos hnil, hbatched]
      rfl
    · rw [if_neg hnil, Option.getD_some]
  rw [List.filter_append, List.map_append, ← hgetD]
  cases hvalue : c.commandValue with
  | none => simp [extractCmpCommand, hvalue, Command.isBatched]
  | some text => simp [extractCmpCommand, hvalue, Command.isBatched, hc, Command.cmpCommand]

theorem batched_eq_filter (commands : List Command) :
    commands.filter Command.isBatched =
      (commands.filter Command.isCmp).filter fun c => c.commandValue.isSome := by
  rw [List.filter_filter]
  exact List.filter_congr fun c _ => Bool.and_comm _ _

/-- The return code is set when a CMP command leaves the batch empty. -/
theorem ret_collected (s : Surroundings) (commands : List Command) (c : Command)
    (hc : c.isCmp = true) :
    (if extractCmpCommand (collected s commands).cmpCommands c = [] then RootpaError.outOfMemory
      else (collected s commands).ret) = (collected s (commands ++ [c])).ret := by
  show (if _ then _ else if startsEmpty commands = true then _ else _) =
    if startsEmpty (commands ++ [c]) = true then _ else _
  rw [extractCmpCommand_eq commands c hc, batched_eq_filter]
  simp only [startsEmpty, List.filter_append, List.filter_cons_of_pos hc, List.filter_nil]
  by_cases hcmps : commands.filter Command.isCmp = []
  · by_cases hvalue : c.commandValue = none <;> simp [hcmps, hvalue]
  · obtain ⟨d, cmps, hcmps⟩ := List.exists_cons_of_ne_nil hcmps
    by_cases hvalue : d.commandValue = none <;> simp [hcmps, hvalue]

theorem take_collected (s : Surroundings) (commands : List Command) (c : Command) :
    (collected s commands).take s c = collected s (commands ++ [c]) := by
  have hupload (h : c.isUpload = true) (hc : c.isCmp = false) :
      { collected s commands with
        uploadCommands := (collected s commands).uploadCommands ++ [handleUploadCommand s c]
        operations := (collected s commands).operations ++ uploadOperations s c } =
      collected s (commands ++ [c]) := by
    simp [collected, startsEmpty, List.filter_append, h, hc, Command.isBatched]
  cases htype : c.type with
  | cmp =>
    have hc : c.isCmp = true := by simp [Command.isCmp, htype]
    have hu : c.isUpload = false := by simp [Command.isUpload, htype]
    have hextract := extractCmpCommand_eq commands c hc s
    have hret := ret_collected s commands c hc
    have htake : (collected s commands).take s c =
        { collected s commands with
          cmpCommands := some (extractCmpCommand (collected s commands).cmpCommands c)
          ret := if extractCmpCommand (collected s commands).cmpCommands c = [] then .outOfMemory
            else (collected s commands).ret } := by
      simp only [Parsed.take, htype]
    rw [htake, hret, hextract]
    simp [collected, List.filter_append, hc, hu]
  | soUpload =>
    have hu : c.isUpload = true := by simp [Command.isUpload, htype]
    have hc : c.isCmp = false := by simp [Command.isCmp, htype]
    rw [← hupload hu hc]
    simp only [Parsed.take, htype]
  | tltUpload =>
    have hu : c.isUpload = true := by simp [Command.isUpload, htype]
    have hc : c.isCmp = false := by simp [Command.isCmp, htype]
    rw [← hupload hu hc]
    simp only [Parsed.take, htype]
  | unknown =>
    have hu : c.isUpload = false := by simp [Command.isUpload, htype]
    have hc : c.isCmp = false := by simp [Command.isCmp, htype]
    simp only [Parsed.take, htype]
    simp [collected, startsEmpty, List.filter_append, hu, hc, Command.isBatched]

theorem breaks_collected (s : Surroundings) (before : List Command) (c : Command) :
    (collected s (before ++ [c])).breaks c = leaves s before c := by
  have hret : decide ((collected s (before ++ [c])).ret = .outOfMemory) =
      startsEmpty (before ++ [c]) := by
    show decide ((if startsEmpty (before ++ [c]) = true then _ else _) = _) = _
    by_cases h : startsEmpty (before ++ [c]) = true <;> simp [h]
  have hfails : (collected s (before ++ [c])).lastUploadFails = endsFailing s (before ++ [c]) := by
    show (List.map _ _).getLast?.any _ = _
    rw [List.getLast?_map, Option.any_map]
    rfl
  rw [Parsed.breaks, hret, hfails]
  rfl

/-- The commands that the loop over the document gets to. -/
def read (s : Surroundings) (commands : List Command) : List Command :=
  upTo (leaves s) [] commands

/-- **Parsing** collects what the commands leave that the loop gets to. -/
theorem parseCommands_eq (s : Surroundings) (commands : List Command) :
    parseCommands s ⟨.ok, none, [], []⟩ commands = collected s (read s commands) := by
  have general : ∀ commands before : List Command,
      parseCommands s (collected s before) commands =
        collected s (before ++ upTo (leaves s) before commands) := by
    intro commands
    induction commands with
    | nil =>
      intro before
      rw [upTo_nil, List.append_nil]
      rfl
    | cons c rest ih =>
      intro before
      rw [parseCommands, take_collected, breaks_collected]
      by_cases hleaves : leaves s before c = true
      · rw [if_pos hleaves, upTo_cons_of_stops hleaves]
      · have hpasses : leaves s before c = false := by simpa using hleaves
        rw [if_neg hleaves, ih, upTo_cons_of_passes hpasses]
        simp
  exact general commands []

/-! ## One command of the batch -/

/-- What the execution of a command does with its response: the header keeps its place, and has no
error when the execution has none. -/
structure Answers (rsp : CmpResponse) (r : RootpaError × CmpResponse) : Prop where
  allocates : r.1 ≠ .outOfMemory
  id : r.2.id = rsp.id
  ignoreError : r.2.ignoreError = rsp.ignoreError
  ok : r.1 = .ok → r.2.ret = .ok

theorem handleResponse_answers (a : Answer) {rsp : CmpResponse} (h : rsp.ret = .ok) :
    Answers rsp (handleResponse a rsp) := by
  unfold handleResponse
  by_cases hvalid : a.valid = true
  · rw [if_neg (by simp [hvalid])]
    cases a.content with
    | none => exact ⟨by simp, rfl, rfl, by simp⟩
    | some bytes =>
      dsimp only
      split_ifs with hcode hstored hmissing
      -- the trustlet refuses, all is stored, a container is missing, one cannot be stored
      · exact ⟨by simp, rfl, rfl, by simp⟩
      · exact ⟨by simp, rfl, rfl, fun _ => h⟩
      · exact ⟨by simp, rfl, rfl, by simp⟩
      · exact ⟨by simp, rfl, rfl, by simp⟩
  · rw [if_pos (by simp [hvalid])]
    exact ⟨by simp, rfl, rfl, by simp⟩

theorem finish_answers (e : CmpExecution) {rsp : CmpResponse} {p : RootpaError × CmpResponse}
    (h : Answers rsp p) : Answers rsp (e.finish p) := by
  have hfst : (e.finish p).1 = if e.unmaps then p.1 else .mobicoreConnection := rfl
  have hsnd : (e.finish p).2 =
      if p.2.ret = .ok then { p.2 with ret := (e.finish p).1 } else p.2 := rfl
  refine ⟨?_, ?_, ?_, fun hok => ?_⟩
  · rw [hfst]
    split_ifs
    · exact h.allocates
    · simp
  · rw [hsnd]
    split_ifs <;> exact h.id
  · rw [hsnd]
    split_ifs <;> exact h.ignoreError
  · rw [hsnd]
    by_cases hp : p.2.ret = .ok
    · rw [if_pos hp]
      exact hok
    · -- the buffer is unmapped, so the result is that of the response
      rw [hfst] at hok
      by_cases hunmaps : e.unmaps = true
      · rw [if_pos hunmaps] at hok
        exact absurd (h.ok hok) hp
      · rw [if_neg hunmaps] at hok
        exact absurd hok (by simp)

theorem Round.ret_ne (r : Round) : r.ret ≠ .outOfMemory := by
  cases r with
  | notPrepared mcRet =>
    show (if _ then _ else _) ≠ _
    split_ifs <;> simp
  | _ => simp [Round.ret]

theorem executeOneCmpCommand_answers (content : List UInt8) (e : CmpExecution)
    (rsp : CmpResponse) : Answers rsp (executeOneCmpCommand content e rsp) := by
  unfold executeOneCmpCommand
  by_cases hshort : content.length < 4
  · rw [if_pos hshort]
    exact ⟨by simp, rfl, rfl, by simp⟩
  rw [if_neg hshort]
  by_cases hsupported : e.supported = true
  · rw [if_neg (by simp [hsupported])]
    by_cases hlast : e.last.ret = .ok
    · rw [if_neg (by simp [hlast])]
      have hanswer : Answers { rsp with ret := .ok, intRet := 0 }
          (handleResponse e.answer { rsp with ret := .ok, intRet := 0 }) :=
        handleResponse_answers e.answer rfl
      exact finish_answers e ⟨hanswer.allocates, hanswer.id, hanswer.ignoreError, hanswer.ok⟩
    · rw [if_pos hlast]
      apply finish_answers
      exact ⟨e.last.ret_ne, rfl, rfl, id⟩
  · rw [if_pos (by simp [hsupported])]
    exact ⟨by simp, rfl, rfl, by simp⟩

namespace CmpCommand

/-- The response before the command is executed. -/
def request (m : CmpCommand) : CmpResponse :=
  { CmpResponse.blank with id := m.id, ignoreError := m.ignoreError }

def executed (m : CmpCommand) : RootpaError × CmpResponse :=
  executeOneCmpCommand m.content m.execution m.request

/-- The command is executed, and fails. -/
def fails (m : CmpCommand) : Bool := m.content.length > 0 && m.executed.1 ≠ .ok

/-- The batch ends behind the command. -/
def stops (m : CmpCommand) : Bool := m.fails && !m.ignoreError

/-- The response, once the batch has got to the command. -/
def response (m : CmpCommand) : CmpResponse :=
  if m.content.length > 0 then
    if m.fails ∧ m.executed.2.ret = .ok then { m.executed.2 with ret := m.executed.1 }
    else m.executed.2
  else m.request

def operations (m : CmpCommand) : List Operation :=
  if m.content.length > 0 then cmpOperations m.content m.execution else []

theorem executed_answers (m : CmpCommand) : Answers m.request m.executed :=
  executeOneCmpCommand_answers m.content m.execution m.request

theorem response_id (m : CmpCommand) : m.response.id = m.id := by
  unfold response
  split_ifs
  · exact m.executed_answers.id
  · exact m.executed_answers.id
  · rfl

theorem response_ignoreError (m : CmpCommand) : m.response.ignoreError = m.ignoreError := by
  unfold response
  split_ifs
  · exact m.executed_answers.ignoreError
  · exact m.executed_answers.ignoreError
  · rfl

/-- The response has an error exactly when the command has failed.  An empty command has not. -/
theorem response_ret (m : CmpCommand) : m.response.ret ≠ .ok ↔ m.fails = true := by
  unfold response
  by_cases hlen : m.content.length > 0
  · rw [if_pos hlen]
    by_cases hfails : m.fails = true
    · have hret : m.executed.1 ≠ .ok := by simpa [fails, hlen] using hfails
      refine iff_of_true ?_ hfails
      split_ifs with hok
      · exact hret
      · exact fun h => hok ⟨hfails, h⟩
    · have hret : m.executed.1 = .ok := by simpa [fails, hlen] using hfails
      rw [if_neg fun h => hfails h.1]
      exact iff_of_false (not_not_intro (m.executed_answers.ok hret)) hfails
  · rw [if_neg hlen]
    exact iff_of_false (not_not_intro rfl) (by simp [fails, hlen])

end CmpCommand

/-! ## The batch and its results -/

/-- The commands of a batch that the loop gets to. -/
def batched (commands : List CmpCommand) : List CmpCommand :=
  upTo (fun _ => CmpCommand.stops) [] commands

theorem executeBatch_cons (ret : RootpaError) (m : CmpCommand) (rest : List CmpCommand) :
    executeBatch ret (m :: rest) =
      if m.content.length > 0 then
        if m.executed.1 ≠ .ok then
          if (!m.ignoreError) = true then
            ⟨m.executed.1, (if m.executed.2.ret = .ok then { m.executed.2 with ret := m.executed.1 }
              else m.executed.2) :: rest.map fun _ => CmpResponse.blank,
              cmpOperations m.content m.execution⟩
          else
            (executeBatch m.executed.1 rest).behind
              (if m.executed.2.ret = .ok then { m.executed.2 with ret := m.executed.1 }
                else m.executed.2)
              (cmpOperations m.content m.execution)
        else
          (executeBatch ret rest).behind m.executed.2 (cmpOperations m.content m.execution)
      else (executeBatch ret rest).behind m.request [] := rfl

theorem executeBatch_stops (ret : RootpaError) {m : CmpCommand} {rest : List CmpCommand}
    (h : m.stops = true) :
    executeBatch ret (m :: rest) =
      ⟨m.executed.1, m.response :: rest.map fun _ => CmpResponse.blank, m.operations⟩ := by
  obtain ⟨hfails, hignore⟩ := Bool.and_eq_true_iff.mp h
  have hexecuted : m.content.length > 0 ∧ m.executed.1 ≠ .ok := by
    simpa [CmpCommand.fails] using hfails
  rw [executeBatch_cons, if_pos hexecuted.1, if_pos hexecuted.2, if_pos hignore,
    CmpCommand.response, if_pos hexecuted.1, CmpCommand.operations, if_pos hexecuted.1]
  simp only [hfails, true_and]

theorem executeBatch_passes (ret : RootpaError) {m : CmpCommand} {rest : List CmpCommand}
    (h : m.stops = false) :
    executeBatch ret (m :: rest) =
      (executeBatch (if m.fails then m.executed.1 else ret) rest).behind m.response m.operations := by
  by_cases hlen : m.content.length > 0
  · rw [executeBatch_cons, if_pos hlen, CmpCommand.response, if_pos hlen, CmpCommand.operations,
      if_pos hlen]
    by_cases hret : m.executed.1 = .ok
    · have hfails : m.fails = false := by simp [CmpCommand.fails, hret]
      rw [if_neg (not_not_intro hret)]
      simp [hfails]
    · have hfails : m.fails = true := by simp [CmpCommand.fails, hret, hlen]
      have hignore : m.ignoreError = true := by simpa [CmpCommand.stops, hfails] using h
      rw [if_pos hret, if_neg (by simp [hignore])]
      simp [hfails]
  · have hfails : m.fails = false := by simp [CmpCommand.fails, hlen]
    rw [executeBatch_cons, if_neg hlen, CmpCommand.response, if_neg hlen, CmpCommand.operations,
      if_neg hlen, hfails]
    rfl

theorem cmpResult_stops (m : CmpCommand) :
    (m.response.ret ≠ .ok ∧ (!m.response.ignoreError) = true) ↔ m.stops = true := by
  rw [m.response_ret, m.response_ignoreError, CmpCommand.stops, Bool.and_eq_true]

/-- **The batch** answers the commands that it gets to, and hands them to the trustlet. -/
theorem executeBatch_eq (ret : RootpaError) (hret : ret ≠ .outOfMemory)
    (commands before : List CmpCommand) :
    (executeBatch ret commands).ret ≠ .outOfMemory ∧
      handleCmpResponses (executeBatch ret commands).responses =
        (upTo (fun _ => CmpCommand.stops) before commands).map (fun m => cmpResult m.response) ∧
      (executeBatch ret commands).operations =
        (upTo (fun _ => CmpCommand.stops) before commands).flatMap CmpCommand.operations := by
  induction commands generalizing ret before with
  | nil => exact ⟨hret, rfl, rfl⟩
  | cons m rest ih =>
    by_cases hstops : m.stops = true
    · rw [executeBatch_stops ret hstops, upTo_cons_of_stops hstops]
      refine ⟨m.executed_answers.allocates, ?_, by simp⟩
      rw [handleCmpResponses, if_pos ((cmpResult_stops m).mpr hstops)]
      rfl
    · have hpasses : m.stops = false := by simpa using hstops
      have hnext : (if m.fails then m.executed.1 else ret) ≠ .outOfMemory := by
        split_ifs
        · exact m.executed_answers.allocates
        · exact hret
      obtain ⟨hallocates, hresponses, hoperations⟩ := ih _ hnext (before ++ [m])
      rw [executeBatch_passes ret hpasses, upTo_cons_of_passes (p := fun _ => _) hpasses]
      refine ⟨hallocates, ?_, ?_⟩
      · show handleCmpResponses (m.response :: _) = _
        rw [handleCmpResponses, if_neg fun h => hstops ((cmpResult_stops m).mp h), hresponses]
        rfl
      · show m.operations ++ _ = _
        rw [hoperations]
        rfl

/-- Without a session every command is answered by what the `memset` left. -/
theorem handleCmpResponses_blank (commands : List CmpCommand) :
    handleCmpResponses (commands.map fun _ => CmpResponse.blank) =
      commands.map fun _ => cmpResult .blank := by
  induction commands with
  | nil => rfl
  | cons m rest ih =>
    have hblank : ¬ (CmpResponse.blank.ret ≠ .ok ∧ (!CmpResponse.blank.ignoreError) = true) :=
      fun h => h.1 rfl
    rw [List.map_cons, handleCmpResponses, if_neg hblank, ih]
    rfl

/-- The results of the uploads end behind this one. -/
def CommonMessage.stops (m : CommonMessage) : Bool := m.ret ≠ .ok && !m.ignoreError

theorem handleUploadResponses_eq (uploads before : List CommonMessage) :
    handleUploadResponses uploads =
      (upTo (fun _ => CommonMessage.stops) before uploads).map uploadResult := by
  induction uploads generalizing before with
  | nil => rfl
  | cons m rest ih =>
    have hiff : (m.ret ≠ .ok ∧ (!m.ignoreError) = true) ↔ m.stops = true := by
      simp [CommonMessage.stops]
    by_cases hstops : m.stops = true
    · rw [handleUploadResponses, if_pos (hiff.mpr hstops), upTo_cons_of_stops hstops]
      rfl
    · have hpasses : m.stops = false := by simpa using hstops
      rw [handleUploadResponses, if_neg fun h => hstops (hiff.mp h), ih (before ++ [m]),
        upTo_cons_of_passes (p := fun _ => _) hpasses]
      rfl

/-! ## The request -/

/-- The batch of a request. -/
def batch (s : Surroundings) (commands : List Command) : List CmpCommand :=
  ((read s commands).filter Command.isBatched).map Command.cmpCommand

/-- The uploads that are executed. -/
def uploads (s : Surroundings) (commands : List Command) : List Command :=
  (read s commands).filter Command.isUpload

/-- The results of the batch. -/
def cmpResults (s : Surroundings) (commands : List Command) : List CommandResult :=
  if s.session then (batched (batch s commands)).map fun m => cmpResult m.response
  else (batch s commands).map fun _ => cmpResult .blank

def uploadResults (s : Surroundings) (commands : List Command) : List CommandResult :=
  (upTo (fun _ => CommonMessage.stops) []
    ((uploads s commands).map (handleUploadCommand s))).map uploadResult

def batchOperations (s : Surroundings) (commands : List Command) : List Operation :=
  if s.session then (batched (batch s commands)).flatMap CmpCommand.operations else []

theorem execute_collected (s : Surroundings) (commands : List Command) :
    ((collected s (read s commands)).execute s).ret ≠ .outOfMemory ∧
      handleCmpResponses ((collected s (read s commands)).execute s).responses =
        cmpResults s commands ∧
      ((collected s (read s commands)).execute s).operations = batchOperations s commands := by
  by_cases hcmps : (read s commands).filter Command.isCmp = []
  · have hbatch : batch s commands = [] := by
      rw [batch, batched_eq_filter, hcmps]
      rfl
    have hexecute : (collected s (read s commands)).execute s = ⟨.ok, [], []⟩ := by
      simp only [Parsed.execute, collected, hcmps, if_true]
    rw [hexecute, cmpResults, batchOperations, hbatch]
    refine ⟨by simp, ?_, ?_⟩
    · show [] = _
      split_ifs <;> rfl
    · show [] = _
      split_ifs <;> rfl
  · have hexecute : (collected s (read s commands)).execute s =
        executeContentManagementCommands s (batch s commands) := by
      simp only [Parsed.execute, collected, hcmps, if_false]
      rfl
    rw [hexecute, cmpResults, batchOperations, executeContentManagementCommands]
    by_cases hsession : s.session = true
    · rw [if_pos hsession, if_pos hsession, if_pos hsession]
      exact executeBatch_eq .ok (by simp) (batch s commands) []
    · rw [if_neg hsession, if_neg hsession, if_neg hsession]
      exact ⟨by simp, handleCmpResponses_blank _, rfl⟩

/-- **What a request does**: the uploads while it is read, and the batch behind that. -/
theorem operations_eq (s : Surroundings) (commands : List Command) :
    (handleCommandAndFillResponse s commands).operations =
      (uploads s commands).flatMap (uploadOperations s) ++ batchOperations s commands := by
  rw [handleCommandAndFillResponse, parseCommands_eq, ← (execute_collected s commands).2.2]
  rfl

/-- **What a request is answered with**: nothing, or the results of the batch and of the uploads. -/
theorem commandResultList_eq (s : Surroundings) (commands : List Command) :
    (handleCommandAndFillResponse s commands).commandResultList =
        some (cmpResults s commands ++ uploadResults s commands) ∨
      (handleCommandAndFillResponse s commands).commandResultList = none ∧
        startsEmpty (read s commands) = true := by
  obtain ⟨hallocates, hresults, -⟩ := execute_collected s commands
  rw [handleCommandAndFillResponse, parseCommands_eq, ← hresults, uploadResults,
    ← handleUploadResponses_eq]
  set p := collected s (read s commands)
  have hlist : (p.respond s).commandResultList =
      if (p.respond s).ret = .outOfMemory then none
      else some (handleCmpResponses (p.execute s).responses ++
        handleUploadResponses p.uploadCommands) := rfl
  have hret : (p.respond s).ret = if (p.execute s).ret ≠ .ok then (p.execute s).ret else p.ret := rfl
  by_cases hout : (p.respond s).ret = .outOfMemory
  · -- it is not the batch that has run out of memory
    refine Or.inr ⟨by rw [hlist, if_pos hout], ?_⟩
    rw [hret] at hout
    by_cases hok : (p.execute s).ret = .ok
    · rw [if_neg (not_not_intro hok)] at hout
      by_contra hempty
      exact absurd (hout.symm.trans (if_neg hempty)) (by simp)
    · rw [if_pos hok] at hout
      exact absurd hout hallocates
  · exact Or.inl (by rw [hlist, if_neg hout]; rfl)

end McDaemon.RootPa.Commands
