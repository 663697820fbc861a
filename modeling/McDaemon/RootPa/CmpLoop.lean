/-
# McDaemon.RootPa.CmpLoop — the loop in which a command is executed.

`executeOneCmpCommand` allocates and maps a buffer, prepares the command in it and has it executed.
When the response does not fit, the content management trustlet says how many bytes it needs, and
the loop begins again with a buffer of that size.  All ways out of the loop end in one clean-up,
which unmaps and frees whatever the handle points to.
-/
import McDaemon.Lib.Machine
import McDaemon.RootPa.CmpBlocks

namespace McDaemon.RootPa.Cmp

open McDaemon.Lib McDaemon.RootPa.Commands McDaemon.RootPa.Store

/-! ## The response -/

/-- `cmpResponseHeaderTci_t` -/
structure RspHeader where
  version : UInt32
  responseId : UInt32
  len : UInt32

def cmpVersion : UInt32 := 0x00030000

/-- `RSP_ID_MASK` -/
def rspIdMask : UInt32 := 0x80000000

def isValidResponse (rsp : RspHeader) : Bool :=
  rsp.version = cmpVersion ∧ rsp.responseId &&& rspIdMask = rspIdMask

def getNeededBytesFromResponse (rsp : RspHeader) : UInt32 :=
  if isValidResponse rsp = false then 0xFFFFFFFF else rsp.len

/-! ## The loop -/

/-- The handle, and what has happened to blocks. -/
structure Handle where
  mappedP : Option Block
  mappedSize : UInt32
  mapInfo : McBulkMap
  next : Block
  log : List Event

/-- What one round meets. -/
structure RoundAnswers where
  malloc : Bool
  mcMap : Except McResult McBulkMap
  prepare : PrepareAnswers
  transmit : Bool
  response : RspHeader
  mcUnmap : McResult

/-- A round leads to another, or leaves the loop with `ret`. -/
inductive Pass
  | again (s : Handle)
  | broken (ret : RootpaError) (s : Handle)

/-- One round of the loop. -/
def pass (commandId : CmpCommandId) (length : UInt32) (s : Handle) (a : RoundAnswers) : Pass :=
  if a.malloc = false then .broken .outOfMemory { s with mappedP := none }
  else
    let b := s.next
    let s := { s with mappedP := some b, next := b + 1, log := s.log ++ [.malloc b] }
    match a.mcMap with
    | .error _ => .broken .mobicoreConnection s
    | .ok info =>
      let p := prepareCommand s.mappedSize a.prepare commandId length (.start b (b + 1))
      let s := { s with
        mappedP := some p.2.mappedP
        mapInfo := info
        next := p.2.next
        log := s.log ++ .mcMap b info :: p.2.log }
      if p.1 ≠ .ok then .broken p.1 s
      else if a.transmit = false then .broken .mobicoreConnection s
      else
        let neededBytes := getNeededBytesFromResponse a.response
        if neededBytes = 0 then .broken .ok s
        else if neededBytes = 0xFFFFFFFF then .broken .mobicoreConnection s
        -- a smaller buffer is not what the trustlet can need
        else if neededBytes ≤ s.mappedSize then .broken .mobicoreConnection s
        else
          let s := { s with log := s.log ++ [.mcUnmap s.mappedP s.mapInfo a.mcUnmap] }
          if a.mcUnmap ≠ mcDrvOk then .broken .mobicoreConnection s
          else
            .again { s with
              mappedSize := neededBytes
              mapInfo := .zero
              log := s.log ++ [.free p.2.mappedP] }

/-- The clean-up behind the loop; `handled` is what `handleResponse` returns. -/
def cleanUp (handled : RootpaError) (mcUnmap : McResult) (ret : RootpaError) (s : Handle) :
    RootpaError × List Event :=
  (if mcUnmap ≠ mcDrvOk then .mobicoreConnection else if ret = .ok then handled else ret,
    s.log ++ .mcUnmap s.mappedP s.mapInfo mcUnmap :: s.mappedP.toList.map .free)

/-- A call of `executeOneCmpCommand`: the command's content, of which only the identifier at its
head matters here, and its length, what the handle has in `mapInfo`, the name of the next block,
and all that the call meets. -/
structure Call where
  content : Option CmpCommandId
  length : UInt32
  mapInfo : McBulkMap
  next : Block
  answers : Nat → RoundAnswers
  handled : RootpaError
  mcUnmap : McResult

namespace Call

variable (c : Call)

/-- `getCmpCommandId` -/
def commandId : CmpCommandId := c.content.getD (.unknown 0xFFFFFFFF)

/-- The result of a call that does not come to the loop. -/
def refused : Option RootpaError :=
  if c.content = none ∨ c.length < 4 then some .internal
  else if getTotalMappedBufferSize c.commandId c.length = 0 then some .commandNotSupported
  else none

/-- In front of the loop. -/
def start : Handle :=
  ⟨none, getTotalMappedBufferSize c.commandId c.length, c.mapInfo, c.next, []⟩

/-- One round, if it leads to another. -/
def again (s : Handle) (a : RoundAnswers) : Option Handle :=
  match pass c.commandId c.length s a with
  | .again t => some t
  | .broken _ _ => none

/-- The state before round `n`, if the loop comes to that. -/
def before (n : Nat) : Option Handle := loopState c.again c.start c.answers n

/-- What `executeOneCmpCommand` returns, and all that has happened to blocks, if it leaves the loop
in round `n`. -/
def executeOneCmpCommand (n : Nat) : Option (RootpaError × List Event) :=
  match c.refused with
  | some ret => some (ret, [])
  | none =>
    match c.before n with
    | none => none
    | some s =>
      match pass c.commandId c.length s (c.answers n) with
      | .again _ => none
      | .broken ret t => some (cleanUp c.handled c.mcUnmap ret t)

end Call

/-! ## Buffers and mappings -/

/-- The results of the attempts to undo a mapping. -/
def attempts (b : Block) (info : McBulkMap) (log : List Event) : List McResult :=
  log.filterMap fun
    | .mcUnmap p i mcRet => if p = some b ∧ i = info then some mcRet else none
    | _ => none

/-- There is exactly one attempt, but for a second behind one that has failed. -/
def TriedOnce (rets : List McResult) : Prop :=
  ∃ failed last, rets = failed ++ [last] ∧ failed.length ≤ 1 ∧ ∀ r ∈ failed, r ≠ mcDrvOk

/-- Behind every map call that succeeded there are the attempts that there should be. -/
def Unmapped (log : List Event) : Prop :=
  Followed (fun e after => ∀ b info, e = .mcMap b info → TriedOnce (attempts b info after)) log

/-- A call that ends and leaves nothing behind: the size grows from round to round, the call
returns, and then every buffer has been freed once and every mapping has been undone. -/
structure Released (c : Call) : Prop where
  grows : ∀ n s t, c.before n = some s → c.before (n + 1) = some t → s.mappedSize < t.mappedSize
  returns : ∃ n r, c.executeOneCmpCommand n = some r
  settled : ∀ n r, c.executeOneCmpCommand n = some r → loans.Settled r.2
  unmapped : ∀ n r, c.executeOneCmpCommand n = some r → Unmapped r.2

/-! ## Rounds -/

/-- What happens to blocks in a round that maps its buffer, up to the release of that; `rets` are
the results of the attempts to unmap it. -/
def mappedRound (b : Block) (info : McBulkMap) (p : Prep) (rets : List McResult) : List Event :=
  .malloc b :: .mcMap b info ::
    (p.log ++ (rets.map (.mcUnmap (some p.mappedP) info) ++ [.free p.mappedP]))

/-- The handle in a round that has mapped its buffer and prepared the command. -/
def Handle.prepared (s : Handle) (info : McBulkMap) (p : Prep) : Handle :=
  { s with
    mappedP := some p.mappedP
    mapInfo := info
    next := p.next
    log := s.log ++ .malloc s.next :: .mcMap s.next info :: p.log }

section Rounds

variable {commandId : CmpCommandId} {length : UInt32} {s t : Handle} {a : RoundAnswers}

/-- How a round goes on that has mapped its buffer: it leaves the loop with the buffer as it has
been prepared, or after an attempt to unmap it, or it leads to another round. -/
theorem pass_of_mapped {info : McBulkMap} {p : RootpaError × Prep} (hmalloc : a.malloc = true)
    (hmap : a.mcMap = .ok info)
    (hp : prepareCommand s.mappedSize a.prepare commandId length (.start s.next (s.next + 1)) = p) :
    (∃ ret, pass commandId length s a = .broken ret (s.prepared info p.2)) ∨
    (a.mcUnmap ≠ mcDrvOk ∧ ∃ ret, pass commandId length s a = .broken ret
      { s.prepared info p.2 with
        log := (s.prepared info p.2).log ++ [.mcUnmap (some p.2.mappedP) info a.mcUnmap] }) ∨
    (a.mcUnmap = mcDrvOk ∧ ∃ neededBytes, s.mappedSize < neededBytes ∧
      pass commandId length s a = .again
        { s.prepared info p.2 with
          mappedSize := neededBytes
          mapInfo := .zero
          log := s.log ++ mappedRound s.next info p.2 [mcDrvOk] }) := by
  have hlog : s.log ++ [.malloc s.next] ++ .mcMap s.next info :: p.2.log =
      s.log ++ .malloc s.next :: .mcMap s.next info :: p.2.log := by
    rw [List.append_assoc, List.singleton_append]
  unfold pass
  rw [if_neg (by simp [hmalloc])]
  dsimp only
  rw [hmap]
  dsimp only
  rw [hp, hlog]
  by_cases hret : p.1 ≠ .ok
  · exact .inl ⟨_, if_pos hret⟩
  rw [if_neg hret]
  by_cases htransmit : a.transmit = false
  · exact .inl ⟨_, if_pos htransmit⟩
  rw [if_neg htransmit]
  by_cases hzero : getNeededBytesFromResponse a.response = 0
  · exact .inl ⟨_, if_pos hzero⟩
  rw [if_neg hzero]
  by_cases hinvalid : getNeededBytesFromResponse a.response = 0xFFFFFFFF
  · exact .inl ⟨_, if_pos hinvalid⟩
  rw [if_neg hinvalid]
  by_cases hsmaller : getNeededBytesFromResponse a.response ≤ s.mappedSize
  · exact .inl ⟨_, if_pos hsmaller⟩
  rw [if_neg hsmaller]
  by_cases hunmap : a.mcUnmap ≠ mcDrvOk
  · exact .inr (.inl ⟨hunmap, _, if_pos hunmap⟩)
  · have hok : a.mcUnmap = mcDrvOk := not_not.mp hunmap
    have hlarger := mt UInt32.le_iff_toNat_le.mpr hsmaller
    refine .inr (.inr ⟨hok, _, UInt32.lt_iff_toNat_lt.mpr (Nat.lt_of_not_le hlarger), ?_⟩)
    rw [if_neg hunmap]
    simp [Handle.prepared, mappedRound, hok]

/-- A round without a mapping leaves the loop. -/
theorem pass_of_not_mapped (h : ∀ info, a.malloc = true → a.mcMap ≠ .ok info) :
    pass commandId length s a = .broken .outOfMemory { s with mappedP := none } ∨
    pass commandId length s a = .broken .mobicoreConnection
      { s with mappedP := some s.next, next := s.next + 1, log := s.log ++ [.malloc s.next] } := by
  unfold pass
  cases hmalloc : a.malloc with
  | false => exact .inl rfl
  | true =>
    cases hmap : a.mcMap with
    | error e => exact .inr rfl
    | ok info => exact absurd hmap (h info hmalloc)

/-- A round that leads to another: its buffer has been unmapped and freed, and the next one is
larger. -/
theorem pass_again (h : pass commandId length s a = .again t) : ∃ info p, a.malloc = true ∧
    a.mcMap = .ok info ∧
    (prepareCommand s.mappedSize a.prepare commandId length (.start s.next (s.next + 1))).2 = p ∧
    t.log = s.log ++ mappedRound s.next info p [mcDrvOk] ∧ t.next = p.next ∧
    s.mappedSize < t.mappedSize := by
  by_cases hmapped : ∀ info, a.malloc = true → a.mcMap ≠ .ok info
  · rcases pass_of_not_mapped hmapped with hbroken | hbroken
    · cases hbroken.symm.trans h
    · cases hbroken.symm.trans h
  · push Not at hmapped
    obtain ⟨info, hmalloc, hmap⟩ := hmapped
    rcases pass_of_mapped hmalloc hmap rfl with ⟨ret, hbroken⟩ | ⟨-, ret, hbroken⟩ |
      ⟨-, neededBytes, hlarger, hagain⟩
    · cases hbroken.symm.trans h
    · cases hbroken.symm.trans h
    · cases hagain.symm.trans h
      exact ⟨info, _, hmalloc, hmap, rfl, rfl, rfl, hlarger⟩

/-- A round that leaves the loop without a mapping, and the clean-up behind it. -/
theorem cleanUp_of_not_mapped {ret : RootpaError} (h : pass commandId length s a = .broken ret t)
    (hmapped : ∀ info, a.malloc = true → a.mcMap ≠ .ok info) (handled : RootpaError)
    (mcUnmap : McResult) : ∃ info evs, (evs = [.mcUnmap none info mcUnmap] ∨
      evs = [.malloc s.next, .mcUnmap (some s.next) info mcUnmap, .free s.next]) ∧
      (cleanUp handled mcUnmap ret t).2 = s.log ++ evs := by
  rcases pass_of_not_mapped hmapped with hbroken | hbroken
  · cases hbroken.symm.trans h
    exact ⟨s.mapInfo, _, .inl rfl, rfl⟩
  · cases hbroken.symm.trans h
    exact ⟨s.mapInfo, _, .inr rfl, List.append_assoc ..⟩

/-- A round that leaves the loop with its buffer mapped, and the clean-up behind it: there may have
been an attempt to unmap the buffer before, which failed. -/
theorem cleanUp_of_mapped {ret : RootpaError} (h : pass commandId length s a = .broken ret t)
    {info : McBulkMap} (hmalloc : a.malloc = true) (hmap : a.mcMap = .ok info)
    (handled : RootpaError) (mcUnmap : McResult) {p : Prep}
    (hp : (prepareCommand s.mappedSize a.prepare commandId length
      (.start s.next (s.next + 1))).2 = p) :
    ∃ rets, TriedOnce rets ∧
      (cleanUp handled mcUnmap ret t).2 = s.log ++ mappedRound s.next info p rets := by
  subst hp
  rcases pass_of_mapped hmalloc hmap rfl with ⟨ret, hbroken⟩ | ⟨hfailed, ret, hbroken⟩ |
    ⟨-, neededBytes, -, hagain⟩
  · cases hbroken.symm.trans h
    refine ⟨[mcUnmap], ⟨[], mcUnmap, rfl, Nat.zero_le _, by simp⟩, ?_⟩
    simp [cleanUp, Handle.prepared, mappedRound]
  · cases hbroken.symm.trans h
    refine ⟨[a.mcUnmap, mcUnmap], ⟨[a.mcUnmap], mcUnmap, rfl, Nat.le_refl _, by simpa⟩, ?_⟩
    simp [cleanUp, Handle.prepared, mappedRound]
  · cases hagain.symm.trans h

end Rounds

end McDaemon.RootPa.Cmp
