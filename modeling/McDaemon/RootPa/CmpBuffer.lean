/-
# McDaemon.RootPa.CmpBuffer — the buffer of a command.

A command and the containers that belong to it go to the content management trustlet in one buffer,
which is mapped before they are known.  Its size is predicted from a table; when the prediction is
short, `ensureMappedBufferSize` makes the buffer larger behind the mapping's back.

Here is the layout: which block of memory is written to, what the element table says, and from which
block the service provider and the trustlet of the command are read.
-/
import Mathlib.Algebra.Order.BigOperators.Group.List
import Mathlib.Algebra.Order.Group.Nat
import McDaemon.Lib.Ledger
import McDaemon.RootPa.StoreContainers

namespace McDaemon.RootPa.Cmp

open McDaemon.Lib McDaemon.RootPa.Commands McDaemon.RootPa.Store

/-! ## The predicted size -/

def sizeofAuthTokenContainer : UInt32 := 152
def sizeofRootContainer : UInt32 := 220
def sizeofSpContainer : UInt32 := 396
def sizeofTltContainer : UInt32 := 192

/-- `cmpSizes_t` -/
structure CmpSizes where
  cmdRspSize : UInt32
  cmdContainerSize : UInt32
  rspContainerSize : UInt32

/-- `sizeTable_`; the first size is that of the command's `cmpMap..._t`. -/
def getCmpSizeInfo : CmpCommandId → Option CmpSizes
  | .authenticate => some ⟨132, 0, 0⟩
  | .beginRootAuthentication => some ⟨72, sizeofRootContainer, 0⟩
  | .beginSocAuthentication => some ⟨72, sizeofAuthTokenContainer, 0⟩
  | .beginSpAuthentication => some ⟨76, sizeofRootContainer + sizeofSpContainer, 0⟩
  | .generateAuthToken => some ⟨312, 0, 0⟩
  | .getVersion => some ⟨108, 0, 0⟩
  | .rootContLockByRoot => some ⟨272, 0, sizeofRootContainer⟩
  | .rootContRegisterActivate => some ⟨272, 0, sizeofRootContainer⟩
  | .rootContUnlockByRoot => some ⟨272, 0, sizeofRootContainer⟩
  | .rootContUnregister => some ⟨84, 0, 0⟩
  | .spContActivate => some ⟨448, 0, sizeofSpContainer⟩
  | .spContLockByRoot => some ⟨448, sizeofSpContainer, sizeofSpContainer⟩
  | .spContLockBySp => some ⟨448, 0, sizeofSpContainer⟩
  | .spContRegister => some ⟨672, 0, sizeofRootContainer + sizeofSpContainer⟩
  | .spContRegisterActivate => some ⟨672, 0, sizeofRootContainer + sizeofSpContainer⟩
  | .spContUnlockByRoot => some ⟨448, sizeofSpContainer, sizeofSpContainer⟩
  | .spContUnlockBySp => some ⟨448, 0, sizeofSpContainer⟩
  | .spContUnregister => some ⟨272, 0, sizeofRootContainer⟩
  | .tltContActivate => some ⟨244, sizeofTltContainer, sizeofTltContainer⟩
  | .tltContLockBySp => some ⟨244, sizeofTltContainer, sizeofTltContainer⟩
  | .tltContPersonalize => some ⟨2220, sizeofTltContainer, 0⟩
  | .tltContRegister => some ⟨644, 0, sizeofSpContainer + sizeofTltContainer⟩
  | .tltContRegisterActivate => some ⟨644, 0, sizeofSpContainer + sizeofTltContainer⟩
  | .tltContUnlockBySp => some ⟨244, sizeofTltContainer, sizeofTltContainer⟩
  | .tltContUnregister => some ⟨448, 0, sizeofSpContainer⟩
  | .getSuid => some ⟨24, 0, 0⟩
  | .authenticateTerminate => some ⟨48, 0, 0⟩
  | .generateBindingKey | .unknown _ => none

def bigger (first second : UInt32) : UInt32 := if first > second then first else second

/-- The sum may wrap, and zero stands for a command that is not supported. -/
def getTotalMappedBufferSize (commandId : CmpCommandId) (length : UInt32) : UInt32 :=
  match getCmpSizeInfo commandId with
  | none => 0
  | some sizes =>
    bigger sizes.cmdRspSize length + bigger sizes.cmdContainerSize sizes.rspContainerSize

/-! ## Memory -/

/-- The name of an allocation; no two have the same. -/
abbrev Block := Nat

/-- `mcBulkMap_t` -/
structure McBulkMap where
  sVirtualAddr : UInt32
  sVirtualLen : UInt32
deriving DecidableEq, Repr

def McBulkMap.zero : McBulkMap := ⟨0, 0⟩

/-- What happens to blocks.  `realloc` moves the content of a block to a new one and frees the old;
`mcMap` is a map call that succeeds, `mcUnmap` any attempt to unmap, with its result. -/
inductive Event
  | malloc (b : Block)
  | realloc (b b' : Block)
  | free (b : Block)
  | mcMap (b : Block) (mapInfo : McBulkMap)
  | mcUnmap (p : Option Block) (mapInfo : McBulkMap) (mcRet : McResult)
  | read (b : Block) (offset len : Nat)
deriving DecidableEq, Repr

/-- The blocks that an event touches, and the one that it gives up. -/
def ledger : Ledger Event Block where
  touched
    | .malloc _ => []
    | .realloc b _ | .free b | .mcMap b _ | .read b _ _ => [b]
    | .mcUnmap p _ _ => p.toList
  released
    | .realloc b _ | .free b => some b
    | _ => none

/-! ## Preparing a command -/

/-- The containers that go along with commands. -/
inductive Container
  | authToken
  | root
  | sp
  | tlt
deriving DecidableEq, Repr

/-- What `realloc` does when it is called. -/
inductive Realloc
  | failed
  | inPlace
  | moved
deriving DecidableEq, Repr

/-- What `regReadAuthToken`, `regReadRoot`, `regReadSp` or `regReadTlt` gives. -/
structure RegRead where
  mcRet : McResult
  contSize : UInt32

/-- What `prepareCommand` meets: the containers of the registry, and what becomes of the buffer when
it has to grow for the command itself, or for a container. -/
structure PrepareAnswers where
  regRead : Container → RegRead
  growForCommand : Realloc
  growForContainer : Container → Realloc

/-- What `prepareCommand` works on: the block behind `handle->mappedP`, the name that the next block
will have, what has happened to blocks, the element table, `offset` and `mcRet`. -/
structure Prep where
  mappedP : Block
  next : Block
  log : List Event := []
  elements : List CmpMapOffsetInfo := []
  offset : UInt32 := 0
  mcRet : McResult := mcDrvOk

/-- The number of the element is one more than there are. -/
def setCmdElementInfo (elementLength : UInt32) (s : Prep) : Prep :=
  if s.elements = [] ∧ s.offset ≠ 0 then s
  else
    { s with
      elements := s.elements ++ [⟨s.offset, elementLength⟩]
      offset := s.offset + elementLength }

section Prepare

variable (mappedSize : UInt32) (answers : PrepareAnswers)

/-- `handle->mappedSize` stays what it is, and so does the mapping. -/
def ensureMappedBufferSize (neededSize : UInt32) (realloc : Realloc) (s : Prep) : Option Prep :=
  if neededSize > mappedSize then
    match realloc with
    | .failed => none
    | .inPlace => some s
    | .moved =>
      some { s with
        mappedP := s.next
        next := s.next + 1
        log := s.log ++ [.realloc s.mappedP s.next] }
  else some s

/-- The four functions `add...Container`. -/
def addContainer (c : Container) (s : Prep) : RootpaError × Prep :=
  let mcRet := (answers.regRead c).mcRet
  let contSize := (answers.regRead c).contSize
  if mcRet = mcDrvOk then
    match ensureMappedBufferSize mappedSize (s.offset + contSize) (answers.growForContainer c)
        { s with mcRet := mcRet } with
    | some s => (.ok, setCmdElementInfo contSize s)
    | none => (.outOfMemory, { s with mcRet := mcRet })
  else if mcRet = mcDrvErrInvalidDeviceFile then
    (.registryObjectNotAvailable, { s with mcRet := mcRet })
  else (.registry, { s with mcRet := mcRet })

def addAuthTokenContainer : Prep → RootpaError × Prep := addContainer mappedSize answers .authToken
def addRootContainer : Prep → RootpaError × Prep := addContainer mappedSize answers .root
def addSpContainer : Prep → RootpaError × Prep := addContainer mappedSize answers .sp
def addTltContainer : Prep → RootpaError × Prep := addContainer mappedSize answers .tlt

/-- `cmd.spid` or `cmd.sdata.spid`, which are in the same place in all commands. -/
def readSpid (outCommandP : Block) (s : Prep) : Prep :=
  { s with log := s.log ++ [.read outCommandP 12 4] }

/-- `cmd.sdata.uuid` -/
def readUuid (outCommandP : Block) (s : Prep) : Prep :=
  { s with log := s.log ++ [.read outCommandP 16 16] }

/-- What `prepareCommand` returns and leaves behind. -/
def prepareCommand (commandId : CmpCommandId) (length : UInt32) (s : Prep) : RootpaError × Prep :=
  -- the alias is taken before the buffer may move
  let outCommandP := s.mappedP
  let s := setCmdElementInfo length s
  match ensureMappedBufferSize mappedSize length answers.growForCommand s with
  | none => (.outOfMemory, s)
  | some s =>
    match commandId with
    | .beginSocAuthentication => addAuthTokenContainer mappedSize answers s
    | .beginRootAuthentication => addRootContainer mappedSize answers s
    | .beginSpAuthentication =>
      let added := addRootContainer mappedSize answers s
      if added.1 = .ok then
        addSpContainer mappedSize answers (readSpid outCommandP added.2)
      else added
    | .spContActivate | .spContLockBySp | .spContRegister | .spContRegisterActivate
    | .spContUnlockBySp | .spContUnregister => (.ok, readSpid outCommandP s)
    | .spContLockByRoot | .spContUnlockByRoot =>
      addSpContainer mappedSize answers (readSpid outCommandP s)
    | .tltContActivate | .tltContLockBySp | .tltContPersonalize | .tltContUnlockBySp =>
      addTltContainer mappedSize answers (readUuid outCommandP (readSpid outCommandP s))
    | .tltContRegister | .tltContRegisterActivate | .tltContUnregister =>
      (.ok, readUuid outCommandP (readSpid outCommandP s))
    | _ => (.ok, s)

end Prepare

/-! ## Elements in shared memory -/

/-- The element table lies inside the region that has been mapped, the buffer that has been mapped
is still that of the handle, and nothing has been read from a block behind its release. -/
structure Shared (mappedSize : UInt32) (mapped : Block) (s : Prep) : Prop where
  inside : ∀ e ∈ s.elements, e.Inside mappedSize
  same : s.mappedP = mapped
  live : ledger.Safe s.log

/-- The containers that go along with a command, in order. -/
def added : CmpCommandId → List Container
  | .beginSocAuthentication => [.authToken]
  | .beginRootAuthentication => [.root]
  | .beginSpAuthentication => [.root, .sp]
  | .spContLockByRoot | .spContUnlockByRoot => [.sp]
  | .tltContActivate | .tltContLockBySp | .tltContPersonalize | .tltContUnlockBySp => [.tlt]
  | _ => []

/-- The room that the command and its containers take. -/
def needed (commandId : CmpCommandId) (length : UInt32) (answers : PrepareAnswers) : Nat :=
  length.toNat + ((added commandId).map fun c => (answers.regRead c).contSize.toNat).sum

/-! ## The steps of a preparation -/

/-- What `prepareCommand` does once the command is in the buffer. -/
inductive Step
  | readSpid
  | readUuid
  | add (c : Container)

/-- One step; the reads go to the block that was there at the beginning. -/
def Step.run (mappedSize : UInt32) (answers : PrepareAnswers) (outCommandP : Block) (s : Prep) :
    Step → RootpaError × Prep
  | .readSpid => (.ok, Cmp.readSpid outCommandP s)
  | .readUuid => (.ok, Cmp.readUuid outCommandP s)
  | .add c => addContainer mappedSize answers c s

/-- Step by step, as long as they work. -/
def runSteps (mappedSize : UInt32) (answers : PrepareAnswers) (outCommandP : Block) :
    List Step → Prep → RootpaError × Prep
  | [], s => (.ok, s)
  | step :: steps, s =>
    let r := step.run mappedSize answers outCommandP s
    if r.1 = .ok then runSteps mappedSize answers outCommandP steps r.2 else r

def steps : CmpCommandId → List Step
  | .beginSocAuthentication => [.add .authToken]
  | .beginRootAuthentication => [.add .root]
  | .beginSpAuthentication => [.add .root, .readSpid, .add .sp]
  | .spContActivate | .spContLockBySp | .spContRegister | .spContRegisterActivate
  | .spContUnlockBySp | .spContUnregister => [.readSpid]
  | .spContLockByRoot | .spContUnlockByRoot => [.readSpid, .add .sp]
  | .tltContActivate | .tltContLockBySp | .tltContPersonalize | .tltContUnlockBySp =>
    [.readSpid, .readUuid, .add .tlt]
  | .tltContRegister | .tltContRegisterActivate | .tltContUnregister => [.readSpid, .readUuid]
  | _ => []

/-- A step that comes last needs no check. -/
theorem runSteps_singleton (mappedSize : UInt32) (answers : PrepareAnswers) (outCommandP : Block)
    (step : Step) (s : Prep) : runSteps mappedSize answers outCommandP [step] s =
      step.run mappedSize answers outCommandP s := by
  simp only [runSteps]
  split
  · next h => rw [← h]
  · rfl

/-- `prepareCommand` puts the command into the buffer and takes its steps. -/
theorem prepareCommand_eq (mappedSize : UInt32) (answers : PrepareAnswers)
    (commandId : CmpCommandId) (length : UInt32) (s : Prep) :
    prepareCommand mappedSize answers commandId length s =
      match ensureMappedBufferSize mappedSize length answers.growForCommand
          (setCmdElementInfo length s) with
      | none => (.outOfMemory, setCmdElementInfo length s)
      | some t => runSteps mappedSize answers s.mappedP (steps commandId) t := by
  unfold prepareCommand
  dsimp only
  cases ensureMappedBufferSize mappedSize length answers.growForCommand
      (setCmdElementInfo length s) with
  | none => rfl
  | some t =>
    cases commandId with
    | beginSocAuthentication =>
      exact (runSteps_singleton mappedSize answers s.mappedP (.add .authToken) t).symm
    | beginRootAuthentication =>
      exact (runSteps_singleton mappedSize answers s.mappedP (.add .root) t).symm
    | beginSpAuthentication =>
      show _ = if (addRootContainer mappedSize answers t).1 = .ok then
        runSteps mappedSize answers s.mappedP [.add .sp]
          (readSpid s.mappedP (addRootContainer mappedSize answers t).2)
        else addRootContainer mappedSize answers t
      rw [runSteps_singleton]
      rfl
    | spContLockByRoot | spContUnlockByRoot =>
      exact (runSteps_singleton mappedSize answers s.mappedP (.add .sp)
        (readSpid s.mappedP t)).symm
    | tltContActivate | tltContLockBySp | tltContPersonalize | tltContUnlockBySp =>
      exact (runSteps_singleton mappedSize answers s.mappedP (.add .tlt)
        (readUuid s.mappedP (readSpid s.mappedP t))).symm
    | _ => rfl

/-- What a list of steps adds to the room that is taken. -/
def stepsNeed (answers : PrepareAnswers) : List Step → Nat
  | [] => 0
  | .add c :: steps => (answers.regRead c).contSize.toNat + stepsNeed answers steps
  | _ :: steps => stepsNeed answers steps

theorem needed_eq (commandId : CmpCommandId) (length : UInt32) (answers : PrepareAnswers) :
    needed commandId length answers = length.toNat + stepsNeed answers (steps commandId) := by
  cases commandId <;> rfl

/-! ## What a preparation keeps -/

/-- Elements of `n` bytes altogether have been written one behind the other.  They lie in the mapped
region as long as `n` does, and until then the buffer has not moved. -/
structure Laid (mappedSize : UInt32) (b : Block) (n : Nat) (s : Prep) : Prop where
  started : s.elements ≠ []
  offset : s.offset.toNat = n % 4294967296
  inside : (∀ e ∈ s.elements, e.Inside mappedSize) ↔ n ≤ mappedSize.toNat
  kept : n ≤ mappedSize.toNat → s.mappedP = b ∧ ledger.Owns s.log [b]

/-- A buffer that is large enough stays where it is. -/
theorem ensure_of_le {mappedSize neededSize : UInt32} (h : neededSize.toNat ≤ mappedSize.toNat)
    (realloc : Realloc) (s : Prep) :
    ensureMappedBufferSize mappedSize neededSize realloc s = some s := by
  unfold ensureMappedBufferSize
  rw [if_neg]
  intro hlt
  have := UInt32.lt_iff_toNat_lt.mp hlt
  omega

/-- Only the buffer and the log change when the buffer grows. -/
theorem ensure_frame {mappedSize neededSize : UInt32} {realloc : Realloc} {s t : Prep}
    (h : ensureMappedBufferSize mappedSize neededSize realloc s = some t) :
    t.elements = s.elements ∧ t.offset = s.offset := by
  unfold ensureMappedBufferSize at h
  split at h
  · cases realloc with
    | failed => cases h
    | inPlace =>
      cases h
      exact ⟨rfl, rfl⟩
    | moved =>
      cases h
      exact ⟨rfl, rfl⟩
  · cases h
    exact ⟨rfl, rfl⟩

theorem setCmdElementInfo_of_ne {s : Prep} (h : s.elements ≠ []) (elementLength : UInt32) :
    setCmdElementInfo elementLength s = { s with
      elements := s.elements ++ [⟨s.offset, elementLength⟩]
      offset := s.offset + elementLength } := by
  unfold setCmdElementInfo
  rw [if_neg fun hbad => h hbad.1]

theorem Laid.read {mappedSize : UInt32} {b : Block} {n : Nat} {s : Prep}
    (h : Laid mappedSize b n s) (offset len : Nat) :
    Laid mappedSize b n { s with log := s.log ++ [.read b offset len] } := by
  refine ⟨h.started, h.offset, h.inside, fun hn => ?_⟩
  obtain ⟨hsame, howns⟩ := h.kept hn
  exact ⟨hsame, howns.read rfl fun t ht => ht⟩

/-- The element behind others: the offset is where they end, and if that or the new end is beyond
the mapped region, one of the elements is. -/
theorem Laid.append {mappedSize : UInt32} {b : Block} {n : Nat} {s t : Prep}
    (h : Laid mappedSize b n s) {elementLength : UInt32}
    (ht : t = { s with
      mappedP := t.mappedP, next := t.next, log := t.log, mcRet := t.mcRet
      elements := s.elements ++ [⟨s.offset, elementLength⟩]
      offset := s.offset + elementLength })
    (hkept : n + elementLength.toNat ≤ mappedSize.toNat → t.mappedP = s.mappedP ∧ t.log = s.log) :
    Laid mappedSize b (n + elementLength.toNat) t := by
  have hoffset := h.offset
  have hlt := mappedSize.toNat_lt
  rw [ht]
  refine ⟨by simp, ?_, ?_, fun hn => ?_⟩
  · simp [hoffset]
  · have hlast : CmpMapOffsetInfo.Inside ⟨s.offset, elementLength⟩ mappedSize ↔
        n % 4294967296 + elementLength.toNat ≤ mappedSize.toNat := by
      rw [← hoffset]
      rfl
    simp only [List.forall_mem_append, List.forall_mem_singleton, h.inside, hlast]
    omega
  · obtain ⟨hmapped, hlog⟩ := hkept hn
    dsimp only
    rw [hmapped, hlog]
    exact h.kept (by omega)

/-- A container that is added. -/
theorem Laid.add {mappedSize : UInt32} {answers : PrepareAnswers} {b : Block} {n : Nat} {s : Prep}
    {c : Container} (h : Laid mappedSize b n s)
    (hok : (addContainer mappedSize answers c s).1 = .ok) :
    Laid mappedSize b (n + (answers.regRead c).contSize.toNat)
      (addContainer mappedSize answers c s).2 := by
  unfold addContainer at hok ⊢
  dsimp only at hok ⊢
  split at hok
  · next hread =>
    rw [if_pos hread]
    split at hok
    · next t ht =>
      dsimp only
      obtain ⟨helements, hoffset⟩ := ensure_frame ht
      dsimp only at helements hoffset
      have hstarted : t.elements ≠ [] := helements ▸ h.started
      rw [setCmdElementInfo_of_ne hstarted]
      refine h.append (by rw [helements, hoffset]) fun hn => ?_
      -- the sum has not wrapped, so there was nothing to do
      have hend : (s.offset + (answers.regRead c).contSize).toNat ≤ mappedSize.toNat := by
        have hlt := mappedSize.toNat_lt
        have hsum : (s.offset + (answers.regRead c).contSize).toNat =
            (s.offset.toNat + (answers.regRead c).contSize.toNat) % 4294967296 := by
          simp
        have := h.offset
        omega
      rw [ensure_of_le hend] at ht
      cases ht
      exact ⟨rfl, rfl⟩
    · cases hok
  · split at hok
    · cases hok
    · cases hok

/-- What a step keeps. -/
theorem Laid.step {mappedSize : UInt32} {answers : PrepareAnswers} {b : Block} {n : Nat} {s : Prep}
    {step : Step} (h : Laid mappedSize b n s)
    (hok : (step.run mappedSize answers b s).1 = .ok) :
    Laid mappedSize b (n + stepsNeed answers [step]) (step.run mappedSize answers b s).2 := by
  cases step with
  | readSpid => exact h.read 12 4
  | readUuid => exact h.read 16 16
  | add c => exact h.add hok

theorem stepsNeed_cons (answers : PrepareAnswers) (step : Step) (steps : List Step) :
    stepsNeed answers (step :: steps) = stepsNeed answers [step] + stepsNeed answers steps := by
  cases step with
  | readSpid | readUuid => exact (Nat.zero_add _).symm
  | add c => rfl

theorem Laid.runSteps {mappedSize : UInt32} {answers : PrepareAnswers} {b : Block}
    {steps : List Step} {n : Nat} {s : Prep} (h : Laid mappedSize b n s)
    (hok : (Cmp.runSteps mappedSize answers b steps s).1 = .ok) :
    Laid mappedSize b (n + stepsNeed answers steps)
      (Cmp.runSteps mappedSize answers b steps s).2 := by
  induction steps generalizing n s with
  | nil => exact h
  | cons step steps ih =>
    unfold Cmp.runSteps at hok ⊢
    dsimp only at hok ⊢
    split at hok
    · next hstep =>
      rw [if_pos hstep, stepsNeed_cons, ← Nat.add_assoc]
      exact ih (h.step hstep) hok
    · next hstep => exact absurd hok hstep

/-- The handle as `prepareCommand` finds it: the block behind it is the one that has been mapped,
and no element has been written. -/
def Prep.start (mapped next : Block) : Prep := { mappedP := mapped, next := next }

/-- The command in the buffer. -/
theorem laid_command {mappedSize length : UInt32} {realloc : Realloc} {mapped next : Block}
    {t : Prep} (ht : ensureMappedBufferSize mappedSize length realloc
      (setCmdElementInfo length (.start mapped next)) = some t) :
    Laid mappedSize mapped length.toNat t := by
  have hset : setCmdElementInfo length (.start mapped next) =
      { Prep.start mapped next with elements := [⟨0, length⟩], offset := length } := by
    simp [setCmdElementInfo, Prep.start]
  obtain ⟨helements, hoffset⟩ := ensure_frame ht
  rw [hset] at helements hoffset ht
  have hlt := length.toNat_lt
  refine ⟨by simp [helements], ?_, ?_, fun hn => ?_⟩
  · rw [hoffset, Nat.mod_eq_of_lt hlt]
  · simp [helements, CmpMapOffsetInfo.Inside]
  · rw [ensure_of_le hn] at ht
    cases ht
    exact ⟨rfl, List.Pairwise.nil, List.nodup_singleton _, fun _ _ => List.not_mem_nil⟩

/-- **When the elements of a command lie in shared memory.**  For every command, every length and
every size of the containers, whatever becomes of the buffer when it has to grow: a command that is
prepared with success has its elements in the mapped region, its buffer still mapped, and has been
read from there, exactly when it and its containers fit the mapped size. -/
theorem shared_iff_fits {commandId : CmpCommandId} {length mappedSize : UInt32}
    {answers : PrepareAnswers} {mapped next : Block}
    (hok : (prepareCommand mappedSize answers commandId length (.start mapped next)).1 = .ok) :
    Shared mappedSize mapped
        (prepareCommand mappedSize answers commandId length (.start mapped next)).2 ↔
      needed commandId length answers ≤ mappedSize.toNat := by
  rw [prepareCommand_eq] at hok ⊢
  rw [needed_eq]
  cases ht : ensureMappedBufferSize mappedSize length answers.growForCommand
      (setCmdElementInfo length (.start mapped next)) with
  | none =>
    rw [ht] at hok
    cases hok
  | some t =>
    rw [ht] at hok
    have hlaid := (laid_command ht).runSteps hok
    refine ⟨fun h => hlaid.inside.mp h.inside, fun hn => ?_⟩
    obtain ⟨hsame, howns⟩ := hlaid.kept hn
    exact ⟨hlaid.inside.mpr hn, hsame, howns.safe⟩

/-! ## The prediction -/

/-- The size of a container's structure. -/
def Container.sizeof : Container → UInt32
  | .authToken => sizeofAuthTokenContainer
  | .root => sizeofRootContainer
  | .sp => sizeofSpContainer
  | .tlt => sizeofTltContainer

theorem bigger_toNat (first second : UInt32) :
    (bigger first second).toNat = max first.toNat second.toNat := by
  unfold bigger
  split
  · next h =>
    have := UInt32.lt_iff_toNat_lt.mp h
    omega
  · next h =>
    have := mt UInt32.lt_iff_toNat_lt.mpr h
    omega

/-- The table has room for the structures of the containers that go along. -/
theorem sizeof_added_le {commandId : CmpCommandId} {sizes : CmpSizes}
    (h : getCmpSizeInfo commandId = some sizes) :
    ((added commandId).map fun c => c.sizeof.toNat).sum ≤ sizes.cmdContainerSize.toNat ∧
      sizes.cmdContainerSize.toNat ≤ 616 ∧ sizes.rspContainerSize.toNat ≤ 616 ∧
      sizes.cmdRspSize.toNat ≤ 2220 := by
  cases commandId with
  | generateBindingKey | unknown => cases h
  | _ =>
    obtain rfl := Option.some.inj h
    decide

/-- The prediction is right for containers that are no larger than their structures, unless it
wraps. -/
theorem needed_le_getTotalMappedBufferSize {commandId : CmpCommandId} {length : UInt32}
    {answers : PrepareAnswers}
    (hsupported : getCmpSizeInfo commandId ≠ none) (hlength : length.toNat + 616 < 4294967296)
    (hsizes : ∀ c, (answers.regRead c).contSize.toNat ≤ c.sizeof.toNat) :
    needed commandId length answers ≤ (getTotalMappedBufferSize commandId length).toNat := by
  obtain ⟨sizes, hinfo⟩ := Option.ne_none_iff_exists'.mp hsupported
  obtain ⟨hadded, hcmd, hrsp, hcmdRsp⟩ := sizeof_added_le hinfo
  have hsum : ((added commandId).map fun c => (answers.regRead c).contSize.toNat).sum ≤
      ((added commandId).map fun c => c.sizeof.toNat).sum :=
    List.sum_le_sum fun c _ => hsizes c
  have hcommand := bigger_toNat sizes.cmdRspSize length
  have hcontainers := bigger_toNat sizes.cmdContainerSize sizes.rspContainerSize
  unfold needed getTotalMappedBufferSize
  rw [hinfo]
  dsimp only
  rw [UInt32.toNat_add]
  omega

/-! ## Predictions that are short -/

/-- The containers of the registry have one size, and buffers that grow move. -/
def containersOf (contSize : UInt32) : PrepareAnswers where
  regRead _ := ⟨mcDrvOk, contSize⟩
  growForCommand := .moved
  growForContainer _ := .moved

/-- A token of the size of its structure is in the buffer that has been mapped. -/
theorem shared_token :
    Shared 224 0
      (prepareCommand 224 (containersOf 152) .beginSocAuthentication 72 (.start 0 1)).2 :=
  (@shared_iff_fits .beginSocAuthentication 72 224 (containersOf 152) 0 1 rfl).mpr (by decide)

/-- **Outside the mapping.**  A token of 1000 bytes makes the buffer move away from its mapping of
224 bytes; and behind a root container of 700 bytes the service provider is read from the block that
has been freed. -/
theorem not_shared_largeContainers :
    getTotalMappedBufferSize .beginSocAuthentication 72 = 224 ∧
    (∃ s,
      prepareCommand 224 (containersOf 1000) .beginSocAuthentication 72 (.start 0 1) = (.ok, s) ∧
      s.mappedP ≠ 0 ∧ ¬ Shared 224 0 s) ∧
    getTotalMappedBufferSize .beginSpAuthentication 76 = 692 ∧
    ∃ s, prepareCommand 692 (containersOf 700) .beginSpAuthentication 76 (.start 0 1) = (.ok, s) ∧
      ¬ ledger.Safe s.log ∧ ¬ Shared 692 0 s := by
  have htoken : ∀ s, s.mappedP ≠ 0 → ¬ Shared 224 0 s := fun s hs h => hs h.same
  have hspid : ∀ s, ¬ ledger.Safe s.log → ¬ Shared 692 0 s := fun s hs h => hs h.live
  refine ⟨by decide, ⟨_, rfl, by decide, htoken _ (by decide)⟩,
    by decide, _, rfl, by decide, hspid _ (by decide)⟩

end McDaemon.RootPa.Cmp
