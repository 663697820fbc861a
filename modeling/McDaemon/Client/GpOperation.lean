/-
# McDaemon.Client.GpOperation — an operation on its way through the TCI.

`_TEEC_SetupOperation` writes an operation into the TCI page of its session and has its buffers
mapped; `_TEEC_UnwindOperation` reads the results back and has them unmapped.  A slot of the page
is a union of a value pair and a memory reference, and each parameter type writes a part of it.
What the setup does not write stays as it was.
-/
import Mathlib.Init

namespace McDaemon.Client.Gp

/-! ## Codes -/

abbrev TeecResult := UInt32

def teecSuccess : TeecResult := 0x00000000
def teecErrorGeneric : TeecResult := 0xFFFF0000
def teecErrorCancel : TeecResult := 0xFFFF0002
def teecErrorExcessData : TeecResult := 0xFFFF0004
def teecErrorBadParameters : TeecResult := 0xFFFF0006
def teecErrorBadState : TeecResult := 0xFFFF0007
def teecErrorCommunication : TeecResult := 0xFFFF000E
def teecErrorTargetDead : TeecResult := 0xFFFF3024

def teecOriginApi : UInt32 := 0x00000001
def teecOriginComms : UInt32 := 0x00000002
def teecOriginTee : UInt32 := 0x00000003
def teecOriginTrustedApp : UInt32 := 0x00000004

def mcMapMax : Nat := 4

/-- The data flow of a parameter, which is also what `TEEC_MEM_INOUT` masks out of its type. -/
inductive Direction where
  | input
  | output
  | inout
deriving DecidableEq, Repr

def Direction.flags : Direction → UInt32
  | .input => 0x1
  | .output => 0x2
  | .inout => 0x3

/-- The parameter types. -/
inductive ParamType where
  | none
  | value (d : Direction)
  | memrefTemp (d : Direction)
  | memrefWhole
  | memrefPartial (d : Direction)
deriving DecidableEq, Repr

def ParamType.code : ParamType → UInt32
  | .none => 0x0
  | .value d => d.flags
  | .memrefTemp d => d.flags ||| 0x4
  | .memrefWhole => 0xC
  | .memrefPartial d => d.flags ||| 0xC

def ParamType.all : List ParamType :=
  [.none, .value .input, .value .output, .value .inout, .memrefTemp .input, .memrefTemp .output,
   .memrefTemp .inout, .memrefWhole, .memrefPartial .input, .memrefPartial .output,
   .memrefPartial .inout]

/-- The type that a code of four bits names, if any. -/
def ParamType.ofCode (code : UInt32) : Option ParamType :=
  ParamType.all.find? fun t => t.code == code

theorem ParamType.ofCode_code (t : ParamType) : ParamType.ofCode t.code = some t := by
  cases t with
  | none | memrefWhole => decide
  | value d | memrefTemp d | memrefPartial d => cases d <;> decide

/-- `_TEEC_GET_PARAM_TYPE`. -/
def getParamType (paramTypes : UInt32) (i : Fin 4) : UInt32 :=
  (paramTypes >>> (4 * UInt32.ofNat i)) &&& 0xF

/-! ## Operations and the TCI -/

/-- `TEEC_SharedMemory`. -/
structure SharedMemory where
  buffer : UInt64
  size : UInt64
  flags : UInt32
deriving DecidableEq, Repr

/-- `TEEC_Parameter`: the views of the union, of which the parameter's type chooses one. -/
structure Parameter where
  a : UInt32 := 0
  b : UInt32 := 0
  tmpBuffer : UInt64 := 0
  tmpSize : UInt64 := 0
  parent : SharedMemory := ⟨0, 0, 0⟩
  size : UInt64 := 0
  offset : UInt64 := 0
deriving DecidableEq, Repr

/-- `TEEC_Operation`. -/
structure Operation where
  started : UInt32
  paramTypes : UInt32
  params : Fin 4 → Parameter

/-- The type of a parameter, if its code is one. -/
def Operation.paramType (op : Operation) (i : Fin 4) : Option ParamType :=
  ParamType.ofCode (getParamType op.paramTypes i)

/-- `_TEEC_ParameterInternal`: a memory reference, or a value pair in its first two words. -/
structure ParameterInternal where
  sVirtualAddr : UInt32
  sVirtualLen : UInt32
  outputSize : UInt32
deriving DecidableEq, Repr

def ParameterInternal.zero : ParameterInternal := ⟨0, 0, 0⟩

/-- `value.a` and `value.b`. -/
def ParameterInternal.valueA (p : ParameterInternal) : UInt32 := p.sVirtualAddr
def ParameterInternal.valueB (p : ParameterInternal) : UInt32 := p.sVirtualLen

/-- `_TEEC_OperationInternal`. -/
structure OperationInternal where
  type : UInt32
  commandId : UInt32
  paramTypes : UInt32
  params : Fin 4 → ParameterInternal
  isCancelled : Bool

def OperationInternal.zero : OperationInternal := ⟨0, 0, 0, fun _ => .zero, false⟩

/-- `_TEEC_TCI`, without the destination, which is not written again. -/
structure Tci where
  header : String
  operation : OperationInternal
  ready : UInt32
  returnOrigin : UInt32
  returnStatus : TeecResult

/-- The page as `TEEC_OpenSession` clears it. -/
def Tci.fresh : Tci := ⟨"", .zero, 0, 0, 0⟩

/-- `mc_ioctl_buffer`. -/
structure Buffer where
  va : UInt64
  len : UInt32
  sva : UInt64 := 0
  flags : UInt32 := 0
deriving DecidableEq, Repr

/-! ## Setting up -/

/-- A write through `imp`. -/
inductive Store where
  | value (i : Fin 4) (a b : UInt32)
  | memref (i : Fin 4) (sVirtualAddr sVirtualLen : UInt32)
deriving DecidableEq, Repr

/-- The slot that is written. -/
def Store.slot : Store → Fin 4
  | .value i _ _ => i
  | .memref i _ _ => i

@[simp] theorem Store.slot_value (i : Fin 4) (a b : UInt32) : (Store.value i a b).slot = i := rfl

@[simp] theorem Store.slot_memref (i : Fin 4) (addr len : UInt32) :
    (Store.memref i addr len).slot = i := rfl

/-- The two words that are written. -/
def Store.words : Store → UInt32 × UInt32
  | .value _ a b => (a, b)
  | .memref _ addr len => (addr, len)

/-- The slots after a write. -/
def Store.apply (params : Fin 4 → ParameterInternal) (w : Store) : Fin 4 → ParameterInternal :=
  fun j =>
    if j = w.slot then
      { params j with sVirtualAddr := w.words.1, sVirtualLen := w.words.2 }
    else params j

/-- What the loop of `_TEEC_SetupOperation` has done: `tci->operation.paramTypes`, the writes, the
buffers to map with their slots (`map.bufs` and `imps`), `*returnOrigin` and `teecResult`. -/
structure Setup where
  paramTypes : UInt32 := 0
  stores : List Store := []
  bufs : List (Buffer × Fin 4) := []
  returnOrigin : Option UInt32 := none
  result : TeecResult := teecSuccess

namespace Setup

/-- Add a buffer to `map.bufs`. -/
def push (s : Setup) (i : Fin 4) (va size : UInt64) (flags : UInt32) : Setup :=
  { s with bufs := s.bufs ++ [({ va := va, len := size.toUInt32, flags := flags }, i)] }

def badParameters (s : Setup) : Setup :=
  { s with returnOrigin := some teecOriginApi, result := teecErrorBadParameters }

/-- `tci->operation.paramTypes |= paramType << i * 4`. -/
def addParamType (s : Setup) (i : Fin 4) (paramType : UInt32) : Setup :=
  { s with paramTypes := s.paramTypes ||| (paramType <<< (4 * UInt32.ofNat i)) }

/-- The cases of `TEEC_MEMREF_PARTIAL_*`. -/
def partialParam (s : Setup) (i : Fin 4) (ext : Parameter) (d : Direction) : Setup :=
  let flow := ext.parent.flags &&& Direction.inout.flags
  if (flow = Direction.input.flags ∧ d = .output) ∨ (flow = Direction.output.flags ∧ d = .input) then
    s.badParameters.addParamType i (ParamType.memrefPartial d).code
  else
    let paramType := (ParamType.memrefPartial d).code &&& (ParamType.memrefTemp .inout).code
    if ext.offset + ext.size > ext.parent.size then
      s.badParameters.addParamType i paramType
    else if ext.size ≠ 0 then
      (s.push i (ext.parent.buffer + ext.offset) ext.size d.flags).addParamType i paramType
    else s.addParamType i paramType

/-- One round of the loop. -/
def param (op : Operation) (s : Setup) (i : Fin 4) : Setup :=
  let ext := op.params i
  if s.result ≠ teecSuccess then s
  else
    match op.paramType i with
    | some .none => s.addParamType i ParamType.none.code
    | some (.value .output) => s.addParamType i (ParamType.value .output).code
    | some (.value d) =>
      { s with stores := s.stores ++ [Store.value i ext.a ext.b] }.addParamType i
        (ParamType.value d).code
    | some (.memrefTemp d) =>
      if ext.tmpSize ≠ 0 ∧ ext.tmpBuffer ≠ 0 then
        (s.push i ext.tmpBuffer ext.tmpSize d.flags).addParamType i (ParamType.memrefTemp d).code
      else s.addParamType i (ParamType.memrefTemp d).code
    | some .memrefWhole =>
      -- the type is made of the low byte of the parent's flags
      let paramType := (ext.parent.flags &&& 0xFF) ||| 0x4
      if ext.parent.size ≠ 0 then
        (s.push i ext.parent.buffer ext.parent.size
          (ext.parent.flags &&& Direction.inout.flags)).addParamType i paramType
      else s.addParamType i paramType
    | some (.memrefPartial d) => s.partialParam i ext d
    | none => s.badParameters.addParamType i (getParamType op.paramTypes i)

/-- The loop over the parameters. -/
def loop (op : Operation) : Setup := [0, 1, 2, 3].foldl (param op) {}

/-- The writes after `client.map`; `svas k` is what it found for the buffer `k`. -/
def mapStores (svas : Nat → UInt64) : Nat → List (Buffer × Fin 4) → List Store
  | _, [] => []
  | k, (b, i) :: bufs =>
    if b.va ≠ 0 then .memref i (svas k).toUInt32 b.len :: mapStores svas (k + 1) bufs
    else mapStores svas (k + 1) bufs

end Setup

/-- What the setup meets: whether the operation is cancelled meanwhile, and what `client.map`
answers, which is a secure-world address for each buffer, or an error. -/
structure SetupAnswers where
  cancelled : Bool
  map : Option (Nat → UInt64)

/-- `_TEEC_SetupOperation` after the loop, up to its check of `teecResult`. -/
def Setup.mapBuffers (s : Setup) (answers : SetupAnswers) : Setup :=
  let s := if mcMapMax < s.bufs.length then { s with result := teecErrorExcessData } else s
  let s :=
    if s.result = teecSuccess ∧ answers.cancelled = true then
      { s with returnOrigin := some teecOriginComms, result := teecErrorCancel }
    else s
  if s.result = teecSuccess ∧ 0 < s.bufs.length then
    match answers.map with
    | some svas => { s with stores := s.stores ++ Setup.mapStores svas 0 s.bufs }
    | none => { s with returnOrigin := some teecOriginComms, result := teecErrorGeneric }
  else s

/-! ## Unwinding -/

/-- What the loop of `_TEEC_UnwindOperation` has done: the operation, and the buffers to unmap. -/
structure Unwind where
  params : Fin 4 → Parameter
  bufs : List Buffer

namespace Unwind

/-- Write to a parameter of the operation when values are to be copied. -/
def copy (u : Unwind) (copyValues : Bool) (i : Fin 4) (f : Parameter → Parameter) : Unwind :=
  if copyValues then { u with params := fun j => if j = i then f (u.params j) else u.params j } else u

/-- Unmap what a slot says it has mapped. -/
def push (u : Unwind) (imp : ParameterInternal) (va : UInt64) : Unwind :=
  if 0 < imp.sVirtualLen then
    { u with bufs := u.bufs ++
      [{ va := va, len := imp.sVirtualLen, sva := imp.sVirtualAddr.toUInt64 }] }
  else u

/-- One round of the loop. -/
def param (tci : Tci) (op : Operation) (copyValues : Bool) (u : Unwind) (i : Fin 4) : Unwind :=
  let imp := tci.operation.params i
  let ext := op.params i
  match op.paramType i with
  | some .none | some (.value .input) | none => u
  | some (.value _) =>
    u.copy copyValues i fun p => { p with a := imp.valueA, b := imp.valueB }
  | some (.memrefTemp d) =>
    (u.copy (copyValues && d ≠ .input) i
      fun p => { p with tmpSize := imp.outputSize.toUInt64 }).push imp ext.tmpBuffer
  | some .memrefWhole =>
    (u.copy (copyValues && ext.parent.flags ≠ Direction.input.flags) i
      fun p => { p with size := imp.outputSize.toUInt64 }).push imp ext.parent.buffer
  | some (.memrefPartial d) =>
    (u.copy (copyValues && d ≠ .input) i
      fun p => { p with size := imp.outputSize.toUInt64 }).push imp (ext.parent.buffer + ext.offset)

end Unwind

/-- How `_TEEC_UnwindOperation` returns, with what it has passed to `client.unmap`. -/
structure Unwound where
  operation : Option Operation
  returnOrigin : Option UInt32
  unmapped : List Buffer
  result : TeecResult

/-- `_TEEC_UnwindOperation`.  The slots keep what they have. -/
def unwindOperation (tci : Tci) (operation : Option Operation) (copyValues : Bool) : Unwound :=
  match operation with
  | none => ⟨none, none, [], teecSuccess⟩
  | some op =>
    let op := { op with started := 2 }
    if tci.returnOrigin = 0 ∨
        (tci.returnOrigin ≠ teecOriginTrustedApp ∧ tci.returnStatus ≠ teecSuccess) then
      ⟨some op, some teecOriginComms, [], teecErrorCommunication⟩
    else
      let u := [0, 1, 2, 3].foldl (Unwind.param tci op copyValues) ⟨op.params, []⟩
      let op := { op with params := u.params }
      if mcMapMax < u.bufs.length then ⟨some op, some tci.returnOrigin, [], teecErrorExcessData⟩
      else ⟨some op, some tci.returnOrigin, u.bufs, tci.returnStatus⟩

/-! ## The whole setup -/

/-- How `_TEEC_SetupOperation` returns, with the page and what it has unmapped again. -/
structure SetUp where
  tci : Tci
  operation : Option Operation
  returnOrigin : Option UInt32
  unmapped : List Buffer
  result : TeecResult

/-- The end of a setup that succeeds. -/
def Tci.signal (tci : Tci) : Tci :=
  { tci with header := "TCIGP000", returnStatus := teecErrorBadState, ready := 1 }

/-- `_TEEC_SetupOperation`. -/
def setupOperation (tci : Tci) (operation : Option Operation) (answers : SetupAnswers) : SetUp :=
  let tci := { tci with operation := { tci.operation with isCancelled := false, paramTypes := 0 } }
  match operation with
  | none => ⟨tci.signal, none, none, [], teecSuccess⟩
  | some op =>
    let op := { op with started := 1 }
    let s := (Setup.loop op).mapBuffers answers
    let tci := { tci with operation := { tci.operation with
      paramTypes := s.paramTypes, params := s.stores.foldl Store.apply tci.operation.params } }
    if s.result ≠ teecSuccess then
      let u := unwindOperation tci (some op) false
      ⟨{ tci with operation := .zero }, u.operation, s.returnOrigin, u.unmapped, s.result⟩
    else ⟨tci.signal, some op, none, [], teecSuccess⟩

end McDaemon.Client.Gp
