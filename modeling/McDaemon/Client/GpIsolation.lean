/-
# McDaemon.Client.GpIsolation — what one operation sees of the earlier ones.

The TCI page is cleared when its session opens, and not again as long as every setup succeeds.  An
operation writes two words of the slots of its value inputs and of its mapped buffers, so what the
secure world finds in the rest is what the operations before it and their answers have left.  It
sees the operation alone exactly when that is nothing.
-/
import Mathlib.Data.List.Basic
import Mathlib.Tactic.SplitIfs
import McDaemon.Client.GpOperation

namespace McDaemon.Client.Gp

/-! ## Operations one after another -/

/-- One operation of a session: the fields that the caller of `_TEEC_CallTA` writes, the operation,
what its setup meets, and what the secure world makes of the page before it is unwound. -/
structure GpStep where
  type : UInt32
  commandId : UInt32
  operation : Option Operation
  answers : SetupAnswers
  secureWorld : Tci → Tci

/-- The parameters as the secure world finds them. -/
structure Presented where
  paramTypes : UInt32
  params : Fin 4 → ParameterInternal

namespace GpStep

/-- The setup of the operation on a page. -/
def setUp (step : GpStep) (tci : Tci) : SetUp :=
  setupOperation { tci with operation := { tci.operation with
    type := step.type, commandId := step.commandId } } step.operation step.answers

/-- What the secure world is shown; nothing when the setup fails. -/
def presented (step : GpStep) (tci : Tci) : Option Presented :=
  let r := step.setUp tci
  if r.result = teecSuccess then some ⟨r.tci.operation.paramTypes, r.tci.operation.params⟩ else none

/-- The page after the operation, which unwinding does not change. -/
def page (step : GpStep) (tci : Tci) : Tci :=
  let r := step.setUp tci
  if r.result = teecSuccess then step.secureWorld r.tci else r.tci

end GpStep

/-- The page of a session after some operations. -/
def pageAfter (steps : List GpStep) : Tci := steps.foldl (fun tci step => step.page tci) .fresh

/-! ## The property and its condition -/

/-- The address and the size of a memory reference. -/
def Parameter.reference (ext : Parameter) : ParamType → Option (UInt64 × UInt64)
  | .memrefTemp _ => some (ext.tmpBuffer, ext.tmpSize)
  | .memrefWhole => some (ext.parent.buffer, ext.parent.size)
  | .memrefPartial _ => some (ext.parent.buffer + ext.offset, ext.size)
  | .none | .value _ => none

/-- The memory reference in a slot, if there is one. -/
def Operation.reference (op : Operation) (i : Fin 4) : Option (UInt64 × UInt64) :=
  (op.paramType i).bind (op.params i).reference

/-- A memory reference that is `NULL` or has size 0. -/
def Operation.EmptyRef (op : Operation) (i : Fin 4) : Prop :=
  ∃ r, op.reference i = some r ∧ (r.1 = 0 ∨ r.2 = 0)

/-- The secure world sees on this page what it sees on the page of a new session, which depends on
the operation and its map call alone, and there is no length at an empty reference. -/
def SeesOnlyItself (tci : Tci) (step : GpStep) : Prop :=
  step.presented tci = step.presented .fresh ∧
    ∀ op view i, step.operation = some op → step.presented tci = some view → op.EmptyRef i →
      (view.params i).sVirtualLen = 0

/-- Every operation of a session sees only itself. -/
def Isolated (steps : List GpStep) : Prop :=
  ∀ before step after, steps = before ++ step :: after → SeesOnlyItself (pageAfter before) step

/-- The setup writes to the slot: a value input, or a buffer that is mapped. -/
def Operation.fills (op : Operation) (i : Fin 4) : Bool :=
  match op.paramType i with
  | some (.value d) => d ≠ .output
  | _ =>
    match op.reference i with
    | some r => r.1 ≠ 0 && r.2 ≠ 0
    | none => false

/-- The checks of the setup accept the parameter. -/
def Operation.accepts (op : Operation) (i : Fin 4) : Bool :=
  let ext := op.params i
  match op.paramType i with
  | none => false
  | some (.memrefPartial d) =>
    let flow := ext.parent.flags &&& Direction.inout.flags
    if (flow = Direction.input.flags ∧ d = .output) ∨ (flow = Direction.output.flags ∧ d = .input)
    then false
    else ext.offset + ext.size ≤ ext.parent.size
  | some _ => true

/-- The setup writes to the slot. -/
def GpStep.fills (step : GpStep) (i : Fin 4) : Bool :=
  match step.operation with
  | none => false
  | some op => op.fills i

/-- The buffer that the setup has mapped for a slot. -/
def Operation.bufs (op : Operation) (i : Fin 4) : List (Buffer × Fin 4) :=
  let ext := op.params i
  match op.paramType i with
  | some (.memrefTemp d) =>
    if ext.tmpSize ≠ 0 ∧ ext.tmpBuffer ≠ 0 then
      [({ va := ext.tmpBuffer, len := ext.tmpSize.toUInt32, flags := d.flags }, i)]
    else []
  | some .memrefWhole =>
    if ext.parent.size ≠ 0 then
      [({ va := ext.parent.buffer, len := ext.parent.size.toUInt32,
          flags := ext.parent.flags &&& Direction.inout.flags }, i)]
    else []
  | some (.memrefPartial d) =>
    if ext.size ≠ 0 then
      [({ va := ext.parent.buffer + ext.offset, len := ext.size.toUInt32, flags := d.flags }, i)]
    else []
  | _ => []

/-- The setup succeeds: its checks accept every parameter, nobody cancels the operation, and the
buffers, if there are any, are mapped. -/
def SetupAccepts (operation : Option Operation) (answers : SetupAnswers) : Prop :=
  ∀ op, operation = some op → (∀ i, op.accepts i = true) ∧ answers.cancelled = false ∧
    ((∀ i, op.bufs i = []) ∨ answers.map ≠ none)

def GpStep.Accepted (step : GpStep) : Prop := SetupAccepts step.operation step.answers

/-- What a step does not write has been zero before it. -/
def Clean (tci : Tci) (step : GpStep) : Prop :=
  ∀ i, if step.fills i then (tci.operation.params i).outputSize = 0
    else tci.operation.params i = .zero

/-! ## What a setup writes -/

/-- The write of a slot with an input value. -/
def Operation.stores (op : Operation) (i : Fin 4) : List Store :=
  match op.paramType i with
  | some (.value d) =>
    if d = .output then [] else [.value i (op.params i).a (op.params i).b]
  | _ => []

theorem badParameters_ne_success : teecErrorBadParameters ≠ teecSuccess := by decide

/-- **One round of the loop.** -/
theorem Setup.param_spec (op : Operation) (i : Fin 4) {s : Setup} (hs : s.result = teecSuccess) :
    ((s.param op i).result = teecSuccess ↔ op.accepts i = true) ∧
      (op.accepts i = true → (s.param op i).stores = s.stores ++ op.stores i ∧
        (s.param op i).bufs = s.bufs ++ op.bufs i) := by
  unfold Setup.param Operation.accepts Operation.stores Operation.bufs
  dsimp only
  rw [if_neg (fun hne => hne hs)]
  -- the types of a parameter, in the order of the `switch`
  cases op.paramType i with
  | none =>
    refine ⟨iff_of_false badParameters_ne_success Bool.false_ne_true, fun h => ?_⟩
    cases h
  | some t =>
    cases t with
    | none => exact ⟨iff_of_true hs rfl, fun _ => by simp [Setup.addParamType]⟩
    | value d =>
      cases d with
      | output => exact ⟨iff_of_true hs rfl, fun _ => by simp [Setup.addParamType]⟩
      | input => exact ⟨iff_of_true hs rfl, fun _ => by simp [Setup.addParamType]⟩
      | inout => exact ⟨iff_of_true hs rfl, fun _ => by simp [Setup.addParamType]⟩
    | memrefTemp d =>
      dsimp only
      by_cases hbuf : (op.params i).tmpSize ≠ 0 ∧ (op.params i).tmpBuffer ≠ 0
      · rw [if_pos hbuf, if_pos hbuf]
        exact ⟨iff_of_true hs rfl, fun _ => by simp [Setup.addParamType, Setup.push]⟩
      · rw [if_neg hbuf, if_neg hbuf]
        exact ⟨iff_of_true hs rfl, fun _ => by simp [Setup.addParamType]⟩
    | memrefWhole =>
      dsimp only
      by_cases hbuf : (op.params i).parent.size ≠ 0
      · rw [if_pos hbuf, if_pos hbuf]
        exact ⟨iff_of_true hs rfl, fun _ => by simp [Setup.addParamType, Setup.push]⟩
      · rw [if_neg hbuf, if_neg hbuf]
        exact ⟨iff_of_true hs rfl, fun _ => by simp [Setup.addParamType]⟩
    | memrefPartial d =>
      dsimp only [Setup.partialParam]
      -- the parent has to allow the direction, and then to hold the region
      by_cases hflow : ((op.params i).parent.flags &&& Direction.inout.flags =
            Direction.input.flags ∧ d = .output) ∨
          ((op.params i).parent.flags &&& Direction.inout.flags =
            Direction.output.flags ∧ d = .input)
      · rw [if_pos hflow, if_pos hflow]
        exact ⟨iff_of_false badParameters_ne_success Bool.false_ne_true, fun h => nomatch h⟩
      · rw [if_neg hflow, if_neg hflow]
        by_cases hsize : (op.params i).offset + (op.params i).size > (op.params i).parent.size
        · rw [if_pos hsize]
          have hgt := UInt64.not_le.mpr hsize
          refine ⟨iff_of_false badParameters_ne_success (by simp [hgt]), fun h => ?_⟩
          simp [hgt] at h
        · have hle := UInt64.not_lt.mp hsize
          rw [if_neg hsize]
          by_cases hbuf : (op.params i).size ≠ 0
          · rw [if_pos hbuf, if_pos hbuf]
            exact ⟨iff_of_true hs (by simp [hle]),
              fun _ => by simp [Setup.addParamType, Setup.push]⟩
          · rw [if_neg hbuf, if_neg hbuf]
            exact ⟨iff_of_true hs (by simp [hle]),
              fun _ => by simp [Setup.addParamType]⟩

/-- A round after a failed one does nothing. -/
theorem Setup.param_of_failed {op : Operation} {s : Setup} {i : Fin 4}
    (hs : s.result ≠ teecSuccess) : s.param op i = s := if_pos hs

theorem Setup.foldl_param_of_failed {op : Operation} {s : Setup} (hs : s.result ≠ teecSuccess)
    (is : List (Fin 4)) : is.foldl (Setup.param op) s = s := by
  induction is with
  | nil => rfl
  | cons i is ih => rw [List.foldl_cons, Setup.param_of_failed hs, ih]

/-- **The loop.** It succeeds exactly when its checks accept every parameter, and then it has done
the writes of the values and has a buffer for each reference. -/
theorem Setup.foldl_param_spec (op : Operation) (is : List (Fin 4)) {s : Setup}
    (hs : s.result = teecSuccess) :
    ((is.foldl (Setup.param op) s).result = teecSuccess ↔ ∀ i ∈ is, op.accepts i = true) ∧
      ((∀ i ∈ is, op.accepts i = true) →
        (is.foldl (Setup.param op) s).stores = s.stores ++ is.flatMap op.stores ∧
        (is.foldl (Setup.param op) s).bufs = s.bufs ++ is.flatMap op.bufs) := by
  induction is generalizing s with
  | nil => simp [hs]
  | cons i is ih =>
    obtain ⟨hresult, hwrites⟩ := Setup.param_spec op i hs
    rw [List.foldl_cons]
    by_cases hi : op.accepts i = true
    · obtain ⟨hstores, hbufs⟩ := hwrites hi
      obtain ⟨hresult', hwrites'⟩ := ih (hresult.mpr hi)
      refine ⟨hresult'.trans (by simp [hi]), fun hall => ?_⟩
      obtain ⟨hstores', hbufs'⟩ := hwrites' fun j hj => hall j (List.mem_cons_of_mem i hj)
      rw [hstores', hbufs', hstores, hbufs, List.append_assoc, List.append_assoc,
        List.flatMap_cons, List.flatMap_cons]
      exact ⟨rfl, rfl⟩
    · have hfailed : (s.param op i).result ≠ teecSuccess := fun h => hi (hresult.mp h)
      rw [Setup.foldl_param_of_failed hfailed]
      refine ⟨iff_of_false hfailed fun hall => hi (hall i List.mem_cons_self), fun hall => ?_⟩
      exact absurd (hall i List.mem_cons_self) hi

/-! ## Which slots are written -/

theorem Operation.slot_of_mem_stores {op : Operation} {i : Fin 4} {w : Store}
    (h : w ∈ op.stores i) : w.slot = i := by
  unfold Operation.stores at h
  split at h
  · split at h
    · cases h
    · rw [List.mem_singleton.mp h]
      rfl
  · cases h

theorem Operation.slot_of_mem_bufs {op : Operation} {i : Fin 4} {b : Buffer × Fin 4}
    (h : b ∈ op.bufs i) : b.2 = i := by
  unfold Operation.bufs at h
  dsimp only at h
  split at h
  · split at h
    · rw [List.mem_singleton.mp h]
    · cases h
  · split at h
    · rw [List.mem_singleton.mp h]
    · cases h
  · split at h
    · rw [List.mem_singleton.mp h]
    · cases h
  · cases h

/-- A slot is filled by its value, or by its buffer unless that is at address 0, which
`client.map` skips. -/
theorem Operation.fills_iff (op : Operation) (j : Fin 4) :
    op.fills j = true ↔ (∃ w, w ∈ op.stores j) ∨ ∃ b ∈ op.bufs j, b.1.va ≠ 0 := by
  unfold Operation.fills Operation.stores Operation.bufs Operation.reference
  cases op.paramType j with
  | none => simp
  | some t =>
    cases t with
    | none => simp [Parameter.reference]
    | value d => cases d <;> simp
    | memrefTemp d =>
      dsimp only [Option.bind_some, Parameter.reference]
      split_ifs with hbuf
      · simp [hbuf]
      · simpa [and_comm] using hbuf
    | memrefWhole =>
      dsimp only [Option.bind_some, Parameter.reference]
      split_ifs with hbuf
      · simp [hbuf]
      · simp only [not_not] at hbuf
        simp [hbuf]
    | memrefPartial d =>
      dsimp only [Option.bind_some, Parameter.reference]
      split_ifs with hbuf
      · simp [hbuf]
      · simp only [not_not] at hbuf
        simp [hbuf]

theorem mem_allSlots (j : Fin 4) : j ∈ ([0, 1, 2, 3] : List (Fin 4)) := by
  revert j
  decide

/-- The writes after `client.map` are those of the buffers that are not at address 0. -/
theorem Setup.slot_mapStores (svas : Nat → UInt64) {k : Nat} {bufs : List (Buffer × Fin 4)}
    {j : Fin 4} : (∃ w ∈ Setup.mapStores svas k bufs, w.slot = j) ↔
      ∃ b ∈ bufs, b.1.va ≠ 0 ∧ b.2 = j := by
  induction bufs generalizing k with
  | nil => simp [Setup.mapStores]
  | cons b bufs ih =>
    obtain ⟨b, i⟩ := b
    unfold Setup.mapStores
    by_cases hva : b.va ≠ 0
    · rw [if_pos hva]
      simp only [List.mem_cons, exists_eq_or_imp, ih, Store.slot_memref, ne_eq, hva,
        not_false_eq_true, true_and]
    · rw [if_neg hva]
      simp only [List.mem_cons, exists_eq_or_imp, ih, hva, ne_eq, false_and, false_or]

/-! ## The page under the writes -/

/-- Two words over the first two of a slot. -/
def overlay (words : Option (UInt32 × UInt32)) (p : ParameterInternal) : ParameterInternal :=
  match words with
  | none => p
  | some w => { p with sVirtualAddr := w.1, sVirtualLen := w.2 }

/-- What writes do to a slot: nothing, or the same to the first two words of all of them. -/
theorem foldl_apply (ws : List Store) (j : Fin 4) : ∃ words : Option (UInt32 × UInt32),
    (words.isSome = true ↔ ∃ w ∈ ws, w.slot = j) ∧
      ∀ params, ws.foldl Store.apply params j = overlay words (params j) := by
  induction ws with
  | nil => exact ⟨none, by simp, fun params => rfl⟩
  | cons w ws ih =>
    obtain ⟨words, hsome, hfold⟩ := ih
    cases words with
    | some x =>
      have hwrite : ∃ w ∈ ws, w.slot = j := hsome.mp rfl
      obtain ⟨w', hw', hslot⟩ := hwrite
      refine ⟨some x, iff_of_true rfl ⟨w', List.mem_cons_of_mem w hw', hslot⟩, fun params => ?_⟩
      rw [List.foldl_cons, hfold]
      -- the later write covers this one
      unfold Store.apply overlay
      dsimp only
      split <;> rfl
    | none =>
      have hno : ¬ ∃ w ∈ ws, w.slot = j := fun h => Bool.false_ne_true (hsome.mpr h)
      by_cases hj : j = w.slot
      · refine ⟨some w.words, iff_of_true rfl ⟨w, List.mem_cons_self, hj.symm⟩, fun params => ?_⟩
        rw [List.foldl_cons, hfold]
        show Store.apply params w j = _
        unfold Store.apply
        rw [if_pos hj]
        rfl
      · refine ⟨none, iff_of_false Bool.false_ne_true ?_, fun params => ?_⟩
        · rintro ⟨w', hw', hslot⟩
          rcases List.mem_cons.mp hw' with rfl | hw'
          · exact hj hslot.symm
          · exact hno ⟨w', hw', hslot⟩
        · rw [List.foldl_cons, hfold]
          show Store.apply params w j = _
          unfold Store.apply
          rw [if_neg hj]
          rfl

/-- Two pages look the same at a slot that is written when they agree behind the first two words,
and at another one when they are the same. -/
theorem overlay_eq_zero_iff {words : Option (UInt32 × UInt32)} {p : ParameterInternal} :
    overlay words p = overlay words .zero ↔
      if words.isSome then p.outputSize = 0 else p = .zero := by
  obtain ⟨addr, len, outputSize⟩ := p
  cases words with
  | none => exact Iff.rfl
  | some w => simp [overlay, ParameterInternal.zero]

/-! ## One operation -/

/-- What a setup that succeeds writes: `paramTypes`, and the writes to the slots.  The page has no
part in it. -/
def GpStep.written (step : GpStep) : Option (UInt32 × List Store) :=
  match step.operation with
  | none => some (0, [])
  | some op =>
    let s := (Setup.loop op).mapBuffers step.answers
    if s.result = teecSuccess then some (s.paramTypes, s.stores) else none

/-- What the secure world is shown is the page under the writes. -/
theorem GpStep.presented_eq (step : GpStep) (tci : Tci) : step.presented tci =
    step.written.map fun w => ⟨w.1, w.2.foldl Store.apply tci.operation.params⟩ := by
  unfold GpStep.presented GpStep.setUp setupOperation GpStep.written
  cases step.operation with
  | none => rfl
  | some op =>
    dsimp only
    have hloop : Setup.loop { op with started := 1 } = Setup.loop op := rfl
    rw [hloop]
    generalize (Setup.loop op).mapBuffers step.answers = s
    by_cases hresult : s.result = teecSuccess
    · simp only [hresult, ne_eq, not_true_eq_false, if_false, if_true, Tci.signal,
        Option.map_some]
    · simp only [hresult, ne_eq, not_false_eq_true, if_true, if_false, Option.map_none]

/-- A setup can succeed after the loop only without buffers, or with their map. -/
theorem Setup.mapBuffers_spec {s : Setup} {answers : SetupAnswers}
    (h : (s.mapBuffers answers).result = teecSuccess) : s.result = teecSuccess ∧
      ((s.bufs = [] ∧ (s.mapBuffers answers).stores = s.stores) ∨
        ∃ svas, (s.mapBuffers answers).stores = s.stores ++ Setup.mapStores svas 0 s.bufs) := by
  have hexcess : teecErrorExcessData ≠ teecSuccess := by decide
  have hcancel : teecErrorCancel ≠ teecSuccess := by decide
  have hgeneric : teecErrorGeneric ≠ teecSuccess := by decide
  unfold Setup.mapBuffers at h ⊢
  dsimp only at h ⊢
  by_cases hmax : mcMapMax < s.bufs.length
  · simp only [if_pos hmax, hexcess, false_and, if_false] at h
  · simp only [if_neg hmax] at h ⊢
    by_cases hcancelled : s.result = teecSuccess ∧ answers.cancelled = true
    · simp only [if_pos hcancelled, hcancel, false_and, if_false] at h
    · simp only [if_neg hcancelled] at h ⊢
      by_cases hmap : s.result = teecSuccess ∧ 0 < s.bufs.length
      · simp only [if_pos hmap] at h ⊢
        cases hanswer : answers.map with
        | none =>
          rw [hanswer] at h
          exact absurd h hgeneric
        | some svas => exact ⟨hmap.1, .inr ⟨svas, rfl⟩⟩
      · simp only [if_neg hmap] at h ⊢
        have hlen : ¬ 0 < s.bufs.length := fun hlt => hmap ⟨h, hlt⟩
        exact ⟨h, .inl ⟨List.length_eq_zero_iff.mp (by omega), trivial⟩⟩

/-- The slots that are written are the ones that the operation fills. -/
theorem GpStep.written_spec {step : GpStep} {pt : UInt32} {ws : List Store}
    (h : step.written = some (pt, ws)) (j : Fin 4) :
    (∃ w ∈ ws, w.slot = j) ↔ step.fills j = true := by
  unfold GpStep.written at h
  unfold GpStep.fills
  cases hop : step.operation with
  | none =>
    rw [hop] at h
    cases h
    simp
  | some op =>
    rw [hop] at h
    obtain ⟨hresult, h⟩ := Option.ite_none_right_eq_some.mp h
    obtain ⟨rfl, rfl⟩ := Prod.mk.inj (Option.some.inj h)
    obtain ⟨hloop, hstores⟩ := Setup.mapBuffers_spec hresult
    obtain ⟨haccepts, hwrites⟩ := Setup.foldl_param_spec op [0, 1, 2, 3] (s := {}) rfl
    obtain ⟨hvalues, hbufs⟩ := hwrites (haccepts.mp hloop)
    have hvalues : (Setup.loop op).stores = [0, 1, 2, 3].flatMap op.stores := hvalues
    have hbufs : (Setup.loop op).bufs = [0, 1, 2, 3].flatMap op.bufs := hbufs
    -- each slot has the writes of its own parameter
    have hvalue : (∃ w ∈ (Setup.loop op).stores, w.slot = j) ↔ ∃ w, w ∈ op.stores j := by
      rw [hvalues]
      constructor
      · rintro ⟨w, hw, rfl⟩
        obtain ⟨i, -, hw⟩ := List.mem_flatMap.mp hw
        rw [op.slot_of_mem_stores hw]
        exact ⟨w, hw⟩
      · rintro ⟨w, hw⟩
        exact ⟨w, List.mem_flatMap.mpr ⟨j, mem_allSlots j, hw⟩, op.slot_of_mem_stores hw⟩
    have hbuf : (∃ b ∈ (Setup.loop op).bufs, b.1.va ≠ 0 ∧ b.2 = j) ↔
        ∃ b ∈ op.bufs j, b.1.va ≠ 0 := by
      rw [hbufs]
      constructor
      · rintro ⟨b, hb, hva, rfl⟩
        obtain ⟨i, -, hb⟩ := List.mem_flatMap.mp hb
        rw [op.slot_of_mem_bufs hb]
        exact ⟨b, hb, hva⟩
      · rintro ⟨b, hb, hva⟩
        exact ⟨b, List.mem_flatMap.mpr ⟨j, mem_allSlots j, hb⟩, hva, op.slot_of_mem_bufs hb⟩
    rw [op.fills_iff, ← hvalue, ← hbuf]
    rcases hstores with ⟨hnil, hstores⟩ | ⟨svas, hstores⟩
    · rw [hstores, hnil]
      simp
    · rw [hstores, ← Setup.slot_mapStores svas (k := 0)]
      simp only [List.mem_append, or_and_right, exists_or]

/-- An empty reference is not filled. -/
theorem Operation.fills_of_emptyRef {op : Operation} {i : Fin 4} (h : op.EmptyRef i) :
    op.fills i = false := by
  obtain ⟨r, hr, hempty⟩ := h
  have hfills : op.fills i = (r.1 ≠ 0 && r.2 ≠ 0) := by
    unfold Operation.fills
    unfold Operation.reference at hr ⊢
    cases ht : op.paramType i with
    | none =>
      rw [ht] at hr
      cases hr
    | some t =>
      rw [ht] at hr
      cases t with
      | none | value d => cases hr
      | memrefTemp d | memrefWhole | memrefPartial d =>
        rw [Option.bind_some] at hr ⊢
        rw [hr]
  rw [hfills]
  rcases hempty with hnull | hzero
  · simp [hnull]
  · simp [hzero]

/-- The setup shows the secure world nothing, or the writes over the page. -/
theorem seesOnlyItself_iff {tci : Tci} {step : GpStep} :
    SeesOnlyItself tci step ↔ step.written = none ∨ Clean tci step := by
  cases hwritten : step.written with
  | none =>
    have hnone : ∀ tci, step.presented tci = none := by
      intro tci
      rw [step.presented_eq, hwritten]
      rfl
    refine iff_of_true ⟨by rw [hnone, hnone], fun op view i _ hview _ => ?_⟩ (.inl rfl)
    rw [hnone] at hview
    cases hview
  | some w =>
    obtain ⟨pt, ws⟩ := w
    have hpresented : ∀ tci, step.presented tci =
        some ⟨pt, ws.foldl Store.apply tci.operation.params⟩ := by
      intro tci
      rw [step.presented_eq, hwritten]
      rfl
    -- slot by slot, the page and the cleared page under the same words
    have hslot : ∀ j, ws.foldl Store.apply tci.operation.params j =
          ws.foldl Store.apply Tci.fresh.operation.params j ↔
        if step.fills j then (tci.operation.params j).outputSize = 0
          else tci.operation.params j = .zero := by
      intro j
      obtain ⟨words, hsome, hfold⟩ := foldl_apply ws j
      have hfills : words.isSome = step.fills j :=
        Bool.eq_iff_iff.mpr (hsome.trans (step.written_spec hwritten j))
      rw [hfold, hfold, ← hfills]
      exact overlay_eq_zero_iff
    have hsame : step.presented tci = step.presented .fresh ↔ Clean tci step := by
      rw [hpresented, hpresented, Option.some.injEq, Presented.mk.injEq]
      constructor
      · rintro ⟨-, heq⟩ j
        exact (hslot j).mp (congrFun heq j)
      · intro hclean
        exact ⟨rfl, funext fun j => (hslot j).mpr (hclean j)⟩
    constructor
    · rintro ⟨hsees, -⟩
      exact .inr (hsame.mp hsees)
    · rintro (h | hclean)
      · cases h
      · refine ⟨hsame.mpr hclean, fun op view i hop hview hempty => ?_⟩
        rw [hsame.mpr hclean, hpresented] at hview
        obtain rfl := Option.some.inj hview
        obtain ⟨words, hsome, hfold⟩ := foldl_apply ws i
        have hnone : words = none := by
          cases words with
          | none => rfl
          | some x =>
            have hfills := (step.written_spec hwritten i).mp (hsome.mp rfl)
            unfold GpStep.fills at hfills
            rw [hop] at hfills
            exact absurd hfills (by simp [op.fills_of_emptyRef hempty])
        show (ws.foldl Store.apply Tci.fresh.operation.params i).sVirtualLen = 0
        rw [hfold, hnone]
        rfl

/-! ## When a setup succeeds -/

theorem Operation.length_bufs_le (op : Operation) (i : Fin 4) : (op.bufs i).length ≤ 1 := by
  unfold Operation.bufs
  dsimp only
  split
  · split <;> simp
  · split <;> simp
  · split <;> simp
  · simp

theorem Setup.mapBuffers_success_iff {s : Setup} (hlen : s.bufs.length ≤ mcMapMax)
    (answers : SetupAnswers) : (s.mapBuffers answers).result = teecSuccess ↔
      s.result = teecSuccess ∧ answers.cancelled = false ∧
        (s.bufs = [] ∨ answers.map ≠ none) := by
  have hcancel : teecErrorCancel ≠ teecSuccess := by decide
  have hgeneric : teecErrorGeneric ≠ teecSuccess := by decide
  unfold Setup.mapBuffers
  dsimp only
  rw [if_neg (Nat.not_lt.mpr hlen)]
  by_cases hs : s.result = teecSuccess
  · cases hcancelled : answers.cancelled with
    | true => simp [hs, hcancel]
    | false =>
      cases hbufs : s.bufs with
      | nil => simp [hs, hbufs]
      | cons b bufs =>
        cases hmap : answers.map with
        | none => simp [hs, hbufs, hgeneric]
        | some svas => simp [hs, hbufs]
  · simp [hs]

theorem GpStep.written_ne_none_iff {step : GpStep} : step.written ≠ none ↔ step.Accepted := by
  unfold GpStep.written GpStep.Accepted SetupAccepts
  cases hop : step.operation with
  | none => simp
  | some op =>
    obtain ⟨haccepts, hwrites⟩ := Setup.foldl_param_spec op [0, 1, 2, 3] (s := {}) rfl
    have hall : (∀ i ∈ ([0, 1, 2, 3] : List (Fin 4)), op.accepts i = true) ↔
        ∀ i, op.accepts i = true := by
      exact ⟨fun h i => h i (mem_allSlots i), fun h i _ => h i⟩
    rw [hall] at haccepts hwrites
    have hloop : (Setup.loop op).result = teecSuccess ↔ ∀ i, op.accepts i = true := haccepts
    have hiff : ((Setup.loop op).mapBuffers step.answers).result = teecSuccess ↔
        (∀ i, op.accepts i = true) ∧ step.answers.cancelled = false ∧
          ((∀ i, op.bufs i = []) ∨ step.answers.map ≠ none) := by
      by_cases hok : ∀ i, op.accepts i = true
      · have hbufs : (Setup.loop op).bufs = [0, 1, 2, 3].flatMap op.bufs := (hwrites hok).2
        have h0 := op.length_bufs_le 0
        have h1 := op.length_bufs_le 1
        have h2 := op.length_bufs_le 2
        have h3 := op.length_bufs_le 3
        have hlen : (Setup.loop op).bufs.length ≤ mcMapMax := by
          rw [hbufs]
          simp only [List.flatMap_cons, List.flatMap_nil, List.length_append, List.length_nil]
          show _ ≤ 4
          omega
        have hnil : (Setup.loop op).bufs = [] ↔ ∀ i, op.bufs i = [] := by
          rw [hbufs, List.flatMap_eq_nil_iff]
          exact ⟨fun h i => h i (mem_allSlots i), fun h i _ => h i⟩
        rw [Setup.mapBuffers_success_iff hlen, hloop, hnil]
      · refine iff_of_false (fun h => hok (hloop.mp (Setup.mapBuffers_spec h).1)) fun h => hok h.1
    simp only [Option.some.injEq, forall_eq', ← hiff]
    split_ifs with h
    · simp [h]
    · simp [h]

/-- Whether a setup succeeds does not depend on the page. -/
theorem setupOperation_success_iff (tci : Tci) (operation : Option Operation)
    (answers : SetupAnswers) : (setupOperation tci operation answers).result = teecSuccess ↔
      SetupAccepts operation answers := by
  let step : GpStep := ⟨tci.operation.type, tci.operation.commandId, operation, answers, id⟩
  have hset : step.setUp tci = setupOperation tci operation answers := rfl
  have hsome : step.presented tci ≠ none ↔ step.written ≠ none := by
    rw [step.presented_eq]
    simp
  rw [← hset, ← show step.Accepted ↔ SetupAccepts operation answers from Iff.rfl,
    ← GpStep.written_ne_none_iff, ← hsome]
  unfold GpStep.presented
  dsimp only
  split_ifs with h
  · simp [h]
  · simp [h]

/-- **Isolation.** For every sequence of operations, whatever they are, however their setups are
answered and whatever the secure world does to the page, each operation sees only itself exactly
when it finds zero, if its setup succeeds, in all that it does not write itself. -/
theorem isolated_iff_clean (steps : List GpStep) :
    Isolated steps ↔ ∀ before step after, steps = before ++ step :: after → step.Accepted →
      Clean (pageAfter before) step := by
  have hstep : ∀ (tci : Tci) (step : GpStep),
      SeesOnlyItself tci step ↔ (step.Accepted → Clean tci step) := by
    intro tci step
    rw [seesOnlyItself_iff, ← GpStep.written_ne_none_iff]
    exact Decidable.or_iff_not_imp_left
  unfold Isolated
  simp only [hstep]

/-! ## A stale length -/

/-- An operation with one temporary output reference. -/
def tempOutput (buffer size : UInt64) : Operation where
  started := 0
  paramTypes := 0x6
  params := fun _ => { tmpBuffer := buffer, tmpSize := size }

/-- The operation, with its buffer mapped at `0x7000`; the secure world answers and changes nothing
else. -/
def tempOutputStep (buffer size : UInt64) : GpStep where
  type := 2
  commandId := 1
  operation := some (tempOutput buffer size)
  answers := ⟨false, some fun _ => 0x7000⟩
  secureWorld := fun tci => { tci with returnOrigin := teecOriginTrustedApp, returnStatus := 0 }

/-- An operation with a buffer of 16 bytes, and one that asks for the required size with `NULL`:
the second is presented with the buffer of the first. -/
theorem isolated_not_nullAfterBuffer :
    (∃ view, (tempOutputStep 0 0).presented (pageAfter [tempOutputStep 0x1000 16]) = some view ∧
      view.params 0 = ⟨0x7000, 16, 0⟩) ∧
      ¬ Isolated [tempOutputStep 0x1000 16, tempOutputStep 0 0] := by
  have hview : ∃ view, (tempOutputStep 0 0).presented (pageAfter [tempOutputStep 0x1000 16]) =
      some view ∧ view.params 0 = ⟨0x7000, 16, 0⟩ := ⟨_, rfl, rfl⟩
  refine ⟨hview, fun h => ?_⟩
  obtain ⟨view, hpresented, hslot⟩ := hview
  obtain ⟨-, hempty⟩ := h [tempOutputStep 0x1000 16] (tempOutputStep 0 0) [] rfl
  have hzero := hempty _ view 0 rfl hpresented ⟨(0, 0), rfl, .inl rfl⟩
  rw [hslot] at hzero
  cases hzero

end McDaemon.Client.Gp
