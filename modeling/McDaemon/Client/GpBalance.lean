/-
# McDaemon.Client.GpBalance — what an operation has mapped, and what is unmapped behind it.

The setup maps what the caller's parameters say; the unwinding unmaps what the slots of the page
say, which the secure world and earlier operations have written too, and it gives up on some
answers.  A call that does not close its session unmaps what it has mapped exactly when the page
that it unwinds shows the same buffers.
-/
import McDaemon.Client.GpSession

namespace McDaemon.Client.Gp

/-! ## Mapped and unmapped -/

/-- The buffers that `client.map` maps, with the secure addresses that it finds; it skips those at
address 0. -/
def Setup.mapped (svas : Nat → UInt64) : Nat → List (Buffer × Fin 4) → List Buffer
  | _, [] => []
  | k, (b, _) :: bufs =>
    if b.va ≠ 0 then { b with sva := svas k } :: mapped svas (k + 1) bufs
    else mapped svas (k + 1) bufs

/-- What `_TEEC_SetupOperation` has mapped when it returns.  Mapping is the last thing that can
fail. -/
def mappedBy (operation : Option Operation) (answers : SetupAnswers) : List Buffer :=
  match operation with
  | none => []
  | some op =>
    if ((Setup.loop op).mapBuffers answers).result = teecSuccess then
      match answers.map with
      | some svas => Setup.mapped svas 0 (Setup.loop op).bufs
      | none => []
    else []

/-- The page as it is unwound after a setup that has succeeded. -/
def CallAnswers.page (answers : CallAnswers) (tci : Tci) : Tci :=
  if answers.notify then answers.secureWorld tci else tci

/-- Of the buffers that it is passed, `client.unmap` skips those at address 0 as well. -/
def notNull (bufs : List Buffer) : List Buffer := bufs.filter fun b => b.va ≠ 0

/-- What `client.unmap` unmaps of what `_TEEC_UnwindOperation` passes to it during `_TEEC_CallTA`, be
it at the end or behind a setup that fails. -/
def unmappedBy (tci : Tci) (operation : Option Operation) (answers : CallAnswers) : List Buffer :=
  let r := setupOperation tci operation answers.setup
  if r.result ≠ teecSuccess then notNull r.unmapped
  else notNull
    (unwindOperation (answers.page r.tci) r.operation (answers.teecError = teecSuccess)).unmapped

/-- Address, secure address and length of a buffer. -/
def Buffer.key (b : Buffer) : UInt64 × UInt64 × UInt32 := (b.va, b.sva, b.len)

/-- The session has been closed, or the buffers that are unmapped are those that were mapped. -/
def Balanced (tci : Tci) (operation : Option Operation) (answers : CallAnswers) : Prop :=
  (callTA tci operation answers).closed = true ∨
    ((unmappedBy tci operation answers).map Buffer.key).Perm
      ((mappedBy operation answers.setup).map Buffer.key)

/-! ## The condition -/

/-- The answers on which unwinding gives up. -/
def Tci.GivesUp (tci : Tci) : Prop :=
  tci.returnOrigin = 0 ∨ (tci.returnOrigin ≠ teecOriginTrustedApp ∧ tci.returnStatus ≠ teecSuccess)

instance (tci : Tci) : Decidable tci.GivesUp :=
  inferInstanceAs (Decidable (_ ∨ _))

/-- What a slot shows of a memory reference of the operation, if it has a length. -/
def Operation.shownAt (op : Operation) (params : Fin 4 → ParameterInternal) (i : Fin 4) :
    List Buffer :=
  match op.reference i with
  | none => []
  | some r =>
    if 0 < (params i).sVirtualLen then
      [{ va := r.1, len := (params i).sVirtualLen, sva := (params i).sVirtualAddr.toUInt64 }]
    else []

def Operation.shown (op : Operation) (tci : Tci) : List Buffer :=
  (List.finRange 4).flatMap (op.shownAt tci.operation.params)

/-- A page shows, at the references of the operation that are not at address 0, the buffers `bs` and
no others, or unwinding gives up on it and there are none. -/
def Operation.Shows (op : Operation) (tci : Tci) (bs : List Buffer) : Prop :=
  if tci.GivesUp then bs = []
  else ((notNull (op.shown tci)).map Buffer.key).Perm (bs.map Buffer.key)

/-- An operation that the setup refuses finds a page that shows no buffers at its references; and
the page that comes back, when nothing fails behind the setup, shows those that have been mapped. -/
structure Restores (tci : Tci) (operation : Option Operation) (answers : CallAnswers) : Prop where
  refused : ∀ op, operation = some op → ¬ SetupAccepts operation answers.setup → op.Shows tci []
  answered : ∀ op, operation = some op → SetupAccepts operation answers.setup →
    answers.teecError = teecSuccess →
    op.Shows (answers.page (setupOperation tci operation answers.setup).tci)
      (mappedBy operation answers.setup)

/-! ## Unwinding -/

theorem Unwind.bufs_push (u : Unwind) (imp : ParameterInternal) (va : UInt64) :
    (u.push imp va).bufs = u.bufs ++
      if 0 < imp.sVirtualLen then
        [{ va := va, len := imp.sVirtualLen, sva := imp.sVirtualAddr.toUInt64 }]
      else [] := by
  unfold Unwind.push
  split_ifs
  · rfl
  · rw [List.append_nil]

theorem Unwind.bufs_copy (u : Unwind) (copyValues : Bool) (i : Fin 4)
    (f : Parameter → Parameter) : (u.copy copyValues i f).bufs = u.bufs := by
  cases copyValues <;> rfl

/-- One round of the loop. -/
theorem Unwind.bufs_param (tci : Tci) (op : Operation) (copyValues : Bool) (u : Unwind)
    (i : Fin 4) :
    (u.param tci op copyValues i).bufs = u.bufs ++ op.shownAt tci.operation.params i := by
  unfold Unwind.param Operation.shownAt Operation.reference
  cases op.paramType i with
  | none => simp
  | some t =>
    cases t with
    | none => simp [Parameter.reference]
    | value d => cases d <;> simp [Parameter.reference, Unwind.bufs_copy]
    | memrefTemp d | memrefWhole | memrefPartial d =>
      simp only [Unwind.bufs_push, Unwind.bufs_copy, Option.bind_some, Parameter.reference]

theorem Unwind.bufs_foldl (tci : Tci) (op : Operation) (copyValues : Bool) (is : List (Fin 4))
    (u : Unwind) : (is.foldl (Unwind.param tci op copyValues) u).bufs =
      u.bufs ++ is.flatMap (op.shownAt tci.operation.params) := by
  induction is generalizing u with
  | nil => simp
  | cons i is ih =>
    rw [List.foldl_cons, ih, Unwind.bufs_param, List.flatMap_cons, List.append_assoc]

theorem Operation.length_shownAt_le (op : Operation) (params : Fin 4 → ParameterInternal)
    (i : Fin 4) : (op.shownAt params i).length ≤ 1 := by
  unfold Operation.shownAt
  split
  · exact Nat.zero_le 1
  · split <;> simp

theorem Operation.shown_eq (op : Operation) (tci : Tci) :
    op.shown tci = [0, 1, 2, 3].flatMap (op.shownAt tci.operation.params) := rfl

/-- What an unwinding unmaps is what the page shows, unless it gives up. -/
theorem unmapped_unwindOperation (tci : Tci) (op : Operation) (copyValues : Bool) :
    (unwindOperation tci (some op) copyValues).unmapped =
      if tci.GivesUp then [] else op.shown tci := by
  have hbufs := Unwind.bufs_foldl tci { op with started := 2 } copyValues [0, 1, 2, 3]
    ⟨op.params, []⟩
  have hshown : ([0, 1, 2, 3].flatMap
      (({ op with started := 2 } : Operation).shownAt tci.operation.params)) = op.shown tci := rfl
  rw [hshown, List.nil_append] at hbufs
  have hlen : ¬ mcMapMax < (op.shown tci).length := by
    have h0 := op.length_shownAt_le tci.operation.params 0
    have h1 := op.length_shownAt_le tci.operation.params 1
    have h2 := op.length_shownAt_le tci.operation.params 2
    have h3 := op.length_shownAt_le tci.operation.params 3
    simp only [Operation.shown_eq, List.flatMap_cons, List.flatMap_nil, List.length_append,
      List.length_nil, mcMapMax]
    omega
  unfold unwindOperation
  dsimp only
  by_cases hgive : tci.GivesUp
  · rw [if_pos hgive, if_pos (show _ ∨ _ from hgive)]
  · rw [if_neg hgive, if_neg (show ¬ (_ ∨ _) from hgive), hbufs, if_neg hlen]

/-! ## A setup that is refused -/

/-- The loop writes to the slots of values. -/
theorem Setup.stores_param {op : Operation} {s : Setup} {i : Fin 4} {w : Store}
    (hw : w ∈ (s.param op i).stores) : w ∈ s.stores ∨ op.reference w.slot = none := by
  unfold Setup.param at hw
  dsimp only at hw
  by_cases hfailed : s.result ≠ teecSuccess
  · rw [if_pos hfailed] at hw
    exact .inl hw
  · rw [if_neg hfailed] at hw
    have hpush : ∀ (s : Setup) va size flags pt,
        ((s.push i va size flags).addParamType i pt).stores = s.stores := fun _ _ _ _ _ => rfl
    cases ht : op.paramType i with
    | none =>
      rw [ht] at hw
      exact .inl hw
    | some t =>
      rw [ht] at hw
      cases t with
      | none => exact .inl hw
      | value d =>
        have hvalue : op.reference i = none := by
          rw [Operation.reference, ht]
          rfl
        cases d with
        | output => exact .inl hw
        | input | inout =>
          rcases List.mem_append.mp hw with hw | hw
          · exact .inl hw
          · rw [List.mem_singleton.mp hw]
            exact .inr hvalue
      | memrefTemp d =>
        dsimp only at hw
        split_ifs at hw <;> exact .inl hw
      | memrefWhole =>
        dsimp only at hw
        split_ifs at hw <;> exact .inl hw
      | memrefPartial d =>
        dsimp only [Setup.partialParam] at hw
        split_ifs at hw <;> exact .inl hw

theorem Setup.stores_foldl {op : Operation} {is : List (Fin 4)} {s : Setup} {w : Store}
    (hw : w ∈ (is.foldl (Setup.param op) s).stores) :
    w ∈ s.stores ∨ op.reference w.slot = none := by
  induction is generalizing s with
  | nil => exact .inl hw
  | cons i is ih =>
    rcases ih hw with hw | hnone
    · exact Setup.stores_param hw
    · exact .inr hnone

/-- A setup that fails has not come to the writes behind its map. -/
theorem Setup.stores_mapBuffers {s : Setup} {answers : SetupAnswers}
    (h : (s.mapBuffers answers).result ≠ teecSuccess) :
    (s.mapBuffers answers).stores = s.stores := by
  unfold Setup.mapBuffers at h ⊢
  dsimp only at h ⊢
  generalize hexcess : (if mcMapMax < s.bufs.length then { s with result := teecErrorExcessData }
    else s) = s₁ at h ⊢
  generalize hcancel : (if s₁.result = teecSuccess ∧ answers.cancelled = true then
    { s₁ with returnOrigin := some teecOriginComms, result := teecErrorCancel } else s₁) = s₂
    at h ⊢
  have hsame : s₂.stores = s.stores := by
    rw [← hcancel, ← hexcess]
    split_ifs <;> rfl
  by_cases hmap : s₂.result = teecSuccess ∧ 0 < s₂.bufs.length
  · rw [if_pos hmap] at h ⊢
    cases hanswer : answers.map with
    | none => exact hsame
    | some svas =>
      rw [hanswer] at h
      exact absurd hmap.1 h
  · rw [if_neg hmap]
    exact hsame

/-- The writes of a setup that fails do not change what the page shows. -/
theorem shown_of_stores {op : Operation} {stores : List Store} {tci tci' : Tci}
    (hparams : tci'.operation.params = stores.foldl Store.apply tci.operation.params)
    (hstores : ∀ w ∈ stores, op.reference w.slot = none) : op.shown tci' = op.shown tci := by
  unfold Operation.shown
  refine congrArg (List.flatMap · (List.finRange 4)) (funext fun j => ?_)
  unfold Operation.shownAt
  cases href : op.reference j with
  | none => rfl
  | some r =>
    obtain ⟨words, hsome, hfold⟩ := foldl_apply stores j
    have hwords : words = none := by
      cases words with
      | none => rfl
      | some x =>
        obtain ⟨w, hw, rfl⟩ := hsome.mp rfl
        rw [hstores w hw] at href
        cases href
    dsimp only
    rw [hparams, hfold, hwords]
    rfl

theorem unmapped_of_written {op : Operation} {n : UInt32} {stores : List Store} {tci tci' : Tci}
    (horigin : tci'.returnOrigin = tci.returnOrigin)
    (hstatus : tci'.returnStatus = tci.returnStatus)
    (hparams : tci'.operation.params = stores.foldl Store.apply tci.operation.params)
    (hstores : ∀ w ∈ stores, op.reference w.slot = none) :
    (unwindOperation tci' (some { op with started := n }) false).unmapped =
      if tci.GivesUp then [] else op.shown tci := by
  have hshown : ({ op with started := n } : Operation).shown tci' = op.shown tci' := rfl
  have hgives : tci'.GivesUp ↔ tci.GivesUp := by
    rw [Tci.GivesUp, Tci.GivesUp, horigin, hstatus]
  simp only [unmapped_unwindOperation, hshown, hgives, shown_of_stores hparams hstores]

/-- A setup that is refused unmaps what the page shows. -/
theorem unmapped_of_refused {tci : Tci} {op : Operation} {answers : SetupAnswers}
    (h : (setupOperation tci (some op) answers).result ≠ teecSuccess) :
    (setupOperation tci (some op) answers).unmapped =
      if tci.GivesUp then [] else op.shown tci := by
  have hstores : ((Setup.loop op).mapBuffers answers).result ≠ teecSuccess →
      ∀ w ∈ ((Setup.loop op).mapBuffers answers).stores, op.reference w.slot = none := by
    intro hresult w hw
    rw [Setup.stores_mapBuffers hresult] at hw
    exact (Setup.stores_foldl hw).resolve_left List.not_mem_nil
  have hloop : Setup.loop { op with started := 1 } = Setup.loop op := rfl
  unfold setupOperation at h ⊢
  dsimp only at h ⊢
  rw [hloop] at h ⊢
  generalize (Setup.loop op).mapBuffers answers = s at h hstores ⊢
  by_cases hresult : s.result ≠ teecSuccess
  · rw [if_pos hresult]
    exact unmapped_of_written rfl rfl rfl (hstores hresult)
  · rw [if_neg hresult] at h
    exact absurd rfl h

/-! ## Balance -/

theorem Operation.shows_iff (op : Operation) (tci : Tci) (bs : List Buffer) :
    ((notNull (if tci.GivesUp then [] else op.shown tci)).map Buffer.key).Perm
      (bs.map Buffer.key) ↔ op.Shows tci bs := by
  unfold Operation.Shows
  split_ifs
  · rw [notNull, List.filter_nil, List.map_nil, List.nil_perm, List.map_eq_nil_iff]
  · exact Iff.rfl

theorem mappedBy_of_refused {operation : Option Operation} {answers : SetupAnswers}
    (h : ¬ SetupAccepts operation answers) : mappedBy operation answers = [] := by
  cases operation with
  | none => rfl
  | some op =>
    let step : GpStep := ⟨0, 0, some op, answers, id⟩
    have hwritten : ¬ step.written ≠ none := fun hne => h (GpStep.written_ne_none_iff.mp hne)
    unfold mappedBy
    dsimp only
    rw [if_neg]
    intro hresult
    apply hwritten
    simp [step, GpStep.written, hresult]

theorem unmappedBy_of_refused {tci : Tci} {op : Operation} {answers : CallAnswers}
    (h : ¬ SetupAccepts (some op) answers.setup) :
    unmappedBy tci (some op) answers = notNull (if tci.GivesUp then [] else op.shown tci) := by
  have hresult : (setupOperation tci (some op) answers.setup).result ≠ teecSuccess :=
    fun hsuccess => h ((setupOperation_success_iff tci _ _).mp hsuccess)
  unfold unmappedBy
  dsimp only
  rw [if_pos hresult, unmapped_of_refused hresult]

/-- A setup that succeeds leaves the parameters of the operation alone. -/
theorem operation_of_accepted {tci : Tci} {op : Operation} {answers : SetupAnswers}
    (h : (setupOperation tci (some op) answers).result = teecSuccess) :
    (setupOperation tci (some op) answers).operation = some { op with started := 1 } := by
  unfold setupOperation at h ⊢
  dsimp only at h ⊢
  generalize (Setup.loop { op with started := 1 }).mapBuffers answers = s at h ⊢
  by_cases hresult : s.result ≠ teecSuccess
  · rw [if_pos hresult] at h
    exact absurd h hresult
  · rw [if_neg hresult]

theorem unmappedBy_of_accepted {tci : Tci} {op : Operation} {answers : CallAnswers}
    (h : SetupAccepts (some op) answers.setup) :
    unmappedBy tci (some op) answers =
      let page := answers.page (setupOperation tci (some op) answers.setup).tci
      notNull (if page.GivesUp then [] else op.shown page) := by
  have hresult := (setupOperation_success_iff tci (some op) answers.setup).mpr h
  unfold unmappedBy
  dsimp only
  rw [if_neg (not_not.mpr hresult), operation_of_accepted hresult, unmapped_unwindOperation]
  rfl

/-- **Map and unmap.**  Whatever the operation, the page it finds and the answers are,
`_TEEC_CallTA` closes the session or unmaps what it has mapped exactly when the pages that are
unwound show what has been mapped. -/
theorem balanced_iff_restores (tci : Tci) (operation : Option Operation) (answers : CallAnswers) :
    Balanced tci operation answers ↔ Restores tci operation answers := by
  cases operation with
  | none =>
    refine iff_of_true (.inr (List.Perm.refl _)) ⟨?_, ?_⟩
    · intro op hop
      cases hop
    · intro op hop
      cases hop
  | some op =>
    unfold Balanced
    rw [callTA_closed_iff]
    by_cases haccepts : SetupAccepts (some op) answers.setup
    · rw [unmappedBy_of_accepted haccepts, op.shows_iff]
      constructor
      · intro h
        refine ⟨fun _ _ hno => absurd haccepts hno, ?_⟩
        rintro _ ⟨⟩ - hsuccess
        exact h.resolve_left fun hclosed => hclosed.2 hsuccess
      · intro h
        by_cases hsuccess : answers.teecError = teecSuccess
        · exact .inr (h.answered op rfl haccepts hsuccess)
        · exact .inl ⟨haccepts, hsuccess⟩
    · rw [unmappedBy_of_refused haccepts, mappedBy_of_refused haccepts, op.shows_iff]
      constructor
      · intro h
        refine ⟨?_, fun _ _ hyes => absurd hyes haccepts⟩
        rintro _ ⟨⟩ -
        exact h.resolve_left fun hclosed => haccepts hclosed.1
      · intro h
        exact .inr (h.refused op rfl haccepts)

/-! ## Stale and lost buffers -/

/-- How the secure world answers a call: it returns `origin` and `status`, and leaves the slots
alone. -/
def answered (origin : UInt32) (status : TeecResult) : CallAnswers where
  setup := ⟨false, some fun _ => 0x7000⟩
  notify := true
  secureWorld := fun tci => { tci with returnOrigin := origin, returnStatus := status }
  wait := .notified

/-- After an operation with a buffer of 16 bytes, one with a buffer of size 0 unmaps a buffer that
it has not mapped; and an operation that the TEE answers with an error keeps its buffer mapped in
a session that stays open. -/
theorem not_balanced_staleSlot :
    ¬ Balanced (callTA .fresh (some (tempOutput 0x1000 16))
        (answered teecOriginTrustedApp teecSuccess)).tci
      (some (tempOutput 0x2000 0)) (answered teecOriginTrustedApp teecSuccess) ∧
    ¬ Balanced .fresh (some (tempOutput 0x1000 16)) (answered teecOriginTee teecErrorGeneric) := by
  constructor
  · rintro (hclosed | hperm)
    · exact absurd hclosed (by decide)
    · exact absurd hperm.length_eq (by decide)
  · rintro (hclosed | hperm)
    · exact absurd hclosed (by decide)
    · exact absurd hperm.length_eq (by decide)

end McDaemon.Client.Gp
