/-
# McDaemon.RootPa.CmpBlocks — what a preparation does to blocks of memory.

While a command is prepared its buffer may move.  A block that is moved from is given up and another
is allocated, so that there is always one to be freed in the end; but it is the block that has been
mapped only if none of the moves has taken place.
-/
import McDaemon.RootPa.CmpBuffer

namespace McDaemon.RootPa.Cmp

open McDaemon.Lib McDaemon.RootPa.Commands McDaemon.RootPa.Store

/-! ## Buffers that stay where they are -/

/-- The buffer is asked to have a size, and does not move; nor does it behind that, unless it could
not be had. -/
def StaysUnder (mappedSize neededSize : UInt32) (realloc : Realloc) (rest : Prop) : Prop :=
  if neededSize > mappedSize then realloc ≠ .moved ∧ (realloc = .inPlace → rest) else rest

/-- The buffer does not move for the containers, as far as they can be read. -/
def StaysFor (mappedSize : UInt32) (answers : PrepareAnswers) : UInt32 → List Container → Prop
  | _, [] => True
  | offset, c :: cs =>
    (answers.regRead c).mcRet = mcDrvOk →
      StaysUnder mappedSize (offset + (answers.regRead c).contSize) (answers.growForContainer c)
        (StaysFor mappedSize answers (offset + (answers.regRead c).contSize) cs)

/-- The mapped size is enough for the command and its containers, or else `realloc` finds room where
the buffer is, or fails. -/
def Stays (mappedSize : UInt32) (answers : PrepareAnswers) (commandId : CmpCommandId)
    (length : UInt32) : Prop :=
  StaysUnder mappedSize length answers.growForCommand
    (StaysFor mappedSize answers length (added commandId))

/-! ## The blocks of a preparation -/

/-- The blocks that are allocated, and given up. -/
def loans : Loans Event Block where
  given
    | .malloc b | .realloc _ b => some b
    | _ => none
  back := ledger.released

@[simp] theorem setCmdElementInfo_mappedP (elementLength : UInt32) (s : Prep) :
    (setCmdElementInfo elementLength s).mappedP = s.mappedP := by
  unfold setCmdElementInfo
  split <;> rfl

@[simp] theorem setCmdElementInfo_next (elementLength : UInt32) (s : Prep) :
    (setCmdElementInfo elementLength s).next = s.next := by
  unfold setCmdElementInfo
  split <;> rfl

@[simp] theorem setCmdElementInfo_log (elementLength : UInt32) (s : Prep) :
    (setCmdElementInfo elementLength s).log = s.log := by
  unfold setCmdElementInfo
  split <;> rfl

section Blocks

variable {mappedSize : UInt32} {answers : PrepareAnswers} {mapped : Block}
  {Q : Block → Block → List Event → Prop}

/-- A larger buffer is where the old one was, or it is a new block. -/
theorem ensure_blocks
    (hmove : ∀ p next log, Q p next log → Q next (next + 1) (log ++ [.realloc p next]))
    {neededSize : UInt32} {realloc : Realloc} {s t : Prep} (h : Q s.mappedP s.next s.log)
    (ht : ensureMappedBufferSize mappedSize neededSize realloc s = some t) :
    Q t.mappedP t.next t.log := by
  unfold ensureMappedBufferSize at ht
  split at ht
  · cases realloc with
    | failed => cases ht
    | inPlace =>
      obtain rfl := Option.some.inj ht
      exact h
    | moved =>
      obtain rfl := Option.some.inj ht
      exact hmove _ _ _ h
  · obtain rfl := Option.some.inj ht
    exact h

theorem addContainer_blocks
    (hmove : ∀ p next log, Q p next log → Q next (next + 1) (log ++ [.realloc p next]))
    {c : Container} {s : Prep} (h : Q s.mappedP s.next s.log) :
    Q (addContainer mappedSize answers c s).2.mappedP (addContainer mappedSize answers c s).2.next
      (addContainer mappedSize answers c s).2.log := by
  unfold addContainer
  dsimp only
  split
  · split
    · next t ht =>
      have hkept : Q t.mappedP t.next t.log :=
        ensure_blocks (s := { s with mcRet := (answers.regRead c).mcRet }) hmove h ht
      simpa using hkept
    · exact h
  · split
    · exact h
    · exact h

theorem runSteps_blocks
    (hread : ∀ p next log offset len, Q p next log → Q p next (log ++ [.read mapped offset len]))
    (hmove : ∀ p next log, Q p next log → Q next (next + 1) (log ++ [.realloc p next]))
    (steps : List Step) {s : Prep} (h : Q s.mappedP s.next s.log) :
    Q (runSteps mappedSize answers mapped steps s).2.mappedP
      (runSteps mappedSize answers mapped steps s).2.next
      (runSteps mappedSize answers mapped steps s).2.log := by
  induction steps generalizing s with
  | nil => exact h
  | cons step steps ih =>
    have hstep : Q (step.run mappedSize answers mapped s).2.mappedP
        (step.run mappedSize answers mapped s).2.next
        (step.run mappedSize answers mapped s).2.log := by
      cases step with
      | readSpid => exact hread _ _ _ _ _ h
      | readUuid => exact hread _ _ _ _ _ h
      | add c => exact addContainer_blocks hmove h
    unfold runSteps
    dsimp only
    split
    · exact ih hstep
    · exact hstep

/-- **Block rule.** What holds of the handle's block, the next name and the log holds behind a
preparation, if reads of the block that was mapped and moves preserve it. -/
theorem prepareCommand_blocks
    (hread : ∀ p next log offset len, Q p next log → Q p next (log ++ [.read mapped offset len]))
    (hmove : ∀ p next log, Q p next log → Q next (next + 1) (log ++ [.realloc p next]))
    {commandId : CmpCommandId} {length : UInt32} {next : Block} (h : Q mapped next []) {s : Prep}
    (hs : (prepareCommand mappedSize answers commandId length (.start mapped next)).2 = s) :
    Q s.mappedP s.next s.log := by
  have hset : Q (setCmdElementInfo length (.start mapped next)).mappedP
      (setCmdElementInfo length (.start mapped next)).next
      (setCmdElementInfo length (.start mapped next)).log := by
    simpa [Prep.start] using h
  rw [prepareCommand_eq] at hs
  subst hs
  split
  · exact hset
  · exact runSteps_blocks hread hmove _ (ensure_blocks hmove hset ‹_›)

end Blocks

/-- What a preparation owns: it has given up all blocks but the one behind the handle, and has been
given the others by moves; all have names of its own. -/
structure Owned (mapped p next : Block) (log : List Event) : Prop where
  perm : (loans.returned log ++ [p]).Perm (mapped :: loans.out log)
  nodup : (mapped :: loans.out log).Nodup
  range : ∀ b ∈ mapped :: loans.out log, mapped ≤ b ∧ b < next
  quiet : ∀ e ∈ log, (∃ offset len, e = .read mapped offset len) ∨ ∃ b b', e = .realloc b b'

theorem Owned.read {mapped p next : Block} {log : List Event} (h : Owned mapped p next log)
    (offset len : Nat) : Owned mapped p next (log ++ [.read mapped offset len]) := by
  have hout : loans.out (log ++ [.read mapped offset len]) = loans.out log := by
    rw [Loans.out_append]
    exact List.append_nil _
  have hreturned : loans.returned (log ++ [.read mapped offset len]) = loans.returned log := by
    rw [Loans.returned_append]
    exact List.append_nil _
  refine ⟨?_, ?_, ?_, fun e he => ?_⟩
  · rw [hout, hreturned]
    exact h.perm
  · rw [hout]
    exact h.nodup
  · rw [hout]
    exact h.range
  · rcases List.mem_append.mp he with he | he
    · exact h.quiet e he
    · exact .inl ⟨offset, len, List.mem_singleton.mp he⟩

theorem Owned.move {mapped p next : Block} {log : List Event} (h : Owned mapped p next log) :
    Owned mapped next (next + 1) (log ++ [.realloc p next]) := by
  have hout : loans.out (log ++ [.realloc p next]) = loans.out log ++ [next] :=
    Loans.out_append ..
  have hreturned : loans.returned (log ++ [.realloc p next]) = loans.returned log ++ [p] :=
    Loans.returned_append ..
  have hfresh : next ∉ mapped :: loans.out log := fun hmem =>
    Nat.lt_irrefl next (h.range next hmem).2
  refine ⟨?_, ?_, fun b hb => ?_, fun e he => ?_⟩
  · rw [hout, hreturned, ← List.cons_append]
    exact h.perm.append_right [next]
  · rw [hout, ← List.cons_append]
    exact List.nodup_append'.mpr ⟨h.nodup, List.nodup_singleton _,
      List.disjoint_singleton.mpr hfresh⟩
  · rw [hout, ← List.cons_append] at hb
    rcases List.mem_append.mp hb with hb | hb
    · obtain ⟨hle, hlt⟩ := h.range b hb
      exact ⟨hle, Nat.lt_succ_of_lt hlt⟩
    · obtain ⟨hle, hlt⟩ := h.range mapped List.mem_cons_self
      rw [List.mem_singleton.mp hb]
      exact ⟨Nat.le_of_lt (Nat.lt_of_le_of_lt hle hlt), Nat.lt_succ_self next⟩
  · rcases List.mem_append.mp he with he | he
    · exact h.quiet e he
    · exact .inr ⟨p, next, List.mem_singleton.mp he⟩

/-- What a preparation does to blocks. -/
theorem owned_prepareCommand (mappedSize : UInt32) (answers : PrepareAnswers)
    (commandId : CmpCommandId) (length : UInt32) (mapped : Block) {s : Prep}
    (hs : (prepareCommand mappedSize answers commandId length (.start mapped (mapped + 1))).2 = s) :
    Owned mapped s.mappedP s.next s.log := by
  refine prepareCommand_blocks (Q := Owned mapped) (fun _ _ _ _ _ h => h.read _ _)
    (fun _ _ _ h => h.move) ?_ hs
  exact ⟨.refl _, List.nodup_singleton _, by simp [Loans.out], by simp⟩

/-! ## Where the buffer is behind a preparation -/

section Stays

variable {mappedSize : UInt32} {answers : PrepareAnswers} {mapped : Block}

/-- A buffer that has moved does not come back. -/
theorem runSteps_mappedP_ne (steps : List Step) {s : Prep} (hne : s.mappedP ≠ mapped)
    (hlt : mapped < s.next) : (runSteps mappedSize answers mapped steps s).2.mappedP ≠ mapped :=
  (runSteps_blocks (Q := fun p next _ => p ≠ mapped ∧ mapped < next) (fun _ _ _ _ _ h => h)
    (fun _ _ _ h => ⟨Nat.ne_of_gt h.2, Nat.lt_succ_of_lt h.2⟩) steps ⟨hne, hlt⟩).1

/-- The buffer is asked to have a size: it stays if it does so now and in what follows. -/
theorem staysUnder_iff {neededSize : UInt32} {realloc : Realloc} {s failed : Prep}
    (hfailed : failed.mappedP = mapped)
    {rest : Prep → RootpaError × Prep} {P : Prop} (hrest : (rest s).2.mappedP = mapped ↔ P)
    (hmoved : ∀ t, t.mappedP = s.next → t.next = s.next + 1 → (rest t).2.mappedP ≠ mapped) :
    (match ensureMappedBufferSize mappedSize neededSize realloc s with
      | none => (RootpaError.outOfMemory, failed)
      | some t => rest t).2.mappedP = mapped ↔ StaysUnder mappedSize neededSize realloc P := by
  unfold ensureMappedBufferSize StaysUnder
  by_cases hlarge : neededSize > mappedSize
  · rw [if_pos hlarge, if_pos hlarge]
    cases realloc with
    | failed => simpa using hfailed
    | inPlace => simpa using hrest
    | moved =>
      simp only [ne_eq, not_true, false_and, iff_false]
      exact hmoved _ rfl rfl
  · rw [if_neg hlarge, if_neg hlarge]
    exact hrest

/-- The container that a step adds. -/
def Step.added : Step → Option Container
  | .add c => some c
  | _ => none

theorem filterMap_added (commandId : CmpCommandId) :
    (steps commandId).filterMap Step.added = added commandId := by
  cases commandId <;> rfl

/-- The steps behind a container that can be read. -/
theorem runSteps_add (c : Container) (steps : List Step) (s : Prep)
    (hread : (answers.regRead c).mcRet = mcDrvOk) :
    runSteps mappedSize answers mapped (.add c :: steps) s =
      match ensureMappedBufferSize mappedSize (s.offset + (answers.regRead c).contSize)
          (answers.growForContainer c) { s with mcRet := (answers.regRead c).mcRet } with
      | none => (.outOfMemory, { s with mcRet := (answers.regRead c).mcRet })
      | some t => runSteps mappedSize answers mapped steps
          (setCmdElementInfo (answers.regRead c).contSize t) := by
  show (if (addContainer mappedSize answers c s).1 = .ok then
    runSteps mappedSize answers mapped steps (addContainer mappedSize answers c s).2
    else addContainer mappedSize answers c s) = _
  unfold addContainer
  dsimp only
  rw [if_pos hread]
  cases ensureMappedBufferSize mappedSize (s.offset + (answers.regRead c).contSize)
      (answers.growForContainer c) { s with mcRet := (answers.regRead c).mcRet } with
  | none => rfl
  | some t => rfl

theorem runSteps_stays (steps : List Step) {s : Prep} (hs : s.mappedP = mapped)
    (hlt : mapped < s.next) (hstarted : s.elements ≠ []) :
    (runSteps mappedSize answers mapped steps s).2.mappedP = mapped ↔
      StaysFor mappedSize answers s.offset (steps.filterMap Step.added) := by
  induction steps generalizing s with
  | nil => exact iff_of_true hs trivial
  | cons step steps ih =>
    cases step with
    | readSpid =>
      have hread : (runSteps mappedSize answers mapped (.readSpid :: steps) s) =
        runSteps mappedSize answers mapped steps (readSpid mapped s) := rfl
      rw [hread]
      exact ih (s := readSpid mapped s) hs hlt hstarted
    | readUuid =>
      have hread : (runSteps mappedSize answers mapped (.readUuid :: steps) s) =
        runSteps mappedSize answers mapped steps (readUuid mapped s) := rfl
      rw [hread]
      exact ih (s := readUuid mapped s) hs hlt hstarted
    | add c =>
      have hadded : (Step.add c :: steps).filterMap Step.added =
          c :: steps.filterMap Step.added := rfl
      rw [hadded, StaysFor]
      by_cases hread : (answers.regRead c).mcRet = mcDrvOk
      · simp only [hread, forall_const]
        rw [runSteps_add c steps s hread]
        refine staysUnder_iff (by exact hs) ?_ fun t ht hnext => ?_
        · rw [ih (by simpa using hs) (by simpa using hlt)
            (by simp [setCmdElementInfo_of_ne, hstarted])]
          simp [setCmdElementInfo_of_ne, hstarted]
        · refine runSteps_mappedP_ne _ ?_ ?_
          · rw [setCmdElementInfo_mappedP, ht]
            exact Nat.ne_of_gt hlt
          · rw [setCmdElementInfo_next, hnext]
            exact Nat.lt_succ_of_lt hlt
      · have hstop : (runSteps mappedSize answers mapped (.add c :: steps) s).2.mappedP =
            s.mappedP := by
          simp only [runSteps, Step.run, addContainer, if_neg hread]
          split <;> rfl
        rw [hstop]
        exact iff_of_true hs fun h => absurd h hread

/-- The buffer that has been mapped is still there behind a preparation if and only if no call of
`realloc` moves it. -/
theorem prepareCommand_stays {commandId : CmpCommandId} {length : UInt32} {next : Block}
    (hlt : mapped < next) :
    (prepareCommand mappedSize answers commandId length (.start mapped next)).2.mappedP = mapped ↔
      Stays mappedSize answers commandId length := by
  have hset : setCmdElementInfo length (.start mapped next) =
      { Prep.start mapped next with elements := [⟨0, length⟩], offset := length } := by
    simp [setCmdElementInfo, Prep.start]
  rw [prepareCommand_eq, hset]
  refine staysUnder_iff rfl ?_ fun t ht hnext => ?_
  · rw [← filterMap_added]
    exact runSteps_stays _ rfl hlt (List.cons_ne_nil _ _)
  · refine runSteps_mappedP_ne _ ?_ ?_
    · rw [ht]
      exact Nat.ne_of_gt hlt
    · rw [hnext]
      exact Nat.lt_succ_of_lt hlt

theorem staysUnder_of_le {neededSize : UInt32} {realloc : Realloc} {P : Prop}
    (h : neededSize.toNat ≤ mappedSize.toNat) (hP : P) :
    StaysUnder mappedSize neededSize realloc P := by
  unfold StaysUnder
  rw [if_neg]
  · exact hP
  · intro hlt
    have := UInt32.lt_iff_toNat_lt.mp hlt
    omega

/-- What fits is not asked to grow. -/
theorem staysFor_of_le {cs : List Container} {offset : UInt32}
    (h : offset.toNat + (cs.map fun c => (answers.regRead c).contSize.toNat).sum ≤
      mappedSize.toNat) : StaysFor mappedSize answers offset cs := by
  induction cs generalizing offset with
  | nil => trivial
  | cons c cs ih =>
    intro _
    rw [List.map_cons, List.sum_cons] at h
    have hlt := mappedSize.toNat_lt
    have hsum : (offset + (answers.regRead c).contSize).toNat =
        offset.toNat + (answers.regRead c).contSize.toNat := by
      rw [UInt32.toNat_add]
      omega
    apply staysUnder_of_le
    · omega
    · apply ih
      omega

/-- A command that fits the mapped region with its containers stays there. -/
theorem stays_of_needed_le {commandId : CmpCommandId} {length : UInt32}
    (h : needed commandId length answers ≤ mappedSize.toNat) :
    Stays mappedSize answers commandId length := by
  unfold needed at h
  apply staysUnder_of_le
  · omega
  · exact staysFor_of_le h

end Stays

end McDaemon.RootPa.Cmp
