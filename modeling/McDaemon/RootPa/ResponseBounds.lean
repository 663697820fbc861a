/-
# McDaemon.RootPa.ResponseBounds — where the elements of a response are read.

The header of a response lists elements of the mapped buffer, each with an offset and a length that
the secure world has chosen.  `getRspElementInfo` is the one place where they are compared with the
size of the buffer; what `handleResponse` copies and what `storeContainers` hands to the registry
relies on it.
-/
import McDaemon.RootPa.StoreContainers

namespace McDaemon.RootPa.Store

open McDaemon.Registry McDaemon.RootPa.Commands

/-! ## What is read -/

/-- The one element that goes to the registry, if there is such an element. -/
def readElement (handle : CmtHandle) (elementIndex : Nat) : List CmpMapOffsetInfo :=
  (getRspElementInfo elementIndex handle).toList

/-- Both elements are looked up before the second is written, and the first is only written behind
that. -/
def readTwo (handle : CmtHandle) (elementIndex : Nat) (writeSecond : RegAnswer) :
    List CmpMapOffsetInfo :=
  match getRspElementInfo elementIndex handle, getRspElementInfo (elementIndex + 1) handle with
  | some first, some second =>
    if writeSecond.code = mcDrvOk then [second, first] else [second]
  | _, _ => []

/-- The elements that `storeContainers` hands to the registry. -/
def storeReads (commandId : CmpCommandId) (handle : CmtHandle) (calls : RegCalls)
    (elementIndex : Nat) : List CmpMapOffsetInfo :=
  match commandId with
  | .generateAuthToken | .rootContRegisterActivate | .rootContLockByRoot | .rootContUnlockByRoot
  | .spContUnlockByRoot | .spContUnlockBySp | .spContActivate | .spContLockByRoot
  | .spContLockBySp | .spContUnregister | .tltContActivate | .tltContLockBySp | .tltContUnlockBySp
  | .tltContUnregister => readElement handle elementIndex
  | .spContRegister | .spContRegisterActivate => readTwo handle elementIndex calls.regWriteSp
  | .tltContRegister | .tltContRegisterActivate => readTwo handle elementIndex calls.regWriteTlt
  | _ => []

/-- What decides how far `handleResponse` gets: the response is one to the command, the buffer for
its copy can be allocated, and its return code is `SUCCESSFUL`. -/
structure ResponseAnswers where
  valid : Bool
  malloc : Bool
  successful : Bool
  calls : RegCalls

/-- The elements that `handleResponse` copies, which is the first, or hands to the registry. -/
def responseReads (commandId : CmpCommandId) (handle : CmtHandle) (answers : ResponseAnswers) :
    List CmpMapOffsetInfo :=
  if answers.valid = false then []
  else
    match getRspElementInfo 1 handle with
    | none => []
    | some e =>
      if answers.malloc = false then []
      else if answers.successful = false then [e]
      else e :: storeReads commandId handle answers.calls 2

/-! ## The reads of `storeContainers` -/

section Congr

variable {handle handle' : CmtHandle}

theorem storeElement_congr {n : Nat} {write : List UInt8 → Registry → Stored} {r : Registry}
    (hsame : ∀ n, getRspElementInfo n handle' = getRspElementInfo n handle)
    (hbytes : ∀ e ∈ readElement handle n, handle'.bytes e = handle.bytes e) :
    storeElement handle' n write r = storeElement handle n write r := by
  unfold storeElement
  rw [hsame]
  cases he : getRspElementInfo n handle with
  | none => rfl
  | some e =>
    dsimp only
    rw [hbytes e (by simp [readElement, he])]

theorem storeTwo_congr {n : Nat} {a : RegAnswer} {k : Key}
    {writeFirst : List UInt8 → Registry → Stored} {r : Registry}
    (hsame : ∀ n, getRspElementInfo n handle' = getRspElementInfo n handle)
    (hbytes : ∀ e ∈ readTwo handle n a, handle'.bytes e = handle.bytes e) :
    storeTwo handle' n (fun content => a.put k (some content)) writeFirst r =
      storeTwo handle n (fun content => a.put k (some content)) writeFirst r := by
  unfold storeTwo
  rw [hsame]
  cases hfirst : getRspElementInfo n handle with
  | none => rfl
  | some first =>
    dsimp only
    cases hsecond : getRspElementInfo (n + 1) handle with
    | none =>
      simp only [storeElement, hsame, hsecond, if_neg minusOne_ne_ok]
    | some second =>
      have hreads : readTwo handle n a =
          if a.code = mcDrvOk then [second, first] else [second] := by
        simp only [readTwo, hfirst, hsecond]
      rw [hreads] at hbytes
      have hstored : storeElement handle' (n + 1) (fun content => a.put k (some content)) r =
          storeElement handle (n + 1) (fun content => a.put k (some content)) r := by
        refine storeElement_congr hsame fun e he => hbytes e ?_
        have he : e = second := by simpa [readElement, hsecond, eq_comm] using he
        split <;> simp [he]
      have hcode : (storeElement handle (n + 1) (fun content => a.put k (some content)) r).mcRet =
          a.code := by
        simp only [storeElement, hsecond]
        rfl
      rw [hstored, hcode]
      split
      · next hok =>
        rw [if_pos hok] at hbytes
        rw [hbytes first (by simp)]
      · rfl

/-- **What `storeContainers` does depends on the elements that it reads alone.** -/
theorem storeContainers_congr {commandId : CmpCommandId} {statics : Statics} {calls : RegCalls}
    {n : Nat} {r : Registry}
    (hsame : ∀ n, getRspElementInfo n handle' = getRspElementInfo n handle)
    (hbytes : ∀ e ∈ storeReads commandId handle calls n, handle'.bytes e = handle.bytes e) :
    storeContainers commandId handle' statics calls n r =
      storeContainers commandId handle statics calls n r := by
  cases commandId with
  | generateAuthToken | rootContLockByRoot | rootContUnlockByRoot | spContUnlockByRoot
  | spContUnlockBySp | spContActivate | spContLockByRoot | spContLockBySp | spContUnregister
  | tltContActivate | tltContLockBySp | tltContUnlockBySp | tltContUnregister =>
    exact storeElement_congr hsame hbytes
  | rootContRegisterActivate =>
    have hroot : storeElement handle' n (regWriteRoot calls) r =
        storeElement handle n (regWriteRoot calls) r := storeElement_congr hsame hbytes
    unfold storeContainers
    dsimp only
    rw [hroot]
  | spContRegister | spContRegisterActivate =>
    exact storeTwo_congr (k := .sp statics.spid) hsame hbytes
  | tltContRegister | tltContRegisterActivate =>
    unfold storeContainers
    exact storeTwo_congr (k := .tlt statics.tltUuid statics.spid) hsame hbytes
  | _ => rfl

end Congr

/-! ## In and out of bounds -/

/-- Offset and length add up to a number that 32 bits do not hold, and what is left of it does not
exceed the size. -/
def CmpMapOffsetInfo.WrapsInto (e : CmpMapOffsetInfo) (size : UInt32) : Prop :=
  4294967296 ≤ e.offset.toNat + e.len.toNat ∧
    e.offset.toNat + e.len.toNat - 4294967296 ≤ size.toNat

/-- Every element that `getRspElementInfo` gives lies in the buffer, and everything that is copied
from the buffer or handed to the registry does. -/
structure InBounds (handle : CmtHandle) : Prop where
  elements : ∀ n e, getRspElementInfo n handle = some e → e.Inside handle.mappedSize
  reads : ∀ commandId answers, ∀ e ∈ responseReads commandId handle answers,
    e.Inside handle.mappedSize

/-- The comparison is right unless the sum wraps. -/
theorem inside_iff_of_accepted {n : Nat} {handle : CmtHandle} {e : CmpMapOffsetInfo}
    (h : getRspElementInfo n handle = some e) :
    e.Inside handle.mappedSize ↔ ¬ e.WrapsInto handle.mappedSize := by
  unfold getRspElementInfo at h
  obtain ⟨-, h⟩ := Option.ite_none_left_eq_some.mp h
  obtain ⟨hle, h⟩ := Option.ite_none_left_eq_some.mp h
  obtain rfl := Option.some.inj h
  have hsum := mt UInt32.lt_iff_toNat_lt.mpr hle
  rw [UInt32.toNat_add] at hsum
  have hoffset := (handle.wsm (n - 1)).offset.toNat_lt
  have hlen := (handle.wsm (n - 1)).len.toNat_lt
  have hsize := handle.mappedSize.toNat_lt
  unfold CmpMapOffsetInfo.Inside CmpMapOffsetInfo.WrapsInto
  omega

/-- An element that wraps into the buffer is accepted. -/
theorem accepted_of_wrapsInto {n : Nat} {handle : CmtHandle}
    (h : (handle.wsm n).WrapsInto handle.mappedSize) :
    getRspElementInfo (n + 1) handle = some (handle.wsm n) := by
  obtain ⟨hwraps, hle⟩ := h
  unfold getRspElementInfo
  rw [if_neg (Nat.succ_ne_zero n), Nat.add_sub_cancel, if_neg]
  intro hlt
  have hlt := UInt32.lt_iff_toNat_lt.mp hlt
  rw [UInt32.toNat_add] at hlt
  have hoffset := (handle.wsm n).offset.toNat_lt
  have hlen := (handle.wsm n).len.toNat_lt
  omega

theorem accepted_of_storeReads {commandId : CmpCommandId} {handle : CmtHandle} {calls : RegCalls}
    {n : Nat} {e : CmpMapOffsetInfo} (h : e ∈ storeReads commandId handle calls n) :
    ∃ m, getRspElementInfo m handle = some e := by
  have hone : e ∈ readElement handle n → ∃ m, getRspElementInfo m handle = some e :=
    fun h => ⟨n, Option.mem_toList.mp h⟩
  have htwo : ∀ a, e ∈ readTwo handle n a → ∃ m, getRspElementInfo m handle = some e := by
    intro a h
    unfold readTwo at h
    split at h
    · next first second hfirst hsecond =>
      have he : e = first ∨ e = second := by
        split at h
        · simpa [or_comm] using h
        · exact .inr (List.mem_singleton.mp h)
      rcases he with rfl | rfl
      · exact ⟨n, hfirst⟩
      · exact ⟨n + 1, hsecond⟩
    · cases h
  cases commandId with
  | generateAuthToken | rootContRegisterActivate | rootContLockByRoot | rootContUnlockByRoot
  | spContUnlockByRoot | spContUnlockBySp | spContActivate | spContLockByRoot | spContLockBySp
  | spContUnregister | tltContActivate | tltContLockBySp | tltContUnlockBySp | tltContUnregister =>
    exact hone h
  | spContRegister | spContRegisterActivate | tltContRegister | tltContRegisterActivate =>
    exact htwo _ h
  | _ => cases h

/-- Only what `getRspElementInfo` has given is read. -/
theorem accepted_of_responseReads {commandId : CmpCommandId} {handle : CmtHandle}
    {answers : ResponseAnswers} {e : CmpMapOffsetInfo}
    (h : e ∈ responseReads commandId handle answers) :
    ∃ m, getRspElementInfo m handle = some e := by
  unfold responseReads at h
  split at h
  · cases h
  split at h
  · cases h
  next f hf =>
  split at h
  · cases h
  split at h
  · rw [List.mem_singleton.mp h]
    exact ⟨1, hf⟩
  · rcases List.mem_cons.mp h with rfl | h
    · exact ⟨1, hf⟩
    · exact accepted_of_storeReads h

/-- **When responses are read in bounds.**  For every content of the header and the element table:
exactly when no element wraps into the buffer. -/
theorem inBounds_iff (handle : CmtHandle) :
    InBounds handle ↔ ∀ n, ¬ (handle.wsm n).WrapsInto handle.mappedSize := by
  constructor
  · intro h n hwraps
    have haccepted := accepted_of_wrapsInto hwraps
    exact (inside_iff_of_accepted haccepted).mp (h.elements _ _ haccepted) hwraps
  · intro h
    have helements : ∀ n e, getRspElementInfo n handle = some e → e.Inside handle.mappedSize := by
      intro n e he
      have hwsm : e = handle.wsm (n - 1) := by
        unfold getRspElementInfo at he
        obtain ⟨-, he⟩ := Option.ite_none_left_eq_some.mp he
        obtain ⟨-, he⟩ := Option.ite_none_left_eq_some.mp he
        exact (Option.some.inj he).symm
      rw [inside_iff_of_accepted he, hwsm]
      exact h (n - 1)
    refine ⟨helements, fun commandId answers e he => ?_⟩
    obtain ⟨m, hm⟩ := accepted_of_responseReads he
    exact helements m e hm

/-- In bounds, what is stored is determined by the buffer. -/
theorem storeContainers_of_buffer {handle : CmtHandle} (h : InBounds handle) {mapped : Nat → UInt8}
    (hmapped : ∀ i < handle.mappedSize.toNat, mapped i = handle.mapped i)
    (commandId : CmpCommandId) (statics : Statics) (calls : RegCalls) (n : Nat) (r : Registry) :
    storeContainers commandId { handle with mapped := mapped } statics calls n r =
      storeContainers commandId handle statics calls n r := by
  refine storeContainers_congr (fun _ => rfl) fun e he => ?_
  obtain ⟨m, hm⟩ := accepted_of_storeReads he
  have hinside : e.offset.toNat + e.len.toNat ≤ handle.mappedSize.toNat := h.elements m e hm
  refine List.map_congr_left fun i hi => hmapped _ ?_
  have hlt := List.mem_range.mp hi
  omega

/-! ## An element that wraps -/

/-- A response whose only element has 32 bytes and begins 16 bytes below the end of the 32-bit
range. -/
def wrappingElement : CmtHandle where
  wsm _ := ⟨0xFFFFFFF0, 0x20⟩
  mapped _ := 0
  mappedSize := 0x100

/-- The element is accepted, and copied from far outside the buffer. -/
theorem not_inBounds_wrappingElement :
    getRspElementInfo 1 wrappingElement = some ⟨0xFFFFFFF0, 0x20⟩ ∧ ¬ InBounds wrappingElement := by
  have haccepted : getRspElementInfo 1 wrappingElement = some ⟨0xFFFFFFF0, 0x20⟩ := rfl
  refine ⟨haccepted, fun h => ?_⟩
  have hinside := h.elements 1 _ haccepted
  exact absurd (show 0xFFFFFFF0 + 0x20 ≤ 0x100 from hinside) (by decide)

end McDaemon.RootPa.Store
