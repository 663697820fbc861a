/-
# McDaemon.RootPa.StoreContainers — what the containers of a response do to the registry.

The content management trustlet answers a command with containers, and RootPA writes them into the
registry under the service provider and the trustlet that the command named; commands that
unregister also clean the container of what they unregister.  Here the registry is what those calls
leave behind: a container under every key that has one.  Each call may fail, and a call that fails
leaves anything it likes under the keys it is about, and nothing elsewhere.

What a response prescribes is stated without the calls, and compared with what they do.
-/
import Mathlib.Logic.Function.Basic
import McDaemon.Registry.Container
import McDaemon.RootPa.CommandList

namespace McDaemon.RootPa.Store

open McDaemon.Registry McDaemon.RootPa.Commands

/-! ## The registry and the calls into it -/

/-- What the registry keeps a container for. -/
inductive Key
  | authToken
  | root
  | sp (spid : Spid)
  | tlt (uuid : Uuid) (spid : Spid)
deriving DecidableEq

/-- A container and what hangs below it: a cleanup takes it all away. -/
def Key.covers : Key → Key → Bool
  | .root, .root | .root, .sp _ | .root, .tlt _ _ => true
  | .sp s, .sp s' | .sp s, .tlt _ s' => s = s'
  | .tlt u s, .tlt u' s' => u = u' ∧ s = s'
  | .authToken, .authToken => true
  | _, _ => false

@[simp] theorem Key.covers_self (k : Key) : k.covers k = true := by
  cases k with
  | root | authToken => rfl
  | sp s => exact decide_eq_true rfl
  | tlt u s => exact decide_eq_true ⟨rfl, rfl⟩

abbrev Registry := Key → Option (List UInt8)

/-- How one call goes: its result, and what it leaves where the result does not say. -/
structure RegAnswer where
  code : McResult
  left : Registry

/-- What a call returns, and the registry behind it. -/
structure Stored where
  mcRet : McResult
  registry : Registry

/-- A call that writes, or with nothing to write removes, what is under one key. -/
def RegAnswer.put (a : RegAnswer) (k : Key) (content : Option (List UInt8)) (r : Registry) :
    Stored :=
  ⟨a.code, Function.update r k (if a.code = mcDrvOk then content else a.left k)⟩

/-- A cleanup.  It reaches what hangs below the key through the children that the containers list,
so this model does not say what becomes of that. -/
def RegAnswer.cleanup (a : RegAnswer) (k : Key) (r : Registry) : Stored :=
  ⟨a.code, fun k' =>
    if k' = k ∧ a.code = mcDrvOk then none else if k.covers k' then a.left k' else r k'⟩

/-- How the calls go that one response may lead to; none is made twice.  The buffer of
`regReadAuthToken` is there as soon as its allocation succeeds, with the token in it or not. -/
structure RegCalls where
  regWriteAuthToken : RegAnswer
  regReadAuthToken : McResult
  authTokenP : Option (List UInt8)
  regDeleteAuthToken : RegAnswer
  regWriteRoot : RegAnswer
  regCleanupRoot : RegAnswer
  regWriteSp : RegAnswer
  regCleanupSp : RegAnswer
  regWriteTlt : RegAnswer
  regCleanupTlt : RegAnswer

section Calls

variable (calls : RegCalls) (spid : Spid) (uuid : Uuid) (content : List UInt8) (r : Registry)

def regWriteAuthToken : Stored := calls.regWriteAuthToken.put .authToken (some content) r

def regDeleteAuthToken : Stored := calls.regDeleteAuthToken.put .authToken none r

def regWriteRoot : Stored := calls.regWriteRoot.put .root (some content) r

def regCleanupRoot : Stored := calls.regCleanupRoot.cleanup .root r

def regWriteSp : Stored := calls.regWriteSp.put (.sp spid) (some content) r

def regCleanupSp : Stored := calls.regCleanupSp.cleanup (.sp spid) r

def regWriteTlt : Stored := calls.regWriteTlt.put (.tlt uuid spid) (some content) r

def regCleanupTlt : Stored := calls.regCleanupTlt.cleanup (.tlt uuid spid) r

end Calls

/-! ## Commands and responses -/

/-- `cmpCommandId_t`, and the identifiers that are none. -/
inductive CmpCommandId
  | authenticate
  | beginRootAuthentication
  | beginSocAuthentication
  | beginSpAuthentication
  | generateAuthToken
  | getVersion
  | rootContLockByRoot
  | rootContRegisterActivate
  | rootContUnlockByRoot
  | rootContUnregister
  | spContActivate
  | spContLockByRoot
  | spContLockBySp
  | spContRegister
  | spContRegisterActivate
  | spContUnlockByRoot
  | spContUnlockBySp
  | spContUnregister
  | tltContActivate
  | tltContLockBySp
  | tltContPersonalize
  | tltContRegister
  | tltContRegisterActivate
  | tltContUnlockBySp
  | tltContUnregister
  | getSuid
  | authenticateTerminate
  | generateBindingKey
  | unknown (id : UInt32)
deriving DecidableEq, Repr

/-- The signed part of a command, as far as it says where containers belong. -/
structure SData where
  spid : Spid
  uuid : Uuid

/-- `spid_` and `tltUuid_`, which stay from one command to the next. -/
structure Statics where
  spid : Spid
  tltUuid : Uuid

/-- `prepareCommand`, as far as it changes them. -/
def prepareCommand (commandId : CmpCommandId) (sdata : SData) (statics : Statics) : Statics :=
  match commandId with
  | .spContActivate | .spContLockByRoot | .spContLockBySp | .spContRegister
  | .spContRegisterActivate | .spContUnlockByRoot | .spContUnlockBySp | .spContUnregister =>
    { statics with spid := sdata.spid }
  | .tltContActivate | .tltContLockBySp | .tltContRegister | .tltContRegisterActivate
  | .tltContUnlockBySp | .tltContUnregister => ⟨sdata.spid, sdata.uuid⟩
  | _ => statics

/-- `cmpMapOffsetInfo_t` -/
structure CmpMapOffsetInfo where
  offset : UInt32
  len : UInt32
deriving DecidableEq, Repr

/-- The element lies inside a buffer of that size, as a range of natural numbers. -/
def CmpMapOffsetInfo.Inside (e : CmpMapOffsetInfo) (size : UInt32) : Prop :=
  e.offset.toNat + e.len.toNat ≤ size.toNat

/-- `CMTHANDLE`: the elements that the header of the response lists, and the mapped buffer. -/
structure CmtHandle where
  wsm : Nat → CmpMapOffsetInfo
  mapped : Nat → UInt8
  mappedSize : UInt32

/-- What the buffer has from an offset on. -/
def CmtHandle.bytes (handle : CmtHandle) (e : CmpMapOffsetInfo) : List UInt8 :=
  (List.range e.len.toNat).map fun i => handle.mapped (e.offset.toNat + i)

/-- The element must lie inside the buffer.  Its number counts from 1; the sum may wrap. -/
def getRspElementInfo (elementNbr : Nat) (handle : CmtHandle) : Option CmpMapOffsetInfo :=
  if elementNbr = 0 then none
  else if (handle.wsm (elementNbr - 1)).offset + (handle.wsm (elementNbr - 1)).len >
      handle.mappedSize then none
  else some (handle.wsm (elementNbr - 1))

/-- What a response has as its `elementNbr`-th element. -/
def CmtHandle.element (handle : CmtHandle) (elementNbr : Nat) : Option (List UInt8) :=
  (getRspElementInfo elementNbr handle).map handle.bytes

/-! ## The code -/

/-- One element goes to one key; `-1` if there is no such element. -/
def storeElement (handle : CmtHandle) (elementIndex : Nat) (write : List UInt8 → Registry → Stored)
    (r : Registry) : Stored :=
  match getRspElementInfo elementIndex handle with
  | some e => write (handle.bytes e) r
  | none => ⟨0xffffffff, r⟩

/-- The first element is to be written last: if the second cannot be written, it should not be. -/
def storeTwo (handle : CmtHandle) (elementIndex : Nat)
    (writeSecond writeFirst : List UInt8 → Registry → Stored) (r : Registry) : Stored :=
  match getRspElementInfo elementIndex handle with
  | some e =>
    if (storeElement handle (elementIndex + 1) writeSecond r).mcRet = mcDrvOk then
      writeFirst (handle.bytes e) (storeElement handle (elementIndex + 1) writeSecond r).registry
    else storeElement handle (elementIndex + 1) writeSecond r
  | none => ⟨0xffffffff, r⟩

/-- Behind a stored root container.  A token that could not be read counts as none only when there
is no buffer for it. -/
def retireAuthToken (calls : RegCalls) (r : Registry) : Stored :=
  if (regDeleteAuthToken calls r).mcRet = mcDrvOk then regDeleteAuthToken calls r
  else
    match calls.authTokenP with
    | none => regDeleteAuthToken calls r
    | some token =>
      -- deleting failed, the token is written anyway, and if that works the root container goes
      if (regWriteAuthToken calls token (regDeleteAuthToken calls r).registry).mcRet = mcDrvOk then
        ⟨mcDrvOk, (regCleanupRoot calls
          (regWriteAuthToken calls token (regDeleteAuthToken calls r).registry).registry).registry⟩
      else regWriteAuthToken calls token (regDeleteAuthToken calls r).registry

def storeContainers (commandId : CmpCommandId) (handle : CmtHandle) (statics : Statics)
    (calls : RegCalls) (elementIndex : Nat) (r : Registry) : Stored :=
  match commandId with
  | .generateAuthToken => storeElement handle elementIndex (regWriteAuthToken calls) r
  | .rootContRegisterActivate =>
    if (storeElement handle elementIndex (regWriteRoot calls) r).mcRet = mcDrvOk then
      retireAuthToken calls (storeElement handle elementIndex (regWriteRoot calls) r).registry
    else storeElement handle elementIndex (regWriteRoot calls) r
  | .rootContLockByRoot | .rootContUnlockByRoot =>
    storeElement handle elementIndex (regWriteRoot calls) r
  | .rootContUnregister => regCleanupRoot calls r
  | .spContUnlockByRoot | .spContUnlockBySp | .spContActivate | .spContLockByRoot
  | .spContLockBySp => storeElement handle elementIndex (regWriteSp calls statics.spid) r
  | .spContRegister | .spContRegisterActivate =>
    storeTwo handle elementIndex (regWriteSp calls statics.spid) (regWriteRoot calls) r
  | .spContUnregister =>
    -- what the cleanup returns is overwritten
    storeElement handle elementIndex (regWriteRoot calls)
      (regCleanupSp calls statics.spid r).registry
  | .tltContRegister | .tltContRegisterActivate =>
    storeTwo handle elementIndex (regWriteTlt calls statics.spid statics.tltUuid)
      (fun content r =>
        if (regWriteSp calls statics.spid content r).mcRet = mcDrvOk then
          regWriteSp calls statics.spid content r
        else ⟨(regWriteSp calls statics.spid content r).mcRet,
          (regCleanupTlt calls statics.spid statics.tltUuid
            (regWriteSp calls statics.spid content r).registry).registry⟩) r
  | .tltContActivate | .tltContLockBySp | .tltContUnlockBySp =>
    storeElement handle elementIndex (regWriteTlt calls statics.spid statics.tltUuid) r
  | .tltContUnregister =>
    -- and so is this one's
    storeElement handle elementIndex (regWriteSp calls statics.spid)
      (regCleanupTlt calls statics.spid statics.tltUuid r).registry
  | _ => ⟨mcDrvOk, r⟩

/-! ## What a response prescribes -/

/-- The containers to be stored, and what is to be gone. -/
structure Prescription where
  stored : List (Key × List UInt8)
  gone : List Key

/-- A response prescribes something only if it has the containers that belong to its command. -/
def prescription (commandId : CmpCommandId) (sdata : SData) (rsp : Nat → Option (List UInt8)) :
    Option Prescription :=
  match commandId with
  | .generateAuthToken => (rsp 2).map fun token => ⟨[(.authToken, token)], []⟩
  | .rootContRegisterActivate => (rsp 2).map fun root => ⟨[(.root, root)], [.authToken]⟩
  | .rootContLockByRoot | .rootContUnlockByRoot => (rsp 2).map fun root => ⟨[(.root, root)], []⟩
  | .rootContUnregister => some ⟨[], [.root]⟩
  | .spContUnlockByRoot | .spContUnlockBySp | .spContActivate | .spContLockByRoot
  | .spContLockBySp => (rsp 2).map fun sp => ⟨[(.sp sdata.spid, sp)], []⟩
  | .spContRegister | .spContRegisterActivate =>
    (rsp 2).bind fun root => (rsp 3).map fun sp => ⟨[(.root, root), (.sp sdata.spid, sp)], []⟩
  | .spContUnregister => (rsp 2).map fun root => ⟨[(.root, root)], [.sp sdata.spid]⟩
  | .tltContRegister | .tltContRegisterActivate =>
    (rsp 2).bind fun sp => (rsp 3).map fun tlt =>
      ⟨[(.sp sdata.spid, sp), (.tlt sdata.uuid sdata.spid, tlt)], []⟩
  | .tltContActivate | .tltContLockBySp | .tltContUnlockBySp =>
    (rsp 2).map fun tlt => ⟨[(.tlt sdata.uuid sdata.spid, tlt)], []⟩
  | .tltContUnregister =>
    (rsp 2).map fun sp => ⟨[(.sp sdata.spid, sp)], [.tlt sdata.uuid sdata.spid]⟩
  | _ => some ⟨[], []⟩

/-- The registry `t` is `r` with the prescription carried out: what is to be stored is there, what
is to be gone is not, and nothing else has changed, but for what hung below what is gone. -/
structure Prescription.Holds (p : Prescription) (r t : Registry) : Prop where
  stored : ∀ s ∈ p.stored, t s.1 = some s.2
  gone : ∀ g ∈ p.gone, t g = none
  others : ∀ k, (∀ s ∈ p.stored, s.1 ≠ k) → (∀ g ∈ p.gone, g.covers k = false) → t k = r k

/-- Success is returned only for a prescription that has been carried out. -/
def Faithful (p : Option Prescription) (r : Registry) (out : Stored) : Prop :=
  out.mcRet = mcDrvOk → ∃ q ∈ p, q.Holds r out.registry

/-- Carrying out what is to be stored, when nothing is to be gone. -/
theorem Prescription.holds_nil (r : Registry) : Prescription.Holds ⟨[], []⟩ r r :=
  ⟨by simp, by simp, fun _ _ _ => rfl⟩

/-! ## What the calls do -/

theorem put_of_ok {a : RegAnswer} (h : a.code = mcDrvOk) (k : Key) (content : Option (List UInt8))
    (r : Registry) : (a.put k content r).registry = Function.update r k content := by
  show Function.update r k _ = _
  rw [if_pos h]

theorem put_of_ne (a : RegAnswer) {k k' : Key} (hne : k' ≠ k) (content : Option (List UInt8))
    (r : Registry) : (a.put k content r).registry k' = r k' :=
  Function.update_of_ne hne _ _

theorem cleanup_self (a : RegAnswer) (k : Key) (r : Registry) :
    (a.cleanup k r).registry k = none ↔ a.code = mcDrvOk ∨ a.left k = none := by
  by_cases h : a.code = mcDrvOk <;> simp [RegAnswer.cleanup, h]

theorem cleanup_of_not_covers (a : RegAnswer) {k k' : Key} (h : k.covers k' = false)
    (r : Registry) : (a.cleanup k r).registry k' = r k' := by
  have hne : k' ≠ k := by
    rintro rfl
    simp at h
  simp [RegAnswer.cleanup, hne, h]

theorem storeElement_of_some {handle : CmtHandle} {n : Nat} {content : List UInt8}
    (h : handle.element n = some content) (write : List UInt8 → Registry → Stored)
    (r : Registry) : storeElement handle n write r = write content r := by
  obtain ⟨e, he, rfl⟩ := Option.map_eq_some_iff.mp h
  simp only [storeElement, he]

theorem storeElement_of_none {handle : CmtHandle} {n : Nat} (h : handle.element n = none)
    (write : List UInt8 → Registry → Stored) (r : Registry) :
    storeElement handle n write r = ⟨0xffffffff, r⟩ := by
  simp only [storeElement, Option.map_eq_none_iff.mp h]

theorem storeTwo_of_some {handle : CmtHandle} {n : Nat} {content : List UInt8}
    (h : handle.element n = some content) (writeSecond writeFirst : List UInt8 → Registry → Stored)
    (r : Registry) : storeTwo handle n writeSecond writeFirst r =
      if (storeElement handle (n + 1) writeSecond r).mcRet = mcDrvOk then
        writeFirst content (storeElement handle (n + 1) writeSecond r).registry
      else storeElement handle (n + 1) writeSecond r := by
  obtain ⟨e, he, rfl⟩ := Option.map_eq_some_iff.mp h
  simp only [storeTwo, he]

theorem storeTwo_of_none {handle : CmtHandle} {n : Nat} (h : handle.element n = none)
    (writeSecond writeFirst : List UInt8 → Registry → Stored) (r : Registry) :
    storeTwo handle n writeSecond writeFirst r = ⟨0xffffffff, r⟩ := by
  simp only [storeTwo, Option.map_eq_none_iff.mp h]

theorem minusOne_ne_ok : (0xffffffff : McResult) ≠ mcDrvOk := by decide

theorem faithful_of_error {p : Option Prescription} {r : Registry} {out : Stored}
    (h : out.mcRet ≠ mcDrvOk) : Faithful p r out := fun hok => absurd hok h

/-- One container, one key. -/
theorem faithful_storeElement {handle : CmtHandle} {k : Key} {a : RegAnswer} {r : Registry} :
    Faithful ((handle.element 2).map fun content => ⟨[(k, content)], []⟩) r
      (storeElement handle 2 (fun content => a.put k (some content)) r) := by
  cases he : handle.element 2 with
  | none =>
    rw [storeElement_of_none he]
    exact faithful_of_error minusOne_ne_ok
  | some content =>
    rw [storeElement_of_some he]
    intro hok
    rw [put_of_ok hok]
    refine ⟨_, rfl, ⟨?_, by simp, fun k' hk' _ => ?_⟩⟩
    · simp
    · exact Function.update_of_ne (hk' _ List.mem_cons_self).symm _ _

/-- Two containers: the first belongs to `k₁` and the second to `k₂`.  It does not matter what is
done when the first cannot be written, as long as that is returned. -/
theorem faithful_storeTwo {handle : CmtHandle} {k₁ k₂ : Key} (hne : k₁ ≠ k₂) (a₁ : RegAnswer)
    {a₂ : RegAnswer} {r : Registry} {first : List UInt8 → Registry → Stored}
    (hcode : ∀ content r, (first content r).mcRet = a₁.code)
    (hfirst : a₁.code = mcDrvOk → ∀ content r, first content r = a₁.put k₁ (some content) r) :
    Faithful ((handle.element 2).bind fun c₁ => (handle.element 3).map fun c₂ =>
        ⟨[(k₁, c₁), (k₂, c₂)], []⟩) r
      (storeTwo handle 2 (fun content => a₂.put k₂ (some content)) first r) := by
  cases h₁ : handle.element 2 with
  | none =>
    rw [storeTwo_of_none h₁]
    exact faithful_of_error minusOne_ne_ok
  | some c₁ =>
    rw [storeTwo_of_some h₁]
    cases h₂ : handle.element 3 with
    | none =>
      rw [storeElement_of_none h₂, if_neg minusOne_ne_ok]
      exact faithful_of_error minusOne_ne_ok
    | some c₂ =>
      rw [storeElement_of_some h₂]
      by_cases hok₂ : (a₂.put k₂ (some c₂) r).mcRet = mcDrvOk
      · rw [if_pos hok₂, put_of_ok hok₂]
        intro hok₁
        have hok₁ : a₁.code = mcDrvOk := (hcode _ _).symm.trans hok₁
        rw [hfirst hok₁, put_of_ok hok₁]
        refine ⟨_, rfl, ⟨?_, by simp, fun k' hk' _ => ?_⟩⟩
        · simp [Function.update_of_ne hne.symm]
        · rw [Function.update_of_ne (hk' (k₁, c₁) (by simp)).symm,
            Function.update_of_ne (hk' (k₂, c₂) (by simp)).symm]
      · rw [if_neg hok₂]
        exact faithful_of_error hok₂

/-- A cleanup whose result is overwritten by that of a write: the error has to go unreported in
front of a write that works, and the container has to be still there. -/
theorem faithful_cleanup_store {handle : CmtHandle} {k g : Key} (hk : g.covers k = false)
    {a c : RegAnswer} {r : Registry} :
    Faithful ((handle.element 2).map fun content => ⟨[(k, content)], [g]⟩) r
        (storeElement handle 2 (fun content => a.put k (some content)) (c.cleanup g r).registry) ↔
      (handle.element 2 ≠ none → a.code = mcDrvOk → c.code = mcDrvOk ∨ c.left g = none) := by
  have hgk : g ≠ k := by
    rintro rfl
    simp at hk
  cases he : handle.element 2 with
  | none =>
    rw [storeElement_of_none he]
    exact iff_of_true (faithful_of_error minusOne_ne_ok) fun h => absurd rfl h
  | some content =>
    rw [storeElement_of_some he]
    constructor
    · intro h _ hok
      obtain ⟨q, hq, hholds⟩ := h hok
      obtain rfl := Option.some.inj hq
      have hgone := hholds.gone g List.mem_cons_self
      rw [put_of_ne _ hgk] at hgone
      exact (cleanup_self c g r).mp hgone
    · intro h hok
      have hgone := (cleanup_self c g r).mpr (h (Option.some_ne_none _) hok)
      rw [put_of_ok hok]
      refine ⟨_, rfl, ⟨?_, ?_, fun k' hk' hg' => ?_⟩⟩
      · simp
      · intro g' hg'
        rw [List.mem_singleton.mp hg', Function.update_of_ne hgk]
        exact hgone
      · rw [Function.update_of_ne (hk' _ List.mem_cons_self).symm]
        exact cleanup_of_not_covers c (hg' g List.mem_cons_self) r

/-- The root container is stored, and the token is to be retired. -/
theorem faithful_retireAuthToken {calls : RegCalls} {r s : Registry} {content : List UInt8}
    (hs : s = Function.update r .root (some content)) :
    Faithful (some ⟨[(.root, content)], [.authToken]⟩) r (retireAuthToken calls s) ↔
      (calls.regDeleteAuthToken.code = mcDrvOk ∨ calls.authTokenP = none ∨
        calls.regWriteAuthToken.code ≠ mcDrvOk) := by
  unfold retireAuthToken
  by_cases hdel : calls.regDeleteAuthToken.code = mcDrvOk
  · refine iff_of_true ?_ (.inl hdel)
    rw [if_pos (show (regDeleteAuthToken calls s).mcRet = mcDrvOk from hdel)]
    intro _
    have hreg : (regDeleteAuthToken calls s).registry = Function.update s .authToken none :=
      put_of_ok hdel _ _ _
    rw [hreg, hs]
    refine ⟨_, rfl, ⟨by simp, by simp, fun k hk hg => ?_⟩⟩
    have hauth : k ≠ .authToken := by
      rintro rfl
      simpa using hg _ List.mem_cons_self
    rw [Function.update_of_ne hauth, Function.update_of_ne (hk _ List.mem_cons_self).symm]
  · rw [if_neg (show ¬ (regDeleteAuthToken calls s).mcRet = mcDrvOk from hdel)]
    cases htoken : calls.authTokenP with
    | none => exact iff_of_true (faithful_of_error hdel) (.inr (.inl rfl))
    | some token =>
      dsimp only
      by_cases hwrite : calls.regWriteAuthToken.code = mcDrvOk
      · rw [if_pos (show (regWriteAuthToken calls token _).mcRet = mcDrvOk from hwrite)]
        refine iff_of_false (fun h => ?_) (by simp [hdel, hwrite])
        -- the token has just been written, and the cleanup of the root does not reach it
        obtain ⟨q, hq, hholds⟩ := h rfl
        obtain rfl := Option.some.inj hq
        have hgone := hholds.gone .authToken List.mem_cons_self
        rw [show (regCleanupRoot calls _).registry .authToken = _ from
            cleanup_of_not_covers _ rfl _,
          show (regWriteAuthToken calls token _).registry = _ from put_of_ok hwrite _ _ _,
          Function.update_self] at hgone
        exact Option.some_ne_none _ hgone
      · rw [if_neg (show ¬ (regWriteAuthToken calls token _).mcRet = mcDrvOk from hwrite)]
        exact iff_of_true (faithful_of_error hwrite) (.inr (.inr hwrite))

/-! ## Where success is a lie -/

/-- The calls do not run into the two results that are overwritten: a failed cleanup of what is
unregistered, when the write behind it works, and a failed deletion of the token, when there is a
buffer to write it back from and that works. -/
def FailuresReported (commandId : CmpCommandId) (sdata : SData) (handle : CmtHandle)
    (calls : RegCalls) : Prop :=
  match commandId with
  | .rootContRegisterActivate =>
    handle.element 2 ≠ none → calls.regWriteRoot.code = mcDrvOk →
      calls.regDeleteAuthToken.code = mcDrvOk ∨ calls.authTokenP = none ∨
        calls.regWriteAuthToken.code ≠ mcDrvOk
  | .spContUnregister =>
    handle.element 2 ≠ none → calls.regWriteRoot.code = mcDrvOk →
      calls.regCleanupSp.code = mcDrvOk ∨ calls.regCleanupSp.left (.sp sdata.spid) = none
  | .tltContUnregister =>
    handle.element 2 ≠ none → calls.regWriteSp.code = mcDrvOk →
      calls.regCleanupTlt.code = mcDrvOk ∨
        calls.regCleanupTlt.left (.tlt sdata.uuid sdata.spid) = none
  | _ => True

/-- **When success means that the registry is as the response prescribes.**  For every command and
every response, whatever the command before left in the static variables, and however the calls
go. -/
theorem faithful_iff_failuresReported (commandId : CmpCommandId) (sdata : SData)
    (statics : Statics) (handle : CmtHandle) (calls : RegCalls) (r : Registry) :
    Faithful (prescription commandId sdata handle.element) r
        (storeContainers commandId handle (prepareCommand commandId sdata statics) calls 2 r) ↔
      FailuresReported commandId sdata handle calls := by
  cases commandId with
  | generateAuthToken | rootContLockByRoot | rootContUnlockByRoot | spContActivate
  | spContLockByRoot | spContLockBySp | spContUnlockByRoot | spContUnlockBySp | tltContActivate
  | tltContLockBySp | tltContUnlockBySp => exact iff_of_true faithful_storeElement trivial
  | spContRegister | spContRegisterActivate =>
    exact iff_of_true
      (faithful_storeTwo (by simp) calls.regWriteRoot (fun _ _ => rfl) fun _ _ _ => rfl) trivial
  | tltContRegister | tltContRegisterActivate =>
    refine iff_of_true (faithful_storeTwo (by simp) calls.regWriteSp ?_ ?_) trivial
    · intro content r
      split
      · rfl
      · rfl
    · intro hok content r
      exact if_pos hok
  | spContUnregister => exact faithful_cleanup_store rfl
  | tltContUnregister => exact faithful_cleanup_store rfl
  | rootContUnregister =>
    refine iff_of_true (fun hok => ⟨_, rfl, by simp, ?_, fun k _ hg => ?_⟩) trivial
    · intro g hg
      rw [List.mem_singleton.mp hg]
      exact (cleanup_self _ _ r).mpr (.inl hok)
    · exact cleanup_of_not_covers _ (hg _ List.mem_cons_self) r
  | rootContRegisterActivate =>
    unfold storeContainers prescription FailuresReported
    dsimp only
    cases he : handle.element 2 with
    | none =>
      rw [storeElement_of_none he, if_neg minusOne_ne_ok]
      exact iff_of_true (faithful_of_error minusOne_ne_ok) fun h => absurd rfl h
    | some content =>
      rw [storeElement_of_some he]
      by_cases hwrite : calls.regWriteRoot.code = mcDrvOk
      · rw [if_pos (show (regWriteRoot calls content r).mcRet = mcDrvOk from hwrite)]
        refine (faithful_retireAuthToken (put_of_ok hwrite _ _ _)).trans ?_
        simp [hwrite]
      · rw [if_neg (show ¬ (regWriteRoot calls content r).mcRet = mcDrvOk from hwrite)]
        exact iff_of_true (faithful_of_error hwrite) fun _ h => absurd h hwrite
  | authenticate | beginRootAuthentication | beginSocAuthentication | beginSpAuthentication
  | getVersion | tltContPersonalize | getSuid | authenticateTerminate | generateBindingKey
  | unknown => exact iff_of_true (fun _ => ⟨_, rfl, Prescription.holds_nil r⟩) trivial

/-! ## Two successes with the wrong registry behind them -/

/-- A response with elements of one byte each. -/
def oneByteElements : CmtHandle where
  wsm n := ⟨UInt32.ofNat n, 1⟩
  mapped _ := 1
  mappedSize := 8

/-- Everything works and leaves the registry as it was, except that service provider containers are
not cleaned up, tokens are not deleted, and a token can be read. -/
def deletionsFail : RegCalls where
  regWriteAuthToken := ⟨mcDrvOk, fun _ => some [0]⟩
  regReadAuthToken := mcDrvOk
  authTokenP := some [0]
  regDeleteAuthToken := ⟨mcDrvErrUnknown, fun _ => some [0]⟩
  regWriteRoot := ⟨mcDrvOk, fun _ => some [0]⟩
  regCleanupRoot := ⟨mcDrvOk, fun _ => some [0]⟩
  regWriteSp := ⟨mcDrvOk, fun _ => some [0]⟩
  regCleanupSp := ⟨mcDrvErrUnknown, fun _ => some [0]⟩
  regWriteTlt := ⟨mcDrvOk, fun _ => some [0]⟩
  regCleanupTlt := ⟨mcDrvOk, fun _ => some [0]⟩

/-- Everything has a container. -/
def fullRegistry : Registry := fun _ => some [0]

/-- **Unregistered and still there; registered and gone.**  A service provider container that cannot
be cleaned up stays behind a successful unregistration, and a successful root registration ends with
the old token and no root container. -/
theorem not_faithful_deletionsFail :
    ¬ Faithful (prescription .spContUnregister ⟨7, mcUuidFree⟩ oneByteElements.element) fullRegistry
        (storeContainers .spContUnregister oneByteElements
          (prepareCommand .spContUnregister ⟨7, mcUuidFree⟩ ⟨0, mcUuidFree⟩) deletionsFail 2
          fullRegistry) ∧
      ¬ Faithful
        (prescription .rootContRegisterActivate ⟨7, mcUuidFree⟩ oneByteElements.element)
        fullRegistry
        (storeContainers .rootContRegisterActivate oneByteElements
          (prepareCommand .rootContRegisterActivate ⟨7, mcUuidFree⟩ ⟨0, mcUuidFree⟩) deletionsFail 2
          fullRegistry) := by
  constructor
  · intro h
    obtain ⟨q, hq, hholds⟩ := h rfl
    obtain rfl := Option.some.inj hq
    have hgone := hholds.gone (.sp 7) List.mem_cons_self
    exact Option.some_ne_none [0] hgone
  · intro h
    obtain ⟨q, hq, hholds⟩ := h rfl
    obtain rfl := Option.some.inj hq
    have hgone := hholds.gone .authToken List.mem_cons_self
    exact Option.some_ne_none [0] hgone

/-! ## The response to the command -/

/-- A command succeeds only if its containers are stored. -/
theorem stored_of_handleResponse {a : Answer} {rsp : CmpResponse}
    (h : (handleResponse a rsp).1 = .ok) : a.stored = mcDrvOk := by
  unfold handleResponse at h
  split at h
  · cases h
  · split at h
    · cases h
    · split at h
      · cases h
      · by_contra hne
        rw [if_neg hne] at h
        dsimp only at h
        split at h
        · cases h
        · cases h

/-- **What the service enabler may conclude.**  A command is answered with success, and no failure
of its calls has been overwritten: its response has been carried out. -/
theorem holds_of_handleResponse {commandId : CmpCommandId} {sdata : SData} {statics : Statics}
    {handle : CmtHandle} {calls : RegCalls} {r : Registry} {a : Answer} {rsp : CmpResponse}
    (ha : a.stored = (storeContainers commandId handle
      (prepareCommand commandId sdata statics) calls 2 r).mcRet)
    (h : (handleResponse a rsp).1 = .ok)
    (hfaithful : Faithful (prescription commandId sdata handle.element) r (storeContainers commandId
      handle (prepareCommand commandId sdata statics) calls 2 r)) :
    ∃ q ∈ prescription commandId sdata handle.element, q.Holds r (storeContainers commandId handle
      (prepareCommand commandId sdata statics) calls 2 r).registry :=
  hfaithful (ha.symm.trans (stored_of_handleResponse h))

end McDaemon.RootPa.Store
