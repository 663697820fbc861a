/-
# McDaemon.RootPa.Registrations — registrations that fail.

A registration stores a new container and then the container that lists it: a service provider
under the root, a trustlet under its service provider.  When the second of these writes fails, the
trustlet is cleaned up again; for the service provider nothing of the kind is done.
-/
import McDaemon.RootPa.StoreContainers

namespace McDaemon.RootPa.Store

open McDaemon.Registry McDaemon.RootPa.Commands

/-! ## Registrations -/

/-- The new container of a command that registers one, and the container that is to list it. -/
def registration (commandId : CmpCommandId) (sdata : SData) : Option (Key × Key) :=
  match commandId with
  | .spContRegister | .spContRegisterActivate => some (.sp sdata.spid, .root)
  | .tltContRegister | .tltContRegisterActivate =>
    some (.tlt sdata.uuid sdata.spid, .sp sdata.spid)
  | _ => none

/-- An error is returned only with nothing under the new key, and with the parent as it was. -/
def Undone (child parent : Key) (r : Registry) (out : Stored) : Prop :=
  out.mcRet ≠ mcDrvOk → out.registry child = none ∧ out.registry parent = r parent

/-- What the calls have to do for an error to be undone, when the response has both containers.  A
failed write of the child leaves nothing; behind a write of the child that worked, the root must not
fail, and a failed write of a service provider's container leaves that as it was and is followed by
a cleanup that leaves no trustlet. -/
def Reverts (commandId : CmpCommandId) (sdata : SData) (calls : RegCalls) (r : Registry) : Prop :=
  match commandId with
  | .spContRegister | .spContRegisterActivate =>
    if calls.regWriteSp.code = mcDrvOk then calls.regWriteRoot.code = mcDrvOk
    else calls.regWriteSp.left (.sp sdata.spid) = none
  | .tltContRegister | .tltContRegisterActivate =>
    if calls.regWriteTlt.code = mcDrvOk then
      calls.regWriteSp.code = mcDrvOk ∨
        ((calls.regCleanupTlt.code = mcDrvOk ∨
          calls.regCleanupTlt.left (.tlt sdata.uuid sdata.spid) = none) ∧
          calls.regWriteSp.left (.sp sdata.spid) = r (.sp sdata.spid))
    else calls.regWriteTlt.left (.tlt sdata.uuid sdata.spid) = none
  | _ => True

/-! ## Two writes -/

theorem undone_of_same {child parent : Key} {r : Registry} (hnew : r child = none)
    (code : McResult) : Undone child parent r ⟨code, r⟩ :=
  fun _ => ⟨hnew, rfl⟩

theorem undone_of_ok {child parent : Key} {r : Registry} {out : Stored}
    (h : out.mcRet = mcDrvOk) : Undone child parent r out :=
  fun hne => absurd h hne

/-- A write of the child alone. -/
theorem undone_put_iff {a : RegAnswer} {child parent : Key} (hne : parent ≠ child)
    (content : List UInt8) (r : Registry) (hfail : a.code ≠ mcDrvOk) :
    Undone child parent r (a.put child (some content) r) ↔ a.left child = none := by
  have hself : (a.put child (some content) r).registry child = a.left child := by
    show Function.update r child _ child = _
    rw [Function.update_self, if_neg hfail]
  have hother : (a.put child (some content) r).registry parent = r parent :=
    put_of_ne a hne _ _
  unfold Undone
  rw [hself, hother]
  exact ⟨fun h => (h hfail).1, fun h _ => ⟨h, rfl⟩⟩

/-- The write of the child, and behind it what is done about the parent.  Everything depends on what
becomes of an error there. -/
theorem undone_storeTwo {handle : CmtHandle} {n : Nat} {a : RegAnswer} {child parent : Key}
    (hne : parent ≠ child) {r : Registry} (hnew : r child = none)
    {writeParent : List UInt8 → Registry → Stored} {P : Prop}
    (hparent : ∀ content s new, s child = some new → s parent = r parent →
      (Undone child parent r (writeParent content s) ↔ P)) :
    Undone child parent r
        (storeTwo handle n (fun content => a.put child (some content)) writeParent r) ↔
      (handle.element n ≠ none → handle.element (n + 1) ≠ none →
        if a.code = mcDrvOk then P else a.left child = none) := by
  cases hfirst : handle.element n with
  | none =>
    rw [storeTwo_of_none hfirst]
    exact iff_of_true (undone_of_same hnew _) fun h => absurd rfl h
  | some content =>
    rw [storeTwo_of_some hfirst]
    cases hsecond : handle.element (n + 1) with
    | none =>
      rw [storeElement_of_none hsecond, if_neg minusOne_ne_ok]
      exact iff_of_true (undone_of_same hnew _) fun _ h => absurd rfl h
    | some new =>
      rw [storeElement_of_some hsecond]
      simp only [ne_eq, reduceCtorEq, not_false_eq_true, true_imp_iff]
      by_cases hcode : a.code = mcDrvOk
      · rw [if_pos (show (a.put child (some new) r).mcRet = mcDrvOk from hcode), if_pos hcode]
        -- the child is there now, and the parent is as before
        apply hparent content _ new
        · rw [put_of_ok hcode, Function.update_self]
        · exact put_of_ne a hne _ _
      · rw [if_neg (show ¬ (a.put child (some new) r).mcRet = mcDrvOk from hcode), if_neg hcode]
        exact undone_put_iff hne new r hcode

/-! ## The two levels -/

/-- Nothing takes the service provider's container away when the root cannot be written. -/
theorem undone_regWriteRoot {calls : RegCalls} {spid : Spid} {r s : Registry}
    {content new : List UInt8} (hchild : s (.sp spid) = some new) :
    Undone (.sp spid) .root r (regWriteRoot calls content s) ↔
      calls.regWriteRoot.code = mcDrvOk := by
  constructor
  · intro h
    by_contra hfail
    have hgone : (regWriteRoot calls content s).registry (.sp spid) = none := (h hfail).1
    have hkept : (regWriteRoot calls content s).registry (.sp spid) = s (.sp spid) :=
      put_of_ne _ (by simp) _ _
    rw [hkept, hchild] at hgone
    exact Option.some_ne_none _ hgone
  · exact fun hcode => undone_of_ok hcode

/-- The trustlet is cleaned up when the container of its service provider cannot be written. -/
theorem undone_regWriteSp {calls : RegCalls} {spid : Spid} {uuid : Uuid} {r s : Registry}
    {content : List UInt8} :
    Undone (.tlt uuid spid) (.sp spid) r
        (if (regWriteSp calls spid content s).mcRet = mcDrvOk then regWriteSp calls spid content s
        else ⟨(regWriteSp calls spid content s).mcRet,
          (regCleanupTlt calls spid uuid (regWriteSp calls spid content s).registry).registry⟩) ↔
      calls.regWriteSp.code = mcDrvOk ∨
        ((calls.regCleanupTlt.code = mcDrvOk ∨
          calls.regCleanupTlt.left (.tlt uuid spid) = none) ∧
          calls.regWriteSp.left (.sp spid) = r (.sp spid)) := by
  by_cases hcode : calls.regWriteSp.code = mcDrvOk
  · rw [if_pos (show (regWriteSp calls spid content s).mcRet = mcDrvOk from hcode)]
    exact iff_of_true (undone_of_ok hcode) (.inl hcode)
  · rw [if_neg (show ¬ (regWriteSp calls spid content s).mcRet = mcDrvOk from hcode)]
    have hparent : (regCleanupTlt calls spid uuid
        (regWriteSp calls spid content s).registry).registry (.sp spid) =
        calls.regWriteSp.left (.sp spid) := by
      rw [show (regCleanupTlt calls spid uuid _).registry (.sp spid) = _ from
        cleanup_of_not_covers _ rfl _]
      show Function.update s (.sp spid) _ (.sp spid) = _
      rw [Function.update_self, if_neg hcode]
    have hchild := cleanup_self calls.regCleanupTlt (.tlt uuid spid)
      (regWriteSp calls spid content s).registry
    unfold Undone
    dsimp only
    rw [hparent]
    constructor
    · intro h
      obtain ⟨hgone, hsame⟩ := h hcode
      exact .inr ⟨hchild.mp hgone, hsame⟩
    · rintro (hok | ⟨hgone, hsame⟩) _
      · exact absurd hok hcode
      · exact ⟨hchild.mpr hgone, hsame⟩

/-- **When a registration that fails leaves nothing behind.**  For every registering command, every
response and every outcome of the calls, if the key was not in the registry: the response lacks one
of the two containers, or the calls revert what has been done. -/
theorem undone_iff_reverts {commandId : CmpCommandId} {sdata : SData} {child parent : Key}
    (hregisters : registration commandId sdata = some (child, parent)) {r : Registry}
    (hnew : r child = none) (statics : Statics) (handle : CmtHandle) (calls : RegCalls) (n : Nat) :
    Undone child parent r
        (storeContainers commandId handle (prepareCommand commandId sdata statics) calls n r) ↔
      (handle.element n ≠ none → handle.element (n + 1) ≠ none →
        Reverts commandId sdata calls r) := by
  cases commandId with
  | spContRegister | spContRegisterActivate =>
    obtain ⟨rfl, rfl⟩ := Prod.mk.inj (Option.some.inj hregisters)
    exact undone_storeTwo (by simp) hnew fun _ _ _ hchild _ => undone_regWriteRoot hchild
  | tltContRegister | tltContRegisterActivate =>
    obtain ⟨rfl, rfl⟩ := Prod.mk.inj (Option.some.inj hregisters)
    exact undone_storeTwo (by simp) hnew fun _ _ _ _ _ => undone_regWriteSp
  | _ => cases hregisters

/-! ## A root that cannot be written -/

/-- Nothing is registered yet. -/
def emptyRegistry : Registry := fun _ => none

/-- The writes of parents, root or service provider, fail and leave the registry as it was;
everything else works. -/
def parentsFail : RegCalls where
  regWriteAuthToken := ⟨mcDrvOk, fun _ => none⟩
  regReadAuthToken := mcDrvOk
  authTokenP := none
  regDeleteAuthToken := ⟨mcDrvOk, fun _ => none⟩
  regWriteRoot := ⟨mcDrvErrUnknown, fun _ => none⟩
  regCleanupRoot := ⟨mcDrvOk, fun _ => none⟩
  regWriteSp := ⟨mcDrvErrUnknown, fun _ => none⟩
  regCleanupSp := ⟨mcDrvOk, fun _ => none⟩
  regWriteTlt := ⟨mcDrvOk, fun _ => none⟩
  regCleanupTlt := ⟨mcDrvOk, fun _ => none⟩

/-- A trustlet whose service provider cannot be written is taken away again. -/
theorem undone_trustlet :
    Undone (.tlt mcUuidFree 7) (.sp 7) emptyRegistry
      (storeContainers .tltContRegister oneByteElements
        (prepareCommand .tltContRegister ⟨7, mcUuidFree⟩ ⟨0, mcUuidFree⟩) parentsFail 2
        emptyRegistry) :=
  (@undone_iff_reverts .tltContRegister ⟨7, mcUuidFree⟩ _ _ rfl _ rfl ⟨0, mcUuidFree⟩
    oneByteElements parentsFail 2).mpr fun _ _ => .inr ⟨.inl rfl, rfl⟩

/-- **Registered under nobody.**  A service provider stays in the registry when the root that is to
list it cannot be written. -/
theorem not_undone_serviceProvider :
    ¬ Undone (.sp 7) .root emptyRegistry
      (storeContainers .spContRegister oneByteElements
        (prepareCommand .spContRegister ⟨7, mcUuidFree⟩ ⟨0, mcUuidFree⟩)
        { parentsFail with regWriteSp := ⟨mcDrvOk, fun _ => none⟩ } 2 emptyRegistry) := by
  intro h
  obtain ⟨hgone, -⟩ := h (by decide)
  exact Option.some_ne_none [1] hgone

end McDaemon.RootPa.Store
