/-
# McDaemon.Registry.ObjectRuns — the registry refines a map of objects, over whole runs.

Every run of stores, reads and clean-ups is answered as the map answers it.  What clean-up takes is
told by the map alone: nothing beside the tree below the container that it starts from, in every
outcome, and all of the tree when it succeeds and the containers have their size.
-/
import McDaemon.Registry.ObjectRemovals
import McDaemon.Registry.Resume

namespace McDaemon.Registry

open McDaemon.Lib
open McDaemon.Lib.FileSystem
open McDaemon.Lib.Outcomes

/-! ## Runs -/

/-- The operations on objects, with their arguments. -/
inductive RegistryCall where
  | store (c : StoreCall)
  | read (r : ReadCall)
  | cleanupTrustlet (uuid : Uuid) (spid : Spid)
  | cleanupSp (spid : Spid)
  | cleanupRoot

inductive RegistryAnswer where
  | code (r : McResult)
  | bytes (r : Except McResult (List UInt8))

namespace RegistryCall

/-- The call of the operation. -/
def serve (authTokenPath : Option (List String)) (s : Fs) : RegistryCall → RegistryAnswer × Fs
  | store c => (.code (c.call authTokenPath s).1, (c.call authTokenPath s).2)
  | read r => (.bytes (r.call authTokenPath s), s)
  | cleanupTrustlet uuid spid =>
    (.code (mcRegistryCleanupTrustlet s uuid spid).1, (mcRegistryCleanupTrustlet s uuid spid).2)
  | cleanupSp spid => (.code (mcRegistryCleanupSp s spid).1, (mcRegistryCleanupSp s spid).2)
  | cleanupRoot => (.code (mcRegistryCleanupRoot s).1, (mcRegistryCleanupRoot s).2)

/-- The outcomes that the map allows. -/
def onMap (c : Objects) : RegistryCall → Outcomes RegistryAnswer Objects
  | store x => just (.code (x.onMap c).1) (x.onMap c).2
  | read r => just (.bytes (r.onMap c)) c
  | cleanupTrustlet uuid spid => fun a c' => ∃ r, a = .code r ∧ trustletCleaned c spid uuid r c'
  | cleanupSp spid => fun a c' => ∃ r, a = .code r ∧ spCleaned c spid r c'
  | cleanupRoot => fun a c' => ∃ r, a = .code r ∧ rootCleaned c r c'

end RegistryCall

section Refinement

variable {s t : Fs} {authTokenPath : Option (List String)}

theorem TokenInRegistry.of_onlyRemoved (h : TokenInRegistry authTokenPath s)
    (hst : OnlyRemoved s t) : TokenInRegistry authTokenPath t := by
  intro path hpath
  refine (h path hpath).imp_right fun ⟨hfile, hdata⟩ => ⟨isDir_eq_false fun hdir => ?_, hdata⟩
  rw [isDir_iff.mpr (hst.get?_of_some hdir)] at hfile
  cases hfile

theorem cleanupRoot_onlyRemoved (s : Fs) : OnlyRemoved s (mcRegistryCleanupRoot s).2 := by
  unfold mcRegistryCleanupRoot
  split
  · exact .refl _ s
  · split_ifs
    · exact .refl _ s
    · refine onOk_shrinks ?_ (removeCont_onlyRemoved _ _)
      exact whileOk_rel (Shrinks.refl _) (fun _ _ _ => Shrinks.trans)
        (fun t spid _ => cleanupSp_onlyRemoved t spid) s

/-- **One call.** -/
theorem meets_onMap (authTokenPath : Option (List String)) :
    Meets (fun s => WellKept s ∧ TokenInRegistry authTokenPath s) contents
      (RegistryCall.serve authTokenPath) RegistryCall.onMap := by
  rintro s call ⟨hs, htoken⟩
  cases call with
  | store c =>
    obtain ⟨hkept, hresult⟩ := hs.store htoken c
    have htouches := c.touches htoken {}
    rw [StoreCall.callFaulty_none] at htouches
    refine ⟨⟨hkept, htouches.tokenInRegistry htoken⟩, ?_⟩
    show just (RegistryAnswer.code (c.onMap (contents s)).1) (c.onMap (contents s)).2 _ _
    rw [hresult]
    exact just_self _ _
  | read r =>
    refine ⟨⟨hs, htoken⟩, ?_⟩
    show just (RegistryAnswer.bytes (r.onMap (contents s))) (contents s) _ _
    rw [← hs.read htoken r]
    exact just_self _ _
  | cleanupTrustlet uuid spid =>
    obtain ⟨hkept, hcleaned⟩ := meets_cleanupTrustlet spid s uuid hs
    exact ⟨⟨hkept, htoken.of_onlyRemoved (cleanupTrustlet_onlyRemoved s uuid spid)⟩, _, rfl,
      hcleaned⟩
  | cleanupSp spid =>
    obtain ⟨hkept, hcleaned⟩ := meets_cleanupSp s spid hs
    exact ⟨⟨hkept, htoken.of_onlyRemoved (cleanupSp_onlyRemoved s spid)⟩, _, rfl, hcleaned⟩
  | cleanupRoot =>
    obtain ⟨hkept, hcleaned⟩ := meets_cleanupRoot hs
    exact ⟨⟨hkept, htoken.of_onlyRemoved (cleanupRoot_onlyRemoved s)⟩, _, rfl, hcleaned⟩

/-- **The registry refines a map.**  Whatever is stored, read and cleaned up, one call after
another, from a registry that is well kept: the answers are those of the map, and what is in the
registry behind the last call is what is on the map. -/
theorem registry_refines_map (hs : WellKept s) (htoken : TokenInRegistry authTokenPath s)
    (calls : List RegistryCall) :
    Served RegistryCall.onMap (contents s) calls
      (serveAll (RegistryCall.serve authTokenPath) s calls).1
      (contents (serveAll (RegistryCall.serve authTokenPath) s calls).2) :=
  (meets_onMap authTokenPath).serveAll ⟨hs, htoken⟩ calls

end Refinement

theorem wellKept_freshRegistry : WellKept freshRegistry where
  fault := rfl
  data := by decide
  files := by
    intro o hdir
    rw [get?_freshRegistry o.length_path] at hdir
    cases hdir
  dir := fun _ => .inl (get?_freshRegistry (by decide : 3 < 4))
  entry := by
    intro uuid n hn
    have hnone : freshRegistry.get? (getTlDataPath uuid ++ [n]) = none :=
      get?_freshRegistry (by decide : 3 < 5)
    exact absurd hnone hn
  spData := by
    intro spid hdir
    have hnone : freshRegistry.get? (getSpDataPath spid) = none :=
      get?_freshRegistry (by decide : 3 < 4)
    rw [hnone] at hdir
    cases hdir
  spid := by
    intro base hbase
    have hnone : freshRegistry.get? (inRegistry (base ++ ".spid")) = none :=
      get?_freshRegistry (by decide : 3 < 4)
    exact absurd hnone hbase

theorem tokenInRegistry_unset (s : Fs) : TokenInRegistry none s := fun _ h => nomatch h

/-- A service provider with a trustlet is registered, is read and goes again. -/
theorem registry_refines_map_registration :
    let calls : List RegistryCall := [.store (.root oneSpRoot), .store (.sp 1 oneTlSp),
      .store (.tlCont zeroUuid 1 [0]), .read (.tlCont zeroUuid 1 512), .cleanupRoot,
      .read (.root 512)]
    Served RegistryCall.onMap (contents freshRegistry) calls
      (serveAll (RegistryCall.serve none) freshRegistry calls).1
      (contents (serveAll (RegistryCall.serve none) freshRegistry calls).2) :=
  registry_refines_map wellKept_freshRegistry (tokenInRegistry_unset _) _

end McDaemon.Registry
