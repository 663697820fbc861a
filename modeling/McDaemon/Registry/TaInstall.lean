/-
# McDaemon.Registry.TaInstall — installing a GP trusted application, with failing file operations.

An application is a binary and, for a service provider's, a file with the spid.  Both are written
in place, the binary first, and nothing is undone when an operation fails.  A lookup prefers a file
in the read-only registry, each of the two for itself, so what a failed call leaves behind is seen
unless such a file hides it.
-/
import McDaemon.Lib.FileSteps
import McDaemon.Registry.Objects
import McDaemon.Registry.TaBlob

namespace McDaemon.Registry

open McDaemon.Lib
open McDaemon.Lib.Inspection

/-! ## Two registries -/

/-- `MC_REGISTRY_SYSTEM_PATH`. -/
def mcRegistrySystemPath : List String := ["system", "app", "mcRegistry"]

/-- A file of the read-only registry. -/
def inSystemRegistry (name : String) : List String := mcRegistrySystemPath ++ [name]

/-- A file looked up with `MC_REGISTRY_ALL`. -/
def inAnyRegistry (s : Fs) (name : String) : List String :=
  if s.exists? (inSystemRegistry name) then inSystemRegistry name else inRegistry name

def taBinName (uuid : Uuid) : String := byteArrayToString uuid.toList ++ ".tabin"

def taSpidName (uuid : Uuid) : String := byteArrayToString uuid.toList ++ ".spid"

/-- The files of an application, as a lookup sees them. -/
def visible (s : Fs) (uuid : Uuid) : Option Node × Option Node :=
  (s.get? (inAnyRegistry s (taBinName uuid)), s.get? (inAnyRegistry s (taSpidName uuid)))

/-! ## Failing operations -/

/-- An operation on a file fails: opening it, seeking in it, or writing, of which the first `n`
bytes come off.  A write that is still in the buffer fails when it is flushed, and that is not
noticed. -/
inductive FileFault where
  | fopen
  | fseek
  | fwrite (n : Nat)
  | fflush (n : Nat)
deriving DecidableEq, Repr

/-- What a file holds after a store that has opened it, and the result; opening a file for
writing empties it. -/
def FileFault.outcome (so : List UInt8) : Option FileFault → Option (List UInt8 × McResult)
  | none => some (so, mcDrvOk)
  | some .fopen => none
  | some .fseek => some ([], mcDrvErrInvalidParameter)
  | some (.fwrite n) => some (so.take n, mcDrvErrOutOfResources)
  | some (.fflush n) => some (so.take n, mcDrvOk)

/-- Write a file of the registry, with an operation that may fail. -/
def storeFileFaulty (fault : Option FileFault) (s : Fs) (path : List String) (so : List UInt8) :
    McResult × Fs :=
  match FileFault.outcome so fault with
  | none => (mcDrvErrInvalidDeviceFile, s)
  | some (left, code) =>
    match s.writeFile path left with
    | none => (mcDrvErrInvalidDeviceFile, s)
    | some t => (code, t)

/-- The operations that fail when an application is installed. -/
structure InstallFaults where
  bin : Option FileFault := none
  spid : Option FileFault := none
deriving DecidableEq, Repr

/-- `mcRegistryStoreTABlob`, with operations that may fail. -/
def storeTABlobFaulty (faults : InstallFaults) (s : Fs) (spid : Spid) (blob : Memory)
    (size : UInt32) : McResult × Fs :=
  match (checkTABlob spid blob size).result with
  | .error e => (e, s)
  | .ok uuid =>
    let bin := storeFileFaulty faults.bin s (getTABinFilePath uuid) (blob.slice ⟨0, size.toNat⟩)
    if bin.1 ≠ mcDrvOk then bin
    else if serviceType blob = serviceTypeSpTrustlet then
      -- "shouldn't we delete TA blob file ?"
      storeFileFaulty faults.spid bin.2 (getTASpidFilePath uuid) (le32 spid)
    else (mcDrvOk, bin.2)

/-- A call that fails leaves all applications as they are seen. -/
def InstallsAtomically (faults : InstallFaults) (s : Fs) (spid : Spid) (blob : Memory)
    (size : UInt32) : Prop :=
  (storeTABlobFaulty faults s spid blob size).1 ≠ mcDrvOk →
    ∀ uuid, visible (storeTABlobFaulty faults s spid blob size).2 uuid = visible s uuid

/-! ## What is left -/

/-- A file that holds `left` looks as it did before. -/
def Unseen (s : Fs) (name : String) (left : List UInt8) : Prop :=
  s.exists? (inSystemRegistry name) = true ∨ s.get? (inRegistry name) = some (.file left)

/-- A file of the registry can be opened for writing. -/
def Opens (s : Fs) (name : String) : Prop :=
  s.get? mcRegistryDataPath = some .dir ∧ s.get? (inRegistry name) ≠ some .dir

/-- What the store of a file leaves when it fails is not seen. -/
def FailsUnseen (fault : Option FileFault) (s : Fs) (name : String) (so : List UInt8) : Prop :=
  ∀ left code, FileFault.outcome so fault = some (left, code) → code ≠ mcDrvOk → Opens s name →
    Unseen s name left

/-- The store of a file fails. -/
def StoreFails (fault : Option FileFault) (s : Fs) (name : String) (so : List UInt8) : Prop :=
  ∀ left, FileFault.outcome so fault = some (left, mcDrvOk) → ¬ Opens s name

/-- Every failure strikes before anything has changed, or what has changed is not seen. -/
structure FailuresUnseen (faults : InstallFaults) (s : Fs) (spid : Spid) (blob : Memory)
    (size : UInt32) (uuid : Uuid) : Prop where
  bin : FailsUnseen faults.bin s (taBinName uuid) (blob.slice ⟨0, size.toNat⟩)
  spidFile : serviceType blob = serviceTypeSpTrustlet →
    ∀ left, FileFault.outcome (blob.slice ⟨0, size.toNat⟩) faults.bin = some (left, mcDrvOk) →
      Opens s (taBinName uuid) → StoreFails faults.spid s (taSpidName uuid) (le32 spid) →
        Unseen s (taBinName uuid) left ∧
          FailsUnseen faults.spid s (taSpidName uuid) (le32 spid)

/-! ## One file -/

section File

variable {s t u : Fs} {name : String} {left so : List UInt8} {fault : Option FileFault}

theorem getTABinFilePath_eq (uuid : Uuid) : getTABinFilePath uuid = inRegistry (taBinName uuid) :=
  rfl

theorem getTASpidFilePath_eq (uuid : Uuid) :
    getTASpidFilePath uuid = inRegistry (taSpidName uuid) := rfl

theorem taBinName_ne_taSpidName (a b : Uuid) : taBinName a ≠ taSpidName b := by
  intro h
  have hpath : RegistryObject.path (.taBin a) = RegistryObject.path (.taSpid b) :=
    congrArg inRegistry h
  cases RegistryObject.path_injective hpath

theorem writeFile_of_opens (h : Opens s name) (left : List UInt8) :
    ∃ t, s.writeFile (inRegistry name) left = some t :=
  FileSystem.writeFile_of_dir h.1 h.2 left

theorem writeFile_of_not_opens (h : ¬ Opens s name) (left : List UInt8) :
    s.writeFile (inRegistry name) left = none := by
  refine if_neg fun hplace => h ?_
  obtain ⟨hfile, -, hdir⟩ := hplace
  rw [inRegistry, List.dropLast_concat] at hdir
  refine ⟨FileSystem.isDir_iff.mp hdir, fun hname => ?_⟩
  rw [FileSystem.isDir_iff.mpr hname] at hfile
  cases hfile

/-- **The store of one file.** Nothing happens, or the file holds what is left. -/
theorem storeFileFaulty_cases (fault : Option FileFault) (s : Fs) (name : String)
    (so : List UInt8) :
    (((∀ left code, FileFault.outcome so fault = some (left, code) → ¬ Opens s name) ∧
      storeFileFaulty fault s (inRegistry name) so = (mcDrvErrInvalidDeviceFile, s))) ∨
    ∃ left code t, FileFault.outcome so fault = some (left, code) ∧ Opens s name ∧
      storeFileFaulty fault s (inRegistry name) so = (code, t) ∧
      ∀ q, t.get? q = if q = inRegistry name then some (.file left) else s.get? q := by
  unfold storeFileFaulty
  cases houtcome : FileFault.outcome so fault with
  | none => exact .inl ⟨fun _ _ h => (nomatch h), rfl⟩
  | some p =>
    obtain ⟨left, code⟩ := p
    by_cases hopens : Opens s name
    · obtain ⟨t, ht⟩ := writeFile_of_opens hopens left
      refine .inr ⟨left, code, t, rfl, hopens, ?_, FileSystem.get?_writeFile ht⟩
      dsimp only
      rw [ht]
    · refine .inl ⟨fun _ _ _ => hopens, ?_⟩
      dsimp only
      rw [writeFile_of_not_opens hopens]

theorem storeFileFaulty_none (s : Fs) (path : List String) (so : List UInt8) :
    storeFileFaulty none s path so = storeFile s path so := rfl

/-- A store that succeeds has written the file, and nothing else. -/
theorem get?_storeFileFaulty (h : storeFileFaulty fault s (inRegistry name) so = (mcDrvOk, t)) :
    ∃ left, FileFault.outcome so fault = some (left, mcDrvOk) ∧
      ∀ q, t.get? q = if q = inRegistry name then some (.file left) else s.get? q := by
  rcases storeFileFaulty_cases fault s name so with
    ⟨-, hstore⟩ | ⟨left, code, u, houtcome, -, hstore, hget⟩
  · rw [hstore] at h
    exact absurd (Prod.mk.inj h).1 (by decide)
  · rw [hstore] at h
    obtain ⟨rfl, rfl⟩ := Prod.mk.inj h
    exact ⟨left, houtcome, hget⟩

/-! ## What is seen -/

/-- `t` is `s` with some files of the registry written, each once. -/
structure Wrote (s t : Fs) (writes : List (String × List UInt8)) : Prop where
  inside : ∀ name left, (name, left) ∈ writes → t.get? (inRegistry name) = some (.file left)
  outside : ∀ q, (∀ name left, (name, left) ∈ writes → q ≠ inRegistry name) →
    t.get? q = s.get? q

variable {writes : List (String × List UInt8)}

theorem Wrote.nil (s : Fs) : Wrote s s [] := ⟨fun _ _ h => (nomatch h), fun _ _ => rfl⟩

theorem Wrote.cons (h : Wrote s t writes) (hnew : ∀ left', (name, left') ∉ writes)
    (hget : ∀ q, u.get? q = if q = inRegistry name then some (.file left) else t.get? q) :
    Wrote s u ((name, left) :: writes) := by
  refine ⟨fun name' left' hmem => ?_, fun q hq => ?_⟩
  · rcases List.mem_cons.mp hmem with heq | hmem
    · obtain ⟨rfl, rfl⟩ := Prod.mk.inj heq
      rw [hget, if_pos rfl]
    · have hname : inRegistry name' ≠ inRegistry name := by
        intro heq
        rw [inRegistry_inj heq] at hmem
        exact hnew left' hmem
      rw [hget, if_neg hname]
      exact h.inside name' left' hmem
  · rw [hget, if_neg (hq name left List.mem_cons_self)]
    exact h.outside q fun name' left' hmem => hq name' left' (List.mem_cons_of_mem _ hmem)

theorem inSystemRegistry_ne (name name' : String) : inSystemRegistry name ≠ inRegistry name' := by
  intro h
  exact absurd (List.cons.inj h).1 (by decide)

theorem Wrote.system (h : Wrote s t writes) (name : String) :
    t.get? (inSystemRegistry name) = s.get? (inSystemRegistry name) :=
  h.outside _ fun _ _ _ => inSystemRegistry_ne _ _

/-- A file looks as before exactly when what has been written to it, if anything, is not seen. -/
theorem Wrote.get?_any_iff (h : Wrote s t writes) (name : String) :
    t.get? (inAnyRegistry t name) = s.get? (inAnyRegistry s name) ↔
      ∀ left, (name, left) ∈ writes → Unseen s name left := by
  have hexists : t.exists? (inSystemRegistry name) = s.exists? (inSystemRegistry name) :=
    congrArg Option.isSome (h.system name)
  unfold inAnyRegistry
  rw [hexists]
  by_cases hsystem : s.exists? (inSystemRegistry name) = true
  · rw [if_pos hsystem]
    exact iff_of_true (h.system name) fun _ _ => .inl hsystem
  · rw [if_neg hsystem]
    constructor
    · intro hsame left hmem
      rw [h.inside name left hmem] at hsame
      exact .inr hsame.symm
    · intro hunseen
      by_cases hwritten : ∃ left, (name, left) ∈ writes
      · obtain ⟨left, hmem⟩ := hwritten
        rw [h.inside name left hmem]
        rcases hunseen left hmem with hhidden | hsame
        · exact absurd hhidden hsystem
        · exact hsame.symm
      · refine h.outside _ fun name' left hmem heq => hwritten ⟨left, ?_⟩
        rwa [inRegistry_inj heq]

/-- Applications look as before exactly when nothing that has been written is seen. -/
theorem Wrote.visible_iff (h : Wrote s t writes) (uuid : Uuid)
    (hnames : ∀ p ∈ writes, p.1 = taBinName uuid ∨ p.1 = taSpidName uuid) :
    (∀ uuid, visible t uuid = visible s uuid) ↔ ∀ p ∈ writes, Unseen s p.1 p.2 := by
  constructor
  · rintro hvisible ⟨name, left⟩ hmem
    obtain ⟨hbin, hspid⟩ := Prod.mk.inj (hvisible uuid)
    rcases hnames _ hmem with hname | hname
    · obtain rfl : name = taBinName uuid := hname
      exact (h.get?_any_iff _).mp hbin left hmem
    · obtain rfl : name = taSpidName uuid := hname
      exact (h.get?_any_iff _).mp hspid left hmem
  · intro hunseen uuid'
    exact Prod.ext ((h.get?_any_iff _).mpr fun left hmem => hunseen _ hmem)
      ((h.get?_any_iff _).mpr fun left hmem => hunseen _ hmem)

end File

/-! ## Installing -/

section Install

variable {s t u : Fs} {uuid : Uuid} {left left' : List UInt8}

/-- Only the binary has been written. -/
theorem visible_iff_of_bin
    (h : ∀ q, t.get? q = if q = inRegistry (taBinName uuid) then some (.file left) else s.get? q) :
    (∀ uuid, visible t uuid = visible s uuid) ↔ Unseen s (taBinName uuid) left := by
  have hwrote := (Wrote.nil s).cons (fun _ hmem => nomatch hmem) h
  rw [hwrote.visible_iff uuid (by simp)]
  simp

/-- Both files have been written. -/
theorem visible_iff_of_both
    (h : ∀ q, t.get? q = if q = inRegistry (taBinName uuid) then some (.file left) else s.get? q)
    (h' : ∀ q, u.get? q =
      if q = inRegistry (taSpidName uuid) then some (.file left') else t.get? q) :
    (∀ uuid, visible u uuid = visible s uuid) ↔
      Unseen s (taBinName uuid) left ∧ Unseen s (taSpidName uuid) left' := by
  have hbin := (Wrote.nil s).cons (fun _ hmem => nomatch hmem) h
  have hboth := hbin.cons (fun _ hmem => by
    have hname := (Prod.mk.inj (List.mem_singleton.mp hmem)).1
    exact taBinName_ne_taSpidName uuid uuid hname.symm) h'
  rw [hboth.visible_iff uuid (by simp)]
  simp [and_comm]

/-- Writing one file keeps another one as open as it was. -/
theorem opens_iff_of_write {name name' : String} (hne : name' ≠ name)
    (h : ∀ q, t.get? q = if q = inRegistry name then some (.file left) else s.get? q) :
    Opens t name' ↔ Opens s name' := by
  have hdata : mcRegistryDataPath ≠ inRegistry name := fun heq =>
    absurd (congrArg List.length heq) (show ¬ 3 = 4 by decide)
  have hname : inRegistry name' ≠ inRegistry name := fun heq => hne (inRegistry_inj heq)
  unfold Opens
  rw [h, if_neg hdata, h, if_neg hname]

/-- **The second file.** When its store fails, the binary is there already. -/
theorem spidFile_iff (fault : Option FileFault) (so : List UInt8)
    (ht : ∀ q, t.get? q = if q = inRegistry (taBinName uuid) then some (.file left) else s.get? q) :
    ((storeFileFaulty fault t (inRegistry (taSpidName uuid)) so).1 ≠ mcDrvOk →
      ∀ uuid', visible (storeFileFaulty fault t (inRegistry (taSpidName uuid)) so).2 uuid' =
        visible s uuid') ↔
      (StoreFails fault s (taSpidName uuid) so →
        Unseen s (taBinName uuid) left ∧ FailsUnseen fault s (taSpidName uuid) so) := by
  have hopens : Opens t (taSpidName uuid) ↔ Opens s (taSpidName uuid) :=
    opens_iff_of_write (taBinName_ne_taSpidName uuid uuid).symm ht
  rcases storeFileFaulty_cases fault t (taSpidName uuid) so with
    ⟨hshut, hstore⟩ | ⟨left', code, u, houtcome, hopen, hstore, hu⟩
  · -- it is not opened
    rw [hstore]
    show (mcDrvErrInvalidDeviceFile ≠ mcDrvOk → ∀ uuid', visible t uuid' = visible s uuid') ↔ _
    rw [visible_iff_of_bin ht]
    have hfails : StoreFails fault s (taSpidName uuid) so := fun left' hleft hopen =>
      hshut left' mcDrvOk hleft (hopens.mpr hopen)
    constructor
    · intro h _
      refine ⟨h (by decide), fun left' code hleft _ hopen => ?_⟩
      exact absurd (hopens.mpr hopen) (hshut left' code hleft)
    · intro h _
      exact (h hfails).1
  · rw [hstore]
    show (code ≠ mcDrvOk → ∀ uuid', visible u uuid' = visible s uuid') ↔ _
    rw [visible_iff_of_both ht hu]
    by_cases hcode : code = mcDrvOk
    · refine iff_of_true (fun hne => absurd hcode hne) fun hfails => ?_
      rw [hcode] at houtcome
      exact absurd (hopens.mp hopen) (hfails left' houtcome)
    · have hfails : StoreFails fault s (taSpidName uuid) so := by
        intro left'' hleft
        rw [houtcome] at hleft
        exact absurd (Prod.mk.inj (Option.some.inj hleft)).2 hcode
      constructor
      · intro h _
        refine ⟨(h hcode).1, fun left'' code'' hleft _ _ => ?_⟩
        rw [houtcome] at hleft
        rw [← (Prod.mk.inj (Option.some.inj hleft)).1]
        exact (h hcode).2
      · intro h hne
        obtain ⟨hbin, hspid⟩ := h hfails
        exact ⟨hbin, hspid left' code houtcome hne (hopens.mp hopen)⟩

/-- **Installation is atomic** exactly when every failure strikes before anything has changed, or
what has changed is not seen. -/
theorem installsAtomically_iff (faults : InstallFaults) (s : Fs) (spid : Spid) (blob : Memory)
    (size : UInt32) :
    InstallsAtomically faults s spid blob size ↔
      ∀ uuid, (checkTABlob spid blob size).result = .ok uuid →
        FailuresUnseen faults s spid blob size uuid := by
  unfold InstallsAtomically storeTABlobFaulty
  cases hcheck : (checkTABlob spid blob size).result with
  | error e => exact iff_of_true (fun _ _ => rfl) fun _ huuid => nomatch huuid
  | ok uuid =>
    have honly : (∀ uuid', Except.ok uuid = (Except.ok uuid' : Except McResult Uuid) →
        FailuresUnseen faults s spid blob size uuid') ↔
        FailuresUnseen faults s spid blob size uuid :=
      ⟨fun h => h uuid rfl, fun h uuid' heq => Except.ok.inj heq ▸ h⟩
    rw [honly]
    dsimp only
    -- the binary is stored first, and only with that the file that names its provider
    rw [getTABinFilePath_eq, getTASpidFilePath_eq]
    rcases storeFileFaulty_cases faults.bin s (taBinName uuid) (blob.slice ⟨0, size.toNat⟩) with
      ⟨hshut, hstore⟩ | ⟨left, code, t, houtcome, hopens, hstore, ht⟩
    · -- the binary is not opened
      rw [hstore, if_pos (show mcDrvErrInvalidDeviceFile ≠ mcDrvOk by decide)]
      refine iff_of_true (fun _ _ => rfl) ⟨fun left code hleft _ hopens => ?_,
        fun _ left hleft hopens => ?_⟩
      · exact absurd hopens (hshut left code hleft)
      · exact absurd hopens (hshut left mcDrvOk hleft)
    rw [hstore]
    dsimp only
    by_cases hcode : code = mcDrvOk
    · rw [if_neg (not_not.mpr hcode)]
      by_cases htype : serviceType blob = serviceTypeSpTrustlet
      · rw [if_pos htype, spidFile_iff faults.spid (le32 spid) ht]
        constructor
        · intro h
          refine ⟨fun left' code' hleft hne => ?_, fun _ left' hleft _ hfails => ?_⟩
          · rw [houtcome] at hleft
            exact absurd ((Prod.mk.inj (Option.some.inj hleft)).2.symm.trans hcode) hne
          · rw [houtcome] at hleft
            rw [← (Prod.mk.inj (Option.some.inj hleft)).1]
            exact h hfails
        · intro h hfails
          rw [hcode] at houtcome
          exact h.spidFile htype left houtcome hopens hfails
      · -- a system application has no second file
        rw [if_neg htype]
        refine iff_of_true (fun hne => absurd rfl hne) ⟨fun left' code' hleft hne => ?_,
          fun hsp => absurd hsp htype⟩
        rw [houtcome] at hleft
        exact absurd ((Prod.mk.inj (Option.some.inj hleft)).2.symm.trans hcode) hne
    · -- the binary is opened, and its store fails
      rw [if_pos hcode]
      show (code ≠ mcDrvOk → _) ↔ _
      rw [visible_iff_of_bin ht]
      constructor
      · intro h
        refine ⟨fun left' code' hleft _ _ => ?_, fun _ left' hleft => ?_⟩
        · rw [houtcome] at hleft
          rw [← (Prod.mk.inj (Option.some.inj hleft)).1]
          exact h hcode
        · rw [houtcome] at hleft
          exact absurd (Prod.mk.inj (Option.some.inj hleft)).2 hcode
      · intro h hne
        exact h.bin left code houtcome hne hopens

/-- Without a failing operation this is `mcRegistryStoreTABlob`. -/
theorem storeTABlobFaulty_none (s : Fs) (spid : Spid) (blob : Memory) (size : UInt32) :
    storeTABlobFaulty {} s spid blob size = (mcRegistryStoreTABlob s spid blob size).2 := by
  unfold storeTABlobFaulty mcRegistryStoreTABlob
  dsimp only
  cases (checkTABlob spid blob size).result with
  | error e => rfl
  | ok uuid =>
    show (if (storeFile s (getTABinFilePath uuid) (blob.slice ⟨0, size.toNat⟩)).1 ≠ mcDrvOk
      then _ else if serviceType blob = serviceTypeSpTrustlet then _ else _) = _
    dsimp only
    split_ifs
    all_goals rfl

/-- A blob that is not accepted is answered with an error. -/
theorem checkTABlob_refuses (spid : Spid) (blob : Memory) (size : UInt32) :
    (checkTABlob spid blob size).Refuses (· ≠ mcDrvOk) := by
  have hif : ∀ (c : Prop) [Decidable c] (e : McResult), e ≠ mcDrvOk →
      (refuseIf c e).Refuses (· ≠ mcDrvOk) := fun _ _ _ he => refuses_refuseIf he
  have hparameter : ∀ (c : Prop) [Decidable c],
      (refuseIf c mcDrvErrInvalidParameter).Refuses (· ≠ mcDrvOk) := fun c _ =>
    hif c _ (by decide)
  have hheader : ∀ (c : Prop) [Decidable c],
      (refuseIf c mcDrvErrTaHeaderError).Refuses (· ≠ mcDrvOk) := fun c _ => hif c _ (by decide)
  have hattestation : ∀ (c : Prop) [Decidable c],
      (refuseIf c mcDrvErrTaAttestationError).Refuses (· ≠ mcDrvOk) := fun c _ =>
    hif c _ (by decide)
  have hfield : ∀ w, (lookField blob w).Refuses (· ≠ mcDrvOk) := fun w =>
    refuses_look.bind fun _ => refuses_pure
  have hword : ∀ w, (getAsUint32BE blob w).Refuses (· ≠ mcDrvOk) := fun w =>
    refuses_look.bind fun _ => refuses_pure
  unfold checkTABlob
  refine (hparameter _).bind fun _ => (hfield _).bind fun _ => (hheader _).bind fun _ =>
    (hfield _).bind fun _ => (hheader _).bind fun _ => (hfield _).bind fun _ => ?_
  split_ifs
  · exact (hparameter _).bind fun _ => refuses_look.bind fun _ => refuses_pure
  · refine (hparameter _).bind fun _ => (hfield _).bind fun _ => Refuses.bind ?_ fun _ =>
      (hheader _).bind fun _ => (hword _).bind fun _ => (hattestation _).bind fun _ =>
      refuses_look.bind fun _ => (hattestation _).bind fun _ => (hword _).bind fun _ =>
      (hattestation _).bind fun _ => refuses_look.bind fun _ => refuses_pure
    split_ifs
    · exact (hword _).bind fun _ => refuses_pure
    · exact refuses_pure
  · exact refuses_refuse (show mcDrvErrInvalidParameter ≠ mcDrvOk by decide)

/-- **A success.** The blob was accepted, and then each file was written in turn. -/
theorem storeTABlobFaulty_spec {faults : InstallFaults} {spid : Spid} {blob : Memory}
    {size : UInt32} (h : storeTABlobFaulty faults s spid blob size = (mcDrvOk, u)) :
    ∃ uuid left t, (checkTABlob spid blob size).result = .ok uuid ∧
      FileFault.outcome (blob.slice ⟨0, size.toNat⟩) faults.bin = some (left, mcDrvOk) ∧
      (∀ q, t.get? q = if q = getTABinFilePath uuid then some (.file left) else s.get? q) ∧
      ((serviceType blob = serviceTypeSpTrustlet ∧
          ∃ left', FileFault.outcome (le32 spid) faults.spid = some (left', mcDrvOk) ∧
            ∀ q, u.get? q = if q = getTASpidFilePath uuid then some (.file left') else t.get? q) ∨
        (serviceType blob ≠ serviceTypeSpTrustlet ∧ u = t)) := by
  unfold storeTABlobFaulty at h
  cases hcheck : (checkTABlob spid blob size).result with
  | error e =>
    rw [hcheck] at h
    exact absurd (Prod.mk.inj h).1 (checkTABlob_refuses _ _ _ e hcheck)
  | ok uuid =>
    rw [hcheck] at h
    dsimp only at h
    rw [getTABinFilePath_eq, getTASpidFilePath_eq] at h
    obtain ⟨⟨code, t⟩, hstore⟩ : ∃ p, storeFileFaulty faults.bin s (inRegistry (taBinName uuid))
        (blob.slice ⟨0, size.toNat⟩) = p := ⟨_, rfl⟩
    rw [hstore] at h
    by_cases hcode : code = mcDrvOk
    · rw [if_neg (not_not.mpr hcode)] at h
      rw [hcode] at hstore
      obtain ⟨left, hleft, hbin⟩ := get?_storeFileFaulty hstore
      refine ⟨uuid, left, t, rfl, hleft, hbin, ?_⟩
      by_cases hsp : serviceType blob = serviceTypeSpTrustlet
      · rw [if_pos hsp] at h
        exact .inl ⟨hsp, get?_storeFileFaulty h⟩
      · rw [if_neg hsp] at h
        exact .inr ⟨hsp, (Prod.mk.inj h).2.symm⟩
    · rw [if_pos hcode] at h
      exact absurd (Prod.mk.inj h).1 hcode

end Install

/-- The application of `bareHeader` with its attestation record, for service provider 1: its spid
file cannot be opened, and the binary is there. -/
theorem not_installsAtomically_bareHeader :
    (mcRegistryStoreTABlob freshRegistry 1 bareHeader 144).2.1 = mcDrvOk ∧
      ¬ InstallsAtomically { spid := some .fopen } freshRegistry 1 bareHeader 144 := by
  refine ⟨by decide, fun hatomic => ?_⟩
  have hfails : (storeTABlobFaulty { spid := some .fopen } freshRegistry 1 bareHeader 144).1 ≠
      mcDrvOk := by decide
  have hsame := congrArg Prod.fst (hatomic hfails (Vector.replicate 16 0))
  revert hsame
  decide

end McDaemon.Registry
