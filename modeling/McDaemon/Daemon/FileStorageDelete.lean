/-
# McDaemon.Daemon.FileStorageDelete — deleting an object, with failing calls.

`FSD_DeleteFile` takes an object that it cannot open for one that is not there, and keeps the result
of removing it in the variable that the result of removing its directory goes to.  A directory that
is not empty counts as success, and with the object still in it a directory is not empty.
-/
import McDaemon.Daemon.FileStorageMap

namespace McDaemon.Daemon.Fsd

open McDaemon.Lib McDaemon.Registry

/-! ## Failing calls -/

/-- `errno`, as far as it is looked at. -/
inductive Errno
  | enoent
  | eexist
  | enotempty
  | other
deriving DecidableEq, Repr

/-- The calls of a deletion that fail without need. -/
structure DeleteFaults where
  fopen : Bool
  remove : Bool
  rmdir : Option Errno
deriving DecidableEq, Repr

/-- `errno` of an `rmdir` that fails because of what is there. -/
def rmdirErrno (s : Fs) (p : List String) : Errno :=
  match s.get? p with
  | none => .enoent
  | some (.file _) => .other
  | some .dir => if s.entries p = [] then .other else .enotempty

/-- The object is opened, and removed if that works; `ret` is not set when it has been removed. -/
def openAndRemove (f : DeleteFaults) (s : Fs) (m : SthFsdMessage) : Option UInt32 × Fs :=
  if f.fopen || !s.exists? (createFilePath m.uuid m.filename) then (some teecSuccess, s)
  else if f.remove then (some teeErrorStorageNoSpace, s)
  else
    let res := s.remove (createFilePath m.uuid m.filename)
    (if res.1 then none else some teeErrorStorageNoSpace, res.2)

/-- `rmdir` of the directory of the application: the `errno` if it fails. -/
def removeTaDir (f : DeleteFaults) (s : Fs) (m : SthFsdMessage) : Option Errno × Fs :=
  match f.rmdir with
  | some errno => (some errno, s)
  | none =>
    let res := s.rmdir (createTaDirPath m.uuid)
    (if res.1 then none else some (rmdirErrno s (createTaDirPath m.uuid)), res.2)

/-- `FSD_DeleteFile`.  Both branches at the end set `ret`, whatever it was. -/
def deleteFileFaulty (f : DeleteFaults) (s : Fs) (m : SthFsdMessage) : UInt32 × Fs :=
  let removed := openAndRemove f s m
  let res := removeTaDir f removed.2 m
  match res.1 with
  | some .other => (teeErrorStorageNoSpace, res.2)
  | some .enoent | some .eexist | some .enotempty | none => (teecSuccess, res.2)

/-- A deletion that returns success has removed the object, and nothing but that and the directory
of the application. -/
def DeletesObject (f : DeleteFaults) (s : Fs) (m : SthFsdMessage) : Prop :=
  (deleteFileFaulty f s m).1 = teecSuccess →
    (deleteFileFaulty f s m).2.exists? (createFilePath m.uuid m.filename) = false ∧
    ∀ q, q ≠ createFilePath m.uuid m.filename → q ≠ createTaDirPath m.uuid →
      (deleteFileFaulty f s m).2.get? q = s.get? q

/-- The object is not there, or it can be opened and removed. -/
def Removable (f : DeleteFaults) (s : Fs) (m : SthFsdMessage) : Prop :=
  s.exists? (createFilePath m.uuid m.filename) = false ∨
    f.fopen = false ∧ f.remove = false ∧ (s.remove (createFilePath m.uuid m.filename)).1 = true

/-- With the object still there, `rmdir` fails for a reason that counts. -/
def RmdirReports (f : DeleteFaults) (s : Fs) (m : SthFsdMessage) : Prop :=
  f.rmdir = some .other ∨
    f.rmdir = none ∧ ∃ content, s.get? (createTaDirPath m.uuid) = some (.file content)

/-! ## Step by step -/

section Steps

variable (f : DeleteFaults) (s : Fs) (m : SthFsdMessage)

/-- The first step touches the object only. -/
theorem get?_openAndRemove {q : List String} (hq : q ≠ createFilePath m.uuid m.filename) :
    (openAndRemove f s m).2.get? q = s.get? q := by
  unfold openAndRemove
  split
  · rfl
  · split
    · rfl
    · exact FileSystem.removeIf_shrinks.get?_of_not hq

theorem object_of_removable (h : Removable f s m) :
    (openAndRemove f s m).2.get? (createFilePath m.uuid m.filename) = none := by
  unfold openAndRemove
  rcases h with habsent | ⟨hopen, hremove, hremoved⟩
  · rw [if_pos (by simp [habsent])]
    exact Option.not_isSome_iff_eq_none.mp (Bool.eq_false_iff.mp habsent)
  · by_cases hexists : s.exists? (createFilePath m.uuid m.filename) = true
    · rw [if_neg (by simp [hopen, hexists]), if_neg (by simp [hremove])]
      exact FileSystem.removeIf_gone hremoved
    · rw [if_pos (by simp [hexists])]
      exact Option.not_isSome_iff_eq_none.mp hexists

theorem object_of_not_removable (h : ¬ Removable f s m) (q : List String) :
    (openAndRemove f s m).2.get? q = s.get? q := by
  unfold openAndRemove
  split
  · rfl
  · next hopens =>
    split
    · rfl
    · next hremove =>
      have hopen : f.fopen = false := by
        by_contra hfopen
        exact hopens (by simp [hfopen])
      refine FileSystem.removeIf_of_not (fun hremoved => h ?_) q
      exact .inr ⟨hopen, Bool.eq_false_iff.mpr hremove, hremoved⟩

/-- The second step touches the directory only. -/
theorem get?_removeTaDir {q : List String} (hq : q ≠ createTaDirPath m.uuid) :
    (removeTaDir f s m).2.get? q = s.get? q := by
  unfold removeTaDir
  cases f.rmdir with
  | some errno => rfl
  | none => exact FileSystem.removeIf_shrinks.get?_of_not hq

theorem deleteFileFaulty_snd :
    (deleteFileFaulty f s m).2 = (removeTaDir f (openAndRemove f s m).2 m).2 := by
  unfold deleteFileFaulty
  dsimp only
  split
  · rfl
  · rfl
  · rfl
  · rfl
  · rfl

theorem deleteFileFaulty_fst : (deleteFileFaulty f s m).1 ≠ teecSuccess ↔
    (removeTaDir f (openAndRemove f s m).2 m).1 = some .other := by
  unfold deleteFileFaulty
  dsimp only
  split
  · next hother => exact iff_of_true (show teeErrorStorageNoSpace ≠ teecSuccess by decide) hother
  · next herrno => exact iff_of_false (not_not_intro rfl) (by simp [herrno])
  · next herrno => exact iff_of_false (not_not_intro rfl) (by simp [herrno])
  · next herrno => exact iff_of_false (not_not_intro rfl) (by simp [herrno])
  · next hnone => exact iff_of_false (not_not_intro rfl) (by simp [hnone])

/-- A directory with an object in it is not removed, and the `errno` says whether it is one. -/
theorem removeTaDir_of_object (hobject : s.get? (createFilePath m.uuid m.filename) ≠ none) :
    (removeTaDir f s m).1 = some .other ↔ RmdirReports f s m := by
  have hentry : s.entries (createTaDirPath m.uuid) ≠ [] := by
    have hmem : hexFileName m.filename ∈ s.entries (createTaDirPath m.uuid) :=
      FileSystem.mem_entries.mpr (Option.isSome_iff_ne_none.mpr hobject)
    exact List.ne_nil_of_mem hmem
  have hrmdir : (s.rmdir (createTaDirPath m.uuid)).1 = false := by
    refine Bool.eq_false_iff.mpr fun hremoved => ?_
    obtain ⟨-, node, -, hok⟩ := FileSystem.removeIf_fst.mp hremoved
    exact hentry (List.isEmpty_iff.mp (Bool.and_eq_true_iff.mp hok).2)
  unfold removeTaDir RmdirReports
  cases f.rmdir with
  | some errno => simp
  | none =>
    simp only [hrmdir, Bool.false_eq_true, if_false, Option.some.injEq, reduceCtorEq, false_or,
      true_and]
    unfold rmdirErrno
    cases s.get? (createTaDirPath m.uuid) with
    | none => simp
    | some node =>
      cases node with
      | file content => simp
      | dir => simp [hentry]

end Steps

/-- **When a deletion that succeeds has deleted.**  Exactly when the object is not there or can be
opened and removed, or the removal of the directory fails for a reason that counts. -/
theorem deletesObject_iff (f : DeleteFaults) (s : Fs) (m : SthFsdMessage) :
    DeletesObject f s m ↔ Removable f s m ∨ RmdirReports f s m := by
  have hafter : (deleteFileFaulty f s m).2.get? (createFilePath m.uuid m.filename) =
      (openAndRemove f s m).2.get? (createFilePath m.uuid m.filename) := by
    rw [deleteFileFaulty_snd]
    exact get?_removeTaDir f _ m (taDir_ne_file _ _ _).symm
  have hothers : ∀ q, q ≠ createFilePath m.uuid m.filename → q ≠ createTaDirPath m.uuid →
      (deleteFileFaulty f s m).2.get? q = s.get? q := by
    intro q hobject hdir
    rw [deleteFileFaulty_snd, get?_removeTaDir f _ m hdir]
    exact get?_openAndRemove f s m hobject
  by_cases hremovable : Removable f s m
  · refine iff_of_true (fun _ => ⟨?_, hothers⟩) (.inl hremovable)
    rw [FileSystem.exists?, hafter, object_of_removable f s m hremovable]
    rfl
  · -- the object stays
    have hsame := object_of_not_removable f s m hremovable
    have hobject : s.get? (createFilePath m.uuid m.filename) ≠ none := by
      intro habsent
      exact hremovable (.inl (by rw [FileSystem.exists?, habsent]; rfl))
    have hthere : (openAndRemove f s m).2.get? (createFilePath m.uuid m.filename) ≠ none := by
      rw [hsame]
      exact hobject
    have hreports : RmdirReports f (openAndRemove f s m).2 m ↔ RmdirReports f s m := by
      unfold RmdirReports
      rw [hsame]
    have hfails : (deleteFileFaulty f s m).1 ≠ teecSuccess ↔ RmdirReports f s m := by
      rw [deleteFileFaulty_fst, removeTaDir_of_object f _ m hthere, hreports]
    rw [or_iff_right hremovable, ← hfails]
    constructor
    · intro hdeletes hsuccess
      have habsent := (hdeletes hsuccess).1
      rw [FileSystem.exists?, hafter] at habsent
      exact hthere (Option.not_isSome_iff_eq_none.mp (Bool.eq_false_iff.mp habsent))
    · exact fun hne hsuccess => absurd hsuccess hne

/-- A well-formed storage gives `rmdir` no reason to fail that counts. -/
theorem removeTaDir_of_wellFormed {t : Fs} {m : SthFsdMessage} (hfault : t.fault = none)
    (hdir : ∀ content, t.get? (createTaDirPath m.uuid) ≠ some (.file content)) :
    (removeTaDir ⟨false, false, none⟩ t m).1 ≠ some .other := by
  intro hother
  by_cases hremoved : (t.rmdir (createTaDirPath m.uuid)).1 = true
  · simp [removeTaDir, hremoved] at hother
  · have herrno : rmdirErrno t (createTaDirPath m.uuid) = .other := by
      simpa [removeTaDir, hremoved] using hother
    unfold rmdirErrno at herrno
    cases hnode : t.get? (createTaDirPath m.uuid) with
    | none => simp [hnode] at herrno
    | some node =>
      cases node with
      | file content => exact hdir content hnode
      | dir =>
        have hempty : t.entries (createTaDirPath m.uuid) = [] := by
          by_contra hne
          simp [hnode, hne] at herrno
        exact hremoved (FileSystem.removeIf_fst.mpr ⟨by simp [hfault], .dir, hnode, by simp [hempty]⟩)

/-- Without a failing call this is `FSD_DeleteFile` of the storage. -/
theorem deleteFileFaulty_none (s : Storage) (m : SthFsdMessage) :
    deleteFileFaulty ⟨false, false, none⟩ s.fs m = deleteFile s.fs m := by
  have hremove : (openAndRemove ⟨false, false, none⟩ s.fs m).2 = removeObject s.fs m := by
    unfold openAndRemove removeObject
    cases s.fs.exists? (createFilePath m.uuid m.filename) with
    | true => rfl
    | false => rfl
  have hfault : (removeObject s.fs m).fault = none := by
    unfold removeObject
    split
    · exact FileSystem.removeIf_shrinks.fault_of_none s.wellFormed.fault
    · exact s.wellFormed.fault
  have hdir : ∀ content,
      (removeObject s.fs m).get? (createTaDirPath m.uuid) ≠ some (.file content) := by
    intro content
    rw [← hremove, get?_openAndRemove _ s.fs m (taDir_ne_file _ _ _)]
    exact s.wellFormed.taDir m.uuid content
  have hstatus : (deleteFileFaulty ⟨false, false, none⟩ s.fs m).1 = teecSuccess := by
    by_contra hne
    rw [← ne_eq, deleteFileFaulty_fst, hremove] at hne
    exact removeTaDir_of_wellFormed hfault hdir hne
  have hplain : deleteFile s.fs m =
      (teecSuccess, ((removeObject s.fs m).rmdir (createTaDirPath m.uuid)).2) := by
    unfold deleteFile
    split
    · next content hfile => exact absurd hfile (hdir content)
    · rfl
  rw [hplain]
  refine Prod.ext hstatus ?_
  rw [deleteFileFaulty_snd, hremove]
  rfl

/-! ## An object that stays -/

/-- The storage behind a write. -/
def oneObject : Fs := (writeFile emptyFs plainWrite .none).2

/-- The object is to be deleted again. -/
def plainDelete : SthFsdMessage := { plainWrite with type := sthMessageTypeDelete, payload := [] }

/-- `remove` fails, then `rmdir` finds the object in the directory: success is returned. -/
theorem not_deletesObject_remove :
    (deleteFileFaulty ⟨false, true, none⟩ oneObject plainDelete).1 = teecSuccess ∧
      ¬ DeletesObject ⟨false, true, none⟩ oneObject plainDelete := by
  have hsuccess : (deleteFileFaulty ⟨false, true, none⟩ oneObject plainDelete).1 =
      teecSuccess := by decide
  refine ⟨hsuccess, fun h => ?_⟩
  exact absurd (h hsuccess).1 (by decide)

end McDaemon.Daemon.Fsd
