/-
# McDaemon.Registry.BufferedStores — storing a container through a buffered file.

The four stores go the same way: the file is opened, which empties it, a seek, a write, a flush, a
close.  Opening, seeking and the error indicator behind the write are looked at, the flush and the
close are not, and what was in the file is gone by then.
-/
import McDaemon.Lib.Stream
import McDaemon.Registry.AuthToken
import McDaemon.Registry.TaInstall

namespace McDaemon.Registry.Buffered

open McDaemon.Lib

/-! ## The stores -/

/-- What becomes of the operations on the file: whether it is opened, whether the seek succeeds, the
write, and how many of the bytes that wait are taken by the flush and by the close. -/
structure FileAnswers where
  opens : Bool
  seeks : Bool
  write : WriteAnswer
  flush : Nat
  close : Nat
deriving DecidableEq, Repr

/-- What the file holds after a store that has opened it, and the result. -/
def FileAnswers.outcome (a : FileAnswers) (so : List UInt8) : List UInt8 × McResult :=
  if a.seeks = false then ((Stream.opened.drain a.close).out, mcDrvErrInvalidParameter)
  else
    let fs := Stream.opened.write so a.write
    if fs.error then ((fs.drain a.close).out, mcDrvErrOutOfResources)
    else (((fs.drain a.flush).drain a.close).out, mcDrvOk)

/-- The body that the stores share. -/
def storeContainer (a : FileAnswers) (s : Fs) (path : List String) (so : List UInt8) :
    McResult × Fs :=
  if a.opens = false then (mcDrvErrInvalidDeviceFile, s)
  else
    match s.writeFile path (a.outcome so).1 with
    | none => (mcDrvErrInvalidDeviceFile, s)
    | some t => ((a.outcome so).2, t)

def mcRegistryStoreAuthToken (a : FileAnswers) (authTokenPath : Option (List String)) (s : Fs)
    (so : List UInt8) : McResult × Fs :=
  if so.length > 3 * maxSoContSize then (mcDrvErrInvalidParameter, s)
  else storeContainer a s (getAuthTokenFilePath authTokenPath s) so

def mcRegistryStoreRoot (a : FileAnswers) (s : Fs) (so : List UInt8) : McResult × Fs :=
  if so.length > 3 * maxSoContSize then (mcDrvErrInvalidParameter, s)
  else storeContainer a s getRootContFilePath so

def mcRegistryStoreSp (a : FileAnswers) (s : Fs) (spid : Spid) (so : List UInt8) : McResult × Fs :=
  if spid = 0 ∨ so.length > 3 * maxSoContSize then (mcDrvErrInvalidParameter, s)
  else storeContainer a s (getSpContFilePath spid) so

def mcRegistryStoreTrustletCon (a : FileAnswers) (s : Fs) (uuid : Uuid) (spid : Spid)
    (so : List UInt8) : McResult × Fs :=
  if so.length > 3 * maxSoContSize then (mcDrvErrInvalidParameter, s)
  else storeContainer a s (getTlContFilePath uuid spid) so

/-! ## What is promised -/

/-- A success means that the file holds what was to be stored, an error that it is as it was. -/
def StoresOrKeeps (s : Fs) (path : List String) (so : List UInt8) (r : McResult × Fs) : Prop :=
  (r.1 = mcDrvOk → r.2.get? path = some (.file so)) ∧
    (r.1 ≠ mcDrvOk → r.2.get? path = s.get? path)

/-- The file is not touched, all that was to be stored gets out, or what gets out of a store that fails
is what the file has held before. -/
inductive FileAnswers.Harmless (a : FileAnswers) (s : Fs) (path : List String) (so : List UInt8) :
    Prop where
  | refused (h : a.opens = false)
  | noPlace (h : s.writeFile path [] = none)
  | stored (n : Nat) (hseek : a.seeks = true) (hwrite : a.write = .done n)
      (hout : so.length ≤ n + a.flush + a.close)
  | seekFails (hseek : a.seeks = false) (hold : s.get? path = some (.file []))
  | writeFails (taken n : Nat) (hseek : a.seeks = true) (hwrite : a.write = .failed taken n)
      (hold : s.get? path = some (.file ((so.take taken).take (n + a.close))))

/-! ## One store -/

section Store

variable {a : FileAnswers} {s : Fs} {path : List String} {so : List UInt8}

/-- Whether a file can be written does not depend on what is written. -/
theorem writeFile_eq_none_iff (content content' : List UInt8) :
    s.writeFile path content = none ↔ s.writeFile path content' = none := by
  unfold FileSystem.writeFile
  split_ifs
  · exact ⟨nofun, nofun⟩
  · exact ⟨fun _ => rfl, fun _ => rfl⟩

theorem outcome_seekFails (h : a.seeks = false) :
    a.outcome so = ([], mcDrvErrInvalidParameter) := by
  rw [FileAnswers.outcome, if_pos h, Stream.out_drain_opened]

theorem outcome_writeFails {taken n : Nat} (h : a.seeks = true)
    (hwrite : a.write = .failed taken n) :
    a.outcome so = ((so.take taken).take (n + a.close), mcDrvErrOutOfResources) := by
  unfold FileAnswers.outcome
  rw [if_neg (by simp [h]), hwrite]
  dsimp only
  rw [if_pos (Stream.write_failed_error so taken n), Stream.out_write_failed]

theorem outcome_done {n : Nat} (h : a.seeks = true) (hwrite : a.write = .done n) :
    a.outcome so = (so.take (n + a.flush + a.close), mcDrvOk) := by
  unfold FileAnswers.outcome
  rw [if_neg (by simp [h]), hwrite]
  dsimp only
  rw [if_neg (by simp [Stream.opened]), Stream.drain_drain, Stream.out_write_done, Nat.add_assoc]

/-- A file that was opened, and what is known of it afterwards. -/
theorem storeContainer_opened (so : List UInt8) (hopens : a.opens = true)
    (hplace : s.writeFile path [] ≠ none) :
    (storeContainer a s path so).1 = (a.outcome so).2 ∧
      ∀ q, (storeContainer a s path so).2.get? q =
        if q = path then some (.file (a.outcome so).1) else s.get? q := by
  unfold storeContainer
  rw [if_neg (by simp [hopens])]
  cases hwrite : s.writeFile path (a.outcome so).1 with
  | none => exact absurd ((writeFile_eq_none_iff _ _).mp hwrite) hplace
  | some t => exact ⟨rfl, fun q => FileSystem.get?_writeFile hwrite q⟩

/-- A store leaves the other files alone. -/
theorem storeContainer_frame {q : List String} (hq : q ≠ path) :
    (storeContainer a s path so).2.get? q = s.get? q := by
  unfold storeContainer
  split_ifs
  · rfl
  · cases hwrite : s.writeFile path (a.outcome so).1 with
    | none => rfl
    | some t => exact (FileSystem.get?_writeFile hwrite q).trans (if_neg hq)

theorem storesOrKeeps_unchanged {e : McResult} (he : e ≠ mcDrvOk) :
    StoresOrKeeps s path so (e, s) := ⟨fun h => absurd h he, fun _ => rfl⟩

/-- What is harmless about a file that has been opened, by how far the store gets. -/
theorem harmless_seekFails_iff (hopens : a.opens = true) (hplace : s.writeFile path [] ≠ none)
    (hseek : a.seeks = false) : a.Harmless s path so ↔ s.get? path = some (.file []) := by
  constructor
  · rintro (h | h | ⟨_, h, -, -⟩ | ⟨-, hold⟩ | ⟨_, _, h, -, -⟩)
    · simp [hopens] at h
    · exact absurd h hplace
    · simp [hseek] at h
    · exact hold
    · simp [hseek] at h
  · exact .seekFails hseek

theorem harmless_done_iff {n : Nat} (hopens : a.opens = true)
    (hplace : s.writeFile path [] ≠ none) (hseek : a.seeks = true) (hwrite : a.write = .done n) :
    a.Harmless s path so ↔ so.length ≤ n + a.flush + a.close := by
  constructor
  · rintro (h | h | ⟨m, -, hm, hout⟩ | ⟨h, -⟩ | ⟨_, _, -, hm, -⟩)
    · simp [hopens] at h
    · exact absurd h hplace
    · cases hwrite.symm.trans hm
      exact hout
    · simp [hseek] at h
    · cases hwrite.symm.trans hm
  · exact .stored n hseek hwrite

theorem harmless_writeFails_iff {taken n : Nat} (hopens : a.opens = true)
    (hplace : s.writeFile path [] ≠ none) (hseek : a.seeks = true)
    (hwrite : a.write = .failed taken n) :
    a.Harmless s path so ↔
      s.get? path = some (.file ((so.take taken).take (n + a.close))) := by
  constructor
  · rintro (h | h | ⟨_, -, hm, -⟩ | ⟨h, -⟩ | ⟨_, _, -, hm, hold⟩)
    · simp [hopens] at h
    · exact absurd h hplace
    · cases hwrite.symm.trans hm
    · simp [hseek] at h
    · cases hwrite.symm.trans hm
      exact hold
  · exact .writeFails taken n hseek hwrite

/-- **When a store can be trusted.** -/
theorem storeContainer_iff :
    StoresOrKeeps s path so (storeContainer a s path so) ↔ a.Harmless s path so := by
  have hresources : mcDrvErrOutOfResources ≠ mcDrvOk := by decide
  have hparameter : mcDrvErrInvalidParameter ≠ mcDrvOk := by decide
  cases hopens : a.opens with
  | false =>
    refine ⟨fun _ => .refused hopens, fun _ => ?_⟩
    rw [storeContainer, if_pos hopens]
    exact storesOrKeeps_unchanged (by decide)
  | true =>
    by_cases hplace : s.writeFile path [] = none
    · refine ⟨fun _ => .noPlace hplace, fun _ => ?_⟩
      unfold storeContainer
      rw [if_neg (by simp [hopens]), (writeFile_eq_none_iff _ _).mpr hplace]
      exact storesOrKeeps_unchanged (by decide)
    · obtain ⟨hresult, hfiles⟩ := storeContainer_opened so hopens hplace
      have hfile := (hfiles path).trans (if_pos rfl)
      unfold StoresOrKeeps
      rw [hresult, hfile]
      cases hseek : a.seeks with
      | false =>
        rw [outcome_seekFails hseek, harmless_seekFails_iff hopens hplace hseek]
        exact ⟨fun h => (h.2 hparameter).symm, fun hold => ⟨fun h => absurd h hparameter,
          fun _ => hold.symm⟩⟩
      | true =>
        cases hwrite : a.write with
        | done n =>
          rw [outcome_done hseek hwrite, harmless_done_iff hopens hplace hseek hwrite]
          constructor
          · intro h
            have hall : so.take (n + a.flush + a.close) = so := by
              have hheld := h.1 rfl
              simpa using hheld
            exact List.take_eq_self_iff so |>.mp hall
          · intro hout
            refine ⟨fun _ => ?_, fun h => absurd rfl h⟩
            rw [List.take_of_length_le hout]
        | failed taken n =>
          rw [outcome_writeFails hseek hwrite, harmless_writeFails_iff hopens hplace hseek hwrite]
          exact ⟨fun h => (h.2 hresources).symm, fun hold => ⟨fun h => absurd h hresources,
            fun _ => hold.symm⟩⟩

/-- Without a failure, a store is the one of a whole file. -/
theorem storeContainer_flawless {n : Nat} (hopens : a.opens = true) (hseek : a.seeks = true)
    (hwrite : a.write = .done n) (hout : so.length ≤ n + a.flush + a.close) :
    storeContainer a s path so = storeFile s path so := by
  have houtcome : a.outcome so = (so, mcDrvOk) := by
    rw [outcome_done hseek hwrite, List.take_of_length_le hout]
  unfold storeContainer storeFile
  cases hplace : s.writeFile path so with
  | none => simp [hopens, houtcome, hplace]
  | some t => simp [hopens, houtcome, hplace]

/-- The one fault that the answers amount to. -/
def FileAnswers.fault (a : FileAnswers) : Option FileFault :=
  if a.opens = false then some .fopen
  else if a.seeks = false then some .fseek
  else
    match a.write with
    | .failed taken n => some (.fwrite (min taken (n + a.close)))
    | .done n => some (.fflush (n + a.flush + a.close))

/-- What fails on the way amounts to one fault of `storeFileFaulty`. -/
theorem storeContainer_eq_storeFileFaulty :
    storeContainer a s path so = storeFileFaulty a.fault s path so := by
  unfold storeContainer storeFileFaulty FileAnswers.fault
  cases hopens : a.opens with
  | false => rfl
  | true =>
    cases hseek : a.seeks with
    | false =>
      rw [outcome_seekFails hseek]
      rfl
    | true =>
      cases hwrite : a.write with
      | failed taken n =>
        rw [outcome_writeFails hseek hwrite, List.take_take, Nat.min_comm]
        rfl
      | done n =>
        rw [outcome_done hseek hwrite]
        rfl

end Store

/-! ## The four stores -/

/-- A store that checks its arguments first. -/
theorem checked_iff {a : FileAnswers} {s : Fs} {path : List String} {so : List UInt8} {refused : Prop}
    [Decidable refused] :
    StoresOrKeeps s path so
        (if refused then (mcDrvErrInvalidParameter, s) else storeContainer a s path so) ↔
      refused ∨ a.Harmless s path so := by
  split_ifs with h
  · exact ⟨fun _ => .inl h, fun _ => storesOrKeeps_unchanged (by decide)⟩
  · rw [storeContainer_iff]
    exact ⟨.inr, fun hor => hor.resolve_left h⟩

/-- **When the stores of containers can be trusted.** -/
theorem stores_iff (a : FileAnswers) (s : Fs) (so : List UInt8) :
    (∀ authTokenPath, StoresOrKeeps s (getAuthTokenFilePath authTokenPath s) so
        (mcRegistryStoreAuthToken a authTokenPath s so) ↔
      so.length > 3 * maxSoContSize ∨ a.Harmless s (getAuthTokenFilePath authTokenPath s) so) ∧
    (StoresOrKeeps s getRootContFilePath so (mcRegistryStoreRoot a s so) ↔
      so.length > 3 * maxSoContSize ∨ a.Harmless s getRootContFilePath so) ∧
    (∀ spid, StoresOrKeeps s (getSpContFilePath spid) so (mcRegistryStoreSp a s spid so) ↔
      (spid = 0 ∨ so.length > 3 * maxSoContSize) ∨ a.Harmless s (getSpContFilePath spid) so) ∧
    ∀ uuid spid, StoresOrKeeps s (getTlContFilePath uuid spid) so
        (mcRegistryStoreTrustletCon a s uuid spid so) ↔
      so.length > 3 * maxSoContSize ∨ a.Harmless s (getTlContFilePath uuid spid) so :=
  ⟨fun _ => checked_iff, checked_iff, fun _ => checked_iff, fun _ _ => checked_iff⟩

/-- A registry with a root container. -/
def rootRegistry : Fs := (storeFile freshRegistry getRootContFilePath [7, 7]).2

/-- The byte waits in the buffer, and neither the flush nor the close gets it out; or the seek fails,
in a file that has been emptied. -/
theorem not_storesOrKeeps :
    mcRegistryStoreRoot ⟨true, true, .done 0, 0, 0⟩ rootRegistry [1] =
        (mcDrvOk, (storeFile rootRegistry getRootContFilePath []).2) ∧
      ¬ StoresOrKeeps rootRegistry getRootContFilePath [1]
        (mcRegistryStoreRoot ⟨true, true, .done 0, 0, 0⟩ rootRegistry [1]) ∧
      ¬ StoresOrKeeps rootRegistry getRootContFilePath [1]
        (mcRegistryStoreRoot ⟨true, false, .done 0, 0, 0⟩ rootRegistry [1]) := by
  refine ⟨by rfl, fun h => ?_, fun h => ?_⟩
  · exact absurd (h.1 (by decide)) (by decide)
  · exact absurd (h.2 (by decide)) (by decide)

end McDaemon.Registry.Buffered
