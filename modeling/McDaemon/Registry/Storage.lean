/-
# McDaemon.Registry.Storage — storing and reading the containers.

Each container is one file.  The store operations take any content up to three container sizes;
the read operations give as much of the file as the caller has room for, and no content is an
error.
-/
import Mathlib.Tactic.ByContra
import McDaemon.Registry.Container

namespace McDaemon.Registry

open McDaemon.Lib

/-! ## Storing -/

/-- Write a file of the registry, which fails when it cannot be opened. -/
def storeFile (s : Fs) (path : List String) (so : List UInt8) : McResult × Fs :=
  match s.writeFile path so with
  | none => (mcDrvErrInvalidDeviceFile, s)
  | some t => (mcDrvOk, t)

def mcRegistryStoreRoot (s : Fs) (so : List UInt8) : McResult × Fs :=
  if so.length > 3 * maxSoContSize then (mcDrvErrInvalidParameter, s)
  else storeFile s getRootContFilePath so

def mcRegistryStoreSp (s : Fs) (spid : Spid) (so : List UInt8) : McResult × Fs :=
  if spid = 0 ∨ so.length > 3 * maxSoContSize then (mcDrvErrInvalidParameter, s)
  else storeFile s (getSpContFilePath spid) so

def mcRegistryStoreTrustletCon (s : Fs) (uuid : Uuid) (spid : Spid) (so : List UInt8) :
    McResult × Fs :=
  if so.length > 3 * maxSoContSize then (mcDrvErrInvalidParameter, s)
  else storeFile s (getTlContFilePath uuid spid) so

/-- What is in the registry after a container has been stored. -/
theorem get?_storeFile {s t : Fs} {path : List String} {so : List UInt8}
    (h : storeFile s path so = (mcDrvOk, t)) (q : List String) :
    t.get? q = if q = path then some (.file so) else s.get? q := by
  unfold storeFile at h
  split at h
  · cases h
  · next u hu =>
    cases h
    exact FileSystem.get?_writeFile hu q

/-- A file of the registry is stored, unless a directory is in its place. -/
theorem storeFile_inRegistry {s : Fs} {name : String} {so : List UInt8}
    (hdata : s.get? mcRegistryDataPath = some .dir)
    (hname : s.isDir (inRegistry name) = false) :
    ∃ t, storeFile s (inRegistry name) so = (mcDrvOk, t) := by
  have hplace : s.isDir (inRegistry name) = false ∧ inRegistry name ≠ [] ∧
      s.isDir (inRegistry name).dropLast := by
    refine ⟨hname, by simp [inRegistry], ?_⟩
    rw [inRegistry, List.dropLast_concat]
    simp [FileSystem.isDir, hdata]
  rw [storeFile, FileSystem.writeFile, if_pos hplace]
  exact ⟨_, rfl⟩

/-! ## Reading -/

/-- Read up to `size` bytes of a file of the registry.  A directory can be opened but not read. -/
def readFile (s : Fs) (path : List String) (size : Nat) : Except McResult (List UInt8) :=
  match s.get? path with
  | none => .error mcDrvErrInvalidDeviceFile
  | some .dir => .error mcDrvErrInvalidParameter
  | some (.file content) =>
    if content.take size = [] then .error mcDrvErrInvalidDeviceFile else .ok (content.take size)

def mcRegistryReadRoot (s : Fs) (size : Nat) : Except McResult (List UInt8) :=
  readFile s getRootContFilePath size

def mcRegistryReadSp (s : Fs) (spid : Spid) (size : Nat) : Except McResult (List UInt8) :=
  if spid = 0 then .error mcDrvErrInvalidParameter else readFile s (getSpContFilePath spid) size

def mcRegistryReadTrustletCon (s : Fs) (uuid : Uuid) (spid : Spid) (size : Nat) :
    Except McResult (List UInt8) :=
  readFile s (getTlContFilePath uuid spid) size

/-! ## What a read gives -/

theorem readFile_eq_ok {s : Fs} {path : List String} {size : Nat} {bs : List UInt8} :
    readFile s path size = .ok bs ↔
      ∃ content, s.get? path = some (.file content) ∧ bs = content.take size ∧ bs ≠ [] := by
  unfold readFile
  cases s.get? path with
  | none => simp
  | some n =>
    cases n with
    | dir => simp
    | file content =>
      dsimp only
      split_ifs with h
      · simp [h]
      · constructor
        · intro heq
          cases heq
          exact ⟨content, rfl, rfl, h⟩
        · rintro ⟨content', heq, rfl, -⟩
          cases heq
          rfl

/-- What a read gives fits the room that the caller has. -/
theorem length_readFile {s : Fs} {path : List String} {size : Nat} {bs : List UInt8}
    (h : readFile s path size = .ok bs) : 0 < bs.length ∧ bs.length ≤ size := by
  obtain ⟨content, -, rfl, hne⟩ := readFile_eq_ok.mp h
  exact ⟨List.length_pos_iff.mpr hne, List.length_take_le ..⟩

/-- A read depends on the file alone. -/
theorem readFile_congr {s t : Fs} {path : List String} (h : t.get? path = s.get? path)
    (size : Nat) : readFile t path size = readFile s path size := by
  unfold readFile
  rw [h]

theorem readFile_error {s : Fs} {path : List String} {size : Nat} {r : McResult}
    (h : readFile s path size = .error r) : r ≠ mcDrvOk := by
  unfold readFile at h
  split at h
  · cases h
    decide
  · cases h
    decide
  · split_ifs at h
    cases h
    decide

/-- A read of a file fails only when there is nothing in it, or no room. -/
theorem take_of_readFile_error {s : Fs} {path : List String} {size : Nat} {r : McResult}
    {content : List UInt8} (h : readFile s path size = .error r)
    (hpath : s.get? path = some (.file content)) : content.take size = [] := by
  by_contra hne
  have hread : readFile s path size = .ok (content.take size) :=
    readFile_eq_ok.mpr ⟨content, hpath, rfl, hne⟩
  rw [h] at hread
  cases hread

theorem mcRegistryReadSp_eq_ok {s : Fs} {spid : Spid} {size : Nat} {bs : List UInt8} :
    mcRegistryReadSp s spid size = .ok bs ↔
      spid ≠ 0 ∧ readFile s (getSpContFilePath spid) size = .ok bs := by
  unfold mcRegistryReadSp
  split_ifs with hspid
  · simp [hspid]
  · simp [hspid]

theorem mcRegistryReadSp_error {s : Fs} {spid : Spid} {size : Nat} {r : McResult}
    (h : mcRegistryReadSp s spid size = .error r) : r ≠ mcDrvOk := by
  unfold mcRegistryReadSp at h
  split_ifs at h
  · cases h
    decide
  · exact readFile_error h

end McDaemon.Registry
