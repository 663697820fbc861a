/-
# McDaemon.Registry.AuthToken — the authentication token.

The token is one file like the containers, but the directory that it is in can be given in the
daemon's environment, and its size has to be right: a read fills the caller's structure or fails.
-/
import McDaemon.Registry.Storage

namespace McDaemon.Registry

open McDaemon.Lib

/-- `sizeof(mcSoAuthTokenCont_t)`. -/
def sizeofAuthTokenCont : Nat := 152

/-- `AUTH_TOKEN_FILE_NAME`. -/
def authTokenFileName : String := "00000000.authtokcont"

/-- The file of the token.  `authTokenPath` is what `MC_AUTH_TOKEN_PATH` says, if it is set; it
counts if it is a directory. -/
def getAuthTokenFilePath (authTokenPath : Option (List String)) (s : Fs) : List String :=
  match authTokenPath with
  | none => inRegistry authTokenFileName
  | some path => if s.isDir path then path ++ [authTokenFileName] else inRegistry authTokenFileName

def mcRegistryStoreAuthToken (authTokenPath : Option (List String)) (s : Fs) (so : List UInt8) :
    McResult × Fs :=
  if so.length > 3 * maxSoContSize then (mcDrvErrInvalidParameter, s)
  else storeFile s (getAuthTokenFilePath authTokenPath s) so

/-- The size of the file is kept in 32 bits. -/
def mcRegistryReadAuthToken (authTokenPath : Option (List String)) (s : Fs) :
    Except McResult (List UInt8) :=
  match s.get? (getAuthTokenFilePath authTokenPath s) with
  | none => .error mcDrvErrInvalidDeviceFile
  | some .dir => .error mcDrvErrOutOfResources
  | some (.file content) =>
    if content.length % 2 ^ 32 ≠ sizeofAuthTokenCont then .error mcDrvErrOutOfResources
    else .ok (content.take sizeofAuthTokenCont)

/-- A file whose size is the token's. -/
def HoldsToken (authTokenPath : Option (List String)) (s : Fs) : Prop :=
  ∃ content, s.get? (getAuthTokenFilePath authTokenPath s) = some (.file content) ∧
    content.length % 2 ^ 32 = sizeofAuthTokenCont

/-- A read fills the structure exactly if there is a token. -/
theorem mcRegistryReadAuthToken_ok_iff {authTokenPath : Option (List String)} {s : Fs} :
    (∃ bs, mcRegistryReadAuthToken authTokenPath s = .ok bs) ↔ HoldsToken authTokenPath s := by
  unfold mcRegistryReadAuthToken HoldsToken
  cases s.get? (getAuthTokenFilePath authTokenPath s) with
  | none => simp
  | some n =>
    cases n with
    | dir => simp
    | file content =>
      dsimp only
      split_ifs with h
      · constructor
        · rintro ⟨bs, hbs⟩
          cases hbs
        · rintro ⟨content', heq, hsize⟩
          cases heq
          exact absurd hsize h
      · constructor
        · intro _
          exact ⟨content, rfl, not_not.mp h⟩
        · intro _
          exact ⟨content.take sizeofAuthTokenCont, rfl⟩

/-- A read of the token that fails is never answered like a refused one. -/
theorem mcRegistryReadAuthToken_error {authTokenPath : Option (List String)} {s : Fs}
    {r : McResult} (h : mcRegistryReadAuthToken authTokenPath s = .error r) :
    r ≠ mcDrvErrInvalidOperation := by
  unfold mcRegistryReadAuthToken at h
  split at h
  · cases h
    decide
  · cases h
    decide
  · split_ifs at h
    cases h
    decide

end McDaemon.Registry
