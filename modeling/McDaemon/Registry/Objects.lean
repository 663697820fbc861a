/-
# McDaemon.Registry.Objects — what the registry keeps, and where.

Every object is a file whose name ends in an extension that tells its kind, and whose digits tell
its key.  The names have no other parts, so different objects have different files, and the
only directories among them are those of the trustlets' data.
-/
import McDaemon.Registry.AuthToken

namespace McDaemon.Registry

open McDaemon.Lib

/-- `mcPid_t`. -/
abbrev Pid := UInt32

/-- `getTlDataFilePath`. -/
def getTlDataFilePath (uuid : Uuid) (pid : Pid) : List String :=
  getTlDataPath uuid ++ [uint32ToString pid ++ ".datacont"]

/-! ## Objects -/

inductive ObjectKind where
  | authToken
  | root
  | sp
  | tlCont
  | tlData
  | tlBin
  | taBin
  | taSpid
deriving DecidableEq

/-- The extension that tells what an object is, behind its dot. -/
def ObjectKind.extension : ObjectKind → String
  | authToken => "authtokcont"
  | root => "rootcont"
  | sp => "spcont"
  | tlCont => "tlcont"
  | tlData => "datacont"
  | tlBin => "tlbin"
  | taBin => "tabin"
  | taSpid => "spid"

/-- The objects of the registry, by what identifies them. -/
inductive RegistryObject where
  | authToken
  | root
  | sp (spid : Spid)
  | tlCont (uuid : Uuid) (spid : Spid)
  | tlData (uuid : Uuid) (pid : Pid)
  | tlBin (uuid : Uuid)
  | taBin (uuid : Uuid)
  | taSpid (uuid : Uuid)
deriving DecidableEq

namespace RegistryObject

/-- The file of an object in the writable registry. -/
def path : RegistryObject → List String
  | authToken => inRegistry authTokenFileName
  | root => getRootContFilePath
  | sp spid => getSpContFilePath spid
  | tlCont uuid spid => getTlContFilePath uuid spid
  | tlData uuid pid => getTlDataFilePath uuid pid
  | tlBin uuid => getTlBinFilePath uuid
  | taBin uuid => getTABinFilePath uuid
  | taSpid uuid => getTASpidFilePath uuid

/-- The name of an object's file. -/
def fileName : RegistryObject → String
  | authToken => authTokenFileName
  | root => rootContName
  | sp spid => spContName spid
  | tlCont uuid spid => tlContName uuid spid
  | tlData _ pid => uint32ToString pid ++ ".datacont"
  | tlBin uuid => byteArrayToString uuid.toList ++ ".tlbin"
  | taBin uuid => byteArrayToString uuid.toList ++ ".tabin"
  | taSpid uuid => byteArrayToString uuid.toList ++ ".spid"

def kind : RegistryObject → ObjectKind
  | authToken => .authToken
  | root => .root
  | sp _ => .sp
  | tlCont _ _ => .tlCont
  | tlData _ _ => .tlData
  | tlBin _ => .tlBin
  | taBin _ => .taBin
  | taSpid _ => .taSpid

/-- The digits in front of the extension. -/
def digits : RegistryObject → List Char
  | authToken => "00000000".toList
  | root => "00000000".toList
  | sp spid => (uint32ToString spid).toList
  | tlCont uuid spid => (byteArrayToString uuid.toList).toList ++
      '.' :: (uint32ToString spid).toList
  | tlData _ pid => (uint32ToString pid).toList
  | tlBin uuid => (byteArrayToString uuid.toList).toList
  | taBin uuid => (byteArrayToString uuid.toList).toList
  | taSpid uuid => (byteArrayToString uuid.toList).toList

/-- The directory of an object's file. -/
def directory : RegistryObject → List String
  | tlData uuid _ => getTlDataPath uuid
  | _ => mcRegistryDataPath

/-! ## Names -/

/-- The last dot of a name splits it. -/
theorem append_dot_inj {body body' ext ext' : List Char} (hext : '.' ∉ ext) (hext' : '.' ∉ ext')
    (h : body ++ '.' :: ext = body' ++ '.' :: ext') : body = body' ∧ ext = ext' := by
  rcases List.append_eq_append_iff.mp h with ⟨c, rfl, hc⟩ | ⟨c, rfl, hc⟩
  · cases c with
    | nil => exact ⟨(List.append_nil _).symm, (List.cons.inj hc).2⟩
    | cons x c => exact absurd ((List.cons.inj hc).2 ▸ by simp) hext
  · cases c with
    | nil => exact ⟨List.append_nil _, ((List.cons.inj hc).2).symm⟩
    | cons x c => exact absurd ((List.cons.inj hc).2 ▸ by simp) hext'

theorem dot_notMem_extension (k : ObjectKind) : '.' ∉ k.extension.toList := by
  cases k with
  | authToken | root | sp | tlCont | tlData | tlBin | taBin | taSpid => decide

theorem extension_inj {k k' : ObjectKind} (h : k.extension.toList = k'.extension.toList) :
    k = k' := by
  revert h
  cases k with
  | authToken | root | sp | tlCont | tlData | tlBin | taBin | taSpid =>
    cases k' with
    | authToken | root | sp | tlCont | tlData | tlBin | taBin | taSpid => decide

theorem path_eq (o : RegistryObject) : o.path = o.directory ++ [o.fileName] := by
  cases o with
  | authToken | root | sp | tlCont | tlData | tlBin | taBin | taSpid => rfl

theorem toList_append_dotted {base dotted : String} (ext : String)
    (h : dotted.toList = '.' :: ext.toList) :
    (base ++ dotted).toList = base.toList ++ '.' :: ext.toList := by
  rw [String.toList_append, h]

/-- A file's name is its digits, a dot and its extension. -/
theorem toList_fileName (o : RegistryObject) :
    o.fileName.toList = o.digits ++ '.' :: o.kind.extension.toList := by
  cases o with
  | authToken | root => decide
  | sp spid => exact toList_append_dotted ObjectKind.sp.extension (by decide)
  | tlCont uuid spid =>
    show (byteArrayToString uuid.toList ++ "." ++ uint32ToString spid ++ ".tlcont").toList = _
    have hdot : ".".toList = ['.'] := by decide
    rw [toList_append_dotted ObjectKind.tlCont.extension (by decide), String.toList_append,
      String.toList_append, hdot, List.append_assoc _ ['.']]
    rfl
  | tlData uuid pid => exact toList_append_dotted ObjectKind.tlData.extension (by decide)
  | tlBin uuid => exact toList_append_dotted ObjectKind.tlBin.extension (by decide)
  | taBin uuid => exact toList_append_dotted ObjectKind.taBin.extension (by decide)
  | taSpid uuid => exact toList_append_dotted ObjectKind.taSpid.extension (by decide)

/-! ## Objects apart -/

/-- The extension tells the kind, the digits the rest of the key. -/
theorem eq_of_fileName {a b : RegistryObject} (hdir : a.directory = b.directory)
    (h : a.fileName = b.fileName) : a = b := by
  have hlist : a.digits ++ '.' :: a.kind.extension.toList =
      b.digits ++ '.' :: b.kind.extension.toList := by
    rw [← toList_fileName, ← toList_fileName, h]
  obtain ⟨hdigits, hext⟩ := append_dot_inj (dot_notMem_extension _) (dot_notMem_extension _) hlist
  have hkind := extension_inj hext
  cases a with
  | authToken =>
    cases b with
    | authToken => rfl
    | _ => cases hkind
  | root =>
    cases b with
    | root => rfl
    | _ => cases hkind
  | sp spid =>
    cases b with
    | sp spid' => exact congrArg sp (uint32ToString_inj hdigits)
    | _ => cases hkind
  | tlCont uuid spid =>
    cases b with
    | tlCont uuid' spid' =>
      have hlen : (byteArrayToString uuid.toList).toList.length =
          (byteArrayToString uuid'.toList).toList.length := by simp
      obtain ⟨huuid, hspid⟩ := List.append_inj hdigits hlen
      rw [uuidToString_inj huuid, uint32ToString_inj (List.cons.inj hspid).2]
    | _ => cases hkind
  | tlData uuid pid =>
    cases b with
    | tlData uuid' pid' =>
      rw [uuidToString_inj (congrArg String.toList (inRegistry_inj hdir)),
        uint32ToString_inj hdigits]
    | _ => cases hkind
  | tlBin uuid =>
    cases b with
    | tlBin uuid' => exact congrArg tlBin (uuidToString_inj hdigits)
    | _ => cases hkind
  | taBin uuid =>
    cases b with
    | taBin uuid' => exact congrArg taBin (uuidToString_inj hdigits)
    | _ => cases hkind
  | taSpid uuid =>
    cases b with
    | taSpid uuid' => exact congrArg taSpid (uuidToString_inj hdigits)
    | _ => cases hkind

/-- The last name of a path is apart from the directory. -/
theorem path_injective {a b : RegistryObject} (h : a.path = b.path) : a = b := by
  rw [path_eq, path_eq] at h
  obtain ⟨hdir, hname⟩ := List.append_inj' h rfl
  exact eq_of_fileName hdir (List.cons.inj hname).1

theorem path_ne {a b : RegistryObject} (hne : a ≠ b) : a.path ≠ b.path := fun h =>
  hne (path_injective h)

/-- An object's directory is the registry, or that of a trustlet's data. -/
theorem directory_eq (o : RegistryObject) : o.directory = mcRegistryDataPath ∨
    ∃ uuid pid, o = tlData uuid pid ∧ o.directory = getTlDataPath uuid := by
  cases o with
  | tlData uuid pid => exact .inr ⟨uuid, pid, rfl, rfl⟩
  | authToken | root | sp | tlCont | tlBin | taBin | taSpid => exact .inl rfl

/-- No file has the name of a directory of data. -/
theorem path_ne_getTlDataPath (o : RegistryObject) (uuid : Uuid) : o.path ≠ getTlDataPath uuid := by
  intro h
  have hpath : o.directory ++ [o.fileName] =
      mcRegistryDataPath ++ [byteArrayToString uuid.toList] := (path_eq o).symm.trans h
  obtain ⟨-, hname⟩ := List.append_inj' hpath rfl
  have hdot : '.' ∈ (byteArrayToString uuid.toList).toList := by
    rw [← (List.cons.inj hname).1, toList_fileName]
    simp
  exact (isHexChar_byteArrayToString hdot).ne.1 rfl

/-- A file is below the registry. -/
theorem length_path (o : RegistryObject) : mcRegistryDataPath.length < o.path.length := by
  rw [path_eq, List.length_append]
  rcases directory_eq o with hdir | ⟨uuid, pid, -, hdir⟩
  · rw [hdir]
    exact Nat.lt_succ_self _
  · rw [hdir]
    exact Nat.lt_succ_of_lt (Nat.lt_succ_self _)

/-- **No file above a file.** -/
theorem not_path_prefix {a b : RegistryObject} (hne : a ≠ b) : ¬ a.path <+: b.path := by
  intro h
  rw [path_eq b, List.prefix_concat_iff, ← path_eq b] at h
  rcases h with heq | hdir
  · exact hne (path_injective heq)
  -- so it is above the other's directory, which is the registry or a directory of data
  have hlong := length_path a
  rcases directory_eq b with hdata | ⟨uuid, pid, -, hdata⟩
  · have hlen := hdir.length_le
    rw [hdata] at hlen
    omega
  · rw [hdata, getTlDataPath, inRegistry, List.prefix_concat_iff] at hdir
    rcases hdir with heq | hdir
    · exact path_ne_getTlDataPath a uuid heq
    · have hlen := hdir.length_le
      omega

/-- **Directories of data** are above the data of their trustlet, and above nothing else. -/
theorem getTlDataPath_prefix_iff {uuid : Uuid} {o : RegistryObject} :
    getTlDataPath uuid <+: o.path ↔ ∃ pid, o = tlData uuid pid := by
  constructor
  · intro h
    rw [path_eq, List.prefix_concat_iff, ← path_eq] at h
    rcases h with heq | hdir
    · exact absurd heq.symm (path_ne_getTlDataPath o uuid)
    rcases directory_eq o with hdata | ⟨uuid', pid, rfl, hdata⟩
    · have hlen := hdir.length_le
      rw [hdata] at hlen
      exact absurd hlen (Nat.not_succ_le_self _)
    · rw [hdata] at hdir
      have heq := inRegistry_inj (hdir.eq_of_length rfl)
      rw [uuidToString_inj (congrArg String.toList heq)]
      exact ⟨pid, rfl⟩
  · rintro ⟨pid, rfl⟩
    exact ⟨_, rfl⟩

end RegistryObject

/-- A fresh registry has nothing but directories that lead to it. -/
theorem get?_freshRegistry {p : List String} (hp : 3 < p.length) : freshRegistry.get? p = none := by
  have hlong : ∀ q ∈ freshRegistry.nodes.keys, q.length ≤ 3 := by decide
  by_contra hne
  have hmem : p ∈ freshRegistry.nodes.keys := by
    rw [← AList.mem_keys, ← AList.lookup_isSome]
    exact Option.isSome_iff_ne_none.mpr hne
  have hle := hlong p hmem
  omega

end McDaemon.Registry
