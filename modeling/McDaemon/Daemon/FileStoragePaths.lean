/-
# McDaemon.Daemon.FileStoragePaths — the arrays that the paths of objects are put together in.

The size of each array is a sum in the function that declares it, the bounds of the copies are the
lengths of what is copied.  The directory fits its array, and the path of the object would too; the
name of the object is ended one byte behind its array, and the array for the path of the new file
leaves the separators out.  The payload is as long as the request says.
-/
import McDaemon.Lib.CFormats
import McDaemon.Daemon.FileStorageDelete

namespace McDaemon.Daemon.Fsd.Arrays

open McDaemon.Lib.CStrings McDaemon.Registry

/-! ## Building the paths -/

def teeUuidStringSize : Nat := 32
def filenameSize : Nat := 20
def dciBuffSize : Nat := 1000 * 1024

/-- `NEW_EXT` -/
def newExt : List UInt8 := ascii ".new"

def slash : List UInt8 := ascii "/"

/-- `snprintf` of byte after byte; the bound is `2 + sizeof("\0")`. -/
def hexLoop (tmp : CArray) (i : Nat) : List UInt8 → Except OutOfBounds CArray
  | [] => .ok tmp
  | b :: bs => do
    let tmp ← snprintf tmp (i * 2) 4 (hexText [b])
    hexLoop tmp (i + 1) bs

/-- `FSD_HexFileName`.  The zero behind the loop is one byte too far. -/
def hexFileName (fn : List UInt8) (fileName : CArray) : Except OutOfBounds CArray := do
  let tmp ← hexLoop (cleared (fn.length * 2 + 1)) 0 fn
  let tmp ← store tmp (fn.length * 2 + 1) [0]
  strncpy fileName 0 tmp (fn.length * 2 + 1)

/-- `FSD_CreateTaDirName` -/
def createTaDirName (uuid : List UInt8) (dirName : CArray) : Except OutOfBounds CArray := do
  let tmp ← hexLoop (cleared (uuid.length * 2 + 1)) 0 uuid
  strncpy dirName 0 tmp (uuid.length * 2 + 1)

/-- The size of `TAdirpath`. -/
def taDirPathSize (storage : CString) : Nat := storage.bytes.length + 1 + teeUuidStringSize + 1

/-- The size of `Filepath`. -/
def filePathSize (storage : CString) : Nat :=
  storage.bytes.length + 1 + teeUuidStringSize + 1 + 2 * filenameSize + 1

/-- The size of `Filepath_new`. -/
def filePathNewSize (storage : CString) : Nat :=
  storage.bytes.length + teeUuidStringSize + 2 * filenameSize + newExt.length + 1

/-- `FSD_CreateTaDirPath` -/
def createTaDirPath (storage : CString) (uuid : Uuid) (taDirPath : CArray) :
    Except OutOfBounds CArray := do
  let taDirName ← createTaDirName uuid.toList (cleared (teeUuidStringSize + 1))
  let taDirPath ← strncpy taDirPath 0 (literal storage.bytes) storage.bytes.length
  let taDirPath ← strncat taDirPath (literal slash) slash.length
  strncat taDirPath taDirName (← strlen taDirName)

/-- `FSD_CreateFilePath` behind the name. -/
def appendFileName (filePath taDirPath fileName : CArray) : Except OutOfBounds CArray := do
  let filePath ← strncpy filePath 0 taDirPath (taDirPath.length - 1)
  let filePath ← strncat filePath (literal slash) slash.length
  strncat filePath fileName (← strlen fileName)

/-- `FSD_CreateFilePath` -/
def createFilePath (filename : FileName) (filePath taDirPath : CArray) :
    Except OutOfBounds CArray := do
  let fileName ← hexFileName filename.toList (cleared (2 * filenameSize + 1))
  appendFileName filePath taDirPath fileName

/-- The path of the new file, from `Filepath`. -/
def createFilePathNew (filePathNew filePath : CArray) : Except OutOfBounds CArray := do
  let filePathNew ← strncpy filePathNew 0 filePath (filePath.length - 1)
  strncat filePathNew (literal newExt) newExt.length

/-! ## Serving a request -/

/-- What is read of the request, besides the payload. -/
structure Request where
  type : UInt8
  flags : UInt16
  payloadLen : UInt32
  uuid : Uuid
  filename : FileName
deriving DecidableEq, Repr

/-- What the calls for files come to: the bytes of the object, if it can be opened. -/
structure FileCalls where
  mkdir : Option Errno
  createExclusive : Bool
  object : Option Nat
  openNew : Bool
deriving DecidableEq, Repr

/-- `payload` in `dciMessage_t`: the longer of two headers, the fields of the request, and the two
arrays in it. -/
def payloadOffset : Nat := 12 + (12 + 16 + filenameSize)

/-- The first `n` bytes of the payload are accessed. -/
def accessPayload (n : Nat) : Except OutOfBounds Unit :=
  if payloadOffset + n ≤ dciBuffSize then .ok () else .error ⟨dciBuffSize, dciBuffSize⟩

/-- `FSD_LookFile` and `FSD_ReadFile`. -/
def readObject (storage : CString) (r : Request) (c : FileCalls) : Except OutOfBounds Unit := do
  let taDirPath ← createTaDirPath storage r.uuid (cleared (taDirPathSize storage))
  let _filePath ← createFilePath r.filename (cleared (filePathSize storage)) taDirPath
  match c.object with
  | none => .ok ()
  | some size => accessPayload (min size r.payloadLen.toNat)

/-- `FSD_WriteFile` -/
def writeFile (storage : CString) (r : Request) (c : FileCalls) : Except OutOfBounds Unit := do
  let taDirPath ← createTaDirPath storage r.uuid (cleared (taDirPathSize storage))
  if c.mkdir ≠ none ∧ c.mkdir ≠ some .eexist then .ok ()
  else
    let filePath ← createFilePath r.filename (cleared (filePathSize storage)) taDirPath
    let _filePathNew ← createFilePathNew (cleared (filePathNewSize storage)) filePath
    if r.flags = teeDataFlagExclusive ∧ c.createExclusive = false then .ok ()
    else if c.openNew = false then .ok ()
    else accessPayload r.payloadLen.toNat

/-- `FSD_DeleteFile` -/
def deleteFile (storage : CString) (r : Request) : Except OutOfBounds Unit := do
  let taDirPath ← createTaDirPath storage r.uuid (cleared (taDirPathSize storage))
  let _filePath ← createFilePath r.filename (cleared (filePathSize storage)) taDirPath
  .ok ()

/-- `FSD_ExecuteCommand` -/
def executeCommand (storage : CString) (r : Request) (c : FileCalls) : Except OutOfBounds Unit :=
  if r.type = sthMessageTypeLook then readObject storage r c
  else if r.type = sthMessageTypeRead then readObject storage r c
  else if r.type = sthMessageTypeWrite then writeFile storage r c
  else if r.type = sthMessageTypeDelete then deleteFile storage r
  else .ok ()

/-- Every access is inside its array. -/
def StaysInside (storage : CString) (r : Request) (c : FileCalls) : Prop :=
  executeCommand storage r c = .ok ()

/-! ## Names in hexadecimal -/

/-- The same text as in the names of files. -/
theorem hexText_eq_ascii (bytes : List UInt8) : hexText bytes = ascii (byteArrayToString bytes) := by
  have hdigit : ∀ n < 16,
      Lib.CStrings.hexDigit n = UInt8.ofNat (Registry.hexDigit n).toNat := by decide
  rw [ascii, byteArrayToString, String.toList_ofList, List.map_flatMap, hexText]
  refine congrArg (List.flatMap · bytes) (funext fun b => ?_)
  have hb := b.toNat_lt
  rw [hdigit _ (by omega), hdigit _ (by omega)]
  rfl

/-- The loop appends two digits for a byte, as long as there is room for a zero. -/
theorem hexLoop_padded {s : List UInt8} {n i : Nat} (hi : s.length = i * 2) {bytes : List UInt8}
    (h : s.length + 2 * bytes.length < n) :
    hexLoop (padded s n) i bytes = .ok (padded (s ++ hexText bytes) n) := by
  induction bytes generalizing s i with
  | nil => rw [hexLoop, show hexText [] = [] from rfl, List.append_nil]
  | cons b bs ih =>
    have htwo : (hexText [b]).length = 2 := length_hexText [b]
    rw [List.length_cons] at h
    have hdigits : snprintf (padded s n) (i * 2) 4 (hexText [b]) =
        .ok (padded (s ++ hexText [b]) n) := by
      rw [← hi]
      exact snprintf_padded (by omega) (by omega)
    have hlength : (s ++ hexText [b]).length = (i + 1) * 2 := by
      rw [List.length_append, htwo, hi, Nat.succ_mul]
    rw [hexLoop, hdigits, ok_bind, ih hlength (by omega), List.append_assoc, ← hexText_append,
      List.singleton_append]

theorem hexLoop_cleared (bytes : List UInt8) :
    hexLoop (cleared (bytes.length * 2 + 1)) 0 bytes =
      .ok (padded (hexText bytes) (bytes.length * 2 + 1)) := by
  have hroom : ([] : List UInt8).length + 2 * bytes.length < bytes.length * 2 + 1 := by
    rw [List.length_nil]
    omega
  exact hexLoop_padded (i := 0) rfl hroom

/-- The zero goes to the byte behind the array. -/
theorem hexFileName_error (fn : List UInt8) (fileName : CArray) :
    hexFileName fn fileName = .error ⟨fn.length * 2 + 1, fn.length * 2 + 1⟩ := by
  have hlength : (padded (hexText fn) (fn.length * 2 + 1)).length = fn.length * 2 + 1 := by
    refine length_padded ?_
    rw [length_hexText]
    omega
  have hstore : store (padded (hexText fn) (fn.length * 2 + 1)) (fn.length * 2 + 1) [0] =
      .error ⟨fn.length * 2 + 1, fn.length * 2 + 1⟩ := by
    rw [store, if_neg (by omega), hlength]
  rw [hexFileName, hexLoop_cleared, ok_bind, hstore, error_bind]

theorem createTaDirName_ok (uuid : Uuid) :
    createTaDirName uuid.toList (cleared (teeUuidStringSize + 1)) =
      .ok (padded (hexText uuid.toList) (teeUuidStringSize + 1)) := by
  have huuid : uuid.toList.length = 16 := Vector.length_toList
  have htext : (hexText uuid.toList).length = 32 := by rw [length_hexText, huuid]
  rw [createTaDirName, hexLoop_cleared, ok_bind]
  refine strncpy_padded (s := []) (nonzero_hexText _) ?_ ?_ ?_
  · omega
  · omega
  · rw [List.length_nil, huuid]
    decide

/-! ## Paths -/

theorem nonzero_slash : 0 ∉ slash := by decide

theorem nonzero_newExt : 0 ∉ newExt := by decide

/-- The path of the directory of an application. -/
def taDirText (storage : CString) (uuid : Uuid) : List UInt8 :=
  storage.bytes ++ slash ++ hexText uuid.toList

/-- The path of an object. -/
def fileText (storage : CString) (uuid : Uuid) (filename : FileName) : List UInt8 :=
  taDirText storage uuid ++ slash ++ hexText filename.toList

section Text

variable (storage : CString) (uuid : Uuid) (filename : FileName)

theorem nonzero_taDirText : 0 ∉ taDirText storage uuid :=
  nonzero_append (nonzero_append storage.nonzero nonzero_slash) (nonzero_hexText _)

theorem nonzero_fileText : 0 ∉ fileText storage uuid filename :=
  nonzero_append (nonzero_append (nonzero_taDirText storage uuid) nonzero_slash)
    (nonzero_hexText _)

theorem length_taDirText : (taDirText storage uuid).length = storage.bytes.length + 33 := by
  rw [taDirText, List.length_append, List.length_append, length_hexText, Vector.length_toList]
  rfl

theorem length_fileText :
    (fileText storage uuid filename).length = storage.bytes.length + 74 := by
  rw [fileText, List.length_append, List.length_append, length_taDirText, length_hexText,
    Vector.length_toList]
  rfl

/-- **The directory.**  `TAdirpath` is as long as the path and its zero. -/
theorem createTaDirPath_ok :
    createTaDirPath storage uuid (cleared (taDirPathSize storage)) =
      .ok (padded (taDirText storage uuid) (taDirPathSize storage)) := by
  have hsize : taDirPathSize storage = storage.bytes.length + 34 := rfl
  have hname : (hexText uuid.toList).length = 32 := by
    rw [length_hexText, Vector.length_toList]
  have hcopy : strncpy (cleared (taDirPathSize storage)) 0 (literal storage.bytes)
      storage.bytes.length = .ok (padded storage.bytes (taDirPathSize storage)) := by
    refine strncpy_padded (s := []) storage.nonzero (Nat.lt_succ_self _) (Nat.le_refl _) ?_
    rw [List.length_nil]
    omega
  have hslash : strncat (padded storage.bytes (taDirPathSize storage)) (literal slash)
      slash.length = .ok (padded (storage.bytes ++ slash) (taDirPathSize storage)) := by
    refine strncat_literal storage.nonzero nonzero_slash ?_
    rw [hsize, show slash.length = 1 from rfl]
    omega
  have hstrlen : strlen (padded (hexText uuid.toList) (teeUuidStringSize + 1)) = .ok 32 := by
    rw [strlen_padded (nonzero_hexText _) (by rw [hname]; decide), hname]
  rw [createTaDirPath, createTaDirName_ok, ok_bind, hcopy, ok_bind, hslash, ok_bind, hstrlen,
    ok_bind]
  refine strncat_padded (nonzero_append storage.nonzero nonzero_slash) (nonzero_hexText _) ?_ ?_ ?_
  · rw [hname]
    decide
  · exact Nat.le_of_eq hname
  · rw [List.length_append, hname, hsize, show slash.length = 1 from rfl]
    omega

/-- **The object.**  Given its name, `Filepath` has room for the path and its zero. -/
theorem appendFileName_ok :
    appendFileName (cleared (filePathSize storage))
        (padded (taDirText storage uuid) (taDirPathSize storage))
        (padded (hexText filename.toList) (2 * filenameSize + 1)) =
      .ok (padded (fileText storage uuid filename) (filePathSize storage)) := by
  have hdir := length_taDirText storage uuid
  have hdirSize : taDirPathSize storage = storage.bytes.length + 34 := rfl
  have hsize : filePathSize storage = storage.bytes.length + 75 := rfl
  have hname : (hexText filename.toList).length = 40 := by
    rw [length_hexText, Vector.length_toList]
  have hlength : (padded (taDirText storage uuid) (taDirPathSize storage)).length =
      taDirPathSize storage := length_padded (by omega)
  have hcopy : strncpy (cleared (filePathSize storage)) 0
      (padded (taDirText storage uuid) (taDirPathSize storage)) (taDirPathSize storage - 1) =
        .ok (padded (taDirText storage uuid) (filePathSize storage)) := by
    refine strncpy_padded (s := []) (nonzero_taDirText storage uuid) (by omega) (by omega) ?_
    rw [List.length_nil]
    omega
  have hslash : strncat (padded (taDirText storage uuid) (filePathSize storage)) (literal slash)
      slash.length = .ok (padded (taDirText storage uuid ++ slash) (filePathSize storage)) := by
    refine strncat_literal (nonzero_taDirText storage uuid) nonzero_slash ?_
    rw [show slash.length = 1 from rfl]
    omega
  have hstrlen : strlen (padded (hexText filename.toList) (2 * filenameSize + 1)) = .ok 40 := by
    rw [strlen_padded (nonzero_hexText _) (by rw [hname]; decide), hname]
  rw [appendFileName, hlength, hcopy, ok_bind, hslash, ok_bind, hstrlen, ok_bind]
  refine strncat_padded (nonzero_append (nonzero_taDirText storage uuid) nonzero_slash)
    (nonzero_hexText _) ?_ ?_ ?_
  · rw [hname]
    decide
  · exact Nat.le_of_eq hname
  · rw [List.length_append, hname, show slash.length = 1 from rfl]
    omega

/-- **The new file.**  The extension does not fit behind the path of the object, whatever the length
of the storage directory. -/
theorem createFilePathNew_error :
    createFilePathNew (cleared (filePathNewSize storage))
        (padded (fileText storage uuid filename) (filePathSize storage)) =
      .error ⟨filePathNewSize storage, filePathNewSize storage⟩ := by
  have hfile := length_fileText storage uuid filename
  have hsize : filePathSize storage = storage.bytes.length + 75 := rfl
  have hnewSize : filePathNewSize storage = storage.bytes.length + 77 := rfl
  have hlength : (padded (fileText storage uuid filename) (filePathSize storage)).length =
      filePathSize storage := length_padded (by omega)
  have hcopy : strncpy (cleared (filePathNewSize storage)) 0
      (padded (fileText storage uuid filename) (filePathSize storage)) (filePathSize storage - 1) =
        .ok (padded (fileText storage uuid filename) (filePathNewSize storage)) := by
    refine strncpy_padded (s := []) (nonzero_fileText storage uuid filename) (by omega) (by omega)
      ?_
    rw [List.length_nil]
    omega
  rw [createFilePathNew, hlength, hcopy, ok_bind]
  refine strncat_padded_over (nonzero_fileText storage uuid filename) nonzero_newExt
    (Nat.lt_succ_self _) (Nat.le_refl _) ?_ ?_
  · omega
  · rw [show newExt.length = 4 from rfl]
    omega

theorem createFilePath_error (filePath taDirPath : CArray) :
    createFilePath filename filePath taDirPath = .error ⟨41, 41⟩ := by
  rw [createFilePath, hexFileName_error, error_bind, Vector.length_toList]

end Text

/-! ## Requests -/

section Requests

variable (storage : CString) (r : Request) (c : FileCalls)

theorem readObject_error : readObject storage r c = .error ⟨41, 41⟩ := by
  rw [readObject, createTaDirPath_ok, ok_bind, createFilePath_error, error_bind]

theorem deleteFile_error : deleteFile storage r = .error ⟨41, 41⟩ := by
  rw [deleteFile, createTaDirPath_ok, ok_bind, createFilePath_error, error_bind]

/-- A write that has no directory ends before the path of the object. -/
theorem writeFile_ok_iff :
    writeFile storage r c = .ok () ↔ c.mkdir ≠ none ∧ c.mkdir ≠ some .eexist := by
  rw [writeFile, createTaDirPath_ok, ok_bind]
  by_cases hmkdir : c.mkdir ≠ none ∧ c.mkdir ≠ some .eexist
  · rw [if_pos hmkdir]
    exact iff_of_true rfl hmkdir
  · rw [if_neg hmkdir, createFilePath_error, error_bind]
    exact iff_of_false (by simp) hmkdir

/-- **When a request stays inside.**  Exactly when it is of no known type, or a write whose
directory cannot be made: no path of an object is put together then. -/
theorem staysInside_iff :
    StaysInside storage r c ↔
      (r.type ≠ sthMessageTypeLook ∧ r.type ≠ sthMessageTypeRead ∧ r.type ≠ sthMessageTypeWrite ∧
        r.type ≠ sthMessageTypeDelete) ∨
      (r.type = sthMessageTypeWrite ∧ c.mkdir ≠ none ∧ c.mkdir ≠ some .eexist) := by
  unfold StaysInside executeCommand
  by_cases hlook : r.type = sthMessageTypeLook
  · rw [if_pos hlook, readObject_error]
    exact iff_of_false (by simp) (by simp [hlook, sthMessageTypeLook, sthMessageTypeWrite])
  · rw [if_neg hlook]
    by_cases hread : r.type = sthMessageTypeRead
    · rw [if_pos hread, readObject_error]
      exact iff_of_false (by simp) (by simp [hread, sthMessageTypeRead, sthMessageTypeWrite])
    · rw [if_neg hread]
      by_cases hwrite : r.type = sthMessageTypeWrite
      · rw [if_pos hwrite, writeFile_ok_iff]
        simp [hwrite]
      · rw [if_neg hwrite]
        by_cases hdelete : r.type = sthMessageTypeDelete
        · rw [if_pos hdelete, deleteFile_error]
          exact iff_of_false (by simp)
            (by simp [hdelete, sthMessageTypeDelete, sthMessageTypeWrite])
        · rw [if_neg hdelete]
          exact iff_of_true rfl (.inl ⟨hlook, hread, hwrite, hdelete⟩)

/-- **The payload.**  The message buffer has room for so much of it, and a request may ask for
more. -/
theorem accessPayload_ok_iff (n : Nat) : accessPayload n = .ok () ↔ n ≤ 1023940 := by
  have hsize : payloadOffset + n ≤ dciBuffSize ↔ n ≤ 1023940 := by
    rw [show payloadOffset = 60 from rfl, show dciBuffSize = 1024000 from rfl]
    omega
  rw [accessPayload, ← hsize]
  by_cases hfits : payloadOffset + n ≤ dciBuffSize
  · simp [hfits]
  · simp [hfits]

end Requests

/-! ## A look -/

/-- `/data/app/mcRegistry/TbStorage` -/
def tbStorage : CString := ⟨ascii "/data/app/mcRegistry/TbStorage", by decide⟩

/-- A look at an object of sixteen bytes. -/
def plainLook : Request :=
  ⟨sthMessageTypeLook, 0, 16, Vector.replicate 16 0, Vector.replicate 20 0⟩

/-- The name alone goes over the end of its array. -/
theorem not_staysInside_look : ¬ StaysInside tbStorage plainLook ⟨none, true, some 16, true⟩ := by
  have hlook : executeCommand tbStorage plainLook ⟨none, true, some 16, true⟩ =
      .error ⟨41, 41⟩ :=
    readObject_error tbStorage plainLook ⟨none, true, some 16, true⟩
  rw [StaysInside, hlook]
  simp

end McDaemon.Daemon.Fsd.Arrays
