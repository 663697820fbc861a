/-
# McDaemon.Daemon.FileStorage — the file storage daemon.

Objects of trusted applications are files below the storage directory, in a directory for each
application; the names of both are hexadecimal.  A write goes to a second file beside the object,
which is then renamed, and in exclusive mode an empty object is created before that.

The calls of a write may fail; what is written before a failure is left open.
-/
import McDaemon.Lib.FileSteps
import McDaemon.Registry.Container

namespace McDaemon.Daemon.Fsd

open McDaemon.Lib McDaemon.Registry

/-! ## Messages -/

def teecSuccess : UInt32 := 0x00000000
def teecErrorItemNotFound : UInt32 := 0xFFFF0008
def teeErrorStorageNoSpace : UInt32 := 0xFFFF3041
def teeErrorCorruptObject : UInt32 := 0xF0100001

def teeDataFlagExclusive : UInt16 := 0x0400

def sthMessageTypeLook : UInt8 := 0
def sthMessageTypeRead : UInt8 := 1
def sthMessageTypeWrite : UInt8 := 2
def sthMessageTypeDelete : UInt8 := 3

/-- `FILENAMESIZE` bytes. -/
abbrev FileName := Vector UInt8 20

/-- `STH_FSD_message_t`, with as much of the payload as `payloadLen` says. -/
structure SthFsdMessage where
  status : UInt32
  type : UInt8
  flags : UInt16
  uuid : Uuid
  filename : FileName
  payload : List UInt8
deriving DecidableEq, Repr

/-! ## Paths -/

/-- `FSD_CreateTaDirPath` -/
def createTaDirPath (uuid : Uuid) : List String :=
  getTbStoragePath ++ [byteArrayToString uuid.toList]

/-- `FSD_HexFileName` -/
def hexFileName (filename : FileName) : String := byteArrayToString filename.toList

/-- `FSD_CreateFilePath` -/
def createFilePath (uuid : Uuid) (filename : FileName) : List String :=
  createTaDirPath uuid ++ [hexFileName filename]

/-- `Filepath_new` -/
def filePathNew (uuid : Uuid) (filename : FileName) : List String :=
  createTaDirPath uuid ++ [hexFileName filename ++ ".new"]

/-! ## Requests -/

/-- `fread` into the payload. -/
def fread (content payload : List UInt8) : List UInt8 :=
  content.take payload.length ++ payload.drop content.length

/-- `FSD_LookFile` and `FSD_ReadFile`, which differ in what they return when reading fails; a
directory can be opened and not read. -/
def readObject (corrupt : UInt32) (s : Fs) (m : SthFsdMessage) : UInt32 × List UInt8 :=
  match s.get? (createFilePath m.uuid m.filename) with
  | none => (teecErrorItemNotFound, m.payload)
  | some .dir => (corrupt, m.payload)
  | some (.file content) => (teecSuccess, fread content m.payload)

def lookFile : Fs → SthFsdMessage → UInt32 × List UInt8 := readObject teecErrorItemNotFound

def readFile : Fs → SthFsdMessage → UInt32 × List UInt8 := readObject teeErrorCorruptObject

/-- The calls of a write that fail without need, and what has reached the new file by then. -/
structure WriteFaults where
  mkdir : Bool
  create : Bool
  openNew : Bool
  write : Bool
  close : Bool
  written : List UInt8
  rename : Bool
  removeOld : Bool
  removeNew : Bool
deriving DecidableEq, Repr

/-- Nothing fails. -/
def WriteFaults.none : WriteFaults := ⟨false, false, false, false, false, [], false, false, false⟩

/-- What the exits behind the opening of the new file do. -/
def giveUp (s : Fs) (m : SthFsdMessage) (f : WriteFaults) : UInt32 × Fs :=
  (teeErrorStorageNoSpace,
    (s.unlink (createFilePath m.uuid m.filename) f.removeOld).unlink
      (filePathNew m.uuid m.filename) f.removeNew)

/-- `fwrite` and `fclose` on the open new file, and `rename`. -/
def writeOpened (s : Fs) (m : SthFsdMessage) (f : WriteFaults) : UInt32 × Fs :=
  if f.write || f.close then
    giveUp ((s.writeFile (filePathNew m.uuid m.filename) f.written).getD s) m f
  else
    match (s.writeFile (filePathNew m.uuid m.filename) m.payload).bind fun t =>
      if f.rename then none
      else t.rename (filePathNew m.uuid m.filename) (createFilePath m.uuid m.filename) with
    | some t => (teecSuccess, t)
    | none => giveUp ((s.writeFile (filePathNew m.uuid m.filename) m.payload).getD s) m f

/-- The write in a directory that is there.  Only the object is removed when the new file cannot be
opened. -/
def writeNew (s : Fs) (m : SthFsdMessage) (f : WriteFaults) : UInt32 × Fs :=
  match if f.openNew then none else s.writeFile (filePathNew m.uuid m.filename) [] with
  | some t => writeOpened t m f
  | none => (teeErrorStorageNoSpace, s.unlink (createFilePath m.uuid m.filename) f.removeOld)

/-- `open` with `O_CREAT | O_EXCL`. -/
def createObject (s : Fs) (m : SthFsdMessage) (f : WriteFaults) : Option Fs :=
  if f.create || s.exists? (createFilePath m.uuid m.filename) then none
  else s.writeFile (createFilePath m.uuid m.filename) []

def writeFile (s : Fs) (m : SthFsdMessage) (f : WriteFaults) : UInt32 × Fs :=
  match if f.mkdir then none else s.ensureDir (createTaDirPath m.uuid) with
  | none => (teeErrorStorageNoSpace, s)
  | some s =>
    if m.flags = teeDataFlagExclusive then
      match createObject s m f with
      | none => (teeErrorCorruptObject, s)
      | some s => writeNew s m f
    else writeNew s m f

/-- The object goes if it can be opened. -/
def removeObject (s : Fs) (m : SthFsdMessage) : Fs :=
  if s.exists? (createFilePath m.uuid m.filename) then
    (s.remove (createFilePath m.uuid m.filename)).2
  else s

/-- `FSD_DeleteFile`, with nothing failing without need.  The result of removing the object is
overwritten by that of removing the directory, which may be missing or not empty. -/
def deleteFile (s : Fs) (m : SthFsdMessage) : UInt32 × Fs :=
  match (removeObject s m).get? (createTaDirPath m.uuid) with
  | some (.file _) => (teeErrorStorageNoSpace, removeObject s m)
  | _ => (teecSuccess, ((removeObject s m).rmdir (createTaDirPath m.uuid)).2)

/-- `FSD_ExecuteCommand`; a message of another type stays as it is. -/
def executeCommand (f : WriteFaults) (s : Fs) (m : SthFsdMessage) : SthFsdMessage × Fs :=
  if m.type = sthMessageTypeLook then
    ({ m with status := (lookFile s m).1, payload := (lookFile s m).2 }, s)
  else if m.type = sthMessageTypeRead then
    ({ m with status := (readFile s m).1, payload := (readFile s m).2 }, s)
  else if m.type = sthMessageTypeWrite then
    ({ m with status := (writeFile s m f).1 }, (writeFile s m f).2)
  else if m.type = sthMessageTypeDelete then
    ({ m with status := (deleteFile s m).1 }, (deleteFile s m).2)
  else (m, s)

end McDaemon.Daemon.Fsd
