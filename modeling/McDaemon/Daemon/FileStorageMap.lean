/-
# McDaemon.Daemon.FileStorageMap — the file storage daemon is a map from names to contents.

The paths of the objects, of the new files beside them and of the directories are all different, so
a request for one object leaves the others alone, and the storage stays well formed whatever fails.
With nothing failing a sequence of requests is answered as a map would.  A write that fails may cost
the object that it was to replace: all its exits behind the opening of the new file remove it.
-/
import McDaemon.Daemon.FileStorage

namespace McDaemon.Daemon.Fsd

open McDaemon.Lib McDaemon.Registry

/-! ## Paths apart -/

theorem hexFileName_ne_new (a b : FileName) : hexFileName a ≠ hexFileName b ++ ".new" := by
  intro h
  have hlen := congrArg (fun s => s.toList.length) h
  simp [hexFileName] at hlen

theorem hexFileName_inj {a b : FileName} (h : hexFileName a = hexFileName b) : a = b :=
  Vector.toList_inj.mp (byteArrayToString_inj (by simp) (congrArg String.toList h))

theorem createTaDirPath_inj {u v : Uuid} (h : createTaDirPath u = createTaDirPath v) : u = v := by
  have hname := List.singleton_inj.mp (List.append_cancel_left h)
  exact Vector.toList_inj.mp (byteArrayToString_inj (by simp) (congrArg String.toList hname))

theorem createFilePath_inj {u v : Uuid} {a b : FileName}
    (h : createFilePath u a = createFilePath v b) : u = v ∧ a = b := by
  obtain ⟨hdir, hname⟩ := List.append_inj' h rfl
  exact ⟨createTaDirPath_inj hdir, hexFileName_inj (List.singleton_inj.mp hname)⟩

theorem createFilePath_ne_new (u v : Uuid) (a b : FileName) :
    createFilePath u a ≠ filePathNew v b := by
  intro h
  obtain ⟨-, hname⟩ := List.append_inj' h rfl
  exact hexFileName_ne_new a b (List.singleton_inj.mp hname)

theorem ne_of_length {p q : List String} {n k : Nat} (hp : p.length = n) (hq : q.length = k)
    (hne : n ≠ k) : p ≠ q := by
  rintro rfl
  exact hne (hp.symm.trans hq)

theorem storage_ne_taDir (u : Uuid) : getTbStoragePath ≠ createTaDirPath u :=
  ne_of_length (n := 4) (k := 5) rfl rfl (by decide)

theorem storage_ne_file (u : Uuid) (a : FileName) : getTbStoragePath ≠ createFilePath u a :=
  ne_of_length (n := 4) (k := 6) rfl rfl (by decide)

theorem storage_ne_new (u : Uuid) (a : FileName) : getTbStoragePath ≠ filePathNew u a :=
  ne_of_length (n := 4) (k := 6) rfl rfl (by decide)

theorem taDir_ne_file (u v : Uuid) (a : FileName) : createTaDirPath u ≠ createFilePath v a :=
  ne_of_length (n := 5) (k := 6) rfl rfl (by decide)

theorem taDir_ne_new (u v : Uuid) (a : FileName) : createTaDirPath u ≠ filePathNew v a :=
  ne_of_length (n := 5) (k := 6) rfl rfl (by decide)

/-! ## Well-formed storage -/

/-- The storage directory is there, and every path holds the kind of node that it is for. -/
structure WellFormed (s : Fs) : Prop where
  fault : s.fault = none
  storage : s.get? getTbStoragePath = some .dir
  taDir : ∀ u content, s.get? (createTaDirPath u) ≠ some (.file content)
  object : ∀ u a, s.get? (createFilePath u a) ≠ some .dir
  new : ∀ u a, s.get? (filePathNew u a) ≠ some .dir
  below : ∀ u a, s.get? (createFilePath u a) ≠ none → s.get? (createTaDirPath u) = some .dir

/-- The storage as the daemon finds it and leaves it. -/
structure Storage where
  fs : Fs
  wellFormed : WellFormed fs

/-- `t` is `s` in the middle of a write: its directory is there, and nothing else has changed but
the object and the new file. -/
structure Writing (m : SthFsdMessage) (s t : Fs) : Prop where
  fault : t.fault = none
  taDir : t.get? (createTaDirPath m.uuid) = some .dir
  object : t.get? (createFilePath m.uuid m.filename) ≠ some .dir
  new : t.get? (filePathNew m.uuid m.filename) ≠ some .dir
  others : ∀ q, q ≠ createTaDirPath m.uuid → q ≠ createFilePath m.uuid m.filename →
    q ≠ filePathNew m.uuid m.filename → t.get? q = s.get? q

namespace Writing

variable {m : SthFsdMessage} {s t : Fs}

/-- Other objects are not touched. -/
theorem other (h : Writing m s t) {u : Uuid} {a : FileName} (hne : (u, a) ≠ (m.uuid, m.filename)) :
    t.get? (createFilePath u a) = s.get? (createFilePath u a) := by
  refine h.others _ (taDir_ne_file _ _ _).symm ?_ (createFilePath_ne_new _ _ _ _)
  intro heq
  obtain ⟨rfl, rfl⟩ := createFilePath_inj heq
  exact hne rfl

theorem wellFormed (hs : WellFormed s) (h : Writing m s t) : WellFormed t where
  fault := h.fault
  storage := by
    rw [h.others _ (storage_ne_taDir _) (storage_ne_file _ _) (storage_ne_new _ _), hs.storage]
  taDir := by
    intro u content
    by_cases hu : createTaDirPath u = createTaDirPath m.uuid
    · rw [hu, h.taDir]
      exact nofun
    · rw [h.others _ hu (taDir_ne_file _ _ _) (taDir_ne_new _ _ _)]
      exact hs.taDir u content
  object := by
    intro u a
    by_cases hua : (u, a) = (m.uuid, m.filename)
    · obtain ⟨rfl, rfl⟩ := Prod.mk.inj hua
      exact h.object
    · rw [h.other hua]
      exact hs.object u a
  new := by
    intro u a
    by_cases hua : filePathNew u a = filePathNew m.uuid m.filename
    · rw [hua]
      exact h.new
    · rw [h.others _ (taDir_ne_new _ _ _).symm (createFilePath_ne_new _ _ _ _).symm hua]
      exact hs.new u a
  below := by
    intro u a hua
    by_cases hu : u = m.uuid
    · rw [hu]
      exact h.taDir
    · have hne : (u, a) ≠ (m.uuid, m.filename) := fun heq => hu (Prod.mk.inj heq).1
      rw [h.other hne] at hua
      rw [h.others _ (fun heq => hu (createTaDirPath_inj heq)) (taDir_ne_file _ _ _)
        (taDir_ne_new _ _ _)]
      exact hs.below u a hua

/-! ### The calls of a write -/

theorem start (hs : WellFormed s) (m : SthFsdMessage) :
    ∃ t, s.ensureDir (createTaDirPath m.uuid) = some t ∧ Writing m s t ∧
      t.get? (createFilePath m.uuid m.filename) = s.get? (createFilePath m.uuid m.filename) := by
  obtain ⟨t, ht, hfault, hget⟩ := FileSystem.ensureDir_spec hs.storage (hs.taDir m.uuid)
  have hobject : t.get? (createFilePath m.uuid m.filename) =
      s.get? (createFilePath m.uuid m.filename) := by
    rw [hget]
    exact if_neg (taDir_ne_file _ _ _).symm
  have hnew : t.get? (filePathNew m.uuid m.filename) = s.get? (filePathNew m.uuid m.filename) := by
    rw [hget]
    exact if_neg (taDir_ne_new _ _ _).symm
  refine ⟨t, ht, ⟨hfault.trans hs.fault, (hget _).trans (if_pos rfl), ?_, ?_, ?_⟩, hobject⟩
  · rw [hobject]
    exact hs.object _ _
  · rw [hnew]
    exact hs.new _ _
  · intro q hq _ _
    rw [hget]
    exact if_neg hq

theorem write_new (h : Writing m s t) (content : List UInt8) :
    ∃ u, t.writeFile (filePathNew m.uuid m.filename) content = some u ∧ Writing m s u ∧
      u.get? (filePathNew m.uuid m.filename) = some (.file content) ∧
      u.get? (createFilePath m.uuid m.filename) = t.get? (createFilePath m.uuid m.filename) := by
  obtain ⟨u, hu⟩ := FileSystem.writeFile_of_dir h.taDir h.new content
  have hget : ∀ q, u.get? q = if q = filePathNew m.uuid m.filename then some (.file content)
      else t.get? q := FileSystem.get?_writeFile hu
  have hobject : u.get? (createFilePath m.uuid m.filename) =
      t.get? (createFilePath m.uuid m.filename) := by
    rw [hget]
    exact if_neg (createFilePath_ne_new _ _ _ _)
  have hnew : u.get? (filePathNew m.uuid m.filename) = some (.file content) := by
    rw [hget]
    exact if_pos rfl
  refine ⟨u, hu, ⟨(FileSystem.fault_writeFile hu).trans h.fault, ?_, ?_, ?_, ?_⟩, hnew, hobject⟩
  · rw [hget]
    exact (if_neg (taDir_ne_new _ _ _)).trans h.taDir
  · rw [hobject]
    exact h.object
  · rw [hnew]
    exact nofun
  · intro q hq hq' hq''
    rw [hget]
    exact (if_neg hq'').trans (h.others q hq hq' hq'')

theorem create (h : Writing m s t) :
    ∃ u, t.writeFile (createFilePath m.uuid m.filename) [] = some u ∧ Writing m s u := by
  obtain ⟨u, hu⟩ := FileSystem.writeFile_of_dir h.taDir h.object []
  have hget : ∀ q, u.get? q = if q = createFilePath m.uuid m.filename then some (.file [])
      else t.get? q := FileSystem.get?_writeFile hu
  refine ⟨u, hu, ⟨(FileSystem.fault_writeFile hu).trans h.fault, ?_, ?_, ?_, ?_⟩⟩
  · rw [hget]
    exact (if_neg (taDir_ne_file _ _ _)).trans h.taDir
  · rw [hget, if_pos rfl]
    exact nofun
  · rw [hget, if_neg (createFilePath_ne_new _ _ _ _).symm]
    exact h.new
  · intro q hq hq' hq''
    rw [hget]
    exact (if_neg hq').trans (h.others q hq hq' hq'')

theorem rename (h : Writing m s t) {content : List UInt8}
    (hnew : t.get? (filePathNew m.uuid m.filename) = some (.file content)) :
    ∃ u, t.rename (filePathNew m.uuid m.filename) (createFilePath m.uuid m.filename) = some u ∧
      Writing m s u ∧ u.get? (createFilePath m.uuid m.filename) = some (.file content) := by
  obtain ⟨u, hu, hfault, hget'⟩ := FileSystem.rename_spec h.taDir hnew h.object
  have hget : ∀ q, u.get? q = if q = createFilePath m.uuid m.filename then some (.file content)
      else if q = filePathNew m.uuid m.filename then none else t.get? q := hget'
  have hobject : u.get? (createFilePath m.uuid m.filename) = some (.file content) :=
    (hget _).trans (if_pos rfl)
  refine ⟨u, hu, ⟨hfault.trans h.fault, ?_, ?_, ?_, ?_⟩, hobject⟩
  · rw [hget, if_neg (taDir_ne_file _ _ _), if_neg (taDir_ne_new _ _ _)]
    exact h.taDir
  · rw [hobject]
    exact nofun
  · rw [hget, if_neg (createFilePath_ne_new _ _ _ _).symm, if_pos rfl]
    exact nofun
  · intro q hq hq' hq''
    rw [hget]
    exact (if_neg hq').trans ((if_neg hq'').trans (h.others q hq hq' hq''))

theorem unlink_object (h : Writing m s t) (fails : Bool) :
    Writing m s (t.unlink (createFilePath m.uuid m.filename) fails) ∧
      (t.unlink (createFilePath m.uuid m.filename) fails).get?
          (createFilePath m.uuid m.filename) =
        if fails then t.get? (createFilePath m.uuid m.filename) else none := by
  have hget := FileSystem.get?_unlink h.fault h.object fails
  have hobject : (t.unlink (createFilePath m.uuid m.filename) fails).get?
      (createFilePath m.uuid m.filename) =
        if fails then t.get? (createFilePath m.uuid m.filename) else none := by
    rw [hget]
    cases fails with
    | true => exact if_neg fun h => nomatch h.2
    | false => exact if_pos ⟨rfl, rfl⟩
  refine ⟨⟨FileSystem.fault_unlink h.fault _ _, ?_, ?_, ?_, ?_⟩, hobject⟩
  · rw [hget, if_neg fun h => taDir_ne_file _ _ _ h.1]
    exact h.taDir
  · rw [hobject]
    cases fails with
    | true => exact h.object
    | false => exact nofun
  · rw [hget, if_neg fun h => (createFilePath_ne_new _ _ _ _).symm h.1]
    exact h.new
  · intro q hq hq' hq''
    rw [hget, if_neg fun h => hq' h.1]
    exact h.others q hq hq' hq''

theorem unlink_new (h : Writing m s t) (fails : Bool) :
    Writing m s (t.unlink (filePathNew m.uuid m.filename) fails) ∧
      (t.unlink (filePathNew m.uuid m.filename) fails).get? (createFilePath m.uuid m.filename) =
        t.get? (createFilePath m.uuid m.filename) := by
  have hget := FileSystem.get?_unlink h.fault h.new fails
  have hobject : (t.unlink (filePathNew m.uuid m.filename) fails).get?
      (createFilePath m.uuid m.filename) = t.get? (createFilePath m.uuid m.filename) := by
    rw [hget]
    exact if_neg fun h => createFilePath_ne_new _ _ _ _ h.1
  refine ⟨⟨FileSystem.fault_unlink h.fault _ _, ?_, ?_, ?_, ?_⟩, hobject⟩
  · rw [hget, if_neg fun h => taDir_ne_new _ _ _ h.1]
    exact h.taDir
  · rw [hobject]
    exact h.object
  · rw [hget]
    split
    · exact nofun
    · exact h.new
  · intro q hq hq' hq''
    rw [hget, if_neg fun h => hq'' h.1]
    exact h.others q hq hq' hq''

end Writing

/-! ## What a write does -/

/-- A call behind the creation of the object fails. -/
def WriteFaults.fails (f : WriteFaults) : Bool := f.openNew || f.write || f.close || f.rename

section Write

variable {m : SthFsdMessage} {s t : Fs}

/-- The object where a write has got to. -/
abbrev objectAt (t : Fs) (m : SthFsdMessage) : Option Node :=
  t.get? (createFilePath m.uuid m.filename)

/-- `p` is a write that has failed: the object is gone unless it could not be removed. -/
structure GaveUp (m : SthFsdMessage) (f : WriteFaults) (s t : Fs) (p : UInt32 × Fs) : Prop where
  status : p.1 = teeErrorStorageNoSpace
  writing : Writing m s p.2
  object : objectAt p.2 m = if f.removeOld then objectAt t m else none

/-- `p` is a write that has worked. -/
structure Written (m : SthFsdMessage) (s : Fs) (p : UInt32 × Fs) : Prop where
  status : p.1 = teecSuccess
  writing : Writing m s p.2
  object : objectAt p.2 m = some (.file m.payload)

theorem giveUp_spec (h : Writing m s t) (f : WriteFaults) : GaveUp m f s t (giveUp t m f) := by
  obtain ⟨hold, hobject⟩ := h.unlink_object f.removeOld
  obtain ⟨hnew, hsame⟩ := hold.unlink_new f.removeNew
  exact ⟨rfl, hnew, hsame.trans hobject⟩

theorem GaveUp.of_eq {u : Fs} {f : WriteFaults} {p : UInt32 × Fs} (h : GaveUp m f s u p)
    (hobject : objectAt u m = objectAt t m) : GaveUp m f s t p :=
  ⟨h.status, h.writing, hobject ▸ h.object⟩

theorem writeOpened_spec (h : Writing m s t) (f : WriteFaults) :
    ((f.write || f.close || f.rename) = true ∧ GaveUp m f s t (writeOpened t m f)) ∨
      ((f.write || f.close || f.rename) = false ∧ Written m s (writeOpened t m f)) := by
  unfold writeOpened
  by_cases hwrite : (f.write || f.close) = true
  · obtain ⟨u, hu, hwriting, -, hobject⟩ := h.write_new f.written
    rw [if_pos hwrite, hu]
    exact .inl ⟨by rw [hwrite, Bool.true_or], (giveUp_spec hwriting f).of_eq hobject⟩
  · obtain ⟨u, hu, hwriting, hnew, hobject⟩ := h.write_new m.payload
    rw [if_neg hwrite, hu, Option.bind_some, Bool.eq_false_iff.mpr hwrite, Bool.false_or]
    by_cases hrename : f.rename = true
    · rw [if_pos hrename]
      exact .inl ⟨hrename, (giveUp_spec hwriting f).of_eq hobject⟩
    · obtain ⟨v, hv, hwriting', hobject'⟩ := hwriting.rename hnew
      rw [if_neg hrename, hv]
      exact .inr ⟨Bool.eq_false_iff.mpr hrename, rfl, hwriting', hobject'⟩

theorem writeNew_spec (h : Writing m s t) (f : WriteFaults) :
    (f.fails = true ∧ GaveUp m f s t (writeNew t m f)) ∨
      (f.fails = false ∧ Written m s (writeNew t m f)) := by
  unfold writeNew WriteFaults.fails
  by_cases hopen : f.openNew = true
  · rw [if_pos hopen, hopen]
    obtain ⟨hwriting, hobject⟩ := h.unlink_object f.removeOld
    exact .inl ⟨by simp, rfl, hwriting, hobject⟩
  · obtain ⟨u, hu, hwriting, -, hobject⟩ := h.write_new []
    rw [if_neg hopen, hu, Bool.eq_false_iff.mpr hopen, Bool.false_or]
    rcases writeOpened_spec hwriting f with ⟨hfails, hgave⟩ | ⟨hfails, hwritten⟩
    · exact .inl ⟨hfails, hgave.of_eq hobject⟩
    · exact .inr ⟨hfails, hwritten⟩

/-- Whether an exclusive write is turned away. -/
def refused (s : Fs) (m : SthFsdMessage) (f : WriteFaults) : Prop :=
  m.flags = teeDataFlagExclusive ∧ (f.create = true ∨ objectAt s m ≠ none)

/-- What a write answers, and what it does to its object. -/
inductive WriteOutcome (s : Fs) (m : SthFsdMessage) (f : WriteFaults) (p : UInt32 × Fs) : Prop
  | noDirectory (fault : f.mkdir = true) (status : p.1 = teeErrorStorageNoSpace) (same : p.2 = s)
  | refused (fault : f.mkdir = false) (why : Fsd.refused s m f)
      (status : p.1 = teeErrorCorruptObject) (writing : Writing m s p.2)
      (object : objectAt p.2 m = objectAt s m)
  | failed (fault : f.mkdir = false) (free : ¬ Fsd.refused s m f) (fails : f.fails = true)
      (status : p.1 = teeErrorStorageNoSpace) (writing : Writing m s p.2)
      (gone : f.removeOld = false → objectAt p.2 m = none)
      (kept : f.removeOld = true → m.flags ≠ teeDataFlagExclusive → objectAt p.2 m = objectAt s m)
  | written (fault : f.mkdir = false) (free : ¬ Fsd.refused s m f) (works : f.fails = false)
      (status : p.1 = teecSuccess) (writing : Writing m s p.2)
      (object : objectAt p.2 m = some (.file m.payload))

theorem writeFile_spec (hs : WellFormed s) (m : SthFsdMessage) (f : WriteFaults) :
    WriteOutcome s m f (writeFile s m f) := by
  unfold writeFile
  by_cases hmkdir : f.mkdir = true
  · rw [if_pos hmkdir]
    exact .noDirectory hmkdir rfl rfl
  · have hmkdir' := Bool.eq_false_iff.mpr hmkdir
    obtain ⟨t, ht, hwriting, hobject⟩ := Writing.start hs m
    rw [if_neg hmkdir, ht]
    dsimp only
    by_cases hflags : m.flags = teeDataFlagExclusive
    · rw [if_pos hflags]
      unfold createObject
      have hexists : (f.create || t.exists? (createFilePath m.uuid m.filename)) = true ↔
          f.create = true ∨ objectAt s m ≠ none := by
        rw [Bool.or_eq_true, FileSystem.exists?, hobject, Option.isSome_iff_ne_none]
      by_cases hcreate : (f.create || t.exists? (createFilePath m.uuid m.filename)) = true
      · rw [if_pos hcreate]
        exact .refused hmkdir' ⟨hflags, hexists.mp hcreate⟩ rfl hwriting hobject
      · -- an empty object is created, which does not matter any more when the write fails
        obtain ⟨u, hu, hwriting'⟩ := hwriting.create
        have hfree : ¬ refused s m f := fun h => hcreate (hexists.mpr h.2)
        rw [if_neg hcreate, hu]
        rcases writeNew_spec hwriting' f with ⟨hfails, hgave⟩ | ⟨hfails, hwritten⟩
        · refine .failed hmkdir' hfree hfails hgave.status hgave.writing (fun hremove => ?_)
            fun _ hne => absurd hflags hne
          exact hgave.object.trans (if_neg (by simp [hremove]))
        · exact .written hmkdir' hfree hfails hwritten.status hwritten.writing hwritten.object
    · have hfree : ¬ refused s m f := fun h => hflags h.1
      rw [if_neg hflags]
      rcases writeNew_spec hwriting f with ⟨hfails, hgave⟩ | ⟨hfails, hwritten⟩
      · refine .failed hmkdir' hfree hfails hgave.status hgave.writing (fun hremove => ?_)
          fun hremove _ => ?_
        · exact hgave.object.trans (if_neg (by simp [hremove]))
        · exact hgave.object.trans ((if_pos hremove).trans hobject)
      · exact .written hmkdir' hfree hfails hwritten.status hwritten.writing hwritten.object

theorem WriteOutcome.wellFormed {f : WriteFaults} {p : UInt32 × Fs} (hs : WellFormed s)
    (h : WriteOutcome s m f p) : WellFormed p.2 := by
  cases h with
  | noDirectory _ _ same => rwa [same]
  | refused _ _ _ writing _ => exact writing.wellFormed hs
  | failed _ _ _ _ writing _ _ => exact writing.wellFormed hs
  | written _ _ _ _ writing _ => exact writing.wellFormed hs

end Write

/-! ## When a failed write loses data -/

/-- A request that is answered with an error leaves every object as it was: reading it gives what it
gave before, with whatever buffer. -/
def KeepsObjects (s : Fs) (p : UInt32 × Fs) : Prop :=
  p.1 ≠ teecSuccess → ∀ m : SthFsdMessage, (readFile s m).1 = teecSuccess →
    readFile p.2 m = readFile s m

/-- A write in plain mode fails behind the directory, over an object that is there, and the object
can be removed. -/
def LosesObject (s : Fs) (m : SthFsdMessage) (f : WriteFaults) : Prop :=
  f.mkdir = false ∧ m.flags ≠ teeDataFlagExclusive ∧ f.fails = true ∧ f.removeOld = false ∧
    objectAt s m ≠ none

theorem readFile_congr {s t : Fs} {m : SthFsdMessage} (h : objectAt t m = objectAt s m) :
    readFile t m = readFile s m := by
  unfold readFile readObject
  rw [show t.get? (createFilePath m.uuid m.filename) = _ from h]

theorem readFile_of_file {s : Fs} {m : SthFsdMessage} {content : List UInt8}
    (h : objectAt s m = some (.file content)) :
    readFile s m = (teecSuccess, fread content m.payload) := by
  unfold readFile readObject
  rw [show s.get? (createFilePath m.uuid m.filename) = _ from h]

theorem readFile_ok {s : Fs} {m : SthFsdMessage} (h : (readFile s m).1 = teecSuccess) :
    ∃ content, objectAt s m = some (.file content) := by
  unfold readFile readObject at h
  cases hobject : s.get? (createFilePath m.uuid m.filename) with
  | none =>
    rw [hobject] at h
    cases h
  | some node =>
    cases node with
    | dir =>
      rw [hobject] at h
      cases h
    | file content => exact ⟨content, hobject⟩

theorem Writing.keepsObjects {m : SthFsdMessage} {s : Fs} {p : UInt32 × Fs} (h : Writing m s p.2)
    (hobject : objectAt p.2 m = objectAt s m ∨ objectAt s m = none) : KeepsObjects s p := by
  intro _ r hr
  by_cases hkey : (r.uuid, r.filename) = (m.uuid, m.filename)
  · obtain ⟨hu, ha⟩ := Prod.mk.inj hkey
    have hat : ∀ x : Fs, objectAt x r = objectAt x m := fun x => by
      unfold objectAt
      rw [hu, ha]
    rcases hobject with hobject | hnone
    · exact readFile_congr ((hat _).trans (hobject.trans (hat _).symm))
    · obtain ⟨content, hcontent⟩ := readFile_ok hr
      rw [hat, hnone] at hcontent
      cases hcontent
  · exact readFile_congr (h.other hkey)

theorem not_keepsObjects {s : Fs} (hs : WellFormed s) {m : SthFsdMessage} {f : WriteFaults}
    (h : LosesObject s m f) : ¬ KeepsObjects s (writeFile s m f) := by
  obtain ⟨hmkdir, hflags, hfails, hremove, hobject⟩ := h
  intro hkeeps
  obtain ⟨node, hnode⟩ := Option.ne_none_iff_exists'.mp hobject
  have hfile : ∃ content, objectAt s m = some (.file content) := by
    cases node with
    | dir => exact absurd hnode (hs.object _ _)
    | file content => exact ⟨content, hnode⟩
  obtain ⟨content, hcontent⟩ := hfile
  have hread : (readFile s m).1 = teecSuccess := by rw [readFile_of_file hcontent]
  cases writeFile_spec hs m f with
  | noDirectory fault =>
    rw [hmkdir] at fault
    cases fault
  | refused _ why => exact hflags why.1
  | failed _ _ _ status _ gone =>
    have hsame := hkeeps (by rw [status]; decide) m hread
    obtain ⟨content', hcontent'⟩ := readFile_ok (hsame ▸ hread)
    rw [gone hremove] at hcontent'
    cases hcontent'
  | written _ _ works =>
    rw [hfails] at works
    cases works

/-- **When a write that is answered with an error leaves the storage as it was.**  For every content
of the storage, every write, and whatever fails. -/
theorem keepsObjects_iff (s : Storage) (m : SthFsdMessage) (f : WriteFaults) :
    KeepsObjects s.fs (writeFile s.fs m f) ↔ ¬ LosesObject s.fs m f := by
  refine ⟨fun hkeeps hloses => not_keepsObjects s.wellFormed hloses hkeeps, fun hloses => ?_⟩
  cases writeFile_spec s.wellFormed m f with
  | noDirectory _ _ same =>
    intro _ r _
    rw [same]
  | refused _ _ _ writing object => exact writing.keepsObjects (.inl object)
  | failed fault free fails _ writing _ kept =>
    refine writing.keepsObjects ?_
    by_cases hnone : objectAt s.fs m = none
    · exact .inr hnone
    · -- in exclusive mode there was no object
      have hflags : m.flags ≠ teeDataFlagExclusive := fun h => free ⟨h, .inr hnone⟩
      have hremove : f.removeOld = true := by
        by_contra hremove
        exact hloses ⟨fault, hflags, fails, Bool.eq_false_iff.mpr hremove, hnone⟩
      exact .inl (kept hremove hflags)
  | written _ _ _ status => exact fun hne => absurd status hne

/-! ## The first storage -/

/-- The storage directory, with nothing in it. -/
def emptyFs : Fs where
  nodes := ⟨[⟨[], .dir⟩, ⟨["data"], .dir⟩, ⟨["data", "app"], .dir⟩,
      ⟨["data", "app", "mcRegistry"], .dir⟩, ⟨["data", "app", "mcRegistry", "TbStorage"], .dir⟩],
    by unfold List.NodupKeys; decide⟩
  fault := none

theorem get?_emptyFs {q : List String} (h : 4 < q.length) : emptyFs.get? q = none := by
  refine AList.lookup_eq_none.mpr fun hmem => ?_
  have hkeys : q ∈ [[], ["data"], ["data", "app"], ["data", "app", "mcRegistry"],
      ["data", "app", "mcRegistry", "TbStorage"]] := hmem
  have hlen : ∀ p ∈ [[], ["data"], ["data", "app"], ["data", "app", "mcRegistry"],
      ["data", "app", "mcRegistry", "TbStorage"]], p.length ≤ 4 := by decide
  have hle := hlen q hkeys
  omega

theorem wellFormed_emptyFs : WellFormed emptyFs where
  fault := rfl
  storage := by decide
  taDir := by
    intro u content
    rw [get?_emptyFs (q := createTaDirPath u) (show 4 < 5 by decide)]
    exact nofun
  object := by
    intro u a
    rw [get?_emptyFs (q := createFilePath u a) (show 4 < 6 by decide)]
    exact nofun
  new := by
    intro u a
    rw [get?_emptyFs (q := filePathNew u a) (show 4 < 6 by decide)]
    exact nofun
  below := by
    intro u a h
    exact absurd (get?_emptyFs (q := createFilePath u a) (show 4 < 6 by decide)) h

/-! ## A lost object -/

/-- A plain write of one byte. -/
def plainWrite : SthFsdMessage where
  status := 0
  type := sthMessageTypeWrite
  flags := 0
  uuid := Vector.replicate 16 1
  filename := Vector.replicate 20 2
  payload := [3]

/-- **Replaced by nothing.**  The object that the first write has stored is gone when the new file
of the second cannot be opened. -/
theorem not_keepsObjects_openNew :
    ¬ KeepsObjects (writeFile emptyFs plainWrite .none).2
      (writeFile (writeFile emptyFs plainWrite .none).2 plainWrite
        { WriteFaults.none with openNew := true }) := by
  have hfirst := writeFile_spec wellFormed_emptyFs plainWrite .none
  refine not_keepsObjects (hfirst.wellFormed wellFormed_emptyFs) ⟨rfl, by decide, rfl, rfl, ?_⟩
  cases hfirst with
  | noDirectory fault => cases fault
  | refused _ why => exact absurd why.1 (by decide)
  | failed _ _ fails => cases fails
  | written _ _ _ _ _ object =>
    rw [object]
    exact Option.some_ne_none _

end McDaemon.Daemon.Fsd
