/-
# McDaemon.Daemon.FileStorageRefinement — requests are answered as a map answers them.

The map takes an application and a file name to the bytes of the object, and every request is one
operation of it.  The directories that come and go, the new files and the empty objects of exclusive
mode do not show: what a path below the directory of an application holds is told by the last
requests for that path alone.
-/
import McDaemon.Daemon.FileStorageMap
import Mathlib.Data.Set.Finite.Basic

namespace McDaemon.Daemon.Fsd

open McDaemon.Lib McDaemon.Registry

/-! ## The map -/

/-- The objects, by application and file name. -/
abbrev Contents := Uuid × FileName → Option (List UInt8)

def SthFsdMessage.key (m : SthFsdMessage) : Uuid × FileName := (m.uuid, m.filename)

/-- A buffer that an object has been read into. -/
def filled (content buffer : List UInt8) : List UInt8 :=
  if content.length ≤ buffer.length then content ++ buffer.drop content.length
  else content.take buffer.length

/-- What a map answers to a request for reading. -/
def answerRead (m : SthFsdMessage) : Option (List UInt8) → SthFsdMessage
  | none => { m with status := teecErrorItemNotFound }
  | some content => { m with status := teecSuccess, payload := filled content m.payload }

/-- What a map answers to a request, and the map behind it. -/
def executeOnMap (c : Contents) (m : SthFsdMessage) : SthFsdMessage × Contents :=
  if m.type = sthMessageTypeLook ∨ m.type = sthMessageTypeRead then (answerRead m (c m.key), c)
  else if m.type = sthMessageTypeWrite then
    if m.flags = teeDataFlagExclusive ∧ c m.key ≠ none then
      ({ m with status := teeErrorCorruptObject }, c)
    else ({ m with status := teecSuccess }, Function.update c m.key (some m.payload))
  else if m.type = sthMessageTypeDelete then
    ({ m with status := teecSuccess }, Function.update c m.key none)
  else (m, c)

/-- The bytes of a node, if it is a file. -/
def bytes? : Option Node → Option (List UInt8)
  | some (.file content) => some content
  | _ => none

/-- The map that the storage holds. -/
def contents (s : Fs) : Contents := fun k => bytes? (s.get? (createFilePath k.1 k.2))

/-- Only finitely many objects are there. -/
theorem contents_finite (s : Fs) : {k | contents s k ≠ none}.Finite := by
  have hinj : Function.Injective fun k : Uuid × FileName => createFilePath k.1 k.2 := by
    intro k l h
    obtain ⟨hu, ha⟩ := createFilePath_inj h
    exact Prod.ext hu ha
  refine Set.Finite.subset ((s.nodes.keys.finite_toSet).preimage hinj.injOn) fun k hk => ?_
  show createFilePath k.1 k.2 ∈ s.nodes.keys
  by_contra hmem
  have hnone : s.get? (createFilePath k.1 k.2) = none := AList.lookup_eq_none.mpr hmem
  apply hk
  rw [contents, hnone]
  rfl

/-! ## Reading -/

theorem fread_eq_filled (content buffer : List UInt8) :
    fread content buffer = filled content buffer := by
  unfold fread filled
  by_cases h : content.length ≤ buffer.length
  · rw [if_pos h, List.take_of_length_le h]
  · rw [if_neg h, List.drop_of_length_le (by omega), List.append_nil]

theorem bytes?_eq_none {s : Fs} (hs : WellFormed s) (m : SthFsdMessage) :
    contents s m.key = none ↔ objectAt s m = none := by
  show bytes? (objectAt s m) = none ↔ _
  cases hobject : objectAt s m with
  | none => exact ⟨fun _ => rfl, fun _ => rfl⟩
  | some node =>
    cases node with
    | dir => exact absurd hobject (hs.object _ _)
    | file content => exact ⟨nofun, nofun⟩

/-- Looking and reading are the same where there are objects only. -/
theorem readObject_spec {s : Fs} (hs : WellFormed s) (corrupt : UInt32) (m : SthFsdMessage) :
    answerRead m (contents s m.key) =
      { m with status := (readObject corrupt s m).1, payload := (readObject corrupt s m).2 } := by
  unfold readObject
  show answerRead m (bytes? (objectAt s m)) = _
  cases hobject : objectAt s m with
  | none =>
    rw [show s.get? (createFilePath m.uuid m.filename) = _ from hobject]
    rfl
  | some node =>
    cases node with
    | dir => exact absurd hobject (hs.object _ _)
    | file content =>
      rw [show s.get? (createFilePath m.uuid m.filename) = _ from hobject]
      dsimp only
      rw [fread_eq_filled]
      rfl

/-! ## Writing and deleting -/

/-- A storage that differs in one object holds the map that differs there. -/
theorem contents_update {s t : Fs} {m : SthFsdMessage}
    (hothers : ∀ u a, (u, a) ≠ m.key →
      t.get? (createFilePath u a) = s.get? (createFilePath u a)) :
    contents t = Function.update (contents s) m.key (bytes? (objectAt t m)) := by
  funext k
  by_cases hk : k = m.key
  · rw [hk, Function.update_self]
    rfl
  · rw [Function.update_of_ne hk]
    show bytes? _ = bytes? _
    rw [hothers k.1 k.2 hk]

theorem contents_of_writing {m : SthFsdMessage} {s t : Fs} (h : Writing m s t) :
    contents t = Function.update (contents s) m.key (bytes? (objectAt t m)) :=
  contents_update fun _ _ hne => h.other hne

theorem writeFile_refines {s : Fs} (hs : WellFormed s) (m : SthFsdMessage) :
    (if m.flags = teeDataFlagExclusive ∧ contents s m.key ≠ none then
      ({ m with status := teeErrorCorruptObject }, contents s)
    else ({ m with status := teecSuccess }, Function.update (contents s) m.key (some m.payload))) =
      ({ m with status := (writeFile s m .none).1 }, contents (writeFile s m .none).2) := by
  have hrefused : (m.flags = teeDataFlagExclusive ∧ contents s m.key ≠ none) ↔
      refused s m .none := by
    rw [Ne, bytes?_eq_none hs]
    exact and_congr_right fun _ => ⟨.inr, fun h => h.resolve_left Bool.false_ne_true⟩
  cases writeFile_spec hs m .none with
  | noDirectory fault => cases fault
  | refused _ why status writing object =>
    rw [if_pos (hrefused.mpr why), status, contents_of_writing writing, object]
    exact congrArg _ (Function.update_eq_self _ _).symm
  | failed _ _ fails => cases fails
  | written _ free _ status writing object =>
    rw [if_neg fun h => free (hrefused.mp h), status, contents_of_writing writing, object]
    rfl

theorem get?_removeObject {s : Fs} (hs : WellFormed s) (m : SthFsdMessage) :
    (removeObject s m).fault = none ∧ ∀ q, (removeObject s m).get? q =
      if q = createFilePath m.uuid m.filename then none else s.get? q := by
  unfold removeObject
  by_cases hexists : s.exists? (createFilePath m.uuid m.filename) = true
  · rw [if_pos hexists]
    refine ⟨FileSystem.fault_unlink hs.fault _ false, fun q => ?_⟩
    have hget := FileSystem.get?_unlink hs.fault (hs.object m.uuid m.filename) false q
    by_cases hq : q = createFilePath m.uuid m.filename
    · exact (hget.trans (if_pos ⟨hq, rfl⟩)).trans (if_pos hq).symm
    · exact (hget.trans (if_neg fun h => hq h.1)).trans (if_neg hq).symm
  · rw [if_neg hexists]
    refine ⟨hs.fault, fun q => ?_⟩
    by_cases hq : q = createFilePath m.uuid m.filename
    · rw [if_pos hq, hq]
      rw [FileSystem.exists?, Bool.not_eq_true, Option.isSome_eq_false_iff] at hexists
      exact Option.isNone_iff_eq_none.mp hexists
    · rw [if_neg hq]

/-- `t` is `s` without the object of `m`, and maybe without its directory, which is then empty. -/
structure Deleted (m : SthFsdMessage) (s t : Fs) : Prop where
  fault : t.fault = none
  object : objectAt t m = none
  others : ∀ q, q ≠ createTaDirPath m.uuid → q ≠ createFilePath m.uuid m.filename →
    t.get? q = s.get? q
  taDir : t.get? (createTaDirPath m.uuid) = s.get? (createTaDirPath m.uuid) ∨
    t.get? (createTaDirPath m.uuid) = none ∧ ∀ a, t.get? (createFilePath m.uuid a) = none

theorem Deleted.other {m : SthFsdMessage} {s t : Fs} (h : Deleted m s t) {u : Uuid} {a : FileName}
    (hne : (u, a) ≠ m.key) : t.get? (createFilePath u a) = s.get? (createFilePath u a) := by
  refine h.others _ (taDir_ne_file _ _ _).symm fun heq => ?_
  obtain ⟨hu, ha⟩ := createFilePath_inj heq
  exact hne (Prod.ext hu ha)

theorem Deleted.wellFormed {m : SthFsdMessage} {s t : Fs} (hs : WellFormed s)
    (h : Deleted m s t) : WellFormed t where
  fault := h.fault
  storage := by rw [h.others _ (storage_ne_taDir _) (storage_ne_file _ _), hs.storage]
  taDir := by
    intro u content
    by_cases hu : u = m.uuid
    · rw [hu]
      rcases h.taDir with hsame | ⟨hnone, -⟩
      · rw [hsame]
        exact hs.taDir _ _
      · rw [hnone]
        exact nofun
    · rw [h.others _ (fun heq => hu (createTaDirPath_inj heq)) (taDir_ne_file _ _ _)]
      exact hs.taDir u content
  object := by
    intro u a
    by_cases hua : (u, a) = m.key
    · obtain ⟨rfl, rfl⟩ := Prod.mk.inj hua
      show objectAt t m ≠ _
      rw [h.object]
      exact nofun
    · rw [h.other hua]
      exact hs.object u a
  new := by
    intro u a
    rw [h.others _ (taDir_ne_new _ _ _).symm (createFilePath_ne_new _ _ _ _).symm]
    exact hs.new u a
  below := by
    intro u a hobject
    have hne : (u, a) ≠ m.key := by
      intro hua
      obtain ⟨rfl, rfl⟩ := Prod.mk.inj hua
      exact hobject h.object
    have hdir := hs.below u a (h.other hne ▸ hobject)
    by_cases hu : u = m.uuid
    · subst hu
      rcases h.taDir with hsame | ⟨-, hempty⟩
      · rw [hsame, hdir]
      · exact absurd (hempty a) hobject
    · rw [h.others _ (fun heq => hu (createTaDirPath_inj heq)) (taDir_ne_file _ _ _), hdir]

theorem deleteFile_spec {s : Fs} (hs : WellFormed s) (m : SthFsdMessage) :
    (deleteFile s m).1 = teecSuccess ∧ Deleted m s (deleteFile s m).2 := by
  obtain ⟨hfault, hremoved⟩ := get?_removeObject hs m
  obtain ⟨hfault', hrmdir'⟩ := FileSystem.rmdir_spec (p := createTaDirPath m.uuid) hfault
  have hdir : (removeObject s m).get? (createTaDirPath m.uuid) =
      s.get? (createTaDirPath m.uuid) :=
    (hremoved _).trans (if_neg (taDir_ne_file _ _ _))
  have heq : deleteFile s m =
      (teecSuccess, ((removeObject s m).rmdir (createTaDirPath m.uuid)).2) := by
    unfold deleteFile
    split
    · rename_i content hfile
      exact absurd (hdir ▸ hfile) (hs.taDir _ _)
    · rfl
  -- what is below the directory does not depend on whether it is removed
  have hbelow : ∀ q, q ≠ createTaDirPath m.uuid →
      ((removeObject s m).rmdir (createTaDirPath m.uuid)).2.get? q =
        if q = createFilePath m.uuid m.filename then none else s.get? q := by
    intro q hq
    rw [hrmdir', if_neg fun h => hq h.1, hremoved]
  rw [heq]
  refine ⟨rfl, hfault', ?_, ?_, ?_⟩
  · exact (hbelow _ (taDir_ne_file _ _ _).symm).trans (if_pos rfl)
  · intro q hq hq'
    exact (hbelow q hq).trans (if_neg hq')
  · by_cases hgone : (removeObject s m).get? (createTaDirPath m.uuid) = some .dir ∧
        (removeObject s m).entries (createTaDirPath m.uuid) = []
    · refine .inr ⟨(hrmdir' _).trans (if_pos ⟨rfl, hgone⟩), fun a => ?_⟩
      have hempty := FileSystem.entries_eq_nil.mp hgone.2 (hexFileName a)
      rw [hbelow _ (taDir_ne_file _ _ _).symm, ← hremoved]
      exact hempty
    · exact .inl ((hrmdir' _).trans ((if_neg fun h => hgone h.2).trans hdir))

/-! ## Sequences of requests -/

/-- Whatever fails in a write, the storage stays well formed. -/
theorem wellFormed_executeCommand (f : WriteFaults) {s : Fs} (hs : WellFormed s)
    (m : SthFsdMessage) : WellFormed (executeCommand f s m).2 := by
  unfold executeCommand
  split_ifs
  · exact hs
  · exact hs
  · exact (writeFile_spec hs m f).wellFormed hs
  · exact (deleteFile_spec hs m).2.wellFormed hs
  · exact hs

theorem executeCommand_refines {s : Fs} (hs : WellFormed s) (m : SthFsdMessage) :
    executeOnMap (contents s) m =
      ((executeCommand .none s m).1, contents (executeCommand .none s m).2) := by
  unfold executeOnMap executeCommand
  by_cases hlook : m.type = sthMessageTypeLook
  · rw [if_pos (.inl hlook), if_pos hlook]
    exact congrArg (·, contents s) (readObject_spec hs teecErrorItemNotFound m)
  by_cases hread : m.type = sthMessageTypeRead
  · rw [if_pos (.inr hread), if_neg hlook, if_pos hread]
    exact congrArg (·, contents s) (readObject_spec hs teeErrorCorruptObject m)
  rw [if_neg (not_or.mpr ⟨hlook, hread⟩), if_neg hlook, if_neg hread]
  by_cases hwrite : m.type = sthMessageTypeWrite
  · rw [if_pos hwrite, if_pos hwrite]
    exact writeFile_refines hs m
  rw [if_neg hwrite, if_neg hwrite]
  by_cases hdelete : m.type = sthMessageTypeDelete
  · obtain ⟨hstatus, hdeleted⟩ := deleteFile_spec hs m
    rw [if_pos hdelete, if_pos hdelete, hstatus, contents_update fun _ _ => hdeleted.other,
      hdeleted.object]
    rfl
  · rw [if_neg hdelete, if_neg hdelete]

/-- **The daemon is a map.**  With nothing failing, every sequence of requests to a storage is
answered as the finite map that the storage holds answers it, and leaves what the map then is. -/
theorem serveAll_executeCommand (s : Storage) (ms : List SthFsdMessage) :
    {k | contents s.fs k ≠ none}.Finite ∧ serveAll executeOnMap (contents s.fs) ms =
      ((serveAll (executeCommand .none) s.fs ms).1,
        contents (serveAll (executeCommand .none) s.fs ms).2) :=
  ⟨contents_finite s.fs,
    @serveAll_refines _ _ _ _ (executeCommand .none) executeOnMap WellFormed contents
      (fun _ m hs => wellFormed_executeCommand .none hs m)
      (fun _ m hs => executeCommand_refines hs m) s.fs s.wellFormed ms⟩

end McDaemon.Daemon.Fsd
