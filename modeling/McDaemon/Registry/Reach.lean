/-
# McDaemon.Registry.Reach — what clean-up can and cannot touch.

Everything in the registry lies under a name.  The names of data directories are hexadecimal, the
names of containers end in "cont"; the rest (binaries, spid files, the storage of GP applications)
is in neither class.  Clean-up of a trustlet removes one container and leaves all others, and it
changes what can be cleared of no data directory.
-/
import McDaemon.Registry.Cleanup
import McDaemon.Registry.Objects

namespace McDaemon.Registry

open McDaemon.Lib
open McDaemon.Lib.FileSystem

/-! ## Names -/

/-- The path is the entry of the registry with the name, or lies below it. -/
def Under (name : String) (q : List String) : Prop :=
  ∃ rest, q = mcRegistryDataPath ++ name :: rest

/-- A name that a data directory can have. -/
def IsDataName (name : String) : Prop := ∀ c ∈ name.toList, c ≠ '.' ∧ c ≠ 't'

/-- A name that a container can have. -/
def IsContName (name : String) : Prop := name.toList.getLast? = some 't'

/-- A path that belongs to no container. -/
def Loose (q : List String) : Prop := ∃ name, Under name q ∧ ¬ IsContName name

/-- A path that belongs to no container and to no data directory. -/
def Aside (q : List String) : Prop := ∃ name, Under name q ∧ ¬ IsDataName name ∧ ¬ IsContName name

theorem Under.unique {m n : String} {q : List String} (hm : Under m q) (hn : Under n q) :
    m = n := by
  obtain ⟨rest, rfl⟩ := hm
  obtain ⟨rest', heq⟩ := hn
  exact (List.cons.inj (List.append_cancel_left heq)).1

theorem under_inRegistry (name : String) : Under name (inRegistry name) := ⟨[], rfl⟩

theorem under_entry (name n : String) : Under name (inRegistry name ++ [n]) := ⟨[n], rfl⟩

theorem IsDataName.not_cont {name : String} (h : IsDataName name) : ¬ IsContName name := by
  intro hcont
  exact (h 't' (List.mem_of_getLast? hcont)).2 rfl

theorem isDataName_byteArrayToString (bytes : List UInt8) : IsDataName (byteArrayToString bytes) :=
  fun _ hc => (isHexChar_byteArrayToString hc).ne

theorem isDataName_uint32ToString (value : UInt32) : IsDataName (uint32ToString value) :=
  fun _ hc => (isHexChar_uint32ToString hc).ne

/-- An extension tells that a name is no data directory's, and its last letter the rest. -/
theorem isContName_append {base ext : String} {c : Char} (hext : ext.toList.getLast? = some c) :
    IsContName (base ++ ext) ↔ c = 't' := by
  rw [IsContName, String.toList_append, List.getLast?_append, hext]
  simp

theorem not_isDataName_append {base ext : String} (hext : '.' ∈ ext.toList) :
    ¬ IsDataName (base ++ ext) := by
  intro hdata
  refine (hdata '.' ?_).1 rfl
  rw [String.toList_append]
  exact List.mem_append_right _ hext

/-- A path that can be a container's. -/
def IsCont (q : List String) : Prop := ∃ name, IsContName name ∧ q = inRegistry name

theorem isCont_root : IsCont getRootContFilePath :=
  ⟨_, (isContName_append (by decide)).mpr rfl, rfl⟩

theorem isCont_sp (spid : Spid) : IsCont (getSpContFilePath spid) :=
  ⟨_, (isContName_append (by decide)).mpr rfl, rfl⟩

theorem isCont_tl (uuid : Uuid) (spid : Spid) : IsCont (getTlContFilePath uuid spid) :=
  ⟨_, (isContName_append (by decide)).mpr rfl, rfl⟩

theorem IsCont.not_loose {q : List String} (h : IsCont q) : ¬ Loose q := by
  obtain ⟨name, hname, rfl⟩ := h
  rintro ⟨n, hn, hcont⟩
  rw [hn.unique (under_inRegistry name)] at hcont
  exact hcont hname

theorem IsCont.not_under {q : List String} {name : String} (h : IsCont q) (hname : IsDataName name) :
    ¬ Under name q := fun hq => h.not_loose ⟨name, hq, hname.not_cont⟩

/-! ## Containers apart -/

theorem getSpContFilePath_inj {v w : Spid} (h : getSpContFilePath v = getSpContFilePath w) :
    v = w :=
  RegistryObject.sp.inj (RegistryObject.path_injective h)

theorem getTlContFilePath_inj {a b : Uuid} {v w : Spid}
    (h : getTlContFilePath a v = getTlContFilePath b w) : a = b ∧ v = w :=
  RegistryObject.tlCont.inj (RegistryObject.path_injective h)

theorem getSpContFilePath_ne_getTlContFilePath {v w : Spid} {uuid : Uuid} :
    getSpContFilePath v ≠ getTlContFilePath uuid w :=
  RegistryObject.path_ne (a := .sp v) (b := .tlCont uuid w) (fun h => nomatch h)

theorem getRootContFilePath_ne_getSpContFilePath {spid : Spid} :
    getRootContFilePath ≠ getSpContFilePath spid :=
  RegistryObject.path_ne (a := .root) (b := .sp spid) (fun h => nomatch h)

theorem getRootContFilePath_ne_getTlContFilePath {uuid : Uuid} {spid : Spid} :
    getRootContFilePath ≠ getTlContFilePath uuid spid :=
  RegistryObject.path_ne (a := .root) (b := .tlCont uuid spid) (fun h => nomatch h)

/-! ## What each step removes -/

/-- The registry has no `.spid` file whose name leads out of the storage of GP applications. -/
def Contained (s : Fs) : Prop := s.get? (inRegistry "...spid") = none

theorem Contained.of_onlyRemoved {s t : Fs} (hs : Contained s) (hst : OnlyRemoved s t) :
    Contained t := hst.get?_of_none hs

theorem aside_loose {q : List String} (h : Aside q) : Loose q := by
  obtain ⟨name, hname, -, hcont⟩ := h
  exact ⟨name, hname, hcont⟩

theorem baseOf_eq_some {ext name base : String} (h : baseOf ext name = some base) :
    name = base ++ ext := by
  unfold baseOf at h
  split_ifs at h with hsuffix
  obtain ⟨init, hinit⟩ := hsuffix
  rw [← Option.some.inj h, ← String.toList_inj, String.toList_append, String.toList_ofList, ← hinit]
  simp

/-- A file with an extension that is no container's. -/
theorem aside_append {base ext : String} {c : Char} (hdot : '.' ∈ ext.toList)
    (hext : ext.toList.getLast? = some c) (hc : c ≠ 't') : Aside (inRegistry (base ++ ext)) :=
  ⟨_, under_inRegistry _, not_isDataName_append hdot, fun h => hc ((isContName_append hext).mp h)⟩

/-- The storage of GP applications. -/
theorem aside_tbStorage {q : List String} (h : Under "TbStorage" q) : Aside q := by
  refine ⟨_, h, fun hdata => ?_, ?_⟩
  · exact (hdata 't' (by decide)).2 rfl
  · unfold IsContName
    decide

theorem cleanupGPTAStorage_shrinks {s : Fs} {uuid : String} (huuid : uuid ≠ "..") :
    Shrinks Aside s (cleanupGPTAStorage s uuid) := by
  have hself : Under "TbStorage" getTbStoragePath := under_inRegistry _
  have hentry : ∀ n, Under "TbStorage" (getTbStoragePath ++ [n]) := under_entry _
  have hbelow : ∀ n m, Under "TbStorage" (getTbStoragePath ++ [n] ++ [m]) := fun n m => ⟨[n, m], rfl⟩
  unfold cleanupGPTAStorage
  split_ifs
  · refine (clearDir_shrinks isHidden s _).mono ?_
    rintro q (rfl | ⟨n, rfl⟩)
    · exact aside_tbStorage hself
    · exact aside_tbStorage (hentry n)
  · refine (removeAll_shrinks isHidden s _ _).mono ?_
    rintro q ⟨n, rfl⟩
    exact aside_tbStorage (hentry n)
  · exact .refl _ s
  · refine (clearDir_shrinks isHidden s _).mono ?_
    rintro q (rfl | ⟨n, rfl⟩)
    · exact aside_tbStorage (hentry uuid)
    · exact aside_tbStorage (hbelow uuid n)

theorem remove_shrinks_aside {s : Fs} {p : List String} (hp : Aside p) :
    Shrinks Aside s (s.remove p).2 :=
  removeIf_shrinks.mono fun q hq => by rwa [hq]

theorem deleteSPTA_shrinks {s : Fs} (hs : Contained s) (uuid : Uuid) (spid : Spid) :
    Shrinks Aside s (deleteSPTA s uuid spid) := by
  unfold deleteSPTA
  split_ifs
  · split
    · exact .refl _ s
    · next name hfind =>
      split
      · exact .refl _ s
      · next base hbase =>
        have hname := baseOf_eq_some hbase
        have hpresent := mem_entries.mp (List.mem_of_find?_eq_some hfind)
        have hbase : base ≠ ".." := by
          rintro rfl
          rw [hname] at hpresent
          have hnone : s.get? (mcRegistryDataPath ++ [".." ++ ".spid"]) = none := hs
          rw [hnone] at hpresent
          cases hpresent
        have hspid : Aside (inRegistry name) :=
          hname ▸ aside_append (by decide) (by decide : _ = some 'd') (by decide)
        have htabin : Aside (inRegistry (base ++ ".tabin")) :=
          aside_append (by decide) (by decide : _ = some 'n') (by decide)
        exact ((cleanupGPTAStorage_shrinks hbase).trans (remove_shrinks_aside htabin)).trans
          (remove_shrinks_aside hspid)
  · exact .refl _ s

theorem removeBinary_shrinks {s : Fs} (hs : Contained s) (uuid : Uuid) (spid : Spid) :
    Shrinks Aside s (removeBinary s uuid spid) := by
  unfold removeBinary
  split_ifs
  · exact remove_shrinks_aside (aside_append (by decide) (by decide : _ = some 'n') (by decide))
  · exact deleteSPTA_shrinks hs uuid spid

theorem clearData_shrinks (s : Fs) (name : String) :
    Shrinks (Under name) s (clearData s (inRegistry name)).2 := by
  refine (clearDir_shrinks isHidden s _).mono ?_
  rintro q (rfl | ⟨n, rfl⟩)
  · exact under_inRegistry name
  · exact under_entry name n

/-! ## What each step leaves -/

/-- Only data, binaries and the containers in `own` are removed, and the data directories can be
cleared as before. -/
structure Tidies (own : List String → Prop) (s t : Fs) : Prop where
  shrinks : Shrinks (fun q => Loose q ∨ own q) s t
  steady : ∀ name, IsDataName name →
    (Clearable isHidden t (inRegistry name) ↔ Clearable isHidden s (inRegistry name))

namespace Tidies

variable {own : List String → Prop} {s t u : Fs}

theorem refl (own : List String → Prop) (s : Fs) : Tidies own s s :=
  ⟨.refl _ s, fun _ _ => Iff.rfl⟩

theorem trans (hst : Tidies own s t) (htu : Tidies own t u) : Tidies own s u :=
  ⟨hst.shrinks.trans htu.shrinks, fun name hname =>
    (htu.steady name hname).trans (hst.steady name hname)⟩

theorem mono {own' : List String → Prop} (h : Tidies own s t) (hown : ∀ q, own q → own' q) :
    Tidies own' s t :=
  ⟨h.shrinks.mono fun q hq => hq.imp_right (hown q), h.steady⟩

theorem onlyRemoved (h : Tidies own s t) : OnlyRemoved s t := h.shrinks.mono fun _ _ => trivial

theorem contained (h : Tidies own s t) (hs : Contained s) : Contained t :=
  hs.of_onlyRemoved h.onlyRemoved

/-- The other containers are untouched. -/
theorem get?_cont (h : Tidies own s t) {q : List String} (hq : IsCont q) (hown : ¬ own q) :
    t.get? q = s.get? q := h.shrinks.get?_of_not fun hD => hD.elim hq.not_loose hown

/-- A fault on one of the other containers is still to come. -/
theorem fault_cont (h : Tidies own s t) {q : List String} (hq : IsCont q) (hown : ¬ own q) :
    t.fault = some q ↔ s.fault = some q :=
  h.shrinks.fault_of_not fun hD => hD.elim hq.not_loose hown

end Tidies

/-- What is removed beside a data directory has no part in its clearing. -/
theorem clearable_of_shrinks {D : List String → Prop} {s t : Fs} {name : String}
    (h : Shrinks D s t) (hD : ∀ q, D q → ¬ Under name q) :
    Clearable isHidden t (inRegistry name) ↔ Clearable isHidden s (inRegistry name) := by
  have hsame : ∀ q, Under name q → t.get? q = s.get? q := fun q hq =>
    h.get?_of_not fun hDq => hD q hDq hq
  exact Clearable.congr (hsame _ (under_inRegistry name)) (fun m => hsame _ (under_entry name m))
    fun n m => hsame _ ⟨[n, m], by simp [inRegistry]⟩

theorem clearData_tidies {own : List String → Prop} (s : Fs) {name : String}
    (hname : IsDataName name) : Tidies own s (clearData s (inRegistry name)).2 := by
  have hshrinks := clearData_shrinks s name
  refine ⟨hshrinks.mono fun q hq => .inl ⟨name, hq, hname.not_cont⟩, fun m hm => ?_⟩
  by_cases hmn : m = name
  · rw [hmn]
    exact clearable_clearDir
  · exact clearable_of_shrinks hshrinks fun q hq hm => hmn (hm.unique hq)

theorem removeBinary_tidies {own : List String → Prop} {s : Fs} (hs : Contained s) (uuid : Uuid)
    (spid : Spid) : Tidies own s (removeBinary s uuid spid) := by
  have hshrinks := removeBinary_shrinks hs uuid spid
  refine ⟨hshrinks.mono fun q hq => .inl (aside_loose hq), fun name hname => ?_⟩
  refine clearable_of_shrinks hshrinks ?_
  rintro q ⟨m, hm, hdata, -⟩ hq
  exact hdata (hm.unique hq ▸ hname)

theorem removeCont_tidies {own : List String → Prop} (s : Fs) {q : List String} (hq : IsCont q)
    (hown : own q) : Tidies own s (removeCont s q).2 := by
  have hshrinks : Shrinks (fun p => p = q) s (removeCont s q).2 := removeIf_shrinks
  refine ⟨hshrinks.mono fun p hp => .inr (hp ▸ hown), fun name hname => ?_⟩
  refine clearable_of_shrinks hshrinks ?_
  rintro p rfl hp
  exact hq.not_under hname hp

theorem onOk_tidies {own : List String → Prop} {s : Fs} {r : McResult × Fs}
    {f : Fs → McResult × Fs} (hr : Tidies own s r.2) (hf : Tidies own r.2 (f r.2).2) :
    Tidies own s (onOk r f).2 := by
  unfold onOk
  split_ifs
  · exact hr.trans hf
  · exact hr

theorem cleanupTrustlet_tidies {s : Fs} (hs : Contained s) (uuid : Uuid) (spid : Spid) :
    Tidies (fun q => q = getTlContFilePath uuid spid) s
      (mcRegistryCleanupTrustlet s uuid spid).2 := by
  have hdata : Tidies (fun q => q = getTlContFilePath uuid spid) s
      (clearData s (getTlDataPath uuid)).2 :=
    clearData_tidies s (isDataName_byteArrayToString _)
  apply onOk_tidies hdata
  apply (removeBinary_tidies (hdata.contained hs) uuid spid).trans
  exact removeCont_tidies _ (isCont_tl uuid spid) rfl

/-- A trustlet's container. -/
def TlOwn (spid : Spid) (q : List String) : Prop := ∃ uuid, q = getTlContFilePath uuid spid

/-- A container of a service provider: its own or a trustlet's. -/
def SpOwn (spid : Spid) (q : List String) : Prop := q = getSpContFilePath spid ∨ TlOwn spid q

theorem cleanupTrustlets_tidies {s : Fs} (hs : Contained s) (spid : Spid) (uuids : List Uuid) :
    Tidies (TlOwn spid) s (cleanupTrustlets s spid uuids).2 := by
  -- along the loop the registry stays contained, which each step asks for
  have hrel : Contained s → Tidies (TlOwn spid) s (cleanupTrustlets s spid uuids).2 := by
    refine whileOk_rel (R := fun s t => Contained s → Tidies (TlOwn spid) s t)
      (fun t _ => .refl _ t) (fun t u v htu huv ht => ?_) (fun t uuid _ ht => ?_) s
    · exact (htu ht).trans (huv ((htu ht).contained ht))
    · exact (cleanupTrustlet_tidies ht uuid spid).mono fun q hq => ⟨uuid, hq⟩
  exact hrel hs

theorem cleanupSp_tidies {s : Fs} (hs : Contained s) (spid : Spid) :
    Tidies (SpOwn spid) s (mcRegistryCleanupSp s spid).2 := by
  unfold mcRegistryCleanupSp
  split
  · exact .refl _ s
  · split_ifs
    · exact .refl _ s
    · apply onOk_tidies ((cleanupTrustlets_tidies hs spid _).mono fun q hq => .inr hq)
      apply onOk_tidies
      · exact clearData_tidies _ (isDataName_uint32ToString spid)
      · exact removeCont_tidies _ (isCont_sp spid) (.inl rfl)

end McDaemon.Registry
