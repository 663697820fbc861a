/-
# McDaemon.Lib.FileSteps — more calls of a file system, and services that answer requests.

Making a directory, renaming a file and removing one, each by what it does to every path.  A service
takes a state and a request to an answer and a state; it refines another one when a step of it
answers alike and the abstraction of its state makes the other's step.
-/
import McDaemon.Lib.FileSystem

namespace McDaemon.Lib

universe u

namespace FileSystem

variable {N : Type u} [DecidableEq N]

/-- `mkdir` for a directory that may be there: nothing comes of it when something else fails. -/
def ensureDir (s : FileSystem N) (p : List N) : Option (FileSystem N) :=
  if s.exists? p then some s
  else if p ≠ [] ∧ s.isDir p.dropLast then some { s with nodes := s.nodes.insert p .dir }
  else none

/-- `mkdir`. -/
def mkdir (s : FileSystem N) (p : List N) : Option (FileSystem N) :=
  if s.exists? p = false ∧ p ≠ [] ∧ s.isDir p.dropLast then
    some { s with nodes := s.nodes.insert p .dir }
  else none

/-- `rename` for a file, over another one or none. -/
def rename (s : FileSystem N) (p q : List N) : Option (FileSystem N) :=
  match s.get? p with
  | some (.file content) => (s.erase p).writeFile q content
  | _ => none

/-- `remove` where its result does not matter; it may fail for reasons of its own. -/
def unlink (s : FileSystem N) (p : List N) (fails : Bool) : FileSystem N :=
  if fails then s else (s.remove p).2

theorem isDir_iff {s : FileSystem N} {p : List N} : s.isDir p = true ↔ s.get? p = some .dir := by
  simp [isDir]

theorem isDir_eq_false {s : FileSystem N} {p : List N} (h : s.get? p ≠ some .dir) :
    s.isDir p = false := by
  simp [isDir, h]

/-- A file can be written where there is no directory, in one that is. -/
theorem writeFile_of_dir {s : FileSystem N} {d : List N} {n : N} (hd : s.get? d = some .dir)
    (hn : s.get? (d ++ [n]) ≠ some .dir) (content : List UInt8) :
    ∃ t, s.writeFile (d ++ [n]) content = some t := by
  refine ⟨_, if_pos ⟨isDir_eq_false hn, by simp, ?_⟩⟩
  rw [List.dropLast_concat]
  exact isDir_iff.mpr hd

theorem fault_writeFile {s t : FileSystem N} {p : List N} {content : List UInt8}
    (h : s.writeFile p content = some t) : t.fault = s.fault := by
  unfold writeFile at h
  split_ifs at h
  rw [← Option.some.inj h]

theorem ensureDir_spec {s : FileSystem N} {d : List N} {n : N} (hd : s.get? d = some .dir)
    (hn : ∀ content, s.get? (d ++ [n]) ≠ some (.file content)) :
    ∃ t, s.ensureDir (d ++ [n]) = some t ∧ t.fault = s.fault ∧
      ∀ q, t.get? q = if q = d ++ [n] then some .dir else s.get? q := by
  unfold ensureDir
  cases hp : s.get? (d ++ [n]) with
  | some node =>
    have hexists : s.exists? (d ++ [n]) = true := by simp [exists?, hp]
    have hnode : node = .dir := by
      cases node with
      | dir => rfl
      | file content => exact absurd hp (hn content)
    refine ⟨s, if_pos hexists, rfl, fun q => ?_⟩
    by_cases hq : q = d ++ [n]
    · rw [if_pos hq, hq, hp, hnode]
    · rw [if_neg hq]
  | none =>
    have hexists : ¬ s.exists? (d ++ [n]) = true := by simp [exists?, hp]
    have hdir : d ++ [n] ≠ [] ∧ s.isDir (d ++ [n]).dropLast = true := by
      rw [List.dropLast_concat]
      exact ⟨by simp, isDir_iff.mpr hd⟩
    rw [if_neg hexists, if_pos hdir]
    refine ⟨_, rfl, rfl, fun q => ?_⟩
    by_cases hq : q = d ++ [n]
    · rw [if_pos hq, hq]
      exact AList.lookup_insert s.nodes
    · rw [if_neg hq]
      exact AList.lookup_insert_ne hq

/-- A directory that has been made is there; the other paths stay. -/
theorem get?_mkdir {s t : FileSystem N} {p : List N} (h : s.mkdir p = some t) (q : List N) :
    t.get? q = if q = p then some .dir else s.get? q := by
  unfold mkdir at h
  split_ifs at h with hplace
  obtain rfl := Option.some.inj h
  split_ifs with hq
  · rw [hq]
    exact AList.lookup_insert s.nodes
  · exact AList.lookup_insert_ne hq

/-- A directory is made where nothing is, in one that is there. -/
theorem mkdir_spec {s : FileSystem N} {d : List N} {n : N} (hd : s.get? d = some .dir)
    (hn : s.get? (d ++ [n]) = none) :
    ∃ t, s.mkdir (d ++ [n]) = some t ∧
      ∀ q, t.get? q = if q = d ++ [n] then some .dir else s.get? q := by
  have hplace : s.exists? (d ++ [n]) = false ∧ d ++ [n] ≠ [] ∧
      s.isDir (d ++ [n]).dropLast = true := by
    rw [List.dropLast_concat]
    exact ⟨by simp [exists?, hn], by simp, isDir_iff.mpr hd⟩
  obtain ⟨t, hmkdir⟩ : ∃ t, s.mkdir (d ++ [n]) = some t := ⟨_, if_pos hplace⟩
  exact ⟨t, hmkdir, get?_mkdir hmkdir⟩

theorem mkdir_of_exists {s : FileSystem N} {p : List N} (h : s.get? p ≠ none) :
    s.mkdir p = none := by
  refine if_neg fun hplace => h ?_
  have hnone : (s.get? p).isSome = false := hplace.1
  exact Option.not_isSome_iff_eq_none.mp (by simp [hnone])

theorem rename_spec {s : FileSystem N} {d : List N} {m n : N} {content : List UInt8}
    (hd : s.get? d = some .dir) (hm : s.get? (d ++ [m]) = some (.file content))
    (hn : s.get? (d ++ [n]) ≠ some .dir) :
    ∃ t, s.rename (d ++ [m]) (d ++ [n]) = some t ∧ t.fault = s.fault ∧
      ∀ q, t.get? q = if q = d ++ [n] then some (.file content)
        else if q = d ++ [m] then none else s.get? q := by
  have hne : d ≠ d ++ [m] := fun h => concat_ne_self h.symm
  have hd' : (s.erase (d ++ [m])).get? d = some .dir := by rw [get?_erase, if_neg hne, hd]
  have hn' : (s.erase (d ++ [m])).get? (d ++ [n]) ≠ some .dir := by
    rw [get?_erase]
    split
    · exact nofun
    · exact hn
  obtain ⟨t, ht⟩ := writeFile_of_dir hd' hn' content
  have hfault : t.fault = (s.erase (d ++ [m])).fault := fault_writeFile ht
  refine ⟨t, ?_, hfault, fun q => ?_⟩
  · unfold rename
    rw [hm]
    exact ht
  · rw [get?_writeFile ht, get?_erase]

theorem get?_unlink {s : FileSystem N} {p : List N} (hfault : s.fault = none)
    (hp : s.get? p ≠ some .dir) (fails : Bool) (q : List N) :
    (s.unlink p fails).get? q = if q = p ∧ fails = false then none else s.get? q := by
  unfold unlink
  cases fails with
  | true => simp
  | false =>
    rw [if_neg Bool.false_ne_true]
    by_cases hq : q = p
    · rw [if_pos ⟨hq, rfl⟩, hq]
      by_cases hs : (s.remove p).1 = true
      · exact removeIf_gone hs
      · rw [remove, removeIf_of_not hs]
        by_contra hsome
        exact hs ((remove_fst_of_not_dir hp).mpr ⟨by simp [hfault],
          Option.isSome_iff_ne_none.mpr hsome⟩)
    · rw [if_neg fun h => hq h.1]
      exact removeIf_shrinks.get?_of_not hq

theorem fault_unlink {s : FileSystem N} (hfault : s.fault = none) (p : List N) (fails : Bool) :
    (s.unlink p fails).fault = none := by
  unfold unlink
  cases fails with
  | true => exact hfault
  | false => exact removeIf_shrinks.fault_of_none hfault

/-- A directory goes when it is there and empty. -/
theorem rmdir_spec {s : FileSystem N} {p : List N} (hfault : s.fault = none) :
    (s.rmdir p).2.fault = none ∧ ∀ q, (s.rmdir p).2.get? q =
      if q = p ∧ s.get? p = some .dir ∧ s.entries p = [] then none else s.get? q := by
  refine ⟨removeIf_shrinks.fault_of_none hfault, fun q => ?_⟩
  by_cases hq : q = p
  · subst hq
    by_cases hs : (s.rmdir q).1 = true
    · obtain ⟨-, node, hnode, hok⟩ := removeIf_fst.mp hs
      have hdir : node = .dir ∧ s.entries q = [] := by simpa using hok
      rw [if_pos ⟨rfl, hdir.1 ▸ hnode, hdir.2⟩]
      exact removeIf_gone hs
    · rw [if_neg, rmdir, removeIf_of_not hs]
      rintro ⟨-, hdir, hempty⟩
      exact hs (removeIf_fst.mpr ⟨by simp [hfault], .dir, hdir, by simp [hempty]⟩)
  · rw [if_neg fun h => hq h.1]
    exact removeIf_shrinks.get?_of_not hq

end FileSystem

/-! ## Services -/

section Services

variable {σ τ ι ο : Type*}

/-- The answers to requests made one after another, and the state behind the last. -/
def serveAll (step : σ → ι → ο × σ) : σ → List ι → List ο × σ
  | s, [] => ([], s)
  | s, i :: is =>
    ((step s i).1 :: (serveAll step (step s i).2 is).1, (serveAll step (step s i).2 is).2)

/-- **Refinement of services.**  If a step answers as the abstract one does and makes its step, the
service answers as the abstract one does. -/
theorem serveAll_refines {step : σ → ι → ο × σ} {step' : τ → ι → ο × τ} {I : σ → Prop} {abs : σ → τ}
    (hinv : ∀ s i, I s → I (step s i).2)
    (hstep : ∀ s i, I s → step' (abs s) i = ((step s i).1, abs (step s i).2)) {s : σ} (hs : I s)
    (is : List ι) :
    serveAll step' (abs s) is = ((serveAll step s is).1, abs (serveAll step s is).2) := by
  induction is generalizing s with
  | nil => rfl
  | cons i is ih =>
    rw [serveAll, serveAll, hstep s i hs, ih (hinv s i hs)]

end Services

end McDaemon.Lib
