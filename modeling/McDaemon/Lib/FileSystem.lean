/-
# McDaemon.Lib.FileSystem — a file system with removals that may fail.

A state maps paths to files and directories.  Beside the contents it carries at most one pending
fault, the path whose next removal fails without an effect.  `clearDir` is the usual way to get
rid of a flat directory: remove what is in it, ignoring errors, and then the directory itself.
-/
import Mathlib.Data.List.AList
import Mathlib.Tactic.ByContra
import Mathlib.Tactic.SplitIfs

namespace McDaemon.Lib

universe u

inductive Node
  | file (content : List UInt8)
  | dir
deriving DecidableEq, Repr

/-- Files and directories by path, the names from the root on. -/
structure FileSystem (N : Type u) [DecidableEq N] where
  nodes : AList fun _ : List N => Node
  fault : Option (List N)

namespace FileSystem

variable {N : Type u} [DecidableEq N]

/-! ## Operations -/

def get? (s : FileSystem N) (p : List N) : Option Node := s.nodes.lookup p

def isDir (s : FileSystem N) (p : List N) : Bool := s.get? p = some .dir

def exists? (s : FileSystem N) (p : List N) : Bool := (s.get? p).isSome

/-- The names in a directory, `.` and `..` apart. -/
def entries (s : FileSystem N) (d : List N) : List N :=
  s.nodes.keys.filterMap fun p => if p.dropLast = d then p.getLast? else none

/-- No removal fails any more. -/
def healthy (s : FileSystem N) : FileSystem N := { s with fault := none }

/-- The next removal of `p` fails. -/
def failing (s : FileSystem N) (p : List N) : FileSystem N := { s with fault := some p }

def erase (s : FileSystem N) (p : List N) : FileSystem N := { s with nodes := s.nodes.erase p }

/-- A removal that comes off if `ok` allows it for the node found. -/
def removeIf (ok : Node → Bool) (s : FileSystem N) (p : List N) : Bool × FileSystem N :=
  if s.fault = some p then (false, s.healthy)
  else
    match s.get? p with
    | none => (false, s)
    | some n => if ok n then (true, s.erase p) else (false, s)

/-- `remove`: a file, or a directory with nothing in it. -/
def remove (s : FileSystem N) (p : List N) : Bool × FileSystem N :=
  s.removeIf (fun n => n != .dir || (s.entries p).isEmpty) p

/-- `rmdir`: a directory with nothing in it. -/
def rmdir (s : FileSystem N) (p : List N) : Bool × FileSystem N :=
  s.removeIf (fun n => n == .dir && (s.entries p).isEmpty) p

/-- Write a whole file, which fails on a directory or in a place that is not a directory. -/
def writeFile (s : FileSystem N) (p : List N) (content : List UInt8) : Option (FileSystem N) :=
  if s.isDir p = false ∧ p ≠ [] ∧ s.isDir p.dropLast then
    some { s with nodes := s.nodes.insert p (.file content) }
  else none

/-- Remove the names one after another, ignoring errors; names that `skip` holds of stay. -/
def removeAll (skip : N → Bool) (d : List N) (s : FileSystem N) : List N → FileSystem N
  | [] => s
  | n :: names => removeAll skip d (if skip n then s else (s.remove (d ++ [n])).2) names

/-- Empty a directory and remove it; no directory counts as success. -/
def clearDir (skip : N → Bool) (s : FileSystem N) (d : List N) : Bool × FileSystem N :=
  if s.isDir d then (removeAll skip d s (s.entries d)).rmdir d else (true, s)

/-! ## Lookup -/

theorem mem_entries {s : FileSystem N} {d : List N} {n : N} :
    n ∈ s.entries d ↔ (s.get? (d ++ [n])).isSome := by
  rw [get?, AList.lookup_isSome, entries, List.mem_filterMap, AList.mem_keys]
  constructor
  · rintro ⟨p, hp, hn⟩
    split_ifs at hn with hd
    have hne : p ≠ [] := by
      rintro rfl
      cases hn
    rw [List.getLast?_eq_getLast_of_ne_nil hne] at hn
    rwa [← hd, ← Option.some.inj hn, List.dropLast_append_getLast hne]
  · intro hp
    exact ⟨d ++ [n], hp, by simp⟩

theorem entries_eq_nil {s : FileSystem N} {d : List N} :
    s.entries d = [] ↔ ∀ n, s.get? (d ++ [n]) = none := by
  rw [List.eq_nil_iff_forall_not_mem]
  simp [mem_entries]

@[simp] theorem get?_healthy (s : FileSystem N) (p : List N) : s.healthy.get? p = s.get? p := rfl

@[simp] theorem get?_failing (s : FileSystem N) (f p : List N) :
    (s.failing f).get? p = s.get? p := rfl

theorem get?_erase (s : FileSystem N) (p q : List N) :
    (s.erase p).get? q = if q = p then none else s.get? q := by
  by_cases h : q = p
  · rw [if_pos h, h]
    exact AList.lookup_erase p s.nodes
  · rw [if_neg h]
    exact AList.lookup_erase_ne h

/-- A file that has been written is what was written; the other paths stay. -/
theorem get?_writeFile {s t : FileSystem N} {p : List N} {content : List UInt8}
    (h : s.writeFile p content = some t) (q : List N) :
    t.get? q = if q = p then some (.file content) else s.get? q := by
  unfold writeFile at h
  split_ifs at h with hplace
  obtain rfl := Option.some.inj h
  split_ifs with hq
  · rw [hq]
    exact AList.lookup_insert s.nodes
  · exact AList.lookup_insert_ne hq

theorem nodup_entries (s : FileSystem N) (d : List N) : (s.entries d).Nodup := by
  refine List.Nodup.filterMap (fun p q n hp hq => ?_) s.nodes.nodupKeys
  have hconcat : ∀ r : List N, n ∈ (if r.dropLast = d then r.getLast? else none) → r = d ++ [n] := by
    intro r hr
    split_ifs at hr with hd
    · obtain ⟨init, rfl⟩ := List.getLast?_eq_some_iff.mp hr
      rw [List.dropLast_concat] at hd
      rw [hd]
    · cases hr
  rw [hconcat p hp, hconcat q hq]

/-! ## Shrinking -/

/-- `t` is `s` after some of the paths in `D` have been removed; a fault can only have struck there. -/
structure Shrinks (D : List N → Prop) (s t : FileSystem N) : Prop where
  nodes : ∀ q, t.get? q = s.get? q ∨ D q ∧ t.get? q = none
  fault : t.fault = s.fault ∨ t.fault = none ∧ ∃ q, D q ∧ s.fault = some q

namespace Shrinks

variable {D E : List N → Prop} {s t u : FileSystem N}

theorem refl (D : List N → Prop) (s : FileSystem N) : Shrinks D s s :=
  ⟨fun _ => .inl rfl, .inl rfl⟩

theorem trans (hst : Shrinks D s t) (htu : Shrinks D t u) : Shrinks D s u := by
  constructor
  · intro q
    rcases htu.nodes q with hu | hu
    · rw [hu]
      exact hst.nodes q
    · exact .inr hu
  · rcases htu.fault with hu | ⟨hu, q, hq, ht⟩
    · rw [hu]
      exact hst.fault
    · rcases hst.fault with hs | ⟨hnone, -⟩
      · exact .inr ⟨hu, q, hq, hs ▸ ht⟩
      · rw [hnone] at ht
        cases ht

theorem mono (h : Shrinks D s t) (hDE : ∀ q, D q → E q) : Shrinks E s t where
  nodes := fun q => (h.nodes q).imp_right fun ⟨hq, hn⟩ => ⟨hDE q hq, hn⟩
  fault := h.fault.imp_right fun ⟨hn, q, hq, hs⟩ => ⟨hn, q, hDE q hq, hs⟩

/-- What is left is what was there. -/
theorem get?_of_some (h : Shrinks D s t) {q : List N} {n : Node} (hq : t.get? q = some n) :
    s.get? q = some n := by
  rcases h.nodes q with heq | ⟨-, hnone⟩
  · rw [← heq, hq]
  · rw [hnone] at hq
    cases hq

theorem get?_of_none (h : Shrinks D s t) {q : List N} (hq : s.get? q = none) :
    t.get? q = none := by
  rcases h.nodes q with heq | ⟨-, hnone⟩
  · rw [heq, hq]
  · exact hnone

theorem get?_of_not (h : Shrinks D s t) {q : List N} (hq : ¬ D q) : t.get? q = s.get? q := by
  rcases h.nodes q with heq | ⟨hD, -⟩
  · exact heq
  · exact absurd hD hq

theorem fault_of_none (h : Shrinks D s t) (hs : s.fault = none) : t.fault = none := by
  rcases h.fault with heq | ⟨hnone, -⟩
  · rw [heq, hs]
  · exact hnone

/-- A fault beside `D` is still to come. -/
theorem fault_of_not (h : Shrinks D s t) {q : List N} (hq : ¬ D q) :
    t.fault = some q ↔ s.fault = some q := by
  rcases h.fault with heq | ⟨hnone, r, hr, hs⟩
  · rw [heq]
  · rw [hnone, hs]
    constructor
    · intro hq'
      cases hq'
    · intro hrq
      cases hrq
      exact absurd hr hq

end Shrinks

/-! ## Removals -/

section Removals

variable {ok : Node → Bool} {s : FileSystem N} {p : List N}

/-- A removal comes off or leaves everything in place. -/
theorem removeIf_cases (ok : Node → Bool) (s : FileSystem N) (p : List N) :
    (∃ n, s.fault ≠ some p ∧ s.get? p = some n ∧ ok n = true ∧
      s.removeIf ok p = (true, s.erase p)) ∨
    ((s.fault = some p ∨ ∀ n, s.get? p = some n → ok n = false) ∧
      (s.removeIf ok p).1 = false ∧ ∀ q, (s.removeIf ok p).2.get? q = s.get? q) := by
  unfold removeIf
  by_cases hfault : s.fault = some p
  · rw [if_pos hfault]
    exact .inr ⟨.inl hfault, rfl, fun q => rfl⟩
  · rw [if_neg hfault]
    cases hp : s.get? p with
    | none => exact .inr ⟨.inr fun n hn => (nomatch hn), rfl, fun q => rfl⟩
    | some n =>
      cases hok : ok n with
      | true => exact .inl ⟨n, hfault, rfl, hok, by simp [hok]⟩
      | false =>
        refine .inr ⟨.inr fun m hm => ?_, by simp [hok], fun q => by simp [hok]⟩
        obtain rfl := Option.some.inj hm
        exact hok

/-- A fault on another path is none of this removal's business. -/
theorem removeIf_fault : (s.removeIf ok p).2.fault = if s.fault = some p then none else s.fault := by
  unfold removeIf
  split_ifs with hfault
  · rfl
  · cases s.get? p with
    | none => rfl
    | some n =>
      dsimp only
      split_ifs
      · rfl
      · rfl

theorem removeIf_shrinks : Shrinks (fun q => q = p) s (s.removeIf ok p).2 := by
  constructor
  · intro q
    rcases removeIf_cases ok s p with ⟨n, -, -, -, heq⟩ | ⟨-, -, hsame⟩
    · rw [heq, get?_erase]
      split_ifs with hq
      · exact .inr ⟨hq, rfl⟩
      · exact .inl rfl
    · exact .inl (hsame q)
  · rw [removeIf_fault]
    split_ifs with hfault
    · exact .inr ⟨rfl, p, rfl, hfault⟩
    · exact .inl rfl

theorem removeIf_fst : (s.removeIf ok p).1 = true ↔
    s.fault ≠ some p ∧ ∃ n, s.get? p = some n ∧ ok n = true := by
  rcases removeIf_cases ok s p with ⟨n, hfault, hn, hok, heq⟩ | ⟨hwhy, hfalse, -⟩
  · rw [heq]
    exact ⟨fun _ => ⟨hfault, n, hn, hok⟩, fun _ => rfl⟩
  · rw [hfalse]
    constructor
    · intro h
      cases h
    · rintro ⟨hfault, n, hn, hok⟩
      rcases hwhy with hwhy | hwhy
      · exact absurd hwhy hfault
      · rw [hwhy n hn] at hok
        cases hok

/-- After a removal that came off the path is gone. -/
theorem removeIf_gone (h : (s.removeIf ok p).1 = true) : (s.removeIf ok p).2.get? p = none := by
  rcases removeIf_cases ok s p with ⟨n, -, -, -, heq⟩ | ⟨-, hfalse, -⟩
  · rw [heq, get?_erase, if_pos rfl]
  · rw [hfalse] at h
    cases h

theorem removeIf_of_not (h : ¬ (s.removeIf ok p).1 = true) (q : List N) :
    (s.removeIf ok p).2.get? q = s.get? q := by
  rcases removeIf_cases ok s p with ⟨n, -, -, -, heq⟩ | ⟨-, -, hsame⟩
  · rw [heq] at h
    exact absurd rfl h
  · exact hsame q

/-- A removal of what is no directory. -/
theorem remove_fst_of_not_dir (hp : s.get? p ≠ some .dir) :
    (s.remove p).1 = true ↔ s.fault ≠ some p ∧ (s.get? p).isSome := by
  rw [remove, removeIf_fst]
  apply and_congr_right
  intro _
  cases hn : s.get? p with
  | none => simp
  | some n =>
    cases n with
    | dir => exact absurd hn hp
    | file c => simp

end Removals

/-! ## Clearing a directory -/

section Clearing

variable {skip : N → Bool} {s t : FileSystem N} {d : List N} {n : N}

/-- The entry `n` of `d` goes away when it is removed. -/
structure Removable (skip : N → Bool) (s : FileSystem N) (d : List N) (n : N) : Prop where
  kept : skip n = false
  flat : s.get? (d ++ [n]) = some .dir → s.entries (d ++ [n]) = []

/-- A directory that `clearDir` can get rid of: nothing in it is skipped, and the directories in
it are empty. -/
def Clearable (skip : N → Bool) (s : FileSystem N) (d : List N) : Prop :=
  s.isDir d = true → ∀ n, (s.get? (d ++ [n])).isSome → Removable skip s d n

omit [DecidableEq N] in
theorem concat_ne_concat {m : N} (h : n ≠ m) : d ++ [n] ≠ d ++ [m] := by
  intro heq
  exact h (List.singleton_inj.mp (List.append_cancel_left heq))

omit [DecidableEq N] in
theorem concat_ne_self : d ++ [n] ≠ d := by
  intro heq
  have hlen := congrArg List.length heq
  simp at hlen

/-- Entries one level down only matter to the directory that they are in. -/
theorem entries_congr (h : ∀ m, s.get? (d ++ [m]) = t.get? (d ++ [m])) :
    s.entries d = [] ↔ t.entries d = [] := by
  rw [entries_eq_nil, entries_eq_nil]
  simp only [h]

theorem Removable.congr (hn : s.get? (d ++ [n]) = t.get? (d ++ [n]))
    (hbelow : ∀ m, s.get? (d ++ [n] ++ [m]) = t.get? (d ++ [n] ++ [m])) :
    Removable skip s d n ↔ Removable skip t d n := by
  constructor
  · rintro ⟨hkept, hflat⟩
    exact ⟨hkept, fun hdir => (entries_congr hbelow).mp (hflat (hn ▸ hdir))⟩
  · rintro ⟨hkept, hflat⟩
    exact ⟨hkept, fun hdir => (entries_congr hbelow).mpr (hflat (hn ▸ hdir))⟩

theorem Clearable.congr (hd : s.get? d = t.get? d)
    (hin : ∀ m, s.get? (d ++ [m]) = t.get? (d ++ [m]))
    (hbelow : ∀ n m, s.get? (d ++ [n] ++ [m]) = t.get? (d ++ [n] ++ [m])) :
    Clearable skip s d ↔ Clearable skip t d := by
  unfold Clearable isDir
  rw [hd]
  refine imp_congr_right fun _ => forall_congr' fun n => ?_
  rw [hin n]
  exact imp_congr_right fun _ => Removable.congr (hin n) (hbelow n)

/-- What can be cleared does not depend on the fault. -/
theorem clearable_failing {f : List N} : Clearable skip (s.failing f) d ↔ Clearable skip s d :=
  Clearable.congr rfl (fun _ => rfl) fun _ _ => rfl

theorem clearable_healthy : Clearable skip s.healthy d ↔ Clearable skip s d :=
  Clearable.congr rfl (fun _ => rfl) fun _ _ => rfl

theorem removeAll_shrinks (skip : N → Bool) (s : FileSystem N) (d : List N) (names : List N) :
    Shrinks (fun q => ∃ n, q = d ++ [n]) s (removeAll skip d s names) := by
  induction names generalizing s with
  | nil => exact .refl _ s
  | cons n names ih =>
    refine .trans ?_ (ih _)
    split_ifs
    · exact .refl _ s
    · exact removeIf_shrinks.mono fun q hq => ⟨n, hq⟩

theorem clearDir_shrinks (skip : N → Bool) (s : FileSystem N) (d : List N) :
    Shrinks (fun q => q = d ∨ ∃ n, q = d ++ [n]) s (clearDir skip s d).2 := by
  unfold clearDir
  split_ifs
  · exact ((removeAll_shrinks skip s d _).mono fun q hq => .inr hq).trans
      (removeIf_shrinks.mono fun q hq => .inl hq)
  · exact .refl _ s

theorem get?_removeAll_of_not_mem {names : List N} (h : n ∉ names) :
    (removeAll skip d s names).get? (d ++ [n]) = s.get? (d ++ [n]) := by
  induction names generalizing s with
  | nil => rfl
  | cons m names ih =>
    rw [List.mem_cons, not_or] at h
    rw [removeAll, ih h.2]
    split_ifs
    · rfl
    · exact removeIf_shrinks.get?_of_not (concat_ne_concat h.1)

/-- What is left of the names after they have been removed one after another. -/
theorem get?_removeAll {names : List N} (hnodup : names.Nodup) (hn : n ∈ names) :
    (removeAll skip d s names).get? (d ++ [n]) = none ↔
      s.get? (d ++ [n]) = none ∨ Removable skip s d n ∧ s.fault ≠ some (d ++ [n]) := by
  induction names generalizing s with
  | nil => cases hn
  | cons m names ih =>
    obtain ⟨hm, hnodup⟩ := List.nodup_cons.mp hnodup
    rw [removeAll]
    rcases List.mem_cons.mp hn with rfl | hn
    · -- its own turn; later names leave it alone
      rw [get?_removeAll_of_not_mem hm]
      split_ifs with hskip
      · constructor
        · exact .inl
        · rintro (hnone | ⟨hrem, -⟩)
          · exact hnone
          · rw [hrem.kept] at hskip
            cases hskip
      · have hkept : skip n = false := Bool.eq_false_iff.mpr hskip
        rcases removeIf_cases (fun x => x != .dir || (s.entries (d ++ [n])).isEmpty) s (d ++ [n])
          with ⟨x, hfault, hx, hok, heq⟩ | ⟨hwhy, -, hsame⟩
        · rw [remove, heq, get?_erase, if_pos rfl]
          refine ⟨fun _ => .inr ⟨⟨hkept, fun hdir => ?_⟩, hfault⟩, fun _ => rfl⟩
          rw [hx] at hdir
          obtain rfl := Option.some.inj hdir
          simpa using hok
        · rw [remove, hsame]
          constructor
          · exact .inl
          · rintro (hnone | ⟨hrem, hfault⟩)
            · exact hnone
            · rcases hwhy with hwhy | hwhy
              · exact absurd hwhy hfault
              · cases hx : s.get? (d ++ [n]) with
                | none => rfl
                | some x =>
                  have hok := hwhy x hx
                  cases x with
                  | file c => cases hok
                  | dir =>
                    rw [hrem.flat hx] at hok
                    cases hok
    · -- another name's turn first
      have hne : n ≠ m := fun heq => hm (heq ▸ hn)
      rw [ih hnodup hn]
      split_ifs
      · exact Iff.rfl
      · have hother : ∀ q, q ≠ d ++ [m] → (s.remove (d ++ [m])).2.get? q = s.get? q :=
          fun q hq => removeIf_shrinks.get?_of_not hq
        have hfault : (s.remove (d ++ [m])).2.fault ≠ some (d ++ [n]) ↔
            s.fault ≠ some (d ++ [n]) := by
          rw [remove, removeIf_fault]
          split_ifs with hf
          · rw [hf]
            simp [Ne.symm hne]
          · exact Iff.rfl
        rw [hother _ (concat_ne_concat hne), hfault]
        refine or_congr Iff.rfl (and_congr (Removable.congr (hother _ (concat_ne_concat hne))
          fun k => hother _ fun heq => ?_) Iff.rfl)
        have hlen := congrArg List.length heq
        simp at hlen

theorem removeAll_fault {names : List N} {q : List N} (hq : ∀ n, q ≠ d ++ [n]) :
    (removeAll skip d s names).fault = some q ↔ s.fault = some q :=
  (removeAll_shrinks skip s d names).fault_of_not fun ⟨n, hn⟩ => hq n hn

/-- The pending fault is on the directory or on something in it. -/
def Hit (s : FileSystem N) (d : List N) : Prop :=
  s.isDir d = true ∧
    (s.fault = some d ∨ ∃ n, (s.get? (d ++ [n])).isSome ∧ s.fault = some (d ++ [n]))

theorem not_hit (h : s.fault = none) : ¬ Hit s d := by
  rintro ⟨-, hfault | ⟨n, -, hfault⟩⟩
  · rw [h] at hfault
    cases hfault
  · rw [h] at hfault
    cases hfault

/-- **Clearing.** A directory is cleared exactly when it is clearable and the fault is elsewhere. -/
theorem clearDir_fst :
    (clearDir skip s d).1 = true ↔ Clearable skip s d ∧ ¬ Hit s d := by
  unfold clearDir Clearable Hit
  cases hdir : s.isDir d
  · simp
  · have hnode : (removeAll skip d s (s.entries d)).get? d = some .dir := by
      rw [(removeAll_shrinks skip s d _).get?_of_not fun ⟨n, hn⟩ => concat_ne_self hn.symm]
      simpa [isDir] using hdir
    have hempty : (removeAll skip d s (s.entries d)).entries d = [] ↔
        ∀ n, (s.get? (d ++ [n])).isSome →
          Removable skip s d n ∧ s.fault ≠ some (d ++ [n]) := by
      rw [entries_eq_nil]
      refine forall_congr' fun n => ?_
      by_cases hn : n ∈ s.entries d
      · rw [get?_removeAll (nodup_entries s d) hn]
        rw [mem_entries, Option.isSome_iff_ne_none] at hn
        simp [hn, Option.isSome_iff_ne_none]
      · rw [get?_removeAll_of_not_mem hn]
        rw [mem_entries, Option.not_isSome_iff_eq_none] at hn
        simp [hn]
    rw [if_pos rfl, rmdir, removeIf_fst, Ne, removeAll_fault fun n => concat_ne_self.symm]
    simp only [hnode, Option.some.injEq, exists_eq_left', beq_self_eq_true, Bool.true_and,
      List.isEmpty_iff, hempty, true_implies, true_and, not_or, not_exists, not_and]
    constructor
    · rintro ⟨hd, hall⟩
      exact ⟨fun n hn => (hall n hn).1, hd, fun n hn => (hall n hn).2⟩
    · rintro ⟨hall, hd, hfault⟩
      exact ⟨hd, fun n hn => ⟨hall n hn, hfault n hn⟩⟩

theorem isDir_of_clearDir (h : (clearDir skip s d).1 = true) :
    (clearDir skip s d).2.isDir d = false := by
  unfold clearDir at h ⊢
  split_ifs at h ⊢ with hdir
  · have hgone : (rmdir (removeAll skip d s (s.entries d)) d).2.get? d = none := removeIf_gone h
    simp [isDir, hgone]
  · exact Bool.eq_false_iff.mpr hdir

/-- Clearing, whether it comes off or not, does not change what can be cleared. -/
theorem clearable_clearDir :
    Clearable skip (clearDir skip s d).2 d ↔ Clearable skip s d := by
  by_cases hok : (clearDir skip s d).1 = true
  · refine ⟨fun _ => (clearDir_fst.mp hok).1, fun _ hdir => ?_⟩
    rw [isDir_of_clearDir hok] at hdir
    cases hdir
  · obtain ⟨u, hu⟩ : ∃ u, u = removeAll skip d s (s.entries d) := ⟨_, rfl⟩
    have hdir : s.isDir d = true := by
      by_contra hdir
      exact hok (by rw [clearDir, if_neg hdir])
    have ht : ∀ q, (clearDir skip s d).2.get? q = u.get? q := by
      rw [clearDir, if_pos hdir, ← hu] at hok ⊢
      exact removeIf_of_not hok
    have hshrinks : Shrinks (fun q => ∃ n, q = d ++ [n]) s u := hu ▸ removeAll_shrinks skip s d _
    have hbelow : ∀ n m, u.get? (d ++ [n] ++ [m]) = s.get? (d ++ [n] ++ [m]) := fun n m =>
      hshrinks.get?_of_not fun ⟨k, hk⟩ => by
        have hlen := congrArg List.length hk
        simp at hlen
    have hself : u.get? d = s.get? d :=
      hshrinks.get?_of_not fun ⟨k, hk⟩ => concat_ne_self hk.symm
    rw [Clearable.congr (ht d) (fun m => ht _) (fun n m => ht _)]
    have hudir : u.isDir d = true := by rwa [isDir, hself]
    unfold Clearable
    rw [hdir, hudir]
    refine imp_congr_right fun _ => forall_congr' fun n => ?_
    cases hun : u.get? (d ++ [n]) with
    | some x =>
      have hsn := hshrinks.get?_of_some hun
      rw [hsn]
      exact imp_congr_right fun _ => Removable.congr (hun.trans hsn.symm) (hbelow n)
    | none =>
      refine ⟨fun _ hsn => ?_, fun _ hnone => nomatch hnone⟩
      have hn : n ∈ s.entries d := mem_entries.mpr hsn
      rw [hu, get?_removeAll (nodup_entries s d) hn] at hun
      rcases hun with hun | ⟨hrem, -⟩
      · rw [hun] at hsn
        cases hsn
      · exact hrem

end Clearing

end FileSystem

/-! ## One after another -/

section WhileOk

variable {σ α ρ : Type*} [DecidableEq ρ]

/-- Run `step` on one item after another until one of them does not give `ok`. -/
def whileOk (ok : ρ) (step : σ → α → ρ × σ) (s : σ) : List α → ρ × σ
  | [] => (ok, s)
  | x :: xs => if (step s x).1 = ok then whileOk ok step (step s x).2 xs else step s x

variable {ok : ρ} {step : σ → α → ρ × σ} {R : σ → σ → Prop}

/-- What every step keeps is kept by all of them. -/
theorem whileOk_rel (hrefl : ∀ s, R s s) (htrans : ∀ s t u, R s t → R t u → R s u) {xs : List α}
    (hstep : ∀ s, ∀ x ∈ xs, R s (step s x).2) (s : σ) : R s (whileOk ok step s xs).2 := by
  induction xs generalizing s with
  | nil => exact hrefl s
  | cons x xs ih =>
    have hx := hstep s x List.mem_cons_self
    rw [whileOk]
    split_ifs
    · exact htrans _ _ _ hx (ih (fun t y hy => hstep t y (List.mem_cons_of_mem x hy)) _)
    · exact hx

/-- If all went well, each item went well in some state on the way. -/
theorem whileOk_ok (hrefl : ∀ s, R s s) (htrans : ∀ s t u, R s t → R t u → R s u) {xs : List α}
    (hstep : ∀ s, ∀ x ∈ xs, R s (step s x).2) {s : σ} (h : (whileOk ok step s xs).1 = ok) :
    ∀ x ∈ xs, ∃ u, R s u ∧ (step u x).1 = ok ∧ R (step u x).2 (whileOk ok step s xs).2 := by
  induction xs generalizing s with
  | nil =>
    intro x hx
    cases hx
  | cons y ys ih =>
    intro x hx
    have hrest : ∀ s, ∀ z ∈ ys, R s (step s z).2 := fun t z hz =>
      hstep t z (List.mem_cons_of_mem y hz)
    rw [whileOk] at h ⊢
    split_ifs at h ⊢ with hy
    · rcases List.mem_cons.mp hx with rfl | hx
      · exact ⟨s, hrefl s, hy, whileOk_rel hrefl htrans hrest _⟩
      · obtain ⟨u, hu, hok, hlast⟩ := ih hrest h x hx
        exact ⟨u, htrans _ _ _ (hstep s y List.mem_cons_self) hu, hok, hlast⟩
    · exact absurd h hy

/-- **All went well** exactly when each item was ready at the start and none comes twice, if a step
only takes its own item's readiness away. -/
theorem whileOk_fst {I : σ → Prop} {P : σ → α → Prop} {xs : List α}
    (hstep : ∀ s, I s → ∀ x ∈ xs, ((step s x).1 = ok ↔ P s x))
    (hinv : ∀ s, I s → ∀ x ∈ xs, I (step s x).2)
    (hframe : ∀ s, I s → ∀ x ∈ xs, P s x → ∀ y ∈ xs,
      (P (step s x).2 y ↔ y ≠ x ∧ P s y))
    {s : σ} (hs : I s) :
    (whileOk ok step s xs).1 = ok ↔ xs.Nodup ∧ ∀ x ∈ xs, P s x := by
  induction xs generalizing s with
  | nil => simp [whileOk]
  | cons x xs ih =>
    have hx := hstep s hs x List.mem_cons_self
    rw [whileOk, List.nodup_cons]
    split_ifs with hok
    · have hready := hx.mp hok
      rw [ih (fun t ht y hy => hstep t ht y (List.mem_cons_of_mem x hy))
        (fun t ht y hy => hinv t ht y (List.mem_cons_of_mem x hy))
        (fun t ht y hy hry z hz => hframe t ht y (List.mem_cons_of_mem x hy) hry z
          (List.mem_cons_of_mem x hz))
        (hinv s hs x List.mem_cons_self)]
      have hrest := hframe s hs x List.mem_cons_self hready
      constructor
      · rintro ⟨hnodup, hall⟩
        have hall' := fun y hy => (hrest y (List.mem_cons_of_mem x hy)).mp (hall y hy)
        refine ⟨⟨fun hmem => (hall' x hmem).1 rfl, hnodup⟩, fun y hy => ?_⟩
        rcases List.mem_cons.mp hy with rfl | hy
        · exact hready
        · exact (hall' y hy).2
      · rintro ⟨⟨hfresh, hnodup⟩, hall⟩
        refine ⟨hnodup, fun y hy => (hrest y (List.mem_cons_of_mem x hy)).mpr ⟨?_, ?_⟩⟩
        · rintro rfl
          exact hfresh hy
        · exact hall y (List.mem_cons_of_mem x hy)
    · constructor
      · intro h
        exact absurd h hok
      · rintro ⟨-, hall⟩
        exact absurd (hx.mpr (hall x List.mem_cons_self)) hok

end WhileOk

end McDaemon.Lib
