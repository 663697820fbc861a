/-
# McDaemon.Lib.PtrList — a list of pointers to heap objects, with the objects' contents.

A list of owning pointers is modelled by the objects in list order, each under the name its
pointer has.  Names are never used twice, so a name also tells an object that is gone from one
that was created later, possibly at the same address.  That the names are distinct and older than
the next one is part of the structure, so no operation can alias two objects of the list.
-/
import Mathlib.Data.List.Nodup

namespace McDaemon.Lib

universe u

/-- Pointers in list order with the objects they point to. -/
structure PtrList (α : Type u) where
  entries : List (Nat × α)
  fresh : Nat
  nodup : (entries.map Prod.fst).Nodup
  lt_fresh : ∀ e ∈ entries, e.1 < fresh

namespace PtrList

variable {α : Type u}

/-- No object, and no name used yet. -/
def empty : PtrList α where
  entries := []
  fresh := 0
  nodup := List.nodup_nil
  lt_fresh := by simp

/-- Dereference a pointer; `none` when the object is not in the list (any more). -/
def get? (l : PtrList α) (p : Nat) : Option α := l.entries.lookup p

/-- The first pointer, from the front, to an object that satisfies `q`. -/
def find? (l : PtrList α) (q : α → Bool) : Option Nat :=
  (l.entries.find? fun e => q e.2).map Prod.fst

/-- The first pointer, from the back, to an object that satisfies `q`. -/
def findRev? (l : PtrList α) (q : α → Bool) : Option Nat :=
  (l.entries.reverse.find? fun e => q e.2).map Prod.fst

/-- How many objects of the list satisfy `q`. -/
def count (l : PtrList α) (q : α → Bool) : Nat := l.entries.countP fun e => q e.2

/-- Allocate an object and append its pointer; the pointer is `l.fresh`. -/
def push (l : PtrList α) (a : α) : PtrList α where
  entries := l.entries ++ [(l.fresh, a)]
  fresh := l.fresh + 1
  nodup := by
    have hnew : l.fresh ∉ l.entries.map Prod.fst := by
      intro h
      obtain ⟨e, he, heq⟩ := List.mem_map.mp h
      exact absurd (l.lt_fresh e he) (by omega)
    simpa [List.nodup_append] using ⟨l.nodup, fun p a hp heq => hnew (heq ▸ List.mem_map.mpr
      ⟨(p, a), hp, rfl⟩)⟩
  lt_fresh := by
    intro e he
    rcases List.mem_append.mp he with he | he
    · have := l.lt_fresh e he
      omega
    · simp only [List.mem_singleton] at he
      subst he
      exact Nat.lt_succ_self _

/-- Write through a pointer. -/
def modify (l : PtrList α) (p : Nat) (f : α → α) : PtrList α where
  entries := l.entries.map fun e => if e.1 = p then (e.1, f e.2) else e
  fresh := l.fresh
  nodup := by
    have hkeys : (l.entries.map fun e => if e.1 = p then (e.1, f e.2) else e).map Prod.fst =
        l.entries.map Prod.fst := by
      rw [List.map_map]
      exact List.map_congr_left fun e _ => by by_cases h : e.1 = p <;> simp [h]
    rw [hkeys]
    exact l.nodup
  lt_fresh := by
    intro e he
    obtain ⟨e', he', rfl⟩ := List.mem_map.mp he
    have := l.lt_fresh e' he'
    by_cases h : e'.1 = p <;> simpa [h] using this

/-- Take a pointer off the list and free its object. -/
def remove (l : PtrList α) (p : Nat) : PtrList α where
  entries := l.entries.filter fun e => e.1 ≠ p
  fresh := l.fresh
  nodup := l.nodup.sublist (List.Sublist.map _ List.filter_sublist)
  lt_fresh := fun e he => l.lt_fresh e (List.mem_of_mem_filter he)

/-! ## Dereferencing after an operation -/

@[simp] theorem fresh_push (l : PtrList α) (a : α) : (l.push a).fresh = l.fresh + 1 := rfl

@[simp] theorem fresh_modify (l : PtrList α) (p : Nat) (f : α → α) :
    (l.modify p f).fresh = l.fresh := rfl

@[simp] theorem fresh_remove (l : PtrList α) (p : Nat) : (l.remove p).fresh = l.fresh := rfl

@[simp] theorem get?_empty (p : Nat) : (empty : PtrList α).get? p = none := rfl

theorem get?_eq_some_iff (l : PtrList α) (p : Nat) (a : α) :
    l.get? p = some a ↔ (p, a) ∈ l.entries := by
  have key : ∀ es : List (Nat × α), (es.map Prod.fst).Nodup →
      (es.lookup p = some a ↔ (p, a) ∈ es) := by
    intro es
    induction es with
    | nil => simp
    | cons e es ih =>
      obtain ⟨q, b⟩ := e
      intro hn
      simp only [List.map_cons, List.nodup_cons] at hn
      by_cases hpq : p = q
      · subst hpq
        have hnot : (p, a) ∉ es := fun h => hn.1 (List.mem_map.mpr ⟨_, h, rfl⟩)
        simp [hnot, eq_comm]
      · have hbeq : (p == q) = false := by simpa using hpq
        simp [List.lookup_cons, hbeq, ih hn.2, hpq]
  exact key l.entries l.nodup

theorem lt_fresh_of_get? {l : PtrList α} {p : Nat} {a : α} (h : l.get? p = some a) :
    p < l.fresh :=
  l.lt_fresh _ ((l.get?_eq_some_iff p a).mp h)

@[simp] theorem get?_fresh (l : PtrList α) : l.get? l.fresh = none := by
  cases h : l.get? l.fresh with
  | none => rfl
  | some a => exact absurd (lt_fresh_of_get? h) (Nat.lt_irrefl _)

theorem get?_push (l : PtrList α) (a : α) (q : Nat) :
    (l.push a).get? q = if q = l.fresh then some a else l.get? q := by
  have h : (l.entries ++ [(l.fresh, a)]).lookup q =
      (l.entries.lookup q).or ([(l.fresh, a)].lookup q) := List.lookup_append
  by_cases hq : q = l.fresh
  · subst hq
    have hnone : l.entries.lookup l.fresh = none := l.get?_fresh
    simpa [get?, push, hnone] using h
  · have hbeq : (q == l.fresh) = false := by simpa using hq
    simpa [get?, push, hq, List.lookup_cons, hbeq] using h

theorem get?_modify (l : PtrList α) (p q : Nat) (f : α → α) :
    (l.modify p f).get? q = if q = p then (l.get? q).map f else l.get? q := by
  have key : ∀ es : List (Nat × α),
      (es.map fun e => if e.1 = p then (e.1, f e.2) else e).lookup q =
        if q = p then (es.lookup q).map f else es.lookup q := by
    intro es
    induction es with
    | nil => simp
    | cons e es ih =>
      obtain ⟨r, b⟩ := e
      by_cases hqr : q = r
      · subst hqr
        by_cases hp : q = p <;> simp [hp]
      · have hbeq : (q == r) = false := by simpa using hqr
        by_cases hr : r = p
        · subst hr
          simp [List.lookup_cons, hbeq, ih]
        · simp [List.lookup_cons, hr, hbeq, ih]
  exact key l.entries

theorem get?_remove (l : PtrList α) (p q : Nat) :
    (l.remove p).get? q = if q = p then none else l.get? q := by
  have hiff : ∀ a, (l.remove p).get? q = some a ↔ q ≠ p ∧ l.get? q = some a := by
    intro a
    rw [get?_eq_some_iff, get?_eq_some_iff]
    simp [remove, and_comm]
  by_cases hq : q = p
  · rw [if_pos hq]
    exact Option.eq_none_iff_forall_ne_some.mpr fun a h => ((hiff a).mp h).1 hq
  · rw [if_neg hq]
    ext a
    simp [hiff, hq]

/-! ## Searching -/

theorem find?_spec {l : PtrList α} {q : α → Bool} {p : Nat} (h : l.find? q = some p) :
    ∃ a, l.get? p = some a ∧ q a = true := by
  obtain ⟨e, he, rfl⟩ := Option.map_eq_some_iff.mp h
  exact ⟨e.2, (l.get?_eq_some_iff _ _).mpr (List.mem_of_find?_eq_some he),
    List.find?_some (p := fun e : Nat × α => q e.2) he⟩

theorem findRev?_spec {l : PtrList α} {q : α → Bool} {p : Nat} (h : l.findRev? q = some p) :
    ∃ a, l.get? p = some a ∧ q a = true := by
  obtain ⟨e, he, rfl⟩ := Option.map_eq_some_iff.mp h
  exact ⟨e.2, (l.get?_eq_some_iff _ _).mpr (List.mem_reverse.mp (List.mem_of_find?_eq_some he)),
    List.find?_some (p := fun e : Nat × α => q e.2) he⟩

theorem find?_eq_none_iff (l : PtrList α) (q : α → Bool) :
    l.find? q = none ↔ ∀ p a, l.get? p = some a → q a = false := by
  simp only [find?, Option.map_eq_none_iff, List.find?_eq_none, get?_eq_some_iff, Prod.forall,
    Bool.not_eq_true]

/-! ## Counting -/

private theorem countP_map_ite (es : List (Nat × α)) (p : Nat) (f : α → α) (q : α → Bool)
    (hf : ∀ e ∈ es, e.1 = p → q (f e.2) = q e.2) :
    ((es.map fun e => if e.1 = p then (e.1, f e.2) else e).countP fun e => q e.2) =
      es.countP fun e => q e.2 := by
  rw [List.countP_map]
  refine List.countP_congr fun e he => ?_
  by_cases hp : e.1 = p
  · simp [hp, hf e he hp]
  · simp [hp]

/-- A write that does not change whether the object counts. -/
theorem count_modify_eq {l : PtrList α} {p : Nat} {f : α → α} {q : α → Bool}
    (hf : ∀ a, l.get? p = some a → q (f a) = q a) : (l.modify p f).count q = l.count q := by
  refine countP_map_ite l.entries p f q fun e he hp => ?_
  exact hf e.2 ((l.get?_eq_some_iff p e.2).mpr (hp ▸ he))

/-- The object that `p` points to splits the list. -/
theorem entries_split {l : PtrList α} {p : Nat} {a : α} (h : l.get? p = some a) :
    ∃ es es', l.entries = es ++ (p, a) :: es' ∧ (∀ e ∈ es, e.1 ≠ p) ∧ ∀ e ∈ es', e.1 ≠ p := by
  obtain ⟨es, es', hsplit⟩ := List.append_of_mem ((l.get?_eq_some_iff p a).mp h)
  have hnodup := l.nodup
  rw [hsplit, List.map_append, List.map_cons, List.nodup_append] at hnodup
  obtain ⟨-, htail, hdisj⟩ := hnodup
  refine ⟨es, es', hsplit, fun e he heq => ?_, fun e he heq => ?_⟩
  · exact hdisj e.1 (List.mem_map.mpr ⟨e, he, rfl⟩) p List.mem_cons_self heq
  · exact (List.nodup_cons.mp htail).1 (List.mem_map.mpr ⟨e, he, heq⟩)

theorem count_eq_zero_iff (l : PtrList α) (q : α → Bool) :
    l.count q = 0 ↔ ∀ p a, l.get? p = some a → q a = false := by
  simp only [count, List.countP_eq_zero, get?_eq_some_iff, Prod.forall, Bool.not_eq_true]

theorem count_push (l : PtrList α) (a : α) (q : α → Bool) :
    (l.push a).count q = l.count q + if q a then 1 else 0 := by
  simp only [count, push, List.countP_append, List.countP_singleton]

/-- A write to one object: it counts as it did before, or as it does after. -/
theorem count_modify {l : PtrList α} {p : Nat} {a : α} (f : α → α) (q : α → Bool)
    (h : l.get? p = some a) :
    (l.modify p f).count q + (if q a then 1 else 0) = l.count q + if q (f a) then 1 else 0 := by
  obtain ⟨es, es', hsplit, hes, hes'⟩ := entries_split h
  have hleft := countP_map_ite es p f q fun e he hp => absurd hp (hes e he)
  have hright := countP_map_ite es' p f q fun e he hp => absurd hp (hes' e he)
  simp only [count, modify, hsplit, List.map_append, List.map_cons, List.countP_append,
    List.countP_cons, hleft, hright, if_true]
  omega

/-- A write after which the object no longer counts. -/
theorem count_modify_lt {l : PtrList α} {p : Nat} {a : α} {f : α → α} {q : α → Bool}
    (h : l.get? p = some a) (ha : q a = true) (hf : q (f a) = false) :
    (l.modify p f).count q + 1 = l.count q := by
  obtain ⟨es, es', hsplit, hes, hes'⟩ := entries_split h
  have hleft := countP_map_ite es p f q fun e he hp => absurd hp (hes e he)
  have hright := countP_map_ite es' p f q fun e he hp => absurd hp (hes' e he)
  simp only [count, modify, hsplit, List.map_append, List.map_cons, List.countP_append,
    List.countP_cons, hleft, hright, if_true, ha, hf]
  simp only [Bool.false_eq_true, if_false]
  omega

/-- Removing an object that counts, and one that does not. -/
theorem count_remove {l : PtrList α} {p : Nat} {a : α} {q : α → Bool} (h : l.get? p = some a) :
    (l.remove p).count q + (if q a then 1 else 0) = l.count q := by
  obtain ⟨es, es', hsplit, hes, hes'⟩ := entries_split h
  have hleft : (es.filter fun e => e.1 ≠ p) = es :=
    List.filter_eq_self.mpr fun e he => decide_eq_true (hes e he)
  have hright : (es'.filter fun e => e.1 ≠ p) = es' :=
    List.filter_eq_self.mpr fun e he => decide_eq_true (hes' e he)
  simp only [count, remove, hsplit, List.filter_append, List.filter_cons, hleft, hright,
    List.countP_append, List.countP_cons]
  simp only [ne_eq, not_true_eq_false, decide_false, Bool.false_eq_true, if_false]
  omega

end PtrList

end McDaemon.Lib
