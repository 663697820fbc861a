/-
# McDaemon.Lib.KeyedList — lists whose entries are looked up by a key.

The first entry with a key is the one that is found and changed.  What is read back after a change,
a filter or an append is stated by key.  Two lists that look alike through some function find alike
entries, as long as this function tells the key.
-/
import Mathlib.Data.List.Nodup
import Mathlib.Tactic.SplitIfs

namespace McDaemon.Lib.KeyedList

universe u v w

variable {α : Type u} {κ : Type v} [DecidableEq κ] (key : α → κ)

/-- The first entry with a key. -/
def get (k : κ) (l : List α) : Option α := l.find? (key · = k)

/-- Change the first entry with a key. -/
def modify (k : κ) (f : α → α) : List α → List α
  | [] => []
  | a :: l => if key a = k then f a :: l else a :: modify k f l

variable {key}

@[simp] theorem get_nil (k : κ) : get key k [] = none := rfl

theorem get_cons (k : κ) (a : α) (l : List α) :
    get key k (a :: l) = if key a = k then some a else get key k l := by
  by_cases h : key a = k <;> simp [get, h]

theorem mem_of_get {k : κ} {l : List α} {a : α} (h : get key k l = some a) : a ∈ l ∧ key a = k :=
  ⟨List.mem_of_find?_eq_some h, by simpa using List.find?_some h⟩

theorem get_eq_none_iff {k : κ} {l : List α} : get key k l = none ↔ k ∉ l.map key := by
  simp [get, List.find?_eq_none]

theorem get_append (k : κ) (l m : List α) : get key k (l ++ m) = (get key k l).or (get key k m) :=
  List.find?_append

theorem get_eq_some_iff {l : List α} (h : (l.map key).Nodup) {k : κ} {a : α} :
    get key k l = some a ↔ a ∈ l ∧ key a = k := by
  refine ⟨mem_of_get, ?_⟩
  rintro ⟨ha, rfl⟩
  cases hget : get key (key a) l with
  | none => exact absurd (List.mem_map_of_mem ha) (get_eq_none_iff.mp hget)
  | some b =>
    obtain ⟨hb, hkey⟩ := mem_of_get hget
    rw [List.inj_on_of_nodup_map h hb ha hkey]

theorem get_filter {l : List α} (h : (l.map key).Nodup) (p : α → Bool) (k : κ) :
    get key k (l.filter p) = (get key k l).filter p := by
  have hnodup : ((l.filter p).map key).Nodup := h.sublist (List.Sublist.map _ List.filter_sublist)
  ext a
  rw [get_eq_some_iff hnodup, Option.filter_eq_some_iff, get_eq_some_iff h, List.mem_filter]
  tauto

theorem get_modify {f : α → α} (hf : ∀ a, key (f a) = key a) (j k : κ) (l : List α) :
    get key j (modify key k f l) = if j = k then (get key j l).map f else get key j l := by
  induction l with
  | nil => simp [modify]
  | cons a l ih =>
    unfold modify
    by_cases hk : key a = k
    · rw [if_pos hk, get_cons, get_cons, hf]
      by_cases hj : key a = j
      · rw [if_pos hj, if_pos hj, if_pos (hj.symm.trans hk)]
        rfl
      · rw [if_neg hj, if_neg hj, if_neg fun hjk => hj (hk.trans hjk.symm)]
    · rw [if_neg hk, get_cons, get_cons, ih]
      by_cases hj : key a = j
      · rw [if_pos hj, if_pos hj, if_neg fun hjk => hk (hj.trans hjk)]
      · rw [if_neg hj, if_neg hj]

/-- A change that does not show through `g` where it happens does not show at all. -/
theorem map_modify {β : Type w} {g : α → β} {f : α → α} {k : κ} {l : List α}
    (hg : ∀ a, get key k l = some a → g (f a) = g a) : (modify key k f l).map g = l.map g := by
  induction l with
  | nil => rfl
  | cons a l ih =>
    unfold modify
    by_cases hk : key a = k
    · rw [if_pos hk, List.map_cons, List.map_cons, hg a ((get_cons k a l).trans (if_pos hk))]
    · rw [if_neg hk, List.map_cons, List.map_cons, ih]
      intro b hb
      exact hg b (((get_cons k a l).trans (if_neg hk)).trans hb)

/-- An entry under another key of the same list. -/
theorem get_map {β : Type w} {other : β → κ} {g : α → β} (hg : ∀ a, other (g a) = key a) (k : κ)
    (l : List α) : get other k (l.map g) = (get key k l).map g := by
  induction l with
  | nil => rfl
  | cons a l ih =>
    rw [List.map_cons, get_cons, get_cons, hg, ih]
    split_ifs <;> rfl

/-- Lists that look alike find alike entries. -/
theorem get_congr {β : Type w} {other : β → κ} {g : α → β} (hg : ∀ a, other (g a) = key a)
    {l m : List α} (h : l.map g = m.map g) (k : κ) :
    (get key k l).map g = (get key k m).map g := by
  rw [← get_map hg, ← get_map hg, h]

end McDaemon.Lib.KeyedList
