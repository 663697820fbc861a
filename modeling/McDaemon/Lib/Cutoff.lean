/-
# McDaemon.Lib.Cutoff — lists that are worked through up to the first element that stops.

Whether an element stops the work may depend on what has gone before it.  What two such runs leave
behind is compared element by element: it is the same exactly when every element that leaves
something is reached by both.
-/
import Mathlib.Data.List.Basic

namespace McDaemon.Lib

universe u v

variable {α : Type u} {β : Type v}

/-- The elements up to the first that stops, that one included. -/
def upTo (stops : List α → α → Bool) : List α → List α → List α
  | _, [] => []
  | before, a :: rest => a :: if stops before a then [] else upTo stops (before ++ [a]) rest

/-- None of the elements stops, when those of `before` have gone before them. -/
def Passed (stops : List α → α → Bool) : List α → List α → Prop
  | _, [] => True
  | before, a :: rest => stops before a = false ∧ Passed stops (before ++ [a]) rest

section Reach

variable {p q : List α → α → Bool} {before pre l : List α} {a : α}

@[simp] theorem upTo_nil : upTo p before [] = [] := rfl

theorem upTo_cons_of_stops (h : p before a = true) : upTo p before (a :: l) = [a] := by
  simp [upTo, h]

theorem upTo_cons_of_passes (h : p before a = false) :
    upTo p before (a :: l) = a :: upTo p (before ++ [a]) l := by
  simp [upTo, h]

theorem upTo_sublist : (upTo p before l).Sublist l := by
  induction l generalizing before with
  | nil => exact List.Sublist.refl []
  | cons a l ih =>
    by_cases h : p before a = true
    · rw [upTo_cons_of_stops h]
      exact (List.nil_sublist l).cons_cons a
    · rw [upTo_cons_of_passes (Bool.not_eq_true _ ▸ h)]
      exact ih.cons_cons a

theorem upTo_congr (h : ∀ b c, p b c = q b c) : upTo p before l = upTo q before l := by
  rw [show p = q from funext fun b => funext (h b)]

@[simp] theorem passed_nil : Passed p before [] := trivial

@[simp] theorem passed_cons :
    Passed p before (a :: l) ↔ p before a = false ∧ Passed p (before ++ [a]) l :=
  Iff.rfl

/-- An element is there exactly when the work gets to it. -/
theorem mem_upTo_iff :
    a ∈ upTo p before l ↔ ∃ pre post, l = pre ++ a :: post ∧ Passed p before pre := by
  induction l generalizing before with
  | nil => simp
  | cons b l ih =>
    constructor
    · intro hmem
      rcases List.mem_cons.mp hmem with rfl | hmem
      · exact ⟨[], l, rfl, trivial⟩
      · by_cases h : p before b = true
        · rw [if_pos h] at hmem
          exact absurd hmem List.not_mem_nil
        · rw [if_neg h] at hmem
          obtain ⟨pre, post, rfl, hpassed⟩ := ih.mp hmem
          exact ⟨b :: pre, post, rfl, Bool.not_eq_true _ ▸ h, hpassed⟩
    · rintro ⟨pre, post, heq, hpassed⟩
      cases pre with
      | nil =>
        obtain ⟨rfl, rfl⟩ := List.cons_eq_cons.mp heq
        exact List.mem_cons_self
      | cons c pre =>
        obtain ⟨rfl, rfl⟩ := List.cons_eq_cons.mp heq
        rw [upTo_cons_of_passes hpassed.1]
        exact List.mem_cons_of_mem _ (ih.mpr ⟨pre, post, rfl, hpassed.2⟩)

theorem passed_const {r : α → Bool} : Passed (fun _ => r) before l ↔ ∀ c ∈ l, r c = false := by
  induction l generalizing before with
  | nil => simp
  | cons a l ih => simp [ih]

theorem passed_or {r : α → Bool} :
    Passed (fun b c => p b c || r c) before l ↔ Passed p before l ∧ ∀ c ∈ l, r c = false := by
  induction l generalizing before with
  | nil => simp
  | cons a l ih =>
    simp only [passed_cons, Bool.or_eq_false_iff, ih, List.forall_mem_cons]
    exact and_and_and_comm

/-- A run over what is left of another run is one run that both may stop. -/
theorem upTo_filter_upTo {F r : α → Bool} {b : List α} :
    upTo (fun _ => r) b ((upTo p before l).filter F) =
      (upTo (fun b c => p b c || (F c && r c)) before l).filter F := by
  induction l generalizing before b with
  | nil => rfl
  | cons a l ih =>
    by_cases hF : F a = true <;> by_cases hp : p before a = true <;> by_cases hr : r a = true <;>
      simp [upTo, hF, hp, hr, ih]

theorem filter_upTo {F r : α → Bool} {b : List α} (h : ∀ c, r c = true → F c = true) :
    (upTo (fun _ => r) before l).filter F = upTo (fun _ => r) b (l.filter F) := by
  induction l generalizing before b with
  | nil => rfl
  | cons a l ih =>
    by_cases hF : F a = true
    · by_cases hr : r a = true <;> simp [upTo, hF, hr, ih (b := b ++ [a])]
    · have hr : r a = false := Bool.not_eq_true _ ▸ fun hr => hF (h a hr)
      simp [upTo, hF, hr, ih (b := b)]

theorem upTo_map {γ : Type v} {g : α → γ} {r : γ → Bool} (before : List α) (b : List γ) :
    upTo (fun _ => r) b (l.map g) = (upTo (fun _ c => r (g c)) before l).map g := by
  induction l generalizing before b with
  | nil => rfl
  | cons a l ih =>
    by_cases h : r (g a) = true <;> simp [upTo, h, ih (before ++ [a])]

/-- A run that nothing stops gets to every element. -/
theorem upTo_of_never (h : ∀ b c, p b c = false) : upTo p before l = l := by
  induction l generalizing before with
  | nil => rfl
  | cons a l ih => rw [upTo_cons_of_passes (h before a), ih]

/-- A run gets to every element exactly when none stops but the last. -/
theorem upTo_eq_self_iff {r : α → Bool} :
    upTo (fun _ => r) before l = l ↔ ∀ c ∈ l.dropLast, r c = false := by
  induction l generalizing before with
  | nil => simp
  | cons a l ih =>
    by_cases hl : l = []
    · subst hl
      by_cases h : r a = true <;> simp [upTo, h]
    · rw [List.dropLast_cons_of_ne_nil hl, List.forall_mem_cons]
      by_cases h : r a = true
      · rw [upTo_cons_of_stops (p := fun _ => r) h]
        simp [h, Ne.symm hl]
      · have hpasses : r a = false := by simpa using h
        rw [upTo_cons_of_passes (p := fun _ => r) hpasses]
        simp [hpasses, ih]

/-- What a run has gone past has not stopped it. -/
theorem passed_of_upTo_eq {c : α} {post : List α} (h : upTo p before l = pre ++ c :: post) :
    Passed p before pre ∧ (post ≠ [] → p (before ++ pre) c = false) := by
  induction pre generalizing before l with
  | nil =>
    refine ⟨trivial, fun hpost => ?_⟩
    cases l with
    | nil => exact absurd h (by simp)
    | cons a l =>
      obtain ⟨rfl, hrest⟩ := List.cons_eq_cons.mp h
      by_contra hstops
      rw [if_pos (by simpa using hstops)] at hrest
      exact hpost hrest.symm
  | cons b pre ih =>
    cases l with
    | nil => exact absurd h (by simp)
    | cons a l =>
      obtain ⟨rfl, hrest⟩ := List.cons_eq_cons.mp h
      by_cases hstops : p before a = true
      · rw [if_pos hstops] at hrest
        exact absurd hrest (by simp)
      · rw [if_neg hstops] at hrest
        obtain ⟨hpassed, hlast⟩ := ih hrest
        exact ⟨⟨by simpa using hstops, hpassed⟩, by simpa using hlast⟩

/-- What holds of an element and a later one, as far as the run gets to the later one. -/
theorem pairwise_upTo_iff {R : α → α → Prop} :
    (upTo p before l).Pairwise R ↔
      ∀ pre c mid d post, l = pre ++ c :: (mid ++ d :: post) →
        Passed p before (pre ++ c :: mid) → R c d := by
  induction l generalizing before with
  | nil => simp
  | cons a l ih =>
    by_cases h : p before a = true
    · rw [upTo_cons_of_stops h]
      refine iff_of_true (List.pairwise_singleton R a) fun pre c mid d post heq hpassed => ?_
      cases pre with
      | nil =>
        obtain ⟨rfl, -⟩ := List.cons_eq_cons.mp heq
        exact absurd hpassed.1 (by simp [h])
      | cons b pre =>
        obtain ⟨rfl, -⟩ := List.cons_eq_cons.mp heq
        exact absurd hpassed.1 (by simp [h])
    · have hpasses : p before a = false := Bool.not_eq_true _ ▸ h
      rw [upTo_cons_of_passes hpasses, List.pairwise_cons, ih]
      constructor
      · rintro ⟨hhead, htail⟩ pre c mid d post heq hpassed
        cases pre with
        | nil =>
          obtain ⟨rfl, rfl⟩ := List.cons_eq_cons.mp heq
          exact hhead d (mem_upTo_iff.mpr ⟨mid, post, rfl, hpassed.2⟩)
        | cons b pre =>
          obtain ⟨rfl, rfl⟩ := List.cons_eq_cons.mp heq
          exact htail pre c mid d post rfl hpassed.2
      · intro hall
        refine ⟨fun d hmem => ?_, fun pre c mid d post heq hpassed => ?_⟩
        · obtain ⟨mid, post, rfl, hpassed⟩ := mem_upTo_iff.mp hmem
          exact hall [] a mid d post rfl ⟨hpasses, hpassed⟩
        · exact hall (a :: pre) c mid d post (by rw [heq]; rfl) ⟨hpasses, hpassed⟩

/-! ## What a run leaves behind -/

section Traces

variable {f : α → List β}

/-- The run leaves nothing exactly when it gets to no element that would leave something. -/
theorem flatMap_upTo_eq_nil_iff :
    (upTo p before l).flatMap f = [] ↔
      ∀ pre c post, l = pre ++ c :: post → f c ≠ [] → ¬ Passed p before pre := by
  rw [List.flatMap_eq_nil_iff]
  constructor
  · rintro h pre c post rfl hc hpassed
    exact hc (h c (mem_upTo_iff.mpr ⟨pre, post, rfl, hpassed⟩))
  · intro h c hmem
    obtain ⟨pre, post, heq, hpassed⟩ := mem_upTo_iff.mp hmem
    by_contra hc
    exact h pre c post heq hc hpassed

/-- **Two runs leave the same** exactly when they get to the same elements among those that leave
something. -/
theorem flatMap_upTo_eq_iff :
    (upTo p before l).flatMap f = (upTo q before l).flatMap f ↔
      ∀ pre c post, l = pre ++ c :: post → f c ≠ [] →
        (Passed p before pre ↔ Passed q before pre) := by
  induction l generalizing before with
  | nil => simp
  | cons a l ih =>
    have split : ∀ P : List α → α → List α → Prop,
        (∀ pre c post, a :: l = pre ++ c :: post → P pre c post) ↔
          P [] a l ∧ ∀ pre c post, l = pre ++ c :: post → P (a :: pre) c post := by
      intro P
      constructor
      · intro h
        exact ⟨h [] a l rfl, fun pre c post heq => h (a :: pre) c post (by rw [heq]; rfl)⟩
      · rintro ⟨hhead, htail⟩ pre c post heq
        cases pre with
        | nil =>
          obtain ⟨rfl, rfl⟩ := List.cons_eq_cons.mp heq
          exact hhead
        | cons b pre =>
          obtain ⟨rfl, rfl⟩ := List.cons_eq_cons.mp heq
          exact htail pre c post rfl
    rw [split]
    simp only [passed_nil, passed_cons, implies_true, true_and]
    by_cases hp : p before a = true <;> by_cases hq : q before a = true
    · rw [upTo_cons_of_stops hp, upTo_cons_of_stops hq]
      simp [hp, hq]
    · -- only the second run goes on, so nothing it gets to may leave anything
      rw [upTo_cons_of_stops hp, upTo_cons_of_passes (Bool.not_eq_true _ ▸ hq)]
      simp only [List.flatMap_cons, List.flatMap_nil, List.append_nil, List.self_eq_append_right,
        flatMap_upTo_eq_nil_iff]
      simp [hp, hq]
    · rw [upTo_cons_of_passes (Bool.not_eq_true _ ▸ hp), upTo_cons_of_stops hq]
      simp only [List.flatMap_cons, List.flatMap_nil, List.append_nil, List.append_right_eq_self,
        flatMap_upTo_eq_nil_iff]
      simp [hp, hq]
    · rw [upTo_cons_of_passes (Bool.not_eq_true _ ▸ hp),
        upTo_cons_of_passes (Bool.not_eq_true _ ▸ hq)]
      simp only [List.flatMap_cons, List.append_cancel_left_eq, ih]
      simp [hp, hq]

end Traces

end Reach

/-! ## Two kinds of traces -/

section Kinds

variable {P : β → Bool} {x y s : List β}

theorem filter_append_filter (h : s.Pairwise fun a b => P b = true → P a = true) :
    s.filter P ++ s.filter (fun b => !P b) = s := by
  induction s with
  | nil => rfl
  | cons a s ih =>
    obtain ⟨hhead, htail⟩ := List.pairwise_cons.mp h
    by_cases ha : P a = true
    · simp [ha, ih htail]
    · -- nothing of the first kind comes behind one of the second
      have hnone : s.filter P = [] := by
        rw [List.filter_eq_nil_iff]
        exact fun b hb hP => ha (hhead b hb hP)
      have hrest := ih htail
      rw [hnone, List.nil_append] at hrest
      simp [ha, hnone, hrest]

/-- Traces of one kind and then traces of the other are a given list exactly when they are its
traces of either kind and it has them in this order. -/
theorem append_eq_iff_filter (hx : ∀ b ∈ x, P b = true) (hy : ∀ b ∈ y, P b = false) :
    x ++ y = s ↔ x = s.filter P ∧ y = s.filter (fun b => !P b) ∧
      s.Pairwise fun a b => P b = true → P a = true := by
  constructor
  · rintro rfl
    have hxn : x.filter (fun b => !P b) = [] :=
      List.filter_eq_nil_iff.mpr fun b hb => by simp [hx b hb]
    have hyn : y.filter P = [] := List.filter_eq_nil_iff.mpr fun b hb => by simp [hy b hb]
    refine ⟨?_, ?_, ?_⟩
    · rw [List.filter_append, hyn, List.append_nil, List.filter_eq_self.mpr hx]
    · rw [List.filter_append, hxn, List.nil_append]
      exact (List.filter_eq_self.mpr fun b hb => by simp [hy b hb]).symm
    · refine List.pairwise_append.mpr ⟨?_, ?_, fun a ha b _ _ => hx a ha⟩
      · exact List.pairwise_of_forall_mem_list fun a ha b _ _ => hx a ha
      · exact List.pairwise_of_forall_mem_list fun a _ b hb hP => by simp [hy b hb] at hP
  · rintro ⟨rfl, rfl, hpair⟩
    exact filter_append_filter hpair

end Kinds

end McDaemon.Lib
