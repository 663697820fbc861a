/-
# McDaemon.Lib.Machine — executable labelled machines and the invariant rule for their runs.

A `Machine` has a set of initial states and an executable step function; an action that is not
enabled has no successor.  `run` executes a list of actions, `RunMeets` says that every step of
such a run satisfies a side condition on the action and the state before it.  The rules below
lift a one-step fact to every state that a run reaches, so a development states what one step
does and takes the induction from here.
-/
import Mathlib.Tactic.ByContra

namespace McDaemon.Lib

universe u v w

/-- A machine: initial states, and a partial step function labelled by actions. -/
structure Machine (σ : Type u) (α : Type v) where
  init : σ → Prop
  step : σ → α → Option σ

namespace Machine

variable {σ : Type u} {α : Type v} (M : Machine σ α)

/-- Execute a list of actions from `s`; `none` when some action is not enabled. -/
def run : σ → List α → Option σ
  | s, [] => some s
  | s, a :: as =>
    match M.step s a with
    | some t => run t as
    | none => none

/-- Every step of the run of `as` from `s` satisfies `G` in the state before it. -/
def RunMeets (G : σ → α → Prop) : σ → List α → Prop
  | _, [] => True
  | s, a :: as =>
    G s a ∧
      match M.step s a with
      | some t => RunMeets G t as
      | none => True

/-- Every state that the run of `as` from `s` passes through satisfies `P`. -/
def RunStays (P : σ → Prop) : σ → List α → Prop
  | s, [] => P s
  | s, a :: as =>
    P s ∧
      match M.step s a with
      | some t => RunStays P t as
      | none => True

/-- A state that some run from an initial state ends in. -/
def Reachable (s : σ) : Prop := ∃ s₀ as, M.init s₀ ∧ M.run s₀ as = some s

@[simp] theorem run_nil (s : σ) : M.run s [] = some s := rfl

theorem run_cons {s t u : σ} {a : α} {as : List α} (hs : M.step s a = some t)
    (ht : M.run t as = some u) : M.run s (a :: as) = some u := by
  simpa only [run, hs] using ht

theorem run_cons_elim {s u : σ} {a : α} {as : List α} (h : M.run s (a :: as) = some u) :
    ∃ t, M.step s a = some t ∧ M.run t as = some u := by
  simp only [run] at h
  cases hs : M.step s a with
  | none => rw [hs] at h; cases h
  | some t => rw [hs] at h; exact ⟨t, rfl, h⟩

/-- Where every action is enabled, every list of actions is a run. -/
theorem exists_run (hstep : ∀ s a, ∃ t, M.step s a = some t) (s : σ) (as : List α) :
    ∃ t, M.run s as = some t := by
  induction as generalizing s with
  | nil => exact ⟨s, rfl⟩
  | cons a as ih =>
    obtain ⟨t, ht⟩ := hstep s a
    obtain ⟨u, hu⟩ := ih t
    exact ⟨u, M.run_cons ht hu⟩

/-- A run of a concatenation stops over at the state after the first part. -/
theorem run_append {s u : σ} {as bs : List α} :
    M.run s (as ++ bs) = some u ↔ ∃ t, M.run s as = some t ∧ M.run t bs = some u := by
  induction as generalizing s with
  | nil => simp
  | cons a as ih =>
    constructor
    · intro h
      obtain ⟨s', hs', h'⟩ := M.run_cons_elim h
      obtain ⟨t, ht, hu⟩ := ih.mp h'
      exact ⟨t, M.run_cons hs' ht, hu⟩
    · rintro ⟨t, ht, hu⟩
      obtain ⟨s', hs', h'⟩ := M.run_cons_elim ht
      exact M.run_cons hs' (ih.mpr ⟨t, h', hu⟩)

theorem runMeets_cons {G : σ → α → Prop} {s t : σ} {a : α} {as : List α}
    (hs : M.step s a = some t) :
    M.RunMeets G s (a :: as) ↔ G s a ∧ M.RunMeets G t as := by
  simp only [RunMeets, hs]

/-- The rest of a run that meets `G` meets `G`. -/
theorem RunMeets.of_append {M : Machine σ α} {G : σ → α → Prop} {s t : σ} {as bs : List α}
    (h : M.RunMeets G s (as ++ bs)) (hrun : M.run s as = some t) : M.RunMeets G t bs := by
  induction as generalizing s with
  | nil =>
    cases hrun
    exact h
  | cons a as ih =>
    obtain ⟨s', hs', hrun'⟩ := M.run_cons_elim hrun
    exact ih ((M.runMeets_cons hs').mp h).2 hrun'

/-- **Run rule.** A predicate that every step meeting `G` preserves holds at the end of every run
whose steps meet `G`. -/
theorem inv_of_run {G : σ → α → Prop} {Inv : σ → Prop}
    (hstep : ∀ s a t, Inv s → G s a → M.step s a = some t → Inv t)
    {s u : σ} {as : List α} (hs : Inv s) (hG : M.RunMeets G s as)
    (hrun : M.run s as = some u) : Inv u := by
  induction as generalizing s with
  | nil =>
    rw [run_nil] at hrun
    cases hrun
    exact hs
  | cons a as ih =>
    obtain ⟨t, ht, hrun'⟩ := M.run_cons_elim hrun
    rw [M.runMeets_cons ht] at hG
    exact ih (hstep s a t hs hG.1 ht) hG.2 hrun'

/-- **Run rule with the actions.** What every step keeps, of the actions so far and the state that
they lead to, holds at the end of a run. -/
theorem inv_of_actions {I : List α → σ → Prop}
    (hstep : ∀ as s a t, I as s → M.step s a = some t → I (as ++ [a]) t) {s u : σ}
    (as : List α) {bs : List α} (hs : I as s) (hrun : M.run s bs = some u) : I (as ++ bs) u := by
  induction bs generalizing s as with
  | nil =>
    rw [run_nil] at hrun
    cases hrun
    rwa [List.append_nil]
  | cons b bs ih =>
    obtain ⟨t, ht, hrun'⟩ := M.run_cons_elim hrun
    have hnext := ih (as ++ [b]) (hstep as s b t hs ht) hrun'
    rwa [List.append_assoc] at hnext

/-- **Step facts along a run.** Where an invariant gives `H` for a step, every step of the run
has it. -/
theorem runMeets_of_inv {G H : σ → α → Prop} {I : σ → Prop}
    (hstep : ∀ s a t, I s → G s a → M.step s a = some t → I t)
    (himp : ∀ s a, I s → G s a → H s a) {s : σ} {as : List α} (hs : I s)
    (hG : M.RunMeets G s as) : M.RunMeets H s as := by
  induction as generalizing s with
  | nil => trivial
  | cons a as ih =>
    refine ⟨himp s a hs hG.1, ?_⟩
    have hrest := hG.2
    cases ht : M.step s a with
    | none => trivial
    | some t =>
      rw [ht] at hrest
      exact ih (hstep s a t hs hG.1 ht) hrest

theorem runStays_cons {P : σ → Prop} {s t : σ} {a : α} {as : List α}
    (hs : M.step s a = some t) : M.RunStays P s (a :: as) ↔ P s ∧ M.RunStays P t as := by
  simp only [RunStays, hs]

theorem RunStays.head {M : Machine σ α} {P : σ → Prop} {s : σ} {as : List α}
    (h : M.RunStays P s as) : P s := by
  cases as with
  | nil => exact h
  | cons a as => exact h.1

theorem RunStays.last {M : Machine σ α} {P : σ → Prop} {s u : σ} {as : List α}
    (h : M.RunStays P s as) (hrun : M.run s as = some u) : P u := by
  induction as generalizing s with
  | nil =>
    cases hrun
    exact h
  | cons a as ih =>
    obtain ⟨t, ht, hrun'⟩ := M.run_cons_elim hrun
    exact ih ((M.runStays_cons ht).mp h).2 hrun'

/-- **Exact condition of a run.** Where an invariant implies `P`, and a step from it keeps it when
the step meets `G` and leaves `P` when it does not, a run stays in `P` exactly when its steps meet
`G`. -/
theorem runStays_iff_runMeets {G : σ → α → Prop} {P I : σ → Prop} (hP : ∀ s, I s → P s)
    (hkeep : ∀ s a t, I s → M.step s a = some t → G s a → I t)
    (hleave : ∀ s a t, I s → M.step s a = some t → P t → G s a)
    {s u : σ} {as : List α} (hs : I s) (hrun : M.run s as = some u) :
    M.RunStays P s as ↔ M.RunMeets G s as := by
  induction as generalizing s with
  | nil => exact ⟨fun _ => trivial, fun _ => hP s hs⟩
  | cons a as ih =>
    obtain ⟨t, ht, hrun'⟩ := M.run_cons_elim hrun
    rw [M.runStays_cons ht, M.runMeets_cons ht]
    constructor
    · rintro ⟨-, hstays⟩
      have hG := hleave s a t hs ht hstays.head
      exact ⟨hG, (ih (hkeep s a t hs ht hG) hrun').mp hstays⟩
    · rintro ⟨hG, hmeets⟩
      exact ⟨hP s hs, (ih (hkeep s a t hs ht hG) hrun').mpr hmeets⟩

/-- **Exact condition of a run, with a property of its steps.** As above, where the steps themselves
have to be `K` too. -/
theorem runStays_and_runMeets_iff {G K : σ → α → Prop} {P I : σ → Prop} (hP : ∀ s, I s → P s)
    (hkeep : ∀ s a t, I s → M.step s a = some t → G s a → I t ∧ K s a)
    (hleave : ∀ s a t, I s → M.step s a = some t → P t → K s a → G s a)
    {s u : σ} {as : List α} (hs : I s) (hrun : M.run s as = some u) :
    (M.RunStays P s as ∧ M.RunMeets K s as) ↔ M.RunMeets G s as := by
  induction as generalizing s with
  | nil => exact ⟨fun _ => trivial, fun _ => ⟨hP s hs, trivial⟩⟩
  | cons a as ih =>
    obtain ⟨t, ht, hrun'⟩ := M.run_cons_elim hrun
    rw [M.runStays_cons ht, M.runMeets_cons ht, M.runMeets_cons ht]
    constructor
    · rintro ⟨⟨-, hstays⟩, hK, hmeets⟩
      have hG := hleave s a t hs ht hstays.head hK
      exact ⟨hG, (ih (hkeep s a t hs ht hG).1 hrun').mp ⟨hstays, hmeets⟩⟩
    · rintro ⟨hG, hmeets⟩
      obtain ⟨hI, hK⟩ := hkeep s a t hs ht hG
      obtain ⟨hstays, hrest⟩ := (ih hI hrun').mpr hmeets
      exact ⟨⟨hP s hs, hstays⟩, hK, hrest⟩

/-- **Run rule for states.** Where an invariant implies `P` and is kept by every step that meets
`G`, a run whose steps meet `G` stays in `P`. -/
theorem runStays_of_inv {G : σ → α → Prop} {P I : σ → Prop} (hP : ∀ s, I s → P s)
    (hkeep : ∀ s a t, I s → M.step s a = some t → G s a → I t) {s : σ} {as : List α} (hs : I s)
    (hG : M.RunMeets G s as) : M.RunStays P s as := by
  induction as generalizing s with
  | nil => exact hP s hs
  | cons a as ih =>
    refine ⟨hP s hs, ?_⟩
    have hrest := hG.2
    cases ht : M.step s a with
    | none => trivial
    | some t =>
      rw [ht] at hrest
      exact ih (hkeep s a t hs ht hG.1) hrest

theorem runMeets_true (s : σ) (as : List α) : M.RunMeets (fun _ _ => True) s as := by
  induction as generalizing s with
  | nil => trivial
  | cons a as ih =>
    refine ⟨trivial, ?_⟩
    cases M.step s a with
    | none => trivial
    | some t => exact ih t

/-- **Blame rule.** When every step that misses `G` ends in a state that is bad, and bad states
stay bad, a run that ends in a state that is not bad has met `G` all along. -/
theorem runMeets_of_not_bad {G : σ → α → Prop} {B : σ → Prop}
    (hblame : ∀ s a t, M.step s a = some t → ¬ G s a → B t)
    (hkeep : ∀ s a t, M.step s a = some t → B s → B t)
    {s u : σ} {as : List α} (hrun : M.run s as = some u) (hu : ¬ B u) : M.RunMeets G s as := by
  induction as generalizing s with
  | nil => trivial
  | cons a as ih =>
    obtain ⟨t, ht, hrun'⟩ := M.run_cons_elim hrun
    refine (M.runMeets_cons ht).mpr ⟨?_, ih hrun'⟩
    by_contra hG
    exact hu (M.inv_of_run (G := fun _ _ => True) (fun s a t hs _ ht => hkeep s a t ht hs)
      (hblame s a t ht hG) (M.runMeets_true t as) hrun')

theorem Reachable.step {s t : σ} {a : α} (h : M.Reachable s) (ht : M.step s a = some t) :
    M.Reachable t := by
  obtain ⟨s₀, as, h₀, hrun⟩ := h
  refine ⟨s₀, as ++ [a], h₀, ?_⟩
  rw [M.run_append]
  exact ⟨s, hrun, M.run_cons ht rfl⟩

instance decidableRunMeets (G : σ → α → Prop) [∀ s a, Decidable (G s a)] :
    ∀ s as, Decidable (M.RunMeets G s as)
  | _, [] => inferInstanceAs (Decidable True)
  | s, a :: as =>
    match h : M.step s a with
    | some t =>
      have := decidableRunMeets G t as
      decidable_of_iff (G s a ∧ M.RunMeets G t as) (M.runMeets_cons h).symm
    | none => decidable_of_iff (G s a) (by simp only [RunMeets, h, and_true])

/-! ## Histories -/

section History

variable {η : Type w} (extend : σ → α → η → η) (h₀ : η)

/-- The machine with a history beside its state, which every step extends and none looks at. -/
def withHistory : Machine (σ × η) α where
  init := fun x => M.init x.1 ∧ x.2 = h₀
  step := fun x a => (M.step x.1 a).map fun t => (t, extend x.1 a x.2)

theorem withHistory_step {s t : σ} {k l : η} {a : α}
    (h : (M.withHistory extend h₀).step (s, k) a = some (t, l)) :
    M.step s a = some t ∧ l = extend s a k := by
  obtain ⟨t', ht, heq⟩ := Option.map_eq_some_iff.mp h
  cases heq
  exact ⟨ht, rfl⟩

theorem runMeets_withHistory {G : σ → α → Prop} {s : σ} {as : List α} (k : η)
    (h : M.RunMeets G s as) : (M.withHistory extend h₀).RunMeets (fun x a => G x.1 a) (s, k) as := by
  induction as generalizing s k with
  | nil => trivial
  | cons a as ih =>
    cases ht : M.step s a with
    | none =>
      have hstep : (M.withHistory extend h₀).step (s, k) a = none := by
        show (M.step s a).map _ = _
        rw [ht]
        rfl
      simp only [RunMeets, hstep, and_true]
      exact h.1
    | some t =>
      have hstep : (M.withHistory extend h₀).step (s, k) a = some (t, extend s a k) := by
        show (M.step s a).map _ = _
        rw [ht]
        rfl
      rw [(M.withHistory extend h₀).runMeets_cons hstep]
      rw [M.runMeets_cons ht] at h
      exact ⟨h.1, ih (extend s a k) h.2⟩

end History

end Machine

/-! ## Loops -/

section Loops

variable {σ : Type u} {ε : Type v} (body : σ → ε → Option σ)

/-- The state before round `n` of a loop whose `n`th round gets the input `es n`; `none` when the
loop has ended before that. -/
def loopState (s : σ) (es : Nat → ε) : Nat → Option σ
  | 0 => some s
  | n + 1 => (loopState s es n).bind fun t => body t (es n)

/-- **Loop rule.** A loop each of whose rounds decreases a measure ends. -/
theorem loop_ends {s : σ} {es : Nat → ε} {m : σ → Nat}
    (hdec : ∀ n u t, loopState body s es n = some u → body u (es n) = some t → m t < m u) :
    ∃ n, loopState body s es n = none := by
  have hbound : ∀ n u, loopState body s es n = some u → m u + n ≤ m s := by
    intro n
    induction n with
    | zero =>
      rintro u ⟨⟩
      exact Nat.le_refl _
    | succ n ih =>
      intro t ht
      obtain ⟨u, hu, ht⟩ := Option.bind_eq_some_iff.mp ht
      have hlt := hdec n u t hu ht
      have hle := ih u hu
      omega
  refine ⟨m s + 1, ?_⟩
  cases h : loopState body s es (m s + 1) with
  | none => rfl
  | some u =>
    have hle := hbound _ u h
    omega

/-- A loop that ends has a last round. -/
theorem loop_last {s : σ} {es : Nat → ε} {n : Nat} (h : loopState body s es n = none) :
    ∃ k t, loopState body s es k = some t ∧ loopState body s es (k + 1) = none := by
  induction n with
  | zero => exact absurd h nofun
  | succ n ih =>
    cases hn : loopState body s es n with
    | none => exact ih hn
    | some t => exact ⟨n, t, hn, h⟩

/-- A loop that is running before a round was running before the earlier ones. -/
theorem loopState_of_le {s u : σ} {es : Nat → ε} {m n : Nat} (hle : m ≤ n)
    (h : loopState body s es n = some u) : ∃ t, loopState body s es m = some t := by
  induction n generalizing u with
  | zero =>
    obtain rfl := Nat.le_zero.mp hle
    exact ⟨u, h⟩
  | succ n ih =>
    rcases Nat.le_succ_iff.mp hle with hle | rfl
    · obtain ⟨t, ht, -⟩ := Option.bind_eq_some_iff.mp h
      exact ih hle ht
    · exact ⟨u, h⟩

/-- An invariant of the rounds holds before every round. -/
theorem loopState_inv {I : σ → Prop} {s : σ} {es : Nat → ε} (hs : I s)
    (hbody : ∀ n u t, I u → body u (es n) = some t → I t) {n : Nat} {u : σ}
    (h : loopState body s es n = some u) : I u := by
  induction n generalizing u with
  | zero =>
    cases h
    exact hs
  | succ n ih =>
    obtain ⟨t, ht, hu⟩ := Option.bind_eq_some_iff.mp h
    exact hbody n t u (ih ht) hu

end Loops

end McDaemon.Lib
