/-
# McDaemon.Lib.Progress — what the steps of a machine lead to, whichever of them are taken.

Of a machine some actions are its work; the others come from outside or are failures.  `Inevitable`
says that the work leads to a state with `P`, whatever order it is done in: as long as there is no
such state some work can be done, and every way of doing it ends in one.
-/
import McDaemon.Lib.Machine

namespace McDaemon.Lib.Machine

universe u v

variable {σ : Type u} {α : Type v} (M : Machine σ α)

/-- Work leads from `s` to a state with `P`, whichever work is done. -/
inductive Inevitable (work : α → Prop) (P : σ → Prop) : σ → Prop
  | now {s : σ} (h : P s) : Inevitable work P s
  | later {s : σ} (hmove : ∃ a t, work a ∧ M.step s a = some t)
      (hall : ∀ a t, work a → M.step s a = some t → Inevitable work P t) : Inevitable work P s

variable {M} {work : α → Prop} {P Q : σ → Prop}

theorem Inevitable.mono (hPQ : ∀ s, P s → Q s) {s : σ} (h : M.Inevitable work P s) :
    M.Inevitable work Q s := by
  induction h with
  | now h => exact .now (hPQ _ h)
  | later hmove _ ih => exact .later hmove ih

/-- **Progress rule.** Where an invariant lets some work be done while there is no `P`, and every
piece of work ends in `P` or keeps the invariant and decreases a measure, the work leads to `P`. -/
theorem inevitable_of_measure {I : σ → Prop} (m : σ → Nat)
    (hmove : ∀ s, I s → ¬ P s → ∃ a t, work a ∧ M.step s a = some t)
    (hwork : ∀ s a t, I s → ¬ P s → work a → M.step s a = some t → P t ∨ I t ∧ m t < m s)
    {s : σ} (hs : I s) : M.Inevitable work P s := by
  induction hn : m s using Nat.strongRecOn generalizing s with
  | ind n ih =>
    by_cases hP : P s
    · exact .now hP
    · refine .later (hmove s hs hP) fun a t ha ht => ?_
      rcases hwork s a t hs hP ha ht with hnow | ⟨hI, hlt⟩
      · exact .now hnow
      · exact ih (m t) (hn ▸ hlt) hI rfl

/-- What the work keeps is still so where it leads. -/
theorem Inevitable.and_inv {I : σ → Prop}
    (hkeep : ∀ s a t, I s → work a → M.step s a = some t → I t) {s : σ} (hs : I s)
    (h : M.Inevitable work P s) : M.Inevitable work (fun t => P t ∧ I t) s := by
  induction h with
  | now h => exact .now ⟨h, hs⟩
  | later hmove _ ih => exact .later hmove fun a t ha ht => ih a t ha ht (hkeep _ a t hs ha ht)

end McDaemon.Lib.Machine
