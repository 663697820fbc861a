/-
# McDaemon.Lib.Spec — specifications that leave a choice.

An operation has outcomes, each a result and the state behind it.  A specification allows some of
them, and operations are put together from the outcomes of their parts: one after another, as long
as the results are good.  What runs meets a specification if its outcomes are allowed in terms of an
abstract state, in every state that keeps an invariant.
-/
import McDaemon.Lib.FileSteps

namespace McDaemon.Lib

universe u v w x

/-- The results that are allowed, each with the states that it is allowed with. -/
abbrev Outcomes (ρ : Type u) (τ : Type v) := ρ → τ → Prop

namespace Outcomes

variable {ρ : Type u} {τ : Type v} {α : Type w} {ok r : ρ} {a c : τ}

/-- One outcome. -/
def just (r : ρ) (c : τ) : Outcomes ρ τ := fun r' c' => r' = r ∧ c' = c

/-- Go on behind the outcomes whose result is `ok`; the others stay. -/
def andThen (ok : ρ) (P : Outcomes ρ τ) (Q : τ → Outcomes ρ τ) : Outcomes ρ τ := fun r c =>
  (∃ d, P ok d ∧ Q d r c) ∨ r ≠ ok ∧ P r c

/-- One item after another, as long as the result is `ok`. -/
def each (ok : ρ) (S : τ → α → Outcomes ρ τ) (c : τ) : List α → Outcomes ρ τ
  | [] => just ok c
  | x :: xs => andThen ok (S c x) fun d => each ok S d xs

theorem just_self (r : ρ) (c : τ) : just r c r c := ⟨rfl, rfl⟩

theorem andThen_ok {P : Outcomes ρ τ} {Q : τ → Outcomes ρ τ} :
    andThen ok P Q ok c ↔ ∃ d, P ok d ∧ Q d ok c := by
  constructor
  · rintro (h | ⟨hne, -⟩)
    · exact h
    · exact absurd rfl hne
  · exact .inl

/-! ## What all outcomes have in common -/

variable {R : τ → τ → Prop}

theorem andThen_rel (htrans : ∀ a b c, R a b → R b c → R a c) {P : Outcomes ρ τ}
    {Q : τ → Outcomes ρ τ} (hP : ∀ r d, P r d → R a d) (hQ : ∀ d r c, Q d r c → R d c)
    (h : andThen ok P Q r c) : R a c := by
  rcases h with ⟨d, hfirst, hrest⟩ | ⟨-, hfirst⟩
  · exact htrans a d c (hP ok d hfirst) (hQ d r c hrest)
  · exact hP r c hfirst

/-- What every item keeps is kept by all of them. -/
theorem each_rel (hrefl : ∀ a, R a a) (htrans : ∀ a b c, R a b → R b c → R a c)
    {S : τ → α → Outcomes ρ τ} {xs : List α} (hstep : ∀ a, ∀ x ∈ xs, ∀ r b, S a x r b → R a b)
    (h : each ok S a xs r c) : R a c := by
  induction xs generalizing a r c with
  | nil =>
    obtain ⟨-, rfl⟩ := h
    exact hrefl c
  | cons x xs ih =>
    exact andThen_rel htrans (hstep a x List.mem_cons_self)
      (fun d r c hrest => ih (fun b y hy => hstep b y (List.mem_cons_of_mem x hy)) hrest) h

/-- If all went well, each item went well in some state on the way. -/
theorem each_ok (hrefl : ∀ a, R a a) (htrans : ∀ a b c, R a b → R b c → R a c)
    {S : τ → α → Outcomes ρ τ} {xs : List α} (hstep : ∀ a, ∀ x ∈ xs, ∀ r b, S a x r b → R a b)
    (h : each ok S a xs ok c) {x : α} (hx : x ∈ xs) :
    ∃ b d, R a b ∧ S b x ok d ∧ R d c := by
  induction xs generalizing a with
  | nil => cases hx
  | cons y xs ih =>
    obtain ⟨d, hfirst, hrest⟩ := andThen_ok.mp h
    have htail : ∀ a, ∀ x ∈ xs, ∀ r b, S a x r b → R a b := fun b z hz =>
      hstep b z (List.mem_cons_of_mem y hz)
    rcases List.mem_cons.mp hx with rfl | hx
    · exact ⟨a, d, hrefl a, hfirst, each_rel hrefl htrans htail hrest⟩
    · obtain ⟨b, e, hb, hitem, hlast⟩ := ih htail hrest hx
      exact ⟨b, e, htrans a d b (hstep a y List.mem_cons_self ok d hfirst) hb, hitem, hlast⟩

end Outcomes

/-! ## Meeting a specification -/

section Meets

open Outcomes

variable {σ : Type u} {τ : Type v} {ι : Type w} {ο : Type x}

/-- Every step keeps the invariant and has an outcome that is allowed. -/
def Meets (I : σ → Prop) (abs : σ → τ) (step : σ → ι → ο × σ) (S : τ → ι → Outcomes ο τ) : Prop :=
  ∀ s i, I s → I (step s i).2 ∧ S (abs s) i (step s i).1 (abs (step s i).2)

/-- The answers to requests made one after another are allowed, and the state behind the last. -/
inductive Served (S : τ → ι → Outcomes ο τ) : τ → List ι → List ο → τ → Prop
  | nil (c : τ) : Served S c [] [] c
  | cons {c d e : τ} {i : ι} {o : ο} {is : List ι} {os : List ο} (first : S c i o d)
      (rest : Served S d is os e) : Served S c (i :: is) (o :: os) e

variable {I : σ → Prop} {abs : σ → τ} {step : σ → ι → ο × σ} {S : τ → ι → Outcomes ο τ}

theorem Meets.inv (h : Meets I abs step S) {s : σ} (hs : I s) (is : List ι) :
    I (Lib.serveAll step s is).2 := by
  induction is generalizing s with
  | nil => exact hs
  | cons i is ih => exact ih (h s i hs).1

/-- **What meets a specification serves every list of requests as it allows.** -/
theorem Meets.serveAll (h : Meets I abs step S) {s : σ} (hs : I s) (is : List ι) :
    Served S (abs s) is (serveAll step s is).1 (abs (serveAll step s is).2) := by
  induction is generalizing s with
  | nil => exact .nil (abs s)
  | cons i is ih =>
    obtain ⟨hinv, hfirst⟩ := h s i hs
    exact .cons hfirst (ih hinv)

/-- **And so does what goes on as long as the results are good.** -/
theorem Meets.whileOk [DecidableEq ο] (h : Meets I abs step S) (ok : ο) {s : σ} (hs : I s)
    (xs : List ι) : I (whileOk ok step s xs).2 ∧
      each ok S (abs s) xs (whileOk ok step s xs).1 (abs (whileOk ok step s xs).2) := by
  induction xs generalizing s with
  | nil => exact ⟨hs, just_self ok (abs s)⟩
  | cons x xs ih =>
    obtain ⟨hinv, hfirst⟩ := h s x hs
    rw [Lib.whileOk]
    split_ifs with hok
    · obtain ⟨hlast, hrest⟩ := ih hinv
      exact ⟨hlast, .inl ⟨_, hok ▸ hfirst, hrest⟩⟩
    · exact ⟨hinv, .inr ⟨hok, hfirst⟩⟩

end Meets

end McDaemon.Lib
