/-
# McDaemon.Lib.Attempt — calls that fail half-way.

A call changes the state step by step and may fail at any of them; what it has done by then stays
done.  `Ends P Q x s` says how the call `x` ends when it is started in `s`: well, with `P` of its
value and the state after it, or badly, with `Q` of its error and the state it is left in.  The
rules are equivalences, so the condition they give for a call is the exact one.
-/
import Mathlib.Tactic.SplitIfs

namespace McDaemon.Lib

universe u

/-- A call on a state: a value or an error, and the state either way. -/
abbrev Attempt (σ ε : Type u) : Type u → Type u := ExceptT ε (StateM σ)

namespace Attempt

variable {σ ε α β : Type u}

/-- What a call makes of a state. -/
def start (x : Attempt σ ε α) (s : σ) : Except ε α × σ := x.run.run s

theorem start_bind (x : Attempt σ ε α) (f : α → Attempt σ ε β) (s : σ) :
    start (x >>= f) s = (match start x s with
      | (.ok a, t) => start (f a) t
      | (.error e, t) => (.error e, t)) := by
  unfold start
  rw [ExceptT.run_bind, StateT.run_bind]
  rcases x.run.run s with ⟨r, t⟩
  cases r with
  | error e => rfl
  | ok a => rfl

theorem start_tryCatch (x : Attempt σ ε α) (f : ε → Attempt σ ε α) (s : σ) :
    start (tryCatch x f) s = (match start x s with
      | (.ok a, t) => (.ok a, t)
      | (.error e, t) => start (f e) t) := by
  show StateT.run (x.run >>= fun r =>
    match r with
    | .ok a => pure (.ok a)
    | .error e => (f e).run) s = _
  unfold start
  rw [StateT.run_bind]
  rcases x.run.run s with ⟨r, t⟩
  cases r with
  | error e => rfl
  | ok a => rfl

/-! ## How a call ends -/

/-- Started in `s`, the call ends well in `P` or badly in `Q`. -/
def Ends (P : α → σ → Prop) (Q : ε → σ → Prop) (x : Attempt σ ε α) (s : σ) : Prop :=
  match start x s with
  | (.ok a, t) => P a t
  | (.error e, t) => Q e t

variable {P : α → σ → Prop} {R : β → σ → Prop} {Q : ε → σ → Prop} {x : Attempt σ ε α} {s : σ}

/-- How a call ends may be said less precisely. -/
theorem Ends.mono {P' : α → σ → Prop} {Q' : ε → σ → Prop} (h : Ends P Q x s)
    (hP : ∀ a t, P a t → P' a t) (hQ : ∀ e t, Q e t → Q' e t) : Ends P' Q' x s := by
  revert h
  unfold Ends
  rcases start x s with ⟨e | a, t⟩
  · exact hQ e t
  · exact hP a t

@[simp] theorem ends_pure {a : α} : Ends P Q (pure a) s ↔ P a s := Iff.rfl

@[simp] theorem ends_throw {e : ε} : Ends P Q (throw e : Attempt σ ε α) s ↔ Q e s := Iff.rfl

@[simp] theorem ends_get {I : σ → σ → Prop} : Ends I Q (get : Attempt σ ε σ) s ↔ I s s := Iff.rfl

@[simp] theorem ends_modify {I : PUnit → σ → Prop} {f : σ → σ} :
    Ends I Q (modify f : Attempt σ ε PUnit) s ↔ I ⟨⟩ (f s) := Iff.rfl

@[simp] theorem ends_ite {c : Prop} [Decidable c] {y : Attempt σ ε α} :
    Ends P Q (if c then x else y) s ↔ (c → Ends P Q x s) ∧ (¬ c → Ends P Q y s) := by
  split_ifs with h
  · simp [h]
  · simp [h]

/-- **Sequencing.** A failure of the first call is a failure of both, with nothing undone. -/
@[simp] theorem ends_bind {f : α → Attempt σ ε β} :
    Ends R Q (x >>= f) s ↔ Ends (fun a => Ends R Q (f a)) Q x s := by
  unfold Ends
  rw [start_bind]
  rcases start x s with ⟨_ | a, t⟩
  · rfl
  · rfl

/-- A call with a handler: the handler starts where the call has failed. -/
@[simp] theorem ends_tryCatch {f : ε → Attempt σ ε α} :
    Ends P Q (tryCatch x f) s ↔ Ends P (fun e => Ends P Q (f e)) x s := by
  unfold Ends
  rw [start_tryCatch]
  rcases start x s with ⟨_ | a, t⟩
  · rfl
  · rfl

end Attempt

end McDaemon.Lib
