/-
# McDaemon.Lib.Reader — reading values off the front of a stream.

A reader takes as much of a stream as it needs and gives a value or an error; what it has taken
stays taken either way.  `Reads r bs a` says that `r` makes `a` out of exactly the bytes `bs`,
whatever follows them, so that readers compose where their bytes are put one behind the other.
-/
import Mathlib.Tactic.SplitIfs

namespace McDaemon.Lib

/-- Takes a value off the front of a stream, or gives up; what has been taken stays taken. -/
def Reader (β ε α : Type) : Type := List β → Except ε α × List β

namespace Reader

variable {β ε α γ : Type}

instance : Monad (Reader β ε) where
  pure a := fun s => (.ok a, s)
  bind r f := fun s =>
    match r s with
    | (.error e, s) => (.error e, s)
    | (.ok a, s) => f a s

/-- Give up. -/
def fail (e : ε) : Reader β ε α := fun s => (.error e, s)

/-- Give up unless `c` holds. -/
def require (c : Bool) (e : ε) : Reader β ε Unit := if c then pure () else fail e

/-- Take `len` elements, or give up at the end of the stream. -/
def take (len : Nat) (e : ε) : Reader β ε (List β) := fun s =>
  if (s.take len).length = len then (.ok (s.take len), s.drop len) else (.error e, s.drop len)

/-- `r` makes `a` out of exactly `bs`, whatever follows. -/
def Reads (r : Reader β ε α) (bs : List β) (a : α) : Prop := ∀ rest, r (bs ++ rest) = (.ok a, rest)

variable {r : Reader β ε α} {f : α → Reader β ε γ} {as bs s : List β} {a : α} {c : γ} {e : ε}

theorem reads_pure : Reads (pure a : Reader β ε α) [] a := fun _ => rfl

theorem reads_require {b : Bool} (hb : b = true) (e : ε) :
    Reads (require b e : Reader β ε Unit) [] () := by
  subst hb
  intro rest
  rfl

theorem reads_take {len : Nat} (h : bs.length = len) : Reads (take len e) bs bs := by
  intro rest
  subst h
  simp [take]

theorem bind_apply : (r >>= f) s = (match r s with
    | (.error e, t) => (.error e, t)
    | (.ok a, t) => f a t) := rfl

theorem bind_of_ok {rest : List β} (h : r s = (.ok a, rest)) : (r >>= f) s = f a rest := by
  rw [bind_apply, h]

theorem bind_of_error {rest : List β} (h : r s = (.error e, rest)) :
    (r >>= f) s = (.error e, rest) := by
  rw [bind_apply, h]

/-- A requirement that is met is no step. -/
theorem require_true_bind {k : Unit → Reader β ε γ} : (require true e >>= k) = k () := rfl

theorem of_bind_eq_ok {rest : List β} (h : (r >>= f) s = (.ok c, rest)) :
    ∃ a t, r s = (.ok a, t) ∧ f a t = (.ok c, rest) := by
  rw [bind_apply] at h
  split at h
  · cases h
  · next a t hr => exact ⟨a, t, hr, h⟩

theorem of_require_eq_ok {b : Bool} {u : Unit} {rest : List β}
    (h : (require b e : Reader β ε Unit) s = (.ok u, rest)) : b = true := by
  cases b with
  | true => rfl
  | false => cases h

theorem of_take_eq_ok {len : Nat} {rest : List β} (h : take len e s = (.ok bs, rest)) :
    bs = s.take len ∧ bs.length = len := by
  unfold take at h
  split at h
  · next hlen =>
    obtain rfl := Except.ok.inj (Prod.mk.inj h).1
    exact ⟨rfl, hlen⟩
  · cases h

/-- **Sequencing.** What one reader leaves is what the next one reads. -/
theorem Reads.bind (hr : Reads r as a) (hf : Reads (f a) bs c) : Reads (r >>= f) (as ++ bs) c := by
  intro rest
  rw [List.append_assoc, bind_of_ok (hr (bs ++ rest))]
  exact hf rest

/-- A step that takes nothing. -/
theorem Reads.after (hr : Reads r [] a) (hf : Reads (f a) bs c) : Reads (r >>= f) bs c :=
  hr.bind hf

/-- A last step that only puts a value together. -/
theorem Reads.give {g : α → γ} (hr : Reads r bs a) :
    Reads (r >>= fun a => pure (g a)) bs (g a) := by
  have hpure : Reads (r >>= fun a => pure (g a)) (bs ++ []) (g a) := hr.bind reads_pure
  rwa [List.append_nil] at hpure

theorem take_of_le {len : Nat} (h : len ≤ s.length) :
    take len e s = (.ok (s.take len), s.drop len) := by
  rw [take, if_pos (List.length_take_of_le h)]

theorem take_of_lt {len : Nat} (h : s.length < len) : take len e s = (.error e, []) := by
  have hshort : (s.take len).length ≠ len := by
    rw [List.length_take]
    omega
  rw [take, if_neg hshort, List.drop_eq_nil_of_le (Nat.le_of_lt h)]

/-! ## Errors -/

/-- `r` gives up with errors in `P` only. -/
def Refuses (r : Reader β ε α) (P : ε → Prop) : Prop :=
  ∀ s e rest, r s = (.error e, rest) → P e

variable {P : ε → Prop}

theorem refuses_pure : Refuses (pure a : Reader β ε α) P := by
  intro s e rest h
  cases h

theorem refuses_fail (he : P e) : Refuses (fail e : Reader β ε α) P := by
  intro s e' rest h
  cases h
  exact he

theorem refuses_require {b : Bool} (he : P e) : Refuses (require b e : Reader β ε Unit) P := by
  cases b with
  | true => exact refuses_pure
  | false => exact refuses_fail he

theorem refuses_take {len : Nat} (he : P e) : Refuses (take len e : Reader β ε (List β)) P := by
  intro s e' rest h
  unfold take at h
  split_ifs at h
  · cases h
  · cases h
    exact he

theorem Refuses.bind (hr : Refuses r P) (hf : ∀ a, Refuses (f a) P) : Refuses (r >>= f) P := by
  intro s e rest h
  rw [bind_apply] at h
  split at h
  · next e' t hr' =>
    cases h
    exact hr s _ _ hr'
  · next a t _ => exact hf a t e rest h

end Reader

end McDaemon.Lib
