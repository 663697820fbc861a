/-
# McDaemon.Lib.Ledger — tokens that are released, in a log of events.

What is allocated and freed by hand is safe when nothing touches a token behind its release, another
release included.  A log is extended one event at a time, and whoever extends it keeps a list of the
tokens that it owns: it may read what it owns, and give up what it releases.
-/
import Mathlib.Data.List.Basic
import Mathlib.Data.List.Nodup
import Mathlib.Data.List.Pairwise

namespace McDaemon.Lib

/-- What an event touches, and what it releases. -/
structure Ledger (ε τ : Type*) where
  touched : ε → List τ
  released : ε → Option τ

namespace Ledger

variable {ε τ : Type*} (l : Ledger ε τ)

/-- The second event does not touch what the first has released. -/
def Respects (a b : ε) : Prop := ∀ t ∈ l.released a, t ∉ l.touched b

/-- Nothing is touched behind its release. -/
def Safe (log : List ε) : Prop := log.Pairwise l.Respects

instance decidableSafe [DecidableEq τ] (log : List ε) : Decidable (l.Safe log) :=
  have : DecidableRel l.Respects := fun a b =>
    inferInstanceAs (Decidable (∀ t ∈ l.released a, t ∉ l.touched b))
  inferInstanceAs (Decidable (log.Pairwise l.Respects))

/-- All that has been released, in order. -/
def gone (log : List ε) : List τ := log.filterMap l.released

/-- The log is safe, and the tokens are different ones that it has not released. -/
structure Owns (log : List ε) (ts : List τ) : Prop where
  safe : l.Safe log
  nodup : ts.Nodup
  live : ∀ t ∈ ts, t ∉ l.gone log

variable {l}

@[simp] theorem gone_nil : l.gone [] = [] := rfl

@[simp] theorem gone_append (log evs : List ε) : l.gone (log ++ evs) = l.gone log ++ l.gone evs :=
  List.filterMap_append ..

theorem mem_gone {log : List ε} {t : τ} : t ∈ l.gone log ↔ ∃ e ∈ log, l.released e = some t :=
  List.mem_filterMap

theorem gone_singleton (e : ε) : l.gone [e] = (l.released e).toList := by
  cases h : l.released e <;> simp [gone, h]

theorem safe_append {log evs : List ε} : l.Safe (log ++ evs) ↔
    l.Safe log ∧ l.Safe evs ∧ ∀ e ∈ evs, ∀ t ∈ l.touched e, t ∉ l.gone log := by
  unfold Safe
  rw [List.pairwise_append]
  refine and_congr_right' (and_congr_right' ⟨fun h e he t ht hgone => ?_,
    fun h a ha b hb t ht => ?_⟩)
  · obtain ⟨a, ha, hat⟩ := mem_gone.mp hgone
    exact h a ha e he t hat ht
  · intro hb'
    exact h b hb t hb' (mem_gone.mpr ⟨a, ha, ht⟩)

theorem safe_snoc {log : List ε} {e : ε} :
    l.Safe (log ++ [e]) ↔ l.Safe log ∧ ∀ t ∈ l.touched e, t ∉ l.gone log := by
  rw [safe_append]
  simp [Safe]

/-- One event that touches a released token spoils the log. -/
theorem not_safe_of_touched {log rest : List ε} {e : ε} {t : τ} (ht : t ∈ l.touched e)
    (hgone : t ∈ l.gone log) : ¬ l.Safe (log ++ e :: rest) := by
  intro h
  exact (safe_append.mp h).2.2 e List.mem_cons_self t ht hgone

/-! ## What an owner may do -/

theorem gone_snoc_of_none {log : List ε} {e : ε} (he : l.released e = none) :
    l.gone (log ++ [e]) = l.gone log := by
  rw [gone_append, gone_singleton, he, Option.toList_none, List.append_nil]

/-- A token that was never released may be looked at. -/
theorem Owns.look {log : List ε} {ts : List τ} {e : ε} (h : l.Owns log ts)
    (he : l.released e = none) (ht : ∀ t ∈ l.touched e, t ∉ l.gone log) :
    l.Owns (log ++ [e]) ts := by
  refine ⟨safe_snoc.mpr ⟨h.safe, ht⟩, h.nodup, ?_⟩
  rw [gone_snoc_of_none he]
  exact h.live

/-- A token that is owned may be looked at. -/
theorem Owns.read {log : List ε} {ts : List τ} {e : ε} (h : l.Owns log ts)
    (he : l.released e = none) (ht : ∀ t ∈ l.touched e, t ∈ ts) : l.Owns (log ++ [e]) ts :=
  h.look he fun t htouch => h.live t (ht t htouch)

/-- What is released is no longer owned. -/
theorem Owns.release {log : List ε} {ts : List τ} {e : ε} {t : τ} (h : l.Owns log (t :: ts))
    (he : l.released e = some t) (ht : l.touched e = [t]) : l.Owns (log ++ [e]) ts := by
  obtain ⟨hnot, hnodup⟩ := List.nodup_cons.mp h.nodup
  refine ⟨safe_snoc.mpr ⟨h.safe, ?_⟩, hnodup, fun u hu => ?_⟩
  · rw [ht]
    intro u hu
    rw [List.mem_singleton.mp hu]
    exact h.live t List.mem_cons_self
  · rw [gone_append, gone_singleton, he, Option.toList_some, List.mem_append, List.mem_singleton]
    rintro (hgone | rfl)
    · exact h.live u (List.mem_cons_of_mem _ hu) hgone
    · exact hnot hu

theorem Owns.allocate {log : List ε} {ts : List τ} {t : τ} (h : l.Owns log ts) (ht : t ∉ ts)
    (hgone : t ∉ l.gone log) : l.Owns log (t :: ts) :=
  ⟨h.safe, List.nodup_cons.mpr ⟨ht, h.nodup⟩, fun u hu => by
    rcases List.mem_cons.mp hu with rfl | hu
    · exact hgone
    · exact h.live u hu⟩

theorem Owns.perm {log : List ε} {ts us : List τ} (h : l.Owns log ts) (hp : ts.Perm us) :
    l.Owns log us :=
  ⟨h.safe, hp.nodup_iff.mp h.nodup, fun t ht => h.live t (hp.mem_iff.mpr ht)⟩

end Ledger

/-! ## What is given out and comes back -/

/-- What an event gives out, and what it takes back. -/
structure Loans (ε τ : Type*) where
  given : ε → Option τ
  back : ε → Option τ

namespace Loans

variable {ε τ : Type*} (l : Loans ε τ)

/-- All that has been given out, in order. -/
def out (log : List ε) : List τ := log.filterMap l.given

/-- All that has come back, in order. -/
def returned (log : List ε) : List τ := log.filterMap l.back

/-- Everything is given out at most once, and what has been given out has come back once. -/
structure Settled (log : List ε) : Prop where
  nodup : (l.out log).Nodup
  perm : (l.returned log).Perm (l.out log)

variable {l}

@[simp] theorem out_append (log evs : List ε) : l.out (log ++ evs) = l.out log ++ l.out evs :=
  List.filterMap_append ..

@[simp] theorem returned_append (log evs : List ε) :
    l.returned (log ++ evs) = l.returned log ++ l.returned evs :=
  List.filterMap_append ..

theorem settled_nil : l.Settled [] := ⟨List.nodup_nil, .refl _⟩

/-- Two logs about different tokens. -/
theorem Settled.append {log evs : List ε} (h : l.Settled log) (h' : l.Settled evs)
    (hd : (l.out log).Disjoint (l.out evs)) : l.Settled (log ++ evs) := by
  constructor
  · rw [out_append]
    exact List.nodup_append'.mpr ⟨h.nodup, h'.nodup, hd⟩
  · rw [out_append, returned_append]
    exact h.perm.append h'.perm

end Loans

/-! ## What follows an event -/

/-- Every event of the log has the property together with the events behind it. -/
def Followed {ε : Type*} (P : ε → List ε → Prop) : List ε → Prop
  | [] => True
  | e :: es => P e es ∧ Followed P es

/-- A log goes on, and its events do not look at what is appended. -/
theorem followed_append_iff {ε : Type*} {P : ε → List ε → Prop} {log evs : List ε}
    (h : ∀ e ∈ log, ∀ es, P e (es ++ evs) ↔ P e es) :
    Followed P (log ++ evs) ↔ Followed P log ∧ Followed P evs := by
  induction log with
  | nil => simp [Followed]
  | cons e log ih =>
    rw [List.cons_append, Followed, Followed, h e List.mem_cons_self log,
      ih fun e' he' => h e' (List.mem_cons_of_mem _ he'), and_assoc]

end McDaemon.Lib
