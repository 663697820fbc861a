/-
# McDaemon.Lib.Bytes — integers in byte strings, spans of memory, and messages in byte streams.

A `Buffer` keeps a record of the spans that have been written, and an `Inspection` one of the spans
that have been looked at, so that accesses beside an object show.  The rules for inspections are
exact: each is an equivalence, so they compute what has to hold of the memory.

The last part is about a loop that takes one message after another off a stream.  `serve` runs
such a loop; a round sees the whole stream, so it may take less than its message.  The framing
rule says that the loop decodes a concatenation of messages as that sequence of messages exactly
when every round takes all of its own bytes.
-/
import Mathlib.Data.Nat.Digits.Defs
import Mathlib.Tactic.SplitIfs

namespace McDaemon.Lib

/-! ## Integers -/

/-- The value of a little-endian byte string. -/
def ofLe (bs : List UInt8) : Nat := Nat.ofDigits 256 (bs.map UInt8.toNat)

/-- The value of a big-endian byte string. -/
def ofBe (bs : List UInt8) : Nat := ofLe bs.reverse

@[simp] theorem ofLe_nil : ofLe [] = 0 := rfl

@[simp] theorem ofLe_cons (b : UInt8) (bs : List UInt8) :
    ofLe (b :: bs) = b.toNat + 256 * ofLe bs := by
  simp [ofLe, Nat.ofDigits_cons]

theorem ofLe_lt (bs : List UInt8) : ofLe bs < 256 ^ bs.length := by
  induction bs with
  | nil => exact Nat.one_pos
  | cons b bs ih =>
    have hb := b.toNat_lt
    rw [ofLe_cons, List.length_cons, Nat.pow_succ]
    omega

theorem ofLe_eq_zero {bs : List UInt8} : ofLe bs = 0 ↔ ∀ b ∈ bs, b = 0 := by
  induction bs with
  | nil => simp
  | cons b bs ih =>
    rw [ofLe_cons, List.forall_mem_cons, ← ih, ← UInt8.toNat_inj]
    simp

/-- Strings of one length are told apart by their values. -/
theorem ofLe_inj {bs cs : List UInt8} (hlen : bs.length = cs.length) (h : ofLe bs = ofLe cs) :
    bs = cs := by
  induction bs generalizing cs with
  | nil => exact (List.length_eq_zero_iff.mp hlen.symm).symm
  | cons b bs ih =>
    cases cs with
    | nil => cases hlen
    | cons c cs =>
      have hb := b.toNat_lt
      have hc := c.toNat_lt
      rw [ofLe_cons, ofLe_cons] at h
      have hhead : b = c := UInt8.toNat_inj.mp (by omega)
      rw [hhead, ih (Nat.succ.inj hlen) (by omega)]

/-- The four bytes of a little-endian word. -/
def le32 (n : UInt32) : List UInt8 :=
  [n.toUInt8, (n >>> 8).toUInt8, (n >>> 16).toUInt8, (n >>> 24).toUInt8]

@[simp] theorem length_le32 (n : UInt32) : (le32 n).length = 4 := rfl

theorem ofLe_le32 (n : UInt32) : ofLe (le32 n) = n.toNat := by
  have hn := n.toNat_lt
  have h8 : UInt32.toNat 8 % 32 = 8 := rfl
  have h16 : UInt32.toNat 16 % 32 = 16 := rfl
  have h24 : UInt32.toNat 24 % 32 = 24 := rfl
  simp only [le32, ofLe_cons, ofLe_nil, UInt32.toNat_toUInt8, UInt32.toNat_shiftRight,
    Nat.shiftRight_eq_div_pow, h8, h16, h24]
  omega

/-! ## Memory -/

/-- Memory by address, counted from the start of an object; it does not end where the object
does. -/
abbrev Memory := Nat → UInt8

/-- `len` bytes from `start` on. -/
structure Span where
  start : Nat
  len : Nat
deriving DecidableEq, Repr

/-- All bytes of the span lie below `n`. -/
def Span.Below (w : Span) (n : Nat) : Prop := ∀ i, w.start ≤ i → i < w.start + w.len → i < n

theorem Span.below_iff {w : Span} {n : Nat} : w.Below n ↔ w.len = 0 ∨ w.start + w.len ≤ n := by
  constructor
  · intro h
    by_cases hlen : w.len = 0
    · exact .inl hlen
    · have hlast := h (w.start + w.len - 1) (by omega) (by omega)
      exact .inr (by omega)
  · rintro h i hlo hhi
    omega

theorem Span.below_of_pos {w : Span} {n : Nat} (hlen : 0 < w.len) :
    w.Below n ↔ w.start + w.len ≤ n := by
  rw [Span.below_iff]
  omega

/-- The bytes of a span. -/
def Memory.slice (mem : Memory) (w : Span) : List UInt8 :=
  (List.range w.len).map fun i => mem (w.start + i)

/-- Bytes in memory, with zeros behind them. -/
def Memory.ofList (bs : List UInt8) : Memory := fun i => bs.getD i 0

/-- Memory with the spans that have been written to it. -/
structure Buffer where
  bytes : Memory
  written : List Span

/-- Write a string at an address. -/
def Buffer.write (b : Buffer) (p : Nat) (bs : List UInt8) : Buffer where
  bytes := fun i => if p ≤ i ∧ i < p + bs.length then bs.getD (i - p) 0 else b.bytes i
  written := ⟨p, bs.length⟩ :: b.written

@[simp] theorem Buffer.written_write (b : Buffer) (p : Nat) (bs : List UInt8) :
    (b.write p bs).written = ⟨p, bs.length⟩ :: b.written := rfl

@[simp] theorem Memory.length_slice (mem : Memory) (w : Span) : (mem.slice w).length = w.len := by
  simp [Memory.slice]

/-- A span in two parts. -/
theorem Memory.slice_append (mem : Memory) (p m n : Nat) :
    mem.slice ⟨p, m + n⟩ = mem.slice ⟨p, m⟩ ++ mem.slice ⟨p + m, n⟩ := by
  unfold Memory.slice
  rw [List.range_add, List.map_append, List.map_map]
  refine congrArg _ (List.map_congr_left fun i _ => ?_)
  show mem (p + (m + i)) = mem (p + m + i)
  rw [Nat.add_assoc]

/-- What lies in a copy of the front is what lies in the front. -/
theorem Memory.slice_ofList_slice {mem : Memory} {n : Nat} {w : Span} (h : w.start + w.len ≤ n) :
    (Memory.ofList (mem.slice ⟨0, n⟩)).slice w = mem.slice w := by
  refine List.map_congr_left fun i hi => ?_
  have hi : i < w.len := List.mem_range.mp hi
  have hlen : w.start + i < (List.range n).length := by
    rw [List.length_range]
    omega
  show ((List.range n).map fun i => mem (0 + i)).getD (w.start + i) 0 = mem (w.start + i)
  rw [List.getD_eq_getElem?_getD, List.getElem?_map, List.getElem?_eq_getElem hlen]
  simp

/-- The string stands at `p`. -/
def Buffer.Holds (b : Buffer) (p : Nat) (bs : List UInt8) : Prop :=
  b.bytes.slice ⟨p, bs.length⟩ = bs

/-- What has been written is held. -/
theorem Buffer.holds_write (b : Buffer) (p : Nat) (bs : List UInt8) :
    (b.write p bs).Holds p bs := by
  unfold Buffer.Holds
  apply List.ext_getElem
  · rw [Memory.length_slice]
  · intro i hi hi'
    have hin : p ≤ p + i ∧ p + i < p + bs.length := by omega
    simp only [Memory.slice, List.getElem_map, List.getElem_range, Buffer.write]
    rw [if_pos hin, Nat.add_sub_cancel_left, List.getD_eq_getElem?_getD,
      List.getElem?_eq_getElem hi']
    rfl

/-- A write leaves what is held beside it alone. -/
theorem Buffer.Holds.write {b : Buffer} {p q : Nat} {bs cs : List UInt8} (h : b.Holds p bs)
    (hapart : p + bs.length ≤ q ∨ q + cs.length ≤ p) : (b.write q cs).Holds p bs := by
  unfold Buffer.Holds at h ⊢
  conv_rhs => rw [← h]
  refine List.map_congr_left fun i hi => ?_
  have hi : i < bs.length := List.mem_range.mp hi
  have hout : ¬ (q ≤ p + i ∧ p + i < q + cs.length) := by omega
  exact if_neg hout

/-- Two strings that stand one behind the other stand there as one. -/
theorem Buffer.Holds.append {b : Buffer} {p q : Nat} {bs cs : List UInt8} (h : b.Holds p bs)
    (hcs : b.Holds q cs) (hq : q = p + bs.length) : b.Holds p (bs ++ cs) := by
  subst hq
  unfold Buffer.Holds at h hcs ⊢
  rw [List.length_append, Memory.slice_append, h, hcs]

/-! ## Inspections -/

/-- A computation on memory that may refuse it, with the spans that it has looked at. -/
structure Inspection (ε α : Type*) where
  looked : List Span
  result : Except ε α

namespace Inspection

universe v

variable {ε : Type*} {α β : Type v} {n : Nat}

instance : Monad (Inspection ε) where
  pure a := ⟨[], .ok a⟩
  bind m f :=
    match m.result with
    | .error e => ⟨m.looked, .error e⟩
    | .ok a => ⟨m.looked ++ (f a).looked, (f a).result⟩

/-- Give up. -/
def refuse (e : ε) : Inspection ε α := ⟨[], .error e⟩

/-- Give up if `c` holds. -/
def refuseIf (c : Prop) [Decidable c] (e : ε) : Inspection ε Unit :=
  if c then refuse e else pure ()

/-- Look at a span. -/
def look (mem : Memory) (w : Span) : Inspection ε (List UInt8) := ⟨[w], .ok (mem.slice w)⟩

/-- Nothing is looked at behind the first `n` bytes, and what comes out satisfies `Q`. -/
def Inside (m : Inspection ε α) (n : Nat) (Q : α → Prop) : Prop :=
  (∀ w ∈ m.looked, w.Below n) ∧ ∀ a, m.result = .ok a → Q a

theorem inside_pure {a : α} {Q : α → Prop} : (pure a : Inspection ε α).Inside n Q ↔ Q a := by
  constructor
  · intro h
    exact h.2 a rfl
  · intro h
    refine ⟨fun w hw => (nomatch hw), fun b hb => ?_⟩
    cases hb
    exact h

theorem inside_refuse {e : ε} {Q : α → Prop} : (refuse e : Inspection ε α).Inside n Q :=
  ⟨fun _ hw => (nomatch hw), fun _ ha => (nomatch ha)⟩

theorem inside_refuseIf {c : Prop} [Decidable c] {e : ε} {Q : Unit → Prop} :
    (refuseIf c e).Inside n Q ↔ (¬ c → Q ()) := by
  unfold refuseIf
  split_ifs with hc
  · simp [inside_refuse, hc]
  · simp [inside_pure, hc]

theorem inside_look {mem : Memory} {w : Span} {Q : List UInt8 → Prop} :
    (look mem w : Inspection ε (List UInt8)).Inside n Q ↔ w.Below n ∧ Q (mem.slice w) := by
  constructor
  · intro h
    exact ⟨h.1 w (List.mem_singleton.mpr rfl), h.2 _ rfl⟩
  · rintro ⟨hw, hQ⟩
    refine ⟨fun v hv => ?_, fun a ha => ?_⟩
    · rwa [List.mem_singleton.mp hv]
    · cases ha
      exact hQ

/-- **Sequencing.** One step after another stays inside exactly when the first does and the second
does on what comes out of it. -/
theorem inside_bind {m : Inspection ε α} {f : α → Inspection ε β} {Q : β → Prop} :
    (m >>= f).Inside n Q ↔ m.Inside n fun a => (f a).Inside n Q := by
  obtain ⟨looked, result⟩ := m
  cases result with
  | error e =>
    show (_ ∧ _) ↔ (_ ∧ _)
    apply and_congr Iff.rfl
    constructor
    · intro _ a ha
      cases ha
    · intro _ b hb
      cases hb
  | ok a =>
    show ((∀ w ∈ looked ++ (f a).looked, w.Below n) ∧ ∀ b, (f a).result = .ok b → Q b) ↔ _
    simp only [List.mem_append, or_imp, forall_and, and_assoc]
    apply and_congr Iff.rfl
    constructor
    · intro h a' ha'
      cases ha'
      exact h
    · intro h
      exact h a rfl

/-- Where nothing is looked at outside, the rest is about what comes out. -/
theorem inside_iff {m : Inspection ε α} {Q : α → Prop} :
    m.Inside n Q ↔ m.Inside n (fun _ => True) ∧ ∀ a, m.result = .ok a → Q a := by
  constructor
  · intro h
    exact ⟨⟨h.1, fun _ _ => trivial⟩, h.2⟩
  · rintro ⟨h, hQ⟩
    exact ⟨h.1, hQ⟩

/-- What comes out of one step after another. -/
theorem bind_eq_ok {m : Inspection ε α} {f : α → Inspection ε β} {b : β} :
    (m >>= f).result = .ok b ↔ ∃ a, m.result = .ok a ∧ (f a).result = .ok b := by
  obtain ⟨looked, result⟩ := m
  cases result with
  | error e => exact iff_of_false (fun h => nomatch h) fun ⟨_, ha, _⟩ => nomatch ha
  | ok a =>
    constructor
    · intro h
      exact ⟨a, rfl, h⟩
    · rintro ⟨a', ha', h⟩
      cases ha'
      exact h

theorem refuseIf_eq_ok {c : Prop} [Decidable c] {e : ε} {u : Unit} :
    (refuseIf c e).result = .ok u ↔ ¬ c := by
  unfold refuseIf
  split_ifs with hc
  · exact iff_of_false (fun h => nomatch h) (not_not.mpr hc)
  · exact iff_of_true rfl hc

theorem look_eq_ok {mem : Memory} {w : Span} {bs : List UInt8} :
    (look mem w : Inspection ε (List UInt8)).result = .ok bs ↔ mem.slice w = bs := by
  constructor
  · intro h
    exact Except.ok.inj h
  · intro h
    exact congrArg Except.ok h

theorem pure_eq_ok {a b : α} : (pure a : Inspection ε α).result = .ok b ↔ a = b := by
  constructor
  · intro h
    exact Except.ok.inj h
  · intro h
    exact congrArg Except.ok h

theorem refuse_eq_ok {e : ε} {a : α} : (refuse e : Inspection ε α).result = .ok a ↔ False :=
  iff_of_false (fun h => nomatch h) id

/-- Every reason to give up satisfies `Q`. -/
def Refuses (m : Inspection ε α) (Q : ε → Prop) : Prop := ∀ e, m.result = .error e → Q e

variable {Q : ε → Prop}

theorem refuses_pure {a : α} : (pure a : Inspection ε α).Refuses Q := fun _ h => nomatch h

theorem refuses_look {mem : Memory} {w : Span} :
    (look mem w : Inspection ε (List UInt8)).Refuses Q := fun _ h => nomatch h

theorem refuses_refuse {e : ε} (h : Q e) : (refuse e : Inspection ε α).Refuses Q := by
  intro e' he
  obtain rfl := Except.error.inj he
  exact h

theorem refuses_refuseIf {c : Prop} [Decidable c] {e : ε} (h : Q e) :
    (refuseIf c e).Refuses Q := by
  unfold refuseIf
  split_ifs
  · exact refuses_refuse h
  · exact refuses_pure

theorem Refuses.bind {m : Inspection ε α} {f : α → Inspection ε β} (h : m.Refuses Q)
    (hf : ∀ a, (f a).Refuses Q) : (m >>= f).Refuses Q := by
  obtain ⟨looked, result⟩ := m
  cases result with
  | error e => exact fun e' he => h e' (congrArg Except.error (Except.error.inj he))
  | ok a => exact fun e' he => hf a e' he

end Inspection

/-! ## Streams of messages -/

section Framing

variable {σ ε δ ω β : Type*}

/-- The rounds of a loop over a stream.  Each round gets the input `e`; it gives what it decoded,
the state after it and the rest of the stream, or ends the loop.  The result lists what each
round decoded with the bytes that it took, and what is left of the stream. -/
def serve (round : σ → ε → List β → Option (δ × σ × List β)) :
    σ → List ε → List β → List (δ × List β) × List β
  | _, [], bs => ([], bs)
  | s, e :: es, bs =>
    match round s e bs with
    | none => ([], bs)
    | some (d, t, rest) =>
      let after := serve round t es rest
      ((d, bs.take (bs.length - rest.length)) :: after.1, after.2)

/-- `Q` holds of every message in the state in which its turn comes. -/
def Along (next : σ → ω → ε → σ) (Q : σ → ω → ε → Prop) : σ → List (ω × ε) → Prop
  | _, [] => True
  | s, (w, e) :: ws => Q s w e ∧ Along next Q (next s w e) ws

variable {round : σ → ε → List β → Option (δ × σ × List β)} {bytes : ω → List β} {tag : ω → δ}
  {next : σ → ω → ε → σ} {used : σ → ω → ε → Nat} {P : σ → ω → ε → Prop}

/-- **Framing.** A loop whose rounds take `used` bytes of their messages decodes a concatenation
of messages exactly when `used` is all of them, all along. -/
theorem serve_eq_iff
    (hround : ∀ s w e rest, P s w e → round s e (bytes w ++ rest) =
      some (tag w, next s w e, (bytes w).drop (used s w e) ++ rest))
    {s : σ} {ws : List (ω × ε)} (hP : Along next P s ws) :
    serve round s (ws.map Prod.snd) (ws.flatMap fun p => bytes p.1) =
        (ws.map fun p => (tag p.1, bytes p.1), []) ↔
      Along next (fun s w e => (bytes w).length ≤ used s w e) s ws := by
  induction ws generalizing s with
  | nil => simp [serve, Along]
  | cons p ws ih =>
    obtain ⟨w, e⟩ := p
    obtain ⟨hw, hws⟩ := hP
    have hstep := hround s w e (ws.flatMap fun p => bytes p.1) hw
    simp only [List.map_cons, List.flatMap_cons, serve, hstep, Along]
    constructor
    · intro h
      obtain ⟨hlist, hrest⟩ := Prod.mk.inj h
      obtain ⟨hhead, htail⟩ := List.cons.inj hlist
      have htook := congrArg List.length (Prod.mk.inj hhead).2
      simp only [List.length_take, List.length_append, List.length_drop] at htook
      -- the bytes on record are the message's, so none of them is left
      have hall : (bytes w).length ≤ used s w e := by omega
      rw [List.drop_eq_nil_of_le hall, List.nil_append] at htail hrest
      exact ⟨hall, (ih hws).mp (Prod.ext htail hrest)⟩
    · rintro ⟨hall, hrest⟩
      have hih := (ih hws).mpr hrest
      rw [List.drop_eq_nil_of_le hall, List.nil_append, hih]
      simp

end Framing

end McDaemon.Lib
