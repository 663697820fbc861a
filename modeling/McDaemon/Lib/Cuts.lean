/-
# McDaemon.Lib.Cuts — programs that read from a stream which arrives in pieces.

A stream socket hands out what has arrived, so a read may return less than it asks for.  A program
is a tree of reads: `once` asks one time and takes or refuses what came by its length, `all` asks
until it has everything.  `read` is the meaning of a program when every read gets all that it asks
for, `run` its meaning on a stream in pieces.

The cut rule says when the two agree: exactly when no piece ends inside what a `once` asks for.
-/
import Mathlib.Data.List.TakeDrop
import Mathlib.Tactic.SplitIfs

namespace McDaemon.Lib

/-! ## Streams in pieces -/

/-- A stream; each element comes with whether a piece ends behind it. -/
abbrev Pieces (β : Type*) := List (β × Bool)

namespace Pieces

variable {β : Type*}

/-- What the stream says, however it is cut. -/
def bytes (s : Pieces β) : List β := s.map Prod.fst

/-- One call of `recv`: at most `len` elements, and none from behind the end of a piece. -/
def recv : Nat → Pieces β → List β × Pieces β
  | 0, s => ([], s)
  | _ + 1, [] => ([], [])
  | n + 1, (b, cut) :: s =>
    if cut then ([b], s) else (b :: (recv n s).1, (recv n s).2)

/-- Calls of `recv` until `left` elements are there or the stream ends. -/
def recvAll : Nat → Nat → Pieces β → List β × Pieces β
  | 0, _, s => ([], s)
  | fuel + 1, left, s =>
    if left = 0 then ([], s)
    else
      let r := recv left s
      if r.1.length = 0 then r
      else
        let more := recvAll fuel (left - r.1.length) r.2
        (r.1 ++ more.1, more.2)

/-- No piece ends inside the next `len` elements. -/
def Clear (len : Nat) (s : Pieces β) : Prop := ∀ p ∈ (s.take len).dropLast, p.2 = false

instance (len : Nat) (s : Pieces β) : Decidable (Clear len s) :=
  inferInstanceAs (Decidable (∀ p ∈ (s.take len).dropLast, p.2 = false))

variable {s : Pieces β} {len : Nat}

@[simp] theorem length_bytes (s : Pieces β) : (bytes s).length = s.length := List.length_map _

theorem bytes_take (s : Pieces β) (len : Nat) : bytes (s.take len) = (bytes s).take len :=
  List.map_take

theorem bytes_drop (s : Pieces β) (len : Nat) : bytes (s.drop len) = (bytes s).drop len :=
  List.map_drop

/-- What `recv` returns is the front of the stream. -/
theorem recv_eq (len : Nat) (s : Pieces β) :
    recv len s = (bytes (s.take (recv len s).1.length), s.drop (recv len s).1.length) := by
  induction len generalizing s with
  | zero => rfl
  | succ n ih =>
    match s with
    | [] => rfl
    | (b, cut) :: s =>
      unfold recv
      by_cases hcut : cut = true
      · rw [if_pos hcut]
        rfl
      · rw [if_neg hcut]
        obtain ⟨hgot, hrest⟩ := Prod.ext_iff.mp (ih s)
        exact Prod.ext (congrArg (b :: ·) hgot) hrest

theorem length_recv_le (len : Nat) (s : Pieces β) : (recv len s).1.length ≤ min len s.length := by
  induction len generalizing s with
  | zero => exact Nat.zero_le _
  | succ n ih =>
    match s with
    | [] => exact Nat.zero_le _
    | (b, cut) :: s =>
      unfold recv
      have hrec := ih s
      by_cases hcut : cut = true
      · rw [if_pos hcut, List.length_singleton, List.length_cons]
        omega
      · rw [if_neg hcut]
        show ((recv n s).1.length + 1) ≤ _
        rw [List.length_cons]
        omega

/-- A `recv` that asks for something gets something, unless the stream has ended. -/
theorem length_recv_pos (hlen : 0 < len) (hs : s ≠ []) : 0 < (recv len s).1.length := by
  match len, s with
  | n + 1, (b, cut) :: s =>
    unfold recv
    by_cases hcut : cut = true
    · rw [if_pos hcut]
      exact Nat.zero_lt_one
    · rw [if_neg hcut]
      exact Nat.succ_pos _

/-- **One read.** It returns all it asks for exactly when no piece ends inside. -/
theorem length_recv_eq_iff : (recv len s).1.length = min len s.length ↔ Clear len s := by
  induction len generalizing s with
  | zero => simp [recv, Clear]
  | succ n ih =>
    match s with
    | [] => simp [recv, Clear]
    | (b, cut) :: s =>
      unfold recv Clear
      rw [List.take_succ_cons, List.length_cons]
      by_cases hcut : cut = true
      · rw [if_pos hcut, List.length_singleton]
        subst hcut
        -- the piece ends behind the first element, so there must be no second one
        cases htake : s.take n with
        | nil =>
          have hmin : min n s.length = 0 := by
            rw [← List.length_take, htake]
            rfl
          constructor
          · intro _ p hp
            cases hp
          · intro _
            omega
        | cons q tail =>
          have hmin : min n s.length = tail.length + 1 := by
            rw [← List.length_take, htake]
            rfl
          constructor
          · intro h
            omega
          · intro h
            have hfirst := h (b, true) (by simp [List.dropLast])
            cases hfirst
      · rw [if_neg hcut]
        show (recv n s).1.length + 1 = _ ↔ _
        have hrec := ih (s := s)
        unfold Clear at hrec
        have hfalse : cut = false := Bool.eq_false_iff.mpr hcut
        cases htake : s.take n with
        | nil =>
          have hmin : min n s.length = 0 := by
            rw [← List.length_take, htake]
            rfl
          have hle := length_recv_le n s
          constructor
          · intro _ p hp
            cases hp
          · intro _
            omega
        | cons q tail =>
          rw [htake] at hrec
          rw [List.dropLast_cons_of_ne_nil (List.cons_ne_nil _ _), List.forall_mem_cons, ← hrec]
          show _ ↔ cut = false ∧ _
          constructor
          · intro h
            exact ⟨hfalse, by omega⟩
          · rintro ⟨-, h⟩
            omega

theorem recv_of_clear (h : Clear len s) : recv len s = (bytes (s.take len), s.drop len) := by
  have hlen := length_recv_eq_iff.mpr h
  rw [recv_eq len s, hlen]
  rcases Nat.le_total len s.length with hle | hle
  · rw [Nat.min_eq_left hle]
  · rw [Nat.min_eq_right hle, List.take_of_length_le hle, List.drop_of_length_le hle,
      List.take_length, List.drop_length]

/-- **Reading on.** A loop gets the same however the stream is cut. -/
theorem recvAll_eq {fuel left : Nat} (hfuel : left ≤ fuel) (s : Pieces β) :
    recvAll fuel left s = (bytes (s.take left), s.drop left) := by
  induction fuel generalizing left s with
  | zero =>
    obtain rfl : left = 0 := Nat.le_zero.mp hfuel
    rfl
  | succ fuel ih =>
    unfold recvAll
    by_cases hleft : left = 0
    · rw [if_pos hleft, hleft]
      rfl
    · rw [if_neg hleft]
      have hle := length_recv_le left s
      have hgot := recv_eq left s
      by_cases hs : s = []
      · rw [hs]
        cases left with
        | zero => exact absurd rfl hleft
        | succ n => rfl
      · have hpos := length_recv_pos (Nat.pos_of_ne_zero hleft) hs
        generalize (recv left s).1.length = n at hle hgot hpos
        rw [hgot]
        have hn : (bytes (s.take n)).length = n := by
          rw [length_bytes, List.length_take]
          omega
        show (if (bytes (s.take n)).length = 0 then _ else _) = _
        rw [hn, if_neg (by omega)]
        rw [ih (show left - n ≤ fuel by omega) (s.drop n)]
        show (bytes (s.take n) ++ bytes ((s.drop n).take (left - n)),
          (s.drop n).drop (left - n)) = _
        have hsum : n + (left - n) = left := by omega
        rw [List.drop_drop, hsum]
        congr 1
        unfold bytes
        rw [← List.map_append, ← List.take_add, hsum]

end Pieces

/-! ## Programs -/

/-- What a read tells the program. -/
inductive Got (β : Type*)
  | closed
  | refused
  | field (bs : List β)
deriving DecidableEq, Repr

/-- A program that reads from a stream. -/
inductive Reads (β α : Type*)
  | done (a : α)
  | once (len : Nat) (takes : Nat → Bool) (next : Got β → Reads β α)
  | all (len : Nat) (next : Got β → Reads β α)

/-- What a program has read, its result, and what it leaves in the stream. -/
@[ext] structure Reading (β α : Type*) where
  trace : List (Got β)
  result : α
  rest : List β
deriving DecidableEq, Repr

/-- One read before others. -/
def Reading.after {β α : Type*} (e : Got β) (r : Reading β α) : Reading β α :=
  { r with trace := e :: r.trace }

theorem Reading.after_inj {β α : Type*} {e e' : Got β} {r r' : Reading β α} :
    r.after e = r'.after e' ↔ e = e' ∧ r = r' := by
  constructor
  · intro h
    injection h with htrace hresult hrest
    injection htrace with he htrace
    exact ⟨he, Reading.ext htrace hresult hrest⟩
  · rintro ⟨rfl, rfl⟩
    rfl

namespace Reads

variable {β α γ : Type*}

/-- A single read is judged by the number of elements it got. -/
def judge (takes : Nat → Bool) (got : List β) : Got β :=
  if got.length = 0 then .closed else if takes got.length then .field got else .refused

def judgeAll (len : Nat) (got : List β) : Got β := if got.length = len then .field got else .closed

def bind : Reads β α → (α → Reads β γ) → Reads β γ
  | .done a, f => f a
  | .once len takes next, f => .once len takes fun e => (next e).bind f
  | .all len next, f => .all len fun e => (next e).bind f

/-- The program where every read gets all it asks for, as far as the stream has it. -/
def read : Reads β α → List β → Reading β α
  | .done a, s => ⟨[], a, s⟩
  | .once len takes next, s =>
    let e := judge takes (s.take len)
    ((next e).read (s.drop len)).after e
  | .all len next, s =>
    let e := judgeAll len (s.take len)
    ((next e).read (s.drop len)).after e

/-- The program on a stream in pieces. -/
def run : Reads β α → Pieces β → Reading β α
  | .done a, s => ⟨[], a, s.bytes⟩
  | .once len takes next, s =>
    let e := judge takes (s.recv len).1
    ((next e).run (s.recv len).2).after e
  | .all len next, s =>
    let e := judgeAll len (s.recvAll len len).1
    ((next e).run (s.recvAll len len).2).after e

/-- No read takes less than it asks for while the stream has more. -/
def NoneShort : Reads β α → Pieces β → Prop
  | .done _, _ => True
  | .once len takes next, s =>
    (takes (s.recv len).1.length → (s.recv len).1.length = min len s.length) ∧
      (next (judge takes (s.recv len).1)).NoneShort (s.recv len).2
  | .all len next, s =>
    (next (judgeAll len (s.recvAll len len).1)).NoneShort (s.recvAll len len).2

/-- The cuts make no difference: the program reads the same, gives the same result, leaves the same
in the stream, and takes nothing that is too short. -/
def Decodes (p : Reads β α) (s : Pieces β) : Prop := p.run s = p.read s.bytes ∧ p.NoneShort s

/-- No piece ends inside what a single read asks for. -/
def Whole : Reads β α → Pieces β → Prop
  | .done _, _ => True
  | .once len takes next, s =>
    s.Clear len ∧ (next (judge takes (Pieces.bytes (s.take len)))).Whole (s.drop len)
  | .all len next, s => (next (judgeAll len (Pieces.bytes (s.take len)))).Whole (s.drop len)

/-- The program tells a stream with something in it from one that has ended. -/
def Notices (p : Reads β α) : Prop := ∀ s : Pieces β, s ≠ [] → p.run s ≠ p.read []

/-- Every single read asks for something and takes it when it gets all of it, and whatever follows
a refusal notices what is left. -/
def Careful : Reads β α → Prop
  | .done _ => True
  | .once len takes next =>
    0 < len ∧ takes len ∧ (next .refused).Notices ∧ ∀ e, (next e).Careful
  | .all _ next => ∀ e, (next e).Careful

/-- The same, for programs that end with a refusal, and then with a result in `R`. -/
def Quits (R : α → Prop) : Reads β α → Prop
  | .done _ => True
  | .once len takes next =>
    0 < len ∧ takes len ∧ (∃ a, R a ∧ next .refused = .done a) ∧ ∀ e, (next e).Quits R
  | .all _ next => ∀ e, (next e).Quits R

section Rules

variable {p : Reads β α} {f : α → Reads β γ} {s : Pieces β} {a : α} {len : Nat}
  {takes : Nat → Bool} {next : Got β → Reads β α}

theorem notices_done : (done a : Reads β α).Notices := by
  intro s hs heq
  apply hs
  have hrest : s.bytes = [] := congrArg Reading.rest heq
  exact List.map_eq_nil_iff.mp hrest

/-- A single read notices whether anything is there. -/
theorem notices_once (hlen : 0 < len) : (once len takes next).Notices := by
  intro s hs heq
  have hpos := Pieces.length_recv_pos hlen hs
  obtain ⟨hjudge, -⟩ := Reading.after_inj.mp heq
  unfold judge at hjudge
  rw [if_neg (by omega), List.take_nil, List.length_nil, if_pos rfl] at hjudge
  split_ifs at hjudge

theorem decodes_all : (all len next).Decodes s ↔
    (next (judgeAll len (Pieces.bytes (s.take len)))).Decodes (s.drop len) := by
  have hall := Pieces.recvAll_eq (Nat.le_refl len) s
  show (((next (judgeAll len (s.recvAll len len).1)).run (s.recvAll len len).2).after _ =
    ((next (judgeAll len (s.bytes.take len))).read (s.bytes.drop len)).after _ ∧
      (next (judgeAll len (s.recvAll len len).1)).NoneShort (s.recvAll len len).2) ↔ _
  rw [hall, Reading.after_inj, ← Pieces.bytes_take, ← Pieces.bytes_drop]
  exact and_congr ⟨fun h => h.2, fun h => ⟨rfl, h⟩⟩ Iff.rfl

/-- A read that no cut falls into is over and done with. -/
theorem decodes_once_of_clear (h : s.Clear len) : (once len takes next).Decodes s ↔
    (next (judge takes (Pieces.bytes (s.take len)))).Decodes (s.drop len) := by
  have hrecv := Pieces.recv_of_clear h
  have hlen := Pieces.length_recv_eq_iff.mpr h
  show (((next (judge takes (s.recv len).1)).run (s.recv len).2).after _ =
    ((next (judge takes (s.bytes.take len))).read (s.bytes.drop len)).after _ ∧
      (_ → (s.recv len).1.length = _) ∧ (next (judge takes (s.recv len).1)).NoneShort _) ↔ _
  rw [hlen, hrecv, Reading.after_inj, ← Pieces.bytes_take, ← Pieces.bytes_drop]
  constructor
  · rintro ⟨⟨-, heq⟩, -, hshort⟩
    exact ⟨heq, hshort⟩
  · rintro ⟨heq, hshort⟩
    exact ⟨⟨rfl, heq⟩, fun _ => rfl, hshort⟩

/-- A read that a cut falls into either takes too little or leaves something behind. -/
theorem not_decodes_once (hlen : 0 < len) (htakes : takes len) (hnotices : (next .refused).Notices)
    (h : ¬ s.Clear len) : ¬ (once len takes next).Decodes s := by
  rintro ⟨heq, hshort, -⟩
  have hne : (s.recv len).1.length ≠ min len s.length := fun hall =>
    h (Pieces.length_recv_eq_iff.mp hall)
  have hle := Pieces.length_recv_le len s
  have hs : s ≠ [] := by
    rintro rfl
    exact h fun p hp => by simp at hp
  have hpos := Pieces.length_recv_pos hlen hs
  obtain ⟨hjudge, hrest⟩ := Reading.after_inj.mp heq
  have hrefused : judge takes (s.recv len).1 = .refused := by
    unfold judge
    rw [if_neg (by omega), if_neg fun htook => hne (hshort htook)]
  rw [hrefused] at hjudge hrest
  rw [← hjudge] at hrest
  -- a refusal of all that is left means that the stream ends inside the read
  have hend : s.length < len := by
    by_contra hmore
    have hlength : (s.bytes.take len).length = len := by
      rw [List.length_take, Pieces.length_bytes]
      omega
    unfold judge at hjudge
    rw [hlength, if_neg (by omega), if_pos htakes] at hjudge
    cases hjudge
  rw [List.drop_eq_nil_of_le (by rw [Pieces.length_bytes]; omega)] at hrest
  apply hnotices (s.recv len).2 _ hrest
  rw [Pieces.recv_eq len s]
  apply List.ne_nil_of_length_pos
  rw [List.length_drop]
  omega

/-- **The cut rule.** For a careful program the cuts make no difference exactly when no piece ends
inside what a single read asks for. -/
theorem decodes_iff_whole (h : p.Careful) : p.Decodes s ↔ p.Whole s := by
  induction p generalizing s with
  | done a => exact ⟨fun _ => trivial, fun _ => ⟨rfl, trivial⟩⟩
  | all len next ih => exact decodes_all.trans (ih _ (h _))
  | once len takes next ih =>
    obtain ⟨hlen, htakes, hnotices, hnext⟩ := h
    by_cases hclear : s.Clear len
    · rw [decodes_once_of_clear hclear]
      apply (ih _ (hnext _)).trans
      exact ⟨fun hwhole => ⟨hclear, hwhole⟩, fun hwhole => hwhole.2⟩
    · constructor
      · intro hdecodes
        exact absurd hdecodes (not_decodes_once hlen htakes hnotices hclear)
      · intro hwhole
        exact absurd hwhole.1 hclear

/-! ## Composition -/

/-- A program that ends with a refusal may be followed by one that notices what is left. -/
theorem Quits.careful_bind {R : α → Prop} (h : p.Quits R) (hf : ∀ a, (f a).Careful)
    (hn : ∀ a, R a → (f a).Notices) : (p.bind f).Careful := by
  induction p with
  | done a => exact hf a
  | all len next ih => exact fun e => ih e (h e)
  | once len takes next ih =>
    obtain ⟨hlen, htakes, ⟨a, hR, ha⟩, hnext⟩ := h
    refine ⟨hlen, htakes, ?_, fun e => ih e (hnext e)⟩
    show ((next .refused).bind f).Notices
    rw [ha]
    exact hn a hR

/-- Both may go on to end with a refusal. -/
theorem Quits.bind {R : α → Prop} {T : γ → Prop} (h : p.Quits R) (hf : ∀ a, (f a).Quits T)
    (hR : ∀ a, R a → ∃ c, T c ∧ f a = .done c) : (p.bind f).Quits T := by
  induction p with
  | done a => exact hf a
  | all len next ih => exact fun e => ih e (h e)
  | once len takes next ih =>
    obtain ⟨hlen, htakes, ⟨a, ha, hdone⟩, hnext⟩ := h
    refine ⟨hlen, htakes, ?_, fun e => ih e (hnext e)⟩
    show ∃ c, T c ∧ (next .refused).bind f = .done c
    rw [hdone]
    exact hR a ha

/-- What one program leaves is what the next one reads. -/
theorem read_bind (p : Reads β α) (f : α → Reads β γ) (s : List β) :
    (p.bind f).read s =
      let r := p.read s
      let t := (f r.result).read r.rest
      { t with trace := r.trace ++ t.trace } := by
  induction p generalizing s with
  | done a => rfl
  | once len takes next ih =>
    exact congrArg (Reading.after _) (ih _ (s.drop len))
  | all len next ih =>
    exact congrArg (Reading.after _) (ih _ (s.drop len))

end Rules

end Reads

end McDaemon.Lib
