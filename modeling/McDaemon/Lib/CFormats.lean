/-
# McDaemon.Lib.CFormats — the texts that `printf` makes of numbers.

Hexadecimal, two digits for a byte, and signed decimal.  Both tell the numbers apart, and the length
of a decimal says how large the number is.
-/
import Mathlib.Data.Nat.Digits.Lemmas
import McDaemon.Lib.CStrings

namespace McDaemon.Lib.CStrings

/-! ## Hexadecimal -/

def hexDigit (n : Nat) : UInt8 := (ascii "0123456789abcdef").getD n 0

/-- `%02x` of each byte. -/
def hexText (bytes : List UInt8) : List UInt8 :=
  bytes.flatMap fun b => [hexDigit (b.toNat / 16), hexDigit (b.toNat % 16)]

theorem hexDigit_ne_zero {n : Nat} (hn : n < 16) : hexDigit n ≠ 0 := by
  have hall : ∀ a < 16, hexDigit a ≠ 0 := by decide
  exact hall n hn

theorem hexDigit_inj {m n : Nat} (hm : m < 16) (hn : n < 16) (h : hexDigit m = hexDigit n) :
    m = n := by
  have hall : ∀ a < 16, ∀ b < 16, hexDigit a = hexDigit b → a = b := by decide
  exact hall m hm n hn h

theorem hexText_cons (b : UInt8) (bs : List UInt8) :
    hexText (b :: bs) = hexDigit (b.toNat / 16) :: hexDigit (b.toNat % 16) :: hexText bs := rfl

theorem hexText_append (as bs : List UInt8) : hexText (as ++ bs) = hexText as ++ hexText bs :=
  List.flatMap_append

theorem length_hexText (bytes : List UInt8) : (hexText bytes).length = 2 * bytes.length := by
  induction bytes with
  | nil => rfl
  | cons b bs ih =>
    rw [hexText_cons, List.length_cons, List.length_cons, ih, List.length_cons]
    omega

theorem nonzero_hexText (bytes : List UInt8) : 0 ∉ hexText bytes := by
  intro hzero
  obtain ⟨b, -, hdigit⟩ := List.mem_flatMap.mp hzero
  have hb := b.toNat_lt
  rcases List.mem_cons.mp hdigit with hhigh | hlow
  · exact hexDigit_ne_zero (by omega) hhigh.symm
  · exact hexDigit_ne_zero (by omega) (List.mem_singleton.mp hlow).symm

theorem hexText_inj {as bs : List UInt8} (h : hexText as = hexText bs) : as = bs := by
  induction as generalizing bs with
  | nil =>
    cases bs with
    | nil => rfl
    | cons b bs =>
      rw [hexText_cons] at h
      exact absurd h.symm (List.cons_ne_nil _ _)
  | cons a as ih =>
    cases bs with
    | nil =>
      rw [hexText_cons] at h
      exact absurd h (List.cons_ne_nil _ _)
    | cons b bs =>
      rw [hexText_cons, hexText_cons] at h
      obtain ⟨hhigh, hrest⟩ := List.cons.inj h
      obtain ⟨hlow, htail⟩ := List.cons.inj hrest
      have ha := a.toNat_lt
      have hb := b.toNat_lt
      have hhighs := hexDigit_inj (by omega) (by omega) hhigh
      have hlows := hexDigit_inj (by omega) (by omega) hlow
      have hab : a = b := UInt8.toNat_inj.mp (by omega)
      rw [hab, ih htail]

/-! ## Decimal -/

def minus : UInt8 := 0x2D

def decimalDigit (d : Nat) : UInt8 := UInt8.ofNat (0x30 + d)

/-- The digits, the highest in front. -/
def digitsText (n : Nat) : List UInt8 := (Nat.digits 10 n).reverse.map decimalDigit

/-- `%d` -/
def decimal (x : Int) : List UInt8 :=
  if x = 0 then [decimalDigit 0]
  else (if x < 0 then [minus] else []) ++ digitsText x.natAbs

theorem toNat_decimalDigit {d : Nat} (hd : d < 10) : (decimalDigit d).toNat - 0x30 = d := by
  have hall : ∀ d < 10, (decimalDigit d).toNat - 0x30 = d := by decide
  exact hall d hd

theorem mem_digitsText {b : UInt8} {n : Nat} (hb : b ∈ digitsText n) :
    ∃ d < 10, decimalDigit d = b := by
  obtain ⟨d, hd, hdigit⟩ := List.mem_map.mp hb
  exact ⟨d, Nat.digits_lt_base (by decide) (List.mem_reverse.mp hd), hdigit⟩

theorem decimalDigit_ne {d : Nat} (hd : d < 10) :
    decimalDigit d ≠ 0 ∧ decimalDigit d ≠ minus := by
  have hall : ∀ d < 10, decimalDigit d ≠ 0 ∧ decimalDigit d ≠ minus := by decide
  exact hall d hd

theorem nonzero_decimal (x : Int) : 0 ∉ decimal x := by
  have hdigits : 0 ∉ digitsText x.natAbs := fun hzero => by
    obtain ⟨d, hd, hdigit⟩ := mem_digitsText hzero
    exact (decimalDigit_ne hd).1 hdigit
  unfold decimal
  split
  · decide
  · split
    · exact nonzero_append (by decide) hdigits
    · exact hdigits

theorem digitsText_inj {m n : Nat} (h : digitsText m = digitsText n) : m = n := by
  have hback : ∀ k, (digitsText k).map (fun b => b.toNat - 0x30) = (Nat.digits 10 k).reverse := by
    intro k
    have hdigit : ∀ d ∈ (Nat.digits 10 k).reverse,
        ((fun b : UInt8 => b.toNat - 0x30) ∘ decimalDigit) d = id d := fun d hd =>
      toNat_decimalDigit (Nat.digits_lt_base (by decide) (List.mem_reverse.mp hd))
    rw [digitsText, List.map_map, List.map_congr_left hdigit, List.map_id]
  have hdigits := (hback m).symm.trans ((congrArg _ h).trans (hback n))
  exact Nat.digits_inj_iff.mp (List.reverse_inj.mp hdigits)

/-- A sign in front of digits. -/
theorem minus_cons_ne {m n : Nat} : minus :: digitsText m ≠ digitsText n := by
  intro h
  have hmem : minus ∈ digitsText n := h ▸ List.mem_cons_self
  obtain ⟨d, hd, hdigit⟩ := mem_digitsText hmem
  exact (decimalDigit_ne hd).2 hdigit

theorem decimal_of_pos {x : Int} (hx : 0 < x) : decimal x = digitsText x.natAbs := by
  rw [decimal, if_neg (by omega), if_neg (by omega), List.nil_append]

theorem decimal_of_neg {x : Int} (hx : x < 0) : decimal x = minus :: digitsText x.natAbs := by
  rw [decimal, if_neg (by omega), if_pos hx, List.singleton_append]

theorem decimal_inj {x y : Int} (hx : x ≠ 0) (hy : y ≠ 0) (h : decimal x = decimal y) :
    x = y := by
  rcases Int.lt_or_gt_of_ne hx with hxneg | hxpos
  · rcases Int.lt_or_gt_of_ne hy with hyneg | hypos
    · rw [decimal_of_neg hxneg, decimal_of_neg hyneg] at h
      have habs := digitsText_inj (List.cons.inj h).2
      omega
    · rw [decimal_of_neg hxneg, decimal_of_pos hypos] at h
      exact absurd h minus_cons_ne
  · rcases Int.lt_or_gt_of_ne hy with hyneg | hypos
    · rw [decimal_of_pos hxpos, decimal_of_neg hyneg] at h
      exact absurd h.symm minus_cons_ne
    · rw [decimal_of_pos hxpos, decimal_of_pos hypos] at h
      have habs := digitsText_inj h
      omega

theorem length_digitsText_le {n k : Nat} : (digitsText n).length ≤ k ↔ n < 10 ^ k := by
  rw [digitsText, List.length_map, List.length_reverse]
  exact Nat.digits_length_le_iff (by decide) n

theorem length_decimal_of_pos {x : Int} (hx : 0 < x) {k : Nat} :
    (decimal x).length ≤ k ↔ x.natAbs < 10 ^ k := by
  rw [decimal_of_pos hx, length_digitsText_le]

theorem length_decimal_of_neg {x : Int} (hx : x < 0) {k : Nat} :
    (decimal x).length ≤ k + 1 ↔ x.natAbs < 10 ^ k := by
  rw [decimal_of_neg hx, List.length_cons, Nat.succ_le_succ_iff, length_digitsText_le]

/-- The last digit is what division by ten takes away. -/
theorem decimal_concat {n : Nat} (hn : 10 ≤ n) :
    decimal (-n) = decimal (-(n / 10 : Nat)) ++ [decimalDigit (n % 10)] := by
  have hpos : 0 < n / 10 := Nat.div_pos hn (by decide)
  have hdigits : Nat.digits 10 n = n % 10 :: Nat.digits 10 (n / 10) :=
    Nat.digits_def' (by decide) (by omega)
  have habs : (-(n : Int)).natAbs = n := by omega
  have habs' : (-((n / 10 : Nat) : Int)).natAbs = n / 10 := by omega
  rw [decimal_of_neg (by omega), decimal_of_neg (by omega), habs, habs', digitsText, digitsText,
    hdigits, List.reverse_cons, List.map_append, List.cons_append, List.map_singleton]

end McDaemon.Lib.CStrings
