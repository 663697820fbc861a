/-
# McDaemon.RootPa.Base64 — the encoding of command values and results.

Characters that do not belong to the alphabet are skipped when a value is decoded, padding and line
ends among them, and what is left over of a last group counts as far as it makes up whole bytes.
A value is undecodable when nothing comes out.
-/
import Mathlib.Data.List.Basic

namespace McDaemon.RootPa

/-- `cd64`: what a character stands for. -/
def sextet (c : Char) : Option Nat :=
  if 'A' ≤ c ∧ c ≤ 'Z' then some (c.toNat - 65)
  else if 'a' ≤ c ∧ c ≤ 'z' then some (c.toNat - 71)
  else if '0' ≤ c ∧ c ≤ '9' then some (c.toNat + 4)
  else if c = '+' then some 62
  else if c = '/' then some 63
  else none

/-- `cb64`: the character that stands for a number below 64. -/
def cb64 (v : Nat) : Char :=
  if v < 26 then Char.ofNat (v + 65)
  else if v < 52 then Char.ofNat (v + 71)
  else if v < 62 then Char.ofNat (v - 4)
  else if v = 62 then '+'
  else '/'

/-- `decodeblock` on one group after another.  A group of `len` characters gives `len - 1` bytes. -/
def decodeblocks : List Nat → List UInt8
  | a :: b :: c :: d :: rest =>
    UInt8.ofNat (a * 4 + b / 16) :: UInt8.ofNat (b % 16 * 16 + c / 4) ::
      UInt8.ofNat (c % 4 * 64 + d) :: decodeblocks rest
  | [a, b, c] => [UInt8.ofNat (a * 4 + b / 16), UInt8.ofNat (b % 16 * 16 + c / 4)]
  | [a, b] => [UInt8.ofNat (a * 4 + b / 16)]
  | _ => []

def base64DecodeStringRemoveEndZero (toBeDecoded : String) : List UInt8 :=
  decodeblocks (toBeDecoded.toList.filterMap sextet)

/-- `encodeblock` on one group after another. -/
def encodeblocks : List UInt8 → List Char
  | a :: b :: c :: rest =>
    cb64 (a.toNat / 4) :: cb64 (a.toNat % 4 * 16 + b.toNat / 16) ::
      cb64 (b.toNat % 16 * 4 + c.toNat / 64) :: cb64 (c.toNat % 64) :: encodeblocks rest
  | [a, b] =>
    [cb64 (a.toNat / 4), cb64 (a.toNat % 4 * 16 + b.toNat / 16), cb64 (b.toNat % 16 * 4), '=']
  | [a] => [cb64 (a.toNat / 4), cb64 (a.toNat % 4 * 16), '=', '=']
  | [] => []

def base64EncodeAddEndZero (toBeEncoded : List UInt8) : String :=
  String.ofList (encodeblocks toBeEncoded)

theorem sextet_cb64 {v : Nat} (h : v < 64) : sextet (cb64 v) = some v := by
  have hall : ∀ v < 64, sextet (cb64 v) = some v := by decide
  exact hall v h

theorem sextet_pad : sextet '=' = none := by decide

theorem decodeblocks_encodeblocks (bs : List UInt8) :
    decodeblocks ((encodeblocks bs).filterMap sextet) = bs := by
  fun_induction encodeblocks bs with
  | case1 a b c rest ih =>
    have ha := a.toNat_lt
    have hb := b.toNat_lt
    have hc := c.toNat_lt
    -- the four characters give back the three bytes
    have hout₀ : a.toNat / 4 * 4 + (a.toNat % 4 * 16 + b.toNat / 16) / 16 = a.toNat := by omega
    have hout₁ : (a.toNat % 4 * 16 + b.toNat / 16) % 16 * 16 +
        (b.toNat % 16 * 4 + c.toNat / 64) / 4 = b.toNat := by omega
    have hout₂ : (b.toNat % 16 * 4 + c.toNat / 64) % 4 * 64 + c.toNat % 64 = c.toNat := by omega
    simp (disch := omega) only [List.filterMap_cons, sextet_cb64]
    rw [decodeblocks, hout₀, hout₁, hout₂, ih]
    simp
  | case2 a b =>
    have ha := a.toNat_lt
    have hb := b.toNat_lt
    have hout₀ : a.toNat / 4 * 4 + (a.toNat % 4 * 16 + b.toNat / 16) / 16 = a.toNat := by omega
    have hout₁ : (a.toNat % 4 * 16 + b.toNat / 16) % 16 * 16 + b.toNat % 16 * 4 / 4 = b.toNat := by
      omega
    simp (disch := omega) only [List.filterMap_cons, List.filterMap_nil, sextet_cb64, sextet_pad]
    rw [decodeblocks, hout₀, hout₁]
    simp
  | case3 a =>
    have ha := a.toNat_lt
    have hout : a.toNat / 4 * 4 + a.toNat % 4 * 16 / 16 = a.toNat := by omega
    simp (disch := omega) only [List.filterMap_cons, List.filterMap_nil, sextet_cb64, sextet_pad]
    rw [decodeblocks, hout]
    simp
  | case4 => rfl

/-- **What is encoded decodes** to the same bytes. -/
theorem decode_encode (bs : List UInt8) :
    base64DecodeStringRemoveEndZero (base64EncodeAddEndZero bs) = bs := by
  rw [base64DecodeStringRemoveEndZero, base64EncodeAddEndZero, String.toList_ofList]
  exact decodeblocks_encodeblocks bs

example : base64EncodeAddEndZero [0] = "AA==" := by decide

end McDaemon.RootPa
