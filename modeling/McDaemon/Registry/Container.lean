/-
# McDaemon.Registry.Container — the registry's files: their names, their sizes, their children.

The registry keeps everything under one directory.  Service providers are known by a 32-bit spid
and trustlets by a 16-byte uuid; both go into file names as hexadecimal digits.  A root container
lists up to 16 service providers, and the container of a service provider up to 16 trustlets.
-/
import Mathlib.Data.List.TakeDrop
import Mathlib.Data.UInt
import McDaemon.Api
import McDaemon.Lib.Bytes
import McDaemon.Lib.FileSystem

namespace McDaemon.Registry

open McDaemon.Lib

abbrev Spid := UInt32

abbrev Uuid := Vector UInt8 16

/-- The file system under the registry. -/
abbrev Fs := FileSystem String

/-! ## Sizes -/

/-- `MAX_TL_SIZE`. -/
def maxTlSize : Nat := 1024 * 1024

/-- `MAX_SO_CONT_SIZE`. -/
def maxSoContSize : Nat := 512

/-- `sizeof(mcSoRootCont_t)`. -/
def sizeofRootCont : Nat := 220

/-- `sizeof(mcSoSpCont_t)`. -/
def sizeofSpCont : Nat := 396

/-- `sizeof(mcBlobLenInfo_t)`. -/
def sizeofBlobLenInfo : Nat := 32

/-! ## Children -/

def mcSpidFree : Spid := 0xFFFFFFFF

def mcSpidSystem : Spid := 0xFFFFFFFE

def mcUuidFree : Uuid := Vector.replicate 16 0xFF

/-- The zero uuid. -/
def zeroUuid : Uuid := Vector.replicate 16 0

/-- `MC_CONT_CHILDREN_COUNT`. -/
def mcContChildrenCount : Nat := 16

/-- The slots of a root container, each a little-endian spid. -/
def rootSlots (cont : List UInt8) : List Spid :=
  (List.range mcContChildrenCount).map fun i =>
    UInt32.ofNat (ofLe ((cont.drop (76 + 4 * i)).take 4))

/-- A uuid from its bytes. -/
def uuidOf (bytes : List UInt8) : Uuid := Vector.ofFn fun j => bytes.getD j 0

/-- The slots of a service provider's container, each a uuid. -/
def spSlots (cont : List UInt8) : List Uuid :=
  (List.range mcContChildrenCount).map fun i => uuidOf (cont.drop (60 + 16 * i))

/-- The service providers that a root container lists. -/
def rootChildren (cont : List UInt8) : List Spid := (rootSlots cont).filter (· ≠ mcSpidFree)

/-- The trustlets that the container of a service provider lists. -/
def spChildren (cont : List UInt8) : List Uuid := (spSlots cont).filter (· ≠ mcUuidFree)

theorem uuidOf_take {bytes : List UInt8} {n : Nat} (hn : 16 ≤ n) :
    uuidOf (bytes.take n) = uuidOf bytes := by
  apply Vector.ext
  intro j hj
  rw [uuidOf, uuidOf, Vector.getElem_ofFn, Vector.getElem_ofFn, List.getD_eq_getElem?_getD,
    List.getD_eq_getElem?_getD, List.getElem?_take, if_pos (by omega)]

/-- The slots lie in the part of a container that its structure covers. -/
theorem rootChildren_take (cont : List UInt8) :
    rootChildren (cont.take sizeofRootCont) = rootChildren cont := by
  have hsize : sizeofRootCont = 220 := rfl
  have hcount : mcContChildrenCount = 16 := rfl
  have hslots : rootSlots (cont.take sizeofRootCont) = rootSlots cont := by
    apply List.map_congr_left
    intro i hi
    have hi := List.mem_range.mp hi
    rw [List.drop_take, List.take_take, Nat.min_eq_left (by omega)]
  rw [rootChildren, rootChildren, hslots]

theorem spChildren_take (cont : List UInt8) :
    spChildren (cont.take sizeofSpCont) = spChildren cont := by
  have hsize : sizeofSpCont = 396 := rfl
  have hcount : mcContChildrenCount = 16 := rfl
  have hslots : spSlots (cont.take sizeofSpCont) = spSlots cont := by
    apply List.map_congr_left
    intro i hi
    have hi := List.mem_range.mp hi
    rw [List.drop_take]
    exact uuidOf_take (by omega)
  rw [spChildren, spChildren, hslots]

/-! ## File names -/

/-- A digit of `%02x`. -/
def hexDigit (n : Nat) : Char := "0123456789abcdef".toList.getD n '0'

/-- A digit of `%08X`. -/
def hexDigitUpper (n : Nat) : Char := "0123456789ABCDEF".toList.getD n '0'

def byteArrayToString (bytes : List UInt8) : String :=
  String.ofList (bytes.flatMap fun b => [hexDigit (b.toNat / 16), hexDigit (b.toNat % 16)])

/-- `%08X`, turned round: the lowest digit comes first. -/
def uint32ToString (value : UInt32) : String :=
  String.ofList ((List.range 8).map fun i => hexDigitUpper (value.toNat / 16 ^ i % 16))

/-- `MC_REGISTRY_DATA_PATH`. -/
def mcRegistryDataPath : List String := ["data", "app", "mcRegistry"]

/-- A file of the registry. -/
def inRegistry (name : String) : List String := mcRegistryDataPath ++ [name]

def rootContName : String := "00000000" ++ ".rootcont"

def spContName (spid : Spid) : String := uint32ToString spid ++ ".spcont"

def tlContName (uuid : Uuid) (spid : Spid) : String :=
  byteArrayToString uuid.toList ++ "." ++ uint32ToString spid ++ ".tlcont"

def getTbStoragePath : List String := inRegistry "TbStorage"

def getRootContFilePath : List String := inRegistry rootContName

def getSpDataPath (spid : Spid) : List String := inRegistry (uint32ToString spid)

def getSpContFilePath (spid : Spid) : List String := inRegistry (spContName spid)

def getTlContFilePath (uuid : Uuid) (spid : Spid) : List String :=
  inRegistry (tlContName uuid spid)

def getTlDataPath (uuid : Uuid) : List String := inRegistry (byteArrayToString uuid.toList)

/-- `getTlBinFilePath` in the writable registry. -/
def getTlBinFilePath (uuid : Uuid) : List String :=
  inRegistry (byteArrayToString uuid.toList ++ ".tlbin")

/-- `getTABinFilePath` in the writable registry. -/
def getTABinFilePath (uuid : Uuid) : List String :=
  inRegistry (byteArrayToString uuid.toList ++ ".tabin")

/-- `getTASpidFilePath` in the writable registry. -/
def getTASpidFilePath (uuid : Uuid) : List String :=
  inRegistry (byteArrayToString uuid.toList ++ ".spid")

/-- A registry in which nothing is stored yet. -/
def freshRegistry : Fs where
  nodes := ⟨[⟨[], .dir⟩, ⟨["data"], .dir⟩, ⟨["data", "app"], .dir⟩, ⟨mcRegistryDataPath, .dir⟩],
    by unfold List.NodupKeys; decide⟩
  fault := none

/-! ## Names apart -/

theorem inRegistry_inj {m n : String} (h : inRegistry m = inRegistry n) : m = n :=
  (List.cons.inj (List.append_cancel_left h)).1

theorem hexDigit_inj {m n : Nat} (hm : m < 16) (hn : n < 16) (h : hexDigit m = hexDigit n) :
    m = n := by
  have hall : ∀ a < 16, ∀ b < 16, hexDigit a = hexDigit b → a = b := by decide
  exact hall m hm n hn h

theorem hexDigitUpper_inj {m n : Nat} (hm : m < 16) (hn : n < 16)
    (h : hexDigitUpper m = hexDigitUpper n) : m = n := by
  have hall : ∀ a < 16, ∀ b < 16, hexDigitUpper a = hexDigitUpper b → a = b := by decide
  exact hall m hm n hn h

/-- The hexadecimal digits in either case. -/
def isHexChar (c : Char) : Prop := ∃ n < 16, c = hexDigit n ∨ c = hexDigitUpper n

theorem isHexChar.ne {c : Char} (h : isHexChar c) : c ≠ '.' ∧ c ≠ 't' := by
  have hall : ∀ a < 16, hexDigit a ≠ '.' ∧ hexDigit a ≠ 't' ∧ hexDigitUpper a ≠ '.' ∧
      hexDigitUpper a ≠ 't' := by decide
  obtain ⟨n, hn, rfl | rfl⟩ := h
  · exact ⟨(hall n hn).1, (hall n hn).2.1⟩
  · exact ⟨(hall n hn).2.2.1, (hall n hn).2.2.2⟩

@[simp] theorem length_byteArrayToString (bs : List UInt8) :
    (byteArrayToString bs).toList.length = 2 * bs.length := by
  rw [byteArrayToString, String.toList_ofList]
  induction bs with
  | nil => rfl
  | cons b bs ih =>
    rw [List.flatMap_cons, List.length_append, ih, List.length_cons]
    simp only [List.length_cons, List.length_nil]
    omega

@[simp] theorem length_uint32ToString (v : UInt32) : (uint32ToString v).toList.length = 8 := by
  simp [uint32ToString]

theorem isHexChar_byteArrayToString {bs : List UInt8} {c : Char}
    (hc : c ∈ (byteArrayToString bs).toList) : isHexChar c := by
  rw [byteArrayToString, String.toList_ofList, List.mem_flatMap] at hc
  obtain ⟨b, -, hc⟩ := hc
  have hb := b.toNat_lt
  rcases List.mem_cons.mp hc with rfl | hc
  · exact ⟨b.toNat / 16, by omega, .inl rfl⟩
  · rw [List.mem_singleton.mp hc]
    exact ⟨b.toNat % 16, by omega, .inl rfl⟩

theorem isHexChar_uint32ToString {v : UInt32} {c : Char} (hc : c ∈ (uint32ToString v).toList) :
    isHexChar c := by
  rw [uint32ToString, String.toList_ofList, List.mem_map] at hc
  obtain ⟨i, -, rfl⟩ := hc
  exact ⟨_, Nat.mod_lt _ (by decide), .inr rfl⟩

theorem byteArrayToString_inj {as bs : List UInt8} (hlen : as.length = bs.length)
    (h : (byteArrayToString as).toList = (byteArrayToString bs).toList) : as = bs := by
  rw [byteArrayToString, byteArrayToString, String.toList_ofList, String.toList_ofList] at h
  induction as generalizing bs with
  | nil => exact (List.length_eq_zero_iff.mp hlen.symm).symm
  | cons a as ih =>
    cases bs with
    | nil => cases hlen
    | cons b bs =>
      rw [List.flatMap_cons, List.flatMap_cons] at h
      obtain ⟨hab, hrest⟩ := List.append_inj h rfl
      have ha := a.toNat_lt
      have hb := b.toNat_lt
      have hhigh := hexDigit_inj (by omega) (by omega) (List.cons.inj hab).1
      have hlow := hexDigit_inj (by omega) (by omega)
        (List.cons.inj (List.cons.inj hab).2).1
      have heq : a = b := UInt8.toNat_inj.mp (by omega)
      rw [heq, ih (Nat.succ.inj hlen) hrest]

theorem uuidToString_inj {a b : Uuid}
    (h : (byteArrayToString a.toList).toList = (byteArrayToString b.toList).toList) : a = b :=
  Vector.toList_inj.mp (byteArrayToString_inj (by simp) h)

/-- The lower digits of two numbers that agree digit by digit. -/
theorem mod_pow_eq_of_digits {b v w : Nat} (n : Nat)
    (h : ∀ i < n, v / b ^ i % b = w / b ^ i % b) : v % b ^ n = w % b ^ n := by
  induction n with
  | zero => rw [Nat.pow_zero, Nat.mod_one, Nat.mod_one]
  | succ n ih =>
    rw [Nat.mod_pow_succ, Nat.mod_pow_succ, ih fun i hi => h i (Nat.lt_succ_of_lt hi),
      h n (Nat.lt_succ_self n)]

theorem uint32ToString_inj {v w : UInt32} (h : (uint32ToString v).toList =
    (uint32ToString w).toList) : v = w := by
  rw [uint32ToString, uint32ToString, String.toList_ofList, String.toList_ofList] at h
  have hdigit : ∀ i < 8, v.toNat / 16 ^ i % 16 = w.toNat / 16 ^ i % 16 := by
    intro i hi
    have hi' := List.map_inj_left.mp h i (List.mem_range.mpr hi)
    exact hexDigitUpper_inj (Nat.mod_lt _ (by decide)) (Nat.mod_lt _ (by decide)) hi'
  have hmod : v.toNat % 2 ^ 32 = w.toNat % 2 ^ 32 := mod_pow_eq_of_digits 8 hdigit
  rw [Nat.mod_eq_of_lt v.toNat_lt, Nat.mod_eq_of_lt w.toNat_lt] at hmod
  exact UInt32.toNat_inj.mp hmod

end McDaemon.Registry
