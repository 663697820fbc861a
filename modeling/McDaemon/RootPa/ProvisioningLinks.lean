/-
# McDaemon.RootPa.ProvisioningLinks — the address that the service enabler is asked at.

The buffer for a link has its size from a sum in `createBasicLink`, which counts eight bytes for the
decimal and its slash; the functions that append to it go by `strlen`.  The decimal of a service
provider goes through an array of twelve bytes, which is one too few for the longest.
-/
import Mathlib.Data.Vector.Basic
import McDaemon.Lib.CFormats
import McDaemon.RootPa.Provisioning

namespace McDaemon.RootPa.ProvisioningLinks

open McDaemon.Lib.CStrings McDaemon.RootPa.Provisioning

/-! ## The initial address -/

def seUrl : List UInt8 :=
  ascii "https://se.cgbe.trustonic.com:8443/service-enabler/enrollment/"

def intStringLength : Nat := 12
def initialUrlBufferLength : Nat := 255

/-- `setInitialAddress`, with what becomes of `initialUrl_`. -/
def setInitialAddress (addrP : Option (List UInt8)) : Except RootpaError CArray :=
  match addrP with
  | none => .error rootpaErrorInternal
  | some addr =>
    if addr.length = 0 then .error rootpaErrorInternal
    else if initialUrlBufferLength < addr.length + 1 then .error rootpaErrorIllegalArgument
    else .ok (padded addr initialUrlBufferLength)

/-- An address that is accepted. -/
structure Address where
  bytes : List UInt8
  nonempty : bytes.length ≠ 0
  fits : bytes.length + 1 ≤ initialUrlBufferLength

def Address.initialUrl (a : Address) : CArray := padded a.bytes initialUrlBufferLength

/-- These are the addresses that are accepted. -/
theorem setInitialAddress_ok_iff (addrP : Option (List UInt8)) (url : CArray) :
    setInitialAddress addrP = .ok url ↔
      ∃ a : Address, addrP = some a.bytes ∧ url = a.initialUrl := by
  constructor
  · intro h
    cases addrP with
    | none => exact absurd h (by simp [setInitialAddress])
    | some addr =>
      by_cases hempty : addr.length = 0
      · exact absurd h (by simp [setInitialAddress, hempty])
      · by_cases hlong : initialUrlBufferLength < addr.length + 1
        · exact absurd h (by simp [setInitialAddress, hempty, hlong])
        · rw [setInitialAddress, if_neg hempty, if_neg hlong] at h
          exact ⟨⟨addr, hempty, Nat.le_of_not_lt hlong⟩, rfl, (Except.ok.inj h).symm⟩
  · rintro ⟨a, rfl, rfl⟩
    rw [setInitialAddress, if_neg a.nonempty, if_neg (Nat.not_lt_of_le a.fits)]
    rfl

/-! ## Building a link -/

def slash : UInt8 := 0x2F
def dash : UInt8 := 0x2D

/-- `addSlashToUri` -/
def addSlashToUri (uri : CArray) : Except OutOfBounds CArray := do
  let uriidx ← strlen uri
  store uri uriidx [slash]

/-- `singleNumber`, from a half of a byte. -/
def singleNumber (n : UInt8) : UInt8 := if n < 0xA then n + 0x30 else n + 0x57

/-- The loop of `addBytesToUri`. -/
def addBytes (uuid : Bool) (uri : CArray) (uriidx i : Nat) :
    List UInt8 → Except OutOfBounds CArray
  | [] => .ok uri
  | b :: bs => do
    let uri ← store uri uriidx [singleNumber (b >>> 4)]
    let uri ← store uri (uriidx + 1) [singleNumber (b &&& 0x0F)]
    if uuid = true ∧ (3 = i ∨ 5 = i ∨ 7 = i ∨ 9 = i) then
      let uri ← store uri (uriidx + 2) [dash]
      addBytes uuid uri (uriidx + 3) (i + 1) bs
    else addBytes uuid uri (uriidx + 2) (i + 1) bs

/-- `addBytesToUri` -/
def addBytesToUri (uri : CArray) (bytes : List UInt8) (uuid : Bool) :
    Except OutOfBounds CArray := do
  let uriidx ← strlen uri
  addBytes uuid uri uriidx 0 bytes

/-- `%d` of an unsigned number. -/
def signed (n : UInt32) : Int := n.toBitVec.toInt

/-- `addIntToUri` -/
def addIntToUri (uri : CArray) (addThis : UInt32) : Except OutOfBounds CArray := do
  let intInString ←
    snprintf (cleared intStringLength) 0 intStringLength (slash :: decimal (signed addThis))
  let end_ ← strlen uri
  strncpy uri end_ intInString intStringLength

abbrev McSuid := Vector UInt8 16
abbrev McUuid := Vector UInt8 16

/-- `createBasicLink`, with memory at hand. -/
def createBasicLink (initialUrl : CArray) (suid : McSuid) : Except OutOfBounds CArray := do
  let urlLength := (← strlen initialUrl) + 16 * 2 + 4 * 2 + 16 * 2 + 6
  let tmpLink ← strncpy (cleared urlLength) 0 initialUrl urlLength
  addBytesToUri tmpLink suid.toList false

/-- What a link is made for: the uuid is that of a trustlet to be installed. -/
structure Request where
  delete : Bool
  suid : McSuid
  spid : UInt32
  uuid : Option McUuid
deriving DecidableEq

/-- The address that is used when there is none. -/
def usedUrl (initialUrl : CArray) : Except OutOfBounds CArray := do
  let length ← strlen initialUrl
  if length = 0 then strncpy (cleared initialUrlBufferLength) 0 (literal seUrl) seUrl.length
  else .ok initialUrl

/-- The service provider, which a delete leaves out; 0 is none. -/
def addSpid (r : Request) (linkP : CArray) : Except OutOfBounds CArray :=
  if r.delete = false ∧ r.spid ≠ 0 then addIntToUri linkP r.spid else .ok linkP

/-- The trustlet, when one is installed. -/
def addUuid (r : Request) (linkP : CArray) : Except OutOfBounds CArray :=
  match r.uuid with
  | none => .ok linkP
  | some uuid => do
    let linkP ← addSlashToUri linkP
    addBytesToUri linkP uuid.toList true

/-- The first part of `doProvisioningWithSe`, as far as the link goes. -/
def link (initialUrl : CArray) (r : Request) : Except OutOfBounds CArray := do
  let linkP ← createBasicLink (← usedUrl initialUrl) r.suid
  let linkP ← addSpid r linkP
  addUuid r linkP

/-- The link as a string, which ends inside of its buffer. -/
def url (a : Address) (r : Request) : Except OutOfBounds (List UInt8) := do
  let linkP ← link a.initialUrl r
  let _length ← strlen linkP
  .ok (cstring linkP)

/-! ## What a link is to be -/

/-- A uuid as it is written. -/
def dashed (uuid : McUuid) : List UInt8 :=
  hexText (uuid.toList.take 4) ++ dash :: (hexText ((uuid.toList.drop 4).take 2) ++
    dash :: (hexText ((uuid.toList.drop 6).take 2) ++
      dash :: (hexText ((uuid.toList.drop 8).take 2) ++
        dash :: hexText (uuid.toList.drop 10))))

/-- The part for the service provider. -/
def spidPart (r : Request) : List UInt8 :=
  if r.delete = false ∧ r.spid ≠ 0 then slash :: decimal (signed r.spid) else []

/-- The part for the trustlet. -/
def uuidPart (r : Request) : List UInt8 :=
  match r.uuid with
  | none => []
  | some uuid => slash :: dashed uuid

def expected (a : Address) (r : Request) : List UInt8 :=
  a.bytes ++ hexText r.suid.toList ++ spidPart r ++ uuidPart r

/-- The same kind of request. -/
def SameKind (r r' : Request) : Prop :=
  r.delete = r'.delete ∧ r.uuid.isSome = r'.uuid.isSome

/-- What a request names: a delete names no service provider. -/
def named (r : Request) : McSuid × Option UInt32 × Option McUuid :=
  (r.suid, if r.delete then none else some r.spid, r.uuid)

/-- The link is in bounds, is what it is to be, and is that of no other request. -/
def LinkHolds (a : Address) (r : Request) : Prop :=
  url a r = .ok (expected a r) ∧
    ∀ r', SameKind r r' → named r' ≠ named r → url a r' ≠ url a r

/-! ## Appending -/

/-- What the loop of `addBytesToUri` appends from byte `i` on. -/
def bytesText (uuid : Bool) (i : Nat) : List UInt8 → List UInt8
  | [] => []
  | b :: bs =>
    [singleNumber (b >>> 4)] ++ ([singleNumber (b &&& 0x0F)] ++
      ((if uuid = true ∧ (3 = i ∨ 5 = i ∨ 7 = i ∨ 9 = i) then [dash] else []) ++
        bytesText uuid (i + 1) bs))

/-- The loop writes its text one byte behind the other. -/
theorem addBytes_eq_store (uuid : Bool) (uri : CArray) (uriidx i : Nat) (bytes : List UInt8) :
    addBytes uuid uri uriidx i bytes = store uri uriidx (bytesText uuid i bytes) := by
  induction bytes generalizing uri uriidx i with
  | nil => rfl
  | cons b bs ih =>
    rw [addBytes, bytesText, store_append]
    refine congrArg _ (funext fun uri => ?_)
    rw [store_append]
    refine congrArg _ (funext fun uri => ?_)
    by_cases hdash : uuid = true ∧ (3 = i ∨ 5 = i ∨ 7 = i ∨ 9 = i)
    · rw [if_pos hdash, if_pos hdash, store_append]
      exact congrArg _ (funext fun uri => ih uri (uriidx + 3) (i + 1))
    · rw [if_neg hdash, if_neg hdash, List.nil_append, ih]
      rfl

theorem singleNumber_eq (b : UInt8) :
    singleNumber (b >>> 4) = hexDigit (b.toNat / 16) ∧
      singleNumber (b &&& 0x0F) = hexDigit (b.toNat % 16) := by
  have hall : ∀ n < 256, singleNumber (UInt8.ofNat n >>> 4) = hexDigit (n / 16) ∧
      singleNumber (UInt8.ofNat n &&& 0x0F) = hexDigit (n % 16) := by decide +kernel
  have hb := hall b.toNat b.toNat_lt
  rwa [UInt8.ofNat_toNat] at hb

theorem bytesText_cons (uuid : Bool) (i : Nat) (b : UInt8) (bs : List UInt8) :
    bytesText uuid i (b :: bs) = hexText [b] ++
      ((if uuid = true ∧ (3 = i ∨ 5 = i ∨ 7 = i ∨ 9 = i) then [dash] else []) ++
        bytesText uuid (i + 1) bs) := by
  rw [bytesText, (singleNumber_eq b).1, (singleNumber_eq b).2]
  rfl

theorem bytesText_plain (i : Nat) (bytes : List UInt8) :
    bytesText false i bytes = hexText bytes := by
  induction bytes generalizing i with
  | nil => rfl
  | cons b bs ih =>
    rw [bytesText_cons, if_neg (by simp), List.nil_append, ih, ← hexText_append,
      List.singleton_append]

/-- Sixteen bytes, with the dashes behind the fourth, sixth, eighth and tenth. -/
theorem bytesText_dashed (uuid : McUuid) : bytesText true 0 uuid.toList = dashed uuid := by
  have hsize : uuid.toList.length = 16 := Vector.length_toList
  unfold dashed
  match uuid.toList, hsize with
  | [_, _, _, _, _, _, _, _, _, _, _, _, _, _, _, _], _ =>
    simp [bytesText, hexText, singleNumber_eq]

theorem length_dashed (uuid : McUuid) : (dashed uuid).length = 36 := by
  simp [dashed, length_hexText]

theorem nonzero_dashed (uuid : McUuid) : 0 ∉ dashed uuid := by
  simp [dashed, nonzero_hexText, dash]

theorem bytesText_inj {uuid : Bool} {i : Nat} {as bs : List UInt8} (hlength : as.length = bs.length)
    (h : bytesText uuid i as = bytesText uuid i bs) : as = bs := by
  induction as generalizing i bs with
  | nil => exact (List.length_eq_zero_iff.mp hlength.symm).symm
  | cons a as ih =>
    obtain ⟨b, bs, rfl⟩ := List.exists_of_length_succ bs hlength.symm
    rw [bytesText_cons, bytesText_cons] at h
    obtain ⟨hhead, htail⟩ := List.append_inj h (by rw [length_hexText, length_hexText]; rfl)
    have hab : a = b := List.singleton_inj.mp (hexText_inj hhead)
    rw [hab, ih (Nat.succ.inj hlength) (List.append_cancel_left htail)]

theorem dashed_inj {uuid uuid' : McUuid} (h : dashed uuid = dashed uuid') : uuid = uuid' := by
  rw [← bytesText_dashed, ← bytesText_dashed] at h
  have hlength : uuid.toList.length = uuid'.toList.length := by
    rw [Vector.length_toList, Vector.length_toList]
  exact Vector.toList_inj.mp (bytesText_inj hlength h)

section Append

variable {s : List UInt8} {n : Nat}

theorem addSlashToUri_padded (hs : 0 ∉ s) (h : s.length < n) :
    addSlashToUri (padded s n) = .ok (padded (s ++ [slash]) n) := by
  rw [addSlashToUri, strlen_padded hs h, ok_bind]
  exact store_padded h

theorem addBytesToUri_padded (hs : 0 ∉ s) (h : s.length < n) (bytes : List UInt8) (uuid : Bool) :
    addBytesToUri (padded s n) bytes uuid =
      store (padded s n) s.length (bytesText uuid 0 bytes) := by
  rw [addBytesToUri, strlen_padded hs h, ok_bind, addBytes_eq_store]

/-- The decimal is cut to ten characters. -/
theorem addIntToUri_padded (hs : 0 ∉ s) (h : s.length + 12 ≤ n) (addThis : UInt32) :
    addIntToUri (padded s n) addThis =
      .ok (padded (s ++ slash :: (decimal (signed addThis)).take 10) n) := by
  have hnonzero : 0 ∉ slash :: (decimal (signed addThis)).take 10 := by
    rw [List.mem_cons]
    rintro (hslash | hdigit)
    · exact absurd hslash (by decide)
    · exact nonzero_decimal _ (List.mem_of_mem_take hdigit)
  have hlength : (slash :: (decimal (signed addThis)).take 10).length < intStringLength := by
    rw [List.length_cons, List.length_take, intStringLength]
    omega
  have hprint : snprintf (cleared intStringLength) 0 intStringLength
      (slash :: decimal (signed addThis)) =
        .ok (padded (slash :: (decimal (signed addThis)).take 10) intStringLength) :=
    snprintf_padded_cut (s := []) (t := slash :: decimal (signed addThis)) (by decide)
      (by rw [List.length_nil, Nat.zero_add]; exact hlength)
  rw [addIntToUri, hprint, ok_bind, strlen_padded hs (by omega), ok_bind]
  exact strncpy_padded hnonzero hlength (Nat.le_of_lt hlength) h

end Append

/-! ## The decimal -/

/-- The number that ten characters of a decimal show. -/
def shown (x : Int) : Int := if x ≤ -1000000000 then -(x.natAbs / 10 : Nat) else x

theorem signed_bounds (n : UInt32) : -2147483648 ≤ signed n ∧ signed n < 2147483648 :=
  ⟨n.toBitVec.le_toInt, n.toBitVec.toInt_lt⟩

theorem signed_inj {m n : UInt32} (h : signed m = signed n) : m = n :=
  UInt32.toBitVec_inj.mp (BitVec.toInt_inj.mp h)

theorem signed_eq_zero {n : UInt32} : signed n = 0 ↔ n = 0 :=
  ⟨fun h => signed_inj h, fun h => h ▸ rfl⟩

theorem exists_signed {x : Int} (h : -2147483648 ≤ x) (h' : x < 2147483648) :
    ∃ n, signed n = x :=
  ⟨UInt32.ofBitVec (BitVec.ofInt 32 x), BitVec.toInt_ofInt_eq_self (by decide) h h'⟩

/-- Eleven characters are a sign and ten digits; the last digit goes. -/
theorem take_decimal (n : UInt32) :
    (decimal (signed n)).take 10 = decimal (shown (signed n)) := by
  have hbounds := signed_bounds n
  by_cases hlong : signed n ≤ -1000000000
  · have hneg : signed n = -((signed n).natAbs : Int) := by omega
    have hsize : (decimal (-((signed n).natAbs / 10 : Nat))).length = 10 := by
      have hpos : (-(((signed n).natAbs / 10 : Nat) : Int)) < 0 := by omega
      have hle := (length_decimal_of_neg hpos (k := 9)).mpr (by omega)
      have hnot := mt (length_decimal_of_neg hpos (k := 8)).mp (by omega)
      omega
    have hconcat := decimal_concat (n := (signed n).natAbs) (by omega)
    rw [← hneg] at hconcat
    rw [shown, if_pos hlong, hconcat]
    exact List.take_left' hsize
  · rw [shown, if_neg hlong]
    refine List.take_of_length_le ?_
    rcases Int.lt_trichotomy (signed n) 0 with hneg | hzero | hpos
    · exact (length_decimal_of_neg hneg (k := 9)).mpr (by omega)
    · rw [hzero]
      decide
    · exact (length_decimal_of_pos hpos (k := 10)).mpr (by omega)

/-! ## The link -/

/-- The part for the service provider, as it is written. -/
def shownPart (r : Request) : List UInt8 :=
  if r.delete = false ∧ r.spid ≠ 0 then slash :: decimal (shown (signed r.spid)) else []

theorem nonzero_shownPart (r : Request) : 0 ∉ shownPart r := by
  unfold shownPart
  split
  · rw [List.mem_cons]
    rintro (hslash | hdigit)
    · exact absurd hslash (by decide)
    · exact nonzero_decimal _ hdigit
  · exact List.not_mem_nil

theorem length_shownPart (r : Request) : (shownPart r).length ≤ 11 := by
  unfold shownPart
  split
  · rw [← take_decimal, List.length_cons, List.length_take]
    omega
  · exact Nat.zero_le _

/-- A string does not show the zero at its end. -/
theorem nonzero_of_url {a : Address} {r : Request} {text : List UInt8} (h : url a r = .ok text) :
    0 ∉ text := by
  unfold url at h
  cases hlink : link a.initialUrl r with
  | error e =>
    rw [hlink, error_bind] at h
    cases h
  | ok linkP =>
    rw [hlink, ok_bind] at h
    cases hlength : strlen linkP with
    | error e =>
      rw [hlength, error_bind] at h
      cases h
    | ok length =>
      rw [hlength, ok_bind] at h
      obtain rfl := Except.ok.inj h
      exact nonzero_cstring linkP

section Link

variable (a : Address) (r : Request) (ha : 0 ∉ a.bytes)

/-- What `createBasicLink` returns, and the size of its buffer. -/
def linkSize : Nat := a.bytes.length + 78

/-- The link in front of the trustlet. -/
def linkText : List UInt8 := a.bytes ++ hexText r.suid.toList ++ shownPart r

theorem length_linkText :
    (linkText a r).length = a.bytes.length + 32 + (shownPart r).length := by
  rw [linkText, List.length_append, List.length_append, length_hexText, Vector.length_toList]

include ha

theorem nonzero_linkText : 0 ∉ linkText a r :=
  nonzero_append (nonzero_append ha (nonzero_hexText _)) (nonzero_shownPart r)

theorem usedUrl_address : usedUrl a.initialUrl = .ok a.initialUrl := by
  rw [usedUrl, Address.initialUrl, strlen_padded ha a.fits, ok_bind, if_neg a.nonempty]

theorem createBasicLink_address :
    createBasicLink a.initialUrl r.suid =
      .ok (padded (a.bytes ++ hexText r.suid.toList) (linkSize a)) := by
  have hfits := a.fits
  have hcopy : strncpy (cleared (linkSize a)) 0 a.initialUrl (linkSize a) =
      .ok (padded a.bytes (linkSize a)) := by
    refine strncpy_padded (s := []) ha hfits ?_ ?_
    · exact Nat.le_add_right _ _
    · rw [List.length_nil]
      omega
  have hroom : a.bytes.length + (bytesText false 0 r.suid.toList).length ≤ linkSize a := by
    rw [bytesText_plain, length_hexText, Vector.length_toList, linkSize]
    omega
  have hsize : a.bytes.length + 16 * 2 + 4 * 2 + 16 * 2 + 6 = linkSize a := rfl
  have hlt : a.bytes.length < linkSize a := Nat.lt_add_of_pos_right (by decide)
  rw [createBasicLink, Address.initialUrl, strlen_padded ha hfits, ok_bind, hsize]
  rw [Address.initialUrl] at hcopy
  dsimp only
  rw [hcopy, ok_bind, addBytesToUri_padded ha hlt, store_padded hroom, bytesText_plain]

/-- The part for the service provider is appended. -/
theorem addSpid_address :
    addSpid r (padded (a.bytes ++ hexText r.suid.toList) (linkSize a)) =
      .ok (padded (linkText a r) (linkSize a)) := by
  unfold addSpid linkText shownPart
  by_cases hspid : r.delete = false ∧ r.spid ≠ 0
  · have hroom : (a.bytes ++ hexText r.suid.toList).length + 12 ≤ linkSize a := by
      rw [List.length_append, length_hexText, Vector.length_toList, linkSize]
      omega
    rw [if_pos hspid, if_pos hspid,
      addIntToUri_padded (nonzero_append ha (nonzero_hexText _)) hroom, take_decimal]
  · rw [if_neg hspid, if_neg hspid, List.append_nil]

theorem link_of_none (huuid : r.uuid = none) :
    link a.initialUrl r = .ok (padded (linkText a r) (linkSize a)) := by
  rw [link, usedUrl_address a ha, ok_bind, createBasicLink_address a r ha, ok_bind,
    addSpid_address a r ha, ok_bind, addUuid, huuid]

/-- The trustlet's part goes behind the rest in one piece. -/
theorem link_of_some {uuid : McUuid} (huuid : r.uuid = some uuid) :
    link a.initialUrl r =
      store (padded (linkText a r ++ [slash]) (linkSize a)) ((linkText a r).length + 1)
        (dashed uuid) := by
  have hlength := length_linkText a r
  have hshown := length_shownPart r
  have hslash : (linkText a r ++ [slash]).length = (linkText a r).length + 1 := by
    rw [List.length_append, List.length_singleton]
  have hnonzero : 0 ∉ linkText a r ++ [slash] :=
    nonzero_append (nonzero_linkText a r ha) (by decide)
  have hroom : (linkText a r ++ [slash]).length < linkSize a := by
    rw [hslash, linkSize]
    omega
  rw [link, usedUrl_address a ha, ok_bind, createBasicLink_address a r ha, ok_bind,
    addSpid_address a r ha, ok_bind, addUuid, huuid]
  dsimp only
  rw [addSlashToUri_padded (nonzero_linkText a r ha) (by omega), ok_bind,
    addBytesToUri_padded hnonzero hroom, bytesText_dashed, hslash]

/-- **With room for it**, the link is the text that is put together. -/
theorem url_of_room (hroom : r.uuid = none ∨ (shownPart r).length ≤ 8) :
    url a r = .ok (linkText a r ++ uuidPart r) := by
  have hlength := length_linkText a r
  have hshown := length_shownPart r
  have htext : link a.initialUrl r = .ok (padded (linkText a r ++ uuidPart r) (linkSize a)) ∧
      0 ∉ linkText a r ++ uuidPart r ∧ (linkText a r ++ uuidPart r).length < linkSize a := by
    cases huuid : r.uuid with
    | none =>
      rw [link_of_none a r ha huuid, uuidPart, huuid]
      dsimp only
      rw [List.append_nil]
      refine ⟨rfl, nonzero_linkText a r ha, ?_⟩
      rw [linkSize]
      omega
    | some uuid =>
      have hshort : (shownPart r).length ≤ 8 :=
        hroom.resolve_left (by rw [huuid]; exact Option.some_ne_none uuid)
      have hslash : (linkText a r ++ [slash]).length = (linkText a r).length + 1 := by
        rw [List.length_append, List.length_singleton]
      have hfits : (linkText a r ++ [slash]).length + (dashed uuid).length < linkSize a := by
        rw [hslash, length_dashed, linkSize]
        omega
      have hnonzero : 0 ∉ linkText a r ++ [slash] :=
        nonzero_append (nonzero_linkText a r ha) (by decide)
      rw [link_of_some a r ha huuid, ← hslash, store_padded (Nat.le_of_lt hfits), uuidPart, huuid]
      dsimp only
      rw [List.append_cons (linkText a r) slash (dashed uuid)]
      refine ⟨rfl, nonzero_append hnonzero (nonzero_dashed uuid), ?_⟩
      rwa [List.length_append]
  rw [url, htext.1, ok_bind, strlen_padded htext.2.1 htext.2.2, ok_bind,
    cstring_padded htext.2.1 htext.2.2]

/-- **Without room**, the uuid or its zero goes over the end of the buffer. -/
theorem url_of_no_room (huuid : r.uuid ≠ none) (hlong : 8 < (shownPart r).length) :
    url a r = .error ⟨linkSize a, linkSize a⟩ := by
  have hlength := length_linkText a r
  have hshown := length_shownPart r
  obtain ⟨uuid, huuid⟩ := Option.ne_none_iff_exists'.mp huuid
  have hslash : (linkText a r ++ [slash]).length = (linkText a r).length + 1 := by
    rw [List.length_append, List.length_singleton]
  have hdashed := length_dashed uuid
  have hsize : linkSize a = a.bytes.length + 78 := rfl
  by_cases hfull : (shownPart r).length = 9
  · -- the last character is in, the zero is not
    have hnonzero : 0 ∉ linkText a r ++ [slash] ++ dashed uuid :=
      nonzero_append (nonzero_append (nonzero_linkText a r ha) (by decide)) (nonzero_dashed uuid)
    have hends : (linkText a r ++ [slash] ++ dashed uuid).length = linkSize a := by
      rw [List.length_append]
      omega
    rw [url, link_of_some a r ha huuid, ← hslash, store_padded (by omega), ok_bind,
      strlen_full hnonzero hends, error_bind]
  · rw [url, link_of_some a r ha huuid, ← hslash, store_padded_over (by omega) (by omega),
      error_bind]

end Link

/-! ## Requests and their links -/

theorem shown_ne_zero {x : Int} (hx : x ≠ 0) : shown x ≠ 0 := by
  unfold shown
  split
  · omega
  · exact hx

theorem shown_eq_iff (x : Int) : shown x = x ↔ -1000000000 < x := by
  unfold shown
  split
  · omega
  · omega

/-- The decimal and its slash are as long as `createBasicLink` thinks. -/
theorem length_decimal_le_seven {n : UInt32} (hn : signed n ≠ 0) :
    (decimal (shown (signed n))).length ≤ 7 ↔ -1000000 < signed n ∧ signed n < 10000000 := by
  rcases Int.lt_or_gt_of_ne hn with hneg | hpos
  · have hshown : shown (signed n) < 0 := by
      unfold shown
      split
      · omega
      · exact hneg
    rw [length_decimal_of_neg hshown (k := 6)]
    unfold shown
    split
    · omega
    · omega
  · have hshown : shown (signed n) = signed n := (shown_eq_iff _).mpr (by omega)
    rw [hshown, length_decimal_of_pos hpos (k := 7)]
    omega

/-- The decimal of the service provider goes into the link, and, without a trustlet, it is also not
what another is cut to. -/
def SpidFits (r : Request) : Prop :=
  r.delete = true ∨ r.spid = 0 ∨
    if r.uuid.isSome then -1000000 < signed r.spid ∧ signed r.spid < 10000000
    else -100000000 < signed r.spid ∨
      (-1000000000 < signed r.spid ∧ signed r.spid < -214748364)

theorem length_uuidPart (r : Request) :
    (uuidPart r).length = if r.uuid.isSome then 37 else 0 := by
  unfold uuidPart
  cases r.uuid with
  | none => rfl
  | some uuid =>
    dsimp only
    rw [List.length_cons, length_dashed]
    rfl

theorem uuidPart_inj {r r' : Request} (h : uuidPart r' = uuidPart r) : r'.uuid = r.uuid := by
  unfold uuidPart at h
  cases huuid : r.uuid with
  | none =>
    cases huuid' : r'.uuid with
    | none => rfl
    | some uuid' => exact absurd h (by rw [huuid, huuid']; exact List.cons_ne_nil _ _)
  | some uuid =>
    cases huuid' : r'.uuid with
    | none => exact absurd h.symm (by rw [huuid, huuid']; exact List.cons_ne_nil _ _)
    | some uuid' =>
      rw [huuid, huuid'] at h
      rw [dashed_inj (List.cons.inj h).2]

/-- The parts of a link are told apart by their lengths. -/
theorem parts_of_link_eq {a : Address} {r r' : Request} (hkind : SameKind r r')
    (h : linkText a r' ++ uuidPart r' = linkText a r ++ uuidPart r) :
    r'.suid = r.suid ∧ shownPart r' = shownPart r ∧ r'.uuid = r.uuid := by
  have huuidLength : (uuidPart r').length = (uuidPart r).length := by
    rw [length_uuidPart, length_uuidPart, hkind.2]
  obtain ⟨htext, huuid⟩ := List.append_inj' h huuidLength
  unfold linkText at htext
  rw [List.append_assoc, List.append_assoc] at htext
  obtain ⟨hsuid, hshown⟩ := List.append_inj (List.append_cancel_left htext)
    (by rw [length_hexText, length_hexText, Vector.length_toList, Vector.length_toList])
  exact ⟨Vector.toList_inj.mp (hexText_inj hsuid), hshown, uuidPart_inj huuid⟩

section Spid

variable {r r' : Request} (hdelete : r.delete = false)

include hdelete

theorem shownPart_of_spid (hspid : r.spid ≠ 0) :
    shownPart r = slash :: decimal (shown (signed r.spid)) := if_pos ⟨hdelete, hspid⟩

theorem spidPart_of_spid (hspid : r.spid ≠ 0) :
    spidPart r = slash :: decimal (signed r.spid) := if_pos ⟨hdelete, hspid⟩

theorem shownPart_eq_spidPart_iff (hspid : r.spid ≠ 0) :
    shownPart r = spidPart r ↔ -1000000000 < signed r.spid := by
  have hsigned : signed r.spid ≠ 0 := fun h => hspid (signed_eq_zero.mp h)
  rw [shownPart_of_spid hdelete hspid, spidPart_of_spid hdelete hspid, ← shown_eq_iff]
  constructor
  · exact fun h => decimal_inj (shown_ne_zero hsigned) hsigned (List.cons.inj h).2
  · exact fun h => by rw [h]

/-- A decimal that fits is not what another is cut to. -/
theorem spid_of_shownPart_eq (hfits : SpidFits r) (hdelete' : r'.delete = false)
    (h : shownPart r' = shownPart r) : r'.spid = r.spid := by
  by_cases hspid : r.spid = 0
  · by_contra hne
    rw [hspid] at hne
    rw [shownPart_of_spid hdelete' hne, shownPart, if_neg (by simp [hspid])] at h
    exact absurd h (List.cons_ne_nil _ _)
  · have hspid' : r'.spid ≠ 0 := by
      intro hzero
      rw [shownPart_of_spid hdelete hspid, shownPart, if_neg (by simp [hzero])] at h
      exact absurd h.symm (List.cons_ne_nil _ _)
    have hsigned : signed r.spid ≠ 0 := fun h => hspid (signed_eq_zero.mp h)
    have hsigned' : signed r'.spid ≠ 0 := fun h => hspid' (signed_eq_zero.mp h)
    rw [shownPart_of_spid hdelete hspid, shownPart_of_spid hdelete' hspid'] at h
    have hshown := decimal_inj (shown_ne_zero hsigned') (shown_ne_zero hsigned) (List.cons.inj h).2
    have hrange : -100000000 < signed r.spid ∨
        (-1000000000 < signed r.spid ∧ signed r.spid < -214748364) := by
      have hrest := (hfits.resolve_left (by simp [hdelete])).resolve_left hspid
      split at hrest
      · omega
      · exact hrest
    have hbounds := signed_bounds r'.spid
    refine signed_inj ?_
    unfold shown at hshown
    split at hshown
    · split at hshown
      · omega
      · omega
    · split at hshown
      · omega
      · exact hshown

end Spid

/-! ## When a link holds -/

section Holds

variable {a : Address} {r : Request}

theorem room_of_fits (hfits : SpidFits r) : r.uuid = none ∨ (shownPart r).length ≤ 8 := by
  by_cases huuid : r.uuid = none
  · exact .inl huuid
  · refine .inr ?_
    by_cases hspid : r.delete = false ∧ r.spid ≠ 0
    · have hsigned : signed r.spid ≠ 0 := fun h => hspid.2 (signed_eq_zero.mp h)
      have hrest := (hfits.resolve_left (by simp [hspid.1])).resolve_left hspid.2
      rw [if_pos (Option.isSome_iff_ne_none.mpr huuid)] at hrest
      rw [shownPart_of_spid hspid.1 hspid.2, List.length_cons]
      exact Nat.succ_le_succ ((length_decimal_le_seven hsigned).mpr hrest)
    · rw [shownPart, if_neg hspid]
      exact Nat.zero_le _

theorem shownPart_of_fits (hfits : SpidFits r) : shownPart r = spidPart r := by
  by_cases hspid : r.delete = false ∧ r.spid ≠ 0
  · rw [shownPart_eq_spidPart_iff hspid.1 hspid.2]
    have hrest := (hfits.resolve_left (by simp [hspid.1])).resolve_left hspid.2
    split at hrest
    · omega
    · omega
  · rw [shownPart, spidPart, if_neg hspid, if_neg hspid]

/-- A link that fits is that of one request only. -/
theorem named_of_url_eq (ha : 0 ∉ a.bytes) (hfits : SpidFits r) {r' : Request}
    (hkind : SameKind r r') (h : url a r' = url a r) : named r' = named r := by
  rw [url_of_room a r ha (room_of_fits hfits)] at h
  have hroom : r'.uuid = none ∨ (shownPart r').length ≤ 8 := by
    by_contra hno
    obtain ⟨huuid, hlong⟩ := not_or.mp hno
    rw [url_of_no_room a r' ha huuid (Nat.lt_of_not_le hlong)] at h
    cases h
  rw [url_of_room a r' ha hroom] at h
  obtain ⟨hsuid, hshown, huuid⟩ := parts_of_link_eq hkind (Except.ok.inj h)
  unfold named
  rw [hsuid, huuid, ← hkind.1]
  cases hdelete : r.delete with
  | true => rfl
  | false => rw [spid_of_shownPart_eq hdelete hfits (hkind.1.symm.trans hdelete) hshown]

/-- Another service provider is cut to this one. -/
theorem exists_cut (ha : 0 ∉ a.bytes) (hdelete : r.delete = false) (huuid : r.uuid = none)
    (hrange : -214748364 ≤ signed r.spid ∧ signed r.spid ≤ -100000000) :
    ∃ r', SameKind r r' ∧ named r' ≠ named r ∧ url a r' = url a r := by
  obtain ⟨spid, hcut⟩ := exists_signed (x := 10 * signed r.spid) (by omega) (by omega)
  have hne : spid ≠ r.spid := fun h => by
    rw [h] at hcut
    omega
  have hspid : r.spid ≠ 0 := fun h => by
    have hzero := signed_eq_zero.mpr h
    omega
  have hspid' : spid ≠ 0 := fun h => by
    have hzero := signed_eq_zero.mpr h
    omega
  have hshown : shown (signed spid) = shown (signed r.spid) := by
    unfold shown
    rw [hcut, if_pos (by omega), if_neg (by omega)]
    omega
  have htext : linkText a { r with spid := spid } = linkText a r := by
    rw [linkText, linkText, shownPart_of_spid hdelete hspid,
      shownPart_of_spid (r := { r with spid := spid }) hdelete hspid', hshown]
  refine ⟨{ r with spid := spid }, ⟨rfl, rfl⟩, fun h => ?_, ?_⟩
  · have hspids := congrArg (fun parts => parts.2.1) h
    simp only [named, hdelete, Bool.false_eq_true, if_false, Option.some.injEq] at hspids
    exact hne hspids
  · rw [url_of_room a r ha (.inl huuid), url_of_room a { r with spid := spid } ha (.inl huuid),
      htext]
    rfl

end Holds

/-- **When a link holds.**  Exactly when the address has no zero in it, and the request is a delete,
has no service provider, or the decimal of the service provider fits. -/
theorem linkHolds_iff (a : Address) (r : Request) :
    LinkHolds a r ↔ 0 ∉ a.bytes ∧ SpidFits r := by
  constructor
  · rintro ⟨hurl, hunique⟩
    have ha : 0 ∉ a.bytes := by
      intro hzero
      refine nonzero_of_url hurl ?_
      unfold expected
      rw [List.append_assoc, List.append_assoc]
      exact List.mem_append_left _ hzero
    refine ⟨ha, ?_⟩
    by_cases hspid : r.delete = false ∧ r.spid ≠ 0
    · refine .inr (.inr ?_)
      have hsigned : signed r.spid ≠ 0 := fun h => hspid.2 (signed_eq_zero.mp h)
      by_cases huuid : r.uuid = none
      · rw [url_of_room a r ha (.inl huuid)] at hurl
        have hpart : shownPart r = spidPart r := by
          have htext := List.append_cancel_right (Except.ok.inj hurl)
          exact List.append_cancel_left htext
        have hlong := (shownPart_eq_spidPart_iff hspid.1 hspid.2).mp hpart
        rw [huuid, if_neg (by simp)]
        by_contra hrange
        obtain ⟨r', hkind, hnamed, hsame⟩ := exists_cut ha hspid.1 huuid (by omega)
        exact hunique r' hkind hnamed hsame
      · have hshort : (shownPart r).length ≤ 8 := by
          by_contra hlong
          rw [url_of_no_room a r ha huuid (Nat.lt_of_not_le hlong)] at hurl
          cases hurl
        rw [shownPart_of_spid hspid.1 hspid.2, List.length_cons] at hshort
        rw [if_pos (Option.isSome_iff_ne_none.mpr huuid)]
        exact (length_decimal_le_seven hsigned).mp (Nat.le_of_succ_le_succ hshort)
    · by_cases hdelete : r.delete = true
      · exact .inl hdelete
      · refine .inr (.inl ?_)
        by_contra hne
        exact hspid ⟨Bool.eq_false_iff.mpr hdelete, hne⟩
  · rintro ⟨ha, hfits⟩
    refine ⟨?_, fun r' hkind hnamed hsame => hnamed (named_of_url_eq ha hfits hkind hsame)⟩
    rw [url_of_room a r ha (room_of_fits hfits), expected, linkText, shownPart_of_fits hfits]

/-! ## A service provider with a long number -/

def shortAddress : Address := ⟨ascii "https://se/", by decide, by decide⟩

/-- A trustlet of the service provider 2147483647 is to be installed. -/
def longSpid : Request := ⟨false, Vector.replicate 16 0, 0x7FFFFFFF, some (Vector.replicate 16 0)⟩

/-- Ten digits and a uuid go over the end of the buffer. -/
theorem not_linkHolds_longSpid : ¬ LinkHolds shortAddress longSpid := by
  intro h
  have hlong : 8 < (shownPart longSpid).length := by decide
  have hover := url_of_no_room shortAddress longSpid (by decide) (by decide) hlong
  rw [h.1] at hover
  cases hover

end McDaemon.RootPa.ProvisioningLinks
