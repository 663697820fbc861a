/-
# McDaemon.Proxy.BufferTables — three tables of one session's buffers.

A buffer that a client maps through the proxy is in three tables: the session object of the client,
that of the server, and the driver.  A request covers up to four buffers and gets one status back.
The server changes its table only when all of a request has succeeded; the driver client may have
mapped or unmapped some of the buffers by then.  A request after which the driver is no longer open
is the last one.
-/
import McDaemon.Lib.Machine
import McDaemon.Proxy.DriverMaps

namespace McDaemon.Proxy

open McDaemon.Lib

/-! ## The tables and the requests -/

/-- `mc_ioctl_buffer`, as a `Session::Buffer` holds it. -/
structure BufferInfo where
  va : Nat
  len : Nat
  flags : UInt32
  sva : Nat
deriving DecidableEq, Repr

def BufferInfo.mapping (b : BufferInfo) : Mapping := ⟨b.va, b.len, b.sva⟩

/-- What the client knows the buffer by. -/
def BufferInfo.shared (b : BufferInfo) : Nat × Nat := (b.sva, b.len)

/-- The session of the client, which goes when an exchange is broken, that of the server, and the
driver, which is open as long as its device is valid.  `indeterminate` tells that the server has made
a buffer object without initialising it. -/
structure Tables where
  client : Option (List BufferInfo)
  server : List BufferInfo
  driver : List Mapping
  isOpen : Bool
  indeterminate : Bool
deriving DecidableEq, Repr

/-- A buffer of a map request with what becomes of it: the address that the server allocates, what
the memory of its object held as secure address, the answer to `mcMap_`, and that to `mcUnmap_` if
the map is unwound. -/
structure MapEntry where
  va : Nat
  len : Nat
  flags : UInt32
  address : Nat
  stale : Nat
  answer : Option Nat
  unwinds : UnmapAnswer
deriving DecidableEq, Repr

/-- A buffer of an unmap request, and the answer to `mcUnmap_`. -/
structure UnmapEntry where
  va : Nat
  sva : Nat
  answer : UnmapAnswer
deriving DecidableEq, Repr

/-- The buffer as the server gives it to the driver. -/
def MapEntry.buf (b : MapEntry) : MapBuf :=
  { buf := ⟨b.address, b.len, b.stale⟩, answer := b.answer, unwinds := b.unwinds }

/-- `BUFFER_LENGTH_MAX` and `MC_MAP_MAX`. -/
def bufferLengthMax : Nat := 0x100000

def mcMapMax : Nat := 4

/-- `MC_IO_MAP_INPUT`, `MC_IO_MAP_OUTPUT` or both. -/
def validFlags (flags : UInt32) : Bool := flags &&& 3 ≠ 0 && flags &&& 0xfffffffc = 0

/-- What an exchange ends with: a protocol error, the error of a method, or success. -/
inductive Reply
  | protocol
  | method
  | done (svas : List Nat)
deriving DecidableEq, Repr

/-! ## The server -/

inductive Prepared
  | refused
  | indeterminate
  | buffers
deriving DecidableEq, Repr

/-- The local buffers of a map.  No memory is allocated for a length of zero, and then the object
is not initialised. -/
def prepare : List MapEntry → Prepared
  | [] => .buffers
  | b :: bs =>
    if validFlags b.flags = false then .refused
    else if b.len = 0 then .indeterminate
    else prepare bs

/-- `Session::removeBuffer`, for one secure address after the other. -/
def removeBuffers : List Nat → List BufferInfo → Bool × List BufferInfo
  | [], buffers => (true, buffers)
  | sva :: svas, buffers =>
    if buffers.any (·.sva = sva) then removeBuffers svas (buffers.eraseP (·.sva = sva))
    else (false, buffers)

/-- `ServerConnection::map`. -/
def serverMap (s : Tables) (request : List MapEntry) : Reply × Tables :=
  match prepare request with
  | .refused => (.protocol, s)
  | .indeterminate => (.protocol, { s with indeterminate := true })
  | .buffers =>
    let (r, bufs) := driverMap s.driver (request.map MapEntry.buf)
    let s := { s with driver := r.driver, isOpen := s.isOpen && !r.invalid }
    if r.ok then
      let added := List.zipWith (fun r b => ⟨r.address, r.len, r.flags, b.1.sva⟩) request bufs
      (.done (bufs.map (·.1.sva)), { s with server := s.server ++ added })
    else (.method, s)

/-- What the server passes to the driver for an unmap. -/
def unmapBufs (infos : List BufferInfo) (request : List UnmapEntry) :
    List (Mapping × UnmapAnswer) :=
  List.zipWith (fun i r => (i.mapping, r.answer)) infos request

/-- `ServerConnection::unmap` of buffers that it has. -/
def unmapFound (s : Tables) (infos : List BufferInfo) (request : List UnmapEntry) :
    Reply × Tables :=
  let r := driverUnmap s.driver (unmapBufs infos request)
  let s := { s with driver := r.driver, isOpen := s.isOpen && !r.invalid }
  if r.ok then
    let (found, server) := removeBuffers (infos.map BufferInfo.sva) s.server
    (if found then .done [] else .protocol, { s with server := server })
  else (.method, s)

/-- `ServerConnection::unmap`. -/
def serverUnmap (s : Tables) (request : List UnmapEntry) : Reply × Tables :=
  if s.server.length < request.length then (.protocol, s)
  else
    match request.mapM fun r => s.server.find? (·.sva = r.sva) with
    | none => (.method, s)
    | some infos => unmapFound s infos request

/-! ## The client -/

/-- `ProxyClient::map`; buffers without an address are skipped. -/
def clientMap (s : Tables) (bufs : List MapEntry) : Tables :=
  let sent := bufs.filter (·.va ≠ 0)
  if sent.any (bufferLengthMax < ·.len) then s
  else
    match serverMap s sent with
    | (.protocol, t) => { t with client := none }
    | (.method, t) => t
    | (.done svas, t) =>
      let added := List.zipWith (fun r sva => ⟨r.va, r.len, r.flags, sva⟩) sent svas
      { t with client := t.client.map (· ++ added) }

/-- `ProxyClient::unmap`. -/
def clientUnmap (s : Tables) (bufs : List UnmapEntry) : Tables :=
  let sent := bufs.filter (·.va ≠ 0)
  if sent.any (·.sva = 0) then s
  else
    match serverUnmap s sent with
    | (.protocol, t) => { t with client := none }
    | (.method, t) => t
    | (.done _, t) =>
      { t with client := t.client.map fun c => (removeBuffers (sent.map UnmapEntry.sva) c).2 }

/-! ## Runs -/

/-- Memory is allocated where none is, and the secure world maps a buffer where none is. -/
structure Allocates (s : Tables) (request : List MapEntry) : Prop where
  address : ∀ b ∈ request, b.address ≠ 0 ∧ b.address ∉ s.server.map BufferInfo.va
  addresses : (request.map MapEntry.address).Nodup
  answer : ∀ sva ∈ request.filterMap MapEntry.answer, sva ≠ 0 ∧ sva ∉ s.driver.map Mapping.sva
  answers : (request.filterMap MapEntry.answer).Nodup

instance (s : Tables) (request : List MapEntry) : Decidable (Allocates s request) :=
  decidable_of_iff ((∀ b ∈ request, b.address ≠ 0 ∧ b.address ∉ s.server.map BufferInfo.va) ∧
    (request.map MapEntry.address).Nodup ∧
    (∀ sva ∈ request.filterMap MapEntry.answer, sva ≠ 0 ∧ sva ∉ s.driver.map Mapping.sva) ∧
    (request.filterMap MapEntry.answer).Nodup)
    ⟨fun ⟨h, i, j, k⟩ => ⟨h, i, j, k⟩, fun ⟨h, i, j, k⟩ => ⟨h, i, j, k⟩⟩

inductive TableAction
  | map (bufs : List MapEntry)
  | unmap (bufs : List UnmapEntry)
deriving DecidableEq, Repr

/-- A session that has just been opened. -/
def freshTables : Tables := ⟨some [], [], [], true, false⟩

/-- A session of the proxy, from its opening; no request follows on a broken connection, or when the
driver is no longer open. -/
def tableMachine : Machine Tables TableAction where
  init := (· = freshTables)
  step := fun s a =>
    if s.client = none ∨ s.isOpen = false ∨ s.indeterminate = true then none
    else
      match a with
      | .map bufs =>
        if bufs.length ≤ mcMapMax ∧ Allocates s (bufs.filter (·.va ≠ 0)) then
          some (clientMap s bufs)
        else none
      | .unmap bufs => if bufs.length ≤ mcMapMax then some (clientUnmap s bufs) else none

/-- As long as requests are served, the server has one entry for each buffer that is mapped in the
driver, and the client has the same buffers. -/
def Mirror (s : Tables) : Prop :=
  s.indeterminate = false ∧ (s.isOpen = true →
    (s.server.map BufferInfo.mapping).Perm s.driver ∧
      ∀ c, s.client = some c → (c.map BufferInfo.shared).Perm (s.server.map BufferInfo.shared))

/-- Where a map fails and the daemon unmaps what was mapped before, the address that nobody has set
is not one of a mapped buffer. -/
def MapsWhole (s : Tables) (request : List MapEntry) : Prop :=
  ∀ pre b post, request = pre ++ b :: post → pre ≠ [] → (∀ a ∈ pre, a.answer.isSome = true) →
    b.answer = none → (∀ a ∈ pre, a.unwinds ≠ .refused) → ∀ m ∈ s.driver, ¬ b.buf.Hits m

/-- The daemon refuses to unmap a buffer when it is first asked, or all buffers of a request are
different ones, and are unmapped and unregistered. -/
def UnmapsWhole (request : List UnmapEntry) : Prop :=
  (∃ pre r post, request = pre ++ r :: post ∧ r.answer = .refused ∧
      r.sva ∉ pre.map UnmapEntry.sva) ∨
    (request.map UnmapEntry.sva).Nodup ∧ ∀ r ∈ request, r.answer = .unmapped

/-- The server takes an unmap request: it asks for no more than there is, and for what there is. -/
def Accepted (s : Tables) (request : List UnmapEntry) : Prop :=
  (∀ r ∈ request, r.sva ≠ 0) ∧ request.length ≤ s.server.length ∧
    ∀ r ∈ request, ∃ b ∈ s.server, b.sva = r.sva

/-- A request that the server takes allocates what it maps, and succeeds or fails as a whole, or is
the last one. -/
def AllOrNothing (s : Tables) : TableAction → Prop
  | .map bufs =>
    (∀ b ∈ bufs.filter (·.va ≠ 0), b.len ≤ bufferLengthMax) →
      prepare (bufs.filter (·.va ≠ 0)) ≠ .indeterminate ∧
        (prepare (bufs.filter (·.va ≠ 0)) = .buffers → MapsWhole s (bufs.filter (·.va ≠ 0)))
  | .unmap bufs => Accepted s (bufs.filter (·.va ≠ 0)) → UnmapsWhole (bufs.filter (·.va ≠ 0))

/-! ## What the tables have in common -/

/-- Entry by entry, the tables are the same. -/
structure Matched (s : Tables) : Prop where
  determinate : s.indeterminate = false
  driver : s.server.map BufferInfo.mapping = s.driver
  distinct : Distinct s.driver
  address : ∀ b ∈ s.server, b.va ≠ 0
  client : ∀ c, s.client = some c → c.map BufferInfo.shared = s.server.map BufferInfo.shared

/-- Every buffer that is mapped in the driver has its entry at the server. -/
structure Covered (s : Tables) : Prop where
  distinct : Distinct s.driver
  covered : ∀ e ∈ s.driver, ∃ b ∈ s.server, b.mapping = e

section Matched

variable {s : Tables}

theorem Matched.mirror (h : Matched s) : Mirror s := by
  refine ⟨h.determinate, fun _ => ⟨?_, fun c hc => ?_⟩⟩
  · rw [h.driver]
  · rw [h.client c hc]

theorem Matched.covered (h : Matched s) : Covered s where
  distinct := h.distinct
  covered := by
    intro e he
    rw [← h.driver] at he
    exact List.mem_map.mp he

theorem Matched.nodup (h : Matched s) : (s.server.map BufferInfo.sva).Nodup := by
  have hsame : s.driver.map Mapping.sva = s.server.map BufferInfo.sva := by
    rw [← h.driver, List.map_map]
    rfl
  rw [← hsame]
  exact h.distinct.nodup

theorem Matched.mem_driver (h : Matched s) {b : BufferInfo} (hb : b ∈ s.server) :
    b.mapping ∈ s.driver := by
  rw [← h.driver]
  exact List.mem_map.mpr ⟨b, hb, rfl⟩

theorem eraseP_sva {buffers : List BufferInfo} (h : (buffers.map BufferInfo.sva).Nodup)
    (sva : Nat) : buffers.eraseP (·.sva = sva) = buffers.filter (·.sva ≠ sva) := by
  induction buffers with
  | nil => rfl
  | cons b buffers ih =>
    obtain ⟨hnew, hrest⟩ := List.nodup_cons.mp h
    by_cases hb : b.sva = sva
    · rw [List.eraseP_cons_of_pos (by simpa using hb), List.filter_cons_of_neg (by simpa using hb)]
      refine (List.filter_eq_self.mpr fun d hd => decide_eq_true ?_).symm
      rw [← hb]
      intro heq
      exact hnew (List.mem_map.mpr ⟨d, hd, heq⟩)
    · rw [List.eraseP_cons_of_neg (by simpa using hb), List.filter_cons_of_pos (by simpa using hb),
        ih hrest]

/-- Different secure addresses that are there are removed. -/
theorem removeBuffers_eq {svas : List Nat} {buffers : List BufferInfo}
    (h : (buffers.map BufferInfo.sva).Nodup) (hsvas : svas.Nodup)
    (hin : ∀ sva ∈ svas, sva ∈ buffers.map BufferInfo.sva) :
    removeBuffers svas buffers = (true, buffers.filter (·.sva ∉ svas)) := by
  induction svas generalizing buffers with
  | nil =>
    show (true, buffers) = _
    simp
  | cons sva svas ih =>
    obtain ⟨hnew, hrest⟩ := List.nodup_cons.mp hsvas
    obtain ⟨b, hb, hsva⟩ := List.mem_map.mp (hin sva List.mem_cons_self)
    have hany : buffers.any (·.sva = sva) = true :=
      List.any_eq_true.mpr ⟨b, hb, decide_eq_true hsva⟩
    unfold removeBuffers
    rw [if_pos hany, eraseP_sva h, ih (h.sublist (List.filter_sublist.map _)) hrest,
      List.filter_filter]
    · have hsame : (buffers.filter fun a => decide (a.sva ∉ svas) && decide (a.sva ≠ sva)) =
          buffers.filter (·.sva ∉ sva :: svas) := by
        apply List.filter_congr
        intro a _
        by_cases ha : a.sva = sva <;> simp [ha]
      rw [hsame]
    · intro other hother
      obtain ⟨d, hd, hdsva⟩ := List.mem_map.mp (hin other (List.mem_cons_of_mem _ hother))
      refine List.mem_map.mpr ⟨d, List.mem_filter.mpr ⟨hd, decide_eq_true ?_⟩, hdsva⟩
      rintro heq
      rw [← heq, hdsva] at hnew
      exact hnew hother

/-- Both sessions lose the same buffers. -/
theorem shared_filter {c : List BufferInfo} {svas : List Nat}
    (h : c.map BufferInfo.shared = s.server.map BufferInfo.shared) :
    (c.filter (·.sva ∉ svas)).map BufferInfo.shared =
      (s.server.filter (·.sva ∉ svas)).map BufferInfo.shared := by
  have hfilter : ∀ l : List BufferInfo, (l.filter (·.sva ∉ svas)).map BufferInfo.shared =
      (l.map BufferInfo.shared).filter (·.1 ∉ svas) := by
    intro l
    rw [List.filter_map]
    rfl
  rw [hfilter, hfilter, h]

/-! ## Unmap -/

/-- The records of a request: all of them are there, and are what the request asks for. -/
theorem mapM_find {request : List UnmapEntry} {server infos : List BufferInfo}
    (h : request.mapM (fun r => server.find? (·.sva = r.sva)) = some infos) :
    infos.map BufferInfo.sva = request.map UnmapEntry.sva ∧ ∀ i ∈ infos, i ∈ server := by
  induction request generalizing infos with
  | nil =>
    cases h
    exact ⟨rfl, nofun⟩
  | cons r request ih =>
    rw [List.mapM_cons] at h
    obtain ⟨i, hi, h⟩ := Option.bind_eq_some_iff.mp h
    obtain ⟨is, his, h⟩ := Option.bind_eq_some_iff.mp h
    cases h
    obtain ⟨hsvas, hmem⟩ := ih his
    have hsva : i.sva = r.sva := by simpa using List.find?_some hi
    refine ⟨by rw [List.map_cons, List.map_cons, hsva, hsvas], fun d hd => ?_⟩
    rcases List.mem_cons.mp hd with rfl | hd
    · exact List.mem_of_find?_eq_some hi
    · exact hmem d hd

theorem mapM_find_isSome {request : List UnmapEntry} {server : List BufferInfo}
    (h : ∀ r ∈ request, ∃ b ∈ server, b.sva = r.sva) :
    ∃ infos, request.mapM (fun r => server.find? (·.sva = r.sva)) = some infos := by
  induction request with
  | nil => exact ⟨[], rfl⟩
  | cons r request ih =>
    obtain ⟨is, his⟩ := ih fun d hd => h d (List.mem_cons_of_mem _ hd)
    obtain ⟨b, hb, hsva⟩ := h r List.mem_cons_self
    obtain ⟨i, hi⟩ : ∃ i, server.find? (·.sva = r.sva) = some i := by
      apply Option.isSome_iff_exists.mp
      rw [List.find?_isSome]
      exact ⟨b, hb, decide_eq_true hsva⟩
    refine ⟨i :: is, ?_⟩
    rw [List.mapM_cons, hi, his]
    rfl

/-- What the server's table has under a secure address. -/
def found (server : List BufferInfo) (sva : Nat) : Mapping :=
  ((server.find? (·.sva = sva)).map BufferInfo.mapping).getD ⟨0, 0, 0⟩

theorem found_mem {server : List BufferInfo} {sva : Nat} (h : ∃ b ∈ server, b.sva = sva) :
    ∃ i ∈ server, found server sva = i.mapping ∧ i.sva = sva := by
  obtain ⟨b, hb, hsva⟩ := h
  have hsome : (server.find? (·.sva = sva)).isSome = true := by
    rw [List.find?_isSome]
    exact ⟨b, hb, decide_eq_true hsva⟩
  obtain ⟨i, hi⟩ := Option.isSome_iff_exists.mp hsome
  refine ⟨i, List.mem_of_find?_eq_some hi, ?_, by simpa using List.find?_some hi⟩
  unfold found
  rw [hi]
  rfl

/-- The driver is asked for what the table has under each address of the request. -/
theorem unmapBufs_eq {server infos : List BufferInfo} {request : List UnmapEntry}
    (h : request.mapM (fun r => server.find? (·.sva = r.sva)) = some infos) :
    unmapBufs infos request = request.map fun r => (found server r.sva, r.answer) := by
  induction request generalizing infos with
  | nil =>
    cases h
    rfl
  | cons r request ih =>
    rw [List.mapM_cons] at h
    obtain ⟨i, hi, h⟩ := Option.bind_eq_some_iff.mp h
    obtain ⟨is, his, h⟩ := Option.bind_eq_some_iff.mp h
    cases h
    have hfound : found server r.sva = i.mapping := by
      unfold found
      rw [hi]
      rfl
    show (i.mapping, r.answer) :: unmapBufs is request = _
    rw [ih his, List.map_cons, hfound]

/-- The server takes an unmap request and asks the driver, or it answers and does nothing. -/
theorem serverUnmap_cases (s : Tables) (request : List UnmapEntry) :
    (¬ (request.length ≤ s.server.length ∧ ∀ r ∈ request, ∃ b ∈ s.server, b.sva = r.sva) ∧
      (serverUnmap s request = (.protocol, s) ∨ serverUnmap s request = (.method, s))) ∨
    request.length ≤ s.server.length ∧ ∃ infos,
      request.mapM (fun r => s.server.find? (·.sva = r.sva)) = some infos ∧
        serverUnmap s request = unmapFound s infos request := by
  unfold serverUnmap
  by_cases hmore : s.server.length < request.length
  · rw [if_pos hmore]
    exact .inl ⟨fun hle => by omega, .inl rfl⟩
  · rw [if_neg hmore]
    cases hfind : request.mapM fun r => s.server.find? (·.sva = r.sva) with
    | none =>
      refine .inl ⟨fun hall => ?_, .inr rfl⟩
      obtain ⟨infos, hsome⟩ := mapM_find_isSome hall.2
      rw [hfind] at hsome
      cases hsome
    | some infos => exact .inr ⟨by omega, infos, rfl, rfl⟩

section Unmap

variable {infos : List BufferInfo} {request : List UnmapEntry}
  (hfind : request.mapM (fun r => s.server.find? (·.sva = r.sva)) = some infos)

include hfind

theorem known_of_mapM : ∀ r ∈ request, ∃ b ∈ s.server, b.sva = r.sva := by
  obtain ⟨hsvas, hmem⟩ := mapM_find hfind
  intro r hr
  have hin : r.sva ∈ infos.map BufferInfo.sva := by
    rw [hsvas]
    exact List.mem_map.mpr ⟨r, hr, rfl⟩
  obtain ⟨i, hi, hsva⟩ := List.mem_map.mp hin
  exact ⟨i, hmem i hi, hsva⟩

theorem Matched.asked (h : Matched s) : Asked s.driver (unmapBufs infos request) := by
  rw [unmapBufs_eq hfind]
  intro b hb
  obtain ⟨r, hr, rfl⟩ := List.mem_map.mp hb
  obtain ⟨i, hi, hfound, -⟩ := found_mem (known_of_mapM hfind r hr)
  show (found s.server r.sva).va ≠ 0 ∧ (found s.server r.sva ∈ s.driver ∨ _)
  rw [hfound]
  exact ⟨h.address i hi, .inl (h.mem_driver hi)⟩

/-- The daemon refuses a buffer of the request when it is first asked. -/
theorem Matched.refuses_iff (h : Matched s) : Refuses s.driver (unmapBufs infos request) ↔
    ∃ pre r post, request = pre ++ r :: post ∧ r.answer = .refused ∧
      r.sva ∉ pre.map UnmapEntry.sva := by
  have hknown := known_of_mapM hfind
  rw [unmapBufs_eq hfind]
  constructor
  · rintro ⟨pre, m, post, hsplit, -, hfirst⟩
    obtain ⟨pre', rest, hreq, hpre, hrest⟩ := List.map_eq_append_iff.mp hsplit
    obtain ⟨r, post', rfl, hr, -⟩ := List.map_eq_cons_iff.mp hrest
    refine ⟨pre', r, post', hreq, congrArg Prod.snd hr, fun hin => hfirst ?_⟩
    obtain ⟨p, hp, hsva⟩ := List.mem_map.mp hin
    have hm : found s.server r.sva = m := congrArg Prod.fst hr
    rw [← hpre, ← hm, List.map_map]
    exact List.mem_map.mpr ⟨p, hp, congrArg (found s.server) hsva⟩
  · rintro ⟨pre, r, post, rfl, hr, hfirst⟩
    have hrin : r ∈ pre ++ r :: post := List.mem_append_right _ List.mem_cons_self
    obtain ⟨i, hi, hfound, hisva⟩ := found_mem (hknown r hrin)
    refine ⟨pre.map fun r => (found s.server r.sva, r.answer), i.mapping,
      post.map fun r => (found s.server r.sva, r.answer), ?_, h.mem_driver hi, fun hin => ?_⟩
    · rw [List.map_append, List.map_cons, hfound, hr]
    · rw [List.map_map] at hin
      obtain ⟨p, hp, hsame⟩ := List.mem_map.mp hin
      obtain ⟨d, -, hdfound, hdsva⟩ := found_mem (hknown p (List.mem_append_left _ hp))
      refine hfirst (List.mem_map.mpr ⟨p, hp, ?_⟩)
      have hsva : d.sva = i.sva := by
        have hmapping : d.mapping = i.mapping := hdfound.symm.trans hsame
        exact congrArg Mapping.sva hmapping
      rw [← hdsva, hsva, hisva]

/-- When the daemon refuses, the request is the last one. -/
theorem Matched.unmapped_refused (h : Matched s)
    (hrefused : Refuses s.driver (unmapBufs infos request)) :
    (unmapFound s infos request).2.isOpen = false ∧
      (unmapFound s infos request).2.indeterminate = s.indeterminate := by
  have hinvalid : (driverUnmap s.driver (unmapBufs infos request)).invalid = true :=
    (unmapLoop_invalid_iff h.distinct (h.asked hfind)).mpr hrefused
  unfold unmapFound
  dsimp only
  rw [hinvalid]
  by_cases hok : (driverUnmap s.driver (unmapBufs infos request)).ok = true
  · rw [if_pos hok]
    exact ⟨Bool.and_false _, rfl⟩
  · rw [if_neg hok]
    exact ⟨Bool.and_false _, rfl⟩

/-- A taken request whose buffers are all unmapped keeps the tables matched. -/
theorem Matched.unmapped_whole (h : Matched s) (hnodup : (request.map UnmapEntry.sva).Nodup)
    (hall : ∀ r ∈ request, r.answer = .unmapped) :
    unmapFound s infos request = (.method, s) ∨
      unmapFound s infos request = (.done [], { s with
        driver := s.driver.filter (· ∉ infos.map BufferInfo.mapping)
        server := s.server.filter (·.sva ∉ request.map UnmapEntry.sva) }) ∧
      (s.server.filter (·.sva ∉ request.map UnmapEntry.sva)).map BufferInfo.mapping =
        s.driver.filter (· ∉ infos.map BufferInfo.mapping) := by
  obtain ⟨hsvas, hmem⟩ := mapM_find hfind
  have hms : (infos.map BufferInfo.mapping).Nodup := by
    apply List.Nodup.of_map Mapping.sva
    rw [List.map_map, show Mapping.sva ∘ BufferInfo.mapping = BufferInfo.sva from rfl, hsvas]
    exact hnodup
  -- the driver is asked for what the table says of the buffers in the request
  have hzip : unmapBufs infos request = (infos.map BufferInfo.mapping).map (·, .unmapped) := by
    clear hnodup hms hsvas hmem
    induction request generalizing infos with
    | nil =>
      cases hfind
      rfl
    | cons r request ih =>
      rw [List.mapM_cons] at hfind
      obtain ⟨i, hi, hfind⟩ := Option.bind_eq_some_iff.mp hfind
      obtain ⟨is, his, hfind⟩ := Option.bind_eq_some_iff.mp hfind
      cases hfind
      show (i.mapping, r.answer) :: unmapBufs is request = _
      rw [ih his fun d hd => hall d (List.mem_cons_of_mem _ hd), hall r List.mem_cons_self]
      rfl
  have htable : ∀ m ∈ infos.map BufferInfo.mapping, m ∈ s.driver ∧ m.va ≠ 0 := by
    intro m hm
    obtain ⟨i, hi, rfl⟩ := List.mem_map.mp hm
    exact ⟨h.mem_driver (hmem i hi), h.address i (hmem i hi)⟩
  have hloop := unmapLoop_all h.distinct htable hms
  have hremove := removeBuffers_eq h.nodup hnodup (by
    intro sva hsva
    rw [← hsvas] at hsva
    obtain ⟨i, hi, rfl⟩ := List.mem_map.mp hsva
    exact List.mem_map.mpr ⟨i, hmem i hi, rfl⟩)
  unfold unmapFound driverUnmap
  rw [hzip, hloop, hsvas]
  dsimp only
  rw [hremove]
  by_cases hempty : infos = []
  · subst hempty
    refine .inl ?_
    simp
  · refine .inr ⟨?_, ?_⟩
    · simp [hempty]
    · rw [← h.driver, List.filter_map]
      congr 1
      apply List.filter_congr
      intro b hb
      rw [← hsvas]
      apply decide_eq_decide.mpr
      refine not_congr ⟨fun hin => ?_, fun hin => ?_⟩
      · obtain ⟨i, hi, hsva⟩ := List.mem_map.mp hin
        have hbi := List.inj_on_of_nodup_map h.nodup (hmem i hi) hb hsva
        exact List.mem_map.mpr ⟨i, hi, congrArg _ hbi⟩
      · obtain ⟨i, hi, hsame⟩ := List.mem_map.mp hin
        exact List.mem_map.mpr ⟨i, hi, congrArg Mapping.sva hsame⟩

/-- An unmap that keeps the tables in agreement, and is not the last request, was served as a
whole. -/
theorem Matched.unmapsWhole (h : Matched s)
    (hperm : (unmapFound s infos request).2.isOpen = true →
      ((unmapFound s infos request).2.server.map BufferInfo.mapping).Perm
        (unmapFound s infos request).2.driver) (hopen : s.isOpen = true) :
    UnmapsWhole request := by
  have hasked := h.asked hfind
  by_cases hrefused : Refuses s.driver (unmapBufs infos request)
  · exact .inl ((h.refuses_iff hfind).mp hrefused)
  refine .inr ?_
  have hinvalid : (unmapLoop s.driver (unmapBufs infos request)).invalid = false := by
    rw [← Bool.not_eq_true, unmapLoop_invalid_iff h.distinct hasked]
    exact hrefused
  have hdriver := unmapLoop_valid h.distinct hasked hinvalid
  have hbufs := unmapBufs_eq hfind
  have hok : (unmapLoop s.driver (unmapBufs infos request)).failed = false ∨ request = [] := by
    by_contra hnot
    obtain ⟨hfail, hne⟩ := not_or.mp hnot
    -- the server still has all buffers, of which the driver has lost at least one
    have hsame : unmapFound s infos request = (.method, { s with
        driver := (unmapLoop s.driver (unmapBufs infos request)).driver }) := by
      unfold unmapFound driverUnmap
      simp [hfail, hinvalid]
    rw [hsame, hdriver] at hperm
    have hlength := (hperm hopen).length_eq
    rw [show (s.server.map BufferInfo.mapping) = s.driver from h.driver] at hlength
    have hkept := List.length_filter_eq_length_iff.mp hlength.symm
    obtain ⟨r, request', rfl⟩ := List.exists_cons_of_ne_nil hne
    obtain ⟨i, hi, hfound, -⟩ := found_mem (known_of_mapM hfind r List.mem_cons_self)
    have hout := of_decide_eq_true (hkept _ (h.mem_driver hi))
    apply hout
    rw [hbufs, List.map_map, ← hfound]
    exact List.mem_map.mpr ⟨r, List.mem_cons_self, rfl⟩
  rcases hok with hok | rfl
  · obtain ⟨hnodup, hall, -⟩ := of_unmapLoop_ok h.distinct (fun b hb => (hasked b hb).1) hok
    rw [hbufs] at hnodup hall
    refine ⟨?_, fun r hr => ?_⟩
    · have hsvas : (request.map fun r => (found s.server r.sva, r.answer)).map (fun b => b.1.sva) =
          request.map UnmapEntry.sva := by
        rw [List.map_map]
        apply List.map_congr_left
        intro r hr
        obtain ⟨i, -, hfound, hsva⟩ := found_mem (known_of_mapM hfind r hr)
        show (found s.server r.sva).sva = r.sva
        rw [hfound, ← hsva]
        rfl
      rw [← hsvas]
      exact hnodup
    · exact hall _ (List.mem_map.mpr ⟨r, hr, rfl⟩)
  · exact ⟨List.nodup_nil, nofun⟩

end Unmap

/-! ## Map -/

theorem Covered.fresh (h : Covered s) {request : List MapEntry} (ha : Allocates s request) :
    Fresh s.driver (request.map MapEntry.buf) where
  ne_zero := by
    intro b hb
    obtain ⟨r, hr, rfl⟩ := List.mem_map.mp hb
    exact (ha.address r hr).1
  nodup := by
    rw [List.map_map]
    exact ha.addresses
  apart := by
    intro b hb e he heq
    obtain ⟨r, hr, rfl⟩ := List.mem_map.mp hb
    obtain ⟨i, hi, rfl⟩ := h.covered e he
    exact (ha.address r hr).2 (List.mem_map.mpr ⟨i, hi, heq⟩)

/-- What the secure world has mapped is apart from what was mapped before. -/
theorem Covered.distinct_granted (h : Covered s) {request pre : List MapEntry}
    (ha : Allocates s request) (hpre : pre.Sublist request)
    (hall : ∀ a ∈ pre, a.answer.isSome = true) :
    Distinct (s.driver ++ (pre.map MapEntry.buf).map MapBuf.granted) := by
  have hsvas : ((pre.map MapEntry.buf).map MapBuf.granted).map Mapping.sva =
      pre.filterMap MapEntry.answer := by
    clear hpre
    induction pre with
    | nil => rfl
    | cons a pre ih =>
      obtain ⟨sva, hsva⟩ := Option.isSome_iff_exists.mp (hall a List.mem_cons_self)
      rw [List.filterMap_cons_some hsva, ← ih fun d hd => hall d (List.mem_cons_of_mem _ hd)]
      show (a.answer.getD 0) :: _ = sva :: _
      rw [hsva]
      rfl
  have hsub := hpre.filterMap MapEntry.answer
  refine ⟨?_, fun e he => ?_⟩
  · rw [List.map_append, hsvas, List.nodup_append]
    refine ⟨h.distinct.nodup, ha.answers.sublist hsub, fun a hin b hb heq => ?_⟩
    rw [heq] at hin
    exact (ha.answer b (hsub.subset hb)).2 hin
  · rcases List.mem_append.mp he with he | he
    · exact h.distinct.ne_zero e he
    · have hin : e.sva ∈ pre.filterMap MapEntry.answer := by
        rw [← hsvas]
        exact List.mem_map.mpr ⟨e, he, rfl⟩
      exact (ha.answer _ (hsub.subset hin)).1

/-- How the driver call of a map ends that fails for a buffer. -/
theorem Covered.map_failed (h : Covered s) {request pre post : List MapEntry} {b : MapEntry}
    (ha : Allocates s request) (hsplit : request = pre ++ b :: post)
    (hall : ∀ a ∈ pre, a.answer.isSome = true) (hb : b.answer = none) :
    (driverMap s.driver (request.map MapEntry.buf)).1 =
      if pre = [] then ⟨false, false, s.driver⟩
      else
        let step := mcUnmap_ (leftOver s.driver (pre.map MapEntry.buf)) b.buf.buf b.unwinds
        ⟨false, pre.any (!·.unwinds.unmaps) || step.invalid, step.driver⟩ := by
  have hfresh := h.fresh ha
  rw [hsplit, List.map_append, List.map_cons] at hfresh ⊢
  have hgranted : ∀ a ∈ pre.map MapEntry.buf, a.answer.isSome = true := by
    intro a hain
    obtain ⟨r, hr, rfl⟩ := List.mem_map.mp hain
    exact hall r hr
  have hb' : b.buf.answer = none := hb
  rw [driverMap_failed hfresh hgranted hb']
  by_cases hpre : pre = []
  · rw [if_pos hpre, hpre]
    rfl
  · have hdist := h.distinct_granted ha (hsplit ▸ List.sublist_append_left _ _) hall
    have hne : ∀ a ∈ pre.map MapEntry.buf, a.buf.va ≠ 0 := fun a hain =>
      hfresh.ne_zero a (List.mem_append_left _ hain)
    have hlast : b.buf.buf.va ≠ 0 :=
      hfresh.ne_zero _ (List.mem_append_right _ List.mem_cons_self)
    obtain ⟨hdriver, hinvalid⟩ := unwind_eq hdist hne hlast
    rw [if_neg hpre, if_neg (by simpa using hpre)]
    dsimp only
    rw [hdriver, hinvalid, List.any_map]
    rfl

/-- What the server makes of a map whose driver call fails. -/
theorem serverMap_failed {request : List MapEntry} (hprep : prepare request = .buffers)
    (hfail : (driverMap s.driver (request.map MapEntry.buf)).1.ok = false) :
    serverMap s request = (.method, { s with
      driver := (driverMap s.driver (request.map MapEntry.buf)).1.driver
      isOpen := s.isOpen && !(driverMap s.driver (request.map MapEntry.buf)).1.invalid }) := by
  unfold serverMap
  rw [hprep]
  rcases hcall : driverMap s.driver (request.map MapEntry.buf) with ⟨r, bufs⟩
  rw [hcall] at hfail
  have hok : r.ok = false := hfail
  dsimp only
  rw [hok, if_neg (by simp)]

/-- A map whose buffers are all mapped. -/
theorem Covered.mapped_all (h : Covered s) {request : List MapEntry} (ha : Allocates s request)
    (hprep : prepare request = .buffers) (hall : ∀ a ∈ request, a.answer.isSome = true)
    (hne : request ≠ []) :
    serverMap s request = (.done (request.map fun r => r.answer.getD 0), { s with
        driver := s.driver ++ (request.map MapEntry.buf).map MapBuf.granted
        server := s.server ++ request.map fun r => ⟨r.address, r.len, r.flags, r.answer.getD 0⟩ }) ∧
      Distinct (s.driver ++ (request.map MapEntry.buf).map MapBuf.granted) := by
  have hgranted : ∀ a ∈ request.map MapEntry.buf, a.answer.isSome = true := by
    intro a hain
    obtain ⟨r, hr, rfl⟩ := List.mem_map.mp hain
    exact hall r hr
  refine ⟨?_, h.distinct_granted ha (List.Sublist.refl _) hall⟩
  have hsome : (!(request.map MapEntry.buf).isEmpty) = true := by simpa using hne
  unfold serverMap
  rw [hprep, driverMap_all (h.fresh ha) hgranted]
  dsimp only
  rw [hsome, if_pos rfl]
  simp only [List.map_map, List.zipWith_map_right, List.zipWith_self, Bool.not_false,
    Bool.and_true]
  rfl

/-- A map of no buffers changes nothing. -/
theorem serverMap_nil : serverMap s [] = (.method, s) := by
  rw [serverMap_failed rfl rfl]
  show (Reply.method, { s with isOpen := s.isOpen && true }) = _
  rw [Bool.and_true]

/-- All buffers are mapped, or there is a first that is not. -/
theorem answered_or_split (request : List MapEntry) :
    (∀ a ∈ request, a.answer.isSome = true) ∨ ∃ pre b post, request = pre ++ b :: post ∧
      (∀ a ∈ pre, a.answer.isSome = true) ∧ b.answer = none := by
  cases hfind : request.find? (fun r => r.answer.isNone) with
  | none =>
    refine .inl fun a hain => ?_
    have hnot := List.find?_eq_none.mp hfind a hain
    simpa [Option.isSome_iff_ne_none] using hnot
  | some b =>
    obtain ⟨hb, pre, post, hsplit, hpre⟩ := List.find?_eq_some_iff_append.mp hfind
    refine .inr ⟨pre, b, post, hsplit, fun a hain => ?_, by simpa using hb⟩
    simpa [Option.isSome_iff_ne_none] using hpre a hain

/-- A map of local buffers that are allocated: it does nothing, or maps all, or the daemon refuses
to unmap a buffer again. -/
theorem Matched.mapped_whole (h : Matched s) {request : List MapEntry} (ha : Allocates s request)
    (hprep : prepare request = .buffers) (hwhole : MapsWhole s request) :
    serverMap s request = (.method, s) ∨
      (serverMap s request = (.done (request.map fun r => r.answer.getD 0), { s with
          driver := s.driver ++ (request.map MapEntry.buf).map MapBuf.granted
          server :=
            s.server ++ request.map fun r => ⟨r.address, r.len, r.flags, r.answer.getD 0⟩ }) ∧
        Distinct (s.driver ++ (request.map MapEntry.buf).map MapBuf.granted)) ∨
      (serverMap s request).1 = .method ∧ (serverMap s request).2.isOpen = false ∧
        (serverMap s request).2.indeterminate = s.indeterminate := by
  rcases answered_or_split request with hall | ⟨pre, b, post, hsplit, hall, hb⟩
  · by_cases hempty : request = []
    · subst hempty
      exact .inl serverMap_nil
    · exact .inr (.inl (h.covered.mapped_all ha hprep hall hempty))
  · have hcall := h.covered.map_failed ha hsplit hall hb
    have hfail : (driverMap s.driver (request.map MapEntry.buf)).1.ok = false := by
      rw [hcall]
      split_ifs
      · rfl
      · rfl
    rw [serverMap_failed hprep hfail, hcall]
    by_cases hpre : pre = []
    · rw [if_pos hpre]
      refine .inl ?_
      show (Reply.method, { s with isOpen := s.isOpen && true }) = _
      rw [Bool.and_true]
    -- what was mapped before is unmapped again, and if one of these fails the device is closed
    · rw [if_neg hpre]
      dsimp only
      by_cases hrefused : pre.any (!·.unwinds.unmaps) = true
      · rw [hrefused]
        exact .inr (.inr ⟨rfl, Bool.and_false _, rfl⟩)
      · have hunmaps : ∀ a ∈ pre, a.unwinds ≠ .refused := by
          intro a hain heq
          exact hrefused (List.any_eq_true.mpr ⟨a, hain, by rw [heq]; rfl⟩)
        have hleft : leftOver s.driver (pre.map MapEntry.buf) = s.driver := by
          apply leftOver_of_unmaps
          intro a hain
          obtain ⟨r, hr, rfl⟩ := List.mem_map.mp hain
          exact hunmaps r hr
        have hmiss := hwhole pre b post hsplit hpre hall hb hunmaps
        rw [hleft, show (mcUnmap_ s.driver b.buf.buf b.unwinds).driver = s.driver from
          mcUnmap_not_hits hmiss, (Bool.not_eq_true _).mp hrefused, Bool.false_or]
        cases (mcUnmap_ s.driver b.buf.buf b.unwinds).invalid with
        | true => exact .inr (.inr ⟨rfl, Bool.and_false _, rfl⟩)
        | false =>
          refine .inl ?_
          show (Reply.method, { s with isOpen := s.isOpen && true }) = _
          rw [Bool.and_true]

/-- A map that keeps the tables in agreement, and is not the last request, was unwound where it
failed. -/
theorem Matched.mapsWhole (h : Matched s) {request : List MapEntry} (ha : Allocates s request)
    (hprep : prepare request = .buffers) (hopen : s.isOpen = true)
    (hperm : (serverMap s request).2.isOpen = true →
      ((serverMap s request).2.server.map BufferInfo.mapping).Perm
        (serverMap s request).2.driver) : MapsWhole s request := by
  intro pre b post hsplit hpre hall hb hunmaps m hm hhit
  have hcall := h.covered.map_failed ha hsplit hall hb
  rw [if_neg hpre] at hcall
  have hleft : leftOver s.driver (pre.map MapEntry.buf) = s.driver := by
    apply leftOver_of_unmaps
    intro a hain
    obtain ⟨r, hr, rfl⟩ := List.mem_map.mp hain
    exact hunmaps r hr
  have hnone : pre.any (!·.unwinds.unmaps) = false := by
    apply List.any_eq_false.mpr
    intro a hain
    simp [unmaps_of_ne (hunmaps a hain)]
  -- the mapped buffer that the address happens to be of is unmapped
  obtain ⟨hdriver, hinvalid⟩ := mcUnmap_hits h.distinct hm hhit
  have hstep : mcUnmap_ s.driver b.buf.buf b.unwinds = mcUnmap_ s.driver b.buf.buf b.buf.unwinds :=
    rfl
  dsimp only at hcall
  rw [hleft, hnone, hstep, hdriver, hinvalid] at hcall
  rw [serverMap_failed hprep (by rw [hcall]), hcall] at hperm
  have hlost := hperm (by rw [hopen]; rfl)
  rw [show (s.server.map BufferInfo.mapping) = s.driver from h.driver] at hlost
  exact h.distinct.list_nodup.not_mem_erase (hlost.subset hm)

end Matched

/-! ## Runs -/

section Runs

variable {s t : Tables}

/-- What a run keeps: while requests are served, the tables are matched. -/
def Kept (s : Tables) : Prop := s.indeterminate = false ∧ (s.isOpen = true → Matched s)

theorem Matched.kept (h : Matched s) : Kept s := ⟨h.determinate, fun _ => h⟩

theorem Kept.mirror (h : Kept s) : Mirror s := ⟨h.1, fun hopen => (h.2 hopen).mirror.2 hopen⟩

theorem kept_of_closed (hdet : s.indeterminate = false) (hclosed : s.isOpen = false) : Kept s := by
  refine ⟨hdet, fun hopen => ?_⟩
  rw [hclosed] at hopen
  cases hopen

theorem Matched.gone (h : Matched s) : Matched { s with client := none } :=
  ⟨h.determinate, h.driver, h.distinct, h.address, nofun⟩

theorem le_max_iff {sent : List MapEntry} :
    (∀ b ∈ sent, b.len ≤ bufferLengthMax) ↔ ¬ sent.any (bufferLengthMax < ·.len) = true := by
  simp

theorem Matched.map (h : Matched s) {bufs : List MapEntry}
    (ha : Allocates s (bufs.filter (·.va ≠ 0))) (hwhole : AllOrNothing s (.map bufs)) :
    Kept (clientMap s bufs) := by
  unfold clientMap
  dsimp only
  by_cases hlong : (bufs.filter (·.va ≠ 0)).any (bufferLengthMax < ·.len) = true
  · rw [if_pos hlong]
    exact h.kept
  · rw [if_neg hlong]
    obtain ⟨hdet, hbuffers⟩ := hwhole (le_max_iff.mpr hlong)
    cases hprep : prepare (bufs.filter (·.va ≠ 0)) with
    | refused =>
      have hrefused : serverMap s (bufs.filter (·.va ≠ 0)) = (.protocol, s) := by
        unfold serverMap
        rw [hprep]
      rw [hrefused]
      exact h.gone.kept
    | indeterminate => exact absurd hprep hdet
    | buffers =>
      rcases h.mapped_whole ha hprep (hbuffers hprep) with
        heq | ⟨heq, hdist⟩ | ⟨hmethod, hclosed, hsame⟩
      · rw [heq]
        exact h.kept
      · rw [heq]
        refine Matched.kept ⟨h.determinate, ?_, hdist, fun b hb => ?_, fun c hc => ?_⟩
        · show (s.server ++ List.map _ _).map _ = s.driver ++ _
          rw [List.map_append, h.driver, List.map_map, List.map_map]
          rfl
        · rcases List.mem_append.mp hb with hb | hb
          · exact h.address b hb
          · obtain ⟨r, hr, rfl⟩ := List.mem_map.mp hb
            exact (ha.address r hr).1
        · obtain ⟨c', hc', rfl⟩ := Option.map_eq_some_iff.mp hc
          show (c' ++ _).map _ = (s.server ++ List.map _ _).map _
          rw [List.map_append, List.map_append, h.client c' hc', List.zipWith_map_right,
            List.zipWith_self, List.map_map, List.map_map]
          rfl
      · rcases hcall : serverMap s (bufs.filter (·.va ≠ 0)) with ⟨reply, r⟩
        rw [hcall] at hmethod hclosed hsame
        obtain rfl : reply = .method := hmethod
        exact kept_of_closed (hsame.trans h.determinate) hclosed

theorem Matched.unmap (h : Matched s) {bufs : List UnmapEntry}
    (hwhole : AllOrNothing s (.unmap bufs)) : Kept (clientUnmap s bufs) := by
  unfold clientUnmap
  dsimp only
  by_cases hzero : (bufs.filter (·.va ≠ 0)).any (·.sva = 0) = true
  · rw [if_pos hzero]
    exact h.kept
  · rw [if_neg hzero]
    rcases serverUnmap_cases s (bufs.filter (·.va ≠ 0)) with
      ⟨-, heq | heq⟩ | ⟨hlen, infos, hfind, heq⟩
    · rw [heq]
      exact h.gone.kept
    · rw [heq]
      exact h.kept
    · have haccepted : Accepted s (bufs.filter (·.va ≠ 0)) :=
        ⟨fun r hr hr0 => hzero (List.any_eq_true.mpr ⟨r, hr, decide_eq_true hr0⟩), hlen,
          known_of_mapM hfind⟩
      obtain ⟨hsvas, hmem⟩ := mapM_find hfind
      rw [heq]
      rcases hwhole haccepted with hrefused | ⟨hnodup, hall⟩
      · obtain ⟨hclosed, hsame⟩ :=
          h.unmapped_refused hfind ((h.refuses_iff hfind).mpr hrefused)
        rcases hcall : unmapFound s infos (bufs.filter (·.va ≠ 0)) with ⟨reply, r⟩
        rw [hcall] at hclosed hsame
        cases reply with
        | protocol => exact kept_of_closed (hsame.trans h.determinate) hclosed
        | method => exact kept_of_closed (hsame.trans h.determinate) hclosed
        | done svas => exact kept_of_closed (hsame.trans h.determinate) hclosed
      · rcases h.unmapped_whole hfind hnodup hall with hidle | ⟨hdone, hsame⟩
        · rw [hidle]
          exact h.kept
        · rw [hdone]
          refine Matched.kept ⟨h.determinate, hsame, h.distinct.sublist List.filter_sublist,
            fun b hb => h.address b (List.mem_of_mem_filter hb), fun c hc => ?_⟩
          obtain ⟨c', hc', rfl⟩ := Option.map_eq_some_iff.mp hc
          have hshared := h.client c' hc'
          have hsvas' : c'.map BufferInfo.sva = s.server.map BufferInfo.sva := by
            have hfst := congrArg (List.map Prod.fst) hshared
            rwa [List.map_map, List.map_map] at hfst
          have hremove := removeBuffers_eq (hsvas' ▸ h.nodup) hnodup (by
            intro sva hsva
            rw [hsvas', ← hsvas] at *
            obtain ⟨i, hi, rfl⟩ := List.mem_map.mp hsva
            exact List.mem_map.mpr ⟨i, hmem i hi, rfl⟩)
          rw [hremove]
          exact shared_filter hshared

/-- A request after which the tables still agree succeeded or failed as a whole, or was the last
one. -/
theorem Matched.allOrNothing (h : Matched s) (hopen : s.isOpen = true) {a : TableAction}
    (ht : tableMachine.step s a = some t) (hm : Mirror t) : AllOrNothing s a := by
  change (if _ then _ else _) = _ at ht
  split_ifs at ht with hlive
  match a with
  | .map bufs =>
    dsimp only at ht
    split_ifs at ht with hallowed
    cases ht
    intro hshort
    unfold clientMap at hm
    dsimp only at hm
    rw [if_neg (le_max_iff.mp hshort)] at hm
    refine ⟨fun hprep => ?_, fun hprep => h.mapsWhole hallowed.2 hprep hopen ?_⟩
    · have hbad : serverMap s (bufs.filter (·.va ≠ 0)) =
          (.protocol, { s with indeterminate := true }) := by
        unfold serverMap
        rw [hprep]
      rw [hbad] at hm
      cases hm.1
    · rcases heq : serverMap s (bufs.filter (·.va ≠ 0)) with ⟨reply, r⟩
      rw [heq] at hm
      cases reply with
      | protocol => exact fun hstill => (hm.2 hstill).1
      | method => exact fun hstill => (hm.2 hstill).1
      | done svas => exact fun hstill => (hm.2 hstill).1
  | .unmap bufs =>
    dsimp only at ht
    split_ifs at ht
    cases ht
    rintro ⟨hne, hlen, hknown⟩
    unfold clientUnmap at hm
    dsimp only at hm
    have hzero : ¬ (bufs.filter (·.va ≠ 0)).any (·.sva = 0) = true := by
      intro hany
      obtain ⟨r, hr, hr0⟩ := List.any_eq_true.mp hany
      exact hne r hr (by simpa using hr0)
    rw [if_neg hzero] at hm
    -- the server knows all the buffers, so it asks the driver
    rcases serverUnmap_cases s (bufs.filter (·.va ≠ 0)) with ⟨hnot, -⟩ | ⟨-, infos, hfind, heq⟩
    · exact absurd ⟨hlen, hknown⟩ hnot
    · refine h.unmapsWhole hfind ?_ hopen
      rw [heq] at hm
      rcases hcall : unmapFound s infos (bufs.filter (·.va ≠ 0)) with ⟨reply, r⟩
      rw [hcall] at hm
      cases reply with
      | protocol => exact fun hstill => (hm.2 hstill).1
      | method => exact fun hstill => (hm.2 hstill).1
      | done svas => exact fun hstill => (hm.2 hstill).1

/-- A request that succeeds or fails as a whole, or is the last one, keeps the tables matched. -/
theorem Matched.step (h : Matched s) {a : TableAction} (ht : tableMachine.step s a = some t)
    (hwhole : AllOrNothing s a) : Kept t := by
  change (if _ then _ else _) = _ at ht
  split_ifs at ht with hlive
  match a with
  | .map bufs =>
    dsimp only at ht
    split_ifs at ht with hallowed
    cases ht
    exact h.map hallowed.2 hwhole
  | .unmap bufs =>
    dsimp only at ht
    split_ifs at ht
    cases ht
    exact h.unmap hwhole

theorem isOpen_of_step {a : TableAction} (ht : tableMachine.step s a = some t) :
    s.isOpen = true := by
  change (if _ then _ else _) = _ at ht
  split_ifs at ht with hlive
  simp only [not_or, Bool.not_eq_false] at hlive
  exact hlive.2.1

theorem fresh_matched : Matched freshTables where
  determinate := rfl
  driver := rfl
  distinct := ⟨List.nodup_nil, nofun⟩
  address := nofun
  client := by
    rintro c ⟨⟩
    rfl

/-- **Buffer tables.** The tables of client, server and driver agree in every state of a run exactly
when every request of the run that the server takes succeeds or fails as a whole, or is the last
one. -/
theorem mirror_iff_allOrNothing {as : List TableAction} {t : Tables}
    (hrun : tableMachine.run freshTables as = some t) :
    tableMachine.RunStays Mirror freshTables as ↔
      tableMachine.RunMeets AllOrNothing freshTables as :=
  tableMachine.runStays_iff_runMeets (I := Kept) (fun _ h => h.mirror)
    (fun _ _ _ h ht hwhole => (h.2 (isOpen_of_step ht)).step ht hwhole)
    (fun _ _ _ h ht hm => (h.2 (isOpen_of_step ht)).allOrNothing (isOpen_of_step ht) ht hm)
    fresh_matched.kept hrun

end Runs

/-- Two buffers for input and output. -/
def twoBuffers : TableAction :=
  .map [⟨0x1000, 64, 3, 0x8000, 0, some 0x100, .unmapped⟩,
    ⟨0x2000, 32, 3, 0x9000, 0, some 0x200, .unmapped⟩]

theorem mirror_whole :
    tableMachine.RunStays Mirror freshTables [twoBuffers, .unmap [⟨0x1000, 0x100, .unmapped⟩]] := by
  refine (mirror_iff_allOrNothing rfl).mpr ⟨fun _ => ⟨by decide, fun _ => ?_⟩, fun _ => ?_, trivial⟩
  · rintro pre b post hsplit - - hb
    have hin : b ∈ pre ++ b :: post := List.mem_append_right _ List.mem_cons_self
    rw [← hsplit] at hin
    -- no buffer of the request fails
    have hall : ∀ r ∈ [(⟨0x1000, 64, 3, 0x8000, 0, some 0x100, .unmapped⟩ : MapEntry),
        ⟨0x2000, 32, 3, 0x9000, 0, some 0x200, .unmapped⟩], r.answer ≠ none := by decide
    exact absurd hb (hall b hin)
  · exact .inr (by decide)

/-- One unmap that names the first of the two buffers twice. -/
theorem mirror_namedTwice :
    ∃ t, tableMachine.run freshTables
        [twoBuffers, .unmap [⟨0x1000, 0x100, .unmapped⟩, ⟨0x1000, 0x100, .unmapped⟩]] = some t ∧
      t.isOpen = true ∧ t.driver = [⟨0x9000, 32, 0x200⟩] ∧
      t.server.map BufferInfo.mapping = [⟨0x8000, 64, 0x100⟩, ⟨0x9000, 32, 0x200⟩] ∧
      ¬ Mirror t := by
  refine ⟨_, rfl, rfl, rfl, rfl, fun hm => ?_⟩
  have hlength := (hm.2 rfl).1.length_eq
  cases hlength

end McDaemon.Proxy
