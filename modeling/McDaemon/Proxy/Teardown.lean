/-
# McDaemon.Proxy.Teardown — what is left when a proxy client has gone.

When the thread of a connection has ended, nobody serves the client's session any more.  It is still
open in the daemon if the client has not closed it, because the driver refuses to close a device
with sessions and the thread does not insist.  Memory that is mapped to a session of the daemon has
to belong to the session object of the server; it does not where an open fails after the daemon has
opened the session, or where the daemon refuses to unmap a buffer when a map is unwound.
-/
import McDaemon.Proxy.ServerConnection

namespace McDaemon.Proxy

open McDaemon.Lib

/-! ## The property and the condition -/

/-- Once the thread has ended, the connection to the daemon is closed and no session is open there;
and memory that is mapped to an open session belongs to the session of the server. -/
def LeavesNothing (c : ServerConnection) : Prop :=
  c.indeterminate = false ∧
    (c.isRunning = false → c.device = none ∧ c.daemon = none ∧ c.openSessions = []) ∧
      ∀ d ∈ c.openSessions, ∀ address ∈ d.memory, ∃ s, c.session_ = some s ∧ address ∈ s.memory

/-- A TCI is not empty, and the daemon does not open a session with it that the client library
cannot connect to. -/
def OpensWhole (c : ServerConnection) (o : ServerConnection.Opening)
    (a : ServerConnection.OpenAnswers) : Prop :=
  c.session_ = none → o ≠ .indeterminate ∧
    (o = .daemon true → a.connects = false → c.daemon = none ∨ a.session = none)

/-- Where a map fails, the daemon unmaps each buffer again that has been mapped. -/
def Unmaps (request : List MapEntry) : Prop :=
  ∀ pre b post, request = pre ++ b :: post → (∀ a ∈ pre, a.answer.isSome = true) →
    b.answer = none → ∀ a ∈ pre, a.buf.unwinds.unmaps = true ∨ b.buf.Hits a.buf.granted

/-- Opens and maps fail as a whole, and the client closes its session before the thread ends, or the
daemon is not found alive then. -/
def Orderly (c : ServerConnection) : ServerConnection.Action → Prop
  | .openSession request a => OpensWhole c (ServerConnection.checkOpenSession request) a
  | .openTrustlet request a => OpensWhole c (ServerConnection.checkOpenTrustlet request) a
  | .map (some (sid, bufs)) =>
    c.session_ ≠ none → bufs.length ≤ mcMapMax →
      prepare bufs ≠ .indeterminate ∧
        (prepare bufs = .buffers → c.reached sid ≠ none → Unmaps bufs)
  | .exitThread interrupted => c.session_ = none ∨ c.isConnectionAlive interrupted = false
  | _ => True

/-! ## The server's table covers the driver's -/

theorem mem_eraseP_of_find? {p : BufferInfo → Bool} {buffers : List BufferInfo} {b : BufferInfo}
    (hb : b ∈ buffers) (h : buffers.find? p ≠ some b) : b ∈ buffers.eraseP p := by
  induction buffers with
  | nil => cases hb
  | cons a buffers ih =>
    by_cases hp : p a = true
    · rw [List.find?_cons_of_pos hp] at h
      rw [List.eraseP_cons_of_pos hp]
      exact (List.mem_cons.mp hb).resolve_left fun heq => h (congrArg some heq.symm)
    · rw [List.find?_cons_of_neg hp] at h
      rw [List.eraseP_cons_of_neg hp]
      rcases List.mem_cons.mp hb with rfl | hb
      · exact List.mem_cons_self
      · exact List.mem_cons_of_mem _ (ih hb h)

theorem find?_eraseP_sva {buffers : List BufferInfo} {sva other : Nat} (h : sva ≠ other) :
    (buffers.eraseP (·.sva = sva)).find? (·.sva = other) = buffers.find? (·.sva = other) := by
  induction buffers with
  | nil => rfl
  | cons a buffers ih =>
    by_cases ha : a.sva = sva
    · have hother : ¬ a.sva = other := fun heq => h (ha.symm.trans heq)
      rw [List.eraseP_cons_of_pos (by simpa using ha), List.find?_cons_of_neg (by simpa using hother)]
    · rw [List.eraseP_cons_of_neg (by simpa using ha), List.find?_cons, List.find?_cons, ih]

/-- A record stays that is not the first one under one of the addresses. -/
theorem mem_removeBuffers {svas : List Nat} {buffers : List BufferInfo} {b : BufferInfo}
    (hsvas : svas.Nodup) (hb : b ∈ buffers)
    (h : ∀ sva ∈ svas, buffers.find? (·.sva = sva) ≠ some b) :
    b ∈ (removeBuffers svas buffers).2 := by
  induction svas generalizing buffers with
  | nil => exact hb
  | cons sva svas ih =>
    obtain ⟨hnew, hrest⟩ := List.nodup_cons.mp hsvas
    unfold removeBuffers
    split_ifs with hany
    · apply ih hrest (mem_eraseP_of_find? hb (h sva List.mem_cons_self))
      intro other hother
      have hne : sva ≠ other := by
        rintro rfl
        exact hnew hother
      rw [find?_eraseP_sva hne]
      exact h other (List.mem_cons_of_mem _ hother)
    · exact hb

theorem removeBuffers_subset {svas : List Nat} {buffers : List BufferInfo} :
    (removeBuffers svas buffers).2 ⊆ buffers := by
  induction svas generalizing buffers with
  | nil => exact List.Subset.refl _
  | cons sva svas ih =>
    unfold removeBuffers
    split_ifs
    · exact List.Subset.trans ih List.eraseP_subset
    · exact List.Subset.refl _

section Tables

variable {s : Tables}

/-- The driver may lose mappings. -/
theorem Covered.sublist (h : Covered s) {driver : List Mapping} (hsub : driver.Sublist s.driver)
    (isOpen : Bool) : Covered { s with driver := driver, isOpen := isOpen } :=
  ⟨h.distinct.sublist hsub, fun e he => h.covered e (hsub.subset he)⟩

/-- An unmap takes no record off the server's table whose buffer is still mapped. -/
theorem Covered.unmap (h : Covered s) (hva : ∀ b ∈ s.server, b.va ≠ 0)
    (request : List UnmapEntry) : Covered (serverUnmap s request).2 ∧
      (serverUnmap s request).2.indeterminate = s.indeterminate ∧
      (serverUnmap s request).2.server ⊆ s.server := by
  rcases serverUnmap_cases s request with ⟨-, heq | heq⟩ | ⟨-, infos, hfind, heq⟩
  · rw [heq]
    exact ⟨h, rfl, List.Subset.refl _⟩
  · rw [heq]
    exact ⟨h, rfl, List.Subset.refl _⟩
  · rw [heq]
    unfold unmapFound driverUnmap
    dsimp only
    obtain ⟨hsvas, hmem⟩ := mapM_find hfind
    have hbufs := unmapBufs_eq hfind
    have hsub : (unmapLoop s.driver (unmapBufs infos request)).driver.Sublist s.driver :=
      unmapLoop_sublist
    by_cases hok : (!(unmapLoop s.driver (unmapBufs infos request)).failed &&
        (unmapLoop s.driver (unmapBufs infos request)).unmapped) = true
    · rw [if_pos hok]
      have hsuccess : (unmapLoop s.driver (unmapBufs infos request)).failed = false := by
        simpa using (Bool.and_eq_true_iff.mp hok).1
      have hne : ∀ b ∈ unmapBufs infos request, b.1.va ≠ 0 := by
        rw [hbufs]
        intro b hb
        obtain ⟨r, hr, rfl⟩ := List.mem_map.mp hb
        obtain ⟨i, hi, hfound, -⟩ := found_mem (known_of_mapM hfind r hr)
        show (found s.server r.sva).va ≠ 0
        rw [hfound]
        exact hva i hi
      obtain ⟨hnodup, -, hgone⟩ := of_unmapLoop_ok h.distinct hne hsuccess
      have hdifferent : (infos.map BufferInfo.sva).Nodup := by
        rw [hsvas]
        rw [hbufs, List.map_map] at hnodup
        have hsame : request.map UnmapEntry.sva = request.map fun r => (found s.server r.sva).sva := by
          apply List.map_congr_left
          intro r hr
          obtain ⟨i, -, hfound, hsva⟩ := found_mem (known_of_mapM hfind r hr)
          rw [hfound, ← hsva]
          rfl
        rw [hsame]
        exact hnodup
      refine ⟨⟨h.distinct.sublist hsub, fun e he => ?_⟩, rfl, removeBuffers_subset⟩
      obtain ⟨b, hb, rfl⟩ := h.covered e (hsub.subset he)
      refine ⟨b, mem_removeBuffers hdifferent hb fun sva hsva hfirst => ?_, rfl⟩
      -- a first record is one that the driver has been asked for, and has unmapped
      rw [hsvas] at hsva
      obtain ⟨r, hr, rfl⟩ := List.mem_map.mp hsva
      have hfound : found s.server r.sva = b.mapping := by
        unfold found
        rw [hfirst]
        rfl
      have hasked : (b.mapping, r.answer) ∈ unmapBufs infos request := by
        rw [hbufs, ← hfound]
        exact List.mem_map.mpr ⟨r, hr, rfl⟩
      obtain ⟨e, he', hsame, hnot⟩ := hgone _ hasked
      rw [h.distinct.eq_of_sva he' (hsub.subset he) hsame] at hnot
      exact hnot he
    · rw [if_neg hok]
      exact ⟨h.sublist hsub _, rfl, List.Subset.refl _⟩

/-- The driver call of a map that fails for a buffer: nothing is mapped, or it is unwound. -/
theorem Covered.failed_driver (h : Covered s) {request pre post : List MapEntry} {b : MapEntry}
    (ha : Allocates s request) (hprep : prepare request = .buffers)
    (hsplit : request = pre ++ b :: post) (hall : ∀ a ∈ pre, a.answer.isSome = true)
    (hb : b.answer = none) :
    ∃ driver isOpen, (serverMap s request).2 = { s with driver := driver, isOpen := isOpen } ∧
      (pre = [] ∧ driver = s.driver ∨
        driver = (mcUnmap_ (leftOver s.driver (pre.map MapEntry.buf)) b.buf.buf b.unwinds).driver) := by
  have hcall := h.map_failed ha hsplit hall hb
  have hfail : (driverMap s.driver (request.map MapEntry.buf)).1.ok = false := by
    rw [hcall]
    split_ifs
    · rfl
    · rfl
  rw [serverMap_failed hprep hfail, hcall]
  refine ⟨_, _, rfl, ?_⟩
  split_ifs with hpre
  · exact .inl ⟨hpre, rfl⟩
  · exact .inr rfl

/-- A map that fails as a whole, or succeeds, leaves no buffer in the driver without a record. -/
theorem Covered.map (h : Covered s) {request : List MapEntry} (ha : Allocates s request)
    (hdet : prepare request ≠ .indeterminate) (hwhole : prepare request = .buffers → Unmaps request) :
    Covered (serverMap s request).2 ∧
      (serverMap s request).2.indeterminate = s.indeterminate ∧
      ∀ b ∈ (serverMap s request).2.server, b ∈ s.server ∨ b.va ∈ request.map MapEntry.address := by
  cases hprep : prepare request with
  | refused =>
    have heq : serverMap s request = (.protocol, s) := by
      unfold serverMap
      rw [hprep]
    rw [heq]
    exact ⟨h, rfl, fun b hb => .inl hb⟩
  | indeterminate => exact absurd hprep hdet
  | buffers =>
    rcases answered_or_split request with hall | ⟨pre, b, post, hsplit, hall, hb⟩
    · by_cases hempty : request = []
      · subst hempty
        rw [serverMap_nil]
        exact ⟨h, rfl, fun b hb => .inl hb⟩
      · obtain ⟨heq, hdist⟩ := h.mapped_all ha hprep hall hempty
        rw [heq]
        refine ⟨⟨hdist, fun e he => ?_⟩, rfl, fun b hb => ?_⟩
        · rcases List.mem_append.mp he with he | he
          · obtain ⟨b, hb, hsame⟩ := h.covered e he
            exact ⟨b, List.mem_append_left _ hb, hsame⟩
          · obtain ⟨m, hm, rfl⟩ := List.mem_map.mp he
            obtain ⟨r, hr, rfl⟩ := List.mem_map.mp hm
            exact ⟨_, List.mem_append_right _ (List.mem_map.mpr ⟨r, hr, rfl⟩), rfl⟩
        · rcases List.mem_append.mp hb with hb | hb
          · exact .inl hb
          · obtain ⟨r, hr, rfl⟩ := List.mem_map.mp hb
            exact .inr (List.mem_map.mpr ⟨r, hr, rfl⟩)
    · obtain ⟨driver, isOpen, heq, ⟨-, rfl⟩ | rfl⟩ := h.failed_driver ha hprep hsplit hall hb
      · rw [heq]
        exact ⟨⟨h.distinct, h.covered⟩, rfl, fun b hb => .inl hb⟩
      · have hdist := h.distinct_granted ha (hsplit ▸ List.sublist_append_left _ _) hall
        have hsub : (mcUnmap_ (leftOver s.driver (pre.map MapEntry.buf)) b.buf.buf
            b.unwinds).driver ⊆ s.driver := by
          apply subset_of_unwinds (b := b.buf) hdist
          intro a hain
          obtain ⟨r, hr, rfl⟩ := List.mem_map.mp hain
          exact hwhole hprep pre b post hsplit hall hb r hr
        rw [heq]
        exact ⟨⟨(leftOver_distinct hdist).sublist (mcUnmap_sublist _),
          fun e he => h.covered e (hsub he)⟩, rfl, fun b hb => .inl hb⟩

end Tables

/-! ## What a connection keeps -/

/-- The session of the server has what is mapped to a session of the daemon. -/
structure Holds (s : Session) (d : DaemonSession) : Prop where
  tci : ∀ address ∈ d.tci, s.tci = some address
  covered : Covered (ServerConnection.tables s d)

/-- What an orderly run keeps: the client library knows the server's session only, and no other
session of the daemon has memory mapped. -/
structure InOrder (c : ServerConnection) : Prop where
  determinate : c.indeterminate = false
  ended : c.isRunning = false → c.device = none ∧ c.daemon = none
  running : c.isRunning = true → ∃ device, c.device = some device ∧
    device.sessionList = (c.session_.map Session.id).toList
  held : ∀ d ∈ c.openSessions, d.memory = [] ∨
    ∃ s, c.session_ = some s ∧ s.id = d.id ∧ Holds s d
  address : ∀ s ∈ c.session_, ∀ b ∈ s.buffers, b.va ≠ 0

section InOrder

variable {c : ServerConnection} {s : Session} {d : DaemonSession}

theorem Holds.memory (h : Holds s d) {address : Nat} (hin : address ∈ d.memory) :
    address ∈ s.memory := by
  rcases List.mem_append.mp hin with htci | hbuf
  · refine List.mem_append_left _ ?_
    rw [h.tci address (Option.mem_toList.mp htci)]
    exact List.mem_singleton.mpr rfl
  · obtain ⟨m, hm, rfl⟩ := List.mem_map.mp hbuf
    obtain ⟨b, hb, rfl⟩ := h.covered.covered m hm
    exact List.mem_append_right _ (List.mem_map.mpr ⟨b, hb, rfl⟩)

theorem holds_of_memory (h : d.memory = []) : Holds s d := by
  obtain ⟨htci, hbufs⟩ := List.append_eq_nil_iff.mp h
  have hbufs' : d.bufs = [] := List.map_eq_nil_iff.mp hbufs
  refine ⟨fun address hin => ?_, ⟨?_, fun e he => ?_⟩⟩
  · rw [Option.toList_eq_nil_iff.mp htci] at hin
    cases hin
  · show Distinct d.bufs
    rw [hbufs']
    exact ⟨List.nodup_nil, nofun⟩
  · have he' : e ∈ d.bufs := he
    rw [hbufs'] at he'
    cases he'

/-- The session that the driver reaches is that of the server. -/
theorem InOrder.reached (h : InOrder c) (hrun : c.isRunning = true) (hs : c.session_ = some s)
    {sid : UInt32} (hd : c.reached sid = some d) :
    d ∈ c.openSessions ∧ d.id = s.id ∧ Holds s d := by
  obtain ⟨device, hdevice, hlist⟩ := h.running hrun
  unfold ServerConnection.reached at hd
  rw [hdevice] at hd
  dsimp only at hd
  split_ifs at hd with hsid
  have hmem := List.mem_of_find?_eq_some hd
  have hid : d.id = sid := by simpa using List.find?_some hd
  have hknown : d.id = s.id := by
    rw [hlist, hs] at hsid
    rw [hid]
    exact List.mem_singleton.mp hsid
  refine ⟨hmem, hknown, ?_⟩
  rcases h.held d hmem with hnone | ⟨s', hs', -, hholds⟩
  · exact holds_of_memory hnone
  · rw [hs] at hs'
    cases hs'
    exact hholds

theorem InOrder.withTables (h : InOrder c) (hrun : c.isRunning = true) (hs : c.session_ = some s)
    {sid : UInt32} (hd : c.reached sid = some d) {t : Tables} (hdet : t.indeterminate = false)
    (hcovered : Covered t) (hva : ∀ b ∈ t.server, b.va ≠ 0) : InOrder (c.withTables s d t) := by
  obtain ⟨hmem, hid, hholds⟩ := h.reached hrun hs hd
  obtain ⟨device, hdevice, hlist⟩ := h.running hrun
  refine ⟨hdet, fun hend => ?_, fun _ => ⟨{ device with isValid := t.isOpen }, ?_, ?_⟩,
    fun e he => ?_, fun s' hs' => ?_⟩
  · exact absurd (hrun.symm.trans hend) (by simp)
  · show c.device.map _ = _
    rw [hdevice]
    rfl
  · rw [show (c.withTables s d t).session_ = some { s with buffers := t.server } from rfl]
    rw [hs] at hlist
    exact hlist
  · have he' : e ∈ (c.daemon.map fun sessions =>
        sessions.map fun e => if e.id = d.id then { e with bufs := t.driver } else e).getD [] := he
    cases hdaemon : c.daemon with
    | none =>
      rw [hdaemon] at he'
      cases he'
    | some sessions =>
      rw [hdaemon] at he'
      obtain ⟨e₀, he₀, rfl⟩ := List.mem_map.mp he'
      have hopen : e₀ ∈ c.openSessions := by
        show e₀ ∈ c.daemon.getD []
        rw [hdaemon]
        exact he₀
      by_cases hsame : e₀.id = d.id
      · rw [if_pos hsame]
        refine .inr ⟨_, rfl, (hsame.trans hid).symm, fun address hin => ?_, ?_⟩
        · rcases h.held e₀ hopen with hnone | ⟨s', hs', -, hholds'⟩
          · exact (holds_of_memory hnone).tci address hin
          · rw [hs] at hs'
            cases hs'
            exact hholds'.tci address hin
        · exact ⟨hcovered.distinct, hcovered.covered⟩
      · rw [if_neg hsame]
        rcases h.held e₀ hopen with hnone | ⟨s', hs', hid', -⟩
        · exact .inl hnone
        · rw [hs] at hs'
          cases hs'
          exact absurd (hid'.symm.trans hid.symm) hsame
  · cases hs'
    exact hva

/-! ## Steps -/

theorem isRunning_of_serves (h : c.serves = true) : c.isRunning = true :=
  (Bool.and_eq_true_iff.mp (Bool.and_eq_true_iff.mp h).1).1

theorem InOrder.openWith (h : InOrder c) (hrun : c.isRunning = true)
    {o : ServerConnection.Opening} {a : ServerConnection.OpenAnswers} (hwhole : OpensWhole c o a) :
    InOrder (c.openWith o a) := by
  unfold ServerConnection.openWith
  by_cases hsome : c.session_.isSome = true
  · rw [if_pos hsome]
    exact h
  rw [if_neg hsome]
  have hnone : c.session_ = none := by simpa using hsome
  obtain ⟨hdet, hfails⟩ := hwhole hnone
  -- the server has no session, so the daemon has no memory for it
  have hempty : ∀ d ∈ c.openSessions, d.memory = [] := by
    intro d hd
    rcases h.held d hd with hm | ⟨s, hs, -⟩
    · exact hm
    · rw [hnone] at hs
      cases hs
  obtain ⟨device, hdevice, hlist⟩ := h.running hrun
  match o with
  | .refused => exact h
  | .indeterminate => exact absurd rfl hdet
  | .daemon tci =>
    dsimp only
    cases hdaemon : c.daemon with
    | none => exact h
    | some sessions =>
      have hopen : c.openSessions = sessions := by
        show c.daemon.getD [] = _
        rw [hdaemon]
        rfl
      rw [hopen] at hempty
      cases hid : a.session with
      | none => exact h
      | some id =>
        dsimp only
        by_cases hconnects : a.connects = true
        · rw [if_pos hconnects]
          refine ⟨h.determinate, fun hend => absurd (hrun.symm.trans hend) (by simp),
            fun _ => ⟨_, congrArg (Option.map _) hdevice, ?_⟩, fun d hd => ?_, fun s hs => ?_⟩
          · rw [hnone] at hlist
            show device.sessionList ++ [id] = [id]
            rw [hlist]
            rfl
          · rcases List.mem_append.mp hd with hd | hd
            · exact .inl (hempty d hd)
            · rw [List.mem_singleton.mp hd]
              exact .inr ⟨_, rfl, rfl, fun _ hin => hin, ⟨List.nodup_nil, nofun⟩, nofun⟩
          · cases hs
            exact nofun
        · rw [if_neg hconnects]
          refine ⟨h.determinate, fun hend => absurd (hrun.symm.trans hend) (by simp), h.running,
            fun d hd => ?_, h.address⟩
          rcases List.mem_append.mp hd with hd | hd
          · exact .inl (hempty d hd)
          · -- nobody knows of the new session, so it must have no TCI
            have htci : tci = false := by
              rw [← Bool.not_eq_true]
              rintro rfl
              rcases hfails rfl (by simpa using hconnects) with hgone | hgone
              · rw [hdaemon] at hgone
                cases hgone
              · rw [hid] at hgone
                cases hgone
            rw [List.mem_singleton.mp hd, htci]
            exact .inl rfl

theorem InOrder.closeSession (h : InOrder c) (hrun : c.isRunning = true) (request : Option UInt32)
    (closes : Bool) : InOrder (c.closeSession request closes) := by
  unfold ServerConnection.closeSession
  obtain ⟨device, hdevice, hlist⟩ := h.running hrun
  cases request with
  | none => exact h
  | some id =>
    cases hs : c.session_ with
    | none => exact h
    | some s =>
      rw [hdevice]
      dsimp only
      rw [hs] at hlist
      by_cases hid : id ∉ device.sessionList
      · rw [if_pos hid]
        exact h
      rw [if_neg hid]
      -- the driver has one session, which is that of the server
      have hsame : id = s.id := by
        rw [not_not, hlist] at hid
        exact List.mem_singleton.mp hid
      cases hdaemon : c.daemon with
      | none =>
        refine ⟨h.determinate, fun hend => absurd (hrun.symm.trans hend) (by simp),
          fun _ => ⟨_, rfl, hlist⟩, nofun, fun s' hs' => ?_⟩
        cases hs'
        exact h.address s hs
      | some sessions =>
        cases closes with
        | false => exact h
        | true =>
          refine ⟨h.determinate, fun hend => absurd (hrun.symm.trans hend) (by simp),
            fun _ => ⟨_, rfl, ?_⟩, fun d hd => ?_, nofun⟩
          · show device.sessionList.erase id = []
            rw [hlist, hsame]
            exact List.erase_cons_head ..
          · -- only the session that is closed had memory mapped
            obtain ⟨hin, hne⟩ := List.mem_filter.mp hd
            have hopen : d ∈ c.openSessions := by
              show d ∈ c.daemon.getD []
              rw [hdaemon]
              exact hin
            rcases h.held d hopen with hnone | ⟨s', hs', hid', -⟩
            · exact .inl hnone
            · rw [hs] at hs'
              cases hs'
              rw [hsame, hid'] at hne
              simp at hne

/-- The tables that a map finds are as it needs them. -/
theorem InOrder.allocates (hs : c.session_ = some s) {sid : UInt32} (hd : c.reached sid = some d)
    {bufs : List MapEntry} (hmaps : ServerConnection.Maps c (some (sid, bufs))) :
    (∀ b ∈ bufs, b.address ∉ s.memory) ∧ Allocates (ServerConnection.tables s d) bufs := by
  obtain ⟨hfresh, hall⟩ := hmaps s hs
  exact ⟨hfresh, hall d hd⟩

theorem InOrder.map (h : InOrder c) (hrun : c.isRunning = true)
    {request : Option (UInt32 × List MapEntry)} (hmaps : ServerConnection.Maps c request)
    (hwhole : Orderly c (.map request)) : InOrder (c.map request) := by
  unfold ServerConnection.map
  match request with
  | none => exact h
  | some (sid, bufs) =>
    cases hs : c.session_ with
    | none => exact h
    | some s =>
      dsimp only
      by_cases hlong : mcMapMax < bufs.length
      · rw [if_pos hlong]
        exact h
      rw [if_neg hlong]
      obtain ⟨hdet, hunmaps⟩ := hwhole (by rw [hs]; simp) (by omega)
      unfold ServerConnection.mapWith
      cases hd : c.reached sid with
      | none =>
        dsimp only
        rw [if_neg hdet]
        exact h
      | some d =>
        obtain ⟨-, hall⟩ := InOrder.allocates hs hd hmaps
        obtain ⟨-, -, hholds⟩ := h.reached hrun hs hd
        obtain ⟨hcovered, hsame, hserver⟩ := hholds.covered.map hall hdet
          fun hprep => hunmaps hprep (by rw [hd]; simp)
        apply h.withTables hrun hs hd hsame hcovered
        intro b hb
        rcases hserver b hb with hold | hnew
        · exact h.address s hs b hold
        · obtain ⟨r, hr, hva⟩ := List.mem_map.mp hnew
          rw [← hva]
          exact (hall.address r hr).1

theorem InOrder.unmap (h : InOrder c) (hrun : c.isRunning = true)
    (request : Option (UInt32 × List UnmapEntry)) : InOrder (c.unmap request) := by
  unfold ServerConnection.unmap
  match request with
  | none => exact h
  | some (sid, bufs) =>
    cases hs : c.session_ with
    | none => exact h
    | some s =>
      dsimp only
      by_cases hlong : mcMapMax < bufs.length
      · rw [if_pos hlong]
        exact h
      rw [if_neg hlong]
      cases hd : c.reached sid with
      | none => exact h
      | some d =>
        obtain ⟨-, -, hholds⟩ := h.reached hrun hs hd
        obtain ⟨hcovered, hsame, hserver⟩ := hholds.covered.unmap (h.address s hs) bufs
        exact h.withTables hrun hs hd hsame hcovered fun b hb => h.address s hs b (hserver hb)

/-- How the thread ends: with its driver closed, or with all that the driver has. -/
theorem exitThread_cases (h : InOrder c) (hrun : c.isRunning = true) (interrupted : Bool) :
    (c.session_ = none ∨ c.isConnectionAlive interrupted = false) ∧
        c.exitThread interrupted =
          { c with stage := .ended, device := none, daemon := none } ∨
      ¬ (c.session_ = none ∨ c.isConnectionAlive interrupted = false) ∧
        c.exitThread interrupted = { c with stage := .ended } := by
  obtain ⟨device, hdevice, hlist⟩ := h.running hrun
  have hunreachable : mcDrvErrDaemonUnreachable ≠ mcDrvErrSessionPending := by decide
  have hok : mcDrvOk ≠ mcDrvErrSessionPending := by decide
  unfold ServerConnection.exitThread ServerConnection.driverClose ServerConnection.mcCloseDevice_
  rw [hdevice]
  dsimp only
  by_cases halive : c.isConnectionAlive interrupted = false
  · rw [if_pos halive]
    dsimp only
    rw [if_pos hunreachable]
    exact .inl ⟨.inr halive, rfl⟩
  · rw [if_neg halive]
    by_cases hs : c.session_ = none
    · have hnil : ¬ device.sessionList ≠ [] := by
        rw [hlist, hs]
        exact not_not_intro rfl
      rw [if_neg hnil]
      dsimp only
      rw [if_pos hok]
      exact .inl ⟨.inl hs, rfl⟩
    · have hne : device.sessionList ≠ [] := by
        rw [hlist]
        cases hsession : c.session_ with
        | none => exact absurd hsession hs
        | some s => exact List.cons_ne_nil _ _
      rw [if_pos hne]
      dsimp only
      rw [if_neg (not_not_intro rfl)]
      refine .inr ⟨fun hor => hor.elim hs halive, ?_⟩
      rw [← hdevice]

theorem InOrder.gone (h : InOrder c) (stage : Stage) (hstage : stage ≠ .running) :
    InOrder { c with stage := stage, device := none, daemon := none } := by
  refine ⟨h.determinate, fun _ => ⟨rfl, rfl⟩, fun hrun => ?_, nofun, h.address⟩
  exact absurd (of_decide_eq_true hrun) hstage

/-- **Step lemma.** An orderly step keeps a connection in order. -/
theorem InOrder.step (h : InOrder c) {a : ServerConnection.Action} {c' : ServerConnection}
    (ht : c.step a = some c') (horderly : Orderly c a) : InOrder c' := by
  cases a with
  | openSession request answers =>
    obtain ⟨⟨hserves, -⟩, ⟨⟩⟩ := Option.ite_none_right_eq_some.mp ht
    exact h.openWith (isRunning_of_serves hserves) horderly
  | openTrustlet request answers =>
    obtain ⟨⟨hserves, -⟩, ⟨⟩⟩ := Option.ite_none_right_eq_some.mp ht
    exact h.openWith (isRunning_of_serves hserves) horderly
  | closeSession request closes =>
    obtain ⟨hserves, ⟨⟩⟩ := Option.ite_none_right_eq_some.mp ht
    exact h.closeSession (isRunning_of_serves hserves) request closes
  | map request =>
    obtain ⟨⟨hserves, hmaps⟩, ⟨⟩⟩ := Option.ite_none_right_eq_some.mp ht
    exact h.map (isRunning_of_serves hserves) hmaps horderly
  | unmap request =>
    obtain ⟨hserves, ⟨⟩⟩ := Option.ite_none_right_eq_some.mp ht
    exact h.unmap (isRunning_of_serves hserves) request
  | otherRequest =>
    obtain ⟨-, ⟨⟩⟩ := Option.ite_none_right_eq_some.mp ht
    exact h
  | daemonGone =>
    cases ht
    exact ⟨h.determinate, fun hend => ⟨(h.ended hend).1, rfl⟩, h.running, nofun, h.address⟩
  | deviceInvalid =>
    obtain ⟨⟨hrun, -⟩, ⟨⟩⟩ := Option.ite_none_right_eq_some.mp ht
    obtain ⟨device, hdevice, hlist⟩ := h.running hrun
    refine ⟨h.determinate, fun hend => absurd (hrun.symm.trans hend) (by simp),
      fun _ => ⟨_, congrArg (Option.map _) hdevice, hlist⟩, h.held, h.address⟩
  | exitThread interrupted =>
    obtain ⟨hrun, ⟨⟩⟩ := Option.ite_none_right_eq_some.mp ht
    rcases exitThread_cases h hrun interrupted with ⟨-, heq⟩ | ⟨hnot, -⟩
    · rw [heq]
      exact h.gone .ended (by decide)
    · exact absurd horderly hnot
  | deleteSession =>
    obtain ⟨hstage, ⟨⟩⟩ := Option.ite_none_right_eq_some.mp ht
    -- the thread has ended, and it has taken the daemon's sessions along
    have hend : c.isRunning = false := by
      unfold ServerConnection.isRunning
      rw [hstage]
      rfl
    obtain ⟨hdevice, hdaemon⟩ := h.ended hend
    refine ⟨h.determinate, fun _ => ⟨hdevice, hdaemon⟩, nofun, fun d hd => ?_, nofun⟩
    have hd' : d ∈ c.daemon.getD [] := hd
    rw [hdaemon] at hd'
    cases hd'
  | deleteDriver =>
    obtain ⟨-, ⟨⟩⟩ := Option.ite_none_right_eq_some.mp ht
    exact h.gone .deleted (by decide)

/-! ## Steps that leave something -/

theorem opensWhole_of_leavesNothing {o : ServerConnection.Opening}
    {a : ServerConnection.OpenAnswers} (hleaves : LeavesNothing (c.openWith o a)) :
    OpensWhole c o a := by
  intro hnone
  obtain ⟨hgood, -, hmemory⟩ := hleaves
  unfold ServerConnection.openWith at hgood hmemory
  rw [if_neg (by simp [hnone])] at hgood hmemory
  refine ⟨?_, ?_⟩
  · rintro rfl
    cases hgood
  · rintro rfl hconnects
    dsimp only at hmemory
    cases hdaemon : c.daemon with
    | none => exact .inl rfl
    | some sessions =>
      cases hid : a.session with
      | none => exact .inr rfl
      | some id =>
        rw [hdaemon, hid] at hmemory
        dsimp only at hmemory
        rw [if_neg (by simp [hconnects])] at hmemory
        -- the TCI of the new session has been given back
        have hin : (⟨id, some a.address, []⟩ : DaemonSession) ∈
            sessions ++ [⟨id, some a.address, []⟩] :=
          List.mem_append_right _ List.mem_cons_self
        obtain ⟨s, hs, -⟩ := hmemory _ hin a.address List.mem_cons_self
        rw [show c.session_ = some s from hs] at hnone
        cases hnone

theorem InOrder.unmaps_of_leavesNothing (h : InOrder c) (hrun : c.isRunning = true)
    (hs : c.session_ = some s) {sid : UInt32} {bufs : List MapEntry}
    (hmaps : ServerConnection.Maps c (some (sid, bufs))) (hd : c.reached sid = some d)
    (hprep : prepare bufs = .buffers) (hleaves : LeavesNothing (c.mapWith s sid bufs)) :
    Unmaps bufs := by
  intro pre b post hsplit hall hb a hain
  obtain ⟨hfresh, hallocates⟩ := InOrder.allocates hs hd hmaps
  obtain ⟨hmem, hid, hholds⟩ := h.reached hrun hs hd
  obtain ⟨driver, isOpen, heq, hdriver⟩ :=
    hholds.covered.failed_driver hallocates hprep hsplit hall hb
  have hdist := hholds.covered.distinct_granted hallocates
    (hsplit ▸ List.sublist_append_left _ _) hall
  rcases hdriver with ⟨rfl, -⟩ | hdriver
  · cases hain
  apply unwinds_of_subset (b := b.buf) hdist ?_ a.buf (List.mem_map.mpr ⟨a, hain, rfl⟩)
  intro m hm
  -- what is left belongs to the session of the server, so it is not one of the new buffers
  have hleft := (mcUnmap_sublist _).subset hm
  rcases List.mem_append.mp hleft with hold | hnew
  · exact hold
  · exfalso
    obtain ⟨g, hg, rfl⟩ := List.mem_map.mp hnew
    obtain ⟨r, hr, rfl⟩ := List.mem_map.mp (List.mem_of_mem_filter hg)
    have hrin : r ∈ bufs := by
      rw [hsplit]
      exact List.mem_append_left _ hr
    obtain ⟨-, -, hmemory⟩ := hleaves
    unfold ServerConnection.mapWith at hmemory
    rw [hd] at hmemory
    dsimp only at hmemory
    rw [heq] at hmemory
    have hopen : ({ d with bufs := driver } : DaemonSession) ∈ (c.withTables s d
        { ServerConnection.tables s d with driver := driver, isOpen := isOpen }).openSessions := by
      show _ ∈ (c.daemon.map _).getD []
      have hmem' : d ∈ c.daemon.getD [] := hmem
      cases hdaemon : c.daemon with
      | none =>
        rw [hdaemon] at hmem'
        cases hmem'
      | some sessions =>
        rw [hdaemon] at hmem'
        exact List.mem_map.mpr ⟨d, hmem', if_pos rfl⟩
    have hmapped : r.address ∈ ({ d with bufs := driver } : DaemonSession).memory := by
      refine List.mem_append_right _ (List.mem_map.mpr ⟨r.buf.granted, ?_, rfl⟩)
      rw [hdriver]
      exact hm
    obtain ⟨s', hs', hin⟩ := hmemory _ hopen _ hmapped
    cases hs'
    exact hfresh r hrin hin

/-- **Converse of the step lemma.** A step that is not orderly leaves something. -/
theorem InOrder.orderly (h : InOrder c) {a : ServerConnection.Action} {c' : ServerConnection}
    (ht : c.step a = some c') (hleaves : LeavesNothing c') : Orderly c a := by
  match a with
  | .openSession request answers =>
    obtain ⟨-, ⟨⟩⟩ := Option.ite_none_right_eq_some.mp ht
    exact opensWhole_of_leavesNothing hleaves
  | .openTrustlet request answers =>
    obtain ⟨-, ⟨⟩⟩ := Option.ite_none_right_eq_some.mp ht
    exact opensWhole_of_leavesNothing hleaves
  | .map none => trivial
  | .map (some (sid, bufs)) =>
    obtain ⟨⟨hserves, hmaps⟩, ⟨⟩⟩ := Option.ite_none_right_eq_some.mp ht
    intro hsome hshort
    obtain ⟨s, hs⟩ := Option.ne_none_iff_exists'.mp hsome
    have hmap : c.map (some (sid, bufs)) = c.mapWith s sid bufs := by
      unfold ServerConnection.map
      rw [hs]
      exact if_neg (by omega)
    rw [hmap] at hleaves
    refine ⟨fun hprep => ?_, fun hprep hreached => ?_⟩
    · have hgood := hleaves.1
      unfold ServerConnection.mapWith at hgood
      cases hd : c.reached sid with
      | none =>
        rw [hd] at hgood
        dsimp only at hgood
        rw [if_pos hprep] at hgood
        cases hgood
      | some d =>
        rw [hd] at hgood
        have hbad : (serverMap (ServerConnection.tables s d) bufs).2.indeterminate = true := by
          unfold serverMap
          rw [hprep]
        exact absurd (hbad.symm.trans hgood) (by simp)
    · obtain ⟨d, hd⟩ := Option.ne_none_iff_exists'.mp hreached
      exact h.unmaps_of_leavesNothing (isRunning_of_serves hserves) hs hmaps hd hprep hleaves
  | .exitThread interrupted =>
    obtain ⟨hrun, ⟨⟩⟩ := Option.ite_none_right_eq_some.mp ht
    rcases exitThread_cases h hrun interrupted with ⟨hclosed, -⟩ | ⟨-, heq⟩
    · exact hclosed
    · -- the driver is still open
      rw [heq] at hleaves
      obtain ⟨device, hdevice, -⟩ := h.running hrun
      have hgone : c.device = none := (hleaves.2.1 rfl).1
      rw [hdevice] at hgone
      cases hgone
  | .closeSession _ _ | .unmap _ | .otherRequest | .daemonGone | .deviceInvalid | .deleteSession
  | .deleteDriver => trivial

end InOrder

/-! ## Runs -/

end McDaemon.Proxy
