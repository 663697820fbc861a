/-
# McDaemon.Daemon.NetlinkCleanup — dropping the connections of processes that are gone.

The clean-up goes through the map from the greatest key to the smallest.  After each removal it
starts again from the back, and then the increment of the loop steps over the greatest key that is
left.  Where that one is of a process that is gone, nobody comes back to it.  The driver may delete
other connections when it hears of one, and with them their entries.
-/
import Mathlib.Data.List.Nodup
import McDaemon.Daemon.NetlinkServer

namespace McDaemon.Daemon

open McDaemon.Lib

namespace NetlinkState

/-! ## What is reported -/

/-- The connections that the loop of `cleanupConnections` reports to `dropConnection`, in order. -/
def reportedRounds (env : Surrounding) : Nat → Nat → NetlinkState → List Nat
  | 0, _, _ => []
  | n + 1, k, s =>
    match (s.peerConnections.reverse.drop k).find? (fun e => s.dead env e.2) with
    | none => []
    | some e =>
      let s := s.reap env e.2
      e.2 :: if s.peerConnections = [] then [] else reportedRounds env n 1 s

/-- The connections that `cleanupConnections` reports to `dropConnection`. -/
def reported (s : NetlinkState) (env : Surrounding) : List Nat :=
  reportedRounds env s.peerConnections.length 0 s

/-- The driver deletes a connection with this key when it hears of `p`. -/
def Strikes (s : NetlinkState) (env : Surrounding) (p : Nat) (hash : UInt64) : Prop :=
  ∃ q ∈ env.drops p, ∃ c, s.connections.get? q = some c ∧ c.detached = true ∧ c.hash = hash

/-- `t` is `s` without some of the entries and connections; with a connection its entry is gone. -/
structure Within (t s : NetlinkState) : Prop where
  entries : t.peerConnections.Sublist s.peerConnections
  connections : ∀ p c, t.connections.get? p = some c → s.connections.get? p = some c
  gone : ∀ p c, s.connections.get? p = some c →
    t.connections.get? p = some c ∨ ∀ e ∈ t.peerConnections, e.1 ≠ c.hash

end NetlinkState

open NetlinkState

/-- The connections of processes that are gone are dropped, each is reported once, and the others
stay. -/
structure CleansUp (s : NetlinkState) (env : Surrounding) : Prop where
  dropped : ∀ e ∈ (s.cleanupConnections env).peerConnections,
    (s.cleanupConnections env).dead env e.2 = false
  reported : ∀ e ∈ s.peerConnections, e ∉ (s.cleanupConnections env).peerConnections →
    (s.reported env).count e.2 = 1
  kept : ∀ e ∈ s.peerConnections, s.dead env e.2 = false →
    e ∈ (s.cleanupConnections env).peerConnections

/-- The processes of the two greatest keys are not both gone, and what the driver deletes has been
reported before. -/
structure CleanupReaches (s : NetlinkState) (env : Surrounding) : Prop where
  greatest : ∀ e d es, s.peerConnections.reverse = e :: d :: es → s.dead env e.2 = true →
    s.dead env d.2 = false
  deletions : ∀ e ∈ s.peerConnections, s.dead env e.2 = true → ∀ d ∈ s.peerConnections,
    s.Strikes env e.2 d.1 → s.dead env d.2 = true ∧ e.1 ≤ d.1

/-! ## Taking away -/

section Within

variable {s t u : NetlinkState} {env : Surrounding}

theorem NetlinkState.Within.refl (s : NetlinkState) : Within s s :=
  ⟨List.Sublist.refl _, fun _ _ h => h, fun _ _ h => .inl h⟩

theorem NetlinkState.Within.trans (htu : Within u t) (hst : Within t s) : Within u s where
  entries := htu.entries.trans hst.entries
  connections := fun p c h => hst.connections p c (htu.connections p c h)
  gone := by
    intro p c hp
    rcases hst.gone p c hp with ht | ht
    · exact htu.gone p c ht
    · exact .inr fun e he => ht e (htu.entries.subset he)

theorem NetlinkState.within_removeConnection (s : NetlinkState) (hash : UInt64) :
    Within (s.removeConnection hash) s :=
  ⟨List.filter_sublist, fun _ _ h => h, fun _ _ h => .inl h⟩

theorem NetlinkState.within_delete (s : NetlinkState) (p : Nat) : Within (s.delete p) s := by
  unfold delete
  cases hp : s.connections.get? p with
  | none => exact .refl s
  | some c =>
    refine ⟨List.filter_sublist, fun q d hq => ?_, fun q d hq => ?_⟩
    · rw [PtrList.get?_remove] at hq
      split at hq
      · cases hq
      · exact hq
    · show (s.connections.remove p).get? q = some d ∨ _
      rw [PtrList.get?_remove]
      by_cases hqp : q = p
      · rw [hqp, hp] at hq
        obtain rfl := Option.some.inj hq
        refine .inr fun e he => ?_
        exact of_decide_eq_true (List.mem_filter.mp he).2
      · rw [if_neg hqp]
        exact .inl hq

theorem NetlinkState.within_deleteDetached (s : NetlinkState) (p : Nat) :
    Within (s.deleteDetached p) s := by
  unfold deleteDetached
  split
  · exact .refl s
  split
  · exact s.within_delete p
  · exact .refl s

theorem NetlinkState.within_deleteAll (s : NetlinkState) (ps : List Nat) :
    Within (ps.foldl deleteDetached s) s := by
  induction ps generalizing s with
  | nil => exact .refl s
  | cons p ps ih => exact (ih (s.deleteDetached p)).trans (s.within_deleteDetached p)

theorem NetlinkState.within_reap (s : NetlinkState) (p : Nat) : Within (s.reap env p) s := by
  unfold reap
  split
  · exact .refl s
  · next c _ =>
    have hdropped := (within_removeConnection (s.dropConnection env p) c.hash).trans
      (s.within_deleteAll (env.drops p))
    dsimp only
    split
    · exact hdropped
    · exact (within_delete _ p).trans hdropped

/-- What the driver deletes takes its entries off the map, and nothing else does. -/
theorem NetlinkState.mem_deleteAll {ps : List Nat} {e : UInt64 × Nat} :
    e ∈ (ps.foldl deleteDetached s).peerConnections ↔ e ∈ s.peerConnections ∧
      ∀ q ∈ ps, ∀ c, s.connections.get? q = some c → c.detached = true → c.hash ≠ e.1 := by
  induction ps generalizing s with
  | nil => simp
  | cons p ps ih =>
    show e ∈ (ps.foldl deleteDetached (s.deleteDetached p)).peerConnections ↔ _
    rw [ih, List.forall_mem_cons]
    cases hp : s.connections.get? p with
    | none =>
      have hsame : s.deleteDetached p = s := by rw [deleteDetached, hp]
      simp [hsame]
    | some c =>
      cases hdetached : c.detached with
      | false =>
        have hsame : s.deleteDetached p = s := by
          rw [deleteDetached, hp]
          exact if_neg (by simp [hdetached])
        simp [hsame, hdetached]
      | true =>
        have hdel : s.deleteDetached p =
            { s.removeConnection c.hash with connections := s.connections.remove p } := by
          rw [deleteDetached, hp]
          show (if c.detached then s.delete p else s) = _
          rw [if_pos hdetached, delete, hp]
        rw [hdel]
        constructor
        · rintro ⟨he, hrest⟩
          obtain ⟨hmem, hne⟩ := List.mem_filter.mp he
          have hkey : c.hash ≠ e.1 := fun h => of_decide_eq_true hne h.symm
          refine ⟨hmem, fun d hd _ => Option.some.inj hd ▸ hkey, fun q hq d hd hdet => ?_⟩
          by_cases hqp : q = p
          · rw [hqp, hp] at hd
            exact Option.some.inj hd ▸ hkey
          · refine hrest q hq d ?_ hdet
            show (s.connections.remove p).get? q = some d
            rw [PtrList.get?_remove, if_neg hqp, hd]
        · rintro ⟨hmem, hown, hrest⟩
          refine ⟨List.mem_filter.mpr ⟨hmem, ?_⟩, fun q hq d hd hdet => ?_⟩
          · exact decide_eq_true fun h => hown c rfl hdetached h.symm
          · have hd' : (s.connections.remove p).get? q = some d := hd
            rw [PtrList.get?_remove] at hd'
            split at hd'
            · cases hd'
            · exact hrest q hq d hd' hdet

/-- **One clean-up.** It takes the connection's own entry off the map, and those of the connections
that the driver deletes. -/
theorem Keyed.mem_reap (hs : Keyed s) {e d : UInt64 × Nat} (he : e ∈ s.peerConnections) :
    d ∈ (s.reap env e.2).peerConnections ↔
      d ∈ s.peerConnections ∧ d.1 ≠ e.1 ∧ ¬ s.Strikes env e.2 d.1 := by
  obtain ⟨c, hc, hkey⟩ := hs.entries e he
  have hdropped : d ∈ ((s.dropConnection env e.2).removeConnection c.hash).peerConnections ↔
      d ∈ s.peerConnections ∧ d.1 ≠ e.1 ∧ ¬ s.Strikes env e.2 d.1 := by
    rw [hkey]
    show d ∈ List.filter _ _ ↔ _
    rw [List.mem_filter, decide_eq_true_iff]
    show d ∈ ((env.drops e.2).foldl NetlinkState.deleteDetached s).peerConnections ∧ d.1 ≠ e.1 ↔ _
    rw [mem_deleteAll]
    unfold Strikes
    constructor
    · rintro ⟨⟨hmem, hall⟩, hne⟩
      refine ⟨hmem, hne, ?_⟩
      rintro ⟨q, hq, b, hb, hdet, hhash⟩
      exact hall q hq b hb hdet hhash
    · rintro ⟨hmem, hne, hnot⟩
      exact ⟨⟨hmem, fun q hq b hb hdet hhash => hnot ⟨q, hq, b, hb, hdet, hhash⟩⟩, hne⟩
  unfold NetlinkState.reap
  rw [hc]
  dsimp only
  split
  · exact hdropped
  · rw [← hdropped]
    -- the destructor looks for the same key again
    constructor
    · intro h
      exact (within_delete _ e.2).entries.subset h
    · intro h
      unfold NetlinkState.delete
      split
      · exact h
      · next b hb =>
        refine List.mem_filter.mpr ⟨h, decide_eq_true ?_⟩
        have hsame := ((within_removeConnection _ c.hash).trans
          (s.within_deleteAll (env.drops e.2))).connections e.2 b hb
        obtain rfl : c = b := Option.some.inj (hc.symm.trans hsame)
        exact of_decide_eq_true (List.mem_filter.mp h).2

theorem NetlinkState.Within.strikes (h : Within t s) {p : Nat} {hash : UInt64}
    (hstrikes : t.Strikes env p hash) : s.Strikes env p hash := by
  obtain ⟨q, hq, c, hc, hrest⟩ := hstrikes
  exact ⟨q, hq, c, h.connections q c hc, hrest⟩

/-- A key that is still in the map can still be struck. -/
theorem NetlinkState.Within.strikes_of_mem (h : Within t s) {p : Nat} {e : UInt64 × Nat}
    (hstrikes : s.Strikes env p e.1) (he : e ∈ t.peerConnections) : t.Strikes env p e.1 := by
  obtain ⟨q, hq, c, hc, hdetached, hhash⟩ := hstrikes
  rcases h.gone q c hc with ht | hnone
  · exact ⟨q, hq, c, ht, hdetached, hhash⟩
  · exact absurd hhash.symm (hnone e he)

/-- A connection that still has an entry is as it was. -/
theorem NetlinkState.Within.dead_eq (h : Within t s) (ht : Keyed t) {e : UInt64 × Nat}
    (he : e ∈ t.peerConnections) : t.dead env e.2 = s.dead env e.2 := by
  obtain ⟨c, hc, -⟩ := ht.entries e he
  unfold dead
  rw [hc, h.connections e.2 c hc]

/-- An entry is known by its connection. -/
theorem Keyed.entry_inj (hs : Keyed s) {e d : UInt64 × Nat} (he : e ∈ s.peerConnections)
    (hd : d ∈ s.peerConnections) (h : e.2 = d.2) : e = d := by
  obtain ⟨c, hc, hkey⟩ := hs.entries e he
  obtain ⟨b, hb, hkey'⟩ := hs.entries d hd
  rw [h, hb] at hc
  obtain rfl := Option.some.inj hc
  exact Prod.ext (hkey.symm.trans hkey') h

end Within

/-! ## One round -/

section Rounds

variable {s t u : NetlinkState} {env : Surrounding} {n k : Nat}

/-- The rounds clean up what they report, in this order. -/
theorem NetlinkState.cleanupRounds_eq (env : Surrounding) (n k : Nat) (s : NetlinkState) :
    cleanupRounds env n k s = (reportedRounds env n k s).foldl (fun s p => s.reap env p) s := by
  induction n generalizing k s with
  | zero => rfl
  | succ n ih =>
    rw [cleanupRounds, reportedRounds]
    cases (s.peerConnections.reverse.drop k).find? (fun e => s.dead env e.2) with
    | none => rfl
    | some e =>
      dsimp only
      rw [List.foldl_cons]
      split
      · rfl
      · exact ih 1 _

theorem NetlinkState.within_cleanupRounds (n k : Nat) (s : NetlinkState) :
    Within (cleanupRounds env n k s) s := by
  rw [cleanupRounds_eq]
  generalize reportedRounds env n k s = ps
  induction ps generalizing s with
  | nil => exact .refl s
  | cons p ps ih => exact (ih (s.reap env p)).trans (s.within_reap p)

/-- From the back of the map the keys get smaller. -/
theorem Keyed.sorted_reverse (hs : Keyed s) :
    s.peerConnections.reverse.Pairwise fun e d => d.1 < e.1 :=
  List.pairwise_reverse.mpr hs.sorted

theorem nodup_of_descending {es : List (UInt64 × Nat)}
    (h : es.Pairwise fun e d => d.1 < e.1) : es.Nodup := by
  refine h.imp ?_
  rintro e d hlt rfl
  exact UInt64.lt_irrefl _ hlt

/-- **One round** finds an entry of a process that is gone, and none in front of it but those that
it has stepped over. -/
theorem find?_dead {e : UInt64 × Nat}
    (h : (s.peerConnections.reverse.drop k).find? (fun e => s.dead env e.2) = some e) :
    s.dead env e.2 = true ∧ ∃ as bs, s.peerConnections.reverse =
      s.peerConnections.reverse.take k ++ as ++ e :: bs ∧ ∀ a ∈ as, s.dead env a.2 = false := by
  obtain ⟨hdead, as, bs, hsplit, has⟩ := List.find?_eq_some_iff_append.mp h
  refine ⟨hdead, as, bs, ?_, fun a ha => ?_⟩
  · rw [List.append_assoc, ← hsplit, List.take_append_drop]
  · simpa using has a ha

theorem mem_of_find?_dead {e : UInt64 × Nat}
    (h : (s.peerConnections.reverse.drop k).find? (fun e => s.dead env e.2) = some e) :
    e ∈ s.peerConnections :=
  List.mem_reverse.mp (List.mem_of_mem_drop (List.mem_of_find?_eq_some h))

/-- What rounds report that step over the greatest key. -/
theorem Keyed.of_mem_reportedRounds (hs : Keyed s) {p : Nat}
    (hp : p ∈ reportedRounds env n 1 s) :
    ∃ e ∈ s.peerConnections, e.2 = p ∧ s.dead env p = true ∧
      ∃ g ∈ s.peerConnections, e.1 < g.1 := by
  induction n generalizing s with
  | zero => cases hp
  | succ n ih =>
    rw [reportedRounds] at hp
    cases hfind : (s.peerConnections.reverse.drop 1).find? (fun e => s.dead env e.2) with
    | none =>
      rw [hfind] at hp
      cases hp
    | some f =>
      rw [hfind] at hp
      rcases List.mem_cons.mp hp with rfl | hp
      · refine ⟨f, mem_of_find?_dead hfind, rfl, (find?_dead hfind).1, ?_⟩
        have hf := List.mem_of_find?_eq_some hfind
        have hsorted := hs.sorted_reverse
        cases hmap : s.peerConnections.reverse with
        | nil =>
          rw [hmap] at hf
          cases hf
        | cons g gs =>
          rw [hmap] at hf hsorted
          refine ⟨g, List.mem_reverse.mp (by rw [hmap]; exact List.mem_cons_self), ?_⟩
          exact (List.pairwise_cons.mp hsorted).1 f hf
      · split at hp
        · cases hp
        have hwithin : Within (s.reap env f.2) s := s.within_reap f.2
        obtain ⟨e, he, rfl, hdead, g, hg, hlt⟩ := ih (hs.reap f.2) hp
        refine ⟨e, hwithin.entries.subset he, rfl, ?_, g, hwithin.entries.subset hg, hlt⟩
        rwa [← hwithin.dead_eq (hs.reap f.2) he]

/-- **The keys reported get smaller.** What the rounds behind the first one report comes behind it
in the map. -/
theorem Keyed.lt_of_mem_later (hs : Keyed s) (hk : k ≤ 1) {f : UInt64 × Nat}
    (hfind : (s.peerConnections.reverse.drop k).find? (fun e => s.dead env e.2) = some f) {p : Nat}
    (hp : p ∈ reportedRounds env n 1 (s.reap env f.2)) :
    ∃ e ∈ (s.reap env f.2).peerConnections, e.2 = p ∧ e.1 < f.1 := by
  have hwithin : Within (s.reap env f.2) s := s.within_reap f.2
  have hf := mem_of_find?_dead hfind
  obtain ⟨-, as, bs, hsplit, has⟩ := find?_dead hfind
  have hreap : Keyed (s.reap env f.2) := hs.reap f.2
  obtain ⟨e, he, rfl, hdead, g, hg, hlt⟩ := hreap.of_mem_reportedRounds hp
  refine ⟨e, he, rfl, ?_⟩
  rw [hwithin.dead_eq hreap he] at hdead
  have hne : e ≠ f := by
    rintro rfl
    exact ((hs.mem_reap hf).mp he).2.1 rfl
  have hsorted := hs.sorted_reverse
  have hmem : e ∈ s.peerConnections.reverse := List.mem_reverse.mpr (hwithin.entries.subset he)
  rw [hsplit] at hmem hsorted
  rcases List.mem_append.mp hmem with hfront | hback
  · exfalso
    rcases List.mem_append.mp hfront with htake | has'
    · -- the entry that is stepped over has the greatest key
      have hgmem : g ∈ s.peerConnections.reverse := List.mem_reverse.mpr (hwithin.entries.subset hg)
      have hsorted' := hs.sorted_reverse
      cases hmap : s.peerConnections.reverse with
      | nil =>
        rw [hmap] at hgmem
        cases hgmem
      | cons x xs =>
        rw [hmap] at htake hgmem hsorted'
        have hex : e = x := by
          have htake1 := List.take_subset_take_left (x :: xs) hk htake
          simpa using htake1
        rcases List.mem_cons.mp hgmem with rfl | hgxs
        · rw [hex] at hlt
          exact UInt64.lt_irrefl _ hlt
        · have hgx := (List.pairwise_cons.mp hsorted').1 g hgxs
          rw [hex] at hlt
          exact UInt64.lt_asymm hgx hlt
    · rw [has e has'] at hdead
      cases hdead
  · obtain ⟨-, hpair, -⟩ := List.pairwise_append.mp hsorted
    rcases List.mem_cons.mp hback with heq | hbs
    · exact absurd heq hne
    · exact (List.pairwise_cons.mp hpair).1 e hbs

end Rounds

/-! ## Where the rounds reach everything -/

section Reach

variable {s : NetlinkState} {env : Surrounding} {n k : Nat}

/-- A round whose connection takes no other one along. -/
theorem Keyed.reverse_reap (hs : Keyed s) {e : UInt64 × Nat} {as bs : List (UInt64 × Nat)}
    (hsplit : s.peerConnections.reverse = as ++ e :: bs)
    (halone : ∀ d ∈ s.peerConnections, s.Strikes env e.2 d.1 → d.1 = e.1) :
    (s.reap env e.2).peerConnections.reverse = as ++ bs := by
  have hsorted := hs.sorted_reverse
  have he : e ∈ s.peerConnections := List.mem_reverse.mp (by rw [hsplit]; simp)
  have hkeyed : Keyed (s.reap env e.2) := hs.reap e.2
  have hleft := hkeyed.sorted_reverse
  have hright : (as ++ bs).Pairwise fun a b => b.1 < a.1 := by
    refine hsorted.sublist ?_
    rw [hsplit]
    exact (List.Sublist.refl as).append (List.sublist_cons_self e bs)
  refine List.Perm.eq_of_pairwise (fun a b _ _ hab hba => absurd hab (UInt64.lt_asymm hba))
    hleft hright ((List.perm_ext_iff_of_nodup (nodup_of_descending hleft)
      (nodup_of_descending hright)).mpr fun x => ?_)
  rw [List.mem_reverse, hs.mem_reap he, List.mem_append]
  rw [hsplit, List.pairwise_append, List.pairwise_cons] at hsorted
  obtain ⟨-, ⟨hbs, -⟩, has⟩ := hsorted
  have hx : x ∈ s.peerConnections ↔ x ∈ as ∨ x = e ∨ x ∈ bs := by
    rw [← List.mem_reverse, hsplit, List.mem_append, List.mem_cons]
  rw [hx]
  constructor
  · rintro ⟨hxa | rfl | hxb, hne, -⟩
    · exact .inl hxa
    · exact absurd rfl hne
    · exact .inr hxb
  · intro h
    have hkey : x.1 ≠ e.1 := by
      rcases h with hxa | hxb
      · exact (UInt64.ne_of_lt (has x hxa e List.mem_cons_self)).symm
      · exact UInt64.ne_of_lt (hbs x hxb)
    have hmem : x ∈ as ∨ x = e ∨ x ∈ bs := h.imp_right .inr
    exact ⟨hmem, hkey, fun hstrikes => hkey (halone x (hx.mpr hmem) hstrikes)⟩

/-- A round splits the map at the entry that it finds; nothing in front of that is of a process that
is gone. -/
theorem split_of_find? {f : UInt64 × Nat} (hk : k ≤ 1)
    (hfind : (s.peerConnections.reverse.drop k).find? (fun e => s.dead env e.2) = some f)
    (hover : ∀ e ∈ s.peerConnections.reverse.take k, s.dead env e.2 = false) :
    ∃ front bs, s.peerConnections.reverse = front ++ f :: bs ∧
      (∀ a ∈ front, s.dead env a.2 = false) ∧ (front = [] → k = 0) := by
  obtain ⟨-, as, bs, hsplit, has⟩ := find?_dead hfind
  refine ⟨_, bs, hsplit, fun a ha => ?_, fun hnil => ?_⟩
  · exact (List.mem_append.mp ha).elim (hover a) (has a)
  · by_contra hk0
    have hk1 : k = 1 := by omega
    rw [hk1] at hnil hsplit
    rw [hnil] at hsplit
    rw [hsplit] at hnil
    cases hnil

/-- A connection that strikes none in front of its own entry is the only one that goes. -/
theorem Keyed.reverse_reap_found (hs : Keyed s) {f : UInt64 × Nat} {front bs : List (UInt64 × Nat)}
    (hsplit : s.peerConnections.reverse = front ++ f :: bs)
    (hlive : ∀ a ∈ front, s.dead env a.2 = false)
    (hdel : ∀ d ∈ s.peerConnections, s.Strikes env f.2 d.1 →
      s.dead env d.2 = true ∧ f.1 ≤ d.1) :
    (s.reap env f.2).peerConnections.reverse = front ++ bs := by
  have hsorted := hs.sorted_reverse
  refine hs.reverse_reap hsplit fun d hd hstrikes => ?_
  obtain ⟨hdead, hle⟩ := hdel d hd hstrikes
  rw [← List.mem_reverse, hsplit, List.mem_append, List.mem_cons] at hd
  rw [hsplit, List.pairwise_append, List.pairwise_cons] at hsorted
  rcases hd with hd | rfl | hd
  · rw [hlive d hd] at hdead
    cases hdead
  · rfl
  · exact absurd (hsorted.2.1.1 d hd) (UInt64.not_lt.mpr hle)

/-- What the next round steps over is of a process that lives. -/
theorem live_over_next {f : UInt64 × Nat} {front bs : List (UInt64 × Nat)}
    (hsplit : s.peerConnections.reverse = front ++ f :: bs) (hdead : s.dead env f.2 = true)
    (hlive : ∀ a ∈ front, s.dead env a.2 = false) (hfront : front = [] → k = 0)
    (hgreatest : k = 0 → ∀ e d es, s.peerConnections.reverse = e :: d :: es →
      s.dead env e.2 = true → s.dead env d.2 = false) :
    ∀ e ∈ (front ++ bs).take 1, s.dead env e.2 = false := by
  intro e he
  cases front with
  | cons x xs =>
    obtain rfl : e = x := by simpa using he
    exact hlive e List.mem_cons_self
  | nil =>
    -- the first round has found the greatest key, so the next one is stepped over
    cases bs with
    | nil => cases he
    | cons b bs =>
      obtain rfl : e = b := by simpa using he
      exact hgreatest (hfront rfl) f e bs hsplit hdead

/-- **All rounds.** If the entry stepped over is of a process that lives, and stays so, the rounds
report the connections of all processes that are gone, and leave the others. -/
theorem Keyed.cleanupRounds_spec (hs : Keyed s) (hn : s.peerConnections.length ≤ n)
    (hk : k ≤ 1) (hover : ∀ e ∈ s.peerConnections.reverse.take k, s.dead env e.2 = false)
    (hgreatest : k = 0 → ∀ e d es, s.peerConnections.reverse = e :: d :: es →
      s.dead env e.2 = true → s.dead env d.2 = false)
    (hdel : ∀ e ∈ s.peerConnections, s.dead env e.2 = true → ∀ d ∈ s.peerConnections,
      s.Strikes env e.2 d.1 → s.dead env d.2 = true ∧ e.1 ≤ d.1) :
    (NetlinkState.cleanupRounds env n k s).peerConnections.reverse =
        s.peerConnections.reverse.filter (fun e => !s.dead env e.2) ∧
      reportedRounds env n k s =
        (s.peerConnections.reverse.filter fun e => s.dead env e.2).map Prod.snd := by
  induction n generalizing k s with
  | zero =>
    have hnil : s.peerConnections = [] := List.length_eq_zero_iff.mp (Nat.le_zero.mp hn)
    simp [NetlinkState.cleanupRounds, reportedRounds, hnil]
  | succ n ih =>
    rw [NetlinkState.cleanupRounds, reportedRounds]
    cases hfind : (s.peerConnections.reverse.drop k).find? (fun e => s.dead env e.2) with
    | none =>
      have hlive : ∀ e ∈ s.peerConnections.reverse, s.dead env e.2 = false := by
        intro e he
        rw [← List.take_append_drop k s.peerConnections.reverse, List.mem_append] at he
        rcases he with he | he
        · exact hover e he
        · simpa using List.find?_eq_none.mp hfind e he
      constructor
      · exact (List.filter_eq_self.mpr fun e he => by rw [hlive e he]; rfl).symm
      · rw [List.filter_eq_nil_iff.mpr fun e he => by rw [hlive e he]; exact Bool.false_ne_true]
        rfl
    | some f =>
      dsimp only
      have hdead : s.dead env f.2 = true := (find?_dead hfind).1
      have hf := mem_of_find?_dead hfind
      -- the round takes `f` out and nothing else, so the next ones go through a shorter map
      obtain ⟨front, bs, hsplit, hlive, hfront⟩ := split_of_find? hk hfind hover
      have hreap := hs.reverse_reap_found hsplit hlive (hdel f hf hdead)
      have hkeyed : Keyed (s.reap env f.2) := hs.reap f.2
      have hwithin : Within (s.reap env f.2) s := s.within_reap f.2
      have hsame : ∀ e ∈ front ++ bs, (s.reap env f.2).dead env e.2 = s.dead env e.2 := by
        intro e he
        rw [← hreap, List.mem_reverse] at he
        exact hwithin.dead_eq hkeyed he
      have hfilter : s.peerConnections.reverse.filter (fun e => !s.dead env e.2) =
          (front ++ bs).filter (fun e => !s.dead env e.2) := by
        rw [hsplit, List.filter_append, List.filter_append,
          List.filter_cons_of_neg (by simp [hdead])]
      have hreported : s.peerConnections.reverse.filter (fun e => s.dead env e.2) =
          f :: (front ++ bs).filter (fun e => s.dead env e.2) := by
        have hnone : front.filter (fun e => s.dead env e.2) = [] :=
          List.filter_eq_nil_iff.mpr fun e he => by rw [hlive e he]; exact Bool.false_ne_true
        rw [hsplit, List.filter_append, List.filter_append, hnone,
          List.filter_cons_of_pos (p := fun e : UInt64 × Nat => s.dead env e.2) hdead,
          List.nil_append, List.nil_append]
      rw [hfilter, hreported, List.map_cons]
      by_cases hempty : (s.reap env f.2).peerConnections = []
      · rw [if_pos hempty, if_pos hempty]
        have hnil : front ++ bs = [] := by rw [← hreap, hempty, List.reverse_nil]
        rw [hnil, hempty]
        exact ⟨rfl, rfl⟩
      · rw [if_neg hempty, if_neg hempty]
        have hshort : (s.reap env f.2).peerConnections.length ≤ n := by
          have hlt : (s.reap env f.2).peerConnections.length < s.peerConnections.length :=
            hs.length_reap hf
          omega
        have hover' : ∀ e ∈ (s.reap env f.2).peerConnections.reverse.take 1,
            (s.reap env f.2).dead env e.2 = false := by
          rw [hreap]
          intro e he
          rw [hsame e (List.mem_of_mem_take he)]
          exact live_over_next hsplit hdead hlive hfront hgreatest e he
        obtain ⟨hmap, hlist⟩ := ih hkeyed hshort (Nat.le_refl 1) hover'
          (fun h => absurd h Nat.one_ne_zero) fun e he hde d hd hstrikes => by
            rw [hwithin.dead_eq hkeyed hd]
            rw [hwithin.dead_eq hkeyed he] at hde
            exact hdel e (hwithin.entries.subset he) hde d (hwithin.entries.subset hd)
              (hwithin.strikes hstrikes)
        rw [hmap, hlist, hreap]
        refine ⟨List.filter_congr fun e he => by rw [hsame e he], ?_⟩
        rw [List.filter_congr fun e he => hsame e he]

theorem CleanupReaches.cleansUp (hs : Keyed s) (h : CleanupReaches s env) : CleansUp s env := by
  obtain ⟨hmap, hlist⟩ := hs.cleanupRounds_spec (n := s.peerConnections.length) (k := 0)
    (Nat.le_refl _) (Nat.zero_le 1) (fun e he => by cases he) (fun _ => h.greatest) h.deletions
  have hmem : ∀ e, e ∈ (s.cleanupConnections env).peerConnections ↔
      e ∈ s.peerConnections ∧ s.dead env e.2 = false := by
    intro e
    have hrev : (s.cleanupConnections env).peerConnections.reverse =
        s.peerConnections.reverse.filter (fun e => !s.dead env e.2) := hmap
    rw [← List.mem_reverse, hrev, List.mem_filter, List.mem_reverse]
    simp
  have hwithin : Within (s.cleanupConnections env) s := within_cleanupRounds _ 0 s
  refine ⟨fun e he => ?_, fun e he hgone => ?_, fun e he hlive => (hmem e).mpr ⟨he, hlive⟩⟩
  · rw [hwithin.dead_eq hs.cleanupConnections he]
    exact ((hmem e).mp he).2
  · have hdead : s.dead env e.2 = true := by
      by_contra hlive
      exact hgone ((hmem e).mpr ⟨he, Bool.eq_false_iff.mpr hlive⟩)
    show (reportedRounds env s.peerConnections.length 0 s).count e.2 = 1
    rw [hlist]
    apply List.count_eq_one_of_mem
    · -- a connection has one entry
      refine List.Nodup.map_on (fun a ha b hb hab => ?_) ?_
      · exact hs.entry_inj (List.mem_reverse.mp (List.mem_of_mem_filter ha))
          (List.mem_reverse.mp (List.mem_of_mem_filter hb)) hab
      · exact (nodup_of_descending hs.sorted_reverse).filter _
    · exact List.mem_map.mpr ⟨e, List.mem_filter.mpr ⟨List.mem_reverse.mpr he, hdead⟩, rfl⟩

end Reach

/-! ## Where they do not -/

section Miss

variable {s : NetlinkState} {env : Surrounding} {n k : Nat} {e d : UInt64 × Nat}

/-- What a reported connection strikes has no entry any more. -/
theorem Keyed.notMem_of_strikes (hs : Keyed s) (hk : k ≤ 1) (he : e ∈ s.peerConnections)
    (hd : d ∈ s.peerConnections) (hstrikes : s.Strikes env e.2 d.1)
    (hrep : e.2 ∈ reportedRounds env n k s) :
    d ∉ (NetlinkState.cleanupRounds env n k s).peerConnections := by
  induction n generalizing k s with
  | zero => cases hrep
  | succ n ih =>
    rw [reportedRounds] at hrep
    rw [NetlinkState.cleanupRounds]
    cases hfind : (s.peerConnections.reverse.drop k).find? (fun e => s.dead env e.2) with
    | none =>
      rw [hfind] at hrep
      cases hrep
    | some f =>
      rw [hfind] at hrep
      dsimp only at hrep ⊢
      have hf := mem_of_find?_dead hfind
      have hwithin : Within (s.reap env f.2) s := s.within_reap f.2
      have hkeyed : Keyed (s.reap env f.2) := hs.reap f.2
      by_cases hdt : d ∈ (s.reap env f.2).peerConnections
      · have hnot := ((hs.mem_reap hf).mp hdt).2.2
        rcases List.mem_cons.mp hrep with heq | hrep
        · rw [heq] at hstrikes
          exact absurd hstrikes hnot
        · split at hrep
          · cases hrep
          · next hne =>
            rw [if_neg hne]
            obtain ⟨x, hx, hxe, -⟩ := hs.lt_of_mem_later hk hfind hrep
            obtain rfl := hs.entry_inj (hwithin.entries.subset hx) he hxe
            exact ih hkeyed (Nat.le_refl 1) hx hdt (hwithin.strikes_of_mem hstrikes hdt) hrep
      · split
        · exact hdt
        · exact fun hmem => hdt ((within_cleanupRounds n 1 _).entries.subset hmem)

/-- A reported connection that another one strikes has been reported before. -/
theorem Keyed.le_of_strikes (hs : Keyed s) (hk : k ≤ 1) (he : e ∈ s.peerConnections)
    (hd : d ∈ s.peerConnections) (hstrikes : s.Strikes env e.2 d.1)
    (hrep : e.2 ∈ reportedRounds env n k s) (hrep' : d.2 ∈ reportedRounds env n k s) :
    e.1 ≤ d.1 := by
  induction n generalizing k s with
  | zero => cases hrep
  | succ n ih =>
    rw [reportedRounds] at hrep hrep'
    cases hfind : (s.peerConnections.reverse.drop k).find? (fun e => s.dead env e.2) with
    | none =>
      rw [hfind] at hrep
      cases hrep
    | some f =>
      rw [hfind] at hrep hrep'
      dsimp only at hrep hrep'
      have hf := mem_of_find?_dead hfind
      have hwithin : Within (s.reap env f.2) s := s.within_reap f.2
      have hkeyed : Keyed (s.reap env f.2) := hs.reap f.2
      -- what later rounds report is still in the map, and has a smaller key
      have hlater : ∀ x ∈ s.peerConnections, x.2 ∈ (if (s.reap env f.2).peerConnections = [] then []
          else reportedRounds env n 1 (s.reap env f.2)) →
          x ∈ (s.reap env f.2).peerConnections ∧ x.1 < f.1 ∧
            x.2 ∈ reportedRounds env n 1 (s.reap env f.2) := by
        intro x hx hxrep
        split at hxrep
        · cases hxrep
        · obtain ⟨y, hy, hyx, hlt⟩ := hs.lt_of_mem_later hk hfind hxrep
          obtain rfl := hs.entry_inj (hwithin.entries.subset hy) hx hyx
          exact ⟨hy, hlt, hxrep⟩
      rcases List.mem_cons.mp hrep with heq | hrep
      · obtain rfl := hs.entry_inj he hf heq
        rcases List.mem_cons.mp hrep' with heq' | hrep'
        · rw [hs.entry_inj hd hf heq']
          exact UInt64.le_refl _
        · exact absurd hstrikes ((hs.mem_reap hf).mp (hlater d hd hrep').1).2.2
      · obtain ⟨het, hlt, hrep⟩ := hlater e he hrep
        rcases List.mem_cons.mp hrep' with heq' | hrep'
        · rw [hs.entry_inj hd hf heq']
          exact UInt64.le_of_lt hlt
        · obtain ⟨hdt, -, hrep'⟩ := hlater d hd hrep'
          exact ih hkeyed (Nat.le_refl 1) het hdt (hwithin.strikes_of_mem hstrikes hdt) hrep hrep'

/-- Whoever comes second from the back when the first one goes is never reported. -/
theorem Keyed.notMem_reported (hs : Keyed s) {es : List (UInt64 × Nat)}
    (hsplit : s.peerConnections.reverse = e :: d :: es) (hdead : s.dead env e.2 = true) :
    d.2 ∉ s.reported env := by
  have he : e ∈ s.peerConnections := List.mem_reverse.mp (by rw [hsplit]; simp)
  have hd : d ∈ s.peerConnections := List.mem_reverse.mp (by rw [hsplit]; simp)
  have hsorted := hs.sorted_reverse
  rw [hsplit, List.pairwise_cons, List.pairwise_cons] at hsorted
  obtain ⟨hbelow, hbelow', -⟩ := hsorted
  have hlen : s.peerConnections.length = es.length + 1 + 1 := by
    rw [← List.length_reverse, hsplit]
    rfl
  intro hrep
  have hrep' : d.2 ∈ reportedRounds env (es.length + 1 + 1) 0 s := hlen ▸ hrep
  have hfind : (s.peerConnections.reverse.drop 0).find? (fun e => s.dead env e.2) = some e := by
    rw [List.drop_zero, hsplit]
    exact List.find?_cons_of_pos hdead
  rw [reportedRounds, hfind] at hrep'
  rcases List.mem_cons.mp hrep' with heq | hlater
  · have hlt := hbelow d List.mem_cons_self
    rw [hs.entry_inj hd he heq] at hlt
    exact UInt64.lt_irrefl _ hlt
  · split at hlater
    · cases hlater
    have hwithin : Within (s.reap env e.2) s := s.within_reap e.2
    obtain ⟨x, hx, hxd, -, g, hg, hlt⟩ := (hs.reap e.2).of_mem_reportedRounds hlater
    obtain rfl := hs.entry_inj (hwithin.entries.subset hx) hd hxd
    obtain ⟨hgs, hne, -⟩ := (hs.mem_reap he).mp hg
    -- only the entry that is gone had a greater key
    rw [← List.mem_reverse, hsplit, List.mem_cons, List.mem_cons] at hgs
    rcases hgs with rfl | rfl | hgs
    · exact hne rfl
    · exact UInt64.lt_irrefl _ hlt
    · exact UInt64.lt_asymm hlt (hbelow' g hgs)

/-- Where the clean-up does its work, every connection of a process that is gone is reported. -/
theorem CleansUp.mem_reported (h : CleansUp s env) (hs : Keyed s) (he : e ∈ s.peerConnections)
    (hdead : s.dead env e.2 = true) : e.2 ∈ s.reported env := by
  by_contra hrep
  have hwithin : Within (s.cleanupConnections env) s := within_cleanupRounds _ 0 s
  have hgone : e ∉ (s.cleanupConnections env).peerConnections := by
    intro hmem
    have hlive := h.dropped e hmem
    rw [hwithin.dead_eq hs.cleanupConnections hmem, hdead] at hlive
    cases hlive
  have hcount := h.reported e he hgone
  rw [List.count_eq_zero_of_not_mem hrep] at hcount
  cases hcount

theorem CleansUp.reaches (hs : Keyed s) (h : CleansUp s env) : CleanupReaches s env where
  greatest := by
    intro e d es hsplit hdead
    by_contra hdead'
    have hd : d ∈ s.peerConnections := List.mem_reverse.mp (by rw [hsplit]; simp)
    exact hs.notMem_reported hsplit hdead (h.mem_reported hs hd (by simpa using hdead'))
  deletions := by
    intro e he hdead d hd hstrikes
    have hrep := h.mem_reported hs he hdead
    have hgone : d ∉ (s.cleanupConnections env).peerConnections :=
      hs.notMem_of_strikes (Nat.zero_le 1) he hd hstrikes hrep
    have hdead' : s.dead env d.2 = true := by
      by_contra hlive
      exact hgone (h.kept d hd (Bool.eq_false_iff.mpr hlive))
    exact ⟨hdead', hs.le_of_strikes (Nat.zero_le 1) he hd hstrikes hrep
      (h.mem_reported hs hd hdead')⟩

end Miss

/-- **The clean-up drops all connections of processes that are gone** exactly when those of the two
greatest keys are not both gone, and the driver deletes nothing that has not been reported. -/
theorem cleansUp_iff {s : NetlinkState} {env : Surrounding} (hs : Keyed s) :
    CleansUp s env ↔ CleanupReaches s env :=
  ⟨fun h => h.reaches hs, fun h => h.cleansUp hs⟩

theorem keyed_init : Keyed .init :=
  ⟨by simp [NetlinkState.init], by simp [NetlinkState.init], by simp [NetlinkState.init]⟩

/-- All processes are gone, and nothing else is deleted. -/
def gone : Surrounding := { quiet with alive := fun _ => false }

/-- A connection that is alone in the map is found. -/
theorem cleansUp_alone : CleansUp (NetlinkState.init.newConnection 1 0) gone :=
  (cleansUp_iff (keyed_init.newConnection 1 0)).mpr
    ⟨fun _ _ _ h => (nomatch h), fun _ _ _ _ _ ⟨_, hq, _⟩ => (nomatch hq)⟩

/-- Two clients that are gone: the one with the smaller key stays. -/
theorem not_cleansUp_twoGone :
    ∃ s, netlinkMachine.run .init [.message 1 0 quiet, .message 2 0 quiet] = some s ∧
      ¬ CleansUp s gone := by
  refine ⟨_, rfl, fun h => ?_⟩
  have hlive := h.dropped (1, 0) (by decide)
  exact absurd hlive (by decide)

end McDaemon.Daemon
