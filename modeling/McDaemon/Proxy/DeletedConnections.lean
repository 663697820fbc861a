/-
# McDaemon.Proxy.DeletedConnections — connections of the proxy client behind their deletion.

A call that has found a connection needs it up to its last phase, and what is deleted then is
touched by that phase at the latest.  So nothing is touched behind its deletion as long as a
connection is deleted only when no call needs it any more.  A notify that deletes its own
connection needs it still: it has to unlock the mutex of the buffers.
-/
import McDaemon.Proxy.ClientCalls

namespace McDaemon.Proxy.ClientCalls

open McDaemon.Lib

/-! ## The property and its condition -/

/-- What the events touch, and what they delete. -/
def objects : Ledger Event Nat where
  touched
    | .touches _ cs => cs
    | .deletes _ c => [c]
  released
    | .touches _ _ => none
    | .deletes _ c => some c

/-- The connection that a call has still to touch: all phases do but the deletion, behind which
only a notify has something left to do. -/
def Call.needs (call : Call) : Option Nat :=
  match call.stage with
  | .finding | .returned => none
  | .found c p => if p = .deleteConnection ∧ call.method.leave = none then none else some c

namespace ProxyClient

/-- No connection is touched, or deleted again, behind its deletion. -/
def Untouched (s : ProxyClient) : Prop := objects.Safe s.log

/-- The connection that the next step of call `k` deletes. -/
def deletes (s : ProxyClient) (k : Nat) : Option Nat :=
  s.calls[k]?.bind fun call =>
    match call.stage with
    | .found _ .deleteConnection => s.lookup call.sid
    | _ => none

/-- A step does not delete a connection that a call needs, the call that deletes it included. -/
def Spares (s : ProxyClient) : Action → Prop
  | .advances k _ => ∀ c ∈ s.deletes k, ∀ call ∈ s.calls, call.needs ≠ some c
  | _ => True

instance decidableSpares (s : ProxyClient) : ∀ a, Decidable (s.Spares a)
  | .opened _ | .calls _ _ => inferInstanceAs (Decidable True)
  | .advances k _ =>
    inferInstanceAs (Decidable (∀ c ∈ s.deletes k, ∀ call ∈ s.calls, call.needs ≠ some c))

/-- All calls have returned. -/
def Idle (s : ProxyClient) : Prop := ∀ call ∈ s.calls, call.stage = .returned

end ProxyClient

/-! ## One step -/

section Steps

variable {s t : ProxyClient} {k : Nat} {call : Call} {o : Outcome}

theorem needs_stageOf {c d : Nat} {next : Option Phase} (h : call.stage = stageOf c next)
    (hneeds : call.needs = some d) : d = c := by
  unfold Call.needs at hneeds
  rw [h] at hneeds
  cases next with
  | none => cases hneeds
  | some p => exact (Option.some.inj (Option.ite_none_left_eq_some.mp hneeds).2).symm

theorem needs_found {c : Nat} {p : Phase} (h : call.stage = .found c p)
    (hp : p ≠ .deleteConnection) : call.needs = some c := by
  unfold Call.needs
  rw [h]
  exact if_neg fun hand => hp hand.1

/-- A call that deletes with a phase to follow needs its connection before, and after. -/
theorem needs_deleting {c : Nat} (h : call.stage = .found c .deleteConnection) :
    call.needs = ({ call with stage := stageOf c call.method.leave } : Call).needs := by
  unfold Call.needs
  rw [h]
  cases hleave : call.method.leave with
  | none => simp [stageOf]
  | some p =>
    have hp : p ≠ .deleteConnection := by
      unfold Method.leave at hleave
      obtain ⟨-, hleave⟩ := Option.ite_none_right_eq_some.mp hleave
      cases hleave
      decide
    simp [stageOf, hp]

theorem lookup_mem {sid : UInt32} {c : Nat} (h : s.lookup sid = some c) : c ∈ s.connections :=
  List.mem_of_find?_eq_some h

theorem lookedAt_mem {sid : UInt32} : ∀ c ∈ s.lookedAt sid, c ∈ s.connections :=
  fun _ h => List.mem_of_mem_take h

/-- What the next step of a call is. -/
theorem advance_cases (h : s.advance k o = some t) : ∃ call, s.calls[k]? = some call ∧
    (call.stage = .finding ∧ t = s.find k call ∨
      (∃ c, call.stage = .found c .deleteConnection ∧ t = s.deleteConnection k call c) ∨
      ∃ c p, call.stage = .found c p ∧ p ≠ .deleteConnection ∧
        s.goOn k call c p o = some t) := by
  unfold ProxyClient.advance at h
  cases hk : s.calls[k]? with
  | none => rw [hk] at h; cases h
  | some call =>
    rw [hk] at h
    refine ⟨call, rfl, ?_⟩
    dsimp only at h
    split at h
    case h_1 hstage => exact .inl ⟨hstage, (Option.some.inj h).symm⟩
    case h_2 c hstage => exact .inr (.inl ⟨c, hstage, (Option.some.inj h).symm⟩)
    case h_3 c p hp hstage => exact .inr (.inr ⟨c, p, hstage, fun heq => hp heq, h⟩)
    case h_4 => cases h

/-- A phase touches the connection of its call, and the call stays with it. -/
theorem goOn_spec {c : Nat} {p : Phase} (h : s.goOn k call c p o = some t) :
    t.log = s.log ++ [.touches k [c]] ∧ t.connections = s.connections ∧
      t.made.length = s.made.length ∧
      ∃ left next, t.calls = s.calls.set k
        { call with timeoutLeft := left, stage := stageOf c next } := by
  unfold ProxyClient.goOn at h
  cases hx : s.made[c]? with
  | none => rw [hx] at h; cases h
  | some x =>
    rw [hx] at h
    obtain ⟨r, -, rfl⟩ := Option.map_eq_some_iff.mp h
    exact ⟨rfl, rfl, List.length_set, r.timeoutLeft, r.next, rfl⟩

/-- The connections on the list are those that are there, and whatever a call needs is there. -/
structure Sound (s : ProxyClient) : Prop where
  owns : objects.Owns s.log s.connections
  made : ∀ c, c ∈ s.connections ∨ c ∈ objects.gone s.log → c < s.made.length
  needed : ∀ call ∈ s.calls, ∀ c, call.needs = some c → c ∉ objects.gone s.log

/-- The search for a session id, which a call begins with and a deletion too. -/
theorem Sound.looked (h : Sound s) (sid : UInt32) :
    Sound (s.note (.touches k (s.lookedAt sid))) := by
  have hgone : objects.gone (s.log ++ [Event.touches k (s.lookedAt sid)]) = objects.gone s.log :=
    Ledger.gone_snoc_of_none rfl
  refine ⟨h.owns.read rfl lookedAt_mem, fun c hc => h.made c ?_, fun call hcall c hc => ?_⟩
  · show c ∈ s.connections ∨ c ∈ objects.gone s.log
    rw [← hgone]
    exact hc
  · show c ∉ objects.gone (s.log ++ [_])
    rw [hgone]
    exact h.needed call hcall c hc

/-- A call moves on to a connection that is there. -/
theorem Sound.setCall (h : Sound s) {call : Call}
    (hneeds : ∀ c, call.needs = some c → c ∉ objects.gone s.log) : Sound (s.setCall k call) := by
  refine ⟨h.owns, h.made, fun call' hcall => ?_⟩
  rcases List.mem_or_eq_of_mem_set hcall with hcall | rfl
  · exact h.needed call' hcall
  · exact hneeds

theorem Sound.find (h : Sound s) : Sound (s.find k call) := by
  refine (h.looked call.sid).setCall fun c hc => ?_
  cases hl : s.lookup call.sid with
  | none => simp [Call.needs, hl] at hc
  | some d =>
    rw [hl] at hc
    obtain rfl : c = d := needs_stageOf rfl hc
    exact (h.looked call.sid).owns.live c (lookup_mem hl)

theorem Sound.deleteConnection (h : Sound s) {c : Nat} (hcall : call ∈ s.calls)
    (hstage : call.stage = .found c .deleteConnection)
    (hspares : ∀ d ∈ s.lookup call.sid, ∀ call ∈ s.calls, call.needs ≠ some d) :
    Sound (s.deleteConnection k call c) := by
  have hlooked := h.looked (k := k) call.sid
  unfold ProxyClient.deleteConnection
  cases hl : s.lookup call.sid with
  | none =>
    refine hlooked.setCall fun d hd => ?_
    rw [← needs_deleting hstage] at hd
    exact hlooked.needed call hcall d hd
  | some d =>
    have hmem := lookup_mem hl
    have hgone : objects.gone ((s.log ++ [.touches k (s.lookedAt call.sid)]) ++ [.deletes k d]) =
        objects.gone s.log ++ [d] := by
      rw [Ledger.gone_append, Ledger.gone_snoc_of_none rfl]
      rfl
    have howns : objects.Owns ((s.log ++ [.touches k (s.lookedAt call.sid)]) ++ [.deletes k d])
        (s.connections.erase d) :=
      (hlooked.owns.perm (List.perm_cons_erase hmem)).release rfl rfl
    have hdeleted : Sound { (s.note (.touches k (s.lookedAt call.sid))).note (.deletes k d) with
        connections := s.connections.erase d } := by
      refine ⟨howns, fun e he => h.made e ?_, fun call' hcall' e he hin => ?_⟩
      · rcases he with he | he
        · exact .inl (List.mem_of_mem_erase he)
        · rcases List.mem_append.mp (hgone ▸ he) with he | he
          · exact .inr he
          · rw [List.mem_singleton.mp he]
            exact .inl hmem
      · rcases List.mem_append.mp (hgone ▸ hin) with hin | hin
        · exact h.needed call' hcall' e he hin
        · rw [List.mem_singleton.mp hin] at he
          exact hspares d hl call' hcall' he
    refine hdeleted.setCall fun e he => ?_
    rw [← needs_deleting hstage] at he
    exact hdeleted.needed call hcall e he

theorem Sound.goOn (h : Sound s) {c : Nat} {p : Phase} (hcall : call ∈ s.calls)
    (hstage : call.stage = .found c p) (hp : p ≠ .deleteConnection)
    (ht : s.goOn k call c p o = some t) : Sound t := by
  obtain ⟨hlog, hconnections, hmade, left, next, hcalls⟩ := goOn_spec ht
  have hc := h.needed call hcall c (needs_found hstage hp)
  have hgone : objects.gone t.log = objects.gone s.log := by
    rw [hlog]
    exact Ledger.gone_snoc_of_none rfl
  refine ⟨?_, fun d hd => ?_, fun call' hcall' d hd => ?_⟩
  · rw [hlog, hconnections]
    refine h.owns.look rfl fun d hd => ?_
    rw [List.mem_singleton.mp hd]
    exact hc
  · rw [hmade]
    rw [hconnections, hgone] at hd
    exact h.made d hd
  · rw [hgone]
    rw [hcalls] at hcall'
    rcases List.mem_or_eq_of_mem_set hcall' with hcall' | rfl
    · exact h.needed call' hcall' d hd
    · rw [needs_stageOf rfl hd]
      exact hc

theorem Sound.opened (h : Sound s) (sid : UInt32) :
    Sound { s with
      made := s.made ++ [⟨sid, false, none, none, none⟩]
      connections := s.connections ++ [s.made.length] } := by
  have hfresh : ¬ (s.made.length ∈ s.connections ∨ s.made.length ∈ objects.gone s.log) :=
    fun hin => Nat.lt_irrefl _ (h.made _ hin)
  rw [not_or] at hfresh
  refine ⟨(h.owns.allocate hfresh.1 hfresh.2).perm (List.perm_append_singleton ..).symm,
    fun c hc => ?_, h.needed⟩
  show c < (s.made ++ [_]).length
  rw [List.length_append, List.length_singleton]
  rcases hc with hc | hc
  · rcases List.mem_append.mp hc with hc | hc
    · have hlt := h.made c (.inl hc)
      omega
    · rw [List.mem_singleton.mp hc]
      omega
  · have hlt := h.made c (.inr hc)
    omega

theorem fresh_sound : Sound ProxyClient.fresh where
  owns := ⟨List.Pairwise.nil, List.nodup_nil, by simp [ProxyClient.fresh]⟩
  made := by simp [ProxyClient.fresh]
  needed := by simp [ProxyClient.fresh]

theorem mem_of_call (h : s.calls[k]? = some call) : call ∈ s.calls := List.mem_of_getElem? h

theorem deletes_of_stage {c : Nat} (hk : s.calls[k]? = some call)
    (h : call.stage = .found c .deleteConnection) : s.deletes k = s.lookup call.sid := by
  simp [ProxyClient.deletes, hk, h]

/-- **A step that spares what the calls need keeps everything in order.** -/
theorem Sound.step (h : Sound s) {a : ProxyClient.Action} (ht : callMachine.step s a = some t)
    (hspares : s.Spares a) : Sound t := by
  cases a with
  | opened sid =>
    obtain rfl := Option.some.inj ht
    exact h.opened sid
  | calls method sid =>
    obtain rfl := Option.some.inj ht
    refine ⟨h.owns, h.made, fun call hcall c hc => ?_⟩
    rcases List.mem_append.mp hcall with hcall | hcall
    · exact h.needed call hcall c hc
    · rw [List.mem_singleton.mp hcall] at hc
      cases hc
  | advances k o =>
    obtain ⟨call, hk, ⟨-, rfl⟩ | ⟨c, hstage, rfl⟩ | ⟨c, p, hstage, hp, hgo⟩⟩ := advance_cases ht
    · exact h.find
    · refine h.deleteConnection (mem_of_call hk) hstage fun d hd => hspares d ?_
      rw [deletes_of_stage hk hstage]
      exact hd
    · exact h.goOn (mem_of_call hk) hstage hp hgo

/-! ## What a deletion spoils -/

/-- Something has been touched behind its deletion, or a call needs what has been deleted. -/
def Spoilt (s : ProxyClient) : Prop :=
  ¬ s.Untouched ∨ ∃ (k : Nat) (call : Call) (c : Nat), s.calls[k]? = some call ∧
    call.needs = some c ∧ c ∈ objects.gone s.log

theorem not_untouched_append {log evs : List Event} (h : ¬ objects.Safe log) :
    ¬ objects.Safe (log ++ evs) := fun hsafe => h (Ledger.safe_append.mp hsafe).1

/-- The log only grows, and a step of a call leaves the others alone. -/
theorem step_grows {a : ProxyClient.Action} (ht : callMachine.step s a = some t) :
    (∃ evs, t.log = s.log ++ evs) ∧
      ∀ j call, s.calls[j]? = some call → (∀ o, a ≠ .advances j o) → t.calls[j]? = some call := by
  cases a with
  | opened sid =>
    obtain rfl := Option.some.inj ht
    exact ⟨⟨[], (List.append_nil _).symm⟩, fun j call hj _ => hj⟩
  | calls method sid =>
    obtain rfl := Option.some.inj ht
    exact ⟨⟨[], (List.append_nil _).symm⟩, fun j call hj _ =>
      List.getElem?_append_left (List.getElem?_eq_some_iff.mp hj).1 ▸ hj⟩
  | advances k o =>
    have hother : ∀ j, (∀ o', ProxyClient.Action.advances k o ≠ .advances j o') → k ≠ j :=
      fun j hne heq => hne o (heq ▸ rfl)
    obtain ⟨call, hk, ⟨-, rfl⟩ | ⟨c, hstage, rfl⟩ | ⟨c, p, hstage, hp, hgo⟩⟩ := advance_cases ht
    · exact ⟨⟨_, rfl⟩, fun j x hj hne => (List.getElem?_set_ne (hother j hne)).trans hj⟩
    · unfold ProxyClient.deleteConnection
      cases s.lookup call.sid with
      | none => exact ⟨⟨_, rfl⟩, fun j x hj hne => (List.getElem?_set_ne (hother j hne)).trans hj⟩
      | some d =>
        exact ⟨⟨_, List.append_assoc ..⟩,
          fun j x hj hne => (List.getElem?_set_ne (hother j hne)).trans hj⟩
    · obtain ⟨hlog, -, -, left, next, hcalls⟩ := goOn_spec hgo
      refine ⟨⟨_, hlog⟩, fun j x hj hne => ?_⟩
      rw [hcalls, List.getElem?_set_ne (hother j hne)]
      exact hj

/-- Whoever needs a connection before a deletion needs it behind it. -/
theorem needs_behind_deletion {c d j : Nat} {x : Call} (hk : s.calls[k]? = some call)
    (hstage : call.stage = .found c .deleteConnection) (hj : s.calls[j]? = some x)
    (hx : x.needs = some d) :
    ∃ y : Call, (s.deleteConnection k call c).calls[j]? = some y ∧ y.needs = some d := by
  have hcalls : (s.deleteConnection k call c).calls =
      s.calls.set k { call with stage := stageOf c call.method.leave } := by
    unfold ProxyClient.deleteConnection
    cases s.lookup call.sid <;> rfl
  rw [hcalls]
  by_cases hkj : k = j
  · subst hkj
    obtain rfl := Option.some.inj (hk.symm.trans hj)
    have hlt := (List.getElem?_eq_some_iff.mp hk).1
    exact ⟨_, List.getElem?_set_self hlt, (needs_deleting hstage).symm.trans hx⟩
  · exact ⟨x, (List.getElem?_set_ne hkj).trans hj, hx⟩

/-- What is spoilt stays so: the call that needs what is gone comes to touch it. -/
theorem Spoilt.step (h : Spoilt s) {a : ProxyClient.Action} (ht : callMachine.step s a = some t) :
    Spoilt t := by
  obtain ⟨⟨evs, hlog⟩, hcalls⟩ := step_grows ht
  rcases h with h | ⟨k, call, c, hk, hneeds, hgone⟩
  · left
    unfold ProxyClient.Untouched
    rw [hlog]
    exact not_untouched_append h
  · have hgone' : c ∈ objects.gone t.log := by
      rw [hlog, Ledger.gone_append]
      exact List.mem_append_left _ hgone
    by_cases ha : ∀ o, a ≠ .advances k o
    · exact .inr ⟨k, call, c, hcalls k call hk ha, hneeds, hgone'⟩
    · push Not at ha
      obtain ⟨o, rfl⟩ := ha
      obtain ⟨call', hk', hcases⟩ := advance_cases ht
      obtain rfl := Option.some.inj (hk.symm.trans hk')
      rcases hcases with ⟨hstage, -⟩ | ⟨d, hstage, rfl⟩ | ⟨d, p, hstage, hp, hgo⟩
      · simp [Call.needs, hstage] at hneeds
      · obtain ⟨y, hy, hyneeds⟩ := needs_behind_deletion hk hstage hk hneeds
        exact .inr ⟨k, y, c, hy, hyneeds, hgone'⟩
      · obtain rfl : d = c := Option.some.inj ((needs_found hstage hp).symm.trans hneeds)
        left
        unfold ProxyClient.Untouched
        rw [(goOn_spec hgo).1]
        exact Ledger.not_safe_of_touched (List.mem_singleton.mpr rfl) hgone

/-- A deletion of what a call needs spoils the client. -/
theorem spoilt_of_not_spares {a : ProxyClient.Action} (ht : callMachine.step s a = some t)
    (h : ¬ s.Spares a) : Spoilt t := by
  cases a with
  | opened sid => exact absurd trivial h
  | calls method sid => exact absurd trivial h
  | advances k o =>
    simp only [ProxyClient.Spares, not_forall, not_not] at h
    obtain ⟨d, hd, x, hx, hneeds⟩ := h
    obtain ⟨j, hj⟩ := List.getElem?_of_mem hx
    obtain ⟨call, hk, ⟨hstage, -⟩ | ⟨c, hstage, rfl⟩ | ⟨c, p, hstage, hp, -⟩⟩ := advance_cases ht
    · simp [ProxyClient.deletes, hk, hstage] at hd
    · rw [deletes_of_stage hk hstage] at hd
      obtain ⟨y, hy, hyneeds⟩ := needs_behind_deletion hk hstage hj hneeds
      refine .inr ⟨j, y, d, hy, hyneeds, Ledger.mem_gone.mpr ⟨.deletes k d, ?_, rfl⟩⟩
      simp [ProxyClient.deleteConnection, Option.mem_def.mp hd, ProxyClient.setCall,
        ProxyClient.note]
    · exfalso
      simp only [ProxyClient.deletes, hk, hstage, Option.bind_some] at hd
      split at hd
      case h_1 heq => exact hp (Stage.found.inj heq).2
      case h_2 => cases hd

end Steps

/-! ## Runs -/

/-- **Connections behind their deletion.** A run whose deletions spare what the calls need never
touches a deleted connection.  A run that does not, and in which every call returns, has spared what
the calls needed. -/
theorem untouched_iff_spares {as : List ProxyClient.Action} {t : ProxyClient}
    (hrun : callMachine.run ProxyClient.fresh as = some t) :
    (callMachine.RunMeets ProxyClient.Spares ProxyClient.fresh as →
      callMachine.RunStays ProxyClient.Untouched ProxyClient.fresh as) ∧
    (t.Idle → callMachine.RunStays ProxyClient.Untouched ProxyClient.fresh as →
      callMachine.RunMeets ProxyClient.Spares ProxyClient.fresh as) := by
  constructor
  · exact callMachine.runStays_of_inv (I := Sound) (fun s h => h.owns.safe)
      (fun s a t h ht hspares => h.step ht hspares) fresh_sound
  · intro hidle hstays
    apply callMachine.runMeets_of_not_bad (B := Spoilt)
      (fun s a t ht hnot => spoilt_of_not_spares ht hnot) (fun s a t ht h => h.step ht) hrun
    rintro (h | ⟨k, call, c, hk, hneeds, -⟩)
    · exact h (hstays.last hrun)
    · have hreturned := hidle call (List.mem_of_getElem? hk)
      simp [Call.needs, hreturned] at hneeds

/-- A session is closed while another call on it is on its way, and deleted behind that. -/
def closesBehind : List ProxyClient.Action :=
  [.opened 1, .calls .getError 1, .calls .closeSession 1, .advances 1 (.broken false)] ++
    List.replicate 6 (.advances 0 (.done true 0)) ++ List.replicate 6 (.advances 1 (.done true 0))

theorem untouched_closesBehind :
    callMachine.RunStays ProxyClient.Untouched ProxyClient.fresh closesBehind := by
  obtain ⟨t, hrun⟩ : ∃ t, callMachine.run ProxyClient.fresh closesBehind = some t :=
    ⟨_, rfl⟩
  exact (untouched_iff_spares hrun).1 (by decide)

/-- A notify whose exchange breaks. -/
def brokenNotify : List ProxyClient.Action :=
  [.opened 1, .calls .notify 1] ++ List.replicate 11 (.advances 0 (.broken false))

/-- The notify deletes the connection, and then unlocks a mutex that was part of it. -/
theorem not_untouched_brokenNotify : ∃ t, callMachine.run ProxyClient.fresh brokenNotify = some t ∧
    ¬ callMachine.RunStays ProxyClient.Untouched ProxyClient.fresh brokenNotify := by
  refine ⟨_, rfl, fun h => ?_⟩
  have hsafe : objects.Safe _ := h.last rfl
  exact absurd hsafe (by decide)

end McDaemon.Proxy.ClientCalls
