/-
# McDaemon.Proxy.RpcProgress — a call on a connection that works returns.

While neither of the two parties fails, one of them can always move: what is still to be sent can be
sent, what is under way can be received, and what has been received can be served.  Every byte is
sent once and received once, and the driver is closed once, which bounds the moves of a call.
-/
import McDaemon.Lib.Progress
import McDaemon.Proxy.RpcAgreement

namespace McDaemon.Proxy.Rpc

open McDaemon.Lib

/-! ## What is left to do -/

def ClientPhase.unsent : ClientPhase → Nat
  | .sendsHeader left data => left.length + data.length
  | .sendsData left => left.length
  | _ => 0

def ServerPhase.unsent : ServerPhase → Nat
  | .sendsHeader left data => left.length + data.length
  | .sendsData left => left.length
  | _ => 0

section Phases

variable (left data got : List UInt8)

@[simp] theorem ClientPhase.unsent_sendsHeader :
    (sendsHeader left data).unsent = left.length + data.length := rfl

@[simp] theorem ClientPhase.unsent_sendsData : (sendsData left).unsent = left.length := rfl

@[simp] theorem ClientPhase.unsent_receivesHeader : (receivesHeader got).unsent = 0 := rfl

@[simp] theorem ClientPhase.unsent_receivesData (h : ResponseHeader) :
    (receivesData h got).unsent = 0 := rfl

@[simp] theorem ServerPhase.unsent_sendsHeader :
    (sendsHeader left data).unsent = left.length + data.length := rfl

@[simp] theorem ServerPhase.unsent_sendsData : (sendsData left).unsent = left.length := rfl

@[simp] theorem ServerPhase.unsent_receivesHeader : (receivesHeader got).unsent = 0 := rfl

@[simp] theorem ServerPhase.unsent_receivesData (h : RequestHeader) :
    (receivesData h got).unsent = 0 := rfl

@[simp] theorem ServerPhase.unsent_serves (method : UInt16) : (serves method data).unsent = 0 := rfl

end Phases

@[simp] theorem ClientPhase.unsent_sendingData (left : List UInt8) :
    (sendingData left).unsent = left.length := by
  unfold sendingData
  split_ifs with h
  · rw [h]
    rfl
  · rfl

@[simp] theorem ClientPhase.unsent_sendingHeader (left data : List UInt8) :
    (sendingHeader left data).unsent = left.length + data.length := by
  unfold sendingHeader
  split_ifs with h
  · rw [h, unsent_sendingData, List.length_nil, Nat.zero_add]
  · rfl

@[simp] theorem ClientPhase.unsent_receivingData (h : ResponseHeader) (got : List UInt8) :
    (receivingData h got).1.unsent = 0 := by
  unfold receivingData
  split_ifs <;> rfl

@[simp] theorem ClientPhase.unsent_receivingHeader (got : List UInt8) :
    (receivingHeader got).1.unsent = 0 := by
  unfold receivingHeader
  dsimp only
  split_ifs
  · rfl
  · rfl
  · rfl
  · rfl
  · exact unsent_receivingData _ _

@[simp] theorem ServerPhase.unsent_sendingData (isOpen : Bool) (left : List UInt8) :
    (sendingData isOpen left).unsent = left.length := by
  unfold sendingData
  split_ifs with h hopen
  · rw [h]
    rfl
  · rw [h]
    rfl
  · rfl

@[simp] theorem ServerPhase.unsent_sendingHeader (isOpen : Bool) (left data : List UInt8) :
    (sendingHeader isOpen left data).unsent = left.length + data.length := by
  unfold sendingHeader
  split_ifs with h
  · rw [h, unsent_sendingData, List.length_nil, Nat.zero_add]
  · rfl

@[simp] theorem ServerPhase.unsent_receivingData (h : RequestHeader) (got : List UInt8) :
    (receivingData h got).unsent = 0 := by
  unfold receivingData
  split_ifs <;> rfl

@[simp] theorem ServerPhase.unsent_receivingHeader (got : List UInt8) :
    (receivingHeader got).unsent = 0 := by
  unfold receivingHeader
  dsimp only
  split_ifs
  · rfl
  · rfl
  · rfl
  · exact unsent_receivingData _ _

variable {σ : Type} {S : Service σ} {s t : State σ}

/-- The work on the call that has not been served yet: to serve it, and to carry the reply.  A thread
that has ended does none. -/
def State.unserved (S : Service σ) (s : State σ) : Nat :=
  if s.server = .stopped then 0
  else
    match s.calls.drop s.served.length with
    | c :: _ => 1 + 2 * ((S.call s.driver c).2.frame c.method).length
    | [] => 0

/-- A byte is worth a move until it is sent, and another until it is received. -/
def State.remaining (S : Service σ) (s : State σ) : Nat :=
  2 * s.client.unsent + s.toServer.length + s.unserved S + 2 * s.server.unsent +
    s.toClient.length + (!s.closed).toNat

theorem State.unserved_le (hkept : Kept s t) : t.unserved S ≤ s.unserved S := by
  unfold unserved
  by_cases ht : t.server = .stopped
  · rw [if_pos ht]
    exact Nat.zero_le _
  · have hs : s.server ≠ .stopped := fun hs => ht (hkept.stopped hs)
    rw [if_neg ht, if_neg hs, hkept.served, hkept.driver, hkept.calls]

theorem transfer_remaining {a : Action} (ha : a.transfer = true)
    (hstep : step S s a = some t) : t.remaining S < s.remaining S := by
  have hunserved := State.unserved_le (S := S) (transfer_keeps ha hstep)
  unfold State.remaining
  generalize t.unserved S = unserved at hunserved ⊢
  cases a with
  | serverServes | serverCloses | begins | clientFails | serverFails => cases ha
  | clientSends n =>
    change clientSends s n = some t at hstep
    unfold clientSends at hstep
    split at hstep
    · rename_i left data hclient
      obtain ⟨hmoves, hstep⟩ := Option.ite_none_right_eq_some.mp hstep
      obtain ⟨hpos, hle⟩ := moves_eq.mp hmoves
      cases hstep
      simp only [hclient, ClientPhase.unsent_sendingHeader, ClientPhase.unsent_sendsHeader,
        List.length_append, List.length_take, List.length_drop]
      omega
    · rename_i left hclient
      obtain ⟨hmoves, hstep⟩ := Option.ite_none_right_eq_some.mp hstep
      obtain ⟨hpos, hle⟩ := moves_eq.mp hmoves
      cases hstep
      simp only [hclient, ClientPhase.unsent_sendingData, ClientPhase.unsent_sendsData,
        List.length_append, List.length_take, List.length_drop]
      omega
    · cases hstep
  | clientReceives n =>
    change clientReceives s n = some t at hstep
    unfold clientReceives at hstep
    split at hstep
    · rename_i got hclient
      obtain ⟨hmoves, hstep⟩ := Option.ite_none_right_eq_some.mp hstep
      obtain ⟨hpos, hle⟩ := moves_eq.mp hmoves
      cases hstep
      simp only [State.clientGets, hclient, ClientPhase.unsent_receivingHeader,
        ClientPhase.unsent_receivesHeader, List.length_drop]
      omega
    · rename_i h got hclient
      obtain ⟨hmoves, hstep⟩ := Option.ite_none_right_eq_some.mp hstep
      obtain ⟨hpos, hle⟩ := moves_eq.mp hmoves
      cases hstep
      simp only [State.clientGets, hclient, ClientPhase.unsent_receivingData,
        ClientPhase.unsent_receivesData, List.length_drop]
      omega
    · cases hstep
  | serverReceives n =>
    change serverReceives s n = some t at hstep
    unfold serverReceives at hstep
    split at hstep
    · rename_i got hserver
      obtain ⟨hmoves, hstep⟩ := Option.ite_none_right_eq_some.mp hstep
      obtain ⟨hpos, hle⟩ := moves_eq.mp hmoves
      cases hstep
      simp only [hserver, ServerPhase.unsent_receivingHeader, ServerPhase.unsent_receivesHeader,
        List.length_drop]
      omega
    · rename_i h got hserver
      obtain ⟨hmoves, hstep⟩ := Option.ite_none_right_eq_some.mp hstep
      obtain ⟨hpos, hle⟩ := moves_eq.mp hmoves
      cases hstep
      simp only [hserver, ServerPhase.unsent_receivingData, ServerPhase.unsent_receivesData,
        List.length_drop]
      omega
    · cases hstep
  | serverSends n =>
    change serverSends S s n = some t at hstep
    unfold serverSends at hstep
    split at hstep
    · rename_i left data hserver
      obtain ⟨hmoves, hstep⟩ := Option.ite_none_right_eq_some.mp hstep
      obtain ⟨hpos, hle⟩ := moves_eq.mp hmoves
      cases hstep
      simp only [hserver, ServerPhase.unsent_sendingHeader, ServerPhase.unsent_sendsHeader,
        List.length_append, List.length_take, List.length_drop]
      omega
    · rename_i left hserver
      obtain ⟨hmoves, hstep⟩ := Option.ite_none_right_eq_some.mp hstep
      obtain ⟨hpos, hle⟩ := moves_eq.mp hmoves
      cases hstep
      simp only [hserver, ServerPhase.unsent_sendingData, ServerPhase.unsent_sendsData,
        List.length_append, List.length_take, List.length_drop]
      omega
    · cases hstep

theorem serve_remaining {alive : Prop} (h : Stage alive s) (hstep : serverServes S s = some t) :
    t.remaining S < s.remaining S := by
  obtain ⟨c, hserver, rfl⟩ := serverServes_eq hstep
  cases h with
  | idle _ hreceives =>
    rw [hserver] at hreceives
    rcases hreceives with h | h <;> cases h
  | requested _ _ _ _ _ hgot =>
    rw [hserver] at hgot
    cases hgot
  | replied _ _ _ _ _ _ hleft =>
    rw [hserver] at hleft
    cases hleft
  | serving c' _ _ hserves _ _ hcalls =>
    have hlen : s.served.length = (s.served.map Prod.fst).length := (List.length_map _).symm
    rw [hserver] at hserves
    obtain ⟨hmethod, hdata⟩ := ServerPhase.serves.inj hserves
    have hc : c = c' := by
      obtain ⟨method, data⟩ := c
      obtain ⟨method', data'⟩ := c'
      subst hmethod hdata
      rfl
    subst hc
    have hbefore : s.unserved S = 1 + 2 * ((S.call s.driver c).2.frame c.method).length := by
      rw [State.unserved, hserver, if_neg nofun, hcalls, hlen, List.drop_left]
    have hafter : s.calls.drop (s.served.length + 1) = [] := by
      rw [hcalls, hlen, List.drop_eq_nil_iff, List.length_append, List.length_singleton]
    unfold State.remaining
    rw [hbefore]
    simp only [State.unserved, hserver, ServerPhase.unsent_sendingHeader, ServerPhase.unsent_serves,
      List.length_append, List.length_singleton, hafter, Reply.frame, ite_self]
    omega

theorem close_remaining (hstep : serverCloses S s = some t) : t.remaining S < s.remaining S := by
  obtain ⟨hserver, hopen, rfl⟩ := serverCloses_eq hstep
  unfold State.remaining State.unserved
  simp only [hserver, hopen, if_pos, Bool.not_false, Bool.not_true, Bool.toNat_true,
    Bool.toNat_false]
  omega

theorem Stage.remaining {alive : Prop} {a : Action} (h : Stage alive s) (ha : a.work = true)
    (hstep : Rpc.step S s a = some t) : t.remaining S < s.remaining S := by
  cases a with
  | serverServes => exact serve_remaining h hstep
  | serverCloses => exact close_remaining hstep
  | begins | clientFails | serverFails => cases ha
  | _ => exact transfer_remaining rfl hstep

/-! ## There is always something to do -/

theorem moves_one {n m : Nat} (hn : 0 < n) (hm : 0 < m) : moves 1 (min n m) = true :=
  moves_eq.mpr ⟨Nat.one_pos, Nat.le_min.mpr ⟨hn, hm⟩⟩

theorem Stage.can_move (h : Stage True s) (hclient : s.client ≠ .idle) :
    ∃ a t, a.work = true ∧ Rpc.step S s a = some t := by
  obtain ⟨client, server, toServer, toClient, driver, closed, calls, served, results⟩ := s
  cases h with
  | idle hidle => exact absurd hidle hclient
  | serving c _ _ hserver =>
    dsimp only at hserver
    subst hserver
    exact ⟨.serverServes, _, rfl, rfl⟩
  | requested c got left hlen hleft hgot hframe =>
    dsimp only at hleft hgot hframe
    cases hleft with
    | dead _ hdead => exact absurd trivial hdead
    | header left hne =>
      have hmoves : moves 1 left.length = true :=
        moves_eq.mpr ⟨Nat.one_pos, List.length_pos_iff.mpr hne⟩
      exact ⟨.clientSends 1, _, rfl, if_pos hmoves⟩
    | data _ hne =>
      have hmoves : moves 1 left.length = true :=
        moves_eq.mpr ⟨Nat.one_pos, List.length_pos_iff.mpr hne⟩
      exact ⟨.clientSends 1, _, rfl, if_pos hmoves⟩
    | sent =>
      have hlength := congrArg List.length hframe
      rw [List.append_nil, Request.frame, List.length_append, List.length_append,
        RequestHeader.length_bytes (h := c.header) rfl] at hlength
      cases hgot with
      | stopped _ hdead => exact absurd trivial hdead
      | header _ hgot =>
        have hmoves := moves_one (n := toServer.length) (m := requestHeaderSize - got.length)
          (by omega) (by omega)
        exact ⟨.serverReceives 1, _, rfl, if_pos hmoves⟩
      | data got hgot =>
        rw [List.length_append, RequestHeader.length_bytes (h := c.header) rfl] at hlength
        have hheader : c.header.length.toNat = c.data.length := Request.header_length hlen
        have hmoves := moves_one (n := toServer.length) (m := c.header.length.toNat - got.length)
          (by omega) (by omega)
        exact ⟨.serverReceives 1, _, rfl, if_pos hmoves⟩
  | replied before c r got left hgot hleft hframe =>
    dsimp only at hleft hgot hframe
    by_cases hnil : left = []
    · subst hnil
      have hlength := congrArg List.length hframe
      rw [List.append_nil, Reply.frame, List.length_append, List.length_append,
        ResponseHeader.length_bytes (h := r.header c.method) rfl] at hlength
      cases hgot with
      | dead _ hdead => exact absurd trivial hdead
      | header _ hgot =>
        have hmoves := moves_one (n := toClient.length) (m := responseHeaderSize - got.length)
          (by omega) (by omega)
        exact ⟨.clientReceives 1, _, rfl, if_pos hmoves⟩
      | data got hgot =>
        rw [List.length_append, ResponseHeader.length_bytes (h := r.header c.method) rfl] at hlength
        have hdata := r.length_data
        have hheader : (r.header c.method).protoRc = r.protoRc := rfl
        have hmoves := moves_one (n := toClient.length)
          (m := (r.header c.method).protoRc.toInt.toNat - got.length) (by omega)
          (by rw [hheader]; omega)
        exact ⟨.clientReceives 1, _, rfl, if_pos hmoves⟩
    · cases hleft with
      | sent => exact absurd rfl hnil
      | stopped _ h => exact absurd (h trivial) hnil
      | header left hne =>
        have hmoves : moves 1 left.length = true :=
          moves_eq.mpr ⟨Nat.one_pos, List.length_pos_iff.mpr hne⟩
        exact ⟨.serverSends 1, _, rfl, if_pos hmoves⟩
      | data _ hne =>
        have hmoves : moves 1 left.length = true :=
          moves_eq.mpr ⟨Nat.one_pos, List.length_pos_iff.mpr hne⟩
        exact ⟨.serverSends 1, _, rfl, if_pos hmoves⟩

/-! ## Calls -/

/-- Between two calls neither of the parties has given up in the middle of one. -/
theorem Stage.of_idle {alive : Prop} (h : Stage alive s) (hclient : s.client = .idle) :
    Stage True s := by
  cases h with
  | idle _ hserver htoServer htoClient hcalls hresults =>
    exact .idle hclient hserver htoServer htoClient hcalls hresults
  | requested _ _ _ _ h =>
    rw [hclient] at h
    cases h
  | serving _ _ h =>
    rw [hclient] at h
    rcases h with h | ⟨-, h⟩ <;> cases h
  | replied _ _ _ _ _ h =>
    rw [hclient] at h
    cases h

/-- Between two calls, what has returned and the state behind the server are those of the service
by itself. -/
theorem Stage.at_idle {alive : Prop} {driver : σ} (h : Stage alive s) (hran : Ran S driver s)
    (hclient : s.client = .idle) :
    s.driver = S.leaves s.closed (S.run driver s.calls).1 ∧
      (S.run driver s.calls).2 = s.served.map Prod.snd ∧
      s.results = (s.served.map Prod.snd).map Reply.result := by
  cases h with
  | idle _ _ _ _ hcalls hresults =>
    rw [hcalls, hresults, List.map_map]
    exact ⟨hran.driver, hran.replies, rfl⟩
  | requested _ _ _ _ h =>
    rw [hclient] at h
    cases h
  | serving _ _ h =>
    rw [hclient] at h
    rcases h with h | ⟨-, h⟩ <;> cases h
  | replied _ _ _ _ _ h =>
    rw [hclient] at h
    cases h

theorem work_calls {a : Action} (ha : a.work = true) (hstep : step S s a = some t) :
    t.calls = s.calls := by
  cases a with
  | serverServes =>
    obtain ⟨c, -, rfl⟩ := serverServes_eq hstep
    rfl
  | serverCloses =>
    obtain ⟨-, -, rfl⟩ := serverCloses_eq hstep
    rfl
  | begins | clientFails | serverFails => cases ha
  | _ => exact (transfer_keeps rfl hstep).calls

/-- What is so during a call that neither party has given up. -/
def Calling (S : Service σ) (driver : σ) (calls : List Request) (s : State σ) : Prop :=
  Stage True s ∧ Ran S driver s ∧ s.calls = calls

theorem Calling.works {driver : σ} {calls : List Request} {a : Action}
    (h : Calling S driver calls s) (ha : a.work = true) (hstep : step S s a = some t) :
    Calling S driver calls t :=
  ⟨h.1.works ha hstep, h.2.1.step hstep, (work_calls ha hstep).trans h.2.2⟩

/-- **A call returns.**  A call on a connection whose server runs ends, in whatever pieces and in
whatever order the two parties send and receive, as long as neither fails: with what the service
makes of it, once.  The driver is closed behind the call when the thread ends with it. -/
theorem call_returns {driver : σ} (hs : (machine S driver).Reachable s)
    (hserver : s.server ≠ .stopped) {c : Request} (hcall : step S s (.begins c) = some t) :
    (machine S driver).Inevitable (fun a => a.work = true)
      (fun u => u.client = .idle ∧ u.calls = s.calls ++ [c] ∧
        u.results = s.results ++ [(S.call s.driver c).2.result] ∧
        u.driver = S.leaves u.closed (S.call s.driver c).1) t := by
  obtain ⟨hstage, hran⟩ := stage_of_reachable hs
  obtain ⟨⟨hidle, hlen⟩, htaken⟩ := Option.ite_none_right_eq_some.mp hcall
  obtain ⟨hleft, hreplies, hresults⟩ := hstage.at_idle hran hidle
  have hopen : s.closed = false := Bool.eq_false_iff.mpr fun hclosed => hserver (hran.ended hclosed)
  rw [hopen] at hleft
  have hleft : s.driver = (S.run driver s.calls).1 := hleft
  have hbegun : Calling S driver (s.calls ++ [c]) t := by
    have hran' := hran.step hcall
    cases htaken
    have halive : (True ∧ s.server ≠ .stopped) = True := eq_true ⟨trivial, hserver⟩
    exact ⟨halive ▸ (hstage.of_idle hidle).begins hidle hlen, hran', rfl⟩
  have hends : (machine S driver).Inevitable (fun a => a.work = true)
      (fun u => u.client = .idle) t :=
    Machine.inevitable_of_measure (I := Calling S driver (s.calls ++ [c])) (State.remaining S)
      (fun _ hu hclient => hu.1.can_move hclient)
      (fun _ _ _ hu _ ha hv => .inr ⟨hu.works ha hv, hu.1.remaining ha hv⟩) hbegun
  refine (hends.and_inv (fun _ _ _ hu ha hv => hu.works ha hv) hbegun).mono ?_
  rintro u ⟨hclient, hcalling, hran', hcalls⟩
  obtain ⟨hleft', hreplies', hresults'⟩ := hcalling.at_idle hran' hclient
  rw [hcalls, S.run_concat, ← hleft] at hleft' hreplies'
  refine ⟨hclient, hcalls, ?_, hleft'⟩
  rw [hresults', ← hreplies', hreplies, List.map_append, ← hresults]
  rfl

/-- A connection on which a call has returned. -/
def returned : State Nat where
  client := .idle
  server := .receivesHeader []
  toServer := []
  toClient := []
  driver := 1
  closed := false
  calls := [⟨9, [7]⟩]
  served := [(⟨9, [7]⟩, (counting.call 0 ⟨9, [7]⟩).2)]
  results := [.answered 0 [7]]

theorem returned_of_pieces : (machine counting 0).run (opened 0)
    (pieces ++ [.serverSends 1, .clientReceives 6, .clientReceives 1]) = some returned := rfl

theorem call_returns_again :
    ∃ t, step counting returned (.begins ⟨4, []⟩) = some t ∧
      (machine counting 0).Inevitable (fun a => a.work = true)
        (fun u => u.client = .idle ∧ u.calls = returned.calls ++ [⟨4, []⟩] ∧
          u.results = returned.results ++ [(counting.call returned.driver ⟨4, []⟩).2.result] ∧
          u.driver = counting.leaves u.closed (counting.call returned.driver ⟨4, []⟩).1) t :=
  ⟨_, rfl, call_returns (S := counting) ⟨opened 0, _, rfl, returned_of_pieces⟩
    (by decide) rfl⟩

end McDaemon.Proxy.Rpc
