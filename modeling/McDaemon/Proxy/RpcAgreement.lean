/-
# McDaemon.Proxy.RpcAgreement — the server serves what the client calls, and replies to it.

Between the two parties there is at every moment one frame at most, of which the receiver has got a
part, a part is under way, and a part is still to be sent.  The three make up the frame, whichever
way the two have moved; a party that has failed leaves a part of it behind.
-/
import McDaemon.Proxy.Rpc

namespace McDaemon.Proxy.Rpc

open McDaemon.Lib
open McDaemon.Proxy.SplitWait (protocolMagic protocolVersion)

/-! ## Headers -/

theorem ofLe_le16 (n : UInt16) : ofLe (le16 n) = n.toNat := by
  have hn := n.toNat_lt
  have h8 : UInt16.toNat 8 % 16 = 8 := rfl
  simp only [le16, ofLe_cons, ofLe_nil, UInt16.toNat_toUInt8, UInt16.toNat_shiftRight,
    Nat.shiftRight_eq_div_pow, h8]
  omega

@[simp] theorem length_le16 (n : UInt16) : (le16 n).length = 2 := rfl

theorem exists_four {l : List UInt8} (h : l.length = 4) : ∃ a b c d, l = [a, b, c, d] := by
  match l, h with
  | [a, b, c, d], _ => exact ⟨a, b, c, d, rfl⟩

theorem RequestHeader.length_bytes {h : RequestHeader} (hmagic : h.magic.length = 4) :
    h.bytes.length = requestHeaderSize := by
  simp only [bytes, List.length_append, hmagic, length_le16, length_le32, requestHeaderSize]

theorem RequestHeader.ofBytes_bytes {h : RequestHeader} (hmagic : h.magic.length = 4) :
    ofBytes h.bytes = h := by
  obtain ⟨magic, version, method, length⟩ := h
  obtain ⟨a, b, c, d, rfl⟩ := exists_four hmagic
  have hversion : UInt16.ofNat (ofLe (le16 version)) = version := by
    rw [ofLe_le16, UInt16.ofNat_toNat]
  have hmethod : UInt16.ofNat (ofLe (le16 method)) = method := by
    rw [ofLe_le16, UInt16.ofNat_toNat]
  have hlength : UInt32.ofNat (ofLe (le32 length)) = length := by
    rw [ofLe_le32, UInt32.ofNat_toNat]
  change RequestHeader.mk [a, b, c, d] (.ofNat (ofLe (le16 version)))
    (.ofNat (ofLe (le16 method))) (.ofNat (ofLe (le32 length))) = _
  rw [hversion, hmethod, hlength]

theorem ResponseHeader.length_bytes {h : ResponseHeader} (hmagic : h.magic.length = 4) :
    h.bytes.length = responseHeaderSize := by
  simp only [bytes, List.length_append, hmagic, length_le16, length_le32, responseHeaderSize]

theorem ResponseHeader.ofBytes_bytes {h : ResponseHeader} (hmagic : h.magic.length = 4) :
    ofBytes h.bytes = h := by
  obtain ⟨magic, version, method, protoRc, methodRc⟩ := h
  obtain ⟨a, b, c, d, rfl⟩ := exists_four hmagic
  have hversion : UInt16.ofNat (ofLe (le16 version)) = version := by
    rw [ofLe_le16, UInt16.ofNat_toNat]
  have hmethod : UInt16.ofNat (ofLe (le16 method)) = method := by
    rw [ofLe_le16, UInt16.ofNat_toNat]
  have hproto : (UInt32.ofNat (ofLe (le32 protoRc.toUInt32))).toInt32 = protoRc := by
    rw [ofLe_le32, UInt32.ofNat_toNat, Int32.toInt32_toUInt32]
  have hrc : UInt32.ofNat (ofLe (le32 methodRc)) = methodRc := by
    rw [ofLe_le32, UInt32.ofNat_toNat]
  change ResponseHeader.mk [a, b, c, d] (.ofNat (ofLe (le16 version)))
    (.ofNat (ofLe (le16 method))) (UInt32.ofNat (ofLe (le32 protoRc.toUInt32))).toInt32
    (.ofNat (ofLe (le32 methodRc))) = _
  rw [hversion, hmethod, hproto, hrc]

/-! ## Frames -/

def Request.frame (c : Request) : List UInt8 := c.header.bytes ++ c.data

def Reply.frame (method : UInt16) (r : Reply) : List UInt8 := (r.header method).bytes ++ r.data

theorem Request.header_length {c : Request} (h : c.data.length < sizeLimit) :
    c.header.length.toNat = c.data.length := by
  have hlimit : sizeLimit < 2 ^ 32 := by decide
  rw [header, UInt32.toNat_ofNat', Nat.mod_eq_of_lt (Nat.lt_trans h hlimit)]

/-- Of two ways to cut a list, the front of the same length is the same. -/
theorem cut_eq {α : Type} {a b c d : List α} (h : a ++ b = c ++ d) (hlen : a.length = c.length) :
    a = c ∧ b = d :=
  List.append_inj h hlen

section Parts

/-! Unless both parties are alive, one of them may have stopped anywhere. -/

variable (alive : Prop)

/-- What the server has got of a request. -/
inductive ServerGot (c : Request) : ServerPhase → List UInt8 → Prop
  | header (got : List UInt8) (h : got.length < requestHeaderSize) :
      ServerGot c (.receivesHeader got) got
  | data (got : List UInt8) (h : got.length < c.data.length) :
      ServerGot c (.receivesData c.header got) (c.header.bytes ++ got)
  | stopped (got : List UInt8) (h : ¬ alive) : ServerGot c .stopped got

/-- What the client has left to send of a request. -/
inductive ClientLeft (c : Request) : ClientPhase → List UInt8 → Prop
  | header (left : List UInt8) (h : left ≠ []) :
      ClientLeft c (.sendsHeader left c.data) (left ++ c.data)
  | data (left : List UInt8) (h : left ≠ []) : ClientLeft c (.sendsData left) left
  | sent : ClientLeft c (.receivesHeader []) []
  | dead (left : List UInt8) (h : ¬ alive) : ClientLeft c .dead left

/-- What the client has got of a reply. -/
inductive ClientGot (method : UInt16) (r : Reply) : ClientPhase → List UInt8 → Prop
  | header (got : List UInt8) (h : got.length < responseHeaderSize) :
      ClientGot method r (.receivesHeader got) got
  | data (got : List UInt8) (h : got.length < r.data.length) :
      ClientGot method r (.receivesData (r.header method) got) ((r.header method).bytes ++ got)
  | dead (got : List UInt8) (h : ¬ alive) : ClientGot method r .dead got

/-- What the server has left to send of a reply.  Behind the reply it may stop for another reason:
the driver has been closed. -/
inductive ServerLeft (r : Reply) : ServerPhase → List UInt8 → Prop
  | header (left : List UInt8) (h : left ≠ []) :
      ServerLeft r (.sendsHeader left r.data) (left ++ r.data)
  | data (left : List UInt8) (h : left ≠ []) : ServerLeft r (.sendsData left) left
  | sent : ServerLeft r (.receivesHeader []) []
  | stopped (left : List UInt8) (h : alive → left = []) : ServerLeft r .stopped left

end Parts

variable {alive : Prop}

theorem ClientLeft.of_nil {c : Request} {phase : ClientPhase} (h : ClientLeft alive c phase []) :
    phase = .receivesHeader [] ∨ ¬ alive ∧ phase = .dead := by
  generalize hleft : ([] : List UInt8) = left at h
  cases h with
  | header left hne => exact absurd (List.append_eq_nil_iff.mp hleft.symm).1 hne
  | data _ hne => exact absurd hleft.symm hne
  | sent => exact .inl rfl
  | dead _ h => exact .inr ⟨h, rfl⟩

theorem ServerLeft.of_nil {r : Reply} {phase : ServerPhase} (h : ServerLeft alive r phase []) :
    phase = .receivesHeader [] ∨ phase = .stopped := by
  generalize hleft : ([] : List UInt8) = left at h
  cases h with
  | header left hne => exact absurd (List.append_eq_nil_iff.mp hleft.symm).1 hne
  | data _ hne => exact absurd hleft.symm hne
  | sent => exact .inl rfl
  | stopped => exact .inr rfl

theorem ClientLeft.sendingData (c : Request) (left : List UInt8) :
    ClientLeft alive c (.sendingData left) left := by
  unfold ClientPhase.sendingData
  split_ifs with h
  · rw [h]
    exact .sent
  · exact .data left h

theorem ClientLeft.sendingHeader (c : Request) (left : List UInt8) :
    ClientLeft alive c (.sendingHeader left c.data) (left ++ c.data) := by
  unfold ClientPhase.sendingHeader
  split_ifs with h
  · rw [h]
    exact .sendingData c c.data
  · exact .header left h

theorem ServerLeft.sendingData (r : Reply) (isOpen : Bool) (left : List UInt8) :
    ServerLeft alive r (.sendingData isOpen left) left := by
  unfold ServerPhase.sendingData
  split_ifs with h hopen
  · rw [h]
    exact .sent
  · exact .stopped left fun _ => h
  · exact .data left h

theorem ServerLeft.sendingHeader (r : Reply) (isOpen : Bool) (left : List UInt8) :
    ServerLeft alive r (.sendingHeader isOpen left r.data) (left ++ r.data) := by
  unfold ServerPhase.sendingHeader
  split_ifs with h
  · rw [h]
    exact .sendingData r isOpen r.data
  · exact .header left h

/-- The server goes on with the data, or it has all of the request. -/
theorem ServerGot.receivingData {c : Request} (hc : c.data.length < sizeLimit)
    {got rest : List UInt8} (h : got ++ rest = c.data) :
    ServerGot alive c (.receivingData c.header got) (c.header.bytes ++ got) ∨
      ServerPhase.receivingData c.header got = .serves c.method c.data ∧ rest = [] := by
  have hlen := congrArg List.length h
  rw [List.length_append] at hlen
  unfold ServerPhase.receivingData
  rw [Request.header_length hc]
  split_ifs with hmore
  · exact .inl (.data got hmore)
  · have hrest : rest = [] := List.eq_nil_of_length_eq_zero (by omega)
    rw [hrest, List.append_nil] at h
    rw [h]
    exact .inr ⟨rfl, hrest⟩

/-- The server goes on with the header or with the data, or it has all of the request. -/
theorem ServerGot.receivingHeader {c : Request} (hc : c.data.length < sizeLimit)
    {got rest : List UInt8} (hgot : got.length ≤ requestHeaderSize) (h : got ++ rest = c.frame) :
    ServerGot alive c (.receivingHeader got) got ∨
      ServerPhase.receivingHeader got = .serves c.method c.data ∧ rest = [] := by
  unfold ServerPhase.receivingHeader
  split_ifs with hmore
  · exact .inl (.header got hmore)
  · have hmagic : c.header.magic.length = 4 := rfl
    obtain ⟨hheader, hrest⟩ := cut_eq h
      ((RequestHeader.length_bytes hmagic).symm ▸ Nat.le_antisymm hgot (Nat.not_lt.mp hmore))
    subst hheader
    rw [RequestHeader.ofBytes_bytes hmagic]
    have hdata := @ServerGot.receivingData alive c hc [] rest hrest
    rw [List.append_nil] at hdata
    exact hdata

/-- The client goes on with the data, or the call returns. -/
theorem ClientGot.receivingData {method : UInt16} {r : Reply} (hr : ¬ r.protoRc < 0)
    {got rest : List UInt8} (h : got ++ rest = r.data) :
    ClientGot alive method r (ClientPhase.receivingData (r.header method) got).1
        ((r.header method).bytes ++ got) ∧
        (ClientPhase.receivingData (r.header method) got).2 = none ∨
      ClientPhase.receivingData (r.header method) got = (.idle, some r.result) ∧ rest = [] := by
  have hlen := congrArg List.length h
  rw [List.length_append] at hlen
  have hdata := r.length_data
  have hnonneg : 0 ≤ r.protoRc.toInt := by
    rw [Int32.lt_iff_toInt_lt] at hr
    exact Int.not_lt.mp hr
  have hrc : (r.header method).protoRc = r.protoRc := rfl
  unfold ClientPhase.receivingData
  rw [hrc]
  by_cases hmore : (got.length : Int) < r.protoRc.toInt
  · rw [if_pos hmore]
    exact .inl ⟨.data got (by omega), rfl⟩
  · rw [if_neg hmore]
    have hrest : rest = [] := List.eq_nil_of_length_eq_zero (by omega)
    rw [hrest, List.append_nil] at h
    rw [h, Reply.result, if_neg hr]
    exact .inr ⟨rfl, hrest⟩

/-- The client goes on with the header or with the data, or the call returns. -/
theorem ClientGot.receivingHeader {method : UInt16} {r : Reply} {got rest : List UInt8}
    (hgot : got.length ≤ responseHeaderSize) (h : got ++ rest = r.frame method) :
    ClientGot alive method r (ClientPhase.receivingHeader got).1 got ∧
        (ClientPhase.receivingHeader got).2 = none ∨
      ClientPhase.receivingHeader got = (.idle, some r.result) ∧ rest = [] := by
  unfold ClientPhase.receivingHeader
  by_cases hmore : got.length < responseHeaderSize
  · rw [if_pos hmore]
    exact .inl ⟨.header got hmore, rfl⟩
  · rw [if_neg hmore]
    have hmagic : (r.header method).magic.length = 4 := rfl
    obtain ⟨hheader, hrest⟩ := cut_eq h
      ((ResponseHeader.length_bytes hmagic).symm ▸ Nat.le_antisymm hgot (Nat.not_lt.mp hmore))
    subst hheader
    rw [ResponseHeader.ofBytes_bytes hmagic]
    have hm : (r.header method).magic = protocolMagic := rfl
    have hv : (r.header method).version = protocolVersion := rfl
    have hrc : (r.header method).protoRc = r.protoRc := rfl
    dsimp only
    rw [if_neg (fun h => h hm), if_neg (fun h => h hv), hrc]
    by_cases hr : r.protoRc < 0
    · have hdata := r.length_data
      have hneg : r.protoRc.toInt < 0 := Int32.lt_iff_toInt_lt.mp hr
      rw [if_pos hr, Reply.result, if_pos hr]
      refine .inr ⟨rfl, ?_⟩
      rw [hrest]
      exact List.eq_nil_of_length_eq_zero (by omega)
    · rw [if_neg hr]
      have hdata := @ClientGot.receivingData alive method r hr [] rest hrest
      rw [List.append_nil] at hdata
      exact hdata

/-! ## Stages -/

variable {σ : Type}

/-- How far the call under way has come.  What was called before it has been served and has
returned. -/
inductive Stage (alive : Prop) (s : State σ) : Prop
  | idle (hclient : s.client = .idle)
      (hserver : s.server = .receivesHeader [] ∨ s.server = .stopped)
      (htoServer : s.toServer = []) (htoClient : s.toClient = [])
      (hcalls : s.calls = s.served.map Prod.fst)
      (hresults : s.results = s.served.map fun x => x.2.result)
  | requested (c : Request) (got left : List UInt8) (hlen : c.data.length < sizeLimit)
      (hclient : ClientLeft alive c s.client left) (hserver : ServerGot alive c s.server got)
      (hframe : got ++ s.toServer ++ left = c.frame) (htoClient : s.toClient = [])
      (hcalls : s.calls = s.served.map Prod.fst ++ [c])
      (hresults : s.results = s.served.map fun x => x.2.result)
  | serving (c : Request) (hlen : c.data.length < sizeLimit)
      (hclient : s.client = .receivesHeader [] ∨ ¬ alive ∧ s.client = .dead)
      (hserver : s.server = .serves c.method c.data)
      (htoServer : s.toServer = []) (htoClient : s.toClient = [])
      (hcalls : s.calls = s.served.map Prod.fst ++ [c])
      (hresults : s.results = s.served.map fun x => x.2.result)
  | replied (served : List (Request × Reply)) (c : Request) (r : Reply) (got left : List UInt8)
      (hclient : ClientGot alive c.method r s.client got)
      (hserver : ServerLeft alive r s.server left)
      (hframe : got ++ s.toClient ++ left = r.frame c.method) (htoServer : s.toServer = [])
      (hserved : s.served = served ++ [(c, r)]) (hcalls : s.calls = s.served.map Prod.fst)
      (hresults : s.results = served.map fun x => x.2.result)

variable {s t : State σ}

theorem Stage.begins {c : Request} (h : Stage alive s) (hidle : s.client = .idle)
    (hlen : c.data.length < sizeLimit) :
    Stage (alive ∧ s.server ≠ .stopped)
      { s with client := .sendingHeader c.header.bytes c.data, calls := s.calls ++ [c] } := by
  obtain ⟨client, server, toServer, toClient, driver, closed, calls, served, results⟩ := s
  subst hidle
  cases h with
  | idle _ hserver htoServer htoClient hcalls hresults =>
    dsimp only at hserver htoServer htoClient hcalls hresults
    subst htoServer htoClient hcalls hresults
    refine .requested c [] c.frame hlen (.sendingHeader c c.header.bytes) ?_ rfl rfl rfl rfl
    rcases hserver with rfl | rfl
    · exact .header [] (by decide)
    · exact .stopped [] fun h => h.2 rfl
  | requested _ _ _ _ hclient => cases hclient
  | serving _ _ hclient => rcases hclient with hclient | ⟨-, hclient⟩ <;> cases hclient
  | replied _ _ _ _ _ hclient => cases hclient

theorem Stage.clientSends {n : Nat} (h : Stage alive s) (hstep : clientSends s n = some t) :
    Stage alive t := by
  obtain ⟨client, server, toServer, toClient, driver, closed, calls, served, results⟩ := s
  cases h with
  | idle hclient => subst hclient; cases hstep
  | serving _ _ hclient =>
    rcases hclient with hclient | ⟨-, hclient⟩ <;> cases hclient <;> cases hstep
  | replied _ _ _ _ _ hclient => cases hclient <;> cases hstep
  | requested c got left hlen hclient hserver hframe htoClient hcalls hresults =>
    dsimp only at hframe
    cases hclient with
    | sent => cases hstep
    | dead => cases hstep
    | header left =>
      obtain ⟨-, hstep⟩ := Option.ite_none_right_eq_some.mp hstep
      cases hstep
      refine .requested c got (left.drop n ++ c.data) hlen (.sendingHeader c (left.drop n)) hserver
        ?_ htoClient hcalls hresults
      calc got ++ (toServer ++ left.take n) ++ (left.drop n ++ c.data)
          = got ++ toServer ++ (left.take n ++ left.drop n ++ c.data) := by
            simp only [List.append_assoc]
        _ = c.frame := by rw [List.take_append_drop, hframe]
    | data =>
      obtain ⟨-, hstep⟩ := Option.ite_none_right_eq_some.mp hstep
      cases hstep
      refine .requested c got (left.drop n) hlen (.sendingData c (left.drop n)) hserver
        ?_ htoClient hcalls hresults
      calc got ++ (toServer ++ left.take n) ++ left.drop n
          = got ++ toServer ++ (left.take n ++ left.drop n) := by
            simp only [List.append_assoc]
        _ = c.frame := by rw [List.take_append_drop, hframe]

theorem moves_eq {n available : Nat} : moves n available = true ↔ 0 < n ∧ n ≤ available := by
  simp only [moves, Bool.and_eq_true, decide_eq_true_eq]

theorem not_moves_nil {n m : Nat} : ¬ moves n (min ([] : List UInt8).length m) = true := by
  rw [moves_eq, List.length_nil]
  omega

/-- The server has all of the request, or some more of it. -/
theorem Stage.receives {c : Request} {got left : List UInt8} {phase : ServerPhase}
    (hlen : c.data.length < sizeLimit) (hclient : ClientLeft alive c s.client left)
    (hnext : ServerGot alive c phase got ∨
      phase = .serves c.method c.data ∧ s.toServer ++ left = [])
    (hframe : got ++ s.toServer ++ left = c.frame) (hserver : s.server = phase)
    (htoClient : s.toClient = []) (hcalls : s.calls = s.served.map Prod.fst ++ [c])
    (hresults : s.results = s.served.map fun x => x.2.result) : Stage alive s := by
  subst hserver
  rcases hnext with hgot | ⟨hserves, hrest⟩
  · exact .requested c got left hlen hclient hgot hframe htoClient hcalls hresults
  · obtain ⟨htoServer, rfl⟩ := List.append_eq_nil_iff.mp hrest
    exact .serving c hlen hclient.of_nil hserves htoServer htoClient hcalls hresults

theorem Stage.serverReceives {n : Nat} (h : Stage alive s) (hstep : serverReceives s n = some t) :
    Stage alive t := by
  obtain ⟨client, server, toServer, toClient, driver, closed, calls, served, results⟩ := s
  cases h with
  | idle _ hserver htoServer =>
    dsimp only at hserver htoServer
    subst htoServer
    rcases hserver with rfl | rfl
    · exact absurd (Option.ite_none_right_eq_some.mp hstep).1 not_moves_nil
    · cases hstep
  | serving _ _ _ hserver => cases hserver; cases hstep
  | replied _ _ _ _ _ _ hserver _ htoServer =>
    dsimp only at htoServer
    subst htoServer
    cases hserver with
    | sent => exact absurd (Option.ite_none_right_eq_some.mp hstep).1 not_moves_nil
    | _ => cases hstep
  | requested c got left hlen hclient hserver hframe htoClient hcalls hresults =>
    dsimp only at hclient hframe htoClient hcalls hresults
    cases hserver with
    | stopped => cases hstep
    | header _ hgot =>
      obtain ⟨hmoves, hstep⟩ := Option.ite_none_right_eq_some.mp hstep
      cases hstep
      have hn := (moves_eq.mp hmoves).2
      have hle : (got ++ toServer.take n).length ≤ requestHeaderSize := by
        rw [List.length_append, List.length_take]
        omega
      have hrest : got ++ toServer.take n ++ (toServer.drop n ++ left) = c.frame := by
        rw [← hframe]
        simp only [List.append_assoc]
        rw [← List.append_assoc (toServer.take n), List.take_append_drop]
      refine .receives hlen hclient (ServerGot.receivingHeader hlen hle hrest) ?_ rfl htoClient
        hcalls hresults
      rw [List.append_assoc]
      exact hrest
    | data got hgot =>
      obtain ⟨hmoves, hstep⟩ := Option.ite_none_right_eq_some.mp hstep
      cases hstep
      rw [Request.frame, List.append_assoc, List.append_assoc, List.append_cancel_left_eq] at hframe
      have hrest : got ++ toServer.take n ++ (toServer.drop n ++ left) = c.data := by
        rw [← hframe]
        simp only [List.append_assoc]
        rw [← List.append_assoc (toServer.take n), List.take_append_drop]
      refine .receives hlen hclient (ServerGot.receivingData hlen hrest) ?_ rfl htoClient
        hcalls hresults
      rw [Request.frame, ← hrest]
      simp only [List.append_assoc]

theorem Stage.serverServes {S : Service σ} (h : Stage alive s) (hstep : serverServes S s = some t) :
    Stage alive t := by
  obtain ⟨client, server, toServer, toClient, driver, closed, calls, served, results⟩ := s
  cases h with
  | idle _ hserver => rcases hserver with hserver | hserver <;> cases hserver <;> cases hstep
  | requested _ _ _ _ _ hserver => cases hserver <;> cases hstep
  | replied _ _ _ _ _ _ hserver => cases hserver <;> cases hstep
  | serving c hlen hclient hserver htoServer htoClient hcalls hresults =>
    dsimp only at hclient hserver htoServer htoClient hcalls hresults
    subst hserver
    cases hstep
    have hgot : ClientGot alive c.method (S.call driver c).2 client [] := by
      rcases hclient with rfl | ⟨hdead, rfl⟩
      · exact .header [] (by decide)
      · exact .dead [] hdead
    have hleft : ServerLeft alive (S.call driver c).2 _ ((S.call driver c).2.frame c.method) :=
      .sendingHeader (S.call driver c).2 (S.isOpen (S.call driver c).1)
        ((S.call driver c).2.header c.method).bytes
    refine .replied served c (S.call driver c).2 [] _ hgot hleft ?_ htoServer rfl ?_ hresults
    · rw [htoClient]
      rfl
    · rw [hcalls, List.map_append]
      rfl

theorem Stage.serverSends {S : Service σ} {n : Nat} (h : Stage alive s)
    (hstep : serverSends S s n = some t) : Stage alive t := by
  obtain ⟨client, server, toServer, toClient, driver, closed, calls, served, results⟩ := s
  cases h with
  | idle _ hserver => rcases hserver with hserver | hserver <;> cases hserver <;> cases hstep
  | requested _ _ _ _ _ hserver => cases hserver <;> cases hstep
  | serving _ _ _ hserver => cases hserver; cases hstep
  | replied served c r got left hclient hserver hframe htoServer hserved hcalls hresults =>
    dsimp only at hframe
    cases hserver with
    | sent => cases hstep
    | stopped => cases hstep
    | header left =>
      obtain ⟨-, hstep⟩ := Option.ite_none_right_eq_some.mp hstep
      cases hstep
      refine .replied served c r got (left.drop n ++ r.data) hclient
        (.sendingHeader r (S.isOpen driver) (left.drop n)) ?_ htoServer hserved hcalls hresults
      calc got ++ (toClient ++ left.take n) ++ (left.drop n ++ r.data)
          = got ++ toClient ++ (left.take n ++ left.drop n ++ r.data) := by
            simp only [List.append_assoc]
        _ = r.frame c.method := by rw [List.take_append_drop, hframe]
    | data =>
      obtain ⟨-, hstep⟩ := Option.ite_none_right_eq_some.mp hstep
      cases hstep
      refine .replied served c r got (left.drop n) hclient
        (.sendingData r (S.isOpen driver) (left.drop n)) ?_ htoServer hserved hcalls hresults
      calc got ++ (toClient ++ left.take n) ++ left.drop n
          = got ++ toClient ++ (left.take n ++ left.drop n) := by
            simp only [List.append_assoc]
        _ = r.frame c.method := by rw [List.take_append_drop, hframe]

/-- The client has all of the reply and returns it, or it has some more of it. -/
theorem Stage.gets {served : List (Request × Reply)} {c : Request} {r : Reply}
    {got left : List UInt8} {next : ClientPhase × Option Result} {n : Nat}
    (hnext : ClientGot alive c.method r next.1 got ∧ next.2 = none ∨
      next = (.idle, some r.result) ∧ s.toClient.drop n ++ left = [])
    (hserver : ServerLeft alive r s.server left)
    (hframe : got ++ (s.toClient.drop n ++ left) = r.frame c.method) (htoServer : s.toServer = [])
    (hserved : s.served = served ++ [(c, r)]) (hcalls : s.calls = s.served.map Prod.fst)
    (hresults : s.results = served.map fun x => x.2.result) :
    Stage alive (s.clientGets n next) := by
  obtain ⟨phase, result⟩ := next
  rcases hnext with ⟨hgot, rfl⟩ | ⟨hdone, hrest⟩
  · refine .replied served c r got left hgot hserver ?_ htoServer hserved hcalls ?_
    · rw [← hframe, List.append_assoc]
      rfl
    · rw [← hresults]
      exact List.append_nil s.results
  · cases hdone
    obtain ⟨htoClient, rfl⟩ := List.append_eq_nil_iff.mp hrest
    refine .idle rfl hserver.of_nil htoServer htoClient hcalls ?_
    show s.results ++ [r.result] = s.served.map _
    rw [hserved, hresults, List.map_append]
    rfl

theorem Stage.clientReceives {n : Nat} (h : Stage alive s) (hstep : clientReceives s n = some t) :
    Stage alive t := by
  obtain ⟨client, server, toServer, toClient, driver, closed, calls, served, results⟩ := s
  cases h with
  | idle hclient => cases hclient; cases hstep
  | requested _ _ _ _ hclient _ _ htoClient =>
    dsimp only at htoClient
    subst htoClient
    cases hclient with
    | sent => exact absurd (Option.ite_none_right_eq_some.mp hstep).1 not_moves_nil
    | _ => cases hstep
  | serving _ _ hclient _ _ htoClient =>
    dsimp only at hclient htoClient
    subst htoClient
    rcases hclient with rfl | ⟨-, rfl⟩
    · exact absurd (Option.ite_none_right_eq_some.mp hstep).1 not_moves_nil
    · cases hstep
  | replied served c r got left hclient hserver hframe htoServer hserved hcalls hresults =>
    dsimp only at hserver hframe htoServer hserved hcalls hresults
    cases hclient with
    | dead => cases hstep
    | header _ hgot =>
      obtain ⟨hmoves, hstep⟩ := Option.ite_none_right_eq_some.mp hstep
      cases hstep
      have hn := (moves_eq.mp hmoves).2
      have hle : (got ++ toClient.take n).length ≤ responseHeaderSize := by
        rw [List.length_append, List.length_take]
        omega
      have hrest : got ++ toClient.take n ++ (toClient.drop n ++ left) = r.frame c.method := by
        rw [← hframe]
        simp only [List.append_assoc]
        rw [← List.append_assoc (toClient.take n), List.take_append_drop]
      exact .gets (ClientGot.receivingHeader hle hrest) hserver hrest htoServer hserved hcalls
        hresults
    | data got hgot =>
      obtain ⟨hmoves, hstep⟩ := Option.ite_none_right_eq_some.mp hstep
      cases hstep
      rw [Reply.frame, List.append_assoc, List.append_assoc, List.append_cancel_left_eq] at hframe
      have hrest : got ++ toClient.take n ++ (toClient.drop n ++ left) = r.data := by
        rw [← hframe]
        simp only [List.append_assoc]
        rw [← List.append_assoc (toClient.take n), List.take_append_drop]
      have hnonneg : ¬ r.protoRc < 0 := by
        have hdata := r.length_data
        rw [Int32.lt_iff_toInt_lt]
        change ¬ r.protoRc.toInt < 0
        omega
      refine .gets (ClientGot.receivingData hnonneg hrest) hserver ?_ htoServer hserved hcalls
        hresults
      rw [Reply.frame, ← hrest, List.append_assoc]

section Failed

variable {c : Request} {method : UInt16} {r : Reply} {left got : List UInt8}

theorem ServerGot.failed {phase : ServerPhase} (h : ServerGot alive c phase got) :
    ServerGot False c phase got := by
  cases h with
  | header _ h => exact .header _ h
  | data _ h => exact .data _ h
  | stopped => exact .stopped _ not_false

theorem ClientLeft.failed {phase : ClientPhase} (h : ClientLeft alive c phase left) :
    ClientLeft False c phase left := by
  cases h with
  | header _ h => exact .header _ h
  | data _ h => exact .data _ h
  | sent => exact .sent
  | dead => exact .dead _ not_false

theorem ClientGot.failed {phase : ClientPhase} (h : ClientGot alive method r phase got) :
    ClientGot False method r phase got := by
  cases h with
  | header _ h => exact .header _ h
  | data _ h => exact .data _ h
  | dead => exact .dead _ not_false

theorem ServerLeft.failed {phase : ServerPhase} (h : ServerLeft alive r phase left) :
    ServerLeft False r phase left := by
  cases h with
  | header _ h => exact .header _ h
  | data _ h => exact .data _ h
  | sent => exact .sent
  | stopped => exact .stopped _ False.elim

end Failed

/-- Once a party may have failed, it is only a party less to wait for. -/
theorem Stage.failed (h : Stage alive s) : Stage False s := by
  cases h with
  | idle hclient hserver htoServer htoClient hcalls hresults =>
    exact .idle hclient hserver htoServer htoClient hcalls hresults
  | requested c got left hlen hclient hserver hframe htoClient hcalls hresults =>
    exact .requested c got left hlen hclient.failed hserver.failed hframe htoClient hcalls hresults
  | serving c hlen hclient hserver htoServer htoClient hcalls hresults =>
    exact .serving c hlen (hclient.imp_right fun h => ⟨not_false, h.2⟩) hserver htoServer htoClient
      hcalls hresults
  | replied served c r got left hclient hserver hframe htoServer hserved hcalls hresults =>
    exact .replied served c r got left hclient.failed hserver.failed hframe htoServer hserved hcalls
      hresults

theorem Stage.serverFails (h : Stage alive s) : Stage False { s with server := .stopped } := by
  cases h.failed with
  | idle hclient _ htoServer htoClient hcalls hresults =>
    exact .idle hclient (.inr rfl) htoServer htoClient hcalls hresults
  | requested c got left hlen hclient _ hframe htoClient hcalls hresults =>
    exact .requested c got left hlen hclient (.stopped got not_false) hframe htoClient hcalls
      hresults
  | serving c hlen hclient hserver htoServer htoClient hcalls hresults =>
    refine .requested c c.frame [] hlen ?_ (.stopped _ not_false) ?_ htoClient hcalls hresults
    · rcases hclient with hclient | ⟨-, hclient⟩
      · exact hclient ▸ .sent
      · exact hclient ▸ .dead [] not_false
    · rw [htoServer, List.append_nil, List.append_nil]
  | replied served c r got left hclient _ hframe htoServer hserved hcalls hresults =>
    exact .replied served c r got left hclient (.stopped left False.elim) hframe htoServer hserved
      hcalls hresults

theorem Stage.clientFails (h : Stage alive s) (hclient : s.client ≠ .idle) :
    Stage False { s with client := .dead } := by
  cases h.failed with
  | idle hidle => exact absurd hidle hclient
  | requested c got left hlen _ hserver hframe htoClient hcalls hresults =>
    exact .requested c got left hlen (.dead left not_false) hserver hframe htoClient hcalls hresults
  | serving c hlen _ hserver htoServer htoClient hcalls hresults =>
    exact .serving c hlen (.inr ⟨not_false, rfl⟩) hserver htoServer htoClient hcalls hresults
  | replied served c r got left _ hserver hframe htoServer hserved hcalls hresults =>
    exact .replied served c r got left (.dead got not_false) hserver hframe htoServer hserved
      hcalls hresults

/-- What the two parties do by themselves. -/
def Action.work : Action → Bool
  | .begins _ | .clientFails | .serverFails => false
  | _ => true

/-- Closing the driver does not touch the call. -/
theorem Stage.serverCloses {S : Service σ} (h : Stage alive s)
    (hstep : serverCloses S s = some t) : Stage alive t := by
  cases (Option.ite_none_right_eq_some.mp hstep).2
  cases h with
  | idle hclient hserver htoServer htoClient hcalls hresults =>
    exact .idle hclient hserver htoServer htoClient hcalls hresults
  | requested c got left hlen hclient hserver hframe htoClient hcalls hresults =>
    exact .requested c got left hlen hclient hserver hframe htoClient hcalls hresults
  | serving c hlen hclient hserver htoServer htoClient hcalls hresults =>
    exact .serving c hlen hclient hserver htoServer htoClient hcalls hresults
  | replied served c r got left hclient hserver hframe htoServer hserved hcalls hresults =>
    exact .replied served c r got left hclient hserver hframe htoServer hserved hcalls hresults

theorem Stage.works {S : Service σ} {a : Action} (h : Stage alive s) (ha : a.work = true)
    (hstep : step S s a = some t) : Stage alive t := by
  cases a with
  | clientSends n => exact h.clientSends hstep
  | clientReceives n => exact h.clientReceives hstep
  | serverReceives n => exact h.serverReceives hstep
  | serverServes => exact h.serverServes hstep
  | serverSends n => exact h.serverSends hstep
  | serverCloses => exact h.serverCloses hstep
  | _ => cases ha

theorem Stage.step {S : Service σ} {a : Action} (h : Stage False s)
    (hstep : Rpc.step S s a = some t) : Stage False t := by
  cases a with
  | begins c =>
    obtain ⟨⟨hidle, hlen⟩, hstep⟩ := Option.ite_none_right_eq_some.mp hstep
    cases hstep
    exact (h.begins hidle hlen).failed
  | clientFails =>
    obtain ⟨hclient, hstep⟩ := Option.ite_none_left_eq_some.mp hstep
    cases hstep
    exact h.clientFails hclient
  | serverFails =>
    cases hstep
    exact h.serverFails
  | _ => exact h.works rfl hstep

/-! ## What has been served -/

/-- The service without a connection. -/
def Service.run (S : Service σ) : σ → List Request → σ × List Reply
  | driver, [] => (driver, [])
  | driver, c :: cs =>
    let (next, r) := S.call driver c
    let (last, rs) := S.run next cs
    (last, r :: rs)

theorem Service.run_concat (S : Service σ) (driver : σ) (cs : List Request) (c : Request) :
    S.run driver (cs ++ [c]) =
      ((S.call (S.run driver cs).1 c).1,
        (S.run driver cs).2 ++ [(S.call (S.run driver cs).1 c).2]) := by
  induction cs generalizing driver with
  | nil => rfl
  | cons x cs ih =>
    simp only [List.cons_append, Service.run, ih]

/-- What is behind the server when the methods have left `driver` there. -/
def Service.leaves (S : Service σ) (closed : Bool) (driver : σ) : σ :=
  if closed then S.close driver else driver

/-- The replies of the server are those that the service comes to by itself, and so is the state
behind it, until the thread has ended and closed the driver. -/
structure Ran (S : Service σ) (driver : σ) (s : State σ) : Prop where
  replies : (S.run driver (s.served.map Prod.fst)).2 = s.served.map Prod.snd
  driver : s.driver = S.leaves s.closed (S.run driver (s.served.map Prod.fst)).1
  ended : s.closed = true → s.server = .stopped

/-- What has been called and served and the state behind the server are the same, and a thread that
has ended has not been taken up again. -/
structure Kept (s t : State σ) : Prop where
  served : t.served = s.served
  driver : t.driver = s.driver
  closed : t.closed = s.closed
  calls : t.calls = s.calls
  stopped : s.server = .stopped → t.server = .stopped

theorem keeps_of_guard {p : Prop} [Decidable p] {u : State σ}
    (hstep : (if p then some u else none) = some t) (hu : Kept s u) : Kept s t := by
  cases (Option.ite_none_right_eq_some.mp hstep).2
  exact hu

/-- Sending and receiving bytes. -/
def Action.transfer : Action → Bool
  | .clientSends _ | .clientReceives _ | .serverReceives _ | .serverSends _ => true
  | _ => false

/-- Sending and receiving change neither what has been called and served nor the state behind the
server. -/
theorem transfer_keeps {S : Service σ} {a : Action} (ha : a.transfer = true)
    (hstep : step S s a = some t) : Kept s t := by
  cases a with
  | serverServes | serverCloses | begins | clientFails | serverFails => cases ha
  | clientSends n =>
    change clientSends s n = some t at hstep
    unfold clientSends at hstep
    split at hstep
    · exact keeps_of_guard hstep ⟨rfl, rfl, rfl, rfl, id⟩
    · exact keeps_of_guard hstep ⟨rfl, rfl, rfl, rfl, id⟩
    · cases hstep
  | clientReceives n =>
    change clientReceives s n = some t at hstep
    unfold clientReceives at hstep
    split at hstep
    · exact keeps_of_guard hstep ⟨rfl, rfl, rfl, rfl, id⟩
    · exact keeps_of_guard hstep ⟨rfl, rfl, rfl, rfl, id⟩
    · cases hstep
  | serverReceives n =>
    change serverReceives s n = some t at hstep
    unfold serverReceives at hstep
    split at hstep
    · rename_i hserver
      exact keeps_of_guard hstep ⟨rfl, rfl, rfl, rfl, fun h => nomatch hserver.symm.trans h⟩
    · rename_i hserver
      exact keeps_of_guard hstep ⟨rfl, rfl, rfl, rfl, fun h => nomatch hserver.symm.trans h⟩
    · cases hstep
  | serverSends n =>
    change serverSends S s n = some t at hstep
    unfold serverSends at hstep
    split at hstep
    · rename_i hserver
      exact keeps_of_guard hstep ⟨rfl, rfl, rfl, rfl, fun h => nomatch hserver.symm.trans h⟩
    · rename_i hserver
      exact keeps_of_guard hstep ⟨rfl, rfl, rfl, rfl, fun h => nomatch hserver.symm.trans h⟩
    · cases hstep

/-- What the server makes of serving. -/
theorem serverServes_eq {S : Service σ} (hstep : serverServes S s = some t) :
    ∃ c : Request, s.server = .serves c.method c.data ∧ t = { s with
      server := .sendingHeader (S.isOpen (S.call s.driver c).1)
        ((S.call s.driver c).2.header c.method).bytes (S.call s.driver c).2.data
      driver := (S.call s.driver c).1
      served := s.served ++ [(c, (S.call s.driver c).2)] } := by
  unfold serverServes at hstep
  split at hstep
  · rename_i method buffer hserver
    cases hstep
    exact ⟨⟨method, buffer⟩, hserver, rfl⟩
  · cases hstep

theorem serverCloses_eq {S : Service σ} (hstep : serverCloses S s = some t) :
    s.server = .stopped ∧ s.closed = false ∧
      t = { s with driver := S.close s.driver, closed := true } := by
  obtain ⟨⟨hserver, hclosed⟩, ht⟩ := Option.ite_none_right_eq_some.mp hstep
  exact ⟨hserver, hclosed, (Option.some.inj ht).symm⟩

theorem Ran.of_kept {S : Service σ} {driver : σ} (h : Ran S driver s) (hkept : Kept s t) :
    Ran S driver t := by
  obtain ⟨hserved, hdriver, hclosed, -, hstopped⟩ := hkept
  refine ⟨?_, ?_, fun hc => hstopped (h.ended (hclosed ▸ hc))⟩
  · rw [hserved]
    exact h.replies
  · rw [hserved, hdriver, hclosed]
    exact h.driver

/-- A thread that serves has not closed the driver. -/
theorem Ran.open_of_serves {S : Service σ} {driver : σ} (h : Ran S driver s) {method : UInt16}
    {data : List UInt8} (hserver : s.server = .serves method data) : s.closed = false := by
  cases hclosed : s.closed with
  | false => rfl
  | true =>
    rw [h.ended hclosed] at hserver
    cases hserver

theorem Ran.serves {S : Service σ} {driver : σ} (h : Ran S driver s)
    (hstep : serverServes S s = some t) : Ran S driver t := by
  obtain ⟨c, hserver, rfl⟩ := serverServes_eq hstep
  have hopen := h.open_of_serves hserver
  have hdriver := h.driver
  rw [hopen] at hdriver
  have hdriver : s.driver = (S.run driver (s.served.map Prod.fst)).1 := hdriver
  refine ⟨?_, ?_, fun hclosed => absurd (hopen.symm.trans hclosed) nofun⟩
  · rw [List.map_append, List.map_append, List.map_singleton, List.map_singleton, S.run_concat,
      h.replies, ← hdriver]
  · rw [List.map_append, List.map_singleton, S.run_concat, ← hdriver]
    dsimp only
    rw [hopen]
    rfl

theorem Ran.closes {S : Service σ} {driver : σ} (h : Ran S driver s)
    (hstep : serverCloses S s = some t) : Ran S driver t := by
  obtain ⟨hserver, hopen, rfl⟩ := serverCloses_eq hstep
  have hdriver := h.driver
  rw [hopen] at hdriver
  exact ⟨h.replies, congrArg S.close hdriver, fun _ => hserver⟩

theorem Ran.step {S : Service σ} {driver : σ} {a : Action} (h : Ran S driver s)
    (hstep : Rpc.step S s a = some t) : Ran S driver t := by
  cases a with
  | begins c =>
    cases (Option.ite_none_right_eq_some.mp hstep).2
    exact ⟨h.replies, h.driver, h.ended⟩
  | clientFails =>
    cases (Option.ite_none_left_eq_some.mp hstep).2
    exact ⟨h.replies, h.driver, h.ended⟩
  | serverFails =>
    cases hstep
    exact ⟨h.replies, h.driver, fun _ => rfl⟩
  | serverServes => exact h.serves hstep
  | serverCloses => exact h.closes hstep
  | _ => exact h.of_kept (transfer_keeps rfl hstep)

theorem stage_of_reachable {S : Service σ} {driver : σ} (h : (machine S driver).Reachable s) :
    Stage False s ∧ Ran S driver s := by
  obtain ⟨s₀, as, rfl, hrun⟩ := h
  have hstep : ∀ s a t, (Stage False s ∧ Ran S driver s) → True → step S s a = some t →
      Stage False t ∧ Ran S driver t :=
    fun _ _ _ h _ hstep => ⟨h.1.step hstep, h.2.step hstep⟩
  have hopened : Stage False (opened driver) ∧ Ran S driver (opened driver) :=
    ⟨.idle rfl (.inl rfl) rfl rfl rfl rfl, ⟨rfl, rfl, nofun⟩⟩
  exact (machine S driver).inv_of_run hstep hopened (Machine.runMeets_true _ _ as) hrun

/-- **The server serves what the client calls.**  However the bytes of the two are cut and whichever
of them fails, the server has served the calls in their order, each once and none twice, with the
replies of the service by itself and its state behind the server, closed once the thread has ended;
what has returned are the replies in their order; and at most one call is under way.  Between two
calls every call has been served and has returned. -/
theorem agreement {S : Service σ} {driver : σ} (h : (machine S driver).Reachable s) :
    s.served.map Prod.fst <+: s.calls ∧
      (S.run driver (s.served.map Prod.fst)).2 = s.served.map Prod.snd ∧
      s.driver = S.leaves s.closed (S.run driver (s.served.map Prod.fst)).1 ∧
      (s.closed = true → s.server = .stopped) ∧
      s.results <+: s.served.map (fun x => x.2.result) ∧
      s.calls.length ≤ s.results.length + 1 ∧
      (s.client = .idle → s.results = (S.run driver s.calls).2.map Reply.result) := by
  obtain ⟨hstage, hran⟩ := stage_of_reachable h
  refine ⟨?_, hran.replies, hran.driver, hran.ended, ?_⟩
  · cases hstage with
    | idle _ _ _ _ hcalls | replied _ _ _ _ _ _ _ _ _ _ hcalls => exact hcalls ▸ List.prefix_rfl
    | requested _ _ _ _ _ _ _ _ hcalls | serving _ _ _ _ _ _ hcalls =>
      exact hcalls ▸ List.prefix_append _ _
  cases hstage with
  | idle _ _ _ _ hcalls hresults =>
    refine ⟨hresults ▸ List.prefix_rfl, ?_, fun _ => ?_⟩
    · rw [hcalls, hresults, List.length_map, List.length_map]
      exact Nat.le_succ _
    · rw [hcalls, hran.replies, hresults, List.map_map]
      rfl
  | requested c _ _ _ hclient _ _ _ hcalls hresults =>
    refine ⟨hresults ▸ List.prefix_rfl, ?_, fun hidle => ?_⟩
    · rw [hcalls, hresults, List.length_append, List.length_map, List.length_map]
      exact Nat.le_refl _
    · rw [hidle] at hclient
      cases hclient
  | serving c _ hclient _ _ _ hcalls hresults =>
    refine ⟨hresults ▸ List.prefix_rfl, ?_, fun hidle => ?_⟩
    · rw [hcalls, hresults, List.length_append, List.length_map, List.length_map]
      exact Nat.le_refl _
    · rw [hidle] at hclient
      rcases hclient with hclient | ⟨-, hclient⟩ <;> cases hclient
  | replied served c r _ _ hclient _ _ _ hserved hcalls hresults =>
    refine ⟨?_, ?_, fun hidle => ?_⟩
    · rw [hresults, hserved, List.map_append]
      exact List.prefix_append _ _
    · rw [hcalls, hresults, hserved, List.length_map, List.length_map, List.length_append]
      exact Nat.le_refl _
    · rw [hidle] at hclient
      cases hclient

/-- A service that counts its calls and replies with a byte; it is back at 0 when it is closed. -/
def counting : Service Nat where
  call n _ := (n + 1, ⟨1, 0, [7], rfl⟩)
  isOpen _ := true
  close _ := 0

/-- A request that is sent and received in pieces, and a reply of which the client has got some. -/
def pieces : List Action :=
  [.begins ⟨9, [7]⟩, .clientSends 5, .serverReceives 3, .clientSends 7, .serverReceives 2,
    .serverReceives 7, .clientSends 1, .serverReceives 1, .serverServes, .serverSends 16,
    .clientReceives 10]

theorem agreement_pieces :
    ∃ s : State Nat, (machine counting 0).run (opened 0) pieces = some s ∧
      s.served.map Prod.fst <+: s.calls ∧
      (counting.run 0 (s.served.map Prod.fst)).2 = s.served.map Prod.snd ∧
      s.driver = counting.leaves s.closed (counting.run 0 (s.served.map Prod.fst)).1 ∧
      (s.closed = true → s.server = .stopped) ∧
      s.results <+: s.served.map (fun x => x.2.result) ∧
      s.calls.length ≤ s.results.length + 1 ∧
      (s.client = .idle → s.results = (counting.run 0 s.calls).2.map Reply.result) :=
  ⟨_, rfl, agreement (S := counting) ⟨opened 0, pieces, rfl, rfl⟩⟩

end McDaemon.Proxy.Rpc
