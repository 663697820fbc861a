/-
# McDaemon.Proxy.RpcMessages — the methods over a connection are the methods of the server.

The client serializes its requests and parses the responses, the server parses the requests and
serializes its responses, and between them are the bytes of a connection.  What the client gets is
what the methods of the server return when they are given the requests themselves.
-/
import McDaemon.Proxy.RoundTrips
import McDaemon.Proxy.RpcProgress

namespace McDaemon.Proxy.Rpc

open McDaemon.Lib
open McDaemon.Proxy.Messages

/-- The values of `RpcMethod`. -/
def number : RpcMethod → UInt16
  | .openSession => 0
  | .openTrustlet => 1
  | .closeSession => 2
  | .notify => 3
  | .wait => 4
  | .map => 5
  | .unmap => 6
  | .getError => 7
  | .getVersion => 9
  | .gpRequestCancellation => 27

/-- The cases of the `switch` in `ServerConnection::call`. -/
def ofNumber (n : UInt16) : Option RpcMethod :=
  if n = 0 then some .openSession
  else if n = 1 then some .openTrustlet
  else if n = 2 then some .closeSession
  else if n = 3 then some .notify
  else if n = 4 then some .wait
  else if n = 5 then some .map
  else if n = 6 then some .unmap
  else if n = 7 then some .getError
  else if n = 9 then some .getVersion
  else if n = 27 then some .gpRequestCancellation
  else none

theorem ofNumber_number (method : RpcMethod) : ofNumber (number method) = some method := by
  cases method <;> rfl

def EPIPE : Int32 := 32

/-- What a method of `ServerConnection` comes to: a protocol error, or the return code of the driver
with a response or without one. -/
inductive Answer (method : RpcMethod) where
  | refused (protoRc : Int32) (h : protoRc < 0)
  | done (methodRc : UInt32) (response : Option (Message .response method))

variable (R : Runtime)

theorem length_ofNat {n : Nat} (h : n < sizeLimit) : (Int32.ofNat n).toInt = n :=
  Int32.toInt_ofNat_of_lt h

/-- A protocol error has no data. -/
def Reply.refusal (protoRc : Int32) (methodRc : UInt32) (h : protoRc < 0) : Reply where
  protoRc := protoRc
  methodRc := methodRc
  data := []
  length_data := by
    have hneg : protoRc.toInt < 0 := Int32.lt_iff_toInt_lt.mp h
    rw [List.length_nil]
    omega

theorem sizeLimit_pos : ([] : List UInt8).length < sizeLimit := by decide

/-- A response that has been serialized. -/
def Reply.response (methodRc : UInt32) (data : List UInt8) (h : data.length < sizeLimit) :
    Reply where
  protoRc := .ofNat data.length
  methodRc := methodRc
  data := data
  length_data := by
    rw [length_ofNat h]
    rfl

theorem Reply.result_refusal {protoRc : Int32} (methodRc : UInt32) (h : protoRc < 0) :
    (refusal protoRc methodRc h).result = .protocolError (-protoRc) := if_pos h

theorem Reply.result_response (methodRc : UInt32) {data : List UInt8}
    (h : data.length < sizeLimit) : (response methodRc data h).result = .answered methodRc data := by
  have hnonneg : ¬ Int32.ofNat data.length < 0 := by
    rw [Int32.lt_iff_toInt_lt, length_ofNat h, Int32.toInt_zero]
    exact Int.not_lt.mpr (Int.natCast_nonneg _)
  exact if_neg hnonneg

/-- The reply to a request.  A response that is too long is not serialized. -/
def Answer.reply {method : RpcMethod} : Answer method → Reply
  | .refused protoRc h => .refusal protoRc 0 h
  | .done methodRc none => .response methodRc [] sizeLimit_pos
  | .done methodRc (some m) =>
    if h : (serializeToString R .response method m).length < sizeLimit then
      .response methodRc (serializeToString R .response method m) h
    else .refusal (-EPIPE) methodRc (by decide)

/-- The methods of `ServerConnection`, which get the request unless it cannot be parsed. -/
abbrev Methods (σ : Type) : Type :=
  σ → (method : RpcMethod) → Option (Message .request method) → σ × Answer method

variable {σ : Type}

/-- `ServerConnection::call`, with what it is for the driver to be open and to be closed. -/
def service (methods : Methods σ) (isOpen : σ → Bool) (close : σ → σ) : Service σ where
  call driver c :=
    match ofNumber c.method with
    | some method =>
      let (next, answer) := methods driver method (parseFromString R .request method c.data)
      (next, answer.reply R)
    | none => (driver, .refusal (-1) 0 (by decide))
  isOpen := isOpen
  close := close

/-- A call of the client, before its request is serialized. -/
structure Call where
  method : RpcMethod
  request : Message .request method

def Call.encode (c : Call) : Request :=
  ⟨number c.method, serializeToString R .request c.method c.request⟩

/-- What `ClientConnection::call` comes to. -/
inductive Outcome (method : RpcMethod) where
  | protocolError (errno : Int32)
  | unparsed
  | returned (methodRc : UInt32) (response : Message .response method)

/-- The response is parsed unless there are no bytes of it; then it stays as it has been made. -/
def Result.outcome (method : RpcMethod) : Result → Outcome method
  | .protocolError errno => .protocolError errno
  | .answered methodRc data =>
    if data = [] then .returned methodRc (cls R .response method).empty
    else
      match parseFromString R .response method data with
      | some m => .returned methodRc m
      | none => .unparsed

/-- What a method of the server comes to for a client that calls it without a connection.  A response
that is too long for a reader comes to what a reader makes of it. -/
def Answer.outcome {method : RpcMethod} : Answer method → Outcome method
  | .refused protoRc _ => .protocolError (-protoRc)
  | .done methodRc none => .returned methodRc (cls R .response method).empty
  | .done methodRc (some m) =>
    if byteSize R .response method m < wireLimit then .returned methodRc m
    else ((Answer.done methodRc (some m)).reply R).result.outcome R method

/-- The calls one after another, without a connection. -/
def direct (methods : Methods σ) : σ → List Call → σ × List ((method : RpcMethod) × Outcome method)
  | driver, [] => (driver, [])
  | driver, c :: cs =>
    let (next, answer) := methods driver c.method (some c.request)
    let (last, outcomes) := direct methods next cs
    (last, ⟨c.method, answer.outcome R⟩ :: outcomes)

/-! ## The bytes do not matter -/

/-- Messages that can go over a connection: made by the program, or read, and complete. -/
def Sendable (side : Side) (method : RpcMethod) (m : Message side method) : Prop :=
  Genuine R side method m ∧ isInitialized R side method m = true

variable {R}

/-- A response, serialized, sent, received and parsed. -/
theorem outcome_reply (hR : R.Documented) {method : RpcMethod} {answer : Answer method}
    (hsend : ∀ rc m, answer = .done rc (some m) → Sendable R .response method m) :
    (answer.reply R).result.outcome R method = answer.outcome R := by
  cases answer with
  | refused protoRc h =>
    rw [Answer.reply, Reply.result_refusal]
    rfl
  | done methodRc response =>
    cases response with
    | none =>
      rw [Answer.reply, Reply.result_response]
      rfl
    | some m =>
      obtain ⟨hm, hinit⟩ := hsend methodRc m rfl
      have hsize := MessageClass.byteSize_eq (cls_lawful hR .response method) m
      change byteSize R .response method m =
        (serializeToString R .response method m).length at hsize
      rw [Answer.outcome, hsize]
      by_cases hlen : (serializeToString R .response method m).length < wireLimit
      · have hserialized : (serializeToString R .response method m).length < sizeLimit :=
          Nat.lt_of_lt_of_le hlen (by decide)
        have hparse : parseFromString R .response method (serializeToString R .response method m) =
            some m :=
          MessageClass.parse_serialize hR.streams (cls_lawful hR .response method) hm hinit hlen
        rw [if_pos hlen, Answer.reply, dif_pos hserialized, Reply.result_response, Result.outcome]
        split_ifs with hnil
        · rw [hnil] at hparse
          rw [MessageClass.eq_empty_of_parse_nil hR.streams
            (cls_lawful hR .response method).readable hparse]
        · rw [hparse]
      · rw [if_neg hlen]

/-- The request can be sent, and a reader reads it. -/
def Call.Readable (R : Runtime) (c : Call) : Prop :=
  Sendable R .request c.method c.request ∧ byteSize R .request c.method c.request < wireLimit

/-- A request, serialized, sent, received and parsed, and its response. -/
theorem service_call (hR : R.Documented) {methods : Methods σ} {isOpen : σ → Bool} {close : σ → σ}
    {c : Call} (hc : c.Readable R) (driver : σ) :
    (service R methods isOpen close).call driver (c.encode R) =
      ((methods driver c.method (some c.request)).1,
        (methods driver c.method (some c.request)).2.reply R) := by
  obtain ⟨⟨hm, hinit⟩, hlen⟩ := hc
  have hsize := MessageClass.byteSize_eq (cls_lawful hR .request c.method) c.request
  change byteSize R .request c.method c.request = (c.encode R).data.length at hsize
  rw [hsize] at hlen
  have hnumber : ofNumber (c.encode R).method = some c.method := ofNumber_number c.method
  have hdata : parseFromString R .request c.method (c.encode R).data = some c.request :=
    MessageClass.parse_serialize hR.streams (cls_lawful hR .request c.method) hm hinit hlen
  unfold service
  dsimp only
  rw [hnumber]
  dsimp only
  rw [hdata]

/-- The responses of the methods can all be sent. -/
def Methods.Send (R : Runtime) (methods : Methods σ) : Prop :=
  ∀ driver method request rc m, (methods driver method request).2 = .done rc (some m) →
    Sendable R .response method m

theorem run_encode (hR : R.Documented) {methods : Methods σ} {isOpen : σ → Bool} {close : σ → σ}
    (hmethods : methods.Send R) (cs : List Call) (hcs : ∀ c ∈ cs, c.Readable R) (driver : σ) :
    (((service R methods isOpen close).run driver (cs.map (Call.encode R))).1,
      List.zipWith (fun (c : Call) (r : Reply) => (⟨c.method, r.result.outcome R c.method⟩ :
        (method : RpcMethod) × Outcome method)) cs
        ((service R methods isOpen close).run driver (cs.map (Call.encode R))).2) =
      direct R methods driver cs := by
  induction cs generalizing driver with
  | nil => rfl
  | cons c cs ih =>
    have hrest := ih (fun c hc => hcs c (List.mem_cons_of_mem _ hc))
      (methods driver c.method (some c.request)).1
    obtain ⟨hdriver, houtcomes⟩ := Prod.mk.inj hrest
    have hoc := outcome_reply hR (hmethods driver c.method (some c.request))
    simp only [List.map_cons, Service.run, service_call hR (hcs c List.mem_cons_self) driver,
      List.zipWith_cons_cons, direct]
    rw [hdriver, houtcomes, hoc]

/-- **The connection is transparent.**  Between two calls, the client has got from its calls what the
methods of the server come to when they are called with the requests one after another, and the
server is where that leads, or has closed it at the end of its thread, whatever has happened to the
bytes on their way. -/
theorem transparency (hR : R.Documented) {methods : Methods σ} {isOpen : σ → Bool} {close : σ → σ}
    {driver : σ} (hmethods : methods.Send R) {s : State σ}
    (hs : (machine (service R methods isOpen close) driver).Reachable s)
    (hidle : s.client = .idle) {cs : List Call} (hcs : ∀ c ∈ cs, c.Readable R)
    (hcalls : s.calls = cs.map (Call.encode R)) :
    s.driver = (service R methods isOpen close).leaves s.closed (direct R methods driver cs).1 ∧
      List.zipWith (fun (c : Call) (r : Result) => (⟨c.method, r.outcome R c.method⟩ :
        (method : RpcMethod) × Outcome method)) cs s.results = (direct R methods driver cs).2 := by
  obtain ⟨hstage, hran⟩ := stage_of_reachable hs
  obtain ⟨hleft, hreplies, hresults⟩ := hstage.at_idle hran hidle
  have hdirect := @run_encode R σ hR methods isOpen close hmethods cs hcs driver
  rw [← hcalls, hreplies] at hdirect
  rw [← hdirect, hresults]
  exact ⟨hleft, List.zipWith_map_right⟩

/-- Methods that count their calls, and have an exit code for `getError`. -/
def countingMethods : Methods Nat
  | n, .getError, _ => (n + 1, .done 0 (some (⟨some (-1), []⟩ : GetErrorResponse)))
  | n, _, _ => (n + 1, .done 0 none)

/-- A connection on which an exit code has been asked for. -/
def exitCodeKnown : State Nat where
  client := .idle
  server := .receivesHeader []
  toServer := []
  toClient := []
  driver := 1
  closed := false
  calls := [⟨7, [8, 3]⟩]
  served := [(⟨7, [8, 3]⟩, ⟨2, 0, [8, 1], rfl⟩)]
  results := [.answered 0 [8, 1]]

theorem exitCodeKnown_of_run :
    (machine (service varintRuntime countingMethods (fun _ => true) id) 0).run (opened 0)
        [.begins ⟨7, [8, 3]⟩, .clientSends 12, .clientSends 1, .serverReceives 12, .clientSends 1,
          .serverReceives 2, .serverServes, .serverSends 16, .clientReceives 9, .clientReceives 7,
          .serverSends 2, .clientReceives 2] = some exitCodeKnown := rfl

/-- The call for it. -/
def getErrorCall : Call := ⟨.getError, (⟨some 3, []⟩ : SessionId)⟩

theorem countingMethods_send : countingMethods.Send varintRuntime := by
  intro n method request rc m h
  cases method <;> cases h
  exact ⟨genuine_made varintRuntime_documented trivial rfl, rfl⟩

theorem transparency_getError :
    exitCodeKnown.driver =
        (service varintRuntime countingMethods (fun _ => true) id).leaves exitCodeKnown.closed
          (direct varintRuntime countingMethods 0 [getErrorCall]).1 ∧
      List.zipWith (fun (c : Call) (r : Result) =>
        (⟨c.method, r.outcome varintRuntime c.method⟩ : (method : RpcMethod) × Outcome method))
        [getErrorCall] exitCodeKnown.results =
      (direct varintRuntime countingMethods 0 [getErrorCall]).2 := by
  have hread : ∀ c ∈ [getErrorCall], c.Readable varintRuntime := by
    intro c hc
    rw [List.mem_singleton.mp hc]
    exact ⟨⟨genuine_made varintRuntime_documented trivial rfl, rfl⟩, by decide⟩
  exact transparency varintRuntime_documented countingMethods_send
    ⟨opened 0, _, rfl, exitCodeKnown_of_run⟩ rfl hread rfl

end McDaemon.Proxy.Rpc
