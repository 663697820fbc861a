/-
# McDaemon.RootPa.Provisioning — the loop that asks the service enabler what to do next.

Every answer of the service enabler brings a link, a relation and a command, and the relation says
what to send where next.  The loop keeps the strings of the last request until the next answer is
there, because that may be `relation/self`, which asks for the same again.  Behind a factory reset,
the first round deletes what the service enabler still has, and the request proper waits.

Here a string is a token that is allocated once and named in a log of events whenever its text is
looked at, it goes into a request, or it is freed.  The callbacks to the service provider's
application are left out.
-/
import Mathlib.Data.List.Infix
import McDaemon.Lib.Ledger
import McDaemon.Lib.Machine

namespace McDaemon.RootPa.Provisioning

open McDaemon.Lib

/-! ## Results -/

/-- `rootpaerror_t` -/
abbrev RootpaError := UInt32

def rootpaOk : RootpaError := 0x00000000
def rootpaErrorOutOfMemory : RootpaError := 0x00000006
def rootpaErrorInternal : RootpaError := 0x00000007
def rootpaErrorIllegalArgument : RootpaError := 0x00000008
def rootpaErrorNetwork : RootpaError := 0x00000009
def rootpaErrorXml : RootpaError := 0x0000000A
def rootpaErrorRegistryObjectNotAvailable : RootpaError := 0x0000000B
def rootpaErrorSeCmpVersion : RootpaError := 0x0000000C
def rootpaErrorSePreconditionNotMet : RootpaError := 0x0000000D

/-- What `httpCommunicate` makes of an HTTP status code. -/
def httpResult (code : Nat) : RootpaError :=
  if 200 ≤ code ∧ code < 300 then rootpaOk
  else if code ∈ [400, 405, 406, 409, 411, 414, 415, 422, 500, 505] then rootpaErrorInternal
  else if code ∈ [301, 408, 503] then rootpaErrorNetwork
  else if code = 501 then rootpaErrorSeCmpVersion
  else if code = 424 then rootpaErrorSePreconditionNotMet
  else if code = 404 then rootpaErrorIllegalArgument
  else rootpaErrorNetwork

/-- A later failure replaces the result, a later success does not. -/
def keep (ret tmpRet : RootpaError) : RootpaError := if tmpRet ≠ rootpaOk then tmpRet else ret

/-! ## Strings -/

/-- A `char*`: nothing, one of the two relations that are constants of the program, or a string on
the heap, with the text that it has had from its allocation on. -/
inductive Ptr
  | null
  | initialPost
  | initialDelete
  | heap (token : Nat) (text : String)
deriving DecidableEq, Repr

def Ptr.token : Ptr → Option Nat
  | .heap token _ => some token
  | _ => none

def Ptr.text : Ptr → String
  | .null => ""
  | .initialPost => "initial_post"
  | .initialDelete => "initial_delete"
  | .heap _ text => text

/-- `strstr` finds something. -/
def Ptr.Has (p : Ptr) (needle : String) : Prop := needle.toList <:+: p.text.toList

instance (p : Ptr) (needle : String) : Decidable (p.Has needle) :=
  inferInstanceAs (Decidable (_ <:+: _))

/-- What the `if`s of a round make of a relation. -/
inductive Relation
  | self
  | systemInfo
  | initialDelete
  | initialPost
  | result
  | next
  | unknown
deriving DecidableEq, Repr

def Ptr.relation (p : Ptr) : Relation :=
  if p.Has "relation/self" then .self
  else if p.Has "relation/system_info" then .systemInfo
  else if p.Has "initial_delete" then .initialDelete
  else if p.Has "initial_post" then .initialPost
  else if p.Has "relation/command_result" then .result
  else if p.Has "relation/next" then .next
  else .unknown

/-! ## Events -/

inductive Event
  /-- The text of the string is compared with something. -/
  | compared (p : Ptr)
  /-- `handleXmlMessage` gets the command. -/
  | executed (commandP : Ptr)
  /-- A request goes out, with the strings current. -/
  | requested (linkP relP commandP : Ptr)
  /-- The answer to the request brings this relation. -/
  | answered (relP : Ptr)
  | freed (p : Ptr)
deriving DecidableEq, Repr

/-- The strings that an event touches. -/
def Event.touched : Event → List Nat
  | .compared p | .executed p | .answered p | .freed p => p.token.toList
  | .requested linkP relP commandP => [linkP, relP, commandP].filterMap Ptr.token

def Event.released : Event → Option Nat
  | .freed p => p.token
  | _ => none

def strings : Ledger Event Nat := ⟨Event.touched, Event.released⟩

/-- `free`, which takes a null pointer. -/
def free (p : Ptr) : List Event := if p = .null then [] else [.freed p]

/-- The constant relations are left alone. -/
def cleanup (linkP relP commandP : Ptr) : List Event :=
  free commandP ++ (if relP ≠ .initialPost ∧ relP ≠ .initialDelete then free relP else []) ++
    free linkP

/-- A comparison of the text, made when there is a string. -/
def look (p : Ptr) : List Event := if p = .null then [] else [.compared p]

/-! ## One round -/

/-- What becomes of a request: the buffer for the answer cannot be had, no connection can be set up
or it fails, or there is an answer. -/
inductive HttpAnswer
  | outOfMemory
  | network
  | answered (code : Nat) (link rel command : Option String)

/-- What the outside does in one round, as far as the round asks for it. -/
structure RoundInput where
  getSysInfo : RootpaError
  getVersion : RootpaError
  /-- Filling in the document of `buildXmlSystemInfo`, and dumping it. -/
  buildXml : RootpaError
  dumped : Option String
  /-- What the command of the service enabler comes to, and what is to be sent about it. -/
  handleXmlMessage : RootpaError
  response : Option String
  http : HttpAnswer

/-- The local variables of `doProvisioningWithSe`. -/
structure Loop where
  ret : RootpaError
  tmpRet : RootpaError
  workToDo : Bool
  linkP : Ptr
  relP : Ptr
  commandP : Ptr
  responseP : Option String
  pendingLinkP : Ptr
  pendingRelP : Ptr
  usedLinkP : Ptr
  usedRelP : Ptr
  usedCommandP : Ptr
  /-- How many strings have been allocated. -/
  allocated : Nat
  log : List Event

namespace Loop

/-- A string of an answer. -/
def fresh (token : Nat) : Option String → Ptr
  | none => .null
  | some text => .heap token text

/-- `httpCommunicate`.  The relation and the command are forgotten before the request is made. -/
def httpCommunicate (s : Loop) : HttpAnswer → RootpaError × Loop
  | .outOfMemory =>
    if s.linkP = .null then (rootpaErrorIllegalArgument, s)
    else (rootpaErrorOutOfMemory, { s with
      relP := .null, commandP := .null
      log := s.log ++ [.requested s.linkP s.relP s.commandP] })
  | .network =>
    if s.linkP = .null then (rootpaErrorIllegalArgument, s)
    else (rootpaErrorNetwork, { s with
      relP := .null, commandP := .null
      log := s.log ++ [.requested s.linkP s.relP s.commandP] })
  | .answered code link rel command =>
    if s.linkP = .null then (rootpaErrorIllegalArgument, s)
    else (httpResult code, { s with
      linkP := fresh s.allocated link
      relP := fresh (s.allocated + 1) rel
      commandP := fresh (s.allocated + 2) command
      allocated := s.allocated + 3
      log := s.log ++ [.requested s.linkP s.relP s.commandP,
        .answered (fresh (s.allocated + 1) rel)] })

/-- What `buildXmlSystemInfo` leaves to send: a document that cannot be filled in is not dumped. -/
def buildXmlSystemInfo (s : Loop) (i : RoundInput) : Option String :=
  if i.buildXml = rootpaOk then i.dumped else s.responseP

/-- The result that `relation/system_info` has before it sends. -/
def systemInfoRet (s : Loop) (i : RoundInput) : RootpaError :=
  keep (keep (keep s.ret i.getSysInfo) i.getVersion) i.buildXml

/-- `relation/system_info`.  When there is nothing to send although the document could be filled in,
an earlier error keeps the loop going. -/
def systemInfo (s : Loop) (i : RoundInput) : Loop :=
  match s.buildXmlSystemInfo i with
  | some response =>
    { (s.httpCommunicate i.http).2 with
      responseP := some response
      tmpRet := (s.httpCommunicate i.http).1
      ret := keep (s.systemInfoRet i) (s.httpCommunicate i.http).1
      workToDo := (s.httpCommunicate i.http).1 = rootpaOk }
  | none =>
    if s.systemInfoRet i = rootpaOk then
      { s with
        responseP := none, tmpRet := i.buildXml
        ret := rootpaErrorOutOfMemory, workToDo := false }
    else
      { s with
        responseP := none, tmpRet := i.buildXml
        ret := s.systemInfoRet i, workToDo := i.buildXml = rootpaOk }

/-- The relations that only send: the initial ones and `relation/next`. -/
def send (s : Loop) (i : RoundInput) : Loop :=
  { (s.httpCommunicate i.http).2 with
    ret := (s.httpCommunicate i.http).1
    workToDo := (s.httpCommunicate i.http).1 = rootpaOk }

def handleXmlMessage (s : Loop) (i : RoundInput) : RootpaError × Option String :=
  if s.commandP = .null then (rootpaErrorIllegalArgument, none)
  else (i.handleXmlMessage, i.response)

/-- The result of `relation/command_result` when there is nothing to send. -/
def noResponseRet (s : Loop) (i : RoundInput) : RootpaError :=
  if (s.handleXmlMessage i).1 = rootpaOk then rootpaErrorXml else (s.handleXmlMessage i).1

/-- `handleXmlMessage` reads the command. -/
def execute (s : Loop) : Loop := { s with log := s.log ++ [Event.executed s.commandP] }

/-- `relation/command_result`.  A response is sent even when the command has failed; without one the
strings are dropped, as what was used they are still known. -/
def result (s : Loop) (i : RoundInput) : Loop :=
  match (s.handleXmlMessage i).2 with
  | some response =>
    { (s.execute.httpCommunicate i.http).2 with
      responseP := some response
      tmpRet := (s.execute.httpCommunicate i.http).1
      ret := keep (s.handleXmlMessage i).1 (s.execute.httpCommunicate i.http).1
      workToDo := keep (s.handleXmlMessage i).1 (s.execute.httpCommunicate i.http).1 =
        rootpaErrorRegistryObjectNotAvailable ∨ (s.execute.httpCommunicate i.http).1 = rootpaOk }
  | none =>
    { s.execute with
      responseP := none, linkP := .null, relP := .null, commandP := .null
      ret := s.noResponseRet i
      workToDo := s.noResponseRet i = rootpaErrorRegistryObjectNotAvailable ∨
        s.tmpRet = rootpaOk }

/-- What the relation asks for. -/
def exchange (s : Loop) (i : RoundInput) : Loop :=
  match s.relP.relation with
  | .systemInfo => s.systemInfo i
  | .initialDelete | .initialPost | .next => s.send i
  | .result => s.result i
  | .self | .unknown => { s with ret := rootpaErrorIllegalArgument, workToDo := false }

/-- The strings are noted just before they are used. -/
def markUsed (s : Loop) : Loop :=
  { s with usedLinkP := s.linkP, usedRelP := s.relP, usedCommandP := s.commandP }

/-- `relation/self`: what was used comes back, unless one of the three is current as it is. -/
def restore (s : Loop) : Loop :=
  if s.relP ≠ s.usedRelP ∧ s.linkP ≠ s.usedLinkP ∧ s.commandP ≠ s.usedCommandP then
    { s with
      relP := s.usedRelP, linkP := s.usedLinkP, commandP := s.usedCommandP
      log := s.log ++ cleanup s.linkP s.relP s.commandP }
  else s

/-- The last round frees what is current, once where that is what was used. -/
def lastRound (s : Loop) : Loop :=
  { s with
    linkP := .null, relP := .null, commandP := .null
    usedLinkP := if s.linkP = s.usedLinkP then .null else s.usedLinkP
    usedRelP := if s.relP = s.usedRelP then .null else s.usedRelP
    usedCommandP := if s.commandP = s.usedCommandP then .null else s.usedCommandP
    log := s.log ++ cleanup s.linkP s.relP s.commandP }

/-- What was used is freed, unless the relation is `relation/self`. -/
def freeUsed (s : Loop) : Loop :=
  if s.relP = .null ∨ ¬ s.relP.Has "relation/self" then
    { s with
      usedLinkP := .null, usedRelP := .null, usedCommandP := .null
      responseP := none
      log := s.log ++ look s.relP ++ cleanup s.usedLinkP s.usedRelP s.usedCommandP }
  else { s with responseP := none, log := s.log ++ look s.relP }

def roundEnd (s : Loop) : Loop :=
  if s.workToDo then s.freeUsed else s.lastRound.freeUsed

/-- Behind the factory reset, the request proper takes its turn. -/
def resume (s : Loop) : Loop :=
  { s with
    linkP := s.pendingLinkP, relP := s.pendingRelP
    pendingLinkP := .null, pendingRelP := .null
    log := s.log ++ free s.linkP }

/-- One round of the loop; there is none when there is no work to do. -/
def round (s : Loop) (i : RoundInput) : Option Loop :=
  if s.workToDo = false then none
  else if s.relP = .null then
    if s.pendingLinkP ≠ .null ∧ s.pendingRelP ≠ .null then some s.resume
    else some { s with workToDo := false }.roundEnd
  else if s.relP.Has "relation/self" then
    some { s with log := s.log ++ look s.relP }.restore.roundEnd
  else some (({ s with log := s.log ++ look s.relP }.markUsed).exchange i).roundEnd

/-- All that happens to the strings until the function returns. -/
def history (s : Loop) : List Event := if s.workToDo then s.log else s.log ++ free s.linkP

end Loop

/-- What comes before the loop: the link with its additions, the relation to start with, whether the
client opens and the request of an installation can be built, whether a factory reset is assumed,
and the link for that. -/
structure Setup where
  link : String
  delete : Bool
  workToDo : Bool
  responseP : Option String
  factoryResetAssumed : Bool
  resetLink : Option String

def Setup.start (i : Setup) : Loop :=
  if i.factoryResetAssumed ∧ i.delete = false ∧ i.workToDo then
    { ret := rootpaOk, tmpRet := rootpaOk, workToDo := true
      linkP := Loop.fresh 1 i.resetLink, relP := .initialDelete, commandP := .null
      responseP := i.responseP, pendingLinkP := .heap 0 i.link, pendingRelP := .initialPost
      usedLinkP := .null, usedRelP := .null, usedCommandP := .null, allocated := 2, log := [] }
  else
    { ret := rootpaOk, tmpRet := rootpaOk, workToDo := i.workToDo
      linkP := .heap 0 i.link, relP := if i.delete then .initialDelete else .initialPost
      commandP := .null, responseP := i.responseP, pendingLinkP := .null, pendingRelP := .null
      usedLinkP := .null, usedRelP := .null, usedCommandP := .null, allocated := 1, log := [] }

end McDaemon.RootPa.Provisioning
