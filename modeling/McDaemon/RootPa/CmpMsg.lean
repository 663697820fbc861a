/-
# McDaemon.RootPa.CmpMsg — messages of content management, as applications build them.

A message is a byte array that grows under its setters.  Growing keeps the length field of the
message up to date, and the length field is written by a setter, which may make the array grow
again.  Commands and responses have the field in different places, and a few of them have none.  What
a call that throws has done to the array stays done.
-/
import McDaemon.Lib.Attempt
import McDaemon.Lib.Bytes
import McDaemon.Lib.Overlay

namespace McDaemon.RootPa.CmpMsg

open McDaemon.Lib

/-- What the calls throw. -/
inductive JavaError where
  | nullPointer
  | indexOutOfBounds
  /-- The setters called each other more deeply than the model follows them. -/
  | stackOverflow
deriving DecidableEq, Repr

/-- A call on `content_`, which is `none` for null. -/
abbrev Call := Attempt (Option (List UInt8)) JavaError

/-- The two classes of messages. -/
inductive Kind where
  | command
  | response
deriving DecidableEq, Repr

def mcCmpCmdGenerateAuthToken : UInt32 := 4

def mcCmpCmdGetVersion : UInt32 := 5

def mcCmpCmdGetSuid : UInt32 := 27

/-- `RSP_ID_MASK`. -/
def rspIdMask : UInt32 := 0x80000000

def responseIdToCommandId (responseId : UInt32) : UInt32 := rspIdMask ^^^ responseId

/-- A sum of two `int`s. -/
def addInt (a b : Int) : Int := (a + b).bmod (2 ^ 32)

/-- `content_`, which must not be null. -/
def content : Call (List UInt8) := do
  match (← get) with
  | none => throw .nullPointer
  | some c => pure c

/-! ## Getters -/

/-- `getInt`.  There is no byte to add when the index is out of bounds. -/
def getInt (index : Int) : Call UInt32 := do
  let c ← content
  if 0 ≤ index ∧ index + 4 ≤ c.length then
    pure (UInt32.ofNat (ofLe ((c.drop index.toNat).take 4)))
  else throw .indexOutOfBounds

/-- `getByteArray`, for a length that is not negative. -/
def getByteArray (index : Int) (length : Nat) : Call (List UInt8) := do
  let c ← content
  if 0 ≤ index ∧ index + length ≤ c.length then pure ((c.drop index.toNat).take length)
  else throw .indexOutOfBounds

def msgId : Call UInt32 := getInt 0

/-! ## Setters -/

/-- The bytes are assigned one after another; those before the first that is out of bounds are. -/
def assign (index : Int) : List UInt8 → Call Unit
  | [] => pure ()
  | b :: bs => do
    let c ← content
    if 0 ≤ index ∧ index < c.length then
      set (some (put c index.toNat [b]))
      assign (index + 1) bs
    else throw .indexOutOfBounds

/-- `System.arraycopy`, which copies all or nothing. -/
def arraycopy (index : Int) (bs : List UInt8) : Call Unit := do
  let c ← content
  if 0 ≤ index ∧ index + bs.length ≤ c.length then set (some (put c index.toNat bs))
  else throw .indexOutOfBounds

section Growing

variable (setInt : Int → UInt32 → Call Unit)

/-- Is the length of a message with this id kept in a field? -/
def Kind.hasLength (kind : Kind) (id : UInt32) : Bool :=
  match kind with
  | .command => id ≠ mcCmpCmdGetVersion && id ≠ mcCmpCmdGenerateAuthToken && id ≠ mcCmpCmdGetSuid
  | .response =>
    id ≠ responseIdToCommandId mcCmpCmdGetVersion &&
      id ≠ responseIdToCommandId mcCmpCmdGenerateAuthToken &&
      id ≠ responseIdToCommandId mcCmpCmdGetSuid

/-- `COMMAND_LENGTH_IDX` and `RESPONSE_LENGTH_IDX`. -/
def Kind.lengthIdx : Kind → Nat
  | .command => 4
  | .response => 8

/-- A length that is not more than this is not written. -/
def Kind.noLength : Kind → Nat
  | .command => 4
  | .response => 0

/-- `setLength` of the two classes, for the length of an array. -/
def setLength (kind : Kind) (length : Nat) : Call Unit := do
  let id ← msgId
  if kind.hasLength id = true ∧ kind.noLength < length then
    setInt kind.lengthIdx (UInt32.ofNat length)

/-- `createEmptyContentIfNeeded`.  A null array gets the size alone, wherever the index is. -/
def createEmptyContentIfNeeded (kind : Kind) (index : Int) (size : Nat) : Call Unit := do
  match (← get) with
  | none =>
    set (some (List.replicate size (0 : UInt8)))
    setLength setInt kind size
  | some c =>
    if c.length < addInt index size then
      set (some (grow (addInt index size).toNat c))
      setLength setInt kind (addInt index size).toNat

end Growing

/-- `setInt`, where the setters call each other up to a depth. -/
def setIntUpTo (kind : Kind) : Nat → Int → UInt32 → Call Unit
  | 0, _, _ => throw .stackOverflow
  | depth + 1, index, value => do
    createEmptyContentIfNeeded (setIntUpTo kind depth) kind index 4
    assign index (le32 value)

/-- `setInt`.  The length field needs no third array. -/
def setInt (kind : Kind) : Int → UInt32 → Call Unit := setIntUpTo kind 3

def setByteArray (kind : Kind) (index : Int) (addBytes : List UInt8) : Call Unit := do
  createEmptyContentIfNeeded (setInt kind) kind index addBytes.length
  arraycopy index addBytes

/-! ## Messages -/

/-- `setContent`, and the constructors that take the whole message. -/
def setContent (kind : Kind) (bytes : List UInt8) : Call Unit := do
  set (some bytes)
  setLength (setInt kind) kind bytes.length

/-- `CmpCommand(int)`. -/
def cmpCommand (commandId : UInt32) : Call Unit := do
  set (none : Option (List UInt8))
  setInt .command 0 commandId

/-- The setters of an application. -/
inductive Setter where
  | int (index : Nat) (value : UInt32)
  | byteArray (index : Nat) (addBytes : List UInt8)
deriving DecidableEq, Repr

namespace Setter

def run (kind : Kind) : Setter → Call Unit
  | int index value => setInt kind index value
  | byteArray index addBytes => setByteArray kind index addBytes

/-- What the setter writes. -/
def patch : Setter → Patch
  | int index value => ⟨index, le32 value⟩
  | byteArray index addBytes => ⟨index, addBytes⟩

end Setter

def runAll (kind : Kind) : List Setter → Call Unit
  | [] => pure ()
  | w :: ws => do
    w.run kind
    runAll kind ws

end McDaemon.RootPa.CmpMsg
