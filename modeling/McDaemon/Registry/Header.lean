/-
# McDaemon.Registry.Header — the header at the start of a service.

Only the fields that the registry looks at: each is a span from the start of the service, and its
value is read from memory, little-endian.
-/
import McDaemon.Registry.Container

namespace McDaemon.Registry

open McDaemon.Lib

/-- `MC_SERVICE_HEADER_MAGIC_BE`. -/
def mcServiceHeaderMagicBe : Nat := 0x464C434D

def serviceTypeDriver : Nat := 1

def serviceTypeSpTrustlet : Nat := 2

def serviceTypeSystemTrustlet : Nat := 3

/-- `sizeof(mclfHeaderV24_t)`. -/
def sizeofHeaderV24 : Nat := 104

/-- `MC_MAKE_VERSION`. -/
def mcMakeVersion (major minor : Nat) : Nat := major % 2 ^ 16 * 2 ^ 16 + minor % 2 ^ 16

/-! ## Fields -/

def magicField : Span := ⟨0, 4⟩

def versionField : Span := ⟨4, 4⟩

def serviceTypeField : Span := ⟨16, 4⟩

def uuidField : Span := ⟨24, 16⟩

def gpLevelField : Span := ⟨96, 4⟩

def attestationOffsetField : Span := ⟨100, 4⟩

/-- The value of an integer field. -/
def fieldOf (header : Memory) (w : Span) : Nat := ofLe (header.slice w)

/-- `intro.magic`. -/
def magic (header : Memory) : Nat := fieldOf header magicField

/-- `intro.version`. -/
def version (header : Memory) : Nat := fieldOf header versionField

def serviceType (header : Memory) : Nat := fieldOf header serviceTypeField

def headerUuid (header : Memory) : Uuid := uuidOf (header.slice uuidField)

def gpLevel (header : Memory) : Nat := fieldOf header gpLevelField

def attestationOffset (header : Memory) : Nat := fieldOf header attestationOffsetField

end McDaemon.Registry
