import RegisteredHeap.Error

/-! # Registrations

A registrar admits ranges of memory for the transport and counts what it does. An admitted range is
a region with a key of its own; a handle gives a part of a region its keys. Dropping a region never
gives its key, or its place below the limit, back.
-/

namespace RegisteredHeap

/-- Properties of a registration, one bit each. -/
structure Flags where
  bits : Nat
  deriving DecidableEq, Repr

namespace Flags

def none : Flags := ⟨0⟩

/-- The memory belongs to a caller. -/
def user : Flags := ⟨1⟩

def union (a b : Flags) : Flags := ⟨a.bits ||| b.bits⟩

def contains (a b : Flags) : Bool := a.bits &&& b.bits == b.bits

end Flags

/-- What a peer needs to reach a part of a region. -/
structure Handle where
  localKey : Nat
  remoteKey : Address
  address : Address
  len : Nat
  /-- A note that travels with the handle; the holder may set it. -/
  messageLength : Nat := 0
  deriving DecidableEq, Repr

/-- The handle of nothing. -/
def Handle.empty : Handle := ⟨0, .user 0, .user 0, 0, 0⟩

structure Region where
  key : Nat
  base : Address
  len : Nat
  flags : Flags
  /-- The device that the memory lies on. -/
  device : Option Nat
  deriving DecidableEq, Repr

/-- The handle of `len` bytes from `offset` on. -/
def Region.handle (r : Region) (offset len : Nat) : Handle :=
  ⟨r.key, r.base.advance offset, r.base.advance offset, len, 0⟩

structure Registrar where
  /-- How many ranges may be registered at all. -/
  limit : Option Nat := none
  /-- The key given last. -/
  lastKey : Nat := 0
  registered : Nat := 0
  deregistered : Nat := 0
  user : Nat := 0
  device : Nat := 0
  rejected : Nat := 0
  deriving DecidableEq, Repr

namespace Registrar

def transport : String := "loopback"

/-- Regions not yet dropped. -/
def live (r : Registrar) : Nat := r.registered - r.deregistered

def refusal? (r : Registrar) (len : Nat) : Option Refusal :=
  if len = 0 then some .emptyRange
  else match r.limit with
    | some n => if n ≤ r.registered then some (.limitReached n) else none
    | none => none

def register (r : Registrar) (base : Address) (len : Nat) (flags : Flags) (device : Option Nat) :
    Except RegistrationError Region × Registrar :=
  match r.refusal? len with
  | some reason =>
    (.error ⟨transport, base, len, reason⟩, { r with rejected := r.rejected + 1 })
  | none =>
    (.ok ⟨r.lastKey + 1, base, len, flags, device⟩,
      { r with
        lastKey := r.lastKey + 1
        registered := r.registered + 1
        user := r.user + (flags.contains .user).toNat
        device := r.device + device.isSome.toNat })

/-- Counts a region as dropped. -/
def deregister (r : Registrar) : Registrar := { r with deregistered := r.deregistered + 1 }

end Registrar

end RegisteredHeap
