/-! # Statistics -/

namespace RegisteredHeap

/-- What a pool counts about itself. -/
structure PoolCounters where
  created : Nat := 0
  released : Nat := 0
  collections : Nat := 0
  collected : Nat := 0
  slowPaths : Nat := 0
  deriving DecidableEq, Repr

inductive PoolEvent where
  | segmentCreated
  | segmentReleased
  /-- A pass over the deferred lists that found so many blocks. -/
  | collection (blocks : Nat)
  /-- An allocation that found the free list empty. -/
  | slowPath
  deriving DecidableEq, Repr

def PoolCounters.record (c : PoolCounters) : PoolEvent → PoolCounters
  | .segmentCreated => { c with created := c.created + 1 }
  | .segmentReleased => { c with released := c.released + 1 }
  | .collection n => { c with collections := c.collections + 1, collected := c.collected + n }
  | .slowPath => { c with slowPaths := c.slowPaths + 1 }

/-- Counters summed over pools. -/
structure Stats where
  pools : Nat := 0
  liveSegments : Nat := 0
  created : Nat := 0
  released : Nat := 0
  collections : Nat := 0
  collected : Nat := 0
  slowPaths : Nat := 0
  deriving DecidableEq, Repr

namespace Stats

def add (a b : Stats) : Stats where
  pools := a.pools + b.pools
  liveSegments := a.liveSegments + b.liveSegments
  created := a.created + b.created
  released := a.released + b.released
  collections := a.collections + b.collections
  collected := a.collected + b.collected
  slowPaths := a.slowPaths + b.slowPaths

def total (all : List Stats) : Stats := all.foldl add {}

end Stats

/-- One pool with so many live segments. -/
def PoolCounters.snapshot (c : PoolCounters) (liveSegments : Nat) : Stats where
  pools := 1
  liveSegments := liveSegments
  created := c.created
  released := c.released
  collections := c.collections
  collected := c.collected
  slowPaths := c.slowPaths

end RegisteredHeap
