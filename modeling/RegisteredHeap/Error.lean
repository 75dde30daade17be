import RegisteredHeap.Address
import RegisteredHeap.Settings
import RegisteredHeap.Text.Quoted

/-! # Errors

What can go wrong, as causes. The wording of each cause is its `message`; an error of a collaborator
keeps its own message behind the name of the collaborator.
-/

namespace RegisteredHeap

/-- A setting outside its range. -/
inductive RangeFault where
  | below (setting : Setting)
  | above (setting : Setting)
  deriving DecidableEq, Repr

def RangeFault.message : RangeFault → String
  | .below k => k.name ++ ": lower than " ++ toString k.least
  | .above k => k.name ++ ": greater than " ++ toString Setting.most

/-- What a settings file holds in place of the expected value. -/
inductive Found where
  | integer (value : Int)
  | text (value : String)
  | sequence
  | map
  deriving DecidableEq, Repr

def Found.message : Found → String
  | .integer i => "64-bit integer \x60" ++ toString i ++ "\x60"
  | .text s => "string " ++ Text.quoted s
  | .sequence => "sequence"
  | .map => "map"

/-- What a settings file should hold for a setting. -/
inductive Wanted where
  | unsigned
  | integer
  | boolean
  deriving DecidableEq, Repr

def Wanted.message : Wanted → String
  | .unsigned => "an unsigned 64 bit or less integer"
  | .integer => "an integer"
  | .boolean => "a boolean"

/-- Why a settings file cannot be used. -/
inductive FileFault where
  | missing
  | notUtf8
  /-- The text is not TOML; counted from 1. -/
  | malformed (line column : Nat)
  /-- The whole file is one date-time. -/
  | moment (value : String)
  /-- A value that was put together from several keys has no place in the file. -/
  | wrongType (found : Found) (wanted : Wanted) (key : String) (placed : Bool)
  deriving DecidableEq, Repr

def FileFault.message (path : String) : FileFault → String
  | .missing => "configuration file " ++ Text.quoted path ++ " not found"
  | .notUtf8 => "stream did not contain valid UTF-8"
  | .malformed line column =>
    "TOML parse error at line " ++ toString line ++ ", column " ++ toString column
  | .moment m =>
    "invalid type: " ++ (Found.text m).message ++ ", expected a map in " ++ path ++ " in " ++ path
  | .wrongType found wanted key placed =>
    "invalid type: " ++ found.message ++ ", expected " ++ wanted.message ++ " for key \x60" ++
      key ++ "\x60" ++ (if placed then " in " ++ path else "")

/-- Why there is no configuration. -/
inductive ConfigError where
  | outOfRange (faults : List RangeFault)
  | overflows (setting : Setting) (value : Nat)
  /-- Rounded limits have to increase. -/
  | notBelow (lower : Setting) (low : Nat) (upper : Setting) (high : Nat)
  | exceedsSegment (limit : Setting) (size : Nat) (segment : Setting) (segmentSize : Nat)
  | file (path : String) (fault : FileFault)
  /-- A number that the settings file format cannot hold. -/
  | unwritable
  | other (message : String)
  deriving DecidableEq, Repr

/-- A setting with its size. -/
def Setting.sized (k : Setting) (n : Nat) : String := k.name ++ " (" ++ toString n ++ ")"

def ConfigError.message : ConfigError → String
  | .outOfRange faults =>
    "invalid heap settings: " ++ String.join (faults.map fun f => f.message ++ "\n")
  | .overflows k n => k.sized n ++ " overflows"
  | .notBelow k m l n => k.sized m ++ " must be less than " ++ l.sized n
  | .exceedsSegment k m l n => k.sized m ++ " exceeds " ++ l.sized n
  | .file path fault => path ++ ": " ++ fault.message path
  | .unwritable => "out-of-range value for u64 type"
  | .other m => m

/-- Why the node provider had no pages to give. -/
inductive Shortage where
  | capacity
  | allocator
  | other (reason : String)
  deriving DecidableEq, Repr

def Shortage.message : Shortage → String
  | .capacity => "simulated capacity exceeded"
  | .allocator => "global allocator returned null"
  | .other r => r

inductive NumaError where
  | nodeNotAvailable (node : Nat)
  | allocationFailed (size node : Nat) (reason : Shortage)
  | invalidSize (size : Nat)
  deriving DecidableEq, Repr

def NumaError.message : NumaError → String
  | .nodeNotAvailable n => "NUMA node " ++ toString n ++ " not available"
  | .allocationFailed s n r =>
    "NUMA allocation failed for size " ++ toString s ++ " on node " ++ toString n ++ ": " ++
      r.message
  | .invalidSize s => "Invalid allocation size: " ++ toString s

/-- Why a range was not registered. -/
inductive Refusal where
  | emptyRange
  | limitReached (limit : Nat)
  | other (reason : String)
  deriving DecidableEq, Repr

def Refusal.message : Refusal → String
  | .emptyRange => "empty range"
  | .limitReached n => "registration limit of " ++ toString n ++ " reached"
  | .other r => r

structure RegistrationError where
  transport : String
  address : Address
  len : Nat
  reason : Refusal
  deriving DecidableEq, Repr

def RegistrationError.message (e : RegistrationError) : String :=
  e.transport ++ " failed to register " ++ toString e.len ++ " bytes at " ++ e.address.text ++
    ": " ++ e.reason.message

inductive DeviceError where
  | allocationFailed (size device : Nat)
  | invalidDevice (device : Nat)
  deriving DecidableEq, Repr

def DeviceError.message : DeviceError → String
  | .allocationFailed s d =>
    "Device allocation of " ++ toString s ++ " bytes failed on device " ++ toString d
  | .invalidDevice d => "Invalid device id: " ++ toString d

inductive HeapError where
  | configuration (cause : ConfigError)
  | numa (cause : NumaError)
  /-- The pages of a new segment lie on another node. -/
  | wrongNode (requested actual : Nat)
  | registration (cause : RegistrationError)
  | device (cause : DeviceError)
  | unknownNode (node : Nat)
  | unknownDevice (node device : Nat)
  | deviceSupportDisabled
  | invalidSize (size : Nat)
  deriving DecidableEq, Repr

namespace HeapError

def message : HeapError → String
  | .configuration c => "Configuration error: " ++ c.message
  | .numa c => "NUMA error: " ++ c.message
  | .wrongNode r a =>
    "Segment requested on node " ++ toString r ++ " was placed on node " ++ toString a
  | .registration c => "Registration error: " ++ c.message
  | .device c => "Device error: " ++ c.message
  | .unknownNode n => "No pool for NUMA node " ++ toString n
  | .unknownDevice n d => "No pool for device " ++ toString d ++ " on NUMA node " ++ toString n
  | .deviceSupportDisabled => "Device support is disabled for this heap"
  | .invalidSize s => "Invalid allocation size: " ++ toString s

/-- The message of the collaborator's error, if there is one behind this error. -/
def source? : HeapError → Option String
  | .numa c => some c.message
  | .registration c => some c.message
  | .device c => some c.message
  | _ => none

end HeapError

end RegisteredHeap
