import Mathlib

/-!
# Errors and Replayable Fault Outcomes

The error type of the crate, and the cloneable copy of it that a fault
generation hands to its waiters.

`TierBufError` wraps an `io::Error`, which cannot be cloned, so the fault
coordinator stores a `ReplayableFaultError` and rebuilds a `TierBufError` for
every waiter. An I/O error is taken apart into its kind and its message. A
raw operating-system code does not survive the trip; everything else does.

## Main definitions

* `TierBufError`: The errors of the crate.
* `ReplayableFaultError`: The cloneable form of an error.
* `FaultOutcome`: What a fault leader publishes.
* `SameFault`: Two fault results a waiter cannot tell apart.

## Theorems

* `sameFault_replay`: Replaying an outcome gives the leader's own result.
-/

namespace TierBuf

/-- `std::io::ErrorKind`. -/
inductive ErrorKind where
  | notFound | permissionDenied | connectionRefused | connectionReset | hostUnreachable
  | networkUnreachable | connectionAborted | notConnected | addrInUse | addrNotAvailable
  | networkDown | brokenPipe | alreadyExists | wouldBlock | notADirectory | isADirectory
  | directoryNotEmpty | readOnlyFilesystem | staleNetworkFileHandle | invalidInput
  | invalidData | timedOut | writeZero | storageFull | notSeekable | quotaExceeded
  | fileTooLarge | resourceBusy | executableFileBusy | deadlock | crossesDevices
  | tooManyLinks | invalidFilename | argumentListTooLong | interrupted | unsupported
  | unexpectedEof | outOfMemory | other | uncategorized
  deriving DecidableEq, Repr

/-- `std::io::Error`: its kind, its displayed text, and the raw code it keeps
    when it came from the operating system. -/
structure IoError where
  kind : ErrorKind
  message : String
  rawOsError : Option Int
  deriving DecidableEq, Repr

/-- `io::Error::new`. -/
def IoError.new (kind : ErrorKind) (message : String) : IoError :=
  { kind := kind, message := message, rawOsError := none }

inductive TierBufError where
  | io (source : IoError)
  | poolExhausted
  | tierExhausted (tier : String)
  | invalidPid (pid : Nat)
  | duplicateHandle (pid : Nat)
  | invalidConfig (message : String)
  | contended
  | retry
  | shuttingDown
  deriving DecidableEq, Repr

inductive ReplayableFaultError where
  | io (kind : ErrorKind) (message : String)
  | poolExhausted
  | tierExhausted (tier : String)
  | invalidPid (pid : Nat)
  | duplicateHandle (pid : Nat)
  | invalidConfig (message : String)
  | contended
  | retry
  | shuttingDown
  deriving DecidableEq, Repr

/-- `From<&TierBufError> for ReplayableFaultError`. -/
def ReplayableFaultError.fromError : TierBufError → ReplayableFaultError
  | .io source => .io source.kind source.message
  | .poolExhausted => .poolExhausted
  | .tierExhausted tier => .tierExhausted tier
  | .invalidPid pid => .invalidPid pid
  | .duplicateHandle pid => .duplicateHandle pid
  | .invalidConfig message => .invalidConfig message
  | .contended => .contended
  | .retry => .retry
  | .shuttingDown => .shuttingDown

/-- `From<ReplayableFaultError> for TierBufError`. -/
def ReplayableFaultError.intoError : ReplayableFaultError → TierBufError
  | .io kind message => .io (IoError.new kind message)
  | .poolExhausted => .poolExhausted
  | .tierExhausted tier => .tierExhausted tier
  | .invalidPid pid => .invalidPid pid
  | .duplicateHandle pid => .duplicateHandle pid
  | .invalidConfig message => .invalidConfig message
  | .contended => .contended
  | .retry => .retry
  | .shuttingDown => .shuttingDown

/-- The result of a fault: the index of the tier that served it, or none when
    the page was found resident. -/
abbrev FaultResult := Except TierBufError (Option Nat)

inductive FaultOutcome where
  | success (tierIndex : Option Nat)
  | failure (error : ReplayableFaultError)
  deriving DecidableEq, Repr

/-- `FaultOutcome::from_result`. -/
def FaultOutcome.fromResult : FaultResult → FaultOutcome
  | .ok tierIndex => .success tierIndex
  | .error error => .failure (ReplayableFaultError.fromError error)

/-- `FaultOutcome::into_result`. -/
def FaultOutcome.intoResult : FaultOutcome → FaultResult
  | .success tierIndex => .ok tierIndex
  | .failure error => .error error.intoError

/-- Two errors of one variant with one payload, an I/O error being identified
    by its kind and its message. -/
def SameError : TierBufError → TierBufError → Prop
  | .io e, .io e' => e.kind = e'.kind ∧ e.message = e'.message
  | .io _, _ => False
  | _, .io _ => False
  | e, e' => e = e'

/-- Two fault results a waiter cannot tell apart. -/
def SameFault : FaultResult → FaultResult → Prop
  | .ok t, .ok t' => t = t'
  | .error e, .error e' => SameError e e'
  | _, _ => False

theorem sameError_replay (e : TierBufError) :
    SameError e (ReplayableFaultError.fromError e).intoError := by
  cases e with
  | io source => exact ⟨rfl, rfl⟩
  | _ => rfl

/-- What a waiter rebuilds from a published outcome is the leader's own
    result, up to the raw code of an I/O error. -/
theorem sameFault_replay (r : FaultResult) :
    SameFault r (FaultOutcome.fromResult r).intoResult := by
  cases r with
  | ok t => rfl
  | error e => exact sameError_replay e

end TierBuf
