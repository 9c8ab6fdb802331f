import TierBuf.Core.Frame
import TierBuf.Transition

/-!
# The Ring Engine

`NativeEngine` and its completion thread, one atomic operation a step.

Callers hand their requests to one worker through a bounded channel and wait
for one reply. The worker moves requests from the channel to a deque, from
there into the in-flight map and the submission queue of the ring, and takes
them out of the map again when a completion with their `user_data` arrives. A
shutdown is a command behind all accepted requests: readers hold the
submission gate while they send, and the shutdown sends with the gate closed.

The kernel is a third party. It accepts the queued submissions when the worker
enters the ring, and completes an accepted one at any time and in any order,
once and with the `user_data` it was submitted under. Entering may also be
interrupted, or fail for good.

A caller makes one call, so that it names its request, the page of the request
and its completion channel.

## Main definitions

* `ReadRequest`, `Command`, `Reply`: What travels.
* `Engine`: The state of engine, worker and ring.
* `Engine.stepWorker`: `run_completion_thread` with `submit_pending`,
  `allocate_user_data`, `complete_cqe` and `fail_all`.
* `Engine.stepCaller`: `NativeEngine::read` and `NativeEngine::shutdown`.
* `engine`: The transition system of all parties.
-/

namespace TierBuf

open Function Ledger Transition

namespace Uring

/-- The party that makes one call. -/
abbrev Caller := Nat

/-- `ReadRequest`. Its page and its completion channel are those of the
    caller. -/
structure ReadRequest where
  rawFd : Int
  location : Nat
  caller : Caller
  deriving DecidableEq, Repr

inductive Command where
  | read (r : ReadRequest)
  | shutdown
  deriving DecidableEq, Repr

/-- What a request is answered with. A successful read returns the page of a
    request, named by its caller. -/
inductive Reply where
  | page (owner : Caller)
  | osError (errno : Nat)
  | unexpectedEof (result : Int)
  | engineStopped
  | ringFailed
  deriving DecidableEq, Repr

/-- A submission queue entry. -/
structure Sqe where
  userData : Nat
  request : ReadRequest
  deriving DecidableEq, Repr

/-- `complete_cqe`. -/
def completeCqe (owner : Caller) (result : Int) : Reply :=
  if result < 0 then .osError (min result.natAbs (2 ^ 31 - 1))
  else if result ≠ PAGE_SIZE then .unexpectedEof result
  else .page owner

/-- The ring a reader is created with. The kernel may round the number of
    submission slots up. -/
structure RingConfig where
  entries : Nat
  sqSize : Nat
  entries_pos : 0 < entries
  entries_le : entries ≤ sqSize

/-- The worker between two of its operations. -/
inductive WorkerPc where
  | recv
  | drain
  | submit
  | allocate (r : ReadRequest)
  | push (userData : Nat) (r : ReadRequest)
  | check
  | enter
  | waiting
  | reap (completions : List (Nat × Int))
  | failing
  | failAll
  | exiting (fatal : Bool)
  | exited (fatal : Bool)
  deriving DecidableEq, Repr

/-- A caller between two of its operations. -/
inductive CallerPc where
  | idle
  | readGate (r : ReadRequest)
  | readCheck (r : ReadRequest)
  | readSend (r : ReadRequest)
  | readUngate (accepted : Bool)
  | readWait
  | answered (reply : Reply)
  | disconnected
  | refused
  | stopLock
  | stopSwap
  | stopGate (first : Bool)
  | stopSend
  | stopJoin
  | stopUngate
  | stopUnlock
  | stopped
  deriving DecidableEq, Repr

/-- Engine, worker and ring. `replies`, `closed` and `results` record what has
    been sent to each caller, whose sender was dropped without a reply, and
    what the kernel has reported for each request. -/
structure Engine where
  channel : List Command
  stopping : Bool
  gate : RwState
  shutdownLock : Bool
  pending : List ReadRequest
  inflight : List (Nat × ReadRequest)
  nextUserData : Nat
  shuttingDown : Bool
  sq : List Sqe
  kernel : List Sqe
  cq : List (Nat × Int)
  replies : Caller → List Reply
  closed : Caller → Bool
  results : Caller → Option Int

/-- How a call into the ring returns. -/
inductive Outcome where
  | ok
  | interrupted
  | failed
  deriving DecidableEq, Repr

/-- What a call of the engine is. -/
inductive UringCall where
  | read (rawFd : Int) (location : Nat)
  | shutdown

namespace Engine

variable (e : Engine)

/-- `complete_request`: the one send on a completion channel. -/
def reply (owner : Caller) (answer : Reply) : Engine :=
  { e with replies := update e.replies owner (answer :: e.replies owner) }

/-- The value after `candidate` in `allocate_user_data`. -/
def nextAfter (candidate : Nat) : Nat :=
  if (candidate + 1) % 2 ^ 64 = 0 then 1 else (candidate + 1) % 2 ^ 64

/-- `inflight.remove`. -/
def takeInflight (userData : Nat) : Engine :=
  { e with inflight := e.inflight.filter (fun x => x.1 ≠ userData) }

/-- The senders of the requests in a dropped channel are dropped. -/
def closeChannel : Engine :=
  { e with
    channel := []
    closed := fun a => e.closed a || e.channel.any (fun
      | .read r => r.caller = a
      | .shutdown => false) }

/-- One operation of `run_completion_thread`. -/
def stepWorker (cfg : RingConfig) (outcome : Outcome) : WorkerPc → Option (Engine × WorkerPc)
  | .recv =>
    if e.pending = [] ∧ e.inflight = [] ∧ e.shuttingDown = false then
      match e.channel with
      | [] => none
      | .read r :: rest => some ({ e with channel := rest, pending := e.pending ++ [r] }, .drain)
      | .shutdown :: rest => some ({ e with channel := rest, shuttingDown := true }, .drain)
    else some (e, .drain)
  | .drain => match e.channel with
    | [] => some (e, .submit)
    | .read r :: rest =>
      if e.shuttingDown then
        some (({ e with channel := rest } : Engine).reply r.caller .engineStopped, .drain)
      else some ({ e with channel := rest, pending := e.pending ++ [r] }, .drain)
    | .shutdown :: rest => some ({ e with channel := rest, shuttingDown := true }, .drain)
  | .submit => match e.pending with
    | [] => some (e, .check)
    | r :: rest => some ({ e with pending := rest }, .allocate r)
  | .allocate r =>
    let candidate := e.nextUserData
    let e' := { e with nextUserData := nextAfter candidate }
    if candidate ≠ 0 ∧ candidate ∉ e.inflight.map Prod.fst then
      some ({ e' with inflight := (candidate, r) :: e.inflight }, .push candidate r)
    else some (e', .allocate r)
  | .push userData r =>
    if e.sq.length < cfg.sqSize then some ({ e with sq := e.sq ++ [⟨userData, r⟩] }, .submit)
    else some ({ e.takeInflight userData with pending := r :: e.pending }, .check)
  | .check =>
    if e.inflight = [] then
      if e.shuttingDown ∧ e.pending = [] then some (e, .exiting false) else some (e, .recv)
    else some (e, .enter)
  | .enter => match outcome with
    | .ok => some ({ e with kernel := e.kernel ++ e.sq, sq := [] }, .waiting)
    | .interrupted => some (e, .enter)
    | .failed => some (e, .failing)
  | .waiting => match outcome with
    | .ok => if e.cq = [] then some (e, .failing) else some ({ e with cq := [] }, .reap e.cq)
    | .interrupted => some (e, .enter)
    | .failed => some (e, .failing)
  | .reap [] => some (e, .recv)
  | .reap ((userData, result) :: rest) => match e.inflight.lookup userData with
    | none => some (e, .failing)
    | some r =>
      some ((e.takeInflight userData).reply r.caller (completeCqe r.caller result), .reap rest)
  -- nobody observes a completion once the ring is closed
  | .failing => some ({ e with sq := [], kernel := [], cq := [] }, .failAll)
  | .failAll => match e.pending, e.inflight with
    | r :: rest, _ =>
      some (({ e with pending := rest } : Engine).reply r.caller .ringFailed, .failAll)
    | [], (_, r) :: rest =>
      some (({ e with inflight := rest } : Engine).reply r.caller .ringFailed, .failAll)
    | [], [] => some (e, .exiting true)
  | .exiting fatal => some (e.closeChannel, .exited fatal)
  | .exited _ => none

/-- Whether the worker has dropped its end of the channel. -/
def gone : WorkerPc → Bool
  | .exited _ => true
  | _ => false

/-- The bounded send of a command, and where the caller goes from there. -/
def send (cfg : RingConfig) (worker : WorkerPc) (command : Command) (sent lost : CallerPc) :
    Option (Engine × CallerPc) :=
  if gone worker then some (e, lost)
  else if e.channel.length < cfg.entries then
    some ({ e with channel := e.channel ++ [command] }, sent)
  else none

/-- One operation of `NativeEngine::read` or `NativeEngine::shutdown`. -/
def stepCaller (cfg : RingConfig) (worker : WorkerPc) (call : UringCall) (a : Caller) :
    CallerPc → Option (Engine × CallerPc)
  | .idle => match call with
    | .read rawFd location => some (e, .readGate ⟨rawFd, location, a⟩)
    | .shutdown => some (e, .stopLock)
  | .readGate r => match e.gate with
    | .shared n => some ({ e with gate := .shared (n + 1) }, .readCheck r)
    | .exclusive => none
  | .readCheck r => if e.stopping then some (e, .readUngate false) else some (e, .readSend r)
  | .readSend r => e.send cfg worker (.read r) (.readUngate true) (.readUngate false)
  | .readUngate accepted => match e.gate with
    | .shared (n + 1) =>
      some ({ e with gate := .shared n }, if accepted then .readWait else .refused)
    | _ => none
  | .readWait => match e.replies a with
    | answer :: _ => some (e, .answered answer)
    | [] => if e.closed a then some (e, .disconnected) else none
  | .stopLock => if e.shutdownLock then none
      else some ({ e with shutdownLock := true }, .stopSwap)
  | .stopSwap => some ({ e with stopping := true }, .stopGate (!e.stopping))
  | .stopGate first => match e.gate with
    | .shared 0 =>
      some ({ e with gate := .exclusive }, if first then .stopSend else .stopJoin)
    | _ => none
  | .stopSend => e.send cfg worker .shutdown .stopJoin .stopJoin
  | .stopJoin => if gone worker then some (e, .stopUngate) else none
  | .stopUngate => some ({ e with gate := .shared 0 }, .stopUnlock)
  | .stopUnlock => some ({ e with shutdownLock := false }, .stopped)
  | .answered _ | .disconnected | .refused | .stopped => none

/-- The kernel completes the accepted entry at a position. -/
def stepKernel (position : Nat) (result : Int) : Option Engine :=
  match e.kernel[position]? with
  | none => none
  | some sqe => some { e with
      kernel := e.kernel.eraseIdx position
      cq := e.cq ++ [(sqe.userData, result)]
      results := update e.results sqe.request.caller (some result) }

/-- A new engine. -/
def initial : Engine where
  channel := []
  stopping := false
  gate := .shared 0
  shutdownLock := false
  pending := []
  inflight := []
  nextUserData := 1
  shuttingDown := false
  sq := []
  kernel := []
  cq := []
  replies := fun _ => []
  closed := fun _ => false
  results := fun _ => none

end Engine

/-- The state of all parties. -/
structure RingState where
  engine : Engine
  worker : WorkerPc
  callers : Caller → CallerPc

/-- The party that moves, and what it does not decide by itself. -/
inductive Mover where
  | worker (outcome : Outcome)
  | caller (a : Caller) (call : UringCall)
  | kernel (position : Nat) (result : Int)

namespace RingState

def next (cfg : RingConfig) (s : RingState) : Mover → Option RingState
  | .worker outcome => (s.engine.stepWorker cfg outcome s.worker).map
      (fun r => { s with engine := r.1, worker := r.2 })
  | .caller a call => (s.engine.stepCaller cfg s.worker call a (s.callers a)).map
      (fun r => { s with engine := r.1, callers := update s.callers a r.2 })
  | .kernel position result => (s.engine.stepKernel position result).map
      (fun e => { s with engine := e })

def initial : RingState :=
  { engine := .initial, worker := .recv, callers := fun _ => .idle }

end RingState

/-- An engine under every schedule. -/
def engine (cfg : RingConfig) : System RingState Mover :=
  { init := fun s => s = RingState.initial, next := RingState.next cfg }

end Uring

end TierBuf
