import Pyscan.Domain.Models
import Pyscan.Domain.UdpProbes

/-!
# The UDP scan

A probe is sent from a connected datagram endpoint, and a future is resolved by
the first reply or the first socket error. The callbacks may come in any order
and any number: none of them ever resolves a future that is resolved, and **only
the first that counts decides** (`callbacks_pending`).
-/

namespace Pyscan.UdpScan

open Py

/-- An exception that a datagram endpoint reports. -/
inductive SocketError where
  | refused
  | reset
  | timedOut
  /-- any other `OSError` -/
  | osError
  /-- none of these -/
  | other
  deriving DecidableEq, Repr

/-- A future of bytes. -/
inductive Future where
  | pending
  | result (data : Bytes)
  | failed (exc : SocketError)
  deriving DecidableEq, Repr

def Future.done (f : Future) : Bool := f ≠ .pending

/-- `set_result` and `set_exception`: a future that is done raises `InvalidStateError`. -/
def Future.resolve (f value : Future) : Option Future := if f.done then none else some value

/-- A callback of the protocol. -/
inductive Event where
  | datagramReceived (data : Bytes)
  | errorReceived (exc : SocketError)
  | connectionLost (exc : Option SocketError)
  deriving DecidableEq, Repr

/-- `_ProbeProtocol`; `none` is `InvalidStateError`. -/
def callback (done : Future) : Event → Option Future
  | .datagramReceived data => if ¬ done.done then done.resolve (.result data) else some done
  | .errorReceived exc => if ¬ done.done then done.resolve (.failed exc) else some done
  | .connectionLost none => some done
  | .connectionLost (some exc) => if ¬ done.done then done.resolve (.failed exc) else some done

def callbacks (done : Future) (events : List Event) : Option Future := events.foldlM callback done

/-- What a probe meets: whether the endpoint is made, what comes back in time, and when. -/
structure Probe where
  endpoint : Bool
  inTime : List Event
  latencyMs : ℚ

inductive ScanErr where
  | raised (kind : PyErr)
  | socket (exc : SocketError)
  | invalidState
  deriving DecidableEq, Repr

def preview (data : Bytes) : String :=
  let text := (data.take 24).map fun b => if 32 ≤ b.toNat ∧ b.toNat < 127 then Char.ofNat b.toNat else '.'
  "udp reply " ++ toString data.length ++ "B: " ++ String.ofList text

/-- `scan_port`: what it sends, and what it ends in. -/
def scanPort (port : Nat) (probe : Probe) : List Bytes × Except ScanErr PortResult :=
  if ¬ probe.endpoint then ([], .ok { port, state := .filtered })
  else match UdpProbes.payloadFor port with
    | .error kind => ([], .error (.raised kind))
    | .ok payload => ([payload], match callbacks .pending probe.inTime with
      | none => .error .invalidState
      | some (.result data) => .ok { port, state := .opened, latencyMs := probe.latencyMs,
                                     banner := preview data }
      | some (.failed .refused) | some (.failed .reset) =>
        .ok { port, state := .closed, latencyMs := probe.latencyMs }
      | some (.failed .osError) => .ok { port, state := .filtered }
      | some (.failed .other) => .error (.socket .other)
      -- the clause of `TimeoutError` comes first, whoever raised it
      | some .pending | some (.failed .timedOut) => .ok { port, state := .openFiltered })

/-! ## The first event that counts -/

/-- What an event would resolve the future to. -/
def Event.value : Event → Option Future
  | .datagramReceived data => some (.result data)
  | .errorReceived exc => some (.failed exc)
  | .connectionLost exc => exc.map .failed

theorem callback_pending (e : Event) : callback .pending e = some (e.value.getD .pending) := by
  rcases e with _ | _ | _ | _ <;> rfl

theorem callback_done {f : Future} (h : f.done = true) (e : Event) : callback f e = some f := by
  rcases e with _ | _ | _ | _ <;> simp [callback, h]

theorem Event.done_value {e : Event} {f : Future} (h : e.value = some f) : f.done = true := by
  rcases e with _ | _ | _ | _ <;> cases h <;> rfl

theorem callbacks_done {f : Future} (h : f.done = true) (events : List Event) :
    callbacks f events = some f := by
  induction events with
  | nil => rfl
  | cons e events ih =>
    rw [callbacks, List.foldlM_cons, callback_done h]
    exact ih

/-- **Only the first event that counts decides**, and no callback raises. -/
theorem callbacks_pending (events : List Event) :
    callbacks .pending events = some ((events.findSome? Event.value).getD .pending) := by
  induction events with
  | nil => rfl
  | cons e events ih =>
    rw [callbacks, List.foldlM_cons, callback_pending]
    show callbacks (e.value.getD .pending) events = _
    cases hv : e.value with
    | none =>
      rw [List.findSome?_cons_of_isNone (by rw [hv]; rfl)]
      exact ih
    | some f =>
      rw [List.findSome?_cons_of_isSome (by rw [hv]; rfl), hv]
      exact callbacks_done (Event.done_value hv) events

end Pyscan.UdpScan
