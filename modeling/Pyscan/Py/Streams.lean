import Pyscan.Py.Bytes

/-!
# Stream connections

A connection as a coroutine sees it: a `StreamReader`, and the rounds of events
the peer and the network still have in store. Every `await` takes one round, all
that happens before the coroutine goes on; a read that a round leaves without
anything new has waited out its timeout. A peer, with its timing, is a list of
rounds.

`Ends x c Q E` says what a coroutine ends in, either way: what it returns, and
what it raises. `Arrives n` says that `n` bytes arrive in time, and is what a
read of `n` bytes comes to (`readexactly_reads`, `readexactly_cases`).
-/

namespace Pyscan.Py.Streams

/-- What a peer can do to a connection. -/
inductive Event where
  | data (chunk : Bytes)
  /-- it closes its side -/
  | eof
  /-- it resets the connection: `connection_lost` with an `OSError` -/
  | lost
  deriving DecidableEq, Repr

/-- An exception out of a coroutine. -/
inductive NetErr where
  | timeout
  | incompleteRead
  | raised (kind : PyErr)
  deriving DecidableEq, Repr

structure StreamReader where
  buffer : Bytes := []
  eof : Bool := false
  /-- `set_exception` was called -/
  lost : Bool := false
  deriving DecidableEq, Repr

def StreamReader.feed (r : StreamReader) : Event → StreamReader
  | .data chunk => { r with buffer := r.buffer ++ chunk }
  | .eof => { r with eof := true }
  | .lost => { r with lost := true }

/-- A reader and the rounds to come. -/
structure Wire where
  reader : StreamReader
  rounds : List (List Event)
  deriving DecidableEq, Repr

/-- A connection, and the messages written to it. -/
structure Conn where
  wire : Wire
  written : List Bytes
  deriving DecidableEq, Repr

/-- A connection the peer has just accepted. -/
def accepted (rounds : List (List Event)) : Conn := ⟨⟨{}, rounds⟩, []⟩

/-- A coroutine on one connection. -/
abbrev Net (α : Type) := EStateM NetErr Conn α

/-- A call that may raise an exception of the interpreter's own. -/
def raising {α : Type} (x : Result α) : Net α := fun c =>
  match x with
  | .ok a => .ok a c
  | .error kind => .error (.raised kind) c

def raise {α : Type} (e : NetErr) : Net α := fun c => .error e c

/-- `writer.write(message)`. -/
def write (message : Bytes) : Net Unit := fun c =>
  .ok () { c with written := c.written ++ [message] }

/-- A round of events comes in, whatever is awaited. -/
def Wire.settle (w : Wire) : Wire :=
  match w.rounds with
  | [] => w
  | events :: rounds => ⟨events.foldl StreamReader.feed w.reader, rounds⟩

/-- `await writer.drain()`: nothing is ever paused, but a lost connection is reported. -/
def drain : Net Unit := fun c =>
  if c.wire.settle.reader.lost then .error (.raised .osError) { c with wire := c.wire.settle }
  else .ok () { c with wire := c.wire.settle }

/-- `writer.close()` and `await writer.wait_closed()`. -/
def waitClosed : Net Unit := fun c =>
  if c.wire.settle.reader.lost then .error (.raised .osError) { c with wire := c.wire.settle }
  else .ok () { c with wire := c.wire.settle }

/-- The loop of `readexactly`, under `wait_for`: what it ends in, and the wire behind it. -/
def readLoop (n : Nat) : List (List Event) → StreamReader → Except NetErr Bytes × Wire
  | [], r =>
    if n ≤ r.buffer.length then (.ok (r.buffer.take n), ⟨{ r with buffer := r.buffer.drop n }, []⟩)
    else if r.eof then (.error .incompleteRead, ⟨{ r with buffer := [] }, []⟩)
    else (.error .timeout, ⟨r, []⟩)
  | events :: rounds, r =>
    if n ≤ r.buffer.length then
      (.ok (r.buffer.take n), ⟨{ r with buffer := r.buffer.drop n }, events :: rounds⟩)
    else if r.eof then (.error .incompleteRead, ⟨{ r with buffer := [] }, events :: rounds⟩)
    else if events = [] then (.error .timeout, ⟨r, rounds⟩)
    -- a loss that comes first is set on the waiter itself
    else if events.head? = some .lost then
      (.error (.raised .osError), ⟨events.foldl StreamReader.feed r, rounds⟩)
    else readLoop n rounds (events.foldl StreamReader.feed r)

/-- `await wait_for(reader.readexactly(n), timeout)`. -/
def readexactly (n : ℤ) : Net Bytes := fun c =>
  if n < 0 then .error (.raised .valueError) c
  else if c.wire.reader.lost then .error (.raised .osError) c
  else match readLoop n.toNat c.wire.rounds c.wire.reader with
    | (.ok d, w) => .ok d { c with wire := w }
    | (.error e, w) => .error e { c with wire := w }

/-- The event ends a wait for data. -/
def Event.wakes : Event → Bool
  | .data chunk => decide (chunk ≠ [])
  | .eof | .lost => true

/-- `read` takes what the buffer has, up to `n` bytes. -/
def StreamReader.take (n : Nat) (r : StreamReader) (rounds : List (List Event)) :
    Except NetErr Bytes × Wire :=
  (.ok (r.buffer.take n), ⟨{ r with buffer := r.buffer.drop n }, rounds⟩)

/-- `read(n)` under `wait_for`, for a positive `n`: it waits for the buffer to have anything. -/
def readSome (n : Nat) (w : Wire) : Except NetErr Bytes × Wire :=
  if w.reader.lost then (.error (.raised .osError), w)
  else if w.reader.buffer ≠ [] ∨ w.reader.eof then w.reader.take n w.rounds
  else match w.rounds with
    | [] => (.error .timeout, w)
    | events :: rounds =>
      match events.find? Event.wakes with
      | none => (.error .timeout, w.settle)
      -- a loss that comes first is set on the waiter itself
      | some .lost => (.error (.raised .osError), w.settle)
      | some _ => w.settle.reader.take n rounds

/-- `await wait_for(reader.read(n), timeout)`. -/
def read (n : Nat) : Net Bytes := fun c =>
  match readSome n c.wire with
  | (.ok d, w) => .ok d { c with wire := w }
  | (.error e, w) => .error e { c with wire := w }

/-- The exceptions of an `except OSError` clause, `TimeoutError` among them. -/
def NetErr.IsOSError (e : NetErr) : Prop := e = .timeout ∨ e = .raised .osError

instance : DecidablePred NetErr.IsOSError := fun e => by unfold NetErr.IsOSError; infer_instance

/-- `try: return x` under that clause, which returns `None`. -/
def exceptOSError {α : Type} (x : Net (Option α)) : Net (Option α) := fun c =>
  match x c with
  | .ok a c => .ok a c
  | .error e c => if e.IsOSError then .ok none c else .error e c

/-- The exceptions of an `except (TimeoutError, OSError, IncompleteReadError)` clause. -/
def NetErr.Caught (e : NetErr) : Prop := e = .timeout ∨ e = .incompleteRead ∨ e = .raised .osError

instance : DecidablePred NetErr.Caught := fun e => by unfold NetErr.Caught; infer_instance

/-- `try: return x` under that clause, which returns `None`. -/
def caught {α : Type} (x : Net (Option α)) : Net (Option α) := fun c =>
  match x c with
  | .ok a c => .ok a c
  | .error e c => if e.Caught then .ok none c else .error e c

/-- `with contextlib.suppress(OSError)`. -/
def suppressOSError (x : Net Unit) : Net Unit := fun c =>
  match x c with
  | .ok a c => .ok a c
  | .error e c => if e = .raised .osError then .ok () c else .error e c

/-! ## Running coroutines -/

section Run

variable {α β : Type} {x : Net α} {f : α → Net β} {c c' : Conn}

theorem bind_ok {a : α} (h : x c = .ok a c') : (x >>= f) c = f a c' := by
  show EStateM.bind x f c = _
  rw [EStateM.bind, h]

theorem bind_error {e : NetErr} (h : x c = .error e c') : (x >>= f) c = .error e c' := by
  show EStateM.bind x f c = _
  rw [EStateM.bind, h]

theorem raising_ok {a : α} : raising (.ok a) c = .ok a c := rfl

theorem write_ok (message : Bytes) (c : Conn) :
    write message c = .ok () { c with written := c.written ++ [message] } := rfl

theorem suppressOSError_waitClosed (c : Conn) :
    suppressOSError waitClosed c = .ok () { c with wire := c.wire.settle } := by
  unfold suppressOSError waitClosed
  split <;> rename_i h
  · split at h <;> cases h
    rfl
  · split at h <;> cases h
    rfl

section Clauses

variable {x : Net (Option α)} {r : Option α}

theorem caught_ok (h : x c = .ok r c') : caught x c = .ok r c' := by rw [caught, h]

theorem caught_error {e : NetErr} (h : x c = .error e c') :
    caught x c = .ok none c' ∨ caught x c = .error e c' := by
  rw [caught, h]
  exact ite_eq_or_eq _ _ _

theorem exceptOSError_ok (h : x c = .ok r c') : exceptOSError x c = .ok r c' := by
  rw [exceptOSError, h]

theorem exceptOSError_error {e : NetErr} (h : x c = .error e c') :
    exceptOSError x c = .ok none c' ∨ exceptOSError x c = .error e c' := by
  rw [exceptOSError, h]
  exact ite_eq_or_eq _ _ _

end Clauses

end Run

/-! ## What a coroutine ends in -/

section Ends

variable {α β : Type} {x : Net α} {c : Conn} {Q Q' : α → Conn → Prop} {E E' : NetErr → Conn → Prop}

/-- From `c`, `x` returns as `Q` allows, or raises as `E` does. -/
def Ends (x : Net α) (c : Conn) (Q : α → Conn → Prop) (E : NetErr → Conn → Prop) : Prop :=
  match x c with
  | .ok a c' => Q a c'
  | .error e c' => E e c'

theorem ends_ok {a : α} {c' : Conn} (h : x c = .ok a c') (hq : Q a c') : Ends x c Q E := by
  rw [Ends, h]
  exact hq

theorem ends_error {e : NetErr} {c' : Conn} (h : x c = .error e c') (he : E e c') :
    Ends x c Q E := by
  rw [Ends, h]
  exact he

theorem Ends.cases (h : Ends x c Q E) :
    (∃ a c', x c = .ok a c' ∧ Q a c') ∨ ∃ e c', x c = .error e c' ∧ E e c' := by
  unfold Ends at h
  split at h
  · exact .inl ⟨_, _, ‹_›, h⟩
  · exact .inr ⟨_, _, ‹_›, h⟩

theorem Ends.mono (h : Ends x c Q E) (hq : ∀ a c', Q a c' → Q' a c')
    (he : ∀ e c', E e c' → E' e c') : Ends x c Q' E' := by
  rcases h.cases with ⟨a, c', hx, h⟩ | ⟨e, c', hx, h⟩
  · exact ends_ok hx (hq a c' h)
  · exact ends_error hx (he e c' h)

theorem ends_pure {a : α} (h : Q a c) : Ends (pure a) c Q E := ends_ok rfl h

theorem Ends.bind {f : α → Net β} {R : β → Conn → Prop} (h : Ends x c Q E)
    (k : ∀ a c', Q a c' → Ends (f a) c' R E) : Ends (x >>= f) c R E := by
  rcases h.cases with ⟨a, c', hx, hq⟩ | ⟨e, c', hx, he⟩
  · have hk := k a c' hq
    rwa [Ends, ← bind_ok (f := f) hx] at hk
  · exact ends_error (bind_error hx) he

/-- What the clause catches ends as a return of `None` would. -/
theorem Ends.exceptOSError {x : Net (Option α)} {Q : Option α → Conn → Prop} (h : Ends x c Q E)
    (hnone : ∀ e c', E e c' → e.IsOSError ∧ Q none c') :
    Ends (Streams.exceptOSError x) c Q fun _ _ => False := by
  rcases h.cases with ⟨a, c', hx, hq⟩ | ⟨e, c', hx, he⟩
  · exact ends_ok (exceptOSError_ok hx) hq
  · obtain ⟨hos, hq⟩ := hnone e c' he
    have hnone : Streams.exceptOSError x c = .ok none c' := by
      rw [Streams.exceptOSError, hx]
      exact if_pos hos
    exact ends_ok hnone hq

/-- A coroutine that raises nothing returns. -/
theorem Ends.returns (h : Ends x c Q fun _ _ => False) : ∃ a c', x c = .ok a c' ∧ Q a c' :=
  h.cases.resolve_right fun ⟨_, _, _, hfalse⟩ => hfalse

/-- Draining writes nothing, and can only end in an `OSError`. -/
theorem drain_ends (c : Conn) :
    Ends drain c (fun _ c' => c'.written = c.written)
      fun e c' => e.IsOSError ∧ c'.written = c.written := by
  unfold Ends drain
  split
  · rename_i h
    split at h <;> cases h
    rfl
  · rename_i h
    split at h <;> cases h
    exact ⟨.inr rfl, rfl⟩

theorem readSome_cases (n : Nat) (w : Wire) :
    (∃ d w', readSome n w = (.ok d, w') ∧ d.length ≤ n) ∨
      ∃ e w', e.IsOSError ∧ readSome n w = (.error e, w') := by
  have htake (r : StreamReader) (rounds : List (List Event)) :
      ∃ d w', r.take n rounds = (.ok d, w') ∧ d.length ≤ n :=
    ⟨_, _, rfl, List.length_take_le n r.buffer⟩
  unfold readSome
  split
  · exact .inr ⟨_, _, .inr rfl, rfl⟩
  · split
    · exact .inl (htake _ _)
    · split
      · exact .inr ⟨_, _, .inl rfl, rfl⟩
      · split
        · exact .inr ⟨_, _, .inl rfl, rfl⟩
        · exact .inr ⟨_, _, .inr rfl, rfl⟩
        · exact .inl (htake _ _)

/-- Reading writes nothing, and ends in at most `n` bytes or in an `OSError`. -/
theorem read_ends (n : Nat) (c : Conn) :
    Ends (read n) c (fun d c' => c'.written = c.written ∧ d.length ≤ n)
      fun e c' => e.IsOSError ∧ c'.written = c.written := by
  unfold Ends read
  rcases readSome_cases n c.wire with ⟨d, w', h, hlen⟩ | ⟨e, w', he, h⟩
  · rw [h]
    exact ⟨rfl, hlen⟩
  · rw [h]
    exact ⟨he, rfl⟩

theorem readexactly_ends (n : ℤ) (c : Conn) :
    Ends (readexactly n) c (fun _ c' => c'.written = c.written)
      fun _ c' => c'.written = c.written := by
  by_cases hneg : n < 0
  · exact ends_error (if_pos hneg) rfl
  · cases hlost : c.wire.reader.lost with
    | true =>
      have hraised : readexactly n c = .error (.raised .osError) c := by
        rw [readexactly, if_neg hneg, hlost]
        rfl
      exact ends_error hraised rfl
    | false =>
      obtain ⟨⟨r, w⟩, hloop⟩ : ∃ rw, readLoop n.toNat c.wire.rounds c.wire.reader = rw := ⟨_, rfl⟩
      cases r with
      | ok d =>
        have hread : readexactly n c = .ok d { c with wire := w } := by
          rw [readexactly, if_neg hneg, hlost, hloop]
          rfl
        exact ends_ok hread rfl
      | error e =>
        have hraised : readexactly n c = .error e { c with wire := w } := by
          rw [readexactly, if_neg hneg, hlost, hloop]
          rfl
        exact ends_error hraised rfl

end Ends

/-! ## What arrives in time -/

/-- `n` bytes `d` arrive before the peer stops, and `w'` is the wire behind them. -/
inductive Arrives (n : Nat) : (r : StreamReader) → (rounds : List (List Event)) → (d : Bytes) →
    (w' : Wire) → Prop where
  | here {r : StreamReader} {rounds : List (List Event)} (enough : n ≤ r.buffer.length) :
      Arrives n r rounds (r.buffer.take n) ⟨{ r with buffer := r.buffer.drop n }, rounds⟩
  | later {r : StreamReader} {event : Event} {events : List Event} {rounds : List (List Event)}
      {d : Bytes} {w' : Wire} (short : r.buffer.length < n) (goes_on : r.eof = false)
      (kept : event ≠ .lost)
      (rest : Arrives n ((event :: events).foldl StreamReader.feed r) rounds d w') :
      Arrives n r ((event :: events) :: rounds) d w'

/-- A read of `n` bytes comes to `d`. -/
def Wire.Reads (w : Wire) (n : Nat) (d : Bytes) (w' : Wire) : Prop :=
  w.reader.lost = false ∧ Arrives n w.reader w.rounds d w'

theorem Arrives.length {n : Nat} {r : StreamReader} {rounds : List (List Event)} {d : Bytes}
    {w' : Wire} (h : Arrives n r rounds d w') : d.length = n := by
  induction h with
  | here enough => exact List.length_take_of_le enough
  | later _ _ _ _ ih => exact ih

theorem Arrives.readLoop {n : Nat} {r : StreamReader} {rounds : List (List Event)} {d : Bytes}
    {w' : Wire} (h : Arrives n r rounds d w') : readLoop n rounds r = (.ok d, w') := by
  induction h with
  | @here r rounds enough => cases rounds <;> rw [Streams.readLoop, if_pos enough]
  | @later r event events rounds d w' short goes_on kept rest ih =>
    have hhead : (event :: events).head? ≠ some .lost := fun h => kept (Option.some_inj.mp h)
    rw [Streams.readLoop, if_neg (by omega), goes_on, if_neg nofun, if_neg nofun, if_neg hhead, ih]

/-- The loop ends in the bytes, or in an exception that is caught. -/
theorem readLoop_cases (n : Nat) (rounds : List (List Event)) (r : StreamReader) :
    (∃ d w', Arrives n r rounds d w') ∨
      ∃ e w', e.Caught ∧ readLoop n rounds r = (.error e, w') := by
  induction rounds generalizing r with
  | nil =>
    rw [readLoop]
    by_cases hn : n ≤ r.buffer.length
    · exact .inl ⟨_, _, .here hn⟩
    · rw [if_neg hn]
      split
      · exact .inr ⟨_, _, .inr (.inl rfl), rfl⟩
      · exact .inr ⟨_, _, .inl rfl, rfl⟩
  | cons events rounds ih =>
    rw [readLoop]
    by_cases hn : n ≤ r.buffer.length
    · exact .inl ⟨_, _, .here hn⟩
    · rw [if_neg hn]
      cases heof : r.eof with
      | true => exact .inr ⟨_, _, .inr (.inl rfl), rfl⟩
      | false =>
        rw [if_neg nofun]
        cases events with
        | nil => exact .inr ⟨_, _, .inl rfl, rfl⟩
        | cons event events =>
          rw [if_neg nofun]
          by_cases hlost : (event :: events).head? = some .lost
          · rw [if_pos hlost]
            exact .inr ⟨_, _, .inr (.inr rfl), rfl⟩
          · rw [if_neg hlost]
            refine (ih _).imp_left ?_
            rintro ⟨d, w', h⟩
            exact ⟨d, w', .later (by omega) heof (fun he => hlost (congrArg some he)) h⟩

theorem readexactly_reads {n : Nat} {c : Conn} {d : Bytes} {w' : Wire} (h : c.wire.Reads n d w') :
    readexactly n c = .ok d { c with wire := w' } := by
  unfold readexactly
  rw [if_neg (by omega), h.1, Int.toNat_natCast, h.2.readLoop]
  rfl

theorem readexactly_cases (n : Nat) (c : Conn) :
    (∃ d w', c.wire.Reads n d w') ∨ ∃ e c', e.Caught ∧ readexactly n c = .error e c' := by
  unfold readexactly
  rw [if_neg (by omega), Int.toNat_natCast]
  cases hlost : c.wire.reader.lost with
  | true => exact .inr ⟨_, _, .inr (.inr rfl), rfl⟩
  | false =>
    rcases readLoop_cases n c.wire.rounds c.wire.reader with ⟨d, w', h⟩ | ⟨e, w', he, h⟩
    · exact .inl ⟨d, w', hlost, h⟩
    · rw [h]
      exact .inr ⟨e, _, he, rfl⟩

end Pyscan.Py.Streams
