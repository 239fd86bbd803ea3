import Pyscan.Domain.Models
import Pyscan.Domain.S7comm
import Pyscan.Py.Streams

/-!
# The S7comm scan of a port

`scanPort` as a coroutine on a connection: the three-step handshake, each step a
message written and a TPKT message read back. The peer is the rounds of events
it has in store, so a theorem for all rounds is one for all byte streams, all
ways to chunk them, and all ways to end.

A TPKT header that declares less than its own four bytes makes the second read
of `readTpkt` a `ValueError`, which no clause catches. **The scan of an open port
ends in a result exactly when** no header the handshake comes to is such a one
(`scan_survives`).
-/

namespace Pyscan.S7commScan

open Py Streams S7comm

/-- What `open_connection` comes to under the timeout. -/
inductive Connect where
  | accepted
  | timedOut
  | refused
  | failed
  deriving DecidableEq, Repr

/-- Read exactly one TPKT message. -/
def readTpkt : Net Bytes := do
  let header ← readexactly 4
  if (← raising (index header 0)) ≠ 0x03 then pure header
  else do
    let hi ← raising (index header 2)
    let lo ← raising (index header 3)
    let total := (hi.toNat <<< 8) ||| lo.toNat
    let rest ← readexactly ((total : ℤ) - 4)
    pure (header ++ rest)

/-- The `try` block of `_identify`: the last answer, `none` where the block returns. -/
def handshake (rack slot : Nat) : Net (Option Bytes) := do
  -- 1. COTP connection
  write (← raising (buildConnectionRequest rack slot 0x01))
  drain
  if ¬ isConnectionConfirm (← readTpkt) then pure none
  else do
    -- 2. S7 setup communication
    write (← raising buildSetupCommunication)
    drain
    let _ ← readTpkt
    -- 3. Read SZL
    write (← raising (buildReadSzl 0x0011 0x0000))
    drain
    let response ← readTpkt
    pure (some response)

/-- `_identify`, behind its `try` block. -/
def identifyAnswer (response : Bytes) : Net (Option String) := do
  match ← raising (parseSzl response) with
  | none => pure (if isS7Response response then some "S7comm" else none)
  | some info => pure (describe (some info))

def identify (rack slot : Nat) : Net (Option String) := do
  match ← caught (handshake rack slot) with
  | none => pure none
  | some response => identifyAnswer response

/-- `scan_port`; `latencyMs` is the time the connection took. -/
def scanPort (rack slot : Nat) (connect : Connect) (latencyMs : ℚ) (port : Nat) : Net PortResult :=
  match connect with
  | .timedOut => pure { port, state := .filtered }
  | .refused => pure { port, state := .closed, latencyMs }
  | .failed => pure { port, state := .filtered }
  | .accepted => do
    let banner ← identify rack slot
    suppressOSError waitClosed
    pure { port, state := .opened, latencyMs, banner }

/-! ## What a peer sends -/

/-- The length a TPKT header declares. -/
def declared (header : Bytes) : Nat := u16 (header.getD 2 0) (header.getD 3 0)

/-- A message the peer gets across, up to the wire `w'`: a TPKT message by its declared length, or
four bytes of anything else. -/
inductive Sends (w : Wire) : Bytes → Wire → Prop where
  | foreign {header : Bytes} {w' : Wire} (read : w.Reads 4 header w')
      (other : header.getD 0 0 ≠ 0x03) : Sends w header w'
  | tpkt {header rest : Bytes} {w' w'' : Wire} (read : w.Reads 4 header w')
      (version : header.getD 0 0 = 0x03) (room : 4 ≤ declared header)
      (read_rest : w'.Reads (declared header - 4) rest w'') : Sends w (header ++ rest) w''

/-- A TPKT header that declares less than its own length. -/
def Lies (w : Wire) : Prop :=
  ∃ header w', w.Reads 4 header w' ∧ header.getD 0 0 = 0x03 ∧ declared header < 4

/-- The peer gets such a header across where the handshake reads one: at once, behind a connection
confirm, or behind a connection confirm and the answer to the setup. -/
def Aborts (w : Wire) : Prop :=
  Lies w.settle ∨ ∃ confirm w1, Sends w.settle confirm w1 ∧ isConnectionConfirm confirm = true ∧
    (Lies w1.settle ∨ ∃ setup w2, Sends w1.settle setup w2 ∧ Lies w2.settle)

/-! ## Reading a message -/

theorem declared_eq (header : Bytes) :
    ((header.getD 2 0).toNat <<< 8) ||| (header.getD 3 0).toNat = declared header := by
  rw [← Nat.shiftLeft_add_eq_or_of_lt (i := 8) (UInt8.toNat_lt _), Nat.shiftLeft_eq]
  rfl

/-- Behind a header: what `readTpkt` does by its first byte. -/
theorem readTpkt_header {c : Conn} {header : Bytes} {w' : Wire} (h : c.wire.Reads 4 header w') :
    readTpkt c =
      if header.getD 0 0 ≠ 0x03 then .ok header { c with wire := w' }
      else (readexactly ((declared header : ℤ) - 4) >>= fun rest => pure (header ++ rest))
        { c with wire := w' } := by
  have hlen := h.2.length
  have hread : readexactly 4 c = .ok header { c with wire := w' } := readexactly_reads h
  rw [readTpkt, bind_ok hread, index_getD (by omega), index_getD (by omega), index_getD (by omega),
    bind_ok raising_ok]
  split
  · rfl
  · rw [bind_ok raising_ok, bind_ok raising_ok, declared_eq]

theorem Sends.read {c : Conn} {m : Bytes} {w' : Wire} (h : Sends c.wire m w') :
    readTpkt c = .ok m { c with wire := w' } := by
  cases h with
  | foreign read other => rw [readTpkt_header read, if_pos other]
  | @tpkt header rest w1 _ read version room read_rest =>
    have hrest : readexactly ((declared header : ℤ) - 4) { c with wire := w1 } =
        .ok rest { c with wire := w' } := by
      rw [← Nat.cast_ofNat, ← Nat.cast_sub room]
      exact readexactly_reads read_rest
    rw [readTpkt_header read, if_neg (not_not.mpr version), bind_ok hrest]
    rfl

theorem Lies.raises {c : Conn} (h : Lies c.wire) :
    ∃ c', readTpkt c = .error (.raised .valueError) c' := by
  obtain ⟨header, w', read, version, hshort⟩ := h
  have hraise : readexactly ((declared header : ℤ) - 4) { c with wire := w' } =
      .error (.raised .valueError) { c with wire := w' } := if_pos (by omega)
  refine ⟨{ c with wire := w' }, ?_⟩
  rw [readTpkt_header read, if_neg (not_not.mpr version), bind_error hraise]

/-- The peer sends a message, or a header that lies, or the read ends in an exception that is
caught. -/
theorem readTpkt_cases (c : Conn) :
    (∃ m w', Sends c.wire m w') ∨ Lies c.wire ∨ ∃ e c', e.Caught ∧ readTpkt c = .error e c' := by
  rcases readexactly_cases 4 c with ⟨header, w', read⟩ | ⟨e, c', he, h⟩
  · by_cases hversion : header.getD 0 0 = 0x03
    · by_cases hshort : declared header < 4
      · exact .inr (.inl ⟨header, w', read, hversion, hshort⟩)
      · have hroom : 4 ≤ declared header := by omega
        rcases readexactly_cases (declared header - 4) { c with wire := w' } with
          ⟨rest, w'', read_rest⟩ | ⟨e, c', he, h⟩
        · exact .inl ⟨_, _, .tpkt read hversion hroom read_rest⟩
        · refine .inr (.inr ⟨e, c', he, ?_⟩)
          rw [Nat.cast_sub hroom, Nat.cast_ofNat] at h
          rw [readTpkt_header read, if_neg (not_not.mpr hversion), bind_error h]
    · exact .inl ⟨_, _, .foreign read hversion⟩
  · exact .inr (.inr ⟨e, c', he, bind_error h⟩)

/-! ## The handshake -/

section Exchange

variable {β : Type} {message : Bytes} {f : Bytes → Net β} {c : Conn}

/-- A step of the handshake: a message out, an answer in. -/
def exchange (message : Result Bytes) (f : Bytes → Net β) : Net β := do
  write (← raising message)
  drain
  let answer ← readTpkt
  f answer

/-- The connection behind the message and the round it takes to drain. -/
def asked (message : Bytes) (c : Conn) : Conn := ⟨c.wire.settle, c.written ++ [message]⟩

theorem exchange_drained (h : c.wire.settle.reader.lost = false) :
    exchange (.ok message) f c = (readTpkt >>= f) (asked message c) := by
  have hdrain : drain { c with written := c.written ++ [message] } = .ok () (asked message c) := by
    rw [drain, h]
    rfl
  rw [exchange, bind_ok raising_ok, bind_ok (write_ok message c), bind_ok hdrain]

theorem exchange_sends {answer : Bytes} {w' : Wire} (h : Sends c.wire.settle answer w') :
    exchange (.ok message) f c = f answer ⟨w', c.written ++ [message]⟩ := by
  have hlost : c.wire.settle.reader.lost = false := by
    cases h with
    | foreign read => exact read.1
    | tpkt read => exact read.1
  have hread : readTpkt (asked message c) = .ok answer ⟨w', c.written ++ [message]⟩ := Sends.read h
  rw [exchange_drained hlost, bind_ok hread]

theorem exchange_lies (h : Lies c.wire.settle) :
    ∃ c', exchange (.ok message) f c = .error (.raised .valueError) c' := by
  obtain ⟨_, _, read, -⟩ := id h
  obtain ⟨c', hraise⟩ := Lies.raises (c := asked message c) h
  refine ⟨c', ?_⟩
  rw [exchange_drained read.1, bind_error hraise]

theorem exchange_cases :
    (∃ answer w', Sends c.wire.settle answer w') ∨ Lies c.wire.settle ∨
      ∃ e c', e.Caught ∧ exchange (.ok message) f c = .error e c' := by
  cases hlost : c.wire.settle.reader.lost with
  | true =>
    have hdrain : drain { c with written := c.written ++ [message] } =
        .error (.raised .osError) (asked message c) := by
      rw [drain, hlost]
      rfl
    refine .inr (.inr ⟨.raised .osError, asked message c, .inr (.inr rfl), ?_⟩)
    rw [exchange, bind_ok raising_ok, bind_ok (write_ok message c), bind_error hdrain]
  | false =>
    rcases readTpkt_cases (asked message c) with h | h | ⟨e, c', he, h⟩
    · exact .inl h
    · exact .inr (.inl h)
    · refine .inr (.inr ⟨e, c', he, ?_⟩)
      rw [exchange_drained hlost, bind_error h]

end Exchange

variable (rack slot : Nat)

/-- The handshake as three exchanges. -/
theorem handshake_eq :
    handshake rack slot = exchange (buildConnectionRequest rack slot 0x01) fun confirm =>
      if ¬ isConnectionConfirm confirm then pure none
      else exchange buildSetupCommunication fun _ =>
        exchange (buildReadSzl 0x0011 0x0000) fun response => pure (some response) := rfl

theorem builders_return :
    (∃ m, buildConnectionRequest rack slot 0x01 = .ok m) ∧ (∃ m, buildSetupCommunication = .ok m) ∧
      ∃ m, buildReadSzl 0x0011 0x0000 = .ok m := ⟨⟨_, rfl⟩, ⟨_, rfl⟩, ⟨_, rfl⟩⟩

/-- On an aborting peer the handshake ends in the `ValueError`. -/
theorem handshake_aborts {c : Conn} (h : Aborts c.wire) :
    ∃ c', handshake rack slot c = .error (.raised .valueError) c' := by
  obtain ⟨⟨m1, h1⟩, ⟨m2, h2⟩, ⟨m3, h3⟩⟩ := builders_return rack slot
  rw [handshake_eq, h1, h2, h3]
  rcases h with hlies | ⟨confirm, w1, hsends, hconfirm, h⟩
  · exact exchange_lies hlies
  · rw [exchange_sends hsends, if_neg (not_not.mpr hconfirm)]
    rcases h with hlies | ⟨setup, w2, hsends, hlies⟩
    · exact exchange_lies (c := ⟨w1, _⟩) hlies
    · rw [exchange_sends (c := ⟨w1, _⟩) hsends]
      exact exchange_lies (c := ⟨w2, _⟩) hlies

/-- On any other peer it returns, or ends in an exception that is caught. -/
theorem handshake_survives {c : Conn} (h : ¬ Aborts c.wire) :
    (∃ r c', handshake rack slot c = .ok r c') ∨
      ∃ e c', e.Caught ∧ handshake rack slot c = .error e c' := by
  obtain ⟨⟨m1, h1⟩, ⟨m2, h2⟩, ⟨m3, h3⟩⟩ := builders_return rack slot
  rw [handshake_eq, h1, h2, h3]
  rcases exchange_cases with ⟨confirm, w1, hsends⟩ | hlies | hcaught
  · rw [exchange_sends hsends]
    cases hconfirm : isConnectionConfirm confirm with
    | false => exact .inl ⟨none, _, rfl⟩
    | true =>
      rw [if_neg (not_not.mpr rfl)]
      rcases exchange_cases with ⟨setup, w2, hsends2⟩ | hlies | hcaught
      · rw [exchange_sends hsends2]
        rcases exchange_cases with ⟨response, w3, hsends3⟩ | hlies | hcaught
        · rw [exchange_sends hsends3]
          exact .inl ⟨some response, _, rfl⟩
        · exact absurd (.inr ⟨confirm, w1, hsends, hconfirm, .inr ⟨setup, w2, hsends2, hlies⟩⟩) h
        · exact .inr hcaught
      · exact absurd (.inr ⟨confirm, w1, hsends, hconfirm, .inl hlies⟩) h
      · exact .inr hcaught
  · exact absurd (.inl hlies) h
  · exact .inr hcaught

/-! ## The scan -/

/-- A banner the strategy may report. -/
def Names (banner : Option String) : Prop := ∀ b, banner = some b → "S7comm".toList <+: b.toList

theorem identifyAnswer_names (response : Bytes) (c : Conn) :
    ∃ banner, identifyAnswer response c = .ok banner c ∧ Names banner := by
  obtain ⟨info, h, -⟩ := parseSzl_yields response
  cases info with
  | none =>
    refine ⟨if isS7Response response then some "S7comm" else none, ?_, ?_⟩
    · rw [identifyAnswer, h, bind_ok raising_ok]
      rfl
    · intro b hb
      split at hb <;> cases hb
      exact List.prefix_rfl
  | some info =>
    refine ⟨describe (some info), ?_, fun b => describe_names⟩
    rw [identifyAnswer, h, bind_ok raising_ok]
    rfl

theorem identify_aborts {c : Conn} (h : Aborts c.wire) :
    ∃ c', identify rack slot c = .error (.raised .valueError) c' := by
  obtain ⟨c', hraise⟩ := handshake_aborts rack slot h
  have hcaught : caught (handshake rack slot) c = .error (.raised .valueError) c' := by
    rw [caught, hraise]
    exact if_neg (by decide)
  exact ⟨c', bind_error hcaught⟩

theorem identify_survives {c : Conn} (h : ¬ Aborts c.wire) :
    ∃ banner c', identify rack slot c = .ok banner c' ∧ Names banner := by
  have nothing : ∀ {c'}, caught (handshake rack slot) c = .ok none c' →
      ∃ banner c', identify rack slot c = .ok banner c' ∧ Names banner := by
    intro c' hnone
    exact ⟨none, c', bind_ok hnone, nofun⟩
  rcases handshake_survives rack slot h with ⟨r, c', hr⟩ | ⟨e, c', he, hr⟩
  · have hcaught : caught (handshake rack slot) c = .ok r c' := by rw [caught, hr]
    cases r with
    | none => exact nothing hcaught
    | some response =>
      obtain ⟨banner, hi, hnames⟩ := identifyAnswer_names response c'
      exact ⟨banner, c', (bind_ok hcaught).trans hi, hnames⟩
  · have hcaught : caught (handshake rack slot) c = .ok none c' := by
      rw [caught, hr]
      exact if_pos he
    exact nothing hcaught

/-- **A peer cannot abort the scan** unless a TPKT header it gets across, where the handshake reads
one, declares less than four bytes: on all others an open port is reported, with a banner that
names S7comm or with none. -/
theorem scan_survives (rack slot port : Nat) (latencyMs : ℚ) (rounds : List (List Event)) :
    (∃ result c', scanPort rack slot .accepted latencyMs port (accepted rounds) = .ok result c' ∧
        result.port = port ∧ result.state = .opened ∧ Names result.banner) ↔
      ¬ Aborts (accepted rounds).wire := by
  constructor
  · rintro ⟨result, c', hscan, -⟩ haborts
    obtain ⟨c'', hraise⟩ := identify_aborts rack slot haborts
    rw [scanPort, bind_error hraise] at hscan
    cases hscan
  · intro h
    obtain ⟨banner, c', hi, hnames⟩ := identify_survives rack slot h
    refine ⟨{ port, state := .opened, latencyMs, banner }, { c' with wire := c'.wire.settle }, ?_,
      rfl, rfl, hnames⟩
    rw [scanPort, bind_ok hi, bind_ok (suppressOSError_waitClosed c')]
    rfl

/-- Four bytes abort it: a TPKT header that declares length 0. -/
theorem scan_aborted :
    ¬ ∀ (rack slot port : Nat) (latencyMs : ℚ) (rounds : List (List Event)),
      ∃ result c', scanPort rack slot .accepted latencyMs port (accepted rounds) = .ok result c' ∧
        result.port = port ∧ result.state = .opened ∧ Names result.banner := by
  intro hscan
  obtain ⟨result, c', h, -⟩ := hscan 0 2 102 0 [[], [.data [0x03, 0, 0, 0]]]
  have haborts : Aborts (accepted [[], [.data [0x03, 0, 0, 0]]]).wire :=
    .inl ⟨[0x03, 0, 0, 0], ⟨{}, []⟩, ⟨rfl, .later (by decide) rfl nofun (.here (by decide))⟩, rfl,
      by decide⟩
  obtain ⟨c'', hraise⟩ := identify_aborts 0 2 haborts
  rw [scanPort, bind_error hraise] at h
  cases h

end Pyscan.S7commScan
