import Pyscan.Adapters.S7commScan
import Pyscan.Domain.Iec104
import Pyscan.Domain.Modbus
import Pyscan.Py.Streams
import Pyscan.Py.Text

/-!
# The scan strategies over a stream

Four strategies open a TCP connection, do something on it and close it:
`scanStream` is what they share, `identify` what each does in between. A
`Strategy` is one of them with its options, as `getStrategy` makes it.

Whatever the peer does, all of them but S7comm return (`Strategy.returns`), and
**what any of them has written is a beginning of its requests**
(`Strategy.writes`), whether it returned or not.
-/

namespace Pyscan

open Py Streams
open S7commScan (Connect)

/-- `scan_port` of a strategy that does `identify` on an open connection; `latencyMs` is the time the
connection took. -/
def scanStream (identify : Net (Option String)) (connect : Connect) (latencyMs : ℚ) (port : Nat) :
    Net PortResult :=
  match connect with
  | .timedOut => pure { port, state := .filtered }
  | .refused => pure { port, state := .closed, latencyMs }
  | .failed => pure { port, state := .filtered }
  | .accepted => do
    let banner ← identify
    suppressOSError waitClosed
    pure { port, state := .opened, latencyMs, banner }

/-! ## Modbus and IEC-104 -/

structure ModbusScan where
  unit : Nat := 1

/-- The `try` block of `scan_port`. -/
def ModbusScan.identify (scan : ModbusScan) : Net (Option String) := exceptOSError do
  let tid := 1
  write (← raising (Modbus.buildDeviceIdRequest scan.unit tid))
  drain
  let data ← read 512
  pure (Modbus.describe (← raising (Modbus.parseResponse data tid)))

/-- The `try` block of `scan_port`. -/
def Iec104Scan.identify : Net (Option String) := exceptOSError do
  write Iec104.buildTestfrAct
  drain
  let data ← read 64
  pure (Iec104.describe (← raising (Iec104.parseResponse data)))

/-! ## The connect scan -/

structure TcpConnectScan where
  grabBanner : Bool := true
  httpProbe : Bool := true
  bannerBytes : Nat := 512

namespace TcpConnectScan

/-- `_HTTP_PROBE`: `HEAD / HTTP/1.0` and an empty line. -/
def probe : Bytes :=
  [0x48, 0x45, 0x41, 0x44, 0x20, 0x2F, 0x20, 0x48, 0x54, 0x54, 0x50, 0x2F, 0x31, 0x2E, 0x30,
    0x0D, 0x0A, 0x0D, 0x0A]

/-- The banner on one line. -/
def clean (data : Bytes) : Option String :=
  if data = [] then none
  else
    let text := (latin1 data).toList.map fun ch => if isPrintable ch then ch else ' '
    let text := [' '].intercalate (splitWhite text)
    S7comm.orNone (String.ofList (text.take 200))

variable (scan : TcpConnectScan)

/-- `_read`. -/
def readBanner : Net (Option String) := do
  match ← exceptOSError (some <$> read scan.bannerBytes) with
  | none => pure none
  | some data => pure (clean data)

/-- Coax a server that speaks only when spoken to. -/
def nudge : Net (Option String) := do
  let sent ← exceptOSError do
    write probe
    drain
    pure (some ())
  match sent with
  | none => pure none
  | some () => scan.readBanner

def identify : Net (Option String) :=
  if ¬ scan.grabBanner then pure none
  else do
    let banner ← scan.readBanner
    if scan.httpProbe ∧ banner.getD "" = "" then scan.nudge else pure banner

example : clean "SSH-2.0-x\r\n\x01y".toUTF8.toList = some "SSH-2.0-x y" := by decide +kernel

end TcpConnectScan

/-! ## The strategies -/

/-- A strategy over a stream, with its options. -/
inductive Strategy where
  | tcpConnect (scan : TcpConnectScan)
  | modbus (scan : ModbusScan)
  | iec104
  | s7comm (rack slot : Nat)

namespace Strategy

/-- `get_strategy` for the names of these classes, as the command line calls it; the other two, `udp` and
`syn`, open no stream. -/
def getStrategy (name : String) (grabBanner : Bool) : Option Strategy :=
  if name = "tcp-connect" then some (.tcpConnect { grabBanner })
  else if name = "modbus" then some (.modbus {})
  else if name = "iec104" then some .iec104
  else if name = "s7comm" then some (.s7comm 0 2)
  else none

def identify : Strategy → Net (Option String)
  | .tcpConnect scan => scan.identify
  | .modbus scan => scan.identify
  | .iec104 => Iec104Scan.identify
  | .s7comm rack slot => S7commScan.identify rack slot

def scanPort : Strategy → Connect → ℚ → Nat → Net PortResult
  | .s7comm rack slot => S7commScan.scanPort rack slot
  | strategy => scanStream strategy.identify

/-- S7comm scans a port as the others do. -/
theorem scanPort_eq (strategy : Strategy) : strategy.scanPort = scanStream strategy.identify := by
  cases strategy <;> rfl

end Strategy

/-! ## What is written -/

section Writes

variable {α β : Type}

/-- What `before` is, with some of the requests written behind it. -/
def Wrote (before requests : List Bytes) (c : Conn) : Prop :=
  ∃ sent, c.written = before ++ sent ∧ sent <+: requests

/-- Both ways a coroutine can end, it has written a beginning of the requests. -/
def Asks (x : Net α) (requests : List Bytes) : Prop :=
  ∀ c, Ends x c (fun _ => Wrote c.written requests) fun _ => Wrote c.written requests

variable {x : Net α} {requests : List Bytes}

theorem wrote_nothing {before : List Bytes} {c : Conn} (h : c.written = before) :
    Wrote before requests c := ⟨[], by rw [h, List.append_nil], List.nil_prefix⟩

theorem asks_pure (a : α) : Asks (pure a : Net α) requests := fun _ =>
  ends_pure (wrote_nothing rfl)

theorem asks_raising (r : Result α) : Asks (raising r) requests := by
  intro c
  cases r with
  | ok a => exact ends_ok raising_ok (wrote_nothing rfl)
  | error e =>
    have hraised : raising (.error e : Result α) c = .error (.raised e) c := rfl
    exact ends_error hraised (wrote_nothing rfl)

theorem asks_drain : Asks drain requests := fun c =>
  (drain_ends c).mono (fun _ _ h => wrote_nothing h) fun _ _ h => wrote_nothing h.2

theorem asks_read (n : Nat) : Asks (read n) requests := fun c =>
  (read_ends n c).mono (fun _ _ h => wrote_nothing h.1) fun _ _ h => wrote_nothing h.2

/-- A coroutine that asks nothing, and what it goes on to. -/
theorem Asks.bind {f : α → Net β} (h : Asks x []) (k : ∀ a, Asks (f a) requests) :
    Asks (x >>= f) requests := by
  intro c
  have hsame : ∀ c', Wrote c.written [] c' → c'.written = c.written := by
    rintro c' ⟨sent, hc', hsent⟩
    rw [hc', List.prefix_nil.mp hsent, List.append_nil]
  have hx : Ends x c (fun _ c' => c'.written = c.written) fun _ => Wrote c.written requests :=
    (h c).mono (fun _ => hsame) fun _ c' hw => wrote_nothing (hsame c' hw)
  refine hx.bind fun a c' hc' => ?_
  rw [← hc']
  exact k a c'

/-- A request is written, and the others behind it. -/
theorem asks_write {message : Bytes} {f : Unit → Net β} (k : Asks (f ()) requests) :
    Asks (write message >>= f) (message :: requests) := by
  intro c
  have hgo : ∀ c', Wrote (c.written ++ [message]) requests c' →
      Wrote c.written (message :: requests) c' := by
    rintro c' ⟨sent, hc', hsent⟩
    exact ⟨message :: sent, by rw [hc', List.append_assoc, List.singleton_append],
      List.prefix_cons_inj message |>.mpr hsent⟩
  have hk := (k { c with written := c.written ++ [message] }).mono (fun _ => hgo) fun _ => hgo
  rwa [Ends, ← bind_ok (f := f) (write_ok message c)] at hk

/-- A clause around a coroutine returns what it returns, and `None` or the exception where it raises;
neither writes. -/
theorem Asks.handled {x y : Net (Option α)} (h : Asks x requests)
    (hok : ∀ {c a c'}, x c = .ok a c' → y c = .ok a c')
    (herror : ∀ {c e c'}, x c = .error e c' → y c = .ok none c' ∨ y c = .error e c') :
    Asks y requests := by
  intro c
  rcases (h c).cases with ⟨a, c', hx, hw⟩ | ⟨e, c', hx, hw⟩
  · exact ends_ok (hok hx) hw
  · rcases herror hx with hy | hy
    · exact ends_ok hy hw
    · exact ends_error hy hw

theorem Asks.exceptOSError {x : Net (Option α)} (h : Asks x requests) :
    Asks (Streams.exceptOSError x) requests :=
  h.handled exceptOSError_ok exceptOSError_error

theorem Asks.caught {x : Net (Option α)} (h : Asks x requests) : Asks (Streams.caught x) requests :=
  h.handled caught_ok caught_error

end Writes

/-! ## What each strategy writes -/

section Requests

variable {α : Type} {requests : List Bytes}

/-- A request as it is built, and the others behind it. -/
theorem asks_request {r : Result Bytes} {f : Unit → Net α} (k : Asks (f ()) requests) :
    Asks (raising r >>= fun message => write message >>= f) (value r :: requests) := by
  cases r with
  | ok message =>
    have hbuilt : (raising (.ok message) >>= fun message => write message >>= f) =
        (write message >>= f) := funext fun c => bind_ok raising_ok
    rw [hbuilt]
    exact asks_write k
  | error e =>
    intro c
    have hraised : raising (.error e : Result Bytes) c = .error (.raised e) c := rfl
    exact ends_error (bind_error hraised) (wrote_nothing rfl)

theorem asks_readexactly (n : ℤ) : Asks (readexactly n) requests := fun c =>
  (readexactly_ends n c).mono (fun _ _ h => wrote_nothing h) fun _ _ h => wrote_nothing h

theorem asks_readTpkt : Asks S7commScan.readTpkt [] := by
  refine (asks_readexactly 4).bind fun header => (asks_raising _).bind fun version => ?_
  split
  · exact asks_pure header
  · refine (asks_raising _).bind fun hi => (asks_raising _).bind fun lo => ?_
    exact (asks_readexactly _).bind fun rest => asks_pure _

theorem asks_exchange {message : Result Bytes} {f : Bytes → Net α} (k : ∀ answer, Asks (f answer) requests) :
    Asks (S7commScan.exchange message f) (value message :: requests) :=
  asks_request (asks_drain.bind fun _ => asks_readTpkt.bind k)

/-- A last part that asks nothing changes nothing. -/
theorem Asks.bind_quiet {β : Type} {x : Net α} {f : α → Net β} (h : Asks x requests)
    (k : ∀ a, Asks (f a) []) : Asks (x >>= f) requests := by
  intro c
  refine (h c).bind fun a c' hw => (k a c').mono (fun _ c'' hk => ?_) fun _ c'' hk => ?_
  all_goals
    obtain ⟨sent, hc'', hsent⟩ := hk
    rwa [Wrote, hc'', List.prefix_nil.mp hsent, List.append_nil]

end Requests

namespace Strategy

/-- The messages a strategy may write, in order. -/
def requests : Strategy → List Bytes
  | .tcpConnect _ => [TcpConnectScan.probe]
  | .modbus scan => [value (Modbus.buildDeviceIdRequest scan.unit 1)]
  | .iec104 => [Iec104.buildTestfrAct]
  | .s7comm rack slot => [value (S7comm.buildConnectionRequest rack slot 0x01),
      value S7comm.buildSetupCommunication, value (S7comm.buildReadSzl 0x0011 0x0000)]

theorem asks_readBanner (scan : TcpConnectScan) : Asks scan.readBanner [] := by
  have hread : Asks (some <$> read scan.bannerBytes) [] :=
    (asks_read _).bind fun d => asks_pure (some d)
  refine hread.exceptOSError.bind fun data => ?_
  cases data <;> exact asks_pure _

theorem asks_nudge (scan : TcpConnectScan) : Asks scan.nudge [TcpConnectScan.probe] := by
  have hsend : Asks (do write TcpConnectScan.probe; drain; pure (some ()))
      [TcpConnectScan.probe] := asks_write (asks_drain.bind fun _ => asks_pure _)
  refine hsend.exceptOSError.bind_quiet fun sent => ?_
  cases sent with
  | none => exact asks_pure none
  | some _ => exact asks_readBanner scan

theorem asks_handshake (rack slot : Nat) :
    Asks (S7commScan.handshake rack slot) (Strategy.s7comm rack slot).requests := by
  rw [S7commScan.handshake_eq]
  refine asks_exchange fun confirm => ?_
  split
  · exact asks_pure none
  · exact asks_exchange fun _ => asks_exchange fun response => asks_pure (some response)

theorem asks_identifyAnswer (response : Bytes) : Asks (S7commScan.identifyAnswer response) [] := by
  refine (asks_raising _).bind fun info => ?_
  cases info <;> exact asks_pure _

theorem asks_identify (strategy : Strategy) : Asks strategy.identify strategy.requests := by
  cases strategy with
  | tcpConnect scan =>
    show Asks scan.identify [TcpConnectScan.probe]
    unfold TcpConnectScan.identify
    split
    · exact asks_pure none
    · refine (asks_readBanner scan).bind fun banner => ?_
      split
      · exact asks_nudge scan
      · exact asks_pure banner
  | modbus scan =>
    refine (asks_request ?_).exceptOSError
    refine asks_drain.bind fun _ => (asks_read 512).bind fun data => ?_
    exact (asks_raising _).bind fun info => asks_pure _
  | iec104 =>
    refine (asks_write ?_).exceptOSError
    refine asks_drain.bind fun _ => (asks_read 64).bind fun data => ?_
    exact (asks_raising _).bind fun info => asks_pure _
  | s7comm rack slot =>
    refine (asks_handshake rack slot).caught.bind_quiet fun response => ?_
    cases response with
    | none => exact asks_pure none
    | some response => exact asks_identifyAnswer response

theorem asks_close : Asks (suppressOSError waitClosed) [] := fun c =>
  ends_ok (suppressOSError_waitClosed c) (wrote_nothing rfl)

/-- **A strategy writes its requests, in order, and nothing else**: whatever the peer does, and
whether the scan returns or raises, what it has written is a beginning of them. -/
theorem writes (strategy : Strategy) (connect : Connect) (latencyMs : ℚ) (port : Nat)
    (rounds : List (List Event)) :
    Ends (strategy.scanPort connect latencyMs port) (accepted rounds)
      (fun _ c => c.written <+: strategy.requests) fun _ c => c.written <+: strategy.requests := by
  have hscan : Asks (strategy.scanPort connect latencyMs port) strategy.requests := by
    rw [scanPort_eq]
    cases connect with
    | accepted =>
      refine (asks_identify strategy).bind_quiet fun banner => ?_
      exact asks_close.bind fun _ => asks_pure _
    | timedOut => exact asks_pure _
    | refused => exact asks_pure _
    | failed => exact asks_pure _
  have hall : ∀ c, Wrote [] strategy.requests c → c.written <+: strategy.requests := by
    rintro c ⟨sent, hc, hsent⟩
    rwa [hc, List.nil_append]
  exact (hscan (accepted rounds)).mono (fun _ => hall) fun _ => hall

end Strategy

/-! ## What is reported -/

theorem TcpConnectScan.clean_printable {data : Bytes} {banner : String}
    (h : TcpConnectScan.clean data = some banner) :
    banner ≠ "" ∧ banner.toList.length ≤ 200 ∧ ∀ c ∈ banner.toList, isPrintable c = true := by
  unfold TcpConnectScan.clean at h
  split at h
  · cases h
  · dsimp only at h
    unfold S7comm.orNone at h
    split at h
    · cases h
    · rename_i hne
      cases h
      refine ⟨hne, ?_, ?_⟩
      · rw [String.toList_ofList]
        exact List.length_take_le _ _
      · intro c hc
        rw [String.toList_ofList] at hc
        rcases mem_intercalate (List.mem_of_mem_take hc) with hsep | ⟨part, hpart, hc⟩
        · rw [List.mem_singleton.mp hsep]
          decide
        · obtain ⟨d, -, rfl⟩ := List.mem_map.mp (mem_splitWhite hpart hc)
          split
          · assumption
          · decide

namespace Strategy

/-- The state a port is reported in. -/
def stateOf : Connect → PortState
  | .accepted => .opened
  | .refused => .closed
  | .timedOut | .failed => .filtered

/-- A banner the strategy may report: it names the protocol, or is one line of printable text. -/
def Banner : Strategy → String → Prop
  | .tcpConnect _, banner =>
    banner ≠ "" ∧ banner.toList.length ≤ 200 ∧ ∀ c ∈ banner.toList, isPrintable c = true
  | .modbus _, banner => "Modbus/TCP".toList <+: banner.toList
  | .iec104, banner => "IEC 60870-5-104".toList <+: banner.toList
  | .s7comm _ _, banner => "S7comm".toList <+: banner.toList

/-- The peers on which a strategy returns. -/
def Survives (rounds : List (List Event)) : Strategy → Prop
  | .modbus scan => scan.unit < 256
  | .s7comm _ _ => ¬ S7commScan.Aborts (accepted rounds).wire
  | .tcpConnect _ | .iec104 => True

/-- Nothing came back. -/
def silent (connect : Connect) : Bool := decide (connect = .timedOut ∨ connect = .failed)

/-- A result for the port that says how the connection went. -/
def Reports (strategy : Strategy) (connect : Connect) (latencyMs : ℚ) (port : Nat)
    (result : PortResult) : Prop :=
  ∃ banner : Option String, result =
      { port
        state := stateOf connect
        latencyMs := if silent connect then none else some latencyMs
        banner } ∧
    ∀ b, banner = some b → connect = .accepted ∧ strategy.Banner b

/-- A coroutine that can only end in an `OSError`. -/
def Quits {α : Type} (x : Net α) : Prop := ∀ c, Ends x c (fun _ _ => True) fun e _ => e.IsOSError

section Quits

variable {α β : Type} {c : Conn}

theorem quits_write (message : Bytes) : Quits (write message) := fun c =>
  ends_ok (write_ok message c) trivial

theorem quits_drain : Quits drain := fun c =>
  (drain_ends c).mono (fun _ _ _ => trivial) fun _ _ h => h.1

theorem quits_read (n : Nat) : Quits (read n) := fun c =>
  (read_ends n c).mono (fun _ _ _ => trivial) fun _ _ h => h.1

theorem Quits.bind {x : Net α} {f : α → Net β} {Q : β → Conn → Prop} (h : Quits x)
    (k : ∀ a c', Ends (f a) c' Q fun e _ => e.IsOSError) :
    Ends (x >>= f) c Q fun e _ => e.IsOSError := (h c).bind fun a c' _ => k a c'

/-- Under the clause it returns, and what it returns is `None` where it would have raised. -/
theorem ends_caught {x : Net (Option α)} {Q : Option α → Conn → Prop}
    (h : Ends x c Q fun e _ => e.IsOSError) (hnone : ∀ c', Q none c') :
    Ends (exceptOSError x) c Q fun _ _ => False := h.exceptOSError fun _ c' he => ⟨he, hnone c'⟩

end Quits

/-- Reading a banner ends in one of printable text, or in none. -/
theorem readBanner_ends (scan : TcpConnectScan) (c : Conn) :
    Ends scan.readBanner c
      (fun banner _ => ∀ b, banner = some b → (Strategy.tcpConnect scan).Banner b)
      fun _ _ => False := by
  have hread : Ends (exceptOSError (some <$> read scan.bannerBytes)) c (fun _ _ => True)
      fun _ _ => False :=
    ends_caught ((quits_read _).bind fun _ _ => ends_pure trivial) fun _ => trivial
  refine hread.bind fun data c' _ => ?_
  cases data with
  | none => exact ends_pure nofun
  | some data => exact ends_pure fun b hb => TcpConnectScan.clean_printable hb

/-- A request sent, and an answer parsed and described, end in a description or in none. -/
theorem query_ends {α : Type} {message : Bytes} {n : Nat} {parse : Bytes → Py.Result α}
    {describe : α → Option String} {P : String → Prop}
    (hparse : ∀ d, Yields (parse d) fun _ => True) (hdescribe : ∀ a b, describe a = some b → P b)
    (c : Conn) :
    Ends (exceptOSError do
      write message
      drain
      let data ← read n
      pure (describe (← raising (parse data)))) c (fun banner _ => ∀ b, banner = some b → P b)
      fun _ _ => False := by
  refine ends_caught ?_ fun _ => nofun
  refine (quits_write message).bind fun _ _ => quits_drain.bind fun _ _ => ?_
  refine (quits_read n).bind fun data c₃ => ?_
  obtain ⟨a, ha, -⟩ := hparse data
  rw [ha]
  exact ends_ok (bind_ok raising_ok) fun b hb => hdescribe a b hb

theorem nudge_ends (scan : TcpConnectScan) (c : Conn) :
    Ends scan.nudge c
      (fun banner _ => ∀ b, banner = some b → (Strategy.tcpConnect scan).Banner b)
      fun _ _ => False := by
  have hsend : Ends (exceptOSError do write TcpConnectScan.probe; drain; pure (some ())) c
      (fun _ _ => True) fun _ _ => False := by
    refine ends_caught ?_ fun _ => trivial
    exact (quits_write _).bind fun _ _ => quits_drain.bind fun _ _ => ends_pure trivial
  refine hsend.bind fun sent c' _ => ?_
  cases sent with
  | none => exact ends_pure nofun
  | some _ => exact readBanner_ends scan c'

theorem identify_ends {strategy : Strategy} {rounds : List (List Event)}
    (h : strategy.Survives rounds) :
    Ends strategy.identify (accepted rounds)
      (fun banner _ => ∀ b, banner = some b → strategy.Banner b) fun _ _ => False := by
  cases strategy with
  | tcpConnect scan =>
    show Ends scan.identify _ _ _
    unfold TcpConnectScan.identify
    split
    · exact ends_pure nofun
    · refine (readBanner_ends scan _).bind fun banner c' hbanner => ?_
      split
      · exact nudge_ends scan c'
      · exact ends_pure hbanner
  | modbus scan =>
    have hbuilt := Modbus.buildDeviceIdRequest_ok h (show 1 < 65536 by decide)
    show Ends scan.identify _ _ _
    rw [ModbusScan.identify]
    dsimp only
    rw [hbuilt]
    exact query_ends (fun d => Modbus.parseResponse_yields d 1) (fun _ _ => Modbus.describe_names) _
  | iec104 =>
    exact query_ends Iec104.parseResponse_yields (fun _ _ => Iec104.describe_names) _
  | s7comm rack slot =>
    obtain ⟨banner, c', hi, hnames⟩ := S7commScan.identify_survives rack slot h
    exact ends_ok hi hnames

/-- **A scan of a port returns, whatever the peer does**, with the state of the connection and a
banner the strategy can vouch for. -/
theorem returns (strategy : Strategy) (connect : Connect) (latencyMs : ℚ) (port : Nat)
    (rounds : List (List Event)) (h : connect = .accepted → strategy.Survives rounds) :
    ∃ result c', strategy.scanPort connect latencyMs port (accepted rounds) = .ok result c' ∧
      strategy.Reports connect latencyMs port result := by
  rw [scanPort_eq]
  cases connect with
  | accepted =>
    obtain ⟨banner, c', hi, hbanner⟩ := (identify_ends (h rfl)).returns
    refine ⟨{ port, state := .opened, latencyMs, banner }, { c' with wire := c'.wire.settle }, ?_,
      banner, rfl, fun b hb => ⟨rfl, hbanner b hb⟩⟩
    rw [scanStream, bind_ok hi, bind_ok (suppressOSError_waitClosed c')]
    rfl
  | timedOut => exact ⟨_, _, rfl, none, rfl, nofun⟩
  | refused => exact ⟨_, _, rfl, none, rfl, nofun⟩
  | failed => exact ⟨_, _, rfl, none, rfl, nofun⟩

end Strategy

end Pyscan
