import Pyscan.Domain.Iec104
import Pyscan.Domain.Modbus
import Pyscan.Domain.Models
import Pyscan.Domain.Szl
import Pyscan.Lib.Regex

/-!
# Service fingerprints

The signature table of `identify`, row by row, over `Lib.Regex`; the patterns
ignore case, and their classes are those of Latin-1 text. The first signature
that occurs in a banner names the service, and with none the port does.

The banners of the S7comm and the IEC 60870-5-104 probes are always identified
as what they are. A Modbus banner holds strings of the device's choosing, and
**is identified as Modbus exactly when** these are `Recognized`: neither of the
two other protocol names occurs in them, and no line break stands in the way of
the Modbus signature (`identification_agrees`).
-/

namespace Pyscan.Fingerprint

open Py Regex Regex.Re

/-! ## Ports -/

def wellKnown : List (Nat × String) := [
  (20, "ftp-data"), (21, "ftp"), (22, "ssh"), (23, "telnet"), (25, "smtp"),
  (53, "dns"), (67, "dhcp"), (80, "http"), (110, "pop3"), (123, "ntp"),
  (143, "imap"), (161, "snmp"), (389, "ldap"), (443, "https"), (445, "smb"),
  (465, "smtps"), (587, "submission"), (631, "ipp"), (993, "imaps"), (995, "pop3s"),
  (1433, "mssql"), (1883, "mqtt"), (3306, "mysql"), (3389, "rdp"), (5432, "postgres"),
  (5672, "amqp"), (6379, "redis"), (8080, "http-alt"), (8443, "https-alt"),
  (9200, "elasticsearch"),
  (502, "modbus"), (2404, "iec-104"), (20000, "dnp3"), (102, "s7comm")]

def serviceFor (port : Nat) : Option String := wellKnown.lookup port

/-! ## Patterns -/

inductive Group where
  | product
  | version
  deriving DecidableEq, Repr

abbrev Pattern := Re Char Group

/-- A character, whatever its case. -/
def ignoringCase (c d : Char) : Bool := d.toLower == c.toLower

/-- The characters of a text, whatever their case. -/
def text (s : String) : Pattern := lit (s.toList.map ignoringCase)

/-- `\w`. -/
def isWord (c : Char) : Bool :=
  c.isAlphanum || c == '_' ||
    decide (c.toNat ∈ [0xAA, 0xB2, 0xB3, 0xB5, 0xB9, 0xBA, 0xBC, 0xBD, 0xBE]) ||
    decide (0xC0 ≤ c.toNat ∧ c.toNat ≠ 0xD7 ∧ c.toNat ≠ 0xF7)

/-- `.`. -/
def inLine (c : Char) : Bool := c != '\n'

/-- `[\d.]`. -/
def numeric (c : Char) : Bool := c.isDigit || c == '.'

/-- `[\w.]`. -/
def dotted (c : Char) : Bool := isWord c || c == '.'

def among (s : String) (c : Char) : Bool := s.toList.contains c

/-- `\s+`. -/
def blanks : Pattern := plus .greedy isWhite

/-- `\s*`. -/
def anyBlanks : Pattern := many .greedy isWhite

/-- `(?P<version>[\d.]+)`. -/
def version : Pattern := group .version (plus .greedy numeric)

/-- `$`. -/
def lineEnd : Pattern := finish (· == '\n')

structure Signature where
  service : String
  product : Option String
  regex : Pattern

/-- `Server:\s*NAME(?:/(?P<version>[\d.]+))?`. -/
def serverVersion (name : String) : Pattern :=
  cat [text "Server:", anyBlanks, text name, opt (cat [text "/", version])]

def s7commRegex : Pattern :=
  cat [text "S7comm", opt (cat [blanks, group .product (plus .greedy inLine)])]

def iec104Regex : Pattern := text "IEC 60870-5-104"

def modbusRegex : Pattern :=
  cat [text "Modbus/TCP", opt (cat [blanks, group .product (plus .lazy inLine)]),
    opt (cat [blanks, text "v", version]), anyBlanks, lineEnd]

/-- The signatures behind the first three. -/
def generalSignatures : List Signature := [
  ⟨"ssh", some "OpenSSH", cat [text "SSH-", plus .greedy numeric, text "-OpenSSH", set (among "_-"),
    group .version (plus .greedy dotted)]⟩,
  ⟨"ssh", some "Dropbear", cat [text "SSH-", plus .greedy numeric, text "-dropbear",
    opt (set (among "_-")), group .version (many .greedy dotted)]⟩,
  ⟨"ssh", none, cat [text "SSH-", version, text "-"]⟩,
  ⟨"ftp", some "vsftpd", cat [text "vsftpd ", version]⟩,
  ⟨"ftp", some "ProFTPD", cat [text "ProFTPD ", version]⟩,
  ⟨"ftp", some "FileZilla", cat [text "FileZilla Server", opt (set (among " ")),
    group .version (many .greedy numeric)]⟩,
  ⟨"http", some "nginx", serverVersion "nginx"⟩,
  ⟨"http", some "Apache", serverVersion "Apache"⟩,
  ⟨"http", some "lighttpd", serverVersion "lighttpd"⟩,
  ⟨"http", some "IIS", cat [text "Server:", anyBlanks, text "Microsoft-IIS/", version]⟩,
  ⟨"http", none, cat [text "Server:", anyBlanks,
    group .product (plus .greedy fun c => !among "\r\n ;" c)]⟩,
  ⟨"smtp", some "Exim", cat [text "220", set (among " -"), many .greedy inLine, text "Exim ",
    version]⟩,
  ⟨"smtp", some "Postfix", cat [text "220", set (among " -"), many .greedy inLine, text "Postfix"]⟩,
  ⟨"smtp", none, cat [start, text "220", set (among " -")]⟩,
  ⟨"pop3", none, cat [start, text "+OK"]⟩,
  ⟨"imap", none, cat [start, text "* OK"]⟩,
  ⟨"mysql", some "MySQL", cat [group .version (cat [plus .greedy Char.isDigit, text ".",
    plus .greedy Char.isDigit, text ".", plus .greedy Char.isDigit]),
    many .greedy fun c => !c.isDigit, text "mysql"]⟩,
  ⟨"redis", some "Redis", cat [text "redis_version:", version]⟩]

def signatures : List Signature :=
  ⟨"s7comm", none, s7commRegex⟩ :: ⟨"iec-104", none, iec104Regex⟩ ::
    ⟨"modbus", none, modbusRegex⟩ :: generalSignatures

/-! ## Identification -/

/-- What a group matched, the last time it did. -/
def captured (m : At Char Group) (name : Group) : Option String :=
  (m.groups.lookup name).map String.ofList

/-- The body of the loop over the signatures. -/
def Signature.read (sig : Signature) (banner : String) : Option ServiceInfo :=
  (sig.regex.search banner.toList).map fun m => {
    service := some sig.service
    product := sig.product <|> captured m .product
    version := (captured m .version).filter (· ≠ "") }

def identify (banner : Option String) (port : Nat) : ServiceInfo :=
  match (banner.filter (· ≠ "")).bind fun b => signatures.findSome? fun sig => sig.read b with
  | some info => info
  | none => { service := serviceFor port }

example : identify (some "HTTP/1.0 200 OK Server: nginx/1.24.0 Date: Mon") 80 =
    { service := some "http", product := some "nginx", version := some "1.24.0" } := by decide +kernel

example : identify (some "SSH-2.0-OpenSSH_9.6 Ubuntu") 22 =
    { service := some "ssh", product := some "OpenSSH", version := some "9.6" } := by decide +kernel

example : identify (some "Modbus/TCP Schneider M340 v2.7") 502 =
    { service := some "modbus", product := some "Schneider M340", version := some "2.7" } := by
  decide +kernel

theorem Signature.read_eq_none {sig : Signature} {b : String} :
    sig.read b = none ↔ ¬ sig.regex.Occurs b.toList := by
  rw [read, Option.map_eq_none_iff, search_eq_none]

theorem Signature.read_service {sig : Signature} {b : String} {info : ServiceInfo}
    (h : sig.read b = some info) : info.service = some sig.service := by
  obtain ⟨m, -, rfl⟩ := Option.map_eq_some_iff.mp h
  rfl

theorem identify_some {b : String} (hb : b ≠ "") (port : Nat) :
    identify (some b) port = ((signatures.findSome? fun sig => sig.read b).getD
      { service := serviceFor port }) := by
  rw [identify, Option.filter_some, if_pos (decide_eq_true hb), Option.bind_some]
  cases signatures.findSome? fun sig => sig.read b <;> rfl

theorem serviceFor_modbus {port : Nat} : serviceFor port = some "modbus" ↔ port = 502 := by
  have hone : ∀ e ∈ wellKnown, e.2 = "modbus" → e.1 = 502 := by decide
  constructor
  · intro h
    obtain ⟨l, r, hsplit, -⟩ := List.lookup_eq_some_iff.mp h
    exact hone (port, "modbus") (by rw [hsplit]; simp) rfl
  · rintro rfl
    rfl

/-- A banner is identified as Modbus by the Modbus signature, or by the port with no signature. -/
theorem identify_modbus {b : String} (hb : b ≠ "") (port : Nat) :
    (identify (some b) port).service = some "modbus" ↔
      ¬ s7commRegex.Occurs b.toList ∧ ¬ iec104Regex.Occurs b.toList ∧
        (modbusRegex.Occurs b.toList ∨
          port = 502 ∧ ∀ sig ∈ generalSignatures, ¬ sig.regex.Occurs b.toList) := by
  have other : ∀ sig : Signature, sig.regex.Occurs b.toList →
      ∃ info, sig.read b = some info ∧ info.service = some sig.service := by
    intro sig h
    cases hread : sig.read b with
    | none => exact absurd h (Signature.read_eq_none.mp hread)
    | some info => exact ⟨info, rfl, Signature.read_service hread⟩
  have hgeneral : ∀ sig ∈ generalSignatures, sig.service ≠ "modbus" := by decide
  rw [identify_some hb, signatures]
  by_cases h1 : s7commRegex.Occurs b.toList
  · obtain ⟨info, hread, hservice⟩ := other ⟨"s7comm", none, s7commRegex⟩ h1
    rw [List.findSome?_cons, hread]
    refine iff_of_false (fun h => ?_) fun h => h.1 h1
    exact absurd (hservice.symm.trans h) (by decide)
  rw [List.findSome?_cons, Signature.read_eq_none.mpr h1, and_iff_right h1]
  by_cases h2 : iec104Regex.Occurs b.toList
  · obtain ⟨info, hread, hservice⟩ := other ⟨"iec-104", none, iec104Regex⟩ h2
    rw [List.findSome?_cons, hread]
    refine iff_of_false (fun h => ?_) fun h => h.1 h2
    exact absurd (hservice.symm.trans h) (by decide)
  rw [List.findSome?_cons, Signature.read_eq_none.mpr h2, and_iff_right h2]
  by_cases h3 : modbusRegex.Occurs b.toList
  · obtain ⟨info, hread, hservice⟩ := other ⟨"modbus", none, modbusRegex⟩ h3
    rw [List.findSome?_cons, hread]
    exact iff_of_true hservice (.inl h3)
  rw [List.findSome?_cons, Signature.read_eq_none.mpr h3, or_iff_right h3]
  cases hfind : generalSignatures.findSome? fun sig => sig.read b with
  | none =>
    have hnone := List.findSome?_eq_none_iff.mp hfind
    rw [Option.getD_none, serviceFor_modbus]
    exact (and_iff_left fun sig hsig => Signature.read_eq_none.mp (hnone sig hsig)).symm
  | some info =>
    obtain ⟨sig, hsig, hread⟩ := List.exists_of_findSome?_eq_some hfind
    refine iff_of_false (fun h => ?_) fun h => ?_
    · exact hgeneral sig hsig (Option.some_inj.mp ((Signature.read_service hread).symm.trans h))
    · rw [Signature.read_eq_none.mpr (h.2 sig hsig)] at hread
      cases hread

/-! ## What the first signatures match -/

/-- `s` occurs in the text, in any case. -/
def Contains (s : String) (t : List Char) : Prop :=
  ∃ before w after, t = before ++ (w ++ after) ∧
    w.map Char.toLower = s.toList.map Char.toLower

theorem spans_text {s : String} {pos : Nat} {w rest : List Char} :
    (text s).Spans pos w rest ↔ w.map Char.toLower = s.toList.map Char.toLower := by
  rw [text, spans_lit, List.forall₂_map_left_iff, eq_comm, ← List.forall₂_eq_eq_eq,
    List.forall₂_map_left_iff, List.forall₂_map_right_iff]
  simp only [ignoringCase, beq_iff_eq]
  exact ⟨fun h => h.imp fun _ _ => Eq.symm, fun h => h.imp fun _ _ => Eq.symm⟩

theorem occurs_s7comm {t : List Char} : s7commRegex.Occurs t ↔ Contains "S7comm" t := by
  constructor
  · rintro ⟨before, _, after, rfl, w, v, rfl, hw, -⟩
    exact ⟨before, w, v ++ after, by rw [List.append_assoc], spans_text.mp hw⟩
  · rintro ⟨before, w, after, rfl, hw⟩
    exact ⟨before, w, after, rfl, w, [], (List.append_nil w).symm, spans_text.mpr hw, [], [], rfl,
      .inr rfl, rfl⟩

theorem occurs_iec104 {t : List Char} : iec104Regex.Occurs t ↔ Contains "IEC 60870-5-104" t := by
  simp only [Occurs, Contains, iec104Regex, spans_text]

/-- Blanks, at least one. -/
def Blank (w : List Char) : Prop := w ≠ [] ∧ ∀ c ∈ w, isWhite c = true

/-- Blanks and a text in one line, or nothing. -/
def ProductPart (a : List Char) : Prop :=
  (∃ w l, a = w ++ l ∧ Blank w ∧ l ≠ [] ∧ ∀ c ∈ l, c ≠ '\n') ∨ a = []

/-- Blanks, a `v` and a numeral, or nothing. -/
def VersionPart (b : List Char) : Prop :=
  (∃ w v n, b = w ++ (v ++ n) ∧ Blank w ∧ v.map Char.toLower = ['v'] ∧ n ≠ [] ∧
    ∀ c ∈ n, numeric c = true) ∨ b = []

/-- What may stand between the protocol's name and the end of the banner. -/
def Tail (t : List Char) : Prop :=
  ∃ a b c, t = a ++ (b ++ c) ∧ ProductPart a ∧ VersionPart b ∧ ∀ x ∈ c, isWhite x = true

/-- The protocol's name, in any case, and such a tail to the end. -/
def Legible (t : List Char) : Prop :=
  ∃ before w tail, t = before ++ (w ++ tail) ∧
    w.map Char.toLower = "modbus/tcp".toList ∧ Tail tail

theorem spans_product {pos : Nat} {a rest : List Char} :
    (opt (cat [blanks, group .product (plus .lazy inLine)]) : Pattern).Spans pos a rest ↔
      ProductPart a := by
  refine or_congr_left ?_
  constructor
  · rintro ⟨w, _, rfl, hw, l, _, rfl, hl, rfl⟩
    obtain ⟨hne, hline⟩ := spans_plus.mp hl
    refine ⟨w, l, by rw [List.append_nil], spans_plus.mp hw, hne, fun c hc => ?_⟩
    simpa [inLine] using hline c hc
  · rintro ⟨w, l, rfl, hw, hne, hline⟩
    refine ⟨w, l, rfl, spans_plus.mpr hw, l, [], (List.append_nil l).symm, ?_, rfl⟩
    exact spans_plus.mpr ⟨hne, fun c hc => by simpa [inLine] using hline c hc⟩

theorem spans_version {pos : Nat} {b rest : List Char} :
    (opt (cat [blanks, text "v", version]) : Pattern).Spans pos b rest ↔ VersionPart b := by
  refine or_congr_left ?_
  constructor
  · rintro ⟨w, _, rfl, hw, v, _, rfl, hv, n, _, rfl, hn, rfl⟩
    obtain ⟨hne, hnum⟩ := spans_plus.mp hn
    exact ⟨w, v, n, by rw [List.append_nil], spans_plus.mp hw, spans_text.mp hv, hne, hnum⟩
  · rintro ⟨w, v, n, rfl, hw, hv, hne, hnum⟩
    exact ⟨w, v ++ n, rfl, spans_plus.mpr hw, v, n, rfl, spans_text.mpr hv, n, [],
      (List.append_nil n).symm, spans_plus.mpr ⟨hne, hnum⟩, rfl⟩

theorem occurs_modbus {t : List Char} : modbusRegex.Occurs t ↔ Legible t := by
  constructor
  · rintro ⟨before, _, after, rfl, w, _, rfl, hw, a, _, rfl, ha, b, _, rfl, hb, c, _, rfl, hc, _, _,
      rfl, ⟨rfl, hend⟩, rfl⟩
    refine ⟨before, w, a ++ (b ++ (c ++ after)), by simp only [List.append_assoc, List.nil_append],
      spans_text.mp hw, a, b, c ++ after, rfl, spans_product.mp ha, spans_version.mp hb, ?_⟩
    intro x hx
    rcases List.mem_append.mp hx with hx | hx
    · exact hc x hx
    · -- the last line feed is blank, too
      rcases hend with rfl | ⟨d, rfl, hd⟩
      · cases hx
      · rw [List.mem_singleton.mp hx, beq_iff_eq.mp hd]
        decide
  · rintro ⟨before, w, _, rfl, hw, a, b, c, rfl, ha, hb, hc⟩
    refine ⟨before, w ++ (a ++ (b ++ c)), [], by rw [List.append_nil], w, _, rfl, spans_text.mpr hw,
      a, _, rfl, spans_product.mpr ha, b, _, rfl, spans_version.mpr hb, c, [],
      (List.append_nil c).symm, hc, [], [], rfl, ⟨rfl, .inl rfl⟩, rfl⟩

/-! ## The banner of an S7comm probe -/

/-- An order number read out of a record is stripped and printable. -/
theorem orderOf_some {record : Bytes} {order : String} (h : S7comm.orderOf record = some order) :
    ∃ c cs, order.toList = c :: cs ∧ isWhite c = false ∧ ∀ d ∈ c :: cs, inLine d = true := by
  unfold S7comm.orderOf S7comm.orNone at h
  split at h
  · cases h
  · rename_i hne
    have horder := Option.some_inj.mp h
    have hlist := congrArg String.toList horder
    rw [toList_stripWhite, String.toList_ofList] at hlist
    have hne' : order.toList ≠ [] := by
      rw [← horder]
      exact fun hnil => hne (String.toList_inj.mp hnil)
    obtain ⟨c, cs, hc⟩ := List.exists_cons_of_ne_nil hne'
    rw [hc] at hlist
    refine ⟨c, cs, hc, Strip.strip_head hlist, fun d hd => ?_⟩
    have hprintable := (List.mem_filter.mp
      ((Strip.strip_sublist isWhite _).subset (hlist ▸ hd))).2
    simp only [isPrintable, decide_eq_true_eq] at hprintable
    simp only [inLine, bne_iff_ne, ne_eq]
    rintro rfl
    exact absurd hprintable (by decide)

/-- The signature reads the order number back, whole. -/
theorem search_s7comm {c : Char} {cs : List Char} (hc : isWhite c = false)
    (hline : ∀ d ∈ c :: cs, inLine d = true) :
    s7commRegex.search ("S7comm".toList ++ (' ' :: c :: cs)) =
      some ⟨8 + cs.length, [], [(.product, c :: cs)]⟩ := by
  have hname : ((text "S7comm").run ⟨0, "S7comm".toList ++ (' ' :: c :: cs), []⟩).head? =
      some ⟨6, ' ' :: c :: cs, []⟩ :=
    head?_lit (by decide)
  have hblank : (blanks.run ⟨6, ' ' :: c :: cs, []⟩).head? = some ⟨7, c :: cs, []⟩ := by
    have h := @head?_plus _ Group isWhite 6 ' ' (c :: cs) [] rfl
    rwa [List.takeWhile_cons_of_neg (by rw [hc]; decide)] at h
  have hproduct : ((group .product (plus .greedy inLine) : Pattern).run ⟨7, c :: cs, []⟩).head? =
      some ⟨8 + cs.length, [], [(.product, c :: cs)]⟩ := by
    have h := @head?_plus _ Group inLine 7 c cs [] (hline c List.mem_cons_self)
    rw [List.takeWhile_eq_self_iff.mpr fun d hd => hline d (List.mem_cons_of_mem c hd),
      List.drop_length] at h
    rw [head?_group h, List.take_of_length_le (by simp; omega)]
  apply search_of_head
  refine head?_seq hname (head?_seq (head?_opt (head?_seq hblank (head?_seq hproduct rfl))) rfl)

/-- What `identify` is to make of a banner: service and product. -/
def Identified (banner : Option String) (port : Nat) (service : String) (product : Option String) :
    Prop :=
  (identify banner port).service = some service ∧ (identify banner port).product = product

theorem identify_first {b : String} (hb : b ≠ "") {sig : Signature} {sigs : List Signature}
    (hsigs : signatures = sig :: sigs) {m : At Char Group}
    (h : sig.regex.search b.toList = some m) (port : Nat) :
    Identified (some b) port sig.service (sig.product <|> captured m .product) := by
  have hread : sig.read b = some {
      service := some sig.service
      product := sig.product <|> captured m .product
      version := (captured m .version).filter (· ≠ "") } := by
    rw [Signature.read, h, Option.map_some]
  rw [Identified, identify_some hb, hsigs, List.findSome?_cons, hread]
  exact ⟨rfl, rfl⟩

theorem identified_s7comm {d : Bytes} {info : S7comm.S7Info}
    (h : S7comm.parseSzl d = .ok (some info)) (port : Nat) :
    Identified (S7comm.describe (some info)) port "s7comm" info.orderNumber := by
  rcases S7comm.parseSzl_cases d with hp | ⟨order, hp, horder⟩
  · cases hp.symm.trans h
  · cases hp.symm.trans h
    cases order with
    | none =>
      have hbare : s7commRegex.search "S7comm".toList = some ⟨6, [], []⟩ := by rfl
      exact identify_first (by decide) rfl hbare port
    | some order =>
      rcases horder with hnone | ⟨record, hrecord⟩
      · cases hnone
      obtain ⟨c, cs, hc, hwhite, hline⟩ := orderOf_some hrecord.symm
      have hne : order ≠ "" := by
        rintro rfl
        cases hc
      have hbanner : S7comm.describe (some { isS7 := true, orderNumber := some order }) =
          some ("S7comm" ++ (" " ++ order)) := by
        simp [S7comm.describe, hne]
      have hsearch := search_s7comm hwhite hline
      have hlist : ("S7comm" ++ (" " ++ order)).toList = "S7comm".toList ++ (' ' :: c :: cs) := by
        rw [String.toList_append, String.toList_append, hc]
        rfl
      rw [← hlist] at hsearch
      have hid := identify_first (by simp) rfl hsearch port
      rw [hbanner]
      have hproduct : captured ⟨8 + cs.length, [], [(.product, c :: cs)]⟩ .product = some order := by
        rw [captured, ← hc]
        simp
      rw [hproduct] at hid
      exact hid

/-! ## The banner of an IEC 60870-5-104 probe -/

theorem mem_of_lookup_getD (l : List (Nat × String)) (k : Nat) (default : String) :
    (l.lookup k).getD default ∈ default :: l.map Prod.snd := by
  cases h : l.lookup k with
  | none => exact List.mem_cons_self
  | some v =>
    obtain ⟨l₁, l₂, hsplit, -⟩ := List.lookup_eq_some_iff.mp h
    rw [hsplit]
    simp

theorem iec104_frame {d : Bytes} {info : Iec104.Iec104Info}
    (h : Iec104.parseResponse d = .ok (some info)) :
    ∃ frame ∈ "U-frame" :: Iec104.uFrames.map Prod.snd,
      info = { isIec104 := true, frame := some frame } := by
  unfold Iec104.parseResponse at h
  split at h
  · cases h
  · obtain ⟨first, -, h⟩ := bind_inv h
    split at h
    · cases h
    · obtain ⟨control, -, h⟩ := bind_inv h
      dsimp only at h
      split at h
      · cases h
      · cases h
        exact ⟨_, mem_of_lookup_getD _ _ _, rfl⟩

theorem identified_iec104 {d : Bytes} {info : Iec104.Iec104Info}
    (h : Iec104.parseResponse d = .ok (some info)) (port : Nat) :
    (identify (Iec104.describe (some info)) port).service = some "iec-104" := by
  obtain ⟨frame, hframe, rfl⟩ := iec104_frame h
  have hbanner : ∀ frame ∈ "U-frame" :: Iec104.uFrames.map Prod.snd, frame ≠ "" ∧
      (s7commRegex.search ("IEC 60870-5-104 (" ++ frame ++ ")").toList).isNone := by
    decide +kernel
  obtain ⟨hne, hs7⟩ := hbanner frame hframe
  have hdescribe : Iec104.describe (some { isIec104 := true, frame := some frame }) =
      some ("IEC 60870-5-104 (" ++ frame ++ ")") := by
    rw [Iec104.describe]
    dsimp only
    rw [if_neg (by decide), Option.filter_some, if_pos (decide_eq_true hne)]
  have hoccurs : iec104Regex.Occurs ("IEC 60870-5-104 (" ++ frame ++ ")").toList := by
    refine occurs_iec104.mpr ⟨[], "IEC 60870-5-104".toList, (" (" ++ frame ++ ")").toList, ?_, rfl⟩
    simp
  have hfirst : (⟨"s7comm", none, s7commRegex⟩ : Signature).read
      ("IEC 60870-5-104 (" ++ frame ++ ")") = none := by
    rw [Signature.read, Option.isNone_iff_eq_none.mp hs7, Option.map_none]
  obtain ⟨m, hm⟩ := Option.isSome_iff_exists.mp (search_isSome.mpr hoccurs)
  rw [hdescribe, identify_some (by simp), signatures, List.findSome?_cons, hfirst,
    List.findSome?_cons, Signature.read, hm, Option.map_some]
  rfl

/-! ## Words in a text -/

section Words

variable {α : Type*} {c : α} {s t l r : List α}

theorem prefix_append_cons (h : c ∉ s) : s <+: l ++ c :: r ↔ s <+: l := by
  refine ⟨fun hs => ?_, fun hs => hs.trans (List.prefix_append l _)⟩
  rcases List.prefix_or_prefix_of_prefix hs (List.prefix_append l (c :: r)) with hl | ⟨t, rfl⟩
  · exact hl
  · rw [List.prefix_append_right_inj] at hs
    rcases List.prefix_cons_iff.mp hs with rfl | ⟨u, rfl, -⟩
    · rw [List.append_nil]
    · exact absurd (List.mem_append_right l List.mem_cons_self) h

/-- A word without the separator lies on one side of it. -/
theorem infix_append_cons (h : c ∉ s) : s <:+: l ++ c :: r ↔ s <:+: l ∨ s <:+: r := by
  induction l with
  | nil =>
    rw [List.nil_append, List.infix_cons_iff, List.infix_nil]
    refine or_congr_left ?_
    have hnil := prefix_append_cons (l := []) (r := r) h
    rwa [List.prefix_nil] at hnil
  | cons a l ih =>
    rw [List.cons_append, List.infix_cons_iff, ih, List.infix_cons_iff, or_assoc,
      ← List.cons_append, prefix_append_cons h]

theorem infix_cons_of_head (hne : s ≠ []) (h : s.head? ≠ some c) : s <:+: c :: t ↔ s <:+: t := by
  rw [List.infix_cons_iff]
  refine or_iff_right fun hs => ?_
  rcases List.prefix_cons_iff.mp hs with rfl | ⟨u, rfl, -⟩
  · exact hne rfl
  · exact h rfl

theorem infix_concat_of_last (hne : s ≠ []) (h : s.getLast? ≠ some c) :
    s <:+: t ++ [c] ↔ s <:+: t := by
  rw [List.infix_concat_iff]
  refine or_iff_right fun hs => ?_
  rcases List.suffix_concat_iff.mp hs with rfl | ⟨u, rfl, -⟩
  · exact hne rfl
  · exact h List.getLast?_concat

end Words

def lower (t : List Char) : List Char := t.map Char.toLower

theorem contains_iff {s : String} {t : List Char} :
    Contains s t ↔ lower s.toList <:+: lower t := by
  constructor
  · rintro ⟨before, w, after, rfl, hw⟩
    refine ⟨lower before, lower after, ?_⟩
    rw [lower, lower, lower, lower, List.map_append, List.map_append, hw, List.append_assoc]
  · rintro ⟨before', after', h⟩
    rw [List.append_assoc] at h
    obtain ⟨before, rest, rfl, -, hrest⟩ := List.map_eq_append_iff.mp h.symm
    obtain ⟨w, after, rfl, hw, -⟩ := List.map_eq_append_iff.mp hrest
    exact ⟨before, w, after, rfl, hw⟩

theorem contains_append_cons {s : String} {c : Char} (h : c.toLower ∉ lower s.toList)
    {l r : List Char} : Contains s (l ++ c :: r) ↔ Contains s l ∨ Contains s r := by
  simp only [contains_iff]
  rw [lower, lower, List.map_append, List.map_cons]
  exact infix_append_cons h

/-! ## The banner of a Modbus probe -/

/-- The vendor and the product a device gives, in a row. -/
def deviceName (info : Modbus.ModbusInfo) : String :=
  let vendor := info.vendor.getD ""
  let product := info.product.getD ""
  if vendor = "" then product else if product = "" then vendor else vendor ++ " " ++ product

def deviceVersion (info : Modbus.ModbusInfo) : String := info.version.getD ""

/-- What a device's strings put behind the protocol's name. -/
def deviceText (info : Modbus.ModbusInfo) : List Char :=
  (if deviceName info = "" then [] else ' ' :: (deviceName info).toList) ++
    if deviceVersion info = "" then [] else ' ' :: 'v' :: (deviceVersion info).toList

/-- A device whose strings are identified as Modbus on this port. -/
structure Recognized (info : Modbus.ModbusInfo) (port : Nat) : Prop where
  no_s7comm : ∀ s ∈ [info.vendor, info.product, info.version],
    ¬ Contains "S7comm" (s.getD "").toList
  no_iec104 : ∀ s ∈ [deviceName info, deviceVersion info], ¬ Contains "IEC 60870-5-104" s.toList
  modbus : Tail (deviceText info) ∨ Legible (deviceText info) ∨
    port = 502 ∧ ∀ sig ∈ generalSignatures,
      ¬ sig.regex.Occurs ("Modbus/TCP".toList ++ deviceText info)

theorem filter_ne_empty (s : Option String) :
    s.filter (· ≠ "") = if s.getD "" = "" then none else some (s.getD "") := by
  cases s with
  | none => rfl
  | some s =>
    rw [Option.getD_some, Option.filter_some]
    by_cases hs : s = "" <;> simp [hs]

theorem toList_parts {info : Modbus.ModbusInfo} {parts : List String}
    (hparts : parts = [info.vendor, info.product].filterMap fun p => p.filter (· ≠ "")) :
    (if parts = [] then "" else " " ++ " ".intercalate parts).toList =
      if deviceName info = "" then [] else ' ' :: (deviceName info).toList := by
  subst hparts
  unfold deviceName
  simp only [List.filterMap_cons, List.filterMap_nil, filter_ne_empty]
  by_cases hv : info.vendor.getD "" = "" <;> by_cases hp : info.product.getD "" = ""
  all_goals simp [hv, hp]

theorem describe_text {info : Modbus.ModbusInfo} (h : info.isModbus = true)
    (hexception : info.isException = false) :
    ∃ banner, Modbus.describe (some info) = some banner ∧
      banner.toList = "Modbus/TCP".toList ++ deviceText info := by
  unfold Modbus.describe
  dsimp only
  rw [if_neg (not_not.mpr h), if_neg (by rw [hexception]; decide), filter_ne_empty]
  have hname := @toList_parts info _ rfl
  unfold deviceText deviceVersion
  split
  · rename_i version hversion
    split at hversion
    · cases hversion
    · rename_i hne
      refine ⟨_, rfl, ?_⟩
      rw [if_neg hne, ← Option.some_inj.mp hversion, String.toList_append, String.toList_append,
        String.toList_append, hname, List.append_assoc, List.append_assoc]
      rfl
  · rename_i hversion
    split at hversion
    · rename_i hempty
      refine ⟨_, rfl, ?_⟩
      rw [if_pos hempty, String.toList_append, hname, List.append_nil]
    · cases hversion

/-- A protocol's name that is not torn over what `describe` puts between the strings. -/
structure Whole (s : String) : Prop where
  no_p : 'p' ∉ lower s.toList
  no_v : 'v' ∉ lower s.toList
  head : (lower s.toList).head? ≠ some ' '
  last : (lower s.toList).getLast? ≠ some ' '
  absent : ¬ Contains s "Modbus/TC".toList

theorem Whole.ne_nil {s : String} (h : Whole s) : lower s.toList ≠ [] := by
  intro hnil
  exact h.absent (contains_iff.mpr (hnil ▸ List.nil_infix))

theorem Whole.contains {s : String} (h : Whole s) (info : Modbus.ModbusInfo) :
    Contains s ("Modbus/TCP".toList ++ deviceText info) ↔
      Contains s (deviceName info).toList ∨ Contains s (deviceVersion info).toList := by
  have hempty : ¬ Contains s [] := fun hs => h.ne_nil (List.infix_nil.mp (contains_iff.mp hs))
  have hhead (t : List Char) : Contains s (' ' :: t) ↔ Contains s t := by
    rw [contains_iff, contains_iff]
    exact infix_cons_of_head h.ne_nil h.head
  have hlast (t : List Char) : Contains s (t ++ [' ']) ↔ Contains s t := by
    rw [contains_iff, contains_iff, lower, lower, List.map_append]
    exact infix_concat_of_last h.ne_nil h.last
  have hname : Contains s (if deviceName info = "" then [] else ' ' :: (deviceName info).toList) ↔
      Contains s (deviceName info).toList := by
    split
    · rename_i hnone
      rw [hnone]
      rfl
    · exact hhead _
  have hprotocol : Contains s ("Modbus/TCP".toList ++ deviceText info) ↔
      Contains s (deviceText info) := by
    show Contains s ("Modbus/TC".toList ++ 'P' :: deviceText info) ↔ _
    rw [contains_append_cons h.no_p]
    exact or_iff_right h.absent
  rw [hprotocol, deviceText, ← hname]
  generalize (if deviceName info = "" then [] else ' ' :: (deviceName info).toList) = name
  split
  · rename_i hnone
    rw [hnone, List.append_nil]
    exact (or_iff_left hempty).symm
  · rw [List.append_cons, contains_append_cons h.no_v, hlast]

theorem contains_deviceName {s : String} (hs : ' ' ∉ lower s.toList) (hne : lower s.toList ≠ [])
    (info : Modbus.ModbusInfo) :
    Contains s (deviceName info).toList ↔
      Contains s (info.vendor.getD "").toList ∨ Contains s (info.product.getD "").toList := by
  have hempty : ¬ Contains s "".toList := fun hs => hne (List.infix_nil.mp (contains_iff.mp hs))
  unfold deviceName
  dsimp only
  split
  · rename_i hv
    rw [hv]
    exact (or_iff_right hempty).symm
  · split
    · rename_i hp
      rw [hp]
      exact (or_iff_left hempty).symm
    · rw [String.toList_append, String.toList_append, List.append_assoc]
      exact contains_append_cons hs

theorem whole_s7comm : Whole "S7comm" where
  no_p := by decide
  no_v := by decide
  head := by decide
  last := by decide
  absent := fun h => absurd (contains_iff.mp h) (by decide)

theorem whole_iec104 : Whole "IEC 60870-5-104" where
  no_p := by decide
  no_v := by decide
  head := by decide
  last := by decide
  absent := fun h => absurd (contains_iff.mp h) (by decide)

theorem no_s7comm_iff (info : Modbus.ModbusInfo) :
    ¬ Contains "S7comm" ("Modbus/TCP".toList ++ deviceText info) ↔
      ∀ s ∈ [info.vendor, info.product, info.version], ¬ Contains "S7comm" (s.getD "").toList := by
  rw [whole_s7comm.contains, contains_deviceName (by decide) whole_s7comm.ne_nil]
  simp [deviceVersion, not_or, and_assoc]

theorem no_iec104_iff (info : Modbus.ModbusInfo) :
    ¬ Contains "IEC 60870-5-104" ("Modbus/TCP".toList ++ deviceText info) ↔
      ∀ s ∈ [deviceName info, deviceVersion info], ¬ Contains "IEC 60870-5-104" s.toList := by
  rw [whole_iec104.contains]
  simp [not_or]

/-- The protocol's name does not overlap itself: it is found at the start or behind it. -/
theorem legible_append {t : List Char} :
    Legible ("Modbus/TCP".toList ++ t) ↔ Tail t ∨ Legible t := by
  obtain ⟨name, hname, hlower, hhead⟩ : ∃ name, name = "Modbus/TCP".toList ∧
      lower name = "modbus/tcp".toList ∧
      ∀ c ∈ name.tails, (lower c).head? = some 'm' → c = name :=
    ⟨"Modbus/TCP".toList, rfl, rfl, by decide⟩
  rw [← hname]
  constructor
  · rintro ⟨before, w, tail, h, hw, htail⟩
    rcases List.append_eq_append_iff.mp h with ⟨a, rfl, rfl⟩ | ⟨c, hc, hrest⟩
    · exact .inr ⟨a, w, tail, rfl, hw, htail⟩
    · cases c with
      | nil =>
        -- the occurrence starts behind the name
        exact .inr ⟨[], w, tail, hrest.symm, hw, htail⟩
      | cons x c =>
        have hm : (lower (x :: c)).head? = some 'm' := by
          cases w with
          | nil => cases hw
          | cons y w =>
            rw [List.cons_append, List.cons_append, List.cons.injEq] at hrest
            rw [← hrest.1]
            exact congrArg List.head? hw
        rw [hhead (x :: c) (List.mem_tails _ _ |>.mpr ⟨before, hc.symm⟩) hm] at hrest
        have hlen : w.length = name.length := by
          have heq := congrArg List.length (hw.trans hlower.symm)
          rwa [lower, List.length_map, List.length_map] at heq
        exact .inl ((List.append_inj hrest hlen).2 ▸ htail)
  · rintro (h | ⟨before, w, tail, rfl, hw, htail⟩)
    · exact ⟨[], name, t, rfl, hlower, h⟩
    · exact ⟨name ++ before, w, tail, (List.append_assoc ..).symm, hw, htail⟩

/-- Without a line break, only the names of the other two protocols stand in the way. -/
theorem recognized_of_line {info : Modbus.ModbusInfo} (hline : '\n' ∉ deviceText info)
    (h1 : ∀ s ∈ [info.vendor, info.product, info.version], ¬ Contains "S7comm" (s.getD "").toList)
    (h2 : ∀ s ∈ [deviceName info, deviceVersion info], ¬ Contains "IEC 60870-5-104" s.toList)
    (port : Nat) : Recognized info port := by
  have htext : deviceText info = [] ∨ ∃ c cs, deviceText info = ' ' :: c :: cs := by
    unfold deviceText
    by_cases hname : deviceName info = ""
    · rw [if_pos hname, List.nil_append]
      split
      · exact .inl rfl
      · exact .inr ⟨_, _, rfl⟩
    · have hne : (deviceName info).toList ≠ [] := fun h => hname (String.toList_inj.mp h)
      obtain ⟨c, cs, hc⟩ := List.exists_cons_of_ne_nil hne
      rw [if_neg hname, hc]
      exact .inr ⟨_, _, rfl⟩
  refine ⟨h1, h2, .inl ⟨deviceText info, [], [], by simp, ?_, .inr rfl, by simp⟩⟩
  rcases htext with hnil | ⟨c, cs, hc⟩
  · exact .inr hnil
  · refine .inl ⟨[' '], c :: cs, hc, ⟨by simp, List.forall_mem_singleton.mpr rfl⟩, by simp, ?_⟩
    rintro d hd rfl
    exact hline (hc ▸ List.mem_cons_of_mem _ hd)

/-- A parsed reply is an exception, or it is none; an exception names nothing. -/
theorem parseResponse_info {d : Bytes} {tid : Nat} {info : Modbus.ModbusInfo}
    (h : Modbus.parseResponse d tid = .ok (some info)) :
    info = { isModbus := true, isException := true } ∨
      info.isModbus = true ∧ info.isException = false := by
  unfold Modbus.parseResponse at h
  split at h
  · cases h
  · obtain ⟨⟨rtid, proto, length, unit⟩, -, h⟩ := bind_inv h
    dsimp only at h
    split at h
    · cases h
    · obtain ⟨fc, -, h⟩ := bind_inv h
      split at h
      · cases h
        exact .inl rfl
      · split at h
        · cases h
          exact .inr ⟨rfl, rfl⟩
        · obtain ⟨parsed, hparsed, h⟩ := bind_inv h
          cases h
          unfold Modbus.parseDeviceIdObjects at hparsed
          split at hparsed
          · cases hparsed
            exact .inr ⟨rfl, rfl⟩
          · obtain ⟨numObjects, -, hparsed⟩ := bind_inv hparsed
            obtain ⟨fields, -, hparsed⟩ := bind_inv hparsed
            cases hparsed
            exact .inr ⟨rfl, rfl⟩

/-- The banner of an exception is the program's own. -/
theorem identified_exception (port : Nat) :
    (identify (Modbus.describe (some { isModbus := true, isException := true })) port).service =
      some "modbus" := by
  refine (identify_modbus (b := "Modbus/TCP (no device id)") (by decide) port).mpr ⟨?_, ?_, .inl ?_⟩
  · rw [occurs_s7comm, contains_iff]
    decide
  · rw [occurs_iec104, contains_iff]
    decide
  · refine occurs_modbus.mpr ⟨[], "Modbus/TCP".toList, " (no device id)".toList, rfl, rfl,
      " (no device id)".toList, [], [], rfl, .inl ⟨[' '], "(no device id)".toList, rfl, ?_⟩, .inr rfl,
      by simp⟩
    exact ⟨⟨by simp, List.forall_mem_singleton.mpr rfl⟩, by decide, by simp⟩

theorem identified_modbus {d : Bytes} {tid : Nat} {info : Modbus.ModbusInfo}
    (h : Modbus.parseResponse d tid = .ok (some info)) (port : Nat) :
    (identify (Modbus.describe (some info)) port).service = some "modbus" ↔
      Recognized info port := by
  rcases parseResponse_info h with rfl | ⟨hmodbus, hexception⟩
  · refine iff_of_true (identified_exception port) (recognized_of_line (by decide) ?_ ?_ port)
    all_goals simp only [contains_iff]; decide
  · obtain ⟨banner, hbanner, hlist⟩ := describe_text hmodbus hexception
    have hne : banner ≠ "" := by
      rintro rfl
      cases hlist
    rw [hbanner, identify_modbus hne, occurs_s7comm, occurs_iec104, occurs_modbus, hlist,
      no_s7comm_iff, no_iec104_iff, legible_append, or_assoc]
    exact ⟨fun ⟨h1, h2, h3⟩ => ⟨h1, h2, h3⟩, fun ⟨h1, h2, h3⟩ => ⟨h1, h2, h3⟩⟩

/-- **Identification agrees with the probe** for every reply to the S7comm and IEC 60870-5-104
probes, and for a reply to the Modbus probe exactly when the device's strings are recognized. -/
theorem identification_agrees (d : Bytes) (tid port : Nat) :
    ((∀ info, Modbus.parseResponse d tid = .ok (some info) →
        (identify (Modbus.describe (some info)) port).service = some "modbus") ∧
      (∀ info, S7comm.parseSzl d = .ok (some info) →
        (identify (S7comm.describe (some info)) port).service = some "s7comm" ∧
          (identify (S7comm.describe (some info)) port).product = info.orderNumber) ∧
      (∀ info, Iec104.parseResponse d = .ok (some info) →
        (identify (Iec104.describe (some info)) port).service = some "iec-104")) ↔
      ∀ info, Modbus.parseResponse d tid = .ok (some info) → Recognized info port := by
  constructor
  · rintro ⟨hmodbus, -, -⟩ info hparse
    exact (identified_modbus hparse port).mp (hmodbus info hparse)
  · intro hrec
    exact ⟨fun info hparse => (identified_modbus hparse port).mpr (hrec info hparse),
      fun info hparse => identified_s7comm hparse port,
      fun info hparse => identified_iec104 hparse port⟩

/-- A device whose vendor is "S7comm". -/
def s7commVendor : Bytes :=
  [0, 1, 0, 0, 0, 16, 1, 0x2B, 0x0E, 1, 1, 0, 0, 1, 0, 6, 83, 55, 99, 111, 109, 109]

theorem identified_as_s7comm :
    ¬ ∀ (d : Bytes) (tid port : Nat),
      (∀ info, Modbus.parseResponse d tid = .ok (some info) →
        (identify (Modbus.describe (some info)) port).service = some "modbus") ∧
      (∀ info, S7comm.parseSzl d = .ok (some info) →
        (identify (S7comm.describe (some info)) port).service = some "s7comm" ∧
          (identify (S7comm.describe (some info)) port).product = info.orderNumber) ∧
      (∀ info, Iec104.parseResponse d = .ok (some info) →
        (identify (Iec104.describe (some info)) port).service = some "iec-104") := by
  intro h
  have hparse : Modbus.parseResponse s7commVendor 1 =
      .ok (some { isModbus := true, vendor := some "S7comm" }) := by decide +kernel
  have hother : (identify (Modbus.describe (some { isModbus := true, vendor := some "S7comm" }))
      502).service = some "s7comm" := by decide +kernel
  exact absurd (hother.symm.trans ((h s7commVendor 1 502).1 _ hparse)) (by decide)

end Pyscan.Fingerprint
