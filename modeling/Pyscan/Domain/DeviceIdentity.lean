import Mathlib
import Pyscan.Domain.Modbus

/-!
# Modbus device identification

A `Response` is an answer to a Read Device Identification request as the
standard lays it out: an MBAP header, six fixed bytes, a count and that many
objects. `parseResponse` recovers the texts of objects 0, 1 and 2 from it, and
of a response cut anywhere behind its function code nothing but prefixes of
them (`identity_recovered`).
-/

namespace Pyscan.Modbus

open Py

/-- An identification object: id, length octet, value. -/
structure Object where
  id : UInt8
  value : Bytes
  short : value.length ≤ 255

def Object.bytes (o : Object) : Bytes := o.id :: UInt8.ofNat o.value.length :: o.value

/-- What the parser's dictionary holds for an object. -/
def Object.entry (o : Object) : Nat × String := (o.id.toNat, latin1 o.value)

/-! ## The object loop -/

/-- What can be read of some objects in `n` bytes: the last one's value may be cut short. -/
def readable : Nat → List Object → List (Nat × String)
  | _, [] => []
  | n, o :: os =>
    if n < 2 then []
    else (o.id.toNat, latin1 (o.value.take (n - 2))) :: readable (n - (2 + o.value.length)) os

/-- The loop at `offset` is the loop at the start of what is left. -/
theorem objectLoop_drop (body : Bytes) (room offset : Nat) (fields : List (Nat × String)) :
    objectLoop body room offset fields = objectLoop (body.drop offset) room 0 fields := by
  induction room generalizing body offset fields with
  | zero => rfl
  | succ room ih =>
    unfold objectLoop
    by_cases hlen : body.length < offset + 2
    · rw [if_pos hlen, if_pos (by simp; omega)]
    · have hidx : ∀ i, index body (offset + i) = index (body.drop offset) i := fun i => by
        simp [index]
      have hslice : ∀ n, slice body (offset + 2) (offset + 2 + n) =
          slice (body.drop offset) (0 + 2) (0 + 2 + n) := fun n => by
        simp only [slice, Nat.zero_add, List.drop_take, List.drop_drop]
        congr 1
        omega
      rw [if_neg hlen, if_neg (by simp; omega), ← Nat.add_zero offset, hidx 0]
      simp only [Nat.add_zero, Nat.zero_add, hidx 1]
      congr 1
      funext objId
      congr 1
      funext objLen
      rw [hslice objLen.toNat, ih body, ih (body.drop offset) (2 + objLen.toNat), List.drop_drop,
        Nat.zero_add]

/-- **The loop on objects cut anywhere** reads what can be read of them. -/
theorem objectLoop_take (objects : List Object) (n : Nat) (fields : List (Nat × String)) :
    objectLoop ((objects.flatMap Object.bytes).take n) objects.length 0 fields =
      .ok ((readable n objects).reverse ++ fields) := by
  induction objects generalizing n fields with
  | nil => rfl
  | cons o os ih =>
    have hshort := o.short
    have hl : (UInt8.ofNat o.value.length).toNat = o.value.length :=
      UInt8.toNat_ofNat_of_lt' (Nat.lt_succ_of_le hshort)
    rw [List.length_cons, objectLoop, readable]
    by_cases hn : n < 2
    · rw [if_pos (by rw [List.length_take]; omega), if_pos hn]
      rfl
    · obtain ⟨m, rfl⟩ := Nat.exists_eq_add_of_le' (Nat.le_of_not_lt hn)
      have htake : ((o :: os).flatMap Object.bytes).take (m + 2) =
          o.id :: UInt8.ofNat o.value.length :: (o.value ++ os.flatMap Object.bytes).take m := rfl
      have hvalue : slice (o.id :: UInt8.ofNat o.value.length ::
          (o.value ++ os.flatMap Object.bytes).take m) 2 (2 + o.value.length) = o.value.take m := by
        rw [slice, List.drop_take, Nat.add_sub_cancel_left]
        simp only [List.drop_succ_cons, List.drop_zero]
        rw [List.take_take, Nat.min_comm, ← List.take_take, List.take_left]
      have hrest : (o.id :: UInt8.ofNat o.value.length ::
          (o.value ++ os.flatMap Object.bytes).take m).drop (2 + o.value.length) =
          (os.flatMap Object.bytes).take (m - o.value.length) := by
        rw [Nat.add_comm 2, List.drop_succ_cons, List.drop_succ_cons, List.drop_take, List.drop_left]
      rw [htake, if_neg (by simp), index_zero, ok_bind, Nat.zero_add, index_succ, index_zero,
        ok_bind, hl]
      simp only [Nat.zero_add]
      rw [hvalue, objectLoop_drop, hrest, ih, if_neg (by omega), Nat.add_sub_cancel,
        show m + 2 - (2 + o.value.length) = m - o.value.length by omega]
      simp

theorem readable_all {objects : List Object} {n : Nat}
    (h : (objects.flatMap Object.bytes).length ≤ n) : readable n objects = objects.map Object.entry := by
  induction objects generalizing n with
  | nil => rfl
  | cons o os ih =>
    have hlen : o.bytes.length = o.value.length + 2 := rfl
    rw [List.flatMap_cons, List.length_append, hlen] at h
    rw [readable, if_neg (by omega), List.take_of_length_le (by omega), ih (by omega)]
    rfl

/-- What is read of an object stands under its id, and is the start of its value. -/
theorem mem_readable {objects : List Object} {n : Nat} {e : Nat × String} (h : e ∈ readable n objects) :
    ∃ o ∈ objects, e.1 = o.id.toNat ∧ e.2.toList <+: (latin1 o.value).toList := by
  induction objects generalizing n with
  | nil => cases h
  | cons o os ih =>
    rw [readable] at h
    split at h
    · cases h
    · rcases List.mem_cons.mp h with rfl | h
      · refine ⟨o, List.mem_cons_self, rfl, ?_⟩
        simp only [latin1, String.toList_ofList, List.map_take]
        exact List.take_prefix _ _
      · obtain ⟨o', ho', hid, hprefix⟩ := ih h
        exact ⟨o', List.mem_cons_of_mem _ ho', hid, hprefix⟩

theorem keys_readable (objects : List Object) (n : Nat) :
    (readable n objects).map Prod.fst <+: objects.map fun o => o.id.toNat := by
  induction objects generalizing n with
  | nil => exact List.nil_prefix
  | cons o os ih =>
    rw [readable]
    split
    · exact List.nil_prefix
    · exact List.prefix_cons_inj _ |>.mpr (ih _)

/-! ## Responses -/

/-- With distinct keys, a lookup is membership. -/
theorem lookup_eq_some {l : List (Nat × String)} (h : (l.map Prod.fst).Nodup) {i : Nat} {s : String} :
    l.lookup i = some s ↔ (i, s) ∈ l := by
  induction l with
  | nil => simp
  | cons e l ih =>
    obtain ⟨j, t⟩ := e
    obtain ⟨hj, hl⟩ := List.nodup_cons.mp h
    rw [List.lookup_cons, List.mem_cons]
    by_cases hij : i = j
    · subst hij
      have hnot : (i, s) ∉ l := fun hmem => hj (List.mem_map.mpr ⟨_, hmem, rfl⟩)
      simp [hnot, eq_comm]
    · rw [beq_false_of_ne hij]
      simp [hij, ih hl]

/-- A dictionary filled in any order has the same entries. -/
theorem lookup_reverse {l : List (Nat × String)} (h : (l.map Prod.fst).Nodup) (i : Nat) :
    l.reverse.lookup i = l.lookup i := by
  have hrev : (l.reverse.map Prod.fst).Nodup := by rwa [List.map_reverse, List.nodup_reverse]
  ext s
  rw [lookup_eq_some hrev, lookup_eq_some h, List.mem_reverse]

/-- An answer to a Read Device Identification request. -/
structure Response where
  tid : UInt16
  length : UInt16
  unit : UInt8
  code : UInt8
  conformity : UInt8
  more : UInt8
  next : UInt8
  objects : List Object
  count : objects.length ≤ 255
  distinct : (objects.map Object.id).Nodup

namespace Response

variable (r : Response)

def body : Bytes :=
  0x2B :: 0x0E :: r.code :: r.conformity :: r.more :: r.next :: UInt8.ofNat r.objects.length ::
    r.objects.flatMap Object.bytes

def bytes : Bytes := be16 r.tid.toNat ++ (be16 0 ++ (be16 r.length.toNat ++ (r.unit :: r.body)))

/-- The text of an object. -/
def text (i : UInt8) : Option String := (r.objects.find? fun o => o.id = i).map fun o => latin1 o.value

/-- Nothing, or the start of `t`. -/
def Abridges (s t : Option String) : Prop :=
  ∀ a, s = some a → ∃ b, t = some b ∧ a.toList <+: b.toList

theorem nodup_ids : (r.objects.map fun o => o.id.toNat).Nodup := by
  have h := r.distinct.map (f := UInt8.toNat) fun _ _ h => UInt8.toNat_inj.mp h
  rwa [List.map_map] at h

theorem text_eq_some {i : UInt8} {s : String} :
    r.text i = some s ↔ ∃ o ∈ r.objects, o.id = i ∧ latin1 o.value = s := by
  unfold text
  constructor
  · intro h
    obtain ⟨o, ho, hs⟩ := Option.map_eq_some_iff.mp h
    exact ⟨o, List.mem_of_find?_eq_some ho, by simpa using List.find?_some ho, hs⟩
  · rintro ⟨o, ho, rfl, rfl⟩
    have hsome : (r.objects.find? fun o' => o'.id = o.id).isSome :=
      List.find?_isSome.mpr ⟨o, ho, by simp⟩
    obtain ⟨o', hfind⟩ := Option.isSome_iff_exists.mp hsome
    have hid : o'.id = o.id := by simpa using List.find?_some hfind
    have hsame : o' = o :=
      List.inj_on_of_nodup_map r.distinct (List.mem_of_find?_eq_some hfind) ho hid
    rw [hfind, hsame]
    rfl

theorem text_eq_lookup (i : UInt8) : r.text i = (r.objects.map Object.entry).lookup i.toNat := by
  have hkeys : ((r.objects.map Object.entry).map Prod.fst).Nodup := by
    rw [List.map_map]
    exact r.nodup_ids
  ext s
  rw [r.text_eq_some, lookup_eq_some hkeys, List.mem_map]
  refine exists_congr fun o => and_congr_right fun _ => ?_
  rw [Object.entry, Prod.mk.injEq, UInt8.toNat_inj]

/-- What the parser makes of the response cut behind its function code. -/
theorem parseResponse_take {n : Nat} (h : 8 ≤ n) (tid : Nat) :
    parseResponse (r.bytes.take n) tid = .ok (some (
      if n < 14 then { isModbus := true }
      else {
        isModbus := true
        vendor := (readable (n - 14) r.objects).lookup 0
        product := (readable (n - 14) r.objects).lookup 1
        version := (readable (n - 14) r.objects).lookup 2 })) := by
  have hcount : (UInt8.ofNat r.objects.length).toNat = r.objects.length :=
    UInt8.toNat_ofNat_of_lt' (Nat.lt_succ_of_le r.count)
  have hnodup : ∀ m, ((readable m r.objects).map Prod.fst).Nodup := fun m =>
    r.nodup_ids.sublist (keys_readable r.objects m).sublist
  obtain ⟨m, rfl⟩ := Nat.exists_eq_add_of_le' h
  have htake : r.bytes.take (m + 8) = UInt8.ofNat (r.tid.toNat / 256) ::
      UInt8.ofNat (r.tid.toNat % 256) :: 0 :: 0 :: UInt8.ofNat (r.length.toNat / 256) ::
      UInt8.ofNat (r.length.toNat % 256) :: r.unit :: r.body.take (m + 1) := rfl
  have hbody : parseDeviceIdObjects (r.body.take (m + 1)) = .ok (
      if m + 8 < 14 then { isModbus := true }
      else {
        isModbus := true
        vendor := (readable (m + 8 - 14) r.objects).lookup 0
        product := (readable (m + 8 - 14) r.objects).lookup 1
        version := (readable (m + 8 - 14) r.objects).lookup 2 }) := by
    have hfixed : 7 ≤ r.body.length := by simp [body]
    unfold parseDeviceIdObjects
    by_cases hm : m + 8 < 14
    · rw [if_pos (by rw [List.length_take]; omega), if_pos hm]
    · obtain ⟨k, rfl⟩ := Nat.exists_eq_add_of_le' (show 6 ≤ m by omega)
      have hobjects : (r.body.take (k + 6 + 1)).drop 7 = (r.objects.flatMap Object.bytes).take k := rfl
      have hindex : index (r.body.take (k + 6 + 1)) 6 = .ok (UInt8.ofNat r.objects.length) := rfl
      rw [if_neg (by rw [List.length_take]; omega), if_neg hm, hindex, ok_bind, hcount,
        objectLoop_drop, hobjects, objectLoop_take, ok_bind, List.append_nil,
        show k + 6 + 8 - 14 = k by omega]
      simp only [lookup_reverse (hnodup k)]
  have hfunction : index (r.bytes.take (m + 8)) 7 = .ok 0x2B := rfl
  rw [parseResponse, if_neg (by rw [htake]; simp [body]), hfunction, htake]
  simp only [slice, List.take_succ_cons, List.take_zero, List.drop_zero, unpackHHHB, ok_bind,
    List.drop_succ_cons, hbody]
  rw [if_neg (by decide), if_neg (by decide), if_neg (by decide)]

theorem abridges_readable (n : Nat) (i : UInt8) :
    Abridges ((readable n r.objects).lookup i.toNat) (r.text i) := by
  intro s hs
  have hnodup := r.nodup_ids.sublist (keys_readable r.objects n).sublist
  obtain ⟨o, ho, hid, hprefix⟩ := mem_readable ((lookup_eq_some hnodup).mp hs)
  exact ⟨_, r.text_eq_some.mpr ⟨o, ho, UInt8.toNat_inj.mp hid.symm, rfl⟩, hprefix⟩

/-- **Identification is recovered exactly, and degrades safely**: the whole response gives the texts
of objects 0, 1 and 2; cut anywhere behind its function code, it is still Modbus, and each text
read is the start of the true one. -/
theorem identity_recovered :
    parseResponse r.bytes r.tid.toNat = .ok (some {
      isModbus := true
      vendor := r.text 0
      product := r.text 1
      version := r.text 2 }) ∧
    ∀ n, 8 ≤ n → ∃ info, parseResponse (r.bytes.take n) r.tid.toNat = .ok (some info) ∧
      info.isModbus = true ∧ info.isException = false ∧ Abridges info.vendor (r.text 0) ∧
      Abridges info.product (r.text 1) ∧ Abridges info.version (r.text 2) := by
  constructor
  · have hlen : r.bytes.length = 14 + (r.objects.flatMap Object.bytes).length := by
      simp [bytes, body]
      omega
    have hparse := r.parseResponse_take (n := r.bytes.length) (by omega) r.tid.toNat
    rw [List.take_length, if_neg (by omega), readable_all (by omega)] at hparse
    rw [hparse, r.text_eq_lookup, r.text_eq_lookup, r.text_eq_lookup]
    rfl
  · intro n hn
    refine ⟨_, r.parseResponse_take hn _, ?_⟩
    split
    · exact ⟨rfl, rfl, nofun, nofun, nofun⟩
    · exact ⟨rfl, rfl, r.abridges_readable _ 0, r.abridges_readable _ 1, r.abridges_readable _ 2⟩

/-- A controller that names its version, an object of its own, its vendor and its product. -/
def controller : Response where
  tid := 1
  length := 0
  unit := 1
  code := 0x01
  conformity := 0x01
  more := 0x00
  next := 0x00
  objects := [⟨2, [0x56, 0x32], by decide⟩, ⟨0x80, [0x78], by decide⟩,
    ⟨0, [0x41, 0x63, 0x6D, 0x65], by decide⟩, ⟨1, [0x52, 0x54, 0x55], by decide⟩]
  count := by decide
  distinct := by decide

/-- Whole it is read whole; cut inside the vendor's name it tells the version, and of the vendor no more
than a beginning. -/
theorem identity_recovered_controller :
    parseResponse controller.bytes 1 = .ok (some {
      isModbus := true, vendor := some "Acme", product := some "RTU", version := some "V2" }) ∧
    ∃ info, parseResponse (controller.bytes.take 25) 1 = .ok (some info) ∧
      info.vendor = some "Ac" ∧ Abridges info.vendor (some "Acme") := by
  obtain ⟨hwhole, hcut⟩ := controller.identity_recovered
  obtain ⟨info, hinfo, -, -, hvendor, -⟩ := hcut 25 (by decide)
  have hread : parseResponse (controller.bytes.take 25) 1 = .ok (some {
      isModbus := true, vendor := some "Ac", version := some "V2" }) := by decide +kernel
  exact ⟨hwhole, info, hinfo, by rw [Option.some.inj (Except.ok.inj (hinfo.symm.trans hread))], hvendor⟩

end Response

end Pyscan.Modbus
