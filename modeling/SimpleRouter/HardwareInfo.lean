import SimpleRouter.Reassembly
import SimpleRouter.ServerBounds
import SimpleRouter.VnsProtocol
/-!
# Hardware information

The server describes each interface by six records with a key and 32 bytes of
value (`VNSInterface.pack`); `sr_handle_hwinfo` goes through the records and
applies each to the last interface it has added. `hwinfo_round_trip` says that
the interfaces come out as they were put in, behind those the router had.
-/
open Memory CProg Stream Struct

namespace SimpleRouter

/-! ## The server -/

/-- An interface as the constructor of `VNSInterface` accepts it. -/
structure VNSInterface where
  name : Bytes
  mac : Bytes
  ip : Bytes
  mask : Bytes
  mac_size : mac.length = 6
  ip_size : ip.length = 4
  mask_size : mask.length = 4

namespace VNSInterface

/-- `'> I32s II28s I32s I4s28s II28s I4s28s'`. -/
def format : List Field :=
  [.I, .s 32, .I, .I, .s 28, .I, .s 32, .I, .s 4, .s 28, .I, .I, .s 28, .I, .s 4, .s 28]

/-- The keys are `HWINTERFACE`, `HWSPEED`, `HWETHER`, `HWETHIP`, `HWSUBNET` and `HWMASK`. -/
def pack (i : VNSInterface) : Option Bytes :=
  Struct.pack format [.int 1, .str i.name, .int 2, .int 0, .str [], .int 32, .str i.mac, .int 64, .str i.ip, .str [],
    .int 4, .int 0, .str [], .int 128, .str i.mask, .str []]

/-- A record of 36 bytes. -/
def record (key : Nat) (value : Bytes) : Bytes := be 4 key ++ pad 32 value

/-- The six records of an interface. -/
def records (i : VNSInterface) : List Bytes :=
  [record 1 i.name, record 2 [], record 32 i.mac, record 64 i.ip, record 4 [], record 128 i.mask]

theorem pad_four {bs : Bytes} (h : bs.length = 4) : pad 32 bs = pad 4 bs ++ pad 28 [] := by
  rw [pad_of_le (by omega), pad_of_le (by omega), h]
  simp [pad]

theorem pack_eq (i : VNSInterface) : i.pack = some i.records.flatten := by
  -- the format has 4 and 28 bytes where the records have one value of 32
  have hzero : pad 32 [] = be 4 0 ++ pad 28 [] := rfl
  simp [pack, format, Struct.pack, Field.pack, packInt, records, record, hzero, pad_four i.ip_size,
    pad_four i.mask_size]

end VNSInterface

/-- `VNSHardwareInfo.pack`: the packed interfaces joined. -/
def packHardwareInfo (interfaces : List VNSInterface) : Option Bytes :=
  (interfaces.mapM VNSInterface.pack).map List.flatten

theorem packHardwareInfo_eq (interfaces : List VNSInterface) :
    packHardwareInfo interfaces = some (interfaces.flatMap VNSInterface.records).flatten := by
  have hmap : interfaces.mapM VNSInterface.pack = some (interfaces.map fun i => i.records.flatten) := by
    induction interfaces with
    | nil => rfl
    | cons i is ih => simp [ih, i.pack_eq]
  rw [packHardwareInfo, hmap, Option.map_some, List.flatMap, List.flatten_flatten, List.map_map]
  rfl

theorem records_size (interfaces : List VNSInterface) :
    ∀ r ∈ interfaces.flatMap VNSInterface.records, r.length = 36 := by
  intro r hr
  obtain ⟨i, -, hr⟩ := List.mem_flatMap.1 hr
  have hrecord : ∀ key value, (VNSInterface.record key value).length = 36 := by
    intro key value
    rw [VNSInterface.record, List.length_append, length_be, length_pad]
  simp only [VNSInterface.records, List.mem_cons, List.not_mem_nil, or_false] at hr
  rcases hr with rfl | rfl | rfl | rfl | rfl | rfl <;> exact hrecord _ _

theorem records_length (interfaces : List VNSInterface) :
    (interfaces.flatMap VNSInterface.records).length = 6 * interfaces.length := by
  induction interfaces with
  | nil => rfl
  | cons i interfaces ih =>
    have hsix : i.records.length = 6 := rfl
    rw [List.flatMap_cons, List.length_append, ih, hsix, List.length_cons]
    omega

/-! ## One record -/

section Record
variable {b : Buf} {off : Nat} {s : SrInstance} {value : Bytes}

/-- A record at `off` of the command. -/
def RecordAt (b : Buf) (off : Nat) (key : UInt32) (value : Bytes) : Prop :=
  b.mem.slice off 36 = VNSInterface.record key.toNat value

theorem RecordAt.fields {key : UInt32} (h : RecordAt b off key value) :
    swap32 (b.mem.u32 off) = key ∧ b.mem.slice (off + 4) 32 = pad 32 value := by
  have h4 : (be 4 key.toNat).length = 4 := length_be _ _
  have h32 : (pad 32 value).length = 32 := length_pad _ _
  have hlen : (be 4 key.toNat ++ pad 32 value).length = 36 := by rw [List.length_append, h4, h32]
  have hsplit := @Mem.slice_append b.mem off (be 4 key.toNat) (pad 32 value)
  rw [hlen, h4, h32] at hsplit
  obtain ⟨hkey, hvalue⟩ := hsplit.1 h
  rw [be_four] at hkey
  rw [Mem.u32_of_slice hkey, swap32_swap32]
  exact ⟨rfl, hvalue⟩

/-- A name adds an interface. -/
theorem hwEntry_name (junk : Mac × UInt32) {name : IfName} (hname : name.chars.length < 32)
    (h : RecordAt b off hwInterface name.chars) :
    Yields (hwEntry junk b off) s true { s with ifList := s.ifList ++ [⟨name, junk.1, junk.2⟩] } := by
  obtain ⟨hkey, hvalue⟩ := h.fields
  have hn : IfName.ofMem b.mem (off + 4) = name := by
    apply ofMem_eq hname (n := 32)
    rw [hvalue]
    exact prefix_pad hname
  refine ((Computes.load32 b off).yields s).bind ?_
  rw [if_pos hkey, hn]
  refine ((Computes.touch _ _ _).yields s).bind ?_
  exact (yields_modify _ s).bind ((Computes.pure true).yields _)

/-- An Ethernet address goes to the last interface. -/
theorem hwEntry_ether (junk : Mac × UInt32) {ifs : List SrIf} {i : SrIf} (hs : s.ifList = ifs ++ [i]) {mac : Mac}
    (h : RecordAt b off hwEther mac.bytes) :
    Yields (hwEntry junk b off) s true { s with ifList := ifs ++ [{ i with addr := mac }] } := by
  obtain ⟨hkey, hvalue⟩ := h.fields
  have hmac : Mac.ofMem b.mem (off + 4) = mac := by
    have hbytes : b.mem.slice (off + 4) 6 = mac.bytes := by
      rw [← Mem.take_slice b.mem (off + 4) (show 6 ≤ 32 by decide), hvalue, pad_of_le (by simp),
        List.take_left' (by simp)]
    obtain ⟨bytes, size⟩ := mac
    cases hbytes
    rfl
  refine ((Computes.load32 b off).yields s).bind ?_
  rw [if_neg (by rw [hkey]; decide), if_neg (by rw [hkey]; decide), if_pos hkey]
  refine (setLast_yields hs _).bind ?_
  rw [if_pos rfl, hmac]
  exact ((Computes.touch _ _ _).yields _).bind ((Computes.pure true).yields _)

/-- So does an IP address. -/
theorem hwEntry_ip (junk : Mac × UInt32) {ifs : List SrIf} {i : SrIf} (hs : s.ifList = ifs ++ [i]) {ip : UInt32}
    (h : RecordAt b off hwEthip (le32 ip)) :
    Yields (hwEntry junk b off) s true { s with ifList := ifs ++ [{ i with ip := ip }] } := by
  obtain ⟨hkey, hvalue⟩ := h.fields
  have hip : b.mem.u32 (off + 4) = ip := by
    apply Mem.u32_of_slice
    rw [← Mem.take_slice b.mem (off + 4) (show 4 ≤ 32 by decide), hvalue, pad_of_le (by simp),
      List.take_left' (by simp)]
  refine ((Computes.load32 b off).yields s).bind ?_
  rw [if_neg (by rw [hkey]; decide), if_pos hkey]
  refine ((Computes.load32 b (off + 4)).yields s).bind ?_
  rw [hip]
  exact setLast_yields hs _

/-- The other keys are passed over. -/
theorem hwEntry_other (junk : Mac × UInt32) {key : UInt32} (h : RecordAt b off key value) (h1 : key ≠ hwInterface)
    (h2 : key ≠ hwEthip) (h3 : key ≠ hwEther) : Yields (hwEntry junk b off) s true s := by
  obtain ⟨rfl, -⟩ := h.fields
  refine ((Computes.load32 b off).yields s).bind ?_
  rw [if_neg h1, if_neg h2, if_neg h3]
  exact (Computes.pure true).yields s

end Record

/-! ## The loop -/

/-- An interface of the router that is as the server has described it. -/
structure Describes (i : VNSInterface) (f : SrIf) : Prop where
  name : f.name.chars = i.name
  mac : f.addr.bytes = i.mac
  ip : le32 f.ip = i.ip

section Loop
variable {junk : Nat → Mac × UInt32} {b : Buf}

theorem hwinfoLoop_cons {k n : Nat} {s s' s'' : SrInstance} {v : Bool}
    (he : Yields (hwEntry (junk k) b (8 + 36 * k)) s true s')
    (hl : Yields (hwinfoLoop junk b (k + 1) n) s' v s'') : Yields (hwinfoLoop junk b k (n + 1)) s v s'' := by
  refine he.bind ?_
  rw [if_pos rfl]
  exact hl

/-- The records `recs` stand one behind the other from the `k`th on. -/
def RecordsAt (b : Buf) (k : Nat) (recs : List Bytes) : Prop :=
  ∀ j r, recs[j]? = some r → b.mem.slice (8 + 36 * (k + j)) 36 = r

theorem RecordsAt.tail {k : Nat} {recs recs' : List Bytes} (h : RecordsAt b k (recs ++ recs')) :
    RecordsAt b (k + recs.length) recs' := by
  intro j r hj
  have hr : (recs ++ recs')[recs.length + j]? = some r := by
    rw [List.getElem?_append_right (Nat.le_add_right _ _), Nat.add_sub_cancel_left, hj]
  rw [Nat.add_assoc]
  exact h (recs.length + j) r hr

/-- Four bytes are the bytes of a value. -/
theorem le32_of_size {bs : Bytes} (h : bs.length = 4) : ∃ v, le32 v = bs := by
  match bs, h with
  | [w, x, y, z], _ => exact ⟨(memOf [w, x, y, z]).u32 0, Mem.le32_u32 _ 0⟩

/-- Six records add one interface, and fill it in. -/
theorem hwinfoLoop_interface {i : VNSInterface} (hname : FitsField 31 i.name) {k n : Nat} {s : SrInstance} {rest : List Bytes}
    (h : RecordsAt b k (i.records ++ rest)) :
    ∃ f, Describes i f ∧ ∀ {v s'}, Yields (hwinfoLoop junk b (k + 6) n) { s with ifList := s.ifList ++ [f] } v s' →
      Yields (hwinfoLoop junk b k (n + 6)) s v s' := by
  -- speed, subnet and mask have keys the handler ignores
  obtain ⟨ip, hip⟩ := le32_of_size i.ip_size
  let name : IfName := ⟨i.name, hname.1, by have := hname.2; omega⟩
  let mac : Mac := ⟨i.mac, i.mac_size⟩
  have hlt : name.chars.length < 32 := Nat.lt_succ_of_le hname.2
  have h0 : RecordAt b (8 + 36 * k) hwInterface name.chars := h 0 _ rfl
  have h1 : RecordAt b (8 + 36 * (k + 1)) 2 [] := h 1 _ rfl
  have h2 : RecordAt b (8 + 36 * (k + 2)) hwEther mac.bytes := h 2 _ rfl
  have h3 : RecordAt b (8 + 36 * (k + 3)) hwEthip (le32 ip) := by
    rw [hip]
    exact h 3 _ rfl
  have h4 : RecordAt b (8 + 36 * (k + 4)) 4 [] := h 4 _ rfl
  have h5 : RecordAt b (8 + 36 * (k + 5)) 128 i.mask := h 5 _ rfl
  refine ⟨⟨name, mac, ip⟩, ⟨rfl, rfl, hip⟩, ?_⟩
  intro v s' hrest
  apply hwinfoLoop_cons (hwEntry_name (junk k) hlt h0)
  apply hwinfoLoop_cons (hwEntry_other (junk (k + 1)) h1 (by decide) (by decide) (by decide))
  apply hwinfoLoop_cons (hwEntry_ether (junk (k + 2)) rfl h2)
  apply hwinfoLoop_cons (hwEntry_ip (junk (k + 3)) rfl h3)
  apply hwinfoLoop_cons (hwEntry_other (junk (k + 4)) h4 (by decide) (by decide) (by decide))
  apply hwinfoLoop_cons (hwEntry_other (junk (k + 5)) h5 (by decide) (by decide) (by decide))
  exact hrest

/-- The loop adds the interfaces in order, behind those that are there. -/
theorem hwinfoLoop_interfaces {interfaces : List VNSInterface} (hname : ∀ i ∈ interfaces, FitsField 31 i.name)
    {k : Nat} {s : SrInstance} (h : RecordsAt b k (interfaces.flatMap VNSInterface.records)) :
    ∃ added, List.Forall₂ Describes interfaces added ∧
      Yields (hwinfoLoop junk b k (6 * interfaces.length)) s true { s with ifList := s.ifList ++ added } := by
  induction interfaces generalizing k s with
  | nil =>
    refine ⟨[], .nil, ?_⟩
    rw [List.append_nil]
    exact (Computes.pure true).yields s
  | cons i interfaces ih =>
    rw [List.flatMap_cons] at h
    obtain ⟨f, hf, hstep⟩ := @hwinfoLoop_interface junk b i (hname i List.mem_cons_self) k (6 * interfaces.length) s _ h
    obtain ⟨added, hadded, hloop⟩ := @ih (fun i hi => hname i (List.mem_cons_of_mem _ hi)) (k + 6)
      { s with ifList := s.ifList ++ [f] } h.tail
    refine ⟨f :: added, .cons hf hadded, ?_⟩
    rw [List.append_assoc, List.singleton_append] at hloop
    exact hstep hloop

end Loop

/-! ## The message -/

section Message
variable {b : Buf}

/-- The records behind the header. -/
theorem recordsAt_of_bytes {recs : List Bytes} (hrecs : ∀ r ∈ recs, r.length = 36)
    (hdrop : b.bytes.drop 8 = recs.flatten) : RecordsAt b 0 recs := by
  intro j r hj
  obtain ⟨rest, hrest⟩ := drop_flatten_records hrecs hj []
  have hr : r.length = 36 := hrecs r (List.mem_of_getElem? hj)
  have hlt : j < recs.length := (List.getElem?_eq_some_iff.1 hj).1
  have hsize : b.size - 8 = 36 * recs.length := by
    rw [← length_flatten_records hrecs, ← hdrop, Buf.length_drop_bytes]
  have hslice : b.mem.slice (8 + 36 * j) 36 = (b.bytes.drop (8 + 36 * j)).take 36 := by
    rw [Buf.drop_bytes, Mem.take_slice _ _ (by omega)]
  rw [List.append_nil, ← hdrop, List.drop_drop] at hrest
  rw [Nat.zero_add, hslice, hrest, List.take_left' hr]

/-- The length of the message, as the code reads it. -/
theorem mLen_of_bytes {n : Nat} {rest : Bytes} (hn : n < 2 ^ 32) (hb : b.bytes = be 4 n ++ rest) :
    swap32 (b.mem.u32 0) = .ofNat n := by
  have hlen : (UInt32.ofNat n).toNat = n := UInt32.toNat_ofNat_of_lt' hn
  have hsize : 4 ≤ b.size := by
    rw [← Buf.length_bytes, hb, List.length_append, length_be]
    omega
  have hslice : b.mem.slice 0 4 = le32 (swap32 (.ofNat n)) := by
    calc b.mem.slice 0 4 = b.bytes.take 4 := (Mem.take_slice b.mem 0 hsize).symm
      _ = be 4 n := by rw [hb, List.take_left' (length_be _ _)]
      _ = le32 (swap32 (.ofNat n)) := by rw [← be_four, hlen]
  rw [Mem.u32_of_slice hslice, swap32_swap32]

/-- Reading the hardware information of the server adds the interfaces it was
packed from, each with its own name and addresses, and changes no other. -/
theorem hwinfo_round_trip {interfaces : List VNSInterface} (hname : ∀ i ∈ interfaces, FitsField 31 i.name)
    {body : Bytes} (hpack : packHardwareInfo interfaces = some body) (hmax : 8 + body.length ≤ 10000)
    {type : Bytes} (htype : type.length = 4) (hb : b.bytes = be 4 (8 + body.length) ++ (type ++ body))
    (env : ServerEnv) (s : SrInstance) :
    ∃ added, List.Forall₂ Describes interfaces added ∧
      (srHandleHwinfo env b s).val = some (6 * interfaces.length : Nat) ∧
      (srHandleHwinfo env b s).st = { s with ifList := s.ifList ++ added } ∧ (srHandleHwinfo env b s).acts = [] := by
  rw [packHardwareInfo_eq] at hpack
  injection hpack with hbody
  have hrecs := records_size interfaces
  have hcount := records_length interfaces
  have hdrop : b.bytes.drop 8 = (interfaces.flatMap VNSInterface.records).flatten := by
    rw [hb, ← List.append_assoc, hbody]
    exact List.drop_left' (by rw [List.length_append, length_be, htype])
  obtain ⟨added, hadded, hloop⟩ := @hwinfoLoop_interfaces env.junk b interfaces hname 0 s (recordsAt_of_bytes hrecs hdrop)
  have hlen : body.length = 36 * (6 * interfaces.length) := by
    rw [← hbody, length_flatten_records hrecs, hcount]
  have hlt : 8 + body.length < 2 ^ 32 := by omega
  have hword : (UInt32.ofNat (8 + body.length)).toNat = 8 + body.length := UInt32.toNat_ofNat_of_lt' hlt
  have hnum : numEntries (swap32 (b.mem.u32 0)) = (6 * interfaces.length : Nat) := by
    have hdiv : (8 + body.length - 8) / 36 = 6 * interfaces.length := by omega
    rw [mLen_of_bytes (by omega) hb, numEntries_eq (by omega) (by omega), hword, hdiv]
  have hinfo : Yields (srHandleHwinfo env b) s (some (6 * interfaces.length : Nat))
      { s with ifList := s.ifList ++ added } := by
    refine ((Computes.load32 b 0).yields s).bind ?_
    rw [hnum, Int.toNat_natCast]
    exact hloop.bind ((Computes.pure _).yields _)
  exact ⟨added, hadded, hinfo.val, hinfo.st, hinfo.acts⟩

end Message

namespace Sample

/-- `eth0` at 10.0.2.1 and `eth1` at 10.0.3.1. -/
def described : List VNSInterface :=
  [⟨[101, 116, 104, 48], [2, 0, 0, 0, 1, 0], [10, 0, 2, 1], [255, 255, 255, 0], rfl, rfl, rfl⟩,
    ⟨[101, 116, 104, 49], [2, 0, 0, 0, 1, 1], [10, 0, 3, 1], [255, 255, 255, 0], rfl, rfl, rfl⟩]

def hwinfoBody : Bytes := (described.flatMap VNSInterface.records).flatten

/-- The message for the two, with its type in the order of this host. -/
def hwinfoBuf : Buf := .ofBytes (be 4 (8 + hwinfoBody.length) ++ ([16, 0, 0, 0] ++ hwinfoBody)) fun _ => 7

theorem hwinfoBody_length : hwinfoBody.length = 432 := by
  rw [hwinfoBody, length_flatten_records (records_size _), records_length]
  rfl

end Sample

open Sample in
theorem hwinfo_round_trip_described :
    ∃ added, List.Forall₂ Describes described added ∧
      (srHandleHwinfo serverEnv hwinfoBuf (.init ifs rts)).val = some (12 : Nat) ∧
      (srHandleHwinfo serverEnv hwinfoBuf (.init ifs rts)).st = { SrInstance.init ifs rts with ifList := ifs ++ added } ∧
      (srHandleHwinfo serverEnv hwinfoBuf (.init ifs rts)).acts = [] :=
  @hwinfo_round_trip hwinfoBuf described (by decide) hwinfoBody (packHardwareInfo_eq _) (by rw [hwinfoBody_length]; decide) [16, 0, 0, 0] rfl
    (Buf.bytes_ofBytes _ _) serverEnv (.init ifs rts)

end SimpleRouter
