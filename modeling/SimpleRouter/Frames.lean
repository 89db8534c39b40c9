import SimpleRouter.Sweep
/-!
# The frames the router builds

What each frame-building function computes, apart from the accesses it makes:
`fillArp_val` and its companions say that it returns the buffer named here,
changes no state and performs no action. The buffers are chains of stores, in
the order of the code; what later proofs need of them is read off here once.
-/
open Memory CProg

namespace SimpleRouter

/-! ## Sending -/

/-- What `sr_send_packet` does with `frame`: sends it if its source address is
that of the interface. -/
def sendActs (ifs : List SrIf) (site : Site) (iface : IfName) (frame : List UInt8) : List Act :=
  if frame.length < ethLen then [.reject site iface frame]
  else match srGetInterface ifs iface with
    | none => [.reject site iface frame]
    | some i => if (frame.drop 6).take 6 = i.addr.bytes then [.send site iface frame] else [.reject site iface frame]

theorem sendActs_cases (ifs : List SrIf) (site : Site) (iface : IfName) (frame : List UInt8) :
    sendActs ifs site iface frame = [.reject site iface frame] ∨ sendActs ifs site iface frame = [.send site iface frame] := by
  unfold sendActs
  split
  · exact .inl rfl
  · split
    · exact .inl rfl
    · split
      · exact .inr rfl
      · exact .inl rfl

theorem slice_eq_bytes (b : Buf) (off len : Nat) (h : off + len ≤ b.size) :
    b.mem.slice off len = (b.bytes.drop off).take len := by
  refine List.ext_getElem (by simp; omega) fun i h1 h2 => ?_
  simp [Buf.bytes, Mem.slice]

section Send
variable (site : Site) (b : Buf) (iface : IfName) (sr : SrInstance)

@[simp] theorem srSendPacket_st : (srSendPacket site b iface sr).st = sr := by
  unfold srSendPacket srEtherAddrsMatchInterface
  by_cases h14 : b.size < 14
  · simp [h14]
  · cases hi : srGetInterface sr.ifList iface with
    | none => simp [h14, hi]
    | some i =>
      simp only [ite_run, ethLen, h14, if_false, bind_st, bind_val, loadBytes_apply, get_apply, hi, pure_apply]
      split <;> rfl

theorem srSendPacket_acts : (srSendPacket site b iface sr).acts = sendActs sr.ifList site iface b.bytes := by
  unfold srSendPacket srEtherAddrsMatchInterface sendActs
  by_cases h14 : b.size < 14
  · simp [h14]
  · have hs := slice_eq_bytes b 6 6 (by omega)
    have hb : b.mem.slice 0 b.size = b.bytes := rfl
    cases hi : srGetInterface sr.ifList iface with
    | none => simp [h14, hi, hb]
    | some i =>
      simp only [ite_run, ethLen, h14, if_false, bind_acts, bind_val, loadBytes_apply, get_apply, hi, pure_apply,
        bind_st, hs, Buf.length_bytes, List.nil_append, decide_eq_true_eq]
      split <;> rfl

end Send

/-! ## The Ethernet header of an IP packet -/

/-- `bs` with the Ethernet source, the type and, unless it is left alone, the
destination filled in. -/
def setEth (dhost : Option Mac) (shost : Mac) (bs : List UInt8) : List UInt8 :=
  (dhost.elim (bs.take 6) (·.bytes)) ++ shost.bytes ++ [0x08, 0x00] ++ bs.drop 14

def ethBuf (b : Buf) (dhost : Option Mac) (shost : Mac) : Buf :=
  ((dhost.elim b fun d => b.store 0 d.bytes).store 6 shost.bytes).store 12 (le16 (swap16 ethertypeIp))

/-- The type tells the two bytes of its field. -/
theorem etherType_inj {m m' : Mem} (h : etherType m = etherType m') : m 12 = m' 12 ∧ m 13 = m' 13 := by
  have hn := congrArg UInt16.toNat h
  simp only [etherType, toNat_swap16, toNat_u16, Nat.reduceAdd] at hn
  have h0 := (m 12).toNat_lt
  have h1 := (m 13).toNat_lt
  have h2 := (m' 12).toNat_lt
  have h3 := (m' 13).toNat_lt
  constructor
  · apply UInt8.toNat_inj.1; omega
  · apply UInt8.toNat_inj.1; omega

section Eth
variable (b : Buf) (dhost : Option Mac) (shost : Mac) (sr : SrInstance)

@[simp] theorem storeEth_val : (storeEth b dhost shost sr).val = ethBuf b dhost shost := by
  cases dhost <;> rfl
@[simp] theorem storeEth_st : (storeEth b dhost shost sr).st = sr := by
  cases dhost <;> rfl
@[simp] theorem storeEth_acts : (storeEth b dhost shost sr).acts = [] := by
  cases dhost <;> rfl

@[simp] theorem size_ethBuf : (ethBuf b dhost shost).size = b.size := by
  cases dhost <;> rfl

theorem length_setEth {bs : List UInt8} (h : 14 ≤ bs.length) : (setEth dhost shost bs).length = bs.length := by
  cases dhost <;> simp [setEth] <;> omega

/-- The bytes of the filled-in buffer. -/
theorem bytes_ethBuf (h : 14 ≤ b.size) : (ethBuf b dhost shost).bytes = setEth dhost shost b.bytes := by
  have h8 : le16 (swap16 ethertypeIp) = [0x08, 0x00] := by decide
  have hmin : min 6 b.size = 6 := by omega
  have hs : shost.bytes.drop 8 = [] := List.drop_of_length_le (by simp)
  cases dhost with
  | none =>
    have ht : (b.bytes.take 6).drop 14 = [] := List.drop_of_length_le (by simp)
    rw [ethBuf, Buf.bytes_store _ _ _ (by simp; omega), Option.elim_none, Buf.bytes_store _ _ _ (by simp; omega), h8]
    simp [setEth, List.take_append, List.drop_append, List.take_take, hmin, hs, ht]
  | some d =>
    have ht : d.bytes.take 12 = d.bytes := List.take_of_length_le (by simp)
    have hd : d.bytes.drop 14 = [] := List.drop_of_length_le (by simp)
    rw [ethBuf, Buf.bytes_store _ _ _ (by simp; omega), Option.elim_some, Buf.bytes_store _ _ _ (by simp; omega),
      Buf.bytes_store _ _ _ (by simp; omega), h8]
    simp [setEth, List.take_append, List.drop_append, hs, ht, hd]

@[simp] theorem setEth_setEth (d : Option Mac) (s : Mac) {bs : List UInt8} (h : 14 ≤ bs.length) (m : Mac) :
    setEth (some m) shost (setEth d s bs) = setEth (some m) shost bs := by
  have hs : s.bytes.drop 14 = [] := List.drop_of_length_le (by simp)
  have hs' : s.bytes.drop 8 = [] := List.drop_of_length_le (by simp)
  have hmin : min 6 bs.length = 6 := by omega
  cases d with
  | none =>
    have ht : (bs.take 6).drop 14 = [] := List.drop_of_length_le (by simp)
    simp [setEth, List.drop_append, hmin, hs', ht]
  | some d =>
    have hd : d.bytes.drop 14 = [] := List.drop_of_length_le (by simp)
    simp [setEth, List.drop_append, hs', hd]

/-- The source address of a filled-in frame. -/
theorem shost_setEth {bs : List UInt8} (h : 14 ≤ bs.length) :
    ((setEth dhost shost bs).drop 6).take 6 = shost.bytes := by
  have hmin : min 6 bs.length = 6 := by omega
  cases dhost <;> simp [setEth, hmin]

/-- The destination address of a filled-in frame. -/
theorem dhost_setEth (mac : Mac) (bs : List UInt8) : Mac.ofMem (memOf (setEth (some mac) shost bs)) 0 = mac := by
  obtain ⟨ms, hms⟩ := mac
  unfold Mac.ofMem
  congr 1
  refine List.ext_getElem (by simp [hms]) fun i h1 h2 => ?_
  have hi : i < (ms ++ (shost.bytes ++ ([0x08, 0x00] ++ bs.drop 14))).length := by simp; omega
  simp only [Mem.slice, List.getElem_map, List.getElem_range, memOf, setEth, Option.elim_some, List.append_assoc,
    Nat.zero_add, List.getD, List.getElem?_eq_getElem hi, Option.getD_some]
  exact List.getElem_append_left h2

theorem memOf_setEth {bs : List UInt8} (h : 14 ≤ bs.length) {i : Nat} (hi : 14 ≤ i) :
    memOf (setEth dhost shost bs) i = memOf bs i := by
  have hp : (dhost.elim (bs.take 6) (·.bytes) ++ shost.bytes ++ [(0x08 : UInt8), 0x00]).length = 14 := by
    cases dhost <;> simp; omega
  obtain ⟨k, rfl⟩ : ∃ k, i = 14 + k := ⟨i - 14, by omega⟩
  rw [memOf, memOf, setEth, List.getD_append_right _ _ _ _ (by omega), hp]
  simp [List.getD]

theorem etherType_setEth {bs : List UInt8} (h : 14 ≤ bs.length) :
    etherType (memOf (setEth dhost shost bs)) = ethertypeIp := by
  have hl : (dhost.elim (bs.take 6) (·.bytes)).length = 6 := by
    cases dhost <;> simp; omega
  have hp : (dhost.elim (bs.take 6) (·.bytes) ++ shost.bytes).length = 12 := by simp [hl]
  have h12 : memOf (setEth dhost shost bs) 12 = 0x08 := by
    rw [memOf, setEth, List.append_assoc, List.getD_append_right _ _ _ _ (by omega), hp]; rfl
  have h13 : memOf (setEth dhost shost bs) 13 = 0x00 := by
    rw [memOf, setEth, List.append_assoc, List.getD_append_right _ _ _ _ (by omega), hp]; rfl
  simp only [etherType, Mem.u16, h12, h13]
  decide

/-- A frame whose Ethernet source is its interface's passes the check. -/
theorem sendActs_setEth {ifs : List SrIf} {site : Site} {i : SrIf} {bs : List UInt8}
    (hi : srGetInterface ifs i.name = some i) (h : 14 ≤ bs.length) :
    sendActs ifs site i.name (setEth dhost i.addr bs) = [.send site i.name (setEth dhost i.addr bs)] := by
  have hl := length_setEth dhost i.addr h
  rw [sendActs, if_neg (by simp; omega)]
  simp [hi, shost_setEth dhost i.addr h]

end Eth

/-! ## ARP frames -/

/-- The frame `fillArp` fills in. -/
def arpBuf (b : Buf) (iface : SrIf) (dhost : Mac) (op : UInt16) (tha : Mac) (tip : UInt32) : Buf :=
  (((((((((((b.store 0 dhost.bytes).store 6 iface.addr.bytes).store 12 (le16 (swap16 ethertypeArp))).store 14
    (le16 (swap16 arpHrdEthernet))).store 16 (le16 (swap16 ethertypeIp))).store 18 [6]).store 19 [4]).store 20
    (le16 (swap16 op))).store 22 iface.addr.bytes).store 28 (le32 iface.ip)).store 32 tha.bytes).store 38 (le32 tip)

section Arp
variable (b : Buf) (iface : SrIf) (dhost : Mac) (op : UInt16) (tha : Mac) (tip : UInt32) (sr : SrInstance)

@[simp] theorem fillArp_val : (fillArp b iface dhost op tha tip sr).val = arpBuf b iface dhost op tha tip := rfl
@[simp] theorem fillArp_st : (fillArp b iface dhost op tha tip sr).st = sr := rfl
@[simp] theorem fillArp_acts : (fillArp b iface dhost op tha tip sr).acts = [] := rfl

@[simp] theorem size_arpBuf : (arpBuf b iface dhost op tha tip).size = b.size := by
  simp only [arpBuf, Buf.size_store]

theorem arpBuf_tip : (arpBuf b iface dhost op tha tip).mem.u32 38 = tip := Mem.u32_store_le32 _ _ _

theorem arpBuf_op : swap16 ((arpBuf b iface dhost op tha tip).mem.u16 20) = swap16 (swap16 op) := by
  refine congrArg swap16 ?_
  rw [← Mem.u16_store_le16 b.mem 20 (swap16 op)]
  apply Mem.u16_congr <;> simp [arpBuf, Mem.store]

theorem arpBuf_type : etherType (arpBuf b iface dhost op tha tip).mem = ethertypeArp := by
  have h : (arpBuf b iface dhost op tha tip).mem.u16 12 = swap16 ethertypeArp := by
    rw [← Mem.u16_store_le16 b.mem 12 (swap16 ethertypeArp)]
    apply Mem.u16_congr <;> simp [arpBuf, Mem.store]
  rw [etherType, h]; decide

theorem arpBuf_shost (h : 12 ≤ b.size) : ((arpBuf b iface dhost op tha tip).bytes.drop 6).take 6 = iface.addr.bytes := by
  rw [← slice_eq_bytes _ _ _ (by rw [size_arpBuf]; exact h)]
  refine List.ext_getElem (by simp) fun i h1 h2 => ?_
  simp only [Mem.length_slice] at h1
  simp only [Mem.slice, List.getElem_map, List.getElem_range]
  have hs : ∀ j, 6 ≤ j → j < 12 → (arpBuf b iface dhost op tha tip).mem j = iface.addr.bytes.getD (j - 6) 0 := by
    intro j h1 h2
    simp only [arpBuf, Buf.mem_store]
    repeat rw [Mem.store_of_lt _ _ _ _ (by omega)]
    have e : j = 6 + (j - 6) := by omega
    rw [e, Mem.store_of_mem _ _ _ _ (by simp; omega)]
    simp
  rw [hs _ (by omega) (by omega)]
  simp [h1]

end Arp

/-- The ARP request the router broadcasts for `tip`. -/
def arpRequestFrame (heap : Mem) (iface : SrIf) (tip : UInt32) : List UInt8 :=
  (arpBuf ⟨ethLen + arpLen, heap⟩ iface .broadcast arpOpRequest .zero tip).bytes

@[simp] theorem length_arpRequestFrame (heap : Mem) (iface : SrIf) (tip : UInt32) :
    (arpRequestFrame heap iface tip).length = 42 := by
  simp [arpRequestFrame]

/-- So does an ARP frame filled in for the interface. -/
theorem sendActs_arp {ifs : List SrIf} {site : Site} {iface : IfName} {i : SrIf} (hi : srGetInterface ifs iface = some i)
    (heap : Mem) (dhost : Mac) (op : UInt16) (tha : Mac) (tip : UInt32) :
    sendActs ifs site iface (arpBuf ⟨ethLen + arpLen, heap⟩ i dhost op tha tip).bytes =
      [.send site iface (arpBuf ⟨ethLen + arpLen, heap⟩ i dhost op tha tip).bytes] := by
  have hm := arpBuf_shost ⟨ethLen + arpLen, heap⟩ i dhost op tha tip (by simp)
  rw [sendActs, if_neg (by simp)]
  simp only [hi, hm, if_true]

theorem sendActs_arpRequest {ifs : List SrIf} {site : Site} {i : SrIf} (hi : srGetInterface ifs i.name = some i)
    (heap : Mem) (tip : UInt32) :
    sendActs ifs site i.name (arpRequestFrame heap i tip) = [.send site i.name (arpRequestFrame heap i tip)] :=
  sendActs_arp hi heap .broadcast arpOpRequest .zero tip

/-- The fields of a filled-in ARP frame. -/
theorem arpBuf_fields (heap : Mem) (iface : SrIf) (dhost : Mac) (op : UInt16) (tha : Mac) (tip : UInt32) :
    etherType (memOf (arpBuf ⟨ethLen + arpLen, heap⟩ iface dhost op tha tip).bytes) = ethertypeArp ∧
      arOp (memOf (arpBuf ⟨ethLen + arpLen, heap⟩ iface dhost op tha tip).bytes) = swap16 (swap16 op) ∧
      arTip (memOf (arpBuf ⟨ethLen + arpLen, heap⟩ iface dhost op tha tip).bytes) = tip := by
  have hb : ∀ i, i < 42 → memOf (arpBuf ⟨ethLen + arpLen, heap⟩ iface dhost op tha tip).bytes i =
      (arpBuf ⟨ethLen + arpLen, heap⟩ iface dhost op tha tip).mem i := by
    intro i hi
    rw [memOf_bytes]
    rw [size_arpBuf]
    exact hi
  refine ⟨?_, ?_, ?_⟩
  · rw [etherType, Mem.u16_congr (hb 12 (by decide)) (hb 13 (by decide))]
    exact arpBuf_type ⟨ethLen + arpLen, heap⟩ iface dhost op tha tip
  · rw [arOp, Mem.u16_congr (hb 20 (by decide)) (hb 21 (by decide))]
    exact arpBuf_op ⟨ethLen + arpLen, heap⟩ iface dhost op tha tip
  · rw [arTip, Mem.u32_congr fun k hk => hb (38 + k) (by omega)]
    exact arpBuf_tip ⟨ethLen + arpLen, heap⟩ iface dhost op tha tip

theorem arpRequestFrame_fields (heap : Mem) (iface : SrIf) (tip : UInt32) :
    etherType (memOf (arpRequestFrame heap iface tip)) = ethertypeArp ∧
      arOp (memOf (arpRequestFrame heap iface tip)) = arpOpRequest ∧
      arTip (memOf (arpRequestFrame heap iface tip)) = tip := by
  obtain ⟨h1, h2, h3⟩ := arpBuf_fields heap iface .broadcast arpOpRequest .zero tip
  exact ⟨h1, h2.trans (by decide), h3⟩

/-! ## IP packets -/

/-- A packet with its TTL decremented and its header checksum zeroed. -/
def decTtl (b : Buf) : Buf := (b.store 22 [b.mem 22 - 1]).store 24 (le16 0)

/-- The packet `forward_ip_packet` sends on, but for its Ethernet header. -/
def forwardBuf (b : Buf) : Buf :=
  (decTtl b).store 24 (le16 (swap16 (ipChecksum (decTtl b).mem 14 (ipHl (decTtl b).mem * 4))))

/-- An echo reply up to its zeroed header checksum. -/
def echoHead (packet : Buf) (heap : Mem) (iface : SrIf) : Buf :=
  let b := ((packet.copy heap).store 0 (Mac.ofMem packet.mem 6).bytes).store 6 iface.addr.bytes
  (((b.store 26 (le32 (b.mem.u32 30))).store 30 (le32 (b.mem.u32 26))).store 22 [64]).store 24 (le16 0)

/-- An echo reply up to its zeroed ICMP checksum. -/
def echoBody (packet : Buf) (heap : Mem) (iface : SrIf) : Buf :=
  let b := echoHead packet heap iface
  (((b.store 24 (le16 (swap16 (ipChecksum b.mem 14 (ipHl b.mem * 4))))).store 34 [0]).store 35 [0]).store 36 (le16 0)

/-- The frame `send_icmp_echo_reply` builds. -/
def echoBuf (packet : Buf) (heap : Mem) (iface : SrIf) : Buf :=
  let b := echoBody packet heap iface
  b.store 36 (le16 (swap16 (ipChecksum b.mem 34 (packet.size - ethLen - ipLen))))

/-- The IP header of an ICMP error, its checksum zero. -/
def errorHead (orig reply : Buf) (src : UInt32) : Buf :=
  let b := reply.store 14 [(reply.mem 14 &&& (0x0F : UInt8)) ||| ((4 : UInt8) <<< 4)]
  let b := b.store 14 [(b.mem 14 &&& (0xF0 : UInt8)) ||| ((5 : UInt8) &&& (0x0F : UInt8))]
  ((((((((b.store 15 [0]).store 16 (le16 (swap16 (.ofNat (ipLen + icmpT3Len))))).store 18 (le16 0)).store 20
    (le16 0)).store 22 [64]).store 23 [ipProtocolIcmp]).store 26 (le32 src)).store 30 (le32 (orig.mem.u32 26))).store
    24 (le16 0)

/-- The ICMP part of an error after the header in `b`, its checksum zero. -/
def errorBody (orig b : Buf) (type code : UInt8) : Buf :=
  (((((b.store 34 [type]).store 35 [code]).store 38 (le16 0)).store 40 (le16 0)).store 42
    (orig.mem.slice 14 icmpDataSize)).store 36 (le16 0)

/-- The frame `fillIcmpError` fills in, with the checksum routines `ipSum` and `icmpSum`. -/
def errorBuf (ipSum icmpSum : Buf → UInt16) (orig reply : Buf) (src : UInt32) (type code : UInt8) : Buf :=
  let h := errorHead orig reply src
  let b := errorBody orig (h.store 24 (le16 (ipSum h))) type code
  b.store 36 (le16 (icmpSum b))

/-- `htons(ip_checksum(ip_hdr, ip_hdr->ip_hl * 4))`. -/
def ipSumT3 (b : Buf) : UInt16 := swap16 (ipChecksum b.mem 14 (ipHl b.mem * 4))

/-- The error `send_icmp_t3` builds. -/
def t3Buf (orig : Buf) (heap : Mem) (src : UInt32) (type code : UInt8) : Buf :=
  errorBuf ipSumT3 (fun b => swap16 (ipChecksum b.mem 34 icmpT3Len)) orig
    (.zeroed (ethLen + ipLen + icmpT3Len) heap) src type code

/-- The error `send_icmp_host_unreachable` builds. -/
def unreachBuf (orig : Buf) (heap : Mem) (src : UInt32) : Buf :=
  errorBuf (fun b => cksum b.mem 14 ipLen) (fun b => cksum b.mem 34 icmpT3Len) orig
    (.zeroed (ethLen + ipLen + icmpT3Len) heap) src 3 1

theorem fillIcmpError_computes {ipSum icmpSum : Buf → RouterM UInt16} {f g : Buf → UInt16}
    (hf : ∀ b, Computes (ipSum b) (f b)) (hg : ∀ b, Computes (icmpSum b) (g b)) (orig reply : Buf) (src : UInt32)
    (type code : UInt8) :
    Computes (fillIcmpError ipSum icmpSum orig reply src type code) (errorBuf f g orig reply src type code) := by
  intro s
  refine ⟨?_, ?_, ?_⟩
  · simp only [fillIcmpError, storeIpV, storeIpHl, bind_val, bind_st, load8_apply, store8_apply, store16_apply,
      store32_apply, load32_apply, loadBytes_apply, storeBytes_apply, (hf _).val, (hf _).st, (hg _).val, (hg _).st]
    rfl
  · simp only [fillIcmpError, storeIpV, storeIpHl, bind_st, bind_val, load8_apply, store8_apply, store16_apply,
      store32_apply, load32_apply, loadBytes_apply, storeBytes_apply, (hf _).st, (hg _).st]
  · simp only [fillIcmpError, storeIpV, storeIpHl, bind_acts, bind_st, bind_val, load8_apply, store8_apply,
      store16_apply, store32_apply, load32_apply, loadBytes_apply, storeBytes_apply, (hf _).acts, (hg _).acts,
      List.append_nil]

@[simp] theorem size_errorBuf (f g : Buf → UInt16) (orig reply : Buf) (src : UInt32) (type code : UInt8) :
    (errorBuf f g orig reply src type code).size = reply.size := by
  simp only [errorBuf, errorBody, errorHead, Buf.size_store]

@[simp] theorem size_forwardBuf (b : Buf) : (forwardBuf b).size = b.size := by
  simp only [forwardBuf, decTtl, Buf.size_store]

@[simp] theorem size_echoBuf (packet : Buf) (heap : Mem) (iface : SrIf) :
    (echoBuf packet heap iface).size = packet.size := by
  simp only [echoBuf, echoBody, echoHead, Buf.size_store, Buf.size_copy]

@[simp] theorem size_t3Buf (orig : Buf) (heap : Mem) (src : UInt32) (type code : UInt8) :
    (t3Buf orig heap src type code).size = 70 := by
  rw [t3Buf, size_errorBuf]; rfl

@[simp] theorem size_unreachBuf (orig : Buf) (heap : Mem) (src : UInt32) : (unreachBuf orig heap src).size = 70 := by
  rw [unreachBuf, size_errorBuf]; rfl

/-- Forwarding changes the TTL and the header checksum only. -/
theorem forwardBuf_mem (b : Buf) {i : Nat} (h22 : i ≠ 22) (h24 : i ≠ 24) (h25 : i ≠ 25) :
    (forwardBuf b).mem i = b.mem i := by
  have h1 : ¬ (24 ≤ i ∧ i < 24 + 2) := by omega
  have h2 : ¬ (22 ≤ i ∧ i < 22 + 1) := by omega
  simp only [forwardBuf, decTtl, Buf.mem_store, Mem.store, length_le16, List.length_singleton, h1, h2, if_false]

theorem forwardBuf_ttl (b : Buf) : (forwardBuf b).mem 22 = b.mem 22 - 1 := by
  simp [forwardBuf, decTtl, Mem.store]

theorem forwardBuf_u32 (b : Buf) {i : Nat} (h : i + 4 ≤ 22 ∨ 26 ≤ i) : (forwardBuf b).mem.u32 i = b.mem.u32 i :=
  Mem.u32_congr fun k _ => forwardBuf_mem b (by omega) (by omega) (by omega)

/-- `frame` is `bytes` passed on: other Ethernet addresses, one hop less to
live, another header checksum, and everything else as it was. -/
structure PassedOn (bytes frame : List UInt8) : Prop where
  length : frame.length = bytes.length
  ttl : memOf frame 22 = memOf bytes 22 - 1
  same : ∀ i, 12 ≤ i → i ≠ 22 → i ≠ 24 → i ≠ 25 → memOf frame i = memOf bytes i

theorem passedOn_forwardBuf {bytes : List UInt8} {past : Mem} (h : 26 ≤ bytes.length) :
    PassedOn bytes (forwardBuf (.ofBytes bytes past)).bytes where
  length := by simp
  ttl := by
    rw [memOf_bytes _ _ (by simp; omega), forwardBuf_ttl, ofBytes_mem (by omega)]
  same i h12 h22 h24 h25 := by
    by_cases hi : i < bytes.length
    · rw [memOf_bytes _ _ (by simpa using hi), forwardBuf_mem _ h22 h24 h25, ofBytes_mem hi]
    · have hl : (forwardBuf (.ofBytes bytes past)).bytes.length ≤ i := by simpa using hi
      rw [memOf, memOf, List.getD_eq_default _ _ hl, List.getD_eq_default _ _ (by omega)]

/-- Filling in the Ethernet header of an IP packet does no more to it. -/
theorem PassedOn.setEth {bytes bs : List UInt8} (h : PassedOn bytes bs) (h14 : 14 ≤ bytes.length)
    (ht : etherType (memOf bytes) = ethertypeIp) (dhost : Option Mac) (shost : Mac) :
    PassedOn bytes (setEth dhost shost bs) where
  length := by rw [length_setEth dhost shost (h.length ▸ h14), h.length]
  ttl := by rw [memOf_setEth dhost shost (h.length ▸ h14) (by decide), h.ttl]
  same i h12 h22 h24 h25 := by
    by_cases hi : 14 ≤ i
    · rw [memOf_setEth dhost shost (h.length ▸ h14) hi, h.same i h12 h22 h24 h25]
    · -- the type field is written, with the type the frame had
      have hs := etherType_setEth dhost shost (h.length ▸ h14 : 14 ≤ bs.length)
      obtain ⟨e12, e13⟩ := etherType_inj (hs.trans ht.symm)
      obtain rfl | rfl : i = 12 ∨ i = 13 := by omega
      · exact e12
      · exact e13

/-- An ICMP error is addressed to the source of the packet it is about. -/
theorem errorBuf_dst (f g : Buf → UInt16) (orig reply : Buf) (src : UInt32) (type code : UInt8) :
    (errorBuf f g orig reply src type code).mem.u32 30 = orig.mem.u32 26 := by
  rw [← Mem.u32_store_le32 reply.mem 30 (orig.mem.u32 26)]
  refine Mem.u32_congr fun k hk => ?_
  have h36 : ¬ (36 ≤ 30 + k) := by omega
  have h34 : ¬ (34 ≤ 30 + k) := by omega
  simp only [errorBuf, errorBody, errorHead, Buf.mem_store]
  iterate 7 rw [Mem.store_of_lt _ _ _ _ (by omega)]
  iterate 2 rw [Mem.store_of_ge _ _ _ _ (by simp; omega)]
  rw [Mem.store_of_mem _ _ _ _ (by simpa using hk), Mem.store_of_mem _ _ _ _ (by simpa using hk)]

theorem ipDst_errorBuf (f g : Buf → UInt16) (orig : Buf) {reply : Buf} (h : 34 ≤ reply.size) (src : UInt32)
    (type code : UInt8) :
    ipDst (memOf (errorBuf f g orig reply src type code).bytes) = orig.mem.u32 26 := by
  rw [← errorBuf_dst f g orig reply src type code]
  refine Mem.u32_congr fun k hk => memOf_bytes _ _ ?_
  rw [size_errorBuf]
  omega

theorem ipDst_t3Buf (orig : Buf) (heap : Mem) (src : UInt32) (type code : UInt8) :
    ipDst (memOf (t3Buf orig heap src type code).bytes) = orig.mem.u32 26 :=
  ipDst_errorBuf _ _ orig (by simp) src type code

theorem ipDst_unreachBuf (orig : Buf) (heap : Mem) (src : UInt32) :
    ipDst (memOf (unreachBuf orig heap src).bytes) = orig.mem.u32 26 :=
  ipDst_errorBuf _ _ orig (by simp) src 3 1

/-- An ICMP error names as its source the address it was given. -/
theorem errorBuf_src (f g : Buf → UInt16) (orig reply : Buf) (src : UInt32) (type code : UInt8) :
    (errorBuf f g orig reply src type code).mem.u32 26 = src := by
  refine (Mem.u32_congr fun k hk => ?_).trans (Mem.u32_store_le32 reply.mem 26 src)
  simp only [errorBuf, errorBody, errorHead, Buf.mem_store]
  iterate 7 rw [Mem.store_of_lt _ _ _ _ (by omega)]
  iterate 2 rw [Mem.store_of_ge _ _ _ _ (by simp)]
  rw [Mem.store_of_lt _ _ _ _ (by omega), Mem.store_of_mem _ _ _ _ (by simpa using hk),
    Mem.store_of_mem _ _ _ _ (by simpa using hk)]

theorem ipSrc_errorBuf (f g : Buf → UInt16) (orig : Buf) {reply : Buf} (h : 34 ≤ reply.size) (src : UInt32)
    (type code : UInt8) : ipSrc (memOf (errorBuf f g orig reply src type code).bytes) = src := by
  refine (Mem.u32_congr fun k hk => memOf_bytes _ _ ?_).trans (errorBuf_src f g orig reply src type code)
  rw [size_errorBuf]
  omega

theorem ipSrc_t3Buf (orig : Buf) (heap : Mem) (src : UInt32) (type code : UInt8) :
    ipSrc (memOf (t3Buf orig heap src type code).bytes) = src :=
  ipSrc_errorBuf _ _ orig (by simp) src type code

theorem ipSrc_unreachBuf (orig : Buf) (heap : Mem) (src : UInt32) :
    ipSrc (memOf (unreachBuf orig heap src).bytes) = src :=
  ipSrc_errorBuf _ _ orig (by simp) src 3 1

/-- An ICMP error has a header of five words. -/
theorem errorHead_hl (orig reply : Buf) (src : UInt32) : ipHl (errorHead orig reply src).mem = 5 := by
  have h14 : (errorHead orig reply src).mem 14 =
      ((reply.store 14 [(reply.mem 14 &&& (0x0F : UInt8)) ||| ((4 : UInt8) <<< 4)]).mem 14 &&& (0xF0 : UInt8)) |||
        ((5 : UInt8) &&& (0x0F : UInt8)) := by
    simp only [errorHead, Buf.mem_store]
    iterate 9 rw [Mem.store_of_lt _ _ _ _ (by omega)]
    exact Mem.store_of_mem _ 14 _ 0 (by simp)
  rw [ipHl, h14]
  generalize (reply.store 14 [(reply.mem 14 &&& (0x0F : UInt8)) ||| ((4 : UInt8) <<< 4)]).mem 14 = x
  have hd : ((x &&& (0xF0 : UInt8)) ||| ((5 : UInt8) &&& (0x0F : UInt8))) &&& (0x0F : UInt8) =
      ((x &&& (0xF0 : UInt8)) &&& (0x0F : UInt8)) ||| (((5 : UInt8) &&& (0x0F : UInt8)) &&& (0x0F : UInt8)) :=
    UInt8.toBitVec_inj.1 BitVec.and_or_distrib_right
  rw [hd, UInt8.and_assoc, show (0xF0 : UInt8) &&& (0x0F : UInt8) = 0 by decide, UInt8.and_zero]
  decide

/-- What the error says does not depend on what lay behind the memory it was built in. -/
theorem t3Buf_same (orig : Buf) (heap heap' : Mem) (src : UInt32) (type code : UInt8) :
    Buf.Same (t3Buf orig heap src type code) (t3Buf orig heap' src type code) := by
  have hz := Buf.same_zeroed (ethLen + ipLen + icmpT3Len) heap heap'
  have hh : Buf.Same (errorHead orig (.zeroed (ethLen + ipLen + icmpT3Len) heap) src)
      (errorHead orig (.zeroed (ethLen + ipLen + icmpT3Len) heap') src) := by
    have h14 := hz.mem 14 (by simp)
    simp only [errorHead, h14, Buf.mem_store, Mem.store]
    iterate 11 apply Buf.Same.store
    exact hz
  have hsum : ipSumT3 (errorHead orig (.zeroed (ethLen + ipLen + icmpT3Len) heap) src) =
      ipSumT3 (errorHead orig (.zeroed (ethLen + ipLen + icmpT3Len) heap') src) := by
    rw [ipSumT3, ipSumT3, errorHead_hl, errorHead_hl]
    exact congrArg swap16 (ipChecksum_congr fun i _ hi => hh.mem i (by simp [errorHead]; omega))
  have hb : Buf.Same (errorBody orig ((errorHead orig (.zeroed (ethLen + ipLen + icmpT3Len) heap) src).store 24
        (le16 (ipSumT3 (errorHead orig (.zeroed (ethLen + ipLen + icmpT3Len) heap) src)))) type code)
      (errorBody orig ((errorHead orig (.zeroed (ethLen + ipLen + icmpT3Len) heap') src).store 24
        (le16 (ipSumT3 (errorHead orig (.zeroed (ethLen + ipLen + icmpT3Len) heap) src)))) type code) := by
    unfold errorBody
    iterate 7 apply Buf.Same.store
    exact hh
  simp only [t3Buf, errorBuf, ← hsum]
  have hicmp : ipChecksum _ 34 icmpT3Len = ipChecksum _ 34 icmpT3Len := ipChecksum_congr fun i _ hi => hb.mem i (by
    simp [errorBody, errorHead]; omega)
  rw [hicmp]
  exact hb.store _ _

/-- The type and the code of an ICMP error. -/
theorem errorBuf_type (f g : Buf → UInt16) (orig reply : Buf) (src : UInt32) (type code : UInt8) :
    (errorBuf f g orig reply src type code).mem 34 = type ∧ (errorBuf f g orig reply src type code).mem 35 = code := by
  constructor <;> simp [errorBuf, errorBody, Mem.store]

/-- An ICMP error has 64 hops to live, and the protocol of one. -/
theorem errorBuf_header (f g : Buf → UInt16) (orig reply : Buf) (src : UInt32) (type code : UInt8) :
    (errorBuf f g orig reply src type code).mem 22 = 64 ∧
      (errorBuf f g orig reply src type code).mem 23 = ipProtocolIcmp := by
  constructor <;> simp [errorBuf, errorBody, errorHead, Mem.store]

/-- Its data are the first bytes of the IP header it is given, and what follows. -/
theorem errorBuf_data (f g : Buf → UInt16) (orig reply : Buf) (src : UInt32) (type code : UInt8) {k : Nat}
    (hk : k < icmpDataSize) : (errorBuf f g orig reply src type code).mem (42 + k) = orig.mem (14 + k) := by
  simp only [errorBuf, errorBody, Buf.mem_store]
  iterate 2 rw [Mem.store_of_ge _ _ _ _ (by simp; omega)]
  rw [Mem.store_of_mem _ _ _ _ (by simpa using hk)]
  exact Mem.getD_slice orig.mem 14 icmpDataSize k hk

/-- An echo reply keeps the type of the frame it answers. -/
theorem echoBuf_type {packet : Buf} {heap : Mem} {iface : SrIf} (h : 14 ≤ packet.size) :
    etherType (memOf (echoBuf packet heap iface).bytes) = etherType packet.mem := by
  have hb : ∀ i, 12 ≤ i → i < 14 → memOf (echoBuf packet heap iface).bytes i = packet.mem i := by
    intro i h1 h2
    have hi : i < packet.size := by omega
    rw [memOf_bytes _ _ (by simpa using hi)]
    simp only [echoBuf, echoBody, echoHead, Buf.mem_store]
    iterate 9 rw [Mem.store_of_lt _ _ _ _ (by omega)]
    iterate 2 rw [Mem.store_of_ge _ _ _ _ (by simp; omega)]
    simp [Buf.copy, hi]
  exact congrArg swap16 (Mem.u16_congr (hb 12 (by omega) (by omega)) (hb 13 (by omega) (by omega)))

/-- An echo reply comes from the interface it leaves through. -/
theorem echoBuf_shost {packet : Buf} {heap : Mem} {iface : SrIf} (h : 12 ≤ packet.size) :
    ((echoBuf packet heap iface).bytes.drop 6).take 6 = iface.addr.bytes := by
  rw [← slice_eq_bytes _ _ _ (by rw [size_echoBuf]; exact h)]
  refine List.ext_getElem (by simp) fun k h1 h2 => ?_
  simp only [Mem.length_slice] at h1
  simp only [Mem.slice, List.getElem_map, List.getElem_range, echoBuf, echoBody, echoHead, Buf.mem_store]
  iterate 9 rw [Mem.store_of_lt _ _ _ _ (by omega)]
  rw [Mem.store_of_mem _ _ _ _ (by simpa using h1)]
  simp [h1]

theorem sendActs_echo {ifs : List SrIf} {iface : IfName} {i : SrIf} (hi : srGetInterface ifs iface = some i)
    (site : Site) {packet : Buf} (heap : Mem) (h : 14 ≤ packet.size) :
    sendActs ifs site iface (echoBuf packet heap i).bytes = [.send site iface (echoBuf packet heap i).bytes] := by
  have hn : ¬ packet.size < 14 := by omega
  simp [sendActs, hi, hn, @echoBuf_shost packet heap i (by omega)]

end SimpleRouter
