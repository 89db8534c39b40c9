import SimpleRouter.Transport
import SimpleRouter.Steps
/-!
# Answering ARP requests

A request passes two tests that ask for different addresses: the parser's
filter compares its target with the interface it comes in on, the handler looks
for it among all interfaces. Between distinct interfaces this makes no
difference: `arp_responder` says, for a request that arrives as a `VNSPACKET`,
that exactly the interface asked for answers, and with which bytes.
-/
open Memory CProg Stream Struct

namespace SimpleRouter

/-- The reply of the interface `i` to the ARP request `frame`, byte by byte. -/
def arpReplyFrame (i : SrIf) (frame : Bytes) : Bytes :=
  (memOf frame).slice 6 6 ++ i.addr.bytes ++ [0x08, 0x06] ++
    ([0x00, 0x01, 0x08, 0x00, 6, 4, 0x00, 0x02] ++
      i.addr.bytes ++ le32 i.ip ++ (memOf frame).slice 22 6 ++ (memOf frame).slice 28 4)

/-- `frame` is an ARP request. -/
structure IsRequest (frame : Bytes) : Prop where
  size : 42 ≤ frame.length
  type : etherType (memOf frame) = ethertypeArp
  op : arOp (memOf frame) = arpOpRequest

/-- The bytes of a filled-in ARP frame, which leaves no gap. -/
theorem arpBuf_bytes (heap : Mem) (i : SrIf) (dhost : Mac) (op : UInt16) (tha : Mac) (tip : UInt32) :
    (arpBuf ⟨ethLen + arpLen, heap⟩ i dhost op tha tip).bytes =
      dhost.bytes ++ i.addr.bytes ++ [0x08, 0x06] ++ ([0x00, 0x01, 0x08, 0x00, 6, 4] ++ le16 (swap16 op) ++
        i.addr.bytes ++ le32 i.ip ++ tha.bytes ++ le32 tip) := by
  have htype : le16 (swap16 ethertypeArp) = [0x08, 0x06] := by decide
  have hhrd : le16 (swap16 arpHrdEthernet) = [0x00, 0x01] := by decide
  have hpro : le16 (swap16 ethertypeIp) = [0x08, 0x00] := by decide
  rw [arpBuf, htype, hhrd, hpro]
  iterate 11 rw [Buf.store_then _ (by simp)]
  rw [Buf.bytes_store_all _ (by simp [ethLen, arpLen])]
  simp

section Request
variable {packet : Buf} {i : SrIf} {sr : SrInstance}

/-- The fields of a request are those of the buffer it is lent in. -/
theorem IsRequest.fields (h : IsRequest packet.bytes) : 42 ≤ packet.size ∧ etherType packet.mem = ethertypeArp ∧
    arOp packet.mem = arpOpRequest ∧ arTip (memOf packet.bytes) = arTip packet.mem := by
  have h42 : 42 ≤ packet.size := by simpa using h.size
  obtain ⟨hop, -, -, htip⟩ := arpFields_bytes packet h42
  exact ⟨h42, (etherType_bytes (by omega)).symm.trans h.type, hop.symm.trans h.op, htip⟩

/-- The filter lets a request pass that asks for the interface it comes in on. -/
theorem arpFilter_request (h : IsRequest packet.bytes) (hname : (sr.ifList.map (·.name)).Nodup) (hi : i ∈ sr.ifList) :
    arpFilter sr.ifList i.name packet = some (decide (arTip packet.mem ≠ i.ip)) := by
  obtain ⟨h42, ht, hop, -⟩ := h.fields
  have hn : ¬ packet.size < ethLen + arpLen := by
    simp only [ethLen, arpLen]
    omega
  have hfind : srGetInterface sr.ifList i.name = some i := find?_key hname hi
  simp only [arpFilter, if_neg hn, hfind, ht, hop, true_and]

/-- The reply that is sent, byte by byte. -/
theorem IsRequest.reply (h : IsRequest packet.bytes) (heap : Mem) (i : SrIf) :
    (arpBuf ⟨ethLen + arpLen, heap⟩ i (.ofMem packet.mem 6) arpOpReply (.ofMem packet.mem 22)
      (packet.mem.u32 28)).bytes = arpReplyFrame i packet.bytes := by
  obtain ⟨h42, -⟩ := h.fields
  have hslice : ∀ off n, off + n ≤ 42 → packet.mem.slice off n = (memOf packet.bytes).slice off n := by
    intro off n hle
    apply List.map_congr_left
    intro k hk
    have hk' := List.mem_range.1 hk
    exact (memOf_bytes packet _ (by omega)).symm
  have hop : le16 (swap16 arpOpReply) = [0x00, 0x02] := by decide
  have htip : le32 (packet.mem.u32 28) = packet.mem.slice 28 4 := Mem.le32_u32 _ _
  rw [arpBuf_bytes, hop, htip, hslice 28 4 (by decide)]
  simp only [Mac.ofMem, hslice 6 6 (by decide), hslice 22 6 (by decide), arpReplyFrame]
  rfl

/-- What the handler does with a request for the interface it comes in on. -/
theorem srHandlepacket_request (env : Env) (h : IsRequest packet.bytes) (hname : (sr.ifList.map (·.name)).Nodup)
    (hip : (sr.ifList.map (·.ip)).Nodup) (hi : i ∈ sr.ifList) (htip : arTip packet.mem = i.ip) :
    (srHandlepacket env packet i.name sr).st = sr ∧
      (srHandlepacket env packet i.name sr).acts =
        [.send (.arpReply env.seq) i.name (arpReplyFrame i packet.bytes)] := by
  obtain ⟨h42, ht, hop, -⟩ := h.fields
  have hfind : srGetInterface sr.ifList i.name = some i := find?_key hname hi
  have hours : srGetInterfaceByIp sr.ifList (packet.mem.u32 38) = some i := by
    rw [← arTip, htip]
    exact find?_key hip hi
  have hplan : planArp sr.ifList env packet i.name =
      .transmit (.arpReply env.seq) i.name (arpReplyFrame i packet.bytes) := by
    rw [planArp, if_neg (by omega), if_pos hop, hours, ← h.reply env.heap i]
  have hnot : arOp packet.mem = arpOpReply → QueueOk sr := by
    intro hrep
    exact absurd (hop.symm.trans hrep) (by decide)
  have hf := handleUntilMiss_arp env packet i.name sr hnot (by omega) ht
  rw [hplan] at hf
  obtain ⟨hst, hacts⟩ := srHandlepacket_none hf rfl
  refine ⟨hst, hacts.trans ?_⟩
  rw [Plan.acts, ← h.reply env.heap i]
  exact sendActs_arp hfind _ _ _ _ _

end Request

/-- An ARP request that is delivered on one of several interfaces with distinct
names and addresses is answered if it asks for that interface's address, by one
frame, and ignored if it asks for another. The state stays what it is. -/
theorem arp_responder {sr : SrInstance} (hip : (sr.ifList.map (·.ip)).Nodup) (hname : (sr.ifList.map (·.name)).Nodup)
    {i : SrIf} (hi : i ∈ sr.ifList) {field : Bytes} (hfield : HoldsName field i.name) {frame : Bytes}
    (h : IsRequest frame) (hmax : frame.length ≤ 9976) {env : ServerEnv} {expected : UInt32}
    (hexp : expected = 0 ∨ expected = vnsPacket) {sock : Sock} (hs : Sound sock) {rest : Bytes}
    (hc : contents sock = be 4 (24 + frame.length) ++ (be 4 4 ++ (field ++ frame)) ++ rest) :
    (srReadFromServerExpect env expected sock sr).st = sr ∧
      (srReadFromServerExpect env expected sock sr).acts =
        if arTip (memOf frame) = i.ip then [.send (.arpReply env.seq) i.name (arpReplyFrame i frame)] else [] := by
  let c : Command := ⟨vnsPacket, field ++ frame, hfield.size_le hmax⟩
  have hcommand : contents sock = c.bytes ++ rest := by
    have hsum : 8 + (field ++ frame).length = 24 + frame.length := by
      rw [List.length_append, hfield.size]
      omega
    rw [hc, Command.bytes, c.toNat_len, hsum]
    rfl
  obtain ⟨packet, b, sock', rfl, -, hval, -, hst, hacts⟩ :=
    @packet_parsed c field i.name frame env expected sr sock rest rfl hfield rfl hexp hs hcommand
  obtain ⟨-, -, -, htip⟩ := h.fields
  rw [arpFilter_request h hname hi] at hval hacts
  rw [srReadFromServerExpect, bind_st, bind_acts, hval, hst, hacts, htip]
  by_cases hours : arTip packet.mem = i.ip
  · obtain ⟨h1, h2⟩ := srHandlepacket_request env.toEnv h hname hip hi hours
    have hpass : decide (arTip packet.mem ≠ i.ip) = false := by simpa using hours
    rw [hpass, if_pos hours]
    simp [passedOn, finish, filterActs, h1, h2]
  · have hdrop : decide (arTip packet.mem ≠ i.ip) = true := by simpa using hours
    rw [hdrop, if_neg hours]
    simp [passedOn, finish, filterActs]

namespace Sample

/-- 10.0.0.5 asks for 10.0.0.1, and the packet this comes in on `e1`. -/
def arpRequest : Bytes :=
  [255, 255, 255, 255, 255, 255, 9, 9, 9, 9, 9, 9, 8, 6, 0, 1, 8, 0, 6, 4, 0, 1, 9, 9, 9, 9, 9, 9, 10, 0, 0, 5,
    0, 0, 0, 0, 0, 0, 10, 0, 0, 1]

/-- The field with the name `e1`, and what was in memory behind it. -/
def arpRequestField : Bytes := [101, 49, 0, 7, 7, 7, 7, 7, 7, 7, 7, 7, 7, 7, 7, 7]

def arpRequestSock : Sock := [.bytes (be 4 66 ++ (be 4 4 ++ (arpRequestField ++ arpRequest)))]

end Sample

open Sample in
theorem arp_responder_asked :
    (srReadFromServerExpect serverEnv 0 arpRequestSock (.init ifs rts)).st = .init ifs rts ∧
      (srReadFromServerExpect serverEnv 0 arpRequestSock (.init ifs rts)).acts =
        if arTip (memOf arpRequest) = 0x0100000A then
          [.send (.arpReply serverEnv.seq) e1
            (arpReplyFrame ⟨e1, ⟨[2, 0, 0, 0, 0, 1], rfl⟩, 0x0100000A⟩ arpRequest)]
        else [] :=
  @arp_responder (.init ifs rts) (by decide) (by decide) ⟨e1, ⟨[2, 0, 0, 0, 0, 1], rfl⟩, 0x0100000A⟩ (by decide)
    arpRequestField ⟨rfl, _, rfl⟩ arpRequest ⟨by decide, by decide, by decide⟩ (by decide) serverEnv 0 (.inl rfl)
    arpRequestSock (by decide) [] rfl

end SimpleRouter
