import SimpleRouter.Invariants
/-!
# Bounds of memory accesses

The handlers check frames for 14, 34 and 42 bytes; what they access depends on
the protocol, on `ip_hl` and on the error path taken, some of it seconds later
on a queued copy. Each function here gets the exact condition under which it
stays in bounds; `in_bounds_iff` is the condition for a step.
-/
open Memory CProg Runs

namespace SimpleRouter

/-! ## Frames that are built and sent -/

section Build
variable (s : SrInstance)

theorem srSendPacket_safe (site : Site) (b : Buf) (iface : IfName) : Safe (srSendPacket site b iface) s := by
  unfold srSendPacket srEtherAddrsMatchInterface
  by_cases h14 : b.size < 14
  · simp [h14]
  · cases hi : srGetInterface s.ifList iface with
    | none => simp [h14, hi]
    | some i =>
      have h12 : 12 ≤ b.size := by omega
      simp [h14, hi, h12]

theorem storeEth_safe {b : Buf} (h : 14 ≤ b.size) (dhost : Option Mac) (shost : Mac) :
    Safe (storeEth b dhost shost) s := by
  unfold storeEth
  cases dhost with
  | none => simp; omega
  | some d => simp; omega

theorem fillArp_safe {b : Buf} (h : b.size = 42) (iface : SrIf) (dhost : Mac) (op : UInt16) (tha : Mac) (tip : UInt32) :
    Safe (fillArp b iface dhost op tha tip) s := by
  simp [fillArp, h]

theorem sendArpRequest_safe (site : Site) (heap : Mem) (tip : UInt32) (interface : IfName) :
    Safe (sendArpRequest site heap tip interface) s := by
  unfold sendArpRequest
  cases hi : srGetInterface s.ifList interface with
  | none => simp [hi]
  | some i => simp [hi, fillArp_safe, srSendPacket_safe]

theorem queuereq_safe (env : Env) (ip : UInt32) (b : Buf) (iface : IfName) (o : Origin) :
    Safe (queuereq env ip b iface o) s := by
  simp [queuereq]

theorem Miss.finish_safe (m : Miss) (env : Env) : Safe (m.finish env) s := by
  have htest : Safe m.test s := by
    unfold Miss.test
    cases hd : derefReq m.req s.cache.requests <;> simp [hd]
  have hmark : ∀ s, Safe (m.mark env.now) s := by
    intro s
    unfold Miss.mark
    cases hd : derefReq m.req s.cache.requests <;> simp [hd]
  unfold Miss.finish Miss.transmit
  simp only [safe_bind, safe_ite, htest, sendArpRequest_safe, hmark, safe_pure, true_and]
  split <;> trivial

end Build

/-! ## ICMP errors -/

section Errors
variable {s : SrInstance}

/-- An ICMP error quotes 28 bytes from the IP header on. -/
theorem fillIcmpError_safe {ipSum icmpSum : Buf → RouterM UInt16} {f g : Buf → UInt16}
    (hf : ∀ b, Computes (ipSum b) (f b)) (hg : ∀ b, Computes (icmpSum b) (g b)) {orig reply : Buf} (src : UInt32)
    (type code : UInt8) (hsize : reply.size = 70) (hip : Safe (ipSum (errorHead orig reply src)) s)
    (hicmp : ∀ b, b.size = 70 → Safe (icmpSum b) s) :
    Safe (fillIcmpError ipSum icmpSum orig reply src type code) s ↔ 42 ≤ orig.size := by
  simp only [errorHead] at hip
  unfold fillIcmpError storeIpV storeIpHl
  simp only [safe_bind, bind_val, bind_st, load8_apply, store8_apply, store16_apply, store32_apply, load32_apply,
    loadBytes_apply, storeBytes_apply, (hf _).val, (hf _).st, (hg _).val, (hg _).st, hip, true_and]
  simp [hsize, hicmp]
  omega

/-- There is a route back to `src`, through an interface that exists. -/
def wayBack (ifs : List SrIf) (rts : List SrRt) (src : UInt32) : Bool :=
  ((lpmLookup rts src).bind fun rt => srGetInterface ifs rt.interface).isSome

/-- `send_icmp_t3` can quote `packet`, or never gets to it. -/
def ErrorFits (ifs : List SrIf) (rts : List SrRt) (packet : Buf) : Prop :=
  wayBack ifs rts (packet.mem.u32 26) = true → 42 ≤ packet.size

theorem sendIcmpT3_safe (env : Env) {packet : Buf} (h34 : 34 ≤ packet.size) (type code : UInt8) :
    Safe (sendIcmpT3 env packet type code) s ↔ ErrorFits s.ifList s.routingTable packet := by
  have h30 : 30 ≤ packet.size := by omega
  unfold sendIcmpT3 ErrorFits wayBack
  simp only [safe_bind, safe_load32, load32_apply, safe_get, get_apply, h30, true_and]
  cases hrt : lpmLookup s.routingTable (packet.mem.u32 26) with
  | none => simp
  | some rt =>
    cases hi : srGetInterface s.ifList rt.interface with
    | none => simp [hi]
    | some i =>
      have hf : ∀ b, Computes (do
          let hl ← loadIpHl b
          htonsIpChecksum b 14 (hl * 4) : RouterM UInt16) (ipSumT3 b) := fun b s => ⟨rfl, rfl, rfl⟩
      have hg : ∀ b, Computes (htonsIpChecksum b 34 icmpT3Len) (swap16 (ipChecksum b.mem 34 icmpT3Len)) :=
        fun b s => ⟨rfl, rfl, rfl⟩
      have hip : Safe (do
          let hl ← loadIpHl (errorHead packet (.zeroed (ethLen + ipLen + icmpT3Len) env.heap) i.ip)
          htonsIpChecksum (errorHead packet (.zeroed (ethLen + ipLen + icmpT3Len) env.heap) i.ip) 14 (hl * 4) :
            RouterM UInt16) s := by
        have hhl := errorHead_hl packet (.zeroed (ethLen + ipLen + icmpT3Len) env.heap) i.ip
        have hsz : (errorHead packet (.zeroed (ethLen + ipLen + icmpT3Len) env.heap) i.ip).size = 70 := by
          simp only [errorHead, Buf.size_store]
          rfl
        generalize errorHead packet (.zeroed (ethLen + ipLen + icmpT3Len) env.heap) i.ip = b at hhl hsz
        simp [loadIpHl, htonsIpChecksum, hhl, hsz]
      have hicmp : ∀ b : Buf, b.size = 70 → Safe (htonsIpChecksum b 34 icmpT3Len : RouterM UInt16) s := by
        intro b hb
        simp [htonsIpChecksum, hb]
      have h14 : 14 ≤ (t3Buf packet env.heap i.ip type code).size := by simp
      simp only [hi, (t3Buf_computes packet env.heap i.ip type code).safe_bind,
        fillIcmpError_safe hf hg i.ip type code rfl hip hicmp]
      cases srArpcacheLookup s.cache (nextHop rt (packet.mem.u32 26)) with
      | some e => simp [hi, storeEth_safe s h14, srSendPacket_safe]
      | none => simp [hi, storeEth_safe s h14, queuereq_safe]

end Errors

/-! ## IP packets -/

section Ip
variable {s : SrInstance}

/-- What `forward_ip_packet` needs: `ip_hl` words to sum, and 28 bytes to quote
where it ends in an error. -/
def ForwardFits (ifs : List SrIf) (rts : List SrRt) (packet : Buf) : Prop :=
  if packet.mem 22 ≤ 1 then ErrorFits ifs rts packet
  else 14 + 4 * ipHl packet.mem ≤ packet.size ∧
    (lpmLookup rts (packet.mem.u32 30) = none → ErrorFits ifs rts packet)

theorem forwardIpPacket_safe (env : Env) {packet : Buf} (h34 : 34 ≤ packet.size) :
    Safe (forwardIpPacket env packet) s ↔ ForwardFits s.ifList s.routingTable packet := by
  unfold forwardIpPacket ForwardFits
  rw [safe_bind, safe_load8, and_iff_right (by omega), load8_apply, safe_ite]
  by_cases httl : packet.mem 22 ≤ 1
  · simp only [httl, if_true, sendIcmpT3_safe env h34]
  · simp only [httl, if_false]
    have hl : ipHl (decTtl packet).mem = ipHl packet.mem := by
      simp [ipHl, decTtl, Mem.store]
    -- the header is summed over `ip_hl` words, whatever the length
    have hsum : Safe (htonsIpChecksum (decTtl packet) 14 (ipHl (decTtl packet).mem * 4) : RouterM UInt16) s ↔
        14 + 4 * ipHl packet.mem ≤ packet.size := by
      rw [hl]
      generalize ipHl packet.mem = k
      simp [htonsIpChecksum, decTtl]
      omega
    have hhl : Safe (loadIpHl (decTtl packet) : RouterM Nat) s := by
      simp [loadIpHl, decTtl]
      omega
    have hc : Computes (htonsIpChecksum (decTtl packet) 14 (ipHl (decTtl packet).mem * 4)) (ipSumT3 (decTtl packet)) :=
      fun _ => ⟨rfl, rfl, rfl⟩
    refine (Computes.safe_then (v := packet.store 22 [packet.mem 22 - 1]) (fun _ => ⟨rfl, rfl, rfl⟩) ?_).trans
      ((Computes.safe_then (v := decTtl packet) (fun _ => ⟨rfl, rfl, rfl⟩) ?_).trans
      ((Computes.safe_then (v := ipHl (decTtl packet).mem) (fun _ => ⟨rfl, rfl, rfl⟩) hhl).trans ?_))
    · simp; omega
    · simp; omega
    rw [hc.safe_bind, hsum]
    refine and_congr_right fun _ => ?_
    refine (Computes.safe_then (v := forwardBuf packet) (fun _ => ⟨rfl, rfl, rfl⟩) ?_).trans
      ((Computes.safe_then (v := packet.mem.u32 30)
        (fun _ => ⟨forwardBuf_u32 packet (by omega), rfl, rfl⟩) ?_).trans ?_)
    · simp [decTtl]; omega
    · simp; omega
    simp only [safe_bind, safe_get, get_apply, true_and]
    have h14 : 14 ≤ (forwardBuf packet).size := by simp; omega
    have h14' : 14 ≤ ((forwardBuf packet).copy env.heap).size := by simp; omega
    cases hrt : lpmLookup s.routingTable (packet.mem.u32 30) with
    | none =>
      rw [sendIcmpT3_safe env (by simpa using h34), ErrorFits, ErrorFits, forwardBuf_u32 packet (by omega)]
      simp
    | some rt =>
      cases hi : srGetInterface s.ifList rt.interface with
      | none => simp [hi]
      | some i =>
        cases he : srArpcacheLookup s.cache (nextHop rt (packet.mem.u32 30)) with
        | some e => simp [hi, he, storeEth_safe s h14, srSendPacket_safe]
        | none => simp [hi, he, storeEth_safe s h14', queuereq_safe]

/-- What `send_icmp_echo_reply` needs: an ICMP header, and `ip_hl` words to sum. -/
def EchoFits (ifs : List SrIf) (packet : Buf) (interface : IfName) : Prop :=
  (srGetInterface ifs interface).isSome = true → 38 ≤ packet.size ∧ 14 + 4 * ipHl packet.mem ≤ packet.size

theorem sendIcmpEchoReply_safe (env : Env) {packet : Buf} (h34 : 34 ≤ packet.size) (interface : IfName) :
    Safe (sendIcmpEchoReply env packet interface) s ↔ EchoFits s.ifList packet interface := by
  unfold sendIcmpEchoReply EchoFits
  simp only [safe_bind, safe_loadBytes, Nat.zero_add, Nat.le_refl, or_true, loadBytes_apply, safe_get, get_apply,
    true_and]
  cases hi : srGetInterface s.ifList interface with
  | none => simp
  | some i =>
    have hl : ipHl (echoHead packet env.heap i).mem = ipHl packet.mem := by
      have h14 : 14 < packet.size := by omega
      simp [ipHl, echoHead, Mem.store, Buf.copy, h14]
    simp only [safe_bind, loadMac, loadIpHl, htonsIpChecksum, bind_val, bind_st, touch_apply, load8_apply, load32_apply,
      storeBytes_apply, store8_apply, store16_apply, store32_apply, pure_apply, srSendPacket_safe]
    simp only [echoHead] at hl
    simp only [safe_touch, safe_pure, safe_storeBytes, safe_load8, safe_load32, safe_store8, safe_store16, safe_store32,
      Buf.size_store, Buf.size_copy, hl, Mac.length_bytes, Option.isSome_some, true_imp_iff,
      and_true, ethLen, ipLen]
    omega

/-- What `handle_ip_packet` needs. -/
def IpFits (ifs : List SrIf) (rts : List SrRt) (packet : Buf) (interface : IfName) : Prop :=
  34 ≤ packet.size →
    if (srGetInterfaceByIp ifs (packet.mem.u32 30)).isSome then
      if packet.mem 23 = ipProtocolIcmp then
        35 ≤ packet.size ∧ (packet.mem 34 = 8 → EchoFits ifs packet interface)
      else ErrorFits ifs rts packet
    else ForwardFits ifs rts packet

theorem handleIpPacket_safe (env : Env) (packet : Buf) (interface : IfName) :
    Safe (handleIpPacket env packet interface) s ↔ IpFits s.ifList s.routingTable packet interface := by
  unfold handleIpPacket IpFits
  rw [safe_ite]
  by_cases h34 : packet.size < 34
  · have hn : ¬ 34 ≤ packet.size := by omega
    simp [h34, hn]
  · have h34' : 34 ≤ packet.size := by omega
    simp only [ethLen, ipLen, h34, if_false, h34', true_imp_iff]
    refine (Computes.safe_then (v := ()) (fun _ => ⟨rfl, rfl, rfl⟩) (by simp; omega)).trans
      ((Computes.safe_then (v := packet.mem.u32 30) (fun _ => ⟨rfl, rfl, rfl⟩) (by simp; omega)).trans ?_)
    simp only [safe_bind, safe_get, get_apply, true_and, safe_ite, load8_apply, safe_load8]
    by_cases hus : (srGetInterfaceByIp s.ifList (packet.mem.u32 30)).isSome
    · simp only [hus, if_true]
      rw [and_iff_right (by omega)]
      by_cases hp : packet.mem 23 = ipProtocolIcmp
      · simp only [hp, if_true, safe_bind, safe_load8, load8_apply]
        refine and_congr_right fun _ => ?_
        by_cases ht : packet.mem 34 = 8
        · simp [ht, sendIcmpEchoReply_safe env h34']
        · simp [ht]
      · simp only [hp, if_false, sendIcmpT3_safe env h34']
    · simp only [hus]
      exact forwardIpPacket_safe env h34'

end Ip

/-! ## ARP packets -/

section Arp
variable {s : SrInstance}

theorem loadMac_safe {b : Buf} {off : Nat} (h : off + 6 ≤ b.size) : Safe (loadMac b off : RouterM Mac) s := by
  simp [loadMac, h]

theorem sendArpReply_safe (env : Env) {packet : Buf} (h : 42 ≤ packet.size) (interface : IfName) :
    Safe (sendArpReply env packet interface) s := by
  unfold sendArpReply
  have h12 : 6 + 6 ≤ packet.size := by omega
  have h28 : 22 + 6 ≤ packet.size := by omega
  have h32 : 28 + 4 ≤ packet.size := by omega
  simp only [safe_bind, safe_load32, load32_apply, safe_get, get_apply, true_and]
  refine ⟨h, ?_⟩
  cases hi : srGetInterfaceByIp s.ifList (packet.mem.u32 38) with
  | none => simp
  | some i => simp [loadMac_safe h12, loadMac_safe h28, h32, fillArp_safe, srSendPacket_safe]

/-- Every queued copy has room for the Ethernet header written into it. -/
theorem flushLoop_safe (env : Env) (sha : Mac) (pkts : List SrPacket)
    (h : ∀ pkt ∈ pkts, (∃ i, srGetInterface s.ifList pkt.iface = some i) ∧ 14 ≤ pkt.buf.length) :
    Safe (flushLoop env sha pkts) s := by
  induction pkts with
  | nil => exact safe_of_log rfl
  | cons pkt pkts ih =>
    obtain ⟨⟨i, hi⟩, h14⟩ := h pkt (by simp)
    have hb : 14 ≤ (Buf.ofBytes pkt.buf env.heap).size := h14
    simp [flushLoop, hi, storeEth_safe s hb, srSendPacket_safe, ih fun p hp => h p (by simp [hp])]

theorem handleArpPacket_safe (env : Env) (packet : Buf) (interface : IfName) (hq : QueueOk s) :
    Safe (handleArpPacket env packet interface) s := by
  unfold handleArpPacket
  rw [safe_ite]
  by_cases h42 : packet.size < 42
  · simp [h42]
  · have h42' : 42 ≤ packet.size := by omega
    have h12 : 22 + 6 ≤ packet.size := by omega
    simp only [ethLen, arpLen, h42, if_false, safe_bind, load16_apply, safe_load16]
    refine ⟨by omega, ?_⟩
    by_cases hreq : swap16 (packet.mem.u16 20) = arpOpRequest
    · simp only [hreq, if_true, safe_bind, safe_load32, load32_apply, safe_get, get_apply, true_and]
      refine ⟨h42', ?_⟩
      by_cases hus : (srGetInterfaceByIp s.ifList (packet.mem.u32 38)).isSome
      · simp only [hus, if_true]
        exact sendArpReply_safe env h42' interface
      · simp [hus]
    · by_cases hrep : swap16 (packet.mem.u16 20) = arpOpReply
      · have hne : ¬ arpOpReply = arpOpRequest := by decide
        have h32 : 28 + 4 ≤ packet.size := by omega
        simp only [hrep, hne, if_false, if_true, safe_bind, loadMac_safe h12, safe_load32, h32, load32_apply, safe_get,
          get_apply, safe_modify, modify_apply, true_and]
        rw [show (loadMac packet 22 s).st = s from rfl]
        generalize (loadMac packet 22 s).val = sha
        cases hr : findReq (packet.mem.u32 28) s.cache.requests with
        | none =>
          have hi : (srArpcacheInsert env.now s.cache sha (packet.mem.u32 28)).2 = none := hr
          simp [hi]
        | some r =>
          have hi : (srArpcacheInsert env.now s.cache sha (packet.mem.u32 28)).2 = some r := hr
          simp only [hi, safe_bind, safe_modify, and_true]
          exact flushLoop_safe env sha r.packets (hq.packet r (findReq_some hr).1)
      · simp [hreq, hrep]

end Arp

/-! ## Frames -/

section Frame
variable {s : SrInstance}

/-- What `sr_handlepacket` needs. -/
def FrameFits (ifs : List SrIf) (rts : List SrRt) (packet : Buf) (interface : IfName) : Prop :=
  14 ≤ packet.size → etherType packet.mem = ethertypeIp → IpFits ifs rts packet interface

theorem handleUntilMiss_safe (env : Env) (packet : Buf) (interface : IfName) (hq : QueueOk s) :
    Safe (handleUntilMiss env packet interface) s ↔ FrameFits s.ifList s.routingTable packet interface := by
  unfold handleUntilMiss FrameFits
  rw [safe_ite]
  by_cases h14 : packet.size < 14
  · have hn : ¬ 14 ≤ packet.size := by omega
    simp [h14, hn]
  · have h14' : 14 ≤ packet.size := by omega
    simp only [ethLen, h14, if_false, h14', true_imp_iff]
    refine (Computes.safe_then (v := packet.mem.u16 12) (fun _ => ⟨rfl, rfl, rfl⟩) (by simpa using h14')).trans ?_
    rw [safe_ite, safe_ite, ← etherType.eq_def]
    by_cases harp : etherType packet.mem = ethertypeArp
    · have hne : ¬ ethertypeArp = ethertypeIp := by decide
      simp only [harp, hne, if_true, safe_bind, handleArpPacket_safe env packet interface hq, safe_pure, and_true,
        false_imp_iff]
    · by_cases hip : etherType packet.mem = ethertypeIp
      · have hne : ¬ ethertypeIp = ethertypeArp := by decide
        simp only [hip, hne, if_false, if_true, true_imp_iff]
        exact handleIpPacket_safe env packet interface
      · simp [harp, hip]

theorem srHandlepacket_safe (env : Env) (packet : Buf) (interface : IfName) (hq : QueueOk s) :
    Safe (srHandlepacket env packet interface) s ↔ FrameFits s.ifList s.routingTable packet interface := by
  unfold srHandlepacket
  rw [safe_bind, handleUntilMiss_safe env packet interface hq]
  refine and_iff_left ?_
  cases (handleUntilMiss env packet interface s).val with
  | none => exact safe_of_log rfl
  | some m => exact m.finish_safe _ env

end Frame

/-! ## Sweeps -/

section Sweep
variable {s : SrInstance}

theorem sendArpRequestForReq_safe (env : SweepEnv) (now : Int) (req : SrArpreq) :
    Safe (sendArpRequestForReq env now req) s := by
  unfold sendArpRequestForReq
  cases req.packets with
  | nil => exact safe_of_log rfl
  | cons pkt pkts =>
    cases hi : srGetInterface s.ifList pkt.iface with
    | none => simp [hi]
    | some i => simp [hi, fillArp_safe, srSendPacket_safe]

/-- The error about a queued packet quotes 28 bytes of the copy. -/
theorem hostUnreachable_safe (env : SweepEnv) (req : Nat) {pkt : SrPacket}
    (hi : ∃ i, srGetInterface s.ifList pkt.iface = some i) :
    Safe (hostUnreachable env req pkt) s ↔ 42 ≤ pkt.buf.length := by
  obtain ⟨i, hi⟩ := hi
  have hf : ∀ b, Computes (cksumOf b 14 ipLen) (cksum b.mem 14 ipLen) := fun b s => ⟨rfl, rfl, rfl⟩
  have hg : ∀ b, Computes (cksumOf b 34 icmpT3Len) (cksum b.mem 34 icmpT3Len) := fun b s => ⟨rfl, rfl, rfl⟩
  have hip : Safe (cksumOf (errorHead (.ofBytes pkt.buf (env.past pkt.origin.seq))
      (.zeroed (ethLen + ipLen + icmpT3Len) env.heap) i.ip) 14 ipLen) s := by
    simp [cksumOf, errorHead]
  have hicmp : ∀ b : Buf, b.size = 70 → Safe (cksumOf b 34 icmpT3Len) s := by
    intro b hb
    simp [cksumOf, hb]
  have hb := unreachBuf_computes (.ofBytes pkt.buf (env.past pkt.origin.seq)) env.heap i.ip
  have h14 : 14 ≤ (unreachBuf (.ofBytes pkt.buf (env.past pkt.origin.seq)) env.heap i.ip).size := by simp
  unfold hostUnreachable
  simp only [safe_bind, safe_get, get_apply, hi, hb.safe_bind, fillIcmpError_safe hf hg i.ip 3 1 rfl hip hicmp,
    Buf.size_ofBytes, true_and]
  refine and_iff_left_of_imp fun h42 => ?_
  have h30 : 26 + 4 ≤ pkt.buf.length := by omega
  refine ⟨safe_act _ _, by simpa using h30, ?_⟩
  simp only [load32_apply, act_apply]
  cases hrt : lpmLookup s.routingTable ((Buf.ofBytes pkt.buf (env.past pkt.origin.seq)).mem.u32 26) with
  | none => simp
  | some best =>
    cases hj : srGetInterface s.ifList best.interface with
    | none => simp [hj]
    | some j =>
      cases he : srArpcacheLookup s.cache (nextHop best ((Buf.ofBytes pkt.buf (env.past pkt.origin.seq)).mem.u32 26)) with
      | none => simp [hj, he]
      | some e => simp [hj, he, storeEth_safe s h14, srSendPacket_safe]

theorem sendIcmpHostUnreachable_safe (env : SweepEnv) (req : Nat) (pkts : List SrPacket)
    (hi : ∀ pkt ∈ pkts, ∃ i, srGetInterface s.ifList pkt.iface = some i) :
    Safe (sendIcmpHostUnreachable env req pkts) s ↔ ∀ pkt ∈ pkts, 42 ≤ pkt.buf.length := by
  induction pkts with
  | nil => exact iff_of_true (safe_of_log rfl) (by intro pkt h; cases h)
  | cons pkt pkts ih =>
    rw [sendIcmpHostUnreachable, safe_bind, hostUnreachable_safe env req (hi pkt (by simp)),
      (hostUnreachable_does env req pkt s).1, ih fun p hp => hi p (by simp [hp]), List.forall_mem_cons]

/-- When a request is given up, each of its packets has 28 bytes to quote. -/
def ReqFits (now : Int) (req : SrArpreq) : Prop :=
  now - req.sent ≥ 1 → req.timesSent ≥ 5 → ∀ pkt ∈ req.packets, 42 ≤ pkt.buf.length

/-- The requests of a queue, the first of which is the `k`th one visited. -/
def SweepFits (clock : Nat → Int) : Nat → List SrArpreq → Prop
  | _, [] => True
  | k, r :: rs => ReqFits (clock (k + 1)) r ∧ SweepFits clock (k + 1) rs

theorem handleArpreq_safe (env : SweepEnv) (now : Int) (req : SrArpreq)
    (hi : ∀ pkt ∈ req.packets, ∃ i, srGetInterface s.ifList pkt.iface = some i) :
    Safe (handleArpreq env now req) s ↔ ReqFits now req := by
  unfold handleArpreq ReqFits
  rw [safe_ite, safe_ite]
  by_cases hdue : now - req.sent ≥ 1
  · by_cases h5 : req.timesSent ≥ 5
    · simp [hdue, h5, sendIcmpHostUnreachable_safe env req.ptr req.packets hi]
    · simp [hdue, h5, sendArpRequestForReq_safe]
  · simp [hdue]

/-- The walk from a node on, with the queue cut there. -/
theorem sweepLoop_safe (env : SweepEnv) (todo done : List SrArpreq) (k fuel : Nat) (hf : todo.length ≤ fuel)
    (sr : SrInstance) (hr : sr.cache.requests = done ++ todo) (hp : ((done ++ todo).map (·.ptr)).Nodup)
    (hi : ∀ r ∈ todo, ∀ pkt ∈ r.packets, ∃ i, srGetInterface sr.ifList pkt.iface = some i) :
    Safe (sweepLoop env fuel k (todo.head?.map (·.ptr))) sr ↔ SweepFits env.clock k todo := by
  induction todo generalizing done k fuel sr with
  | nil =>
    have e : sweepLoop env fuel k none = pure () := by cases fuel <;> rfl
    simp [e, SweepFits]
  | cons r rs ih =>
    obtain ⟨fuel, rfl⟩ : ∃ f, fuel = f + 1 := ⟨fuel - 1, by simp at hf; omega⟩
    have h1 := (handleArpreq_does env (env.clock (k + 1)) hr hp).1
    have hn := nodup_ptr_tail hp (env.clock (k + 1))
    have hrest := ih (done ++ (sweepOne (env.clock (k + 1)) r).toList) (k + 1) fuel (by simp at hf; omega)
      (sr.setRequests (done ++ (sweepOne (env.clock (k + 1)) r).toList ++ rs)) rfl hn
      fun q hq => hi q (by simp [hq])
    have hd : derefReq r.ptr sr.cache.requests = some r := by rw [hr, derefReq_middle hp]
    have hx : nextReq r.ptr sr.cache.requests = rs.head?.map (·.ptr) := by rw [hr, nextReq_middle hp]
    simp only [List.head?_cons, Option.map_some, sweepLoop, safe_bind, safe_get, get_apply, hd, hx, h1, hrest,
      handleArpreq_safe env (env.clock (k + 1)) r (hi r (by simp)), SweepFits, true_and]

theorem srArpcacheTimeout_safe (env : SweepEnv) (sr : SrInstance) (hq : QueueOk sr) :
    Safe (srArpcacheTimeout env) sr ↔ SweepFits env.clock 0 sr.cache.requests := by
  unfold srArpcacheTimeout srArpcacheSweepreqs
  simp only [safe_bind, safe_modify, modify_apply, safe_get, get_apply, true_and]
  exact sweepLoop_safe env sr.cache.requests [] 0 _ (Nat.le_refl _) _ rfl hq.ptr
    fun r hr pkt hpkt => (hq.packet r hr pkt hpkt).1

end Sweep

/-! ## Steps and runs -/

/-- The step that takes `e` in state `sr` needs no byte it does not have. -/
def Fits (sr : SrInstance) : Event → Prop
  | .frame bytes past _ iface _ => FrameFits sr.ifList sr.routingTable (.ofBytes bytes past) iface
  | .sweep env => SweepFits env.clock 0 sr.cache.requests

instance (ifs : List SrIf) (rts : List SrRt) (packet : Buf) : Decidable (ErrorFits ifs rts packet) :=
  inferInstanceAs (Decidable (_ → _))

instance (ifs : List SrIf) (rts : List SrRt) (packet : Buf) : Decidable (ForwardFits ifs rts packet) :=
  inferInstanceAs (Decidable (@ite _ _ _ _ _))

instance (ifs : List SrIf) (packet : Buf) (interface : IfName) : Decidable (EchoFits ifs packet interface) :=
  inferInstanceAs (Decidable (_ → _))

instance (ifs : List SrIf) (rts : List SrRt) (packet : Buf) (interface : IfName) :
    Decidable (IpFits ifs rts packet interface) :=
  inferInstanceAs (Decidable (_ → @ite _ _ _ _ _))

instance (ifs : List SrIf) (rts : List SrRt) (packet : Buf) (interface : IfName) :
    Decidable (FrameFits ifs rts packet interface) :=
  inferInstanceAs (Decidable (_ → _ → _))

instance (now : Int) (req : SrArpreq) : Decidable (ReqFits now req) := inferInstanceAs (Decidable (_ → _ → _))

instance decidableSweepFits (clock : Nat → Int) : (k : Nat) → (reqs : List SrArpreq) → Decidable (SweepFits clock k reqs)
  | _, [] => .isTrue trivial
  | k, _ :: rs => @instDecidableAnd _ _ _ (decidableSweepFits clock (k + 1) rs)

instance (sr : SrInstance) (e : Event) : Decidable (Fits sr e) :=
  match e with
  | .frame bytes past _ iface _ =>
    inferInstanceAs (Decidable (FrameFits sr.ifList sr.routingTable (.ofBytes bytes past) iface))
  | .sweep env => inferInstanceAs (Decidable (SweepFits env.clock 0 sr.cache.requests))

/-- The accesses of the events `es` from `sr` on, when `n` events came before. -/
def accesses (n : Nat) (sr : SrInstance) : List Event → List Access
  | [] => []
  | e :: es => (stepRes n sr e).log ++ accesses (n + 1) (stepRes n sr e).st es

theorem step_safe (n : Nat) {sr : SrInstance} (hq : QueueOk sr) (e : Event) :
    (∀ a ∈ (stepRes n sr e).log, a.InBounds) ↔ Fits sr e := by
  cases e with
  | frame bytes past heap iface now => exact srHandlepacket_safe ⟨n, now, heap⟩ (.ofBytes bytes past) iface hq
  | sweep env => exact srArpcacheTimeout_safe env sr hq

theorem accesses_safe (ifs : List SrIf) (rts : List SrRt) {n : Nat} {sr : SrInstance} (hw : Wf ifs rts n sr)
    (hc : Counted sr) (es : List Event) :
    (∀ a ∈ accesses n sr es, a.InBounds) ↔ (router ifs rts).AlongFrom Fits n sr es := by
  induction es generalizing n sr with
  | nil => simp [accesses, System.AlongFrom]
  | cons e es ih =>
    have hs := step_cases hw hc e
    rw [accesses, List.forall_mem_append, step_safe n hw.queueOk e, ih (hs.wf hw) (hs.counted hc)]
    rfl

/-- All accesses of a run are in bounds if and only if every step of it fits. -/
theorem in_bounds_iff (ifs : List SrIf) (rts : List SrRt) (es : List Event) :
    (∀ a ∈ accesses 0 (.init ifs rts) es, a.InBounds) ↔ (router ifs rts).Along Fits es :=
  accesses_safe ifs rts (init_wf ifs rts) (by intro r hr; cases hr) es

-- A ping through the router is in bounds until its request is given up.
example : (router Sample.ifs Sample.rts).Along Fits
    ([Sample.received Sample.e1 (Sample.ping [10, 0, 1, 7]) 100] ++
      [101, 102, 103, 104, 105].map Sample.sweep) := by decide +kernel

/-- An ICMP packet for the router with an IP header and no more: its type is
read behind the frame. -/
theorem type_out_of_bounds : ¬ ∀ a ∈ accesses 0 (.init Sample.ifs Sample.rts)
    [Sample.received Sample.e1 ((Sample.ping [10, 0, 0, 1]).take 34) 100], a.InBounds := by
  decide +kernel

end SimpleRouter
