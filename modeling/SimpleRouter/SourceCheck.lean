import SimpleRouter.Client
/-!
# No send is refused

`sr_send_packet` discards a frame whose Ethernet source is not the address of
the interface it is to leave through. Three ways lead to that address: the name
of an interface, the name stored with a packet that waits, and, for ARP replies,
the address that is asked for. The last one finds the interface the request came
in on because the parser has dropped all requests for other addresses, which is
where interfaces with addresses of their own are needed.
-/
open Memory CProg Runs Stream

namespace SimpleRouter

/-- The call of `sr_send_packet` an action stands for, if it does, passes the check. -/
def Act.Matches (ifs : List SrIf) : Act → Prop
  | .send _ iface frame =>
    14 ≤ frame.length ∧ ∃ i, srGetInterface ifs iface = some i ∧ (frame.drop 6).take 6 = i.addr.bytes
  | .reject _ _ _ => False
  | .build _ _ => True
  | .fail _ _ => True
  | .fault _ => True

/-- What is sent has passed the check. -/
theorem matches_of_sendActs {ifs : List SrIf} {site : Site} {iface : IfName} {frame : List UInt8}
    (h : sendActs ifs site iface frame = [.send site iface frame]) : (Act.send site iface frame).Matches ifs := by
  unfold sendActs at h
  split at h
  · cases h
  · rename_i h14
    cases hi : srGetInterface ifs iface with
    | none => simp [hi] at h
    | some i =>
      simp only [hi] at h
      split at h
      · rename_i hm
        exact ⟨by simpa using h14, i, hi, hm⟩
      · cases h

/-! ## Each send site -/

section Sites
variable {ifs : List SrIf} {rts : List SrRt} {a : Act}

/-- The interface asked for is the one the request came in on. -/
theorem arpReply_interface (hd : (ifs.map (·.ip)).Nodup) {packet : Buf} {interface : IfName}
    (hfilter : arpFilter ifs interface packet = some false) (h42 : ¬ packet.size < 42)
    (ht : etherType packet.mem = ethertypeArp) (hop : arOp packet.mem = arpOpRequest) {i : SrIf}
    (hi : srGetInterfaceByIp ifs (packet.mem.u32 38) = some i) : srGetInterface ifs interface = some i := by
  simp only [arpFilter, ethLen, arpLen, if_neg h42] at hfilter
  cases hj : srGetInterface ifs interface with
  | none => simp [hj] at hfilter
  | some j =>
    -- a request for another address than that of `j` would not have come through
    have htip : packet.mem.u32 38 = j.ip := by
      rw [hj] at hfilter
      simpa [ht, hop, arTip] using hfilter
    have hip : i.ip = packet.mem.u32 38 := by simpa using List.find?_some hi
    have hmem : i ∈ ifs := List.mem_of_find?_eq_some hi
    rw [List.inj_on_of_nodup_map hd hmem (srGetInterface_some hj).1 (hip.trans htip)]

theorem planError_transmit {env : Env} {packet : Buf} {type code : UInt8} {site : Site} {iface : IfName}
    {frame : List UInt8} : planError ifs rts env packet type code ≠ .transmit site iface frame := by
  unfold planError
  split
  · exact nofun
  · split
    · exact nofun
    · exact nofun

theorem planForward_transmit {env : Env} {packet : Buf} {site : Site} {iface : IfName} {frame : List UInt8} :
    planForward ifs rts env packet ≠ .transmit site iface frame := by
  unfold planForward
  split
  · exact planError_transmit
  · split
    · exact planError_transmit
    · split
      · exact nofun
      · exact nofun

/-- An IP packet is answered, if it is, by an echo through the interface it came in on. -/
theorem planIp_transmit {env : Env} {packet : Buf} {interface iface : IfName} {site : Site} {frame : List UInt8}
    (h : planIp ifs rts env packet interface = .transmit site iface frame) :
    ∃ i, srGetInterface ifs interface = some i ∧ 34 ≤ packet.size ∧ iface = interface ∧
      frame = (echoBuf packet env.heap i).bytes := by
  unfold planIp at h
  by_cases h34 : packet.size < 34
  · rw [if_pos h34] at h
    cases h
  rw [if_neg h34] at h
  by_cases hus : (srGetInterfaceByIp ifs (packet.mem.u32 30)).isSome
  · rw [if_pos hus] at h
    split at h
    · split at h
      · unfold planEcho at h
        cases hi : srGetInterface ifs interface with
        | none => simp [hi] at h
        | some i =>
          simp only [hi] at h
          cases h
          exact ⟨i, rfl, by omega, rfl, rfl⟩
      · cases h
    · exact absurd h planError_transmit
  · rw [if_neg hus] at h
    exact absurd h planForward_transmit

/-- Every answer passes the check. -/
theorem plan_transmit (hd : (ifs.map (·.ip)).Nodup) {env : Env} {packet : Buf} {interface iface : IfName}
    (hfilter : arpFilter ifs interface packet = some false) {site : Site} {frame : List UInt8}
    (h : plan ifs rts env packet interface = .transmit site iface frame) :
    sendActs ifs site iface frame = [.send site iface frame] := by
  unfold plan at h
  split at h
  · cases h
  split at h
  · rename_i ht
    unfold planArp at h
    split at h
    · cases h
    rename_i h42
    split at h
    · rename_i hop
      cases hi : srGetInterfaceByIp ifs (packet.mem.u32 38) with
      | none => simp [hi] at h
      | some i =>
        simp only [hi] at h
        cases h
        exact sendActs_arp (arpReply_interface hd hfilter h42 ht hop hi) _ _ _ _ _
    · split at h
      · cases h
      · cases h
  · split at h
    · obtain ⟨i, hi, h34, rfl, rfl⟩ := planIp_transmit h
      exact sendActs_echo hi site env.heap (by omega)
    · cases h

theorem flush_matches {mac : Mac} {pkts : List SrPacket} (h14 : ∀ pkt ∈ pkts, 14 ≤ pkt.buf.length)
    (ha : a ∈ flushActs ifs mac pkts) : a.Matches ifs := by
  obtain ⟨pkt, hpkt, i, hi, rfl⟩ := mem_flushActs ha
  apply matches_of_sendActs
  rw [← (srGetInterface_some hi).2]
  exact sendActs_setEth (some mac) (srGetInterface_name hi) (h14 pkt hpkt)

theorem sweep_matches {entries : ArpTable} {env : SweepEnv} {k : Nat} {reqs : List SrArpreq}
    (ha : a ∈ sweepActs ifs rts entries env k reqs) : a.Matches ifs := by
  obtain ⟨r, -, now, hone, -, -⟩ := mem_sweepActs ha
  obtain ⟨-, ⟨-, rfl | ⟨pkt, -, hu⟩⟩ | ⟨-, pkt, -, i, hi, rfl⟩⟩ := mem_sweepOneActs hone
  · trivial
  · obtain ⟨i, -, rfl | hsend⟩ := mem_unreachActs hu
    · trivial
    · obtain ⟨best, j, e, -, hj, -, rfl⟩ := mem_unreachSend hsend
      -- the error leaves through `j`, which need not be the interface `i` it names as its source
      have h14 : 14 ≤ (unreachError env i pkt).bytes.length := by simp [unreachError]
      exact matches_of_sendActs (sendActs_setEth (some e.mac) (srGetInterface_name hj) h14)
  · exact matches_of_sendActs (sendActs_arpRequest (srGetInterface_name hi) env.heap r.ip)

/-- What is put out leaves through the interface its header was filled in for. -/
theorem output_matches {n : Nat} {sr sr' : SrInstance} {e : Event} {acts : List Act} {d : Delivery}
    (hs : StepsTo ifs rts n sr e sr' acts) (hd : delivers ifs rts n e = some d) (ha : a ∈ acts) : a.Matches ifs := by
  obtain ⟨built, _, _, heap, _, _, rfl, hp, hacts⟩ := hs.delivered hd
  obtain ⟨h34, -, rt, -, hi, -⟩ := plan_routed hp
  have h14 : 14 ≤ d.frame.length := by omega
  have hbuilt : a ∈ built → a.Matches ifs := by
    intro hb
    rw [mem_built hp hb]
    trivial
  rcases hacts with ⟨ent, -, rfl⟩ | ⟨-, rfl | rfl⟩
  · rcases List.mem_append.1 ha with ha | ha
    · exact hbuilt ha
    · rw [List.mem_singleton.1 ha]
      exact matches_of_sendActs (sendActs_setEth (some ent.mac) (srGetInterface_name hi) h14)
  · exact hbuilt ha
  · rcases List.mem_append.1 ha with ha | ha
    · exact hbuilt ha
    · rw [List.mem_singleton.1 ha]
      exact matches_of_sendActs (sendActs_arpRequest (srGetInterface_name hi) heap d.nextHop)

end Sites

/-! ## Every step -/

section Steps
variable {ifs : List SrIf} {rts : List SrRt} {n : Nat} {sr : SrInstance}

theorem step_matches (hw : Wf ifs rts n sr) (hc : Counted sr) (hd : (ifs.map (·.ip)).Nodup) {e : Event}
    (he : e.Filtered ifs) : ∀ a ∈ (stepRes n sr e).acts, a.Matches ifs := by
  intro a ha
  have hs := step_cases hw hc e
  cases e with
  | sweep env =>
    obtain ⟨-, hacts⟩ := srArpcacheTimeout_spec env sr hw.ptr
    rw [stepRes, hacts, hw.ifList] at ha
    exact sweep_matches ha
  | frame bytes past heap interface now =>
    have hf := handleUntilMiss_follows ⟨n, now, heap⟩ (.ofBytes bytes past) interface sr hw.queueOk
    rw [hw.ifList, hw.routes] at hf
    cases hp : plan ifs rts ⟨n, now, heap⟩ (.ofBytes bytes past) interface with
    | quiet =>
      rw [stepRes, (srHandlepacket_none (hp ▸ hf) rfl).2] at ha
      cases ha
    | crash =>
      rw [stepRes, (srHandlepacket_none (hp ▸ hf) rfl).2] at ha
      rw [List.mem_singleton.1 ha]
      trivial
    | transmit site iface frame =>
      have hsent := plan_transmit hd he hp
      rw [stepRes, (srHandlepacket_none (hp ▸ hf) rfl).2, Plan.acts, hw.ifList, hsent] at ha
      rw [List.mem_singleton.1 ha]
      exact matches_of_sendActs hsent
    | learn mac ip =>
      rw [stepRes, (srHandlepacket_learn hw hp).2] at ha
      cases hr : findReq ip sr.cache.requests with
      | none => simp [hr] at ha
      | some r =>
        rw [hr] at ha
        exact flush_matches (fun pkt hpkt => (hw.packet r (findReq_some hr).1 pkt hpkt).2) ha
    | output built d => exact output_matches (d := d) hs (by simp only [delivers, hp]) ha

/-- Interfaces have addresses of their own when an event comes. -/
def DistinctIps (sr : SrInstance) (_ : ClientEvent) : Prop := (sr.ifList.map (·.ip)).Nodup

instance (sr : SrInstance) (e : ClientEvent) : Decidable (DistinctIps sr e) :=
  inferInstanceAs (Decidable (List.Nodup _))

theorem ClientStepsTo.matches {sr' : SrInstance} {acts : List Act} (hw : ClientWf rts n sr)
    (hd : (sr.ifList.map (·.ip)).Nodup) (h : ClientStepsTo n sr sr' acts) : ∀ a ∈ acts, a.Matches sr.ifList := by
  cases h with
  | hardware h ha =>
    intro a hmem
    rw [ha a hmem]
    trivial
  | routed he => exact step_matches hw.wf hw.counted hd he

end Steps

/-- As long as the interfaces have addresses of their own, every call of
`sr_send_packet`, by any handler or by the sweep, is given at least an Ethernet
header, whose source is the address of the interface it names. -/
theorem sends_match (rts : List SrRt) {es : List ClientEvent} (h : (client rts).Along DistinctIps es) :
    ∀ pre e post, es = pre ++ e :: post →
      ∀ a ∈ (client rts).actsAt pre e, a.Matches ((client rts).state pre).ifList := by
  intro pre e post hp
  have hd : DistinctIps ((client rts).state pre) e := ((client rts).along_iff_forall _ es).1 h pre e post hp
  exact (client_cases pre.length _ e).matches (client_reachable rts pre) hd

open Sample in
/-- The packet is asked for when it comes and when the sweep comes. -/
theorem sends_match_swept :
    ((client rts).actsAt [served hwinfo] (served pinged)).length = 1 ∧
    (∀ a ∈ (client rts).actsAt [served hwinfo] (served pinged), a.Matches ((client rts).state [served hwinfo]).ifList) ∧
    ((client rts).actsAt [served hwinfo, served pinged] swept).length = 1 ∧
    ∀ a ∈ (client rts).actsAt [served hwinfo, served pinged] swept,
      a.Matches ((client rts).state [served hwinfo, served pinged]).ifList := by
  have h : (client rts).Along DistinctIps [served hwinfo, served pinged, swept] := by decide +kernel
  exact ⟨by decide +kernel, sends_match rts h [served hwinfo] (served pinged) [swept] rfl, by decide +kernel,
    sends_match rts h [served hwinfo, served pinged] swept [] rfl⟩

end SimpleRouter
