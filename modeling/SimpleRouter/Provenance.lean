import SimpleRouter.Invariants
/-!
# Where queued packets and cache entries come from

Two invariants of every run. A queued packet is what the event it is named
after gave the router to put out, and it waits under its own next hop
(`Queued`). A valid cache entry is what an ARP reply said, and no sweep since
has found it more than fifteen seconds old (`Learned`). Next-hop soundness is
read off them, transmission by transmission.
-/
open Memory CProg Runs

namespace SimpleRouter

variable {ifs : List SrIf} {rts : List SrRt} {es : List Event} {sr : SrInstance}

/-! ## Queued packets -/

/-- Event number `pkt.origin.seq` of `es` is where `pkt` comes from, and `ip` is its next hop. -/
def CameFrom (ifs : List SrIf) (rts : List SrRt) (es : List Event) (pkt : SrPacket) (ip : UInt32) : Prop :=
  ∃ e d, es[pkt.origin.seq]? = some e ∧ delivers ifs rts pkt.origin.seq e = some d ∧ d.packet = pkt ∧ d.nextHop = ip

/-- Every queued packet waits under its own next hop. -/
def Queued (ifs : List SrIf) (rts : List SrRt) (es : List Event) (sr : SrInstance) : Prop :=
  ∀ r ∈ sr.cache.requests, ∀ pkt ∈ r.packets, CameFrom ifs rts es pkt r.ip

theorem getElem?_snoc {es : List Event} {k : Nat} {e : Event} (h : es[k]? = some e) (f : Event) :
    (es ++ [f])[k]? = some e := by
  obtain ⟨hk, -⟩ := List.getElem?_eq_some_iff.1 h
  rw [List.getElem?_append_left hk, h]

theorem CameFrom.snoc {pkt : SrPacket} {ip : UInt32} (h : CameFrom ifs rts es pkt ip) (f : Event) :
    CameFrom ifs rts (es ++ [f]) pkt ip := by
  obtain ⟨e, d, he, hd⟩ := h
  exact ⟨e, d, getElem?_snoc he f, hd⟩

/-- What a step puts out comes from that step. -/
theorem cameFrom_self {e : Event} {d : Delivery} (hd : delivers ifs rts es.length e = some d) :
    CameFrom ifs rts (es ++ [e]) d.packet d.nextHop := by
  obtain ⟨_, _, _, _, _, _, -, hp⟩ := delivers_plan hd
  have hseq : d.packet.origin.seq = es.length := (plan_routed hp).2.1
  refine ⟨e, d, ?_, hseq ▸ hd, rfl, rfl⟩
  rw [hseq, List.getElem?_append_right (Nat.le_refl _)]
  simp

theorem StepsTo.queued (hw : Wf ifs rts es.length sr) {e : Event} {sr' : SrInstance} {acts : List Act}
    (hs : StepsTo ifs rts es.length sr e sr' acts) (h : Queued ifs rts es sr) :
    Queued ifs rts (es ++ [e]) sr' := by
  intro q hq pkt hpkt
  rcases hs.waiting_packet hw hq hpkt with ⟨r, hr, hip, hp⟩ | ⟨d, hd, rfl, hip⟩
  · exact hip ▸ (h r hr pkt hp).snoc e
  · exact hip ▸ cameFrom_self hd

theorem run_queued (ifs : List SrIf) (rts : List SrRt) (es : List Event) :
    Queued ifs rts es ((router ifs rts).state es) := by
  refine (router ifs rts).induct (I := fun es sr _ => Queued ifs rts es sr) ?_ ?_ es
  · intro r hr; cases hr
  · intro es e h
    obtain ⟨hw, hc⟩ := reachable ifs rts es
    exact (step_cases hw hc e).queued hw h

/-! ## Cache entries -/

/-- Event `k` of `es` is an ARP reply, received at `t`, that says `ip` is at `mac`. -/
def RepliedAt (es : List Event) (k : Nat) (mac : Mac) (ip : UInt32) (t : Int) : Prop :=
  ∃ bytes past heap iface, es[k]? = some (.frame bytes past heap iface t) ∧ IsArpReply bytes mac ip

/-- No sweep since that reply has read a clock more than fifteen seconds later. -/
structure FreshReply (es : List Event) (k : Nat) (mac : Mac) (ip : UInt32) (t : Int) : Prop where
  reply : RepliedAt es k mac ip t
  fresh : ∀ j env, k < j → es[j]? = some (.sweep env) → env.clock 0 - t ≤ arpcacheTo

/-- Every valid entry is what a reply said, and fresh. -/
def Learned (es : List Event) (entries : ArpTable) : Prop :=
  ∀ e ∈ entries.slots, e.valid = true → ∃ k, FreshReply es k e.mac e.ip e.added

theorem getElem?_snoc_cases {es : List Event} {j : Nat} {e f : Event} (h : (es ++ [f])[j]? = some e) :
    es[j]? = some e ∨ j = es.length ∧ f = e := by
  rcases Nat.lt_trichotomy j es.length with hj | hj | hj
  · rw [List.getElem?_append_left hj] at h
    exact .inl h
  · subst hj
    rw [List.getElem?_append_right (Nat.le_refl _)] at h
    exact .inr ⟨rfl, by simpa using h⟩
  · rw [List.getElem?_eq_none (by simp; omega)] at h
    cases h

/-- A reply stays fresh over a step that is no sweep, or a sweep early enough. -/
theorem FreshReply.snoc {k : Nat} {mac : Mac} {ip : UInt32} {t : Int} (h : FreshReply es k mac ip t) {f : Event}
    (hf : ∀ env, f = .sweep env → env.clock 0 - t ≤ arpcacheTo) : FreshReply (es ++ [f]) k mac ip t := by
  obtain ⟨⟨bytes, past, heap, iface, he, hr⟩, hsw⟩ := h
  refine ⟨⟨bytes, past, heap, iface, getElem?_snoc he f, hr⟩, fun j env hj hje => ?_⟩
  rcases getElem?_snoc_cases hje with hje' | ⟨-, hfe⟩
  · exact hsw j env hj hje'
  · exact hf env hfe

theorem freshReply_self {bytes : List UInt8} {past heap : Mem} {iface : IfName} {now : Int} {mac : Mac} {ip : UInt32}
    (h : IsArpReply bytes mac ip) :
    FreshReply (es ++ [.frame bytes past heap iface now]) es.length mac ip now := by
  refine ⟨⟨bytes, past, heap, iface, by simp, h⟩, fun j env hj hje => ?_⟩
  rcases getElem?_snoc_cases hje with hje' | ⟨-, hfe⟩
  · rw [List.getElem?_eq_none (by omega)] at hje'
    cases hje'
  · cases hfe

theorem Learned.frame {entries : ArpTable} (h : Learned es entries) {bytes : List UInt8} {past heap : Mem}
    {iface : IfName} {now : Int} : Learned (es ++ [.frame bytes past heap iface now]) entries := by
  intro e he hv
  obtain ⟨k, hk⟩ := h e he hv
  exact ⟨k, hk.snoc fun env hf => by cases hf⟩

/-- The entries that survive the expiry of a sweep are fresh after it. -/
theorem Learned.expire {entries : ArpTable} (h : Learned es entries) (env : SweepEnv) :
    Learned (es ++ [.sweep env]) (expireEntries (env.clock 0) entries) := by
  intro e he hv
  obtain ⟨hmem, hage⟩ := expire_entry he hv
  obtain ⟨k, hk⟩ := h e hmem hv
  refine ⟨k, hk.snoc fun env' hf => ?_⟩
  cases hf
  exact hage

theorem StepsTo.learned {e : Event} {sr' : SrInstance} {acts : List Act}
    (hs : StepsTo ifs rts es.length sr e sr' acts) (h : Learned es sr.cache.entries) :
    Learned (es ++ [e]) sr'.cache.entries := by
  cases hs.changes with
  | same => exact h.frame
  | learn hrep =>
    intro e he hv
    rcases insert_entry he with he' | rfl
    · exact h.frame e he' hv
    · exact ⟨es.length, freshReply_self hrep⟩
  | join => exact h.frame
  | fresh => exact h.frame
  | sweep => exact h.expire _

theorem run_learned (ifs : List SrIf) (rts : List SrRt) (es : List Event) :
    Learned es ((router ifs rts).state es).cache.entries := by
  refine (router ifs rts).induct (I := fun es sr _ => Learned es sr.cache.entries) ?_ ?_ es
  · intro e he hv
    rw [init_entry he] at hv
    cases hv
  · intro es e h
    obtain ⟨hw, hc⟩ := reachable ifs rts es
    exact (step_cases hw hc e).learned h

/-! ## Next hops -/

/-- The addresses of a frame that goes where its route says: it leaves through
the route's interface, for the hardware address that an ARP reply among `es`
gave for the next hop. Unless that reply is what releases the packet from the
queue, it is a fresh one. -/
def GoesToNextHop (rts : List SrRt) (es : List Event) (site : Site) (iface : IfName) (frame : List UInt8) : Prop :=
  ∃ rt, lpmLookup rts (ipDst (memOf frame)) = some rt ∧ iface = rt.interface ∧
    ∃ k t, RepliedAt es k (.ofMem (memOf frame) 0) (nextHop rt (ipDst (memOf frame))) t ∧
      ((∀ o, site ≠ .flushed o) → FreshReply es k (.ofMem (memOf frame) 0) (nextHop rt (ipDst (memOf frame))) t)

/-- A frame with its Ethernet header filled in goes where the packet under it does. -/
theorem goesToNextHop_setEth {bs : List UInt8} (h34 : 34 ≤ bs.length) {mac shost : Mac} {rt : SrRt} {site : Site}
    {iface : IfName} (hrt : lpmLookup rts (ipDst (memOf bs)) = some rt) (hi : iface = rt.interface) {k : Nat} {t : Int}
    (hr : RepliedAt es k mac (nextHop rt (ipDst (memOf bs))) t)
    (hf : (∀ o, site ≠ .flushed o) → FreshReply es k mac (nextHop rt (ipDst (memOf bs))) t) :
    GoesToNextHop rts es site iface (setEth (some mac) shost bs) := by
  have hd : ipDst (memOf (setEth (some mac) shost bs)) = ipDst (memOf bs) :=
    Mem.u32_congr fun k _ => memOf_setEth _ _ (by omega) (by omega)
  rw [GoesToNextHop, hd, dhost_setEth shost mac]
  exact ⟨rt, hrt, hi, k, t, hr, hf⟩

/-- Every IP packet a step transmits, echo replies apart, goes to its next hop. -/
theorem Sent.goesToNextHop {e : Event} {sr' : SrInstance} {acts : List Act} {site : Site} {iface : IfName}
    {frame : List UInt8} (hq : Queued ifs rts es sr) (hl : Learned es sr.cache.entries)
    (hs : Sent ifs rts es.length sr sr' acts e site iface frame) (ht : etherType (memOf frame) = ethertypeIp)
    (he : ∀ n, site ≠ .echoReply n) : GoesToNextHop rts (es ++ [e]) site iface frame := by
  cases hs with
  | arpReply ht' => exact absurd (ht.symm.trans ht') (by decide)
  | echo => exact absurd rfl (he _)
  | @flushed bytes past heap iface now mac ip r pkt i h hr hp hi =>
    obtain ⟨hrm, rfl⟩ := findReq_some hr
    -- the packet was routed when it was queued, and has waited for that next hop since
    obtain ⟨e', d, -, hd, rfl, hnh⟩ := hq r hrm pkt hp
    obtain ⟨_, _, _, _, _, _, -, hplan⟩ := delivers_plan hd
    obtain ⟨h34, -, rt, hrt, hrti, hrtn⟩ := plan_routed hplan
    have hself : RepliedAt (es ++ [.frame bytes past heap iface now]) es.length mac r.ip now := (freshReply_self h).reply
    rw [Delivery.packet, setEth_setEth _ _ _ (show 14 ≤ d.frame.length by omega)]
    refine goesToNextHop_setEth h34 hrt ?_ (hrtn ▸ hnh ▸ hself) fun hno => absurd rfl (hno _)
    exact (srGetInterface_some hrti).2
  | @direct _ _ _ _ _ built d ent hp hent =>
    obtain ⟨h34, -, rt, hrt, hrti, hrtn⟩ := plan_routed hp
    obtain ⟨hem, hv, hip⟩ := lookup_some hent
    obtain ⟨k, hk⟩ := hl.frame ent hem hv
    have hk' := hrtn ▸ hip ▸ hk
    exact goesToNextHop_setEth h34 hrt (srGetInterface_some hrti).2 hk'.reply fun _ => hk'
  | first => exact absurd (ht.symm.trans (arpRequestFrame_fields _ _ _).1) (by decide)
  | retry => exact absurd (ht.symm.trans (arpRequestFrame_fields _ _ _).1) (by decide)
  | @unreachable env now r pkt i best j ent hr hf hp hi hb hj hent =>
    rcases lookupLoop_some hent with hnone | ⟨hem, hv, hip⟩
    · cases hnone
    · obtain ⟨k, hk⟩ := hl.expire env ent hem hv
      rw [← ipDst_unreachBuf _ env.heap i.ip] at hb hip
      have hk' := hip ▸ hk
      exact goesToNextHop_setEth (by simp [unreachError]) hb (srGetInterface_some hj).2 hk'.reply fun _ => hk'

/-- Every IPv4 frame of every run, echo replies apart, leaves on the interface
of the longest-prefix route for its destination, for the hardware address that
an ARP reply gave for its next hop: the reply just received if the packet was
waiting for it, else one that no sweep since has found older than fifteen
seconds. -/
theorem next_hop_sound (ifs : List SrIf) (rts : List SrRt) (es : List Event) (e : Event) {site : Site} {iface : IfName}
    {frame : List UInt8} (hm : .send site iface frame ∈ (router ifs rts).actsAt es e)
    (ht : etherType (memOf frame) = ethertypeIp) (he : ∀ n, site ≠ .echoReply n) :
    GoesToNextHop rts (es ++ [e]) site iface frame :=
  ((run_step ifs rts es e).sent hm).goesToNextHop (run_queued ifs rts es) (run_learned ifs rts es) ht he

/-- A packet for 10.0.1.7, sent at once with the address of an earlier reply. -/
theorem next_hop_sound_direct :
    GoesToNextHop Sample.rts
      ([Sample.received Sample.e2 (Sample.arpReply 7) 0] ++ [Sample.received Sample.e1 (Sample.ping [10, 0, 1, 7]) 3])
      (.direct (.forwarded 1)) Sample.e2
      ([7, 7, 7, 7, 7, 7, 2, 0, 0, 0, 0, 2, 8, 0, 0x45, 0, 0, 28, 0, 0, 0, 0, 62, 1, 214, 103] ++
        (Sample.ping [10, 0, 1, 7]).drop 26) :=
  next_hop_sound Sample.ifs Sample.rts _ _ (by decide +kernel) (by decide +kernel) (by nofun)

end SimpleRouter
