import SimpleRouter.Invariants
import SimpleRouter.HardwareInfo
/-!
# The client of the server

The router as it runs: an event is a call of `sr_read_from_server_expect`, with
whatever the socket has to give, or a sweep. The interfaces come with the
commands, so the list of them grows along a run. `client_cases` says that each
step either changes interfaces and nothing else, or is a step of `router` over
the interfaces there then are; what is known of the steps of `router` carries
over to runs of the client that way.
-/
open Memory CProg Runs Stream Struct

namespace SimpleRouter

inductive ClientEvent where
  /-- A call of `sr_read_from_server_expect` on a socket. -/
  | serve (env : ServerEnv) (expected : UInt32) (sock : Sock)
  /-- One pass of the sweeper. -/
  | sweep (env : SweepEnv)

/-- What the `n`th event leads to and does. -/
def clientStep (n : Nat) (sr : SrInstance) : ClientEvent → SrInstance × List Act
  | .serve env expected sock =>
    let call := srReadFromServerExpect { env with seq := n } expected sock sr
    (call.st, call.acts)
  | .sweep env => ((srArpcacheTimeout env sr).st, (srArpcacheTimeout env sr).acts)

/-- The client with routes `rts`, before the server has told it its interfaces. -/
def client (rts : List SrRt) : System SrInstance ClientEvent Act where
  init := .init [] rts
  step := clientStep

/-! ## What a step can do -/

/-- Reading a command only computes, whatever the socket gives. -/
theorem receive_computes (past : Mem) (sock : Sock) : ∃ received, Computes (receive past sock) received := by
  obtain ⟨word, hword⟩ := @fill_computes SrInstance Act 0 4 ⟨4, past⟩ 0 sock
  unfold receive
  cases word with
  | waiting => exact ⟨_, hword.bind (.pure _)⟩
  | failed => exact ⟨_, hword.bind (.pure _)⟩
  | done word rest =>
    by_cases hlen : 10000 < (swap32 (word.mem.u32 0)).toNat
    · refine ⟨.refused, hword.bind (Computes.bind (.load32 _ _) ?_)⟩
      rw [if_pos hlen]
      exact .pure _
    · obtain ⟨body, hbody⟩ := @fill_computes SrInstance Act 4 ((swap32 (word.mem.u32 0)).toNat - 4)
        (Buf.store ⟨(swap32 (word.mem.u32 0)).toNat, past⟩ 0 (le32 (swap32 (swap32 (word.mem.u32 0))))) 0 rest
      cases body with
      | waiting =>
        refine ⟨.waiting, hword.bind (Computes.bind (.load32 _ _) ?_)⟩
        rw [if_neg hlen]
        exact Computes.bind (.store32 _ _ _) (hbody.bind (.pure _))
      | failed =>
        refine ⟨.refused, hword.bind (Computes.bind (.load32 _ _) ?_)⟩
        rw [if_neg hlen]
        exact Computes.bind (.store32 _ _ _) (hbody.bind (.pure _))
      | done b rest =>
        refine ⟨.command (swap32 (b.mem.u32 4)) (swap32 (word.mem.u32 0)) (b.store 4 (le32 (swap32 (b.mem.u32 4)))) rest,
          hword.bind (Computes.bind (.load32 _ _) ?_)⟩
        rw [if_neg hlen]
        -- the type is swapped in place, and nothing else happens to the buffer
        exact Computes.bind (.store32 _ _ _)
          (hbody.bind (Computes.bind (.load32 _ _) (Computes.bind (.store32 _ _ _) (.pure _))))

/-- A frame is one the filter of the parser has let through. -/
def Event.Filtered (ifs : List SrIf) : Event → Prop
  | .frame bytes past _ interface _ => arpFilter ifs interface (.ofBytes bytes past) = some false
  | .sweep _ => True

section Steps
variable (n : Nat) (sr : SrInstance)

/-- What a step of the client can lead to and do. -/
inductive ClientStepsTo : SrInstance → List Act → Prop where
  | hardware {sr' acts} (h : OnlyInterfaces sr sr') (ha : ∀ a ∈ acts, a = .fault .assertion) : ClientStepsTo sr' acts
  | routed {e : Event} (h : e.Filtered sr.ifList) : ClientStepsTo (stepRes n sr e).st (stepRes n sr e).acts

variable {sr}

/-- What a call does once a command has been read. -/
theorem finish_cases (env : ServerEnv) (hn : env.seq = n) (expected command len : UInt32) (b : Buf) :
    ClientStepsTo n sr
      (finish env (dispatch env expected command len b sr).val (dispatch env expected command len b sr).st).st
      ((dispatch env expected command len b sr).acts ++
        (finish env (dispatch env expected command len b sr).val (dispatch env expected command len b sr).st).acts) := by
  obtain ⟨hst, hacts⟩ := dispatch_handles env expected command len b sr
  cases hd : (dispatch env expected command len b sr).val with
  | ret v => exact .hardware hst (by simpa [finish] using hacts)
  | stopped => exact .hardware hst (by simpa [finish] using hacts)
  | frame packet interface =>
    -- the packet as an event: its bytes, and what the parser leaves behind them
    obtain ⟨-, -, -, hfilter, hst, hacts⟩ := dispatch_frame hd
    have hpacket : Buf.ofBytes packet.bytes packet.mem = packet := Buf.ofBytes_bytes packet
    have he : Event.Filtered sr.ifList (.frame packet.bytes packet.mem env.heap interface env.now) := by
      rw [Event.Filtered, hpacket]
      exact hfilter
    have henv : env.toEnv = ⟨n, env.now, env.heap⟩ := hn ▸ rfl
    have hstep : stepRes n sr (.frame packet.bytes packet.mem env.heap interface env.now) =
        srHandlepacket env.toEnv packet interface sr := by rw [stepRes, hpacket, henv]
    have hs := @ClientStepsTo.routed n sr _ he
    rw [hstep] at hs
    rw [hst, hacts]
    simpa [finish] using hs

theorem serve_cases (env : ServerEnv) (hn : env.seq = n) (expected : UInt32) (sock : Sock) :
    ClientStepsTo n sr (srReadFromServerExpect env expected sock sr).st
      (srReadFromServerExpect env expected sock sr).acts := by
  obtain ⟨received, hr⟩ := receive_computes env.past sock
  unfold srReadFromServerExpect parse
  simp only [bind_val, bind_st, bind_acts, hr.val, hr.st, hr.acts, List.nil_append]
  cases received with
  | waiting => exact .hardware (.refl sr) fun a ha => absurd ha List.not_mem_nil
  | refused => exact .hardware (.refl sr) fun a ha => absurd ha List.not_mem_nil
  | command command len b rest => simpa using finish_cases n env hn expected command len b

/-- Every step changes interfaces only, or is one of `router`. -/
theorem client_cases (sr : SrInstance) (e : ClientEvent) :
    ClientStepsTo n sr (clientStep n sr e).1 (clientStep n sr e).2 := by
  cases e with
  | serve env expected sock => exact serve_cases n { env with seq := n } rfl expected sock
  | sweep env => exact @ClientStepsTo.routed n sr (.sweep env) trivial

end Steps

/-! ## What holds in every reachable state -/

theorem srGetInterface_isSome {ifs : List SrIf} {name : IfName} :
    (∃ i, srGetInterface ifs name = some i) ↔ name ∈ ifs.map (·.name) := by
  rw [← Option.isSome_iff_exists, srGetInterface, List.find?_isSome]
  simp [List.mem_map]

/-- An interface is found again as long as the names are kept. -/
theorem OnlyInterfaces.getInterface {s s' : SrInstance} (h : OnlyInterfaces s s') {name : IfName}
    (hi : ∃ i, srGetInterface s.ifList name = some i) : ∃ i, srGetInterface s'.ifList name = some i :=
  srGetInterface_isSome.2 (h.names.subset (srGetInterface_isSome.1 hi))

theorem OnlyInterfaces.wf {rts : List SrRt} {n : Nat} {s s' : SrInstance} (h : OnlyInterfaces s s')
    (hw : Wf s.ifList rts n s) : Wf s'.ifList rts n s' where
  ifList := rfl
  routes := h.routes.trans hw.routes
  ptr := h.cache ▸ hw.ptr
  old := h.cache ▸ hw.old
  ip := h.cache ▸ hw.ip
  nonempty := h.cache ▸ hw.nonempty
  packet r hr pkt hp := by
    rw [h.cache] at hr
    obtain ⟨hi, h14⟩ := hw.packet r hr pkt hp
    exact ⟨h.getInterface hi, h14⟩
  apart := h.cache ▸ hw.apart

/-- The state after `n` events of the client with routes `rts`. -/
structure ClientWf (rts : List SrRt) (n : Nat) (sr : SrInstance) : Prop where
  wf : Wf sr.ifList rts n sr
  counted : Counted sr

theorem ClientStepsTo.wf {rts : List SrRt} {n : Nat} {sr sr' : SrInstance} {acts : List Act} (hw : ClientWf rts n sr)
    (h : ClientStepsTo n sr sr' acts) : ClientWf rts (n + 1) sr' := by
  cases h with
  | hardware h =>
    refine ⟨(h.wf hw.wf).mono, ?_⟩
    rw [Counted, h.cache]
    exact hw.counted
  | @routed e =>
    have hs := step_cases hw.wf hw.counted e
    have hw' := hs.wf hw.wf
    refine ⟨?_, hs.counted hw.counted⟩
    rw [hw'.ifList]
    exact hw'

/-- Interfaces keep their names and their order, and new ones come behind them. -/
theorem ClientStepsTo.names {rts : List SrRt} {n : Nat} {sr sr' : SrInstance} {acts : List Act}
    (hw : ClientWf rts n sr) (h : ClientStepsTo n sr sr' acts) :
    sr.ifList.map (·.name) <+: sr'.ifList.map (·.name) := by
  cases h with
  | hardware h => exact h.names
  | @routed e =>
    have hw' := (step_cases hw.wf hw.counted e).wf hw.wf
    exact ⟨[], by rw [hw'.ifList, List.append_nil]⟩

section Runs
variable (rts : List SrRt)

theorem client_reachable (es : List ClientEvent) : ClientWf rts es.length ((client rts).state es) := by
  refine (client rts).induct (I := fun es sr _ => ClientWf rts es.length sr) ?_ ?_ es
  · exact ⟨init_wf [] rts, by intro r hr; cases hr⟩
  · intro es e hw
    rw [List.length_append]
    exact (client_cases es.length _ e).wf hw

/-- Along a run interfaces keep their names. -/
theorem client_names (es fs : List ClientEvent) :
    ((client rts).state es).ifList.map (·.name) <+: ((client rts).state (es ++ fs)).ifList.map (·.name) := by
  induction fs using List.reverseRecOn with
  | nil => exact ⟨[], by rw [List.append_nil, List.append_nil]⟩
  | append_singleton fs f ih =>
    rw [← List.append_assoc, System.state_snoc]
    exact ih.trans ((client_cases _ _ f).names (client_reachable rts (es ++ fs)))

end Runs

/-! ## A verified table -/

/-- The interfaces named by the routes and by the packets that wait all exist. -/
structure InterfacesKnown (sr : SrInstance) : Prop where
  route : ∀ rt ∈ sr.routingTable, ∃ i, srGetInterface sr.ifList rt.interface = some i
  waiting : ∀ r ∈ sr.cache.requests, ∀ pkt ∈ r.packets, ∃ i, srGetInterface sr.ifList pkt.iface = some i

/-- No function that looks an interface up by such a name goes on without it:
each does what it does only if the interface is found. -/
structure FindsInterfaces (sr : SrInstance) : Prop where
  /-- A packet with a route is sent or queued. -/
  forward : ∀ env packet rt, 14 ≤ packet.size → ¬ packet.mem 22 ≤ 1 →
    lpmLookup sr.routingTable (packet.mem.u32 30) = some rt →
    (forwardIpPacket env packet sr).acts ≠ [] ∨ (forwardIpPacket env packet sr).val ≠ none
  /-- An error with a route is built. -/
  icmpT3 : ∀ env packet type code rt, lpmLookup sr.routingTable (packet.mem.u32 26) = some rt →
    ∃ frame, .build (.direct (.icmpError env.seq)) frame ∈ (sendIcmpT3 env packet type code sr).acts
  /-- A request is asked for again, whatever the sweep has done to the cache by then. -/
  arpRequest : ∀ env now cache, ∀ r ∈ sr.cache.requests, ∃ iface frame,
    (sendArpRequestForReq env now r { sr with cache := cache }).acts = [.send (.arpRequest r.ptr now) iface frame]
  /-- An error about a packet that waits is built, and sent if the way back is known. -/
  hostUnreachable : ∀ env cache, ∀ r ∈ sr.cache.requests, ∀ pkt ∈ r.packets,
    (∃ frame, .build (.hostUnreachable pkt.origin r.ptr) frame ∈
      (hostUnreachable env r.ptr pkt { sr with cache := cache }).acts) ∧
    ∀ best e, lpmLookup sr.routingTable ((Buf.ofBytes pkt.buf (env.past pkt.origin.seq)).mem.u32 26) = some best →
      srArpcacheLookup cache (nextHop best ((Buf.ofBytes pkt.buf (env.past pkt.origin.seq)).mem.u32 26)) = some e →
      ∃ iface frame, .send (.hostUnreachable pkt.origin r.ptr) iface frame ∈
        (hostUnreachable env r.ptr pkt { sr with cache := cache }).acts
  /-- The flush loop dereferences no missing interface. -/
  flush : ∀ env packet interface, ∀ a ∈ (handleArpPacket env packet interface sr).acts, ∀ why, a ≠ .fault why

section Finds
variable {rts : List SrRt} {n : Nat} {sr : SrInstance}

/-- Carrying out an output shows: it is sent, or its miss is returned. -/
theorem Follows.output {env : Env} {r : Res SrInstance Act (Option Miss)} {built : List Act} {d : Delivery}
    (h : Follows env sr r (.output built d)) : (∀ a ∈ built, a ∈ r.acts) ∧ (r.acts ≠ [] ∨ r.val ≠ none) := by
  have hacts := h.acts
  have hval := h.val
  simp only [Plan.acts] at hacts
  simp only [Plan.miss] at hval
  cases he : srArpcacheLookup sr.cache d.nextHop with
  | some e =>
    simp only [he] at hacts
    rw [hacts]
    exact ⟨fun a ha => List.mem_append_left _ ha, .inl (List.append_ne_nil_of_right_ne_nil _ (List.cons_ne_nil _ _))⟩
  | none =>
    simp only [he] at hacts hval
    rw [hacts, hval]
    exact ⟨fun a ha => ha, .inr (Option.some_ne_none _)⟩

theorem InterfacesKnown.forward (h : InterfacesKnown sr) (env : Env) {packet : Buf} {rt : SrRt} (h14 : 14 ≤ packet.size)
    (httl : ¬ packet.mem 22 ≤ 1) (hrt : lpmLookup sr.routingTable (packet.mem.u32 30) = some rt) :
    (forwardIpPacket env packet sr).acts ≠ [] ∨ (forwardIpPacket env packet sr).val ≠ none := by
  obtain ⟨i, hi⟩ := h.route rt (lpmLookup_mem hrt)
  have hf := forwardIpPacket_follows env packet h14 sr
  have hplan : planForward sr.ifList sr.routingTable env packet =
      .output [] ⟨.forwarded env.seq, nextHop rt (packet.mem.u32 30), i, (forwardBuf packet).bytes⟩ := by
    simp only [planForward, if_neg httl, hrt, hi]
  rw [hplan] at hf
  exact hf.output.2

theorem InterfacesKnown.icmpT3 (h : InterfacesKnown sr) (env : Env) {packet : Buf} (type code : UInt8) {rt : SrRt}
    (hrt : lpmLookup sr.routingTable (packet.mem.u32 26) = some rt) :
    ∃ frame, .build (.direct (.icmpError env.seq)) frame ∈ (sendIcmpT3 env packet type code sr).acts := by
  obtain ⟨i, hi⟩ := h.route rt (lpmLookup_mem hrt)
  have hf := sendIcmpT3_follows env packet type code sr
  simp only [planError, hrt, hi] at hf
  exact ⟨_, hf.output.1 _ List.mem_cons_self⟩

theorem InterfacesKnown.arpRequest (h : InterfacesKnown sr) (env : SweepEnv) (now : Int) (cache : SrArpcache)
    {r : SrArpreq} (hr : r ∈ sr.cache.requests) (hne : r.packets ≠ []) : ∃ iface frame,
    (sendArpRequestForReq env now r { sr with cache := cache }).acts =
      [.send (.arpRequest r.ptr now) iface frame] := by
  obtain ⟨pkt, pkts, hp⟩ := List.exists_cons_of_ne_nil hne
  obtain ⟨i, hi⟩ := h.waiting r hr pkt (by simp [hp])
  rw [(sendArpRequestForReq_does env now r _).2]
  simp only [retryActs, hp, hi]
  exact ⟨_, _, rfl⟩

theorem InterfacesKnown.hostUnreachable (h : InterfacesKnown sr) (env : SweepEnv) (cache : SrArpcache) {r : SrArpreq}
    (hr : r ∈ sr.cache.requests) {pkt : SrPacket} (hpkt : pkt ∈ r.packets) :
    (∃ frame, .build (.hostUnreachable pkt.origin r.ptr) frame ∈
      (hostUnreachable env r.ptr pkt { sr with cache := cache }).acts) ∧
    ∀ best e, lpmLookup sr.routingTable ((Buf.ofBytes pkt.buf (env.past pkt.origin.seq)).mem.u32 26) = some best →
      srArpcacheLookup cache (nextHop best ((Buf.ofBytes pkt.buf (env.past pkt.origin.seq)).mem.u32 26)) = some e →
      ∃ iface frame, .send (.hostUnreachable pkt.origin r.ptr) iface frame ∈
        (hostUnreachable env r.ptr pkt { sr with cache := cache }).acts := by
  obtain ⟨i, hi⟩ := h.waiting r hr pkt hpkt
  rw [(hostUnreachable_does env r.ptr pkt _).2]
  simp only [unreachActs, hi]
  refine ⟨⟨_, List.mem_cons_self⟩, ?_⟩
  intro best e hbest he
  obtain ⟨j, hj⟩ := h.route best (lpmLookup_mem hbest)
  rw [srArpcacheLookup] at he
  simp only [unreachSend, hbest, hj, he]
  exact ⟨_, _, List.mem_cons_of_mem _ List.mem_cons_self⟩

theorem planArp_faultless (ifs : List SrIf) (env : Env) (packet : Buf) (interface : IfName) (why : Fault) :
    .fault why ∉ (planArp ifs env packet interface).acts sr := by
  unfold planArp
  split
  · exact List.not_mem_nil
  · split
    · cases srGetInterfaceByIp ifs (packet.mem.u32 38) with
      | none => exact List.not_mem_nil
      | some i =>
        intro ha
        rcases sendActs_cases sr.ifList _ interface _ with h | h <;> rw [Plan.acts, h] at ha <;>
          cases List.mem_singleton.1 ha
    · split
      · intro ha
        simp only [Plan.acts] at ha
        cases hr : findReq (arSip packet.mem) sr.cache.requests with
        | none => simp [hr] at ha
        | some r =>
          obtain ⟨pkt, -, i, -, he⟩ := mem_flushActs (by simpa [hr] using ha)
          cases he
      · exact List.not_mem_nil

theorem InterfacesKnown.finds (h : InterfacesKnown sr) (hw : ClientWf rts n sr) : FindsInterfaces sr where
  forward env packet rt h14 httl hrt := h.forward env h14 httl hrt
  icmpT3 env packet type code rt hrt := h.icmpT3 env type code hrt
  arpRequest env now cache r hr := h.arpRequest env now cache hr (hw.wf.nonempty r hr)
  hostUnreachable env cache r hr pkt hpkt := h.hostUnreachable env cache hr hpkt
  flush env packet interface a ha why he := by
    rw [(handleArpPacket_does env packet interface sr fun _ => hw.wf.queueOk).acts, he] at ha
    exact planArp_faultless sr.ifList env packet interface why ha

end Finds

/-- Once the routing table has passed verification, every interface that a route
or a waiting packet names exists for good, whatever comes from the server, and no
lookup of one fails. -/
theorem verified_interfaces (rts : List SrRt) (es : List ClientEvent)
    (hv : srVerifyRoutingTable ((client rts).state es).ifList ((client rts).state es).routingTable = 0)
    (fs : List ClientEvent) :
    InterfacesKnown ((client rts).state (es ++ fs)) ∧ FindsInterfaces ((client rts).state (es ++ fs)) := by
  have hw := client_reachable rts es
  have hw' := client_reachable rts (es ++ fs)
  have hknown : InterfacesKnown ((client rts).state (es ++ fs)) := by
    constructor
    · intro rt hrt
      -- the routes are those that were verified, and no name has been lost since
      rw [hw'.wf.routes, ← hw.wf.routes] at hrt
      have hi := srGetInterface_isSome.1 (verified_interface hv hrt)
      exact srGetInterface_isSome.2 ((client_names rts es fs).subset hi)
    · -- a packet is only queued for an interface that was found
      intro r hr pkt hpkt
      exact (hw'.wf.packet r hr pkt hpkt).1
  exact ⟨hknown, hknown.finds hw'⟩

namespace Sample

/-- The hardware information about `e1` and `e2`. -/
def hwinfo : Command where
  type := vnsHwinfo
  body := ifs.flatMap fun i => VNSInterface.record 1 i.name.chars ++ VNSInterface.record 64 (le32 i.ip) ++
    VNSInterface.record 32 i.addr.bytes
  size_le := by decide +kernel

/-- A packet for 10.0.1.7 that comes in on `e1`. -/
def pinged : Command := ⟨vnsPacket, pad 16 e1.chars ++ ping [10, 0, 1, 7], by decide⟩

def served (c : Command) : ClientEvent := .serve serverEnv 0 [.bytes c.bytes]

/-- A sweep one second later. -/
def swept : ClientEvent := .sweep ⟨fun _ => 1, fun _ _ => 0, fun _ => 0⟩

end Sample

open Sample in
/-- The table passes once both interfaces are known; then a packet waits, and a sweep asks for it again. -/
theorem verified_interfaces_swept :
    InterfacesKnown ((client rts).state ([served hwinfo] ++ [served pinged, swept])) ∧
    FindsInterfaces ((client rts).state ([served hwinfo] ++ [served pinged, swept])) :=
  verified_interfaces rts [served hwinfo] (by decide +kernel) [served pinged, swept]

end SimpleRouter
