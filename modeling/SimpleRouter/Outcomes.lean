import SimpleRouter.Frames
/-!
# What handling a frame comes to

`plan` sums up `Router.lean`: what a frame asks of the router depends on the
frame, the interfaces and the routes alone, and is one of five things. Only
`learn` and `output` meet the ARP cache and its queue. `handleUntilMiss_spec`
and `srHandlepacket_spec` say that the code does what its plan says, so the
theorems about runs are case analyses over five shapes.
-/
open Memory CProg

namespace SimpleRouter

/-! ## Plans -/

/-- An IP packet ready to leave through `iface` for `nextHop`. The Ethernet
header at the front of `frame` is still to be filled in. -/
structure Delivery where
  origin : Origin
  nextHop : UInt32
  iface : SrIf
  frame : List UInt8
deriving DecidableEq

inductive Plan where
  /-- The frame is dropped. -/
  | quiet
  /-- A missing interface is dereferenced. -/
  | crash
  | transmit (site : Site) (iface : IfName) (frame : List UInt8)
  /-- An ARP reply: `ip` is at `mac`. -/
  | learn (mac : Mac) (ip : UInt32)
  | output (built : List Act) (d : Delivery)

section Plans
variable (ifs : List SrIf) (rts : List SrRt) (env : Env)

/-- The plan of `send_icmp_t3`. -/
def planError (packet : Buf) (type code : UInt8) : Plan :=
  match lpmLookup rts (packet.mem.u32 26) with
  | none => .quiet
  | some rt =>
    match srGetInterface ifs rt.interface with
    | none => .quiet
    | some i =>
      let b := t3Buf packet env.heap i.ip type code
      .output [.build (.direct (.icmpError env.seq)) b.bytes]
        ⟨.icmpError env.seq, nextHop rt (packet.mem.u32 26), i, b.bytes⟩

/-- The plan of `forward_ip_packet`. -/
def planForward (packet : Buf) : Plan :=
  if packet.mem 22 ≤ 1 then planError ifs rts env packet 11 0
  else match lpmLookup rts (packet.mem.u32 30) with
    | none => planError ifs rts env (forwardBuf packet) 3 0
    | some rt =>
      match srGetInterface ifs rt.interface with
      | none => .quiet
      | some i => .output [] ⟨.forwarded env.seq, nextHop rt (packet.mem.u32 30), i, (forwardBuf packet).bytes⟩

/-- The plan of `send_icmp_echo_reply`. -/
def planEcho (packet : Buf) (interface : IfName) : Plan :=
  match srGetInterface ifs interface with
  | none => .crash
  | some i => .transmit (.echoReply env.seq) interface (echoBuf packet env.heap i).bytes

/-- The plan of `handle_ip_packet`. -/
def planIp (packet : Buf) (interface : IfName) : Plan :=
  if packet.size < 34 then .quiet
  else if (srGetInterfaceByIp ifs (packet.mem.u32 30)).isSome then
    if packet.mem 23 = ipProtocolIcmp then
      if packet.mem 34 = 8 then planEcho ifs env packet interface else .quiet
    else planError ifs rts env packet 3 3
  else planForward ifs rts env packet

/-- The plan of `handle_arp_packet`. -/
def planArp (packet : Buf) (interface : IfName) : Plan :=
  if packet.size < 42 then .quiet
  else if arOp packet.mem = arpOpRequest then
    match srGetInterfaceByIp ifs (packet.mem.u32 38) with
    | none => .quiet
    | some i => .transmit (.arpReply env.seq) interface
        (arpBuf ⟨ethLen + arpLen, env.heap⟩ i (.ofMem packet.mem 6) arpOpReply (.ofMem packet.mem 22)
          (packet.mem.u32 28)).bytes
  else if arOp packet.mem = arpOpReply then .learn (arSha packet.mem) (arSip packet.mem)
  else .quiet

/-- The plan of `sr_handlepacket`. -/
def plan (packet : Buf) (interface : IfName) : Plan :=
  if packet.size < 14 then .quiet
  else if etherType packet.mem = ethertypeArp then planArp ifs env packet interface
  else if etherType packet.mem = ethertypeIp then planIp ifs rts env packet interface
  else .quiet

variable {bytes : List UInt8} (past : Mem) (interface : IfName)

/-- An IP frame is handled as one. -/
theorem plan_ip (ht : etherType (memOf bytes) = ethertypeIp) (h14 : 14 ≤ bytes.length) :
    plan ifs rts env (.ofBytes bytes past) interface = planIp ifs rts env (.ofBytes bytes past) interface := by
  have hne : ¬ ethertypeIp = ethertypeArp := by decide
  rw [plan, if_neg (by rw [Buf.size_ofBytes]; omega), etherType_ofBytes h14, ht, if_neg hne, if_pos rfl]

/-- What is decided by the bytes of the IP header. -/
theorem planIp_bytes (h34 : 34 ≤ bytes.length) : planIp ifs rts env (.ofBytes bytes past) interface =
    if (srGetInterfaceByIp ifs (ipDst (memOf bytes))).isSome then
      if ipP (memOf bytes) = ipProtocolIcmp then
        if (Buf.ofBytes bytes past).mem 34 = 8 then planEcho ifs env (.ofBytes bytes past) interface else .quiet
      else planError ifs rts env (.ofBytes bytes past) 3 3
    else planForward ifs rts env (.ofBytes bytes past) := by
  have hdst : (Buf.ofBytes bytes past).mem.u32 30 = ipDst (memOf bytes) := ofBytes_u32 (by omega)
  have hproto : (Buf.ofBytes bytes past).mem 23 = ipP (memOf bytes) := ofBytes_mem (by omega)
  rw [planIp, if_neg (by rw [Buf.size_ofBytes]; omega), hdst, hproto]

end Plans

/-! ## Carrying out a plan -/

/-- The packet put in the queue for a delivery. -/
def Delivery.packet (d : Delivery) : SrPacket := ⟨setEth none d.iface.addr d.frame, d.iface.name, d.origin⟩

/-- The frame sent for a delivery once the next hop's address is known. -/
def Delivery.sent (d : Delivery) (mac : Mac) : List UInt8 := setEth (some mac) d.iface.addr d.frame

/-- The transmissions of the flush loop. -/
def flushActs (ifs : List SrIf) (mac : Mac) (pkts : List SrPacket) : List Act :=
  pkts.flatMap fun pkt => match srGetInterface ifs pkt.iface with
    | none => []
    | some i => [.send (.flushed pkt.origin) pkt.iface (setEth (some mac) i.addr pkt.buf)]

theorem mem_flushActs {ifs : List SrIf} {mac : Mac} {pkts : List SrPacket} {a : Act}
    (h : a ∈ flushActs ifs mac pkts) : ∃ pkt ∈ pkts, ∃ i, srGetInterface ifs pkt.iface = some i ∧
      a = .send (.flushed pkt.origin) pkt.iface (setEth (some mac) i.addr pkt.buf) := by
  obtain ⟨pkt, hpkt, ha⟩ := List.mem_flatMap.1 h
  cases hi : srGetInterface ifs pkt.iface with
  | none => simp [hi] at ha
  | some i => exact ⟨pkt, hpkt, i, hi, by simpa [hi] using ha⟩

namespace Plan

/-- The miss a plan leads to, in step `n`. -/
def miss (n : Nat) (sr : SrInstance) : Plan → Option Miss
  | output _ d =>
    match srArpcacheLookup sr.cache d.nextHop with
    | some _ => none
    | none => some ⟨(srArpcacheQueuereq n sr.cache d.nextHop d.packet).2, d.nextHop, d.iface.name⟩
  | _ => none

/-- The state a plan leads to, up to the queueing of a miss. -/
def untilMiss (n : Nat) (now : Int) (sr : SrInstance) : Plan → SrInstance
  | learn mac ip => { sr with cache := (srArpcacheInsert now sr.cache mac ip).1 }
  | output _ d =>
    match srArpcacheLookup sr.cache d.nextHop with
    | some _ => sr
    | none => { sr with cache := (srArpcacheQueuereq n sr.cache d.nextHop d.packet).1 }
  | _ => sr

/-- What a plan does, up to the queueing of a miss. -/
def acts (sr : SrInstance) : Plan → List Act
  | quiet => []
  | crash => [.fault .nullDeref]
  | transmit site iface frame => sendActs sr.ifList site iface frame
  | learn mac ip =>
    match findReq ip sr.cache.requests with
    | none => []
    | some r => flushActs sr.ifList mac r.packets
  | output built d =>
    match srArpcacheLookup sr.cache d.nextHop with
    | some e => built ++ [.send (.direct d.origin) d.iface.name (d.sent e.mac)]
    | none => built

end Plan

/-! ## The code follows its plan -/

/-- `r` does what `p` says, up to the queueing of a miss. -/
structure Does {α : Type} (env : Env) (sr : SrInstance) (r : Res SrInstance Act α) (p : Plan) : Prop where
  st : r.st = p.untilMiss env.seq env.now sr
  acts : r.acts = p.acts sr

/-- `r` also returns the miss `p` leads to. -/
structure Follows (env : Env) (sr : SrInstance) (r : Res SrInstance Act (Option Miss)) (p : Plan) : Prop
    extends Does env sr r p where
  val : r.val = p.miss env.seq sr

/-- A computation before a program changes nothing of what it does. -/
theorem Does.bind {α β : Type} {env : Env} {sr : SrInstance} {x : RouterM α} {v : α} {f : α → RouterM β}
    {p : Plan} (hx : Computes x v) (hf : Does env sr (f v sr) p) : Does env sr ((x >>= f) sr) p := by
  obtain ⟨h1, h2, h3⟩ := hx sr
  refine ⟨?_, ?_⟩
  · rw [bind_st, h1, h2, hf.st]
  · rw [bind_acts, h1, h2, h3, hf.acts, List.nil_append]

theorem Follows.bind {α : Type} {env : Env} {sr : SrInstance} {x : RouterM α} {v : α} {f : α → RouterM (Option Miss)}
    {p : Plan} (hx : Computes x v) (hf : Follows env sr (f v sr) p) : Follows env sr ((x >>= f) sr) p := by
  refine ⟨.bind hx hf.toDoes, ?_⟩
  obtain ⟨h1, h2, -⟩ := hx sr
  rw [bind_val, h1, h2, hf.val]

theorem Follows.get {env : Env} {sr : SrInstance} {f : SrInstance → RouterM (Option Miss)} {p : Plan}
    (hf : Follows env sr (f sr sr) p) : Follows env sr ((MonadState.get >>= f) sr) p :=
  ⟨⟨hf.st, hf.acts⟩, hf.val⟩

theorem Does.get {β : Type} {env : Env} {sr : SrInstance} {f : SrInstance → RouterM β} {p : Plan}
    (hf : Does env sr (f sr sr) p) : Does env sr ((MonadState.get >>= f) sr) p := ⟨hf.st, hf.acts⟩

theorem Follows.quiet (env : Env) (sr : SrInstance) : Follows env sr ((pure none : RouterM (Option Miss)) sr) .quiet :=
  ⟨⟨rfl, rfl⟩, rfl⟩

/-- A handler that queues nothing. -/
theorem Does.follows {env : Env} {sr : SrInstance} {x : RouterM Unit} {p : Plan} (h : Does env sr (x sr) p)
    (hp : p.miss env.seq sr = none) : Follows env sr ((x >>= fun _ => pure none) sr) p := by
  refine ⟨⟨?_, ?_⟩, hp.symm⟩
  · rw [bind_st, pure_apply, h.st]
  · rw [bind_acts, pure_apply, List.append_nil, h.acts]

theorem t3Buf_computes (packet : Buf) (heap : Mem) (src : UInt32) (type code : UInt8) :
    Computes (fillIcmpError (fun b => do
      let hl ← loadIpHl b
      htonsIpChecksum b 14 (hl * 4)) (fun b => htonsIpChecksum b 34 icmpT3Len) packet
      (.zeroed (ethLen + ipLen + icmpT3Len) heap) src type code) (t3Buf packet heap src type code) := by
  have hf : ∀ b, Computes (do
      let hl ← loadIpHl b
      htonsIpChecksum b 14 (hl * 4) : RouterM UInt16) (ipSumT3 b) := fun b s => ⟨rfl, rfl, rfl⟩
  have hg : ∀ b, Computes (htonsIpChecksum b 34 icmpT3Len) (swap16 (ipChecksum b.mem 34 icmpT3Len)) :=
    fun b s => ⟨rfl, rfl, rfl⟩
  exact fillIcmpError_computes hf hg _ _ _ _ _

theorem queuereq_val (env : Env) (ip : UInt32) (b : Buf) (name : IfName) (o : Origin) (sr : SrInstance) :
    (queuereq env ip b name o sr).val = (srArpcacheQueuereq env.seq sr.cache ip ⟨b.bytes, name, o⟩).2 := rfl

theorem queuereq_st (env : Env) (ip : UInt32) (b : Buf) (name : IfName) (o : Origin) (sr : SrInstance) :
    (queuereq env ip b name o sr).st =
      { sr with cache := (srArpcacheQueuereq env.seq sr.cache ip ⟨b.bytes, name, o⟩).1 } := rfl

theorem queuereq_acts (env : Env) (ip : UInt32) (b : Buf) (name : IfName) (o : Origin) (sr : SrInstance) :
    (queuereq env ip b name o sr).acts = [] := rfl

theorem sendIcmpT3_follows (env : Env) (packet : Buf) (type code : UInt8) (sr : SrInstance) :
    Follows env sr (sendIcmpT3 env packet type code sr) (planError sr.ifList sr.routingTable env packet type code) := by
  unfold sendIcmpT3 planError
  refine .bind (v := packet.mem.u32 26) (fun _ => ⟨rfl, rfl, rfl⟩) (.get ?_)
  cases hrt : lpmLookup sr.routingTable (packet.mem.u32 26) with
  | none => exact .quiet env sr
  | some rt =>
    cases hi : srGetInterface sr.ifList rt.interface with
    | none => simpa only [hi] using Follows.quiet env sr
    | some i =>
      simp only [hi]
      refine .bind (t3Buf_computes packet env.heap i.ip type code) ?_
      have h14 : 14 ≤ (t3Buf packet env.heap i.ip type code).size := by simp
      cases he : srArpcacheLookup sr.cache (nextHop rt (packet.mem.u32 26)) with
      | some e =>
        refine ⟨⟨?_, ?_⟩, ?_⟩
        · simp [he, Plan.untilMiss]
        · simp [he, Plan.acts, srSendPacket_acts, bytes_ethBuf _ _ _ h14, Delivery.sent,
            sendActs_setEth _ (srGetInterface_name hi)]
        · simp [he, Plan.miss]
      | none =>
        refine ⟨⟨?_, ?_⟩, ?_⟩
        · simp [he, Plan.untilMiss, queuereq_st, bytes_ethBuf _ _ _ h14, Delivery.packet]
        · simp [he, Plan.acts, queuereq_acts]
        · simp [he, Plan.miss, queuereq_val, bytes_ethBuf _ _ _ h14, Delivery.packet]

theorem forwardIpPacket_follows (env : Env) (packet : Buf) (h : 14 ≤ packet.size) (sr : SrInstance) :
    Follows env sr (forwardIpPacket env packet sr) (planForward sr.ifList sr.routingTable env packet) := by
  unfold forwardIpPacket planForward
  refine .bind (v := packet.mem 22) (fun _ => ⟨rfl, rfl, rfl⟩) ?_
  by_cases httl : packet.mem 22 ≤ 1
  · simp only [ite_run, httl, if_true]
    exact sendIcmpT3_follows env packet 11 0 sr
  · simp only [ite_run, httl, if_false]
    refine .bind (fun _ => ⟨rfl, rfl, rfl⟩) (.bind (fun _ => ⟨rfl, rfl, rfl⟩) (.bind (fun _ => ⟨rfl, rfl, rfl⟩)
      (.bind (fun _ => ⟨rfl, rfl, rfl⟩) (.bind (v := forwardBuf packet) (fun _ => ⟨rfl, rfl, rfl⟩) ?_))))
    refine .bind (v := packet.mem.u32 30) (fun s => ⟨forwardBuf_u32 packet (by omega), rfl, rfl⟩) (.get ?_)
    cases hrt : lpmLookup sr.routingTable (packet.mem.u32 30) with
    | none => exact sendIcmpT3_follows env (forwardBuf packet) 3 0 sr
    | some rt =>
      cases hi : srGetInterface sr.ifList rt.interface with
      | none => simpa only [hi] using Follows.quiet env sr
      | some i =>
        have h14 : 14 ≤ (forwardBuf packet).size := by simpa using h
        have h14' : 14 ≤ ((forwardBuf packet).copy env.heap).size := by simpa using h
        cases he : srArpcacheLookup sr.cache (nextHop rt (packet.mem.u32 30)) with
        | some e =>
          refine ⟨⟨?_, ?_⟩, ?_⟩
          · simp [hi, he, Plan.untilMiss]
          · simp [hi, he, Plan.acts, srSendPacket_acts, bytes_ethBuf _ _ _ h14, Delivery.sent, h14,
              sendActs_setEth _ (srGetInterface_name hi), -size_forwardBuf]
          · simp [hi, he, Plan.miss]
        | none =>
          refine ⟨⟨?_, ?_⟩, ?_⟩
          · simp [hi, he, Plan.untilMiss, queuereq_st, bytes_ethBuf _ _ _ h14', Delivery.packet]
          · simp [hi, he, Plan.acts, queuereq_acts]
          · simp [hi, he, Plan.miss, queuereq_val, bytes_ethBuf _ _ _ h14', Delivery.packet]

theorem sendIcmpEchoReply_does (env : Env) (packet : Buf) (interface : IfName) (sr : SrInstance) :
    Does env sr (sendIcmpEchoReply env packet interface sr) (planEcho sr.ifList env packet interface) := by
  unfold sendIcmpEchoReply planEcho
  refine .bind (fun _ => ⟨rfl, rfl, rfl⟩) (.get ?_)
  cases hi : srGetInterface sr.ifList interface with
  | none => exact ⟨rfl, rfl⟩
  | some i =>
    simp only
    iterate 16 refine .bind (fun _ => ⟨rfl, rfl, rfl⟩) ?_
    refine .bind (v := echoBuf packet env.heap i) (fun _ => ⟨rfl, rfl, rfl⟩) ⟨?_, ?_⟩
    · exact srSendPacket_st _ _ _ _
    · exact srSendPacket_acts _ _ _ _

theorem handleIpPacket_follows (env : Env) (packet : Buf) (interface : IfName) (sr : SrInstance) :
    Follows env sr (handleIpPacket env packet interface sr)
      (planIp sr.ifList sr.routingTable env packet interface) := by
  unfold handleIpPacket planIp
  by_cases h34 : packet.size < 34
  · simp only [ethLen, ipLen, ite_run, h34, if_true]
    exact .quiet env sr
  · simp only [ethLen, ipLen, ite_run, h34, if_false]
    refine .bind (fun _ => ⟨rfl, rfl, rfl⟩) (.bind (v := packet.mem.u32 30) (fun _ => ⟨rfl, rfl, rfl⟩) (.get ?_))
    by_cases hus : (srGetInterfaceByIp sr.ifList (packet.mem.u32 30)).isSome
    · simp only [ite_run, hus, if_true]
      refine .bind (v := packet.mem 23) (fun _ => ⟨rfl, rfl, rfl⟩) ?_
      by_cases hp : packet.mem 23 = ipProtocolIcmp
      · simp only [ite_run, hp, if_true]
        refine .bind (v := packet.mem 34) (fun _ => ⟨rfl, rfl, rfl⟩) ?_
        by_cases ht : packet.mem 34 = 8
        · simp only [ite_run, ht, if_true]
          refine (sendIcmpEchoReply_does env packet interface sr).follows ?_
          unfold planEcho
          split <;> rfl
        · simp only [ite_run, ht, if_false]
          exact .quiet env sr
      · simp only [ite_run, hp, if_false]
        exact sendIcmpT3_follows env packet 3 3 sr
    · simp only [ite_run, hus]
      exact forwardIpPacket_follows env packet (by omega) sr

theorem sendArpReply_does (env : Env) (packet : Buf) (interface : IfName) (sr : SrInstance) :
    Does env sr (sendArpReply env packet interface sr)
      (match srGetInterfaceByIp sr.ifList (packet.mem.u32 38) with
        | none => .quiet
        | some i => .transmit (.arpReply env.seq) interface
          (arpBuf ⟨ethLen + arpLen, env.heap⟩ i (.ofMem packet.mem 6) arpOpReply (.ofMem packet.mem 22)
            (packet.mem.u32 28)).bytes) := by
  unfold sendArpReply
  refine .bind (v := packet.mem.u32 38) (fun _ => ⟨rfl, rfl, rfl⟩) (.get ?_)
  cases hi : srGetInterfaceByIp sr.ifList (packet.mem.u32 38) with
  | none => exact ⟨rfl, rfl⟩
  | some i =>
    simp only
    iterate 3 refine .bind (fun _ => ⟨rfl, rfl, rfl⟩) ?_
    refine .bind (fun _ => ⟨fillArp_val .., fillArp_st .., fillArp_acts ..⟩) ⟨?_, ?_⟩
    · exact srSendPacket_st _ _ _ _
    · exact srSendPacket_acts _ _ _ _

/-- Every queued packet names an interface and has room for an Ethernet header,
and no two requests share an address. -/
structure QueueOk (sr : SrInstance) : Prop where
  packet : ∀ r ∈ sr.cache.requests, ∀ pkt ∈ r.packets,
    (∃ i, srGetInterface sr.ifList pkt.iface = some i) ∧ 14 ≤ pkt.buf.length
  ptr : (sr.cache.requests.map (·.ptr)).Nodup

theorem flushLoop_spec (env : Env) (mac : Mac) (sr : SrInstance) (pkts : List SrPacket)
    (h : ∀ pkt ∈ pkts, (∃ i, srGetInterface sr.ifList pkt.iface = some i) ∧ 14 ≤ pkt.buf.length) :
    (flushLoop env mac pkts sr).st = sr ∧ (flushLoop env mac pkts sr).acts = flushActs sr.ifList mac pkts := by
  induction pkts with
  | nil => exact ⟨rfl, rfl⟩
  | cons pkt pkts ih =>
    obtain ⟨⟨i, hi⟩, h14⟩ := h pkt (by simp)
    obtain ⟨ih1, ih2⟩ := ih fun p hp => h p (by simp [hp])
    have hn : pkt.iface = i.name := (srGetInterface_some hi).2.symm
    have hb : (ethBuf (.ofBytes pkt.buf env.heap) (some mac) i.addr).bytes = setEth (some mac) i.addr pkt.buf := by
      rw [bytes_ethBuf _ _ _ (by simpa using h14), Buf.bytes_ofBytes]
    have hs : sendActs sr.ifList (.flushed pkt.origin) i.name (setEth (some mac) i.addr pkt.buf) =
        [.send (.flushed pkt.origin) i.name (setEth (some mac) i.addr pkt.buf)] :=
      sendActs_setEth (some mac) (srGetInterface_name hi) h14
    constructor
    · simp [flushLoop, hi, ih1]
    · simp [flushLoop, hi, ih2, srSendPacket_acts, hb, flushActs, hn ▸ hs]

/-- A request taken off the queue by its address is not found there again. -/
theorem destroy_erased {ip : UInt32} {c : SrArpcache} {r : SrArpreq} (h : findReq ip c.requests = some r)
    (hp : (c.requests.map (·.ptr)).Nodup) (now : Int) (mac : Mac) :
    srArpreqDestroy (srArpcacheInsert now c mac ip).1 r.ptr = (srArpcacheInsert now c mac ip).1 := by
  obtain ⟨as, bs, hreqs, -, he⟩ := findReq_split h
  have hrest : ∀ a ∈ as ++ bs, a.ptr ≠ r.ptr := ne_of_nodup_map (·.ptr) (hreqs ▸ hp)
  simp only [srArpreqDestroy, srArpcacheInsert, he]
  rw [List.eraseP_of_forall_not (by simpa using hrest)]

/-- Only a reply depends on the queue. -/
theorem handleArpPacket_does (env : Env) (packet : Buf) (interface : IfName) (sr : SrInstance)
    (hq : arOp packet.mem = arpOpReply → QueueOk sr) :
    Does env sr (handleArpPacket env packet interface sr) (planArp sr.ifList env packet interface) := by
  unfold handleArpPacket planArp
  by_cases h42 : packet.size < 42
  · simp only [ethLen, arpLen, ite_run, h42, if_true]
    exact ⟨rfl, rfl⟩
  · simp only [ethLen, arpLen, ite_run, h42, if_false]
    refine .bind (v := packet.mem.u16 20) (fun _ => ⟨rfl, rfl, rfl⟩) ?_
    by_cases hreq : arOp packet.mem = arpOpRequest
    · simp only [ite_run, ← arOp.eq_def, hreq, if_true]
      refine .bind (v := packet.mem.u32 38) (fun _ => ⟨rfl, rfl, rfl⟩) (.get ?_)
      have hr := sendArpReply_does env packet interface sr
      cases hi : srGetInterfaceByIp sr.ifList (packet.mem.u32 38) with
      | none => exact ⟨rfl, rfl⟩
      | some i => simpa [hi] using hr
    · by_cases hrep : arOp packet.mem = arpOpReply
      · have hne : ¬ arpOpReply = arpOpRequest := by decide
        simp only [ite_run, ← arOp.eq_def, hrep, hne, if_false, if_true]
        refine .bind (v := arSha packet.mem) (fun _ => ⟨rfl, rfl, rfl⟩)
          (.bind (v := arSip packet.mem) (fun _ => ⟨rfl, rfl, rfl⟩) (.get ?_))
        cases hr : findReq (arSip packet.mem) sr.cache.requests with
        | none =>
          have hi : (srArpcacheInsert env.now sr.cache (arSha packet.mem) (arSip packet.mem)).2 = none := hr
          refine ⟨?_, ?_⟩
          · simp [hi, Plan.untilMiss]
          · simp [hi, Plan.acts, hr]
        | some r =>
          have hi : (srArpcacheInsert env.now sr.cache (arSha packet.mem) (arSip packet.mem)).2 = some r := hr
          let sr' : SrInstance :=
            { sr with cache := (srArpcacheInsert env.now sr.cache (arSha packet.mem) (arSip packet.mem)).1 }
          obtain ⟨hst, hacts⟩ := flushLoop_spec env (arSha packet.mem) sr' r.packets ((hq hrep).packet r (findReq_some hr).1)
          refine ⟨?_, ?_⟩
          · simp only [hi, bind_st, modify_apply, Plan.untilMiss]
            rw [hst]
            exact congrArg _ (destroy_erased hr (hq hrep).ptr _ _)
          · simp only [hi, bind_acts, modify_apply, Plan.acts, hr, List.nil_append, List.append_nil]
            exact hacts
      · simp only [ite_run, ← arOp.eq_def, hreq, hrep, if_false]
        exact ⟨rfl, rfl⟩

theorem handleUntilMiss_arp (env : Env) (packet : Buf) (interface : IfName) (sr : SrInstance)
    (hq : arOp packet.mem = arpOpReply → QueueOk sr) (h14 : ¬ packet.size < 14)
    (harp : etherType packet.mem = ethertypeArp) :
    Follows env sr (handleUntilMiss env packet interface sr) (planArp sr.ifList env packet interface) := by
  unfold handleUntilMiss
  simp only [ethLen, ite_run, h14, if_false]
  refine .bind (v := packet.mem.u16 12) (fun _ => ⟨rfl, rfl, rfl⟩) ?_
  simp only [ite_run, ← etherType.eq_def, harp, if_true]
  refine (handleArpPacket_does env packet interface sr hq).follows ?_
  unfold planArp
  split
  · rfl
  · split
    · split <;> rfl
    · split <;> rfl

/-- Up to the queueing of a miss, the code follows its plan. -/
theorem handleUntilMiss_follows (env : Env) (packet : Buf) (interface : IfName) (sr : SrInstance) (hq : QueueOk sr) :
    Follows env sr (handleUntilMiss env packet interface sr)
      (plan sr.ifList sr.routingTable env packet interface) := by
  unfold plan
  by_cases h14 : packet.size < 14
  · unfold handleUntilMiss
    simp only [ethLen, ite_run, h14, if_true]
    exact .quiet env sr
  · rw [if_neg h14]
    by_cases harp : etherType packet.mem = ethertypeArp
    · rw [if_pos harp]
      exact handleUntilMiss_arp env packet interface sr (fun _ => hq) h14 harp
    · rw [if_neg harp]
      unfold handleUntilMiss
      simp only [ethLen, ite_run, h14, if_false]
      refine .bind (v := packet.mem.u16 12) (fun _ => ⟨rfl, rfl, rfl⟩) ?_
      by_cases hip : etherType packet.mem = ethertypeIp
      · have hne : ¬ ethertypeIp = ethertypeArp := by decide
        simp only [ite_run, ← etherType.eq_def, hip, hne, if_false, if_true]
        exact handleIpPacket_follows env packet interface sr
      · simp only [ite_run, ← etherType.eq_def, harp, hip, if_false]
        exact .quiet env sr

end SimpleRouter
