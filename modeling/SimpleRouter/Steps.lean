import SimpleRouter.Passes
import SimpleRouter.System
/-!
# What one step can do

`step_cases` is the inversion lemma of the system: a step leaves everything
alone, answers, fails to answer, learns a mapping, sends a packet, queues one
behind a pending request, queues one with a new request, or sweeps. What holds
of every run is proved from these shapes and from nothing else of the code.
Fewer cases are left to who asks for the state only (`StepsTo.changes`), for a
step with something to put out (`StepsTo.delivered`), for what is recorded
besides calls of `sr_send_packet` (`StepsTo.recorded`) or for what is sent
(`StepsTo.sent`).
-/
open Memory CProg Runs

namespace SimpleRouter

/-! ## Where a delivery comes from -/

/-- `d` goes where the longest-prefix route for `dst` says. -/
def RoutedBy (ifs : List SrIf) (rts : List SrRt) (d : Delivery) (dst : UInt32) : Prop :=
  ∃ rt, lpmLookup rts dst = some rt ∧ srGetInterface ifs rt.interface = some d.iface ∧ d.nextHop = nextHop rt dst

section Deliveries
variable (ifs : List SrIf) (rts : List SrRt) (env : Env) (packet : Buf) (built : List Act) (d : Delivery)

/-- The delivery of the forwarded packet itself. -/
structure ForwardOf : Prop where
  built : built = []
  origin : d.origin = .forwarded env.seq
  frame : d.frame = (forwardBuf packet).bytes
  notUs : srGetInterfaceByIp ifs (packet.mem.u32 30) = none
  ttl : ¬ packet.mem 22 ≤ 1
  route : RoutedBy ifs rts d (packet.mem.u32 30)

/-- The delivery of an ICMP error about the packet in `orig`. -/
structure ErrorOf (orig : Buf) (type code : UInt8) : Prop where
  built : built = [.build (.direct (.icmpError env.seq)) d.frame]
  origin : d.origin = .icmpError env.seq
  frame : d.frame = (t3Buf orig env.heap d.iface.ip type code).bytes
  about : orig = packet ∨ orig = forwardBuf packet
  kind : (type, code) ∈ [((11 : UInt8), (0 : UInt8)), (3, 0), (3, 3)]
  route : RoutedBy ifs rts d (orig.mem.u32 26)

end Deliveries

/-- `bytes` is an ARP reply saying that `ip` is at `mac`. -/
structure IsArpReply (bytes : List UInt8) (mac : Mac) (ip : UInt32) : Prop where
  size : 42 ≤ bytes.length
  type : etherType (memOf bytes) = ethertypeArp
  op : arOp (memOf bytes) = arpOpReply
  mac : arSha (memOf bytes) = mac
  ip : arSip (memOf bytes) = ip

/-- The fields of an ARP frame that is long enough are those of its bytes. -/
theorem arpFields_bytes (packet : Buf) (h : 42 ≤ packet.size) :
    arOp (memOf packet.bytes) = arOp packet.mem ∧ arSha (memOf packet.bytes) = arSha packet.mem ∧
      arSip (memOf packet.bytes) = arSip packet.mem ∧ arTip (memOf packet.bytes) = arTip packet.mem := by
  have hb : ∀ i, i < 42 → memOf packet.bytes i = packet.mem i := fun i hi => memOf_bytes packet i (by omega)
  refine ⟨?_, ?_, ?_, ?_⟩
  · exact congrArg swap16 (Mem.u16_congr (hb 20 (by decide)) (hb 21 (by decide)))
  · exact Mac.ofMem_congr fun k hk => hb (22 + k) (by omega)
  · exact Mem.u32_congr fun k hk => hb (28 + k) (by omega)
  · exact Mem.u32_congr fun k hk => hb (38 + k) (by omega)

section Planned
variable (ifs : List SrIf) (rts : List SrRt) (env : Env) (packet : Buf) (interface : IfName)

/-- The plans there are for `packet`. -/
inductive Planned : Plan → Prop where
  | quiet : Planned .quiet
  | crash : Planned .crash
  | arpReply {frame} (ht : etherType (memOf frame) = ethertypeArp) (ho : arOp (memOf frame) = arpOpReply)
      (hl : frame.length = 42) : Planned (.transmit (.arpReply env.seq) interface frame)
  | echo {i} (hs : 34 ≤ packet.size) (ht : etherType packet.mem = ethertypeIp)
      (hi : srGetInterface ifs interface = some i) :
      Planned (.transmit (.echoReply env.seq) interface (echoBuf packet env.heap i).bytes)
  | learn {mac ip} (h : IsArpReply packet.bytes mac ip) : Planned (.learn mac ip)
  | forward {built d} (hs : 34 ≤ packet.size) (ht : etherType packet.mem = ethertypeIp)
      (h : ForwardOf ifs rts env packet built d) : Planned (.output built d)
  | error {built d orig type code} (hs : 34 ≤ packet.size) (ht : etherType packet.mem = ethertypeIp)
      (h : ErrorOf ifs rts env packet built d orig type code) : Planned (.output built d)

variable {ifs rts env packet interface}

theorem planError_planned {orig : Buf} {type code : UInt8} (hs : 34 ≤ packet.size)
    (ht : etherType packet.mem = ethertypeIp) (ho : orig = packet ∨ orig = forwardBuf packet)
    (hk : (type, code) ∈ [((11 : UInt8), (0 : UInt8)), (3, 0), (3, 3)]) :
    Planned ifs rts env packet interface (planError ifs rts env orig type code) := by
  unfold planError
  cases hrt : lpmLookup rts (orig.mem.u32 26) with
  | none => exact .quiet
  | some rt =>
    cases hi : srGetInterface ifs rt.interface with
    | none => simp only [hi]; exact .quiet
    | some i => simp only [hi]; exact .error hs ht ⟨rfl, rfl, rfl, ho, hk, rt, hrt, hi, rfl⟩

theorem planForward_planned (hs : 34 ≤ packet.size) (ht : etherType packet.mem = ethertypeIp)
    (hus : srGetInterfaceByIp ifs (packet.mem.u32 30) = none) :
    Planned ifs rts env packet interface (planForward ifs rts env packet) := by
  unfold planForward
  by_cases httl : packet.mem 22 ≤ 1
  · rw [if_pos httl]
    exact planError_planned hs ht (.inl rfl) (by simp)
  · rw [if_neg httl]
    cases hrt : lpmLookup rts (packet.mem.u32 30) with
    | none => exact planError_planned hs ht (.inr rfl) (by simp)
    | some rt =>
      cases hi : srGetInterface ifs rt.interface with
      | none => simp only [hi]; exact .quiet
      | some i => simp only [hi]; exact .forward hs ht ⟨rfl, rfl, rfl, hus, httl, rt, hrt, hi, rfl⟩

theorem planIp_planned (ht : etherType packet.mem = ethertypeIp) :
    Planned ifs rts env packet interface (planIp ifs rts env packet interface) := by
  unfold planIp
  by_cases h34 : packet.size < 34
  · rw [if_pos h34]; exact .quiet
  · rw [if_neg h34]
    have hs : 34 ≤ packet.size := by omega
    cases hus : srGetInterfaceByIp ifs (packet.mem.u32 30) with
    | none => exact planForward_planned hs ht hus
    | some j =>
      rw [Option.isSome_some, if_pos rfl]
      by_cases hp : packet.mem 23 = ipProtocolIcmp
      · rw [if_pos hp]
        split
        · unfold planEcho
          cases hi : srGetInterface ifs interface with
          | none => exact .crash
          | some i => exact .echo hs ht hi
        · exact .quiet
      · rw [if_neg hp]
        exact planError_planned hs ht (.inl rfl) (by simp)

theorem planArp_planned (ht : etherType (memOf packet.bytes) = ethertypeArp) :
    Planned ifs rts env packet interface (planArp ifs env packet interface) := by
  unfold planArp
  by_cases h42 : packet.size < 42
  · rw [if_pos h42]; exact .quiet
  · rw [if_neg h42]
    split
    · cases srGetInterfaceByIp ifs (packet.mem.u32 38) with
      | none => exact .quiet
      | some i =>
        obtain ⟨h1, h2, -⟩ := arpBuf_fields env.heap i (.ofMem packet.mem 6) arpOpReply (.ofMem packet.mem 22)
          (packet.mem.u32 28)
        exact .arpReply h1 (h2.trans (by decide)) (by simp)
    · split
      · rename_i hop
        obtain ⟨h1, h2, h3, -⟩ := arpFields_bytes packet (by omega)
        exact .learn ⟨by simpa using h42, ht, h1.trans hop, h2, h3⟩
      · exact .quiet

theorem plan_planned : Planned ifs rts env packet interface (plan ifs rts env packet interface) := by
  unfold plan
  by_cases h14 : packet.size < 14
  · rw [if_pos h14]; exact .quiet
  · rw [if_neg h14]
    have ht := etherType_bytes (Nat.le_of_not_lt h14)
    by_cases harp : etherType packet.mem = ethertypeArp
    · rw [if_pos harp]; exact planArp_planned (ht.trans harp)
    · rw [if_neg harp]
      by_cases hip : etherType packet.mem = ethertypeIp
      · rw [if_pos hip]; exact planIp_planned hip
      · rw [if_neg hip]; exact .quiet

/-- An ARP reply has no other plan than to be learnt. -/
theorem plan_learn {bytes : List UInt8} {mac : Mac} {ip : UInt32} (h : IsArpReply bytes mac ip) (past : Mem) :
    plan ifs rts env (.ofBytes bytes past) interface = .learn mac ip := by
  obtain ⟨h42, ht, hop, rfl, rfl⟩ := h
  obtain ⟨h1, h2, h3, -⟩ := arpFields_bytes (.ofBytes bytes past) h42
  rw [Buf.bytes_ofBytes] at h1 h2 h3
  have ht' : etherType (Buf.ofBytes bytes past).mem = ethertypeArp := (etherType_ofBytes (by omega) past).trans ht
  have h14 : ¬ bytes.length < 14 := by omega
  have h42' : ¬ bytes.length < 42 := by omega
  have hne : ¬ arpOpReply = arpOpRequest := by decide
  simp only [plan, planArp, Buf.size_ofBytes, ht', h14, h42', ← h1, ← h2, ← h3, hop, hne, if_false, if_true]

/-- What the router puts out is the packet it forwards or an error about it. -/
theorem plan_output {built : List Act} {d : Delivery} (h : plan ifs rts env packet interface = .output built d) :
    34 ≤ packet.size ∧ etherType packet.mem = ethertypeIp ∧ (ForwardOf ifs rts env packet built d ∨
      ∃ orig type code, ErrorOf ifs rts env packet built d orig type code) := by
  have hp : Planned ifs rts env packet interface (.output built d) := h ▸ plan_planned
  cases hp with
  | forward hs ht hf => exact ⟨hs, ht, .inl hf⟩
  | error hs ht he => exact ⟨hs, ht, .inr ⟨_, _, _, he⟩⟩

/-- All that is recorded before a delivery is the error that was built. -/
theorem plan_built {built : List Act} {d : Delivery} (h : plan ifs rts env packet interface = .output built d) :
    built = [] ∨ built = [.build (.direct d.origin) d.frame] := by
  obtain ⟨-, -, hf | ⟨orig, type, code, he⟩⟩ := plan_output h
  · exact .inl hf.built
  · exact .inr (by rw [he.built, he.origin])

/-- So an action recorded before a delivery is that error. -/
theorem mem_built {built : List Act} {d : Delivery} (h : plan ifs rts env packet interface = .output built d) {a : Act}
    (ha : a ∈ built) : a = .build (.direct d.origin) d.frame := by
  rcases plan_built h with rfl | rfl
  · cases ha
  · exact List.mem_singleton.1 ha

end Planned

/-- The address a delivered packet is for is in its header, and it decides the route. -/
theorem plan_routed {ifs : List SrIf} {rts : List SrRt} {env : Env} {packet : Buf} {interface : IfName}
    {built : List Act} {d : Delivery} (h : plan ifs rts env packet interface = .output built d) :
    34 ≤ d.frame.length ∧ d.origin.seq = env.seq ∧ RoutedBy ifs rts d (ipDst (memOf d.frame)) := by
  obtain ⟨h34, -, hf | ⟨orig, type, code, he⟩⟩ := plan_output h
  · have hl : d.frame.length = packet.size := by rw [hf.frame]; simp
    have hd : ipDst (memOf d.frame) = packet.mem.u32 30 := by
      rw [ipDst, hf.frame, ← forwardBuf_u32 packet (i := 30) (by omega)]
      exact Mem.u32_congr fun k hk => memOf_bytes _ _ (by simp; omega)
    exact ⟨by omega, by rw [hf.origin]; rfl, hd ▸ hf.route⟩
  · have hl : d.frame.length = 70 := by rw [he.frame]; simp
    have hd : ipDst (memOf d.frame) = orig.mem.u32 26 := by rw [he.frame, ipDst_t3Buf]
    exact ⟨by omega, by rw [he.origin]; rfl, hd ▸ he.route⟩

/-! ## Well-formed states -/

/-- The state after `n` events of the router with interfaces `ifs` and routes `rts`. -/
structure Wf (ifs : List SrIf) (rts : List SrRt) (n : Nat) (sr : SrInstance) : Prop where
  ifList : sr.ifList = ifs
  routes : sr.routingTable = rts
  /-- Requests have addresses of their own, named after earlier steps. -/
  ptr : (sr.cache.requests.map (·.ptr)).Nodup
  old : ∀ r ∈ sr.cache.requests, r.ptr < n
  /-- No address is asked for twice. -/
  ip : (sr.cache.requests.map (·.ip)).Nodup
  nonempty : ∀ r ∈ sr.cache.requests, r.packets ≠ []
  packet : ∀ r ∈ sr.cache.requests, ∀ pkt ∈ r.packets,
    (∃ i, srGetInterface ifs pkt.iface = some i) ∧ 14 ≤ pkt.buf.length
  /-- No address is asked for and known. -/
  apart : ∀ r ∈ sr.cache.requests, ∀ e ∈ sr.cache.entries.slots, e.valid = true → e.ip ≠ r.ip

theorem Wf.queueOk {ifs : List SrIf} {rts : List SrRt} {n : Nat} {sr : SrInstance} (h : Wf ifs rts n sr) :
    QueueOk sr := ⟨h.ifList ▸ h.packet, h.ptr⟩

/-- Every pending request has been asked for at least once and at most five times. -/
def Counted (sr : SrInstance) : Prop := ∀ r ∈ sr.cache.requests, 1 ≤ r.timesSent ∧ r.timesSent ≤ 5

/-! ## The shapes of a step -/

/-- What the `n`th event gives the router to put out, if anything. -/
def delivers (ifs : List SrIf) (rts : List SrRt) (n : Nat) : Event → Option Delivery
  | .frame bytes past heap iface now =>
    match plan ifs rts ⟨n, now, heap⟩ (.ofBytes bytes past) iface with
    | .output _ d => some d
    | _ => none
  | .sweep _ => none

/-- What a frame gives the router to put out is what its plan says. -/
theorem delivers_frame {ifs : List SrIf} {rts : List SrRt} {n : Nat} {bytes : List UInt8} {past heap : Mem}
    {iface : IfName} {now : Int} {d : Delivery} : delivers ifs rts n (.frame bytes past heap iface now) = some d ↔
      ∃ built, plan ifs rts ⟨n, now, heap⟩ (.ofBytes bytes past) iface = .output built d := by
  rw [delivers]
  cases plan ifs rts ⟨n, now, heap⟩ (.ofBytes bytes past) iface with
  | output built d' => simp
  | quiet => simp
  | crash => simp
  | transmit => simp
  | learn => simp

/-- Only a frame gives the router something to put out. -/
theorem delivers_plan {ifs : List SrIf} {rts : List SrRt} {n : Nat} {e : Event} {d : Delivery}
    (h : delivers ifs rts n e = some d) : ∃ built bytes past heap iface now,
      e = .frame bytes past heap iface now ∧
        plan ifs rts ⟨n, now, heap⟩ (.ofBytes bytes past) iface = .output built d := by
  cases e with
  | sweep env => cases h
  | frame bytes past heap iface now =>
    obtain ⟨built, hp⟩ := delivers_frame.1 h
    exact ⟨built, bytes, past, heap, iface, now, rfl, hp⟩

section Shapes
variable (ifs : List SrIf) (rts : List SrRt) (n : Nat) (sr : SrInstance)

/-- What a step from `sr` on an event can lead to and do. -/
inductive StepsTo : Event → SrInstance → List Act → Prop where
  | quiet {bytes past heap iface now} (hn : delivers ifs rts n (.frame bytes past heap iface now) = none) :
      StepsTo (.frame bytes past heap iface now) sr []
  | crash {bytes past heap iface now} (hn : delivers ifs rts n (.frame bytes past heap iface now) = none) :
      StepsTo (.frame bytes past heap iface now) sr [.fault .nullDeref]
  | refused {bytes past heap iface now frame} (hn : delivers ifs rts n (.frame bytes past heap iface now) = none) :
      StepsTo (.frame bytes past heap iface now) sr [.reject (.arpReply n) iface frame]
  | arpReply {bytes past heap iface now frame} (hn : delivers ifs rts n (.frame bytes past heap iface now) = none)
      (ht : etherType (memOf frame) = ethertypeArp) (ho : arOp (memOf frame) = arpOpReply) (hl : frame.length = 42) :
      StepsTo (.frame bytes past heap iface now) sr [.send (.arpReply n) iface frame]
  | echo {bytes past heap iface now i} (hn : delivers ifs rts n (.frame bytes past heap iface now) = none)
      (hl : 34 ≤ bytes.length) (ht : etherType (memOf bytes) = ethertypeIp) :
      StepsTo (.frame bytes past heap iface now) sr
        [.send (.echoReply n) iface (echoBuf (.ofBytes bytes past) heap i).bytes]
  | learn {bytes past heap iface now mac ip} (hn : delivers ifs rts n (.frame bytes past heap iface now) = none)
      (h : IsArpReply bytes mac ip) :
      StepsTo (.frame bytes past heap iface now) { sr with cache := (srArpcacheInsert now sr.cache mac ip).1 }
        ((findReq ip sr.cache.requests).elim [] fun r => flushActs ifs mac r.packets)
  | hit {bytes past heap iface now built d e}
      (hp : plan ifs rts ⟨n, now, heap⟩ (.ofBytes bytes past) iface = .output built d)
      (he : srArpcacheLookup sr.cache d.nextHop = some e) :
      StepsTo (.frame bytes past heap iface now) sr
        (built ++ [.send (.direct d.origin) d.iface.name (d.sent e.mac)])
  | join {bytes past heap iface now built d r}
      (hp : plan ifs rts ⟨n, now, heap⟩ (.ofBytes bytes past) iface = .output built d)
      (he : srArpcacheLookup sr.cache d.nextHop = none) (hr : findReq d.nextHop sr.cache.requests = some r) :
      StepsTo (.frame bytes past heap iface now) (sr.updReq r.ptr (.push d.packet)) built
  | fresh {bytes past heap iface now built d}
      (hp : plan ifs rts ⟨n, now, heap⟩ (.ofBytes bytes past) iface = .output built d)
      (he : srArpcacheLookup sr.cache d.nextHop = none) (hr : findReq d.nextHop sr.cache.requests = none) :
      StepsTo (.frame bytes past heap iface now)
        (sr.setRequests (⟨n, d.nextHop, now, 1, [d.packet]⟩ :: sr.cache.requests))
        (built ++ [.send (.arpRequest n now) d.iface.name (arpRequestFrame heap d.iface d.nextHop)])
  | sweep {env : SweepEnv} :
      StepsTo (.sweep env)
        { sr with cache := ⟨expireEntries (env.clock 0) sr.cache.entries, sweepList env.clock 0 sr.cache.requests⟩ }
        (sweepActs ifs rts (expireEntries (env.clock 0) sr.cache.entries) env 0 sr.cache.requests)

/-- How a step from `sr` on an event changes the state. -/
inductive Changes : Event → SrInstance → Prop where
  | same {bytes past heap iface now} : Changes (.frame bytes past heap iface now) sr
  | learn {bytes past heap iface now mac ip} (h : IsArpReply bytes mac ip) :
      Changes (.frame bytes past heap iface now) { sr with cache := (srArpcacheInsert now sr.cache mac ip).1 }
  | join {bytes past heap iface now built d r}
      (hp : plan ifs rts ⟨n, now, heap⟩ (.ofBytes bytes past) iface = .output built d)
      (he : srArpcacheLookup sr.cache d.nextHop = none) (hr : findReq d.nextHop sr.cache.requests = some r) :
      Changes (.frame bytes past heap iface now) (sr.updReq r.ptr (.push d.packet))
  | fresh {bytes past heap iface now built d}
      (hp : plan ifs rts ⟨n, now, heap⟩ (.ofBytes bytes past) iface = .output built d)
      (he : srArpcacheLookup sr.cache d.nextHop = none) (hr : findReq d.nextHop sr.cache.requests = none) :
      Changes (.frame bytes past heap iface now)
        (sr.setRequests (⟨n, d.nextHop, now, 1, [d.packet]⟩ :: sr.cache.requests))
  | sweep {env : SweepEnv} :
      Changes (.sweep env)
        { sr with cache := ⟨expireEntries (env.clock 0) sr.cache.entries, sweepList env.clock 0 sr.cache.requests⟩ }

variable {ifs rts n sr} in
/-- What is sent matters to no state. -/
theorem StepsTo.changes {e : Event} {sr' : SrInstance} {acts : List Act} (hs : StepsTo ifs rts n sr e sr' acts) :
    Changes ifs rts n sr e sr' := by
  cases hs with
  | quiet => exact .same
  | crash => exact .same
  | refused => exact .same
  | arpReply => exact .same
  | echo => exact .same
  | learn hn h => exact .learn h
  | hit => exact .same
  | join hp he hr => exact .join hp he hr
  | fresh hp he hr => exact .fresh hp he hr
  | sweep => exact .sweep

end Shapes

/-! ## A miss in one step -/

/-- An ARP request for the next hop of a miss goes out at once. -/
theorem sendArpRequest_does {sr : SrInstance} {i : SrIf} (hi : srGetInterface sr.ifList i.name = some i) (site : Site)
    (heap : Mem) (tip : UInt32) :
    (sendArpRequest site heap tip i.name sr).st = sr ∧
      (sendArpRequest site heap tip i.name sr).acts = [.send site i.name (arpRequestFrame heap i tip)] := by
  constructor
  · simp [sendArpRequest, hi]
  · simp only [sendArpRequest, bind_acts, get_apply, hi, fillArp_val, fillArp_acts, srSendPacket_acts, List.nil_append]
    exact sendActs_arpRequest hi heap tip

section Finish
variable {env : Env} {sr : SrInstance} {m : Miss} {r : SrArpreq}

/-- Behind a pending request nothing more happens. -/
theorem finish_join (hr : derefReq m.req sr.cache.requests = some r) (ht : 1 ≤ r.timesSent) :
    (m.finish env sr).st = sr ∧ (m.finish env sr).acts = [] := by
  have h0 : ¬ r.timesSent = 0 := by omega
  simp [Miss.finish, Miss.test, hr, h0]

/-- For a new request the first ARP request is sent and counted. -/
theorem finish_fresh {i : SrIf} (hr : derefReq m.req sr.cache.requests = some r) (ht : r.timesSent = 0)
    (hm : m.iface = i.name) (hi : srGetInterface sr.ifList i.name = some i) :
    (m.finish env sr).st = sr.updReq m.req (fun r => { r with sent := env.now, timesSent := 1 }) ∧
      (m.finish env sr).acts =
        [.send (.arpRequest m.req env.now) i.name (arpRequestFrame env.heap i m.nextHop)] := by
  obtain ⟨h1, h2⟩ := sendArpRequest_does hi (.arpRequest m.req env.now) env.heap m.nextHop
  constructor
  · simp [Miss.finish, Miss.test, Miss.transmit, Miss.mark, hr, ht, hm, h1]
  · simp [Miss.finish, Miss.test, Miss.transmit, Miss.mark, hr, ht, hm, h1, h2]

end Finish

/-! ## The inversion lemma -/

section Cases
variable {ifs : List SrIf} {rts : List SrRt} {n : Nat} {sr : SrInstance}

theorem srHandlepacket_none {env : Env} {packet : Buf} {interface : IfName} {p : Plan}
    (h : Follows env sr (handleUntilMiss env packet interface sr) p) (hm : p.miss env.seq sr = none) :
    (srHandlepacket env packet interface sr).st = p.untilMiss env.seq env.now sr ∧
      (srHandlepacket env packet interface sr).acts = p.acts sr := by
  have hv : (handleUntilMiss env packet interface sr).val = none := h.val.trans hm
  simp [srHandlepacket, hv, h.st, h.acts]

theorem srHandlepacket_some {env : Env} {packet : Buf} {interface : IfName} {p : Plan} {m : Miss}
    (h : Follows env sr (handleUntilMiss env packet interface sr) p) (hm : p.miss env.seq sr = some m) :
    (srHandlepacket env packet interface sr).st = (m.finish env (p.untilMiss env.seq env.now sr)).st ∧
      (srHandlepacket env packet interface sr).acts =
        p.acts sr ++ (m.finish env (p.untilMiss env.seq env.now sr)).acts := by
  have hv : (handleUntilMiss env packet interface sr).val = some m := h.val.trans hm
  simp [srHandlepacket, hv, h.st, h.acts]

/-- A frame whose plan puts nothing in the queue. -/
theorem stepRes_plan (hw : Wf ifs rts n sr) {bytes : List UInt8} {past heap : Mem} {iface : IfName} {now : Int} {p : Plan}
    (hp : plan ifs rts ⟨n, now, heap⟩ (.ofBytes bytes past) iface = p) (hm : p.miss n sr = none) :
    (stepRes n sr (.frame bytes past heap iface now)).st = p.untilMiss n now sr ∧
      (stepRes n sr (.frame bytes past heap iface now)).acts = p.acts sr := by
  have hf := handleUntilMiss_follows ⟨n, now, heap⟩ (.ofBytes bytes past) iface sr hw.queueOk
  rw [hw.ifList, hw.routes, hp] at hf
  exact srHandlepacket_none hf hm

/-- A reply is stored, and the packets that waited for it are flushed. -/
theorem srHandlepacket_learn (hw : Wf ifs rts n sr) {env : Env} {packet : Buf} {interface : IfName} {mac : Mac}
    {ip : UInt32} (hp : plan ifs rts env packet interface = .learn mac ip) :
    (srHandlepacket env packet interface sr).st =
        { sr with cache := (srArpcacheInsert env.now sr.cache mac ip).1 } ∧
      (srHandlepacket env packet interface sr).acts =
        (findReq ip sr.cache.requests).elim [] fun r => flushActs ifs mac r.packets := by
  have hf := handleUntilMiss_follows env packet interface sr hw.queueOk
  rw [hw.ifList, hw.routes, hp] at hf
  obtain ⟨h1, h2⟩ := srHandlepacket_none hf rfl
  refine ⟨h1, h2.trans ?_⟩
  simp only [Plan.acts, hw.ifList]
  cases findReq ip sr.cache.requests <;> rfl

/-- A delivery is sent, joins a pending request, or opens a new one. -/
theorem output_cases (hw : Wf ifs rts n sr) (hc : Counted sr) {bytes : List UInt8} {past heap : Mem} {iface : IfName}
    {now : Int} {built : List Act} {d : Delivery}
    (hp : plan ifs rts ⟨n, now, heap⟩ (.ofBytes bytes past) iface = .output built d)
    (hf : Follows ⟨n, now, heap⟩ sr (handleUntilMiss ⟨n, now, heap⟩ (.ofBytes bytes past) iface sr)
      (.output built d)) :
    StepsTo ifs rts n sr (.frame bytes past heap iface now) (srHandlepacket ⟨n, now, heap⟩ (.ofBytes bytes past) iface sr).st
      (srHandlepacket ⟨n, now, heap⟩ (.ofBytes bytes past) iface sr).acts := by
  obtain ⟨h34, -, rt, -, hi, -⟩ := plan_routed hp
  have hlen : d.packet.buf.length ≠ 0 := by
    simp only [Delivery.packet, length_setEth none d.iface.addr (show 14 ≤ d.frame.length by omega)]
    omega
  cases he : srArpcacheLookup sr.cache d.nextHop with
  | some e =>
    obtain ⟨h1, h2⟩ := srHandlepacket_none hf (by simp [Plan.miss, he])
    rw [h1, h2]
    simp only [Plan.untilMiss, Plan.acts, he]
    exact .hit hp he
  | none =>
    cases hr : findReq d.nextHop sr.cache.requests with
    | some r =>
      have hq := queuereq_join (n := n) hlen hr
      obtain ⟨h1, h2⟩ := srHandlepacket_some hf (m := ⟨r.ptr, d.nextHop, d.iface.name⟩) (by simp [Plan.miss, he, hq])
      have hmem := (findReq_some hr).1
      have hd : derefReq r.ptr (updReq r.ptr (.push d.packet) sr.cache.requests) = some (r.push d.packet) := by
        rw [derefReq_updReq (f := .push d.packet) fun _ => rfl, derefReq_of_mem hw.ptr hmem]; rfl
      obtain ⟨h3, h4⟩ : ((⟨r.ptr, d.nextHop, d.iface.name⟩ : Miss).finish ⟨n, now, heap⟩
          (sr.updReq r.ptr (.push d.packet))).st = sr.updReq r.ptr (.push d.packet) ∧
          ((⟨r.ptr, d.nextHop, d.iface.name⟩ : Miss).finish ⟨n, now, heap⟩
            (sr.updReq r.ptr (.push d.packet))).acts = [] := finish_join hd (hc r hmem).1
      have hst : (Plan.output built d).untilMiss n now sr = sr.updReq r.ptr (.push d.packet) := by
        simp only [Plan.untilMiss, he, hq]; rfl
      rw [h1, h2, hst, h3, h4, List.append_nil]
      simp only [Plan.acts, he]
      exact .join hp he hr
    | none =>
      have hn : ∀ r ∈ sr.cache.requests, r.ptr ≠ n := fun r hr => Nat.ne_of_lt (hw.old r hr)
      have hq := queuereq_new hlen hr hn
      obtain ⟨h1, h2⟩ := srHandlepacket_some hf (m := ⟨n, d.nextHop, d.iface.name⟩) (by simp [Plan.miss, he, hq])
      have hst : (Plan.output built d).untilMiss n now sr =
          sr.setRequests (⟨n, d.nextHop, 0, 0, [d.packet]⟩ :: sr.cache.requests) := by
        simp only [Plan.untilMiss, he, hq]; rfl
      have hd : derefReq n (⟨n, d.nextHop, 0, 0, [d.packet]⟩ :: sr.cache.requests) =
          some ⟨n, d.nextHop, 0, 0, [d.packet]⟩ := by simp [derefReq]
      have hi' : srGetInterface sr.ifList d.iface.name = some d.iface := hw.ifList ▸ srGetInterface_name hi
      obtain ⟨h3, h4⟩ : ((⟨n, d.nextHop, d.iface.name⟩ : Miss).finish ⟨n, now, heap⟩
          (sr.setRequests (⟨n, d.nextHop, 0, 0, [d.packet]⟩ :: sr.cache.requests))).st =
            (sr.setRequests (⟨n, d.nextHop, 0, 0, [d.packet]⟩ :: sr.cache.requests)).updReq n _ ∧
          ((⟨n, d.nextHop, d.iface.name⟩ : Miss).finish ⟨n, now, heap⟩
            (sr.setRequests (⟨n, d.nextHop, 0, 0, [d.packet]⟩ :: sr.cache.requests))).acts = _ :=
        finish_fresh hd rfl rfl hi'
      have hu : updReq n (fun r => { r with sent := now, timesSent := 1 })
          (⟨n, d.nextHop, 0, 0, [d.packet]⟩ :: sr.cache.requests) =
            ⟨n, d.nextHop, now, 1, [d.packet]⟩ :: sr.cache.requests := by
        rw [updReq_cons, if_pos rfl, updReq_of_notMem hn]
      rw [h1, h2, hst, h3, h4]
      simp only [Plan.acts, he, SrInstance.updReq, SrInstance.setRequests, hu]
      exact .fresh hp he hr

theorem frame_cases (hw : Wf ifs rts n sr) (hc : Counted sr) (bytes : List UInt8) (past heap : Mem) (iface : IfName)
    (now : Int) :
    StepsTo ifs rts n sr (.frame bytes past heap iface now) (stepRes n sr (.frame bytes past heap iface now)).st
      (stepRes n sr (.frame bytes past heap iface now)).acts := by
  have hf := handleUntilMiss_follows ⟨n, now, heap⟩ (.ofBytes bytes past) iface sr hw.queueOk
  rw [hw.ifList, hw.routes] at hf
  have hp : Planned ifs rts ⟨n, now, heap⟩ (.ofBytes bytes past) iface
    (plan ifs rts ⟨n, now, heap⟩ (.ofBytes bytes past) iface) := plan_planned
  generalize hplan : plan ifs rts ⟨n, now, heap⟩ (.ofBytes bytes past) iface = p at hf hp
  cases hp with
  | quiet =>
    obtain ⟨h1, h2⟩ := stepRes_plan hw hplan rfl
    rw [h1, h2]; exact .quiet (by simp [delivers, hplan])
  | crash =>
    obtain ⟨h1, h2⟩ := stepRes_plan hw hplan rfl
    rw [h1, h2]; exact .crash (by simp [delivers, hplan])
  | @arpReply frame ht ho hl =>
    obtain ⟨h1, h2⟩ := stepRes_plan hw hplan rfl
    rw [h1, h2]
    rcases sendActs_cases sr.ifList (.arpReply n) iface frame with h | h <;> simp only [Plan.untilMiss, Plan.acts, h]
    · exact .refused (by simp [delivers, hplan])
    · exact .arpReply (by simp [delivers, hplan]) ht ho hl
  | @echo i hs ht hi =>
    obtain ⟨h1, h2⟩ := stepRes_plan hw hplan rfl
    rw [h1, h2]
    have ht' : etherType (memOf bytes) = ethertypeIp := by
      have hs' : 34 ≤ bytes.length := hs
      rw [← ht, etherType_ofBytes (by omega)]
    have hsent := sendActs_echo (hw.ifList.symm ▸ hi) (.echoReply n) heap (show 14 ≤ (Buf.ofBytes bytes past).size by omega)
    simp only [Plan.untilMiss, Plan.acts, hsent]
    exact .echo (by simp [delivers, hplan]) hs ht'
  | @learn mac ip h =>
    rw [Buf.bytes_ofBytes] at h
    obtain ⟨h1, h2⟩ := srHandlepacket_learn hw hplan
    rw [stepRes, h1, h2]
    exact .learn (by simp [delivers, hplan]) h
  | forward hs ht h => exact output_cases hw hc hplan hf
  | error hs ht h => exact output_cases hw hc hplan hf

/-- What a step can do. -/
theorem step_cases (hw : Wf ifs rts n sr) (hc : Counted sr) (e : Event) :
    StepsTo ifs rts n sr e (stepRes n sr e).st (stepRes n sr e).acts := by
  cases e with
  | frame bytes past heap iface now => exact frame_cases hw hc bytes past heap iface now
  | sweep env =>
    obtain ⟨h1, h2⟩ := srArpcacheTimeout_spec env sr hw.ptr
    rw [hw.ifList, hw.routes] at h2
    simp only [stepRes, h1, h2]
    exact .sweep

end Cases

/-! ## What a step does -/

section Does
variable {ifs : List SrIf} {rts : List SrRt} {n : Nat} {sr sr' : SrInstance} {e : Event} {acts : List Act}

/-- A step that is given something to put out sends it or queues it, and may ask for its next hop. -/
theorem StepsTo.delivered (hs : StepsTo ifs rts n sr e sr' acts) {d : Delivery} (hd : delivers ifs rts n e = some d) :
    ∃ built bytes past heap iface now, e = .frame bytes past heap iface now ∧
      plan ifs rts ⟨n, now, heap⟩ (.ofBytes bytes past) iface = .output built d ∧
      ((∃ ent, srArpcacheLookup sr.cache d.nextHop = some ent ∧
          acts = built ++ [.send (.direct d.origin) d.iface.name (d.sent ent.mac)]) ∨
        (srArpcacheLookup sr.cache d.nextHop = none ∧ (acts = built ∨
          acts = built ++ [.send (.arpRequest n now) d.iface.name (arpRequestFrame heap d.iface d.nextHop)]))) := by
  obtain ⟨built, bytes, past, heap, iface, now, rfl, hp⟩ := delivers_plan hd
  refine ⟨built, bytes, past, heap, iface, now, rfl, hp, ?_⟩
  cases hs with
  | quiet hn => cases hn.symm.trans hd
  | crash hn => cases hn.symm.trans hd
  | refused hn => cases hn.symm.trans hd
  | arpReply hn => cases hn.symm.trans hd
  | echo hn => cases hn.symm.trans hd
  | learn hn => cases hn.symm.trans hd
  | hit hp' he =>
    cases hp.symm.trans hp'
    exact .inl ⟨_, he, rfl⟩
  | join hp' he =>
    cases hp.symm.trans hp'
    exact .inr ⟨he, .inl rfl⟩
  | fresh hp' he =>
    cases hp.symm.trans hp'
    exact .inr ⟨he, .inr rfl⟩

/-- Apart from calls of `sr_send_packet` and faults, a step records the error it
puts out, or what a sweep does. -/
theorem StepsTo.recorded (hs : StepsTo ifs rts n sr e sr' acts) {a : Act} (ha : a ∈ acts)
    (hsend : ∀ site iface frame, a ≠ .send site iface frame) (hreject : ∀ site iface frame, a ≠ .reject site iface frame)
    (hfault : ∀ why, a ≠ .fault why) :
    (∃ bytes past heap iface now built d, e = .frame bytes past heap iface now ∧
      plan ifs rts ⟨n, now, heap⟩ (.ofBytes bytes past) iface = .output built d ∧ a ∈ built) ∨
    ∃ env, e = .sweep env ∧
      a ∈ sweepActs ifs rts (expireEntries (env.clock 0) sr.cache.entries) env 0 sr.cache.requests := by
  cases hs with
  | quiet => cases ha
  | crash => exact absurd (List.mem_singleton.1 ha) (hfault _)
  | refused => exact absurd (List.mem_singleton.1 ha) (hreject _ _ _)
  | arpReply => exact absurd (List.mem_singleton.1 ha) (hsend _ _ _)
  | echo => exact absurd (List.mem_singleton.1 ha) (hsend _ _ _)
  | @learn _ _ _ _ _ mac ip =>
    cases hr : findReq ip sr.cache.requests with
    | none => simp [hr] at ha
    | some r =>
      obtain ⟨pkt, -, i, -, he⟩ := mem_flushActs (by simpa [hr] using ha)
      exact absurd he (hsend _ _ _)
  | hit hp =>
    rcases List.mem_append.1 ha with ha | ha
    · exact .inl ⟨_, _, _, _, _, _, _, rfl, hp, ha⟩
    · exact absurd (List.mem_singleton.1 ha) (hsend _ _ _)
  | join hp => exact .inl ⟨_, _, _, _, _, _, _, rfl, hp, ha⟩
  | fresh hp =>
    rcases List.mem_append.1 ha with ha | ha
    · exact .inl ⟨_, _, _, _, _, _, _, rfl, hp, ha⟩
    · exact absurd (List.mem_singleton.1 ha) (hsend _ _ _)
  | sweep => exact .inr ⟨_, rfl, ha⟩

end Does

/-! ## What a step transmits -/

section Transmissions
variable (ifs : List SrIf) (rts : List SrRt) (n : Nat) (sr : SrInstance)

/-- A frame that a step on an event transmits, on the way to `sr'` and among the actions `acts`. -/
inductive Sent (sr' : SrInstance) (acts : List Act) : Event → Site → IfName → List UInt8 → Prop where
  | arpReply {bytes past heap iface now frame} (ht : etherType (memOf frame) = ethertypeArp)
      (ho : arOp (memOf frame) = arpOpReply) (hl : frame.length = 42) :
      Sent sr' acts (.frame bytes past heap iface now) (.arpReply n) iface frame
  | echo {bytes past heap iface now i} (hl : 34 ≤ bytes.length) (ht : etherType (memOf bytes) = ethertypeIp) :
      Sent sr' acts (.frame bytes past heap iface now) (.echoReply n) iface
        (echoBuf (.ofBytes bytes past) heap i).bytes
  | flushed {bytes past heap iface now mac ip r pkt i} (h : IsArpReply bytes mac ip)
      (hr : findReq ip sr.cache.requests = some r) (hp : pkt ∈ r.packets)
      (hi : srGetInterface ifs pkt.iface = some i) :
      Sent sr' acts (.frame bytes past heap iface now) (.flushed pkt.origin) pkt.iface
        (setEth (some mac) i.addr pkt.buf)
  | direct {bytes past heap iface now built d e}
      (hp : plan ifs rts ⟨n, now, heap⟩ (.ofBytes bytes past) iface = .output built d)
      (he : srArpcacheLookup sr.cache d.nextHop = some e) :
      Sent sr' acts (.frame bytes past heap iface now) (.direct d.origin) d.iface.name (d.sent e.mac)
  | first {bytes past heap iface now i r} (hr : r ∈ sr'.cache.requests) (hn : r.ptr = n) :
      Sent sr' acts (.frame bytes past heap iface now) (.arpRequest n now) i.name (arpRequestFrame heap i r.ip)
  | retry {env now r i} (hr : r ∈ sr.cache.requests) (hdue : now - r.sent ≥ 1) (h5 : r.timesSent < 5)
      (hs : { r with sent := now, timesSent := r.timesSent + 1 } ∈ sr'.cache.requests) :
      Sent sr' acts (.sweep env) (.arpRequest r.ptr now) i.name (arpRequestFrame env.heap i r.ip)
  | unreachable {env now r pkt i best j e} (hr : r ∈ sr.cache.requests) (hf : .fail r now ∈ acts)
      (hp : pkt ∈ r.packets) (hi : srGetInterface ifs pkt.iface = some i)
      (hb : lpmLookup rts ((Buf.ofBytes pkt.buf (env.past pkt.origin.seq)).mem.u32 26) = some best)
      (hj : srGetInterface ifs best.interface = some j)
      (he : lookupLoop (nextHop best ((Buf.ofBytes pkt.buf (env.past pkt.origin.seq)).mem.u32 26)) none
        (expireEntries (env.clock 0) sr.cache.entries).slots = some e) :
      Sent sr' acts (.sweep env) (.hostUnreachable pkt.origin r.ptr) j.name
        (setEth (some e.mac) j.addr (unreachError env i pkt).bytes)

end Transmissions

/-- Every transmission of a step is one of seven. -/
theorem StepsTo.sent {ifs : List SrIf} {rts : List SrRt} {n : Nat} {sr sr' : SrInstance} {e : Event} {acts : List Act}
    (hs : StepsTo ifs rts n sr e sr' acts) {site : Site} {iface : IfName} {frame : List UInt8}
    (hm : .send site iface frame ∈ acts) : Sent ifs rts n sr sr' acts e site iface frame := by
  have hbuilt : ∀ {env : Env} {packet : Buf} {interface : IfName} {built : List Act} {d : Delivery},
      plan ifs rts env packet interface = .output built d → .send site iface frame ∉ built := by
    intro env packet interface built d hp h
    cases mem_built hp h
  cases hs with
  | quiet => cases hm
  | crash => cases List.mem_singleton.1 hm
  | refused => cases List.mem_singleton.1 hm
  | arpReply hn ht ho hl => cases List.mem_singleton.1 hm; exact .arpReply ht ho hl
  | echo hn hl ht => cases List.mem_singleton.1 hm; exact .echo hl ht
  | @learn _ _ _ _ _ mac ip hn h =>
    cases hr : findReq ip sr.cache.requests with
    | none => simp [hr] at hm
    | some r =>
      obtain ⟨pkt, hpkt, i, hi, he⟩ := mem_flushActs (by simpa [hr] using hm)
      cases he
      exact .flushed h hr hpkt hi
  | hit hp he =>
    rcases List.mem_append.1 hm with hm | hm
    · exact absurd hm (hbuilt hp)
    · cases List.mem_singleton.1 hm
      exact .direct hp he
  | join hp => exact absurd hm (hbuilt hp)
  | @fresh _ _ _ _ now _ d hp =>
    rcases List.mem_append.1 hm with hm | hm
    · exact absurd hm (hbuilt hp)
    · cases List.mem_singleton.1 hm
      exact .first (r := ⟨n, d.nextHop, now, 1, [d.packet]⟩) List.mem_cons_self rfl
  | @sweep env =>
    obtain ⟨r, hr, now, hone, hall, hstay⟩ := mem_sweepActs hm
    rcases mem_sweepOneActs hone with ⟨hdue, ⟨h5, he | ⟨pkt, hpkt, hu⟩⟩ | ⟨h5, pkt, hpkt, i, hi, he⟩⟩
    · cases he
    · obtain ⟨i, hi, he | hsend⟩ := mem_unreachActs hu
      · cases he
      · obtain ⟨best, j, e, hb, hj, hent, he⟩ := mem_unreachSend hsend
        cases he
        exact .unreachable hr (hall _ (fail_mem_sweepOneActs hdue h5)) hpkt hi hb hj hent
    · cases he
      exact .retry hr hdue h5 (hstay _ (by rw [sweepOne, if_pos hdue, if_neg (by omega)]))

end SimpleRouter
