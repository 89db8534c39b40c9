import SimpleRouter.Accounting
import SimpleRouter.Freshness
import SimpleRouter.Lib.Resolution
/-!
# One neighbour at a time

`Lib/Resolution.lean` is about a sender and one neighbour of it. The router is
such a sender for every next hop at once: `SrArpcache.view` reads off the cache
and its queue what is known of one address and asked about it, `Event.input` is
what an event is to that sender, and `Act.output` what an action of the router
says. `run_resolves` is the simulation; `conversation_follows` is what it comes to
for the frames and the failures of a run, read in order.
-/
open Memory CProg Runs

namespace SimpleRouter

/-! ## The sender for an address -/

/-- The hardware addresses that valid entries give for `ip`, and when they came. -/
def ArpTable.facts (t : ArpTable) (ip : UInt32) : Set (Mac × Int) := {f | ∃ e ∈ t.slots, e.Answers ip ∧ (e.mac, e.added) = f}

/-- What is known of `ip` in the cache, or asked about it. -/
def SrArpcache.view (c : SrArpcache) (ip : UInt32) : Resolution.State Mac Origin :=
  match findReq ip c.requests with
  | some r => .asking ⟨r.sent, r.timesSent, r.origins⟩
  | none => .settled (c.entries.facts ip)

/-- What the `n`th event is to the sender for `ip`. -/
def Event.input (ifs : List SrIf) (rts : List SrRt) (ip : UInt32) (n : Nat) : Event → Resolution.Input Mac Origin
  | .frame bytes past heap iface now =>
    match plan ifs rts ⟨n, now, heap⟩ (.ofBytes bytes past) iface with
    | .learn mac sip => if sip = ip then .answer mac now else .pass
    | .output _ d => if d.nextHop = ip then .offer d.origin now else .pass
    | _ => .pass
  | .sweep env => .tick env.clock

/-- What the events of a run are to it. -/
def inputs (ifs : List SrIf) (rts : List SrRt) (ip : UInt32) (es : List Event) : List (Resolution.Input Mac Origin) :=
  es.zipIdx.map fun ek => ek.1.input ifs rts ip ek.2

/-- The next hop of an IP packet, by the address it is for. -/
def frameHop (rts : List SrRt) (frame : List UInt8) : Option UInt32 :=
  (lpmLookup rts (ipDst (memOf frame))).map (nextHop · (ipDst (memOf frame)))

/-- What an action says to `ip` or about it. -/
def Act.output (rts : List SrRt) (ip : UInt32) : Act → Option (Resolution.Output Mac Origin)
  | .send (.arpRequest _ now) _ frame => if arTip (memOf frame) = ip then some (.ask now) else none
  | .send (.direct o) _ frame => if frameHop rts frame = some ip then some (.deliver (.ofMem (memOf frame) 0) o) else none
  | .send (.flushed o) _ frame => if frameHop rts frame = some ip then some (.deliver (.ofMem (memOf frame) 0) o) else none
  | .send (.hostUnreachable _ _) _ frame =>
    if frameHop rts frame = some ip then some (.notify (.ofMem (memOf frame) 0)) else none
  | .fail r _ => if r.ip = ip then some (.giveUp r.origins) else none
  | _ => none

def outputs (rts : List SrRt) (ip : UInt32) (acts : List Act) : List (Resolution.Output Mac Origin) :=
  acts.filterMap (Act.output rts ip)

@[simp] theorem outputs_append (rts : List SrRt) (ip : UInt32) (as bs : List Act) :
    outputs rts ip (as ++ bs) = outputs rts ip as ++ outputs rts ip bs :=
  List.filterMap_append

theorem outputs_cons (rts : List SrRt) (ip : UInt32) (a : Act) (as : List Act) :
    outputs rts ip (a :: as) = (a.output rts ip).toList ++ outputs rts ip as := by
  unfold outputs
  cases ha : a.output rts ip with
  | none => exact List.filterMap_cons_none ha
  | some o => exact List.filterMap_cons_some ha

theorem outputs_singleton (rts : List SrRt) (ip : UInt32) (a : Act) : outputs rts ip [a] = (a.output rts ip).toList := by
  rw [outputs_cons]
  exact List.append_nil _

theorem inputs_snoc (ifs : List SrIf) (rts : List SrRt) (ip : UInt32) (es : List Event) (e : Event) :
    inputs ifs rts ip (es ++ [e]) = inputs ifs rts ip es ++ [e.input ifs rts ip es.length] := by
  simp [inputs, List.zipIdx_append]

variable {ifs : List SrIf} {rts : List SrRt} {n : Nat} {sr : SrInstance} {ip : UInt32}

theorem view_asking {c : SrArpcache} {r : SrArpreq} (h : findReq ip c.requests = some r) :
    c.view ip = .asking ⟨r.sent, r.timesSent, r.origins⟩ := by
  rw [SrArpcache.view, h]

theorem view_settled {c : SrArpcache} (h : findReq ip c.requests = none) : c.view ip = .settled (c.entries.facts ip) := by
  rw [SrArpcache.view, h]

/-- A cache that differs in other addresses only looks the same. -/
theorem view_congr {c c' : SrArpcache} (hreq : findReq ip c'.requests = findReq ip c.requests)
    (hfacts : c'.entries.facts ip = c.entries.facts ip) : c'.view ip = c.view ip := by
  unfold SrArpcache.view
  rw [hreq, hfacts]

/-! ## What is known -/

section Facts
variable {t : ArpTable}

theorem facts_empty (h : ∀ e ∈ t.slots, e.valid = true → e.ip ≠ ip) : t.facts ip = ∅ := by
  apply Set.eq_empty_of_forall_notMem
  rintro f ⟨e, he, ⟨hv, hip⟩, -⟩
  exact h e he hv hip

/-- Where an address is asked for, nothing is known of it. -/
theorem facts_pending (hw : Wf ifs rts n sr) {r : SrArpreq} (h : findReq ip sr.cache.requests = some r) :
    sr.cache.entries.facts ip = ∅ := by
  obtain ⟨hr, rfl⟩ := findReq_some h
  exact facts_empty (hw.apart r hr)

/-- The free slot holds no fact, so filling it takes none away. -/
theorem facts_set (hfree : freeSlot t ≠ arpcacheSz) (new : SrArpentry) :
    (t.set (freeSlot t) new).facts ip = {f | new.Answers ip ∧ (new.mac, new.added) = f} ∪ t.facts ip := by
  apply Set.ext
  intro f
  constructor
  · rintro ⟨e, he, ha, hf⟩
    rcases List.mem_or_eq_of_mem_set he with he | rfl
    · exact .inr ⟨e, he, ha, hf⟩
    · exact .inl ⟨ha, hf⟩
  · rintro (⟨ha, hf⟩ | ⟨e, he, ha, hf⟩)
    · refine ⟨new, List.mem_of_getElem? (i := freeSlot t) ?_, ha, hf⟩
      rw [ArpTable.set, List.getElem?_set_self (freeSlot_lt hfree)]
    · obtain ⟨j, hj⟩ := List.mem_iff_getElem?.1 he
      refine ⟨e, List.mem_of_getElem? (i := j) ?_, ha, hf⟩
      by_cases hk : freeSlot t = j
      · subst hk
        exact absurd ha (freeSlot_free hj)
      · rw [ArpTable.set, List.getElem?_set_ne hk, hj]

/-- A reply from `ip` adds a fact about it, if there is room. -/
theorem facts_learn (now : Int) (c : SrArpcache) (mac : Mac) :
    (srArpcacheInsert now c mac ip).1.entries.facts ip = c.entries.facts ip ∨
      (srArpcacheInsert now c mac ip).1.entries.facts ip = insert (mac, now) (c.entries.facts ip) := by
  by_cases hfree : freeSlot c.entries = arpcacheSz
  · left
    rw [srArpcacheInsert, if_neg (not_not.2 hfree)]
  · right
    rw [srArpcacheInsert, if_pos hfree, facts_set hfree, Set.insert_eq]
    congr 1
    apply Set.ext
    intro f
    exact ⟨fun h => h.2.symm, fun h => ⟨⟨rfl, rfl⟩, h.symm⟩⟩

/-- Other replies say nothing of it. -/
theorem facts_learn_other (now : Int) (c : SrArpcache) (mac : Mac) {sip : UInt32} (hne : sip ≠ ip) :
    (srArpcacheInsert now c mac sip).1.entries.facts ip = c.entries.facts ip := by
  by_cases hfree : freeSlot c.entries = arpcacheSz
  · rw [srArpcacheInsert, if_neg (not_not.2 hfree)]
  · rw [srArpcacheInsert, if_pos hfree, facts_set hfree]
    apply Set.union_eq_self_of_subset_left
    rintro f ⟨ha, -⟩
    exact absurd ha.2 hne

/-- A sweep forgets what is more than fifteen seconds old. -/
theorem facts_expire (now : Int) : (expireEntries now t).facts ip = {f ∈ t.facts ip | now - f.2 ≤ arpcacheTo} := by
  apply Set.ext
  intro f
  constructor
  · rintro ⟨e, he, ha, rfl⟩
    obtain ⟨he, hage⟩ := expire_entry he ha.1
    exact ⟨⟨e, he, ha, rfl⟩, hage⟩
  · rintro ⟨⟨e, he, ha, rfl⟩, hage⟩
    refine ⟨e, List.mem_map.2 ⟨e, he, ?_⟩, ha, rfl⟩
    have hkeep : ¬ (e.valid ∧ now - e.added > arpcacheTo) := fun h => Int.not_lt.2 hage h.2
    rw [if_neg hkeep]

end Facts

/-! ## What is said -/

section Said

theorem frameHop_setEth {bs : List UInt8} (h : 14 ≤ bs.length) (dhost : Option Mac) (shost : Mac) :
    frameHop rts (setEth dhost shost bs) = frameHop rts bs := by
  have hdst : ipDst (memOf (setEth dhost shost bs)) = ipDst (memOf bs) :=
    Mem.u32_congr fun k _ => memOf_setEth _ _ h (by omega)
  rw [frameHop, frameHop, hdst]

/-- A packet is for the next hop it is put out for. -/
theorem frameHop_plan {env : Env} {packet : Buf} {interface : IfName} {built : List Act} {d : Delivery}
    (hp : plan ifs rts env packet interface = .output built d) (dhost : Option Mac) (shost : Mac) :
    frameHop rts (setEth dhost shost d.frame) = some d.nextHop := by
  obtain ⟨h34, -, rt, hrt, -, hhop⟩ := plan_routed hp
  rw [frameHop_setEth (by omega), frameHop, hrt, Option.map_some, hhop]

/-- A packet that waits is for the next hop it waits for. -/
theorem frameHop_queued {es : List Event} {pkt : SrPacket} {hop : UInt32} (h : CameFrom ifs rts es pkt hop)
    (dhost : Option Mac) (shost : Mac) : frameHop rts (setEth dhost shost pkt.buf) = some hop := by
  obtain ⟨e, d, -, hd, rfl, rfl⟩ := h
  obtain ⟨built, bytes, past, heap, iface, now, -, hp⟩ := delivers_plan hd
  obtain ⟨h34, -⟩ := plan_routed hp
  rw [frameHop_setEth (by rw [Delivery.packet, length_setEth _ _ (by omega)]; omega)]
  exact frameHop_plan hp none d.iface.addr

theorem outputs_built {env : Env} {packet : Buf} {interface : IfName} {built : List Act} {d : Delivery}
    (hp : plan ifs rts env packet interface = .output built d) : outputs rts ip built = [] := by
  apply List.filterMap_eq_nil_iff.2
  intro a ha
  rw [mem_built hp ha]
  rfl

/-- What a delivery says that is sent at once. -/
theorem output_direct {env : Env} {packet : Buf} {interface : IfName} {built : List Act} {d : Delivery}
    (hp : plan ifs rts env packet interface = .output built d) (mac : Mac) :
    Act.output rts ip (.send (.direct d.origin) d.iface.name (d.sent mac)) =
      if d.nextHop = ip then some (.deliver mac d.origin) else none := by
  rw [Act.output, Delivery.sent, frameHop_plan hp, dhost_setEth]
  simp only [Option.some.injEq]

theorem output_arpRequest (p : Nat) (now : Int) (name : IfName) (heap : Mem) (i : SrIf) (tip : UInt32) :
    Act.output rts ip (.send (.arpRequest p now) name (arpRequestFrame heap i tip)) =
      if tip = ip then some (.ask now) else none := by
  obtain ⟨-, -, htip⟩ := arpRequestFrame_fields heap i tip
  rw [Act.output, htip]

/-- The flush loop delivers the packets of a request to the address it is about. -/
theorem outputs_flush {es : List Event} (mac : Mac) {hop : UInt32} {pkts : List SrPacket}
    (hfrom : ∀ pkt ∈ pkts, CameFrom ifs rts es pkt hop) (hi : ∀ pkt ∈ pkts, ∃ i, srGetInterface ifs pkt.iface = some i) :
    outputs rts ip (flushActs ifs mac pkts) = if hop = ip then pkts.map (fun pkt => .deliver mac pkt.origin) else [] := by
  induction pkts with
  | nil => exact (ite_self _).symm
  | cons pkt pkts ih =>
    obtain ⟨i, hpi⟩ := hi pkt List.mem_cons_self
    have hflush : flushActs ifs mac (pkt :: pkts) =
        .send (.flushed pkt.origin) pkt.iface (setEth (some mac) i.addr pkt.buf) :: flushActs ifs mac pkts := by
      rw [flushActs, List.flatMap_cons, hpi]
      rfl
    have hout : Act.output rts ip (.send (.flushed pkt.origin) pkt.iface (setEth (some mac) i.addr pkt.buf)) =
        if hop = ip then some (.deliver mac pkt.origin) else none := by
      rw [Act.output, frameHop_queued (hfrom pkt List.mem_cons_self), dhost_setEth]
      simp only [Option.some.injEq]
    have htail := ih (fun p hp => hfrom p (List.mem_cons_of_mem _ hp)) fun p hp => hi p (List.mem_cons_of_mem _ hp)
    rw [hflush, outputs_cons, hout, htail]
    by_cases hhop : hop = ip
    · rw [if_pos hhop, if_pos hhop, if_pos hhop]
      rfl
    · rw [if_neg hhop, if_neg hhop, if_neg hhop]
      rfl

variable {entries : ArpTable} {env : SweepEnv}

/-- An error about a packet goes to a hardware address that is known. -/
theorem output_unreach {req : Nat} {pkt : SrPacket} {a : Act} (ha : a ∈ unreachActs ifs rts entries env req pkt)
    {o : Resolution.Output Mac Origin} (ho : a.output rts ip = some o) : ∃ f ∈ entries.facts ip, o = .notify f.1 := by
  obtain ⟨i, -, rfl | ha⟩ := mem_unreachActs ha
  · cases ho
  · obtain ⟨best, j, e, hbest, -, he, rfl⟩ := mem_unreachSend ha
    have hhop : frameHop rts (unreachError env i pkt).bytes =
        some (nextHop best ((Buf.ofBytes pkt.buf (env.past pkt.origin.seq)).mem.u32 26)) := by
      rw [unreachError, frameHop, ipDst_unreachBuf, hbest, Option.map_some]
    rw [Act.output, frameHop_setEth (by simp [unreachError]), hhop, dhost_setEth] at ho
    split at ho
    · rename_i hip
      rcases lookupLoop_some he with hnone | ⟨hmem, hv, heip⟩
      · cases hnone
      · exact ⟨(e.mac, e.added), ⟨e, hmem, ⟨hv, heip.trans (Option.some.inj hip)⟩, rfl⟩, (Option.some.inj ho).symm⟩
    · cases ho

/-- About an address nobody asks for, a sweep says no more than that. -/
theorem outputs_sweep {k : Nat} {reqs : List SrArpreq} (hne : ∀ r ∈ reqs, r.ip ≠ ip) {o : Resolution.Output Mac Origin}
    (ho : o ∈ outputs rts ip (sweepActs ifs rts entries env k reqs)) : ∃ f ∈ entries.facts ip, o = .notify f.1 := by
  obtain ⟨a, ha, ho⟩ := List.mem_filterMap.1 ho
  obtain ⟨r, hr, now, ha, -⟩ := mem_sweepActs ha
  rcases mem_sweepOneActs ha with ⟨-, ⟨-, rfl | ⟨pkt, -, ha⟩⟩ | ⟨-, pkt, -, i, -, rfl⟩⟩
  · rw [Act.output, if_neg (hne r hr)] at ho
    cases ho
  · exact output_unreach ha ho
  · rw [output_arpRequest, if_neg (hne r hr)] at ho
    cases ho

/-- What becomes of a request that is looked at, and what is said of it. -/
theorem outputs_sweepOne {r : SrArpreq} (hne : r.packets ≠ []) (hi : ∀ pkt ∈ r.packets, ∃ i, srGetInterface ifs pkt.iface = some i)
    (hfacts : entries.facts r.ip = ∅) (now : Int) : outputs rts r.ip (sweepOneActs ifs rts entries env now r) =
      if now - r.sent ≥ 1 then if r.timesSent ≥ 5 then [.giveUp r.origins] else [.ask now] else [] := by
  unfold sweepOneActs
  split
  · split
    · have hsilent : outputs rts r.ip (r.packets.flatMap (unreachActs ifs rts entries env r.ptr)) = [] := by
        apply List.filterMap_eq_nil_iff.2
        intro a ha
        obtain ⟨pkt, -, ha⟩ := List.mem_flatMap.1 ha
        cases ho : a.output rts r.ip with
        | none => rfl
        | some o =>
          obtain ⟨f, hf, -⟩ := output_unreach ha ho
          rw [hfacts] at hf
          cases hf
      rw [outputs_append, hsilent, List.nil_append, outputs_singleton, Act.output, if_pos rfl]
      rfl
    · unfold retryActs
      cases hp : r.packets with
      | nil => exact absurd hp hne
      | cons pkt pkts =>
        obtain ⟨i, hpi⟩ := hi pkt (hp ▸ List.mem_cons_self)
        simp only [hpi]
        rw [outputs_singleton, output_arpRequest, if_pos rfl]
        rfl
  · rfl

end Said

/-! ## The queue, seen from one address -/

section Queue
variable {reqs : List SrArpreq}

theorem findReq_absent (h : ∀ r ∈ reqs, r.ip ≠ ip) : findReq ip reqs = none := by
  apply List.find?_eq_none.2
  intro r hr
  simpa using h r hr

/-- A request that is taken off was for another address. -/
theorem findReq_erase {sip : UInt32} (hne : sip ≠ ip) : findReq ip (reqs.eraseP fun r => r.ip = sip) = findReq ip reqs := by
  induction reqs with
  | nil => rfl
  | cons r rs ih =>
    by_cases hr : r.ip = sip
    · have hother : ¬ r.ip = ip := fun h => hne (hr.symm.trans h)
      rw [List.eraseP_cons_of_pos (by simpa using hr), findReq, findReq, List.find?_cons_of_neg (by simpa using hother)]
    · rw [List.eraseP_cons_of_neg (by simpa using hr)]
      unfold findReq at ih ⊢
      rw [List.find?_cons, List.find?_cons, ih]

theorem findReq_updReq (p : Nat) (pkt : SrPacket) : findReq ip (updReq p (.push pkt) reqs) =
    (findReq ip reqs).map fun q => if q.ptr = p then q.push pkt else q := by
  have hkeep : (fun q : SrArpreq => decide (q.ip = ip)) ∘ (fun q : SrArpreq => if q.ptr = p then q.push pkt else q) =
      fun q => decide (q.ip = ip) := by
    funext q
    rw [Function.comp_apply]
    split <;> rfl
  rw [findReq, updReq, List.find?_map, hkeep]
  rfl

/-- A packet joins the request for its address. -/
theorem findReq_push {r : SrArpreq} (hr : findReq ip reqs = some r) (pkt : SrPacket) :
    findReq ip (updReq r.ptr (.push pkt) reqs) = some (r.push pkt) := by
  rw [findReq_updReq, hr, Option.map_some, if_pos rfl]

/-- It leaves the others as they are. -/
theorem findReq_push_other (hptr : (reqs.map (·.ptr)).Nodup) {r : SrArpreq} (hr : r ∈ reqs) (hne : r.ip ≠ ip)
    (pkt : SrPacket) : findReq ip (updReq r.ptr (.push pkt) reqs) = findReq ip reqs := by
  rw [findReq_updReq]
  cases hq : findReq ip reqs with
  | none => rfl
  | some q =>
    obtain ⟨hqm, hqip⟩ := findReq_some hq
    have hother : ¬ q.ptr = r.ptr := fun h => hne (eq_of_ptr hptr hqm hr h ▸ hqip)
    rw [Option.map_some, if_neg hother]

/-- A sweep asks for no address that was not asked for. -/
theorem findReq_sweep (h : ∀ r ∈ reqs, r.ip ≠ ip) (clock : Nat → Int) (k : Nat) : findReq ip (sweepList clock k reqs) = none := by
  apply findReq_absent
  intro q hq
  obtain ⟨r, hr, -, hip, -⟩ := mem_of_keys (sweepList_keys clock k reqs) hq
  exact hip ▸ h r hr

/-- A sweep looks at the request for an address once, at some reading of the
clock, and only what it does then says anything. -/
theorem sweep_pending (hip : (reqs.map (·.ip)).Nodup) {r : SrArpreq} (hr : findReq ip reqs = some r) {entries : ArpTable}
    {env : SweepEnv} (hfacts : entries.facts ip = ∅) : ∃ k,
      findReq ip (sweepList env.clock 0 reqs) = sweepOne (env.clock (k + 1)) r ∧
      outputs rts ip (sweepActs ifs rts entries env 0 reqs) =
        outputs rts ip (sweepOneActs ifs rts entries env (env.clock (k + 1)) r) := by
  obtain ⟨as, bs, hsplit, -, herase⟩ := findReq_split hr
  have hne : ∀ q ∈ as ++ bs, q.ip ≠ ip := herase ▸ ip_ne_of_erased hip
  have ha : ∀ q ∈ as, q.ip ≠ ip := fun q hq => hne q (List.mem_append_left _ hq)
  have hb : ∀ q ∈ bs, q.ip ≠ ip := fun q hq => hne q (List.mem_append_right _ hq)
  have hsilent : ∀ k {qs : List SrArpreq}, (∀ q ∈ qs, q.ip ≠ ip) → outputs rts ip (sweepActs ifs rts entries env k qs) = [] := by
    intro k qs hqs
    apply List.eq_nil_iff_forall_not_mem.2
    intro o ho
    obtain ⟨f, hf, -⟩ := outputs_sweep hqs ho
    rw [hfacts] at hf
    cases hf
  have hstay : ∀ now q, sweepOne now r = some q → q.ip = ip := by
    intro now q hq
    rcases sweepOne_some hq with ⟨rfl, -⟩ | ⟨rfl, -⟩
    · exact (findReq_some hr).2
    · exact (findReq_some hr).2
  refine ⟨as.length, ?_, ?_⟩
  · rw [hsplit, sweepList_append, sweepList, findReq, List.find?_append]
    have hnone := findReq_sweep ha env.clock 0
    unfold findReq at hnone
    rw [hnone, Option.none_or, Nat.zero_add, List.find?_append]
    cases hone : sweepOne (env.clock (as.length + 1)) r with
    | none => exact findReq_sweep hb env.clock _
    | some q => simp [hstay _ q hone]
  · rw [hsplit, sweepActs_append, sweepActs, outputs_append, outputs_append, hsilent _ ha, hsilent _ hb, List.nil_append,
      List.append_nil, Nat.zero_add]

end Queue

/-! ## One step -/

section Step
variable {es : List Event} {bytes : List UInt8} {past heap : Mem} {iface : IfName} {now : Int}

/-- A frame that is neither a reply nor put out is nothing to the sender. -/
theorem input_pass (hn : delivers ifs rts n (.frame bytes past heap iface now) = none)
    (hl : ∀ mac sip, plan ifs rts ⟨n, now, heap⟩ (.ofBytes bytes past) iface ≠ .learn mac sip) :
    Event.input ifs rts ip n (.frame bytes past heap iface now) = .pass := by
  rw [delivers] at hn
  cases hp : plan ifs rts ⟨n, now, heap⟩ (.ofBytes bytes past) iface with
  | learn mac sip => exact absurd hp (hl mac sip)
  | output built d =>
    rw [hp] at hn
    cases hn
  | _ => rw [Event.input, hp]

theorem input_output {built : List Act} {d : Delivery}
    (hp : plan ifs rts ⟨n, now, heap⟩ (.ofBytes bytes past) iface = .output built d) :
    Event.input ifs rts ip n (.frame bytes past heap iface now) = if d.nextHop = ip then .offer d.origin now else .pass := by
  rw [Event.input, hp]

/-- A reply from `ip` releases what waits for it, or is put down; others pass. -/
theorem learn_resolves (hw : Wf ifs rts n sr) (hq : Queued ifs rts es sr) (mac : Mac) (sip : UInt32) (now : Int) :
    Resolution.Step 5 1 arpcacheTo (sr.cache.view ip) (if sip = ip then .answer mac now else .pass)
      ((srArpcacheInsert now sr.cache mac sip).1.view ip)
      (outputs rts ip ((findReq sip sr.cache.requests).elim [] fun r => flushActs ifs mac r.packets)) := by
  have hflush : ∀ r, findReq sip sr.cache.requests = some r → outputs rts ip (flushActs ifs mac r.packets) =
      if sip = ip then r.packets.map (fun pkt => .deliver mac pkt.origin) else [] := by
    intro r hr
    obtain ⟨hmem, rfl⟩ := findReq_some hr
    exact outputs_flush mac (hq r hmem) fun pkt hp => (hw.packet r hmem pkt hp).1
  by_cases hip : sip = ip
  · subst hip
    have hgone : findReq sip (srArpcacheInsert now sr.cache mac sip).1.requests = none :=
      findReq_absent (ip_ne_of_erased hw.ip)
    rw [if_pos rfl, view_settled hgone]
    cases hr : findReq sip sr.cache.requests with
    | none =>
      rw [view_settled hr]
      exact .learn (facts_learn now sr.cache mac)
    | some r =>
      have hfacts : (srArpcacheInsert now sr.cache mac sip).1.entries.facts sip ⊆ {(mac, now)} := by
        rcases @facts_learn sip now sr.cache mac with h | h
        · rw [h, facts_pending hw hr]
          exact Set.empty_subset _
        · rw [h, facts_pending hw hr, insert_empty_eq]
      have hwaiting : r.packets.map (fun pkt => Resolution.Output.deliver mac pkt.origin) = r.origins.map (.deliver mac) :=
        List.map_map.symm
      rw [view_asking hr, Option.elim_some, hflush r hr, if_pos rfl, hwaiting]
      exact .release hfacts
  · have hview : (srArpcacheInsert now sr.cache mac sip).1.view ip = sr.cache.view ip :=
      view_congr (findReq_erase hip) (facts_learn_other now sr.cache mac hip)
    have hsilent : outputs rts ip ((findReq sip sr.cache.requests).elim [] fun r => flushActs ifs mac r.packets) = [] := by
      cases hr : findReq sip sr.cache.requests with
      | none => rfl
      | some r => rw [Option.elim_some, hflush r hr, if_neg hip]
    rw [if_neg hip, hview, hsilent]
    exact .pass

/-- What is put out for `ip` is sent, waits, or is asked for; the rest passes. -/
theorem output_resolves (hw : Wf ifs rts n sr) {sr' : SrInstance} {acts : List Act}
    (hs : StepsTo ifs rts n sr (.frame bytes past heap iface now) sr' acts)
    (hl : ∀ mac sip, plan ifs rts ⟨n, now, heap⟩ (.ofBytes bytes past) iface ≠ .learn mac sip) :
    Resolution.Step 5 1 arpcacheTo (sr.cache.view ip) (Event.input ifs rts ip n (.frame bytes past heap iface now))
      (sr'.cache.view ip) (outputs rts ip acts) := by
  cases hs with
  | quiet hn =>
    rw [input_pass hn hl]
    exact .pass
  | crash hn =>
    rw [input_pass hn hl]
    exact .pass
  | refused hn =>
    rw [input_pass hn hl]
    exact .pass
  | arpReply hn =>
    rw [input_pass hn hl]
    exact .pass
  | echo hn =>
    rw [input_pass hn hl]
    exact .pass
  | learn hn h => exact absurd (plan_learn h past) (hl _ _)
  | @hit _ _ _ _ _ built d e hp he =>
    rw [input_output hp, outputs_append, outputs_built hp, outputs_singleton, output_direct hp]
    by_cases hip : d.nextHop = ip
    · subst hip
      obtain ⟨hmem, hv, heip⟩ := lookup_some he
      have hnone : findReq d.nextHop sr.cache.requests = none :=
        findReq_absent fun r hr h => hw.apart r hr e hmem hv (heip.trans h.symm)
      rw [if_pos rfl, if_pos rfl, view_settled hnone]
      exact .send (f := (e.mac, e.added)) ⟨e, hmem, ⟨hv, heip⟩, rfl⟩
    · rw [if_neg hip, if_neg hip]
      exact .pass
  | @join _ _ _ _ _ built d r hp he hr =>
    obtain ⟨hmem, hrip⟩ := findReq_some hr
    rw [input_output hp, outputs_built hp]
    by_cases hip : d.nextHop = ip
    · subst hip
      have hview : (sr.updReq r.ptr (.push d.packet)).cache.view d.nextHop = .asking _ :=
        view_asking (findReq_push hr d.packet)
      rw [if_pos rfl, view_asking hr, hview]
      exact .wait
    · have hview : (sr.updReq r.ptr (.push d.packet)).cache.view ip = sr.cache.view ip :=
        view_congr (findReq_push_other hw.ptr hmem (fun h => hip (hrip.symm.trans h)) d.packet) rfl
      rw [if_neg hip, hview]
      exact .pass
  | @fresh _ _ heap _ now built d hp he hr =>
    rw [input_output hp, outputs_append, outputs_built hp, outputs_singleton, output_arpRequest]
    by_cases hip : d.nextHop = ip
    · subst hip
      have hview : (sr.setRequests (⟨n, d.nextHop, now, 1, [d.packet]⟩ :: sr.cache.requests)).cache.view d.nextHop =
          .asking _ := view_asking (List.find?_cons_of_pos (by simp))
      rw [if_pos rfl, if_pos rfl, view_settled hr, facts_empty (lookup_none he), hview]
      exact .ask
    · have hview : (sr.setRequests (⟨n, d.nextHop, now, 1, [d.packet]⟩ :: sr.cache.requests)).cache.view ip =
          sr.cache.view ip := view_congr (List.find?_cons_of_neg (by simpa using hip)) rfl
      rw [if_neg hip, if_neg hip, hview]
      exact .pass

/-- A sweep is a tick to every sender: the clock is read once for the facts, and
once for each request. -/
theorem sweep_resolves (hw : Wf ifs rts n sr) (env : SweepEnv) :
    Resolution.Step 5 1 arpcacheTo (sr.cache.view ip) (.tick env.clock)
      (SrArpcache.view ⟨expireEntries (env.clock 0) sr.cache.entries, sweepList env.clock 0 sr.cache.requests⟩ ip)
      (outputs rts ip (sweepActs ifs rts (expireEntries (env.clock 0) sr.cache.entries) env 0 sr.cache.requests)) := by
  cases hr : findReq ip sr.cache.requests with
  | none =>
    have hgone : findReq ip (sweepList env.clock 0 sr.cache.requests) = none := findReq_sweep (findReq_none hr) env.clock 0
    rw [view_settled hr, view_settled hgone, facts_expire]
    refine .age fun o ho => ?_
    obtain ⟨f, hf, rfl⟩ := outputs_sweep (findReq_none hr) ho
    rw [facts_expire] at hf
    exact ⟨f, hf.1, hf.2, rfl⟩
  | some r =>
    obtain ⟨hmem, rfl⟩ := findReq_some hr
    have hfacts : (expireEntries (env.clock 0) sr.cache.entries).facts r.ip = ∅ := by
      rw [facts_expire, facts_pending hw hr]
      exact Set.sep_empty _
    obtain ⟨k, hafter, hsaid⟩ := @sweep_pending ifs rts _ _ hw.ip r hr _ env hfacts
    rw [view_asking hr, hsaid, outputs_sweepOne (hw.nonempty r hmem) (fun pkt hp => (hw.packet r hmem pkt hp).1) hfacts]
    by_cases hdue : env.clock (k + 1) - r.sent ≥ 1
    · have hpast : r.sent + 1 ≤ env.clock (k + 1) := by omega
      rw [if_pos hdue]
      by_cases h5 : r.timesSent ≥ 5
      · rw [sweepOne, if_pos hdue, if_pos h5] at hafter
        rw [view_settled hafter, hfacts, if_pos h5]
        exact .giveUp hpast h5
      · rw [sweepOne, if_pos hdue, if_neg h5] at hafter
        rw [view_asking hafter, if_neg h5]
        exact .again hpast (Nat.lt_of_not_le h5)
    · have hsoon : env.clock (k + 1) < r.sent + 1 := by omega
      rw [sweepOne, if_neg hdue] at hafter
      rw [view_asking hafter, if_neg hdue]
      exact .early hsoon

/-- To the sender for an address, what the router does is a step of its own. -/
theorem step_resolves (hw : Wf ifs rts es.length sr) (hc : Counted sr) (hq : Queued ifs rts es sr) (e : Event) :
    Resolution.Step 5 1 arpcacheTo (sr.cache.view ip) (e.input ifs rts ip es.length)
      ((stepRes es.length sr e).st.cache.view ip) (outputs rts ip (stepRes es.length sr e).acts) := by
  cases e with
  | sweep env =>
    obtain ⟨hst, hacts⟩ := srArpcacheTimeout_spec env sr hw.ptr
    rw [hw.ifList, hw.routes] at hacts
    rw [stepRes, hst, hacts]
    exact sweep_resolves hw env
  | frame bytes past heap iface now =>
    by_cases hl : ∃ mac sip, plan ifs rts ⟨es.length, now, heap⟩ (.ofBytes bytes past) iface = .learn mac sip
    · obtain ⟨mac, sip, hp⟩ := hl
      obtain ⟨hst, hacts⟩ := srHandlepacket_learn hw hp
      rw [stepRes, hst, hacts, Event.input, hp]
      exact learn_resolves hw hq mac sip now
    · exact output_resolves hw (frame_cases hw hc bytes past heap iface now) fun mac sip hp => hl ⟨mac, sip, hp⟩

end Step

/-! ## Every run -/

/-- In every run the router is, for every address, a sender that asks at most
five times, a second or more apart, and believes an answer for fifteen seconds. -/
theorem run_resolves (ifs : List SrIf) (rts : List SrRt) (ip : UInt32) (es : List Event) :
    Resolution.Run 5 1 arpcacheTo (inputs ifs rts ip es) (((router ifs rts).state es).cache.view ip)
      (outputs rts ip ((router ifs rts).trace es)) := by
  refine (router ifs rts).induct (I := fun es sr acts =>
    Resolution.Run 5 1 arpcacheTo (inputs ifs rts ip es) (sr.cache.view ip) (outputs rts ip acts)) ?_ ?_ es
  · have hinit : (router ifs rts).init.cache.view ip = .settled ∅ := by
      rw [view_settled rfl, facts_empty]
      intro e he hv
      rw [init_entry he] at hv
      cases hv
    rw [hinit]
    exact .nil
  · intro es e h
    obtain ⟨hw, hc⟩ := reachable ifs rts es
    rw [inputs_snoc, outputs_append]
    exact .snoc h (step_resolves hw hc (run_queued ifs rts es) e)

/-- What the router says to an address and about it, in every run: it sends only
while it does not ask, asks again only after a second and five times at most,
and gives up only after the fifth. The cache is where that has led to. -/
theorem conversation_follows (ifs : List SrIf) (rts : List SrRt) (ip : UInt32) (es : List Event) :
    (outputs rts ip ((router ifs rts).trace es)).foldlM (Resolution.talk 5 1) .settled =
      some (((router ifs rts).state es).cache.view ip).mode :=
  (run_resolves ifs rts ip es).talk (by decide)

end SimpleRouter
