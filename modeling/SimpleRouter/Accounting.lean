import SimpleRouter.Provenance
import SimpleRouter.Retries
/-!
# No packet is lost and none is sent twice

Three lists account for the packets of a run: what was transmitted, what waits
on a pending request, and what was discarded with a request that was given up.
`run_ledger` says that together they are, up to order, what the received
frames gave the router to put out; each step only moves a packet from one list
to another (`StepsTo.moves`).
-/
open Memory CProg Runs

namespace SimpleRouter

variable {ifs : List SrIf} {rts : List SrRt} {n : Nat} {sr : SrInstance}

/-! ## The three lists -/

/-- The packet a transmission is of. -/
def Act.packetSent : Act → Option Origin
  | .send (.direct o) _ _ => some o
  | .send (.flushed o) _ _ => some o
  | _ => none

def transmitted (acts : List Act) : List Origin := acts.filterMap Act.packetSent

def SrArpreq.origins (r : SrArpreq) : List Origin := r.packets.map (·.origin)

def waiting (reqs : List SrArpreq) : List Origin := reqs.flatMap SrArpreq.origins

/-- The packets freed together with a request that is given up. -/
def Act.discards : Act → List Origin
  | .fail r _ => r.origins
  | _ => []

def discarded (acts : List Act) : List Origin := acts.flatMap Act.discards

/-- The packets that the events give the router to put out. -/
def arrivals (ifs : List SrIf) (rts : List SrRt) (es : List Event) : List Origin :=
  es.zipIdx.flatMap fun ek => (delivers ifs rts ek.2 ek.1).toList.map (·.origin)

@[simp] theorem transmitted_append (as bs : List Act) : transmitted (as ++ bs) = transmitted as ++ transmitted bs :=
  List.filterMap_append

@[simp] theorem discarded_append (as bs : List Act) : discarded (as ++ bs) = discarded as ++ discarded bs :=
  List.flatMap_append

@[simp] theorem waiting_append (as bs : List SrArpreq) : waiting (as ++ bs) = waiting as ++ waiting bs :=
  List.flatMap_append

@[simp] theorem waiting_cons (r : SrArpreq) (rs : List SrArpreq) : waiting (r :: rs) = r.origins ++ waiting rs :=
  List.flatMap_cons

@[simp] theorem waiting_nil : waiting [] = [] := rfl

/-- An action that neither transmits a packet nor discards any. -/
def Act.Neutral (a : Act) : Prop := a.packetSent = none ∧ a.discards = []

theorem neutral_lists {acts : List Act} (h : ∀ a ∈ acts, a.Neutral) : transmitted acts = [] ∧ discarded acts = [] :=
  ⟨List.filterMap_eq_nil_iff.2 fun a ha => (h a ha).1, List.flatMap_eq_nil_iff.2 fun a ha => (h a ha).2⟩

theorem neutral_singleton {a : Act} (h : a.Neutral) : transmitted [a] = [] ∧ discarded [a] = [] :=
  neutral_lists fun _ hb => List.mem_singleton.1 hb ▸ h

theorem arrivals_snoc (es : List Event) (e : Event) :
    arrivals ifs rts (es ++ [e]) = arrivals ifs rts es ++ (delivers ifs rts es.length e).toList.map (·.origin) := by
  simp [arrivals, List.zipIdx_append]

theorem delivers_seq {e : Event} {d : Delivery} (h : delivers ifs rts n e = some d) : d.origin.seq = n := by
  obtain ⟨_, _, _, _, _, _, -, hp⟩ := delivers_plan h
  exact (plan_routed hp).2.1

theorem arrivals_seq {es : List Event} {o : Origin} (h : o ∈ arrivals ifs rts es) : o.seq < es.length := by
  induction es using List.reverseRecOn with
  | nil => cases h
  | append_singleton es e ih =>
    rw [arrivals_snoc] at h
    rw [List.length_append, List.length_singleton]
    rcases List.mem_append.1 h with h | h
    · exact Nat.lt_succ_of_lt (ih h)
    · obtain ⟨d, hd, rfl⟩ := List.mem_map.1 h
      rw [delivers_seq (Option.mem_toList.1 hd)]
      exact Nat.lt_succ_self _

/-- Every delivery arrives exactly once. -/
theorem count_arrivals {es : List Event} {k : Nat} {e : Event} {d : Delivery} (he : es[k]? = some e)
    (hd : delivers ifs rts k e = some d) : (arrivals ifs rts es).count d.origin = 1 := by
  induction es using List.reverseRecOn with
  | nil => cases he
  | append_singleton es f ih =>
    have hseq := delivers_seq hd
    rw [arrivals_snoc, List.count_append]
    rcases getElem?_snoc_cases he with he' | ⟨rfl, rfl⟩
    · have hk : k < es.length := (List.getElem?_eq_some_iff.1 he').1
      have hnot : d.origin ∉ (delivers ifs rts es.length f).toList.map (·.origin) := by
        intro hm
        obtain ⟨d', hd', ho⟩ := List.mem_map.1 hm
        have := delivers_seq (Option.mem_toList.1 hd')
        rw [ho] at this
        omega
      rw [ih he', List.count_eq_zero_of_not_mem hnot]
    · have hnot : d.origin ∉ arrivals ifs rts es := fun hm => by
        have := arrivals_seq hm
        omega
      rw [List.count_eq_zero_of_not_mem hnot, hd]
      simp

/-! ## One step -/

theorem built_neutral {env : Env} {packet : Buf} {interface : IfName} {built : List Act} {d : Delivery}
    (hp : plan ifs rts env packet interface = .output built d) : ∀ a ∈ built, a.Neutral := by
  intro a ha
  rw [mem_built hp ha]
  exact ⟨rfl, rfl⟩

theorem transmitted_flush (mac : Mac) {pkts : List SrPacket}
    (h : ∀ pkt ∈ pkts, ∃ i, srGetInterface ifs pkt.iface = some i) :
    transmitted (flushActs ifs mac pkts) = pkts.map (·.origin) ∧ discarded (flushActs ifs mac pkts) = [] := by
  induction pkts with
  | nil => exact ⟨rfl, rfl⟩
  | cons pkt pkts ih =>
    obtain ⟨i, hi⟩ := h pkt (by simp)
    obtain ⟨ih1, ih2⟩ := ih fun p hp => h p (by simp [hp])
    have e : flushActs ifs mac (pkt :: pkts) =
        [.send (.flushed pkt.origin) pkt.iface (setEth (some mac) i.addr pkt.buf)] ++ flushActs ifs mac pkts := by
      simp [flushActs, hi]
    rw [e, transmitted_append, discarded_append, ih1, ih2]
    exact ⟨rfl, rfl⟩

section Sweep
variable {entries : ArpTable} {env : SweepEnv}

theorem unreachActs_neutral {req : Nat} {pkt : SrPacket} {a : Act} (h : a ∈ unreachActs ifs rts entries env req pkt) :
    a.Neutral := by
  obtain ⟨i, -, rfl | hs⟩ := mem_unreachActs h
  · exact ⟨rfl, rfl⟩
  · obtain ⟨best, j, e, -, -, -, rfl⟩ := mem_unreachSend hs
    exact ⟨rfl, rfl⟩

variable (ifs rts entries env)

/-- The packets of a request stay with it, or are discarded with it. -/
theorem sweepOne_moves (now : Int) (r : SrArpreq) :
    transmitted (sweepOneActs ifs rts entries env now r) = [] ∧
      waiting (sweepOne now r).toList ++ discarded (sweepOneActs ifs rts entries env now r) = r.origins := by
  by_cases hfail : now - r.sent ≥ 1 ∧ r.timesSent ≥ 5
  · have hn : ∀ a ∈ r.packets.flatMap (unreachActs ifs rts entries env r.ptr), a.Neutral := by
      intro a ha
      obtain ⟨pkt, -, ha⟩ := List.mem_flatMap.1 ha
      exact unreachActs_neutral ha
    obtain ⟨h1, h2⟩ := neutral_lists hn
    rw [sweepOne, sweepOneActs, if_pos hfail.1, if_pos hfail.1, if_pos hfail.2, if_pos hfail.2]
    rw [transmitted_append, discarded_append, h1, h2]
    exact ⟨rfl, by simp [discarded, Act.discards]⟩
  · have hn : ∀ a ∈ sweepOneActs ifs rts entries env now r, a.Neutral := by
      intro a ha
      rcases mem_sweepOneActs ha with ⟨hdue, ⟨h5, -⟩ | ⟨-, pkt, -, i, -, rfl⟩⟩
      · exact absurd ⟨hdue, h5⟩ hfail
      · exact ⟨rfl, rfl⟩
    obtain ⟨h1, h2⟩ := neutral_lists hn
    refine ⟨h1, ?_⟩
    rw [h2, List.append_nil]
    cases hs : sweepOne now r with
    | none =>
      unfold sweepOne at hs
      split at hs
      · split at hs
        · exact absurd ⟨‹_›, ‹_›⟩ hfail
        · cases hs
      · cases hs
    | some q => rcases sweepOne_some hs with ⟨rfl, -⟩ | ⟨rfl, -⟩ <;> simp [SrArpreq.origins]

theorem sweep_moves (k : Nat) (reqs : List SrArpreq) :
    transmitted (sweepActs ifs rts entries env k reqs) = [] ∧
      (waiting (sweepList env.clock k reqs) ++ discarded (sweepActs ifs rts entries env k reqs)).Perm (waiting reqs) := by
  induction reqs generalizing k with
  | nil => exact ⟨rfl, List.Perm.refl _⟩
  | cons r rs ih =>
    obtain ⟨h1, h2⟩ := ih (k + 1)
    obtain ⟨h3, h4⟩ := sweepOne_moves ifs rts entries env (env.clock (k + 1)) r
    rw [sweepList, sweepActs, transmitted_append, h1, h3, waiting_append, discarded_append, waiting_cons, ← h4]
    refine ⟨rfl, List.perm_iff_count.2 fun o => ?_⟩
    have hc := h2.count_eq o
    simp only [List.count_append] at hc ⊢
    omega

end Sweep

/-- A step moves packets from list to list; a delivery is one packet more. -/
theorem StepsTo.moves (hw : Wf ifs rts n sr) {e : Event} {sr' : SrInstance} {acts : List Act}
    (hs : StepsTo ifs rts n sr e sr' acts) :
    (transmitted acts ++ waiting sr'.cache.requests ++ discarded acts).Perm
      (waiting sr.cache.requests ++ (delivers ifs rts n e).toList.map (·.origin)) := by
  cases hs with
  | quiet hn => simp [hn, transmitted, discarded]
  | crash hn => simp [hn, neutral_singleton (a := .fault .nullDeref) ⟨rfl, rfl⟩]
  | @refused _ _ _ iface _ frame hn =>
    simp [hn, neutral_singleton (a := .reject (.arpReply n) iface frame) ⟨rfl, rfl⟩]
  | @arpReply _ _ _ iface _ frame hn =>
    simp [hn, neutral_singleton (a := .send (.arpReply n) iface frame) ⟨rfl, rfl⟩]
  | @echo bytes past heap iface _ i hn =>
    simp [hn, neutral_singleton (a := .send (.echoReply n) iface (echoBuf (.ofBytes bytes past) heap i).bytes) ⟨rfl, rfl⟩]
  | @learn _ _ _ _ now mac ip hn =>
    have hreqs : (srArpcacheInsert now sr.cache mac ip).1.requests =
      sr.cache.requests.eraseP (fun r => r.ip = ip) := rfl
    rw [hn, hreqs]
    cases hr : findReq ip sr.cache.requests with
    | none =>
      rw [List.eraseP_of_forall_not (by simpa using findReq_none hr)]
      simp [transmitted, discarded]
    | some r =>
      obtain ⟨as, bs, hsplit, -, herase⟩ := findReq_split hr
      have hk : ∀ pkt ∈ r.packets, ∃ i, srGetInterface ifs pkt.iface = some i :=
        fun pkt hp => (hw.packet r (findReq_some hr).1 pkt hp).1
      obtain ⟨h1, h2⟩ := transmitted_flush mac hk
      rw [herase, hsplit]
      simp only [Option.elim_some, h1, h2, waiting_append, waiting_cons, SrArpreq.origins, List.append_nil,
        Option.toList_none, List.map_nil]
      exact List.perm_append_comm_assoc _ _ _
  | hit hp =>
    obtain ⟨h1, h2⟩ := neutral_lists (built_neutral hp)
    rw [delivers, hp, transmitted_append, discarded_append, h1, h2]
    simp [transmitted, discarded, Act.packetSent, Act.discards, List.perm_iff_count, List.count_cons, Nat.add_comm]
  | join hp he hr =>
    obtain ⟨h1, h2⟩ := neutral_lists (built_neutral hp)
    obtain ⟨as, bs, hsplit, -, -⟩ := findReq_split hr
    have hptr := hw.ptr
    rw [hsplit] at hptr
    rw [delivers, hp, h1, h2, SrInstance.updReq, SrInstance.setRequests, hsplit, updReq_middle hptr]
    simp [SrArpreq.origins, SrArpreq.push, Delivery.packet, List.perm_iff_count, List.count_cons]
    omega
  | @fresh _ _ heap _ now _ d hp =>
    obtain ⟨h1, h2⟩ := neutral_lists (built_neutral hp)
    obtain ⟨h3, h4⟩ := neutral_singleton
      (a := .send (.arpRequest n now) d.iface.name (arpRequestFrame heap d.iface d.nextHop)) ⟨rfl, rfl⟩
    rw [delivers, hp, transmitted_append, discarded_append, h1, h2, h3, h4, SrInstance.setRequests, waiting_cons]
    simp [SrArpreq.origins, Delivery.packet, List.perm_iff_count, List.count_cons, Nat.add_comm]
  | @sweep env =>
    obtain ⟨h1, h2⟩ := sweep_moves ifs rts (expireEntries (env.clock 0) sr.cache.entries) env 0 sr.cache.requests
    simpa [h1, delivers] using h2

/-! ## Every run -/

/-- The three lists together are what has arrived. -/
theorem run_ledger (ifs : List SrIf) (rts : List SrRt) (es : List Event) :
    (transmitted ((router ifs rts).trace es) ++ waiting ((router ifs rts).state es).cache.requests ++
      discarded ((router ifs rts).trace es)).Perm (arrivals ifs rts es) := by
  refine (router ifs rts).induct (I := fun es sr acts =>
    (transmitted acts ++ waiting sr.cache.requests ++ discarded acts).Perm (arrivals ifs rts es)) (List.Perm.refl _) ?_ es
  intro es e h
  have hm := (run_step ifs rts es e).moves (reachable ifs rts es).1
  rw [System.state_snoc] at hm
  rw [arrivals_snoc, transmitted_append, discarded_append]
  refine List.perm_iff_count.2 fun o => ?_
  have h1 := h.count_eq o
  have h2 := hm.count_eq o
  simp only [List.count_append] at h1 h2 ⊢
  omega

/-! ## IPv4 frames in and out -/

/-- An IPv4 frame is transmitted. -/
def Act.isIpSend : Act → Bool
  | .send _ _ frame => etherType (memOf frame) = ethertypeIp
  | _ => false

def ipSent (acts : List Act) : Nat := acts.countP Act.isIpSend

/-- An IPv4 frame is received. -/
def Event.isIp : Event → Bool
  | .frame bytes _ _ _ _ => 14 ≤ bytes.length ∧ etherType (memOf bytes) = ethertypeIp
  | .sweep _ => false

def ipReceived (es : List Event) : Nat := es.countP Event.isIp

@[simp] theorem ipSent_append (as bs : List Act) : ipSent (as ++ bs) = ipSent as + ipSent bs := List.countP_append

theorem ipSent_eq_zero {acts : List Act} (h : ∀ a ∈ acts, a.isIpSend = false) : ipSent acts = 0 :=
  List.countP_eq_zero.2 fun a ha => by simp [h a ha]

theorem ipSent_le (acts : List Act) : ipSent acts ≤ acts.length := List.countP_le_length

theorem isIpSend_arp {site : Site} {iface : IfName} {frame : List UInt8}
    (h : etherType (memOf frame) = ethertypeArp) : (Act.send site iface frame).isIpSend = false := by
  have hne : ¬ etherType (memOf frame) = ethertypeIp := by rw [h]; decide
  simp [Act.isIpSend, hne]

/-- Only an IPv4 frame gives the router something to put out. -/
theorem isIp_of_output {env : Env} {bytes : List UInt8} {past heap : Mem} {iface : IfName} {now : Int}
    {interface : IfName} {built : List Act} {d : Delivery}
    (hp : plan ifs rts env (.ofBytes bytes past) interface = .output built d) :
    (Event.frame bytes past heap iface now).isIp = true := by
  obtain ⟨h34, ht, -⟩ := plan_output hp
  rw [Buf.size_ofBytes] at h34
  rw [etherType_ofBytes (by omega)] at ht
  simp only [Event.isIp, ht, decide_eq_true_eq, and_true]
  omega

theorem ipSent_built {env : Env} {packet : Buf} {interface : IfName} {built : List Act} {d : Delivery}
    (hp : plan ifs rts env packet interface = .output built d) : ipSent built = 0 := by
  rcases plan_built hp with rfl | rfl <;> rfl

theorem length_flushActs_le (ifs : List SrIf) (mac : Mac) (pkts : List SrPacket) : (flushActs ifs mac pkts).length ≤ pkts.length := by
  induction pkts with
  | nil => exact Nat.le_refl 0
  | cons pkt pkts ih =>
    rw [flushActs, List.flatMap_cons, ← flushActs, List.length_append, List.length_cons]
    cases srGetInterface ifs pkt.iface with
    | none => simp only [List.length_nil]; omega
    | some i => simp only [List.length_singleton]; omega

section Sweep
variable (ifs : List SrIf) (rts : List SrRt) (entries : ArpTable) (env : SweepEnv)

/-- At most one error is sent about a packet. -/
theorem ipSent_unreachActs (req : Nat) (pkt : SrPacket) : ipSent (unreachActs ifs rts entries env req pkt) ≤ 1 := by
  unfold unreachActs
  cases srGetInterface ifs pkt.iface with
  | none => exact Nat.zero_le 1
  | some i =>
    have h1 : (unreachSend ifs rts entries env req i pkt).length ≤ 1 := by
      simp only [unreachSend]
      split
      · exact Nat.zero_le 1
      · split
        · exact Nat.zero_le 1
        · split
          · exact Nat.zero_le 1
          · exact Nat.le_refl 1
    have h2 := ipSent_le (unreachSend ifs rts entries env req i pkt)
    simp only [ipSent, List.countP_cons, Act.isIpSend] at h2 ⊢
    simp only [Bool.false_eq_true, if_false]
    omega

theorem ipSent_flatMap (pkts : List SrPacket) {f : SrPacket → List Act} (h : ∀ pkt, ipSent (f pkt) ≤ 1) :
    ipSent (pkts.flatMap f) ≤ pkts.length := by
  induction pkts with
  | nil => exact Nat.le_refl 0
  | cons pkt pkts ih =>
    have := h pkt
    rw [List.flatMap_cons, ipSent_append, List.length_cons]
    omega

theorem ipSent_sweepOne (now : Int) (r : SrArpreq) :
    ipSent (sweepOneActs ifs rts entries env now r) + (waiting (sweepOne now r).toList).length ≤ r.origins.length := by
  by_cases hfail : now - r.sent ≥ 1 ∧ r.timesSent ≥ 5
  · have h := ipSent_flatMap r.packets fun pkt => ipSent_unreachActs ifs rts entries env r.ptr pkt
    rw [sweepOne, sweepOneActs, if_pos hfail.1, if_pos hfail.1, if_pos hfail.2, if_pos hfail.2, ipSent_append]
    have hz : ipSent [.fail r now] = 0 := rfl
    simp only [hz, Option.toList_none, waiting_nil, List.length_nil, SrArpreq.origins, List.length_map]
    omega
  · have hz : ipSent (sweepOneActs ifs rts entries env now r) = 0 := by
      refine ipSent_eq_zero fun a ha => ?_
      rcases mem_sweepOneActs ha with ⟨hdue, ⟨h5, -⟩ | ⟨-, pkt, -, i, -, rfl⟩⟩
      · exact absurd ⟨hdue, h5⟩ hfail
      · exact isIpSend_arp (arpRequestFrame_fields _ _ _).1
    have hl := congrArg List.length (sweepOne_moves ifs rts entries env now r).2
    rw [List.length_append] at hl
    omega

theorem ipSent_sweep (k : Nat) (reqs : List SrArpreq) :
    ipSent (sweepActs ifs rts entries env k reqs) + (waiting (sweepList env.clock k reqs)).length ≤
      (waiting reqs).length := by
  induction reqs generalizing k with
  | nil => exact Nat.le_refl 0
  | cons r rs ih =>
    have h1 := ih (k + 1)
    have h2 := ipSent_sweepOne ifs rts entries env (env.clock (k + 1)) r
    rw [sweepActs, sweepList, ipSent_append, waiting_append, waiting_cons, List.length_append, List.length_append]
    omega

end Sweep

/-- No step puts out or queues more IPv4 packets than were waiting or came in. -/
theorem StepsTo.ipSent (hw : Wf ifs rts n sr) {e : Event} {sr' : SrInstance} {acts : List Act}
    (hs : StepsTo ifs rts n sr e sr' acts) :
    ipSent acts + (waiting sr'.cache.requests).length ≤ (waiting sr.cache.requests).length + ipReceived [e] := by
  cases hs with
  | quiet => exact Nat.le_trans (Nat.le_of_eq (Nat.zero_add _)) (Nat.le_add_right _ _)
  | crash => exact Nat.le_trans (Nat.le_of_eq (Nat.zero_add _)) (Nat.le_add_right _ _)
  | refused => exact Nat.le_trans (Nat.le_of_eq (Nat.zero_add _)) (Nat.le_add_right _ _)
  | @arpReply _ _ _ iface _ frame hn ht =>
    have hz : SimpleRouter.ipSent [.send (.arpReply n) iface frame] = 0 :=
      ipSent_eq_zero fun a ha => List.mem_singleton.1 ha ▸ isIpSend_arp ht
    omega
  | @echo bytes past heap iface now i hn hl ht =>
    have h1 := ipSent_le [.send (.echoReply n) iface (echoBuf (.ofBytes bytes past) heap i).bytes]
    have h2 : ipReceived [.frame bytes past heap iface now] = 1 := by
      have h14 : 14 ≤ bytes.length := by omega
      simp [ipReceived, Event.isIp, ht, h14]
    rw [List.length_singleton] at h1
    omega
  | @learn _ _ _ _ now mac ip hn =>
    have hreqs : (srArpcacheInsert now sr.cache mac ip).1.requests =
      sr.cache.requests.eraseP (fun r => r.ip = ip) := rfl
    rw [hreqs]
    cases hr : findReq ip sr.cache.requests with
    | none =>
      rw [List.eraseP_of_forall_not (by simpa using findReq_none hr)]
      exact Nat.le_trans (Nat.le_of_eq (Nat.zero_add _)) (Nat.le_add_right _ _)
    | some r =>
      obtain ⟨as, bs, hsplit, -, herase⟩ := findReq_split hr
      have h1 := length_flushActs_le ifs mac r.packets
      have h2 := ipSent_le (flushActs ifs mac r.packets)
      rw [herase, hsplit]
      simp only [Option.elim_some, waiting_append, waiting_cons, List.length_append, SrArpreq.origins, List.length_map]
      omega
  | @hit bytes past heap iface now built d ent hp =>
    have h1 := ipSent_built hp
    have h2 := ipSent_le [.send (.direct d.origin) d.iface.name (d.sent ent.mac)]
    have h3 : ipReceived [.frame bytes past heap iface now] = 1 := by simp [ipReceived, isIp_of_output hp]
    rw [ipSent_append]
    rw [List.length_singleton] at h2
    omega
  | @join bytes past heap iface now built d r hp he hr =>
    have h1 := ipSent_built hp
    have h3 : ipReceived [.frame bytes past heap iface now] = 1 := by simp [ipReceived, isIp_of_output hp]
    obtain ⟨as, bs, hsplit, -, -⟩ := findReq_split hr
    have hptr := hw.ptr
    rw [hsplit] at hptr
    rw [SrInstance.updReq, SrInstance.setRequests, hsplit, updReq_middle hptr, h1, h3]
    simp only [waiting_append, waiting_cons, List.length_append, SrArpreq.origins, SrArpreq.push, List.length_map,
      List.length_cons]
    omega
  | @fresh bytes past heap iface now built d hp =>
    have h1 := ipSent_built hp
    have h2 : SimpleRouter.ipSent [.send (.arpRequest n now) d.iface.name (arpRequestFrame heap d.iface d.nextHop)] = 0 :=
      ipSent_eq_zero fun a ha => List.mem_singleton.1 ha ▸ isIpSend_arp (arpRequestFrame_fields _ _ _).1
    have h3 : ipReceived [.frame bytes past heap iface now] = 1 := by simp [ipReceived, isIp_of_output hp]
    rw [ipSent_append, h1, h2, h3, SrInstance.setRequests, waiting_cons]
    simp only [List.length_append, SrArpreq.origins, List.length_map, List.length_singleton]
    omega
  | sweep => exact Nat.le_trans (ipSent_sweep ifs rts _ _ 0 sr.cache.requests) (Nat.le_add_right _ _)

theorem run_ipSent (ifs : List SrIf) (rts : List SrRt) (es : List Event) :
    ipSent ((router ifs rts).trace es) + (waiting ((router ifs rts).state es).cache.requests).length ≤
      ipReceived es := by
  refine (router ifs rts).induct (I := fun es sr acts =>
    ipSent acts + (waiting sr.cache.requests).length ≤ ipReceived es) (Nat.le_refl 0) ?_ es
  intro es e h
  have hs := (run_step ifs rts es e).ipSent (reachable ifs rts es).1
  have he : ipReceived (es ++ [e]) = ipReceived es + ipReceived [e] := List.countP_append
  rw [System.state_snoc] at hs
  rw [ipSent_append, he]
  omega

/-! ## Forwardable packets -/

/-- A frame that is to be forwarded: an IPv4 packet for somebody else, with
hops left to live and a route. -/
structure Forwardable (ifs : List SrIf) (rts : List SrRt) (bytes : List UInt8) : Prop where
  size : 34 ≤ bytes.length
  type : etherType (memOf bytes) = ethertypeIp
  notUs : srGetInterfaceByIp ifs (ipDst (memOf bytes)) = none
  ttl : 2 ≤ ipTtl (memOf bytes)
  route : (lpmLookup rts (ipDst (memOf bytes))).isSome

/-- With a verified table, every forwardable packet is put out. -/
theorem Forwardable.delivers (hv : srVerifyRoutingTable ifs rts = 0) {bytes : List UInt8}
    (hf : Forwardable ifs rts bytes) (n : Nat) (past heap : Mem) (iface : IfName) (now : Int) :
    ∃ d, SimpleRouter.delivers ifs rts n (.frame bytes past heap iface now) = some d ∧ d.origin = .forwarded n := by
  obtain ⟨h34, ht, hus, httl, hroute⟩ := hf
  obtain ⟨rt, hrt⟩ := Option.isSome_iff_exists.1 hroute
  obtain ⟨i, hi⟩ := verified_interface hv (lpmLookup_mem hrt)
  have hd : (Buf.ofBytes bytes past).mem.u32 30 = ipDst (memOf bytes) := ofBytes_u32 (by omega)
  have hl : ¬ (Buf.ofBytes bytes past).mem 22 ≤ 1 := by
    rw [ofBytes_mem (by omega), UInt8.le_iff_toNat_le]
    have := UInt8.le_iff_toNat_le.1 httl
    simp only [ipTtl, UInt8.reduceToNat] at this ⊢
    omega
  refine ⟨⟨.forwarded n, nextHop rt (ipDst (memOf bytes)), i, (forwardBuf (.ofBytes bytes past)).bytes⟩, ?_, rfl⟩
  rw [SimpleRouter.delivers, plan_ip ifs rts _ past iface ht (by omega), planIp_bytes ifs rts _ past iface h34, hus]
  simp only [planForward, hd, hl, hrt, hi, if_false, Option.isSome_none, Bool.false_eq_true]

/-- What is put out for a forwarded packet is the packet passed on. -/
theorem delivers_passedOn {bytes : List UInt8} {past heap : Mem} {iface : IfName} {now : Int} {d : Delivery} {k : Nat}
    (h : delivers ifs rts n (.frame bytes past heap iface now) = some d) (ho : d.origin = .forwarded k)
    (dhost : Option Mac) (shost : Mac) : PassedOn bytes (setEth dhost shost d.frame) := by
  obtain ⟨built, hp⟩ := delivers_frame.1 h
  obtain ⟨h34, ht, hf | ⟨orig, type, code, he⟩⟩ := plan_output hp
  · rw [Buf.size_ofBytes] at h34
    rw [etherType_ofBytes (by omega)] at ht
    rw [hf.frame]
    exact (passedOn_forwardBuf (by omega)).setEth (by omega) ht dhost shost
  · rw [he.origin] at ho
    cases ho

/-- A transmission or a queued copy of the packet from event `k` is that packet passed on. -/
theorem sent_cameFrom {es : List Event} {site : Site} {iface : IfName} {frame : List UInt8} {o : Origin}
    (hm : .send site iface frame ∈ (router ifs rts).trace es)
    (ho : (Act.send site iface frame).packetSent = some o) :
    ∃ e d dhost shost, es[o.seq]? = some e ∧ delivers ifs rts o.seq e = some d ∧ d.origin = o ∧
      frame = setEth dhost shost d.frame := by
  obtain ⟨pre, e, post, rfl, ha⟩ := (router ifs rts).mem_trace hm
  cases (run_step ifs rts pre e).sent ha with
  | arpReply => cases ho
  | echo => cases ho
  | @flushed _ _ _ _ _ mac ip r pkt i h hr hp hi =>
    cases ho
    obtain ⟨e', d, he', hd, rfl, -⟩ := run_queued ifs rts pre r (findReq_some hr).1 pkt hp
    obtain ⟨_, _, _, _, _, _, -, hplan⟩ := delivers_plan hd
    have h34 := (plan_routed hplan).1
    refine ⟨e', d, some mac, i.addr, ?_, hd, rfl, setEth_setEth _ _ _ (by omega) _⟩
    rw [List.getElem?_append_left (List.getElem?_eq_some_iff.1 he').1, he']
  | @direct bytes past heap iface now built d ent hp hent =>
    cases ho
    have hseq : d.origin.seq = pre.length := (plan_routed hp).2.1
    refine ⟨.frame bytes past heap iface now, d, some ent.mac, d.iface.addr, ?_, ?_, rfl, rfl⟩
    · rw [hseq, List.getElem?_append_right (Nat.le_refl _)]
      simp
    · rw [hseq, delivers, hp]
  | first => cases ho
  | retry => cases ho
  | unreachable => cases ho

/-! ## Where a packet is -/

/-- A sweep of the run gave up on a request that held `o`, after exactly five
ARP requests for it, and took it off the queue. -/
def GivenUp (ifs : List SrIf) (rts : List SrRt) (es : List Event) (o : Origin) : Prop :=
  ∃ pre env post, es = pre ++ .sweep env :: post ∧
    ∃ r ∈ ((router ifs rts).state pre).cache.requests, o ∈ r.origins ∧
      (requestTimes r.ptr ((router ifs rts).trace pre)).length = 5 ∧
      (∃ t, .fail r t ∈ (router ifs rts).actsAt pre (.sweep env)) ∧
      ∀ q ∈ ((router ifs rts).state (pre ++ [.sweep env])).cache.requests, q.ptr ≠ r.ptr

/-- Only sweeps give up requests. -/
theorem StepsTo.fail_sweep {e : Event} {sr' : SrInstance} {acts : List Act} (hs : StepsTo ifs rts n sr e sr' acts)
    {r : SrArpreq} {t : Int} (hm : .fail r t ∈ acts) :
    ∃ env, e = .sweep env ∧ r ∈ sr.cache.requests ∧ r.timesSent ≥ 5 := by
  obtain ⟨_, _, _, _, _, _, _, -, hp, hb⟩ | ⟨env, rfl, hm⟩ :=
    hs.recorded hm (fun _ _ _ => Act.noConfusion) (fun _ _ _ => Act.noConfusion) (fun _ => Act.noConfusion)
  · cases mem_built hp hb
  · obtain ⟨hr, -, h5⟩ := fail_mem_sweep hm
    exact ⟨env, rfl, hr, h5⟩

theorem discarded_givenUp {es : List Event} {o : Origin} (h : o ∈ discarded ((router ifs rts).trace es)) :
    GivenUp ifs rts es o := by
  obtain ⟨a, ha, ho⟩ := List.mem_flatMap.1 h
  obtain ⟨pre, e, post, rfl, hact⟩ := (router ifs rts).mem_trace ha
  cases a with
  | fail r t =>
    obtain ⟨env, rfl, hr, h5⟩ := (run_step ifs rts pre e).fail_sweep hact
    have hcount := ((reachable ifs rts pre).2 r hr).2
    have hlen := ((run_schedule ifs rts pre).pending r hr).1
    have hgone := (run_schedule ifs rts (pre ++ [.sweep env])).gone r t (by
      rw [System.trace_snoc]
      exact List.mem_append_right _ hact)
    exact ⟨pre, env, post, rfl, r, hr, ho, by omega, ⟨t, hact⟩, hgone.2⟩
  | send => cases ho
  | reject => cases ho
  | build => cases ho
  | fault => cases ho

/-- No loss and no duplication. In every run of a router whose table passed
verification, no more IPv4 frames are transmitted or waiting than came in; and
every forwardable packet has either been transmitted exactly once, or is held
exactly once on exactly one request, or was discarded once by the sweep that
gave up its request after five ARP requests. What is transmitted and what is
held of it is the packet passed on. -/
theorem no_loss_no_duplication (ifs : List SrIf) (rts : List SrRt) (hv : srVerifyRoutingTable ifs rts = 0)
    (es : List Event) :
    ipSent ((router ifs rts).trace es) + (waiting ((router ifs rts).state es).cache.requests).length ≤
      ipReceived es ∧
    ∀ k bytes past heap iface now, es[k]? = some (.frame bytes past heap iface now) → Forwardable ifs rts bytes →
      ((transmitted ((router ifs rts).trace es)).count (.forwarded k) = 1 ∧
          .forwarded k ∉ waiting ((router ifs rts).state es).cache.requests ∧
          .forwarded k ∉ discarded ((router ifs rts).trace es) ∨
        .forwarded k ∉ transmitted ((router ifs rts).trace es) ∧
          (waiting ((router ifs rts).state es).cache.requests).count (.forwarded k) = 1 ∧
          .forwarded k ∉ discarded ((router ifs rts).trace es) ∨
        .forwarded k ∉ transmitted ((router ifs rts).trace es) ∧
          .forwarded k ∉ waiting ((router ifs rts).state es).cache.requests ∧
          (discarded ((router ifs rts).trace es)).count (.forwarded k) = 1 ∧
          GivenUp ifs rts es (.forwarded k)) ∧
      (∀ site iface' frame, .send site iface' frame ∈ (router ifs rts).trace es →
        (Act.send site iface' frame).packetSent = some (.forwarded k) → PassedOn bytes frame) ∧
      ∀ r ∈ ((router ifs rts).state es).cache.requests, ∀ pkt ∈ r.packets, pkt.origin = .forwarded k →
        PassedOn bytes pkt.buf := by
  refine ⟨run_ipSent ifs rts es, fun k bytes past heap iface now he hf => ⟨?_, ?_, ?_⟩⟩
  · obtain ⟨d, hd, ho⟩ := hf.delivers hv k past heap iface now
    have h1 := (run_ledger ifs rts es).count_eq (.forwarded k)
    have h2 := count_arrivals he hd
    rw [ho] at h2
    simp only [← List.count_eq_zero, List.count_append] at h1 ⊢
    rcases Nat.eq_zero_or_pos ((discarded ((router ifs rts).trace es)).count (.forwarded k)) with h0 | h0
    · omega
    · have := discarded_givenUp (List.count_pos_iff.1 h0)
      exact .inr (.inr ⟨by omega, by omega, by omega, this⟩)
  · intro site iface' frame hm ho
    obtain ⟨e, d, dhost, shost, he', hd, hdo, rfl⟩ := sent_cameFrom hm ho
    rw [show (Origin.forwarded k).seq = k by rfl, he] at he'
    cases he'
    exact delivers_passedOn hd hdo dhost shost
  · intro r hr pkt hp ho
    obtain ⟨e, d, he', hd, rfl, -⟩ := run_queued ifs rts es r hr pkt hp
    rw [show d.packet.origin.seq = k by rw [ho]; rfl] at he' hd
    rw [he] at he'
    cases he'
    exact delivers_passedOn hd ho none d.iface.addr

/-- A packet for 10.0.1.7 waits, and is passed on when the reply comes. -/
theorem no_loss_no_duplication_flushed :
    PassedOn (Sample.ping [10, 0, 1, 7])
      ([7, 7, 7, 7, 7, 7, 2, 0, 0, 0, 0, 2, 8, 0, 0x45, 0, 0, 28, 0, 0, 0, 0, 62, 1, 214, 103] ++
        (Sample.ping [10, 0, 1, 7]).drop 26) :=
  ((no_loss_no_duplication Sample.ifs Sample.rts (by decide)
      [Sample.received Sample.e1 (Sample.ping [10, 0, 1, 7]) 0, Sample.received Sample.e2 (Sample.arpReply 7) 1]).2
    0 _ _ _ _ _ rfl ⟨by decide, by decide, by decide, by decide, by decide⟩).2.1
      (.flushed (.forwarded 0)) Sample.e2 _ (by decide +kernel) rfl

end SimpleRouter
