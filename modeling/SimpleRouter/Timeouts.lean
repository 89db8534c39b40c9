import SimpleRouter.IcmpErrors
import SimpleRouter.Accounting
import SimpleRouter.RouteSelection
/-!
# Who is told that a host is unreachable

When a request is given up, `send_icmp_host_unreachable` writes an error about
each of its packets, and frees it again unless the way back is in the ARP cache
at that moment; `send_icmp_t3`, in the same situation, puts its error on the
queue. `timeout_notifies_iff` says for which runs every sender is told all the
same.
-/
open Memory CProg Runs

namespace SimpleRouter

variable {ifs : List SrIf} {rts : List SrRt} {n : Nat} {sr : SrInstance}

/-! ## What a sender is owed -/

/-- `frame` is an ICMP host-unreachable message for `dst`. -/
def TellsUnreachable (frame : List UInt8) (dst : UInt32) : Prop :=
  etherType (memOf frame) = ethertypeIp ∧ ipP (memOf frame) = ipProtocolIcmp ∧ IsHostUnreachable frame ∧
    ipDst (memOf frame) = dst

/-- A longest matching prefix leads back to `src`, through an interface that exists. -/
def HasRouteBack (ifs : List SrIf) (rts : List SrRt) (src : UInt32) : Prop :=
  ∃ rt ∈ rts, rt.Covers src ∧ (∀ rt' ∈ rts, rt'.Covers src → rt'.hostMask ≤ rt.hostMask) ∧
    ∃ i, srGetInterface ifs rt.interface = some i

/-- The packet is no ICMP error, and its sender can be reached. -/
def Owed (ifs : List SrIf) (rts : List SrRt) (pkt : SrPacket) : Prop :=
  ¬ IsIcmpError pkt.buf ∧ HasRouteBack ifs rts (ipSrc (memOf pkt.buf))

/-- In a step from `sr` to `sr'` the sender of a packet on `r` is told that it
is given up, or a message that tells it has come to wait in the queue. -/
def Notified (sr sr' : SrInstance) (acts : List Act) (r : SrArpreq) (pkt : SrPacket) : Prop :=
  (∃ iface frame, .send (.hostUnreachable pkt.origin r.ptr) iface frame ∈ acts ∧
    TellsUnreachable frame (ipSrc (memOf pkt.buf))) ∨
  ∃ q ∈ sr'.cache.requests, ∃ p ∈ q.packets, TellsUnreachable p.buf (ipSrc (memOf pkt.buf)) ∧
    ∀ q' ∈ sr.cache.requests, p ∉ q'.packets

/-- The lookup finds a way back to `src`, and the cache its next hop. -/
def WayBackCached (ifs : List SrIf) (rts : List SrRt) (entries : ArpTable) (src : UInt32) : Prop :=
  ∃ rt i e, lpmLookup rts src = some rt ∧ srGetInterface ifs rt.interface = some i ∧
    lookupLoop (nextHop rt src) none entries.slots = some e

/-- In the step that takes `e` in state `sr`, the way back of each packet that
is given up and owed an answer is cached once old entries have expired. -/
def WaysBackCached (ifs : List SrIf) (rts : List SrRt) (sr : SrInstance) : Event → Prop
  | .frame _ _ _ _ _ => True
  | .sweep env => ∀ r ∈ givenUp env.clock 0 sr.cache.requests, ∀ pkt ∈ r.packets, Owed ifs rts pkt →
      WayBackCached ifs rts (expireEntries (env.clock 0) sr.cache.entries) (ipSrc (memOf pkt.buf))

/-! ## The message -/

theorem tells_unreachError (env : SweepEnv) (i : SrIf) (pkt : SrPacket) (mac : Mac) (shost : Mac) :
    TellsUnreachable (setEth (some mac) shost (unreachError env i pkt).bytes)
      ((Buf.ofBytes pkt.buf (env.past pkt.origin.seq)).mem.u32 26) := by
  have h14 : 14 ≤ (unreachError env i pkt).bytes.length := by simp [unreachError]
  have hmem : ∀ k, 14 ≤ k → k < 70 → memOf (setEth (some mac) shost (unreachError env i pkt).bytes) k =
      (unreachError env i pkt).mem k := by
    intro k h1 h2
    rw [memOf_setEth _ _ h14 h1, memOf_bytes _ _ (by simpa [unreachError] using h2)]
  have hproto : (unreachError env i pkt).mem 23 = ipProtocolIcmp := by
    rw [unreachError, unreachBuf]
    exact (errorBuf_header _ _ _ _ _ _ _).2
  have htype : (unreachError env i pkt).mem 34 = 3 ∧ (unreachError env i pkt).mem 35 = 1 := by
    rw [unreachError, unreachBuf]
    apply errorBuf_type
  refine ⟨etherType_setEth _ _ h14, ?_, ⟨?_, ?_⟩, ?_⟩
  · exact (hmem 23 (by decide) (by decide)).trans hproto
  · exact (hmem 34 (by decide) (by decide)).trans htype.1
  · exact (hmem 35 (by decide) (by decide)).trans htype.2
  · rw [ipDst, Mem.u32_congr fun k _ => memOf_setEth _ _ h14 (Nat.le_add_right_of_le (by decide))]
    exact ipDst_unreachBuf _ _ _

/-- The requests a pass gives up are those it fails. -/
theorem fail_iff_givenUp {entries : ArpTable} {env : SweepEnv} {k : Nat} {reqs : List SrArpreq} {r : SrArpreq} :
    (∃ t, .fail r t ∈ sweepActs ifs rts entries env k reqs) ↔ r ∈ givenUp env.clock k reqs := by
  induction reqs generalizing k with
  | nil => simp [sweepActs, givenUp]
  | cons q qs ih =>
    simp only [sweepActs, List.mem_append, exists_or, ih]
    rw [givenUp]
    split
    · rename_i hgive
      rw [List.mem_cons]
      refine or_congr_left ?_
      constructor
      · rintro ⟨t, h⟩
        exact (fail_mem_sweepOne h).1
      · rintro rfl
        exact ⟨_, fail_mem_sweepOneActs hgive.1 hgive.2⟩
    · rename_i hkeep
      refine or_iff_right ?_
      rintro ⟨t, h⟩
      obtain ⟨rfl, rfl, hdue, h5⟩ := fail_mem_sweepOne h
      exact hkeep ⟨hdue, h5⟩

/-! ## Who is told -/

section Sweep
variable {es : List Event} {env : SweepEnv} {sr' : SrInstance} {acts : List Act} {r : SrArpreq} {pkt : SrPacket}

/-- A sweep lets no packet come to wait. -/
theorem StepsTo.sweep_waiting (hs : StepsTo ifs rts n sr (.sweep env) sr' acts) {q : SrArpreq}
    (hq : q ∈ sr'.cache.requests) {p : SrPacket} (hp : p ∈ q.packets) : ∃ q' ∈ sr.cache.requests, p ∈ q'.packets := by
  cases hs with
  | sweep =>
  obtain ⟨q', hq', -, -, hpk⟩ := mem_of_keys (sweepList_keys env.clock 0 sr.cache.requests) hq
  exact ⟨q', hq', hpk ▸ hp⟩

/-- A sweep fails the requests it gives up. -/
theorem StepsTo.sweep_fail_iff (hs : StepsTo ifs rts n sr (.sweep env) sr' acts) :
    (∃ t, .fail r t ∈ acts) ↔ r ∈ givenUp env.clock 0 sr.cache.requests := by
  cases hs with
  | sweep => exact fail_iff_givenUp

/-- The sender of a packet that is given up is told so exactly if the way back is cached. -/
theorem notified_iff (hw : Wf ifs rts es.length sr) (hq : Queued ifs rts es sr)
    (hs : StepsTo ifs rts es.length sr (.sweep env) sr' acts) (hr : r ∈ givenUp env.clock 0 sr.cache.requests)
    (hp : pkt ∈ r.packets) : Notified sr sr' acts r pkt ↔
      WayBackCached ifs rts (expireEntries (env.clock 0) sr.cache.entries) (ipSrc (memOf pkt.buf)) := by
  have hmem := givenUp_subset hr
  constructor
  · rintro (⟨name, frame, hsend, -⟩ | ⟨q, hqm, p, hpq, -, hnew⟩)
    · cases hs with
      | sweep =>
      obtain ⟨r', hr', pkt', hp', i, j, rt, e, hsite, -, hrt, hj, he, -⟩ :=
        hq.sweep_sent (fun _ _ => Site.noConfusion) hsend
      obtain ⟨ho, -⟩ := Site.hostUnreachable.inj hsite
      -- an error names the step its packet comes from, so it is about this packet
      obtain rfl := hq.unique (givenUp_subset hr') hmem hp' hp ho.symm
      exact ⟨rt, j, e, hrt, hj, he⟩
    · obtain ⟨q', hq', hpq'⟩ := hs.sweep_waiting hqm hpq
      exact absurd hpq' (hnew q' hq')
  · rintro ⟨rt, j, e, hrt, hj, he⟩
    obtain ⟨i, hi⟩ := (hw.packet r hmem pkt hp).1
    cases hs with
    | sweep =>
    have htells := tells_unreachError env i pkt e.mac j.addr
    rw [hq.src hmem hp] at htells
    exact .inl ⟨_, _, hq.sweep_sends hr hp hi hrt hj he, htells⟩

end Sweep

/-- In a step every sender is told exactly if the ways back are cached. -/
theorem step_timeout_iff {es : List Event} (hw : Wf ifs rts es.length sr) (hq : Queued ifs rts es sr) (e : Event)
    {sr' : SrInstance} {acts : List Act} (hs : StepsTo ifs rts es.length sr e sr' acts) :
    (∀ r t, .fail r t ∈ acts → ∀ pkt ∈ r.packets, Owed ifs rts pkt → Notified sr sr' acts r pkt) ↔
      WaysBackCached ifs rts sr e := by
  cases e with
  | frame bytes past heap iface now =>
    refine iff_of_true ?_ trivial
    intro r t hm
    obtain ⟨env, he, -⟩ := hs.fail_sweep hm
    cases he
  | sweep env =>
    constructor
    · intro h r hr pkt hp ho
      obtain ⟨t, ht⟩ := hs.sweep_fail_iff.2 hr
      exact (notified_iff hw hq hs hr hp).1 (h r t ht pkt hp ho)
    · intro h r t ht pkt hp ho
      have hr := hs.sweep_fail_iff.1 ⟨t, ht⟩
      exact (notified_iff hw hq hs hr hp).2 (h r hr pkt hp ho)

/-- Whenever a request is given up every sender that is owed an answer gets or
is queued one, if and only if the way back to each is cached at that moment. -/
theorem timeout_notifies_iff (ifs : List SrIf) (rts : List SrRt) (es : List Event) :
    (∀ pre e post, es = pre ++ e :: post → ∀ r t, .fail r t ∈ (router ifs rts).actsAt pre e →
      ∀ pkt ∈ r.packets, Owed ifs rts pkt →
        Notified ((router ifs rts).state pre) ((router ifs rts).state (pre ++ [e])) ((router ifs rts).actsAt pre e)
          r pkt) ↔
    (router ifs rts).Along (WaysBackCached ifs rts) es := by
  refine (router ifs rts).forall_steps_iff (fun pre e => ?_) es
  exact step_timeout_iff (reachable ifs rts pre).1 (run_queued ifs rts pre) e (run_step ifs rts pre e)

/-- A ping from 10.0.0.5, whose address nobody has told, to 10.0.1.7, whose
address is never told: 10.0.0.5 hears nothing. -/
theorem unreachable_never_told :
    ¬ ∀ pre e post, Sample.received Sample.e1 (Sample.ping [10, 0, 1, 7]) 100 ::
        [101, 102, 103, 104, 105].map Sample.sweep = pre ++ e :: post → ∀ r t,
      .fail r t ∈ (router Sample.ifs Sample.rts).actsAt pre e → ∀ pkt ∈ r.packets, Owed Sample.ifs Sample.rts pkt →
        Notified ((router Sample.ifs Sample.rts).state pre) ((router Sample.ifs Sample.rts).state (pre ++ [e]))
          ((router Sample.ifs Sample.rts).actsAt pre e) r pkt := by
  intro h
  let pre := Sample.received Sample.e1 (Sample.ping [10, 0, 1, 7]) 100 :: [101, 102, 103, 104].map Sample.sweep
  have hcached := (step_timeout_iff (reachable Sample.ifs Sample.rts pre).1 (run_queued Sample.ifs Sample.rts pre)
    (Sample.sweep 105) (run_step Sample.ifs Sample.rts pre _)).1 (h pre _ [] rfl)
  obtain ⟨r, hr, pkt, hp, herr, hsrc, hempty⟩ :
      ∃ r ∈ givenUp (fun _ => 105) 0 ((router Sample.ifs Sample.rts).state pre).cache.requests, ∃ pkt ∈ r.packets,
        ¬ IsIcmpError pkt.buf ∧ ipSrc (memOf pkt.buf) = 0x0500000A ∧
          ∀ rt ∈ Sample.rts, lookupLoop (nextHop rt 0x0500000A) none
            (expireEntries 105 ((router Sample.ifs Sample.rts).state pre).cache.entries).slots = none := by
    decide +kernel
  have hback : HasRouteBack Sample.ifs Sample.rts (ipSrc (memOf pkt.buf)) := by
    rw [hsrc]
    exact ⟨⟨0x0000000A, 0, 0x00FFFFFF, Sample.e1⟩, by decide, by decide, by decide, _, rfl⟩
  obtain ⟨rt, i, e, hrt, -, he⟩ := hcached r hr pkt hp ⟨herr, hback⟩
  rw [hsrc] at hrt he
  cases (hempty rt (lpmLookup_some hrt).1).symm.trans he

end SimpleRouter
