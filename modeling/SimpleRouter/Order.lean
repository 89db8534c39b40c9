import SimpleRouter.Accounting
/-!
# The order of a flush

`sr_arpcache_queuereq` links a packet in at the front of its request's list,
and the flush loop walks the list from the front, so packets leave in the
reverse of the order they came in (`run_newestFirst`). The project's README
calls the queue first in, first out; a flush is that only when it is of one
packet.
-/
open Memory CProg Runs

namespace SimpleRouter

variable {ifs : List SrIf} {rts : List SrRt} {n : Nat} {sr : SrInstance}

/-! ## The queue, newest first -/

/-- When the packets of a request were received. -/
def SrArpreq.arrivalOrder (r : SrArpreq) : List Nat := r.packets.map (·.origin.seq)

/-- Every request lists its packets from the newest to the oldest. -/
def NewestFirst (n : Nat) (sr : SrInstance) : Prop :=
  ∀ r ∈ sr.cache.requests, r.arrivalOrder.Pairwise (· > ·) ∧ ∀ k ∈ r.arrivalOrder, k < n

theorem StepsTo.newestFirst {e : Event} {sr' : SrInstance} {acts : List Act} (hs : StepsTo ifs rts n sr e sr' acts)
    (h : NewestFirst n sr) : NewestFirst (n + 1) sr' := by
  have hsame : NewestFirst (n + 1) sr := fun r hr =>
    ⟨(h r hr).1, fun k hk => Nat.lt_succ_of_lt ((h r hr).2 k hk)⟩
  cases hs.changes with
  | same => exact hsame
  | learn => exact fun r hr => hsame r (List.eraseP_sublist.subset hr)
  | @join _ _ _ _ _ _ d r hp he hr =>
    intro q hq
    rcases mem_updReq hq with ⟨hq', -⟩ | ⟨q', hq', -, rfl⟩
    · exact hsame q hq'
    · -- the packet pushed comes from this step, all others from earlier ones
      obtain ⟨hord, hold⟩ := h q' hq'
      have hseq : d.packet.origin.seq = n := (plan_routed hp).2.1
      have hpush : (q'.push d.packet).arrivalOrder = n :: q'.arrivalOrder := by
        simp only [SrArpreq.arrivalOrder, SrArpreq.push, List.map_cons, hseq]
      rw [hpush]
      refine ⟨List.pairwise_cons.2 ⟨hold, hord⟩, fun k hk => ?_⟩
      rcases List.mem_cons.1 hk with rfl | hk
      · exact Nat.lt_succ_self k
      · exact Nat.lt_succ_of_lt (hold k hk)
  | @fresh _ _ _ _ _ _ d hp =>
    intro q hq
    rcases List.mem_cons.1 hq with rfl | hq'
    · have hseq : d.packet.origin.seq = n := (plan_routed hp).2.1
      refine ⟨List.pairwise_singleton _ _, fun k hk => ?_⟩
      have hkn : k = n := (List.mem_singleton.1 hk).trans hseq
      exact hkn ▸ Nat.lt_succ_self n
    · exact hsame q hq'
  | sweep =>
    intro q hq
    obtain ⟨r, hr, -, -, hpk⟩ := mem_of_keys (sweepList_keys _ _ _) hq
    rw [SrArpreq.arrivalOrder, ← hpk]
    exact hsame r hr

theorem run_newestFirst (ifs : List SrIf) (rts : List SrRt) (es : List Event) :
    NewestFirst es.length ((router ifs rts).state es) := by
  refine (router ifs rts).induct (I := fun es sr _ => NewestFirst es.length sr) ?_ ?_ es
  · intro r hr; cases hr
  · intro es e h
    obtain ⟨hw, hc⟩ := reachable ifs rts es
    rw [List.length_append]
    exact (step_cases hw hc e).newestFirst h

/-! ## The order on the wire -/

/-- The packet a flush transmits, by the event it came with. -/
def Act.flushedSeq : Act → Option Nat
  | .send (.flushed o) _ _ => some o.seq
  | _ => none

/-- When the packets that a step flushes were received, in the order they are transmitted. -/
def flushOrder (acts : List Act) : List Nat := acts.filterMap Act.flushedSeq

/-- What is flushed leaves first in, first out. -/
def InOrder (acts : List Act) : Prop := (flushOrder acts).Pairwise (· < ·)

/-- If the event is an ARP reply, at most one packet is waiting for it. -/
def FewWaiting (sr : SrInstance) : Event → Prop
  | .frame bytes _ _ _ _ => ∀ mac ip, IsArpReply bytes mac ip →
      ∀ r, findReq ip sr.cache.requests = some r → r.packets.length ≤ 1
  | .sweep _ => True

theorem flushOrder_flush {mac : Mac} {pkts : List SrPacket}
    (h : ∀ pkt ∈ pkts, ∃ i, srGetInterface ifs pkt.iface = some i) :
    flushOrder (flushActs ifs mac pkts) = pkts.map (·.origin.seq) := by
  induction pkts with
  | nil => rfl
  | cons pkt pkts ih =>
    obtain ⟨i, hi⟩ := h pkt (by simp)
    have e : flushActs ifs mac (pkt :: pkts) =
        .send (.flushed pkt.origin) pkt.iface (setEth (some mac) i.addr pkt.buf) :: flushActs ifs mac pkts := by
      simp [flushActs, hi]
    rw [e, flushOrder, List.filterMap_cons, ← flushOrder, ih fun p hp => h p (by simp [hp])]
    rfl

/-- Only the handling of an ARP reply flushes. -/
theorem StepsTo.flushOrder_nil {e : Event} {sr' : SrInstance} {acts : List Act} (hs : StepsTo ifs rts n sr e sr' acts)
    (hr : ∀ bytes past heap iface now mac ip, e = .frame bytes past heap iface now → ¬ IsArpReply bytes mac ip) :
    flushOrder acts = [] := by
  refine List.filterMap_eq_nil_iff.2 fun a ha => ?_
  cases a with
  | send site iface frame =>
    cases hs.sent ha with
    | flushed h => exact absurd h (hr _ _ _ _ _ _ _ rfl)
    | arpReply => rfl
    | echo => rfl
    | direct => rfl
    | first => rfl
    | retry => rfl
    | unreachable => rfl
  | reject => rfl
  | build => rfl
  | fail => rfl
  | fault => rfl

/-- A list that only falls rises only if there is nothing to compare. -/
theorem increasing_iff_of_decreasing {ks : List Nat} (h : ks.Pairwise (· > ·)) :
    ks.Pairwise (· < ·) ↔ ks.length ≤ 1 := by
  match ks, h with
  | [], _ => simp
  | [_], _ => simp
  | a :: b :: ks, h =>
    have hab : a > b := (List.pairwise_cons.1 h).1 b (by simp)
    constructor
    · intro h'
      have := (List.pairwise_cons.1 h').1 b (by simp)
      omega
    · intro h'
      simp at h'

/-- A step flushes in order exactly when it flushes at most one packet. -/
theorem inOrder_iff (ifs : List SrIf) (rts : List SrRt) (es : List Event) (e : Event) :
    InOrder ((router ifs rts).actsAt es e) ↔ FewWaiting ((router ifs rts).state es) e := by
  by_cases hrep : ∃ bytes past heap iface now mac ip, e = .frame bytes past heap iface now ∧ IsArpReply bytes mac ip
  · obtain ⟨bytes, past, heap, iface, now, mac, ip, rfl, hr⟩ := hrep
    rw [InOrder, actsAt_reply ifs rts es hr]
    cases hf : findReq ip ((router ifs rts).state es).cache.requests with
    | none =>
      constructor
      · rintro - mac' ip' hr' r hr''
        rw [← hr'.ip, hr.ip, hf] at hr''
        cases hr''
      · rintro -
        exact List.Pairwise.nil
    | some r =>
      have hrm := (findReq_some hf).1
      have hord := (run_newestFirst ifs rts es r hrm).1
      have hk : ∀ pkt ∈ r.packets, ∃ i, srGetInterface ifs pkt.iface = some i :=
        fun pkt hp => ((reachable ifs rts es).1.packet r hrm pkt hp).1
      rw [Option.elim_some, flushOrder_flush hk, ← SrArpreq.arrivalOrder, increasing_iff_of_decreasing hord,
        SrArpreq.arrivalOrder, List.length_map]
      constructor
      · intro h mac' ip' hr' r' hr''
        rw [← hr'.ip, hr.ip, hf] at hr''
        cases hr''
        exact h
      · exact fun h => h mac ip hr r hf
  · have hno : ∀ bytes past heap iface now mac ip, e = .frame bytes past heap iface now → ¬ IsArpReply bytes mac ip :=
      fun bytes past heap iface now mac ip he h => hrep ⟨bytes, past, heap, iface, now, mac, ip, he, h⟩
    rw [InOrder, (run_step ifs rts es e).flushOrder_nil hno]
    constructor
    · rintro -
      cases e with
      | frame bytes past heap iface now => exact fun mac ip h => absurd h (hno _ _ _ _ _ mac ip rfl)
      | sweep env => trivial
    · rintro -
      exact List.Pairwise.nil

/-- Packets are transmitted in the order they were received, in every flush of
a run, exactly if no ARP reply of the run finds more than one packet waiting. -/
theorem flush_in_order_iff (ifs : List SrIf) (rts : List SrRt) (es : List Event) :
    (∀ pre e post, es = pre ++ e :: post → InOrder ((router ifs rts).actsAt pre e)) ↔
      ∀ pre e post, es = pre ++ e :: post → FewWaiting ((router ifs rts).state pre) e := by
  constructor
  · exact fun h pre e post he => (inOrder_iff ifs rts pre e).1 (h pre e post he)
  · exact fun h pre e post he => (inOrder_iff ifs rts pre e).2 (h pre e post he)

/-- Two packets for 10.0.1.7, told apart by their last byte, leave in the wrong order. -/
theorem flush_out_of_order :
    ¬ InOrder ((router Sample.ifs Sample.rts).actsAt
      [Sample.received Sample.e1 (Sample.ping [10, 0, 1, 7]) 0,
        Sample.received Sample.e1 ((Sample.ping [10, 0, 1, 7]).set 41 2) 0]
      (Sample.received Sample.e2 (Sample.arpReply 7) 0)) := by
  have h : flushOrder ((router Sample.ifs Sample.rts).actsAt
      [Sample.received Sample.e1 (Sample.ping [10, 0, 1, 7]) 0,
        Sample.received Sample.e1 ((Sample.ping [10, 0, 1, 7]).set 41 2) 0]
      (Sample.received Sample.e2 (Sample.arpReply 7) 0)) = [1, 0] := by decide +kernel
  rw [InOrder, h]
  decide

end SimpleRouter
