import SimpleRouter.Steps
/-!
# What holds in every reachable state

`reachable` is the invariant every other theorem about runs starts from: the
state is well formed and every pending request has been asked for one to five
times. It is preserved shape by shape. A sweep and an ARP reply only take
requests away or change their counters (`Wf.shrink`); a delivery adds one
packet, to a pending request or to a new one.
-/
open Memory CProg Runs

namespace SimpleRouter

variable {ifs : List SrIf} {rts : List SrRt} {n : Nat} {sr : SrInstance}

/-! ## Fewer requests -/

/-- What a well-formed queue depends on: counters and timestamps are left out. -/
def SrArpreq.key (r : SrArpreq) : Nat × UInt32 × List SrPacket := (r.ptr, r.ip, r.packets)

theorem mem_of_keys {reqs reqs' : List SrArpreq} (hs : (reqs'.map (·.key)).Sublist (reqs.map (·.key))) {r : SrArpreq}
    (hr : r ∈ reqs') : ∃ q ∈ reqs, q.ptr = r.ptr ∧ q.ip = r.ip ∧ q.packets = r.packets := by
  have hk : r.key ∈ reqs.map (·.key) := hs.subset (List.mem_map_of_mem hr)
  obtain ⟨q, hq, hqr⟩ := List.mem_map.1 hk
  simp only [SrArpreq.key, Prod.mk.injEq] at hqr
  exact ⟨q, hq, hqr⟩

/-- Requests that are taken away, or whose counters change, leave the rest well formed. -/
theorem Wf.shrink (hw : Wf ifs rts n sr) {reqs : List SrArpreq} {entries : ArpTable}
    (hs : (reqs.map (·.key)).Sublist (sr.cache.requests.map (·.key)))
    (he : ∀ r ∈ reqs, ∀ e ∈ entries.slots, e.valid = true → e.ip ≠ r.ip) :
    Wf ifs rts n { sr with cache := ⟨entries, reqs⟩ } where
  ifList := hw.ifList
  routes := hw.routes
  ptr := by
    have h := hs.map Prod.fst
    rw [List.map_map, List.map_map] at h
    exact hw.ptr.sublist h
  old r hr := by
    obtain ⟨q, hq, h1, -, -⟩ := mem_of_keys hs hr
    exact h1 ▸ hw.old q hq
  ip := by
    have h := hs.map (·.2.1)
    rw [List.map_map, List.map_map] at h
    exact hw.ip.sublist h
  nonempty r hr := by
    obtain ⟨q, hq, -, -, h3⟩ := mem_of_keys hs hr
    exact h3 ▸ hw.nonempty q hq
  packet r hr := by
    obtain ⟨q, hq, -, -, h3⟩ := mem_of_keys hs hr
    exact h3 ▸ hw.packet q hq
  apart := he

theorem Wf.mono (hw : Wf ifs rts n sr) : Wf ifs rts (n + 1) sr :=
  { hw with old := fun r hr => Nat.lt_succ_of_lt (hw.old r hr) }

theorem Wf.learn (hw : Wf ifs rts n sr) (now : Int) (mac : Mac) (ip : UInt32) :
    Wf ifs rts n { sr with cache := (srArpcacheInsert now sr.cache mac ip).1 } := by
  refine hw.shrink (List.eraseP_sublist.map _) fun r hr e he hv => ?_
  rcases insert_entry he with he' | rfl
  · exact hw.apart r (List.eraseP_sublist.subset hr) e he' hv
  · exact (ip_ne_of_erased hw.ip r hr).symm

theorem sweepOne_key (now : Int) (r : SrArpreq) : ((sweepOne now r).toList.map (·.key)).Sublist [r.key] := by
  unfold sweepOne
  split
  · split
    · exact List.nil_sublist _
    · exact List.Sublist.refl _
  · exact List.Sublist.refl _

theorem sweepList_keys (clock : Nat → Int) (k : Nat) (reqs : List SrArpreq) :
    ((sweepList clock k reqs).map (·.key)).Sublist (reqs.map (·.key)) := by
  induction reqs generalizing k with
  | nil => exact List.nil_sublist _
  | cons r rs ih =>
    rw [sweepList, List.map_append]
    exact (sweepOne_key (clock (k + 1)) r).append (ih (k + 1))

theorem Wf.sweep (hw : Wf ifs rts n sr) (clock : Nat → Int) :
    Wf ifs rts n { sr with cache :=
      ⟨expireEntries (clock 0) sr.cache.entries, sweepList clock 0 sr.cache.requests⟩ } := by
  have hs := sweepList_keys clock 0 sr.cache.requests
  refine hw.shrink hs fun r hr e he hv => ?_
  obtain ⟨q, hq, -, h2, -⟩ := mem_of_keys hs hr
  exact h2 ▸ hw.apart q hq e (expire_entry he hv).1 hv

/-! ## More packets -/

theorem Wf.join (hw : Wf ifs rts n sr) {r : SrArpreq} {pkt : SrPacket}
    (hp : (∃ i, srGetInterface ifs pkt.iface = some i) ∧ 14 ≤ pkt.buf.length) :
    Wf ifs rts n (sr.updReq r.ptr (.push pkt)) where
  ifList := hw.ifList
  routes := hw.routes
  ptr := by
    have h := map_updReq (·.ptr) r.ptr (.push pkt) (fun _ => rfl) sr.cache.requests
    exact h.symm ▸ hw.ptr
  old q hq := by
    rcases mem_updReq hq with ⟨hq', -⟩ | ⟨q', hq', -, rfl⟩
    · exact hw.old q hq'
    · exact hw.old q' hq'
  ip := by
    have h := map_updReq (·.ip) r.ptr (.push pkt) (fun _ => rfl) sr.cache.requests
    exact h.symm ▸ hw.ip
  nonempty q hq := by
    rcases mem_updReq hq with ⟨hq', -⟩ | ⟨q', hq', -, rfl⟩
    · exact hw.nonempty q hq'
    · exact List.cons_ne_nil _ _
  packet q hq p hpq := by
    rcases mem_updReq hq with ⟨hq', -⟩ | ⟨q', hq', -, rfl⟩
    · exact hw.packet q hq' p hpq
    · rcases List.mem_cons.1 hpq with rfl | hpq'
      · exact hp
      · exact hw.packet q' hq' p hpq'
  apart q hq := by
    rcases mem_updReq hq with ⟨hq', -⟩ | ⟨q', hq', -, rfl⟩
    · exact hw.apart q hq'
    · exact hw.apart q' hq'

theorem Wf.fresh (hw : Wf ifs rts n sr) {nh : UInt32} {pkt : SrPacket} {sent : Int} {times : Nat}
    (he : srArpcacheLookup sr.cache nh = none) (hr : findReq nh sr.cache.requests = none)
    (hp : (∃ i, srGetInterface ifs pkt.iface = some i) ∧ 14 ≤ pkt.buf.length) :
    Wf ifs rts (n + 1) (sr.setRequests (⟨n, nh, sent, times, [pkt]⟩ :: sr.cache.requests)) where
  ifList := hw.ifList
  routes := hw.routes
  ptr := by
    refine List.nodup_cons.2 ⟨fun hm => ?_, hw.ptr⟩
    obtain ⟨q, hq, hqn⟩ := List.mem_map.1 hm
    exact Nat.ne_of_lt (hw.old q hq) hqn
  old := by
    intro q hq
    rcases List.mem_cons.1 hq with rfl | hq'
    · exact Nat.lt_succ_self n
    · exact Nat.lt_succ_of_lt (hw.old q hq')
  ip := by
    refine List.nodup_cons.2 ⟨fun hm => ?_, hw.ip⟩
    obtain ⟨q, hq, hqn⟩ := List.mem_map.1 hm
    exact findReq_none hr q hq hqn
  nonempty := by
    intro q hq
    rcases List.mem_cons.1 hq with rfl | hq'
    · exact List.cons_ne_nil _ _
    · exact hw.nonempty q hq'
  packet := by
    intro q hq p hpq
    rcases List.mem_cons.1 hq with rfl | hq'
    · exact List.mem_singleton.1 hpq ▸ hp
    · exact hw.packet q hq' p hpq
  apart := by
    intro q hq e hent hv
    rcases List.mem_cons.1 hq with rfl | hq'
    · exact lookup_none he e hent hv
    · exact hw.apart q hq' e hent hv

/-! ## Every step -/

theorem delivery_packet {env : Env} {packet : Buf} {interface : IfName} {built : List Act} {d : Delivery}
    (hp : plan ifs rts env packet interface = .output built d) :
    (∃ i, srGetInterface ifs d.packet.iface = some i) ∧ 14 ≤ d.packet.buf.length := by
  obtain ⟨h34, -, rt, -, hi, -⟩ := plan_routed hp
  refine ⟨⟨d.iface, srGetInterface_name hi⟩, ?_⟩
  simp only [Delivery.packet, length_setEth none d.iface.addr (show 14 ≤ d.frame.length by omega)]
  omega

theorem StepsTo.wf {e : Event} {sr' : SrInstance} {acts : List Act} (hw : Wf ifs rts n sr)
    (h : StepsTo ifs rts n sr e sr' acts) : Wf ifs rts (n + 1) sr' := by
  cases h.changes with
  | same => exact hw.mono
  | learn => exact (hw.learn _ _ _).mono
  | join hp => exact (hw.join (delivery_packet hp)).mono
  | fresh hp he hr => exact hw.fresh he hr (delivery_packet hp)
  | @sweep env => exact (hw.sweep env.clock).mono

/-- What a sweep leaves of a request: itself, or itself counted once more. -/
theorem sweepOne_some {now : Int} {r q : SrArpreq} (h : sweepOne now r = some q) :
    (q = r ∧ now - r.sent < 1) ∨
      (q = { r with sent := now, timesSent := r.timesSent + 1 } ∧ now - r.sent ≥ 1 ∧ r.timesSent < 5) := by
  unfold sweepOne at h
  split at h
  · rename_i hdue
    split at h
    · cases h
    · rename_i h5
      exact .inr ⟨(Option.some.inj h).symm, hdue, by omega⟩
  · rename_i hdue
    exact .inl ⟨(Option.some.inj h).symm, by omega⟩

theorem mem_sweepList {clock : Nat → Int} {k : Nat} {reqs : List SrArpreq} {q : SrArpreq}
    (h : q ∈ sweepList clock k reqs) : ∃ r ∈ reqs, ∃ now, sweepOne now r = some q := by
  induction reqs generalizing k with
  | nil => cases h
  | cons r rs ih =>
    rcases List.mem_append.1 h with h | h
    · exact ⟨r, by simp, clock (k + 1), Option.mem_toList.1 h⟩
    · obtain ⟨r', hr', hnow⟩ := ih h
      exact ⟨r', by simp [hr'], hnow⟩

theorem StepsTo.counted {e : Event} {sr' : SrInstance} {acts : List Act} (hc : Counted sr)
    (h : StepsTo ifs rts n sr e sr' acts) : Counted sr' := by
  cases h.changes with
  | same => exact hc
  | learn => exact fun r hr => hc r (List.eraseP_sublist.subset hr)
  | join =>
    intro q hq
    rcases mem_updReq hq with ⟨hq', -⟩ | ⟨q', hq', -, rfl⟩
    · exact hc q hq'
    · exact hc q' hq'
  | fresh =>
    intro q hq
    rcases List.mem_cons.1 hq with rfl | hq'
    · exact ⟨Nat.le_refl 1, Nat.le_add_left 1 4⟩
    · exact hc q hq'
  | sweep =>
    intro q hq
    obtain ⟨r, hr, now, hrq⟩ := mem_sweepList hq
    rcases sweepOne_some hrq with ⟨rfl, -⟩ | ⟨rfl, -, h5⟩
    · exact hc q hr
    · exact ⟨Nat.le_add_left 1 _, h5⟩

/-- A packet that waits after a step waited before, for the same address, or has just been put out. -/
theorem StepsTo.waiting_packet {e : Event} {sr' : SrInstance} {acts : List Act} (hw : Wf ifs rts n sr)
    (h : StepsTo ifs rts n sr e sr' acts) {q : SrArpreq} (hq : q ∈ sr'.cache.requests) {pkt : SrPacket}
    (hp : pkt ∈ q.packets) :
    (∃ r ∈ sr.cache.requests, r.ip = q.ip ∧ pkt ∈ r.packets) ∨
      ∃ d, delivers ifs rts n e = some d ∧ pkt = d.packet ∧ q.ip = d.nextHop := by
  cases h.changes with
  | same => exact .inl ⟨q, hq, rfl, hp⟩
  | learn => exact .inl ⟨q, List.eraseP_sublist.subset hq, rfl, hp⟩
  | @join _ _ _ _ _ _ d r hplan he hr =>
    rcases mem_updReq hq with ⟨hq', -⟩ | ⟨q', hq', hptr, rfl⟩
    · exact .inl ⟨q, hq', rfl, hp⟩
    · rcases List.mem_cons.1 hp with rfl | hp'
      · obtain ⟨hmem, hip⟩ := findReq_some hr
        rw [eq_of_ptr hw.ptr hq' hmem hptr]
        exact .inr ⟨d, by rw [delivers, hplan], rfl, hip⟩
      · exact .inl ⟨q', hq', rfl, hp'⟩
  | @fresh _ _ _ _ _ _ d hplan he hr =>
    rcases List.mem_cons.1 hq with rfl | hq'
    · exact .inr ⟨d, by rw [delivers, hplan], List.mem_singleton.1 hp, rfl⟩
    · exact .inl ⟨q, hq', rfl, hp⟩
  | sweep =>
    obtain ⟨r, hr, -, hip, hpk⟩ := mem_of_keys (sweepList_keys _ _ _) hq
    exact .inl ⟨r, hr, hip, hpk ▸ hp⟩

/-! ## Every run -/

theorem init_wf (ifs : List SrIf) (rts : List SrRt) : Wf ifs rts 0 (.init ifs rts) where
  ifList := rfl
  routes := rfl
  ptr := List.nodup_nil
  old := by intro r hr; cases hr
  ip := List.nodup_nil
  nonempty := by intro r hr; cases hr
  packet := by intro r hr; cases hr
  apart := by intro r hr; cases hr

/-- Every reachable state is well formed, with its requests counted. -/
theorem reachable (ifs : List SrIf) (rts : List SrRt) (es : List Event) :
    Wf ifs rts es.length ((router ifs rts).state es) ∧ Counted ((router ifs rts).state es) := by
  refine (router ifs rts).induct (I := fun es sr _ => Wf ifs rts es.length sr ∧ Counted sr) ?_ ?_ es
  · exact ⟨init_wf ifs rts, by intro r hr; cases hr⟩
  · intro es e ⟨hw, hc⟩
    have hs := step_cases hw hc e
    rw [List.length_append]
    exact ⟨hs.wf hw, hs.counted hc⟩

/-- Every step of a run has one of the shapes. -/
theorem run_step (ifs : List SrIf) (rts : List SrRt) (es : List Event) (e : Event) :
    StepsTo ifs rts es.length ((router ifs rts).state es) e ((router ifs rts).state (es ++ [e]))
      ((router ifs rts).actsAt es e) := by
  obtain ⟨hw, hc⟩ := reachable ifs rts es
  rw [System.state_snoc]
  exact step_cases hw hc e

/-- The step that handles an ARP reply flushes what waited for it. -/
theorem actsAt_reply (ifs : List SrIf) (rts : List SrRt) (es : List Event) {bytes : List UInt8} {mac : Mac} {ip : UInt32}
    (hr : IsArpReply bytes mac ip) (past heap : Mem) (iface : IfName) (now : Int) :
    (router ifs rts).actsAt es (.frame bytes past heap iface now) =
      (findReq ip ((router ifs rts).state es).cache.requests).elim [] fun r => flushActs ifs mac r.packets := by
  have hp : plan ifs rts ⟨es.length, now, heap⟩ (.ofBytes bytes past) iface = .learn mac ip := plan_learn hr past
  exact (srHandlepacket_learn (reachable ifs rts es).1 hp).2

/-- In every reachable state the pending requests are for different addresses,
each holds a packet and has been asked for one to five times, and no address
is both pending and known. -/
theorem pending_requests (ifs : List SrIf) (rts : List SrRt) (es : List Event) :
    (((router ifs rts).state es).cache.requests.map (·.ip)).Nodup ∧
    (∀ r ∈ ((router ifs rts).state es).cache.requests, r.packets ≠ [] ∧ 1 ≤ r.timesSent ∧ r.timesSent ≤ 5) ∧
    ∀ r ∈ ((router ifs rts).state es).cache.requests, ∀ e ∈ ((router ifs rts).state es).cache.entries.slots,
      e.valid = true → e.ip ≠ r.ip := by
  obtain ⟨hw, hc⟩ := reachable ifs rts es
  exact ⟨hw.ip, fun r hr => ⟨hw.nonempty r hr, hc r hr⟩, hw.apart⟩

end SimpleRouter
