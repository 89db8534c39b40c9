import SimpleRouter.Accounting
/-!
# No packet waits for ever

A sweep that comes a second or more after a request was last sent sends it once
more, or gives it up when it has been sent five times. So five such sweeps, with
any frames between them, leave none of the requests that were pending before:
`run_due` counts the sweeps that each of them can still live through. Its packets
have been transmitted by then, or freed by the sweep that gave it up, and if no frame
has come in the meantime nothing is left to wait (`packets_settled`).
-/
open Memory CProg Runs

namespace SimpleRouter

variable {ifs : List SrIf} {rts : List SrRt}

/-! ## Sweeps and seconds -/

def Event.isSweep : Event → Bool
  | .frame .. => false
  | .sweep _ => true

/-- `k` of the sweeps in a list of events read the clock a second or more after
`t` and after every sweep before them. The sweeper sleeps a second between two passes. -/
inductive Spaced : Int → Nat → List Event → Prop where
  | nil {t} : Spaced t 0 []
  | frame {t k bytes past heap iface now es} (h : Spaced t k es) : Spaced t k (.frame bytes past heap iface now :: es)
  | sweep {t t' k env es} (hlo : ∀ i, t + 1 ≤ env.clock i) (hhi : ∀ i, env.clock i ≤ t') (h : Spaced t' k es) :
      Spaced t (k + 1) (.sweep env :: es)
  | early {t t' k env es} (ht : t ≤ t') (hhi : ∀ i, env.clock i ≤ t') (h : Spaced t' k es) :
      Spaced t k (.sweep env :: es)

/-! ## What a step leaves of a request -/

section Step
variable {n : Nat} {sr sr' : SrInstance} {e : Event}

/-- The sweep `e` has made `q` of `r`; a frame has changed neither how often it was sent nor when. -/
def Event.Leaves (r q : SrArpreq) : Event → Prop
  | .frame .. => q.timesSent = r.timesSent ∧ q.sent = r.sent
  | .sweep env => ∃ k, sweepOne (env.clock k) r = some q

theorem mem_sweepList_clock {clock : Nat → Int} {k : Nat} {reqs : List SrArpreq} {q : SrArpreq}
    (h : q ∈ sweepList clock k reqs) : ∃ r ∈ reqs, ∃ i, sweepOne (clock i) r = some q := by
  induction reqs generalizing k with
  | nil => cases h
  | cons r rs ih =>
    rcases List.mem_append.1 h with h | h
    · exact ⟨r, List.mem_cons_self, k + 1, Option.mem_toList.1 h⟩
    · obtain ⟨r', hr', i, hi⟩ := ih h
      exact ⟨r', List.mem_cons_of_mem _ hr', i, hi⟩

/-- A pending request was pending before, or has just been made by a frame. -/
theorem Changes.pending (hs : Changes ifs rts n sr e sr') {q : SrArpreq} (hq : q ∈ sr'.cache.requests) :
    (∃ r ∈ sr.cache.requests, r.ptr = q.ptr ∧ e.Leaves r q) ∨
      q.ptr = n ∧ e.isSweep = false := by
  cases hs with
  | same => exact .inl ⟨q, hq, rfl, rfl, rfl⟩
  | learn => exact .inl ⟨q, List.eraseP_sublist.subset hq, rfl, rfl, rfl⟩
  | join =>
    rcases mem_updReq hq with ⟨hq', -⟩ | ⟨q', hq', -, rfl⟩
    · exact .inl ⟨q, hq', rfl, rfl, rfl⟩
    · exact .inl ⟨q', hq', rfl, rfl, rfl⟩
  | fresh =>
    rcases List.mem_cons.1 hq with rfl | hq'
    · exact .inr ⟨rfl, rfl⟩
    · exact .inl ⟨q, hq', rfl, rfl, rfl⟩
  | sweep =>
    obtain ⟨r, hr, i, hi⟩ := mem_sweepList_clock hq
    refine .inl ⟨r, hr, ?_, i, hi⟩
    rcases sweepOne_some hi with ⟨rfl, -⟩ | ⟨rfl, -⟩ <;> rfl

/-- Packets join a request in the step that makes it, or later. -/
def Later (sr : SrInstance) : Prop := ∀ r ∈ sr.cache.requests, ∀ pkt ∈ r.packets, r.ptr ≤ pkt.origin.seq

theorem Changes.later (hw : Wf ifs rts n sr) (hs : Changes ifs rts n sr e sr') (h : Later sr) : Later sr' := by
  cases hs with
  | same => exact h
  | learn => exact fun r hr => h r (List.eraseP_sublist.subset hr)
  | join hp =>
    have hseq := (plan_routed hp).2.1
    intro q hq pkt hpkt
    rcases mem_updReq hq with ⟨hq', -⟩ | ⟨q', hq', -, rfl⟩
    · exact h q hq' pkt hpkt
    · rcases List.mem_cons.1 hpkt with rfl | hpkt
      · rw [Delivery.packet, hseq]
        exact Nat.le_of_lt (hw.old q' hq')
      · exact h q' hq' pkt hpkt
  | fresh hp =>
    have hseq := (plan_routed hp).2.1
    intro q hq pkt hpkt
    rcases List.mem_cons.1 hq with rfl | hq'
    · rw [List.mem_singleton.1 hpkt, Delivery.packet, hseq]
    · exact h q hq' pkt hpkt
  | sweep =>
    intro q hq pkt hpkt
    obtain ⟨r, hr, hptr, -, hpackets⟩ := mem_of_keys (sweepList_keys _ _ _) hq
    rw [← hptr]
    exact h r hr pkt (hpackets ▸ hpkt)

/-! ## How many sweeps a request can live through -/

/-- Each of the first `m` steps' requests can live through fewer than `k` sweeps
that come a second after `t`. -/
def Due (m k : Nat) (t : Int) (sr : SrInstance) : Prop :=
  ∀ q ∈ sr.cache.requests, q.ptr < m → 6 ≤ q.timesSent + k ∧ q.sent ≤ t

theorem Due.frame {m k : Nat} {t : Int} (hm : m ≤ n) {bytes : List UInt8} {past heap : Mem} {iface : IfName} {now : Int}
    (hs : Changes ifs rts n sr (.frame bytes past heap iface now) sr') (h : Due m k t sr) : Due m k t sr' := by
  intro q hq hqm
  rcases hs.pending hq with ⟨r, hr, hptr, htimes, hsent⟩ | ⟨hqn, -⟩
  · rw [htimes, hsent]
    exact h r hr (hptr ▸ hqm)
  · omega

/-- A sweep counts once against a request if it comes late enough. -/
theorem Due.sweep {m k : Nat} {t t' : Int} {env : SweepEnv} (hlo : ∀ i, t + 1 ≤ env.clock i)
    (hhi : ∀ i, env.clock i ≤ t') (hs : Changes ifs rts n sr (.sweep env) sr') (h : Due m (k + 1) t sr) :
    Due m k t' sr' := by
  intro q hq hqm
  rcases hs.pending hq with ⟨r, hr, hptr, i, hi⟩ | ⟨-, he⟩
  · obtain ⟨hcount, hsent⟩ := h r hr (hptr ▸ hqm)
    have hclock := hlo i
    rcases sweepOne_some hi with ⟨rfl, hearly⟩ | ⟨rfl, -⟩
    · omega
    · refine ⟨?_, hhi i⟩
      change 6 ≤ r.timesSent + 1 + k
      omega
  · cases he

/-- And never works in its favour. -/
theorem Due.early {m k : Nat} {t t' : Int} {env : SweepEnv} (ht : t ≤ t') (hhi : ∀ i, env.clock i ≤ t')
    (hs : Changes ifs rts n sr (.sweep env) sr') (h : Due m k t sr) : Due m k t' sr' := by
  intro q hq hqm
  rcases hs.pending hq with ⟨r, hr, hptr, i, hi⟩ | ⟨-, he⟩
  · obtain ⟨hcount, hsent⟩ := h r hr (hptr ▸ hqm)
    rcases sweepOne_some hi with ⟨rfl, -⟩ | ⟨rfl, -⟩
    · exact ⟨hcount, by omega⟩
    · refine ⟨?_, hhi i⟩
      change 6 ≤ r.timesSent + 1 + k
      omega
  · cases he

end Step

/-! ## Every run -/

theorem run_changes (ifs : List SrIf) (rts : List SrRt) (es : List Event) (e : Event) :
    Changes ifs rts es.length ((router ifs rts).state es) e ((router ifs rts).state (es ++ [e])) :=
  (run_step ifs rts es e).changes

theorem run_later (ifs : List SrIf) (rts : List SrRt) (es : List Event) : Later ((router ifs rts).state es) := by
  refine (router ifs rts).induct (I := fun _ sr _ => Later sr) ?_ ?_ es
  · intro r hr
    cases hr
  · intro es e h
    rw [← System.state_snoc]
    exact (run_changes ifs rts es e).later (reachable ifs rts es).1 h

/-- The sweeps count against every request that was pending before them. -/
theorem run_due {m k : Nat} {t : Int} {fs : List Event} (hs : Spaced t k fs) :
    ∀ es : List Event, m ≤ es.length → Due m k t ((router ifs rts).state es) →
      ∀ q ∈ ((router ifs rts).state (es ++ fs)).cache.requests, m ≤ q.ptr := by
  induction hs with
  | nil =>
    intro es hm h q hq
    rw [List.append_nil] at hq
    by_contra hlt
    have hdue := (h q hq (Nat.lt_of_not_le hlt)).1
    have hcount := ((reachable ifs rts es).2 q hq).2
    omega
  | frame _ ih =>
    intro es hm h
    rw [List.append_cons]
    exact ih _ (by rw [List.length_append]; omega) (h.frame hm (run_changes ifs rts es _))
  | sweep hlo hhi _ ih =>
    intro es hm h
    rw [List.append_cons]
    exact ih _ (by rw [List.length_append]; omega) (h.sweep hlo hhi (run_changes ifs rts es _))
  | early ht hhi _ ih =>
    intro es hm h
    rw [List.append_cons]
    exact ih _ (by rw [List.length_append]; omega) (h.early ht hhi (run_changes ifs rts es _))

/-- Five sweeps outlive every request. -/
theorem run_outlived {t : Int} {es fs : List Event} (h : ∀ r ∈ ((router ifs rts).state es).cache.requests, r.sent ≤ t)
    (hs : Spaced t 5 fs) : ∀ q ∈ ((router ifs rts).state (es ++ fs)).cache.requests, es.length ≤ q.ptr := by
  refine run_due hs es (Nat.le_refl _) fun q hq _ => ⟨?_, h q hq⟩
  have hcount := ((reachable ifs rts es).2 q hq).1
  omega

/-- What waits behind a request that came later arrived later. -/
theorem waiting_seq {m : Nat} {sr : SrInstance} (hl : Later sr) (h : ∀ q ∈ sr.cache.requests, m ≤ q.ptr) {o : Origin}
    (ho : o ∈ waiting sr.cache.requests) : m ≤ o.seq := by
  obtain ⟨q, hq, hoq⟩ := List.mem_flatMap.1 ho
  obtain ⟨pkt, hpkt, rfl⟩ := List.mem_map.1 hoq
  exact Nat.le_trans (h q hq) (hl q hq pkt hpkt)

/-- What arrives later is something else. -/
theorem count_arrivals_append (es fs : List Event) {o : Origin} (h : o.seq < es.length) :
    (arrivals ifs rts (es ++ fs)).count o = (arrivals ifs rts es).count o := by
  induction fs using List.reverseRecOn with
  | nil => rw [List.append_nil]
  | append_singleton fs f ih =>
    have hnot : o ∉ (delivers ifs rts (es ++ fs).length f).toList.map (·.origin) := by
      intro hm
      obtain ⟨d, hd, rfl⟩ := List.mem_map.1 hm
      have hseq := delivers_seq (Option.mem_toList.1 hd)
      rw [List.length_append] at hseq
      omega
    rw [← List.append_assoc, arrivals_snoc, List.count_append, ih, List.count_eq_zero_of_not_mem hnot, Nat.add_zero]

/-- Nothing arrives twice. -/
theorem nodup_arrivals (es : List Event) : (arrivals ifs rts es).Nodup := by
  induction es using List.reverseRecOn with
  | nil => exact List.nodup_nil
  | append_singleton es e ih =>
    rw [arrivals_snoc]
    refine List.nodup_append'.2 ⟨ih, ?_, ?_⟩
    · cases delivers ifs rts es.length e with
      | none => exact List.nodup_nil
      | some d => exact List.nodup_singleton _
    · intro o ho ho'
      obtain ⟨d, hd, rfl⟩ := List.mem_map.1 ho'
      have hseq := delivers_seq (Option.mem_toList.1 hd)
      have hold := arrivals_seq ho
      omega

/-- Sweeps make no request. -/
theorem sweeps_old {es fs : List Event} (h : ∀ e ∈ fs, e.isSweep) :
    ∀ q ∈ ((router ifs rts).state (es ++ fs)).cache.requests, q.ptr < es.length := by
  induction fs using List.reverseRecOn with
  | nil =>
    rw [List.append_nil]
    exact (reachable ifs rts es).1.old
  | append_singleton fs f ih =>
    have hf := h f (List.mem_append_right _ List.mem_cons_self)
    intro q hq
    rw [← List.append_assoc] at hq
    rcases (run_changes ifs rts (es ++ fs) f).pending hq with ⟨r, hr, hptr, -⟩ | ⟨-, he⟩
    · exact hptr ▸ ih (fun e he => h e (List.mem_append_left _ he)) r hr
    · cases he.symm.trans hf

theorem router_settles (ifs : List SrIf) (rts : List SrRt) {es fs : List Event} {t : Int}
    (h : ∀ r ∈ ((router ifs rts).state es).cache.requests, r.sent ≤ t) (hs : Spaced t 5 fs) :
    ∀ o ∈ arrivals ifs rts es,
      (transmitted ((router ifs rts).trace (es ++ fs))).count o + (discarded ((router ifs rts).trace (es ++ fs))).count o = 1 ∧
      o ∉ waiting ((router ifs rts).state (es ++ fs)).cache.requests := by
  intro o ho
  have hseq := arrivals_seq ho
  have hnot : o ∉ waiting ((router ifs rts).state (es ++ fs)).cache.requests := by
    intro hw
    have := waiting_seq (run_later ifs rts (es ++ fs)) (run_outlived h hs) hw
    omega
  refine ⟨?_, hnot⟩
  have hledger := (run_ledger ifs rts (es ++ fs)).count_eq o
  rw [count_arrivals_append es fs hseq, List.count_append, List.count_append, List.count_eq_zero_of_not_mem hnot,
    List.count_eq_one_of_mem (nodup_arrivals es) ho] at hledger
  omega

/-- Whatever else happens, when five sweeps have come, each a second or more after
the one before and the first so long after the last request of the run `es`, every
packet that `es` gave the router to put out has been transmitted, or discarded by the
sweep that gave up its request, just once, and none of them waits. If there were no
frames between the sweeps, no request is pending any more. -/
theorem packets_settled (ifs : List SrIf) (rts : List SrRt) {es fs : List Event} {t : Int}
    (h : ∀ r ∈ ((router ifs rts).state es).cache.requests, r.sent ≤ t) (hs : Spaced t 5 fs) :
    (∀ o ∈ arrivals ifs rts es,
      (transmitted ((router ifs rts).trace (es ++ fs))).count o + (discarded ((router ifs rts).trace (es ++ fs))).count o = 1 ∧
      o ∉ waiting ((router ifs rts).state (es ++ fs)).cache.requests) ∧
    ((∀ e ∈ fs, e.isSweep) → ((router ifs rts).state (es ++ fs)).cache.requests = []) := by
  refine ⟨router_settles ifs rts h hs, fun hsweeps => ?_⟩
  rw [List.eq_nil_iff_forall_not_mem]
  intro q hq
  have hold := sweeps_old hsweeps q hq
  have hout := run_outlived h hs q hq
  omega

namespace Sample

/-- A packet comes for 10.0.1.7, which never answers. -/
def unanswered : List Event := [received e1 (ping [10, 0, 1, 7]) 0]

def seconds : List Event := [sweep 1, sweep 2, sweep 3, sweep 4, sweep 5]

theorem seconds_spaced : Spaced 0 5 seconds := by
  have hstep : ∀ (t : Int) (k : Nat) (es : List Event), Spaced (t + 1) k es → Spaced t (k + 1) (sweep (t + 1) :: es) :=
    fun t k es h => .sweep (fun _ => Int.le_refl _) (fun _ => Int.le_refl _) h
  apply hstep 0
  apply hstep 1
  apply hstep 2
  apply hstep 3
  apply hstep 4
  exact .nil

end Sample

open Sample in
theorem packets_settled_unanswered : arrivals Sample.ifs Sample.rts unanswered = [.forwarded 0] ∧
    (discarded ((router Sample.ifs Sample.rts).trace (unanswered ++ seconds))).count (.forwarded 0) = 1 ∧
    ((router Sample.ifs Sample.rts).state (unanswered ++ seconds)).cache.requests = [] := by
  have hsent : ∀ r ∈ ((router Sample.ifs Sample.rts).state unanswered).cache.requests, r.sent ≤ 0 := by decide +kernel
  obtain ⟨hpackets, hrest⟩ := packets_settled Sample.ifs Sample.rts hsent seconds_spaced
  have ha : arrivals Sample.ifs Sample.rts unanswered = [.forwarded 0] := by decide +kernel
  obtain ⟨hone, -⟩ := hpackets (.forwarded 0) (by rw [ha]; exact List.mem_cons_self)
  have ht : (transmitted ((router Sample.ifs Sample.rts).trace (unanswered ++ seconds))).count (.forwarded 0) = 0 := by decide +kernel
  refine ⟨ha, by omega, hrest ?_⟩
  intro e he
  simp only [seconds, List.mem_cons, List.not_mem_nil, or_false] at he
  rcases he with rfl | rfl | rfl | rfl | rfl <;> rfl

end SimpleRouter
