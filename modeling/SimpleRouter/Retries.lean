import SimpleRouter.Invariants
/-!
# The ARP retry schedule

Two senders share `times_sent` and `sent`: the first request goes out when a
packet is queued, the others in sweeps. `Schedule` says that over a whole run
the counter of a pending request is the number of ARP requests transmitted for
it and its timestamp bounds their times, so a sweep's two tests speak of what
was really sent.
-/
open Memory CProg Runs

namespace SimpleRouter

variable {ifs : List SrIf} {rts : List SrRt} {n : Nat} {sr : SrInstance}

/-- An element of two lists in a row is in the first or in the second. -/
theorem split_at {α : Type} {as bs pre post : List α} {x : α} (h : as ++ bs = pre ++ x :: post) :
    (∃ cs, as = pre ++ x :: cs ∧ post = cs ++ bs) ∨ ∃ ds, pre = as ++ ds ∧ bs = ds ++ x :: post := by
  rcases List.append_eq_append_iff.1 h with ⟨cs, h1, h2⟩ | ⟨cs, h1, h2⟩
  · exact .inr ⟨cs, h1, h2⟩
  · cases cs with
    | nil => exact .inr ⟨[], by simpa using h1.symm, by simpa using h2.symm⟩
    | cons c cs =>
      simp only [List.cons_append, List.cons.injEq] at h2
      obtain ⟨rfl, rfl⟩ := h2
      exact .inl ⟨cs, h1, rfl⟩

/-! ## Transmissions for a request -/

/-- The clock reading of an ARP request transmitted for the request at `p`. -/
def Act.requestTime (p : Nat) : Act → Option Int
  | .send (.arpRequest q t) _ _ => if q = p then some t else none
  | _ => none

/-- When ARP requests were transmitted for the request at `p`. -/
def requestTimes (p : Nat) (acts : List Act) : List Int := acts.filterMap (Act.requestTime p)

@[simp] theorem requestTimes_append (p : Nat) (as bs : List Act) :
    requestTimes p (as ++ bs) = requestTimes p as ++ requestTimes p bs := List.filterMap_append

theorem requestTimes_eq_nil {p : Nat} {acts : List Act} (h : ∀ a ∈ acts, a.requestTime p = none) :
    requestTimes p acts = [] := List.filterMap_eq_nil_iff.2 h

section Sweep
variable {entries : ArpTable} {env : SweepEnv}

/-- The errors of `send_icmp_host_unreachable` are neither ARP requests nor failures. -/
theorem unreachActs_other {req : Nat} {pkt : SrPacket} {a : Act} (h : a ∈ unreachActs ifs rts entries env req pkt) :
    (∀ p, a.requestTime p = none) ∧ ∀ q t, a ≠ .fail q t := by
  obtain ⟨i, -, rfl | hs⟩ := mem_unreachActs h
  · exact ⟨fun _ => rfl, fun _ _ => Act.noConfusion⟩
  · obtain ⟨best, j, e, -, -, -, rfl⟩ := mem_unreachSend hs
    exact ⟨fun _ => rfl, fun _ _ => Act.noConfusion⟩

/-- A request is given up when it is due and counts five. -/
theorem fail_mem_sweepOne {now t : Int} {q r : SrArpreq}
    (h : .fail q t ∈ sweepOneActs ifs rts entries env now r) : q = r ∧ t = now ∧ t - r.sent ≥ 1 ∧ r.timesSent ≥ 5 := by
  rcases mem_sweepOneActs h with ⟨hdue, ⟨h5, he | ⟨pkt, -, hu⟩⟩ | ⟨-, pkt, -, i, -, he⟩⟩
  · cases he; exact ⟨rfl, rfl, hdue, h5⟩
  · exact absurd rfl ((unreachActs_other hu).2 q t)
  · cases he

theorem fail_mem_sweep {k : Nat} {reqs : List SrArpreq} {q : SrArpreq} {t : Int}
    (h : .fail q t ∈ sweepActs ifs rts entries env k reqs) : q ∈ reqs ∧ t - q.sent ≥ 1 ∧ q.timesSent ≥ 5 := by
  obtain ⟨r, hr, now, hm, -, -⟩ := mem_sweepActs h
  obtain ⟨rfl, rfl, hdue, h5⟩ := fail_mem_sweepOne hm
  exact ⟨hr, hdue, h5⟩

/-- Handling a request transmits for no other one. -/
theorem requestTimes_sweepOne_ne {p : Nat} {now : Int} {r : SrArpreq} (h : r.ptr ≠ p) :
    requestTimes p (sweepOneActs ifs rts entries env now r) = [] := by
  refine requestTimes_eq_nil fun a ha => ?_
  rcases mem_sweepOneActs ha with ⟨-, ⟨-, rfl | ⟨pkt, -, hu⟩⟩ | ⟨-, pkt, -, i, -, rfl⟩⟩
  · rfl
  · exact (unreachActs_other hu).1 p
  · simp [Act.requestTime, h]

theorem requestTimes_sweep_ne {p k : Nat} {reqs : List SrArpreq} (h : ∀ r ∈ reqs, r.ptr ≠ p) :
    requestTimes p (sweepActs ifs rts entries env k reqs) = [] := by
  induction reqs generalizing k with
  | nil => rfl
  | cons r rs ih =>
    rw [sweepActs, requestTimes_append, requestTimes_sweepOne_ne (h r (by simp)), ih fun q hq => h q (by simp [hq])]
    rfl

/-- Handling a request transmits for it exactly when it is due and counts less than five. -/
theorem requestTimes_sweepOne {now : Int} {r : SrArpreq} (hne : r.packets ≠ [])
    (hk : ∀ pkt ∈ r.packets, ∃ i, srGetInterface ifs pkt.iface = some i) :
    requestTimes r.ptr (sweepOneActs ifs rts entries env now r) =
      if now - r.sent ≥ 1 ∧ r.timesSent < 5 then [now] else [] := by
  by_cases hc : now - r.sent ≥ 1 ∧ r.timesSent < 5
  · obtain ⟨hdue, h5⟩ := hc
    rw [if_pos ⟨hdue, h5⟩, sweepOneActs, if_pos hdue, if_neg (by omega), retryActs]
    cases hp : r.packets with
    | nil => exact absurd hp hne
    | cons pkt pkts =>
      -- the attempt that is counted is really sent: the first packet's interface exists
      obtain ⟨i, hi⟩ := hk pkt (by simp [hp])
      simp [hi, requestTimes, Act.requestTime]
  · rw [if_neg hc]
    refine requestTimes_eq_nil fun a ha => ?_
    rcases mem_sweepOneActs ha with ⟨hdue, ⟨-, rfl | ⟨pkt, -, hu⟩⟩ | ⟨h5, -⟩⟩
    · rfl
    · exact (unreachActs_other hu).1 r.ptr
    · exact absurd ⟨hdue, h5⟩ hc

/-- What a sweep does with the `k`th request, the rest of the queue being about others. -/
theorem sweep_at (ifs : List SrIf) (rts : List SrRt) (entries : ArpTable) (env : SweepEnv) {reqs : List SrArpreq}
    (hp : (reqs.map (·.ptr)).Nodup) {r : SrArpreq} (hr : r ∈ reqs) :
    ∃ k now, reqs[k]? = some r ∧ now = env.clock (k + 1) ∧
      requestTimes r.ptr (sweepActs ifs rts entries env 0 reqs) =
        requestTimes r.ptr (sweepOneActs ifs rts entries env now r) ∧
      (∀ q ∈ sweepList env.clock 0 reqs, q.ptr = r.ptr → sweepOne now r = some q) ∧
      (∀ q, sweepOne now r = some q → q ∈ sweepList env.clock 0 reqs) ∧
      (∀ a ∈ sweepOneActs ifs rts entries env now r, a ∈ sweepActs ifs rts entries env 0 reqs) ∧
      ∀ t, .fail r t ∈ sweepActs ifs rts entries env 0 reqs → .fail r t ∈ sweepOneActs ifs rts entries env now r := by
  obtain ⟨as, bs, rfl⟩ := List.append_of_mem hr
  have hne := ne_of_nodup_map (·.ptr) hp
  have ha : ∀ a ∈ as, a.ptr ≠ r.ptr := fun a ha => hne a (by simp [ha])
  have hb : ∀ b ∈ bs, b.ptr ≠ r.ptr := fun b hb => hne b (by simp [hb])
  refine ⟨as.length, _, by simp, rfl, ?_, ?_, ?_, ?_, ?_⟩
  · rw [sweepActs_append, sweepActs, requestTimes_append, requestTimes_append, requestTimes_sweep_ne ha,
      requestTimes_sweep_ne hb, List.nil_append, List.append_nil, Nat.zero_add]
  · intro q hq hqr
    rw [sweepList_append, sweepList, Nat.zero_add] at hq
    rcases List.mem_append.1 hq with hq | hq
    · obtain ⟨a, ha', h1, -⟩ := mem_of_keys (sweepList_keys _ _ _) hq
      exact absurd (h1.trans hqr) (ha a ha')
    · rcases List.mem_append.1 hq with hq | hq
      · exact Option.mem_toList.1 hq
      · obtain ⟨b, hb', h1, -⟩ := mem_of_keys (sweepList_keys _ _ _) hq
        exact absurd (h1.trans hqr) (hb b hb')
  · intro q hq
    rw [sweepList_append, sweepList, Nat.zero_add, hq]
    simp
  · intro a haa
    rw [sweepActs_append, sweepActs, Nat.zero_add]
    exact List.mem_append_right _ (List.mem_append_left _ haa)
  · intro t ht
    rw [sweepActs_append, sweepActs, Nat.zero_add] at ht
    rcases List.mem_append.1 ht with ht | ht
    · exact absurd rfl (ha r (fail_mem_sweep ht).1)
    · rcases List.mem_append.1 ht with ht | ht
      · exact ht
      · exact absurd rfl (hb r (fail_mem_sweep ht).1)

/-- A sweep counts what it transmits. -/
theorem sweep_counts (hw : Wf ifs rts n sr) (entries : ArpTable) (env : SweepEnv) {q : SrArpreq}
    (hq : q ∈ sweepList env.clock 0 sr.cache.requests) :
    ∃ r ∈ sr.cache.requests, r.ptr = q.ptr ∧
      (requestTimes q.ptr (sweepActs ifs rts entries env 0 sr.cache.requests)).length + r.timesSent = q.timesSent := by
  obtain ⟨r, hr, hptr, -, -⟩ := mem_of_keys (sweepList_keys _ _ _) hq
  obtain ⟨-, now, -, -, htimes, hfate, -⟩ := sweep_at ifs rts entries env hw.ptr hr
  refine ⟨r, hr, hptr, ?_⟩
  rw [← hptr, htimes, requestTimes_sweepOne (hw.nonempty r hr) fun pkt hp => (hw.packet r hr pkt hp).1]
  rcases sweepOne_some (hfate q hq hptr.symm) with ⟨rfl, hnd⟩ | ⟨rfl, hdue, h5⟩
  · rw [if_neg (by omega), List.length_nil, Nat.zero_add]
  · rw [if_pos ⟨hdue, h5⟩, List.length_singleton, Nat.add_comm]

end Sweep

/-! ## The schedule -/

/-- How the transmissions of a run match the counters of the state it leads to. -/
structure Schedule (n : Nat) (sr : SrInstance) (acts : List Act) : Prop where
  pending : ∀ r ∈ sr.cache.requests, (requestTimes r.ptr acts).length = r.timesSent ∧
    ∀ s ∈ requestTimes r.ptr acts, s ≤ r.sent
  bounded : ∀ p, (requestTimes p acts).length ≤ 5 ∧ (requestTimes p acts).Pairwise fun s t => s + 1 ≤ t
  /-- Nothing is transmitted for a request that does not exist yet. -/
  later : ∀ p, n ≤ p → requestTimes p acts = []
  gone : ∀ req t, .fail req t ∈ acts → req.ptr < n ∧ ∀ r ∈ sr.cache.requests, r.ptr ≠ req.ptr
  failed : ∀ pre req t post, acts = pre ++ .fail req t :: post →
    (requestTimes req.ptr pre).length = 5 ∧ (∀ s ∈ requestTimes req.ptr pre, s + 1 ≤ t) ∧
      requestTimes req.ptr post = []

/-- An action that is neither an ARP request nor a failure. -/
def Act.Unscheduled (a : Act) : Prop := (∀ p, a.requestTime p = none) ∧ ∀ q t, a ≠ .fail q t

/-- A step that asks for nothing and keeps the counters keeps the schedule. -/
theorem Schedule.other {sr' : SrInstance} {acts as : List Act} (h : Schedule n sr acts)
    (ha : ∀ a ∈ as, a.Unscheduled)
    (hr : ∀ q ∈ sr'.cache.requests, ∃ r ∈ sr.cache.requests, r.ptr = q.ptr ∧ r.timesSent = q.timesSent ∧
      r.sent = q.sent) : Schedule (n + 1) sr' (acts ++ as) := by
  have hnil : ∀ p, requestTimes p as = [] := fun p => requestTimes_eq_nil fun a hm => (ha a hm).1 p
  have happ : ∀ p, requestTimes p (acts ++ as) = requestTimes p acts := fun p => by simp [hnil p]
  refine ⟨?_, ?_, ?_, ?_, ?_⟩
  · intro q hq
    obtain ⟨r, hrm, h1, h2, h3⟩ := hr q hq
    rw [happ, ← h1, ← h2, ← h3]
    exact h.pending r hrm
  · intro p
    rw [happ]; exact h.bounded p
  · intro p hp
    rw [happ]; exact h.later p (by omega)
  · intro req t hf
    rcases List.mem_append.1 hf with hf | hf
    · obtain ⟨h1, h2⟩ := h.gone req t hf
      refine ⟨by omega, fun q hq => ?_⟩
      obtain ⟨r, hrm, hrq, -⟩ := hr q hq
      exact hrq ▸ h2 r hrm
    · exact absurd rfl ((ha _ hf).2 req t)
  · intro pre req t post he
    rcases split_at he with ⟨cs, hpre, rfl⟩ | ⟨ds, -, has⟩
    · obtain ⟨h3, h4, h5⟩ := h.failed pre req t cs hpre
      exact ⟨h3, h4, by simp [h5, hnil]⟩
    · -- the failure would be one of the step's own actions
      exact absurd rfl ((ha (.fail req t) (has ▸ by simp)).2 req t)

theorem Schedule.fresh (hw : Wf ifs rts n sr) {acts built : List Act} (h : Schedule n sr acts)
    (hb : ∀ a ∈ built, a.Unscheduled) {nh : UInt32} {now : Int} {pkt : SrPacket} {iface : IfName}
    {frame : List UInt8} :
    Schedule (n + 1) (sr.setRequests (⟨n, nh, now, 1, [pkt]⟩ :: sr.cache.requests))
      (acts ++ (built ++ [.send (.arpRequest n now) iface frame])) := by
  have hb' : Schedule (n + 1) sr (acts ++ built) := h.other hb fun q hq => ⟨q, hq, rfl, rfl, rfl⟩
  have hnil : ∀ p, requestTimes p built = [] := fun p => requestTimes_eq_nil fun a hm => (hb a hm).1 p
  have hn : requestTimes n (acts ++ built) = [] := by simp [h.later n (Nat.le_refl n), hnil]
  have hself : requestTimes n [Act.send (.arpRequest n now) iface frame] = [now] := by
    simp [requestTimes, Act.requestTime]
  have hne : ∀ p, p ≠ n → requestTimes p [Act.send (.arpRequest n now) iface frame] = [] := by
    intro p hp
    simp [requestTimes, Act.requestTime, Ne.symm hp]
  rw [← List.append_assoc]
  refine ⟨?_, ?_, ?_, ?_, ?_⟩
  · intro q hq
    rcases List.mem_cons.1 hq with rfl | hq'
    · simp only [requestTimes_append, hself]
      rw [← requestTimes_append, hn]
      exact ⟨rfl, by simp⟩
    · have hqn : q.ptr ≠ n := Nat.ne_of_lt (hw.old q hq')
      rw [requestTimes_append, hne _ hqn, List.append_nil]
      exact hb'.pending q hq'
  · intro p
    rw [requestTimes_append]
    by_cases hp : p = n
    · subst hp
      rw [hn, hself]
      exact ⟨by simp, by simp⟩
    · rw [hne p hp, List.append_nil]
      exact hb'.bounded p
  · intro p hp
    rw [requestTimes_append, hb'.later p hp, hne p (by omega), List.append_nil]
  · intro req t hf
    rcases List.mem_append.1 hf with hf | hf
    · rcases List.mem_append.1 hf with hf | hf
      · obtain ⟨h1, h2⟩ := h.gone req t hf
        refine ⟨by omega, fun q hq => ?_⟩
        rcases List.mem_cons.1 hq with rfl | hq'
        · exact Nat.ne_of_gt h1
        · exact h2 q hq'
      · exact absurd rfl ((hb _ hf).2 req t)
    · cases List.mem_singleton.1 hf
  · intro pre req t post he
    rcases split_at he with ⟨cs, hpre, rfl⟩ | ⟨ds, -, has⟩
    · obtain ⟨h3, h4, h5⟩ := hb'.failed pre req t cs hpre
      have hlt : req.ptr ≠ n := by
        have hm : .fail req t ∈ acts ++ built := hpre ▸ by simp
        rcases List.mem_append.1 hm with hm | hm
        · exact Nat.ne_of_lt (h.gone req t hm).1
        · exact absurd rfl ((hb _ hm).2 req t)
      exact ⟨h3, h4, by rw [requestTimes_append, h5, hne _ hlt]; rfl⟩
    · cases ds with
      | nil => simp at has
      | cons d ds => simp at has

theorem Schedule.sweep (hw : Wf ifs rts n sr) (hc : Counted sr) {acts : List Act} (h : Schedule n sr acts)
    (entries : ArpTable) (env : SweepEnv) :
    Schedule (n + 1) { sr with cache := ⟨entries, sweepList env.clock 0 sr.cache.requests⟩ }
      (acts ++ sweepActs ifs rts entries env 0 sr.cache.requests) := by
  have hk : ∀ r ∈ sr.cache.requests, ∀ pkt ∈ r.packets, ∃ i, srGetInterface ifs pkt.iface = some i :=
    fun r hr pkt hp => (hw.packet r hr pkt hp).1
  have hold : ∀ p, n ≤ p → ∀ r ∈ sr.cache.requests, r.ptr ≠ p := fun p hp r hr => by
    have := hw.old r hr
    omega
  refine ⟨?_, ?_, ?_, ?_, ?_⟩
  · intro q hq
    obtain ⟨r, hr, hptr, -, -⟩ := mem_of_keys (sweepList_keys _ _ _) hq
    obtain ⟨-, now, -, -, htimes, hfate, -⟩ := sweep_at ifs rts entries env hw.ptr hr
    obtain ⟨hlen, hle⟩ := h.pending r hr
    rw [← hptr, requestTimes_append, htimes, requestTimes_sweepOne (hw.nonempty r hr) (hk r hr)]
    rcases sweepOne_some (hfate q hq hptr.symm) with ⟨rfl, hnd⟩ | ⟨rfl, hdue, h5⟩
    · rw [if_neg (by omega), List.append_nil]
      exact ⟨hlen, hle⟩
    · rw [if_pos ⟨hdue, h5⟩]
      refine ⟨by simp [hlen], fun s hs => ?_⟩
      rcases List.mem_append.1 hs with hs | hs
      · have := hle s hs
        simp only
        omega
      · exact Int.le_of_eq (List.mem_singleton.1 hs)
  · intro p
    by_cases hp : ∃ r ∈ sr.cache.requests, r.ptr = p
    · obtain ⟨r, hr, rfl⟩ := hp
      obtain ⟨-, now, -, -, htimes, -⟩ := sweep_at ifs rts entries env hw.ptr hr
      obtain ⟨hlen, hle⟩ := h.pending r hr
      obtain ⟨hb1, hb2⟩ := h.bounded r.ptr
      rw [requestTimes_append, htimes, requestTimes_sweepOne (hw.nonempty r hr) (hk r hr)]
      split
      · rename_i hdue
        refine ⟨by simp [hlen]; omega, List.pairwise_append.2 ⟨hb2, List.pairwise_singleton _ _, ?_⟩⟩
        intro s hs t ht
        have := hle s hs
        rw [List.mem_singleton.1 ht]
        omega
      · rw [List.append_nil]; exact ⟨hb1, hb2⟩
    · rw [requestTimes_append, requestTimes_sweep_ne (by simpa using hp), List.append_nil]
      exact h.bounded p
  · intro p hp
    rw [requestTimes_append, h.later p (by omega), requestTimes_sweep_ne (hold p (by omega))]
    rfl
  · intro req t hf
    rcases List.mem_append.1 hf with hf | hf
    · obtain ⟨h1, h2⟩ := h.gone req t hf
      refine ⟨by omega, fun q hq => ?_⟩
      obtain ⟨r, hr, hptr, -, -⟩ := mem_of_keys (sweepList_keys _ _ _) hq
      exact hptr ▸ h2 r hr
    · obtain ⟨hreq, -, -⟩ := fail_mem_sweep hf
      obtain ⟨-, now, -, -, -, hfate, -, -, hfail⟩ := sweep_at ifs rts entries env hw.ptr hreq
      obtain ⟨-, rfl, hdue, h5⟩ := fail_mem_sweepOne (hfail t hf)
      refine ⟨Nat.lt_succ_of_lt (hw.old req hreq), fun q hq hqr => ?_⟩
      -- a request that is given up does not stay
      have hnone : sweepOne t req = none := by rw [sweepOne, if_pos hdue, if_pos h5]
      exact absurd (hfate q hq hqr) (by simp [hnone])
  · intro pre req t post he
    rcases split_at he with ⟨cs, rfl, rfl⟩ | ⟨ds, rfl, has⟩
    · obtain ⟨h3, h4, h5⟩ := h.failed pre req t cs rfl
      refine ⟨h3, h4, ?_⟩
      rw [requestTimes_append, h5, requestTimes_sweep_ne (h.gone req t (by simp)).2]
      rfl
    · have hf : .fail req t ∈ sweepActs ifs rts entries env 0 sr.cache.requests := has ▸ by simp
      obtain ⟨hreq, hdue, h5⟩ := fail_mem_sweep hf
      obtain ⟨-, now, -, -, htimes, -⟩ := sweep_at ifs rts entries env hw.ptr hreq
      rw [requestTimes_sweepOne (hw.nonempty req hreq) (hk req hreq), if_neg (by omega), has] at htimes
      obtain ⟨hd, hpost⟩ : requestTimes req.ptr ds = [] ∧ requestTimes req.ptr post = [] := by
        simpa [requestTimes, Act.requestTime] using htimes
      obtain ⟨hlen, hle⟩ := h.pending req hreq
      have h5' := (hc req hreq).2
      refine ⟨by rw [requestTimes_append, hd, List.append_nil]; omega, fun s hs => ?_, hpost⟩
      rw [requestTimes_append, hd, List.append_nil] at hs
      have := hle s hs
      omega

/-- The recorded errors of `send_icmp_t3` are neither ARP requests nor failures. -/
theorem built_unscheduled {env : Env} {packet : Buf} {interface : IfName} {built : List Act} {d : Delivery}
    (hp : plan ifs rts env packet interface = .output built d) : ∀ a ∈ built, a.Unscheduled := by
  intro a ha
  rw [mem_built hp ha]
  exact ⟨fun _ => rfl, fun _ _ => Act.noConfusion⟩

/-- Every step keeps the schedule. -/
theorem StepsTo.schedule (hw : Wf ifs rts n sr) (hc : Counted sr) {e : Event} {sr' : SrInstance} {as : List Act}
    (hs : StepsTo ifs rts n sr e sr' as) {acts : List Act} (h : Schedule n sr acts) :
    Schedule (n + 1) sr' (acts ++ as) := by
  have hsame : ∀ q ∈ sr.cache.requests, ∃ r ∈ sr.cache.requests, r.ptr = q.ptr ∧ r.timesSent = q.timesSent ∧
      r.sent = q.sent := fun q hq => ⟨q, hq, rfl, rfl, rfl⟩
  have hone : ∀ a : Act, a.Unscheduled → ∀ b ∈ [a], b.Unscheduled := fun a ha b hb => List.mem_singleton.1 hb ▸ ha
  cases hs with
  | quiet => exact h.other (fun a ha => by cases ha) hsame
  | crash => exact h.other (hone _ ⟨fun _ => rfl, fun _ _ => Act.noConfusion⟩) hsame
  | refused => exact h.other (hone _ ⟨fun _ => rfl, fun _ _ => Act.noConfusion⟩) hsame
  | arpReply => exact h.other (hone _ ⟨fun _ => rfl, fun _ _ => Act.noConfusion⟩) hsame
  | echo => exact h.other (hone _ ⟨fun _ => rfl, fun _ _ => Act.noConfusion⟩) hsame
  | @learn _ _ _ _ _ mac ip =>
    refine h.other ?_ fun q hq => ⟨q, List.eraseP_sublist.subset hq, rfl, rfl, rfl⟩
    intro a ha
    cases hr : findReq ip sr.cache.requests with
    | none => simp [hr] at ha
    | some r =>
      obtain ⟨pkt, -, i, -, rfl⟩ := mem_flushActs (by simpa [hr] using ha)
      exact ⟨fun _ => rfl, fun _ _ => Act.noConfusion⟩
  | hit hp =>
    refine h.other (fun a ha => ?_) hsame
    rcases List.mem_append.1 ha with ha | ha
    · exact built_unscheduled hp a ha
    · exact hone _ ⟨fun _ => rfl, fun _ _ => Act.noConfusion⟩ a ha
  | join hp =>
    refine h.other (built_unscheduled hp) fun q hq => ?_
    rcases mem_updReq hq with ⟨hq', -⟩ | ⟨q', hq', -, rfl⟩
    · exact hsame q hq'
    · exact ⟨q', hq', rfl, rfl, rfl⟩
  | fresh hp => exact h.fresh hw (built_unscheduled hp)
  | sweep => exact h.sweep hw hc _ _

/-- Every run keeps the schedule. -/
theorem run_schedule (ifs : List SrIf) (rts : List SrRt) (es : List Event) :
    Schedule es.length ((router ifs rts).state es) ((router ifs rts).trace es) := by
  refine (router ifs rts).induct (I := fun es sr acts => Schedule es.length sr acts) ?_ ?_ es
  · refine ⟨?_, fun p => ⟨Nat.zero_le 5, List.Pairwise.nil⟩, fun p _ => rfl, ?_, ?_⟩
    · intro r hr; cases hr
    · intro req t hf; cases hf
    · intro pre req t post he; cases pre <;> cases he
  · intro es e h
    obtain ⟨hw, hc⟩ := reachable ifs rts es
    rw [List.length_append]
    exact (step_cases hw hc e).schedule hw hc h

/-! ## What is transmitted -/

/-- `frame` is an ARP request. -/
def IsArpRequest (frame : List UInt8) : Prop :=
  etherType (memOf frame) = ethertypeArp ∧ arOp (memOf frame) = arpOpRequest

/-- `frame` is an ICMP host-unreachable error. -/
def IsHostUnreachable (frame : List UInt8) : Prop := memOf frame 34 = 3 ∧ memOf frame 35 = 1

theorem not_arpRequest_of_ip {frame : List UInt8} (h : etherType (memOf frame) = ethertypeIp) :
    ¬ IsArpRequest frame := by
  rintro ⟨h', -⟩
  exact absurd (h.symm.trans h') (by decide)

section Sends
variable {e : Event} {sr' : SrInstance} {acts : List Act} {site : Site} {iface : IfName} {frame : List UInt8}

/-- An ARP request is sent for a pending request, and asks for its address. -/
theorem sent_arpRequest (hw : Wf ifs rts n sr) (hs : Sent ifs rts n sr sr' acts e site iface frame)
    (ha : IsArpRequest frame) :
    ∃ r ∈ sr'.cache.requests, (∃ t, site = .arpRequest r.ptr t) ∧ r.ip = arTip (memOf frame) := by
  cases hs with
  | arpReply ht ho => exact absurd (ho.symm.trans ha.2) (by decide)
  | echo hl ht =>
    refine absurd ha (not_arpRequest_of_ip ?_)
    rw [echoBuf_type (by simp; omega), etherType_ofBytes (by omega), ht]
  | flushed h hr hp =>
    exact absurd ha (not_arpRequest_of_ip (etherType_setEth _ _ (hw.packet _ (findReq_some hr).1 _ hp).2))
  | direct hp =>
    have h34 := (plan_routed hp).1
    exact absurd ha (not_arpRequest_of_ip (etherType_setEth _ _ (by omega)))
  | first hr hn => exact ⟨_, hr, ⟨_, by rw [hn]⟩, (arpRequestFrame_fields _ _ _).2.2.symm⟩
  | retry hr hdue h5 hstay => exact ⟨_, hstay, ⟨_, rfl⟩, (arpRequestFrame_fields _ _ _).2.2.symm⟩
  | unreachable => exact absurd ha (not_arpRequest_of_ip (etherType_setEth _ _ (by simp [unreachError])))

/-- What is counted as an ARP request is one. -/
theorem sent_isArpRequest {p : Nat} {t : Int} (hs : Sent ifs rts n sr sr' acts e (.arpRequest p t) iface frame) :
    IsArpRequest frame := by
  cases hs with
  | first => exact ⟨(arpRequestFrame_fields _ _ _).1, (arpRequestFrame_fields _ _ _).2.1⟩
  | retry => exact ⟨(arpRequestFrame_fields _ _ _).1, (arpRequestFrame_fields _ _ _).2.1⟩

/-- Host-unreachable errors are built when a request is given up, about its packets. -/
theorem built_hostUnreachable (hs : StepsTo ifs rts n sr e sr' acts) (hm : .build site frame ∈ acts)
    (hu : IsHostUnreachable frame) :
    ∃ r t, .fail r t ∈ acts ∧ ∃ pkt ∈ r.packets, site = .hostUnreachable pkt.origin r.ptr := by
  obtain ⟨_, _, _, _, _, _, _, -, hp, hb⟩ | ⟨env, rfl, hm⟩ :=
    hs.recorded hm (fun _ _ _ => Act.noConfusion) (fun _ _ _ => Act.noConfusion) (fun _ => Act.noConfusion)
  · -- the errors of `send_icmp_t3` have other types and codes
    obtain ⟨-, -, hf | ⟨orig, type, code, he⟩⟩ := plan_output hp
    · rw [hf.built] at hb
      cases hb
    · rw [he.built] at hb
      cases List.mem_singleton.1 hb
      have hk := he.kind
      obtain ⟨h3, h1⟩ := hu
      rw [he.frame, memOf_bytes _ _ (by simp), t3Buf, (errorBuf_type ..).1] at h3
      rw [he.frame, memOf_bytes _ _ (by simp), t3Buf, (errorBuf_type ..).2] at h1
      subst h3 h1
      exact absurd hk (by decide)
  · cases hs with
    | sweep =>
      obtain ⟨r, hr, now, hone, hall, -⟩ := mem_sweepActs hm
      rcases mem_sweepOneActs hone with ⟨hdue, ⟨h5, he | ⟨pkt, hpkt, hu⟩⟩ | ⟨-, pkt, -, i, -, he⟩⟩
      · cases he
      · obtain ⟨i, -, he | hsend⟩ := mem_unreachActs hu
        · cases he
          exact ⟨r, now, hall _ (fail_mem_sweepOneActs hdue h5), pkt, hpkt, rfl⟩
        · obtain ⟨best, j, e, -, -, -, he⟩ := mem_unreachSend hsend
          cases he
      · cases he

/-- A sweep that takes a request away has given it up. -/
theorem swept_away (hw : Wf ifs rts n sr) {env : SweepEnv} (hs : StepsTo ifs rts n sr (.sweep env) sr' acts)
    {r : SrArpreq} (hr : r ∈ sr.cache.requests) (hgone : ∀ q ∈ sr'.cache.requests, q.ptr ≠ r.ptr) :
    ∃ t, .fail r t ∈ acts := by
  cases hs with
  | sweep =>
    obtain ⟨-, now, -, -, -, -, hstay, hacts, -⟩ := sweep_at ifs rts (expireEntries (env.clock 0) sr.cache.entries) env hw.ptr hr
    refine ⟨now, hacts _ ?_⟩
    cases hone : sweepOne now r with
    | some q =>
      have hq : q.ptr = r.ptr := by
        rcases sweepOne_some hone with ⟨rfl, -⟩ | ⟨rfl, -⟩ <;> rfl
      exact absurd hq (hgone q (hstay q hone))
    | none =>
      unfold sweepOne at hone
      split at hone
      · rename_i hdue
        split at hone
        · rename_i h5
          exact fail_mem_sweepOneActs hdue h5
        · cases hone
      · cases hone

end Sends

/-- The ARP retry schedule. Over every run, for every request node `p`: at most
five ARP requests are transmitted, each at least a second after the one
before; the count kept in a pending request is the number transmitted; a
request is given up after exactly five, at least a second after the last, and
then no more are sent. In every step, each ARP request that goes out is one of
these and asks for the address of its pending request; a request that a sweep
removes has been given up; and host-unreachable errors are built only about
the packets of a request that is given up in that step. -/
theorem arp_retry_schedule (ifs : List SrIf) (rts : List SrRt) (es : List Event) :
    (∀ p, (requestTimes p ((router ifs rts).trace es)).length ≤ 5 ∧
      (requestTimes p ((router ifs rts).trace es)).Pairwise fun s t => s + 1 ≤ t) ∧
    (∀ r ∈ ((router ifs rts).state es).cache.requests,
      (requestTimes r.ptr ((router ifs rts).trace es)).length = r.timesSent) ∧
    (∀ pre r t post, (router ifs rts).trace es = pre ++ .fail r t :: post →
      (requestTimes r.ptr pre).length = 5 ∧ (∀ s ∈ requestTimes r.ptr pre, s + 1 ≤ t) ∧
        requestTimes r.ptr post = []) ∧
    ∀ e,
      (∀ site iface frame, .send site iface frame ∈ (router ifs rts).actsAt es e →
        (IsArpRequest frame → ∃ r ∈ ((router ifs rts).state (es ++ [e])).cache.requests,
          (∃ t, site = .arpRequest r.ptr t) ∧ r.ip = arTip (memOf frame)) ∧
        ∀ p t, site = .arpRequest p t → IsArpRequest frame) ∧
      (∀ env, e = .sweep env → ∀ r ∈ ((router ifs rts).state es).cache.requests,
        (∀ q ∈ ((router ifs rts).state (es ++ [e])).cache.requests, q.ptr ≠ r.ptr) →
        ∃ t, .fail r t ∈ (router ifs rts).actsAt es e) ∧
      ∀ site frame, .build site frame ∈ (router ifs rts).actsAt es e → IsHostUnreachable frame →
        ∃ r t, .fail r t ∈ (router ifs rts).actsAt es e ∧
          ∃ pkt ∈ r.packets, site = .hostUnreachable pkt.origin r.ptr := by
  have h := run_schedule ifs rts es
  refine ⟨h.bounded, fun r hr => (h.pending r hr).1, h.failed, fun e => ?_⟩
  have hw := (reachable ifs rts es).1
  have hs := run_step ifs rts es e
  refine ⟨fun site iface frame hm => ⟨sent_arpRequest hw (hs.sent hm), ?_⟩, ?_, ?_⟩
  · rintro p t rfl
    exact sent_isArpRequest (hs.sent hm)
  · rintro env rfl r hr
    exact swept_away hw hs hr
  · exact fun site frame hm => built_hostUnreachable hs hm

end SimpleRouter
