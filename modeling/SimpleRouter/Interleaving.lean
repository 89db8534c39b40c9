import SimpleRouter.Retries
/-!
# The packet thread and the sweeper

The packet thread goes on with a queued miss after it has released the lock:
it tests `req->times_sent`, sends the ARP request and writes the request's
counter, and a pass of the sweeper may fall between any two of these steps.
`Spares` says of a pass that it leaves the request of the miss alone where it
matters. Runs whose passes all do are serial (`serial_of_spared`); the others
transmit more than they count, or write through a pointer to freed memory.
-/
open Memory CProg Runs

namespace SimpleRouter

/-! ## The interleaved system -/

/-- Where the packet thread stands. -/
inductive Phase where
  | idle
  /-- `sr_arpcache_queuereq` has returned. -/
  | queued (m : Miss)
  /-- `req->times_sent == 0` was true. -/
  | tested (m : Miss)
  /-- The ARP request is sent. -/
  | transmitted (m : Miss)
deriving DecidableEq

/-- The miss the packet thread is busy with. -/
def Phase.miss : Phase → Option Miss
  | idle => none
  | queued m => some m
  | tested m => some m
  | transmitted m => some m

def Phase.ofMiss : Option Miss → Phase
  | none => .idle
  | some m => .queued m

structure Threads where
  sr : SrInstance
  phase : Phase

inductive ThreadEvent where
  /-- A frame for the packet thread, handled up to the queueing of a miss. -/
  | frame (bytes : List UInt8) (past heap : Mem) (iface : IfName) (now : Int)
  /-- The next step of the packet thread. -/
  | next (heap : Mem) (now : Int)
  /-- A pass of the sweeper. -/
  | sweep (env : SweepEnv)

/-- A busy packet thread takes no frame, an idle one has no next step. -/
def Threads.step (n : Nat) (s : Threads) : ThreadEvent → Threads × List Act
  | .frame bytes past heap iface now =>
    match s.phase with
    | .idle =>
      let r := handleUntilMiss ⟨n, now, heap⟩ (.ofBytes bytes past) iface s.sr
      (⟨r.st, .ofMiss r.val⟩, r.acts)
    | _ => (s, [])
  | .next heap now =>
    match s.phase with
    | .idle => (s, [])
    | .queued m =>
      let r := m.test s.sr
      (⟨r.st, if r.val then .tested m else .idle⟩, r.acts)
    | .tested m =>
      let r := m.transmit now heap s.sr
      (⟨r.st, .transmitted m⟩, r.acts)
    | .transmitted m =>
      let r := m.mark now s.sr
      (⟨r.st, .idle⟩, r.acts)
  | .sweep env =>
    let r := srArpcacheTimeout env s.sr
    (⟨r.st, s.phase⟩, r.acts)

def threads (ifs : List SrIf) (rts : List SrRt) : System Threads ThreadEvent Act where
  init := ⟨.init ifs rts, .idle⟩
  step := Threads.step

/-- With nothing in between, the steps of the packet thread are `sr_handlepacket`. -/
theorem uninterrupted (ifs : List SrIf) (rts : List SrRt) (n : Nat) (sr : SrInstance) (bytes : List UInt8)
    (past heap : Mem) (iface : IfName) (now : Int) :
    (threads ifs rts).runFrom n ⟨sr, .idle⟩
        [.frame bytes past heap iface now, .next heap now, .next heap now, .next heap now] =
      (⟨(srHandlepacket ⟨n, now, heap⟩ (.ofBytes bytes past) iface sr).st, .idle⟩,
        (srHandlepacket ⟨n, now, heap⟩ (.ofBytes bytes past) iface sr).acts) := by
  simp only [System.runFrom, threads, Threads.step, srHandlepacket, bind_st, bind_acts]
  obtain ⟨miss, sr', acts, -⟩ := handleUntilMiss ⟨n, now, heap⟩ (.ofBytes bytes past) iface sr
  cases miss with
  | none => simp [Phase.ofMiss]
  | some m =>
    simp only [Phase.ofMiss, Miss.finish, bind_st, bind_acts, ite_run]
    by_cases hv : (m.test sr').val = true
    · simp [hv]
    · simp [hv]

/-! ## What is asked of a run -/

/-- The request of a miss stays on the queue as long as the packet thread uses
it, nothing freed is touched, and once the packet thread is idle every counter
is the number of ARP requests transmitted. -/
structure Serial (s : Threads) (acts : List Act) : Prop where
  held : ∀ m, s.phase.miss = some m → ∃ r ∈ s.sr.cache.requests, r.ptr = m.req
  sound : ∀ p, .fault (.dangling p) ∉ acts
  counted : s.phase = .idle → ∀ r ∈ s.sr.cache.requests, (requestTimes r.ptr acts).length = r.timesSent

/-- What `handle_arpreq` must not find when it visits the request `r` at `now`:
before the test, that `r` is due and counts five; after it, that `r` is due. -/
def Phase.Spares (ph : Phase) (r : SrArpreq) (now : Int) : Prop :=
  match ph with
  | .idle => True
  | .queued m => r.ptr = m.req → ¬ (now - r.sent ≥ 1 ∧ r.timesSent ≥ 5)
  | .tested m => r.ptr = m.req → ¬ now - r.sent ≥ 1
  | .transmitted m => r.ptr = m.req → ¬ now - r.sent ≥ 1

instance (ph : Phase) (r : SrArpreq) (now : Int) : Decidable (ph.Spares r now) := by
  unfold Phase.Spares
  cases ph <;> infer_instance

/-- A pass that spares the request of the miss. The `k`th request is visited at
the clock reading `k + 1`. -/
def Spares (s : Threads) : ThreadEvent → Prop
  | .sweep env => ∀ rk ∈ s.sr.cache.requests.zipIdx, s.phase.Spares rk.1 (env.clock (rk.2 + 1))
  | _ => True

instance (s : Threads) (e : ThreadEvent) : Decidable (Spares s e) := by
  cases e <;> unfold Spares <;> infer_instance

/-! ## Handling a frame up to a miss -/

section UntilMiss
variable {ifs : List SrIf} {rts : List SrRt} {n : Nat} {sr : SrInstance}

/-- What happens up to a miss asks for nothing, keeps all counters, and leads
to a request that is on the queue. -/
structure UntilMiss (ifs : List SrIf) (rts : List SrRt) (n : Nat) (sr : SrInstance)
    (r : Res SrInstance Act (Option Miss)) : Prop where
  wf : Wf ifs rts (n + 1) r.st
  acts : ∀ a ∈ r.acts, a.Unscheduled ∧ ∀ p, a ≠ .fault (.dangling p)
  kept : ∀ q ∈ r.st.cache.requests,
    (∃ q' ∈ sr.cache.requests, q'.ptr = q.ptr ∧ q'.timesSent = q.timesSent) ∨ q.ptr = n ∧ q.timesSent = 0
  miss : ∀ m, r.val = some m →
    (∃ q ∈ r.st.cache.requests, q.ptr = m.req) ∧ ∃ i, srGetInterface ifs m.iface = some i

theorem UntilMiss.same (hw : Wf ifs rts n sr) {r : Res SrInstance Act (Option Miss)} (hst : r.st = sr)
    (hval : r.val = none) (ha : ∀ a ∈ r.acts, a.Unscheduled ∧ ∀ p, a ≠ .fault (.dangling p)) :
    UntilMiss ifs rts n sr r where
  wf := hst ▸ hw.mono
  acts := ha
  kept q hq := .inl ⟨q, hst ▸ hq, rfl, rfl⟩
  miss m hm := by rw [hval] at hm; cases hm

theorem sendActs_other (site : Site) (iface : IfName) (frame : List UInt8) (hs : ∀ p t, site ≠ .arpRequest p t) :
    ∀ a ∈ sendActs ifs site iface frame, a.Unscheduled ∧ ∀ p, a ≠ .fault (.dangling p) := by
  intro a ha
  rcases sendActs_cases ifs site iface frame with h | h
  · rw [h] at ha
    rw [List.mem_singleton.1 ha]
    exact ⟨⟨fun _ => rfl, fun _ _ => Act.noConfusion⟩, fun _ => Act.noConfusion⟩
  · rw [h] at ha
    rw [List.mem_singleton.1 ha]
    refine ⟨⟨fun p => ?_, fun _ _ => Act.noConfusion⟩, fun _ => Act.noConfusion⟩
    cases site with
    | arpRequest q t => exact absurd rfl (hs q t)
    | _ => rfl

/-- `sr_handlepacket` up to the queueing of a miss. -/
theorem handleUntilMiss_cases (hw : Wf ifs rts n sr) (bytes : List UInt8) (past heap : Mem) (iface : IfName)
    (now : Int) : UntilMiss ifs rts n sr (handleUntilMiss ⟨n, now, heap⟩ (.ofBytes bytes past) iface sr) := by
  have hf := handleUntilMiss_follows ⟨n, now, heap⟩ (.ofBytes bytes past) iface sr hw.queueOk
  rw [hw.ifList, hw.routes] at hf
  generalize handleUntilMiss ⟨n, now, heap⟩ (.ofBytes bytes past) iface sr = r at hf
  have hp : Planned ifs rts ⟨n, now, heap⟩ (.ofBytes bytes past) iface
    (plan ifs rts ⟨n, now, heap⟩ (.ofBytes bytes past) iface) := plan_planned
  generalize hplan : plan ifs rts ⟨n, now, heap⟩ (.ofBytes bytes past) iface = p at hf hp
  have hout : ∀ {built : List Act} {d : Delivery}, p = .output built d → UntilMiss ifs rts n sr r := by
    rintro built d rfl
    have hbuilt : ∀ a ∈ built, a.Unscheduled ∧ ∀ p, a ≠ .fault (.dangling p) := by
      intro a ha
      refine ⟨built_unscheduled hplan a ha, fun q hq => ?_⟩
      cases (mem_built hplan ha).symm.trans hq
    obtain ⟨h34, -, rt, -, hi, -⟩ := plan_routed hplan
    have hlen : d.packet.buf.length ≠ 0 := by
      have := (delivery_packet hplan).2
      omega
    have hst := hf.st
    have hacts := hf.acts
    have hval := hf.val
    cases he : srArpcacheLookup sr.cache d.nextHop with
    | some e =>
      simp only [Plan.untilMiss, Plan.acts, Plan.miss, he] at hst hacts hval
      refine .same hw hst hval fun a ha => ?_
      rw [hacts] at ha
      rcases List.mem_append.1 ha with ha | ha
      · exact hbuilt a ha
      · rw [List.mem_singleton.1 ha]
        exact ⟨⟨fun _ => rfl, fun _ _ => Act.noConfusion⟩, fun _ => Act.noConfusion⟩
    | none =>
      cases hr : findReq d.nextHop sr.cache.requests with
      | some q =>
        have hq := queuereq_join (n := n) hlen hr
        simp only [Plan.untilMiss, Plan.acts, Plan.miss, he, hq] at hst hacts hval
        have hst' : r.st = sr.updReq q.ptr (.push d.packet) := hst
        refine ⟨hst' ▸ (hw.join (delivery_packet hplan)).mono, hacts ▸ hbuilt, ?_, ?_⟩
        · intro q' hq'
          rw [hst'] at hq'
          rcases mem_updReq hq' with ⟨hq'', -⟩ | ⟨q'', hq'', -, rfl⟩
          · exact .inl ⟨q', hq'', rfl, rfl⟩
          · exact .inl ⟨q'', hq'', rfl, rfl⟩
        · intro m hm
          cases Option.some.inj (hval.symm.trans hm)
          refine ⟨⟨q.push d.packet, ?_, rfl⟩, d.iface, srGetInterface_name hi⟩
          rw [hst']
          obtain ⟨as, bs, hsplit, -, -⟩ := findReq_split hr
          have hptr := hw.ptr
          rw [hsplit] at hptr
          rw [SrInstance.updReq, SrInstance.setRequests, hsplit, updReq_middle hptr]
          simp
      | none =>
        have hn : ∀ q ∈ sr.cache.requests, q.ptr ≠ n := fun q hq => Nat.ne_of_lt (hw.old q hq)
        have hq := queuereq_new hlen hr hn
        simp only [Plan.untilMiss, Plan.acts, Plan.miss, he, hq] at hst hacts hval
        have hst' : r.st = sr.setRequests (⟨n, d.nextHop, 0, 0, [d.packet]⟩ :: sr.cache.requests) := hst
        refine ⟨hst' ▸ hw.fresh he hr (delivery_packet hplan), hacts ▸ hbuilt, ?_, ?_⟩
        · intro q' hq'
          rw [hst'] at hq'
          rcases List.mem_cons.1 hq' with rfl | hq''
          · exact .inr ⟨rfl, rfl⟩
          · exact .inl ⟨q', hq'', rfl, rfl⟩
        · intro m hm
          cases Option.some.inj (hval.symm.trans hm)
          refine ⟨⟨⟨n, d.nextHop, 0, 0, [d.packet]⟩, ?_, rfl⟩, d.iface, srGetInterface_name hi⟩
          rw [hst']
          exact List.mem_cons_self
  cases hp with
  | quiet => exact .same hw hf.st hf.val fun a ha => by rw [hf.acts] at ha; cases ha
  | crash =>
    refine .same hw hf.st hf.val fun a ha => ?_
    rw [hf.acts] at ha
    rw [List.mem_singleton.1 ha]
    exact ⟨⟨fun _ => rfl, fun _ _ => Act.noConfusion⟩, fun _ h => by cases h⟩
  | arpReply => exact .same hw hf.st hf.val (hf.acts ▸ sendActs_other _ _ _ fun _ _ => Site.noConfusion)
  | echo => exact .same hw hf.st hf.val (hf.acts ▸ sendActs_other _ _ _ fun _ _ => Site.noConfusion)
  | @learn mac ip =>
    have hst : r.st = { sr with cache := (srArpcacheInsert now sr.cache mac ip).1 } := hf.st
    refine ⟨hst ▸ (hw.learn now mac ip).mono, fun a ha => ?_, fun q hq => ?_, fun m hm => ?_⟩
    · rw [hf.acts] at ha
      simp only [Plan.acts] at ha
      split at ha
      · cases ha
      · obtain ⟨pkt, -, i, -, rfl⟩ := mem_flushActs ha
        exact ⟨⟨fun _ => rfl, fun _ _ => Act.noConfusion⟩, fun _ => Act.noConfusion⟩
    · rw [hst] at hq
      exact .inl ⟨q, List.eraseP_sublist.subset hq, rfl, rfl⟩
    · cases hf.val.symm.trans hm
  | forward => exact hout rfl
  | error => exact hout rfl

end UntilMiss

/-! ## The invariant of spared runs -/

/-- The miss whose test was true. -/
def Phase.asking : Phase → Option Miss
  | idle => none
  | queued _ => none
  | tested m => some m
  | transmitted m => some m

/-- What is transmitted for the request at `p` and not counted yet. -/
def Phase.uncounted (p : Nat) : Phase → Nat
  | idle => 0
  | queued _ => 0
  | tested _ => 0
  | transmitted m => if m.req = p then 1 else 0

variable {ifs : List SrIf} {rts : List SrRt} {n : Nat} {s : Threads} {acts : List Act}

structure Interleaved (ifs : List SrIf) (rts : List SrRt) (n : Nat) (s : Threads) (acts : List Act) : Prop where
  wf : Wf ifs rts n s.sr
  counts : ∀ r ∈ s.sr.cache.requests,
    (requestTimes r.ptr acts).length = r.timesSent + s.phase.uncounted r.ptr
  later : ∀ p, n ≤ p → requestTimes p acts = []
  miss : ∀ m, s.phase.miss = some m →
    (∃ r ∈ s.sr.cache.requests, r.ptr = m.req) ∧ ∃ i, srGetInterface ifs m.iface = some i
  unasked : ∀ m, s.phase.asking = some m → ∀ r ∈ s.sr.cache.requests, r.ptr = m.req → r.timesSent = 0
  sound : ∀ p, .fault (.dangling p) ∉ acts

theorem Interleaved.serial (h : Interleaved ifs rts n s acts) : Serial s acts where
  held m hm := (h.miss m hm).1
  sound := h.sound
  counted hi r hr := by
    have hc := h.counts r hr
    rwa [hi, Phase.uncounted, Nat.add_zero] at hc

theorem Interleaved.mono (h : Interleaved ifs rts n s acts) : Interleaved ifs rts (n + 1) s acts :=
  { h with wf := h.wf.mono, later := fun p hp => h.later p (by omega) }

theorem Interleaved.frame (h : Interleaved ifs rts n s acts) (hi : s.phase = .idle)
    {r : Res SrInstance Act (Option Miss)} (hr : UntilMiss ifs rts n s.sr r) :
    Interleaved ifs rts (n + 1) ⟨r.st, .ofMiss r.val⟩ (acts ++ r.acts) where
  wf := hr.wf
  counts q hq := by
    have hz : ∀ p, (Phase.ofMiss r.val).uncounted p = 0 := fun p => by cases r.val <;> rfl
    have hnil : requestTimes q.ptr r.acts = [] := requestTimes_eq_nil fun a ha => (hr.acts a ha).1.1 q.ptr
    rw [requestTimes_append, hnil, List.append_nil, hz]
    rcases hr.kept q hq with ⟨q', hq', hptr, htimes⟩ | ⟨hptr, htimes⟩
    · have hc := h.counts q' hq'
      rw [hi, Phase.uncounted] at hc
      rw [← hptr, hc, htimes]
    · -- a new request
      rw [hptr, htimes, h.later n (Nat.le_refl n)]
      rfl
  later p hp := by
    have hnil : requestTimes p r.acts = [] := requestTimes_eq_nil fun a ha => (hr.acts a ha).1.1 p
    rw [requestTimes_append, h.later p (by omega), hnil]
    rfl
  miss m hm := hr.miss m (by cases hv : r.val <;> rw [hv] at hm <;> cases hm; rfl)
  unasked m hm := by cases hv : r.val <;> rw [hv] at hm <;> cases hm
  sound p hp := by
    rcases List.mem_append.1 hp with hp | hp
    · exact h.sound p hp
    · exact (hr.acts _ hp).2 p rfl

/-! ### The packet thread -/

section Next
variable {m : Miss} {r : SrArpreq}

/-- The node a miss points to. -/
theorem Interleaved.deref (h : Interleaved ifs rts n s acts) (hm : s.phase.miss = some m) :
    ∃ r ∈ s.sr.cache.requests, r.ptr = m.req ∧ derefReq m.req s.sr.cache.requests = some r := by
  obtain ⟨r, hr, hrm⟩ := (h.miss m hm).1
  exact ⟨r, hr, hrm, hrm ▸ derefReq_of_mem h.wf.ptr hr⟩

theorem Interleaved.test (h : Interleaved ifs rts n s acts) (hp : s.phase = .queued m) :
    Interleaved ifs rts n ⟨(m.test s.sr).st, if (m.test s.sr).val then .tested m else .idle⟩
      (acts ++ (m.test s.sr).acts) := by
  obtain ⟨r, hr, hrm, hd⟩ := h.deref (m := m) (by rw [hp]; rfl)
  have hval : (m.test s.sr).val = decide (r.timesSent = 0) := by simp [Miss.test, hd]
  have hst : (m.test s.sr).st = s.sr := by simp [Miss.test, hd]
  have hacts : (m.test s.sr).acts = [] := by simp [Miss.test, hd]
  have hc : ∀ q ∈ s.sr.cache.requests, (requestTimes q.ptr acts).length = q.timesSent := by
    intro q hq
    have := h.counts q hq
    rwa [hp, Phase.uncounted, Nat.add_zero] at this
  rw [hval, hst, hacts, List.append_nil]
  by_cases h0 : r.timesSent = 0
  · simp only [h0, decide_true, if_true]
    refine ⟨h.wf, hc, h.later, fun m' hm' => h.miss m' (by rw [hp]; exact hm'), ?_, h.sound⟩
    intro m' hm' q hq hqm
    cases hm'
    rw [eq_of_ptr h.wf.ptr hq hr (hqm.trans hrm.symm), h0]
  · simp only [h0, decide_false, Bool.false_eq_true, if_false]
    exact ⟨h.wf, hc, h.later, (by intro m' hm'; cases hm'), (by intro m' hm'; cases hm'), h.sound⟩

theorem Interleaved.transmit (h : Interleaved ifs rts n s acts) (hp : s.phase = .tested m) (heap : Mem) (now : Int) :
    Interleaved ifs rts n ⟨(m.transmit now heap s.sr).st, .transmitted m⟩
      (acts ++ (m.transmit now heap s.sr).acts) := by
  have hm : s.phase.miss = some m := by rw [hp]; rfl
  obtain ⟨i, hi⟩ := (h.miss m hm).2
  have hi' : srGetInterface s.sr.ifList i.name = some i := h.wf.ifList ▸ srGetInterface_name hi
  have hname : m.iface = i.name := (srGetInterface_some hi).2.symm
  obtain ⟨hst, hacts⟩ := sendArpRequest_does hi' (.arpRequest m.req now) heap m.nextHop
  rw [Miss.transmit, hname, hst, hacts]
  have hone : ∀ p, requestTimes p [Act.send (.arpRequest m.req now) i.name (arpRequestFrame heap i m.nextHop)] =
      if m.req = p then [now] else [] := by
    intro p
    by_cases hp : m.req = p <;> simp [requestTimes, Act.requestTime, hp]
  refine ⟨h.wf, ?_, ?_, fun m' hm' => h.miss m' (by rw [hp]; exact hm'),
    fun m' hm' => h.unasked m' (by rw [hp]; exact hm'), ?_⟩
  · intro q hq
    have hc := h.counts q hq
    rw [hp, Phase.uncounted, Nat.add_zero] at hc
    rw [requestTimes_append, List.length_append, hc, hone, Phase.uncounted]
    split <;> rfl
  · intro p hle
    obtain ⟨r, hr, hrm⟩ := (h.miss m hm).1
    have hlt := h.wf.old r hr
    rw [requestTimes_append, h.later p hle, hone, if_neg (by omega)]
    rfl
  · intro p hmem
    rcases List.mem_append.1 hmem with hmem | hmem
    · exact h.sound p hmem
    · cases List.mem_singleton.1 hmem

/-- A write of counters leaves a well-formed state well formed. -/
theorem Wf.updReq {sr : SrInstance} (hw : Wf ifs rts n sr) (p : Nat) (f : SrArpreq → SrArpreq)
    (hf : ∀ r, (f r).key = r.key) : Wf ifs rts n (sr.updReq p f) := by
  have hk : (SimpleRouter.updReq p f sr.cache.requests).map (·.key) = sr.cache.requests.map (·.key) :=
    map_updReq (·.key) p f hf _
  have hs : ((SimpleRouter.updReq p f sr.cache.requests).map (·.key)).Sublist (sr.cache.requests.map (·.key)) :=
    hk ▸ List.Sublist.refl _
  refine hw.shrink hs fun r hr e he hv => ?_
  obtain ⟨q, hq, -, h2, -⟩ := mem_of_keys hs hr
  exact h2 ▸ hw.apart q hq e he hv

theorem Interleaved.mark (h : Interleaved ifs rts n s acts) (hp : s.phase = .transmitted m) (now : Int) :
    Interleaved ifs rts n ⟨(m.mark now s.sr).st, .idle⟩ (acts ++ (m.mark now s.sr).acts) := by
  obtain ⟨r, hr, hrm, hd⟩ := h.deref (m := m) (by rw [hp]; rfl)
  have hst : (m.mark now s.sr).st = s.sr.updReq m.req fun r => { r with sent := now, timesSent := 1 } := by
    simp [Miss.mark, hd]
  have hacts : (m.mark now s.sr).acts = [] := by simp [Miss.mark, hd]
  rw [hst, hacts, List.append_nil]
  refine ⟨h.wf.updReq _ _ fun _ => rfl, ?_, h.later, (by intro m' hm'; cases hm'), (by intro m' hm'; cases hm'), h.sound⟩
  intro q hq
  rcases mem_updReq hq with ⟨hq', hne⟩ | ⟨q', hq', hptr, rfl⟩
  · have hc := h.counts q hq'
    rw [hp, Phase.uncounted, if_neg (Ne.symm hne)] at hc
    exact hc
  · -- the request counted nothing, and one was sent
    have hc := h.counts q' hq'
    rw [hp, Phase.uncounted, if_pos hptr.symm, h.unasked m (by rw [hp]; rfl) q' hq' hptr] at hc
    exact hc

end Next

/-! ### The sweeper -/

/-- A spared request survives the pass. -/
theorem Phase.Spares.survives {ph : Phase} {r : SrArpreq} {now : Int} (hs : ph.Spares r now) {m : Miss}
    (hm : ph.miss = some m) (hr : r.ptr = m.req) : ∃ q, sweepOne now r = some q ∧ q.ptr = r.ptr := by
  have hlive : ¬ (now - r.sent ≥ 1 ∧ r.timesSent ≥ 5) := by
    cases ph with
    | idle => cases hm
    | queued m' => cases hm; exact hs hr
    | tested m' => cases hm; exact fun h => hs hr h.1
    | transmitted m' => cases hm; exact fun h => hs hr h.1
  unfold sweepOne
  split
  · split
    · exact absurd ⟨‹_›, ‹_›⟩ hlive
    · exact ⟨_, rfl, rfl⟩
  · exact ⟨r, rfl, rfl⟩

theorem Phase.Spares.not_due {ph : Phase} {r : SrArpreq} {now : Int} (hs : ph.Spares r now) {m : Miss}
    (hm : ph.asking = some m) (hr : r.ptr = m.req) : ¬ now - r.sent ≥ 1 := by
  cases ph with
  | idle => cases hm
  | queued m' => cases hm
  | tested m' => cases hm; exact hs hr
  | transmitted m' => cases hm; exact hs hr

theorem Interleaved.sweep (h : Interleaved ifs rts n s acts) {env : SweepEnv} (hs : Spares s (.sweep env)) :
    Interleaved ifs rts (n + 1) ⟨(srArpcacheTimeout env s.sr).st, s.phase⟩
      (acts ++ (srArpcacheTimeout env s.sr).acts) := by
  obtain ⟨hst, hacts⟩ := srArpcacheTimeout_spec env s.sr h.wf.ptr
  rw [h.wf.ifList, h.wf.routes] at hacts
  rw [hst, hacts]
  have hold : ∀ p, n ≤ p → ∀ r ∈ s.sr.cache.requests, r.ptr ≠ p := fun p hp r hr => by
    have := h.wf.old r hr
    omega
  -- what the condition says of one request, at the clock reading of its visit
  have hspare : ∀ r ∈ s.sr.cache.requests, ∃ now, s.phase.Spares r now ∧
      (∀ q ∈ sweepList env.clock 0 s.sr.cache.requests, q.ptr = r.ptr → sweepOne now r = some q) ∧
      ∀ q, sweepOne now r = some q → q ∈ sweepList env.clock 0 s.sr.cache.requests := by
    intro r hr
    obtain ⟨k, now, hk, rfl, -, hfate, hstay, -⟩ :=
      sweep_at ifs rts (expireEntries (env.clock 0) s.sr.cache.entries) env h.wf.ptr hr
    exact ⟨_, hs (r, k) (List.mk_mem_zipIdx_iff_getElem?.2 hk), hfate, hstay⟩
  refine ⟨(h.wf.sweep env.clock).mono, ?_, ?_, ?_, ?_, ?_⟩
  · intro q hq
    obtain ⟨r, hr, hptr, hcount⟩ := sweep_counts h.wf (expireEntries (env.clock 0) s.sr.cache.entries) env hq
    have hc := h.counts r hr
    rw [hptr] at hc
    change (requestTimes q.ptr _).length = q.timesSent + s.phase.uncounted q.ptr
    rw [requestTimes_append, List.length_append]
    omega
  · intro p hp
    rw [requestTimes_append, h.later p (by omega), requestTimes_sweep_ne (hold p (by omega))]
    rfl
  · intro m hm
    obtain ⟨⟨r, hr, hrm⟩, hi⟩ := h.miss m hm
    obtain ⟨now, hsp, -, hstay⟩ := hspare r hr
    obtain ⟨q, hq, hqr⟩ := hsp.survives hm hrm
    exact ⟨⟨q, hstay q hq, hqr.trans hrm⟩, hi⟩
  · intro m hm q hq hqm
    obtain ⟨r, hr, hptr, -, -⟩ := mem_of_keys (sweepList_keys _ _ _) hq
    obtain ⟨now, hsp, hfate, -⟩ := hspare r hr
    have hrm := hptr.trans hqm
    rcases sweepOne_some (hfate q hq hptr.symm) with ⟨rfl, -⟩ | ⟨-, hdue, -⟩
    · exact h.unasked m hm q hr hqm
    · exact absurd hdue (hsp.not_due hm hrm)
  · intro p hp
    rcases List.mem_append.1 hp with hp | hp
    · exact h.sound p hp
    · obtain ⟨r, -, now, hone, -⟩ := mem_sweepActs hp
      rcases mem_sweepOneActs hone with ⟨-, ⟨-, he | ⟨pkt, -, hu⟩⟩ | ⟨-, pkt, -, i, -, he⟩⟩
      · cases he
      · obtain ⟨i, -, he | hsend⟩ := mem_unreachActs hu
        · cases he
        · obtain ⟨best, j, e, -, -, -, he⟩ := mem_unreachSend hsend
          cases he
      · cases he

/-! ## Spared runs -/

theorem Interleaved.step (h : Interleaved ifs rts n s acts) {e : ThreadEvent} (hs : Spares s e) :
    Interleaved ifs rts (n + 1) (s.step n e).1 (acts ++ (s.step n e).2) := by
  have hidle : Interleaved ifs rts (n + 1) s (acts ++ []) := (List.append_nil acts).symm ▸ h.mono
  cases e with
  | frame bytes past heap iface now =>
    cases hp : s.phase with
    | idle =>
      simp only [Threads.step, hp]
      exact h.frame hp (handleUntilMiss_cases h.wf bytes past heap iface now)
    | queued m => simpa only [Threads.step, hp] using hidle
    | tested m => simpa only [Threads.step, hp] using hidle
    | transmitted m => simpa only [Threads.step, hp] using hidle
  | next heap now =>
    cases hp : s.phase with
    | idle => simpa only [Threads.step, hp] using hidle
    | queued m => simpa only [Threads.step, hp] using (h.test hp).mono
    | tested m => simpa only [Threads.step, hp] using (h.transmit hp heap now).mono
    | transmitted m => simpa only [Threads.step, hp] using (h.mark hp now).mono
  | sweep env => exact h.sweep hs

/-- In every interleaving whose sweeps spare the request of the miss they fall
into, the two threads are serial at every moment. -/
theorem serial_of_spared (ifs : List SrIf) (rts : List SrRt) (es : List ThreadEvent)
    (hs : (threads ifs rts).Along Spares es) : Serial ((threads ifs rts).state es) ((threads ifs rts).trace es) := by
  suffices h : Interleaved ifs rts es.length ((threads ifs rts).state es) ((threads ifs rts).trace es) from h.serial
  refine (threads ifs rts).induct_along (I := fun es s acts => Interleaved ifs rts es.length s acts) ?_ ?_ es hs
  · exact ⟨init_wf ifs rts, (by intro r hr; cases hr), fun _ _ => rfl, (by intro m hm; cases hm),
      (by intro m hm; cases hm), (by intro p hp; cases hp)⟩
  · intro es e he h
    rw [List.length_append]
    exact h.step he

namespace Sample

def arrive (bytes : List UInt8) (now : Int) : ThreadEvent := .frame bytes (fun _ => 0) (fun _ => 0) e1 now

def next (now : Int) : ThreadEvent := .next (fun _ => 0) now

def pass (now : Int) : ThreadEvent := .sweep ⟨fun _ => now, fun _ _ => 0, fun _ => 0⟩

end Sample

/-- A pass between the queueing and the test sends the first ARP request; the test then finds it counted. -/
theorem serial_of_spared_pass :
    Serial ((threads Sample.ifs Sample.rts).state
        [Sample.arrive (Sample.ping [10, 0, 1, 7]) 100, Sample.pass 100, Sample.next 100, Sample.pass 101])
      ((threads Sample.ifs Sample.rts).trace
        [Sample.arrive (Sample.ping [10, 0, 1, 7]) 100, Sample.pass 100, Sample.next 100, Sample.pass 101]) :=
  serial_of_spared Sample.ifs Sample.rts _ (by decide +kernel)

/-- A pass between the test and the write transmits an ARP request that is
never counted. A pass between the queueing and the test gives up a request
that already counts five, and the test reads freed memory. -/
theorem not_serial :
    (¬ Serial ((threads Sample.ifs Sample.rts).state
          [Sample.arrive (Sample.ping [10, 0, 1, 7]) 100, Sample.next 100, Sample.pass 100, Sample.next 100,
            Sample.next 100])
        ((threads Sample.ifs Sample.rts).trace
          [Sample.arrive (Sample.ping [10, 0, 1, 7]) 100, Sample.next 100, Sample.pass 100, Sample.next 100,
            Sample.next 100])) ∧
      ¬ Serial ((threads Sample.ifs Sample.rts).state
          [Sample.arrive (Sample.ping [10, 0, 1, 7]) 100, Sample.next 100, Sample.next 100, Sample.next 100,
            Sample.pass 101, Sample.pass 102, Sample.pass 103, Sample.pass 104,
            Sample.arrive (Sample.ping [10, 0, 1, 7]) 104, Sample.pass 105, Sample.next 105])
        ((threads Sample.ifs Sample.rts).trace
          [Sample.arrive (Sample.ping [10, 0, 1, 7]) 100, Sample.next 100, Sample.next 100, Sample.next 100,
            Sample.pass 101, Sample.pass 102, Sample.pass 103, Sample.pass 104,
            Sample.arrive (Sample.ping [10, 0, 1, 7]) 104, Sample.pass 105, Sample.next 105]) := by
  constructor
  · intro h
    exact absurd (h.counted (by decide +kernel)) (by decide +kernel)
  · intro h
    exact absurd (by decide +kernel) (h.sound 0)

end SimpleRouter
