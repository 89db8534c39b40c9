import SimpleRouter.Provenance
import SimpleRouter.Bounds
import SimpleRouter.RouteSelection
/-!
# ICMP errors: what they are about, and where they come from

Errors are created in two places, by `send_icmp_t3` about the frame being
handled and by `send_icmp_host_unreachable` about the packets of a request that
is given up. Neither looks at what the packet is, so
`no_error_about_error_iff` says when no ICMP error is answered with another.
Both send along the route back to the packet's source, but the second writes
the address of the interface the packet was to leave through into its error;
`uniform_source_iff` says when that makes no difference.
-/
open Memory CProg Runs

namespace SimpleRouter

variable {ifs : List SrIf} {rts : List SrRt} {n : Nat} {sr : SrInstance}

/-! ## What an error is about -/

/-- `bytes` is an ICMP error message: protocol 1, and type 3 or 11 behind an IP
header of at least five words. -/
def IsIcmpError (bytes : List UInt8) : Prop :=
  etherType (memOf bytes) = ethertypeIp ∧ 5 ≤ ipHl (memOf bytes) ∧ ipP (memOf bytes) = ipProtocolIcmp ∧
    (memOf bytes (14 + 4 * ipHl (memOf bytes)) = 3 ∨ memOf bytes (14 + 4 * ipHl (memOf bytes)) = 11)

instance (bytes : List UInt8) : Decidable (IsIcmpError bytes) := inferInstanceAs (Decidable (_ ∧ _ ∧ _ ∧ _))

/-- After the events `es`, the last of which was taken in state `sr`: the error
of `site` is about `packet`. -/
def ErrorAbout (es : List Event) (sr : SrInstance) : Site → List UInt8 → Prop
  | .direct (.icmpError k), packet => ∃ past heap iface now, es[k]? = some (.frame packet past heap iface now)
  | .flushed (.icmpError k), packet => ∃ past heap iface now, es[k]? = some (.frame packet past heap iface now)
  | .hostUnreachable o req, packet =>
    ∃ r ∈ sr.cache.requests, r.ptr = req ∧ ∃ pkt ∈ r.packets, pkt.origin = o ∧ pkt.buf = packet
  | _, _ => False

theorem IsIcmpError.length {bytes : List UInt8} (h : IsIcmpError bytes) : 34 < bytes.length := by
  obtain ⟨-, h5, -, ht⟩ := h
  by_contra hl
  have hz : memOf bytes (14 + 4 * ipHl (memOf bytes)) = 0 := List.getD_eq_default _ _ (by omega)
  rw [hz] at ht
  rcases ht with ht | ht <;> exact absurd ht (by decide)

/-! ## Errors created by a step -/

theorem planError_builds {env : Env} {packet : Buf} {type code : UInt8} :
    (∃ d, planError ifs rts env packet type code = .output [.build (.direct (.icmpError env.seq)) d.frame] d) ↔
      wayBack ifs rts (packet.mem.u32 26) = true := by
  unfold planError wayBack
  cases hrt : lpmLookup rts (packet.mem.u32 26) with
  | none => simp
  | some rt =>
    cases hi : srGetInterface ifs rt.interface with
    | none => simp [hi]
    | some i => simp [hi]

/-- When an ICMP error makes `send_icmp_t3` answer: it is for somebody else,
its TTL is spent or it has no route, and there is a way back. -/
theorem plan_builds {bytes : List UInt8} (h : IsIcmpError bytes) (env : Env) (past : Mem) (iface : IfName) :
    (∃ d, plan ifs rts env (.ofBytes bytes past) iface = .output [.build (.direct (.icmpError env.seq)) d.frame] d) ↔
      srGetInterfaceByIp ifs (ipDst (memOf bytes)) = none ∧
        (ipTtl (memOf bytes) ≤ 1 ∨ lpmLookup rts (ipDst (memOf bytes)) = none) ∧
        wayBack ifs rts (ipSrc (memOf bytes)) = true := by
  have hl := h.length
  obtain ⟨ht, -, hp, -⟩ := h
  have hdst : (Buf.ofBytes bytes past).mem.u32 30 = ipDst (memOf bytes) := ofBytes_u32 (by omega)
  have hsrc : (Buf.ofBytes bytes past).mem.u32 26 = ipSrc (memOf bytes) := ofBytes_u32 (by omega)
  have httl : (Buf.ofBytes bytes past).mem 22 = ipTtl (memOf bytes) := ofBytes_mem (by omega)
  rw [plan_ip ifs rts env past iface ht (by omega), planIp_bytes ifs rts env past iface (by omega)]
  cases hus : srGetInterfaceByIp ifs (ipDst (memOf bytes)) with
  | some i =>
    -- an ICMP packet for the router is answered by an echo reply or not at all
    rw [Option.isSome_some, if_pos rfl, if_pos hp]
    refine iff_of_false ?_ (by simp)
    rintro ⟨d, hd⟩
    split at hd
    · unfold planEcho at hd
      split at hd <;> cases hd
    · cases hd
  | none =>
    rw [Option.isSome_none, if_neg Bool.false_ne_true, planForward, httl]
    by_cases hexp : ipTtl (memOf bytes) ≤ 1
    · rw [if_pos hexp, planError_builds, hsrc]
      simp [hexp]
    · rw [if_neg hexp, hdst]
      cases hrt : lpmLookup rts (ipDst (memOf bytes)) with
      | none =>
        rw [planError_builds, forwardBuf_u32 _ (.inr (Nat.le_refl 26)), hsrc]
        simp
      | some rt =>
        refine iff_of_false ?_ (by simp [hexp])
        rintro ⟨d, hd⟩
        simp only at hd
        split at hd <;> cases hd

section Frames
variable {bytes : List UInt8} {past heap : Mem} {iface : IfName} {now : Int}

/-- The errors a frame makes the router create are those of `send_icmp_t3`. -/
theorem StepsTo.frame_build {sr' : SrInstance} {acts : List Act} {site : Site} {frame : List UInt8}
    (hs : StepsTo ifs rts n sr (.frame bytes past heap iface now) sr' acts) (hm : .build site frame ∈ acts) :
    site = .direct (.icmpError n) ∧ ∃ d, plan ifs rts ⟨n, now, heap⟩ (.ofBytes bytes past) iface =
      .output [.build (.direct (.icmpError n)) d.frame] d := by
  obtain ⟨_, _, _, _, _, built, d, he, hp, hb⟩ | ⟨env, he, -⟩ :=
    hs.recorded hm (fun _ _ _ => Act.noConfusion) (fun _ _ _ => Act.noConfusion) (fun _ => Act.noConfusion)
  · cases he
    obtain ⟨-, -, hf | ⟨orig, type, code, he⟩⟩ := plan_output hp
    · rw [hf.built] at hb
      cases hb
    · rw [he.built] at hb hp
      cases List.mem_singleton.1 hb
      exact ⟨rfl, d, hp⟩
  · cases he

/-- An error that is planned is created. -/
theorem StepsTo.build_mem {sr' : SrInstance} {acts : List Act} {d : Delivery} {site : Site} {frame : List UInt8}
    (hs : StepsTo ifs rts n sr (.frame bytes past heap iface now) sr' acts)
    (hp : plan ifs rts ⟨n, now, heap⟩ (.ofBytes bytes past) iface = .output [.build site frame] d) :
    .build site frame ∈ acts := by
  have hd : delivers ifs rts n (.frame bytes past heap iface now) = some d := delivers_frame.2 ⟨_, hp⟩
  obtain ⟨built, _, _, _, _, _, he, hp', hacts⟩ := hs.delivered hd
  cases he
  cases hp.symm.trans hp'
  rcases hacts with ⟨ent, -, rfl⟩ | ⟨-, rfl | rfl⟩
  · exact List.mem_append_left _ List.mem_cons_self
  · exact List.mem_cons_self
  · exact List.mem_append_left _ List.mem_cons_self

end Frames

/-- The errors a sweep creates are about the packets of the requests it gives up. -/
theorem sweep_build_iff {entries : ArpTable} {env : SweepEnv} {k : Nat} {reqs : List SrArpreq} {site : Site}
    {frame : List UInt8} : .build site frame ∈ sweepActs ifs rts entries env k reqs ↔
      ∃ r ∈ givenUp env.clock k reqs, ∃ pkt ∈ r.packets, site = .hostUnreachable pkt.origin r.ptr ∧
        ∃ i, srGetInterface ifs pkt.iface = some i ∧ frame = (unreachError env i pkt).bytes := by
  rw [mem_sweepActs_givenUp (fun _ _ => Act.noConfusion) (fun _ _ _ _ => Act.noConfusion)]
  refine exists_congr fun r => and_congr_right fun _ => exists_congr fun pkt => and_congr_right fun _ => ?_
  constructor
  · intro h
    obtain ⟨i, hi, he | hsend⟩ := mem_unreachActs h
    · cases he
      exact ⟨rfl, i, hi, rfl⟩
    · obtain ⟨_, _, _, _, _, _, he⟩ := mem_unreachSend hsend
      cases he
  · rintro ⟨rfl, i, hi, rfl⟩
    rw [unreachActs, hi]
    exact List.mem_cons_self

/-! ## Errors about errors -/

/-- The step that takes `e` in state `sr` gives the router no reason to create
an error about an ICMP error. -/
def AsksNoError (ifs : List SrIf) (rts : List SrRt) (sr : SrInstance) : Event → Prop
  | .frame bytes _ _ _ _ => IsIcmpError bytes →
      (srGetInterfaceByIp ifs (ipDst (memOf bytes))).isSome ∨
        1 < ipTtl (memOf bytes) ∧ (lpmLookup rts (ipDst (memOf bytes))).isSome ∨
        wayBack ifs rts (ipSrc (memOf bytes)) = false
  | .sweep env => ∀ r ∈ givenUp env.clock 0 sr.cache.requests, ∀ pkt ∈ r.packets, ¬ IsIcmpError pkt.buf

theorem asksNoError_iff {bytes : List UInt8} (h : IsIcmpError bytes) (env : Env) (past : Mem) (iface : IfName) :
    (¬ ∃ d, plan ifs rts env (.ofBytes bytes past) iface = .output [.build (.direct (.icmpError env.seq)) d.frame] d) ↔
      (srGetInterfaceByIp ifs (ipDst (memOf bytes))).isSome ∨
        1 < ipTtl (memOf bytes) ∧ (lpmLookup rts (ipDst (memOf bytes))).isSome ∨
        wayBack ifs rts (ipSrc (memOf bytes)) = false := by
  rw [plan_builds h]
  simp only [Option.isSome_iff_ne_none, ← UInt8.not_le, ← Bool.not_eq_true]
  tauto

/-- A step creates no error about an ICMP error exactly if it has no reason to. -/
theorem step_error_iff (hw : Wf ifs rts n sr) {es : List Event} (hn : es.length = n) (e : Event) {sr' : SrInstance}
    {acts : List Act} (hs : StepsTo ifs rts n sr e sr' acts) :
    (∀ site frame, .build site frame ∈ acts → ∀ packet, ErrorAbout (es ++ [e]) sr site packet → ¬ IsIcmpError packet) ↔
      AsksNoError ifs rts sr e := by
  cases e with
  | frame bytes past heap iface now =>
    have hlast : (es ++ [Event.frame bytes past heap iface now])[n]? = some (.frame bytes past heap iface now) := by
      subst hn
      simp
    constructor
    · intro h herr
      refine (asksNoError_iff herr ⟨n, now, heap⟩ past iface).1 ?_
      rintro ⟨d, hp⟩
      exact h _ _ (hs.build_mem hp) bytes ⟨past, heap, iface, now, hlast⟩ herr
    · intro h site frame hm packet habout herr
      obtain ⟨rfl, hp⟩ := hs.frame_build hm
      obtain ⟨past', heap', iface', now', he⟩ := habout
      cases hlast.symm.trans he
      exact (asksNoError_iff herr ⟨n, now, heap⟩ past iface).2 (h herr) hp
  | sweep env =>
    cases hs with
    | sweep =>
    constructor
    · intro h r hr pkt hpkt
      have hmem := givenUp_subset hr
      obtain ⟨i, hi⟩ := (hw.packet r hmem pkt hpkt).1
      exact h _ _ (sweep_build_iff.2 ⟨r, hr, pkt, hpkt, rfl, i, hi, rfl⟩) pkt.buf
        ⟨r, hmem, rfl, pkt, hpkt, rfl, rfl⟩
    · intro h site frame hm packet habout
      obtain ⟨r, hr, pkt, hpkt, rfl, i, hi, -⟩ := sweep_build_iff.1 hm
      obtain ⟨r', hr', hptr, pkt', hpkt', -, rfl⟩ := habout
      obtain rfl := eq_of_ptr hw.ptr hr' (givenUp_subset hr) hptr
      exact h r' hr pkt' hpkt'

/-- No step of a run creates an ICMP error about an ICMP error, be it one that
was received or one that waited in the queue, if and only if no step of it has
a reason to. -/
theorem no_error_about_error_iff (ifs : List SrIf) (rts : List SrRt) (es : List Event) :
    (∀ pre e post, es = pre ++ e :: post → ∀ site frame, .build site frame ∈ (router ifs rts).actsAt pre e →
      ∀ packet, ErrorAbout (pre ++ [e]) ((router ifs rts).state pre) site packet → ¬ IsIcmpError packet) ↔
    (router ifs rts).Along (AsksNoError ifs rts) es := by
  refine (router ifs rts).forall_steps_iff (fun pre e => ?_) es
  exact step_error_iff (reachable ifs rts pre).1 rfl e (run_step ifs rts pre e)

/-- Every error that is created is about some packet. -/
theorem created_about (ifs : List SrIf) (rts : List SrRt) (es : List Event) (e : Event) {site : Site}
    {frame : List UInt8} (hm : .build site frame ∈ (router ifs rts).actsAt es e) :
    ∃ packet, ErrorAbout (es ++ [e]) ((router ifs rts).state es) site packet := by
  have hs := run_step ifs rts es e
  generalize (router ifs rts).state (es ++ [e]) = sr' at hs
  generalize (router ifs rts).actsAt es e = acts at hs hm
  cases e with
  | frame bytes past heap iface now =>
    obtain ⟨rfl, -⟩ := hs.frame_build hm
    exact ⟨bytes, past, heap, iface, now, by simp⟩
  | sweep env =>
    cases hs with
    | sweep =>
    obtain ⟨r, hr, pkt, hpkt, rfl, -⟩ := sweep_build_iff.1 hm
    exact ⟨pkt.buf, r, givenUp_subset hr, rfl, pkt, hpkt, rfl, rfl⟩

/-- An ICMP error with its TTL spent is answered with another. -/
theorem error_about_error :
    ¬ ∀ pre e post, [Sample.received Sample.e1 (((Sample.ping [10, 0, 1, 7]).set 22 1).set 34 11) 100] =
        pre ++ e :: post → ∀ site frame,
      .build site frame ∈ (router Sample.ifs Sample.rts).actsAt pre e → ∀ packet,
        ErrorAbout (pre ++ [e]) ((router Sample.ifs Sample.rts).state pre) site packet → ¬ IsIcmpError packet := by
  intro h
  have herr : IsIcmpError (((Sample.ping [10, 0, 1, 7]).set 22 1).set 34 11) := by decide +kernel
  obtain ⟨d, hd⟩ := (@plan_builds Sample.ifs Sample.rts _ herr ⟨0, 100, fun _ => 0⟩ (fun _ => 0) Sample.e1).2
    (by decide +kernel)
  have hstep := run_step Sample.ifs Sample.rts []
    (Sample.received Sample.e1 (((Sample.ping [10, 0, 1, 7]).set 22 1).set 34 11) 100)
  exact h [] _ [] rfl _ _ (hstep.build_mem hd) _ ⟨_, _, _, _, rfl⟩ herr

/-! ## The source address of an error -/

/-- `frame` leaves through the interface of the best route to `src`, and names
that interface's address as its source. -/
def FromWayBack (ifs : List SrIf) (rts : List SrRt) (src : UInt32) (iface : IfName) (frame : List UInt8) : Prop :=
  ∃ rt i, BestRoute rts src rt ∧ srGetInterface ifs rt.interface = some i ∧ iface = i.name ∧
    ipSrc (memOf frame) = i.ip

/-- In the step that takes `e` in state `sr`, each packet that is given up and
whose way back is known was to leave through an interface with the address of
the one on its way back. -/
def SameAddress (ifs : List SrIf) (rts : List SrRt) (sr : SrInstance) : Event → Prop
  | .frame _ _ _ _ _ => True
  | .sweep env => ∀ r ∈ givenUp env.clock 0 sr.cache.requests, ∀ pkt ∈ r.packets, ∀ i rt j,
      srGetInterface ifs pkt.iface = some i → BestRoute rts (ipSrc (memOf pkt.buf)) rt → rt.mask ≠ 0 →
      srGetInterface ifs rt.interface = some j →
      (lookupLoop (nextHop rt (ipSrc (memOf pkt.buf))) none (expireEntries (env.clock 0) sr.cache.entries).slots).isSome →
      i.ip = j.ip

/-- The delivery of an error of `send_icmp_t3` goes back to the source of the frame it is about. -/
theorem delivers_error {e : Event} {k m : Nat} {d : Delivery} (h : delivers ifs rts k e = some d)
    (ho : d.origin = .icmpError m) : ∃ bytes past heap iface now, e = .frame bytes past heap iface now ∧
      14 ≤ d.frame.length ∧ ipSrc (memOf d.frame) = d.iface.ip ∧ RoutedBy ifs rts d (ipSrc (memOf bytes)) := by
  obtain ⟨built, bytes, past, heap, iface, now, rfl, hp⟩ := delivers_plan h
  obtain ⟨h34, -, hf | ⟨orig, type, code, he⟩⟩ := plan_output hp
  · rw [hf.origin] at ho
    cases ho
  · rw [Buf.size_ofBytes] at h34
    have hsrc : orig.mem.u32 26 = ipSrc (memOf bytes) := by
      rcases he.about with rfl | rfl
      · exact ofBytes_u32 (by omega)
      · exact (forwardBuf_u32 _ (.inr (Nat.le_refl 26))).trans (ofBytes_u32 (by omega))
    refine ⟨bytes, past, heap, iface, now, rfl, ?_, ?_, hsrc ▸ he.route⟩
    · rw [he.frame]
      simp
    · rw [he.frame, ipSrc_t3Buf]

theorem ipSrc_setEth (dhost : Option Mac) (shost : Mac) {bs : List UInt8} (h : 14 ≤ bs.length) :
    ipSrc (memOf (setEth dhost shost bs)) = ipSrc (memOf bs) :=
  Mem.u32_congr fun _ _ => memOf_setEth _ _ h (by omega)

/-- An error is sent the way it was routed, whenever it is sent. -/
theorem fromWayBack_delivery {d : Delivery} {src : UInt32} (h14 : 14 ≤ d.frame.length)
    (hsrc : ipSrc (memOf d.frame) = d.iface.ip) (hr : RoutedBy ifs rts d src) (dhost : Option Mac) (shost : Mac) :
    FromWayBack ifs rts src d.iface.name (setEth dhost shost d.frame) := by
  obtain ⟨rt, hrt, hi, -⟩ := hr
  exact ⟨rt, d.iface, (lpmLookup_best.1 hrt).1, hi, rfl, (ipSrc_setEth dhost shost h14).trans hsrc⟩

/-- The queue holds an error until the frame it is about is long gone, but that frame is known. -/
theorem Queued.about {es : List Event} (hq : Queued ifs rts es sr) {r : SrArpreq} (hr : r ∈ sr.cache.requests)
    {pkt : SrPacket} (hp : pkt ∈ r.packets) {k : Nat} (ho : pkt.origin = .icmpError k) (e : Event) :
    ∃ packet, ErrorAbout (es ++ [e]) sr (.flushed pkt.origin) packet := by
  obtain ⟨e', d, he, hd, rfl, -⟩ := hq r hr pkt hp
  have ho' : d.origin = .icmpError k := ho
  simp only [Delivery.packet, ho'] at he hd ⊢
  obtain ⟨bytes, past, heap, iface, now, rfl, -⟩ := delivers_error hd ho'
  exact ⟨bytes, past, heap, iface, now, getElem?_snoc he e⟩

/-- Every error a frame makes the router transmit, at once or from the queue, is from the way back. -/
theorem Sent.fromWayBack {es : List Event} (hq : Queued ifs rts es sr) {bytes : List UInt8} {past heap : Mem}
    {iface name : IfName} {now : Int} {sr' : SrInstance} {acts : List Act} {site : Site} {frame : List UInt8}
    (hs : Sent ifs rts es.length sr sr' acts (.frame bytes past heap iface now) site name frame) {packet : List UInt8}
    (ha : ErrorAbout (es ++ [.frame bytes past heap iface now]) sr site packet) :
    FromWayBack ifs rts (ipSrc (memOf packet)) name frame := by
  cases hs with
  | arpReply => cases ha
  | echo => cases ha
  | first => cases ha
  | @flushed _ _ _ _ _ mac ip r pkt i h hr hp hi =>
    obtain ⟨e, d, he, hd, rfl, -⟩ := hq r (findReq_some hr).1 pkt hp
    cases ho : d.origin with
    | forwarded k =>
      simp only [Delivery.packet, ho] at ha
      cases ha
    | icmpError k =>
      simp only [Delivery.packet, ho] at ha he hd
      obtain ⟨bytes', past', heap', iface', now', rfl, h14, hsrc, hroute⟩ := delivers_error hd ho
      obtain ⟨past'', heap'', iface'', now'', hk⟩ := ha
      cases (getElem?_snoc he _).symm.trans hk
      rw [Delivery.packet, setEth_setEth _ _ _ h14]
      exact fromWayBack_delivery h14 hsrc hroute _ _
  | @direct _ _ _ _ _ built d ent hp he =>
    have hd : delivers ifs rts es.length (.frame bytes past heap iface now) = some d := delivers_frame.2 ⟨_, hp⟩
    have hseq : d.origin.seq = es.length := (plan_routed hp).2.1
    cases ho : d.origin with
    | forwarded k => rw [ho] at ha; cases ha
    | icmpError k =>
      rw [ho] at ha hseq
      obtain ⟨bytes', past', heap', iface', now', hf, h14, hsrc, hroute⟩ := delivers_error hd ho
      obtain ⟨past'', heap'', iface'', now'', hk⟩ := ha
      obtain rfl : k = es.length := hseq
      simp only [List.getElem?_concat_length, Option.some.injEq] at hk
      cases hf.symm.trans hk
      exact fromWayBack_delivery h14 hsrc hroute _ _

/-- What a sweep sends about the packets it gives up. -/
theorem sweep_send_iff {entries : ArpTable} {env : SweepEnv} {k : Nat} {reqs : List SrArpreq} {site : Site}
    {iface : IfName} {frame : List UInt8} (hask : ∀ p t, site ≠ .arpRequest p t) :
    .send site iface frame ∈ sweepActs ifs rts entries env k reqs ↔
      ∃ r ∈ givenUp env.clock k reqs, ∃ pkt ∈ r.packets, ∃ i, srGetInterface ifs pkt.iface = some i ∧
        .send site iface frame ∈ unreachSend ifs rts entries env r.ptr i pkt := by
  rw [mem_sweepActs_givenUp (fun _ _ => Act.noConfusion) fun p t i f he => by cases he; exact hask p t rfl]
  refine exists_congr fun r => and_congr_right fun _ => exists_congr fun pkt => and_congr_right fun _ => ?_
  constructor
  · intro h
    obtain ⟨i, hi, he | hsend⟩ := mem_unreachActs h
    · cases he
    · exact ⟨i, hi, hsend⟩
  · rintro ⟨i, hi, h⟩
    rw [unreachActs, hi]
    exact List.mem_cons_of_mem _ h

/-- A queued packet has a source address. -/
theorem Queued.length {es : List Event} (hq : Queued ifs rts es sr) {r : SrArpreq} (hr : r ∈ sr.cache.requests)
    {pkt : SrPacket} (hp : pkt ∈ r.packets) : 34 ≤ pkt.buf.length := by
  obtain ⟨e, d, -, hd, rfl, -⟩ := hq r hr pkt hp
  obtain ⟨_, _, _, _, _, _, -, hplan⟩ := delivers_plan hd
  obtain ⟨h34, -⟩ := plan_routed hplan
  rw [Delivery.packet, length_setEth none d.iface.addr (by omega)]
  exact h34

/-- Two queued packets that come from the same step are the same. -/
theorem Queued.unique {es : List Event} (hq : Queued ifs rts es sr) {q r : SrArpreq} (hqm : q ∈ sr.cache.requests)
    (hr : r ∈ sr.cache.requests) {p pkt : SrPacket} (hp : p ∈ q.packets) (hpkt : pkt ∈ r.packets)
    (ho : p.origin = pkt.origin) : p = pkt := by
  obtain ⟨e, d, he, hd, hdp, -⟩ := hq q hqm p hp
  obtain ⟨e', d', he', hd', hdp', -⟩ := hq r hr pkt hpkt
  rw [ho] at he hd
  cases he.symm.trans he'
  cases hd.symm.trans hd'
  exact hdp.symm.trans hdp'

section Sweep
variable {es : List Event} {env : SweepEnv} {r : SrArpreq} {pkt : SrPacket}

/-- Where a queued packet comes from is read in its bytes. -/
theorem Queued.src (hq : Queued ifs rts es sr) (hr : r ∈ sr.cache.requests) (hp : pkt ∈ r.packets) (past : Mem) :
    (Buf.ofBytes pkt.buf past).mem.u32 26 = ipSrc (memOf pkt.buf) := by
  have h34 := hq.length hr hp
  exact ofBytes_u32 (by omega)

/-- The error about a packet that is given up is sent if the way back is cached. -/
theorem Queued.sweep_sends (hq : Queued ifs rts es sr) (hr : r ∈ givenUp env.clock 0 sr.cache.requests)
    (hp : pkt ∈ r.packets) {i j : SrIf} {rt : SrRt} {e : SrArpentry} (hi : srGetInterface ifs pkt.iface = some i)
    (hrt : lpmLookup rts (ipSrc (memOf pkt.buf)) = some rt) (hj : srGetInterface ifs rt.interface = some j)
    (he : lookupLoop (nextHop rt (ipSrc (memOf pkt.buf))) none (expireEntries (env.clock 0) sr.cache.entries).slots =
      some e) :
    .send (.hostUnreachable pkt.origin r.ptr) j.name (setEth (some e.mac) j.addr (unreachError env i pkt).bytes) ∈
      sweepActs ifs rts (expireEntries (env.clock 0) sr.cache.entries) env 0 sr.cache.requests := by
  refine (sweep_send_iff fun _ _ => Site.noConfusion).2 ⟨r, hr, pkt, hp, i, hi, ?_⟩
  simp only [unreachSend, hq.src (givenUp_subset hr) hp, hrt, hj, he]
  exact List.mem_cons_self

/-- And only then. -/
theorem Queued.sweep_sent (hq : Queued ifs rts es sr) {site : Site} (hask : ∀ p t, site ≠ .arpRequest p t)
    {iface : IfName} {frame : List UInt8} (hm : .send site iface frame ∈
      sweepActs ifs rts (expireEntries (env.clock 0) sr.cache.entries) env 0 sr.cache.requests) :
    ∃ r ∈ givenUp env.clock 0 sr.cache.requests, ∃ pkt ∈ r.packets, ∃ i j rt e,
      site = .hostUnreachable pkt.origin r.ptr ∧ srGetInterface ifs pkt.iface = some i ∧
      lpmLookup rts (ipSrc (memOf pkt.buf)) = some rt ∧ srGetInterface ifs rt.interface = some j ∧
      lookupLoop (nextHop rt (ipSrc (memOf pkt.buf))) none (expireEntries (env.clock 0) sr.cache.entries).slots = some e ∧
      iface = j.name ∧ frame = setEth (some e.mac) j.addr (unreachError env i pkt).bytes := by
  obtain ⟨r, hr, pkt, hp, i, hi, hsend⟩ := (sweep_send_iff hask).1 hm
  obtain ⟨rt, j, e, hrt, hj, he, hact⟩ := mem_unreachSend hsend
  rw [hq.src (givenUp_subset hr) hp] at hrt he
  cases hact
  exact ⟨r, hr, pkt, hp, i, j, rt, e, rfl, hi, hrt, hj, he, rfl, rfl⟩

end Sweep

/-- The errors of a step are from the way back exactly if its packets' two interfaces agree. -/
theorem step_source_iff {es : List Event} (hq : Queued ifs rts es sr) (e : Event)
    {sr' : SrInstance} {acts : List Act} (hs : StepsTo ifs rts es.length sr e sr' acts) :
    (∀ site iface frame, .send site iface frame ∈ acts → ∀ packet, ErrorAbout (es ++ [e]) sr site packet →
      FromWayBack ifs rts (ipSrc (memOf packet)) iface frame) ↔ SameAddress ifs rts sr e := by
  cases e with
  | frame bytes past heap iface now =>
    exact iff_of_true (fun site name frame hm packet ha => (hs.sent hm).fromWayBack hq ha) trivial
  | sweep env =>
    cases hs with
    | sweep =>
    have h14 : ∀ i pkt, 14 ≤ (unreachError env i pkt).bytes.length := fun i pkt => by simp [unreachError]
    constructor
    · intro h r hr pkt hpkt i rt j hi hbest hmask hj he
      obtain ⟨e, he⟩ := Option.isSome_iff_exists.1 he
      have hrt := lpmLookup_best.2 ⟨hbest, hmask⟩
      obtain ⟨rt', j', hbest', hj', -, hip⟩ := h _ _ _ (hq.sweep_sends hr hpkt hi hrt hj he) pkt.buf
        ⟨r, givenUp_subset hr, rfl, pkt, hpkt, rfl, rfl⟩
      obtain rfl := hbest.unique hbest'
      cases hj.symm.trans hj'
      rw [← hip, ipSrc_setEth _ _ (h14 i pkt), unreachError, ipSrc_unreachBuf]
    · intro h site iface frame hm packet ha
      have hask : ∀ p t, site ≠ .arpRequest p t := by
        rintro p t rfl
        cases ha
      obtain ⟨r, hr, pkt, hpkt, i, j, rt, e, rfl, hi, hrt, hj, he, rfl, rfl⟩ := hq.sweep_sent hask hm
      obtain ⟨r', hr', -, pkt', hpkt', ho, rfl⟩ := ha
      -- an error names the step its packet comes from, so it is about this packet
      obtain rfl := hq.unique hr' (givenUp_subset hr) hpkt' hpkt ho
      obtain ⟨hbest, hmask⟩ := lpmLookup_best.1 hrt
      have hip := h r hr pkt' hpkt i rt j hi hbest hmask hj (by rw [he]; rfl)
      refine ⟨rt, j, hbest, hj, rfl, ?_⟩
      rw [ipSrc_setEth _ _ (h14 i pkt'), unreachError, ipSrc_unreachBuf, hip]

/-- Every ICMP error of a run leaves through the interface of the route back to
the source of the packet it is about, with that interface's address as its
source, if and only if the packets its sweeps give up with the way back known
were to leave through an interface with that address. -/
theorem uniform_source_iff (ifs : List SrIf) (rts : List SrRt) (es : List Event) :
    (∀ pre e post, es = pre ++ e :: post → ∀ site iface frame,
      .send site iface frame ∈ (router ifs rts).actsAt pre e → ∀ packet,
        ErrorAbout (pre ++ [e]) ((router ifs rts).state pre) site packet →
          FromWayBack ifs rts (ipSrc (memOf packet)) iface frame) ↔
    (router ifs rts).Along (SameAddress ifs rts) es := by
  refine (router ifs rts).forall_steps_iff (fun pre e => ?_) es
  exact step_source_iff (run_queued ifs rts pre) e (run_step ifs rts pre e)

/-- A ping from 10.0.0.5, whose address is known, to 10.0.1.7, whose address is
never told: the error is sent through `e1` and says it is from 10.0.1.1. -/
theorem unreachable_other_side :
    ¬ ∀ pre e post, Sample.received Sample.e1 (((Sample.arpReply 5).set 30 0).set 31 5) 99 ::
        Sample.received Sample.e1 (Sample.ping [10, 0, 1, 7]) 100 ::
          [101, 102, 103, 104, 105].map Sample.sweep = pre ++ e :: post → ∀ site iface frame,
      .send site iface frame ∈ (router Sample.ifs Sample.rts).actsAt pre e → ∀ packet,
        ErrorAbout (pre ++ [e]) ((router Sample.ifs Sample.rts).state pre) site packet →
          FromWayBack Sample.ifs Sample.rts (ipSrc (memOf packet)) iface frame := by
  intro h
  let pre := Sample.received Sample.e1 (((Sample.arpReply 5).set 30 0).set 31 5) 99 ::
    Sample.received Sample.e1 (Sample.ping [10, 0, 1, 7]) 100 :: [101, 102, 103, 104].map Sample.sweep
  have hsame := (step_source_iff (run_queued Sample.ifs Sample.rts pre) (Sample.sweep 105)
    (run_step Sample.ifs Sample.rts pre _)).1 (h pre _ [] rfl)
  obtain ⟨r, hr, pkt, hpkt, hi, hrt, hj, he⟩ :
      ∃ r ∈ givenUp (fun _ => 105) 0 ((router Sample.ifs Sample.rts).state pre).cache.requests, ∃ pkt ∈ r.packets,
        srGetInterface Sample.ifs pkt.iface = some ⟨Sample.e2, ⟨[2, 0, 0, 0, 0, 2], rfl⟩, 0x0101000A⟩ ∧
          lpmLookup Sample.rts (ipSrc (memOf pkt.buf)) = some ⟨0x0000000A, 0, 0x00FFFFFF, Sample.e1⟩ ∧
          srGetInterface Sample.ifs Sample.e1 = some ⟨Sample.e1, ⟨[2, 0, 0, 0, 0, 1], rfl⟩, 0x0100000A⟩ ∧
          (lookupLoop (nextHop ⟨0x0000000A, 0, 0x00FFFFFF, Sample.e1⟩ (ipSrc (memOf pkt.buf))) none
            (expireEntries 105 ((router Sample.ifs Sample.rts).state pre).cache.entries).slots).isSome := by
    decide +kernel
  obtain ⟨hbest, hmask⟩ := lpmLookup_best.1 hrt
  exact absurd (hsame r hr pkt hpkt _ _ _ hi hbest hmask hj he) (by decide)

end SimpleRouter
