import SimpleRouter.Timeouts
/-!
# What ICMP errors quote

An ICMP error carries the IP header of the packet it is about, and eight bytes
more. `forward_ip_packet` decrements the TTL before it looks for a route, in the
packet that is lent to it, so the error about a missing route quotes a packet
that was never received, and so does every error about a packet that has waited
in the queue. `quotes_original_iff` says in which runs this does not show.
-/
open Memory CProg Runs

namespace SimpleRouter

variable {ifs : List SrIf} {rts : List SrRt} {n : Nat} {sr : SrInstance}

/-! ## Quotations -/

/-- The data of the error `frame` are the first 28 bytes of the datagram in `bytes`. -/
def Quotes (bytes frame : List UInt8) : Prop :=
  ∀ k, k < icmpDataSize → memOf frame (42 + k) = memOf bytes (14 + k)

/-- An IPv4 frame that has 28 bytes to quote, with a header of five words. -/
structure Quotable (bytes : List UInt8) : Prop where
  type : etherType (memOf bytes) = ethertypeIp
  size : 42 ≤ bytes.length
  header : ipHl (memOf bytes) = 5

/-- The frame is for somebody else and may be passed on, but there is no route. -/
def Unroutable (ifs : List SrIf) (rts : List SrRt) (bytes : List UInt8) : Prop :=
  srGetInterfaceByIp ifs (ipDst (memOf bytes)) = none ∧ ¬ ipTtl (memOf bytes) ≤ 1 ∧
    lpmLookup rts (ipDst (memOf bytes)) = none

instance (ifs : List SrIf) (rts : List SrRt) (bytes : List UInt8) : Decidable (Unroutable ifs rts bytes) :=
  inferInstanceAs (Decidable (_ ∧ _ ∧ _))

/-- The step whose frame makes the router send an ICMP error at this place. -/
def Site.cause : Site → Option Nat
  | .direct (.icmpError k) => some k
  | .flushed (.icmpError k) => some k
  | .hostUnreachable o _ => some o.seq
  | _ => none

/-- Event `k` of `es` is that `bytes` were received. -/
def ReceivedAt (es : List Event) (k : Nat) (bytes : List UInt8) : Prop :=
  ∃ past heap iface now, es[k]? = some (.frame bytes past heap iface now)

/-- In the step that takes an event in state `sr`, after `es`, no error is sent
about a packet that is not as it was received: no frame without a route can be
answered at once, no packet that is flushed is such an answer, and no packet
that is given up after its time in the queue can be answered. -/
def QuotesUnchanged (ifs : List SrIf) (rts : List SrRt) (es : List Event) (sr : SrInstance) : Event → Prop
  | .frame bytes _ _ _ _ =>
    (Quotable bytes → Unroutable ifs rts bytes → ¬ WayBackCached ifs rts sr.cache.entries (ipSrc (memOf bytes))) ∧
    ∀ r ∈ sr.cache.requests, ∀ mac, IsArpReply bytes mac r.ip → ∀ pkt ∈ r.packets, ∀ k orig,
      pkt.origin = .icmpError k → ReceivedAt es k orig → Quotable orig → ¬ Unroutable ifs rts orig
  | .sweep env => ∀ r ∈ givenUp env.clock 0 sr.cache.requests, ∀ pkt ∈ r.packets, ∀ orig,
      ReceivedAt es pkt.origin.seq orig → Quotable orig →
        ¬ WayBackCached ifs rts (expireEntries (env.clock 0) sr.cache.entries) (ipSrc (memOf pkt.buf))

/-! ## What is quoted -/

/-- An error quotes what it is built from. -/
theorem quotes_error (f g : Buf → UInt16) (orig : Buf) {reply : Buf} (h : reply.size = 70) (src : UInt32)
    (type code : UInt8) (dhost : Option Mac) (shost : Mac) {k : Nat} (hk : k < icmpDataSize) :
    memOf (setEth dhost shost (errorBuf f g orig reply src type code).bytes) (42 + k) = orig.mem (14 + k) := by
  have hk28 : k < 28 := hk
  rw [memOf_setEth _ _ (by simp [h]) (by omega), memOf_bytes _ _ (by rw [size_errorBuf]; omega)]
  exact errorBuf_data f g orig reply src type code hk

theorem ttl_ne (ttl : UInt8) : ttl - 1 ≠ ttl := by
  intro h
  have hnat := congrArg UInt8.toNat h
  have hlt := ttl.toNat_lt
  rw [UInt8.toNat_sub, UInt8.toNat_one] at hnat
  omega

section Plans
variable {env : Env} {bytes : List UInt8} {past : Mem} {iface : IfName} {built : List Act} {d : Delivery}

theorem planError_output {orig : Buf} {type code : UInt8} (h : planError ifs rts env orig type code = .output built d) :
    d.frame = (t3Buf orig env.heap d.iface.ip type code).bytes ∧ RoutedBy ifs rts d (orig.mem.u32 26) := by
  unfold planError at h
  cases hrt : lpmLookup rts (orig.mem.u32 26) with
  | none =>
    rw [hrt] at h
    cases h
  | some rt =>
    cases hi : srGetInterface ifs rt.interface with
    | none =>
      simp only [hrt, hi] at h
      cases h
    | some i =>
      simp only [hrt, hi] at h
      cases h
      exact ⟨rfl, rt, hrt, hi, rfl⟩

/-- Without a route, the error is about the packet with its TTL decremented. -/
theorem plan_unroutable (ht : etherType (memOf bytes) = ethertypeIp) (h34 : 34 ≤ bytes.length)
    (hun : Unroutable ifs rts bytes) (env : Env) (past : Mem) (iface : IfName) :
    plan ifs rts env (.ofBytes bytes past) iface = planError ifs rts env (forwardBuf (.ofBytes bytes past)) 3 0 := by
  obtain ⟨hus, httl, hrt⟩ := hun
  have hdst : (Buf.ofBytes bytes past).mem.u32 30 = ipDst (memOf bytes) := ofBytes_u32 (by omega)
  have hmem : (Buf.ofBytes bytes past).mem 22 = ipTtl (memOf bytes) := ofBytes_mem (by omega)
  rw [plan_ip ifs rts env past iface ht (by omega), planIp_bytes ifs rts env past iface h34, hus, Option.isSome_none,
    if_neg Bool.false_ne_true, planForward, hmem, if_neg httl, hdst, hrt]

/-- With one, it is about the packet as it was received, which is for the
router and no ICMP message, or has its TTL spent. -/
theorem plan_routable (ht : etherType (memOf bytes) = ethertypeIp) (h34 : 34 ≤ bytes.length)
    (hun : ¬ Unroutable ifs rts bytes) (hp : plan ifs rts env (.ofBytes bytes past) iface = .output built d) {k : Nat}
    (ho : d.origin = .icmpError k) : (ipP (memOf bytes) ≠ ipProtocolIcmp ∨ ipTtl (memOf bytes) ≤ 1) ∧
      ∃ type code, planError ifs rts env (.ofBytes bytes past) type code = .output built d := by
  have hdst : (Buf.ofBytes bytes past).mem.u32 30 = ipDst (memOf bytes) := ofBytes_u32 (by omega)
  have hmem : (Buf.ofBytes bytes past).mem 22 = ipTtl (memOf bytes) := ofBytes_mem (by omega)
  rw [plan_ip ifs rts env past iface ht (by omega), planIp_bytes ifs rts env past iface h34] at hp
  cases hus : srGetInterfaceByIp ifs (ipDst (memOf bytes)) with
  | some i =>
    rw [hus, Option.isSome_some, if_pos rfl] at hp
    by_cases hproto : ipP (memOf bytes) = ipProtocolIcmp
    · rw [if_pos hproto] at hp
      split at hp
      · unfold planEcho at hp
        split at hp <;> cases hp
      · cases hp
    · rw [if_neg hproto] at hp
      exact ⟨.inl hproto, 3, 3, hp⟩
  | none =>
    rw [hus, Option.isSome_none, if_neg Bool.false_ne_true, planForward, hmem, hdst] at hp
    by_cases httl : ipTtl (memOf bytes) ≤ 1
    · rw [if_pos httl] at hp
      exact ⟨.inr httl, 11, 0, hp⟩
    · rw [if_neg httl] at hp
      cases hrt : lpmLookup rts (ipDst (memOf bytes)) with
      | none => exact absurd ⟨hus, httl, hrt⟩ hun
      | some rt =>
        rw [hrt] at hp
        cases hi : srGetInterface ifs rt.interface with
        | none =>
          simp only [hi] at hp
          cases hp
        | some i =>
          -- the packet itself goes on
          simp only [hi] at hp
          cases hp
          cases ho

end Plans

section Deliveries
variable {bytes : List UInt8} {past heap : Mem} {iface : IfName} {now : Int} {d : Delivery}

/-- The error that a delivery is quotes the frame it is about, unless that has no route. -/
theorem delivery_quotes_iff (hq : Quotable bytes) (hd : delivers ifs rts n (.frame bytes past heap iface now) = some d)
    {k : Nat} (ho : d.origin = .icmpError k) (dhost : Option Mac) (shost : Mac) :
    Quotes bytes (setEth dhost shost d.frame) ↔ ¬ Unroutable ifs rts bytes := by
  obtain ⟨built, hp⟩ := delivers_frame.1 hd
  have h42 := hq.size
  by_cases hun : Unroutable ifs rts bytes
  · refine iff_of_false ?_ (not_not_intro hun)
    intro h
    rw [plan_unroutable hq.type (by omega) hun] at hp
    obtain ⟨hframe, -⟩ := planError_output hp
    -- the TTL is quoted as it has become
    have httl := h 8 (by decide)
    rw [hframe, t3Buf, quotes_error _ _ _ rfl _ _ _ _ _ (by decide), forwardBuf_ttl, ofBytes_mem (by omega)] at httl
    exact ttl_ne _ httl
  · refine iff_of_true ?_ hun
    obtain ⟨-, type, code, he⟩ := plan_routable hq.type (by omega) hun hp ho
    obtain ⟨hframe, -⟩ := planError_output he
    intro k hk
    have hk28 : k < 28 := hk
    rw [hframe, t3Buf, quotes_error _ _ _ rfl _ _ _ _ _ hk]
    exact ofBytes_mem (by omega)

/-- What is put out about a frame is long enough to be quoted too. -/
theorem delivery_size (hq : Quotable bytes) (hd : delivers ifs rts n (.frame bytes past heap iface now) = some d) :
    42 ≤ d.frame.length := by
  obtain ⟨built, hp⟩ := delivers_frame.1 hd
  obtain ⟨-, -, hf | ⟨orig, type, code, he⟩⟩ := plan_output hp
  · rw [hf.frame]
    simpa using hq.size
  · rw [he.frame]
    simp

/-- The header of an error. -/
theorem error_header {env : Env} {orig : Buf} {type code : UInt8} {built : List Act}
    (h : planError ifs rts env orig type code = .output built d) :
    memOf d.frame 22 = 64 ∧ memOf d.frame 23 = ipProtocolIcmp ∧ ipDst (memOf d.frame) = orig.mem.u32 26 ∧
      (lpmLookup rts (orig.mem.u32 26)).isSome := by
  obtain ⟨hframe, rt, hrt, -⟩ := planError_output h
  obtain ⟨httl, hproto⟩ := errorBuf_header ipSumT3 (fun b => swap16 (ipChecksum b.mem 34 icmpT3Len)) orig
    (.zeroed (ethLen + ipLen + icmpT3Len) env.heap) d.iface.ip type code
  refine ⟨?_, ?_, ?_, ?_⟩
  · rw [hframe, memOf_bytes _ _ (by simp)]
    exact httl
  · rw [hframe, memOf_bytes _ _ (by simp)]
    exact hproto
  · rw [hframe]
    exact ipDst_t3Buf _ _ _ _ _
  · rw [hrt, Option.isSome_some]

/-- An error about a frame is never that frame again, which would be an ICMP
message with hops left, for the address it is from. -/
theorem error_changed (hq : Quotable bytes) (hd : delivers ifs rts n (.frame bytes past heap iface now) = some d)
    {m : Nat} (ho : d.origin = .icmpError m) :
    ¬ ∀ k, k < icmpDataSize → memOf d.frame (14 + k) = memOf bytes (14 + k) := by
  intro h
  obtain ⟨built, hp⟩ := delivers_frame.1 hd
  have h42 := hq.size
  have hsrc : (Buf.ofBytes bytes past).mem.u32 26 = ipSrc (memOf bytes) := ofBytes_u32 (by omega)
  have httl : ipTtl (memOf bytes) = memOf d.frame 22 := (h 8 (by decide)).symm
  have hproto : ipP (memOf bytes) = memOf d.frame 23 := (h 9 (by decide)).symm
  have hdst : ipDst (memOf bytes) = ipDst (memOf d.frame) := Mem.u32_congr fun k hk => by
    have hbyte := h (16 + k) (show 16 + k < 28 by omega)
    rw [← Nat.add_assoc] at hbyte
    exact hbyte.symm
  by_cases hun : Unroutable ifs rts bytes
  · rw [plan_unroutable hq.type (by omega) hun] at hp
    obtain ⟨-, -, hback, hsome⟩ := error_header hp
    -- there is a route to its source, so there is one to where it goes
    rw [← hback, ← hdst, hun.2.2] at hsome
    cases hsome
  · obtain ⟨hor, type, code, he⟩ := plan_routable hq.type (by omega) hun hp ho
    obtain ⟨h64, hicmp, -⟩ := error_header he
    rw [httl, hproto, h64, hicmp] at hor
    exact absurd hor (by decide)

/-- No packet is queued as it was received. -/
theorem packet_changed (hq : Quotable bytes) (hd : delivers ifs rts n (.frame bytes past heap iface now) = some d) :
    ¬ ∀ k, k < icmpDataSize → memOf d.packet.buf (14 + k) = memOf bytes (14 + k) := by
  intro h
  cases ho : d.origin with
  | forwarded m =>
    have httl := (delivers_passedOn hd ho none d.iface.addr).ttl
    exact ttl_ne _ (httl.symm.trans (h 8 (by decide)))
  | icmpError m =>
    have h42 := delivery_size hq hd
    refine error_changed hq hd ho fun k hk => ?_
    rw [← h k hk, Delivery.packet]
    exact (memOf_setEth none _ (by omega) (Nat.le_add_right 14 k)).symm

end Deliveries

/-! ## Queued packets -/

section Queued
variable {es : List Event} {pkt : SrPacket} {ip : UInt32} {bytes : List UInt8}

theorem ReceivedAt.snoc {k : Nat} (h : ReceivedAt es k bytes) (e : Event) : ReceivedAt (es ++ [e]) k bytes := by
  obtain ⟨past, heap, iface, now, hk⟩ := h
  exact ⟨past, heap, iface, now, getElem?_snoc hk e⟩

/-- What was received before the last event. -/
theorem ReceivedAt.before {k : Nat} {e f : Event} (h : ReceivedAt (es ++ [e]) k bytes) (hk : es[k]? = some f) :
    ReceivedAt es k bytes := by
  obtain ⟨past, heap, iface, now, hlast⟩ := h
  cases (getElem?_snoc hk e).symm.trans hlast
  exact ⟨past, heap, iface, now, hk⟩

/-- A queued error, when it is sent. -/
theorem CameFrom.quotes_iff (hc : CameFrom ifs rts es pkt ip) {k : Nat} (ho : pkt.origin = .icmpError k)
    (hr : ReceivedAt es k bytes) (hq : Quotable bytes) (mac shost : Mac) :
    Quotes bytes (setEth (some mac) shost pkt.buf) ↔ ¬ Unroutable ifs rts bytes := by
  obtain ⟨e, d, he, hd, rfl, -⟩ := hc
  obtain ⟨past, heap, iface, now, hk⟩ := hr
  have ho' : d.origin = .icmpError k := ho
  simp only [Delivery.packet, ho'] at he hd ⊢
  cases he.symm.trans hk
  have h42 := delivery_size hq hd
  rw [setEth_setEth _ _ _ (by omega)]
  exact delivery_quotes_iff hq hd ho' _ _

/-- The error about a packet that has waited quotes what waited. -/
theorem CameFrom.not_quoted (hc : CameFrom ifs rts es pkt ip) (hr : ReceivedAt es pkt.origin.seq bytes)
    (hq : Quotable bytes) (env : SweepEnv) (i : SrIf) (dhost : Option Mac) (shost : Mac) :
    ¬ Quotes bytes (setEth dhost shost (unreachError env i pkt).bytes) := by
  obtain ⟨e, d, he, hd, rfl, -⟩ := hc
  obtain ⟨past, heap, iface, now, hk⟩ := hr
  cases he.symm.trans hk
  have h42 := delivery_size hq hd
  have hsize : 42 ≤ d.packet.buf.length := by
    rw [Delivery.packet, length_setEth none d.iface.addr (by omega)]
    exact h42
  intro h
  refine packet_changed hq hd fun k hk => ?_
  have hk28 : k < 28 := hk
  rw [← h k hk, unreachError, unreachBuf, quotes_error _ _ _ rfl _ _ _ _ _ hk]
  exact (ofBytes_mem (by omega)).symm

end Queued

/-! ## Steps -/

section Frames
variable {es : List Event} {bytes : List UInt8} {past heap : Mem} {iface : IfName} {now : Int}

/-- The answer to a frame without a route, where it is sent at once. -/
theorem StepsTo.unroutable_sent {sr' : SrInstance} {acts : List Act}
    (hs : StepsTo ifs rts n sr (.frame bytes past heap iface now) sr' acts) (hq : Quotable bytes)
    (hun : Unroutable ifs rts bytes) (hback : WayBackCached ifs rts sr.cache.entries (ipSrc (memOf bytes))) :
    ∃ name frame, .send (.direct (.icmpError n)) name frame ∈ acts ∧ ¬ Quotes bytes frame := by
  obtain ⟨rt, i, ent, hrt, hi, he⟩ := hback
  have h42 := hq.size
  have hsrc : (forwardBuf (.ofBytes bytes past)).mem.u32 26 = ipSrc (memOf bytes) :=
    (forwardBuf_u32 _ (.inr (Nat.le_refl 26))).trans (ofBytes_u32 (by omega))
  obtain ⟨built, d, hp, ho, hnext⟩ : ∃ built d, plan ifs rts ⟨n, now, heap⟩ (.ofBytes bytes past) iface = .output built d ∧
      d.origin = .icmpError n ∧ d.nextHop = nextHop rt (ipSrc (memOf bytes)) := by
    rw [plan_unroutable hq.type (by omega) hun, planError, hsrc, hrt]
    simp only [hi]
    exact ⟨_, _, rfl, rfl, rfl⟩
  have hd : delivers ifs rts n (.frame bytes past heap iface now) = some d := delivers_frame.2 ⟨_, hp⟩
  obtain ⟨built, _, _, _, _, _, -, -, hacts⟩ := hs.delivered hd
  rcases hacts with ⟨ent', -, rfl⟩ | ⟨hnone, -⟩
  · refine ⟨d.iface.name, d.sent ent'.mac, ?_, ?_⟩
    · rw [← ho]
      exact List.mem_append_right _ List.mem_cons_self
    · rw [Delivery.sent, delivery_quotes_iff hq hd ho]
      exact not_not_intro hun
  · rw [hnext] at hnone
    cases hnone.symm.trans he

/-- The same answer, where it has waited for this reply. -/
theorem unroutable_flushed {mac : Mac} {r : SrArpreq} (hr : r ∈ ((router ifs rts).state es).cache.requests)
    (hreply : IsArpReply bytes mac r.ip) {pkt : SrPacket} (hp : pkt ∈ r.packets) {k : Nat}
    (ho : pkt.origin = .icmpError k) {orig : List UInt8} (hrec : ReceivedAt es k orig) (hq : Quotable orig)
    (hun : Unroutable ifs rts orig) : ∃ name frame,
      .send (.flushed (.icmpError k)) name frame ∈ (router ifs rts).actsAt es (.frame bytes past heap iface now) ∧
        ¬ Quotes orig frame := by
  obtain ⟨hw, -⟩ := reachable ifs rts es
  obtain ⟨i, hi⟩ := (hw.packet r hr pkt hp).1
  refine ⟨pkt.iface, setEth (some mac) i.addr pkt.buf, ?_, ?_⟩
  · rw [actsAt_reply ifs rts es hreply, findReq_of_mem hw.ip hr, ← ho]
    refine List.mem_flatMap.2 ⟨pkt, hp, ?_⟩
    rw [hi]
    exact List.mem_cons_self
  · rw [(run_queued ifs rts es r hr pkt hp).quotes_iff ho hrec hq]
    exact not_not_intro hun

/-- Any other error that a frame makes the router send quotes what was received. -/
theorem Sent.quotes (hq : Queued ifs rts es sr) {sr' : SrInstance} {acts : List Act} {site : Site} {name : IfName}
    {frame : List UInt8} (hs : Sent ifs rts es.length sr sr' acts (.frame bytes past heap iface now) site name frame)
    (hok : QuotesUnchanged ifs rts es sr (.frame bytes past heap iface now)) {k : Nat} (hc : site.cause = some k)
    {orig : List UInt8} (hr : ReceivedAt (es ++ [.frame bytes past heap iface now]) k orig) (ho : Quotable orig) :
    Quotes orig frame := by
  obtain ⟨hat, hflush⟩ := hok
  cases hs with
  | arpReply => cases hc
  | echo => cases hc
  | first => cases hc
  | @flushed _ _ _ _ _ mac ip r pkt i hreply hfind hp hi =>
    obtain ⟨hmem, rfl⟩ := findReq_some hfind
    have hcame := hq r hmem pkt hp
    cases horig : pkt.origin with
    | forwarded m =>
      rw [horig] at hc
      cases hc
    | icmpError m =>
      rw [horig] at hc
      cases hc
      obtain ⟨e, d, he, -⟩ := hq r hmem pkt hp
      rw [horig] at he
      have hrec := hr.before he
      exact (hcame.quotes_iff horig hrec ho mac i.addr).2 (hflush r hmem mac hreply pkt hp k orig horig hrec ho)
  | @direct _ _ _ _ _ built d ent hp he =>
    have hd : delivers ifs rts es.length (.frame bytes past heap iface now) = some d := delivers_frame.2 ⟨_, hp⟩
    have hseq : d.origin.seq = es.length := (plan_routed hp).2.1
    cases horig : d.origin with
    | forwarded m =>
      rw [horig] at hc
      cases hc
    | icmpError m =>
      rw [horig] at hc hseq
      cases hc
      obtain rfl : k = es.length := hseq
      obtain ⟨past', heap', iface', now', hk⟩ := hr
      simp only [List.getElem?_concat_length, Option.some.injEq] at hk
      cases hk
      refine (delivery_quotes_iff ho hd horig _ _).2 fun hun => hat ho hun ?_
      -- the error is sent at once because its next hop is cached
      obtain ⟨bytes', _, _, _, _, hf, -, -, rt, hrt, hi, hnext⟩ := delivers_error hd horig
      cases hf
      exact ⟨rt, d.iface, ent, hrt, hi, hnext ▸ he⟩

end Frames

section Steps
variable {es : List Event} {env : SweepEnv}

/-- The errors of a sweep quote what was received only if there are none. -/
theorem sweep_quotes_iff (hw : Wf ifs rts es.length sr) (hq : Queued ifs rts es sr) {sr' : SrInstance} {acts : List Act}
    (hs : StepsTo ifs rts es.length sr (.sweep env) sr' acts) :
    (∀ site iface frame, .send site iface frame ∈ acts → ∀ k bytes, site.cause = some k →
      ReceivedAt (es ++ [.sweep env]) k bytes → Quotable bytes → Quotes bytes frame) ↔
      QuotesUnchanged ifs rts es sr (.sweep env) := by
  cases hs with
  | sweep =>
  constructor
  · rintro h r hr pkt hp orig hrec hquot ⟨rt, j, e, hrt, hj, he⟩
    have hmem := givenUp_subset hr
    obtain ⟨i, hi⟩ := (hw.packet r hmem pkt hp).1
    have hquotes := h _ _ _ (hq.sweep_sends hr hp hi hrt hj he) _ orig rfl (hrec.snoc _) hquot
    exact (hq r hmem pkt hp).not_quoted hrec hquot env i _ _ hquotes
  · intro h site iface frame hm k bytes hc hrec hquot
    have hask : ∀ p t, site ≠ .arpRequest p t := by
      rintro p t rfl
      cases hc
    obtain ⟨r, hr, pkt, hp, i, j, rt, e, rfl, hi, hrt, hj, he, -⟩ := hq.sweep_sent hask hm
    cases hc
    obtain ⟨f, d, hf, -⟩ := hq r (givenUp_subset hr) pkt hp
    exact absurd ⟨rt, j, e, hrt, hj, he⟩ (h r hr pkt hp bytes (hrec.before hf) hquot)

/-- The errors of a step quote what was received exactly if each is about a
packet that is as it was received. -/
theorem step_quotes_iff (ifs : List SrIf) (rts : List SrRt) (es : List Event) (e : Event) :
    (∀ site iface frame, .send site iface frame ∈ (router ifs rts).actsAt es e → ∀ k bytes, site.cause = some k →
      ReceivedAt (es ++ [e]) k bytes → Quotable bytes → Quotes bytes frame) ↔
      QuotesUnchanged ifs rts es ((router ifs rts).state es) e := by
  have hs := run_step ifs rts es e
  cases e with
  | sweep env => exact sweep_quotes_iff (reachable ifs rts es).1 (run_queued ifs rts es) hs
  | frame bytes past heap iface now =>
    constructor
    · intro h
      constructor
      · intro hquot hun hback
        obtain ⟨name, frame, hm, hnot⟩ := hs.unroutable_sent hquot hun hback
        exact hnot (h _ _ _ hm _ bytes rfl ⟨past, heap, iface, now, List.getElem?_concat_length⟩ hquot)
      · intro r hr mac hreply pkt hp k orig ho hrec hquot hun
        obtain ⟨name, frame, hm, hnot⟩ := unroutable_flushed hr hreply hp ho hrec hquot hun
        exact hnot (h _ _ _ hm k orig rfl (hrec.snoc _) hquot)
    · intro hok site name frame hm k orig hc hrec hquot
      exact (hs.sent hm).quotes (run_queued ifs rts es) hok hc hrec hquot

end Steps

/-- Every ICMP error that a run sends because of a frame with a header of five
words and eight bytes behind it quotes that frame as it was received, if and
only if none is sent about a frame without a route, or about a packet that has
waited in the queue. -/
theorem quotes_original_iff (ifs : List SrIf) (rts : List SrRt) (es : List Event) :
    (∀ pre e post, es = pre ++ e :: post → ∀ site iface frame,
      .send site iface frame ∈ (router ifs rts).actsAt pre e → ∀ k bytes, site.cause = some k →
        ReceivedAt (pre ++ [e]) k bytes → Quotable bytes → Quotes bytes frame) ↔
    ∀ pre e post, es = pre ++ e :: post → QuotesUnchanged ifs rts pre ((router ifs rts).state pre) e :=
  forall_congr' fun pre => forall_congr' fun e => forall_congr' fun _ => imp_congr_right fun _ =>
    step_quotes_iff ifs rts pre e

/-- A ping from 10.0.0.5, whose address is known, to 10.0.9.9, to which there
is no route: the error quotes a TTL of 62 where 63 was received. -/
theorem no_route_misquoted :
    ¬ ∀ pre e post, [Sample.received Sample.e1 (((Sample.arpReply 5).set 30 0).set 31 5) 99,
        Sample.received Sample.e1 (Sample.ping [10, 0, 9, 9]) 100] = pre ++ e :: post → ∀ site iface frame,
      .send site iface frame ∈ (router Sample.ifs Sample.rts).actsAt pre e → ∀ k bytes, site.cause = some k →
        ReceivedAt (pre ++ [e]) k bytes → Quotable bytes → Quotes bytes frame := by
  intro h
  let pre := [Sample.received Sample.e1 (((Sample.arpReply 5).set 30 0).set 31 5) 99]
  obtain ⟨hat, -⟩ := (step_quotes_iff Sample.ifs Sample.rts pre
    (Sample.received Sample.e1 (Sample.ping [10, 0, 9, 9]) 100)).1 (h pre _ [] rfl)
  have hcached : (lookupLoop (nextHop ⟨0x0000000A, 0, 0x00FFFFFF, Sample.e1⟩ 0x0500000A) none
      ((router Sample.ifs Sample.rts).state pre).cache.entries.slots).isSome := by
    decide +kernel
  obtain ⟨ent, hent⟩ := Option.isSome_iff_exists.1 hcached
  exact hat ⟨by decide, by decide, by decide⟩ (by decide) ⟨_, _, ent, rfl, rfl, hent⟩

end SimpleRouter
