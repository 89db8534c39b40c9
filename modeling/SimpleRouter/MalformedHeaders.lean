import SimpleRouter.Bounds
import SimpleRouter.Verifying
import SimpleRouter.SourceCheck
/-!
# Malformed IP headers

`handle_ip_packet` prints the version, the header length and the checksum of an
IP header, and decides without them: the check of the checksum is commented
out. So a malformed header is dropped only where a sound one would be;
`malformed_dropped_iff` says which runs are not affected.
-/
open Memory CProg Runs OnesComplement

namespace SimpleRouter

variable {ifs : List SrIf} {rts : List SrRt} {n : Nat} {sr : SrInstance}

/-! ## Malformed headers -/

/-- The version, the header length or the checksum of an IPv4 frame is wrong. -/
structure Malformed (bytes : List UInt8) : Prop where
  type : etherType (memOf bytes) = ethertypeIp
  size : 34 ≤ bytes.length
  wrong : ipV (memOf bytes) ≠ 4 ∨ ipHl (memOf bytes) < 5 ∨ bytes.length - 14 < 4 * ipHl (memOf bytes) ∨
    ¬ Verifies (memOf bytes) 14 (4 * ipHl (memOf bytes))

/-- Nothing is transmitted, the router does not crash, and the ARP cache and
its queue stay what they are. -/
def Dropped (sr sr' : SrInstance) (acts : List Act) : Prop :=
  (∀ site iface frame, .send site iface frame ∉ acts) ∧ (∀ why, .fault why ∉ acts) ∧ sr'.cache = sr.cache

/-- The router has nothing to do about an IP packet: a packet for the router
asks for no echo, or the error or the packet itself has no way to go. -/
def Ignored (ifs : List SrIf) (rts : List SrRt) (packet : Buf) : Prop :=
  if (srGetInterfaceByIp ifs (packet.mem.u32 30)).isSome then
    if packet.mem 23 = ipProtocolIcmp then packet.mem 34 ≠ 8
    else wayBack ifs rts (packet.mem.u32 26) = false
  else if packet.mem 22 ≤ 1 ∨ lpmLookup rts (packet.mem.u32 30) = none then
    wayBack ifs rts (packet.mem.u32 26) = false
  else wayBack ifs rts (packet.mem.u32 30) = false

instance (ifs : List SrIf) (rts : List SrRt) (packet : Buf) : Decidable (Ignored ifs rts packet) :=
  inferInstanceAs (Decidable (@ite _ _ _ _ _))

/-- A malformed frame is ignored in the step that takes `e`. -/
def IgnoresMalformed (ifs : List SrIf) (rts : List SrRt) (_ : SrInstance) : Event → Prop
  | .frame bytes past _ _ _ => Malformed bytes → Ignored ifs rts (.ofBytes bytes past)
  | .sweep _ => True

/-! ## Plans that have no effect -/

/-- Nothing is transmitted, learnt or put out, and the router goes on. -/
def Plan.Idle (p : Plan) : Prop := p = .quiet

section Idle
variable {env : Env} {packet : Buf}

theorem planError_idle {type code : UInt8} :
    (planError ifs rts env packet type code).Idle ↔ wayBack ifs rts (packet.mem.u32 26) = false := by
  unfold planError wayBack Plan.Idle
  cases hrt : lpmLookup rts (packet.mem.u32 26) with
  | none => simp
  | some rt =>
    cases hi : srGetInterface ifs rt.interface with
    | none => simp [hi]
    | some i => simp [hi]

theorem planForward_idle : (planForward ifs rts env packet).Idle ↔
    if packet.mem 22 ≤ 1 ∨ lpmLookup rts (packet.mem.u32 30) = none then wayBack ifs rts (packet.mem.u32 26) = false
    else wayBack ifs rts (packet.mem.u32 30) = false := by
  unfold planForward
  by_cases httl : packet.mem 22 ≤ 1
  · rw [if_pos httl, if_pos (.inl httl)]
    exact planError_idle
  · rw [if_neg httl]
    cases hrt : lpmLookup rts (packet.mem.u32 30) with
    | none =>
      rw [if_pos (.inr rfl), ← forwardBuf_u32 packet (.inr (Nat.le_refl 26))]
      exact planError_idle
    | some rt =>
      rw [if_neg (by simpa using httl), wayBack, hrt]
      cases hi : srGetInterface ifs rt.interface with
      | none => simp [hi, Plan.Idle]
      | some i => simp [hi, Plan.Idle]

theorem planIp_idle {interface : IfName} (h34 : 34 ≤ packet.size) :
    (planIp ifs rts env packet interface).Idle ↔ Ignored ifs rts packet := by
  unfold planIp Ignored
  rw [if_neg (by omega)]
  by_cases hus : (srGetInterfaceByIp ifs (packet.mem.u32 30)).isSome
  · rw [if_pos hus, if_pos hus]
    by_cases hp : packet.mem 23 = ipProtocolIcmp
    · rw [if_pos hp, if_pos hp]
      by_cases h8 : packet.mem 34 = 8
      · rw [if_pos h8, planEcho]
        refine iff_of_false ?_ fun h => h h8
        -- the echo is answered, or an unknown interface crashes the router
        cases srGetInterface ifs interface with
        | none => exact fun h => by cases h
        | some i => exact fun h => by cases h
      · rw [if_neg h8]
        exact iff_of_true rfl h8
    · rw [if_neg hp, if_neg hp]
      exact planError_idle
  · rw [if_neg hus, if_neg hus]
    exact planForward_idle

end Idle

/-! ## Steps -/

section Steps
variable {bytes : List UInt8} {past heap : Mem} {iface : IfName} {now : Int}

/-- What is put out is sent or queued. -/
theorem StepsTo.output_effect (hw : Wf ifs rts n sr) {sr' : SrInstance} {acts : List Act} {built : List Act} {d : Delivery}
    (hs : StepsTo ifs rts n sr (.frame bytes past heap iface now) sr' acts)
    (hp : plan ifs rts ⟨n, now, heap⟩ (.ofBytes bytes past) iface = .output built d) : ¬ Dropped sr sr' acts := by
  rintro ⟨hsend, -, hcache⟩
  have hd : delivers ifs rts n (.frame bytes past heap iface now) = some d := delivers_frame.2 ⟨_, hp⟩
  cases hs with
  | quiet hn => cases hn.symm.trans hd
  | crash hn => cases hn.symm.trans hd
  | refused hn => cases hn.symm.trans hd
  | arpReply hn => cases hn.symm.trans hd
  | echo hn => cases hn.symm.trans hd
  | learn hn => cases hn.symm.trans hd
  | hit => exact hsend _ _ _ (List.mem_append_right _ List.mem_cons_self)
  | @join _ _ _ _ _ _ d' r _ _ hr =>
    -- the request the packet joins has one packet more
    have hmem := (findReq_some hr).1
    have hold := derefReq_of_mem hw.ptr hmem
    have hnew := @derefReq_updReq sr.cache.requests r.ptr (.push d'.packet) fun _ => rfl
    rw [hold, Option.map_some] at hnew
    have hreqs : updReq r.ptr (.push d'.packet) sr.cache.requests = sr.cache.requests :=
      congrArg SrArpcache.requests hcache
    rw [hreqs, hold, Option.some.injEq] at hnew
    exact absurd (congrArg (·.packets.length) hnew) (by simp [SrArpreq.push])
  | fresh => exact hsend _ _ _ (List.mem_append_right _ List.mem_cons_self)

/-- An IP frame is dropped exactly if there is nothing to do about it. -/
theorem frame_dropped_iff (hw : Wf ifs rts n sr) (hc : Counted sr) (ht : etherType (memOf bytes) = ethertypeIp)
    (h34 : 34 ≤ bytes.length) :
    Dropped sr (stepRes n sr (.frame bytes past heap iface now)).st (stepRes n sr (.frame bytes past heap iface now)).acts ↔
      Ignored ifs rts (.ofBytes bytes past) := by
  have hplan := plan_ip ifs rts ⟨n, now, heap⟩ past iface ht (by omega)
  rw [← @planIp_idle ifs rts ⟨n, now, heap⟩ (.ofBytes bytes past) iface (by simpa using h34), ← hplan]
  have hs := step_cases hw hc (.frame bytes past heap iface now)
  have hplanned : Planned ifs rts ⟨n, now, heap⟩ (.ofBytes bytes past) iface
    (plan ifs rts ⟨n, now, heap⟩ (.ofBytes bytes past) iface) := plan_planned
  cases hp : plan ifs rts ⟨n, now, heap⟩ (.ofBytes bytes past) iface with
  | quiet =>
    obtain ⟨hst, hacts⟩ := stepRes_plan hw hp rfl
    rw [hst, hacts]
    exact iff_of_true ⟨fun _ _ _ => List.not_mem_nil, fun _ => List.not_mem_nil, rfl⟩ rfl
  | crash =>
    obtain ⟨hst, hacts⟩ := stepRes_plan hw hp rfl
    rw [hst, hacts]
    exact iff_of_false (fun h => h.2.1 _ List.mem_cons_self) (by rintro ⟨⟩)
  | transmit site name frame =>
    obtain ⟨hst, hacts⟩ := stepRes_plan hw hp rfl
    obtain ⟨i, hi, -, rfl, rfl⟩ := planIp_transmit (hplan.symm.trans hp)
    have hsent := sendActs_echo (hw.ifList.symm ▸ hi) site heap (show 14 ≤ (Buf.ofBytes bytes past).size by simp; omega)
    refine iff_of_false ?_ (by rintro ⟨⟩)
    rintro ⟨hsend, -⟩
    rw [hacts, Plan.acts, hsent] at hsend
    exact hsend _ _ _ List.mem_cons_self
  | learn mac ip =>
    rw [hp] at hplanned
    cases hplanned with
    | learn h =>
      have harp := h.type
      rw [Buf.bytes_ofBytes] at harp
      exact absurd (ht.symm.trans harp) (by decide)
  | output built d =>
    exact iff_of_false (hs.output_effect hw hp) (by rintro ⟨⟩)

/-- So is a malformed one, whatever came before it. -/
theorem run_dropped_iff (pre : List Event) (hm : Malformed bytes) :
    Dropped ((router ifs rts).state pre) ((router ifs rts).state (pre ++ [.frame bytes past heap iface now]))
      ((router ifs rts).actsAt pre (.frame bytes past heap iface now)) ↔ Ignored ifs rts (.ofBytes bytes past) := by
  obtain ⟨hw, hc⟩ := reachable ifs rts pre
  rw [System.state_snoc]
  exact frame_dropped_iff hw hc hm.type hm.size

end Steps

/-- Every frame with a malformed IP header is dropped without effect if and
only if each is one the router has nothing to do about anyway. -/
theorem malformed_dropped_iff (ifs : List SrIf) (rts : List SrRt) (es : List Event) :
    (∀ pre bytes past heap iface now post, es = pre ++ .frame bytes past heap iface now :: post → Malformed bytes →
      Dropped ((router ifs rts).state pre) ((router ifs rts).state (pre ++ [.frame bytes past heap iface now]))
        ((router ifs rts).actsAt pre (.frame bytes past heap iface now))) ↔
    (router ifs rts).Along (IgnoresMalformed ifs rts) es := by
  rw [System.along_iff_forall]
  constructor
  · intro h pre e post he
    cases e with
    | frame bytes past heap iface now => exact fun hm => (run_dropped_iff pre hm).1 (h pre _ _ _ _ _ post he hm)
    | sweep env => trivial
  · intro h pre bytes past heap iface now post he hm
    exact (run_dropped_iff pre hm).2 (h pre _ post he hm)

/-- A ping whose header has no checksum is passed on to 10.0.1.7, once its address is known. -/
theorem malformed_forwarded :
    ¬ ∀ pre bytes past heap iface now post,
      [Sample.received Sample.e2 (Sample.arpReply 5) 99, Sample.received Sample.e1 (Sample.ping [10, 0, 1, 7]) 100] =
        pre ++ .frame bytes past heap iface now :: post → Malformed bytes →
      Dropped ((router Sample.ifs Sample.rts).state pre)
        ((router Sample.ifs Sample.rts).state (pre ++ [.frame bytes past heap iface now]))
        ((router Sample.ifs Sample.rts).actsAt pre (.frame bytes past heap iface now)) := by
  intro h
  have hm : Malformed (Sample.ping [10, 0, 1, 7]) := ⟨by decide, by decide, by decide +kernel⟩
  have hdropped := h [Sample.received Sample.e2 (Sample.arpReply 5) 99] _ _ _ _ _ [] rfl hm
  exact absurd ((run_dropped_iff _ hm).1 hdropped) (by decide +kernel)

end SimpleRouter
