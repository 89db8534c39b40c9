import SimpleRouter.Accounting
/-!
# The cached path and the queued path

A packet for a known next hop is completed and sent in one step; for an
unknown one it is copied, waits, and is completed by the handler of the ARP
reply. Both send the same bytes through the same interface, whatever happens
in between.
-/
open Memory CProg Runs

namespace SimpleRouter

variable {ifs : List SrIf} {rts : List SrRt}

/-! ## The same frame, received at another moment -/

def Origin.renumber (n : Nat) : Origin → Origin
  | .forwarded _ => .forwarded n
  | .icmpError _ => .icmpError n

/-- The delivery as it is when its frame is received in step `n`. -/
def Delivery.renumber (n : Nat) (d : Delivery) : Delivery := { d with origin := d.origin.renumber n }

theorem planError_env {env : Env} {orig : Buf} {type code : UInt8} {built : List Act} {d : Delivery}
    (h : planError ifs rts env orig type code = .output built d) (env' : Env) :
    ∃ built', planError ifs rts env' orig type code = .output built' (d.renumber env'.seq) := by
  unfold planError at h ⊢
  cases hrt : lpmLookup rts (orig.mem.u32 26) with
  | none => simp [hrt] at h
  | some rt =>
    cases hi : srGetInterface ifs rt.interface with
    | none => simp [hrt, hi] at h
    | some i =>
      simp only [hrt, hi, Plan.output.injEq] at h ⊢
      obtain ⟨-, rfl⟩ := h
      refine ⟨_, rfl, ?_⟩
      rw [(t3Buf_same orig env'.heap env.heap i.ip type code).bytes]
      rfl

theorem planForward_env {env : Env} {packet : Buf} {built : List Act} {d : Delivery}
    (h : planForward ifs rts env packet = .output built d) (env' : Env) :
    ∃ built', planForward ifs rts env' packet = .output built' (d.renumber env'.seq) := by
  unfold planForward at h ⊢
  by_cases httl : packet.mem 22 ≤ 1
  · rw [if_pos httl] at h ⊢
    exact planError_env h env'
  · rw [if_neg httl] at h ⊢
    cases hrt : lpmLookup rts (packet.mem.u32 30) with
    | none =>
      simp only [hrt] at h ⊢
      exact planError_env h env'
    | some rt =>
      cases hi : srGetInterface ifs rt.interface with
      | none => simp [hrt, hi] at h
      | some i =>
        simp only [hrt, hi, Plan.output.injEq] at h ⊢
        obtain ⟨-, rfl⟩ := h
        exact ⟨_, rfl, rfl⟩

/-- What is put out for a frame does not depend on when it is received. -/
theorem plan_env {env : Env} {packet : Buf} {interface : IfName} {built : List Act} {d : Delivery}
    (h : plan ifs rts env packet interface = .output built d) (env' : Env) :
    ∃ built', plan ifs rts env' packet interface = .output built' (d.renumber env'.seq) := by
  obtain ⟨h34, ht, -⟩ := plan_output h
  have h14 : ¬ packet.size < 14 := by omega
  have h34' : ¬ packet.size < 34 := by omega
  have hne : ¬ ethertypeIp = ethertypeArp := by decide
  simp only [plan, planIp, h14, h34', ht, hne, if_false, if_true] at h ⊢
  split at h
  · rename_i hus
    rw [if_pos hus]
    split at h
    · rename_i hp
      split at h
      · unfold planEcho at h
        split at h <;> cases h
      · cases h
    · rename_i hp
      rw [if_neg hp]
      exact planError_env h env'
  · rename_i hus
    rw [if_neg hus]
    exact planForward_env h env'

theorem delivers_env {n : Nat} {bytes : List UInt8} {past heap : Mem} {iface : IfName} {now : Int} {d : Delivery}
    (h : delivers ifs rts n (.frame bytes past heap iface now) = some d) (n' : Nat) (heap' : Mem) (now' : Int) :
    delivers ifs rts n' (.frame bytes past heap' iface now') = some (d.renumber n') := by
  obtain ⟨built, hp⟩ := delivers_frame.1 h
  obtain ⟨built', hp'⟩ := plan_env hp ⟨n', now', heap'⟩
  rw [delivers, hp']

/-! ## The two paths -/

/-- The transmissions of the packet `o`. -/
def sendsOf (o : Origin) (acts : List Act) : List Act := acts.filter (fun a => a.packetSent = some o)

/-- The number of transmissions of a packet. -/
theorem length_sendsOf (o : Origin) (acts : List Act) : (sendsOf o acts).length = (transmitted acts).count o := by
  induction acts with
  | nil => rfl
  | cons a acts ih =>
    rw [sendsOf, transmitted, List.filter_cons, List.filterMap_cons, ← sendsOf, ← transmitted]
    cases hp : a.packetSent with
    | none => simpa using ih
    | some p => by_cases h : p = o <;> simp [h, ih]

section Paths
variable {es : List Event} {d : Delivery}

/-- The cached path: the packet is completed and sent in the step that receives its frame. -/
theorem cached_path {e : Event} (hd : delivers ifs rts es.length e = some d) {ent : SrArpentry}
    (he : srArpcacheLookup ((router ifs rts).state es).cache d.nextHop = some ent) :
    sendsOf d.origin ((router ifs rts).actsAt es e) = [.send (.direct d.origin) d.iface.name (d.sent ent.mac)] := by
  obtain ⟨built, _, _, _, _, _, -, hp, ⟨ent', he', hacts⟩ | ⟨hmiss, -⟩⟩ := (run_step ifs rts es e).delivered hd
  · cases he.symm.trans he'
    have hbuilt : built.filter (fun a => a.packetSent = some d.origin) = [] := by
      refine List.filter_eq_nil_iff.2 fun a ha => ?_
      simp [(built_neutral hp a ha).1]
    rw [hacts, sendsOf, List.filter_append, hbuilt]
    simp [Act.packetSent]
  · cases he.symm.trans hmiss

/-- The queued path: as long as the packet waits, the reply for its next hop
completes and sends it, once. -/
theorem queued_path {e : Event} (he : es[d.origin.seq]? = some e) (hd : delivers ifs rts d.origin.seq e = some d)
    (hw : d.origin ∈ waiting ((router ifs rts).state es).cache.requests) {bytes : List UInt8} {past heap : Mem}
    {iface : IfName} {now : Int} {mac : Mac} (hr : IsArpReply bytes mac d.nextHop) :
    sendsOf d.origin ((router ifs rts).actsAt es (.frame bytes past heap iface now)) =
      [.send (.flushed d.origin) d.iface.name (d.sent mac)] := by
  have hwf := (reachable ifs rts es).1
  obtain ⟨r, hrm, hro⟩ := List.mem_flatMap.1 hw
  -- a packet of that origin is the copy of `d`, and its request asks for the next hop of `d`
  have hcopy : ∀ pkt ∈ r.packets, pkt.origin = d.origin → pkt = d.packet ∧ d.nextHop = r.ip := by
    intro pkt hpkt hpo
    obtain ⟨e', d', he', hd', hdp, hnh⟩ := run_queued ifs rts es r hrm pkt hpkt
    rw [hpo, he] at he'
    cases he'
    rw [hpo, hd] at hd'
    cases hd'
    exact ⟨hdp.symm, hnh⟩
  obtain ⟨pkt, hpkt, hpo⟩ := List.mem_map.1 hro
  have hfind : findReq d.nextHop ((router ifs rts).state es).cache.requests = some r :=
    (hcopy pkt hpkt hpo).2 ▸ findReq_of_mem hwf.ip hrm
  have hacts : (router ifs rts).actsAt es (.frame bytes past heap iface now) = flushActs ifs mac r.packets := by
    rw [actsAt_reply ifs rts es hr, hfind]
    rfl
  have hone : (sendsOf d.origin (flushActs ifs mac r.packets)).length = 1 := by
    have hledger := (run_ledger ifs rts es).count_eq d.origin
    have hpos : 0 < r.origins.count d.origin := List.count_pos_iff.2 hro
    obtain ⟨as, bs, hsplit⟩ := List.append_of_mem hrm
    rw [length_sendsOf, (transmitted_flush mac fun p hp => (hwf.packet r hrm p hp).1).1]
    rw [count_arrivals he hd, hsplit] at hledger
    simp only [List.count_append, waiting_append, waiting_cons] at hledger
    have : r.origins.count d.origin = (r.packets.map (·.origin)).count d.origin := rfl
    omega
  rw [hacts]
  obtain ⟨a, ha⟩ := List.length_eq_one_iff.1 hone
  have hmem : a ∈ sendsOf d.origin (flushActs ifs mac r.packets) := by simp [ha]
  obtain ⟨hflush, hsent⟩ := List.mem_filter.1 hmem
  obtain ⟨p, hp, i, hi, rfl⟩ := mem_flushActs hflush
  have hpo' : p.origin = d.origin := by simpa [Act.packetSent] using hsent
  obtain ⟨rfl, -⟩ := hcopy p hp hpo'
  obtain ⟨_, _, _, _, _, _, -, hplan⟩ := delivers_plan hd
  obtain ⟨h34, -, rt, -, hrti, -⟩ := plan_routed hplan
  -- the interface is found by its name, and the header filled in twice is the header filled in once
  cases (srGetInterface_name hrti).symm.trans hi
  rw [ha, Delivery.packet, Delivery.sent, setEth_setEth _ _ _ (show 14 ≤ d.frame.length by omega)]

end Paths

/-! ## They agree -/

/-- A frame that the router forwards, or answers with an error of
`send_icmp_t3`, is received twice. Once the cache has its next hop at `mac`;
once it is queued, and whatever happens then it waits until a reply says that
the next hop is at `mac`. Both times one frame is transmitted for it, the same
bytes through the same interface. A forwarded packet is passed on with its TTL
one less and at least one. -/
theorem cached_path_eq_queued_path (ifs : List SrIf) (rts : List SrRt) {bytes : List UInt8} {past : Mem}
    {iface : IfName} {d : Delivery} {es : List Event} {heap : Mem} {now : Int} {ent : SrArpentry}
    (hd : delivers ifs rts es.length (.frame bytes past heap iface now) = some d)
    (he : srArpcacheLookup ((router ifs rts).state es).cache d.nextHop = some ent)
    {es₁ es₂ : List Event} {heap' : Mem} {now' : Int}
    (hw : d.origin.renumber es₁.length ∈
      waiting ((router ifs rts).state (es₁ ++ .frame bytes past heap' iface now' :: es₂)).cache.requests)
    {rbytes : List UInt8} (hr : IsArpReply rbytes ent.mac d.nextHop) (rpast rheap : Mem) (riface : IfName) (rnow : Int) :
    ∃ frame,
      sendsOf d.origin ((router ifs rts).actsAt es (.frame bytes past heap iface now)) =
        [.send (.direct d.origin) d.iface.name frame] ∧
      sendsOf (d.origin.renumber es₁.length)
          ((router ifs rts).actsAt (es₁ ++ .frame bytes past heap' iface now' :: es₂)
            (.frame rbytes rpast rheap riface rnow)) =
        [.send (.flushed (d.origin.renumber es₁.length)) d.iface.name frame] ∧
      ∀ k, d.origin = .forwarded k → PassedOn bytes frame ∧ 1 ≤ (memOf frame 22).toNat ∧
        (memOf bytes 22).toNat = (memOf frame 22).toNat + 1 := by
  have hd' := delivers_env hd es₁.length heap' now'
  have hseq : (d.renumber es₁.length).origin.seq = es₁.length := delivers_seq hd'
  have hat : (es₁ ++ .frame bytes past heap' iface now' :: es₂)[(d.renumber es₁.length).origin.seq]? =
      some (.frame bytes past heap' iface now') := by
    rw [hseq, List.getElem?_append_right (Nat.le_refl _)]
    simp
  refine ⟨d.sent ent.mac, cached_path hd he, ?_, fun k hk => ?_⟩
  · exact queued_path (d := d.renumber es₁.length) hat (hseq.symm ▸ hd') hw hr
  · have hpass : PassedOn bytes (d.sent ent.mac) := delivers_passedOn hd hk (some ent.mac) d.iface.addr
    refine ⟨hpass, ?_⟩
    obtain ⟨built, hp⟩ := delivers_frame.1 hd
    obtain ⟨h34, -, hf | ⟨orig, type, code, herr⟩⟩ := plan_output hp
    · have httl := hf.ttl
      rw [Buf.size_ofBytes] at h34
      rw [ofBytes_mem (by omega), UInt8.le_iff_toNat_le] at httl
      have h1 : (1 : UInt8) ≤ memOf bytes 22 := by
        rw [UInt8.le_iff_toNat_le]
        simp only [UInt8.reduceToNat] at httl ⊢
        omega
      rw [hpass.ttl, UInt8.toNat_sub_of_le _ _ h1]
      simp only [UInt8.reduceToNat] at httl ⊢
      omega
    · rw [herr.origin] at hk
      cases hk

/-- A packet for 10.0.1.7, sent at once and from the queue. -/
theorem cached_path_eq_queued_path_ping :
    ∃ frame,
      sendsOf (.forwarded 1) ((router Sample.ifs Sample.rts).actsAt [Sample.received Sample.e2 (Sample.arpReply 7) 0]
          (Sample.received Sample.e1 (Sample.ping [10, 0, 1, 7]) 3)) =
        [.send (.direct (.forwarded 1)) Sample.e2 frame] ∧
      sendsOf (.forwarded 0) ((router Sample.ifs Sample.rts).actsAt
          [Sample.received Sample.e1 (Sample.ping [10, 0, 1, 7]) 3, Sample.sweep 4]
          (Sample.received Sample.e2 (Sample.arpReply 7) 5)) =
        [.send (.flushed (.forwarded 0)) Sample.e2 frame] ∧
      ∀ k, Origin.forwarded 1 = .forwarded k → PassedOn (Sample.ping [10, 0, 1, 7]) frame ∧
        1 ≤ (memOf frame 22).toNat ∧
        (memOf (Sample.ping [10, 0, 1, 7]) 22).toNat = (memOf frame 22).toNat + 1 :=
  have hd : delivers Sample.ifs Sample.rts [Sample.received Sample.e2 (Sample.arpReply 7) 0].length
      (Sample.received Sample.e1 (Sample.ping [10, 0, 1, 7]) 3) =
      some ⟨.forwarded 1, 0x0701000A, ⟨Sample.e2, ⟨[2, 0, 0, 0, 0, 2], rfl⟩, 0x0101000A⟩,
        (Sample.ping [10, 0, 1, 7]).take 22 ++ [62, 1, 214, 103] ++ (Sample.ping [10, 0, 1, 7]).drop 26⟩ := by
    decide +kernel
  have he : srArpcacheLookup ((router Sample.ifs Sample.rts).state
      [Sample.received Sample.e2 (Sample.arpReply 7) 0]).cache 0x0701000A =
      some ⟨⟨List.replicate 6 7, rfl⟩, 0x0701000A, 0, true⟩ := by decide +kernel
  have hw : .forwarded 0 ∈ waiting ((router Sample.ifs Sample.rts).state
      ([] ++ Sample.received Sample.e1 (Sample.ping [10, 0, 1, 7]) 3 :: [Sample.sweep 4])).cache.requests := by
    decide +kernel
  have hr : IsArpReply (Sample.arpReply 7) ⟨List.replicate 6 7, rfl⟩ 0x0701000A :=
    ⟨by decide, by decide, by decide, by decide, by decide⟩
  cached_path_eq_queued_path Sample.ifs Sample.rts hd he hw hr _ _ Sample.e2 5

end SimpleRouter
