import SimpleRouter.Outcomes
/-!
# What a sweep comes to

`sweepList` sums up `Sweep.lean`: as long as no two requests share an address,
the walk along saved `next` pointers is a plain pass over the queue, from which
each request drops out, stays as it is, or stays with its counter and its
timestamp changed. `sweepLoop_spec` is the loop, with the queue cut where the
walk stands; `srArpcacheTimeout_spec` is the whole pass.
-/
open Memory CProg

namespace SimpleRouter

/-! ## The pass -/

section Pass
variable (ifs : List SrIf) (rts : List SrRt) (entries : ArpTable) (env : SweepEnv)

/-- What `send_arp_request_for_req` does. -/
def retryActs (now : Int) (req : SrArpreq) : List Act :=
  match req.packets with
  | [] => []
  | pkt :: _ =>
    match srGetInterface ifs pkt.iface with
    | none => []
    | some i => [.send (.arpRequest req.ptr now) i.name (arpRequestFrame env.heap i req.ip)]

/-- The error about a queued packet which leaves through `i`. -/
def unreachError (i : SrIf) (pkt : SrPacket) : Buf :=
  unreachBuf (.ofBytes pkt.buf (env.past pkt.origin.seq)) env.heap i.ip

/-- The transmission of the error about `pkt`. -/
def unreachSend (req : Nat) (i : SrIf) (pkt : SrPacket) : List Act :=
  let src := (Buf.ofBytes pkt.buf (env.past pkt.origin.seq)).mem.u32 26
  match lpmLookup rts src with
  | none => []
  | some best =>
    match srGetInterface ifs best.interface with
    | none => []
    | some j =>
      match lookupLoop (nextHop best src) none entries.slots with
      | none => []
      | some e => [.send (.hostUnreachable pkt.origin req) j.name
          (setEth (some e.mac) j.addr (unreachError env i pkt).bytes)]

/-- What one round of the loop of `send_icmp_host_unreachable` does. -/
def unreachActs (req : Nat) (pkt : SrPacket) : List Act :=
  match srGetInterface ifs pkt.iface with
  | none => []
  | some i => .build (.hostUnreachable pkt.origin req) (unreachError env i pkt).bytes ::
      unreachSend ifs rts entries env req i pkt

/-- What becomes of a request when `handle_arpreq` runs at `now`. -/
def sweepOne (now : Int) (req : SrArpreq) : Option SrArpreq :=
  if now - req.sent ≥ 1 then
    if req.timesSent ≥ 5 then none else some { req with sent := now, timesSent := req.timesSent + 1 }
  else some req

/-- What `handle_arpreq` does at `now`. -/
def sweepOneActs (now : Int) (req : SrArpreq) : List Act :=
  if now - req.sent ≥ 1 then
    if req.timesSent ≥ 5 then req.packets.flatMap (unreachActs ifs rts entries env req.ptr) ++ [.fail req now]
    else retryActs ifs env now req
  else []

/-- The queue after a pass, whose first request is the `k`th one visited. -/
def sweepList (clock : Nat → Int) : Nat → List SrArpreq → List SrArpreq
  | _, [] => []
  | k, r :: rs => (sweepOne (clock (k + 1)) r).toList ++ sweepList clock (k + 1) rs

/-- What a pass does. -/
def sweepActs : Nat → List SrArpreq → List Act
  | _, [] => []
  | k, r :: rs => sweepOneActs ifs rts entries env (env.clock (k + 1)) r ++ sweepActs (k + 1) rs

end Pass

theorem sweepList_append (clock : Nat → Int) (k : Nat) (as bs : List SrArpreq) :
    sweepList clock k (as ++ bs) = sweepList clock k as ++ sweepList clock (k + as.length) bs := by
  induction as generalizing k with
  | nil => rfl
  | cons a as ih => simp only [List.cons_append, sweepList, ih, List.append_assoc, List.length_cons, Nat.add_assoc,
      Nat.add_comm 1]

theorem sweepActs_append (ifs : List SrIf) (rts : List SrRt) (entries : ArpTable) (env : SweepEnv) (k : Nat)
    (as bs : List SrArpreq) : sweepActs ifs rts entries env k (as ++ bs) =
      sweepActs ifs rts entries env k as ++ sweepActs ifs rts entries env (k + as.length) bs := by
  induction as generalizing k with
  | nil => rfl
  | cons a as ih => simp only [List.cons_append, sweepActs, ih, List.append_assoc, List.length_cons, Nat.add_assoc,
      Nat.add_comm 1]

section Mem
variable {ifs : List SrIf} {rts : List SrRt} {entries : ArpTable} {env : SweepEnv} {req : Nat} {pkt : SrPacket} {a : Act}

theorem mem_unreachSend {i : SrIf} (h : a ∈ unreachSend ifs rts entries env req i pkt) :
    ∃ best j e, lpmLookup rts ((Buf.ofBytes pkt.buf (env.past pkt.origin.seq)).mem.u32 26) = some best ∧
      srGetInterface ifs best.interface = some j ∧
      lookupLoop (nextHop best ((Buf.ofBytes pkt.buf (env.past pkt.origin.seq)).mem.u32 26)) none entries.slots =
        some e ∧
      a = .send (.hostUnreachable pkt.origin req) j.name (setEth (some e.mac) j.addr (unreachError env i pkt).bytes) := by
  unfold unreachSend at h
  cases hb : lpmLookup rts ((Buf.ofBytes pkt.buf (env.past pkt.origin.seq)).mem.u32 26) with
  | none => simp [hb] at h
  | some best =>
    cases hj : srGetInterface ifs best.interface with
    | none => simp [hb, hj] at h
    | some j =>
      cases he : lookupLoop (nextHop best ((Buf.ofBytes pkt.buf (env.past pkt.origin.seq)).mem.u32 26)) none
        entries.slots with
      | none => simp [hb, hj, he] at h
      | some e => exact ⟨best, j, e, rfl, hj, he, by simpa [hb, hj, he] using h⟩

theorem mem_unreachActs (h : a ∈ unreachActs ifs rts entries env req pkt) :
    ∃ i, srGetInterface ifs pkt.iface = some i ∧
      (a = .build (.hostUnreachable pkt.origin req) (unreachError env i pkt).bytes ∨
        a ∈ unreachSend ifs rts entries env req i pkt) := by
  unfold unreachActs at h
  cases hi : srGetInterface ifs pkt.iface with
  | none => simp [hi] at h
  | some i => exact ⟨i, rfl, by simpa [hi] using h⟩

/-- What handling a request does: it gives up, with errors about its packets, or asks again. -/
theorem mem_sweepOneActs {now : Int} {r : SrArpreq} (h : a ∈ sweepOneActs ifs rts entries env now r) :
    now - r.sent ≥ 1 ∧ ((r.timesSent ≥ 5 ∧
        (a = .fail r now ∨ ∃ pkt ∈ r.packets, a ∈ unreachActs ifs rts entries env r.ptr pkt)) ∨
      (r.timesSent < 5 ∧ ∃ pkt ∈ r.packets, ∃ i, srGetInterface ifs pkt.iface = some i ∧
        a = .send (.arpRequest r.ptr now) i.name (arpRequestFrame env.heap i r.ip))) := by
  unfold sweepOneActs at h
  by_cases hdue : now - r.sent ≥ 1
  · refine ⟨hdue, ?_⟩
    by_cases h5 : r.timesSent ≥ 5
    · rw [if_pos hdue, if_pos h5] at h
      refine .inl ⟨h5, ?_⟩
      rcases List.mem_append.1 h with h | h
      · exact .inr (List.mem_flatMap.1 h)
      · exact .inl (List.mem_singleton.1 h)
    · rw [if_pos hdue, if_neg h5] at h
      refine .inr ⟨by omega, ?_⟩
      unfold retryActs at h
      cases hp : r.packets with
      | nil => simp [hp] at h
      | cons pkt pkts =>
        cases hi : srGetInterface ifs pkt.iface with
        | none => simp [hp, hi] at h
        | some i => exact ⟨pkt, by simp, i, hi, by simpa [hp, hi] using h⟩
  · rw [if_neg hdue] at h
    cases h

/-- A request that is due and counts five is given up. -/
theorem fail_mem_sweepOneActs {now : Int} {r : SrArpreq} (hdue : now - r.sent ≥ 1) (h5 : r.timesSent ≥ 5) :
    .fail r now ∈ sweepOneActs ifs rts entries env now r := by
  rw [sweepOneActs, if_pos hdue, if_pos h5]
  exact List.mem_append_right _ List.mem_cons_self

/-- Everything a pass does, it does on handling one of the requests. -/
theorem mem_sweepActs {k : Nat} {reqs : List SrArpreq} (h : a ∈ sweepActs ifs rts entries env k reqs) :
    ∃ r ∈ reqs, ∃ now, a ∈ sweepOneActs ifs rts entries env now r ∧
      (∀ b ∈ sweepOneActs ifs rts entries env now r, b ∈ sweepActs ifs rts entries env k reqs) ∧
      ∀ q, sweepOne now r = some q → q ∈ sweepList env.clock k reqs := by
  induction reqs generalizing k with
  | nil => cases h
  | cons r rs ih =>
    rcases List.mem_append.1 h with h | h
    · refine ⟨r, by simp, _, h, fun b hb => List.mem_append_left _ hb, fun q hq => ?_⟩
      rw [sweepList, hq]
      simp
    · obtain ⟨r', hr', now, ha, hall, hq⟩ := ih h
      exact ⟨r', by simp [hr'], now, ha, fun b hb => List.mem_append_right _ (hall b hb),
        fun q hs => List.mem_append_right _ (hq q hs)⟩

end Mem

/-- The requests a pass gives up: those that are due and count five. -/
def givenUp (clock : Nat → Int) : Nat → List SrArpreq → List SrArpreq
  | _, [] => []
  | k, r :: rs =>
    if clock (k + 1) - r.sent ≥ 1 ∧ r.timesSent ≥ 5 then r :: givenUp clock (k + 1) rs
    else givenUp clock (k + 1) rs

theorem givenUp_subset {clock : Nat → Int} {k : Nat} {reqs : List SrArpreq} {r : SrArpreq}
    (h : r ∈ givenUp clock k reqs) : r ∈ reqs := by
  induction reqs generalizing k with
  | nil => cases h
  | cons q qs ih =>
    rw [givenUp] at h
    split at h
    · rcases List.mem_cons.1 h with rfl | h
      · exact List.mem_cons_self
      · exact List.mem_cons_of_mem _ (ih h)
    · exact List.mem_cons_of_mem _ (ih h)

/-- What a pass does about packets, it does about the packets of the requests it gives up. -/
theorem mem_sweepActs_givenUp {ifs : List SrIf} {rts : List SrRt} {entries : ArpTable} {env : SweepEnv} {a : Act}
    (hfail : ∀ r t, a ≠ .fail r t) (hask : ∀ p t i f, a ≠ .send (.arpRequest p t) i f) {k : Nat}
    {reqs : List SrArpreq} :
    a ∈ sweepActs ifs rts entries env k reqs ↔
      ∃ r ∈ givenUp env.clock k reqs, ∃ pkt ∈ r.packets, a ∈ unreachActs ifs rts entries env r.ptr pkt := by
  induction reqs generalizing k with
  | nil => simp [sweepActs, givenUp]
  | cons r rs ih =>
    have hone : a ∈ sweepOneActs ifs rts entries env (env.clock (k + 1)) r ↔
        (env.clock (k + 1) - r.sent ≥ 1 ∧ r.timesSent ≥ 5) ∧
          ∃ pkt ∈ r.packets, a ∈ unreachActs ifs rts entries env r.ptr pkt := by
      constructor
      · intro h
        obtain ⟨hdue, ⟨h5, he | hp⟩ | ⟨-, pkt, -, i, -, he⟩⟩ := mem_sweepOneActs h
        · exact absurd he (hfail _ _)
        · exact ⟨⟨hdue, h5⟩, hp⟩
        · exact absurd he (hask _ _ _ _)
      · rintro ⟨⟨hdue, h5⟩, hp⟩
        rw [sweepOneActs, if_pos hdue, if_pos h5]
        exact List.mem_append_left _ (List.mem_flatMap.2 hp)
    rw [sweepActs, List.mem_append, hone, ih, givenUp]
    split
    · rename_i hgive
      simp only [List.mem_cons, exists_eq_or_imp, hgive, true_and]
    · rename_i hkeep
      simp only [hkeep, false_and, false_or]

/-! ## One request -/

theorem sendArpRequestForReq_does (env : SweepEnv) (now : Int) (req : SrArpreq) (sr : SrInstance) :
    (sendArpRequestForReq env now req sr).st = sr ∧
      (sendArpRequestForReq env now req sr).acts = retryActs sr.ifList env now req := by
  unfold sendArpRequestForReq retryActs
  cases req.packets with
  | nil => exact ⟨rfl, rfl⟩
  | cons pkt pkts =>
    cases hi : srGetInterface sr.ifList pkt.iface with
    | none => simp [hi]
    | some i =>
      constructor
      · simp [hi]
      · simp only [bind_acts, get_apply, hi, fillArp_val, fillArp_acts, srSendPacket_acts, List.nil_append]
        exact sendActs_arpRequest (srGetInterface_name hi) env.heap req.ip

theorem unreachBuf_computes (orig : Buf) (heap : Mem) (src : UInt32) :
    Computes (fillIcmpError (fun b => cksumOf b 14 ipLen) (fun b => cksumOf b 34 icmpT3Len) orig
      (.zeroed (ethLen + ipLen + icmpT3Len) heap) src 3 1) (unreachBuf orig heap src) := by
  have hf : ∀ b, Computes (cksumOf b 14 ipLen) (cksum b.mem 14 ipLen) := fun b s => ⟨rfl, rfl, rfl⟩
  have hg : ∀ b, Computes (cksumOf b 34 icmpT3Len) (cksum b.mem 34 icmpT3Len) := fun b s => ⟨rfl, rfl, rfl⟩
  exact fillIcmpError_computes hf hg _ _ _ _ _

theorem hostUnreachable_does (env : SweepEnv) (req : Nat) (pkt : SrPacket) (sr : SrInstance) :
    (hostUnreachable env req pkt sr).st = sr ∧ (hostUnreachable env req pkt sr).acts =
      unreachActs sr.ifList sr.routingTable sr.cache.entries env req pkt := by
  unfold hostUnreachable unreachActs
  cases hi : srGetInterface sr.ifList pkt.iface with
  | none => simp [hi]
  | some i =>
    have hb := unreachBuf_computes (.ofBytes pkt.buf (env.past pkt.origin.seq)) env.heap i.ip
    simp only [bind_st, bind_acts, get_apply, hi, hb.val, hb.st, hb.acts, act_apply, load32_apply,
      unreachSend, unreachError]
    cases hrt : lpmLookup sr.routingTable ((Buf.ofBytes pkt.buf (env.past pkt.origin.seq)).mem.u32 26) with
    | none => simp
    | some best =>
      cases hj : srGetInterface sr.ifList best.interface with
      | none => simp [hj]
      | some j =>
        simp only [hj]
        cases he : srArpcacheLookup sr.cache (nextHop best ((Buf.ofBytes pkt.buf (env.past pkt.origin.seq)).mem.u32 26))
        with
        | none => rw [srArpcacheLookup] at he; simp [he]
        | some e =>
          have h14 : 14 ≤ (unreachBuf (.ofBytes pkt.buf (env.past pkt.origin.seq)) env.heap i.ip).size := by simp
          have hs : sendActs sr.ifList (.hostUnreachable pkt.origin req) j.name _ = _ :=
            sendActs_setEth (some e.mac) (srGetInterface_name hj) ((Buf.length_bytes _).symm ▸ h14)
          rw [srArpcacheLookup] at he
          simp [he, srSendPacket_acts, bytes_ethBuf _ _ _ h14, hs]

theorem sendIcmpHostUnreachable_does (env : SweepEnv) (req : Nat) (pkts : List SrPacket) (sr : SrInstance) :
    (sendIcmpHostUnreachable env req pkts sr).st = sr ∧ (sendIcmpHostUnreachable env req pkts sr).acts =
      pkts.flatMap (unreachActs sr.ifList sr.routingTable sr.cache.entries env req) := by
  induction pkts with
  | nil => exact ⟨rfl, rfl⟩
  | cons pkt pkts ih =>
    obtain ⟨h1, h2⟩ := hostUnreachable_does env req pkt sr
    simp only [sendIcmpHostUnreachable, bind_st, bind_acts, h1, h2, ih.1, ih.2, List.flatMap_cons, and_self]

theorem handleArpreq_does (env : SweepEnv) (now : Int) {as bs : List SrArpreq} {r : SrArpreq} {sr : SrInstance}
    (hr : sr.cache.requests = as ++ r :: bs) (hp : ((as ++ r :: bs).map (·.ptr)).Nodup) :
    (handleArpreq env now r sr).st = sr.setRequests (as ++ (sweepOne now r).toList ++ bs) ∧
      (handleArpreq env now r sr).acts =
        sweepOneActs sr.ifList sr.routingTable sr.cache.entries env now r := by
  unfold handleArpreq sweepOne sweepOneActs
  by_cases hdue : now - r.sent ≥ 1
  · by_cases h5 : r.timesSent ≥ 5
    · obtain ⟨h1, h2⟩ := sendIcmpHostUnreachable_does env r.ptr r.packets sr
      simp only [ite_run, if_pos hdue, if_pos h5, bind_st, bind_acts, h1, h2, act_apply, modify_apply]
      refine ⟨?_, by simp⟩
      simp [SrInstance.setRequests, srArpreqDestroy, hr, eraseP_middle hp]
    · obtain ⟨h1, h2⟩ := sendArpRequestForReq_does env now r sr
      simp only [ite_run, if_pos hdue, if_neg h5, bind_st, bind_acts, h1, h2, modify_apply]
      refine ⟨?_, by simp⟩
      simp [SrInstance.updReq, hr, updReq_middle hp]
  · simp only [ite_run, if_neg hdue, pure_apply]
    refine ⟨?_, trivial⟩
    simp [SrInstance.setRequests, ← hr]

/-! ## The walk -/

theorem nodup_ptr_tail {as bs : List SrArpreq} {r : SrArpreq} (h : ((as ++ r :: bs).map (·.ptr)).Nodup) (now : Int) :
    ((as ++ (sweepOne now r).toList ++ bs).map (·.ptr)).Nodup := by
  have hs : ((as ++ bs).map (·.ptr)).Nodup := by
    refine h.sublist ?_
    rw [List.map_append, List.map_append, List.map_cons]
    exact List.Sublist.append_left (List.sublist_cons_self _ _) _
  unfold sweepOne
  split
  · split
    · simpa using hs
    · simpa using h
  · simpa using h

/-- The walk from a node on is the pass over the nodes from there on. -/
theorem sweepLoop_spec (env : SweepEnv) (todo done : List SrArpreq) (k fuel : Nat) (hf : todo.length ≤ fuel)
    (sr : SrInstance) (hr : sr.cache.requests = done ++ todo) (hp : ((done ++ todo).map (·.ptr)).Nodup) :
    (sweepLoop env fuel k (todo.head?.map (·.ptr)) sr).st =
        sr.setRequests (done ++ sweepList env.clock k todo) ∧
      (sweepLoop env fuel k (todo.head?.map (·.ptr)) sr).acts =
        sweepActs sr.ifList sr.routingTable sr.cache.entries env k todo := by
  induction todo generalizing done k fuel sr with
  | nil =>
    have e : sweepLoop env fuel k none = pure () := by cases fuel <;> rfl
    simp [e, sweepList, sweepActs, SrInstance.setRequests, ← hr]
  | cons r rs ih =>
    obtain ⟨fuel, rfl⟩ : ∃ f, fuel = f + 1 := ⟨fuel - 1, by simp at hf; omega⟩
    obtain ⟨h1, h2⟩ := handleArpreq_does env (env.clock (k + 1)) hr hp
    have hn := nodup_ptr_tail hp (env.clock (k + 1))
    -- the next pointer was read before `r` was handled, and what it points to is still there
    obtain ⟨h3, h4⟩ := ih (done ++ (sweepOne (env.clock (k + 1)) r).toList) (k + 1) fuel (by simp at hf; omega)
      (sr.setRequests (done ++ (sweepOne (env.clock (k + 1)) r).toList ++ rs)) rfl hn
    have hd : derefReq r.ptr sr.cache.requests = some r := by rw [hr, derefReq_middle hp]
    have hx : nextReq r.ptr sr.cache.requests = rs.head?.map (·.ptr) := by rw [hr, nextReq_middle hp]
    simp only [List.head?_cons, Option.map_some, sweepLoop, bind_st, bind_acts, get_apply, hd, hx, h1, h2, h3, h4]
    refine ⟨?_, ?_⟩
    · simp [sweepList, SrInstance.setRequests]
    · simp [sweepActs, SrInstance.setRequests]

/-- A whole pass: expired entries go, then each request is handled once. -/
theorem srArpcacheTimeout_spec (env : SweepEnv) (sr : SrInstance) (hp : (sr.cache.requests.map (·.ptr)).Nodup) :
    (srArpcacheTimeout env sr).st = { sr with cache :=
      ⟨expireEntries (env.clock 0) sr.cache.entries, sweepList env.clock 0 sr.cache.requests⟩ } ∧
    (srArpcacheTimeout env sr).acts = sweepActs sr.ifList sr.routingTable
      (expireEntries (env.clock 0) sr.cache.entries) env 0 sr.cache.requests := by
  obtain ⟨h1, h2⟩ := sweepLoop_spec env sr.cache.requests [] 0 _ (Nat.le_refl _)
    { sr with cache := { sr.cache with entries := expireEntries (env.clock 0) sr.cache.entries } } rfl hp
  simp only [srArpcacheTimeout, srArpcacheSweepreqs, bind_st, bind_acts, modify_apply, get_apply, h1, h2]
  exact ⟨rfl, rfl⟩

end SimpleRouter
