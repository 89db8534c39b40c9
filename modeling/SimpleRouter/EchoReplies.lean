import SimpleRouter.Verifying
/-!
# Echo replies

`send_icmp_echo_reply` writes the ICMP header at byte 34 whatever `ip_hl` says,
sums up to the end of the frame whatever `ip_len` says, and stores the sum with
its bytes exchanged. `echo_answered_iff` says which echo requests get the reply
they ask for all the same.
-/
open Memory CProg Runs OnesComplement

namespace SimpleRouter

variable {ifs : List SrIf} {rts : List SrRt}

/-! ## Requests and replies -/

/-- Where the ICMP message of a packet starts. -/
def icmpOff (m : Mem) : Nat := 14 + 4 * ipHl m

/-- `bytes` is an echo request for an interface of the router, with whatever
options, payload and padding. -/
structure IsEchoRequest (ifs : List SrIf) (bytes : List UInt8) : Prop where
  type : etherType (memOf bytes) = ethertypeIp
  version : ipV (memOf bytes) = 4
  header : 5 ≤ ipHl (memOf bytes)
  message : 4 * ipHl (memOf bytes) + 8 ≤ ipTotal (memOf bytes)
  total : 14 + ipTotal (memOf bytes) ≤ bytes.length
  proto : ipP (memOf bytes) = ipProtocolIcmp
  echo : memOf bytes (icmpOff (memOf bytes)) = 8
  ours : ∃ i, srGetInterfaceByIp ifs (ipDst (memOf bytes)) = some i

/-- `frame` is the reply that the echo request `bytes` asks for. -/
structure AnswersEcho (bytes frame : List UInt8) : Prop where
  dhost : Mac.ofMem (memOf frame) 0 = Mac.ofMem (memOf bytes) 6
  type : etherType (memOf frame) = ethertypeIp
  length : 14 + ipTotal (memOf bytes) ≤ frame.length
  header : ipHl (memOf frame) = ipHl (memOf bytes)
  total : ipTotal (memOf frame) = ipTotal (memOf bytes)
  src : ipSrc (memOf frame) = ipDst (memOf bytes)
  dst : ipDst (memOf frame) = ipSrc (memOf bytes)
  options : ∀ k, 34 ≤ k → k < icmpOff (memOf bytes) → memOf frame k = memOf bytes k
  reply : memOf frame (icmpOff (memOf bytes)) = 0 ∧ memOf frame (icmpOff (memOf bytes) + 1) = 0
  message : ∀ k, icmpOff (memOf bytes) + 4 ≤ k → k < 14 + ipTotal (memOf bytes) → memOf frame k = memOf bytes k
  checksum : Verifies (memOf frame) (icmpOff (memOf bytes)) (ipTotal (memOf bytes) - 4 * ipHl (memOf bytes))

/-- `m` with the type, the code and the checksum at byte 34 zeroed. -/
def blanked (m : Mem) : Mem := m.store 34 [0, 0, 0, 0]

/-- Summed in the wrong byte order and up to the end of the frame, the message
has the sum that it has. -/
def SumsAgree (bytes : List UInt8) : Prop :=
  leSum (blanked (memOf bytes)) 34 (bytes.length - 34) % 2 ^ 32 % 65535 =
      beSum (blanked (memOf bytes)) 34 (ipTotal (memOf bytes) - 20) % 65535 ∧
    (beSum (blanked (memOf bytes)) 34 (ipTotal (memOf bytes) - 20) = 0 →
      leSum (blanked (memOf bytes)) 34 (bytes.length - 34) % 2 ^ 32 = 0)

/-- The request has no options, comes in on an interface that exists, and the
two sums agree. -/
def EchoSuits (ifs : List SrIf) (bytes : List UInt8) (iface : IfName) : Prop :=
  (∃ i, srGetInterface ifs iface = some i) ∧ ipHl (memOf bytes) = 5 ∧ SumsAgree bytes

instance (bytes : List UInt8) : Decidable (SumsAgree bytes) := inferInstanceAs (Decidable (_ ∧ (_ → _)))

/-! ## The frame that is built -/

section Reply
variable {packet : Buf} (heap : Mem) (iface : SrIf)

/-- In front of the TTL and behind the ICMP checksum nothing changes. -/
theorem echoBuf_kept {k : Nat} (hk : k < packet.size) (h : 14 ≤ k ∧ k < 22 ∨ 38 ≤ k) :
    (echoBuf packet heap iface).mem k = packet.mem k := by
  have hstore : (echoBuf packet heap iface).mem k = (echoHead packet heap iface).mem k := by
    simp only [echoBuf, echoBody, Buf.mem_store]
    rcases h with ⟨-, h⟩ | h
    · iterate 5 rw [Mem.store_of_lt _ _ _ _ (by omega)]
    · iterate 5 rw [Mem.store_of_ge _ _ _ _ (by simp; omega)]
  rw [hstore, echoHead_mem heap iface (by omega) hk (by omega), unsummed, echoTtl]
  rcases h with ⟨-, h⟩ | h
  · rw [Mem.store_of_lt _ _ _ _ (by omega), Mem.store_of_lt _ _ _ _ (by omega)]
  · rw [Mem.store_of_ge _ _ _ _ (by simp; omega), Mem.store_of_ge _ _ _ _ (by simp; omega)]

/-- The addresses are exchanged. -/
theorem echoBuf_addrs (h34 : 34 ≤ packet.size) : (echoBuf packet heap iface).mem.u32 26 = packet.mem.u32 30 ∧
    (echoBuf packet heap iface).mem.u32 30 = packet.mem.u32 26 := by
  have hb : ∀ i, i < 34 → (packet.copy heap).mem i = packet.mem i := by
    intro i hi
    have hi' : i < packet.size := by omega
    simp [Buf.copy, hi']
  have hbytes : ∀ k, k < 4 → (echoBuf packet heap iface).mem (26 + k) = packet.mem (30 + k) ∧
      (echoBuf packet heap iface).mem (30 + k) = packet.mem (26 + k) := by
    intro k hk
    have hk' : k = 0 ∨ k = 1 ∨ k = 2 ∨ k = 3 := by omega
    rcases hk' with rfl | rfl | rfl | rfl <;> simp [echoBuf, echoBody, echoHead, Mem.le32_u32, Mem.store, hb]
  exact ⟨Mem.u32_shift fun k hk => (hbytes k hk).1, Mem.u32_shift fun k hk => (hbytes k hk).2⟩

/-- The reply goes to the Ethernet source of the request. -/
theorem echoBuf_dhost : Mac.ofMem (echoBuf packet heap iface).mem 0 = Mac.ofMem packet.mem 6 := by
  apply Mac.ofMem_congr
  intro k hk
  simp only [echoBuf, echoBody, echoHead, Buf.mem_store]
  iterate 10 rw [Mem.store_of_lt _ _ _ _ (by omega)]
  rw [Mem.store_of_mem _ _ _ _ (by simpa using hk)]
  exact Mem.getD_slice packet.mem 6 6 k hk

/-- The type and the code are zeroed at byte 34. -/
theorem echoBuf_zeroed {k : Nat} (h : k = 34 ∨ k = 35) : (echoBuf packet heap iface).mem k = 0 := by
  rcases h with rfl | rfl <;> rfl

/-- Over the first `len` bytes from 34 on, the reply verifies when the sum up to
the end of the frame is theirs. -/
theorem echoBuf_verifies {len : Nat} (h4 : 4 ≤ len) (hlen : 34 + len ≤ packet.size) :
    Verifies (echoBuf packet heap iface).mem 34 len ↔
      leSum (blanked packet.mem) 34 (packet.size - 34) % 2 ^ 32 % 65535 = beSum (blanked packet.mem) 34 len % 65535 ∧
        (beSum (blanked packet.mem) 34 len = 0 → leSum (blanked packet.mem) 34 (packet.size - 34) % 2 ^ 32 = 0) := by
  obtain ⟨n, hn, hm, hz, hsum⟩ := @echo_icmp packet heap iface (by omega)
  have hbody : beSum (echoBody packet heap iface).mem 34 len = beSum (blanked packet.mem) 34 len :=
    beSum_congr fun k h1 h2 => echoBody_mem heap iface h1 (by omega)
  have hstored := @beSum_store (echoBody packet heap iface).mem 34 1 len (by omega) rfl rfl
    (ipChecksum (echoBody packet heap iface).mem 34 (packet.size - ethLen - ipLen))
  rw [hbody, hsum] at hstored
  rw [verifies_iff, echoBuf, Buf.mem_store, hstored]
  simp only [blanked] at *
  omega

end Reply

/-! ## The handler -/

section Handler
variable {bytes : List UInt8} (past heap : Mem) (iface : IfName) (now : Int)

theorem IsEchoRequest.plan (h : IsEchoRequest ifs bytes) (n : Nat) :
    plan ifs rts ⟨n, now, heap⟩ (.ofBytes bytes past) iface =
      if memOf bytes 34 = 8 then planEcho ifs ⟨n, now, heap⟩ (.ofBytes bytes past) iface else .quiet := by
  obtain ⟨i, hi⟩ := h.ours
  have hh := h.header
  have hm := h.message
  have ht := h.total
  have h8 : (Buf.ofBytes bytes past).mem 34 = memOf bytes 34 := ofBytes_mem (by omega)
  rw [plan_ip ifs rts _ past iface h.type (by omega), planIp_bytes ifs rts _ past iface (by omega), hi, h8,
    Option.isSome_some, if_pos rfl, if_pos h.proto]

/-- What the handler does with an echo request. -/
theorem IsEchoRequest.acts (h : IsEchoRequest ifs bytes) (es : List Event) :
    (router ifs rts).actsAt es (.frame bytes past heap iface now) =
      if memOf bytes 34 = 8 then
        match srGetInterface ifs iface with
        | none => [.fault .nullDeref]
        | some i => [.send (.echoReply es.length) iface (echoBuf (.ofBytes bytes past) heap i).bytes]
      else [] := by
  obtain ⟨hw, -⟩ := reachable ifs rts es
  have hplan := @IsEchoRequest.plan ifs rts bytes past heap iface now h es.length
  have hsize : 14 ≤ (Buf.ofBytes bytes past).size := by
    have := h.total
    have := h.message
    have := h.header
    rw [Buf.size_ofBytes]
    omega
  split
  · rename_i h8
    rw [if_pos h8, planEcho] at hplan
    cases hi : srGetInterface ifs iface with
    | none =>
      rw [hi] at hplan
      exact (stepRes_plan hw hplan rfl).2
    | some i =>
      rw [hi] at hplan
      exact (stepRes_plan hw hplan rfl).2.trans (sendActs_echo (hw.ifList.symm ▸ hi) _ heap hsize)
  · rename_i h8
    rw [if_neg h8] at hplan
    exact (stepRes_plan hw hplan rfl).2

/-- The frame that is built is the reply exactly if there are no options and the sums agree. -/
theorem IsEchoRequest.answers_iff (h : IsEchoRequest ifs bytes) (h8 : memOf bytes 34 = 8) (i : SrIf) :
    AnswersEcho bytes (echoBuf (.ofBytes bytes past) heap i).bytes ↔ ipHl (memOf bytes) = 5 ∧ SumsAgree bytes := by
  have hh := h.header
  have hm := h.message
  have ht := h.total
  have hmem : ∀ k, k < bytes.length → memOf (echoBuf (.ofBytes bytes past) heap i).bytes k =
      (echoBuf (.ofBytes bytes past) heap i).mem k := fun k hk => memOf_bytes _ _ (by simpa using hk)
  have hkept : ∀ k, k < bytes.length → 14 ≤ k ∧ k < 22 ∨ 38 ≤ k →
      memOf (echoBuf (.ofBytes bytes past) heap i).bytes k = memOf bytes k := fun k hk hor =>
    (hmem k hk).trans ((echoBuf_kept heap i (by simpa using hk) hor).trans (ofBytes_mem hk))
  have hblank : ∀ k, 34 ≤ k → k < bytes.length →
      blanked (Buf.ofBytes bytes past).mem k = blanked (memOf bytes) k := by
    intro k h1 h2
    simp only [blanked, Mem.store]
    split
    · rfl
    · exact ofBytes_mem h2
  have hver : ipHl (memOf bytes) = 5 → (Verifies (memOf (echoBuf (.ofBytes bytes past) heap i).bytes)
      (icmpOff (memOf bytes)) (ipTotal (memOf bytes) - 4 * ipHl (memOf bytes)) ↔ SumsAgree bytes) := by
    intro h5
    have hv := @echoBuf_verifies (.ofBytes bytes past) heap i (ipTotal (memOf bytes) - 20) (by omega) (by simp; omega)
    rw [Buf.size_ofBytes, leSum_congr fun k h1 h2 => hblank k h1 (by omega),
      beSum_congr fun k h1 h2 => hblank k h1 (by omega)] at hv
    rw [icmpOff, h5]
    exact (verifies_congr fun k h1 h2 => hmem k (by omega)).trans hv
  constructor
  · intro ha
    have h5 : ipHl (memOf bytes) = 5 := by
      by_contra hne
      -- the first option is overwritten by the type of the reply
      have hopt := ha.options 34 (Nat.le_refl 34) (by rw [icmpOff]; omega)
      rw [hmem 34 (by omega), echoBuf_zeroed heap i (.inl rfl), h8] at hopt
      exact absurd hopt (by decide)
    exact ⟨h5, (hver h5).1 ha.checksum⟩
  · rintro ⟨h5, hs⟩
    obtain ⟨hsrc, hdst⟩ := @echoBuf_addrs (.ofBytes bytes past) heap i (by simp; omega)
    have hoff : icmpOff (memOf bytes) = 34 := by rw [icmpOff, h5]
    exact {
      dhost := (Mac.ofMem_congr fun k hk => hmem (0 + k) (by omega)).trans
        ((echoBuf_dhost heap i).trans (Mac.ofMem_congr fun k hk => ofBytes_mem (by omega)))
      type := (echoBuf_type (by simp; omega)).trans ((etherType_ofBytes (by omega) past).trans h.type)
      length := by
        rw [Buf.length_bytes, size_echoBuf, Buf.size_ofBytes]
        exact ht
      header := ipHl_congr (hkept 14 (by omega) (.inl (by decide)))
      total := congrArg (fun v => (swap16 v).toNat)
        (Mem.u16_congr (hkept 16 (by omega) (.inl (by decide))) (hkept 17 (by omega) (.inl (by decide))))
      src := (Mem.u32_congr fun k hk => hmem (26 + k) (by omega)).trans (hsrc.trans (ofBytes_u32 (by omega)))
      dst := (Mem.u32_congr fun k hk => hmem (30 + k) (by omega)).trans (hdst.trans (ofBytes_u32 (by omega)))
      options := by
        intro k h1 h2
        omega
      reply := by
        rw [hoff]
        exact ⟨(hmem 34 (by omega)).trans (echoBuf_zeroed heap i (.inl rfl)),
          (hmem 35 (by omega)).trans (echoBuf_zeroed heap i (.inr rfl))⟩
      message := by
        intro k h1 h2
        exact hkept k (by omega) (.inr (by omega))
      checksum := (hver h5).2 hs }

end Handler

/-- Whatever the state, an echo request gets the reply it asks for, and nothing
else is sent, if and only if it has no options, comes in on an interface that
exists, and the two sums over its message agree. -/
theorem echo_answered_iff (ifs : List SrIf) (rts : List SrRt) (es : List Event) (bytes : List UInt8) (past heap : Mem)
    (iface : IfName) (now : Int) (h : IsEchoRequest ifs bytes) :
    (∃ frame, (router ifs rts).actsAt es (.frame bytes past heap iface now) =
        [.send (.echoReply es.length) iface frame] ∧ AnswersEcho bytes frame) ↔ EchoSuits ifs bytes iface := by
  rw [h.acts]
  constructor
  · rintro ⟨frame, hacts, ha⟩
    split at hacts
    · rename_i h8
      split at hacts
      · cases hacts
      · rename_i i hi
        cases hacts
        exact ⟨⟨i, hi⟩, (h.answers_iff past heap h8 i).1 ha⟩
    · cases hacts
  · rintro ⟨⟨i, hi⟩, h5, hs⟩
    have h8 : memOf bytes 34 = 8 := by
      have := h.echo
      rwa [icmpOff, h5] at this
    rw [if_pos h8]
    simp only [hi]
    exact ⟨_, rfl, (h.answers_iff past heap h8 i).2 ⟨h5, hs⟩⟩

/-! ## Two pings -/

namespace Sample

/-- A ping with 1, 1, 1, 1 in its ICMP message behind the checksum. -/
def evenPing : List UInt8 := ((ping [10, 0, 0, 1]).set 38 1).set 40 1

/-- A ping with an IP header of six words, the last of which has no effect. -/
def optionPing : List UInt8 :=
  [2, 0, 0, 0, 0, 1, 9, 9, 9, 9, 9, 9, 8, 0, 0x46, 0, 0, 32, 0, 0, 0, 0, 63, 1, 0, 0, 10, 0, 0, 5, 10, 0, 0, 1,
    1, 1, 1, 1, 8, 0, 0, 0, 0, 1, 0, 1]

end Sample

theorem echo_answered_even :
    ∃ frame, (router Sample.ifs Sample.rts).actsAt [] (Sample.received Sample.e1 Sample.evenPing 100) =
      [.send (.echoReply 0) Sample.e1 frame] ∧ AnswersEcho Sample.evenPing frame := by
  refine (echo_answered_iff Sample.ifs Sample.rts [] Sample.evenPing (fun _ => 0) (fun _ => 0) Sample.e1 100 ?_).2 ?_
  · exact ⟨by decide, by decide, by decide, by decide, by decide, by decide, by decide, _, rfl⟩
  · exact ⟨⟨_, rfl⟩, by decide, by decide +kernel⟩

/-- A ping with options gets no answer. -/
theorem echo_unanswered :
    ¬ ∀ bytes, IsEchoRequest Sample.ifs bytes → ∃ frame,
      (router Sample.ifs Sample.rts).actsAt [] (Sample.received Sample.e1 bytes 100) =
        [.send (.echoReply 0) Sample.e1 frame] ∧ AnswersEcho bytes frame := by
  intro h
  obtain ⟨frame, hacts, -⟩ := h Sample.optionPing
    ⟨by decide, by decide, by decide, by decide, by decide, by decide, by decide, _, rfl⟩
  have hnone : (router Sample.ifs Sample.rts).actsAt [] (Sample.received Sample.e1 Sample.optionPing 100) = [] := by
    decide +kernel
  cases hnone.symm.trans hacts

end SimpleRouter
