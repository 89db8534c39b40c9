import SimpleRouter.Invariants
/-!
# Which checksums verify

`sr_router.c` stores `htons(ip_checksum(..))`, with its bytes in the wrong
order; `send_icmp_host_unreachable` stores `cksum(..)`, which is right. A
wrong order goes unnoticed only where the two bytes are equal, that is where
257 divides the word sum. `checksums_verify_iff` says, for every run, that all
of its checksums verify exactly when each step meets that condition for the
headers it transmits and the messages it builds.
-/
open Memory CProg Runs OnesComplement

namespace SimpleRouter

/-! ## What is to verify -/

/-- There is a header of at least five words, and it ends within `len` bytes of frame. -/
def HeaderIn (m : Mem) (len : Nat) : Prop := 5 ≤ ipHl m ∧ 14 + 4 * ipHl m ≤ len

instance (m : Mem) (len : Nat) : Decidable (HeaderIn m len) := inferInstanceAs (Decidable (_ ∧ _))

/-- The header of an IPv4 frame verifies. -/
def HeaderOk (frame : List UInt8) : Prop :=
  etherType (memOf frame) = ethertypeIp → HeaderIn (memOf frame) frame.length →
    Verifies (memOf frame) 14 (4 * ipHl (memOf frame))

instance (frame : List UInt8) : Decidable (HeaderOk frame) := inferInstanceAs (Decidable (_ → _ → _))

/-- A frame that is transmitted has a header that verifies, an ICMP error that
is built verifies over its 36 bytes. -/
def Act.Ok : Act → Prop
  | .send _ _ frame => HeaderOk frame
  | .reject _ _ _ => True
  | .build _ frame => Verifies (memOf frame) 34 icmpT3Len
  | .fail _ _ => True
  | .fault _ => True

instance (a : Act) : Decidable a.Ok :=
  match a with
  | .send _ _ frame => inferInstanceAs (Decidable (HeaderOk frame))
  | .reject _ _ _ => .isTrue trivial
  | .build _ frame => inferInstanceAs (Decidable (Verifies (memOf frame) 34 icmpT3Len))
  | .fail _ _ => .isTrue trivial
  | .fault _ => .isTrue trivial

/-! ## Stamped headers -/

/-- `m` with the checksum field of its IP header zeroed. -/
def unsummed (m : Mem) : Mem := m.store 24 (le16 0)

/-- The word sum of the IP header, the checksum field left out. -/
def headerSum (m : Mem) : Nat := beSum (unsummed m) 14 (4 * ipHl m)

/-- `ip_sum = 0; ip_sum = htons(ip_checksum(ip_hdr, ip_hl * 4))`. -/
def stamp (m : Mem) : Mem := (unsummed m).store 24 (le16 (swap16 (ipChecksum (unsummed m) 14 (4 * ipHl m))))

theorem ipHl_le (m : Mem) : ipHl m ≤ 15 := by
  rw [ipHl, UInt8.toNat_and]
  exact Nat.and_le_right

theorem ipHl_congr {m k : Mem} (h : m 14 = k 14) : ipHl m = ipHl k := by rw [ipHl, ipHl, h]

@[simp] theorem unsummed_unsummed (m : Mem) : unsummed (unsummed m) = unsummed m := Mem.store_store m 24 _ _ rfl

@[simp] theorem ipHl_unsummed (m : Mem) : ipHl (unsummed m) = ipHl m :=
  ipHl_congr (Mem.store_of_lt _ _ _ _ (by decide))

@[simp] theorem unsummed_stamp (m : Mem) : unsummed (stamp m) = unsummed m := by
  rw [unsummed, stamp, Mem.store_store _ _ _ _ (by rfl)]
  exact unsummed_unsummed m

@[simp] theorem ipHl_stamp (m : Mem) : ipHl (stamp m) = ipHl m :=
  (ipHl_congr (Mem.store_of_lt _ _ _ _ (by decide))).trans (ipHl_unsummed m)

@[simp] theorem stamp_stamp (m : Mem) : stamp (stamp m) = stamp m := by
  rw [stamp, unsummed_stamp, ipHl_stamp]
  rfl

@[simp] theorem headerSum_stamp (m : Mem) : headerSum (stamp m) = headerSum m := by
  rw [headerSum, headerSum, unsummed_stamp, ipHl_stamp]

theorem headerSum_congr {m k : Mem} (h : ∀ i, 14 ≤ i → i < 14 + 4 * ipHl m → m i = k i) (h5 : 5 ≤ ipHl m) :
    headerSum m = headerSum k := by
  rw [headerSum, headerSum, ← ipHl_congr (h 14 (by omega) (by omega))]
  refine beSum_congr fun i h1 h2 => ?_
  simp only [unsummed, Mem.store]
  split
  · rfl
  · exact h i h1 h2

theorem stamp_congr {m k : Mem} (h : ∀ i, 14 ≤ i → i < 14 + 4 * ipHl m → m i = k i) (h5 : 5 ≤ ipHl m) {i : Nat}
    (h1 : 14 ≤ i) (h2 : i < 14 + 4 * ipHl m) : stamp m i = stamp k i := by
  have hu : ∀ i, 14 ≤ i → i < 14 + 4 * ipHl m → unsummed m i = unsummed k i := by
    intro i h1 h2
    simp only [unsummed, Mem.store]
    split
    · rfl
    · exact h i h1 h2
  rw [stamp, stamp, ← ipHl_congr (h 14 (by omega) (by omega)), ipChecksum_congr hu]
  simp only [Mem.store]
  split
  · rfl
  · exact hu i h1 h2

/-- A header of five words does not start with a zero byte. -/
theorem ne_zero_of_hl {m : Mem} (h5 : 5 ≤ ipHl m) : m 14 ≠ 0 := by
  intro h0
  rw [ipHl, h0] at h5
  simp at h5

/-- A stamped header verifies when 257 divides its word sum. -/
theorem stamp_verifies {m : Mem} (h5 : 5 ≤ ipHl m) : Verifies (stamp m) 14 (4 * ipHl m) ↔ 257 ∣ headerSum m := by
  have hl := ipHl_le m
  exact htons_ipChecksum_verifies (j := 5) (by omega) rfl rfl (by omega)
    (ne_zero_of_hl (by rwa [ipHl_unsummed]))

/-! ## Frames with stamped headers -/

/-- The byte order of the header's checksum does not matter. -/
def HeaderFree (m : Mem) (len : Nat) : Prop := HeaderIn m len → 257 ∣ headerSum m

instance (m : Mem) (len : Nat) : Decidable (HeaderFree m len) := inferInstanceAs (Decidable (_ → _))

/-- The header of the frame is one that `stamp` leaves. -/
def Stamped (bs : List UInt8) : Prop := HeaderIn (memOf bs) bs.length →
  ∀ i, 14 ≤ i → i < 14 + 4 * ipHl (memOf bs) → stamp (memOf bs) i = memOf bs i

theorem headerOk_iff {frame : List UInt8} (ht : etherType (memOf frame) = ethertypeIp) (hs : Stamped frame) :
    HeaderOk frame ↔ HeaderFree (memOf frame) frame.length := by
  unfold HeaderOk HeaderFree
  rw [forall_prop_of_true ht]
  refine forall_congr' fun hin => ?_
  have hv : Verifies (memOf frame) 14 (4 * ipHl (memOf frame)) ↔
      Verifies (stamp (memOf frame)) 14 (4 * ipHl (memOf frame)) :=
    verifies_congr fun i h1 h2 => (hs hin i h1 h2).symm
  rw [hv, stamp_verifies hin.1]

theorem headerFree_congr {m k : Mem} {len : Nat} (h14 : m 14 = k 14)
    (h : HeaderIn m len → ∀ i, 14 ≤ i → i < 14 + 4 * ipHl m → m i = k i) : HeaderFree m len ↔ HeaderFree k len := by
  have hl := ipHl_congr h14
  unfold HeaderFree HeaderIn
  rw [← hl]
  refine forall_congr' fun hin => ?_
  rw [headerSum_congr (h hin) hin.1]

section Eth
variable (dhost : Option Mac) (shost : Mac) {bs : List UInt8}

theorem headerFree_setEth (h : 14 ≤ bs.length) :
    HeaderFree (memOf (setEth dhost shost bs)) (setEth dhost shost bs).length ↔ HeaderFree (memOf bs) bs.length := by
  rw [length_setEth dhost shost h]
  exact headerFree_congr (memOf_setEth dhost shost h (Nat.le_refl 14)) fun _ i hi _ => memOf_setEth dhost shost h hi

theorem Stamped.setEth (h : 14 ≤ bs.length) (hs : Stamped bs) : Stamped (setEth dhost shost bs) := by
  have hm : ∀ i, 14 ≤ i → memOf (SimpleRouter.setEth dhost shost bs) i = memOf bs i :=
    fun i hi => memOf_setEth dhost shost h hi
  unfold Stamped HeaderIn
  rw [length_setEth dhost shost h, ipHl_congr (hm 14 (Nat.le_refl 14))]
  intro hin i h1 h2
  rw [hm i h1, ← hs hin i h1 h2]
  exact (stamp_congr (fun i h1 _ => (hm i h1).symm) hin.1 h1 h2).symm

/-- What is put out for a stamped packet verifies when 257 divides its header's word sum. -/
theorem headerOk_setEth (h : 14 ≤ bs.length) (hs : Stamped bs) :
    HeaderOk (setEth dhost shost bs) ↔ HeaderFree (memOf bs) bs.length :=
  (headerOk_iff (etherType_setEth dhost shost h) (hs.setEth dhost shost h)).trans (headerFree_setEth dhost shost h)

end Eth

/-- A buffer whose header was stamped over `m`. -/
theorem stamped_bytes {b : Buf} {m : Mem} (hsize : 34 ≤ b.size) (h14 : b.mem 14 = m 14)
    (h : HeaderIn m b.size → ∀ i, 14 ≤ i → i < 14 + 4 * ipHl m → b.mem i = stamp m i) :
    Stamped b.bytes ∧ (HeaderFree (memOf b.bytes) b.bytes.length ↔ HeaderFree m b.size) := by
  have hb : ∀ i, i < b.size → memOf b.bytes i = b.mem i := fun i hi => memOf_bytes b i hi
  have h14' : memOf b.bytes 14 = m 14 := (hb 14 (by omega)).trans h14
  have hl : ipHl (memOf b.bytes) = ipHl m := ipHl_congr h14'
  have hm : HeaderIn m b.size → ∀ i, 14 ≤ i → i < 14 + 4 * ipHl m → memOf b.bytes i = stamp m i := by
    intro hin i h1 h2
    rw [hb i (by have := hin.2; omega), h hin i h1 h2]
  constructor
  · unfold Stamped HeaderIn
    rw [Buf.length_bytes, hl]
    intro hin i h1 h2
    have hs := stamp_congr (m := memOf b.bytes) (k := stamp m) (by rw [hl]; exact hm hin) (by rw [hl]; exact hin.1)
      h1 (by rw [hl]; exact h2)
    rw [hs, stamp_stamp, hm hin i h1 h2]
  · rw [Buf.length_bytes]
    unfold HeaderFree HeaderIn
    rw [hl]
    refine forall_congr' fun hin => ?_
    rw [headerSum_congr (m := memOf b.bytes) (k := stamp m) (by rw [hl]; exact hm hin) (by rw [hl]; exact hin.1),
      headerSum_stamp]

/-! ## Packets passed on -/

/-- A packet with one hop less to live. -/
def oneHopLess (b : Buf) : Mem := b.mem.store 22 [b.mem 22 - 1]

theorem decTtl_mem (b : Buf) : (decTtl b).mem = unsummed (oneHopLess b) := rfl

theorem forwardBuf_stamp (b : Buf) : (forwardBuf b).mem = stamp (oneHopLess b) := by
  rw [forwardBuf, Buf.mem_store, decTtl_mem, ipHl_unsummed, Nat.mul_comm]
  rfl

theorem forward_stamped {b : Buf} (h : 34 ≤ b.size) : Stamped (forwardBuf b).bytes ∧
    (HeaderFree (memOf (forwardBuf b).bytes) (forwardBuf b).bytes.length ↔ HeaderFree (oneHopLess b) b.size) := by
  have hs := stamped_bytes (b := forwardBuf b) (m := oneHopLess b) (by simpa using h)
    (by rw [forwardBuf_stamp]; exact Mem.store_of_lt _ _ _ _ (by decide)) fun _ i _ _ => by rw [forwardBuf_stamp]
  rwa [size_forwardBuf] at hs

/-- The sum of the quoted bytes of a packet passed on. -/
theorem forward_quoted (b : Buf) :
    beSum (forwardBuf b).mem 14 28 % 257 = (beSum (unsummed (oneHopLess b)) 14 28 + headerSum (oneHopLess b)) % 257 := by
  have hl := ipHl_le (oneHopLess b)
  have hm := ipChecksum_mod (unsummed (oneHopLess b)) 14 (4 * ipHl (oneHopLess b)) (by omega)
  have hs : beSum (stamp (oneHopLess b)) 14 28 = _ :=
    @beSum_store (unsummed (oneHopLess b)) 14 5 28 (by decide) rfl rfl _
  rw [forwardBuf_stamp, hs, headerSum]
  omega

/-! ## ICMP errors -/

/-- The word sum of an address in a header. -/
def addrSum (a : UInt32) : Nat := beSum (memOf (le32 a)) 0 4

section Errors
variable (f g : Buf → UInt16) (orig : Buf) (heap : Mem) (src : UInt32) (type code : UInt8)

theorem errorHead_sum : headerSum (errorHead orig (.zeroed (ethLen + ipLen + icmpT3Len) heap) src).mem =
    0x4500 + 0x0038 + 0x4001 + addrSum src + addrSum (orig.mem.u32 26) := by
  rw [headerSum, errorHead_hl]
  have hlen : swap16 56 = 0x3800 := by decide
  simp [beSum, unsummed, errorHead, Buf.zeroed, Mem.store, addrSum, memOf, le16, le32, hlen, ipProtocolIcmp]
  omega

/-- The ICMP part of an error: type, code and the quoted bytes. -/
theorem errorBody_sum (b : Buf) :
    beSum (errorBody orig b type code).mem 34 36 = 256 * type.toNat + code.toNat + beSum orig.mem 14 28 := by
  have hq : beSum (errorBody orig b type code).mem (34 + 2 * 4) 28 = beSum orig.mem 14 28 := by
    refine beSum_shift fun i hi => ?_
    rw [errorBody, Buf.mem_store, Mem.store_of_ge _ _ _ _ (by simp; omega), Buf.mem_store,
      Mem.store_of_mem _ _ _ _ (by simpa using hi), Mem.getD_slice _ _ _ _ hi]
  rw [beSum_split _ 34 4 28, hq]
  simp [beSum, errorBody, Mem.store, le16]

/-- The header of an error is the one at its head, with its checksum. -/
theorem errorBuf_head (reply : Buf) {i : Nat} (h1 : 14 ≤ i) (h2 : i < 34) :
    (errorBuf f g orig reply src type code).mem i =
      ((errorHead orig reply src).mem.store 24 (le16 (f (errorHead orig reply src)))) i := by
  simp only [errorBuf, errorBody, Buf.mem_store]
  iterate 7 rw [Mem.store_of_lt _ _ _ _ (by omega)]

/-- The ICMP part of an error, with its checksum. -/
theorem errorBuf_body (reply : Buf) : ∃ b, (errorBody orig b type code).mem 34 = type ∧
    (errorBuf f g orig reply src type code).mem =
      (errorBody orig b type code).mem.store 36 (le16 (g (errorBody orig b type code))) :=
  ⟨_, by simp [errorBody, Mem.store], rfl⟩

theorem unsummed_errorHead (reply : Buf) : unsummed (errorHead orig reply src).mem = (errorHead orig reply src).mem :=
  Mem.store_store _ 24 _ _ rfl

end Errors

theorem t3_stamped (orig : Buf) (heap : Mem) (src : UInt32) (type code : UInt8) :
    Stamped (t3Buf orig heap src type code).bytes ∧
      (HeaderFree (memOf (t3Buf orig heap src type code).bytes) (t3Buf orig heap src type code).bytes.length ↔
        257 ∣ 0x4500 + 0x0038 + 0x4001 + addrSum src + addrSum (orig.mem.u32 26)) := by
  have hl := errorHead_hl orig (.zeroed (ethLen + ipLen + icmpT3Len) heap) src
  have hst : ∀ i, 14 ≤ i → i < 34 → (t3Buf orig heap src type code).mem i =
      stamp (errorHead orig (.zeroed (ethLen + ipLen + icmpT3Len) heap) src).mem i := by
    intro i h1 h2
    rw [t3Buf, errorBuf_head _ _ _ _ _ _ _ h1 h2, stamp, unsummed_errorHead, ipSumT3, Nat.mul_comm]
  have h14 : stamp (errorHead orig (.zeroed (ethLen + ipLen + icmpT3Len) heap) src).mem 14 =
      (errorHead orig (.zeroed (ethLen + ipLen + icmpT3Len) heap) src).mem 14 := by
    rw [stamp, unsummed_errorHead]
    exact Mem.store_of_lt _ _ _ _ (by decide)
  obtain ⟨hs, hf⟩ := stamped_bytes (b := t3Buf orig heap src type code) (by simp)
    ((hst 14 (by decide) (by decide)).trans h14) fun _ i h1 h2 => hst i h1 (by rw [hl] at h2; exact h2)
  refine ⟨hs, hf.trans ?_⟩
  unfold HeaderFree HeaderIn
  rw [hl, errorHead_sum]
  simp

/-- The ICMP checksum of `send_icmp_t3`. -/
theorem t3_icmp (orig : Buf) (heap : Mem) (src : UInt32) {type : UInt8} (hne : type ≠ 0) (code : UInt8) :
    Verifies (memOf (t3Buf orig heap src type code).bytes) 34 icmpT3Len ↔
      257 ∣ 256 * type.toNat + code.toNat + beSum orig.mem 14 28 := by
  have hm : Verifies (memOf (t3Buf orig heap src type code).bytes) 34 icmpT3Len ↔
      Verifies (t3Buf orig heap src type code).mem 34 icmpT3Len :=
    verifies_congr fun i _ h2 => memOf_bytes _ i (by simpa using h2)
  obtain ⟨b, h34, hb⟩ := errorBuf_body ipSumT3 (fun b => swap16 (ipChecksum b.mem 34 icmpT3Len)) orig src type code
    (.zeroed (ethLen + ipLen + icmpT3Len) heap)
  rw [hm, t3Buf, hb, ← errorBody_sum orig type code b]
  exact htons_ipChecksum_verifies (j := 1) (by decide) rfl rfl (by decide) (by rw [h34]; exact hne)

/-- `send_icmp_host_unreachable` stores its checksums the right way round. -/
theorem unreach_icmp (orig : Buf) (heap : Mem) (src : UInt32) :
    Verifies (memOf (unreachBuf orig heap src).bytes) 34 icmpT3Len := by
  refine (verifies_congr fun i _ h2 => memOf_bytes _ i (by simpa using h2)).2 ?_
  obtain ⟨b, h34, hb⟩ := errorBuf_body (fun b => cksum b.mem 14 ipLen) (fun b => cksum b.mem 34 icmpT3Len) orig src 3 1
    (.zeroed (ethLen + ipLen + icmpT3Len) heap)
  have hle := beSum_le (errorBody orig b 3 1).mem 34 icmpT3Len
  rw [unreachBuf, hb]
  exact cksum_verifies (j := 1) (by decide) rfl rfl (Nat.lt_of_le_of_lt hle (by decide)) (by rw [h34]; decide)

theorem unreach_header (orig : Buf) (heap : Mem) (src : UInt32) (dhost shost : Mac) :
    HeaderOk (setEth (some dhost) shost (unreachBuf orig heap src).bytes) := by
  have hl := errorHead_hl orig (.zeroed (ethLen + ipLen + icmpT3Len) heap) src
  have hle := beSum_le (errorHead orig (.zeroed (ethLen + ipLen + icmpT3Len) heap) src).mem 14 (4 * 5)
  have hm : ∀ i, 14 ≤ i → i < 34 → memOf (setEth (some dhost) shost (unreachBuf orig heap src).bytes) i =
      ((errorHead orig (.zeroed (ethLen + ipLen + icmpT3Len) heap) src).mem.store 24
        (le16 (cksum (errorHead orig (.zeroed (ethLen + ipLen + icmpT3Len) heap) src).mem 14 20))) i := by
    intro i h1 h2
    rw [memOf_setEth _ _ (by simp) h1, memOf_bytes _ i (by simp; omega), unreachBuf,
      errorBuf_head _ _ _ _ _ _ _ h1 h2]
  have h5 : ipHl (memOf (setEth (some dhost) shost (unreachBuf orig heap src).bytes)) = 5 := by
    rw [ipHl_congr ((hm 14 (by decide) (by decide)).trans (Mem.store_of_lt _ _ _ _ (by decide))), hl]
  intro _ _
  rw [h5]
  refine (verifies_congr hm).2 (cksum_verifies (j := 5) (by decide) rfl rfl (Nat.lt_of_le_of_lt hle (by decide))
    fun h0 => ?_)
  rw [ipHl, h0] at hl
  cases hl

/-! ## Echo replies -/

/-- A packet with the TTL of an echo reply. -/
def echoTtl (b : Buf) : Mem := b.mem.store 22 [64]

/-- The ICMP header of an echo reply is written at offset 34 whatever `ip_hl`
is. Where the IP header has options, this is what it changes in their sum. -/
def overlap (packet : Buf) : Nat :=
  if ipHl packet.mem = 5 then 0
  else beSum packet.mem 34 4 + leSum (packet.mem.store 34 [0, 0, 0, 0]) 34 (packet.size - 34) % 2 ^ 32

section Echo
variable {packet : Buf} (heap : Mem) (iface : SrIf)

/-- From the IP header on, an echo reply differs from the request in the
addresses, the TTL and the checksums. -/
theorem echoHead_mem {i : Nat} (h1 : 14 ≤ i) (h2 : i < packet.size) (h3 : i < 26 ∨ 34 ≤ i) :
    (echoHead packet heap iface).mem i = unsummed (echoTtl packet) i := by
  have h6 : ¬ i < 6 + 6 := by omega
  have h26 : ¬ (26 ≤ i ∧ i < 26 + 4) := by omega
  have h30 : ¬ (30 ≤ i ∧ i < 30 + 4) := by omega
  simp only [echoHead, Buf.mem_store, Mem.store, unsummed, echoTtl, length_le32, Mac.length_bytes, h6, h26, h30,
    Buf.copy, h2, and_false, if_false, if_true]
  have h0 : ¬ i < 0 + 6 := by omega
  simp only [h0, and_false, if_false]

/-- Exchanging the addresses does not change the sum. -/
theorem echoHead_sum (h34 : 34 ≤ packet.size) :
    beSum (echoHead packet heap iface).mem 26 8 = beSum (unsummed (echoTtl packet)) 26 8 := by
  have hb : ∀ i, i < 34 → (packet.copy heap).mem i = packet.mem i := by
    intro i hi
    have hi' : i < packet.size := by omega
    simp [Buf.copy, hi']
  simp [beSum, echoHead, Mem.le32_u32, Mem.store, unsummed, echoTtl, hb]
  omega

theorem echo_headerSum (hin : HeaderIn packet.mem packet.size) :
    beSum (echoHead packet heap iface).mem 14 (4 * ipHl packet.mem) = headerSum (echoTtl packet) := by
  obtain ⟨h5, hlen⟩ := hin
  have hl : ipHl (echoTtl packet) = ipHl packet.mem := ipHl_congr (Mem.store_of_lt _ _ _ _ (by decide))
  have hm : ∀ i, 14 ≤ i → i < 14 + 4 * ipHl packet.mem → (i < 26 ∨ 34 ≤ i) →
      (echoHead packet heap iface).mem i = unsummed (echoTtl packet) i :=
    fun i h1 h2 h3 => echoHead_mem heap iface h1 (by omega) h3
  have e : 4 * ipHl packet.mem = 2 * 6 + (2 * 4 + (4 * ipHl packet.mem - 20)) := by omega
  rw [headerSum, hl, e, beSum_split, beSum_split _ _ 4, beSum_split (unsummed _), beSum_split (unsummed _) _ 4]
  congr 1
  · exact beSum_congr fun i h1 h2 => hm i h1 (by omega) (.inl (by omega))
  · congr 1
    · exact echoHead_sum heap iface (by omega)
    · exact beSum_congr fun i h1 h2 => hm i (by omega) (by omega) (.inr (by omega))

/-- The header of an echo reply with its checksum. -/
theorem echo_stamp (hin : HeaderIn packet.mem packet.size) : ∃ n, n ≤ 65535 ∧
    n % 65535 = 256 * headerSum (echoTtl packet) % 65535 ∧
    beSum (((echoHead packet heap iface).store 24 (le16 (swap16 (ipChecksum (echoHead packet heap iface).mem 14
      (ipHl (echoHead packet heap iface).mem * 4))))).mem) 14 (4 * ipHl packet.mem) =
        headerSum (echoTtl packet) + (65535 - n) := by
  obtain ⟨h5, hlen⟩ := hin
  have h15 := ipHl_le packet.mem
  have hl : ipHl (echoHead packet heap iface).mem = ipHl packet.mem :=
    ipHl_congr ((echoHead_mem heap iface (by decide) (by omega) (.inl (by decide))).trans rfl)
  obtain ⟨n, hn, hn', hm, -⟩ := ipChecksum_spec (echoHead packet heap iface).mem 14 (4 * ipHl packet.mem)
  have hle := leSum_le (echoHead packet heap iface).mem 14 (4 * ipHl packet.mem)
  have hs := echo_headerSum heap iface ⟨h5, hlen⟩
  rw [Nat.mod_eq_of_lt (a := leSum _ 14 _) (by omega), leSum_modEq, hs] at hm
  refine ⟨n, hn', hm, ?_⟩
  rw [hl, Nat.mul_comm, Buf.mem_store, ← hn, ← hs]
  exact @beSum_store (echoHead packet heap iface).mem 14 5 _ (by omega) rfl rfl _

/-- From byte 34 on, an echo reply is the request with four bytes zeroed, up to its ICMP checksum. -/
theorem echoBody_mem {i : Nat} (h1 : 34 ≤ i) (h2 : i < packet.size) :
    (echoBody packet heap iface).mem i = packet.mem.store 34 [0, 0, 0, 0] i := by
  simp only [echoBody, Buf.mem_store]
  by_cases h : i < 38
  · have hi : i = 34 ∨ i = 35 ∨ i = 36 ∨ i = 37 := by omega
    rcases hi with rfl | rfl | rfl | rfl <;> rfl
  · iterate 4 rw [Mem.store_of_ge _ _ _ _ (by simp; omega)]
    rw [echoHead_mem heap iface (by omega) (by omega) (.inr (by omega)), Mem.store_of_ge _ _ _ _ (by simp; omega),
      unsummed, Mem.store_of_ge _ _ _ _ (by simp; omega), echoTtl, Mem.store_of_ge _ _ _ _ (by simp; omega)]

/-- The ICMP checksum of an echo reply. -/
theorem echo_icmp (h38 : 38 ≤ packet.size) : ∃ n, n ≤ 65535 ∧
    n % 65535 = leSum (packet.mem.store 34 [0, 0, 0, 0]) 34 (packet.size - 34) % 2 ^ 32 % 65535 ∧
    (n = 0 ↔ leSum (packet.mem.store 34 [0, 0, 0, 0]) 34 (packet.size - 34) % 2 ^ 32 = 0) ∧
    (ipChecksum (echoBody packet heap iface).mem 34 (packet.size - ethLen - ipLen)).toNat = 65535 - n := by
  have hlen : packet.size - ethLen - ipLen = packet.size - 34 := by simp only [ethLen, ipLen]; omega
  obtain ⟨n, hn, hn', hm, hz⟩ := ipChecksum_spec (echoBody packet heap iface).mem 34 (packet.size - 34)
  rw [leSum_congr fun i h1 h2 => echoBody_mem heap iface h1 (by omega)] at hm hz
  exact ⟨n, hn', hm, hz, by rw [hlen, hn]⟩

theorem echoBuf_hl (h : 34 ≤ packet.size) : ipHl (echoBuf packet heap iface).mem = ipHl packet.mem := by
  refine ipHl_congr ?_
  simp only [echoBuf, echoBody, Buf.mem_store]
  iterate 5 rw [Mem.store_of_lt _ _ _ _ (by omega)]
  exact echoHead_mem heap iface (by decide) (by omega) (.inl (by decide))

/-- The header of an echo reply verifies when 65535 divides 255 times its word
sum, together with what the ICMP header overwrites. -/
theorem echo_verifies (hin : HeaderIn packet.mem packet.size) :
    Verifies (echoBuf packet heap iface).mem 14 (4 * ipHl packet.mem) ↔
      65535 ∣ 255 * headerSum (echoTtl packet) + overlap packet := by
  obtain ⟨n, hn, hm, hs⟩ := echo_stamp heap iface hin
  obtain ⟨h5, hlen⟩ := hin
  generalize hb : (echoHead packet heap iface).store 24 (le16 (swap16 (ipChecksum (echoHead packet heap iface).mem 14
      (ipHl (echoHead packet heap iface).mem * 4)))) = b at hs
  have hpos : 0 < beSum (echoBuf packet heap iface).mem 14 (4 * ipHl packet.mem) :=
    beSum_pos (by omega) (ne_zero_of_hl (by rwa [echoBuf_hl heap iface (by omega)]))
  rw [verifies_iff, and_iff_left (by omega)]
  by_cases h : ipHl packet.mem = 5
  · have hc : beSum (echoBuf packet heap iface).mem 14 (4 * ipHl packet.mem) = beSum b.mem 14 (4 * ipHl packet.mem) := by
      refine beSum_congr fun i h1 h2 => ?_
      simp only [echoBuf, echoBody, hb, Buf.mem_store]
      iterate 4 rw [Mem.store_of_lt _ _ _ _ (by omega)]
    rw [hc, hs, overlap, if_pos h]
    omega
  · -- the type, the code and the checksum land on the first two words of options
    obtain ⟨k, hk, hkm, -, hks⟩ := @echo_icmp packet heap iface (by omega)
    have hp : ∀ i, 34 ≤ i → i < 38 → b.mem i = packet.mem i := by
      intro i h1 h2
      rw [← hb, Buf.mem_store, Mem.store_of_ge _ _ _ _ (by simp; omega),
        echoHead_mem heap iface (by omega) (by omega) (.inr h1), unsummed, Mem.store_of_ge _ _ _ _ (by simp; omega),
        echoTtl, Mem.store_of_ge _ _ _ _ (by simp; omega)]
    have hF : (echoBuf packet heap iface).mem = (b.mem.store 34 [0, 0]).store 36
        (le16 (swap16 (ipChecksum (echoBody packet heap iface).mem 34 (packet.size - ethLen - ipLen)))) := by
      simp only [echoBuf]
      rw [Buf.mem_store]
      simp only [echoBody, hb, Buf.mem_store, Mem.store_pair]
      exact Mem.store_store _ _ _ _ rfl
    have h34 := beSum_set b.mem 14 10 (show 2 * 10 + 2 ≤ 4 * ipHl packet.mem by omega) 0 0
    have h36 := beSum_set (b.mem.store 34 [0, 0]) 14 11 (show 2 * 11 + 2 ≤ 4 * ipHl packet.mem by omega)
      (.ofNat ((65535 - k) / 256)) (.ofNat (65535 - k))
    have hk36 : (b.mem.store 34 [0, 0]) 36 = packet.mem 36 := hp 36 (by decide) (by decide)
    have hk37 : (b.mem.store 34 [0, 0]) 37 = packet.mem 37 := hp 37 (by decide) (by decide)
    have hw := swap16_word (ipChecksum (echoBody packet heap iface).mem 34 (packet.size - ethLen - ipLen))
    rw [swap16_bytes, hks] at hF
    rw [hks] at hw
    have hW : beSum packet.mem 34 4 = 256 * (packet.mem 34).toNat + (packet.mem 35).toNat +
        (256 * (packet.mem 36).toNat + (packet.mem 37).toNat) := rfl
    simp only [Nat.reduceMul, Nat.reduceAdd, UInt8.toNat_zero, hp 34 (by decide) (by decide),
      hp 35 (by decide) (by decide), hk36, hk37, hw, ← hF] at h34 h36
    rw [overlap, if_neg h, hW]
    omega

theorem echo_headerOk (h34 : 34 ≤ packet.size) (ht : etherType packet.mem = ethertypeIp) :
    HeaderOk (echoBuf packet heap iface).bytes ↔
      (HeaderIn packet.mem packet.size → 65535 ∣ 255 * headerSum (echoTtl packet) + overlap packet) := by
  have hb : ∀ i, i < packet.size → memOf (echoBuf packet heap iface).bytes i = (echoBuf packet heap iface).mem i :=
    fun i hi => memOf_bytes _ i (by simpa using hi)
  have hl : ipHl (memOf (echoBuf packet heap iface).bytes) = ipHl packet.mem :=
    (ipHl_congr (hb 14 (by omega))).trans (echoBuf_hl heap iface h34)
  have ht' := @echoBuf_type packet heap iface (by omega)
  unfold HeaderOk HeaderIn
  rw [forall_prop_of_true (ht'.trans ht), hl, Buf.length_bytes, size_echoBuf]
  refine forall_congr' fun hin => ?_
  rw [← echo_verifies heap iface hin]
  exact verifies_congr fun i _ h2 => hb i (by have := hin.2; omega)

end Echo

/-! ## What a step needs -/

section Conditions
variable (sr : SrInstance)

/-- For an ICMP error to `src` about 28 bytes of word sum `quoted`: 257 divides
the sum of the message and, if it is sent at once, that of its header. -/
def ErrorChecks (src : UInt32) (type code : UInt8) (quoted : Nat) : Prop :=
  match lpmLookup sr.routingTable src with
  | none => True
  | some rt =>
    match srGetInterface sr.ifList rt.interface with
    | none => True
    | some i => 257 ∣ 256 * type.toNat + code.toNat + quoted ∧
        ((srArpcacheLookup sr.cache (nextHop rt src)).isSome = true →
          257 ∣ 0x4500 + 0x0038 + 0x4001 + addrSum i.ip + addrSum src)

/-- For a packet to be forwarded. Where no route matches, the packet that is
quoted has been rewritten, checksum included. -/
def ForwardChecks (packet : Buf) : Prop :=
  if packet.mem 22 ≤ 1 then ErrorChecks sr (packet.mem.u32 26) 11 0 (beSum packet.mem 14 28)
  else match lpmLookup sr.routingTable (packet.mem.u32 30) with
    | none => ErrorChecks sr (packet.mem.u32 26) 3 0
        (beSum (unsummed (oneHopLess packet)) 14 28 + headerSum (oneHopLess packet))
    | some rt =>
      match srGetInterface sr.ifList rt.interface with
      | none => True
      | some _ => (srArpcacheLookup sr.cache (nextHop rt (packet.mem.u32 30))).isSome = true →
          HeaderFree (oneHopLess packet) packet.size

def EchoChecks (packet : Buf) (interface : IfName) : Prop :=
  (srGetInterface sr.ifList interface).isSome = true → HeaderIn packet.mem packet.size →
    65535 ∣ 255 * headerSum (echoTtl packet) + overlap packet

def IpChecks (packet : Buf) (interface : IfName) : Prop :=
  34 ≤ packet.size →
    if (srGetInterfaceByIp sr.ifList (packet.mem.u32 30)).isSome then
      if packet.mem 23 = ipProtocolIcmp then packet.mem 34 = 8 → EchoChecks sr packet interface
      else ErrorChecks sr (packet.mem.u32 26) 3 3 (beSum packet.mem 14 28)
    else ForwardChecks sr packet

/-- For the packets that an ARP reply flushes. -/
def ArpChecks (packet : Buf) : Prop :=
  42 ≤ packet.size → arOp packet.mem = arpOpReply →
    match findReq (arSip packet.mem) sr.cache.requests with
    | none => True
    | some r => ∀ pkt ∈ r.packets, HeaderFree (memOf pkt.buf) pkt.buf.length

def FrameChecks (packet : Buf) (interface : IfName) : Prop :=
  14 ≤ packet.size → (etherType packet.mem = ethertypeArp → ArpChecks sr packet) ∧
    (etherType packet.mem = ethertypeIp → IpChecks sr packet interface)

/-- A sweep needs nothing: its errors get their checksums from `cksum`. -/
def Checks : Event → Prop
  | .frame bytes past _ iface _ => FrameChecks sr (.ofBytes bytes past) iface
  | .sweep _ => True

end Conditions

/-! ## Frames -/

section Frame
variable {sr : SrInstance}

theorem planError_ok (env : Env) {packet : Buf} {type : UInt8} (hne : type ≠ 0) (code : UInt8) :
    (∀ a ∈ (planError sr.ifList sr.routingTable env packet type code).acts sr, a.Ok) ↔
      ErrorChecks sr (packet.mem.u32 26) type code (beSum packet.mem 14 28) := by
  unfold planError ErrorChecks
  cases lpmLookup sr.routingTable (packet.mem.u32 26) with
  | none => simp [Plan.acts]
  | some rt =>
    cases hi : srGetInterface sr.ifList rt.interface with
    | none => simp [hi, Plan.acts]
    | some i =>
      obtain ⟨hs, hf⟩ := t3_stamped packet env.heap i.ip type code
      have h14 : 14 ≤ (t3Buf packet env.heap i.ip type code).bytes.length := by simp
      cases he : srArpcacheLookup sr.cache (nextHop rt (packet.mem.u32 26)) with
      | none => simp [hi, he, Plan.acts, Act.Ok, t3_icmp packet env.heap i.ip hne code]
      | some e =>
        simp only [hi, Plan.acts, he, Option.isSome_some, true_imp_iff, ← hf]
        simp [Act.Ok, ← t3_icmp packet env.heap i.ip hne code, Delivery.sent,
          headerOk_setEth (some e.mac) i.addr h14 hs]

theorem errorChecks_mod {src : UInt32} {type code : UInt8} {a b : Nat} (h : a % 257 = b % 257) :
    ErrorChecks sr src type code a ↔ ErrorChecks sr src type code b := by
  have hd : 257 ∣ 256 * type.toNat + code.toNat + a ↔ 257 ∣ 256 * type.toNat + code.toNat + b := by omega
  unfold ErrorChecks
  rw [hd]

theorem planForward_ok (env : Env) {packet : Buf} (h34 : 34 ≤ packet.size) :
    (∀ a ∈ (planForward sr.ifList sr.routingTable env packet).acts sr, a.Ok) ↔ ForwardChecks sr packet := by
  unfold planForward ForwardChecks
  by_cases httl : packet.mem 22 ≤ 1
  · simp only [httl, if_true]
    exact planError_ok env (by decide) 0
  · simp only [httl, if_false]
    cases lpmLookup sr.routingTable (packet.mem.u32 30) with
    | none =>
      refine (planError_ok env (by decide) 0).trans ?_
      rw [forwardBuf_u32 packet (by omega)]
      exact errorChecks_mod (forward_quoted packet)
    | some rt =>
      cases hi : srGetInterface sr.ifList rt.interface with
      | none => simp [hi, Plan.acts]
      | some i =>
        obtain ⟨hs, hf⟩ := forward_stamped h34
        have h14 : 14 ≤ (forwardBuf packet).bytes.length := by simp; omega
        cases he : srArpcacheLookup sr.cache (nextHop rt (packet.mem.u32 30)) with
        | none => simp [hi, he, Plan.acts]
        | some e =>
          simp only [hi, Plan.acts, he, Option.isSome_some, true_imp_iff, ← hf]
          simp [Act.Ok, Delivery.sent, headerOk_setEth (some e.mac) i.addr h14 hs]

theorem planEcho_ok (env : Env) {packet : Buf} (h34 : 34 ≤ packet.size) (ht : etherType packet.mem = ethertypeIp)
    (interface : IfName) :
    (∀ a ∈ (planEcho sr.ifList env packet interface).acts sr, a.Ok) ↔ EchoChecks sr packet interface := by
  unfold planEcho EchoChecks
  cases hi : srGetInterface sr.ifList interface with
  | none => simp [Plan.acts, Act.Ok]
  | some i =>
    have hsent := sendActs_echo hi (.echoReply env.seq) env.heap (show 14 ≤ packet.size by omega)
    simp only [Plan.acts, hsent, Option.isSome_some, true_imp_iff, ← echo_headerOk env.heap i h34 ht]
    simp [Act.Ok]

theorem planIp_ok (env : Env) (packet : Buf) (ht : etherType packet.mem = ethertypeIp) (interface : IfName) :
    (∀ a ∈ (planIp sr.ifList sr.routingTable env packet interface).acts sr, a.Ok) ↔ IpChecks sr packet interface := by
  unfold planIp IpChecks
  by_cases h34 : packet.size < 34
  · have hn : ¬ 34 ≤ packet.size := by omega
    simp [h34, hn, Plan.acts]
  · have h34' : 34 ≤ packet.size := by omega
    simp only [h34, if_false, h34', true_imp_iff]
    by_cases hus : (srGetInterfaceByIp sr.ifList (packet.mem.u32 30)).isSome
    · simp only [hus, if_true]
      by_cases hp : packet.mem 23 = ipProtocolIcmp
      · by_cases h8 : packet.mem 34 = 8
        · simp only [hp, h8, if_true, true_imp_iff]
          exact planEcho_ok env h34' ht interface
        · simp [hp, h8, Plan.acts]
      · simp only [hp, if_false]
        exact planError_ok env (by decide) 3
    · simp only [hus]
      exact planForward_ok env h34'

/-- The queue holds packets whose headers have been stamped. -/
def StampedQueue (sr : SrInstance) : Prop := ∀ r ∈ sr.cache.requests, ∀ pkt ∈ r.packets, Stamped pkt.buf

theorem flushActs_ok {mac : Mac} {pkts : List SrPacket} (hs : ∀ pkt ∈ pkts, Stamped pkt.buf)
    (hp : ∀ pkt ∈ pkts, (∃ i, srGetInterface sr.ifList pkt.iface = some i) ∧ 14 ≤ pkt.buf.length) :
    (∀ a ∈ flushActs sr.ifList mac pkts, a.Ok) ↔ ∀ pkt ∈ pkts, HeaderFree (memOf pkt.buf) pkt.buf.length := by
  unfold flushActs
  rw [List.forall_mem_flatMap]
  refine forall₂_congr fun pkt hpkt => ?_
  obtain ⟨⟨i, hi⟩, h14⟩ := hp pkt hpkt
  simp [hi, Act.Ok, headerOk_setEth (some mac) i.addr h14 (hs pkt hpkt)]

/-- There is nothing to verify in an ARP frame. -/
theorem arp_ok {site : Site} {iface : IfName} {frame : List UInt8} (h : etherType (memOf frame) = ethertypeArp) :
    (Act.send site iface frame).Ok := by
  intro ht
  rw [h] at ht
  exact absurd ht (by decide)

theorem sendActs_ok {ifs : List SrIf} {site : Site} {iface : IfName} {frame : List UInt8}
    (h : etherType (memOf frame) = ethertypeArp) : ∀ a ∈ sendActs ifs site iface frame, a.Ok := by
  intro a ha
  rcases sendActs_cases ifs site iface frame with hs | hs
  · rw [hs] at ha
    cases List.mem_singleton.1 ha
    exact trivial
  · rw [hs] at ha
    cases List.mem_singleton.1 ha
    exact arp_ok h

theorem planArp_ok (hq : QueueOk sr) (hs : StampedQueue sr) (env : Env) (packet : Buf) (interface : IfName) :
    (∀ a ∈ (planArp sr.ifList env packet interface).acts sr, a.Ok) ↔ ArpChecks sr packet := by
  unfold planArp ArpChecks
  by_cases h42 : packet.size < 42
  · have hn : ¬ 42 ≤ packet.size := by omega
    simp [h42, hn, Plan.acts]
  · have h42' : 42 ≤ packet.size := by omega
    simp only [h42, if_false, h42', true_imp_iff]
    by_cases hreq : arOp packet.mem = arpOpRequest
    · have hne : ¬ arpOpRequest = arpOpReply := by decide
      simp only [hreq, hne, if_true, false_imp_iff, iff_true]
      cases hi : srGetInterfaceByIp sr.ifList (packet.mem.u32 38) with
      | none => simp [Plan.acts]
      | some i => exact sendActs_ok (arpBuf_fields env.heap i _ arpOpReply _ _).1
    · by_cases hrep : arOp packet.mem = arpOpReply
      · have hne : ¬ arpOpReply = arpOpRequest := by decide
        simp only [hrep, hne, if_false, if_true, true_imp_iff, Plan.acts]
        cases hr : findReq (arSip packet.mem) sr.cache.requests with
        | none => simp
        | some r => exact flushActs_ok (hs r (findReq_some hr).1) (hq.packet r (findReq_some hr).1)
      · simp [hreq, hrep, Plan.acts]

theorem plan_ok (hq : QueueOk sr) (hs : StampedQueue sr) (env : Env) (packet : Buf) (interface : IfName) :
    (∀ a ∈ (plan sr.ifList sr.routingTable env packet interface).acts sr, a.Ok) ↔ FrameChecks sr packet interface := by
  unfold plan FrameChecks
  by_cases h14 : packet.size < 14
  · have hn : ¬ 14 ≤ packet.size := by omega
    simp [h14, hn, Plan.acts]
  · have h14' : 14 ≤ packet.size := by omega
    simp only [h14, if_false, h14', true_imp_iff]
    by_cases harp : etherType packet.mem = ethertypeArp
    · have hne : ¬ ethertypeArp = ethertypeIp := by decide
      simp only [harp, hne, if_true, true_imp_iff, false_imp_iff, and_true]
      exact planArp_ok hq hs env packet interface
    · by_cases hip : etherType packet.mem = ethertypeIp
      · have hne : ¬ ethertypeIp = ethertypeArp := by decide
        simp only [hip, hne, if_false, if_true, true_imp_iff, false_imp_iff, true_and]
        exact planIp_ok env packet hip interface
      · simp [harp, hip, Plan.acts]

/-- The first ARP request of a miss adds nothing to verify. -/
theorem Miss.finish_ok (m : Miss) (env : Env) (s : SrInstance) : ∀ a ∈ (m.finish env s).acts, a.Ok := by
  have htest : ∀ a ∈ (m.test s).acts, a.Ok := by
    unfold Miss.test
    cases hd : derefReq m.req s.cache.requests <;> simp [hd, Act.Ok]
  have hmark : ∀ s, ∀ a ∈ (m.mark env.now s).acts, a.Ok := by
    intro s
    unfold Miss.mark
    cases hd : derefReq m.req s.cache.requests <;> simp [hd, Act.Ok]
  have hsend : ∀ s, ∀ a ∈ (m.transmit env.now env.heap s).acts, a.Ok := by
    intro s
    unfold Miss.transmit sendArpRequest
    cases hi : srGetInterface s.ifList m.iface with
    | none => simp [hi]
    | some i =>
      simp only [bind_acts, get_apply, hi, fillArp_acts, srSendPacket_acts, List.nil_append]
      exact sendActs_ok (arpRequestFrame_fields env.heap i m.nextHop).1
  unfold Miss.finish
  simp only [bind_acts, ite_run]
  rw [List.forall_mem_append]
  refine ⟨htest, ?_⟩
  split
  · rw [bind_acts, List.forall_mem_append]
    exact ⟨hsend _, hmark _⟩
  · simp

theorem srHandlepacket_ok (hq : QueueOk sr) (hs : StampedQueue sr) (env : Env) (packet : Buf) (interface : IfName) :
    (∀ a ∈ (srHandlepacket env packet interface sr).acts, a.Ok) ↔ FrameChecks sr packet interface := by
  have hf := handleUntilMiss_follows env packet interface sr hq
  rw [← plan_ok hq hs env packet interface]
  cases hm : (plan sr.ifList sr.routingTable env packet interface).miss env.seq sr with
  | none => rw [(srHandlepacket_none hf hm).2]
  | some m =>
    rw [(srHandlepacket_some hf hm).2, List.forall_mem_append]
    exact and_iff_left (m.finish_ok env _)

end Frame

/-! ## Sweeps -/

theorem sweepActs_ok (ifs : List SrIf) (rts : List SrRt) (entries : ArpTable) (env : SweepEnv) (k : Nat)
    (reqs : List SrArpreq) : ∀ a ∈ sweepActs ifs rts entries env k reqs, a.Ok := by
  intro a ha
  obtain ⟨r, -, now, hone, -⟩ := mem_sweepActs ha
  rcases mem_sweepOneActs hone with ⟨-, ⟨-, rfl | ⟨pkt, -, hu⟩⟩ | ⟨-, pkt, -, i, -, rfl⟩⟩
  · trivial
  · obtain ⟨i, -, rfl | hsend⟩ := mem_unreachActs hu
    · exact unreach_icmp _ env.heap i.ip
    · obtain ⟨best, j, e, -, -, -, rfl⟩ := mem_unreachSend hsend
      exact unreach_header _ env.heap i.ip e.mac j.addr
  · exact arp_ok (arpRequestFrame_fields env.heap i r.ip).1

/-! ## Runs -/

section Run
variable {ifs : List SrIf} {rts : List SrRt} {n : Nat} {sr : SrInstance}

/-- The header of a packet that is put out has been stamped. -/
theorem delivery_stamped {env : Env} {packet : Buf} {interface : IfName} {built : List Act} {d : Delivery}
    (hp : plan ifs rts env packet interface = .output built d) : Stamped d.packet.buf := by
  have h34 := (plan_routed hp).1
  have hs : Stamped d.frame := by
    obtain ⟨h, -, hf | ⟨orig, type, code, he⟩⟩ := plan_output hp
    · rw [hf.frame]
      exact (forward_stamped h).1
    · rw [he.frame]
      exact (t3_stamped orig env.heap d.iface.ip type code).1
  exact hs.setEth none d.iface.addr (by omega)

theorem StepsTo.stamped {e : Event} {sr' : SrInstance} {acts : List Act} (hw : Wf ifs rts n sr) (hq : StampedQueue sr)
    (h : StepsTo ifs rts n sr e sr' acts) : StampedQueue sr' := by
  intro q hmem pkt hpkt
  rcases h.waiting_packet hw hmem hpkt with ⟨r, hr, -, hp⟩ | ⟨d, hd, rfl, -⟩
  · exact hq r hr pkt hp
  · obtain ⟨_, _, _, _, _, _, -, hplan⟩ := delivers_plan hd
    exact delivery_stamped hplan

theorem reachable_stamped (ifs : List SrIf) (rts : List SrRt) (es : List Event) :
    StampedQueue ((router ifs rts).state es) := by
  refine (router ifs rts).induct (I := fun _ sr _ => StampedQueue sr) ?_ ?_ es
  · intro r hr
    cases hr
  · intro es e hq
    have hs := run_step ifs rts es e
    rw [System.state_snoc] at hs
    exact hs.stamped (reachable ifs rts es).1 hq

/-- Everything a step does verifies exactly when it meets the condition. -/
theorem step_ok (ifs : List SrIf) (rts : List SrRt) (es : List Event) (e : Event) :
    (∀ a ∈ (router ifs rts).actsAt es e, a.Ok) ↔ Checks ((router ifs rts).state es) e := by
  have hw := (reachable ifs rts es).1
  cases e with
  | frame bytes past heap iface now =>
    exact srHandlepacket_ok hw.queueOk (reachable_stamped ifs rts es) ⟨es.length, now, heap⟩ (.ofBytes bytes past) iface
  | sweep env =>
    refine iff_of_true ?_ trivial
    intro a ha
    have ha' : a ∈ (srArpcacheTimeout env ((router ifs rts).state es)).acts := ha
    rw [(srArpcacheTimeout_spec env ((router ifs rts).state es) hw.ptr).2] at ha'
    exact sweepActs_ok _ _ _ env 0 _ a ha'

/-- All checksums of a run verify if and only if every step of it meets the condition. -/
theorem checksums_verify_iff (ifs : List SrIf) (rts : List SrRt) (es : List Event) :
    (∀ a ∈ (router ifs rts).trace es, a.Ok) ↔ (router ifs rts).Along Checks es := by
  induction es using List.reverseRecOn with
  | nil => simp [System.Along, System.AlongFrom]
  | append_singleton es e ih =>
    rw [System.trace_snoc, System.along_snoc, List.forall_mem_append, ih, step_ok]

/-- The reply to an ordinary ping has a header checksum that does not verify. -/
theorem echo_unverified : ¬ ∀ a ∈ (router Sample.ifs Sample.rts).trace
    [Sample.received Sample.e1 (Sample.ping [10, 0, 0, 1]) 100], a.Ok := by
  decide +kernel

end Run

end SimpleRouter
