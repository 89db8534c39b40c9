import SimpleRouter.Checksum
/-!
# The two routines agree

`ip_checksum` sums words as the host reads them and `cksum` big-endian words,
whose result it swaps. Stored natively, both put the same two bytes in memory,
except that `cksum` has only one representation of zero. For buffers of up to
65535 bytes neither sum wraps around (`IpSumFits`, `CksumFits`), and the fold
loop always ends.
-/
open Memory OnesComplement

namespace SimpleRouter

/-! ## The accumulator -/

/-- No addition in the loop of `ip_checksum` wraps around. -/
def IpSumFits (m : Mem) : Nat → Nat → UInt32 → Prop
  | _, 0, _ => True
  | off, 1, sum => sum.toNat + (m off).toUInt32.toNat < 2 ^ 32
  | off, len + 2, sum => sum.toNat + (m.u16 off).toUInt32.toNat < 2 ^ 32 ∧
      IpSumFits m (off + 2) len (sum + (m.u16 off).toUInt32)

/-- No addition in the loop of `cksum` wraps around. -/
def CksumFits (m : Mem) : Nat → Nat → UInt32 → Prop
  | _, 0, _ => True
  | off, 1, sum => sum.toNat + ((m off).toUInt32 <<< 8).toNat < 2 ^ 32
  | off, len + 2, sum => sum.toNat + ((m off).toUInt32 <<< 8 ||| (m (off + 1)).toUInt32).toNat < 2 ^ 32 ∧
      CksumFits m (off + 2) len (sum + ((m off).toUInt32 <<< 8 ||| (m (off + 1)).toUInt32))

theorem ipSumFits {m : Mem} {off len : Nat} {sum : UInt32} (h : sum.toNat + leSum m off len < 2 ^ 32) :
    IpSumFits m off len sum := by
  fun_induction IpSumFits m off len sum with
  | case1 => trivial
  | case2 off sum =>
    rw [UInt8.toNat_toUInt32]
    exact h
  | case3 off len sum ih =>
    simp only [leSum] at h
    have hword : (m.u16 off).toUInt32.toNat = (m off).toNat + 256 * (m (off + 1)).toNat := by
      rw [UInt16.toNat_toUInt32, toNat_u16]
    refine ⟨by omega, ih ?_⟩
    rw [UInt32.toNat_add, hword]
    omega

theorem cksumFits {m : Mem} {off len : Nat} {sum : UInt32} (h : sum.toNat + beSum m off len < 2 ^ 32) :
    CksumFits m off len sum := by
  fun_induction CksumFits m off len sum with
  | case1 => trivial
  | case2 off sum =>
    rw [shl8_toNat]
    exact h
  | case3 off len sum ih =>
    simp only [beSum] at h
    refine ⟨?_, ih ?_⟩
    · rw [beWord_toNat]
      omega
    · rw [UInt32.toNat_add, beWord_toNat]
      omega

/-! ## The result -/

section Result
variable {m : Mem} {off len : Nat}

theorem cksum_ne_zero (m : Mem) (off len : Nat) : cksum m off len ≠ 0 := by
  unfold cksum
  by_cases h : swap16 (~~~ foldLoop 2 (cksumLoop m off len 0)).toUInt16 ≠ 0
  · rwa [if_pos h]
  · rw [if_neg h]
    decide

/-- The end-around carry keeps a sum that fits modulo 65535, so swapping the
bytes of the result undoes the other byte order of the words. -/
theorem cksum_eq (hlen : len ≤ 65535) :
    cksum m off len = if ipChecksum m off len = 0 then 0xFFFF else ipChecksum m off len := by
  obtain ⟨k, hk, hk', hkm, -⟩ := ipChecksum_spec m off len
  obtain ⟨n, c, hn, hnm, hc, hcn⟩ := cksum_spec m off len
  have hle := leSum_le m off len
  have hbe := beSum_le m off len
  rw [Nat.mod_eq_of_lt (a := leSum m off len) (by omega), leSum_modEq m off len] at hkm
  rw [Nat.mod_eq_of_lt (a := beSum m off len) (by omega)] at hnm
  have hne : (cksum m off len).toNat ≠ 0 := fun h0 => cksum_ne_zero m off len (UInt16.toNat_inj.1 h0)
  have hswap : (cksum m off len).toNat = c.toNat / 256 + 256 * (c.toNat % 256) := by rw [hc, toNat_swap16]
  apply UInt16.toNat_inj.1
  by_cases h0 : ipChecksum m off len = 0
  · rw [if_pos h0]
    rw [h0, UInt16.toNat_zero] at hk
    have hffff : (0xFFFF : UInt16).toNat = 65535 := rfl
    rw [hffff]
    omega
  · rw [if_neg h0]
    have h0' : (ipChecksum m off len).toNat ≠ 0 := fun h => h0 (UInt16.toNat_inj.1 h)
    omega

/-- With the checksum word zeroed, storing `cksum` there makes the region verify. -/
theorem cksum_stored_verifies {j : Nat} (hlen : len ≤ 65535) (hj : 2 * j + 2 ≤ len) (h0 : m (off + 2 * j) = 0)
    (h1 : m (off + 2 * j + 1) = 0) : Verifies (m.store (off + 2 * j) (le16 (cksum m off len))) off len := by
  obtain ⟨n, c, hn, hm, hc, hcn⟩ := cksum_spec m off len
  have hbe := beSum_le m off len
  have hne : c.toNat ≠ 0 := by
    intro hz
    refine cksum_ne_zero m off len ?_
    rw [hc, UInt16.toNat_inj.1 (show c.toNat = (0 : UInt16).toNat from hz)]
    rfl
  rw [Nat.mod_eq_of_lt (a := beSum m off len) (by omega)] at hm
  rw [verifies_iff, hc, beSum_store hj h0 h1]
  omega

theorem foldLoop_ends (s : UInt32) : foldLoop 2 s >>> 16 = 0 := by
  by_contra h
  have hle := (foldLoop_spec s).1
  rw [← Ne, shiftRight16_ne] at h
  omega

end Result

/-- Both routines compute the RFC 1071 checksum of every buffer of up to 65535
bytes: they store the same bytes, a zero apart; what `cksum` stores verifies; no
sum wraps around; and two rounds of folding leave nothing to fold. -/
theorem checksums_agree (m : Mem) (off len : Nat) (hlen : len ≤ 65535) :
    le16 (cksum m off len) = le16 (if ipChecksum m off len = 0 then 0xFFFF else ipChecksum m off len) ∧
    (∀ j, 2 * j + 2 ≤ len → m (off + 2 * j) = 0 → m (off + 2 * j + 1) = 0 →
      Verifies (m.store (off + 2 * j) (le16 (cksum m off len))) off len) ∧
    IpSumFits m off len 0 ∧ CksumFits m off len 0 ∧
    ∀ s, foldLoop 2 s >>> 16 = 0 ∧ ∀ k, foldLoop (k + 2) s = foldLoop 2 s := by
  have hle := leSum_le m off len
  have hbe := beSum_le m off len
  refine ⟨by rw [cksum_eq hlen], fun j hj h0 h1 => cksum_stored_verifies hlen hj h0 h1, ?_, ?_,
    fun s => ⟨foldLoop_ends s, foldLoop_stop s⟩⟩
  · apply ipSumFits
    rw [UInt32.toNat_zero]
    omega
  · apply cksumFits
    rw [UInt32.toNat_zero]
    omega

/-- An odd buffer with a zeroed word behind the first. -/
theorem checksums_agree_odd :
    le16 (cksum (memOf [1, 2, 0, 0, 5]) 0 5) = le16 (ipChecksum (memOf [1, 2, 0, 0, 5]) 0 5) ∧
    Verifies ((memOf [1, 2, 0, 0, 5]).store 2 (le16 (cksum (memOf [1, 2, 0, 0, 5]) 0 5))) 0 5 := by
  obtain ⟨heq, hver, -⟩ := checksums_agree (memOf [1, 2, 0, 0, 5]) 0 5 (by decide)
  have hne : ipChecksum (memOf [1, 2, 0, 0, 5]) 0 5 ≠ 0 := by decide
  rw [if_neg hne] at heq
  exact ⟨heq, hver 1 (by decide) rfl rfl⟩

end SimpleRouter
