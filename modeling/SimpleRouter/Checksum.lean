import SimpleRouter.Types
import SimpleRouter.Lib.OnesComplement
/-!
# The two checksum routines

`ip_checksum` of `sr_router.c` sums native 16-bit words; `cksum` of
`sr_utils.c` sums big-endian words and returns the result swapped. Both are
RFC 1071 sums. What differs is how callers store the result: storing the
result of `cksum` natively makes a zeroed region verify (`cksum_verifies`),
while storing `htons(ip_checksum(..))`, as `sr_router.c` does, verifies exactly
when the region's word sum is a multiple of 257 (`htons_ipChecksum_verifies`).
-/
open Memory OnesComplement

namespace SimpleRouter

/-! ## The routines -/

/-- The summing loop of `ip_checksum`, with the leftover byte. -/
def ipSumLoop (m : Mem) : Nat → Nat → UInt32 → UInt32
  | _, 0, sum => sum
  | off, 1, sum => sum + (m off).toUInt32
  | off, len + 2, sum => ipSumLoop m (off + 2) len (sum + (m.u16 off).toUInt32)

/-- The fold loop of both routines, run for at most `fuel` rounds. Two rounds
are always enough (`foldLoop_stop`). -/
def foldLoop : Nat → UInt32 → UInt32
  | 0, sum => sum
  | fuel + 1, sum => if sum >>> 16 ≠ 0 then foldLoop fuel ((sum &&& (0xFFFF : UInt32)) + (sum >>> 16)) else sum

/-- `ip_checksum(buf + off, len)`. -/
def ipChecksum (m : Mem) (off len : Nat) : UInt16 := (~~~ foldLoop 2 (ipSumLoop m off len 0)).toUInt16

/-- The summing loop of `cksum`. -/
def cksumLoop (m : Mem) : Nat → Nat → UInt32 → UInt32
  | _, 0, sum => sum
  | off, 1, sum => sum + ((m off).toUInt32 <<< 8)
  | off, len + 2, sum =>
    cksumLoop m (off + 2) len (sum + ((m off).toUInt32 <<< 8 ||| (m (off + 1)).toUInt32))

/-- `cksum(buf + off, len)`. -/
def cksum (m : Mem) (off len : Nat) : UInt16 :=
  let sum := swap16 (~~~ foldLoop 2 (cksumLoop m off len 0)).toUInt16
  if sum ≠ 0 then sum else 0xFFFF

/-! ## The fold loop -/

theorem shiftRight16 (s : UInt32) : (s >>> 16).toNat = s.toNat / 65536 := by
  simp [UInt32.toNat_shiftRight, Nat.shiftRight_eq_div_pow]

theorem and_ffff (s : UInt32) : (s &&& (0xFFFF : UInt32)).toNat = s.toNat % 65536 := by
  rw [UInt32.toNat_and, show (0xFFFF : UInt32).toNat = 2 ^ 16 - 1 by rfl, Nat.and_two_pow_sub_one_eq_mod]

theorem shiftRight16_ne (s : UInt32) : s >>> 16 ≠ 0 ↔ 65536 ≤ s.toNat := by
  rw [Ne, ← UInt32.toNat_inj, shiftRight16]
  simp only [UInt32.toNat_zero]
  omega

/-- One round: the two halves added. -/
theorem foldRound (s : UInt32) :
    ((s &&& (0xFFFF : UInt32)) + (s >>> 16)).toNat = s.toNat % 65536 + s.toNat / 65536 := by
  have h := s.toNat_lt
  rw [UInt32.toNat_add, and_ffff, shiftRight16]
  omega

/-- After two rounds the loop has stopped, whatever the sum. -/
theorem foldLoop_stop (s : UInt32) (k : Nat) : foldLoop (k + 2) s = foldLoop 2 s := by
  have h := s.toNat_lt
  have stop : ∀ (fuel : Nat) (t : UInt32), t.toNat < 65536 → foldLoop fuel t = t := by
    intro fuel t ht
    cases fuel with
    | zero => rfl
    | succ fuel => rw [foldLoop, if_neg (by rw [shiftRight16_ne]; omega)]
  by_cases h1 : 65536 ≤ s.toNat
  · simp only [foldLoop, if_pos ((shiftRight16_ne s).2 h1)]
    by_cases h2 : 65536 ≤ ((s &&& (0xFFFF : UInt32)) + (s >>> 16)).toNat
    · -- the first round leaves at most 131070, so the second leaves at most 65535
      rw [if_pos ((shiftRight16_ne _).2 h2), if_pos ((shiftRight16_ne _).2 h2)]
      refine stop k _ ?_
      rw [foldRound] at h2
      rw [foldRound, foldRound]
      omega
    · rw [if_neg (by rwa [shiftRight16_ne]), if_neg (by rwa [shiftRight16_ne])]
  · rw [stop _ _ (by omega), stop _ _ (by omega)]

theorem foldLoop_spec (s : UInt32) :
    (foldLoop 2 s).toNat ≤ 65535 ∧ (foldLoop 2 s).toNat % 65535 = s.toNat % 65535 ∧
      ((foldLoop 2 s).toNat = 0 ↔ s.toNat = 0) := by
  have h := s.toNat_lt
  simp only [foldLoop]
  split
  · rename_i h1
    rw [shiftRight16_ne] at h1
    split
    · rename_i h2
      rw [shiftRight16_ne, foldRound] at h2
      simp only [foldRound]
      omega
    · rename_i h2
      rw [shiftRight16_ne, foldRound] at h2
      simp only [foldRound]
      omega
  · rename_i h1
    rw [shiftRight16_ne] at h1
    omega

/-! ## The sums -/

theorem toNat_u16 (m : Mem) (i : Nat) : (m.u16 i).toNat = (m i).toNat + 256 * (m (i + 1)).toNat := by
  have h0 := (m i).toNat_lt
  have h1 := (m (i + 1)).toNat_lt
  simp only [Mem.u16, UInt16.toNat_ofNat']; omega

theorem ipSumLoop_toNat (m : Mem) (off len : Nat) (s : UInt32) :
    (ipSumLoop m off len s).toNat = (s.toNat + leSum m off len) % 2 ^ 32 := by
  fun_induction ipSumLoop m off len s with
  | case1 _ s => have := s.toNat_lt; simp only [leSum]; omega
  | case2 off s => simp [leSum]
  | case3 off len s ih =>
    rw [ih, UInt32.toNat_add, UInt16.toNat_toUInt32, toNat_u16]
    simp only [leSum]; omega

theorem shl8_toNat (a : UInt8) : (a.toUInt32 <<< 8).toNat = 256 * a.toNat := by
  have ha := a.toNat_lt
  simp [UInt32.toNat_shiftLeft, Nat.shiftLeft_eq]; omega

theorem beWord_toNat (a b : UInt8) : (a.toUInt32 <<< 8 ||| b.toUInt32).toNat = 256 * a.toNat + b.toNat := by
  have hb := b.toNat_lt
  rw [UInt32.toNat_or, shl8_toNat, UInt8.toNat_toUInt32, Nat.mul_comm, ← Nat.shiftLeft_eq _ 8,
    ← Nat.shiftLeft_add_eq_or_of_lt (by simpa using hb)]

theorem cksumLoop_toNat (m : Mem) (off len : Nat) (s : UInt32) :
    (cksumLoop m off len s).toNat = (s.toNat + beSum m off len) % 2 ^ 32 := by
  fun_induction cksumLoop m off len s with
  | case1 _ s => have := s.toNat_lt; simp only [beSum]; omega
  | case2 off s =>
    rw [UInt32.toNat_add, shl8_toNat]; simp [beSum]
  | case3 off len s ih =>
    rw [ih, UInt32.toNat_add, beWord_toNat]
    simp only [beSum]; omega

theorem not_toUInt16 (s : UInt32) (h : s.toNat ≤ 65535) : (~~~ s).toUInt16.toNat = 65535 - s.toNat := by
  simp only [UInt32.toNat_toUInt16, UInt32.toNat_not]
  simp only [UInt32.size]
  omega

/-- `ip_checksum` is the complement of the folded native sum. -/
theorem ipChecksum_spec (m : Mem) (off len : Nat) :
    ∃ n, (ipChecksum m off len).toNat = 65535 - n ∧ n ≤ 65535 ∧
      n % 65535 = leSum m off len % 2 ^ 32 % 65535 ∧ (n = 0 ↔ leSum m off len % 2 ^ 32 = 0) := by
  obtain ⟨h1, h2, h3⟩ := foldLoop_spec (ipSumLoop m off len 0)
  have e : (ipSumLoop m off len 0).toNat = leSum m off len % 2 ^ 32 := by
    simpa using ipSumLoop_toNat m off len 0
  rw [e] at h2 h3
  exact ⟨_, not_toUInt16 _ h1, h1, h2, h3⟩

/-- Only the bytes summed matter. -/
theorem ipChecksum_congr {m m' : Mem} {off len : Nat} (h : ∀ i, off ≤ i → i < off + len → m i = m' i) :
    ipChecksum m off len = ipChecksum m' off len := by
  have hs : ipSumLoop m off len 0 = ipSumLoop m' off len 0 := by
    apply UInt32.toNat_inj.1
    rw [ipSumLoop_toNat, ipSumLoop_toNat, leSum_congr h]
  rw [ipChecksum, ipChecksum, hs]

theorem cksum_spec (m : Mem) (off len : Nat) :
    ∃ n c, n ≤ 65535 ∧ n % 65535 = beSum m off len % 2 ^ 32 % 65535 ∧ cksum m off len = swap16 c ∧
      (c.toNat = 65535 - n ∨ n = 65535 ∧ c.toNat = 65535) := by
  obtain ⟨h1, h2, -⟩ := foldLoop_spec (cksumLoop m off len 0)
  have e : (cksumLoop m off len 0).toNat = beSum m off len % 2 ^ 32 := by
    simpa using cksumLoop_toNat m off len 0
  rw [e] at h2
  have hc := not_toUInt16 _ h1
  unfold cksum
  by_cases h0 : swap16 (~~~ foldLoop 2 (cksumLoop m off len 0)).toUInt16 ≠ 0
  · exact ⟨_, _, h1, h2, if_pos h0, .inl hc⟩
  · refine ⟨_, 0xFFFF, h1, h2, by rw [if_neg h0]; decide, .inr ⟨?_, rfl⟩⟩
    have hs := congrArg UInt16.toNat (swap16_eq_zero (not_not.1 h0))
    rw [hc, UInt16.toNat_zero] at hs
    omega

/-! ## Storing the result -/

/-- Two bytes stored in a word of a region replace that word in its sum. -/
theorem beSum_set (m : Mem) (off j : Nat) {len : Nat} (hj : 2 * j + 2 ≤ len) (x y : UInt8) :
    beSum (m.store (off + 2 * j) [x, y]) off len +
        (256 * (m (off + 2 * j)).toNat + (m (off + 2 * j + 1)).toNat) =
      beSum m off len + (256 * x.toNat + y.toNat) := by
  have h := beSum_word m (m.store (off + 2 * j) [x, y]) off j len hj fun i _ _ hi hi' => by
    rcases Nat.lt_or_ge i (off + 2 * j) with hl | hg
    · exact Mem.store_of_lt m _ _ i hl
    · exact Mem.store_of_ge m _ _ i (by simp only [List.length_cons, List.length_nil]; omega)
  have e0 := Mem.store_of_mem m (off + 2 * j) [x, y] 0 (by simp)
  have e1 := Mem.store_of_mem m (off + 2 * j) [x, y] 1 (by simp)
  simp only [List.getD_cons_zero, List.getD_cons_succ, Nat.add_zero] at e0 e1
  rwa [e0, e1] at h

/-- The word that a swapped value is stored as. -/
theorem swap16_word (v : UInt16) : 256 * (UInt8.ofNat (v.toNat / 256)).toNat + (UInt8.ofNat v.toNat).toNat = v.toNat := by
  have hv := v.toNat_lt
  simp only [UInt8.toNat_ofNat']
  omega

/-- Storing a swapped value in a zeroed word adds it to the word sum. -/
theorem beSum_store {m : Mem} {off j len : Nat} (hj : 2 * j + 2 ≤ len) (h0 : m (off + 2 * j) = 0)
    (h1 : m (off + 2 * j + 1) = 0) (v : UInt16) :
    beSum (m.store (off + 2 * j) (le16 (swap16 v))) off len = beSum m off len + v.toNat := by
  have h := beSum_set m off j hj (.ofNat (v.toNat / 256)) (.ofNat v.toNat)
  rw [h0, h1, swap16_word, UInt8.toNat_zero] at h
  rw [swap16_bytes]
  omega

/-- `sum = 0; sum = htons(ip_checksum(region))` makes the region verify exactly
when its word sum is a multiple of 257: the stored bytes are in the wrong
order, which only goes unnoticed when the two are equal. -/
theorem htons_ipChecksum_verifies {m : Mem} {off j len : Nat} (hj : 2 * j + 2 ≤ len) (h0 : m (off + 2 * j) = 0)
    (h1 : m (off + 2 * j + 1) = 0) (hlen : len ≤ 131070) (hne : m off ≠ 0) :
    Verifies (m.store (off + 2 * j) (le16 (swap16 (ipChecksum m off len)))) off len ↔
      257 ∣ beSum m off len := by
  obtain ⟨n, hn, hn', hm, -⟩ := ipChecksum_spec m off len
  have hle := leSum_le m off len
  have hbe : 0 < beSum m off len := beSum_pos (by omega) hne
  have hsw := leSum_modEq m off len
  rw [Nat.mod_eq_of_lt (a := leSum m off len) (by omega), hsw] at hm
  rw [verifies_iff, beSum_store hj h0 h1, hn]
  omega

/-- Modulo 257 both byte orders have the same sum, and the checksum adds it once more. -/
theorem ipChecksum_mod (m : Mem) (off len : Nat) (hlen : len ≤ 131070) :
    (ipChecksum m off len).toNat % 257 = beSum m off len % 257 := by
  obtain ⟨n, hn, hn', hm, -⟩ := ipChecksum_spec m off len
  have hle := leSum_le m off len
  rw [Nat.mod_eq_of_lt (a := leSum m off len) (by omega), leSum_modEq m off len] at hm
  omega

/-- `sum = 0; sum = cksum(region)` always makes the region verify. -/
theorem cksum_verifies {m : Mem} {off j len : Nat} (hj : 2 * j + 2 ≤ len) (h0 : m (off + 2 * j) = 0)
    (h1 : m (off + 2 * j + 1) = 0) (hlen : beSum m off len < 2 ^ 32) (hne : m off ≠ 0) :
    Verifies (m.store (off + 2 * j) (le16 (cksum m off len))) off len := by
  obtain ⟨n, c, hn, hm, hc, hcn⟩ := cksum_spec m off len
  have hbe : 0 < beSum m off len := beSum_pos (by omega) hne
  rw [Nat.mod_eq_of_lt hlen] at hm
  rw [verifies_iff, hc, beSum_store hj h0 h1]
  omega

end SimpleRouter
