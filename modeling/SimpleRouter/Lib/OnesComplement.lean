import Mathlib.Data.Nat.ModEq
import Mathlib.Tactic.Ring
/-!
# End-around-carry sums

One's-complement addition of words no larger than `M` (all bits set), and the
sums of the 16-bit words in a stretch of memory, read in either byte order.
Sums are compared modulo `M`: `sum_eq_max_iff` says when an end-around-carry
sum is all ones, and `leSum_modEq` is the byte-order theorem: reading the
other byte order multiplies the sum by 256 modulo 65535.
-/

namespace OnesComplement

/-! ## Adding words -/

/-- Addition with the carry added back at the low end. -/
def add (M a b : Nat) : Nat := if a + b ≤ M then a + b else a + b - M

/-- The end-around-carry sum of a list of words. -/
def sum (M : Nat) (ws : List Nat) : Nat := ws.foldl (add M) 0

theorem add_le {M a b : Nat} (ha : a ≤ M) (hb : b ≤ M) : add M a b ≤ M := by
  unfold add; split <;> omega

theorem add_modEq (M a b : Nat) : add M a b ≡ a + b [MOD M] := by
  unfold add; split
  · exact .refl _
  · have h : a + b - M + M = a + b := by omega
    calc a + b - M ≡ a + b - M + M [MOD M] := by simp [Nat.ModEq]
      _ = a + b := h

/-- Only zeros add up to zero: a carry always leaves at least one. -/
theorem add_eq_zero {M a b : Nat} (h : add M a b = 0) : a = 0 ∧ b = 0 := by
  unfold add at h; split at h <;> omega

theorem foldl_le {M : Nat} (ws : List Nat) (hw : ∀ w ∈ ws, w ≤ M) (a : Nat) (ha : a ≤ M) :
    ws.foldl (add M) a ≤ M := by
  induction ws generalizing a with
  | nil => exact ha
  | cons w ws ih =>
    exact ih (fun v hv => hw v (by simp [hv])) _ (add_le ha (hw w (by simp)))

theorem foldl_modEq (M : Nat) (ws : List Nat) (a : Nat) : ws.foldl (add M) a ≡ a + ws.sum [MOD M] := by
  induction ws generalizing a with
  | nil => exact .refl _
  | cons w ws ih =>
    rw [List.foldl_cons, List.sum_cons, ← Nat.add_assoc]
    exact (ih _).trans ((add_modEq M a w).add_right _)

theorem foldl_eq_zero {M : Nat} (ws : List Nat) (hw : ∀ w ∈ ws, w ≤ M) (a : Nat) (ha : a ≤ M)
    (h : ws.foldl (add M) a = 0) : a + ws.sum = 0 := by
  induction ws generalizing a with
  | nil => simpa using h
  | cons w ws ih =>
    have hw' := hw w (by simp)
    have h0 := ih (fun v hv => hw v (by simp [hv])) _ (add_le ha hw') h
    obtain ⟨rfl, rfl⟩ : a = 0 ∧ w = 0 := add_eq_zero (M := M) (by omega)
    simp only [List.sum_cons]; omega

theorem sum_zero (M : Nat) (ws : List Nat) (h : ws.sum = 0) : sum M ws = 0 := by
  unfold sum
  induction ws with
  | nil => rfl
  | cons w ws ih =>
    simp only [List.sum_cons, Nat.add_eq_zero_iff] at h
    rw [List.foldl_cons, h.1]
    simpa [add] using ih h.2

/-- An end-around-carry sum is all ones exactly when the plain sum is a
nonzero multiple of the largest word. -/
theorem sum_eq_max_iff {M : Nat} (hM : 0 < M) (ws : List Nat) (hw : ∀ w ∈ ws, w ≤ M) :
    sum M ws = M ↔ M ∣ ws.sum ∧ ws.sum ≠ 0 := by
  have hmod : sum M ws ≡ ws.sum [MOD M] := by simpa [sum] using foldl_modEq M ws 0
  have hle : sum M ws ≤ M := foldl_le ws hw 0 (Nat.zero_le _)
  constructor
  · intro h
    refine ⟨?_, fun h0 => ?_⟩
    · rw [← Nat.modEq_zero_iff_dvd]
      refine hmod.symm.trans ?_
      rw [h]; simp [Nat.ModEq]
    · rw [sum_zero M ws h0] at h; omega
  · rintro ⟨hd, hne⟩
    have h0 : sum M ws ≠ 0 := fun h => hne (by simpa using foldl_eq_zero ws hw 0 (Nat.zero_le _) h)
    have : M ∣ sum M ws := (Nat.modEq_zero_iff_dvd).1 (hmod.trans ((Nat.modEq_zero_iff_dvd).2 hd))
    obtain ⟨k, hk⟩ := this
    rcases k with _ | _ | k
    · omega
    · omega
    · have : M * (k + 1 + 1) = M * k + M + M := by ring
      omega

/-! ## Words in memory -/

/-- The big-endian 16-bit words of `len` bytes at `off`. A last odd byte is
the high half of a word. -/
def beWords (m : Nat → UInt8) : Nat → Nat → List Nat
  | _, 0 => []
  | off, 1 => [256 * (m off).toNat]
  | off, len + 2 => (256 * (m off).toNat + (m (off + 1)).toNat) :: beWords m (off + 2) len

/-- The sum of the big-endian words. -/
def beSum (m : Nat → UInt8) : Nat → Nat → Nat
  | _, 0 => 0
  | off, 1 => 256 * (m off).toNat
  | off, len + 2 => 256 * (m off).toNat + (m (off + 1)).toNat + beSum m (off + 2) len

/-- The sum of the little-endian words. A last odd byte is a low half. -/
def leSum (m : Nat → UInt8) : Nat → Nat → Nat
  | _, 0 => 0
  | off, 1 => (m off).toNat
  | off, len + 2 => (m off).toNat + 256 * (m (off + 1)).toNat + leSum m (off + 2) len

theorem sum_beWords (m : Nat → UInt8) (off len : Nat) : (beWords m off len).sum = beSum m off len := by
  fun_induction beWords m off len with
  | case1 => rfl
  | case2 off => simp [beSum]
  | case3 off len ih => simp [beSum, ih]

theorem beWords_le (m : Nat → UInt8) (off len : Nat) : ∀ w ∈ beWords m off len, w ≤ 65535 := by
  have hb : ∀ i, (m i).toNat < 256 := fun i => (m i).toNat_lt
  fun_induction beWords m off len with
  | case1 => simp
  | case2 off => have := hb off; simp; omega
  | case3 off len ih =>
    have h1 := hb off
    have h2 := hb (off + 1)
    intro w hw
    rcases List.mem_cons.1 hw with rfl | hw
    · omega
    · exact ih w hw

/-- The words of `len` bytes at `off` sum to all ones. -/
def Verifies (m : Nat → UInt8) (off len : Nat) : Prop := sum 65535 (beWords m off len) = 65535

instance (m : Nat → UInt8) (off len : Nat) : Decidable (Verifies m off len) :=
  inferInstanceAs (Decidable (_ = _))

theorem verifies_iff (m : Nat → UInt8) (off len : Nat) :
    Verifies m off len ↔ beSum m off len % 65535 = 0 ∧ beSum m off len ≠ 0 := by
  rw [Verifies, sum_eq_max_iff (by decide) _ (beWords_le m off len), sum_beWords,
    Nat.dvd_iff_mod_eq_zero]

/-- Byte order: the little-endian sum is 256 times the big-endian sum. -/
theorem leSum_modEq (m : Nat → UInt8) (off len : Nat) :
    leSum m off len % 65535 = 256 * beSum m off len % 65535 := by
  fun_induction leSum m off len with
  | case1 => rfl
  | case2 off => simp only [beSum]; omega
  | case3 off len ih => simp only [beSum]; omega

theorem beSum_pos {m : Nat → UInt8} {off len : Nat} (hl : 0 < len) (h : m off ≠ 0) : 0 < beSum m off len := by
  have h0 : 0 < (m off).toNat := by
    rcases Nat.eq_zero_or_pos (m off).toNat with h' | h'
    · exact absurd (UInt8.toNat_inj.1 (by simpa using h')) h
    · exact h'
  match len, hl with
  | 1, _ => simp only [beSum]; omega
  | len + 2, _ => simp only [beSum]; omega

theorem leSum_le (m : Nat → UInt8) (off len : Nat) : leSum m off len ≤ 65535 * ((len + 1) / 2) := by
  have hb : ∀ i, (m i).toNat < 256 := fun i => (m i).toNat_lt
  fun_induction leSum m off len with
  | case1 => simp
  | case2 off => have := hb off; omega
  | case3 off len ih =>
    have h1 := hb off
    have h2 := hb (off + 1)
    omega

theorem beSum_le (m : Nat → UInt8) (off len : Nat) : beSum m off len ≤ 65535 * ((len + 1) / 2) := by
  have hb : ∀ i, (m i).toNat < 256 := fun i => (m i).toNat_lt
  fun_induction beSum m off len with
  | case1 => simp
  | case2 off => have := hb off; omega
  | case3 off len ih =>
    have h1 := hb off
    have h2 := hb (off + 1)
    omega

/-- Sums depend only on the bytes summed, not on where they are. -/
theorem beSum_shift {m m' : Nat → UInt8} {off off' len : Nat} (h : ∀ i, i < len → m (off + i) = m' (off' + i)) :
    beSum m off len = beSum m' off' len := by
  fun_induction beSum m off len generalizing off' with
  | case1 => rfl
  | case2 off =>
    have h0 := h 0 (by decide)
    simp only [Nat.add_zero] at h0
    rw [beSum, h0]
  | case3 off len ih =>
    have h0 := h 0 (by omega)
    simp only [Nat.add_zero] at h0
    rw [beSum, h0, h 1 (by omega), ih fun i hi => ?_]
    rw [show off + 2 + i = off + (i + 2) by omega, show off' + 2 + i = off' + (i + 2) by omega, h (i + 2) (by omega)]

theorem beSum_congr {m m' : Nat → UInt8} {off len : Nat} (h : ∀ i, off ≤ i → i < off + len → m i = m' i) :
    beSum m off len = beSum m' off len :=
  beSum_shift fun i hi => h (off + i) (by omega) (by omega)

theorem leSum_congr {m m' : Nat → UInt8} {off len : Nat} (h : ∀ i, off ≤ i → i < off + len → m i = m' i) :
    leSum m off len = leSum m' off len := by
  fun_induction leSum m off len with
  | case1 => rfl
  | case2 off => rw [leSum, h off (by omega) (by omega)]
  | case3 off len ih =>
    rw [leSum, h off (by omega) (by omega), h (off + 1) (by omega) (by omega),
      ih (fun i h1 h2 => h i (by omega) (by omega))]

theorem verifies_congr {m m' : Nat → UInt8} {off len : Nat} (h : ∀ i, off ≤ i → i < off + len → m i = m' i) :
    Verifies m off len ↔ Verifies m' off len := by
  rw [verifies_iff, verifies_iff, beSum_congr h]

/-- A region splits after a whole number of words. -/
theorem beSum_split (m : Nat → UInt8) (off k len : Nat) :
    beSum m off (2 * k + len) = beSum m off (2 * k) + beSum m (off + 2 * k) len := by
  induction k generalizing off with
  | zero => simp [beSum]
  | succ k ih =>
    have e : 2 * (k + 1) + len = (2 * k + len) + 2 := by omega
    have e' : 2 * (k + 1) = 2 * k + 2 := by omega
    rw [e, e']
    simp only [beSum]
    rw [ih (off + 2), show off + 2 + 2 * k = off + (2 * k + 2) by omega]
    omega

/-- Changing one aligned word changes the sum by that word. -/
theorem beSum_word (m m' : Nat → UInt8) (off j len : Nat) (hj : 2 * j + 2 ≤ len)
    (h : ∀ i, off ≤ i → i < off + len → i ≠ off + 2 * j → i ≠ off + 2 * j + 1 → m' i = m i) :
    beSum m' off len + (256 * (m (off + 2 * j)).toNat + (m (off + 2 * j + 1)).toNat) =
      beSum m off len + (256 * (m' (off + 2 * j)).toNat + (m' (off + 2 * j + 1)).toNat) := by
  have e : len = 2 * j + ((len - 2 * j - 2) + 2) := by omega
  have h1 : beSum m' off (2 * j) = beSum m off (2 * j) :=
    beSum_congr fun i h1 h2 => h i h1 (by omega) (by omega) (by omega)
  have h2 : beSum m' (off + 2 * j + 2) (len - 2 * j - 2) = beSum m (off + 2 * j + 2) (len - 2 * j - 2) :=
    beSum_congr fun i h1 h2 => h i (by omega) (by omega) (by omega) (by omega)
  rw [e, beSum_split m', beSum_split m]
  simp only [beSum, h1, h2]
  omega

end OnesComplement
