import SimpleRouter.Lib.Runs
import SimpleRouter.Sha1
/-!
# Digests over runs of calls

A context that has taken `m` in holds the blocks of `m` compressed and the rest
of `m` in its block (`Holds`), and the bits of `m` counted (`Counts`). From a
reset on, any calls of `SHA1Input` and `SHA1Result` keep to this until a call
corrupts the context, which is said by `Usable` in terms of the calls alone.
-/
open Struct BlockHash Runs

namespace SimpleRouter

/-! ## The block -/

theorem MessageBlock.take_set (m : MessageBlock) {i : Nat} (h : i < 64) (b : UInt8) :
    (m.set i b).bytes.take (i + 1) = m.bytes.take i ++ [b] := by
  have hi : i < m.bytes.length := by rw [m.size_eq]; exact h
  have hi' : i < (m.bytes.set i b).length := by rw [List.length_set]; exact hi
  have htake : (m.bytes.set i b).take i = m.bytes.take i := List.take_set_of_le (Nat.le_refl i)
  rw [MessageBlock.set, List.take_add_one, htake, List.getElem?_eq_getElem hi', List.getElem_set_self]
  rfl

/-- The context has the digest `v` so far, and `l` of the next block. -/
structure Holds (c : SHA1Context) (v : Words) (l : Bytes) : Prop where
  digest : c.messageDigest = v
  index : c.messageBlockIndex = l.length
  block : c.messageBlock.bytes.take l.length = l

/-- The message taken in has `n` bytes. -/
structure Counts (c : SHA1Context) (n : Nat) : Prop where
  bits : 8 * n = c.lengthHigh.toNat * 2 ^ 32 + c.lengthLow.toNat
  lt : n < 2 ^ 61

/-- Nothing but the digest and the block has changed. -/
structure OnlyBlock (c c' : SHA1Context) : Prop where
  low : c'.lengthLow = c.lengthLow
  high : c'.lengthHigh = c.lengthHigh
  computed : c'.computed = c.computed
  corrupted : c'.corrupted = c.corrupted

theorem OnlyBlock.refl (c : SHA1Context) : OnlyBlock c c := ⟨rfl, rfl, rfl, rfl⟩

theorem OnlyBlock.trans {c c' c'' : SHA1Context} (h : OnlyBlock c c') (h' : OnlyBlock c' c'') : OnlyBlock c c'' :=
  ⟨h'.low.trans h.low, h'.high.trans h.high, h'.computed.trans h.computed, h'.corrupted.trans h.corrupted⟩

theorem sha1ProcessMessageBlock_only (c : SHA1Context) : OnlyBlock c (sha1ProcessMessageBlock c) := by
  unfold sha1ProcessMessageBlock
  exact ⟨rfl, rfl, rfl, rfl⟩

theorem putLength_only (c : SHA1Context) : OnlyBlock c c.putLength := by
  unfold SHA1Context.putLength
  exact ⟨rfl, rfl, rfl, rfl⟩

section Block
variable {c : SHA1Context} {v : Words} {l : Bytes}

theorem Holds.put (h : Holds c v l) (hlt : l.length < 64) (b : UInt8) :
    ∃ c', c.put b = some c' ∧ Holds c' v (l ++ [b]) ∧ OnlyBlock c c' := by
  have hidx : c.messageBlockIndex < 64 := by rw [h.index]; exact hlt
  refine ⟨_, if_pos hidx, ⟨h.digest, ?_, ?_⟩, ⟨rfl, rfl, rfl, rfl⟩⟩
  · rw [h.index, List.length_append, List.length_singleton]
  · rw [h.index, List.length_append, List.length_singleton, MessageBlock.take_set _ hlt, h.block]

theorem Holds.process (h : Holds c v l) (hfull : l.length = 64) :
    Holds (sha1ProcessMessageBlock c) (processBlock v l) [] := by
  have hblock : c.messageBlock.bytes = l := by
    have hb := h.block
    rwa [hfull, ← c.messageBlock.size_eq, List.take_length] at hb
  unfold sha1ProcessMessageBlock
  rw [h.digest, hblock]
  exact ⟨rfl, rfl, List.take_zero⟩

theorem Holds.zeros (h : Holds c v l) {n : Nat} (hn : l.length + n ≤ 64) :
    ∃ c', putZeros n c = some c' ∧ Holds c' v (l ++ List.replicate n 0) ∧ OnlyBlock c c' := by
  induction n generalizing c l with
  | zero => exact ⟨c, rfl, by simpa using h, .refl c⟩
  | succ n ih =>
    obtain ⟨c1, h1, hc1, ho1⟩ := h.put (by omega) 0
    obtain ⟨c2, h2, hc2, ho2⟩ := ih hc1 (by rw [List.length_append, List.length_singleton]; omega)
    refine ⟨c2, by rw [putZeros, h1]; exact h2, ?_, ho1.trans ho2⟩
    rwa [List.append_assoc, List.singleton_append, ← List.replicate_succ] at hc2

end Block

/-! ## The message length -/

theorem be_four_word (w : UInt32) : be 4 w.toNat = [(w >>> 24).toUInt8, (w >>> 16).toUInt8, (w >>> 8).toUInt8, w.toUInt8] := by
  have hbyte : ∀ k : Nat, k < 32 → UInt8.ofNat (w.toNat / 2 ^ k) = (w >>> .ofNat k).toUInt8 := by
    intro k hk
    have hk' : (UInt32.ofNat k).toNat % 32 = k := by
      rw [UInt32.toNat_ofNat_of_lt' (Nat.lt_trans hk (by decide))]
      exact Nat.mod_eq_of_lt hk
    apply UInt8.toNat_inj.1
    rw [UInt8.toNat_ofNat', UInt32.toNat_toUInt8, UInt32.toNat_shiftRight, hk', Nat.shiftRight_eq_div_pow]
  have h0 := hbyte 0 (by decide)
  have h8 := hbyte 8 (by decide)
  have h16 := hbyte 16 (by decide)
  have h24 := hbyte 24 (by decide)
  rw [Nat.pow_zero, Nat.div_one] at h0
  simp only [be, Nat.div_div_eq_div_mul, List.nil_append, List.cons_append]
  rw [h0]
  exact congrArg₂ _ h24 (congrArg₂ _ h16 (congrArg₂ _ h8 (by simp)))

/-- The last eight bytes of the block. -/
def SHA1Context.lengthBytes (c : SHA1Context) : Bytes := be 4 c.lengthHigh.toNat ++ be 4 c.lengthLow.toNat

@[simp] theorem SHA1Context.length_lengthBytes (c : SHA1Context) : c.lengthBytes.length = 8 := by
  rw [lengthBytes, List.length_append, length_be, length_be]

theorem Counts.lengthBytes {c : SHA1Context} {n : Nat} (h : Counts c n) : c.lengthBytes = be 8 (8 * n) := by
  rw [h.bits]
  exact (be_append 4 4 _ _ c.lengthLow.toNat_lt).symm

theorem OnlyBlock.lengthBytes {c c' : SHA1Context} (h : OnlyBlock c c') : c'.lengthBytes = c.lengthBytes := by
  rw [SHA1Context.lengthBytes, SHA1Context.lengthBytes, h.low, h.high]

theorem Holds.putLength {c : SHA1Context} {v : Words} {l : Bytes} (h : Holds c v l) (hlen : l.length = 56) :
    c.putLength.messageDigest = v ∧ c.putLength.messageBlock.bytes = l ++ c.lengthBytes := by
  have hblock := h.block
  rw [hlen] at hblock
  refine ⟨h.digest, ?_⟩
  rw [← List.take_length (l := c.putLength.messageBlock.bytes), MessageBlock.size_eq]
  -- the eight stores follow each other
  simp only [SHA1Context.putLength, MessageBlock.take_set _ (show 63 < 64 by decide),
    MessageBlock.take_set _ (show 62 < 64 by decide), MessageBlock.take_set _ (show 61 < 64 by decide),
    MessageBlock.take_set _ (show 60 < 64 by decide), MessageBlock.take_set _ (show 59 < 64 by decide),
    MessageBlock.take_set _ (show 58 < 64 by decide), MessageBlock.take_set _ (show 57 < 64 by decide),
    MessageBlock.take_set _ (show 56 < 64 by decide), hblock, SHA1Context.lengthBytes, be_four_word]
  simp

/-! ## Padding -/

section Pad
variable {c : SHA1Context} {v : Words} {l : Bytes}

/-- The block is filled up to the length, which completes it. -/
theorem Holds.complete (h : Holds c v l) (hle : l.length ≤ 56) :
    ∃ c', putZeros (56 - c.messageBlockIndex) c = some c' ∧ OnlyBlock c c' ∧
      (sha1ProcessMessageBlock c'.putLength).messageDigest =
        (absorb processBlock 64 (v, l) (List.replicate (56 - l.length) 0 ++ c.lengthBytes)).1 := by
  obtain ⟨c', hc', hh, ho⟩ := h.zeros (n := 56 - l.length) (by omega)
  obtain ⟨hdigest, hbytes⟩ := hh.putLength (by rw [List.length_append, List.length_replicate]; omega)
  refine ⟨c', by rw [h.index]; exact hc', ho, ?_⟩
  have hfull : l.length + (List.replicate (56 - l.length) (0 : UInt8) ++ c.lengthBytes).length = 64 := by
    rw [List.length_append, List.length_replicate, SHA1Context.length_lengthBytes]
    omega
  rw [absorb_full (show (v, l).2.length < 64 by simp only; omega) hfull, sha1ProcessMessageBlock, hdigest, hbytes,
    ho.lengthBytes, List.append_assoc]

/-- The padding of a message of which `n` bytes are in the block, up to its length. -/
def padding (n : Nat) : Bytes := 0x80 :: List.replicate ((119 - n) % 64) 0

/-- Where the block has no room for the length, zeros fill it and begin another. -/
theorem padding_long {n : Nat} (h : 55 < n) (hlt : n < 64) :
    padding n = (0x80 :: List.replicate (63 - n) 0) ++ List.replicate 56 0 := by
  have hn : (119 - n) % 64 = (63 - n) + 56 := by omega
  rw [padding, hn, ← List.replicate_append_replicate, List.cons_append]

theorem padding_short {n : Nat} (h : n ≤ 55) : padding n = [0x80] ++ List.replicate (56 - (n + 1)) 0 := by
  have hn : (119 - n) % 64 = 56 - (n + 1) := by omega
  rw [padding, hn, List.singleton_append]

theorem Holds.pad_long (h : Holds c v l) (hlong : 55 < l.length) (hlt : l.length < 64) :
    ∃ c', padToLength c = some c' ∧ OnlyBlock c c' ∧
      (sha1ProcessMessageBlock c'.putLength).messageDigest =
        (absorb processBlock 64 (v, l) (padding l.length ++ c.lengthBytes)).1 := by
  obtain ⟨c1, h1, hc1, ho1⟩ := h.put hlt 0x80
  have hlen1 : (l ++ [0x80]).length = l.length + 1 := by rw [List.length_append, List.length_singleton]
  have hidx1 : c1.messageBlockIndex = l.length + 1 := by rw [hc1.index, hlen1]
  obtain ⟨c2, h2, hc2, ho2⟩ := hc1.zeros (n := 63 - l.length) (by rw [hlen1]; omega)
  have hfull : (l ++ [0x80] ++ List.replicate (63 - l.length) 0).length = 64 := by
    rw [List.length_append, List.length_replicate, hlen1]
    omega
  obtain ⟨c4, h4, ho4, hdigest⟩ := (hc2.process hfull).complete (Nat.zero_le 56)
  have ho := ho1.trans (ho2.trans (sha1ProcessMessageBlock_only c2))
  refine ⟨c4, ?_, ho.trans ho4, ?_⟩
  · have hn : 64 - (l.length + 1) = 63 - l.length := by omega
    rw [padToLength, h.index, if_pos hlong, h1, Option.bind_eq_bind, Option.bind_some, hidx1, hn, h2, Option.bind_some]
    exact h4
  · have hfill : absorb processBlock 64 (v, l) (0x80 :: List.replicate (63 - l.length) 0) =
        (processBlock v (l ++ [0x80] ++ List.replicate (63 - l.length) 0), []) := by
      rw [absorb_full hlt, List.append_assoc, List.singleton_append]
      rw [List.length_cons, List.length_replicate]
      simp only
      omega
    have hsplit : padding l.length ++ c.lengthBytes =
        0x80 :: List.replicate (63 - l.length) 0 ++ (List.replicate 56 0 ++ c.lengthBytes) := by
      rw [padding_long hlong hlt, List.append_assoc]
    rw [hsplit, absorb_append, hfill, hdigest, ho.lengthBytes]
    rfl

theorem Holds.pad_short (h : Holds c v l) (hshort : l.length ≤ 55) :
    ∃ c', padToLength c = some c' ∧ OnlyBlock c c' ∧
      (sha1ProcessMessageBlock c'.putLength).messageDigest =
        (absorb processBlock 64 (v, l) (padding l.length ++ c.lengthBytes)).1 := by
  obtain ⟨c1, h1, hc1, ho1⟩ := h.put (by omega) 0x80
  have hlen1 : (l ++ [0x80]).length = l.length + 1 := by rw [List.length_append, List.length_singleton]
  obtain ⟨c2, h2, ho2, hdigest⟩ := hc1.complete (by rw [hlen1]; omega)
  have hle : ¬ l.length > 55 := by omega
  refine ⟨c2, ?_, ho1.trans ho2, ?_⟩
  · rw [padToLength, h.index, if_neg hle, h1, Option.bind_eq_bind, Option.bind_some, h2]
  · have hput : absorb processBlock 64 (v, l) [0x80] = (v, l ++ [0x80]) := absorb_short (by simp only [List.length_singleton]; omega)
    rw [padding_short hshort, List.append_assoc, absorb_append, hput, hdigest, ho1.lengthBytes, hlen1]

/-- `SHA1PadMessage` takes the padding and the length in. -/
theorem Holds.pad (h : Holds c v l) (hlt : l.length < 64) :
    ∃ c', sha1PadMessage c = some c' ∧ OnlyBlock c c' ∧ c'.messageBlockIndex = 0 ∧
      c'.messageDigest = (absorb processBlock 64 (v, l) (padding l.length ++ c.lengthBytes)).1 := by
  obtain ⟨c', hc', ho, hdigest⟩ : ∃ c', padToLength c = some c' ∧ OnlyBlock c c' ∧
      (sha1ProcessMessageBlock c'.putLength).messageDigest =
        (absorb processBlock 64 (v, l) (padding l.length ++ c.lengthBytes)).1 := by
    by_cases hlong : 55 < l.length
    · exact h.pad_long hlong hlt
    · exact h.pad_short (by omega)
  have hlast := (putLength_only c').trans (sha1ProcessMessageBlock_only c'.putLength)
  refine ⟨sha1ProcessMessageBlock c'.putLength, ?_, ho.trans hlast, rfl, hdigest⟩
  rw [sha1PadMessage, hc']
  rfl

end Pad

/-! ## Counting -/

/-- Nothing but the count has changed, and what it says about the context. -/
structure OnlyCount (c c' : SHA1Context) : Prop where
  digest : c'.messageDigest = c.messageDigest
  block : c'.messageBlock = c.messageBlock
  index : c'.messageBlockIndex = c.messageBlockIndex
  computed : c'.computed = c.computed

theorem count_only (c : SHA1Context) : OnlyCount c c.count := by
  unfold SHA1Context.count
  by_cases hlow : c.lengthLow + 8 = 0
  · by_cases hhigh : c.lengthHigh + 1 = 0
    · simp only [hlow, hhigh, if_true]
      exact ⟨rfl, rfl, rfl, rfl⟩
    · simp only [hlow, hhigh, if_true, if_false]
      exact ⟨rfl, rfl, rfl, rfl⟩
  · simp only [hlow, if_false]
    exact ⟨rfl, rfl, rfl, rfl⟩

/-- One byte more is counted, or is one too many. -/
theorem Counts.count {c : SHA1Context} {n : Nat} (h : Counts c n) :
    (n + 1 < 2 ^ 61 → Counts c.count (n + 1) ∧ c.count.corrupted = c.corrupted) ∧
    (n + 1 = 2 ^ 61 → c.count.corrupted = true) := by
  have hbits := h.bits
  have hn := h.lt
  have hlow := c.lengthLow.toNat_lt
  have hhigh := c.lengthHigh.toNat_lt
  have h8 : (c.lengthLow + 8).toNat = (c.lengthLow.toNat + 8) % 2 ^ 32 := UInt32.toNat_add _ _
  have h1 : (c.lengthHigh + 1).toNat = (c.lengthHigh.toNat + 1) % 2 ^ 32 := UInt32.toNat_add _ _
  have hzero : ∀ w : UInt32, w = 0 ↔ w.toNat = 0 := fun w => UInt32.toNat_inj.symm
  unfold SHA1Context.count
  by_cases hl : c.lengthLow + 8 = 0
  · have hl' := (hzero _).1 hl
    by_cases hh : c.lengthHigh + 1 = 0
    · have hh' := (hzero _).1 hh
      simp only [hl, hh, if_true]
      refine ⟨fun hlt => ?_, fun _ => trivial⟩
      exfalso
      omega
    · have hh' : (c.lengthHigh + 1).toNat ≠ 0 := fun h0 => hh ((hzero _).2 h0)
      simp only [hl, hh, if_true, if_false]
      refine ⟨fun hlt => ⟨⟨?_, hlt⟩, trivial⟩, fun heq => ?_⟩
      · change 8 * (n + 1) = (c.lengthHigh + 1).toNat * 2 ^ 32 + 0
        omega
      · exfalso
        omega
  · have hl' : (c.lengthLow + 8).toNat ≠ 0 := fun h0 => hl ((hzero _).2 h0)
    simp only [hl, if_false]
    refine ⟨fun hlt => ⟨⟨?_, hlt⟩, trivial⟩, fun heq => ?_⟩
    · change 8 * (n + 1) = c.lengthHigh.toNat * 2 ^ 32 + (c.lengthLow + 8).toNat
      omega
    · exfalso
      omega

/-! ## A context that takes a message in -/

/-- What there is of `m` after a reset. -/
def progress (m : Bytes) : Words × Bytes := absorb processBlock 64 (initialDigest, []) m

theorem length_progress (m : Bytes) : (progress m).2.length = m.length % 64 := by
  rw [progress, length_absorb (Nat.zero_lt_succ 63), List.length_nil, Nat.zero_add]

/-- The context has taken `m` in, and can take more. -/
structure Open (c : SHA1Context) (m : Bytes) : Prop where
  holds : Holds c (progress m).1 (progress m).2
  counts : Counts c m.length
  computed : c.computed = false
  corrupted : c.corrupted = false

theorem sha1Reset_open (c : SHA1Context) : Open (sha1Reset c) [] :=
  ⟨⟨rfl, rfl, List.take_zero⟩, ⟨by simp [sha1Reset], Nat.two_pow_pos 61⟩, rfl, rfl⟩

theorem progress_snoc (m : Bytes) (b : UInt8) : progress (m ++ [b]) =
    if (progress m).2.length + 1 = 64 then (processBlock (progress m).1 ((progress m).2 ++ [b]), [])
    else ((progress m).1, (progress m).2 ++ [b]) := by
  rw [progress, absorb_append]
  rfl

/-- A byte is taken in, or is one too many. -/
theorem Open.byte {c : SHA1Context} {m : Bytes} (h : Open c m) (b : UInt8) : ∃ c', inputByte c b = some c' ∧
    (m.length + 1 < 2 ^ 61 → Open c' (m ++ [b])) ∧ (m.length + 1 = 2 ^ 61 → c'.corrupted = true) := by
  have hlen := length_progress m
  obtain ⟨c1, h1, hc1, ho1⟩ := h.holds.put (by omega) b
  have hcounts : Counts c1 m.length := ⟨by rw [ho1.low, ho1.high]; exact h.counts.bits, h.counts.lt⟩
  obtain ⟨hfits, hlong⟩ := hcounts.count
  have hc := count_only c1
  have hc2 : Holds c1.count (progress m).1 ((progress m).2 ++ [b]) :=
    ⟨hc.digest.trans hc1.digest, hc.index.trans hc1.index, by rw [hc.block]; exact hc1.block⟩
  have hlen2 : (progress (m ++ [b])).2.length = (m.length + 1) % 64 := by
    rw [length_progress, List.length_append, List.length_singleton]
  have hsnoc := progress_snoc m b
  have hidx : c1.count.messageBlockIndex = (progress m).2.length + 1 := by
    rw [hc2.index, List.length_append, List.length_singleton]
  have hm : (m ++ [b]).length = m.length + 1 := by rw [List.length_append, List.length_singleton]
  have hbyte : inputByte c b =
      some (if (progress m).2.length + 1 = 64 then sha1ProcessMessageBlock c1.count else c1.count) := by
    simp only [inputByte, h1, Option.bind_eq_bind, Option.bind_some, hidx, Option.pure_def]
  refine ⟨_, hbyte, ?_, ?_⟩
  · intro hlt
    obtain ⟨hn, hcorr⟩ := hfits hlt
    by_cases hfull : (progress m).2.length + 1 = 64
    · have ho := sha1ProcessMessageBlock_only c1.count
      have hp := hc2.process (by rw [List.length_append, List.length_singleton]; exact hfull)
      rw [if_pos hfull] at hsnoc ⊢
      refine ⟨by rw [hsnoc]; exact hp, ⟨?_, by rw [hm]; exact hlt⟩, ?_, ?_⟩
      · rw [hm, ho.low, ho.high]
        exact hn.bits
      · rw [ho.computed, hc.computed, ho1.computed, h.computed]
      · rw [ho.corrupted, hcorr, ho1.corrupted, h.corrupted]
    · rw [if_neg hfull] at hsnoc ⊢
      refine ⟨by rw [hsnoc]; exact hc2, by rw [hm]; exact hn, ?_, ?_⟩
      · rw [hc.computed, ho1.computed, h.computed]
      · rw [hcorr, ho1.corrupted, h.corrupted]
  · intro heq
    have hcorr := hlong heq
    split
    · rw [(sha1ProcessMessageBlock_only c1.count).corrupted, hcorr]
    · exact hcorr

/-- `SHA1Input` on a context that is open. -/
theorem Open.input {c : SHA1Context} {m : Bytes} (h : Open c m) (bs : Bytes) : ∃ c', sha1Input c bs = some c' ∧
    ((m ++ bs).length < 2 ^ 61 → Open c' (m ++ bs)) ∧ (2 ^ 61 ≤ (m ++ bs).length → c'.corrupted = true) := by
  have hloop : ∃ c', inputLoop c bs = some c' ∧
      ((m ++ bs).length < 2 ^ 61 → Open c' (m ++ bs)) ∧ (2 ^ 61 ≤ (m ++ bs).length → c'.corrupted = true) := by
    induction bs generalizing c m with
    | nil =>
      have hlt := h.counts.lt
      rw [List.append_nil]
      exact ⟨c, rfl, fun _ => h, fun hle => absurd hle (by omega)⟩
    | cons b bs ih =>
      have hcorr := h.corrupted
      obtain ⟨c1, h1, hopen, hfull⟩ := h.byte b
      have hstep : inputLoop c (b :: bs) = inputLoop c1 bs := by simp [inputLoop, hcorr, h1]
      have happ : m ++ b :: bs = m ++ [b] ++ bs := by rw [List.append_assoc, List.singleton_append]
      have hm := h.counts.lt
      rw [hstep, happ]
      by_cases hlt : m.length + 1 < 2 ^ 61
      · exact ih (hopen hlt)
      · have hc1 := hfull (by omega)
        -- the loop ends with the byte that is one too many
        have hstop : inputLoop c1 bs = some c1 := by
          cases bs with
          | nil => rfl
          | cons _ _ => simp [inputLoop, hc1]
        refine ⟨c1, hstop, fun hl => absurd hl ?_, fun _ => hc1⟩
        rw [List.length_append, List.length_append, List.length_singleton]
        omega
  by_cases hnil : bs = []
  · have hin : sha1Input c bs = inputLoop c bs := by rw [sha1Input, if_pos hnil, hnil, inputLoop]
    rw [hin]
    exact hloop
  · have hin : sha1Input c bs = inputLoop c bs := by simp [sha1Input, hnil, h.computed, h.corrupted]
    rw [hin]
    exact hloop

/-- Padded to whole blocks. -/
theorem pad_whole (m : Bytes) : 64 ∣ (Standard.pad m).length := by
  simp only [Standard.pad, List.length_append, List.length_cons, List.length_replicate, length_be]
  omega

/-- The code's block function hashes what the standard's does. -/
theorem hash_eq (m : Bytes) : hash processBlock 64 initialDigest (Standard.pad m) = Standard.sha1 m := by
  apply List.foldl_ext
  intro v b hb
  exact processBlock_eq (length_blocks (by decide) (pad_whole m) b hb) v

/-- `SHA1Result` on a context that is open: the digest of what it has taken in. -/
theorem Open.result {c : SHA1Context} {m : Bytes} (h : Open c m) :
    ∃ c', sha1Result c = some (true, c') ∧ c'.computed = true ∧ c'.corrupted = false ∧ c'.messageBlockIndex = 0 ∧
      c'.messageDigest = Standard.sha1 m := by
  have hlen := length_progress m
  obtain ⟨c', hc', ho, hindex, hdigest⟩ := h.holds.pad (by omega)
  refine ⟨{ c' with computed := true }, ?_, rfl, ho.corrupted.trans h.corrupted, hindex, ?_⟩
  · simp [sha1Result, h.corrupted, h.computed, hc']
  · have hmod : (119 - m.length % 64) % 64 = (119 - (progress m).2.length) % 64 := by rw [hlen]
    have hpad : m ++ (padding (progress m).2.length ++ c.lengthBytes) = Standard.pad m := by
      rw [h.counts.lengthBytes, Standard.pad, hmod]
      rfl
    have hwhole := @absorb_hash _ _ processBlock _ (by decide) initialDigest _ (pad_whole m)
    rw [← hash_eq, ← hpad]
    rw [← hpad, absorb_append] at hwhole
    exact hdigest.trans (congrArg Prod.fst hwhole)

/-! ## Runs -/

/-- A call with the context. -/
inductive Sha1Call where
  | input (bytes : Bytes)
  | result

def Sha1Call.bytes : Sha1Call → Bytes
  | .input bytes => bytes
  | .result => []

/-- What a run of calls hands in. -/
def handedIn (es : List Sha1Call) : Bytes := es.flatMap Sha1Call.bytes

/-- What a call leads to, and for `SHA1Result` what it answers: the digest, if
it returns 1. -/
def callStep : Option SHA1Context → Sha1Call → Option SHA1Context × List (Option Words)
  | none, _ => (none, [])
  | some c, .input bytes => (sha1Input c bytes, [])
  | some c, .result =>
    match sha1Result c with
    | none => (none, [])
    | some (ok, c) => (some c, [if ok then some c.messageDigest else none])

/-- The context from a reset on. -/
def hasher (c : SHA1Context) : System (Option SHA1Context) Sha1Call (Option Words) where
  init := some (sha1Reset c)
  step _ := callStep

/-- Fewer than `2^64` bits are handed in, and none once a result has been asked for. -/
def Usable (es : List Sha1Call) : Prop :=
  (handedIn es).length < 2 ^ 61 ∧ ∀ pre post, es = pre ++ .result :: post → handedIn post = []

@[simp] theorem handedIn_snoc (es : List Sha1Call) (e : Sha1Call) : handedIn (es ++ [e]) = handedIn es ++ e.bytes := by
  simp [handedIn]

theorem usable_result (es : List Sha1Call) : Usable (es ++ [.result]) ↔ Usable es := by
  have hin : handedIn (es ++ [.result]) = handedIn es := by rw [handedIn_snoc, Sha1Call.bytes, List.append_nil]
  refine and_congr (by rw [hin]) ⟨fun h pre post hes => ?_, fun h pre post hes => ?_⟩
  · have hp := h pre (post ++ [.result]) (by rw [hes]; simp)
    rwa [handedIn_snoc, Sha1Call.bytes, List.append_nil] at hp
  · rcases List.eq_nil_or_concat post with rfl | ⟨post, e, rfl⟩
    · rfl
    · rw [List.concat_eq_append, ← List.cons_append, ← List.append_assoc] at hes
      obtain ⟨hes', he⟩ := List.append_inj' hes rfl
      obtain rfl := List.singleton_inj.1 he
      rw [List.concat_eq_append, handedIn_snoc, Sha1Call.bytes, List.append_nil]
      exact h pre post hes'

theorem usable_of_inputs {es : List Sha1Call} (h : .result ∉ es) (hlen : (handedIn es).length < 2 ^ 61) : Usable es :=
  ⟨hlen, fun _ _ hes => absurd (hes ▸ List.mem_append_right _ List.mem_cons_self) h⟩

theorem usable_input (es : List Sha1Call) (bs : Bytes) : Usable (es ++ [.input bs]) ↔
    Usable es ∧ (bs = [] ∨ .result ∉ es ∧ (handedIn es ++ bs).length < 2 ^ 61) := by
  have hin : handedIn (es ++ [.input bs]) = handedIn es ++ bs := handedIn_snoc es _
  constructor
  · rintro ⟨hlen, hpost⟩
    rw [hin] at hlen
    have hafter : ∀ pre post, es = pre ++ .result :: post → handedIn post = [] ∧ bs = [] := by
      intro pre post hes
      have hp := hpost pre (post ++ [.input bs]) (by rw [hes]; simp)
      rw [handedIn_snoc] at hp
      exact List.append_eq_nil_iff.1 hp
    refine ⟨⟨?_, fun pre post hes => (hafter pre post hes).1⟩, ?_⟩
    · rw [List.length_append] at hlen
      omega
    · by_cases hmem : Sha1Call.result ∈ es
      · obtain ⟨pre, post, hes⟩ := List.append_of_mem hmem
        exact .inl (hafter pre post hes).2
      · exact .inr ⟨hmem, hlen⟩
  · rintro ⟨⟨hlen, hpost⟩, h⟩
    have hsplit : ∀ pre post, es ++ [.input bs] = pre ++ .result :: post →
        ∃ post', post = post' ++ [.input bs] ∧ es = pre ++ .result :: post' := by
      intro pre post hes
      rcases List.eq_nil_or_concat post with rfl | ⟨post, e, rfl⟩
      · obtain ⟨-, he⟩ := List.append_inj' hes rfl
        cases List.singleton_inj.1 he
      · rw [List.concat_eq_append, ← List.cons_append, ← List.append_assoc] at hes
        obtain ⟨hes', he⟩ := List.append_inj' hes rfl
        obtain rfl := List.singleton_inj.1 he
        exact ⟨post, List.concat_eq_append, hes'⟩
    rw [Usable, hin]
    rcases h with rfl | ⟨hmem, hlt⟩
    · refine ⟨by rwa [List.append_nil], fun pre post hes => ?_⟩
      obtain ⟨post, rfl, hes'⟩ := hsplit pre post hes
      rw [handedIn_snoc, hpost pre post hes']
      rfl
    · refine ⟨hlt, fun pre post hes => ?_⟩
      obtain ⟨post, rfl, rfl⟩ := hsplit pre post hes
      exact absurd (List.mem_append_right _ List.mem_cons_self) hmem

/-- The context has the digest of `m`. -/
structure Digested (c : SHA1Context) (m : Bytes) : Prop where
  digest : c.messageDigest = Standard.sha1 m
  computed : c.computed = true
  corrupted : c.corrupted = false

/-- Where the context is after the calls `es`. -/
inductive Stage (es : List Sha1Call) (c : SHA1Context) : Prop where
  | taking (hu : Usable es) (hr : .result ∉ es) (h : Open c (handedIn es))
  | digested (hu : Usable es) (hr : .result ∈ es) (h : Digested c (handedIn es))
  | corrupted (hu : ¬ Usable es) (h : c.corrupted = true)

theorem Stage.input {es : List Sha1Call} {c : SHA1Context} (h : Stage es c) (bs : Bytes) :
    ∃ c', sha1Input c bs = some c' ∧ Stage (es ++ [.input bs]) c' := by
  have hmem : ∀ e, e ∈ es → e ∈ es ++ [.input bs] := fun e he => List.mem_append_left _ he
  cases h with
  | taking hu hr h =>
    obtain ⟨c', hc', hopen, hlong⟩ := h.input bs
    refine ⟨c', hc', ?_⟩
    have hr' : Sha1Call.result ∉ es ++ [.input bs] := by simp [hr]
    have hin : handedIn (es ++ [.input bs]) = handedIn es ++ bs := handedIn_snoc es _
    by_cases hlt : (handedIn es ++ bs).length < 2 ^ 61
    · exact .taking ((usable_input es bs).2 ⟨hu, .inr ⟨hr, hlt⟩⟩) hr' (by rw [hin]; exact hopen hlt)
    · refine .corrupted ?_ (hlong (by omega))
      rw [Usable, hin]
      exact fun h => hlt h.1
  | digested hu hr h =>
    by_cases hnil : bs = []
    · refine ⟨c, if_pos hnil, .digested ((usable_input es bs).2 ⟨hu, .inl hnil⟩) (hmem _ hr) ?_⟩
      rw [handedIn_snoc, Sha1Call.bytes, hnil, List.append_nil]
      exact h
    · refine ⟨{ c with corrupted := true }, by simp [sha1Input, hnil, h.computed], .corrupted ?_ rfl⟩
      rw [usable_input]
      rintro ⟨-, h | h⟩
      · exact hnil h
      · exact h.1 hr
  | corrupted hu h =>
    have hu' : ¬ Usable (es ++ [.input bs]) := fun h' => hu ((usable_input es bs).1 h').1
    by_cases hnil : bs = []
    · exact ⟨c, if_pos hnil, .corrupted hu' h⟩
    · exact ⟨{ c with corrupted := true }, by simp [sha1Input, hnil, h], .corrupted hu' rfl⟩

/-- What `SHA1Result` answers at each stage, and where it leads. -/
theorem Stage.result {es : List Sha1Call} {c : SHA1Context} (h : Stage es c) : ∃ c', sha1Result c =
      some (!c.corrupted, c') ∧ Stage (es ++ [.result]) c' ∧ (c.corrupted = true ↔ ¬ Usable es) ∧
      (Usable es → c'.messageDigest = Standard.sha1 (handedIn es)) := by
  have hin : handedIn (es ++ [.result]) = handedIn es := by rw [handedIn_snoc, Sha1Call.bytes, List.append_nil]
  have hlast : Sha1Call.result ∈ es ++ [.result] := List.mem_append_right _ (List.mem_singleton.2 rfl)
  cases h with
  | taking hu hr h =>
    obtain ⟨c', hc', hcomp, hcorr, -, hdigest⟩ := h.result
    refine ⟨c', by rw [hc', h.corrupted]; rfl, ?_, by simp [h.corrupted, hu], fun _ => hdigest⟩
    exact .digested ((usable_result es).2 hu) hlast ⟨by rw [hin]; exact hdigest, hcomp, hcorr⟩
  | digested hu hr h =>
    refine ⟨c, by simp [sha1Result, h.computed, h.corrupted], ?_, by simp [h.corrupted, hu], fun _ => h.digest⟩
    exact .digested ((usable_result es).2 hu) hlast (by rw [hin]; exact h)
  | corrupted hu h =>
    refine ⟨c, by simp [sha1Result, h], ?_, by simp [h, hu], fun hu' => absurd hu' hu⟩
    exact .corrupted (fun h' => hu ((usable_result es).1 h')) h

theorem hasher_stage (c : SHA1Context) (es : List Sha1Call) : ∃ c', (hasher c).state es = some c' ∧ Stage es c' := by
  refine (hasher c).induct (I := fun es st _ => ∃ c', st = some c' ∧ Stage es c') ?_ ?_ es
  · refine ⟨sha1Reset c, rfl, .taking ⟨Nat.two_pow_pos 61, ?_⟩ List.not_mem_nil (sha1Reset_open c)⟩
    intro pre post h
    exact absurd h (by simp)
  · rintro es e ⟨c', hst, hstage⟩
    rw [hst]
    cases e with
    | input bs =>
      obtain ⟨c'', hc'', h⟩ := hstage.input bs
      exact ⟨c'', hc'', h⟩
    | result =>
      obtain ⟨c'', hc'', h, -⟩ := hstage.result
      refine ⟨c'', ?_, h⟩
      change (callStep (some c') .result).1 = _
      rw [callStep, hc'']

theorem hasher_answer (c : SHA1Context) (es : List Sha1Call) :
    (Usable es → (hasher c).actsAt es .result = [some (Standard.sha1 (handedIn es))]) ∧
    (¬ Usable es → (hasher c).actsAt es .result = [none]) := by
  obtain ⟨c', hst, hstage⟩ := hasher_stage c es
  obtain ⟨c'', hc'', -, hcorr, hdigest⟩ := hstage.result
  have hacts : (hasher c).actsAt es .result = [if !c'.corrupted then some c''.messageDigest else none] := by
    rw [System.actsAt, hst]
    change (callStep (some c') .result).2 = _
    rw [callStep, hc'']
  refine ⟨fun hu => ?_, fun hu => ?_⟩
  · have hc : c'.corrupted = false := by
      rw [Bool.eq_false_iff]
      exact fun h => hcorr.1 h hu
    rw [hacts, hc, hdigest hu]
    rfl
  · rw [hacts, hcorr.2 hu]
    rfl

/-- After any calls from a reset on nothing has been written outside the block,
and `SHA1Result` answers with the digest the standard gives all that was handed
in; but if that was too long, or came after a result, it fails. -/
theorem sha1_answers (c : SHA1Context) (es : List Sha1Call) : (∃ c', (hasher c).state es = some c') ∧
    (Usable es → (hasher c).actsAt es .result = [some (Standard.sha1 (handedIn es))]) ∧
    (¬ Usable es → (hasher c).actsAt es .result = [none]) := by
  obtain ⟨c', hst, -⟩ := hasher_stage c es
  exact ⟨⟨c', hst⟩, hasher_answer c es⟩

/-- A context that has not been reset yet. -/
def Sample.context : SHA1Context := ⟨⟨0, 0, 0, 0, 0⟩, 0, 0, .zero, 0, false, false⟩

-- the digest of "abc", handed in in two pieces
example : (hasher Sample.context).actsAt [.input [97], .input [98, 99]] .result =
    [some ⟨0xA9993E36, 0x4706816A, 0xBA3E2571, 0x7850C26C, 0x9CD0D89D⟩] := by decide +kernel

/-! ## Collisions -/

theorem drop_pad (m : Bytes) : (Standard.pad m).drop ((Standard.pad m).length - 8) = be 8 (8 * m.length) := by
  have hsplit : Standard.pad m = m ++ 0x80 :: List.replicate ((119 - m.length % 64) % 64) 0 ++ be 8 (8 * m.length) := by
    rw [Standard.pad, List.append_assoc, List.cons_append]
  rw [hsplit]
  apply List.drop_left'
  simp only [List.length_append, length_be, Nat.add_sub_cancel]

/-- A padded message ends no other: its end has its length. -/
theorem pad_suffix {m m' : Bytes} (h : m.length < 2 ^ 61) (h' : m'.length < 2 ^ 61)
    (hs : Standard.pad m <:+ Standard.pad m') : m = m' := by
  have hlen8 : 8 ≤ (Standard.pad m).length := by simp only [Standard.pad, List.length_append, List.length_cons, length_be]; omega
  have hle := hs.length_le
  obtain ⟨t, ht⟩ := hs
  have hdrop := congrArg (List.drop ((Standard.pad m').length - 8)) ht
  have hpos : (Standard.pad m').length - 8 = t.length + ((Standard.pad m).length - 8) := by
    rw [← ht, List.length_append]
    omega
  rw [drop_pad, hpos, List.drop_append, List.drop_of_length_le (by omega), List.nil_append, Nat.add_sub_cancel_left,
    drop_pad] at hdrop
  have hlen : m.length = m'.length := by
    have hread := congrArg readBe hdrop
    rw [readBe_be (by omega), readBe_be (by omega)] at hread
    omega
  have hp : (Standard.pad m).length = (Standard.pad m').length := by
    simp only [Standard.pad, List.length_append, List.length_cons, List.length_replicate, length_be, hlen]
  have htake := congrArg (List.take m.length) (List.IsSuffix.eq_of_length ⟨t, ht⟩ hp)
  rwa [Standard.pad, List.take_left' rfl, hlen, Standard.pad, List.take_left' rfl] at htake

/-- Runs that hand in different messages are answered differently, or a
collision of `SHA1ProcessMessageBlock` occurs within them. -/
theorem different_or_collision (c c' : SHA1Context) {es es' : List Sha1Call} (hu : Usable es) (hu' : Usable es')
    (hne : handedIn es ≠ handedIn es') :
    (hasher c).actsAt es .result ≠ (hasher c').actsAt es' .result ∨
    CollisionWithin processBlock initialDigest (blocks 64 (Standard.pad (handedIn es)))
      (blocks 64 (Standard.pad (handedIn es'))) := by
  by_cases hsame : (hasher c).actsAt es .result = (hasher c').actsAt es' .result
  · right
    rw [(hasher_answer c es).1 hu, (hasher_answer c' es').1 hu'] at hsame
    have hdigest : Standard.sha1 (handedIn es) = Standard.sha1 (handedIn es') := by simpa using hsame
    rw [← hash_eq, ← hash_eq] at hdigest
    exact collision_within (by decide) initialDigest (pad_whole _) (pad_whole _)
      (fun hs => hne (pad_suffix hu.1 hu'.1 hs)) (fun hs => hne (pad_suffix hu'.1 hu.1 hs).symm) hdigest
  · exact .inl hsame

namespace Sample

/-- Two blocks and a half, in pieces that do not fit the blocks. -/
def threePieces (last : UInt8) : List Sha1Call :=
  [.input (List.replicate 100 0), .input (List.replicate 50 1), .input (List.replicate 10 last)]

theorem usable_threePieces (last : UInt8) : Usable (threePieces last) :=
  usable_of_inputs (by simp [threePieces]) (by simp [threePieces, handedIn, Sha1Call.bytes])

end Sample

open Sample in
theorem different_or_collision_pieces :
    (hasher context).actsAt (threePieces 2) .result ≠ (hasher context).actsAt (threePieces 3) .result ∨
    CollisionWithin processBlock initialDigest (blocks 64 (Standard.pad (handedIn (threePieces 2))))
      (blocks 64 (Standard.pad (handedIn (threePieces 3)))) :=
  different_or_collision context context (usable_threePieces 2) (usable_threePieces 3) (by decide)

end SimpleRouter
