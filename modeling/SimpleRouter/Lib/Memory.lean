import Mathlib.Data.List.GetD
/-!
# Memory of a little-endian host

Memory is a byte at every offset from some base. A buffer is an allocation of
`size` bytes; what its memory holds at `size` and beyond is whatever lies
behind the allocation, so a read past the end gives an arbitrary byte. Stores
and loads of 16- and 32-bit values are native, least significant byte first.
-/

namespace Memory

/-- A byte at every offset. -/
abbrev Mem := Nat → UInt8

/-- One read or write of `len` bytes at `off`, in a buffer of `size` bytes. -/
structure Access where
  size : Nat
  off : Nat
  len : Nat
deriving DecidableEq

/-- No byte of the access lies outside its buffer. -/
def Access.InBounds (a : Access) : Prop := a.len = 0 ∨ a.off + a.len ≤ a.size

instance (a : Access) : Decidable a.InBounds := inferInstanceAs (Decidable (_ ∨ _))

/-! ## Values and bytes -/

/-- A 16-bit value as stored: low byte first. -/
def le16 (v : UInt16) : List UInt8 := [.ofNat v.toNat, .ofNat (v.toNat / 256)]

def le32 (v : UInt32) : List UInt8 :=
  [.ofNat v.toNat, .ofNat (v.toNat / 256), .ofNat (v.toNat / 65536), .ofNat (v.toNat / 16777216)]

/-- `htons` and `ntohs`: the two bytes exchanged. -/
def swap16 (v : UInt16) : UInt16 := .ofNat (v.toNat / 256 + 256 * (v.toNat % 256))

/-- `htonl` and `ntohl`: the four bytes reversed. -/
def swap32 (v : UInt32) : UInt32 :=
  .ofNat (v.toNat / 16777216 + 256 * (v.toNat / 65536 % 256) + 65536 * (v.toNat / 256 % 256) +
    16777216 * (v.toNat % 256))

@[simp] theorem length_le16 (v : UInt16) : (le16 v).length = 2 := rfl
@[simp] theorem length_le32 (v : UInt32) : (le32 v).length = 4 := rfl

theorem toNat_swap16 (v : UInt16) : (swap16 v).toNat = v.toNat / 256 + 256 * (v.toNat % 256) := by
  have h := v.toNat_lt
  simp only [swap16, UInt16.toNat_ofNat']; omega

theorem swap16_eq_zero {v : UInt16} (h : swap16 v = 0) : v = 0 := by
  have e := toNat_swap16 v
  rw [h, UInt16.toNat_zero] at e
  apply UInt16.toNat_inj.1
  rw [UInt16.toNat_zero]; omega

@[simp] theorem swap16_swap16 (v : UInt16) : swap16 (swap16 v) = v := by
  have h := v.toNat_lt
  have e := toNat_swap16 v
  have e' := toNat_swap16 (swap16 v)
  apply UInt16.toNat_inj.1
  omega

/-- The bytes of a swapped value read in the other order. -/
theorem swap16_bytes (v : UInt16) :
    le16 (swap16 v) = [UInt8.ofNat (v.toNat / 256), UInt8.ofNat v.toNat] := by
  have h := v.toNat_lt
  have e := toNat_swap16 v
  have hq : v.toNat / 256 < 256 := by omega
  have e' : (v.toNat / 256 + 256 * (v.toNat % 256)) / 256 = v.toNat % 256 := by
    rw [Nat.add_mul_div_left _ _ (by decide), Nat.div_eq_of_lt hq, Nat.zero_add]
  simp only [le16, e, e', List.cons.injEq, and_true]
  constructor <;> (apply UInt8.toNat_inj.1; simp only [UInt8.toNat_ofNat']; omega)

/-- Four digits in base 256, and what division by a power of the base leaves of them. -/
theorem digits_div {a b c d : Nat} (ha : a < 256) (hb : b < 256) (hc : c < 256) :
    (a + 256 * b + 65536 * c + 16777216 * d) / 256 = b + 256 * c + 65536 * d ∧
    (a + 256 * b + 65536 * c + 16777216 * d) / 65536 = c + 256 * d ∧
    (a + 256 * b + 65536 * c + 16777216 * d) / 16777216 = d := by
  refine ⟨?_, ?_, ?_⟩ <;> omega

/-- A value by its four bytes, and the same value swapped. -/
theorem swap32_digits (v : UInt32) : ∃ a b c d, a < 256 ∧ b < 256 ∧ c < 256 ∧ d < 256 ∧
    v.toNat = a + 256 * b + 65536 * c + 16777216 * d ∧
    (swap32 v).toNat = d + 256 * c + 65536 * b + 16777216 * a := by
  have h := v.toNat_lt
  refine ⟨v.toNat % 256, v.toNat / 256 % 256, v.toNat / 65536 % 256, v.toNat / 16777216, ?_⟩
  simp only [swap32, UInt32.toNat_ofNat']
  omega

@[simp] theorem swap32_swap32 (v : UInt32) : swap32 (swap32 v) = v := by
  obtain ⟨a, b, c, d, ha, hb, hc, hd, hv, hs⟩ := swap32_digits v
  obtain ⟨h1, h2, h3⟩ := @digits_div d c b a hd hc hb
  have m1 : (b + 256 * a) % 256 = b := by omega
  have m2 : (c + 256 * b + 65536 * a) % 256 = c := by omega
  have m3 : (d + 256 * c + 65536 * b + 16777216 * a) % 256 = d := by omega
  apply UInt32.toNat_inj.1
  rw [swap32, hs, h1, h2, h3, m1, m2, m3, UInt32.toNat_ofNat', hv]
  omega

/-- The bytes of a swapped value read in the other order. -/
theorem swap32_bytes (v : UInt32) : le32 (swap32 v) =
    [.ofNat (v.toNat / 16777216), .ofNat (v.toNat / 65536), .ofNat (v.toNat / 256), .ofNat v.toNat] := by
  obtain ⟨a, b, c, d, ha, hb, hc, hd, hv, hs⟩ := swap32_digits v
  obtain ⟨h1, h2, h3⟩ := @digits_div d c b a hd hc hb
  obtain ⟨h4, h5, h6⟩ := @digits_div a b c d ha hb hc
  simp only [le32, hs, hv, h1, h2, h3, h4, h5, h6, List.cons.injEq, and_true]
  refine ⟨?_, ?_, ?_, ?_⟩ <;> (apply UInt8.toNat_inj.1; simp only [UInt8.toNat_ofNat']; omega)

namespace Mem

def u16 (m : Mem) (i : Nat) : UInt16 := .ofNat ((m i).toNat + 256 * (m (i + 1)).toNat)

def u32 (m : Mem) (i : Nat) : UInt32 :=
  .ofNat ((m i).toNat + 256 * (m (i + 1)).toNat + 65536 * (m (i + 2)).toNat + 16777216 * (m (i + 3)).toNat)

/-- The `len` bytes at `off`. -/
def slice (m : Mem) (off len : Nat) : List UInt8 := (List.range len).map fun k => m (off + k)

/-- `bs` written at `off`. -/
def store (m : Mem) (off : Nat) (bs : List UInt8) : Mem := fun i =>
  if off ≤ i ∧ i < off + bs.length then bs.getD (i - off) 0 else m i

theorem u16_congr {m m' : Mem} {i : Nat} (h0 : m i = m' i) (h1 : m (i + 1) = m' (i + 1)) :
    m.u16 i = m'.u16 i := by
  simp only [u16, h0, h1]

/-- A number depends only on its bytes, not on where they are. -/
theorem u32_shift {m m' : Mem} {i j : Nat} (h : ∀ k, k < 4 → m (i + k) = m' (j + k)) : m.u32 i = m'.u32 j := by
  have h0 := h 0 (by decide)
  have h1 := h 1 (by decide)
  have h2 := h 2 (by decide)
  have h3 := h 3 (by decide)
  simp only [Nat.add_zero] at h0
  simp only [u32, h0, h1, h2, h3]

theorem u32_congr {m m' : Mem} {i : Nat} (h : ∀ k, k < 4 → m (i + k) = m' (i + k)) : m.u32 i = m'.u32 i := u32_shift h

@[simp] theorem length_slice (m : Mem) (off len : Nat) : (m.slice off len).length = len := by
  simp [slice]

theorem getD_slice (m : Mem) (off len k : Nat) (h : k < len) : (m.slice off len).getD k 0 = m (off + k) := by
  simp [slice, List.getD, h]

theorem getElem_slice (m : Mem) (off len k : Nat) (h : k < (m.slice off len).length) :
    (m.slice off len)[k] = m (off + k) := by
  simp [slice]

theorem drop_slice (m : Mem) (off len k : Nat) : (m.slice off len).drop k = m.slice (off + k) (len - k) := by
  refine List.ext_getElem (by simp) fun i h1 h2 => ?_
  rw [List.getElem_drop, getElem_slice, getElem_slice, Nat.add_assoc]

theorem take_slice (m : Mem) (off : Nat) {len k : Nat} (h : k ≤ len) : (m.slice off len).take k = m.slice off k := by
  refine List.ext_getElem (by simp [h]) fun i h1 h2 => ?_
  rw [List.getElem_take, getElem_slice, getElem_slice]

theorem store_of_lt (m : Mem) (off : Nat) (bs : List UInt8) (i : Nat) (h : i < off) : m.store off bs i = m i := by
  have : ¬ (off ≤ i ∧ i < off + bs.length) := by omega
  simp only [store, this, if_false]

theorem store_of_ge (m : Mem) (off : Nat) (bs : List UInt8) (i : Nat) (h : off + bs.length ≤ i) :
    m.store off bs i = m i := by
  have : ¬ (off ≤ i ∧ i < off + bs.length) := by omega
  simp only [store, this, if_false]

theorem store_of_mem (m : Mem) (off : Nat) (bs : List UInt8) (k : Nat) (h : k < bs.length) :
    m.store off bs (off + k) = bs.getD k 0 := by
  have : off ≤ off + k ∧ off + k < off + bs.length := by omega
  simp only [store, this, if_true, Nat.add_sub_cancel_left, and_self]

/-- What is stored last in a place stays there. -/
theorem store_store (m : Mem) (off : Nat) (bs cs : List UInt8) (h : bs.length = cs.length) :
    (m.store off bs).store off cs = m.store off cs := by
  funext i
  simp only [store, h]
  split <;> rfl

/-- So does what is stored over more than that. -/
theorem store_over (m : Mem) (off : Nat) {bs cs : List UInt8} (h : bs.length ≤ cs.length) :
    (m.store off bs).store off cs = m.store off cs := by
  funext i
  simp only [store]
  by_cases hc : off ≤ i ∧ i < off + cs.length
  · rw [if_pos hc, if_pos hc]
  · have hb : ¬ (off ≤ i ∧ i < off + bs.length) := by omega
    rw [if_neg hc, if_neg hc, if_neg hb]

@[simp] theorem store_nil (m : Mem) (off : Nat) : m.store off [] = m := by
  funext i
  have h : ¬ (off ≤ i ∧ i < off + ([] : List UInt8).length) := by
    rw [List.length_nil]
    omega
  rw [store, if_neg h]

/-- What is stored piece by piece is stored as a whole. -/
theorem store_append (m : Mem) (off : Nat) (xs ys : List UInt8) :
    (m.store off xs).store (off + xs.length) ys = m.store off (xs ++ ys) := by
  funext i
  simp only [store, List.length_append]
  by_cases hlo : off + xs.length ≤ i
  · have hx : ¬ (off ≤ i ∧ i < off + xs.length) := by omega
    have he : i - (off + xs.length) = i - off - xs.length := by omega
    simp only [hx, if_false, List.getD_append_right xs ys 0 (i - off) (by omega), he]
    exact if_congr (by omega) rfl rfl
  · have hy : ¬ (off + xs.length ≤ i ∧ i < off + xs.length + ys.length) := by omega
    rw [if_neg hy]
    by_cases hi : off ≤ i
    · have hx : off ≤ i ∧ i < off + xs.length := by omega
      have hxy : off ≤ i ∧ i < off + (xs.length + ys.length) := by omega
      rw [if_pos hx, if_pos hxy, List.getD_append xs ys 0 (i - off) (by omega)]
    · have hx : ¬ (off ≤ i ∧ i < off + xs.length) := by omega
      have hxy : ¬ (off ≤ i ∧ i < off + (xs.length + ys.length)) := by omega
      rw [if_neg hx, if_neg hxy]

/-- Two bytes stored one after the other. -/
theorem store_pair (m : Mem) (off : Nat) (x y : UInt8) : (m.store off [x]).store (off + 1) [y] = m.store off [x, y] :=
  store_append m off [x] [y]

/-- Storing the bytes of a loaded value copies them. -/
theorem le32_u32 (m : Mem) (i : Nat) : le32 (m.u32 i) = [m i, m (i + 1), m (i + 2), m (i + 3)] := by
  have h0 := (m i).toNat_lt
  have h1 := (m (i + 1)).toNat_lt
  have h2 := (m (i + 2)).toNat_lt
  have h3 := (m (i + 3)).toNat_lt
  have e : (m.u32 i).toNat = (m i).toNat + 256 * (m (i + 1)).toNat + 65536 * (m (i + 2)).toNat +
      16777216 * (m (i + 3)).toNat := by
    simp only [u32, UInt32.toNat_ofNat']; omega
  simp only [le32, e, List.cons.injEq, and_true]
  refine ⟨?_, ?_, ?_, ?_⟩ <;> (apply UInt8.toNat_inj.1; simp only [UInt8.toNat_ofNat']; omega)

theorem u32_store_le32 (m : Mem) (i : Nat) (v : UInt32) : (m.store i (le32 v)).u32 i = v := by
  have h := v.toNat_lt
  have e0 := store_of_mem m i (le32 v) 0 (by simp)
  have e1 := store_of_mem m i (le32 v) 1 (by simp)
  have e2 := store_of_mem m i (le32 v) 2 (by simp)
  have e3 := store_of_mem m i (le32 v) 3 (by simp)
  simp only [Nat.add_zero, le32, List.getD_cons_zero, List.getD_cons_succ] at e0 e1 e2 e3
  apply UInt32.toNat_inj.1
  simp only [u32, le32, e0, e1, e2, e3, UInt32.toNat_ofNat', UInt8.toNat_ofNat']
  omega

theorem u16_store_le16 (m : Mem) (i : Nat) (v : UInt16) : (m.store i (le16 v)).u16 i = v := by
  have h := v.toNat_lt
  have e0 := store_of_mem m i (le16 v) 0 (by simp)
  have e1 := store_of_mem m i (le16 v) 1 (by simp)
  simp only [Nat.add_zero, le16, List.getD_cons_zero, List.getD_cons_succ] at e0 e1
  apply UInt16.toNat_inj.1
  simp only [u16, le16, e0, e1, UInt16.toNat_ofNat', UInt8.toNat_ofNat']
  omega

theorem slice_append {m : Mem} {off : Nat} {bs cs : List UInt8} :
    m.slice off (bs ++ cs).length = bs ++ cs ↔
      m.slice off bs.length = bs ∧ m.slice (off + bs.length) cs.length = cs := by
  have hsplit : m.slice off (bs ++ cs).length = m.slice off bs.length ++ m.slice (off + bs.length) cs.length := by
    have hlen : (bs ++ cs).length = bs.length + cs.length := List.length_append
    have htake := take_slice m off (show bs.length ≤ bs.length + cs.length by omega)
    have hdrop := drop_slice m off (bs.length + cs.length) bs.length
    rw [Nat.add_sub_cancel_left] at hdrop
    rw [hlen, ← htake, ← hdrop, List.take_append_drop]
  rw [hsplit]
  constructor
  · intro h
    exact List.append_inj h (length_slice _ _ _)
  · rintro ⟨h1, h2⟩
    rw [h1, h2]

/-- A value whose bytes are in memory. -/
theorem u32_of_slice {m : Mem} {off : Nat} {v : UInt32} (h : m.slice off 4 = le32 v) : m.u32 off = v := by
  have hs : ∀ k, k < 4 → m (off + k) = (m.store off (le32 v)) (off + k) := by
    intro k hk
    rw [store_of_mem _ _ _ _ hk, ← h, getD_slice _ _ _ _ hk]
  rw [u32_congr hs, u32_store_le32]

end Mem

/-! ## Buffers -/

/-- An allocation of `size` bytes and the memory at its offsets. -/
structure Buf where
  size : Nat
  mem : Mem

namespace Buf

/-- A buffer holding `bs`, with `past` behind it. -/
def ofBytes (bs : List UInt8) (past : Mem) : Buf := ⟨bs.length, fun i => bs[i]?.getD (past i)⟩

/-- `malloc(size)` and `memset(.., 0, size)`. -/
def zeroed (size : Nat) (past : Mem) : Buf := ⟨size, fun i => if i < size then 0 else past i⟩

/-- `malloc(b.size)` and a copy of `b` into it. -/
def copy (b : Buf) (past : Mem) : Buf := ⟨b.size, fun i => if i < b.size then b.mem i else past i⟩

def store (b : Buf) (off : Nat) (bs : List UInt8) : Buf := ⟨b.size, b.mem.store off bs⟩

/-- The bytes inside the allocation. -/
def bytes (b : Buf) : List UInt8 := b.mem.slice 0 b.size

@[simp] theorem size_ofBytes (bs : List UInt8) (past : Mem) : (ofBytes bs past).size = bs.length := rfl
@[simp] theorem size_zeroed (n : Nat) (past : Mem) : (zeroed n past).size = n := rfl
@[simp] theorem size_copy (b : Buf) (past : Mem) : (b.copy past).size = b.size := rfl
@[simp] theorem size_store (b : Buf) (off : Nat) (bs : List UInt8) : (b.store off bs).size = b.size := rfl
@[simp] theorem mem_store (b : Buf) (off : Nat) (bs : List UInt8) :
    (b.store off bs).mem = b.mem.store off bs := rfl
@[simp] theorem length_bytes (b : Buf) : b.bytes.length = b.size := by simp [bytes]

theorem length_drop_bytes (b : Buf) (k : Nat) : (b.bytes.drop k).length = b.size - k := by
  rw [List.length_drop, length_bytes]

theorem drop_bytes (b : Buf) (k : Nat) : b.bytes.drop k = b.mem.slice k (b.size - k) := by
  rw [bytes, Mem.drop_slice, Nat.zero_add]

/-- A buffer that ends within a range ends with the front of the range. -/
theorem drop_bytes_eq_take {b : Buf} {k len : Nat} (h : b.size ≤ k + len) :
    b.bytes.drop k = (b.mem.slice k len).take (b.size - k) := by
  rw [drop_bytes, Mem.take_slice _ _ (by omega)]

@[simp] theorem store_nil (b : Buf) (off : Nat) : b.store off [] = b := by
  rw [store, Mem.store_nil]

theorem store_append (b : Buf) (off : Nat) (xs ys : List UInt8) :
    (b.store off xs).store (off + xs.length) ys = b.store off (xs ++ ys) := by
  simp only [store, Mem.store_append]

theorem store_then (b : Buf) {off off' : Nat} {xs : List UInt8} (h : off + xs.length = off') (ys : List UInt8) :
    (b.store off xs).store off' ys = b.store off (xs ++ ys) := by
  rw [← h, store_append]

theorem bytes_ext {b c : Buf} (hs : b.size = c.size) (hm : ∀ i, i < b.size → b.mem i = c.mem i) :
    b.bytes = c.bytes := by
  unfold bytes Mem.slice
  rw [← hs]
  refine List.map_congr_left fun k hk => ?_
  simpa using hm k (List.mem_range.1 hk)

@[simp] theorem bytes_copy (b : Buf) (past : Mem) : (b.copy past).bytes = b.bytes :=
  bytes_ext rfl fun i hi => by simp only [size_copy] at hi; simp [copy, hi]

@[simp] theorem bytes_ofBytes (bs : List UInt8) (past : Mem) : (ofBytes bs past).bytes = bs := by
  refine List.ext_getElem (by simp) fun i h1 h2 => ?_
  simp [bytes, Mem.slice, ofBytes, h2]

theorem getElem_bytes (b : Buf) (i : Nat) (h : i < b.bytes.length) : b.bytes[i] = b.mem i := by
  simp [bytes, Mem.slice]

/-- A buffer is its bytes and what lies behind them. -/
theorem ofBytes_bytes (b : Buf) : ofBytes b.bytes b.mem = b := by
  have hm : (ofBytes b.bytes b.mem).mem = b.mem := by
    funext i
    by_cases hi : i < b.bytes.length
    · simp only [ofBytes, List.getElem?_eq_getElem hi, Option.getD_some, getElem_bytes]
    · simp only [ofBytes, List.getElem?_eq_none (Nat.le_of_not_lt hi), Option.getD_none]
  calc ofBytes b.bytes b.mem = ⟨b.bytes.length, (ofBytes b.bytes b.mem).mem⟩ := rfl
    _ = b := by rw [hm, length_bytes]

/-- A store inside the allocation replaces a stretch of its bytes. -/
theorem bytes_store (b : Buf) (off : Nat) (bs : List UInt8) (h : off + bs.length ≤ b.size) :
    (b.store off bs).bytes = b.bytes.take off ++ bs ++ b.bytes.drop (off + bs.length) := by
  have hl : (b.store off bs).bytes.length = (b.bytes.take off ++ bs ++ b.bytes.drop (off + bs.length)).length := by
    simp; omega
  refine List.ext_getElem hl fun i h1 h2 => ?_
  simp only [length_bytes, size_store] at h1
  rw [getElem_bytes, mem_store]
  simp only [List.getElem_append, List.length_take, List.length_append, length_bytes]
  have hmin : min off b.size = off := by omega
  by_cases hlo : i < off
  · rw [Mem.store_of_lt _ _ _ _ hlo]
    simp [hmin, hlo, getElem_bytes, show i < off + bs.length by omega]
  · by_cases hhi : i < off + bs.length
    · obtain ⟨k, rfl⟩ : ∃ k, i = off + k := ⟨i - off, by omega⟩
      have hk : k < bs.length := by omega
      rw [Mem.store_of_mem _ _ _ _ hk]
      simp only [hmin, hlo, hk, dif_neg, not_false_eq_true, Nat.add_lt_add_iff_left, dif_pos,
        Nat.add_sub_cancel_left, List.getD, List.getElem?_eq_getElem hk, Option.getD_some]
    · rw [Mem.store_of_ge _ _ _ _ (by omega)]
      have e : off + bs.length + (i - (off + bs.length)) = i := by omega
      simp [hmin, hhi, getElem_bytes, e]

/-- A store of as many bytes as there are leaves just these. -/
theorem bytes_store_all (b : Buf) {bs : List UInt8} (h : bs.length = b.size) : (b.store 0 bs).bytes = bs := by
  have hall : b.bytes.length ≤ 0 + bs.length := by
    rw [length_bytes]
    omega
  rw [bytes_store _ _ _ (by omega), List.take_zero, List.nil_append, List.drop_eq_nil_of_le hall, List.append_nil]

/-- The same bytes, whatever lies behind them. -/
structure Same (b c : Buf) : Prop where
  size : b.size = c.size
  mem : ∀ i, i < b.size → b.mem i = c.mem i

theorem Same.store {b c : Buf} (h : Same b c) (off : Nat) (bs : List UInt8) :
    Same (b.store off bs) (c.store off bs) where
  size := h.size
  mem i hi := by
    simp only [mem_store, Mem.store]
    split
    · rfl
    · exact h.mem i hi

theorem Same.bytes {b c : Buf} (h : Same b c) : b.bytes = c.bytes := bytes_ext h.size h.mem

theorem same_zeroed (n : Nat) (past past' : Mem) : Same (zeroed n past) (zeroed n past') where
  size := rfl
  mem i hi := by
    have hi : i < n := hi
    simp [zeroed, hi]

end Buf

/-- The memory of a finite list of bytes (zero past its end). -/
def memOf (bs : List UInt8) : Mem := fun i => bs.getD i 0

theorem memOf_bytes (b : Buf) (i : Nat) (h : i < b.size) : memOf b.bytes i = b.mem i := by
  simpa [memOf, Buf.bytes] using b.mem.getD_slice 0 b.size i h

theorem ofBytes_mem {bs : List UInt8} {past : Mem} {i : Nat} (h : i < bs.length) :
    (Buf.ofBytes bs past).mem i = memOf bs i := by
  simp [Buf.ofBytes, memOf, List.getD, h]

theorem ofBytes_u16 {bs : List UInt8} {past : Mem} {i : Nat} (h : i + 2 ≤ bs.length) :
    (Buf.ofBytes bs past).mem.u16 i = (memOf bs).u16 i :=
  Mem.u16_congr (ofBytes_mem (by omega)) (ofBytes_mem (by omega))

theorem ofBytes_u32 {bs : List UInt8} {past : Mem} {i : Nat} (h : i + 4 ≤ bs.length) :
    (Buf.ofBytes bs past).mem.u32 i = (memOf bs).u32 i :=
  Mem.u32_congr fun _ _ => ofBytes_mem (by omega)

end Memory
