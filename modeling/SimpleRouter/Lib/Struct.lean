import Mathlib.Data.List.Induction
import Mathlib.Algebra.BigOperators.Group.List.Basic
import Mathlib.Algebra.GroupWithZero.Nat
/-!
# Packed big-endian records

The formats of Python's `struct` that start with `>`: unsigned integers of one,
two and four bytes, and strings of a fixed size. A string shorter than its
field is filled up with NULs and a longer one is cut; an integer that does not
fit is an error, and so is a record of another length than its format's. What
`unpack` gives back is what was packed, the strings filled up or cut
(`unpack_pack`).
-/

namespace Struct

abbrev Bytes := List UInt8

/-! ## Big-endian numbers -/

/-- The last `width` digits of `n` in base 256, the least significant one last. -/
def be : Nat → Nat → Bytes
  | 0, _ => []
  | width + 1, n => be width (n / 256) ++ [.ofNat n]

def readBe (bs : Bytes) : Nat := bs.foldl (fun n b => 256 * n + b.toNat) 0

@[simp] theorem length_be (width n : Nat) : (be width n).length = width := by
  induction width generalizing n with
  | zero => rfl
  | succ width ih => simp [be, ih]

theorem readBe_snoc (bs : Bytes) (b : UInt8) : readBe (bs ++ [b]) = 256 * readBe bs + b.toNat := by
  simp [readBe]

theorem readBe_be {width n : Nat} (h : n < 256 ^ width) : readBe (be width n) = n := by
  induction width generalizing n with
  | zero =>
    rw [Nat.pow_zero] at h
    exact (Nat.lt_one_iff.1 h).symm
  | succ width ih =>
    have hd : n / 256 < 256 ^ width := by
      apply Nat.div_lt_of_lt_mul
      rwa [Nat.pow_succ, Nat.mul_comm] at h
    rw [be, readBe_snoc, ih hd, UInt8.toNat_ofNat']
    omega

theorem readBe_lt (bs : Bytes) : readBe bs < 256 ^ bs.length := by
  induction bs using List.reverseRecOn with
  | nil => exact Nat.one_pos
  | append_singleton bs b ih =>
    have hb := b.toNat_lt
    rw [readBe_snoc, List.length_append, List.length_singleton, Nat.pow_succ]
    omega

/-- The digits of the number read are the bytes it was read from. -/
theorem be_readBe (bs : Bytes) : be bs.length (readBe bs) = bs := by
  induction bs using List.reverseRecOn with
  | nil => rfl
  | append_singleton bs b ih =>
    have hb := b.toNat_lt
    have hdiv : (256 * readBe bs + b.toNat) / 256 = readBe bs := by omega
    have hlast : UInt8.ofNat (256 * readBe bs + b.toNat) = b := by
      apply UInt8.toNat_inj.1
      rw [UInt8.toNat_ofNat']
      omega
    rw [readBe_snoc, List.length_append, List.length_singleton, be, hdiv, ih, hlast]

/-- The digits of a number in two parts. -/
theorem be_append (k n hi lo : Nat) (h : lo < 256 ^ n) : be (k + n) (hi * 256 ^ n + lo) = be k hi ++ be n lo := by
  induction n generalizing lo with
  | zero =>
    obtain rfl : lo = 0 := by simpa using h
    simp [be]
  | succ n ih =>
    have hlo : lo / 256 < 256 ^ n := by
      apply Nat.div_lt_of_lt_mul
      rwa [Nat.pow_succ, Nat.mul_comm] at h
    have hdiv : (hi * 256 ^ (n + 1) + lo) / 256 = hi * 256 ^ n + lo / 256 := by
      rw [Nat.pow_succ, ← Nat.mul_assoc]
      omega
    have hlast : UInt8.ofNat (hi * 256 ^ (n + 1) + lo) = UInt8.ofNat lo := by
      apply UInt8.toNat_inj.1
      rw [UInt8.toNat_ofNat', UInt8.toNat_ofNat', Nat.pow_succ, ← Nat.mul_assoc]
      omega
    rw [← Nat.add_assoc, be, hdiv, ih (lo / 256) hlo, hlast, List.append_assoc]
    rfl

/-! ## Strings -/

/-- The `n` bytes of a string field. -/
def pad (n : Nat) (bs : Bytes) : Bytes := bs.take n ++ List.replicate (n - bs.length) 0

@[simp] theorem length_pad (n : Nat) (bs : Bytes) : (pad n bs).length = n := by
  simp only [pad, List.length_append, List.length_take, List.length_replicate]
  omega

theorem pad_of_le {n : Nat} {bs : Bytes} (h : bs.length ≤ n) : pad n bs = bs ++ List.replicate (n - bs.length) 0 := by
  rw [pad, List.take_of_length_le h]

/-- A string in a field that is longer is followed by a NUL. -/
theorem prefix_pad {n : Nat} {bs : Bytes} (h : bs.length < n) : bs ++ [0] <+: pad n bs := by
  obtain ⟨k, hk⟩ : ∃ k, n - bs.length = k + 1 := ⟨n - bs.length - 1, by omega⟩
  rw [pad_of_le (Nat.le_of_lt h), hk, List.replicate_succ]
  exact ⟨List.replicate k 0, by simp⟩

/-! ## Formats -/

/-- A field of a format, under its format character. -/
inductive Field where
  | B
  | H
  | I
  | s (size : Nat)
deriving DecidableEq

def Field.size : Field → Nat
  | B => 1
  | H => 2
  | I => 4
  | s n => n

inductive Value where
  | int (n : Int)
  | str (bs : Bytes)
deriving DecidableEq

/-- An unsigned field of `width` bytes. -/
def packInt (width : Nat) : Value → Option Bytes
  | .int n => if 0 ≤ n ∧ n < 256 ^ width then some (be width n.toNat) else none
  | .str _ => none

def Field.pack : Field → Value → Option Bytes
  | .s n, .str bs => some (pad n bs)
  | .s _, .int _ => none
  | .B, v => packInt 1 v
  | .H, v => packInt 2 v
  | .I, v => packInt 4 v

def Field.read : Field → Bytes → Value
  | .s _, bs => .str bs
  | .B, bs => .int (readBe bs)
  | .H, bs => .int (readBe bs)
  | .I, bs => .int (readBe bs)

/-- A value as its field holds it. -/
def Field.held : Field → Value → Value
  | .s n, .str bs => .str (pad n bs)
  | _, v => v

/-- `struct.calcsize`. -/
def calcsize (fmt : List Field) : Nat := (fmt.map Field.size).sum

/-- `struct.pack`; an error is `none`. -/
def pack : List Field → List Value → Option Bytes
  | [], [] => some []
  | f :: fs, v :: vs => do
    let bs ← f.pack v
    let rest ← pack fs vs
    pure (bs ++ rest)
  | [], _ :: _ => none
  | _ :: _, [] => none

def readAll : List Field → Bytes → List Value
  | [], _ => []
  | f :: fs, bs => f.read (bs.take f.size) :: readAll fs (bs.drop f.size)

/-- `struct.unpack`. -/
def unpack (fmt : List Field) (bs : Bytes) : Option (List Value) :=
  if bs.length = calcsize fmt then some (readAll fmt bs) else none

/-! ## Results of a loop that can fail -/

section Loops
variable {α β : Type} {f : α → Option β} {l : List α} {r : List β}

theorem length_mapM (h : l.mapM f = some r) : r.length = l.length := by
  induction l generalizing r with
  | nil => cases h; rfl
  | cons a l ih =>
    simp only [List.mapM_cons, Option.bind_eq_bind, Option.bind_eq_some_iff, Option.pure_def, Option.some.injEq] at h
    obtain ⟨b, -, bs, hbs, rfl⟩ := h
    rw [List.length_cons, List.length_cons, ih hbs]

/-- Each result is the one for its own place. -/
theorem getElem?_mapM (h : l.mapM f = some r) (i : Nat) : r[i]? = l[i]?.bind f := by
  induction l generalizing r i with
  | nil => cases h; rfl
  | cons a l ih =>
    simp only [List.mapM_cons, Option.bind_eq_bind, Option.bind_eq_some_iff, Option.pure_def, Option.some.injEq] at h
    obtain ⟨b, hb, bs, hbs, rfl⟩ := h
    cases i with
    | zero => simp [hb]
    | succ i => simpa using ih hbs i

/-- Each result is one for some element. -/
theorem mem_mapM (h : l.mapM f = some r) {b : β} (hb : b ∈ r) : ∃ a ∈ l, f a = some b := by
  obtain ⟨i, hi⟩ := List.mem_iff_getElem?.1 hb
  obtain ⟨a, ha, hab⟩ := Option.bind_eq_some_iff.1 ((getElem?_mapM h i).symm.trans hi)
  exact ⟨a, List.mem_of_getElem? ha, hab⟩

theorem mapM_exists (h : ∀ a ∈ l, ∃ b, f a = some b) : ∃ r, l.mapM f = some r := by
  induction l with
  | nil => exact ⟨[], rfl⟩
  | cons a l ih =>
    obtain ⟨b, hb⟩ := h a (by simp)
    obtain ⟨bs, hbs⟩ := ih fun a ha => h a (by simp [ha])
    exact ⟨b :: bs, by simp [hb, hbs]⟩

/-- A loop over the places of a list that finds at each what is there. -/
theorem mapM_range {g : Nat → Option β} (h : ∀ i b, r[i]? = some b → g i = some b) :
    (List.range r.length).mapM g = some r := by
  induction r using List.reverseRecOn with
  | nil => rfl
  | append_singleton r b ih =>
    have hr : ∀ i c, r[i]? = some c → g i = some c := by
      intro i c hc
      apply h
      rw [List.getElem?_append_left (List.getElem?_eq_some_iff.1 hc).1, hc]
    have hb : g r.length = some b := h r.length b (by simp)
    rw [List.length_append, List.length_singleton, List.range_succ, List.mapM_append, ih hr]
    simp [hb]

end Loops

/-! ## Round trips -/

theorem packInt_some {width : Nat} {v : Value} {bs : Bytes} (h : packInt width v = some bs) :
    bs.length = width ∧ .int (readBe bs) = v := by
  cases v with
  | str _ => cases h
  | int n =>
    rw [packInt] at h
    split at h
    · rename_i hn
      cases h
      have hlt : n.toNat < 256 ^ width := by
        apply (Int.toNat_lt hn.1).2
        rw [Int.natCast_pow]
        exact hn.2
      refine ⟨length_be _ _, ?_⟩
      rw [readBe_be hlt, Int.toNat_of_nonneg hn.1]
    · cases h

/-- A packed field has the field's size, and holds the value. -/
theorem Field.pack_some {f : Field} {v : Value} {bs : Bytes} (h : f.pack v = some bs) :
    bs.length = f.size ∧ f.read bs = f.held v := by
  cases f with
  | s n =>
    cases v with
    | int _ => cases h
    | str _ => cases h; exact ⟨length_pad _ _, rfl⟩
  | B => exact packInt_some h
  | H => exact packInt_some h
  | I => exact packInt_some h

theorem pack_cons {f : Field} {fs : List Field} {v : Value} {vs : List Value} {bs : Bytes}
    (h : pack (f :: fs) (v :: vs) = some bs) :
    ∃ head rest, f.pack v = some head ∧ pack fs vs = some rest ∧ bs = head ++ rest := by
  simp only [pack, Option.bind_eq_bind, Option.bind_eq_some_iff, Option.pure_def, Option.some.injEq] at h
  obtain ⟨head, hhead, rest, hrest, rfl⟩ := h
  exact ⟨head, rest, hhead, hrest, rfl⟩

theorem length_pack {fmt : List Field} {vs : List Value} {bs : Bytes} (h : pack fmt vs = some bs) :
    bs.length = calcsize fmt := by
  induction fmt generalizing vs bs with
  | nil =>
    cases vs with
    | nil => cases h; rfl
    | cons => cases h
  | cons f fs ih =>
    cases vs with
    | nil => cases h
    | cons v vs =>
      obtain ⟨head, rest, hhead, hrest, rfl⟩ := pack_cons h
      rw [List.length_append, (Field.pack_some hhead).1, ih hrest, calcsize, calcsize, List.map_cons, List.sum_cons]

/-- Unpacking the front of a message gives back what was packed there, whatever follows. -/
theorem readAll_pack {fmt : List Field} {vs : List Value} {bs : Bytes} (h : pack fmt vs = some bs) (tail : Bytes) :
    readAll fmt (bs ++ tail) = List.zipWith Field.held fmt vs := by
  induction fmt generalizing vs bs with
  | nil => rfl
  | cons f fs ih =>
    cases vs with
    | nil => cases h
    | cons v vs =>
      obtain ⟨head, rest, hhead, hrest, rfl⟩ := pack_cons h
      obtain ⟨hlen, hread⟩ := Field.pack_some hhead
      rw [readAll, List.append_assoc, ← hlen, List.take_left, List.drop_left, hread, ih hrest]
      rfl

theorem unpack_pack {fmt : List Field} {vs : List Value} {bs : Bytes} (h : pack fmt vs = some bs) :
    unpack fmt bs = some (List.zipWith Field.held fmt vs) := by
  rw [unpack, if_pos (length_pack h), ← readAll_pack h [], List.append_nil]

/-- The same with a tail behind the record, which is cut off first. -/
theorem unpack_take {fmt : List Field} {vs : List Value} {bs : Bytes} (h : pack fmt vs = some bs) (tail : Bytes) :
    unpack fmt ((bs ++ tail).take (calcsize fmt)) = some (List.zipWith Field.held fmt vs) ∧
      (bs ++ tail).drop (calcsize fmt) = tail := by
  rw [← length_pack h, List.take_left, List.drop_left]
  exact ⟨unpack_pack h, rfl⟩

/-- The length of a sequence of records of one size. -/
theorem length_flatten_records {size : Nat} {recs : List Bytes} (h : ∀ r ∈ recs, r.length = size) :
    recs.flatten.length = size * recs.length := by
  induction recs with
  | nil => rfl
  | cons r rs ih =>
    rw [List.flatten_cons, List.length_append, h r (by simp), ih fun r hr => h r (by simp [hr]), List.length_cons]
    rw [Nat.mul_succ, Nat.add_comm]

/-- The `i`th record of a sequence of records of one size is `size * i` bytes in. -/
theorem drop_flatten_records {size : Nat} {recs : List Bytes} (h : ∀ r ∈ recs, r.length = size) {i : Nat} {r : Bytes}
    (hi : recs[i]? = some r) (tail : Bytes) :
    ∃ rest, (recs.flatten ++ tail).drop (size * i) = r ++ rest := by
  induction recs generalizing i with
  | nil => cases hi
  | cons q qs ih =>
    cases i with
    | zero =>
      obtain rfl : q = r := by simpa using hi
      exact ⟨qs.flatten ++ tail, by simp⟩
    | succ i =>
      obtain ⟨rest, hrest⟩ := ih (fun r hr => h r (by simp [hr])) (i := i) (by simpa using hi)
      refine ⟨rest, ?_⟩
      rw [← hrest, List.flatten_cons, List.append_assoc, Nat.mul_succ, Nat.add_comm, ← List.drop_drop,
        ← h q (by simp), List.drop_left]

/-! ## Records in a stream -/

/-- Cut off after `n` bytes, a stream that starts with `body` falls into `body` and the rest. -/
def Delimits (n : Nat) (body : Bytes) : Prop := ∀ rest, (body ++ rest).take n = body ∧ (body ++ rest).drop n = rest

theorem delimits_iff {n : Nat} {body : Bytes} : Delimits n body ↔ n = body.length := by
  constructor
  · intro h
    have htake := congrArg List.length (h []).1
    have hdrop := congrArg List.length (h [0]).2
    simp only [List.append_nil, List.length_take, List.length_drop, List.length_append, List.length_singleton] at htake hdrop
    omega
  · rintro rfl rest
    exact ⟨List.take_left, List.drop_left⟩

end Struct
