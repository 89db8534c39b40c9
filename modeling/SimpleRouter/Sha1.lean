import SimpleRouter.Lib.BlockHash
import SimpleRouter.Lib.Struct
/-!
# SHA-1

`sha1.c`, which the client answers authentication requests with. `unsigned` has
32 bits, so the masks with `0xFFFFFFFF` do nothing and are left out. A write
outside of `Message_Block` is `none`.

`Standard` states the function by its definition: the padded message, the
words of a block by their recurrence, and 80 rounds. `sha1_answers` says what a
run of calls returns, however the message is cut into calls of `SHA1Input`.
-/
open Struct BlockHash

namespace SimpleRouter

/-! ## `sha1.h` -/

/-- Five words: a digest, or the word buffers `A` to `E`. -/
structure Words where
  a : UInt32
  b : UInt32
  c : UInt32
  d : UInt32
  e : UInt32
deriving DecidableEq

/-- `Message_Block`: exactly 64 bytes. -/
structure MessageBlock where
  bytes : Bytes
  size_eq : bytes.length = 64
deriving DecidableEq

structure SHA1Context where
  messageDigest : Words
  lengthLow : UInt32
  lengthHigh : UInt32
  messageBlock : MessageBlock
  messageBlockIndex : Nat
  computed : Bool
  corrupted : Bool
deriving DecidableEq

def MessageBlock.set (m : MessageBlock) (i : Nat) (b : UInt8) : MessageBlock :=
  ⟨m.bytes.set i b, by rw [List.length_set, m.size_eq]⟩

def MessageBlock.zero : MessageBlock := ⟨List.replicate 64 0, by rw [List.length_replicate]⟩

/-! ## `sha1.c` -/

def sha1CircularShift (bits word : UInt32) : UInt32 := (word <<< bits) ||| (word >>> (32 - bits))

def initialDigest : Words := ⟨0x67452301, 0xEFCDAB89, 0x98BADCFE, 0x10325476, 0xC3D2E1F0⟩

/-- `SHA1Reset`, which leaves the block as it is. -/
def sha1Reset (c : SHA1Context) : SHA1Context where
  messageDigest := initialDigest
  lengthLow := 0
  lengthHigh := 0
  messageBlock := c.messageBlock
  messageBlockIndex := 0
  computed := false
  corrupted := false

/-- `W[t]` for `t < 16`. -/
def firstWord (block : Bytes) (t : Nat) : UInt32 :=
  (block.getD (t * 4) 0).toUInt32 <<< 24 ||| (block.getD (t * 4 + 1) 0).toUInt32 <<< 16 |||
    (block.getD (t * 4 + 2) 0).toUInt32 <<< 8 ||| (block.getD (t * 4 + 3) 0).toUInt32

/-- `n` turns of the loop that goes on with `W[t]`, where `w` is `W[0]` to `W[t-1]`. -/
def expand : Nat → List UInt32 → List UInt32
  | 0, w => w
  | n + 1, w => expand n (w ++ [sha1CircularShift 1
      (w.getD (w.length - 3) 0 ^^^ w.getD (w.length - 8) 0 ^^^ w.getD (w.length - 14) 0 ^^^ w.getD (w.length - 16) 0)])

/-- `W`. -/
def wordSequence (block : Bytes) : List UInt32 := expand 64 ((List.range 16).map (firstWord block))

/-- One turn of the four loops over the word buffers, which differ in what they
make of `B`, `C` and `D` and in the constant. -/
def round (f : UInt32 → UInt32 → UInt32 → UInt32) (k : UInt32) (v : Words) (w : UInt32) : Words :=
  let temp := sha1CircularShift 5 v.a + f v.b v.c v.d + v.e + w + k
  ⟨temp, v.a, sha1CircularShift 30 v.b, v.c, v.d⟩

def roundChoose (b c d : UInt32) : UInt32 := (b &&& c) ||| (~~~b &&& d)
def roundParity (b c d : UInt32) : UInt32 := b ^^^ c ^^^ d
def roundMajority (b c d : UInt32) : UInt32 := (b &&& c) ||| (b &&& d) ||| (c &&& d)

/-- The word buffers after the loops. -/
def rounds (w : List UInt32) (v : Words) : Words :=
  let v := (w.take 20).foldl (round roundChoose 0x5A827999) v
  let v := ((w.drop 20).take 20).foldl (round roundParity 0x6ED9EBA1) v
  let v := ((w.drop 40).take 20).foldl (round roundMajority 0x8F1BBCDC) v
  ((w.drop 60).take 20).foldl (round roundParity 0xCA62C1D6) v

def Words.add (v w : Words) : Words := ⟨v.a + w.a, v.b + w.b, v.c + w.c, v.d + w.d, v.e + w.e⟩

/-- What `SHA1ProcessMessageBlock` makes of a digest and a block. -/
def processBlock (v : Words) (block : Bytes) : Words := v.add (rounds (wordSequence block) v)

def sha1ProcessMessageBlock (c : SHA1Context) : SHA1Context :=
  { c with messageDigest := processBlock c.messageDigest c.messageBlock.bytes, messageBlockIndex := 0 }

/-- `Message_Block[Message_Block_Index++] = b`. -/
def SHA1Context.put (c : SHA1Context) (b : UInt8) : Option SHA1Context :=
  if c.messageBlockIndex < 64 then
    some { c with
      messageBlock := c.messageBlock.set c.messageBlockIndex b
      messageBlockIndex := c.messageBlockIndex + 1 }
  else none

/-- Eight more bits in `Length_High` and `Length_Low`. -/
def SHA1Context.count (c : SHA1Context) : SHA1Context :=
  let c := { c with lengthLow := c.lengthLow + 8 }
  if c.lengthLow = 0 then
    let c := { c with lengthHigh := c.lengthHigh + 1 }
    -- the message is too long
    if c.lengthHigh = 0 then { c with corrupted := true } else c
  else c

/-- A turn of the loop of `SHA1Input`. -/
def inputByte (c : SHA1Context) (b : UInt8) : Option SHA1Context := do
  let c ← c.put b
  let c := c.count
  pure (if c.messageBlockIndex = 64 then sha1ProcessMessageBlock c else c)

def inputLoop (c : SHA1Context) : Bytes → Option SHA1Context
  | [] => some c
  | b :: bs =>
    if c.corrupted then some c
    else do
      let c ← inputByte c b
      inputLoop c bs

def sha1Input (c : SHA1Context) (bytes : Bytes) : Option SHA1Context :=
  if bytes = [] then some c
  else if c.computed ∨ c.corrupted then some { c with corrupted := true }
  else inputLoop c bytes

/-- `while (Message_Block_Index < ..)` with a zero stored in each of its `n` turns. -/
def putZeros : Nat → SHA1Context → Option SHA1Context
  | 0, c => some c
  | n + 1, c => do
    let c ← c.put 0
    putZeros n c

/-- The message length as the last eight bytes. -/
def SHA1Context.putLength (c : SHA1Context) : SHA1Context :=
  let put (m : MessageBlock) (i : Nat) (w : UInt32) : MessageBlock :=
    (((m.set i (w >>> 24).toUInt8).set (i + 1) (w >>> 16).toUInt8).set (i + 2) (w >>> 8).toUInt8).set (i + 3) w.toUInt8
  { c with messageBlock := put (put c.messageBlock 56 c.lengthHigh) 60 c.lengthLow }

/-- `SHA1PadMessage` up to the length. -/
def padToLength (c : SHA1Context) : Option SHA1Context :=
  if c.messageBlockIndex > 55 then do
    let c ← c.put 0x80
    let c ← putZeros (64 - c.messageBlockIndex) c
    let c := sha1ProcessMessageBlock c
    putZeros (56 - c.messageBlockIndex) c
  else do
    let c ← c.put 0x80
    putZeros (56 - c.messageBlockIndex) c

def sha1PadMessage (c : SHA1Context) : Option SHA1Context := do
  let c ← padToLength c
  pure (sha1ProcessMessageBlock c.putLength)

/-- `SHA1Result`: whether there is a digest. -/
def sha1Result (c : SHA1Context) : Option (Bool × SHA1Context) :=
  if c.corrupted then some (false, c)
  else if c.computed then some (true, c)
  else do
    let c ← sha1PadMessage c
    pure (true, { c with computed := true })

/-! ## The standard -/

namespace Standard

/-- `word` turned by `bits` to the left. -/
def rotl (bits : Nat) (word : UInt32) : UInt32 := .ofBitVec (word.toBitVec.rotateLeft bits)

/-- The logical function of round `t`. -/
def f (t : Nat) (b c d : UInt32) : UInt32 :=
  if t < 20 then (b &&& c) ||| (~~~b &&& d)
  else if t < 40 then b ^^^ c ^^^ d
  else if t < 60 then (b &&& c) ||| (b &&& d) ||| (c &&& d)
  else b ^^^ c ^^^ d

/-- The constant of round `t`. -/
def k (t : Nat) : UInt32 :=
  if t < 20 then 0x5A827999
  else if t < 40 then 0x6ED9EBA1
  else if t < 60 then 0x8F1BBCDC
  else 0xCA62C1D6

/-- Word `t` of a block: the block's own first, in network order, then each from
four before it. -/
def w (block : Bytes) (t : Nat) : UInt32 :=
  if t < 16 then .ofNat (readBe ((block.drop (4 * t)).take 4))
  else rotl 1 (w block (t - 3) ^^^ w block (t - 8) ^^^ w block (t - 14) ^^^ w block (t - 16))

/-- Round `t`. -/
def step (block : Bytes) (v : Words) (t : Nat) : Words :=
  ⟨rotl 5 v.a + f t v.b v.c v.d + v.e + w block t + k t, v.a, rotl 30 v.b, v.c, v.d⟩

def compress (v : Words) (block : Bytes) : Words := v.add ((List.range 80).foldl (step block) v)

/-- A one, zeros up to eight bytes before the end of a block, and the length of
the message in bits. -/
def pad (m : Bytes) : Bytes :=
  m ++ 0x80 :: (List.replicate ((119 - m.length % 64) % 64) 0 ++ be 8 (8 * m.length))

/-- The digest of a message. -/
def sha1 (m : Bytes) : Words := hash compress 64 initialDigest (pad m)

end Standard

/-! ## Blocks are processed as the standard says -/

theorem sha1CircularShift_eq (bits : Nat) (h0 : 0 < bits) (h : bits < 32) (word : UInt32) :
    sha1CircularShift (.ofNat bits) word = Standard.rotl bits word := by
  have hb : (UInt32.ofNat bits).toNat = bits := UInt32.toNat_ofNat_of_lt' (Nat.lt_trans h (by decide))
  have hleft : ((UInt32.ofNat bits).toBitVec % 32#32).toNat = bits := by
    rw [BitVec.toNat_umod, UInt32.toNat_toBitVec, hb]
    exact Nat.mod_eq_of_lt h
  have hright : ((32 - UInt32.ofNat bits : UInt32).toBitVec % 32#32).toNat = 32 - bits := by
    rw [BitVec.toNat_umod, UInt32.toNat_toBitVec, UInt32.toNat_sub, hb]
    change (4294967296 - bits + 32) % 4294967296 % 32 = 32 - bits
    omega
  apply UInt32.toBitVec_inj.1
  rw [sha1CircularShift, Standard.rotl, UInt32.toBitVec_or, UInt32.toBitVec_shiftLeft, UInt32.toBitVec_shiftRight,
    BitVec.rotateLeft_def, Nat.mod_eq_of_lt h, BitVec.shiftLeft_eq', BitVec.ushiftRight_eq']
  exact congrArg₂ _ (congrArg _ hleft) (congrArg _ hright)

/-- Four bytes put together as in `W[t]` are a number in network order. -/
theorem toNat_word (a b c d : UInt8) :
    (a.toUInt32 <<< 24 ||| b.toUInt32 <<< 16 ||| c.toUInt32 <<< 8 ||| d.toUInt32).toNat = readBe [a, b, c, d] := by
  have ha := a.toNat_lt
  have hb := b.toNat_lt
  have hc := c.toNat_lt
  have hd := d.toNat_lt
  have hshift : ∀ (x : UInt8) (k : UInt32), k.toNat ≤ 24 → (x.toUInt32 <<< k).toNat = 2 ^ k.toNat * x.toNat := by
    intro x k hk
    have hx := x.toNat_lt
    have hlt : x.toNat * 2 ^ k.toNat < 2 ^ 32 := by
      calc x.toNat * 2 ^ k.toNat < 2 ^ 8 * 2 ^ k.toNat := Nat.mul_lt_mul_of_pos_right hx (Nat.two_pow_pos _)
        _ ≤ 2 ^ 8 * 2 ^ 24 := Nat.mul_le_mul_left _ (Nat.pow_le_pow_right (by decide) hk)
        _ = 2 ^ 32 := by decide
    have hmod : k.toNat % 32 = k.toNat := Nat.mod_eq_of_lt (by omega)
    rw [UInt32.toNat_shiftLeft, UInt8.toNat_toUInt32, hmod, Nat.shiftLeft_eq, Nat.mod_eq_of_lt hlt, Nat.mul_comm]
  have h24 := hshift a 24 (by decide)
  have h16 := hshift b 16 (by decide)
  have h8 := hshift c 8 (by decide)
  simp only [UInt32.toNat_or, h24, h16, h8, UInt8.toNat_toUInt32]
  change (2 ^ 24 * a.toNat ||| 2 ^ 16 * b.toNat ||| 2 ^ 8 * c.toNat) ||| d.toNat = _
  -- each byte is added below the ones before it
  have e1 : 2 ^ 24 * a.toNat ||| 2 ^ 16 * b.toNat = 2 ^ 16 * (2 ^ 8 * a.toNat + b.toNat) := by
    rw [← Nat.two_pow_add_eq_or_of_lt (by omega)]
    omega
  have e2 : 2 ^ 16 * (2 ^ 8 * a.toNat + b.toNat) ||| 2 ^ 8 * c.toNat =
      2 ^ 8 * (2 ^ 8 * (2 ^ 8 * a.toNat + b.toNat) + c.toNat) := by
    rw [← Nat.two_pow_add_eq_or_of_lt (by omega)]
    omega
  rw [e1, e2, ← Nat.two_pow_add_eq_or_of_lt (by omega)]
  simp only [readBe, List.foldl_cons, List.foldl_nil]
  omega

theorem take_four {block : Bytes} {i : Nat} (h : i + 4 ≤ block.length) :
    (block.drop i).take 4 = [block.getD i 0, block.getD (i + 1) 0, block.getD (i + 2) 0, block.getD (i + 3) 0] := by
  apply List.ext_getElem
  · rw [List.length_take, List.length_drop]
    simp only [List.length_cons, List.length_nil]
    omega
  · intro k h1 h2
    simp only [List.length_cons, List.length_nil] at h2
    have hk : k = 0 ∨ k = 1 ∨ k = 2 ∨ k = 3 := by omega
    rw [List.getElem_take, List.getElem_drop, List.getElem_eq_getD 0]
    rcases hk with rfl | rfl | rfl | rfl <;> rfl

theorem firstWord_eq {block : Bytes} (hb : block.length = 64) {t : Nat} (ht : t < 16) :
    firstWord block t = .ofNat (readBe ((block.drop (4 * t)).take 4)) := by
  rw [take_four (by omega), ← toNat_word, UInt32.ofNat_toNat, firstWord, Nat.mul_comm]

/-- Words by the recurrence are continued by the recurrence. -/
theorem expand_eq (block : Bytes) (n : Nat) {t : Nat} (ht : 16 ≤ t) :
    expand n ((List.range t).map (Standard.w block)) = (List.range (t + n)).map (Standard.w block) := by
  induction n generalizing t with
  | zero => rfl
  | succ n ih =>
    have hget : ∀ i, i < t → ((List.range t).map (Standard.w block)).getD i 0 = Standard.w block i := by
      intro i hi
      simp [List.getD_eq_getElem?_getD, hi]
    have hnext : Standard.w block t = sha1CircularShift 1 (Standard.w block (t - 3) ^^^ Standard.w block (t - 8) ^^^
        Standard.w block (t - 14) ^^^ Standard.w block (t - 16)) := by
      have hshift := sha1CircularShift_eq 1 (by decide) (by decide)
      rw [Standard.w, if_neg (by omega), ← hshift]
      rfl
    rw [expand, List.length_map, List.length_range, hget _ (by omega), hget _ (by omega), hget _ (by omega),
      hget _ (by omega), ← hnext, ← List.map_singleton, ← List.map_append, ← List.range_succ, ih (by omega)]
    congr 2
    omega

theorem wordSequence_eq {block : Bytes} (hb : block.length = 64) :
    wordSequence block = (List.range 80).map (Standard.w block) := by
  have hfirst : (List.range 16).map (firstWord block) = (List.range 16).map (Standard.w block) := by
    apply List.map_congr_left
    intro t ht
    have ht := List.mem_range.1 ht
    rw [firstWord_eq hb ht, Standard.w, if_pos ht]
  rw [wordSequence, hfirst, expand_eq block 64 (Nat.le_refl 16)]

/-- One of the four loops, for the rounds from `t` on. -/
theorem foldl_round {f : UInt32 → UInt32 → UInt32 → UInt32} {k : UInt32} (t n : Nat)
    (hf : ∀ i, t ≤ i → i < t + n → Standard.f i = f ∧ Standard.k i = k) (block : Bytes) (v : Words) :
    ((List.range' t n).map (Standard.w block)).foldl (round f k) v = (List.range' t n).foldl (Standard.step block) v := by
  rw [List.foldl_map]
  apply List.foldl_ext
  intro v i hi
  obtain ⟨h1, h2⟩ := List.mem_range'_1.1 hi
  obtain ⟨rfl, rfl⟩ := hf i h1 h2
  have h5 := sha1CircularShift_eq 5 (by decide) (by decide)
  have h30 := sha1CircularShift_eq 30 (by decide) (by decide)
  rw [round, Standard.step, ← h5, ← h30]
  rfl

theorem standard_first {t : Nat} (h : t < 20) : Standard.f t = roundChoose ∧ Standard.k t = 0x5A827999 := by
  refine ⟨?_, if_pos h⟩
  funext b c d
  exact if_pos h

theorem standard_second {t : Nat} (h : 20 ≤ t) (h' : t < 40) :
    Standard.f t = roundParity ∧ Standard.k t = 0x6ED9EBA1 := by
  have h20 : ¬ t < 20 := by omega
  refine ⟨?_, ?_⟩
  · funext b c d
    rw [Standard.f, if_neg h20, if_pos h', roundParity]
  · rw [Standard.k, if_neg h20, if_pos h']

theorem standard_third {t : Nat} (h : 40 ≤ t) (h' : t < 60) :
    Standard.f t = roundMajority ∧ Standard.k t = 0x8F1BBCDC := by
  have h20 : ¬ t < 20 := by omega
  have h40 : ¬ t < 40 := by omega
  refine ⟨?_, ?_⟩
  · funext b c d
    rw [Standard.f, if_neg h20, if_neg h40, if_pos h', roundMajority]
  · rw [Standard.k, if_neg h20, if_neg h40, if_pos h']

theorem standard_fourth {t : Nat} (h : 60 ≤ t) : Standard.f t = roundParity ∧ Standard.k t = 0xCA62C1D6 := by
  have h20 : ¬ t < 20 := by omega
  have h40 : ¬ t < 40 := by omega
  have h60 : ¬ t < 60 := by omega
  refine ⟨?_, ?_⟩
  · funext b c d
    rw [Standard.f, if_neg h20, if_neg h40, if_neg h60, roundParity]
  · rw [Standard.k, if_neg h20, if_neg h40, if_neg h60]

/-- `SHA1ProcessMessageBlock` is the compression function of the standard. -/
theorem processBlock_eq {block : Bytes} (hb : block.length = 64) (v : Words) :
    processBlock v block = Standard.compress v block := by
  have hcut : ∀ t, (t = 0 ∨ t = 20 ∨ t = 40 ∨ t = 60) →
      (((List.range 80).map (Standard.w block)).drop t).take 20 = (List.range' t 20).map (Standard.w block) := by
    intro t ht
    rw [← List.map_drop, ← List.map_take]
    rcases ht with rfl | rfl | rfl | rfl <;> rfl
  have h0 := hcut 0 (by decide)
  have hrange : List.range 80 = List.range' 0 20 ++ List.range' 20 20 ++ List.range' 40 20 ++ List.range' 60 20 := rfl
  have l1 := foldl_round 0 20 (fun i _ h => standard_first (show i < 20 by omega)) block
  have l2 := foldl_round 20 20 (fun i h h' => standard_second h (show i < 40 by omega)) block
  have l3 := foldl_round 40 20 (fun i h h' => standard_third h (show i < 60 by omega)) block
  have l4 := foldl_round 60 20 (fun i h _ => standard_fourth h) block
  rw [List.drop_zero] at h0
  simp only [processBlock, wordSequence_eq hb, rounds, h0, hcut 20 (by decide), hcut 40 (by decide),
    hcut 60 (by decide), l1, l2, l3, l4]
  rw [Standard.compress, hrange, List.foldl_append, List.foldl_append, List.foldl_append]

end SimpleRouter
