import Mathlib.Data.List.Induction
/-!
# Hashing block by block

A compression function takes a chaining value and a block of `size` letters to
the next chaining value. A message is hashed by padding it to whole blocks and
folding the compression function over them. `absorb` does so one letter at a
time, with what there is of a block kept aside, so that a message may arrive in
pieces; `absorb_blocks` says that this comes to the fold.

`collision_within` is the reduction this construction is made for: two messages
that are hashed to the same value, but padded to different blocks of which
neither list ends the other, take the compression function to one value from
two different inputs, and both inputs occur while the two are hashed.
-/

namespace BlockHash

variable {σ α : Type} (compress : σ → List α → σ) (size : Nat)

/-! ## One letter at a time -/

/-- A chaining value, and the part of the next block that is there. -/
def push (p : σ × List α) (a : α) : σ × List α :=
  if p.2.length + 1 = size then (compress p.1 (p.2 ++ [a]), []) else (p.1, p.2 ++ [a])

def absorb (p : σ × List α) (l : List α) : σ × List α := l.foldl (push compress size) p

@[simp] theorem absorb_nil (p : σ × List α) : absorb compress size p [] = p := rfl

@[simp] theorem absorb_cons (p : σ × List α) (a : α) (l : List α) :
    absorb compress size p (a :: l) = absorb compress size (push compress size p a) l := rfl

theorem absorb_append (p : σ × List α) (l l' : List α) :
    absorb compress size p (l ++ l') = absorb compress size (absorb compress size p l) l' := List.foldl_append

variable {compress size}

/-- What does not fill a block is kept. -/
theorem absorb_short {p : σ × List α} {l : List α} (h : p.2.length + l.length < size) :
    absorb compress size p l = (p.1, p.2 ++ l) := by
  induction l generalizing p with
  | nil => simp
  | cons a l ih =>
    rw [List.length_cons] at h
    have hne : p.2.length + 1 ≠ size := by omega
    have hl : (p.2 ++ [a]).length + l.length < size := by
      rw [List.length_append, List.length_singleton]
      omega
    rw [absorb_cons, push, if_neg hne, ih hl, List.append_assoc, List.singleton_append]

/-- What fills a block is compressed. -/
theorem absorb_full {p : σ × List α} {l : List α} (hp : p.2.length < size) (h : p.2.length + l.length = size) :
    absorb compress size p l = (compress p.1 (p.2 ++ l), []) := by
  rcases List.eq_nil_or_concat l with rfl | ⟨l, a, rfl⟩
  · rw [List.length_nil] at h
    omega
  · rw [List.concat_eq_append] at h ⊢
    rw [List.length_append, List.length_singleton] at h
    have hlen : (p.2 ++ l).length + 1 = size := by
      rw [List.length_append]
      omega
    have hshort : absorb compress size p l = (p.1, p.2 ++ l) := absorb_short (by omega)
    rw [absorb_append, hshort, absorb_cons, absorb_nil, push, if_pos hlen, List.append_assoc]

theorem absorb_blocks (hsize : 0 < size) (s : σ) {bs : List (List α)} (h : ∀ b ∈ bs, b.length = size) :
    absorb compress size (s, []) bs.flatten = (bs.foldl compress s, []) := by
  induction bs generalizing s with
  | nil => rfl
  | cons b bs ih =>
    have hb := h b List.mem_cons_self
    have hbs : ∀ b' ∈ bs, b'.length = size := fun b' hb' => h b' (List.mem_cons_of_mem _ hb')
    have hfull : absorb compress size (s, []) b = (compress s b, []) := by
      rw [absorb_full (by simpa using hsize) (by simpa using hb), List.nil_append]
    rw [List.flatten_cons, absorb_append, hfull, ih _ hbs, List.foldl_cons]

theorem length_push {p : σ × List α} (hp : p.2.length < size) (a : α) :
    (push compress size p a).2.length = (p.2.length + 1) % size := by
  unfold push
  by_cases h : p.2.length + 1 = size
  · rw [if_pos h, h, Nat.mod_self, List.length_nil]
  · have hlt : p.2.length + 1 < size := by omega
    rw [if_neg h, Nat.mod_eq_of_lt hlt, List.length_append, List.length_singleton]

/-- How much of a block is there: what is left of the letters when whole blocks
are taken away. -/
theorem length_absorb {p : σ × List α} (hp : p.2.length < size) (l : List α) :
    (absorb compress size p l).2.length = (p.2.length + l.length) % size := by
  induction l generalizing p with
  | nil => rw [absorb_nil, List.length_nil, Nat.add_zero, Nat.mod_eq_of_lt hp]
  | cons a l ih =>
    have hlen := @length_push _ _ compress _ _ hp a
    have hlt : (push compress size p a).2.length < size := by
      rw [hlen]
      exact Nat.mod_lt _ (by omega)
    rw [absorb_cons, ih hlt, hlen, Nat.mod_add_mod, List.length_cons]
    congr 1
    omega

/-! ## Blocks of a list -/

/-- The first `n` blocks of a list. -/
def take (size : Nat) : Nat → List α → List (List α)
  | 0, _ => []
  | n + 1, l => l.take size :: take size n (l.drop size)

/-- The blocks of a list. -/
def blocks (size : Nat) (l : List α) : List (List α) := take size (l.length / size) l

theorem take_spec {n : Nat} {l : List α} (h : l.length = size * n) :
    (∀ b ∈ take size n l, b.length = size) ∧ (take size n l).flatten = l := by
  induction n generalizing l with
  | zero =>
    obtain rfl := List.length_eq_zero_iff.1 h
    exact ⟨fun b hb => absurd hb List.not_mem_nil, rfl⟩
  | succ n ih =>
    rw [Nat.mul_succ] at h
    obtain ⟨ih1, ih2⟩ := @ih (l.drop size) (by rw [List.length_drop]; omega)
    refine ⟨?_, ?_⟩
    · intro b hb
      rcases List.mem_cons.1 hb with rfl | hb
      · rw [List.length_take]
        omega
      · exact ih1 b hb
    · rw [take, List.flatten_cons, ih2, List.take_append_drop]

theorem length_blocks (hsize : 0 < size) {l : List α} (h : size ∣ l.length) : ∀ b ∈ blocks size l, b.length = size := by
  obtain ⟨n, hn⟩ := h
  rw [blocks, hn, Nat.mul_div_cancel_left _ hsize]
  exact (take_spec hn).1

theorem flatten_blocks (hsize : 0 < size) {l : List α} (h : size ∣ l.length) : (blocks size l).flatten = l := by
  obtain ⟨n, hn⟩ := h
  rw [blocks, hn, Nat.mul_div_cancel_left _ hsize]
  exact (take_spec hn).2

/-! ## The hash of a padded message -/

/-- The value a list of whole blocks is hashed to from `iv`. -/
def hash (compress : σ → List α → σ) (size : Nat) (iv : σ) (l : List α) : σ := (blocks size l).foldl compress iv

/-- One letter at a time, in whatever pieces, comes to the same. -/
theorem absorb_hash (hsize : 0 < size) (iv : σ) {l : List α} (h : size ∣ l.length) :
    absorb compress size (iv, []) l = (hash compress size iv l, []) := by
  have hb := @absorb_blocks _ _ compress _ hsize iv _ (length_blocks hsize h)
  rwa [flatten_blocks hsize h] at hb

/-! ## Collisions -/

/-- `compress` has one value at two different inputs, which occur while `bs` and
while `bs'` are folded over. -/
def CollisionWithin (compress : σ → List α → σ) (iv : σ) (bs bs' : List (List α)) : Prop :=
  ∃ pre b post pre' b' post', bs = pre ++ b :: post ∧ bs' = pre' ++ b' :: post' ∧
    (pre.foldl compress iv, b) ≠ (pre'.foldl compress iv, b') ∧
    compress (pre.foldl compress iv) b = compress (pre'.foldl compress iv) b'

theorem CollisionWithin.snoc {iv : σ} {bs bs' : List (List α)} (h : CollisionWithin compress iv bs bs')
    (c c' : List α) : CollisionWithin compress iv (bs ++ [c]) (bs' ++ [c']) := by
  obtain ⟨pre, b, post, pre', b', post', rfl, rfl, hne, heq⟩ := h
  exact ⟨pre, b, post ++ [c], pre', b', post' ++ [c'], by simp, by simp, hne, heq⟩

/-- From the last block back: either the blocks agree as far as both go, or the
chaining values first agree where the inputs differ. -/
theorem suffix_or_collision (iv : σ) {bs bs' : List (List α)} (h : bs.foldl compress iv = bs'.foldl compress iv) :
    bs <:+ bs' ∨ bs' <:+ bs ∨ CollisionWithin compress iv bs bs' := by
  induction bs using List.reverseRecOn generalizing bs' with
  | nil => exact .inl (List.nil_suffix)
  | append_singleton bs b ih =>
    rcases List.eq_nil_or_concat bs' with rfl | ⟨bs', b', rfl⟩
    · exact .inr (.inl List.nil_suffix)
    · rw [List.concat_eq_append] at h ⊢
      simp only [List.foldl_append, List.foldl_cons, List.foldl_nil] at h
      by_cases heq : (bs.foldl compress iv, b) = (bs'.foldl compress iv, b')
      · obtain ⟨hfold, rfl⟩ := Prod.mk.inj heq
        rcases ih hfold with ⟨t, rfl⟩ | ⟨t, rfl⟩ | hc
        · exact .inl ⟨t, by rw [List.append_assoc]⟩
        · exact .inr (.inl ⟨t, by rw [List.append_assoc]⟩)
        · exact .inr (.inr (hc.snoc b b))
      · exact .inr (.inr ⟨bs, b, [], bs', b', [], rfl, rfl, heq, h⟩)

/-- Different messages with one value collide within, where no padded message
ends another. -/
theorem collision_within (hsize : 0 < size) (iv : σ) {l l' : List α} (hl : size ∣ l.length) (hl' : size ∣ l'.length)
    (h1 : ¬ l <:+ l') (h2 : ¬ l' <:+ l) (h : hash compress size iv l = hash compress size iv l') :
    CollisionWithin compress iv (blocks size l) (blocks size l') := by
  have hsuf : ∀ {m m' : List α}, size ∣ m.length → size ∣ m'.length → blocks size m <:+ blocks size m' → m <:+ m' := by
    rintro m m' hm hm' ⟨t, ht⟩
    refine ⟨t.flatten, ?_⟩
    have hf := congrArg List.flatten ht
    rwa [List.flatten_append, flatten_blocks hsize hm, flatten_blocks hsize hm'] at hf
  rcases suffix_or_collision iv h with hs | hs | hc
  · exact absurd (hsuf hl hl' hs) h1
  · exact absurd (hsuf hl' hl hs) h2
  · exact hc

end BlockHash
