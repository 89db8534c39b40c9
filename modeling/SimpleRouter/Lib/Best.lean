import Mathlib.Data.List.Pairwise
import Mathlib.Order.Lattice
/-!
# The best element of a list

A scan that remembers the best element so far and replaces it by an admissible
one whose key is strictly larger. It starts with nothing and a key to beat, so
elements that do not beat that key are never chosen. What it finds is the first
of the admissible elements with the largest key (`scan_some`), and where keys
tell admissible elements apart it does not depend on the order (`scan_perm`).
-/
namespace Best

variable {α κ : Type} [LinearOrder κ] {p : α → Prop} {key : α → κ}

def scan (p : α → Prop) [DecidablePred p] (key : α → κ) : Option α → κ → List α → Option α
  | best, _, [] => best
  | best, k, x :: xs => if p x ∧ k < key x then scan p key (some x) (key x) xs else scan p key best k xs

/-- `r` is an element of `xs` that no earlier one equals and no later one exceeds. -/
def FirstMax (p : α → Prop) (key : α → κ) (xs : List α) (r : α) : Prop :=
  ∃ before after, xs = before ++ r :: after ∧ p r ∧ (∀ x ∈ before, p x → key x < key r) ∧
    ∀ x ∈ after, p x → key x ≤ key r

theorem FirstMax.mem {xs : List α} {r : α} (h : FirstMax p key xs r) : r ∈ xs := by
  obtain ⟨before, after, rfl, -⟩ := h
  simp

theorem FirstMax.admissible {xs : List α} {r : α} (h : FirstMax p key xs r) : p r := by
  obtain ⟨-, -, -, hp, -⟩ := h
  exact hp

theorem FirstMax.le {xs : List α} {r : α} (h : FirstMax p key xs r) {x : α} (hx : x ∈ xs) (hp : p x) :
    key x ≤ key r := by
  obtain ⟨before, after, rfl, -, hb, ha⟩ := h
  rcases List.mem_append.1 hx with hx | hx
  · exact (hb x hx hp).le
  · rcases List.mem_cons.1 hx with rfl | hx
    · exact le_refl _
    · exact ha x hx hp

/-- An element in front that is not admissible, or worse, changes nothing. -/
theorem FirstMax.cons {xs : List α} {r x : α} (h : FirstMax p key xs r) (hx : p x → key x < key r) :
    FirstMax p key (x :: xs) r := by
  obtain ⟨before, after, rfl, hr, hb, ha⟩ := h
  refine ⟨x :: before, after, rfl, hr, ?_, ha⟩
  intro y hy hp
  rcases List.mem_cons.1 hy with rfl | hy
  · exact hx hp
  · exact hb y hy hp

/-- There is at most one first maximum. -/
theorem FirstMax.unique {r r' : α} (h : FirstMax p key xs r) (h' : FirstMax p key xs r') : r = r' := by
  obtain ⟨before, after, rfl, hp, hb, ha⟩ := h
  obtain ⟨before', after', heq, hp', hb', ha'⟩ := h'
  -- whichever comes first is not exceeded by the other, which is to exceed it
  rcases List.append_eq_append_iff.1 heq with ⟨mid, hmid, hrest⟩ | ⟨mid, hmid, hrest⟩
  · cases mid with
    | nil => exact (List.cons.inj hrest).1
    | cons x mid =>
      obtain ⟨rfl, rfl⟩ := List.cons.inj hrest
      have hlt := hb' r (by simp [hmid]) hp
      exact absurd (ha r' (by simp) hp') (not_le.2 hlt)
  · cases mid with
    | nil => exact (List.cons.inj hrest).1.symm
    | cons x mid =>
      obtain ⟨rfl, rfl⟩ := List.cons.inj hrest
      have hlt := hb r' (by simp [hmid]) hp'
      exact absurd (ha' r (by simp) hp) (not_le.2 hlt)

variable [DecidablePred p]

/-- The scan keeps what it starts with when nothing beats it, and else finds the first maximum. -/
theorem scan_cases (best : Option α) (k : κ) (xs : List α) :
    (scan p key best k xs = best ∧ ∀ x ∈ xs, p x → key x ≤ k) ∨
    ∃ r, scan p key best k xs = some r ∧ k < key r ∧ FirstMax p key xs r := by
  induction xs generalizing best k with
  | nil => exact .inl ⟨rfl, fun x hx => absurd hx List.not_mem_nil⟩
  | cons x xs ih =>
    by_cases hx : p x ∧ k < key x
    · rw [scan, if_pos hx]
      rcases ih (some x) (key x) with ⟨hs, hle⟩ | ⟨r, hs, hlt, hr⟩
      · exact .inr ⟨x, hs, hx.2, [], xs, rfl, hx.1, fun y hy => absurd hy List.not_mem_nil, hle⟩
      · exact .inr ⟨r, hs, hx.2.trans hlt, hr.cons fun _ => hlt⟩
    · have hle : p x → key x ≤ k := fun hp => not_lt.1 fun hlt => hx ⟨hp, hlt⟩
      rw [scan, if_neg hx]
      rcases ih best k with ⟨hs, hall⟩ | ⟨r, hs, hlt, hr⟩
      · refine .inl ⟨hs, ?_⟩
        intro y hy hp
        rcases List.mem_cons.1 hy with rfl | hy
        · exact hle hp
        · exact hall y hy hp
      · exact .inr ⟨r, hs, hlt, hr.cons fun hp => (hle hp).trans_lt hlt⟩

variable {k : κ} {xs ys : List α}

/-- Nothing is found exactly when nothing admissible beats the key to beat. -/
theorem scan_none : scan p key none k xs = none ↔ ∀ x ∈ xs, p x → key x ≤ k := by
  rcases @scan_cases α κ _ p key _ none k xs with ⟨hs, hle⟩ | ⟨r, hs, hlt, hr⟩
  · exact ⟨fun _ => hle, fun _ => hs⟩
  · rw [hs]
    exact ⟨nofun, fun hle => absurd hlt (not_lt.2 (hle r hr.mem hr.admissible))⟩

theorem scan_some {r : α} (h : scan p key none k xs = some r) : k < key r ∧ FirstMax p key xs r := by
  rcases @scan_cases α κ _ p key _ none k xs with ⟨hs, -⟩ | ⟨r', hs, hlt, hr⟩
  · cases hs.symm.trans h
  · obtain rfl : r' = r := Option.some.inj (hs.symm.trans h)
    exact ⟨hlt, hr⟩

/-- The scan finds the first maximum, if it beats the key to beat. -/
theorem scan_eq_some {r : α} : scan p key none k xs = some r ↔ k < key r ∧ FirstMax p key xs r := by
  refine ⟨scan_some, ?_⟩
  rintro ⟨hlt, hr⟩
  cases hs : scan p key none k xs with
  | none => exact absurd hlt (not_lt.2 (scan_none.1 hs r hr.mem hr.admissible))
  | some r' => rw [(scan_some hs).2.unique hr]

/-- Where no two admissible elements share a key, every order of the list gives the same choice. -/
theorem scan_perm (hperm : xs.Perm ys) (hinj : ∀ x ∈ xs, ∀ y ∈ xs, p x → p y → key x = key y → x = y) :
    scan p key none k xs = scan p key none k ys := by
  cases hs : scan p key none k xs with
  | none =>
    rw [scan_none] at hs
    exact (scan_none.2 fun y hy => hs y (hperm.mem_iff.2 hy)).symm
  | some r =>
    obtain ⟨hlt, hr⟩ := scan_some hs
    cases hs' : scan p key none k ys with
    | none =>
      rw [scan_none] at hs'
      exact absurd hlt (not_lt.2 (hs' r (hperm.subset hr.mem) hr.admissible))
    | some r' =>
      obtain ⟨-, hr'⟩ := scan_some hs'
      have hmem : r' ∈ xs := hperm.mem_iff.2 hr'.mem
      -- each is at least as good as the other
      have hkey : key r = key r' := 
        le_antisymm (hr'.le (hperm.subset hr.mem) hr.admissible) (hr.le hmem hr'.admissible)
      rw [hinj r hr.mem r' hmem hr.admissible hr'.admissible hkey]

end Best
