import Mathlib.Data.List.Induction
/-!
# Runs of a system

A system reacts to events one at a time: a step takes the number of events
before it, the state and the event to the next state and the actions
performed. `state` and `trace` are what a list of events leads to from the
initial state. `induct` is the invariant rule: what holds at the start and is
kept by every step, whatever came before it, holds after every run.
-/

namespace Runs

/-- A system with states `σ`, events `ε` and actions `α`. -/
structure System (σ ε α : Type) where
  init : σ
  step : Nat → σ → ε → σ × List α

variable {σ ε α : Type}

namespace System
variable (S : System σ ε α)

/-- The state and the actions after `es`, when `n` events came before. -/
def runFrom (n : Nat) (s : σ) : List ε → σ × List α
  | [] => (s, [])
  | e :: es => ((runFrom (n + 1) (S.step n s e).1 es).1,
      (S.step n s e).2 ++ (runFrom (n + 1) (S.step n s e).1 es).2)

/-- The state after the events `es`. -/
def state (es : List ε) : σ := (S.runFrom 0 S.init es).1

/-- The actions performed during the events `es`, in order. -/
def trace (es : List ε) : List α := (S.runFrom 0 S.init es).2

/-- The actions of the step that takes `e` after `es`. -/
def actsAt (es : List ε) (e : ε) : List α := (S.step es.length (S.state es) e).2

theorem runFrom_append (n : Nat) (s : σ) (es fs : List ε) :
    S.runFrom n s (es ++ fs) =
      ((S.runFrom (n + es.length) (S.runFrom n s es).1 fs).1,
        (S.runFrom n s es).2 ++ (S.runFrom (n + es.length) (S.runFrom n s es).1 fs).2) := by
  induction es generalizing n s with
  | nil => simp [runFrom]
  | cons e es ih =>
    simp only [List.cons_append, runFrom, ih, List.length_cons, List.append_assoc]
    rw [show n + 1 + es.length = n + (es.length + 1) by omega]

@[simp] theorem state_nil : S.state [] = S.init := rfl
@[simp] theorem trace_nil : S.trace [] = [] := rfl

theorem state_snoc (es : List ε) (e : ε) : S.state (es ++ [e]) = (S.step es.length (S.state es) e).1 := by
  simp [state, runFrom_append, runFrom]

theorem trace_snoc (es : List ε) (e : ε) : S.trace (es ++ [e]) = S.trace es ++ S.actsAt es e := by
  simp [state, trace, actsAt, runFrom_append, runFrom]

/-- What holds initially and is kept by every step holds after every run. -/
theorem induct {I : List ε → σ → List α → Prop} (h0 : I [] S.init [])
    (hs : ∀ es e, I es (S.state es) (S.trace es) →
      I (es ++ [e]) (S.step es.length (S.state es) e).1 (S.trace es ++ S.actsAt es e)) (es : List ε) :
    I es (S.state es) (S.trace es) := by
  induction es using List.reverseRecOn with
  | nil => exact h0
  | append_singleton es e ih =>
    rw [state_snoc, trace_snoc]
    exact hs es e ih

/-! ## Runs whose steps all satisfy a condition -/

/-- `P` holds of every step, of the state before it and its event. -/
def AlongFrom (P : σ → ε → Prop) (n : Nat) (s : σ) : List ε → Prop
  | [] => True
  | e :: es => P s e ∧ AlongFrom P (n + 1) (S.step n s e).1 es

def Along (P : σ → ε → Prop) (es : List ε) : Prop := S.AlongFrom P 0 S.init es

instance decidableAlongFrom (P : σ → ε → Prop) [∀ s e, Decidable (P s e)] (n : Nat) (s : σ) :
    (es : List ε) → Decidable (S.AlongFrom P n s es)
  | [] => .isTrue trivial
  | e :: es => @instDecidableAnd _ _ _ (decidableAlongFrom P (n + 1) (S.step n s e).1 es)

instance (P : σ → ε → Prop) [∀ s e, Decidable (P s e)] (es : List ε) : Decidable (S.Along P es) :=
  inferInstanceAs (Decidable (S.AlongFrom P 0 S.init es))

theorem alongFrom_snoc (P : σ → ε → Prop) (n : Nat) (s : σ) (es : List ε) (e : ε) :
    S.AlongFrom P n s (es ++ [e]) ↔ S.AlongFrom P n s es ∧ P (S.runFrom n s es).1 e := by
  induction es generalizing n s with
  | nil => simp [AlongFrom, runFrom]
  | cons e' es ih => simp only [List.cons_append, AlongFrom, runFrom, ih, and_assoc]

theorem along_snoc (P : σ → ε → Prop) (es : List ε) (e : ε) :
    S.Along P (es ++ [e]) ↔ S.Along P es ∧ P (S.state es) e := S.alongFrom_snoc P 0 S.init es e

/-- The invariant rule for such runs. -/
theorem induct_along {P : σ → ε → Prop} {I : List ε → σ → List α → Prop} (h0 : I [] S.init [])
    (hs : ∀ es e, P (S.state es) e → I es (S.state es) (S.trace es) →
      I (es ++ [e]) (S.step es.length (S.state es) e).1 (S.trace es ++ S.actsAt es e))
    (es : List ε) (hP : S.Along P es) : I es (S.state es) (S.trace es) := by
  refine S.induct (I := fun es s acts => S.Along P es → I es s acts) (fun _ => h0) ?_ es hP
  intro es e ih hP
  obtain ⟨hes, he⟩ := (S.along_snoc P es e).1 hP
  exact hs es e he (ih hes)

/-- The steps of a run, one by one. -/
theorem along_iff_forall (P : σ → ε → Prop) (es : List ε) :
    S.Along P es ↔ ∀ pre e post, es = pre ++ e :: post → P (S.state pre) e := by
  induction es using List.reverseRecOn with
  | nil => exact iff_of_true trivial fun pre e post h => absurd h (by simp)
  | append_singleton es e ih =>
    rw [along_snoc, ih]
    constructor
    · rintro ⟨hes, he⟩ pre e' post hp
      rcases List.eq_nil_or_concat post with rfl | ⟨post, f, rfl⟩
      · obtain ⟨rfl, rfl⟩ := List.append_singleton_inj.1 hp
        exact he
      · rw [List.concat_eq_append, ← List.cons_append, ← List.append_assoc] at hp
        exact hes pre e' post (List.append_inj_left' hp rfl)
    · intro h
      exact ⟨fun pre e' post hp => h pre e' (post ++ [e]) (by rw [hp]; simp), h es e [] rfl⟩

/-- Where a step has a property exactly under a condition, every step of a run
has it if and only if every one meets that condition. -/
theorem forall_steps_iff {Q : List ε → ε → Prop} {P : σ → ε → Prop} (h : ∀ pre e, Q pre e ↔ P (S.state pre) e)
    (es : List ε) : (∀ pre e post, es = pre ++ e :: post → Q pre e) ↔ S.Along P es := by
  rw [along_iff_forall]
  exact forall_congr' fun pre => forall_congr' fun e => forall_congr' fun _ => imp_congr_right fun _ => h pre e

/-- Where a step keeps `I` exactly under a condition, every state a run goes
through has `I` if and only if every step of it meets that condition. -/
theorem along_iff {P : σ → ε → Prop} {I : σ → Prop} (h0 : I S.init)
    (hs : ∀ n s e, I s → (I (S.step n s e).1 ↔ P s e)) (es : List ε) :
    (∀ pre post, es = pre ++ post → I (S.state pre)) ↔ S.Along P es := by
  induction es using List.reverseRecOn with
  | nil =>
    refine iff_of_true ?_ trivial
    rintro pre post h
    rw [(List.append_eq_nil_iff.1 h.symm).1]
    exact h0
  | append_singleton es e ih =>
    rw [along_snoc, ← ih]
    constructor
    · intro h
      have hes : ∀ pre post, es = pre ++ post → I (S.state pre) :=
        fun pre post hp => h pre (post ++ [e]) (by rw [hp, List.append_assoc])
      have hlast := h (es ++ [e]) [] (by simp)
      rw [state_snoc] at hlast
      exact ⟨hes, (hs _ _ e (hes es [] (by simp))).1 hlast⟩
    · rintro ⟨hes, he⟩ pre post hp
      rcases List.eq_nil_or_concat post with rfl | ⟨post, e', rfl⟩
      · rw [List.append_nil] at hp
        rw [← hp, state_snoc]
        exact (hs _ _ e (hes es [] (by simp))).2 he
      · rw [List.concat_eq_append, ← List.append_assoc] at hp
        exact hes pre post (List.append_inj_left' hp rfl)

/-! ## Runs read as runs of another system -/

/-- The events of another system that the steps from `s` come to, when `n` events came before. -/
def translateFrom {ε' : Type} (f : σ → ε → ε') (n : Nat) (s : σ) : List ε → List ε'
  | [] => []
  | e :: es => f s e :: translateFrom f (n + 1) (S.step n s e).1 es

def translate {ε' : Type} (f : σ → ε → ε') (es : List ε) : List ε' := S.translateFrom f 0 S.init es

section Translate
variable {ε' : Type} (f : σ → ε → ε')

theorem translateFrom_append (n : Nat) (s : σ) (es fs : List ε) :
    S.translateFrom f n s (es ++ fs) =
      S.translateFrom f n s es ++ S.translateFrom f (n + es.length) (S.runFrom n s es).1 fs := by
  induction es generalizing n s with
  | nil => rfl
  | cons e es ih =>
    simp only [List.cons_append, translateFrom, runFrom, ih, List.length_cons]
    rw [show n + 1 + es.length = n + (es.length + 1) by omega]

theorem length_translateFrom (n : Nat) (s : σ) (es : List ε) : (S.translateFrom f n s es).length = es.length := by
  induction es generalizing n s with
  | nil => rfl
  | cons e es ih => rw [translateFrom, List.length_cons, List.length_cons, ih]

@[simp] theorem length_translate (es : List ε) : (S.translate f es).length = es.length := S.length_translateFrom f 0 _ es

theorem translate_append (es fs : List ε) :
    S.translate f (es ++ fs) = S.translate f es ++ S.translateFrom f es.length (S.state es) fs := by
  rw [translate, translateFrom_append, Nat.zero_add]
  rfl

theorem translate_snoc (es : List ε) (e : ε) : S.translate f (es ++ [e]) = S.translate f es ++ [f (S.state es) e] :=
  S.translate_append f es [e]

end Translate

/-! ## Where an action comes from -/

/-- Every action of a run was performed by one of its steps. -/
theorem mem_trace {es : List ε} {a : α} (h : a ∈ S.trace es) :
    ∃ pre e post, es = pre ++ e :: post ∧ a ∈ S.actsAt pre e := by
  induction es using List.reverseRecOn with
  | nil => cases h
  | append_singleton es e ih =>
    rw [trace_snoc] at h
    rcases List.mem_append.1 h with h | h
    · obtain ⟨pre, e', post, rfl, ha⟩ := ih h
      exact ⟨pre, e', post ++ [e], by simp, ha⟩
    · exact ⟨es, e, [], rfl, h⟩

end System

end Runs
