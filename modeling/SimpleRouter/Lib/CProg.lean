import SimpleRouter.Lib.Memory
/-!
# C programs with visible actions and logged memory accesses

A program over state `S` returns a value and the new state, together with the
actions it performed and the memory accesses it made, both in order. The four
projections of a `bind` each have their own lemma, so a fact about the state
or the actions never drags the access log along.
-/
open Memory

namespace CProg

/-- What a run of a program gives. -/
structure Res (S A α : Type) where
  val : α
  st : S
  acts : List A
  log : List Access

def Prog (S A α : Type) := S → Res S A α

variable {S A α β : Type}

instance : Monad (Prog S A) where
  pure a := fun s => ⟨a, s, [], []⟩
  bind x f := fun s =>
    let r := x s
    let r' := f r.val r.st
    ⟨r'.val, r'.st, r.acts ++ r'.acts, r.log ++ r'.log⟩

@[simp] theorem pure_apply (a : α) (s : S) : (pure a : Prog S A α) s = ⟨a, s, [], []⟩ := rfl
@[simp] theorem bind_val (x : Prog S A α) (f : α → Prog S A β) (s : S) :
    ((x >>= f) s).val = (f (x s).val (x s).st).val := rfl
@[simp] theorem bind_st (x : Prog S A α) (f : α → Prog S A β) (s : S) :
    ((x >>= f) s).st = (f (x s).val (x s).st).st := rfl
@[simp] theorem bind_acts (x : Prog S A α) (f : α → Prog S A β) (s : S) :
    ((x >>= f) s).acts = (x s).acts ++ (f (x s).val (x s).st).acts := rfl
@[simp] theorem bind_log (x : Prog S A α) (f : α → Prog S A β) (s : S) :
    ((x >>= f) s).log = (x s).log ++ (f (x s).val (x s).st).log := rfl

@[simp] theorem ite_run (c : Prop) [Decidable c] (x y : Prog S A α) (s : S) :
    (if c then x else y) s = if c then x s else y s := by
  split <;> rfl

/-! ## State and actions -/

instance : MonadStateOf S (Prog S A) where
  get := fun s => ⟨s, s, [], []⟩
  set s := fun _ => ⟨⟨⟩, s, [], []⟩
  modifyGet f := fun s => ⟨(f s).1, (f s).2, [], []⟩

/-- Perform an action. -/
def act (a : A) : Prog S A Unit := fun s => ⟨(), s, [a], []⟩

@[simp] theorem get_apply (s : S) : (get : Prog S A S) s = ⟨s, s, [], []⟩ := rfl
@[simp] theorem modify_apply (f : S → S) (s : S) : (modify f : Prog S A PUnit) s = ⟨⟨⟩, f s, [], []⟩ := rfl
@[simp] theorem act_apply (a : A) (s : S) : (act a : Prog S A Unit) s = ⟨(), s, [a], []⟩ := rfl

/-! ## Loads and stores -/

/-- A read of `len` bytes at `off` whose value is taken from the buffer. -/
def touch (b : Buf) (off len : Nat) : Prog S A Unit := fun s => ⟨(), s, [], [⟨b.size, off, len⟩]⟩

def load8 (b : Buf) (off : Nat) : Prog S A UInt8 := fun s => ⟨b.mem off, s, [], [⟨b.size, off, 1⟩]⟩

def load16 (b : Buf) (off : Nat) : Prog S A UInt16 := fun s => ⟨b.mem.u16 off, s, [], [⟨b.size, off, 2⟩]⟩

def load32 (b : Buf) (off : Nat) : Prog S A UInt32 := fun s => ⟨b.mem.u32 off, s, [], [⟨b.size, off, 4⟩]⟩

/-- The source side of a `memcpy`. -/
def loadBytes (b : Buf) (off len : Nat) : Prog S A (List UInt8) := fun s =>
  ⟨b.mem.slice off len, s, [], [⟨b.size, off, len⟩]⟩

/-- The destination side of a `memcpy`; returns the buffer written. -/
def storeBytes (b : Buf) (off : Nat) (bs : List UInt8) : Prog S A Buf := fun s =>
  ⟨b.store off bs, s, [], [⟨b.size, off, bs.length⟩]⟩

def store8 (b : Buf) (off : Nat) (v : UInt8) : Prog S A Buf := storeBytes b off [v]

def store16 (b : Buf) (off : Nat) (v : UInt16) : Prog S A Buf := storeBytes b off (le16 v)

def store32 (b : Buf) (off : Nat) (v : UInt32) : Prog S A Buf := storeBytes b off (le32 v)

section Apply
variable (b : Buf) (off len : Nat) (s : S)

@[simp] theorem touch_apply : (touch b off len : Prog S A Unit) s = ⟨(), s, [], [⟨b.size, off, len⟩]⟩ := rfl
@[simp] theorem load8_apply : (load8 b off : Prog S A UInt8) s = ⟨b.mem off, s, [], [⟨b.size, off, 1⟩]⟩ := rfl
@[simp] theorem load16_apply :
    (load16 b off : Prog S A UInt16) s = ⟨b.mem.u16 off, s, [], [⟨b.size, off, 2⟩]⟩ := rfl
@[simp] theorem load32_apply :
    (load32 b off : Prog S A UInt32) s = ⟨b.mem.u32 off, s, [], [⟨b.size, off, 4⟩]⟩ := rfl
@[simp] theorem loadBytes_apply :
    (loadBytes b off len : Prog S A _) s = ⟨b.mem.slice off len, s, [], [⟨b.size, off, len⟩]⟩ := rfl
@[simp] theorem storeBytes_apply (bs : List UInt8) :
    (storeBytes b off bs : Prog S A Buf) s = ⟨b.store off bs, s, [], [⟨b.size, off, bs.length⟩]⟩ := rfl
@[simp] theorem store8_apply (v : UInt8) :
    (store8 b off v : Prog S A Buf) s = ⟨b.store off [v], s, [], [⟨b.size, off, 1⟩]⟩ := rfl
@[simp] theorem store16_apply (v : UInt16) :
    (store16 b off v : Prog S A Buf) s = ⟨b.store off (le16 v), s, [], [⟨b.size, off, 2⟩]⟩ := rfl
@[simp] theorem store32_apply (v : UInt32) :
    (store32 b off v : Prog S A Buf) s = ⟨b.store off (le32 v), s, [], [⟨b.size, off, 4⟩]⟩ := rfl

end Apply

/-! ## Computations -/

/-- `x` computes `v`: it changes no state and performs no action. -/
def Computes (x : Prog S A α) (v : α) : Prop := ∀ s, (x s).val = v ∧ (x s).st = s ∧ (x s).acts = []

namespace Computes

theorem val {x : Prog S A α} {v : α} (h : Computes x v) (s : S) : (x s).val = v := (h s).1
theorem st {x : Prog S A α} {v : α} (h : Computes x v) (s : S) : (x s).st = s := (h s).2.1
theorem acts {x : Prog S A α} {v : α} (h : Computes x v) (s : S) : (x s).acts = [] := (h s).2.2

/-- A program that starts with a computation goes on with its value. -/
theorem bind {x : Prog S A α} {v : α} {f : α → Prog S A β} {w : β} (hx : Computes x v) (hf : Computes (f v) w) :
    Computes (x >>= f) w := by
  intro s
  obtain ⟨h1, h2, h3⟩ := hx s
  obtain ⟨h4, h5, h6⟩ := hf s
  simp only [bind_val, bind_st, bind_acts, h1, h2, h3, h4, h5, h6, List.append_nil, and_self]

theorem pure (a : α) : Computes (pure a : Prog S A α) a := fun _ => ⟨rfl, rfl, rfl⟩

theorem touch (b : Buf) (off len : Nat) : Computes (touch b off len : Prog S A Unit) () := fun _ => ⟨rfl, rfl, rfl⟩

theorem load8 (b : Buf) (off : Nat) : Computes (load8 b off : Prog S A UInt8) (b.mem off) := fun _ => ⟨rfl, rfl, rfl⟩

theorem load16 (b : Buf) (off : Nat) : Computes (load16 b off : Prog S A UInt16) (b.mem.u16 off) :=
  fun _ => ⟨rfl, rfl, rfl⟩

theorem load32 (b : Buf) (off : Nat) : Computes (load32 b off : Prog S A UInt32) (b.mem.u32 off) :=
  fun _ => ⟨rfl, rfl, rfl⟩

theorem loadBytes (b : Buf) (off len : Nat) :
    Computes (loadBytes b off len : Prog S A (List UInt8)) (b.mem.slice off len) := fun _ => ⟨rfl, rfl, rfl⟩

theorem storeBytes (b : Buf) (off : Nat) (bs : List UInt8) :
    Computes (storeBytes b off bs : Prog S A Buf) (b.store off bs) := fun _ => ⟨rfl, rfl, rfl⟩

theorem store32 (b : Buf) (off : Nat) (v : UInt32) :
    Computes (store32 b off v : Prog S A Buf) (b.store off (le32 v)) := storeBytes b off _

end Computes

/-- From `s` the program returns `v` and goes to `s'`, without an action. -/
structure Yields (x : Prog S A α) (s : S) (v : α) (s' : S) : Prop where
  val : (x s).val = v
  st : (x s).st = s'
  acts : (x s).acts = []

theorem Computes.yields {x : Prog S A α} {v : α} (h : Computes x v) (s : S) : Yields x s v s :=
  ⟨h.val s, h.st s, h.acts s⟩

theorem Yields.bind {x : Prog S A α} {f : α → Prog S A β} {s s' s'' : S} {v : α} {w : β} (hx : Yields x s v s')
    (hf : Yields (f v) s' w s'') : Yields (x >>= f) s w s'' where
  val := by rw [bind_val, hx.val, hx.st, hf.val]
  st := by rw [bind_st, hx.val, hx.st, hf.st]
  acts := by rw [bind_acts, hx.val, hx.st, hx.acts, hf.acts, List.append_nil]

theorem yields_modify (f : S → S) (s : S) : Yields (modify f : Prog S A PUnit) s ⟨⟩ (f s) := ⟨rfl, rfl, rfl⟩

theorem yields_get (s : S) : Yields (get : Prog S A S) s s s := ⟨rfl, rfl, rfl⟩

/-! ## Safety -/

/-- Every access `x` makes from `s` is in bounds. -/
def Safe (x : Prog S A α) (s : S) : Prop := ∀ a ∈ (x s).log, a.InBounds

instance (x : Prog S A α) (s : S) : Decidable (Safe x s) := inferInstanceAs (Decidable (∀ a ∈ (x s).log, a.InBounds))

@[simp] theorem safe_bind (x : Prog S A α) (f : α → Prog S A β) (s : S) :
    Safe (x >>= f) s ↔ Safe x s ∧ Safe (f (x s).val) (x s).st := by
  simp only [Safe, bind_log, List.mem_append, or_imp, forall_and]

@[simp] theorem safe_ite (c : Prop) [Decidable c] (x y : Prog S A α) (s : S) :
    Safe (if c then x else y) s ↔ if c then Safe x s else Safe y s := by
  split <;> rfl

/-- After a computation only its value matters. -/
theorem Computes.safe_bind {x : Prog S A α} {v : α} {f : α → Prog S A β} (hx : Computes x v) (s : S) :
    Safe (x >>= f) s ↔ Safe x s ∧ Safe (f v) s := by
  rw [CProg.safe_bind, hx.val, hx.st]

theorem Computes.safe_then {x : Prog S A α} {v : α} {f : α → Prog S A β} {s : S} (hx : Computes x v) (h : Safe x s) :
    Safe (x >>= f) s ↔ Safe (f v) s := by
  rw [hx.safe_bind, and_iff_right h]

section Safe
variable (b : Buf) (off len : Nat) (s : S)

theorem safe_of_log {x : Prog S A α} {s : S} (h : (x s).log = []) : Safe x s := by
  intro a ha
  rw [h] at ha
  cases ha

@[simp] theorem safe_pure (a : α) : Safe (pure a : Prog S A α) s := safe_of_log rfl
@[simp] theorem safe_get : Safe (get : Prog S A S) s := safe_of_log rfl
@[simp] theorem safe_modify (f : S → S) : Safe (modify f : Prog S A PUnit) s := safe_of_log rfl
@[simp] theorem safe_act (a : A) : Safe (act a : Prog S A Unit) s := safe_of_log rfl

theorem safe_one {x : Prog S A α} {s : S} {a : Access} (h : (x s).log = [a]) : Safe x s ↔ a.InBounds := by
  rw [Safe, h]
  simp

@[simp] theorem safe_touch : Safe (touch b off len : Prog S A Unit) s ↔ len = 0 ∨ off + len ≤ b.size :=
  safe_one (a := ⟨b.size, off, len⟩) rfl
@[simp] theorem safe_loadBytes :
    Safe (loadBytes b off len : Prog S A _) s ↔ len = 0 ∨ off + len ≤ b.size :=
  safe_one (a := ⟨b.size, off, len⟩) rfl
@[simp] theorem safe_storeBytes (bs : List UInt8) :
    Safe (storeBytes b off bs : Prog S A Buf) s ↔ bs.length = 0 ∨ off + bs.length ≤ b.size :=
  safe_one (a := ⟨b.size, off, bs.length⟩) rfl
@[simp] theorem safe_load8 : Safe (load8 b off : Prog S A UInt8) s ↔ off + 1 ≤ b.size :=
  (safe_one rfl).trans (by simp [Access.InBounds])
@[simp] theorem safe_load16 : Safe (load16 b off : Prog S A UInt16) s ↔ off + 2 ≤ b.size :=
  (safe_one rfl).trans (by simp [Access.InBounds])
@[simp] theorem safe_load32 : Safe (load32 b off : Prog S A UInt32) s ↔ off + 4 ≤ b.size :=
  (safe_one rfl).trans (by simp [Access.InBounds])
@[simp] theorem safe_store8 (v : UInt8) : Safe (store8 b off v : Prog S A Buf) s ↔ off + 1 ≤ b.size :=
  (safe_one rfl).trans (by simp [Access.InBounds])
@[simp] theorem safe_store16 (v : UInt16) : Safe (store16 b off v : Prog S A Buf) s ↔ off + 2 ≤ b.size :=
  (safe_one rfl).trans (by simp [Access.InBounds])
@[simp] theorem safe_store32 (v : UInt32) : Safe (store32 b off v : Prog S A Buf) s ↔ off + 4 ≤ b.size :=
  (safe_one rfl).trans (by simp [Access.InBounds])

end Safe

end CProg
