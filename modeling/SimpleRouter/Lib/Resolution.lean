import Mathlib.Data.Set.Insert
/-!
# Resolving an address

A sender that does not know where a neighbour is asks for it, and asks again
every `period`, `limit` times at most; what it is given for the neighbour in the
meantime waits. An answer is believed for `lifetime`. `Step` says what each input
may lead to. What is said to the neighbour in a run is read by `talk`: `Run.talk`
is that the reading never fails, and ends where the sender is.
-/

namespace Resolution

/-- An address that is asked for: when last, how often, and what waits for it. -/
structure Question (π : Type) where
  sent : Int
  times : Nat
  waiting : List π

inductive State (ν π : Type) where
  /-- The answers that are held, each with the time it came. -/
  | settled (facts : Set (ν × Int))
  | asking (q : Question π)

inductive Input (ν π : Type) where
  /-- Nothing of this neighbour. -/
  | pass
  | offer (p : π) (now : Int)
  | answer (v : ν) (now : Int)
  /-- Readings of a clock: the first is for the answers. -/
  | tick (clock : Nat → Int)

inductive Output (ν π : Type) where
  | ask (now : Int)
  | deliver (v : ν) (p : π)
  /-- A message of the sender's own. -/
  | notify (v : ν)
  | giveUp (ps : List π)

variable {ν π : Type} (limit : Nat) (period lifetime : Int)

/-! ## The sender -/

inductive Step : State ν π → Input ν π → State ν π → List (Output ν π) → Prop where
  | pass {s} : Step s .pass s []
  | send {facts f p now} (hf : f ∈ facts) : Step (.settled facts) (.offer p now) (.settled facts) [.deliver f.1 p]
  | ask {p now} : Step (.settled ∅) (.offer p now) (.asking ⟨now, 1, [p]⟩) [.ask now]
  | wait {q p now} : Step (.asking q) (.offer p now) (.asking { q with waiting := p :: q.waiting }) []
  -- there may be no room for an answer
  | learn {facts facts' v now} (h : facts' = facts ∨ facts' = insert (v, now) facts) :
      Step (.settled facts) (.answer v now) (.settled facts') []
  | release {q facts v now} (h : facts ⊆ {(v, now)}) :
      Step (.asking q) (.answer v now) (.settled facts) (q.waiting.map (.deliver v))
  | age {facts clock outs} (h : ∀ o ∈ outs, ∃ f ∈ facts, clock 0 - f.2 ≤ lifetime ∧ o = .notify f.1) :
      Step (.settled facts) (.tick clock) (.settled {f ∈ facts | clock 0 - f.2 ≤ lifetime}) outs
  | early {q clock k} (h : clock (k + 1) < q.sent + period) : Step (.asking q) (.tick clock) (.asking q) []
  | again {q clock k} (h : q.sent + period ≤ clock (k + 1)) (ht : q.times < limit) :
      Step (.asking q) (.tick clock) (.asking { q with sent := clock (k + 1), times := q.times + 1 })
        [.ask (clock (k + 1))]
  | giveUp {q clock k} (h : q.sent + period ≤ clock (k + 1)) (ht : limit ≤ q.times) :
      Step (.asking q) (.tick clock) (.settled ∅) [.giveUp q.waiting]

/-- What a sender that knows nothing may come to and say. -/
inductive Run : List (Input ν π) → State ν π → List (Output ν π) → Prop where
  | nil : Run [] (.settled ∅) []
  | snoc {is s outs i s' outs'} (hr : Run is s outs) (hs : Step limit period lifetime s i s' outs') :
      Run (is ++ [i]) s' (outs ++ outs')

/-- A question is asked, not too often, and for something. -/
structure Question.Ok (q : Question π) : Prop where
  asked : 1 ≤ q.times
  bounded : q.times ≤ limit
  waiting : q.waiting ≠ []

def State.Ok : State ν π → Prop
  | .settled _ => True
  | .asking q => q.Ok limit

variable {limit period lifetime}

theorem Step.ok (hl : 1 ≤ limit) {s s' : State ν π} {i : Input ν π} {outs : List (Output ν π)}
    (hs : Step limit period lifetime s i s' outs) (h : s.Ok limit) : s'.Ok limit := by
  cases hs with
  | pass => exact h
  | send => trivial
  | ask => exact ⟨Nat.le_refl 1, hl, List.cons_ne_nil _ _⟩
  | wait => exact ⟨h.asked, h.bounded, List.cons_ne_nil _ _⟩
  | learn => trivial
  | release => trivial
  | age => trivial
  | early => exact h
  | again _ ht => exact ⟨Nat.succ_pos _, ht, h.waiting⟩
  | giveUp => trivial

theorem Run.ok (hl : 1 ≤ limit) {is : List (Input ν π)} {s : State ν π} {outs : List (Output ν π)}
    (h : Run limit period lifetime is s outs) : s.Ok limit := by
  induction h with
  | nil => trivial
  | snoc _ hs ih => exact hs.ok hl ih

/-! ## What is said -/

/-- Where a sender is, as far as it can be heard. -/
inductive Mode where
  | settled
  | asked (times : Nat) (last : Int)
deriving DecidableEq

def State.mode : State ν π → Mode
  | .settled _ => .settled
  | .asking q => .asked q.times q.sent

variable (limit period) in
/-- Whether the sender may say this now, and where it is then. -/
def talk : Mode → Output ν π → Option Mode
  | .settled, .ask now => some (.asked 1 now)
  | .settled, .deliver _ _ => some .settled
  | .settled, .notify _ => some .settled
  | .settled, .giveUp _ => none
  | .asked times last, .ask now => if times < limit ∧ last + period ≤ now then some (.asked (times + 1) now) else none
  | .asked _ _, .deliver _ _ => some .settled
  | .asked _ _, .notify _ => none
  | .asked times _, .giveUp ps => if times = limit ∧ ps ≠ [] then some .settled else none

theorem talk_deliver (m : Mode) (v : ν) (ps : List π) (h : ps ≠ []) :
    (ps.map (.deliver v)).foldlM (talk limit period) m = some .settled := by
  induction ps generalizing m with
  | nil => exact absurd rfl h
  | cons p ps ih =>
    have hp : talk limit period m (.deliver v p) = some .settled := by cases m <;> rfl
    rw [List.map_cons, List.foldlM_cons, hp]
    cases ps with
    | nil => rfl
    | cons p' ps' => exact ih .settled (List.cons_ne_nil _ _)

theorem talk_notify (outs : List (Output ν π)) (h : ∀ o ∈ outs, ∃ v, o = .notify v) :
    outs.foldlM (talk limit period) .settled = some .settled := by
  induction outs with
  | nil => rfl
  | cons o outs ih =>
    obtain ⟨v, rfl⟩ := h o List.mem_cons_self
    rw [List.foldlM_cons]
    exact ih fun o' ho' => h o' (List.mem_cons_of_mem _ ho')

/-- What a step says leads from where the sender was to where it is. -/
theorem Step.talk {s s' : State ν π} {i : Input ν π} {outs : List (Output ν π)}
    (hs : Step limit period lifetime s i s' outs) (h : s.Ok limit) :
    outs.foldlM (talk limit period) s.mode = some s'.mode := by
  cases hs with
  | pass => rfl
  | send => rfl
  | ask => rfl
  | wait => rfl
  | learn => rfl
  | release => exact talk_deliver _ _ _ h.waiting
  | age hnotify =>
    refine talk_notify _ fun o ho => ?_
    obtain ⟨f, -, -, rfl⟩ := hnotify o ho
    exact ⟨f.1, rfl⟩
  | early => rfl
  | @again q clock k hp ht =>
    have hsaid : Resolution.talk limit period (.asked q.times q.sent) (.ask (clock (k + 1)) : Output ν π) =
        some (.asked (q.times + 1) (clock (k + 1))) := if_pos ⟨ht, hp⟩
    exact congrArg (· >>= fun m => some m) hsaid
  | @giveUp q clock k hp ht =>
    have hsaid : Resolution.talk limit period (.asked q.times q.sent) (.giveUp q.waiting : Output ν π) = some .settled :=
      if_pos ⟨Nat.le_antisymm h.bounded ht, h.waiting⟩
    exact congrArg (· >>= fun m => some m) hsaid

/-- What is said in a run leads to where the sender is. -/
theorem Run.talk (hl : 1 ≤ limit) {is : List (Input ν π)} {s : State ν π} {outs : List (Output ν π)}
    (h : Run limit period lifetime is s outs) : outs.foldlM (talk limit period) .settled = some s.mode := by
  induction h with
  | nil => rfl
  | snoc hr hs ih =>
    rw [List.foldlM_append, ih]
    exact hs.talk (hr.ok hl)

example : [Output.ask 0, .ask 1, .giveUp [3], .ask 7, .deliver 8 4].foldlM (talk 2 1 : Mode → Output Nat Nat → _) .settled =
    some .settled := by decide

end Resolution
