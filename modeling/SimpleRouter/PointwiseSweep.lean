import SimpleRouter.System
import SimpleRouter.Passes
/-!
# A sweep is a pointwise pass

`sr_arpcache_sweepreqs` under a clock that stands still. The walk is run once
more with a record of the requests it stands at (`sweepVisits`), which changes
nothing it does, to say that each request is visited once and in order although
requests are unlinked on the way.
-/
open Memory CProg

namespace SimpleRouter

/-- The loop of `sr_arpcache_sweepreqs` with a record of the requests it handles. -/
def sweepVisits (env : SweepEnv) : Nat → Nat → Option Nat → RouterM (List SrArpreq)
  | _, _, none => pure []
  | 0, _, some ptr => do
    act (.fault (.dangling ptr))
    pure []
  | fuel + 1, k, some ptr => do
    let sr ← get
    match derefReq ptr sr.cache.requests with
    | none => do
      act (.fault (.dangling ptr))
      pure []
    | some req => do
      let next := nextReq ptr sr.cache.requests
      handleArpreq env (env.clock (k + 1)) req
      let visits ← sweepVisits env fuel (k + 1) next
      pure (req :: visits)

/-- The requests `sr_arpcache_sweepreqs` visits, in order. -/
def srArpcacheSweepreqsVisits (env : SweepEnv) : RouterM (List SrArpreq) := do
  let sr ← get
  sweepVisits env sr.cache.requests.length 0 (sr.cache.requests.head?.map (·.ptr))

/-! ## The record -/

/-- Recording the visits changes neither the state nor what is done. -/
theorem sweepVisits_records (env : SweepEnv) (fuel k : Nat) (ptr : Option Nat) (sr : SrInstance) :
    (sweepVisits env fuel k ptr sr).st = (sweepLoop env fuel k ptr sr).st ∧
      (sweepVisits env fuel k ptr sr).acts = (sweepLoop env fuel k ptr sr).acts := by
  induction fuel generalizing k ptr sr with
  | zero =>
    cases ptr with
    | none => exact ⟨rfl, rfl⟩
    | some p => exact ⟨rfl, rfl⟩
  | succ fuel ih =>
    cases ptr with
    | none => exact ⟨rfl, rfl⟩
    | some p =>
      simp only [sweepVisits, sweepLoop, bind_st, bind_acts, get_apply, List.nil_append]
      cases derefReq p sr.cache.requests with
      | none => exact ⟨rfl, rfl⟩
      | some req =>
        obtain ⟨hst, hacts⟩ := ih (k + 1) (nextReq p sr.cache.requests) (handleArpreq env (env.clock (k + 1)) req sr).st
        simp only [bind_st, bind_acts, hst, hacts, pure_apply, List.append_nil, and_self]

/-- The walk visits the nodes from where it stands on, whatever becomes of them. -/
theorem sweepVisits_val (env : SweepEnv) (todo done : List SrArpreq) (k fuel : Nat) (hf : todo.length ≤ fuel)
    (sr : SrInstance) (hr : sr.cache.requests = done ++ todo) (hp : ((done ++ todo).map (·.ptr)).Nodup) :
    (sweepVisits env fuel k (todo.head?.map (·.ptr)) sr).val = todo := by
  induction todo generalizing done k fuel sr with
  | nil => cases fuel <;> rfl
  | cons r rs ih =>
    obtain ⟨fuel, rfl⟩ : ∃ f, fuel = f + 1 := ⟨fuel - 1, by simp at hf; omega⟩
    have hst := (handleArpreq_does env (env.clock (k + 1)) hr hp).1
    have hn := nodup_ptr_tail hp (env.clock (k + 1))
    -- `r` may be gone by now, but the node behind it is still the head of `rs`
    have hrest := ih (done ++ (sweepOne (env.clock (k + 1)) r).toList) (k + 1) fuel (by simp at hf; omega)
      (sr.setRequests (done ++ (sweepOne (env.clock (k + 1)) r).toList ++ rs)) rfl hn
    have hd : derefReq r.ptr sr.cache.requests = some r := by rw [hr, derefReq_middle hp]
    have hx : nextReq r.ptr sr.cache.requests = rs.head?.map (·.ptr) := by rw [hr, nextReq_middle hp]
    simp only [List.head?_cons, Option.map_some, sweepVisits, bind_val, get_apply, hd, hx, hst, hrest, pure_apply]

/-! ## A clock that stands still -/

/-- The request has been asked for five times and is due again. -/
def SrArpreq.GivenUp (now : Int) (r : SrArpreq) : Prop := r.timesSent ≥ 5 ∧ now - r.sent ≥ 1

instance (now : Int) (r : SrArpreq) : Decidable (r.GivenUp now) := inferInstanceAs (Decidable (_ ∧ _))

/-- What becomes of a request that stays. -/
def SrArpreq.swept (now : Int) (r : SrArpreq) : SrArpreq :=
  if now - r.sent ≥ 1 then { r with sent := now, timesSent := r.timesSent + 1 } else r

theorem sweepOne_eq (now : Int) (r : SrArpreq) :
    sweepOne now r = if r.GivenUp now then none else some (r.swept now) := by
  unfold sweepOne SrArpreq.GivenUp SrArpreq.swept
  by_cases hdue : now - r.sent ≥ 1
  · by_cases h5 : r.timesSent ≥ 5
    · simp [hdue, h5]
    · simp [hdue, h5]
  · simp [hdue]

/-- Under one clock reading the pass keeps and changes requests one by one. -/
theorem sweepList_const {clock : Nat → Int} {now : Int} (h : ∀ k, clock k = now) (k : Nat) (reqs : List SrArpreq) :
    sweepList clock k reqs = (reqs.filter fun r => ¬ r.GivenUp now).map (SrArpreq.swept now) := by
  induction reqs generalizing k with
  | nil => rfl
  | cons r rs ih =>
    rw [sweepList, h, sweepOne_eq, ih]
    by_cases hg : r.GivenUp now
    · simp [hg]
    · simp [hg]

/-- The pass visits each request of the queue once, in order, and meets no node
that is gone. Afterwards the queue consists of those that were not given up, in
their order, each marked as sent if it was due and else as it was. Nothing else
has changed. -/
theorem sweep_pointwise {env : SweepEnv} {now : Int} (hclock : ∀ k, env.clock k = now) {sr : SrInstance}
    (hp : (sr.cache.requests.map (·.ptr)).Nodup) :
    (srArpcacheSweepreqsVisits env sr).val = sr.cache.requests ∧
    (srArpcacheSweepreqsVisits env sr).st = (srArpcacheSweepreqs env sr).st ∧
    (srArpcacheSweepreqsVisits env sr).acts = (srArpcacheSweepreqs env sr).acts ∧
    (∀ why, .fault why ∉ (srArpcacheSweepreqs env sr).acts) ∧
    (srArpcacheSweepreqs env sr).st = sr.setRequests
      ((sr.cache.requests.filter fun r => ¬ (r.timesSent ≥ 5 ∧ now - r.sent ≥ 1)).map fun r =>
        if now - r.sent ≥ 1 then { r with sent := now, timesSent := r.timesSent + 1 } else r) := by
  obtain ⟨hst, hacts⟩ := sweepLoop_spec env sr.cache.requests [] 0 _ (Nat.le_refl _) sr rfl hp
  obtain ⟨hrst, hracts⟩ := sweepVisits_records env sr.cache.requests.length 0 (sr.cache.requests.head?.map (·.ptr)) sr
  refine ⟨sweepVisits_val env sr.cache.requests [] 0 _ (Nat.le_refl _) sr rfl hp, hrst, ?_, ?_, ?_⟩
  · simpa [srArpcacheSweepreqsVisits, srArpcacheSweepreqs] using hracts
  · intro why ha
    have ha' : .fault why ∈ sweepActs sr.ifList sr.routingTable sr.cache.entries env 0 sr.cache.requests := by
      rw [← hacts]
      simpa [srArpcacheSweepreqs] using ha
    obtain ⟨r, -, t, hone, -⟩ := mem_sweepActs ha'
    obtain ⟨-, ⟨-, h | ⟨pkt, -, hu⟩⟩ | ⟨-, pkt, -, i, -, h⟩⟩ := mem_sweepOneActs hone
    · cases h
    · obtain ⟨i, -, h | hsend⟩ := mem_unreachActs hu
      · cases h
      · obtain ⟨best, j, e, -, -, -, h⟩ := mem_unreachSend hsend
        cases h
    · cases h
  · rw [srArpcacheSweepreqs, bind_st, get_apply]
    rw [List.nil_append, sweepList_const hclock] at hst
    exact hst

open Sample in
/-- Of two requests, one due for the sixth time and one not due at all. -/
theorem sweep_pointwise_two :
    ((srArpcacheSweepreqs ⟨fun _ => 9, fun _ _ => 0, fun _ => 0⟩ ((SrInstance.init ifs rts).setRequests
      [⟨0, 7, 3, 5, []⟩, ⟨1, 8, 9, 5, []⟩])).st).cache.requests = [⟨1, 8, 9, 5, []⟩] := by
  have h := (@sweep_pointwise ⟨fun _ => 9, fun _ _ => 0, fun _ => 0⟩ 9 (fun _ => rfl)
    ((SrInstance.init ifs rts).setRequests [⟨0, 7, 3, 5, []⟩, ⟨1, 8, 9, 5, []⟩]) (by decide)).2.2.2.2
  rw [h]
  decide

end SimpleRouter
