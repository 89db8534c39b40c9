import SimpleRouter.Freshness
/-!
# Whether an address has one entry

The cache on its own, under any sequence of ARP replies, lookups and expiry
passes. A reply is stored in the first free slot without a look at the entries
there are, so an address that is repeated while its entry is valid gets a second
slot: `unique_iff` says that this is the only way. `router_cache` says that the
cache of a router goes through the states of such a run.
-/
open Memory CProg Runs

namespace SimpleRouter

/-! ## The cache as a system -/

inductive CacheOp where
  /-- `sr_arpcache_insert`, at clock reading `now`. -/
  | reply (now : Int) (mac : Mac) (ip : UInt32)
  /-- `sr_arpcache_lookup`. -/
  | lookup (ip : UInt32)
  /-- The expiry loop of `sr_arpcache_timeout`. -/
  | expire (now : Int)

/-- The cache from `sr_arpcache_init` on; its actions are the results of lookups. -/
def cacheSystem : System SrArpcache CacheOp (Option SrArpentry) where
  init := .init
  step _ c
    | .reply now mac ip => ((srArpcacheInsert now c mac ip).1, [])
    | .lookup ip => (c, [srArpcacheLookup c ip])
    | .expire now => ({ c with entries := expireEntries now c.entries }, [])

/-- No two valid entries are for the same address. -/
def UniqueIps (t : ArpTable) : Prop :=
  ∀ (i j : Nat) (a b : SrArpentry), t.slots[i]? = some a → t.slots[j]? = some b → a.valid = true → b.Answers a.ip → i = j

/-- The operation stores no mapping for an address that has a valid entry. -/
def NewMapping (c : SrArpcache) : CacheOp → Prop
  | .reply _ _ ip => freeSlot c.entries = arpcacheSz ∨ ∀ e ∈ c.entries.slots, ¬ e.Answers ip
  | .lookup _ => True
  | .expire _ => True

/-! ## What each operation does to uniqueness -/

theorem uniqueIps_init : UniqueIps .init := by
  intro i j a b ha hb hv
  rw [init_entry (List.mem_of_getElem? ha)] at hv
  cases hv

/-- Expiry makes no entry valid. -/
theorem UniqueIps.expire {t : ArpTable} (h : UniqueIps t) (now : Int) : UniqueIps (expireEntries now t) := by
  have hback : ∀ (k : Nat) (e : SrArpentry), (expireEntries now t).slots[k]? = some e → e.valid = true → t.slots[k]? = some e := by
    intro k e he hv
    simp only [expireEntries, List.getElem?_map, Option.map_eq_some_iff] at he
    obtain ⟨e', he', rfl⟩ := he
    split at hv
    · cases hv
    · rename_i hc
      rw [if_neg hc, he']
  intro i j a b ha hb hv hans
  exact h i j a b (hback i a ha hv) (hback j b hb hans.1) hv hans

/-- A new entry keeps addresses apart exactly if none for its address is there. -/
theorem uniqueIps_set {t : ArpTable} (h : UniqueIps t) (hfree : freeSlot t ≠ arpcacheSz) {new : SrArpentry}
    (hv : new.valid = true) :
    UniqueIps (t.set (freeSlot t) new) ↔ ∀ e ∈ t.slots, ¬ e.Answers new.ip := by
  have hnew : (t.set (freeSlot t) new).slots[freeSlot t]? = some new := by
    rw [ArpTable.set, List.getElem?_set_self (freeSlot_lt hfree)]
  have hold : ∀ k, freeSlot t ≠ k → (t.set (freeSlot t) new).slots[k]? = t.slots[k]? := by
    intro k hk
    rw [ArpTable.set, List.getElem?_set_ne hk]
  constructor
  · intro hu e he hans
    obtain ⟨k, hk⟩ := List.mem_iff_getElem?.1 he
    -- an entry that answers is not in the free slot
    have hne : freeSlot t ≠ k := fun hf => freeSlot_free (hf ▸ hk) hans
    exact hne (hu _ k new e hnew ((hold k hne).trans hk) hv hans)
  · intro hn i j a b ha hb hav hans
    by_cases hi : freeSlot t = i
    · subst hi
      obtain rfl : new = a := by rw [hnew] at ha; exact Option.some.inj ha
      by_contra hij
      rw [hold j hij] at hb
      exact hn b (List.mem_of_getElem? hb) hans
    · rw [hold i hi] at ha
      by_cases hj : freeSlot t = j
      · subst hj
        obtain rfl : new = b := by rw [hnew] at hb; exact Option.some.inj hb
        exact absurd ⟨hav, hans.2.symm⟩ (hn a (List.mem_of_getElem? ha))
      · rw [hold j hj] at hb
        exact h i j a b ha hb hav hans

theorem cacheSystem_step (n : Nat) (c : SrArpcache) (op : CacheOp) (h : UniqueIps c.entries) :
    UniqueIps (cacheSystem.step n c op).1.entries ↔ NewMapping c op := by
  cases op with
  | reply now mac ip =>
    by_cases hfree : freeSlot c.entries = arpcacheSz
    · have he : (srArpcacheInsert now c mac ip).1.entries = c.entries := by
        rw [srArpcacheInsert, if_neg (not_not.2 hfree)]
      exact iff_of_true (he ▸ h) (.inl hfree)
    · have he : (srArpcacheInsert now c mac ip).1.entries = c.entries.set (freeSlot c.entries) ⟨mac, ip, now, true⟩ := by
        rw [srArpcacheInsert, if_pos hfree]
      simp only [cacheSystem, he, NewMapping, hfree, false_or]
      exact uniqueIps_set h hfree rfl
  | lookup ip => exact iff_of_true h trivial
  | expire now => exact iff_of_true (h.expire now) trivial

/-! ## Runs -/

/-- The valid entries of every state of a run are for different addresses if
and only if no reply of it is stored for an address with a valid entry. -/
theorem unique_iff (ops : List CacheOp) :
    (∀ pre post, ops = pre ++ post → UniqueIps (cacheSystem.state pre).entries) ↔ cacheSystem.Along NewMapping ops :=
  cacheSystem.along_iff (I := fun c => UniqueIps c.entries) uniqueIps_init cacheSystem_step ops

/-- A host that answers twice has two entries. -/
theorem answered_twice :
    ¬ UniqueIps (cacheSystem.state [.reply 0 .broadcast 0x0701000A, .reply 1 .broadcast 0x0701000A]).entries := by
  intro h
  have h01 := h 0 1 ⟨.broadcast, 0x0701000A, 0, true⟩ ⟨.broadcast, 0x0701000A, 1, true⟩ (by decide +kernel)
    (by decide +kernel) rfl ⟨rfl, rfl⟩
  cases h01

/-! ## The cache of a router -/

section Router
variable (ifs : List SrIf) (rts : List SrRt)

theorem insert_entries {c c' : SrArpcache} (h : c.entries = c'.entries) (now : Int) (mac : Mac) (ip : UInt32) :
    (srArpcacheInsert now c mac ip).1.entries = (srArpcacheInsert now c' mac ip).1.entries := by
  simp only [srArpcacheInsert, h]

/-- The entries of a router are those of a run of the cache. -/
theorem router_cache (es : List Event) :
    ∃ ops, (cacheSystem.state ops).entries = ((router ifs rts).state es).cache.entries := by
  induction es using List.reverseRecOn with
  | nil => exact ⟨[], rfl⟩
  | append_singleton es e ih =>
    obtain ⟨ops, hops⟩ := ih
    have hs := (run_step ifs rts es e).changes
    generalize (router ifs rts).state (es ++ [e]) = sr' at hs ⊢
    cases hs with
    | same => exact ⟨ops, hops⟩
    | @learn _ _ _ _ now mac ip =>
      refine ⟨ops ++ [.reply now mac ip], ?_⟩
      rw [System.state_snoc]
      exact insert_entries hops now mac ip
    | join => exact ⟨ops, hops⟩
    | fresh => exact ⟨ops, hops⟩
    | @sweep env =>
      refine ⟨ops ++ [.expire (env.clock 0)], ?_⟩
      rw [System.state_snoc]
      exact congrArg (expireEntries (env.clock 0)) hops

/-- The reply a request waits for is for an address without an entry: only
replies nobody waits for can repeat one. -/
theorem solicited_new (es : List Event) {r : SrArpreq} (hr : r ∈ ((router ifs rts).state es).cache.requests) (now : Int)
    (mac : Mac) : NewMapping ((router ifs rts).state es).cache (.reply now mac r.ip) := by
  obtain ⟨hw, -⟩ := reachable ifs rts es
  exact .inr fun e he hans => hw.apart r hr e he hans.1 hans.2

end Router

end SimpleRouter
