import SimpleRouter.Invariants
/-!
# What the cache answers after a reply

`sr_arpcache_insert` puts a mapping in the lowest free slot without looking for
an older one, and `sr_arpcache_lookup` returns the highest slot that matches.
So a new mapping is hidden by an older one above it, and lost when no slot is
free; `insert_then_lookup_iff` says exactly when it is found.
-/
open Memory CProg Runs

namespace SimpleRouter

/-! ## The entry a lookup returns -/

def SrArpentry.Answers (ip : UInt32) (e : SrArpentry) : Prop := e.valid = true ∧ e.ip = ip

instance (ip : UInt32) (e : SrArpentry) : Decidable (e.Answers ip) := inferInstanceAs (Decidable (_ ∧ _))

/-- No entry above slot `k` answers for `ip`. -/
def NoneAbove (slots : List SrArpentry) (ip : UInt32) (k : Nat) : Prop :=
  ∀ j e, k < j → slots[j]? = some e → ¬ e.Answers ip

theorem lookupLoop_snoc (ip : UInt32) (acc : Option SrArpentry) (slots : List SrArpentry) (a : SrArpentry) :
    lookupLoop ip acc (slots ++ [a]) = if a.Answers ip then some a else lookupLoop ip acc slots := by
  rw [lookupLoop, List.foldl_append]
  rfl

theorem NoneAbove.snoc {slots : List SrArpentry} {ip : UInt32} {k : Nat} {a : SrArpentry}
    (h : NoneAbove slots ip k) (ha : ¬ a.Answers ip) : NoneAbove (slots ++ [a]) ip k := by
  intro j e hj he
  rcases Nat.lt_trichotomy j slots.length with hl | rfl | hl
  · rw [List.getElem?_append_left hl] at he
    exact h j e hj he
  · rw [List.getElem?_append_right (Nat.le_refl _)] at he
    obtain rfl : a = e := by simpa using he
    exact ha
  · rw [List.getElem?_eq_none (by simp; omega)] at he
    cases he

/-- A lookup returns the last entry that answers. -/
theorem lookupLoop_last {ip : UInt32} {slots : List SrArpentry} {e : SrArpentry}
    (h : lookupLoop ip none slots = some e) : ∃ k, slots[k]? = some e ∧ e.Answers ip ∧ NoneAbove slots ip k := by
  induction slots using List.reverseRecOn with
  | nil => cases h
  | append_singleton slots a ih =>
    rw [lookupLoop_snoc] at h
    split at h
    · rename_i ha
      cases h
      refine ⟨slots.length, by simp, ha, fun j e hj he => ?_⟩
      rw [List.getElem?_eq_none (by simp; omega)] at he
      cases he
    · rename_i ha
      obtain ⟨k, hk, he, hn⟩ := ih h
      refine ⟨k, ?_, he, hn.snoc ha⟩
      rw [List.getElem?_append_left (List.getElem?_eq_some_iff.1 hk).1, hk]

theorem lookupLoop_of_last {ip : UInt32} {slots : List SrArpentry} {e : SrArpentry} {k : Nat}
    (hk : slots[k]? = some e) (he : e.Answers ip) (hn : NoneAbove slots ip k) :
    lookupLoop ip none slots = some e := by
  have hs : (lookupLoop ip none slots).isSome := lookupLoop_isSome (.inr ⟨e, List.mem_of_getElem? hk, he⟩)
  obtain ⟨e', he'⟩ := Option.isSome_iff_exists.1 hs
  obtain ⟨k', hk', ha', hn'⟩ := lookupLoop_last he'
  -- two last entries are the same one
  rcases Nat.lt_trichotomy k k' with hl | rfl | hl
  · exact absurd ha' (hn k' e' hl hk')
  · rw [he', ← hk', hk]
  · exact absurd he (hn' k e hl hk)

/-! ## The slot an insertion takes -/

/-- The entry in the free slot is not valid. -/
theorem freeSlot_free {t : ArpTable} {ip : UInt32} {e : SrArpentry} (h : t.slots[freeSlot t]? = some e) :
    ¬ e.Answers ip := by
  rintro ⟨hv, -⟩
  have hf := List.findIdx_of_getElem?_eq_some h
  rw [hv] at hf
  cases hf

theorem freeSlot_lt {t : ArpTable} (h : freeSlot t ≠ arpcacheSz) : freeSlot t < t.slots.length := by
  have hle : freeSlot t ≤ t.slots.length := List.findIdx_le_length
  have hsz := t.size_eq
  omega

/-- An older entry in slot `k` keeps answering after the free slot is filled, unless that slot is above it. -/
theorem NoneAbove.set {t : ArpTable} {ip : UInt32} {k : Nat} (h : NoneAbove t.slots ip k) {new : SrArpentry}
    (hk : freeSlot t ≤ k) : NoneAbove (t.set (freeSlot t) new).slots ip k := by
  intro j e hj he
  rw [ArpTable.set, List.getElem?_set_ne (by omega)] at he
  exact h j e hj he

theorem NoneAbove.of_set {t : ArpTable} {ip : UInt32} {k : Nat} {new : SrArpentry}
    (h : NoneAbove (t.set (freeSlot t) new).slots ip k) : NoneAbove t.slots ip k := by
  intro j e hj he
  by_cases hf : freeSlot t = j
  · subst hf
    exact freeSlot_free he
  · refine h j e hj ?_
    rw [ArpTable.set, List.getElem?_set_ne hf, he]

/-! ## When a reply is found -/

/-- A mapping of `ip` to `mac` inserted into `t` is the one that is looked up:
a slot is free and no older entry for `ip` is above it, or the last entry for
`ip` says the same. -/
def WillAnswer (t : ArpTable) (mac : Mac) (ip : UInt32) : Prop :=
  (freeSlot t ≠ arpcacheSz ∧ NoneAbove t.slots ip (freeSlot t)) ∨
    ∃ k e, t.slots[k]? = some e ∧ e.Answers ip ∧ e.mac = mac ∧ NoneAbove t.slots ip k

theorem willAnswer_of_lookup {now : Int} {c : SrArpcache} {mac : Mac} {ip : UInt32}
    (h : (srArpcacheLookup (srArpcacheInsert now c mac ip).1 ip).map (·.mac) = some mac) :
    WillAnswer c.entries mac ip := by
  obtain ⟨e, he, hmac⟩ := Option.map_eq_some_iff.1 h
  by_cases hfree : freeSlot c.entries = arpcacheSz
  · rw [srArpcacheInsert, if_neg (not_not.2 hfree)] at he
    obtain ⟨k, hk, ha, hn⟩ := lookupLoop_last he
    exact .inr ⟨k, e, hk, ha, hmac, hn⟩
  · rw [srArpcacheInsert, if_pos hfree] at he
    obtain ⟨k, hk, ha, hn⟩ := lookupLoop_last he
    by_cases hkf : freeSlot c.entries = k
    · subst hkf
      exact .inl ⟨hfree, hn.of_set⟩
    · refine .inr ⟨k, e, ?_, ha, hmac, hn.of_set⟩
      rw [← hk, ArpTable.set, List.getElem?_set_ne hkf]

theorem lookup_of_willAnswer {now : Int} {c : SrArpcache} {mac : Mac} {ip : UInt32}
    (h : WillAnswer c.entries mac ip) :
    (srArpcacheLookup (srArpcacheInsert now c mac ip).1 ip).map (·.mac) = some mac := by
  -- the new entry answers if it is put where nothing above it does
  have hnew : freeSlot c.entries ≠ arpcacheSz → NoneAbove c.entries.slots ip (freeSlot c.entries) →
      (srArpcacheLookup (srArpcacheInsert now c mac ip).1 ip).map (·.mac) = some mac := by
    intro hfree hn
    have hl : srArpcacheLookup (srArpcacheInsert now c mac ip).1 ip = some ⟨mac, ip, now, true⟩ := by
      rw [srArpcacheInsert, if_pos hfree]
      refine lookupLoop_of_last (k := freeSlot c.entries) ?_ ⟨rfl, rfl⟩ (hn.set (Nat.le_refl _))
      rw [ArpTable.set, List.getElem?_set_self (freeSlot_lt hfree)]
    rw [hl]
    rfl
  rcases h with ⟨hfree, hn⟩ | ⟨k, e, hk, ha, hmac, hn⟩
  · exact hnew hfree hn
  · by_cases hfree : freeSlot c.entries = arpcacheSz
    · have hl : srArpcacheLookup (srArpcacheInsert now c mac ip).1 ip = some e := by
        rw [srArpcacheInsert, if_neg (not_not.2 hfree)]
        exact lookupLoop_of_last hk ha hn
      rw [hl, Option.map_some, hmac]
    · rcases Nat.lt_trichotomy (freeSlot c.entries) k with hl | rfl | hl
      · have hl : srArpcacheLookup (srArpcacheInsert now c mac ip).1 ip = some e := by
          rw [srArpcacheInsert, if_pos hfree]
          refine lookupLoop_of_last (k := k) ?_ ha (hn.set (Nat.le_of_lt hl))
          rw [ArpTable.set, List.getElem?_set_ne (Nat.ne_of_lt hl), hk]
        rw [hl, Option.map_some, hmac]
      · exact absurd ha (freeSlot_free hk)
      · exact hnew hfree fun j e' hj he' => hn j e' (by omega) he'

/-- In every reachable state, a mapping just inserted is looked up exactly if
the table would answer with it. -/
theorem insert_then_lookup_iff (ifs : List SrIf) (rts : List SrRt) (es : List Event) (now : Int) (mac : Mac)
    (ip : UInt32) :
    (srArpcacheLookup (srArpcacheInsert now ((router ifs rts).state es).cache mac ip).1 ip).map (·.mac) = some mac ↔
      WillAnswer ((router ifs rts).state es).cache.entries mac ip :=
  ⟨willAnswer_of_lookup, lookup_of_willAnswer⟩

/-- 10.0.1.7 moves from one address to another. The reply that says so comes
when a slot below the older entry has expired, and is not found. -/
theorem insert_then_lookup_stale :
    (srArpcacheLookup (srArpcacheInsert 17 ((router Sample.ifs Sample.rts).state
        [Sample.received Sample.e2 ((Sample.arpReply 6).set 31 6) 0, Sample.received Sample.e2 (Sample.arpReply 7) 10,
          Sample.sweep 16]).cache ⟨List.replicate 6 8, rfl⟩ 0x0701000A).1 0x0701000A).map (·.mac) ≠
      some ⟨List.replicate 6 8, rfl⟩ := by
  have h : srArpcacheLookup (srArpcacheInsert 17 ((router Sample.ifs Sample.rts).state
        [Sample.received Sample.e2 ((Sample.arpReply 6).set 31 6) 0, Sample.received Sample.e2 (Sample.arpReply 7) 10,
          Sample.sweep 16]).cache ⟨List.replicate 6 8, rfl⟩ 0x0701000A).1 0x0701000A =
      some ⟨⟨List.replicate 6 7, rfl⟩, 0x0701000A, 10, true⟩ := by decide +kernel
  rw [h]
  decide

end SimpleRouter
