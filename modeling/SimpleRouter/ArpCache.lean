import Mathlib.Data.List.Nodup
import SimpleRouter.Types
/-!
# The ARP cache

The operations of `sr_arpcache.c` on the entry table and the request queue,
each with the facts the rest of the development uses. The queue is the linked
list from `cache->requests` on; writing through a request pointer is `updReq`,
which changes the node at that address.
-/

namespace SimpleRouter

/-! ## Entries -/

def ArpTable.init : ArpTable := ⟨List.replicate arpcacheSz ⟨.zero, 0, 0, false⟩, by simp⟩

/-- `sr_arpcache_init`. -/
def SrArpcache.init : SrArpcache := ⟨.init, []⟩

/-- The loop of `sr_arpcache_lookup`: the last valid entry for `ip`. -/
def lookupLoop (ip : UInt32) (entry : Option SrArpentry) (slots : List SrArpentry) : Option SrArpentry :=
  slots.foldl (fun entry e => if e.valid ∧ e.ip = ip then some e else entry) entry

/-- `sr_arpcache_lookup`, which returns a copy of the entry. -/
def srArpcacheLookup (c : SrArpcache) (ip : UInt32) : Option SrArpentry := lookupLoop ip none c.entries.slots

/-- The slot `sr_arpcache_insert` stops at: the first that is not valid, or
`SR_ARPCACHE_SZ`. -/
def freeSlot (t : ArpTable) : Nat := t.slots.findIdx (fun e => !e.valid)

/-- `cache->entries[i] = e`. -/
def ArpTable.set (t : ArpTable) (i : Nat) (e : SrArpentry) : ArpTable :=
  ⟨t.slots.set i e, by rw [List.length_set, t.size_eq]⟩

/-- The expiry loop of `sr_arpcache_timeout` at clock reading `curtime`. -/
def expireEntries (curtime : Int) (t : ArpTable) : ArpTable :=
  ⟨t.slots.map fun e => if e.valid ∧ curtime - e.added > arpcacheTo then { e with valid := false } else e,
    by rw [List.length_map, t.size_eq]⟩

/-! ## Requests -/

/-- The first request for `ip`. -/
def findReq (ip : UInt32) (reqs : List SrArpreq) : Option SrArpreq := reqs.find? (fun r => r.ip = ip)

/-- `*req` for the node at address `ptr`. -/
def derefReq (ptr : Nat) (reqs : List SrArpreq) : Option SrArpreq := reqs.find? (fun r => r.ptr = ptr)

/-- A write through the pointer `ptr`. -/
def updReq (ptr : Nat) (f : SrArpreq → SrArpreq) (reqs : List SrArpreq) : List SrArpreq :=
  reqs.map fun r => if r.ptr = ptr then f r else r

/-- The router with another request queue. -/
def SrInstance.setRequests (sr : SrInstance) (reqs : List SrArpreq) : SrInstance :=
  { sr with cache := { sr.cache with requests := reqs } }

/-- `updReq` on the router's queue. -/
def SrInstance.updReq (sr : SrInstance) (ptr : Nat) (f : SrArpreq → SrArpreq) : SrInstance :=
  sr.setRequests (SimpleRouter.updReq ptr f sr.cache.requests)

/-- `req->next` of the node at `ptr`. -/
def nextReq (ptr : Nat) : List SrArpreq → Option Nat
  | [] => none
  | r :: rs => if r.ptr = ptr then rs.head?.map (·.ptr) else nextReq ptr rs

/-- A packet linked in at the front of a request's list. -/
def SrArpreq.push (pkt : SrPacket) (r : SrArpreq) : SrArpreq := { r with packets := pkt :: r.packets }

/-- `sr_arpcache_queuereq`: adds `pkt` to the front of the packet list of the
request for `ip`, which is put at the front of the queue, at the fresh address
`new`, if there is none. Returns the request's address. -/
def srArpcacheQueuereq (new : Nat) (c : SrArpcache) (ip : UInt32) (pkt : SrPacket) : SrArpcache × Nat :=
  let (req, reqs) := match findReq ip c.requests with
    | some r => (r.ptr, c.requests)
    | none => (new, ⟨new, ip, 0, 0, []⟩ :: c.requests)
  -- the guard `packet && packet_len && iface`; the two pointers are never null
  let reqs := if pkt.buf.length ≠ 0 then updReq req (.push pkt) reqs
    else reqs
  ({ c with requests := reqs }, req)

/-- `sr_arpcache_insert` at clock reading `now`: takes the request for `ip` off
the queue and returns it, and stores the mapping if a slot is free. -/
def srArpcacheInsert (now : Int) (c : SrArpcache) (mac : Mac) (ip : UInt32) : SrArpcache × Option SrArpreq :=
  let req := findReq ip c.requests
  let requests := c.requests.eraseP (fun r => r.ip = ip)
  let i := freeSlot c.entries
  let entries := if i ≠ arpcacheSz then c.entries.set i ⟨mac, ip, now, true⟩ else c.entries
  (⟨entries, requests⟩, req)

/-- `sr_arpreq_destroy`: unlinks the node at `ptr`, if it is on the queue. -/
def srArpreqDestroy (c : SrArpcache) (ptr : Nat) : SrArpcache :=
  { c with requests := c.requests.eraseP (fun r => r.ptr = ptr) }

/-! ## Facts about entries -/

/-- `lookup` returns a valid entry for the address, if there is one. -/
theorem lookupLoop_some {ip : UInt32} {slots : List SrArpentry} {acc : Option SrArpentry} {e : SrArpentry}
    (h : lookupLoop ip acc slots = some e) : acc = some e ∨ e ∈ slots ∧ e.valid = true ∧ e.ip = ip := by
  induction slots generalizing acc with
  | nil => exact .inl h
  | cons a slots ih =>
    have h : lookupLoop ip (if a.valid ∧ a.ip = ip then some a else acc) slots = some e := h
    rcases ih h with h' | ⟨h', hv⟩
    · split at h'
      · rename_i hc; cases h'; exact .inr ⟨by simp, hc⟩
      · exact .inl h'
    · exact .inr ⟨by simp [h'], hv⟩

theorem lookup_some {c : SrArpcache} {ip : UInt32} {e : SrArpentry} (h : srArpcacheLookup c ip = some e) :
    e ∈ c.entries.slots ∧ e.valid = true ∧ e.ip = ip := by
  rcases lookupLoop_some h with h' | h'
  · cases h'
  · exact h'

theorem lookupLoop_isSome {ip : UInt32} {slots : List SrArpentry} {acc : Option SrArpentry}
    (h : acc.isSome ∨ ∃ e ∈ slots, e.valid = true ∧ e.ip = ip) : (lookupLoop ip acc slots).isSome := by
  induction slots generalizing acc with
  | nil => simpa [lookupLoop] using h
  | cons a slots ih =>
    apply ih
    by_cases ha : a.valid ∧ a.ip = ip
    · exact .inl (by simp [ha])
    · rcases h with h | ⟨e, he, hv⟩
      · exact .inl (by simpa [ha] using h)
      · rcases List.mem_cons.1 he with rfl | he
        · exact absurd hv ha
        · exact .inr ⟨e, he, hv⟩

/-- A miss means no valid entry for the address. -/
theorem lookup_none {c : SrArpcache} {ip : UInt32} (h : srArpcacheLookup c ip = none) :
    ∀ e ∈ c.entries.slots, e.valid = true → e.ip ≠ ip := by
  intro e he hv hip
  have hs : (srArpcacheLookup c ip).isSome := lookupLoop_isSome (.inr ⟨e, he, hv, hip⟩)
  rw [h] at hs
  cases hs

/-- A valid entry after an insertion was there before or is the new one. -/
theorem insert_entry {now : Int} {c : SrArpcache} {mac : Mac} {ip : UInt32} {e : SrArpentry}
    (h : e ∈ (srArpcacheInsert now c mac ip).1.entries.slots) :
    e ∈ c.entries.slots ∨ e = ⟨mac, ip, now, true⟩ := by
  simp only [srArpcacheInsert] at h
  split at h
  · exact List.mem_or_eq_of_mem_set h
  · exact .inl h

/-- Expiry keeps a valid entry only if it is at most 15 seconds old. -/
theorem expire_entry {t : Int} {tab : ArpTable} {e : SrArpentry} (h : e ∈ (expireEntries t tab).slots)
    (hv : e.valid = true) : e ∈ tab.slots ∧ t - e.added ≤ arpcacheTo := by
  simp only [expireEntries, List.mem_map] at h
  obtain ⟨e', he', rfl⟩ := h
  split at hv
  · cases hv
  · rename_i hc
    rw [if_neg hc]
    refine ⟨he', ?_⟩
    simp only [not_and] at hc
    have := hc hv
    omega

theorem init_entry {e : SrArpentry} (h : e ∈ ArpTable.init.slots) : e.valid = false := by
  simp only [ArpTable.init, List.mem_replicate] at h
  rw [h.2]

/-! ## Facts about requests -/

theorem findReq_some {ip : UInt32} {reqs : List SrArpreq} {r : SrArpreq} (h : findReq ip reqs = some r) :
    r ∈ reqs ∧ r.ip = ip :=
  ⟨List.mem_of_find?_eq_some h, by simpa using List.find?_some h⟩

/-- Where the request for an address sits, and the queue without it. -/
theorem findReq_split {ip : UInt32} {reqs : List SrArpreq} {r : SrArpreq} (h : findReq ip reqs = some r) :
    ∃ as bs, reqs = as ++ r :: bs ∧ (∀ a ∈ as, a.ip ≠ ip) ∧ reqs.eraseP (fun r => r.ip = ip) = as ++ bs := by
  obtain ⟨hr, as, bs, rfl, ha⟩ := List.find?_eq_some_iff_append.1 h
  have ha' : ∀ a ∈ as, a.ip ≠ ip := by simpa using ha
  refine ⟨as, bs, rfl, ha', ?_⟩
  rw [List.eraseP_append_right _ (by simpa using ha'), List.eraseP_cons, hr, cond_true]

theorem findReq_none {ip : UInt32} {reqs : List SrArpreq} (h : findReq ip reqs = none) :
    ∀ r ∈ reqs, r.ip ≠ ip := by
  intro r hr
  simpa using List.find?_eq_none.1 h r hr

theorem updReq_cons (p : Nat) (f : SrArpreq → SrArpreq) (r : SrArpreq) (rs : List SrArpreq) :
    updReq p f (r :: rs) = (if r.ptr = p then f r else r) :: updReq p f rs := rfl

@[simp] theorem updReq_nil (p : Nat) (f : SrArpreq → SrArpreq) : updReq p f [] = [] := rfl

/-- Writing through a pointer that is not on the queue changes nothing. -/
theorem updReq_of_notMem {p : Nat} {f : SrArpreq → SrArpreq} {reqs : List SrArpreq}
    (h : ∀ r ∈ reqs, r.ptr ≠ p) : updReq p f reqs = reqs := by
  refine (List.map_congr_left fun r hr => ?_).trans (List.map_id reqs)
  simp [h r hr]

theorem mem_updReq {p : Nat} {f : SrArpreq → SrArpreq} {reqs : List SrArpreq} {r : SrArpreq}
    (h : r ∈ updReq p f reqs) : (r ∈ reqs ∧ r.ptr ≠ p) ∨ ∃ r' ∈ reqs, r'.ptr = p ∧ r = f r' := by
  simp only [updReq, List.mem_map] at h
  obtain ⟨r', hr', rfl⟩ := h
  by_cases hp : r'.ptr = p
  · exact .inr ⟨r', hr', hp, by simp [hp]⟩
  · exact .inl (by simp [hp, hr'])

/-- A write that keeps a field keeps that field of the whole queue. -/
theorem map_updReq {β : Type} (g : SrArpreq → β) (p : Nat) (f : SrArpreq → SrArpreq) (hf : ∀ r, g (f r) = g r)
    (reqs : List SrArpreq) : (updReq p f reqs).map g = reqs.map g := by
  simp only [updReq, List.map_map]
  refine List.map_congr_left fun r _ => ?_
  simp only [Function.comp_apply]
  split
  · exact hf r
  · rfl

/-! ## The queue around a node -/

section Around
variable {as bs : List SrArpreq} {r : SrArpreq}

/-- Where a field tells the nodes apart, the other nodes differ in it. -/
theorem ne_of_nodup_map {β : Type} (g : SrArpreq → β) (h : ((as ++ r :: bs).map g).Nodup) :
    ∀ a ∈ as ++ bs, g a ≠ g r := by
  intro a ha hga
  rw [List.map_append, List.map_cons, List.nodup_middle] at h
  refine (List.nodup_cons.1 h).1 ?_
  rw [← List.map_append, ← hga]
  exact List.mem_map_of_mem ha

theorem derefReq_middle (h : ((as ++ r :: bs).map (·.ptr)).Nodup) : derefReq r.ptr (as ++ r :: bs) = some r := by
  have ha : ∀ a ∈ as, a.ptr ≠ r.ptr := fun a ha => ne_of_nodup_map (·.ptr) h a (by simp [ha])
  rw [derefReq, List.find?_append, List.find?_eq_none.2 (by simpa using ha)]
  simp

theorem derefReq_of_mem {reqs : List SrArpreq} (h : (reqs.map (·.ptr)).Nodup) (hr : r ∈ reqs) :
    derefReq r.ptr reqs = some r := by
  obtain ⟨as, bs, rfl⟩ := List.append_of_mem hr
  exact derefReq_middle h

theorem eq_of_ptr {reqs : List SrArpreq} (h : (reqs.map (·.ptr)).Nodup) {q : SrArpreq} (hq : q ∈ reqs) (hr : r ∈ reqs)
    (hp : q.ptr = r.ptr) : q = r := by
  have hd := derefReq_of_mem h hq
  rw [hp, derefReq_of_mem h hr] at hd
  exact (Option.some.inj hd).symm

/-- A write through a request's pointer is seen through it. -/
theorem derefReq_updReq {reqs : List SrArpreq} {p : Nat} {f : SrArpreq → SrArpreq} (hf : ∀ q, (f q).ptr = q.ptr) :
    derefReq p (updReq p f reqs) = (derefReq p reqs).map f := by
  induction reqs with
  | nil => rfl
  | cons q qs ih =>
    rw [updReq_cons, derefReq, derefReq]
    by_cases hq : q.ptr = p
    · simp [hq, hf]
    · simpa [hq, derefReq] using ih

theorem nextReq_middle (h : ((as ++ r :: bs).map (·.ptr)).Nodup) :
    nextReq r.ptr (as ++ r :: bs) = bs.head?.map (·.ptr) := by
  have ha : ∀ a ∈ as, a.ptr ≠ r.ptr := fun a ha => ne_of_nodup_map (·.ptr) h a (by simp [ha])
  clear h
  induction as with
  | nil => simp [nextReq]
  | cons a as ih => rw [List.cons_append, nextReq, if_neg (ha a (by simp)), ih fun b hb => ha b (by simp [hb])]

theorem updReq_middle (h : ((as ++ r :: bs).map (·.ptr)).Nodup) (f : SrArpreq → SrArpreq) :
    updReq r.ptr f (as ++ r :: bs) = as ++ f r :: bs := by
  have hne := ne_of_nodup_map (·.ptr) h
  have e : updReq r.ptr f (as ++ r :: bs) = updReq r.ptr f as ++ f r :: updReq r.ptr f bs := by simp [updReq]
  rw [e, updReq_of_notMem fun a ha => hne a (by simp [ha]), updReq_of_notMem fun b hb => hne b (by simp [hb])]

theorem eraseP_middle (h : ((as ++ r :: bs).map (·.ptr)).Nodup) :
    (as ++ r :: bs).eraseP (fun q => q.ptr = r.ptr) = as ++ bs := by
  have ha : ∀ a ∈ as, a.ptr ≠ r.ptr := fun a ha => ne_of_nodup_map (·.ptr) h a (by simp [ha])
  rw [List.eraseP_append_right _ (by simpa using ha)]
  simp

end Around

/-- Once its request is taken off, an address is not asked for any more. -/
theorem ip_ne_of_erased {ip : UInt32} {reqs : List SrArpreq} (h : (reqs.map (·.ip)).Nodup) :
    ∀ r ∈ reqs.eraseP (fun r => r.ip = ip), r.ip ≠ ip := by
  intro r hr
  cases hf : findReq ip reqs with
  | none =>
    rw [List.eraseP_of_forall_not (by simpa using findReq_none hf)] at hr
    exact findReq_none hf r hr
  | some q =>
    obtain ⟨as, bs, rfl, -, he⟩ := findReq_split hf
    rw [← (findReq_some hf).2]
    exact ne_of_nodup_map (·.ip) h r (he ▸ hr)

/-- Where no address is asked for twice, a request is found by its address. -/
theorem findReq_of_mem {reqs : List SrArpreq} (h : (reqs.map (·.ip)).Nodup) {r : SrArpreq} (hr : r ∈ reqs) :
    findReq r.ip reqs = some r := by
  cases hf : findReq r.ip reqs with
  | none => exact absurd rfl (findReq_none hf r hr)
  | some q =>
    obtain ⟨hq, hip⟩ := findReq_some hf
    rw [List.inj_on_of_nodup_map h hq hr hip]

/-! ## Queueing a packet -/

section Queue
variable {n : Nat} {c : SrArpcache} {ip : UInt32} {pkt : SrPacket} (hpkt : pkt.buf.length ≠ 0)
include hpkt

/-- A packet for an address that is being asked for joins that request. -/
theorem queuereq_join {r : SrArpreq} (h : findReq ip c.requests = some r) :
    srArpcacheQueuereq n c ip pkt = ({ c with requests := updReq r.ptr (.push pkt) c.requests }, r.ptr) := by
  simp [srArpcacheQueuereq, h, hpkt]

/-- The first packet for an address gets a request of its own. -/
theorem queuereq_new (h : findReq ip c.requests = none) (hn : ∀ r ∈ c.requests, r.ptr ≠ n) :
    srArpcacheQueuereq n c ip pkt = ({ c with requests := ⟨n, ip, 0, 0, [pkt]⟩ :: c.requests }, n) := by
  have hu : updReq n (.push pkt) (⟨n, ip, 0, 0, []⟩ :: c.requests) = ⟨n, ip, 0, 0, [pkt]⟩ :: c.requests := by
    rw [updReq_cons, if_pos rfl, updReq_of_notMem hn]
    rfl
  simp [srArpcacheQueuereq, h, hpkt, hu]

end Queue

end SimpleRouter
