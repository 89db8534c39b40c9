import SimpleRouter.Lib.Best
import SimpleRouter.RoutingTable
import SimpleRouter.System
import SimpleRouter.Passes
/-!
# Which route is chosen

`lpmScan` is a scan for the largest mask in host order (`lpmScan_eq`), and among
contiguous masks larger means longer. What the scan has to beat at the start is
the mask 0, which a route to 0.0.0.0/0 does not: it is never chosen, and this is
the only way in which the lookup is not a longest prefix match (`lpm_exact_iff`).
The choice does not depend on the order of the table (`route_selection_perm`).
-/
open Memory Best

namespace SimpleRouter

/-! ## Prefixes -/

/-- The mask of a prefix of length `n`, in network byte order. -/
def netmask (n : Nat) : UInt32 := swap32 (.ofNat (2 ^ 32 - 2 ^ (32 - n)))

/-- The mask is that of a prefix. -/
def Contiguous (mask : UInt32) : Prop := ∃ n ≤ 32, mask = netmask n

/-- The route covers the address. -/
def SrRt.Covers (rt : SrRt) (dst : UInt32) : Prop := dst &&& rt.mask = rt.dest &&& rt.mask

instance (rt : SrRt) (dst : UInt32) : Decidable (rt.Covers dst) := inferInstanceAs (Decidable (_ = _))

theorem toNat_netmask {n : Nat} : (swap32 (netmask n)).toNat = 2 ^ 32 - 2 ^ (32 - n) := by
  have hpos : 0 < 2 ^ (32 - n) := Nat.two_pow_pos _
  rw [netmask, swap32_swap32, UInt32.toNat_ofNat_of_lt']
  simp only [UInt32.size]
  omega

/-- Of two prefix masks the larger in host order is the longer. -/
theorem netmask_le_iff {n m : Nat} (hn : n ≤ 32) (hm : m ≤ 32) :
    (swap32 (netmask n)).toNat ≤ (swap32 (netmask m)).toNat ↔ n ≤ m := by
  have hn2 : 2 ^ (32 - n) ≤ 2 ^ 32 := Nat.pow_le_pow_right (by omega) (by omega)
  have hm2 : 2 ^ (32 - m) ≤ 2 ^ 32 := Nat.pow_le_pow_right (by omega) (by omega)
  have hpow : 2 ^ (32 - m) ≤ 2 ^ (32 - n) ↔ 32 - m ≤ 32 - n := Nat.pow_le_pow_iff_right (by omega)
  rw [toNat_netmask, toNat_netmask]
  omega

/-- The mask in host order, by which routes are compared. -/
def SrRt.hostMask (rt : SrRt) : Nat := (swap32 rt.mask).toNat

theorem hostMask_inj {rt rt' : SrRt} (h : rt.hostMask = rt'.hostMask) : rt.mask = rt'.mask := by
  rw [← swap32_swap32 rt.mask, UInt32.toNat_inj.1 h, swap32_swap32]

theorem hostMask_le_zero {rt : SrRt} : rt.hostMask ≤ 0 ↔ rt.mask = 0 := by
  rw [Nat.le_zero]
  constructor
  · intro h
    have h0 : swap32 rt.mask = swap32 0 := UInt32.toNat_inj.1 h
    rw [← swap32_swap32 rt.mask, h0, swap32_swap32]
  · intro h
    rw [SrRt.hostMask, h]
    rfl

/-! ## The lookup -/

/-- The scan is one for the largest mask in host order. -/
theorem lpmScan_eq (dst : UInt32) (best : Option SrRt) (mask : UInt32) (rts : List SrRt) :
    lpmScan dst best mask rts = scan (·.Covers dst) SrRt.hostMask best (swap32 mask).toNat rts := by
  induction rts generalizing best mask with
  | nil => rfl
  | cons rt rts ih =>
    by_cases h : dst &&& rt.mask = rt.dest &&& rt.mask ∧ swap32 rt.mask > swap32 mask
    · have h' : rt.Covers dst ∧ (swap32 mask).toNat < rt.hostMask := ⟨h.1, UInt32.lt_iff_toNat_lt.1 h.2⟩
      rw [lpmScan, if_pos h, scan, if_pos h', ih]
      rfl
    · have h' : ¬ (rt.Covers dst ∧ (swap32 mask).toNat < rt.hostMask) := by
        rintro ⟨hc, hlt⟩
        exact h ⟨hc, UInt32.lt_iff_toNat_lt.2 hlt⟩
      rw [lpmScan, if_neg h, scan, if_neg h', ih]

theorem lpmLookup_eq (rts : List SrRt) (dst : UInt32) :
    lpmLookup rts dst = scan (·.Covers dst) SrRt.hostMask none 0 rts := lpmScan_eq dst none 0 rts

variable {rts : List SrRt} {dst : UInt32}

/-- Nothing is chosen exactly when no route but default routes covers the address. -/
theorem lpmLookup_none : lpmLookup rts dst = none ↔ ∀ rt ∈ rts, rt.Covers dst → rt.mask = 0 := by
  rw [lpmLookup_eq, scan_none]
  simp only [hostMask_le_zero]

/-- What is chosen covers the address, with a mask that none that covers it exceeds. -/
theorem lpmLookup_some {rt : SrRt} (h : lpmLookup rts dst = some rt) :
    rt ∈ rts ∧ rt.Covers dst ∧ ∀ rt' ∈ rts, rt'.Covers dst → rt'.hostMask ≤ rt.hostMask := by
  rw [lpmLookup_eq] at h
  obtain ⟨-, hmax⟩ := scan_some h
  exact ⟨hmax.mem, hmax.admissible, fun rt' hmem hc => hmax.le hmem hc⟩

/-- `rt` is the first of the routes with the largest mask in host order among those that cover the address. -/
def BestRoute (rts : List SrRt) (dst : UInt32) (rt : SrRt) : Prop :=
  FirstMax (·.Covers dst) SrRt.hostMask rts rt

/-- The best route is chosen, unless it is a default route. -/
theorem lpmLookup_best {rt : SrRt} : lpmLookup rts dst = some rt ↔ BestRoute rts dst rt ∧ rt.mask ≠ 0 := by
  rw [lpmLookup_eq, scan_eq_some, and_comm, Ne, ← hostMask_le_zero, Nat.not_le]
  rfl

/-- Longest prefix match: nothing is chosen exactly when no route covers the
address, and what is chosen covers it with the longest prefix. -/
structure LpmExact (rts : List SrRt) (dst : UInt32) : Prop where
  none_iff : lpmLookup rts dst = none ↔ ∀ rt ∈ rts, ¬ rt.Covers dst
  longest : ∀ rt, lpmLookup rts dst = some rt → rt ∈ rts ∧ rt.Covers dst ∧
    ∀ rt' ∈ rts, rt'.Covers dst → ∀ n ≤ 32, ∀ m ≤ 32, rt.mask = netmask n → rt'.mask = netmask m → m ≤ n

theorem covers_default {rt : SrRt} (h : rt.mask = 0) (dst : UInt32) : rt.Covers dst := by
  rw [SrRt.Covers, h, UInt32.and_zero, UInt32.and_zero]

/-- The lookup is a longest prefix match exactly where a default route, if there
is one, is not the only match. -/
theorem lpm_exact_iff (rts : List SrRt) (dst : UInt32) :
    LpmExact rts dst ↔ ((∃ rt ∈ rts, rt.mask = 0) → ∃ rt ∈ rts, rt.mask ≠ 0 ∧ rt.Covers dst) := by
  constructor
  · rintro h ⟨rt, hrt, h0⟩
    have hsome : lpmLookup rts dst ≠ none := fun hn => h.none_iff.1 hn rt hrt (covers_default h0 dst)
    rw [Ne, lpmLookup_none] at hsome
    push Not at hsome
    obtain ⟨rt', hrt', hcov, hne⟩ := hsome
    exact ⟨rt', hrt', hne, hcov⟩
  · intro h
    constructor
    · rw [lpmLookup_none]
      constructor
      · intro hall rt hrt hcov
        obtain ⟨rt', hrt', hne, hcov'⟩ := h ⟨rt, hrt, hall rt hrt hcov⟩
        exact hne (hall rt' hrt' hcov')
      · intro hall rt hrt hcov
        exact absurd hcov (hall rt hrt)
    · intro rt hsel
      obtain ⟨hmem, hcov, hmax⟩ := lpmLookup_some hsel
      refine ⟨hmem, hcov, ?_⟩
      intro rt' hmem' hcov' n hn m hm hmask hmask'
      have hle := hmax rt' hmem' hcov'
      rwa [SrRt.hostMask, SrRt.hostMask, hmask, hmask', netmask_le_iff hm hn] at hle

namespace Sample

/-- `0.0.0.0 10.0.0.1 0.0.0.0 e1`. -/
def defaultRoute : SrRt := ⟨0, 0x0100000A, 0, e1⟩

end Sample

open Sample in
/-- A default route that is the only match is not chosen. -/
theorem default_route_ignored :
    (∀ rt ∈ [defaultRoute], Contiguous rt.mask) ∧ ¬ LpmExact [defaultRoute] 0x0101000A := by
  constructor
  · intro rt hrt
    rw [List.mem_singleton.1 hrt]
    exact ⟨0, by decide, by decide⟩
  · intro h
    have hcov : defaultRoute.Covers 0x0101000A := by decide
    exact h.none_iff.1 (by decide) defaultRoute List.mem_cons_self hcov

/-! ## The order of the table -/

/-- Two routes to the same prefix. -/
def SamePrefix (rt rt' : SrRt) : Prop := rt.mask = rt'.mask ∧ rt.dest &&& rt.mask = rt'.dest &&& rt'.mask

instance (rt rt' : SrRt) : Decidable (SamePrefix rt rt') := inferInstanceAs (Decidable (_ ∧ _))

/-- The table after its entries have been added one by one. -/
def loadEntries (entries : List SrRt) : List SrRt :=
  entries.foldl (fun rts e => srAddRtEntry e.dest e.gw e.mask e.interface rts) []

theorem loadEntries_eq (entries : List SrRt) : loadEntries entries = entries := by
  have hfold : ∀ rts, entries.foldl (fun rts e => srAddRtEntry e.dest e.gw e.mask e.interface rts) rts =
      rts ++ entries := by
    induction entries with
    | nil => intro rts; exact (List.append_nil rts).symm
    | cons e es ih =>
      intro rts
      rw [List.foldl_cons, ih, srAddRtEntry_eq, List.append_assoc]
      rfl
  exact hfold []

/-- Two routes that cover an address with the same mask go to the same prefix. -/
theorem samePrefix_of_covers {rt rt' : SrRt} (h : rt.Covers dst) (h' : rt'.Covers dst) (hm : rt.mask = rt'.mask) :
    SamePrefix rt rt' := by
  refine ⟨hm, ?_⟩
  rw [← h, ← h', hm]

theorem lpmLookup_perm {rts' : List SrRt} (hp : rts.Perm rts') (hd : rts.Pairwise fun a b => ¬ SamePrefix a b)
    (dst : UInt32) : lpmLookup rts dst = lpmLookup rts' dst := by
  rw [lpmLookup_eq, lpmLookup_eq]
  refine scan_perm hp ?_
  intro a ha b hb hca hcb hkey
  have hsame := samePrefix_of_covers hca hcb (hostMask_inj hkey)
  have : Std.Symm fun a b : SrRt => ¬ SamePrefix a b := ⟨fun _ _ hn h => hn ⟨h.1.symm, h.2.symm⟩⟩
  by_contra hne
  exact hd.forall ha hb hne hsame

/-- Entries with prefixes of their own may be loaded in any order: `lpm_lookup`
chooses the same one, and so does `send_icmp_host_unreachable`. -/
theorem route_selection_perm {entries entries' : List SrRt} (hp : entries.Perm entries')
    (hd : entries.Pairwise fun a b => ¬ SamePrefix a b) :
    (∀ dst, lpmLookup (loadEntries entries) dst = lpmLookup (loadEntries entries') dst) ∧
    ∀ env req pkt (sr : SrInstance), (hostUnreachable env req pkt { sr with routingTable := loadEntries entries }).acts =
      (hostUnreachable env req pkt { sr with routingTable := loadEntries entries' }).acts := by
  have hsame : ∀ dst, lpmLookup (loadEntries entries) dst = lpmLookup (loadEntries entries') dst := by
    intro dst
    rw [loadEntries_eq, loadEntries_eq]
    exact lpmLookup_perm hp hd dst
  refine ⟨hsame, ?_⟩
  intro env req pkt sr
  rw [(hostUnreachable_does env req pkt _).2, (hostUnreachable_does env req pkt _).2]
  simp only [unreachActs, unreachSend, hsame]

theorem route_selection_perm_reverse :
    (∀ dst, lpmLookup (loadEntries Sample.rts) dst = lpmLookup (loadEntries Sample.rts.reverse) dst) ∧
    ∀ env req pkt (sr : SrInstance),
      (hostUnreachable env req pkt { sr with routingTable := loadEntries Sample.rts }).acts =
        (hostUnreachable env req pkt { sr with routingTable := loadEntries Sample.rts.reverse }).acts :=
  route_selection_perm (List.reverse_perm Sample.rts).symm (by decide)

end SimpleRouter
