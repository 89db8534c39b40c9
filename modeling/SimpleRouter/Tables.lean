import SimpleRouter.Types
import Mathlib.Data.List.Nodup
/-!
# Interface list and routing table

The lookups of `sr_if.c`, `sr_router.c` and `sr_main.c` over the interface list
and the routing table. Packet handling and sweeps change neither list, so
these are functions of the two lists alone.
-/
open Memory

namespace SimpleRouter

/-- `sr_get_interface`: the first interface of that name. -/
def srGetInterface (ifs : List SrIf) (name : IfName) : Option SrIf := ifs.find? (fun i => i.name = name)

/-- `sr_get_interface_by_ip`: the first interface with that address. -/
def srGetInterfaceByIp (ifs : List SrIf) (ip : UInt32) : Option SrIf := ifs.find? (fun i => i.ip = ip)

/-- The scan of `lpm_lookup`, which `send_icmp_host_unreachable` repeats inline:
the best route so far and its mask are replaced by a matching route whose mask
is larger in host order. -/
def lpmScan (dst : UInt32) : Option SrRt → UInt32 → List SrRt → Option SrRt
  | best, _, [] => best
  | best, bestMask, rt :: rts =>
    if dst &&& rt.mask = rt.dest &&& rt.mask ∧ swap32 rt.mask > swap32 bestMask then
      lpmScan dst (some rt) rt.mask rts
    else lpmScan dst best bestMask rts

def lpmLookup (rts : List SrRt) (dst : UInt32) : Option SrRt := lpmScan dst none 0 rts

/-- `rt->gw` if there is one, else the destination itself. -/
def nextHop (rt : SrRt) (dst : UInt32) : UInt32 := if rt.gw ≠ 0 then rt.gw else dst

/-- `sr_verify_routing_table`: the number of routes whose interface does not
exist, or 999 when there are no interfaces or no routes. -/
def srVerifyRoutingTable (ifs : List SrIf) (rts : List SrRt) : Nat :=
  if ifs = [] ∨ rts = [] then 999
  else rts.countP (fun rt => !ifs.any (fun i => i.name = rt.interface))

/-! ## What the lookups find -/

theorem srGetInterface_some {ifs : List SrIf} {name : IfName} {i : SrIf} (h : srGetInterface ifs name = some i) :
    i ∈ ifs ∧ i.name = name :=
  ⟨List.mem_of_find?_eq_some h, by simpa using List.find?_some h⟩

/-- Looking an interface up by its own name finds it again. -/
theorem srGetInterface_name {ifs : List SrIf} {name : IfName} {i : SrIf} (h : srGetInterface ifs name = some i) :
    srGetInterface ifs i.name = some i := by
  rw [(srGetInterface_some h).2, h]

/-- Under keys that are distinct, each element is found by its own. -/
theorem find?_key {α β : Type} [DecidableEq β] {f : α → β} {l : List α} (h : (l.map f).Nodup) {a : α} (ha : a ∈ l) :
    l.find? (fun b => f b = f a) = some a := by
  cases hf : l.find? (fun b => f b = f a) with
  | none =>
    have hne := List.find?_eq_none.1 hf a ha
    simp at hne
  | some b =>
    have hfb : f b = f a := by simpa using List.find?_some hf
    rw [List.inj_on_of_nodup_map h (List.mem_of_find?_eq_some hf) ha hfb]

theorem lpmScan_mem {dst : UInt32} {best : Option SrRt} {mask : UInt32} {rts : List SrRt} {rt : SrRt}
    (h : lpmScan dst best mask rts = some rt) : best = some rt ∨ rt ∈ rts := by
  induction rts generalizing best mask with
  | nil => exact .inl h
  | cons r rts ih =>
    simp only [lpmScan] at h
    split at h
    · rcases ih h with h' | h'
      · cases h'; exact .inr (by simp)
      · exact .inr (by simp [h'])
    · rcases ih h with h' | h'
      · exact .inl h'
      · exact .inr (by simp [h'])

theorem lpmLookup_mem {rts : List SrRt} {dst : UInt32} {rt : SrRt} (h : lpmLookup rts dst = some rt) : rt ∈ rts := by
  rcases lpmScan_mem h with h' | h'
  · cases h'
  · exact h'

/-- A table that passed verification names only interfaces that exist. -/
theorem verified_interface {ifs : List SrIf} {rts : List SrRt} (h : srVerifyRoutingTable ifs rts = 0) {rt : SrRt}
    (hrt : rt ∈ rts) : ∃ i, srGetInterface ifs rt.interface = some i := by
  unfold srVerifyRoutingTable at h
  split at h
  · cases h
  · have hz := List.countP_eq_zero.1 h rt hrt
    simp only [Bool.not_eq_true, Bool.not_eq_false', List.any_eq_true] at hz
    exact Option.isSome_iff_exists.1 (by simpa [srGetInterface] using hz)

end SimpleRouter
