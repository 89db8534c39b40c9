import SimpleRouter.Dispatch
import SimpleRouter.Reassembly
/-!
# Bounds of the command parser

The parser checks the length of a command for 10000 bytes and for nothing
else. What a handler reads depends on the type: a string to its NUL, a packet
to a length that wraps below 24, an interface name as far as it agrees with one
the router has. `CommandFits` is what a command must be like for that to stay
inside its buffer, and `parse_in_bounds_iff` says that nothing less will do.
-/
open Memory CProg Stream Struct

namespace SimpleRouter

/-! ## Strings -/

theorem findIdx_range_lt {p : Nat → Bool} {n l : Nat} (h : l ≤ n) :
    (List.range n).findIdx p < l ↔ ∃ k < l, p k = true := by
  constructor
  · intro hlt
    have hlen : (List.range n).findIdx p < (List.range n).length := by
      rw [List.length_range]
      omega
    have hp := @List.findIdx_getElem _ p (List.range n) hlen
    rw [List.getElem_range] at hp
    exact ⟨_, hlt, hp⟩
  · rintro ⟨k, hk, hp⟩
    apply Nat.lt_of_not_le
    intro hle
    have hn := @List.not_of_lt_findIdx _ p (List.range n) k (by omega)
    rw [List.getElem_range, hp] at hn
    cases hn

theorem strncmpReads_le {name : IfName} {m : Mem} {off l : Nat} :
    strncmpReads name m off ≤ l ↔ 32 ≤ l ∨ ∃ k < l, m (off + k) ≠ name.chars.getD k 0 ∨ m (off + k) = 0 := by
  unfold strncmpReads
  by_cases h : 32 ≤ l
  · exact iff_of_true (Nat.le_trans (Nat.min_le_left _ _) h) (.inl h)
  · rw [or_iff_right h]
    have hf := @findIdx_range_lt (fun k => m (off + k) ≠ name.chars.getD k 0 ∨ m (off + k) = 0) 32 l (by omega)
    simp only [decide_eq_true_eq] at hf
    rw [← hf]
    omega

/-- The bytes of a command behind its type, as far as they agree with a name. -/
theorem prefix_iff {name : IfName} {m : Mem} {off l : Nat} :
    m.slice off l <+: name.chars ↔ ∀ k < l, m (off + k) = name.chars.getD k 0 ∧ m (off + k) ≠ 0 := by
  constructor
  · rintro ⟨tail, htail⟩ k hk
    have hget : name.chars.getD k 0 = m (off + k) := by
      rw [← htail, List.getD_append _ _ _ _ (by simpa using hk), Mem.getD_slice _ _ _ _ hk]
    refine ⟨hget.symm, fun h0 => name.noNul ?_⟩
    rw [← htail]
    apply List.mem_append_left
    rw [← h0]
    exact List.mem_map.2 ⟨k, List.mem_range.2 hk, rfl⟩
  · intro h
    have hlen : l ≤ name.chars.length := by
      apply Nat.le_of_not_lt
      intro hlt
      obtain ⟨h1, h2⟩ := h name.chars.length hlt
      rw [List.getD_eq_default _ _ (Nat.le_refl _)] at h1
      exact h2 h1
    rw [List.prefix_iff_eq_take, Mem.length_slice]
    refine List.ext_getElem (by simp [hlen]) fun k h1 h2 => ?_
    have hk : k < l := by simpa using h1
    rw [Mem.getElem_slice, List.getElem_take, (h k hk).1, List.getD_eq_getElem _ _ (by omega)]

/-- A comparison leaves the buffer if the buffer ends within the name. -/
theorem strncmpReads_fits {name : IfName} {b : Buf} (h : 8 ≤ b.size) :
    8 + strncmpReads name b.mem 8 ≤ b.size ↔ 40 ≤ b.size ∨ ¬ b.bytes.drop 8 <+: name.chars := by
  have hle : 8 + strncmpReads name b.mem 8 ≤ b.size ↔ strncmpReads name b.mem 8 ≤ b.size - 8 := by omega
  have h32 : 32 ≤ b.size - 8 ↔ 40 ≤ b.size := by omega
  rw [hle, strncmpReads_le, h32, Buf.drop_bytes, prefix_iff]
  simp only [not_forall, Classical.not_and_iff_not_or_not, not_not, exists_prop, ne_eq]

/-- Without a NUL before its end, the buffer ends within the name it has at 8. -/
theorem prefix_ofMem {b : Buf} (h40 : b.size < 40) (h0 : 0 ∉ b.bytes.drop 8) :
    b.bytes.drop 8 <+: (IfName.ofMem b.mem 8).chars := by
  have hdata : b.bytes.drop 8 = (b.mem.slice 8 32).take (b.size - 8) := Buf.drop_bytes_eq_take (Nat.le_of_lt h40)
  have hne : ∀ x ∈ b.bytes.drop 8, decide (x ≠ 0) = true := by
    intro x hx
    rw [decide_eq_true_eq]
    rintro rfl
    exact h0 hx
  refine ⟨((b.mem.slice 8 32).drop (b.size - 8)).takeWhile (· ≠ 0), ?_⟩
  rw [IfName.ofMem, ← List.takeWhile_append_of_pos hne, hdata, List.take_append_drop]

/-- A name that ends in the buffer. -/
theorem ofMem_eq_iff {name : IfName} {b : Buf} (h40 : b.size < 40) (h0 : 0 ∈ b.bytes.drop 8) :
    name = .ofMem b.mem 8 ↔ name.chars ++ [0] <+: b.bytes.drop 8 := by
  have hdata : b.bytes.drop 8 = (b.mem.slice 8 32).take (b.size - 8) := Buf.drop_bytes_eq_take (Nat.le_of_lt h40)
  have hchars : (IfName.ofMem b.mem 8).chars = (b.bytes.drop 8).takeWhile (· ≠ 0) := by
    have hne : ((b.bytes.drop 8).takeWhile (fun x => decide (x ≠ 0))).length ≠ (b.bytes.drop 8).length := by
      intro hlen
      have hall := (List.takeWhile_prefix (fun x => decide (x ≠ (0 : UInt8)))).eq_of_length hlen
      rw [← hall] at h0
      exact absurd (List.mem_takeWhile_imp h0) (by simp)
    calc (IfName.ofMem b.mem 8).chars = (b.mem.slice 8 32).takeWhile (· ≠ 0) := rfl
      _ = (b.bytes.drop 8 ++ (b.mem.slice 8 32).drop (b.size - 8)).takeWhile (· ≠ 0) := by
        rw [hdata, List.take_append_drop]
      _ = (b.bytes.drop 8).takeWhile (· ≠ 0) := by rw [List.takeWhile_append, if_neg hne]
  rw [← takeWhile_eq_iff h0 name.noNul, ← hchars]
  constructor
  · rintro rfl
    rfl
  · intro h
    exact IfName.eq_of_chars h.symm

/-! ## VNSPACKET -/

/-- No comparison with the name in `data` goes on behind it. -/
def NameFits (ifs : List SrIf) (data : Bytes) : Prop := 32 ≤ data.length ∨ ∀ i ∈ ifs, ¬ data <+: i.name.chars

/-- `data` starts with the name of an interface and its NUL. -/
def Named (ifs : List SrIf) (data : Bytes) : Prop := ∃ i ∈ ifs, i.name.chars ++ [0] <+: data

/-- The name can be compared, and behind the header there is a packet, or else
the assertion fails before one is looked for. -/
def PacketFits (ifs : List SrIf) (data : Bytes) : Prop :=
  NameFits ifs data ∧ (16 ≤ data.length ∨ ¬ Named ifs data)

instance (ifs : List SrIf) (data : Bytes) : Decidable (NameFits ifs data) := inferInstanceAs (Decidable (_ ∨ _))
instance (ifs : List SrIf) (data : Bytes) : Decidable (Named ifs data) := inferInstanceAs (Decidable (∃ i ∈ ifs, _))
instance (ifs : List SrIf) (data : Bytes) : Decidable (PacketFits ifs data) := inferInstanceAs (Decidable (_ ∧ _))

section Packet
variable {b : Buf} {ifs : List SrIf} {s : SrInstance}

theorem NameFits.of_nul {ifs : List SrIf} {data : Bytes} (h0 : 0 ∈ data) : NameFits ifs data :=
  .inr fun i _ hp => i.name.noNul (hp.subset h0)

theorem getInterfaceAt_safe (h8 : 8 ≤ b.size) : Safe (getInterfaceAt b 8 ifs) s ↔ NameFits ifs (b.bytes.drop 8) := by
  have hlen : 32 ≤ (b.bytes.drop 8).length ↔ 40 ≤ b.size := by
    rw [Buf.length_drop_bytes]
    omega
  induction ifs with
  | nil => exact iff_of_true (safe_pure _ _) (.inr fun i hi => absurd hi List.not_mem_nil)
  | cons i ifs ih =>
    have hpos : strncmpReads i.name b.mem 8 ≠ 0 := by
      rw [strncmpReads]
      omega
    have htouch : Safe (touch b 8 (strncmpReads i.name b.mem 8) : RouterM Unit) s ↔
        40 ≤ b.size ∨ ¬ b.bytes.drop 8 <+: i.name.chars := by
      rw [safe_touch, or_iff_right hpos, strncmpReads_fits h8]
    rw [getInterfaceAt, (Computes.touch _ _ _).safe_bind, htouch, safe_ite]
    by_cases h40 : 40 ≤ b.size
    · have hall : ∀ ifs, NameFits ifs (b.bytes.drop 8) := fun ifs => .inl (hlen.2 h40)
      simp only [h40, true_or, true_and, ih, hall, safe_pure, ite_self]
    · rw [or_iff_right h40]
      by_cases hi : i.name = .ofMem b.mem 8
      · -- the comparison ends with a NUL, and so does any other
        rw [if_pos hi, and_iff_left (safe_pure _ _)]
        constructor
        · intro hp
          apply NameFits.of_nul
          apply Classical.byContradiction
          intro h0
          rw [hi] at hp
          exact hp (prefix_ofMem (by omega) h0)
        · intro h
          exact h.elim (fun h => absurd (hlen.1 h) h40) fun h => h i List.mem_cons_self
      · rw [if_neg hi]
        refine (and_congr_right fun _ => ih).trans ?_
        rw [NameFits, NameFits, hlen, or_iff_right h40, or_iff_right h40, List.forall_mem_cons]

/-- Where the buffer is too short for a packet, the name is found if it is in the buffer. -/
theorem named_iff (h40 : b.size < 40) (h8 : 8 ≤ b.size) (h : NameFits ifs (b.bytes.drop 8)) :
    (∃ i, srGetInterface ifs (.ofMem b.mem 8) = some i) ↔ Named ifs (b.bytes.drop 8) := by
  have hlen : ¬ 32 ≤ (b.bytes.drop 8).length := by
    rw [Buf.length_drop_bytes]
    omega
  have hfits := h.resolve_left hlen
  constructor
  · rintro ⟨i, hi⟩
    obtain ⟨hmem, hname⟩ := srGetInterface_some hi
    have h0 : 0 ∈ b.bytes.drop 8 := by
      apply Classical.byContradiction
      intro h0
      -- the name would go on behind the buffer, and so would its comparison
      have hp := prefix_ofMem h40 h0
      rw [← hname] at hp
      exact hfits i hmem hp
    exact ⟨i, hmem, (ofMem_eq_iff h40 h0).1 hname⟩
  · rintro ⟨i, hmem, hp⟩
    have h0 : 0 ∈ b.bytes.drop 8 := hp.subset (by simp)
    have hname := (ofMem_eq_iff h40 h0).2 hp
    apply Option.isSome_iff_exists.1
    rw [srGetInterface, List.find?_isSome]
    exact ⟨i, hmem, by simpa using hname⟩

variable {len : UInt32}

theorem arpReqForOther_safe (h : 66 ≤ b.size) (ip : UInt32) : Safe (arpReqForOther b ip) s := by
  have h38 : 24 + 12 + 2 ≤ b.size := by omega
  have h46 : 24 + 20 + 2 ≤ b.size := by omega
  rw [arpReqForOther, (Computes.load16 _ _).safe_bind, safe_load16, and_iff_right h38]
  split
  · rw [(Computes.load16 _ _).safe_bind, safe_load16, and_iff_right h46]
    split
    · rw [(Computes.load32 _ _).safe_bind, safe_load32]
      exact ⟨h, safe_pure _ _⟩
    · exact safe_pure _ _
  · exact safe_pure _ _

theorem arpReqForOther_unsafe (h : b.size < 38) (ip : UInt32) : ¬ Safe (arpReqForOther b ip) s := by
  rw [arpReqForOther, (Computes.load16 _ _).safe_bind, safe_load16]
  simp only [packetHeaderLen]
  omega

/-- On a packet that is there, only the name can lead out of the buffer. -/
theorem srArpReqNotForUs_safe (hsize : b.size = 24 + len.toNat) :
    Safe (srArpReqNotForUs b len) s ↔ NameFits s.ifList (b.bytes.drop 8) := by
  rw [srArpReqNotForUs, safe_bind, and_iff_right (safe_get _)]
  rw [get_apply, (getInterfaceAt_computes _ _ _).safe_bind, getInterfaceAt_safe (by omega)]
  apply and_iff_left
  by_cases hn : len.toNat < 42
  · simp [hn]
  · cases srGetInterface s.ifList (.ofMem b.mem 8) with
    | none => simp [hn]
    | some i => simp [hn, arpReqForOther_safe (show 66 ≤ b.size by omega)]

/-- On a length that has wrapped, the assertion is all that stops it. -/
theorem srArpReqNotForUs_wrapped (h8 : 8 ≤ b.size) (h24 : b.size < 24) (hn : 42 ≤ len.toNat) :
    (Safe (srArpReqNotForUs b len) s ↔ NameFits s.ifList (b.bytes.drop 8) ∧ ¬ Named s.ifList (b.bytes.drop 8)) ∧
    (Safe (srArpReqNotForUs b len) s → (srArpReqNotForUs b len s).val = none) := by
  have hlt : ¬ len.toNat < 42 := by omega
  have h38 : ¬ 38 ≤ b.size := by omega
  have hsafe : Safe (srArpReqNotForUs b len) s ↔ NameFits s.ifList (b.bytes.drop 8) ∧
      srGetInterface s.ifList (.ofMem b.mem 8) = none := by
    rw [srArpReqNotForUs, safe_bind, and_iff_right (safe_get _)]
    rw [get_apply, (getInterfaceAt_computes _ _ _).safe_bind, getInterfaceAt_safe h8]
    apply and_congr_right
    intro _
    cases srGetInterface s.ifList (.ofMem b.mem 8) with
    | none => simp [hlt]
    | some i => simp [hlt, arpReqForOther_unsafe (show b.size < 38 by omega)]
  constructor
  · rw [hsafe]
    apply and_congr_right
    intro hfits
    rw [← named_iff (by omega) h8 hfits, ← Option.isSome_iff_exists]
    simp
  · intro h
    have hnone := (hsafe.1 h).2
    rw [srArpReqNotForUs, bind_val, bind_val, (getInterfaceAt_computes _ _ _).st, (getInterfaceAt_computes _ _ _).val]
    simp [hlt, hnone]

end Packet

/-! ## The handlers -/

section Handlers
variable {b : Buf} {len : UInt32} {s : SrInstance}

/-- The whole of a string is in the buffer if a NUL is. -/
theorem touchStr_safe {off : Nat} (h : off ≤ b.size) : Safe (touchStr b off) s ↔ 0 ∈ b.bytes.drop off := by
  have hlen : (b.bytes.drop off).length = b.size - off := b.length_drop_bytes off
  have hpos : strReads b off ≠ 0 := Nat.succ_ne_zero _
  have hle : off + strReads b off ≤ b.size ↔ (b.bytes.drop off).findIdx (· = 0) < (b.bytes.drop off).length := by
    rw [strReads, hlen]
    omega
  rw [touchStr, safe_touch, or_iff_right hpos, hle, List.findIdx_lt_length]
  simp

theorem nul_mem_take {data : Bytes} {n : Nat} : 0 ∈ data.take n ↔ 0 ∈ data ∧ data.findIdx (· = 0) < n := by
  constructor
  · intro h
    refine ⟨List.mem_of_mem_take h, ?_⟩
    obtain ⟨i, hi, h0⟩ := List.mem_take_iff_getElem.1 h
    have hle : data.findIdx (· = 0) ≤ i := by
      apply Nat.le_of_not_lt
      intro hlt
      have hn := List.not_of_lt_findIdx hlt
      rw [decide_eq_false_iff_not] at hn
      exact hn h0
    omega
  · rintro ⟨h, hlt⟩
    have hlen : data.findIdx (· = 0) < data.length := List.findIdx_lt_length.2 ⟨0, h, rfl⟩
    have h0 := @List.findIdx_getElem _ (fun x : UInt8 => x = 0) data hlen
    rw [decide_eq_true_eq] at h0
    exact List.mem_take_iff_getElem.2 ⟨_, by omega, h0⟩

/-- What `dispatch` may rely on: the buffer has the length the command says. -/
structure Held (b : Buf) (len : UInt32) : Prop where
  size : b.size = len.toNat
  mLen : swap32 (b.mem.u32 0) = len
  header : 8 ≤ len.toNat
  max : len.toNat ≤ 10000

theorem srLogPacket_safe (env : ServerEnv) (h : Held b len) (h24 : 24 ≤ len.toNat) :
    Safe (srLogPacket env b (len - 24)) s := by
  have hn : (len - 24).toNat = len.toNat - 24 := UInt32.toNat_sub_of_le len 24 (UInt32.le_iff_toNat_le.2 h24)
  have hsize := h.size
  have hmax := h.max
  have hlt : len.toNat - 24 < 2147483648 := by omega
  unfold srLogPacket
  cases env.logging with
  | false => simp
  | true =>
    simp only [if_true, hn, safe_touch]
    simp only [Nat.reducePow, hlt, if_true, packetHeaderLen]
    omega

theorem dispatchPacket_safe (env : ServerEnv) (h : Held b len) :
    (Safe (dispatchPacket env len b) s ↔ PacketFits s.ifList (b.bytes.drop 8)) ∧
    (Safe (dispatchPacket env len b) s → ∀ packet interface,
      (dispatchPacket env len b s).val = .frame packet interface →
        24 ≤ b.size ∧ packet.bytes = b.bytes.drop 24) := by
  have hsize := h.size
  have h8 := h.header
  have hdata : (b.bytes.drop 8).length = b.size - 8 := b.length_drop_bytes 8
  rw [dispatchPacket, safe_bind, bind_val, (srArpReqNotForUs_eq _ _ _).2.1]
  rcases packetLen len h.max with ⟨h24, hn⟩ | ⟨h24, hn⟩
  · have hpacket : PacketFits s.ifList (b.bytes.drop 8) ↔ NameFits s.ifList (b.bytes.drop 8) :=
      and_iff_left (.inl (by omega))
    rw [srArpReqNotForUs_safe (by omega), hpacket]
    cases (srArpReqNotForUs b (len - 38 + 14) s).val with
    | none => exact ⟨and_iff_left (safe_pure _ _), fun _ _ _ hv => by cases hv⟩
    | some notForUs =>
      cases notForUs with
      | true => exact ⟨and_iff_left (safe_pure _ _), fun _ _ _ hv => by cases hv⟩
      | false =>
        constructor
        · apply and_iff_left
          simp only [safe_bind, safe_load32, load32_apply, h.mLen, srLogPacket_safe env h h24, safe_pure, and_true]
          omega
        · rintro - packet interface hv
          cases hv
          have hend : 24 + (len - 38 + 14).toNat = b.size := by omega
          exact ⟨by omega, bytes_lent hend⟩
  · -- the length has wrapped: the filter either stops the program or leaves the buffer
    obtain ⟨hsafe, hval⟩ := @srArpReqNotForUs_wrapped b s (len - 38 + 14) (by omega) (by omega) hn
    have hpacket : PacketFits s.ifList (b.bytes.drop 8) ↔
        NameFits s.ifList (b.bytes.drop 8) ∧ ¬ Named s.ifList (b.bytes.drop 8) :=
      and_congr_right fun _ => or_iff_right (by omega)
    rw [hpacket, ← hsafe]
    constructor
    · apply and_iff_left_of_imp
      intro hs
      rw [hval hs]
      exact safe_pure _ _
    · rintro ⟨hs, -⟩ packet interface hv
      rw [hval hs] at hv
      cases hv

theorem setLast_safe (f : SrIf → SrIf) : Safe (setLast f) s := by
  unfold setLast
  by_cases hnil : s.ifList = []
  · simp [hnil]
  · simp [hnil]

theorem hwEntry_safe (junk : Mac × UInt32) {off : Nat} (h : off + 36 ≤ b.size) : Safe (hwEntry junk b off) s := by
  have h4 : off + 4 ≤ b.size := by omega
  have h8 : off + 4 + 4 ≤ b.size := by omega
  have h10 : off + 4 + 6 ≤ b.size := by omega
  -- an entry has 32 bytes behind its key, and no key reads more
  have hname : off + 4 + strncpyReads b.mem (off + 4) ≤ b.size := by
    have hle : strncpyReads b.mem (off + 4) ≤ 32 := Nat.min_le_left _ _
    omega
  rw [hwEntry, (Computes.load32 _ _).safe_bind, safe_load32, and_iff_right h4]
  by_cases h1 : swap32 (b.mem.u32 off) = hwInterface
  · rw [if_pos h1]
    simp [srAddInterface, hname]
  · rw [if_neg h1]
    by_cases h2 : swap32 (b.mem.u32 off) = hwEthip
    · rw [if_pos h2, (Computes.load32 _ _).safe_bind, safe_load32]
      exact ⟨h8, setLast_safe _⟩
    · rw [if_neg h2]
      by_cases h3 : swap32 (b.mem.u32 off) = hwEther
      · rw [if_pos h3, srSetEtherAddr, safe_bind, and_iff_right (setLast_safe _), safe_ite]
        split
        · simp [h10]
        · exact safe_pure _ _
      · rw [if_neg h3]
        exact safe_pure _ _

/-- The loop stays inside the buffer as long as its entries do. -/
theorem hwinfoLoop_safe (junk : Nat → Mac × UInt32) {i n : Nat} (h : 8 + 36 * (i + n) ≤ b.size) :
    Safe (hwinfoLoop junk b i n) s := by
  induction n generalizing i s with
  | zero => exact safe_pure _ _
  | succ n ih =>
    rw [hwinfoLoop, safe_bind, and_iff_right (hwEntry_safe _ (by simp only [hwEntryLen]; omega)), safe_ite]
    split
    · exact ih (by omega)
    · exact safe_pure _ _

/-- A length of at least 8 does not wrap. -/
theorem numEntries_eq {len : UInt32} (h8 : 8 ≤ len.toNat) (hmax : len.toNat ≤ 10000) :
    numEntries len = ((len.toNat - 8) / 36 : Nat) := by
  have hle : (8 : UInt64) ≤ len.toUInt64 := by
    rw [UInt64.le_iff_toNat_le, UInt32.toNat_toUInt64]
    exact h8
  have hlt : (len.toNat - 8) / 36 < 2 ^ 32 := by omega
  have hn : ((len.toUInt64 - 8) / 36).toUInt32.toNat = (len.toNat - 8) / 36 := by
    rw [UInt64.toNat_toUInt32, UInt64.toNat_div, UInt64.toNat_sub_of_le _ _ hle, UInt32.toNat_toUInt64]
    exact Nat.mod_eq_of_lt hlt
  have hint : 2 * ((len.toUInt64 - 8) / 36).toUInt32.toBitVec.toNat < 2 ^ 32 := by
    rw [UInt32.toNat_toBitVec, hn]
    omega
  calc numEntries len = ((len.toUInt64 - 8) / 36).toUInt32.toBitVec.toInt := rfl
    _ = (((len.toUInt64 - 8) / 36).toUInt32.toNat : Int) := BitVec.toInt_eq_toNat_of_lt hint
    _ = ((len.toNat - 8) / 36 : Nat) := by rw [hn]

/-- There are no more entries than the length has room for. -/
theorem numEntries_le {len : UInt32} (h8 : 8 ≤ len.toNat) (hmax : len.toNat ≤ 10000) :
    8 + 36 * (numEntries len).toNat ≤ len.toNat := by
  rw [numEntries_eq h8 hmax, Int.toNat_natCast]
  omega

theorem srHandleHwinfo_safe (env : ServerEnv) (h : Held b len) : Safe (srHandleHwinfo env b) s := by
  have hsize := h.size
  have hn := numEntries_le h.header h.max
  have h4 : 0 + 4 ≤ b.size := by omega
  rw [srHandleHwinfo, (Computes.load32 _ _).safe_bind, safe_load32, and_iff_right h4, h.mLen, safe_bind]
  exact ⟨hwinfoLoop_safe _ (by omega), safe_pure _ _⟩

theorem dispatchHwinfo_safe (env : ServerEnv) (h : Held b len) : Safe (dispatchHwinfo env b) s := by
  rw [dispatchHwinfo, safe_bind, and_iff_right (srHandleHwinfo_safe env h)]
  generalize (srHandleHwinfo env b s).st = t
  cases (srHandleHwinfo env b s).val with
  | none => exact safe_pure _ _
  | some n => exact (safe_bind _ _ _).2 ⟨safe_get _, safe_pure _ _⟩

/-- A field behind `off` bytes, of the length that is left or one that has wrapped. -/
theorem rest_fits {off : UInt32} (h : Held b len) (ho : off.toNat < 1024) :
    (len - off).toNat = 0 ∨ off.toNat + (len - off).toNat ≤ b.size ↔ off.toNat ≤ len.toNat := by
  have hsub : (len - off).toNat = (4294967296 - off.toNat + len.toNat) % 4294967296 := UInt32.toNat_sub _ _
  have hsize := h.size
  have hmax := h.max
  omega

theorem srHandleRtable_safe (env : ServerEnv) (h : Held b len) :
    Safe (srHandleRtable env b) s ↔
      0 ∈ (b.bytes.drop 8).take 33 ∧ (env.rtableOpens = true → 32 ≤ (b.bytes.drop 8).length) := by
  have hsize := h.size
  have h8 := h.header
  have hlen : (b.bytes.drop 8).length = b.size - 8 := b.length_drop_bytes 8
  have hname : Safe (touchStr b 8 : RouterM Unit) s ∧ Safe (touch ⟨40, env.past⟩ 7 (strReads b 8) : RouterM Unit) s ↔
      0 ∈ (b.bytes.drop 8).take 33 := by
    have hpos : strReads b 8 ≠ 0 := Nat.succ_ne_zero _
    have hfn : 7 + ((b.bytes.drop 8).findIdx (· = 0) + 1) ≤ 40 ↔ (b.bytes.drop 8).findIdx (· = 0) < 33 := by omega
    rw [touchStr_safe (by omega), safe_touch, or_iff_right hpos, strReads, hfn, ← nul_mem_take]
  have hbody : Safe (touch b 40 (len - 40).toNat : RouterM Unit) s ↔ 32 ≤ (b.bytes.drop 8).length := by
    have hfit := @rest_fits b len 40 h (by decide)
    rw [safe_touch]
    refine hfit.trans ?_
    rw [hlen, hsize]
    exact (Nat.le_sub_iff_add_le h8).symm
  rw [srHandleRtable, (touchStr_computes b 8).safe_bind, (Computes.touch _ _ _).safe_bind, ← and_assoc, hname]
  apply and_congr_right
  intro _
  cases env.rtableOpens with
  | false => simp
  | true =>
    have h4 : 0 + 4 ≤ b.size := by omega
    simp only [if_true, forall_const]
    rw [(Computes.load32 _ _).safe_bind, safe_load32, and_iff_right h4, h.mLen, (Computes.touch _ _ _).safe_bind,
      hbody]
    exact and_iff_left (safe_pure _ _)

theorem srHandleAuthRequest_safe (env : ServerEnv) (h : Held b len) : Safe (srHandleAuthRequest env b) s := by
  have hsize := h.size
  have h8 := h.header
  have h4 : 0 + 4 ≤ b.size := by omega
  have hsalt : Safe (touch b 8 (len - 8).toNat : RouterM Unit) s := by
    rw [safe_touch]
    exact (@rest_fits b len 8 h (by decide)).2 h8
  unfold srHandleAuthRequest
  cases env.authKey with
  | false => simp
  | true =>
    rw [if_pos rfl, (Computes.load32 _ _).safe_bind, safe_load32, and_iff_right h4, h.mLen,
      (Computes.touch _ _ _).safe_bind, and_iff_right hsalt]
    simp only [safe_bind, safe_touch, safe_pure, and_true]
    omega

theorem srHandleAuthStatus_safe (h : Held b len) :
    Safe (srHandleAuthStatus b) s ↔
      b.bytes.drop 8 ≠ [] ∧ ((b.bytes.drop 8).head? = some 0 → 0 ∈ (b.bytes.drop 8).tail) := by
  have hsize := h.size
  have h8 := h.header
  rw [srHandleAuthStatus, (Computes.load8 _ _).safe_bind, safe_load8]
  by_cases h9 : 9 ≤ b.size
  · have hne : b.bytes.drop 8 = b.mem 8 :: b.bytes.drop 9 := by
      rw [List.drop_eq_getElem_cons (by rw [Buf.length_bytes]; omega), Buf.getElem_bytes]
    rw [and_iff_right h9, hne, and_iff_right (List.cons_ne_nil _ _), List.head?_cons, List.tail_cons]
    rw [Option.some.injEq]
    by_cases h0 : b.mem 8 = 0
    · -- the message is printed on a failure only
      rw [if_pos h0, safe_bind, touchStr_safe h9, forall_prop_of_true h0]
      exact and_iff_left (safe_pure _ _)
    · rw [if_neg h0]
      exact iff_of_true (safe_pure _ _) fun hz => absurd hz h0
  · have hnil : b.bytes.drop 8 = [] := List.drop_eq_nil_of_le (by rw [Buf.length_bytes]; omega)
    exact iff_of_false (fun hs => h9 hs.1) fun hs => hs.1 hnil

end Handlers

/-! ## A command -/

/-- What the handler of a command reads of `data`, the bytes behind the type, is
there. -/
def CommandFits (env : ServerEnv) (ifs : List SrIf) (expected command : UInt32) (data : Bytes) : Prop :=
  if expected ≠ 0 ∧ command ≠ expected ∧ command ≠ vnsClose then True
  else if command = vnsPacket then PacketFits ifs data
  else if command = vnsClose then 0 ∈ data
  else if command = vnsBanner then 0 ∈ data
  else if command = vnsHwinfo then True
  else if command = vnsRtable then 0 ∈ data.take 33 ∧ (env.rtableOpens = true → 32 ≤ data.length)
  else if command = vnsAuthRequest then True
  else if command = vnsAuthStatus then data ≠ [] ∧ (data.head? = some 0 → 0 ∈ data.tail)
  else True

section Command
variable {b : Buf} {len : UInt32} {s : SrInstance} (env : ServerEnv) (expected command : UInt32)

theorem dispatch_safe (h : Held b len) : Safe (dispatch env expected command len b) s ↔
    CommandFits env s.ifList expected command (b.bytes.drop 8) := by
  have hsize := h.size
  have h8 := h.header
  unfold dispatch CommandFits
  by_cases hexp : expected ≠ 0 ∧ command ≠ expected ∧ command ≠ vnsClose
  · simp only [if_pos hexp]
    exact iff_of_true (safe_pure _ _) trivial
  simp only [if_neg hexp]
  by_cases hpacket : command = vnsPacket
  · simp only [if_pos hpacket]
    exact (dispatchPacket_safe env h).1
  simp only [if_neg hpacket]
  by_cases hclose : command = vnsClose
  · simp only [if_pos hclose]
    rw [safe_bind, touchStr_safe (by omega)]
    exact and_iff_left (safe_pure _ _)
  simp only [if_neg hclose]
  by_cases hbanner : command = vnsBanner
  · simp only [if_pos hbanner]
    rw [safe_bind, touchStr_safe (by omega)]
    exact and_iff_left (safe_pure _ _)
  simp only [if_neg hbanner]
  by_cases hhwinfo : command = vnsHwinfo
  · simp only [if_pos hhwinfo]
    exact iff_of_true (dispatchHwinfo_safe env h) trivial
  simp only [if_neg hhwinfo]
  by_cases hrtable : command = vnsRtable
  · simp only [if_pos hrtable]
    rw [safe_bind, srHandleRtable_safe env h]
    exact and_iff_left (safe_pure _ _)
  simp only [if_neg hrtable]
  by_cases hrequest : command = vnsAuthRequest
  · simp only [if_pos hrequest]
    rw [safe_bind]
    exact iff_of_true ⟨srHandleAuthRequest_safe env h, safe_pure _ _⟩ trivial
  simp only [if_neg hrequest]
  by_cases hstatus : command = vnsAuthStatus
  · simp only [if_pos hstatus]
    rw [safe_bind, srHandleAuthStatus_safe h]
    exact and_iff_left (safe_pure _ _)
  · simp only [if_neg hstatus]
    exact iff_of_true (safe_pure _ _) trivial

/-- A frame passed on without an access outside is what is behind the header. -/
theorem dispatch_frame_bytes (h : Held b len) {packet : Buf} {interface : IfName}
    (hs : Safe (dispatch env expected command len b) s)
    (hv : (dispatch env expected command len b s).val = .frame packet interface) :
    24 ≤ b.size ∧ packet.bytes = b.bytes.drop 24 := by
  rw [(dispatch_frame hv).1] at hs hv
  exact (dispatchPacket_safe env h).2 hs packet interface hv

end Command

instance (env : ServerEnv) (ifs : List SrIf) (expected command : UInt32) (data : Bytes) :
    Decidable (CommandFits env ifs expected command data) := by
  unfold CommandFits
  infer_instance

/-! ## From the socket on -/

section Socket
variable {past : Mem} {sock : Sock} {s : SrInstance} {len : UInt32} {body rest : Bytes}

/-- The length itself is read into a whole word. -/
theorem word_safe : Safe (fill 0 4 ⟨4, past⟩ 0 sock : RouterM Filled) s := fill_safe (Nat.le_refl 4) s

theorem receive_refused_safe (hs : Sound sock) (hc : contents sock = be 4 len.toNat ++ (body ++ rest))
    (hlen : 10000 < len.toNat) : Safe (receive past sock) s := by
  obtain ⟨sock1, h1, -, -⟩ := @fill_contents SrInstance Act 0 4 sock _ _ ⟨4, past⟩ 0 hs hc (by simp)
  have h4 : 0 + 4 ≤ (Buf.store ⟨4, past⟩ (0 + 0) (be 4 len.toNat)).size := Nat.le_refl 4
  rw [receive, h1.safe_bind, and_iff_right word_safe]
  rw [(Computes.load32 _ _).safe_bind, safe_load32, and_iff_right h4, Nat.add_zero, load_len, if_pos hlen]
  exact safe_pure _ _

/-- Reading a command needs room for its length and its type. -/
theorem receive_safe (hs : Sound sock) (hc : contents sock = be 4 len.toNat ++ (body ++ rest))
    (hlen : ¬ 10000 < len.toNat) (hbody : body.length = len.toNat - 4) :
    Safe (receive past sock) s ↔ 8 ≤ len.toNat := by
  obtain ⟨sock1, h1, hc1, hs1⟩ := @fill_contents SrInstance Act 0 4 sock _ _ ⟨4, past⟩ 0 hs hc (by simp)
  obtain ⟨sock2, h2, -, -⟩ := @fill_contents SrInstance Act 4 (len.toNat - 4) sock1 body rest
    (Buf.store ⟨len.toNat, past⟩ 0 (le32 (swap32 len))) 0 hs1 hc1 (by omega)
  have h4 : 0 + 4 ≤ (Buf.store ⟨4, past⟩ (0 + 0) (be 4 len.toNat)).size := Nat.le_refl 4
  rw [receive, h1.safe_bind, and_iff_right word_safe]
  rw [(Computes.load32 _ _).safe_bind, safe_load32, and_iff_right h4, Nat.add_zero, load_len, if_neg hlen]
  rw [(Computes.store32 _ _ _).safe_bind, safe_store32, h2.safe_bind]
  rw [(Computes.load32 _ _).safe_bind, safe_load32, (Computes.store32 _ _ _).safe_bind, safe_store32]
  constructor
  · rintro ⟨-, -, h8, -⟩
    exact h8
  · intro h8
    have h0 : 0 + 4 ≤ len.toNat := by omega
    have hfill : 4 + (len.toNat - 4) ≤ len.toNat := by omega
    exact ⟨h0, fill_safe hfill s, h8, h8, safe_pure _ _⟩

/-- The type in the first four bytes behind the length. -/
def typeWord (body : Bytes) : UInt32 := .ofNat (readBe (body.take 4))

theorem body_eq (h : 4 ≤ body.length) : be 4 (typeWord body).toNat ++ body.drop 4 = body := by
  have hlen : (body.take 4).length = 4 := by
    rw [List.length_take]
    omega
  have hlt := readBe_lt (body.take 4)
  have hbe := be_readBe (body.take 4)
  rw [hlen] at hlt hbe
  rw [typeWord, UInt32.toNat_ofNat_of_lt' hlt, hbe, List.take_append_drop]

/-- The call makes no access outside its buffers, and the frame it passes on is
what follows the 24 bytes of the header. -/
structure ParsesInBounds (env : ServerEnv) (expected : UInt32) (sock : Sock) (s : SrInstance) (body : Bytes) :
    Prop where
  safe : Safe (parse env expected sock) s
  frame : ∀ packet interface command b rest,
    (parse env expected sock s).val = .dispatched (.frame packet interface) command b rest →
    20 ≤ body.length ∧ packet.bytes = body.drop 20

/-- A command that has arrived whole is parsed within bounds if and only if what
its handler reads is there. -/
theorem Command.parse_in_bounds {c : Command} {env : ServerEnv} {expected : UInt32} (hs : Sound sock)
    (hc : contents sock = c.bytes ++ rest) :
    ParsesInBounds env expected sock s (be 4 c.type.toNat ++ c.body) ↔
      CommandFits env s.ifList expected c.type c.body := by
  have hlen := c.toNat_len
  have hmax := c.size_le
  have hheld : Held (c.buf env.past) c.len := ⟨rfl, c.mLen_buf _, by omega, by omega⟩
  obtain ⟨sock', h1, -⟩ := @Command.receive_eq c env.past sock rest hs hc
  have hreceive : Safe (receive env.past sock) s := by
    rw [Command.bytes, List.append_assoc] at hc
    refine (receive_safe hs hc (by omega) ?_).2 (by omega)
    rw [List.length_append, length_be]
    omega
  have hsafe := @dispatch_safe _ _ s env expected c.type hheld
  rw [Command.drop_buf] at hsafe
  have hparse : Safe (parse env expected sock) s ↔ Safe (dispatch env expected c.type c.len (c.buf env.past)) s := by
    rw [parse, h1.safe_bind, and_iff_right hreceive, safe_bind]
    exact and_iff_left (safe_pure _ _)
  have hval : (parse env expected sock s).val =
      .dispatched (dispatch env expected c.type c.len (c.buf env.past) s).val c.type (c.buf env.past) sock' := by
    rw [parse, bind_val, h1.val, h1.st]
    rfl
  rw [← hsafe, ← hparse]
  constructor
  · exact ParsesInBounds.safe
  · intro h
    refine ⟨h, fun packet interface command b rest hv => ?_⟩
    rw [hval] at hv
    injection hv with hd
    obtain ⟨h24, hp⟩ := dispatch_frame_bytes env expected c.type hheld (hparse.1 h) hd
    have hsize : (c.buf env.past).size = 8 + c.body.length := hlen
    have htype : (be 4 c.type.toNat).length = 4 := length_be _ _
    refine ⟨by rw [List.length_append, htype]; omega, ?_⟩
    calc packet.bytes = ((c.buf env.past).bytes.drop 8).drop 16 := by rw [hp, List.drop_drop]
      _ = ((be 4 c.type.toNat ++ c.body).drop 4).drop 16 := by rw [c.drop_buf, List.drop_left' htype]
      _ = (be 4 c.type.toNat ++ c.body).drop 20 := List.drop_drop

/-- A command is parsed within bounds if and only if it is refused for its
length, or has room for its type and what its handler reads. -/
theorem parse_in_bounds_iff {env : ServerEnv} {expected : UInt32} (hs : Sound sock)
    (hc : contents sock = be 4 len.toNat ++ (body ++ rest)) (hbody : len.toNat ≤ 10000 → body.length = len.toNat - 4) :
    ParsesInBounds env expected sock s body ↔
      10000 < len.toNat ∨ 8 ≤ len.toNat ∧ CommandFits env s.ifList expected (typeWord body) (body.drop 4) := by
  by_cases hmax : 10000 < len.toNat
  · refine iff_of_true ?_ (.inl hmax)
    have hr := @receive_refused env.past sock len _ hs hc hmax
    constructor
    · rw [parse, hr.safe_bind]
      exact ⟨receive_refused_safe hs hc hmax, safe_pure _ _⟩
    · intro packet interface command b rest hv
      rw [parse, bind_val, hr.val] at hv
      cases hv
  rw [or_iff_right hmax]
  have hbody := hbody (by omega)
  by_cases h8 : 8 ≤ len.toNat
  · have h4 : 4 ≤ body.length := by omega
    have hdrop : 8 + (body.drop 4).length = len.toNat := by
      rw [List.length_drop]
      omega
    let c : Command := ⟨typeWord body, body.drop 4, by omega⟩
    have hclen : c.len = len := UInt32.toNat_inj.1 (c.toNat_len.trans hdrop)
    have hbytes : c.bytes ++ rest = be 4 len.toNat ++ (body ++ rest) := by
      rw [Command.bytes, hclen, body_eq h4, List.append_assoc]
    have h := @Command.parse_in_bounds sock s rest c env expected hs (hc.trans hbytes.symm)
    rw [body_eq h4] at h
    rw [and_iff_right h8]
    exact h
  · refine iff_of_false ?_ fun h => h8 h.1
    rintro ⟨hsafe, -⟩
    rw [parse, safe_bind, receive_safe hs hc hmax hbody] at hsafe
    exact h8 hsafe.1

end Socket

namespace Sample

/-- A `VNSPACKET` for `e1` with a frame of one Ethernet header. -/
def packetBody : Bytes := [0, 0, 0, 4] ++ pad 16 e1.chars ++ (ping [10, 0, 1, 7]).take 14

/-- A `VNSPACKET` that ends with the name of the interface. -/
def shortBody : Bytes := [0, 0, 0, 4, 101, 49, 0]

end Sample

open Sample in
theorem parse_in_bounds_packet :
    ParsesInBounds serverEnv 0 [.bytes [0, 0, 0, 38], .bytes packetBody] (.init ifs rts) packetBody :=
  (@parse_in_bounds_iff _ _ 38 packetBody [] _ _ (by decide) (by decide) (by decide)).2 (.inr (by decide))

/-- The 11 bytes of the command end before the frame starts. Its length, 24
less, wraps, passes for that of an ARP packet, and goes with the frame. -/
theorem parse_leaves_buffer :
    (∃ packet command b rest,
      (parse Sample.serverEnv 0 [.bytes [0, 0, 0, 11], .bytes Sample.shortBody] (.init Sample.ifs Sample.rts)).val =
        .dispatched (.frame packet Sample.e1) command b rest ∧ packet.size = 4294967283) ∧
    ¬ ParsesInBounds Sample.serverEnv 0 [.bytes [0, 0, 0, 11], .bytes Sample.shortBody]
      (.init Sample.ifs Sample.rts) Sample.shortBody := by
  refine ⟨⟨_, _, _, _, rfl, rfl⟩, fun h => absurd h.safe ?_⟩
  decide

end SimpleRouter
