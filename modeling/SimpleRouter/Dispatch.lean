import SimpleRouter.Server
/-!
# What a command comes to

The handlers seen from outside: which of them change the state, and when a
packet is passed on. The filter for ARP requests depends on the name and the
packet it is given (`arpFilter`), whatever else the command contains.
-/
open Memory CProg

namespace SimpleRouter

theorem getInterfaceAt_computes (b : Buf) (off : Nat) (ifs : List SrIf) :
    Computes (getInterfaceAt b off ifs) (srGetInterface ifs (.ofMem b.mem off)) := by
  induction ifs with
  | nil => exact .pure _
  | cons i ifs ih =>
    refine Computes.bind (.touch _ _ _) ?_
    by_cases h : i.name = .ofMem b.mem off
    · rw [if_pos h, srGetInterface, List.find?_cons_of_pos (by simpa using h)]
      exact .pure _
    · rw [if_neg h, srGetInterface, List.find?_cons_of_neg (by simpa using h)]
      exact ih

/-! ## VNSPACKET -/

theorem bytes_lent {b : Buf} {off n : Nat} (h : off + n = b.size) : (lent b off n).bytes = b.bytes.drop off := by
  have hsub : b.size - off = n := by omega
  rw [Buf.drop_bytes, Buf.bytes, hsub]
  apply List.map_congr_left
  intro k _
  simp only [lent, Nat.zero_add]

/-- The length of the packet, as the parser computes it. -/
theorem packetLen (len : UInt32) (hmax : len.toNat ≤ 10000) :
    (24 ≤ len.toNat ∧ (len - 38 + 14).toNat = len.toNat - 24) ∨
    (len.toNat < 24 ∧ 42 ≤ (len - 38 + 14).toNat) := by
  have h : (len - 38 + 14).toNat = ((4294967296 - 38 + len.toNat) % 4294967296 + 14) % 4294967296 := by
    rw [UInt32.toNat_add, UInt32.toNat_sub]
    rfl
  omega

/-- The decision of `sr_arp_req_not_for_us`. -/
def arpFilter (ifs : List SrIf) (name : IfName) (packet : Buf) : Option Bool :=
  if packet.size < ethLen + arpLen then some false
  else match srGetInterface ifs name with
    | none => none
    | some i => some (etherType packet.mem = ethertypeArp ∧ arOp packet.mem = arpOpRequest ∧ arTip packet.mem ≠ i.ip)

section Packet
variable (b : Buf) (len : UInt32) (s : SrInstance)

theorem arpReqForOther_computes (ip : UInt32) : Computes (arpReqForOther b ip)
    (swap16 (b.mem.u16 36) = ethertypeArp ∧ swap16 (b.mem.u16 44) = arpOpRequest ∧ b.mem.u32 62 ≠ ip) := by
  have hswap : ∀ v w : UInt16, swap16 v = w ↔ v = swap16 w := by
    intro v w
    constructor
    · rintro rfl
      exact (swap16_swap16 v).symm
    · rintro rfl
      exact swap16_swap16 w
  refine Computes.bind (.load16 _ _) ?_
  by_cases ht : b.mem.u16 36 = swap16 ethertypeArp
  · rw [if_pos ht]
    refine Computes.bind (.load16 _ _) ?_
    by_cases ho : b.mem.u16 44 = swap16 arpOpRequest
    · rw [if_pos ho]
      refine Computes.bind (.load32 _ _) ?_
      simp only [hswap, ht, ho, true_and]
      exact .pure _
    · rw [if_neg ho]
      simp only [hswap, ht, ho, false_and, and_false]
      exact .pure _
  · rw [if_neg ht]
    simp only [hswap, ht, false_and]
    exact .pure _

/-- What the filter does before it decides: an assertion may fail. -/
def filterActs : Option Bool → List Act
  | none => [.fault .assertion]
  | some _ => []

theorem filterActs_assertion {filter : Option Bool} {a : Act} (h : a ∈ filterActs filter) : a = .fault .assertion := by
  cases filter with
  | none => exact List.mem_singleton.1 h
  | some notForUs => cases h

/-- The filter decides by the packet and the name, and leaves the state alone. -/
theorem srArpReqNotForUs_eq : (srArpReqNotForUs b len s).val =
      arpFilter s.ifList (.ofMem b.mem 8) (lent b packetHeaderLen len.toNat) ∧
    (srArpReqNotForUs b len s).st = s ∧
    (srArpReqNotForUs b len s).acts =
      filterActs (arpFilter s.ifList (.ofMem b.mem 8) (lent b packetHeaderLen len.toNat)) := by
  have hsize : (lent b packetHeaderLen len.toNat).size = len.toNat := rfl
  have hname := getInterfaceAt_computes b 8 s.ifList
  rw [srArpReqNotForUs, arpFilter, hsize]
  simp only [bind_val, bind_st, bind_acts, get_apply, hname.val, hname.st, hname.acts, List.nil_append]
  by_cases hn : len.toNat < 42
  · simp [hn, filterActs]
  · cases srGetInterface s.ifList (.ofMem b.mem 8) with
    | none => simp [hn, filterActs]
    | some i =>
      have hother := arpReqForOther_computes b i.ip
      simp only [ethLen, arpLen, hn, if_false, bind_val, bind_st, bind_acts, hother.val, hother.st, hother.acts,
        pure_apply, List.append_nil, filterActs, and_true]
      rfl

/-- What the parser does with a packet once the filter has decided. -/
def passedOn (packet : Buf) (interface : IfName) : Option Bool → Dispatched
  | none => .stopped
  | some true => .ret 1
  | some false => .frame packet interface

/-- The packet the parser lends: what is behind the header. -/
def packetOf : Buf := lent b packetHeaderLen (len - 38 + 14).toNat

theorem dispatchPacket_eq (env : ServerEnv) : (dispatchPacket env len b s).val =
      passedOn (packetOf b len) (.ofMem b.mem 8) (arpFilter s.ifList (.ofMem b.mem 8) (packetOf b len)) ∧
    (dispatchPacket env len b s).st = s ∧
    (dispatchPacket env len b s).acts = filterActs (arpFilter s.ifList (.ofMem b.mem 8) (packetOf b len)) := by
  obtain ⟨hval, hst, hacts⟩ := srArpReqNotForUs_eq b (len - 38 + 14) s
  have hlog : ∀ len', Computes (srLogPacket env b len') () := by
    intro len'
    rw [srLogPacket]
    split
    · exact .touch _ _ _
    · exact .pure _
  have hpass : Computes (do
      let mLen ← load32 b 0
      srLogPacket env b (swap32 mLen - 24)
      pure (.frame (packetOf b len) (.ofMem b.mem 8)) : RouterM Dispatched) (.frame (packetOf b len) (.ofMem b.mem 8)) :=
    Computes.bind (.load32 _ _) (Computes.bind (hlog _) (.pure _))
  rw [dispatchPacket, bind_val, bind_st, bind_acts, hst, hval, hacts]
  change _ = passedOn _ _ (arpFilter s.ifList (.ofMem b.mem 8) (lent b packetHeaderLen (len - 38 + 14).toNat)) ∧ _ ∧
    _ = filterActs (arpFilter s.ifList (.ofMem b.mem 8) (lent b packetHeaderLen (len - 38 + 14).toNat))
  cases arpFilter s.ifList (.ofMem b.mem 8) (lent b packetHeaderLen (len - 38 + 14).toNat) with
  | none => exact ⟨rfl, rfl, rfl⟩
  | some notForUs =>
    cases notForUs with
    | true => exact ⟨rfl, rfl, rfl⟩
    | false => exact hpass s

end Packet

/-! ## VNSHWINFO -/

/-- Nothing but the interfaces has changed, and they go by the names they had,
in the same order; there may be more. -/
structure OnlyInterfaces (s s' : SrInstance) : Prop where
  cache : s'.cache = s.cache
  routes : s'.routingTable = s.routingTable
  names : s.ifList.map (·.name) <+: s'.ifList.map (·.name)

theorem OnlyInterfaces.refl (s : SrInstance) : OnlyInterfaces s s := ⟨rfl, rfl, List.prefix_rfl⟩

theorem OnlyInterfaces.trans {s s' s'' : SrInstance} (h : OnlyInterfaces s s') (h' : OnlyInterfaces s' s'') :
    OnlyInterfaces s s'' :=
  ⟨h'.cache.trans h.cache, h'.routes.trans h.routes, h.names.trans h'.names⟩

/-- A handler of hardware information: it changes interfaces, or an assertion fails. -/
def HandlesInterfaces {α : Type} (p : RouterM α) : Prop :=
  ∀ s, OnlyInterfaces s (p s).st ∧ ∀ a ∈ (p s).acts, a = .fault .assertion

theorem handles_of {α : Type} {p : RouterM α} {v : α} (h : Computes p v) : HandlesInterfaces p := by
  intro s
  rw [h.st, h.acts]
  exact ⟨.refl s, fun a ha => absurd ha List.not_mem_nil⟩

theorem HandlesInterfaces.bind {α β : Type} {p : RouterM α} {f : α → RouterM β} (hp : HandlesInterfaces p)
    (hf : ∀ v, HandlesInterfaces (f v)) : HandlesInterfaces (p >>= f) := by
  intro s
  obtain ⟨h1, h2⟩ := hp s
  obtain ⟨h3, h4⟩ := hf (p s).val (p s).st
  refine ⟨h1.trans h3, ?_⟩
  intro a ha
  rcases List.mem_append.1 ha with ha | ha
  · exact h2 a ha
  · exact h4 a ha

theorem srAddInterface_handles (junk : Mac × UInt32) (name : IfName) : HandlesInterfaces (srAddInterface junk name) := by
  intro s
  refine ⟨⟨rfl, rfl, ?_⟩, fun a ha => absurd ha List.not_mem_nil⟩
  exact ⟨[name], by simp [srAddInterface]⟩

theorem setLast_yields {s : SrInstance} {ifs : List SrIf} {i : SrIf} (hs : s.ifList = ifs ++ [i]) (f : SrIf → SrIf) :
    Yields (setLast f) s true { s with ifList := ifs ++ [f i] } := by
  have hne : s.ifList ≠ [] := by
    rw [hs]
    exact List.append_ne_nil_of_right_ne_nil _ (List.cons_ne_nil _ _)
  have hlast : s.ifList.modifyLast f = ifs ++ [f i] := by rw [hs, List.modifyLast_concat]
  rw [← hlast]
  refine (yields_get s).bind ?_
  rw [if_neg hne]
  exact (yields_modify _ s).bind ((Computes.pure true).yields _)

theorem setLast_handles {f : SrIf → SrIf} (hf : ∀ i, (f i).name = i.name) : HandlesInterfaces (setLast f) := by
  intro s
  rcases List.eq_nil_or_concat s.ifList with hnil | ⟨ifs, i, hcons⟩
  · simp [setLast, hnil, OnlyInterfaces.refl]
  · rw [List.concat_eq_append] at hcons
    have hset := setLast_yields hcons f
    rw [hset.st, hset.acts]
    refine ⟨⟨rfl, rfl, ?_⟩, fun a ha => absurd ha List.not_mem_nil⟩
    rw [hcons]
    simp [hf]

theorem srSetEtherAddr_handles (b : Buf) (off : Nat) : HandlesInterfaces (srSetEtherAddr b off) := by
  unfold srSetEtherAddr
  refine (setLast_handles fun i => ?_).bind fun ok => ?_
  · rfl
  · split
    · exact (handles_of (.touch _ _ _)).bind fun _ => handles_of (.pure _)
    · exact handles_of (.pure _)

theorem hwEntry_handles (junk : Mac × UInt32) (b : Buf) (off : Nat) : HandlesInterfaces (hwEntry junk b off) := by
  refine (handles_of (.load32 b off)).bind fun key => ?_
  split
  · exact (handles_of (.touch _ _ _)).bind fun _ =>
      (srAddInterface_handles _ _).bind fun _ => handles_of (.pure _)
  · split
    · exact (handles_of (.load32 _ _)).bind fun ip => setLast_handles fun _ => rfl
    · split
      · exact srSetEtherAddr_handles _ _
      · exact handles_of (.pure _)

theorem hwinfoLoop_handles (junk : Nat → Mac × UInt32) (b : Buf) (i n : Nat) :
    HandlesInterfaces (hwinfoLoop junk b i n) := by
  induction n generalizing i with
  | zero => exact handles_of (.pure _)
  | succ n ih =>
    refine (hwEntry_handles _ _ _).bind fun ok => ?_
    split
    · exact ih (i + 1)
    · exact handles_of (.pure _)

theorem srHandleHwinfo_handles (env : ServerEnv) (b : Buf) : HandlesInterfaces (srHandleHwinfo env b) :=
  (handles_of (.load32 _ _)).bind fun _ => (hwinfoLoop_handles _ _ _ _).bind fun _ => handles_of (.pure _)

/-- What `case VNSHWINFO` returns: the table is checked against the interfaces there now are. -/
theorem dispatchHwinfo_eq (env : ServerEnv) (b : Buf) (s : SrInstance) :
    (dispatchHwinfo env b s).st = (srHandleHwinfo env b s).st ∧
    (dispatchHwinfo env b s).acts = (srHandleHwinfo env b s).acts ∧
    ((dispatchHwinfo env b s).val = .stopped ∨ ∃ v, (dispatchHwinfo env b s).val = .ret v ∧ (v = 1 ↔
      srVerifyRoutingTable (srHandleHwinfo env b s).st.ifList (srHandleHwinfo env b s).st.routingTable = 0)) := by
  rw [dispatchHwinfo, bind_st, bind_acts, bind_val]
  generalize (srHandleHwinfo env b s).st = t
  cases (srHandleHwinfo env b s).val with
  | none => exact ⟨rfl, List.append_nil _, .inl rfl⟩
  | some n =>
    refine ⟨rfl, List.append_nil _, .inr ⟨_, rfl, ?_⟩⟩
    simp only [get_apply]
    by_cases hv : srVerifyRoutingTable t.ifList t.routingTable = 0
    · simp [hv]
    · simp [hv]

/-! ## The other commands -/

theorem touchStr_computes (b : Buf) (off : Nat) : Computes (touchStr b off) () := .touch _ _ _

theorem srHandleRtable_computes (env : ServerEnv) (b : Buf) : Computes (srHandleRtable env b) env.rtableOpens := by
  refine Computes.bind (touchStr_computes _ _) (Computes.bind (.touch _ _ _) ?_)
  cases env.rtableOpens with
  | false => exact .pure _
  | true => exact Computes.bind (.load32 _ _) (Computes.bind (.touch _ _ _) (.pure _))

theorem srHandleAuthRequest_computes (env : ServerEnv) (b : Buf) :
    Computes (srHandleAuthRequest env b) (env.authKey && env.authSent) := by
  unfold srHandleAuthRequest
  cases env.authKey with
  | false => exact .pure _
  | true =>
    exact Computes.bind (.load32 _ _) (Computes.bind (.touch _ _ _) (Computes.bind (.touch _ _ _)
      (Computes.bind (.touch _ _ _) (Computes.bind (.touch _ _ _) (Computes.bind (.touch _ _ _) (.pure _))))))

theorem srHandleAuthStatus_computes (b : Buf) : Computes (srHandleAuthStatus b) (decide (b.mem 8 ≠ 0)) := by
  refine Computes.bind (.load8 _ _) ?_
  by_cases h : b.mem 8 = 0
  · simp only [h, ne_eq, not_true_eq_false, decide_false]
    exact Computes.bind (touchStr_computes _ _) (.pure _)
  · simp only [h, ne_eq, not_false_eq_true, decide_true]
    exact .pure _

/-- Of all commands, a packet and hardware information do more than return a value. -/
theorem dispatch_cases (env : ServerEnv) (expected command len : UInt32) (b : Buf) :
    (command = vnsPacket ∧ dispatch env expected command len b = dispatchPacket env len b) ∨
    (command = vnsHwinfo ∧ dispatch env expected command len b = dispatchHwinfo env b) ∨
    ∃ v, Computes (dispatch env expected command len b) (.ret v) := by
  unfold dispatch
  by_cases hexp : expected ≠ 0 ∧ command ≠ expected ∧ command ≠ vnsClose
  · rw [if_pos hexp]
    exact .inr (.inr ⟨_, .pure _⟩)
  rw [if_neg hexp]
  by_cases hpacket : command = vnsPacket
  · rw [if_pos hpacket]
    exact .inl ⟨hpacket, rfl⟩
  rw [if_neg hpacket]
  by_cases hclose : command = vnsClose
  · rw [if_pos hclose]
    exact .inr (.inr ⟨_, Computes.bind (touchStr_computes _ _) (.pure _)⟩)
  rw [if_neg hclose]
  by_cases hbanner : command = vnsBanner
  · rw [if_pos hbanner]
    exact .inr (.inr ⟨_, Computes.bind (touchStr_computes _ _) (.pure _)⟩)
  rw [if_neg hbanner]
  by_cases hhwinfo : command = vnsHwinfo
  · rw [if_pos hhwinfo]
    exact .inr (.inl ⟨hhwinfo, rfl⟩)
  rw [if_neg hhwinfo]
  by_cases hrtable : command = vnsRtable
  · rw [if_pos hrtable]
    exact .inr (.inr ⟨_, Computes.bind (srHandleRtable_computes _ _) (.pure _)⟩)
  rw [if_neg hrtable]
  by_cases hrequest : command = vnsAuthRequest
  · rw [if_pos hrequest]
    exact .inr (.inr ⟨_, Computes.bind (srHandleAuthRequest_computes _ _) (.pure _)⟩)
  rw [if_neg hrequest]
  by_cases hstatus : command = vnsAuthStatus
  · rw [if_pos hstatus]
    exact .inr (.inr ⟨_, Computes.bind (srHandleAuthStatus_computes _) (.pure _)⟩)
  · rw [if_neg hstatus]
    exact .inr (.inr ⟨_, .pure _⟩)

theorem passedOn_frame {packet p : Buf} {interface i : IfName} {filter : Option Bool}
    (h : passedOn p i filter = .frame packet interface) : packet = p ∧ interface = i ∧ filter = some false := by
  cases filter with
  | none => cases h
  | some notForUs =>
    cases notForUs with
    | true => cases h
    | false =>
      cases h
      exact ⟨rfl, rfl, rfl⟩

/-- A frame that is passed on is a packet the filter has let through, and nothing has happened by then. -/
theorem dispatch_frame {env : ServerEnv} {expected command len : UInt32} {b packet : Buf} {interface : IfName}
    {s : SrInstance} (h : (dispatch env expected command len b s).val = .frame packet interface) :
    dispatch env expected command len b = dispatchPacket env len b ∧ packet = packetOf b len ∧
      interface = .ofMem b.mem 8 ∧ arpFilter s.ifList interface packet = some false ∧
      (dispatch env expected command len b s).st = s ∧ (dispatch env expected command len b s).acts = [] := by
  rcases dispatch_cases env expected command len b with ⟨-, hd⟩ | ⟨-, hd⟩ | ⟨v, hv⟩
  · obtain ⟨hval, hst, hacts⟩ := dispatchPacket_eq b len s env
    rw [hd, hval] at h
    obtain ⟨rfl, rfl, hfilter⟩ := passedOn_frame h
    rw [hfilter] at hacts
    rw [hd]
    exact ⟨rfl, rfl, rfl, hfilter, hst, hacts⟩
  · rw [hd] at h
    rcases (dispatchHwinfo_eq env b s).2.2 with hs | ⟨v, hv, -⟩
    · cases hs.symm.trans h
    · cases hv.symm.trans h
  · cases (hv.val s).symm.trans h

/-- What a command does to the state, and the only action it performs. -/
theorem dispatch_handles (env : ServerEnv) (expected command len : UInt32) (b : Buf) :
    HandlesInterfaces (dispatch env expected command len b) := by
  intro s
  rcases dispatch_cases env expected command len b with ⟨-, hd⟩ | ⟨-, hd⟩ | ⟨v, hv⟩
  · obtain ⟨-, hst, hacts⟩ := dispatchPacket_eq b len s env
    rw [hd, hst, hacts]
    exact ⟨.refl s, fun a ha => filterActs_assertion ha⟩
  · obtain ⟨hst, hacts, -⟩ := dispatchHwinfo_eq env b s
    rw [hd, hst, hacts]
    exact srHandleHwinfo_handles env b s
  · exact handles_of hv s

end SimpleRouter
