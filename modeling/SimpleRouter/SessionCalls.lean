import SimpleRouter.Session
import SimpleRouter.SourceCheck
/-!
# Calls that are accepted

What a call of `sr_read_from_server_expect` comes to on each message of a
session that goes as it should: it returns 1, and what the router does in it
names interfaces that exist.
-/
open Memory CProg Runs Stream Struct

namespace SimpleRouter

/-! ## Lengths -/

/-- The frame fits into a command, behind the name of its interface. -/
def Event.Short : Event → Prop
  | .frame bytes _ _ _ _ => bytes.length ≤ 9976
  | .sweep _ => True

def Act.Short : Act → Prop
  | .send _ _ frame => frame.length ≤ 9976
  | _ => True

/-- No packet that waits is longer. -/
def SrInstance.Short (sr : SrInstance) : Prop := ∀ r ∈ sr.cache.requests, ∀ pkt ∈ r.packets, pkt.buf.length ≤ 9976

section Lengths
variable {ifs : List SrIf} {rts : List SrRt} {n : Nat} {sr sr' : SrInstance} {e : Event} {acts : List Act}

/-- What is put out about a frame is no longer than that, or an error of 70 bytes. -/
theorem output_short {env : Env} {bytes : Bytes} {past : Mem} {interface : IfName} {built : List Act} {d : Delivery}
    (hp : plan ifs rts env (.ofBytes bytes past) interface = .output built d) (he : bytes.length ≤ 9976) :
    d.frame.length ≤ 9976 := by
  obtain ⟨-, -, hf | ⟨orig, type, code, hf⟩⟩ := plan_output hp
  · rw [hf.frame, Buf.length_bytes, size_forwardBuf, Buf.size_ofBytes]
    exact he
  · rw [hf.frame, Buf.length_bytes, size_t3Buf]
    decide

theorem Sent.short (hw : Wf ifs rts n sr) (hq : sr.Short) (he : e.Short) {site : Site} {iface : IfName} {frame : Bytes}
    (hs : Sent ifs rts n sr sr' acts e site iface frame) : frame.length ≤ 9976 := by
  cases hs with
  | arpReply ht ho hl => exact hl.trans_le (by decide)
  | echo hl =>
    rw [Buf.length_bytes, size_echoBuf, Buf.size_ofBytes]
    exact he
  | flushed h hr hp hi =>
    have hmem := (findReq_some hr).1
    rw [length_setEth _ _ (hw.packet _ hmem _ hp).2]
    exact hq _ hmem _ hp
  | direct hp =>
    obtain ⟨h34, -⟩ := plan_routed hp
    rw [Delivery.sent, length_setEth _ _ (by omega)]
    exact output_short hp he
  | first => simp
  | retry => simp
  | unreachable =>
    rw [length_setEth _ _ (by simp [unreachError]), unreachError, Buf.length_bytes, size_unreachBuf]
    decide

/-- A step on a short frame sends and queues short frames. -/
theorem StepsTo.short (hw : Wf ifs rts n sr) (hs : StepsTo ifs rts n sr e sr' acts) (hq : sr.Short) (he : e.Short) :
    sr'.Short ∧ ∀ a ∈ acts, a.Short := by
  constructor
  · intro q hqm pkt hp
    rcases hs.waiting_packet hw hqm hp with ⟨r, hr, -, hp'⟩ | ⟨d, hd, rfl, -⟩
    · exact hq r hr pkt hp'
    · obtain ⟨built, bytes, past, heap, iface, now, rfl, hplan⟩ := delivers_plan hd
      obtain ⟨h34, -⟩ := plan_routed hplan
      rw [Delivery.packet, length_setEth _ _ (by omega)]
      exact output_short hplan he
  · intro a ha
    cases a with
    | send site iface frame => exact (hs.sent ha).short hw hq he
    | _ => trivial

end Lengths

/-! ## The router by itself -/

/-- No fault, and no send but of a short frame by an interface there is. -/
def Act.Grounded (ifs : List SrIf) : Act → Prop
  | .send _ iface frame => frame.length ≤ 9976 ∧ ∃ i, srGetInterface ifs iface = some i
  | .fault _ => False
  | _ => True

theorem Act.Matches.grounded {ifs : List SrIf} {a : Act} (h : a.Matches ifs) (hs : a.Short)
    (hf : ∀ why, a ≠ .fault why) : a.Grounded ifs := by
  cases a with
  | send site iface frame =>
    obtain ⟨-, i, hi, -⟩ := h
    exact ⟨hs, i, hi⟩
  | fault why => exact absurd rfl (hf why)
  | _ => trivial

section Grounded
variable {ifs : List SrIf} {rts : List SrRt} {a : Act}

theorem sendActs_grounded {site : Site} {iface : IfName} {frame : Bytes} (ha : a ∈ sendActs ifs site iface frame)
    (hs : a.Short) : a.Grounded ifs := by
  rcases sendActs_cases ifs site iface frame with h | h
  · rw [h] at ha
    rw [List.mem_singleton.1 ha]
    trivial
  · rw [h] at ha
    obtain rfl := List.mem_singleton.1 ha
    exact (matches_of_sendActs h).grounded hs nofun

theorem sweep_grounded {entries : ArpTable} {env : SweepEnv} {k : Nat} {reqs : List SrArpreq}
    (ha : a ∈ sweepActs ifs rts entries env k reqs) (hs : a.Short) : a.Grounded ifs := by
  refine (sweep_matches ha).grounded hs ?_
  rintro why rfl
  obtain ⟨r, -, now, hone, -, -⟩ := mem_sweepActs ha
  obtain ⟨-, ⟨-, he | ⟨pkt, -, hu⟩⟩ | ⟨-, pkt, -, i, hi, he⟩⟩ := mem_sweepOneActs hone
  · cases he
  · obtain ⟨i, -, he | hsend⟩ := mem_unreachActs hu
    · cases he
    · obtain ⟨best, j, e, -, hj, -, he⟩ := mem_unreachSend hsend
      cases he
  · cases he

theorem output_grounded {n : Nat} {sr sr' : SrInstance} {e : Event} {acts : List Act} {d : Delivery}
    (hs : StepsTo ifs rts n sr e sr' acts) (hd : delivers ifs rts n e = some d) (ha : a ∈ acts) (hshort : a.Short) :
    a.Grounded ifs := by
  refine (output_matches hs hd ha).grounded hshort ?_
  rintro why rfl
  obtain ⟨built, _, _, _, _, _, rfl, hp, hacts⟩ := hs.delivered hd
  have hbuilt : .fault why ∉ built := fun hb => by cases mem_built hp hb
  rcases hacts with ⟨ent, -, rfl⟩ | ⟨-, rfl | rfl⟩
  · rcases List.mem_append.1 ha with ha | ha
    · exact hbuilt ha
    · cases List.mem_singleton.1 ha
  · exact hbuilt ha
  · rcases List.mem_append.1 ha with ha | ha
    · exact hbuilt ha
    · cases List.mem_singleton.1 ha

theorem planError_crash {env : Env} {packet : Buf} {type code : UInt8} : planError ifs rts env packet type code ≠ .crash := by
  unfold planError
  split
  · exact nofun
  · split
    · exact nofun
    · exact nofun

theorem planForward_crash {env : Env} {packet : Buf} : planForward ifs rts env packet ≠ .crash := by
  unfold planForward
  split
  · exact planError_crash
  · split
    · exact planError_crash
    · split
      · exact nofun
      · exact nofun

/-- Only an echo request from an interface that is not there crashes the router. -/
theorem plan_crash {env : Env} {packet : Buf} {interface : IfName} (h : plan ifs rts env packet interface = .crash) :
    srGetInterface ifs interface = none := by
  unfold plan at h
  split at h
  · cases h
  split at h
  · unfold planArp at h
    split at h
    · cases h
    split at h
    · split at h <;> cases h
    · split at h <;> cases h
  split at h
  · unfold planIp at h
    split at h
    · cases h
    split at h
    · split at h
      · split at h
        · unfold planEcho at h
          cases hi : srGetInterface ifs interface with
          | none => rfl
          | some i => simp [hi] at h
        · cases h
      · exact absurd h planError_crash
    · exact absurd h planForward_crash
  · cases h

/-- A router that knows the interface a frame comes in on does nothing wrong with it. -/
theorem step_grounded {n : Nat} {sr : SrInstance} (hw : Wf ifs rts n sr) (hc : Counted sr) (hq : sr.Short) {e : Event}
    (he : e.Known ifs) (hshort : e.Short) : ∀ a ∈ (stepRes n sr e).acts, a.Grounded ifs := by
  intro a ha
  have hs := step_cases hw hc e
  have hashort := (hs.short hw hq hshort).2 a ha
  cases e with
  | sweep env =>
    obtain ⟨-, hacts⟩ := srArpcacheTimeout_spec env sr hw.ptr
    rw [stepRes, hacts, hw.ifList] at ha
    exact sweep_grounded ha hashort
  | frame bytes past heap interface now =>
    have hf := handleUntilMiss_follows ⟨n, now, heap⟩ (.ofBytes bytes past) interface sr hw.queueOk
    rw [hw.ifList, hw.routes] at hf
    cases hp : plan ifs rts ⟨n, now, heap⟩ (.ofBytes bytes past) interface with
    | quiet =>
      rw [stepRes, (srHandlepacket_none (hp ▸ hf) rfl).2] at ha
      cases ha
    | crash =>
      obtain ⟨i, hi⟩ := he
      cases hi.symm.trans (plan_crash hp)
    | transmit site iface frame =>
      rw [stepRes, (srHandlepacket_none (hp ▸ hf) rfl).2, Plan.acts, hw.ifList] at ha
      exact sendActs_grounded ha hashort
    | learn mac ip =>
      rw [stepRes, (srHandlepacket_learn hw hp).2] at ha
      cases hr : findReq ip sr.cache.requests with
      | none => simp [hr] at ha
      | some r =>
        rw [hr] at ha
        obtain ⟨pkt, -, i, hi, rfl⟩ := mem_flushActs ha
        exact ⟨hashort, i, hi⟩
    | output built d => exact output_grounded (d := d) hs (by simp only [delivers, hp]) ha hashort

end Grounded

/-- What holds of the router in a session that goes on, after `n` events. -/
structure RouterOk (rts : List SrRt) (n : Nat) (sr : SrInstance) : Prop extends ClientWf rts n sr where
  short : sr.Short

theorem RouterOk.mono {rts : List SrRt} {n : Nat} {sr : SrInstance} (h : RouterOk rts n sr) : RouterOk rts (n + 1) sr :=
  ⟨⟨h.wf.mono, h.counted⟩, h.short⟩

/-- A step of the router keeps it as it should be. -/
theorem step_keeps {rts : List SrRt} {n : Nat} {sr : SrInstance} (hw : RouterOk rts n sr) {e : Event}
    (he : e.Known sr.ifList) (hshort : e.Short) : RouterOk rts (n + 1) (stepRes n sr e).st ∧
      (stepRes n sr e).st.ifList = sr.ifList ∧ ∀ a ∈ (stepRes n sr e).acts, a.Grounded sr.ifList := by
  have hs := step_cases hw.wf hw.counted e
  have hwf := hs.wf hw.wf
  have hq := (hs.short hw.wf hw.short hshort).1
  refine ⟨⟨⟨?_, hs.counted hw.counted⟩, hq⟩, hwf.ifList, step_grounded hw.wf hw.counted hw.short he hshort⟩
  rw [hwf.ifList]
  exact hwf

/-- So does a packet that is passed on to it. -/
theorem handled {rts : List SrRt} {n : Nat} {sr : SrInstance} (hw : RouterOk rts n sr) {env : ServerEnv} (hn : env.seq = n)
    {packet : Buf} (hmax : packet.bytes.length ≤ 9976) {interface : IfName}
    (hi : ∃ i, srGetInterface sr.ifList interface = some i) :
    RouterOk rts (n + 1) (srHandlepacket env.toEnv packet interface sr).st ∧
    (srHandlepacket env.toEnv packet interface sr).st.ifList = sr.ifList ∧
    ∀ a ∈ (srHandlepacket env.toEnv packet interface sr).acts, a.Grounded sr.ifList := by
  rw [← stepRes_frame sr hn]
  exact step_keeps hw hi hmax

/-- So does a sweep. -/
theorem swept_keeps {rts : List SrRt} {n : Nat} {sr : SrInstance} (hw : RouterOk rts n sr) (env : SweepEnv) :
    RouterOk rts (n + 1) (srArpcacheTimeout env sr).st ∧ (srArpcacheTimeout env sr).st.ifList = sr.ifList ∧
    ∀ a ∈ (srArpcacheTimeout env sr).acts, a.Grounded sr.ifList := @step_keeps rts n sr hw (.sweep env) trivial trivial

/-- A router that can be authenticated, has routes, and asks for a topology. -/
structure Setup.Ready (P : Setup) : Prop where
  key : (P.account.authKey.bind authKeyLine).isSome
  template : P.account.template = []
  routes : P.routes ≠ []

/-! ## The calls of the router -/

section Calls
variable (P : Setup) (n : Nat) (env : ServerEnv) (expected : UInt32) (w : Wire) (sr : SrInstance)

/-- A call that finds `w` on the socket reads it and returns 1, in the state
`sr'` and with the actions `acts`. -/
structure Accepts (sr' : SrInstance) (acts : List Act) : Prop where
  ret : (srReadFromServerExpect (readEnv P n env) expected [.bytes w.bytes] sr).val.ret = some 1
  decoded : (srReadFromServerExpect (readEnv P n env) expected [.bytes w.bytes] sr).val.decoded = some (w.type, w.body)
  st : (srReadFromServerExpect (readEnv P n env) expected [.bytes w.bytes] sr).st = sr'
  acts : (srReadFromServerExpect (readEnv P n env) expected [.bytes w.bytes] sr).acts = acts

variable {P n env expected w sr}

theorem accepts_of_computes (h : 8 + w.body.length ≤ 10000)
    (hd : Computes (dispatchOn (readEnv P n env) expected w) (.ret 1)) : Accepts P n env expected w sr sr [] := by
  obtain ⟨hret, hst, hacts⟩ := read_ret h sr hd
  exact ⟨hret, (read_wire h _ expected sr).2.1, hst, hacts⟩

/-- The request for authentication is answered. -/
theorem accepts_request {salt : Bytes} (hsalt : salt.length = 20) (hkey : (P.account.authKey.bind authKeyLine).isSome)
    (hsent : env.authSent = true) : Accepts P n env vnsAuthRequest (SRServerListener.handleNewClient salt) sr sr [] := by
  have hauth : ((readEnv P n env).authKey && (readEnv P n env).authSent) = true := by
    change ((P.account.authKey.bind authKeyLine).isSome && env.authSent) = true
    rw [hkey, hsent]
    rfl
  have hc := srHandleAuthRequest_computes (readEnv P n env)
    ((SRServerListener.handleNewClient salt).buf (readEnv P n env).past)
  rw [hauth] at hc
  apply accepts_of_computes
  · change 8 + salt.length ≤ 10000
    omega
  · exact Computes.bind hc (.pure _)

/-- What the server says of an authentication, which it always grants. -/
def granted (msg : Bytes) : Wire := ⟨vnsAuthStatus, 1 :: msg⟩

theorem accepts_granted {msg : Bytes} (hmsg : msg.length ≤ 9991) : Accepts P n env vnsAuthStatus (granted msg) sr sr [] := by
  have hsize : 8 + (granted msg).body.length ≤ 10000 := by
    change 8 + (1 :: msg).length ≤ 10000
    rw [List.length_cons]
    omega
  have hok : ((granted msg).buf (readEnv P n env).past).mem 8 = 1 := by
    have hdrop := ((granted msg).command hsize).drop_buf (readEnv P n env).past
    have hlen := congrArg List.length hdrop
    rw [Buf.length_drop_bytes] at hlen
    rw [Buf.drop_bytes] at hdrop
    have hhead := congrArg (List.getD · 0 0) hdrop
    rw [Mem.getD_slice _ _ _ _ (by rw [hlen]; exact Nat.succ_pos _)] at hhead
    exact hhead
  have hc := srHandleAuthStatus_computes ((granted msg).buf (readEnv P n env).past)
  rw [hok] at hc
  apply accepts_of_computes hsize
  exact Computes.bind hc (.pure _)

/-- A frame of no bytes, of which the router takes no notice. -/
def silence : Event := .frame [] (fun _ => 0) (fun _ => 0) ⟨[], by decide, by decide⟩ 0

/-- The event that a message with a packet is to the router: the frame in it,
unless it is an ARP request for someone else. -/
def Wire.event (env : ServerEnv) (ifs : List SrIf) (w : Wire) : Event :=
  let packet := packetOf (w.buf env.past) (.ofNat (8 + w.body.length))
  if arpFilter ifs (.ofMem (w.buf env.past).mem 8) packet = some false then
    .frame packet.bytes packet.mem env.heap (.ofMem (w.buf env.past).mem 8) env.now
  else silence

/-- A packet that came in on an interface the router knows is handled. -/
theorem accepts_packet {name : IfName} {frame : Bytes} (hw : RouterOk P.routes n sr) (hname : name.chars.length ≤ 15)
    (hmax : frame.length ≤ 9976) (hi : ∃ i, srGetInterface sr.ifList name = some i) :
    ∃ res, res = stepRes n sr ((packetWire name.chars frame).event env sr.ifList) ∧
      Accepts P n env 0 (packetWire name.chars frame) sr res.st res.acts ∧ RouterOk P.routes (n + 1) res.st ∧
      res.st.ifList = sr.ifList ∧ ∀ a ∈ res.acts, a.Grounded sr.ifList := by
  have hholds := holdsName_pad hname
  have hsize : 8 + (packetWire name.chars frame).body.length ≤ 10000 := hholds.size_le hmax
  let c : Command := (packetWire name.chars frame).command hsize
  obtain ⟨hret, hdecoded, hst, hacts⟩ := read_wire hsize (readEnv P n env) 0 sr
  obtain ⟨hbytes, -, hmem⟩ := @packet_lent c (pad 16 name.chars) name frame (readEnv P n env).past hholds rfl
  have hdispatch : dispatchOn (readEnv P n env) 0 (packetWire name.chars frame) =
      dispatchPacket (readEnv P n env) c.len (c.buf (readEnv P n env).past) := dispatchOn_packet (.inl rfl) _ _
  obtain ⟨hval, hst', hacts'⟩ := dispatchPacket_eq (c.buf (readEnv P n env).past) c.len sr (readEnv P n env)
  have hevent : (packetWire name.chars frame).event env sr.ifList =
      if arpFilter sr.ifList (.ofMem (c.buf (readEnv P n env).past).mem 8) (packetOf (c.buf (readEnv P n env).past) c.len) =
        some false then
        .frame (packetOf (c.buf (readEnv P n env).past) c.len).bytes (packetOf (c.buf (readEnv P n env).past) c.len).mem
          (readEnv P n env).heap (.ofMem (c.buf (readEnv P n env).past).mem 8) (readEnv P n env).now
      else silence := rfl
  rw [hmem] at hval hacts' hevent
  rw [hdispatch, hval, hst'] at hret hst
  rw [hdispatch, hval, hst', hacts'] at hacts
  obtain ⟨i, hi⟩ := hi
  have hfilter : arpFilter sr.ifList name (packetOf (c.buf (readEnv P n env).past) c.len) ≠ none := by
    unfold arpFilter
    rw [hi]
    split <;> exact nofun
  refine ⟨_, rfl, ?_⟩
  rw [hevent]
  cases hf : arpFilter sr.ifList name (packetOf (c.buf (readEnv P n env).past) c.len) with
  | none => exact absurd hf hfilter
  | some notForUs =>
    rw [hf] at hret hst hacts
    cases notForUs with
    | true => exact ⟨⟨hret, hdecoded, hst, hacts⟩, hw.mono, rfl, fun a ha => absurd ha List.not_mem_nil⟩
    | false =>
      rw [if_pos rfl, @stepRes_frame (readEnv P n env) sr n rfl]
      obtain ⟨hwf, hifs, hgrounded⟩ := @handled P.routes n sr hw (readEnv P n env) rfl
        (packetOf (c.buf (readEnv P n env).past) c.len) (by rw [hbytes]; exact hmax) name ⟨i, hi⟩
      have hacts'' := hacts.trans (List.nil_append _)
      exact ⟨⟨hret, hdecoded, hst, hacts''.trans (List.append_nil _)⟩, hwf, hifs, hgrounded⟩

/-- Its handler adds the interfaces it is about. -/
theorem srHandleHwinfo_adds {interfaces : List VNSInterface} (hname : ∀ i ∈ interfaces, FitsField 31 i.name)
    (hsize : 8 + (hardwareWire interfaces).body.length ≤ 10000) (env : ServerEnv) (sr : SrInstance) :
    ∃ added, List.Forall₂ Describes interfaces added ∧
      Yields (srHandleHwinfo env ((hardwareWire interfaces).buf env.past)) sr (some (6 * interfaces.length : Nat))
        { sr with ifList := sr.ifList ++ added } := by
  let c : Command := (hardwareWire interfaces).command hsize
  have hlen := hardwareWire_length interfaces
  have hrecords : RecordsAt (c.buf env.past) 0 (interfaces.flatMap VNSInterface.records) :=
    recordsAt_of_bytes (records_size interfaces) (c.drop_buf env.past)
  obtain ⟨added, hadded, hloop⟩ := @hwinfoLoop_interfaces env.junk (c.buf env.past) interfaces hname 0 sr hrecords
  have hclen : c.len.toNat = 8 + 216 * interfaces.length := by
    rw [c.toNat_len]
    exact congrArg (8 + ·) hlen
  have hnum : numEntries (swap32 ((c.buf env.past).mem.u32 0)) = (6 * interfaces.length : Nat) := by
    have hdiv : (8 + 216 * interfaces.length - 8) / 36 = 6 * interfaces.length := by omega
    rw [c.mLen_buf, numEntries_eq (by omega) (by omega), hclen, hdiv]
  refine ⟨added, hadded, ?_⟩
  refine ((Computes.load32 (c.buf env.past) 0).yields sr).bind ?_
  rw [hnum, Int.toNat_natCast]
  exact hloop.bind ((Computes.pure _).yields _)

/-- The interfaces are added whether or not the table of routes passes then. -/
theorem dispatchOn_hardware {interfaces : List VNSInterface} (hname : ∀ i ∈ interfaces, FitsField 31 i.name)
    (hsize : 8 + (hardwareWire interfaces).body.length ≤ 10000) (env : ServerEnv) (sr : SrInstance) :
    ∃ added, List.Forall₂ Describes interfaces added ∧
      Yields (dispatchOn env 0 (hardwareWire interfaces)) sr
        (.ret (if srVerifyRoutingTable (sr.ifList ++ added) sr.routingTable ≠ 0 then -1 else 1))
        { sr with ifList := sr.ifList ++ added } := by
  obtain ⟨added, hadded, hinfo⟩ := srHandleHwinfo_adds hname hsize env sr
  have htype : (hardwareWire interfaces).type = vnsHwinfo := rfl
  refine ⟨added, hadded, ?_⟩
  unfold dispatchOn dispatch
  rw [if_neg (fun h => h.1 rfl), htype, if_neg (by decide), if_neg (by decide), if_neg (by decide), if_pos rfl]
  exact hinfo.bind ((yields_get _).bind ((Computes.pure _).yields _))

/-- The names come out as they went in. -/
theorem describes_names {interfaces : List VNSInterface} {added : List SrIf} (h : List.Forall₂ Describes interfaces added) :
    added.map (·.name.chars) = interfaces.map (·.name) := by
  induction h with
  | nil => rfl
  | cons hd _ ih => rw [List.map_cons, List.map_cons, hd.name, ih]

theorem mem_describes {interfaces : List VNSInterface} {added : List SrIf} (h : List.Forall₂ Describes interfaces added)
    {name : IfName} (hn : name.chars ∈ interfaces.map (·.name)) : ∃ i, srGetInterface added name = some i := by
  rw [← describes_names h] at hn
  obtain ⟨i, hi, hin⟩ := List.mem_map.1 hn
  exact srGetInterface_isSome.2 (List.mem_map.2 ⟨i, hi, IfName.eq_of_chars hin⟩)

/-- A table whose routes all name interfaces passes. -/
theorem verify_passes {ifs : List SrIf} {rts : List SrRt} (hrts : rts ≠ [])
    (h : ∀ rt ∈ rts, ∃ i, srGetInterface ifs rt.interface = some i) : srVerifyRoutingTable ifs rts = 0 := by
  have hifs : ifs ≠ [] := by
    obtain ⟨rt, hrt⟩ := List.exists_mem_of_ne_nil rts hrts
    obtain ⟨i, hi⟩ := h rt hrt
    exact List.ne_nil_of_mem (srGetInterface_some hi).1
  unfold srVerifyRoutingTable
  rw [if_neg (by simp [hifs, hrts]), List.countP_eq_zero]
  intro rt hrt
  obtain ⟨i, hi⟩ := h rt hrt
  obtain ⟨hmem, hname⟩ := srGetInterface_some hi
  simp only [Bool.not_eq_true, Bool.not_eq_false', List.any_eq_true, decide_eq_true_eq]
  exact ⟨i, hmem, hname⟩

/-- The routes name interfaces that the server describes. -/
def Covers (interfaces : List VNSInterface) (rts : List SrRt) : Prop :=
  ∀ rt ∈ rts, rt.interface.chars ∈ interfaces.map (·.name)

/-- Hardware information about the interfaces of the routes is accepted. -/
theorem accepts_hardware {interfaces : List VNSInterface} (hname : ∀ i ∈ interfaces, FitsField 31 i.name)
    (hsize : 8 + (hardwareWire interfaces).body.length ≤ 10000) (hw : RouterOk P.routes n sr) (hifs : sr.ifList = [])
    (hroutes : P.routes ≠ []) (hcover : Covers interfaces P.routes) :
    ∃ added, Accepts P n env 0 (hardwareWire interfaces) sr { sr with ifList := added } [] ∧
      RouterOk P.routes (n + 1) { sr with ifList := added } ∧
      added.map (·.name.chars) = interfaces.map (·.name) := by
  obtain ⟨added, hadded, hd⟩ := dispatchOn_hardware hname hsize (readEnv P n env) sr
  have hverify : srVerifyRoutingTable added sr.routingTable = 0 := by
    rw [hw.wf.routes]
    exact verify_passes hroutes fun rt hrt => mem_describes hadded (hcover rt hrt)
  rw [hifs, List.nil_append, hverify, if_neg (by decide)] at hd
  obtain ⟨hret, hdecoded, hst, hacts⟩ := read_wire hsize (readEnv P n env) 0 sr
  rw [hd.val, hd.st] at hret hst
  rw [hd.val, hd.st, hd.acts] at hacts
  refine ⟨added, ⟨hret, hdecoded, hst, hacts⟩, ?_, describes_names hadded⟩
  have hsteps := @serve_cases n sr (readEnv P n env) rfl 0 [.bytes (hardwareWire interfaces).bytes]
  rw [hst] at hsteps
  exact ⟨hsteps.wf hw.toClientWf, hw.short⟩

/-! ## What the router sends -/

/-- The message can travel, and is read as `m`. -/
structure Wire.Carries (w : Wire) (m : VNSMessage) : Prop where
  short : 8 + w.body.length < 2 ^ 32
  message : w.message = some m

/-- The answer to a request is one message, which the server reads as such. -/
theorem authReplies_request {line salt : Bytes} (hline : P.account.authKey.bind authKeyLine = some line)
    (hsalt : salt.length = 20) (mem : Scratch) (past : Mem) {call : Call}
    (hret : call.ret = some 1) (hdecoded : call.decoded = some (vnsAuthRequest, salt)) :
    ∃ (w : Wire) (m : VNSAuthReply), authReplies P mem past call sr = [w.bytes] ∧ w.Carries (.vnsAuthReply m) := by
  have huser := P.account.user_fits.2
  have hsize : 8 + (SRServerListener.handleNewClient salt).body.length ≤ 10000 := by
    change 8 + salt.length ≤ 10000
    omega
  have hsends := srHandleAuthRequestSends_computes mem P.account hline (by omega)
    ((SRServerListener.handleNewClient salt).command hsize) past
  have hread := @unpack_authReply P.account.user (Standard.sha1 (salt ++ keyBytes mem.stack line)).bytes (by omega)
  refine ⟨⟨vnsAuthReply, be 4 P.account.user.length ++ (P.account.user ++
    (Standard.sha1 (salt ++ keyBytes mem.stack line)).bytes)⟩,
    ⟨P.account.user, (Standard.sha1 (salt ++ keyBytes mem.stack line)).bytes⟩, ?_, ?_, ?_⟩
  · have hval : (srHandleAuthRequestSends mem P.account ((SRServerListener.handleNewClient salt).buf past) sr).val = _ :=
      hsends.val sr
    have hlen : P.account.user.length + 32 = 8 + (be 4 P.account.user.length ++ (P.account.user ++
        (Standard.sha1 (salt ++ keyBytes mem.stack line)).bytes)).length := by
      simp only [List.length_append, length_be, length_words_bytes]
      omega
    unfold authReplies
    rw [hdecoded]
    simp only [hret, and_self, if_true]
    rw [show Wire.buf ⟨vnsAuthRequest, salt⟩ past = (SRServerListener.handleNewClient salt).buf past from rfl, hval, hlen]
    rfl
  · simp only [List.length_append, length_be, length_words_bytes]
    omega
  · simp only [Wire.message, vnsAuthReply, hread]
    rfl

/-- So is the message that opens a topology. -/
theorem openings_open (htemplate : P.account.template = []) (mem : Scratch) {call : Call} (hret : call.ret = some 1) :
    ∃ (w : Wire) (m : VNSOpen), openings P mem .awaitStatus call sr = [w.bytes] ∧ w.Carries (.vnsOpen m) := by
  obtain ⟨command, hc, hbytes⟩ := openCommand_computes mem P.account
  have hopen : (openRequest mem P.account sr).val = command := by
    rw [openRequest, htemplate]
    exact hc.val sr
  have hread := @unpack_open P.account.topoId _ _ P.account.host_fits (P.account.user_fits.mono (by decide))
  refine ⟨⟨vnsOpen, be 2 P.account.topoId.toNat ++ (be 2 0 ++ (pad 32 P.account.host ++ (pad 32 P.account.user ++
    pad 32 [])))⟩, ⟨P.account.topoId.toNat, P.account.host, P.account.user, []⟩, ?_, ?_, ?_⟩
  · have hlen : 108 = 8 + (be 2 P.account.topoId.toNat ++ (be 2 0 ++ (pad 32 P.account.host ++ (pad 32 P.account.user ++
        pad 32 [])))).length := by simp only [List.length_append, length_be, length_pad]
    unfold openings
    rw [if_pos ⟨hret, rfl⟩, hopen, hbytes, hlen]
    rfl
  · simp only [List.length_append, length_be, length_pad]
    decide
  · simp only [Wire.message, vnsOpen, hread]
    rfl

theorem packetWire_carries {name : Bytes} (h : FitsField 15 name) {frame : Bytes} (hmax : frame.length ≤ 9976) :
    (packetWire name frame).Carries (.vnsPacket ⟨name, frame⟩) := by
  have hu := VNSPacket.unpack_pad name frame
  rw [stripNullChars_pad (h.mono (by decide))] at hu
  constructor
  · simp only [packetWire, List.length_append, length_pad]
    omega
  · simp only [Wire.message, packetWire, vnsPacket, hu]
    rfl

/-- Nothing but a request is answered by a reply. -/
theorem authReplies_other (ht : w.type ≠ vnsAuthRequest) (mem : Scratch) (past : Mem) {call : Call}
    (hdecoded : call.decoded = some (w.type, w.body)) : authReplies P mem past call sr = [] := by
  unfold authReplies
  rw [hdecoded]
  exact if_neg fun hn => ht hn.2

/-- Only behind the status something is opened. -/
theorem openings_other {phase : ClientPhase} (hp : phase ≠ .awaitStatus) (mem : Scratch) (call : Call) :
    openings P mem phase call sr = [] := if_neg fun hn => hp hn.2

/-- The session goes on where a call returns 1 and nothing has crashed. -/
theorem clientReads_eq {s : Session} (mem : Scratch) {sr' : SrInstance} {acts : List Act}
    (h : Accepts P n env expected w s.sr sr' acts) (hacts : acts.all (!·.isFault)) {replies opened : List Bytes}
    (hreplies : authReplies P mem env.past
      (srReadFromServerExpect (readEnv P n env) expected [.bytes w.bytes] s.sr).val s.sr = replies)
    (hopened : openings P mem s.phase
      (srReadFromServerExpect (readEnv P n env) expected [.bytes w.bytes] s.sr).val s.sr = opened) :
    clientReads P n env mem expected w.bytes s =
      ({ s with
          sr := sr'
          toServer := s.toServer ++ replies ++ opened ++ acts.filterMap (Act.message s.sr)
          phase := s.phase.next P.account.template }, acts) := by
  unfold clientReads
  simp only [hreplies, hopened, h.st, h.acts, h.ret, hacts]
  rw [if_pos (by simp)]

/-- The router answers the request, and waits for the status. -/
theorem clientReads_request {s : Session} (hP : P.Ready) (hsent : env.authSent = true) (mem : Scratch) {salt : Bytes}
    (hsalt : salt.length = 20) (hp : s.phase = .awaitRequest) :
    ∃ (reply : Wire) (m : VNSAuthReply), reply.Carries (.vnsAuthReply m) ∧
      clientReads P n env mem vnsAuthRequest (SRServerListener.handleNewClient salt).bytes s =
        ({ s with toServer := s.toServer ++ [reply.bytes], phase := .awaitStatus }, []) := by
  have haccepts := @accepts_request P n env s.sr _ hsalt hP.key hsent
  obtain ⟨line, hline⟩ := Option.isSome_iff_exists.1 hP.key
  obtain ⟨reply, m, hreply, hm⟩ := @authReplies_request P s.sr line salt hline hsalt mem env.past _ haccepts.ret
    haccepts.decoded
  refine ⟨reply, m, hm, ?_⟩
  rw [clientReads_eq mem haccepts rfl hreply (openings_other (by rw [hp]; decide) mem _), hp, List.filterMap_nil,
    List.append_nil, List.append_nil]
  rfl

/-- The router opens a topology, and goes to the loop of `main`. -/
theorem clientReads_granted {s : Session} (hP : P.Ready) (mem : Scratch) {msg : Bytes} (hmsg : msg.length ≤ 9991)
    (hp : s.phase = .awaitStatus) : ∃ (opening : Wire) (m : VNSOpen), opening.Carries (.vnsOpen m) ∧
      clientReads P n env mem vnsAuthStatus (granted msg).bytes s =
        ({ s with toServer := s.toServer ++ [opening.bytes], phase := .running }, []) := by
  have haccepts := @accepts_granted P n env s.sr _ hmsg
  obtain ⟨opening, m, hopening, hm⟩ := @openings_open P s.sr hP.template mem _ haccepts.ret
  rw [← hp] at hopening
  have hother : (granted msg).type ≠ vnsAuthRequest := (by decide : vnsAuthStatus ≠ vnsAuthRequest)
  refine ⟨opening, m, hm, ?_⟩
  rw [clientReads_eq mem haccepts rfl (authReplies_other hother mem env.past haccepts.decoded) hopening, hp, hP.template,
    List.filterMap_nil, List.append_nil, List.append_nil]
  rfl

/-- Other calls send what the router does. -/
theorem clientReads_running {s : Session} (mem : Scratch) (hp : s.phase = .running) (ht : w.type ≠ vnsAuthRequest)
    {sr' : SrInstance} {acts : List Act} (h : Accepts P n env expected w s.sr sr' acts)
    (hacts : acts.all (!·.isFault)) : clientReads P n env mem expected w.bytes s =
      ({ s with sr := sr', toServer := s.toServer ++ acts.filterMap (Act.message s.sr) }, acts) := by
  have hnot : s.phase ≠ .awaitStatus := by
    rw [hp]
    decide
  rw [clientReads_eq mem h hacts (authReplies_other ht mem env.past h.decoded) (openings_other hnot mem _), hp,
    List.append_nil, List.append_nil]
  rfl

end Calls

/-! ## What the router does -/

section Acts
variable {ifs : List SrIf} {acts : List Act}

theorem grounded_faultless (h : ∀ a ∈ acts, a.Grounded ifs) : acts.all (!·.isFault) = true := by
  rw [List.all_eq_true]
  intro a ha
  have hg := h a ha
  cases a with
  | fault why => exact hg.elim
  | _ => rfl

/-- Without an interface nothing is sent. -/
theorem grounded_silent (h : ∀ a ∈ acts, a.Grounded []) (sr : SrInstance) : acts.filterMap (Act.message sr) = [] := by
  rw [List.filterMap_eq_nil_iff]
  intro a ha
  have hg := h a ha
  cases a with
  | send site iface frame =>
    obtain ⟨-, i, hi⟩ := hg
    cases hi
  | _ => rfl

/-- What is sent is a packet that names an interface. -/
theorem grounded_message {sr : SrInstance} (h : ∀ a ∈ acts, a.Grounded ifs) {m : Bytes}
    (hm : m ∈ acts.filterMap (Act.message sr)) :
    ∃ i ∈ ifs, ∃ frame, m = (packetWire i.name.chars frame).bytes ∧ frame.length ≤ 9976 := by
  obtain ⟨a, ha, ham⟩ := List.mem_filterMap.1 hm
  have hg := h a ha
  cases a with
  | send site iface frame =>
    obtain ⟨hmax, i, hi⟩ := hg
    obtain ⟨hmem, rfl⟩ := srGetInterface_some hi
    rw [message_send sr site i.name (by omega)] at ham
    cases ham
    exact ⟨i, hmem, frame, rfl, hmax⟩
  | _ => cases ham

end Acts

end SimpleRouter
