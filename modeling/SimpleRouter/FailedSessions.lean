import SimpleRouter.SessionCalls
/-!
# Sessions that come to nothing

The server broadcasts to a client from its connection on, whether the client
expects packets or not. A frame that comes before the client is authenticated
ends the session (`early_packet_ends`), and so does one that comes before the
client has been told of the interface (`untold_packet_ends`). A client that asks
for a template is not answered at all (`template_never_runs`).
-/
open Memory CProg Runs Stream Struct

namespace SimpleRouter

section Reads
variable (P : Setup) (n : Nat) (env : ServerEnv) (mem : Scratch) (expected : UInt32) (m : Bytes) (s : Session)

/-- A call about `m` from outside: it gives up, or goes on to the next phase. -/
structure Reads (s' : Session) : Prop where
  toClient : s'.toClient = s.toClient
  sr : s'.sr = (srReadFromServerExpect (readEnv P n env) expected [.bytes m] s.sr).st
  phase : s'.phase = .ended ∨ s'.phase = s.phase.next P.account.template
  fails : (srReadFromServerExpect (readEnv P n env) expected [.bytes m] s.sr).val.ret ≠ some 1 → s'.phase = .ended

theorem clientReads_reads : Reads P n env expected m s (clientReads P n env mem expected m s).1 where
  toClient := by simp only [clientReads]
  sr := by simp only [clientReads]
  phase := by
    simp only [clientReads]
    split
    · exact .inr rfl
    · exact .inl rfl
  fails h := by
    simp only [clientReads]
    rw [if_neg fun hn => h hn.1]

variable {P n env expected s}

/-- The router gives up on a message of a type it does not expect. -/
theorem Reads.other {w : Wire} {s' : Session} (h : Reads P n env expected w.bytes s s') (hw : FromServer w)
    (hexp : expected ≠ 0) (ht : w.type ≠ expected) : s'.phase = .ended := h.fails (read_other s.sr hw.short hexp ht)

end Reads

/-! ## Packets for a router that is not authenticated -/

/-- The router is being authenticated, and before any status a packet is on its way to it; or it has given up. -/
inductive Doomed (s : Session) : Prop where
  | ended (hp : s.phase = .ended)
  | waiting {pre w post} (hp : s.phase = .awaitRequest ∨ s.phase = .awaitStatus) (hc : s.toClient = pre ++ w :: post)
      (hw : w.type = vnsPacket) (hpre : ∀ v ∈ pre, v.type ≠ vnsAuthStatus)

/-- What is sent behind it changes nothing. -/
theorem Doomed.behind {s s' : Session} (h : Doomed s) (hp : s'.phase = s.phase) {ws : List Wire}
    (hc : s'.toClient = s.toClient ++ ws) : Doomed s' := by
  cases h with
  | ended h => exact .ended (hp.trans h)
  | @waiting pre w post h hc' hw hpre =>
    refine @Doomed.waiting s' pre w (post ++ ws) (by rwa [hp]) ?_ hw hpre
    rw [hc, hc', List.append_assoc, List.cons_append]

theorem SessionStepsTo.doomed {P : Setup} (hlib : P.library.Frames) {n : Nat} {s s' : Session} {e : SessionEvent}
    {acts : List SessionAct} (hs : SessionStepsTo P n s e s' acts) (hok : ServerOk s) (h : Doomed s) : Doomed s' := by
  cases hs with
  | idle => exact h
  | connectionUp ports arrange => exact h.behind rfl (List.append_nil _).symm
  | connect hp =>
    rcases h with h | ⟨h | h, -⟩ <;> cases hp.symm.trans h
  | packetIn => exact h.behind rfl rfl
  | serve hs => exact h.behind rfl rfl
  | sweep hp =>
    rcases h with h | ⟨h | h, -⟩ <;> cases hp.symm.trans h
  | @read env mem expected v ws he hc =>
    have hv : FromServer v := hok.fromServer v (by rw [hc]; exact List.mem_cons_self)
    rw [hlib v hv.short]
    have hr := clientReads_reads P n env mem expected v.bytes { s with toClient := ws }
    generalize (clientReads P n env mem expected v.bytes { s with toClient := ws }).1 = s' at hr ⊢
    cases h with
    | ended h =>
      rw [h] at he
      cases he
    | @waiting pre w post h hc' hw hpre =>
      rw [hc] at hc'
      rcases h with h | h
      · rw [h] at he
        cases he
        cases pre with
        | nil =>
          obtain ⟨rfl, rfl⟩ := List.cons.inj hc'
          exact .ended (hr.other hv (by decide) (by rw [hw]; decide))
        | cons u pre =>
          obtain ⟨rfl, rfl⟩ := List.cons.inj hc'
          rcases hr.phase with hp | hp
          · exact .ended hp
          · refine .waiting (.inr ?_) hr.toClient hw fun u hu => hpre u (List.mem_cons_of_mem _ hu)
            exact hp.trans (congrArg (ClientPhase.next P.account.template) h)
      · -- the next message is not the status
        rw [h] at he
        cases he
        have hother : v.type ≠ vnsAuthStatus := by
          cases pre with
          | nil =>
            rw [(List.cons.inj hc').1, hw]
            decide
          | cons u pre =>
            rw [(List.cons.inj hc').1]
            exact hpre u List.mem_cons_self
        exact .ended (hr.other hv (by decide) hother)

/-- A frame that the switch hands over after the router has connected, but
before the server has sent its status, ends the session, whatever the order of
the other events: the router takes the packet for an answer and gives up. -/
theorem early_packet_ends (P : Setup) (hlib : P.library.Frames) (es : List SessionEvent) (port : Nat) (pkt : Packet)
    (fs : List SessionEvent) {name : Bytes} (hname : ((session P).state es).listener.portToIntfname.lookup port = some name)
    (hserving : ((session P).state es).serving = true)
    (hphase : ((session P).state es).phase = .awaitRequest ∨ ((session P).state es).phase = .awaitStatus)
    (hstatus : ∀ w ∈ ((session P).state es).toClient, w.type ≠ vnsAuthStatus) :
    ((session P).state (es ++ .packetIn port pkt :: fs)).phase ∈ [ClientPhase.awaitRequest, .awaitStatus, .ended] := by
  have hdoomed : Doomed ((session P).state (es ++ .packetIn port pkt :: fs)) := by
    induction fs using List.reverseRecOn with
    | nil =>
      rw [System.state_snoc]
      change Doomed (sessionStep P es.length ((session P).state es) (.packetIn port pkt)).1
      simp only [sessionStep, if_pos hserving, handleSRPacketIn_eq, hname]
      exact .waiting hphase rfl rfl hstatus
    | append_singleton fs f ih =>
      rw [← List.cons_append, ← List.append_assoc, System.state_snoc]
      exact (session_cases P _ _ f).doomed hlib (session_serverOk P _) ih
  rcases hdoomed with h | ⟨h | h, -⟩ <;> simp [h]

open Sample in
/-- The request for authentication is answered; then 10.0.0.5 asks for an address. -/
theorem early_packet_ends_arp :
    ((session setup).state ([switchUp, dialled, reads] ++ .packetIn 1 arpAsked :: [serves, reads])).phase ∈
      [ClientPhase.awaitRequest, .awaitStatus, .ended] :=
  @early_packet_ends setup library_documented.frames [switchUp, dialled, reads] 1 arpAsked [serves, reads] (ethName 1) (by decide +kernel)
    (by decide +kernel) (by decide +kernel) (by decide +kernel)

/-! ## Packets for interfaces that are not known -/

/-- The router's own state is well-formed in every session. -/
theorem SessionStepsTo.wf {P : Setup} {n : Nat} {s s' : Session} {e : SessionEvent} {acts : List SessionAct}
    (hs : SessionStepsTo P n s e s' acts) (hw : ClientWf P.routes n s.sr) : ClientWf P.routes (n + 1) s'.sr := by
  have hidle : ClientWf P.routes (n + 1) s.sr := ⟨hw.wf.mono, hw.counted⟩
  cases hs with
  | @read env mem expected w ws he hc =>
    rw [(clientReads_reads P n env mem expected (P.library.frame w) { s with toClient := ws }).sr]
    exact (serve_cases n (readEnv P n env) rfl expected [.bytes (P.library.frame w)]).wf hw
  | sweep hp => exact (@ClientStepsTo.routed n s.sr (.sweep _) trivial).wf hw
  | _ => exact hidle

theorem session_wf (P : Setup) (es : List SessionEvent) : ClientWf P.routes es.length ((session P).state es).sr := by
  refine (session P).induct (I := fun es s _ => ClientWf P.routes es.length s.sr) (client_reachable P.routes []) ?_ es
  intro es e hw
  rw [List.length_append]
  exact (session_cases P es.length _ e).wf hw

section Unknown
variable {P : Setup} {n : Nat} {env : ServerEnv} {expected : UInt32} {w : Wire} {sr : SrInstance}

/-- Only hardware information brings interfaces. -/
theorem read_interfaces (h : 8 + w.body.length ≤ 10000) (ht : w.type ≠ vnsHwinfo) (hw : ClientWf P.routes n sr) :
    (srReadFromServerExpect (readEnv P n env) expected [.bytes w.bytes] sr).st.ifList = sr.ifList := by
  obtain ⟨-, -, hst, -⟩ := read_wire h (readEnv P n env) expected sr
  rw [hst]
  unfold dispatchOn
  cases hd : (dispatch (readEnv P n env) expected w.type (.ofNat (8 + w.body.length)) (w.buf (readEnv P n env).past) sr).val with
  | frame packet interface =>
    obtain ⟨-, -, -, -, hst', -⟩ := dispatch_frame hd
    rw [hst']
    change (srHandlepacket (readEnv P n env).toEnv packet interface sr).st.ifList = sr.ifList
    rw [← stepRes_frame (n := n) sr rfl]
    exact ((step_cases hw.wf hw.counted _).wf hw.wf).ifList
  | _ =>
    rcases dispatch_cases (readEnv P n env) expected w.type (.ofNat (8 + w.body.length)) (w.buf (readEnv P n env).past) with
      ⟨-, hp⟩ | ⟨hh, -⟩ | ⟨v, hv⟩
    · rw [hp, (dispatchPacket_eq _ _ sr _).2.1]
      rfl
    · exact absurd hh ht
    · rw [hv.st]
      rfl

/-- Information about interfaces of other names brings none of this name. -/
theorem read_hardware {ifs : List VNSInterface} (hfits : ∀ i ∈ ifs, FitsField 31 i.name)
    (hsize : 8 + (hardwareWire ifs).body.length ≤ 10000) {name : IfName} (hname : name.chars ∉ ifs.map (·.name))
    (hi : srGetInterface sr.ifList name = none) : srGetInterface
      (srReadFromServerExpect (readEnv P n env) 0 [.bytes (hardwareWire ifs).bytes] sr).st.ifList name = none := by
  obtain ⟨added, hadded, hd⟩ := dispatchOn_hardware hfits hsize (readEnv P n env) sr
  obtain ⟨-, -, hst, -⟩ := read_wire hsize (readEnv P n env) 0 sr
  rw [hd.val, hd.st] at hst
  rw [hst]
  change (sr.ifList ++ added).find? _ = none
  rw [List.find?_append, show sr.ifList.find? _ = none from hi, Option.none_or, List.find?_eq_none]
  intro i him hin
  apply hname
  rw [← describes_names hadded]
  exact List.mem_map.2 ⟨i, him, congrArg IfName.chars (of_decide_eq_true hin)⟩

section UnknownPacket
variable {name : IfName} {frame : Bytes} (hname : name.chars.length ≤ 15) (hmin : 42 ≤ frame.length)
  (hmax : frame.length ≤ 9976) (hi : srGetInterface sr.ifList name = none)
include hname hmin hmax hi

/-- A packet for an interface that is not known, and long enough to be ARP, fails
an assertion where it is taken. -/
theorem read_asserts (hexp : expected = 0 ∨ expected = vnsPacket) :
    (srReadFromServerExpect (readEnv P n env) expected [.bytes (packetWire name.chars frame).bytes] sr).val.ret ≠ some 1 ∧
    (srReadFromServerExpect (readEnv P n env) expected [.bytes (packetWire name.chars frame).bytes] sr).acts =
      [.fault .assertion] := by
  have hholds := holdsName_pad hname
  have hsize : 8 + (packetWire name.chars frame).body.length ≤ 10000 := hholds.size_le hmax
  let c : Command := (packetWire name.chars frame).command hsize
  obtain ⟨-, hlen, hmem⟩ := @packet_lent c (pad 16 name.chars) name frame (readEnv P n env).past hholds rfl
  have hdispatch : dispatchOn (readEnv P n env) expected (packetWire name.chars frame) =
      dispatchPacket (readEnv P n env) c.len (c.buf (readEnv P n env).past) := dispatchOn_packet hexp _ _
  have hfilter : arpFilter sr.ifList name (packetOf (c.buf (readEnv P n env).past) c.len) = none := by
    have h42 : ¬ (packetOf (c.buf (readEnv P n env).past) c.len).size < ethLen + arpLen := by
      rw [hlen]
      exact Nat.not_lt.2 hmin
    rw [arpFilter, if_neg h42, hi]
  obtain ⟨hval, -, hacts⟩ := dispatchPacket_eq (c.buf (readEnv P n env).past) c.len sr (readEnv P n env)
  rw [hmem, hfilter] at hval hacts
  obtain ⟨hret, -, -, hacts'⟩ := read_wire hsize (readEnv P n env) expected sr
  rw [hdispatch, hval] at hret hacts'
  rw [hret, hacts', hacts]
  refine ⟨?_, rfl⟩
  intro h
  cases h

/-- Elsewhere it is not what is expected. -/
theorem read_unknown :
    (srReadFromServerExpect (readEnv P n env) expected [.bytes (packetWire name.chars frame).bytes] sr).val.ret ≠ some 1 := by
  have hsize : 8 + (packetWire name.chars frame).body.length ≤ 10000 := (holdsName_pad hname).size_le hmax
  by_cases hexp : expected = 0 ∨ expected = vnsPacket
  · exact (read_asserts hname hmin hmax hi hexp).1
  · exact read_other sr (by omega) (fun h => hexp (.inl h)) fun h => hexp (.inr h.symm)

end UnknownPacket

end Unknown

/-- None of the messages tells of an interface of that name. -/
def SilentOn (name : IfName) (ws : List Wire) : Prop :=
  ∀ ifs : List VNSInterface, (∀ i ∈ ifs, FitsField 31 i.name) → hardwareWire ifs ∈ ws → name.chars ∉ ifs.map (·.name)

/-- The packet is on its way to a router that does not know the interface, and
nothing before it tells of that; or the router has given up. -/
inductive Untold (name : IfName) (frame : Bytes) (s : Session) : Prop where
  | ended (hp : s.phase = .ended)
  | waiting {pre post} (hc : s.toClient = pre ++ packetWire name.chars frame :: post) (hpre : SilentOn name pre)
      (hi : srGetInterface s.sr.ifList name = none)

theorem Untold.behind {name : IfName} {frame : Bytes} {s s' : Session} (h : Untold name frame s) (hp : s'.phase = s.phase)
    (hi : s'.sr.ifList = s.sr.ifList) {ws : List Wire} (hc : s'.toClient = s.toClient ++ ws) : Untold name frame s' := by
  cases h with
  | ended h => exact .ended (hp.trans h)
  | @waiting pre post hc' hpre hi' =>
    refine @Untold.waiting name frame s' pre (post ++ ws) ?_ hpre (hi ▸ hi')
    rw [hc, hc', List.append_assoc, List.cons_append]

/-- Where a message is expected at all, information about interfaces ends it. -/
theorem expects_hwinfo {phase : ClientPhase} {expected : UInt32} (he : phase.expects = some expected) (h0 : expected ≠ 0) :
    vnsHwinfo ≠ expected := by
  cases phase with
  | running => cases he; exact absurd rfl h0
  | offline => cases he
  | ended => cases he
  | awaitRequest => cases he; decide
  | awaitStatus => cases he; decide
  | awaitRtable => cases he; decide

theorem SessionStepsTo.untold {P : Setup} (hlib : P.library.Frames) {n : Nat} {s s' : Session} {e : SessionEvent}
    {acts : List SessionAct} (hs : SessionStepsTo P n s e s' acts) (hok : ServerOk s) (hw : ClientWf P.routes n s.sr)
    {name : IfName} {frame : Bytes} (hname : name.chars.length ≤ 15) (hmin : 42 ≤ frame.length) (hmax : frame.length ≤ 9976) (h : Untold name frame s) :
    Untold name frame s' := by
  cases hs with
  | idle => exact h
  | connectionUp ports arrange => exact h.behind rfl rfl (List.append_nil _).symm
  | @connect salt hp =>
    cases h with
    | ended h => cases hp.symm.trans h
    | @waiting pre post hc hpre hi =>
      refine @Untold.waiting name frame _ pre (post ++ [SRServerListener.handleNewClient salt]) ?_ hpre hi
      rw [hc, List.append_assoc, List.cons_append]
  | packetIn => exact h.behind rfl rfl rfl
  | serve hs => exact h.behind rfl rfl rfl
  | @sweep env hp =>
    cases h with
    | ended h => cases hp.symm.trans h
    | @waiting pre post hc hpre hi =>
      have hifs : (srArpcacheTimeout env s.sr).st.ifList = s.sr.ifList :=
        ((step_cases hw.wf hw.counted (.sweep env)).wf hw.wf).ifList
      refine .waiting hc hpre ?_
      change srGetInterface (srArpcacheTimeout env s.sr).st.ifList name = none
      rw [hifs]
      exact hi
  | @read env mem expected v ws he hc =>
    have hv : FromServer v := hok.fromServer v (by rw [hc]; exact List.mem_cons_self)
    rw [hlib v hv.short]
    have hr := clientReads_reads P n env mem expected v.bytes { s with toClient := ws }
    generalize (clientReads P n env mem expected v.bytes { s with toClient := ws }).1 = s' at hr ⊢
    cases h with
    | ended h =>
      rw [h] at he
      cases he
    | @waiting pre post hc' hpre hi =>
      rw [hc] at hc'
      cases pre with
      | nil =>
        obtain ⟨rfl, rfl⟩ := List.cons.inj hc'
        exact .ended (hr.fails (read_unknown hname hmin hmax hi))
      | cons u pre =>
        obtain ⟨rfl, rfl⟩ := List.cons.inj hc'
        have hrest : SilentOn name pre := fun ifs hfits hmem => hpre ifs hfits (List.mem_cons_of_mem _ hmem)
        by_cases hlong : 10000 < 8 + v.body.length
        · refine .ended (hr.fails ?_)
          rw [read_long s.sr hlong hv.short]
          decide
        by_cases ht : v.type = vnsHwinfo
        · obtain ⟨ifs, rfl, hlen, hfits⟩ := hv.hardware ht
          have hfits' : ∀ i ∈ ifs, FitsField 31 i.name := fun i him => (hfits i him).mono (by decide)
          by_cases h0 : expected = 0
          · -- the interfaces it tells of have other names
            subst h0
            refine .waiting hr.toClient hrest ?_
            rw [hr.sr]
            exact read_hardware hfits' (Nat.le_of_not_lt hlong) (hpre ifs hfits' List.mem_cons_self) hi
          · exact .ended (hr.other hv h0 (expects_hwinfo he h0))
        · refine .waiting hr.toClient hrest ?_
          rw [hr.sr, read_interfaces (Nat.le_of_not_lt hlong) ht hw]
          exact hi

/-- A frame of 42 to 9976 bytes for an interface that the router does not know,
and that nothing on its way to it tells of, ends the session once the router takes
it: in its loop an assertion of `sr_arp_req_not_for_us` fails, and before that the
frame is taken for a wrong answer. -/
theorem untold_packet_ends (P : Setup) (hlib : P.library.Frames) (es : List SessionEvent) (port : Nat) {pkt : Packet}
    (hmin : 42 ≤ pkt.1.length) (hmax : pkt.1.length ≤ 9976) {name : IfName}
    (hname : ((session P).state es).listener.portToIntfname.lookup port = some name.chars)
    (hserving : ((session P).state es).serving = true) (htold : ¬ ((session P).state es).Told name.chars)
    (fs : List SessionEvent) :
    ((session P).state (es ++ .packetIn port pkt :: fs)).phase = .ended ∨
      packetWire name.chars pkt ∈ ((session P).state (es ++ .packetIn port pkt :: fs)).toClient ∧
      ∀ env mem ws, ((session P).state (es ++ .packetIn port pkt :: fs)).phase = .running →
        ((session P).state (es ++ .packetIn port pkt :: fs)).toClient = packetWire name.chars pkt :: ws →
        (session P).actsAt (es ++ .packetIn port pkt :: fs) (.read env mem) = [.router (.fault .assertion)] := by
  have hshort : name.chars.length ≤ 15 := by
    have hok := session_serverOk P es
    have hall : ∀ name ∈ [ethName 3, ethName 2, ethName 1], name.length ≤ 15 := by decide
    exact hall _ (hok.within.name _ (hok.consistent.port _ _ hname))
  have huntold : Untold name pkt ((session P).state (es ++ .packetIn port pkt :: fs)) := by
    induction fs using List.reverseRecOn with
    | nil =>
      rw [System.state_snoc]
      change Untold name pkt (sessionStep P es.length ((session P).state es) (.packetIn port pkt)).1
      simp only [sessionStep, if_pos hserving, handleSRPacketIn_eq, hname]
      refine .waiting rfl (fun ifs hfits hmem hn => htold (.inr ⟨ifs, hfits, hmem, hn⟩)) ?_
      rw [Option.eq_none_iff_forall_ne_some]
      intro i hi
      obtain ⟨hmem, rfl⟩ := srGetInterface_some hi
      exact htold (.inl (List.mem_map_of_mem hmem))
    | append_singleton fs f ih =>
      rw [← List.cons_append, ← List.append_assoc, System.state_snoc]
      exact (session_cases P _ _ f).untold hlib (session_serverOk P _) (session_wf P _) hshort hmin hmax ih
  cases huntold with
  | ended h => exact .inl h
  | waiting hc _ hi =>
    refine .inr ⟨by rw [hc]; simp, ?_⟩
    intro env mem ws hp hhead
    have hframe : P.library.frame (packetWire name.chars pkt) = (packetWire name.chars pkt).bytes :=
      hlib _ (by simp only [packetWire, List.length_append, length_pad]; omega)
    have hexp : ((session P).state (es ++ .packetIn port pkt :: fs)).phase.expects = some 0 := by rw [hp]; rfl
    change (sessionStep P _ ((session P).state (es ++ .packetIn port pkt :: fs)) (.read env mem)).2 = _
    simp only [sessionStep, hexp, hhead, hframe, clientReads]
    rw [(read_asserts hshort hmin hmax hi (.inl rfl)).2]
    rfl

open Sample in
/-- The router is authenticated, but the server has not taken what it sends next. -/
theorem untold_packet_ends_arp :
    ((session setup).state ([switchUp, dialled, reads, serves, reads] ++ .packetIn 1 arpAsked :: [reads])).phase = .ended ∧
    packetWire (ethName 1) arpAsked ∉
      ((session setup).state ([switchUp, dialled, reads, serves, reads] ++ .packetIn 1 arpAsked :: [reads])).toClient := by
  have hempty : ((session setup).state ([switchUp, dialled, reads, serves, reads] ++
      .packetIn 1 arpAsked :: [reads])).toClient = [] := by decide +kernel
  have hsilent : ((session setup).state [switchUp, dialled, reads, serves, reads]).toClient = [] := by decide +kernel
  have hunwired : ((session setup).state [switchUp, dialled, reads, serves, reads]).sr.ifList = [] := by decide +kernel
  have hends := @untold_packet_ends setup library_documented.frames [switchUp, dialled, reads, serves, reads] 1 arpAsked
    (by decide) (by decide) ⟨ethName 1, by decide, by decide⟩ (by decide +kernel) (by decide +kernel)
    (by rintro (hn | ⟨ifs, -, hmem, -⟩)
        · rw [hunwired] at hn
          cases hn
        · rw [hsilent] at hmem
          cases hmem) [reads]
  rw [hempty] at hends ⊢
  exact ⟨hends.resolve_right fun h => List.not_mem_nil h.1, List.not_mem_nil⟩

/-! ## Templates -/

theorem SessionStepsTo.never_runs {P : Setup} (hlib : P.library.Frames) (ht : P.account.template ≠ []) {n : Nat}
    {s s' : Session} {e : SessionEvent} {acts : List SessionAct} (hs : SessionStepsTo P n s e s' acts) (hok : ServerOk s) (h : s.phase ≠ .running) :
    s'.phase ≠ .running := by
  cases hs with
  | idle => exact h
  | connectionUp ports arrange => exact h
  | connect hp => exact nofun
  | packetIn => exact h
  | serve hs => exact h
  | sweep hp => exact absurd hp h
  | @read env mem expected w ws he hc =>
    have hw : FromServer w := hok.fromServer w (by rw [hc]; exact List.mem_cons_self)
    rw [hlib w hw.short]
    have hr := clientReads_reads P n env mem expected w.bytes { s with toClient := ws }
    generalize (clientReads P n env mem expected w.bytes { s with toClient := ws }).1 = s' at hr ⊢
    by_cases hp : s.phase = .awaitRtable
    · -- no message of the server is a routing table
      rw [hp] at he
      cases he
      have hother : w.type ≠ vnsRtable := by
        intro htype
        have hmem := hw.type
        rw [htype] at hmem
        revert hmem
        decide
      rw [hr.other hw (by decide) hother]
      decide
    · rcases hr.phase with hp' | hp'
      · rw [hp']
        decide
      · have hpos : P.account.template.length > 0 := List.length_pos_iff.2 ht
        rw [hp']
        change s.phase.next P.account.template ≠ .running
        cases hphase : s.phase with
        | awaitStatus =>
          rw [ClientPhase.next, if_pos hpos]
          decide
        | awaitRtable => exact absurd hphase hp
        | running => exact absurd hphase h
        | _ => exact nofun

/-- A router that asks for a template never comes to the loop of `main`, however
its messages are taken apart: the server knows the request, but no handler of it,
and sends no routing table. -/
theorem template_never_runs {P : Setup} (hlib : P.library.Frames) (ht : P.account.template ≠ []) (es : List SessionEvent) :
    ((session P).state es).phase ≠ .running := by
  refine (session P).induct (I := fun _ s _ => s.phase ≠ .running) ?_ ?_ es
  · change ClientPhase.offline ≠ .running
    decide
  · intro es e ih
    exact (session_cases P es.length _ e).never_runs hlib ht (session_serverOk P es) ih

namespace Sample

/-- The same account, which asks for the template `t`. -/
def templated : Setup := { setup with account := { account with template := [116], template_fits := by decide } }

end Sample

open Sample in
theorem template_never_runs_templated :
    ((session templated).state [switchUp, dialled, reads, serves, reads, serves, reads]).phase ≠ .running :=
  @template_never_runs templated library_documented.frames (by decide) [switchUp, dialled, reads, serves, reads, serves, reads]

end SimpleRouter
