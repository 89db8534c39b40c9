import SimpleRouter.SessionCalls
/-!
# Sessions that go on

If no frame comes from a port whose name the router has not been told of, a
session never ends by itself: the router never exits or crashes, the server
raises nothing and says no goodbye, and neither waits for the other while the
other waits for it (`session_goes_on`). Frames from the router leave the switch
as they were sent and in that order, none lost and none twice (`frames_in_order`).
`Session.Stage` is the invariant: how far the two have come, with just the messages that
are on their way then.
-/
open Memory CProg Runs Stream Struct

namespace SimpleRouter

/-! ## Sessions to speak of -/

/-- A frame comes from a port whose name the router is told of, and is no longer
than a command; interfaces are told of that include those of the routes; and the
router's answers are sent. -/
def Fair (P : Setup) (s : Session) : SessionEvent → Prop
  | .packetIn port pkt => s.serving = true → ∀ name, s.listener.portToIntfname.lookup port = some name →
      s.Told name ∧ pkt.1.length ≤ 9976
  | .serve _ => ∀ m ms o ifs, s.toServer = m :: ms → P.library.received m = some (.vnsOpen o) →
      s.listener.interfaces = some ifs → Covers ifs P.routes
  | .read env _ => env.authSent = true
  | _ => True

/-- Nobody fails. -/
def SessionAct.Fine : SessionAct → Prop
  | .server r => r ≠ .goodbye ∧ r ≠ .raised
  | .router a => a.isFault = false

/-- A frame that the router sends: the name of the interface, and the frame. -/
def SessionAct.sent : SessionAct → Option (Bytes × Bytes)
  | .router (.send _ iface frame) => some (iface.chars, frame)
  | _ => none

/-- A frame that leaves the switch, by the name of its port. -/
def SessionAct.putOut : SessionAct → Option (Bytes × Bytes)
  | .server (.packetOut intf frame _) => some (intf, frame)
  | _ => none

/-- The frame that the server finds in a message to it. -/
def Library.carried (lib : Library) (m : Bytes) : Option (Bytes × Bytes) :=
  match lib.received m with
  | some (.vnsPacket p) => some (p.intfName, p.ethernetFrame)
  | _ => none

/-! ## Stages -/

/-- A packet for an interface of one of the names. -/
def PacketFor (names : List Bytes) (w : Wire) : Prop :=
  ∃ name ∈ names, ∃ frame, w = packetWire name frame ∧ frame.length ≤ 9976

/-- A packet to the server for a name that has a port. -/
def PacketTo (l : SRServerListener) (m : Bytes) : Prop :=
  ∃ name frame, m = (packetWire name frame).bytes ∧ frame.length ≤ 9976 ∧ l.Names name

/-- How far a session has come, and what is on its way. -/
inductive Session.Stage (s : Session) : Prop where
  | offline (hp : s.phase = .offline) (hc : s.toClient = []) (hs : s.toServer = []) (hi : s.sr.ifList = [])
  | asked {salt} (hp : s.phase = .awaitRequest) (hc : s.toClient = [SRServerListener.handleNewClient salt])
      (hs : s.toServer = []) (hi : s.sr.ifList = []) (hsalt : salt.length = 20)
  | answered {w : Wire} {m} (hp : s.phase = .awaitStatus) (hc : s.toClient = []) (hs : s.toServer = [w.bytes])
      (hi : s.sr.ifList = []) (hw : w.Carries (.vnsAuthReply m))
  | accepted {msg} (hp : s.phase = .awaitStatus) (hc : s.toClient = [granted msg]) (hs : s.toServer = [])
      (hi : s.sr.ifList = []) (hmsg : msg.length ≤ 9991)
  | opening {w : Wire} {m} (hp : s.phase = .running) (hc : s.toClient = []) (hs : s.toServer = [w.bytes]) (hi : s.sr.ifList = [])
      (hw : w.Carries (.vnsOpen m))
  | told {ifs ws} (hp : s.phase = .running) (hc : s.toClient = hardwareWire ifs :: ws) (hs : s.toServer = [])
      (hi : s.sr.ifList = []) (hnames : ∀ i ∈ ifs, s.listener.Names i.name) (hlen : ifs.length ≤ 3)
      (hcover : Covers ifs s.sr.routingTable) (hws : ∀ w ∈ ws, PacketFor (ifs.map (·.name)) w)
  | wired (hp : s.phase = .running) (hc : ∀ w ∈ s.toClient, PacketFor (s.sr.ifList.map (·.name.chars)) w)
      (hs : ∀ m ∈ s.toServer, PacketTo s.listener m)

/-- What holds of a session that goes on, after `n` events. -/
structure Going (P : Setup) (n : Nat) (s : Session) : Prop where
  server : ServerOk s
  router : RouterOk P.routes n s.sr
  serving : s.phase ≠ .offline → s.serving = true
  names : ∀ i ∈ s.sr.ifList, s.listener.Names i.name.chars
  stage : s.Stage

/-- Nothing that the router has sent is lost, and nothing else leaves the switch. -/
def Conserves (P : Setup) (s s' : Session) (acts : List SessionAct) : Prop :=
  s.toServer.filterMap P.library.carried ++ acts.filterMap SessionAct.sent =
    acts.filterMap SessionAct.putOut ++ s'.toServer.filterMap P.library.carried

/-- What a step of such a session leads to and does. -/
structure GoesOn (P : Setup) (n : Nat) (s s' : Session) (acts : List SessionAct) : Prop where
  going : Going P (n + 1) s'
  fine : ∀ a ∈ acts, a.Fine
  conserves : Conserves P s s' acts

/-! ## Names -/

/-- The name in the records of an interface. -/
theorem records_name {i : VNSInterface} (h : FitsField 31 i.name) (rest : Bytes) :
    stripNullChars (((i.records.flatten ++ rest).drop 4).take 32) = i.name := by
  have hsplit : i.records.flatten ++ rest = be 4 1 ++ (pad 32 i.name ++ (i.records.tail.flatten ++ rest)) := by
    simp only [VNSInterface.records, VNSInterface.record, List.flatten_cons, List.tail_cons, List.append_assoc]
  rw [hsplit, List.drop_left' (length_be _ _), List.take_left' (length_pad _ _)]
  exact stripNullChars_pad ⟨h.1, by have := h.2; omega⟩

theorem length_records (i : VNSInterface) : i.records.flatten.length = 216 :=
  length_flatten_records fun r hr => records_size [i] r (by simpa using hr)

/-- Messages about interfaces of different names are different. -/
theorem hardwareWire_names {ifs ifs' : List VNSInterface} (h : ∀ i ∈ ifs, FitsField 31 i.name)
    (h' : ∀ i ∈ ifs', FitsField 31 i.name) (he : hardwareWire ifs = hardwareWire ifs') :
    ifs.map (·.name) = ifs'.map (·.name) := by
  have hbody := congrArg Wire.body he
  simp only [hardwareWire] at hbody
  clear he
  induction ifs generalizing ifs' with
  | nil =>
    have hlen := congrArg List.length hbody
    rw [length_flatten_records (records_size ifs'), records_length] at hlen
    simp only [List.flatMap_nil, List.flatten_nil, List.length_nil] at hlen
    rw [List.eq_nil_of_length_eq_zero (show ifs'.length = 0 by omega)]
  | cons i ifs ih =>
    cases ifs' with
    | nil =>
      have hlen := congrArg List.length hbody
      rw [length_flatten_records (records_size (i :: ifs)), records_length] at hlen
      simp only [List.flatMap_nil, List.flatten_nil, List.length_nil, List.length_cons] at hlen
      omega
    | cons i' ifs' =>
      rw [List.flatMap_cons, List.flatMap_cons, List.flatten_append, List.flatten_append] at hbody
      have hname := records_name (h i List.mem_cons_self) (ifs.flatMap VNSInterface.records).flatten
      rw [hbody, records_name (h' i' List.mem_cons_self)] at hname
      have hrest := List.append_inj_right hbody (by rw [length_records, length_records])
      rw [List.map_cons, List.map_cons, hname, ih (fun j hj => h j (List.mem_cons_of_mem _ hj))
        (fun j hj => h' j (List.mem_cons_of_mem _ hj)) hrest]

/-! ## What a step keeps -/

theorem PacketFor.type {names : List Bytes} {w : Wire} (h : PacketFor names w) : w.type = vnsPacket := by
  obtain ⟨name, -, frame, rfl, -⟩ := h
  rfl

/-- Without interfaces, and without hardware information on its way, the router is told of no name. -/
theorem not_told {s : Session} (hi : s.sr.ifList = []) (hc : ∀ w ∈ s.toClient, w.type ≠ vnsHwinfo) (name : Bytes) :
    ¬ s.Told name := by
  rintro (hn | ⟨ifs, -, hw, -⟩)
  · rw [hi] at hn
    cases hn
  · exact hc _ hw rfl

section Keeps
variable {P : Setup} {n : Nat} {s : Session}

theorem conserves_same {s' : Session} (h : s'.toServer = s.toServer) : Conserves P s s' [] := by
  rw [Conserves, h]
  exact List.append_nil _

/-- Nothing happens. -/
theorem Going.idle (h : Going P n s) : Going P (n + 1) s := ⟨h.server, h.router.mono, h.serving, h.names, h.stage⟩

/-- The server forgets no name. -/
theorem Session.Stage.listener (h : s.Stage) {l : SRServerListener} (hl : ∀ name, s.listener.Names name → l.Names name) :
    Session.Stage { s with listener := l } := by
  cases h with
  | offline hp hc hs hi => exact .offline hp hc hs hi
  | asked hp hc hs hi hsalt => exact .asked hp hc hs hi hsalt
  | answered hp hc hs hi hw => exact .answered hp hc hs hi hw
  | accepted hp hc hs hi hmsg => exact .accepted hp hc hs hi hmsg
  | opening hp hc hs hi hw => exact .opening hp hc hs hi hw
  | told hp hc hs hi hnames hlen hcover hws => exact .told hp hc hs hi (fun i him => hl _ (hnames i him)) hlen hcover hws
  | wired hp hc hs =>
    refine .wired hp hc fun m hm => ?_
    obtain ⟨name, frame, he, hmax, hn⟩ := hs m hm
    exact ⟨name, frame, he, hmax, hl name hn⟩

theorem Going.connectionUp (h : Going P n s) (ports : List OfPort)
    (arrange : ∀ keys : List Bytes, {l : List Bytes // l.Perm keys}) :
    Going P (n + 1) { s with listener := s.listener.handleRouterInfo (routerInfo P ports arrange) } := by
  have hkept := (s.listener.handleRouterInfo_consistent h.server.consistent (routerInfo P ports arrange)).2
  exact ⟨h.server.names, h.idle.router, h.serving, fun i hi => hkept _ (h.names i hi), h.stage.listener hkept⟩

theorem Going.connect (h : Going P n s) (salt : {bs : Bytes // bs.length = 20}) (hp : s.phase = .offline) :
    Going P (n + 1)
      { s with
        phase := .awaitRequest
        serving := true
        toClient := s.toClient ++ [SRServerListener.handleNewClient salt] } := by
  refine ⟨(SessionStepsTo.connect (P := P) (n := n) hp).serverOk h.server, h.idle.router, fun _ => rfl, h.names, ?_⟩
  cases h.stage with
  | offline _ hc hs hi => exact .asked rfl (by rw [hc]; rfl) hs hi salt.2
  | asked hp' => cases hp.symm.trans hp'
  | answered hp' => cases hp.symm.trans hp'
  | accepted hp' => cases hp.symm.trans hp'
  | opening hp' => cases hp.symm.trans hp'
  | told hp' => cases hp.symm.trans hp'
  | wired hp' => cases hp.symm.trans hp'

/-- A packet for a name that the router is told of comes behind what tells of it. -/
theorem Session.Stage.packet (h : s.Stage) (hok : ServerOk s) {name frame : Bytes} (ht : s.Told name)
    (hmax : frame.length ≤ 9976) : Session.Stage { s with toClient := s.toClient ++ [packetWire name frame] } := by
  cases h with
  | offline hp hc hs hi => exact absurd ht (not_told hi (by simp [hc]) name)
  | asked hp hc hs hi => exact absurd ht (not_told hi (by rw [hc]; simp [SRServerListener.handleNewClient, vnsHwinfo]) name)
  | answered hp hc hs hi => exact absurd ht (not_told hi (by simp [hc]) name)
  | accepted hp hc hs hi => exact absurd ht (not_told hi (by rw [hc]; simp [granted, vnsAuthStatus, vnsHwinfo]) name)
  | opening hp hc hs hi => exact absurd ht (not_told hi (by simp [hc]) name)
  | @told ifs ws hp hc hs hi hnames hlen hcover hws =>
    have hname : name ∈ ifs.map (·.name) := by
      rcases ht with hn | ⟨ifs', hfits', hw, hn⟩
      · rw [hi] at hn
        cases hn
      · rw [hc] at hw
        rcases List.mem_cons.1 hw with he | hw
        · have hfits : ∀ i ∈ ifs, FitsField 31 i.name := fun i him => (hok.fits (hnames i him)).mono (by decide)
          rwa [hardwareWire_names hfits' hfits he] at hn
        · cases (hws _ hw).type
    refine .told hp (by rw [hc]; rfl) hs hi hnames hlen hcover ?_
    intro w hw
    rcases List.mem_append.1 hw with hw | hw
    · exact hws w hw
    · exact ⟨name, hname, frame, List.mem_singleton.1 hw, hmax⟩
  | wired hp hc hs =>
    have hname : name ∈ s.sr.ifList.map (·.name.chars) := by
      rcases ht with hn | ⟨ifs', -, hw, -⟩
      · exact hn
      · cases (hc _ hw).type
    refine .wired hp ?_ hs
    intro w hw
    rcases List.mem_append.1 hw with hw | hw
    · exact hc w hw
    · exact ⟨name, hname, frame, List.mem_singleton.1 hw, hmax⟩

theorem Going.packetIn (h : Going P n s) (port : Nat) (pkt : Packet)
    (hfair : ∀ name, s.listener.portToIntfname.lookup port = some name → s.Told name ∧ pkt.1.length ≤ 9976) :
    Going P (n + 1) { s with toClient := s.toClient ++ (s.listener.handleSRPacketIn port pkt).toList } := by
  refine ⟨h.server.packet port pkt, h.idle.router, h.serving, h.names, ?_⟩
  rw [handleSRPacketIn_eq]
  cases hl : s.listener.portToIntfname.lookup port with
  | none =>
    rw [Option.map_none, Option.toList_none, List.append_nil]
    exact h.stage
  | some name =>
    obtain ⟨ht, hmax⟩ := hfair name hl
    exact h.stage.packet h.server ht hmax

/-! ### The server takes a message -/

theorem serverTakes_eq (hlib : P.library.Documented) {msg m : Bytes} {rs : List Reaction}
    (hr : s.listener.handleRecvMsg msg (P.library.received m) = rs) (hfine : ∀ r ∈ rs, r ≠ .goodbye ∧ r ≠ .raised) :
    serverTakes P msg m s = ({ s with toClient := s.toClient ++ rs.filterMap Reaction.wire, serving := true }, rs) := by
  have hkept : (rs.all fun r => !P.library.drops r) = true := by
    rw [List.all_eq_true]
    intro r hrm
    rw [hlib.keeps r (hfine r hrm).1 (hfine r hrm).2]
    rfl
  simp only [serverTakes, hr, hkept]

theorem handles_authReply (l : SRServerListener) (msg : Bytes) (m : VNSAuthReply) :
    l.handleRecvMsg msg (some (.vnsAuthReply m)) = [.send (granted msg)] := rfl

theorem handles_open (l : SRServerListener) (msg : Bytes) (m : VNSOpen) :
    l.handleRecvMsg msg (some (.vnsOpen m)) = (l.interfaces.map fun ifs => .send (hardwareWire ifs)).toList := by
  simp only [SRServerListener.handleRecvMsg, SRServerListener.handleOpenMsg]
  cases l.interfaces with
  | none => rfl
  | some ifs =>
    rw [Option.bind_some, packHardwareInfo_eq]
    rfl

theorem handles_packet {l : SRServerListener} {m : VNSPacket} (hn : l.Names m.intfName) (msg : Bytes) :
    ∃ port, l.handleRecvMsg msg (some (.vnsPacket m)) = [.packetOut m.intfName m.ethernetFrame port] := by
  obtain ⟨port, hport⟩ := Option.isSome_iff_exists.1 (AList.lookup_isSome.2 hn)
  refine ⟨port, ?_⟩
  simp only [SRServerListener.handleRecvMsg, SRServerListener.handlePacketMsg, hport]

/-- Nothing is put out for a message that is no packet. -/
theorem Conserves.silent {s' : Session} {m : Bytes} {ms : List Bytes} {rs : List Reaction} (hs : s.toServer = m :: ms)
    (hm : P.library.carried m = none) (hrs : rs.filterMap (SessionAct.putOut ∘ .server) = []) (hs' : s'.toServer = ms) :
    Conserves P s s' (rs.map .server) := by
  have hsent : (rs.map SessionAct.server).filterMap SessionAct.sent = [] := by
    rw [List.filterMap_map, List.filterMap_eq_nil_iff]
    exact fun _ _ => rfl
  rw [Conserves, hs, hs', List.filterMap_cons_none hm, hsent, List.filterMap_map, hrs, List.append_nil, List.nil_append]

/-- What a message carries is received. -/
theorem Wire.Carries.received {w : Wire} {m : VNSMessage} (h : w.Carries m) (hlib : P.library.Documented) :
    P.library.received w.bytes = some m := hlib.unpacks w m h.short h.message

/-- A packet comes with its name and its frame. -/
theorem carried_packet (hlib : P.library.Documented) {name frame : Bytes} (hn : FitsField 15 name)
    (hmax : frame.length ≤ 9976) : P.library.carried (packetWire name frame).bytes = some (name, frame) := by
  rw [Library.carried, (packetWire_carries hn hmax).received hlib]

theorem Going.serve (h : Going P n s) (hlib : P.library.Documented) (conn : {bs : Bytes // bs.length ≤ 9991}) {m : Bytes}
    {ms : List Bytes} (hs : s.toServer = m :: ms) (hserving : s.serving = true)
    (hfair : ∀ o ifs, P.library.received m = some (.vnsOpen o) → s.listener.interfaces = some ifs → Covers ifs P.routes) :
    GoesOn P n s (serverTakes P conn m { s with toServer := ms }).1
      ((serverTakes P conn m { s with toServer := ms }).2.map .server) := by
  have hok := (@SessionStepsTo.serve P n s conn m ms hs hserving).serverOk h.server
  have hrouter := h.idle.router
  cases h.stage with
  | offline _ _ hs' => cases hs.symm.trans hs'
  | asked _ _ hs' => cases hs.symm.trans hs'
  | accepted _ _ hs' => cases hs.symm.trans hs'
  | told _ _ hs' => cases hs.symm.trans hs'
  | answered hp hc hs' hi hw =>
    obtain ⟨rfl, rfl⟩ := List.cons.inj (hs.symm.trans hs')
    have hm := hw.received hlib
    rw [serverTakes_eq (s := { s with toServer := [] }) hlib ((congrArg _ hm).trans (handles_authReply _ _ _))
      (by simp)] at hok ⊢
    refine ⟨⟨hok, hrouter, fun _ => rfl, h.names, .accepted hp (by rw [hc]; rfl) rfl hi conn.2⟩, ?_, ?_⟩
    · intro a ha
      rw [List.mem_singleton.1 ha]
      exact ⟨nofun, nofun⟩
    · exact Conserves.silent hs (by rw [Library.carried, hm]) rfl rfl
  | @opening w o hp hc hs' hi hw =>
    obtain ⟨rfl, rfl⟩ := List.cons.inj (hs.symm.trans hs')
    have hm := hw.received hlib
    rw [serverTakes_eq (s := { s with toServer := [] }) hlib ((congrArg _ hm).trans (handles_open _ _ _))
      (by simp)] at hok ⊢
    have hsilent : P.library.carried w.bytes = none := by rw [Library.carried, hm]
    cases hifs : s.listener.interfaces with
    | none =>
      rw [hifs] at hok
      refine ⟨⟨hok, hrouter, fun _ => rfl, h.names, ?_⟩, fun a ha => absurd ha List.not_mem_nil, ?_⟩
      · exact .wired hp (by simp [hc]) fun w hw => absurd hw List.not_mem_nil
      · exact Conserves.silent hs hsilent rfl rfl
    | some ifs =>
      rw [hifs] at hok
      refine ⟨⟨hok, hrouter, fun _ => rfl, h.names, ?_⟩, ?_, ?_⟩
      · refine .told hp (by rw [hc]; rfl) rfl hi (h.server.consistent.interface ifs hifs) (h.server.within.length_le
          h.server.consistent hifs) ?_ fun w hw => absurd hw List.not_mem_nil
        rw [h.router.wf.routes]
        exact hfair o ifs hm hifs
      · intro a ha
        rw [List.mem_singleton.1 ha]
        exact ⟨nofun, nofun⟩
      · exact Conserves.silent hs hsilent rfl rfl
  | wired hp hc hs' =>
    obtain ⟨name, frame, rfl, hmax, hn⟩ := hs' m (by rw [hs]; exact List.mem_cons_self)
    have hfits := h.server.fits hn
    have hm := (packetWire_carries hfits hmax).received hlib
    obtain ⟨port, hport⟩ := handles_packet (m := ⟨name, frame⟩) hn conn
    rw [serverTakes_eq (s := { s with toServer := ms }) hlib ((congrArg _ hm).trans hport) (by simp)] at hok ⊢
    refine ⟨⟨hok, hrouter, fun _ => rfl, h.names, ?_⟩, ?_, ?_⟩
    · refine .wired hp (fun v hv => hc v (by simpa [Reaction.wire] using hv)) fun v hv => hs' v ?_
      rw [hs]
      exact List.mem_cons_of_mem _ hv
    · intro a ha
      rw [List.mem_singleton.1 ha]
      exact ⟨nofun, nofun⟩
    · rw [Conserves, hs, List.filterMap_cons_some (carried_packet hlib hfits hmax)]
      exact congrArg ((name, frame) :: ·) (List.append_nil _)

/-! ### The router takes a message, or sweeps -/

/-- Nor does a message that carries no frame matter. -/
theorem conserves_silent {s' : Session} {m : Bytes} (hs : s.toServer = []) (hm : P.library.carried m = none)
    (hs' : s'.toServer = [m] := by rfl) : Conserves P s s' [] := by
  rw [Conserves, hs, hs', List.filterMap_cons_none hm]
  rfl

/-- What the router sends is what its messages carry. -/
theorem messages_carry (hlib : P.library.Documented) {acts : List Act} (hacts : ∀ a ∈ acts, a.Grounded s.sr.ifList)
    (hok : ServerOk s) (hnames : ∀ i ∈ s.sr.ifList, s.listener.Names i.name.chars) :
    (acts.filterMap (Act.message s.sr)).filterMap P.library.carried =
      (acts.map SessionAct.router).filterMap SessionAct.sent := by
  rw [List.filterMap_filterMap, List.filterMap_map]
  apply List.filterMap_congr
  intro a ha
  have hg := hacts a ha
  cases a with
  | send site iface frame =>
    obtain ⟨hmax, i, hi⟩ := hg
    obtain ⟨hmem, rfl⟩ := srGetInterface_some hi
    rw [message_send s.sr site i.name (by omega), Option.bind_some,
      carried_packet hlib (hok.fits (hnames i hmem)) hmax]
    rfl
  | _ => rfl

/-- What the router does in a step leads on to a state of the same interfaces. -/
theorem Going.routed (h : Going P n s) (hlib : P.library.Documented) {sr' : SrInstance} {acts : List Act}
    {toClient : List Wire} (hw : RouterOk P.routes (n + 1) sr') (hacts : ∀ a ∈ acts, a.Grounded s.sr.ifList)
    (hok : ServerOk { s with toClient := toClient })
    (hnames : ∀ i ∈ sr'.ifList, s.listener.Names i.name.chars)
    (hstage : Session.Stage
      { s with sr := sr', toClient := toClient, toServer := s.toServer ++ acts.filterMap (Act.message s.sr) }) :
    GoesOn P n s { s with sr := sr', toClient := toClient, toServer := s.toServer ++ acts.filterMap (Act.message s.sr) }
      (acts.map .router) := by
  refine ⟨⟨⟨hok.consistent, hok.within, hok.fromServer⟩, hw, h.serving, hnames, hstage⟩, ?_, ?_⟩
  · intro a ha
    obtain ⟨b, hb, rfl⟩ := List.mem_map.1 ha
    have hall := List.all_eq_true.1 (grounded_faultless hacts) b hb
    change b.isFault = false
    simpa using hall
  · have hput : (acts.map SessionAct.router).filterMap SessionAct.putOut = [] := by
      rw [List.filterMap_map, List.filterMap_eq_nil_iff]
      exact fun _ _ => rfl
    rw [Conserves, List.filterMap_append, messages_carry hlib hacts h.server h.names, hput, List.nil_append]

/-- Once both sides know the interfaces, whatever the router sends is for one of them. -/
theorem wired_routed {sr' : SrInstance} {acts : List Act} {toClient : List Wire} (hp : s.phase = .running)
    (hc : ∀ w ∈ toClient, PacketFor (s.sr.ifList.map (·.name.chars)) w)
    (hs : ∀ m ∈ s.toServer, PacketTo s.listener m)
    (hnames : ∀ i ∈ s.sr.ifList, s.listener.Names i.name.chars) (hifs : sr'.ifList = s.sr.ifList)
    (hacts : ∀ a ∈ acts, a.Grounded s.sr.ifList) : Session.Stage
      { s with sr := sr', toClient := toClient, toServer := s.toServer ++ acts.filterMap (Act.message s.sr) } := by
  refine .wired hp (by rwa [hifs]) ?_
  intro m hm
  rcases List.mem_append.1 hm with hm | hm
  · exact hs m hm
  · obtain ⟨i, hi, frame, rfl, hmax⟩ := grounded_message hacts hm
    exact ⟨i.name.chars, frame, rfl, hmax, hnames i hi⟩

theorem Going.sweep (h : Going P n s) (hlib : P.library.Documented) (env : SweepEnv) (hp : s.phase = .running) :
    GoesOn P n s (clientSweeps env s).1 ((clientSweeps env s).2.map .router) := by
  obtain ⟨hw, hifs, hacts⟩ := swept_keeps h.router env
  have hsweeps : clientSweeps env s =
      ({ s with
          sr := (srArpcacheTimeout env s.sr).st
          toServer := s.toServer ++ (srArpcacheTimeout env s.sr).acts.filterMap (Act.message s.sr) },
        (srArpcacheTimeout env s.sr).acts) := by
    simp only [clientSweeps, if_pos (grounded_faultless hacts)]
  rw [hsweeps]
  refine @Going.routed P n s h hlib _ _ s.toClient hw hacts h.server (by rw [hifs]; exact h.names) ?_
  have hsilent : s.sr.ifList = [] → (srArpcacheTimeout env s.sr).acts.filterMap (Act.message s.sr) = [] := by
    intro hi
    rw [hi] at hacts
    exact grounded_silent hacts s.sr
  cases h.stage with
  | offline hp' => cases hp.symm.trans hp'
  | asked hp' => cases hp.symm.trans hp'
  | answered hp' => cases hp.symm.trans hp'
  | accepted hp' => cases hp.symm.trans hp'
  | opening _ hc hs hi hw' =>
    rw [hsilent hi, List.append_nil]
    exact .opening hp hc hs (hifs.trans hi) hw'
  | told _ hc hs hi hnames hlen hcover hws =>
    rw [hsilent hi, List.append_nil]
    refine .told hp hc hs (hifs.trans hi) hnames hlen ?_ hws
    rw [hw.wf.routes, ← h.router.wf.routes]
    exact hcover
  | wired _ hc hs => exact wired_routed hp hc hs h.names hifs hacts

/-- What the server tells of interfaces that the routes need is accepted. -/
theorem Going.reads_hardware (h : Going P n s) (hP : P.Ready) (env : ServerEnv) (mem : Scratch) {ifs : List VNSInterface}
    (ws : List Wire) (hp : s.phase = .running) (hi : s.sr.ifList = []) (hnames : ∀ i ∈ ifs, s.listener.Names i.name)
    (hlen : ifs.length ≤ 3) (hcover : Covers ifs s.sr.routingTable) :
    ∃ added, clientReads P n env mem 0 (hardwareWire ifs).bytes { s with toClient := ws } =
        ({ s with toClient := ws, sr := { s.sr with ifList := added }, toServer := s.toServer ++ [] }, []) ∧
      RouterOk P.routes (n + 1) { s.sr with ifList := added } ∧ added.map (·.name.chars) = ifs.map (·.name) := by
  have hfits : ∀ i ∈ ifs, FitsField 31 i.name := fun i him => (h.server.fits (hnames i him)).mono (by decide)
  have hsize : 8 + (hardwareWire ifs).body.length ≤ 10000 := by
    rw [hardwareWire_length]
    omega
  rw [h.router.wf.routes] at hcover
  obtain ⟨added, haccepts, hw, hadded⟩ := @accepts_hardware P n env s.sr ifs hfits hsize h.router hi hP.routes hcover
  exact ⟨added, clientReads_running mem (s := { s with toClient := ws }) hp (by decide : vnsHwinfo ≠ vnsAuthRequest)
    haccepts rfl, hw, hadded⟩

/-- A packet for an interface of the router is handled as the event it is. -/
theorem Going.reads_packet (h : Going P n s) (env : ServerEnv) (mem : Scratch) {w : Wire} (ws : List Wire)
    (hp : s.phase = .running) (hw : PacketFor (s.sr.ifList.map (·.name.chars)) w) :
    ∃ res, res = stepRes n s.sr (w.event env s.sr.ifList) ∧
      clientReads P n env mem 0 w.bytes { s with toClient := ws } =
        ({ s with toClient := ws, sr := res.st, toServer := s.toServer ++ res.acts.filterMap (Act.message s.sr) }, res.acts) ∧
      RouterOk P.routes (n + 1) res.st ∧ res.st.ifList = s.sr.ifList ∧ ∀ a ∈ res.acts, a.Grounded s.sr.ifList := by
  obtain ⟨name, hname, frame, rfl, hmax⟩ := hw
  obtain ⟨i, him, rfl⟩ := List.mem_map.1 hname
  have hfit := h.server.fits (h.names i him)
  obtain ⟨res, hres, haccepts, hw', hifs, hacts⟩ := @accepts_packet P n env s.sr i.name frame h.router hfit.2 hmax
    (srGetInterface_isSome.2 (List.mem_map_of_mem him))
  exact ⟨res, hres, clientReads_running mem (s := { s with toClient := ws }) hp (by decide : vnsPacket ≠ vnsAuthRequest)
    haccepts (grounded_faultless hacts), hw', hifs, hacts⟩

theorem Going.read (h : Going P n s) (hP : P.Ready) (hlib : P.library.Documented) {env : ServerEnv}
    (hsent : env.authSent = true) (mem : Scratch) {expected : UInt32} {w : Wire} {ws : List Wire}
    (he : s.phase.expects = some expected) (hc : s.toClient = w :: ws) :
    GoesOn P n s (clientReads P n env mem expected (P.library.frame w) { s with toClient := ws }).1
      ((clientReads P n env mem expected (P.library.frame w) { s with toClient := ws }).2.map .router) := by
  have hok := (@SessionStepsTo.read P n s env mem expected w ws he hc).serverOk h.server
  rw [hlib.frames w (h.server.fromServer w (by rw [hc]; exact List.mem_cons_self)).short] at hok ⊢
  have hrouter := h.idle.router
  have hserving : s.serving = true := h.serving fun hp => by
    rw [hp] at he
    cases he
  cases h.stage with
  | offline _ hc' => cases hc.symm.trans hc'
  | answered _ hc' => cases hc.symm.trans hc'
  | opening _ hc' => cases hc.symm.trans hc'
  | asked hp hc' hs hi hsalt =>
    obtain ⟨rfl, rfl⟩ := List.cons.inj (hc.symm.trans hc')
    rw [hp] at he
    cases he
    obtain ⟨reply, m, hm, hreads⟩ := @clientReads_request P n env { s with toClient := [] } hP hsent mem _ hsalt hp
    rw [hreads, hs] at hok ⊢
    refine ⟨⟨hok, hrouter, fun _ => hserving, h.names, ?_⟩, fun a ha => absurd ha List.not_mem_nil, ?_⟩
    · exact .answered rfl rfl rfl hi hm
    · exact conserves_silent hs (by rw [Library.carried, hm.received hlib])
  | accepted hp hc' hs hi hmsg =>
    obtain ⟨rfl, rfl⟩ := List.cons.inj (hc.symm.trans hc')
    rw [hp] at he
    cases he
    obtain ⟨opening, m, hm, hreads⟩ := @clientReads_granted P n env { s with toClient := [] } hP mem _ hmsg hp
    rw [hreads, hs] at hok ⊢
    refine ⟨⟨hok, hrouter, fun _ => hserving, h.names, ?_⟩, fun a ha => absurd ha List.not_mem_nil, ?_⟩
    · exact .opening rfl rfl rfl hi hm
    · exact conserves_silent hs (by rw [Library.carried, hm.received hlib])
  | @told ifs ws' hp hc' hs hi hnames hlen hcover hws =>
    obtain ⟨rfl, rfl⟩ := List.cons.inj (hc.symm.trans hc')
    rw [hp] at he
    cases he
    obtain ⟨added, hreads, hw', hifs⟩ := h.reads_hardware hP env mem ws hp hi hnames hlen hcover
    rw [hreads]
    have hok' : ServerOk { s with toClient := ws } := ⟨hok.consistent, hok.within, hok.fromServer⟩
    refine h.routed hlib hw' (fun a ha => absurd ha List.not_mem_nil) hok' ?_ ?_
    · intro i him
      have hmem : i.name.chars ∈ ifs.map (·.name) := by
        rw [← hifs]
        exact List.mem_map_of_mem him
      obtain ⟨j, hj, hjn⟩ := List.mem_map.1 hmem
      rw [← hjn]
      exact hnames j hj
    · refine .wired hp (by simpa only [hifs] using hws) ?_
      rw [hs]
      exact fun v hv => absurd hv List.not_mem_nil
  | wired hp hc' hs =>
    rw [hp] at he
    cases he
    obtain ⟨res, -, hreads, hw', hifs, hacts⟩ := h.reads_packet env mem ws hp (hc' w (by rw [hc]; exact List.mem_cons_self))
    rw [hreads]
    have hok' : ServerOk { s with toClient := ws } := ⟨hok.consistent, hok.within, hok.fromServer⟩
    refine h.routed hlib hw' hacts hok' (by rw [hifs]; exact h.names) ?_
    refine wired_routed hp (fun v hv => hc' v ?_) hs h.names hifs hacts
    rw [hc]
    exact List.mem_cons_of_mem _ hv

end Keeps

/-! ## Every run -/

/-- A step of such a session leads on to one, fails nobody and loses nothing. -/
theorem session_step {P : Setup} (hP : P.Ready) (hlib : P.library.Documented) {n : Nat} {s s' : Session} {e : SessionEvent}
    {acts : List SessionAct} (h : Going P n s) (he : Fair P s e) (hs : SessionStepsTo P n s e s' acts) :
    GoesOn P n s s' acts := by
  have hquiet : ∀ a ∈ ([] : List SessionAct), a.Fine := fun a ha => absurd ha List.not_mem_nil
  cases hs with
  | idle => exact ⟨h.idle, hquiet, conserves_same rfl⟩
  | connectionUp ports arrange => exact ⟨h.connectionUp ports arrange, hquiet, conserves_same rfl⟩
  | connect hp => exact ⟨h.connect _ hp, hquiet, conserves_same rfl⟩
  | packetIn hserving => exact ⟨h.packetIn _ _ (he hserving), hquiet, conserves_same rfl⟩
  | serve hs hserving => exact h.serve hlib _ hs hserving fun o ifs hm hifs => he _ _ o ifs hs hm hifs
  | read hexp hc => exact h.read hP hlib he _ hexp hc
  | sweep hp => exact h.sweep hlib _ hp

theorem init_going (P : Setup) : Going P 0 (session P).init where
  server := session_serverOk P []
  router := ⟨client_reachable P.routes [], fun _ hr => absurd hr List.not_mem_nil⟩
  serving h := absurd rfl h
  names _ hi := absurd hi List.not_mem_nil
  stage := .offline rfl rfl rfl rfl

/-- What is in flight to the server makes up for what has not been put out. -/
def Balanced (P : Setup) (s : Session) (acts : List SessionAct) : Prop :=
  acts.filterMap SessionAct.sent = acts.filterMap SessionAct.putOut ++ s.toServer.filterMap P.library.carried

theorem Balanced.step {P : Setup} {s s' : Session} {acts acts' : List SessionAct} (h : Balanced P s acts)
    (hc : Conserves P s s' acts') : Balanced P s' (acts ++ acts') := by
  rw [Balanced, List.filterMap_append, h, List.append_assoc, hc, ← List.append_assoc, ← List.filterMap_append]

theorem fair_run {P : Setup} (hP : P.Ready) (hlib : P.library.Documented) {es : List SessionEvent}
    (h : (session P).Along (Fair P) es) : Going P es.length ((session P).state es) ∧
      (∀ a ∈ (session P).trace es, a.Fine) ∧ Balanced P ((session P).state es) ((session P).trace es) := by
  refine (session P).induct_along (P := Fair P)
    (I := fun es s acts => Going P es.length s ∧ (∀ a ∈ acts, a.Fine) ∧ Balanced P s acts) ?_ ?_ es h
  · exact ⟨init_going P, fun a ha => absurd ha List.not_mem_nil, rfl⟩
  · rintro es e he ⟨hgoing, hfine, hbalanced⟩
    have hstep := session_step hP hlib hgoing he (session_cases P es.length _ e)
    rw [List.length_append]
    refine ⟨hstep.going, ?_, hbalanced.step hstep.conserves⟩
    intro a ha
    rcases List.mem_append.1 ha with ha | ha
    · exact hfine a ha
    · exact hstep.fine a ha

/-- The interfaces that the server would tell of include those of the routes. -/
theorem fair_serve {P : Setup} {s : Session} {names : List Bytes}
    (hi : s.listener.interfaces.map (·.map (·.name)) = some names) (hcover : ∀ rt ∈ P.routes, rt.interface.chars ∈ names)
    (conn : {bs : Bytes // bs.length ≤ 9991}) : Fair P s (.serve conn) := by
  rintro m ms o ifs - - hifs
  rw [hifs] at hi
  cases hi
  exact hcover

/-- The router knows the name of the port. -/
theorem fair_packetIn {P : Setup} {s : Session} {port : Nat} {pkt : Packet} {name : Bytes}
    (hl : s.listener.portToIntfname.lookup port = some name) (hn : name ∈ s.sr.ifList.map (·.name.chars))
    (hmax : pkt.1.length ≤ 9976) : Fair P s (.packetIn port pkt) := by
  rintro - name' hl'
  cases hl.symm.trans hl'
  exact ⟨.inl hn, hmax⟩

namespace Sample

/-- The router comes to its loop, and answers 10.0.0.5. -/
def answers : List SessionEvent :=
  [switchUp, dialled, reads, serves, reads, serves, reads, .packetIn 1 arpAsked, reads]

theorem setup_ready : setup.Ready := ⟨by decide, rfl, by decide⟩

theorem answers_fair : (session setup).Along (Fair setup) answers := by
  refine ⟨trivial, trivial, rfl, ?_, rfl, ?_, rfl, ?_, rfl, trivial⟩
  · exact @fair_serve setup _ [ethName 2, ethName 1] (by decide +kernel) (by decide) _
  · exact @fair_serve setup _ [ethName 2, ethName 1] (by decide +kernel) (by decide) _
  · exact @fair_packetIn setup _ 1 arpAsked (ethName 1) (by decide +kernel) (by decide +kernel) (by decide)

end Sample

/-- In such a session the frames that the router has sent, each with the name of
its interface, are those that have left the switch and those on their way to the
server, in that order. -/
theorem frames_in_order {P : Setup} (hP : P.Ready) (hlib : P.library.Documented) {es : List SessionEvent}
    (h : (session P).Along (Fair P) es) : ((session P).trace es).filterMap SessionAct.sent =
      ((session P).trace es).filterMap SessionAct.putOut ++ ((session P).state es).toServer.filterMap P.library.carried :=
  (fair_run hP hlib h).2.2

open Sample in
/-- The answer is on its way. -/
theorem frames_in_order_answers : (((session setup).trace answers).filterMap SessionAct.sent).length = 1 ∧
    ((session setup).trace answers).filterMap SessionAct.sent =
      ((session setup).trace answers).filterMap SessionAct.putOut ++
        ((session setup).state answers).toServer.filterMap library.carried :=
  ⟨by decide +kernel, frames_in_order setup_ready library_documented answers_fair⟩

end SimpleRouter
