import SimpleRouter.Client
import SimpleRouter.Handshake
import SimpleRouter.Listener
/-!
# A session

The router and its server together: `main` and `sr_connect_to_server` on one
side, `SRServerListener` and the switch on the other, and between them a queue
of messages each way. Events come in any order: either side takes its next
message when it likes, and frames come from the switch at any time. But each
event is one step: a call of `sr_read_from_server` and a pass of the sweeper do
not overlap, though they are threads, nor do two handlers of the server. What is
written arrives, as whole messages and in order.
-/
open Memory CProg Runs Stream Struct

namespace SimpleRouter

/-! ## Messages -/

namespace Wire

/-- The buffer a call of `sr_read_from_server_expect` reads it into. -/
def buf (w : Wire) (past : Mem) : Buf := commandBuf past (.ofNat (8 + w.body.length)) (be 4 w.type.toNat ++ w.body)

/-- A message that the router does not refuse for its length. -/
def command (w : Wire) (h : 8 + w.body.length ≤ 10000) : Command := ⟨w.type, w.body, h⟩

theorem bytes_command (w : Wire) (h : 8 + w.body.length ≤ 10000) : (w.command h).bytes = w.bytes := by
  rw [Command.bytes, Command.toNat_len]
  rfl

end Wire

/-! ## The router -/

/-- How far the router has come. -/
inductive ClientPhase where
  | offline
  /-- It waits for `VNS_AUTH_REQUEST`, in `sr_connect_to_server`. -/
  | awaitRequest
  | awaitStatus
  | awaitRtable
  /-- The loop of `main`. -/
  | running
  /-- `main` has returned, or the program has crashed. -/
  | ended
deriving DecidableEq

/-- The argument of `sr_read_from_server_expect`, where it is called. -/
def ClientPhase.expects : ClientPhase → Option UInt32
  | .awaitRequest => some vnsAuthRequest
  | .awaitStatus => some vnsAuthStatus
  | .awaitRtable => some vnsRtable
  | .running => some 0
  | .offline => none
  | .ended => none

/-- Where the router goes on when a call has returned 1; `main` gives up on any other value. -/
def ClientPhase.next (template : Bytes) : ClientPhase → ClientPhase
  | .awaitRequest => .awaitStatus
  | .awaitStatus => if template.length > 0 then .awaitRtable else .running
  | .awaitRtable => .running
  | p => p

/-- What the two programs are started with: the addresses of the switch and the
libraries of the server, and the account and the routes of the router. -/
structure Setup where
  eth1 : Bytes
  eth2 : Bytes
  eth3 : Bytes
  library : Library
  account : Account
  routes : List SrRt

structure Session where
  listener : SRServerListener
  /-- The server has accepted the connection and not dropped it. -/
  serving : Bool
  phase : ClientPhase
  sr : SrInstance
  toClient : List Wire
  toServer : List Bytes

def Act.isFault : Act → Bool
  | .fault _ => true
  | _ => false

/-- What `sr_send_packet` has written for an action of the router. The memory it
takes for the message is overwritten all over. -/
def Act.message (sr : SrInstance) : Act → Option Bytes
  | .send _ iface frame => some (createPacket (fun _ => 0) (.ofBytes frame fun _ => 0) iface sr).val.bytes
  | _ => none

/-- A `VNSPacket`. -/
def packetWire (intfName frame : Bytes) : Wire := ⟨vnsPacket, pad 16 intfName ++ frame⟩

/-- What `sr_send_packet` writes is what a `VNSPacket` travels as, unless the length overflows. -/
theorem message_send (sr : SrInstance) (site : Site) (iface : IfName) {frame : Bytes} (h : frame.length + 24 < 2 ^ 32) :
    Act.message sr (.send site iface frame) = some (packetWire iface.chars frame).bytes := by
  obtain ⟨srPkt, hp, hbytes⟩ := @createPacket_computes (fun _ => 0) (.ofBytes frame fun _ => 0) iface
    (by rwa [Buf.size_ofBytes])
  have hlen : frame.length + 24 = 8 + (pad 16 iface.chars ++ frame).length := by
    rw [List.length_append, length_pad]
    omega
  have hval : (createPacket (fun _ => 0) (.ofBytes frame fun _ => 0) iface sr).val = srPkt := hp.val sr
  rw [Act.message, hval, hbytes, Buf.size_ofBytes, Buf.bytes_ofBytes, hlen]
  rfl

section Router
variable (P : Setup)

/-- What a call finds around it, as far as it is the same for every call. -/
def readEnv (n : Nat) (env : ServerEnv) : ServerEnv :=
  { env with
    seq := n
    authKey := (P.account.authKey.bind authKeyLine).isSome
    userLen := P.account.user.length }

/-- What `sr_handle_auth_request` has sent when a call returns that has read a request. -/
def authReplies (mem : Scratch) (past : Mem) (call : Call) (sr : SrInstance) : List Bytes :=
  match call.decoded with
  | some (type, body) =>
    if call.ret = some 1 ∧ type = vnsAuthRequest then
      (srHandleAuthRequestSends mem P.account (Wire.buf ⟨type, body⟩ past) sr).val.toList
    else []
  | none => []

/-- What `sr_connect_to_server` sends behind the second call. -/
def openings (mem : Scratch) (phase : ClientPhase) (call : Call) (sr : SrInstance) : List Bytes :=
  if call.ret = some 1 ∧ phase = .awaitStatus then [(openRequest mem P.account sr).val.bytes] else []

/-- A call of `sr_read_from_server_expect` that finds `m` on the socket, and
what is sent until the next one. -/
def clientReads (n : Nat) (env : ServerEnv) (mem : Scratch) (expected : UInt32) (m : Bytes) (s : Session) :
    Session × List Act :=
  let call := srReadFromServerExpect (readEnv P n env) expected [.bytes m] s.sr
  ({ s with
      sr := call.st
      toServer := s.toServer ++ authReplies P mem env.past call.val s.sr ++ openings P mem s.phase call.val s.sr ++
        call.acts.filterMap (Act.message s.sr)
      phase := if call.val.ret = some 1 ∧ call.acts.all (!·.isFault) then s.phase.next P.account.template else .ended },
    call.acts)

/-- A pass of the sweeper. -/
def clientSweeps (env : SweepEnv) (s : Session) : Session × List Act :=
  let sweep := srArpcacheTimeout env s.sr
  ({ s with
      sr := sweep.st
      toServer := s.toServer ++ sweep.acts.filterMap (Act.message s.sr)
      phase := if sweep.acts.all (!·.isFault) then s.phase else .ended },
    sweep.acts)

end Router

/-! ## The server -/

def Reaction.wire : Reaction → Option Wire
  | .send w => some w
  | _ => none

/-- The server takes the message `m`. -/
def serverTakes (P : Setup) (msg m : Bytes) (s : Session) : Session × List Reaction :=
  let rs := s.listener.handleRecvMsg msg (P.library.received m)
  ({ s with
      toClient := s.toClient ++ rs.filterMap Reaction.wire
      serving := rs.all (!P.library.drops ·) },
    rs)

/-! ## Both -/

/-- A frame of the switch, which `miss_send_len` limits. -/
abbrev Packet : Type := {pkt : Bytes // pkt.length ≤ 65535}

inductive SessionEvent where
  /-- A switch connects; `arrange` is how a dictionary lists its keys. -/
  | connectionUp (ports : List OfPort) (arrange : ∀ keys : List Bytes, {l : List Bytes // l.Perm keys})
  /-- The router connects. -/
  | connect (salt : {bs : Bytes // bs.length = 20})
  | packetIn (port : Nat) (pkt : Packet)
  /-- The server takes its next message; `conn` is what it would write about the connection. -/
  | serve (conn : {bs : Bytes // bs.length ≤ 9991})
  /-- The router takes its next message. -/
  | read (env : ServerEnv) (mem : Scratch)
  | sweep (env : SweepEnv)

inductive SessionAct where
  | server (r : Reaction)
  | router (a : Act)

section Step
variable (P : Setup)

def routerInfo (ports : List OfPort) (arrange : ∀ keys : List Bytes, {l : List Bytes // l.Perm keys}) : RouterInfo where
  info := swInfo (routerIp P.eth1 P.eth2 P.eth3) ports
  order := arrange (swInfo (routerIp P.eth1 P.eth2 P.eth3) ports).keys
  order_perm := (arrange _).2

/-- What the `n`th event leads to and does. -/
def sessionStep (n : Nat) (s : Session) : SessionEvent → Session × List SessionAct
  | .connectionUp ports arrange => ({ s with listener := s.listener.handleRouterInfo (routerInfo P ports arrange) }, [])
  | .connect salt =>
    if s.phase = .offline then
      ({ s with phase := .awaitRequest, serving := true, toClient := s.toClient ++ [SRServerListener.handleNewClient salt] }, [])
    else (s, [])
  | .packetIn port pkt =>
    -- a client is broadcast to from its connection on, whatever it is waiting for
    if s.serving then ({ s with toClient := s.toClient ++ (s.listener.handleSRPacketIn port pkt).toList }, [])
    else (s, [])
  | .serve conn =>
    match s.toServer with
    | [] => (s, [])
    | m :: ms =>
      if s.serving then
        ((serverTakes P conn m { s with toServer := ms }).1, (serverTakes P conn m { s with toServer := ms }).2.map .server)
      else (s, [])
  | .read env mem =>
    match s.phase.expects, s.toClient with
    | some expected, w :: ws =>
      ((clientReads P n env mem expected (P.library.frame w) { s with toClient := ws }).1,
        (clientReads P n env mem expected (P.library.frame w) { s with toClient := ws }).2.map .router)
    | _, _ => (s, [])
  | .sweep env =>
    if s.phase = .running then ((clientSweeps env s).1, (clientSweeps env s).2.map .router) else (s, [])

def session : System Session SessionEvent SessionAct where
  init := ⟨.init, false, .offline, .init [] P.routes, [], []⟩
  step := sessionStep P

end Step

/-! ## What a step can do -/

section Steps
variable (P : Setup) (n : Nat) (s : Session)

/-- What a step from `s` on an event can lead to and do. -/
inductive SessionStepsTo : SessionEvent → Session → List SessionAct → Prop where
  | idle {e} : SessionStepsTo e s []
  | connectionUp ports arrange : SessionStepsTo (.connectionUp ports arrange)
      { s with listener := s.listener.handleRouterInfo (routerInfo P ports arrange) } []
  | connect {salt} (hp : s.phase = .offline) : SessionStepsTo (.connect salt)
      { s with phase := .awaitRequest, serving := true, toClient := s.toClient ++ [SRServerListener.handleNewClient salt] } []
  | packetIn {port pkt} (hserving : s.serving = true) : SessionStepsTo (.packetIn port pkt)
      { s with toClient := s.toClient ++ (s.listener.handleSRPacketIn port pkt).toList } []
  | serve {conn m ms} (hs : s.toServer = m :: ms) (hserving : s.serving = true) : SessionStepsTo (.serve conn)
      (serverTakes P conn m { s with toServer := ms }).1 ((serverTakes P conn m { s with toServer := ms }).2.map .server)
  | read {env mem expected w ws} (he : s.phase.expects = some expected) (hc : s.toClient = w :: ws) :
      SessionStepsTo (.read env mem) (clientReads P n env mem expected (P.library.frame w) { s with toClient := ws }).1
        ((clientReads P n env mem expected (P.library.frame w) { s with toClient := ws }).2.map .router)
  | sweep {env} (hp : s.phase = .running) :
      SessionStepsTo (.sweep env) (clientSweeps env s).1 ((clientSweeps env s).2.map .router)

theorem session_cases (e : SessionEvent) : SessionStepsTo P n s e (sessionStep P n s e).1 (sessionStep P n s e).2 := by
  cases e with
  | connectionUp ports arrange => exact .connectionUp ports arrange
  | connect salt =>
    by_cases hp : s.phase = .offline
    · simpa only [sessionStep, if_pos hp] using SessionStepsTo.connect hp
    · simpa only [sessionStep, if_neg hp] using SessionStepsTo.idle
  | packetIn port pkt =>
    by_cases hserving : s.serving
    · simpa only [sessionStep, if_pos hserving] using SessionStepsTo.packetIn hserving
    · simpa only [sessionStep, if_neg hserving] using SessionStepsTo.idle
  | serve conn =>
    cases hs : s.toServer with
    | nil => simpa only [sessionStep, hs] using SessionStepsTo.idle
    | cons w ws =>
      by_cases hserving : s.serving
      · simpa only [sessionStep, hs, if_pos hserving] using SessionStepsTo.serve hs hserving
      · simpa only [sessionStep, hs, if_neg hserving] using SessionStepsTo.idle
  | read env mem =>
    cases he : s.phase.expects with
    | none => simpa only [sessionStep, he] using SessionStepsTo.idle
    | some expected =>
      cases hc : s.toClient with
      | nil => simpa only [sessionStep, he, hc] using SessionStepsTo.idle
      | cons w ws => simpa only [sessionStep, he, hc] using SessionStepsTo.read he hc
  | sweep env =>
    by_cases hp : s.phase = .running
    · simpa only [sessionStep, if_pos hp] using SessionStepsTo.sweep hp
    · simpa only [sessionStep, if_neg hp] using SessionStepsTo.idle

end Steps

/-! ## One call -/

section Call
variable {w : Wire} (h : 8 + w.body.length ≤ 10000) (env : ServerEnv) (expected : UInt32) (sr : SrInstance)

/-- What the `switch` comes to on `w`. -/
def dispatchOn (env : ServerEnv) (expected : UInt32) (w : Wire) : RouterM Dispatched :=
  dispatch env expected w.type (.ofNat (8 + w.body.length)) (w.buf env.past)

include h in
/-- A call that finds `w` on the socket has dispatched just that. -/
theorem read_wire :
    (srReadFromServerExpect env expected [.bytes w.bytes] sr).val.ret =
      (finish env (dispatchOn env expected w sr).val (dispatchOn env expected w sr).st).val ∧
    (srReadFromServerExpect env expected [.bytes w.bytes] sr).val.decoded = some (w.type, w.body) ∧
    (srReadFromServerExpect env expected [.bytes w.bytes] sr).st =
      (finish env (dispatchOn env expected w sr).val (dispatchOn env expected w sr).st).st ∧
    (srReadFromServerExpect env expected [.bytes w.bytes] sr).acts = (dispatchOn env expected w sr).acts ++
      (finish env (dispatchOn env expected w sr).val (dispatchOn env expected w sr).st).acts := by
  have hc : contents [.bytes w.bytes] = (w.command h).bytes ++ [] := by
    rw [w.bytes_command h, List.append_nil]
    exact List.append_nil _
  obtain ⟨sock', hreceive, -⟩ := @Command.receive_eq (w.command h) env.past [.bytes w.bytes] [] (by simp [Sound]) hc
  have hdrop : ((w.command h).buf env.past).bytes.drop 8 = w.body := (w.command h).drop_buf env.past
  unfold srReadFromServerExpect parse
  simp only [bind_val, bind_st, bind_acts, hreceive.val, hreceive.st, hreceive.acts, List.nil_append, pure_apply,
    List.append_nil]
  exact ⟨rfl, congrArg (fun body => some (w.type, body)) hdrop, rfl, rfl⟩

variable {env expected}

/-- Where any message or a packet is expected, a packet comes to `case VNSPACKET`. -/
theorem dispatchOn_packet (hexp : expected = 0 ∨ expected = vnsPacket) (name frame : Bytes) :
    dispatchOn env expected (packetWire name frame) =
      dispatchPacket env (.ofNat (8 + (packetWire name frame).body.length)) ((packetWire name frame).buf env.past) := by
  have htype : (packetWire name frame).type = vnsPacket := rfl
  have hok : ¬ (expected ≠ 0 ∧ vnsPacket ≠ expected ∧ vnsPacket ≠ vnsClose) :=
    fun h => hexp.elim h.1 fun he => h.2.1 he.symm
  rw [dispatchOn, dispatch, htype, if_neg hok, if_pos rfl]

/-- A packet that is passed on is an event of the router. -/
theorem stepRes_frame {n : Nat} (hn : env.seq = n) (packet : Buf) (interface : IfName) :
    stepRes n sr (.frame packet.bytes packet.mem env.heap interface env.now) = srHandlepacket env.toEnv packet interface sr := by
  have henv : env.toEnv = ⟨n, env.now, env.heap⟩ := hn ▸ rfl
  rw [stepRes, Buf.ofBytes_bytes, henv]

include h in
/-- Where the `switch` only computes, the call returns what it returns. -/
theorem read_ret {v : Int} (hd : Computes (dispatchOn env expected w) (.ret v)) :
    (srReadFromServerExpect env expected [.bytes w.bytes] sr).val.ret = some v ∧
    (srReadFromServerExpect env expected [.bytes w.bytes] sr).st = sr ∧
    (srReadFromServerExpect env expected [.bytes w.bytes] sr).acts = [] := by
  obtain ⟨hret, -, hst, hacts⟩ := read_wire h env expected sr
  rw [hd.val, hd.st] at hret hst
  rw [hd.val, hd.st, hd.acts] at hacts
  exact ⟨hret, hst, hacts⟩

/-- A message that is too long is refused. -/
theorem read_long (hlong : 10000 < 8 + w.body.length) (h32 : 8 + w.body.length < 2 ^ 32) :
    (srReadFromServerExpect env expected [.bytes w.bytes] sr).val.ret = some (-1) := by
  have hlen : (UInt32.ofNat (8 + w.body.length)).toNat = 8 + w.body.length := UInt32.toNat_ofNat_of_lt' h32
  have hc : contents [.bytes w.bytes] = be 4 (UInt32.ofNat (8 + w.body.length)).toNat ++ (be 4 w.type.toNat ++ w.body) := by
    rw [hlen]
    exact List.append_nil _
  have hr := @receive_refused env.past _ _ _ (by simp [Sound]) hc (by omega)
  unfold srReadFromServerExpect parse
  simp only [bind_val, bind_st, hr.val, hr.st, pure_apply]

/-- A call that expects another message does not return 1. -/
theorem read_other (h32 : 8 + w.body.length < 2 ^ 32) (hexp : expected ≠ 0) (ht : w.type ≠ expected) :
    (srReadFromServerExpect env expected [.bytes w.bytes] sr).val.ret ≠ some 1 := by
  by_cases hlong : 10000 < 8 + w.body.length
  · rw [read_long sr hlong h32]
    decide
  have h := Nat.le_of_not_lt hlong
  by_cases hclose : w.type = vnsClose
  · -- `VNSCLOSE` is always right, and ends the session
    have hd : Computes (dispatchOn env expected w) (.ret 0) := by
      unfold dispatchOn dispatch
      rw [if_neg (fun hn => hn.2.2 hclose), if_neg (by rw [hclose]; decide), if_pos hclose]
      exact Computes.bind (touchStr_computes _ _) (.pure _)
    rw [(read_ret h sr hd).1]
    decide
  · have hd : Computes (dispatchOn env expected w) (.ret (-1)) := by
      unfold dispatchOn dispatch
      rw [if_pos ⟨hexp, ht, hclose⟩]
      exact .pure _
    rw [(read_ret h sr hd).1]
    decide

end Call

/-! ## What the server sends -/

/-- The message about hardware. -/
def hardwareWire (interfaces : List VNSInterface) : Wire := ⟨vnsHwinfo, (interfaces.flatMap VNSInterface.records).flatten⟩

/-- Messages of the server: requests, statuses, packets and information about its
three interfaces, none as long as a length can say. -/
structure FromServer (w : Wire) : Prop where
  short : 8 + w.body.length < 2 ^ 32
  type : w.type ∈ [vnsAuthRequest, vnsAuthStatus, vnsPacket, vnsHwinfo]
  hardware : w.type = vnsHwinfo →
    ∃ ifs, w = hardwareWire ifs ∧ ifs.length ≤ 3 ∧ ∀ i ∈ ifs, FitsField 15 i.name

/-- What is known of the server in every session. -/
structure ServerOk (s : Session) : Prop where
  consistent : s.listener.Consistent
  within : s.listener.Within [ethName 3, ethName 2, ethName 1]
  fromServer : ∀ w ∈ s.toClient, FromServer w

theorem hardwareInfo_length {interfaces : List VNSInterface} {body : Bytes} (h : packHardwareInfo interfaces = some body) :
    body.length = 216 * interfaces.length := by
  rw [packHardwareInfo_eq] at h
  cases h
  rw [length_flatten_records (records_size interfaces), records_length]
  omega

theorem hardwareWire_length (interfaces : List VNSInterface) : (hardwareWire interfaces).body.length = 216 * interfaces.length :=
  hardwareInfo_length (packHardwareInfo_eq interfaces)

theorem handleSRPacketIn_eq (l : SRServerListener) (port : Nat) (pkt : Bytes) :
    l.handleSRPacketIn port pkt = (l.portToIntfname.lookup port).map fun name => packetWire name pkt := by
  unfold SRServerListener.handleSRPacketIn
  cases l.portToIntfname.lookup port with
  | none => rfl
  | some name =>
    rw [Option.bind_some, VNSPacket.pack_eq]
    rfl

section Server
variable {s : Session} (h : ServerOk s)
include h

theorem ServerOk.names {ports : List OfPort} {P : Setup} {arrange : ∀ keys : List Bytes, {l : List Bytes // l.Perm keys}} :
    ServerOk { s with listener := s.listener.handleRouterInfo (routerInfo P ports arrange) } where
  consistent := (s.listener.handleRouterInfo_consistent h.consistent _).1
  within := h.within.handleRouterInfo _ fun name hname => by
    have hknown := swInfo_known (routerIp P.eth1 P.eth2 P.eth3) ports name hname
    simpa [routerIp, AList.keys_insert, ethName] using hknown
  fromServer := h.fromServer

theorem ServerOk.send {ws : List Wire} (hws : ∀ w ∈ ws, FromServer w) : ServerOk { s with toClient := s.toClient ++ ws } where
  consistent := h.consistent
  within := h.within
  fromServer w hw := (List.mem_append.1 hw).elim (h.fromServer w) (hws w)

theorem ServerOk.packet (port : Nat) (pkt : Packet) :
    ServerOk { s with toClient := s.toClient ++ (s.listener.handleSRPacketIn port pkt).toList } := by
  apply h.send
  intro w hw
  rw [handleSRPacketIn_eq, Option.mem_toList] at hw
  obtain ⟨name, -, rfl⟩ := Option.mem_map.1 hw
  have hsize := pkt.2
  refine ⟨?_, by simp [packetWire], fun h => absurd h (by decide : vnsPacket ≠ vnsHwinfo)⟩
  change 8 + (pad 16 name ++ pkt.1).length < 2 ^ 32
  rw [List.length_append, length_pad]
  omega

/-- The names of the server are short. -/
theorem ServerOk.fits {name : Bytes} (hn : s.listener.Names name) : FitsField 15 name := by
  have hall : ∀ name ∈ [ethName 3, ethName 2, ethName 1], FitsField 15 name := by decide
  exact hall name (h.within.name name hn)

/-- What a handler sends in answer to a message. -/
theorem handleRecvMsg_sends {msg : Bytes} (hmsg : msg.length ≤ 9991) {m : Option VNSMessage} {w : Wire}
    (hw : .send w ∈ s.listener.handleRecvMsg msg m) : FromServer w := by
  cases m with
  | none => simp [SRServerListener.handleRecvMsg] at hw
  | some m =>
    cases m with
    | vnsAuthReply m =>
      have hbody : VNSAuthStatus.pack ⟨true, msg⟩ = some (1 :: msg) := rfl
      simp only [SRServerListener.handleRecvMsg, SRServerListener.handleAuthReply, hbody, List.mem_singleton,
        Reaction.send.injEq] at hw
      subst hw
      refine ⟨?_, by simp [vnsAuthStatus], fun h => absurd h (by decide : (512 : UInt32) ≠ 16)⟩
      simp only [List.length_cons]
      omega
    | vnsOpen m =>
      simp only [SRServerListener.handleRecvMsg, SRServerListener.handleOpenMsg] at hw
      cases hi : s.listener.interfaces with
      | none => simp [hi] at hw
      | some ifs =>
        have hle := h.within.length_le h.consistent hi
        simp only [hi, Option.bind_some, packHardwareInfo_eq, List.mem_singleton, Reaction.send.injEq] at hw
        subst hw
        refine ⟨?_, by simp [vnsHwinfo], fun _ => ⟨ifs, rfl, hle, fun i him => h.fits (h.consistent.interface ifs hi i him)⟩⟩
        rw [hardwareInfo_length (packHardwareInfo_eq ifs)]
        simp only [List.length_cons, List.length_nil] at hle
        omega
    | vnsPacket m =>
      simp only [SRServerListener.handleRecvMsg, SRServerListener.handlePacketMsg] at hw
      cases hl : s.listener.intfnameToPort.lookup m.intfName with
      | none => simp [hl] at hw
      | some port => simp [hl] at hw
    | _ => simp [SRServerListener.handleRecvMsg] at hw

theorem ServerOk.serve {P : Setup} {msg : Bytes} (hmsg : msg.length ≤ 9991) (m : Bytes) : ServerOk (serverTakes P msg m s).1 := by
  refine ⟨h.consistent, h.within, ?_⟩
  intro v hv
  rcases List.mem_append.1 hv with hv | hv
  · exact h.fromServer v hv
  · obtain ⟨r, hr, hrv⟩ := List.mem_filterMap.1 hv
    cases r with
    | send w' =>
      cases hrv
      exact handleRecvMsg_sends h hmsg hr
    | _ => cases hrv

theorem SessionStepsTo.serverOk {P : Setup} {n : Nat} {e : SessionEvent} {s' : Session} {acts : List SessionAct}
    (hs : SessionStepsTo P n s e s' acts) : ServerOk s' := by
  cases hs with
  | idle => exact h
  | connectionUp ports arrange => exact h.names
  | connect hp =>
    refine ⟨h.consistent, h.within, (h.send ?_).fromServer⟩
    rename_i salt
    intro w hw
    obtain rfl := List.mem_singleton.1 hw
    refine ⟨?_, by simp [SRServerListener.handleNewClient, vnsAuthRequest], fun h => absurd h (by decide : (128 : UInt32) ≠ 16)⟩
    change 8 + salt.1.length < 2 ^ 32
    rw [salt.2]
    decide
  | packetIn => exact h.packet _ _
  | serve hs =>
    rename_i conn m ms _
    have h' : ServerOk { s with toServer := ms } := ⟨h.consistent, h.within, h.fromServer⟩
    exact h'.serve conn.2 m
  | read he hc => exact ⟨h.consistent, h.within, fun v hv => h.fromServer v (by rw [hc]; exact List.mem_cons_of_mem _ hv)⟩
  | sweep hp => exact ⟨h.consistent, h.within, h.fromServer⟩

end Server

theorem session_serverOk (P : Setup) (es : List SessionEvent) : ServerOk ((session P).state es) := by
  refine (session P).induct (I := fun _ s _ => ServerOk s) ?_ ?_ es
  · exact ⟨SRServerListener.init_consistent, SRServerListener.init_within _, fun w hw => absurd hw List.not_mem_nil⟩
  · intro es e h
    exact (session_cases P es.length _ e).serverOk h

/-! ## Names the router is told of -/

/-- The router knows an interface of that name, or hardware information that is
on its way to it tells of one. -/
def Session.Told (s : Session) (name : Bytes) : Prop :=
  name ∈ s.sr.ifList.map (·.name.chars) ∨
  ∃ ifs : List VNSInterface, (∀ i ∈ ifs, FitsField 31 i.name) ∧ hardwareWire ifs ∈ s.toClient ∧ name ∈ ifs.map (·.name)

namespace Sample

/-- The type of a message and the rest of it, by its first bytes. -/
def library : Library where
  frame := Wire.bytes
  received m := Wire.message ⟨.ofNat (readBe ((m.drop 4).take 4)), m.drop 8⟩
  drops r := r = .goodbye ∨ r = .raised

theorem library_documented : library.Documented where
  frames w _ := rfl
  unpacks w m _ h := by
    have htype : readBe (be 4 w.type.toNat) = w.type.toNat := readBe_be w.type.toNat_lt
    have h8 : (be 4 (8 + w.body.length) ++ be 4 w.type.toNat).length = 8 := by
      rw [List.length_append, length_be, length_be]
    unfold library Wire.bytes
    simp only
    rw [List.drop_left' (length_be _ _), List.take_left' (length_be _ _), ← List.append_assoc, List.drop_left' h8, htype,
      UInt32.ofNat_toNat]
    exact h
  keeps r hg hr := by
    unfold library
    simp [hg, hr]

/-- `sw0` has two ports: `eth1` at 10.0.0.1, and `eth2` at 10.0.1.1. -/
def ports : List OfPort :=
  [⟨[115, 119, 48, 45] ++ ethName 1, [48, 50, 58, 48, 48, 58, 48, 48, 58, 48, 48, 58, 48, 48, 58, 48, 49], 1⟩,
    ⟨[115, 119, 48, 45] ++ ethName 2, [48, 50, 58, 48, 48, 58, 48, 48, 58, 48, 48, 58, 48, 48, 58, 48, 50], 2⟩]

def setup : Setup where
  eth1 := [49, 48, 46, 48, 46, 48, 46, 49]
  eth2 := [49, 48, 46, 48, 46, 49, 46, 49]
  eth3 := [49, 48, 46, 48, 46, 50, 46, 49]
  library := library
  account := account
  routes := [⟨0x0000000A, 0, 0x00FFFFFF, ⟨ethName 1, by decide, by decide⟩⟩]

def switchUp : SessionEvent := .connectionUp ports fun keys => ⟨keys, .refl keys⟩
def dialled : SessionEvent := .connect ⟨List.replicate 20 9, rfl⟩
def serves : SessionEvent := .serve ⟨[111, 107], by decide⟩
def reads : SessionEvent := .read serverEnv scratch

/-- 10.0.0.5 asks for 10.0.0.1. -/
def arpAsked : Packet :=
  ⟨[255, 255, 255, 255, 255, 255, 9, 9, 9, 9, 9, 9, 8, 6, 0, 1, 8, 0, 6, 4, 0, 1, 9, 9, 9, 9, 9, 9, 10, 0, 0, 5,
    0, 0, 0, 0, 0, 0, 10, 0, 0, 1], by decide⟩

end Sample

end SimpleRouter
