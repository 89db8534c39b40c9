import Mathlib.Data.List.AList
import SimpleRouter.Lib.CText
import SimpleRouter.MessageLengths
/-!
# The server

`SRServerListener` of `srhandler.py`, and `OFHandler` of `ofhandler.py` as far
as the two talk to each other: the switch's ports become the router's
interfaces, and each frame goes from a port to an interface name and back. A
Python dictionary is an association list without repeated keys; an exception
that nobody catches is `raised`. What frames the server's messages, takes the
client's apart and calls the handlers is not part of the repository: it is a
parameter, a `Library`.

`Consistent` is the invariant of the two dictionaries: a name that a port or an
interface has is a name with a port.
-/
open Struct

namespace SimpleRouter

/-! ## Addresses as text -/

/-- `int(s, base)` for digits alone. -/
def pyInt (base : Nat) (s : Bytes) : Option Nat :=
  if s = [] then none
  else do
    let ds ← s.mapM CText.digit
    if ∀ d ∈ ds, d < base then some (ds.foldl (fun n d => base * n + d) 0) else none

/-- `chr(int(s, base))`. -/
def pyChr (base : Nat) (s : Bytes) : Option UInt8 :=
  (pyInt base s).bind fun n => if n < 256 then some (.ofNat n) else none

/-- `pack_mac`: the octets between colons. -/
def packMac (macaddr : Bytes) : Option Bytes := (macaddr.splitOn 58).mapM (pyChr 16)

/-- `pack_ip`: the octets between dots. -/
def packIp (ipaddr : Bytes) : Option Bytes := (ipaddr.splitOn 46).mapM (pyChr 10)

/-- The constructor, which raises on addresses of another size. -/
def VNSInterface.new (name mac ip mask : Bytes) : Option VNSInterface :=
  if h : mac.length = 6 ∧ ip.length = 4 ∧ mask.length = 4 then some ⟨name, mac, ip, mask, h.1, h.2.1, h.2.2⟩ else none

/-! ## `ofhandler.py` -/

/-- A port of the switch, with `hw_addr.toStr()`. -/
structure OfPort where
  name : Bytes
  hwAddr : Bytes
  portNo : Nat

/-- What `sw_info` says of an interface; the rate is always `10Gbps` and read by no code. -/
structure IntfInfo where
  ip : Bytes
  mac : Bytes
  port : Nat

abbrev SwInfo : Type := AList fun _ : Bytes => IntfInfo

/-- `eth1`, `eth2` and `eth3`. -/
def ethName (n : UInt8) : Bytes := [101, 116, 104, 48 + n]

/-- `ROUTER_IP`, for the addresses of the three in `IP_CONFIG`. -/
def routerIp (eth1 eth2 eth3 : Bytes) : AList fun _ : Bytes => Bytes :=
  (((∅ : AList fun _ : Bytes => Bytes).insert (ethName 1) eth1).insert (ethName 2) eth2).insert (ethName 3) eth3

/-- A turn of the loop in `OFHandler.__init__`: the part of the port's name
behind the first `-`, if `ROUTER_IP` knows it. -/
def swInfoStep (routerIp : AList fun _ : Bytes => Bytes) (info : SwInfo) (port : OfPort) : SwInfo :=
  match port.name.splitOn 45 with
  | _ :: intfName :: _ =>
    match routerIp.lookup intfName with
    | some ip => info.insert intfName ⟨ip, port.hwAddr, port.portNo⟩
    | none => info
  | _ => info

/-- `sw_info` for the ports of a switch. -/
def swInfo (routerIp : AList fun _ : Bytes => Bytes) (ports : List OfPort) : SwInfo :=
  ports.foldl (swInfoStep routerIp) ∅

/-- Only names that `ROUTER_IP` knows come up. -/
theorem swInfo_known (routerIp : AList fun _ : Bytes => Bytes) (ports : List OfPort) :
    ∀ name ∈ (swInfo routerIp ports).keys, name ∈ routerIp.keys := by
  unfold swInfo
  induction ports using List.reverseRecOn with
  | nil => simp
  | append_singleton ports port ih =>
    intro name hname
    rw [List.foldl_append, List.foldl_cons, List.foldl_nil] at hname
    unfold swInfoStep at hname
    split at hname
    · split at hname
      · rename_i ip hip
        rw [← AList.mem_keys, AList.mem_insert] at hname
        rcases hname with rfl | hname
        · exact AList.mem_keys.1 (AList.lookup_isSome.1 (by rw [hip]; rfl))
        · exact ih name (AList.mem_keys.1 hname)
      · exact ih name hname
    · exact ih name hname

/-- The event `RouterInfo`. `order` is how `info.keys()` happens to list the keys. -/
structure RouterInfo where
  info : SwInfo
  order : List Bytes
  order_perm : order.Perm info.keys

/-! ## `SRServerListener` -/

structure SRServerListener where
  intfnameToPort : AList fun _ : Bytes => Nat
  portToIntfname : AList fun _ : Nat => Bytes
  /-- Not there before the first `RouterInfo`. -/
  interfaces : Option (List VNSInterface)

/-- What travels between server and client: the type of a message and the rest of it. -/
structure Wire where
  type : UInt32
  body : Bytes
deriving DecidableEq

/-- What a handler of the server does. -/
inductive Reaction where
  | send (w : Wire)
  /-- `SRPacketOut` is raised for the switch; `intf` is the name it was looked up by. -/
  | packetOut (intf frame : Bytes) (port : Nat)
  /-- `"Goodbyte!"`, and the connection is closed. -/
  | goodbye
  | raised
deriving DecidableEq

/-! ## The libraries -/

namespace Wire

/-- A message as it travels: its length and its type, as in `c_base`, and its body. -/
def bytes (w : Wire) : Bytes := be 4 (8 + w.body.length) ++ (be 4 w.type.toNat ++ w.body)

/-- What the class of `VNS_MESSAGES` with that type unpacks from the body;
`VNSHardwareInfo` has no `unpack`. -/
def message (w : Wire) : Option VNSMessage :=
  if w.type = 1 then (VNSOpen.unpack w.body).map .vnsOpen
  else if w.type = 2 then (VNSClose.unpack w.body).map .vnsClose
  else if w.type = 4 then (VNSPacket.unpack w.body).map .vnsPacket
  else if w.type = 8 then (VNSBanner.unpack w.body).map .vnsBanner
  else if w.type = 32 then (VNSRtable.unpack w.body).map .vnsRtable
  else if w.type = 64 then (VNSOpenTemplate.unpack w.body).map .vnsOpenTemplate
  else if w.type = 128 then (VNSAuthRequest.unpack w.body).map .vnsAuthRequest
  else if w.type = 256 then (VNSAuthReply.unpack w.body).map .vnsAuthReply
  else if w.type = 512 then (VNSAuthStatus.unpack w.body).map .vnsAuthStatus
  else none

end Wire

/-- What the server rests on: `ltprotocol`, which frames messages and takes them
apart, and Twisted, which calls the handlers. -/
structure Library where
  /-- What `conn.send` puts on the connection for a message. -/
  frame : Wire → Bytes
  /-- What `_handle_recv_msg` is called with when the bytes of a message have come. -/
  received : Bytes → Option VNSMessage
  /-- Whether the connection is given up after a handler has done that. -/
  drops : Reaction → Bool

/-- `LTProtocol(VNS_MESSAGES, 'I', 'I')` puts the length and the type in front, of 32 bits each. -/
def Library.Frames (lib : Library) : Prop := ∀ w : Wire, 8 + w.body.length < 2 ^ 32 → lib.frame w = w.bytes

/-- What the libraries are documented to do: a message that its class can unpack
is handed over as just that, and a connection is kept that no handler closes and
on which none raises an exception. -/
structure Library.Documented (lib : Library) : Prop where
  frames : lib.Frames
  unpacks : ∀ (w : Wire) m, 8 + w.body.length < 2 ^ 32 → w.message = some m → lib.received w.bytes = some m
  keeps : ∀ r, r ≠ .goodbye → r ≠ .raised → lib.drops r = false

namespace SRServerListener

def init : SRServerListener := ⟨∅, ∅, none⟩

/-- The mask of every interface. -/
def hostMask : Bytes := [50, 53, 53, 46, 50, 53, 53, 46, 50, 53, 53, 46, 50, 53, 53]

/-- An interface as `_handle_RouterInfo` makes it. -/
def interfaceOf (intf : Bytes) (e : IntfInfo) : Option VNSInterface := do
  let ip ← packIp e.ip
  let mac ← packMac e.mac
  let mask ← packIp hostMask
  VNSInterface.new intf mac ip mask

/-- The mapping between port and name, both ways. -/
def map (l : SRServerListener) (intf : Bytes) (port : Nat) : SRServerListener :=
  { l with intfnameToPort := l.intfnameToPort.insert intf port, portToIntfname := l.portToIntfname.insert port intf }

/-- The loop of `_handle_RouterInfo`, with the interfaces so far; what has been
mapped before an exception stays mapped. -/
def routerInfoLoop (info : SwInfo) (l : SRServerListener) (interfaces : List VNSInterface) :
    List Bytes → SRServerListener × Option (List VNSInterface)
  | [] => (l, some interfaces)
  | intf :: intfs =>
    match info.lookup intf with
    | none => (l, none)
    | some e =>
      match interfaceOf intf e with
      | none => (l, none)
      | some i => routerInfoLoop info (l.map intf e.port) (interfaces ++ [i]) intfs

/-- `_handle_RouterInfo`. -/
def handleRouterInfo (l : SRServerListener) (ev : RouterInfo) : SRServerListener :=
  match routerInfoLoop ev.info l [] ev.order with
  | (l, some interfaces) => { l with interfaces := some interfaces }
  | (l, none) => l

/-- `_handle_SRPacketIn`: what is broadcast. -/
def handleSRPacketIn (l : SRServerListener) (port : Nat) (pkt : Bytes) : Option Wire :=
  (l.portToIntfname.lookup port).bind fun intfname => (VNSPacket.pack ⟨intfname, pkt⟩).map (Wire.mk 4)

/-- `_handle_new_client`. -/
def handleNewClient (salt : Bytes) : Wire := ⟨128, salt⟩

/-- `_handle_auth_reply`; `msg` is the text with the connection in it. -/
def handleAuthReply (msg : Bytes) : List Reaction :=
  match VNSAuthStatus.pack ⟨true, msg⟩ with
  | some body => [.send ⟨512, body⟩]
  | none => [.raised]

/-- `_handle_open_msg`, where any exception is caught. -/
def handleOpenMsg (l : SRServerListener) : List Reaction :=
  match l.interfaces.bind packHardwareInfo with
  | some body => [.send ⟨16, body⟩]
  | none => []

/-- `_handle_packet_msg`. For a name that is not in the dictionary the handler
of the `KeyError` uses a variable that has no value. -/
def handlePacketMsg (l : SRServerListener) (m : VNSPacket) : List Reaction :=
  match l.intfnameToPort.lookup m.intfName with
  | some outPort => [.packetOut m.intfName m.ethernetFrame outPort]
  | none => [.raised]

/-- `_handle_recv_msg`; there is no `_handle_open_template_msg`. -/
def handleRecvMsg (l : SRServerListener) (msg : Bytes) : Option VNSMessage → List Reaction
  | none => [.goodbye]
  | some (.vnsAuthReply _) => handleAuthReply msg
  | some (.vnsOpen _) => l.handleOpenMsg
  | some (.vnsClose _) => [.goodbye]
  | some (.vnsPacket m) => l.handlePacketMsg m
  | some (.vnsOpenTemplate _) => [.raised]
  | some _ => []

/-! ## The dictionaries -/

/-- The names that have a port. -/
def Names (l : SRServerListener) (name : Bytes) : Prop := name ∈ l.intfnameToPort

/-- Every name of a port and of an interface has a port. -/
structure Consistent (l : SRServerListener) : Prop where
  port : ∀ p name, l.portToIntfname.lookup p = some name → l.Names name
  interface : ∀ ifs, l.interfaces = some ifs → ∀ i ∈ ifs, l.Names i.name

theorem init_consistent : init.Consistent where
  port p name h := by rw [init, AList.lookup_empty] at h; cases h
  interface ifs h := by cases h

theorem map_names {l : SRServerListener} {intf name : Bytes} (port : Nat) (h : l.Names name) : (l.map intf port).Names name := by
  unfold Names map
  rw [AList.mem_insert]
  exact .inr h

theorem Consistent.map {l : SRServerListener} (h : l.Consistent) (intf : Bytes) (port : Nat) :
    (l.map intf port).Consistent where
  port p name hp := by
    by_cases hpp : p = port
    · subst hpp
      simp only [SRServerListener.map, AList.lookup_insert, Option.some.injEq] at hp
      unfold Names SRServerListener.map
      rw [AList.mem_insert]
      exact .inl hp.symm
    · simp only [SRServerListener.map, AList.lookup_insert_ne hpp] at hp
      exact map_names port (h.port p name hp)
  interface ifs hi i hmem := map_names port (h.interface ifs hi i hmem)

theorem VNSInterface.new_name {name mac ip mask : Bytes} {i : VNSInterface} (h : VNSInterface.new name mac ip mask = some i) :
    i.name = name := by
  unfold VNSInterface.new at h
  split at h
  · cases h
    rfl
  · cases h

theorem interfaceOf_name {intf : Bytes} {e : IntfInfo} {i : VNSInterface} (h : interfaceOf intf e = some i) : i.name = intf := by
  simp only [interfaceOf, Option.bind_eq_bind, Option.bind_eq_some_iff] at h
  obtain ⟨ip, -, mac, -, mask, -, hnew⟩ := h
  exact VNSInterface.new_name hnew

/-- A turn of the loop maps the name of the interface it makes. -/
theorem routerInfoLoop_consistent (info : SwInfo) {l : SRServerListener} (h : l.Consistent) {interfaces : List VNSInterface}
    (hi : ∀ i ∈ interfaces, l.Names i.name) (order : List Bytes) :
    (routerInfoLoop info l interfaces order).1.Consistent ∧
    (∀ name, l.Names name → (routerInfoLoop info l interfaces order).1.Names name) ∧
    ∀ ifs, (routerInfoLoop info l interfaces order).2 = some ifs →
      ∀ i ∈ ifs, (routerInfoLoop info l interfaces order).1.Names i.name := by
  induction order generalizing l interfaces with
  | nil =>
    refine ⟨h, fun _ hn => hn, ?_⟩
    rintro ifs hifs
    cases hifs
    exact hi
  | cons intf intfs ih =>
    rw [routerInfoLoop]
    cases info.lookup intf with
    | none => exact ⟨h, fun _ hn => hn, fun ifs hifs => by cases hifs⟩
    | some e =>
      cases hiface : interfaceOf intf e with
      | none => simpa only [hiface] using And.intro h ⟨fun _ hn => hn, fun ifs hifs => by cases hifs⟩
      | some i =>
        have hnew : ∀ j ∈ interfaces ++ [i], (l.map intf e.port).Names j.name := by
          intro j hj
          rcases List.mem_append.1 hj with hj | hj
          · exact map_names _ (hi j hj)
          · obtain rfl := List.mem_singleton.1 hj
            rw [interfaceOf_name hiface]
            unfold Names SRServerListener.map
            rw [AList.mem_insert]
            exact .inl rfl
        obtain ⟨h1, h2, h3⟩ := ih (h.map intf e.port) hnew
        simp only [hiface]
        exact ⟨h1, fun name hn => h2 name (map_names _ hn), h3⟩

/-- All names of ports are among `names`, and no two interfaces go by the same one. -/
structure Within (names : List Bytes) (l : SRServerListener) : Prop where
  name : ∀ name, l.Names name → name ∈ names
  distinct : ∀ ifs, l.interfaces = some ifs → (ifs.map (·.name)).Nodup

theorem init_within (names : List Bytes) : init.Within names where
  name name h := absurd h (AList.notMem_empty name)
  distinct ifs h := by cases h

/-- The interfaces there are number no more than the names. -/
theorem Within.length_le {names : List Bytes} {l : SRServerListener} (h : l.Within names) (hc : l.Consistent)
    {ifs : List VNSInterface} (hifs : l.interfaces = some ifs) : ifs.length ≤ names.length := by
  have hsub : ifs.map (·.name) ⊆ names := by
    intro name hname
    obtain ⟨i, hi, rfl⟩ := List.mem_map.1 hname
    exact h.name i.name (hc.interface ifs hifs i hi)
  have hle := (List.subperm_of_subset (h.distinct ifs hifs) hsub).length_le
  rwa [List.length_map] at hle

/-- The loop goes through `order`: each name makes an interface and gets a port. -/
theorem routerInfoLoop_order (info : SwInfo) (l : SRServerListener) (interfaces : List VNSInterface) (order : List Bytes) :
    (∀ name, (routerInfoLoop info l interfaces order).1.Names name → l.Names name ∨ name ∈ order) ∧
    (routerInfoLoop info l interfaces order).1.interfaces = l.interfaces ∧
    ∀ ifs, (routerInfoLoop info l interfaces order).2 = some ifs → ifs.map (·.name) = interfaces.map (·.name) ++ order := by
  induction order generalizing l interfaces with
  | nil =>
    refine ⟨fun _ hn => .inl hn, rfl, ?_⟩
    rintro ifs hifs
    cases hifs
    rw [List.append_nil]
  | cons intf intfs ih =>
    rw [routerInfoLoop]
    cases info.lookup intf with
    | none => exact ⟨fun _ hn => .inl hn, rfl, fun ifs hifs => by cases hifs⟩
    | some e =>
      cases hiface : interfaceOf intf e with
      | none => simpa only [hiface] using ⟨fun _ hn => .inl hn, trivial, fun ifs hifs => by cases hifs⟩
      | some i =>
        obtain ⟨h1, h2, h3⟩ := ih (l.map intf e.port) (interfaces ++ [i])
        simp only [hiface]
        refine ⟨?_, h2, ?_⟩
        · intro name hn
          rcases h1 name hn with hn | hn
          · unfold Names SRServerListener.map at hn
            rw [AList.mem_insert] at hn
            rcases hn with rfl | hn
            · exact .inr List.mem_cons_self
            · exact .inl hn
          · exact .inr (List.mem_cons_of_mem _ hn)
        · intro ifs hifs
          rw [h3 ifs hifs, List.map_append, List.append_assoc, List.map_singleton, interfaceOf_name hiface, List.singleton_append]

theorem Within.handleRouterInfo {names : List Bytes} {l : SRServerListener} (h : l.Within names) (ev : RouterInfo)
    (hev : ∀ name ∈ ev.info.keys, name ∈ names) : (l.handleRouterInfo ev).Within names := by
  obtain ⟨h1, h2, h3⟩ := routerInfoLoop_order ev.info l [] ev.order
  have hname : ∀ name, (routerInfoLoop ev.info l [] ev.order).1.Names name → name ∈ names := by
    intro name hn
    rcases h1 name hn with hn | hn
    · exact h.name name hn
    · exact hev name (ev.order_perm.subset hn)
  unfold SRServerListener.handleRouterInfo
  cases hl : routerInfoLoop ev.info l [] ev.order with
  | mk l' ifs =>
    rw [hl] at h2 h3 hname
    cases ifs with
    | none => exact ⟨hname, fun ifs hifs => h.distinct ifs (h2.symm.trans hifs)⟩
    | some ifs =>
      refine ⟨hname, ?_⟩
      rintro ifs' hifs'
      cases hifs'
      rw [h3 ifs rfl, List.map_nil, List.nil_append]
      exact ev.order_perm.nodup_iff.2 ev.info.keys_nodup

/-- `_handle_RouterInfo` keeps the dictionaries consistent, and forgets no name. -/
theorem handleRouterInfo_consistent {l : SRServerListener} (h : l.Consistent) (ev : RouterInfo) :
    (l.handleRouterInfo ev).Consistent ∧ ∀ name, l.Names name → (l.handleRouterInfo ev).Names name := by
  obtain ⟨h1, h2, h3⟩ := @routerInfoLoop_consistent ev.info l h [] (by simp) ev.order
  unfold handleRouterInfo
  cases hl : routerInfoLoop ev.info l [] ev.order with
  | mk l' ifs =>
    rw [hl] at h1 h2 h3
    cases ifs with
    | none => exact ⟨h1, h2⟩
    | some ifs => exact ⟨⟨h1.port, fun ifs' hifs' => by cases hifs'; exact h3 ifs rfl⟩, h2⟩

end SRServerListener

end SimpleRouter
