import SimpleRouter.Lib.CProg
/-!
# The router's data

The structures of `sr_if.h`, `sr_rt.h`, `sr_arpcache.h` and `sr_router.h`, and
the offsets of `sr_protocol.h`. Addresses are 32-bit values in network byte
order, as the code holds them. Linked lists are lists; a request keeps the
address of its node (`ptr`), since `sr_arpreq_destroy` and the sweep compare
and follow pointers. Times are `time_t` seconds.

Two things here are read by no code. `Origin` says which received frame a
queued packet stands for, and `Act` records what the router does together
with the place in the code that does it, so that theorems can speak of "the
packet" and "this request's ARP requests".
-/
open Memory CProg

namespace SimpleRouter

/-! ## Names and addresses -/

/-- An interface name as `strncmp(.., sr_IFACE_NAMELEN)` sees it: the bytes
before the first NUL, at most 32 of them. -/
structure IfName where
  chars : List UInt8
  noNul : 0 ∉ chars
  size_le : chars.length ≤ 32
deriving DecidableEq

/-- An Ethernet address: `ETHER_ADDR_LEN` bytes. -/
structure Mac where
  bytes : List UInt8
  size_eq : bytes.length = 6
deriving DecidableEq

@[simp] theorem Mac.length_bytes (a : Mac) : a.bytes.length = 6 := a.size_eq

/-- The six bytes at `off`. -/
def Mac.ofMem (m : Mem) (off : Nat) : Mac := ⟨m.slice off 6, by simp⟩

theorem Mac.ofMem_congr {m m' : Mem} {off off' : Nat} (h : ∀ k, k < 6 → m (off + k) = m' (off' + k)) :
    Mac.ofMem m off = Mac.ofMem m' off' := by
  unfold Mac.ofMem
  congr 1
  exact List.map_congr_left fun k hk => h k (List.mem_range.1 hk)

def Mac.zero : Mac := ⟨List.replicate 6 0, by simp⟩

def Mac.broadcast : Mac := ⟨List.replicate 6 0xFF, by simp⟩

/-! ## Interfaces and routes -/

/-- `struct sr_if`. -/
structure SrIf where
  name : IfName
  addr : Mac
  ip : UInt32
deriving DecidableEq

/-- `struct sr_rt`. -/
structure SrRt where
  dest : UInt32
  gw : UInt32
  mask : UInt32
  interface : IfName
deriving DecidableEq

/-! ## The ARP cache -/

/-- What a packet waiting in the queue stands for: the frame received by step
`n`, being forwarded, or the ICMP error `send_icmp_t3` built in step `n`. -/
inductive Origin where
  | forwarded (n : Nat)
  | icmpError (n : Nat)
deriving DecidableEq

/-- The step the packet comes from. -/
def Origin.seq : Origin → Nat
  | .forwarded n => n
  | .icmpError n => n

/-- `struct sr_packet`; `len` is the length of `buf`. -/
structure SrPacket where
  buf : List UInt8
  iface : IfName
  origin : Origin
deriving DecidableEq

/-- `struct sr_arpentry`. -/
structure SrArpentry where
  mac : Mac
  ip : UInt32
  added : Int
  valid : Bool
deriving DecidableEq

/-- `struct sr_arpreq`, at address `ptr`. -/
structure SrArpreq where
  ptr : Nat
  ip : UInt32
  sent : Int
  timesSent : Nat
  packets : List SrPacket
deriving DecidableEq

/-- `SR_ARPCACHE_SZ`. -/
abbrev arpcacheSz : Nat := 100

/-- `SR_ARPCACHE_TO`, in seconds. -/
abbrev arpcacheTo : Int := 15

/-- The entry table: exactly `SR_ARPCACHE_SZ` slots. -/
structure ArpTable where
  slots : List SrArpentry
  size_eq : slots.length = arpcacheSz
deriving DecidableEq

/-- `struct sr_arpcache`, its lock apart. -/
structure SrArpcache where
  entries : ArpTable
  requests : List SrArpreq
deriving DecidableEq

/-- `struct sr_instance`: what packet handling reads of it. -/
structure SrInstance where
  ifList : List SrIf
  routingTable : List SrRt
  cache : SrArpcache
deriving DecidableEq

/-! ## What the router does -/

/-- The code a frame was built or sent by. -/
inductive Site where
  | arpReply (n : Nat)
  | echoReply (n : Nat)
  /-- An ARP request for the request node `req`, at clock reading `t`. -/
  | arpRequest (req : Nat) (t : Int)
  /-- Sent in the step that received or built it. -/
  | direct (o : Origin)
  /-- Sent from the queue when an ARP reply came in. -/
  | flushed (o : Origin)
  /-- `send_icmp_host_unreachable`, for a packet of the request node `req`. -/
  | hostUnreachable (o : Origin) (req : Nat)
deriving DecidableEq

/-- What a C program can go wrong by. -/
inductive Fault where
  | nullDeref
  | dangling (ptr : Nat)
  /-- An `assert` that stops the program. -/
  | assertion
deriving DecidableEq

inductive Act where
  /-- A frame handed to the server for interface `iface`. -/
  | send (site : Site) (iface : IfName) (frame : List UInt8)
  /-- A frame `sr_send_packet` was called with and did not send. -/
  | reject (site : Site) (iface : IfName) (frame : List UInt8)
  /-- An ICMP error message, completed up to its Ethernet header. -/
  | build (site : Site) (frame : List UInt8)
  /-- The sweep at clock reading `t` gives up on `req`. -/
  | fail (req : SrArpreq) (t : Int)
  | fault (why : Fault)
deriving DecidableEq

/-- Packet handling code: state, actions and memory accesses. -/
abbrev RouterM := Prog SrInstance Act

/-! ## Fields of a frame

Offsets are from the start of the frame: the Ethernet header is at 0, the IP
or ARP header at 14, the ICMP header where the code looks for it, at 34. -/

def ethertypeIp : UInt16 := 0x0800
def ethertypeArp : UInt16 := 0x0806
def arpHrdEthernet : UInt16 := 0x0001
def arpOpRequest : UInt16 := 0x0001
def arpOpReply : UInt16 := 0x0002
def ipProtocolIcmp : UInt8 := 0x01

/-- `sizeof(sr_ethernet_hdr_t)`. -/
@[simp] abbrev ethLen : Nat := 14
/-- `sizeof(sr_ip_hdr_t)`. -/
@[simp] abbrev ipLen : Nat := 20
/-- `sizeof(sr_arp_hdr_t)`. -/
@[simp] abbrev arpLen : Nat := 28
/-- `sizeof(sr_icmp_t3_hdr_t)`. -/
@[simp] abbrev icmpT3Len : Nat := 36
/-- `ICMP_DATA_SIZE`. -/
@[simp] abbrev icmpDataSize : Nat := 28

/-- The host-order ethertype. -/
def etherType (m : Mem) : UInt16 := swap16 (m.u16 12)

/-- `ip_hl`, the low four bits of the first header byte on this host. -/
def ipHl (m : Mem) : Nat := (m 14 &&& 0x0F).toNat
/-- `ip_v`, the high four bits of that byte. -/
def ipV (m : Mem) : Nat := (m 14 >>> 4).toNat
/-- `ntohs(ip_len)`. -/
def ipTotal (m : Mem) : Nat := (swap16 (m.u16 16)).toNat
def ipTtl (m : Mem) : UInt8 := m 22
def ipP (m : Mem) : UInt8 := m 23
def ipSrc (m : Mem) : UInt32 := m.u32 26
def ipDst (m : Mem) : UInt32 := m.u32 30

def arOp (m : Mem) : UInt16 := swap16 (m.u16 20)
def arSha (m : Mem) : Mac := .ofMem m 22
def arSip (m : Mem) : UInt32 := m.u32 28
def arTip (m : Mem) : UInt32 := m.u32 38

/-! ## Fields of bytes -/

theorem etherType_ofBytes {bytes : List UInt8} (h : 14 ≤ bytes.length) (past : Mem) :
    etherType (Buf.ofBytes bytes past).mem = etherType (memOf bytes) := congrArg swap16 (ofBytes_u16 (by omega))

theorem etherType_bytes {packet : Buf} (h : 14 ≤ packet.size) : etherType (memOf packet.bytes) = etherType packet.mem :=
  congrArg swap16 (Mem.u16_congr (memOf_bytes packet 12 (by omega)) (memOf_bytes packet 13 (by omega)))

end SimpleRouter
