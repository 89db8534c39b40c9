import SimpleRouter.Checksum
import SimpleRouter.Tables
import SimpleRouter.ArpCache
/-!
# Packet handling

`sr_send_packet` of `sr_vns_comm.c` and the handlers of `sr_router.c`, statement
by statement. A frame arrives in a lent buffer (`packet`); every load and store
goes through the logged primitives of `CProg`.

Both `forward_ip_packet` and `send_icmp_t3` end a cache miss with the same five
lines, run after `sr_arpcache_queuereq` has released the lock: they test
`req->times_sent`, send the first ARP request and write `req->sent` and
`req->times_sent`. These lines are `Miss.test`, `Miss.transmit` and
`Miss.mark`; the two functions return the `Miss` they apply to.
-/
open Memory CProg

namespace SimpleRouter

/-- What a step that handles a frame finds around it: its number, what
`time(NULL)` returns, and the memory behind freshly allocated buffers. -/
structure Env where
  seq : Nat
  now : Int
  heap : Mem

/-- A cache miss whose packet is queued: the request returned by
`sr_arpcache_queuereq`, the next hop and the outgoing interface. -/
structure Miss where
  req : Nat
  nextHop : UInt32
  iface : IfName
deriving DecidableEq

/-! ## Sending -/

/-- `sr_ether_addrs_match_interface`. -/
def srEtherAddrsMatchInterface (buf : Buf) (name : IfName) : RouterM Bool := do
  let sr ← get
  match srGetInterface sr.ifList name with
  | none => pure false
  | some iface => do
    let shost ← loadBytes buf 6 6
    pure (shost = iface.addr.bytes)

/-- `sr_send_packet`; the write to the server is taken to succeed. -/
def srSendPacket (site : Site) (buf : Buf) (iface : IfName) : RouterM Unit := do
  if buf.size < ethLen then act (.reject site iface buf.bytes)
  else do
    let frame ← loadBytes buf 0 buf.size
    let ok ← srEtherAddrsMatchInterface buf iface
    if ok then act (.send site iface frame) else act (.reject site iface frame)

/-! ## Header fields -/

def loadIpHl (b : Buf) : RouterM Nat := do
  let _ ← load8 b 14
  pure (ipHl b.mem)

/-- `ip_v = v`, the high four bits of the byte. -/
def storeIpV (b : Buf) (v : UInt8) : RouterM Buf := do
  let old ← load8 b 14
  store8 b 14 ((old &&& (0x0F : UInt8)) ||| (v <<< 4))

/-- `ip_hl = v`, the low four bits of the byte. -/
def storeIpHl (b : Buf) (v : UInt8) : RouterM Buf := do
  let old ← load8 b 14
  store8 b 14 ((old &&& (0xF0 : UInt8)) ||| (v &&& (0x0F : UInt8)))

def loadMac (b : Buf) (off : Nat) : RouterM Mac := do
  touch b off 6
  pure (.ofMem b.mem off)

/-- `htons(ip_checksum(b + off, len))`, as every caller in `sr_router.c` stores
it. `len` is an `int` there; frames are far shorter than `2^31` bytes. -/
def htonsIpChecksum (b : Buf) (off len : Nat) : RouterM UInt16 := do
  touch b off len
  pure (swap16 (ipChecksum b.mem off len))

/-- The Ethernet source and type, and with `dhost` the destination too. -/
def storeEth (b : Buf) (dhost : Option Mac) (shost : Mac) : RouterM Buf := do
  let b ← match dhost with
    | some d => storeBytes b 0 d.bytes
    | none => pure b
  let b ← storeBytes b 6 shost.bytes
  store16 b 12 (swap16 ethertypeIp)

/-! ## ARP frames -/

/-- The 42 bytes of an ARP frame from `iface`, as `send_arp_request`,
`send_arp_reply` and `send_arp_request_for_req` fill them in. -/
def fillArp (b : Buf) (iface : SrIf) (dhost : Mac) (op : UInt16) (tha : Mac) (tip : UInt32) : RouterM Buf := do
  let b ← storeBytes b 0 dhost.bytes
  let b ← storeBytes b 6 iface.addr.bytes
  let b ← store16 b 12 (swap16 ethertypeArp)
  let b ← store16 b 14 (swap16 arpHrdEthernet)
  let b ← store16 b 16 (swap16 ethertypeIp)
  let b ← store8 b 18 6
  let b ← store8 b 19 4
  let b ← store16 b 20 (swap16 op)
  let b ← storeBytes b 22 iface.addr.bytes
  let b ← store32 b 28 iface.ip
  let b ← storeBytes b 32 tha.bytes
  store32 b 38 tip

/-- `send_arp_request`. -/
def sendArpRequest (site : Site) (heap : Mem) (tip : UInt32) (interface : IfName) : RouterM Unit := do
  let sr ← get
  match srGetInterface sr.ifList interface with
  | none => pure ()
  | some iface => do
    let packet ← fillArp ⟨ethLen + arpLen, heap⟩ iface .broadcast arpOpRequest .zero tip
    srSendPacket site packet interface

/-- `send_arp_reply`. -/
def sendArpReply (env : Env) (packet : Buf) (interface : IfName) : RouterM Unit := do
  let tip ← load32 packet 38
  let sr ← get
  match srGetInterfaceByIp sr.ifList tip with
  | none => pure ()
  | some iface => do
    let shost ← loadMac packet 6
    let sha ← loadMac packet 22
    let sip ← load32 packet 28
    let reply ← fillArp ⟨ethLen + arpLen, env.heap⟩ iface shost arpOpReply sha sip
    srSendPacket (.arpReply env.seq) reply interface

/-- The loop of `handle_arp_packet` over the packets of an answered request. -/
def flushLoop (env : Env) (sha : Mac) : List SrPacket → RouterM Unit
  | [] => pure ()
  | pkt :: pkts => do
    let sr ← get
    match srGetInterface sr.ifList pkt.iface with
    -- `out_iface->addr` is read without a check
    | none => act (.fault .nullDeref)
    | some outIface => do
      let buf ← storeEth (.ofBytes pkt.buf env.heap) (some sha) outIface.addr
      srSendPacket (.flushed pkt.origin) buf pkt.iface
      flushLoop env sha pkts

/-- `handle_arp_packet`. -/
def handleArpPacket (env : Env) (packet : Buf) (interface : IfName) : RouterM Unit := do
  if packet.size < ethLen + arpLen then pure ()
  else do
    let op ← load16 packet 20
    if swap16 op = arpOpRequest then do
      let tip ← load32 packet 38
      let sr ← get
      if (srGetInterfaceByIp sr.ifList tip).isSome then sendArpReply env packet interface
      else pure ()
    else if swap16 op = arpOpReply then do
      let sha ← loadMac packet 22
      let sip ← load32 packet 28
      let sr ← get
      modify fun sr => { sr with cache := (srArpcacheInsert env.now sr.cache sha sip).1 }
      match (srArpcacheInsert env.now sr.cache sha sip).2 with
      | none => pure ()
      | some req => do
        flushLoop env sha req.packets
        modify fun sr => { sr with cache := srArpreqDestroy sr.cache req.ptr }
    else pure ()

/-! ## ICMP -/

/-- The IP and ICMP header of an ICMP error about the packet in `orig`, with
the checksum routines of the two builders (`send_icmp_t3` and
`send_icmp_host_unreachable`) as parameters. -/
def fillIcmpError (ipSum icmpSum : Buf → RouterM UInt16) (orig reply : Buf) (src : UInt32) (type code : UInt8) :
    RouterM Buf := do
  let reply ← storeIpV reply 4
  let reply ← storeIpHl reply 5
  let reply ← store8 reply 15 0
  let reply ← store16 reply 16 (swap16 (.ofNat (ipLen + icmpT3Len)))
  let reply ← store16 reply 18 0
  let reply ← store16 reply 20 0
  let reply ← store8 reply 22 64
  let reply ← store8 reply 23 ipProtocolIcmp
  let reply ← store32 reply 26 src
  let dst ← load32 orig 26
  let reply ← store32 reply 30 dst
  let reply ← store16 reply 24 0
  let sum ← ipSum reply
  let reply ← store16 reply 24 sum
  let reply ← store8 reply 34 type
  let reply ← store8 reply 35 code
  let reply ← store16 reply 38 0
  let reply ← store16 reply 40 0
  let data ← loadBytes orig 14 icmpDataSize
  let reply ← storeBytes reply 42 data
  let reply ← store16 reply 36 0
  let sum ← icmpSum reply
  store16 reply 36 sum

/-- `send_icmp_echo_reply`. -/
def sendIcmpEchoReply (env : Env) (packet : Buf) (interface : IfName) : RouterM Unit := do
  let _ ← loadBytes packet 0 packet.size
  let sr ← get
  match srGetInterface sr.ifList interface with
  -- `iface->addr` is read without a check
  | none => act (.fault .nullDeref)
  | some iface => do
    let shost ← loadMac packet 6
    let reply ← storeBytes (packet.copy env.heap) 0 shost.bytes
    let reply ← storeBytes reply 6 iface.addr.bytes
    let tmpIp ← load32 reply 26
    let dst ← load32 reply 30
    let reply ← store32 reply 26 dst
    let reply ← store32 reply 30 tmpIp
    let reply ← store8 reply 22 64
    let reply ← store16 reply 24 0
    let hl ← loadIpHl reply
    let sum ← htonsIpChecksum reply 14 (hl * 4)
    let reply ← store16 reply 24 sum
    let reply ← store8 reply 34 0
    let reply ← store8 reply 35 0
    let reply ← store16 reply 36 0
    let sum ← htonsIpChecksum reply 34 (packet.size - ethLen - ipLen)
    let reply ← store16 reply 36 sum
    srSendPacket (.echoReply env.seq) reply interface

/-- `sr_arpcache_queuereq` on the packet in `buf`, copied into the queue. -/
def queuereq (env : Env) (ip : UInt32) (buf : Buf) (iface : IfName) (o : Origin) : RouterM Nat := do
  let bytes ← loadBytes buf 0 buf.size
  let sr ← get
  modify fun sr => { sr with cache := (srArpcacheQueuereq env.seq sr.cache ip ⟨bytes, iface, o⟩).1 }
  pure (srArpcacheQueuereq env.seq sr.cache ip ⟨bytes, iface, o⟩).2

/-- `send_icmp_t3`, up to the queueing of a miss. -/
def sendIcmpT3 (env : Env) (packet : Buf) (type code : UInt8) : RouterM (Option Miss) := do
  let src ← load32 packet 26
  let sr ← get
  match lpmLookup sr.routingTable src with
  | none => pure none
  | some rt =>
    match srGetInterface sr.ifList rt.interface with
    | none => pure none
    | some outIface => do
      let reply ← fillIcmpError
        (fun b => do
          let hl ← loadIpHl b
          htonsIpChecksum b 14 (hl * 4))
        (fun b => htonsIpChecksum b 34 icmpT3Len)
        packet (.zeroed (ethLen + ipLen + icmpT3Len) env.heap) outIface.ip type code
      act (.build (.direct (.icmpError env.seq)) reply.bytes)
      match srArpcacheLookup sr.cache (nextHop rt src) with
      | some entry => do
        let reply ← storeEth reply (some entry.mac) outIface.addr
        srSendPacket (.direct (.icmpError env.seq)) reply outIface.name
        pure none
      | none => do
        let reply ← storeEth reply none outIface.addr
        let req ← queuereq env (nextHop rt src) reply outIface.name (.icmpError env.seq)
        pure (some ⟨req, nextHop rt src, outIface.name⟩)

/-! ## IP -/

/-- `forward_ip_packet`, up to the queueing of a miss. -/
def forwardIpPacket (env : Env) (packet : Buf) : RouterM (Option Miss) := do
  let ttl ← load8 packet 22
  if ttl ≤ 1 then sendIcmpT3 env packet 11 0
  else do
    let packet ← store8 packet 22 (ttl - 1)
    let packet ← store16 packet 24 0
    let hl ← loadIpHl packet
    let sum ← htonsIpChecksum packet 14 (hl * 4)
    let packet ← store16 packet 24 sum
    let dst ← load32 packet 30
    let sr ← get
    match lpmLookup sr.routingTable dst with
    | none => sendIcmpT3 env packet 3 0
    | some rt =>
      match srGetInterface sr.ifList rt.interface with
      | none => pure none
      | some outIface =>
        match srArpcacheLookup sr.cache (nextHop rt dst) with
        | some entry => do
          let packet ← storeEth packet (some entry.mac) outIface.addr
          srSendPacket (.direct (.forwarded env.seq)) packet outIface.name
          pure none
        | none => do
          let _ ← loadBytes packet 0 packet.size
          let copy ← storeEth (packet.copy env.heap) none outIface.addr
          let req ← queuereq env (nextHop rt dst) copy outIface.name (.forwarded env.seq)
          pure (some ⟨req, nextHop rt dst, outIface.name⟩)

/-- `handle_ip_packet`; the header fields it prints are read first. -/
def handleIpPacket (env : Env) (packet : Buf) (interface : IfName) : RouterM (Option Miss) := do
  if packet.size < ethLen + ipLen then pure none
  else do
    touch packet 14 ipLen
    let dst ← load32 packet 30
    let sr ← get
    if (srGetInterfaceByIp sr.ifList dst).isSome then do
      let p ← load8 packet 23
      if p = ipProtocolIcmp then do
        let type ← load8 packet 34
        if type = 8 then do
          sendIcmpEchoReply env packet interface
          pure none
        else pure none
      else sendIcmpT3 env packet 3 3
    else forwardIpPacket env packet

/-! ## The first ARP request of a miss -/

/-- `req->times_sent == 0`. -/
def Miss.test (m : Miss) : RouterM Bool := do
  let sr ← get
  match derefReq m.req sr.cache.requests with
  | none => do
    act (.fault (.dangling m.req))
    pure false
  | some r => pure (r.timesSent = 0)

def Miss.transmit (m : Miss) (now : Int) (heap : Mem) : RouterM Unit :=
  sendArpRequest (.arpRequest m.req now) heap m.nextHop m.iface

/-- `req->sent = time(NULL); req->times_sent = 1;`. -/
def Miss.mark (m : Miss) (now : Int) : RouterM Unit := do
  let sr ← get
  match derefReq m.req sr.cache.requests with
  | none => act (.fault (.dangling m.req))
  | some _ => modify (·.updReq m.req fun r => { r with sent := now, timesSent := 1 })

/-- The five lines after `sr_arpcache_queuereq`, with no sweep in between. -/
def Miss.finish (m : Miss) (env : Env) : RouterM Unit := do
  let first ← m.test
  if first then do
    m.transmit env.now env.heap
    m.mark env.now
  else pure ()

/-- `sr_handlepacket` up to the queueing of a miss. -/
def handleUntilMiss (env : Env) (packet : Buf) (interface : IfName) : RouterM (Option Miss) := do
  if packet.size < ethLen then pure none
  else do
    let type ← load16 packet 12
    if swap16 type = ethertypeArp then do
      handleArpPacket env packet interface
      pure none
    else if swap16 type = ethertypeIp then handleIpPacket env packet interface
    else pure none

/-- `sr_handlepacket`. -/
def srHandlepacket (env : Env) (packet : Buf) (interface : IfName) : RouterM Unit := do
  let miss ← handleUntilMiss env packet interface
  match miss with
  | none => pure ()
  | some m => m.finish env

end SimpleRouter
