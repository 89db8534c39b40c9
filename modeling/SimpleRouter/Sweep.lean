import SimpleRouter.Router
/-!
# The sweeper

One locked pass of `sr_arpcache_timeout`: expiry of entries, then
`sr_arpcache_sweepreqs` with `handle_arpreq` on each pending request. The walk
follows `next` pointers saved before a request is handled, over a list that
`handle_arpreq` unlinks nodes from, and is written that way here.
-/
open Memory CProg

namespace SimpleRouter

/-- What a pass finds around it: `clock k` is the `k`th result of
`time(NULL)` in the pass, `past n` the memory behind the queued copy of the
packet from step `n`. -/
structure SweepEnv where
  clock : Nat → Int
  past : Nat → Mem
  heap : Mem

/-- `send_arp_request_for_req`, at clock reading `now`. -/
def sendArpRequestForReq (env : SweepEnv) (now : Int) (req : SrArpreq) : RouterM Unit :=
  match req.packets with
  | [] => pure ()
  | pkt :: _ => do
    let sr ← get
    match srGetInterface sr.ifList pkt.iface with
    | none => pure ()
    | some iface => do
      let arpReq ← fillArp ⟨ethLen + arpLen, env.heap⟩ iface .broadcast arpOpRequest .zero req.ip
      srSendPacket (.arpRequest req.ptr now) arpReq iface.name

/-- `cksum(b + off, len)`. -/
def cksumOf (b : Buf) (off len : Nat) : RouterM UInt16 := do
  touch b off len
  pure (cksum b.mem off len)

/-- The body of the loop of `send_icmp_host_unreachable`. -/
def hostUnreachable (env : SweepEnv) (req : Nat) (pkt : SrPacket) : RouterM Unit := do
  let orig := Buf.ofBytes pkt.buf (env.past pkt.origin.seq)
  let sr ← get
  match srGetInterface sr.ifList pkt.iface with
  | none => pure ()
  | some outIface => do
    let icmpPkt ← fillIcmpError (fun b => cksumOf b 14 ipLen) (fun b => cksumOf b 34 icmpT3Len)
      orig (.zeroed (ethLen + ipLen + icmpT3Len) env.heap) outIface.ip 3 1
    act (.build (.hostUnreachable pkt.origin req) icmpPkt.bytes)
    let src ← load32 orig 26
    match lpmLookup sr.routingTable src with
    | none => pure ()
    | some best =>
      match srGetInterface sr.ifList best.interface with
      | none => pure ()
      | some sendIface =>
        match srArpcacheLookup sr.cache (nextHop best src) with
        | some entry => do
          let icmpPkt ← storeEth icmpPkt (some entry.mac) sendIface.addr
          srSendPacket (.hostUnreachable pkt.origin req) icmpPkt sendIface.name
        -- the message is freed, not queued
        | none => pure ()

/-- `send_icmp_host_unreachable`. -/
def sendIcmpHostUnreachable (env : SweepEnv) (req : Nat) : List SrPacket → RouterM Unit
  | [] => pure ()
  | pkt :: pkts => do
    hostUnreachable env req pkt
    sendIcmpHostUnreachable env req pkts

/-- `handle_arpreq`, whose `time(NULL)` returns `now`. -/
def handleArpreq (env : SweepEnv) (now : Int) (req : SrArpreq) : RouterM Unit := do
  if now - req.sent ≥ 1 then
    if req.timesSent ≥ 5 then do
      sendIcmpHostUnreachable env req.ptr req.packets
      act (.fail req now)
      modify fun sr => { sr with cache := srArpreqDestroy sr.cache req.ptr }
    else do
      sendArpRequestForReq env now req
      modify (·.updReq req.ptr fun r => { r with sent := now, timesSent := r.timesSent + 1 })
  else pure ()

/-- The loop of `sr_arpcache_sweepreqs`, standing at `req` with `fuel` nodes
left to visit; the request it is at is the `k`th one it visits. -/
def sweepLoop (env : SweepEnv) : Nat → Nat → Option Nat → RouterM Unit
  | _, _, none => pure ()
  | 0, _, some ptr => act (.fault (.dangling ptr))
  | fuel + 1, k, some ptr => do
    let sr ← get
    match derefReq ptr sr.cache.requests with
    | none => act (.fault (.dangling ptr))
    | some req => do
      let next := nextReq ptr sr.cache.requests
      handleArpreq env (env.clock (k + 1)) req
      sweepLoop env fuel (k + 1) next

/-- `sr_arpcache_sweepreqs`. -/
def srArpcacheSweepreqs (env : SweepEnv) : RouterM Unit := do
  let sr ← get
  sweepLoop env sr.cache.requests.length 0 (sr.cache.requests.head?.map (·.ptr))

/-- One locked pass of `sr_arpcache_timeout`. -/
def srArpcacheTimeout (env : SweepEnv) : RouterM Unit := do
  modify fun sr => { sr with cache := { sr.cache with entries := expireEntries (env.clock 0) sr.cache.entries } }
  srArpcacheSweepreqs env

end SimpleRouter
