import SimpleRouter.Lib.Runs
import SimpleRouter.Sweep
/-!
# The router as a system

An event is a received frame or a sweep; each is one atomic step. What the
code reads past the end of a buffer, and what the clock shows, is part of the
event and arbitrary. A router starts with an empty ARP cache and queue.
-/
open Memory CProg Runs

namespace SimpleRouter

inductive Event where
  /-- `sr_handlepacket` on a frame of `bytes` with `past` behind it, received on
  `iface`. -/
  | frame (bytes : List UInt8) (past heap : Mem) (iface : IfName) (now : Int)
  /-- One pass of the sweeper. -/
  | sweep (env : SweepEnv)

/-- `sr_init`, once interfaces and routes are known. -/
def SrInstance.init (ifs : List SrIf) (rts : List SrRt) : SrInstance := ⟨ifs, rts, .init⟩

/-- What the `n`th event does. -/
def stepRes (n : Nat) (sr : SrInstance) : Event → Res SrInstance Act Unit
  | .frame bytes past heap iface now => srHandlepacket ⟨n, now, heap⟩ (.ofBytes bytes past) iface sr
  | .sweep env => srArpcacheTimeout env sr

/-- The router with interfaces `ifs` and routes `rts`. -/
def router (ifs : List SrIf) (rts : List SrRt) : System SrInstance Event Act where
  init := .init ifs rts
  step n sr e := ((stepRes n sr e).st, (stepRes n sr e).acts)

/-- The frame arrives on an interface the router has. -/
def Event.Known (ifs : List SrIf) : Event → Prop
  | .frame _ _ _ iface _ => ∃ i, srGetInterface ifs iface = some i
  | .sweep _ => True

/-! ## A small network

`e1` at 10.0.0.1 and `e2` at 10.0.1.1, each with its own network behind it. -/

namespace Sample

def e1 : IfName := ⟨[101, 49], by decide, by decide⟩
def e2 : IfName := ⟨[101, 50], by decide, by decide⟩

def ifs : List SrIf :=
  [⟨e1, ⟨[2, 0, 0, 0, 0, 1], rfl⟩, 0x0100000A⟩, ⟨e2, ⟨[2, 0, 0, 0, 0, 2], rfl⟩, 0x0101000A⟩]

def rts : List SrRt := [⟨0x0000000A, 0, 0x00FFFFFF, e1⟩, ⟨0x0001000A, 0, 0x00FFFFFF, e2⟩]

/-- An ICMP packet of 28 bytes from 10.0.0.5, with an echo request in it. -/
def ping (dst : List UInt8) : List UInt8 :=
  [2, 0, 0, 0, 0, 1, 9, 9, 9, 9, 9, 9, 8, 0, 0x45, 0, 0, 28, 0, 0, 0, 0, 63, 1, 0, 0, 10, 0, 0, 5] ++ dst ++
    [8, 0, 0, 0, 0, 1, 0, 1]

/-- An ARP reply: 10.0.1.7 is at the address of six bytes `a`. -/
def arpReply (a : UInt8) : List UInt8 :=
  [2, 0, 0, 0, 0, 2, a, a, a, a, a, a, 8, 6, 0, 1, 8, 0, 6, 4, 0, 2, a, a, a, a, a, a, 10, 0, 1, 7,
    2, 0, 0, 0, 0, 2, 10, 0, 1, 1]

def received (iface : IfName) (bytes : List UInt8) (now : Int) : Event :=
  .frame bytes (fun _ => 0) (fun _ => 0) iface now

/-- A sweep whose clock stands still. -/
def sweep (now : Int) : Event := .sweep ⟨fun _ => now, fun _ _ => 0, fun _ => 0⟩

end Sample

end SimpleRouter
