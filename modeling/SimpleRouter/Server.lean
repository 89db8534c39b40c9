import Mathlib.Data.List.ModifyLast
import Mathlib.Data.List.TakeWhile
import SimpleRouter.Lib.Stream
import SimpleRouter.Router
/-!
# Commands of the server

`sr_read_from_server_expect` and the handlers it calls (`sr_vns_comm.c`), with
the setters of `sr_if.c`. A command is read into a buffer of exactly `len`
bytes, of which the handlers are lent parts. `dispatch` is the `switch` up to
the call of `sr_handlepacket`, so that the parser can be spoken of apart from
the packet handling. What is only printed is left out, but not the reads of
the command that printing makes.
-/
open Memory CProg Stream

namespace SimpleRouter

/-! ## `vnscommand.h` -/

def vnsClose : UInt32 := 2
def vnsPacket : UInt32 := 4
def vnsBanner : UInt32 := 8
def vnsHwinfo : UInt32 := 16
def vnsRtable : UInt32 := 32
def vnsAuthRequest : UInt32 := 128
def vnsAuthStatus : UInt32 := 512

def hwInterface : UInt32 := 1
def hwEther : UInt32 := 32
def hwEthip : UInt32 := 64

/-- `sizeof(c_packet_header)`: two words and an interface name. -/
@[simp] abbrev packetHeaderLen : Nat := 24
/-- `sizeof(c_packet_ethernet_header)`. -/
@[simp] abbrev packetEthernetHeaderLen : Nat := 38
/-- `sizeof(c_hw_entry)`. -/
@[simp] abbrev hwEntryLen : Nat := 36

/-- What a call finds around it: besides what packet handling does, the memory
of the command's allocation and behind it, what fresh `struct sr_if`s contain,
and how files and the connection behave. -/
structure ServerEnv extends Env where
  past : Mem
  /-- The addresses in the `i`th allocated `struct sr_if`. -/
  junk : Nat → Mac × UInt32
  /-- There is a log file. -/
  logging : Bool
  /-- `fopen` of the new routing table succeeds. -/
  rtableOpens : Bool
  /-- There is an `auth_key` to read. -/
  authKey : Bool
  /-- The reply to an authentication request is sent. -/
  authSent : Bool
  /-- `strlen(sr->user)`. -/
  userLen : Nat

/-! ## Strings in a command -/

/-- The string at `off`, as `sr_IFACE_NAMELEN` bytes of it hold it. -/
def IfName.ofMem (m : Mem) (off : Nat) : IfName where
  chars := (m.slice off 32).takeWhile (· ≠ 0)
  noNul h := by simpa using List.mem_takeWhile_imp h
  size_le := by
    have h := (List.takeWhile_sublist (p := (· ≠ (0 : UInt8))) (l := m.slice off 32)).length_le
    rwa [Mem.length_slice] at h

theorem IfName.eq_of_chars {a b : IfName} (h : a.chars = b.chars) : a = b := by
  cases a
  cases b
  cases h
  rfl

/-- What stands before the first NUL of a list that has one. -/
theorem takeWhile_eq_iff {l c : List UInt8} (hl : 0 ∈ l) (hc : 0 ∉ c) : l.takeWhile (· ≠ 0) = c ↔ c ++ [0] <+: l := by
  constructor
  · rintro rfl
    have hsplit := @List.takeWhile_append_dropWhile _ (fun x : UInt8 => decide (x ≠ 0)) l
    cases hd : l.dropWhile (fun x : UInt8 => decide (x ≠ 0)) with
    | nil =>
      rw [hd, List.append_nil] at hsplit
      rw [← hsplit] at hl
      exact absurd (List.mem_takeWhile_imp hl) (by simp)
    | cons x rest =>
      have hx := List.head?_dropWhile_not (fun x : UInt8 => decide (x ≠ 0)) l
      rw [hd] at hx
      obtain rfl : x = 0 := by simpa using hx
      refine ⟨rest, ?_⟩
      rw [List.append_assoc, List.singleton_append, ← hd, hsplit]
  · rintro ⟨rest, rfl⟩
    have hpos : ∀ x ∈ c, decide (x ≠ 0) = true := by
      intro x hx
      rw [decide_eq_true_eq]
      rintro rfl
      exact hc hx
    rw [List.append_assoc, List.takeWhile_append_of_pos hpos]
    simp

/-- A string that ends within its 32 bytes is read as it is. -/
theorem ofMem_eq {name : IfName} {m : Mem} {off n : Nat} (hn : name.chars.length < 32)
    (h : name.chars ++ [0] <+: m.slice off n) : IfName.ofMem m off = name := by
  have hlen : (name.chars ++ [0]).length = name.chars.length + 1 := List.length_append
  have hle : name.chars.length + 1 ≤ n := by
    have hp := h.length_le
    rwa [hlen, Mem.length_slice] at hp
  have htake : name.chars ++ [0] = (m.slice off 32).take (name.chars.length + 1) := by
    rw [Mem.take_slice _ _ (by omega), ← Mem.take_slice m off hle, ← hlen]
    exact List.prefix_iff_eq_take.1 h
  have hp : name.chars ++ [0] <+: m.slice off 32 := by
    rw [htake]
    exact List.take_prefix _ _
  have h0 : 0 ∈ m.slice off 32 := hp.subset (List.mem_append_right _ (List.mem_singleton.2 rfl))
  exact IfName.eq_of_chars ((takeWhile_eq_iff h0 name.noNul).2 hp)

/-- How many bytes of the string at `off` a call of
`strncmp(name, .., sr_IFACE_NAMELEN)` reads: up to a difference or a NUL. -/
def strncmpReads (name : IfName) (m : Mem) (off : Nat) : Nat :=
  min 32 ((List.range 32).findIdx (fun k => m (off + k) ≠ name.chars.getD k 0 ∨ m (off + k) = 0) + 1)

/-- How many bytes `strncpy(.., sr_IFACE_NAMELEN)` reads of the string at `off`. -/
def strncpyReads (m : Mem) (off : Nat) : Nat := min 32 ((IfName.ofMem m off).chars.length + 1)

/-- How many bytes of the string at `off` are read when the whole string is: up
to its NUL, or to the first byte outside the buffer. -/
def strReads (b : Buf) (off : Nat) : Nat := (b.bytes.drop off).findIdx (· = 0) + 1

def touchStr (b : Buf) (off : Nat) : RouterM Unit := touch b off (strReads b off)

/-- `sr_get_interface` with the name at `off` of a command. -/
def getInterfaceAt (b : Buf) (off : Nat) : List SrIf → RouterM (Option SrIf)
  | [] => pure none
  | i :: ifs => do
    touch b off (strncmpReads i.name b.mem off)
    if i.name = .ofMem b.mem off then pure (some i) else getInterfaceAt b off ifs

/-! ## `sr_if.c` -/

/-- `sr_add_interface`; the new structure keeps what its memory contains. -/
def srAddInterface (junk : Mac × UInt32) (name : IfName) : RouterM Unit :=
  modify fun sr => { sr with ifList := sr.ifList ++ [⟨name, junk.1, junk.2⟩] }

/-- A setter of the last interface in the list: false if `assert(sr->if_list)` fails. -/
def setLast (f : SrIf → SrIf) : RouterM Bool := do
  let sr ← get
  if sr.ifList = [] then do
    act (.fault .assertion)
    pure false
  else do
    modify fun sr => { sr with ifList := sr.ifList.modifyLast f }
    pure true

/-- `sr_set_ether_addr` with the address at `off`. -/
def srSetEtherAddr (b : Buf) (off : Nat) : RouterM Bool := do
  let ok ← setLast fun i => { i with addr := .ofMem b.mem off }
  if ok then do
    touch b off 6
    pure true
  else pure false

/-- `sr_set_ether_ip`. -/
def srSetEtherIp (ipNbo : UInt32) : RouterM Bool := setLast fun i => { i with ip := ipNbo }

/-! ## VNSHWINFO -/

/-- The `switch` of `sr_handle_hwinfo` for the entry at `off`; false if an
assertion fails. The other keys do nothing. -/
def hwEntry (junk : Mac × UInt32) (b : Buf) (off : Nat) : RouterM Bool := do
  let key ← load32 b off
  if swap32 key = hwInterface then do
    touch b (off + 4) (strncpyReads b.mem (off + 4))
    srAddInterface junk (.ofMem b.mem (off + 4))
    pure true
  else if swap32 key = hwEthip then do
    let ip ← load32 b (off + 4)
    srSetEtherIp ip
  else if swap32 key = hwEther then srSetEtherAddr b (off + 4)
  else pure true

/-- `num_entries`: `mLen` is unsigned, the subtraction 64 bits wide, and the
result an `int`. -/
def numEntries (mLen : UInt32) : Int := ((mLen.toUInt64 - 8) / 36).toUInt32.toInt32.toInt

/-- The loop of `sr_handle_hwinfo` over the next `n` entries, from the `i`th on. -/
def hwinfoLoop (junk : Nat → Mac × UInt32) (b : Buf) (i : Nat) : Nat → RouterM Bool
  | 0 => pure true
  | n + 1 => do
    let ok ← hwEntry (junk i) b (8 + hwEntryLen * i)
    if ok then hwinfoLoop junk b (i + 1) n else pure false

/-- `sr_handle_hwinfo`; `none` if an assertion fails. -/
def srHandleHwinfo (env : ServerEnv) (b : Buf) : RouterM (Option Int) := do
  let mLen ← load32 b 0
  let ok ← hwinfoLoop env.junk b 0 (numEntries (swap32 mLen)).toNat
  pure (if ok then some (numEntries (swap32 mLen)) else none)

/-! ## The other handlers -/

/-- `sr_handle_rtable`: `fn` has 40 bytes, of which `"rtable."` takes seven. -/
def srHandleRtable (env : ServerEnv) (b : Buf) : RouterM Bool := do
  touchStr b 8
  touch ⟨40, env.past⟩ 7 (strReads b 8)
  if env.rtableOpens then do
    let mLen ← load32 b 0
    touch b 40 (swap32 mLen - 40).toNat
    pure true
  else pure false

/-- `sr_handle_auth_request`, the digest left out: the salt and the 64 bytes of
the key it is computed from, and the reply it is sent in. -/
def srHandleAuthRequest (env : ServerEnv) (b : Buf) : RouterM Bool :=
  if env.authKey then do
    let mLen ← load32 b 0
    touch b 8 (swap32 mLen - 8).toNat
    touch ⟨65, env.past⟩ 0 64
    touch ⟨32 + env.userLen, env.heap⟩ 0 12
    touch ⟨32 + env.userLen, env.heap⟩ 12 (env.userLen + 1)
    touch ⟨32 + env.userLen, env.heap⟩ (12 + env.userLen) 20
    pure env.authSent
  else pure false

/-- `sr_handle_auth_status`. -/
def srHandleAuthStatus (b : Buf) : RouterM Bool := do
  let authOk ← load8 b 8
  if authOk = 0 then do
    touchStr b 9
    pure false
  else pure true

/-! ## VNSPACKET -/

/-- The test that ends `sr_arp_req_not_for_us`: an ARP request for another
address than `ip`. -/
def arpReqForOther (b : Buf) (ip : UInt32) : RouterM Bool := do
  let type ← load16 b (packetHeaderLen + 12)
  if type = swap16 ethertypeArp then do
    let op ← load16 b (packetHeaderLen + 20)
    if op = swap16 arpOpRequest then do
      let tip ← load32 b (packetHeaderLen + 38)
      pure (tip ≠ ip)
    else pure false
  else pure false

/-- `sr_arp_req_not_for_us` on a packet of `len` bytes behind the header of the
command; `none` if the assertion fails. -/
def srArpReqNotForUs (b : Buf) (len : UInt32) : RouterM (Option Bool) := do
  let sr ← get
  let iface ← getInterfaceAt b 8 sr.ifList
  if len.toNat < ethLen + arpLen then pure (some false)
  else match iface with
    | none => do
      act (.fault .assertion)
      pure none
    | some iface => do
      let notForUs ← arpReqForOther b iface.ip
      pure (some notForUs)

/-- `sr_log_packet` on the packet behind the header. `len` is an `int` there,
and a negative one becomes the `caplen` of `fwrite`, which is unsigned. -/
def srLogPacket (env : ServerEnv) (b : Buf) (len : UInt32) : RouterM Unit :=
  if env.logging then touch b packetHeaderLen (if len.toNat < 2 ^ 31 then min 1024 len.toNat else len.toNat)
  else pure ()

/-! ## The parser -/

/-- What a command comes to. -/
inductive Dispatched where
  | ret (v : Int)
  /-- An assertion has failed. -/
  | stopped
  /-- `sr_handlepacket` is called. -/
  | frame (packet : Buf) (interface : IfName)

/-- The part of a buffer lent from `off` on, as `len` bytes. -/
def lent (b : Buf) (off len : Nat) : Buf := ⟨len, fun i => b.mem (off + i)⟩

/-- `case VNSPACKET`; `len` is the length of the command. -/
def dispatchPacket (env : ServerEnv) (len : UInt32) (b : Buf) : RouterM Dispatched := do
  let notForUs ← srArpReqNotForUs b (len - 38 + 14)
  match notForUs with
  | none => pure .stopped
  | some true => pure (.ret 1)
  | some false => do
    let mLen ← load32 b 0
    srLogPacket env b (swap32 mLen - 24)
    pure (.frame (lent b packetHeaderLen (len - 38 + 14).toNat) (.ofMem b.mem 8))

/-- `case VNSHWINFO`. -/
def dispatchHwinfo (env : ServerEnv) (b : Buf) : RouterM Dispatched := do
  let n ← srHandleHwinfo env b
  match n with
  | none => pure .stopped
  | some _ => do
    let sr ← get
    pure (.ret (if srVerifyRoutingTable sr.ifList sr.routingTable ≠ 0 then -1 else 1))

/-- The check of the type and the `switch`; `expected` is 0 for any command. -/
def dispatch (env : ServerEnv) (expected command len : UInt32) (b : Buf) : RouterM Dispatched :=
  if expected ≠ 0 ∧ command ≠ expected ∧ command ≠ vnsClose then pure (.ret (-1))
  else if command = vnsPacket then dispatchPacket env len b
  else if command = vnsClose then do
    touchStr b 8
    pure (.ret 0)
  else if command = vnsBanner then do
    touchStr b 8
    pure (.ret 1)
  else if command = vnsHwinfo then dispatchHwinfo env b
  else if command = vnsRtable then do
    let ok ← srHandleRtable env b
    pure (.ret (if ok then 1 else -1))
  else if command = vnsAuthRequest then do
    let ok ← srHandleAuthRequest env b
    pure (.ret (if ok then 1 else -1))
  else if command = vnsAuthStatus then do
    let ok ← srHandleAuthStatus b
    pure (.ret (if ok then 1 else -1))
  else pure (.ret 1)

/-! ## Reading a command -/

inductive Received where
  /-- Nothing more has come yet. -/
  | waiting
  /-- A call failed, or the length is refused. -/
  | refused
  | command (command len : UInt32) (b : Buf) (rest : Sock)

/-- The first half of `sr_read_from_server_expect`: the length, the rest of the
command, and its type, which is left in host order in the buffer. -/
def receive (past : Mem) (sock : Sock) : RouterM Received := do
  let word ← fill 0 4 ⟨4, past⟩ 0 sock
  match word with
  | .waiting => pure .waiting
  | .failed => pure .refused
  | .done word rest => do
    let len ← load32 word 0
    -- a negative `int` is above 10000 as well
    if 10000 < (swap32 len).toNat then pure .refused
    else do
      let b ← store32 ⟨(swap32 len).toNat, past⟩ 0 (swap32 (swap32 len))
      let b ← fill 4 ((swap32 len).toNat - 4) b 0 rest
      match b with
      | .waiting => pure .waiting
      | .failed => pure .refused
      | .done b rest => do
        let command ← load32 b 4
        let b ← store32 b 4 (swap32 command)
        pure (.command (swap32 command) (swap32 len) b rest)

/-- What a call comes to before `sr_handlepacket`: the last case with the type
of the command, its buffer and what is left on the socket. -/
inductive Parsed where
  | waiting
  | refused
  | dispatched (d : Dispatched) (command : UInt32) (b : Buf) (rest : Sock)

/-- `sr_read_from_server_expect` up to the call of `sr_handlepacket`. -/
def parse (env : ServerEnv) (expected : UInt32) (sock : Sock) : RouterM Parsed := do
  let received ← receive env.past sock
  match received with
  | .waiting => pure .waiting
  | .refused => pure .refused
  | .command command len b rest => do
    let d ← dispatch env expected command len b
    pure (.dispatched d command b rest)

/-- A call of `sr_read_from_server_expect`: what it returns, if it does, and
what it leaves on the socket. The command it has read, type and body, is read
by no code. -/
structure Call where
  ret : Option Int
  decoded : Option (UInt32 × List UInt8)
  rest : Sock

/-- `sr_handlepacket` and the value returned. -/
def finish (env : ServerEnv) : Dispatched → RouterM (Option Int)
  | .ret v => pure (some v)
  | .stopped => pure none
  | .frame packet interface => do
    srHandlepacket env.toEnv packet interface
    pure (some 1)

def srReadFromServerExpect (env : ServerEnv) (expected : UInt32) (sock : Sock) : RouterM Call := do
  let parsed ← parse env expected sock
  match parsed with
  | .waiting => pure ⟨none, none, []⟩
  | .refused => pure ⟨some (-1), none, []⟩
  | .dispatched d command b rest => do
    let ret ← finish env d
    pure ⟨ret, some (command, b.bytes.drop 8), rest⟩

end SimpleRouter
