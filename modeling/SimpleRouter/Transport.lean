import SimpleRouter.Dispatch
import SimpleRouter.Frames
import SimpleRouter.Reassembly
import SimpleRouter.VnsProtocol
/-!
# Frames between router and server

A frame travels as a `VNSPACKET`: a length, a type, a name in a field of 16
bytes, and the frame. `sr_send_packet` and `sr_read_from_server_expect` count
these bytes with `sizeof`s of two header structures, the server with a format
string; `packet_transport` says that both directions agree.
-/
open Memory CProg Stream Struct

namespace SimpleRouter

/-! ## The message of `sr_send_packet` -/

/-- The packet `sr_send_packet` makes: `strncpy` of the name to 16 bytes, and
`memcpy` of the frame behind them. -/
def createPacket (past : Mem) (buf : Buf) (iface : IfName) : RouterM Buf := do
  let totalLen : UInt32 := .ofNat (buf.size + packetHeaderLen)
  let srPkt ← store32 ⟨buf.size + packetHeaderLen, past⟩ 0 (swap32 totalLen)
  let srPkt ← store32 srPkt 4 (swap32 vnsPacket)
  let srPkt ← storeBytes srPkt 8 (pad 16 iface.chars)
  let frame ← loadBytes buf 0 buf.size
  storeBytes srPkt packetHeaderLen frame

/-- `sr_send_packet` by what it writes to the socket. -/
def srSendPacketWrites (past : Mem) (buf : Buf) (iface : IfName) : RouterM (Option Bytes) := do
  if buf.size < ethLen then pure none
  else do
    let srPkt ← createPacket past buf iface
    let ok ← srEtherAddrsMatchInterface buf iface
    pure (if ok then some srPkt.bytes else none)

theorem createPacket_computes (past : Mem) {buf : Buf} (iface : IfName) (h : buf.size + 24 < 2 ^ 32) :
    ∃ srPkt, Computes (createPacket past buf iface) srPkt ∧
      srPkt.bytes = be 4 (buf.size + 24) ++ (be 4 4 ++ (pad 16 iface.chars ++ buf.bytes)) := by
  have htotal : (UInt32.ofNat (buf.size + 24)).toNat = buf.size + 24 := UInt32.toNat_ofNat_of_lt' h
  have hword := be_four (.ofNat (buf.size + 24))
  have htype := be_four vnsPacket
  rw [htotal] at hword
  refine ⟨_, Computes.bind (.store32 _ _ _) (Computes.bind (.store32 _ _ _) (Computes.bind (.storeBytes _ _ _)
    (Computes.bind (fun s => ⟨rfl, rfl, rfl⟩) (.storeBytes _ _ _)))), ?_⟩
  -- the stores follow each other without a gap, so together they fill the buffer
  rw [Buf.store_then _ (by rw [length_pad]), Buf.store_then _ (by rw [length_le32]),
    Buf.store_then _ (by rw [length_le32])]
  rw [Buf.bytes_store_all _ (by simp; omega), packetHeaderLen, ← hword, ← htype]
  rfl

section Sent
variable {past : Mem} {buf : Buf} {iface : IfName} {s : SrInstance}

/-- What is written is the packet, where `sr_send_packet` sends at all. -/
theorem srSendPacketWrites_sent (site : Site) {srPkt : Buf} (hp : Computes (createPacket past buf iface) srPkt)
    (h : (srSendPacket site buf iface s).acts = [.send site iface buf.bytes]) :
    (srSendPacketWrites past buf iface s).val = some srPkt.bytes := by
  rw [srSendPacket_acts] at h
  unfold sendActs at h
  unfold srSendPacketWrites srEtherAddrsMatchInterface
  by_cases h14 : buf.size < 14
  · simp [h14] at h
  · have hs := slice_eq_bytes buf 6 6 (by omega)
    cases hi : srGetInterface s.ifList iface with
    | none => simp [h14, hi] at h
    | some i =>
      by_cases hmac : (buf.bytes.drop 6).take 6 = i.addr.bytes
      · simp [h14, hi, hp.val, hp.st, hs, hmac]
      · simp [h14, hi, hmac] at h

/-- The server reads back the name and the frame. -/
theorem sent_unpack (site : Site) (hname : iface.chars.length ≤ 15) (hsize : buf.size ≤ 9976)
    (h : (srSendPacket site buf iface s).acts = [.send site iface buf.bytes]) :
    ∃ m, (srSendPacketWrites past buf iface s).val = some m ∧ m.take 8 = be 4 m.length ++ be 4 4 ∧
      VNSPacket.unpack (m.drop 8) = some ⟨iface.chars, buf.bytes⟩ := by
  obtain ⟨srPkt, hp, hbytes⟩ := createPacket_computes past iface (show buf.size + 24 < 2 ^ 32 by omega)
  have hlen : srPkt.bytes.length = buf.size + 24 := by
    rw [hbytes]
    simp
    omega
  have h8 : (be 4 (buf.size + 24) ++ be 4 4).length = 8 := by simp
  have hfits : FitsField 16 iface.chars := ⟨iface.noNul, by omega⟩
  refine ⟨srPkt.bytes, srSendPacketWrites_sent site hp h, ?_, ?_⟩
  · rw [hlen, hbytes, ← List.append_assoc, List.take_left' h8]
  · rw [hbytes, ← List.append_assoc, List.drop_left' h8, VNSPacket.unpack_pad, stripNullChars_pad hfits]

end Sent

/-! ## A packet of the server -/

/-- A packet's field of 16 bytes holds `name`, with anything behind its NUL. -/
structure HoldsName (field : Bytes) (name : IfName) : Prop where
  size : field.length = 16
  prefixed : name.chars ++ [0] <+: field

theorem holdsName_pad {name : IfName} (h : name.chars.length ≤ 15) : HoldsName (pad 16 name.chars) name :=
  ⟨length_pad _ _, prefix_pad (by omega)⟩

/-- With a frame behind it, such a field fits into a command. -/
theorem HoldsName.size_le {field : Bytes} {name : IfName} (h : HoldsName field name) {frame : Bytes}
    (hmax : frame.length ≤ 9976) : 8 + (field ++ frame).length ≤ 10000 := by
  rw [List.length_append, h.size]
  omega

/-- What `sr_send_packet` sends it writes as the packet. -/
theorem accepted_unpack {past : Mem} {buf : Buf} {iface : IfName} {s : SrInstance} {i : SrIf} (site : Site)
    (hname : iface.chars.length ≤ 15) (hsize : buf.size ≤ 9976) (h14 : 14 ≤ buf.size)
    (hi : srGetInterface s.ifList iface = some i) (hmac : (buf.bytes.drop 6).take 6 = i.addr.bytes) :
    (srSendPacket site buf iface s).acts = [.send site iface buf.bytes] ∧
    ∃ m, (srSendPacketWrites past buf iface s).val = some m ∧ m.take 8 = be 4 m.length ++ be 4 4 ∧
      VNSPacket.unpack (m.drop 8) = some ⟨iface.chars, buf.bytes⟩ := by
  have hsent : (srSendPacket site buf iface s).acts = [.send site iface buf.bytes] := by
    have h : ¬ buf.bytes.length < 14 := by simpa using h14
    rw [srSendPacket_acts, sendActs, if_neg h, hi]
    exact if_pos hmac
  exact ⟨hsent, sent_unpack site hname hsize hsent⟩

section Received
variable {c : Command} {field : Bytes} {name : IfName} {frame : Bytes}

/-- What the parser lends to the filter and to `sr_handlepacket`. -/
theorem packet_lent (past : Mem) (hname : HoldsName field name) (hbody : c.body = field ++ frame) :
    (packetOf (c.buf past) c.len).bytes = frame ∧ (packetOf (c.buf past) c.len).size = frame.length ∧
      IfName.ofMem (c.buf past).mem 8 = name := by
  have hlen := c.toNat_len
  have hmax := c.size_le
  have hsize : (c.buf past).size = c.len.toNat := rfl
  rw [hbody, List.length_append, hname.size] at hlen hmax
  have hframe : 24 + (c.len - 38 + 14).toNat = (c.buf past).size := by
    rcases packetLen c.len (by omega) with ⟨h24, hn⟩ | ⟨h24, -⟩
    · omega
    · omega
  refine ⟨?_, ?_, ?_⟩
  · calc (packetOf (c.buf past) c.len).bytes = ((c.buf past).bytes.drop 8).drop 16 := by
          rw [packetOf, bytes_lent hframe, List.drop_drop]
      _ = frame := by rw [c.drop_buf past, hbody, List.drop_left' hname.size]
  · have hn : (packetOf (c.buf past) c.len).size = (c.len - 38 + 14).toNat := rfl
    omega
  · have hshort := hname.prefixed.length_le
    rw [List.length_append, List.length_singleton, hname.size] at hshort
    apply ofMem_eq (by omega) (n := (c.buf past).size - 8)
    rw [← Buf.drop_bytes, c.drop_buf past, hbody]
    exact hname.prefixed.trans (List.prefix_append _ _)

/-- The filter decides about just this name and this frame, and `sr_handlepacket`
gets them; nothing else happens by then, but for an assertion. -/
theorem packet_parsed {env : ServerEnv} {expected : UInt32} {s : SrInstance} {sock : Sock} {rest : Bytes}
    (htype : c.type = vnsPacket) (hname : HoldsName field name) (hbody : c.body = field ++ frame)
    (hexp : expected = 0 ∨ expected = vnsPacket) (hs : Sound sock) (hc : contents sock = c.bytes ++ rest) :
    ∃ packet b sock', packet.bytes = frame ∧ packet.size = frame.length ∧
      (parse env expected sock s).val =
        .dispatched (passedOn packet name (arpFilter s.ifList name packet)) vnsPacket b sock' ∧
      contents sock' = rest ∧ (parse env expected sock s).st = s ∧
      (parse env expected sock s).acts = filterActs (arpFilter s.ifList name packet) := by
  obtain ⟨hbytes, hsize, hmem⟩ := packet_lent env.past hname hbody
  obtain ⟨sock', h1, hc', -⟩ := @Command.receive_eq c env.past sock rest hs hc
  have hok : ¬ (expected ≠ 0 ∧ vnsPacket ≠ expected ∧ vnsPacket ≠ vnsClose) := by
    rintro ⟨h0, hne, -⟩
    rcases hexp with rfl | rfl
    · exact h0 rfl
    · exact hne rfl
  have hdispatch : dispatch env expected vnsPacket c.len (c.buf env.past) = dispatchPacket env c.len (c.buf env.past) := by
    rw [dispatch, if_neg hok, if_pos rfl]
  obtain ⟨hval, hst, hacts⟩ := dispatchPacket_eq (c.buf env.past) c.len s env
  rw [hmem] at hval hacts
  refine ⟨packetOf (c.buf env.past) c.len, c.buf env.past, sock', hbytes, hsize, ?_, hc', ?_, ?_⟩
  · rw [parse, bind_val, h1.val, h1.st, htype]
    change Parsed.dispatched (dispatch env expected vnsPacket c.len (c.buf env.past) s).val _ _ _ = _
    rw [hdispatch, hval]
  · rw [parse, bind_st, h1.val, h1.st, htype]
    change (dispatch env expected vnsPacket c.len (c.buf env.past) s).st = s
    rw [hdispatch, hst]
  · rw [parse, bind_acts, h1.val, h1.st, h1.acts, htype, List.nil_append]
    change (dispatch env expected vnsPacket c.len (c.buf env.past) s).acts ++ [] = _
    rw [List.append_nil, hdispatch, hacts]

/-- A command that is dispatched is finished with. -/
theorem call_finished {env : ServerEnv} {expected : UInt32} {s : SrInstance} {sock rest : Sock} {d : Dispatched}
    {command : UInt32} {b : Buf} (h : (parse env expected sock s).val = .dispatched d command b rest)
    (hst : (parse env expected sock s).st = s) :
    (srReadFromServerExpect env expected sock s).val = ⟨(finish env d s).val, some (command, b.bytes.drop 8), rest⟩ ∧
    (srReadFromServerExpect env expected sock s).st = (finish env d s).st ∧
    (srReadFromServerExpect env expected sock s).acts = (parse env expected sock s).acts ++ (finish env d s).acts := by
  unfold srReadFromServerExpect
  simp only [bind_val, bind_st, bind_acts, h, hst, pure_apply, List.append_nil, and_self]

end Received

/-- What `sr_send_packet` accepts it sends, and writes, behind its header of
eight bytes, as the server packs it; and what the server packs reaches the
filter and `sr_handlepacket` as the name and the frame it was packed from. -/
theorem packet_transport {name : IfName} (hname : name.chars.length ≤ 15) {frame : Bytes}
    (hmax : frame.length ≤ 9976) :
    (∀ past site buf s i, buf.bytes = frame → 14 ≤ frame.length → srGetInterface s.ifList name = some i →
      (frame.drop 6).take 6 = i.addr.bytes → (srSendPacket site buf name s).acts = [.send site name frame] ∧
      ∃ m, (srSendPacketWrites past buf name s).val = some m ∧ m.take 8 = be 4 m.length ++ be 4 4 ∧
        VNSPacket.unpack (m.drop 8) = some ⟨name.chars, frame⟩) ∧
    (∀ body, VNSPacket.pack ⟨name.chars, frame⟩ = some body →
      ∀ env expected s sock rest, (expected = 0 ∨ expected = vnsPacket) → Sound sock →
        contents sock = be 4 (8 + body.length) ++ (be 4 4 ++ body) ++ rest →
        ∃ packet b sock', packet.bytes = frame ∧ packet.size = frame.length ∧
          (parse env expected sock s).val =
            .dispatched (passedOn packet name (arpFilter s.ifList name packet)) vnsPacket b sock' ∧
          contents sock' = rest ∧
          (srReadFromServerExpect env expected sock s).val =
            ⟨(finish env (passedOn packet name (arpFilter s.ifList name packet)) s).val, some (vnsPacket, body), sock'⟩ ∧
          (srReadFromServerExpect env expected sock s).st =
            (finish env (passedOn packet name (arpFilter s.ifList name packet)) s).st ∧
          (srReadFromServerExpect env expected sock s).acts = filterActs (arpFilter s.ifList name packet) ++
            (finish env (passedOn packet name (arpFilter s.ifList name packet)) s).acts) := by
  constructor
  · rintro past site buf s i rfl h14 hi hmac
    rw [Buf.length_bytes] at hmax h14
    exact accepted_unpack site hname hmax h14 hi hmac
  · intro body hpack env expected s sock rest hexp hs hc
    rw [VNSPacket.pack_eq] at hpack
    cases hpack
    have hholds := holdsName_pad hname
    let c : Command := ⟨vnsPacket, pad 16 name.chars ++ frame, hholds.size_le hmax⟩
    have hcommand : contents sock = c.bytes ++ rest := by
      rw [hc, Command.bytes, c.toNat_len]
      rfl
    obtain ⟨packet, b, sock', hbytes, hsize, hval, hrest, hst, hacts⟩ :=
      @packet_parsed c _ name frame env expected s sock rest rfl hholds rfl hexp hs hcommand
    obtain ⟨hcall, hcallst, hcallacts⟩ := call_finished hval hst
    -- the call has decoded the type and the body
    obtain ⟨sock'', hreceive, -, -⟩ := @Command.receive_eq c env.past sock rest hs hcommand
    obtain ⟨hdecoded, -⟩ := @call_decoded env expected _ _ _ _ _ hreceive s
    rw [hcall, Command.drop_buf] at hdecoded
    refine ⟨packet, b, sock', hbytes, hsize, hval, hrest, ?_, hcallst, hacts ▸ hcallacts⟩
    rw [hcall]
    exact congrArg (Call.mk _ · sock') hdecoded

namespace Sample

/-- An Ethernet header from `e1`. -/
def header : Bytes := [9, 9, 9, 9, 9, 9, 2, 0, 0, 0, 0, 1, 8, 0]

/-- The command for it, cut in the name. -/
def headerSock : Sock := [.bytes ([0, 0, 0, 38, 0, 0, 0, 4, 101] ++ [49]), .bytes (List.replicate 14 0 ++ header)]

end Sample

open Sample in
theorem packet_transport_header :
    ((srSendPacket (.echoReply 0) (.ofBytes header fun _ => 7) e1 (.init ifs rts)).acts = [.send (.echoReply 0) e1 header] ∧
    ∃ m, (srSendPacketWrites (fun _ => 7) (.ofBytes header fun _ => 7) e1 (.init ifs rts)).val = some m ∧
      m.take 8 = be 4 m.length ++ be 4 4 ∧ VNSPacket.unpack (m.drop 8) = some ⟨[101, 49], header⟩) ∧
    ∃ packet b sock', packet.bytes = header ∧ packet.size = 14 ∧
      (parse serverEnv 0 headerSock (.init ifs rts)).val =
        .dispatched (passedOn packet e1 (arpFilter ifs e1 packet)) vnsPacket b sock' ∧ contents sock' = [] ∧
      (srReadFromServerExpect serverEnv 0 headerSock (.init ifs rts)).val =
        ⟨(finish serverEnv (passedOn packet e1 (arpFilter ifs e1 packet)) (.init ifs rts)).val,
          some (vnsPacket, pad 16 [101, 49] ++ header), sock'⟩ ∧
      (srReadFromServerExpect serverEnv 0 headerSock (.init ifs rts)).st =
        (finish serverEnv (passedOn packet e1 (arpFilter ifs e1 packet)) (.init ifs rts)).st ∧
      (srReadFromServerExpect serverEnv 0 headerSock (.init ifs rts)).acts = filterActs (arpFilter ifs e1 packet) ++
        (finish serverEnv (passedOn packet e1 (arpFilter ifs e1 packet)) (.init ifs rts)).acts := by
  obtain ⟨ha, hb⟩ := @packet_transport e1 (by decide) header (by decide)
  refine ⟨ha _ (.echoReply 0) _ (.init ifs rts) ⟨e1, ⟨[2, 0, 0, 0, 0, 1], rfl⟩, 0x0100000A⟩ rfl (by decide) rfl
    (by decide), ?_⟩
  exact hb _ rfl serverEnv 0 (.init ifs rts) headerSock [] (.inl rfl) (by decide) rfl

end SimpleRouter
