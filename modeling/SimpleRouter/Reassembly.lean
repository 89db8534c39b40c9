import SimpleRouter.Lib.Struct
import SimpleRouter.Server
import SimpleRouter.System
/-!
# Commands from a stream

However the bytes of the server arrive, cut anywhere and with interrupted calls
in between, a call reads the next command and leaves the first byte of the one
after it. `receive_command` is about one call, `calls_decode` about any number.
-/
open Memory CProg Stream Struct

namespace SimpleRouter

/-- A number in network order is the swapped number of this host. -/
theorem be_four (v : UInt32) : be 4 v.toNat = le32 (swap32 v) := by
  rw [swap32_bytes]
  simp only [be, Nat.div_div_eq_div_mul, List.nil_append, List.cons_append]

/-! ## One call -/

section Call
variable (past : Mem) (len : UInt32) (body : Bytes)

/-- The buffer once the bytes after the length have been read into it. -/
def filled : Buf := (Buf.store ⟨len.toNat, past⟩ 0 (le32 (swap32 len))).store 4 body

/-- The type of the command in it. -/
def typeOf : UInt32 := swap32 ((filled past len body).mem.u32 4)

/-- The buffer the `switch` is about, with the type in host order. -/
def commandBuf : Buf := (filled past len body).store 4 (le32 (typeOf past len body))

@[simp] theorem size_commandBuf : (commandBuf past len body).size = len.toNat := rfl

end Call

section Receive
variable {past : Mem} {sock : Sock} {len : UInt32}

theorem load_len : swap32 ((Buf.store ⟨4, past⟩ 0 (be 4 len.toNat)).mem.u32 0) = len := by
  rw [be_four, Buf.mem_store, Mem.u32_store_le32, swap32_swap32]

/-- A call reads the bytes of one command and leaves the others. -/
theorem receive_command {body rest : Bytes} (hs : Sound sock)
    (hc : contents sock = be 4 len.toNat ++ (body ++ rest)) (hlen : len.toNat ≤ 10000)
    (hbody : body.length = len.toNat - 4) :
    ∃ sock', Computes (receive past sock)
      (.command (typeOf past len body) len (commandBuf past len body) sock') ∧
      contents sock' = rest ∧ Sound sock' := by
  obtain ⟨sock1, h1, hc1, hs1⟩ := @fill_contents SrInstance Act 0 4 sock _ _ ⟨4, past⟩ 0 hs hc (by simp)
  obtain ⟨sock2, h2, hc2, hs2⟩ := @fill_contents SrInstance Act 4 (len.toNat - 4) sock1 body rest
    (Buf.store ⟨len.toNat, past⟩ 0 (le32 (swap32 len))) 0 hs1 hc1 (by omega)
  refine ⟨sock2, ?_, hc2, hs2⟩
  have hle : ¬ 10000 < len.toNat := by omega
  refine h1.bind (Computes.bind (.load32 _ _) ?_)
  rw [Nat.add_zero, load_len, if_neg hle]
  exact Computes.bind (.store32 _ _ _) (h2.bind (Computes.bind (.load32 _ _) (Computes.bind (.store32 _ _ _) (.pure _))))

/-- A length above 10000 is refused. -/
theorem receive_refused {tail : Bytes} (hs : Sound sock) (hc : contents sock = be 4 len.toNat ++ tail)
    (hlen : 10000 < len.toNat) : Computes (receive past sock) .refused := by
  obtain ⟨sock1, h1, -, -⟩ := @fill_contents SrInstance Act 0 4 sock _ _ ⟨4, past⟩ 0 hs hc (by simp)
  refine h1.bind (Computes.bind (.load32 _ _) ?_)
  rw [Nat.add_zero, load_len, if_pos hlen]
  exact .pure _

end Receive

/-! ## What is in the buffer -/

section Buffer
variable (past : Mem) {len type : UInt32} {data : Bytes}

/-- A whole command fills its buffer. -/
theorem commandBuf_bytes (h : 8 + data.length = len.toNat) :
    typeOf past len (be 4 type.toNat ++ data) = type ∧
    (commandBuf past len (be 4 type.toNat ++ data)).bytes = le32 (swap32 len) ++ (le32 type ++ data) := by
  have hsize : (le32 (swap32 len) ++ (be 4 type.toNat ++ data)).length = len.toNat := by
    rw [List.length_append, List.length_append, length_le32, length_be]
    omega
  have hbytes : (filled past len (be 4 type.toNat ++ data)).bytes = le32 (swap32 len) ++ (be 4 type.toNat ++ data) := by
    rw [filled, Buf.store_then _ (by rw [length_le32])]
    exact Buf.bytes_store_all _ hsize
  have htype : typeOf past len (be 4 type.toNat ++ data) = type := by
    have hsplit : filled past len (be 4 type.toNat ++ data) =
        ((Buf.store ⟨len.toNat, past⟩ 0 (le32 (swap32 len))).store 4 (le32 (swap32 type))).store 8 data := by
      rw [filled, be_four, ← Buf.store_append]
      rfl
    rw [typeOf, hsplit, Buf.mem_store, Buf.mem_store]
    have hu : ∀ m : Mem, (m.store 8 data).u32 4 = m.u32 4 :=
      fun m => Mem.u32_congr fun k hk => Mem.store_of_lt _ _ _ _ (by omega)
    rw [hu, Mem.u32_store_le32, swap32_swap32]
  refine ⟨htype, ?_⟩
  have h8 : 4 + (le32 type).length ≤ len.toNat := by
    rw [length_le32]
    omega
  rw [commandBuf, htype, Buf.bytes_store _ _ _ h8, hbytes, List.take_left' (length_le32 _), length_le32,
    ← List.drop_drop, List.drop_left' (length_le32 _), List.drop_left' (length_be _ _), List.append_assoc]

end Buffer

/-! ## Successive calls -/

/-- A command of the server: type and body, no longer than 10000 bytes with the
length and the type. -/
structure Command where
  type : UInt32
  body : Bytes
  size_le : 8 + body.length ≤ 10000

namespace Command

def len (c : Command) : UInt32 := .ofNat (8 + c.body.length)

/-- The bytes it is sent as. -/
def bytes (c : Command) : Bytes := be 4 c.len.toNat ++ (be 4 c.type.toNat ++ c.body)

/-- The buffer it is read into. -/
def buf (c : Command) (past : Mem) : Buf := commandBuf past c.len (be 4 c.type.toNat ++ c.body)

theorem toNat_len (c : Command) : c.len.toNat = 8 + c.body.length := by
  have h := c.size_le
  have hlt : 8 + c.body.length < 2 ^ 32 := by omega
  exact UInt32.toNat_ofNat_of_lt' hlt

theorem bytes_buf (c : Command) (past : Mem) : (c.buf past).bytes = le32 (swap32 c.len) ++ (le32 c.type ++ c.body) :=
  (commandBuf_bytes past c.toNat_len.symm).2

theorem mLen_buf (c : Command) (past : Mem) : swap32 ((c.buf past).mem.u32 0) = c.len := by
  have hu : (c.buf past).mem.u32 0 = (past.store 0 (le32 (swap32 c.len))).u32 0 := by
    apply Mem.u32_congr
    intro k hk
    rw [buf, commandBuf, filled, Buf.mem_store, Buf.mem_store, Buf.mem_store]
    rw [Mem.store_of_lt _ _ _ _ (by omega), Mem.store_of_lt _ _ _ _ (by omega)]
  rw [hu, Mem.u32_store_le32, swap32_swap32]

theorem drop_buf (c : Command) (past : Mem) : (c.buf past).bytes.drop 8 = c.body := by
  rw [bytes_buf, ← List.append_assoc]
  exact List.drop_left' rfl

/-- The next command is read, and nothing behind it. -/
theorem receive_eq {c : Command} {past : Mem} {sock : Sock} {rest : Bytes} (hs : Sound sock)
    (hc : contents sock = c.bytes ++ rest) :
    ∃ sock', Computes (receive past sock) (.command c.type c.len (c.buf past) sock') ∧
      contents sock' = rest ∧ Sound sock' := by
  have hlen := c.toNat_len
  have hle := c.size_le
  have hbody : (be 4 c.type.toNat ++ c.body).length = c.len.toNat - 4 := by
    rw [List.length_append, length_be]
    omega
  rw [bytes, List.append_assoc] at hc
  obtain ⟨sock', h1, h2⟩ := @receive_command past sock c.len _ rest hs hc (by omega) hbody
  rw [(commandBuf_bytes past hlen.symm).1] at h1
  exact ⟨sock', h1, h2⟩

end Command

/-- Calls in a row, each with surroundings and an expected type of its own: what
each has read, and what they leave on the socket. A later call is made from the
state the earlier ones lead to, whatever they return. -/
def calls : List (ServerEnv × UInt32) → Sock → RouterM (List (Option (UInt32 × Bytes)) × Sock)
  | [], sock => pure ([], sock)
  | (env, expected) :: cs, sock => do
    let call ← srReadFromServerExpect env expected sock
    let r ← calls cs call.rest
    pure (call.decoded :: r.1, r.2)

/-- A call has read the command, whatever it does with it. -/
theorem call_decoded {env : ServerEnv} {expected : UInt32} {sock sock' : Sock} {command len : UInt32} {b : Buf}
    (h : Computes (receive env.past sock) (.command command len b sock')) (s : SrInstance) :
    (srReadFromServerExpect env expected sock s).val.decoded = some (command, b.bytes.drop 8) ∧
    (srReadFromServerExpect env expected sock s).val.rest = sock' := by
  unfold srReadFromServerExpect parse
  simp only [bind_val, bind_st, h.val, h.st, pure_apply, and_self]

/-- Successive calls read the commands the stream was made of, one each. -/
theorem calls_decode {cmds : List Command} {cs : List (ServerEnv × UInt32)} (hn : cs.length = cmds.length)
    {sock : Sock} {rest : Bytes} (hs : Sound sock) (hc : contents sock = cmds.flatMap Command.bytes ++ rest)
    (s : SrInstance) :
    (calls cs sock s).val.1 = cmds.map (fun c => some (c.type, c.body)) ∧
    contents (calls cs sock s).val.2 = rest ∧ Sound (calls cs sock s).val.2 := by
  induction cmds generalizing cs sock s with
  | nil =>
    obtain rfl := List.length_eq_zero_iff.1 hn
    exact ⟨rfl, hc, hs⟩
  | cons c cmds ih =>
    obtain ⟨⟨env, expected⟩, cs, rfl⟩ := List.exists_cons_of_length_eq_add_one hn
    rw [List.flatMap_cons, List.append_assoc] at hc
    obtain ⟨sock', h1, hc', hs'⟩ := @Command.receive_eq c env.past sock _ hs hc
    obtain ⟨hd, hr⟩ := @call_decoded env expected _ _ _ _ _ h1 s
    rw [Command.drop_buf] at hd
    obtain ⟨ih1, ih2⟩ := ih (Nat.succ.inj hn) hs' hc' (srReadFromServerExpect env expected sock s).st
    simp only [calls, bind_val, pure_apply, hd, hr, ih1, ih2, List.map_cons, and_self]

namespace Sample

def serverEnv : ServerEnv where
  seq := 0
  now := 0
  heap := fun _ => 0
  past := fun _ => 0
  junk := fun _ => (Mac.zero, 0)
  logging := true
  rtableOpens := true
  authKey := true
  authSent := true
  userLen := 4

def banner : Command := ⟨vnsBanner, [104, 105, 0], by decide⟩

def unknown : Command := ⟨7, [], by decide⟩

/-- A banner, a command of a type that does not exist, and the first byte of a third, in five pieces. -/
def pieces : Sock :=
  [.eintr, .bytes [0, 0], .bytes [0, 11, 0], .eintr, .eintr, .bytes [0, 0, 8, 104], .bytes [105, 0, 0, 0],
    .bytes [0, 8, 0, 0, 0, 7, 0]]

end Sample

open Sample in
theorem calls_decode_pieces :
    (calls [(serverEnv, 0), (serverEnv, 0)] pieces (.init ifs rts)).val.1 = [some (8, [104, 105, 0]), some (7, [])] ∧
    contents (calls [(serverEnv, 0), (serverEnv, 0)] pieces (.init ifs rts)).val.2 = [0] ∧
    Sound (calls [(serverEnv, 0), (serverEnv, 0)] pieces (.init ifs rts)).val.2 :=
  @calls_decode [banner, unknown] _ rfl pieces [0] (by decide) (by decide) (.init ifs rts)

end SimpleRouter
