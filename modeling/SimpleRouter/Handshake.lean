import SimpleRouter.Digests
import SimpleRouter.RoutingTable
import SimpleRouter.Transport
/-!
# What the client says first

The answer of `sr_handle_auth_request` to the server's salt, and the message by
which `sr_connect_to_server` asks for a topology. `requests_decoded` says what
the server reads in each: the user with the digest of the salt and the key, and
the topology or the template that is asked for.
-/
open Memory CProg CText Struct BlockHash

namespace SimpleRouter

/-! ## Requests -/

def vnsOpen : UInt32 := 1
def vnsOpenTemplate : UInt32 := 64
def vnsAuthReply : UInt32 := 256

/-- Whom the client works for: the strings in `struct sr_instance`, as far as
their first NUL, and the file `auth_key`, if it can be opened. `strlen` and
`strcpy` need the NUL behind `user`; `strncpy` can do without one behind `host`
and `template`. -/
structure Account where
  user : Bytes
  host : Bytes
  template : Bytes
  topoId : UInt16
  authKey : Option Bytes
  user_fits : FitsField 31 user
  host_fits : FitsField 32 host
  template_fits : FitsField 30 template

/-- The memory the two functions find: where `auth_key`, `sha1` and the reply
come to be, and `ot`. -/
structure Scratch where
  stack : Mem
  sha1 : SHA1Context
  heap : Mem

/-- What `fgets(auth_key, AUTH_KEY_LEN+1, fp)` reads. -/
def authKeyLine (file : Bytes) : Option Bytes := (fgetsAll 65 file).head?

/-- The three calls of `sha1.c`. -/
def saltedSha1 (sha1 : SHA1Context) (salt key : Bytes) : Option (Bool × SHA1Context) := do
  let sha1 ← sha1Input (sha1Reset sha1) salt
  let sha1 ← sha1Input sha1 key
  sha1Result sha1

/-- The words of a digest in network order. -/
def Words.bytes (v : Words) : Bytes :=
  le32 (swap32 v.a) ++ (le32 (swap32 v.b) ++ (le32 (swap32 v.c) ++ (le32 (swap32 v.d) ++ le32 (swap32 v.e))))

/-- The reply of `sr_handle_auth_request`. -/
def authReply (heap : Mem) (user : Bytes) (digest : Words) : RouterM Buf := do
  let ar ← store32 ⟨12 + user.length + 20, heap⟩ 0 (swap32 (.ofNat (12 + user.length + 20)))
  let ar ← store32 ar 4 (swap32 vnsAuthReply)
  let ar ← store32 ar 8 (swap32 (.ofNat user.length))
  -- `strcpy` copies the NUL as well, which the digest then covers
  let ar ← storeBytes ar 12 (user ++ [0])
  storeBytes ar (12 + user.length) digest.bytes

/-- `sr_handle_auth_request` by what it sends: the `none` is a reply not sent. -/
def srHandleAuthRequestSends (mem : Scratch) (acct : Account) (b : Buf) : RouterM (Option Bytes) :=
  match acct.authKey.bind authKeyLine with
  | none => pure none
  | some line => do
    let authKey ← storeBytes ⟨65, mem.stack⟩ 0 (line ++ [0])
    let mLen ← load32 b 0
    let salt ← loadBytes b 8 (swap32 mLen - 8).toNat
    let key ← loadBytes authKey 0 64
    match saltedSha1 mem.sha1 salt key with
    | some (true, sha1) => do
      let ar ← authReply mem.heap acct.user sha1.messageDigest
      pure (some ar.bytes)
    | _ => pure none

/-- The `c_open` of `sr_connect_to_server`. -/
def openCommand (mem : Scratch) (acct : Account) : RouterM Buf := do
  let command ← store32 (.zeroed 108 mem.stack) 0 (swap32 108)
  let command ← store32 command 4 (swap32 vnsOpen)
  let command ← store16 command 8 (swap16 acct.topoId)
  let command ← storeBytes command 12 (pad 32 acct.host)
  storeBytes command 44 (pad 32 acct.user)

/-- Its `c_open_template`. -/
def openTemplateCommand (mem : Scratch) (acct : Account) : RouterM Buf := do
  let ot ← store32 ⟨70, mem.stack⟩ 0 (swap32 70)
  let ot ← store32 ot 4 (swap32 vnsOpenTemplate)
  let ot ← storeBytes ot 8 (pad 30 acct.template)
  storeBytes ot 38 (pad 32 acct.host)

/-- The message `sr_connect_to_server` sends once it is authenticated. -/
def openRequest (mem : Scratch) (acct : Account) : RouterM Buf :=
  if acct.template.length > 0 then openTemplateCommand mem acct else openCommand mem acct

/-! ## What is in them -/

@[simp] theorem length_words_bytes (v : Words) : v.bytes.length = 20 := rfl

/-- The NUL of a string is lost under what is stored next. -/
theorem store_string (b : Buf) (off : Nat) (s : Bytes) {bs : Bytes} (h : bs ≠ []) :
    (b.store off (s ++ [0])).store (off + s.length) bs = b.store off (s ++ bs) := by
  have hle : ([0] : Bytes).length ≤ bs.length := List.length_pos_iff.2 h
  rw [← Buf.store_append, ← Buf.store_append]
  simp only [Buf.store, Mem.store_over _ _ hle]

theorem authReply_computes (heap : Mem) {user : Bytes} (digest : Words) (h : user.length + 32 < 2 ^ 32) :
    ∃ ar, Computes (authReply heap user digest) ar ∧
      ar.bytes = be 4 (user.length + 32) ++ (be 4 256 ++ (be 4 user.length ++ (user ++ digest.bytes))) := by
  have hlen : (UInt32.ofNat (12 + user.length + 20)).toNat = user.length + 32 := by
    rw [UInt32.toNat_ofNat_of_lt' (show _ < 2 ^ 32 by omega)]
    omega
  have hulen : (UInt32.ofNat user.length).toNat = user.length := UInt32.toNat_ofNat_of_lt' (show _ < 2 ^ 32 by omega)
  have e1 := be_four (.ofNat (12 + user.length + 20))
  have e2 := be_four vnsAuthReply
  have e3 := be_four (.ofNat user.length)
  rw [hlen] at e1
  rw [hulen] at e3
  have hne : digest.bytes ≠ [] := List.ne_nil_of_length_pos (by rw [length_words_bytes]; decide)
  refine ⟨_, Computes.bind (.store32 _ _ _) (Computes.bind (.store32 _ _ _) (Computes.bind (.store32 _ _ _)
    (Computes.bind (.storeBytes _ _ _) (.storeBytes _ _ _)))), ?_⟩
  rw [store_string _ _ _ hne, Buf.store_then _ (by rw [length_le32]), Buf.store_then _ (by rw [length_le32]),
    Buf.store_then _ (by rw [length_le32])]
  rw [Buf.bytes_store_all _ (by simp; omega), ← e1, ← e3, show be 4 256 = le32 (swap32 vnsAuthReply) from e2]

theorem be_two (v : UInt16) : be 2 v.toNat = le16 (swap16 v) := by
  rw [swap16_bytes]
  rfl

theorem zeroed_bytes (n : Nat) (past : Mem) : (Buf.zeroed n past).bytes = List.replicate n 0 := by
  apply List.eq_replicate_iff.2
  refine ⟨by simp, ?_⟩
  intro b hb
  obtain ⟨k, hk, rfl⟩ := List.mem_map.1 hb
  rw [Nat.zero_add]
  exact if_pos (List.mem_range.1 hk)

theorem openCommand_computes (mem : Scratch) (acct : Account) : ∃ command, Computes (openCommand mem acct) command ∧
    command.bytes = be 4 108 ++ (be 4 1 ++ (be 2 acct.topoId.toNat ++ (be 2 0 ++ (pad 32 acct.host ++
      (pad 32 acct.user ++ pad 32 []))))) := by
  have e1 := be_four 108
  have e2 := be_four vnsOpen
  have e3 := be_two acct.topoId
  have hhead : (le32 (swap32 108) ++ le32 (swap32 vnsOpen) ++ le16 (swap16 acct.topoId)).length = 10 := rfl
  have hhost : (pad 32 acct.host ++ pad 32 acct.user).length = 64 := by rw [List.length_append, length_pad, length_pad]
  have hstore1 : ∀ b : Buf, ((b.store 0 (le32 (swap32 108))).store 4 (le32 (swap32 vnsOpen))).store 8
      (le16 (swap16 acct.topoId)) = b.store 0 (le32 (swap32 108) ++ le32 (swap32 vnsOpen) ++ le16 (swap16 acct.topoId)) := by
    intro b
    rw [show (b.store 0 (le32 (swap32 108))).store 4 (le32 (swap32 vnsOpen)) = _ from Buf.store_then b rfl _]
    exact Buf.store_then b rfl _
  have hstore2 : ∀ b : Buf, (b.store 12 (pad 32 acct.host)).store 44 (pad 32 acct.user) =
      b.store 12 (pad 32 acct.host ++ pad 32 acct.user) := fun b => Buf.store_then b (by rw [length_pad]) _
  refine ⟨_, Computes.bind (.store32 _ _ _) (Computes.bind (.store32 _ _ _) (Computes.bind (.storeBytes _ _ _)
    (Computes.bind (.storeBytes _ _ _) (.storeBytes _ _ _)))), ?_⟩
  rw [hstore1, hstore2, Buf.bytes_store _ _ _ (by rw [hhost]; simp), Buf.bytes_store _ _ _ (by rw [hhead]; simp), hhead,
    hhost, zeroed_bytes, List.take_zero, List.nil_append, List.drop_replicate, List.take_append, List.drop_append, hhead]
  -- between the topology and the host, and behind the user, the zeros stay
  simp only [List.take_replicate, List.drop_replicate]
  rw [List.take_of_length_le (by rw [hhead]; decide), List.drop_of_length_le (by rw [hhead]; decide),
    show be 4 108 = le32 (swap32 108) from e1, show be 4 1 = le32 (swap32 vnsOpen) from e2, e3]
  simp [be, pad]

theorem openTemplateCommand_computes (mem : Scratch) (acct : Account) :
    ∃ ot, Computes (openTemplateCommand mem acct) ot ∧
      ot.bytes = be 4 70 ++ (be 4 64 ++ (pad 30 acct.template ++ pad 32 acct.host)) := by
  have e1 := be_four 70
  have e2 := be_four vnsOpenTemplate
  refine ⟨_, Computes.bind (.store32 _ _ _) (Computes.bind (.store32 _ _ _) (Computes.bind (.storeBytes _ _ _)
    (.storeBytes _ _ _))), ?_⟩
  rw [Buf.store_then _ (by rw [length_pad]), Buf.store_then _ (by rw [length_le32]),
    Buf.store_then _ (by rw [length_le32])]
  rw [Buf.bytes_store_all _ (by simp), show be 4 70 = le32 (swap32 70) from e1,
    show be 4 64 = le32 (swap32 vnsOpenTemplate) from e2]

/-! ## The digest -/

/-- The 64 bytes `SHA1Input` is given of `auth_key`: the line that was read, its
NUL, and what the stack had there. -/
def keyBytes (stack : Mem) (line : Bytes) : Bytes := ((line ++ [0]) ++ stack.slice (line.length + 1) 64).take 64

/-- `fgets` leaves room for the NUL. -/
theorem fgetsFrom_length {size : Nat} {acc file : Bytes} (hacc : acc.length + 1 < size) :
    ∀ l ∈ fgetsFrom size acc file, l.length < size := by
  induction file generalizing acc with
  | nil =>
    intro l hl
    by_cases h : acc = []
    · simp [fgetsFrom, h] at hl
    · rw [fgetsFrom, if_neg h, List.mem_singleton] at hl
      rw [hl]
      omega
  | cons c cs ih =>
    intro l hl
    rw [fgetsFrom] at hl
    by_cases h : c = newline ∨ acc.length + 2 = size
    · rw [if_pos h] at hl
      rcases List.mem_cons.1 hl with rfl | hl
      · rw [List.length_append, List.length_singleton]
        exact hacc
      · exact ih (by rw [List.length_nil]; omega) l hl
    · rw [if_neg h] at hl
      have hne : ¬ acc.length + 2 = size := fun h' => h (.inr h')
      exact ih (by rw [List.length_append, List.length_singleton]; omega) l hl

theorem authKeyLine_length {file line : Bytes} (h : authKeyLine file = some line) : line.length ≤ 64 :=
  Nat.lt_succ_iff.1 (fgetsFrom_length (by decide) line (List.mem_of_mem_head? h))

theorem keyBytes_slice (stack : Mem) {line : Bytes} (h : line.length ≤ 64) :
    (Buf.store ⟨65, stack⟩ 0 (line ++ [0])).mem.slice 0 64 = keyBytes stack line := by
  have hlen : (line ++ [0]).length = line.length + 1 := by rw [List.length_append, List.length_singleton]
  have hslice : (stack.store 0 (line ++ [0])).slice 0 (line.length + 1 + 64) =
      line ++ [0] ++ stack.slice (line.length + 1) 64 := by
    have hb := Buf.bytes_store ⟨line.length + 1 + 64, stack⟩ 0 (line ++ [0]) (by rw [hlen]; simp)
    rw [List.take_zero, List.nil_append, Nat.zero_add, hlen, Buf.drop_bytes, Nat.add_sub_cancel_left] at hb
    exact hb
  rw [keyBytes, ← hslice, Mem.take_slice _ _ (by omega), Buf.mem_store]

/-- A line that fills the buffer leaves nothing of the stack to see. -/
theorem keyBytes_full (stack : Mem) {line : Bytes} (h : line.length = 64) : keyBytes stack line = line := by
  rw [keyBytes, List.append_assoc, List.take_append, h, List.take_of_length_le (Nat.le_of_eq h)]
  simp

/-- The calls of `sha1.c` give the digest of the salt and the key. -/
theorem saltedSha1_eq (sha1 : SHA1Context) {salt key : Bytes} (h : (salt ++ key).length < 2 ^ 61) :
    ∃ c, saltedSha1 sha1 salt key = some (true, c) ∧ c.messageDigest = Standard.sha1 (salt ++ key) := by
  have hsalt : salt.length < 2 ^ 61 := by
    rw [List.length_append] at h
    omega
  obtain ⟨c1, h1, hopen1, -⟩ := (sha1Reset_open sha1).input salt
  obtain ⟨c2, h2, hopen2, -⟩ := (hopen1 hsalt).input key
  obtain ⟨c3, h3, -, -, -, hdigest⟩ := (hopen2 h).result
  refine ⟨c3, ?_, hdigest⟩
  rw [saltedSha1, h1, Option.bind_eq_bind, Option.bind_some, h2, Option.bind_some, h3]

/-- What `sr_handle_auth_request` sends about a salt. -/
theorem srHandleAuthRequestSends_computes (mem : Scratch) (acct : Account) {line : Bytes}
    (hline : acct.authKey.bind authKeyLine = some line) (huser : acct.user.length + 32 < 2 ^ 32) (c : Command) (past : Mem) :
    Computes (srHandleAuthRequestSends mem acct (c.buf past)) (some (be 4 (acct.user.length + 32) ++ (be 4 256 ++
      (be 4 acct.user.length ++ (acct.user ++ (Standard.sha1 (c.body ++ keyBytes mem.stack line)).bytes))))) := by
  have hlen : line.length ≤ 64 := by
    obtain ⟨file, -, hfile⟩ := Option.bind_eq_some_iff.1 hline
    exact authKeyLine_length hfile
  have hkey : (keyBytes mem.stack line).length ≤ 64 := by
    rw [keyBytes, List.length_take]
    exact Nat.min_le_left _ _
  have hsize := c.size_le
  have hmLen := c.mLen_buf past
  have hcount : (c.len - 8).toNat = c.body.length := by
    have h8 : (8 : UInt32) ≤ c.len := by
      rw [UInt32.le_iff_toNat_le, c.toNat_len]
      exact Nat.le_add_right 8 _
    rw [UInt32.toNat_sub_of_le _ _ h8, c.toNat_len]
    exact Nat.add_sub_cancel_left 8 _
  have hsalt : (c.buf past).mem.slice 8 c.body.length = c.body := by
    have hdrop := c.drop_buf past
    rw [Buf.drop_bytes] at hdrop
    have hb : (c.buf past).size - 8 = c.body.length := by
      change c.len.toNat - 8 = _
      rw [c.toNat_len]
      exact Nat.add_sub_cancel_left 8 _
    rwa [hb] at hdrop
  obtain ⟨sha1, hsha1, hdigest⟩ := @saltedSha1_eq mem.sha1 c.body (keyBytes mem.stack line) (by
    rw [List.length_append]
    omega)
  obtain ⟨ar, har, hbytes⟩ := authReply_computes mem.heap sha1.messageDigest huser
  rw [hdigest] at hbytes
  unfold srHandleAuthRequestSends
  rw [hline]
  refine Computes.bind (.storeBytes _ _ _) (Computes.bind (.load32 _ _) (Computes.bind (.loadBytes _ _ _)
    (Computes.bind (.loadBytes _ _ _) ?_)))
  rw [hmLen, hcount, hsalt, keyBytes_slice mem.stack hlen, hsha1, ← hbytes]
  exact har.bind (.pure _)

/-! ## What the server reads -/

theorem unpack_authReply {user ssp : Bytes} (h : user.length < 2 ^ 32) :
    VNSAuthReply.unpack (be 4 user.length ++ (user ++ ssp)) = some ⟨user, ssp⟩ := by
  have hu := VNSAuthReply.unpack_pack (m := ⟨user, ssp⟩) h
  have hp : VNSAuthReply.pack ⟨user, ssp⟩ = some (be 4 user.length ++ (user ++ ssp)) := by
    have hlt : (user.length : Int) < 4294967296 := by omega
    simp [VNSAuthReply.pack, Struct.pack, Field.pack, packInt, hlt]
  rw [hp] at hu
  exact hu

theorem unpack_open {topoId : UInt16} {host user : Bytes} (hhost : FitsField 32 host) (huser : FitsField 32 user) :
    VNSOpen.unpack (be 2 topoId.toNat ++ (be 2 0 ++ (pad 32 host ++ (pad 32 user ++ pad 32 [])))) =
      some ⟨topoId.toNat, host, user, []⟩ := by
  have hlt := topoId.toNat_lt
  have hfits : VNSOpen.Fits ⟨topoId.toNat, host, user, []⟩ := by
    refine ⟨⟨by simp, ?_⟩, hhost, huser, ⟨List.not_mem_nil, Nat.zero_le 32⟩⟩
    change (topoId.toNat : Int) < 65536
    omega
  have hu := VNSOpen.unpack_pack hfits
  have hlt' : (topoId.toNat : Int) < 65536 := by omega
  have hp : VNSOpen.pack ⟨topoId.toNat, host, user, []⟩ =
      some (be 2 topoId.toNat ++ (be 2 0 ++ (pad 32 host ++ (pad 32 user ++ pad 32 [])))) := by
    simp [VNSOpen.pack, VNSOpen.format, Struct.pack, Field.pack, packInt, hlt']
  rw [hp] at hu
  exact hu

theorem unpack_openTemplate {template host : Bytes} (ht : FitsField 30 template) (hhost : FitsField 32 host) :
    VNSOpenTemplate.unpack (pad 30 template ++ pad 32 host) = some (.new template host []) := by
  have hp : Struct.pack VNSOpenTemplate.headerFormat [.str template, .str host] = some (pad 30 template ++ (pad 32 host ++ [])) :=
    rfl
  obtain ⟨h1, h2⟩ := unpack_take hp []
  rw [List.append_nil, List.append_nil] at h1 h2
  rw [VNSOpenTemplate.unpack, h1, h2]
  simp [VNSOpenTemplate.headerFormat, Field.held, stripNullChars_pad ht, stripNullChars_pad hhost]

/-- The header of a message and its body. -/
theorem header_split {n type : Nat} {m body : Bytes} (h : m = be 4 n ++ (be 4 type ++ body)) (hn : n = 8 + body.length) :
    m.take 8 = be 4 m.length ++ be 4 type ∧ m.drop 8 = body := by
  have h8 : (be 4 n ++ be 4 type).length = 8 := by rw [List.length_append, length_be, length_be]
  have hlen : m.length = n := by
    rw [h, List.length_append, List.length_append, length_be, length_be, hn]
    omega
  rw [hlen, h, ← List.append_assoc]
  exact ⟨List.take_left' h8, List.drop_left' h8⟩

/-- The server reads in the client's messages what they are made from: the user
and the digest of its salt and the key, of nothing else if the line of the key
fills its buffer; then the topology, or the template if one is named. -/
theorem requests_decoded (mem : Scratch) (acct : Account) {line : Bytes}
    (hline : acct.authKey.bind authKeyLine = some line) (c : Command) (past : Mem) : ∃ reply opening,
    Computes (srHandleAuthRequestSends mem acct (c.buf past)) (some reply) ∧
    (reply.take 8 = be 4 reply.length ++ be 4 256 ∧ VNSAuthReply.unpack (reply.drop 8) =
      some ⟨acct.user, (Standard.sha1 (c.body ++ keyBytes mem.stack line)).bytes⟩) ∧
    (line.length = 64 → VNSAuthReply.unpack (reply.drop 8) =
      some ⟨acct.user, (Standard.sha1 (c.body ++ line)).bytes⟩) ∧
    Computes (openRequest mem acct) opening ∧
    (acct.template = [] → opening.bytes.take 8 = be 4 opening.bytes.length ++ be 4 1 ∧
      VNSOpen.unpack (opening.bytes.drop 8) = some ⟨acct.topoId.toNat, acct.host, acct.user, []⟩) ∧
    (acct.template ≠ [] → opening.bytes.take 8 = be 4 opening.bytes.length ++ be 4 64 ∧
      VNSOpenTemplate.unpack (opening.bytes.drop 8) = some (.new acct.template acct.host [])) := by
  have hulen := acct.user_fits.2
  have hreply := srHandleAuthRequestSends_computes mem acct hline (by omega) c past
  obtain ⟨hhead, hbody⟩ := header_split (m := _) rfl (show acct.user.length + 32 = 8 + (be 4 acct.user.length ++
    (acct.user ++ (Standard.sha1 (c.body ++ keyBytes mem.stack line)).bytes)).length by
      simp only [List.length_append, length_be, length_words_bytes]
      omega)
  have hread := @unpack_authReply acct.user (Standard.sha1 (c.body ++ keyBytes mem.stack line)).bytes
    (show acct.user.length < 2 ^ 32 by omega)
  obtain ⟨opening, hopen, hopening⟩ : ∃ opening, Computes (openRequest mem acct) opening ∧
      (acct.template = [] → opening.bytes.take 8 = be 4 opening.bytes.length ++ be 4 1 ∧
        VNSOpen.unpack (opening.bytes.drop 8) = some ⟨acct.topoId.toNat, acct.host, acct.user, []⟩) ∧
      (acct.template ≠ [] → opening.bytes.take 8 = be 4 opening.bytes.length ++ be 4 64 ∧
        VNSOpenTemplate.unpack (opening.bytes.drop 8) = some (.new acct.template acct.host [])) := by
    by_cases ht : acct.template = []
    · obtain ⟨command, hc, hbytes⟩ := openCommand_computes mem acct
      obtain ⟨h1, h2⟩ := header_split hbytes (by simp only [List.length_append, length_be, length_pad])
      refine ⟨command, by simpa [openRequest, ht] using hc, fun _ => ⟨h1, ?_⟩, fun h => absurd ht h⟩
      rw [h2, unpack_open acct.host_fits (acct.user_fits.mono (by decide))]
    · obtain ⟨ot, hc, hbytes⟩ := openTemplateCommand_computes mem acct
      obtain ⟨h1, h2⟩ := header_split hbytes (by simp only [List.length_append, length_pad])
      have hpos : acct.template.length > 0 := List.length_pos_iff.2 ht
      refine ⟨ot, by rw [openRequest, if_pos hpos]; exact hc, fun h => absurd h ht, fun _ => ⟨h1, ?_⟩⟩
      rw [h2, unpack_openTemplate acct.template_fits acct.host_fits]
  refine ⟨_, opening, hreply, ⟨hhead, by rw [hbody]; exact hread⟩, ?_, hopen, hopening⟩
  intro hfull
  rw [hbody, hread, keyBytes_full mem.stack hfull]

namespace Sample

def keyLine : Bytes := List.replicate 64 97

/-- `ubuntu` on `vrhost`, with a key of 64 letters and a newline behind them. -/
def account : Account where
  user := [117, 98, 117, 110, 116, 117]
  host := [118, 114, 104, 111, 115, 116]
  template := []
  topoId := 1
  authKey := some (keyLine ++ [10])
  user_fits := by decide
  host_fits := by decide
  template_fits := by decide

def scratch : Scratch := ⟨fun _ => 7, context, fun _ => 0⟩

/-- The server's salt, of 20 bytes. -/
def salted : Command := ⟨vnsAuthRequest, List.replicate 20 9, by decide⟩

end Sample

open Sample in
theorem requests_decoded_sample : ∃ reply opening,
    Computes (srHandleAuthRequestSends scratch account (salted.buf fun _ => 0)) (some reply) ∧
    VNSAuthReply.unpack (reply.drop 8) = some ⟨account.user, (Standard.sha1 (salted.body ++ keyLine)).bytes⟩ ∧
    Computes (openRequest scratch account) opening ∧
    VNSOpen.unpack (opening.bytes.drop 8) = some ⟨1, account.host, account.user, []⟩ := by
  obtain ⟨reply, opening, hreply, -, hfull, hopen, hplain, -⟩ := @requests_decoded scratch account keyLine (by decide)
    salted (fun _ => 0)
  exact ⟨reply, opening, hreply, hfull (by decide), hopen, (hplain rfl).2⟩

end SimpleRouter
