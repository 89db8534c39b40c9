import SimpleRouter.Lib.Struct
/-!
# The messages of the virtual network server

`VNSProtocol.py`: the message classes with their `pack` and `unpack`, on byte
strings. A Python exception is `none`. What `inet_aton` accepts besides dotted
quads is the C library's affair, so it is a parameter here; `inet_ntoa` writes
the four numbers. `vns_round_trip` puts the nine classes that have both
directions together.
-/
open Struct

namespace SimpleRouter

/-- `IDSIZE`. -/
abbrev idSize : Nat := 32

/-- `strip_null_chars`: the string without its NULs, wherever they are. -/
def stripNullChars (s : Bytes) : Bytes := s.filter (· ≠ 0)

/-- A string that a field of `n` bytes holds and gives back. -/
def FitsField (n : Nat) (s : Bytes) : Prop := 0 ∉ s ∧ s.length ≤ n

instance (n : Nat) (s : Bytes) : Decidable (FitsField n s) := inferInstanceAs (Decidable (_ ∧ _))

theorem FitsField.mono {n m : Nat} {s : Bytes} (h : FitsField n s) (hle : n ≤ m) : FitsField m s := ⟨h.1, Nat.le_trans h.2 hle⟩

theorem stripNullChars_pad {n : Nat} {s : Bytes} (h : FitsField n s) : stripNullChars (pad n s) = s := by
  have hs : s.filter (· ≠ 0) = s := by
    apply List.filter_eq_self.2
    intro b hb
    have hb0 : b ≠ 0 := by
      rintro rfl
      exact h.1 hb
    simpa using hb0
  have hz : (List.replicate (n - s.length) (0 : UInt8)).filter (· ≠ 0) = [] := by
    apply List.filter_eq_nil_iff.2
    intro b hb
    rw [(List.mem_replicate.1 hb).2]
    simp
  rw [stripNullChars, pad_of_le h.2, List.filter_append, hs, hz, List.append_nil]

/-! ## OPEN, CLOSE, PACKET, BANNER and RTABLE -/

structure VNSOpen where
  topoId : Int
  vhost : Bytes
  user : Bytes
  pw : Bytes
deriving DecidableEq

namespace VNSOpen

/-- `'> HH 32s 32s 32s'`. -/
def format : List Field := [.H, .H, .s idSize, .s idSize, .s idSize]

def pack (m : VNSOpen) : Option Bytes :=
  Struct.pack format [.int m.topoId, .int 0, .str m.vhost, .str m.user, .str m.pw]

def unpack (body : Bytes) : Option VNSOpen :=
  match Struct.unpack format body with
  -- the second value is padding
  | some [.int topoId, .int _, .str vhost, .str user, .str pw] =>
    some ⟨topoId, stripNullChars vhost, stripNullChars user, stripNullChars pw⟩
  | _ => none

/-- The fields are within their widths. -/
def Fits (m : VNSOpen) : Prop :=
  (0 ≤ m.topoId ∧ m.topoId < 65536) ∧ FitsField idSize m.vhost ∧ FitsField idSize m.user ∧ FitsField idSize m.pw

instance (m : VNSOpen) : Decidable m.Fits := inferInstanceAs (Decidable (_ ∧ _ ∧ _ ∧ _))

theorem unpack_pack {m : VNSOpen} (h : m.Fits) : m.pack.bind unpack = some m := by
  obtain ⟨htopo, hvhost, huser, hpw⟩ := h
  have hp : m.pack = some (be 2 m.topoId.toNat ++ (be 2 0 ++ (pad 32 m.vhost ++ (pad 32 m.user ++ (pad 32 m.pw ++ []))))) := by
    simp [pack, format, Struct.pack, Field.pack, packInt, htopo]
  rw [hp, Option.bind_some, unpack, Struct.unpack_pack hp]
  simp only [format, List.zipWith, Field.held, stripNullChars_pad hvhost, stripNullChars_pad huser,
    stripNullChars_pad hpw]

end VNSOpen

/-- A message that is one text of 256 bytes. -/
def textFormat : List Field := [.s 256]

def packText (msg : Bytes) : Option Bytes := Struct.pack textFormat [.str msg]

def unpackText (body : Bytes) : Option Bytes :=
  match Struct.unpack textFormat body with
  | some [.str msg] => some (stripNullChars msg)
  | _ => none

theorem unpackText_packText {msg : Bytes} (h : FitsField 256 msg) : (packText msg).bind unpackText = some msg := by
  have hp : packText msg = some (pad 256 msg ++ []) := rfl
  rw [hp, Option.bind_some, unpackText, Struct.unpack_pack hp]
  simp only [textFormat, List.zipWith, Field.held, stripNullChars_pad h]

structure VNSClose where
  msg : Bytes
deriving DecidableEq

def VNSClose.pack (m : VNSClose) : Option Bytes := packText m.msg
def VNSClose.unpack (body : Bytes) : Option VNSClose := (unpackText body).map VNSClose.mk

theorem VNSClose.unpack_pack {m : VNSClose} (h : FitsField 256 m.msg) : m.pack.bind unpack = some m := by
  have ht := unpackText_packText h
  obtain ⟨bs, hbs, hm⟩ := Option.bind_eq_some_iff.1 ht
  rw [pack, hbs, Option.bind_some, unpack, hm]
  rfl

structure VNSBanner where
  msg : Bytes
deriving DecidableEq

def VNSBanner.pack (m : VNSBanner) : Option Bytes := packText m.msg
def VNSBanner.unpack (body : Bytes) : Option VNSBanner := (unpackText body).map VNSBanner.mk

theorem VNSBanner.unpack_pack {m : VNSBanner} (h : FitsField 256 m.msg) : m.pack.bind unpack = some m := by
  have ht := unpackText_packText h
  obtain ⟨bs, hbs, hm⟩ := Option.bind_eq_some_iff.1 ht
  rw [pack, hbs, Option.bind_some, unpack, hm]
  rfl

structure VNSPacket where
  intfName : Bytes
  ethernetFrame : Bytes
deriving DecidableEq

namespace VNSPacket

/-- `HEADER_FORMAT`, `'> 16s'`. -/
def headerFormat : List Field := [.s 16]

def pack (m : VNSPacket) : Option Bytes := (Struct.pack headerFormat [.str m.intfName]).map (· ++ m.ethernetFrame)

def unpack (body : Bytes) : Option VNSPacket :=
  match Struct.unpack headerFormat (body.take (calcsize headerFormat)) with
  | some [.str name] => some ⟨stripNullChars name, body.drop (calcsize headerFormat)⟩
  | _ => none

theorem pack_eq (m : VNSPacket) : m.pack = some (pad 16 m.intfName ++ m.ethernetFrame) := by
  simp [pack, headerFormat, Struct.pack, Field.pack]

theorem unpack_pad (name frame : Bytes) : unpack (pad 16 name ++ frame) = some ⟨stripNullChars (pad 16 name), frame⟩ := by
  have hp : Struct.pack headerFormat [.str name] = some (pad 16 name ++ []) := rfl
  obtain ⟨h1, h2⟩ := unpack_take hp frame
  rw [List.append_nil] at h1 h2
  rw [unpack, h1, h2]
  rfl

theorem unpack_pack {m : VNSPacket} (h : FitsField 16 m.intfName) : m.pack.bind unpack = some m := by
  rw [pack_eq, Option.bind_some, unpack_pad, stripNullChars_pad h]

end VNSPacket

structure VNSRtable where
  vrhost : Bytes
  rtable : Bytes
deriving DecidableEq

namespace VNSRtable

/-- `HEADER_FORMAT`, `'> 32s'`. -/
def headerFormat : List Field := [.s idSize]

def pack (m : VNSRtable) : Option Bytes := (Struct.pack headerFormat [.str m.vrhost]).map (· ++ m.rtable)

def unpack (body : Bytes) : Option VNSRtable := some ⟨stripNullChars (body.take idSize), body.drop idSize⟩

theorem unpack_pack {m : VNSRtable} (h : FitsField idSize m.vrhost) : m.pack.bind unpack = some m := by
  have hp : m.pack = some (pad idSize m.vrhost ++ m.rtable) := by
    simp [pack, headerFormat, Struct.pack, Field.pack]
  rw [hp, Option.bind_some, unpack, List.take_left' (length_pad _ _), List.drop_left' (length_pad _ _),
    stripNullChars_pad h]

end VNSRtable

/-! ## Dotted quads -/

/-- A byte in decimal. -/
def decimal (b : UInt8) : Bytes :=
  if b < 10 then [48 + b]
  else if b < 100 then [48 + b / 10, 48 + b % 10]
  else [48 + b / 100, 48 + b / 10 % 10, 48 + b % 10]

/-- `inet_ntoa`, which takes four bytes. -/
def inetNtoa : Bytes → Option Bytes
  | [a, b, c, d] => some (decimal a ++ 46 :: (decimal b ++ 46 :: (decimal c ++ 46 :: decimal d)))
  | _ => none

/-- `inet_aton` reads a dotted quad as the four bytes it is written from. -/
def ReadsQuads (inetAton : Bytes → Option Bytes) : Prop := ∀ quad ip, inetNtoa quad = some ip → inetAton ip = some quad

/-- `ip` is a dotted quad. -/
def IsQuad (ip : Bytes) : Prop := ∃ quad, inetNtoa quad = some ip

theorem inetNtoa_length {quad ip : Bytes} (h : inetNtoa quad = some ip) : quad.length = 4 := by
  match quad, h with
  | [_, _, _, _], _ => rfl

/-! ## OPEN_TEMPLATE -/

/-- A source filter: an address and the number of masked bits. -/
abbrev SrcFilter := Bytes × Int

structure VNSOpenTemplate where
  templateName : Bytes
  vrhost : Bytes
  srcFilters : List SrcFilter
deriving DecidableEq

namespace VNSOpenTemplate

/-- `NO_SRC_FILTERS`: everything, `'0.0.0.0'` with no masked bits. -/
def noSrcFilters : List SrcFilter := [([48, 46, 48, 46, 48, 46, 48], 0)]

/-- The constructor, where no filters mean `NO_SRC_FILTERS`. -/
def new (templateName vrhost : Bytes) (srcFilters : List SrcFilter) : VNSOpenTemplate :=
  ⟨templateName, vrhost, if srcFilters = [] then noSrcFilters else srcFilters⟩

/-- `HEADER_FORMAT`, `'> 30s 32s'`. -/
def headerFormat : List Field := [.s 30, .s idSize]

section Pack
variable (inetAton : Bytes → Option Bytes)

/-- `inet_aton(ip) + struct.pack('>B', mask)`. -/
def packFilter (f : SrcFilter) : Option Bytes := do
  let addr ← inetAton f.1
  let mask ← Struct.pack [.B] [.int f.2]
  pure (addr ++ mask)

def pack (m : VNSOpenTemplate) : Option Bytes := do
  let filters ← m.srcFilters.mapM (packFilter inetAton)
  let header ← Struct.pack headerFormat [.str m.templateName, .str m.vrhost]
  pure (header ++ filters.flatten)

end Pack

/-- The loop body of `unpack`, for filter number `i`. -/
def unpackFilter (sfBytes : Bytes) (i : Nat) : Option SrcFilter := do
  let ip ← inetNtoa ((sfBytes.drop (i * 5)).take 4)
  match Struct.unpack [.B] ((sfBytes.drop (i * 5 + 4)).take 1) with
  | some [.int mask] => if mask < 0 ∨ mask > 32 then none else some (ip, mask)
  | _ => none

def unpack (body : Bytes) : Option VNSOpenTemplate :=
  match Struct.unpack headerFormat (body.take (calcsize headerFormat)) with
  | some [.str name, .str vrhost] => do
    let sfBytes := body.drop (calcsize headerFormat)
    let srcFilters ← (List.range (sfBytes.length / 5)).mapM (unpackFilter sfBytes)
    pure (new (stripNullChars name) (stripNullChars vrhost) srcFilters)
  | _ => none

/-- A filter for a dotted quad with at most 32 masked bits. -/
def FilterFits (f : SrcFilter) : Prop := IsQuad f.1 ∧ 0 ≤ f.2 ∧ f.2 ≤ 32

theorem noSrcFilters_fit : ∀ f ∈ noSrcFilters, FilterFits f := by
  intro f hf
  obtain rfl := List.mem_singleton.1 hf
  exact ⟨⟨[0, 0, 0, 0], rfl⟩, by decide, by decide⟩

/-- A filter takes five bytes, from which it is read back. -/
theorem packFilter_some {inetAton : Bytes → Option Bytes} (hq : ReadsQuads inetAton) {f : SrcFilter}
    (h : FilterFits f) : ∃ quad mask, packFilter inetAton f = some (quad ++ mask) ∧ inetNtoa quad = some f.1 ∧
      mask.length = 1 ∧ Struct.unpack [.B] mask = some [.int f.2] := by
  obtain ⟨⟨quad, hquad⟩, h0, h32⟩ := h
  have hp : Struct.pack [.B] [.int f.2] = some (be 1 f.2.toNat ++ []) := by
    have hlt : f.2 < 256 := by omega
    simp [Struct.pack, Field.pack, packInt, h0, hlt]
  refine ⟨quad, be 1 f.2.toNat ++ [], ?_, hquad, by simp, Struct.unpack_pack hp⟩
  rw [packFilter, hq quad f.1 hquad, hp]
  rfl

theorem unpackFilter_some {inetAton : Bytes → Option Bytes} (hq : ReadsQuads inetAton) {fs : List SrcFilter}
    (hf : ∀ f ∈ fs, FilterFits f) {recs : List Bytes} (hr : fs.mapM (packFilter inetAton) = some recs) :
    recs.flatten.length / 5 = fs.length ∧ ∀ i f, fs[i]? = some f → unpackFilter recs.flatten i = some f := by
  have hat := getElem?_mapM hr
  have hlen : recs.length = fs.length := length_mapM hr
  have hfive : ∀ r ∈ recs, r.length = 5 := by
    intro r hmem
    obtain ⟨f, hfs, hpack⟩ := mem_mapM hr hmem
    obtain ⟨quad, mask, hp, hquad, hmask, -⟩ := packFilter_some hq (hf f hfs)
    cases hpack.symm.trans hp
    rw [List.length_append, inetNtoa_length hquad, hmask]
  constructor
  · rw [length_flatten_records hfive, hlen, Nat.mul_div_cancel_left _ (by decide)]
  · intro i f hfi
    obtain ⟨quad, mask, hp, hquad, hmask, hread⟩ := packFilter_some hq (hf f (List.mem_of_getElem? hfi))
    have hri : recs[i]? = some (quad ++ mask) := by rw [hat i, hfi, Option.bind_some, hp]
    obtain ⟨rest, hrest⟩ := drop_flatten_records hfive hri []
    rw [List.append_nil, Nat.mul_comm] at hrest
    have hq4 := inetNtoa_length hquad
    have hip : (recs.flatten.drop (i * 5)).take 4 = quad := by
      rw [hrest, List.append_assoc, List.take_left' hq4]
    have hm : (recs.flatten.drop (i * 5 + 4)).take 1 = mask := by
      rw [← List.drop_drop, hrest, List.append_assoc, List.drop_left' hq4, List.take_left' hmask]
    have hrange : ¬ (f.2 < 0 ∨ f.2 > 32) := by
      obtain ⟨-, h0, h32⟩ := hf f (List.mem_of_getElem? hfi)
      omega
    simp only [unpackFilter, hip, hm, hquad, hread, hrange, Option.bind_eq_bind, Option.bind_some, if_false]

theorem unpack_pack {inetAton : Bytes → Option Bytes} (hq : ReadsQuads inetAton) {name vrhost : Bytes}
    {fs : List SrcFilter} (hn : FitsField 30 name) (hv : FitsField idSize vrhost) (hf : ∀ f ∈ fs, FilterFits f) :
    ((new name vrhost fs).pack inetAton).bind unpack = some (new name vrhost fs) := by
  have hfs : ∀ f ∈ (new name vrhost fs).srcFilters, FilterFits f := by
    intro f hmem
    by_cases hnil : fs = []
    · exact noSrcFilters_fit f (by simpa [new, hnil] using hmem)
    · exact hf f (by simpa [new, hnil] using hmem)
  have hne : (new name vrhost fs).srcFilters ≠ [] := by
    by_cases hnil : fs = []
    · simp [new, hnil, noSrcFilters]
    · simp [new, hnil]
  obtain ⟨recs, hrecs⟩ : ∃ recs, (new name vrhost fs).srcFilters.mapM (packFilter inetAton) = some recs := by
    apply mapM_exists
    intro f hmem
    obtain ⟨quad, mask, hp, -⟩ := packFilter_some hq (hfs f hmem)
    exact ⟨quad ++ mask, hp⟩
  obtain ⟨hcount, hread⟩ := unpackFilter_some hq hfs hrecs
  have hhead : Struct.pack headerFormat [.str name, .str vrhost] = some (pad 30 name ++ (pad 32 vrhost ++ [])) := rfl
  have hpack : (new name vrhost fs).pack inetAton =
      some (pad 30 name ++ (pad 32 vrhost ++ []) ++ recs.flatten) := by
    have hname : (new name vrhost fs).templateName = name := rfl
    have hhost : (new name vrhost fs).vrhost = vrhost := rfl
    simp only [pack, hname, hhost, hrecs, hhead, Option.bind_eq_bind, Option.bind_some, Option.pure_def]
  obtain ⟨h1, h2⟩ := unpack_take hhead recs.flatten
  have hloop := mapM_range hread
  rw [hpack, Option.bind_some, unpack, h1, h2]
  simp only [headerFormat, List.zipWith, Field.held, hcount, hloop, stripNullChars_pad hn, stripNullChars_pad hv,
    Option.bind_eq_bind, Option.bind_some, Option.pure_def, Option.some.injEq]
  -- the filters that come back are not empty, so the constructor keeps them
  rw [new, if_neg hne, new]

end VNSOpenTemplate

/-! ## Authentication -/

structure VNSAuthRequest where
  salt : Bytes
deriving DecidableEq

def VNSAuthRequest.pack (m : VNSAuthRequest) : Option Bytes := some m.salt
def VNSAuthRequest.unpack (body : Bytes) : Option VNSAuthRequest := some ⟨body⟩

theorem VNSAuthRequest.unpack_pack (m : VNSAuthRequest) : m.pack.bind unpack = some m := rfl

/-- `ssp` is the SHA-1 of the salted password. -/
structure VNSAuthReply where
  username : Bytes
  ssp : Bytes
deriving DecidableEq

namespace VNSAuthReply

def pack (m : VNSAuthReply) : Option Bytes :=
  (Struct.pack [.I] [.int m.username.length]).map fun len => len ++ m.username ++ m.ssp

def unpack (body : Bytes) : Option VNSAuthReply :=
  match Struct.unpack [.I] (body.take 4) with
  | some [.int len] => some ⟨(body.drop 4).take len.toNat, (body.drop 4).drop len.toNat⟩
  | _ => none

theorem unpack_pack {m : VNSAuthReply} (h : m.username.length < 2 ^ 32) : m.pack.bind unpack = some m := by
  have hp : Struct.pack [.I] [.int m.username.length] = some (be 4 m.username.length ++ []) := by
    have hlt : (m.username.length : Int) < 4294967296 := by omega
    simp [Struct.pack, Field.pack, packInt, hlt]
  obtain ⟨h1, h2⟩ := unpack_take hp (m.username ++ m.ssp)
  have h4 : calcsize [.I] = 4 := rfl
  rw [h4] at h1 h2
  rw [pack, hp, Option.map_some, Option.bind_some, List.append_assoc, unpack, h1, h2]
  simp only [List.zipWith, Field.held, Int.toNat_natCast, List.take_left, List.drop_left]

end VNSAuthReply

structure VNSAuthStatus where
  authOk : Bool
  msg : Bytes
deriving DecidableEq

namespace VNSAuthStatus

def pack (m : VNSAuthStatus) : Option Bytes :=
  (Struct.pack [.B] [.int (if m.authOk then 1 else 0)]).map (· ++ m.msg)

def unpack (body : Bytes) : Option VNSAuthStatus :=
  match Struct.unpack [.B] (body.take 1) with
  | some [.int authOk] => some ⟨authOk ≠ 0, body.drop 1⟩
  | _ => none

theorem unpack_pack (m : VNSAuthStatus) : m.pack.bind unpack = some m := by
  obtain ⟨authOk, msg⟩ := m
  cases authOk <;> rfl

end VNSAuthStatus

/-! ## Every class -/

/-- A message that is packed and unpacked has the fields it had; an
`OPEN_TEMPLATE` without filters comes back with the one that lets everything
through. -/
theorem vns_round_trip {inetAton : Bytes → Option Bytes} (hq : ReadsQuads inetAton) :
    (∀ m : VNSOpen, m.Fits → m.pack.bind VNSOpen.unpack = some m) ∧
    (∀ m : VNSClose, FitsField 256 m.msg → m.pack.bind VNSClose.unpack = some m) ∧
    (∀ m : VNSPacket, FitsField 16 m.intfName → m.pack.bind VNSPacket.unpack = some m) ∧
    (∀ m : VNSBanner, FitsField 256 m.msg → m.pack.bind VNSBanner.unpack = some m) ∧
    (∀ m : VNSRtable, FitsField idSize m.vrhost → m.pack.bind VNSRtable.unpack = some m) ∧
    (∀ name vrhost fs, FitsField 30 name → FitsField idSize vrhost → (∀ f ∈ fs, VNSOpenTemplate.FilterFits f) →
      ((VNSOpenTemplate.new name vrhost fs).pack inetAton).bind VNSOpenTemplate.unpack =
        some ⟨name, vrhost, if fs = [] then VNSOpenTemplate.noSrcFilters else fs⟩) ∧
    (∀ m : VNSAuthRequest, m.pack.bind VNSAuthRequest.unpack = some m) ∧
    (∀ m : VNSAuthReply, m.username.length < 2 ^ 32 → m.pack.bind VNSAuthReply.unpack = some m) ∧
    (∀ m : VNSAuthStatus, m.pack.bind VNSAuthStatus.unpack = some m) :=
  ⟨fun _ => VNSOpen.unpack_pack, fun _ => VNSClose.unpack_pack, fun _ => VNSPacket.unpack_pack,
    fun _ => VNSBanner.unpack_pack, fun _ => VNSRtable.unpack_pack,
    fun _ _ _ => VNSOpenTemplate.unpack_pack hq, VNSAuthRequest.unpack_pack, fun _ => VNSAuthReply.unpack_pack,
    VNSAuthStatus.unpack_pack⟩

/-! ## Reading dotted quads -/

/-- The parts of a string between its dots. -/
def splitDots : Bytes → List Bytes
  | [] => [[]]
  | b :: bs =>
    if b = 46 then [] :: splitDots bs
    else match splitDots bs with
      | [] => [[b]]
      | part :: parts => (b :: part) :: parts

def readDecimal (ds : Bytes) : Nat := ds.foldl (fun n d => 10 * n + (d.toNat - 48)) 0

/-- `part` is a decimal number of one byte. -/
def IsDecimal (part : Bytes) : Prop := part ≠ [] ∧ (∀ d ∈ part, 48 ≤ d ∧ d ≤ 57) ∧ readDecimal part < 256

instance (part : Bytes) : Decidable (IsDecimal part) := inferInstanceAs (Decidable (_ ∧ _ ∧ _))

/-- `inet_aton` on four decimal numbers. -/
def quadAton (ip : Bytes) : Option Bytes :=
  match splitDots ip with
  | [a, b, c, d] =>
    if ∀ part ∈ [a, b, c, d], IsDecimal part then some ([a, b, c, d].map fun part => .ofNat (readDecimal part))
    else none
  | _ => none

theorem splitDots_append {ds : Bytes} (h : 46 ∉ ds) (rest : Bytes) :
    splitDots (ds ++ 46 :: rest) = ds :: splitDots rest := by
  induction ds with
  | nil => simp [splitDots]
  | cons d ds ih =>
    have hd : d ≠ 46 := fun hd => h (by simp [hd])
    rw [List.cons_append, splitDots, if_neg hd, ih fun hm => h (by simp [hm])]

theorem splitDots_last {ds : Bytes} (h : 46 ∉ ds) : splitDots ds = [ds] := by
  induction ds with
  | nil => rfl
  | cons d ds ih =>
    have hd : d ≠ 46 := fun hd => h (by simp [hd])
    rw [splitDots, if_neg hd, ih fun hm => h (by simp [hm])]

theorem toNat_digit {d : UInt8} (h : d.toNat < 10) : (48 + d).toNat = 48 + d.toNat := by
  have h48 : (48 : UInt8).toNat = 48 := rfl
  rw [UInt8.toNat_add]
  omega

/-- A byte is written as the digits it has. -/
theorem decimal_digits (b : UInt8) : ∃ ds : Bytes, decimal b = ds.map (48 + ·) ∧ ds ≠ [] ∧ (∀ d ∈ ds, d.toNat < 10) ∧
    ds.foldl (fun n d => 10 * n + d.toNat) 0 = b.toNat := by
  have hlt : b.toNat < 256 := b.toNat_lt
  have hhigh : b.toNat / 100 < 10 := by omega
  have hlow : b.toNat % 10 < 10 := by omega
  have hmid : b.toNat / 10 % 10 < 10 := by omega
  have h10 : b < 10 ↔ b.toNat < 10 := UInt8.lt_iff_toNat_lt
  have h100 : b < 100 ↔ b.toNat < 100 := UInt8.lt_iff_toNat_lt
  have htens : (b / 10).toNat = b.toNat / 10 := UInt8.toNat_div b 10
  have hones : (b % 10).toNat = b.toNat % 10 := UInt8.toNat_mod b 10
  have hhundreds : (b / 100).toNat = b.toNat / 100 := UInt8.toNat_div b 100
  have hmiddle : (b / 10 % 10).toNat = b.toNat / 10 % 10 := by
    rw [← htens]
    exact UInt8.toNat_mod (b / 10) 10
  unfold decimal
  by_cases hb10 : b < 10
  · refine ⟨[b], by rw [if_pos hb10]; rfl, List.cons_ne_nil _ _, ?_, by simp⟩
    simpa using h10.1 hb10
  · by_cases hb100 : b < 100
    · have hlead : b.toNat / 10 < 10 := by
        have hsmall := h100.1 hb100
        omega
      refine ⟨[b / 10, b % 10], by rw [if_neg hb10, if_pos hb100]; rfl, List.cons_ne_nil _ _, ?_, ?_⟩
      · simp only [List.forall_mem_cons, htens, hones]
        exact ⟨hlead, hlow, List.forall_mem_nil _⟩
      · simp only [List.foldl_cons, List.foldl_nil, htens, hones]
        omega
    · refine ⟨[b / 100, b / 10 % 10, b % 10], by rw [if_neg hb10, if_neg hb100]; rfl, List.cons_ne_nil _ _, ?_, ?_⟩
      · simp only [List.forall_mem_cons, hhundreds, hmiddle, hones]
        exact ⟨hhigh, hmid, hlow, List.forall_mem_nil _⟩
      · simp only [List.foldl_cons, List.foldl_nil, hhundreds, hmiddle, hones]
        omega

theorem foldl_digits {ds : Bytes} (h : ∀ d ∈ ds, d.toNat < 10) (n : Nat) :
    (ds.map (48 + ·)).foldl (fun n d => 10 * n + (d.toNat - 48)) n = ds.foldl (fun n d => 10 * n + d.toNat) n := by
  induction ds generalizing n with
  | nil => rfl
  | cons d ds ih =>
    obtain ⟨hd, hds⟩ := List.forall_mem_cons.1 h
    rw [List.map_cons, List.foldl_cons, List.foldl_cons, toNat_digit hd, Nat.add_sub_cancel_left]
    exact ih hds _

/-- A byte in decimal is read back. -/
theorem readDecimal_decimal (b : UInt8) :
    IsDecimal (decimal b) ∧ .ofNat (readDecimal (decimal b)) = b ∧ 46 ∉ decimal b := by
  obtain ⟨ds, hdecimal, hne, hdigit, hvalue⟩ := decimal_digits b
  have hread : readDecimal (decimal b) = b.toNat := by rw [hdecimal, readDecimal, foldl_digits hdigit, hvalue]
  have hchar : ∀ c ∈ decimal b, 48 ≤ c.toNat ∧ c.toNat ≤ 57 := by
    intro c hc
    rw [hdecimal] at hc
    obtain ⟨d, hd, rfl⟩ := List.mem_map.1 hc
    have hlt := hdigit d hd
    rw [toNat_digit hlt]
    omega
  refine ⟨⟨?_, ?_, ?_⟩, ?_, ?_⟩
  · rw [hdecimal]
    simpa using hne
  · intro c hc
    obtain ⟨hlo, hhi⟩ := hchar c hc
    exact ⟨UInt8.le_iff_toNat_le.2 hlo, UInt8.le_iff_toNat_le.2 hhi⟩
  · rw [hread]
    exact b.toNat_lt
  · rw [hread]
    exact UInt8.ofNat_toNat
  · intro hdot
    exact absurd (hchar 46 hdot).1 (by decide)

theorem quadAton_reads : ReadsQuads quadAton := by
  intro quad ip h
  match quad, h with
  | [a, b, c, d], h =>
    cases h
    obtain ⟨ha, ea, da⟩ := readDecimal_decimal a
    obtain ⟨hb, eb, db⟩ := readDecimal_decimal b
    obtain ⟨hc, ec, dc⟩ := readDecimal_decimal c
    obtain ⟨hd, ed, dd⟩ := readDecimal_decimal d
    have hall : ∀ part ∈ [decimal a, decimal b, decimal c, decimal d], IsDecimal part := by
      simp only [List.forall_mem_cons, ha, hb, hc, hd, true_and]
      exact List.forall_mem_nil _
    rw [quadAton, splitDots_append da, splitDots_append db, splitDots_append dc, splitDots_last dd]
    simp only [if_pos hall, List.map_cons, List.map_nil, ea, eb, ec, ed]

/-- Messages of all nine classes, with `10.0.1.7/24` for a filter. -/
theorem vns_round_trip_samples :
    (VNSOpen.pack ⟨7, [118], [117], [112]⟩).bind VNSOpen.unpack = some ⟨7, [118], [117], [112]⟩ ∧
    (VNSClose.pack ⟨[98, 121, 101]⟩).bind VNSClose.unpack = some ⟨[98, 121, 101]⟩ ∧
    (VNSPacket.pack ⟨[101, 49], [0, 1, 0]⟩).bind VNSPacket.unpack = some ⟨[101, 49], [0, 1, 0]⟩ ∧
    (VNSBanner.pack ⟨[104, 105]⟩).bind VNSBanner.unpack = some ⟨[104, 105]⟩ ∧
    (VNSRtable.pack ⟨[118], [48, 10]⟩).bind VNSRtable.unpack = some ⟨[118], [48, 10]⟩ ∧
    ((VNSOpenTemplate.new [116] [118] [([49, 48, 46, 48, 46, 49, 46, 55], 24)]).pack quadAton).bind
      VNSOpenTemplate.unpack = some ⟨[116], [118], [([49, 48, 46, 48, 46, 49, 46, 55], 24)]⟩ ∧
    (VNSAuthRequest.pack ⟨[0, 9]⟩).bind VNSAuthRequest.unpack = some ⟨[0, 9]⟩ ∧
    (VNSAuthReply.pack ⟨[117], [0, 9]⟩).bind VNSAuthReply.unpack = some ⟨[117], [0, 9]⟩ ∧
    (VNSAuthStatus.pack ⟨true, [111, 107]⟩).bind VNSAuthStatus.unpack = some ⟨true, [111, 107]⟩ := by
  obtain ⟨h1, h2, h3, h4, h5, h6, h7, h8, h9⟩ := vns_round_trip quadAton_reads
  refine ⟨h1 _ (by decide), h2 _ (by decide), h3 _ (by decide), h4 _ (by decide), h5 _ (by decide), ?_, h7 _,
    h8 _ (by decide), h9 _⟩
  refine h6 _ _ _ (by decide) (by decide) fun f hf => ?_
  obtain rfl := List.mem_singleton.1 hf
  exact ⟨⟨[10, 0, 1, 7], rfl⟩, by decide, by decide⟩

end SimpleRouter
