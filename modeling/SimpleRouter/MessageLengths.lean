import SimpleRouter.HardwareInfo
/-!
# Declared lengths

The framing of the virtual network server asks each message for its `length`,
which is written beside `pack` and not derived from it. `declared_length_iff`
says that eight of the ten classes declare the length they are packed to;
`VNSOpenTemplate` counts the field of its template's name twice, and
`VNSAuthReply` leaves out the length of the user's name.
-/
open Struct

namespace SimpleRouter

/-! ## `length` -/

/-- `VNSOpen.SIZE`. -/
def VNSOpen.length (_ : VNSOpen) : Nat := calcsize format

/-- `VNSClose.SIZE`. -/
def VNSClose.length (_ : VNSClose) : Nat := calcsize textFormat

def VNSPacket.length (m : VNSPacket) : Nat := calcsize headerFormat + m.ethernetFrame.length

/-- `VNSInterface.SIZE`. -/
def VNSInterface.size : Nat := calcsize format

/-- `VNSBanner.SIZE`. -/
def VNSBanner.length (_ : VNSBanner) : Nat := calcsize textFormat

/-- `VNSHardwareInfo.length`. -/
def hardwareInfoLength (interfaces : List VNSInterface) : Nat := interfaces.length * VNSInterface.size

def VNSRtable.length (m : VNSRtable) : Nat := calcsize headerFormat + m.rtable.length

def VNSOpenTemplate.length (m : VNSOpenTemplate) : Nat := calcsize headerFormat + 30 + 5 * m.srcFilters.length

def VNSAuthRequest.length (m : VNSAuthRequest) : Nat := m.salt.length

def VNSAuthReply.length (m : VNSAuthReply) : Nat := m.username.length + m.ssp.length

def VNSAuthStatus.length (m : VNSAuthStatus) : Nat := 1 + m.msg.length

/-- A message of one of the classes in `VNS_MESSAGES`. -/
inductive VNSMessage where
  | vnsOpen (m : VNSOpen)
  | vnsClose (m : VNSClose)
  | vnsPacket (m : VNSPacket)
  | vnsBanner (m : VNSBanner)
  | vnsHardwareInfo (interfaces : List VNSInterface)
  | vnsRtable (m : VNSRtable)
  | vnsOpenTemplate (m : VNSOpenTemplate)
  | vnsAuthRequest (m : VNSAuthRequest)
  | vnsAuthReply (m : VNSAuthReply)
  | vnsAuthStatus (m : VNSAuthStatus)

namespace VNSMessage

def length : VNSMessage → Nat
  | vnsOpen m => m.length
  | vnsClose m => m.length
  | vnsPacket m => m.length
  | vnsBanner m => m.length
  | vnsHardwareInfo interfaces => hardwareInfoLength interfaces
  | vnsRtable m => m.length
  | vnsOpenTemplate m => m.length
  | vnsAuthRequest m => m.length
  | vnsAuthReply m => m.length
  | vnsAuthStatus m => m.length

section Pack
variable (inetAton : Bytes → Option Bytes)

def pack : VNSMessage → Option Bytes
  | vnsOpen m => m.pack
  | vnsClose m => m.pack
  | vnsPacket m => m.pack
  | vnsBanner m => m.pack
  | vnsHardwareInfo interfaces => packHardwareInfo interfaces
  | vnsRtable m => m.pack
  | vnsOpenTemplate m => m.pack inetAton
  | vnsAuthRequest m => m.pack
  | vnsAuthReply m => m.pack
  | vnsAuthStatus m => m.pack

/-- The numbers are within their widths, and the filters have addresses. A
string may have any length: it is filled up or cut to the size of its field. -/
def Fits : VNSMessage → Prop
  | vnsOpen m => 0 ≤ m.topoId ∧ m.topoId < 65536
  | vnsOpenTemplate m => ∀ f ∈ m.srcFilters, (∃ addr, inetAton f.1 = some addr) ∧ 0 ≤ f.2 ∧ f.2 < 256
  | vnsAuthReply m => m.username.length < 2 ^ 32
  | _ => True

end Pack

/-- The two classes whose `length` is not that of `pack`. -/
def Miscounts : VNSMessage → Prop
  | vnsOpenTemplate _ => True
  | vnsAuthReply _ => True
  | _ => False

end VNSMessage

/-- `inet_aton` packs an address to four bytes. -/
def PacksFour (inetAton : Bytes → Option Bytes) : Prop := ∀ ip addr, inetAton ip = some addr → addr.length = 4

/-! ## Packed lengths -/

theorem VNSOpen.pack_some {m : VNSOpen} (h : 0 ≤ m.topoId ∧ m.topoId < 65536) : ∃ body, m.pack = some body := by
  simp [pack, format, Struct.pack, Field.pack, packInt, h]

theorem VNSOpen.length_eq {m : VNSOpen} {body : Bytes} (h : m.pack = some body) : body.length = m.length :=
  length_pack h

theorem packText_length {msg body : Bytes} (h : packText msg = some body) : body.length = calcsize textFormat :=
  length_pack h

/-- A record with a tail behind it. -/
theorem length_pack_append {fmt : List Field} {vs : List Value} {tail body : Bytes}
    (h : (Struct.pack fmt vs).map (· ++ tail) = some body) : body.length = calcsize fmt + tail.length := by
  obtain ⟨head, hhead, rfl⟩ := Option.map_eq_some_iff.1 h
  rw [List.length_append, length_pack hhead]

theorem VNSPacket.length_eq {m : VNSPacket} {body : Bytes} (h : m.pack = some body) : body.length = m.length :=
  length_pack_append h

theorem VNSRtable.length_eq {m : VNSRtable} {body : Bytes} (h : m.pack = some body) : body.length = m.length :=
  length_pack_append h

theorem VNSAuthStatus.pack_some (m : VNSAuthStatus) : ∃ body, m.pack = some body := by
  obtain ⟨authOk, msg⟩ := m
  cases authOk with
  | false => exact ⟨_, rfl⟩
  | true => exact ⟨_, rfl⟩

theorem VNSAuthStatus.length_eq {m : VNSAuthStatus} {body : Bytes} (h : m.pack = some body) : body.length = m.length :=
  length_pack_append h

/-- An interface takes `VNSInterface.SIZE` bytes. -/
theorem packHardwareInfo_length {interfaces : List VNSInterface} {body : Bytes}
    (h : packHardwareInfo interfaces = some body) : body.length = hardwareInfoLength interfaces := by
  obtain ⟨recs, hrecs, rfl⟩ := Option.map_eq_some_iff.1 h
  have hsize : ∀ r ∈ recs, r.length = VNSInterface.size := by
    intro r hr
    obtain ⟨intf, -, hpack⟩ := mem_mapM hrecs hr
    exact length_pack hpack
  rw [length_flatten_records hsize, length_mapM hrecs, hardwareInfoLength, Nat.mul_comm]

section OpenTemplate
variable {inetAton : Bytes → Option Bytes} {m : VNSOpenTemplate} {body : Bytes}

theorem packFilter_length (h4 : PacksFour inetAton) {f : SrcFilter} {bs : Bytes}
    (h : VNSOpenTemplate.packFilter inetAton f = some bs) : bs.length = 5 := by
  simp only [VNSOpenTemplate.packFilter, Option.bind_eq_bind, Option.bind_eq_some_iff, Option.pure_def,
    Option.some.injEq] at h
  obtain ⟨addr, haddr, mask, hmask, rfl⟩ := h
  rw [List.length_append, h4 _ _ haddr, length_pack hmask]
  rfl

theorem VNSOpenTemplate.pack_some
    (h : ∀ f ∈ m.srcFilters, (∃ addr, inetAton f.1 = some addr) ∧ 0 ≤ f.2 ∧ f.2 < 256) :
    ∃ body, m.pack inetAton = some body := by
  have hfilters : ∃ recs, m.srcFilters.mapM (packFilter inetAton) = some recs := by
    apply mapM_exists
    intro f hf
    obtain ⟨⟨addr, haddr⟩, hmask⟩ := h f hf
    simp [packFilter, haddr, Struct.pack, Field.pack, packInt, hmask]
  obtain ⟨recs, hrecs⟩ := hfilters
  simp [pack, hrecs, headerFormat, Struct.pack, Field.pack]

/-- The 30 bytes of the template's name are in the header already. -/
theorem VNSOpenTemplate.length_eq (h4 : PacksFour inetAton) (h : m.pack inetAton = some body) :
    body.length + 30 = m.length := by
  simp only [pack, Option.bind_eq_bind, Option.bind_eq_some_iff, Option.pure_def, Option.some.injEq] at h
  obtain ⟨recs, hrecs, header, hheader, rfl⟩ := h
  have hfive : ∀ r ∈ recs, r.length = 5 := by
    intro r hr
    obtain ⟨f, -, hpack⟩ := mem_mapM hrecs hr
    exact packFilter_length h4 hpack
  rw [List.length_append, length_pack hheader, length_flatten_records hfive, length_mapM hrecs, length]
  omega

end OpenTemplate

section AuthReply
variable {m : VNSAuthReply} {body : Bytes}

theorem VNSAuthReply.pack_some (h : m.username.length < 2 ^ 32) : ∃ body, m.pack = some body := by
  have hlt : (m.username.length : Int) < 4294967296 := by omega
  simp [pack, Struct.pack, Field.pack, packInt, hlt]

/-- The four bytes in front of the user's name are not declared. -/
theorem VNSAuthReply.length_eq (h : m.pack = some body) : body.length = m.length + 4 := by
  obtain ⟨len, hlen, rfl⟩ := Option.map_eq_some_iff.1 h
  have h4 : len.length = 4 := length_pack hlen
  rw [List.length_append, List.length_append, h4, length]
  omega

end AuthReply

/-! ## Every class -/

section Messages
variable {inetAton : Bytes → Option Bytes} {m : VNSMessage}

theorem VNSMessage.pack_some (h : m.Fits inetAton) : ∃ body, m.pack inetAton = some body := by
  cases m with
  | vnsOpen m => exact VNSOpen.pack_some h
  | vnsClose m => exact ⟨_, rfl⟩
  | vnsPacket m => exact ⟨_, m.pack_eq⟩
  | vnsBanner m => exact ⟨_, rfl⟩
  | vnsHardwareInfo interfaces => exact ⟨_, packHardwareInfo_eq interfaces⟩
  | vnsRtable m => exact ⟨_, rfl⟩
  | vnsOpenTemplate m => exact VNSOpenTemplate.pack_some h
  | vnsAuthRequest m => exact ⟨_, rfl⟩
  | vnsAuthReply m => exact VNSAuthReply.pack_some h
  | vnsAuthStatus m => exact m.pack_some

theorem VNSMessage.length_iff (h4 : PacksFour inetAton) {body : Bytes} (h : m.pack inetAton = some body) :
    m.length = body.length ↔ ¬ m.Miscounts := by
  cases m with
  | vnsOpen m => exact iff_of_true (VNSOpen.length_eq h).symm id
  | vnsClose m => exact iff_of_true (packText_length h).symm id
  | vnsPacket m => exact iff_of_true (VNSPacket.length_eq h).symm id
  | vnsBanner m => exact iff_of_true (packText_length h).symm id
  | vnsHardwareInfo interfaces => exact iff_of_true (packHardwareInfo_length h).symm id
  | vnsRtable m => exact iff_of_true (VNSRtable.length_eq h).symm id
  | vnsOpenTemplate m =>
    have hlen := VNSOpenTemplate.length_eq h4 h
    refine iff_of_false ?_ (not_not_intro trivial)
    rw [length]
    omega
  | vnsAuthRequest m =>
    cases h
    exact iff_of_true rfl id
  | vnsAuthReply m =>
    have hlen := VNSAuthReply.length_eq h
    refine iff_of_false ?_ (not_not_intro trivial)
    rw [length]
    omega
  | vnsAuthStatus m => exact iff_of_true (VNSAuthStatus.length_eq h).symm id

end Messages

/-- A message is packed, and the length it declares is that of its body and
cuts it out of a stream, if and only if it is neither an `OPEN_TEMPLATE` nor an
`AUTH_REPLY`. -/
theorem declared_length_iff {inetAton : Bytes → Option Bytes} (h4 : PacksFour inetAton) (m : VNSMessage)
    (h : m.Fits inetAton) :
    (∃ body, m.pack inetAton = some body ∧ m.length = body.length ∧ Delimits m.length body) ↔ ¬ m.Miscounts := by
  obtain ⟨body, hpack⟩ := VNSMessage.pack_some h
  rw [← VNSMessage.length_iff h4 hpack]
  constructor
  · rintro ⟨body', hpack', hlen, -⟩
    cases hpack.symm.trans hpack'
    exact hlen
  · intro hlen
    exact ⟨body, hpack, hlen, delimits_iff.2 hlen⟩

theorem quadAton_packsFour : PacksFour quadAton := by
  intro ip addr h
  unfold quadAton at h
  split at h
  · split at h
    · cases h
      rfl
    · cases h
  · cases h

/-- An `AUTH_REPLY` of a user with a name of one letter declares three of its seven bytes. -/
theorem auth_reply_miscounts :
    ¬ ∀ m : VNSMessage, m.Fits quadAton →
      ∃ body, m.pack quadAton = some body ∧ m.length = body.length ∧ Delimits m.length body := by
  intro h
  have hfits : (VNSMessage.vnsAuthReply ⟨[117], [0, 9]⟩).Fits quadAton := by
    change 1 < 2 ^ 32
    decide
  obtain ⟨body, hpack, hlen, -⟩ := h _ hfits
  have hbody : (VNSMessage.vnsAuthReply ⟨[117], [0, 9]⟩).pack quadAton = some [0, 0, 0, 1, 117, 0, 9] := rfl
  cases hbody.symm.trans hpack
  exact absurd hlen (by decide)

/-- Hardware information about two interfaces. -/
theorem declared_length_hardware :
    (∃ body, (VNSMessage.vnsHardwareInfo Sample.described).pack quadAton = some body ∧
      (VNSMessage.vnsHardwareInfo Sample.described).length = body.length ∧
      Delimits (VNSMessage.vnsHardwareInfo Sample.described).length body) ↔
    ¬ (VNSMessage.vnsHardwareInfo Sample.described).Miscounts :=
  declared_length_iff quadAton_packsFour (.vnsHardwareInfo Sample.described) trivial

end SimpleRouter
