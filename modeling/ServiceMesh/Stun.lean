import ServiceMesh.Bytes
import ServiceMesh.StdNet

/-! The STUN binding exchange: what the responder of the coordinator writes is what the client of
the joiner reads. -/

namespace StdNet

def Ipv4Addr.octets (a : Ipv4Addr) : List UInt8 := [a.octet0, a.octet1, a.octet2, a.octet3]

def Ipv4Addr.ofOctets (o : List UInt8) : Ipv4Addr :=
  ⟨o.getD 0 0, o.getD 1 0, o.getD 2 0, o.getD 3 0⟩

def SocketAddr.port : SocketAddr → UInt16
  | .v4 _ port => port
  | .v6 _ port _ _ => port

end StdNet

namespace ServiceMesh

open StdNet (Ipv4Addr Ipv6Addr SocketAddr)
open Bytes

namespace Stun

def stunBindingRequest : UInt16 := 0x0001

def stunBindingSuccess : UInt16 := 0x0101

def stunMagicCookie : UInt32 := 0x2112A442

def attrXorMappedAddress : UInt16 := 0x0020

structure TransactionId where
  bytes : List UInt8
  length_bytes : bytes.length = 12
deriving DecidableEq

def u16ToBe (n : UInt16) : List UInt8 := toBe 2 n.toNat

def u16FromBe (hi lo : UInt8) : UInt16 := .ofNat (ofBe [hi, lo])

def cookieBytes : List UInt8 := toBe 4 stunMagicCookie.toNat

def cookiePort : UInt16 := (stunMagicCookie >>> 16).toUInt16

def longKey (txid : TransactionId) : List UInt8 := cookieBytes ++ txid.bytes

def mappedBody (txid : TransactionId) : SocketAddr → UInt16 × List UInt8
  | .v4 ip port => (8, [0, 0x01] ++ u16ToBe (port ^^^ cookiePort) ++ xorWith cookieBytes ip.octets)
  | .v6 ip port _ _ =>
    (20, [0, 0x02] ++ u16ToBe (port ^^^ cookiePort) ++ xorWith (longKey txid) ip.octets)

def successHeader (length : UInt16) (txid : TransactionId) : List UInt8 :=
  u16ToBe stunBindingSuccess ++ u16ToBe length ++ cookieBytes ++ txid.bytes

def mappedAttribute (txid : TransactionId) (source : SocketAddr) : List UInt8 :=
  u16ToBe attrXorMappedAddress ++ u16ToBe (mappedBody txid source).1 ++ (mappedBody txid source).2

def toTransactionId (bytes : List UInt8) : Checked TransactionId :=
  if h : bytes.length = 12 then .ok ⟨bytes, h⟩ else .error .index

def buildBindingResponse (request : List UInt8) (source : SocketAddr) :
    Checked (Option (List UInt8)) :=
  if request.length < 20 then .ok none
  else do
    let t0 ← byteAt request 0
    let t1 ← byteAt request 1
    if u16FromBe t0 t1 ≠ stunBindingRequest then .ok none
    else
      let cookie ← slice request 4 8
      if cookie ≠ cookieBytes then .ok none
      else
        let id ← slice request 8 20
        let txid ← toTransactionId id
        .ok (some (successHeader (4 + (mappedBody txid source).1) txid ++
          mappedAttribute txid source))

def requestHeader (length : UInt16) (txid : TransactionId) : List UInt8 :=
  u16ToBe stunBindingRequest ++ u16ToBe length ++ cookieBytes ++ txid.bytes

def txidOfSeed (seed : Nat) : TransactionId :=
  ⟨(List.range 12).map (fun i => UInt8.ofNat ((seed >>> (i * 8)) &&& 0xff)), by simp⟩

def buildBindingRequest (seed : Nat) : List UInt8 × TransactionId :=
  (requestHeader 0 (txidOfSeed seed), txidOfSeed seed)

def decodeMapped (resp : List UInt8) (txid : TransactionId) (vstart alen : Nat) :
    Checked (Option SocketAddr) := do
  let family ← byteAt resp (vstart + 1)
  let hi ← byteAt resp (vstart + 2)
  let lo ← byteAt resp (vstart + 3)
  let port := u16FromBe hi lo ^^^ cookiePort
  if family = 0x01 then
    let ip ← slice resp (vstart + 4) (vstart + 8)
    .ok (some (.new (.v4 (.ofOctets (xorWith cookieBytes ip))) port))
  else if family = 0x02 ∧ 20 ≤ alen then
    let ip ← slice resp (vstart + 4) (vstart + 20)
    .ok (some (.new (.v6 (.ofOctets (xorWith (longKey txid) ip))) port))
  else .ok none

inductive Turn
  | answer (mapped : Option SocketAddr)
  | next (off : Nat)

def readAttribute (resp : List UInt8) (txid : TransactionId) (off : Nat) : Checked Turn := do
  let t0 ← byteAt resp off
  let t1 ← byteAt resp (off + 1)
  let l0 ← byteAt resp (off + 2)
  let l1 ← byteAt resp (off + 3)
  let alen := (u16FromBe l0 l1).toNat
  let vstart := off + 4
  if resp.length < vstart + alen then .ok (.answer none)
  else if u16FromBe t0 t1 = attrXorMappedAddress ∧ 8 ≤ alen then
    let mapped ← decodeMapped resp txid vstart alen
    .ok (.answer mapped)
  else .ok (.next (vstart + (alen + 3) / 4 * 4))

inductive Progress
  | running
  | returned (mapped : Option SocketAddr)
deriving DecidableEq, Repr

def walkAttributes (resp : List UInt8) (txid : TransactionId) : (turns off : Nat) → Checked Progress
  | 0, off => .ok (if off + 4 ≤ resp.length then .running else .returned none)
  | turns + 1, off =>
    if off + 4 ≤ resp.length then do
      match ← readAttribute resp txid off with
      | .answer mapped => .ok (.returned mapped)
      | .next off => walkAttributes resp txid turns off
    else .ok (.returned none)

def parseXorMappedAddress (turns : Nat) (resp : List UInt8) (txid : TransactionId) :
    Checked Progress :=
  if resp.length < 20 then .ok (.returned none)
  else do
    let t0 ← byteAt resp 0
    let t1 ← byteAt resp 1
    if u16FromBe t0 t1 ≠ stunBindingSuccess then .ok (.returned none)
    else
      let id ← slice resp 8 20
      if id ≠ txid.bytes then .ok (.returned none)
      else walkAttributes resp txid turns 20

variable (txid : TransactionId) (length : UInt16)

theorem decodeMapped_ok {resp : List UInt8} {vstart alen : Nat} (hlen : 8 ≤ alen)
    (hfits : vstart + alen ≤ resp.length) :
    ∃ mapped, decodeMapped resp txid vstart alen = .ok mapped := by
  unfold decodeMapped
  refine ok_of_bind_ok (byteAt_ok (by omega)) (fun family _ => ?_)
  refine ok_of_bind_ok (byteAt_ok (by omega)) (fun hi _ => ?_)
  refine ok_of_bind_ok (byteAt_ok (by omega)) (fun lo _ => ?_)
  dsimp only
  split
  · rw [slice_ok (by omega) (by omega)]
    exact ⟨_, rfl⟩
  · split
    · rename_i hlong
      rw [slice_ok (by omega) (by omega)]
      exact ⟨_, rfl⟩
    · exact ⟨_, rfl⟩

theorem readAttribute_ok {resp : List UInt8} {off : Nat} (hoff : off + 4 ≤ resp.length) :
    ∃ turn, readAttribute resp txid off = .ok turn ∧ ∀ off', turn = .next off' → off + 4 ≤ off' := by
  obtain ⟨t0, ht0⟩ := byteAt_ok (show off < resp.length by omega)
  obtain ⟨t1, ht1⟩ := byteAt_ok (show off + 1 < resp.length by omega)
  obtain ⟨l0, hl0⟩ := byteAt_ok (show off + 2 < resp.length by omega)
  obtain ⟨l1, hl1⟩ := byteAt_ok (show off + 3 < resp.length by omega)
  simp only [readAttribute, ht0, ht1, hl0, hl1, ok_bind]
  by_cases hfits : resp.length < off + 4 + (u16FromBe l0 l1).toNat
  · rw [if_pos hfits]
    exact ⟨_, rfl, by simp⟩
  · rw [if_neg hfits]
    by_cases hmapped : u16FromBe t0 t1 = attrXorMappedAddress ∧ 8 ≤ (u16FromBe l0 l1).toNat
    · obtain ⟨mapped, hdecoded⟩ := decodeMapped_ok txid hmapped.2 (not_lt.mp hfits)
      rw [if_pos hmapped, hdecoded]
      exact ⟨_, rfl, by simp⟩
    · rw [if_neg hmapped]
      refine ⟨_, rfl, ?_⟩
      intro off' hnext
      have hoff' := Turn.next.inj hnext
      omega

theorem walkAttributes_returns (resp : List UInt8) (txid : TransactionId) {turns off : Nat}
    (hturns : resp.length < off + 4 * (turns + 1)) :
    ∃ mapped, walkAttributes resp txid turns off = .ok (.returned mapped) := by
  induction turns generalizing off with
  | zero =>
    have hend : ¬ off + 4 ≤ resp.length := by omega
    exact ⟨none, by rw [walkAttributes, if_neg hend]⟩
  | succ turns ih =>
    rw [walkAttributes]
    by_cases hmore : off + 4 ≤ resp.length
    · rw [if_pos hmore]
      obtain ⟨turn, hturn, hnext⟩ := readAttribute_ok txid hmore
      rw [hturn, ok_bind]
      cases turn with
      | answer mapped => exact ⟨mapped, rfl⟩
      | next off' =>
        have hstep := hnext off' rfl
        exact ih (by omega)
    · exact ⟨none, by rw [if_neg hmore]⟩

theorem parseXorMappedAddress_returns (resp : List UInt8) (txid : TransactionId) {turns : Nat}
    (hturns : resp.length / 4 ≤ turns) :
    ∃ mapped, parseXorMappedAddress turns resp txid = .ok (.returned mapped) := by
  unfold parseXorMappedAddress
  by_cases hshort : resp.length < 20
  · exact ⟨none, if_pos hshort⟩
  · rw [if_neg hshort]
    obtain ⟨t0, ht0⟩ := byteAt_ok (show 0 < resp.length by omega)
    obtain ⟨t1, ht1⟩ := byteAt_ok (show 1 < resp.length by omega)
    have hid := slice_ok (show 8 ≤ 20 by omega) (show 20 ≤ resp.length by omega)
    simp only [ht0, ht1, hid, ok_bind]
    split
    · exact ⟨none, rfl⟩
    · split
      · exact ⟨none, rfl⟩
      · exact walkAttributes_returns resp txid (by omega)

def Turn.shift (n : Nat) : Turn → Turn
  | .answer mapped => .answer mapped
  | .next off => .next (n + off)

theorem decodeMapped_append (front resp : List UInt8) (txid : TransactionId) (vstart alen : Nat) :
    decodeMapped (front ++ resp) txid (front.length + vstart) alen =
      decodeMapped resp txid vstart alen := by
  simp only [decodeMapped, Nat.add_assoc, byteAt_append, slice_append]

theorem readAttribute_append (front resp : List UInt8) (txid : TransactionId) (off : Nat) :
    readAttribute (front ++ resp) txid (front.length + off) =
      (readAttribute resp txid off).map (Turn.shift front.length) := by
  simp only [readAttribute, map_bind, Nat.add_assoc, byteAt_append]
  congr! 8 with t0 t1 l0 l1
  have hlen : (front ++ resp).length < front.length + (off + (4 + (u16FromBe l0 l1).toNat)) ↔
      resp.length < off + (4 + (u16FromBe l0 l1).toNat) := by
    rw [List.length_append]
    omega
  by_cases hfits : resp.length < off + (4 + (u16FromBe l0 l1).toNat)
  · rw [if_pos hfits, if_pos (hlen.mpr hfits)]
    rfl
  · rw [if_neg hfits, if_neg (fun hc => hfits (hlen.mp hc))]
    by_cases hmapped : u16FromBe t0 t1 = attrXorMappedAddress ∧ 8 ≤ (u16FromBe l0 l1).toNat
    · rw [if_pos hmapped, if_pos hmapped, map_bind, decodeMapped_append]
      rfl
    · rw [if_neg hmapped, if_neg hmapped]
      rfl

theorem walkAttributes_append (front resp : List UInt8) (txid : TransactionId) (turns off : Nat) :
    walkAttributes (front ++ resp) txid turns (front.length + off) =
      walkAttributes resp txid turns off := by
  have hmore : ∀ off, front.length + off + 4 ≤ (front ++ resp).length ↔ off + 4 ≤ resp.length := by
    intro off
    rw [List.length_append]
    omega
  induction turns generalizing off with
  | zero => simp only [walkAttributes, hmore]
  | succ turns ih =>
    simp only [walkAttributes, hmore, readAttribute_append]
    cases readAttribute resp txid off with
    | error e => rfl
    | ok turn =>
      cases turn with
      | answer mapped => rfl
      | next off' =>
        simp only [Except.map, Turn.shift, ok_bind, ih]

theorem u16FromBe_u16ToBe (n : UInt16) : ∃ hi lo, u16ToBe n = [hi, lo] ∧ u16FromBe hi lo = n := by
  have hlen : (u16ToBe n).length = 2 := length_toBe 2 n.toNat
  obtain ⟨hi, lo, hbytes⟩ := List.length_eq_two.mp hlen
  refine ⟨hi, lo, hbytes, ?_⟩
  have hn := n.toNat_lt
  rw [u16FromBe, ← hbytes, u16ToBe, ofBe_toBe (by omega), UInt16.ofNat_toNat]

structure Attribute where
  atype : UInt16
  value : List UInt8
  padding : List UInt8
  length_value : value.length < 65536
  length_padding : padding.length = (value.length + 3) / 4 * 4 - value.length

def Attribute.encode (a : Attribute) : List UInt8 :=
  u16ToBe a.atype ++ u16ToBe (.ofNat a.value.length) ++ a.value ++ a.padding

theorem Attribute.length_encode (a : Attribute) :
    a.encode.length = 4 + (a.value.length + 3) / 4 * 4 := by
  have hpad := a.length_padding
  simp only [Attribute.encode, u16ToBe, List.length_append, length_toBe]
  omega

theorem readAttribute_encode (a : Attribute) (rest : List UInt8) (txid : TransactionId)
    (hother : a.atype ≠ attrXorMappedAddress) :
    readAttribute (a.encode ++ rest) txid 0 = .ok (.next a.encode.length) := by
  obtain ⟨t0, t1, htype, hread⟩ := u16FromBe_u16ToBe a.atype
  obtain ⟨l0, l1, hlen, hreadLen⟩ := u16FromBe_u16ToBe (.ofNat a.value.length)
  have halen : (u16FromBe l0 l1).toNat = a.value.length := by
    have hvalue := a.length_value
    rw [hreadLen, UInt16.toNat_ofNat']
    omega
  have hfits : ¬ (a.encode ++ rest).length < 0 + 4 + a.value.length := by
    rw [List.length_append, a.length_encode]
    omega
  have hbytes : a.encode ++ rest = t0 :: t1 :: l0 :: l1 :: (a.value ++ (a.padding ++ rest)) := by
    simp only [Attribute.encode, htype, hlen, List.cons_append, List.nil_append, List.append_assoc]
  have hmapped : ¬ (u16FromBe t0 t1 = attrXorMappedAddress ∧ 8 ≤ a.value.length) := by
    rw [hread]
    exact fun hc => hother hc.1
  rw [hbytes] at hfits ⊢
  simp only [readAttribute, Nat.zero_add, byteAt_cons_zero, byteAt_cons_succ, ok_bind, halen,
    a.length_encode] at hfits ⊢
  rw [if_neg hfits, if_neg hmapped]

theorem walkAttributes_attributes (attrs : List Attribute) (rest : List UInt8)
    (txid : TransactionId) (hother : ∀ a ∈ attrs, a.atype ≠ attrXorMappedAddress) (turns : Nat) :
    walkAttributes (attrs.flatMap Attribute.encode ++ rest) txid (attrs.length + turns) 0 =
      walkAttributes rest txid turns 0 := by
  induction attrs with
  | nil => rw [List.flatMap_nil, List.nil_append, List.length_nil, Nat.zero_add]
  | cons a attrs ih =>
    have hfirst := readAttribute_encode a (attrs.flatMap Attribute.encode ++ rest) txid
      (hother a List.mem_cons_self)
    have hmore : 0 + 4 ≤ (a.encode ++ (attrs.flatMap Attribute.encode ++ rest)).length := by
      rw [List.length_append, a.length_encode]
      omega
    have hturns : (a :: attrs).length + turns = attrs.length + turns + 1 := by
      rw [List.length_cons]
      omega
    rw [List.flatMap_cons, List.append_assoc, hturns, walkAttributes, if_pos hmore, hfirst, ok_bind]
    have hskip := walkAttributes_append a.encode (attrs.flatMap Attribute.encode ++ rest) txid
      (attrs.length + turns) 0
    rw [Nat.add_zero] at hskip
    simp only [hskip]
    exact ih (fun b hb => hother b (List.mem_cons_of_mem a hb))

theorem length_cookieBytes : cookieBytes.length = 4 := length_toBe 4 _

theorem length_longKey : (longKey txid).length = 16 := by
  rw [longKey, List.length_append, length_cookieBytes, txid.length_bytes]

structure Mapped (family : UInt8) (port : UInt16) (key octets body : List UInt8) : Prop where
  length : body.length = 4 + octets.length
  family : byteAt body 1 = .ok family
  port : ∃ hi lo, byteAt body 2 = .ok hi ∧ byteAt body 3 = .ok lo ∧
    u16FromBe hi lo ^^^ cookiePort = port
  octets : ∃ ip, slice body 4 (4 + octets.length) = .ok ip ∧ xorWith key ip = octets

theorem mapped (family : UInt8) (port : UInt16) {key octets : List UInt8}
    (hlen : octets.length = key.length) :
    Mapped family port key octets
      ([0, family] ++ u16ToBe (port ^^^ cookiePort) ++ xorWith key octets) := by
  obtain ⟨hi, lo, hport, hread⟩ := u16FromBe_u16ToBe (port ^^^ cookiePort)
  have hxor : (xorWith key octets).length = octets.length := by
    rw [length_xorWith, hlen, Nat.min_self]
  rw [hport]
  refine ⟨?_, rfl, ⟨hi, lo, rfl, rfl, ?_⟩, xorWith key octets, ?_, xorWith_xorWith hlen.le⟩
  · rw [List.length_append, hxor]
    rfl
  · rw [hread, UInt16.xor_assoc, UInt16.xor_self, UInt16.xor_zero]
  · have hslice := slice_middle [0, family, hi, lo] (xorWith key octets) []
    rw [hxor, List.append_nil] at hslice
    exact hslice

theorem mappedBody_v4 (ip : Ipv4Addr) (port : UInt16) :
    Mapped 0x01 port cookieBytes ip.octets (mappedBody txid (.v4 ip port)).2 :=
  mapped _ _ length_cookieBytes.symm

theorem mappedBody_v6 (ip : Ipv6Addr) (port : UInt16) (flowinfo scopeId : UInt32) :
    Mapped 0x02 port (longKey txid) ip.octets (mappedBody txid (.v6 ip port flowinfo scopeId)).2 :=
  mapped _ _ (by rw [length_longKey, Ipv6Addr.length_octets])

theorem length_mappedBody (source : SocketAddr) :
    (mappedBody txid source).2.length = (mappedBody txid source).1.toNat := by
  cases source with
  | v4 ip port => exact (mappedBody_v4 txid ip port).length
  | v6 ip port flowinfo scopeId =>
    rw [(mappedBody_v6 txid ip port flowinfo scopeId).length, Ipv6Addr.length_octets]
    rfl

theorem decodeMapped_mappedBody (source : SocketAddr) :
    decodeMapped (mappedBody txid source).2 txid 0 (mappedBody txid source).1.toNat =
      .ok (some (.new source.ip source.port)) := by
  cases source with
  | v4 ip port =>
    obtain ⟨-, hfamily, ⟨hi, lo, hhi, hlo, hport⟩, bytes, hip, hoctets⟩ := mappedBody_v4 txid ip port
    have hslice : slice (mappedBody txid (.v4 ip port)).2 4 8 = .ok bytes := hip
    simp only [decodeMapped, Nat.zero_add, hfamily, hhi, hlo, ok_bind, if_true, hslice, hoctets,
      hport]
    rfl
  | v6 ip port flowinfo scopeId =>
    obtain ⟨-, hfamily, ⟨hi, lo, hhi, hlo, hport⟩, bytes, hip, hoctets⟩ :=
      mappedBody_v6 txid ip port flowinfo scopeId
    have hslice : slice (mappedBody txid (.v6 ip port flowinfo scopeId)).2 4 20 = .ok bytes := by
      rw [Ipv6Addr.length_octets] at hip
      exact hip
    have hlong : True ∧ 20 ≤ (mappedBody txid (.v6 ip port flowinfo scopeId)).1.toNat :=
      ⟨trivial, Nat.le_refl 20⟩
    simp only [decodeMapped, Nat.zero_add, hfamily, hhi, hlo, ok_bind]
    rw [if_neg (by decide), if_pos hlong, hslice, ok_bind, hoctets, hport, Ipv6Addr.ofOctets_octets]
    rfl

theorem readAttribute_mapped (source : SocketAddr) :
    readAttribute (mappedAttribute txid source) txid 0 =
      .ok (.answer (some (.new source.ip source.port))) := by
  obtain ⟨t0, t1, htype, hread⟩ := u16FromBe_u16ToBe attrXorMappedAddress
  obtain ⟨l0, l1, hlen, hreadLen⟩ := u16FromBe_u16ToBe (mappedBody txid source).1
  have hbytes : mappedAttribute txid source = [t0, t1, l0, l1] ++ (mappedBody txid source).2 := by
    rw [mappedAttribute, htype, hlen]
    rfl
  have hfits : ¬ (mappedAttribute txid source).length < 0 + 4 + (mappedBody txid source).1.toNat := by
    rw [hbytes, List.length_append, length_mappedBody]
    exact Nat.lt_irrefl _
  have hlong : 8 ≤ (mappedBody txid source).1.toNat := by
    cases source with
    | v4 ip port => exact Nat.le_refl 8
    | v6 ip port flowinfo scopeId => exact (by omega : 8 ≤ 20)
  have hdecode := decodeMapped_append [t0, t1, l0, l1] (mappedBody txid source).2 txid 0
    (mappedBody txid source).1.toNat
  rw [decodeMapped_mappedBody, ← hbytes] at hdecode
  have hreads : readAttribute (mappedAttribute txid source) txid 0 =
      if (mappedAttribute txid source).length < 0 + 4 + (u16FromBe l0 l1).toNat then
        .ok (.answer none)
      else if u16FromBe t0 t1 = attrXorMappedAddress ∧ 8 ≤ (u16FromBe l0 l1).toNat then
        decodeMapped (mappedAttribute txid source) txid 4 (u16FromBe l0 l1).toNat >>=
          fun mapped => .ok (.answer mapped)
      else .ok (.next (0 + 4 + ((u16FromBe l0 l1).toNat + 3) / 4 * 4)) := by
    rw [hbytes]
    rfl
  rw [hreads, hreadLen, hread, if_neg hfits, if_pos ⟨rfl, hlong⟩,
    show decodeMapped _ txid 4 _ = _ from hdecode, ok_bind]

def insertAttributes (length : UInt16) (attrs : List Attribute) (response : List UInt8) :
    List UInt8 :=
  response.take 2 ++ u16ToBe length ++ (response.take 20).drop 4 ++
    attrs.flatMap Attribute.encode ++ response.drop 20

def response (txid : TransactionId) (source : SocketAddr) : List UInt8 :=
  successHeader (4 + (mappedBody txid source).1) txid ++ mappedAttribute txid source

theorem length_successHeader (txid : TransactionId) : (successHeader length txid).length = 20 := by
  simp only [successHeader, u16ToBe, List.length_append, length_toBe, length_cookieBytes,
    txid.length_bytes]

theorem insertAttributes_response (attrs : List Attribute) (txid : TransactionId)
    (source : SocketAddr) :
    insertAttributes length attrs (response txid source) =
      successHeader length txid ++
        (attrs.flatMap Attribute.encode ++ mappedAttribute txid source) := by
  obtain ⟨t0, t1, htype, -⟩ := u16FromBe_u16ToBe stunBindingSuccess
  obtain ⟨l0, l1, hlen, -⟩ := u16FromBe_u16ToBe (4 + (mappedBody txid source).1)
  have hheader : (response txid source).take 20 =
      successHeader (4 + (mappedBody txid source).1) txid :=
    List.take_left' (length_successHeader _ _)
  have htail : (response txid source).drop 20 = mappedAttribute txid source :=
    List.drop_left' (length_successHeader _ _)
  have hfront : (response txid source).take 2 = u16ToBe stunBindingSuccess := by
    rw [response, successHeader, htype]
    rfl
  have hid : (successHeader (4 + (mappedBody txid source).1) txid).drop 4 =
      cookieBytes ++ txid.bytes := by
    rw [successHeader, htype, hlen]
    rfl
  rw [insertAttributes, hheader, htail, hfront, hid, successHeader]
  simp only [List.append_assoc]

structure Headed (kind : UInt16) (txid : TransactionId) (msg : List UInt8) : Prop where
  long : ¬ msg.length < 20
  kind : ∃ t0 t1, byteAt msg 0 = .ok t0 ∧ byteAt msg 1 = .ok t1 ∧ ¬ u16FromBe t0 t1 ≠ kind
  cookie : slice msg 4 8 = .ok cookieBytes
  id : slice msg 8 20 = .ok txid.bytes

theorem headed (kind : UInt16) (rest : List UInt8) :
    Headed kind txid (u16ToBe kind ++ u16ToBe length ++ cookieBytes ++ txid.bytes ++ rest) := by
  have hcookie := slice_middle (u16ToBe kind ++ u16ToBe length) cookieBytes (txid.bytes ++ rest)
  have hid := slice_middle (u16ToBe kind ++ u16ToBe length ++ cookieBytes) txid.bytes rest
  simp only [List.length_append, u16ToBe, length_toBe, length_cookieBytes, txid.length_bytes,
    List.append_assoc] at hcookie hid
  refine ⟨?_, ?_, ?_, ?_⟩
  · simp only [List.length_append, u16ToBe, length_toBe, length_cookieBytes, txid.length_bytes]
    omega
  · obtain ⟨t0, t1, htype, hread⟩ := u16FromBe_u16ToBe kind
    rw [htype]
    exact ⟨t0, t1, rfl, rfl, not_not.mpr hread⟩
  · simpa only [u16ToBe, List.append_assoc] using hcookie
  · simpa only [u16ToBe, List.append_assoc] using hid

theorem parse_successHeader (txid other : TransactionId) (rest : List UInt8) (turns : Nat) :
    parseXorMappedAddress turns (successHeader length txid ++ rest) other =
      if txid = other then walkAttributes rest other turns 0 else .ok (.returned none) := by
  obtain ⟨hlong, ⟨t0, t1, h0, h1, hkind⟩, -, hid⟩ : Headed _ _ (successHeader length txid ++ rest) :=
    headed txid length stunBindingSuccess rest
  have hwalk := walkAttributes_append (successHeader length txid) rest other turns 0
  rw [length_successHeader] at hwalk
  rw [parseXorMappedAddress, if_neg hlong, h0, ok_bind, h1, ok_bind, if_neg hkind, hid, ok_bind]
  by_cases heq : txid = other
  · subst heq
    rw [if_neg (not_not.mpr rfl), if_pos rfl]
    exact hwalk
  · have hne : txid.bytes ≠ other.bytes := by
      intro hc
      cases txid
      cases other
      exact heq (by simpa using hc)
    rw [if_pos hne, if_neg heq]

theorem buildBindingResponse_of_header (txid : TransactionId) (rest : List UInt8)
    (source : SocketAddr) :
    buildBindingResponse (requestHeader length txid ++ rest) source =
      .ok (some (response txid source)) := by
  obtain ⟨hlong, ⟨t0, t1, h0, h1, hkind⟩, hcookie, hid⟩ :
      Headed _ _ (requestHeader length txid ++ rest) := headed txid length stunBindingRequest rest
  have htxid : toTransactionId txid.bytes = .ok txid := dif_pos txid.length_bytes
  rw [buildBindingResponse, if_neg hlong, h0, ok_bind, h1, ok_bind, if_neg hkind, hcookie, ok_bind,
    if_neg (not_not.mpr rfl), hid, ok_bind, htxid, ok_bind]
  rfl

theorem parse_insertAttributes (attrs : List Attribute) (txid : TransactionId)
    (source : SocketAddr) (hother : ∀ a ∈ attrs, a.atype ≠ attrXorMappedAddress) {turns : Nat}
    (hturns : (insertAttributes length attrs (response txid source)).length / 4 ≤ turns) :
    parseXorMappedAddress turns (insertAttributes length attrs (response txid source)) txid =
      .ok (.returned (some (.new source.ip source.port))) := by
  rw [insertAttributes_response] at hturns ⊢
  rw [parse_successHeader, if_pos rfl]
  -- one turn for each attribute, and one for the address
  have hattrs : ∀ attrs : List Attribute,
      4 * attrs.length ≤ (attrs.flatMap Attribute.encode).length := by
    intro attrs
    induction attrs with
    | nil => exact Nat.le_refl 0
    | cons a attrs ih =>
      have hlen := a.length_encode
      rw [List.flatMap_cons, List.length_append, List.length_cons]
      omega
  have hmapped : 0 + 4 ≤ (mappedAttribute txid source).length := by
    simp only [mappedAttribute, u16ToBe, List.length_append, length_toBe]
    omega
  have hle := hattrs attrs
  rw [List.length_append, length_successHeader, List.length_append] at hturns
  obtain ⟨spare, rfl⟩ : ∃ spare, turns = attrs.length + (spare + 1) :=
    ⟨turns - attrs.length - 1, by omega⟩
  rw [walkAttributes_attributes attrs _ txid hother, walkAttributes, if_pos hmapped,
    readAttribute_mapped, ok_bind]

/-- What the responder answers to a request with a binding header is read back by the client that
sent it, and by no other; and whatever bytes arrive, the client reads inside them and returns after
a turn for every four of them at most. -/
theorem stun_client_server_agree :
    (∀ (source : SocketAddr) (txid : TransactionId) (requestLength : UInt16) (rest : List UInt8),
      ∃ resp,
        buildBindingResponse (requestHeader requestLength txid ++ rest) source = .ok (some resp) ∧
        parseXorMappedAddress (resp.length / 4) resp txid =
          .ok (.returned (some (.new source.ip source.port))) ∧
        (∀ other ≠ txid,
          parseXorMappedAddress (resp.length / 4) resp other = .ok (.returned none)) ∧
        ∀ (length : UInt16) (attrs : List Attribute),
          (∀ a ∈ attrs, a.atype ≠ attrXorMappedAddress) →
          let long := insertAttributes length attrs resp
          parseXorMappedAddress (long.length / 4) long txid =
            .ok (.returned (some (.new source.ip source.port))) ∧
          ∀ other ≠ txid,
            parseXorMappedAddress (long.length / 4) long other = .ok (.returned none)) ∧
    (∀ seed, (buildBindingRequest seed).1 = requestHeader 0 (buildBindingRequest seed).2) ∧
    ∀ (bytes : List UInt8) (txid : TransactionId),
      ∃ mapped, parseXorMappedAddress (bytes.length / 4) bytes txid = .ok (.returned mapped) := by
  refine ⟨?_, fun _ => rfl, ?_⟩
  · intro source txid requestLength rest
    refine ⟨response txid source, buildBindingResponse_of_header _ _ _ _, ?_, ?_, ?_⟩
    · have hplain : response txid source =
          insertAttributes (4 + (mappedBody txid source).1) [] (response txid source) := by
        rw [insertAttributes_response]
        rfl
      rw [hplain]
      exact parse_insertAttributes _ _ _ _ (by simp) le_rfl
    · intro other hne
      rw [response, parse_successHeader, if_neg hne.symm]
    · intro length attrs hother
      constructor
      · exact parse_insertAttributes _ _ _ _ hother le_rfl
      · intro other hne
        rw [insertAttributes_response, parse_successHeader, if_neg hne.symm]
  · intro bytes txid
    exact parseXorMappedAddress_returns bytes txid le_rfl

section Example

def zeroId : TransactionId := ⟨List.replicate 12 0, rfl⟩

def softwareAttribute : Attribute := ⟨0x8022, [0x61, 0x62], [0, 0], by decide, rfl⟩

theorem stun_client_server_agree_software :
    ∃ resp, buildBindingResponse (buildBindingRequest 0).1 (.v4 ⟨192, 0, 2, 7⟩ 51820) =
        .ok (some resp) ∧
      parseXorMappedAddress ((insertAttributes 20 [softwareAttribute] resp).length / 4)
        (insertAttributes 20 [softwareAttribute] resp) zeroId =
          .ok (.returned (some (.v4 ⟨192, 0, 2, 7⟩ 51820))) := by
  obtain ⟨resp, hbuilt, -, -, hlong⟩ :=
    stun_client_server_agree.1 (.v4 ⟨192, 0, 2, 7⟩ 51820) zeroId 0 []
  have hother : ∀ a ∈ [softwareAttribute], a.atype ≠ attrXorMappedAddress := by decide
  have hseed : (buildBindingRequest 0).1 = requestHeader 0 zeroId ++ [] := by decide
  rw [hseed]
  exact ⟨resp, hbuilt, (hlong 20 [softwareAttribute] hother).1⟩

end Example

end Stun

end ServiceMesh
