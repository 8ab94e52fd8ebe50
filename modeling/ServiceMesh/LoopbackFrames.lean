import ServiceMesh.Bytes
import ServiceMesh.StdNet

/-! The frames of the loopback fabric: a length, two addresses and a payload, one after the other
on a stream that may end anywhere. -/

namespace ServiceMesh

open StdNet (Ipv6Addr)
open Bytes

namespace Loopback

def maxFrameBody : Nat := 4 * 1024 * 1024

def headerLen : Nat := 32

def usizeSize : Nat := 2 ^ 64

structure Frame where
  dst : Ipv6Addr
  src : Ipv6Addr
  payload : List UInt8
deriving DecidableEq, Repr

inductive FabricError
  | encoding (message : String)
  | transport (message : String)
  | noRoute (dst : Ipv6Addr)
deriving DecidableEq, Repr

def encodeFrame (f : Frame) : Except FabricError (List UInt8) :=
  let bodyLen := headerLen + f.payload.length
  if usizeSize ≤ bodyLen then
    .error (.encoding ("payload too large: " ++ f.payload.length.repr))
  else if maxFrameBody < bodyLen then
    .error (.encoding ("frame body " ++ bodyLen.repr ++ " exceeds max " ++ maxFrameBody.repr))
  else .ok (toLe 8 bodyLen ++ f.dst.octets ++ f.src.octets ++ f.payload)

inductive IoError
  | unexpectedEof
  | invalidData (message : String)
  | other (message : String)
deriving DecidableEq, Repr

inductive Ending
  | closed
  | broken (message : String)
deriving DecidableEq, Repr

def Ending.error : Ending → IoError
  | .closed => .unexpectedEof
  | .broken message => .other message

structure TcpStream where
  bytes : List UInt8
  ending : Ending
deriving DecidableEq, Repr

def TcpStream.drained (s : TcpStream) : TcpStream := { s with bytes := [] }

def readExact (n : Nat) (s : TcpStream) : Except IoError (List UInt8 × TcpStream) :=
  if n ≤ s.bytes.length then .ok (s.bytes.take n, { s with bytes := s.bytes.drop n })
  else .error s.ending.error

structure ReadFrame where
  result : Except IoError (Option Frame)
  rest : TcpStream
  allocated : Nat

def readBody (bodyLen : Nat) (s : TcpStream) : ReadFrame :=
  match readExact headerLen s with
  | .error e => ⟨.error e, s.drained, 0⟩
  | .ok (header, s) =>
    let dst := Ipv6Addr.ofOctets (header.take 16)
    let src := Ipv6Addr.ofOctets (header.drop 16)
    let payloadLen := bodyLen - headerLen
    -- a read of no bytes succeeds, so an empty payload needs no case of its own
    match readExact payloadLen s with
    | .error e => ⟨.error e, s.drained, payloadLen⟩
    | .ok (payload, s) => ⟨.ok (some ⟨dst, src, payload⟩), s, payloadLen⟩

def readFrame (s : TcpStream) : ReadFrame :=
  match readExact 8 s with
  | .error .unexpectedEof => ⟨.ok none, s.drained, 0⟩
  | .error e => ⟨.error e, s.drained, 0⟩
  | .ok (lenBuf, s) =>
    let bodyLen := ofLe lenBuf
    if usizeSize ≤ bodyLen then
      ⟨.error (.invalidData ("body_len overflows usize: " ++
        "out of range integral type conversion attempted")), s, 0⟩
    else if bodyLen < headerLen then
      ⟨.error (.invalidData ("body_len " ++ bodyLen.repr ++ " < header " ++ headerLen.repr)), s, 0⟩
    else if maxFrameBody < bodyLen then
      ⟨.error (.invalidData ("body_len " ++ bodyLen.repr ++ " > max " ++ maxFrameBody.repr)), s, 0⟩
    else readBody bodyLen s

variable {s : TcpStream} {f : Frame} {part : List UInt8}

theorem readExact_eq_ok {n : Nat} {s' : TcpStream} {bytes : List UInt8}
    (h : readExact n s = .ok (bytes, s')) :
    n ≤ s.bytes.length ∧ bytes = s.bytes.take n ∧ s' = { s with bytes := s.bytes.drop n } := by
  unfold readExact at h
  split at h
  · rename_i hle
    obtain ⟨hbytes, hs⟩ := Prod.mk.inj (Except.ok.inj h)
    exact ⟨hle, hbytes.symm, hs.symm⟩
  · simp at h

theorem readBody_frame {bodyLen : Nat} (h : (readBody bodyLen s).result = .ok (some f)) :
    f.payload.length = bodyLen - headerLen ∧
      (readBody bodyLen s).rest.bytes.length + headerLen ≤ s.bytes.length := by
  unfold readBody at h ⊢
  cases hheader : readExact headerLen s with
  | error e => simp [hheader] at h
  | ok read =>
    obtain ⟨header, s₁⟩ := read
    obtain ⟨hle₁, -, rfl⟩ := readExact_eq_ok hheader
    simp only [hheader] at h ⊢
    cases hpayload : readExact (bodyLen - headerLen) { s with bytes := s.bytes.drop headerLen } with
    | error e => simp [hpayload] at h
    | ok read =>
      obtain ⟨payload, s₂⟩ := read
      obtain ⟨hle₂, rfl, rfl⟩ := readExact_eq_ok hpayload
      simp only [hpayload] at h ⊢
      have hf := Option.some.inj (Except.ok.inj h)
      simp only [List.length_drop] at hle₂ ⊢
      constructor
      · rw [← hf, List.length_take, List.length_drop]
        omega
      · omega

theorem allocated_readBody (bodyLen : Nat) (s : TcpStream) :
    (readBody bodyLen s).allocated ≤ bodyLen := by
  unfold readBody
  split
  · exact Nat.zero_le _
  · dsimp only
    split
    · exact Nat.sub_le _ _
    · exact Nat.sub_le _ _

theorem readFrame_cases (s : TcpStream) :
    ((readFrame s).allocated = 0 ∧ ∀ f, (readFrame s).result ≠ .ok (some f)) ∨
      ∃ bodyLen, headerLen ≤ bodyLen ∧ bodyLen ≤ maxFrameBody ∧ 8 ≤ s.bytes.length ∧
        readFrame s = readBody bodyLen { s with bytes := s.bytes.drop 8 } := by
  unfold readFrame
  cases hlen : readExact 8 s with
  | error e =>
    refine .inl ?_
    cases e with
    | unexpectedEof => exact ⟨rfl, by simp⟩
    | invalidData message => exact ⟨rfl, by simp⟩
    | other message => exact ⟨rfl, by simp⟩
  | ok read =>
    obtain ⟨lenBuf, s₁⟩ := read
    obtain ⟨hle, -, rfl⟩ := readExact_eq_ok hlen
    dsimp only
    by_cases huge : usizeSize ≤ ofLe lenBuf
    · rw [if_pos huge]
      exact .inl ⟨rfl, by simp⟩
    · rw [if_neg huge]
      by_cases hsmall : ofLe lenBuf < headerLen
      · rw [if_pos hsmall]
        exact .inl ⟨rfl, by simp⟩
      · rw [if_neg hsmall]
        by_cases hbig : maxFrameBody < ofLe lenBuf
        · rw [if_pos hbig]
          exact .inl ⟨rfl, by simp⟩
        · rw [if_neg hbig]
          exact .inr ⟨ofLe lenBuf, not_lt.mp hsmall, not_lt.mp hbig, hle, rfl⟩

theorem readFrame_shrinks (h : (readFrame s).result = .ok (some f)) :
    (readFrame s).rest.bytes.length < s.bytes.length := by
  rcases readFrame_cases s with ⟨-, hnone⟩ | ⟨bodyLen, -, -, hlen, hbody⟩
  · exact absurd h (hnone f)
  · rw [hbody] at h ⊢
    have hrest := (readBody_frame h).2
    simp only [List.length_drop] at hrest
    omega

inductive Stop
  | endOfStream
  | failed (e : IoError)
deriving DecidableEq, Repr

def readAll (s : TcpStream) : List Frame × Stop :=
  match _h : (readFrame s).result with
  | .ok (some f) => (f :: (readAll (readFrame s).rest).1, (readAll (readFrame s).rest).2)
  | .ok none => ([], .endOfStream)
  | .error e => ([], .failed e)
termination_by s.bytes.length
decreasing_by
  all_goals exact readFrame_shrinks _h

theorem encodeFrame_eq_ok (h : encodeFrame f = .ok part) :
    headerLen + f.payload.length ≤ maxFrameBody ∧
      part = toLe 8 (headerLen + f.payload.length) ++ (f.dst.octets ++ f.src.octets ++ f.payload) := by
  unfold encodeFrame at h
  dsimp only at h
  split at h
  · simp at h
  · split at h
    · simp at h
    · rename_i hfits
      refine ⟨not_lt.mp hfits, ?_⟩
      rw [← Except.ok.inj h]
      simp only [List.append_assoc]

theorem readExact_append (bytes rest : List UInt8) (ending : Ending) :
    readExact bytes.length ⟨bytes ++ rest, ending⟩ = .ok (bytes, ⟨rest, ending⟩) := by
  have hle : bytes.length ≤ (bytes ++ rest).length := by
    rw [List.length_append]
    omega
  simp only [readExact, if_pos hle, List.take_left, List.drop_left]

theorem readFrame_length (h : encodeFrame f = .ok part) (rest : List UInt8) (ending : Ending) :
    readFrame ⟨toLe 8 (headerLen + f.payload.length) ++ rest, ending⟩ =
      readBody (headerLen + f.payload.length) ⟨rest, ending⟩ := by
  have hfits := (encodeFrame_eq_ok h).1
  have hmax : maxFrameBody = 4194304 := rfl
  have hsize : usizeSize = 18446744073709551616 := rfl
  have hread := readExact_append (toLe 8 (headerLen + f.payload.length)) rest ending
  rw [length_toLe] at hread
  have hlen : ofLe (toLe 8 (headerLen + f.payload.length)) = headerLen + f.payload.length :=
    ofLe_toLe (by omega)
  rw [readFrame, hread]
  dsimp only
  rw [hlen, if_neg (by omega), if_neg (by omega), if_neg (by omega)]

theorem readFrame_encoded (h : encodeFrame f = .ok part) (rest : List UInt8) (ending : Ending) :
    (readFrame ⟨part ++ rest, ending⟩).result = .ok (some f) ∧
      (readFrame ⟨part ++ rest, ending⟩).rest = ⟨rest, ending⟩ := by
  obtain ⟨-, hpart⟩ := encodeFrame_eq_ok h
  have hbytes : part ++ rest = toLe 8 (headerLen + f.payload.length) ++
      ((f.dst.octets ++ f.src.octets) ++ (f.payload ++ rest)) := by
    rw [hpart]
    simp only [List.append_assoc]
  have hheader := readExact_append (f.dst.octets ++ f.src.octets) (f.payload ++ rest) ending
  have hpayload := readExact_append f.payload rest ending
  have hlen : (f.dst.octets ++ f.src.octets).length = headerLen := rfl
  have hrest : headerLen + f.payload.length - headerLen = f.payload.length := by omega
  have hdst : (f.dst.octets ++ f.src.octets).take 16 = f.dst.octets := rfl
  have hsrc : (f.dst.octets ++ f.src.octets).drop 16 = f.src.octets := rfl
  rw [hlen] at hheader
  rw [hbytes, readFrame_length h, readBody, hheader]
  simp only [hrest, hpayload, hdst, hsrc, Ipv6Addr.ofOctets_octets, and_self]

def cutStop (left : Nat) (ending : Ending) : Stop :=
  if left < 8 ∧ ending = .closed then .endOfStream else .failed ending.error

theorem readExact_short {n : Nat} (h : s.bytes.length < n) :
    readExact n s = .error s.ending.error :=
  if_neg (not_le.mpr h)

theorem readBody_cut {bodyLen : Nat} (hbody : headerLen ≤ bodyLen) (h : s.bytes.length < bodyLen) :
    (readBody bodyLen s).result = .error s.ending.error := by
  unfold readBody
  by_cases hheader : s.bytes.length < headerLen
  · rw [readExact_short hheader]
  · have hread : readExact headerLen s =
        .ok (s.bytes.take headerLen, { s with bytes := s.bytes.drop headerLen }) :=
      if_pos (not_lt.mp hheader)
    have hshort : (s.bytes.drop headerLen).length < bodyLen - headerLen := by
      rw [List.length_drop]
      omega
    rw [hread]
    dsimp only
    rw [readExact_short hshort]

theorem readFrame_cut (h : encodeFrame f = .ok part) {n : Nat} (hn : n < part.length)
    (ending : Ending) :
    (readFrame ⟨part.take n, ending⟩).result =
      if n < 8 ∧ ending = .closed then .ok none else .error ending.error := by
  obtain ⟨-, hpart⟩ := encodeFrame_eq_ok h
  by_cases hlen : n < 8
  · have hshort : (part.take n).length < 8 := by
      rw [List.length_take]
      omega
    have hread : readExact 8 ⟨part.take n, ending⟩ = .error ending.error := readExact_short hshort
    rw [readFrame, hread]
    cases ending with
    | closed => rw [if_pos ⟨hlen, rfl⟩]; rfl
    | broken message => rw [if_neg (by simp)]; rfl
  · -- the cut is behind the length, in the header or in the payload
    rw [if_neg (fun hc => hlen hc.1)]
    have hcutBytes : part.take n = toLe 8 (headerLen + f.payload.length) ++
        (f.dst.octets ++ f.src.octets ++ f.payload).take (n - 8) := by
      rw [hpart, List.take_append, length_toLe, List.take_of_length_le (by rw [length_toLe]; omega)]
    have hbody : (f.dst.octets ++ f.src.octets ++ f.payload).length =
        headerLen + f.payload.length := by
      simp only [List.length_append, Ipv6Addr.length_octets]
      rfl
    have hall : part.length = 8 + (headerLen + f.payload.length) := by
      rw [hpart, List.length_append, length_toLe, hbody]
    rw [hcutBytes, readFrame_length h]
    apply readBody_cut (Nat.le_add_right _ _)
    rw [List.length_take, hbody]
    omega

theorem readAll_of_cut {left : Nat} (h : (readFrame s).result =
      if left < 8 ∧ s.ending = .closed then .ok none else .error s.ending.error) :
    readAll s = ([], cutStop left s.ending) := by
  rw [readAll, cutStop]
  by_cases hend : left < 8 ∧ s.ending = .closed
  · rw [if_pos hend] at h ⊢
    split
    · rename_i f hf
      rw [h] at hf
      simp at hf
    · rfl
    · rename_i e he
      rw [h] at he
      simp at he
  · rw [if_neg hend] at h ⊢
    split
    · rename_i f hf
      rw [h] at hf
      simp at hf
    · rename_i hnone
      rw [h] at hnone
      simp at hnone
    · rename_i e he
      rw [h] at he
      rw [Except.error.inj he]

theorem readAll_nil (ending : Ending) : readAll ⟨[], ending⟩ = ([], cutStop 0 ending) := by
  apply readAll_of_cut
  cases ending <;> rfl

theorem readAll_encoded (h : encodeFrame f = .ok part) (rest : List UInt8) (ending : Ending) :
    readAll ⟨part ++ rest, ending⟩ =
      (f :: (readAll ⟨rest, ending⟩).1, (readAll ⟨rest, ending⟩).2) := by
  obtain ⟨hresult, hrest⟩ := readFrame_encoded h rest ending
  rw [readAll]
  split
  · rename_i f' hf'
    rw [hresult] at hf'
    rw [hrest, Option.some.inj (Except.ok.inj hf')]
  · rename_i hnone
    rw [hresult] at hnone
    simp at hnone
  · rename_i e he
    rw [hresult] at he
    simp at he

/-- The stream is cut after `n` bytes: the frames that are read are those that lie wholly before
the cut. -/
theorem readAll_take {frames : List Frame} {parts : List (List UInt8)}
    (h : List.Forall₂ (fun f part => encodeFrame f = .ok part) frames parts) (n : Nat)
    (ending : Ending) :
    ∃ k ≤ frames.length,
      readAll ⟨parts.flatten.take n, ending⟩ =
        (frames.take k, cutStop ((parts.flatten.take n).length - (parts.take k).flatten.length) ending) ∧
      (parts.take k).flatten.length ≤ n ∧
      (k < frames.length → n < (parts.take (k + 1)).flatten.length) := by
  induction h generalizing n with
  | nil =>
    refine ⟨0, Nat.le_refl 0, ?_, Nat.zero_le n, by simp⟩
    simp [readAll_nil]
  | @cons f part frames parts hfirst _ ih =>
    by_cases hcut : n < part.length
    · refine ⟨0, Nat.zero_le _, ?_, Nat.zero_le n, ?_⟩
      · have htake : (part :: parts).flatten.take n = part.take n := by
          rw [List.flatten_cons, List.take_append_of_le_length (by omega)]
        have hlen : (part.take n).length = n := by
          rw [List.length_take]
          omega
        have hstop : readAll ⟨part.take n, ending⟩ = ([], cutStop n ending) :=
          readAll_of_cut (readFrame_cut hfirst hcut ending)
        rw [htake, hstop, hlen]
        rfl
      · intro _
        simpa using hcut
    · obtain ⟨k, hk, hread, hbefore, hnext⟩ := ih (n - part.length)
      have htake : (part :: parts).flatten.take n = part ++ parts.flatten.take (n - part.length) := by
        rw [List.flatten_cons, List.take_append, List.take_of_length_le (by omega)]
      refine ⟨k + 1, Nat.succ_le_succ hk, ?_, ?_, ?_⟩
      · rw [htake, readAll_encoded hfirst, hread]
        simp only [List.take_succ_cons, List.flatten_cons, List.length_append]
        congr 2
        omega
      · rw [List.take_succ_cons, List.flatten_cons, List.length_append]
        omega
      · intro hlt
        have hmore := hnext (by simpa using hlt)
        rw [List.take_succ_cons, List.flatten_cons, List.length_append]
        omega

/-- Frames that were accepted for sending come off a stream that is cut anywhere as they were, up
to the cut; and no stream makes the reader return or allocate more than the bound. -/
theorem loopback_framing :
    (∀ (frames : List Frame) (parts : List (List UInt8)),
      List.Forall₂ (fun f part => encodeFrame f = .ok part) frames parts →
      ∀ (n : Nat) (ending : Ending),
        ∃ k ≤ frames.length,
          readAll ⟨parts.flatten.take n, ending⟩ =
            (frames.take k,
              cutStop ((parts.flatten.take n).length - (parts.take k).flatten.length) ending) ∧
          (parts.take k).flatten.length ≤ n ∧
          (k < frames.length → n < (parts.take (k + 1)).flatten.length)) ∧
    ∀ s : TcpStream,
      (∀ f, (readFrame s).result = .ok (some f) → headerLen + f.payload.length ≤ maxFrameBody) ∧
      (readFrame s).allocated ≤ maxFrameBody := by
  refine ⟨fun frames parts h n ending => readAll_take h n ending, ?_⟩
  intro s
  rcases readFrame_cases s with ⟨hnothing, hnone⟩ | ⟨bodyLen, hheader, hmax, -, hbody⟩
  · refine ⟨fun f hf => absurd hf (hnone f), ?_⟩
    rw [hnothing]
    exact Nat.zero_le _
  · rw [hbody]
    constructor
    · intro f hf
      have hlen := (readBody_frame hf).1
      omega
    · exact (allocated_readBody bodyLen _).trans hmax

section Example

def pingFrame : Frame := ⟨⟨0xfd00, 0, 0, 0, 0, 0, 0, 1⟩, ⟨0, 0, 0, 0, 0, 0, 0, 0⟩, [1, 2]⟩

theorem loopback_framing_cut :
    ∃ parts, List.Forall₂ (fun f part => encodeFrame f = .ok part) [pingFrame, pingFrame] parts ∧
      (readAll ⟨parts.flatten.take 83, .closed⟩).1 = [pingFrame] := by
  have hencoded : ∃ part, encodeFrame pingFrame = .ok part ∧ part.length = 42 :=
    ⟨_, rfl, by decide⟩
  obtain ⟨part, hpart, hlen⟩ := hencoded
  have hparts : List.Forall₂ (fun f part => encodeFrame f = .ok part) [pingFrame, pingFrame]
      [part, part] := .cons hpart (.cons hpart .nil)
  refine ⟨_, hparts, ?_⟩
  obtain ⟨k, hk, hread, hbefore, hnext⟩ := loopback_framing.1 _ _ hparts 83 .closed
  rw [hread]
  match k, hk, hbefore, hnext with
  | 0, _, _, hnext =>
    have h := hnext (by decide)
    simp [hlen] at h
  | 1, _, _, _ => rfl
  | 2, _, hbefore, _ => simp [hlen] at hbefore

end Example

end Loopback

end ServiceMesh
