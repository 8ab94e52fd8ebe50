import ServiceMesh.Bytes

/-! Text as characters with a length in bytes: the decoding that puts a replacement character for
whatever is not UTF-8, and the slice that stops the program inside a character. -/

namespace Utf8

open Bytes

def isContinuation (b : UInt8) : Bool := b &&& 0xC0 = 0x80

def second3 (b0 b1 : UInt8) : Bool :=
  b0 = 0xE0 ∧ 0xA0 ≤ b1 ∧ b1 ≤ 0xBF ∨ 0xE1 ≤ b0 ∧ b0 ≤ 0xEC ∧ 0x80 ≤ b1 ∧ b1 ≤ 0xBF ∨
    b0 = 0xED ∧ 0x80 ≤ b1 ∧ b1 ≤ 0x9F ∨ 0xEE ≤ b0 ∧ b0 ≤ 0xEF ∧ 0x80 ≤ b1 ∧ b1 ≤ 0xBF

def second4 (b0 b1 : UInt8) : Bool :=
  b0 = 0xF0 ∧ 0x90 ≤ b1 ∧ b1 ≤ 0xBF ∨ 0xF1 ≤ b0 ∧ b0 ≤ 0xF3 ∧ 0x80 ≤ b1 ∧ b1 ≤ 0xBF ∨
    b0 = 0xF4 ∧ 0x80 ≤ b1 ∧ b1 ≤ 0x8F

def replacementCharacter : Char := Char.ofNat 0xFFFD

def payload (b : UInt8) (bits : Nat) : Nat := b.toNat % 2 ^ bits

/-- The first character of the bytes, and how many bytes it takes after the first one. A sequence
that breaks off is replaced as a whole up to the byte that does not fit. -/
def nextChar (b0 : UInt8) (rest : List UInt8) : Char × Nat :=
  let b1 := rest.getD 0 0
  let b2 := rest.getD 1 0
  let b3 := rest.getD 2 0
  if b0 < 0x80 then (Char.ofNat b0.toNat, 0)
  else if 0xC2 ≤ b0 ∧ b0 ≤ 0xDF then
    if isContinuation b1 then (Char.ofNat (payload b0 5 * 64 + payload b1 6), 1)
    else (replacementCharacter, 0)
  else if 0xE0 ≤ b0 ∧ b0 ≤ 0xEF then
    if ¬ second3 b0 b1 then (replacementCharacter, 0)
    else if ¬ isContinuation b2 then (replacementCharacter, 1)
    else (Char.ofNat (payload b0 4 * 4096 + payload b1 6 * 64 + payload b2 6), 2)
  else if 0xF0 ≤ b0 ∧ b0 ≤ 0xF4 then
    if ¬ second4 b0 b1 then (replacementCharacter, 0)
    else if ¬ isContinuation b2 then (replacementCharacter, 1)
    else if ¬ isContinuation b3 then (replacementCharacter, 2)
    else
      (Char.ofNat (payload b0 3 * 262144 + payload b1 6 * 4096 + payload b2 6 * 64 + payload b3 6), 3)
  else (replacementCharacter, 0)

def fromUtf8Lossy : List UInt8 → List Char
  | [] => []
  | b0 :: rest => (nextChar b0 rest).1 :: fromUtf8Lossy (rest.drop (nextChar b0 rest).2)
termination_by bytes => bytes.length
decreasing_by
  rw [List.length_drop, List.length_cons]
  omega

theorem fromUtf8Lossy_ascii {b0 : UInt8} (h : b0 < 0x80) (rest : List UInt8) :
    fromUtf8Lossy (b0 :: rest) = Char.ofNat b0.toNat :: fromUtf8Lossy rest := by
  have hnext : nextChar b0 rest = (Char.ofNat b0.toNat, 0) := if_pos h
  rw [fromUtf8Lossy, hnext, List.drop_zero]

theorem fromUtf8Lossy_replicate {b0 : UInt8} (h : b0 < 0x80) (n : Nat) (rest : List UInt8) :
    fromUtf8Lossy (List.replicate n b0 ++ rest) =
      List.replicate n (Char.ofNat b0.toNat) ++ fromUtf8Lossy rest := by
  induction n with
  | zero => rfl
  | succ n ih =>
    rw [List.replicate_succ, List.cons_append, fromUtf8Lossy_ascii h, ih, List.replicate_succ,
      List.cons_append]

def byteLen (s : List Char) : Nat := (s.map Char.utf8Size).sum

@[simp] theorem byteLen_nil : byteLen [] = 0 := rfl

@[simp] theorem byteLen_cons (c : Char) (s : List Char) :
    byteLen (c :: s) = c.utf8Size + byteLen s := by
  simp [byteLen]

@[simp] theorem byteLen_append (s t : List Char) : byteLen (s ++ t) = byteLen s + byteLen t := by
  simp [byteLen]

def sliceTo : List Char → Nat → Checked (List Char)
  | _, 0 => .ok []
  | [], _ + 1 => .error .boundary
  | c :: s, n + 1 =>
    if c.utf8Size ≤ n + 1 then (sliceTo s (n + 1 - c.utf8Size)).map (c :: ·)
    else .error .boundary

def Straddles (s : List Char) (n : Nat) : Prop :=
  ∃ front c back, s = front ++ c :: back ∧ byteLen front < n ∧ n < byteLen front + c.utf8Size

theorem sliceTo_eq_ok {s front : List Char} {n : Nat} (h : sliceTo s n = .ok front) :
    front <+: s ∧ byteLen front = n := by
  induction s generalizing n front with
  | nil =>
    cases n with
    | zero =>
      rw [← Except.ok.inj h]
      exact ⟨List.nil_prefix, rfl⟩
    | succ n => simp [sliceTo] at h
  | cons c s ih =>
    cases n with
    | zero =>
      rw [← Except.ok.inj h]
      exact ⟨List.nil_prefix, rfl⟩
    | succ n =>
      rw [sliceTo] at h
      split at h
      · rename_i hfits
        cases hrest : sliceTo s (n + 1 - c.utf8Size) with
        | error e => simp [hrest, Except.map] at h
        | ok back =>
          rw [hrest] at h
          obtain ⟨hfront, hlen⟩ := ih hrest
          rw [← Except.ok.inj h, byteLen_cons, hlen]
          exact ⟨List.cons_prefix_cons.mpr ⟨rfl, hfront⟩, by omega⟩
      · simp at h

/-- Inside the text the only thing in the way of a slice is a character that straddles its end. -/
theorem exists_sliceTo {s : List Char} {n : Nat} (hn : n ≤ byteLen s) :
    (∃ front, sliceTo s n = .ok front) ↔ ¬ Straddles s n := by
  induction s generalizing n with
  | nil =>
    have hzero : n = 0 := Nat.le_zero.mp hn
    subst hzero
    refine iff_of_true ⟨[], rfl⟩ ?_
    rintro ⟨front, c, back, hs, -⟩
    simp at hs
  | cons c s ih =>
    have hpos := c.utf8Size_pos
    cases n with
    | zero =>
      refine iff_of_true ⟨[], rfl⟩ ?_
      rintro ⟨front, c', back, -, hstart, -⟩
      omega
    | succ n =>
      rw [byteLen_cons] at hn
      by_cases hfits : c.utf8Size ≤ n + 1
      · have hslice : (∃ front, sliceTo (c :: s) (n + 1) = .ok front) ↔
            ∃ front, sliceTo s (n + 1 - c.utf8Size) = .ok front := by
          rw [sliceTo, if_pos hfits]
          cases sliceTo s (n + 1 - c.utf8Size) with
          | error e => simp [Except.map]
          | ok front => simp [Except.map]
        have hstraddles : Straddles (c :: s) (n + 1) ↔ Straddles s (n + 1 - c.utf8Size) := by
          constructor
          · rintro ⟨front, c', back, hs, hstart, hend⟩
            cases front with
            | nil =>
              have hc := (List.cons.inj hs).1
              subst hc
              rw [byteLen_nil] at hend
              omega
            | cons d front =>
              obtain ⟨rfl, hrest⟩ := List.cons.inj hs
              rw [byteLen_cons] at hstart hend
              exact ⟨front, c', back, hrest, by omega, by omega⟩
          · rintro ⟨front, c', back, rfl, hstart, hend⟩
            refine ⟨c :: front, c', back, rfl, ?_, ?_⟩
            · rw [byteLen_cons]
              omega
            · rw [byteLen_cons]
              omega
        rw [hslice, hstraddles]
        exact ih (by omega)
      · refine iff_of_false ?_ ?_
        · rw [sliceTo, if_neg hfits]
          simp
        · rw [not_not]
          exact ⟨[], c, s, rfl, by simp, by simpa using hfits⟩

theorem not_straddles_of_le {s : List Char} {n : Nat} (hn : byteLen s ≤ n) : ¬ Straddles s n := by
  rintro ⟨front, c, back, rfl, -, hend⟩
  rw [byteLen_append, byteLen_cons] at hn
  omega

end Utf8
