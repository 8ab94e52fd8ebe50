import Mathlib.Tactic

/-! Byte strings as a program reads them. An access outside the bounds stops the program, and a
number is written with a fixed number of bytes. -/

namespace Bytes

inductive Fault
  | index
  | boundary
deriving DecidableEq, Repr

abbrev Checked := Except Fault

@[simp] theorem ok_bind {α β : Type} (a : α) (f : α → Checked β) :
    ((Except.ok a : Checked α) >>= f) = f a := rfl

theorem map_bind {α β γ : Type} (x : Checked α) (f : α → Checked β) (g : β → γ) :
    (x >>= f).map g = x >>= fun a => (f a).map g := by
  cases x <;> rfl

theorem ok_of_bind_ok {α β : Type} {x : Checked α} {f : α → Checked β} (hx : ∃ a, x = .ok a)
    (hf : ∀ a, x = .ok a → ∃ b, f a = .ok b) : ∃ b, (x >>= f) = .ok b := by
  obtain ⟨a, rfl⟩ := hx
  exact hf a rfl

def byteAt (bytes : List UInt8) (i : Nat) : Checked UInt8 :=
  match bytes[i]? with
  | some b => .ok b
  | none => .error .index

def slice (bytes : List UInt8) (i j : Nat) : Checked (List UInt8) :=
  if i ≤ j ∧ j ≤ bytes.length then .ok ((bytes.drop i).take (j - i)) else .error .index

theorem byteAt_ok {bytes : List UInt8} {i : Nat} (h : i < bytes.length) :
    ∃ b, byteAt bytes i = .ok b := by
  have hget : bytes[i]? = some bytes[i] := List.getElem?_eq_getElem h
  exact ⟨bytes[i], by rw [byteAt, hget]⟩

theorem slice_ok {bytes : List UInt8} {i j : Nat} (hij : i ≤ j) (hj : j ≤ bytes.length) :
    slice bytes i j = .ok ((bytes.drop i).take (j - i)) :=
  if_pos ⟨hij, hj⟩

@[simp] theorem byteAt_cons_zero (b : UInt8) (bytes : List UInt8) : byteAt (b :: bytes) 0 = .ok b :=
  rfl

@[simp] theorem byteAt_cons_succ (b : UInt8) (bytes : List UInt8) (i : Nat) :
    byteAt (b :: bytes) (i + 1) = byteAt bytes i := rfl

theorem byteAt_append (front bytes : List UInt8) (i : Nat) :
    byteAt (front ++ bytes) (front.length + i) = byteAt bytes i := by
  have hget : (front ++ bytes)[front.length + i]? = bytes[i]? := by
    rw [List.getElem?_append_right (by omega)]
    congr 1
    omega
  rw [byteAt, byteAt, hget]

theorem slice_append (front bytes : List UInt8) (i j : Nat) :
    slice (front ++ bytes) (front.length + i) (front.length + j) = slice bytes i j := by
  have hwidth : front.length + j - (front.length + i) = j - i := by omega
  have hdrop : (front ++ bytes).drop (front.length + i) = bytes.drop i := by
    rw [List.drop_append, List.drop_of_length_le (by omega), List.nil_append]
    congr 1
    omega
  by_cases h : i ≤ j ∧ j ≤ bytes.length
  · have h' : front.length + i ≤ front.length + j ∧
        front.length + j ≤ (front ++ bytes).length := by
      rw [List.length_append]
      omega
    rw [slice, slice, if_pos h, if_pos h', hwidth, hdrop]
  · have h' : ¬ (front.length + i ≤ front.length + j ∧
        front.length + j ≤ (front ++ bytes).length) := by
      rw [List.length_append]
      omega
    rw [slice, slice, if_neg h, if_neg h']

theorem slice_middle (front middle back : List UInt8) :
    slice (front ++ (middle ++ back)) front.length (front.length + middle.length) = .ok middle := by
  have h := slice_append front (middle ++ back) 0 middle.length
  rw [Nat.add_zero] at h
  rw [h, slice_ok (by omega) (by simp)]
  simp

def toLe (width n : Nat) : List UInt8 :=
  (List.range width).map (fun i => UInt8.ofNat (n / 256 ^ i))

def ofLe (bytes : List UInt8) : Nat := bytes.foldr (fun b n => b.toNat + 256 * n) 0

def toBe (width n : Nat) : List UInt8 := (toLe width n).reverse

def ofBe (bytes : List UInt8) : Nat := ofLe bytes.reverse

@[simp] theorem length_toLe (width n : Nat) : (toLe width n).length = width := by
  simp [toLe]

@[simp] theorem length_toBe (width n : Nat) : (toBe width n).length = width := by
  simp [toBe]

theorem toLe_succ (width n : Nat) :
    toLe (width + 1) n = UInt8.ofNat n :: toLe width (n / 256) := by
  rw [toLe, toLe, List.range_succ_eq_map, List.map_cons, List.map_map]
  congr 1
  · simp
  · apply List.map_congr_left
    intro i _
    show UInt8.ofNat (n / 256 ^ (i + 1)) = UInt8.ofNat (n / 256 / 256 ^ i)
    rw [Nat.pow_succ', Nat.div_div_eq_div_mul]

theorem ofLe_toLe {width n : Nat} (h : n < 256 ^ width) : ofLe (toLe width n) = n := by
  induction width generalizing n with
  | zero =>
    have hn : n = 0 := by omega
    rw [hn]
    rfl
  | succ width ih =>
    have hquot : n / 256 < 256 ^ width := by
      rw [Nat.div_lt_iff_lt_mul (by omega), ← Nat.pow_succ]
      exact h
    have hstep : ofLe (toLe (width + 1) n) =
        (UInt8.ofNat n).toNat + 256 * ofLe (toLe width (n / 256)) := by
      rw [toLe_succ]
      rfl
    rw [hstep, ih hquot, UInt8.toNat_ofNat']
    omega

theorem ofBe_toBe {width n : Nat} (h : n < 256 ^ width) : ofBe (toBe width n) = n := by
  rw [ofBe, toBe, List.reverse_reverse]
  exact ofLe_toLe h

def xorWith (key bytes : List UInt8) : List UInt8 := List.zipWith (· ^^^ ·) bytes key

@[simp] theorem length_xorWith (key bytes : List UInt8) :
    (xorWith key bytes).length = min bytes.length key.length :=
  List.length_zipWith

theorem xorWith_xorWith {key bytes : List UInt8} (h : bytes.length ≤ key.length) :
    xorWith key (xorWith key bytes) = bytes := by
  induction bytes generalizing key with
  | nil => rfl
  | cons b bytes ih =>
    cases key with
    | nil => simp at h
    | cons k key =>
      have hrest : bytes.length ≤ key.length := by simpa using h
      have hbyte : b ^^^ k ^^^ k = b := by
        rw [UInt8.xor_assoc, UInt8.xor_self, UInt8.xor_zero]
      show (b ^^^ k ^^^ k) :: xorWith key (xorWith key bytes) = b :: bytes
      rw [hbyte, ih hrest]

end Bytes
