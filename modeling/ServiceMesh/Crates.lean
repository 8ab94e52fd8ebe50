import ServiceMesh.StdNet

/-! The third-party crates the coordinator calls, `uuid` and `base64`, as parameters, and an
implementation of them on which concrete runs are evaluated. -/

namespace ServiceMesh

abbrev Uuid := BitVec 128

instance : LawfulBEq Uuid := inferInstance

/-- What the coordinator uses of `uuid` and of the standard `base64` engine. The only fact
assumed is that a printed UUID parses back. -/
class Crates where
  uuidToString : Uuid → String
  uuidParseStr : String → Except String Uuid
  uuidParseStr_toString : ∀ u, uuidParseStr (uuidToString u) = .ok u
  base64Encode : List UInt8 → String
  base64Decode : String → Except String (List UInt8)

attribute [simp] Crates.uuidParseStr_toString

def Uuid.toString [Crates] (u : Uuid) : String := Crates.uuidToString u

def Uuid.parseStr [Crates] (s : String) : Except String Uuid := Crates.uuidParseStr s

@[simp] theorem Uuid.parseStr_toString [Crates] (u : Uuid) :
    Uuid.parseStr (Uuid.toString u) = .ok u :=
  Crates.uuidParseStr_toString u

theorem Uuid.toString_injective [Crates] : Function.Injective Uuid.toString := by
  intro a b h
  have hb := Uuid.parseStr_toString b
  rw [← h, Uuid.parseStr_toString] at hb
  exact Except.ok.inj hb

@[simp] theorem Uuid.toString_inj [Crates] {a b : Uuid} :
    Uuid.toString a = Uuid.toString b ↔ a = b :=
  Uuid.toString_injective.eq_iff

namespace Reference

def hexDigits : Nat → Nat → List Nat
  | 0, _ => []
  | width + 1, n => hexDigits width (n / 16) ++ [n % 16]

def hexValue (digits : List Nat) : Nat := digits.foldl (fun acc d => 16 * acc + d) 0

theorem hexValue_hexDigits (width n : Nat) : hexValue (hexDigits width n) = n % 16 ^ width := by
  induction width generalizing n with
  | zero => simp [hexDigits, hexValue, Nat.mod_one]
  | succ width ih =>
    have hfold : hexValue (hexDigits width (n / 16) ++ [n % 16]) =
        16 * hexValue (hexDigits width (n / 16)) + n % 16 := by
      simp [hexValue, List.foldl_append]
    rw [hexDigits, hfold, ih, pow_succ', Nat.mod_mul]
    omega

theorem hexDigits_lt {width n d : Nat} (h : d ∈ hexDigits width n) : d < 16 := by
  induction width generalizing n with
  | zero => simp [hexDigits] at h
  | succ width ih =>
    rcases List.mem_append.mp h with h | h
    · exact ih h
    · rw [List.mem_singleton] at h
      omega

theorem length_hexDigits (width n : Nat) : (hexDigits width n).length = width := by
  induction width generalizing n with
  | zero => rfl
  | succ width ih => simp [hexDigits, ih]

def hyphenate (l : List Char) : List Char :=
  l.take 8 ++ '-' :: ((l.drop 8).take 4 ++ '-' :: ((l.drop 12).take 4 ++
    '-' :: ((l.drop 16).take 4 ++ '-' :: l.drop 20)))

def unhyphenate (l : List Char) : Option (List Char) :=
  if l.length = 36 ∧ [8, 13, 18, 23].all (fun i => l[i]? == some '-') then
    some (l.take 8 ++ (l.drop 9).take 4 ++ (l.drop 14).take 4 ++ (l.drop 19).take 4 ++ l.drop 24)
  else none

theorem unhyphenate_hyphenate {l : List Char} (h : l.length = 32) :
    unhyphenate (hyphenate l) = some l := by
  obtain ⟨a, t, rfl, ha⟩ : ∃ a t, l = a ++ t ∧ a.length = 8 :=
    ⟨l.take 8, l.drop 8, by simp, by simp [h]⟩
  obtain ⟨b, t, rfl, hb⟩ : ∃ b u, t = b ++ u ∧ b.length = 4 :=
    ⟨t.take 4, t.drop 4, by simp, by simp at h ⊢; omega⟩
  obtain ⟨c, t, rfl, hc⟩ : ∃ c u, t = c ++ u ∧ c.length = 4 :=
    ⟨t.take 4, t.drop 4, by simp, by simp at h ⊢; omega⟩
  obtain ⟨d, t, rfl, hd⟩ : ∃ d u, t = d ++ u ∧ d.length = 4 :=
    ⟨t.take 4, t.drop 4, by simp, by simp at h ⊢; omega⟩
  simp only [List.length_append] at h
  have ht : t.length = 12 := by omega
  simp [hyphenate, unhyphenate, List.drop_append, List.getElem?_append,
    List.drop_eq_nil_of_le, ha, hb, hc, hd, ht]

def uuidToString (u : Uuid) : String :=
  String.ofList (hyphenate ((hexDigits 32 u.toNat).map Nat.digitChar))

def uuidParseStr (s : String) : Except String Uuid :=
  match unhyphenate s.toList with
  | none => .error "invalid UUID"
  | some l =>
    match l.mapM (StdNet.toDigit 16) with
    | none => .error "invalid UUID"
    | some digits => .ok (BitVec.ofNat 128 (hexValue digits))

theorem mapM_toDigit_digitChar {ds : List Nat} (h : ∀ d ∈ ds, d < 16) :
    (ds.map Nat.digitChar).mapM (StdNet.toDigit 16) = some ds := by
  induction ds with
  | nil => rfl
  | cons d ds ih =>
    have hd : StdNet.toDigit 16 d.digitChar = some d :=
      StdNet.toDigit_digitChar (le_refl 16) (h d List.mem_cons_self)
    simp [List.mapM_cons, hd, ih (fun x hx => h x (List.mem_cons_of_mem d hx))]

theorem uuidParseStr_uuidToString (u : Uuid) : uuidParseStr (uuidToString u) = .ok u := by
  have hlen : ((hexDigits 32 u.toNat).map Nat.digitChar).length = 32 := by
    rw [List.length_map, length_hexDigits]
  have hval : BitVec.ofNat 128 (hexValue (hexDigits 32 u.toNat)) = u := by
    apply BitVec.eq_of_toNat_eq
    rw [hexValue_hexDigits, BitVec.toNat_ofNat]
    have := u.isLt
    omega
  simp [uuidParseStr, uuidToString, unhyphenate_hyphenate hlen,
    mapM_toDigit_digitChar (fun d => hexDigits_lt), hval]

def base64Alphabet : List Char :=
  "ABCDEFGHIJKLMNOPQRSTUVWXYZabcdefghijklmnopqrstuvwxyz0123456789+/".toList

def sextet (c : Char) : Option Nat :=
  let n := c.toNat
  if 65 ≤ n ∧ n ≤ 90 then some (n - 65)
  else if 97 ≤ n ∧ n ≤ 122 then some (n - 71)
  else if 48 ≤ n ∧ n ≤ 57 then some (n + 4)
  else if n = 43 then some 62
  else if n = 47 then some 63
  else none

def sextetChar (i : Nat) : Char := base64Alphabet.getD i 'A'

def base64Encode : List UInt8 → List Char
  | [] => []
  | [a] => [sextetChar (a.toNat / 4), sextetChar (a.toNat % 4 * 16), '=', '=']
  | [a, b] =>
    [sextetChar (a.toNat / 4), sextetChar (a.toNat % 4 * 16 + b.toNat / 16),
      sextetChar (b.toNat % 16 * 4), '=']
  | a :: b :: c :: rest =>
    sextetChar (a.toNat / 4) :: sextetChar (a.toNat % 4 * 16 + b.toNat / 16) ::
      sextetChar (b.toNat % 16 * 4 + c.toNat / 64) :: sextetChar (c.toNat % 64) ::
      base64Encode rest

def base64Decode : List Char → Option (List UInt8)
  | [] => some []
  | [w, x, '=', '='] => do
    let p ← sextet w
    let q ← sextet x
    guard (q % 16 = 0)
    return [UInt8.ofNat (p * 4 + q / 16)]
  | [w, x, y, '='] => do
    let p ← sextet w
    let q ← sextet x
    let r ← sextet y
    guard (r % 4 = 0)
    return [UInt8.ofNat (p * 4 + q / 16), UInt8.ofNat (q % 16 * 16 + r / 4)]
  | w :: x :: y :: z :: rest => do
    let p ← sextet w
    let q ← sextet x
    let r ← sextet y
    let s ← sextet z
    let bytes ← base64Decode rest
    return UInt8.ofNat (p * 4 + q / 16) :: UInt8.ofNat (q % 16 * 16 + r / 4) ::
      UInt8.ofNat (r % 4 * 64 + s) :: bytes
  | _ => none

theorem sextet_sextetChar : ∀ i < 64, sextet (sextetChar i) = some i := by decide +kernel

theorem sextetChar_ne : ∀ i < 64, sextetChar i ≠ '=' := by decide +kernel

theorem ofNat_eq_of_toNat {n : Nat} {a : UInt8} (h : n = a.toNat) : UInt8.ofNat n = a := by
  rw [h, UInt8.ofNat_toNat]

theorem base64Decode_base64Encode (bytes : List UInt8) :
    base64Decode (base64Encode bytes) = some bytes := by
  fun_induction base64Encode bytes with
  | case1 => rfl
  | case2 a =>
    have ha := a.toNat_lt
    have hp := sextet_sextetChar (a.toNat / 4) (by omega)
    have hq := sextet_sextetChar (a.toNat % 4 * 16) (by omega)
    have hpad : a.toNat % 4 * 16 % 16 = 0 := by omega
    have hfirst : UInt8.ofNat (a.toNat / 4 * 4 + a.toNat % 4 * 16 / 16) = a :=
      ofNat_eq_of_toNat (by omega)
    simp only [base64Decode, hp, hq, hpad, hfirst, guard, Option.bind_eq_bind, Option.bind_some,
      if_true, Option.pure_def]
  | case3 a b =>
    have ha := a.toNat_lt
    have hb := b.toNat_lt
    have hp := sextet_sextetChar (a.toNat / 4) (by omega)
    have hq := sextet_sextetChar (a.toNat % 4 * 16 + b.toNat / 16) (by omega)
    have hr := sextet_sextetChar (b.toNat % 16 * 4) (by omega)
    have hpad : b.toNat % 16 * 4 % 4 = 0 := by omega
    have hfirst : UInt8.ofNat (a.toNat / 4 * 4 + (a.toNat % 4 * 16 + b.toNat / 16) / 16) = a :=
      ofNat_eq_of_toNat (by omega)
    have hsecond : UInt8.ofNat
        ((a.toNat % 4 * 16 + b.toNat / 16) % 16 * 16 + b.toNat % 16 * 4 / 4) = b :=
      ofNat_eq_of_toNat (by omega)
    rw [base64Decode]
    · simp only [hp, hq, hr, hpad, hfirst, hsecond, guard, Option.bind_eq_bind, Option.bind_some,
        if_true, Option.pure_def]
    · exact sextetChar_ne _ (by omega)
  | case4 a b c rest ih =>
    have ha := a.toNat_lt
    have hb := b.toNat_lt
    have hc := c.toNat_lt
    have hp := sextet_sextetChar (a.toNat / 4) (by omega)
    have hq := sextet_sextetChar (a.toNat % 4 * 16 + b.toNat / 16) (by omega)
    have hr := sextet_sextetChar (b.toNat % 16 * 4 + c.toNat / 64) (by omega)
    have hs := sextet_sextetChar (c.toNat % 64) (by omega)
    have hne := sextetChar_ne (c.toNat % 64) (by omega)
    have hfirst : UInt8.ofNat (a.toNat / 4 * 4 + (a.toNat % 4 * 16 + b.toNat / 16) / 16) = a :=
      ofNat_eq_of_toNat (by omega)
    have hsecond : UInt8.ofNat ((a.toNat % 4 * 16 + b.toNat / 16) % 16 * 16 +
        (b.toNat % 16 * 4 + c.toNat / 64) / 4) = b :=
      ofNat_eq_of_toNat (by omega)
    have hthird : UInt8.ofNat ((b.toNat % 16 * 4 + c.toNat / 64) % 4 * 64 + c.toNat % 64) = c :=
      ofNat_eq_of_toNat (by omega)
    -- no padding sign among the four, so the decoder takes them for a full group
    rw [base64Decode]
    · simp only [hp, hq, hr, hs, ih, hfirst, hsecond, hthird, Option.bind_eq_bind, Option.bind_some,
        Option.pure_def]
    · intro _ h
      exact absurd h hne
    · intro h
      exact absurd h hne

end Reference

@[reducible] def referenceCrates : Crates where
  uuidToString := Reference.uuidToString
  uuidParseStr := Reference.uuidParseStr
  uuidParseStr_toString := Reference.uuidParseStr_uuidToString
  base64Encode bytes := String.ofList (Reference.base64Encode bytes)
  base64Decode s :=
    match Reference.base64Decode s.toList with
    | some bytes => .ok bytes
    | none => .error "Invalid input"

end ServiceMesh
