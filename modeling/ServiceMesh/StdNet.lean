import Mathlib.Tactic

/-! Textual IP and socket addresses of the standard library: the address types,
their canonical text and the character parser that reads it back. -/

namespace StdNet

abbrev Reader (α : Type) := List Char → Option (α × List Char)

def toDigit (radix : Nat) (c : Char) : Option Nat :=
  let d :=
    if '0' ≤ c ∧ c ≤ '9' then c.toNat - 48
    else if 'a' ≤ c ∧ c ≤ 'z' then c.toNat - 87
    else if 'A' ≤ c ∧ c ≤ 'Z' then c.toNat - 55
    else radix
  if d < radix then some d else none

def isDigitOf (radix : Nat) (c : Char) : Bool := (toDigit radix c).isSome

def digitsValue (radix : Nat) (cs : List Char) : Nat :=
  cs.foldl (fun acc c => acc * radix + (toDigit radix c).getD 0) 0

def readGivenChar (c : Char) : Reader Unit
  | [] => none
  | d :: rest => if d = c then some ((), rest) else none

def readSeparator {α : Type} (sep : Char) (index : Nat) (inner : Reader α) : Reader α := fun cs =>
  if index = 0 then inner cs
  else (readGivenChar sep cs).bind fun r => inner r.2

def readNumber (radix : Nat) (maxDigits : Option Nat) (allowZeroPrefix : Bool) (size : Nat) :
    Reader Nat := fun cs =>
  let digits := cs.takeWhile (isDigitOf radix)
  let rest := cs.dropWhile (isDigitOf radix)
  if digits = [] then none
  else if maxDigits.any (fun m => m < digits.length) then none
  else if !allowZeroPrefix && digits.head? == some '0' && decide (1 < digits.length) then none
  else if digitsValue radix digits < size then some (digitsValue radix digits, rest)
  else none

theorem toDigit_digitChar {radix d : Nat} (hr : radix ≤ 16) (hd : d < radix) :
    toDigit radix d.digitChar = some d := by
  have h16 : d < 16 := by omega
  have hval : ∀ e < 16,
      (if '0' ≤ e.digitChar ∧ e.digitChar ≤ '9' then e.digitChar.toNat - 48
        else if 'a' ≤ e.digitChar ∧ e.digitChar ≤ 'z' then e.digitChar.toNat - 87
        else if 'A' ≤ e.digitChar ∧ e.digitChar ≤ 'Z' then e.digitChar.toNat - 55
        else radix) = e := by
    intro e he
    interval_cases e <;> rfl
  simp only [toDigit, hval d h16, hd, if_true]

theorem isDigitOf_of_mem_toDigits {radix n : Nat} (h1 : 1 < radix) (hr : radix ≤ 16) {c : Char}
    (hc : c ∈ Nat.toDigits radix n) : isDigitOf radix c = true := by
  induction n using Nat.strong_induction_on with
  | _ n ih =>
    rw [Nat.toDigits_eq_if h1] at hc
    split at hc
    · rename_i hn
      rw [List.mem_singleton.mp hc]
      simp [isDigitOf, toDigit_digitChar hr hn]
    · rename_i hn
      rcases List.mem_append.mp hc with hc | hc
      · exact ih (n / radix) (Nat.div_lt_self (by omega) h1) hc
      · rw [List.mem_singleton.mp hc]
        simp [isDigitOf, toDigit_digitChar hr (Nat.mod_lt n (by omega))]

theorem digitsValue_append (radix : Nat) (cs : List Char) (c : Char) :
    digitsValue radix (cs ++ [c]) = digitsValue radix cs * radix + (toDigit radix c).getD 0 := by
  simp [digitsValue]

theorem digitsValue_toDigits {radix : Nat} (h1 : 1 < radix) (hr : radix ≤ 16) (n : Nat) :
    digitsValue radix (Nat.toDigits radix n) = n := by
  induction n using Nat.strong_induction_on with
  | _ n ih =>
    rw [Nat.toDigits_eq_if h1]
    split
    · rename_i hn
      simp [digitsValue, toDigit_digitChar hr hn]
    · rename_i hn
      rw [digitsValue_append, ih (n / radix) (Nat.div_lt_self (by omega) h1),
        toDigit_digitChar hr (Nat.mod_lt n (by omega)), Option.getD_some, Nat.mul_comm]
      exact Nat.div_add_mod n radix

def Stops (radix : Nat) (rest : List Char) : Prop := ∀ c ∈ rest.head?, isDigitOf radix c = false

theorem head_toDigits_zero {radix n : Nat} (h1 : 1 < radix) (hr : radix ≤ 16)
    (h : (Nat.toDigits radix n).head? = some '0') : (Nat.toDigits radix n).length = 1 := by
  induction n using Nat.strong_induction_on with
  | _ n ih =>
    rw [Nat.toDigits_eq_if h1] at h ⊢
    split
    · rfl
    · rename_i hn
      rw [if_neg hn, List.head?_append_of_ne_nil _ Nat.toDigits_ne_nil] at h
      have hlt : n / radix < n := Nat.div_lt_self (by omega) h1
      have hlen := ih (n / radix) hlt h
      have hq : n / radix < radix := by
        by_contra hge
        have hl2 := (Nat.length_toDigits_le_iff (n := n / radix) h1 (k := 1) (by omega)).mp hlen.le
        rw [Nat.pow_one] at hl2
        omega
      rw [Nat.toDigits_of_lt_base hq] at h
      have hz : toDigit radix (n / radix).digitChar = some 0 := by
        rw [Option.some.inj h]
        simp [toDigit]
        omega
      rw [toDigit_digitChar hr hq] at hz
      have : n / radix ≠ 0 := by
        have := Nat.div_pos (show radix ≤ n by omega) (by omega)
        omega
      exact absurd (Option.some.inj hz) this

theorem readNumber_toDigits {radix size n : Nat} {maxDigits : Option Nat} {allowZeroPrefix : Bool}
    {rest : List Char} (h1 : 1 < radix) (hr : radix ≤ 16) (hn : n < size)
    (hm : ∀ m ∈ maxDigits, 0 < m ∧ n < radix ^ m) (hs : Stops radix rest) :
    readNumber radix maxDigits allowZeroPrefix size (Nat.toDigits radix n ++ rest) =
      some (n, rest) := by
  have hall : ∀ c ∈ Nat.toDigits radix n, isDigitOf radix c = true :=
    fun c hc => isDigitOf_of_mem_toDigits h1 hr hc
  have hrest : rest.takeWhile (isDigitOf radix) = [] ∧ rest.dropWhile (isDigitOf radix) = rest := by
    cases rest with
    | nil => simp
    | cons c cs =>
      have hc := hs c (by simp)
      simp [hc]
  have htake : (Nat.toDigits radix n ++ rest).takeWhile (isDigitOf radix) =
      Nat.toDigits radix n := by
    rw [List.takeWhile_append_of_pos hall, hrest.1, List.append_nil]
  have hdrop : (Nat.toDigits radix n ++ rest).dropWhile (isDigitOf radix) = rest := by
    rw [List.dropWhile_append_of_pos hall, hrest.2]
  have hmax : maxDigits.any (fun m => m < (Nat.toDigits radix n).length) = false := by
    cases maxDigits with
    | none => rfl
    | some m =>
      obtain ⟨hpos, hlt⟩ := hm m (by simp)
      have hle := (Nat.length_toDigits_le_iff h1 hpos).mpr hlt
      simpa using hle
  have hzero : (!allowZeroPrefix && (Nat.toDigits radix n).head? == some '0' &&
      decide (1 < (Nat.toDigits radix n).length)) = false := by
    by_cases hh : (Nat.toDigits radix n).head? = some '0'
    · simp [head_toDigits_zero h1 hr hh]
    · simp [hh]
  simp only [readNumber, htake, hdrop, Nat.toDigits_ne_nil, if_false, hmax, hzero,
    digitsValue_toDigits h1 hr, hn, if_true, Bool.false_eq_true]

structure Ipv4Addr where
  octet0 : UInt8
  octet1 : UInt8
  octet2 : UInt8
  octet3 : UInt8
deriving DecidableEq, Repr

structure Ipv6Addr where
  seg0 : UInt16
  seg1 : UInt16
  seg2 : UInt16
  seg3 : UInt16
  seg4 : UInt16
  seg5 : UInt16
  seg6 : UInt16
  seg7 : UInt16
deriving DecidableEq, Repr

def Ipv6Addr.segments (a : Ipv6Addr) : List UInt16 :=
  [a.seg0, a.seg1, a.seg2, a.seg3, a.seg4, a.seg5, a.seg6, a.seg7]

def Ipv6Addr.ofSegments (s : List UInt16) : Ipv6Addr :=
  ⟨s.getD 0 0, s.getD 1 0, s.getD 2 0, s.getD 3 0, s.getD 4 0, s.getD 5 0, s.getD 6 0, s.getD 7 0⟩

@[simp] theorem Ipv6Addr.ofSegments_segments (a : Ipv6Addr) : ofSegments a.segments = a := rfl

@[simp] theorem Ipv6Addr.length_segments (a : Ipv6Addr) : a.segments.length = 8 := rfl

def Ipv6Addr.toNat (a : Ipv6Addr) : Nat := a.segments.foldl (fun n s => n * 65536 + s.toNat) 0

def Ipv6Addr.octets (a : Ipv6Addr) : List UInt8 :=
  a.segments.flatMap (fun s => [.ofNat (s.toNat / 256), .ofNat (s.toNat % 256)])

def Ipv6Addr.ofOctets (o : List UInt8) : Ipv6Addr :=
  let segment (i : Nat) : UInt16 :=
    .ofNat ((o.getD (2 * i) 0).toNat * 256 + (o.getD (2 * i + 1) 0).toNat)
  ⟨segment 0, segment 1, segment 2, segment 3, segment 4, segment 5, segment 6, segment 7⟩

@[simp] theorem Ipv6Addr.length_octets (a : Ipv6Addr) : a.octets.length = 16 := rfl

theorem segment_of_octets (s : UInt16) :
    UInt16.ofNat ((UInt8.ofNat (s.toNat / 256)).toNat * 256 +
      (UInt8.ofNat (s.toNat % 256)).toNat) = s := by
  have hs := s.toNat_lt
  apply UInt16.toNat_inj.mp
  simp only [UInt16.toNat_ofNat', UInt8.toNat_ofNat']
  omega

@[simp] theorem Ipv6Addr.ofOctets_octets (a : Ipv6Addr) : ofOctets a.octets = a := by
  simp only [ofOctets, octets, segments, List.flatMap_cons, List.flatMap_nil, List.cons_append,
    List.nil_append, Nat.reduceMul, Nat.reduceAdd, List.getD_cons_zero, List.getD_cons_succ,
    segment_of_octets]

inductive IpAddr
  | v4 (ip : Ipv4Addr)
  | v6 (ip : Ipv6Addr)
deriving DecidableEq, Repr

inductive SocketAddr
  | v4 (ip : Ipv4Addr) (port : UInt16)
  | v6 (ip : Ipv6Addr) (port : UInt16) (flowinfo : UInt32) (scopeId : UInt32)
deriving DecidableEq, Repr

def SocketAddr.new : IpAddr → UInt16 → SocketAddr
  | .v4 ip, port => .v4 ip port
  | .v6 ip, port => .v6 ip port 0 0

def SocketAddr.ip : SocketAddr → IpAddr
  | .v4 ip _ => .v4 ip
  | .v6 ip _ _ _ => .v6 ip

def Ipv4Addr.text (a : Ipv4Addr) : List Char :=
  Nat.toDigits 10 a.octet0.toNat ++ '.' :: (Nat.toDigits 10 a.octet1.toNat ++
    '.' :: (Nat.toDigits 10 a.octet2.toNat ++ '.' :: Nat.toDigits 10 a.octet3.toNat))

structure Span where
  start : Nat
  len : Nat

def longestZeroes : List UInt16 → Nat → Span → Span → Span
  | [], _, _, longest => longest
  | s :: rest, i, current, longest =>
    if s = 0 then
      let current : Span := ⟨if current.len = 0 then i else current.start, current.len + 1⟩
      longestZeroes rest (i + 1) current (if longest.len < current.len then current else longest)
    else longestZeroes rest (i + 1) ⟨0, 0⟩ longest

def hexText (s : UInt16) : List Char := Nat.toDigits 16 s.toNat

def subsliceText : List UInt16 → List Char
  | [] => []
  | s :: rest => hexText s ++ rest.flatMap (fun t => ':' :: hexText t)

def Ipv6Addr.toIpv4Mapped (a : Ipv6Addr) : Option Ipv4Addr :=
  if a.seg0 = 0 ∧ a.seg1 = 0 ∧ a.seg2 = 0 ∧ a.seg3 = 0 ∧ a.seg4 = 0 ∧ a.seg5 = 0xffff then
    some ⟨.ofNat (a.seg6.toNat / 256), .ofNat (a.seg6.toNat % 256),
      .ofNat (a.seg7.toNat / 256), .ofNat (a.seg7.toNat % 256)⟩
  else none

def Ipv6Addr.text (a : Ipv6Addr) : List Char :=
  match a.toIpv4Mapped with
  | some ipv4 => "::ffff:".toList ++ ipv4.text
  | none =>
    let zeroes := longestZeroes a.segments 0 ⟨0, 0⟩ ⟨0, 0⟩
    if 1 < zeroes.len then
      subsliceText (a.segments.take zeroes.start) ++ ':' :: ':' ::
        subsliceText (a.segments.drop (zeroes.start + zeroes.len))
    else subsliceText a.segments

def Ipv4Addr.toString (a : Ipv4Addr) : String := String.ofList a.text

def Ipv6Addr.toString (a : Ipv6Addr) : String := String.ofList a.text

def IpAddr.toString : IpAddr → String
  | .v4 ip => ip.toString
  | .v6 ip => ip.toString

def SocketAddr.text : SocketAddr → List Char
  | .v4 ip port => ip.text ++ ':' :: Nat.toDigits 10 port.toNat
  | .v6 ip port _ scopeId =>
    '[' :: (ip.text ++ (if scopeId = 0 then [] else '%' :: Nat.toDigits 10 scopeId.toNat) ++
      ']' :: ':' :: Nat.toDigits 10 port.toNat)

def SocketAddr.toString (a : SocketAddr) : String := String.ofList a.text

def readOctet (index : Nat) : Reader Nat :=
  readSeparator '.' index (readNumber 10 (some 3) false 256)

def readIpv4Addr : Reader Ipv4Addr := fun cs => do
  let (a, cs) ← readOctet 0 cs
  let (b, cs) ← readOctet 1 cs
  let (c, cs) ← readOctet 2 cs
  let (d, cs) ← readOctet 3 cs
  some (⟨.ofNat a, .ofNat b, .ofNat c, .ofNat d⟩, cs)

def readGroup (index : Nat) : Reader Nat :=
  readSeparator ':' index (readNumber 16 (some 4) true 65536)

def ipv4Groups (a : Ipv4Addr) : List UInt16 :=
  [.ofNat (a.octet0.toNat * 256 + a.octet1.toNat), .ofNat (a.octet2.toNat * 256 + a.octet3.toNat)]

def readGroups : (left index : Nat) → List Char → (List UInt16 × Bool) × List Char
  | 0, _, cs => (([], false), cs)
  | left + 1, index, cs =>
    match if left = 0 then none else readSeparator ':' index readIpv4Addr cs with
    | some (v4, cs) => ((ipv4Groups v4, true), cs)
    | none =>
      match readGroup index cs with
      | none => (([], false), cs)
      | some (g, cs) =>
        let r := readGroups left (index + 1) cs
        ((.ofNat g :: r.1.1, r.1.2), r.2)

def readIpv6Addr : Reader Ipv6Addr := fun cs =>
  let ((head, headIpv4), cs) := readGroups 8 0 cs
  if head.length = 8 then some (.ofSegments head, cs)
  else if headIpv4 then none
  else do
    let (_, cs) ← readGivenChar ':' cs
    let (_, cs) ← readGivenChar ':' cs
    let ((tail, _), cs) := readGroups (8 - (head.length + 1)) 0 cs
    some (.ofSegments (head ++ List.replicate (8 - head.length - tail.length) 0 ++ tail), cs)

def readPort : Reader Nat := fun cs => do
  let (_, cs) ← readGivenChar ':' cs
  readNumber 10 none true 65536 cs

def readScopeId : Reader Nat := fun cs => do
  let (_, cs) ← readGivenChar '%' cs
  readNumber 10 none true 4294967296 cs

def readSocketAddrV4 : Reader SocketAddr := fun cs => do
  let (ip, cs) ← readIpv4Addr cs
  let (port, cs) ← readPort cs
  some (.v4 ip (.ofNat port), cs)

def readSocketAddrV6 : Reader SocketAddr := fun cs => do
  let (_, cs) ← readGivenChar '[' cs
  let (ip, cs) ← readIpv6Addr cs
  let (scopeId, cs) := (readScopeId cs).getD (0, cs)
  let (_, cs) ← readGivenChar ']' cs
  let (port, cs) ← readPort cs
  some (.v6 ip (.ofNat port) 0 (.ofNat scopeId), cs)

def readSocketAddr : Reader SocketAddr := fun cs => (readSocketAddrV4 cs).or (readSocketAddrV6 cs)

def parseWith {α : Type} (reader : Reader α) (s : String) : Option α :=
  match reader s.toList with
  | some (a, []) => some a
  | _ => none

def Ipv6Addr.parse : String → Option Ipv6Addr := parseWith readIpv6Addr

def SocketAddr.parse : String → Option SocketAddr := parseWith readSocketAddr

def addrParseErrorText : String := "invalid IPv6 address syntax"

end StdNet
