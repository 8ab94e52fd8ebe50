import Mathlib.Tactic

/-! The JSON texts of RFC 8259. A number is kept as it is written, and an object has its members in
their order, those with equal names included. -/

namespace Json

inductive Value
  | null
  | bool (b : Bool)
  | number (text : List Char)
  | str (s : List Char)
  | array (items : List Value)
  | object (members : List (List Char × Value))

def isSpace (c : Char) : Bool := c = ' ' || c = '\t' || c = '\n' || c = '\r'

def lead (cs : List Char) : Option (Char × List Char) :=
  match cs.dropWhile isSpace with
  | [] => none
  | c :: rest => some (c, rest)

theorem lead_cons {c : Char} (h : isSpace c = false) (cs : List Char) :
    lead (c :: cs) = some (c, cs) := by
  simp [lead, h]

def hexDigit (c : Char) : Option Nat :=
  if '0' ≤ c ∧ c ≤ '9' then some (c.toNat - '0'.toNat)
  else if 'a' ≤ c ∧ c ≤ 'f' then some (c.toNat - 'a'.toNat + 10)
  else if 'A' ≤ c ∧ c ≤ 'F' then some (c.toNat - 'A'.toNat + 10)
  else none

def unescaped (c : Char) : Option Char :=
  if c = '"' ∨ c = '\\' ∨ c = '/' then some c
  else if c = 'b' then some '\x08'
  else if c = 'f' then some '\x0c'
  else if c = 'n' then some '\n'
  else if c = 'r' then some '\r'
  else if c = 't' then some '\t'
  else none

/-- Where the reader of a string is: `unit` has read `digits` digits of a code unit, after the
first half of a surrogate pair if there is a `high`. -/
inductive Place
  | plain
  | escape
  | unit (high : Option Nat) (digits value : Nat)
  | lowEscape (high : Nat)
  | lowUnit (high : Nat)

def completed (high : Option Nat) (value : Nat) : Option (Char ⊕ Nat) :=
  let isHigh := 0xd800 ≤ value ∧ value < 0xdc00
  let isLow := 0xdc00 ≤ value ∧ value < 0xe000
  match high with
  | none => if isHigh then some (.inr value) else if isLow then none else some (.inl (.ofNat value))
  | some high =>
    if isLow then some (.inl (.ofNat (0x10000 + (high - 0xd800) * 0x400 + (value - 0xdc00))))
    else none

def push (c : Char) (read : Option (List Char × List Char)) : Option (List Char × List Char) :=
  read.map (fun (s, rest) => (c :: s, rest))

def readString : Place → List Char → Option (List Char × List Char)
  | _, [] => none
  | .plain, c :: cs =>
    if c = '"' then some ([], cs)
    else if c = '\\' then readString .escape cs
    else if c.toNat < 0x20 then none
    else push c (readString .plain cs)
  | .escape, c :: cs =>
    if c = 'u' then readString (.unit none 0 0) cs
    else match unescaped c with
      | none => none
      | some c => push c (readString .plain cs)
  | .unit high digits value, c :: cs =>
    match hexDigit c with
    | none => none
    | some d =>
      if digits < 3 then readString (.unit high (digits + 1) (16 * value + d)) cs
      else match completed high (16 * value + d) with
        | none => none
        | some (.inl c) => push c (readString .plain cs)
        | some (.inr high) => readString (.lowEscape high) cs
  | .lowEscape high, c :: cs => if c = '\\' then readString (.lowUnit high) cs else none
  | .lowUnit high, c :: cs => if c = 'u' then readString (.unit (some high) 0 0) cs else none

def readDigits (cs : List Char) : Option (List Char × List Char) :=
  match cs.span Char.isDigit with
  | ([], _) => none
  | (digits, rest) => some (digits, rest)

def readSign (signs : List Char) : List Char → List Char × List Char
  | c :: cs => if c ∈ signs then ([c], cs) else ([], c :: cs)
  | [] => ([], [])

def readInteger : List Char → Option (List Char × List Char)
  | '0' :: cs => some (['0'], cs)
  | cs => readDigits cs

def readFraction : List Char → Option (List Char × List Char)
  | '.' :: cs => push '.' (readDigits cs)
  | cs => some ([], cs)

def readExponent : List Char → Option (List Char × List Char)
  | [] => some ([], [])
  | c :: cs =>
    if c = 'e' ∨ c = 'E' then
      let (sign, cs) := readSign ['+', '-'] cs
      (readDigits cs).map (fun (digits, rest) => (c :: sign ++ digits, rest))
    else some ([], c :: cs)

def readNumber (cs : List Char) : Option (List Char × List Char) := do
  let (sign, cs) := readSign ['-'] cs
  let (integer, cs) ← readInteger cs
  let (fraction, cs) ← readFraction cs
  let (exponent, cs) ← readExponent cs
  return (sign ++ integer ++ fraction ++ exponent, cs)

section

variable {α : Type}

def readList (item : List Char → Option (α × List Char)) (close : Char) :
    Nat → List Char → Option (List α × List Char)
  | 0, _ => none
  | n + 1, cs =>
    (item cs).bind fun (x, cs) => (lead cs).bind fun (c, cs) =>
      if c = close then some ([x], cs)
      else if c = ',' then (readList item close n cs).map (fun (xs, cs) => (x :: xs, cs))
      else none

def readItems (item : List Char → Option (α × List Char)) (close : Char) (n : Nat)
    (cs : List Char) : Option (List α × List Char) :=
  (lead cs).bind fun (c, rest) => if c = close then some ([], rest) else readList item close n cs

variable {item : List Char → Option (α × List Char)} {close c : Char} {n : Nat}
  {cs cs' rest : List Char} {x : α}

theorem readList_of_item_none (h : item cs = none) : readList item close n cs = none := by
  cases n with
  | zero => rfl
  | succ n => rw [readList, h, Option.bind_none]

theorem readList_of_item (h : item cs = some (x, cs')) (hlead : lead cs' = some (c, rest)) :
    readList item close (n + 1) cs =
      if c = close then some ([x], rest)
      else if c = ',' then (readList item close n rest).map (fun (xs, cs) => (x :: xs, cs))
      else none := by
  simp only [readList, h, Option.bind_some, hlead]

theorem readList_ne_nil {xs : List α} (h : readList item close n cs = some (xs, rest)) :
    xs ≠ [] := by
  rintro rfl
  cases n with
  | zero => cases h
  | succ n =>
    obtain ⟨⟨x, cs'⟩, hx, h'⟩ := Option.bind_eq_some_iff.mp h
    obtain ⟨⟨c, rest'⟩, hc, -⟩ := Option.bind_eq_some_iff.mp h'
    rw [readList_of_item hx hc] at h
    split_ifs at h
    · simp at h
    · simp at h

theorem readItems_of_lead (h : lead cs = some (c, rest)) :
    readItems item close n cs = if c = close then some ([], rest) else readList item close n cs := by
  simp only [readItems, h, Option.bind_some]

end

def expect (c : Char) (cs : List Char) : Option (List Char) :=
  (lead cs).bind fun (d, cs) => if d = c then some cs else none

theorem expect_cons {c : Char} (h : isSpace c = false) (cs : List Char) :
    expect c (c :: cs) = some cs := by
  simp only [expect, lead_cons h, Option.bind_some, if_true]

def readMember (value : List Char → Option (Value × List Char)) (cs : List Char) :
    Option ((List Char × Value) × List Char) := do
  let cs ← expect '"' cs
  let (name, cs) ← readString .plain cs
  let cs ← expect ':' cs
  let (v, cs) ← value cs
  return ((name, v), cs)

theorem readMember_eq_none {value : List Char → Option (Value × List Char)} {c : Char}
    {cs rest : List Char} (h : lead cs = some (c, rest)) (hc : c ≠ '"') :
    readMember value cs = none := by
  simp [readMember, expect, h, hc]

def readLiteral (literal : String) (v : Value) (cs : List Char) : Option (Value × List Char) :=
  if literal.toList <+: cs then some (v, cs.drop literal.length) else none

def readValue : Nat → List Char → Option (Value × List Char)
  | 0, _ => none
  | n + 1, cs =>
    (lead cs).bind fun (c, rest) =>
      if c = '{' then
        (readItems (readMember (readValue n)) '}' n rest).map (fun (ms, cs) => (.object ms, cs))
      else if c = '[' then
        (readItems (readValue n) ']' n rest).map (fun (vs, cs) => (.array vs, cs))
      else if c = '"' then (readString .plain rest).map (fun (s, cs) => (.str s, cs))
      else if c = 't' then readLiteral "rue" (.bool true) rest
      else if c = 'f' then readLiteral "alse" (.bool false) rest
      else if c = 'n' then readLiteral "ull" .null rest
      else (readNumber (c :: rest)).map (fun (text, cs) => (.number text, cs))

theorem readValue_object (n : Nat) (rest : List Char) :
    readValue (n + 1) ('{' :: rest) =
      (readItems (readMember (readValue n)) '}' n rest).map (fun (ms, cs) => (.object ms, cs)) := by
  rw [readValue, lead_cons (by decide)]
  rfl

theorem readValue_string (n : Nat) (rest : List Char) :
    readValue (n + 1) ('"' :: rest) =
      (readString .plain rest).map (fun (s, cs) => (.str s, cs)) := by
  rw [readValue, lead_cons (by decide)]
  rfl

def Decodes (text : List Char) (v : Value) : Prop :=
  ∃ n rest, readValue n text = some (v, rest) ∧ rest.dropWhile isSpace = []

def Extends {α : Type} (read read' : List Char → Option (α × List Char)) : Prop :=
  ∀ cs r, read cs = some r → read' cs = some r

theorem readList_mono {α : Type} {item item' : List Char → Option (α × List Char)} {close : Char}
    (hitem : Extends item item') {n m : Nat} (hle : n ≤ m) :
    Extends (readList item close n) (readList item' close m) := by
  induction n generalizing m with
  | zero =>
    intro cs r h
    cases h
  | succ n ih =>
    intro cs r h
    obtain ⟨m, rfl⟩ : ∃ k, m = k + 1 := ⟨m - 1, by omega⟩
    simp only [readList, Option.bind_eq_some_iff] at h ⊢
    obtain ⟨x, hx, c, hc, h⟩ := h
    refine ⟨x, hitem _ _ hx, c, hc, ?_⟩
    by_cases hclose : c.1 = close
    · rw [if_pos hclose] at h ⊢
      exact h
    · rw [if_neg hclose] at h ⊢
      by_cases hcomma : c.1 = ','
      · rw [if_pos hcomma] at h ⊢
        obtain ⟨xs, hxs, rfl⟩ := Option.map_eq_some_iff.mp h
        rw [ih (by omega) _ _ hxs]
        rfl
      · rw [if_neg hcomma] at h
        cases h

theorem readItems_mono {α : Type} {item item' : List Char → Option (α × List Char)} {close : Char}
    (hitem : Extends item item') {n m : Nat} (hle : n ≤ m) :
    Extends (readItems item close n) (readItems item' close m) := by
  intro cs r h
  simp only [readItems, Option.bind_eq_some_iff] at h ⊢
  obtain ⟨c, hc, h⟩ := h
  refine ⟨c, hc, ?_⟩
  by_cases hclose : c.1 = close
  · rw [if_pos hclose] at h ⊢
    exact h
  · rw [if_neg hclose] at h ⊢
    exact readList_mono hitem hle _ _ h

theorem readMember_mono {value value' : List Char → Option (Value × List Char)}
    (hvalue : Extends value value') : Extends (readMember value) (readMember value') := by
  intro cs r h
  simp only [readMember, Option.bind_eq_bind, Option.bind_eq_some_iff] at h ⊢
  obtain ⟨cs₁, hquote, name, hname, cs₂, hcolon, v, hv, hr⟩ := h
  exact ⟨cs₁, hquote, name, hname, cs₂, hcolon, v, hvalue _ _ hv, hr⟩

theorem readValue_mono {n m : Nat} (hle : n ≤ m) : Extends (readValue n) (readValue m) := by
  induction n generalizing m with
  | zero =>
    intro cs r h
    cases h
  | succ n ih =>
    intro cs r h
    obtain ⟨m, rfl⟩ : ∃ k, m = k + 1 := ⟨m - 1, by omega⟩
    have hvalue : Extends (readValue n) (readValue m) := ih (by omega)
    simp only [readValue, Option.bind_eq_some_iff] at h ⊢
    obtain ⟨c, hc, h⟩ := h
    refine ⟨c, hc, ?_⟩
    by_cases hbrace : c.1 = '{'
    · rw [if_pos hbrace] at h ⊢
      obtain ⟨ms, hms, rfl⟩ := Option.map_eq_some_iff.mp h
      rw [readItems_mono (readMember_mono hvalue) (by omega) _ _ hms]
      rfl
    · rw [if_neg hbrace] at h ⊢
      by_cases hbracket : c.1 = '['
      · rw [if_pos hbracket] at h ⊢
        obtain ⟨vs, hvs, rfl⟩ := Option.map_eq_some_iff.mp h
        rw [readItems_mono hvalue (by omega) _ _ hvs]
        rfl
      · rw [if_neg hbracket] at h ⊢
        exact h

theorem Decodes.read_add_two {text : List Char} {v : Value} (h : Decodes text v) :
    ∃ n rest, readValue (n + 2) text = some (v, rest) := by
  obtain ⟨n, rest, hread, -⟩ := h
  exact ⟨n, rest, readValue_mono (Nat.le_add_right n 2) _ _ hread⟩

theorem Decodes.unique {text : List Char} {v v' : Value} (h : Decodes text v)
    (h' : Decodes text v') : v = v' := by
  obtain ⟨n, rest, hread, -⟩ := h
  obtain ⟨m, rest', hread', -⟩ := h'
  have hn := readValue_mono (Nat.le_max_left n m) _ _ hread
  have hm := readValue_mono (Nat.le_max_right n m) _ _ hread'
  rw [hn] at hm
  exact (Prod.mk.inj (Option.some.inj hm)).1

end Json
