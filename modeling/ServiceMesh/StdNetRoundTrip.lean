import ServiceMesh.StdNet

/-! Reading back the canonical text of an address. Colon-separated groups are read
one by one; the attempt to read an embedded IPv4 address first fails on text without a dot. -/

namespace StdNet

variable {radix : Nat} {cs rest : List Char}

theorem readNumber_none {size : Nat} {maxDigits : Option Nat} {allowZeroPrefix : Bool}
    (hs : Stops radix cs) : readNumber radix maxDigits allowZeroPrefix size cs = none := by
  have : cs.takeWhile (isDigitOf radix) = [] := by
    cases cs with
    | nil => rfl
    | cons c cs => simp [hs c (by simp)]
  simp [readNumber, this]

theorem readNumber_rest {size v : Nat} {maxDigits : Option Nat} {allowZeroPrefix : Bool}
    (h : readNumber radix maxDigits allowZeroPrefix size cs = some (v, rest)) :
    rest.Sublist cs := by
  have hr : rest = cs.dropWhile (isDigitOf radix) := by
    simp only [readNumber] at h
    repeat' split at h
    all_goals simp_all
  rw [hr]
  exact (List.dropWhile_suffix _).sublist

theorem readOctet_dot {i v : Nat} (h : readOctet (i + 1) cs = some (v, rest)) : '.' ∈ cs := by
  cases cs with
  | nil => simp [readOctet, readSeparator, readGivenChar] at h
  | cons c cs =>
    by_cases hc : c = '.'
    · simp [hc]
    · simp [readOctet, readSeparator, readGivenChar, hc] at h

theorem readIpv4Addr_none_of_dotless (h : '.' ∉ cs) : readIpv4Addr cs = none := by
  cases ha : readOctet 0 cs with
  | none => simp [readIpv4Addr, ha]
  | some r =>
    obtain ⟨a, rest⟩ := r
    have hsub : rest.Sublist cs := readNumber_rest (by simpa [readOctet, readSeparator] using ha)
    have hb : readOctet 1 rest = none := by
      apply Option.eq_none_iff_forall_not_mem.mpr
      intro r hr
      exact h (hsub.subset (readOctet_dot hr))
    simp [readIpv4Addr, ha, hb]

theorem readIpv4Addr_none_of_stops (h : Stops 10 cs) : readIpv4Addr cs = none := by
  have h0 : readOctet 0 cs = none := readNumber_none h
  simp [readIpv4Addr, h0]

theorem toDigit_dot : toDigit radix '.' = none := by
  simp [toDigit]

theorem toDigit_colon : toDigit radix ':' = none := by
  simp [toDigit]

theorem stops_of_toDigit {c : Char} (h : toDigit radix c = none) : Stops radix (c :: cs) := by
  intro d hd
  simp only [List.head?_cons, Option.mem_def, Option.some.injEq] at hd
  simp [isDigitOf, ← hd, h]

theorem stops_nil (radix : Nat) : Stops radix [] := by
  intro c hc
  simp at hc

theorem stops_colon (radix : Nat) (cs : List Char) : Stops radix (':' :: cs) :=
  stops_of_toDigit toDigit_colon

theorem dot_not_mem_toDigits {n : Nat} (h1 : 1 < radix) (hr : radix ≤ 16) :
    '.' ∉ Nat.toDigits radix n := by
  intro h
  have := isDigitOf_of_mem_toDigits h1 hr h
  simp [isDigitOf, toDigit_dot] at this

def groupsText (index : Nat) (segs : List UInt16) : List Char :=
  if index = 0 then subsliceText segs else segs.flatMap (fun t => ':' :: hexText t)

theorem groupsText_cons (index : Nat) (s : UInt16) (segs : List UInt16) :
    groupsText index (s :: segs) =
      (if index = 0 then hexText s else ':' :: hexText s) ++ groupsText (index + 1) segs := by
  by_cases h : index = 0 <;> simp [groupsText, h, subsliceText]

theorem dot_not_mem_groupsText (index : Nat) (segs : List UInt16) : '.' ∉ groupsText index segs := by
  have hx : ∀ t : UInt16, '.' ∉ hexText t := fun t => dot_not_mem_toDigits (by omega) (by omega)
  induction segs generalizing index with
  | nil => by_cases h : index = 0 <;> simp [groupsText, h, subsliceText]
  | cons s segs ih =>
    rw [groupsText_cons]
    have := ih (index + 1)
    have := hx s
    split <;> simp_all

theorem stops_groupsText_succ (index : Nat) (segs : List UInt16) (h : Stops 16 rest) :
    Stops 16 (groupsText (index + 1) segs ++ rest) := by
  cases segs with
  | nil => simpa [groupsText] using h
  | cons s segs => rw [groupsText_cons]; simpa using stops_colon 16 _

theorem readGroup_text (index : Nat) (s : UInt16) (h : Stops 16 rest) :
    readGroup index ((if index = 0 then hexText s else ':' :: hexText s) ++ rest) =
      some (s.toNat, rest) := by
  have hn : readNumber 16 (some 4) true 65536 (hexText s ++ rest) = some (s.toNat, rest) := by
    refine readNumber_toDigits (by omega) (by omega) s.toNat_lt ?_ h
    intro m hm
    rw [← Option.some.inj hm]
    exact ⟨by omega, s.toNat_lt⟩
  by_cases hi : index = 0
  · simpa [readGroup, readSeparator, hi] using hn
  · simpa [readGroup, readSeparator, hi, readGivenChar] using hn

theorem readSeparator_ipv4_none {index : Nat} (h : '.' ∉ cs) :
    readSeparator ':' index readIpv4Addr cs = none := by
  by_cases hi : index = 0
  · simpa [readSeparator, hi] using readIpv4Addr_none_of_dotless h
  · cases cs with
    | nil => simp [readSeparator, hi, readGivenChar]
    | cons c cs =>
      have hcs : '.' ∉ cs := fun hm => h (List.mem_cons_of_mem _ hm)
      by_cases hc : c = ':' <;>
        simp [readSeparator, hi, readGivenChar, hc, readIpv4Addr_none_of_dotless hcs]

theorem readGroups_stop {left index : Nat} (h4 : readSeparator ':' index readIpv4Addr cs = none)
    (hg : readGroup index cs = none) : readGroups left index cs = (([], false), cs) := by
  cases left <;> simp [readGroups, h4, hg]

theorem readGroups_group {left index g : Nat} (h4 : readSeparator ':' index readIpv4Addr cs = none)
    (hg : readGroup index cs = some (g, rest)) :
    readGroups (left + 1) index cs =
      ((.ofNat g :: (readGroups left (index + 1) rest).1.1, (readGroups left (index + 1) rest).1.2),
        (readGroups left (index + 1) rest).2) := by
  simp [readGroups, h4, hg]

theorem readGroups_ipv4 {left index : Nat} {v4 : Ipv4Addr}
    (h4 : readSeparator ':' index readIpv4Addr cs = some (v4, rest)) :
    readGroups (left + 2) index cs = ((ipv4Groups v4, true), rest) := by
  rw [readGroups, if_neg (Nat.succ_ne_zero left), h4]

theorem readGroups_text (segs : List UInt16) (left index : Nat) (hlen : segs.length ≤ left)
    (hdot : '.' ∉ rest) (hstop : Stops 16 rest) (hend : ∀ i, readGroup i rest = none) :
    readGroups left index (groupsText index segs ++ rest) = ((segs, false), rest) := by
  induction segs generalizing left index with
  | nil =>
    have ht : groupsText index [] = [] := by by_cases h : index = 0 <;> simp [groupsText, h, subsliceText]
    simpa [ht] using readGroups_stop (readSeparator_ipv4_none hdot) (hend index)
  | cons s segs ih =>
    obtain ⟨left, rfl⟩ : ∃ k, left = k + 1 := ⟨left - 1, by simp at hlen; omega⟩
    have hd : '.' ∉ groupsText index (s :: segs) ++ rest := by
      simp [dot_not_mem_groupsText, hdot]
    have hg := readGroup_text index s (stops_groupsText_succ index segs hstop)
    rw [← List.append_assoc, ← groupsText_cons] at hg
    have hr := ih left (index + 1) (by simpa using hlen)
    rw [readGroups_group (readSeparator_ipv4_none hd) hg, hr, UInt16.ofNat_toNat]

theorem readGroup_nil (i : Nat) : readGroup i [] = none := by
  by_cases hi : i = 0
  · simpa [readGroup, readSeparator, hi] using readNumber_none (stops_nil 16)
  · simp [readGroup, readSeparator, hi, readGivenChar]

theorem readGroup_colons (i : Nat) (cs : List Char) : readGroup i (':' :: ':' :: cs) = none := by
  by_cases hi : i = 0
  · simpa [readGroup, readSeparator, hi] using readNumber_none (stops_colon 16 _)
  · simpa [readGroup, readSeparator, hi, readGivenChar] using readNumber_none (stops_colon 16 _)

def ZeroRun (pre : List UInt16) (s : Span) : Prop :=
  ∃ p q, pre = p ++ List.replicate s.len 0 ++ q ∧ p.length = s.start

theorem longestZeroes_zeroRun (rest pre : List UInt16) (current longest : Span)
    (hc : ∃ p, pre = p ++ List.replicate current.len 0 ∧ (current.len ≠ 0 → p.length = current.start))
    (hl : ZeroRun pre longest) :
    ZeroRun (pre ++ rest) (longestZeroes rest pre.length current longest) := by
  induction rest generalizing pre current longest with
  | nil => simpa [longestZeroes] using hl
  | cons s rest ih =>
    have hl' : ZeroRun (pre ++ [s]) longest := by
      obtain ⟨p, q, hp, hs⟩ := hl
      exact ⟨p, q ++ [s], by simp [hp], hs⟩
    obtain ⟨p, hp, hst⟩ := hc
    have happ : pre ++ s :: rest = (pre ++ [s]) ++ rest := by simp
    have hlen : pre.length + 1 = (pre ++ [s]).length := by simp
    rw [longestZeroes, happ, hlen]
    split
    · rename_i hz
      have hrun : pre ++ [s] = p ++ List.replicate (current.len + 1) 0 := by
        rw [hp, hz, List.replicate_succ', List.append_assoc]
      have hstart : p.length = if current.len = 0 then pre.length else current.start := by
        split
        · rename_i h0
          simp [hp, h0]
        · rename_i h0
          exact hst h0
      refine ih (pre ++ [s]) _ _ ⟨p, hrun, fun _ => hstart⟩ ?_
      by_cases hlt : longest.len < current.len + 1
      · rw [if_pos hlt]
        exact ⟨p, [], by simp [hrun], hstart⟩
      · rw [if_neg hlt]
        exact hl'
    · exact ih (pre ++ [s]) ⟨0, 0⟩ longest ⟨pre ++ [s], by simp, by simp⟩ hl'

theorem ZeroRun.split {l : List UInt16} {z : Span} (h : ZeroRun l z) :
    z.start + z.len ≤ l.length ∧
      l.take z.start ++ List.replicate z.len 0 ++ l.drop (z.start + z.len) = l := by
  obtain ⟨p, q, rfl, hs⟩ := h
  refine ⟨by simp [hs], ?_⟩
  rw [← hs]
  simp [List.drop_append]

theorem segments_zeroRun (a : Ipv6Addr) :
    ZeroRun a.segments (longestZeroes a.segments 0 ⟨0, 0⟩ ⟨0, 0⟩) := by
  simpa using longestZeroes_zeroRun a.segments [] ⟨0, 0⟩ ⟨0, 0⟩ ⟨[], by simp, by simp⟩
    ⟨[], [], by simp, rfl⟩

theorem readOctet_text (index : Nat) (o : UInt8) (h : Stops 10 rest) :
    readOctet index ((if index = 0 then [] else ['.']) ++ Nat.toDigits 10 o.toNat ++ rest) =
      some (o.toNat, rest) := by
  have hn : readNumber 10 (some 3) false 256 (Nat.toDigits 10 o.toNat ++ rest) =
      some (o.toNat, rest) := by
    refine readNumber_toDigits (by omega) (by omega) o.toNat_lt ?_ h
    intro m hm
    rw [← Option.some.inj hm]
    have := o.toNat_lt
    exact ⟨by omega, by omega⟩
  by_cases hi : index = 0
  · simpa [readOctet, readSeparator, hi] using hn
  · simpa [readOctet, readSeparator, hi, readGivenChar] using hn

theorem readIpv4Addr_text (a : Ipv4Addr) (h : Stops 10 rest) :
    readIpv4Addr (a.text ++ rest) = some (a, rest) := by
  have hdot (cs : List Char) : Stops 10 ('.' :: cs) := stops_of_toDigit toDigit_dot
  have h0 := fun cs => readOctet_text 0 a.octet0 (hdot cs)
  have h1 := fun cs => readOctet_text 1 a.octet1 (hdot cs)
  have h2 := fun cs => readOctet_text 2 a.octet2 (hdot cs)
  have h3 := readOctet_text 3 a.octet3 h
  simp only [Nat.one_ne_zero, if_true, if_false, List.nil_append, List.cons_append,
    OfNat.ofNat_ne_zero] at h0 h1 h2 h3
  simp [readIpv4Addr, Ipv4Addr.text, h0, h1, h2, h3]

theorem Ipv6Addr.mapped_groups {a : Ipv6Addr} {ipv4 : Ipv4Addr} (h : a.toIpv4Mapped = some ipv4) :
    ofSegments ([0, 0, 0, 0, 0, 0xffff] ++ ipv4Groups ipv4) = a := by
  simp only [toIpv4Mapped] at h
  split at h
  · rename_i hz
    obtain ⟨h0, h1, h2, h3, h4, h5⟩ := hz
    have hword (w : UInt16) : UInt16.ofNat ((UInt8.ofNat (w.toNat / 256)).toNat * 256 +
        (UInt8.ofNat (w.toNat % 256)).toNat) = w := by
      have hw := w.toNat_lt
      apply UInt16.toNat_inj.mp
      simp only [UInt16.toNat_ofNat', UInt8.toNat_ofNat']
      omega
    rw [← Option.some.inj h]
    simp only [ofSegments, ipv4Groups, hword, List.cons_append, List.nil_append]
    cases a
    simp_all
  · simp at h

theorem readIpv6Addr_mapped {a : Ipv6Addr} {ipv4 : Ipv4Addr} (h : a.toIpv4Mapped = some ipv4)
    (hstop : Stops 10 rest) :
    readIpv6Addr ("::ffff:".toList ++ ipv4.text ++ rest) = some (a, rest) := by
  have hhead : readGroups 8 0 ("::ffff:".toList ++ ipv4.text ++ rest) =
      (([], false), "::ffff:".toList ++ ipv4.text ++ rest) := by
    exact readGroups_stop (readIpv4Addr_none_of_stops (stops_colon 10 _)) (readGroup_colons 0 _)
  have htail : readGroups 7 0 ("ffff:".toList ++ (ipv4.text ++ rest)) =
      ((0xffff :: ipv4Groups ipv4, true), rest) := by
    have hf : Stops 10 ("ffff:".toList ++ (ipv4.text ++ rest)) := stops_of_toDigit (by decide)
    have h4 : readSeparator ':' 0 readIpv4Addr ("ffff:".toList ++ (ipv4.text ++ rest)) = none :=
      readIpv4Addr_none_of_stops hf
    have hg : readGroup 0 ("ffff:".toList ++ (ipv4.text ++ rest)) =
        some (0xffff, ':' :: (ipv4.text ++ rest)) :=
      readGroup_text 0 0xffff (stops_colon 16 _)
    have h6 : readSeparator ':' 1 readIpv4Addr (':' :: (ipv4.text ++ rest)) = some (ipv4, rest) := by
      simpa [readSeparator, readGivenChar] using readIpv4Addr_text ipv4 hstop
    rw [readGroups_group h4 hg, readGroups_ipv4 h6]
    rfl
  have hm := a.mapped_groups h
  have happ : "::ffff:".toList ++ ipv4.text ++ rest =
      ':' :: ':' :: ("ffff:".toList ++ (ipv4.text ++ rest)) := by
    rw [List.append_assoc]
    rfl
  rw [happ] at hhead ⊢
  simp only [readIpv6Addr, hhead, List.length_nil, readGivenChar, if_true, htail,
    Option.bind_eq_bind, Option.bind_some, Bool.false_eq_true, if_false]
  rw [if_neg (by omega)]
  exact congrArg (fun x => some (x, rest)) hm

structure EndsGroups (rest : List Char) : Prop where
  dotless : '.' ∉ rest
  stops : Stops 16 rest
  group : ∀ i, readGroup i rest = none

theorem endsGroups_nil : EndsGroups [] where
  dotless := by simp
  stops := stops_nil 16
  group := readGroup_nil

theorem toDigit_ten_none {c : Char} (h : toDigit 16 c = none) : toDigit 10 c = none := by
  simp only [toDigit, ite_eq_right_iff, reduceCtorEq, imp_false] at h ⊢
  split at h
  · rename_i hc
    rw [if_pos hc]
    omega
  · rename_i hc
    rw [if_neg hc]
    split at h
    · rename_i hc
      rw [if_pos hc]
      omega
    · rename_i hc
      rw [if_neg hc]
      split at h
      · rename_i hc
        rw [if_pos hc]
        omega
      · rename_i hc
        rw [if_neg hc]
        omega

theorem Stops.ten (h : Stops 16 rest) : Stops 10 rest := by
  intro c hc
  have hnone : toDigit 16 c = none := Option.isNone_iff_eq_none.mp (by simpa [isDigitOf] using h c hc)
  simp [isDigitOf, toDigit_ten_none hnone]

theorem endsGroups_cons {c : Char} (hc : toDigit 16 c = none) (hcolon : c ≠ ':')
    (hdot : '.' ∉ c :: rest) : EndsGroups (c :: rest) where
  dotless := hdot
  stops := stops_of_toDigit hc
  group := by
    intro i
    by_cases hi : i = 0
    · simpa [readGroup, readSeparator, hi] using readNumber_none (stops_of_toDigit hc)
    · simp [readGroup, readSeparator, hi, readGivenChar, hcolon]

theorem readIpv6Addr_text (a : Ipv6Addr) (h : EndsGroups rest) :
    readIpv6Addr (a.text ++ rest) = some (a, rest) := by
  cases hm : a.toIpv4Mapped with
  | some ipv4 => simpa [Ipv6Addr.text, hm] using readIpv6Addr_mapped hm h.stops.ten
  | none =>
    obtain ⟨hle, hsplit⟩ := (segments_zeroRun a).split
    generalize hz : longestZeroes a.segments 0 ⟨0, 0⟩ ⟨0, 0⟩ = z at hle hsplit
    rw [a.length_segments] at hle
    have hlast (segs : List UInt16) (left : Nat) (hl : segs.length ≤ left) :
        readGroups left 0 (subsliceText segs ++ rest) = ((segs, false), rest) := by
      simpa [groupsText] using readGroups_text segs left 0 hl h.dotless h.stops h.group
    by_cases hlong : 1 < z.len
    · have htext : a.text ++ rest = subsliceText (a.segments.take z.start) ++ ':' :: ':' ::
          (subsliceText (a.segments.drop (z.start + z.len)) ++ rest) := by
        simp [Ipv6Addr.text, hm, hz, hlong]
      have hhead : readGroups 8 0 (a.text ++ rest) = ((a.segments.take z.start, false),
          ':' :: ':' :: (subsliceText (a.segments.drop (z.start + z.len)) ++ rest)) := by
        have hd := dot_not_mem_groupsText 0 (a.segments.drop (z.start + z.len))
        have hdot : '.' ∉ ':' :: ':' ::
            (subsliceText (a.segments.drop (z.start + z.len)) ++ rest) := by
          have hrest := h.dotless
          simp only [groupsText, if_true] at hd
          simp [hd, hrest]
        rw [htext]
        simpa [groupsText] using readGroups_text (a.segments.take z.start) 8 0
          (by simp) hdot (stops_colon 16 _) (fun i => readGroup_colons i _)
      have hlen : (a.segments.take z.start).length = z.start := by simp; omega
      have htail := hlast (a.segments.drop (z.start + z.len)) (8 - (z.start + 1)) (by simp; omega)
      have hcount : 8 - z.start - (a.segments.drop (z.start + z.len)).length = z.len := by
        simp only [List.length_drop, Ipv6Addr.length_segments]
        omega
      simp only [readIpv6Addr, hhead, hlen, show z.start ≠ 8 by omega, if_false, readGivenChar,
        if_true, Option.bind_eq_bind, Option.bind_some, htail, hcount, hsplit,
        Bool.false_eq_true, Ipv6Addr.ofSegments_segments]
    · have htext : a.text = subsliceText a.segments := by simp [Ipv6Addr.text, hm, hz, hlong]
      have hall := hlast a.segments 8 (by simp)
      simp [readIpv6Addr, htext, hall]

@[simp] theorem Ipv6Addr.parse_toString (a : Ipv6Addr) : Ipv6Addr.parse a.toString = some a := by
  have hread := readIpv6Addr_text a endsGroups_nil
  rw [List.append_nil] at hread
  simp [Ipv6Addr.parse, parseWith, Ipv6Addr.toString, hread]

theorem readPort_text (port : UInt16) :
    readPort (':' :: Nat.toDigits 10 port.toNat) = some (port.toNat, []) := by
  have hn : readNumber 10 none true 65536 (Nat.toDigits 10 port.toNat ++ []) =
      some (port.toNat, []) :=
    readNumber_toDigits (by omega) (by omega) port.toNat_lt (by simp) (stops_nil 10)
  rw [List.append_nil] at hn
  simp [readPort, readGivenChar, hn]

theorem SocketAddr.parse_toString_v4 (ip : Ipv4Addr) (port : UInt16) :
    SocketAddr.parse (SocketAddr.v4 ip port).toString = some (.v4 ip port) := by
  have hip := readIpv4Addr_text ip (stops_colon 10 (Nat.toDigits 10 port.toNat))
  simp [SocketAddr.parse, parseWith, SocketAddr.toString, SocketAddr.text, readSocketAddr,
    readSocketAddrV4, hip, readPort_text]

theorem readScopeId_text (scopeId : UInt32) (port : List Char) :
    readScopeId ('%' :: (Nat.toDigits 10 scopeId.toNat ++ ']' :: port)) =
      some (scopeId.toNat, ']' :: port) := by
  have hn : readNumber 10 none true 4294967296 (Nat.toDigits 10 scopeId.toNat ++ ']' :: port) =
      some (scopeId.toNat, ']' :: port) :=
    readNumber_toDigits (by omega) (by omega) scopeId.toNat_lt (by simp)
      (stops_of_toDigit (by decide))
  simp [readScopeId, readGivenChar, hn]

theorem SocketAddr.parse_toString_v6 (ip : Ipv6Addr) (port : UInt16) (flowinfo scopeId : UInt32) :
    SocketAddr.parse (SocketAddr.v6 ip port flowinfo scopeId).toString =
      some (.v6 ip port 0 scopeId) := by
  have hdigits : ∀ n, '.' ∉ Nat.toDigits 10 n :=
    fun n => dot_not_mem_toDigits (by omega) (by omega)
  have hfront : ∀ cs, readSocketAddrV4 ('[' :: cs) = none := by
    intro cs
    have hnone : readIpv4Addr ('[' :: cs) = none :=
      readIpv4Addr_none_of_stops (stops_of_toDigit (by decide))
    simp [readSocketAddrV4, hnone]
  by_cases hscope : scopeId = 0
  · have hip : readIpv6Addr (ip.text ++ ']' :: ':' :: Nat.toDigits 10 port.toNat) =
        some (ip, ']' :: ':' :: Nat.toDigits 10 port.toNat) :=
      readIpv6Addr_text ip (endsGroups_cons (by decide) (by decide) (by simp [hdigits]))
    have hnone : readScopeId (']' :: ':' :: Nat.toDigits 10 port.toNat) = none := by
      simp [readScopeId, readGivenChar]
    simp [SocketAddr.parse, parseWith, SocketAddr.toString, SocketAddr.text, readSocketAddr,
      hfront, readSocketAddrV6, hscope, hip, hnone, readGivenChar, readPort_text]
  · have hip : readIpv6Addr (ip.text ++ '%' :: (Nat.toDigits 10 scopeId.toNat ++
          ']' :: ':' :: Nat.toDigits 10 port.toNat)) =
        some (ip, '%' :: (Nat.toDigits 10 scopeId.toNat ++
          ']' :: ':' :: Nat.toDigits 10 port.toNat)) :=
      readIpv6Addr_text ip (endsGroups_cons (by decide) (by decide) (by simp [hdigits]))
    simp [SocketAddr.parse, parseWith, SocketAddr.toString, SocketAddr.text, readSocketAddr,
      hfront, readSocketAddrV6, hscope, hip, readScopeId_text, readGivenChar, readPort_text]

theorem SocketAddr.toString_ne_empty (a : SocketAddr) : a.toString ≠ "" := by
  intro h
  have ht := congrArg String.toList h
  simp only [SocketAddr.toString, String.toList_ofList] at ht
  cases a <;> simp [SocketAddr.text] at ht

end StdNet
