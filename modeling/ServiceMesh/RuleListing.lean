import ServiceMesh.Registration
import ServiceMesh.Utf8
import ServiceMesh.Words

/-! The policy rule of a joiner with routes of its own: it is looked for in the text that `ip -6
rule show` prints, and put back if it is not there. -/

namespace ServiceMesh

open StdNet (Ipv6Addr Ipv4Addr)
open Words

structure SourceScope where
  ownUla : Ipv6Addr
  table : UInt32
  pref : UInt32
deriving DecidableEq, Repr

def SourceScope.forUla (ownUla : Ipv6Addr) : SourceScope :=
  let h := fnv1a64 ownUla.octets
  ⟨ownUla, 256 + (h % (4294967295 - 512)).toUInt32, 100 + (h % 32000).toUInt32⟩

def stripCr (line : List Char) : List Char :=
  if line.getLast? = some '\r' then line.dropLast else line

def linesFrom : (line rest : List Char) → List (List Char)
  | line, [] => if line = [] then [] else [line]
  | line, c :: rest =>
    if c = '\n' then stripCr line :: linesFrom [] rest else linesFrom (line ++ [c]) rest

def lines (s : List Char) : List (List Char) := linesFrom [] s

def wordsFrom : (word rest : List Char) → List (List Char)
  | word, [] => if word = [] then [] else [word]
  | word, c :: rest =>
    if isWhitespace c then
      if word = [] then wordsFrom [] rest else word :: wordsFrom [] rest
    else wordsFrom (word ++ [c]) rest

def splitWhitespace (s : List Char) : List (List Char) := wordsFrom [] s

def decimal (n : UInt32) : List Char := Nat.toDigits 10 n.toNat

def ruleNeedle (scope : SourceScope) : List Char :=
  "from".toList ++ ' ' :: (scope.ownUla.text ++ ' ' :: ("lookup".toList ++ ' ' ::
    decimal scope.table))

def ruleListingContains (listing : List Char) (scope : SourceScope) : Bool :=
  (lines listing).any (fun l => ruleNeedle scope <:+: joined ' ' (splitWhitespace l))

def sourceRulePresent (scope : SourceScope) : Option (List UInt8) → Bool
  | some stdout => ruleListingContains (Utf8.fromUtf8Lossy stdout) scope
  | none => true

def ruleCommand (verb : String) (scope : SourceScope) : List String :=
  ["ip", "-6", "rule", verb, "from", scope.ownUla.toString ++ "/128", "lookup",
    scope.table.toNat.repr, "pref", scope.pref.toNat.repr]

def installSourceRule (scope : SourceScope) : List (List String) :=
  [ruleCommand "del" scope, ruleCommand "add" scope]

def reassertSourceRule (scope : SourceScope) (out : Option (List UInt8)) : List (List String) :=
  if sourceRulePresent scope out then [] else installSourceRule scope

def ruleWords (scope : SourceScope) (first last : List Char) : List (List Char) :=
  [first, scope.ownUla.text, "lookup".toList, last]

/-- A line has the four words of the rule one after the other. -/
def ListsRule (listing : List Char) (scope : SourceScope) : Prop :=
  ∃ l ∈ lines listing, ruleWords scope "from".toList (decimal scope.table) <:+: splitWhitespace l

/-- A line has words that the rule's words are an end and a front of. -/
def Resembles (listing : List Char) (scope : SourceScope) : Prop :=
  ∃ l ∈ lines listing, ∃ first last, ruleWords scope first last <:+: splitWhitespace l ∧
    "from".toList <:+ first ∧ decimal scope.table <+: last

theorem space_notMem_wordsFrom {word rest w : List Char} (hword : ' ' ∉ word)
    (hw : w ∈ wordsFrom word rest) : ' ' ∉ w := by
  induction rest generalizing word with
  | nil =>
    rw [wordsFrom] at hw
    split at hw
    · simp at hw
    · rw [List.mem_singleton.mp hw]
      exact hword
  | cons c rest ih =>
    rw [wordsFrom] at hw
    split at hw
    · split at hw
      · exact ih (by simp) hw
      · rcases List.mem_cons.mp hw with rfl | hw
        · exact hword
        · exact ih (by simp) hw
    · rename_i hc
      have hspace : ' ' ≠ c := by
        rintro rfl
        exact hc (by decide)
      exact ih (by simp [hword, hspace]) hw

theorem space_notMem_toDigits {radix : Nat} (h1 : 1 < radix) (hr : radix ≤ 16) (n : Nat) :
    ' ' ∉ Nat.toDigits radix n := by
  intro hmem
  have hdigit := StdNet.isDigitOf_of_mem_toDigits h1 hr hmem
  have hnone : StdNet.toDigit radix ' ' = none := by
    simp [StdNet.toDigit]
  simp [StdNet.isDigitOf, hnone] at hdigit

theorem space_notMem_subsliceText (segs : List UInt16) : ' ' ∉ StdNet.subsliceText segs := by
  have hhex : ∀ s : UInt16, ' ' ∉ StdNet.hexText s := fun s =>
    space_notMem_toDigits (by omega) (by omega) s.toNat
  cases segs with
  | nil => simp [StdNet.subsliceText]
  | cons s rest =>
    rw [StdNet.subsliceText, List.mem_append, not_or]
    refine ⟨hhex s, ?_⟩
    intro hmem
    obtain ⟨t, -, ht⟩ := List.mem_flatMap.mp hmem
    rcases List.mem_cons.mp ht with hc | ht
    · simp at hc
    · exact hhex t ht

theorem space_notMem_text (a : Ipv6Addr) : ' ' ∉ a.text := by
  have hdec : ∀ n : Nat, ' ' ∉ Nat.toDigits 10 n := space_notMem_toDigits (by omega) (by omega)
  unfold Ipv6Addr.text
  split
  · rename_i ipv4 _
    simp [Ipv4Addr.text, hdec]
  · dsimp only
    split
    · simp [space_notMem_subsliceText]
    · exact space_notMem_subsliceText _

/-- The needle is in a line exactly when the line resembles the rule. -/
theorem needle_occurs_iff (scope : SourceScope) {ws : List (List Char)} (hws : ∀ w ∈ ws, ' ' ∉ w) :
    ruleNeedle scope <:+: joined ' ' ws ↔
      ∃ first last, ruleWords scope first last <:+: ws ∧ "from".toList <:+ first ∧
        decimal scope.table <+: last := by
  have htable : ' ' ∉ decimal scope.table := space_notMem_toDigits (by omega) (by omega) _
  rw [ruleNeedle, occurs_joined_iff (by decide) hws]
  constructor
  · rintro ⟨front, first, back, rfl, -, hfirst, hback⟩
    have hback' : ∀ w ∈ back, ' ' ∉ w := fun w hw => hws w (by simp [hw])
    obtain ⟨back, rfl, -, hlookup⟩ := (starts_joined_iff (space_notMem_text _) hback').mp hback
    have hback'' : ∀ w ∈ back, ' ' ∉ w := fun w hw => hback' w (List.mem_cons_of_mem _ hw)
    obtain ⟨back, rfl, hne, hlast⟩ := (starts_joined_iff (by decide) hback'').mp hlookup
    obtain ⟨last, back, rfl⟩ := List.exists_cons_of_ne_nil hne
    refine ⟨first, last, ⟨front, back, ?_⟩, hfirst, (starts_first_iff htable).mp hlast⟩
    simp [ruleWords]
  · rintro ⟨first, last, ⟨front, back, rfl⟩, hfirst, hlast⟩
    have hback : ∀ w ∈ [scope.ownUla.text, "lookup".toList, last] ++ back, ' ' ∉ w :=
      fun w hw => hws w (by
        simp only [ruleWords, List.mem_append, List.mem_cons] at hw ⊢
        tauto)
    refine ⟨front, first, [scope.ownUla.text, "lookup".toList, last] ++ back, ?_, by simp, hfirst, ?_⟩
    · simp [ruleWords]
    · refine (starts_joined_iff (space_notMem_text _) hback).mpr ⟨_, rfl, by simp, ?_⟩
      have hrest : ∀ w ∈ ["lookup".toList, last] ++ back, ' ' ∉ w :=
        fun w hw => hback w (List.mem_cons_of_mem _ hw)
      refine (starts_joined_iff (by decide) hrest).mpr ⟨_, rfl, by simp, ?_⟩
      exact (starts_first_iff htable).mpr hlast

theorem ruleListingContains_iff (listing : List Char) (scope : SourceScope) :
    ruleListingContains listing scope = true ↔ Resembles listing scope := by
  have hline : ∀ l, ruleNeedle scope <:+: joined ' ' (splitWhitespace l) ↔
      ∃ first last, ruleWords scope first last <:+: splitWhitespace l ∧
        "from".toList <:+ first ∧ decimal scope.table <+: last := fun l =>
    needle_occurs_iff scope (fun w hw => space_notMem_wordsFrom (by simp) hw)
  simp only [ruleListingContains, List.any_eq_true, decide_eq_true_eq, hline, Resembles]

theorem ListsRule.resembles {listing : List Char} {scope : SourceScope}
    (h : ListsRule listing scope) : Resembles listing scope := by
  obtain ⟨l, hl, hwords⟩ := h
  exact ⟨l, hl, _, _, hwords, List.suffix_rfl, List.prefix_rfl⟩

structure PresenceExact (scope : SourceScope) (listing : List Char) : Prop where
  exact : ruleListingContains listing scope = true ↔ ListsRule listing scope
  reinstalls : ∀ stdout, Utf8.fromUtf8Lossy stdout = listing → ¬ ListsRule listing scope →
    reassertSourceRule scope (some stdout) = installSourceRule scope

/-- The check is exact for a listing exactly when nothing in it resembles the rule unless the rule
is there too. -/
theorem rule_presence_exact (scope : SourceScope) (listing : List Char) :
    PresenceExact scope listing ↔ (Resembles listing scope → ListsRule listing scope) := by
  constructor
  · intro h hresembles
    exact h.exact.mp ((ruleListingContains_iff listing scope).mpr hresembles)
  · intro h
    have hexact : ruleListingContains listing scope = true ↔ ListsRule listing scope := by
      rw [ruleListingContains_iff]
      exact ⟨h, ListsRule.resembles⟩
    refine ⟨hexact, ?_⟩
    intro stdout hlisting hmissing
    have habsent : ¬ sourceRulePresent scope (some stdout) = true := by
      rw [sourceRulePresent, hlisting, hexact]
      exact hmissing
    rw [reassertSourceRule, if_neg habsent]

section Example

def tenantScope : SourceScope := .forUla ⟨0xfd5a, 0x1f00, 2, 1, 0, 0, 0, 1⟩

instance (listing : List Char) (scope : SourceScope) : Decidable (ListsRule listing scope) :=
  inferInstanceAs (Decidable (∃ l ∈ lines listing,
    ruleWords scope "from".toList (decimal scope.table) <:+: splitWhitespace l))

def staleListing : List Char :=
  "0:\tfrom all lookup local\n28751:\tfrom fd5a:1f00:2:1::1 lookup 1882679830\n".toList

/-- The rule for table 188267983 is not listed, a rule for table 1882679830 is, and nothing is put
back. -/
theorem longer_table_hides_missing_rule :
    tenantScope.table = 188267983 ∧ ¬ ListsRule staleListing tenantScope ∧
      ruleListingContains staleListing tenantScope = true ∧
      ¬ PresenceExact tenantScope staleListing := by
  have hmissing : ¬ ListsRule staleListing tenantScope := by decide +kernel
  have hfound : ruleListingContains staleListing tenantScope = true := by decide +kernel
  refine ⟨by decide +kernel, hmissing, hfound, ?_⟩
  intro h
  exact hmissing (h.exact.mp hfound)

def freshListing : List Char :=
  "0:\tfrom all lookup local\n28751:\tfrom fd5a:1f00:2:1::1 lookup 188267983\n".toList

theorem rule_presence_exact_listed : PresenceExact tenantScope freshListing := by
  apply (rule_presence_exact tenantScope freshListing).mpr
  intro _
  decide +kernel

end Example

end ServiceMesh
