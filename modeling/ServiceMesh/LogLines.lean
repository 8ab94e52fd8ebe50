import Mathlib.Data.List.DropRight
import ServiceMesh.JsonText

/-! A log line: the object that the inner formatter has written, with the name of the service put in
as its first member. -/

namespace ServiceMesh.LogLines

open Json

def escape (c : Char) : List Char :=
  if c = '"' then ['\\', '"']
  else if c = '\\' then ['\\', '\\']
  else if c = '\n' then ['\\', 'n']
  else if c = '\r' then ['\\', 'r']
  else if c = '\t' then ['\\', 't']
  else [c]

def restEscape (s : List Char) : List Char := s.flatMap escape

def trimEndMatches (buf : List Char) : List Char :=
  buf.rdropWhile (fun c => c = '\n' || c = '\r')

def serviceName : List Char := "service".toList

def serviceMember (service : List Char) : List Char :=
  '"' :: serviceName ++ '"' :: ':' :: '"' :: restEscape service ++ ['"']

def stamped (service : List Char) : List Char → List Char
  | [] => []
  | c :: rest =>
    if c = '{' then
      if rest.head? = some '}' then '{' :: serviceMember service ++ rest
      else '{' :: serviceMember service ++ ',' :: rest
    else c :: rest

def formatEvent (service : List Char) (inner : Option (List Char)) : Option (List Char) :=
  inner.map (fun buf => stamped service (trimEndMatches buf) ++ ['\n'])

def Bare (c : Char) : Prop := c.toNat < 0x20 ∧ c ≠ '\n' ∧ c ≠ '\r' ∧ c ≠ '\t'

instance (c : Char) : Decidable (Bare c) :=
  inferInstanceAs (Decidable (c.toNat < 0x20 ∧ c ≠ '\n' ∧ c ≠ '\r' ∧ c ≠ '\t'))

theorem readString_escape (c : Char) (rest : List Char) :
    readString .plain (escape c ++ rest) =
      if Bare c then none else push c (readString .plain rest) := by
  by_cases hquote : c = '"'
  · subst hquote
    rfl
  by_cases hslash : c = '\\'
  · subst hslash
    rfl
  by_cases hn : c = '\n'
  · subst hn
    rfl
  by_cases hr : c = '\r'
  · subst hr
    rfl
  by_cases ht : c = '\t'
  · subst ht
    rfl
  have hself : escape c = [c] := by
    simp [escape, hquote, hslash, hn, hr, ht]
  simp [hself, Bare, readString, hquote, hslash, hn, hr, ht]

theorem readString_restEscape (s rest : List Char) :
    readString .plain (restEscape s ++ '"' :: rest) =
      if s.any (fun c => Bare c) then none else some (s, rest) := by
  induction s with
  | nil => simp [restEscape, readString]
  | cons c s ih =>
    have hcons : restEscape (c :: s) ++ '"' :: rest =
        escape c ++ (restEscape s ++ '"' :: rest) := by
      simp [restEscape]
    rw [hcons, readString_escape, ih, List.any_cons]
    by_cases hc : Bare c
    · simp [hc]
    · cases hs : s.any (fun c => Bare c) with
      | true => simp [hc, push]
      | false => simp [hc, push]

theorem newline_notMem_restEscape (s : List Char) : '\n' ∉ restEscape s := by
  intro hmem
  obtain ⟨c, -, hc⟩ := List.mem_flatMap.mp hmem
  unfold escape at hc
  split_ifs at hc with _ _ hn <;> simp at hc
  exact hn hc.symm

theorem newline_notMem_serviceMember (service : List Char) : '\n' ∉ serviceMember service := by
  have hname : '\n' ∉ serviceName := by decide
  simp [serviceMember, hname, newline_notMem_restEscape]

theorem readMember_serviceMember (n : Nat) (service rest : List Char) :
    readMember (readValue (n + 1)) (serviceMember service ++ rest) =
      if service.any (fun c => Bare c) then none else some ((serviceName, .str service), rest) := by
  have hname : readString .plain (serviceName ++ ('"' :: ':' :: '"' ::
      (restEscape service ++ '"' :: rest))) =
      some (serviceName, ':' :: '"' :: (restEscape service ++ '"' :: rest)) := by
    rfl
  have htext : serviceMember service ++ rest = '"' :: (serviceName ++ ('"' :: ':' :: '"' ::
      (restEscape service ++ '"' :: rest))) := by
    simp [serviceMember]
  have hvalue : readValue (n + 1) ('"' :: (restEscape service ++ '"' :: rest)) =
      if service.any (fun c => Bare c) then none else some (.str service, rest) := by
    rw [readValue_string, readString_restEscape]
    split_ifs <;> rfl
  rw [htext]
  simp only [readMember, expect_cons (show isSpace '"' = false by decide),
    expect_cons (show isSpace ':' = false by decide), Option.bind_eq_bind, Option.bind_some, hname,
    hvalue]
  split_ifs <;> rfl

theorem readValue_serviceMember_bare {service : List Char} (h : service.any (fun c => Bare c) = true)
    (n : Nat) (tail : List Char) :
    readValue (n + 2) ('{' :: (serviceMember service ++ tail)) = none := by
  have hquote : lead (serviceMember service ++ tail) = some ('"', _) := lead_cons (by decide) _
  have hmember := readMember_serviceMember n service tail
  rw [if_pos h] at hmember
  rw [readValue_object, readItems_of_lead hquote, if_neg (by decide), readList_of_item_none hmember]
  rfl

theorem readValue_serviceMember {service : List Char} (h : ¬ service.any (fun c => Bare c) = true)
    (n : Nat) {tail rest : List Char} {c : Char} (hlead : lead tail = some (c, rest)) :
    readValue (n + 2) ('{' :: (serviceMember service ++ tail)) =
      if c = '}' then some (.object [(serviceName, .str service)], rest)
      else if c = ',' then
        (readList (readMember (readValue (n + 1))) '}' n rest).map
          (fun (ms, cs) => (.object ((serviceName, .str service) :: ms), cs))
      else none := by
  have hquote : lead (serviceMember service ++ tail) = some ('"', _) := lead_cons (by decide) _
  have hmember := readMember_serviceMember n service tail
  rw [if_neg h] at hmember
  rw [readValue_object, readItems_of_lead hquote, if_neg (by decide),
    readList_of_item hmember hlead]
  split_ifs
  · rfl
  · rw [Option.map_map]
    rfl
  · rfl

structure ObjectLine (line : List Char) (members : List (List Char × Value)) : Prop where
  object : Decodes line (.object members)
  oneLine : '\n' ∉ line
  trimmed : line.getLast? ≠ some '\r'

/-- The line that was written is one object, with the service as one member and the members of the
inner object as the others. -/
structure StaysJson (service : List Char) (members : List (List Char × Value)) (line : List Char) :
    Prop where
  oneLine : '\n' ∉ line
  object : ∃ all, Decodes line (.object all) ∧
    all.filter (fun m => m.1 = serviceName) = [(serviceName, .str service)] ∧
    all.filter (fun m => m.1 ≠ serviceName) = members

/-- No control character in the name is left as it is, no member has the name already, and the
braces stand at the beginning of the line, next to each other if there is nothing between them. -/
structure Stampable (service : List Char) (members : List (List Char × Value)) (line : List Char) :
    Prop where
  escaped : ∀ c ∈ service, ¬ Bare c
  unnamed : ∀ m ∈ members, m.1 ≠ serviceName
  brace : ['{'] <+: line
  empty : members = [] → ['{', '}'] <+: line

theorem trimEndMatches_append {line eol : List Char} (heol : ∀ c ∈ eol, c = '\n' ∨ c = '\r')
    (hn : '\n' ∉ line) (hr : line.getLast? ≠ some '\r') :
    trimEndMatches (line ++ eol) = line := by
  have hdrop : trimEndMatches (line ++ eol) = trimEndMatches line := by
    unfold trimEndMatches List.rdropWhile
    rw [List.reverse_append, List.dropWhile_append_of_pos]
    intro c hc
    simpa using heol c (List.mem_reverse.mp hc)
  rw [hdrop]
  refine List.rdropWhile_eq_self_iff.mpr ?_
  intro hne hlast
  have hmem := List.getLast_mem hne
  rw [List.getLast?_eq_some_getLast hne] at hr
  rcases (by simpa using hlast : line.getLast hne = '\n' ∨ line.getLast hne = '\r') with hc | hc
  · exact hn (hc ▸ hmem)
  · exact hr (congrArg some hc)

section

variable {service line rest : List Char} {members : List (List Char × Value)} {v : Value}

theorem items_cases (h : Decodes ('{' :: rest) (.object members)) :
    ∃ n r, r.dropWhile isSpace = [] ∧ (members = [] ∧ lead rest = some ('}', r) ∨
      (∃ cs, lead rest = some ('"', cs)) ∧
        readList (readMember (readValue n)) '}' n rest = some (members, r)) := by
  obtain ⟨n, r, hread, hspace⟩ := h
  cases n with
  | zero => cases hread
  | succ n =>
    refine ⟨n, r, hspace, ?_⟩
    rw [readValue_object] at hread
    obtain ⟨⟨ms, cs⟩, hitems, hsame⟩ := Option.map_eq_some_iff.mp hread
    obtain ⟨hms, rfl⟩ := Prod.mk.inj hsame
    obtain rfl := Value.object.inj hms
    obtain ⟨⟨c, cs'⟩, hc, -⟩ := Option.bind_eq_some_iff.mp hitems
    rw [readItems_of_lead hc] at hitems
    by_cases hclose : c = '}'
    · rw [if_pos hclose] at hitems
      obtain ⟨rfl, rfl⟩ := Prod.mk.inj (Option.some.inj hitems)
      exact .inl ⟨rfl, hclose ▸ hc⟩
    · rw [if_neg hclose] at hitems
      refine .inr ⟨⟨cs', ?_⟩, hitems⟩
      by_contra hquote
      have hnone : readMember (readValue n) rest = none :=
        readMember_eq_none hc (by rintro rfl; exact hquote hc)
      rw [readList_of_item_none hnone] at hitems
      cases hitems

theorem stamped_decodes (h : Decodes ('{' :: rest) (.object members))
    (hescaped : ∀ c ∈ service, ¬ Bare c) (hempty : members = [] → rest.head? = some '}') :
    Decodes (stamped service ('{' :: rest))
      (.object ((serviceName, .str service) :: members)) := by
  have hbare : ¬ service.any (fun c => Bare c) = true := by simpa using hescaped
  obtain ⟨n, r, hspace, hitems⟩ := items_cases h
  refine ⟨n + 2, r, ?_, hspace⟩
  rw [stamped, if_pos rfl]
  rcases hitems with ⟨rfl, hlead⟩ | ⟨⟨cs, hlead⟩, hlist⟩
  · rw [if_pos (hempty rfl), List.cons_append, readValue_serviceMember hbare n hlead, if_pos rfl]
  · have hopen : rest.head? ≠ some '}' := by
      intro hc
      obtain ⟨tail, rfl⟩ := List.head?_eq_some_iff.mp hc
      rw [lead_cons (by decide)] at hlead
      simp at hlead
    have hmono := readList_mono (readMember_mono (readValue_mono (Nat.le_succ n))) (Nat.le_refl n)
      _ _ hlist
    rw [if_neg hopen, List.cons_append,
      readValue_serviceMember hbare n (lead_cons (by decide) rest), if_neg (by decide), if_pos rfl,
      hmono]
    rfl

theorem stamped_of_decodes (h : Decodes ('{' :: rest) (.object members))
    (hv : Decodes (stamped service ('{' :: rest)) v) :
    (∀ c ∈ service, ¬ Bare c) ∧ (members = [] → rest.head? = some '}') := by
  obtain ⟨n, r, hread⟩ := Decodes.read_add_two hv
  rw [stamped, if_pos rfl] at hread
  have hbare : ¬ service.any (fun c => Bare c) = true := by
    intro hb
    split at hread
    · rw [List.cons_append, readValue_serviceMember_bare hb] at hread
      cases hread
    · rw [List.cons_append, readValue_serviceMember_bare hb] at hread
      cases hread
  refine ⟨by simpa using hbare, ?_⟩
  rintro rfl
  by_contra hopen
  rw [if_neg hopen, List.cons_append, readValue_serviceMember hbare n (lead_cons (by decide) rest),
    if_neg (by decide), if_pos rfl] at hread
  obtain ⟨ms, hlist, -⟩ := Option.map_eq_some_iff.mp hread
  obtain ⟨k, r', -, ⟨-, hlead⟩ | ⟨-, hnil⟩⟩ := items_cases h
  · -- behind the comma the reader finds the closing brace
    rw [readList_of_item_none (readMember_eq_none hlead (by decide))] at hlist
    cases hlist
  · exact absurd rfl (readList_ne_nil hnil)

theorem newline_notMem_stamped (h : '\n' ∉ line) : '\n' ∉ stamped service line := by
  have hmember := newline_notMem_serviceMember service
  cases line with
  | nil => exact h
  | cons c rest =>
    rw [List.mem_cons, not_or] at h
    rw [stamped]
    split_ifs <;> simp [hmember, h.1, h.2]

end

/-- The line that is written for an object is an object with the service beside the same members,
if and only if the three things in the way of it are absent: a control character that is not
escaped, a member of that name, and space before or between the braces. -/
theorem log_line_stays_json (service : List Char) {line eol : List Char}
    {members : List (List Char × Value)} (heol : ∀ c ∈ eol, c = '\n' ∨ c = '\r')
    (h : ObjectLine line members) :
    (∃ out, formatEvent service (some (line ++ eol)) = some (out ++ ['\n']) ∧
      StaysJson service members out) ↔ Stampable service members line := by
  have hformat : formatEvent service (some (line ++ eol)) =
      some (stamped service line ++ ['\n']) := by
    rw [formatEvent, Option.map_some, trimEndMatches_append heol h.oneLine h.trimmed]
  have hout : (∃ out, formatEvent service (some (line ++ eol)) = some (out ++ ['\n']) ∧
      StaysJson service members out) ↔ StaysJson service members (stamped service line) := by
    rw [hformat]
    constructor
    · rintro ⟨out, hsame, hstays⟩
      rw [List.append_cancel_right (Option.some.inj hsame)]
      exact hstays
    · exact fun hstays => ⟨_, rfl, hstays⟩
  rw [hout]
  have hkept : members.filter (fun m => m.1 ≠ serviceName) = members ↔
      ∀ m ∈ members, m.1 ≠ serviceName := by
    simp [List.filter_eq_self]
  have hnone : (∀ m ∈ members, m.1 ≠ serviceName) →
      members.filter (fun m => m.1 = serviceName) = [] := by
    intro hall
    simpa [List.filter_eq_nil_iff] using hall
  constructor
  · rintro ⟨-, all, hall, hservice, hothers⟩
    by_cases hbrace : ['{'] <+: line
    · obtain ⟨rest, rfl⟩ := hbrace
      obtain ⟨hescaped, hempty⟩ := stamped_of_decodes h.object hall
      obtain rfl := Value.object.inj (hall.unique (stamped_decodes h.object hescaped hempty))
      rw [List.filter_cons_of_neg (by simp), hkept] at hothers
      refine ⟨hescaped, hothers, ⟨rest, rfl⟩, ?_⟩
      intro hnil
      obtain ⟨tail, rfl⟩ := List.head?_eq_some_iff.mp (hempty hnil)
      exact ⟨tail, rfl⟩
    · -- the text is passed on as it came
      have hsame : stamped service line = line := by
        cases line with
        | nil => rfl
        | cons c rest =>
          rw [stamped, if_neg]
          rintro rfl
          exact hbrace ⟨rest, rfl⟩
      rw [hsame] at hall
      obtain rfl := Value.object.inj (hall.unique h.object)
      rw [hnone (hkept.mp hothers)] at hservice
      cases hservice
  · rintro ⟨hescaped, hunnamed, ⟨rest, rfl⟩, hempty⟩
    refine ⟨newline_notMem_stamped h.oneLine, _, stamped_decodes h.object hescaped ?_, ?_, ?_⟩
    · intro hnil
      obtain ⟨tail, htail⟩ := hempty hnil
      obtain rfl := (List.cons.inj htail).2
      rfl
    · rw [List.filter_cons_of_pos (by simp), hnone hunnamed]
    · rw [List.filter_cons_of_neg (by simp), hkept.mpr hunnamed]

section Example

def infoLine (name : String) : List Char :=
  '{' :: '"' :: name.toList ++ "\":\"INFO\"".toList ++ ['}']

theorem infoLine_object : ObjectLine (infoLine "level") [("level".toList, .str "INFO".toList)] :=
  ⟨⟨3, [], rfl, rfl⟩, by decide, by decide⟩

theorem log_line_stays_json_quoted :
    ∃ out, formatEvent "mesh \"a\"".toList (some (infoLine "level" ++ ['\n'])) =
      some (out ++ ['\n']) ∧
      StaysJson "mesh \"a\"".toList [("level".toList, .str "INFO".toList)] out := by
  have hbare : "mesh \"a\"".toList.all (fun c => ¬ Bare c) = true := by decide
  have hescaped : ∀ c ∈ "mesh \"a\"".toList, ¬ Bare c := by simpa using hbare
  refine (log_line_stays_json _ (by simp) infoLine_object).mpr ⟨hescaped, ?_, ?_, by simp⟩
  · intro m hm
    rw [List.mem_singleton.mp hm]
    decide
  · exact ⟨_, rfl⟩

/-- A backspace in the name leaves a line that is no JSON text, and a field of the event called
`service` leaves two members of that name. -/
theorem control_character_breaks_line :
    (∃ out, formatEvent ['\x08'] (some (infoLine "level" ++ ['\n'])) = some (out ++ ['\n']) ∧
      ∀ v, ¬ Decodes out v) ∧
      ∃ out, formatEvent ['a'] (some (infoLine "service" ++ ['\n'])) = some (out ++ ['\n']) ∧
        Decodes out (.object [(serviceName, .str ['a']), (serviceName, .str "INFO".toList)]) := by
  refine ⟨⟨_, rfl, ?_⟩, _, rfl, 4, [], rfl, rfl⟩
  intro v hv
  have hescaped := (stamped_of_decodes infoLine_object.object hv).1
  exact hescaped '\x08' (by decide) (by decide)

end Example

end ServiceMesh.LogLines
