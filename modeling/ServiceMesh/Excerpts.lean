import ServiceMesh.Utf8
import ServiceMesh.Wire

/-! What the coordinator quotes of an answer of the auth service, and a joiner of an answer of the
coordinator, when the answer is an error. The text is cut at a number of bytes. -/

namespace ServiceMesh

open Bytes Utf8

def truncationMarker : List Char := "...<truncated>".toList

def excerptWithin (limit : Nat) (s : List Char) : Checked (List Char) :=
  if limit < byteLen s then (sliceTo s limit).map (· ++ truncationMarker) else .ok s

def excerptStr (s : List Char) : Checked (List Char) := excerptWithin 512 s

def Client.bodyExcerptBytes (bytes : List UInt8) : Checked (List Char) :=
  excerptWithin 2048 (fromUtf8Lossy bytes)

def bodyExcerpt : Except String (List UInt8) → Checked String
  | .ok bytes => (excerptStr (fromUtf8Lossy bytes)).map String.ofList
  | .error e => .ok ("<body read failed: " ++ e ++ ">")

def Client.takeBodyExcerpt : Except String (List UInt8) → Checked String
  | .ok bytes => (bodyExcerptBytes bytes).map String.ofList
  | .error e => .ok ("<body read failed: " ++ e ++ ">")

inductive HttpReply
  | unreachable (e : String)
  | response (status : UInt16) (body : Except String (List UInt8))

def isSuccess (status : UInt16) : Bool := 200 ≤ status && status < 300

def quoted (e : String) (excerpt : List Char) : String :=
  e ++ " (body excerpt: " ++ String.ofList excerpt ++ ")"

def validateReply (decode : List UInt8 → Except String ValidatedClaims) :
    HttpReply → Checked (Except ValidationError ValidatedClaims)
  | .unreachable e => .ok (.error (.transport e))
  | .response status body =>
    if isSuccess status then
      match body with
      | .error e => .ok (.error (.transport e))
      | .ok bytes =>
        match decode bytes with
        | .error e =>
          (excerptStr (fromUtf8Lossy bytes)).map (fun excerpt => .error (.decode (quoted e excerpt)))
        | .ok claims =>
          .ok (if claims.valid && claims.kind != "" && claims.kind != "join" then
            .error (.wrongKind claims.kind) else .ok claims)
    else (bodyExcerpt body).map (fun excerpt => .error (.status status excerpt))

inductive JoinerError
  | httpStatus (status : UInt16) (body : String)
  | httpTransport (e : String)
  | jsonCodec (e : String)
deriving DecidableEq, Repr

def Client.ensureSuccess {α : Type} (decode : List UInt8 → Except String α) (url : String)
    (status : UInt16) (body : Except String (List UInt8)) : Checked (Except JoinerError α) :=
  if isSuccess status then
    match body with
    | .error e => .ok (.error (.httpTransport (url ++ ": " ++ e)))
    | .ok bytes =>
      match decode bytes with
      | .error e =>
        (bodyExcerptBytes bytes).map (fun excerpt =>
          .error (.jsonCodec (url ++ ": " ++ quoted e excerpt)))
      | .ok value => .ok (.ok value)
  else (takeBodyExcerpt body).map (fun excerpt => .error (.httpStatus status excerpt))

def AuthReply.ofHttp (decode : List UInt8 → Except String ValidatedClaims) :
    HttpReply → Checked AuthReply
  | .unreachable e => .ok (.unreachable e)
  | .response status (.error e) =>
    if isSuccess status then .ok (.unreachable e)
    else (bodyExcerpt (.error e)).map (fun excerpt => .response status excerpt (.error e))
  | .response status (.ok bytes) =>
    if isSuccess status then
      match decode bytes with
      | .error e =>
        (excerptStr (fromUtf8Lossy bytes)).map (fun excerpt =>
          .response status "" (.error (quoted e excerpt)))
      | .ok claims => .ok (.response status "" (.ok claims))
    else (bodyExcerpt (.ok bytes)).map (fun excerpt => .response status excerpt (decode bytes))

theorem isSuccess_iff (status : UInt16) :
    isSuccess status = true ↔ ¬ (status < 200 ∨ 300 ≤ status) := by
  simp [isSuccess, not_or, UInt16.not_lt, UInt16.not_le]

/-- Validating a token is the admission's validation of the answer, unless the excerpt stops it. -/
theorem validateReply_eq (decode : List UInt8 → Except String ValidatedClaims) (reply : HttpReply) :
    validateReply decode reply = (AuthReply.ofHttp decode reply).map validateToken := by
  cases reply with
  | unreachable e => rfl
  | response status body =>
    by_cases hstatus : isSuccess status = true
    · have hrange := (isSuccess_iff status).mp hstatus
      cases body with
      | error e => simp only [validateReply, AuthReply.ofHttp, if_pos hstatus]; rfl
      | ok bytes =>
        simp only [validateReply, AuthReply.ofHttp, if_pos hstatus]
        cases decode bytes with
        | error e =>
          cases excerptStr (fromUtf8Lossy bytes) with
          | error fault => rfl
          | ok excerpt => simp only [Except.map, validateToken, if_neg hrange]
        | ok claims => simp only [Except.map, validateToken, if_neg hrange]
    · have hrange : status < 200 ∨ 300 ≤ status := by
        by_contra hc
        exact hstatus ((isSuccess_iff status).mpr hc)
      cases body with
      | error e =>
        simp only [validateReply, AuthReply.ofHttp, if_neg hstatus, bodyExcerpt, Except.map,
          validateToken, if_pos hrange]
      | ok bytes =>
        simp only [validateReply, AuthReply.ofHttp, if_neg hstatus]
        cases bodyExcerpt (.ok bytes) with
        | error fault => rfl
        | ok excerpt => simp only [Except.map, validateToken, if_pos hrange]

def IsExcerpt (limit : Nat) (body : List UInt8) (excerpt : List Char) : Prop :=
  ∃ front, front <+: fromUtf8Lossy body ∧ byteLen front ≤ limit ∧
    excerpt = front ++ (if limit < byteLen (fromUtf8Lossy body) then truncationMarker else [])

theorem excerptWithin_of_straddles {limit : Nat} {s : List Char} (h : Straddles s limit) :
    ∃ fault, excerptWithin limit s = .error fault := by
  have hlong : limit < byteLen s := by
    by_contra hc
    exact not_straddles_of_le (not_lt.mp hc) h
  rw [excerptWithin, if_pos hlong]
  cases hslice : sliceTo s limit with
  | error fault => exact ⟨fault, rfl⟩
  | ok front => exact absurd h ((exists_sliceTo (Nat.le_of_lt hlong)).mp ⟨front, hslice⟩)

theorem isExcerpt_excerptWithin {limit : Nat} {body : List UInt8}
    (h : ¬ Straddles (fromUtf8Lossy body) limit) :
    ∃ excerpt, IsExcerpt limit body excerpt ∧
      excerptWithin limit (fromUtf8Lossy body) = .ok excerpt := by
  by_cases hlong : limit < byteLen (fromUtf8Lossy body)
  · obtain ⟨front, hslice⟩ := (exists_sliceTo (Nat.le_of_lt hlong)).mpr h
    obtain ⟨hfront, hlen⟩ := sliceTo_eq_ok hslice
    refine ⟨front ++ truncationMarker, ⟨front, hfront, Nat.le_of_eq hlen, ?_⟩, ?_⟩
    · rw [if_pos hlong]
    · rw [excerptWithin, if_pos hlong, hslice]
      rfl
  · refine ⟨fromUtf8Lossy body, ⟨_, List.prefix_rfl, not_lt.mp hlong, ?_⟩, if_neg hlong⟩
    rw [if_neg hlong, List.append_nil]

structure QuotesBody (body : List UInt8) : Prop where
  status : ∀ decode status, isSuccess status = false →
    ∃ excerpt, IsExcerpt 512 body excerpt ∧
      validateReply decode (.response status (.ok body)) =
        .ok (.error (.status status (String.ofList excerpt)))
  undecodable : ∀ decode status e, isSuccess status = true → decode body = .error e →
    ∃ excerpt, IsExcerpt 512 body excerpt ∧
      validateReply decode (.response status (.ok body)) =
        .ok (.error (.decode (quoted e excerpt)))

structure Client.QuotesBody (body : List UInt8) : Prop where
  status : ∀ (α : Type) (decode : List UInt8 → Except String α) url status,
    isSuccess status = false →
    ∃ excerpt, IsExcerpt 2048 body excerpt ∧
      ensureSuccess decode url status (.ok body) =
        .ok (.error (.httpStatus status (String.ofList excerpt)))
  undecodable : ∀ (α : Type) (decode : List UInt8 → Except String α) url status e,
    isSuccess status = true → decode body = .error e →
    ∃ excerpt, IsExcerpt 2048 body excerpt ∧
      ensureSuccess decode url status (.ok body) =
        .ok (.error (.jsonCodec (url ++ ": " ++ quoted e excerpt)))

theorem quotesBody_of_not_straddles {body : List UInt8}
    (h : ¬ Straddles (fromUtf8Lossy body) 512) : QuotesBody body := by
  obtain ⟨excerpt, hexcerpt, hcut⟩ := isExcerpt_excerptWithin h
  constructor
  · intro decode status hstatus
    refine ⟨excerpt, hexcerpt, ?_⟩
    simp only [validateReply, hstatus, bodyExcerpt, excerptStr, hcut, Except.map]
    rfl
  · intro decode status e hstatus hdecode
    refine ⟨excerpt, hexcerpt, ?_⟩
    simp only [validateReply, hstatus, if_true, hdecode, excerptStr, hcut, Except.map]

theorem not_quotesBody_of_straddles {body : List UInt8}
    (h : Straddles (fromUtf8Lossy body) 512) : ¬ QuotesBody body := by
  intro hquotes
  obtain ⟨fault, hcut⟩ := excerptWithin_of_straddles h
  obtain ⟨excerpt, -, hreply⟩ := hquotes.status (fun _ => .error "") 500 (by decide)
  have hstops : validateReply (fun _ => .error "") (.response 500 (.ok body)) = .error fault := by
    have hstatus : isSuccess 500 = false := by decide
    simp only [validateReply, hstatus, bodyExcerpt, excerptStr, hcut, Except.map]
    rfl
  rw [hstops] at hreply
  simp at hreply

theorem Client.quotesBody_of_not_straddles {body : List UInt8}
    (h : ¬ Straddles (fromUtf8Lossy body) 2048) : QuotesBody body := by
  obtain ⟨excerpt, hexcerpt, hcut⟩ := isExcerpt_excerptWithin h
  constructor
  · intro α decode url status hstatus
    refine ⟨excerpt, hexcerpt, ?_⟩
    simp only [ensureSuccess, hstatus, takeBodyExcerpt, bodyExcerptBytes, hcut, Except.map]
    rfl
  · intro α decode url status e hstatus hdecode
    refine ⟨excerpt, hexcerpt, ?_⟩
    simp only [ensureSuccess, hstatus, if_true, hdecode, bodyExcerptBytes, hcut, Except.map]

theorem Client.not_quotesBody_of_straddles {body : List UInt8}
    (h : Straddles (fromUtf8Lossy body) 2048) : ¬ QuotesBody body := by
  intro hquotes
  obtain ⟨fault, hcut⟩ := excerptWithin_of_straddles h
  obtain ⟨excerpt, -, hreply⟩ :=
    hquotes.status Unit (fun _ => .error "") "" 500 (by decide)
  have hstops : ensureSuccess (fun _ => (.error "" : Except String Unit)) "" 500 (.ok body) =
      .error fault := by
    have hstatus : isSuccess 500 = false := by decide
    simp only [ensureSuccess, hstatus, takeBodyExcerpt, bodyExcerptBytes, hcut, Except.map]
    rfl
  rw [hstops] at hreply
  simp at hreply

/-- On both sides and on both error paths the body is quoted exactly when no character of its
decoding lies across the limit; otherwise the caller is stopped. -/
theorem excerpts_quote_body (body : List UInt8) :
    (QuotesBody body ↔ ¬ Straddles (fromUtf8Lossy body) 512) ∧
      (Client.QuotesBody body ↔ ¬ Straddles (fromUtf8Lossy body) 2048) := by
  refine ⟨⟨?_, quotesBody_of_not_straddles⟩, ⟨?_, Client.quotesBody_of_not_straddles⟩⟩
  · intro hquotes hstraddles
    exact not_quotesBody_of_straddles hstraddles hquotes
  · intro hquotes hstraddles
    exact Client.not_quotesBody_of_straddles hstraddles hquotes

section Example

def accentedBody (n : Nat) : List UInt8 := List.replicate n 0x61 ++ [0xC3, 0xA9]

theorem straddles_accentedBody (n : Nat) :
    Straddles (fromUtf8Lossy (accentedBody n)) (n + 1) := by
  have hlast : fromUtf8Lossy [0xC3, 0xA9] = [Char.ofNat 0xE9] := by
    rw [fromUtf8Lossy]
    have hnext : nextChar 0xC3 [0xA9] = (Char.ofNat 0xE9, 1) := by decide
    rw [hnext]
    simp [fromUtf8Lossy]
  have hlen : byteLen (List.replicate n (Char.ofNat (0x61 : UInt8).toNat)) = n := by
    rw [byteLen, List.map_replicate, List.sum_replicate]
    exact Nat.mul_one n
  refine ⟨List.replicate n (Char.ofNat (0x61 : UInt8).toNat), Char.ofNat 0xE9, [], ?_, ?_, ?_⟩
  · rw [accentedBody, fromUtf8Lossy_replicate (by decide), hlast]
  · rw [hlen]
    omega
  · rw [hlen]
    exact Nat.lt_succ_self (n + 1)

/-- An accented letter across byte 512 stops the coordinator, one across byte 2048 a joiner. -/
theorem accented_body_stops_caller :
    ¬ QuotesBody (accentedBody 511) ∧ ¬ Client.QuotesBody (accentedBody 2047) :=
  ⟨not_quotesBody_of_straddles (straddles_accentedBody 511),
    Client.not_quotesBody_of_straddles (straddles_accentedBody 2047)⟩

theorem excerpts_quote_body_empty : QuotesBody [] ∧ Client.QuotesBody [] := by
  have hempty : ∀ n, ¬ Straddles (fromUtf8Lossy []) n := by
    rintro n ⟨front, c, back, hs, -⟩
    simp [fromUtf8Lossy] at hs
  exact ⟨(excerpts_quote_body []).1.mpr (hempty 512), (excerpts_quote_body []).2.mpr (hempty 2048)⟩

end Example

end ServiceMesh
