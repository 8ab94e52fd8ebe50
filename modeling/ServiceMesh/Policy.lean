import ServiceMesh.Allocator

/-! The tag-based access policy: rules, glob matching, symmetric visibility, validation of
tenant sources, and the store that replaces the policy under an entity tag. -/

namespace ServiceMesh

def startsWith (s pre : String) : Bool := pre.toList.isPrefixOf s.toList

def stripSuffixStar (s : String) : Option String :=
  if s.toList.getLast? = some '*' then some (String.ofList s.toList.dropLast) else none

structure AclRule where
  action : String
  src : List String
  dst : List String
deriving DecidableEq, Repr

def defaultAction : String := "accept"

def tagSystem : String := "tag:system"

def tagNetPrefix : String := "tag:net-"

namespace AclRule

def accept (src dst : List String) : AclRule := ⟨defaultAction, src, dst⟩

def isAccept (r : AclRule) : Bool := r.action == "accept"

end AclRule

def tagMatches (pattern tag : String) : Bool :=
  if pattern = "*" then true
  else
    match stripSuffixStar pattern with
    | some pre => startsWith tag pre
    | none => pattern == tag

-- The bare glob is tested outside the tag loop, so it also matches a node without tags.
def tagsMatchAny (patterns tags : List String) : Bool :=
  patterns.any fun pat => if pat = "*" then true else tags.any (tagMatches pat)

def isCrossTenantGlobSource (pattern : String) : Bool :=
  if pattern = "*" then true
  else
    match stripSuffixStar pattern with
    | none => false
    | some pre => startsWith tagNetPrefix pre || startsWith pre tagNetPrefix

inductive PolicyValidationError
  | crossTenantGlobSource (pattern : String)
deriving DecidableEq, Repr

def PolicyValidationError.toString : PolicyValidationError → String
  | .crossTenantGlobSource pattern =>
    "cross-tenant glob '" ++ pattern ++ "' as a policy source is forbidden: it would let " ++
      "distinct tenant networks see each other (tag:net-* is allowed only as a destination)"

structure Policy where
  acls : List AclRule
deriving DecidableEq, Repr

namespace Policy

def empty : Policy := ⟨[]⟩

def bootstrap : Policy := ⟨[AclRule.accept [tagSystem] [tagSystem]]⟩

def allowsDirected (p : Policy) (srcTags dstTags : List String) : Bool :=
  (p.acls.filter AclRule.isAccept).any fun rule =>
    tagsMatchAny rule.src srcTags && tagsMatchAny rule.dst dstTags

def canSee (p : Policy) (aTags bTags : List String) : Bool :=
  p.allowsDirected aTags bTags || p.allowsDirected bTags aTags

def validate (p : Policy) : Except PolicyValidationError Unit :=
  match p.acls.findSome? (fun rule => rule.src.find? isCrossTenantGlobSource) with
  | some pattern => .error (.crossTenantGlobSource pattern)
  | none => .ok ()

theorem canSee_comm (p : Policy) (a b : List String) : p.canSee a b = p.canSee b a :=
  Bool.or_comm _ _

end Policy

def jsonEscape (c : Char) : List Char :=
  if c = '"' then ['\\', '"']
  else if c = '\\' then ['\\', '\\']
  else if c = '\x08' then ['\\', 'b']
  else if c = '\x0c' then ['\\', 'f']
  else if c = '\n' then ['\\', 'n']
  else if c = '\r' then ['\\', 'r']
  else if c = '\t' then ['\\', 't']
  else if c.toNat < 32 then
    ['\\', 'u', '0', '0', Nat.digitChar (c.toNat / 16), Nat.digitChar (c.toNat % 16)]
  else [c]

def jsonString (s : String) : String :=
  "\"" ++ String.ofList (s.toList.flatMap jsonEscape) ++ "\""

def jsonArray (items : List String) : String := "[" ++ ",".intercalate items ++ "]"

def AclRule.toJson (r : AclRule) : String :=
  "\x7b\"action\":" ++ jsonString r.action ++ ",\"src\":" ++ jsonArray (r.src.map jsonString) ++
    ",\"dst\":" ++ jsonArray (r.dst.map jsonString) ++ "\x7d"

def Policy.toJson (p : Policy) : String :=
  "\x7b\"acls\":" ++ jsonArray (p.acls.map AclRule.toJson) ++ "\x7d"

def etagFor (p : Policy) (nonce : UInt64) : String :=
  let hash := fnv1a64 p.toJson.toUTF8.data.toList ^^^ (nonce * 0x100000001b3)
  let digits := Nat.toDigits 16 hash.toNat
  "\"" ++ String.ofList (List.replicate (16 - digits.length) '0' ++ digits) ++ "\""

inductive PolicyReplaceError
  | etagMismatch (current provided : String)
  | invalid (e : PolicyValidationError)
deriving DecidableEq, Repr

def PolicyReplaceError.toString : PolicyReplaceError → String
  | .etagMismatch current provided =>
    "etag mismatch: expected " ++ current ++ ", got " ++ provided
  | .invalid e => "policy rejected: " ++ e.toString

structure PolicyStore where
  policy : Policy
  etag : String
  nonce : UInt64
deriving DecidableEq, Repr

namespace PolicyStore

def new (policy : Policy) : PolicyStore := ⟨policy, etagFor policy 0, 1⟩

def current (s : PolicyStore) : Policy := s.policy

-- The nonce is drawn only once the entity tag has matched.
def replace (s : PolicyStore) (ifMatch : String) (newPolicy : Policy) :
    Except PolicyReplaceError PolicyStore :=
  match newPolicy.validate with
  | .error e => .error (.invalid e)
  | .ok () =>
    if s.etag ≠ ifMatch then .error (.etagMismatch s.etag ifMatch)
    else .ok ⟨newPolicy, etagFor newPolicy s.nonce, s.nonce + 1⟩

end PolicyStore

end ServiceMesh
