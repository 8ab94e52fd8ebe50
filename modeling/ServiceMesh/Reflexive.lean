import ServiceMesh.StdNetRoundTrip

/-! The endpoint other peers should dial: a self-reported one verbatim, else the address the
coordinator observed combined with the reported WireGuard port. -/

namespace ServiceMesh

open StdNet (Ipv4Addr Ipv6Addr IpAddr SocketAddr)

def isUnreachableV4 (a : Ipv4Addr) : Bool :=
  -- loopback
  a.octet0 == 127 ||
  -- private
  (a.octet0 == 10 || (a.octet0 == 172 && a.octet1 &&& 0xf0 == 16) ||
    (a.octet0 == 192 && a.octet1 == 168)) ||
  -- link-local
  (a.octet0 == 169 && a.octet1 == 254) ||
  -- unspecified
  (a.octet0 == 0 && a.octet1 == 0 && a.octet2 == 0 && a.octet3 == 0) ||
  (a.octet0 == 100 && a.octet1 &&& 0b11000000 == 0b01000000)

def isUnreachableV6 (a : Ipv6Addr) : Bool :=
  a == ⟨0, 0, 0, 0, 0, 0, 0, 1⟩ || a == ⟨0, 0, 0, 0, 0, 0, 0, 0⟩ ||
    a.seg0 &&& 0xfe00 == 0xfc00 || a.seg0 &&& 0xffc0 == 0xfe80

def isUnreachableForPeers : IpAddr → Bool
  | .v4 a => isUnreachableV4 a
  | .v6 a => isUnreachableV6 a

def isPublic (ip : IpAddr) : Bool := !isUnreachableForPeers ip

structure ResolvedEndpoint where
  endpoint : Option String
  reflexive : Bool
deriving DecidableEq, Repr

def reflexiveEndpoint (ip : IpAddr) (wgPort : UInt16) : String :=
  (SocketAddr.new ip wgPort).toString

def resolveListenEndpoint (selfReported : Option String) (observed : Option SocketAddr)
    (wgListenPort : Option UInt16) (relayOnly : Bool) : ResolvedEndpoint :=
  if relayOnly then ⟨none, false⟩
  else
    match selfReported.filter (fun s => s ≠ ""), observed, wgListenPort with
    | some reported, _, _ => ⟨some reported, false⟩
    | none, some obs, some port =>
      if isPublic obs.ip then ⟨some (reflexiveEndpoint obs.ip port), true⟩ else ⟨none, false⟩
    | none, _, _ => ⟨none, false⟩

theorem resolveListenEndpoint_ne_empty (selfReported : Option String)
    (observed : Option SocketAddr) (wgListenPort : Option UInt16) (relayOnly : Bool) :
    (resolveListenEndpoint selfReported observed wgListenPort relayOnly).endpoint ≠ some "" := by
  unfold resolveListenEndpoint
  split
  · simp
  · split
    · rename_i h
      intro hc
      rw [Option.some.inj hc] at h
      simp [Option.filter_eq_some_iff] at h
    · split
      · simp [reflexiveEndpoint, StdNet.SocketAddr.toString_ne_empty]
      · simp
    · simp

end ServiceMesh
