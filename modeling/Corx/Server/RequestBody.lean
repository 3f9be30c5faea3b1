import Corx.Server.Handler
import Corx.Server.Metering

/-!
# Request bodies on their way upstream

The proxy handler takes the body of the raw request and hands it to the upstream client through
`axum_to_upstream_body`: counted, and with its failures renamed. The limit on request bodies is
`axum`'s `DefaultBodyLimit`, which the router layers around the handler. `axum` applies it to
bodies that are read by extractors; a raw body passes it as it is, which is what
`DefaultBodyLimit` says here. So every byte of the inbound body reaches the upstream client
(`dataOf_polls_handedBody`), and the configured maximum is kept exactly where the client keeps
to it (`requestBodyCapped_iff`).
-/

namespace Corx

open Body (Polled Source MapErr pollFrame polls dataOf)

variable {E : Type}

/-- The layer `DefaultBodyLimit::max` of `axum`: the body that a handler of the raw request
finds behind a layer with the given limit. -/
structure DefaultBodyLimit (E : Type) where
  raw : ℕ → Source HeaderMap E → Source HeaderMap E
  /-- The limit is for extractors: a raw body is not wrapped. -/
  raw_eq : ∀ limit body, raw limit body = body

/-- The limit that the router configures; `usizeMax` is the largest `usize` of the target. -/
def bodyLimit (usizeMax : ℕ) (maxBody : UInt64) : ℕ :=
  if maxBody.toNat ≤ usizeMax then maxBody.toNat else usizeMax

/-- Count a body, and turn its failures into errors of the proxy; `display` is their text. -/
def axumToUpstreamBody {B : Type} (display : E → Str) (body : B) :
    MapErr (CountingBody B) E ProxyError where
  inner := .new body "request"
  f err := .internal (display err)

/-- What the handler hands to the upstream client for an inbound body. -/
def handedBody (layer : DefaultBodyLimit E) (usizeMax : ℕ) (maxBody : UInt64) (display : E → Str)
    (inbound : Source HeaderMap E) : MapErr (CountingBody (Source HeaderMap E)) E ProxyError :=
  axumToUpstreamBody display (layer.raw (bodyLimit usizeMax maxBody) inbound)

variable {layer : DefaultBodyLimit E} {usizeMax : ℕ} {maxBody : UInt64} {display : E → Str}
  {inbound : Source HeaderMap E}

/-- The upstream client gets the polls of the inbound body, with their failures renamed. -/
theorem polls_handedBody (n : ℕ) :
    polls n (handedBody layer usizeMax maxBody display inbound) =
      (polls n inbound).map (Polled.mapErr fun err => .internal (display err)) := by
  rw [handedBody, axumToUpstreamBody, Body.polls_mapErr, polls_countingBody, CountingBody.new,
    layer.raw_eq]

/-- The upstream client gets the data of the inbound body. -/
theorem dataOf_polls_handedBody (n : ℕ) :
    dataOf (polls n (handedBody layer usizeMax maxBody display inbound)) =
      dataOf (polls n inbound) := by
  rw [polls_handedBody, Body.dataOf_map_mapErr]

/-- The body comes to its end, and its data are the given bytes. -/
def Yields {B F : Type} [Body B HeaderMap F] (body : B) (bytes : List UInt8) : Prop :=
  ∃ n, (polls n body).getLast? = some .finished ∧ dataOf (polls n body) = bytes

/-- The body of the outbound request is what the upstream client gets to read. -/
theorem yields_outbound_body {parsers : Parsers} {build : ServerBuild}
    {request outbound : Request} {target : TargetUrl} {clientIp : IpAddr} {requestId : Str}
    (hinbound : Yields inbound request.body)
    (h : outboundRequest parsers build request target clientIp requestId = .ok outbound) :
    Yields (handedBody layer usizeMax maxBody display inbound) outbound.body := by
  have hbody : outbound.body = request.body := by
    unfold outboundRequest at h
    split at h
    · cases h
    · obtain rfl := Except.ok.inj h
      rfl
  obtain ⟨n, hend, hdata⟩ := hinbound
  refine ⟨n, ?_, by rw [dataOf_polls_handedBody, hdata, hbody]⟩
  rw [polls_handedBody, List.getLast?_map, hend]
  rfl

/-- The body handed on is capped: it never has more than `limit` bytes, and where the inbound
body has more it ends in an error. -/
def RequestBodyCapped {B F : Type} [Body B HeaderMap F] (limit : ℕ)
    (inbound : Source HeaderMap E) (handed : B) : Prop :=
  (∀ n, (dataOf (polls n handed)).length ≤ limit) ∧
    ((∃ n, limit < (dataOf (polls n inbound)).length) → ∃ n err, .failed err ∈ polls n handed)

/-- The request body is capped exactly if the inbound body is within the limit by itself. -/
theorem requestBodyCapped_iff (layer : DefaultBodyLimit E) (usizeMax : ℕ) (maxBody : UInt64)
    (display : E → Str) (inbound : Source HeaderMap E) :
    RequestBodyCapped maxBody.toNat inbound
        (handedBody layer usizeMax maxBody display inbound) ↔
      ∀ n, (dataOf (polls n inbound)).length ≤ maxBody.toNat := by
  constructor
  · intro hcapped n
    have hdata : dataOf (polls n (handedBody layer usizeMax maxBody display inbound)) =
        dataOf (polls n inbound) := dataOf_polls_handedBody n
    rw [← hdata]
    exact hcapped.1 n
  · intro hwithin
    refine ⟨fun n => (dataOf_polls_handedBody n).symm ▸ hwithin n, ?_⟩
    rintro ⟨n, hover⟩
    exact absurd (hwithin n) (Nat.not_le.mpr hover)

/-- The layer as `axum` documents it. -/
def DefaultBodyLimit.documented (E : Type) : DefaultBodyLimit E where
  raw _ body := body
  raw_eq _ _ := rfl

/-- An upload of five bytes in two frames. -/
def upload : Source HeaderMap Str where
  script
    | 0 => .frame (.data [1, 2, 3])
    | 1 => .frame (.data [4, 5])
    | _ => .finished

/-- With a limit of four bytes the upload is handed on in full. -/
theorem upload_not_capped :
    ¬ RequestBodyCapped (4 : UInt64).toNat upload
      (handedBody (.documented Str) (2 ^ 64 - 1) 4 id upload) := by
  rintro ⟨hcap, -⟩
  have hlen := hcap 3
  rw [dataOf_polls_handedBody] at hlen
  revert hlen
  decide +kernel

end Corx
