import Corx.Server.Answers

/-!
# Request headers without influence

A request header that the request filter strips, and that nothing reads before, is discarded: the
hop-by-hop headers, those that `Connection` names, and those of the operator's list. Nobody who
sees the service can tell what a client has put there. Let the discarded headers of any requests
be replaced by others of the same acceptable size: the service takes the same steps to the same
states, with the same requests dispatched and the same responses (`run_replacing_iff`).
-/

namespace Corx

/-- The names that are read before the request filter strips any, or by the CORS layer around
it. -/
def READ_UNFILTERED : List HeaderName :=
  [.authorization, .origin, .host, .connection, ACCESS_CONTROL_REQUEST_METHOD,
    ACCESS_CONTROL_REQUEST_HEADERS, ACR_PRIVATE_NETWORK]

/-- The name is stripped from requests with these headers, and not read before. -/
structure LivePolicies.Discards (p : LivePolicies) (headers : HeaderMap) (name : HeaderName) :
    Prop where
  stripped : name ∈ p.requestFilter.stripped headers
  unread : name ∉ READ_UNFILTERED
  notRequired : ∀ raw ∈ p.guard.origin.requiredHeaderAnyOf, HeaderName.parse raw ≠ some name

/-- Hop-by-hop headers are discarded, unless the configuration requires them. -/
theorem LivePolicies.discards_of_mem_hopByHop {p : LivePolicies} {headers : HeaderMap}
    {name : HeaderName} (hname : name ∈ HOP_BY_HOP) (hconnection : name ≠ .connection)
    (hrequired : ∀ raw ∈ p.guard.origin.requiredHeaderAnyOf, HeaderName.parse raw ≠ some name) :
    p.Discards headers name where
  stripped := List.mem_append_left _ (List.mem_append_right _ hname)
  unread := by
    have hothers : ∀ name ∈ HOP_BY_HOP, name ≠ .connection → name ∉ READ_UNFILTERED := by decide
    exact hothers name hname hconnection
  notRequired := hrequired

/-! ## One request -/

/-- The same request with other headers. -/
def Request.withHeaders (request : Request) (headers : HeaderMap) : Request :=
  { request with headers }

/-- The same arrival with other headers. -/
def Arrival.withHeaders (arrival : Arrival) (headers : HeaderMap) : Arrival :=
  { arrival with request := arrival.request.withHeaders headers }

@[simp]
theorem Arrival.request_withHeaders (arrival : Arrival) (headers : HeaderMap) :
    (arrival.withHeaders headers).request = arrival.request.withHeaders headers := rfl

@[simp]
theorem Arrival.clientIp_withHeaders (arrival : Arrival) (headers : HeaderMap) :
    (arrival.withHeaders headers).clientIp = arrival.clientIp := rfl

@[simp]
theorem Arrival.requestId_withHeaders (arrival : Arrival) (headers : HeaderMap) :
    (arrival.withHeaders headers).requestId = arrival.requestId := rfl

/-- Every name that is read unfiltered has the same values. -/
def SameUnfiltered (a b : HeaderMap) : Prop :=
  ∀ name ∈ READ_UNFILTERED, a.getAll name = b.getAll name

section OneRequest

variable {p : LivePolicies} {names : Set HeaderName} {a b : HeaderMap} {request : Request}
  {build : ServerBuild}

/-- A header that is read unfiltered has the same first value. -/
theorem SameUnfiltered.get_eq (h : SameUnfiltered a b) (name : HeaderName)
    (hname : name ∈ READ_UNFILTERED) : a.get name = b.get name := by
  rw [MultiMap.get, MultiMap.get, h name hname]

/-- A header that is read unfiltered has the same text. -/
theorem SameUnfiltered.getStr_eq (h : SameUnfiltered a b) (name : HeaderName)
    (hname : name ∈ READ_UNFILTERED) : a.getStr name = b.getStr name := by
  rw [HeaderMap.getStr, HeaderMap.getStr, h.get_eq name hname]

/-- A header that is read unfiltered is there on both sides or on neither. -/
theorem SameUnfiltered.containsKey_eq (h : SameUnfiltered a b) (name : HeaderName)
    (hname : name ∈ READ_UNFILTERED) : a.containsKey name = b.containsKey name := by
  rw [MultiMap.containsKey, MultiMap.containsKey, h name hname]

/-- Headers that agree but for discarded ones are the same where they are read unfiltered. -/
theorem sameUnfiltered_of_discards (hagree : MultiMap.AgreeOff names a b)
    (hdiscards : ∀ name ∈ names, p.Discards a name) : SameUnfiltered a b :=
  fun _ hname => hagree fun hdiscarded => (hdiscards _ hdiscarded).unread hname

/-- The filter leaves the same of headers that agree but for discarded ones. -/
theorem apply_requestFilter_congr (hagree : MultiMap.AgreeOff names a b)
    (hdiscards : ∀ name ∈ names, p.Discards a name) :
    p.requestFilter.apply a = p.requestFilter.apply b := by
  have hread := sameUnfiltered_of_discards hagree hdiscards
  have hstripped := p.requestFilter.stripped_congr (hread.get_eq .connection (by decide))
  rw [HeaderFilter.apply_eq, HeaderFilter.apply_eq, ← hstripped]
  exact hagree.eq_of_removed fun name hname => (hdiscards name hname).stripped

/-- The authentication layer judges a request by headers that are read unfiltered. -/
theorem authLayer_congr (h : SameUnfiltered request.headers b) :
    authLayer build (request.withHeaders b) = authLayer build request := by
  unfold authLayer checkBearer
  rw [h.getStr_eq .authorization (by decide)]
  rfl

/-- A request is a preflight by headers that are read unfiltered. -/
theorem isPreflight_congr (method : Method) (h : SameUnfiltered a b) :
    isPreflight method a = isPreflight method b := by
  rw [isPreflight, isPreflight, h.containsKey_eq .origin (by decide),
    h.containsKey_eq ACCESS_CONTROL_REQUEST_METHOD (by decide)]

/-- Every response gets its CORS headers by the origin. -/
theorem applyCorsBase_congr (headers : HeaderMap) (policy : CorsPolicy) (h : SameUnfiltered a b) :
    applyCorsBase headers a policy = applyCorsBase headers b policy := by
  rw [applyCorsBase, applyCorsBase, h.get_eq .origin (by decide)]

/-- The CORS layer stamps a response by the origin. -/
theorem corsLayer_congr {response : Response} (h : SameUnfiltered request.headers b) :
    corsLayer p (request.withHeaders b).headers response =
      corsLayer p request.headers response := by
  unfold corsLayer applyToResponse
  rw [applyCorsBase_congr _ _ h]
  rfl

/-- A preflight is answered by headers that are read unfiltered. -/
theorem buildPreflightResponse_congr (policy : CorsPolicy) (h : SameUnfiltered a b) :
    buildPreflightResponse a policy = buildPreflightResponse b policy := by
  unfold buildPreflightResponse
  rw [applyCorsBase_congr _ policy h, h.get_eq ACCESS_CONTROL_REQUEST_METHOD (by decide),
    h.get_eq ACCESS_CONTROL_REQUEST_HEADERS (by decide),
    h.containsKey_eq ACR_PRIVATE_NETWORK (by decide)]

/-- The origin policy does not ask for discarded headers. -/
theorem evaluate_congr (method : Method) (hagree : MultiMap.AgreeOff names a b)
    (hdiscards : ∀ name ∈ names, p.Discards a name) :
    p.guard.origin.evaluate method a = p.guard.origin.evaluate method b := by
  have hread := sameUnfiltered_of_discards hagree hdiscards
  have hrequired : (p.guard.origin.requiredHeaderAnyOf.any fun raw =>
        (HeaderName.parse raw).any fun name => a.containsKey name) =
      p.guard.origin.requiredHeaderAnyOf.any fun raw =>
        (HeaderName.parse raw).any fun name => b.containsKey name := by
    rw [Bool.eq_iff_iff, List.any_eq_true, List.any_eq_true]
    refine exists_congr fun raw => and_congr_right fun hraw => ?_
    cases hparse : HeaderName.parse raw with
    | none => exact Iff.rfl
    | some name =>
      have hkept : name ∉ names := fun hname => (hdiscards name hname).notRequired raw hraw hparse
      rw [Option.any_some, Option.any_some, MultiMap.containsKey, MultiMap.containsKey,
        hagree hkept]
  unfold OriginPolicy.evaluate
  rw [hread.getStr_eq .origin (by decide), hrequired]

/-- The guards of the proxy handler treat both requests alike. -/
theorem serve_congr {parsers : Parsers} {clientIp : IpAddr}
    (hagree : MultiMap.AgreeOff names request.headers b)
    (hdiscards : ∀ name ∈ names, p.Discards request.headers name) :
    serve parsers p (request.withHeaders b) clientIp = serve parsers p request clientIp := by
  have hread := sameUnfiltered_of_discards hagree hdiscards
  have horigin : p.guard.checkOrigin (request.withHeaders b) = p.guard.checkOrigin request :=
    (evaluate_congr request.method hagree hdiscards).symm
  have hrate : ∀ targetHost, p.guard.checkRate (request.withHeaders b) clientIp targetHost =
      p.guard.checkRate request clientIp targetHost := by
    intro targetHost
    unfold RequestGuard.checkRate
    rw [hread.getStr_eq .origin (by decide)]
    rfl
  unfold serve
  rw [horigin, isPreflight_congr _ hread, buildPreflightResponse_congr _ hread]
  simp only [hrate]
  rfl

/-- Both requests go out the same. -/
theorem outboundRequest_withHeaders {parsers : Parsers} {target : TargetUrl} {clientIp : IpAddr}
    {requestId : Str} (hagree : MultiMap.AgreeOff names request.headers b)
    (hdiscards : ∀ name ∈ names, p.Discards request.headers name) :
    outboundRequest parsers { build with policies := p } (request.withHeaders b) target clientIp
        requestId =
      outboundRequest parsers { build with policies := p } request target clientIp requestId := by
  have hread := sameUnfiltered_of_discards hagree hdiscards
  have hheaders : outboundHeaders { build with policies := p } (request.withHeaders b) target
      clientIp requestId =
        outboundHeaders { build with policies := p } request target clientIp requestId := by
    unfold outboundHeaders injectedHeaders inboundContext
    rw [hread.getStr_eq .host (by decide), apply_requestFilter_congr hagree hdiscards]
    rfl
  unfold outboundRequest
  rw [hheaders]
  rfl

/-- A stage takes a request to the same place, whatever its discarded headers are. -/
theorem read_withHeaders {parsers : Parsers} {routeMatches : Str → Str → Bool} {arrival : Arrival}
    (hagree : MultiMap.AgreeOff names arrival.request.headers b)
    (hdiscards : ∀ name ∈ names, p.Discards arrival.request.headers name) (phase : RequestPhase) :
    (arrival.withHeaders b).read parsers routeMatches build p phase =
      arrival.read parsers routeMatches build p phase := by
  have hread := sameUnfiltered_of_discards hagree hdiscards
  cases phase with
  | arrived =>
    rw [Arrival.read, Arrival.read, Arrival.authenticate, Arrival.authenticate,
      Arrival.request_withHeaders, authLayer_congr hread]
  | authorized =>
    rw [Arrival.read, Arrival.read, Arrival.guard, Arrival.guard, Arrival.request_withHeaders,
      Arrival.clientIp_withHeaders, serve_congr hagree hdiscards]
    rfl
  | admitted target =>
    rw [Arrival.read, Arrival.read, Arrival.fetch, Arrival.fetch, Arrival.request_withHeaders,
      Arrival.clientIp_withHeaders, Arrival.requestId_withHeaders,
      outboundRequest_withHeaders hagree hdiscards]
    rfl
  | fetched => rfl
  | answered answer =>
    rw [Arrival.read, Arrival.read, Arrival.request_withHeaders, corsLayer_congr hread]
  | finished => rfl
  | dropped => rfl

end OneRequest

/-! ## The service -/

namespace Server

variable {ι : Type}

/-- The same server with other requests. -/
def replacing (server : Server ι) (inbound : ι → Inbound) : Server ι :=
  { server with inbound }

@[simp]
theorem inbound_replacing (server : Server ι) (inbound : ι → Inbound) :
    (server.replacing inbound).inbound = inbound := rfl

/-- The requests differ in the headers that `names` has for them only, and are within the limit
or not on both sides. -/
structure Alike (server : Server ι) (names : ι → Set HeaderName) (inbound : ι → Inbound) :
    Prop where
  arrival : ∀ i, (inbound i).arrival =
    (server.inbound i).arrival.withHeaders (inbound i).arrival.request.headers
  headers : ∀ i, MultiMap.AgreeOff (names i) (server.request i).headers
    (inbound i).arrival.request.headers
  fits : ∀ i, (server.replacing inbound).fits i = server.fits i

variable {server : Server ι} {names : ι → Set HeaderName} {inbound : ι → Inbound}
  {p : LivePolicies}

/-- A stage takes the two requests to the same place. -/
theorem Alike.read_eq (h : server.Alike names inbound) {i : ι}
    (hdiscards : ∀ name ∈ names i, p.Discards (server.request i).headers name) (ready : Bool)
    (phase : RequestPhase) :
    (server.replacing inbound).read ready p i phase = server.read ready p i phase := by
  have harrival : (server.replacing inbound).arrivalAt ready i =
      (server.arrivalAt ready i).withHeaders (inbound i).arrival.request.headers := by
    unfold arrivalAt request
    rw [inbound_replacing, h.arrival i]
    rfl
  unfold read
  rw [harrival]
  have hagree : MultiMap.AgreeOff (names i) (server.arrivalAt ready i).request.headers
      (inbound i).arrival.request.headers := h.headers i
  exact read_withHeaders hagree hdiscards phase

/-- The other request is the same one with other headers. -/
theorem Alike.request_eq (h : server.Alike names inbound) (i : ι) :
    (server.replacing inbound).request i =
      (server.request i).withHeaders (inbound i).arrival.request.headers := by
  unfold request
  rw [inbound_replacing, h.arrival i]
  rfl

end Server

namespace Service

variable {ι : Type} [DecidableEq ι] {server : Server ι} {names : ι → Set HeaderName}
  {inbound : ι → Inbound} {s t : Service ι} {e : ServiceEvent ι} {es : List (ServiceEvent ι)}

/-- Every snapshot discards the headers that `names` has for a request. -/
def AllDiscard (server : Server ι) (names : ι → Set HeaderName) (seen : List LivePolicies) :
    Prop :=
  ∀ p ∈ seen, ∀ i, ∀ name ∈ names i, p.Discards (server.request i).headers name

omit [DecidableEq ι] in
/-- A future is dropped with the same dispatches. -/
theorem abandons_replacing (halike : server.Alike names inbound) {i : ι}
    (hdiscards : ∀ name ∈ names i, s.live.Discards (server.request i).headers name)
    {phase : RequestPhase} {dispatches : List Dispatch}
    (h : Abandons server s i phase dispatches) :
    Abandons (server.replacing inbound) s i phase dispatches := by
  rw [Abandons, halike.read_eq hdiscards]
  exact h

/-- A step of the service is one with the other requests, too. -/
theorem Step.replacing (halike : server.Alike names inbound)
    (hdiscards : ∀ i, ∀ name ∈ names i, s.live.Discards (server.request i).headers name)
    (h : Step server s e t) : Step (server.replacing inbound) s e t := by
  cases h with
  | arrive hstage hlifecycle => exact .arrive hstage hlifecycle
  | tooLarge hstage hfits => exact .tooLarge hstage ((halike.fits _).trans hfits)
  | count hstage hfits => exact .count hstage ((halike.fits _).trans hfits)
  | shed hstage => exact .shed hstage
  | @work i phase hstage hnext =>
    have hread := halike.read_eq (hdiscards i) s.ready phase
    rw [← hread]
    refine .work hstage fun dispatches => ?_
    rw [hread]
    exact hnext dispatches
  | interrupt interruption hstage habandons =>
    exact .interrupt interruption hstage (abandons_replacing halike (hdiscards _) habandons)
  | cancel hstage habandons =>
    exact .cancel hstage (abandons_replacing halike (hdiscards _) habandons)
  | @stamp i dispatches response hstage =>
    have hread := sameUnfiltered_of_discards (halike.headers i) (hdiscards i)
    rw [← corsLayer_congr hread, ← halike.request_eq]
    exact .stamp hstage
  | reload hmay => exact .reload hmay
  | signal hserving => exact .signal hserving
  | deadline hdraining => exact .deadline hdraining
  | exit hlifecycle hidle => exact .exit hlifecycle hidle

/-- The live snapshot stays among those that are remembered. -/
theorem Step.live_mem (h : Step server s e t) (hs : s.live ∈ s.seen) : t.live ∈ t.seen := by
  cases he : e.request? with
  | some i =>
    obtain ⟨inflight, stage, rfl⟩ := h.eq_of_request he
    exact hs
  | none =>
    cases h <;> cases he
    case none.reload.refl => exact List.mem_cons_self
    all_goals exact hs

/-- Snapshots stay remembered along a run. -/
theorem seen_subset_of_run (h : Run (Step server) s es t) : s.seen ⊆ t.seen := by
  induction h with
  | nil _ => exact fun _ hp => hp
  | cons hstep _ ih => exact fun _ hp => ih (hstep.seen_subset hp)

/-- A run of the service is one with the other requests, too. -/
theorem run_replacing (halike : server.Alike names inbound) (hlive : s.live ∈ s.seen)
    (hdiscards : AllDiscard server names t.seen) (h : Run (Step server) s es t) :
    Run (Step (server.replacing inbound)) s es t := by
  induction h with
  | nil s => exact .nil s
  | cons hstep hrest ih =>
    have hseen := seen_subset_of_run (.cons hstep hrest) hlive
    exact .cons (hstep.replacing halike (hdiscards _ hseen)) (ih (hstep.live_mem hlive) hdiscards)

end Service

/-- What one side discards the other does, as the first `Connection` header is the same. -/
theorem LivePolicies.Discards.of_agreeOff {p : LivePolicies} {names : Set HeaderName}
    {a b : HeaderMap} (hagree : MultiMap.AgreeOff names a b)
    (hdiscards : ∀ name ∈ names, p.Discards a name) {name : HeaderName} (hname : name ∈ names) :
    p.Discards b name := by
  have hread := sameUnfiltered_of_discards hagree hdiscards
  have hdiscarded := hdiscards name hname
  refine { hdiscarded with stripped := ?_ }
  rw [← HeaderFilter.stripped_congr p.requestFilter (hread.get_eq .connection (by decide))]
  exact hdiscarded.stripped

/-- However requests, reloads and the shutdown interleave, nobody can tell the discarded headers of
requests. With others in their place the service takes exactly the same steps to exactly the same
states: the same requests are rejected, the same are dispatched, and the responses are the same. -/
theorem Service.run_replacing_iff {ι : Type} [DecidableEq ι] {server : Server ι}
    {names : ι → Set HeaderName} {inbound : ι → Inbound} {es : List (ServiceEvent ι)}
    {s : Service ι} (halike : server.Alike names inbound)
    (hdiscards : AllDiscard server names s.seen) :
    Run (Step (server.replacing inbound)) (.start server) es s ↔
      Run (Step server) (.start server) es s := by
  constructor
  · intro hrun
    have hback : (server.replacing inbound).Alike names server.inbound := by
      refine ⟨fun i => ?_, fun i => (halike.headers i).symm, fun i => (halike.fits i).symm⟩
      rw [Server.inbound_replacing, halike.arrival i]
      rfl
    have hdiscarded : AllDiscard (server.replacing inbound) names s.seen :=
      fun p hp i _ hname => .of_agreeOff (halike.headers i) (hdiscards p hp i) hname
    have hrun' := run_replacing hback (List.mem_singleton_self _) hdiscarded hrun
    exact hrun'
  · exact run_replacing halike (List.mem_singleton_self _) hdiscards

/-! ## A header for one hop -/

/-- `te`. -/
def TE : HeaderName := (HeaderName.parse "te").get (by decide)

/-- A page's request that accepts trailers. -/
def trailersInbound : Inbound where
  arrival := pagesInbound.arrival.withHeaders
    (.ofList (pagesInbound.lines ++ [(TE, (HeaderValue.fromStr "trailers").get (by decide))]))
  lines := pagesInbound.lines ++ [(TE, (HeaderValue.fromStr "trailers").get (by decide))]
  headers_eq := rfl

/-- With `TE` the page's request is forwarded and answered as it is without. -/
theorem Service.run_replacing_iff_trailers :
    ∃ s dispatches, Run (Step (pagesServer.replacing fun _ => trailersInbound)) (.start pagesServer)
        [.arrive 0, .count 0, .work 0, .work 0, .work 0, .work 0, .stamp 0] s ∧
      s.stage 0 = .finished dispatches pagesResponse ∧ dispatches.length = 1 := by
  have hagree : MultiMap.AgreeOff {TE} pagesInbound.arrival.request.headers
      trailersInbound.arrival.request.headers := by
    intro name hname
    have hother : ∀ (headers : HeaderMap) value,
        (headers.append TE value).getAll name = headers.getAll name :=
      fun headers value => Function.update_of_ne hname ..
    exact (hother _ _).symm
  have hfits : (pagesServer.replacing fun _ => trailersInbound).fits 0 = pagesServer.fits 0 := by
    decide +kernel
  have halike : pagesServer.Alike (fun _ => {TE}) fun _ => trailersInbound :=
    ⟨fun _ => rfl, fun _ => hagree, fun _ => hfits⟩
  obtain ⟨s, dispatches, hrun, hfinished, hlength, hseen⟩ := run_pagesForwarded
  refine ⟨s, dispatches, (run_replacing_iff halike ?_).mpr hrun, hfinished, hlength⟩
  intro p hp i name hname
  rw [hseen] at hp
  obtain rfl := List.mem_singleton.mp hp
  obtain rfl := Set.mem_singleton_iff.mp hname
  exact LivePolicies.discards_of_mem_hopByHop (by decide) (by decide) (by decide +kernel)

end Corx
