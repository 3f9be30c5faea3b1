import Corx.Base.SharedCache
import Corx.Proxy.CorsStamping
import Corx.Server.Answers

/-!
# Behind a shared cache

A shared cache in front of the proxy may answer a request with the response to another one, where
the two agree on what the response says it varies with (`MayReuse`). The CORS headers of a response
are for one origin, so `apply_cors_base` records in `Vary` that it varies with the origin, also
where it admits none. That is enough: in every run of the service with a cache in front, whatever
the cache hands out for a request is what the CORS layer would have made of that answer for this
very request, under a snapshot that was live (`handed_of_run`). No page gets the response that was
stamped for another one's origin, across any number of reloads.

The upstream has a part in it. A first `Vary` line that is not text is left alone, so responses with
such a line are left out (`VaryReadable`).
-/

namespace Corx

/-! ## What a response says it varies with -/

/-- The first `Vary` line, if there is one, is text. -/
def HeaderMap.VaryReadable (headers : HeaderMap) : Prop :=
  headers.getAll .vary = [] ∨ (headers.getStr .vary).isSome = true

/-- A cache that answers a request with a response may answer another one with it, too: it is for
the same target, and the same in all headers that the response varies with. -/
structure MayReuse (response : Response) (request request' : Request) : Prop where
  method : request'.method = request.method
  uri : request'.uri = request.uri
  limited : "*".toList ∉ response.headers.varyTokens
  fields : ∀ token ∈ response.headers.varyTokens, ∀ name, HeaderName.parse token = some name →
    request'.headers.getAll name = request.headers.getAll name

/-- Readability depends on the `Vary` lines only. -/
theorem HeaderMap.VaryReadable.congr {headers headers' : HeaderMap} (h : headers.VaryReadable)
    (hlines : headers'.getAll .vary = headers.getAll .vary) : headers'.VaryReadable := by
  unfold VaryReadable HeaderMap.getStr MultiMap.get at h ⊢
  rwa [hlines]

/-- Every stamped response says that it varies with the origin. -/
theorem origin_mem_varyTokens_applyToResponse {responseHeaders : HeaderMap}
    (h : responseHeaders.VaryReadable) (requestHeaders : HeaderMap) (policy : CorsPolicy) :
    "origin".toList ∈ (applyToResponse responseHeaders requestHeaders policy).varyTokens := by
  -- an element of the first line, in whatever case, is a token
  have hfirst : ∀ {headers : HeaderMap} {element : Str}, element ∈ headers.firstElements .vary →
      element.toAsciiLowercase = Str.toAsciiLowercase "origin" →
      "origin".toList ∈ headers.varyTokens := by
    intro headers element hmem hlower
    rw [HeaderMap.varyTokens, Set.mem_ofPred_eq, List.mem_map]
    refine ⟨element, ?_, hlower.trans (by decide)⟩
    rw [HeaderMap.flattened_eq]
    exact List.mem_append_left _ hmem
  have happended : "origin".toList ∈ (responseHeaders.appendElement .vary "origin").varyTokens :=
    hfirst (HeaderMap.mem_firstElements_appendElement isElement_origin) rfl
  rw [varyTokens_congr getAll_vary_applyToResponse]
  obtain hnil | hsome := h
  · rwa [appendVary_of_getAll_eq_nil hnil]
  · obtain ⟨line, hline⟩ := Option.isSome_iff_exists.mp hsome
    by_cases hmem : ∃ element ∈ responseHeaders.firstElements .vary,
        element.toAsciiLowercase = Str.toAsciiLowercase "origin"
    · obtain ⟨element, helement, hlower⟩ := hmem
      rw [appendVary_of_mem isElement_origin ⟨element, helement, hlower⟩]
      exact hfirst helement hlower
    · rwa [appendVary_of_not_mem isElement_origin hline hmem]

/-- The CORS layer reads the origin of a request only. -/
theorem corsLayer_of_origin {policies : LivePolicies} {requestHeaders requestHeaders' : HeaderMap}
    (h : requestHeaders'.getAll .origin = requestHeaders.getAll .origin) (response : Response) :
    corsLayer policies requestHeaders' response = corsLayer policies requestHeaders response := by
  have hget : requestHeaders'.get .origin = requestHeaders.get .origin := by
    rw [MultiMap.get, h, MultiMap.get]
  unfold corsLayer applyToResponse applyCorsBase
  rw [hget]

/-- A stamped response that may be reused for a request is stamped for that one. -/
theorem MayReuse.corsLayer_eq {policies : LivePolicies} {before : Response}
    {request request' : Request} (hbefore : before.headers.VaryReadable)
    (h : MayReuse (corsLayer policies request.headers before) request request') :
    corsLayer policies request'.headers before = corsLayer policies request.headers before :=
  corsLayer_of_origin (h.fields _ (origin_mem_varyTokens_applyToResponse hbefore _ _) .origin
    (by decide)) before

/-! ## What the layers answer with -/

variable {ι : Type} {server : Server ι} {seen seen' : List LivePolicies} {i j : ι}

/-- The upstreams' responses, and the answer to a panic, have a readable `Vary`. -/
structure Server.VaryReadable (server : Server ι) : Prop where
  upstream : ∀ i n response, ((server.inbound i).arrival.envs n).exchange = .response response →
    response.headers.VaryReadable
  panic : server.panicResponse.headers.VaryReadable

/-- An answer with a content type and nothing else has no `Vary`. -/
theorem varyReadable_typedResponse (status : StatusCode) (contentType : Str) :
    (typedResponse status contentType).headers.VaryReadable := by
  left
  rw [typedResponse, HeaderMap.getAll_insertStr_of_ne (by decide)]
  rfl

/-- An operational handler's answer has no `Vary`. -/
theorem varyReadable_opsAnswer (routeMatches : Str → Str → Bool) (build : ServerBuild)
    (ready : Bool) (request : Request) :
    (opsAnswer routeMatches build ready request).headers.VaryReadable := by
  have hhandlers : ∀ route ∈ opsHandlers build, (route.2 ready).headers.VaryReadable := by
    have hreadyz : (readyz ready).headers.VaryReadable := by
      unfold readyz
      split
      all_goals exact varyReadable_typedResponse _ _
    intro route hroute
    rcases List.mem_append.mp hroute with hfixed | hmetrics
    · simp only [List.mem_cons, List.not_mem_nil, or_false] at hfixed
      rcases hfixed with rfl | rfl | rfl | rfl | rfl
      · exact varyReadable_typedResponse _ _
      · exact varyReadable_typedResponse _ _
      · exact hreadyz
      · exact hreadyz
      · exact varyReadable_typedResponse _ _
    · split at hmetrics
      · obtain rfl := List.mem_singleton.mp hmetrics
        exact varyReadable_typedResponse _ _
      · cases hmetrics
  unfold opsAnswer
  split
  · split
    next route hroute => exact hhandlers route (List.mem_of_find?_eq_some hroute)
    next => exact varyReadable_typedResponse _ _
  · exact varyReadable_typedResponse _ _

/-- Shaping keeps what the response filter leaves of a header that it does not write. -/
theorem getAll_shapeResponseUnder {parsers : Parsers} {policies : LivePolicies}
    {redirectPolicy : RedirectPolicy} {target : TargetUrl} {response : Response} {name : HeaderName}
    (hname : name ∉ [EXPOSE_URL_HEADER, .via, .location]) :
    (shapeResponseUnder parsers policies redirectPolicy target response).headers.getAll name =
      if name ∈ policies.responseFilter.stripped response.headers then []
      else response.headers.getAll name := by
  -- the redirect policy is the only thing of the snapshot's configuration that shaping reads
  have hshaped : (shapeResponse parsers
      { policies with
        config :=
          { policies.config with limits := { policies.config.limits with redirectPolicy } } }
      target response).headers.getAll name =
        (policies.responseFilter.apply response.headers).getAll name := getAll_shapeResponse hname
  rw [HeaderFilter.apply_eq, MultiMap.getAll_removeAll] at hshaped
  exact hshaped

/-- Whatever the layers answer with has a readable `Vary`. -/
theorem Answered.varyReadable {dispatches : List Dispatch} {before : Response}
    (hserver : server.VaryReadable) (h : Answered server seen i dispatches before) :
    before.headers.VaryReadable := by
  cases h with
  -- what the service writes itself has no `Vary`, preflights apart
  | tooLarge => exact varyReadable_typedResponse _ _
  | shed => exact .inl (by decide +kernel)
  | interrupted interruption =>
    cases interruption with
    | panic => exact hserver.panic
    | timeout => exact .inl rfl
  | failed err =>
    left
    rw [ProxyError.intoResponse, HeaderMap.getAll_insertStr_of_ne (by decide),
      HeaderMap.getAll_insertStr_of_ne (by decide)]
    rfl
  | operational ready => exact varyReadable_opsAnswer _ _ _ _
  | preflight =>
    have hwritten : HeaderMap.VaryReadable (appendVary (appendVary (appendVary .empty "origin")
        "access-control-request-method") "access-control-request-headers") :=
      .inr (by decide +kernel)
    exact hwritten.congr getAll_vary_buildPreflightResponse
  | @forwarded p target redirectPolicy _ response _ hback =>
    obtain ⟨n, d, -, -, -, hexchange⟩ := hback
    have hlines : (shapeResponseUnder server.parsers p redirectPolicy target
        response).headers.getAll .vary =
          if HeaderName.vary ∈ p.responseFilter.stripped response.headers then []
          else response.headers.getAll .vary := getAll_shapeResponseUnder (by decide)
    -- a filter that strips `Vary` leaves none, and any other one leaves the upstream's lines
    split at hlines
    · exact .inl hlines
    · exact (hserver.upstream i n response hexchange).congr hlines

/-! ## A cache in front of the service -/

/-- The response is made for the request: an answer to one for the same target, stamped for this
very request under a snapshot. -/
def MadeFor (server : Server ι) (seen : List LivePolicies) (j : ι) (response : Response) : Prop :=
  ∃ i, (server.request j).method = (server.request i).method ∧
    (server.request j).uri = (server.request i).uri ∧
    ∃ q ∈ seen, ∃ dispatches before, Answered server seen i dispatches before ∧
      response = corsLayer q (server.request j).headers before

/-- The service has answered a request with a response. -/
def Service.Given (s : Service ι) (i : ι) (response : Response) : Prop :=
  ∃ dispatches, s.stage i = .finished dispatches response

/-- A cache may answer one request with the response to another one. -/
def Server.Selects (server : Server ι) (response : Response) (i j : ι) : Prop :=
  MayReuse response (server.request i) (server.request j)

namespace Service

variable [DecidableEq ι] {s : Service ι}

/-- A shared cache is transparent for the CORS headers. What carries this is that every stamped
response says that it varies with the origin. -/
theorem transparent_madeFor (hserver : server.VaryReadable) :
    SharedCache.Transparent (Step server) Given server.Selects (Sound server)
      (fun s j response => MadeFor server s.seen j response) := by
  constructor
  case good =>
    intro s e t hs hstep
    exact hs.step hstep
  case given =>
    rintro s i response hs ⟨dispatches, hfinished⟩
    obtain ⟨q, hq, before, hbefore, heq⟩ := hs.stamped hfinished
    exact ⟨i, rfl, rfl, q, hq, dispatches, before, hbefore, heq⟩
  case kept =>
    rintro s e t j response hstep ⟨i, hmethod, huri, q, hq, dispatches, before, hbefore, heq⟩
    have hseen := hstep.seen_subset
    exact ⟨i, hmethod, huri, q, hseen hq, dispatches, before, hbefore.mono hseen, heq⟩
  case selects =>
    rintro s j k response ⟨i, hmethod, huri, q, hq, dispatches, before, hbefore, rfl⟩ hselects
    refine ⟨i, hselects.method.trans hmethod, hselects.uri.trans huri, q, hq, dispatches, before,
      hbefore, ?_⟩
    -- the stamp varies with the origin, and says so, so both requests have the same one
    exact (hselects.corsLayer_eq (hbefore.varyReadable hserver)).symm

/-- However the requests, reloads and the shutdown of the service interleave with what a shared
cache in front of it stores, forgets and reuses: whatever the cache hands out for a request is an
answer of the service to one for the same target, stamped for the request it is handed out to,
under snapshots that were live. -/
theorem cached_of_run {s : SharedCache.State (Service ι) ι Response}
    {es : List (SharedCache.Event (ServiceEvent ι) ι Response)} (hserver : server.VaryReadable)
    (hrun : Run (SharedCache.Step (Step server) Given server.Selects) (.start (start server)) es
      s) :
    ∀ p ∈ s.handed, MadeFor server s.origin.seen p.1 p.2 :=
  (transparent_madeFor hserver).handed_of_run (.start server) hrun

/-- The upstream of the page's server sends no `Vary`. -/
theorem varyReadable_pagesServer : pagesServer.VaryReadable := by
  refine ⟨fun i n response hresponse => ?_, .inl rfl⟩
  cases hresponse
  exact .inl rfl

/-- Another request of the page is answered from the cache. -/
theorem cached_of_run_pages :
    ∃ s, Run (SharedCache.Step (Step pagesServer) Given pagesServer.Selects)
        (.start (start pagesServer))
        (([.arrive 0, .count 0, .work 0, .work 0, .work 0, .work 0, .stamp 0] :
            List (ServiceEvent ℕ)).map .origin ++
          [.store 0 pagesResponse, .reuse 0 1 pagesResponse])
        s ∧
      s.handed = [(1, pagesResponse)] ∧ MadeFor pagesServer s.origin.seen 1 pagesResponse := by
  obtain ⟨s, dispatches, hrun, hfinished, -⟩ := run_pagesForwarded
  have hselects : pagesServer.Selects pagesResponse 0 1 := by
    refine ⟨rfl, rfl, ?_, fun _ _ _ _ => rfl⟩
    rw [HeaderMap.varyTokens, Set.mem_ofPred_eq]
    decide +kernel
  have hgiven : Given s 0 pagesResponse := ⟨dispatches, hfinished⟩
  -- which response it is does not matter any more
  generalize pagesResponse = response at hgiven hselects ⊢
  have horigin : Run (SharedCache.Step (Step pagesServer) Given pagesServer.Selects) _ _ _ :=
    SharedCache.run_origin hrun [] []
  have hcached := horigin.append
    (.cons (.store hgiven) (.single (.reuse List.mem_cons_self hselects)))
  exact ⟨_, hcached, rfl,
    cached_of_run varyReadable_pagesServer hcached (1, response) List.mem_cons_self⟩

end Service

end Corx
