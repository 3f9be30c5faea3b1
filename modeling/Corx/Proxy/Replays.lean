import Corx.Proxy.Downgrade

/-!
# Repeated methods

A follow-up never has a body, so a request with a body must not be repeated by its method, and a
`303 See Other` asks for a `GET` whatever the method was. One list of methods, `bodyBearing`,
decides both. `repeated_with_body_iff` and `chain_seeOthers_safe_iff` say for which chains that is
enough.
-/

namespace Corx

/-- A request with a body is not followed by one with the same method. -/
def NotRepeated (before after : Request) : Prop :=
  before.body ≠ [] → after.method ≠ before.method

instance : DecidableRel NotRepeated :=
  fun _ _ => inferInstanceAs (Decidable (_ → _))

/-- The location of a response is one that is followed: it names an `http` or `https` URI, and gives
up TLS only where that is allowed. -/
def LocationFollowed (parsers : Parsers) (allow : Bool) (uri : Uri) (response : Response) : Prop :=
  ∃ next, namedUri parsers uri response = some next ∧ requireSafeScheme next = .ok () ∧
    (allow = true ∨ isHttpsToHttpDowngrade uri next = false)

/-- The method of the request that follows a `303 See Other` is `GET`, or `HEAD` as before. -/
def SeeOtherSafe (before : Method) (hop : FollowUp) : Prop :=
  hop.response.status = .seeOther →
    hop.request.method = .get ∨ hop.request.method = .head ∧ before = .head

instance : DecidableRel SeeOtherSafe :=
  fun _ _ => inferInstanceAs (Decidable (_ → _))

/-- Every `303 See Other` of a chain is followed by a safe method. -/
def SeeOthersSafe : Method → List FollowUp → Prop
  | _, [] => True
  | before, hop :: hops => SeeOtherSafe before hop ∧ SeeOthersSafe hop.request.method hops

instance decidableSeeOthersSafe : DecidableRel SeeOthersSafe
  | _, [] => inferInstanceAs (Decidable True)
  | before, hop :: hops =>
    have := decidableSeeOthersSafe hop.request.method hops
    inferInstanceAs (Decidable (SeeOtherSafe before hop ∧ SeeOthersSafe hop.request.method hops))

variable {parsers : Parsers} {allow : Bool} {state state' : RedirectState} {response : Response}
  {hops : List FollowUp} {hop : FollowUp}

/-! ## One hop -/

/-- A followed location continues the chain, unless the method bears a body and is kept. -/
theorem prepareNext_of_namedUri {next : Uri}
    (hnamed : namedUri parsers state.uri response = some next)
    (hsafe : requireSafeScheme next = .ok ())
    (hkept : allow = true ∨ isHttpsToHttpDowngrade state.uri next = false) :
    prepareNext parsers state response allow =
      if !(classifyTransition state.method response.status).2 &&
          bodyBearing (classifyTransition state.method response.status).1 then
        .ok (.stop "307/308 with body-bearing method cannot be safely replayed", state)
      else
        .ok (.continueWith (state.follow response.status next).request,
          state.follow response.status next) := by
  obtain ⟨locationStr, hlocation, hresolve⟩ := Option.bind_eq_some_iff.mp hnamed
  obtain ⟨location, hget, htext⟩ := Option.bind_eq_some_iff.mp hlocation
  have hok : resolveLocation parsers state.uri locationStr = .ok next := by
    cases hresult : resolveLocation parsers state.uri locationStr with
    | error err => rw [hresult] at hresolve; cases hresolve
    | ok uri =>
      rw [hresult] at hresolve
      rw [Option.some.inj hresolve]
  have hdowngrade : (!allow && isHttpsToHttpDowngrade state.uri next) = false := by
    rcases hkept with h | h <;> rw [h]
    · rfl
    · exact Bool.and_false _
  -- every check in front of the method and the body is passed
  unfold prepareNext
  rw [hget]
  dsimp only
  rw [htext]
  dsimp only
  rw [hok]
  dsimp only
  rw [hsafe]
  dsimp only
  rw [hdowngrade, if_neg (by decide)]
  split
  · rfl
  · rw [MultiMap.empty_extend]
    rfl

/-- A hop that continues follows the location. -/
theorem locationFollowed_of_chainStep (hstep : ChainStep parsers allow state hop state') :
    LocationFollowed parsers allow state.uri hop.response := by
  obtain ⟨nextUri, -, hsafe, hkept, rfl, hrequest⟩ := prepareNext_eq_continueWith hstep
  refine ⟨nextUri, ?_, hsafe, ?_⟩
  · rw [namedUri_of_chainStep hstep, hrequest]
    rfl
  · cases allow with
    | true => exact Or.inl rfl
    | false => exact Or.inr (hkept rfl)

/-- A method that bears no body is kept. -/
theorem classifyTransition_of_not_bodyBearing {method : Method} (h : bodyBearing method = false)
    (status : StatusCode) : classifyTransition method status = (method, false) := by
  unfold classifyTransition
  rw [h]
  split <;> rfl

/-- A method that bears a body is rewritten to `GET`, or it is kept. -/
theorem classifyTransition_of_bodyBearing {method : Method} (h : bodyBearing method = true)
    (status : StatusCode) :
    classifyTransition method status = (.get, true) ∨
      status ≠ .seeOther ∧ classifyTransition method status = (method, false) := by
  unfold classifyTransition
  rw [h]
  split
  next => exact Or.inl rfl
  next hnot => exact Or.inr ⟨fun hstatus => hnot (Or.inr (Or.inr hstatus)), rfl⟩

/-- A follow-up has the method of the state after it, which is the one of the transition. -/
theorem method_of_chainStep (hstep : ChainStep parsers allow state hop state') :
    hop.request.method = state'.method ∧
      state'.method = (classifyTransition state.method hop.response.status).1 := by
  obtain ⟨nextUri, -, -, -, rfl, hrequest⟩ := prepareNext_eq_continueWith hstep
  rw [hrequest]
  exact ⟨rfl, rfl⟩

/-- A method that bears a body is only ever rewritten. -/
theorem method_of_bodyBearing (hstep : ChainStep parsers allow state hop state')
    (hbody : bodyBearing state.method = true) : state'.method = .get := by
  obtain ⟨next, hnamed, hsafe, hkept⟩ := locationFollowed_of_chainStep hstep
  rw [(method_of_chainStep hstep).2]
  rcases classifyTransition_of_bodyBearing hbody hop.response.status with h | ⟨-, h⟩
  · rw [h]
  · -- the method is not kept, for then the hop would not be continued
    have hblocked : (!(classifyTransition state.method hop.response.status).2 &&
        bodyBearing (classifyTransition state.method hop.response.status).1) = true := by
      rw [h, hbody]
      rfl
    rw [ChainStep, prepareNext_of_namedUri hnamed hsafe hkept, if_pos hblocked] at hstep
    cases (Prod.ext_iff.mp (Except.ok.inj hstep)).1

/-- No follow-up of a chain has a body. -/
theorem body_of_run (hrun : Run (ChainStep parsers allow) state hops state') :
    ∀ hop ∈ hops, hop.request.body = [] := by
  induction hrun with
  | nil s => exact fun _ hmem => nomatch hmem
  | cons hstep _ ih =>
    intro hop hmem
    rcases List.mem_cons.mp hmem with rfl | hmem
    · obtain ⟨nextUri, -, -, -, -, hrequest⟩ := prepareNext_eq_continueWith hstep
      rw [hrequest]
      rfl
    · exact ih hop hmem

/-! ## Requests with a body -/

/-- Requests without a body may be followed by any. -/
theorem isChain_notRepeated_of_body {requests : List Request}
    (h : ∀ request ∈ requests, request.body = []) : List.IsChain NotRepeated requests := by
  induction requests with
  | nil => exact .nil
  | cons before requests ih =>
    cases requests with
    | nil => exact .singleton before
    | cons after requests =>
      exact List.isChain_cons_cons.mpr
        ⟨fun hbody => absurd (h before List.mem_cons_self) hbody,
          ih fun request hmem => h request (List.mem_cons_of_mem before hmem)⟩

/-- A request whose redirect is followed is not repeated without its body exactly if it has none, or
its method bears one. -/
theorem notRepeated_iff_of_chainStep {initial : Request}
    (hstep : ChainStep parsers allow initial.redirectState hop state') :
    NotRepeated initial hop.request ↔ initial.body = [] ∨ bodyBearing initial.method = true := by
  obtain ⟨hrequest, hmethod⟩ := method_of_chainStep hstep
  unfold NotRepeated
  cases hbearing : bodyBearing initial.method with
  | true =>
    have hget : hop.request.method = .get := hrequest.trans (method_of_bodyBearing hstep hbearing)
    refine iff_of_true (fun _ hsame => ?_) (Or.inr rfl)
    rw [← hsame, hget] at hbearing
    cases hbearing
  | false =>
    have hkept : hop.request.method = initial.method := by
      rw [hrequest, hmethod]
      exact congrArg Prod.fst (classifyTransition_of_not_bodyBearing hbearing _)
    simp [hkept]

/-- A redirect to a location that is followed is continued, unless the method bears a body. -/
theorem exists_chainStep_of_locationFollowed (hbearing : bodyBearing state.method = false)
    (hfollowed : LocationFollowed parsers allow state.uri response) :
    ∃ request state', prepareNext parsers state response allow =
      .ok (.continueWith request, state') := by
  obtain ⟨next, hnamed, hsafe, hallow⟩ := hfollowed
  have hblocked : ¬ (!(classifyTransition state.method response.status).2 &&
      bodyBearing (classifyTransition state.method response.status).1) = true := by
    rw [classifyTransition_of_not_bodyBearing hbearing]
    simpa using hbearing
  exact ⟨_, _, (prepareNext_of_namedUri hnamed hsafe hallow).trans (if_neg hblocked)⟩

/-- Whatever the responses are, no request with a body is repeated without it by its method, exactly
if the initial request has no body, its method is `POST`, `PUT` or `PATCH`, or the location of
the first response is not one that is followed. -/
theorem repeated_with_body_iff (parsers : Parsers) (allow : Bool) (initial : Request)
    (responses : List Response) :
    List.IsChain NotRepeated (initial ::
        (followAll parsers allow initial.redirectState responses).1.map fun hop => hop.request) ↔
      initial.body = [] ∨ bodyBearing initial.method = true ∨
        ∀ response ∈ responses.head?, ¬ LocationFollowed parsers allow initial.uri response := by
  have hrun : Run (ChainStep parsers allow) initial.redirectState
      (followAll parsers allow initial.redirectState responses).1
      (followAll parsers allow initial.redirectState responses).2 :=
    run_followAll initial.redirectState responses
  have hbodies := body_of_run hrun
  have hlater : List.IsChain NotRepeated
      ((followAll parsers allow initial.redirectState responses).1.map fun hop => hop.request) := by
    refine isChain_notRepeated_of_body fun request hmem => ?_
    obtain ⟨hop, hhop, rfl⟩ := List.mem_map.mp hmem
    exact hbodies hop hhop
  -- only the first follow-up comes after a body
  have hfirst : List.IsChain NotRepeated (initial ::
      (followAll parsers allow initial.redirectState responses).1.map fun hop => hop.request) ↔
        ∀ hop ∈ (followAll parsers allow initial.redirectState responses).1.head?,
          NotRepeated initial hop.request := by
    rw [List.isChain_cons, and_iff_left hlater]
    cases (followAll parsers allow initial.redirectState responses).1 <;> simp
  rw [hfirst]
  cases responses with
  | nil => simp [followAll]
  | cons response responses =>
    rw [followAll]
    split
    next request state' hnext =>
      have hstep : ChainStep parsers allow initial.redirectState { response, request } state' :=
        hnext
      have hfollowed : LocationFollowed parsers allow initial.uri response :=
        locationFollowed_of_chainStep hstep
      simp [notRepeated_iff_of_chainStep hstep, hfollowed]
    next hnext =>
      -- the first hop is not continued, so its location is not followed, or the method is guarded
      cases hbearing : bodyBearing initial.method with
      | true => simp
      | false =>
        have hignored : ¬ LocationFollowed parsers allow initial.uri response := by
          intro hfollowed
          obtain ⟨request, state', hcontinued⟩ : ∃ request state',
              prepareNext parsers initial.redirectState response allow =
                .ok (.continueWith request, state') :=
            exists_chainStep_of_locationFollowed hbearing hfollowed
          exact hnext request state' hcontinued
        simp [hignored]

/-! ## See other -/

/-- A method that a `303 See Other` turns into a safe one. -/
def TurnsSafe (method : Method) : Prop :=
  method = .get ∨ method = .head ∨ bodyBearing method = true

/-- A hop whose response is no `303 See Other`, or that comes after a method that is turned safe. -/
theorem seeOtherSafe_iff_of_chainStep (hstep : ChainStep parsers allow state hop state') :
    SeeOtherSafe state.method hop ↔
      TurnsSafe state.method ∨ hop.response.status ≠ .seeOther := by
  obtain ⟨hrequest, hmethod⟩ := method_of_chainStep hstep
  unfold SeeOtherSafe TurnsSafe
  rw [hrequest]
  cases hbearing : bodyBearing state.method with
  | true =>
    rw [method_of_bodyBearing hstep hbearing]
    simp
  | false =>
    rw [hmethod, classifyTransition_of_not_bodyBearing hbearing]
    by_cases hstatus : hop.response.status = .seeOther <;> simp [hstatus]

/-- A chain keeps whether its method is one that is turned safe. -/
theorem turnsSafe_iff_of_chainStep (hstep : ChainStep parsers allow state hop state') :
    TurnsSafe state'.method ↔ TurnsSafe state.method := by
  cases hbearing : bodyBearing state.method with
  | true =>
    rw [method_of_bodyBearing hstep hbearing]
    exact iff_of_true (Or.inl rfl) (Or.inr (Or.inr hbearing))
  | false =>
    rw [(method_of_chainStep hstep).2, classifyTransition_of_not_bodyBearing hbearing]

/-- Every `303 See Other` from a state on is followed by a safe method exactly if the method of the
state is one that is turned safe, or there is none. -/
theorem seeOthersSafe_iff (hrun : Run (ChainStep parsers allow) state hops state') :
    SeeOthersSafe state.method hops ↔
      TurnsSafe state.method ∨ ∀ hop ∈ hops, hop.response.status ≠ .seeOther := by
  induction hrun with
  | nil s => exact iff_of_true trivial (Or.inr fun _ hmem => nomatch hmem)
  | cons hstep hrest ih =>
    rw [SeeOthersSafe, seeOtherSafe_iff_of_chainStep hstep, (method_of_chainStep hstep).1, ih,
      turnsSafe_iff_of_chainStep hstep, List.forall_mem_cons]
    exact or_and_left.symm

/-- Along a chain every `303 See Other` is followed by `GET`, or `HEAD` after `HEAD`, exactly if the
initial method is `GET`, `HEAD`, `POST`, `PUT` or `PATCH`, or no followed response is one. -/
theorem chain_seeOthers_safe_iff {initial : Request}
    (hrun : Run (ChainStep parsers allow) initial.redirectState hops state) :
    SeeOthersSafe initial.method hops ↔
      TurnsSafe initial.method ∨ ∀ hop ∈ hops, hop.response.status ≠ .seeOther :=
  seeOthersSafe_iff hrun

/-! ### Deleting -/

/-- A `DELETE` with a body. -/
def deleteWithBody : Request where
  method := .delete
  uri := { scheme := some "https", authority := some "a.test", path := "/items", query := none }
  headers := .empty
  body := [0x37]

/-- A redirect to another path. -/
def movedTo (status : StatusCode) : Response where
  status := status
  headers := .ofList [(.location, ⟨Str.asBytes "https://a.test/archive", by decide⟩)]

/-- The follow-ups of a `DELETE` with a body. -/
def deleteChain (status : StatusCode) : List FollowUp × RedirectState :=
  followAll .plain false deleteWithBody.redirectState [movedTo status]

/-- A `307 Temporary Redirect` repeats a `DELETE` with a body without it. -/
theorem delete_repeated_without_body :
    ((deleteChain .temporaryRedirect).1.map fun hop => (hop.request.method, hop.request.body)) =
        [(.delete, [])] ∧
      ¬ List.IsChain NotRepeated
        (deleteWithBody :: (deleteChain .temporaryRedirect).1.map fun hop => hop.request) := by
  decide +kernel

/-- `chain_seeOthers_safe_iff` for a `POST` that is sent elsewhere and back. -/
theorem chain_seeOthers_safe_iff_post :
    SeeOthersSafe postWithToken.method thereAndBack.1 ↔
      TurnsSafe postWithToken.method ∨ ∀ hop ∈ thereAndBack.1, hop.response.status ≠ .seeOther :=
  chain_seeOthers_safe_iff (run_followAll _ _)

/-- A `303 See Other` repeats a `DELETE`. -/
theorem seeOther_repeats_delete :
    ∃ hops state, Run (ChainStep .plain false) deleteWithBody.redirectState hops state ∧
      (hops.map fun hop => (hop.response.status, hop.request.method)) = [(.seeOther, .delete)] ∧
      ¬ SeeOthersSafe deleteWithBody.method hops := by
  refine ⟨_, _, run_followAll _ [movedTo .seeOther], ?_⟩
  decide +kernel

end Corx
