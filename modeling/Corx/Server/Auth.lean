import Mathlib.Data.List.Forall2
import Corx.Server.State

/-!
# Bearer authentication

`authLayer` decides whether a request goes on to the router. `checkBearer_eq_ok` says what a
token check accepts: the comparison folds the differences of all bytes together, which is zero
exactly for equal byte strings (`ctEq_iff`).
-/

namespace Corx

/-- Compare byte strings without an early exit. -/
def ctEq (a b : List UInt8) : Bool :=
  if a.length ≠ b.length then false
  else (a.zip b).foldl (fun diff (x, y) => diff ||| (x ^^^ y)) 0 = 0

/-- Check the `Authorization` header against the configured tokens, all of them. -/
def checkBearer (headers : HeaderMap) (tokens : List Str) : Except ProxyError Unit :=
  match headers.getStr .authorization with
  | none => .error (.unauthorized "missing Authorization header")
  | some value =>
    match (Str.stripPrefix value "Bearer ").or (Str.stripPrefix value "bearer ") with
    | none => .error (.unauthorized "expected Bearer scheme")
    | some presented =>
      -- every token is compared, also after a match
      let matched := tokens.foldl (fun found token =>
        if ctEq (Str.asBytes presented) (Str.asBytes token) then true else found) false
      if matched then .ok () else .error (.unauthorized "invalid bearer token")

/-- The operational paths: the fixed ones, and the metrics endpoint where there is one. -/
def isOpsPath (path : Str) (build : ServerBuild) : Bool :=
  path = "/" || path = "/livez" || path = "/readyz" || path = "/healthz" ||
    path = "/iscorsneeded" ||
    (!build.immutableMetricsEndpoint.isEmpty && path = build.immutableMetricsEndpoint)

/-- Enforce bearer authentication. `OPTIONS` requests and operational paths are exempt. -/
def authLayer (build : ServerBuild) (request : Request) : Except ProxyError Unit :=
  if request.method = .options || isOpsPath request.uri.path build then .ok ()
  else
    let auth := build.policies.config.security.auth
    if auth.mode ≠ .bearer then .ok ()
    else checkBearer request.headers auth.bearerTokens

/-! ## What the token check accepts -/

/-- Or-ing further differences onto a word gives zero when it is zero and they all are. -/
theorem foldl_or_xor_eq_zero (pairs : List (UInt8 × UInt8)) (diff : UInt8) :
    pairs.foldl (fun diff (x, y) => diff ||| (x ^^^ y)) diff = 0 ↔
      diff = 0 ∧ ∀ p ∈ pairs, p.1 = p.2 := by
  -- a bit once set in `diff` stays set
  induction pairs generalizing diff with
  | nil => simp
  | cons p pairs ih =>
    rw [List.foldl_cons, ih, List.forall_mem_cons, UInt8.or_eq_zero_iff, UInt8.xor_eq_zero_iff,
      and_assoc]

/-- The comparison is equality. -/
theorem ctEq_iff {a b : List UInt8} : ctEq a b = true ↔ a = b := by
  unfold ctEq
  split
  next hlen =>
    simp only [Bool.false_eq_true, false_iff]
    exact fun h => hlen (congrArg List.length h)
  next hlen =>
    have hlen : a.length = b.length := not_not.mp hlen
    rw [decide_eq_true_iff, foldl_or_xor_eq_zero, ← List.forall₂_eq_eq_eq,
      List.forall₂_iff_zip]
    -- no difference in any pair means equal lists, as the lengths agree
    constructor
    · rintro ⟨-, hall⟩
      exact ⟨hlen, fun hxy => hall _ hxy⟩
    · rintro ⟨-, hall⟩
      exact ⟨rfl, fun p hp => hall hp⟩

/-- The header map carries one of the tokens in the bearer scheme. -/
def CarriesToken (tokens : List Str) (headers : HeaderMap) : Prop :=
  ∃ value presented, headers.getStr .authorization = some value ∧
    (value = "Bearer ".toList ++ presented ∨ value = "bearer ".toList ++ presented) ∧
    ∃ token ∈ tokens, Str.asBytes presented = Str.asBytes token

/-- The loop over the tokens finds one that matches, if there is one. -/
theorem foldl_matched (presented : Str) (tokens : List Str) (found : Bool) :
    tokens.foldl (fun found token =>
        if ctEq (Str.asBytes presented) (Str.asBytes token) then true else found) found = true ↔
      found = true ∨ ∃ token ∈ tokens, Str.asBytes presented = Str.asBytes token := by
  induction tokens generalizing found with
  | nil => simp
  | cons token tokens ih =>
    rw [List.foldl_cons, ih]
    by_cases h : Str.asBytes presented = Str.asBytes token
    · simp [ctEq_iff, h]
    · simp [ctEq_iff, h]

/-- Stripping either spelling of the scheme succeeds on the texts that start with one. -/
theorem stripScheme_eq_some {value presented : Str} :
    (Str.stripPrefix value "Bearer ").or (Str.stripPrefix value "bearer ") = some presented ↔
      value = "Bearer ".toList ++ presented ∨ value = "bearer ".toList ++ presented := by
  rw [Option.or_eq_some_iff, Str.stripPrefix_eq_some, Str.stripPrefix_eq_some]
  refine or_congr_right (and_iff_right_of_imp ?_)
  rintro rfl
  -- the spellings differ in the first letter, so at most one of them is a prefix
  rw [Option.eq_none_iff_forall_not_mem]
  intro rest hrest
  have hboth := Str.stripPrefix_eq_some.mp hrest
  simp at hboth

/-- The check accepts exactly the header maps that carry a token. -/
theorem checkBearer_eq_ok {headers : HeaderMap} {tokens : List Str} :
    checkBearer headers tokens = .ok () ↔ CarriesToken tokens headers := by
  unfold checkBearer CarriesToken
  cases hvalue : headers.getStr .authorization with
  | none => simp
  | some value =>
    dsimp only
    cases hstrip : (Str.stripPrefix value "Bearer ").or (Str.stripPrefix value "bearer ") with
    | none =>
      simp only [reduceCtorEq, false_iff]
      rintro ⟨_, presented, hsome, hscheme, -⟩
      obtain rfl := Option.some.inj hsome
      rw [stripScheme_eq_some.mpr hscheme] at hstrip
      cases hstrip
    | some presented =>
      dsimp only
      have hfound := foldl_matched presented tokens false
      simp only [Bool.false_eq_true, false_or] at hfound
      constructor
      · intro hok
        split at hok
        next hmatched =>
          exact ⟨value, presented, rfl, stripScheme_eq_some.mp hstrip, hfound.mp hmatched⟩
        next => cases hok
      · rintro ⟨_, presented', hsome, hscheme, htoken⟩
        obtain rfl := Option.some.inj hsome
        obtain rfl : presented = presented' :=
          Option.some.inj (hstrip.symm.trans (stripScheme_eq_some.mpr hscheme))
        rw [if_pos (hfound.mpr htoken)]

end Corx
