import Corx.Policy.Target

/-!
# Spellings of a host name

A DNS name has spellings that differ in letter case and in a root dot at the end. The target
policy folds the case and takes the dot as part of the text: a pattern with a root dot matches
the spellings that have one, and a pattern without matches the others. So a denied host is
admitted under its dotted spelling (`dotted_spelling_admitted`). The verdicts agree exactly where
a name is covered by patterns of both kinds or of none (`sameVerdict_iff`).
-/

namespace Corx

/-- The DNS name of a host: in lower case, without a root dot at the end. -/
def dnsName (host : Str) : Str :=
  if host.toAsciiLowercase.getLast? = some '.' then host.toAsciiLowercase.dropLast
  else host.toAsciiLowercase

/-! ## What a pattern stands for -/

/-- The text ends in a root dot. -/
def IsRooted (text : Str) : Prop :=
  text.getLast? = some '.'

instance (text : Str) : Decidable (IsRooted text) :=
  inferInstanceAs (Decidable (text.getLast? = some '.'))

/-- The text with a root dot. -/
def rooted (text : Str) : Str :=
  if IsRooted text then text else text ++ ['.']

/-- A pattern without its leading dot. -/
def patternName (pattern : Str) : Str :=
  (Str.stripPrefix pattern ['.']).getD pattern

/-- The DNS names that a pattern stands for, however it and the name are spelled: the name itself,
and behind a dot all names below it, too. -/
def Covers (pattern name : Str) : Prop :=
  rooted name = rooted (patternName pattern) ∨
    pattern.head? = some '.' ∧ rooted pattern <:+ rooted name

/-! ## Patterns and spellings -/

/-- A text that is rooted ends in the root dot. -/
theorem rooted_of_isRooted {text : Str} (h : IsRooted text) : rooted text = text :=
  if_pos h

/-- A text that is not gets one. -/
theorem rooted_of_not_isRooted {text : Str} (h : ¬ IsRooted text) : rooted text = text ++ ['.'] :=
  if_neg h

/-- A text with a dot at its end is rooted. -/
theorem isRooted_append (text : Str) : IsRooted (text ++ ['.']) := by
  rw [IsRooted, List.getLast?_append]
  rfl

/-- A text that ends in a rooted text is rooted. -/
theorem IsRooted.of_suffix {text host : Str} (h : IsRooted text) (hsuffix : text <:+ host) :
    IsRooted host := by
  obtain ⟨front, rfl⟩ := hsuffix
  rw [IsRooted, List.getLast?_append, h, Option.some_or]

/-- What a rooted text ends in is rooted, unless it is empty. -/
theorem IsRooted.suffix {text host : Str} (h : IsRooted host) (hne : text ≠ [])
    (hsuffix : text <:+ host) : IsRooted text := by
  obtain ⟨front, rfl⟩ := hsuffix
  rw [IsRooted, List.getLast?_append] at h
  rwa [List.getLast?_eq_some_getLast hne, Option.some_or, ← List.getLast?_eq_some_getLast hne] at h

/-- A pattern is rooted exactly if its name is, or it is the root alone. -/
theorem isRooted_iff_patternName {pattern : Str} :
    IsRooted pattern ↔ IsRooted (patternName pattern) ∨ pattern = ['.'] := by
  unfold patternName
  cases hstrip : Str.stripPrefix pattern ['.'] with
  | none =>
    rw [Option.getD_none]
    refine (or_iff_left ?_).symm
    rintro rfl
    cases hstrip
  | some suffix =>
    obtain rfl := Str.stripPrefix_eq_some.mp hstrip
    cases suffix with
    | nil => exact iff_of_true rfl (.inr rfl)
    | cons c suffix => simp [IsRooted]

/-- What a pattern matches: the name behind its leading dot, and what ends in the pattern, if it
begins with a dot. -/
theorem hostMatches_iff {pattern host : Str} :
    hostMatches pattern host = true ↔
      host = patternName pattern ∨ pattern.head? = some '.' ∧ pattern <:+ host := by
  unfold hostMatches patternName
  cases hstrip : Str.stripPrefix pattern ['.'] with
  | none =>
    have hhead : pattern.head? ≠ some '.' := by
      intro hhead
      obtain ⟨suffix, rfl⟩ := List.head?_eq_some_iff.mp hhead
      cases hstrip
    simp [hhead]
  | some suffix =>
    obtain rfl := Str.stripPrefix_eq_some.mp hstrip
    dsimp only
    rw [Bool.or_eq_true, decide_eq_true_iff, Str.endsWith, List.isSuffixOf_iff_suffix]
    exact or_congr_right (and_iff_right rfl).symm

/-- A pattern without a root dot matches the spellings without one of the names that it covers. -/
theorem hostMatches_of_not_isRooted {pattern name : Str} (hname : ¬ IsRooted name)
    (hpattern : ¬ IsRooted pattern) : hostMatches pattern name = true ↔ Covers pattern name := by
  have hbody : ¬ IsRooted (patternName pattern) := fun h =>
    hpattern (isRooted_iff_patternName.mpr (.inl h))
  rw [hostMatches_iff, Covers, rooted_of_not_isRooted hname, rooted_of_not_isRooted hpattern,
    rooted_of_not_isRooted hbody, List.append_left_inj, List.suffix_append_self_iff]

/-- The spelling with a root dot is matched by the patterns with one that cover the name. -/
theorem hostMatches_append {pattern name : Str} (hname : ¬ IsRooted name) :
    hostMatches pattern (name ++ ['.']) = true ↔ IsRooted pattern ∧ Covers pattern name := by
  have hhost := isRooted_append name
  rw [hostMatches_iff, Covers, rooted_of_not_isRooted hname]
  constructor
  · rintro (heq | ⟨hhead, hends⟩)
    · have hbody : IsRooted (patternName pattern) := heq ▸ hhost
      exact ⟨isRooted_iff_patternName.mpr (.inl hbody), .inl (by rwa [rooted_of_isRooted hbody])⟩
    · have hne : pattern ≠ [] := by
        rintro rfl
        cases hhead
      have hpattern := hhost.suffix hne hends
      exact ⟨hpattern, .inr ⟨hhead, by rwa [rooted_of_isRooted hpattern]⟩⟩
  · rintro ⟨hpattern, heq | ⟨hhead, hends⟩⟩
    · rcases isRooted_iff_patternName.mp hpattern with hbody | rfl
      · exact .inl (by rwa [rooted_of_isRooted hbody] at heq)
      · -- the root alone matches every spelling with a root dot
        exact .inr ⟨rfl, List.suffix_append name ['.']⟩
    · exact .inr ⟨hhead, by rwa [rooted_of_isRooted hpattern] at hends⟩

/-- A spelling without a root dot is matched by no pattern with one, but for the empty name. -/
theorem hostMatches_of_isRooted {pattern name : Str} (hname : ¬ IsRooted name)
    (hpattern : IsRooted pattern) :
    hostMatches pattern name = true ↔ name = [] ∧ pattern = ['.'] := by
  rw [hostMatches_iff]
  constructor
  · rintro (rfl | ⟨-, hends⟩)
    · obtain rfl := (isRooted_iff_patternName.mp hpattern).resolve_left hname
      exact ⟨rfl, rfl⟩
    · exact absurd (hpattern.of_suffix hends) hname
  · rintro ⟨rfl, rfl⟩
    exact .inl rfl

namespace TargetPolicy

/-- Some pattern without a root dot covers the name. -/
def CoversPlain (policy : TargetPolicy) (name : Str) : Prop :=
  ∃ pattern ∈ policy.hosts, ¬ IsRooted pattern ∧ Covers pattern name

/-- Some pattern with a root dot covers the name. -/
def CoversRooted (policy : TargetPolicy) (name : Str) : Prop :=
  ∃ pattern ∈ policy.hosts, IsRooted pattern ∧ Covers pattern name

/-- Two hosts are both admitted or both rejected. -/
def SameVerdict (policy : TargetPolicy) (scheme host host' : Str) : Prop :=
  policy.checkAuthority scheme host = .ok () ↔ policy.checkAuthority scheme host' = .ok ()

/-- The policy admits the scheme. -/
def SchemeAdmitted (policy : TargetPolicy) (scheme : Str) : Prop :=
  (policy.httpsOnly = true → scheme.toAsciiLowercase = "https".toList) ∧
    scheme.toAsciiLowercase ∈ policy.schemes

/-- Some host pattern of the policy matches the text. -/
def Matches (policy : TargetPolicy) (host : Str) : Prop :=
  ∃ pattern ∈ policy.hosts, hostMatches pattern host = true

/-- What a policy admits: a scheme it admits, and a host as its mode has it. -/
theorem checkAuthority_eq_ok_iff {policy : TargetPolicy} {scheme host : Str} :
    policy.checkAuthority scheme host = .ok () ↔ policy.SchemeAdmitted scheme ∧
      match policy.mode with
      | .anyPublic => True
      | .allowlist => policy.Matches host.toAsciiLowercase
      | .denylist => ¬ policy.Matches host.toAsciiLowercase := by
  have hmatches : policy.Matches host.toAsciiLowercase ↔
      (policy.hosts.any fun pattern => hostMatches pattern host.toAsciiLowercase) = true :=
    List.any_eq_true.symm
  unfold checkAuthority SchemeAdmitted
  rw [hmatches]
  dsimp only
  by_cases hhttps : policy.httpsOnly = true ∧ scheme.toAsciiLowercase ≠ "https".toList
  · rw [if_pos hhttps]
    refine iff_of_false (by simp) fun h => hhttps.2 (h.1.1 hhttps.1)
  rw [if_neg hhttps]
  by_cases hscheme : scheme.toAsciiLowercase ∈ policy.schemes
  · rw [if_neg (by simpa using hscheme)]
    have hadmitted : (policy.httpsOnly = true → scheme.toAsciiLowercase = "https".toList) ∧
        scheme.toAsciiLowercase ∈ policy.schemes :=
      ⟨fun h => by_contra fun hne => hhttps ⟨h, hne⟩, hscheme⟩
    rw [and_iff_right hadmitted]
    cases policy.mode with
    | anyPublic => simp
    | allowlist =>
      -- no pattern of an empty list matches
      cases hhosts : policy.hosts with
      | nil => simp
      | cons pattern patterns =>
        by_cases hmatched : ((pattern :: patterns).any fun pattern =>
          hostMatches pattern host.toAsciiLowercase) = true <;> simp [hmatched]
    | denylist =>
      by_cases hmatched : (policy.hosts.any fun pattern =>
        hostMatches pattern host.toAsciiLowercase) = true <;> simp [hmatched]
  · have hrefused : (!policy.schemes.any fun s => s = scheme.toAsciiLowercase) = true := by
      simpa using fun s hs (heq : s = scheme.toAsciiLowercase) => hscheme (heq ▸ hs)
    rw [if_pos hrefused]
    exact iff_of_false (by simp) fun h => hscheme h.1.2

/-! ## Spellings of a name -/

/-- Some pattern matches the spelling of a name with a root dot exactly if one with a root dot
covers the name. -/
theorem matches_append_iff {policy : TargetPolicy} {name : Str} (hname : ¬ IsRooted name) :
    policy.Matches (name ++ ['.']) ↔ policy.CoversRooted name := by
  unfold Matches CoversRooted
  simp only [hostMatches_append hname]

/-- Some pattern matches the spelling of a name without a root dot exactly if one without a root
dot covers the name, or the name is empty and the root is a pattern. -/
theorem matches_iff {policy : TargetPolicy} {name : Str} (hname : ¬ IsRooted name) :
    policy.Matches name ↔
      policy.CoversPlain name ∨ name = [] ∧ ['.'] ∈ policy.hosts := by
  constructor
  · rintro ⟨pattern, hmem, hmatches⟩
    by_cases hpattern : IsRooted pattern
    · obtain ⟨hempty, rfl⟩ := (hostMatches_of_isRooted hname hpattern).mp hmatches
      exact .inr ⟨hempty, hmem⟩
    · exact .inl ⟨pattern, hmem, hpattern, (hostMatches_of_not_isRooted hname hpattern).mp hmatches⟩
  · rintro (⟨pattern, hmem, hpattern, hcovers⟩ | ⟨hempty, hmem⟩)
    · exact ⟨pattern, hmem, (hostMatches_of_not_isRooted hname hpattern).mpr hcovers⟩
    · exact ⟨_, hmem, (hostMatches_of_isRooted hname (by decide)).mpr ⟨hempty, rfl⟩⟩

/-- The root as a pattern covers every name. -/
theorem coversRooted_of_root {policy : TargetPolicy} {name : Str} (hname : ¬ IsRooted name)
    (h : ['.'] ∈ policy.hosts) : policy.CoversRooted name := by
  refine ⟨['.'], h, rfl, .inr ⟨rfl, ?_⟩⟩
  rw [rooted_of_not_isRooted hname]
  exact List.suffix_append name ['.']

/-- A deny list without dotted patterns denies no dotted spelling of any name. -/
theorem checkAuthority_dotted {policy : TargetPolicy} {scheme host : Str}
    (hmode : policy.mode = .denylist) (hhost : ¬ IsRooted host.toAsciiLowercase)
    (hpatterns : ∀ pattern ∈ policy.hosts, ¬ IsRooted pattern)
    (hscheme : policy.SchemeAdmitted scheme) :
    policy.checkAuthority scheme (host ++ ['.']) = .ok () := by
  have hlower : Str.toAsciiLowercase (host ++ ['.']) = host.toAsciiLowercase ++ ['.'] := by
    simp [Str.toAsciiLowercase]
  rw [checkAuthority_eq_ok_iff, hmode, hlower]
  refine ⟨hscheme, fun hmatches => ?_⟩
  obtain ⟨pattern, hmem, hpattern, -⟩ := (matches_append_iff hhost).mp hmatches
  exact hpatterns pattern hmem hpattern

/-- A DNS name has no root dot where it has two spellings. -/
theorem not_isRooted_dnsName {host : Str} (h : host.toAsciiLowercase = dnsName host) :
    ¬ IsRooted (dnsName host) := by
  intro hrooted
  have hlast : host.toAsciiLowercase.getLast? = some '.' := h ▸ hrooted
  have hlength := congrArg List.length h
  have hpos : 0 < host.toAsciiLowercase.length := by
    refine List.length_pos_iff.mpr ?_
    intro hnil
    rw [hnil] at hlast
    cases hlast
  rw [dnsName, if_pos hlast, List.length_dropLast] at hlength
  omega

/-- Two spellings of a name are equal up to case, or one is the name and the other the name
with a root dot. -/
theorem spellings {host host' : Str} (h : dnsName host = dnsName host') :
    host.toAsciiLowercase = host'.toAsciiLowercase ∨
      (host.toAsciiLowercase = dnsName host ∧
        host'.toAsciiLowercase = dnsName host ++ ['.']) ∨
      (host'.toAsciiLowercase = dnsName host ∧
        host.toAsciiLowercase = dnsName host ++ ['.']) := by
  -- a host that ends in a dot is its name with a dot
  have hdotted : ∀ host : Str, host.toAsciiLowercase.getLast? = some '.' →
      host.toAsciiLowercase = dnsName host ++ ['.'] := by
    intro host hdot
    rw [dnsName, if_pos hdot]
    exact (List.dropLast_append_getLast? '.' hdot).symm
  have hplain : ∀ host : Str, ¬ host.toAsciiLowercase.getLast? = some '.' →
      host.toAsciiLowercase = dnsName host := by
    intro host hdot
    rw [dnsName, if_neg hdot]
  by_cases hhost : host.toAsciiLowercase.getLast? = some '.'
  · by_cases hhost' : host'.toAsciiLowercase.getLast? = some '.'
    · exact .inl (by rw [hdotted host hhost, hdotted host' hhost', h])
    · exact .inr (.inr ⟨h ▸ hplain host' hhost', hdotted host hhost⟩)
  · by_cases hhost' : host'.toAsciiLowercase.getLast? = some '.'
    · exact .inr (.inl ⟨hplain host hhost, h ▸ hdotted host' hhost'⟩)
    · exact .inl (by rw [hplain host hhost, hplain host' hhost', h])

/-- The verdicts on two spellings of a DNS name agree exactly where they differ in case only, the
scheme is refused, every host is public, or the name is covered by patterns with and by patterns
without a root dot, or by neither. Of the empty name the root as a pattern matches both
spellings. -/
theorem sameVerdict_iff {policy : TargetPolicy} {scheme host host' : Str}
    (h : dnsName host = dnsName host') :
    policy.SameVerdict scheme host host' ↔
      (host.toAsciiLowercase = host'.toAsciiLowercase ∨ ¬ policy.SchemeAdmitted scheme ∨
        policy.mode = .anyPublic ∨ (dnsName host = [] ∧ ['.'] ∈ policy.hosts) ∨
        (policy.CoversPlain (dnsName host) ↔ policy.CoversRooted (dnsName host))) := by
  -- one of the spellings is the name, and the other the name with a root dot
  have htwo : ∀ plain dotted : Str, plain.toAsciiLowercase = dnsName host →
      dotted.toAsciiLowercase = dnsName host ++ ['.'] → ¬ IsRooted (dnsName host) →
      (policy.SameVerdict scheme plain dotted ↔ ¬ policy.SchemeAdmitted scheme ∨
        policy.mode = .anyPublic ∨ (dnsName host = [] ∧ ['.'] ∈ policy.hosts) ∨
        (policy.CoversPlain (dnsName host) ↔ policy.CoversRooted (dnsName host))) := by
    intro plain dotted hplain hdotted hname
    have hmatches : (policy.Matches (dnsName host) ↔ policy.Matches (dnsName host ++ ['.'])) ↔
        (dnsName host = [] ∧ ['.'] ∈ policy.hosts) ∨
          (policy.CoversPlain (dnsName host) ↔ policy.CoversRooted (dnsName host)) := by
      rw [matches_iff hname, matches_append_iff hname]
      by_cases hroot : dnsName host = [] ∧ ['.'] ∈ policy.hosts
      · have hcovers : policy.CoversRooted (dnsName host) := coversRooted_of_root hname hroot.2
        exact iff_of_true (iff_of_true (.inr hroot) hcovers) (.inl hroot)
      · rw [or_iff_left hroot, or_iff_right hroot]
    unfold SameVerdict
    rw [checkAuthority_eq_ok_iff, checkAuthority_eq_ok_iff, hplain, hdotted]
    by_cases hscheme : policy.SchemeAdmitted scheme
    · rw [and_iff_right hscheme, and_iff_right hscheme, or_iff_right (not_not.mpr hscheme),
        ← hmatches]
      cases policy.mode <;> simp [not_iff_not]
    · simp [hscheme]
  rcases spellings h with hcase | ⟨hhost, hhost'⟩ | ⟨hhost', hhost⟩
  · rw [SameVerdict, checkAuthority_eq_ok_iff, checkAuthority_eq_ok_iff, hcase]
    exact iff_of_true Iff.rfl (.inl rfl)
  · have hne : host.toAsciiLowercase ≠ host'.toAsciiLowercase := by
      rw [hhost, hhost']
      simp
    rw [or_iff_right hne]
    exact htwo host host' hhost hhost' (not_isRooted_dnsName hhost)
  · have hne : host.toAsciiLowercase ≠ host'.toAsciiLowercase := by
      rw [hhost, hhost']
      simp
    have hname : ¬ IsRooted (dnsName host) := h ▸ not_isRooted_dnsName (h ▸ hhost')
    rw [or_iff_right hne, SameVerdict, @Iff.comm (_ = _)]
    exact htwo host' host hhost' hhost hname

/-- A deny list with one host. -/
def denyBlocked : TargetConfig where
  mode := .denylist
  hosts := ["blocked.test"]
  schemes := ["https", "http"]
  httpsOnly := false

/-- The equivalence for the two spellings of a name that is not denied. -/
theorem sameVerdict_iff_open :
    (fromConfig denyBlocked).SameVerdict "http" "open.test" "open.test." ↔
      (Str.toAsciiLowercase "open.test" = Str.toAsciiLowercase "open.test." ∨
        ¬ (fromConfig denyBlocked).SchemeAdmitted "http" ∨
        (fromConfig denyBlocked).mode = .anyPublic ∨
        (dnsName "open.test" = [] ∧ ['.'] ∈ (fromConfig denyBlocked).hosts) ∨
        ((fromConfig denyBlocked).CoversPlain (dnsName "open.test") ↔
          (fromConfig denyBlocked).CoversRooted (dnsName "open.test"))) :=
  sameVerdict_iff (by decide +kernel)

/-- The target of a request that spells the denied host with a root dot. -/
def dottedTarget : TargetUrl where
  url :=
    { scheme := "http", username := [], password := none, hostStr := some "blocked.test.".toList,
      port := none, path := "/", query := none, fragment := none }
  host := "blocked.test."
  port := 80

/-- The denied host is admitted under its dotted spelling, as the target of a request and as
that of a redirect. -/
theorem dotted_spelling_admitted :
    dnsName "blocked.test" = dnsName "blocked.test." ∧
    (fromConfig denyBlocked).checkAuthority "http" "blocked.test" ≠ .ok () ∧
    (fromConfig denyBlocked).checkAuthority "http" "blocked.test." = .ok () ∧
    (extractTarget Parsers.plain
        { scheme := none, authority := none, path := "/http://blocked.test./", query := none } =
          .ok dottedTarget ∧
      (fromConfig denyBlocked).check dottedTarget = .ok ()) ∧
    (Parsers.plain.uriParse "http://blocked.test./" =
        .ok { scheme := some "http", authority := some "blocked.test.", path := "/",
              query := none } ∧
      (fromConfig denyBlocked).checkUri
        { scheme := some "http", authority := some "blocked.test.", path := "/",
          query := none } = .ok ()) := by
  decide +kernel

end TargetPolicy

end Corx
