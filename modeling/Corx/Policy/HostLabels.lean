import Mathlib.Data.List.TakeWhile
import Corx.Policy.HostNames

/-!
# Host patterns over labels

A host name is a list of labels between dots. The target policy compares texts, with
`str::strip_prefix` and `str::ends_with`; what it means is a comparison of label lists
(`hostMatches_iff_labelMatch`), for every text, also one with empty labels or of dots alone.
`checkAuthority_fromConfig_iff` reads the admission of a hop in these terms off the
configuration.
-/

namespace Corx

/-- The labels of a host, between its dots. -/
def hostLabels (host : Str) : List Str :=
  Str.split host '.'

/-- What a pattern stands for: with a leading dot every host whose labels end with those behind
the dot, without one the identical host. -/
def LabelMatch (pattern host : Str) : Prop :=
  if pattern.head? = some '.' then hostLabels pattern.tail <:+ hostLabels host
  else host = pattern

/-- The text has nothing but white space. -/
def Blank (s : Str) : Prop :=
  ∀ c ∈ s, Str.isWhitespace c = true

/-- Exactly a blank text is trimmed to nothing. -/
theorem trim_eq_nil_iff {s : Str} : Str.trim s = [] ↔ Blank s := by
  unfold Str.trim Blank
  rw [List.reverse_eq_nil_iff, List.dropWhile_eq_nil_iff]
  simp only [List.mem_reverse]
  constructor
  · intro h
    -- the first character that is not white space would be left over
    rw [← List.dropWhile_eq_nil_iff]
    by_contra hne
    have hnot := List.head_dropWhile_not Str.isWhitespace hne
    rw [h _ (List.head_mem hne)] at hnot
    exact Bool.noConfusion hnot
  · exact fun h c hc => h c ((List.dropWhile_suffix _).subset hc)

/-- Folding the case leaves a text empty or not. -/
theorem isEmpty_toAsciiLowercase (s : Str) : s.toAsciiLowercase.isEmpty = s.isEmpty := by
  cases s <;> rfl

/-- A pattern matches exactly the hosts it stands for. -/
theorem hostMatches_iff_labelMatch {pattern host : Str} :
    hostMatches pattern host = true ↔ LabelMatch pattern host := by
  unfold hostMatches LabelMatch hostLabels
  cases pattern with
  | nil => simp [Str.stripPrefix]
  | cons c suffix =>
    by_cases hc : c = '.'
    · subst hc
      have hstrip : Str.stripPrefix ('.' :: suffix) ['.'] = some suffix :=
        Str.stripPrefix_eq_some.mpr rfl
      rw [hstrip, List.head?_cons, if_pos rfl, List.tail_cons, Str.split_suffix_split_iff]
      simp [Str.endsWith]
    · have hstrip : Str.stripPrefix (c :: suffix) ['.'] = none := by
        rw [Str.stripPrefix_eq_none]
        simpa using fun h => hc h.symm
      rw [hstrip, List.head?_cons, if_neg (by simpa using hc)]
      simp

/-- A pattern with a leading dot does not match a longer last label: of the hosts that end with
the text behind the dot, it matches the one that is the text and those with a dot in front of
it. -/
theorem hostMatches_append_iff {p front : Str} :
    hostMatches ('.' :: p) (front ++ p) = true ↔ front = [] ∨ front.getLast? = some '.' := by
  rw [hostMatches_iff_labelMatch, LabelMatch, List.head?_cons, if_pos rfl, List.tail_cons,
    hostLabels, hostLabels, Str.split_suffix_split_iff]
  refine or_congr (by simp) ?_
  rw [List.getLast?_eq_some_iff]
  constructor
  · rintro ⟨rest, hrest⟩
    exact ⟨rest, (List.append_left_inj p).mp (by rw [← hrest]; simp)⟩
  · rintro ⟨rest, rfl⟩
    exact ⟨rest, by simp⟩

/-- Some host pattern of the configuration that is not blank stands for the host; patterns are
trimmed, and both are compared in lower case. -/
def TargetConfig.Lists (cfg : TargetConfig) (host : Str) : Prop :=
  ∃ raw ∈ cfg.hosts, ¬ Blank raw ∧
    LabelMatch (Str.trim raw).toAsciiLowercase host.toAsciiLowercase

namespace TargetPolicy

/-- The compiled patterns match a host exactly if the configuration lists it. -/
theorem matches_fromConfig_iff {cfg : TargetConfig} {host : Str} :
    (fromConfig cfg).Matches host.toAsciiLowercase ↔ cfg.Lists host := by
  unfold Matches TargetConfig.Lists
  have hmem : ∀ pattern, pattern ∈ (fromConfig cfg).hosts ↔
      ∃ raw ∈ cfg.hosts, ¬ Blank raw ∧ (Str.trim raw).toAsciiLowercase = pattern := by
    intro pattern
    simp only [fromConfig, List.mem_filter, List.mem_map]
    constructor
    · rintro ⟨⟨raw, hraw, rfl⟩, hne⟩
      refine ⟨raw, hraw, fun hblank => ?_, rfl⟩
      rw [isEmpty_toAsciiLowercase, trim_eq_nil_iff.mpr hblank] at hne
      exact Bool.false_ne_true hne
    · rintro ⟨raw, hraw, hblank, rfl⟩
      refine ⟨⟨raw, hraw, rfl⟩, ?_⟩
      rw [isEmpty_toAsciiLowercase, Bool.not_eq_true', List.isEmpty_eq_false_iff]
      exact fun htrim => hblank (trim_eq_nil_iff.mp htrim)
  constructor
  · rintro ⟨pattern, hpattern, hmatches⟩
    obtain ⟨raw, hraw, hblank, rfl⟩ := (hmem pattern).mp hpattern
    exact ⟨raw, hraw, hblank, hostMatches_iff_labelMatch.mp hmatches⟩
  · rintro ⟨raw, hraw, hblank, hmatch⟩
    exact ⟨_, (hmem _).mpr ⟨raw, hraw, hblank, rfl⟩, hostMatches_iff_labelMatch.mpr hmatch⟩

/-- Host patterns match whole labels. A hop is admitted exactly if its scheme is on the compiled
list, and `https` if that is the only one, and its host is as the mode has it: listed, not
listed, or any. A pattern without a leading dot stands for the identical host, one with a
leading dot for the hosts whose labels end with its labels, so that a longer last label does not
match. -/
theorem checkAuthority_fromConfig_iff (cfg : TargetConfig) :
    (∀ scheme host, (fromConfig cfg).checkAuthority scheme host = .ok () ↔
      scheme.toAsciiLowercase ∈ (fromConfig cfg).schemes ∧
      (cfg.httpsOnly = true → scheme.toAsciiLowercase = "https".toList) ∧
      match cfg.mode with
      | .anyPublic => True
      | .allowlist => cfg.Lists host
      | .denylist => ¬ cfg.Lists host) ∧
    (∀ pattern host, hostMatches pattern host = true ↔ LabelMatch pattern host) ∧
    ∀ p front, hostMatches ('.' :: p) (front ++ p) = true ↔
      front = [] ∨ front.getLast? = some '.' := by
  refine ⟨fun scheme host => ?_, fun pattern host => hostMatches_iff_labelMatch,
    fun p front => hostMatches_append_iff⟩
  have hmode : (fromConfig cfg).mode = cfg.mode := rfl
  have hhttps : (fromConfig cfg).httpsOnly = cfg.httpsOnly := rfl
  have hadmits := @checkAuthority_eq_ok_iff (fromConfig cfg) scheme host
  rw [hmode, SchemeAdmitted, hhttps, matches_fromConfig_iff,
    @and_comm (cfg.httpsOnly = true → _), and_assoc] at hadmits
  exact hadmits

/-- The hosts of a suffix pattern: the name itself and the names below it. -/
example : hostMatches ".example.com" "a.example.com" = true ∧
    hostMatches ".example.com" "example.com" = true ∧
    hostMatches ".example.com" "evilexample.com" = false := by
  decide +kernel

end TargetPolicy

end Corx
