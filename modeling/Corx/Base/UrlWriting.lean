import Corx.Base.DotSegments
import Corx.Base.Escapes
import Corx.Base.UrlText

/-!
# Writing a URL

The URL standard writes the path and the query of a URL with escapes for the characters of two
sets, and the path without its dot segments (`writePath`). `writesSame_iff` says when path and
query are written as before after their escapes are undone: if there are no dot segments, exactly
if every escape is one that is put for its byte there, and no space or control comes to stand at
the end.
-/

namespace UrlText

open Str

/-! ## Writing -/

/-- A text is written with escapes for the characters of a set. -/
def write (set : UInt8 → Bool) (s : Str) : Str :=
  escape set (asBytes s)

/-- Backslashes are written as slashes. -/
def slashes (s : Str) : Str :=
  s.map fun c => if c = '\\' then '/' else c

/-- A path is written from its first slash, without dot segments. -/
def writePath (set : UInt8 → Bool) (path : Str) : Str :=
  removeDots (write set (slashes (path.drop 1)))

/-! ## Escapes -/

/-- The second text is the first one with its escapes undone. -/
def Decodes (s t : Str) : Prop :=
  asBytes t = percentDecode (asBytes s)

/-- Every escape of the text is one that is put for its byte. -/
def EscapesStand (set : UInt8 → Bool) (s : Str) : Prop :=
  ∀ escape ∈ escapesIn (asBytes s), Standing set escape

/-- The character is ASCII and written as it is. -/
def IsKept (set : UInt8 → Bool) (c : Char) : Prop :=
  c.toNat < 128 ∧ set (UInt8.ofNat c.toNat) = false

variable {set : UInt8 → Bool} {s t a b : Str} {c : Char}

/-- Text that is kept is written as it is. -/
theorem write_of_forall (h : ∀ c ∈ s, IsKept set c) : write set s = s :=
  escape_asBytes_of_forall h

/-- A part of a text is not longer when it is written. -/
theorem length_write_add_le (set : UInt8 → Bool) (h : List.Sublist s t) :
    (write set s).length + t.length ≤ (write set t).length + s.length :=
  length_escape_add_le h

/-- Undoing the escapes before writing makes a text no longer. -/
theorem length_write_le (hkeeps : KeepsEscapes set) (h : Decodes s t) :
    (write set t).length ≤ (write set s).length := by
  rw [write, write, h]
  exact length_escape_percentDecode_le hkeeps (asBytes s)

/-- Undoing the escapes before writing changes nothing exactly if each of them stands. -/
theorem write_eq_iff (hkeeps : KeepsEscapes set) (h : Decodes s t) :
    write set t = write set s ↔ EscapesStand set s := by
  rw [write, write, h]
  exact escape_percentDecode_eq_iff hkeeps (asBytes s)

/-- An ASCII byte of a text is one of its characters. -/
theorem mem_of_mem_asBytes (hc : c.toNat < 128) (h : UInt8.ofNat c.toNat ∈ asBytes s) :
    c ∈ s := by
  obtain ⟨d, hd, hcode⟩ := List.mem_flatMap.mp h
  by_cases hascii : d.toNat < 128
  · rw [utf8EncodeChar_of_ascii hascii, List.mem_singleton] at hcode
    have hsame := congrArg UInt8.toNat hcode
    rw [toNat_ofNat_of_ascii hascii, toNat_ofNat_of_ascii hc] at hsame
    obtain rfl : c = d := Char.ext (UInt32.toNat_inj.mp hsame)
    exact hd
  · have hle := le_of_mem_utf8EncodeChar (by omega) hcode
    rw [toNat_ofNat_of_ascii hc] at hle
    omega

/-- A character of a text is among its bytes. -/
theorem mem_asBytes_of_mem (hc : c.toNat < 128) (h : c ∈ s) :
    UInt8.ofNat c.toNat ∈ asBytes s := by
  refine List.mem_flatMap.mpr ⟨c, h, ?_⟩
  rw [utf8EncodeChar_of_ascii hc, List.mem_singleton]

/-- Where undoing the escapes does not make what is written shorter, no escape stands for a
character that is written as it is. -/
theorem mem_of_mem_decoded (hkeeps : KeepsEscapes set) (h : Decodes s t)
    (hlength : (write set s).length ≤ (write set t).length) (hc : IsKept set c) (hmem : c ∈ t) :
    c ∈ s := by
  rw [write, write, h] at hlength
  have hbyte := mem_asBytes_of_mem hc.1 hmem
  rw [h] at hbyte
  exact mem_of_mem_asBytes hc.1
    (mem_of_mem_percentDecode hkeeps hlength (isEscaped_of_ascii hc.1 hc.2) hbyte)

/-- Escapes are undone on both sides of an ASCII character that occurs in none. -/
theorem Decodes.exists_append (hc : c.toNat < 128)
    (hdigit : hexDigit (UInt8.ofNat c.toNat) = none) (hpercent : UInt8.ofNat c.toNat ≠ 0x25)
    (h : Decodes (a ++ c :: b) t) :
    ∃ a' b', t = a' ++ c :: b' ∧ Decodes a a' ∧ Decodes b b' := by
  have hread := fromUtf8_asBytes t
  rw [h, asBytes_append, asBytes_cons, utf8EncodeChar_of_ascii hc, List.singleton_append,
    percentDecode_append_cons hdigit, percentDecode_cons_of_ne hpercent,
    fromUtf8_append_cons (ofNat_lt_of_ascii hc), Option.bind_eq_some_iff] at hread
  obtain ⟨a', ha', hread⟩ := hread
  rw [fromUtf8_cons_of_lt (ofNat_lt_of_ascii hc), Option.map_map, Option.map_eq_some_iff] at hread
  obtain ⟨b', hb', rfl⟩ := hread
  refine ⟨a', b', ?_, asBytes_of_fromUtf8 ha', asBytes_of_fromUtf8 hb'⟩
  rw [Function.comp_apply, toNat_ofNat_of_ascii hc, Char.ofNat_toNat]

/-- No text stands for nothing else. -/
theorem Decodes.eq_nil (h : Decodes [] t) : t = [] :=
  asBytes_injective h

/-! ## Writing what is decoded -/

/-- Escapes are kept in a path. The characters that end a path, or are changed or dropped in it,
never get to be written, so that it makes no difference whether the set has them: it does not. -/
structure PathSet (set : UInt8 → Bool) : Prop extends KeepsEscapes set where
  kept : ∀ c ∈ "/\\?#\t\n\r".toList, IsKept set c

/-- Escapes are kept in a query. The characters that end it or are dropped in it never get to be
written, and the set does not have them. -/
structure QuerySet (set : UInt8 → Bool) : Prop extends KeepsEscapes set where
  kept : ∀ c ∈ "#\t\n\r".toList, IsKept set c

/-- Slashes are written no longer than backslashes. -/
theorem length_write_slashes_le (hslash : IsKept set '/') (s : Str) :
    (write set (slashes s)).length ≤ (write set s).length := by
  induction s with
  | nil => exact Nat.le_refl _
  | cons c s ih =>
    have hcons : ∀ (d : Char) (text : Str), (write set (d :: text)).length =
        (escape set (String.utf8EncodeChar d)).length + (write set text).length := by
      intro d text
      rw [write, asBytes_cons, escape_append, List.length_append, write]
    have hmap : slashes (c :: s) = (if c = '\\' then '/' else c) :: slashes s := rfl
    rw [hmap, hcons, hcons]
    split
    next hback =>
      have hone : 0 < (escape set (String.utf8EncodeChar c)).length :=
        (String.length_utf8EncodeChar c ▸ c.utf8Size_pos).trans_le (length_le_length_escape set _)
      rw [escape_utf8EncodeChar hslash.1 hslash.2, List.length_singleton]
      omega
    next => omega

/-- Text without backslashes has its slashes. -/
theorem slashes_eq_self (h : '\\' ∉ s) : slashes s = s := by
  rw [slashes]
  conv_rhs => rw [← List.map_id s]
  refine List.map_congr_left fun c hc => if_neg ?_
  rintro rfl
  exact h hc

/-- A path that is left of a decoded one, and is written as the one before, is all of it, and its
escapes stand. -/
theorem path_of_write_eq {y y' z : Str} (hset : PathSet set) (hkept : ∀ c ∈ y, IsKept set c)
    (hback : '\\' ∉ y) (hdecodes : Decodes y y') (hleft : List.Sublist z y')
    (h : removeDots (write set (slashes z)) = '/' :: y) : z = y' ∧ EscapesStand set y := by
  have hself := write_of_forall hkept
  -- nothing on the way from what is decoded to what is written made it shorter
  have hdropped := length_write_add_le set hleft
  have hshort := hleft.length_le
  have hdecoded := length_write_le hset.toKeepsEscapes hdecodes
  have hslashes := length_write_slashes_le (hset.kept '/' (by decide)) z
  have hdots := length_removeDots_le (write set (slashes z))
  rw [h, List.length_cons] at hdots
  rw [hself] at hdecoded
  obtain rfl : z = y' := hleft.eq_of_length_le (by omega)
  have hlength : (write set y).length ≤ (write set z).length := by
    rw [hself]
    omega
  have hnone : '\\' ∉ z := fun hmem =>
    hback (mem_of_mem_decoded hset.toKeepsEscapes hdecodes hlength (hset.kept _ (by decide)) hmem)
  rw [slashes_eq_self hnone] at h hslashes hdots
  have hwhole : removeDots (write set z) = '/' :: write set z :=
    removeDots_of_length (by rw [h, List.length_cons]; omega)
  refine ⟨rfl, (write_eq_iff hset.toKeepsEscapes hdecodes).mp ?_⟩
  rw [hself]
  exact (List.cons.inj (hwhole.symm.trans h)).2

/-- A query that is left of a decoded one, and is written as the one before, is all of it, and its
escapes stand. -/
theorem query_of_write_eq {q q' z : Str} (hset : KeepsEscapes set) (hdecodes : Decodes q q')
    (hleft : List.Sublist z q') (h : write set z = write set q) :
    z = q' ∧ EscapesStand set q := by
  have hdecoded := length_write_le hset hdecodes
  have hdropped := length_write_add_le set hleft
  rw [h] at hdropped
  obtain rfl : z = q' := hleft.eq_of_length_le (by omega)
  exact ⟨rfl, (write_eq_iff hset hdecodes).mp h⟩

/-- The sets of a URL writer. -/
structure EscapeSets where
  path : UInt8 → Bool
  query : UInt8 → Bool
  fragment : UInt8 → Bool

/-- The sets leave escapes as they are, and what is not written anyway. -/
structure EscapeSets.Lawful (sets : EscapeSets) : Prop where
  path : PathSet sets.path
  query : QuerySet sets.query

/-- What follows an authority, without a fragment, in characters that are left as they are in a
path. -/
structure IsTail (sets : EscapeSets) (s : Str) : Prop where
  head : ∀ c ∈ s.head?, c = '/' ∨ c = '?'
  kept : ∀ c ∈ s, IsKept sets.path c
  plain : ∀ c ∈ s, c ≠ '#' ∧ c ≠ '\\' ∧ isBlank c = false

/-- With its escapes undone, the text has the same path and the same query, and no fragment. -/
structure WritesSame (sets : EscapeSets) (s t : Str) : Prop where
  path : writePath sets.path (path (clean t)) = writePath sets.path (path s)
  query : (query (clean t)).map (write sets.query) = (query s).map (write sets.query)
  fragment : fragment (clean t) = none

/-- The escapes stand in the path and in the query, and none stands for a blank at the end. -/
structure Stands (sets : EscapeSets) (s t : Str) : Prop where
  path : EscapesStand sets.path (path s)
  query : ∀ q ∈ query s, EscapesStand sets.query q
  last : ∀ c ∈ t.getLast?, isBlank c = false

section Tails

variable {sets : EscapeSets} {x x' y q q' : Str}

/-- What follows an authority is a path, or a path and a query. -/
theorem IsTail.cases (h : IsTail sets s) :
    ∃ x, (x = [] ∨ ∃ y, x = '/' :: y) ∧ '?' ∉ x ∧ (s = x ∨ ∃ q, s = x ++ '?' :: q) := by
  have hfront : ∀ x post, s = x ++ post → '?' ∉ x → x = [] ∨ ∃ y, x = '/' :: y := by
    rintro x post rfl hquestion
    cases x with
    | nil => exact Or.inl rfl
    | cons c y =>
      rcases h.head c rfl with rfl | rfl
      · exact Or.inr ⟨y, rfl⟩
      · exact absurd List.mem_cons_self hquestion
  by_cases hmem : '?' ∈ s
  · obtain ⟨x, q, hjoin, hquestion⟩ := List.eq_append_cons_of_mem hmem
    exact ⟨x, hfront x _ hjoin hquestion, hquestion, Or.inr ⟨q, hjoin⟩⟩
  · exact ⟨s, hfront s [] (List.append_nil s).symm hmem, hmem, Or.inl rfl⟩

/-- A slash in front of a text begins no escape. -/
theorem Decodes.cons_slash (h : Decodes ('/' :: y) t) : ∃ y', t = '/' :: y' ∧ Decodes y y' := by
  obtain ⟨a', y', rfl, ha', hy'⟩ :=
    Decodes.exists_append (a := []) (by decide) (by decide) (by decide) h
  rw [ha'.eq_nil]
  exact ⟨y', rfl, hy'⟩

/-- The escapes behind a slash are those of the whole. -/
theorem escapesStand_cons_slash : EscapesStand set ('/' :: y) ↔ EscapesStand set y := by
  rw [EscapesStand, asBytes_cons, utf8EncodeChar_of_ascii (by decide), List.singleton_append,
    escapesIn_cons_of_ne (by decide), EscapesStand]

/-- A path that is left of a decoded one, and is written as the one before, is all of it, and its
escapes stand. -/
theorem front_of_writePath_eq {z : Str} (hset : PathSet set) (hkept : ∀ c ∈ x, IsKept set c)
    (hback : '\\' ∉ x) (hfront : x = [] ∨ ∃ y, x = '/' :: y) (hdots : ¬ HasDotSegment (x.drop 1))
    (hdecodes : Decodes x x') (hleft : List.Sublist z x') (hne : x' ≠ [] → z ≠ [])
    (h : writePath set z = writePath set x) : z = x' ∧ EscapesStand set x := by
  rcases hfront with rfl | ⟨y, rfl⟩
  · obtain rfl := hdecodes.eq_nil
    refine ⟨List.sublist_nil.mp hleft, ?_⟩
    intro e he
    cases he
  · obtain ⟨y', rfl, hrest⟩ := hdecodes.cons_slash
    rw [List.forall_mem_cons] at hkept
    rw [List.mem_cons, not_or] at hback
    rw [List.drop_one, List.tail_cons] at hdots
    rw [writePath, writePath, List.drop_one, List.drop_one, List.tail_cons,
      slashes_eq_self hback.2, write_of_forall hkept.2, removeDots_of_not hdots] at h
    obtain ⟨htail, hstand⟩ := path_of_write_eq hset hkept.2 hback.2 hrest hleft.tail h
    refine ⟨hleft.eq_of_length_le ?_, escapesStand_cons_slash.mpr hstand⟩
    cases z with
    | nil => exact absurd rfl (hne (List.cons_ne_nil _ _))
    | cons c z =>
      rw [List.tail_cons] at htail
      rw [htail]
      exact Nat.le_refl _

/-- The escapes of a tail stand if it is written as before without them. -/
theorem stands_of_writesSame (hsets : sets.Lawful) (hs : IsTail sets s)
    (hdots : ¬ HasDotSegment ((path s).drop 1)) (hdecodes : Decodes s t)
    (h : WritesSame sets s t) : Stands sets s t := by
  have hhash : '#' ∉ s := fun hmem => (hs.plain _ hmem).1 rfl
  have hend : clean t = t → ∀ c ∈ t.getLast?, isBlank c = false := not_isBlank_of_clean_eq_self
  obtain ⟨x, hfront, hquestion, hx⟩ := hs.cases
  have hback : '\\' ∉ s := fun hmem => (hs.plain _ hmem).2.1 rfl
  rcases hx with rfl | ⟨q, rfl⟩
  · -- there is no query
    have hpath : path s = s := path_eq_self hquestion hhash
    have hquery : query s = none := query_eq_none hquestion
    have hsame := h.path
    rw [hpath] at hsame hdots
    have hne : t ≠ [] → path (clean t) ≠ [] := by
      intro hne
      rcases hfront with rfl | ⟨y, rfl⟩
      · exact absurd hdecodes.eq_nil hne
      · obtain ⟨y', rfl, -⟩ := hdecodes.cons_slash
        rw [clean_cons (by decide), path_cons (by decide) (by decide)]
        exact List.cons_ne_nil _ _
    obtain ⟨hwhole, hstand⟩ := front_of_writePath_eq hsets.path hs.kept hback hfront hdots hdecodes
      ((path_sublist (clean t)).trans (clean_sublist t)) hne hsame
    refine ⟨by rwa [hpath], by simp [hquery], hend ?_⟩
    refine (clean_sublist t).eq_of_length_le ?_
    conv_lhs => rw [← hwhole]
    exact (path_sublist (clean t)).length_le
  · -- the query ends the path in both texts
    obtain ⟨x', q', rfl, hx, hq⟩ :=
      Decodes.exists_append (c := '?') (by decide) (by decide) (by decide) hdecodes
    have hclean := clean_append_cons (c := '?') (by decide) x' q'
    have hfiltered : List.Sublist (x'.filter fun c => !isBreak c) x' := List.filter_sublist
    rw [List.mem_append, not_or] at hback
    have hfronthash : '#' ∉ x := fun hmem => hhash (List.mem_append_left _ hmem)
    have hpath : path (x ++ '?' :: q) = x := path_append hquestion hfronthash q
    have hquery : query (x ++ '?' :: q) = some q := query_append hquestion hhash
    have hsame := h.path
    rw [hpath] at hsame hdots
    have hne : x' ≠ [] → path (clean (x' ++ '?' :: q')) ≠ [] := by
      intro hne
      rcases hfront with rfl | ⟨y, rfl⟩
      · exact absurd hx.eq_nil hne
      · obtain ⟨y', rfl, -⟩ := hx.cons_slash
        rw [List.cons_append, clean_cons (by decide), path_cons (by decide) (by decide)]
        exact List.cons_ne_nil _ _
    have hleft : List.Sublist (path (clean (x' ++ '?' :: q'))) (x'.filter fun c => !isBreak c) := by
      rw [hclean]
      exact path_append_sublist _ _
    obtain ⟨hwhole, hstand⟩ := front_of_writePath_eq hsets.path
      (fun c hc => hs.kept c (List.mem_append_left _ hc)) hback.1 hfront hdots hx
      (hleft.trans hfiltered) hne hsame
    -- nothing is dropped in front of the question mark, so that the rest is the query
    have hkeptall : (x'.filter fun c => !isBreak c) = x' := by
      refine hfiltered.eq_of_length_le ?_
      conv_lhs => rw [← hwhole]
      exact hleft.length_le
    rw [hkeptall] at hclean
    have hnoquestion : '?' ∉ x' := by
      rw [← hwhole]
      exact fun hmem => absurd (List.mem_takeWhile_imp hmem) (by decide)
    have hnohash : '#' ∉ x' ++ '?' :: clean q' := by
      rw [← hclean]
      exact fragment_eq_none_iff.mp h.fragment
    have hwritten := h.query
    rw [hclean, query_append hnoquestion hnohash, hquery, Option.map_some, Option.map_some,
      Option.some.injEq] at hwritten
    obtain ⟨hlast, hstandq⟩ :=
      query_of_write_eq hsets.query.toKeepsEscapes hq (clean_sublist q') hwritten
    refine ⟨by rwa [hpath], ?_, hend (by rw [hclean, hlast])⟩
    rintro q₁ hq₁
    rw [hquery, Option.mem_some_iff] at hq₁
    rwa [← hq₁]

/-- Where the escapes stand, undoing them brings no character that is written as it is. -/
theorem not_mem_of_stands (hkeeps : KeepsEscapes set) (hdecodes : Decodes a b)
    (hstand : EscapesStand set a) (hc : IsKept set c) (hnot : c ∉ a) : c ∉ b := by
  have hsame := (write_eq_iff hkeeps hdecodes).mpr hstand
  exact fun hmem => hnot (mem_of_mem_decoded hkeeps hdecodes (le_of_eq (by rw [hsame])) hc hmem)

/-- Where the escapes of a tail stand, it is written as before without them. -/
theorem writesSame_of_stands (hsets : sets.Lawful) (hs : IsTail sets s)
    (hdecodes : Decodes s t) (h : Stands sets s t) : WritesSame sets s t := by
  have hhash : '#' ∉ s := fun hmem => (hs.plain _ hmem).1 rfl
  have hback : '\\' ∉ s := fun hmem => (hs.plain _ hmem).2.1 rfl
  have hbreak : ∀ c ∈ "\t\n\r".toList, c ∉ s := by
    intro c hc hmem
    have hnone := isBreak_of_not_isBlank (hs.plain c hmem).2.2
    rw [isBreak, List.contains_iff_mem.mpr hc] at hnone
    cases hnone
  obtain ⟨x, hfront, hquestion, hx⟩ := hs.cases
  -- the path is written as it was
  have hwrite : ∀ x', Decodes x x' → EscapesStand sets.path x → '\\' ∉ x →
      writePath sets.path x' = writePath sets.path x := by
    intro x' hx hstand hback
    rcases hfront with rfl | ⟨y, rfl⟩
    · rw [hx.eq_nil]
    · obtain ⟨y', rfl, hy⟩ := hx.cons_slash
      rw [escapesStand_cons_slash] at hstand
      rw [List.mem_cons, not_or] at hback
      have hnone := not_mem_of_stands hsets.path.toKeepsEscapes hy hstand
        (hsets.path.kept '\\' (by decide)) hback.2
      rw [writePath, writePath, List.drop_one, List.drop_one, List.tail_cons, List.tail_cons,
        slashes_eq_self hback.2, slashes_eq_self hnone,
        (write_eq_iff hsets.path.toKeepsEscapes hy).mpr hstand]
  rcases hx with rfl | ⟨q, rfl⟩
  · have hpath : path s = s := path_eq_self hquestion hhash
    have hstand := h.path
    rw [hpath] at hstand
    have hnone : ∀ c ∈ "/\\?#\t\n\r".toList, c ∉ s → c ∉ t := fun c hc =>
      not_mem_of_stands hsets.path.toKeepsEscapes hdecodes hstand (hsets.path.kept c hc)
    have hclean : clean t = t := by
      refine clean_eq_self (fun c hc => eq_false_of_ne_true fun hmem => ?_) h.last
      have hmem := List.contains_iff_mem.mp hmem
      exact hnone c (List.mem_append_right "/\\?#".toList hmem) (hbreak c hmem) hc
    have hthash := hnone '#' (by decide) hhash
    have htquestion := hnone '?' (by decide) hquestion
    exact
      { path := by
          rw [hclean, path_eq_self htquestion hthash, hpath, hwrite t hdecodes hstand hback]
        query := by rw [hclean, query_eq_none htquestion, query_eq_none hquestion]
        fragment := by rwa [hclean, fragment_eq_none_iff] }
  · obtain ⟨x', q', rfl, hx, hq⟩ :=
      Decodes.exists_append (c := '?') (by decide) (by decide) (by decide) hdecodes
    simp only [List.mem_append, List.mem_cons, not_or] at hback hbreak
    have hpath : path (x ++ '?' :: q) = x :=
      path_append hquestion (fun hmem => hhash (List.mem_append_left _ hmem)) q
    have hquery : query (x ++ '?' :: q) = some q := query_append hquestion hhash
    simp only [List.mem_append, List.mem_cons, not_or] at hhash
    have hstand := h.path
    have hstandq := h.query q hquery
    rw [hpath] at hstand
    have hnone : ∀ c ∈ "/\\?#\t\n\r".toList, c ∉ x → c ∉ x' := fun c hc =>
      not_mem_of_stands hsets.path.toKeepsEscapes hx hstand (hsets.path.kept c hc)
    have hnoneq : ∀ c ∈ "#\t\n\r".toList, c ∉ q → c ∉ q' := fun c hc =>
      not_mem_of_stands hsets.query.toKeepsEscapes hq hstandq (hsets.query.kept c hc)
    have hclean : clean (x' ++ '?' :: q') = x' ++ '?' :: q' := by
      refine clean_eq_self (fun c hc => eq_false_of_ne_true fun hmem => ?_) h.last
      have hmem := List.contains_iff_mem.mp hmem
      obtain ⟨hnotx, hne, hnotq⟩ := hbreak c hmem
      simp only [List.mem_append, List.mem_cons] at hc
      rcases hc with hc | rfl | hc
      · exact hnone c (List.mem_append_right "/\\?#".toList hmem) hnotx hc
      · exact hne rfl
      · exact hnoneq c (List.mem_append_right "#".toList hmem) hnotq hc
    have hxquestion := hnone '?' (by decide) hquestion
    have hxhash := hnone '#' (by decide) hhash.1
    have hthash : '#' ∉ x' ++ '?' :: q' := by
      simp only [List.mem_append, List.mem_cons, not_or]
      exact ⟨hxhash, by decide, hnoneq '#' (by decide) hhash.2.2⟩
    exact
      { path := by
          rw [hclean, path_append hxquestion hxhash, hpath, hwrite x' hx hstand hback.1]
        query := by
          rw [hclean, query_append hxquestion hthash, hquery, Option.map_some, Option.map_some,
            (write_eq_iff hsets.query.toKeepsEscapes hq).mpr hstandq]
        fragment := by rwa [hclean, fragment_eq_none_iff] }

/-- With its escapes undone a tail is written as before exactly if the escapes stand, where it has
no dot segments. -/
theorem writesSame_iff (hsets : sets.Lawful) (hs : IsTail sets s)
    (hdots : ¬ HasDotSegment ((path s).drop 1)) (hdecodes : Decodes s t) :
    WritesSame sets s t ↔ Stands sets s t :=
  ⟨stands_of_writesSame hsets hs hdots hdecodes, writesSame_of_stands hsets hs hdecodes⟩

end Tails

end UrlText
