import Corx.Base.PercentCoding

/-!
# Escapes that are undone and written again

A writer of URLs puts escapes for the bytes of a set, and leaves the rest of a text, percent signs
included, as it is (`escape`). What becomes of a text whose escapes are undone before it is written:
it does not get longer (`length_escape_percentDecode_le`), and it is written as before exactly if
every escape in it is one that the writer puts itself, in upper case
(`escape_percentDecode_eq_iff`).
-/

namespace Str

/-! ## Writing -/

/-- The byte is escaped: it is in the set, or not ASCII. -/
def isEscaped (set : UInt8 → Bool) (b : UInt8) : Bool :=
  0x80 ≤ b || set b

/-- `percent_encoding::percent_encode`: bytes that are in the set or not ASCII are written as
escapes. -/
def escape (set : UInt8 → Bool) (bytes : List UInt8) : Str :=
  bytes.flatMap fun b => if isEscaped set b then percentEncodeByte b else [Char.ofNat b.toNat]

/-- The set leaves escapes as they are: neither the percent sign nor a digit is in it. -/
structure KeepsEscapes (set : UInt8 → Bool) : Prop where
  percent : set 0x25 = false
  digit : ∀ b, (hexDigit b).isSome = true → set b = false

variable {set : UInt8 → Bool} {b h l : UInt8} {s : Str}

/-- Writing goes piece by piece. -/
@[simp]
theorem escape_append (bytes rest : List UInt8) :
    escape set (bytes ++ rest) = escape set bytes ++ escape set rest :=
  List.flatMap_append

/-- A byte is written by itself. -/
theorem escape_cons (b : UInt8) (bytes : List UInt8) :
    escape set (b :: bytes) =
      (if isEscaped set b then percentEncodeByte b else [Char.ofNat b.toNat]) ++
        escape set bytes :=
  List.flatMap_cons

/-- A byte that is not escaped is written as its character. -/
theorem escape_cons_of_not (hb : isEscaped set b = false) (bytes : List UInt8) :
    escape set (b :: bytes) = Char.ofNat b.toNat :: escape set bytes := by
  rw [escape_cons, hb, if_neg Bool.false_ne_true, List.singleton_append]

/-- No byte is written as nothing. -/
theorem length_le_length_escape (set : UInt8 → Bool) (bytes : List UInt8) :
    bytes.length ≤ (escape set bytes).length := by
  induction bytes with
  | nil => exact Nat.zero_le _
  | cons b bytes ih =>
    rw [escape_cons, List.length_append, List.length_cons]
    split <;> simp only [percentEncodeByte, List.length_cons, List.length_nil] <;> omega

/-- An ASCII byte that is not in the set is not escaped. -/
theorem isEscaped_of_ascii {c : Char} (hc : c.toNat < 128)
    (hset : set (UInt8.ofNat c.toNat) = false) : isEscaped set (UInt8.ofNat c.toNat) = false := by
  have hlow : ¬ 0x80 ≤ UInt8.ofNat c.toNat := UInt8.not_le.mpr (ofNat_lt_of_ascii hc)
  rw [isEscaped, hset, Bool.or_false, decide_eq_false hlow]

/-- An ASCII character that is not in the set is written as it is. -/
theorem escape_utf8EncodeChar {c : Char} (hc : c.toNat < 128)
    (hset : set (UInt8.ofNat c.toNat) = false) :
    escape set (String.utf8EncodeChar c) = [c] := by
  rw [utf8EncodeChar_of_ascii hc, escape_cons_of_not (isEscaped_of_ascii hc hset),
    toNat_ofNat_of_ascii hc, Char.ofNat_toNat]
  rfl

/-- Text without characters in the set is written as it is. -/
theorem escape_asBytes_of_forall (hs : ∀ c ∈ s, c.toNat < 128 ∧ set (UInt8.ofNat c.toNat) = false) :
    escape set (asBytes s) = s := by
  induction s with
  | nil => rfl
  | cons c s ih =>
    obtain ⟨⟨hc, hset⟩, hs⟩ := List.forall_mem_cons.mp hs
    rw [asBytes_cons, escape_append, escape_utf8EncodeChar hc hset, ih hs, List.singleton_append]

/-- Every character that is dropped makes what is written shorter. -/
theorem length_escape_add_le {t : Str} (h : List.Sublist s t) :
    (escape set (asBytes s)).length + t.length ≤ (escape set (asBytes t)).length + s.length := by
  induction h with
  | slnil => exact Nat.le_refl _
  | cons c _ ih =>
    have hone : 0 < (escape set (String.utf8EncodeChar c)).length :=
      (String.length_utf8EncodeChar c ▸ c.utf8Size_pos).trans_le (length_le_length_escape set _)
    rw [asBytes_cons, escape_append, List.length_append, List.length_cons]
    omega
  | cons_cons c _ ih =>
    rw [asBytes_cons, asBytes_cons, escape_append, escape_append, List.length_append,
      List.length_append, List.length_cons, List.length_cons]
    omega

/-! ## The escapes of a text -/

/-- The two digits of each escape. -/
def escapesIn : List UInt8 → List (UInt8 × UInt8)
  | b :: h :: l :: rest =>
    match if b = 0x25 then hexDigit h else none, hexDigit l with
    | some _, some _ => (h, l) :: escapesIn rest
    | _, _ => escapesIn (h :: l :: rest)
  | [_, _] | [_] | [] => []

/-- The escape is one that is put for its byte: the byte is escaped, and the digits are in upper
case. -/
def Standing (set : UInt8 → Bool) (escape : UInt8 × UInt8) : Prop :=
  ∃ hi lo, hexDigit escape.1 = some hi ∧ hexDigit escape.2 = some lo ∧
    isEscaped set (hi * 16 + lo) = true ∧ escape.1 < 0x61 ∧ escape.2 < 0x61

/-- A byte other than a percent sign begins no escape. -/
theorem escapesIn_cons_of_ne (hb : b ≠ 0x25) (rest : List UInt8) :
    escapesIn (b :: rest) = escapesIn rest := by
  match rest with
  | [] => rfl
  | [_] => rfl
  | _ :: _ :: _ => rw [escapesIn, if_neg hb]

/-- The value of a digit, and how it is written again. -/
theorem hexChar_of_hexDigit {hi : UInt8} (hh : hexDigit h = some hi) :
    hi.toNat < 16 ∧ (hexChar hi.toNat = Char.ofNat h.toNat ↔ h < 0x61) ∧ h < 0x80 := by
  have hall : ∀ n : Fin 256, ∀ hi ∈ hexDigit (UInt8.ofNat n), hi.toNat < 16 ∧
      (hexChar hi.toNat = Char.ofNat (UInt8.ofNat n).toNat ↔ UInt8.ofNat n < 0x61) ∧
      UInt8.ofNat n < 0x80 := by
    decide +kernel
  have hthis := hall ⟨h.toNat, h.toNat_lt⟩ hi
  rw [UInt8.ofNat_toNat] at hthis
  exact hthis hh

/-- An escape is put for its byte as it stands exactly if its digits are in upper case. -/
theorem percentEncodeByte_eq_iff {hi lo : UInt8} (hh : hexDigit h = some hi)
    (hl : hexDigit l = some lo) :
    percentEncodeByte (hi * 16 + lo) = ['%', Char.ofNat h.toNat, Char.ofNat l.toNat] ↔
      h < 0x61 ∧ l < 0x61 := by
  obtain ⟨hhi, hhigh, -⟩ := hexChar_of_hexDigit hh
  obtain ⟨hlo, hlow, -⟩ := hexChar_of_hexDigit hl
  have hvalue : (hi * 16 + lo).toNat = hi.toNat * 16 + lo.toNat := by
    have hsixteen : (16 : UInt8).toNat = 16 := rfl
    rw [UInt8.toNat_add, UInt8.toNat_mul, hsixteen]
    omega
  have hdiv : (hi.toNat * 16 + lo.toNat) / 16 = hi.toNat := by omega
  have hmod : (hi.toNat * 16 + lo.toNat) % 16 = lo.toNat := by omega
  rw [percentEncodeByte, hvalue, hdiv, hmod, ← hhigh, ← hlow]
  simp

/-- An escape is left as it is by the writer. -/
theorem escape_cons_escape (hkeeps : KeepsEscapes set) (hh : (hexDigit h).isSome = true)
    (hl : (hexDigit l).isSome = true) (rest : List UInt8) :
    escape set (0x25 :: h :: l :: rest) =
      '%' :: Char.ofNat h.toNat :: Char.ofNat l.toNat :: escape set rest := by
  have hdigit : ∀ d, (hexDigit d).isSome = true → isEscaped set d = false := by
    intro d hd
    obtain ⟨value, hvalue⟩ := Option.isSome_iff_exists.mp hd
    have hlow : ¬ 0x80 ≤ d := UInt8.not_le.mpr (hexChar_of_hexDigit hvalue).2.2
    rw [isEscaped, hkeeps.digit d hd, Bool.or_false, decide_eq_false hlow]
  have hpercent : isEscaped set 0x25 = false := by
    rw [isEscaped, hkeeps.percent]
    rfl
  rw [escape_cons_of_not hpercent, escape_cons_of_not (hdigit h hh),
    escape_cons_of_not (hdigit l hl)]
  rfl

/-! ## Undoing escapes before writing -/

/-- A text whose escapes are undone is written as one that is not longer. -/
theorem length_escape_percentDecode_le (hkeeps : KeepsEscapes set) (bytes : List UInt8) :
    (escape set (percentDecode bytes)).length ≤ (escape set bytes).length := by
  fun_induction percentDecode bytes with
  | case1 b h l rest hi lo hlo hhi ih =>
    obtain ⟨rfl, hhi⟩ := Option.ite_none_right_eq_some.mp hhi
    rw [escape_cons, escape_cons_escape hkeeps (Option.isSome_of_mem hhi)
      (Option.isSome_of_mem hlo)]
    split <;> simp only [percentEncodeByte, List.length_append, List.length_cons,
      List.length_nil] <;> omega
  | case2 b h l rest hno ih =>
    rw [escape_cons, escape_cons b, List.length_append, List.length_append]
    exact Nat.add_le_add_left ih _
  | case3 b c => exact Nat.le_refl _
  | case4 b => exact Nat.le_refl _
  | case5 => exact Nat.le_refl _

/-- A text whose escapes are undone is written as before exactly if each of its escapes stands. -/
theorem escape_percentDecode_eq_iff (hkeeps : KeepsEscapes set) (bytes : List UInt8) :
    escape set (percentDecode bytes) = escape set bytes ↔
      ∀ e ∈ escapesIn bytes, Standing set e := by
  fun_induction percentDecode bytes with
  | case1 b h l rest hi lo hlo hhi ih =>
    obtain ⟨rfl, hhi'⟩ := Option.ite_none_right_eq_some.mp hhi
    have hescapes : escapesIn (0x25 :: h :: l :: rest) = (h, l) :: escapesIn rest := by
      rw [escapesIn, hhi, hlo]
    have hstanding : Standing set (h, l) ↔
        isEscaped set (hi * 16 + lo) = true ∧
          percentEncodeByte (hi * 16 + lo) = ['%', Char.ofNat h.toNat, Char.ofNat l.toNat] := by
      rw [percentEncodeByte_eq_iff hhi' hlo]
      constructor
      · rintro ⟨hi₁, lo₁, hhi₁, hlo₁, hrest⟩
        obtain rfl := Option.some.inj (hhi'.symm.trans hhi₁)
        obtain rfl := Option.some.inj (hlo.symm.trans hlo₁)
        exact hrest
      · rintro hrest
        exact ⟨hi, lo, hhi', hlo, hrest⟩
    rw [hescapes, List.forall_mem_cons, ← ih, hstanding, escape_cons,
      escape_cons_escape hkeeps (Option.isSome_of_mem hhi') (Option.isSome_of_mem hlo)]
    split
    next hin =>
      rw [hin]
      simp only [percentEncodeByte, List.cons_append, List.nil_append, List.cons.injEq, true_and,
        and_true, and_assoc]
    next hout =>
      -- a byte that is not escaped is shorter than its escape
      refine iff_of_false (fun heq => ?_) fun h => hout h.1.1
      have hlength := congrArg List.length heq
      have hle := length_escape_percentDecode_le hkeeps rest
      simp only [List.length_append, List.length_cons, List.length_nil] at hlength
      omega
  | case2 b h l rest hno ih =>
    have hescapes : escapesIn (b :: h :: l :: rest) = escapesIn (h :: l :: rest) := by
      rw [escapesIn]
      split
      next hi lo hhi hlo => exact (hno hi lo hhi hlo).elim
      next => rfl
    rw [hescapes, ← ih, escape_cons, escape_cons b, List.append_cancel_left_eq]
  | case3 b c => simp [escapesIn]
  | case4 b => simp [escapesIn]
  | case5 => simp [escapesIn]

/-- Where undoing the escapes does not make what is written shorter, no escape stands for a byte
that is written as it is. -/
theorem mem_of_mem_percentDecode (hkeeps : KeepsEscapes set) {bytes : List UInt8}
    (hlength : (escape set bytes).length ≤ (escape set (percentDecode bytes)).length)
    (hb : isEscaped set b = false) (hmem : b ∈ percentDecode bytes) : b ∈ bytes := by
  fun_induction percentDecode bytes with
  | case1 c h l rest hi lo hlo hhi ih =>
    obtain ⟨rfl, hhi⟩ := Option.ite_none_right_eq_some.mp hhi
    have hle := length_escape_percentDecode_le hkeeps rest
    rw [escape_cons_escape hkeeps (Option.isSome_of_mem hhi) (Option.isSome_of_mem hlo),
      escape_cons] at hlength
    rcases List.mem_cons.mp hmem with rfl | hmem
    · rw [if_neg (by simp [hb])] at hlength
      simp only [List.length_append, List.length_cons, List.length_nil] at hlength
      omega
    · have hrest : (escape set rest).length ≤ (escape set (percentDecode rest)).length := by
        split at hlength <;> simp only [percentEncodeByte, List.length_append, List.length_cons,
          List.length_nil] at hlength <;> omega
      have := ih hrest hmem
      simp [this]
  | case2 c h l rest hno ih =>
    rw [escape_cons, escape_cons c, List.length_append, List.length_append] at hlength
    rcases List.mem_cons.mp hmem with rfl | hmem
    · exact List.mem_cons_self
    · exact List.mem_cons_of_mem _ (ih (by omega) hmem)
  | case3 => exact hmem
  | case4 => exact hmem
  | case5 => exact hmem

end Str
