import Mathlib.Data.Bool.AllAny
import Corx.Base.Text

/-!
# Percent-coding and UTF-8

`Str.percentEncode keep` writes a text with an escape for every byte of every character that
`keep` does not keep; decoding reads the bytes of the text back (`percentDecode_percentEncode`).
UTF-8 text is read back as well (`fromUtf8_asBytes`), and is written as it was read
(`asBytes_of_fromUtf8`).
Decoding and UTF-8 validation go piece by piece: a piece without percent signs stands for itself
(`percentDecode_append_of_not_mem`), and neither an escape nor the encoding of a character reaches
over an ASCII byte that is no hexadecimal digit (`percentDecode_append_cons`,
`fromUtf8_append_cons`).
-/

namespace Str

/-! ## ASCII -/

/-- Every character is an ASCII character. -/
def IsAscii (s : Str) : Prop :=
  ∀ c ∈ s, c.toNat < 128

/-- Encoding goes piece by piece. -/
@[simp]
theorem asBytes_append (a b : Str) : asBytes (a ++ b) = asBytes a ++ asBytes b :=
  List.flatMap_append

/-- Nothing is encoded by no bytes. -/
@[simp]
theorem asBytes_nil : asBytes [] = [] :=
  rfl

/-- Encoding goes character by character. -/
theorem asBytes_cons (c : Char) (s : Str) :
    asBytes (c :: s) = String.utf8EncodeChar c ++ asBytes s :=
  List.flatMap_cons

/-- An ASCII character is one byte. -/
theorem utf8EncodeChar_of_ascii {c : Char} (h : c.toNat < 128) :
    String.utf8EncodeChar c = [UInt8.ofNat c.toNat] := by
  have hsize : c.utf8Size = 1 := by
    rw [Char.utf8Size_eq_one_iff, UInt32.le_iff_toNat_le]
    exact Nat.le_of_lt_succ h
  rw [String.utf8EncodeChar_eq_singleton hsize]
  rfl

/-- The bytes of ASCII text are the codes of its characters. -/
theorem asBytes_of_isAscii {s : Str} (h : IsAscii s) :
    asBytes s = s.map fun c => UInt8.ofNat c.toNat := by
  induction s with
  | nil => rfl
  | cons c s ih =>
    obtain ⟨hc, hs⟩ := List.forall_mem_cons.mp h
    rw [asBytes_cons, utf8EncodeChar_of_ascii hc, ih hs, List.map_cons, List.singleton_append]

/-- The code of an ASCII character, as a byte. -/
theorem toNat_ofNat_of_ascii {c : Char} (h : c.toNat < 128) :
    (UInt8.ofNat c.toNat).toNat = c.toNat := by
  rw [UInt8.toNat_ofNat']
  exact Nat.mod_eq_of_lt (by omega)

/-- The characters of the bytes of ASCII text are the text. -/
theorem map_ofNat_asBytes {s : Str} (h : IsAscii s) :
    (asBytes s).map (fun b => Char.ofNat b.toNat) = s := by
  rw [asBytes_of_isAscii h, List.map_map]
  conv_rhs => rw [← List.map_id s]
  refine List.map_congr_left fun c hc => ?_
  rw [Function.comp_apply, toNat_ofNat_of_ascii (h c hc), Char.ofNat_toNat, id]

/-- The code of an ASCII character is an ASCII byte. -/
theorem ofNat_lt_of_ascii {c : Char} (h : c.toNat < 128) : UInt8.ofNat c.toNat < 0x80 := by
  rw [UInt8.lt_iff_toNat_lt, toNat_ofNat_of_ascii h]
  exact h

/-! ## UTF-8 -/

/-- Decoding takes an ASCII byte by itself. -/
theorem fromUtf8_cons_of_lt {b : UInt8} (h : b < 0x80) (rest : List UInt8) :
    fromUtf8 (b :: rest) = (fromUtf8 rest).map (Char.ofNat b.toNat :: ·) := by
  rw [fromUtf8.eq_def]
  exact if_pos h

/-- Decoding takes a character of two bytes by itself. -/
theorem fromUtf8_two {b₀ b₁ : UInt8} {n : ℕ} (hlow : 0x80 ≤ n) (hhigh : n < 0x800)
    (h₀ : b₀.toNat = n / 64 + 0xC0) (h₁ : b₁.toNat = n % 64 + 0x80) (rest : List UInt8) :
    fromUtf8 (b₀ :: b₁ :: rest) = (fromUtf8 rest).map (Char.ofNat n :: ·) := by
  have hcode : (b₀.toNat - 0xC0) * 64 + (b₁.toNat - 0x80) = n := by omega
  rw [fromUtf8.eq_def]
  dsimp only
  rw [hcode, if_neg, if_pos]
  · simp only [UInt8.le_iff_toNat_le, UInt8.reduceToNat, h₀, h₁]
    omega
  · simp only [UInt8.lt_iff_toNat_lt, UInt8.reduceToNat, h₀]
    omega

/-- Decoding takes a character of three bytes by itself. -/
theorem fromUtf8_three {b₀ b₁ b₂ : UInt8} {n : ℕ} (hlow : 0x800 ≤ n)
    (hhigh : n < 0xD800 ∨ 0xDFFF < n ∧ n < 0x10000) (h₀ : b₀.toNat = n / 4096 + 0xE0)
    (h₁ : b₁.toNat = n / 64 % 64 + 0x80) (h₂ : b₂.toNat = n % 64 + 0x80) (rest : List UInt8) :
    fromUtf8 (b₀ :: b₁ :: b₂ :: rest) = (fromUtf8 rest).map (Char.ofNat n :: ·) := by
  have hcode : (b₀.toNat - 0xE0) * 4096 + (b₁.toNat - 0x80) * 64 + (b₂.toNat - 0x80) = n := by
    omega
  have heq : ∀ k : UInt8, b₀ = k ↔ b₀.toNat = k.toNat :=
    fun k => ⟨congrArg UInt8.toNat, UInt8.toNat_inj.mp⟩
  rw [fromUtf8.eq_def]
  dsimp only
  rw [hcode, if_neg, if_neg, if_pos]
  · simp only [heq, UInt8.le_iff_toNat_le, apply_ite UInt8.toNat, UInt8.reduceToNat, h₀, h₁, h₂]
    split <;> split <;> omega
  · simp only [UInt8.le_iff_toNat_le, UInt8.reduceToNat, h₀]
    omega
  · simp only [UInt8.lt_iff_toNat_lt, UInt8.reduceToNat, h₀]
    omega

/-- Decoding takes a character of four bytes by itself. -/
theorem fromUtf8_four {b₀ b₁ b₂ b₃ : UInt8} {n : ℕ} (hlow : 0x10000 ≤ n) (hhigh : n < 0x110000)
    (h₀ : b₀.toNat = n / 262144 + 0xF0) (h₁ : b₁.toNat = n / 4096 % 64 + 0x80)
    (h₂ : b₂.toNat = n / 64 % 64 + 0x80) (h₃ : b₃.toNat = n % 64 + 0x80) (rest : List UInt8) :
    fromUtf8 (b₀ :: b₁ :: b₂ :: b₃ :: rest) = (fromUtf8 rest).map (Char.ofNat n :: ·) := by
  have hcode : (b₀.toNat - 0xF0) * 262144 + (b₁.toNat - 0x80) * 4096 +
      (b₂.toNat - 0x80) * 64 + (b₃.toNat - 0x80) = n := by omega
  have heq : ∀ k : UInt8, b₀ = k ↔ b₀.toNat = k.toNat :=
    fun k => ⟨congrArg UInt8.toNat, UInt8.toNat_inj.mp⟩
  rw [fromUtf8.eq_def]
  dsimp only
  rw [hcode, if_neg, if_neg, if_neg, if_pos]
  · simp only [heq, UInt8.le_iff_toNat_le, apply_ite UInt8.toNat, UInt8.reduceToNat, h₀, h₁, h₂, h₃]
    split <;> split <;> omega
  · simp only [UInt8.le_iff_toNat_le, UInt8.reduceToNat, h₀]
    omega
  · simp only [UInt8.le_iff_toNat_le, UInt8.reduceToNat, h₀]
    omega
  · simp only [UInt8.lt_iff_toNat_lt, UInt8.reduceToNat, h₀]
    omega

/-- Decoding reads the encoding of a character back, and goes on. -/
theorem fromUtf8_utf8EncodeChar_append (c : Char) (rest : List UInt8) :
    fromUtf8 (String.utf8EncodeChar c ++ rest) = (fromUtf8 rest).map (c :: ·) := by
  have hvalid : c.toNat < 0xD800 ∨ 0xDFFF < c.toNat ∧ c.toNat < 0x110000 := c.valid
  have hbyte : ∀ n : ℕ, n < 256 → (UInt8.ofNat n).toNat = n := by
    intro n hn
    rw [UInt8.toNat_ofNat', Nat.mod_eq_of_lt hn]
  have hread : (fromUtf8 rest).map (c :: ·) = (fromUtf8 rest).map (Char.ofNat c.toNat :: ·) := by
    rw [Char.ofNat_toNat]
  rw [hread]
  -- one to four bytes, by the size of the code
  by_cases hone : c.toNat < 128
  · rw [utf8EncodeChar_of_ascii hone, List.singleton_append,
      fromUtf8_cons_of_lt (ofNat_lt_of_ascii hone), toNat_ofNat_of_ascii hone]
  have hsame : c.val.toNat = c.toNat := rfl
  have hmore : ¬ c.val.toNat ≤ 0x7f := fun hle => hone (Nat.lt_succ_of_le hle)
  unfold String.utf8EncodeChar
  dsimp only
  rw [if_neg hmore]
  split
  next htwo =>
    exact fromUtf8_two (by omega) (by omega)
      ((hbyte _ (by omega)).trans (by rw [Nat.mod_eq_of_lt (by omega)]))
      (hbyte _ (by omega)) rest
  next htwo =>
    split
    next hthree =>
      exact fromUtf8_three (by omega) (by omega)
        ((hbyte _ (by omega)).trans (by rw [Nat.mod_eq_of_lt (by omega)]))
        (hbyte _ (by omega)) (hbyte _ (by omega)) rest
    next hthree =>
      exact fromUtf8_four (by omega) (by omega)
        ((hbyte _ (by omega)).trans (by rw [Nat.mod_eq_of_lt (by omega)]))
        (hbyte _ (by omega)) (hbyte _ (by omega)) (hbyte _ (by omega)) rest

/-- Decoding reads text back, and goes on. -/
theorem fromUtf8_asBytes_append (s : Str) (rest : List UInt8) :
    fromUtf8 (asBytes s ++ rest) = (fromUtf8 rest).map (s ++ ·) := by
  induction s with
  | nil => simp
  | cons c s ih =>
    rw [asBytes_cons, List.append_assoc, fromUtf8_utf8EncodeChar_append, ih, Option.map_map]
    rfl

/-- Decoding reads text back. -/
theorem fromUtf8_asBytes (s : Str) : fromUtf8 (asBytes s) = some s := by
  have hread := fromUtf8_asBytes_append s []
  rwa [List.append_nil, fromUtf8, Option.map_some, List.append_nil] at hread

/-- Different texts are encoded differently. -/
theorem asBytes_injective {s t : Str} (h : asBytes s = asBytes t) : s = t := by
  have hread := fromUtf8_asBytes s
  rw [h, fromUtf8_asBytes] at hread
  exact (Option.some.inj hread).symm

/-- The code of a character that is made from a valid code. -/
theorem toNat_val_ofNat {n : ℕ} (h : n.isValidChar) : (Char.ofNat n).val.toNat = n := by
  rw [Char.ofNat, dif_pos h]
  rfl

/-- A byte is given by its value. -/
theorem ofNat_eq_of_toNat {n : ℕ} {b : UInt8} (h : n = b.toNat) : UInt8.ofNat n = b := by
  rw [h, UInt8.ofNat_toNat]

/-- The character that is decoded from one byte is encoded by it. -/
theorem utf8EncodeChar_ofNat_one {b : UInt8} (h : b < 0x80) :
    String.utf8EncodeChar (Char.ofNat b.toNat) = [b] := by
  simp only [UInt8.lt_iff_toNat_lt, UInt8.reduceToNat] at h
  have hval : (Char.ofNat b.toNat).toNat = b.toNat := toNat_val_ofNat (Or.inl (by omega))
  rw [utf8EncodeChar_of_ascii (by omega), hval, UInt8.ofNat_toNat]

/-- The character that is decoded from two bytes is encoded by them. -/
theorem utf8EncodeChar_ofNat_two {b₀ b₁ : UInt8}
    (h : 0xC2 ≤ b₀ ∧ b₀ ≤ 0xDF ∧ 0x80 ≤ b₁ ∧ b₁ ≤ 0xBF) :
    String.utf8EncodeChar (Char.ofNat ((b₀.toNat - 0xC0) * 64 + (b₁.toNat - 0x80))) = [b₀, b₁] := by
  simp only [UInt8.le_iff_toNat_le, UInt8.reduceToNat] at h
  generalize hn : (b₀.toNat - 0xC0) * 64 + (b₁.toNat - 0x80) = n
  have hval : (Char.ofNat n).val.toNat = n := toNat_val_ofNat (Or.inl (by omega))
  unfold String.utf8EncodeChar
  dsimp only
  rw [hval]
  refine (if_neg (by omega)).trans ((if_pos (by omega)).trans ?_)
  rw [ofNat_eq_of_toNat (b := b₀) (by omega), ofNat_eq_of_toNat (b := b₁) (by omega)]

/-- The character that is decoded from three bytes is encoded by them. -/
theorem utf8EncodeChar_ofNat_three {b₀ b₁ b₂ : UInt8}
    (h : 0xE0 ≤ b₀ ∧ b₀ ≤ 0xEF ∧ (if b₀ = 0xE0 then 0xA0 else 0x80) ≤ b₁ ∧
      b₁ ≤ (if b₀ = 0xED then 0x9F else 0xBF) ∧ 0x80 ≤ b₂ ∧ b₂ ≤ 0xBF) :
    String.utf8EncodeChar (Char.ofNat ((b₀.toNat - 0xE0) * 4096 + (b₁.toNat - 0x80) * 64 +
      (b₂.toNat - 0x80))) = [b₀, b₁, b₂] := by
  have heq : ∀ k : UInt8, b₀ = k ↔ b₀.toNat = k.toNat :=
    fun k => ⟨congrArg UInt8.toNat, UInt8.toNat_inj.mp⟩
  simp only [heq, UInt8.le_iff_toNat_le, apply_ite UInt8.toNat, UInt8.reduceToNat] at h
  obtain ⟨hlow, hhigh, hfirst, hlast, h₂⟩ := h
  -- no surrogates
  have hvalid : (b₀.toNat - 0xE0) * 4096 + (b₁.toNat - 0x80) * 64 + (b₂.toNat - 0x80) < 0xD800 ∨
      0xDFFF < (b₀.toNat - 0xE0) * 4096 + (b₁.toNat - 0x80) * 64 + (b₂.toNat - 0x80) := by
    split at hlast <;> split at hfirst <;> omega
  have hmore : 0x800 ≤ (b₀.toNat - 0xE0) * 4096 + (b₁.toNat - 0x80) * 64 + (b₂.toNat - 0x80) := by
    split at hlast <;> split at hfirst <;> omega
  have h₁ : 0x80 ≤ b₁.toNat ∧ b₁.toNat ≤ 0xBF := by
    split at hlast <;> split at hfirst <;> omega
  clear hfirst hlast
  generalize hn : (b₀.toNat - 0xE0) * 4096 + (b₁.toNat - 0x80) * 64 + (b₂.toNat - 0x80) = n at *
  have hval : (Char.ofNat n).val.toNat = n :=
    toNat_val_ofNat (hvalid.imp_right fun hover => ⟨hover, by omega⟩)
  unfold String.utf8EncodeChar
  dsimp only
  rw [hval]
  refine (if_neg (by omega)).trans ((if_neg (by omega)).trans ((if_pos (by omega)).trans ?_))
  rw [ofNat_eq_of_toNat (b := b₀) (by omega), ofNat_eq_of_toNat (b := b₁) (by omega),
    ofNat_eq_of_toNat (b := b₂) (by omega)]

/-- The character that is decoded from four bytes is encoded by them. -/
theorem utf8EncodeChar_ofNat_four {b₀ b₁ b₂ b₃ : UInt8}
    (h : 0xF0 ≤ b₀ ∧ b₀ ≤ 0xF4 ∧ (if b₀ = 0xF0 then 0x90 else 0x80) ≤ b₁ ∧
      b₁ ≤ (if b₀ = 0xF4 then 0x8F else 0xBF) ∧ 0x80 ≤ b₂ ∧ b₂ ≤ 0xBF ∧
      0x80 ≤ b₃ ∧ b₃ ≤ 0xBF) :
    String.utf8EncodeChar (Char.ofNat ((b₀.toNat - 0xF0) * 262144 + (b₁.toNat - 0x80) * 4096 +
      (b₂.toNat - 0x80) * 64 + (b₃.toNat - 0x80))) = [b₀, b₁, b₂, b₃] := by
  have heq : ∀ k : UInt8, b₀ = k ↔ b₀.toNat = k.toNat :=
    fun k => ⟨congrArg UInt8.toNat, UInt8.toNat_inj.mp⟩
  simp only [heq, UInt8.le_iff_toNat_le, apply_ite UInt8.toNat, UInt8.reduceToNat] at h
  obtain ⟨hlow, hhigh, hfirst, hlast, h₂, h₂', h₃⟩ := h
  have hvalid : 0x10000 ≤ (b₀.toNat - 0xF0) * 262144 + (b₁.toNat - 0x80) * 4096 +
      (b₂.toNat - 0x80) * 64 + (b₃.toNat - 0x80) ∧
      (b₀.toNat - 0xF0) * 262144 + (b₁.toNat - 0x80) * 4096 +
      (b₂.toNat - 0x80) * 64 + (b₃.toNat - 0x80) < 0x110000 := by
    split at hlast <;> split at hfirst <;> omega
  have h₁ : 0x80 ≤ b₁.toNat ∧ b₁.toNat ≤ 0xBF := by
    split at hlast <;> split at hfirst <;> omega
  clear hfirst hlast
  generalize hn : (b₀.toNat - 0xF0) * 262144 + (b₁.toNat - 0x80) * 4096 +
    (b₂.toNat - 0x80) * 64 + (b₃.toNat - 0x80) = n at *
  have hval : (Char.ofNat n).val.toNat = n := toNat_val_ofNat (Or.inr ⟨by omega, hvalid.2⟩)
  unfold String.utf8EncodeChar
  dsimp only
  rw [hval]
  refine (if_neg (by omega)).trans ((if_neg (by omega)).trans ((if_neg (by omega)).trans ?_))
  rw [ofNat_eq_of_toNat (b := b₀) (by omega), ofNat_eq_of_toNat (b := b₁) (by omega),
    ofNat_eq_of_toNat (b := b₂) (by omega), ofNat_eq_of_toNat (b := b₃) (by omega)]

/-- Text that is decoded is encoded by the bytes it is read from. -/
theorem asBytes_of_fromUtf8 {bytes : List UInt8} {s : Str} (h : fromUtf8 bytes = some s) :
    asBytes s = bytes := by
  fun_induction fromUtf8 bytes generalizing s with
  | case1 => rw [← Option.some.inj h, asBytes_nil]
  | case2 b₀ rest hascii ih =>
    obtain ⟨t, ht, rfl⟩ := Option.map_eq_some_iff.mp h
    rw [asBytes_cons, utf8EncodeChar_ofNat_one hascii, ih ht, List.singleton_append]
  | case3 b₀ h₀ b₁ rest htwo ih =>
    obtain ⟨t, ht, rfl⟩ := Option.map_eq_some_iff.mp h
    rw [asBytes_cons, utf8EncodeChar_ofNat_two htwo, ih ht]
    rfl
  | case4 b₀ h₀ b₁ h₁ b₂ rest hthree ih =>
    obtain ⟨t, ht, rfl⟩ := Option.map_eq_some_iff.mp h
    rw [asBytes_cons, utf8EncodeChar_ofNat_three hthree, ih ht]
    rfl
  | case5 b₀ h₀ b₁ h₁ b₂ h₂ b₃ rest hfour ih =>
    obtain ⟨t, ht, rfl⟩ := Option.map_eq_some_iff.mp h
    rw [asBytes_cons, utf8EncodeChar_ofNat_four hfour, ih ht]
    rfl
  | case6 => cases h
  | case7 => cases h
  | case8 => cases h
  | case9 => cases h

/-- A character in front of a text that is continued. -/
theorem map_cons_bind_append (c : Char) (o tail : Option Str) :
    (o.bind fun s => tail.map (s ++ ·)).map (c :: ·) =
      (o.map (c :: ·)).bind fun s => tail.map (s ++ ·) := by
  cases o <;> cases tail <;> rfl

/-- The encoding of a character does not reach over an ASCII byte. -/
theorem fromUtf8_append_cons {b : UInt8} (h : b < 0x80) (a rest : List UInt8) :
    fromUtf8 (a ++ b :: rest) =
      (fromUtf8 a).bind fun s => (fromUtf8 (b :: rest)).map (s ++ ·) := by
  have hb : ¬ 0x80 ≤ b := UInt8.not_le.mpr h
  -- by the character in front of `a`: a whole one stays, and one that is cut off is not completed
  -- by an ASCII byte
  fun_induction fromUtf8 a with
  | case1 => simp
  | case2 b₀ a hascii ih =>
    rw [List.cons_append, fromUtf8.eq_def]
    dsimp only
    rw [if_pos hascii, ih, map_cons_bind_append]
  | case3 b₀ h₀ b₁ a htwo ih =>
    rw [List.cons_append, List.cons_append, fromUtf8.eq_def]
    dsimp only
    rw [if_neg h₀, if_pos htwo, ih, map_cons_bind_append]
  | case4 b₀ h₀ b₁ h₁ b₂ a hthree ih =>
    rw [List.cons_append, List.cons_append, List.cons_append, fromUtf8.eq_def]
    dsimp only
    rw [if_neg h₀, if_neg h₁, if_pos hthree, ih, map_cons_bind_append]
  | case5 b₀ h₀ b₁ h₁ b₂ h₂ b₃ a hfour ih =>
    rw [List.cons_append, List.cons_append, List.cons_append, List.cons_append, fromUtf8.eq_def]
    dsimp only
    rw [if_neg h₀, if_neg h₁, if_neg h₂, if_pos hfour, ih, map_cons_bind_append]
  | case6 b₀ h₀ b₁ h₁ b₂ h₂ b₃ a h₃ =>
    rw [List.cons_append, List.cons_append, List.cons_append, List.cons_append, fromUtf8.eq_def]
    dsimp only
    rw [if_neg h₀, if_neg h₁, if_neg h₂, if_neg h₃, Option.bind_none]
  | case7 b₀ h₀ b₁ h₁ b₂ h₂ =>
    rw [List.cons_append, List.cons_append, List.cons_append, List.nil_append, fromUtf8.eq_def]
    dsimp only
    rw [if_neg h₀, if_neg h₁, if_neg h₂, if_neg (by simp [hb]), Option.bind_none]
  | case8 b₀ h₀ b₁ h₁ =>
    rw [List.cons_append, List.cons_append, List.nil_append, fromUtf8.eq_def]
    dsimp only
    rw [if_neg h₀, if_neg h₁, if_neg (by simp [hb])]
    cases rest with
    | nil => rfl
    | cons b₃ rest => exact if_neg (by simp [hb])
  | case9 b₀ h₀ =>
    have hlow : ∀ low : UInt8, 0x80 ≤ low → ¬ low ≤ b := fun low hlow hle =>
      hb (UInt8.le_trans hlow hle)
    rw [List.cons_append, List.nil_append, fromUtf8.eq_def]
    dsimp only
    rw [if_neg h₀, if_neg (by simp [hb])]
    cases rest with
    | nil => rfl
    | cons b₂ rest =>
      dsimp only
      rw [if_neg (by split <;> simp [hlow])]
      cases rest with
      | nil => rfl
      | cons b₃ rest => exact if_neg (by split <;> simp [hlow])

/-! ## Percent-coding -/

/-- The upper-case hexadecimal digit of a number below 16. -/
def hexChar (n : ℕ) : Char :=
  Char.ofNat (if n < 10 then 0x30 + n else 0x41 + (n - 10))

/-- The escape of a byte. -/
def percentEncodeByte (b : UInt8) : Str :=
  ['%', hexChar (b.toNat / 16), hexChar (b.toNat % 16)]

/-- Percent-encoding: characters that `keep` does not keep are written as the escapes of their
bytes. -/
def percentEncode (keep : Char → Bool) (s : Str) : Str :=
  s.flatMap fun c => if keep c then [c] else (String.utf8EncodeChar c).flatMap percentEncodeByte

/-- The characters of which escapes consist. -/
def escapeChars : List Char :=
  "%0123456789ABCDEF".toList

/-- Hexadecimal digits occur in escapes. -/
theorem hexChar_mem_escapeChars : ∀ n : Fin 16, hexChar n ∈ escapeChars := by
  decide

/-- A hexadecimal digit is read back as its value. -/
theorem hexDigit_hexChar : ∀ n : Fin 16,
    hexDigit (UInt8.ofNat (hexChar n).toNat) = some (UInt8.ofNat n) := by
  decide

/-- The characters of which escapes consist are ASCII characters. -/
theorem isAscii_escapeChars : IsAscii escapeChars := by
  unfold IsAscii escapeChars
  exact List.all_iff_forall_prop.mp (by decide)

/-- An escape consists of its characters. -/
theorem mem_escapeChars_of_mem {b : UInt8} {c : Char} (h : c ∈ percentEncodeByte b) :
    c ∈ escapeChars := by
  have hb : b.toNat < 256 := b.toNat_lt
  simp only [percentEncodeByte, List.mem_cons, List.not_mem_nil, or_false] at h
  rcases h with rfl | rfl | rfl
  · decide
  · exact hexChar_mem_escapeChars ⟨b.toNat / 16, by omega⟩
  · exact hexChar_mem_escapeChars ⟨b.toNat % 16, by omega⟩

/-- A byte other than a percent sign stands for itself. -/
theorem percentDecode_cons_of_ne {b : UInt8} (h : b ≠ 0x25) (rest : List UInt8) :
    percentDecode (b :: rest) = b :: percentDecode rest := by
  match rest with
  | [] => rfl
  | [_] => rfl
  | _ :: _ :: _ => rw [percentDecode, if_neg h]

/-- Decoding reads an escape back, and goes on. -/
theorem percentDecode_percentEncodeByte (b : UInt8) (rest : List UInt8) :
    percentDecode (asBytes (percentEncodeByte b) ++ rest) = b :: percentDecode rest := by
  have hb : b.toNat < 256 := b.toNat_lt
  have hascii : IsAscii (percentEncodeByte b) :=
    fun c hc => isAscii_escapeChars c (mem_escapeChars_of_mem hc)
  have hhi := hexDigit_hexChar ⟨b.toNat / 16, by omega⟩
  have hlo := hexDigit_hexChar ⟨b.toNat % 16, by omega⟩
  rw [asBytes_of_isAscii hascii, percentEncodeByte, List.map_cons, List.map_cons, List.map_cons,
    List.map_nil, List.cons_append, List.cons_append, List.cons_append, List.nil_append,
    percentDecode, if_pos (show UInt8.ofNat '%'.toNat = 0x25 from rfl), hhi, hlo]
  dsimp only
  congr 1
  -- the two digits are the quotient and the remainder
  rw [← UInt8.toNat_inj, UInt8.toNat_add, UInt8.toNat_mul, UInt8.toNat_ofNat',
    UInt8.toNat_ofNat']
  have hsixteen : (16 : UInt8).toNat = 16 := rfl
  rw [hsixteen]
  omega

/-- A piece without percent signs stands for itself. -/
theorem percentDecode_append_of_not_mem {a : List UInt8} (h : 0x25 ∉ a) (rest : List UInt8) :
    percentDecode (a ++ rest) = a ++ percentDecode rest := by
  induction a with
  | nil => rfl
  | cons b a ih =>
    rw [List.mem_cons, not_or] at h
    rw [List.cons_append, percentDecode_cons_of_ne (Ne.symm h.1), ih h.2, List.cons_append]

/-- A byte that does not begin an escape stands for itself. -/
theorem percentDecode_cons_of_no_escape {b h l : UInt8}
    (hno : ∀ hi lo, (if b = 0x25 then hexDigit h else none) = some hi →
      hexDigit l = some lo → False) (rest : List UInt8) :
    percentDecode (b :: h :: l :: rest) = b :: percentDecode (h :: l :: rest) := by
  rw [percentDecode]
  split
  next hi lo hhi hlo => exact (hno hi lo hhi hlo).elim
  next => rfl

/-- An escape does not reach over a byte that is no hexadecimal digit. -/
theorem percentDecode_append_cons {c : UInt8} (h : hexDigit c = none) (a rest : List UInt8) :
    percentDecode (a ++ c :: rest) = percentDecode a ++ percentDecode (c :: rest) := by
  -- with the byte in second or third place no escape begins
  have hsecond : ∀ (b : UInt8) (rest : List UInt8),
      percentDecode (b :: c :: rest) = b :: percentDecode (c :: rest) := by
    intro b rest
    cases rest with
    | nil => rfl
    | cons l rest =>
      refine percentDecode_cons_of_no_escape (fun hi lo hhi _ => ?_) rest
      rw [h, ite_self] at hhi
      cases hhi
  have hthird : ∀ (b d : UInt8),
      percentDecode (b :: d :: c :: rest) = b :: percentDecode (d :: c :: rest) := by
    intro b d
    refine percentDecode_cons_of_no_escape (fun hi lo _ hlo => ?_) rest
    rw [h] at hlo
    cases hlo
  fun_induction percentDecode a with
  | case1 b d l a hi lo hlo hhi ih =>
    rw [List.cons_append, List.cons_append, List.cons_append, percentDecode, hhi, hlo]
    dsimp only
    rw [ih, List.cons_append]
  | case2 b d l a hno ih =>
    rw [List.cons_append, List.cons_append, List.cons_append,
      percentDecode_cons_of_no_escape hno,
      ← List.cons_append, ← List.cons_append, ih, List.cons_append]
  | case3 b d =>
    rw [List.cons_append, List.cons_append, List.nil_append, hthird, hsecond]
    rfl
  | case4 b => exact hsecond b rest
  | case5 => rfl

/-- Decoding reads encoded text back, where only ASCII characters other than the percent sign
are kept. -/
theorem percentDecode_percentEncode {keep : Char → Bool}
    (hkeep : ∀ c, keep c = true → c.toNat < 128 ∧ c ≠ '%') (s : Str) :
    percentDecode (asBytes (percentEncode keep s)) = asBytes s := by
  -- the escapes of a character are read one by one
  have hescapes : ∀ bytes rest : List UInt8,
      percentDecode (asBytes (bytes.flatMap percentEncodeByte) ++ rest) =
        bytes ++ percentDecode rest := by
    intro bytes rest
    induction bytes with
    | nil => rfl
    | cons b bytes ih =>
      rw [List.flatMap_cons, asBytes_append, List.append_assoc, percentDecode_percentEncodeByte,
        ih, List.cons_append]
  induction s with
  | nil => rfl
  | cons c s ih =>
    rw [percentEncode, List.flatMap_cons, asBytes_append, asBytes_cons c s]
    cases hc : keep c with
    | true =>
      obtain ⟨hascii, hne⟩ := hkeep c hc
      have hbyte : UInt8.ofNat c.toNat ≠ 0x25 := by
        intro heq
        have hcode := congrArg UInt8.toNat heq
        rw [toNat_ofNat_of_ascii hascii] at hcode
        exact hne (Char.ext (UInt32.toNat_inj.mp hcode))
      rw [if_pos rfl, asBytes_cons, asBytes_nil, List.append_nil, utf8EncodeChar_of_ascii hascii,
        List.singleton_append, percentDecode_cons_of_ne hbyte]
      exact congrArg _ ih
    | false =>
      rw [if_neg Bool.false_ne_true, hescapes]
      exact congrArg _ ih

/-- A character that is not kept and does not occur in escapes does not occur in encoded text. -/
theorem not_mem_percentEncode {keep : Char → Bool} {c : Char} (hkeep : keep c = false)
    (hescape : c ∉ escapeChars) (s : Str) : c ∉ percentEncode keep s := by
  intro h
  obtain ⟨d, -, hd⟩ := List.mem_flatMap.mp h
  split at hd
  next hkept =>
    rw [List.mem_singleton.mp hd, hkept] at hkeep
    cases hkeep
  next =>
    obtain ⟨b, -, hb⟩ := List.mem_flatMap.mp hd
    exact hescape (mem_escapeChars_of_mem hb)

/-! ## Text without escapes -/

/-- The bytes of a character that is not ASCII are not either. -/
theorem le_of_mem_utf8EncodeChar {c : Char} (h : 128 ≤ c.toNat) {b : UInt8}
    (hb : b ∈ String.utf8EncodeChar c) : 128 ≤ b.toNat := by
  have hvalid : c.toNat < 0xD800 ∨ 0xDFFF < c.toNat ∧ c.toNat < 0x110000 := c.valid
  have hsame : c.val.toNat = c.toNat := rfl
  have hmore : ¬ c.val.toNat ≤ 0x7f := by omega
  have hbyte : ∀ n : ℕ, 128 ≤ n → n < 256 → 128 ≤ (UInt8.ofNat n).toNat := by
    intro n hlow hhigh
    rwa [UInt8.toNat_ofNat', Nat.mod_eq_of_lt hhigh]
  unfold String.utf8EncodeChar at hb
  dsimp only at hb
  rw [if_neg hmore] at hb
  split at hb
  · simp only [List.mem_cons, List.not_mem_nil, or_false] at hb
    rcases hb with rfl | rfl <;> exact hbyte _ (by omega) (by omega)
  · split at hb <;> simp only [List.mem_cons, List.not_mem_nil, or_false] at hb
    · rcases hb with rfl | rfl | rfl <;> exact hbyte _ (by omega) (by omega)
    · rcases hb with rfl | rfl | rfl | rfl <;> exact hbyte _ (by omega) (by omega)

/-- The bytes of text without percent signs contain no percent sign. -/
theorem percent_not_mem_asBytes {s : Str} (h : '%' ∉ s) : 0x25 ∉ asBytes s := by
  intro hmem
  obtain ⟨c, hc, hcode⟩ := List.mem_flatMap.mp hmem
  by_cases hascii : c.toNat < 128
  · rw [utf8EncodeChar_of_ascii hascii, List.mem_singleton] at hcode
    have htoNat := congrArg UInt8.toNat hcode
    rw [toNat_ofNat_of_ascii hascii] at htoNat
    obtain rfl : c = '%' := Char.ext (UInt32.toNat_inj.mp htoNat.symm)
    exact h hc
  · exact absurd (le_of_mem_utf8EncodeChar (by omega) hcode) (by decide)

/-- Text without escapes is left as it is. -/
theorem fromUtf8_percentDecode_of_no_escape {s : Str} (h : '%' ∉ s) :
    fromUtf8 (percentDecode (asBytes s)) = some s := by
  have hwhole := percentDecode_append_of_not_mem (percent_not_mem_asBytes h) []
  rw [List.append_nil, percentDecode, List.append_nil] at hwhole
  rw [hwhole, fromUtf8_asBytes]

end Str
