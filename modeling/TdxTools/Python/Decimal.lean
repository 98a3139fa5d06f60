import TdxTools.Python.Text

namespace TdxTools.Python.Decimal

open Text

/-- `str` of a number that is not negative. -/
def decimal (n : Nat) : Str := Nat.toDigits 10 n

theorem decimal_injective {m n : Nat} (h : decimal m = decimal n) : m = n := by
  have hm : Nat.ofDigitChars 10 (decimal m) 0 = m := Nat.ofDigitChars_ten_toDigits
  have hn : Nat.ofDigitChars 10 (decimal n) 0 = n := Nat.ofDigitChars_ten_toDigits
  rw [← hm, h, hn]

/-- `str(n)`. -/
def decimalInt : Int → Str
  | .ofNat n => decimal n
  | .negSucc n => '-' :: decimal (n + 1)

/-- Digits with single underscores between them; `under` says that no
underscore may come next. -/
def digits10 : Str → Bool → Nat → Option Nat
  | [], under, acc => if under then none else some acc
  | c :: cs, under, acc =>
    if c = '_' then if under then none else digits10 cs true acc
    else if c.isDigit then digits10 cs false (10 * acc + (c.toNat - '0'.toNat)) else none

/-- `int(s)`; `none` is `ValueError`. -/
def int10 (s : Str) : Option Int :=
  match stripBy isSpace (s.map numeralChar) with
  | '-' :: r => (digits10 r true 0).map (fun n : Nat => -(n : Int))
  | '+' :: r => (digits10 r true 0).map Int.ofNat
  | r => (digits10 r true 0).map Int.ofNat

section Digits

theorem digits10_eq {s : Str} (h : ∀ c ∈ s, c.isDigit) (acc : Nat) :
    digits10 s false acc = some (Nat.ofDigitChars 10 s acc) := by
  induction s generalizing acc with
  | nil => simp [digits10]
  | cons c s ih =>
    have hc : c.isDigit := h c List.mem_cons_self
    have hunder : c ≠ '_' := by
      rintro rfl
      cases hc
    rw [digits10, if_neg hunder, if_pos hc, ih fun d hd => h d (List.mem_cons_of_mem _ hd),
      Nat.ofDigitChars_cons]

theorem digits10_digits {s : Str} (hne : s ≠ []) (h : ∀ c ∈ s, c.isDigit) :
    digits10 s true 0 = some (Nat.ofDigitChars 10 s 0) := by
  cases s with
  | nil => exact absurd rfl hne
  | cons c s =>
    have hc : c.isDigit := h c List.mem_cons_self
    have hunder : c ≠ '_' := by
      rintro rfl
      cases hc
    rw [← digits10_eq h, digits10, digits10, if_neg hunder, if_neg hunder]

theorem digits10_none {s : Str} {c : Char} (hmem : c ∈ s) (hunder : c ≠ '_') (hc : ¬ c.isDigit)
    (under : Bool) (acc : Nat) : digits10 s under acc = none := by
  induction s generalizing under acc with
  | nil => cases hmem
  | cons d s ih =>
    rw [digits10]
    by_cases hd : d = c
    · subst hd
      rw [if_neg hunder, if_neg hc]
    · have hs : c ∈ s := (List.mem_cons.mp hmem).resolve_left (Ne.symm hd)
      split_ifs
      · rfl
      · exact ih hs _ _
      · exact ih hs _ _
      · rfl

variable (n : Nat)

theorem isDigit_decimal : ∀ c ∈ decimal n, c.isDigit :=
  fun _ hc => Nat.isDigit_of_mem_toDigits (by decide) (by decide) hc

theorem decimal_ne_nil : decimal n ≠ [] := Nat.toDigits_ne_nil

theorem digits10_decimal : digits10 (decimal n) true 0 = some n := by
  rw [digits10_digits (decimal_ne_nil n) (isDigit_decimal n)]
  exact congrArg some Nat.ofDigitChars_ten_toDigits

end Digits

theorem isSpace_of_isDigit {c : Char} (h : c.isDigit) : isSpace c = false := by
  have hno : ∀ u : Char, u.isDigit = false → c ≠ u := by
    rintro u hu rfl
    rw [h] at hu
    cases hu
  simp [isSpace, hno ' ' (by decide), hno '\t' (by decide), hno '\n' (by decide),
    hno '\x0b' (by decide), hno '\x0c' (by decide), hno '\r' (by decide)]

theorem no_space_decimalInt (n : Int) : ∀ c ∈ decimalInt n, isSpace c = false := by
  intro c hc
  cases n with
  | ofNat m => exact isSpace_of_isDigit (isDigit_decimal m c hc)
  | negSucc m =>
    rcases List.mem_cons.mp hc with rfl | hc
    · decide
    · exact isSpace_of_isDigit (isDigit_decimal _ c hc)

theorem stripBy_of_no_space {s : Str} (h : ∀ c ∈ s, isSpace c = false) : stripBy isSpace s = s :=
  stripBy_of_ends _ _ (fun c hc => h c (List.mem_of_mem_head? hc))
    (fun c hc => h c (List.mem_of_mem_getLast? hc))

theorem ascii_of_isDigit {c : Char} (h : c.isDigit) : c.toNat < 127 := by
  have hmax : '9'.val.toNat = 57 := rfl
  simp only [Char.isDigit, Bool.and_eq_true, decide_eq_true_eq, ge_iff_le,
    UInt32.le_iff_toNat_le] at h
  have hval : c.toNat = c.val.toNat := rfl
  omega

theorem ascii_decimalInt (n : Int) : ∀ c ∈ decimalInt n, c.toNat < 127 := by
  intro c hc
  cases n with
  | ofNat m => exact ascii_of_isDigit (isDigit_decimal m c hc)
  | negSucc m =>
    rcases List.mem_cons.mp hc with rfl | hc
    · decide
    · exact ascii_of_isDigit (isDigit_decimal _ c hc)

/-- A printed number is read back. -/
theorem int10_decimalInt (n : Int) : int10 (decimalInt n) = some n := by
  rw [int10, map_numeralChar (ascii_decimalInt n), stripBy_of_no_space (no_space_decimalInt n)]
  cases n with
  | negSucc m =>
    have hdigits := digits10_decimal (m + 1)
    rw [decimalInt]
    simp only [hdigits]
    rfl
  | ofNat m =>
    have hhead : ∀ c r, decimal m = c :: r → c ≠ '-' ∧ c ≠ '+' := by
      intro c r he
      have hc : c.isDigit := isDigit_decimal m c (by simp [he])
      constructor
      · rintro rfl
        cases hc
      · rintro rfl
        cases hc
    rw [decimalInt]
    split
    · next he => exact absurd rfl (hhead _ _ he).1
    · next he => exact absurd rfl (hhead _ _ he).2
    · rw [digits10_decimal]
      rfl

theorem alpha_range {c : Char} (hc : c.isAlpha) : 65 ≤ c.toNat ∧ c.toNat ≤ 122 := by
  have hA : 'A'.val.toNat = 65 := rfl
  have hZ : 'Z'.val.toNat = 90 := rfl
  have ha : 'a'.val.toNat = 97 := rfl
  have hz : 'z'.val.toNat = 122 := rfl
  have hval : c.toNat = c.val.toNat := rfl
  have hletter : c.isAlpha = (decide ('A'.val ≤ c.val ∧ c.val ≤ 'Z'.val) ||
      (decide ('a'.val ≤ c.val) && decide (c.val ≤ 'z'.val))) := rfl
  rw [hletter] at hc
  simp only [Bool.or_eq_true, Bool.and_eq_true, decide_eq_true_eq, UInt32.le_iff_toNat_le] at hc
  omega

/-- A text with a letter in it is no number. -/
theorem int10_none {s : Str} {c : Char} (hmem : c ∈ s) (hc : c.isAlpha) : int10 s = none := by
  have hne : ∀ u : Char, u.isAlpha = false → c ≠ u := by
    rintro u hu rfl
    rw [hc] at hu
    cases hu
  have hrange := alpha_range hc
  have hdigit : ¬ c.isDigit := by
    intro hdigit
    have h9 : '9'.val.toNat = 57 := rfl
    have hval : c.toNat = c.val.toNat := rfl
    simp only [Char.isDigit, Bool.and_eq_true, decide_eq_true_eq, ge_iff_le,
      UInt32.le_iff_toNat_le] at hdigit
    omega
  have hspace : isSpace c = false := by
    simp [isSpace, hne ' ' (by decide), hne '\t' (by decide), hne '\n' (by decide),
      hne '\x0b' (by decide), hne '\x0c' (by decide), hne '\r' (by decide)]
  have hread : numeralChar c = c := if_pos (by omega)
  have hkept : c ∈ stripBy isSpace (s.map numeralChar) :=
    mem_stripBy hspace (List.mem_map.mpr ⟨c, hmem, hread⟩)
  have hnone : ∀ r, c ∈ r → digits10 r true 0 = none :=
    fun r hr => digits10_none hr (hne '_' (by decide)) hdigit true 0
  rw [int10]
  split
  · next h =>
    rw [h] at hkept
    rw [hnone _ ((List.mem_cons.mp hkept).resolve_left (hne '-' (by decide)))]
    rfl
  · next h =>
    rw [h] at hkept
    rw [hnone _ ((List.mem_cons.mp hkept).resolve_left (hne '+' (by decide)))]
    rfl
  · rw [hnone _ hkept]
    rfl

end TdxTools.Python.Decimal
