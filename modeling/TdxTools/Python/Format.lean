import Mathlib.Data.Nat.Log
import TdxTools.Python.Text

namespace TdxTools.Python.Format

open ByteString Text

def upperDigit (d : Nat) : Char :=
  ['0', '1', '2', '3', '4', '5', '6', '7', '8', '9', 'A', 'B', 'C', 'D', 'E', 'F'].getD d '0'

def upperDigits : Nat → Nat → Str
  | 0, _ => []
  | w + 1, n => upperDigits w (n / 16) ++ [upperDigit (n % 16)]

/-- `"{0:0wX}".format(n)`: as many digits as there are, zeros in front when
they are less than `w`. -/
def formatX (w n : Nat) : Str := upperDigits (max w (Nat.log 16 n + 1)) n

theorem hexVal_upperDigit : ∀ d < 16, hexVal (upperDigit d) = some d := by decide

theorem hexVal_of_mem_upperDigits (w n : Nat) : ∀ c ∈ upperDigits w n, (hexVal c).isSome := by
  induction w generalizing n with
  | zero => simp [upperDigits]
  | succ w ih =>
    intro c hc
    apply (List.mem_append.mp hc).elim (ih _ c)
    intro hlast
    obtain rfl := List.mem_singleton.mp hlast
    rw [hexVal_upperDigit _ (Nat.mod_lt _ (by decide))]
    rfl

theorem hexNat_upperDigits (w n : Nat) (h : n < 16 ^ w) : hexNat (upperDigits w n) = some n := by
  induction w generalizing n with
  | zero =>
    obtain rfl : n = 0 := by simpa using h
    rfl
  | succ w ih =>
    have hdiv : n / 16 < 16 ^ w := by
      apply Nat.div_lt_of_lt_mul
      rwa [pow_succ, Nat.mul_comm] at h
    rw [upperDigits, hexNat_append_singleton, ih _ hdiv, hexVal_upperDigit _ (Nat.mod_lt _ (by decide)),
      Option.bind_some, Option.map_some]
    congr 1
    omega

/-- What is printed reads as the number. -/
theorem hexNat_formatX (w n : Nat) : hexNat (formatX w n) = some n := by
  apply hexNat_upperDigits
  calc n < 16 ^ (Nat.log 16 n + 1) := Nat.lt_pow_succ_log_self (by decide) n
    _ ≤ 16 ^ max w (Nat.log 16 n + 1) := Nat.pow_le_pow_right (by decide) (Nat.le_max_right _ _)

theorem hexVal_of_mem_formatX {w n : Nat} : ∀ c ∈ formatX w n, (hexVal c).isSome :=
  hexVal_of_mem_upperDigits _ _

/-- A byte has two digits. -/
theorem formatX_byte (b : UInt8) :
    formatX 2 b.toNat = [upperDigit (b.toNat / 16), upperDigit (b.toNat % 16)] := by
  have hb : b.toNat < 16 ^ 2 := b.toNat_lt
  have hlog : Nat.log 16 b.toNat < 2 := Nat.log_lt_of_lt_pow' (by decide) hb
  have hdigit : b.toNat / 16 % 16 = b.toNat / 16 := by omega
  rw [formatX, Nat.max_eq_left hlog, upperDigits, upperDigits, upperDigits, hdigit]
  rfl

section Fromhex

theorem fromhex_space {c : Char} (h : isSpace c = true) (s : Str) : fromhex (c :: s) = fromhex s := by
  cases s with
  | nil => exact if_pos h
  | cons d s => rw [fromhex, if_pos h]

theorem fromhex_spaces {blank : Str} (h : ∀ c ∈ blank, isSpace c = true) (s : Str) :
    fromhex (blank ++ s) = fromhex s := by
  induction blank with
  | nil => rfl
  | cons c blank ih =>
    rw [List.cons_append, fromhex_space (h c List.mem_cons_self)]
    exact ih fun d hd => h d (List.mem_cons_of_mem c hd)

/-- Two digits are read as the byte they were printed for. -/
theorem fromhex_byte (b : UInt8) (s : Str) :
    fromhex (formatX 2 b.toNat ++ s) = (fromhex s).map (b :: ·) := by
  have hb := b.toNat_lt
  have hhigh := hexVal_upperDigit (b.toNat / 16) (by omega)
  have hlow := hexVal_upperDigit (b.toNat % 16) (by omega)
  have hspace : ¬ isSpace (upperDigit (b.toNat / 16)) = true := by
    rw [isSpace_of_hexVal (by rw [hhigh]; rfl)]
    decide
  have hvalue : UInt8.ofNat (16 * (b.toNat / 16) + b.toNat % 16) = b := by
    rw [Nat.div_add_mod]
    exact UInt8.ofNat_toNat
  rw [formatX_byte, List.cons_append, List.cons_append, List.nil_append, fromhex, if_neg hspace, hhigh,
    hlow]
  dsimp only
  rw [hvalue]

end Fromhex

end TdxTools.Python.Format
