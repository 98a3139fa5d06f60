import Mathlib.Data.List.Basic
import Mathlib.Tactic.Ring
import Mathlib.Tactic.NormNum

namespace TdxTools.Python.ByteString

abbrev Bytes := List UInt8

variable {α : Type}

/-- `xs[i:j]` for indices that are not negative. -/
def slice (xs : List α) (i j : Nat) : List α := (xs.take j).drop i

/-- The list after `xs[i:j] = ys` on a mutable sequence: indices past the end
are clipped, so a long `ys` overwrites nothing further and makes the list grow. -/
def setSlice (xs : List α) (i j : Nat) (ys : List α) : List α :=
  xs.take i ++ ys ++ xs.drop (max i j)

@[simp] theorem length_slice (xs : List α) (i j : Nat) :
    (slice xs i j).length = min j xs.length - i := by
  simp [slice]

theorem slice_eq_drop_take (xs : List α) (i n : Nat) :
    slice xs i (i + n) = (xs.drop i).take n := by
  rw [slice, List.drop_take, Nat.add_sub_cancel_left]

theorem slice_zero (xs : List α) (j : Nat) : slice xs 0 j = xs.take j := rfl

theorem slice_append_of_le (xs ys : List α) (i j : Nat) (h : j ≤ xs.length) :
    slice (xs ++ ys) i j = slice xs i j := by
  rw [slice, List.take_append_of_le_length h, slice]

/-- Reading at the end of `xs` sees exactly the piece appended there. -/
theorem slice_piece (xs ys zs : List α) :
    slice (xs ++ (ys ++ zs)) xs.length (xs.length + ys.length) = ys := by
  rw [slice_eq_drop_take, List.drop_left, List.take_left]

theorem slice_drop (xs : List α) (k i j : Nat) :
    slice (xs.drop k) i j = slice xs (k + i) (k + j) := by
  simp only [slice, List.drop_drop, List.take_drop]

theorem slice_slice (xs : List α) (i j k l : Nat) :
    slice (slice xs i j) k l = slice xs (i + k) (min j (i + l)) := by
  simp only [slice, List.take_drop, List.take_take, List.drop_drop]
  congr 2
  omega

theorem getElem?_slice (xs : List α) (i j k : Nat) :
    (slice xs i j)[k]? = if i + k < j then xs[i + k]? else none := by
  simp only [slice, List.getElem?_drop, List.getElem?_take]

theorem slice_split (xs : List α) (i j k : Nat) (hij : i ≤ j) (hjk : j ≤ k) :
    slice xs i k = slice xs i j ++ slice xs j k := by
  obtain ⟨m, rfl⟩ := Nat.exists_eq_add_of_le hij
  obtain ⟨n, rfl⟩ := Nat.exists_eq_add_of_le hjk
  rw [slice_eq_drop_take, slice_eq_drop_take, Nat.add_assoc, slice_eq_drop_take,
    List.take_add, List.drop_drop]

theorem slice_self (xs : List α) (i : Nat) : slice xs i i = [] := by
  simp [slice]

theorem slice_succ {xs : List α} {i k : Nat} {x : α} (h : i ≤ k) (hx : xs[k]? = some x) :
    slice xs i (k + 1) = slice xs i k ++ [x] := by
  obtain ⟨hk, rfl⟩ := List.getElem?_eq_some_iff.mp hx
  have hlen : i ≤ (xs.take k).length := by
    rw [List.length_take]
    omega
  rw [slice, List.take_succ_eq_append_getElem hk, List.drop_append_of_le_length hlen, slice]

/-- The pieces of these widths from a position on, one behind the other. -/
def pieces (xs : List α) : Nat → List Nat → List (List α)
  | _, [] => []
  | pos, w :: widths => slice xs pos (pos + w) :: pieces xs (pos + w) widths

theorem flatten_pieces (xs : List α) (pos : Nat) (widths : List Nat) :
    (pieces xs pos widths).flatten = slice xs pos (pos + widths.sum) := by
  induction widths generalizing pos with
  | nil => simp [pieces, slice]
  | cons w widths ih =>
    rw [pieces, List.flatten_cons, ih, List.sum_cons, ← Nat.add_assoc]
    exact (slice_split xs pos (pos + w) _ (by omega) (by omega)).symm

@[simp] theorem setSlice_nil (xs : List α) (i : Nat) : setSlice xs i i [] = xs := by
  rw [setSlice, Nat.max_self, List.append_nil, List.take_append_drop]

theorem length_setSlice_eq (xs : List α) (i j : Nat) (ys : List α) (hi : i ≤ xs.length) :
    (setSlice xs i j ys).length = i + ys.length + (xs.length - max i j) := by
  rw [setSlice, List.length_append, List.length_append, List.length_take, List.length_drop,
    Nat.min_eq_left hi]

theorem length_setSlice (xs : List α) (i j : Nat) (ys : List α) (hj : j ≤ xs.length)
    (hys : i + ys.length = j) : (setSlice xs i j ys).length = xs.length := by
  simp only [setSlice, List.length_append, List.length_take, List.length_drop]
  omega

theorem setSlice_frame (xs : List α) (i j : Nat) (ys : List α) (hj : j ≤ xs.length)
    (hys : i + ys.length = j) (k : Nat) (hk : k < i ∨ j ≤ k) :
    (setSlice xs i j ys)[k]? = xs[k]? := by
  have hi : (xs.take i).length = i := by simp; omega
  rcases hk with hk | hk
  · rw [setSlice, List.append_assoc, List.getElem?_append_left (by omega),
      List.getElem?_take_of_lt hk]
  · have hl : (xs.take i ++ ys).length = j := by simp; omega
    rw [setSlice, List.getElem?_append_right (by omega), hl, List.getElem?_drop]
    congr 1
    omega

theorem slice_setSlice_self (xs : List α) (i j : Nat) (ys : List α) (hj : j ≤ xs.length)
    (hys : i + ys.length = j) : slice (setSlice xs i j ys) i j = ys := by
  have hi : (xs.take i).length = i := by simp; omega
  have h := slice_piece (xs.take i) ys (xs.drop (max i j))
  rw [hi, hys, ← List.append_assoc] at h
  exact h

theorem setSlice_setSlice (xs ys zs : List α) (i j : Nat) (hj : j ≤ xs.length)
    (hys : i + ys.length = j) : setSlice (setSlice xs i j ys) i j zs = setSlice xs i j zs := by
  have hi : (xs.take i).length = i := by simp; omega
  have ht : (xs.take i ++ ys).length = j := by simp; omega
  have hm : max i j = j := by omega
  rw [setSlice, setSlice, setSlice, hm, List.drop_left' ht, List.append_assoc (xs.take i) ys,
    List.take_left' hi]

/-- Two lists that agree on a range of positions have the same slice there. -/
theorem slice_congr (xs ys : List α) (i j : Nat)
    (h : ∀ k, i ≤ k → k < j → xs[k]? = ys[k]?) : slice xs i j = slice ys i j := by
  apply List.ext_getElem?
  intro k
  rw [getElem?_slice, getElem?_slice]
  split
  · exact h (i + k) (by omega) (by assumption)
  · rfl

/-- An assignment to a range makes the list as long as the range needs by itself. -/
theorem setSlice_append_replicate (xs ys : List α) (a : α) (i j : Nat) (hi : i ≤ xs.length) :
    setSlice (xs ++ List.replicate (j - xs.length) a) i j ys = setSlice xs i j ys := by
  by_cases hj : j ≤ xs.length
  · rw [Nat.sub_eq_zero_of_le hj, List.replicate_zero, List.append_nil]
  · have hrest : (xs ++ List.replicate (j - xs.length) a).drop (max i j) = xs.drop (max i j) := by
      rw [List.drop_eq_nil_of_le, List.drop_eq_nil_of_le]
      · omega
      · rw [List.length_append, List.length_replicate]
        omega
    rw [setSlice, setSlice, hrest, List.take_append_of_le_length hi]

/-- Filling a range and then writing the first part of it is one assignment. -/
theorem setSlice_fill (xs ys : List α) (a : α) (i j n : Nat) (hj : j ≤ xs.length)
    (hn : i + n = j) (hy : ys.length ≤ n) :
    setSlice (setSlice xs i j (List.replicate n a)) i (i + ys.length) ys =
      setSlice xs i j (ys ++ List.replicate (n - ys.length) a) := by
  have hi : (xs.take i).length = i := by simp; omega
  have ht : (xs.take i ++ (List.replicate n a ++ xs.drop j)).take i = xs.take i :=
    List.take_left' hi
  have hd : (xs.take i ++ (List.replicate n a ++ xs.drop j)).drop (i + ys.length) =
      List.replicate (n - ys.length) a ++ xs.drop j := by
    rw [← List.drop_drop, List.drop_left' hi, List.drop_append_of_le_length (by simpa using hy),
      List.drop_replicate]
  have h1 : max i j = j := by omega
  have h2 : max i (i + ys.length) = i + ys.length := by omega
  rw [setSlice, setSlice, setSlice, h1, h2, List.append_assoc (xs.take i), ht, hd]
  simp only [List.append_assoc]

/-- A list survives behind another one, cut to its length, when it repeats that
other list over and over. -/
theorem take_append_eq_iff (xs ys : List α) : (xs ++ ys).take ys.length = ys ↔
    xs = [] ∨ ∀ k < ys.length, ys[k]? = xs[k % xs.length]? := by
  constructor
  · intro h
    by_cases hx : xs = []
    · exact Or.inl hx
    have hpos : 0 < xs.length := List.length_pos_iff.mpr hx
    refine Or.inr (fun k => ?_)
    induction k using Nat.strong_induction_on with
    | h k ih =>
      intro hk
      have hat : ys[k]? = (xs ++ ys)[k]? :=
        (congrArg (·[k]?) h.symm).trans (List.getElem?_take_of_lt hk)
      by_cases hlt : k < xs.length
      · rw [hat, List.getElem?_append_left hlt, Nat.mod_eq_of_lt hlt]
      · rw [hat, List.getElem?_append_right (Nat.not_lt.mp hlt), ih _ (by omega) (by omega),
          ← Nat.mod_eq_sub_mod (Nat.not_lt.mp hlt)]
  · rintro (rfl | h)
    · exact List.take_length
    apply List.ext_getElem?
    intro k
    by_cases hk : k < ys.length
    · rw [List.getElem?_take_of_lt hk]
      by_cases hlt : k < xs.length
      · rw [List.getElem?_append_left hlt, h k hk, Nat.mod_eq_of_lt hlt]
      · rw [List.getElem?_append_right (Nat.not_lt.mp hlt), h k hk, h _ (by omega),
          ← Nat.mod_eq_sub_mod (Nat.not_lt.mp hlt)]
    · rw [List.getElem?_eq_none (Nat.not_lt.mp hk), List.getElem?_eq_none (by simp; omega)]

/-- The `w` little-endian bytes of `n`, as `struct.pack` lays them out. -/
def leBytes : Nat → Nat → Bytes
  | 0, _ => []
  | w + 1, n => UInt8.ofNat n :: leBytes w (n / 256)

def leNat : Bytes → Nat
  | [] => 0
  | b :: bs => b.toNat + 256 * leNat bs

@[simp] theorem length_leBytes (w n : Nat) : (leBytes w n).length = w := by
  induction w generalizing n with
  | zero => rfl
  | succ w ih => simp [leBytes, ih]

theorem leNat_leBytes (w n : Nat) (h : n < 256 ^ w) : leNat (leBytes w n) = n := by
  induction w generalizing n with
  | zero => simp only [pow_zero] at h; simp only [leBytes, leNat]; omega
  | succ w ih =>
    have hd : n / 256 < 256 ^ w := by
      apply Nat.div_lt_of_lt_mul
      rwa [pow_succ, Nat.mul_comm] at h
    have hb : (UInt8.ofNat n).toNat = n % 256 := by simp
    rw [leBytes, leNat, ih _ hd, hb]
    omega

theorem leNat_lt (b : Bytes) : leNat b < 256 ^ b.length := by
  induction b with
  | nil => simp [leNat]
  | cons b bs ih =>
    have hb := b.toNat_lt
    simp only [leNat, List.length_cons, pow_succ]
    omega

theorem leBytes_leNat (b : Bytes) : leBytes b.length (leNat b) = b := by
  induction b with
  | nil => rfl
  | cons b bs ih =>
    have hb := b.toNat_lt
    have hd : (b.toNat + 256 * leNat bs) / 256 = leNat bs := by omega
    have hm : UInt8.ofNat (b.toNat + 256 * leNat bs) = b := by
      apply UInt8.toNat_inj.mp
      simp only [UInt8.toNat_ofNat']
      omega
    rw [List.length_cons, leNat, leBytes, hd, ih, hm]

theorem leBytes_append_inj {w m n : Nat} {xs ys : Bytes} (hm : m < 256 ^ w) (hn : n < 256 ^ w)
    (h : leBytes w m ++ xs = leBytes w n ++ ys) : m = n ∧ xs = ys := by
  obtain ⟨hl, hr⟩ := List.append_inj h (by rw [length_leBytes, length_leBytes])
  refine ⟨?_, hr⟩
  rw [← leNat_leBytes w m hm, hl, leNat_leBytes w n hn]

theorem leNat_slice_lt {b : Bytes} {i w : Nat} (h : i + w ≤ b.length) :
    leNat (slice b i (i + w)) < 256 ^ w := by
  have hl : (slice b i (i + w)).length = w := by
    rw [length_slice]
    omega
  have hb := leNat_lt (slice b i (i + w))
  rwa [hl] at hb

theorem leBytes_slice {b : Bytes} {i w : Nat} (h : i + w ≤ b.length) :
    leBytes w (leNat (slice b i (i + w))) = slice b i (i + w) := by
  have hl : (slice b i (i + w)).length = w := by
    rw [length_slice]
    omega
  have hb := leBytes_leNat (slice b i (i + w))
  rwa [hl] at hb

theorem leNat_injective {a b : Bytes} (hl : a.length = b.length) (h : leNat a = leNat b) :
    a = b := by
  rw [← leBytes_leNat a, ← leBytes_leNat b, hl, h]

def beBytes (w n : Nat) : Bytes := (leBytes w n).reverse

def beNat (b : Bytes) : Nat := leNat b.reverse

@[simp] theorem length_beBytes (w n : Nat) : (beBytes w n).length = w := by
  simp [beBytes]

theorem beBytes_beNat (b : Bytes) : beBytes b.length (beNat b) = b := by
  have h := leBytes_leNat b.reverse
  rw [List.length_reverse] at h
  rw [beBytes, beNat, h, List.reverse_reverse]

theorem leBytes_add (v w n : Nat) :
    leBytes (v + w) n = leBytes v n ++ leBytes w (n / 256 ^ v) := by
  induction v generalizing n with
  | zero => simp [leBytes]
  | succ v ih =>
    rw [Nat.succ_add, leBytes, leBytes, ih, List.cons_append, pow_succ, Nat.mul_comm,
      Nat.div_div_eq_div_mul]

theorem drop_beBytes (v w n : Nat) : (beBytes (v + w) n).drop v = beBytes w n := by
  have h : beBytes (v + w) n = beBytes v (n / 256 ^ w) ++ beBytes w n := by
    rw [beBytes, Nat.add_comm, leBytes_add, List.reverse_append]
    rfl
  rw [h, List.drop_left' (length_beBytes v _)]

end TdxTools.Python.ByteString
