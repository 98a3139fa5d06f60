import TdxTools.Python.ByteString
import TdxTools.Python.Exec

namespace TdxTools.Attestation.Blob

open Python.ByteString Python.Exec

structure BinaryBlob where
  data : Bytes
  baseAddress : Nat
  deriving DecidableEq, Repr

namespace BinaryBlob

def length (self : BinaryBlob) : Nat := self.data.length

/-- A little-endian integer of `w` bytes and the position behind it. -/
def getUint (w : Nat) (self : BinaryBlob) (pos : Nat) : Outcome (Nat × Nat) :=
  if pos + w ≤ self.length then .ok (leNat (slice self.data pos (pos + w)), pos + w)
  else .raised .assertionError

def getUint16 (self : BinaryBlob) (pos : Nat) : Outcome (Nat × Nat) := getUint 2 self pos

def getUint8 (self : BinaryBlob) (pos : Nat) : Outcome (Nat × Nat) := getUint 1 self pos

def getUint32 (self : BinaryBlob) (pos : Nat) : Outcome (Nat × Nat) := getUint 4 self pos

def getUint64 (self : BinaryBlob) (pos : Nat) : Outcome (Nat × Nat) := getUint 8 self pos

/-- `ok none` is the bare `None` for no bytes, which is not a pair. -/
def getBytes (self : BinaryBlob) (pos count : Nat) : Outcome (Option (Bytes × Nat)) :=
  if count = 0 then .ok none
  else if pos + count ≤ self.length then
    .ok (some (slice self.data pos (pos + count), pos + count))
  else .raised .assertionError

/-- `data, index = blob.get_bytes(index, count)`. -/
def unpackBytes (self : BinaryBlob) (pos count : Nat) : Outcome (Bytes × Nat) := do
  let pair ← self.getBytes pos count
  .ofOption .typeError pair

theorem getUint_eq_ok {w pos n i : Nat} {self : BinaryBlob} (h : getUint w self pos = .ok (n, i)) :
    pos + w ≤ self.length ∧ n = leNat (slice self.data pos (pos + w)) ∧ i = pos + w := by
  unfold getUint at h
  split at h
  · next hle =>
    cases h
    exact ⟨hle, rfl, rfl⟩
  · cases h

theorem getUint_of_le {w pos : Nat} {self : BinaryBlob} (h : pos + w ≤ self.length) :
    getUint w self pos = .ok (leNat (slice self.data pos (pos + w)), pos + w) := if_pos h

theorem getUint_halts (w : Nat) (self : BinaryBlob) (pos : Nat) : getUint w self pos ≠ .running := by
  unfold getUint
  split <;> simp

theorem unpackBytes_halts (self : BinaryBlob) (pos count : Nat) :
    self.unpackBytes pos count ≠ .running := by
  unfold unpackBytes getBytes
  split
  · simp
  · split <;> simp

theorem unpackBytes_of_le {pos count : Nat} {self : BinaryBlob} (h : 0 < count)
    (hle : pos + count ≤ self.length) :
    self.unpackBytes pos count = .ok (slice self.data pos (pos + count), pos + count) := by
  rw [unpackBytes, getBytes, if_neg (Nat.ne_of_gt h), if_pos hle]
  rfl

theorem unpackBytes_eq_ok {pos count i : Nat} {self : BinaryBlob} {b : Bytes}
    (h : self.unpackBytes pos count = .ok (b, i)) :
    0 < count ∧ pos + count ≤ self.length ∧ b = slice self.data pos (pos + count) ∧
      i = pos + count := by
  unfold unpackBytes getBytes at h
  split at h
  · cases h
  · next hne =>
    split at h
    · next hle =>
      cases h
      exact ⟨Nat.pos_of_ne_zero hne, hle, rfl, rfl⟩
    · cases h

section Reading

variable {data : Bytes} {pos : Nat} (xs ys : Bytes) (base : Nat)

/-- A field is read at the length of what stands before it. -/
theorem getUint_at {w n : Nat} (hd : data = xs ++ (leBytes w n ++ ys)) (hp : pos = xs.length)
    (hn : n < 256 ^ w) : getUint w ⟨data, base⟩ pos = .ok (n, pos + w) := by
  subst hd hp
  have hlen : xs.length + w ≤ (xs ++ (leBytes w n ++ ys)).length := by
    simp only [List.length_append, length_leBytes]
    omega
  have hs := slice_piece xs (leBytes w n) ys
  rw [length_leBytes] at hs
  rw [getUint, length, if_pos hlen, hs, leNat_leBytes w n hn]

theorem unpackBytes_at {b : Bytes} {count : Nat} (hd : data = xs ++ (b ++ ys))
    (hp : pos = xs.length) (hc : count = b.length) (hb : b ≠ []) :
    unpackBytes ⟨data, base⟩ pos count = .ok (b, pos + b.length) := by
  subst hd hp hc
  have hne : b.length ≠ 0 := fun h0 => hb (List.length_eq_zero_iff.mp h0)
  have hlen : xs.length + b.length ≤ (xs ++ (b ++ ys)).length := by
    simp only [List.length_append]
    omega
  rw [unpackBytes, getBytes, if_neg hne, length, if_pos hlen, slice_piece]
  rfl

end Reading

section Fields

variable {σ : Type}

/-- `self.field, offset = self.get_bytes(offset, count)`, for one field after the other. -/
def getFields (blob : BinaryBlob) : List (Nat × (Bytes → σ → σ)) → Nat → Py σ Nat
  | [], offset => pure offset
  | (count, put) :: fields, offset => do
    let (field, offset) ← .lift (blob.unpackBytes offset count)
    .modify (put field)
    getFields blob fields offset

/-- The object with its fields set to what stands at their places. -/
def putFields (data : Bytes) : List (Nat × (Bytes → σ → σ)) → Nat → σ → σ
  | [], _, self => self
  | (count, put) :: fields, offset, self =>
    putFields data fields (offset + count) (put (slice data offset (offset + count)) self)

theorem getFields_eq {blob : BinaryBlob} {fields : List (Nat × (Bytes → σ → σ))} {offset : Nat}
    (hpos : ∀ f ∈ fields, 0 < f.1) (hle : offset + (fields.map Prod.fst).sum ≤ blob.length) (self : σ) :
    getFields blob fields offset self =
      (.ok (offset + (fields.map Prod.fst).sum), putFields blob.data fields offset self) := by
  induction fields generalizing offset self with
  | nil => rfl
  | cons f fields ih =>
    obtain ⟨count, put⟩ := f
    rw [List.map_cons, List.sum_cons, ← Nat.add_assoc] at hle
    rw [getFields, unpackBytes_of_le (hpos _ List.mem_cons_self) (by dsimp only at hle; omega),
      Py.lift_ok_bind_apply]
    dsimp only
    rw [Py.modify_bind_apply, ih (fun f hf => hpos f (List.mem_cons_of_mem _ hf)) hle, List.map_cons,
      List.sum_cons, ← Nat.add_assoc]
    rfl

end Fields

end BinaryBlob

end TdxTools.Attestation.Blob
