import TdxTools.Python.ByteString

namespace TdxTools.Python.Struct

open ByteString

/-- One item of a format string: an unsigned integer of `w` bytes, or the
item `ns`. Formats here are little-endian and have no alignment gaps. -/
inductive Fmt
  | uint (w : Nat)
  | raw (n : Nat)

namespace Fmt

def size : Fmt → Nat
  | uint w => w
  | raw n => n

@[reducible] def Val : Fmt → Type
  | uint _ => Nat
  | raw _ => Bytes

/-- The values that take exactly the room of the item. -/
def Fits : (f : Fmt) → f.Val → Prop
  | uint w, n => n < 256 ^ w
  | raw k, b => b.length = k

@[simp] theorem fits_uint (w n : Nat) : (uint w).Fits n ↔ n < 256 ^ w := Iff.rfl

@[simp] theorem fits_raw (k : Nat) (b : Bytes) : (raw k).Fits b ↔ b.length = k := Iff.rfl

/-- An integer out of range is an error; a byte string of another length is
cut or filled up with zeros. -/
def encode : (f : Fmt) → f.Val → Option Bytes
  | uint w, n => if n < 256 ^ w then some (leBytes w n) else none
  | raw k, b => some (b.take k ++ List.replicate (k - b.length) 0)

def decode : (f : Fmt) → Bytes → f.Val
  | uint _, b => leNat b
  | raw _, b => b

theorem encode_of_fits (f : Fmt) (v : f.Val) (h : f.Fits v) :
    ∃ b, f.encode v = some b ∧ b.length = f.size ∧ f.decode b = v := by
  cases f with
  | uint w => exact ⟨leBytes w v, if_pos h, length_leBytes w v, leNat_leBytes w v h⟩
  | raw k =>
    have hk : (v : Bytes).length = k := h
    refine ⟨v, ?_, hk, rfl⟩
    simp only [encode, hk, Nat.sub_self, List.replicate_zero, List.append_nil]
    rw [List.take_of_length_le (Nat.le_of_eq hk)]

theorem length_encode (f : Fmt) (v : f.Val) (b : Bytes) (h : f.encode v = some b) :
    b.length = f.size := by
  cases f with
  | uint w =>
    simp only [encode, Option.ite_none_right_eq_some, Option.some.injEq] at h
    rw [← h.2, length_leBytes]
    rfl
  | raw k =>
    simp only [encode, Option.some.injEq] at h
    rw [← h, size]
    simp
    omega

/-- What is left of a value in the bytes it is packed to. -/
def stored : (f : Fmt) → f.Val → f.Val
  | uint _, n => n
  | raw k, b => b.take k ++ List.replicate (k - b.length) 0

theorem decode_encode (f : Fmt) (v : f.Val) (b : Bytes) (h : f.encode v = some b) :
    f.decode b = f.stored v := by
  cases f with
  | uint w =>
    simp only [encode, Option.ite_none_right_eq_some, Option.some.injEq] at h
    obtain ⟨hlt, rfl⟩ := h
    exact leNat_leBytes w v hlt
  | raw k =>
    simp only [encode, Option.some.injEq] at h
    exact h.symm

theorem fits_decode (f : Fmt) (b : Bytes) (h : b.length = f.size) : f.Fits (f.decode b) := by
  cases f with
  | uint w =>
    have hl : b.length = w := h
    simpa only [Fits, decode, hl] using leNat_lt b
  | raw k => exact h

theorem encode_decode (f : Fmt) (b : Bytes) (h : b.length = f.size) :
    f.encode (f.decode b) = some b := by
  cases f with
  | uint w =>
    have hb : leNat b < 256 ^ w := fits_decode (.uint w) b h
    have hl : leBytes w (leNat b) = b := by
      have h' : b.length = w := h
      rw [← h', leBytes_leNat]
    exact (if_pos hb).trans (congrArg some hl)
  | raw k =>
    have hk : b.length = k := h
    simp only [encode, decode, hk, Nat.sub_self, List.replicate_zero, List.append_nil]
    rw [List.take_of_length_le (Nat.le_of_eq hk)]

end Fmt

@[reducible] def Vals : List Fmt → Type
  | [] => Unit
  | f :: fs => f.Val × Vals fs

def calcsize (fs : List Fmt) : Nat := (fs.map Fmt.size).sum

@[simp] theorem calcsize_nil : calcsize [] = 0 := rfl

@[simp] theorem calcsize_cons (f : Fmt) (fs : List Fmt) :
    calcsize (f :: fs) = f.size + calcsize fs := rfl

def Fits : (fs : List Fmt) → Vals fs → Prop
  | [], _ => True
  | f :: fs, (v, vs) => f.Fits v ∧ Fits fs vs

/-- `struct.pack`; `none` is `struct.error`. -/
def pack : (fs : List Fmt) → Vals fs → Option Bytes
  | [], _ => some []
  | f :: fs, (v, vs) =>
    match f.encode v, pack fs vs with
    | some b, some bs => some (b ++ bs)
    | _, _ => none

/-- The integers have the width of their items; `raw` items take any bytes. -/
def InWidth : (fs : List Fmt) → Vals fs → Prop
  | [], _ => True
  | .uint w :: fs, (n, vs) => n < 256 ^ w ∧ InWidth fs vs
  | .raw _ :: fs, (_, vs) => InWidth fs vs

def decode : (fs : List Fmt) → Bytes → Vals fs
  | [], _ => ()
  | f :: fs, b => (f.decode (b.take f.size), decode fs (b.drop f.size))

/-- `struct.unpack`; `none` is `struct.error`, raised on every other length. -/
def unpack (fs : List Fmt) (b : Bytes) : Option (Vals fs) :=
  if b.length = calcsize fs then some (decode fs b) else none

theorem pack_cons_eq_some {f : Fmt} {fs : List Fmt} {v : f.Val} {vs : Vals fs} {b : Bytes}
    (h : pack (f :: fs) (v, vs) = some b) :
    ∃ c cs, f.encode v = some c ∧ pack fs vs = some cs ∧ b = c ++ cs := by
  simp only [pack] at h
  cases he : f.encode v with
  | none => simp [he] at h
  | some c =>
    cases hp : pack fs vs with
    | none => simp [he, hp] at h
    | some cs =>
      simp only [he, hp, Option.some.injEq] at h
      exact ⟨c, cs, rfl, rfl, h.symm⟩

theorem length_pack (fs : List Fmt) (vs : Vals fs) (b : Bytes) (h : pack fs vs = some b) :
    b.length = calcsize fs := by
  induction fs generalizing b with
  | nil => simp only [pack, Option.some.injEq] at h; simp [← h]
  | cons f fs ih =>
    obtain ⟨v, vs⟩ := vs
    obtain ⟨c, cs, he, hp, rfl⟩ := pack_cons_eq_some h
    rw [List.length_append, f.length_encode v c he, ih vs cs hp, calcsize_cons]

theorem inWidth_of_pack (fs : List Fmt) (vs : Vals fs) (b : Bytes) (h : pack fs vs = some b) :
    InWidth fs vs := by
  induction fs generalizing b with
  | nil => trivial
  | cons f fs ih =>
    obtain ⟨v, vs⟩ := vs
    obtain ⟨c, cs, he, hp, -⟩ := pack_cons_eq_some h
    cases f with
    | uint w =>
      refine ⟨?_, ih vs cs hp⟩
      by_contra hn
      have hnone : Fmt.encode (.uint w) v = none := if_neg hn
      rw [hnone] at he
      cases he
    | raw n => exact ih vs cs hp

theorem pack_of_inWidth (fs : List Fmt) (vs : Vals fs) (h : InWidth fs vs) :
    ∃ b, pack fs vs = some b := by
  induction fs with
  | nil => exact ⟨[], rfl⟩
  | cons f fs ih =>
    obtain ⟨v, vs⟩ := vs
    have hitem : (∃ c, f.encode v = some c) ∧ InWidth fs vs := by
      cases f with
      | uint w => exact ⟨⟨_, if_pos h.1⟩, h.2⟩
      | raw n => exact ⟨⟨_, rfl⟩, h⟩
    obtain ⟨⟨c, hc⟩, hrest⟩ := hitem
    obtain ⟨cs, hcs⟩ := ih vs hrest
    exact ⟨c ++ cs, by simp only [pack, hc, hcs]⟩

theorem pack_of_fits (fs : List Fmt) (vs : Vals fs) (h : Fits fs vs) :
    ∃ b, pack fs vs = some b ∧ b.length = calcsize fs ∧ decode fs b = vs := by
  induction fs with
  | nil => exact ⟨[], rfl, rfl, rfl⟩
  | cons f fs ih =>
    obtain ⟨v, vs⟩ := vs
    obtain ⟨b, hb, hl, hd⟩ := f.encode_of_fits v h.1
    obtain ⟨bs, hbs, hls, hds⟩ := ih vs h.2
    refine ⟨b ++ bs, ?_, ?_, ?_⟩
    · simp only [pack, hb, hbs]
    · rw [List.length_append, hl, hls, calcsize_cons]
    · rw [decode, ← hl, List.take_left, List.drop_left, hd, hds]

/-- Packing values that fit and unpacking the bytes gives the values back. -/
theorem unpack_pack (fs : List Fmt) (vs : Vals fs) (h : Fits fs vs) :
    ∃ b, pack fs vs = some b ∧ b.length = calcsize fs ∧ unpack fs b = some vs := by
  obtain ⟨b, hb, hl, hd⟩ := pack_of_fits fs vs h
  exact ⟨b, hb, hl, by rw [unpack, if_pos hl, hd]⟩

def stored : (fs : List Fmt) → Vals fs → Vals fs
  | [], _ => ()
  | f :: fs, (v, vs) => (f.stored v, stored fs vs)

/-- Unpacking what was packed gives the integers back, and the byte strings cut
or filled up to their items. -/
theorem unpack_of_pack {fs : List Fmt} {vs : Vals fs} {b : Bytes} (h : pack fs vs = some b) :
    unpack fs b = some (stored fs vs) := by
  rw [unpack, if_pos (length_pack fs vs b h), Option.some.injEq]
  induction fs generalizing b with
  | nil => rfl
  | cons f fs ih =>
    obtain ⟨v, vs⟩ := vs
    obtain ⟨c, cs, he, hp, rfl⟩ := pack_cons_eq_some h
    have hl := f.length_encode v c he
    rw [decode, ← hl, List.take_left, List.drop_left, f.decode_encode v c he, ih hp, stored]

theorem fits_decode (fs : List Fmt) (b : Bytes) (h : b.length = calcsize fs) :
    Fits fs (decode fs b) := by
  induction fs generalizing b with
  | nil => trivial
  | cons f fs ih =>
    rw [calcsize_cons] at h
    exact ⟨f.fits_decode _ (by simp; omega), ih _ (by simp; omega)⟩

theorem pack_decode (fs : List Fmt) (b : Bytes) (h : b.length = calcsize fs) :
    pack fs (decode fs b) = some b := by
  induction fs generalizing b with
  | nil => rw [List.length_eq_zero_iff.mp h]; rfl
  | cons f fs ih =>
    rw [calcsize_cons] at h
    have hf := f.encode_decode (b.take f.size) (by simp; omega)
    have hs := ih (b.drop f.size) (by simp; omega)
    simp only [pack, decode, hf, hs, List.take_append_drop]

theorem unpack_eq_some {fs : List Fmt} {b : Bytes} {vs : Vals fs} (h : unpack fs b = some vs) :
    b.length = calcsize fs ∧ decode fs b = vs := by
  simpa only [unpack, Option.ite_none_right_eq_some, Option.some.injEq] using h

/-- Unpacked values fit the format, and packing them gives the bytes back. -/
theorem pack_unpack {fs : List Fmt} {b : Bytes} {vs : Vals fs} (h : unpack fs b = some vs) :
    Fits fs vs ∧ pack fs vs = some b := by
  obtain ⟨hl, rfl⟩ := unpack_eq_some h
  exact ⟨fits_decode fs b hl, pack_decode fs b hl⟩

end TdxTools.Python.Struct
