import Mathlib.Data.List.Induction
import Mathlib.Data.List.Infix
import TdxTools.Python.ByteString

namespace TdxTools.Python.Text

open ByteString

abbrev Str := List Char

instance : LawfulBEq Str := inferInstanceAs (LawfulBEq (List Char))

/-- `str.lower` on the characters whose lower case is an ASCII letter, the
Kelvin sign among them. Other characters are compared with ASCII text only. -/
def lowerChar (c : Char) : Char :=
  if 65 ≤ c.toNat ∧ c.toNat ≤ 90 then Char.ofNat (c.toNat + 32)
  else if c.toNat = 0x212a then 'k' else c

def lower (s : Str) : Str := s.map lowerChar

theorem lower_cons (c : Char) (s : Str) : lower (c :: s) = lowerChar c :: lower s := rfl

theorem lower_append (s t : Str) : lower (s ++ t) = lower s ++ lower t := List.map_append

def Ascii (s : Str) : Prop := ∀ c ∈ s, c.toNat < 128

instance (s : Str) : Decidable (Ascii s) := List.decidableBAll _ s

def encodeUtf8 (s : Str) : Bytes := s.flatMap String.utf8EncodeChar

/-- A code point of a `str`: a character, or a surrogate that stands alone. -/
inductive CodePoint
  | char (c : Char)
  | surrogate (s : Fin 0x800)
  deriving DecidableEq, Repr

/-- A `str` as a caller may hand it over; `Str` is one without lone surrogates. -/
abbrev PyStr := List CodePoint

def CodePoint.char? : CodePoint → Option Char
  | char c => some c
  | surrogate _ => none

def chars? (s : PyStr) : Option Str := s.mapM CodePoint.char?

/-- `str.encode`; `none` is `UnicodeEncodeError`. -/
def encode (s : PyStr) : Option Bytes := (chars? s).map encodeUtf8

def ofStr (s : Str) : PyStr := s.map .char

theorem chars?_ofStr (s : Str) : chars? (ofStr s) = some s := by
  induction s with
  | nil => rfl
  | cons c s ih =>
    rw [chars?, ofStr] at *
    rw [List.map_cons, List.mapM_cons, ih]
    rfl

theorem encode_ofStr (s : Str) : encode (ofStr s) = some (encodeUtf8 s) := by
  rw [encode, chars?_ofStr, Option.map_some]

/-- Strict UTF-8 decoding one byte at a time: `need` continuation bytes are
owed to the character begun in `acc`, which may not lie below `least`. -/
def decodeUtf8From : Bytes → Nat → Nat → Nat → Option Str
  | [], 0, _, _ => some []
  | [], _ + 1, _, _ => none
  | b :: bs, 0, _, _ =>
    let n := b.toNat
    if n < 0x80 then (decodeUtf8From bs 0 0 0).map (Char.ofNat n :: ·)
    else if 0xc2 ≤ n ∧ n < 0xe0 then decodeUtf8From bs 1 (n - 0xc0) 0x80
    else if 0xe0 ≤ n ∧ n < 0xf0 then decodeUtf8From bs 2 (n - 0xe0) 0x800
    else if 0xf0 ≤ n ∧ n < 0xf5 then decodeUtf8From bs 3 (n - 0xf0) 0x10000
    else none
  | b :: bs, need + 1, acc, least =>
    let n := acc * 64 + (b.toNat - 0x80)
    if b.toNat < 0x80 ∨ 0xc0 ≤ b.toNat then none
    else if need ≠ 0 then decodeUtf8From bs need n least
    else if n < least ∨ (0xd800 ≤ n ∧ n < 0xe000) ∨ 0x110000 ≤ n then none
    else (decodeUtf8From bs 0 0 0).map (Char.ofNat n :: ·)

def decodeUtf8 (b : Bytes) : Option Str := decodeUtf8From b 0 0 0

def AsciiBytes (b : Bytes) : Prop := ∀ x ∈ b, x.toNat < 128

instance (b : Bytes) : Decidable (AsciiBytes b) := List.decidableBAll _ b

theorem decodeUtf8_ascii (b : Bytes) (h : AsciiBytes b) :
    decodeUtf8 b = some (b.map (fun x => Char.ofNat x.toNat)) := by
  unfold decodeUtf8
  induction b with
  | nil => rfl
  | cons x b ih =>
    have hx : x.toNat < 0x80 := h x (by simp)
    have hb := ih (fun y hy => h y (by simp [hy]))
    simp [decodeUtf8From, hx, hb]

theorem encodeUtf8_ascii (s : Str) (h : Ascii s) :
    encodeUtf8 s = s.map (fun c => UInt8.ofNat c.toNat) := by
  induction s with
  | nil => rfl
  | cons c s ih =>
    have hc : c.toNat < 128 := h c (by simp)
    have hs := ih (fun d hd => h d (by simp [hd]))
    have he : String.utf8EncodeChar c = [UInt8.ofNat c.toNat] := by
      have hv : c.val.toNat ≤ 0x7f := by simpa using Nat.le_of_lt_succ hc
      exact if_pos hv
    rw [encodeUtf8, List.flatMap_cons, he, ← encodeUtf8, hs]
    rfl

/-- A character in UTF-16LE: one unit, or the two of a surrogate pair. -/
def utf16EncodeChar (c : Char) : Bytes :=
  if c.toNat < 0x10000 then leBytes 2 c.toNat
  else leBytes 2 (0xd800 + (c.toNat - 0x10000) / 0x400) ++
    leBytes 2 (0xdc00 + (c.toNat - 0x10000) % 0x400)

def encodeUtf16 (s : Str) : Bytes := s.flatMap utf16EncodeChar

theorem length_utf16EncodeChar (c : Char) : (utf16EncodeChar c).length ≤ 2 * c.utf8Size ∧
    (128 ≤ c.toNat → (utf16EncodeChar c).length < 2 * c.utf8Size) := by
  have hutf16 : (utf16EncodeChar c).length = if c.toNat < 0x10000 then 2 else 4 := by
    unfold utf16EncodeChar
    split <;> simp
  have hutf8 : c.utf8Size = if c.toNat ≤ 0x7f then 1 else if c.toNat ≤ 0x7ff then 2
      else if c.toNat ≤ 0xffff then 3 else 4 := rfl
  rw [hutf16, hutf8]
  split_ifs <;> omega

theorem length_encodeUtf16 (s : Str) : (encodeUtf16 s).length ≤ 2 * (encodeUtf8 s).length ∧
    (¬ Ascii s → (encodeUtf16 s).length < 2 * (encodeUtf8 s).length) := by
  induction s with
  | nil => exact ⟨Nat.le_refl _, fun h => absurd (by simp [Ascii]) h⟩
  | cons c s ih =>
    obtain ⟨hle, hlt⟩ := length_utf16EncodeChar c
    obtain ⟨ihle, ihlt⟩ := ih
    rw [encodeUtf16, encodeUtf8] at *
    rw [List.flatMap_cons, List.flatMap_cons, List.length_append, List.length_append,
      String.length_utf8EncodeChar]
    refine ⟨by omega, fun h => ?_⟩
    by_cases hc : 128 ≤ c.toNat
    · have hc := hlt hc
      omega
    · have hs : ¬ Ascii s := by
        intro hs
        apply h
        intro d hd
        rcases List.mem_cons.mp hd with rfl | hd
        · omega
        · exact hs d hd
      have hs := ihlt hs
      omega

theorem encodeUtf16_ascii (s : Str) (h : Ascii s) :
    encodeUtf16 s = s.flatMap (fun c => leBytes 2 c.toNat) := by
  apply List.flatMap_congr
  intro c hc
  have hlt := h c hc
  rw [utf16EncodeChar, if_pos (by omega)]

def hexAlphabet : Str :=
  ['0', '1', '2', '3', '4', '5', '6', '7', '8', '9', 'a', 'b', 'c', 'd', 'e', 'f']

def hexDigit (d : Nat) : Char := hexAlphabet.getD d '0'

def hexVal (c : Char) : Option Nat := hexAlphabet.idxOf? (lowerChar c)

/-- `"%0wx" % n` for a number of at most `w` hex digits. -/
def hexChars : Nat → Nat → Str
  | 0, _ => []
  | w + 1, n => hexChars w (n / 16) ++ [hexDigit (n % 16)]

def hexNat (s : Str) : Option Nat :=
  s.foldlM (fun acc c => (hexVal c).map (acc * 16 + ·)) 0

theorem hexDigit_of_hexVal {c : Char} {d : Nat} (h : hexVal c = some d) :
    d < 16 ∧ hexDigit d = lowerChar c := by
  obtain ⟨hd, he, _⟩ := List.idxOf?_eq_some_iff.mp h
  refine ⟨hd, ?_⟩
  rw [hexDigit, List.getD_eq_getElem?_getD, List.getElem?_eq_getElem hd, Option.getD_some, he]

@[simp] theorem length_hexChars (w n : Nat) : (hexChars w n).length = w := by
  induction w generalizing n with
  | zero => rfl
  | succ w ih => simp [hexChars, ih]

theorem hexChars_add (v w x y : Nat) (hy : y < 16 ^ w) :
    hexChars (v + w) (x * 16 ^ w + y) = hexChars v x ++ hexChars w y := by
  induction w generalizing x y with
  | zero =>
    have h0 : y = 0 := by simpa using hy
    simp [hexChars, h0]
  | succ w ih =>
    have hd : (x * 16 ^ (w + 1) + y) / 16 = x * 16 ^ w + y / 16 := by
      rw [pow_succ, ← Nat.mul_assoc]
      omega
    have hm : (x * 16 ^ (w + 1) + y) % 16 = y % 16 := by
      rw [pow_succ, ← Nat.mul_assoc]
      omega
    have hl : y / 16 < 16 ^ w := by
      apply Nat.div_lt_of_lt_mul
      rwa [pow_succ, Nat.mul_comm] at hy
    rw [← Nat.add_assoc, hexChars, hd, hm, ih x (y / 16) hl, hexChars, List.append_assoc]

theorem hexChars_succ (w n : Nat) :
    hexChars (w + 1) n = hexDigit (n / 16 ^ w % 16) :: hexChars w n := by
  induction w generalizing n with
  | zero => simp [hexChars]
  | succ w ih =>
    rw [hexChars, ih, Nat.div_div_eq_div_mul, Nat.mul_comm, ← pow_succ]
    rfl

theorem lower_hexChars (w n : Nat) : lower (hexChars w n) = hexChars w n := by
  have digit : ∀ d < 16, lowerChar (hexDigit d) = hexDigit d := by decide
  induction w with
  | zero => rfl
  | succ w ih => rw [hexChars_succ, lower_cons, ih, digit _ (Nat.mod_lt _ (by omega))]

theorem hexVal_hexDigit : ∀ d < 16, hexVal (hexDigit d) = some d := by decide

theorem hexDigit_injective {a b : Nat} (ha : a < 16) (hb : b < 16)
    (h : hexDigit a = hexDigit b) : a = b := by
  have hv := hexVal_hexDigit a ha
  rw [h, hexVal_hexDigit b hb] at hv
  exact (Option.some.inj hv).symm

theorem hexChars_injective (w : Nat) {x y : Nat} (hx : x < 16 ^ w) (hy : y < 16 ^ w)
    (h : hexChars w x = hexChars w y) : x = y := by
  induction w generalizing x y with
  | zero => simp only [pow_zero] at hx hy; omega
  | succ w ih =>
    rw [hexChars, hexChars] at h
    obtain ⟨hh, hd⟩ := List.append_inj h (by simp)
    have hlo := hexDigit_injective (Nat.mod_lt _ (by omega)) (Nat.mod_lt _ (by omega))
      (List.singleton_inj.mp hd)
    have hhi := ih (Nat.div_lt_of_lt_mul (by rwa [pow_succ, Nat.mul_comm] at hx))
      (Nat.div_lt_of_lt_mul (by rwa [pow_succ, Nat.mul_comm] at hy)) hh
    omega

theorem hexNat_append_singleton (s : Str) (c : Char) :
    hexNat (s ++ [c]) = (hexNat s).bind (fun n => (hexVal c).map (n * 16 + ·)) := by
  simp [hexNat, List.foldlM_append]

/-- Printing the value of a string of hex digits gives its lower case. -/
theorem hexChars_hexNat (s : Str) (h : ∀ c ∈ s, (hexVal c).isSome) :
    ∃ n, hexNat s = some n ∧ n < 16 ^ s.length ∧ hexChars s.length n = lower s := by
  induction s using List.reverseRecOn with
  | nil => exact ⟨0, rfl, by simp, rfl⟩
  | append_singleton s c ih =>
    obtain ⟨n, hn, hlt, hs⟩ := ih (fun d hd => h d (by simp [hd]))
    obtain ⟨d, hd⟩ := Option.isSome_iff_exists.mp (h c (by simp))
    obtain ⟨hd16, hdc⟩ := hexDigit_of_hexVal hd
    have hdiv : (n * 16 + d) / 16 = n := by omega
    have hmod : (n * 16 + d) % 16 = d := by omega
    refine ⟨n * 16 + d, ?_, ?_, ?_⟩
    · rw [hexNat_append_singleton, hn, hd]
      rfl
    · rw [List.length_append, List.length_singleton, pow_succ]
      omega
    · rw [List.length_append, List.length_singleton, hexChars, hdiv, hmod, hs, hdc]
      simp [lower]

def stripBy (p : Char → Bool) (s : Str) : Str :=
  ((s.dropWhile p).reverse.dropWhile p).reverse

/-- `s.replace(sub, '')`; `skip` characters of an occurrence are still to go. -/
def removeFrom (sub : Str) : Str → Nat → Str
  | [], _ => []
  | _ :: cs, skip + 1 => removeFrom sub cs skip
  | c :: cs, 0 =>
    if sub.isPrefixOf (c :: cs) then removeFrom sub cs (sub.length - 1)
    else c :: removeFrom sub cs 0

def remove (sub s : Str) : Str := removeFrom sub s 0

def isSpace (c : Char) : Bool := [' ', '\t', '\n', '\x0b', '\x0c', '\r'].contains c

/-- `str.isspace` of one character. -/
def isWhitespace (c : Char) : Bool :=
  let n := c.toNat
  (9 ≤ n ∧ n ≤ 13) ∨ (28 ≤ n ∧ n ≤ 32) ∨ n = 0x85 ∨ n = 0xa0 ∨ n = 0x1680 ∨
    (0x2000 ≤ n ∧ n ≤ 0x200a) ∨ n = 0x2028 ∨ n = 0x2029 ∨ n = 0x202f ∨ n = 0x205f ∨ n = 0x3000

/-- `s.split()`. -/
def words (s : Str) : List Str := (s.splitOnP isWhitespace).filter (· ≠ [])

/-- The lines of a text whose line ends are `\n`, `\r` or both; `cur` is what
has been read of the current line. -/
def linesFrom : Str → Str → List Str
  | [], cur => if cur = [] then [] else [cur]
  | '\r' :: '\n' :: cs, cur => cur :: linesFrom cs []
  | c :: cs, cur => if c = '\n' ∨ c = '\r' then cur :: linesFrom cs [] else linesFrom cs (cur ++ [c])

/-- `readlines()` in text mode, without the line ends. -/
def readlines (s : Str) : List Str := linesFrom s []

/-- `bytearray.fromhex`; white space may stand between two bytes. -/
def fromhex : Str → Option Bytes
  | [] => some []
  | [c] => if isSpace c then some [] else none
  | c :: d :: cs =>
    if isSpace c then fromhex (d :: cs)
    else
      match hexVal c, hexVal d with
      | some x, some y => (fromhex cs).map (UInt8.ofNat (16 * x + y) :: ·)
      | _, _ => none

/-- Digits with single underscores between them; `under` says that no
underscore may come next. -/
def digits16 : Str → Bool → Nat → Option Nat
  | [], under, acc => if under then none else some acc
  | c :: cs, under, acc =>
    if c = '_' then if under then none else digits16 cs true acc
    else (hexVal c).bind (fun d => digits16 cs false (acc * 16 + d))

def unsigned16 (s : Str) : Option Nat :=
  match s with
  | '0' :: x :: r =>
    if x = 'x' ∨ x = 'X' then
      match r with
      | '_' :: r' => digits16 r' true 0
      | _ => digits16 r true 0
    else digits16 s true 0
  | _ => digits16 s true 0

/-- The zeros of the decimal digits beyond ASCII in Unicode 14; nine digits follow each. -/
def digitZeros : List Nat :=
  [0x660, 0x6f0, 0x7c0, 0x966, 0x9e6, 0xa66, 0xae6, 0xb66, 0xbe6, 0xc66, 0xce6, 0xd66, 0xde6, 0xe50,
    0xed0, 0xf20, 0x1040, 0x1090, 0x17e0, 0x1810, 0x1946, 0x19d0, 0x1a80, 0x1a90, 0x1b50, 0x1bb0,
    0x1c40, 0x1c50, 0xa620, 0xa8d0, 0xa900, 0xa9d0, 0xa9f0, 0xaa50, 0xabf0, 0xff10, 0x104a0,
    0x10d30, 0x11066, 0x110f0, 0x11136, 0x111d0, 0x112f0, 0x11450, 0x114d0, 0x11650, 0x116c0,
    0x11730, 0x118e0, 0x11950, 0x11c50, 0x11d50, 0x11da0, 0x16a60, 0x16ac0, 0x16b50, 0x1d7ce,
    0x1d7d8, 0x1d7e2, 0x1d7ec, 0x1d7f6, 0x1e140, 0x1e2f0, 0x1e950, 0x1fbf0]

def decimalVal (c : Char) : Option Nat :=
  (digitZeros.find? fun z => z ≤ c.toNat && c.toNat < z + 10).map (c.toNat - ·)

/-- What `int` reads a character as. White space and decimal digits count beyond
ASCII too; any other character from 127 on is in no number. -/
def numeralChar (c : Char) : Char :=
  if c.toNat < 127 then c
  else if isWhitespace c then ' '
  else ((decimalVal c).map hexDigit).getD '?'

/-- `int(s, 16)`; `none` is `ValueError`. -/
def int16 (s : Str) : Option Int :=
  match stripBy isSpace (s.map numeralChar) with
  | '-' :: r => (unsigned16 r).map (fun n => -(n : Int))
  | '+' :: r => (unsigned16 r).map Int.ofNat
  | r => (unsigned16 r).map Int.ofNat

theorem removeFrom_of_not_mem (u : Char) (sub s : Str) (h : u ∉ s) :
    removeFrom (u :: sub) s 0 = s := by
  induction s with
  | nil => rfl
  | cons c s ih =>
    have hc : ¬ u = c := fun he => h (by simp [he])
    have hs : u ∉ s := fun hm => h (by simp [hm])
    simp [removeFrom, hc, ih hs]

theorem remove_singleton (u : Char) (s : Str) : remove [u] s = s.filter (fun c => c ≠ u) := by
  unfold remove
  induction s with
  | nil => rfl
  | cons c s ih =>
    by_cases hc : u = c
    · subst hc
      simp [removeFrom, ih]
    · simp [removeFrom, hc, Ne.symm hc, ih]

theorem stripBy_of_ends (p : Char → Bool) (s : Str) (hh : ∀ c ∈ s.head?, p c = false)
    (hl : ∀ c ∈ s.getLast?, p c = false) : stripBy p s = s := by
  have drop : ∀ t : Str, (∀ c ∈ t.head?, p c = false) → t.dropWhile p = t := by
    intro t ht
    cases t with
    | nil => rfl
    | cons c t => simp [List.dropWhile, ht c (by simp)]
  rw [stripBy, drop s hh, drop s.reverse (by simpa using hl), List.reverse_reverse]

theorem digits16_eq_foldlM (s : Str) (h : ∀ c ∈ s, (hexVal c).isSome) (acc : Nat) :
    digits16 s false acc = s.foldlM (fun acc c => (hexVal c).map (acc * 16 + ·)) acc := by
  induction s generalizing acc with
  | nil => rfl
  | cons c s ih =>
    obtain ⟨d, hd⟩ := Option.isSome_iff_exists.mp (h c (by simp))
    have hc : c ≠ '_' := by rintro rfl; simp [show hexVal '_' = none from by decide] at hd
    rw [digits16, if_neg hc, List.foldlM_cons, hd]
    exact ih (fun e he => h e (by simp [he])) _

theorem isSpace_of_hexVal {c : Char} (h : (hexVal c).isSome) : isSpace c = false := by
  have no : ∀ u, hexVal u = none → c ≠ u := by
    rintro u hu rfl
    simp [hu] at h
  simp [isSpace, no ' ' (by decide), no '\t' (by decide), no '\n' (by decide),
    no '\x0b' (by decide), no '\x0c' (by decide), no '\r' (by decide)]

/-- Two digits for every byte. -/
theorem fromhex_digits (n : Nat) (s : Str) (hn : s.length = 2 * n)
    (h : ∀ c ∈ s, (hexVal c).isSome) : ∃ b, fromhex s = some b ∧ b.length = n := by
  induction n generalizing s with
  | zero =>
    rw [List.length_eq_zero_iff.mp hn]
    exact ⟨[], rfl, rfl⟩
  | succ n ih =>
    match s, hn with
    | c :: d :: cs, hn =>
      obtain ⟨b, hb, hl⟩ := ih cs (by simp at hn; omega) (fun e he => h e (by simp [he]))
      obtain ⟨x, hx⟩ := Option.isSome_iff_exists.mp (h c (by simp))
      obtain ⟨y, hy⟩ := Option.isSome_iff_exists.mp (h d (by simp))
      have hc : ¬ isSpace c = true := by simp [isSpace_of_hexVal (h c (by simp))]
      refine ⟨UInt8.ofNat (16 * x + y) :: b, ?_, by simp [hl]⟩
      rw [fromhex, if_neg hc, hx, hy]
      simp [hb]

theorem ascii_of_hexVal {c : Char} (h : (hexVal c).isSome) : c.toNat < 127 := by
  have digits : ∀ d ∈ hexAlphabet, d.toNat < 127 ∧ d ≠ 'k' := by simp [hexAlphabet]
  have hlower : lowerChar c ∈ hexAlphabet := by
    by_contra hno
    rw [hexVal, List.idxOf?_eq_none_iff.mpr hno] at h
    cases h
  obtain ⟨hlt, hk⟩ := digits _ hlower
  unfold lowerChar at hlt hk
  split_ifs at hlt hk
  · omega
  · exact absurd rfl hk
  · exact hlt

theorem map_numeralChar {s : Str} (h : ∀ c ∈ s, c.toNat < 127) : s.map numeralChar = s := by
  have hid : ∀ c ∈ s, numeralChar c = id c := fun c hc => if_pos (h c hc)
  rw [List.map_congr_left hid, List.map_id]

/-- Stripping takes no character that it does not look for. -/
theorem mem_stripBy {p : Char → Bool} {c : Char} (hc : p c = false) {s : Str} (hmem : c ∈ s) :
    c ∈ stripBy p s := by
  have drop : ∀ t : Str, c ∈ t → c ∈ t.dropWhile p := by
    intro t ht
    have hsplit : t.takeWhile p ++ t.dropWhile p = t := List.takeWhile_append_dropWhile
    rw [← hsplit, List.mem_append] at ht
    refine ht.resolve_left fun htake => ?_
    have hall := List.all_takeWhile (p := p) (l := t)
    rw [List.all_eq_true.mp hall c htake] at hc
    cases hc
  exact List.mem_reverse.mpr (drop _ (List.mem_reverse.mpr (drop s hmem)))

theorem int16_hex (s : Str) (hs : s ≠ []) (h : ∀ c ∈ s, (hexVal c).isSome) :
    int16 s = (hexNat s).map Int.ofNat := by
  have no : ∀ c ∈ s, ∀ u, hexVal u = none → c ≠ u := by
    rintro c hc u hu rfl
    simpa [hu] using h c hc
  have space : ∀ c ∈ s, isSpace c = false := fun c hc => isSpace_of_hexVal (h c hc)
  have strip : stripBy isSpace s = s :=
    stripBy_of_ends _ _ (fun c hc => space c (List.mem_of_mem_head? hc))
      (fun c hc => space c (List.mem_of_mem_getLast? hc))
  have digits : digits16 s true 0 = hexNat s := by
    obtain ⟨c, r, rfl⟩ := List.exists_cons_of_ne_nil hs
    have hc := no c (by simp) '_' (by decide)
    rw [hexNat, ← digits16_eq_foldlM _ h, digits16, digits16, if_neg hc, if_neg hc]
  have unsigned : unsigned16 s = hexNat s := by
    rw [← digits]
    unfold unsigned16
    split
    · have hx := no _ (List.mem_cons_of_mem _ List.mem_cons_self)
      rw [if_neg (by rintro (rfl | rfl) <;> exact hx _ (by decide) rfl)]
    · rfl
  rw [← unsigned, int16, map_numeralChar fun c hc => ascii_of_hexVal (h c hc), strip]
  split
  · exact absurd rfl (no '-' (by simp) '-' (by decide))
  · exact absurd rfl (no '+' (by simp) '+' (by decide))
  · rfl

-- a no-break space and a full-width seven
example : int16 [Char.ofNat 0xA0, '0', 'X', '_', Char.ofNat 0xFF17, 'f'] = some 127 := by decide

/-- A hash function with digests of `size` bytes. -/
structure HashFunction (size : Nat) where
  digest : Bytes → Bytes
  length_digest : ∀ b, (digest b).length = size

def HashFunction.hexdigest {size : Nat} (h : HashFunction size) (b : Bytes) : Str :=
  (h.digest b).flatMap fun x => hexChars 2 x.toNat

end TdxTools.Python.Text
