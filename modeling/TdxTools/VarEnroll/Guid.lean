import TdxTools.Python.Exec
import TdxTools.Python.Struct
import TdxTools.Python.Text

namespace TdxTools.VarEnroll.Guid

open Python.ByteString Python.Exec Python.Struct Python.Text

def EFI_GLOBAL_VARIABLE : Str := "8BE4DF61-93CA-11d2-AA0D-00E098032B8C".toList
def EFI_IMAGE_SECURITY_DATABASE_GUID : Str := "d719b2cb-3d3a-4596-a3bc-dad00e67656f".toList
def EFI_CERT_X509_GUID : Str := "a5c059a1-94e4-4aa7-87b5-ab155c2bf072".toList

/-- `pattern.match(s)`: the pattern has to match at the start of the string
and says nothing about what follows. -/
def matchPrefix : List (Char → Bool) → Str → Bool
  | [], _ => true
  | _ :: _, [] => false
  | p :: ps, c :: cs => p c && matchPrefix ps cs

def isHex (c : Char) : Bool := hexAlphabet.contains c
def isDash (c : Char) : Bool := c == '-'

def guidPattern : List (Char → Bool) :=
  List.replicate 8 isHex ++ isDash :: List.replicate 4 isHex ++
    isDash :: ['1', '2', '3', '4', '5'].contains :: List.replicate 3 isHex ++
    isDash :: ['8', '9', 'a', 'b'].contains :: List.replicate 3 isHex ++
    isDash :: List.replicate 12 isHex

def isGuid : Option Str → Bool
  | none => false
  | some string => matchPrefix guidPattern (lower string)

def guid2str (byteArr : Bytes) : Str :=
  match unpack [.uint 4, .uint 2, .uint 2, .raw 8] byteArr with
  | none => []
  | some (guidA, guidB, guidC, guidD, _) =>
    let guidDStr := guidD.flatMap (fun byte => hexChars 2 byte.toNat)
    hexChars 8 guidA ++ '-' :: hexChars 4 guidB ++ '-' :: hexChars 4 guidC ++
      '-' :: guidDStr.take 4 ++ '-' :: guidDStr.drop 4

/-- `uuid.UUID(string).int`. -/
def uuidInt (string : Str) : Outcome Nat :=
  let hex := remove "uuid:".toList (remove "urn:".toList string)
  let hex := remove ['-'] (stripBy (fun c => c == '{' || c == '}') hex)
  if hex.length ≠ 32 then .raised .valueError
  else
    match int16 hex with
    | none => .raised .valueError
    | some n => if 0 ≤ n ∧ n < 2 ^ 128 then .ok n.toNat else .raised .valueError

/-- The six `fields` of the UUID, the first five packed little-endian and the
last one as the low six bytes of a big-endian number. -/
def packFields (n : Nat) : Option Bytes :=
  (pack [.uint 4, .uint 2, .uint 2, .uint 1, .uint 1]
    (n / 2 ^ 96, n / 2 ^ 80 % 2 ^ 16, n / 2 ^ 64 % 2 ^ 16, n / 2 ^ 56 % 2 ^ 8,
      n / 2 ^ 48 % 2 ^ 8, ())).map (fun guid1 => guid1 ++ (beBytes 8 (n % 2 ^ 48)).drop 2)

def str2guid (string : Option Str) : Outcome Bytes :=
  if isGuid string then do
    let n ← uuidInt (string.getD [])
    .ofOption .structError (packFields n)
  else
    .raised (.exception ("Invalid GUID string - ".toList ++ string.getD "None".toList))

theorem flatMap_hexChars_beBytes (w n : Nat) (h : n < 256 ^ w) :
    (beBytes w n).flatMap (fun byte => hexChars 2 byte.toNat) = hexChars (w * 2) n := by
  induction w generalizing n with
  | zero => rfl
  | succ w ih =>
    have hd : n / 256 < 256 ^ w := by
      apply Nat.div_lt_of_lt_mul
      rwa [pow_succ, Nat.mul_comm] at h
    have hb : beBytes (w + 1) n = beBytes w (n / 256) ++ [UInt8.ofNat n] := by
      simp [beBytes, leBytes]
    have hn : n = n / 256 * 16 ^ 2 + n % 256 := by omega
    have hx := hexChars_add (w * 2) 2 (n / 256) (n % 256) (by omega)
    rw [← hn] at hx
    rw [hb, List.flatMap_append, ih _ hd, Nat.succ_mul, hx]
    simp

theorem flatMap_hexChars (b : Bytes) :
    b.flatMap (fun byte => hexChars 2 byte.toNat) = hexChars (b.length * 2) (beNat b) := by
  have hlt : beNat b < 256 ^ b.length := by
    have h := leNat_lt b.reverse
    rwa [List.length_reverse] at h
  rw [← flatMap_hexChars_beBytes b.length (beNat b) hlt, beBytes_beNat]

theorem flatMap_hexChars_injective {a b : Bytes}
    (h : a.flatMap (fun byte => hexChars 2 byte.toNat) =
      b.flatMap (fun byte => hexChars 2 byte.toNat)) : a = b := by
  induction a generalizing b with
  | nil =>
    cases b with
    | nil => rfl
    | cons y b =>
      have hl := congrArg List.length h
      simp at hl
      omega
  | cons x a ih =>
    cases b with
    | nil =>
      have hl := congrArg List.length h
      simp at hl
    | cons y b =>
      rw [List.flatMap_cons, List.flatMap_cons] at h
      obtain ⟨hxy, hab⟩ := List.append_inj h (by simp)
      have hn := hexChars_injective 2 (Nat.lt_of_lt_of_eq x.toNat_lt (by norm_num))
        (Nat.lt_of_lt_of_eq y.toNat_lt (by norm_num)) hxy
      rw [UInt8.toNat_inj.mp hn, ih hab]

theorem guid2str_eq (g : Bytes) (hg : g.length = 16) :
    guid2str g = hexChars 8 (leNat (g.take 4)) ++ '-' :: hexChars 4 (leNat ((g.drop 4).take 2)) ++
      '-' :: hexChars 4 (leNat ((g.drop 6).take 2)) ++
      '-' :: ((g.drop 8).flatMap (fun byte => hexChars 2 byte.toNat)).take 4 ++
      '-' :: ((g.drop 8).flatMap (fun byte => hexChars 2 byte.toNat)).drop 4 := by
  have h8 : ((g.drop 8).take 8) = g.drop 8 := List.take_of_length_le (by simp; omega)
  simp [guid2str, unpack, decode, Fmt.decode, Fmt.size, hg, h8]

theorem length_guid2str {g : Bytes} (hg : g.length = 16) : (guid2str g).length = 36 := by
  rw [guid2str_eq g hg]
  simp [hg]

theorem isGuid_of_str2guid {string : Option Str} {g : Bytes} (h : str2guid string = .ok g) :
    isGuid string = true := by
  unfold str2guid at h
  split at h
  · assumption
  · cases h

theorem length_str2guid {string : Option Str} {g : Bytes} (h : str2guid string = .ok g) :
    g.length = 16 := by
  unfold str2guid at h
  split at h
  · obtain ⟨n, -, h⟩ := Outcome.bind_eq_ok.mp h
    obtain ⟨guid1, hg, rfl⟩ := Option.map_eq_some_iff.mp (Outcome.ofOption_eq_ok.mp h)
    have hl : guid1.length = 10 := length_pack _ _ _ hg
    simp [hl]
  · cases h

theorem uuidInt_ne_running (string : Str) : uuidInt string ≠ .running := by
  unfold uuidInt
  dsimp only
  split
  · simp
  · split
    · simp
    · split <;> simp

theorem str2guid_ne_running (string : Option Str) : str2guid string ≠ .running := by
  unfold str2guid
  split
  · exact Outcome.bind_ne_running (uuidInt_ne_running _)
      (fun n => Outcome.ofOption_ne_running _ (packFields n))
  · simp

/-- Two GUIDs that print alike are the same sixteen bytes. -/
theorem guid2str_injective {g g' : Bytes} (hg : g.length = 16) (hg' : g'.length = 16)
    (h : guid2str g = guid2str g') : g = g' := by
  rw [guid2str_eq g hg, guid2str_eq g' hg'] at h
  simp only [List.append_assoc] at h
  have word : ∀ b : Bytes, b.length = 4 → leNat b < 16 ^ 8 := fun b hb => by
    have := leNat_lt b; rw [hb] at this; norm_num at this ⊢; exact this
  have half : ∀ b : Bytes, b.length = 2 → leNat b < 16 ^ 4 := fun b hb => by
    have := leNat_lt b; rw [hb] at this; norm_num at this ⊢; exact this
  obtain ⟨ha, h⟩ := List.append_inj h (by simp)
  obtain ⟨hb, h⟩ := List.append_inj (List.cons.inj h).2 (by simp)
  obtain ⟨hc, h⟩ := List.append_inj (List.cons.inj h).2 (by simp)
  have hl : ∀ b : Bytes, (b.flatMap (fun byte => hexChars 2 byte.toNat)).length = b.length * 2 := by
    simp
  obtain ⟨hd, h⟩ := List.append_inj (List.cons.inj h).2 (by
    rw [List.length_take, List.length_take, hl, hl]; simp [hg, hg'])
  have he := congrArg₂ (· ++ ·) hd (List.cons.inj h).2
  simp only [List.take_append_drop] at he
  have ea := leNat_injective (by simp [hg, hg']) (hexChars_injective 8
    (word _ (by simp [hg])) (word _ (by simp [hg'])) ha)
  have eb := leNat_injective (by simp [hg, hg']) (hexChars_injective 4
    (half _ (by simp [hg])) (half _ (by simp [hg'])) hb)
  have ec := leNat_injective (by simp [hg, hg']) (hexChars_injective 4
    (half _ (by simp [hg])) (half _ (by simp [hg'])) hc)
  have ed := flatMap_hexChars_injective he
  calc g = g.take 4 ++ ((g.drop 4).take 2 ++ ((g.drop 6).take 2 ++ g.drop 8)) := by
        rw [← List.drop_drop (i := 2) (j := 6), List.take_append_drop,
          ← List.drop_drop (i := 2) (j := 4), List.take_append_drop, List.take_append_drop]
    _ = g'.take 4 ++ ((g'.drop 4).take 2 ++ ((g'.drop 6).take 2 ++ g'.drop 8)) := by
        rw [ea, eb, ec, ed]
    _ = g' := by
        rw [← List.drop_drop (i := 2) (j := 6), List.take_append_drop,
          ← List.drop_drop (i := 2) (j := 4), List.take_append_drop, List.take_append_drop]

theorem matchPrefix_append (ps qs : List (Char → Bool)) (s : Str) :
    matchPrefix (ps ++ qs) s = true ↔
      matchPrefix ps s = true ∧ matchPrefix qs (s.drop ps.length) = true := by
  induction ps generalizing s with
  | nil => simp [matchPrefix]
  | cons p ps ih =>
    cases s with
    | nil => simp [matchPrefix]
    | cons c s => simp [matchPrefix, ih, and_assoc]

theorem matchPrefix_append_append {ps : List (Char → Bool)} {s : Str} (h : s.length = ps.length)
    (qs : List (Char → Bool)) (t : Str) :
    matchPrefix (ps ++ qs) (s ++ t) = (matchPrefix ps s && matchPrefix qs t) := by
  induction ps generalizing s with
  | nil =>
    rw [List.length_eq_zero_iff.mp h]
    rfl
  | cons p ps ih =>
    cases s with
    | nil => cases h
    | cons c s =>
      rw [List.cons_append, List.cons_append, matchPrefix, ih (Nat.succ.inj h), matchPrefix,
        Bool.and_assoc]

theorem matchPrefix_replicate (n : Nat) (p : Char → Bool) (s : Str)
    (h : matchPrefix (List.replicate n p) s = true) :
    n ≤ s.length ∧ ∀ c ∈ s.take n, p c = true := by
  induction n generalizing s with
  | zero => simp
  | succ n ih =>
    cases s with
    | nil => simp [List.replicate_succ, matchPrefix] at h
    | cons c s =>
      simp only [List.replicate_succ, matchPrefix, Bool.and_eq_true] at h
      obtain ⟨hl, hs⟩ := ih s h.2
      refine ⟨by simpa using hl, ?_⟩
      simpa [h.1] using hs

theorem isHex_lowerChar (c : Char) : isHex (lowerChar c) = true ↔ (hexVal c).isSome := by
  rw [hexVal, List.isSome_idxOf?, isHex, List.contains_iff_mem]

theorem eq_dash_of_lowerChar {c : Char} (h : isDash (lowerChar c) = true) : c = '-' := by
  have he : lowerChar c = '-' := by simpa [isDash] using h
  unfold lowerChar at he
  split at he
  · have letter : ∀ n < 91, 65 ≤ n → Char.ofNat (n + 32) ≠ '-' := by decide
    exact absurd he (letter _ (by omega) (by omega))
  · split at he
    · exact absurd he (by decide)
    · exact he

theorem dash_run (n : Nat) (q : Char → Bool) (hq : ∀ c, q c = true → isHex c = true)
    (ps : List (Char → Bool)) (s : Str)
    (h : matchPrefix (isDash :: q :: List.replicate n isHex ++ ps) (lower s) = true) :
    ∃ a r, s = '-' :: a ++ r ∧ a.length = n + 1 ∧ (∀ c ∈ a, (hexVal c).isSome) ∧
      matchPrefix ps (lower r) = true := by
  rw [matchPrefix_append] at h
  obtain ⟨h, hps⟩ := h
  match s with
  | [] => simp [lower, matchPrefix] at h
  | [c] => simp [lower, matchPrefix] at h
  | c :: d :: t =>
    simp only [lower, List.map_cons, matchPrefix, Bool.and_eq_true] at h
    obtain ⟨hc, hd, ht⟩ := h
    obtain ⟨hl, hh⟩ := matchPrefix_replicate n isHex _ ht
    rw [List.length_map] at hl
    refine ⟨d :: t.take n, t.drop n, ?_, by simp [hl], ?_, ?_⟩
    · simp [eq_dash_of_lowerChar hc]
    · intro x hx
      rcases List.mem_cons.mp hx with rfl | hx
      · exact (isHex_lowerChar x).mp (hq _ hd)
      · rw [← List.map_take] at hh
        exact (isHex_lowerChar x).mp (hh _ (List.mem_map_of_mem hx))
    · simpa [lower] using hps

/-- A string of 36 characters that `is_guid` accepts has its hex digits in
groups of 8, 4, 4, 4 and 12. -/
theorem isGuid_shape (s : Str) (h : isGuid (some s) = true) (hl : s.length = 36) :
    ∃ a b c d e : Str, s = a ++ '-' :: b ++ '-' :: c ++ '-' :: d ++ '-' :: e ∧
      a.length = 8 ∧ b.length = 4 ∧ c.length = 4 ∧ d.length = 4 ∧ e.length = 12 ∧
      ∀ x ∈ a ++ b ++ c ++ d ++ e, (hexVal x).isSome := by
  have digit : ∀ c, ['1', '2', '3', '4', '5'].contains c = true → isHex c = true := by
    intro c hc
    simp only [List.contains_iff_mem, List.mem_cons, List.not_mem_nil, or_false] at hc
    rcases hc with rfl | rfl | rfl | rfl | rfl <;> decide
  have variant : ∀ c, ['8', '9', 'a', 'b'].contains c = true → isHex c = true := by
    intro c hc
    simp only [List.contains_iff_mem, List.mem_cons, List.not_mem_nil, or_false] at hc
    rcases hc with rfl | rfl | rfl | rfl <;> decide
  rw [isGuid, guidPattern, List.append_assoc, List.append_assoc, List.append_assoc,
    matchPrefix_append] at h
  obtain ⟨h8, h⟩ := h
  obtain ⟨ha, hah⟩ := matchPrefix_replicate 8 isHex _ h8
  rw [lower, ← List.map_take] at hah
  rw [lower, List.length_map] at ha
  rw [List.length_replicate, lower, ← List.map_drop] at h
  obtain ⟨b, r, hb, hbl, hbh, h⟩ := dash_run 3 isHex (fun _ hc => hc) _ _ h
  obtain ⟨c, r', hc, hcl, hch, h⟩ := dash_run 3 _ digit _ _ h
  obtain ⟨d, r'', hd, hdl, hdh, h⟩ := dash_run 3 _ variant _ _ h
  obtain ⟨e, t, he, hel, heh, -⟩ := dash_run 11 isHex (fun _ hc => hc) [] _ h
  have hs : s = s.take 8 ++ s.drop 8 := (List.take_append_drop 8 s).symm
  have ht : t = [] := by
    have hlen := congrArg List.length hs
    rw [hb, hc, hd, he] at hlen
    simp [hl, hbl, hcl, hdl, hel] at hlen
    exact List.length_eq_zero_iff.mp (by omega)
  refine ⟨s.take 8, b, c, d, e, ?_, by simp [ha], hbl, hcl, hdl, hel, ?_⟩
  · rw [hb, hc, hd, he, ht] at hs
    simpa using hs
  · intro x hx
    simp only [List.mem_append] at hx
    rcases hx with (((hx | hx) | hx) | hx) | hx
    · exact (isHex_lowerChar x).mp (hah _ (List.mem_map_of_mem hx))
    · exact hbh x hx
    · exact hch x hx
    · exact hdh x hx
    · exact heh x hx

/-- The digits of a canonical string are all that `uuid.UUID` reads of it. -/
theorem uuidInt_shape (a b c d e : Str) (ha : a.length = 8) (hb : b.length = 4)
    (hc : c.length = 4) (hd : d.length = 4) (he : e.length = 12)
    (hx : ∀ x ∈ a ++ b ++ c ++ d ++ e, (hexVal x).isSome) :
    ∃ n, uuidInt (a ++ '-' :: b ++ '-' :: c ++ '-' :: d ++ '-' :: e) = .ok n ∧ n < 16 ^ 32 ∧
      hexChars 32 n = lower (a ++ b ++ c ++ d ++ e) := by
  let s := a ++ '-' :: b ++ '-' :: c ++ '-' :: d ++ '-' :: e
  have hs : ∀ x ∈ s, (hexVal x).isSome ∨ x = '-' := by
    intro x hm
    simp only [s, List.mem_append, List.mem_cons] at hm hx
    grind
  have no : ∀ u : Char, hexVal u = none → u ≠ '-' → u ∉ s := by
    intro u hu hne hm
    rcases hs u hm with h | h
    · simp [hu] at h
    · exact hne h
  have hurn : remove "urn:".toList s = s :=
    removeFrom_of_not_mem _ _ _ (no 'u' (by decide) (by decide))
  have huuid : remove "uuid:".toList s = s :=
    removeFrom_of_not_mem _ _ _ (no 'u' (by decide) (by decide))
  have braces : ∀ x ∈ s, (x == '{' || x == '}') = false := by
    intro x hm
    have h1 : x ≠ '{' := fun h => no '{' (by decide) (by decide) (h ▸ hm)
    have h2 : x ≠ '}' := fun h => no '}' (by decide) (by decide) (h ▸ hm)
    simp [h1, h2]
  have hstrip : stripBy (fun x => x == '{' || x == '}') s = s :=
    stripBy_of_ends _ _ (fun x h => braces x (List.mem_of_mem_head? h))
      (fun x h => braces x (List.mem_of_mem_getLast? h))
  have keep : ∀ t : Str, (∀ x ∈ t, (hexVal x).isSome) → t.filter (fun x => x ≠ '-') = t := by
    intro t ht
    rw [List.filter_eq_self]
    intro x hm
    have : x ≠ '-' := by
      rintro rfl
      simpa [show hexVal '-' = none from by decide] using ht _ hm
    simpa using this
  have hfilter : remove ['-'] s = a ++ b ++ c ++ d ++ e := by
    rw [remove_singleton]
    simp only [s, List.append_assoc, List.filter_append, List.filter_cons]
    simp only [List.mem_append] at hx
    rw [keep a (fun x h => hx x (by simp [h])), keep b (fun x h => hx x (by simp [h])),
      keep c (fun x h => hx x (by simp [h])), keep d (fun x h => hx x (by simp [h])),
      keep e (fun x h => hx x (by simp [h]))]
    simp
  have hlen : (a ++ b ++ c ++ d ++ e).length = 32 := by simp [ha, hb, hc, hd, he]
  have hne : a ++ b ++ c ++ d ++ e ≠ [] := fun h => by rw [h] at hlen; simp at hlen
  obtain ⟨n, hn, hlt, hchars⟩ := hexChars_hexNat _ hx
  rw [hlen] at hlt hchars
  refine ⟨n, ?_, hlt, hchars⟩
  change uuidInt s = _
  have h128 : 0 ≤ Int.ofNat n ∧ Int.ofNat n < 2 ^ 128 := by
    have : (16 : Nat) ^ 32 = 2 ^ 128 := by norm_num
    rw [Int.ofNat_eq_natCast]
    omega
  simp only [uuidInt, hurn, huuid, hstrip, hfilter, hlen, int16_hex _ hne hx, hn, Option.map_some]
  rw [if_neg (by simp), if_pos h128]
  rfl

/-- The bytes made of a number print as its 32 hex digits in groups. -/
theorem guid2str_packFields (n : Nat) (hn : n < 16 ^ 32) :
    ∃ g, packFields n = some g ∧ g.length = 16 ∧
      guid2str g = hexChars 8 (n / 2 ^ 96) ++ '-' :: hexChars 4 (n / 2 ^ 80 % 2 ^ 16) ++
        '-' :: hexChars 4 (n / 2 ^ 64 % 2 ^ 16) ++
        '-' :: hexChars 4 (n / 2 ^ 48 % 2 ^ 16) ++ '-' :: hexChars 12 (n % 2 ^ 48) := by
  let f3 := n / 2 ^ 56 % 2 ^ 8
  let f4 := n / 2 ^ 48 % 2 ^ 8
  have h0 : n / 2 ^ 96 < 256 ^ 4 := by
    apply Nat.div_lt_of_lt_mul
    calc n < 16 ^ 32 := hn
      _ = 2 ^ 96 * 256 ^ 4 := by norm_num
  have h1 : n / 2 ^ 80 % 2 ^ 16 < 256 ^ 2 := by norm_num; exact Nat.mod_lt _ (by norm_num)
  have h2 : n / 2 ^ 64 % 2 ^ 16 < 256 ^ 2 := by norm_num; exact Nat.mod_lt _ (by norm_num)
  have h3 : f3 < 256 ^ 1 := by norm_num; exact Nat.mod_lt _ (by norm_num)
  have h4 : f4 < 256 ^ 1 := by norm_num; exact Nat.mod_lt _ (by norm_num)
  have h5 : n % 2 ^ 48 < 256 ^ 6 := by norm_num; exact Nat.mod_lt _ (by norm_num)
  have hnode : (beBytes 8 (n % 2 ^ 48)).drop 2 = beBytes 6 (n % 2 ^ 48) := drop_beBytes 2 6 _
  have hpack : packFields n = some (leBytes 4 (n / 2 ^ 96) ++ leBytes 2 (n / 2 ^ 80 % 2 ^ 16) ++
      leBytes 2 (n / 2 ^ 64 % 2 ^ 16) ++
      (leBytes 1 f3 ++ leBytes 1 f4 ++ beBytes 6 (n % 2 ^ 48))) := by
    simp only [packFields, pack, Fmt.encode]
    rw [if_pos h0, if_pos h1, if_pos h2, if_pos h3, if_pos h4, hnode]
    simp only [f3, f4, Option.map_some, List.append_nil, List.append_assoc]
  refine ⟨_, hpack, by simp, ?_⟩
  have htail : (leBytes 1 f3 ++ leBytes 1 f4 ++ beBytes 6 (n % 2 ^ 48)).flatMap
      (fun byte => hexChars 2 byte.toNat) =
      hexChars 4 (n / 2 ^ 48 % 2 ^ 16) ++ hexChars 12 (n % 2 ^ 48) := by
    have e3 : (leBytes 1 f3).flatMap (fun byte => hexChars 2 byte.toNat) = hexChars 2 f3 := by
      simp only [leBytes, List.flatMap_cons, List.flatMap_nil, List.append_nil, UInt8.toNat_ofNat']
      rw [Nat.mod_eq_of_lt (by simpa using h3)]
    have e4 : (leBytes 1 f4).flatMap (fun byte => hexChars 2 byte.toNat) = hexChars 2 f4 := by
      simp only [leBytes, List.flatMap_cons, List.flatMap_nil, List.append_nil, UInt8.toNat_ofNat']
      rw [Nat.mod_eq_of_lt (by simpa using h4)]
    have hsplit : n / 2 ^ 48 % 2 ^ 16 = f3 * 16 ^ 2 + f4 := by
      simp only [f3, f4]
      omega
    rw [List.flatMap_append, List.flatMap_append, e3, e4, flatMap_hexChars_beBytes 6 _ h5, hsplit,
      hexChars_add 2 2 f3 f4 (by simpa using h4)]
  rw [guid2str_eq _ (by simp)]
  have d4 : ∀ x y z : Bytes, (leBytes 4 (n / 2 ^ 96) ++ x ++ y ++ z).take 4 =
      leBytes 4 (n / 2 ^ 96) := fun x y z => by
    rw [List.append_assoc, List.append_assoc, List.take_left' (by simp)]
  rw [d4, leNat_leBytes 4 _ h0]
  have e4 : ∀ x y z : Bytes, (leBytes 4 (n / 2 ^ 96) ++ x ++ y ++ z).drop 4 = x ++ (y ++ z) :=
    fun x y z => by rw [List.append_assoc, List.append_assoc, List.drop_left' (by simp)]
  have d6 : ∀ x y z : Bytes, x.length = 2 → (leBytes 4 (n / 2 ^ 96) ++ x ++ y ++ z).drop 6 =
      y ++ z := fun x y z hx => by
    rw [List.append_assoc, List.drop_left' (by simp [hx])]
  have d8 : ∀ x y z : Bytes, x.length = 2 → y.length = 2 →
      (leBytes 4 (n / 2 ^ 96) ++ x ++ y ++ z).drop 8 = z := fun x y z hx hy => by
    rw [List.drop_left' (by simp [hx, hy])]
  rw [e4, d6 _ _ _ (by simp), d8 _ _ _ (by simp) (by simp), List.take_left' (by simp),
    List.take_left' (by simp), leNat_leBytes 2 _ h1, leNat_leBytes 2 _ h2, htail,
    List.take_left' (by simp), List.drop_left' (by simp)]

/-- A canonical GUID string and the sixteen bytes made of it name one key: the
bytes print as the string in lower case. -/
theorem str2guid_canonical (s : Str) (h : isGuid (some s) = true) (hl : s.length = 36) :
    ∃ g, str2guid (some s) = .ok g ∧ g.length = 16 ∧ guid2str g = lower s := by
  obtain ⟨a, b, c, d, e, hs, ha, hb, hc, hd, he, hx⟩ := isGuid_shape s h hl
  obtain ⟨n, hn, hlt, hchars⟩ := uuidInt_shape a b c d e ha hb hc hd he hx
  obtain ⟨g, hg, hgl, hgs⟩ := guid2str_packFields n hlt
  refine ⟨g, ?_, hgl, ?_⟩
  · simp only [str2guid, h, if_true, Option.getD_some]
    rw [hs, hn]
    simp [hg]
  · have e1 : n = n / 2 ^ 96 * 16 ^ 24 + n % 2 ^ 96 := by omega
    have e2 : n % 2 ^ 96 = n / 2 ^ 80 % 2 ^ 16 * 16 ^ 20 + n % 2 ^ 80 := by omega
    have e3 : n % 2 ^ 80 = n / 2 ^ 64 % 2 ^ 16 * 16 ^ 16 + n % 2 ^ 64 := by omega
    have e4 : n % 2 ^ 64 = n / 2 ^ 48 % 2 ^ 16 * 16 ^ 12 + n % 2 ^ 48 := by omega
    have x1 := hexChars_add 8 24 (n / 2 ^ 96) (n % 2 ^ 96) (by omega)
    have x2 := hexChars_add 4 20 (n / 2 ^ 80 % 2 ^ 16) (n % 2 ^ 80) (by omega)
    have x3 := hexChars_add 4 16 (n / 2 ^ 64 % 2 ^ 16) (n % 2 ^ 64) (by omega)
    have x4 := hexChars_add 4 12 (n / 2 ^ 48 % 2 ^ 16) (n % 2 ^ 48) (by omega)
    rw [← e1] at x1
    rw [← e2] at x2
    rw [← e3] at x3
    rw [← e4] at x4
    have hall := hchars
    rw [x1, x2, x3, x4] at hall
    simp only [lower, List.map_append, List.append_assoc] at hall
    obtain ⟨ea, hall⟩ := List.append_inj hall (by simp [ha])
    obtain ⟨eb, hall⟩ := List.append_inj hall (by simp [hb])
    obtain ⟨ec, hall⟩ := List.append_inj hall (by simp [hc])
    obtain ⟨ed, ee⟩ := List.append_inj hall (by simp [hd])
    have dash : lowerChar '-' = '-' := by decide
    rw [hgs, ea, eb, ec, ed, ee, hs]
    simp [lower, dash]

/-- A GUID string without anything behind the digits is read as the bytes that
print as it in lower case. -/
theorem guid2str_str2guid {s : Str} {g : Bytes} (hl : s.length = 36)
    (h : str2guid (some s) = .ok g) : guid2str g = lower s := by
  obtain ⟨g', hok, -, hprint⟩ := str2guid_canonical s (isGuid_of_str2guid h) hl
  obtain rfl : g = g' := Outcome.ok.inj (h.symm.trans hok)
  exact hprint

end TdxTools.VarEnroll.Guid
