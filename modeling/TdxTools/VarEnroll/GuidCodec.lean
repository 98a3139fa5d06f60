import TdxTools.VarEnroll.Codec
import TdxTools.VarEnroll.RegionScan

namespace TdxTools.VarEnroll.GuidCodec

open Python.ByteString Python.Exec Python.Text
open Guid Variable Store Store.VariableStore RegionScan

def printed (a b c d e : Nat) : Str :=
  hexChars 8 a ++ '-' :: hexChars 4 b ++ '-' :: hexChars 4 c ++ '-' :: hexChars 4 d ++
    '-' :: hexChars 12 e

theorem lower_printed (a b c d e : Nat) : lower (printed a b c d e) = printed a b c d e := by
  have dash : lowerChar '-' = '-' := by decide
  simp only [printed, lower_append, lower_cons, lower_hexChars, dash]

theorem matchPrefix_hexChars (w n : Nat) :
    matchPrefix (List.replicate w isHex) (hexChars w n) = true := by
  have digit : ∀ d < 16, isHex (hexDigit d) = true := by decide
  induction w with
  | zero => rfl
  | succ w ih =>
    rw [hexChars_succ, List.replicate_succ, matchPrefix, ih, digit _ (Nat.mod_lt _ (by omega))]
    rfl

/-- A group of four digits with its own test for the first. -/
def dashed (p : Char → Bool) : List (Char → Bool) := isDash :: p :: List.replicate 3 isHex

theorem matchPrefix_dashed (p : Char → Bool) (n : Nat) (ps : List (Char → Bool)) (s : Str) :
    matchPrefix (dashed p ++ ps) ('-' :: hexChars 4 n ++ s) =
      (p (hexDigit (n / 16 ^ 3 % 16)) && matchPrefix ps s) := by
  have hl : ('-' :: hexChars 4 n).length = (dashed p).length := by simp [dashed]
  have dash : isDash '-' = true := by decide
  rw [matchPrefix_append_append hl, dashed, matchPrefix, dash, Bool.true_and, hexChars_succ,
    matchPrefix, matchPrefix_hexChars, Bool.and_true]

/-- Of a printed GUID only the first digits of the third and of the fourth
group are looked at. -/
theorem isGuid_printed (a b c d e : Nat) : isGuid (some (printed a b c d e)) = true ↔
    (1 ≤ c / 16 ^ 3 % 16 ∧ c / 16 ^ 3 % 16 ≤ 5) ∧ 8 ≤ d / 16 ^ 3 % 16 ∧ d / 16 ^ 3 % 16 ≤ 11 := by
  let version := ['1', '2', '3', '4', '5']
  let variant := ['8', '9', 'a', 'b']
  have hpattern : guidPattern = List.replicate 8 isHex ++ (dashed isHex ++ (dashed version.contains ++
    (dashed variant.contains ++ isDash :: List.replicate 12 isHex))) := rfl
  have hprinted : printed a b c d e = hexChars 8 a ++ ('-' :: hexChars 4 b ++ ('-' :: hexChars 4 c ++
    ('-' :: hexChars 4 d ++ '-' :: hexChars 12 e))) := by simp [printed]
  have hex : ∀ n < 16, isHex (hexDigit n) = true := by decide
  have hversion : ∀ n < 16, version.contains (hexDigit n) = true ↔ 1 ≤ n ∧ n ≤ 5 := by decide
  have hvariant : ∀ n < 16, variant.contains (hexDigit n) = true ↔ 8 ≤ n ∧ n ≤ 11 := by decide
  have hlast : matchPrefix (isDash :: List.replicate 12 isHex) ('-' :: hexChars 12 e) = true :=
    matchPrefix_hexChars 12 e
  have digit : ∀ n, n % 16 < 16 := fun n => Nat.mod_lt n (by omega)
  rw [isGuid, lower_printed, hpattern, hprinted, matchPrefix_append_append (by simp),
    matchPrefix_hexChars, Bool.true_and, matchPrefix_dashed, hex _ (digit _), Bool.true_and,
    matchPrefix_dashed, matchPrefix_dashed, hlast, Bool.and_true, Bool.and_eq_true,
    hversion _ (digit _), hvariant _ (digit _)]

/-- The version and the variant of a GUID are in bytes 7 and 8; the digits that
`is_guid` takes for them. -/
def Standard (g : Bytes) : Prop :=
  (1 ≤ (g.getD 7 0).toNat / 16 ∧ (g.getD 7 0).toNat / 16 ≤ 5) ∧
    8 ≤ (g.getD 8 0).toNat / 16 ∧ (g.getD 8 0).toNat / 16 ≤ 11

instance (g : Bytes) : Decidable (Standard g) := inferInstanceAs (Decidable (_ ∧ _))

theorem take_two_drop {g : Bytes} {n : Nat} (h : n + 2 ≤ g.length) :
    (g.drop n).take 2 = [g.getD n 0, g.getD (n + 1) 0] := by
  have get : ∀ k (hk : k < g.length), g.getD k 0 = g[k] := by
    intro k hk
    rw [List.getD_eq_getElem?_getD, List.getElem?_eq_getElem hk, Option.getD_some]
  rw [List.drop_eq_getElem_cons (by omega), List.drop_eq_getElem_cons (by omega), get n (by omega),
    get (n + 1) (by omega)]
  rfl

section Printing

variable {g : Bytes} (hg : g.length = 16)
include hg

theorem guid2str_printed : guid2str g = printed (leNat (g.take 4)) (leNat ((g.drop 4).take 2))
    (leNat ((g.drop 6).take 2)) (beNat ((g.drop 8).take 2)) (beNat (g.drop 10)) := by
  have hsplit : g.drop 8 = (g.drop 8).take 2 ++ g.drop 10 := by
    rw [← List.drop_drop (i := 2) (j := 8), List.take_append_drop]
  have hfour := flatMap_hexChars ((g.drop 8).take 2)
  have htwelve := flatMap_hexChars (g.drop 10)
  have h2 : ((g.drop 8).take 2).length = 2 := by simp [hg]
  have h6 : (g.drop 10).length = 6 := by simp [hg]
  rw [h2] at hfour
  rw [h6] at htwelve
  rw [guid2str_eq g hg, hsplit, List.flatMap_append, hfour, htwelve, List.take_left' (by simp),
    List.drop_left' (by simp), printed, ← hsplit]

theorem isGuid_guid2str : isGuid (some (guid2str g)) = true ↔ Standard g := by
  have hversion : leNat ((g.drop 6).take 2) / 16 ^ 3 % 16 = (g.getD 7 0).toNat / 16 := by
    have hlo := (g.getD 6 0).toNat_lt
    have hhi := (g.getD 7 0).toNat_lt
    have htwo : (g.drop 6).take 2 = [g.getD 6 0, g.getD 7 0] := take_two_drop (by omega)
    rw [htwo, leNat, leNat, leNat]
    omega
  have hvariant : beNat ((g.drop 8).take 2) / 16 ^ 3 % 16 = (g.getD 8 0).toNat / 16 := by
    have hhi := (g.getD 8 0).toNat_lt
    have hlo := (g.getD 9 0).toNat_lt
    have htwo : (g.drop 8).take 2 = [g.getD 8 0, g.getD 9 0] := take_two_drop (by omega)
    rw [htwo, beNat, List.reverse_cons, List.reverse_singleton, List.singleton_append, leNat,
      leNat, leNat]
    omega
  rw [guid2str_printed hg, isGuid_printed, hversion, hvariant, Standard]

theorem lower_guid2str : lower (guid2str g) = guid2str g := by
  rw [guid2str_printed hg, lower_printed]

theorem str2guid_guid2str : str2guid (some (guid2str g)) = .ok g ↔ Standard g := by
  constructor
  · intro h
    exact (isGuid_guid2str hg).mp (isGuid_of_str2guid h)
  · intro h
    obtain ⟨g', hok, hg', hprint⟩ := str2guid_canonical (guid2str g) ((isGuid_guid2str hg).mpr h)
      (length_guid2str hg)
    rw [lower_guid2str hg] at hprint
    rw [hok, guid2str_injective hg' hg hprint]

end Printing

/-- The text that a variable is looked up by is its GUID printed. -/
structure Keyed (v : VariableTimeBasedAuth) : Prop where
  vendorGuid_length : v.vendorGuid.length = 16
  guidStr_eq : v.vendorGuidStr = guid2str v.vendorGuid

section Keys

variable {store store' : VariableStore} {name vendorGuid : Str}

theorem sync_of_find {fuel : Nat} {fd : Bytes} (h : findVarInfo fuel fd = .ok (some store)) :
    ∃ empty : VariableStore, empty.varsList = [] ∧ empty.syncToVarsList = .ok store := by
  unfold findVarInfo at h
  split at h
  · cases h
  · cases h
  · split at h
    · cases h
    · cases h
    · split at h
      · cases h
      · next volume _ empty supported hinit =>
        split at h
        · obtain ⟨store', hsync, h⟩ := Outcome.bind_eq_ok.mp h
          cases h
          next htrue =>
            subst htrue
            exact ⟨empty, (Codec.init_store hinit).2.2.2.1, hsync⟩
        · cases h

/-- Every variable that is read from a file. -/
theorem keyed_of_find {fuel : Nat} {fd : Bytes} (h : findVarInfo fuel fd = .ok (some store)) :
    ∀ v ∈ store.varsList, Keyed v := by
  obtain ⟨empty, hnil, hsync⟩ := sync_of_find h
  refine forall_of_sync hsync (by simp [hnil]) ?_
  intro b header name _ hat _ _
  obtain ⟨-, -, -, -, -, -, -, -, -, hguid, -⟩ := VariableHeader.init_inRange hat.2.2
  exact ⟨hguid, rfl⟩

theorem addVariable_keyed {now : EfiTime} {attributes size : Int} {stamp : Option EfiTime}
    {buffer : Bytes} {append : Bool} (hs : ∀ v ∈ store.varsList, Keyed v)
    (hl : vendorGuid.length = 36)
    (h : store.addVariable now name vendorGuid attributes stamp buffer size append = .ok store') :
    ∀ v ∈ store'.varsList, Keyed v := by
  apply forall_of_addVariable h hs
  · intro v hv
    obtain ⟨hlength, htext⟩ := hs v hv
    cases append <;> exact ⟨hlength, htext⟩
  · intro g hok
    exact ⟨length_str2guid hok, (guid2str_str2guid hl hok).symm⟩

theorem delVariable_keyed (hs : ∀ v ∈ store.varsList, Keyed v) :
    ∀ v ∈ (store.delVariable name vendorGuid).2.varsList, Keyed v := by
  intro v hv
  unfold VariableStore.delVariable at hv
  split at hv
  · exact hs v (List.mem_of_mem_eraseP hv)
  · exact hs v hv

/-- A variable is addressed by its printed GUID. -/
theorem find_printed (hs : ∀ v ∈ store.varsList, Keyed v) {v : VariableTimeBasedAuth}
    (hv : v ∈ store.varsList) (hname : v.nameBlob = str2blob name) :
    ∃ u, store.findVarInList name (guid2str v.vendorGuid) = some u ∧ u.nameBlob = v.nameBlob ∧
      u.vendorGuid = v.vendorGuid := by
  have hkey := hs v hv
  have hp : isVar name (guid2str v.vendorGuid) v = true := by
    rw [isVar, hname, hkey.guidStr_eq, lower_guid2str hkey.vendorGuid_length, beq_self_eq_true,
      beq_self_eq_true]
    rfl
  obtain ⟨u, hu⟩ := Option.isSome_iff_exists.mp (List.find?_isSome.mpr ⟨v, hv, hp⟩)
  have hukey := hs u (List.mem_of_find?_eq_some hu)
  have hp := List.find?_some hu
  rw [isVar, Bool.and_eq_true, beq_iff_eq, beq_iff_eq, hukey.guidStr_eq,
    lower_guid2str hkey.vendorGuid_length] at hp
  exact ⟨u, hu, hp.1.trans hname.symm,
    guid2str_injective hukey.vendorGuid_length hkey.vendorGuid_length hp.2⟩

end Keys

/-- A store that was read from a file and edited since, under GUID strings
without anything behind the digits. -/
inductive Edited : VariableStore → Prop
  | read {fuel : Nat} {fd : Bytes} {store : VariableStore} :
      findVarInfo fuel fd = .ok (some store) → Edited store
  | add {store store' : VariableStore} (now : EfiTime) {name vendorGuid : Str} (attributes : Int)
      (stamp : Option EfiTime) (buffer : Bytes) (size : Int) (append : Bool) : Edited store →
      vendorGuid.length = 36 →
      store.addVariable now name vendorGuid attributes stamp buffer size append = .ok store' →
      Edited store'
  | del {store : VariableStore} (name vendorGuid : Str) : Edited store →
      Edited (store.delVariable name vendorGuid).2

theorem Edited.keyed {store : VariableStore} (h : Edited store) : ∀ v ∈ store.varsList, Keyed v := by
  induction h with
  | read hfind => exact keyed_of_find hfind
  | add now attributes stamp buffer size append _ hl hadd ih => exact addVariable_keyed ih hl hadd
  | del name vendorGuid _ ih => exact delVariable_keyed ih

/-- Sixteen bytes are printed and read back just if `is_guid` takes their version
and variant, a string of 36 characters is read as what prints as it, and the
variables of a store are addressed by their printed GUIDs. -/
theorem guid_codec :
    (∀ g : Bytes, g.length = 16 →
      (isGuid (some (guid2str g)) = true ↔ Standard g) ∧
        (str2guid (some (guid2str g)) = .ok g ↔ Standard g)) ∧
    (∀ (s : Str) (g : Bytes), s.length = 36 → str2guid (some s) = .ok g → guid2str g = lower s) ∧
    ∀ store, Edited store → ∀ v ∈ store.varsList, v.vendorGuidStr = guid2str v.vendorGuid ∧
      ∀ name, v.nameBlob = str2blob name → ∃ u,
        store.findVarInList name (guid2str v.vendorGuid) = some u ∧ u.nameBlob = v.nameBlob ∧
          u.vendorGuid = v.vendorGuid := by
  refine ⟨?_, ?_, ?_⟩
  · intro g hg
    exact ⟨isGuid_guid2str hg, str2guid_guid2str hg⟩
  · intro s g hl h
    exact guid2str_str2guid hl h
  · intro store h v hv
    exact ⟨(h.keyed v hv).guidStr_eq, fun name hname => find_printed h.keyed hv hname⟩

theorem guid_codec_sample :
    str2guid (some (guid2str Codec.timeBasedBytes)) = .ok Codec.timeBasedBytes ∧
      guid2str Codec.timeBasedBytes = lower efiAuthenticatedVariableBasedTimeGuid :=
  ⟨(guid_codec.1 Codec.timeBasedBytes (by decide)).2.mpr (by decide),
    guid_codec.2.1 efiAuthenticatedVariableBasedTimeGuid Codec.timeBasedBytes (by decide)
      (by decide +kernel)⟩

/-- Sixteen zero bytes print as a string that is refused; a brace behind a GUID
is not in what its bytes print as. -/
theorem not_mutually_inverse :
    isGuid (some (guid2str (List.replicate 16 0))) = false ∧
      (∀ g, str2guid (some (guid2str (List.replicate 16 0))) ≠ .ok g) ∧
      ∃ g, str2guid (some (efiAuthenticatedVariableBasedTimeGuid ++ ['}'])) = .ok g ∧
        guid2str g ≠ lower (efiAuthenticatedVariableBasedTimeGuid ++ ['}']) := by
  refine ⟨by decide, ?_, Codec.timeBasedBytes, by decide +kernel, by decide⟩
  intro g h
  have hguid := isGuid_of_str2guid h
  exact absurd hguid (by decide)

end TdxTools.VarEnroll.GuidCodec
