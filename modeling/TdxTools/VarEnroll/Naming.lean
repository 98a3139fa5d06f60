import TdxTools.VarEnroll.Replacing

namespace TdxTools.VarEnroll.Naming

open Python.ByteString Python.Exec Python.Text Python.Table
open Guid Variable Store Store.VariableStore Codec VariableMap Rewrite Replacing

/-- A name as the firmware has it. -/
def char16 (name : Str) : Bytes := encodeUtf16 name ++ [0, 0]

theorem str2blob_eq_char16_iff (name : Str) : str2blob name = char16 name ↔ Ascii name := by
  constructor
  · intro h
    by_contra hn
    have hlt := (length_encodeUtf16 name).2 hn
    have hlen := congrArg List.length (List.append_cancel_right h)
    have hwide : ((encodeUtf8 name).flatMap (fun b => leBytes 2 b.toNat)).length =
        2 * (encodeUtf8 name).length := by
      simp [List.length_flatMap, Nat.mul_comm]
    omega
  · intro hn
    rw [str2blob, char16, encodeUtf8_ascii name hn, encodeUtf16_ascii name hn, List.flatMap_map]
    congr 1
    apply List.flatMap_congr
    intro c hc
    have hlt := hn c hc
    have hbyte : (UInt8.ofNat c.toNat).toNat = c.toNat := by
      simp
      omega
    rw [hbyte]

/-- The variable that was added has the name of the firmware, and the image it
is written to is read again as a store that has it. -/
def ReadsBack (fd : Bytes) (store : VariableStore) (name vendorGuid : Str) : Prop :=
  ∃ v, store.findVarInList name vendorGuid = some v ∧ v.nameBlob = char16 name ∧
    ∃ fd', store.syncBuffer fd = .ok fd' ∧ ∀ n, ∃ store' u,
      findVarInfo (n + 1) fd' = .ok (some store') ∧
      store'.findVarInList name vendorGuid = some u ∧ ReadBack v u

section Lookup

variable {name vendorGuid : Str}

theorem isVar_readBack {v u : VariableTimeBasedAuth} (hv : Listed v) (hu : Listed u)
    (h : ReadBack v u) : isVar name vendorGuid u = isVar name vendorGuid v := by
  rw [isVar, isVar, h.name_eq, hu.guidStr_eq, h.guid_eq, ← hv.guidStr_eq]

theorem find_readBack {vars vars' : List VariableTimeBasedAuth}
    (h : List.Forall₂ ReadBack vars vars') (hs : ∀ v ∈ vars, Listed v)
    (hs' : ∀ u ∈ vars', Listed u) {v : VariableTimeBasedAuth}
    (hv : vars.find? (isVar name vendorGuid) = some v) :
    ∃ u, vars'.find? (isVar name vendorGuid) = some u ∧ ReadBack v u := by
  induction h with
  | nil => cases hv
  | @cons w u vars vars' hwu _ ih =>
    have hsame : isVar name vendorGuid u = isVar name vendorGuid w :=
      isVar_readBack (hs w (by simp)) (hs' u (by simp)) hwu
    cases hp : isVar name vendorGuid w with
    | true =>
      rw [List.find?_cons_of_pos hp, Option.some.injEq] at hv
      subst hv
      exact ⟨u, List.find?_cons_of_pos (hsame.trans hp), hwu⟩
    | false =>
      rw [List.find?_cons_of_neg (by simp [hp])] at hv
      rw [List.find?_cons_of_neg (by simp [hsame, hp])]
      exact ih (fun v hm => hs v (by simp [hm])) (fun u hm => hs' u (by simp [hm])) hv

end Lookup

section Adding

variable {now : EfiTime} {store store' : VariableStore} {name vendorGuid : Str} {attributes : Int}
  {stamp : Option EfiTime} {buffer : Bytes} {append : Bool}

theorem addVariable_found {size : Int}
    (h : store.addVariable now name vendorGuid attributes stamp buffer size append = .ok store') :
    ∃ v, store'.findVarInList name vendorGuid = some v := by
  rw [← Option.isSome_iff_exists, findVarInList, List.find?_isSome]
  obtain ⟨x, hx, rfl⟩ | ⟨-, g, -, rfl⟩ := addVariable_cases h
  · have hp := List.find?_some hx
    refine ⟨_, modify_findIdx_mem _ hx, ?_⟩
    cases append <;> exact hp
  · refine ⟨_, List.mem_append_right _ (List.mem_singleton_self _), ?_⟩
    rw [isVar, beq_self_eq_true, beq_self_eq_true]
    rfl

theorem Sound.update {x : VariableTimeBasedAuth} (hx : Sound x) (t : EfiTime) :
    Sound (x.update attributes t buffer buffer.length append) := by
  cases append with
  | false =>
    exact ⟨hx.startId_eq, hx.state_eq, hx.nameSize_eq, rfl, hx.vendorGuid_length, hx.decodes⟩
  | true =>
    refine ⟨hx.startId_eq, hx.state_eq, hx.nameSize_eq, ?_, hx.vendorGuid_length, hx.decodes⟩
    change x.dataSize + buffer.length = ((x.data ++ buffer).length : Int)
    rw [hx.dataSize_eq, List.length_append, Int.natCast_add]

/-- What the list of the reader becomes: it can be written, and the GUID texts
are those of the GUIDs unless the one that was given is longer. -/
theorem addVariable_listed (hs : ∀ v ∈ store.varsList, Listed v) (hn : Ascii name)
    (h : store.addVariable now name vendorGuid attributes stamp buffer buffer.length append =
      .ok store') : ∀ v ∈ store'.varsList,
        Sound v ∧ (vendorGuid.length = 36 → v.vendorGuidStr = guid2str v.vendorGuid) := by
  refine forall_of_addVariable
    (p := fun v => Sound v ∧ (vendorGuid.length = 36 → v.vendorGuidStr = guid2str v.vendorGuid))
    h ?_ ?_ ?_
  · intro v hv
    exact ⟨(hs v hv).toSound, fun _ => (hs v hv).guidStr_eq⟩
  · intro v hv
    refine ⟨Sound.update (hs v hv).toSound _, fun _ => ?_⟩
    cases append <;> exact (hs v hv).guidStr_eq
  · intro g hok
    refine ⟨⟨rfl, rfl, rfl, rfl, length_str2guid hok, _,
      decodeUtf8_ascii _ (asciiBytes_str2blob name hn)⟩, fun hl => ?_⟩
    exact (guid2str_str2guid hl hok).symm

end Adding

section Image

variable {fd blob : Bytes} {volume : FirmwareVolume} {store store' : VariableStore}
  {vars : List VariableTimeBasedAuth} {varsSize : Nat} {now : EfiTime} {name vendorGuid : Str}
  {attributes : Int} {stamp : Option EfiTime} {buffer : Bytes} {append : Bool}
  (hs : Shows fd volume store vars)
  (hadd : VariableStore.addVariable now { store with varsList := vars, varsSize } name vendorGuid
    attributes stamp buffer buffer.length append = .ok store')
  (hblob : varsBlob store'.varsList = .ok blob) (hroom : Room store blob.length)
include hs hadd hblob hroom

theorem rewritten_ascii (hn : Ascii name) : ∃ fd' vars', store'.syncBuffer fd = .ok fd' ∧
    Shows fd' volume { store with rawData := slice fd' volume.hdrlen volume.size } vars' ∧
    List.Forall₂ ReadBack store'.varsList vars' := by
  have hold : ∀ v ∈ ({ store with varsList := vars, varsSize } : VariableStore).varsList, Listed v :=
    hs.listed
  have hsound : ∀ v ∈ store'.varsList, Sound v := fun v hv =>
    (addVariable_listed hold hn hadd v hv).1
  obtain ⟨fd', vars', hsync, hshows, hread⟩ :=
    hs.toImage.rewritten hroom hsound hblob varsSize
  refine ⟨fd', vars', ?_, hshows, hread⟩
  rw [Frame.addVariable_header hadd]
  exact hsync

/-- What was added is read back under its name just if the name is ASCII and
nothing stands behind the GUID. -/
theorem reads_back_iff :
    ReadsBack fd store' name vendorGuid ↔ Ascii name ∧ vendorGuid.length = 36 := by
  constructor
  · rintro ⟨v, hfind, hname, fd', hsync, hread⟩
    have hp := List.find?_some hfind
    rw [isVar, Bool.and_eq_true, beq_iff_eq] at hp
    have hn : Ascii name := (str2blob_eq_char16_iff name).mp (hp.1.symm.trans hname)
    refine ⟨hn, ?_⟩
    obtain ⟨fd₁, vars', hsync₁, hshows, -⟩ := rewritten_ascii hs hadd hblob hroom hn
    obtain rfl : fd' = fd₁ := Outcome.ok.inj (hsync.symm.trans hsync₁)
    obtain ⟨store₁, u, hfound, hu, -⟩ := hread 0
    obtain ⟨size₁, hfound₁⟩ := hshows.find 0
    rw [hfound] at hfound₁
    cases hfound₁
    exact length_of_found hshows.reads.held hu
  · rintro ⟨hn, hl⟩
    obtain ⟨v, hfind⟩ := addVariable_found hadd
    obtain ⟨fd', vars', hsync, hshows, hread⟩ := rewritten_ascii hs hadd hblob hroom hn
    have hp := List.find?_some hfind
    rw [isVar, Bool.and_eq_true, beq_iff_eq] at hp
    have hold : ∀ v ∈ ({ store with varsList := vars, varsSize } : VariableStore).varsList,
      Listed v := hs.listed
    have hlisted : ∀ v ∈ store'.varsList, Listed v := by
      intro v hv
      obtain ⟨hsound, hstr⟩ := addVariable_listed hold hn hadd v hv
      exact ⟨hsound, hstr hl⟩
    refine ⟨v, hfind, hp.1.trans ((str2blob_eq_char16_iff name).mpr hn), fd', hsync, fun n => ?_⟩
    obtain ⟨size, hfound⟩ := hshows.find n
    obtain ⟨u, hu, hback⟩ := find_readBack hread hlisted hshows.listed hfind
    exact ⟨_, u, hfound, hu, hback⟩

end Image

/-- The list with one variable of this name and this GUID text. -/
def namedStore (name vendorGuid : Str) : VariableStore :=
  { blankStore 80 with varsList := [{ sampleVariable with
      nameSize := (str2blob name).length, fullSize := 63 + (str2blob name).length
      vendorGuidStr := vendorGuid, name, nameBlob := str2blob name }] }

def sampleGuid : Str := efiAuthenticatedVariableBasedTimeGuid

/-- The letter e with an acute accent. -/
def accentName : Str := [Char.ofNat 0xe9]

theorem shows_blankImage : Shows (blankImage 80) (blankVolume 80) (blankStore 80) [] where
  volume_eq := by decide +kernel
  store_eq := by decide +kernel
  behind := by decide
  inside := by decide +kernel
  sync := ⟨0, by decide +kernel⟩
  listed := by simp

theorem reads_back_iff_sample :
    ReadsBack (blankImage 80) (namedStore ['V'] sampleGuid) ['V'] sampleGuid ↔
      Ascii ['V'] ∧ sampleGuid.length = 36 := by
  have hblob : ∃ blob, varsBlob (namedStore ['V'] sampleGuid).varsList = .ok blob ∧
      blob.length = 68 := by
    refine ⟨(varsBlob (namedStore ['V'] sampleGuid).varsList).value.getD [], ?_, ?_⟩
    · decide +kernel
    · decide +kernel
  obtain ⟨blob, hblob, hlen⟩ := hblob
  have hadd : VariableStore.addVariable .zero { blankStore 80 with varsList := [], varsSize := 0 }
      ['V'] sampleGuid 7 none [1, 2, 3] 3 false = .ok (namedStore ['V'] sampleGuid) := by
    decide +kernel
  have hroom : Room (blankStore 80) blob.length := by
    rw [hlen]
    exact ⟨by decide, by decide +kernel, fun _ => by decide +kernel⟩
  exact reads_back_iff shows_blankImage hadd hblob hroom

/-- Under a name that is not ASCII, what was written cannot be parsed again;
with a brace behind the GUID it can, but the variable is not found. There is
room for either list. -/
theorem accent_not_read_back :
    VariableStore.addVariable .zero (blankStore 80) accentName sampleGuid 7 none [1, 2, 3] 3 false =
        .ok (namedStore accentName sampleGuid) ∧
      ((namedStore accentName sampleGuid).syncBuffer (blankImage 80) >>= findVarInfo 1) =
        .raised .unicodeDecodeError ∧
      ¬ ReadsBack (blankImage 80) (namedStore accentName sampleGuid) accentName sampleGuid ∧
      VariableStore.addVariable .zero (blankStore 80) ['V'] (sampleGuid ++ ['}']) 7 none [1, 2, 3] 3
        false = .ok (namedStore ['V'] (sampleGuid ++ ['}'])) ∧
      ¬ ReadsBack (blankImage 80) (namedStore ['V'] (sampleGuid ++ ['}'])) ['V']
        (sampleGuid ++ ['}']) := by
  have hraise : ((namedStore accentName sampleGuid).syncBuffer (blankImage 80) >>= findVarInfo 1) =
      .raised .unicodeDecodeError := by decide +kernel
  have hmiss : (((namedStore ['V'] (sampleGuid ++ ['}'])).syncBuffer (blankImage 80) >>=
      findVarInfo 1).value.map fun found => found.map fun self =>
        self.findVarInList ['V'] (sampleGuid ++ ['}'])) = some (some none) := by decide +kernel
  refine ⟨by decide +kernel, hraise, ?_, by decide +kernel, ?_⟩
  · rintro ⟨v, -, -, fd', hsync, hread⟩
    obtain ⟨self, u, hfind, -⟩ := hread 0
    rw [hsync, Outcome.ok_bind, hfind] at hraise
    cases hraise
  · rintro ⟨v, -, -, fd', hsync, hread⟩
    obtain ⟨self, u, hfind, hu, -⟩ := hread 0
    rw [hsync, Outcome.ok_bind, hfind] at hmiss
    have hnone : self.findVarInList ['V'] (sampleGuid ++ ['}']) = none := by
      simpa [Outcome.value] using hmiss
    rw [hnone] at hu
    cases hu

end TdxTools.VarEnroll.Naming
