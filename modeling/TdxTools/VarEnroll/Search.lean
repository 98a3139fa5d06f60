import TdxTools.VarEnroll.Codec
import TdxTools.VarEnroll.RegionScan

namespace TdxTools.VarEnroll.Search

open Python.ByteString Python.Exec Python.Struct Python.Text
open Guid Variable Store Codec RegionScan

section Walk

variable (data : Bytes)

/-- A valid NVRAM volume header at an offset. -/
def NvramAt (offset : Nat) (volume : FirmwareVolume) : Prop :=
  FirmwareVolume.init (slice data offset (offset + 128)) = some volume

/-- A firmware volume of any kind at an offset. -/
def VolumeAt (offset : Nat) (volume : FirmwareVolume) : Prop :=
  ∃ v, unpack volumeFmt (slice data offset (offset + FirmwareVolume.headerSize)) = some v ∧
    volume = FirmwareVolume.ofVals v ∧ volume.magic = FirmwareVolume.magicFvh

/-- From a firmware volume to the offset behind it. -/
def Past (offset offset' : Nat) : Prop :=
  ∃ volume, VolumeAt data offset volume ∧ offset' = offset + volume.size

def Walk : Nat → Prop := Relation.ReflTransGen (Past data) 0

/-- The walk gets to the volume, and none before it is the NVRAM volume. -/
def FirstNvram (offset : Nat) (volume : FirmwareVolume) : Prop :=
  NvramAt data offset volume ∧
    Relation.ReflTransGen (fun i j => (∀ v, ¬ NvramAt data i v) ∧ Past data i j) 0 offset

/-- `VariableStore(firware_volume, offset)` for a volume at that offset. -/
def storeAt (offset : Nat) (volume : FirmwareVolume) : Option (VariableStore × Bool) :=
  VariableStore.init volume (slice data offset (offset + volume.size)) offset

/-- What a walk through the whole FD finds. -/
inductive Found : Option VariableStore → Prop
  | nowhere : (∀ offset, Walk data offset → ∀ volume, ¬ NvramAt data offset volume) → Found none
  | unsupported (offset : Nat) (volume : FirmwareVolume) : FirstNvram data offset volume →
      (∀ store, storeAt data offset volume ≠ some (store, true)) → Found none
  | supported (offset : Nat) (volume : FirmwareVolume) (store store' : VariableStore) :
      FirstNvram data offset volume → storeAt data offset volume = some (store, true) →
      store.syncToVarsList = .ok store' → Found (some store')

/-- The search ends without an error and with what the walk finds. -/
def Searched : Prop := ∃ fuel result, findVarInfo fuel data = .ok result ∧ Found data result

/-- The FD starts with the NVRAM volume, the header of the store lies in the
volume and in the FD, and the region of a supported store can be read. -/
structure Searchable (volume : FirmwareVolume) : Prop where
  first : NvramAt data 0 volume
  header_le : volume.hdrlen + VariableStore.headerSize ≤ min volume.size data.length
  readable : ∀ store, storeAt data 0 volume = some (store, true) →
    ∀ b, Walks store VariableStore.headerSize b → SignatureThere store b ∧ NameDecodes store b

end Walk

section Runs

variable {data : Bytes} {volume : FirmwareVolume}

theorem length_of_nvramAt (h : NvramAt data 0 volume) : 0 < data.length := by
  have hl := (init_volume h).1
  rw [Nat.zero_add, slice_zero, List.length_take, List.length_take] at hl
  omega

theorem search_foreign (hne : 0 < data.length) (h : ∀ volume, ¬ NvramAt data 0 volume)
    (fuel : Nat) : findVarInfo fuel data = .running := by
  have hnone : FirmwareVolume.init (slice data 0 (0 + 128)) = none := by
    apply Option.eq_none_iff_forall_ne_some.mpr
    exact h
  have hrun : (iterate (searchTurn data) fuel { offset := 0, volume := none }).1 = .running := by
    apply iterate_running (fun s : SearchState => s.offset = 0)
    · intro s hs
      refine ⟨{ s with volume := some none }, ?_, hs⟩
      rw [searchTurn, hs, if_pos hne, hnone]
    · rfl
  rw [findVarInfo]
  generalize iterate (searchTurn data) fuel { offset := 0, volume := none } = r at hrun
  obtain ⟨o, s⟩ := r
  obtain rfl : o = .running := hrun
  rfl

theorem search_empty (fuel : Nat) (result : Option VariableStore) :
    findVarInfo fuel [] ≠ .ok result := by
  intro h
  cases fuel with
  | zero => cases h
  | succ n => cases h

theorem search_first (h : NvramAt data 0 volume) (n : Nat) : findVarInfo (n + 1) data =
    match storeAt data 0 volume with
    | none => .raised .attributeError
    | some (store, supported) =>
      if supported then store.syncToVarsList.bind fun store => .ok (some store) else .ok none := by
  have hturn : searchTurn data { offset := 0, volume := none } =
      .stop { offset := 0, volume := some (some volume) } := by
    rw [searchTurn, if_pos (length_of_nvramAt h), show FirmwareVolume.init _ = _ from h]
  rw [findVarInfo, iterate, hturn]
  rfl

theorem storeAt_eq_none_iff : storeAt data 0 volume = none ↔
    ¬ volume.hdrlen + VariableStore.headerSize ≤ min volume.size data.length := by
  have hl : (slice (slice data 0 (0 + volume.size)) volume.hdrlen
      (volume.hdrlen + VariableStore.headerSize)).length = calcsize VariableStore.storeFmt ↔
        volume.hdrlen + VariableStore.headerSize ≤ min volume.size data.length := by
    have hc : calcsize VariableStore.storeFmt = VariableStore.headerSize := rfl
    rw [hc, length_slice, length_slice]
    simp only [VariableStore.headerSize]
    omega
  rw [← hl, storeAt, VariableStore.init]
  by_cases hlen : (slice (slice data 0 (0 + volume.size)) volume.hdrlen
      (volume.hdrlen + VariableStore.headerSize)).length = calcsize VariableStore.storeFmt
  · rw [unpack, if_pos hlen]
    exact iff_of_false (Option.some_ne_none _) (not_not_intro hlen)
  · rw [unpack, if_neg hlen]
    exact iff_of_true rfl hlen

theorem search_supported {store store' : VariableStore} (h : NvramAt data 0 volume)
    (hstore : VariableStore.init volume (slice data 0 volume.size) 0 = some (store, true))
    (hsync : store.syncToVarsList = .ok store') (n : Nat) :
    findVarInfo (n + 1) data = .ok (some store') := by
  have hat : storeAt data 0 volume = some (store, true) := by
    rw [storeAt, Nat.zero_add, hstore]
  rw [search_first h, hat]
  dsimp only
  rw [if_pos rfl, hsync]
  rfl

theorem search_of_searchable (h : Searchable data volume) : Searched data := by
  have hfirst : FirstNvram data 0 volume := ⟨h.first, .refl⟩
  have hsearch := search_first h.first 0
  cases hstore : storeAt data 0 volume with
  | none => exact absurd h.header_le (storeAt_eq_none_iff.mp hstore)
  | some p =>
    obtain ⟨store, supported⟩ := p
    rw [hstore] at hsearch
    cases supported with
    | false =>
      refine ⟨1, none, hsearch, .unsupported 0 volume hfirst ?_⟩
      intro store' hstore'
      rw [hstore] at hstore'
      cases hstore'
    | true =>
      obtain ⟨store', hsync⟩ := (sync_ok_iff store).mpr (h.readable store hstore)
      refine ⟨1, some store', ?_, .supported 0 volume store store' hfirst hstore hsync⟩
      rw [hsearch]
      dsimp only
      rw [if_pos rfl, hsync]
      rfl

theorem searchable_of_ok {fuel : Nat} {result : Option VariableStore}
    (h : findVarInfo fuel data = .ok result) : ∃ volume, Searchable data volume := by
  have hne : 0 < data.length := by
    apply List.length_pos_iff.mpr
    rintro rfl
    exact search_empty fuel result h
  have hvolume : ∃ volume, NvramAt data 0 volume := by
    by_contra hno
    rw [search_foreign hne (not_exists.mp hno) fuel] at h
    cases h
  obtain ⟨volume, hfirst⟩ := hvolume
  cases fuel with
  | zero => cases h
  | succ n =>
    rw [search_first hfirst n] at h
    refine ⟨volume, hfirst, ?_, ?_⟩
    · by_contra hle
      rw [storeAt_eq_none_iff.mpr hle] at h
      cases h
    · intro store hstore
      rw [hstore] at h
      dsimp only at h
      rw [if_pos rfl] at h
      obtain ⟨store', hsync, -⟩ := Outcome.bind_eq_ok.mp h
      exact (sync_ok_iff store).mp ⟨store', hsync⟩

end Runs

/-- The search is right just if the NVRAM volume is the first of the FD, its
store header is whole, and the region of a supported store can be read. -/
theorem find_var_info_iff (data : Bytes) :
    Searched data ↔ ∃ volume, Searchable data volume := by
  constructor
  · rintro ⟨fuel, result, h, -⟩
    exact searchable_of_ok h
  · rintro ⟨volume, h⟩
    exact search_of_searchable h

/-- A volume of another kind before the NVRAM volume. -/
def foreignFirst : Bytes :=
  List.replicate 32 0 ++ leBytes 8 56 ++ FirmwareVolume.magicFvh ++ List.replicate 12 0 ++
    blankImage 68

theorem foreignFirst_not_searched : ¬ Searched foreignFirst := by
  have hnone : FirmwareVolume.init (slice foreignFirst 0 (0 + 128)) = none := by decide +kernel
  rintro ⟨fuel, result, h, -⟩
  rw [search_foreign (by decide +kernel) (fun volume hv => by cases hnone.symm.trans hv) fuel] at h
  cases h

end TdxTools.VarEnroll.Search
