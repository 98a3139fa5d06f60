import TdxTools.VarEnroll.Records

namespace TdxTools.VarEnroll.Codec

open Python.ByteString Python.Exec Python.Struct Python.Text Python.Path Python.Files
open Guid Variable Store Records

/-- An FD whose NVRAM volume is at offset 0 and holds a supported store that
lies in the volume and in the file. -/
structure WellFormedImage (fd : Bytes) (volume : FirmwareVolume) (store : VariableStore) : Prop where
  volume_eq : FirmwareVolume.init (slice fd 0 128) = some volume
  store_eq : VariableStore.init volume (slice fd 0 volume.size) 0 = some (store, true)
  size_mod : store.size % 4 = 0
  size_ge : VariableStore.headerSize ≤ store.size
  store_le : volume.hdrlen + store.size ≤ volume.size
  volume_le : volume.size ≤ fd.length

def nvramBytes : Bytes :=
  [0x8d, 0x2b, 0xf1, 0xff, 0x96, 0x76, 0x8b, 0x4c, 0xa9, 0x85, 0x27, 0x47, 0x07, 0x5b, 0x4f, 0x50]

def timeBasedBytes : Bytes :=
  [0x78, 0x2c, 0xf3, 0xaa, 0x7b, 0x94, 0x9a, 0x43, 0xa1, 0x80, 0x2e, 0x14, 0x4e, 0xc3, 0x77, 0x92]

theorem guid2str_nvramBytes : guid2str nvramBytes = FirmwareVolume.nvram := by decide

theorem guid2str_timeBasedBytes :
    guid2str timeBasedBytes = VariableStore.efiAuthenticatedVariableBasedTimeGuid := by decide

theorem checkType_supported {signature : Bytes} (hl : signature.length = 16)
    (h : (VariableStore.checkType signature).2 = true) : signature = timeBasedBytes := by
  have hs : guid2str signature = VariableStore.efiAuthenticatedVariableBasedTimeGuid := by
    unfold VariableStore.checkType at h
    dsimp only at h
    split at h
    · simp at h
    · split at h
      · simp at h
      · split at h
        · assumption
        · simp at h
  exact guid2str_injective hl (by decide) (hs.trans guid2str_timeBasedBytes.symm)

theorem init_volume {data : Bytes} {volume : FirmwareVolume}
    (h : FirmwareVolume.init data = some volume) :
    (data.take 56).length = 56 ∧ volume = FirmwareVolume.ofVals (decode volumeFmt (data.take 56)) ∧
      slice data 16 32 = nvramBytes := by
  unfold FirmwareVolume.init at h
  split at h
  · cases h
  · next v hv =>
    obtain ⟨hl, hd⟩ := unpack_eq_some hv
    dsimp only at h
    split at h
    · next hg =>
      cases h
      have hl' : (data.take 56).length = 56 := hl
      refine ⟨hl', by rw [← hd]; rfl, ?_⟩
      have hguid : (FirmwareVolume.ofVals v).guid = slice data 16 32 := by
        rw [← hd]
        simp only [FirmwareVolume.ofVals, volumeFmt, decode, Fmt.decode, Fmt.size,
          FirmwareVolume.headerSize, slice, List.drop_take, List.take_take]
        rfl
      rw [← hguid]
      have hlen : (slice data 16 32).length = 16 := by
        rw [length_slice]
        rw [List.length_take] at hl'
        omega
      exact guid2str_injective (hguid ▸ hlen) (by decide) (hg.2.trans guid2str_nvramBytes.symm)
    · cases h

theorem init_store {volume : FirmwareVolume} {raw : Bytes} {offset : Nat} {store : VariableStore}
    (h : VariableStore.init volume raw offset = some (store, true)) :
    volume.hdrlen + VariableStore.headerSize ≤ raw.length ∧
      store.offsetInFd = offset + volume.hdrlen ∧ store.rawData = raw.drop volume.hdrlen ∧
      store.varsList = [] ∧ store.size = leNat (slice raw (volume.hdrlen + 16) (volume.hdrlen + 20)) ∧
      slice raw volume.hdrlen (volume.hdrlen + 16) = timeBasedBytes := by
  unfold VariableStore.init at h
  split at h
  · cases h
  · next signature size format state rsvd rsvd1 u hv =>
    obtain ⟨hl, hd⟩ := unpack_eq_some hv
    simp only [Option.some.injEq, Prod.mk.injEq] at h
    obtain ⟨rfl, hsup⟩ := h
    have hlen : (slice raw volume.hdrlen (volume.hdrlen + VariableStore.headerSize)).length = 28 := hl
    have hsig := congrArg (fun v => v.1) hd
    have hsize := congrArg (fun v => v.2.1) hd
    simp only [VariableStore.storeFmt, decode, Fmt.decode, Fmt.size, slice_eq_drop_take,
      VariableStore.headerSize, List.take_take, List.drop_take, List.drop_drop] at hsig hsize
    rw [length_slice, VariableStore.headerSize] at hlen
    have hsig' : slice raw volume.hdrlen (volume.hdrlen + 16) = signature := by
      rw [← hsig, slice_eq_drop_take]
      rfl
    refine ⟨by rw [VariableStore.headerSize]; omega, rfl, rfl, rfl, ?_, ?_⟩
    · rw [← hsize, Nat.add_assoc volume.hdrlen 16 4 |>.symm, slice_eq_drop_take]
      rfl
    · rw [hsig']
      refine checkType_supported ?_ hsup
      rw [← hsig', length_slice]
      omega

theorem slice_zero_of_le {α : Type} (xs : List α) (n i j : Nat) (h : j ≤ n) :
    slice (slice xs 0 n) i j = slice xs i j := by
  rw [slice_zero, slice, List.take_take, Nat.min_eq_left h, slice]

/-- What the two headers need lies before the variable region. -/
theorem init_of_agree {fd fd' : Bytes} {volume : FirmwareVolume} {store : VariableStore}
    (hvolume : FirmwareVolume.init (slice fd 0 128) = some volume)
    (hstore : VariableStore.init volume (slice fd 0 volume.size) 0 = some (store, true))
    (hbehind : FirmwareVolume.headerSize ≤ volume.hdrlen + VariableStore.headerSize)
    (hsame : ∀ k < volume.hdrlen + VariableStore.headerSize, fd'[k]? = fd[k]?) :
    FirmwareVolume.init (slice fd' 0 128) = some volume ∧
      VariableStore.init volume (slice fd' 0 volume.size) 0 =
        some ({ store with rawData := slice fd' volume.hdrlen volume.size }, true) := by
  have hin : volume.hdrlen + VariableStore.headerSize ≤ volume.size := by
    have hle := (init_store hstore).1
    rw [length_slice] at hle
    omega
  have hvol : (slice fd' 0 128).take FirmwareVolume.headerSize =
      (slice fd 0 128).take FirmwareVolume.headerSize := by
    simp only [slice_zero, List.take_take]
    exact slice_congr fd' fd 0 _ (fun k _ hk => hsame k (by
      rw [FirmwareVolume.headerSize] at hk hbehind
      omega))
  have hhead : slice (slice fd' 0 volume.size) volume.hdrlen
      (volume.hdrlen + VariableStore.headerSize) =
      slice (slice fd 0 volume.size) volume.hdrlen (volume.hdrlen + VariableStore.headerSize) := by
    rw [slice_zero_of_le _ _ _ _ hin, slice_zero_of_le _ _ _ _ hin]
    exact slice_congr fd' fd _ _ (fun k _ hk => hsame k hk)
  constructor
  · rw [← hvolume, FirmwareVolume.init, FirmwareVolume.init, hvol]
  · unfold VariableStore.init at hstore ⊢
    rw [hhead]
    split at hstore
    · cases hstore
    · simp only [Option.some.injEq, Prod.mk.injEq] at hstore ⊢
      obtain ⟨rfl, hsup⟩ := hstore
      exact ⟨rfl, hsup⟩

theorem mem_slice {α : Type} {xs : List α} {i j k : Nat} {a : α} (hi : i ≤ k) (hj : k < j)
    (ha : xs[k]? = some a) : a ∈ slice xs i j := by
  apply List.mem_of_getElem? (i := k - i)
  rw [getElem?_slice, if_pos (by omega), Nat.add_sub_cancel' hi, ha]

namespace WellFormedImage

variable {fd : Bytes} {volume : FirmwareVolume} {store : VariableStore}

theorem offset_eq (h : WellFormedImage fd volume store) : store.offsetInFd = volume.hdrlen := by
  simpa using (init_store h.store_eq).2.1

theorem rawData_eq (h : WellFormedImage fd volume store) :
    store.rawData = slice fd volume.hdrlen volume.size := by
  rw [(init_store h.store_eq).2.2.1, slice_zero, slice]

theorem slice_rawData (h : WellFormedImage fd volume store) (i j : Nat) (hj : j ≤ store.size) :
    slice store.rawData i j = slice fd (volume.hdrlen + i) (volume.hdrlen + j) := by
  have hle := h.store_le
  rw [h.rawData_eq, slice_slice, Nat.min_eq_right (by omega)]

/-- The store cannot lie over the GUID of its volume. -/
theorem hdrlen_ge (h : WellFormedImage fd volume store) : 32 ≤ volume.hdrlen := by
  obtain ⟨-, -, hguid⟩ := init_volume h.volume_eq
  obtain ⟨hin, -, -, -, hsize, hsig⟩ := init_store h.store_eq
  have hle := h.store_le
  have hge := h.size_ge
  have hmod := h.size_mod
  rw [VariableStore.headerSize] at hge
  rw [slice_zero_of_le _ _ _ _ (by omega)] at hguid hsig hsize
  by_contra hlt
  by_cases h0 : volume.hdrlen = 0
  · have h4 : slice fd 16 20 = nvramBytes.take 4 := by
      rw [← hguid, ← slice_zero (slice fd 16 32), slice_slice]
      rfl
    rw [h0, Nat.zero_add, h4] at hsize
    rw [hsize] at hmod
    exact absurd hmod (by decide)
  · by_cases hlo : volume.hdrlen ≤ 16
    · have hb : fd[16]? = some 0x8d := by
        have := congrArg (fun xs => xs[0]?) hguid
        simpa [getElem?_slice, nvramBytes] using this
      have hm := mem_slice (j := volume.hdrlen + 16) (i := volume.hdrlen) (by omega) (by omega) hb
      rw [hsig] at hm
      exact absurd hm (by decide)
    · have hb : fd[volume.hdrlen]? = some 0x78 := by
        have := congrArg (fun xs => xs[0]?) hsig
        simpa [getElem?_slice, timeBasedBytes] using this
      have hm := mem_slice (i := 16) (j := 32) (by omega) (by omega) hb
      rw [hguid] at hm
      exact absurd hm (by decide)

/-- A valid volume at offset 0 ends the walk through the FD at once. -/
theorem findVarInfo_eq (h : WellFormedImage fd volume store) (n : Nat) :
    findVarInfo (n + 1) fd = store.syncToVarsList >>= fun s => .ok (some s) := by
  have hne : 0 < fd.length := by
    have hl := (init_volume h.volume_eq).1
    rw [List.length_take, length_slice] at hl
    omega
  have hturn : searchTurn fd { offset := 0, volume := none } =
      .stop { offset := 0, volume := some (some volume) } := by
    simp only [searchTurn, if_pos hne, Nat.zero_add, h.volume_eq]
  simp only [findVarInfo, iterate, hturn, Nat.zero_add, h.store_eq, if_true]

theorem of_agree (h : WellFormedImage fd volume store) (fd' : Bytes)
    (hlen : fd'.length = fd.length)
    (hsame : ∀ k < volume.hdrlen + VariableStore.headerSize, fd'[k]? = fd[k]?) :
    WellFormedImage fd' volume { store with rawData := slice fd' volume.hdrlen volume.size } := by
  have hge := h.hdrlen_ge
  have hbehind : FirmwareVolume.headerSize ≤ volume.hdrlen + VariableStore.headerSize := by
    rw [FirmwareVolume.headerSize, VariableStore.headerSize]
    omega
  obtain ⟨hvol, hstore⟩ := init_of_agree h.volume_eq h.store_eq hbehind hsame
  exact ⟨hvol, hstore, h.size_mod, h.size_ge, h.store_le, hlen ▸ h.volume_le⟩

end WellFormedImage

/-- A variable that one record can hold. A name kept by `str2blob` is ASCII
when its text is. -/
structure Writable (v : VariableTimeBasedAuth) : Prop where
  startId_eq : v.startId = VAR_START_ID
  state_eq : v.state = VAR_ADDED
  rsvd_lt : v.rsvd < 256
  attributes_ge : 0 ≤ v.attributes
  attributes_lt : v.attributes < 2 ^ 32
  count_lt : v.count < 2 ^ 64
  timeStampBlob_length : v.timeStampBlob.length = 16
  pkIndex_lt : v.pkIndex < 2 ^ 32
  nameSize_eq : v.nameSize = v.nameBlob.length
  nameSize_lt : v.nameSize < 2 ^ 32
  dataSize_eq : v.dataSize = v.data.length
  dataSize_lt : v.dataSize < 2 ^ 32
  vendorGuid_length : v.vendorGuid.length = 16
  ascii : AsciiBytes v.nameBlob

/-- The variable read back from where `v` was written: only what the reader
derives from the header and the name can differ. -/
def reread (v : VariableTimeBasedAuth) : VariableTimeBasedAuth :=
  { v with fullSize := v.dataSize + v.nameSize + HEADER_SIZE, vendorGuidStr := guid2str v.vendorGuid
           name := v.nameBlob.map (fun x => Char.ofNat x.toNat) }

def paddedSize (v : VariableTimeBasedAuth) : Nat :=
  alignBy4 (HEADER_SIZE + v.nameBlob.length + v.data.length)

def totalSize (vars : List VariableTimeBasedAuth) : Nat := (vars.map paddedSize).sum

theorem reread_toVariable (r : StoredRecord) : reread r.toVariable = r.toVariable := by
  simp [reread, StoredRecord.toVariable, VariableHeader.fullSize, VariableHeader.vendorGuidStr]

theorem paddedSize_toVariable (r : StoredRecord) :
    paddedSize r.toVariable = r.encode.length := by
  rw [r.length_encode, VariableHeader.fullSize, r.nameSize_eq, r.dataSize_eq]
  simp only [paddedSize, StoredRecord.toVariable]
  congr 1
  omega

theorem writable_toVariable (r : StoredRecord) (h : r.live = true) : Writable r.toVariable := by
  have hs : r.header.state = VAR_ADDED := by simpa [StoredRecord.live] using h
  obtain ⟨-, -, hrsvd, hattr, hcount, hstamp, hpk, hname, hdata, hguid, -⟩ := r.inRange
  norm_num at hrsvd hattr hcount hstamp hpk hname hdata hguid
  refine ⟨r.startId_eq, hs, hrsvd, ?_, ?_, hcount, hstamp, hpk, r.nameSize_eq, hname, ?_, ?_,
    hguid, r.ascii hs⟩ <;> simp only [StoredRecord.toVariable]
  · exact Int.natCast_nonneg _
  · exact_mod_cast hattr
  · exact_mod_cast r.dataSize_eq
  · exact_mod_cast hdata

theorem writable_liveVars (rs : List StoredRecord) : ∀ v ∈ liveVars rs, Writable v := by
  intro v hv
  obtain ⟨r, hr, rfl⟩ := List.mem_map.mp hv
  exact writable_toVariable r (List.mem_filter.mp hr).2

def headerOf (v : VariableTimeBasedAuth) : VariableHeader :=
  { startId := v.startId, state := v.state, rsvd := v.rsvd, attributes := v.attributes.toNat
    count := v.count, timeStampBlob := v.timeStampBlob, pkIndex := v.pkIndex
    nameSize := v.nameSize, dataSize := v.dataSize.toNat, vendorGuid := v.vendorGuid }

theorem Writable.inRange {v : VariableTimeBasedAuth} (h : Writable v) : (headerOf v).InRange := by
  have ha := h.attributes_lt
  have hd := h.dataSize_lt
  refine ⟨?_, ?_, h.rsvd_lt, ?_, ?_, h.timeStampBlob_length, ?_, ?_, ?_, h.vendorGuid_length,
    trivial⟩ <;> simp only [headerOf, Fmt.fits_uint]
  · rw [h.startId_eq]
    decide
  · rw [h.state_eq]
    decide
  · norm_num
    omega
  · exact Nat.lt_of_lt_of_eq h.count_lt (by norm_num)
  · exact Nat.lt_of_lt_of_eq h.pkIndex_lt (by norm_num)
  · exact Nat.lt_of_lt_of_eq h.nameSize_lt (by norm_num)
  · norm_num
    omega

/-- A writable variable is one record, filled up as `sync_to_file` does it. -/
theorem Writable.exists_record {v : VariableTimeBasedAuth} (h : Writable v) :
    ∃ r : StoredRecord, r.live = true ∧ r.toVariable = reread v ∧ v.blob = .ok r.body ∧
      r.pad = List.replicate (alignBy4 r.body.length - r.body.length) 0xff := by
  have hattr : ((v.attributes.toNat : Nat) : Int) = v.attributes :=
    Int.toNat_of_nonneg h.attributes_ge
  have hnonneg : 0 ≤ v.dataSize := by
    rw [h.dataSize_eq]
    exact Int.natCast_nonneg _
  have hdata : ((v.dataSize.toNat : Nat) : Int) = v.dataSize := Int.toNat_of_nonneg hnonneg
  have hsize : v.dataSize.toNat = v.data.length := by
    rw [h.dataSize_eq]
    rfl
  let r : StoredRecord :=
    { header := headerOf v, name := v.nameBlob, data := v.data
      pad := List.replicate (alignBy4 (headerOf v).fullSize - (headerOf v).fullSize) 0xff
      inRange := h.inRange, startId_eq := h.startId_eq, nameSize_eq := h.nameSize_eq
      dataSize_eq := hsize, pad_length := by simp, ascii := fun _ => h.ascii }
  refine ⟨r, ?_, ?_, ?_, ?_⟩
  · simp [StoredRecord.live, r, headerOf, h.state_eq]
  · simp [StoredRecord.toVariable, reread, r, headerOf, VariableHeader.fullSize,
      VariableHeader.vendorGuidStr, hattr, hdata]
  · have hp : pack headerFmt (v.startId, v.state, v.rsvd, v.attributes.toNat, v.count,
        v.timeStampBlob, v.pkIndex, v.nameSize, v.dataSize.toNat, v.vendorGuid, ()) =
        some r.headerBytes := r.pack_header.1
    rw [VariableTimeBasedAuth.blob, VariableTimeBasedAuth.unsigned, if_pos h.attributes_ge,
      VariableTimeBasedAuth.unsigned, if_pos hnonneg, Outcome.ok_bind, Outcome.ok_bind, hp]
    rfl
  · rw [r.length_body]

/-- The blobs of writable variables are the records the reader expects. -/
theorem varsBlob_writable (vars : List VariableTimeBasedAuth) (h : ∀ v ∈ vars, Writable v) :
    ∃ rs, VariableStore.varsBlob vars = .ok (encodeAll rs) ∧ liveVars rs = vars.map reread ∧
      (encodeAll rs).length = totalSize vars := by
  induction vars with
  | nil => exact ⟨[], rfl, rfl, rfl⟩
  | cons v vars ih =>
    obtain ⟨r, hlive, hvar, hblob, hpad⟩ := (h v (by simp)).exists_record
    obtain ⟨rs, hrs, hvars, hlen⟩ := ih (fun w hw => h w (by simp [hw]))
    refine ⟨r :: rs, ?_, ?_, ?_⟩
    · rw [VariableStore.varsBlob, hblob, Outcome.ok_bind, hrs, Outcome.ok_bind, ← hpad]
      rfl
    · rw [List.map_cons, ← hvars, ← hvar]
      simp [liveVars, hlive]
    · have hp : paddedSize v = r.encode.length := by
        rw [← paddedSize_toVariable, hvar]
        rfl
      rw [encodeAll, List.flatMap_cons, List.length_append, ← encodeAll, hlen, ← hp]
      rfl

theorem totalSize_liveVars_le (rs : List StoredRecord) :
    totalSize (liveVars rs) ≤ (encodeAll rs).length := by
  induction rs with
  | nil => exact Nat.le_refl _
  | cons r rs ih =>
    have hcons : (encodeAll (r :: rs)).length = r.encode.length + (encodeAll rs).length := by
      simp [encodeAll]
    cases hl : r.live with
    | false =>
      have : liveVars (r :: rs) = liveVars rs := by simp [liveVars, hl]
      rw [this]
      omega
    | true =>
      have : liveVars (r :: rs) = r.toVariable :: liveVars rs := by simp [liveVars, hl]
      rw [this, totalSize, List.map_cons, List.sum_cons, ← totalSize, paddedSize_toVariable]
      omega

/-- The variable region of the image: the records, then only bytes 0xff. -/
def RegionHolds (fd : Bytes) (volume : FirmwareVolume) (store : VariableStore)
    (rs : List StoredRecord) : Prop :=
  ∃ k, slice fd (volume.hdrlen + VariableStore.headerSize) (volume.hdrlen + store.size) =
    encodeAll rs ++ List.replicate k 0xff

section Image

variable {fd : Bytes} {volume : FirmwareVolume} {store : VariableStore}

theorem holds_of_region (h : WellFormedImage fd volume store) {rs : List StoredRecord}
    (hr : RegionHolds fd volume store rs) : ∃ k, Holds store rs k := by
  obtain ⟨k, hk⟩ := hr
  have hraw : store.size ≤ store.rawData.length := by
    have hle := h.store_le
    have hvol := h.volume_le
    rw [h.rawData_eq, length_slice]
    omega
  exact ⟨k, h.size_mod, h.size_ge, hraw, by rw [h.slice_rawData _ _ (Nat.le_refl _), hk]⟩

theorem findVarInfo_region (h : WellFormedImage fd volume store) {rs : List StoredRecord}
    (hr : RegionHolds fd volume store rs) (n : Nat) :
    findVarInfo (n + 1) fd = .ok (some { store with
      varsList := liveVars rs, varsSize := (encodeAll rs).length }) := by
  obtain ⟨k, hholds⟩ := holds_of_region h hr
  rw [h.findVarInfo_eq, syncToVarsList_eq hholds, Outcome.ok_bind, (init_store h.store_eq).2.2.2.1,
    List.nil_append]

/-- The bytes of the variable region for the blobs of a list that fits. -/
def regionOf (store : VariableStore) (blob : Bytes) : Bytes :=
  blob ++ List.replicate (store.size - VariableStore.headerSize - blob.length) 0xff

theorem length_regionOf (h : WellFormedImage fd volume store) (blob : Bytes)
    (hfit : blob.length ≤ store.size - VariableStore.headerSize) :
    volume.hdrlen + VariableStore.headerSize + (regionOf store blob).length =
      volume.hdrlen + store.size := by
  have hsz := h.size_ge
  rw [regionOf, List.length_append, List.length_replicate]
  omega

theorem syncBuffer_eq (h : WellFormedImage fd volume store) (vars : List VariableTimeBasedAuth)
    (varsSize : Nat) {blob : Bytes} (hblob : VariableStore.varsBlob vars = .ok blob)
    (hfit : blob.length ≤ store.size - VariableStore.headerSize) :
    VariableStore.syncBuffer { store with varsList := vars, varsSize } fd =
      .ok (setSlice fd (volume.hdrlen + VariableStore.headerSize) (volume.hdrlen + store.size)
        (regionOf store blob)) := by
  have hsz := h.size_ge
  have hle := h.store_le
  have hvol := h.volume_le
  have hroom : volume.hdrlen + VariableStore.headerSize + (store.size - VariableStore.headerSize) =
      volume.hdrlen + store.size := by omega
  rw [VariableStore.syncBuffer, hblob, Outcome.ok_bind]
  dsimp only
  rw [h.offset_eq]
  split
  · rw [setSlice_fill fd _ _ _ _ _ (by omega) hroom hfit, regionOf]
  · next h0 =>
    have hnil : blob = [] := List.length_eq_zero_iff.mp (by omega)
    simp only [regionOf, hnil, List.length_nil, Nat.sub_zero, List.nil_append]

/-- A list that fits is written over the variable region and nothing else, and
what is written is a well-formed image again. -/
theorem syncBuffer_writable (h : WellFormedImage fd volume store)
    (vars : List VariableTimeBasedAuth) (varsSize : Nat) (hw : ∀ v ∈ vars, Writable v)
    (hfit : totalSize vars ≤ store.size - VariableStore.headerSize) :
    ∃ fd' rs, VariableStore.syncBuffer { store with varsList := vars, varsSize } fd = .ok fd' ∧
      fd'.length = fd.length ∧
      WellFormedImage fd' volume { store with rawData := slice fd' volume.hdrlen volume.size } ∧
      RegionHolds fd' volume store rs ∧ liveVars rs = vars.map reread := by
  obtain ⟨rs, hrs, hvars, hlen⟩ := varsBlob_writable vars hw
  have hle := h.store_le
  have hvol := h.volume_le
  have hj : volume.hdrlen + store.size ≤ fd.length := by omega
  have hregion := length_regionOf h (encodeAll rs) (by omega)
  refine ⟨_, rs, syncBuffer_eq h vars varsSize hrs (by omega),
    length_setSlice fd _ _ _ hj hregion, ?_, ⟨_, slice_setSlice_self fd _ _ _ hj hregion⟩, hvars⟩
  exact h.of_agree _ (length_setSlice fd _ _ _ hj hregion)
    (fun m hm => setSlice_frame fd _ _ _ hj hregion m (Or.inl hm))

/-- Writing a list over the image that already holds it changes no byte. -/
theorem syncBuffer_again (h : WellFormedImage fd volume store) (vars : List VariableTimeBasedAuth)
    (varsSize : Nat) (hw : ∀ v ∈ vars, Writable v)
    (hfit : totalSize vars ≤ store.size - VariableStore.headerSize) {fd' : Bytes}
    (hfd' : VariableStore.syncBuffer { store with varsList := vars, varsSize } fd = .ok fd')
    (raw : Bytes) (varsSize' : Nat) :
    VariableStore.syncBuffer { store with rawData := raw, varsList := vars, varsSize := varsSize' }
      fd' = .ok fd' := by
  obtain ⟨rs, hrs, -, hlen⟩ := varsBlob_writable vars hw
  obtain ⟨fd'', -, hfd'', -, himage, -, -⟩ := syncBuffer_writable h vars varsSize hw hfit
  rw [hfd', Outcome.ok.injEq] at hfd''
  subst hfd''
  have hle := h.store_le
  have hvol := h.volume_le
  have hblob : (encodeAll rs).length ≤ store.size - VariableStore.headerSize := hlen ▸ hfit
  have hregion := length_regionOf h _ hblob
  have hone := syncBuffer_eq h vars varsSize hrs hblob
  rw [hfd', Outcome.ok.injEq] at hone
  have htwo := syncBuffer_eq himage vars varsSize' hrs hblob
  have hsame : setSlice fd' (volume.hdrlen + VariableStore.headerSize) (volume.hdrlen + store.size)
      (regionOf store (encodeAll rs)) = fd' := by
    conv_lhs => rw [hone]
    rw [setSlice_setSlice _ _ _ _ _ (by omega) hregion, ← hone]
  exact htwo.trans (congrArg Outcome.ok hsame)

end Image

theorem syncToFile_ok {env : Env} {self : VariableStore} {fd buffer : Bytes} {out : Str} {w : World}
    (h : self.syncBuffer fd = .ok buffer) (hout : Names out)
    (hfault : env.writeFault w.clock = .none) :
    self.syncToFile env fd out w = (.ok true, w.put (resolve env.cwd out) buffer) := by
  rw [VariableStore.syncToFile, h, Py.lift_ok_bind_apply]
  apply Py.tryExcept_ok
  rw [Py.bind_ok (writeFile_none hout hfault)]
  rfl

/-- The reader returns the live records of any region it can be given, a list
that was written is read back, and rewriting what was read changes nothing
more. -/
theorem store_codec {fd : Bytes} {volume : FirmwareVolume} {store : VariableStore}
    (h : WellFormedImage fd volume store) :
    (∀ rs, RegionHolds fd volume store rs → ∃ self,
      store.syncToVarsList = .ok self ∧ self.varsList = liveVars rs ∧
        ∀ n, findVarInfo (n + 1) fd = .ok (some self)) ∧
    (∀ vars varsSize, (∀ v ∈ vars, Writable v) →
      totalSize vars ≤ store.size - VariableStore.headerSize →
      ∀ env out w, Names out → env.writeFault w.clock = .none → ∃ fd' w' self,
        VariableStore.syncToFile env { store with varsList := vars, varsSize } fd out w =
          (.ok true, w') ∧
        w'.content env out = some fd' ∧ (∀ n, findVarInfo (n + 1) fd' = .ok (some self)) ∧
        self.varsList = vars.map reread) ∧
    (∀ rs, RegionHolds fd volume store rs → ∃ self fd' self',
      findVarInfo 1 fd = .ok (some self) ∧ self.syncBuffer fd = .ok fd' ∧
        findVarInfo 1 fd' = .ok (some self') ∧ self'.varsList = self.varsList ∧
        self'.syncBuffer fd' = .ok fd') := by
  refine ⟨?_, ?_, ?_⟩
  · intro rs hr
    have hfind := findVarInfo_region h hr
    obtain ⟨self, hself, hsome⟩ := Outcome.bind_eq_ok.mp ((h.findVarInfo_eq 0).symm.trans (hfind 0))
    cases hsome
    exact ⟨_, hself, rfl, hfind⟩
  · intro vars varsSize hw hfit env out w hout hfault
    obtain ⟨fd', rs, hbuffer, -, himage, hr, hvars⟩ := syncBuffer_writable h vars varsSize hw hfit
    exact ⟨fd', _, _, syncToFile_ok hbuffer hout hfault, World.content_put_self env w out hout fd',
      findVarInfo_region himage hr, hvars⟩
  · intro rs hr
    have hw := writable_liveVars rs
    have hkeep : (liveVars rs).map reread = liveVars rs := by
      rw [liveVars, List.map_map]
      exact List.map_congr_left (fun r _ => reread_toVariable r)
    have hfit : totalSize (liveVars rs) ≤ store.size - VariableStore.headerSize := by
      obtain ⟨k, hk⟩ := hr
      have hl := congrArg List.length hk
      have hlive := totalSize_liveVars_le rs
      rw [length_slice, List.length_append] at hl
      omega
    obtain ⟨fd', rs', hbuffer, -, himage, hr', hvars⟩ :=
      syncBuffer_writable h (liveVars rs) (encodeAll rs).length hw hfit
    rw [hkeep] at hvars
    refine ⟨_, fd', _, findVarInfo_region h hr 0, hbuffer, findVarInfo_region himage hr' 0, hvars, ?_⟩
    rw [hvars]
    exact syncBuffer_again h (liveVars rs) _ hw hfit hbuffer _ _

/-- An FD that holds nothing but an empty store for `room` bytes of records. -/
def blankImage (room : Nat) : Bytes :=
  List.replicate 16 0 ++ nvramBytes ++ leBytes 8 (84 + room) ++ FirmwareVolume.magicFvh ++
    leBytes 4 0 ++ leBytes 2 56 ++ List.replicate 6 0 ++ timeBasedBytes ++ leBytes 4 (28 + room) ++
    [0x5a, 0xfe] ++ List.replicate 6 0 ++ List.replicate room 0xff

def blankVolume (room : Nat) : FirmwareVolume :=
  { rsvd := List.replicate 16 0, guid := nvramBytes, size := 84 + room
    magic := FirmwareVolume.magicFvh, attributes := 0, hdrlen := 56, checksum := 0
    extHeaderOffset := 0, rsvd2 := [0], revision := 0 }

def blankStore (room : Nat) : VariableStore :=
  { offsetInFd := 56, signature := timeBasedBytes, size := 28 + room, format := 0x5a, state := 0xfe
    rsvd := 0, rsvd1 := 0, rawData := (blankImage room).drop 56, type := .timeBasedAuthenticated
    varsList := [], varsSize := 0 }

def sampleVariable : VariableTimeBasedAuth :=
  { attributes := 7, timeStampBlob := EfiTime.zero.blob, nameSize := 4, dataSize := 3
    vendorGuid := timeBasedBytes, fullSize := 67
    vendorGuidStr := VariableStore.efiAuthenticatedVariableBasedTimeGuid, name := ['V']
    nameBlob := str2blob ['V'], data := [1, 2, 3] }

theorem blankImage_wellFormed : WellFormedImage (blankImage 68) (blankVolume 68) (blankStore 68) :=
  ⟨by decide +kernel, by decide +kernel, by decide +kernel, by decide +kernel, by decide +kernel,
    by decide +kernel⟩

theorem writable_sampleVariable : Writable sampleVariable :=
  ⟨by decide, by decide, by decide, by decide, by decide, by decide, by decide, by decide,
    by decide, by decide, by decide, by decide, by decide, by decide⟩

/-- Two variables that are filled up with one and with three bytes. -/
def sampleVariables : List VariableTimeBasedAuth :=
  [sampleVariable, { sampleVariable with
    dataSize := 5, fullSize := 69, name := ['U'], nameBlob := str2blob ['U'], data := [4, 5, 6, 7, 8] }]

theorem writable_sampleVariables : ∀ v ∈ sampleVariables, Writable v := by
  rw [sampleVariables, List.forall_mem_cons, List.forall_mem_singleton]
  refine ⟨writable_sampleVariable, ?_⟩
  exact ⟨by decide, by decide, by decide, by decide, by decide, by decide, by decide, by decide,
    by decide, by decide, by decide, by decide, by decide, by decide⟩

theorem roomyImage_wellFormed :
    WellFormedImage (blankImage 216) (blankVolume 216) (blankStore 216) :=
  ⟨by decide +kernel, by decide +kernel, by decide +kernel, by decide +kernel, by decide +kernel,
    by decide +kernel⟩

theorem store_codec_blank : ∃ fd' w' self,
    VariableStore.syncToFile .reliable
      { blankStore 216 with varsList := sampleVariables, varsSize := 0 } (blankImage 216) ['o']
      .empty = (.ok true, w') ∧
    w'.content .reliable ['o'] = some fd' ∧
    (∀ n, findVarInfo (n + 1) fd' = .ok (some self)) ∧
    self.varsList = sampleVariables.map reread :=
  (store_codec roomyImage_wellFormed).2.1 sampleVariables 0 writable_sampleVariables
    (by decide) _ _ _ (by decide) rfl

end TdxTools.VarEnroll.Codec
