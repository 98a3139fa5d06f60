import TdxTools.VarEnroll.Frame
import TdxTools.VarEnroll.Search

namespace TdxTools.VarEnroll.Rewrite

open Python.ByteString Python.Exec Python.Struct Python.Text
open Guid Variable Store Store.VariableStore Codec RegionScan

/-- A variable that is read back from where it was written. -/
structure Sound (v : VariableTimeBasedAuth) : Prop where
  startId_eq : v.startId = VAR_START_ID
  state_eq : v.state = VAR_ADDED
  nameSize_eq : v.nameSize = v.nameBlob.length
  dataSize_eq : v.dataSize = v.data.length
  vendorGuid_length : v.vendorGuid.length = 16
  decodes : ∃ name, decodeUtf8 v.nameBlob = some name

/-- A variable as the reader makes it. -/
structure Listed (v : VariableTimeBasedAuth) : Prop extends Sound v where
  guidStr_eq : v.vendorGuidStr = guid2str v.vendorGuid

/-- The reader may find less of a name or of data than the header declares. -/
structure Held (v : VariableTimeBasedAuth) : Prop where
  startId_eq : v.startId = VAR_START_ID
  state_eq : v.state = VAR_ADDED
  vendorGuid_length : v.vendorGuid.length = 16
  decodes : ∃ name, decodeUtf8 v.nameBlob = some name
  guidStr_eq : v.vendorGuidStr = guid2str v.vendorGuid

theorem Listed.held {v : VariableTimeBasedAuth} (h : Listed v) : Held v :=
  ⟨h.startId_eq, h.state_eq, h.vendorGuid_length, h.decodes, h.guidStr_eq⟩

theorem Held.sound {v : VariableTimeBasedAuth} (h : Held v) (hname : v.nameSize = v.nameBlob.length)
    (hdata : v.dataSize = v.data.length) : Sound v :=
  ⟨h.startId_eq, h.state_eq, hname, hdata, h.vendorGuid_length, h.decodes⟩

structure ReadBack (v u : VariableTimeBasedAuth) : Prop where
  name_eq : u.nameBlob = v.nameBlob
  guid_eq : u.vendorGuid = v.vendorGuid
  data_eq : u.data = v.data

section Reading

variable {self : VariableStore} {v : VariableTimeBasedAuth} {bin pre post : Bytes}

theorem record_at (hraw : self.rawData = pre ++ (bin ++ post)) (hsize : pre.length < self.size)
    (hs : Sound v) (hb : v.blob = .ok bin) : ∃ header, HeaderAt self pre.length header ∧
      header.state = VAR_ADDED ∧ header.fullSize = bin.length ∧
      nameBytes self pre.length header = v.nameBlob ∧
      ∀ name, Listed (variableAt self pre.length header name) ∧
        ReadBack v (variableAt self pre.length header name) := by
  obtain ⟨packed, header, hbin, hlen, hinit, hid, hstate, hn, hd, hguid⟩ :=
    VariableTimeBasedAuth.header_of_blob hb
  have hname := hs.nameSize_eq
  have hdata := hs.dataSize_eq
  have hfull : header.fullSize = bin.length := by
    rw [VariableTimeBasedAuth.blob_length hb, VariableHeader.fullSize]
    omega
  have hguid16 : header.vendorGuid = v.vendorGuid := by
    have hl := hs.vendorGuid_length
    rw [hguid, Fmt.stored, hl, List.take_of_length_le (Nat.le_of_eq hl)]
    exact List.append_nil _
  have hpacked : slice self.rawData pre.length (pre.length + HEADER_SIZE) = packed := by
    have h := slice_piece pre packed (v.nameBlob ++ v.data ++ post)
    rw [hraw, hbin, List.append_assoc, ← hlen]
    exact h
  have hbytes : nameBytes self pre.length header = v.nameBlob := by
    have h := slice_piece (pre ++ packed) v.nameBlob (v.data ++ post)
    rw [List.length_append, hlen] at h
    refine Eq.trans ?_ h
    rw [nameBytes, hraw, hbin, hn, hname]
    simp only [List.append_assoc]
  have hbody : slice self.rawData (pre.length + HEADER_SIZE + header.nameSize)
      (pre.length + header.fullSize) = v.data := by
    have h := slice_piece (pre ++ packed ++ v.nameBlob) v.data post
    rw [List.length_append, List.length_append, hlen] at h
    refine Eq.trans ?_ h
    rw [VariableHeader.fullSize, hn, hname, hraw, hbin]
    simp only [List.append_assoc]
    congr 1
    omega
  refine ⟨header, ⟨hsize, hid.trans hs.startId_eq, hpacked.symm ▸ hinit⟩, hstate.trans hs.state_eq,
    hfull, hbytes, ?_⟩
  intro name
  refine ⟨⟨⟨hid.trans hs.startId_eq, hstate.trans hs.state_eq, ?_, ?_, ?_, ?_⟩, rfl⟩,
    hbytes, hguid16, hbody⟩
  · exact (hn.trans hname).trans (congrArg List.length hbytes.symm)
  · exact (hd.trans hdata).trans (congrArg (fun xs : Bytes => (xs.length : Int)) hbody.symm)
  · exact (congrArg List.length hguid16).trans hs.vendorGuid_length
  · exact hs.decodes.imp fun _ hd => (congrArg decodeUtf8 hbytes).trans hd

theorem reaches_blob {vars : List VariableTimeBasedAuth} (hs : ∀ v ∈ vars, Sound v) {blob : Bytes}
    {s : ReadState} (hblob : varsBlob vars = .ok blob) (hraw : self.rawData = pre ++ (blob ++ post))
    (hmod : pre.length % 4 = 0) (hbegin : s.begin = pre.length)
    (hsize : pre.length + blob.length ≤ self.size) : ∃ vars', List.Forall₂ ReadBack vars vars' ∧
      (∀ u ∈ vars', Listed u) ∧
      self.readLoop.Reaches s { begin := pre.length + blob.length, vars := s.vars ++ vars' } := by
  induction vars generalizing blob pre s with
  | nil =>
    cases hblob
    refine ⟨[], .nil, by simp, ?_⟩
    rw [List.append_nil, List.length_nil, Nat.add_zero, ← hbegin]
    exact .refl
  | cons v vars ih =>
    obtain ⟨vbin, hv, h⟩ := Outcome.bind_eq_ok.mp hblob
    obtain ⟨rest, hrest, h⟩ := Outcome.bind_eq_ok.mp h
    cases h
    let pad : Bytes := List.replicate (alignBy4 vbin.length - vbin.length) 0xff
    have hpad : (vbin ++ pad).length = alignBy4 vbin.length := by
      have hle := le_alignBy4 vbin.length
      rw [List.length_append, List.length_replicate]
      omega
    have hpos : HEADER_SIZE ≤ vbin.length := by
      rw [VariableTimeBasedAuth.blob_length hv]
      omega
    have hraw' : self.rawData = pre ++ (vbin ++ (pad ++ rest ++ post)) := by
      rw [hraw]
      simp only [pad, List.append_assoc]
    have htotal : (vbin ++ pad ++ rest).length = alignBy4 vbin.length + rest.length := by
      rw [List.length_append, hpad]
    change pre.length + (vbin ++ pad ++ rest).length ≤ self.size at hsize
    have hlt : pre.length < self.size := by
      have hle := le_alignBy4 vbin.length
      simp only [HEADER_SIZE] at hpos
      omega
    obtain ⟨header, hat, hstate, hfull, hbytes, hread⟩ := record_at hraw' hlt (hs v (by simp)) hv
    obtain ⟨name, hname⟩ := (hs v (by simp)).decodes
    have hend : recordEnd pre.length header = pre.length + alignBy4 vbin.length := by
      rw [recordEnd, hfull, alignBy4_add _ _ hmod]
    have hturn := turn_of_live (s := s) (hbegin ▸ hat) hstate (by rw [hbegin, hbytes, hname])
    rw [hbegin, hend] at hturn
    have hsplit : self.rawData = (pre ++ (vbin ++ pad)) ++ (rest ++ post) := by
      rw [hraw']
      simp only [List.append_assoc]
    obtain ⟨vars', hvars, hlisted, hreach⟩ := ih (fun u hu => hs u (by simp [hu])) hrest hsplit
      (s := { begin := pre.length + alignBy4 vbin.length
              vars := s.vars ++ [variableAt self pre.length header name] })
      (by rw [List.length_append, hpad]; have := alignBy4_mod vbin.length; omega)
      (by rw [List.length_append, hpad])
      (by rw [List.length_append, hpad]; omega)
    refine ⟨variableAt self pre.length header name :: vars', .cons (hread name).2 hvars, ?_, ?_⟩
    · intro u hu
      rcases List.mem_cons.mp hu with rfl | hu
      · exact (hread name).1
      · exact hlisted u hu
    · rw [List.append_assoc, List.length_append, hpad, List.singleton_append] at hreach
      have hlen : (vbin ++ List.replicate (alignBy4 vbin.length - vbin.length) 0xff ++ rest).length =
          alignBy4 vbin.length + rest.length := htotal
      rw [hlen, ← Nat.add_assoc]
      exact .head hturn hreach

/-- A list of `n` bytes has room: it ends inside the store, and the reader can
tell that it ends. -/
structure Room (store : VariableStore) (n : Nat) : Prop where
  inside : headerSize + n ≤ store.size
  there : headerSize + n ≤ store.rawData.length
  ends : SignatureThere store (headerSize + n)

theorem sync_blob {vars : List VariableTimeBasedAuth} (hs : ∀ v ∈ vars, Sound v) {blob : Bytes}
    (hblob : varsBlob vars = .ok blob) (hpre : pre.length = headerSize)
    (hraw : self.rawData = pre ++ (blob ++ post)) (hroom : Room self blob.length)
    (hfill : headerSize + blob.length < self.size → post.head? = some 0xff) : ∃ vars' varsSize,
      List.Forall₂ ReadBack vars vars' ∧ (∀ u ∈ vars', Listed u) ∧ self.syncToVarsList =
        .ok { self with varsList := self.varsList ++ vars', varsSize } := by
  obtain ⟨vars', hvars, hlisted, hreach⟩ := reaches_blob (s := startState self) hs hblob hraw
    (by rw [hpre]; rfl) (by rw [hpre]; rfl) (by rw [hpre]; exact hroom.inside)
  rw [hpre] at hreach
  let s : ReadState := { begin := headerSize + blob.length, vars := self.varsList ++ vars' }
  have hstop : self.readTurn s = .stop s := by
    have hno : ∀ header, ¬ HeaderAt self s.begin header := by
      intro header hat
      have hbyte := HeaderAt.first_byte hat
      have hpost := hfill hat.1
      rw [hraw, ← List.append_assoc, List.getElem?_append_right (by simp [s, hpre]),
        List.length_append, hpre, Nat.sub_self, ← List.head?_eq_getElem?, hpost] at hbyte
      cases hbyte
    have ht := turned self s
    generalize self.readTurn s = turn at ht
    cases ht with
    | stop _ _ => rfl
    | cut hcut => exact absurd hroom.ends hcut
    | dead header hat _ => exact absurd hat (hno header)
    | live header _ hat _ _ => exact absurd hat (hno header)
    | unnamed header hat _ _ => exact absurd hat (hno header)
  exact ⟨vars', _, hvars, hlisted, sync_ok_of_run (hreach.run_stop hstop)⟩

end Reading

section Image

/-- An FD that starts with a volume and a store of the kind that is read. -/
structure Placed (fd : Bytes) (volume : FirmwareVolume) (store : VariableStore) : Prop where
  volume_eq : FirmwareVolume.init (slice fd 0 128) = some volume
  store_eq : VariableStore.init volume (slice fd 0 volume.size) 0 = some (store, true)

/-- The list is written behind the header of the volume, and the store lies
inside the file. -/
structure Image (fd : Bytes) (volume : FirmwareVolume) (store : VariableStore) : Prop
    extends Placed fd volume store where
  behind : FirmwareVolume.headerSize ≤ volume.hdrlen + headerSize
  inside : volume.hdrlen + store.size ≤ fd.length

/-- The FD is read as this list. -/
structure Reads (fd : Bytes) (volume : FirmwareVolume) (store : VariableStore)
    (vars : List VariableTimeBasedAuth) : Prop extends Placed fd volume store where
  sync : ∃ varsSize, store.syncToVarsList = .ok { store with varsList := vars, varsSize }
  held : ∀ v ∈ vars, Held v

/-- The image is read as this list. -/
structure Shows (fd : Bytes) (volume : FirmwareVolume) (store : VariableStore)
    (vars : List VariableTimeBasedAuth) : Prop extends Image fd volume store where
  sync : ∃ varsSize, store.syncToVarsList = .ok { store with varsList := vars, varsSize }
  listed : ∀ v ∈ vars, Listed v

variable {fd : Bytes} {volume : FirmwareVolume} {store : VariableStore}
  {vars : List VariableTimeBasedAuth}

theorem Shows.reads (h : Shows fd volume store vars) : Reads fd volume store vars :=
  ⟨h.toPlaced, h.sync, fun v hv => (h.listed v hv).held⟩

theorem Reads.find (h : Reads fd volume store vars) (n : Nat) : ∃ varsSize,
    findVarInfo (n + 1) fd = .ok (some { store with varsList := vars, varsSize }) := by
  obtain ⟨varsSize, hsync⟩ := h.sync
  exact ⟨varsSize, Search.search_supported h.volume_eq h.store_eq hsync n⟩

theorem Shows.find (h : Shows fd volume store vars) (n : Nat) : ∃ varsSize,
    findVarInfo (n + 1) fd = .ok (some { store with varsList := vars, varsSize }) := h.reads.find n

theorem Image.rawData_eq (h : Image fd volume store) :
    store.rawData = slice fd volume.hdrlen volume.size := by
  rw [(init_store h.store_eq).2.2.1, slice_zero, slice]

/-- The FD with the blob in the region and bytes 0xff behind it. -/
def written (fd : Bytes) (volume : FirmwareVolume) (store : VariableStore) (blob : Bytes) : Bytes :=
  setSlice fd (volume.hdrlen + headerSize) (volume.hdrlen + store.size)
    (blob ++ List.replicate (store.size - headerSize - blob.length) 0xff)

theorem Image.syncBuffer_eq (h : Image fd volume store) {blob : Bytes}
    (hblob : varsBlob vars = .ok blob) (hin : headerSize + blob.length ≤ store.size)
    (varsSize : Nat) : syncBuffer { store with varsList := vars, varsSize } fd =
      .ok (written fd volume store blob) := by
  have hoffset : store.offsetInFd = volume.hdrlen := by simpa using (init_store h.store_eq).2.1
  obtain ⟨buffer, hbuffer⟩ : ∃ buffer,
      syncBuffer { store with varsList := vars, varsSize } fd = .ok buffer := by
    rw [syncBuffer, hblob, Outcome.ok_bind]
    split
    · exact ⟨_, rfl⟩
    · exact ⟨_, rfl⟩
  obtain ⟨blob', hblob', heq⟩ := Frame.syncBuffer_eq_ok hbuffer
  obtain rfl : blob = blob' := Outcome.ok.inj (hblob.symm.trans hblob')
  rw [hbuffer, heq]
  dsimp only
  rw [hoffset, setSlice_fill fd blob 0xff _ _ _ h.inside (by omega) (by omega), written]

section Written

variable {blob : Bytes}

theorem region_length (hin : headerSize + blob.length ≤ store.size) :
    volume.hdrlen + headerSize +
      (blob ++ List.replicate (store.size - headerSize - blob.length) (0xff : UInt8)).length =
        volume.hdrlen + store.size := by
  rw [List.length_append, List.length_replicate]
  omega

theorem Image.length_written (h : Image fd volume store)
    (hin : headerSize + blob.length ≤ store.size) :
    (written fd volume store blob).length = fd.length :=
  length_setSlice fd _ _ _ h.inside (region_length hin)

theorem Image.length_rawData (h : Image fd volume store)
    (hin : headerSize + blob.length ≤ store.size) :
    (slice (written fd volume store blob) volume.hdrlen volume.size).length =
      store.rawData.length := by
  rw [h.rawData_eq, length_slice, length_slice, h.length_written hin]

theorem Image.of_written (h : Image fd volume store) (hin : headerSize + blob.length ≤ store.size) :
    Image (written fd volume store blob) volume
      { store with rawData := slice (written fd volume store blob) volume.hdrlen volume.size } := by
  obtain ⟨hvolume, hstore⟩ := init_of_agree h.volume_eq h.store_eq h.behind
    (fun k hk => setSlice_frame fd _ _ _ h.inside (region_length hin) k (Or.inl hk))
  exact ⟨⟨hvolume, hstore⟩, h.behind, (h.length_written hin).symm ▸ h.inside⟩

variable (h : Image fd volume store) (hroom : Room store blob.length)

include h hroom

theorem Image.room_in_volume : volume.hdrlen + (headerSize + blob.length) ≤ volume.size := by
  have hle := hroom.there
  rw [h.rawData_eq, length_slice] at hle
  rw [headerSize] at hle ⊢
  omega

theorem Image.written_split : ∃ pre post, pre.length = headerSize ∧
    slice (written fd volume store blob) volume.hdrlen volume.size = pre ++ (blob ++ post) ∧
    (headerSize + blob.length < store.size → post.head? = some 0xff) := by
  have hin := hroom.inside
  have hthere := h.room_in_volume hroom
  let raw := slice (written fd volume store blob) volume.hdrlen volume.size
  have hself := slice_setSlice_self fd _ _ _ h.inside (region_length hin)
  have hblobAt : slice raw headerSize (headerSize + blob.length) = blob := by
    have hpart := slice_slice (written fd volume store blob) (volume.hdrlen + headerSize)
      (volume.hdrlen + store.size) 0 blob.length
    rw [written, hself, slice_zero, List.take_left, Nat.add_zero, Nat.min_eq_right (by omega)] at hpart
    rw [slice_slice, Nat.min_eq_right hthere, ← Nat.add_assoc]
    exact hpart.symm
  refine ⟨raw.take headerSize, raw.drop (headerSize + blob.length), ?_, ?_, ?_⟩
  · have hle := hroom.there
    rw [← h.length_rawData hin] at hle
    rw [List.length_take]
    exact Nat.min_eq_left (Nat.le_trans (Nat.le_add_right _ _) hle)
  · have hall := slice_split raw 0 headerSize (headerSize + blob.length) (by omega) (by omega)
    rw [slice_zero, slice_zero, hblobAt] at hall
    rw [← List.append_assoc, ← hall, List.take_append_drop]
  · intro hlt
    have hends := hroom.ends hlt
    rw [← h.length_rawData hin, length_slice] at hends
    have hbyte := getElem?_slice (written fd volume store blob) (volume.hdrlen + headerSize)
      (volume.hdrlen + store.size) blob.length
    rw [written, hself, if_pos (by omega), List.getElem?_append_right (Nat.le_refl _), Nat.sub_self,
      List.getElem?_replicate, if_pos (by omega)] at hbyte
    rw [List.head?_drop, getElem?_slice, if_pos (by omega), ← Nat.add_assoc]
    exact hbyte.symm

theorem Image.rewritten (hs : ∀ v ∈ vars, Sound v) (hblob : varsBlob vars = .ok blob)
    (varsSize : Nat) :
    ∃ fd' vars', syncBuffer { store with varsList := vars, varsSize } fd = .ok fd' ∧
      Shows fd' volume { store with rawData := slice fd' volume.hdrlen volume.size } vars' ∧
      List.Forall₂ ReadBack vars vars' := by
  have hin := hroom.inside
  have hraw := h.length_rawData hin
  obtain ⟨pre, post, hpre, hsplit, hfill⟩ := h.written_split hroom
  let store' : VariableStore :=
    { store with rawData := slice (written fd volume store blob) volume.hdrlen volume.size }
  have hroom' : Room store' blob.length :=
    ⟨hin, hraw ▸ hroom.there, fun hlt => hraw ▸ hroom.ends hlt⟩
  have hsplit' : store'.rawData = pre ++ (blob ++ post) := hsplit
  obtain ⟨vars', varsSize', hvars, hlisted, hsync⟩ := sync_blob hs hblob hpre hsplit' hroom' hfill
  have hnil : store.varsList = [] := (init_store h.store_eq).2.2.2.1
  refine ⟨_, vars', h.syncBuffer_eq hblob hin varsSize,
    ⟨h.of_written hin, ⟨varsSize', ?_⟩, hlisted⟩, hvars⟩
  rw [hsync]
  dsimp only [store']
  rw [hnil, List.nil_append]

end Written

/-- A file that ends before the store does, made as long as the store needs. -/
def filled (fd : Bytes) (volume : FirmwareVolume) (store : VariableStore) : Bytes :=
  fd ++ List.replicate (volume.hdrlen + store.size - fd.length) 0xff

/-- The store with as many bytes of the volume as there are once it is written. -/
def grown (fd : Bytes) (volume : FirmwareVolume) (store : VariableStore) : VariableStore :=
  { store with rawData := slice (filled fd volume store) volume.hdrlen volume.size }

theorem Placed.header_inside (h : Placed fd volume store) :
    volume.hdrlen + headerSize ≤ fd.length := by
  have hle := (init_store h.store_eq).1
  rw [length_slice] at hle
  omega

theorem Placed.image_filled (h : Placed fd volume store)
    (hbehind : FirmwareVolume.headerSize ≤ volume.hdrlen + headerSize) :
    Image (filled fd volume store) volume (grown fd volume store) := by
  have hsame : ∀ k < volume.hdrlen + headerSize, (filled fd volume store)[k]? = fd[k]? := by
    intro k hk
    have hin := h.header_inside
    exact List.getElem?_append_left (by omega)
  obtain ⟨hvolume, hstore⟩ := init_of_agree h.volume_eq h.store_eq hbehind hsame
  refine ⟨⟨hvolume, hstore⟩, hbehind, ?_⟩
  rw [filled, List.length_append, List.length_replicate, grown]
  dsimp only
  omega

theorem Placed.rewritten (h : Placed fd volume store)
    (hbehind : FirmwareVolume.headerSize ≤ volume.hdrlen + headerSize) {blob : Bytes}
    (hroom : Room (grown fd volume store) blob.length) (hs : ∀ v ∈ vars, Sound v)
    (hblob : varsBlob vars = .ok blob) (varsSize : Nat) :
    ∃ fd' vars', syncBuffer { store with varsList := vars, varsSize } fd = .ok fd' ∧
      Shows fd' volume { store with rawData := slice fd' volume.hdrlen volume.size } vars' ∧
      List.Forall₂ ReadBack vars vars' := by
  obtain ⟨fd', vars', hsync, hshows, hread⟩ := (h.image_filled hbehind).rewritten hroom hs hblob varsSize
  refine ⟨fd', vars', ?_, hshows, hread⟩
  have hoffset : store.offsetInFd = volume.hdrlen := by simpa using (init_store h.store_eq).2.1
  have hin : store.offsetInFd + headerSize ≤ fd.length := hoffset ▸ h.header_inside
  rw [← hsync, syncBuffer, syncBuffer, filled, grown, ← hoffset]
  dsimp only
  rw [setSlice_append_replicate fd _ 0xff _ _ hin]

theorem Placed.reads (h : Placed fd volume store) {store' : VariableStore}
    (hsync : store.syncToVarsList = .ok store') : Reads fd volume store store'.varsList := by
  have hnil : store.varsList = [] := (init_store h.store_eq).2.2.2.1
  have hlist : ∃ varsSize,
      store.syncToVarsList = .ok { store with varsList := store'.varsList, varsSize } := by
    obtain ⟨s, -, rfl⟩ := reaches_of_sync hsync
    exact ⟨_, hsync⟩
  refine ⟨h, hlist, forall_of_sync hsync (by simp [hnil]) ?_⟩
  intro b header name _ hat hstate hname
  obtain ⟨-, -, -, -, -, -, -, -, -, hguid, -⟩ := VariableHeader.init_inRange hat.2.2
  exact ⟨hat.2.1, hstate, hguid, ⟨name, hname⟩, rfl⟩

end Image

end TdxTools.VarEnroll.Rewrite
