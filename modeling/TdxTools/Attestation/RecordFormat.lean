import TdxTools.Attestation.EventLogDecoding

namespace TdxTools.Attestation.RecordFormat

open Python.ByteString Python.Exec Python.Dictionary Blob EventLog EventLogDecoding

/-- The data start with a record whose digests have the declared sizes. -/
def Fits (sizes : Dict Nat Nat) (data : Bytes) : Prop :=
  ∃ r : EventRecord, r.Declared sizes ∧ r.encode <+: data

section Unique

variable {sizes : Dict Nat Nat}

theorem encodeDigests_inj {ds es : List (Nat × Bytes)} {xs ys : Bytes}
    (hlen : ds.length = es.length) (hd : ∀ d ∈ ds, d.1 < 2 ^ 16 ∧ get? sizes d.1 = some d.2.length)
    (he : ∀ e ∈ es, e.1 < 2 ^ 16 ∧ get? sizes e.1 = some e.2.length)
    (h : encodeDigests ds ++ xs = encodeDigests es ++ ys) : ds = es ∧ xs = ys := by
  induction ds generalizing es with
  | nil =>
    obtain rfl := List.length_eq_zero_iff.mp hlen.symm
    exact ⟨rfl, h⟩
  | cons d ds ih =>
    cases es with
    | nil => cases hlen
    | cons e es =>
      obtain ⟨hid, hsize⟩ := hd d (by simp)
      obtain ⟨hid', hsize'⟩ := he e (by simp)
      have hcons : ∀ (f : Nat × Bytes) fs zs, encodeDigests (f :: fs) ++ zs =
          leBytes 2 f.1 ++ (f.2 ++ (encodeDigests fs ++ zs)) := fun f fs zs => by
        simp [encodeDigests]
      rw [hcons, hcons] at h
      obtain ⟨hfst, h⟩ := leBytes_append_inj (by norm_num; exact hid) (by norm_num; exact hid') h
      have hsame : d.2.length = e.2.length := by
        rw [hfst, hsize'] at hsize
        exact (Option.some.inj hsize).symm
      obtain ⟨hsnd, h⟩ := List.append_inj h hsame
      obtain ⟨htail, hrest⟩ := ih (by simpa using hlen) (fun f hf => hd f (by simp [hf]))
        (fun f hf => he f (by simp [hf])) h
      exact ⟨by rw [Prod.ext hfst hsnd, htail], hrest⟩

theorem record_unique {r s : EventRecord} {data : Bytes} (hr : r.Declared sizes)
    (hs : s.Declared sizes) (hrd : r.encode <+: data) (hsd : s.encode <+: data) : r = s := by
  obtain ⟨xs, rfl⟩ := hrd
  obtain ⟨ys, h⟩ := hsd
  simp only [EventRecord.encode, List.append_assoc] at h
  obtain ⟨hindex, h⟩ := leBytes_append_inj (by norm_num; exact s.registerIndex_lt)
    (by norm_num; exact r.registerIndex_lt) h
  obtain ⟨hetype, h⟩ := leBytes_append_inj (by norm_num; exact s.etype_lt)
    (by norm_num; exact r.etype_lt) h
  obtain ⟨hcount, h⟩ := leBytes_append_inj (by norm_num; exact s.digests_length)
    (by norm_num; exact r.digests_length) h
  obtain ⟨hdigests, h⟩ := encodeDigests_inj hcount (fun d hd => ⟨s.ids_lt d hd, hs d hd⟩)
    (fun d hd => ⟨r.ids_lt d hd, hr d hd⟩) h
  obtain ⟨hsize, h⟩ := leBytes_append_inj (by norm_num; exact s.event_length)
    (by norm_num; exact r.event_length) h
  obtain ⟨hevent, -⟩ := List.append_inj h hsize
  exact EventRecord.ext hindex.symm hetype.symm hdigests.symm hevent.symm

end Unique

section Reading

theorem parseDigests_eq_ok {data : Bytes} {base n index i : Nat} {self self' : TDEventLogEntry}
    (hle : index ≤ data.length)
    (h : TDEventLogEntry.parseDigests ⟨data, base⟩ n index self = (.ok i, self')) :
    ∃ digests : List (Nat × Bytes), digests.length = n ∧ index ≤ i ∧ i ≤ data.length ∧
      (∀ d ∈ digests, d.1 < 2 ^ 16 ∧ d.2 ≠ [] ∧
        get? (declaredSizes self.specidHeader) d.1 = some d.2.length) ∧
      slice data index i = encodeDigests digests ∧
      self' = { self with digests := self.digests ++ digests.map Prod.snd
                          algorithmsId := digests.foldl (fun _ d => d.1) self.algorithmsId } := by
  induction n generalizing index self with
  | zero =>
    cases h
    refine ⟨[], rfl, Nat.le_refl _, hle, by simp, ?_, by simp⟩
    simp [slice, encodeDigests]
  | succ n ih =>
    obtain ⟨⟨algoid, i1⟩, h1, h⟩ := Py.lift_bind_eq_ok.mp h
    obtain ⟨hlen1, rfl, rfl⟩ := BinaryBlob.getUint_eq_ok h1
    dsimp only at h
    rw [Py.get_bind_apply] at h
    obtain ⟨header, hheader, h⟩ := Py.lift_bind_eq_ok.mp h
    obtain ⟨digestSize, hsize, h⟩ := Py.lift_bind_eq_ok.mp h
    rw [Py.modify_bind_apply] at h
    obtain ⟨⟨digestData, i2⟩, h2, h⟩ := Py.lift_bind_eq_ok.mp h
    obtain ⟨hpos, hlen2, rfl, rfl⟩ := BinaryBlob.unpackBytes_eq_ok h2
    dsimp only at h
    rw [Py.modify_bind_apply] at h
    have hself := Outcome.ofOption_eq_ok.mp hheader
    have hget := Outcome.ofOption_eq_ok.mp hsize
    dsimp only [BinaryBlob.length] at hlen1 hlen2
    obtain ⟨digests, hcount, hi, hi', hdecl, hslice, hself'⟩ := ih hlen2 h
    let digest := slice data (index + 2) (index + 2 + digestSize)
    have hdigest : digest.length = digestSize := by
      rw [length_slice]
      omega
    refine ⟨(leNat (slice data index (index + 2)), digest) :: digests, by simp [hcount], by omega, hi',
      ?_, ?_, ?_⟩
    · intro d hd
      rcases List.mem_cons.mp hd with rfl | hd
      · refine ⟨Nat.lt_of_lt_of_eq (leNat_slice_lt hlen1) (by norm_num), ?_, ?_⟩
        · intro hnil
          rw [← hdigest, show digest = [] from hnil] at hpos
          exact absurd hpos (by simp)
        · have hsizes : declaredSizes self.specidHeader = header.digestSizes := by rw [hself]; rfl
          rw [hsizes, hdigest]
          exact hget
      · exact hdecl d hd
    · have hcons : encodeDigests ((leNat (slice data index (index + 2)), digest) :: digests) =
          leBytes 2 (leNat (slice data index (index + 2))) ++ (digest ++ encodeDigests digests) := by
        simp [encodeDigests]
      rw [hcons, leBytes_slice hlen1, ← hslice, slice_split data index (index + 2) i (by omega)
        (by omega), slice_split data (index + 2) (index + 2 + digestSize) i (by omega) hi]
    · rw [hself']
      simp [digest]

/-- An entry that is accepted is a record that stands in the data. -/
theorem parse_eq_ok {data : Bytes} {specidHeader : Option TDEventLogSpecIdHeader} {address i : Nat}
    {entry : TDEventLogEntry}
    (h : TDEventLogEntry.parse data { address, specidHeader } = (.ok i, entry)) :
    ∃ r : EventRecord, r.Declared (declaredSizes specidHeader) ∧ r.Filled ∧ r.encode <+: data ∧
      i = r.encode.length ∧ entry = r.entry specidHeader address := by
  obtain ⟨⟨blob, i0⟩, base, hh, h⟩ := Py.within_bind_eq_ok.mp h
  obtain ⟨rfl, rfl, rfl, hlen⟩ := TDEventLogBase.parseHeader_eq_ok hh
  dsimp only at h
  rw [Py.get_bind_apply] at h
  obtain ⟨i1, s1, h1, h⟩ := Py.bind_eq_ok.mp h
  obtain ⟨digests, hcount, hi1, hle1, hdecl, hslice, rfl⟩ := parseDigests_eq_ok hlen h1
  have hcount : digests.length = leNat (slice data 8 12) := hcount
  obtain ⟨⟨eventSize, i2⟩, h2, h⟩ := Py.lift_bind_eq_ok.mp h
  obtain ⟨hlen2, rfl, rfl⟩ := BinaryBlob.getUint_eq_ok h2
  dsimp only at h
  rw [Py.modify_bind_apply] at h
  obtain ⟨⟨event, i3⟩, h3, h⟩ := Py.lift_bind_eq_ok.mp h
  obtain ⟨hpos, hlen3, rfl, rfl⟩ := BinaryBlob.unpackBytes_eq_ok h3
  dsimp only [BinaryBlob.length] at hlen2 hlen3
  have h4 : ∀ k, k + 4 ≤ data.length → leNat (slice data k (k + 4)) < 2 ^ 32 := fun k hk =>
    Nat.lt_of_lt_of_eq (leNat_slice_lt hk) (by norm_num)
  have hevent : (slice data (i1 + 4) (i1 + 4 + leNat (slice data i1 (i1 + 4)))).length =
      leNat (slice data i1 (i1 + 4)) := by
    rw [length_slice]
    omega
  let r : EventRecord :=
    { registerIndex := leNat (slice data 0 4), etype := leNat (slice data 4 8), digests
      event := slice data (i1 + 4) (i1 + 4 + leNat (slice data i1 (i1 + 4)))
      registerIndex_lt := h4 0 (by omega), etype_lt := h4 4 (by omega)
      digests_length := hcount ▸ h4 8 (by omega), ids_lt := fun d hd => (hdecl d hd).1
      event_length := by rw [hevent]; exact h4 i1 hlen2 }
  have hencode : r.encode = data.take (i1 + 4 + leNat (slice data i1 (i1 + 4))) := by
    have hend := hlen3
    rw [EventRecord.encode, ← slice_zero data, slice_split data 0 (i1 + 4) _ (by omega) (by omega),
      slice_split data 0 i1 (i1 + 4) (by omega) (by omega), slice_split data 0 12 i1 (by omega) hi1,
      slice_split data 0 8 12 (by omega) (by omega), slice_split data 0 4 8 (by omega) (by omega),
      hslice, hcount, hevent, leBytes_slice (i := 0) (by omega), leBytes_slice (i := 4) (by omega),
      leBytes_slice (i := 8) (by omega), leBytes_slice hlen2]
  have hlength : (data.take (i1 + 4 + leNat (slice data i1 (i1 + 4)))).length =
      i1 + 4 + leNat (slice data i1 (i1 + 4)) := by
    rw [List.length_take]
    omega
  have hne : r.event ≠ [] := fun hnil => by
    rw [← hevent, show slice data (i1 + 4) _ = [] from hnil] at hpos
    exact absurd hpos (by simp)
  cases h
  refine ⟨r, fun d hd => (hdecl d hd).2.2, ⟨fun d hd => (hdecl d hd).2.1, hne⟩, ?_, ?_, ?_⟩
  · rw [hencode]
    exact List.take_prefix _ _
  · rw [hencode, hlength]
  · simp only [EventRecord.entry, hencode, hlength, hevent, hcount, List.nil_append, r]

end Reading

section Acceptance

variable (header : TDEventLogSpecIdHeader) (address : Nat) (data : Bytes)

def Accepts (i : Nat) : Prop :=
  ∃ entry, TDEventLogEntry.parse data { address, specidHeader := some header } = (.ok i, entry)

def recordLength (r : EventRecord) : Nat :=
  12 + (r.digests.map (fun d => 2 + d.2.length)).sum + 4 + r.event.length

theorem length_encode (r : EventRecord) : r.encode.length = recordLength r := by
  have hdigests : (encodeDigests r.digests).length =
      (r.digests.map (fun d => 2 + d.2.length)).sum := by
    rw [encodeDigests, List.length_flatMap]
    simp
  simp only [EventRecord.encode, List.length_append, length_leBytes, hdigests, recordLength]

/-- A record is accepted exactly when it lies in the data, and its length is
returned, if and only if it has no empty digest and no empty event. -/
theorem accepts_iff_fits :
    (((∃ i, Accepts header address data i) ↔ Fits header.digestSizes data) ∧
      ∀ i, Accepts header address data i → ∃ r : EventRecord,
        r.Declared header.digestSizes ∧ r.encode <+: data ∧ i = recordLength r) ↔
    ∀ r : EventRecord, r.Declared header.digestSizes → r.encode <+: data →
      (∀ d ∈ r.digests, d.2.length ≠ 0) ∧ r.event.length ≠ 0 := by
  constructor
  · rintro ⟨haccept, -⟩ r hr hrd
    obtain ⟨i, entry, hparse⟩ := haccept.mpr ⟨r, hr, hrd⟩
    obtain ⟨s, hs, hfilled, hsd, -, -⟩ := parse_eq_ok hparse
    obtain rfl := record_unique hr hs hrd hsd
    exact ⟨fun d hd => by simpa using hfilled.1 d hd, by simpa using hfilled.2⟩
  · intro hcond
    have hread : ∀ i, Accepts header address data i → ∃ r : EventRecord,
        r.Declared header.digestSizes ∧ r.encode <+: data ∧ i = recordLength r := by
      rintro i ⟨entry, hparse⟩
      obtain ⟨r, hr, -, hrd, hi, -⟩ := parse_eq_ok hparse
      exact ⟨r, hr, hrd, hi.trans (length_encode r)⟩
    refine ⟨⟨?_, ?_⟩, hread⟩
    · rintro ⟨i, haccept⟩
      obtain ⟨r, hr, hrd, -⟩ := hread i haccept
      exact ⟨r, hr, hrd⟩
    · rintro ⟨r, hr, hrd⟩
      obtain ⟨hdigests, hevent⟩ := hcond r hr hrd
      obtain ⟨rest, rfl⟩ := hrd
      have hdeclared : r.Declared (declaredSizes (some header)) := hr
      have hfilled : r.Filled :=
        ⟨fun d hd => by simpa using hdigests d hd, by simpa using hevent⟩
      exact ⟨_, _, parse_record rest r hdeclared hfilled address⟩

def emptyEvent : EventRecord := .checked 1 4 [] [] (by decide)

theorem emptyEvent_refused : Fits [(12, 48)] emptyEvent.encode ∧
    ¬ ∃ i, Accepts { address := 0, digestSizes := [(12, 48)] } 0 emptyEvent.encode i := by
  refine ⟨⟨emptyEvent, by simp [EventRecord.Declared, emptyEvent], List.prefix_refl _⟩, ?_⟩
  rintro ⟨i, entry, hparse⟩
  obtain ⟨r, hr, hfilled, hrd, -, -⟩ := parse_eq_ok hparse
  have hdeclared : emptyEvent.Declared [(12, 48)] := by
    simp [EventRecord.Declared, emptyEvent]
  obtain rfl := record_unique hr hdeclared hrd (List.prefix_refl _)
  exact hfilled.2 rfl

end Acceptance

end TdxTools.Attestation.RecordFormat
