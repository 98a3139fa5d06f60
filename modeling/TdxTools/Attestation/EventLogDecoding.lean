import TdxTools.Attestation.Actor

namespace TdxTools.Attestation.EventLogDecoding

open Python.ByteString Python.Exec Python.Dictionary Blob EventLog Actor

/-- The algorithms of a spec-ID record with the sizes of their digests. -/
abbrev Algorithms := List (Nat × Nat)

def encodeAlgorithms (algorithms : Algorithms) : Bytes :=
  algorithms.flatMap (fun a => leBytes 2 a.1 ++ leBytes 2 a.2)

/-- A well-formed spec-ID record. The digest, the signature and the version
fields are not read: `reserved` are the 48 bytes they fill. -/
structure SpecIdRecord where
  registerIndex : Nat
  reserved : Bytes
  algorithms : Algorithms
  vendor : Bytes
  registerIndex_lt : registerIndex < 0xffffffff
  reserved_length : reserved.length = 48
  algorithms_length : algorithms.length < 2 ^ 32
  algorithms_fit : ∀ a ∈ algorithms, a.1 < 2 ^ 16 ∧ 0 < a.2 ∧ a.2 < 2 ^ 16
  algorithms_nodup : (keys algorithms).Nodup
  vendor_length : vendor.length ≤ 255

/-- The record of fields that are checked together. -/
def SpecIdRecord.checked (registerIndex : Nat) (reserved : Bytes) (algorithms : Algorithms)
    (vendor : Bytes) (h : registerIndex < 0xffffffff ∧ reserved.length = 48 ∧
      algorithms.length < 2 ^ 32 ∧ (∀ a ∈ algorithms, a.1 < 2 ^ 16 ∧ 0 < a.2 ∧ a.2 < 2 ^ 16) ∧
      (keys algorithms).Nodup ∧ vendor.length ≤ 255) : SpecIdRecord :=
  ⟨registerIndex, reserved, algorithms, vendor, h.1, h.2.1, h.2.2.1, h.2.2.2.1, h.2.2.2.2.1,
    h.2.2.2.2.2⟩

@[simp] theorem SpecIdRecord.algorithms_checked (registerIndex : Nat) (reserved : Bytes)
    (algorithms : Algorithms) (vendor : Bytes) (h) :
    (checked registerIndex reserved algorithms vendor h).algorithms = algorithms := rfl

def SpecIdRecord.encode (r : SpecIdRecord) : Bytes :=
  leBytes 4 r.registerIndex ++ leBytes 4 EV_NO_ACTION ++ r.reserved ++
    leBytes 4 r.algorithms.length ++ encodeAlgorithms r.algorithms ++
    leBytes 1 r.vendor.length ++ r.vendor

def encodeDigests (digests : List (Nat × Bytes)) : Bytes :=
  digests.flatMap (fun d => leBytes 2 d.1 ++ d.2)

/-- A crypto-agile record of any type. Digests and event may be empty. -/
@[ext] structure EventRecord where
  registerIndex : Nat
  etype : Nat
  digests : List (Nat × Bytes)
  event : Bytes
  registerIndex_lt : registerIndex < 2 ^ 32
  etype_lt : etype < 2 ^ 32
  digests_length : digests.length < 2 ^ 32
  ids_lt : ∀ d ∈ digests, d.1 < 2 ^ 16
  event_length : event.length < 2 ^ 32

namespace EventRecord

/-- The record of fields that are checked together. -/
def checked (registerIndex etype : Nat) (digests : List (Nat × Bytes)) (event : Bytes)
    (h : registerIndex < 2 ^ 32 ∧ etype < 2 ^ 32 ∧ digests.length < 2 ^ 32 ∧
      (∀ d ∈ digests, d.1 < 2 ^ 16) ∧ event.length < 2 ^ 32) : EventRecord :=
  ⟨registerIndex, etype, digests, event, h.1, h.2.1, h.2.2.1, h.2.2.2.1, h.2.2.2.2⟩

section Checked

variable (registerIndex etype : Nat) (digests : List (Nat × Bytes)) (event : Bytes)

@[simp] theorem registerIndex_checked (h) :
    (checked registerIndex etype digests event h).registerIndex = registerIndex := rfl

@[simp] theorem etype_checked (h) :
    (checked registerIndex etype digests event h).etype = etype := rfl

@[simp] theorem digests_checked (h) :
    (checked registerIndex etype digests event h).digests = digests := rfl

end Checked

def encode (r : EventRecord) : Bytes :=
  leBytes 4 r.registerIndex ++ leBytes 4 r.etype ++ leBytes 4 r.digests.length ++
    encodeDigests r.digests ++ leBytes 4 r.event.length ++ r.event

/-- The digests have the sizes that the table gives for their algorithms. -/
def Declared (sizes : Dict Nat Nat) (r : EventRecord) : Prop :=
  ∀ d ∈ r.digests, get? sizes d.1 = some d.2.length

/-- No digest is empty, and the event is not. -/
def Filled (r : EventRecord) : Prop := (∀ d ∈ r.digests, d.2 ≠ []) ∧ r.event ≠ []

/-- The object that parsing the record leaves. -/
def entry (r : EventRecord) (specidHeader : Option TDEventLogSpecIdHeader) (address : Nat) :
    TDEventLogEntry :=
  { address, length := r.encode.length, data := some r.encode
    rtmr := (r.registerIndex : Int) - 1, etype := r.etype, digestCount := r.digests.length
    specidHeader, digests := r.digests.map Prod.snd, eventSize := r.event.length
    event := some r.event, algorithmsId := r.digests.foldl (fun _ d => d.1) 0 }

end EventRecord

/-- The table an entry looks its digest sizes up in. -/
def declaredSizes (specidHeader : Option TDEventLogSpecIdHeader) : Dict Nat Nat :=
  (specidHeader.map TDEventLogSpecIdHeader.digestSizes).getD []

theorem header_of_declared {specidHeader : Option TDEventLogSpecIdHeader} {algoid size : Nat}
    (h : get? (declaredSizes specidHeader) algoid = some size) :
    ∃ header, specidHeader = some header ∧ get? header.digestSizes algoid = some size := by
  cases specidHeader with
  | none => cases h
  | some header => exact ⟨header, rfl, h⟩

/-- A well-formed crypto-agile record of a log with these algorithms. -/
structure AgileRecord (algorithms : Algorithms) where
  registerIndex : Nat
  etype : Nat
  digests : List (Nat × Bytes)
  event : Bytes
  registerIndex_lt : registerIndex < 0xffffffff
  etype_lt : etype < 2 ^ 32
  etype_ne : etype ≠ EV_NO_ACTION
  digests_length : digests.length < 2 ^ 32
  digests_declared : ∀ d ∈ digests, (d.1, d.2.length) ∈ algorithms
  event_ne : event ≠ []
  event_length : event.length < 2 ^ 32

def AgileRecord.encode {algorithms : Algorithms} (r : AgileRecord algorithms) : Bytes :=
  leBytes 4 r.registerIndex ++ leBytes 4 r.etype ++ leBytes 4 r.digests.length ++
    encodeDigests r.digests ++ leBytes 4 r.event.length ++ r.event

section Parsing

variable (ys : Bytes)

theorem parseHeader_at {data : Bytes} {a b c : Nat} (base : TDEventLogBase)
    (hd : data = leBytes 4 a ++ (leBytes 4 b ++ (leBytes 4 c ++ ys))) (ha : a < 2 ^ 32)
    (hb : b < 2 ^ 32) (hc : c < 2 ^ 32) :
    TDEventLogBase.parseHeader data base = (.ok (⟨data, base.address⟩, 12),
      { base with rtmr := (a : Int) - 1, etype := b, digestCount := c }) := by
  have h1 : BinaryBlob.getUint32 ⟨data, base.address⟩ 0 = .ok (a, 4) :=
    BinaryBlob.getUint_at [] _ _ hd rfl (by norm_num; exact ha)
  have h2 : BinaryBlob.getUint32 ⟨data, base.address⟩ 4 = .ok (b, 8) :=
    BinaryBlob.getUint_at (leBytes 4 a) _ _ hd (by simp) (by norm_num; exact hb)
  have h3 : BinaryBlob.getUint32 ⟨data, base.address⟩ 8 = .ok (c, 12) :=
    BinaryBlob.getUint_at (leBytes 4 a ++ leBytes 4 b) ys _ (by rw [hd, List.append_assoc])
      (by simp) (by norm_num; exact hc)
  rw [TDEventLogBase.parseHeader, Py.get_bind_apply, h1, Py.lift_ok_bind_apply]
  dsimp only
  rw [h2, Py.lift_ok_bind_apply]
  dsimp only
  rw [Py.modify_bind_apply, h3, Py.lift_ok_bind_apply]
  rfl

theorem parseAlgorithms_at {data : Bytes} (base : Nat) (algorithms : Algorithms) (xs : Bytes)
    (self : TDEventLogSpecIdHeader) (hd : data = xs ++ (encodeAlgorithms algorithms ++ ys))
    (hfit : ∀ a ∈ algorithms, a.1 < 2 ^ 16 ∧ 0 < a.2 ∧ a.2 < 2 ^ 16)
    (hk : (keys (self.digestSizes ++ algorithms)).Nodup) :
    TDEventLogSpecIdHeader.parseAlgorithms ⟨data, base⟩ algorithms.length xs.length self =
      (.ok (xs.length + (encodeAlgorithms algorithms).length),
        { self with digestSizes := self.digestSizes ++ algorithms }) := by
  induction algorithms generalizing xs self with
  | nil => simp [TDEventLogSpecIdHeader.parseAlgorithms, encodeAlgorithms]
  | cons a algorithms ih =>
    obtain ⟨h16, -, hs16⟩ := hfit a (by simp)
    have hcons : encodeAlgorithms (a :: algorithms) =
        leBytes 2 a.1 ++ (leBytes 2 a.2 ++ encodeAlgorithms algorithms) := by
      simp [encodeAlgorithms]
    rw [hcons, List.append_assoc, List.append_assoc] at hd
    have h1 : BinaryBlob.getUint16 ⟨data, base⟩ xs.length = .ok (a.1, xs.length + 2) :=
      BinaryBlob.getUint_at xs _ _ hd rfl (by norm_num; exact h16)
    have h2 : BinaryBlob.getUint16 ⟨data, base⟩ (xs.length + 2) = .ok (a.2, xs.length + 2 + 2) :=
      BinaryBlob.getUint_at (xs ++ leBytes 2 a.1) (encodeAlgorithms algorithms ++ ys) _
        (by rw [hd, List.append_assoc]) (by simp) (by norm_num; exact hs16)
    have hnew : a.1 ∉ keys self.digestSizes := by
      rw [keys, List.map_append, List.map_cons, List.nodup_append] at hk
      intro hm
      exact hk.2.2 _ hm _ (by simp) rfl
    have hnext := ih (xs ++ leBytes 2 a.1 ++ leBytes 2 a.2)
      { self with digestSizes := self.digestSizes ++ [a] }
      (by rw [hd]; simp only [List.append_assoc]) (fun b hb => hfit b (by simp [hb])) (by simpa using hk)
    have hpos : (xs ++ leBytes 2 a.1 ++ leBytes 2 a.2).length = xs.length + 2 + 2 := by simp
    rw [hpos] at hnext
    rw [List.length_cons, TDEventLogSpecIdHeader.parseAlgorithms, h1, Py.lift_ok_bind_apply]
    dsimp only
    rw [h2, Py.lift_ok_bind_apply]
    dsimp only
    rw [Py.modify_bind_apply, set_of_not_mem hnew, hnext, hcons]
    simp only [List.append_assoc, List.singleton_append, List.length_append, length_leBytes,
      Nat.add_assoc]

/-- The object that parsing the spec-ID record leaves. -/
def SpecIdRecord.header (r : SpecIdRecord) (address : Nat) : TDEventLogSpecIdHeader :=
  { address, length := r.encode.length, data := some r.encode
    rtmr := (r.registerIndex : Int) - 1, etype := EV_NO_ACTION
    digestCount := leNat (r.reserved.take 4), algorithmsNumber := r.algorithms.length
    digestSizes := r.algorithms }

theorem parse_specId (r : SpecIdRecord) (address : Nat) :
    TDEventLogSpecIdHeader.parse (r.encode ++ ys) { address } =
      (.ok r.encode.length, r.header address) := by
  let c := leNat (r.reserved.take 4)
  let front := leBytes 4 r.registerIndex ++ leBytes 4 EV_NO_ACTION ++ r.reserved
  let algos := encodeAlgorithms r.algorithms
  let tail := leBytes 1 r.vendor.length ++ (r.vendor ++ ys)
  have hreserved := r.reserved_length
  have hfour : (r.reserved.take 4).length = 4 := by simp [hreserved]
  have hsplit : r.reserved = leBytes 4 c ++ r.reserved.drop 4 := by
    have h := leBytes_leNat (r.reserved.take 4)
    rw [hfour] at h
    rw [h, List.take_append_drop]
  have hc : c < 2 ^ 32 := by
    have h := leNat_lt (r.reserved.take 4)
    rw [hfour] at h
    exact Nat.lt_of_lt_of_eq h (by norm_num)
  have hfront : front.length = 56 := by simp [front, hreserved]
  have hdata : r.encode ++ ys = front ++ (leBytes 4 r.algorithms.length ++ (algos ++ tail)) := by
    simp only [SpecIdRecord.encode, front, algos, tail, List.append_assoc]
  have hfields : r.encode ++ ys = leBytes 4 r.registerIndex ++ (leBytes 4 EV_NO_ACTION ++ (leBytes 4 c ++
      (r.reserved.drop 4 ++ (leBytes 4 r.algorithms.length ++ (algos ++ tail))))) := by
    rw [hdata, ← List.append_assoc (leBytes 4 c), ← hsplit]
    simp only [front, List.append_assoc]
  have hhead : TDEventLogBase.parseHeader (r.encode ++ ys) { address := address } = _ :=
    parseHeader_at _ _ hfields (Nat.lt_trans r.registerIndex_lt (by norm_num)) (by decide) hc
  have hcount : BinaryBlob.getUint32 ⟨r.encode ++ ys, address⟩ 56 = .ok (r.algorithms.length, 60) :=
    BinaryBlob.getUint_at front _ _ hdata hfront.symm (by norm_num; exact r.algorithms_length)
  have hxs : (front ++ leBytes 4 r.algorithms.length).length = 60 := by simp [hfront]
  have hrest : r.encode ++ ys = front ++ leBytes 4 r.algorithms.length ++
      (encodeAlgorithms r.algorithms ++ tail) := by
    rw [hdata]
    simp only [algos, List.append_assoc]
  have halgos := parseAlgorithms_at tail address r.algorithms (front ++ leBytes 4 r.algorithms.length)
    { address, rtmr := (r.registerIndex : Int) - 1, etype := EV_NO_ACTION, digestCount := c
      algorithmsNumber := r.algorithms.length } hrest r.algorithms_fit
    (by simpa using r.algorithms_nodup)
  rw [hxs] at halgos
  have hvendor : BinaryBlob.getUint8 ⟨r.encode ++ ys, address⟩ (60 + algos.length) =
      .ok (r.vendor.length, 60 + algos.length + 1) :=
    BinaryBlob.getUint_at (front ++ leBytes 4 r.algorithms.length ++ algos) (r.vendor ++ ys) _
      (by rw [hdata]; simp only [tail, List.append_assoc]) (by rw [List.length_append, hxs])
      (Nat.lt_of_le_of_lt r.vendor_length (by norm_num))
  have hlen : 60 + algos.length + 1 + r.vendor.length = r.encode.length := by
    simp only [SpecIdRecord.encode, List.length_append, length_leBytes, hreserved, algos]
  have hbase : Py.within TDEventLogSpecIdHeader.toTDEventLogBase
      (fun base self => { self with toTDEventLogBase := base })
      (TDEventLogBase.parseHeader (r.encode ++ ys)) { address } = _ := Py.within_ok hhead
  rw [TDEventLogSpecIdHeader.parse, Py.bind_ok hbase]
  dsimp only
  rw [hcount, Py.lift_ok_bind_apply]
  dsimp only
  rw [Py.modify_bind_apply, Py.bind_ok halgos, hvendor, Py.lift_ok_bind_apply]
  dsimp only
  rw [Py.modify_bind_apply, hlen]
  simp [SpecIdRecord.header, c]

theorem parseDigests_at {data : Bytes} (base : Nat) (digests : List (Nat × Bytes)) (xs : Bytes)
    (self : TDEventLogEntry)
    (hdecl : ∀ d ∈ digests, get? (declaredSizes self.specidHeader) d.1 = some d.2.length)
    (hids : ∀ d ∈ digests, d.1 < 2 ^ 16) (hne : ∀ d ∈ digests, d.2 ≠ [])
    (hd : data = xs ++ (encodeDigests digests ++ ys)) :
    TDEventLogEntry.parseDigests ⟨data, base⟩ digests.length xs.length self =
      (.ok (xs.length + (encodeDigests digests).length),
        { self with digests := self.digests ++ digests.map Prod.snd
                    algorithmsId := digests.foldl (fun _ d => d.1) self.algorithmsId }) := by
  induction digests generalizing xs self with
  | nil => simp [TDEventLogEntry.parseDigests, encodeDigests]
  | cons d digests ih =>
    have hcons : encodeDigests (d :: digests) = leBytes 2 d.1 ++ (d.2 ++ encodeDigests digests) := by
      simp [encodeDigests]
    rw [hcons, List.append_assoc, List.append_assoc] at hd
    have h1 : BinaryBlob.getUint16 ⟨data, base⟩ xs.length = .ok (d.1, xs.length + 2) :=
      BinaryBlob.getUint_at xs _ _ hd rfl (by norm_num; exact hids d (by simp))
    obtain ⟨header, hself, hsize⟩ := header_of_declared (hdecl d (by simp))
    have h2 : BinaryBlob.unpackBytes ⟨data, base⟩ (xs.length + 2) d.2.length =
        .ok (d.2, xs.length + 2 + d.2.length) :=
      BinaryBlob.unpackBytes_at (xs ++ leBytes 2 d.1) (encodeDigests digests ++ ys) _
        (by rw [hd, List.append_assoc]) (by simp) rfl (hne d (by simp))
    have hnext := ih (xs ++ leBytes 2 d.1 ++ d.2)
      { self with digests := self.digests ++ [d.2], algorithmsId := d.1 }
      (fun e he => hdecl e (by simp [he])) (fun e he => hids e (by simp [he]))
      (fun e he => hne e (by simp [he])) (by rw [hd]; simp only [List.append_assoc])
    have hlen : (xs ++ leBytes 2 d.1 ++ d.2).length = xs.length + 2 + d.2.length := by
      rw [List.length_append, List.length_append, length_leBytes]
    rw [hlen] at hnext
    rw [List.length_cons, TDEventLogEntry.parseDigests, h1, Py.lift_ok_bind_apply]
    dsimp only
    rw [Py.get_bind_apply, hself, Outcome.ofOption_some, Py.lift_ok_bind_apply, hsize,
      Outcome.ofOption_some, Py.lift_ok_bind_apply, Py.modify_bind_apply, h2, Py.lift_ok_bind_apply]
    dsimp only
    rw [Py.modify_bind_apply, hnext, hcons]
    simp only [List.append_assoc, List.singleton_append, List.length_append, length_leBytes,
      Nat.add_assoc, List.map_cons, List.foldl_cons, hself]

theorem parse_record {specidHeader : Option TDEventLogSpecIdHeader} (r : EventRecord)
    (hr : r.Declared (declaredSizes specidHeader)) (hf : r.Filled) (address : Nat) :
    TDEventLogEntry.parse (r.encode ++ ys) { address, specidHeader } =
      (.ok r.encode.length, r.entry specidHeader address) := by
  let front := leBytes 4 r.registerIndex ++ leBytes 4 r.etype ++ leBytes 4 r.digests.length
  let digests := encodeDigests r.digests
  have hfront : front.length = 12 := by simp [front]
  have hdata : r.encode ++ ys =
      front ++ (digests ++ (leBytes 4 r.event.length ++ (r.event ++ ys))) := by
    simp only [EventRecord.encode, front, digests, List.append_assoc]
  have hhead : TDEventLogBase.parseHeader (r.encode ++ ys) { address := address } = _ :=
    parseHeader_at _ _ (by rw [hdata]; simp only [front, List.append_assoc]; rfl)
      r.registerIndex_lt r.etype_lt r.digests_length
  have hbase : Py.within TDEventLogEntry.toTDEventLogBase
      (fun base self => { self with toTDEventLogBase := base })
      (TDEventLogBase.parseHeader (r.encode ++ ys)) { address, specidHeader } = _ :=
    Py.within_ok hhead
  have hdigests := parseDigests_at (leBytes 4 r.event.length ++ (r.event ++ ys)) address r.digests
    front { address, rtmr := (r.registerIndex : Int) - 1, etype := r.etype
            digestCount := r.digests.length, specidHeader } hr r.ids_lt hf.1 hdata
  rw [hfront] at hdigests
  have hxs : (front ++ digests).length = 12 + digests.length := by rw [List.length_append, hfront]
  have hsize : BinaryBlob.getUint32 ⟨r.encode ++ ys, address⟩ (12 + digests.length) =
      .ok (r.event.length, 12 + digests.length + 4) :=
    BinaryBlob.getUint_at (front ++ digests) (r.event ++ ys) _
      (by rw [hdata, List.append_assoc front digests]) hxs.symm
      (by norm_num; exact r.event_length)
  have hevent : BinaryBlob.unpackBytes ⟨r.encode ++ ys, address⟩ (12 + digests.length + 4)
      r.event.length = .ok (r.event, 12 + digests.length + 4 + r.event.length) :=
    BinaryBlob.unpackBytes_at (front ++ digests ++ leBytes 4 r.event.length) ys _
      (by rw [hdata]; simp only [List.append_assoc]) (by rw [List.length_append, hxs]; simp) rfl hf.2
  have hlen : 12 + digests.length + 4 + r.event.length = r.encode.length := by
    simp only [EventRecord.encode, List.length_append, length_leBytes, digests]
  rw [TDEventLogEntry.parse, Py.bind_ok hbase]
  dsimp only
  rw [Py.get_bind_apply, Py.bind_ok hdigests, hsize, Py.lift_ok_bind_apply]
  dsimp only
  rw [Py.modify_bind_apply, hevent, Py.lift_ok_bind_apply]
  dsimp only
  rw [Py.modify_bind_apply, Py.modify_bind_apply, hlen]
  simp [EventRecord.entry]

variable {algorithms : Algorithms}

/-- The object that parsing a crypto-agile record leaves. -/
def AgileRecord.entry (r : AgileRecord algorithms) (header : TDEventLogSpecIdHeader)
    (address : Nat) : TDEventLogEntry :=
  { address, length := r.encode.length, data := some r.encode
    rtmr := (r.registerIndex : Int) - 1, etype := r.etype, digestCount := r.digests.length
    specidHeader := some header, digests := r.digests.map Prod.snd, eventSize := r.event.length
    event := some r.event, algorithmsId := r.digests.foldl (fun _ d => d.1) 0 }

/-- The record as one of any log. -/
def AgileRecord.toEventRecord (r : AgileRecord algorithms)
    (hfit : ∀ a ∈ algorithms, a.1 < 2 ^ 16 ∧ 0 < a.2 ∧ a.2 < 2 ^ 16) : EventRecord where
  registerIndex := r.registerIndex
  etype := r.etype
  digests := r.digests
  event := r.event
  registerIndex_lt := Nat.lt_trans r.registerIndex_lt (by norm_num)
  etype_lt := r.etype_lt
  digests_length := r.digests_length
  ids_lt d hd := (hfit _ (r.digests_declared d hd)).1
  event_length := r.event_length

theorem parse_agile (header : TDEventLogSpecIdHeader) (hh : header.digestSizes = algorithms)
    (hk : (keys algorithms).Nodup)
    (hfit : ∀ a ∈ algorithms, a.1 < 2 ^ 16 ∧ 0 < a.2 ∧ a.2 < 2 ^ 16)
    (r : AgileRecord algorithms) (address : Nat) :
    TDEventLogEntry.parse (r.encode ++ ys) { address, specidHeader := some header } =
      (.ok r.encode.length, r.entry header address) := by
  have hdecl : (r.toEventRecord hfit).Declared (declaredSizes (some header)) := fun d hd => by
    have hsizes : declaredSizes (some header) = algorithms := hh
    rw [hsizes]
    exact get?_of_mem hk (r.digests_declared d hd)
  have hne : ∀ d ∈ r.digests, d.2 ≠ [] := fun d hd hnil => by
    have hpos := (hfit _ (r.digests_declared d hd)).2.1
    simp [hnil] at hpos
  exact parse_record ys (r.toEventRecord hfit) hdecl ⟨hne, r.event_ne⟩ address

end Parsing

section Decoding

variable {algorithms : Algorithms}

def encodeRecords (records : List (AgileRecord algorithms)) : Bytes :=
  records.flatMap AgileRecord.encode

theorem encodeRecords_concat (pre : List (AgileRecord algorithms)) (r : AgileRecord algorithms) :
    encodeRecords (pre ++ [r]) = encodeRecords pre ++ r.encode := by
  simp [encodeRecords]

/-- The objects of a list of records, the first of them at an address. -/
def entriesFrom (header : TDEventLogSpecIdHeader) :
    Nat → List (AgileRecord algorithms) → List TDEventLogEntry
  | _, [] => []
  | address, r :: records =>
    r.entry header address :: entriesFrom header (address + r.encode.length) records

theorem entriesFrom_concat (header : TDEventLogSpecIdHeader) (address : Nat)
    (pre : List (AgileRecord algorithms)) (r : AgileRecord algorithms) :
    entriesFrom header address (pre ++ [r]) =
      entriesFrom header address pre ++ [r.entry header (address + (encodeRecords pre).length)] := by
  induction pre generalizing address with
  | nil => simp [entriesFrom, encodeRecords]
  | cons p pre ih =>
    have hlen : (encodeRecords (p :: pre)).length = p.encode.length + (encodeRecords pre).length := by
      simp [encodeRecords]
    rw [List.cons_append, entriesFrom, ih, entriesFrom, hlen, Nat.add_assoc, List.cons_append]

/-- What is asked of an object: the register, the digests, the length and
the bytes. -/
def decoded (e : TDEventLogEntry) : Int × List Bytes × Nat × Option Bytes :=
  (e.rtmr, e.digests, e.length, e.data)

def AgileRecord.decoded (r : AgileRecord algorithms) : Int × List Bytes × Nat × Option Bytes :=
  ((r.registerIndex : Int) - 1, r.digests.map Prod.snd, r.encode.length, some r.encode)

theorem map_decoded (header : TDEventLogSpecIdHeader) (address : Nat)
    (records : List (AgileRecord algorithms)) :
    (entriesFrom header address records).map decoded = records.map AgileRecord.decoded := by
  induction records generalizing address with
  | nil => rfl
  | cons r records ih =>
    rw [entriesFrom, List.map_cons, List.map_cons, ih]
    rfl

theorem peek_at {data : Bytes} {index a b : Nat} (base : Nat) (xs ys : Bytes)
    (hd : data = xs ++ (leBytes 4 a ++ (leBytes 4 b ++ ys))) (hp : index = xs.length)
    (ha : a < 2 ^ 32) (hb : b < 2 ^ 32) :
    TDEventLogActor.peek ⟨data, base⟩ index = .ok (a, b) := by
  have h1 : BinaryBlob.getUint32 ⟨data, base⟩ index = .ok (a, index + 4) :=
    BinaryBlob.getUint_at xs _ _ hd hp (by norm_num; exact ha)
  have h2 : BinaryBlob.getUint32 ⟨data, base⟩ (index + 4) = .ok (b, index + 4 + 4) :=
    BinaryBlob.getUint_at (xs ++ leBytes 4 a) ys _ (by rw [hd, List.append_assoc])
      (by rw [List.length_append, length_leBytes, hp]) (by norm_num; exact hb)
  rw [TDEventLogActor.peek, h1, Outcome.ok_bind]
  dsimp only
  rw [h2, Outcome.ok_bind]

theorem SpecIdRecord.encode_pos (r : SpecIdRecord) : 0 < r.encode.length := by
  simp only [SpecIdRecord.encode, List.length_append, length_leBytes]
  omega

theorem turn_specId {data ys : Bytes} {s : TDEventLogActor.ProcessState} (r : SpecIdRecord)
    (hlt : s.index < s.actor.logLength) (hdrop : data.drop s.index = r.encode ++ ys) :
    TDEventLogActor.processTurn data s =
      .next { index := s.index + r.encode.length
              actor := { s.actor with
                specidHeader := some (r.header (s.actor.logBase + s.index)) } } := by
  have hindex : s.index ≤ data.length := by
    by_contra hgt
    have hnil : data.drop s.index = [] := List.drop_eq_nil_of_le (by omega)
    have hpos := r.encode_pos
    rw [hdrop, List.append_eq_nil_iff] at hnil
    rw [hnil.1] at hpos
    exact absurd hpos (Nat.lt_irrefl _)
  have hdata : data = data.take s.index ++ (leBytes 4 r.registerIndex ++ (leBytes 4 EV_NO_ACTION ++
      (r.reserved ++ leBytes 4 r.algorithms.length ++ encodeAlgorithms r.algorithms ++
        leBytes 1 r.vendor.length ++ r.vendor ++ ys))) := by
    conv_lhs => rw [← List.take_append_drop s.index data, hdrop]
    simp only [SpecIdRecord.encode, List.append_assoc]
  have hpeek : TDEventLogActor.peek ⟨data, s.actor.logBase⟩ s.index =
      .ok (r.registerIndex, EV_NO_ACTION) :=
    peek_at _ _ _ hdata (List.length_take_of_le hindex).symm
      (Nat.lt_trans r.registerIndex_lt (by norm_num)) (by decide)
  have hparse := parse_specId ys r (s.actor.logBase + s.index)
  rw [← hdrop] at hparse
  exact TDEventLogActor.processTurn_header hlt (Nat.ne_of_lt r.registerIndex_lt) hpeek hparse

/-- A well-formed log. The bytes behind the last record start with eight
bytes 0xFF, or the log length ends the log there. -/
structure CcelLog where
  specId : SpecIdRecord
  records : List (AgileRecord specId.algorithms)
  rest : Bytes
  logLength : Nat
  length_le : specId.encode.length + (encodeRecords records).length ≤ logLength
  ends : logLength = specId.encode.length + (encodeRecords records).length ∨
    ∃ tail, rest = List.replicate 8 255 ++ tail

namespace CcelLog

def encode (log : CcelLog) : Bytes := log.specId.encode ++ encodeRecords log.records ++ log.rest

variable (log : CcelLog) (base : Nat)

def start : TDEventLogActor.ProcessState :=
  { index := 0
    actor := { TDEventLogActor.init base log.logLength with data := some log.encode } }

/-- The actor when some of the records have been taken. -/
def after (pre : List (AgileRecord log.specId.algorithms)) : TDEventLogActor.ProcessState :=
  { index := log.specId.encode.length + (encodeRecords pre).length
    actor := { TDEventLogActor.init base log.logLength with
      data := some log.encode
      specidHeader := some (log.specId.header base)
      eventLogs := entriesFrom (log.specId.header base) (base + log.specId.encode.length) pre } }

theorem takes_specId :
    TDEventLogActor.processTurn log.encode (log.start base) = .next (log.after base []) := by
  have hlen : 0 < log.specId.encode.length := log.specId.encode_pos
  have hlt : (log.start base).index < (log.start base).actor.logLength :=
    Nat.lt_of_lt_of_le (Nat.lt_of_lt_of_le hlen (Nat.le_add_right _ _)) log.length_le
  have hdrop : log.encode.drop (log.start base).index =
      log.specId.encode ++ (encodeRecords log.records ++ log.rest) := List.append_assoc _ _ _
  rw [turn_specId log.specId hlt hdrop]
  simp [start, after, TDEventLogActor.init, encodeRecords, entriesFrom, SpecIdRecord.header]

theorem takes_record (pre : List (AgileRecord log.specId.algorithms))
    (r : AgileRecord log.specId.algorithms) (post : List (AgileRecord log.specId.algorithms))
    (he : log.records = pre ++ r :: post) :
    TDEventLogActor.processTurn log.encode (log.after base pre) =
      .next (log.after base (pre ++ [r])) := by
  let front := log.specId.encode ++ encodeRecords pre
  let behind := encodeRecords post ++ log.rest
  have hdata : log.encode = front ++ (r.encode ++ behind) := by
    rw [encode, he]
    simp only [front, behind, encodeRecords, List.flatMap_append, List.flatMap_cons,
      List.append_assoc]
  have hfront : (log.after base pre).index = front.length := List.length_append.symm
  have hrecord : 0 < r.encode.length := by
    simp only [AgileRecord.encode, List.length_append, length_leBytes]
    omega
  have hlt : (log.after base pre).index < log.logLength := by
    have hle := log.length_le
    rw [he, encodeRecords, List.flatMap_append, List.flatMap_cons, List.length_append,
      List.length_append, ← encodeRecords] at hle
    dsimp only [after]
    omega
  have hpeek : TDEventLogActor.peek ⟨log.encode, base⟩ (log.after base pre).index =
      .ok (r.registerIndex, r.etype) :=
    peek_at base front _
      (by rw [hdata]; simp only [AgileRecord.encode, List.append_assoc]; rfl) hfront
      (Nat.lt_trans r.registerIndex_lt (by norm_num)) r.etype_lt
  have hdrop : log.encode.drop (log.after base pre).index = r.encode ++ behind := by
    rw [hfront, hdata, List.drop_left]
  have hparse := parse_agile behind (log.specId.header base) rfl log.specId.algorithms_nodup
    log.specId.algorithms_fit r (base + (log.after base pre).index)
  have hturn := TDEventLogActor.processTurn_entry hlt (Nat.ne_of_lt r.registerIndex_lt) r.etype_ne
    hpeek (hdrop ▸ hparse)
  rw [hturn]
  simp only [after, entriesFrom_concat, encodeRecords_concat, List.length_append, Nat.add_assoc]
  rfl

theorem stops :
    TDEventLogActor.processTurn log.encode (log.after base log.records) =
      .stop (log.after base log.records) := by
  have hindex : (log.after base log.records).index =
      (log.specId.encode ++ encodeRecords log.records).length := by
    rw [List.length_append]
    rfl
  have hlog : (log.after base log.records).actor.logLength = log.logLength := rfl
  unfold TDEventLogActor.processTurn
  split
  · next hlt =>
    have hrest : ∃ tail, log.rest = List.replicate 8 255 ++ tail := by
      rcases log.ends with heq | hff
      · rw [hindex, hlog, heq, List.length_append] at hlt
        omega
      · exact hff
    obtain ⟨tail, htail⟩ := hrest
    have hpeek : TDEventLogActor.peek ⟨log.encode, (log.after base log.records).actor.logBase⟩
        (log.after base log.records).index = .ok (0xffffffff, 0xffffffff) :=
      peek_at _ _ tail (by rw [encode, htail]; rfl) hindex (by norm_num) (by norm_num)
    rw [hpeek]
    rfl
  · rfl

theorem process_eq :
    TDEventLogActor.process (.content log.encode) (TDEventLogActor.init base log.logLength) =
      (.ok (), (log.after base log.records).actor) := by
  have hne : log.encode ≠ [] := by
    apply List.ne_nil_of_length_pos
    simp only [encode, SpecIdRecord.encode, List.length_append, length_leBytes]
    omega
  have hrun : (TDEventLogActor.processLoop log.encode).run (log.start base) =
      (.ok (), log.after base log.records) := by
    rw [Loop.run_next _ (log.takes_specId base),
      Loop.run_records _ (log.after base) log.records (log.takes_record base),
      Loop.run_stop _ (log.stops base)]
  refine (TDEventLogActor.process_unread rfl hne).trans ?_
  exact congrArg (fun r => (r.1, r.2.actor)) hrun

/-- Reading a well-formed log recovers its records. -/
theorem process_decodes :
    ∃ header actor,
      TDEventLogActor.process (.content log.encode) (TDEventLogActor.init base log.logLength) =
        (.ok (), actor) ∧
      actor.specidHeader = some header ∧ header.digestSizes = log.specId.algorithms ∧
      actor.eventLogs.map decoded = log.records.map AgileRecord.decoded :=
  ⟨log.specId.header base, (log.after base log.records).actor, log.process_eq base, rfl, rfl,
    map_decoded _ _ log.records⟩

end CcelLog

end Decoding

end TdxTools.Attestation.EventLogDecoding
