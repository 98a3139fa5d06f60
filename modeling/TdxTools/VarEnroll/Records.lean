import TdxTools.VarEnroll.Store

namespace TdxTools.VarEnroll.Records

open Python.ByteString Python.Exec Python.Struct Python.Text
open Guid Variable Store

/-- A record of the variable region in any state, with the bytes that fill it
up to a multiple of four. -/
structure StoredRecord where
  header : VariableHeader
  name : Bytes
  data : Bytes
  pad : Bytes
  inRange : header.InRange
  startId_eq : header.startId = VAR_START_ID
  nameSize_eq : header.nameSize = name.length
  dataSize_eq : header.dataSize = data.length
  pad_length : pad.length = alignBy4 header.fullSize - header.fullSize
  ascii : header.state = VAR_ADDED → AsciiBytes name

namespace StoredRecord

def live (r : StoredRecord) : Bool := r.header.state == VAR_ADDED

def headerBytes (r : StoredRecord) : Bytes := (pack headerFmt r.header.vals).getD []

def body (r : StoredRecord) : Bytes := r.headerBytes ++ r.name ++ r.data

def encode (r : StoredRecord) : Bytes := r.body ++ r.pad

/-- The variable a live record stands for. -/
def toVariable (r : StoredRecord) : VariableTimeBasedAuth :=
  { startId := r.header.startId, state := r.header.state, rsvd := r.header.rsvd
    attributes := r.header.attributes, count := r.header.count
    timeStampBlob := r.header.timeStampBlob, pkIndex := r.header.pkIndex
    nameSize := r.header.nameSize, dataSize := r.header.dataSize
    vendorGuid := r.header.vendorGuid, fullSize := r.header.fullSize
    vendorGuidStr := r.header.vendorGuidStr, name := r.name.map (fun x => Char.ofNat x.toNat)
    nameBlob := r.name, data := r.data }

theorem pack_header (r : StoredRecord) : pack headerFmt r.header.vals = some r.headerBytes ∧
    r.headerBytes.length = HEADER_SIZE ∧ VariableHeader.init r.headerBytes = some r.header := by
  obtain ⟨b, hb, hl, hi⟩ := r.header.init_pack r.inRange
  have he : r.headerBytes = b := by rw [headerBytes, hb, Option.getD_some]
  exact ⟨he ▸ hb, he ▸ hl, he ▸ hi⟩

@[simp] theorem length_headerBytes (r : StoredRecord) : r.headerBytes.length = HEADER_SIZE :=
  r.pack_header.2.1

@[simp] theorem length_body (r : StoredRecord) : r.body.length = r.header.fullSize := by
  simp only [body, List.length_append, length_headerBytes, VariableHeader.fullSize, r.nameSize_eq,
    r.dataSize_eq]
  omega

@[simp] theorem length_encode (r : StoredRecord) :
    r.encode.length = alignBy4 r.header.fullSize := by
  have hle := le_alignBy4 r.header.fullSize
  simp only [encode, List.length_append, length_body, r.pad_length]
  omega

theorem unpack_startId (r : StoredRecord) :
    unpack [.uint 2] (r.headerBytes.take 2) = some (VAR_START_ID, ()) := by
  have hl : (r.headerBytes.take 2).length = calcsize [.uint 2] := by
    simp [HEADER_SIZE, Fmt.size]
  have hs : leNat (r.headerBytes.take 2) = VAR_START_ID := by
    obtain ⟨v, hv, hh⟩ := Option.map_eq_some_iff.mp r.pack_header.2.2
    have hd := (unpack_eq_some hv).2
    rw [List.take_of_length_le (Nat.le_of_eq r.length_headerBytes)] at hd
    rw [← r.startId_eq, ← hh, ← hd]
    rfl
  rw [unpack, if_pos hl, decode, decode]
  simp only [Fmt.decode, Fmt.size, List.take_take, Nat.min_self, hs]

theorem parseBody_body (r : StoredRecord) (h : r.live = true) :
    VariableTimeBasedAuth.parseBody r.header r.body = .ok r.toVariable := by
  have hne : r.body ≠ [] := by
    intro he
    have hl := r.length_body
    rw [he, VariableHeader.fullSize, HEADER_SIZE, List.length_nil] at hl
    omega
  have hn : slice r.body HEADER_SIZE (HEADER_SIZE + r.header.nameSize) = r.name := by
    have hp := slice_piece r.headerBytes r.name r.data
    rw [r.length_headerBytes, ← r.nameSize_eq, ← List.append_assoc] at hp
    exact hp
  have hd : r.body.drop (HEADER_SIZE + r.header.nameSize) = r.data := by
    rw [body, List.drop_left' (by simp [r.nameSize_eq])]
  have ha := r.ascii (by simpa [live] using h)
  simp only [VariableTimeBasedAuth.parseBody, if_neg hne, hn, hd, decodeUtf8_ascii _ ha,
    Outcome.ofOption_some, Outcome.ok_bind, toVariable]

end StoredRecord

def encodeAll (rs : List StoredRecord) : Bytes := rs.flatMap StoredRecord.encode

def liveVars (rs : List StoredRecord) : List VariableTimeBasedAuth :=
  (rs.filter StoredRecord.live).map StoredRecord.toVariable

theorem length_encodeAll_mod (rs : List StoredRecord) : (encodeAll rs).length % 4 = 0 := by
  induction rs with
  | nil => rfl
  | cons r rs ih =>
    have hr := alignBy4_mod r.header.fullSize
    rw [encodeAll, List.flatMap_cons, List.length_append, r.length_encode, ← encodeAll]
    omega

theorem encodeAll_append (rs ts : List StoredRecord) :
    encodeAll (rs ++ ts) = encodeAll rs ++ encodeAll ts := List.flatMap_append

section Reading

variable (self : VariableStore) (rs : List StoredRecord) (k : Nat)

/-- The region holds the records `rs` and then only bytes 0xff. -/
def Holds : Prop :=
  self.size % 4 = 0 ∧ VariableStore.headerSize ≤ self.size ∧ self.size ≤ self.rawData.length ∧
    slice self.rawData VariableStore.headerSize self.size = encodeAll rs ++ List.replicate k 0xff

def afterRecords (vars : List VariableTimeBasedAuth) (pre : List StoredRecord) :
    VariableStore.ReadState :=
  { begin := VariableStore.headerSize + (encodeAll pre).length, vars := vars ++ liveVars pre }

variable {self rs k}

theorem Holds.size_eq (h : Holds self rs k) :
    self.size = VariableStore.headerSize + (encodeAll rs).length + k := by
  obtain ⟨-, hge, hle, hs⟩ := h
  have hl := congrArg List.length hs
  rw [length_slice, List.length_append, List.length_replicate] at hl
  omega

theorem Holds.rawData_eq (h : Holds self rs k) : ∃ header rest,
    header.length = VariableStore.headerSize ∧
      self.rawData = header ++ (encodeAll rs ++ (List.replicate k 0xff ++ rest)) := by
  obtain ⟨-, hge, hle, hs⟩ := h
  refine ⟨self.rawData.take VariableStore.headerSize, self.rawData.drop self.size, ?_, ?_⟩
  · rw [List.length_take]
    omega
  · rw [← List.append_assoc (encodeAll rs), ← hs, slice]
    have ht : (self.rawData.take self.size).take VariableStore.headerSize =
        self.rawData.take VariableStore.headerSize := by
      rw [List.take_take, Nat.min_eq_left hge]
    rw [← ht, ← List.append_assoc, List.take_append_drop, List.take_append_drop]

/-- The reader takes one whole record, whatever state it is in. -/
theorem readTurn_record (h : Holds self rs k) (vars : List VariableTimeBasedAuth)
    (pre : List StoredRecord) (r : StoredRecord) (post : List StoredRecord)
    (hrs : rs = pre ++ r :: post) :
    self.readTurn (afterRecords vars pre) = .next (afterRecords vars (pre ++ [r])) := by
  obtain ⟨header, rest, hh, hraw⟩ := h.rawData_eq
  let done := header ++ encodeAll pre
  let tail := r.pad ++ (encodeAll post ++ (List.replicate k 0xff ++ rest))
  have hsplit : self.rawData = done ++ (r.body ++ tail) := by
    rw [hraw, hrs, encodeAll_append]
    simp only [done, tail, encodeAll, List.flatMap_cons, StoredRecord.encode, List.append_assoc]
  have hdone : done.length = VariableStore.headerSize + (encodeAll pre).length := by
    simp only [done, List.length_append, hh]
  have hpart : ∀ n ≤ r.header.fullSize,
      slice self.rawData done.length (done.length + n) = r.body.take n := by
    intro n hn
    rw [hsplit, slice_eq_drop_take, List.drop_left,
      List.take_append_of_le_length (by rwa [r.length_body])]
  have hfull : HEADER_SIZE ≤ r.header.fullSize := by rw [VariableHeader.fullSize]; omega
  have hhead : r.body.take HEADER_SIZE = r.headerBytes := by
    rw [StoredRecord.body, List.append_assoc, List.take_left' r.length_headerBytes]
  have htwo : slice self.rawData done.length (done.length + 2) = r.headerBytes.take 2 := by
    rw [hpart 2 (Nat.le_trans (by decide) hfull), ← hhead, List.take_take,
      Nat.min_eq_left (by decide)]
  have hbody : slice self.rawData done.length (done.length + r.header.fullSize) = r.body := by
    rw [hpart _ (Nat.le_refl _), List.take_of_length_le (by simp)]
  have hlt : done.length < self.size := by
    rw [hdone, h.size_eq, hrs, encodeAll_append, List.length_append]
    have hr := le_alignBy4 r.header.fullSize
    simp only [encodeAll, List.flatMap_cons, List.length_append, r.length_encode, HEADER_SIZE] at *
    omega
  have hmod : done.length % 4 = 0 := by
    have := length_encodeAll_mod pre
    rw [hdone, VariableStore.headerSize]
    omega
  have hbegin : alignBy4 (done.length + r.header.fullSize) =
      VariableStore.headerSize + (encodeAll (pre ++ [r])).length := by
    rw [alignBy4_add _ _ hmod, hdone, encodeAll_append, List.length_append]
    simp only [encodeAll, List.flatMap_cons, List.flatMap_nil, List.append_nil, r.length_encode,
      Nat.add_assoc]
  have hlive : liveVars (pre ++ [r]) =
      liveVars pre ++ if r.live then [r.toVariable] else [] := by
    rw [liveVars, List.filter_append, List.map_append]
    cases hl : r.live <;> simp [liveVars, hl]
  have hsig : unpack [.uint 2] (slice self.rawData done.length (done.length + 2)) =
      some (VAR_START_ID, ()) := by rw [htwo, r.unpack_startId]
  have hheader : VariableHeader.init
      (slice self.rawData done.length (done.length + HEADER_SIZE)) = some r.header := by
    rw [hpart _ hfull, hhead, r.pack_header.2.2]
  rw [afterRecords, afterRecords, ← hdone, ← hbegin, hlive]
  cases hl : r.live with
  | false =>
    have hs : r.header.state ≠ VAR_ADDED := by simpa [StoredRecord.live] using hl
    rw [VariableStore.readTurn_dead hlt hsig hheader hs]
    simp
  | true =>
    have hs : r.header.state = VAR_ADDED := by simpa [StoredRecord.live] using hl
    have hparse := r.parseBody_body hl
    rw [← hbody] at hparse
    rw [VariableStore.readTurn_live hlt hsig hheader hs hparse]
    simp

/-- Behind the last record the reader stops: the region is at its end, or two
bytes 0xff come next. -/
theorem readTurn_end (h : Holds self rs k) (vars : List VariableTimeBasedAuth) :
    self.readTurn (afterRecords vars rs) = .stop (afterRecords vars rs) := by
  obtain ⟨header, rest, hh, hraw⟩ := h.rawData_eq
  have hsize := h.size_eq
  have hbegin : (afterRecords vars rs).begin =
      VariableStore.headerSize + (encodeAll rs).length := rfl
  rcases Nat.lt_or_ge (afterRecords vars rs).begin self.size with hlt | hge
  · have hk : k % 4 = 0 := by
      have h4 := h.1
      have he := length_encodeAll_mod rs
      simp only [VariableStore.headerSize] at hsize
      omega
    have hsplit : self.rawData = (header ++ encodeAll rs) ++ (List.replicate k 0xff ++ rest) := by
      rw [hraw, List.append_assoc]
    have hlen : (header ++ encodeAll rs).length = (afterRecords vars rs).begin := by
      rw [List.length_append, hh, hbegin]
    have htwo : slice self.rawData (afterRecords vars rs).begin ((afterRecords vars rs).begin + 2) =
        List.replicate 2 0xff := by
      rw [hsplit, ← hlen, slice_eq_drop_take, List.drop_left,
        List.take_append_of_le_length (by simp; omega), List.take_replicate, Nat.min_eq_left (by omega)]
    have hsig : unpack [.uint 2] (slice self.rawData (afterRecords vars rs).begin
        ((afterRecords vars rs).begin + 2)) = some (0xffff, ()) := by
      rw [htwo]
      rfl
    exact VariableStore.readTurn_foreign hlt hsig (by decide)
  · exact VariableStore.readTurn_past hge

theorem syncToVarsList_eq (h : Holds self rs k) :
    self.syncToVarsList = .ok { self with
      varsList := self.varsList ++ liveVars rs, varsSize := (encodeAll rs).length } := by
  have hrun : self.readLoop.run { begin := VariableStore.headerSize, vars := self.varsList } =
      (.ok (), afterRecords self.varsList rs) := by
    have hstart : ({ begin := VariableStore.headerSize, vars := self.varsList } :
        VariableStore.ReadState) = afterRecords self.varsList [] := by
      simp [afterRecords, encodeAll, liveVars]
    rw [hstart, self.readLoop.run_records (afterRecords self.varsList) rs
      (fun pre r post hrs => readTurn_record h self.varsList pre r post hrs)]
    exact self.readLoop.run_stop (readTurn_end h self.varsList)
  rw [VariableStore.syncToVarsList, hrun]
  simp [afterRecords]

end Reading

end TdxTools.VarEnroll.Records
