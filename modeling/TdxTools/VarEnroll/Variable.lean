import TdxTools.Python.Files
import TdxTools.VarEnroll.Guid

namespace TdxTools.VarEnroll.Variable

open Python.ByteString Python.Exec Python.Struct Python.Text Guid

/-- Every byte of the UTF-8 text is stored in two, and two zero bytes end it. -/
def str2blob (string : Str) : Bytes :=
  (encodeUtf8 string).flatMap (fun b => leBytes 2 b.toNat) ++ [0, 0]

/-- `(val + 3) & ~3`. -/
def alignBy4 (val : Nat) : Nat := (val + 3) / 4 * 4

theorem le_alignBy4 (n : Nat) : n ≤ alignBy4 n := by unfold alignBy4; omega

theorem alignBy4_mod (n : Nat) : alignBy4 n % 4 = 0 := by unfold alignBy4; omega

theorem alignBy4_add (n m : Nat) (h : n % 4 = 0) : alignBy4 (n + m) = n + alignBy4 m := by
  unfold alignBy4; omega

theorem asciiBytes_str2blob (s : Str) (h : Ascii s) : AsciiBytes (str2blob s) := by
  have hl : ∀ c ∈ s, ∀ x ∈ leBytes 2 (UInt8.ofNat c.toNat).toNat, x.toNat < 128 := by
    intro c hc x hx
    have h128 := h c hc
    have hn : (UInt8.ofNat c.toNat).toNat = c.toNat := by simp; omega
    simp only [hn, leBytes, List.mem_cons, List.not_mem_nil, or_false] at hx
    rcases hx with rfl | rfl <;> simp <;> omega
  intro x hx
  rw [str2blob, encodeUtf8_ascii s h, List.mem_append, List.mem_flatMap] at hx
  rcases hx with ⟨b, hb, hx⟩ | hx
  · obtain ⟨c, hc, rfl⟩ := List.mem_map.mp hb
    exact hl c hc x hx
  · simp only [List.mem_cons, List.not_mem_nil, or_false, or_self] at hx
    subst hx
    decide

theorem str2blob_injective {s t : Str} (hs : Ascii s) (ht : Ascii t)
    (h : str2blob s = str2blob t) : s = t := by
  rw [str2blob, str2blob, encodeUtf8_ascii s hs, encodeUtf8_ascii t ht] at h
  have h' := List.append_cancel_right h
  clear h
  induction s generalizing t with
  | nil =>
    cases t with
    | nil => rfl
    | cons d t => simp [leBytes] at h'
  | cons c s ih =>
    cases t with
    | nil => simp [leBytes] at h'
    | cons d t =>
      simp only [List.map_cons, List.flatMap_cons] at h'
      obtain ⟨hcd, hst⟩ := List.append_inj h' (by simp)
      have hc := hs c (by simp)
      have hd := ht d (by simp)
      have hn := congrArg leNat hcd
      rw [leNat_leBytes 2 _ (by simp; omega), leNat_leBytes 2 _ (by simp; omega)] at hn
      simp only [UInt8.toNat_ofNat'] at hn
      have hcd' : c = d := by
        apply Char.toNat_inj.mp
        omega
      rw [hcd', ih (fun x hx => hs x (by simp [hx])) (fun x hx => ht x (by simp [hx])) hst]

def timeFmt : List Fmt :=
  [.uint 2, .uint 1, .uint 1, .uint 1, .uint 1, .uint 1, .uint 1, .uint 4, .uint 2, .uint 1, .uint 1]

/-- EFI_TIME. Its fields always have the width they are stored in. -/
structure EfiTime where
  year : Nat := 0
  month : Nat := 0
  day : Nat := 0
  hour : Nat := 0
  minute : Nat := 0
  second : Nat := 0
  pad1 : Nat := 0
  nanosecond : Nat := 0
  timezone : Nat := 0
  daylight : Nat := 0
  pad2 : Nat := 0
  fits : Fits timeFmt (year, month, day, hour, minute, second, pad1, nanosecond, timezone,
    daylight, pad2, ())

namespace EfiTime

def vals (t : EfiTime) : Vals timeFmt :=
  (t.year, t.month, t.day, t.hour, t.minute, t.second, t.pad1, t.nanosecond, t.timezone,
    t.daylight, t.pad2, ())

def ofVals (v : Vals timeFmt) (h : Fits timeFmt v) : EfiTime :=
  { year := v.1, month := v.2.1, day := v.2.2.1, hour := v.2.2.2.1, minute := v.2.2.2.2.1
    second := v.2.2.2.2.2.1, pad1 := v.2.2.2.2.2.2.1, nanosecond := v.2.2.2.2.2.2.2.1
    timezone := v.2.2.2.2.2.2.2.2.1, daylight := v.2.2.2.2.2.2.2.2.2.1
    pad2 := v.2.2.2.2.2.2.2.2.2.2.1, fits := h }

/-- `EfiTime(data)`; `none` is the error of `struct.unpack`. -/
def parse (data : Bytes) : Option EfiTime :=
  match h : unpack timeFmt data with
  | none => none
  | some v => some (ofVals v (pack_unpack h).1)

/-- `EfiTime()`. -/
def zero : EfiTime := { fits := by simp [timeFmt, Fits, Fmt.Fits] }

def blob (t : EfiTime) : Bytes := (pack timeFmt t.vals).getD []

def now (curr : Python.Files.GmTime) : EfiTime :=
  { year := curr.tmYear.toNat, month := curr.tmMon.toNat, day := curr.tmMday.toNat
    hour := curr.tmHour.toNat, minute := curr.tmMin.toNat, second := curr.tmSec.toNat
    fits := by
      have byte : ∀ b : UInt8, b.toNat < 256 ^ 1 := fun b => by simpa using b.toNat_lt
      exact ⟨by simpa using curr.tmYear.toNat_lt, byte _, byte _, byte _, byte _, byte _,
        by norm_num, by norm_num, by norm_num, by norm_num, by norm_num, trivial⟩ }

@[simp] theorem length_blob (t : EfiTime) : t.blob.length = 16 := by
  obtain ⟨b, hb, hl, -⟩ := pack_of_fits timeFmt t.vals t.fits
  rw [blob, hb]
  exact hl

theorem blob_parse {data : Bytes} {t : EfiTime} (h : parse data = some t) : t.blob = data := by
  unfold parse at h
  split at h
  · cases h
  · next v hv =>
    cases h
    have hp := (pack_unpack hv).2
    have he : (ofVals v (pack_unpack hv).1).vals = v := rfl
    rw [blob, he, hp, Option.getD_some]

theorem parse_isSome (data : Bytes) (h : data.length = 16) : ∃ t, parse data = some t := by
  unfold parse
  split
  · next hn =>
    have hl : data.length = calcsize timeFmt := h
    rw [unpack, if_pos hl] at hn
    cases hn
  · exact ⟨_, rfl⟩

end EfiTime

/-- EFI_VARIABLE_AUTHENTICATION_2; `authinfo2Size` counts the time stamp too. -/
structure EfiVariableAuthentication2 where
  timeStamp : EfiTime
  authinfo2Size : Nat

/-- `none` is an object whose `valid` stays false. -/
def EfiVariableAuthentication2.init (data : Bytes) : Option EfiVariableAuthentication2 :=
  if data.length < 20 then none
  else (EfiTime.parse (slice data 0 16)).map fun timeStamp =>
    { timeStamp, authinfo2Size := leNat (slice data 16 20) + 16 }

def VAR_START_ID : Nat := 0x55aa
def VAR_ADDED : Nat := 0x3f
def HEADER_SIZE : Nat := 60

def headerFmt : List Fmt :=
  [.uint 2, .uint 1, .uint 1, .uint 4, .uint 8, .raw 16, .uint 4, .uint 4, .uint 4, .raw 16]

/-- VARIABLE_HEADER_TIME_BASED_AUTH as it lies in the store. -/
structure VariableHeader where
  startId : Nat
  state : Nat
  rsvd : Nat
  attributes : Nat
  count : Nat
  timeStampBlob : Bytes
  pkIndex : Nat
  nameSize : Nat
  dataSize : Nat
  vendorGuid : Bytes
  deriving DecidableEq, Repr

namespace VariableHeader

def vals (h : VariableHeader) : Vals headerFmt :=
  (h.startId, h.state, h.rsvd, h.attributes, h.count, h.timeStampBlob, h.pkIndex, h.nameSize,
    h.dataSize, h.vendorGuid, ())

def ofVals (v : Vals headerFmt) : VariableHeader :=
  ⟨v.1, v.2.1, v.2.2.1, v.2.2.2.1, v.2.2.2.2.1, v.2.2.2.2.2.1, v.2.2.2.2.2.2.1, v.2.2.2.2.2.2.2.1,
    v.2.2.2.2.2.2.2.2.1, v.2.2.2.2.2.2.2.2.2.1⟩

/-- `VariableTimeBasedAuth(data)`; `none` is an object whose `valid_header`
stays false because the data is too short. -/
def init (data : Bytes) : Option VariableHeader :=
  (unpack headerFmt (data.take HEADER_SIZE)).map ofVals

def fullSize (h : VariableHeader) : Nat := h.dataSize + h.nameSize + HEADER_SIZE

def vendorGuidStr (h : VariableHeader) : Str := guid2str h.vendorGuid

/-- Every field has the width it is stored in. -/
def InRange (h : VariableHeader) : Prop := Fits headerFmt h.vals

theorem init_pack (h : VariableHeader) (hr : h.InRange) :
    ∃ b, pack headerFmt h.vals = some b ∧ b.length = HEADER_SIZE ∧ init b = some h := by
  obtain ⟨b, hb, hl, hu⟩ := unpack_pack headerFmt h.vals hr
  refine ⟨b, hb, hl, ?_⟩
  have ht : b.take HEADER_SIZE = b := List.take_of_length_le (Nat.le_of_eq hl)
  rw [init, ht, hu]
  rfl

/-- Only the first 60 bytes are looked at. -/
theorem init_append {packed : Bytes} (h : packed.length = HEADER_SIZE) (rest : Bytes) :
    init (packed ++ rest) = init packed := by
  rw [init, init, List.take_left' h, List.take_of_length_le (Nat.le_of_eq h)]

theorem init_inRange {data : Bytes} {h : VariableHeader} (hi : init data = some h) :
    h.InRange := by
  obtain ⟨v, hv, rfl⟩ := Option.map_eq_some_iff.mp hi
  exact (pack_unpack hv).1

end VariableHeader

/-- A variable of the list: its header fields, the derived ones, and the body. -/
structure VariableTimeBasedAuth where
  startId : Nat := 0x55aa
  state : Nat := 0x3f
  rsvd : Nat := 0
  attributes : Int
  count : Nat := 0
  timeStampBlob : Bytes
  pkIndex : Nat := 0
  nameSize : Nat
  dataSize : Int
  vendorGuid : Bytes
  fullSize : Int
  vendorGuidStr : Str
  name : Str
  nameBlob : Bytes
  data : Bytes
  deriving DecidableEq, Repr

namespace VariableTimeBasedAuth

def parseBody (h : VariableHeader) (rawData : Bytes) : Outcome VariableTimeBasedAuth :=
  if rawData = [] then .raised (.exception "Invalid header or raw_data".toList)
  else do
    let nameBlob := slice rawData HEADER_SIZE (HEADER_SIZE + h.nameSize)
    let name ← .ofOption .unicodeDecodeError (decodeUtf8 nameBlob)
    .ok { startId := h.startId, state := h.state, rsvd := h.rsvd, attributes := h.attributes
          count := h.count, timeStampBlob := h.timeStampBlob, pkIndex := h.pkIndex
          nameSize := h.nameSize, dataSize := h.dataSize, vendorGuid := h.vendorGuid
          fullSize := h.fullSize, vendorGuidStr := h.vendorGuidStr
          name, nameBlob, data := rawData.drop (HEADER_SIZE + h.nameSize) }

/-- `self.full_size` is brought up to date only when data is appended. -/
def update (self : VariableTimeBasedAuth) (attributes : Int) (timeStamp : EfiTime)
    (buffer : Bytes) (size : Int) (append : Bool) : VariableTimeBasedAuth :=
  let self := { self with attributes, timeStampBlob := timeStamp.blob }
  if append then
    { self with data := self.data ++ buffer, dataSize := self.dataSize + size
                fullSize := self.dataSize + size + self.nameSize + HEADER_SIZE }
  else
    { self with data := buffer, dataSize := size }

/-- A number packed into an unsigned field: a negative one is `struct.error`. -/
def unsigned (v : Int) : Outcome Nat :=
  if 0 ≤ v then .ok v.toNat else .raised .structError

def blob (self : VariableTimeBasedAuth) : Outcome Bytes := do
  let attributes ← unsigned self.attributes
  let dataSize ← unsigned self.dataSize
  let header ← .ofOption .structError (pack headerFmt
    (self.startId, self.state, self.rsvd, attributes, self.count, self.timeStampBlob,
      self.pkIndex, self.nameSize, dataSize, self.vendorGuid, ()))
  .ok (header ++ self.nameBlob ++ self.data)

theorem unsigned_eq_ok {v : Int} {n : Nat} (h : unsigned v = .ok n) : v = n := by
  unfold unsigned at h
  split at h
  · next hge =>
    cases h
    exact (Int.toNat_of_nonneg hge).symm
  · cases h

theorem unsigned_ok {v : Int} (h : 0 ≤ v) : unsigned v = .ok v.toNat := if_pos h

/-- The numbers that an operation gives a variable go into its header. -/
def Numbers (attributes dataSize : Int) : Prop :=
  (0 ≤ attributes ∧ attributes < 2 ^ 32) ∧ 0 ≤ dataSize ∧ dataSize < 2 ^ 32

/-- Every number of the variable goes into its field of the header. -/
structure InFields (v : VariableTimeBasedAuth) : Prop where
  startId_lt : v.startId < 2 ^ 16
  state_lt : v.state < 2 ^ 8
  rsvd_lt : v.rsvd < 2 ^ 8
  count_lt : v.count < 2 ^ 64
  pkIndex_lt : v.pkIndex < 2 ^ 32
  nameSize_lt : v.nameSize < 2 ^ 32
  numbers : Numbers v.attributes v.dataSize

/-- Packing succeeds just on numbers that have the width of their fields. -/
theorem blob_iff {v : VariableTimeBasedAuth} : (∃ b, v.blob = .ok b) ↔ InFields v := by
  constructor
  · rintro ⟨b, hb⟩
    obtain ⟨a, ha, hb⟩ := Outcome.bind_eq_ok.mp hb
    obtain ⟨d, hd, hb⟩ := Outcome.bind_eq_ok.mp hb
    obtain ⟨header, hheader, -⟩ := Outcome.bind_eq_ok.mp hb
    obtain ⟨hstart, hstate, hrsvd, hattr, hcount, hpk, hname, hdata, -⟩ :=
      inWidth_of_pack _ _ _ (Outcome.ofOption_eq_ok.mp hheader)
    have hattributes := unsigned_eq_ok ha
    have hdataSize := unsigned_eq_ok hd
    norm_num at hstart hstate hrsvd hattr hcount hpk hname hdata
    have hattr : a < 2 ^ 32 := hattr
    have hdata : d < 2 ^ 32 := hdata
    refine ⟨hstart, hstate, hrsvd, hcount, hpk, hname, ⟨?_, ?_⟩, ?_, ?_⟩ <;> omega
  · intro h
    obtain ⟨⟨hage, halt⟩, hdge, hdlt⟩ := h.numbers
    have hwidth : InWidth headerFmt (v.startId, v.state, v.rsvd, v.attributes.toNat, v.count,
        v.timeStampBlob, v.pkIndex, v.nameSize, v.dataSize.toNat, v.vendorGuid, ()) := by
      refine ⟨h.startId_lt, h.state_lt, h.rsvd_lt, ?_, h.count_lt, h.pkIndex_lt, h.nameSize_lt,
        ?_, trivial⟩ <;> norm_num <;> omega
    obtain ⟨header, hheader⟩ := pack_of_inWidth _ _ hwidth
    refine ⟨header ++ v.nameBlob ++ v.data, ?_⟩
    rw [blob, unsigned_ok hage, unsigned_ok hdge, Outcome.ok_bind,
      Outcome.ok_bind, hheader]
    rfl

/-- A header in front of the name and the data: its numbers are those of the
variable, its byte strings are cut or filled up. -/
theorem header_of_blob {v : VariableTimeBasedAuth} {b : Bytes} (h : v.blob = .ok b) :
    ∃ packed header, b = packed ++ (v.nameBlob ++ v.data) ∧ packed.length = HEADER_SIZE ∧
      VariableHeader.init packed = some header ∧ header.startId = v.startId ∧
      header.state = v.state ∧ header.nameSize = v.nameSize ∧ (header.dataSize : Int) = v.dataSize ∧
      header.vendorGuid = Fmt.stored (.raw 16) v.vendorGuid := by
  obtain ⟨a, -, h⟩ := Outcome.bind_eq_ok.mp h
  obtain ⟨d, hd, h⟩ := Outcome.bind_eq_ok.mp h
  obtain ⟨packed, hp, h⟩ := Outcome.bind_eq_ok.mp h
  have hpack := Outcome.ofOption_eq_ok.mp hp
  have hlen : packed.length = HEADER_SIZE := length_pack _ _ _ hpack
  have hinit : VariableHeader.init packed = some (VariableHeader.ofVals (stored headerFmt (v.startId,
      v.state, v.rsvd, a, v.count, v.timeStampBlob, v.pkIndex, v.nameSize, d, v.vendorGuid, ()))) := by
    rw [VariableHeader.init, List.take_of_length_le (Nat.le_of_eq hlen), unpack_of_pack hpack]
    rfl
  cases h
  exact ⟨packed, _, List.append_assoc _ _ _, hlen, hinit, rfl, rfl, rfl, (unsigned_eq_ok hd).symm, rfl⟩

theorem blob_length {v : VariableTimeBasedAuth} {b : Bytes} (h : v.blob = .ok b) :
    b.length = HEADER_SIZE + v.nameBlob.length + v.data.length := by
  obtain ⟨packed, -, rfl, hlen, -⟩ := header_of_blob h
  rw [List.length_append, List.length_append, hlen, Nat.add_assoc]

end VariableTimeBasedAuth

end TdxTools.VarEnroll.Variable
