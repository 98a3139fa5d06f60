import TdxTools.Attestation.DumpReading

namespace TdxTools.Attestation.DumpedLog

open Python.ByteString Python.Text Python.Exec Python.Dictionary Blob
open EventLog Actor EventLogDecoding LogScan LogRecords NoAction HexDump LogDump DumpReading
open TDEventLogActor

/-- The event records behind a position, with their places. -/
def placed (position : Nat) : List EventRecord → List (Nat × EventRecord)
  | [] => []
  | r :: records =>
    if r.etype = EV_NO_ACTION then placed (position + r.encode.length) records
    else (position, r) :: placed (position + r.encode.length) records

theorem placed_concat (position : Nat) (pre : List EventRecord) (r : EventRecord) :
    placed position (pre ++ [r]) = placed position pre ++
      if r.etype = EV_NO_ACTION then [] else [(position + (encodeEvents pre).length, r)] := by
  induction pre generalizing position with
  | nil => simp [placed, encodeEvents]
  | cons q pre ih =>
    have hlen : (encodeEvents (q :: pre)).length = q.encode.length + (encodeEvents pre).length := by
      simp [encodeEvents]
    by_cases hq : q.etype = EV_NO_ACTION
    · rw [List.cons_append, placed, placed, if_pos hq, if_pos hq, ih, hlen, Nat.add_assoc]
    · rw [List.cons_append, placed, placed, if_neg hq, if_neg hq, ih, hlen, Nat.add_assoc,
        List.cons_append]

section Parsed

variable (log : RecordLog) (base : Nat)

/-- What the dump uses of an entry. -/
def EntryAt (e : TDEventLogEntry) (p : Nat × EventRecord) : Prop :=
  e.address = base + p.1 ∧ e.length = p.2.encode.length ∧ e.data = some p.2.encode ∧
    ∀ d ∈ e.digests, d ≠ []

/-- The state behind some of the records: the entries of the event records at
their places, and the last EV_NO_ACTION record as the header. -/
structure Parsed (pre : List EventRecord) (s : ProcessState) : Prop where
  logBase : s.actor.logBase = base
  entries : List.Forall₂ (EntryAt base) s.actor.eventLogs (placed log.specId.encode.length pre)
  header : ∃ header data, s.actor.specidHeader = some header ∧ header.data = some data ∧ data ≠ [] ∧
    ((∀ r ∈ pre, r.etype ≠ EV_NO_ACTION) → header = log.specId.header base) ∧
    ((∃ r ∈ pre, r.etype = EV_NO_ACTION) → base < header.address)

variable {log base}

theorem encode_ne (r : EventRecord) : r.encode ≠ [] := by
  obtain ⟨h16, -⟩ := fields_of_record (List.prefix_refl r.encode)
  intro hnil
  rw [hnil] at h16
  exact absurd h16 (by decide)

theorem exists_of_mem_left {α β : Type} {R : α → β → Prop} {xs : List α} {ys : List β}
    (h : List.Forall₂ R xs ys) {x : α} (hx : x ∈ xs) : ∃ y, R x y := by
  induction h with
  | nil => cases hx
  | cons hhead _ ih =>
    rcases List.mem_cons.mp hx with rfl | hx
    · exact ⟨_, hhead⟩
    · exact ih hx

theorem parsed_after (h : Harmless log) (pre post : List EventRecord)
    (he : log.records = pre ++ post) : Parsed log base pre (after log base pre) := by
  induction pre using List.reverseRecOn generalizing post with
  | nil =>
    refine ⟨rfl, .nil, log.specId.header base, log.specId.encode, rfl, rfl, ?_, fun _ => rfl, ?_⟩
    · exact List.length_pos_iff.mp log.specId.encode_pos
    · rintro ⟨r, hr, -⟩
      cases hr
  | append_singleton pre r ih =>
    have he' : log.records = pre ++ r :: post := by
      rw [he, List.append_assoc, List.singleton_append]
    obtain ⟨hbase, hentries, header, data, hheader, hdata, hne, hfirst, hlater⟩ := ih _ he'
    have hindex := (stands_after base h pre _ he').index
    have hmem := RecordLog.mem_records he'
    rw [after_concat, taken]
    by_cases htype : r.etype = EV_NO_ACTION
    · have hpos : 0 < (after log base pre).index := by
        rw [hindex]
        exact Nat.lt_of_lt_of_le log.specId.encode_pos (Nat.le_add_right _ _)
      obtain ⟨rest, hrest⟩ := RecordLog.record_stands he'
      have hlength := ((h r hmem).1 htype).2.1
      have hplaced := placed_concat log.specId.encode.length pre r
      rw [if_pos htype, List.append_nil] at hplaced
      rw [if_pos htype]
      refine ⟨hbase, by rw [hplaced]; exact hentries, _, _, rfl, rfl, ?_, ?_, ?_⟩
      · intro hnil
        rw [hindex, ← hrest, List.take_eq_nil_iff] at hnil
        rcases hnil with hzero | hnil
        · have hfits := ((h r hmem).1 htype).1
          have hfront := specIdLength_front (r.encode.prefix_append rest) hfits
          rw [hfront, hlength] at hzero
          exact encode_ne r (List.length_eq_zero_iff.mp hzero)
        · exact encode_ne r (List.append_eq_nil_iff.mp hnil).1
      · intro hnone
        exact absurd htype (hnone r (by simp))
      · intro _
        dsimp only [specIdHeader]
        rw [hbase]
        omega
    · have hplaced := placed_concat log.specId.encode.length pre r
      rw [if_neg htype] at hplaced
      have hentry : EntryAt base (r.entry (after log base pre).actor.specidHeader
          ((after log base pre).actor.logBase + (after log base pre).index))
          (log.specId.encode.length + (encodeEvents pre).length, r) := by
        refine ⟨?_, rfl, rfl, ?_⟩
        · dsimp only [EventRecord.entry]
          rw [hbase, hindex, RecordLog.position]
        · intro d hd
          obtain ⟨q, hq, rfl⟩ := List.mem_map.mp hd
          exact digests_ne hmem q hq
      rw [if_neg htype]
      refine ⟨hbase, by rw [hplaced]; exact List.rel_append hentries (.cons hentry .nil), header, data,
        hheader, hdata, hne, ?_, ?_⟩
      · exact fun hnone => hfirst fun q hq => hnone q (by simp [hq])
      · rintro ⟨q, hq, hqtype⟩
        rcases List.mem_append.mp hq with hq | hq
        · exact hlater ⟨q, hq, hqtype⟩
        · rw [List.mem_singleton.mp hq] at hqtype
          exact absurd hqtype htype

end Parsed

section Told

/-- What the sections of the entries tell; the place of a heading is counted. -/
def entriesTold (base : Nat) : Nat → List (Nat × EventRecord) → List Told
  | _, [] => []
  | start, p :: places => ⟨some (base + start), some (base + p.1), some p.2.encode⟩ ::
      entriesTold base (start + p.2.encode.length) places

variable {base : Nat}

theorem readable_entry (count address : Nat) {e : TDEventLogEntry} {p : Nat × EventRecord}
    (h : EntryAt base e p) : Readable (entrySection count address e) := by
  obtain ⟨-, -, hdata, -⟩ := h
  refine ⟨rfl, plain_entryText e, ?_, ?_⟩
  · rw [entrySection, hdata]
    exact encode_ne p.2
  · intro l hl
    rw [List.mem_singleton.mp hl]
    exact plain_of_take (by decide) (by decide)

theorem told_entries (count start : Nat) {eventLogs : List TDEventLogEntry}
    {places : List (Nat × EventRecord)} (h : List.Forall₂ (EntryAt base) eventLogs places) :
    (∀ s ∈ entrySections base count start eventLogs, Readable s) ∧
      (entrySections base count start eventLogs).map
        (fun s => (⟨headingAddress s.title, some s.address, some s.data⟩ : Told)) =
          entriesTold base start places := by
  induction h generalizing count start with
  | nil => exact ⟨by simp [entrySections], rfl⟩
  | @cons e p eventLogs places hhead _ ih =>
    obtain ⟨hread, htold⟩ := ih (count + 1) (start + e.length)
    have hhere := readable_entry count (base + start) hhead
    obtain ⟨haddress, hlength, hdata, -⟩ := hhead
    constructor
    · intro s hs
      rcases List.mem_cons.mp hs with rfl | hs
      · exact hhere
      · exact hread s hs
    · rw [entrySections, List.map_cons, htold, entriesTold, hlength]
      simp only [entrySection, headingAddress_heading, haddress, hdata, Option.getD_some]

theorem readable_header {header : TDEventLogSpecIdHeader} {data : Bytes}
    (hdata : header.data = some data) (hne : data ≠ []) : Readable (headerSection base header) := by
  refine ⟨rfl, plain_headerText header, ?_, by simp [headerSection]⟩
  rw [headerSection, hdata]
  exact hne

variable {log : RecordLog}

/-- Reading a dump tells the last EV_NO_ACTION record and all event records, each
with its bytes and its place. -/
theorem dump_told (h : Harmless log) (base : Nat) : ∃ s header data,
    dumpTdEventLogs (.content log.encode) ⟨init base log.logLength, []⟩ = (.ok (), s) ∧
    header.data = some data ∧
    ((∀ r ∈ log.records, r.etype ≠ EV_NO_ACTION) → header = log.specId.header base) ∧
    ((∃ r ∈ log.records, r.etype = EV_NO_ACTION) → base < header.address) ∧
    readDump s.log = ⟨some base, some header.address, some data⟩ ::
      entriesTold base header.length (placed log.specId.encode.length log.records) := by
  have hreturns := (recovery_of_harmless base h).returns
  have hparsed : Parsed log base log.records (after log base log.records) :=
    parsed_after h log.records [] (List.append_nil _).symm
  obtain ⟨hbase, hentries, header, data, hheader, hdata, hne, hfirst, hlater⟩ := hparsed
  have hwhole : ∀ e ∈ (after log base log.records).actor.eventLogs, Whole e := by
    intro e he
    obtain ⟨p, -, -, hdata, hdigests⟩ := exists_of_mem_left hentries he
    exact ⟨p.2.encode, hdata, encode_ne p.2, hdigests⟩
  refine ⟨_, header, data, dump_sections [] hreturns hheader hdata hne hwhole, hdata, hfirst, hlater,
    ?_⟩
  obtain ⟨hread, htold⟩ := told_entries 1 (0 + header.length) hentries
  have hall : ∀ s ∈ dumpSections (after log base log.records).actor header, Readable s := by
    intro s hs
    rw [dumpSections, hbase] at hs
    rcases List.mem_cons.mp hs with rfl | hs
    · exact readable_header hdata hne
    · exact hread s hs
  rw [List.nil_append, readDump_lines hall, dumpSections, hbase, List.map_cons, htold, headerSection,
    hdata, Nat.zero_add]
  dsimp only
  rw [headingAddress_heading]
  rfl

end Told

section Places

theorem placed_of_events {records : List EventRecord} (h : ∀ r ∈ records, r.etype ≠ EV_NO_ACTION)
    (base position : Nat) :
    entriesTold base position (placed position records) =
        (placed position records).map (fun p => ⟨some (base + p.1), some (base + p.1), some p.2.encode⟩) ∧
      (placed position records).flatMap (fun p => p.2.encode) = encodeEvents records ∧
      (placed position records).map Prod.snd = records := by
  induction records generalizing position with
  | nil => exact ⟨rfl, rfl, rfl⟩
  | cons r records ih =>
    obtain ⟨htold, hdata, hrecords⟩ := ih (fun q hq => h q (List.mem_cons_of_mem _ hq))
      (position + r.encode.length)
    rw [placed, if_neg (h r List.mem_cons_self)]
    refine ⟨?_, ?_, ?_⟩
    · rw [entriesTold, htold, List.map_cons]
    · rw [List.flatMap_cons, hdata, encodeEvents, encodeEvents, List.flatMap_cons]
    · rw [List.map_cons, hrecords]

/-- A record stands at its place in the log. -/
theorem placed_stands {log : RecordLog} (pre post : List EventRecord) (he : log.records = pre ++ post) :
    ∀ p ∈ placed (log.position pre) post, p.2.encode <+: log.encode.drop p.1 := by
  induction post generalizing pre with
  | nil => simp [placed]
  | cons r post ih =>
    have hrest := ih (pre ++ [r]) (by rw [he, List.append_assoc, List.singleton_append])
    rw [log.position_concat] at hrest
    intro p hp
    rw [placed] at hp
    split at hp
    · exact hrest p hp
    · rcases List.mem_cons.mp hp with rfl | hp
      · exact RecordLog.record_stands he
      · exact hrest p hp

end Places

/-- A log without further EV_NO_ACTION records is read back from its dump: there
is a section for each record in order, its raw data are the record, its heading and
its raw data have the address where these bytes stand in the log, and all raw data
together are the records. -/
theorem dump_reads_back (log : RecordLog)
    (h : ∀ r ∈ log.records, r.etype ≠ EV_NO_ACTION ∧ r.event ≠ []) (base : Nat) : ∃ s,
    dumpTdEventLogs (.content log.encode) ⟨init base log.logLength, []⟩ = (.ok (), s) ∧
      (readDump s.log).map Told.data =
        some log.specId.encode :: log.records.map (fun r => some r.encode) ∧
      (∀ t ∈ readDump s.log, ∃ place data,
        t = ⟨some (base + place), some (base + place), some data⟩ ∧ data <+: log.encode.drop place) ∧
      (readDump s.log).flatMap (fun t => t.data.getD []) =
        log.specId.encode ++ encodeEvents log.records := by
  have hevents : ∀ r ∈ log.records, r.etype ≠ EV_NO_ACTION := fun r hr => (h r hr).1
  have hharmless : Harmless log := fun r hr => ⟨fun htype => absurd htype (h r hr).1, fun _ => (h r hr).2⟩
  obtain ⟨s, header, data, hrun, hdata, hfirst, -, hread⟩ := dump_told hharmless base
  obtain rfl := hfirst hevents
  obtain rfl : log.specId.encode = data := Option.some.inj hdata
  obtain ⟨htold, hflat, hrecords⟩ := placed_of_events hevents base log.specId.encode.length
  have hall : readDump s.log = ⟨some base, some base, some log.specId.encode⟩ ::
      (placed log.specId.encode.length log.records).map
        (fun p => ⟨some (base + p.1), some (base + p.1), some p.2.encode⟩) := by
    rw [hread, ← htold]
    rfl
  refine ⟨s, hrun, ?_, ?_, ?_⟩
  · have hdata := congrArg (List.map fun r => some r.encode) hrecords
    rw [List.map_map] at hdata
    rw [hall, List.map_cons, List.map_map, ← hdata]
    rfl
  · rw [hall]
    intro t ht
    rcases List.mem_cons.mp ht with rfl | ht
    · refine ⟨0, log.specId.encode, rfl, ?_⟩
      rw [List.drop_zero, RecordLog.encode, List.append_assoc]
      exact List.prefix_append _ _
    · obtain ⟨p, hp, rfl⟩ := List.mem_map.mp ht
      exact ⟨p.1, p.2.encode, rfl, placed_stands [] log.records rfl p hp⟩
  · rw [hall, List.flatMap_cons, List.flatMap_map, ← hflat]
    rfl

/-- The headings of a dump have the addresses of their raw data exactly when no
EV_NO_ACTION record follows the first record. -/
theorem headings_true_iff (log : RecordLog) (h : Harmless log) (base : Nat) : ∃ s,
    dumpTdEventLogs (.content log.encode) ⟨init base log.logLength, []⟩ = (.ok (), s) ∧
      ((∀ t ∈ readDump s.log, t.heading = t.address) ↔ ∀ r ∈ log.records, r.etype ≠ EV_NO_ACTION) := by
  obtain ⟨s, header, data, hrun, -, hfirst, hlater, hread⟩ := dump_told h base
  refine ⟨s, hrun, ?_⟩
  rw [hread]
  constructor
  · intro htrue
    by_contra hno
    push Not at hno
    have hbehind := hlater hno
    have hheading := htrue _ List.mem_cons_self
    exact absurd (Option.some.inj hheading) (Nat.ne_of_lt hbehind)
  · intro hevents t ht
    obtain rfl := hfirst hevents
    obtain ⟨htold, -⟩ := placed_of_events hevents base log.specId.encode.length
    have hlength : (log.specId.header base).length = log.specId.encode.length := rfl
    rw [hlength, htold] at ht
    rcases List.mem_cons.mp ht with rfl | ht
    · rfl
    · obtain ⟨p, -, rfl⟩ := List.mem_map.mp ht
      rfl

def twiceSpecId : SpecIdRecord := startupLog.specId

/-- A second spec-ID record, in the shape of an event record, and a separator. -/
def twiceRecords : List EventRecord :=
  [.checked 1 EV_NO_ACTION []
      (List.replicate 40 0 ++ leBytes 4 1 ++ leBytes 2 12 ++ leBytes 2 48 ++ [0]) (by decide),
    .checked 1 4 [(12, List.replicate 48 7)] [0] (by decide)]

theorem twiceRecords_declared : ∀ r ∈ twiceRecords, r.Declared twiceSpecId.algorithms := by
  intro r hr
  simp only [twiceRecords, List.mem_cons, List.not_mem_nil, or_false] at hr
  rcases hr with rfl | rfl
  · intro d hd
    cases hd
  · intro d hd
    obtain rfl := List.mem_singleton.mp hd
    decide

theorem twiceRecords_registerIndex : ∀ r ∈ twiceRecords, r.registerIndex ≠ 0xffffffff := by
  intro r hr
  simp only [twiceRecords, List.mem_cons, List.not_mem_nil, or_false] at hr
  rcases hr with rfl | rfl <;> decide

def twiceLog : RecordLog where
  specId := twiceSpecId
  records := twiceRecords
  rest := []
  logLength := _
  declared := twiceRecords_declared
  registerIndex_ne := twiceRecords_registerIndex
  length_le := Nat.le_refl _
  ends := .inl rfl

theorem twiceLog_harmless : Harmless twiceLog := by
  intro r hr
  simp only [twiceLog, twiceRecords, List.mem_cons, List.not_mem_nil, or_false] at hr
  rcases hr with rfl | rfl
  · refine ⟨fun _ => ⟨by decide, by decide, fun algoid => ?_⟩, fun hne => absurd rfl hne⟩
    have hsizes : specIdSizes (EventRecord.checked 1 EV_NO_ACTION []
        (List.replicate 40 0 ++ leBytes 4 1 ++ leBytes 2 12 ++ leBytes 2 48 ++ [0])
        (by decide)).encode = [(12, 48)] := by
      decide +kernel
    rw [hsizes]
    rfl
  · exact ⟨fun htype => absurd htype (by decide), fun _ => by simp [EventRecord.checked]⟩

theorem headings_true_iff_twice : ∃ s,
    dumpTdEventLogs (.content twiceLog.encode) ⟨init 0 twiceLog.logLength, []⟩ = (.ok (), s) ∧
      ¬ ∀ t ∈ readDump s.log, t.heading = t.address := by
  obtain ⟨s, hrun, htrue⟩ := headings_true_iff twiceLog twiceLog_harmless 0
  refine ⟨s, hrun, fun h => ?_⟩
  exact htrue.mp h _ List.mem_cons_self rfl

/-- The log without the second spec-ID record. -/
def onceLog : RecordLog := { twiceLog with
  records := twiceLog.records.tail
  logLength := _
  declared := fun r hr => twiceLog.declared r (List.mem_of_mem_tail hr)
  registerIndex_ne := fun r hr => twiceLog.registerIndex_ne r (List.mem_of_mem_tail hr)
  length_le := Nat.le_refl _
  ends := .inl rfl }

theorem dump_reads_back_once : ∃ s,
    dumpTdEventLogs (.content onceLog.encode) ⟨init 0 onceLog.logLength, []⟩ = (.ok (), s) ∧
      (readDump s.log).map Told.data =
        some onceLog.specId.encode :: onceLog.records.map (fun r => some r.encode) := by
  obtain ⟨s, hrun, hdata, -, -⟩ := dump_reads_back onceLog (by
    intro r hr
    obtain rfl := List.mem_singleton.mp hr
    exact ⟨by decide, by simp [EventRecord.checked]⟩) 0
  exact ⟨s, hrun, hdata⟩

end TdxTools.Attestation.DumpedLog
