import TdxTools.Attestation.LogTiling

namespace TdxTools.Attestation.LogRecords

open Python.ByteString Python.Exec Python.Dictionary Blob EventLog Actor EventLogDecoding
open RecordFormat LogScan LogTiling TDEventLogActor

def encodeEvents (records : List EventRecord) : Bytes := records.flatMap EventRecord.encode

theorem encodeEvents_concat (pre : List EventRecord) (r : EventRecord) :
    encodeEvents (pre ++ [r]) = encodeEvents pre ++ r.encode := by
  simp [encodeEvents]

/-- A log of crypto-agile records of any type behind a spec-ID record. It ends
with the log length or with eight bytes 0xFF. -/
structure RecordLog where
  specId : SpecIdRecord
  records : List EventRecord
  rest : Bytes
  logLength : Nat
  declared : ∀ r ∈ records, r.Declared specId.algorithms
  registerIndex_ne : ∀ r ∈ records, r.registerIndex ≠ 0xffffffff
  length_le : specId.encode.length + (encodeEvents records).length ≤ logLength
  ends : logLength = specId.encode.length + (encodeEvents records).length ∨
    ∃ tail, rest = List.replicate 8 255 ++ tail

namespace RecordLog

variable (log : RecordLog) (base : Nat)

def encode : Bytes := log.specId.encode ++ encodeEvents log.records ++ log.rest

/-- Where the records behind these start. -/
def position (pre : List EventRecord) : Nat := log.specId.encode.length + (encodeEvents pre).length

theorem position_concat (pre : List EventRecord) (r : EventRecord) :
    log.position (pre ++ [r]) = log.position pre + r.encode.length := by
  rw [position, encodeEvents_concat, List.length_append, ← Nat.add_assoc, position]

theorem encode_ne : log.encode ≠ [] := by
  have hpos := log.specId.encode_pos
  intro hnil
  rw [encode, List.append_assoc, List.append_eq_nil_iff] at hnil
  rw [hnil.1] at hpos
  exact absurd hpos (Nat.lt_irrefl _)

theorem drop_position {pre post : List EventRecord} (he : log.records = pre ++ post) :
    log.encode.drop (log.position pre) = encodeEvents post ++ log.rest := by
  have hdata : log.encode = log.specId.encode ++ encodeEvents pre ++ (encodeEvents post ++ log.rest) := by
    rw [encode, he]
    simp only [encodeEvents, List.flatMap_append, List.append_assoc]
  rw [hdata, position, ← List.length_append, List.drop_left]

section Records

variable {log} {pre post : List EventRecord} {r : EventRecord} (he : log.records = pre ++ r :: post)
include he

theorem mem_records : r ∈ log.records := by
  rw [he]
  simp

theorem record_stands : r.encode <+: log.encode.drop (log.position pre) := by
  rw [log.drop_position he, encodeEvents, List.flatMap_cons, List.append_assoc]
  exact List.prefix_append _ _

theorem record_not_ends : ¬ Ends log.encode log.logLength (log.position pre) := by
  obtain ⟨h16, hregister, -⟩ := fields_of_record (List.prefix_refl r.encode)
  rintro (hle | ⟨-, hff⟩)
  · have hlen := log.length_le
    rw [he, encodeEvents, List.flatMap_append, List.flatMap_cons, List.length_append,
      List.length_append, ← encodeEvents] at hlen
    rw [position] at hle
    omega
  · rw [(fields_of_record (record_stands he)).2.1] at hff
    exact log.registerIndex_ne r (mem_records he) hff

theorem starts_noAction_iff :
    StartsNoAction log.encode (log.position pre) ↔ r.etype = EV_NO_ACTION := by
  obtain ⟨h16, -, htype⟩ := fields_of_record (record_stands he)
  rw [StartsNoAction, htype]
  rw [List.length_drop] at h16
  exact ⟨fun h => h.2, fun h => ⟨by omega, h⟩⟩

end Records

theorem ends_behind : Ends log.encode log.logLength (log.position log.records) := by
  rcases log.ends with hlen | ⟨tail, htail⟩
  · exact Or.inl (Nat.le_of_eq hlen)
  · have hrest : log.encode.drop (log.position log.records) = List.replicate 8 255 ++ tail := by
      rw [log.drop_position (List.append_nil log.records).symm, htail]
      rfl
    refine Or.inr ⟨?_, ?_⟩
    · have hlen := congrArg List.length hrest
      rw [List.length_drop, List.length_append, List.length_replicate] at hlen
      omega
    · have hfield : slice (List.replicate 8 255 ++ tail) 0 4 = List.replicate 4 255 := rfl
      rw [hrest, registerField, hfield]
      decide

/-- The state behind the spec-ID record. -/
def entered : ProcessState :=
  { index := log.specId.encode.length
    actor := { init base log.logLength with
      data := some log.encode, specidHeader := some (log.specId.header base) } }

theorem takes_specId :
    processTurn log.encode (started log.encode base log.logLength) = .next (log.entered base) := by
  have hlt : (started log.encode base log.logLength).index < log.logLength :=
    Nat.lt_of_lt_of_le (Nat.lt_of_lt_of_le log.specId.encode_pos (Nat.le_add_right _ _)) log.length_le
  have hdrop : log.encode.drop (started log.encode base log.logLength).index =
      log.specId.encode ++ (encodeEvents log.records ++ log.rest) := List.append_assoc _ _ _
  rw [turn_specId log.specId hlt hdrop]
  simp [started, entered, init]

/-- Reading the log comes to what the loop does behind the spec-ID record. -/
theorem process_entered :
    process (.content log.encode) (init base log.logLength) =
      (((processLoop log.encode).run (log.entered base)).1,
        ((processLoop log.encode).run (log.entered base)).2.actor) := by
  rw [process_started log.encode_ne, Loop.run_next _ (log.takes_specId base)]

end RecordLog

end TdxTools.Attestation.LogRecords
