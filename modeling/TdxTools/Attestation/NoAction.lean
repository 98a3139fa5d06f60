import Mathlib.Data.List.Induction
import TdxTools.Attestation.LogRecords

namespace TdxTools.Attestation.NoAction

open Python.ByteString Python.Exec Python.Dictionary Blob EventLog Actor EventLogDecoding
open RecordFormat LogScan LogTiling LogRecords TDEventLogActor

/-- Two tables give every algorithm the same size. -/
def SameSizes (sizes sizes' : Dict Nat Nat) : Prop := ∀ algoid, get? sizes algoid = get? sizes' algoid

/-- The bytes of a record are also those of a spec-ID record of the same length
that declares the same sizes. -/
def ReadsAsSpecId (algorithms : Algorithms) (r : EventRecord) : Prop :=
  SpecIdFits r.encode ∧ specIdLength r.encode = r.encode.length ∧
    SameSizes (specIdSizes r.encode) algorithms

/-- What is asked of the object of a record. -/
def decodedRecord (r : EventRecord) : Int × List Bytes × Nat × Option Bytes :=
  ((r.registerIndex : Int) - 1, r.digests.map Prod.snd, r.encode.length, some r.encode)

def measuredRecords (records : List EventRecord) : List EventRecord :=
  records.filter (fun r => r.etype ≠ EV_NO_ACTION)

section Recovery

variable (log : RecordLog) (base : Nat)

/-- The state behind some of the records: their length is behind, the first
record's sizes are in force and the other records were read. -/
structure Stands (pre : List EventRecord) (s : ProcessState) : Prop where
  index : s.index = log.position pre
  logLength : s.actor.logLength = log.logLength
  sizes : ∃ header, s.actor.specidHeader = some header ∧
    SameSizes header.digestSizes log.specId.algorithms
  events : s.actor.eventLogs.map decoded = (measuredRecords pre).map decodedRecord

/-- Every record takes one turn of the loop: `after pre` is the state when the
records `pre` have been taken. -/
structure Recovery (after : List EventRecord → ProcessState) : Prop where
  first : processTurn log.encode (started log.encode base log.logLength) = .next (after [])
  turn : ∀ pre r post, log.records = pre ++ r :: post →
    processTurn log.encode (after pre) = .next (after (pre ++ [r]))
  stands : ∀ pre post, log.records = pre ++ post → Stands log pre (after pre)
  returns : process (.content log.encode) (init base log.logLength) =
    (.ok (), (after log.records).actor)

/-- The log is read record by record, and as if it had no EV_NO_ACTION records
behind the first record. -/
def Undisturbed : Prop :=
  (∃ after, Recovery log base after) ∧
    ∀ quiet : RecordLog, quiet.specId = log.specId →
      quiet.records = measuredRecords log.records → ∃ actor quietActor,
        process (.content log.encode) (init base log.logLength) = (.ok (), actor) ∧
        process (.content quiet.encode) (init base quiet.logLength) = (.ok (), quietActor) ∧
        actor.eventLogs.map decoded = quietActor.eventLogs.map decoded

/-- Every EV_NO_ACTION record behind the first reads as a spec-ID record of its
own length and with the sizes in force, and no other record has an empty event. -/
def Harmless : Prop :=
  ∀ r ∈ log.records,
    (r.etype = EV_NO_ACTION → ReadsAsSpecId log.specId.algorithms r) ∧
      (r.etype ≠ EV_NO_ACTION → r.event ≠ [])

end Recovery

section Turns

variable {log : RecordLog} {base : Nat} {pre post : List EventRecord} {r : EventRecord}
  {s : ProcessState}

theorem measuredRecords_concat (pre : List EventRecord) (r : EventRecord) :
    measuredRecords (pre ++ [r]) =
      measuredRecords pre ++ if r.etype = EV_NO_ACTION then [] else [r] := by
  rw [measuredRecords, measuredRecords, List.filter_append]
  by_cases h : r.etype = EV_NO_ACTION
  · simp [h]
  · simp [h]

theorem Stands.declared (h : Stands log pre s) (hr : r ∈ log.records) :
    r.Declared (declaredSizes s.actor.specidHeader) := by
  obtain ⟨header, hheader, hsame⟩ := h.sizes
  intro d hd
  rw [hheader]
  exact (hsame d.1).trans (log.declared r hr d hd)

theorem digests_ne (hr : r ∈ log.records) : ∀ d ∈ r.digests, d.2 ≠ [] := by
  intro d hd hnil
  have hsize := log.declared r hr d hd
  obtain ⟨a, hfind, ha⟩ := Option.map_eq_some_iff.mp hsize
  have hpos := (log.specId.algorithms_fit a (List.mem_of_find?_eq_some hfind)).2.1
  rw [ha, hnil] at hpos
  exact absurd hpos (Nat.lt_irrefl _)

/-- The state after one more record. -/
def taken (data : Bytes) (s : ProcessState) (r : EventRecord) : ProcessState :=
  { index := s.index + r.encode.length
    actor :=
      if r.etype = EV_NO_ACTION then
        { s.actor with
          specidHeader := some (specIdHeader (data.drop s.index) (s.actor.logBase + s.index)) }
      else
        { s.actor with eventLogs := s.actor.eventLogs ++
            [r.entry s.actor.specidHeader (s.actor.logBase + s.index)] } }

theorem turn_taken (he : log.records = pre ++ r :: post) (hs : Stands log pre s)
    (hnoaction : r.etype = EV_NO_ACTION → ReadsAsSpecId log.specId.algorithms r)
    (hother : r.etype ≠ EV_NO_ACTION → r.event ≠ []) :
    processTurn log.encode s = .next (taken log.encode s r) ∧
      Stands log (pre ++ [r]) (taken log.encode s r) := by
  have hends := RecordLog.record_not_ends he
  have hstarts := RecordLog.starts_noAction_iff he
  have hstands := RecordLog.record_stands he
  rw [← hs.index, ← hs.logLength] at hends
  rw [← hs.index] at hstarts hstands
  have hposition : s.index + r.encode.length = log.position (pre ++ [r]) := by
    rw [log.position_concat, hs.index]
  by_cases htype : r.etype = EV_NO_ACTION
  · obtain ⟨hfits, hlength, hsizes⟩ := hnoaction htype
    have hlength' : specIdLength (log.encode.drop s.index) = r.encode.length :=
      (specIdLength_front hstands hfits).trans hlength
    have hsizes' := specIdSizes_front hstands hfits
    constructor
    · rw [turn_of_specId hends (hstarts.mpr htype) (fits_of_front hstands hfits), taken,
        if_pos htype, hlength']
    · rw [taken, if_pos htype]
      refine ⟨hposition, hs.logLength, ⟨_, rfl, ?_⟩, ?_⟩
      · intro algoid
        rw [← hsizes algoid, ← hsizes']
        rfl
      · rw [measuredRecords_concat, if_pos htype, List.append_nil]
        exact hs.events
  · have hmem := RecordLog.mem_records he
    have hfilled : r.Filled := ⟨digests_ne hmem, hother htype⟩
    constructor
    · rw [turn_of_event hends (fun h => htype (hstarts.mp h)) (hs.declared hmem) hfilled hstands,
        taken, if_neg htype]
    · rw [taken, if_neg htype]
      refine ⟨hposition, hs.logLength, hs.sizes, ?_⟩
      rw [measuredRecords_concat, if_neg htype, List.map_append, List.map_append, hs.events]
      rfl

theorem harmless_of_turn (he : log.records = pre ++ r :: post) (hs : Stands log pre s)
    {s' : ProcessState} (hs' : Stands log (pre ++ [r]) s')
    (hturn : processTurn log.encode s = .next s') :
    (r.etype = EV_NO_ACTION → ReadsAsSpecId log.specId.algorithms r) ∧
      (r.etype ≠ EV_NO_ACTION → r.event ≠ []) := by
  have hstarts := RecordLog.starts_noAction_iff he
  have hstands := RecordLog.record_stands he
  rw [← hs.index] at hstarts hstands
  have hposition : s'.index = s.index + r.encode.length := by
    rw [hs'.index, log.position_concat, hs.index]
  have hcase := turned log.encode s
  rw [hturn] at hcase
  cases hcase with
  | specId _ hstarts' hfits =>
    have htype := hstarts.mp hstarts'
    have hlength : specIdLength (log.encode.drop s.index) = r.encode.length :=
      Nat.add_left_cancel hposition
    have hfits' := front_fits hstands (Nat.le_of_eq hlength)
    refine ⟨fun _ => ⟨hfits', ?_, ?_⟩, fun h => absurd htype h⟩
    · rw [← specIdLength_front hstands hfits', hlength]
    · obtain ⟨header, hheader, hsame⟩ := hs'.sizes
      obtain rfl := Option.some.inj hheader
      rw [← specIdSizes_front hstands hfits']
      exact hsame
  | event _ hstarts' r' hdecl hfilled hstands' =>
    have hmem := RecordLog.mem_records he
    obtain rfl := record_unique hdecl (hs.declared hmem) hstands' hstands
    exact ⟨fun h => absurd (hstarts.mpr h) hstarts', fun _ => hfilled.2⟩

end Turns

section Runs

variable {log : RecordLog} {base : Nat}

theorem harmless_of_recovery {after : List EventRecord → ProcessState} (h : Recovery log base after) :
    Harmless log := by
  intro r hr
  obtain ⟨pre, post, he⟩ := List.append_of_mem hr
  have he' : log.records = (pre ++ [r]) ++ post := by
    rw [he, List.append_assoc, List.singleton_append]
  exact harmless_of_turn he (h.stands pre _ he) (h.stands _ post he') (h.turn pre r post he)

def after (log : RecordLog) (base : Nat) (pre : List EventRecord) : ProcessState :=
  pre.foldl (taken log.encode) (log.entered base)

theorem after_concat (pre : List EventRecord) (r : EventRecord) :
    after log base (pre ++ [r]) = taken log.encode (after log base pre) r := by
  rw [after, List.foldl_append]
  rfl

theorem stands_after (base : Nat) (h : Harmless log) (pre post : List EventRecord)
    (he : log.records = pre ++ post) : Stands log pre (after log base pre) := by
  induction pre using List.reverseRecOn generalizing post with
  | nil =>
    exact ⟨rfl, rfl, ⟨log.specId.header base, rfl, fun _ => rfl⟩, rfl⟩
  | append_singleton pre r ih =>
    have he' : log.records = pre ++ r :: post := by
      rw [he, List.append_assoc, List.singleton_append]
    obtain ⟨hnoaction, hother⟩ := h r (RecordLog.mem_records he')
    rw [after_concat]
    exact (turn_taken he' (ih _ he') hnoaction hother).2

theorem recovery_of_harmless (base : Nat) (h : Harmless log) : Recovery log base (after log base) := by
  have hstands := stands_after base h
  have hturn : ∀ pre r post, log.records = pre ++ r :: post →
      processTurn log.encode (after log base pre) = .next (after log base (pre ++ [r])) := by
    intro pre r post he
    obtain ⟨hnoaction, hother⟩ := h r (RecordLog.mem_records he)
    rw [after_concat]
    exact (turn_taken he (hstands pre _ he) hnoaction hother).1
  have hlast := hstands log.records [] (List.append_nil _).symm
  have hstop : (processLoop log.encode).turn (after log base log.records) =
      .stop (after log base log.records) := by
    apply stop_of_ends
    rw [hlast.index, hlast.logLength]
    exact log.ends_behind
  refine ⟨log.takes_specId base, hturn, hstands, ?_⟩
  rw [log.process_entered base]
  have hrun : (processLoop log.encode).run (log.entered base) =
      (.ok (), after log base log.records) :=
    ((processLoop log.encode).run_records (after log base) log.records hturn).trans
      ((processLoop log.encode).run_stop hstop)
  rw [hrun]

/-- For every log with EV_NO_ACTION records behind the first one: it is read
record by record and as if they were absent exactly when they are harmless. -/
theorem noAction_undisturbed_iff (log : RecordLog) (base : Nat) :
    Undisturbed log base ↔ Harmless log := by
  constructor
  · rintro ⟨⟨after, h⟩, -⟩
    exact harmless_of_recovery h
  · intro h
    have hrecovery := recovery_of_harmless base h
    refine ⟨⟨_, hrecovery⟩, fun quiet hspecId hrecords => ?_⟩
    have hquiet : Harmless quiet := by
      intro r hr
      rw [hrecords] at hr
      obtain ⟨hmem, htype⟩ := List.mem_filter.mp hr
      have htype : r.etype ≠ EV_NO_ACTION := by simpa using htype
      exact ⟨fun h => absurd h htype, (h r hmem).2⟩
    have hquietRecovery := recovery_of_harmless base hquiet
    refine ⟨_, _, hrecovery.returns, hquietRecovery.returns, ?_⟩
    have hevents := (hrecovery.stands log.records [] (List.append_nil _).symm).events
    have hquietEvents := (hquietRecovery.stands quiet.records [] (List.append_nil _).symm).events
    have hfiltered : measuredRecords quiet.records = measuredRecords log.records := by
      rw [hrecords, measuredRecords, measuredRecords, List.filter_filter]
      simp
    rw [hevents, hquietEvents, hfiltered]

/-- A log that declares SHA-384, and in it a crypto-agile EV_NO_ACTION record. -/
def startupLog : RecordLog where
  specId := .checked 1 (List.replicate 48 0) [(12, 48)] [] (by decide)
  records := [.checked 1 EV_NO_ACTION [(12, List.replicate 48 0)] [0] (by decide)]
  rest := []
  logLength := _
  declared := by simp [EventRecord.Declared, get?]
  registerIndex_ne := by simp
  length_le := Nat.le_refl _
  ends := .inl rfl

/-- The record is read as a spec-ID record without algorithms that ends inside it. -/
theorem startupLog_derailed :
    (process (.content startupLog.encode) (init 0 startupLog.logLength)).1 = .raised .assertionError ∧
      ¬ Undisturbed startupLog 0 := by
  refine ⟨by decide +kernel, ?_⟩
  rintro ⟨⟨after, h⟩, -⟩
  have hlength := ((harmless_of_recovery h _ (List.mem_singleton_self _)).1 rfl).2.1
  exact absurd hlength (by decide +kernel)

end Runs

end TdxTools.Attestation.NoAction
