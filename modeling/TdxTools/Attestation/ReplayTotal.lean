import TdxTools.Attestation.Replay
import TdxTools.Attestation.LogTiling

namespace TdxTools.Attestation.ReplayTotal

open Python.ByteString Python.Exec Python.Dictionary Blob EventLog Actor EventLogDecoding
open RecordFormat LogScan LogTiling Replay TDEventLogActor

/-- The number of digests of the record that starts the data. -/
def countField (data : Bytes) : Nat := leNat (slice data 8 12)

/-- The record that starts the data extends a register with a digest. -/
def Extends (data : Bytes) : Prop :=
  (1 ≤ registerField data ∧ registerField data ≤ 4) ∧ countField data ≠ 0

/-- Every event record on the walk over the log extends a register. -/
def AllExtend (data : Bytes) (logLength : Nat) : Prop :=
  ∀ c, Walks data logLength ⟨0, none⟩ c → ¬ Ends data logLength c.index →
    ¬ StartsNoAction data c.index → Extends (data.drop c.index)

section Entries

variable (sha384 : Bytes → Bytes)

/-- The entries of the registers; an index of 0 stands for MRTD. -/
def ofRegisters (eventLogs : List TDEventLogEntry) : List TDEventLogEntry :=
  eventLogs.filter (fun e => e.rtmr ∈ registers)

/-- Replay succeeds, and each register has the value that the entries of the
registers give it. -/
def Total (ccelFile : CcelFile) (self parsed : TDEventLogActor) : Prop :=
  ∃ rtmrs, replay sha384 ccelFile self = (.ok (), { parsed with rtmrs := rtmrs }) ∧
    ∀ i ∈ registers, get? rtmrs i =
      some (RTMR.init (extended sha384 (firstDigests i (ofRegisters parsed.eventLogs))))

variable {ccelFile : CcelFile} {self parsed : TDEventLogActor}

theorem digests_of_extend {rtmr rtmr' : Bytes} {e : TDEventLogEntry}
    (h : extend sha384 rtmr e = .ok rtmr') : e.digests ≠ [] := by
  obtain ⟨digest, hdigest, -⟩ := Outcome.bind_eq_ok.mp h
  have hhead : e.digests.head? = some digest := Outcome.ofOption_eq_ok.mp hdigest
  intro hnil
  rw [hnil] at hhead
  cases hhead

theorem measures_of_replay (hp : process ccelFile self = (.ok (), parsed)) {s : TDEventLogActor}
    (h : replay sha384 ccelFile self = (.ok (), s)) : Measures parsed.eventLogs := by
  rw [replay, Py.bind_ok hp, Py.get_bind_apply, emptyRegisters] at h
  obtain ⟨byIndex, hclassify, h⟩ := Py.lift_bind_eq_ok.mp h
  obtain ⟨rtmrs, hfill, -⟩ := Py.lift_bind_eq_ok.mp h
  have hregisters := registers_of_classify hclassify
  have hbyIndex := foldlM_classify parsed.eventLogs hregisters (fun _ => [])
  rw [hclassify] at hbyIndex
  obtain rfl := Outcome.ok.inj hbyIndex
  intro e he
  refine ⟨hregisters e he, ?_⟩
  -- the entry is among those that its own register is replayed from
  have hitem : (e.rtmr, [] ++ parsed.eventLogs.filter (fun e' => e'.rtmr = e.rtmr)) ∈
      tabulate registers (fun i => [] ++ parsed.eventLogs.filter (fun e' => e'.rtmr = i)) :=
    List.mem_map.mpr ⟨e.rtmr, hregisters e he, rfl⟩
  obtain ⟨d, d', hstep⟩ := Outcome.exists_of_foldlM hfill hitem
  obtain ⟨rtmr, hsingle, -⟩ := Outcome.bind_eq_ok.mp hstep
  obtain ⟨value, hfold, -⟩ := Outcome.bind_eq_ok.mp hsingle
  have hmem : e ∈ [] ++ parsed.eventLogs.filter (fun e' => e'.rtmr = e.rtmr) := by
    simpa using he
  obtain ⟨acc, acc', hextend⟩ := Outcome.exists_of_foldlM hfold hmem
  exact digests_of_extend sha384 hextend

theorem ofRegisters_of_measures {eventLogs : List TDEventLogEntry} (h : Measures eventLogs) :
    ofRegisters eventLogs = eventLogs :=
  List.filter_eq_self.mpr (fun e he => decide_eq_true (h e he).1)

theorem total_iff_measures (hp : process ccelFile self = (.ok (), parsed)) :
    Total sha384 ccelFile self parsed ↔ Measures parsed.eventLogs := by
  constructor
  · rintro ⟨rtmrs, hrun, -⟩
    exact measures_of_replay sha384 hp hrun
  · intro hm
    refine ⟨_, replay_eq sha384 hp hm, fun i hi => ?_⟩
    rw [ofRegisters_of_measures hm]
    exact get?_tabulate registers _ i hi

end Entries

section Records

variable {data : Bytes} {r : EventRecord}

theorem countField_of_record (h : r.encode <+: data) : countField data = r.digests.length := by
  obtain ⟨rest, rfl⟩ := h
  have hsplit : r.encode ++ rest = (leBytes 4 r.registerIndex ++ leBytes 4 r.etype) ++
      (leBytes 4 r.digests.length ++ (encodeDigests r.digests ++ leBytes 4 r.event.length ++ r.event ++
        rest)) := by
    simp only [EventRecord.encode, List.append_assoc]
  have hcount := slice_piece (leBytes 4 r.registerIndex ++ leBytes 4 r.etype)
    (leBytes 4 r.digests.length)
    (encodeDigests r.digests ++ leBytes 4 r.event.length ++ r.event ++ rest)
  rw [List.length_append, length_leBytes, length_leBytes, length_leBytes] at hcount
  rw [countField, hsplit, hcount, leNat_leBytes 4 _ (by norm_num; exact r.digests_length)]

theorem entry_extends (h : r.encode <+: data) (specidHeader : Option TDEventLogSpecIdHeader)
    (address : Nat) : (r.entry specidHeader address).rtmr ∈ registers ∧
      (r.entry specidHeader address).digests ≠ [] ↔ Extends data := by
  have hregister : (r.registerIndex : Int) - 1 ∈ registers ↔
      1 ≤ r.registerIndex ∧ r.registerIndex ≤ 4 := by
    simp only [registers, List.mem_cons, List.not_mem_nil, or_false]
    omega
  have hdigests : r.digests.map Prod.snd ≠ [] ↔ r.digests.length ≠ 0 := by
    simp
  rw [Extends, (fields_of_record h).2.1, countField_of_record h]
  exact and_congr hregister hdigests

end Records

section Walk

variable {data : Bytes} {s t : ProcessState}

theorem eventLogs_grow (h : (processLoop data).Reaches s t) :
    s.actor.eventLogs <+: t.actor.eventLogs := by
  apply h.invariant (P := fun t => s.actor.eventLogs <+: t.actor.eventLogs)
  · intro t t' ht hturn
    cases turned_of hturn with
    | specId => exact ht
    | event => exact ht.trans (List.prefix_append _ _)
  · exact List.prefix_refl _

theorem measures_of_reaches (h : (processLoop data).Reaches s t) (hs : Measures s.actor.eventLogs)
    (hall : ∀ c, Walks data s.actor.logLength (cursorOf s) c →
      ¬ Ends data s.actor.logLength c.index → ¬ StartsNoAction data c.index →
        Extends (data.drop c.index)) : Measures t.actor.eventLogs := by
  induction h with
  | refl => exact hs
  | @tail t t' hreach hturn ih =>
    cases turned_of hturn with
    | specId => exact ih
    | event hends hstarts r hdecl hfilled hstands =>
      rw [logLength_of_reaches hreach] at hends
      have hextends := hall (cursorOf t) (walks_of_reaches hreach) hends hstarts
      intro e he
      rcases List.mem_append.mp he with he | he
      · exact ih e he
      · rw [List.mem_singleton.mp he]
        exact (entry_extends hstands _ _).mpr hextends

theorem extends_of_measures {o : TDEventLogActor} {index : Nat}
    (hrun : (processLoop data).run s = (.ok (), ⟨index, o⟩)) (hm : Measures o.eventLogs)
    (hends : ¬ Ends data s.actor.logLength s.index) (hstarts : ¬ StartsNoAction data s.index) :
    Extends (data.drop s.index) := by
  obtain ⟨t, hreach, ⟨u, hstop, hend⟩ | ⟨e, u, -, hend⟩⟩ := (processLoop data).run_ends s
  · cases turned_of hstop with
    | ends hends' =>
      rw [hrun] at hend
      obtain rfl : (⟨index, o⟩ : ProcessState) = t := congrArg Prod.snd hend
      rcases hreach.cases_head with rfl | ⟨s', hturn, hrest⟩
      · exact absurd hends' hends
      · cases turned_of hturn with
        | specId _ hstarts' => exact absurd hstarts' hstarts
        | event _ _ r _ _ hstands =>
          have hkept : r.entry s.actor.specidHeader (s.actor.logBase + s.index) ∈ o.eventLogs :=
            (eventLogs_grow hrest).subset (by simp)
          exact (entry_extends hstands _ _).mp (hm _ hkept)
  · rw [hrun] at hend
    cases hend

variable {base logLength : Nat} {parsed : TDEventLogActor}
  (hp : process (.content data) (init base logLength) = (.ok (), parsed))
include hp

theorem run_of_process : ∃ index,
    (processLoop data).run (started data base logLength) = (.ok (), ⟨index, parsed⟩) := by
  have hne : data ≠ [] := by
    rintro rfl
    rw [process_empty] at hp
    cases hp
  rw [process_started hne] at hp
  rcases hrun : (processLoop data).run (started data base logLength) with ⟨o, s⟩
  rw [hrun] at hp
  cases hp
  exact ⟨s.index, rfl⟩

theorem measures_iff_allExtend : Measures parsed.eventLogs ↔ AllExtend data logLength := by
  obtain ⟨index, hrun⟩ := run_of_process hp
  constructor
  · intro hm c hwalk hends hstarts
    obtain ⟨s, hreach, rfl⟩ := reaches_of_walks (s := started data base logLength) hwalk
    have hlog : s.actor.logLength = logLength := logLength_of_reaches hreach
    rw [hreach.run_eq] at hrun
    rw [← hlog] at hends
    exact extends_of_measures hrun hm hends hstarts
  · intro hall
    obtain ⟨t, hreach, ⟨u, hstop, hend⟩ | ⟨e, u, -, hend⟩⟩ :=
      (processLoop data).run_ends (started data base logLength)
    · cases turned_of hstop with
      | ends =>
        rw [hrun] at hend
        obtain rfl : (⟨index, parsed⟩ : ProcessState) = t := congrArg Prod.snd hend
        exact measures_of_reaches hreach (by intro e he; cases he) hall
    · rw [hrun] at hend
      cases hend

end Walk

/-- Replay is total on the logs that parse whose event records all have a
register index from 1 to 4 and a digest. -/
theorem replay_total_iff (sha384 : Bytes → Bytes) {data : Bytes} {base logLength : Nat}
    {parsed : TDEventLogActor}
    (hp : process (.content data) (init base logLength) = (.ok (), parsed)) :
    Total sha384 (.content data) (init base logLength) parsed ↔ AllExtend data logLength :=
  (total_iff_measures sha384 hp).trans (measures_iff_allExtend hp)

theorem replay_total_iff_sample :
    Total sampleSha384 (.content (sampleLog 2).encode) (init 0 (sampleLog 2).logLength)
      ((sampleLog 2).after 0 (sampleLog 2).records).actor ↔
      AllExtend (sampleLog 2).encode (sampleLog 2).logLength :=
  replay_total_iff sampleSha384 ((sampleLog 2).process_eq 0)

/-- A record without a digest, measured into the register of this index. -/
def eventOf (registerIndex : Nat) : Bytes :=
  leBytes 4 registerIndex ++ leBytes 4 4 ++ leBytes 4 0 ++ leBytes 4 1 ++ [7]

/-- A record for MRTD and a record without a digest parse, but do not replay. -/
theorem mrtd_not_replayed :
    (process (.content (eventOf 0)) (init 0 17)).1 = .ok () ∧
      (replay id (.content (eventOf 0)) (init 0 17)).1 = .raised .keyError ∧
      (process (.content (eventOf 1)) (init 0 17)).1 = .ok () ∧
      (replay id (.content (eventOf 1)) (init 0 17)).1 = .raised .indexError := by
  decide +kernel

end TdxTools.Attestation.ReplayTotal
