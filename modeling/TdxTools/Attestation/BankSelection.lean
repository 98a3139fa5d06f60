import TdxTools.Attestation.NoAction
import TdxTools.Attestation.Replay
import TdxTools.Python.Text

namespace TdxTools.Attestation.BankSelection

open Python.ByteString Python.Text Python.Exec Python.Dictionary Blob EventLog Actor
open EventLogDecoding RecordFormat LogScan LogTiling LogRecords NoAction Replay TDEventLogActor

def TPM_ALG_SHA384 : Nat := 0xC

/-- The SHA-384 digest of a record. -/
def bankDigest (r : EventRecord) : Bytes := (get? r.digests TPM_ALG_SHA384).getD []

/-- A log that declares SHA-384 among its algorithms, and whose records carry one
digest for each of them, in any order. -/
structure BankedLog extends RecordLog where
  sha384_declared : (TPM_ALG_SHA384, RTMR.RTMR_LENGTH_BY_BYTES) ∈ specId.algorithms
  banks : ∀ r ∈ records, (r.digests.map (fun d => (d.1, d.2.length))).Perm specId.algorithms
  etype_ne : ∀ r ∈ records, r.etype ≠ EV_NO_ACTION

theorem declared_of_bank (specId : SpecIdRecord) (r : EventRecord)
    (h : (r.digests.map (fun d => (d.1, d.2.length))).Perm specId.algorithms) :
    r.Declared specId.algorithms := by
  intro d hd
  apply get?_of_mem specId.algorithms_nodup
  rw [← h.mem_iff]
  exact List.mem_map_of_mem hd

/-- The records of one register. -/
def recordsOf (i : Int) (records : List EventRecord) : List EventRecord :=
  records.filter (fun r => (r.registerIndex : Int) - 1 = i)

def bankDigests (i : Int) (records : List EventRecord) : List Bytes :=
  (recordsOf i records).map bankDigest

def firstDigest (r : EventRecord) : Bytes := (r.digests.map Prod.snd).headD []

section Chains

variable (sha384 : HashFunction 48)

/-- Something that is hashed when these digests are extended. -/
def Hashed (digests : List Bytes) (x : Bytes) : Prop :=
  ∃ pre d, pre ++ [d] <+: digests ∧ x = extended sha384.digest pre ++ d

theorem length_extended (digests : List Bytes) : (extended sha384.digest digests).length = 48 := by
  induction digests using List.reverseRecOn with
  | nil => rfl
  | append_singleton digests d _ =>
    rw [extended_concat]
    exact sha384.length_digest _

variable {sha384}

theorem Hashed.concat {digests : List Bytes} {x d : Bytes} (h : Hashed sha384 digests x) :
    Hashed sha384 (digests ++ [d]) x := by
  obtain ⟨pre, e, hprefix, hx⟩ := h
  exact ⟨pre, e, hprefix.trans (List.prefix_append _ _), hx⟩

theorem extended_inj {ds es : List Bytes} (hlen : ds.length = es.length)
    (hno : ∀ x y, Hashed sha384 ds x → Hashed sha384 es y → sha384.digest x = sha384.digest y → x = y)
    (h : extended sha384.digest ds = extended sha384.digest es) : ds = es := by
  induction ds using List.reverseRecOn generalizing es with
  | nil => exact (List.length_eq_zero_iff.mp hlen.symm).symm
  | append_singleton ds d ih =>
    rcases List.eq_nil_or_concat es with rfl | ⟨es, e, hes⟩
    · rw [List.length_append, List.length_singleton] at hlen
      exact absurd hlen (Nat.succ_ne_zero _)
    · rw [List.concat_eq_append] at hes
      subst hes
      rw [extended_concat, extended_concat] at h
      have hsame := hno _ _ ⟨ds, d, List.prefix_refl _, rfl⟩ ⟨es, e, List.prefix_refl _, rfl⟩ h
      obtain ⟨hrtmr, hd⟩ := List.append_inj hsame
        ((length_extended sha384 ds).trans (length_extended sha384 es).symm)
      have hrest := ih (by simpa using hlen) (fun x y hx hy => hno x y hx.concat hy.concat) hrtmr
      rw [hrest, hd]

end Chains

section Selection

variable (sha384 : HashFunction 48) (log : BankedLog) (base : Nat)

/-- Every register is the fold over the SHA-384 digests of its records. -/
def ReplaysBank : Prop :=
  ∃ actor, replay sha384.digest (.content log.encode) (init base log.logLength) = (.ok (), actor) ∧
    ∀ i ∈ registers, getRtmrByIndex actor i =
      .ok (RTMR.init (extended sha384.digest (bankDigests i log.records)))

/-- Every record is of one of the registers, its event is not empty, and its
first digest is the SHA-384 digest. -/
def LeadsWithBank : Prop :=
  ∀ r ∈ log.records, (r.registerIndex : Int) - 1 ∈ registers ∧ r.event ≠ [] ∧
    firstDigest r = bankDigest r

/-- Extending the first digests and extending the SHA-384 digests meet no collision. -/
def NoCollision : Prop :=
  ∀ i ∈ registers, ∀ x y, Hashed sha384 ((recordsOf i log.records).map firstDigest) x →
    Hashed sha384 (bankDigests i log.records) y → sha384.digest x = sha384.digest y → x = y

end Selection

section Reading

variable {log : BankedLog} {base : Nat}

theorem digests_exist {r : EventRecord} (hr : r ∈ log.records) : r.digests ≠ [] := by
  intro hnil
  have hperm := (log.banks r hr).length_eq
  rw [hnil, List.map_nil, List.length_nil] at hperm
  have hmem := log.sha384_declared
  rw [List.length_eq_zero_iff.mp hperm.symm] at hmem
  cases hmem

theorem harmless_of_events (h : ∀ r ∈ log.records, r.event ≠ []) : Harmless log.toRecordLog :=
  fun r hr => ⟨fun htype => absurd htype (log.etype_ne r hr), fun _ => h r hr⟩

theorem events_of_process
    (hok : (process (.content log.encode) (init base log.logLength)).1 = .ok ())
    (pre post : List EventRecord) (he : log.records = pre ++ post) :
    (∀ r ∈ pre, r.event ≠ []) ∧
      (processLoop log.encode).Reaches (log.entered base) (after log.toRecordLog base pre) ∧
      Stands log.toRecordLog pre (after log.toRecordLog base pre) := by
  induction pre using List.reverseRecOn generalizing post with
  | nil => exact ⟨by simp, .refl, ⟨rfl, rfl, ⟨log.specId.header base, rfl, fun _ => rfl⟩, rfl⟩⟩
  | append_singleton pre r ih =>
    have he' : log.records = pre ++ r :: post := by
      rw [he, List.append_assoc, List.singleton_append]
    obtain ⟨hevents, hreach, hs⟩ := ih _ he'
    have hmem := RecordLog.mem_records he'
    have htype := log.etype_ne r hmem
    have hends := RecordLog.record_not_ends he'
    have hstarts := RecordLog.starts_noAction_iff he'
    have hstands := RecordLog.record_stands he'
    rw [← hs.index, ← hs.logLength] at hends
    rw [← hs.index] at hstarts hstands
    have hevent : r.event ≠ [] := by
      have hturn := turned log.encode (after log.toRecordLog base pre)
      cases hnext : processTurn log.encode (after log.toRecordLog base pre) with
      | stop s =>
        rw [hnext] at hturn
        cases hturn with
        | ends hends' => exact absurd hends' hends
      | raise e s =>
        rw [log.process_entered base, hreach.run_raise hnext] at hok
        cases hok
      | next s =>
        rw [hnext] at hturn
        cases hturn with
        | specId _ hstarts' => exact absurd (hstarts.mp hstarts') htype
        | event _ _ r' hdecl hfilled hstands' =>
          obtain rfl := record_unique hdecl (hs.declared hmem) hstands' hstands
          exact hfilled.2
    have htaken := turn_taken he' hs (fun h => absurd h htype) (fun _ => hevent)
    rw [after_concat]
    refine ⟨?_, hreach.next htaken.1, htaken.2⟩
    intro r' hr'
    rcases List.mem_append.mp hr' with hr' | hr'
    · exact hevents r' hr'
    · rw [List.mem_singleton.mp hr']
      exact hevent

theorem map_measured (base : Nat) (h : ∀ r ∈ log.records, r.event ≠ []) :
    (after log.toRecordLog base log.records).actor.eventLogs.map measured =
      log.records.map (fun r => ((r.registerIndex : Int) - 1, r.digests.map Prod.snd)) := by
  have hrecovery := recovery_of_harmless base (harmless_of_events h)
  have hevents := (hrecovery.stands log.records [] (List.append_nil _).symm).events
  have hall : measuredRecords log.records = log.records := by
    rw [measuredRecords, List.filter_eq_self]
    intro r hr
    simpa using log.etype_ne r hr
  rw [hall] at hevents
  have hproject := congrArg (List.map (fun m : Int × List Bytes × Nat × Option Bytes => (m.1, m.2.1)))
    hevents
  rw [List.map_map, List.map_map] at hproject
  exact hproject

end Reading

section Registers

variable {sha384 : HashFunction 48} {log : BankedLog} {base : Nat} {actor : TDEventLogActor}

theorem firstDigests_of_measured
    (h : actor.eventLogs.map measured =
      log.records.map (fun r => ((r.registerIndex : Int) - 1, r.digests.map Prod.snd))) (i : Int) :
    firstDigests i actor.eventLogs = (recordsOf i log.records).map firstDigest := by
  rw [firstDigests_map, h, List.filter_map, List.flatMap_map, List.map_eq_flatMap]
  apply List.flatMap_congr
  intro r hr
  obtain ⟨d, ds, hd⟩ := List.exists_cons_of_ne_nil (digests_exist (List.mem_of_mem_filter hr))
  rw [firstDigest, hd]
  rfl

theorem measures_of_measured
    (h : actor.eventLogs.map measured =
      log.records.map (fun r => ((r.registerIndex : Int) - 1, r.digests.map Prod.snd)))
    (hregisters : ∀ r ∈ log.records, (r.registerIndex : Int) - 1 ∈ registers) :
    Measures actor.eventLogs := by
  intro e he
  have hmem := List.mem_map_of_mem (f := measured) he
  rw [h] at hmem
  obtain ⟨r, hr, heq⟩ := List.mem_map.mp hmem
  have hrtmr : (r.registerIndex : Int) - 1 = e.rtmr := congrArg Prod.fst heq
  have hdigests : r.digests.map Prod.snd = e.digests := congrArg Prod.snd heq
  constructor
  · rw [← hrtmr]
    exact hregisters r hr
  · intro hnil
    rw [hnil, List.map_eq_nil_iff] at hdigests
    exact digests_exist hr hdigests

theorem replay_of_leads (sha384 : HashFunction 48) (base : Nat) (h : LeadsWithBank log) :
    ∃ actor, replay sha384.digest (.content log.encode) (init base log.logLength) = (.ok (), actor) ∧
      actor.rtmrs = tabulate registers
        (fun i => RTMR.init (extended sha384.digest (bankDigests i log.records))) := by
  have hevents : ∀ r ∈ log.records, r.event ≠ [] := fun r hr => (h r hr).2.1
  have hp := (recovery_of_harmless base (harmless_of_events hevents)).returns
  have hmap := map_measured base hevents
  have hm := measures_of_measured hmap (fun r hr => (h r hr).1)
  refine ⟨_, replay_eq sha384.digest hp hm, ?_⟩
  apply tabulate_congr
  intro i _
  have hfirst : (recordsOf i log.records).map firstDigest = bankDigests i log.records :=
    List.map_congr_left (fun r hr => (h r (List.mem_of_mem_filter hr)).2.2)
  rw [firstDigests_of_measured hmap, hfirst]

theorem replaysBank_of_leads (h : LeadsWithBank log) : ReplaysBank sha384 log base := by
  obtain ⟨actor, hreplay, hrtmrs⟩ := replay_of_leads sha384 base h
  refine ⟨actor, hreplay, fun i hi => ?_⟩
  rw [getRtmrByIndex, hrtmrs, get?_tabulate registers _ i hi, Outcome.ofOption_some]

theorem registers_of_replay {rtmrs : TDEventLogActor} (hevents : ∀ r ∈ log.records, r.event ≠ [])
    (hreplay : replay sha384.digest (.content log.encode) (init base log.logLength) =
      (.ok (), rtmrs)) : ∀ r ∈ log.records, (r.registerIndex : Int) - 1 ∈ registers := by
  have hp := (recovery_of_harmless base (harmless_of_events hevents)).returns
  rw [replay, Py.bind_ok hp, Py.get_bind_apply, emptyRegisters] at hreplay
  obtain ⟨byIndex, hclassify, -⟩ := Py.lift_bind_eq_ok.mp hreplay
  intro r hr
  have hmem := List.mem_map_of_mem
    (f := fun r : EventRecord => ((r.registerIndex : Int) - 1, r.digests.map Prod.snd)) hr
  rw [← map_measured base hevents] at hmem
  obtain ⟨e, he, heq⟩ := List.mem_map.mp hmem
  have hrtmr : e.rtmr = (r.registerIndex : Int) - 1 := congrArg Prod.fst heq
  rw [← hrtmr]
  exact registers_of_classify hclassify e he

theorem leads_of_replaysBank (hno : NoCollision sha384 log) (h : ReplaysBank sha384 log base) :
    LeadsWithBank log := by
  obtain ⟨actor, hreplay, hvalues⟩ := h
  have hok : (process (.content log.encode) (init base log.logLength)).1 = .ok () := by
    obtain ⟨_, s', hprocess, -⟩ := Py.bind_eq_ok.mp hreplay
    rw [hprocess]
  have hevents := (events_of_process hok log.records [] (List.append_nil _).symm).1
  have hregisters := registers_of_replay hevents hreplay
  have hp := (recovery_of_harmless base (harmless_of_events hevents)).returns
  have hmap := map_measured base hevents
  have hm := measures_of_measured hmap hregisters
  intro r hr
  refine ⟨hregisters r hr, hevents r hr, ?_⟩
  have hi := hregisters r hr
  have hvalue := replay_register sha384.digest hp hm _ hi
  rw [hreplay, hvalues _ hi, firstDigests_of_measured hmap] at hvalue
  have hfold : extended sha384.digest (bankDigests ((r.registerIndex : Int) - 1) log.records) =
      extended sha384.digest ((recordsOf ((r.registerIndex : Int) - 1) log.records).map firstDigest) := by
    injection hvalue with hvalue
    injection hvalue with hvalue
    injection hvalue
  have hsame := extended_inj (by rw [bankDigests, List.length_map, List.length_map])
    (hno _ hi) hfold.symm
  have hmem : r ∈ recordsOf ((r.registerIndex : Int) - 1) log.records :=
    List.mem_filter.mpr ⟨hr, by simp⟩
  exact List.map_inj_left.mp hsame r hmem

end Registers

/-- The records of two logs agree in their registers and SHA-384 digests. -/
def SameBank (log other : BankedLog) : Prop :=
  log.records.map (fun r => (r.registerIndex, bankDigest r)) =
    other.records.map (fun r => (r.registerIndex, bankDigest r))

theorem SameBank.bankDigests {log other : BankedLog} (h : SameBank log other) (i : Int) :
    bankDigests i log.records = bankDigests i other.records := by
  have hmap : ∀ records : List EventRecord, BankSelection.bankDigests i records =
      ((records.map (fun r => (r.registerIndex, bankDigest r))).filter
        (fun m => (m.1 : Int) - 1 = i)).map Prod.snd := by
    intro records
    rw [BankSelection.bankDigests, recordsOf, List.filter_map, List.map_map]
    rfl
  rw [hmap, hmap, h]

/-- Replay is the fold over the SHA-384 digests, and with it a function of them,
exactly when every record is of a register and leads with its SHA-384 digest. -/
theorem replay_bank_iff (sha384 : HashFunction 48) (log : BankedLog) (base : Nat) :
    (LeadsWithBank log → ReplaysBank sha384 log base) ∧
    (NoCollision sha384 log → ReplaysBank sha384 log base → LeadsWithBank log) ∧
    ∀ other : BankedLog, LeadsWithBank log → LeadsWithBank other → SameBank log other →
      (replay sha384.digest (.content log.encode) (init base log.logLength)).2.rtmrs =
        (replay sha384.digest (.content other.encode) (init base other.logLength)).2.rtmrs := by
  refine ⟨replaysBank_of_leads, leads_of_replaysBank, fun other hlog hother hsame => ?_⟩
  obtain ⟨actor, hreplay, hrtmrs⟩ := replay_of_leads sha384 base hlog
  obtain ⟨actor', hreplay', hrtmrs'⟩ := replay_of_leads sha384 base hother
  rw [hreplay, hreplay', hrtmrs, hrtmrs']
  apply tabulate_congr
  intro i _
  rw [hsame.bankDigests i]

def onesDigest : Bytes :=
  beBytes 48 0xb2cdfa15c3fdc5772b099d6e1a5acb8a2eb8b94adb63393a7ae3068c8b4bd8cdad83d6eb649d8178d0fe7a8135d0a003

def zerosDigest : Bytes :=
  beBytes 48 0x6c524a55033dc4d549c9167996954c6c2a0dc75cfdf669d6df72422fd18629cab16c6aca05866b445eacc215760e5be2

/-- SHA-384 on what the two sample logs extend. -/
def sampleHash : HashFunction 48 where
  digest b := if b = List.replicate 48 0 ++ List.replicate 48 1 then onesDigest else zerosDigest
  length_digest b := by
    split
    · exact length_beBytes _ _
    · exact length_beBytes _ _

/-- A record with a SHA-256 digest of zeros and a SHA-384 digest of ones. -/
def bankRecord (sha384First : Bool) : EventRecord :=
  .checked 1 4
    (if sha384First then [(12, List.replicate 48 1), (11, List.replicate 32 0)]
    else [(11, List.replicate 32 0), (12, List.replicate 48 1)]) [0]
    (by cases sha384First <;> decide)

def bankLog (sha384First : Bool) : BankedLog where
  specId := .checked 1 (List.replicate 48 0) [(11, 32), (12, 48)] [] (by decide)
  records := [bankRecord sha384First]
  rest := []
  logLength := _
  declared r hr := declared_of_bank _ r (by
    rw [List.mem_singleton.mp hr]
    cases sha384First <;> decide)
  registerIndex_ne := by simp [bankRecord]
  length_le := Nat.le_refl _
  ends := .inl rfl
  sha384_declared := by decide
  banks := by cases sha384First <;> decide
  etype_ne := by simp [bankRecord, EV_NO_ACTION]

theorem bankLog_noCollision : NoCollision sampleHash (bankLog true) := by
  have hone : ∀ (digests : List Bytes) (x : Bytes), digests = [] ∨ digests = [List.replicate 48 1] →
      Hashed sampleHash digests x → x = List.replicate 48 0 ++ List.replicate 48 1 := by
    rintro digests x hdigests ⟨pre, d, ⟨rest, hrest⟩, rfl⟩
    rcases hdigests with rfl | rfl
    · simp at hrest
    · cases pre with
      | nil =>
        obtain ⟨rfl, -⟩ := List.cons.inj hrest
        rfl
      | cons e pre => simp at hrest
  have hfirst : ∀ i ∈ registers, (recordsOf i (bankLog true).records).map firstDigest = [] ∨
      (recordsOf i (bankLog true).records).map firstDigest = [List.replicate 48 1] := by
    decide
  have hbank : ∀ i ∈ registers, bankDigests i (bankLog true).records = [] ∨
      bankDigests i (bankLog true).records = [List.replicate 48 1] := by
    decide
  intro i hi x y hx hy _
  rw [hone _ x (hfirst i hi) hx, hone _ y (hbank i hi) hy]

theorem replay_bank_iff_sample :
    ReplaysBank sampleHash (bankLog true) 0 ∧ LeadsWithBank (bankLog true) := by
  obtain ⟨hreplays, hleads, -⟩ := replay_bank_iff sampleHash (bankLog true) 0
  have hrecords : LeadsWithBank (bankLog true) := by
    intro r hr
    rw [List.mem_singleton.mp hr]
    decide
  exact ⟨hreplays hrecords, hleads bankLog_noCollision (hreplays hrecords)⟩

/-- With the SHA-256 digest in front register 0 is extended by it. -/
theorem bankLog_replays_sha256 :
    getRtmrByIndex (replay sampleHash.digest (.content (bankLog false).encode)
      (init 0 (bankLog false).logLength)).2 0 =
        .ok (RTMR.init (sampleHash.digest (List.replicate 48 0 ++ List.replicate 32 0))) ∧
      ¬ ReplaysBank sampleHash (bankLog false) 0 := by
  have hvalue : getRtmrByIndex (replay sampleHash.digest (.content (bankLog false).encode)
      (init 0 (bankLog false).logLength)).2 0 =
        .ok (RTMR.init (sampleHash.digest (List.replicate 48 0 ++ List.replicate 32 0))) := by
    decide +kernel
  refine ⟨hvalue, ?_⟩
  rintro ⟨actor, hreplay, hvalues⟩
  rw [hreplay, hvalues 0 (by decide)] at hvalue
  exact absurd hvalue (by decide +kernel)

end TdxTools.Attestation.BankSelection
