import TdxTools.Attestation.EventLogDecoding

namespace TdxTools.Attestation.Replay

open Python.ByteString Python.Exec Python.Dictionary Blob EventLog Actor EventLogDecoding

def registers : List Int := [0, 1, 2, 3]

/-- A log that replays: its entries name one of the registers and have a digest. -/
def Measures (eventLogs : List TDEventLogEntry) : Prop :=
  ∀ e ∈ eventLogs, e.rtmr ∈ registers ∧ e.digests ≠ []

instance (eventLogs : List TDEventLogEntry) : Decidable (Measures eventLogs) :=
  inferInstanceAs (Decidable (∀ e ∈ eventLogs, e.rtmr ∈ registers ∧ e.digests ≠ []))

/-- The first digests of the entries of one register, in log order. -/
def firstDigests (i : Int) (eventLogs : List TDEventLogEntry) : List Bytes :=
  (eventLogs.filter (fun e => e.rtmr = i)).flatMap (fun e => e.digests.take 1)

section Folds

variable (sha384 : Bytes → Bytes)

/-- A register after a list of extends. -/
def extended (digests : List Bytes) : Bytes :=
  digests.foldl (fun acc d => sha384 (acc ++ d)) (List.replicate RTMR.RTMR_LENGTH_BY_BYTES 0)

theorem extended_concat (digests : List Bytes) (d : Bytes) :
    extended sha384 (digests ++ [d]) = sha384 (extended sha384 digests ++ d) := by
  rw [extended, List.foldl_append]
  rfl

theorem foldlM_extend (eventLogs : List TDEventLogEntry) (h : ∀ e ∈ eventLogs, e.digests ≠ [])
    (rtmr : Bytes) :
    eventLogs.foldlM (TDEventLogActor.extend sha384) rtmr =
      .ok ((eventLogs.flatMap (fun e => e.digests.take 1)).foldl (fun acc d => sha384 (acc ++ d))
        rtmr) := by
  induction eventLogs generalizing rtmr with
  | nil => rfl
  | cons e eventLogs ih =>
    obtain ⟨d, ds, hd⟩ := List.exists_cons_of_ne_nil (h e (by simp))
    have hstep : TDEventLogActor.extend sha384 rtmr e = .ok (sha384 (rtmr ++ d)) := by
      rw [TDEventLogActor.extend, hd]
      rfl
    rw [List.foldlM_cons, hstep, Outcome.ok_bind, ih (fun e' he => h e' (by simp [he]))]
    simp [hd]

theorem classify_tabulate {e : TDEventLogEntry} (hm : e.rtmr ∈ registers)
    (f : Int → List TDEventLogEntry) : TDEventLogActor.classify (tabulate registers f) e =
      .ok (tabulate registers (Function.update f e.rtmr (f e.rtmr ++ [e]))) := by
  rw [TDEventLogActor.classify, get?_tabulate registers f e.rtmr hm, Outcome.ofOption_some,
    Outcome.ok_bind, set_tabulate registers f e.rtmr hm]

/-- Classifying keeps for every register the entries it has met so far. -/
theorem foldlM_classify (eventLogs : List TDEventLogEntry)
    (h : ∀ e ∈ eventLogs, e.rtmr ∈ registers) (f : Int → List TDEventLogEntry) :
    eventLogs.foldlM TDEventLogActor.classify (tabulate registers f) =
      .ok (tabulate registers (fun i => f i ++ eventLogs.filter (fun e => e.rtmr = i))) := by
  induction eventLogs generalizing f with
  | nil => simp
  | cons e eventLogs ih =>
    rw [List.foldlM_cons, classify_tabulate (h e (by simp)), Outcome.ok_bind,
      ih (fun e' he => h e' (by simp [he]))]
    apply congrArg
    apply congrArg
    funext i
    by_cases hi : e.rtmr = i
    · subst hi
      simp
    · simp [hi, Ne.symm hi]

/-- Classifying raises on an entry of any other register. -/
theorem registers_of_classify {eventLogs : List TDEventLogEntry} {f : Int → List TDEventLogEntry}
    {byIndex : Dict Int (List TDEventLogEntry)}
    (h : eventLogs.foldlM TDEventLogActor.classify (tabulate registers f) = .ok byIndex) :
    ∀ e ∈ eventLogs, e.rtmr ∈ registers := by
  induction eventLogs generalizing f with
  | nil => simp
  | cons e eventLogs ih =>
    have hm : e.rtmr ∈ registers := by
      by_contra hm
      have hstep : TDEventLogActor.classify (tabulate registers f) e = .raised .keyError := by
        rw [TDEventLogActor.classify, get?_tabulate_of_not_mem registers f e.rtmr hm]
        rfl
      rw [List.foldlM_cons, hstep] at h
      cases h
    rw [List.foldlM_cons, classify_tabulate hm, Outcome.ok_bind] at h
    intro e' he'
    rcases List.mem_cons.mp he' with rfl | he'
    · exact hm
    · exact ih h e' he'

theorem emptyRegisters : (List.range RTMR.RTMR_COUNT).foldl
    (fun (d : Dict Int (List TDEventLogEntry)) (index : Nat) => set d (index : Int) []) [] =
      tabulate registers (fun _ => []) := rfl

variable {ccelFile : CcelFile} {self self' : TDEventLogActor}

theorem replay_eq (hp : TDEventLogActor.process ccelFile self = (.ok (), self'))
    (hm : Measures self'.eventLogs) :
    TDEventLogActor.replay sha384 ccelFile self =
      (.ok (), { self' with
        rtmrs := tabulate registers
          (fun i => RTMR.init (extended sha384 (firstDigests i self'.eventLogs))) }) := by
  let byIndex : Dict Int (List TDEventLogEntry) :=
    tabulate registers (fun i => self'.eventLogs.filter (fun e => e.rtmr = i))
  have hclassify : self'.eventLogs.foldlM TDEventLogActor.classify (tabulate registers (fun _ => [])) =
      .ok byIndex := by
    simpa only [List.nil_append] using
      foldlM_classify self'.eventLogs (fun e he => (hm e he).1) (fun _ => [])
  have hsingle : ∀ item ∈ byIndex, TDEventLogActor.replaySingleRtmr sha384 item.2 =
      .ok (RTMR.init (extended sha384 (item.2.flatMap (fun e => e.digests.take 1)))) := by
    intro item hitem
    obtain ⟨i, -, rfl⟩ := List.mem_map.mp hitem
    have hne : ∀ e ∈ self'.eventLogs.filter (fun e => e.rtmr = i), e.digests ≠ [] :=
      fun e he => (hm e (List.mem_of_mem_filter he)).2
    rw [TDEventLogActor.replaySingleRtmr, foldlM_extend sha384 _ hne]
    rfl
  have hfill := foldlM_set (TDEventLogActor.replaySingleRtmr sha384)
    (fun eventLogs => RTMR.init (extended sha384 (eventLogs.flatMap (fun e => e.digests.take 1))))
    byIndex hsingle [] (by simp [byIndex, keys, tabulate, registers])
  rw [TDEventLogActor.replay, Py.bind_ok hp, Py.get_bind_apply]
  rw [emptyRegisters, hclassify, Py.lift_ok_bind_apply, hfill]
  rfl

theorem replay_register (hp : TDEventLogActor.process ccelFile self = (.ok (), self'))
    (hm : Measures self'.eventLogs) (i : Int) (hi : i ∈ registers) :
    TDEventLogActor.getRtmrByIndex (TDEventLogActor.replay sha384 ccelFile self).2 i =
      .ok (RTMR.init (extended sha384 (firstDigests i self'.eventLogs))) := by
  rw [replay_eq sha384 hp hm, TDEventLogActor.getRtmrByIndex, get?_tabulate registers _ i hi,
    Outcome.ofOption_some]

/-- What replay looks at in an entry. -/
def measured (e : TDEventLogEntry) : Int × List Bytes := (e.rtmr, e.digests)

theorem firstDigests_map (i : Int) (eventLogs : List TDEventLogEntry) : firstDigests i eventLogs =
    ((eventLogs.map measured).filter (fun m => m.1 = i)).flatMap (fun m => m.2.take 1) := by
  rw [firstDigests, List.filter_map, List.flatMap_map]
  rfl

theorem firstDigests_concat {eventLogs eventLogs' : List TDEventLogEntry} {j : Int} {d : Bytes}
    {ds : List Bytes} (h : eventLogs'.map measured = eventLogs.map measured ++ [(j, d :: ds)])
    (i : Int) : firstDigests i eventLogs' =
      firstDigests i eventLogs ++ if j = i then [d] else [] := by
  rw [firstDigests_map, firstDigests_map, h, List.filter_append, List.flatMap_append]
  by_cases hj : j = i
  · simp [hj]
  · simp [hj]

variable {ccelFile₂ : CcelFile} {self₂ self₂' : TDEventLogActor}

/-- Replay folds the extends of each register separately. -/
theorem replay_registers (hp : TDEventLogActor.process ccelFile self = (.ok (), self'))
    (hm : Measures self'.eventLogs)
    (hp₂ : TDEventLogActor.process ccelFile₂ self₂ = (.ok (), self₂'))
    (hm₂ : Measures self₂'.eventLogs) :
    (∃ rtmrs, TDEventLogActor.replay sha384 ccelFile self = (.ok (), { self' with rtmrs := rtmrs }) ∧
      keys rtmrs = registers ∧ ∀ i ∈ registers,
        get? rtmrs i = some (RTMR.init (extended sha384 (firstDigests i self'.eventLogs)))) ∧
    ((∀ i ∈ registers, firstDigests i self'.eventLogs = firstDigests i self₂'.eventLogs) →
      (TDEventLogActor.replay sha384 ccelFile self).2.rtmrs =
        (TDEventLogActor.replay sha384 ccelFile₂ self₂).2.rtmrs) ∧
    (∀ j d ds, self₂'.eventLogs.map measured = self'.eventLogs.map measured ++ [(j, d :: ds)] →
      (∀ i ∈ registers, i ≠ j →
        TDEventLogActor.getRtmrByIndex (TDEventLogActor.replay sha384 ccelFile₂ self₂).2 i =
          TDEventLogActor.getRtmrByIndex (TDEventLogActor.replay sha384 ccelFile self).2 i) ∧
      ∃ acc,
        TDEventLogActor.getRtmrByIndex (TDEventLogActor.replay sha384 ccelFile self).2 j =
          .ok (RTMR.init acc) ∧
        TDEventLogActor.getRtmrByIndex (TDEventLogActor.replay sha384 ccelFile₂ self₂).2 j =
          .ok (RTMR.init (sha384 (acc ++ d)))) := by
  refine ⟨⟨_, replay_eq sha384 hp hm, rfl, ?_⟩, ?_, ?_⟩
  · exact fun i hi => get?_tabulate registers _ i hi
  · intro hsame
    have hvalues : ∀ i ∈ registers, RTMR.init (extended sha384 (firstDigests i self'.eventLogs)) =
        RTMR.init (extended sha384 (firstDigests i self₂'.eventLogs)) :=
      fun i hi => by rw [hsame i hi]
    rw [replay_eq sha384 hp hm, replay_eq sha384 hp₂ hm₂]
    exact tabulate_congr hvalues
  · intro j d ds hmore
    have hj : j ∈ registers := by
      have hlast : (j, d :: ds) ∈ self₂'.eventLogs.map measured := by
        rw [hmore]
        simp
      obtain ⟨e, he, heq⟩ := List.mem_map.mp hlast
      have hrtmr : e.rtmr = j := congrArg Prod.fst heq
      exact hrtmr ▸ (hm₂ e he).1
    refine ⟨?_, extended sha384 (firstDigests j self'.eventLogs),
      replay_register sha384 hp hm j hj, ?_⟩
    · intro i hi hne
      rw [replay_register sha384 hp₂ hm₂ i hi, replay_register sha384 hp hm i hi,
        firstDigests_concat hmore, if_neg (Ne.symm hne), List.append_nil]
    · rw [replay_register sha384 hp₂ hm₂ j hj, firstDigests_concat hmore, if_pos rfl,
        extended_concat]

end Folds

def sampleSpecId : SpecIdRecord where
  registerIndex := 1
  reserved := List.replicate 48 0
  algorithms := [(12, 48)]
  vendor := []
  registerIndex_lt := by decide
  reserved_length := by decide
  algorithms_length := by decide
  algorithms_fit := by decide
  algorithms_nodup := by decide
  vendor_length := by decide

def sampleRecord : AgileRecord sampleSpecId.algorithms where
  registerIndex := 1
  etype := 4
  digests := [(12, List.replicate 48 0)]
  event := [0]
  registerIndex_lt := by decide
  etype_lt := by decide
  etype_ne := by decide
  digests_length := by decide
  digests_declared := by decide
  event_ne := by decide
  event_length := by decide

def sampleLog (n : Nat) : CcelLog where
  specId := sampleSpecId
  records := List.replicate n sampleRecord
  rest := []
  logLength := _
  length_le := Nat.le_refl _
  ends := .inl rfl

def firstExtend : Bytes :=
  beBytes 48 0xf57bb7ed82c6ae4a29e6c9879338c592c7d42a39135583e8ccbe3940f2344b0eb6eb8503db0ffd6a39ddd00cd07d8317

def secondExtend : Bytes :=
  beBytes 48 0x11143121beb365e63826e7de89f9c76ae1100411fb9643d198e730b7603a83a4977c76eee6ddf74fa0b43fbf49897978

/-- SHA-384 on what the two sample logs extend. -/
def sampleSha384 (b : Bytes) : Bytes :=
  if b = List.replicate 96 0 then firstExtend
  else if b = firstExtend ++ List.replicate 48 0 then secondExtend
  else []

theorem replay_registers_sample :
    ∃ acc,
      TDEventLogActor.getRtmrByIndex (TDEventLogActor.replay sampleSha384
        (.content (sampleLog 1).encode) (TDEventLogActor.init 0 (sampleLog 1).logLength)).2 0 =
        .ok (RTMR.init acc) ∧
      TDEventLogActor.getRtmrByIndex (TDEventLogActor.replay sampleSha384
        (.content (sampleLog 2).encode) (TDEventLogActor.init 0 (sampleLog 2).logLength)).2 0 =
        .ok (RTMR.init (sampleSha384 (acc ++ List.replicate 48 0))) :=
  ((replay_registers sampleSha384 ((sampleLog 1).process_eq 0) (by decide +kernel)
    ((sampleLog 2).process_eq 0) (by decide +kernel)).2.2 0 (List.replicate 48 0) []
    (by decide +kernel)).2

end TdxTools.Attestation.Replay
