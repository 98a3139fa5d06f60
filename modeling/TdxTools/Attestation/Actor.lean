import TdxTools.Attestation.EventLog

namespace TdxTools.Attestation.Actor

open Python.ByteString Python.Exec Python.Dictionary Blob EventLog

/-- A measurement register: 48 bytes. -/
structure RTMR extends BinaryBlob
  deriving DecidableEq, Repr

namespace RTMR

def RTMR_COUNT : Nat := 4
def RTMR_LENGTH_BY_BYTES : Nat := 48

def init (data : Bytes) : RTMR := { data, baseAddress := 0 }

/-- `==`; what the comparison raises is kept. -/
def eq (self other : RTMR) : Outcome Bool := do
  let (bytearray1, _) ← self.unpackBytes 0 RTMR_LENGTH_BY_BYTES
  let (bytearray2, _) ← other.unpackBytes 0 RTMR_LENGTH_BY_BYTES
  .ok (bytearray1 = bytearray2)

end RTMR

/-- The file that holds the log area. -/
inductive CcelFile
  | missing
  | unreadable
  | content (b : Bytes)

structure TDEventLogActor where
  data : Option Bytes
  logBase : Nat
  logLength : Nat
  specidHeader : Option TDEventLogSpecIdHeader
  eventLogs : List TDEventLogEntry
  rtmrs : Dict Int RTMR
  deriving DecidableEq, Repr

namespace TDEventLogActor

def init (base length : Nat) : TDEventLogActor :=
  { data := none, logBase := base, logLength := length, specidHeader := none, eventLogs := []
    rtmrs := [] }

def read (ccelFile : CcelFile) : Py TDEventLogActor (Option Bytes) :=
  match ccelFile with
  | .missing => .raise .assertionError
  | .unreadable => pure none
  | .content data => do
    .modify (fun self => { self with data := some data })
    if data.length > 0 then pure (some data) else .raise .assertionError

structure ProcessState where
  index : Nat
  actor : TDEventLogActor

/-- The register index and the type of the record at a position. -/
def peek (blob : BinaryBlob) (index : Nat) : Outcome (Nat × Nat) := do
  let (rtmr, index) ← blob.getUint32 index
  let (etype, _) ← blob.getUint32 index
  .ok (rtmr, etype)

/-- One turn of the loop over the log: the spec-ID record is kept before it is
parsed, any other record after. -/
def processTurn (data : Bytes) (s : ProcessState) : Turn ProcessState :=
  if s.index < s.actor.logLength then
    match peek ⟨data, s.actor.logBase⟩ s.index with
    | .raised e => .raise e s
    | .running => .stop s
    | .ok (rtmr, etype) =>
      if rtmr = 0xffffffff then .stop s
      else if etype = EV_NO_ACTION then
        let header : TDEventLogSpecIdHeader := { address := s.actor.logBase + s.index }
        match TDEventLogSpecIdHeader.parse (data.drop s.index) header with
        | (.ok _, header) =>
          .next { index := s.index + header.length
                  actor := { s.actor with specidHeader := some header } }
        | (.raised e, header) =>
          .raise e { s with actor := { s.actor with specidHeader := some header } }
        | (.running, _) => .stop s
      else
        let entry : TDEventLogEntry :=
          { address := s.actor.logBase + s.index, specidHeader := s.actor.specidHeader }
        match TDEventLogEntry.parse (data.drop s.index) entry with
        | (.ok _, entry) =>
          .next { index := s.index + entry.length
                  actor := { s.actor with eventLogs := s.actor.eventLogs ++ [entry] } }
        | (.raised e, _) => .raise e s
        | (.running, _) => .stop s
  else .stop s

section Turns

variable {data : Bytes} {s : ProcessState} {rtmr : Nat} (hlt : s.index < s.actor.logLength)
  (hne : rtmr ≠ 0xffffffff)
include hlt hne

theorem processTurn_header {header : TDEventLogSpecIdHeader} {i : Nat}
    (hpeek : peek ⟨data, s.actor.logBase⟩ s.index = .ok (rtmr, EV_NO_ACTION))
    (hparse : TDEventLogSpecIdHeader.parse (data.drop s.index)
      { address := s.actor.logBase + s.index } = (.ok i, header)) :
    processTurn data s = .next { index := s.index + header.length
                                 actor := { s.actor with specidHeader := some header } } := by
  unfold processTurn
  rw [if_pos hlt, hpeek]
  dsimp only
  rw [if_neg hne, if_pos rfl, hparse]

theorem processTurn_entry {entry : TDEventLogEntry} {etype i : Nat}
    (hetype : etype ≠ EV_NO_ACTION)
    (hpeek : peek ⟨data, s.actor.logBase⟩ s.index = .ok (rtmr, etype))
    (hparse : TDEventLogEntry.parse (data.drop s.index)
      { address := s.actor.logBase + s.index, specidHeader := s.actor.specidHeader } =
        (.ok i, entry)) :
    processTurn data s =
      .next { index := s.index + entry.length
              actor := { s.actor with eventLogs := s.actor.eventLogs ++ [entry] } } := by
  unfold processTurn
  rw [if_pos hlt, hpeek]
  dsimp only
  rw [if_neg hne, if_neg hetype, hparse]

end Turns

/-- Every turn moves the index past a whole record. -/
theorem processTurn_advances (data : Bytes) (s s' : ProcessState)
    (h : processTurn data s = .next s') :
    s.index < s.actor.logLength ∧ s.index + 16 ≤ s'.index ∧
      s'.actor.logLength = s.actor.logLength := by
  unfold processTurn at h
  split at h
  · next hlt =>
    refine ⟨hlt, ?_⟩
    split at h
    · cases h
    · cases h
    · split at h
      · cases h
      · split at h
        · dsimp only at h
          split at h
          · next hp =>
            obtain ⟨hlen, -, hge⟩ := TDEventLogSpecIdHeader.parse_length hp
            cases h
            rw [hlen]
            exact ⟨Nat.add_le_add_left (Nat.le_trans (by decide) hge) _, rfl⟩
          · cases h
          · cases h
        · dsimp only at h
          split at h
          · next hp =>
            obtain ⟨hlen, -, hge⟩ := TDEventLogEntry.parse_length hp
            cases h
            rw [hlen]
            exact ⟨Nat.add_le_add_left (Nat.le_trans (by decide) hge) _, rfl⟩
          · cases h
          · cases h
  · cases h

def processLoop (data : Bytes) : Loop ProcessState where
  turn := processTurn data
  variant s := s.actor.logLength - s.index
  decreases s s' h := by
    obtain ⟨hlt, hle, hlog⟩ := processTurn_advances data s s' h
    omega

def process (ccelFile : CcelFile) : Py TDEventLogActor Unit := do
  let self ← .get
  if self.specidHeader.isSome then pure ()
  else
    let data ← read ccelFile
    match data with
    | none => pure ()
    | some data => fun actor =>
      (((processLoop data).run { index := 0, actor }).1,
        ((processLoop data).run { index := 0, actor }).2.actor)

section Process

variable {data : Bytes} {actor : TDEventLogActor}

/-- Without a spec-ID header yet the log is read and walked from its start. -/
theorem process_unread (h : actor.specidHeader = none) (hne : data ≠ []) :
    process (.content data) actor =
      (((processLoop data).run { index := 0, actor := { actor with data := some data } }).1,
        ((processLoop data).run { index := 0, actor := { actor with data := some data } }).2.actor) := by
  have hread : read (.content data) actor = (.ok (some data), { actor with data := some data }) := by
    rw [read, Py.modify_bind_apply, if_pos (List.length_pos_of_ne_nil hne)]
    rfl
  have hunread : actor.specidHeader.isSome = false := by
    rw [h]
    rfl
  rw [process, Py.get_bind_apply, hunread]
  exact Py.bind_ok hread

theorem process_unread_empty (h : actor.specidHeader = none) :
    process (.content []) actor = (.raised .assertionError, { actor with data := some [] }) := by
  have hread : read (.content []) actor =
      (.raised .assertionError, { actor with data := some [] }) := rfl
  have hunread : actor.specidHeader.isSome = false := by
    rw [h]
    rfl
  rw [process, Py.get_bind_apply, hunread]
  exact Py.bind_raised hread

end Process

section Replay

variable (sha384 : Bytes → Bytes)

/-- The value of a register after one more event log. -/
def extend (rtmr : Bytes) (eventLog : TDEventLogEntry) : Outcome Bytes := do
  let digest ← .ofOption .indexError eventLog.digests.head?
  .ok (sha384 (rtmr ++ digest))

def replaySingleRtmr (eventLogs : List TDEventLogEntry) : Outcome RTMR := do
  let rtmr ← eventLogs.foldlM (extend sha384) (List.replicate RTMR.RTMR_LENGTH_BY_BYTES 0)
  .ok (RTMR.init rtmr)

/-- `event_logs_by_index[event_log.rtmr].append(event_log)`. -/
def classify (byIndex : Dict Int (List TDEventLogEntry)) (eventLog : TDEventLogEntry) :
    Outcome (Dict Int (List TDEventLogEntry)) := do
  let eventLogs ← .ofOption .keyError (get? byIndex eventLog.rtmr)
  .ok (set byIndex eventLog.rtmr (eventLogs ++ [eventLog]))

def replay (ccelFile : CcelFile) : Py TDEventLogActor Unit := do
  process ccelFile
  let self ← .get
  let empty : Dict Int (List TDEventLogEntry) :=
    (List.range RTMR.RTMR_COUNT).foldl (fun d (index : Nat) => set d (index : Int) []) []
  let eventLogsByIndex ← .lift (self.eventLogs.foldlM classify empty)
  let rtmrByIndex ← .lift (eventLogsByIndex.foldlM (fun d item => do
    let rtmrValue ← replaySingleRtmr sha384 item.2
    .ok (set d item.1 rtmrValue)) [])
  .modify (fun self => { self with rtmrs := rtmrByIndex })

/-- Dumping the registers themselves raises nothing. -/
def dumpRtmrs (ccelFile : CcelFile) : Py TDEventLogActor Unit := replay sha384 ccelFile

end Replay

def dumpTdEventLogs (ccelFile : CcelFile) : Py TDEventLogActor Unit := do
  process ccelFile
  let self ← .get
  let header ← .lift (.ofOption .attributeError self.specidHeader)
  .lift header.toTDEventLogBase.dump
  .lift (self.eventLogs.forM (fun eventLog => eventLog.toTDEventLogBase.dump))

def getRtmrByIndex (self : TDEventLogActor) (index : Int) : Outcome RTMR :=
  .ofOption .keyError (get? self.rtmrs index)

end TDEventLogActor

end TdxTools.Attestation.Actor
