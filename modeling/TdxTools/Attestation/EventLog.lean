import TdxTools.Attestation.Blob
import TdxTools.Python.Dictionary

namespace TdxTools.Attestation.EventLog

open Python.ByteString Python.Exec Python.Dictionary Blob

def EV_NO_ACTION : Nat := 0x3

/-- What all entries have. `rtmr` is the register index of the record less
one, and nothing keeps that from being negative. -/
structure TDEventLogBase where
  address : Nat
  length : Nat := 0
  data : Option Bytes := none
  rtmr : Int := 0
  etype : Nat := 0
  digestCount : Nat := 0
  deriving DecidableEq, Repr

namespace TDEventLogBase

/-- The first twelve bytes of any record. -/
def parseHeader (data : Bytes) : Py TDEventLogBase (BinaryBlob × Nat) := do
  let self ← .get
  let blob : BinaryBlob := ⟨data, self.address⟩
  let (tdRegisterIndex, index) ← .lift (blob.getUint32 0)
  let (etype, index) ← .lift (blob.getUint32 index)
  .modify (fun self => { self with etype })
  let (digestCount, index) ← .lift (blob.getUint32 index)
  .modify (fun self => { self with digestCount, rtmr := (tdRegisterIndex : Int) - 1 })
  pure (blob, index)

/-- What `dump` comes to, the lines it logs apart: an entry that was not
parsed to its end has no data to dump. -/
def dump (self : TDEventLogBase) : Outcome Unit := do
  let _ ← .ofOption .typeError self.data
  .ok ()

theorem parseHeader_eq_ok {data : Bytes} {self self' : TDEventLogBase} {blob : BinaryBlob}
    {index : Nat} (h : parseHeader data self = (.ok (blob, index), self')) :
    blob = ⟨data, self.address⟩ ∧ index = 12 ∧
      self' = { self with
        rtmr := (leNat (slice data 0 4) : Int) - 1, etype := leNat (slice data 4 8)
        digestCount := leNat (slice data 8 12) } ∧ 12 ≤ data.length := by
  rw [parseHeader, Py.get_bind_apply] at h
  obtain ⟨⟨tdRegisterIndex, i⟩, h1, h⟩ := Py.lift_bind_eq_ok.mp h
  obtain ⟨-, rfl, rfl⟩ := BinaryBlob.getUint_eq_ok h1
  obtain ⟨⟨etype, i⟩, h2, h⟩ := Py.lift_bind_eq_ok.mp h
  obtain ⟨-, rfl, rfl⟩ := BinaryBlob.getUint_eq_ok h2
  obtain ⟨⟨digestCount, i⟩, h3, h⟩ := Py.lift_bind_eq_ok.mp h
  obtain ⟨hlen, rfl, rfl⟩ := BinaryBlob.getUint_eq_ok h3
  cases h
  exact ⟨rfl, rfl, rfl, hlen⟩

theorem parseHeader_halts (data : Bytes) : (parseHeader data).Halts := by
  apply Py.Halts.bind .get
  intro self
  apply Py.Halts.bind (.lift (BinaryBlob.getUint_halts _ _ _))
  intro a
  apply Py.Halts.bind (.lift (BinaryBlob.getUint_halts _ _ _))
  intro b
  apply Py.Halts.bind (.modify _)
  intro _
  apply Py.Halts.bind (.lift (BinaryBlob.getUint_halts _ _ _))
  intro c
  exact .bind (.modify _) (fun _ => .pure _)

end TDEventLogBase

/-- The entry that declares the digest sizes of the log. -/
structure TDEventLogSpecIdHeader extends TDEventLogBase where
  algorithmsNumber : Nat := 0
  digestSizes : Dict Nat Nat := []
  deriving DecidableEq, Repr

namespace TDEventLogSpecIdHeader

def parseAlgorithms (blob : BinaryBlob) : Nat → Nat → Py TDEventLogSpecIdHeader Nat
  | 0, index => pure index
  | n + 1, index => do
    let (algoid, index) ← .lift (blob.getUint16 index)
    let (digestsize, index) ← .lift (blob.getUint16 index)
    .modify (fun self => { self with digestSizes := set self.digestSizes algoid digestsize })
    parseAlgorithms blob n index

theorem parseAlgorithms_le {blob : BinaryBlob} {n index i : Nat} {self self' : TDEventLogSpecIdHeader}
    (h : parseAlgorithms blob n index self = (.ok i, self')) : index ≤ i := by
  induction n generalizing index self with
  | zero =>
    cases h
    exact Nat.le_refl _
  | succ n ih =>
    obtain ⟨⟨algoid, i1⟩, h1, h⟩ := Py.lift_bind_eq_ok.mp h
    obtain ⟨⟨digestsize, i2⟩, h2, h⟩ := Py.lift_bind_eq_ok.mp h
    have hle := ih h
    have e1 := (BinaryBlob.getUint_eq_ok h1).2.2
    have e2 := (BinaryBlob.getUint_eq_ok h2).2.2
    omega

def parse (data : Bytes) : Py TDEventLogSpecIdHeader Nat := do
  let (blob, index) ← .within toTDEventLogBase
    (fun base self => { self with toTDEventLogBase := base }) (TDEventLogBase.parseHeader data)
  let index := index + 20
  let index := index + 24
  let (algorithmsNumber, index) ← .lift (blob.getUint32 index)
  .modify (fun self => { self with algorithmsNumber })
  let index ← parseAlgorithms blob algorithmsNumber index
  let (vendorsize, index) ← .lift (blob.getUint8 index)
  let index := index + vendorsize
  .modify (fun self => { self with length := index, data := some (data.take index) })
  pure index

theorem parse_length {data : Bytes} {self self' : TDEventLogSpecIdHeader} {i : Nat}
    (h : parse data self = (.ok i, self')) :
    self'.length = i ∧ self'.data = some (data.take i) ∧ 60 ≤ i := by
  obtain ⟨⟨blob, i0⟩, base, hh, h⟩ := Py.within_bind_eq_ok.mp h
  obtain ⟨-, rfl, -⟩ := TDEventLogBase.parseHeader_eq_ok hh
  obtain ⟨⟨n, i1⟩, h1, h⟩ := Py.lift_bind_eq_ok.mp h
  dsimp only at h
  rw [Py.modify_bind_apply] at h
  obtain ⟨i2, s2, h2, h⟩ := Py.bind_eq_ok.mp h
  obtain ⟨⟨vendorsize, i3⟩, h3, h⟩ := Py.lift_bind_eq_ok.mp h
  have e1 := (BinaryBlob.getUint_eq_ok h1).2.2
  have e2 := parseAlgorithms_le h2
  have e3 := (BinaryBlob.getUint_eq_ok h3).2.2
  cases h
  exact ⟨rfl, rfl, by omega⟩

theorem parseAlgorithms_halts (blob : BinaryBlob) (n index : Nat) :
    (parseAlgorithms blob n index).Halts := by
  induction n generalizing index with
  | zero => exact .pure _
  | succ n ih =>
    apply Py.Halts.bind (.lift (BinaryBlob.getUint_halts _ _ _))
    intro a
    apply Py.Halts.bind (.lift (BinaryBlob.getUint_halts _ _ _))
    intro b
    exact .bind (.modify _) (fun _ => ih _)

theorem parse_halts (data : Bytes) : (parse data).Halts := by
  apply Py.Halts.bind (.within (TDEventLogBase.parseHeader_halts data))
  intro a
  apply Py.Halts.bind (.lift (BinaryBlob.getUint_halts _ _ _))
  intro b
  apply Py.Halts.bind (.modify _)
  intro _
  apply Py.Halts.bind (parseAlgorithms_halts _ _ _)
  intro index
  apply Py.Halts.bind (.lift (BinaryBlob.getUint_halts _ _ _))
  intro c
  exact .bind (.modify _) (fun _ => .pure _)

end TDEventLogSpecIdHeader

structure TDEventLogEntry extends TDEventLogBase where
  specidHeader : Option TDEventLogSpecIdHeader
  digests : List Bytes := []
  eventSize : Nat := 0
  event : Option Bytes := none
  algorithmsId : Nat := 0
  deriving DecidableEq, Repr

namespace TDEventLogEntry

def parseDigests (blob : BinaryBlob) : Nat → Nat → Py TDEventLogEntry Nat
  | 0, index => pure index
  | n + 1, index => do
    let (algoid, index) ← .lift (blob.getUint16 index)
    let self ← .get
    let header ← .lift (.ofOption .attributeError self.specidHeader)
    let digestSize ← .lift (.ofOption .assertionError (get? header.digestSizes algoid))
    .modify (fun self => { self with algorithmsId := algoid })
    let (digestData, index) ← .lift (blob.unpackBytes index digestSize)
    .modify (fun self => { self with digests := self.digests ++ [digestData] })
    parseDigests blob n index

theorem parseDigests_le {blob : BinaryBlob} {n index i : Nat} {self self' : TDEventLogEntry}
    (h : parseDigests blob n index self = (.ok i, self')) : index ≤ i := by
  induction n generalizing index self with
  | zero =>
    cases h
    exact Nat.le_refl _
  | succ n ih =>
    obtain ⟨⟨algoid, i1⟩, h1, h⟩ := Py.lift_bind_eq_ok.mp h
    dsimp only at h
    rw [Py.get_bind_apply] at h
    obtain ⟨header, -, h⟩ := Py.lift_bind_eq_ok.mp h
    obtain ⟨digestSize, -, h⟩ := Py.lift_bind_eq_ok.mp h
    rw [Py.modify_bind_apply] at h
    obtain ⟨⟨digestData, i2⟩, h2, h⟩ := Py.lift_bind_eq_ok.mp h
    have hle := ih h
    have e1 := (BinaryBlob.getUint_eq_ok h1).2.2
    have e2 := (BinaryBlob.unpackBytes_eq_ok h2).2.2.2
    omega

def parse (data : Bytes) : Py TDEventLogEntry Nat := do
  let (blob, index) ← .within toTDEventLogBase
    (fun base self => { self with toTDEventLogBase := base }) (TDEventLogBase.parseHeader data)
  let self ← .get
  let index ← parseDigests blob self.digestCount index
  let (eventSize, index) ← .lift (blob.getUint32 index)
  .modify (fun self => { self with eventSize })
  let (event, index) ← .lift (blob.unpackBytes index eventSize)
  .modify (fun self => { self with event := some event })
  .modify (fun self => { self with length := index, data := some (data.take index) })
  pure index

theorem parse_length {data : Bytes} {self self' : TDEventLogEntry} {i : Nat}
    (h : parse data self = (.ok i, self')) :
    self'.length = i ∧ self'.data = some (data.take i) ∧ 16 ≤ i := by
  obtain ⟨⟨blob, i0⟩, base, hh, h⟩ := Py.within_bind_eq_ok.mp h
  obtain ⟨-, rfl, -⟩ := TDEventLogBase.parseHeader_eq_ok hh
  dsimp only at h
  rw [Py.get_bind_apply] at h
  obtain ⟨i1, s1, h1, h⟩ := Py.bind_eq_ok.mp h
  obtain ⟨⟨eventSize, i2⟩, h2, h⟩ := Py.lift_bind_eq_ok.mp h
  dsimp only at h
  rw [Py.modify_bind_apply] at h
  obtain ⟨⟨event, i3⟩, h3, h⟩ := Py.lift_bind_eq_ok.mp h
  have e1 := parseDigests_le h1
  have e2 := (BinaryBlob.getUint_eq_ok h2).2.2
  have e3 := (BinaryBlob.unpackBytes_eq_ok h3).2.2.2
  cases h
  exact ⟨rfl, rfl, by omega⟩

theorem parseDigests_halts (blob : BinaryBlob) (n index : Nat) :
    (parseDigests blob n index).Halts := by
  induction n generalizing index with
  | zero => exact .pure _
  | succ n ih =>
    apply Py.Halts.bind (.lift (BinaryBlob.getUint_halts _ _ _))
    intro a
    apply Py.Halts.bind .get
    intro self
    apply Py.Halts.bind (.lift (Outcome.ofOption_ne_running _ _))
    intro header
    apply Py.Halts.bind (.lift (Outcome.ofOption_ne_running _ _))
    intro digestSize
    apply Py.Halts.bind (.modify _)
    intro _
    apply Py.Halts.bind (.lift (BinaryBlob.unpackBytes_halts _ _ _))
    intro b
    exact .bind (.modify _) (fun _ => ih _)

theorem parse_halts (data : Bytes) : (parse data).Halts := by
  apply Py.Halts.bind (.within (TDEventLogBase.parseHeader_halts data))
  intro a
  apply Py.Halts.bind .get
  intro self
  apply Py.Halts.bind (parseDigests_halts _ _ _)
  intro index
  apply Py.Halts.bind (.lift (BinaryBlob.getUint_halts _ _ _))
  intro b
  apply Py.Halts.bind (.modify _)
  intro _
  apply Py.Halts.bind (.lift (BinaryBlob.unpackBytes_halts _ _ _))
  intro c
  apply Py.Halts.bind (.modify _)
  intro _
  exact .bind (.modify _) (fun _ => .pure _)

end TDEventLogEntry

end TdxTools.Attestation.EventLog
