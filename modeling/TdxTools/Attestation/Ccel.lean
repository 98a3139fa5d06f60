import TdxTools.Attestation.Actor

namespace TdxTools.Attestation.Ccel

open Python.ByteString Python.Exec Blob Actor

/-- The ACPI table that says where the event log is. -/
structure CCEL extends BinaryBlob
  deriving DecidableEq, Repr

/-- `b'CCEL'`. -/
def SIGNATURE : Bytes := [0x43, 0x43, 0x45, 0x4c]

namespace CCEL

def revision (self : CCEL) : Outcome Nat := do
  let (revision, _) ← self.getUint8 8
  .ok revision

def checksum (self : CCEL) : Outcome Nat := do
  let (checksum, _) ← self.getUint8 9
  .ok checksum

def oemId (self : CCEL) : Outcome Bytes := do
  let (oemId, _) ← self.unpackBytes 10 6
  .ok oemId

def ccType (self : CCEL) : Outcome Nat := do
  let (ccType, _) ← self.getUint8 36
  .ok ccType

def ccSubtype (self : CCEL) : Outcome Nat := do
  let (ccSubtype, _) ← self.getUint8 37
  .ok ccSubtype

def logAreaMinimumLength (self : CCEL) : Outcome Nat := do
  let (laml, _) ← self.getUint64 40
  .ok laml

def logAreaStartAddress (self : CCEL) : Outcome Nat := do
  let (lasa, _) ← self.getUint64 48
  .ok lasa

/-- The length is compared with the first of the four bytes of the length field. -/
def isValid (self : CCEL) : Outcome Bool :=
  if self.length > 0 then
    if slice self.data 0 4 = SIGNATURE then do
      let length ← .ofOption .indexError self.data[4]?
      .ok (self.length = length.toNat)
    else .ok false
  else .ok false

def createFromAcpiFile (acpiFile : CcelFile) : Outcome (Option CCEL) :=
  match acpiFile with
  | .missing => .ok none
  | .unreadable => .ok none
  | .content data =>
    if data.length > 0 ∧ slice data 0 4 = SIGNATURE then .ok (some { data, baseAddress := 0 })
    else .raised .assertionError

end CCEL

/-- A table as ACPI lays it out. `creator` are the 20 bytes from the OEM table
ID to the creator revision, and more bytes may follow the log address. -/
structure CcelTable where
  revision : Nat
  checksum : Nat
  oemId : Bytes
  creator : Bytes
  ccType : Nat
  ccSubtype : Nat
  reserved : Bytes
  laml : Nat
  lasa : Nat
  rest : Bytes
  revision_lt : revision < 2 ^ 8
  checksum_lt : checksum < 2 ^ 8
  oemId_length : oemId.length = 6
  creator_length : creator.length = 20
  ccType_lt : ccType < 2 ^ 8
  ccSubtype_lt : ccSubtype < 2 ^ 8
  reserved_length : reserved.length = 2
  laml_lt : laml < 2 ^ 64
  lasa_lt : lasa < 2 ^ 64
  rest_length : 56 + rest.length < 2 ^ 32

namespace CcelTable

variable (table : CcelTable)

def length : Nat := 56 + table.rest.length

def header : Bytes :=
  SIGNATURE ++ leBytes 4 table.length ++ leBytes 1 table.revision ++ leBytes 1 table.checksum ++
    table.oemId ++ table.creator

def encode : Bytes :=
  table.header ++ leBytes 1 table.ccType ++ leBytes 1 table.ccSubtype ++ table.reserved ++
    leBytes 8 table.laml ++ leBytes 8 table.lasa ++ table.rest

theorem length_header : table.header.length = 36 := by
  simp [header, SIGNATURE, table.oemId_length, table.creator_length]

theorem length_encode : table.encode.length = table.length := by
  simp only [encode, List.length_append, table.length_header, length_leBytes, table.reserved_length,
    length]

/-- The object that is made of the table. -/
def ccel : CCEL := { data := table.encode, baseAddress := 0 }

theorem createFromAcpiFile_encode :
    CCEL.createFromAcpiFile (.content table.encode) = .ok (some table.ccel) := by
  have hsignature : slice table.encode 0 4 = SIGNATURE := rfl
  have hpos : table.encode.length > 0 := by
    rw [length_encode, length]
    omega
  rw [CCEL.createFromAcpiFile, if_pos ⟨hpos, hsignature⟩]
  rfl

theorem revision_ccel : table.ccel.revision = .ok table.revision := by
  have hread : table.ccel.getUint8 8 = .ok (table.revision, 9) :=
    BinaryBlob.getUint_at (SIGNATURE ++ leBytes 4 table.length) _ 0
      (by simp only [encode, header, List.append_assoc]; rfl) rfl table.revision_lt
  rw [CCEL.revision, hread]
  rfl

theorem checksum_ccel : table.ccel.checksum = .ok table.checksum := by
  have hread : table.ccel.getUint8 9 = .ok (table.checksum, 10) :=
    BinaryBlob.getUint_at (SIGNATURE ++ leBytes 4 table.length ++ leBytes 1 table.revision) _ 0
      (by simp only [encode, header, List.append_assoc]; rfl) rfl table.checksum_lt
  rw [CCEL.checksum, hread]
  rfl

theorem oemId_ccel : table.ccel.oemId = .ok table.oemId := by
  have hne : table.oemId ≠ [] := by
    rw [← List.length_pos_iff, table.oemId_length]
    decide
  have hread : table.ccel.unpackBytes 10 6 = .ok (table.oemId, 10 + table.oemId.length) :=
    BinaryBlob.unpackBytes_at (SIGNATURE ++ leBytes 4 table.length ++ leBytes 1 table.revision ++
      leBytes 1 table.checksum) _ 0 (by simp only [encode, header, List.append_assoc]; rfl) rfl
      table.oemId_length.symm hne
  rw [CCEL.oemId, hread]
  rfl

theorem ccType_ccel : table.ccel.ccType = .ok table.ccType := by
  have hread : table.ccel.getUint8 36 = .ok (table.ccType, 37) :=
    BinaryBlob.getUint_at table.header _ 0 (by simp only [encode, List.append_assoc]; rfl)
      table.length_header.symm table.ccType_lt
  rw [CCEL.ccType, hread]
  rfl

theorem ccSubtype_ccel : table.ccel.ccSubtype = .ok table.ccSubtype := by
  have hread : table.ccel.getUint8 37 = .ok (table.ccSubtype, 38) :=
    BinaryBlob.getUint_at (table.header ++ leBytes 1 table.ccType) _ 0
      (by simp only [encode, List.append_assoc]; rfl) (by simp [length_header]) table.ccSubtype_lt
  rw [CCEL.ccSubtype, hread]
  rfl

theorem logAreaMinimumLength_ccel : table.ccel.logAreaMinimumLength = .ok table.laml := by
  have hread : table.ccel.getUint64 40 = .ok (table.laml, 48) :=
    BinaryBlob.getUint_at
      (table.header ++ leBytes 1 table.ccType ++ leBytes 1 table.ccSubtype ++ table.reserved) _ 0
      (by simp only [encode, List.append_assoc]; rfl) (by simp [length_header, table.reserved_length])
      table.laml_lt
  rw [CCEL.logAreaMinimumLength, hread]
  rfl

theorem logAreaStartAddress_ccel : table.ccel.logAreaStartAddress = .ok table.lasa := by
  have hread : table.ccel.getUint64 48 = .ok (table.lasa, 56) :=
    BinaryBlob.getUint_at
      (table.header ++ leBytes 1 table.ccType ++ leBytes 1 table.ccSubtype ++ table.reserved ++
        leBytes 8 table.laml) _ 0
      (by simp only [encode, List.append_assoc]; rfl) (by simp [length_header, table.reserved_length])
      table.lasa_lt
  rw [CCEL.logAreaStartAddress, hread]
  rfl

theorem isValid_ccel : table.ccel.isValid = .ok (table.length < 256) := by
  have hpos : table.ccel.length > 0 := by
    rw [BinaryBlob.length, ccel, length_encode, length]
    omega
  have hsignature : slice table.ccel.data 0 4 = SIGNATURE := rfl
  have hbyte : table.ccel.data[4]? = some (UInt8.ofNat table.length) := rfl
  rw [CCEL.isValid, if_pos hpos, if_pos hsignature, hbyte, Outcome.ofOption_some, Outcome.ok_bind]
  apply congrArg
  apply decide_eq_decide.mpr
  rw [BinaryBlob.length, ccel, length_encode, UInt8.toNat_ofNat']
  omega

end CcelTable

/-- A CCEL table is read back field by field. It is called valid exactly when
it is shorter than 256 bytes, the longest that one length byte can tell. -/
theorem ccel_codec (table : CcelTable) : ∃ ccel,
    CCEL.createFromAcpiFile (.content table.encode) = .ok (some ccel) ∧
      ccel.revision = .ok table.revision ∧ ccel.checksum = .ok table.checksum ∧
      ccel.oemId = .ok table.oemId ∧ ccel.ccType = .ok table.ccType ∧
      ccel.ccSubtype = .ok table.ccSubtype ∧ ccel.logAreaMinimumLength = .ok table.laml ∧
      ccel.logAreaStartAddress = .ok table.lasa ∧
      (ccel.isValid = .ok true ↔ table.length < 256) := by
  refine ⟨table.ccel, table.createFromAcpiFile_encode, table.revision_ccel, table.checksum_ccel,
    table.oemId_ccel, table.ccType_ccel, table.ccSubtype_ccel, table.logAreaMinimumLength_ccel,
    table.logAreaStartAddress_ccel, ?_⟩
  rw [table.isValid_ccel, Outcome.ok.injEq, decide_eq_true_iff]

end TdxTools.Attestation.Ccel
