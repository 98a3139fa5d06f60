import TdxTools.Python.Table
import TdxTools.VarEnroll.Variable

namespace TdxTools.VarEnroll.Store

open Python.ByteString Python.Exec Python.Struct Python.Text Python.Files Python.Table
open Guid Variable

def volumeFmt : List Fmt :=
  [.raw 16, .raw 16, .uint 8, .raw 4, .uint 4, .uint 2, .uint 2, .uint 2, .raw 1, .uint 1]

/-- EFI_FIRMWARE_VOLUME_HEADER of the volume that holds the variables. -/
structure FirmwareVolume where
  rsvd : Bytes
  guid : Bytes
  size : Nat
  magic : Bytes
  attributes : Nat
  hdrlen : Nat
  checksum : Nat
  extHeaderOffset : Nat
  rsvd2 : Bytes
  revision : Nat
  deriving DecidableEq, Repr

namespace FirmwareVolume

def headerSize : Nat := 0x38
def magicFvh : Bytes := [0x5f, 0x46, 0x56, 0x48]
def nvram : Str := "fff12b8d-7696-4c8b-a985-2747075b4f50".toList

def ofVals (v : Vals volumeFmt) : FirmwareVolume :=
  ⟨v.1, v.2.1, v.2.2.1, v.2.2.2.1, v.2.2.2.2.1, v.2.2.2.2.2.1, v.2.2.2.2.2.2.1, v.2.2.2.2.2.2.2.1,
    v.2.2.2.2.2.2.2.2.1, v.2.2.2.2.2.2.2.2.2.1⟩

/-- `FirmwareVolume(data)`; `none` is an object whose `valid_header` stays
false. The name of a valid one is always NVRAM. -/
def init (data : Bytes) : Option FirmwareVolume :=
  match unpack volumeFmt (data.take headerSize) with
  | none => none
  | some v =>
    let volume := ofVals v
    if volume.magic = magicFvh ∧ guid2str volume.guid = nvram then some volume else none

end FirmwareVolume

namespace EfiVariableAttributes

def NON_VOLATILE : Nat := 0x1
def BOOTSERVICE_ACCESS : Nat := 0x2
def RUNTIME_ACCESS : Nat := 0x4
def TIMEBASED_AUTH_WRITE_ACCESS : Nat := 0x20

end EfiVariableAttributes

inductive StoreType
  | normal
  | authenticated
  | timeBasedAuthenticated
  | unknown
  deriving DecidableEq, Repr

structure VariableStore where
  offsetInFd : Nat
  signature : Bytes
  size : Nat
  format : Nat
  state : Nat
  rsvd : Nat
  rsvd1 : Nat
  rawData : Bytes
  type : StoreType
  varsList : List VariableTimeBasedAuth
  varsSize : Nat
  deriving DecidableEq, Repr

namespace VariableStore

def efiVariableGuid : Str := "ddcf3616-3275-4164-98b6-fe85707ffe7d".toList
def efiAuthenticatedVariableBasedTimeGuid : Str := "aaf32c78-947b-439a-a180-2e144ec37792".toList
def efiAuthenticatedVariableGuid : Str := "515fa686-b06e-4550-9112-382bf1067bfb".toList
def headerSize : Nat := 28

def storeFmt : List Fmt := [.raw 16, .uint 4, .uint 1, .uint 1, .uint 2, .uint 4]

def checkType (signature : Bytes) : StoreType × Bool :=
  let strGuid := guid2str signature
  if strGuid = efiVariableGuid then (.normal, false)
  else if strGuid = efiAuthenticatedVariableGuid then (.authenticated, false)
  else if strGuid = efiAuthenticatedVariableBasedTimeGuid then (.timeBasedAuthenticated, true)
  else (.unknown, false)

/-- `VariableStore(firware_volume, offset_in_fd)` and its `valid_header`;
`none` is an object that has no such attribute because the header was too
short. `raw` is the `raw_data` of the volume. -/
def init (volume : FirmwareVolume) (raw : Bytes) (offsetInFd : Nat) :
    Option (VariableStore × Bool) :=
  match unpack storeFmt (slice raw volume.hdrlen (volume.hdrlen + headerSize)) with
  | none => none
  | some (signature, size, format, state, rsvd, rsvd1, _) =>
    let (type, supported) := checkType signature
    some ({ offsetInFd := offsetInFd + volume.hdrlen, signature, size, format, state, rsvd, rsvd1
            rawData := raw.drop volume.hdrlen, type, varsList := [], varsSize := 0 }, supported)

/-- The test by which a variable is looked up. -/
def isVar (name vendorGuid : Str) (var : VariableTimeBasedAuth) : Bool :=
  var.nameBlob == str2blob name && var.vendorGuidStr == lower vendorGuid

def findVarInList (self : VariableStore) (name vendorGuid : Str) : Option VariableTimeBasedAuth :=
  self.varsList.find? (isVar name vendorGuid)

def delVariable (self : VariableStore) (name vendorGuid : Str) : Bool × VariableStore :=
  if self.varsList.any (isVar name vendorGuid) then
    (true, { self with varsList := self.varsList.eraseP (isVar name vendorGuid) })
  else (false, self)

/-- `attributes & TIMEBASED_AUTH_WRITE_ACCESS`, negative numbers included. -/
def timeBased (attributes : Int) : Bool :=
  attributes / EfiVariableAttributes.TIMEBASED_AUTH_WRITE_ACCESS % 2 ≠ 0

/-- The time stamp a variable gets; `now` is what `EfiTime.now()` gives. -/
def stampFor (now : EfiTime) (attributes : Int) (timeStamp : Option EfiTime) : EfiTime :=
  match timeStamp with
  | some t => t
  | none => if timeBased attributes then now else .zero

def addVariable (now : EfiTime) (self : VariableStore) (name vendorGuid : Str) (attributes : Int)
    (timeStamp : Option EfiTime) (buffer : Bytes) (size : Int) (append : Bool) :
    Outcome VariableStore :=
  let timeStamp := stampFor now attributes timeStamp
  match self.findVarInList name vendorGuid with
  | some _ =>
    let hit := self.varsList.findIdx (isVar name vendorGuid)
    let update := fun var : VariableTimeBasedAuth =>
      var.update attributes timeStamp buffer size append
    .ok { self with varsList := self.varsList.modify hit update }
  | none => do
    let guid ← str2guid (some vendorGuid)
    let nameBlob := str2blob name
    .ok { self with varsList := self.varsList ++
            [{ attributes, timeStampBlob := timeStamp.blob, nameSize := nameBlob.length
               dataSize := size, vendorGuid := guid
               fullSize := size + nameBlob.length + HEADER_SIZE
               vendorGuidStr := lower vendorGuid, name, nameBlob, data := buffer }] }

section AddVariable

variable {now : EfiTime} {self self' : VariableStore} {name vendorGuid : Str}
  {attributes size : Int} {timeStamp : Option EfiTime} {buffer : Bytes} {append : Bool}

/-- The store with the variable brought up to date that is looked up first. -/
abbrev renew (self : VariableStore) (name vendorGuid : Str) (attributes : Int)
    (timeStamp : EfiTime) (buffer : Bytes) (size : Int) (append : Bool) : VariableStore :=
  { self with varsList := self.varsList.modify (self.varsList.findIdx (isVar name vendorGuid))
                (fun var => var.update attributes timeStamp buffer size append) }

/-- The variable that is made when none is found. -/
abbrev fresh (name vendorGuid : Str) (attributes : Int) (timeStamp : EfiTime) (buffer : Bytes)
    (size : Int) (guid : Bytes) : VariableTimeBasedAuth :=
  { attributes, timeStampBlob := timeStamp.blob, nameSize := (str2blob name).length
    dataSize := size, vendorGuid := guid
    fullSize := size + (str2blob name).length + HEADER_SIZE
    vendorGuidStr := lower vendorGuid, name, nameBlob := str2blob name, data := buffer }

theorem addVariable_hit {x : VariableTimeBasedAuth}
    (h : self.findVarInList name vendorGuid = some x) :
    self.addVariable now name vendorGuid attributes timeStamp buffer size append =
      .ok (self.renew name vendorGuid attributes (stampFor now attributes timeStamp) buffer size
        append) := by
  rw [addVariable, h]

theorem addVariable_miss {guid : Bytes} (h : self.findVarInList name vendorGuid = none)
    (hguid : str2guid (some vendorGuid) = .ok guid) :
    self.addVariable now name vendorGuid attributes timeStamp buffer size append =
      .ok { self with varsList := self.varsList ++
        [fresh name vendorGuid attributes (stampFor now attributes timeStamp) buffer size guid] } := by
  rw [addVariable, h]
  dsimp only
  rw [hguid]
  rfl

/-- What a call of `add_variable` that returns has done. -/
theorem addVariable_cases
    (h : self.addVariable now name vendorGuid attributes timeStamp buffer size append = .ok self') :
    (∃ x, self.findVarInList name vendorGuid = some x ∧ self' =
      self.renew name vendorGuid attributes (stampFor now attributes timeStamp) buffer size append) ∨
    (self.findVarInList name vendorGuid = none ∧ ∃ guid, str2guid (some vendorGuid) = .ok guid ∧
      self' = { self with varsList := self.varsList ++
        [fresh name vendorGuid attributes (stampFor now attributes timeStamp) buffer size guid] }) := by
  cases hfind : self.findVarInList name vendorGuid with
  | some x =>
    rw [addVariable_hit hfind] at h
    exact Or.inl ⟨x, rfl, (Outcome.ok.inj h).symm⟩
  | none =>
    rw [addVariable, hfind] at h
    obtain ⟨guid, hguid, h⟩ := Outcome.bind_eq_ok.mp h
    exact Or.inr ⟨rfl, guid, hguid, (Outcome.ok.inj h).symm⟩

/-- After `add_variable` each variable is an old one, an old one brought up to
date, or the new one. -/
theorem forall_of_addVariable {p : VariableTimeBasedAuth → Prop}
    (h : self.addVariable now name vendorGuid attributes timeStamp buffer size append = .ok self')
    (hold : ∀ v ∈ self.varsList, p v)
    (hupdate : ∀ v ∈ self.varsList,
      p (v.update attributes (stampFor now attributes timeStamp) buffer size append))
    (hnew : ∀ guid, str2guid (some vendorGuid) = .ok guid →
      p (fresh name vendorGuid attributes (stampFor now attributes timeStamp) buffer size guid)) :
    ∀ v ∈ self'.varsList, p v := by
  obtain ⟨x, hx, rfl⟩ | ⟨-, guid, hguid, rfl⟩ := addVariable_cases h
  · apply (forall_modify_findIdx hx hold _).mpr
    exact hupdate x (List.mem_of_find?_eq_some hx)
  · apply (forall_append_singleton hold).mpr
    exact hnew guid hguid

end AddVariable

/-- The variables one after the other, each filled up to a multiple of four. -/
def varsBlob : List VariableTimeBasedAuth → Outcome Bytes
  | [] => .ok []
  | var :: vars => do
    let vbin ← var.blob
    let rest ← varsBlob vars
    .ok (vbin ++ List.replicate (alignBy4 vbin.length - vbin.length) 0xff ++ rest)

theorem varsBlob_iff {vars : List VariableTimeBasedAuth} :
    (∃ b, varsBlob vars = .ok b) ↔ ∀ v ∈ vars, v.InFields := by
  induction vars with
  | nil => simp [varsBlob]
  | cons v vars ih =>
    rw [List.forall_mem_cons, ← ih, ← VariableTimeBasedAuth.blob_iff]
    constructor
    · rintro ⟨b, hb⟩
      obtain ⟨vbin, hv, hb⟩ := Outcome.bind_eq_ok.mp hb
      obtain ⟨rest, hrest, -⟩ := Outcome.bind_eq_ok.mp hb
      exact ⟨⟨vbin, hv⟩, rest, hrest⟩
    · rintro ⟨⟨vbin, hv⟩, rest, hrest⟩
      rw [varsBlob, hv, hrest]
      exact ⟨_, rfl⟩

/-- The FD that `sync_to_file` writes. The region to clear ends at
`vars_start + size`, which is the offset of the store plus its `Size`. -/
def syncBuffer (self : VariableStore) (fdData : Bytes) : Outcome Bytes := do
  let varsStart := self.offsetInFd + headerSize
  let cleared := setSlice fdData varsStart (self.offsetInFd + self.size)
    (List.replicate (self.size - headerSize) 0xff)
  let blob ← varsBlob self.varsList
  if blob.length > 0 then .ok (setSlice cleared varsStart (varsStart + blob.length) blob)
  else .ok cleared

def syncToFile (env : Env) (self : VariableStore) (fdData : Bytes) (outputFile : Str) :
    Py World Bool := do
  let buffer ← Py.lift (self.syncBuffer fdData)
  Py.tryExcept (do writeFile env outputFile buffer; pure true) (fun _ => pure false)

structure ReadState where
  begin : Nat
  vars : List VariableTimeBasedAuth

/-- One turn of the loop over the variable region. -/
def readTurn (self : VariableStore) (s : ReadState) : Turn ReadState :=
  if s.begin < self.size then
    match unpack [.uint 2] (slice self.rawData s.begin (s.begin + 2)) with
    | none => .raise .structError s
    | some (sig, _) =>
      if sig ≠ VAR_START_ID then .stop s
      else
        match VariableHeader.init (slice self.rawData s.begin (s.begin + HEADER_SIZE)) with
        | none => .stop s
        | some header =>
          let rawData := slice self.rawData s.begin (s.begin + header.fullSize)
          let begin := alignBy4 (s.begin + header.fullSize)
          if header.state ≠ VAR_ADDED then .next { s with begin }
          else
            match VariableTimeBasedAuth.parseBody header rawData with
            | .ok var => .next { begin, vars := s.vars ++ [var] }
            | .raised e => .raise e { s with begin }
            | .running => .stop s
  else .stop s

section ReadTurn

variable {self : VariableStore} {s : ReadState} {header : VariableHeader}

theorem readTurn_dead (hlt : s.begin < self.size)
    (hsig : unpack [.uint 2] (slice self.rawData s.begin (s.begin + 2)) = some (VAR_START_ID, ()))
    (hheader : VariableHeader.init (slice self.rawData s.begin (s.begin + HEADER_SIZE)) = some header)
    (hstate : header.state ≠ VAR_ADDED) :
    self.readTurn s = .next { s with begin := alignBy4 (s.begin + header.fullSize) } := by
  rw [readTurn, if_pos hlt, hsig]
  dsimp only
  rw [if_neg (not_not_intro rfl), hheader]
  exact if_pos hstate

theorem readTurn_live {var : VariableTimeBasedAuth} (hlt : s.begin < self.size)
    (hsig : unpack [.uint 2] (slice self.rawData s.begin (s.begin + 2)) = some (VAR_START_ID, ()))
    (hheader : VariableHeader.init (slice self.rawData s.begin (s.begin + HEADER_SIZE)) = some header)
    (hstate : header.state = VAR_ADDED)
    (hbody : VariableTimeBasedAuth.parseBody header
      (slice self.rawData s.begin (s.begin + header.fullSize)) = .ok var) :
    self.readTurn s =
      .next { begin := alignBy4 (s.begin + header.fullSize), vars := s.vars ++ [var] } := by
  rw [readTurn, if_pos hlt, hsig]
  dsimp only
  rw [if_neg (not_not_intro rfl), hheader]
  dsimp only
  rw [if_neg (not_not_intro hstate), hbody]

theorem readTurn_past (h : self.size ≤ s.begin) : self.readTurn s = .stop s := by
  rw [readTurn, if_neg (Nat.not_lt.mpr h)]

theorem readTurn_foreign {sig : Nat} (hlt : s.begin < self.size)
    (hsig : unpack [.uint 2] (slice self.rawData s.begin (s.begin + 2)) = some (sig, ()))
    (hne : sig ≠ VAR_START_ID) : self.readTurn s = .stop s := by
  rw [readTurn, if_pos hlt, hsig]
  exact if_pos hne

end ReadTurn

/-- The cursor moves by a whole header at least. -/
theorem readTurn_advances (self : VariableStore) (s s' : ReadState)
    (h : self.readTurn s = .next s') :
    s.begin < self.size ∧ s.begin + HEADER_SIZE ≤ s'.begin := by
  unfold readTurn at h
  split at h
  · next hb =>
    refine ⟨hb, ?_⟩
    have full : ∀ header : VariableHeader,
        s.begin + HEADER_SIZE ≤ alignBy4 (s.begin + header.fullSize) := fun header => by
      have hle := le_alignBy4 (s.begin + header.fullSize)
      rw [VariableHeader.fullSize] at hle ⊢
      omega
    split at h
    · cases h
    · split at h
      · cases h
      · split at h
        · cases h
        · split at h
          · cases h; exact full _
          · dsimp only at h
            split at h
            · cases h; exact full _
            · cases h
            · cases h
  · cases h

def readLoop (self : VariableStore) : Loop ReadState where
  turn := self.readTurn
  variant s := self.size - s.begin
  decreases s s' h := by
    have ha := self.readTurn_advances s s' h
    simp only [HEADER_SIZE] at ha
    omega

def syncToVarsList (self : VariableStore) : Outcome VariableStore :=
  match self.readLoop.run { begin := headerSize, vars := self.varsList } with
  | (.ok (), s) => .ok { self with varsList := s.vars, varsSize := s.begin - headerSize }
  | (.raised e, _) => .raised e
  | (.running, _) => .running

end VariableStore

open VariableStore

/-- `volume` is what the variable `firware_volume` holds: nothing yet, an
object with an invalid header, or a valid volume. -/
structure SearchState where
  offset : Nat
  volume : Option (Option FirmwareVolume)

/-- The walk through the FD never moves its offset. -/
def searchTurn (inputData : Bytes) (s : SearchState) : Turn SearchState :=
  if s.offset < inputData.length then
    match FirmwareVolume.init (slice inputData s.offset (s.offset + 128)) with
    | some volume => .stop { s with volume := some (some volume) }
    | none => .next { s with volume := some none }
  else .stop s

def findVarInfo (fuel : Nat) (inputData : Bytes) : Outcome (Option VariableStore) :=
  match iterate (searchTurn inputData) fuel { offset := 0, volume := none } with
  | (.running, _) => .running
  | (.raised e, _) => .raised e
  | (.ok (), s) =>
    match s.volume with
    | none => .raised .attributeError
    | some none => .ok none
    | some (some volume) =>
      match VariableStore.init volume (slice inputData s.offset (s.offset + volume.size)) s.offset with
      | none => .raised .attributeError
      | some (store, supported) =>
        if supported then do
          let store ← store.syncToVarsList
          .ok (some store)
        else .ok none

end TdxTools.VarEnroll.Store
