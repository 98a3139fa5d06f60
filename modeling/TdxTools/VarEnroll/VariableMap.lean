import TdxTools.Python.Table
import TdxTools.VarEnroll.Codec
import TdxTools.VarEnroll.Enroll

namespace TdxTools.VarEnroll.VariableMap

open Python.ByteString Python.Exec Python.Struct Python.Text Python.Files Python.Table
open Guid Variable Store Codec Enroll

/-- What a variable is known by: the bytes of its name and its vendor GUID. -/
abbrev Key := Bytes × Bytes

structure Entry where
  state : Nat
  rsvd : Nat
  count : Nat
  pkIndex : Nat
  attributes : Int
  timeStamp : Bytes
  data : Bytes
  deriving DecidableEq, Repr

/-- What the store is for. -/
abbrev Variables := Key → Option Entry

/-- The fields of an entry have room in the header of a record. -/
def Storable (k : Key) (e : Entry) : Prop :=
  0 ≤ e.attributes ∧ e.attributes < 2 ^ 32 ∧ k.1.length < 2 ^ 32 ∧ e.data.length < 2 ^ 32

instance (k : Key) (e : Entry) : Decidable (Storable k e) := inferInstanceAs (Decidable (_ ∧ _))

/-- The value written: it overwrites the old data or is appended to it. -/
structure Value where
  attributes : Int
  timeStamp : Bytes
  data : Bytes
  append : Bool
  deriving DecidableEq, Repr

def Value.over (value : Value) : Option Entry → Entry
  | some old =>
    { old with attributes := value.attributes, timeStamp := value.timeStamp
               data := if value.append then old.data ++ value.data else value.data }
  | none =>
    { state := VAR_ADDED, rsvd := 0, count := 0, pkIndex := 0, attributes := value.attributes
      timeStamp := value.timeStamp, data := value.data }

inductive Edit
  | write (key : Key) (value : Value)
  | erase (key : Key)
  deriving DecidableEq, Repr

def Edit.key : Edit → Key
  | write key _ => key
  | erase key => key

/-- An entry that has no room in its header is refused. -/
def Edit.apply (m : Variables) : Edit → Variables
  | write key value =>
    if Storable key (value.over (m key)) then
      Function.update m key (some (value.over (m key)))
    else m
  | erase key => Function.update m key none

/-- Variables with other keys stay as they are. -/
theorem Edit.apply_of_ne (m : Variables) (edit : Edit) (k : Key) (h : k ≠ edit.key) :
    edit.apply m k = m k := by
  cases edit with
  | write key value =>
    rw [Edit.apply]
    split
    · exact Function.update_of_ne h _ _
    · rfl
  | erase key => exact Function.update_of_ne h _ _

/-- What a run that is refused leaves. -/
def applyOption (m : Variables) (edit : Option Edit) : Variables :=
  edit.elim m (Edit.apply m)

def x509Bytes : Bytes :=
  [0xa1, 0x59, 0xc0, 0xa5, 0xe4, 0x94, 0xa7, 0x4a, 0x87, 0xb5, 0xab, 0x15, 0x5c, 0x2b, 0xf0, 0x72]

def globalBytes : Bytes :=
  [0x61, 0xdf, 0xe4, 0x8b, 0xca, 0x93, 0xd2, 0x11, 0xaa, 0x0d, 0x00, 0xe0, 0x98, 0x03, 0x2b, 0x8c]

def imageBytes : Bytes :=
  [0xcb, 0xb2, 0x19, 0xd7, 0x3a, 0x3d, 0x96, 0x45, 0xa3, 0xbc, 0xda, 0xd0, 0x0e, 0x67, 0x65, 0x6f]

/-- The bytes enrolled for a certificate; there are none for one too long. -/
def signatureList (owner cert : Bytes) : Option Bytes :=
  if cert.length + 44 < 2 ^ 32 then
    some (x509Bytes ++ leBytes 4 (cert.length + 44) ++ leBytes 4 0 ++ leBytes 4 (cert.length + 16) ++
      (owner ++ cert))
  else none

/-- The key of a certificate by the name given, in any case of letters. -/
def certKey (name : Str) : Option Key :=
  if lower name = "pk".toList then some (str2blob "PK".toList, globalBytes)
  else if lower name = "kek".toList then some (str2blob "KEK".toList, globalBytes)
  else if lower name = "db".toList then some (str2blob "db".toList, imageBytes)
  else none

def dbxKey : Key := (str2blob "dbx".toList, imageBytes)

/-- The value a data file gives a variable. The GUID is the owner of a
certificate and the vendor of any other variable. -/
def contentEdit (now : EfiTime) (name : Str) (guid : Bytes) (attributes : Option Str)
    (append : Bool) (data : Bytes) : Option Edit :=
  match certKey name with
  | some key =>
    if lower name = "pk".toList ∧ append = true then none
    else (signatureList guid data).map fun list =>
      .write key { attributes := keyAttributes, timeStamp := now.blob, data := list, append }
  | none =>
    if lower name = "dbx".toList then
      if data.length < 20 then none
      else some (.write dbxKey
        { attributes := keyAttributes, timeStamp := data.take 16
          data := data.drop (leNat (slice data 16 20) + 16), append })
    else (attributes.bind int16).map fun attr =>
      .write (str2blob name, guid)
        { attributes := attr, timeStamp := (VariableStore.stampFor now attr none).blob, data, append }

section ContentEdit

variable {now : EfiTime} {name : Str} {guid : Bytes} {attributes : Option Str} {append : Bool}

theorem contentEdit_cert {key : Key} (h : certKey name = some key)
    (hpk : ¬ (lower name = "pk".toList ∧ append = true)) :
    contentEdit now name guid attributes append = fun data =>
      (signatureList guid data).map fun list => .write key
        { attributes := keyAttributes, timeStamp := now.blob, data := list, append } := by
  funext data
  simp only [contentEdit, h]
  rw [if_neg hpk]

theorem contentEdit_pk (hpk : lower name = "pk".toList) :
    contentEdit now name guid attributes true = fun _ => none := by
  funext data
  have h : certKey name = some (str2blob "PK".toList, globalBytes) := if_pos hpk
  simp only [contentEdit, h]
  rw [if_pos ⟨hpk, trivial⟩]

theorem contentEdit_dbx (h : lower name = "dbx".toList) :
    contentEdit now name guid attributes append = fun data =>
      if data.length < 20 then none
      else some (.write dbxKey
        { attributes := keyAttributes, timeStamp := data.take 16
          data := data.drop (leNat (slice data 16 20) + 16), append }) := by
  funext data
  have hc : certKey name = none := by
    rw [certKey, h]
    decide
  simp only [contentEdit, hc]
  rw [if_pos h]

theorem contentEdit_other {attr : Int} (hc : certKey name = none) (h : lower name ≠ "dbx".toList)
    (hattr : attributes.bind int16 = some attr) :
    contentEdit now name guid attributes append = fun data =>
      some (.write (str2blob name, guid)
        { attributes := attr, timeStamp := (VariableStore.stampFor now attr none).blob
          data, append }) := by
  funext data
  simp only [contentEdit, hc, hattr]
  rw [if_neg h]
  rfl

end ContentEdit

/-- The data file as a run that starts in `w` reads it, after the FD. -/
def dataOf (env : Env) (w : World) (dataFile : Option Str) : Option Bytes :=
  if env.readFails w.clock then none else dataFile.bind (w.content env)

/-- The edit a run asks for; `none` when it is refused. -/
def editOf (env : Env) (w : World) (args : Args) : Option Edit :=
  if env.readFails w.clock then none
  else
    match args.name, args.guid with
    | some name, some guid =>
      if isGuid (some guid) then
        match (str2guid (some guid)).value, (attributesOf args.attributes).value with
        | some g, some _ =>
          match args.operation with
          | some .DEL => some (.erase (str2blob name, g))
          | some .ADD => (dataOf env w.tick args.dataFile).bind
              (contentEdit (.now (env.gmtime (w.clock + 2))) name g args.attributes false)
          | some .APPEND => (dataOf env w.tick args.dataFile).bind
              (contentEdit (.now (env.gmtime (w.clock + 2))) name g args.attributes true)
          | _ => none
        | _, _ => none
      else none
    | _, _ => none

/-- The map after a sequence of runs; every run finds the files as the ones
before have left them. -/
def mapAfter (env : Env) (fuel : Nat) : List Args → World → Variables → Variables
  | [], _, m => m
  | args :: runs, w, m =>
    mapAfter env fuel runs (varEnroll env fuel args w).2 (applyOption m (editOf env w args))

def keyOf (v : VariableTimeBasedAuth) : Key := (v.nameBlob, v.vendorGuid)

def entryOf (v : VariableTimeBasedAuth) : Entry :=
  { state := v.state, rsvd := v.rsvd, count := v.count, pkIndex := v.pkIndex
    attributes := v.attributes, timeStamp := v.timeStampBlob, data := v.data }

/-- The map a list of variables stands for. -/
def mapOf (vars : List VariableTimeBasedAuth) : Variables := lookup keyOf entryOf vars

/-- A variable of a list that can be written, the widths of its fields apart. -/
structure Shaped (v : VariableTimeBasedAuth) : Prop where
  startId_eq : v.startId = VAR_START_ID
  state_eq : v.state = VAR_ADDED
  rsvd_lt : v.rsvd < 256
  count_lt : v.count < 2 ^ 64
  timeStampBlob_length : v.timeStampBlob.length = 16
  pkIndex_lt : v.pkIndex < 2 ^ 32
  nameSize_eq : v.nameSize = v.nameBlob.length
  dataSize_eq : v.dataSize = v.data.length
  vendorGuid_length : v.vendorGuid.length = 16
  vendorGuidStr_eq : v.vendorGuidStr = guid2str v.vendorGuid
  ascii : AsciiBytes v.nameBlob

theorem Shaped.writable_iff {v : VariableTimeBasedAuth} (h : Shaped v) :
    Writable v ↔ Storable (keyOf v) (entryOf v) := by
  have hn := h.nameSize_eq
  have hd := h.dataSize_eq
  constructor
  · intro hw
    have hlt := hw.dataSize_lt
    have hdata : v.data.length < 2 ^ 32 := by omega
    exact ⟨hw.attributes_ge, hw.attributes_lt, hn ▸ hw.nameSize_lt, hdata⟩
  · rintro ⟨hge, hlt, hname, hdata⟩
    simp only [keyOf, entryOf] at hge hlt hname hdata
    exact ⟨h.startId_eq, h.state_eq, h.rsvd_lt, hge, hlt, h.count_lt, h.timeStampBlob_length,
      h.pkIndex_lt, hn, hn ▸ hname, hd, by omega, h.vendorGuid_length, h.ascii⟩

theorem Shaped.writable_of_inFields {v : VariableTimeBasedAuth} (h : Shaped v)
    (hfields : v.InFields) : Writable v := by
  obtain ⟨⟨hge, hlt⟩, -, hdata⟩ := hfields.numbers
  rw [h.dataSize_eq] at hdata
  exact h.writable_iff.mpr ⟨hge, hlt, h.nameSize_eq ▸ hfields.nameSize_lt, by exact_mod_cast hdata⟩

theorem writable_of_varsBlob {vars : List VariableTimeBasedAuth} (h : ∀ v ∈ vars, Shaped v)
    {blob : Bytes} (hb : VariableStore.varsBlob vars = .ok blob) : ∀ v ∈ vars, Writable v := by
  intro v hv
  exact (h v hv).writable_of_inFields (VariableStore.varsBlob_iff.mp ⟨blob, hb⟩ v hv)

theorem shaped_toVariable (r : Records.StoredRecord) (h : r.live = true) : Shaped r.toVariable := by
  have hw := writable_toVariable r h
  exact ⟨hw.startId_eq, hw.state_eq, hw.rsvd_lt, hw.count_lt, hw.timeStampBlob_length,
    hw.pkIndex_lt, hw.nameSize_eq, hw.dataSize_eq, hw.vendorGuid_length, rfl, hw.ascii⟩

theorem shaped_liveVars (rs : List Records.StoredRecord) : ∀ v ∈ Records.liveVars rs, Shaped v := by
  intro v hv
  obtain ⟨r, hr, rfl⟩ := List.mem_map.mp hv
  exact shaped_toVariable r (List.mem_filter.mp hr).2

theorem mapOf_reread (vars : List VariableTimeBasedAuth) : mapOf (vars.map reread) = mapOf vars :=
  lookup_congr keyOf entryOf reread keyOf entryOf (fun _ _ => rfl) (fun _ _ => rfl)

theorem map_keyOf_reread (vars : List VariableTimeBasedAuth) :
    (vars.map reread).map keyOf = vars.map keyOf := by
  rw [List.map_map]
  rfl

/-- A name and a GUID string that stand for a key. -/
structure Addresses (name vendorGuid : Str) (k : Key) : Prop where
  name_ascii : Ascii name
  name_eq : k.1 = str2blob name
  guid_eq : str2guid (some vendorGuid) = .ok k.2
  guid_length : k.2.length = 16
  guidStr_eq : guid2str k.2 = lower vendorGuid

theorem addresses_of_isGuid {name vendorGuid : Str} (hn : Ascii name)
    (hg : isGuid (some vendorGuid) = true) (hl : vendorGuid.length = 36) :
    ∃ g, str2guid (some vendorGuid) = .ok g ∧ Addresses name vendorGuid (str2blob name, g) := by
  obtain ⟨g, hok, hlen, hstr⟩ := str2guid_canonical vendorGuid hg hl
  exact ⟨g, hok, hn, rfl, hok, hlen, hstr⟩

/-- The test in the program and the key find the same variables. -/
theorem Addresses.isVar_iff {name vendorGuid : Str} {k : Key} (ha : Addresses name vendorGuid k)
    {v : VariableTimeBasedAuth} (hl : v.vendorGuid.length = 16)
    (hs : v.vendorGuidStr = guid2str v.vendorGuid) :
    VariableStore.isVar name vendorGuid v = true ↔ keyOf v = k := by
  rw [VariableStore.isVar, Bool.and_eq_true, beq_iff_eq, beq_iff_eq, hs, ← ha.guidStr_eq,
    ← ha.name_eq, keyOf, Prod.ext_iff]
  apply and_congr_right
  intro _
  constructor
  · exact guid2str_injective hl ha.guid_length
  · exact congrArg guid2str

theorem Addresses.finds {name vendorGuid : Str} {k : Key} (ha : Addresses name vendorGuid k)
    {vars : List VariableTimeBasedAuth} (h : ∀ v ∈ vars, Shaped v) :
    Finds keyOf (VariableStore.isVar name vendorGuid) k vars := by
  intro v hv
  exact ha.isVar_iff (h v hv).vendorGuid_length (h v hv).vendorGuidStr_eq

/-- The list after a write: its map is changed at one key and its other
variables are the ones of the list before. -/
structure Written (k : Key) (e : Entry) (vars vars' : List VariableTimeBasedAuth) : Prop where
  shaped : ∀ v ∈ vars', Shaped v
  nodup : (vars'.map keyOf).Nodup
  map_eq : mapOf vars' = Function.update (mapOf vars) k (some e)
  old_or_new : ∀ v ∈ vars', v ∈ vars ∨ keyOf v = k ∧ entryOf v = e
  has_new : ∃ v ∈ vars', keyOf v = k ∧ entryOf v = e

section Write

variable {k : Key} {e : Entry} {vars : List VariableTimeBasedAuth} {x : VariableTimeBasedAuth}

theorem Shaped.update (h : Shaped x) (attributes : Int) (stamp : EfiTime) (buffer : Bytes)
    (append : Bool) : Shaped (x.update attributes stamp buffer buffer.length append) := by
  cases append with
  | false =>
    exact ⟨h.startId_eq, h.state_eq, h.rsvd_lt, h.count_lt, stamp.length_blob, h.pkIndex_lt,
      h.nameSize_eq, rfl, h.vendorGuid_length, h.vendorGuidStr_eq, h.ascii⟩
  | true =>
    refine ⟨h.startId_eq, h.state_eq, h.rsvd_lt, h.count_lt, stamp.length_blob, h.pkIndex_lt,
      h.nameSize_eq, ?_, h.vendorGuid_length, h.vendorGuidStr_eq, h.ascii⟩
    change x.dataSize + buffer.length = ((x.data ++ buffer).length : Int)
    rw [h.dataSize_eq, List.length_append, Int.natCast_add]

variable (hs : ∀ v ∈ vars, Shaped v) (hd : (vars.map keyOf).Nodup)

include hs hd

theorem written_update {p : VariableTimeBasedAuth → Bool}
    {update : VariableTimeBasedAuth → VariableTimeBasedAuth} (hf : Finds keyOf p k vars)
    (hx : vars.find? p = some x) (hkeys : ∀ v, keyOf (update v) = keyOf v)
    (hentry : entryOf (update x) = e) (hshaped : Shaped (update x)) :
    Written k e vars (vars.modify (vars.findIdx p) update) := by
  have hkey : keyOf (update x) = k :=
    (hkeys x).trans ((hf x (List.mem_of_find?_eq_some hx)).mp (List.find?_some hx))
  refine ⟨?_, ?_, ?_, ?_, update x, modify_findIdx_mem update hx, hkey, hentry⟩
  · exact (forall_modify_findIdx hx hs update).mpr hshaped
  · rw [map_key_modify _ _ _ hkeys]
    exact hd
  · rw [mapOf, lookup_modify hf hx hkeys, hentry]
    rfl
  · intro v hv
    apply (mem_modify_findIdx hx hv).imp List.mem_of_mem_eraseP
    rintro rfl
    exact ⟨hkey, hentry⟩

theorem written_append (hnew : k ∉ vars.map keyOf) (hkey : keyOf x = k) (hentry : entryOf x = e)
    (hshaped : Shaped x) : Written k e vars (vars ++ [x]) := by
  refine ⟨?_, nodup_append_singleton hd (hkey ▸ hnew), ?_, ?_, x, by simp, hkey, hentry⟩
  · exact (forall_append_singleton hs).mpr hshaped
  · rw [mapOf, lookup_append_singleton (hkey ▸ hnew), hkey, hentry]
    rfl
  · intro v hv
    apply (List.mem_append.mp hv).imp_right
    intro h
    rw [List.mem_singleton.mp h]
    exact ⟨hkey, hentry⟩

end Write

theorem addVariable_written (now : EfiTime) (self : VariableStore) {name vendorGuid : Str}
    {k : Key} (ha : Addresses name vendorGuid k) (hs : ∀ v ∈ self.varsList, Shaped v)
    (hd : (self.varsList.map keyOf).Nodup) (attributes : Int) (timeStamp : Option EfiTime)
    (buffer : Bytes) (append : Bool) : ∃ vars',
      self.addVariable now name vendorGuid attributes timeStamp buffer buffer.length append =
        .ok { self with varsList := vars' } ∧
      Written k (Value.over ⟨attributes, (VariableStore.stampFor now attributes timeStamp).blob,
        buffer, append⟩ (mapOf self.varsList k)) self.varsList vars' := by
  have hf := ha.finds hs
  have hlook : mapOf self.varsList k =
      (self.findVarInList name vendorGuid).map entryOf := hf.lookup_eq
  let stamp := VariableStore.stampFor now attributes timeStamp
  cases hfind : self.findVarInList name vendorGuid with
  | some x =>
    have hx : self.varsList.find? (VariableStore.isVar name vendorGuid) = some x := hfind
    let update := fun v : VariableTimeBasedAuth =>
      v.update attributes stamp buffer buffer.length append
    have hkeys : ∀ v, keyOf (update v) = keyOf v := fun v => by
      cases append <;> rfl
    have hentry : entryOf (update x) =
        Value.over ⟨attributes, stamp.blob, buffer, append⟩ (mapOf self.varsList k) := by
      rw [hlook, hfind]
      cases append <;> rfl
    refine ⟨_, ?_, written_update hs hd hf hx hkeys hentry
      ((hs x (List.mem_of_find?_eq_some hx)).update attributes stamp buffer append)⟩
    exact VariableStore.addVariable_hit hfind
  | none =>
    let var := VariableStore.fresh name vendorGuid attributes stamp buffer buffer.length k.2
    have hkey : keyOf var = k := Prod.ext ha.name_eq.symm rfl
    have hentry : entryOf var =
        Value.over ⟨attributes, stamp.blob, buffer, append⟩ (mapOf self.varsList k) := by
      rw [hlook, hfind]
      rfl
    have hshaped : Shaped var :=
      ⟨rfl, rfl, Nat.zero_lt_succ _, Nat.two_pow_pos 64, stamp.length_blob, Nat.two_pow_pos 32, rfl,
        rfl, ha.guid_length, ha.guidStr_eq.symm, asciiBytes_str2blob name ha.name_ascii⟩
    refine ⟨self.varsList ++ [var], ?_,
      written_append hs hd (hf.find?_eq_none hfind) hkey hentry hshaped⟩
    exact VariableStore.addVariable_miss hfind ha.guid_eq

theorem delVariable_erased (self : VariableStore) {name vendorGuid : Str} {k : Key}
    (ha : Addresses name vendorGuid k) (hs : ∀ v ∈ self.varsList, Shaped v)
    (hd : (self.varsList.map keyOf).Nodup) :
    mapOf (self.delVariable name vendorGuid).2.varsList =
        Function.update (mapOf self.varsList) k none ∧
      ((self.delVariable name vendorGuid).1 = false →
        (self.delVariable name vendorGuid).2 = self) ∧
      (self.delVariable name vendorGuid).2.varsList.Sublist self.varsList := by
  have hf := ha.finds hs
  unfold VariableStore.delVariable
  split
  · exact ⟨lookup_eraseP hf hd, by simp, List.eraseP_sublist⟩
  · next hany =>
    have hnone : mapOf self.varsList k = none :=
      lookup_eq_none keyOf entryOf (fun hk => hany (hf.any_eq_true.mpr hk))
    refine ⟨?_, fun _ => rfl, List.Sublist.refl _⟩
    rw [← hnone, Function.update_eq_self]

end TdxTools.VarEnroll.VariableMap
