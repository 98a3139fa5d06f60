import TdxTools.VarEnroll.HeaderSizes
import TdxTools.VarEnroll.RegionSafety
import TdxTools.VarEnroll.Rewrite
import TdxTools.VarEnroll.Updating

namespace TdxTools.VarEnroll.FullSize

open Python.ByteString Python.Exec Python.Struct Python.Text Python.Files Python.Table
open Guid Variable Store Store.VariableStore Records Codec RegionScan RegionSafety Enroll
open VariableMap Operations Submitting Updating HeaderSizes

/-- `full_size` is what it is computed from. -/
def Current (var : VariableTimeBasedAuth) : Prop :=
  var.fullSize = HEADER_SIZE + var.nameSize + var.dataSize

/-- The sizes kept with a variable are those of its parts, and the whole one is
the length of what is written for it. -/
structure UpToDate (var : VariableTimeBasedAuth) : Prop extends Matches var where
  current : Current var
  serialised : ∀ b, var.blob = .ok b → (b.length : Int) = var.fullSize

def AllCurrent (store : VariableStore) : Prop := ∀ var ∈ store.varsList, Current var

def AllUpToDate (store : VariableStore) : Prop := ∀ var ∈ store.varsList, UpToDate var

theorem upToDate_iff {var : VariableTimeBasedAuth} : UpToDate var ↔ Matches var ∧ Current var := by
  constructor
  · exact fun h => ⟨h.toMatches, h.current⟩
  · rintro ⟨hm, hc⟩
    refine ⟨hm, hc, ?_⟩
    intro b hb
    have hlen := VariableTimeBasedAuth.blob_length hb
    have hname := hm.name
    have hdata := hm.data
    rw [hc]
    omega

theorem allUpToDate_iff {store : VariableStore} :
    AllUpToDate store ↔ AllMatch store ∧ AllCurrent store := by
  simp only [AllUpToDate, AllMatch, AllCurrent, upToDate_iff, forall_and]

section Update

variable {var : VariableTimeBasedAuth} {attributes : Int} {t : EfiTime} {buffer : Bytes} {size : Int}
  {append : Bool}

theorem current_append : Current (var.update attributes t buffer size true) := by
  change var.dataSize + size + var.nameSize + HEADER_SIZE =
    HEADER_SIZE + var.nameSize + (var.dataSize + size)
  omega

theorem current_overwrite (h : Current var) :
    Current (var.update attributes t buffer size false) ↔ size = var.dataSize := by
  have hkept : (var.update attributes t buffer size false).fullSize = var.fullSize := rfl
  have hname : (var.update attributes t buffer size false).nameSize = var.nameSize := rfl
  have hdata : (var.update attributes t buffer size false).dataSize = size := rfl
  rw [Current, hkept, hname, hdata, h]
  omega

theorem current_update (h : Current var) :
    Current (var.update attributes t buffer size append) ↔ (append = false → size = var.dataSize) := by
  cases append with
  | true => exact iff_of_true current_append (fun h => by cases h)
  | false =>
    rw [current_overwrite h]
    exact ⟨fun hsize _ => hsize, fun hsize => hsize rfl⟩

end Update

section Store

variable {store store' : VariableStore} {now : EfiTime} {name vendorGuid : Str} {attributes : Int}
  {stamp : Option EfiTime} {buffer : Bytes} {size : Int} {append : Bool}

/-- The variable that is written over, if there is one, has as much data before
as it has afterwards. -/
def SameSize (store : VariableStore) (name vendorGuid : Str) (size : Int) (append : Bool) : Prop :=
  append = false → ∀ var, store.findVarInList name vendorGuid = some var → size = var.dataSize

theorem addVariable_current (hc : AllCurrent store)
    (h : store.addVariable now name vendorGuid attributes stamp buffer size append = .ok store') :
    AllCurrent store' ↔ SameSize store name vendorGuid size append := by
  obtain ⟨var, hfind, rfl⟩ | ⟨hnone, guid, -, rfl⟩ := addVariable_cases h
  · have hvar := hc var (List.mem_of_find?_eq_some hfind)
    have hsame : SameSize store name vendorGuid size append ↔
        (append = false → size = var.dataSize) := by
      simp only [SameSize, hfind, Option.some.injEq, forall_eq']
    have hupdate : Current (var.update attributes (stampFor now attributes stamp) buffer size append) ↔
        (append = false → size = var.dataSize) := current_update hvar
    rw [hsame, ← hupdate]
    exact forall_modify_findIdx hfind hc _
  · refine iff_of_true ((forall_append_singleton hc).mpr ?_) ?_
    · change size + (str2blob name).length + HEADER_SIZE =
        HEADER_SIZE + (str2blob name).length + size
      omega
    · intro _ var hfind
      rw [hnone] at hfind
      cases hfind

theorem delVariable_current (hc : AllCurrent store) :
    AllCurrent (store.delVariable name vendorGuid).2 := by
  rw [VariableStore.delVariable]
  split
  · exact fun var hvar => hc var (List.mem_of_mem_eraseP hvar)
  · exact hc

end Store

section Calls

variable {env : Env} {s : Session} {name guid : Str} {dataFile : Option Str}
  {attributes : Option Int} {append : Bool}

theorem enroll_current (hc : AllCurrent s.store) :
    AllCurrent (addVariable env name guid dataFile attributes append s).2.store ↔
      ∀ sub, submission env s.world name guid dataFile attributes append = some sub →
        SameSize s.store sub.name sub.vendorGuid sub.size append := by
  by_cases hacc : Accepted env s.world s.store name guid dataFile attributes append
  · obtain ⟨sub, hsub, htakes⟩ := hacc
    obtain ⟨store, hinto⟩ := into_takes env s.world.tick append htakes
    rw [addVariable_accepted hsub hinto]
    refine (addVariable_current hc hinto).trans ?_
    rw [hsub]
    simp only [Option.some.injEq, forall_eq']
  · obtain ⟨e, s', hraise, hstore⟩ := addVariable_refused hacc
    rw [hraise]
    refine iff_of_true (hstore ▸ hc) ?_
    intro sub hsub _ var hfind
    exact absurd ⟨sub, hsub, Or.inl (Option.isSome_iff_exists.mpr ⟨var, hfind⟩)⟩ hacc

theorem update_current (hc : AllCurrent s.store) :
    AllCurrent (updateVariable env name guid dataFile attributes s).2.store := by
  by_cases hheld : Held s.store (looked name guid)
  · have herased : AllCurrent (erased name guid s).store :=
      fun var hvar => hc var (List.mem_of_mem_eraseP hvar)
    rw [updateVariable_held hheld]
    apply (enroll_current herased).mpr
    intro sub _ happend
    cases happend
  · rw [updateVariable_not_held hheld]
    exact hc

/-- What a call writes over has the size of what it is written over with. -/
def CallSameSize (store : VariableStore) (call : Call) : Prop :=
  match call.operation with
  | .add name guid dataFile attributes append =>
    ∀ sub, submission call.env call.world name guid dataFile attributes append = some sub →
      SameSize store sub.name sub.vendorGuid sub.size append
  | .update _ _ _ _ => True
  | .delete _ _ => True

theorem call_current {store : VariableStore} (hc : AllCurrent store) (call : Call) :
    AllCurrent (call.after store) ↔ CallSameSize store call := by
  rw [Call.after, CallSameSize]
  cases call.operation with
  | add name guid dataFile attributes append =>
    exact enroll_current (s := { world := call.world, store }) hc
  | update name guid dataFile attributes =>
    exact iff_of_true (update_current (s := { world := call.world, store }) hc) trivial
  | delete name guid => exact iff_of_true (delVariable_current hc) trivial

end Calls

/-- What can be done to the variables of a store: the methods of the store, the
one of a variable in its list, and the functions of the module. -/
inductive Change
  | add (env : Env) (w : World) (sub : Submission) (append : Bool)
  | update (i : Nat) (attributes : Int) (timeStamp : EfiTime) (buffer : Bytes) (size : Int)
      (append : Bool)
  | delete (name vendorGuid : Str)
  | invoke (call : Call)

namespace Change

/-- The store that is left, also by an `add_variable` that raises. -/
def after (store : VariableStore) : Change → VariableStore
  | add env w sub append =>
    match sub.into env w append store with
    | .ok store' => store'
    | _ => store
  | update i attributes timeStamp buffer size append =>
    let update := fun var : VariableTimeBasedAuth =>
      var.update attributes timeStamp buffer size append
    { store with varsList := store.varsList.modify i update }
  | delete name vendorGuid => (store.delVariable name vendorGuid).2
  | invoke call => call.after store

/-- The size that is given is that of the buffer, and writing over a variable
does not change its size. -/
def Keeps (store : VariableStore) : Change → Prop
  | add _ _ sub append => Takes store sub →
    sub.size = sub.buffer.length ∧ SameSize store sub.name sub.vendorGuid sub.size append
  | update i _ _ buffer size append => ∀ var, store.varsList[i]? = some var →
    size = buffer.length ∧ (append = false → size = var.dataSize)
  | delete _ _ => True
  | invoke call => call.DbxFileWhole store ∧ CallSameSize store call

variable {store : VariableStore} (h : AllUpToDate store)

include h

theorem add_keeps (env : Env) (w : World) (sub : Submission) (append : Bool) :
    AllUpToDate ((add env w sub append).after store) ↔ (add env w sub append).Keeps store := by
  obtain ⟨hm, hc⟩ := allUpToDate_iff.mp h
  rw [after, Keeps]
  by_cases htakes : Takes store sub
  · obtain ⟨store', hinto⟩ := into_takes env w append htakes
    rw [hinto, allUpToDate_iff, addVariable_matches_iff hm hinto, addVariable_current hc hinto]
    exact ⟨fun hkeeps _ => hkeeps, fun hkeeps => hkeeps htakes⟩
  · obtain ⟨e, hraise⟩ := into_refused env w append htakes
    rw [hraise]
    exact iff_of_true h (fun ht => absurd ht htakes)

theorem update_keeps (i : Nat) (attributes : Int) (timeStamp : EfiTime) (buffer : Bytes) (size : Int)
    (append : Bool) :
    AllUpToDate ((update i attributes timeStamp buffer size append).after store) ↔
      (update i attributes timeStamp buffer size append).Keeps store := by
  rw [after, Keeps]
  refine (forall_mem_modify h i _).trans ?_
  apply forall₂_congr
  intro var hvar
  have hold := h var (List.mem_of_getElem? hvar)
  rw [upToDate_iff, matches_update hold.toMatches, current_update hold.current]

theorem after_iff (change : Change) : AllUpToDate (change.after store) ↔ change.Keeps store := by
  obtain ⟨hm, hc⟩ := allUpToDate_iff.mp h
  cases change with
  | add env w sub append => exact add_keeps h env w sub append
  | update i attributes timeStamp buffer size append =>
    exact update_keeps h i attributes timeStamp buffer size append
  | delete name vendorGuid =>
    exact iff_of_true (allUpToDate_iff.mpr ⟨delVariable_matches hm, delVariable_current hc⟩) trivial
  | invoke call =>
    rw [after, Keeps, allUpToDate_iff, call.after_matches_iff hm, call_current hc]

end Change

/-- An FD that starts with the NVRAM volume and holds a supported store, each of
whose live records ends inside it, and the store that is read from it. -/
structure ParsedImage where
  fd : Bytes
  volume : FirmwareVolume
  empty : VariableStore
  store : VariableStore
  volume_eq : FirmwareVolume.init (slice fd 0 128) = some volume
  store_eq : VariableStore.init volume (slice fd 0 volume.size) 0 = some (empty, true)
  sync : empty.syncToVarsList = .ok store
  fits : ∀ b, Walks empty headerSize b → LiveFits empty b

namespace ParsedImage

theorem find (image : ParsedImage) (n : Nat) :
    findVarInfo (n + 1) image.fd = .ok (some image.store) :=
  Search.search_supported image.volume_eq image.store_eq image.sync n

theorem allUpToDate (image : ParsedImage) : AllUpToDate image.store := by
  have hnil : image.empty.varsList = [] := (init_store image.store_eq).2.2.2.1
  refine forall_of_sync image.sync (by simp [hnil]) ?_
  intro b header name hb hat hstate _
  obtain ⟨hn, hd⟩ := (sizes_iff hat name).mpr (image.fits b hb header hat hstate).2
  apply upToDate_iff.mpr
  refine ⟨matches_of_sizes hn (congrArg Int.ofNat hd), ?_⟩
  change ((header.dataSize + header.nameSize + HEADER_SIZE : Nat) : Int) =
    HEADER_SIZE + header.nameSize + header.dataSize
  omega

end ParsedImage

section Records

variable {fd : Bytes} {volume : FirmwareVolume} {self : VariableStore} {rs : List StoredRecord}
  {k b : Nat}

theorem reaches_record (h : Holds self rs k) {s : ReadState}
    (hs : self.readLoop.Reaches (startState self) s) :
    ∃ pre post, rs = pre ++ post ∧ s = afterRecords self.varsList pre := by
  apply hs.invariant (P := fun s => ∃ pre post, rs = pre ++ post ∧ s = afterRecords self.varsList pre)
  · rintro s s' ⟨pre, post, hrs, rfl⟩ hturn
    change self.readTurn _ = .next s' at hturn
    cases post with
    | nil =>
      rw [List.append_nil] at hrs
      rw [← hrs, readTurn_end h] at hturn
      cases hturn
    | cons r post =>
      rw [readTurn_record h self.varsList pre r post hrs] at hturn
      cases hturn
      exact ⟨pre ++ [r], post, by rw [hrs, List.append_assoc, List.singleton_append], rfl⟩
  · exact ⟨[], rs, rfl, by simp [startState, afterRecords, encodeAll, liveVars]⟩

theorem liveFits_of_holds (h : Holds self rs k) (hb : Walks self headerSize b) : LiveFits self b := by
  intro header hat _
  obtain ⟨s, hs, rfl⟩ := reaches_of_walks (syncToVarsList_eq h) hb
  have hnext : Walks self headerSize (recordEnd s.begin header) := hb.tail ⟨header, hat, rfl⟩
  obtain ⟨s', hs', hend⟩ := reaches_of_walks (syncToVarsList_eq h) hnext
  obtain ⟨pre, post, hrs, rfl⟩ := reaches_record h hs'
  have hle := le_alignBy4 (s.begin + header.fullSize)
  have hsize := h.size_eq
  have hraw := h.2.2.1
  rw [hrs, encodeAll_append, List.length_append] at hsize
  rw [recordEnd] at hend
  change headerSize + (encodeAll pre).length = _ at hend
  omega

/-- A well-formed image whose region consists of records and bytes 0xff. -/
def ParsedImage.ofRecords (h : WellFormedImage fd volume self) (hr : RegionHolds fd volume self rs) :
    ParsedImage where
  fd := fd
  volume := volume
  empty := self
  store := { self with varsList := self.varsList ++ liveVars rs, varsSize := (encodeAll rs).length }
  volume_eq := h.volume_eq
  store_eq := h.store_eq
  sync := (holds_of_region h hr).elim fun _ hholds => syncToVarsList_eq hholds
  fits := (holds_of_region h hr).elim fun _ hholds _ hb => liveFits_of_holds hholds hb

end Records

def storeAfter (store : VariableStore) (changes : List Change) : VariableStore :=
  changes.foldl Change.after store

/-- In every store of a run the sizes are up to date just if no change of the run
writes over a variable with data of another size, or gives a size that is not
that of its buffer. -/
theorem full_size_iff (image : ParsedImage) (changes : List Change) :
    (∀ done, done <+: changes → AllUpToDate (storeAfter image.store done)) ↔
      ∀ done change, done ++ [change] <+: changes → change.Keeps (storeAfter image.store done) :=
  foldl_invariant_iff (P := AllUpToDate) (fun _ h change => Change.after_iff h change)
    image.allUpToDate changes

def blankParsed : ParsedImage :=
  .ofRecords blankImage_wellFormed (show RegionHolds _ _ _ [] from ⟨68, by decide +kernel⟩)

/-- Two files with data for a variable, of three and of five bytes. -/
def dataWorld : World :=
  { files := fun place =>
      if place = [['d']] then some { content := [1, 2, 3], ctime := 0 }
      else if place = [['e']] then some { content := [1, 2, 3, 4, 5], ctime := 0 }
      else none
    clock := 0 }

def addCall (file : Str) : Change :=
  .invoke { env := .reliable, world := dataWorld
            operation := .add ['V'] efiAuthenticatedVariableBasedTimeGuid (some file) (some 7) false }

/-- The second file is written over the first; 69 bytes are written for a
variable whose size is given as 67. -/
theorem overwritten_stale : ¬ ∀ done, done <+: [addCall ['d'], addCall ['e']] →
    AllUpToDate (storeAfter blankParsed.store done) := by
  intro h
  have hsizes : ((storeAfter blankParsed.store [addCall ['d'], addCall ['e']]).varsList.map
      fun var => (var.fullSize, var.nameSize, var.dataSize)) = [(67, 4, 5)] := by decide +kernel
  obtain ⟨var, hlist, hsize⟩ := List.map_eq_singleton_iff.mp hsizes
  have hvar : var ∈ (storeAfter blankParsed.store [addCall ['d'], addCall ['e']]).varsList := by
    rw [hlist]
    exact List.mem_singleton_self var
  have hcurrent := (h _ (List.prefix_refl _) var hvar).current
  simp only [Prod.mk.injEq] at hsize
  obtain ⟨hfull, hname, hdata⟩ := hsize
  rw [Current, hfull, hname, hdata] at hcurrent
  revert hcurrent
  decide

end TdxTools.VarEnroll.FullSize
