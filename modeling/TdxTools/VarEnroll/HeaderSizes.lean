import TdxTools.VarEnroll.Operations

namespace TdxTools.VarEnroll.HeaderSizes

open Python.ByteString Python.Exec Python.Struct Python.Text Python.Files Python.Table
open Guid Variable Store Codec Enroll VariableMap Operations

/-- The sizes in the header of a variable are those of its body, and what is
written for it is a record of the declared size. -/
structure Matches (var : VariableTimeBasedAuth) : Prop where
  name : var.nameSize = var.nameBlob.length
  data : var.dataSize = var.data.length
  emitted : ∀ b, var.blob = .ok b →
    ∃ header, VariableHeader.init b = some header ∧ header.fullSize = b.length

def AllMatch (store : VariableStore) : Prop := ∀ var ∈ store.varsList, Matches var

/-- The store before the first operation. -/
structure MatchedStore where
  store : VariableStore
  allMatch : AllMatch store

section Matching

variable {var : VariableTimeBasedAuth}

theorem matches_of_sizes (hname : var.nameSize = var.nameBlob.length)
    (hdata : var.dataSize = var.data.length) : Matches var := by
  refine ⟨hname, hdata, ?_⟩
  intro b hb
  obtain ⟨packed, header, rfl, hlen, hinit, -, -, hn, hd, -⟩ := VariableTimeBasedAuth.header_of_blob hb
  refine ⟨header, by rw [VariableHeader.init_append hlen, hinit], ?_⟩
  rw [VariableTimeBasedAuth.blob_length hb, VariableHeader.fullSize]
  omega

end Matching

section Store

variable {store store' : VariableStore} {now : EfiTime} {name vendorGuid : Str} {attributes : Int}
  {stamp : Option EfiTime} {buffer : Bytes} {size : Int} {append : Bool}

theorem matches_update {var : VariableTimeBasedAuth} {t : EfiTime} (h : Matches var) :
    Matches (var.update attributes t buffer size append) ↔ size = buffer.length := by
  have hd := h.data
  cases append with
  | true =>
    have hsize : (var.update attributes t buffer size true).dataSize = var.dataSize + size := rfl
    have hbody : (var.update attributes t buffer size true).data = var.data ++ buffer := rfl
    constructor
    · intro hm
      have hm := hm.data
      rw [hsize, hbody, List.length_append] at hm
      omega
    · intro hs
      refine matches_of_sizes h.name ?_
      rw [hsize, hbody, List.length_append]
      omega
  | false => exact ⟨fun hm => hm.data, fun hs => matches_of_sizes h.name hs⟩

/-- Adding to a store keeps the sizes right just if the size passed along is
that of the buffer. -/
theorem addVariable_matches_iff (hm : AllMatch store)
    (h : store.addVariable now name vendorGuid attributes stamp buffer size append = .ok store') :
    AllMatch store' ↔ size = buffer.length := by
  obtain ⟨var, hfind, rfl⟩ | ⟨-, guid, -, rfl⟩ := VariableStore.addVariable_cases h
  · have hvar := hm var (List.mem_of_find?_eq_some hfind)
    exact (forall_modify_findIdx hfind hm _).trans (matches_update hvar)
  · apply (forall_append_singleton hm).trans
    exact ⟨fun hnew => hnew.data, fun hs => matches_of_sizes rfl hs⟩

theorem delVariable_matches (hm : AllMatch store) :
    AllMatch (store.delVariable name vendorGuid).2 := by
  rw [VariableStore.delVariable]
  split
  · exact fun var hvar => hm var (List.mem_of_mem_eraseP hvar)
  · exact hm

end Store

section Operations

variable {env : Env} {s : Session} {dataFile : Option Str} {name vendorGuid guid : Str}
  {attributes : Int} {stamp : Option EfiTime} {buffer : Bytes} {size : Int} {append : Bool}

theorem onWorld_bind_matches {α : Type} {x : Py World α} {f : α → Py Session Bool}
    (hm : AllMatch s.store)
    (h : ∀ a w, x s.world = (.ok a, w) → AllMatch (f a { s with world := w }).2.store) :
    AllMatch ((onWorld x >>= f) s).2.store := by
  rcases hx : x s.world with ⟨a | e | _, w⟩
  · rw [Py.bind_ok (onWorld_ok hx)]
    exact h a w hx
  · rw [Py.bind_raised (onWorld_raised hx)]
    exact hm
  · have hrun : onWorld x s = (.running, { s with world := w }) := by
      rw [onWorld, Py.within_apply, hx]
    rw [Py.bind_running hrun]
    exact hm

theorem lift_bind_matches {α : Type} {x : Outcome α} {f : α → Py Session Bool}
    (hm : AllMatch s.store) (h : ∀ a, x = .ok a → AllMatch (f a s).2.store) :
    AllMatch ((Py.lift x >>= f) s).2.store := by
  rcases Py.lift_bind_cases x f s with ⟨a, ha, hs⟩ | ⟨o, hs⟩
  · rw [hs]
    exact h a ha
  · rw [hs]
    exact hm

theorem addToStore_matches (hm : AllMatch s.store) (hsize : size = buffer.length) : AllMatch
    (addToStore env name vendorGuid attributes stamp buffer size append s).2.store := by
  rw [addToStore]
  cases h : s.store.addVariable (EfiTime.now (env.gmtime s.world.clock)) name vendorGuid attributes
    stamp buffer size append with
  | ok store' => exact (addVariable_matches_iff hm h).mpr hsize
  | raised e => exact hm
  | running => exact hm

theorem createPk_certList {w w' : World} {list : EfiSignatureList}
    (h : createPkX509CertList env dataFile (some guid) w = (.ok list, w')) :
    ∃ owner cert, owner.length = 16 ∧ list = certList owner cert := by
  rw [createPkX509CertList, if_neg (Option.some_ne_none guid)] at h
  obtain ⟨owner, -, h⟩ := Py.lift_bind_eq_ok.mp h
  by_cases hlen : owner.length = 16
  · rw [if_neg (not_not_intro hlen)] at h
    obtain ⟨cert, w₁, -, h⟩ := Py.bind_eq_ok.mp h
    rw [str2guid_x509, Py.lift_ok_bind_apply] at h
    cases h
    exact ⟨owner, cert, hlen, rfl⟩
  · rw [if_pos hlen] at h
    cases h

theorem cert_matches (hm : AllMatch s.store) :
    AllMatch (enrollCert env name vendorGuid guid dataFile append s).2.store := by
  apply onWorld_bind_matches hm
  intro list w hlist
  obtain ⟨owner, cert, hl, rfl⟩ := createPk_certList hlist
  apply lift_bind_matches (s := { s with world := w }) hm
  intro blob hblob
  rw [certList_blob] at hblob
  apply addToStore_matches (s := { s with world := w }) hm
  rw [length_signatureList hl (Outcome.ofOption_eq_ok.mp hblob)]

theorem enrollVariable_matches {attributes : Option Int} (hm : AllMatch s.store) :
    AllMatch (enrollVariable env name guid dataFile attributes append s).2.store := by
  apply onWorld_bind_matches hm
  intro payLoad w _
  apply lift_bind_matches (s := { s with world := w }) hm
  intro attributes _
  exact addToStore_matches (s := { s with world := w }) hm rfl

theorem addToStore_matches_iff {g : Bytes} (hguid : str2guid (some vendorGuid) = .ok g)
    (hm : AllMatch s.store) : AllMatch
      (addToStore env name vendorGuid attributes stamp buffer size append s).2.store ↔
        size = buffer.length := by
  obtain ⟨store', hadd⟩ : ∃ store', s.store.addVariable (EfiTime.now (env.gmtime s.world.clock)) name
      vendorGuid attributes stamp buffer size append = .ok store' := by
    cases hfind : s.store.findVarInList name vendorGuid with
    | some var => exact ⟨_, VariableStore.addVariable_hit hfind⟩
    | none => exact ⟨_, VariableStore.addVariable_miss hfind hguid⟩
  rw [addToStore, hadd]
  exact addVariable_matches_iff hm hadd

/-- A dbx file keeps the sizes right just if its header does not declare more
than there is. -/
theorem enrollDbx_matches_iff (hm : AllMatch s.store) :
    AllMatch (enrollSignatureDb env "dbx".toList guid dataFile append s).2.store ↔
      ∀ data w, readPath env dataFile s.world = (.ok data, w) → DbxWhole data := by
  cases hd : dataOf env s.world dataFile with
  | none =>
    obtain ⟨e, w, hread, -⟩ := readPath_none hd
    rw [hread, enrollSignatureDb, if_neg (by decide), if_pos rfl,
      Py.bind_raised (onWorld_raised hread)]
    exact iff_of_true hm (fun data w h => by cases h)
  | some data =>
    have hread := readPath_some hd
    have hall : (∀ data' w', readPath env dataFile s.world = (.ok data', w') → DbxWhole data') ↔
        DbxWhole data := by
      constructor
      · exact fun h => h data _ hread
      · intro h data' w' h'
        cases hread.symm.trans h'
        exact h
    rw [hall]
    by_cases hlen : data.length < 20
    · rw [enrollSignatureDb, if_neg (by decide), if_pos rfl, Py.bind_ok (onWorld_ok hread),
        EfiVariableAuthentication2.init, if_pos hlen]
      exact iff_of_true hm (fun h => absurd h (Nat.not_le.mpr hlen))
    · obtain ⟨t, -, hwrite⟩ := enrollDbx_written hd hlen
      rw [hwrite]
      refine (addToStore_matches_iff (s := { s with world := s.world.tick }) addresses_dbx.guid_eq
        hm).trans ?_
      rw [List.length_drop, DbxWhole]
      omega

/-- The data file is enrolled as dbx only when its declared length is there. -/
def FileWhole (env : Env) (name : Str) (dataFile : Option Str) (w : World) : Prop :=
  lower name = "dbx".toList → ∀ data w', readPath env dataFile w = (.ok data, w') → DbxWhole data

theorem enroll_matches_iff {attributes : Option Int} (hm : AllMatch s.store) :
    AllMatch (addVariable env name guid dataFile attributes append s).2.store ↔
      FileWhole env name dataFile s.world := by
  by_cases hx : lower name = "dbx".toList
  · rw [addVariable_dbx hx, enrollDbx_matches_iff hm]
    exact ⟨fun h _ => h, fun h => h hx⟩
  · refine iff_of_true ?_ (fun h => absurd h hx)
    by_cases hpk : lower name = "pk".toList
    · cases append with
      | true =>
        rw [addVariable, if_pos hpk]
        exact hm
      | false =>
        rw [addVariable_pk hpk]
        exact cert_matches hm
    · by_cases hkek : lower name = "kek".toList
      · rw [addVariable_kek hkek]
        exact cert_matches hm
      · by_cases hdb : lower name = "db".toList
        · rw [addVariable_db hdb]
          exact cert_matches hm
        · rw [addVariable_other (not_mem_keyNames hpk hkek hdb hx)]
          exact enrollVariable_matches hm

theorem update_matches_iff {attributes : Option Int} (hm : AllMatch s.store) :
    AllMatch (updateVariable env name guid dataFile attributes s).2.store ↔
      ((s.store.findVarInList name guid).isSome → FileWhole env name dataFile s.world) := by
  rw [updateVariable, Py.get_bind_apply]
  cases hfind : s.store.findVarInList name guid with
  | none => exact iff_of_true hm (fun h => by cases h)
  | some var =>
    have hdel : delVariable name guid s = (.ok (s.store.delVariable name guid).1,
      { s with store := (s.store.delVariable name guid).2 }) := rfl
    dsimp only
    rw [Py.bind_ok hdel,
      enroll_matches_iff (s := { s with store := (s.store.delVariable name guid).2 })
        (delVariable_matches hm)]
    exact ⟨fun h _ => h, fun h => h rfl⟩

end Operations

section Runs

/-- A call of one of the functions of the module; appending is adding with
`append`. -/
inductive Operation
  | add (name guid : Str) (dataFile : Option Str) (attributes : Option Int) (append : Bool)
  | update (name guid : Str) (dataFile : Option Str) (attributes : Option Int)
  | delete (name guid : Str)

def Operation.run (env : Env) : Operation → Py Session Bool
  | add name guid dataFile attributes append =>
    addVariable env name guid dataFile attributes append
  | update name guid dataFile attributes => updateVariable env name guid dataFile attributes
  | delete name guid => delVariable name guid

/-- An operation with the files as they are when it is made. -/
structure Call where
  env : Env
  world : World
  operation : Operation

namespace Call

/-- The store that is left, also by an operation that raises. -/
def after (store : VariableStore) (call : Call) : VariableStore :=
  (call.operation.run call.env { world := call.world, store }).2.store

/-- A file that the call enrolls as dbx has the bytes its header declares. -/
def DbxFileWhole (store : VariableStore) (call : Call) : Prop :=
  match call.operation with
  | .add name _ dataFile _ _ => FileWhole call.env name dataFile call.world
  | .update name guid dataFile _ =>
    (store.findVarInList name guid).isSome → FileWhole call.env name dataFile call.world
  | .delete _ _ => True

theorem after_matches_iff {store : VariableStore} (hm : AllMatch store) (call : Call) :
    AllMatch (call.after store) ↔ call.DbxFileWhole store := by
  rw [after, DbxFileWhole]
  cases call.operation with
  | add name guid dataFile attributes append =>
    exact enroll_matches_iff (s := { world := call.world, store }) hm
  | update name guid dataFile attributes =>
    exact update_matches_iff (s := { world := call.world, store }) hm
  | delete name guid => exact iff_of_true (delVariable_matches hm) trivial

end Call

def storeAfter (store : VariableStore) (calls : List Call) : VariableStore :=
  calls.foldl Call.after store

/-- In every store of a run the sizes are right just if no call of the run
enrolls a dbx file that is shorter than it declares. -/
theorem header_sizes_iff (start : MatchedStore) (calls : List Call) :
    (∀ done, done <+: calls → AllMatch (storeAfter start.store done)) ↔
      ∀ done call, done ++ [call] <+: calls →
        call.DbxFileWhole (storeAfter start.store done) := by
  exact foldl_invariant_iff (fun _ hm call => call.after_matches_iff hm) start.allMatch calls

end Runs

def emptyStore : MatchedStore :=
  { store := blankStore 68, allMatch := fun _ hvar => by cases hvar }

/-- A world with a dbx file of 25 bytes, and one of 20 that declares 21. -/
def dbxWorld : World :=
  { files := fun place =>
      if place = [['w']] then
        some { content := List.replicate 16 0 ++ [4, 0, 0, 0] ++ [1, 2, 3, 4, 5], ctime := 0 }
      else if place = [['c']] then
        some { content := List.replicate 16 0 ++ [5, 0, 0, 0], ctime := 0 }
      else none
    clock := 0 }

def dbxCall (file : Str) (append : Bool) : Call :=
  { env := .reliable, world := dbxWorld
    operation := .add "dbx".toList EFI_IMAGE_SECURITY_DATABASE_GUID (some file) (some 0) append }

/-- After a whole file a cut one is appended: four bytes are declared for five. -/
theorem cut_dbx_mismatch : ¬ ∀ done, done <+: [dbxCall ['w'] false, dbxCall ['c'] true] →
    AllMatch (storeAfter emptyStore.store done) := by
  intro h
  have hsizes : ((storeAfter emptyStore.store [dbxCall ['w'] false, dbxCall ['c'] true]).varsList.map
      fun var => (var.dataSize, var.data.length)) = [(4, 5)] := by decide +kernel
  obtain ⟨var, hlist, hpair⟩ := List.map_eq_singleton_iff.mp hsizes
  have hdata := (h _ (List.prefix_refl _) var (by rw [hlist]; exact List.mem_singleton_self var)).data
  obtain ⟨hsize, hlength⟩ := Prod.mk.inj hpair
  rw [hsize, hlength] at hdata
  revert hdata
  decide

end TdxTools.VarEnroll.HeaderSizes
