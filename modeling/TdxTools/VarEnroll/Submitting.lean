import TdxTools.VarEnroll.Operations

namespace TdxTools.VarEnroll.Submitting

open Python.ByteString Python.Exec Python.Text Python.Files
open Guid Variable Store Enroll VariableMap Operations

/-- What the tool hands to the `add_variable` of the store. -/
structure Submission where
  name : Str
  vendorGuid : Str
  attributes : Int
  timeStamp : Option EfiTime
  buffer : Bytes
  size : Int

/-- The call that hands it over. -/
def Submission.add (env : Env) (sub : Submission) (append : Bool) : Py Session Bool :=
  addToStore env sub.name sub.vendorGuid sub.attributes sub.timeStamp sub.buffer sub.size append

/-- A certificate, enrolled under a fixed name; the GUID is that of its owner. -/
def certSubmission (env : Env) (w : World) (name vendorGuid guid : Str) (certFile : Option Str) :
    Option Submission :=
  (str2guid (some guid)).value.bind fun owner =>
    ((dataOf env w certFile).bind (signatureList owner)).map fun list =>
      { name, vendorGuid, attributes := keyAttributes, timeStamp := none, buffer := list
        size := list.length }

def dbxSubmission (env : Env) (w : World) (dataFile : Option Str) : Option Submission :=
  (dataOf env w dataFile).bind fun data =>
    (EfiVariableAuthentication2.init data).map fun auth2 =>
      { name := "dbx".toList, vendorGuid := EFI_IMAGE_SECURITY_DATABASE_GUID
        attributes := keyAttributes, timeStamp := some auth2.timeStamp
        buffer := data.drop auth2.authinfo2Size
        size := (data.length : Int) - auth2.authinfo2Size }

/-- What the arguments of `add_variable` come to; `none` when they are refused. -/
def submission (env : Env) (w : World) (name guid : Str) (dataFile : Option Str)
    (attributes : Option Int) (append : Bool) : Option Submission :=
  if lower name = "pk".toList then
    if append then none else certSubmission env w "PK".toList EFI_GLOBAL_VARIABLE guid dataFile
  else if lower name = "kek".toList then
    certSubmission env w "KEK".toList EFI_GLOBAL_VARIABLE guid dataFile
  else if lower name = "db".toList then
    certSubmission env w "db".toList EFI_IMAGE_SECURITY_DATABASE_GUID guid dataFile
  else if lower name = "dbx".toList then dbxSubmission env w dataFile
  else attributes.bind fun attributes => (dataOf env w dataFile).map fun data =>
    { name, vendorGuid := guid, attributes, timeStamp := none, buffer := data, size := data.length }

section Refusing

variable {env : Env} {α : Type}

/-- A statement that raises only while the store is as it was. -/
def RaisesClean (x : Py Session α) : Prop :=
  ∀ s e s', x s = (.raised e, s') → s'.store = s.store

theorem RaisesClean.of_same {x : Py Session α} (h : ∀ s, (x s).2.store = s.store) :
    RaisesClean x := by
  intro s e s' hx
  have hs := h s
  rwa [hx] at hs

theorem RaisesClean.bind {β : Type} {x : Py Session α} {f : α → Py Session β}
    (hx : ∀ s, (x s).2.store = s.store) (hf : ∀ a, RaisesClean (f a)) : RaisesClean (x >>= f) := by
  intro s e s' h
  rcases hrun : x s with ⟨o, s₁⟩
  have hs := hx s
  rw [hrun] at hs
  cases o with
  | ok a =>
    rw [Py.bind_ok hrun] at h
    exact (hf a s₁ e s' h).trans hs
  | raised e₁ =>
    rw [Py.bind_raised hrun] at h
    cases h
    exact hs
  | running =>
    rw [Py.bind_running hrun] at h
    cases h

theorem RaisesClean.raise (e : Exn) : RaisesClean (Py.raise e : Py Session α) :=
  .of_same fun _ => rfl

theorem store_onWorld (x : Py World α) (s : Session) : (onWorld x s).2.store = s.store := rfl

theorem RaisesClean.addToStore (name vendorGuid : Str) (attributes : Int)
    (timeStamp : Option EfiTime) (buffer : Bytes) (size : Int) (append : Bool) :
    RaisesClean (addToStore env name vendorGuid attributes timeStamp buffer size append) := by
  intro s e s' h
  unfold Enroll.addToStore at h
  split at h
  · cases h
  · cases h
    rfl
  · cases h

theorem RaisesClean.enrollCert (name vendorGuid guid : Str) (certFile : Option Str)
    (append : Bool) : RaisesClean (enrollCert env name vendorGuid guid certFile append) := by
  apply RaisesClean.bind (store_onWorld _)
  intro sigList
  apply RaisesClean.bind (fun _ => rfl)
  intro blob
  exact .addToStore _ _ _ _ _ _ _

theorem RaisesClean.enrollDbx (guid : Str) (dataFile : Option Str) (append : Bool) :
    RaisesClean (enrollSignatureDb env "dbx".toList guid dataFile append) := by
  rw [enrollSignatureDb, if_neg (by decide), if_pos rfl]
  apply RaisesClean.bind (store_onWorld _)
  intro data
  cases EfiVariableAuthentication2.init data with
  | none => exact .raise _
  | some auth2 => exact .addToStore _ _ _ _ _ _ _

theorem RaisesClean.enrollVariable (name guid : Str) (dataFile : Option Str)
    (attributes : Option Int) (append : Bool) :
    RaisesClean (enrollVariable env name guid dataFile attributes append) := by
  apply RaisesClean.bind (store_onWorld _)
  intro payLoad
  apply RaisesClean.bind (fun _ => rfl)
  intro attributes
  exact .addToStore _ _ _ _ _ _ _

theorem RaisesClean.addVariable (name guid : Str) (dataFile : Option Str) (attributes : Option Int)
    (append : Bool) : RaisesClean (addVariable env name guid dataFile attributes append) := by
  by_cases hpk : lower name = "pk".toList
  · cases append with
    | true =>
      rw [Enroll.addVariable, if_pos hpk, if_pos rfl]
      exact .raise _
    | false =>
      rw [addVariable_pk hpk]
      exact .enrollCert _ _ _ _ _
  · by_cases hkek : lower name = "kek".toList
    · rw [addVariable_kek hkek]
      exact .enrollCert _ _ _ _ _
    · by_cases hdb : lower name = "db".toList
      · rw [addVariable_db hdb]
        exact .enrollCert _ _ _ _ _
      · by_cases hdbx : lower name = "dbx".toList
        · rw [addVariable_dbx hdbx]
          exact .enrollDbx _ _ _
        · rw [addVariable_other (not_mem_keyNames hpk hkek hdb hdbx)]
          exact .enrollVariable _ _ _ _ _

end Refusing

section Submitting

variable {env : Env} {s : Session} {name vendorGuid guid : Str} {dataFile : Option Str}
  {attributes : Option Int} {append : Bool} {sub : Submission}

/-- The statement raises. -/
def Raises (x : Py Session Bool) (s : Session) : Prop := ∃ e s', x s = (.raised e, s')

theorem Raises.of_refuses {x : Py Session Bool} (h : Refuses x s) : Raises x s := by
  obtain ⟨e, s', hx, -⟩ := h
  exact ⟨e, s', hx⟩

/-- Either what is submitted reaches the store, after the data file was read, or
the statement raises. -/
def Submits (env : Env) (x : Py Session Bool) (append : Bool) (s : Session) :
    Option Submission → Prop
  | some sub => x s = sub.add env append { s with world := s.world.tick }
  | none => Raises x s

theorem raises_cert (h : ∀ owner, str2guid (some guid) ≠ .ok owner) :
    Raises (enrollCert env name vendorGuid guid dataFile append) s := by
  have hraise : ∃ e, str2guid (some guid) = .raised e := by
    cases hg : str2guid (some guid) with
    | ok owner => exact absurd hg (h owner)
    | raised e => exact ⟨e, rfl⟩
    | running => exact absurd hg (str2guid_ne_running _)
  obtain ⟨e, he⟩ := hraise
  refine ⟨e, s, ?_⟩
  have hcreate : createPkX509CertList env dataFile (some guid) s.world = (.raised e, s.world) := by
    rw [createPkX509CertList, if_neg (by simp), he, Py.lift_raised_bind_apply]
  rw [enrollCert, Py.bind_raised (onWorld_raised hcreate)]

theorem submits_cert : Submits env (enrollCert env name vendorGuid guid dataFile append) append s
    (certSubmission env s.world name vendorGuid guid dataFile) := by
  rw [certSubmission]
  cases hg : (str2guid (some guid)).value with
  | none =>
    apply raises_cert
    intro owner howner
    rw [howner] at hg
    cases hg
  | some owner =>
    have hg := Outcome.value_eq_some.mp hg
    rw [Option.bind_some]
    cases hlist : (dataOf env s.world dataFile).bind (signatureList owner) with
    | none => exact .of_refuses (enrollCert_refuses hg (length_str2guid hg) hlist)
    | some list =>
      obtain ⟨data, hd, hsig⟩ := Option.bind_eq_some_iff.mp hlist
      exact enrollCert_written hg (length_str2guid hg) hd hsig

theorem submits_dbx : Submits env (enrollSignatureDb env "dbx".toList guid dataFile append) append s
    (dbxSubmission env s.world dataFile) := by
  rw [dbxSubmission]
  cases hd : dataOf env s.world dataFile with
  | none => exact .of_refuses (enrollDbx_refuses (by simp [hd]))
  | some data =>
    rw [Option.bind_some]
    cases hauth : EfiVariableAuthentication2.init data with
    | none =>
      refine ⟨.exception ("Error: Cannot parse the dbx bin file(".toList ++ dataFile.getD [] ++
        ")".toList), { s with world := s.world.tick }, ?_⟩
      rw [enrollSignatureDb, if_neg (by decide), if_pos rfl,
        Py.bind_ok (onWorld_ok (readPath_some hd)), hauth]
      rfl
    | some auth2 =>
      rw [Option.map_some, Submits, enrollSignatureDb, if_neg (by decide), if_pos rfl,
        Py.bind_ok (onWorld_ok (readPath_some hd)), hauth]
      rfl

theorem submits_variable : Submits env (enrollVariable env name guid dataFile attributes append)
    append s (attributes.bind fun attributes => (dataOf env s.world dataFile).map fun data =>
      { name, vendorGuid := guid, attributes, timeStamp := none, buffer := data
        size := data.length }) := by
  cases hd : dataOf env s.world dataFile with
  | none =>
    obtain ⟨e, w', hraise, -⟩ := readPath_none hd
    have hraises : Raises (enrollVariable env name guid dataFile attributes append) s :=
      ⟨e, _, Py.bind_raised (onWorld_raised hraise)⟩
    cases attributes <;> exact hraises
  | some data =>
    cases attributes with
    | none =>
      refine ⟨.typeError, { s with world := s.world.tick }, ?_⟩
      rw [enrollVariable, Py.bind_ok (onWorld_ok (readPath_some hd))]
      rfl
    | some attributes =>
      rw [Option.bind_some, Option.map_some, Submits, enrollVariable,
        Py.bind_ok (onWorld_ok (readPath_some hd))]
      rfl

theorem submits_add : Submits env (addVariable env name guid dataFile attributes append) append s
    (submission env s.world name guid dataFile attributes append) := by
  rw [submission]
  by_cases hpk : lower name = "pk".toList
  · rw [if_pos hpk]
    cases append with
    | true =>
      refine ⟨.exception "PK cannot be appended.".toList, s, ?_⟩
      rw [addVariable, if_pos hpk, if_pos rfl]
      rfl
    | false =>
      rw [if_neg (by decide), addVariable_pk hpk]
      exact submits_cert
  · rw [if_neg hpk]
    by_cases hkek : lower name = "kek".toList
    · rw [if_pos hkek, addVariable_kek hkek]
      exact submits_cert
    · rw [if_neg hkek]
      by_cases hdb : lower name = "db".toList
      · rw [if_pos hdb, addVariable_db hdb]
        exact submits_cert
      · rw [if_neg hdb]
        by_cases hdbx : lower name = "dbx".toList
        · rw [if_pos hdbx, addVariable_dbx hdbx]
          exact submits_dbx
        · rw [if_neg hdbx, addVariable_other (not_mem_keyNames hpk hkek hdb hdbx)]
          exact submits_variable

end Submitting

section Accepting

variable {env : Env} {s s' : Session} {name guid : Str} {dataFile : Option Str}
  {attributes : Option Int} {append : Bool}

/-- The store has the variable already, or can make a new one. -/
def Takes (store : VariableStore) (sub : Submission) : Prop :=
  (store.findVarInList sub.name sub.vendorGuid).isSome ∨
    ∃ g, str2guid (some sub.vendorGuid) = .ok g

/-- The arguments of `add_variable` come to something that the store takes. -/
def Accepted (env : Env) (w : World) (store : VariableStore) (name guid : Str)
    (dataFile : Option Str) (attributes : Option Int) (append : Bool) : Prop :=
  ∃ sub, submission env w name guid dataFile attributes append = some sub ∧ Takes store sub

/-- The list after the call of `add_variable` with what is submitted. -/
def Submission.into (env : Env) (w : World) (sub : Submission) (append : Bool)
    (store : VariableStore) : Outcome VariableStore :=
  store.addVariable (EfiTime.now (env.gmtime w.clock)) sub.name sub.vendorGuid sub.attributes
    sub.timeStamp sub.buffer sub.size append

theorem into_takes {sub : Submission} {store : VariableStore} (env : Env) (w : World)
    (append : Bool) (h : Takes store sub) : ∃ store', sub.into env w append store = .ok store' := by
  cases hfind : store.findVarInList sub.name sub.vendorGuid with
  | some x => exact ⟨_, VariableStore.addVariable_hit hfind⟩
  | none =>
    rw [Takes, hfind] at h
    obtain ⟨g, hg⟩ := h.resolve_left (by simp)
    exact ⟨_, VariableStore.addVariable_miss hfind hg⟩

theorem into_refused {sub : Submission} {store : VariableStore} (env : Env) (w : World)
    (append : Bool) (h : ¬ Takes store sub) : ∃ e, sub.into env w append store = .raised e := by
  rw [Takes, not_or] at h
  obtain ⟨hfind, hguid⟩ := h
  rw [Submission.into, VariableStore.addVariable, Option.not_isSome_iff_eq_none.mp hfind]
  dsimp only
  cases hg : str2guid (some sub.vendorGuid) with
  | ok g => exact absurd ⟨g, hg⟩ hguid
  | raised e => exact ⟨e, rfl⟩
  | running => exact absurd hg (str2guid_ne_running _)

theorem addVariable_accepted {sub : Submission} {store : VariableStore}
    (hsub : submission env s.world name guid dataFile attributes append = some sub)
    (hinto : sub.into env s.world.tick append s.store = .ok store) :
    addVariable env name guid dataFile attributes append s =
      (.ok true, { world := s.world.tick, store }) := by
  have h : Submits env (addVariable env name guid dataFile attributes append) append s
    (submission env s.world name guid dataFile attributes append) := submits_add
  rw [hsub] at h
  refine Eq.trans h ?_
  rw [Submission.into] at hinto
  rw [Submission.add, addToStore, hinto]

theorem addVariable_refused
    (h : ¬ Accepted env s.world s.store name guid dataFile attributes append) :
    ∃ e s', addVariable env name guid dataFile attributes append s = (.raised e, s') ∧
      s'.store = s.store := by
  have hraise : Raises (addVariable env name guid dataFile attributes append) s := by
    have hadd : Submits env (addVariable env name guid dataFile attributes append) append s
      (submission env s.world name guid dataFile attributes append) := submits_add
    cases hsub : submission env s.world name guid dataFile attributes append with
    | none =>
      rw [hsub] at hadd
      exact hadd
    | some sub =>
      rw [hsub] at hadd
      obtain ⟨e, he⟩ := into_refused env s.world.tick append (fun htakes => h ⟨sub, hsub, htakes⟩)
      refine ⟨e, { s with world := s.world.tick }, Eq.trans hadd ?_⟩
      rw [Submission.into] at he
      rw [Submission.add, addToStore, he]
  obtain ⟨e, s', hx⟩ := hraise
  exact ⟨e, s', hx, RaisesClean.addVariable name guid dataFile attributes append s e s' hx⟩

theorem addVariable_eq_ok {ret : Bool}
    (h : addVariable env name guid dataFile attributes append s = (.ok ret, s')) :
    ret = true ∧ ∃ sub store,
      submission env s.world name guid dataFile attributes append = some sub ∧
      sub.into env s.world.tick append s.store = .ok store ∧
      s' = { world := s.world.tick, store } := by
  by_cases hacc : Accepted env s.world s.store name guid dataFile attributes append
  · obtain ⟨sub, hsub, htakes⟩ := hacc
    obtain ⟨store, hinto⟩ := into_takes env s.world.tick append htakes
    rw [addVariable_accepted hsub hinto] at h
    cases h
    exact ⟨rfl, sub, store, hsub, hinto, rfl⟩
  · obtain ⟨e, s₁, hraise, -⟩ := addVariable_refused hacc
    rw [hraise] at h
    cases h

end Accepting

end TdxTools.VarEnroll.Submitting
