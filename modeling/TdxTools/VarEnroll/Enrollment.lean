import TdxTools.VarEnroll.SecureBoot

namespace TdxTools.VarEnroll.Enrollment

open Python.ByteString Python.Exec Python.Text Python.Path Python.Files Python.Table
open Guid Variable Store Store.VariableStore Codec Enroll VariableMap Operations Refinement Rewrite
  Replacing SecureBoot

section Inversion

variable {env : Env} {fuel : Nat} {args : Args} {w w' : World}

/-- A run that returns `True` has found a store, and its operation has not
raised. -/
theorem varEnroll_eq_true (hinfo : args.info = false)
    (h : varEnroll env fuel args w = (.ok true, w')) : ∃ fd store b s',
      w.content env args.input = some fd ∧ findVarInfo fuel fd = .ok (some store) ∧
      Passes env w.tick args ∧
      processVar env args fd { world := w.tick, store } = (.ok b, s') ∧ w' = s'.world := by
  obtain ⟨fdData, w₁, hread, h⟩ := Py.bind_eq_ok.mp h
  cases fdData with
  | none => cases h
  | some fd =>
    have hfd : w.content env args.input = some fd ∧ w₁ = w.tick := by
      cases Py.tryExcept_eq_ok.mp hread with
      | inl hread =>
        obtain ⟨b, w₂, hfile, hpure⟩ := Py.bind_eq_ok.mp hread
        obtain ⟨-, hcontent, hw⟩ := readFile_eq_ok hfile
        cases hpure
        exact ⟨hcontent, hw⟩
      | inr hraised =>
        obtain ⟨e, w₂, -, hpure⟩ := hraised
        cases hpure
    obtain ⟨hcontent, rfl⟩ := hfd
    obtain ⟨found, hfound, h⟩ := Py.lift_bind_eq_ok.mp h
    cases found with
    | none => cases h
    | some store =>
      simp only [hinfo, Bool.false_eq_true, if_false] at h
      obtain ⟨checked, w₂, hcheck, h⟩ := Py.bind_eq_ok.mp h
      cases checked with
      | false => cases h
      | true =>
        have hpass : Passes env w.tick args ∧ w₂ = w.tick := by
          by_cases hp : Passes env w.tick args
          · rw [Py.tryExcept_ok (checkArgs_passes hp)] at hcheck
            cases hcheck
            exact ⟨hp, rfl⟩
          · obtain ⟨e, he⟩ := checkArgs_refuses hp
            rw [Py.tryExcept_raised he] at hcheck
            cases hcheck
        obtain ⟨hp, rfl⟩ := hpass
        cases Py.tryExcept_eq_ok.mp h with
        | inl h =>
          obtain ⟨b, w₃, hstore, hpure⟩ := Py.bind_eq_ok.mp h
          cases hpure
          rw [withStore, Prod.mk.injEq] at hstore
          exact ⟨fd, store, b, _, hcontent, hfound, hp, Prod.ext hstore.1 rfl, hstore.2.symm⟩
        | inr hraised =>
          obtain ⟨e, w₃, -, hpure⟩ := hraised
          cases hpure

/-- Once the operation on the list has returned `True`, `process_var` is the
writing of the list. -/
theorem processVar_synced {path : Str} {fd : Bytes} {b : Bool} {s s₁ s' : Session}
    (hout : args.output = some path) (hop : operate env args s = (.ok true, s₁))
    (h : processVar env args fd s = (.ok b, s')) : ∃ buffer,
      s₁.store.syncBuffer fd = .ok buffer ∧
      s'.world = (s₁.store.syncToFile env fd path s₁.world).2 := by
  rw [processVar_true hout hop, Prod.mk.injEq] at h
  obtain ⟨buffer, hbuffer, -⟩ := Py.lift_bind_eq_ok.mp (Prod.ext h.1 rfl :
    s₁.store.syncToFile env fd path s₁.world = (.ok b, _))
  exact ⟨buffer, hbuffer, by rw [← h.2]⟩

theorem syncToFile_dropped {self : VariableStore} {fd buffer : Bytes} {path : Str}
    (hbuffer : self.syncBuffer fd = .ok buffer) (hfault : env.writeFault w.clock = .notOpened) :
    (self.syncToFile env fd path w).2.files = w.files := by
  have hraise : writeFile env path buffer w = (.raised .osError, w.tick) := by
    rw [writeFile, hfault]
    split <;> rfl
  rw [syncToFile, hbuffer, Py.lift_ok_bind_apply,
    Py.tryExcept_raised (Py.bind_raised hraise)]
  rfl

end Inversion

/-- The vendor a variable is enrolled under. -/
def vendorGuid (r : Request) : Str :=
  match r.var with
  | .PK | .KEK => EFI_GLOBAL_VARIABLE
  | .db | .dbx => EFI_IMAGE_SECURITY_DATABASE_GUID
  | .SecureBootEnable => r.guid

/-- The content that a request makes of its data file. -/
def payload (r : Request) (data : Bytes) : Option Bytes :=
  match r.var with
  | .PK | .KEK | .db => (str2guid (some r.guid)).value.bind fun owner => signatureList owner data
  | .dbx => if data.length < 20 then none else some (data.drop (leNat (slice data 16 20) + 16))
  | .SecureBootEnable => some data

section Adding

variable {env : Env} {s s' : Session} {b : Bool}

/-- An operation that comes to one write of the content into the store. -/
structure AddsContent (env : Env) (r : Request) (x : Py Session Bool) (s : Session) (data : Bytes) :
    Prop where
  data_eq : dataOf env s.world (some r.dataFile) = some data
  adds : ∃ content attributes stamp, ∃ size : Int, payload r data = some content ∧
    (0 ≤ size → size = content.length) ∧
    x s = addToStore env r.var.name (vendorGuid r) attributes stamp content size false
      { s with world := s.world.tick }

theorem adds_cert {r : Request} {name vendor : Str} (hname : r.var.name = name)
    (hvendor : vendorGuid r = vendor)
    (hpay : ∀ data, payload r data =
      (str2guid (some r.guid)).value.bind fun owner => signatureList owner data)
    (h : enrollCert env name vendor r.guid (some r.dataFile) false s = (.ok b, s')) : ∃ data,
      AddsContent env r (enrollCert env name vendor r.guid (some r.dataFile) false) s data := by
  subst hname hvendor
  cases hg : str2guid (some r.guid) with
  | raised e =>
    obtain ⟨sigList, w₁, hcreate, -⟩ := Py.within_bind_eq_ok.mp h
    rw [createPkX509CertList, if_neg (by simp), hg, Py.lift_raised_bind_apply] at hcreate
    cases hcreate
  | running =>
    obtain ⟨sigList, w₁, hcreate, -⟩ := Py.within_bind_eq_ok.mp h
    obtain ⟨owner, howner, -⟩ := Py.lift_bind_eq_ok.mp hcreate
    cases hg.symm.trans howner
  | ok owner =>
    have hl := length_str2guid hg
    cases hlist : (dataOf env s.world (some r.dataFile)).bind (signatureList owner) with
    | none =>
      obtain ⟨e, s₁, hraise, -⟩ := enrollCert_refuses hg hl hlist
      rw [hraise] at h
      cases h
    | some list =>
      obtain ⟨data, hd, hsig⟩ := Option.bind_eq_some_iff.mp hlist
      refine ⟨data, hd, list, keyAttributes, none, list.length, ?_, fun _ => rfl,
        enrollCert_written hg hl hd hsig⟩
      rw [hpay, hg]
      exact hsig

theorem adds_dbx {r : Request} (hvar : r.var = .dbx)
    (h : enrollSignatureDb env "dbx".toList r.guid (some r.dataFile) false s = (.ok b, s')) :
    ∃ data, AddsContent env r (enrollSignatureDb env "dbx".toList r.guid (some r.dataFile) false) s
      data := by
  by_cases hshort : ∀ data, dataOf env s.world (some r.dataFile) = some data → data.length < 20
  · have hrefuse : Refuses (enrollSignatureDb env "dbx".toList r.guid (some r.dataFile) false) s :=
      enrollDbx_refuses hshort
    obtain ⟨e, s₁, hraise, -⟩ := hrefuse
    rw [hraise] at h
    cases h
  · simp only [not_forall] at hshort
    obtain ⟨data, hd, hlen⟩ := hshort
    obtain ⟨t, -, hwrite⟩ := enrollDbx_written hd hlen
    refine ⟨data, hd, data.drop (leNat (slice data 16 20) + 16), keyAttributes, some t,
      (data.length : Int) - (leNat (slice data 16 20) + 16 : Nat), ?_, ?_, ?_⟩
    · rw [payload, hvar]
      exact if_neg hlen
    · intro hsize
      rw [List.length_drop]
      omega
    · rw [hwrite, vendorGuid, hvar]
      rfl

theorem adds_variable {r : Request} {name : Str} {attr : Int} (hvar : r.var = .SecureBootEnable)
    (hname : r.var.name = name)
    (h : enrollVariable env name r.guid (some r.dataFile) attr false s = (.ok b, s')) : ∃ data,
      AddsContent env r (enrollVariable env name r.guid (some r.dataFile) attr false) s data := by
  subst hname
  obtain ⟨data, w₁, hread, -⟩ := Py.within_bind_eq_ok.mp h
  cases hd : dataOf env s.world (some r.dataFile) with
  | none =>
    obtain ⟨e, w₂, hraise, -⟩ := readPath_none hd
    rw [hraise] at hread
    cases hread
  | some data' =>
    refine ⟨data', hd, data', attr, none, data'.length, ?_, fun _ => rfl, ?_⟩
    · rw [payload, hvar]
    · rw [enrollVariable, Py.bind_ok (onWorld_ok (readPath_some hd)), Outcome.ofOption_some,
        Py.lift_ok_bind_apply, vendorGuid, hvar]

theorem adds_content {r : Request} {attr : Int}
    (h : addVariable env r.var.name r.guid (some r.dataFile) attr false s = (.ok b, s')) :
    ∃ data, AddsContent env r (addVariable env r.var.name r.guid (some r.dataFile) attr false) s
      data := by
  have hpay : r.var = .PK ∨ r.var = .KEK ∨ r.var = .db → ∀ data, payload r data =
      (str2guid (some r.guid)).value.bind fun owner => signatureList owner data := by
    rintro (hvar | hvar | hvar) data <;> rw [payload, hvar]
  cases hvar : r.var with
  | PK =>
    rw [hvar, addVariable_pk (by decide)] at h
    rw [addVariable_pk (by decide)]
    exact adds_cert (by rw [hvar]; rfl) (by rw [vendorGuid, hvar]) (hpay (by simp [hvar])) h
  | KEK =>
    rw [hvar, addVariable_kek (by decide)] at h
    rw [addVariable_kek (by decide)]
    exact adds_cert (by rw [hvar]; rfl) (by rw [vendorGuid, hvar]) (hpay (by simp [hvar])) h
  | db =>
    rw [hvar, addVariable_db (by decide)] at h
    rw [addVariable_db (by decide)]
    exact adds_cert (by rw [hvar]; rfl) (by rw [vendorGuid, hvar]) (hpay (by simp [hvar])) h
  | dbx =>
    rw [hvar, addVariable_dbx (by decide)] at h
    rw [addVariable_dbx (by decide)]
    exact adds_dbx hvar h
  | SecureBootEnable =>
    rw [hvar, addVariable_other (by decide)] at h
    rw [addVariable_other (by decide)]
    exact adds_variable hvar (by rw [hvar]) h

end Adding

/-- The list has the content that was asked for. -/
def Enrolled (env : Env) (w : World) (vars : List VariableTimeBasedAuth) (r : Request) : Prop :=
  ∃ g data content, str2guid (some (vendorGuid r)) = .ok g ∧ w.content env r.dataFile = some data ∧
    payload r data = some content ∧ dataAt vars (str2blob r.var.name, g) = some content

/-- The write of the FD meets no fault. Then the list is written behind the header
of the volume and has room there, what it keeps is whole, and a GUID text that is
too long to be looked up is not that of a variable of the list. Or the FD cannot
be opened, and the list has the content already. -/
inductive WriteFits (env : Env) (w : World) (r : Request) (fd : Bytes) (volume : FirmwareVolume)
    (store : VariableStore) (k : Key) (content : Bytes) : Prop
  | written : env.writeFault (w.clock + 2) = .none →
      FirmwareVolume.headerSize ≤ volume.hdrlen + headerSize →
      Room (grown fd volume store) (sizeWith k content store.varsList) → Kept k store.varsList →
      (vendorGuid r).length = 36 ∨ k ∉ store.varsList.map keyOf →
      WriteFits env w r fd volume store k content
  | dropped : env.writeFault (w.clock + 2) = .notOpened →
      dataAt store.varsList k = some content → WriteFits env w r fd volume store k content

/-- An enrollment has a data file of its own, and its write fits. -/
structure StepFits (env : Env) (fuel : Nat) (tmpFile : Str) (r : Request) (w : World) : Prop where
  apart : resolve env.cwd r.dataFile ≠ resolve env.cwd tmpFile
  fits : ∀ fd volume store data g content, w.content env tmpFile = some fd →
    FirmwareVolume.init (slice fd 0 128) = some volume → findVarInfo fuel fd = .ok (some store) →
    w.content env r.dataFile = some data → payload r data = some content →
    str2guid (some (vendorGuid r)) = .ok g →
    WriteFits env w r fd volume store (str2blob r.var.name, g) content

section Step

theorem dataSize_nonneg {vars : List VariableTimeBasedAuth} {blob : Bytes}
    (h : varsBlob vars = .ok blob) {v : VariableTimeBasedAuth} (hv : v ∈ vars) : 0 ≤ v.dataSize := by
  induction vars generalizing blob with
  | nil => cases hv
  | cons u vars ih =>
    obtain ⟨vbin, hu, h⟩ := Outcome.bind_eq_ok.mp h
    obtain ⟨rest, hrest, -⟩ := Outcome.bind_eq_ok.mp h
    cases hv with
    | head =>
      obtain ⟨-, header, -, -, -, -, -, -, hsize, -⟩ := VariableTimeBasedAuth.header_of_blob hu
      exact hsize ▸ Int.natCast_nonneg header.dataSize
    | tail _ hv => exact ih hrest hv

variable {env : Env} {fuel : Nat} {tmpFile : Str} {r : Request} {w w' : World}

theorem isGuid_vendorGuid (h : isGuid (some r.guid) = true) :
    isGuid (some (vendorGuid r)) = true := by
  have hglobal : isGuid (some EFI_GLOBAL_VARIABLE) = true := by decide +kernel
  have himage : isGuid (some EFI_IMAGE_SECURITY_DATABASE_GUID) = true := by decide +kernel
  rw [vendorGuid]
  cases r.var with
  | PK | KEK => exact hglobal
  | db | dbx => exact himage
  | SecureBootEnable => exact h

theorem ascii_name (var : SbVar) : Ascii var.name := by
  cases var <;> decide

theorem attributesOf_args (r : Request) (tmpFile : Str) :
    ∃ attr, attributesOf (r.args tmpFile).attributes = .ok attr := by
  rw [Request.args]
  dsimp only
  split
  · exact ⟨3, by decide +kernel⟩
  · exact ⟨0, rfl⟩

theorem content_of_dataOf {f : Str} {data : Bytes} (h : dataOf env w (some f) = some data) :
    w.content env f = some data := by
  unfold dataOf at h
  split at h
  · cases h
  · exact h

theorem operate_request {s s₁ : Session} {ret : Bool}
    (h : operate env (r.args tmpFile) s = (.ok ret, s₁)) : ∃ data content now attributes stamp,
      ∃ size : Int, dataOf env s.world (some r.dataFile) = some data ∧ payload r data = some content ∧
      (0 ≤ size → size = content.length) ∧ ret = true ∧ s₁.world = s.world.tick ∧
      s.store.addVariable now r.var.name (vendorGuid r) attributes stamp content size false =
        .ok s₁.store := by
  obtain ⟨attr, hattr⟩ := attributesOf_args r tmpFile
  have hop : operate env (r.args tmpFile) s =
      addVariable env r.var.name r.guid (some r.dataFile) attr false s := by
    rw [operate, hattr, Py.lift_ok_bind_apply]
    rfl
  rw [hop] at h
  obtain ⟨data, hdata, content, attributes, stamp, size, hpay, hsize, hadd⟩ := adds_content h
  rw [hadd, addToStore] at h
  split at h
  · next store hstore =>
    cases h
    exact ⟨data, content, _, attributes, stamp, size, hdata, hpay, hsize, rfl, rfl, hstore⟩
  · cases h
  · cases h

/-- An enrollment that returns `True` puts the content it was asked for on file
and keeps the content of all variables with other names. -/
theorem enrolls {fd : Bytes} {volume : FirmwareVolume} {store : VariableStore}
    {vars : List VariableTimeBasedAuth} (hs : Reads fd volume store vars)
    (hfd : w.content env tmpFile = some fd) (hfits : StepFits env fuel tmpFile r w)
    (h : varEnroll env fuel (r.args tmpFile) w = (.ok true, w')) : ∃ fd' store' vars',
      w'.content env tmpFile = some fd' ∧ Reads fd' volume store' vars' ∧ Enrolled env w vars' r ∧
      ∀ k : Key, k.1 ≠ str2blob r.var.name → dataAt vars' k = dataAt vars k := by
  obtain ⟨fd₀, found, b, s', hcontent, hfind, hp, hrun, hw'⟩ := varEnroll_eq_true rfl h
  obtain rfl : fd = fd₀ := Option.some.inj (hfd.symm.trans hcontent)
  obtain ⟨varsSize, rfl⟩ : ∃ varsSize, found = { store with varsList := vars, varsSize } := by
    cases fuel with
    | zero => cases hfind
    | succ n =>
      obtain ⟨varsSize, hread⟩ := hs.find n
      exact ⟨varsSize, Option.some.inj (Outcome.ok.inj (hfind.symm.trans hread))⟩
  have hguid : isGuid (some r.guid) = true := by
    obtain ⟨name, guid, -, hg, hguid, -⟩ := hp
    cases hg
    exact hguid
  obtain ⟨ret, s₁, hop, -⟩ := Py.bind_eq_ok.mp hrun
  obtain ⟨data, content, now, attributes, stamp, size, hdata, hpay, hsize, rfl, hworld, hadd⟩ :=
    operate_request hop
  obtain ⟨g, hg⟩ := guid_of_addVariable hs.held (isGuid_vendorGuid hguid) hadd
  have hdata' : w.tick.content env r.dataFile = some data := content_of_dataOf hdata
  obtain ⟨buffer, hbuffer, hsynced⟩ := processVar_synced rfl hop hrun
  have hclock : s₁.world.clock = w.clock + 2 := congrArg World.clock hworld
  cases hfits.fits fd volume _ data g content hfd hs.volume_eq hfind hdata' hpay hg with
  | dropped hfault hhas =>
    have hfiles : w'.files = w.files := by
      rw [hw', hsynced, syncToFile_dropped hbuffer (hclock ▸ hfault), hworld]
      rfl
    refine ⟨fd, store, vars, ?_, hs, ⟨g, data, content, hg, hdata', hpay, hhas⟩, fun _ _ => rfl⟩
    rw [World.content_congr hfiles, hfd]
  | written hreaches hbehind hroom hkept hfound =>
  obtain ⟨hstore, hnew⟩ := addVariable_replaced hs.held (ascii_name r.var)
    (isGuid_vendorGuid hguid) hg hfound hadd
  have hput : s'.world = s₁.world.put (resolve env.cwd tmpFile) buffer := by
    rw [hsynced, syncToFile_ok hbuffer (World.names_of_content hfd) (hclock ▸ hreaches)]
  obtain ⟨blob, hblob, -⟩ := Frame.syncBuffer_eq_ok hbuffer
  have hsound : ∀ v ∈ s₁.store.varsList, Sound v := by
    obtain ⟨v, hv, hvsize⟩ := hnew.has_new
    exact hnew.sound (hsize (hvsize ▸ dataSize_nonneg hblob hv)) hkept
  have hlength : blob.length = sizeWith (str2blob r.var.name, g) content vars :=
    (Frame.varsBlob_length hblob).trans hnew.totalSize_eq
  have hroom' : Room (grown fd volume store) blob.length := by
    rw [hlength]
    exact ⟨hroom.inside, hroom.there, hroom.ends⟩
  obtain ⟨fd', vars', hsync, hshows, hread⟩ :=
    hs.toPlaced.rewritten hbehind hroom' hsound hblob varsSize
  have hbuffer' := (congrArg (fun self : VariableStore => self.syncBuffer fd) hstore).symm.trans hbuffer
  obtain rfl : fd' = buffer := Outcome.ok.inj (hsync.symm.trans hbuffer')
  have hdata : dataAt vars' = Function.update (dataAt vars) (str2blob r.var.name, g) (some content) :=
    (dataAt_readBack hread).trans hnew.data_eq
  refine ⟨fd', _, vars', ?_, hshows.reads, ⟨g, data, content, hg, hdata', hpay, ?_⟩, ?_⟩
  · rw [hw', hput]
    exact World.content_put_self env _ tmpFile (World.names_of_content hfd) fd'
  · rw [hdata, Function.update_self]
  · intro k hk
    rw [hdata]
    exact Function.update_of_ne (fun he => hk (congrArg Prod.fst he)) _ _

end Step

/-- Every enrollment that is reached fits. -/
def StepsFit (env : Env) (fuel : Nat) (tmpFile : Str) : List Request → World → Prop
  | [], _ => True
  | r :: rs, w => StepFits env fuel tmpFile r w ∧
      ∀ w', varEnroll env fuel (r.args tmpFile) w = (.ok true, w') → StepsFit env fuel tmpFile rs w'

section Run

variable {env : Env} {fuel : Nat} {tmpFile : Str} {r : Request} {rs : List Request} {w w' : World}

theorem name_blob_ne {v u : SbVar} (h : v ≠ u) : str2blob v.name ≠ str2blob u.name := by
  intro he
  apply h
  have hname := str2blob_injective (ascii_name v) (ascii_name u) he
  clear he h
  revert hname
  cases v <;> cases u <;> decide

theorem Enrolled.congr {vars vars' : List VariableTimeBasedAuth}
    (hcontent : w'.content env r.dataFile = w.content env r.dataFile)
    (hdata : ∀ g, dataAt vars' (str2blob r.var.name, g) = dataAt vars (str2blob r.var.name, g))
    (h : Enrolled env w' vars r) : Enrolled env w vars' r := by
  obtain ⟨g, data, content, hg, hfile, hpay, hat⟩ := h
  exact ⟨g, data, content, hg, hcontent.symm.trans hfile, hpay, (hdata g).trans hat⟩

theorem enrollAll_cons (h : enrollAll env fuel tmpFile (r :: rs) w = (.ok true, w')) : ∃ w₁,
    varEnroll env fuel (r.args tmpFile) w = (.ok true, w₁) ∧
    enrollAll env fuel tmpFile rs w₁ = (.ok true, w') := by
  obtain ⟨ret, w₁, hrun, hrest⟩ := Py.bind_eq_ok.mp h
  cases ret with
  | false => cases hrest
  | true => exact ⟨w₁, hrun, hrest⟩

theorem touches_enrollAll (rs : List Request) : Touches env tmpFile (enrollAll env fuel tmpFile rs) := by
  induction rs with
  | nil => exact .of_same fun _ => rfl
  | cons r rs ih =>
    apply Touches.bind (touches_varEnroll rfl fuel)
    intro ret
    split
    · exact ih
    · exact .of_same fun _ => rfl

theorem apart_of_fit (hfits : StepsFit env fuel tmpFile rs w)
    (h : enrollAll env fuel tmpFile rs w = (.ok true, w')) :
    ∀ r ∈ rs, resolve env.cwd r.dataFile ≠ resolve env.cwd tmpFile := by
  induction rs generalizing w with
  | nil => simp
  | cons r rs ih =>
    obtain ⟨w₁, hrun, hrest⟩ := enrollAll_cons h
    exact List.forall_mem_cons.mpr ⟨hfits.1.apart, ih (hfits.2 w₁ hrun) hrest⟩

/-- A run of enrollments that returns `True` has each content on file: a step
puts its own there and keeps those of the steps before. -/
theorem enrollAll_enrolled (hdistinct : (rs.map Request.var).Nodup) {fd : Bytes}
    {volume : FirmwareVolume} {store : VariableStore} {vars : List VariableTimeBasedAuth}
    (hs : Reads fd volume store vars) (hfd : w.content env tmpFile = some fd)
    (hfits : StepsFit env fuel tmpFile rs w)
    (h : enrollAll env fuel tmpFile rs w = (.ok true, w')) : ∃ fd' store' vars',
      w'.content env tmpFile = some fd' ∧ Reads fd' volume store' vars' ∧
      (∀ r ∈ rs, Enrolled env w vars' r) ∧
      ∀ k : Key, (∀ r ∈ rs, k.1 ≠ str2blob r.var.name) → dataAt vars' k = dataAt vars k := by
  induction rs generalizing w fd store vars with
  | nil =>
    cases h
    exact ⟨fd, store, vars, hfd, hs, by simp, fun _ _ => rfl⟩
  | cons r rs ih =>
    obtain ⟨w₁, hrun, hrest⟩ := enrollAll_cons h
    obtain ⟨hstep, hsteps⟩ := hfits
    rw [List.map_cons, List.nodup_cons] at hdistinct
    obtain ⟨fd₁, store₁, vars₁, hfd₁, hs₁, hnew, hkept₁⟩ := enrolls hs hfd hstep hrun
    obtain ⟨fd', store', vars', hfd', hs', hall, hkept⟩ :=
      ih hdistinct.2 hs₁ hfd₁ (hsteps w₁ hrun) hrest
    have hapart := apart_of_fit (hsteps w₁ hrun) hrest
    have hframe : Frame env tmpFile w w₁ := (touches_varEnroll rfl fuel).rel hrun
    have hother : ∀ r' ∈ rs, str2blob r.var.name ≠ str2blob r'.var.name := fun r' hr =>
      name_blob_ne fun he => hdistinct.1 (he ▸ List.mem_map_of_mem hr)
    refine ⟨fd', store', vars', hfd', hs', ?_, ?_⟩
    · intro r' hr
      cases hr with
      | head => exact hnew.congr rfl (fun g => hkept (str2blob r.var.name, g) hother)
      | tail _ hr => exact (hall r' hr).congr (hframe.content (hapart r' hr)) (fun _ => rfl)
    · intro k hk
      rw [hkept k fun r' hr => hk r' (List.mem_cons_of_mem r hr), hkept₁ k (hk r List.mem_cons_self)]

end Run

end TdxTools.VarEnroll.Enrollment
