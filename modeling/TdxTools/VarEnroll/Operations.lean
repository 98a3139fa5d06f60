import TdxTools.VarEnroll.VariableMap

namespace TdxTools.VarEnroll.Operations

open Python.ByteString Python.Exec Python.Struct Python.Text Python.Path Python.Files Python.Table
open Guid Variable Store Records Codec Enroll VariableMap

variable {env : Env} {w : World} {s : Session}

section Reading

variable {path : Option Str} {guid : Str} {owner cert : Bytes}

theorem readPath_some {b : Bytes} (h : dataOf env w path = some b) :
    readPath env path w = (.ok b, w.tick) := by
  unfold dataOf at h
  split at h
  · cases h
  · next hr =>
    obtain ⟨p, rfl, hp⟩ := Option.bind_eq_some_iff.mp h
    rw [readPath, readFile, if_neg hr, hp]

theorem readPath_none (h : dataOf env w path = none) :
    ∃ e w', readPath env path w = (.raised e, w') ∧ w'.files = w.files := by
  cases path with
  | none => exact ⟨_, _, rfl, rfl⟩
  | some p =>
    unfold dataOf at h
    split at h
    · next hr => exact ⟨.osError, w.tick, by rw [readPath, readFile, if_pos hr], rfl⟩
    · next hr =>
      rw [Option.bind_some] at h
      exact ⟨.fileNotFoundError, w.tick, by rw [readPath, readFile, if_neg hr, h], rfl⟩

def certList (owner cert : Bytes) : EfiSignatureList :=
  { signatureType := x509Bytes
    signatureListSize := EfiSignatureList.SIZE + EfiSignatureData.SIZE + cert.length
    signatureHeaderSize := 0, signatureSize := EfiSignatureData.SIZE + cert.length
    signatureData := owner ++ cert }

theorem certList_listSize (owner cert : Bytes) :
    (certList owner cert).signatureListSize = cert.length + 44 := by
  simp only [certList, EfiSignatureList.SIZE, EfiSignatureData.SIZE]
  omega

theorem certList_signatureSize (owner cert : Bytes) :
    (certList owner cert).signatureSize = cert.length + 16 := by
  simp only [certList, EfiSignatureData.SIZE]
  omega

theorem str2guid_x509 : str2guid (some EFI_CERT_X509_GUID) = .ok x509Bytes := by decide +kernel

theorem createPk_some (hg : str2guid (some guid) = .ok owner) (hl : owner.length = 16)
    (hd : dataOf env w path = some cert) :
    createPkX509CertList env path (some guid) w = (.ok (certList owner cert), w.tick) := by
  rw [createPkX509CertList, if_neg (by simp), hg, Py.lift_ok_bind_apply, if_neg (by simp [hl]),
    Py.bind_ok (readPath_some hd), str2guid_x509]
  rfl

theorem createPk_none (hg : str2guid (some guid) = .ok owner) (hl : owner.length = 16)
    (hd : dataOf env w path = none) :
    ∃ e w', createPkX509CertList env path (some guid) w = (.raised e, w') ∧ w'.files = w.files := by
  obtain ⟨e, w', hr, hw⟩ := readPath_none hd
  refine ⟨e, w', ?_, hw⟩
  rw [createPkX509CertList, if_neg (by simp), hg, Py.lift_ok_bind_apply, if_neg (by simp [hl]),
    Py.bind_raised hr]

theorem certList_blob (owner cert : Bytes) :
    (certList owner cert).blob = .ofOption .structError (signatureList owner cert) := by
  rw [EfiSignatureList.blob, certList_listSize, certList_signatureSize, certList, signatureList]
  dsimp only
  by_cases h : cert.length + 44 < 2 ^ 32
  · have h1 : cert.length + 44 < 256 ^ 4 := Nat.lt_of_lt_of_eq h (by norm_num)
    have h2 : cert.length + 16 < 256 ^ 4 := by omega
    have hp : pack [.uint 4, .uint 4, .uint 4] (cert.length + 44, 0, cert.length + 16, ()) =
        some (leBytes 4 (cert.length + 44) ++ (leBytes 4 0 ++ (leBytes 4 (cert.length + 16) ++ []))) := by
      simp only [pack, Fmt.encode]
      rw [if_pos h1, if_pos (by norm_num), if_pos h2]
    rw [hp, if_pos h]
    simp only [Outcome.ofOption_some, Outcome.ok_bind, List.append_nil, List.append_assoc]
  · have h1 : ¬ cert.length + 44 < 256 ^ 4 := fun h1 => h (Nat.lt_of_lt_of_eq h1 (by norm_num))
    have hp : pack [.uint 4, .uint 4, .uint 4] (cert.length + 44, 0, cert.length + 16, ()) = none := by
      simp only [pack, Fmt.encode]
      rw [if_neg h1]
    rw [hp, if_neg h]
    rfl

theorem length_signatureList {list : Bytes} (hl : owner.length = 16)
    (h : signatureList owner cert = some list) :
    (certList owner cert).signatureListSize = list.length := by
  unfold signatureList at h
  split at h
  · cases h
    rw [certList_listSize]
    simp [hl, x509Bytes]
    omega
  · cases h

end Reading

theorem onWorld_ok {α : Type} {x : Py World α} {a : α} {w' : World} (h : x s.world = (.ok a, w')) :
    onWorld x s = (.ok a, { s with world := w' }) := Py.within_ok h

theorem onWorld_raised {α : Type} {x : Py World α} {e : Exn} {w' : World}
    (h : x s.world = (.raised e, w')) : onWorld x s = (.raised e, { s with world := w' }) := by
  rw [onWorld, Py.within_apply, h]

theorem delVariable_apply (name vendorGuid : Str) (s : Session) :
    delVariable name vendorGuid s = (.ok (s.store.delVariable name vendorGuid).1,
      { s with store := (s.store.delVariable name vendorGuid).2 }) := rfl

/-- An operation that raises, with the files as they were. -/
def Refuses (x : Py Session Bool) (s : Session) : Prop :=
  ∃ e s', x s = (.raised e, s') ∧ s'.world.files = s.world.files

/-- An operation that comes to one write into the store. -/
def WritesValue (env : Env) (x : Py Session Bool) (s : Session) (k : Key) (value : Value) : Prop :=
  ∃ name vendorGuid stamp, Addresses name vendorGuid k ∧
    value.timeStamp = (VariableStore.stampFor (.now (env.gmtime s.world.tick.clock))
      value.attributes stamp).blob ∧
    x s = addToStore env name vendorGuid value.attributes stamp value.data value.data.length
      value.append { s with world := s.world.tick }

/-- Does the operation what the edit asks for? -/
def Follows (env : Env) (x : Py Session Bool) (s : Session) : Option Edit → Prop
  | some (.write k value) => WritesValue env x s k value
  | some (.erase k) => ∃ name vendorGuid, Addresses name vendorGuid k ∧
      x s = delVariable name vendorGuid s
  | none => Refuses x s

theorem Follows.congr {x y : Py Session Bool} {edit : Option Edit} (hxy : x s = y s)
    (h : Follows env y s edit) : Follows env x s edit := by
  cases edit with
  | none =>
    obtain ⟨e, s', hy, hs⟩ := h
    exact ⟨e, s', hxy.trans hy, hs⟩
  | some edit =>
    cases edit with
    | write k value =>
      obtain ⟨name, vendorGuid, stamp, ha, ht, hy⟩ := h
      exact ⟨name, vendorGuid, stamp, ha, ht, hxy.trans hy⟩
    | erase k =>
      obtain ⟨name, vendorGuid, ha, hy⟩ := h
      exact ⟨name, vendorGuid, ha, hxy.trans hy⟩

section Adding

variable {dataFile : Option Str} {guid : Str} {owner : Bytes}

/-- Enrolling a certificate, under whatever name. -/
def enrollCert (env : Env) (name vendorGuid guid : Str) (certFile : Option Str) (append : Bool) :
    Py Session Bool := do
  let sigList ← onWorld (createPkX509CertList env certFile (some guid))
  let blob ← .lift sigList.blob
  addToStore env name vendorGuid keyAttributes none blob sigList.signatureListSize append

section Cert

variable {name vendorGuid : Str} {append : Bool} (hg : str2guid (some guid) = .ok owner)
  (hl : owner.length = 16)

include hg hl

theorem enrollCert_written {data list : Bytes} (hd : dataOf env s.world dataFile = some data)
    (hsig : signatureList owner data = some list) :
    enrollCert env name vendorGuid guid dataFile append s =
      addToStore env name vendorGuid keyAttributes none list list.length append
        { s with world := s.world.tick } := by
  rw [enrollCert, Py.bind_ok (onWorld_ok (createPk_some hg hl hd)), certList_blob, hsig,
    length_signatureList hl hsig]
  rfl

theorem enrollCert_refuses
    (h : (dataOf env s.world dataFile).bind (signatureList owner) = none) :
    Refuses (enrollCert env name vendorGuid guid dataFile append) s := by
  cases hd : dataOf env s.world dataFile with
  | none =>
    obtain ⟨e, w', hraise, hw⟩ := createPk_none hg hl hd
    exact ⟨e, _, Py.bind_raised (onWorld_raised hraise), hw⟩
  | some data =>
    rw [hd, Option.bind_some] at h
    refine ⟨.structError, { s with world := s.world.tick }, ?_, rfl⟩
    rw [enrollCert, Py.bind_ok (onWorld_ok (createPk_some hg hl hd)), certList_blob, h]
    rfl

theorem follows_cert {k : Key} (ha : Addresses name vendorGuid k) :
    Follows env (enrollCert env name vendorGuid guid dataFile append) s
      ((dataOf env s.world dataFile).bind fun data =>
        (signatureList owner data).map fun list => .write k
          { attributes := keyAttributes
            timeStamp := (EfiTime.now (env.gmtime s.world.tick.clock)).blob, data := list, append }) := by
  cases hd : dataOf env s.world dataFile with
  | none => exact enrollCert_refuses hg hl (by rw [hd]; rfl)
  | some data =>
    rw [Option.bind_some]
    cases hsig : signatureList owner data with
    | none => exact enrollCert_refuses hg hl (by rw [hd]; exact hsig)
    | some list => exact ⟨name, vendorGuid, none, ha, rfl, enrollCert_written hg hl hd hsig⟩

end Cert

theorem addVariable_pk {name : Str} {attr : Option Int} (h : lower name = "pk".toList) :
    addVariable env name guid dataFile attr false =
      enrollCert env "PK".toList EFI_GLOBAL_VARIABLE guid dataFile false := by
  rw [addVariable, if_pos h, if_neg (by decide)]
  rfl

theorem addVariable_kek {name : Str} {attr : Option Int} {append : Bool}
    (h : lower name = "kek".toList) :
    addVariable env name guid dataFile attr append =
      enrollCert env "KEK".toList EFI_GLOBAL_VARIABLE guid dataFile append := by
  rw [addVariable, if_neg (by rw [h]; decide), if_pos h]
  rfl

theorem addVariable_db {name : Str} {attr : Option Int} {append : Bool}
    (h : lower name = "db".toList) :
    addVariable env name guid dataFile attr append =
      enrollCert env "db".toList EFI_IMAGE_SECURITY_DATABASE_GUID guid dataFile append := by
  rw [addVariable, h, if_neg (by decide), if_neg (by decide), if_pos (by decide), enrollSignatureDb,
    if_pos rfl]
  rfl

theorem addVariable_dbx {name : Str} {attr : Option Int} {append : Bool}
    (h : lower name = "dbx".toList) :
    addVariable env name guid dataFile attr append =
      enrollSignatureDb env "dbx".toList guid dataFile append := by
  rw [addVariable, h, if_neg (by decide), if_neg (by decide), if_pos (by decide)]

theorem not_mem_keyNames {name : Str} (hpk : lower name ≠ "pk".toList)
    (hkek : lower name ≠ "kek".toList) (hdb : lower name ≠ "db".toList)
    (hdbx : lower name ≠ "dbx".toList) : lower name ∉ keyNames := by
  simp only [keyNames, List.mem_cons, List.not_mem_nil, or_false, not_or]
  exact ⟨hpk, hkek, hdb, hdbx⟩

theorem addVariable_other {name : Str} {attr : Option Int} {append : Bool}
    (h : lower name ∉ keyNames) :
    addVariable env name guid dataFile attr append =
      enrollVariable env name guid dataFile attr append := by
  simp only [keyNames, List.mem_cons, List.not_mem_nil, or_false, not_or] at h
  obtain ⟨hpk, hkek, hdb, hdbx⟩ := h
  have hnot : lower name ∉ ["db".toList, "dbx".toList] := by
    simp only [List.mem_cons, List.not_mem_nil, or_false, not_or]
    exact ⟨hdb, hdbx⟩
  rw [addVariable, if_neg hpk, if_neg hkek, if_neg hnot]

theorem addresses_pk : Addresses "PK".toList EFI_GLOBAL_VARIABLE (str2blob "PK".toList, globalBytes) :=
  ⟨by decide, rfl, by decide +kernel, rfl, by decide +kernel⟩

theorem addresses_kek :
    Addresses "KEK".toList EFI_GLOBAL_VARIABLE (str2blob "KEK".toList, globalBytes) :=
  ⟨by decide, rfl, by decide +kernel, rfl, by decide +kernel⟩

theorem addresses_db :
    Addresses "db".toList EFI_IMAGE_SECURITY_DATABASE_GUID (str2blob "db".toList, imageBytes) :=
  ⟨by decide, rfl, by decide +kernel, rfl, by decide +kernel⟩

theorem addresses_dbx : Addresses "dbx".toList EFI_IMAGE_SECURITY_DATABASE_GUID dbxKey :=
  ⟨by decide, rfl, by decide +kernel, rfl, by decide +kernel⟩

/-- The header of a dbx file does not declare more bytes than there are. -/
def DbxWhole (data : Bytes) : Prop := 20 ≤ data.length → leNat (slice data 16 20) + 16 ≤ data.length

theorem enrollDbx_written {append : Bool} {data : Bytes}
    (hd : dataOf env s.world dataFile = some data) (hlen : ¬ data.length < 20) : ∃ t,
      t.blob = data.take 16 ∧ enrollSignatureDb env "dbx".toList guid dataFile append s =
        addToStore env "dbx".toList EFI_IMAGE_SECURITY_DATABASE_GUID keyAttributes (some t)
          (data.drop (leNat (slice data 16 20) + 16))
          ((data.length : Int) - (leNat (slice data 16 20) + 16 : Nat)) append
          { s with world := s.world.tick } := by
  have hstamp : (slice data 0 16).length = 16 := by
    rw [length_slice]
    omega
  obtain ⟨t, ht⟩ := EfiTime.parse_isSome _ hstamp
  refine ⟨t, EfiTime.blob_parse ht, ?_⟩
  rw [enrollSignatureDb, if_neg (by decide), if_pos rfl, Py.bind_ok (onWorld_ok (readPath_some hd)),
    EfiVariableAuthentication2.init, if_neg hlen, ht]
  rfl

theorem enrollDbx_refuses {append : Bool}
    (h : ∀ data, dataOf env s.world dataFile = some data → data.length < 20) :
    Refuses (enrollSignatureDb env "dbx".toList guid dataFile append) s := by
  cases hd : dataOf env s.world dataFile with
  | none =>
    obtain ⟨e, w', hraise, hw⟩ := readPath_none hd
    refine ⟨e, { s with world := w' }, ?_, hw⟩
    rw [enrollSignatureDb, if_neg (by decide), if_pos rfl, Py.bind_raised (onWorld_raised hraise)]
  | some data =>
    refine ⟨.exception ("Error: Cannot parse the dbx bin file(".toList ++ dataFile.getD [] ++
      ")".toList), { s with world := s.world.tick }, ?_, rfl⟩
    rw [enrollSignatureDb, if_neg (by decide), if_pos rfl, Py.bind_ok (onWorld_ok (readPath_some hd)),
      EfiVariableAuthentication2.init, if_pos (h data hd)]
    rfl

theorem follows_dbx {append : Bool} (hdbx : ∀ data, dataOf env s.world dataFile = some data →
    DbxWhole data) :
    Follows env (enrollSignatureDb env "dbx".toList guid dataFile append) s
      ((dataOf env s.world dataFile).bind fun data =>
        if data.length < 20 then none
        else some (.write dbxKey { attributes := keyAttributes, timeStamp := data.take 16
                                   data := data.drop (leNat (slice data 16 20) + 16), append })) := by
  cases hd : dataOf env s.world dataFile with
  | none => exact enrollDbx_refuses (by simp [hd])
  | some data =>
    rw [Option.bind_some]
    by_cases hlen : data.length < 20
    · rw [if_pos hlen]
      apply enrollDbx_refuses
      intro data' hd'
      cases hd.symm.trans hd'
      exact hlen
    · rw [if_neg hlen]
      have hsize : ((data.drop (leNat (slice data 16 20) + 16)).length : Int) =
          (data.length : Int) - (leNat (slice data 16 20) + 16 : Nat) := by
        have := hdbx data hd (by omega)
        rw [List.length_drop]
        omega
      obtain ⟨t, ht, hwrite⟩ := enrollDbx_written hd hlen
      refine ⟨"dbx".toList, EFI_IMAGE_SECURITY_DATABASE_GUID, some t, addresses_dbx, ht.symm, ?_⟩
      rw [hwrite, hsize]

theorem follows_variable {name : Str} {k : Key} {attr : Int} {append : Bool}
    (ha : Addresses name guid k) :
    Follows env (enrollVariable env name guid dataFile attr append) s
      ((dataOf env s.world dataFile).map fun data => .write k
        { attributes := attr
          timeStamp := (VariableStore.stampFor (.now (env.gmtime s.world.tick.clock)) attr none).blob
          data, append }) := by
  cases hd : dataOf env s.world dataFile with
  | none =>
    obtain ⟨e, w', hraise, hw⟩ := readPath_none hd
    exact ⟨e, _, Py.bind_raised (onWorld_raised hraise), hw⟩
  | some data =>
    refine ⟨name, guid, none, ha, rfl, ?_⟩
    rw [enrollVariable, Py.bind_ok (onWorld_ok (readPath_some hd)), Outcome.ofOption_some,
      Py.lift_ok_bind_apply]

/-- `add_variable` makes the edit that the name, the GUID and the data file
ask for, once the attributes are known to be readable. -/
theorem follows_add {name : Str} {attributes : Option Str} {attr : Int} {append : Bool}
    (hn : Ascii name) (hguid : isGuid (some guid) = true) (hlen : guid.length = 36)
    (hg : str2guid (some guid) = .ok owner)
    (hattr : certKey name = none → lower name ≠ "dbx".toList → attributes.bind int16 = some attr)
    (hdbx : lower name = "dbx".toList → ∀ data, dataOf env s.world dataFile = some data →
      DbxWhole data) :
    Follows env (addVariable env name guid dataFile attr append) s
      ((dataOf env s.world dataFile).bind (contentEdit
        (.now (env.gmtime s.world.tick.clock)) name owner attributes append)) := by
  obtain ⟨g, hok, ha⟩ := addresses_of_isGuid hn hguid hlen
  obtain rfl : g = owner := by simpa [hg] using hok.symm
  have hl : g.length = 16 := ha.guid_length
  by_cases hpk : lower name = "pk".toList
  · cases append with
    | true =>
      rw [contentEdit_pk hpk, Option.bind_fun_none, addVariable, if_pos hpk]
      exact ⟨_, s, rfl, rfl⟩
    | false =>
      have hcert : certKey name = some (str2blob "PK".toList, globalBytes) := if_pos hpk
      rw [contentEdit_cert hcert (by simp), addVariable_pk hpk]
      exact follows_cert hg hl addresses_pk
  · have hnot : ¬ (lower name = "pk".toList ∧ append = true) := fun h => hpk h.1
    by_cases hkek : lower name = "kek".toList
    · have hcert : certKey name = some (str2blob "KEK".toList, globalBytes) := by
        rw [certKey, if_neg hpk, if_pos hkek]
      rw [contentEdit_cert hcert hnot, addVariable_kek hkek]
      exact follows_cert hg hl addresses_kek
    · by_cases hdb : lower name = "db".toList
      · have hcert : certKey name = some (str2blob "db".toList, imageBytes) := by
          rw [certKey, if_neg hpk, if_neg hkek, if_pos hdb]
        rw [contentEdit_cert hcert hnot, addVariable_db hdb]
        exact follows_cert hg hl addresses_db
      · have hcert : certKey name = none := by
          rw [certKey, if_neg hpk, if_neg hkek, if_neg hdb]
        by_cases hdbx' : lower name = "dbx".toList
        · rw [contentEdit_dbx hdbx', addVariable_dbx hdbx']
          exact follows_dbx (hdbx hdbx')
        · have hmap : ∀ (f : Bytes → Edit), ((dataOf env s.world dataFile).bind fun data =>
              some (f data)) = (dataOf env s.world dataFile).map f := fun f => by
            cases dataOf env s.world dataFile <;> rfl
          rw [contentEdit_other hcert hdbx' (hattr hcert hdbx'), hmap,
            addVariable_other (not_mem_keyNames hpk hkek hdb hdbx')]
          exact follows_variable ha

end Adding

section Running

variable {args : Args}

/-- The arguments that `check_args` lets pass. -/
def Passes (env : Env) (w : World) (args : Args) : Prop :=
  ∃ name guid, args.name = some name ∧ args.guid = some guid ∧ isGuid (some guid) = true ∧
    (args.operation = some .DEL ∨ ∃ f, args.dataFile = some f ∧ w.isfile env f = true ∧
      (args.operation = none ∨ lower name ∈ keyNames ∨ (args.attributes.bind int16).isSome))

theorem checkArgs_passes (h : Passes env w args) : checkArgs env args w = (.ok true, w) := by
  obtain ⟨name, guid, hn, hg, hguid, hop⟩ := h
  simp only [checkArgs, hn, hg, hguid, Bool.not_true, Bool.false_eq_true, if_false]
  by_cases hdel : args.operation = some .DEL
  · rw [if_pos hdel]
    rfl
  · rw [if_neg hdel]
    obtain ⟨f, hf, hfile, hrest⟩ := hop.resolve_left hdel
    simp only [hf, Py.get_bind_apply, hfile, Bool.not_true, Bool.false_eq_true, if_false]
    by_cases hnone : args.operation = none
    · rw [if_pos hnone]
      rfl
    · rw [if_neg hnone]
      by_cases hkey : lower name ∈ keyNames
      · rw [if_pos hkey]
        rfl
      · obtain ⟨attr, hattr⟩ := Option.isSome_iff_exists.mp ((hrest.resolve_left hnone).resolve_left hkey)
        obtain ⟨a, ha, ha'⟩ := Option.bind_eq_some_iff.mp hattr
        rw [if_neg hkey]
        simp only [ha, ha']
        rfl

theorem checkArgs_refuses (h : ¬ Passes env w args) : ∃ e, checkArgs env args w = (.raised e, w) := by
  cases hn : args.name with
  | none => exact ⟨_, by simp only [checkArgs, hn]; rfl⟩
  | some name =>
    cases hguid : isGuid args.guid with
    | false =>
      cases hg : args.guid with
      | none => exact ⟨.typeError, by simp [checkArgs, hn, hg, isGuid]⟩
      | some guid =>
        rw [hg] at hguid
        exact ⟨_, by simp only [checkArgs, hn, hg, hguid, Bool.not_false, if_true]; rfl⟩
    | true =>
      obtain ⟨guid, hg⟩ : ∃ guid, args.guid = some guid := by
        cases hg : args.guid with
        | none => rw [hg] at hguid; cases hguid
        | some guid => exact ⟨guid, rfl⟩
      have hdel : args.operation ≠ some .DEL := fun hdel =>
        h ⟨name, guid, hn, hg, hg ▸ hguid, Or.inl hdel⟩
      cases hf : args.dataFile with
      | none =>
        exact ⟨.typeError, by
          simp only [checkArgs, hn, hguid, Bool.not_true, Bool.false_eq_true, if_false, hf]
          rw [if_neg hdel]
          rfl⟩
      | some f =>
        simp only [checkArgs, hn, hguid, Bool.not_true, Bool.false_eq_true, if_false, hf]
        rw [if_neg hdel, Py.get_bind_apply]
        cases hfile : w.isfile env f with
        | false => exact ⟨_, rfl⟩
        | true =>
          have hrest : ¬ (args.operation = none ∨ lower name ∈ keyNames ∨
              (args.attributes.bind int16).isSome) := fun hrest =>
            h ⟨name, guid, hn, hg, hg ▸ hguid, Or.inr ⟨f, hf, hfile, hrest⟩⟩
          rw [not_or, not_or] at hrest
          simp only [Bool.not_true, Bool.false_eq_true, if_false]
          rw [if_neg hrest.1, if_neg hrest.2.1]
          cases ha : args.attributes with
          | none => exact ⟨_, rfl⟩
          | some a =>
            have hnone : int16 a = none := by
              simpa [ha] using hrest.2.2
            refine ⟨.valueError, ?_⟩
            simp only [hnone]
            rfl

/-- What the arguments of an in-place run look like. -/
structure InPlace (path : Str) (args : Args) : Prop where
  info_eq : args.info = false
  input_eq : args.input = path
  output_eq : args.output = some path
  operation_mem : args.operation = some .ADD ∨ args.operation = some .APPEND ∨
    args.operation = some .DEL
  name_ascii : ∀ name, args.name = some name → Ascii name
  guid_length : ∀ guid, args.guid = some guid → guid.length = 36

/-- The dbx file of a run, if it is for dbx, is whole. -/
def DbxFileWhole (env : Env) (w : World) (args : Args) : Prop :=
  ∀ name, args.name = some name → lower name = "dbx".toList → args.operation ≠ some .DEL →
    ∀ data, dataOf env w.tick args.dataFile = some data → DbxWhole data

theorem editOf_eq {name guid : Str} {g : Bytes} {attr : Int} (hread : env.readFails w.clock = false)
    (hn : args.name = some name) (hg : args.guid = some guid) (hguid : isGuid (some guid) = true)
    (hgo : str2guid (some guid) = .ok g) (hattr : attributesOf args.attributes = .ok attr) :
    editOf env w args = match args.operation with
      | some .DEL => some (.erase (str2blob name, g))
      | some .ADD => (dataOf env w.tick args.dataFile).bind
          (contentEdit (.now (env.gmtime (w.clock + 2))) name g args.attributes false)
      | some .APPEND => (dataOf env w.tick args.dataFile).bind
          (contentEdit (.now (env.gmtime (w.clock + 2))) name g args.attributes true)
      | _ => none := by
  simp only [editOf, hread, hn, hg, hguid, hgo, hattr, Outcome.value]
  rfl

theorem certKey_eq_none {name : Str} (h : lower name ∉ keyNames) :
    certKey name = none ∧ lower name ≠ "dbx".toList := by
  simp only [keyNames, List.mem_cons, List.not_mem_nil, or_false, not_or] at h
  obtain ⟨hpk, hkek, hdb, hdbx⟩ := h
  exact ⟨by rw [certKey, if_neg hpk, if_neg hkek, if_neg hdb], hdbx⟩

theorem contentEdit_unreadable {now : EfiTime} {name : Str} {guid : Bytes} {attributes : Option Str}
    {append : Bool} (h : lower name ∉ keyNames) (hattr : attributes.bind int16 = none) :
    contentEdit now name guid attributes append = fun _ => none := by
  funext data
  obtain ⟨hc, hdbx⟩ := certKey_eq_none h
  simp only [contentEdit, hc, hattr]
  rw [if_neg hdbx]
  rfl

theorem dataOf_eq_none {f : Str} (h : w.isfile env f = false) : dataOf env w (some f) = none := by
  have hc : w.content env f = none := by
    simpa [World.isfile, World.content] using h
  rw [dataOf, Option.bind_some, hc, ite_self]

theorem editOf_refused (hop : args.operation = some .ADD ∨ args.operation = some .APPEND ∨
    args.operation = some .DEL) (h : ¬ Passes env w.tick args) : editOf env w args = none := by
  cases hread : env.readFails w.clock with
  | true => exact if_pos hread
  | false =>
    cases hn : args.name with
    | none => simp [editOf, hread, hn]
    | some name =>
      cases hg : args.guid with
      | none => simp [editOf, hread, hn, hg]
      | some guid =>
        cases hguid : isGuid (some guid) with
        | false => simp [editOf, hread, hn, hg, hguid]
        | true =>
          cases hgo : (str2guid (some guid)).value with
          | none => simp [editOf, hread, hn, hg, hguid, hgo]
          | some g =>
            cases hao : (attributesOf args.attributes).value with
            | none => simp [editOf, hread, hn, hg, hguid, hgo, hao]
            | some attr =>
              rw [editOf_eq hread hn hg hguid (Outcome.value_eq_some.mp hgo)
                (Outcome.value_eq_some.mp hao)]
              have hnone : ∀ now append, (dataOf env w.tick args.dataFile).bind
                  (contentEdit now name g args.attributes append) = none := by
                intro now append
                cases hf : args.dataFile with
                | none => simp [dataOf]
                | some f =>
                  cases hfile : w.tick.isfile env f with
                  | false => rw [dataOf_eq_none hfile, Option.bind_none]
                  | true =>
                    have hkey : lower name ∉ keyNames := fun hkey =>
                      h ⟨name, guid, hn, hg, hguid, Or.inr ⟨f, hf, hfile, Or.inr (Or.inl hkey)⟩⟩
                    have hattr : args.attributes.bind int16 = none := by
                      by_contra hsome
                      exact h ⟨name, guid, hn, hg, hguid, Or.inr ⟨f, hf, hfile,
                        Or.inr (Or.inr (Option.isSome_iff_ne_none.mpr hsome))⟩⟩
                    rw [contentEdit_unreadable hkey hattr, Option.bind_fun_none]
              rcases hop with hop | hop | hop
              · simp only [hop]
                exact hnone _ _
              · simp only [hop]
                exact hnone _ _
              · exact absurd ⟨name, guid, hn, hg, hguid, Or.inl hop⟩ h

theorem attributesOf_ne_running (attributes : Option Str) : attributesOf attributes ≠ .running := by
  cases attributes with
  | none => simp [attributesOf]
  | some a =>
    rw [attributesOf]
    split
    · simp
    · cases int16 a <;> simp

theorem attributesOf_of_bind {attributes : Option Str} {attr : Int}
    (h : attributes.bind int16 = some attr) : attributesOf attributes = .ok attr := by
  obtain ⟨a, rfl, ha⟩ := Option.bind_eq_some_iff.mp h
  have hne : a ≠ [] := by
    rintro rfl
    cases ha
  rw [attributesOf, if_neg hne, ha]
  rfl

/-- The operation of a run whose arguments pass makes the edit it asks for. -/
theorem follows_operate {path : Str} {store : VariableStore} (hi : InPlace path args)
    (hp : Passes env w.tick args) (hread : env.readFails w.clock = false)
    (hdbx : DbxFileWhole env w args) :
    Follows env (operate env args) { world := w.tick, store } (editOf env w args) := by
  obtain ⟨name, guid, hn, hg, hguid, hpass⟩ := hp
  obtain ⟨g, hgo, ha⟩ := addresses_of_isGuid (hi.name_ascii name hn) hguid (hi.guid_length guid hg)
  cases hattr : attributesOf args.attributes with
  | running => exact absurd hattr (attributesOf_ne_running _)
  | raised e =>
    have hedit : editOf env w args = none := by
      simp [editOf, hread, hn, hg, hguid, hgo, hattr, Outcome.value]
    rw [hedit]
    refine ⟨e, { world := w.tick, store }, ?_, rfl⟩
    rw [operate, hattr, Py.lift_raised_bind_apply]
  | ok attr =>
    rw [editOf_eq hread hn hg hguid hgo hattr]
    have hadd : args.operation ≠ some .DEL → args.operation ≠ none → ∀ append,
        Follows env (addVariable env name guid args.dataFile attr append) { world := w.tick, store }
          ((dataOf env w.tick args.dataFile).bind
            (contentEdit (.now (env.gmtime (w.clock + 2))) name g args.attributes append)) := by
      intro hdel hsome append
      obtain ⟨f, hf, hfile, hrest⟩ := hpass.resolve_left hdel
      refine follows_add (hi.name_ascii name hn) hguid (hi.guid_length guid hg) hgo ?_
        (fun hx data hdata => hdbx name hn hx hdel data hdata)
      intro hc hx
      have hkey : lower name ∉ keyNames := by
        intro hkey
        simp only [keyNames, List.mem_cons, List.not_mem_nil, or_false] at hkey
        rcases hkey with h | h | h | h
        · rw [certKey, if_pos h] at hc
          cases hc
        · rw [certKey, h] at hc
          exact absurd hc (by decide)
        · rw [certKey, h] at hc
          exact absurd hc (by decide)
        · exact hx h
      obtain ⟨attr', hattr'⟩ := Option.isSome_iff_exists.mp
        ((hrest.resolve_left hsome).resolve_left hkey)
      have he := attributesOf_of_bind hattr'
      rw [hattr, Outcome.ok.injEq] at he
      exact he ▸ hattr'
    rcases hi.operation_mem with h | h | h
    · have hf := hadd (by simp [h]) (by simp [h]) false
      rw [h]
      apply hf.congr
      rw [operate, hattr, Py.lift_ok_bind_apply]
      simp only [hn, hg, h]
    · have hf := hadd (by simp [h]) (by simp [h]) true
      rw [h]
      apply hf.congr
      rw [operate, hattr, Py.lift_ok_bind_apply]
      simp only [hn, hg, h]
    · rw [h]
      refine ⟨name, guid, ha, ?_⟩
      rw [operate, hattr, Py.lift_ok_bind_apply]
      simp only [hn, hg, h]

end Running

end TdxTools.VarEnroll.Operations
