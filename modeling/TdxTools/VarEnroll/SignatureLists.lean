import TdxTools.VarEnroll.Updating

namespace TdxTools.VarEnroll.SignatureLists

open Python.ByteString Python.Exec Python.Struct Python.Text Python.Files
open Guid Variable Store Enroll VariableMap Operations Submitting Updating

/-- The owner and the certificate. -/
abbrev Signature := Bytes × Bytes

section Lists

def listFmt : List Fmt := [.raw 16, .uint 4, .uint 4, .uint 4]

def headerVals (list : EfiSignatureList) : Vals listFmt :=
  (list.signatureType, list.signatureListSize, list.signatureHeaderSize, list.signatureSize, ())

/-- The lists in the data of a variable. Each says how long it is, and the next
one starts behind it. -/
def readLists : Nat → Bytes → Option (List EfiSignatureList)
  | _, [] => some []
  | 0, _ :: _ => none
  | fuel + 1, data =>
    match unpack listFmt (data.take EfiSignatureList.SIZE) with
    | none => none
    | some (signatureType, signatureListSize, signatureHeaderSize, signatureSize, _) =>
      if EfiSignatureList.SIZE ≤ signatureListSize ∧ signatureListSize ≤ data.length then
        (readLists fuel (data.drop signatureListSize)).map fun lists =>
          { signatureType, signatureListSize, signatureHeaderSize, signatureSize
            signatureData := slice data EfiSignatureList.SIZE signatureListSize } :: lists
      else none

/-- A list of one X.509 certificate and nothing else. -/
structure OneX509 (list : EfiSignatureList) : Prop where
  type_eq : list.signatureType = x509Bytes
  headerSize_eq : list.signatureHeaderSize = 0
  listSize_eq : list.signatureListSize = EfiSignatureList.SIZE + list.signatureSize
  length_eq : list.signatureData.length = list.signatureSize
  owned : EfiSignatureData.SIZE ≤ list.signatureSize

def signatureOf (list : EfiSignatureList) : Signature :=
  (list.signatureData.take EfiSignatureData.SIZE, list.signatureData.drop EfiSignatureData.SIZE)

/-- The data is read as lists of one certificate each, and these are the
certificates with their owners. -/
def ReadAs (data : Bytes) (signatures : List Signature) : Prop :=
  ∃ lists, readLists data.length data = some lists ∧ (∀ list ∈ lists, OneX509 list) ∧
    lists.map signatureOf = signatures

/-- The sizes of the list have room in their fields. -/
def Fits (signature : Signature) : Prop :=
  signature.1.length = 16 ∧ signature.2.length + 44 < 2 ^ 32

instance (signature : Signature) : Decidable (Fits signature) := inferInstanceAs (Decidable (_ ∧ _))

def listBytes (signature : Signature) : Bytes :=
  x509Bytes ++ leBytes 4 (signature.2.length + 44) ++ leBytes 4 0 ++
    leBytes 4 (signature.2.length + 16) ++ (signature.1 ++ signature.2)

variable {signature : Signature} (h : Fits signature)
include h

theorem length_listBytes : (listBytes signature).length = signature.2.length + 44 := by
  simp [listBytes, x509Bytes, h.1]
  omega

theorem oneX509_certList : OneX509 (certList signature.1 signature.2) := by
  refine ⟨rfl, rfl, Nat.add_assoc _ _ _, ?_, Nat.le_add_right _ _⟩
  rw [certList_signatureSize, certList, List.length_append, h.1, Nat.add_comm]

theorem signatureOf_certList : signatureOf (certList signature.1 signature.2) = signature := by
  have hl : signature.1.length = EfiSignatureData.SIZE := h.1
  rw [signatureOf, certList, List.take_left' hl, List.drop_left' hl]

theorem unpack_listBytes (rest : Bytes) :
    unpack listFmt ((listBytes signature ++ rest).take EfiSignatureList.SIZE) =
      some (headerVals (certList signature.1 signature.2)) := by
  have hlt := h.2
  have h1 : signature.2.length + 44 < 256 ^ 4 := by omega
  have h2 : signature.2.length + 16 < 256 ^ 4 := by omega
  have hpack : pack listFmt (headerVals (certList signature.1 signature.2)) =
      some (x509Bytes ++ (leBytes 4 (signature.2.length + 44) ++ (leBytes 4 0 ++
        (leBytes 4 (signature.2.length + 16) ++ [])))) := by
    rw [headerVals, certList_listSize, certList_signatureSize]
    simp only [listFmt, certList, pack, Fmt.encode]
    rw [if_pos h1, if_pos (by norm_num), if_pos h2]
    rfl
  have htake : (listBytes signature ++ rest).take EfiSignatureList.SIZE =
      x509Bytes ++ (leBytes 4 (signature.2.length + 44) ++ (leBytes 4 0 ++
        (leBytes 4 (signature.2.length + 16) ++ []))) := by
    rw [listBytes, List.append_assoc, List.take_left' (by simp [x509Bytes, EfiSignatureList.SIZE])]
    simp
  rw [htake, unpack_of_pack hpack]
  rfl

/-- The first list is read by its size. -/
theorem readLists_cons (fuel : Nat) (rest : Bytes) :
    readLists (fuel + 1) (listBytes signature ++ rest) =
      (readLists fuel rest).map (certList signature.1 signature.2 :: ·) := by
  let list := certList signature.1 signature.2
  have hl : (listBytes signature).length = list.signatureListSize := by
    rw [length_listBytes h, certList_listSize]
  have hbody : slice (listBytes signature ++ rest) EfiSignatureList.SIZE list.signatureListSize =
      signature.1 ++ signature.2 := by
    rw [slice, List.take_left' hl, listBytes,
      List.drop_left' (by simp [x509Bytes, EfiSignatureList.SIZE])]
  have hfit : EfiSignatureList.SIZE ≤ list.signatureListSize ∧
      list.signatureListSize ≤ (listBytes signature ++ rest).length := by
    rw [List.length_append, hl, certList_listSize, EfiSignatureList.SIZE]
    omega
  have hdrop : (listBytes signature ++ rest).drop list.signatureListSize = rest :=
    List.drop_left' hl
  have hunpack := unpack_listBytes h rest
  have hne : listBytes signature ++ rest ≠ [] := by
    intro he
    rw [he] at hfit
    exact absurd hfit.2 (by simp [list, certList_listSize])
  obtain ⟨x, xs, hx⟩ := List.exists_cons_of_ne_nil hne
  rw [hx] at hunpack hbody hfit hdrop ⊢
  rw [readLists, hunpack]
  · dsimp only [headerVals]
    rw [if_pos hfit, hdrop, hbody]
    rfl
  · intro hnil
    cases hnil

end Lists

theorem readLists_flatMap (signatures : List Signature) (h : ∀ signature ∈ signatures, Fits signature)
    (fuel : Nat) (hfuel : signatures.length ≤ fuel) :
    readLists fuel (signatures.flatMap listBytes) =
      some (signatures.map fun signature => certList signature.1 signature.2) := by
  induction signatures generalizing fuel with
  | nil => cases fuel <;> rfl
  | cons signature signatures ih =>
    cases fuel with
    | zero => cases hfuel
    | succ fuel =>
      rw [List.flatMap_cons, readLists_cons (h signature (by simp)),
        ih (fun s hs => h s (by simp [hs])) fuel (Nat.le_of_succ_le_succ hfuel)]
      rfl

theorem length_flatMap_listBytes (signatures : List Signature)
    (h : ∀ signature ∈ signatures, Fits signature) :
    signatures.length ≤ (signatures.flatMap listBytes).length := by
  induction signatures with
  | nil => exact Nat.le_refl _
  | cons signature signatures ih =>
    have hle := ih (fun s hs => h s (by simp [hs]))
    rw [List.flatMap_cons, List.length_append, length_listBytes (h signature (by simp)),
      List.length_cons]
    omega

theorem readAs_flatMap (signatures : List Signature)
    (h : ∀ signature ∈ signatures, Fits signature) :
    ReadAs (signatures.flatMap listBytes) signatures := by
  refine ⟨_, readLists_flatMap signatures h _ (length_flatMap_listBytes signatures h), ?_, ?_⟩
  · intro list hlist
    obtain ⟨signature, hmem, rfl⟩ := List.mem_map.mp hlist
    exact oneX509_certList (h signature hmem)
  · rw [List.map_map]
    conv_rhs => rw [← List.map_id signatures]
    exact List.map_congr_left fun signature hmem => signatureOf_certList (h signature hmem)

/-- The databases that a certificate is enrolled into. -/
inductive Database
  | kek
  | db
  deriving DecidableEq

namespace Database

def name : Database → Str
  | kek => "KEK".toList
  | db => "db".toList

def vendorGuid : Database → Str
  | kek => EFI_GLOBAL_VARIABLE
  | db => EFI_IMAGE_SECURITY_DATABASE_GUID

def key (d : Database) : StoreKey := looked d.name d.vendorGuid

theorem key_injective : Function.Injective key := by
  have hne : kek.key ≠ db.key := by decide +kernel
  intro d d' h
  cases d with
  | kek =>
    cases d' with
    | kek => rfl
    | db => exact absurd h hne
  | db =>
    cases d' with
    | kek => exact absurd h.symm hne
    | db => rfl

theorem str2guid_vendorGuid (d : Database) : ∃ g, str2guid (some d.vendorGuid) = .ok g := by
  cases d with
  | kek => exact ⟨_, addresses_kek.guid_eq⟩
  | db => exact ⟨_, addresses_db.guid_eq⟩

end Database

/-- An ADD or an APPEND of a certificate, with the files it finds. The name is
that of the database in any case of letters. -/
structure CertCall where
  env : Env
  world : World
  database : Database
  name : Str
  named : lower name = lower database.name
  guid : Str
  certFile : Option Str
  attributes : Option Int
  append : Bool

namespace CertCall

def run (call : CertCall) (store : VariableStore) : Outcome Bool × VariableStore :=
  let (ret, s) := addVariable call.env call.name call.guid call.certFile call.attributes call.append
    { world := call.world, store }
  (ret, s.store)

/-- The owner and the certificate, if the GUID is one, the file can be read, and
it is not too long for the sizes of a list. -/
def signature (call : CertCall) : Option Signature :=
  (str2guid (some call.guid)).value.bind fun owner =>
    (dataOf call.env call.world call.certFile).bind fun cert =>
      if cert.length + 44 < 2 ^ 32 then some (owner, cert) else none

def submitted (call : CertCall) (signature : Signature) : Submission :=
  { name := call.database.name, vendorGuid := call.database.vendorGuid
    attributes := keyAttributes, timeStamp := none, buffer := listBytes signature
    size := (listBytes signature).length }

variable {call : CertCall} {store : VariableStore} {signature : Signature}

theorem fits_of_signature (h : call.signature = some signature) : Fits signature := by
  obtain ⟨owner, howner, h⟩ := Option.bind_eq_some_iff.mp h
  obtain ⟨cert, -, h⟩ := Option.bind_eq_some_iff.mp h
  split at h
  · next hlt =>
    cases h
    exact ⟨length_str2guid (Outcome.value_eq_some.mp howner), hlt⟩
  · cases h

theorem certSubmission_eq : certSubmission call.env call.world call.database.name
    call.database.vendorGuid call.guid call.certFile = call.signature.map call.submitted := by
  rw [certSubmission, CertCall.signature]
  cases (str2guid (some call.guid)).value with
  | none => rfl
  | some owner =>
    cases dataOf call.env call.world call.certFile with
    | none => rfl
    | some cert =>
      rw [Option.bind_some, Option.bind_some, Option.bind_some, Option.bind_some, signatureList]
      split <;> rfl

theorem submission_eq (call : CertCall) : submission call.env call.world call.name call.guid call.certFile
    call.attributes call.append = call.signature.map call.submitted := by
  have hnamed := call.named
  rw [← certSubmission_eq, submission]
  cases hd : call.database with
  | kek =>
    have hkek : lower call.name = "kek".toList := hnamed.trans (by rw [hd]; decide)
    rw [if_neg (by rw [hkek]; decide), if_pos hkek]
    rfl
  | db =>
    have hdb : lower call.name = "db".toList := hnamed.trans (by rw [hd]; decide)
    rw [if_neg (by rw [hdb]; decide), if_neg (by rw [hdb]; decide), if_pos hdb]
    rfl

/-- A certificate that can be enrolled is, and `add_variable` returns `True`. -/
theorem run_some (store : VariableStore) (h : call.signature = some signature) : ∃ store',
    (call.submitted signature).into call.env call.world.tick call.append store = .ok store' ∧
      call.run store = (.ok true, store') := by
  have hsub := submission_eq call
  rw [h] at hsub
  have htakes : Takes store (call.submitted signature) := .inr call.database.str2guid_vendorGuid
  obtain ⟨store', hinto⟩ := into_takes call.env call.world.tick call.append htakes
  refine ⟨store', hinto, ?_⟩
  rw [run, addVariable_accepted hsub hinto]

/-- Of one that cannot be enrolled nothing is left. -/
theorem run_none (store : VariableStore) (h : call.signature = none) :
    ∃ e, call.run store = (.raised e, store) := by
  have hsub := submission_eq call
  rw [h] at hsub
  have hacc : ¬ Accepted call.env call.world store call.name call.guid call.certFile call.attributes
      call.append := by
    rintro ⟨sub, hsome, -⟩
    rw [hsub] at hsome
    cases hsome
  obtain ⟨e, s', hraise, hstore⟩ :=
    addVariable_refused (s := { world := call.world, store }) hacc
  refine ⟨e, ?_⟩
  rw [run, hraise]
  exact congrArg (Prod.mk _) hstore

end CertCall

/-- The calls made one after the other. -/
def runAll (calls : List CertCall) (store : VariableStore) : VariableStore :=
  calls.foldl (fun store call => (call.run store).2) store

/-- What has been enrolled since the last ADD, if anything has. -/
def Database.after (d : Database) (held : Option (List Signature)) (call : CertCall) :
    Option (List Signature) :=
  if call.database = d then
    match call.signature with
    | none => held
    | some signature =>
      some (if call.append then held.getD [] ++ [signature] else [signature])
  else held

def Database.enrolled (d : Database) (calls : List CertCall) : Option (List Signature) :=
  calls.foldl d.after none

/-- The database is not in the store, or one variable that is read as these
certificates, with the size of its data. -/
def Contains (store : VariableStore) (d : Database) : Option (List Signature) → Prop
  | none => ¬ Held store d.key
  | some signatures => ∃ v, store.varsList.filter (fun v => storeKey v = d.key) = [v] ∧
      v.dataSize = v.data.length ∧ ReadAs v.data signatures

/-- The same of the bytes: this is what every call keeps. -/
def Built (store : VariableStore) (d : Database) : Option (List Signature) → Prop
  | none => ¬ Held store d.key
  | some signatures => ∃ v, store.varsList.filter (fun v => storeKey v = d.key) = [v] ∧
      v.dataSize = v.data.length ∧ v.data = signatures.flatMap listBytes ∧
      ∀ signature ∈ signatures, Fits signature

section Run

variable {store : VariableStore} {d : Database} {held : Option (List Signature)}

theorem Built.contains (h : Built store d held) : Contains store d held := by
  cases held with
  | none => exact h
  | some signatures =>
    obtain ⟨v, hv, hsize, hdata, hfits⟩ := h
    exact ⟨v, hv, hsize, hdata ▸ readAs_flatMap signatures hfits⟩

theorem Built.enroll (h : Built store d held) (call : CertCall) (hd : call.database = d)
    {signature : Signature} (hsig : call.signature = some signature) {store' : VariableStore}
    (hinto : (call.submitted signature).into call.env call.world.tick call.append store = .ok store') :
    Built store' d (some (if call.append then held.getD [] ++ [signature] else [signature])) := by
  have hfits := CertCall.fits_of_signature hsig
  have hkey : looked (call.submitted signature).name (call.submitted signature).vendorGuid = d.key := by
    rw [← hd]
    rfl
  cases held with
  | none =>
    obtain ⟨g, hg⟩ := call.database.str2guid_vendorGuid
    have hnew : ¬ Held store (looked (call.submitted signature).name
        (call.submitted signature).vendorGuid) := hkey ▸ h
    obtain ⟨v, store'', hinto', hvars, hv, hdata, hsize⟩ := into_new hnew hg
    cases hinto.symm.trans hinto'
    refine ⟨v, ?_, ?_, ?_, ?_⟩
    · rw [hvars, List.filter_append, filter_eq_nil_iff.mpr h]
      simp [hv, hkey]
    · rw [hsize, hdata]
      rfl
    · rw [hdata]
      cases call.append <;> simp [CertCall.submitted]
    · cases call.append <;> simpa using hfits
  | some signatures =>
    obtain ⟨v, hv, hsize, hdata, hold⟩ := h
    obtain ⟨v', store'', hinto', hv', hdata', hsize'⟩ := into_only hkey hv
    cases hinto.symm.trans hinto'
    refine ⟨v', hv', ?_, ?_, ?_⟩
    · rw [hsize', hdata']
      cases call.append with
      | false => rfl
      | true =>
        rw [if_pos rfl, if_pos rfl, hsize, List.length_append, Int.natCast_add]
        rfl
    · rw [hdata', hdata]
      cases call.append <;> simp [CertCall.submitted]
    · intro sig hmem
      cases ha : call.append with
      | false =>
        rw [ha] at hmem
        obtain rfl := List.mem_singleton.mp hmem
        exact hfits
      | true =>
        rw [ha] at hmem
        rcases List.mem_append.mp hmem with hmem | hmem
        · exact hold sig hmem
        · obtain rfl := List.mem_singleton.mp hmem
          exact hfits

theorem Built.other (h : Built store d held) (call : CertCall) (hd : call.database ≠ d)
    {signature : Signature} {store' : VariableStore}
    (hinto : (call.submitted signature).into call.env call.world.tick call.append store = .ok store') :
    Built store' d held := by
  have hkey : d.key ≠ looked (call.submitted signature).name
      (call.submitted signature).vendorGuid := fun he => hd (Database.key_injective he.symm)
  have hsame := into_other hkey hinto
  cases held with
  | none =>
    change ¬ Held store d.key at h
    change ¬ Held store' d.key
    rw [← filter_eq_nil_iff, hsame, filter_eq_nil_iff]
    exact h
  | some signatures =>
    obtain ⟨v, hv, hrest⟩ := h
    exact ⟨v, hsame.trans hv, hrest⟩

theorem Built.step (h : Built store d held) (call : CertCall) :
    Built (call.run store).2 d (d.after held call) := by
  cases hsig : call.signature with
  | none =>
    obtain ⟨e, hrun⟩ := CertCall.run_none store hsig
    rw [hrun, Database.after, hsig, ite_self]
    exact h
  | some signature =>
    obtain ⟨store', hinto, hrun⟩ := CertCall.run_some store hsig
    rw [hrun, Database.after, hsig]
    by_cases hd : call.database = d
    · rw [if_pos hd]
      exact h.enroll call hd hsig hinto
    · rw [if_neg hd]
      exact h.other call hd hinto

theorem Built.run (calls : List CertCall) (h : Built store d held) :
    Built (runAll calls store) d (calls.foldl d.after held) := by
  induction calls generalizing store held with
  | nil => exact h
  | cons call calls ih => exact ih (h.step call)

end Run

/-- From a store without the database, whatever is enrolled: the variable is read
as the certificates since the last ADD, and just the calls that return `True` count. -/
theorem signature_database (d : Database) (calls : List CertCall) {store : VariableStore}
    (h : ¬ Held store d.key) :
    Contains (runAll calls store) d (d.enrolled calls) ∧
      ∀ call : CertCall, ∀ store, (call.run store).1 = .ok true ↔ call.signature.isSome := by
  constructor
  · have hbuilt : Built store d none := h
    exact (hbuilt.run calls).contains
  · intro call store
    cases hsig : call.signature with
    | none =>
      obtain ⟨e, hrun⟩ := CertCall.run_none store hsig
      simp [hrun]
    | some signature =>
      obtain ⟨store', -, hrun⟩ := CertCall.run_some store hsig
      simp [hrun]

def kekCall (append : Bool) : CertCall :=
  { env := .reliable, world := kekSession.world, database := .kek, name := "Kek".toList
    named := by decide, guid := EFI_CERT_X509_GUID, certFile := some ['c'], attributes := some 0
    append }

/-- A certificate of two bytes, added and appended. -/
theorem signature_database_kek :
    Contains (runAll [kekCall false, kekCall true] (Codec.blankStore 68)) .kek
      (some [(x509Bytes, [4, 5]), (x509Bytes, [4, 5])]) := by
  have henrolled : Database.enrolled .kek [kekCall false, kekCall true] =
      some [(x509Bytes, [4, 5]), (x509Bytes, [4, 5])] := by decide +kernel
  rw [← henrolled]
  apply (signature_database .kek _ ?_).1
  rintro ⟨v, hv, -⟩
  cases hv

end TdxTools.VarEnroll.SignatureLists
