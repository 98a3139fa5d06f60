import TdxTools.VarEnroll.Store

namespace TdxTools.VarEnroll.Enroll

open Python.ByteString Python.Exec Python.Struct Python.Text Python.Files
open Guid Variable Store

structure EfiSignatureData where
  signatureOwner : Bytes
  signatureData : Bytes

def EfiSignatureData.SIZE : Nat := 16

def EfiSignatureData.blob (self : EfiSignatureData) : Bytes :=
  self.signatureOwner ++ self.signatureData

structure EfiSignatureList where
  signatureType : Bytes
  signatureListSize : Nat
  signatureHeaderSize : Nat
  signatureSize : Nat
  signatureData : Bytes

def EfiSignatureList.SIZE : Nat := 28

def EfiSignatureList.blob (self : EfiSignatureList) : Outcome Bytes := do
  let blob1 ← .ofOption .structError (pack [.uint 4, .uint 4, .uint 4]
    (self.signatureListSize, self.signatureHeaderSize, self.signatureSize, ()))
  .ok (self.signatureType ++ blob1 ++ self.signatureData)

/-- `open(path, 'rb')` and `read()`; the path may be missing. -/
def readPath (env : Env) : Option Str → Py World Bytes
  | some path => readFile env path
  | none => .raise .typeError

def createPkX509CertList (env : Env) (certFile : Option Str) (signatureOwner : Option Str) :
    Py World EfiSignatureList := do
  if signatureOwner = none then
    .raise (.exception "Signature owner is empty!".toList)
  else
    let sigOwner ← .lift (str2guid signatureOwner)
    if sigOwner.length ≠ 16 then
      .raise (.exception ("Invalid Signature owner. - ".toList ++ signatureOwner.getD []))
    else
      let certData ← readPath env certFile
      let signatureType ← .lift (str2guid (some EFI_CERT_X509_GUID))
      let sigData : EfiSignatureData := { signatureOwner := sigOwner, signatureData := certData }
      pure { signatureType
             signatureListSize := EfiSignatureList.SIZE + EfiSignatureData.SIZE + certData.length
             signatureHeaderSize := 0
             signatureSize := EfiSignatureData.SIZE + certData.length
             signatureData := sigData.blob }

/-- The files and the store that one run works on. -/
structure Session where
  world : World
  store : VariableStore

variable {α : Type}

def onWorld (x : Py World α) : Py Session α :=
  .within Session.world (fun world s => { s with world }) x

/-- The call of `var_store.add_variable`. -/
def addToStore (env : Env) (name vendorGuid : Str) (attributes : Int) (timeStamp : Option EfiTime)
    (buffer : Bytes) (size : Int) (append : Bool) : Py Session Bool := fun s =>
  match s.store.addVariable (EfiTime.now (env.gmtime s.world.clock)) name vendorGuid attributes
    timeStamp buffer size append with
  | .ok store => (.ok true, { s with store })
  | .raised e => (.raised e, s)
  | .running => (.running, s)

open EfiVariableAttributes in
def keyAttributes : Int :=
  ((NON_VOLATILE ||| RUNTIME_ACCESS ||| BOOTSERVICE_ACCESS ||| TIMEBASED_AUTH_WRITE_ACCESS : Nat) : Int)

def enrollPlatformKey (env : Env) (guid : Str) (certFile : Option Str) : Py Session Bool := do
  let sigList ← onWorld (createPkX509CertList env certFile (some guid))
  let blob ← .lift sigList.blob
  addToStore env "PK".toList EFI_GLOBAL_VARIABLE keyAttributes none blob
    sigList.signatureListSize false

def enrollKek (env : Env) (guid : Str) (certFile : Option Str) (append : Bool) :
    Py Session Bool := do
  let sigList ← onWorld (createPkX509CertList env certFile (some guid))
  let blob ← .lift sigList.blob
  addToStore env "KEK".toList EFI_GLOBAL_VARIABLE keyAttributes none blob
    sigList.signatureListSize append

def enrollSignatureDb (env : Env) (name guid : Str) (dataFile : Option Str) (append : Bool) :
    Py Session Bool := do
  if name = "db".toList then
    let sigList ← onWorld (createPkX509CertList env dataFile (some guid))
    let blob ← .lift sigList.blob
    addToStore env name EFI_IMAGE_SECURITY_DATABASE_GUID keyAttributes none blob
      sigList.signatureListSize append
  else if name = "dbx".toList then
    let data ← onWorld (readPath env dataFile)
    match EfiVariableAuthentication2.init data with
    | none =>
      .raise (.exception ("Error: Cannot parse the dbx bin file(".toList ++
        dataFile.getD [] ++ ")".toList))
    | some auth2 =>
      addToStore env name EFI_IMAGE_SECURITY_DATABASE_GUID keyAttributes (some auth2.timeStamp)
        (data.drop auth2.authinfo2Size) ((data.length : Int) - auth2.authinfo2Size) append
  else .raise (.exception ("Unsupported SignatureDB - ".toList ++ name))

def enrollVariable (env : Env) (name guid : Str) (dataFile : Option Str) (attributes : Option Int)
    (append : Bool) : Py Session Bool := do
  let payLoad ← onWorld (readPath env dataFile)
  -- The store's `add_variable` begins with `attributes & …`, which takes no `None`.
  let attributes ← .lift (.ofOption .typeError attributes)
  addToStore env name guid attributes none payLoad payLoad.length append

def delVariable (name guid : Str) : Py Session Bool := fun s =>
  let (ret, store) := s.store.delVariable name guid
  (.ok ret, { s with store })

/-- The attributes of a key are fixed; for another variable they must be there. -/
def addVariable (env : Env) (name guid : Str) (dataFile : Option Str) (attributes : Option Int)
    (append : Bool) : Py Session Bool :=
  if lower name = "pk".toList then
    if append then .raise (.exception "PK cannot be appended.".toList)
    else enrollPlatformKey env guid dataFile
  else if lower name = "kek".toList then enrollKek env guid dataFile append
  else if lower name ∈ ["db".toList, "dbx".toList] then
    enrollSignatureDb env (lower name) guid dataFile append
  else enrollVariable env name guid dataFile attributes append

def updateVariable (env : Env) (name guid : Str) (dataFile : Option Str)
    (attributes : Option Int) : Py Session Bool := do
  let s ← .get
  match s.store.findVarInList name guid with
  | none => pure false
  | some _ =>
    let _ ← delVariable name guid
    addVariable env name guid dataFile attributes true

inductive VarEnrollOps
  | ADD
  | DEL
  | APPEND
  | UPDATE
  deriving DecidableEq, Repr

/-- The arguments of one run; what was not given is `none`. -/
structure Args where
  info : Bool := false
  input : Str
  operation : Option VarEnrollOps := none
  name : Option Str := none
  guid : Option Str := none
  attributes : Option Str := none
  dataFile : Option Str := none
  output : Option Str := none

/-- `int(args.attributes, 16)`, or 0 when there are none. -/
def attributesOf : Option Str → Outcome Int
  | none => .ok 0
  | some attributes =>
    if attributes = [] then .ok 0 else .ofOption .valueError (int16 attributes)

/-- The operation of `process_var` on the list, before anything is written. A
name or GUID that is missing does not get past `check_args`. -/
def operate (env : Env) (args : Args) : Py Session Bool := do
  let attr ← .lift (attributesOf args.attributes)
  match args.name, args.guid with
  | some name, some guid =>
    match args.operation with
    | some .ADD => addVariable env name guid args.dataFile attr false
    | some .APPEND => addVariable env name guid args.dataFile attr true
    | some .DEL => delVariable name guid
    | some .UPDATE => updateVariable env name guid args.dataFile attr
    | none => .raise (.exception "Unkown operation - ".toList)
  | _, _ => .raise .attributeError

def processVar (env : Env) (args : Args) (fdData : Bytes) : Py Session Bool := do
  let ret ← operate env args
  if ret then
    let s ← .get
    match args.output with
    | some output => onWorld (s.store.syncToFile env fdData output)
    | none => do
      let _ ← .lift (s.store.syncBuffer fdData)
      pure false
  else pure ret

def keyNames : List Str := ["pk".toList, "kek".toList, "db".toList, "dbx".toList]

def checkArgs (env : Env) (args : Args) : Py World Bool :=
  match args.name with
  | none => .raise (.exception "Variable name is missing. -n var_name".toList)
  | some name =>
    if !isGuid args.guid then
      match args.guid with
      | none => .raise .typeError
      | some guid => .raise (.exception ("Invalid input guid. - ".toList ++ guid))
    else if args.operation = some .DEL then pure true
    else
      match args.dataFile with
      | none => .raise .typeError
      | some dataFile => do
        let w ← .get
        if !w.isfile env dataFile then
          .raise (.exception ("Invalid input data file - ".toList ++ dataFile))
        else if args.operation = none then pure true
        else if lower name ∈ keyNames then pure true
        else
          match args.attributes with
          | none => .raise .typeError
          | some attr => do
            let _ ← .lift (.ofOption .valueError (int16 attr))
            pure true

/-- Run `process_var` on the store read from the FD. -/
def withStore (store : VariableStore) (x : Py Session α) : Py World α := fun world =>
  ((x { world, store }).1, (x { world, store }).2.world)

/-- The result of `process_var` is dropped: a run that raises nothing returns
`True`. -/
def varEnroll (env : Env) (fuel : Nat) (args : Args) : Py World Bool := do
  let fdData ← .tryExcept (do let b ← readFile env args.input; pure (some b)) (fun _ => pure none)
  match fdData with
  | none => pure false
  | some fdData =>
    let varStore ← .lift (findVarInfo fuel fdData)
    match varStore with
    | none => pure false
    | some store =>
      if args.info then pure true
      else
        let checked ← .tryExcept (checkArgs env args) (fun _ => pure false)
        if checked then
          .tryExcept (do let _ ← withStore store (processVar env args fdData); pure true)
            (fun _ => pure false)
        else pure false

end TdxTools.VarEnroll.Enroll
