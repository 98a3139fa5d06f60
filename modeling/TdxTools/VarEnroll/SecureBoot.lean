import TdxTools.VarEnroll.Refinement
import TdxTools.VarEnroll.Replacing

namespace TdxTools.VarEnroll.SecureBoot

open Python.ByteString Python.Exec Python.Text Python.Path Python.Files
open Guid Variable Store Enroll VariableMap Operations Refinement

/-- The keys of `sbconfig`. -/
inductive SbVar
  | PK
  | KEK
  | db
  | dbx
  | SecureBootEnable
  deriving DecidableEq, Repr

def SbVar.name : SbVar → Str
  | .PK => "PK".toList
  | .KEK => "KEK".toList
  | .db => "db".toList
  | .dbx => "dbx".toList
  | .SecureBootEnable => "SecureBootEnable".toList

/-- `[guid, file]`. -/
structure SbEntry where
  guid : Str
  file : Str

structure SbConfig where
  PK : Option SbEntry := none
  KEK : Option SbEntry := none
  db : Option SbEntry := none
  dbx : Option SbEntry := none
  SecureBootEnable : SbEntry

def filePath (file baseDir : Str) : Str := if isabs file then file else join baseDir file

/-- One variable to enroll. -/
structure Request where
  var : SbVar
  guid : Str
  dataFile : Str

def requestOf (pkgPath : Str) (var : SbVar) (entry : SbEntry) : Request :=
  { var, guid := entry.guid, dataFile := filePath entry.file pkgPath }

/-- All that a configuration asks for, in the order of enrollment. -/
def SbConfig.wanted (self : SbConfig) (pkgPath : Str) : List Request :=
  [(.PK, self.PK), (.KEK, self.KEK), (.db, self.db), (.dbx, self.dbx),
    (.SecureBootEnable, some self.SecureBootEnable)].filterMap
      fun key : SbVar × Option SbEntry => key.2.map (requestOf pkgPath key.1)

/-- A key with an empty path is passed over. -/
def SbConfig.requests (self : SbConfig) (pkgPath : Str) : List Request :=
  (self.wanted pkgPath).filter fun r => r.var = .SecureBootEnable ∨ r.dataFile ≠ []

/-- `attributes` is set for the last variable only. -/
def Request.args (self : Request) (tmpFile : Str) : Args :=
  { input := tmpFile, operation := some .ADD, name := some self.var.name, guid := some self.guid
    attributes := if self.var = .SecureBootEnable then some "0x3".toList else none
    dataFile := some self.dataFile, output := some tmpFile }

/-- The first enrollment that does not return `True` ends the run. -/
def enrollAll (env : Env) (fuel : Nat) (tmpFile : Str) : List Request → Py World Bool
  | [] => pure true
  | r :: rs => do
    let ret ← varEnroll env fuel (r.args tmpFile)
    if ret then enrollAll env fuel tmpFile rs else pure ret

def tmpFd (inputFd : Str) : Str := inputFd ++ ".sb".toList

/-- `if os.path.isfile(tmp_file): os.remove(tmp_file)`. -/
def cleanUp (env : Env) (tmpFile : Str) : Py World Unit := fun w =>
  if w.isfile env tmpFile then removeFile env tmpFile w else (.ok (), w)

def doVarEnroll (env : Env) (fuel : Nat) (inputFd outputFd pkgPath : Str) (sbconfig : SbConfig) :
    Py World Bool := do
  let tmpFile := tmpFd inputFd
  copyfile env inputFd tmpFile
  let ret ← enrollAll env fuel tmpFile (sbconfig.requests pkgPath)
  if ret then do
    copyfile env tmpFile outputFd
    cleanUp env tmpFile
    pure true
  else pure ret

/-- The output path of `main`; `-o` may be missing or empty. -/
def outputFd (env : Env) (inputFd : Str) (outputDir : Option Str) : Str :=
  let outputDir := (outputDir.filter (· ≠ [])).getD (dirname (abspath env.cwd inputFd))
  let fdName := basename inputFd
  let nameExt := splitext fdName
  join outputDir (nameExt.1 ++ ".sb".toList ++ nameExt.2)

section Frames

variable {env : Env} {path : Str} {α β : Type}

/-- Statements of a session that touch no file but the one at `path`. -/
abbrev SessionTouches (env : Env) (path : Str) (x : Py Session α) : Prop :=
  Py.Keeps (fun s s' => Frame env path s.world s'.world) x

theorem SessionTouches.of_same {x : Py Session α} (h : ∀ s, (x s).2.world = s.world) :
    SessionTouches env path x := by
  intro s
  rw [h s]
  exact Frame.refl env path _

theorem SessionTouches.bind {x : Py Session α} {f : α → Py Session β}
    (hx : SessionTouches env path x) (hf : ∀ a, SessionTouches env path (f a)) :
    SessionTouches env path (x >>= f) :=
  Py.Keeps.bind (R := fun s s' : Session => Frame env path s.world s'.world) Frame.trans hx hf

theorem SessionTouches.onWorld {x : Py World α} (h : Touches env path x) :
    SessionTouches env path (onWorld x) :=
  Py.Keeps.within (Q := Frame env path) (fun _ _ hq => hq) h

theorem touches_readPath (p : Option Str) : Touches env path (readPath env p) := by
  cases p with
  | none => exact .of_same fun _ => rfl
  | some p => exact .readFile p

theorem touches_createPk (certFile owner : Option Str) :
    Touches env path (createPkX509CertList env certFile owner) := by
  unfold createPkX509CertList
  split
  · exact .of_same fun _ => rfl
  · apply Touches.bind (.of_same fun _ => rfl)
    intro sigOwner
    split
    · exact .of_same fun _ => rfl
    · apply Touches.bind (touches_readPath certFile)
      intro certData
      exact .of_same fun _ => rfl

theorem touches_addToStore (name vendorGuid : Str) (attributes : Int) (stamp : Option EfiTime)
    (buffer : Bytes) (size : Int) (append : Bool) : SessionTouches env path
      (addToStore env name vendorGuid attributes stamp buffer size append) := by
  apply SessionTouches.of_same
  intro s
  unfold addToStore
  split <;> rfl

theorem touches_enrollCert (name vendorGuid guid : Str) (certFile : Option Str) (append : Bool) :
    SessionTouches env path (enrollCert env name vendorGuid guid certFile append) := by
  apply SessionTouches.bind (.onWorld (touches_createPk certFile (some guid)))
  intro sigList
  apply SessionTouches.bind (.of_same fun _ => rfl)
  intro blob
  exact touches_addToStore _ _ _ _ _ _ _

theorem touches_signatureDb (name guid : Str) (dataFile : Option Str) (append : Bool) :
    SessionTouches env path (enrollSignatureDb env name guid dataFile append) := by
  unfold enrollSignatureDb
  split
  · exact touches_enrollCert _ _ guid dataFile append
  · split
    · apply SessionTouches.bind (.onWorld (touches_readPath dataFile))
      intro data
      split
      · exact .of_same fun _ => rfl
      · exact touches_addToStore _ _ _ _ _ _ _
    · exact .of_same fun _ => rfl

theorem touches_addVariable (name guid : Str) (dataFile : Option Str) (attributes : Option Int)
    (append : Bool) :
    SessionTouches env path (addVariable env name guid dataFile attributes append) := by
  unfold addVariable
  split
  · split
    · exact .of_same fun _ => rfl
    · exact touches_enrollCert _ _ guid dataFile false
  · split
    · exact touches_enrollCert _ _ guid dataFile append
    · split
      · exact touches_signatureDb _ guid dataFile append
      · apply SessionTouches.bind (.onWorld (touches_readPath dataFile))
        intro payLoad
        apply SessionTouches.bind (.of_same fun _ => rfl)
        intro attributes
        exact touches_addToStore _ _ _ _ _ _ _

theorem touches_updateVariable (name guid : Str) (dataFile : Option Str) (attributes : Option Int) :
    SessionTouches env path (updateVariable env name guid dataFile attributes) := by
  unfold updateVariable
  apply SessionTouches.bind (.of_same fun _ => rfl)
  intro s
  split
  · exact .of_same fun _ => rfl
  · apply SessionTouches.bind (.of_same fun _ => rfl)
    intro ret
    exact touches_addVariable name guid dataFile attributes true

theorem touches_operate (args : Args) : SessionTouches env path (operate env args) := by
  unfold operate
  apply SessionTouches.bind (.of_same fun _ => rfl)
  intro attr
  split
  · split
    · exact touches_addVariable _ _ _ _ _
    · exact touches_addVariable _ _ _ _ _
    · exact .of_same fun _ => rfl
    · exact touches_updateVariable _ _ _ _
    · exact .of_same fun _ => rfl
  · exact .of_same fun _ => rfl

theorem touches_syncToFile (store : VariableStore) (fd : Bytes) :
    Touches env path (store.syncToFile env fd path) := by
  apply Touches.bind (.of_same fun _ => rfl)
  intro buffer
  apply Touches.tryExcept
  · apply Touches.bind (writeFile_frame env path buffer)
    intro u
    exact .of_same fun _ => rfl
  · intro e
    exact .of_same fun _ => rfl

theorem touches_processVar {args : Args} (hout : args.output = some path) (fd : Bytes) :
    SessionTouches env path (processVar env args fd) := by
  unfold processVar
  apply SessionTouches.bind (touches_operate args)
  intro ret
  split
  · apply SessionTouches.bind (.of_same fun _ => rfl)
    intro s
    rw [hout]
    exact .onWorld (touches_syncToFile s.store fd)
  · exact .of_same fun _ => rfl

theorem touches_checkArgs (args : Args) : Touches env path (checkArgs env args) := by
  apply Touches.of_same
  intro w
  by_cases hp : Passes env w args
  · rw [checkArgs_passes hp]
  · obtain ⟨e, he⟩ := checkArgs_refuses hp
    rw [he]

/-- A run touches its output file only. -/
theorem touches_varEnroll {args : Args} (hout : args.output = some path) (fuel : Nat) :
    Touches env path (varEnroll env fuel args) := by
  unfold varEnroll
  have hfalse : Touches env path (pure false : Py World Bool) := .of_same fun _ => rfl
  apply Touches.bind
  · apply Touches.tryExcept
    · exact Touches.bind (.readFile args.input) (fun b => .of_same fun _ => rfl)
    · exact fun e => .of_same fun _ => rfl
  · intro fdData
    split
    · exact hfalse
    · apply Touches.bind (.of_same fun _ => rfl)
      intro found
      split
      · exact hfalse
      · split
        · exact .of_same fun _ => rfl
        · apply Touches.bind (Touches.tryExcept (touches_checkArgs args) (fun _ => hfalse))
          intro checked
          split
          · apply Touches.tryExcept
            · apply Touches.bind
              · intro w
                exact touches_processVar hout _ _
              · exact fun _ => .of_same fun _ => rfl
            · exact fun _ => hfalse
          · exact hfalse

end Frames

end TdxTools.VarEnroll.SecureBoot
