import TdxTools.VarEnroll.DoVarEnroll

namespace TdxTools.VarEnroll.CommandLine

open Python.ByteString Python.Exec Python.Text Python.Path Python.Files
open Guid SecureBoot Enrollment DoVarEnroll

/-- `sb_var_names`, read from the variable to its option. -/
def flag : SbVar → Str
  | .PK => "-pk".toList
  | .KEK => "-kek".toList
  | .db => "-db".toList
  | .dbx => "-dbx".toList
  | .SecureBootEnable => "-secure_boot".toList

def sbVarNames (arg : Str) : Option SbVar :=
  [.PK, .KEK, .db, .dbx, .SecureBootEnable].find? (flag · = arg)

def setEntry (self : SbConfig) (entry : SbEntry) : SbVar → SbConfig
  | .PK => { self with PK := some entry }
  | .KEK => { self with KEK := some entry }
  | .db => { self with db := some entry }
  | .dbx => { self with dbx := some entry }
  | .SecureBootEnable => { self with SecureBootEnable := entry }

section Scan

variable (env : Env) (w : World) (pkgPath : Str)

def setSbconfig (sbconfig : SbConfig) (arg guid certBinFile : Str) : Bool × SbConfig :=
  match sbVarNames arg with
  | none => (false, sbconfig)
  | some varName =>
    if !isGuid (some guid) then (false, sbconfig)
    else if !w.isfile env (filePath certBinFile pkgPath) then (false, sbconfig)
    else (true, setEntry sbconfig { guid, file := filePath certBinFile pkgPath } varName)

structure Settings where
  inputFd : Option Str := none
  outputDir : Option Str := none
  sbconfig : SbConfig

/-- How the scan of the command line ends: with the usage printed and an exit, with
`return False`, or behind the last argument. -/
inductive Scanned
  | usage
  | refused
  | settings (s : Settings)

def scan : List Str → Settings → Outcome Scanned
  | [], s => .ok (.settings s)
  | arg :: args, s =>
    if arg = "-fd".toList then
      match args with
      | [] => .raised .indexError
      | inputFd :: args => scan args { s with inputFd := some inputFd }
    else if arg = "-o".toList then
      match args with
      | [] => .raised .indexError
      | outputDir :: args => scan args { s with outputDir := some outputDir }
    else if (sbVarNames arg).isSome then
      match args with
      | guid :: certBinFile :: args =>
        let (valid, sbconfig) := setSbconfig env w pkgPath s.sbconfig arg guid certBinFile
        if !valid then .ok .refused else scan args { s with sbconfig }
      | _ => .raised .indexError
    else .ok .usage

inductive Opt
  | fd (inputFd : Str)
  | out (outputDir : Str)
  | key (var : SbVar) (guid certBinFile : Str)

def Opt.words : Opt → List Str
  | .fd inputFd => ["-fd".toList, inputFd]
  | .out outputDir => ["-o".toList, outputDir]
  | .key var guid certBinFile => [flag var, guid, certBinFile]

def Opt.Valid : Opt → Prop
  | .key _ guid certBinFile =>
    isGuid (some guid) = true ∧ w.isfile env (filePath certBinFile pkgPath) = true
  | _ => True

def Opt.apply (s : Settings) : Opt → Settings
  | .fd inputFd => { s with inputFd := some inputFd }
  | .out outputDir => { s with outputDir := some outputDir }
  | .key var guid certBinFile =>
    { s with sbconfig := setEntry s.sbconfig { guid, file := filePath certBinFile pkgPath } var }

/-- What the words behind the valid options come to: none is left, a key is not
accepted, the last option has not all its arguments, or a word is no option. -/
inductive Stops (s : Settings) : List Str → Outcome Scanned → Prop
  | done : Stops s [] (.ok (.settings s))
  | refused {var : SbVar} {guid certBinFile : Str} (rest : List Str) :
      ¬ (Opt.key var guid certBinFile).Valid env w pkgPath →
      Stops s (flag var :: guid :: certBinFile :: rest) (.ok .refused)
  | cut (o : Opt) {rest : List Str} (missing : List Str) : o.words = rest ++ missing → rest ≠ [] →
      missing ≠ [] → Stops s rest (.raised .indexError)
  | unknown {arg : Str} (rest : List Str) : (∀ o : Opt, arg ∉ o.words.head?) →
      Stops s (arg :: rest) (.ok .usage)

/-- The valid options at the head of the command line, and how the scan ends behind
them. -/
structure Takes (args : List Str) (s : Settings) (opts : List Opt) (o : Outcome Scanned) : Prop where
  valid : ∀ o ∈ opts, o.Valid env w pkgPath
  stops : ∃ rest, args = opts.flatMap Opt.words ++ rest ∧
    Stops env w pkgPath (opts.foldl (Opt.apply pkgPath) s) rest o

structure Spells (args : List Str) (opts : List Opt) : Prop where
  words : args = opts.flatMap Opt.words
  valid : ∀ o ∈ opts, o.Valid env w pkgPath

variable {env w pkgPath}

theorem sbVarNames_eq_some {arg : Str} {var : SbVar} :
    sbVarNames arg = some var ↔ arg = flag var := by
  constructor
  · intro h
    have hflag := List.find?_some (p := fun var => decide (flag var = arg)) h
    exact (of_decide_eq_true hflag).symm
  · rintro rfl
    cases var <;> decide

theorem setSbconfig_flag {sbconfig : SbConfig} {var : SbVar} {guid certBinFile : Str} :
    setSbconfig env w pkgPath sbconfig (flag var) guid certBinFile =
      if isGuid (some guid) = true ∧ w.isfile env (filePath certBinFile pkgPath) = true then
        (true, setEntry sbconfig { guid, file := filePath certBinFile pkgPath } var)
      else (false, sbconfig) := by
  rw [setSbconfig, sbVarNames_eq_some.mpr rfl]
  cases isGuid (some guid) <;> cases w.isfile env (filePath certBinFile pkgPath) <;> rfl

theorem scan_words (o : Opt) (args : List Str) (s : Settings) (h : o.Valid env w pkgPath) :
    scan env w pkgPath (o.words ++ args) s = scan env w pkgPath args (o.apply pkgPath s) := by
  cases o with
  | fd inputFd =>
    rw [Opt.words, List.cons_append, List.cons_append, scan, if_pos rfl]
    rfl
  | out outputDir =>
    rw [Opt.words, List.cons_append, List.cons_append, scan, if_neg (by decide), if_pos rfl]
    rfl
  | key var guid certBinFile =>
    have hfd : flag var ≠ "-fd".toList := by cases var <;> decide
    have hout : flag var ≠ "-o".toList := by cases var <;> decide
    rw [Opt.words, List.cons_append, List.cons_append, List.cons_append, scan, if_neg hfd,
      if_neg hout, sbVarNames_eq_some.mpr rfl, if_pos Option.isSome_some]
    dsimp only
    rw [setSbconfig_flag.trans (if_pos h)]
    rfl

theorem flag_ne (var : SbVar) : flag var ≠ "-fd".toList ∧ flag var ≠ "-o".toList := by
  cases var <;> decide

theorem scan_key {var : SbVar} (args : List Str) (s : Settings) :
    scan env w pkgPath (flag var :: args) s =
      match args with
      | guid :: certBinFile :: args =>
        let (valid, sbconfig) := setSbconfig env w pkgPath s.sbconfig (flag var) guid certBinFile
        if !valid then .ok .refused else scan env w pkgPath args { s with sbconfig }
      | _ => .raised .indexError := by
  rw [scan.eq_def]
  dsimp only
  rw [if_neg (flag_ne var).1, if_neg (flag_ne var).2, sbVarNames_eq_some.mpr rfl,
    if_pos Option.isSome_some]

theorem scan_cut (o : Opt) {rest missing : List Str} (s : Settings)
    (hwords : o.words = rest ++ missing) (hrest : rest ≠ []) (hmissing : missing ≠ []) :
    scan env w pkgPath rest s = .raised .indexError := by
  obtain ⟨last, missing, rfl⟩ := List.exists_cons_of_ne_nil hmissing
  cases rest with
  | nil => exact absurd rfl hrest
  | cons arg rest =>
    cases o with
    | fd inputFd =>
      obtain ⟨rfl, hrest⟩ := List.cons.inj hwords
      obtain rfl : rest = [] := by cases rest <;> simp_all
      rfl
    | out outputDir =>
      obtain ⟨rfl, hrest⟩ := List.cons.inj hwords
      obtain rfl : rest = [] := by cases rest <;> simp_all
      rfl
    | key var guid certBinFile =>
      obtain ⟨rfl, hrest⟩ := List.cons.inj hwords
      rw [scan_key]
      cases rest with
      | nil => rfl
      | cons guid' rest =>
        obtain rfl : rest = [] := by cases rest <;> simp_all
        rfl

theorem scan_stops {args : List Str} {s : Settings} {o : Outcome Scanned}
    (h : Stops env w pkgPath s args o) : scan env w pkgPath args s = o := by
  cases h with
  | done => rfl
  | refused rest hvalid =>
    rw [scan_key]
    dsimp only
    rw [setSbconfig_flag.trans (if_neg hvalid)]
    rfl
  | cut o missing hwords hrest hmissing => exact scan_cut o s hwords hrest hmissing
  | @unknown arg rest hunknown =>
    have hfd : arg ≠ "-fd".toList := fun he => hunknown (.fd []) (he ▸ rfl)
    have hout : arg ≠ "-o".toList := fun he => hunknown (.out []) (he ▸ rfl)
    have hkey : sbVarNames arg = none := by
      rw [Option.eq_none_iff_forall_not_mem]
      intro var hvar
      exact hunknown (.key var [] []) (sbVarNames_eq_some.mp hvar ▸ rfl)
    rw [scan.eq_def]
    dsimp only
    rw [if_neg hfd, if_neg hout, hkey]
    rfl

theorem scan_of_takes {args : List Str} {s : Settings} {opts : List Opt} {o : Outcome Scanned}
    (h : Takes env w pkgPath args s opts o) : scan env w pkgPath args s = o := by
  obtain ⟨hvalid, rest, rfl, hstops⟩ := h
  induction opts generalizing s with
  | nil => exact scan_stops hstops
  | cons opt opts ih =>
    rw [List.flatMap_cons, List.append_assoc, scan_words opt _ s (hvalid opt List.mem_cons_self)]
    exact ih (fun opt' hopt' => hvalid opt' (List.mem_cons_of_mem opt hopt')) hstops

theorem Takes.cons {opt : Opt} {rest : List Str} {s : Settings} {opts : List Opt}
    {o : Outcome Scanned} (h : Takes env w pkgPath rest (opt.apply pkgPath s) opts o)
    (hvalid : opt.Valid env w pkgPath) :
    Takes env w pkgPath (opt.words ++ rest) s (opt :: opts) o := by
  obtain ⟨hopts, rest', rfl, hstops⟩ := h
  refine ⟨List.forall_mem_cons.mpr ⟨hvalid, hopts⟩, rest', ?_, hstops⟩
  rw [List.flatMap_cons, List.append_assoc]

theorem option_or_stops (env : Env) (w : World) (pkgPath : Str) (args : List Str) (s : Settings) :
    (∃ (opt : Opt) (rest : List Str), args = opt.words ++ rest ∧ opt.Valid env w pkgPath) ∨
      ∃ o, Stops env w pkgPath s args o := by
  cases args with
  | nil => exact .inr ⟨_, .done⟩
  | cons arg args =>
    by_cases hfd : arg = "-fd".toList
    · subst hfd
      cases args with
      | nil => exact .inr ⟨_, .cut (.fd []) [[]] rfl (by simp) (by simp)⟩
      | cons inputFd args => exact .inl ⟨.fd inputFd, args, rfl, trivial⟩
    by_cases hout : arg = "-o".toList
    · subst hout
      cases args with
      | nil => exact .inr ⟨_, .cut (.out []) [[]] rfl (by simp) (by simp)⟩
      | cons outputDir args => exact .inl ⟨.out outputDir, args, rfl, trivial⟩
    cases hkey : sbVarNames arg with
    | none =>
      refine .inr ⟨_, .unknown args ?_⟩
      rintro (inputFd | outputDir | ⟨var, guid, certBinFile⟩) harg
      · exact hfd (Option.some.inj harg).symm
      · exact hout (Option.some.inj harg).symm
      · rw [sbVarNames_eq_some.mpr (Option.some.inj harg).symm] at hkey
        cases hkey
    | some var =>
      obtain rfl := sbVarNames_eq_some.mp hkey
      match args with
      | [] => exact .inr ⟨_, .cut (.key var [] []) [[], []] rfl (by simp) (by simp)⟩
      | [guid] => exact .inr ⟨_, .cut (.key var guid []) [[]] rfl (by simp) (by simp)⟩
      | guid :: certBinFile :: args =>
        by_cases hvalid : (Opt.key var guid certBinFile).Valid env w pkgPath
        · exact .inl ⟨.key var guid certBinFile, args, rfl, hvalid⟩
        · exact .inr ⟨_, .refused args hvalid⟩

theorem exists_takes (args : List Str) (s : Settings) :
    ∃ opts, Takes env w pkgPath args s opts (scan env w pkgPath args s) := by
  induction hlen : args.length using Nat.strongRecOn generalizing args s with
  | ind n ih =>
    subst hlen
    obtain ⟨opt, rest, rfl, hvalid⟩ | ⟨o, hstops⟩ := option_or_stops env w pkgPath args s
    · have hshort : rest.length < (opt.words ++ rest).length := by
        rw [List.length_append]
        cases opt <;> simp [Opt.words]
      obtain ⟨opts, htakes⟩ := ih rest.length hshort rest (opt.apply pkgPath s) rfl
      rw [scan_words opt rest s hvalid]
      exact ⟨opt :: opts, htakes.cons hvalid⟩
    · rw [scan_stops hstops]
      exact ⟨[], by simp, args, rfl, hstops⟩

/-- The scan takes the valid options at the head of the command line, one after the
other, and what is left decides: without words left it gives what the options set,
and a key that is not accepted, an option without all its arguments or a word that
is no option ends it in a refusal, in an exception or in the usage. -/
theorem scan_iff {args : List Str} {s : Settings} {o : Outcome Scanned} :
    scan env w pkgPath args s = o ↔ ∃ opts, Takes env w pkgPath args s opts o := by
  constructor
  · rintro rfl
    exact exists_takes args s
  · rintro ⟨opts, htakes⟩
    exact scan_of_takes htakes

theorem spells_of_takes {args : List Str} {s s' : Settings} {opts : List Opt}
    (h : Takes env w pkgPath args s opts (.ok (.settings s'))) :
    Spells env w pkgPath args opts ∧ s' = opts.foldl (Opt.apply pkgPath) s := by
  obtain ⟨hvalid, rest, hargs, hstops⟩ := h
  cases hstops
  exact ⟨⟨by rw [hargs, List.append_nil], hvalid⟩, rfl⟩

end Scan

/-- What a run meets besides the files: whether its log can be opened, directories,
and the file that enables secure boot by default. -/
structure Host where
  logOpens : Bool
  dirExists : Str → Bool
  writable : Str → Bool
  enableBin : Str

inductive Ended
  | returned (ret : Bool)
  | exited
  deriving DecidableEq, Repr

def getcwd (env : Env) : Str := if env.cwd = [] then ['/'] else env.cwd.flatMap ('/' :: ·)

def defaultSettings (host : Host) : Settings :=
  { sbconfig := { SecureBootEnable :=
      { guid := "f0a30bc7-af08-4556-99c4-001009c93a44".toList, file := host.enableBin } } }

def outputDirOf (env : Env) (inputFd : Str) (outputDir : Option Str) : Str :=
  (outputDir.filter (· ≠ [])).getD (dirname (abspath env.cwd inputFd))

def runWith (env : Env) (host : Host) (fuel : Nat) (s : Settings) : Py World Ended := do
  let w ← .get
  match s.inputFd with
  | none => .raise .typeError
  | some inputFd =>
    if ¬ (w.isfile env inputFd ∨ host.dirExists inputFd) then pure (.returned false)
    else if ¬ host.writable (outputDirOf env inputFd s.outputDir) then pure (.returned false)
    else do
      let ret ← doVarEnroll env fuel inputFd (outputFd env inputFd s.outputDir) (getcwd env) s.sbconfig
      pure (.returned ret)

def buildLog (env : Env) : Place := resolve env.cwd "Build.log".toList

/-- `BuildLog(...)` empties the log; what is written to it later is left out. -/
def openBuildLog (env : Env) (w : World) : World :=
  { w with files := Function.update w.files (buildLog env) (some { content := [], ctime := w.clock }) }

def afterScan (env : Env) (host : Host) (fuel : Nat) : Scanned → Py World Ended
  | .usage => pure .exited
  | .refused => pure (.returned false)
  | .settings s => runWith env host fuel s

def main (env : Env) (host : Host) (fuel : Nat) (args : List Str) : Py World Ended := do
  if ¬ host.logOpens then .raise .osError
  else do
    .modify (openBuildLog env)
    if args = [] then pure .exited
    else do
      let w ← .get
      let scanned ← .lift (scan env w (getcwd env) args (defaultSettings host))
      afterScan env host fuel scanned

section Frame

variable {env : Env} {fuel : Nat} {inputFd output pkgPath : Str} {sbconfig : SbConfig}
  {w : World}

theorem doVarEnroll_frame {at_ : Place}
    (h : (doVarEnroll env fuel inputFd output pkgPath sbconfig w).2.files at_ ≠ w.files at_) :
    at_ = resolve env.cwd (tmpFd inputFd) ∨ at_ = resolve env.cwd output := by
  by_contra hno
  rw [not_or] at hno
  obtain ⟨htmp, hout⟩ := hno
  apply h
  cases hrun : doVarEnroll env fuel inputFd output pkgPath sbconfig w with
  | mk o w' =>
    have hcopied : ∀ {w₂ c w₃}, copyfile env (tmpFd inputFd) output w₂ = (c, w₃) →
        w₃.files at_ = w₂.files at_ := by
      intro w₂ c w₃ hcopy
      exact (Touches.copyfile (tmpFd inputFd)).rel hcopy at_ hout
    cases doVarEnroll_ends hrun with
    | before _ hframe => exact hframe at_ htmp
    | written hcopy hall hwrite hlast =>
      exact (hlast at_ htmp).trans ((hcopied hwrite).trans (frame_of_enrolled hcopy hall at_ htmp))
    | unwritten hcopy hall hwrite _ _ =>
      exact (hcopied hwrite).trans (frame_of_enrolled hcopy hall at_ htmp)

theorem doVarEnroll_unread (h : ¬ Names inputFd) :
    (doVarEnroll env fuel inputFd output pkgPath sbconfig w).2.files = w.files := by
  have hfile : w.isfile env inputFd = false := by
    rw [World.isfile, World.file, if_neg h]
    rfl
  have hcontent : w.content env inputFd = none := World.content_of_not_names h
  have hcopy : ∃ e, copyfile env inputFd (tmpFd inputFd) w = (.raised e, w.tick) := by
    have hread : ∃ e, readFile env inputFd w = (.raised e, w.tick) := by
      rw [readFile, hcontent]
      split
      · exact ⟨_, rfl⟩
      · exact ⟨_, rfl⟩
    obtain ⟨e, he⟩ := hread
    refine ⟨e, ?_⟩
    rw [copyfile, if_neg (by simp [hfile]), Py.bind_raised he]
  obtain ⟨e, he⟩ := hcopy
  rw [doVarEnroll, Py.bind_raised he]
  rfl

theorem runWith_changed {host : Host} {s : Settings} {at_ : Place}
    (h : (runWith env host fuel s w).2.files at_ ≠ w.files at_) : ∃ inputFd,
      s.inputFd = some inputFd ∧
      (doVarEnroll env fuel inputFd (outputFd env inputFd s.outputDir) (getcwd env) s.sbconfig
        w).2.files at_ ≠ w.files at_ := by
  rw [runWith, Py.get_bind_apply] at h
  cases hfd : s.inputFd with
  | none =>
    rw [hfd] at h
    exact absurd rfl h
  | some inputFd =>
    rw [hfd] at h
    dsimp only at h
    split at h
    · exact absurd rfl h
    · split at h
      · exact absurd rfl h
      · rw [Py.snd_bind_pure] at h
        exact ⟨inputFd, rfl, h⟩

theorem main_changed {host : Host} {args : List Str} {at_ : Place} (hlog : at_ ≠ buildLog env)
    (h : (main env host fuel args w).2.files at_ ≠ w.files at_) : ∃ opts inputFd,
      Spells env (openBuildLog env w) (getcwd env) args opts ∧
      (opts.foldl (Opt.apply (getcwd env)) (defaultSettings host)).inputFd = some inputFd ∧
      (doVarEnroll env fuel inputFd (outputFd env inputFd
        (opts.foldl (Opt.apply (getcwd env)) (defaultSettings host)).outputDir) (getcwd env)
        (opts.foldl (Opt.apply (getcwd env)) (defaultSettings host)).sbconfig
        (openBuildLog env w)).2.files at_ ≠ (openBuildLog env w).files at_ := by
  have hopened : (openBuildLog env w).files at_ = w.files at_ := Function.update_of_ne hlog _ _
  by_cases hopens : host.logOpens
  case neg =>
    rw [main, if_pos hopens] at h
    exact absurd rfl h
  rw [main, if_neg (not_not_intro hopens), Py.modify_bind_apply, ← hopened] at h
  by_cases hargs : args = []
  · rw [if_pos hargs] at h
    exact absurd rfl h
  rw [if_neg hargs, Py.get_bind_apply] at h
  obtain ⟨scanned, hscan, hrun⟩ | ⟨o, hend⟩ := Py.lift_bind_cases
    (scan env (openBuildLog env w) (getcwd env) args (defaultSettings host))
    (afterScan env host fuel) (openBuildLog env w)
  case inr =>
    rw [hend] at h
    exact absurd rfl h
  rw [hrun] at h
  cases scanned with
  | usage => exact absurd rfl h
  | refused => exact absurd rfl h
  | settings s =>
    obtain ⟨opts, htakes⟩ : ∃ opts, Takes env (openBuildLog env w) (getcwd env) args
        (defaultSettings host) opts _ := exists_takes args (defaultSettings host)
    rw [hscan] at htakes
    obtain ⟨hspells, rfl⟩ := spells_of_takes htakes
    obtain ⟨inputFd, hfd, hchanged⟩ := runWith_changed h
    exact ⟨opts, inputFd, hspells, hfd, hchanged⟩

end Frame

/-- The log apart, every file is as it was after the tool has run, unless the command
line is made of valid options that name an FD: then its temporary file and its
output file may be changed, neither of which is the FD itself. -/
theorem main_frame (env : Env) (host : Host) (fuel : Nat) (args : List Str) (w : World) (at_ : Place) :
    at_ = buildLog env ∨ (main env host fuel args w).2.files at_ = w.files at_ ∨ ∃ opts inputFd,
      Spells env (openBuildLog env w) (getcwd env) args opts ∧
      (opts.foldl (Opt.apply (getcwd env)) (defaultSettings host)).inputFd = some inputFd ∧
      (at_ = resolve env.cwd (tmpFd inputFd) ∨ at_ = resolve env.cwd (outputFd env inputFd
        (opts.foldl (Opt.apply (getcwd env)) (defaultSettings host)).outputDir)) ∧
      at_ ≠ resolve env.cwd inputFd := by
  by_cases hlog : at_ = buildLog env
  · exact .inl hlog
  by_cases h : (main env host fuel args w).2.files at_ = w.files at_
  · exact .inr (.inl h)
  obtain ⟨opts, inputFd, hspells, hfd, hchanged⟩ := main_changed hlog h
  have hnames : Names inputFd := by
    by_contra hno
    rw [doVarEnroll_unread hno] at hchanged
    exact hchanged rfl
  refine .inr (.inr ⟨opts, inputFd, hspells, hfd, doVarEnroll_frame hchanged, ?_⟩)
  cases doVarEnroll_frame hchanged with
  | inl htmp => exact htmp ▸ (tmpFd_ne env.cwd hnames).symm
  | inr hout => exact hout ▸ (outputFd_ne env _ hnames).symm

end TdxTools.VarEnroll.CommandLine
