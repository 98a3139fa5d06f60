import TdxTools.VarEnroll.Enrollment

namespace TdxTools.VarEnroll.DoVarEnroll

open Python.ByteString Python.Exec Python.Text Python.Path Python.Files
open Guid Variable Store Store.VariableStore Codec Rewrite Replacing SecureBoot Enrollment

section Paths

variable {inputFd : Str}

theorem basename_tmpFd : basename (tmpFd inputFd) = basename inputFd ++ ".sb".toList :=
  basename_append inputFd ".sb".toList (by decide)

theorem tmpFd_ne (cwd : Place) (h : Names inputFd) :
    resolve cwd inputFd ≠ resolve cwd (tmpFd inputFd) := by
  have hlen : (basename (tmpFd inputFd)).length = (basename inputFd).length + 3 := by
    rw [basename_tmpFd, List.length_append]
    rfl
  apply resolve_ne h (names_of_length (by omega))
  intro he
  rw [← he] at hlen
  omega

theorem outputFd_ne (env : Env) (outputDir : Option Str) (h : Names inputFd) :
    resolve env.cwd inputFd ≠ resolve env.cwd (outputFd env inputFd outputDir) := by
  have hsplit := splitext_append (basename inputFd)
  have hslash : '/' ∉ (splitext (basename inputFd)).1 ++ ".sb".toList ++
      (splitext (basename inputFd)).2 := by
    have hno := slash_not_mem_basename inputFd
    rw [← hsplit, List.mem_append, not_or] at hno
    rw [List.mem_append, List.mem_append, not_or, not_or]
    exact ⟨⟨hno.1, by decide⟩, hno.2⟩
  have hname := basename_join ((outputDir.filter (· ≠ [])).getD (dirname (abspath env.cwd inputFd)))
    _ hslash
  have hlen : (basename (outputFd env inputFd outputDir)).length = (basename inputFd).length + 3 := by
    have hl := congrArg List.length hsplit
    rw [List.length_append] at hl
    refine (congrArg List.length hname).trans ?_
    rw [List.length_append, List.length_append, ← hl]
    have hsb : ".sb".toList.length = 3 := rfl
    omega
  apply resolve_ne h (names_of_length (by omega))
  intro he
  rw [← he] at hlen
  omega

end Paths

section Whole

variable {env : Env} {fuel : Nat} {inputFd output pkgPath : Str} {sbconfig : SbConfig} {w : World}

theorem cleanUp_ok (env : Env) (tmpFile : Str) (w : World) :
    ∃ w', cleanUp env tmpFile w = (.ok (), w') ∧ Frame env tmpFile w w' := by
  have ht : Frame env tmpFile w (removeFile env tmpFile w).2 := Touches.removeFile w
  unfold cleanUp
  split
  · next hfile =>
    rw [removeFile, if_pos hfile] at ht ⊢
    exact ⟨_, rfl, ht⟩
  · exact ⟨w, rfl, Frame.refl env tmpFile w⟩

/-- How a run ends: before the output file is reached, or with the output file
written, or with the copy to it failed. -/
inductive Ends (env : Env) (fuel : Nat) (inputFd output pkgPath : Str) (sbconfig : SbConfig)
    (w : World) : Outcome Bool → World → Prop
  | before {o w'} : o ≠ .ok true → Frame env (tmpFd inputFd) w w' →
      Ends env fuel inputFd output pkgPath sbconfig w o w'
  | written {w₁ w₂ w₃ w'} : copyfile env inputFd (tmpFd inputFd) w = (.ok (), w₁) →
      enrollAll env fuel (tmpFd inputFd) (sbconfig.requests pkgPath) w₁ = (.ok true, w₂) →
      copyfile env (tmpFd inputFd) output w₂ = (.ok (), w₃) → Frame env (tmpFd inputFd) w₃ w' →
      Ends env fuel inputFd output pkgPath sbconfig w (.ok true) w'
  | unwritten {w₁ w₂ c o w'} : copyfile env inputFd (tmpFd inputFd) w = (.ok (), w₁) →
      enrollAll env fuel (tmpFd inputFd) (sbconfig.requests pkgPath) w₁ = (.ok true, w₂) →
      copyfile env (tmpFd inputFd) output w₂ = (c, w') → c ≠ .ok () → o ≠ .ok true →
      Ends env fuel inputFd output pkgPath sbconfig w o w'

theorem doVarEnroll_ends {o : Outcome Bool} {w' : World}
    (h : doVarEnroll env fuel inputFd output pkgPath sbconfig w = (o, w')) :
    Ends env fuel inputFd output pkgPath sbconfig w o w' := by
  obtain ⟨u, w₁, hcopy, h⟩ | ⟨o₁, hcopy, -, ho⟩ := Py.bind_eq_cases h
  · obtain ⟨ret, w₂, hrun, h⟩ | ⟨o₂, hrun, -, ho⟩ := Py.bind_eq_cases h
    · have hframe := ((Touches.copyfile inputFd).rel hcopy).trans ((touches_enrollAll _).rel hrun)
      cases ret with
      | false =>
        cases h
        exact .before (by simp) hframe
      | true =>
        rw [if_pos rfl] at h
        obtain ⟨u, w₃, hout, h⟩ | ⟨o₃, hout, hc, ho⟩ := Py.bind_eq_cases h
        · obtain ⟨w₄, hclean, hlast⟩ := cleanUp_ok env (tmpFd inputFd) w₃
          rw [Py.bind_ok hclean] at h
          cases h
          exact .written hcopy hrun hout hlast
        · exact .unwritten hcopy hrun hout (hc ()) (ho true)
    · exact .before (ho true)
        (((Touches.copyfile inputFd).rel hcopy).trans ((touches_enrollAll _).rel hrun))
  · exact .before (ho true) ((Touches.copyfile inputFd).rel hcopy)

theorem frame_of_enrolled {w₁ w₂ : World}
    (hcopy : copyfile env inputFd (tmpFd inputFd) w = (.ok (), w₁))
    (hrun : enrollAll env fuel (tmpFd inputFd) (sbconfig.requests pkgPath) w₁ = (.ok true, w₂)) :
    Frame env (tmpFd inputFd) w w₂ :=
  ((Touches.copyfile inputFd).rel hcopy).trans ((touches_enrollAll _).rel hrun)

theorem wanted_vars_nodup (sbconfig : SbConfig) (pkgPath : Str) :
    ((sbconfig.wanted pkgPath).map Request.var).Nodup := by
  cases hpk : sbconfig.PK <;> cases hkek : sbconfig.KEK <;> cases hdb : sbconfig.db <;>
    cases hdbx : sbconfig.dbx <;> simp [SbConfig.wanted, requestOf, hpk, hkek, hdb, hdbx]

theorem requests_ne_nil (sbconfig : SbConfig) (pkgPath : Str) : sbconfig.requests pkgPath ≠ [] := by
  have hmem : requestOf pkgPath .SecureBootEnable sbconfig.SecureBootEnable ∈
      sbconfig.requests pkgPath := by
    simp [SbConfig.requests, SbConfig.wanted, requestOf]
  exact List.ne_nil_of_mem hmem

/-- What a run comes to: `True` with every variable that was asked for in the
store of the output file, or the output file as it was. The input file is as
it was in any case. -/
structure AllOrNothing (env : Env) (fuel : Nat) (inputFd output pkgPath : Str)
    (sbconfig : SbConfig) (w : World) (end_ : Outcome Bool × World) : Prop where
  all : end_.1 = .ok true → ∃ fd store, end_.2.content env output = some fd ∧
    findVarInfo fuel fd = .ok (some store) ∧
    ∀ r ∈ sbconfig.wanted pkgPath, Enrolled env w store.varsList r
  nothing : end_.1 ≠ .ok true → end_.2.content env output = w.content env output
  input_kept : end_.2.content env inputFd = w.content env inputFd

/-- The copy of the input comes to open the temporary file. -/
def Opens (env : Env) (inputFd : Str) (w : World) : Prop :=
  w.content env inputFd ≠ none ∧ env.readFails w.clock = false ∧
    env.writeFault w.tick.clock ≠ .notOpened

/-- All steps are done, from the copy of the input to the copy to the output. -/
structure Done (env : Env) (fuel : Nat) (inputFd output pkgPath : Str) (sbconfig : SbConfig)
    (w w₁ w₂ : World) : Prop where
  copied : copyfile env inputFd (tmpFd inputFd) w = (.ok (), w₁)
  enrolled : enrollAll env fuel (tmpFd inputFd) (sbconfig.requests pkgPath) w₁ = (.ok true, w₂)
  written : ∃ w₃, copyfile env (tmpFd inputFd) output w₂ = (.ok (), w₃)

/-- What a run has to find, as far as it gets: a temporary file that is not the
output file, an output file that is not cut short, no empty path for a key, and
enrollments that fit. -/
structure Fits (env : Env) (fuel : Nat) (inputFd output pkgPath : Str) (sbconfig : SbConfig)
    (w : World) : Prop where
  output_apart : Opens env inputFd w → resolve env.cwd output ≠ resolve env.cwd (tmpFd inputFd)
  output_whole : ∀ w₁ w₂, copyfile env inputFd (tmpFd inputFd) w = (.ok (), w₁) →
    enrollAll env fuel (tmpFd inputFd) (sbconfig.requests pkgPath) w₁ = (.ok true, w₂) →
    env.readFails w₂.clock = false → ∀ n, env.writeFault w₂.tick.clock ≠ .cutAfter n
  all_asked : ∀ w₁ w₂, Done env fuel inputFd output pkgPath sbconfig w w₁ w₂ →
    sbconfig.requests pkgPath = sbconfig.wanted pkgPath
  steps : ∀ w₁ w₂, Done env fuel inputFd output pkgPath sbconfig w w₁ w₂ →
    StepsFit env fuel (tmpFd inputFd) (sbconfig.requests pkgPath) w₁

theorem Fits.enrolled (hf : Fits env fuel inputFd output pkgPath sbconfig w) {w₁ w₂ : World}
    (hd : Done env fuel inputFd output pkgPath sbconfig w w₁ w₂) :
    ∃ fd store, w₂.content env (tmpFd inputFd) = some fd ∧ findVarInfo fuel fd = .ok (some store) ∧
      ∀ r ∈ sbconfig.wanted pkgPath, Enrolled env w store.varsList r := by
  obtain ⟨fd, hfd, htmp, hput⟩ := copyfile_eq_ok hd.copied
  have hfd₁ : w₁.content env (tmpFd inputFd) = some fd := by
    rw [hput]
    exact World.content_put_self env w.tick (tmpFd inputFd) htmp fd
  have hcopied : Frame env (tmpFd inputFd) w w₁ := (Touches.copyfile inputFd).rel hd.copied
  have hasked := hf.all_asked w₁ w₂ hd
  have hrun := hd.enrolled
  have hsteps := hf.steps w₁ w₂ hd
  rw [hasked] at hrun hsteps
  obtain ⟨r, rs, hcons⟩ := List.exists_cons_of_ne_nil (hasked ▸ requests_ne_nil sbconfig pkgPath)
  obtain ⟨w', hfirst, -⟩ := enrollAll_cons (hcons ▸ hrun)
  obtain ⟨fd₀, found, -, -, hcontent, hfind, -⟩ := varEnroll_eq_true rfl hfirst
  obtain rfl : fd = fd₀ := Option.some.inj (hfd₁.symm.trans hcontent)
  obtain ⟨volume, store, hvolume, hstore, hsync⟩ := Frame.findVarInfo_accepted hfind
  have hplaced : Placed fd volume store := ⟨hvolume, hstore⟩
  obtain ⟨fd', store', vars', hfd', hreads, hall, -⟩ := enrollAll_enrolled
    (wanted_vars_nodup sbconfig pkgPath) (hplaced.reads hsync) hfd₁ hsteps hrun
  cases fuel with
  | zero => cases hfind
  | succ n =>
    obtain ⟨varsSize, hfind'⟩ := hreads.find n
    refine ⟨fd', _, hfd', hfind', ?_⟩
    intro r hr
    exact (hall r hr).congr (hcopied.content (apart_of_fit hsteps hrun r hr)) (fun _ => rfl)

theorem doVarEnroll_unopened (fuel : Nat) (output pkgPath : Str) (sbconfig : SbConfig)
    (h : ¬ Opens env inputFd w) : ∃ ex w',
    doVarEnroll env fuel inputFd output pkgPath sbconfig w = (.raised ex, w') ∧
    w'.files = w.files := by
  have hfails : w.content env inputFd = none ∨ env.readFails w.clock = true ∨
      env.writeFault w.tick.clock = .notOpened := by
    by_contra hno
    simp only [not_or, Bool.not_eq_true] at hno
    exact h hno
  obtain ⟨ex, w', hcopy, hfiles⟩ := copyfile_unopened (tmpFd inputFd) hfails
  exact ⟨ex, w', Py.bind_raised hcopy, hfiles⟩

end Whole

section Main

variable {env : Env} {fuel : Nat} {inputFd pkgPath : Str} {outputDir : Option Str}
  {sbconfig : SbConfig} {w : World}

theorem input_kept (env : Env) (fuel : Nat) (inputFd pkgPath : Str) (outputDir : Option Str)
    (sbconfig : SbConfig) (w : World) :
    (doVarEnroll env fuel inputFd (outputFd env inputFd outputDir) pkgPath sbconfig w).2.content env
      inputFd = w.content env inputFd := by
  by_cases hn : Names inputFd
  · have htmp := tmpFd_ne env.cwd hn
    have hout := outputFd_ne env outputDir hn
    cases hrun : doVarEnroll env fuel inputFd (outputFd env inputFd outputDir) pkgPath sbconfig w with
    | mk o w' =>
      have hcopied : ∀ {w₂ c w₃}, copyfile env (tmpFd inputFd) (outputFd env inputFd outputDir) w₂ =
          (c, w₃) → w₃.content env inputFd = w₂.content env inputFd := by
        intro w₂ c w₃ hcopy
        exact Frame.content ((Touches.copyfile (tmpFd inputFd)).rel hcopy) hout
      cases doVarEnroll_ends hrun with
      | before _ hframe => exact hframe.content htmp
      | written hcopy hall hwrite hlast =>
        exact (hlast.content htmp).trans
          ((hcopied hwrite).trans ((frame_of_enrolled hcopy hall).content htmp))
      | unwritten hcopy hall hwrite _ _ =>
        exact (hcopied hwrite).trans ((frame_of_enrolled hcopy hall).content htmp)
  · rw [World.content_of_not_names hn, World.content_of_not_names hn]

/-- Enrollment is all or nothing in every run that finds what it has to. -/
theorem do_var_enroll_all_or_nothing
    (hf : Fits env fuel inputFd (outputFd env inputFd outputDir) pkgPath sbconfig w) :
    AllOrNothing env fuel inputFd (outputFd env inputFd outputDir) pkgPath sbconfig w
      (doVarEnroll env fuel inputFd (outputFd env inputFd outputDir) pkgPath sbconfig w) := by
  have hkept := input_kept env fuel inputFd pkgPath outputDir sbconfig w
  by_cases hopen : Opens env inputFd w
  · have hapart := hf.output_apart hopen
    cases hrun : doVarEnroll env fuel inputFd (outputFd env inputFd outputDir) pkgPath sbconfig w with
    | mk o w' =>
      rw [hrun] at hkept
      cases doVarEnroll_ends hrun with
      | before ho hframe => exact ⟨fun h => absurd h ho, fun _ => hframe.content hapart, hkept⟩
      | @written w₁ w₂ w₃ _ hcopy hall hwrite hlast =>
        obtain ⟨fd, store, hfd, hfind, henrolled⟩ := hf.enrolled ⟨hcopy, hall, w₃, hwrite⟩
        refine ⟨fun _ => ⟨fd, store, ?_, hfind, henrolled⟩, fun h => absurd rfl h, hkept⟩
        obtain ⟨fd', hfd', hnames, rfl⟩ := copyfile_eq_ok hwrite
        obtain rfl : fd = fd' := Option.some.inj (hfd.symm.trans hfd')
        refine (hlast.content hapart).trans ?_
        exact World.content_put_self env w₂.tick _ hnames fd
      | @unwritten w₁ w₂ _ _ _ hcopy hall hwrite hc ho =>
        refine ⟨fun h => absurd h ho, fun _ => ?_, hkept⟩
        have hfiles := copyfile_files (fun hr _ => hf.output_whole w₁ w₂ hcopy hall hr) hwrite hc
        exact (World.content_congr hfiles _).trans ((frame_of_enrolled hcopy hall).content hapart)
  · obtain ⟨ex, w', hrun, hfiles⟩ := doVarEnroll_unopened fuel (outputFd env inputFd outputDir) pkgPath
      sbconfig hopen
    rw [hrun] at hkept ⊢
    refine ⟨fun h => ?_, fun _ => World.content_congr hfiles _, hkept⟩
    cases h

end Main

def sampleWorld : World :=
  { files := fun place =>
      if place = ["a.fd".toList] then some { content := blankImage 96, ctime := 0 }
      else if place = [['e']] then some { content := [1], ctime := 0 }
      else none
    clock := 0 }

def sampleConfig : SbConfig :=
  { SecureBootEnable := { guid := "f0a30bc7-af08-4556-99c4-001009c93a44".toList, file := ['e'] } }

def sampleRun (env : Env) : Outcome Bool × World :=
  doVarEnroll env 1 "a.fd".toList (outputFd env "a.fd".toList none) ['/'] sampleConfig sampleWorld

theorem sample_fits : Fits .reliable 1 "a.fd".toList (outputFd .reliable "a.fd".toList none) ['/']
    sampleConfig sampleWorld := by
  have hinput : sampleWorld.content .reliable "a.fd".toList = some (blankImage 96) := by
    decide +kernel
  refine ⟨fun _ => by decide +kernel, fun _ _ _ _ _ n => by simp [Env.reliable], fun _ _ _ => rfl, ?_⟩
  · intro w₁ w₂ hd
    obtain ⟨fd₁, hfd₁, hnames, rfl⟩ := copyfile_eq_ok hd.copied
    obtain rfl : blankImage 96 = fd₁ := Option.some.inj (hinput.symm.trans hfd₁)
    refine ⟨⟨by decide +kernel, ?_⟩, fun _ _ => trivial⟩
    intro fd volume store data g content hfd hvolume hfind hdata hpay hg
    have htmp := World.content_put_self .reliable sampleWorld.tick _ hnames (blankImage 96)
    obtain rfl : blankImage 96 = fd := Option.some.inj (htmp.symm.trans hfd)
    have hstore : findVarInfo 1 (blankImage 96) = .ok (some (blankStore 96)) := by decide +kernel
    obtain rfl : blankStore 96 = store :=
      Option.some.inj (Outcome.ok.inj (hstore.symm.trans hfind))
    have hfile : (sampleWorld.tick.put (resolve Env.reliable.cwd (tmpFd "a.fd".toList))
        (blankImage 96)).content .reliable "/e".toList = some [1] := by decide +kernel
    obtain rfl : [1] = data := Option.some.inj (hfile.symm.trans hdata)
    obtain rfl : [1] = content := Option.some.inj hpay
    have hname : (str2blob SbVar.SecureBootEnable.name).length = 34 := by decide +kernel
    have hsize : sizeWith (str2blob SbVar.SecureBootEnable.name, g) [1] [] = 96 := by
      rw [sizeWith, hname]
      rfl
    have hv : FirmwareVolume.init (slice (blankImage 96) 0 128) = some (blankVolume 96) := by
      decide +kernel
    obtain rfl : blankVolume 96 = volume := Option.some.inj (hv.symm.trans hvolume)
    have hroom : Room (grown (blankImage 96) (blankVolume 96) (blankStore 96))
        (sizeWith (str2blob SbVar.SecureBootEnable.name, g) [1] []) := by
      rw [hsize]
      exact ⟨by decide +kernel, by decide +kernel, fun h => absurd h (by decide +kernel)⟩
    exact .written rfl (by decide) hroom ⟨by simp [blankStore], by simp [blankStore]⟩
      (Or.inl (by decide))

theorem sampleRun_all : (sampleRun .reliable).1 = .ok true ∧ ∃ fd store,
    (sampleRun .reliable).2.content .reliable "/a.sb.fd".toList = some fd ∧
      findVarInfo 1 fd = .ok (some store) ∧
      ∀ r ∈ sampleConfig.wanted ['/'], Enrolled .reliable sampleWorld store.varsList r := by
  have hret : (sampleRun .reliable).1 = .ok true := by decide +kernel
  exact ⟨hret, (do_var_enroll_all_or_nothing sample_fits).all hret⟩

/-- The write of the FD fails, `sync_to_file` returns `False`, and nobody looks. -/
def droppedWrite : Env :=
  { Env.reliable with writeFault := fun n => if n = 4 then .notOpened else .none }

theorem dropped_write_reported_enrolled :
    ¬ AllOrNothing droppedWrite 1 "a.fd".toList (outputFd droppedWrite "a.fd".toList none) ['/']
      sampleConfig sampleWorld (sampleRun droppedWrite) := by
  intro h
  obtain ⟨fd, store, hfd, hfind, hall⟩ := h.all (by decide +kernel)
  have hout : (sampleRun droppedWrite).2.content droppedWrite
      (outputFd droppedWrite "a.fd".toList none) = some (blankImage 96) := by decide +kernel
  obtain rfl : blankImage 96 = fd := Option.some.inj (hout.symm.trans hfd)
  have hstore : findVarInfo 1 (blankImage 96) = .ok (some (blankStore 96)) := by decide +kernel
  obtain rfl : blankStore 96 = store := Option.some.inj (Outcome.ok.inj (hstore.symm.trans hfind))
  obtain ⟨g, data, content, -, -, -, hat⟩ := hall _ (List.mem_singleton_self _)
  cases hat

end TdxTools.VarEnroll.DoVarEnroll
