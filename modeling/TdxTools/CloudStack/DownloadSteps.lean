import TdxTools.Python.FileTimes
import TdxTools.CloudStack.VerifiedDownload

namespace TdxTools.CloudStack.DownloadSteps

open Python.ByteString Python.Text Python.Path Python.Exec Python.Files Python.FileTimes
open Download Artifacts VerifiedDownload

section Paths

variable {dir filename : Str} (hslash : '/' ∉ filename)
include hslash

theorem basename_cut (h : 7 ≤ filename.length) :
    basename (Artifact.cut (join dir filename)) = filename.take (filename.length - 7) := by
  have hjoin : head (join dir filename) ++ filename = join dir filename := by
    have hwhole := head_append_basename (join dir filename)
    rwa [basename_join _ _ hslash] at hwhole
  have hcut : Artifact.cut (join dir filename) =
      head (join dir filename) ++ filename.take (filename.length - 7) := by
    rw [Artifact.cut, ← hjoin, List.length_append, Nat.add_sub_assoc h, List.take_length_add_append,
      hjoin]
  have htake : '/' ∉ filename.take (filename.length - 7) := fun hm => hslash (List.mem_of_mem_take hm)
  rw [hcut, basename_append _ _ htake, basename_head, List.nil_append]

theorem filename_of_tarXz (h : Artifact.IsTarXz (join dir filename)) :
    ∃ stem, filename = stem ++ "tar.xz".toList := by
  obtain ⟨front, hfront⟩ := h
  have hname := basename_append front "tar.xz".toList (by decide)
  rw [hfront, basename_join _ _ hslash] at hname
  exact ⟨basename front, hname⟩

/-- The archive and the destination are different files. -/
theorem dest_ne_archive {destDir : Str} {cwd : Place} (htar : Artifact.IsTarXz (join dir filename))
    (hstem : filename ≠ "tar.xz".toList) (hnames : Names (join dir filename))
    (hdest : Names (Artifact.cut (join destDir filename))) :
    resolve cwd (Artifact.cut (join destDir filename)) ≠ resolve cwd (join dir filename) := by
  obtain ⟨stem, hfilename⟩ := filename_of_tarXz hslash htar
  have hlong : 7 ≤ filename.length := by
    cases stem with
    | nil => exact absurd hfilename hstem
    | cons c stem =>
      rw [hfilename, List.length_append]
      simp
  apply resolve_ne hdest hnames
  rw [basename_cut hslash hlong, basename_join _ _ hslash]
  intro he
  have hlength := congrArg List.length he
  rw [List.length_take] at hlength
  omega

end Paths

section Extraction

variable (host : Host) (cacheDir : Str)

/-- What the members of an archive leave at some places: the last that is written to one of them. -/
def lastAt (places : List Place) (members : List (Str × Bytes)) : Option Bytes :=
  (members.filter fun m => resolve host.cwd (join cacheDir m.1) ∈ places).getLast?.map Prod.snd

variable {host cacheDir}

theorem lastAt_cons (places : List Place) (m : Str × Bytes) (members : List (Str × Bytes)) :
    lastAt host cacheDir places (m :: members) = (lastAt host cacheDir places members).or
      (if resolve host.cwd (join cacheDir m.1) ∈ places then some m.2 else none) := by
  unfold lastAt
  by_cases hm : resolve host.cwd (join cacheDir m.1) ∈ places
  · rw [List.filter_cons_of_pos (by simpa using hm), if_pos hm]
    cases hrest : members.filter fun m => decide (resolve host.cwd (join cacheDir m.1) ∈ places) with
    | nil => rfl
    | cons n rest =>
      rw [List.getLast?_cons_cons]
      cases hlast : (n :: rest).getLast? with
      | none => exact absurd (List.getLast?_eq_none_iff.mp hlast) (List.cons_ne_nil _ _)
      | some last => rfl
  · rw [List.filter_cons_of_neg (by simpa using hm), if_neg hm, Option.or_none]

theorem lastAt_pair (p : Place) (members : List (Str × Bytes)) :
    lastAt host cacheDir [p, p] members = lastAt host cacheDir [p] members := by
  simp only [lastAt, List.mem_cons, List.not_mem_nil, or_false, or_self]

/-- The newer of two files after an extraction is what the last member for one of them left. -/
theorem extractMembers_newer {k : Nat} {members : List (Str × Bytes)} {w w' : World}
    (ht : Timed w) (h : Artifact.extractMembers host cacheDir k members w = (.ok (), w'))
    (p q : Place) :
    (newer (w'.files p) (w'.files q)).map File.content =
      (lastAt host cacheDir [p, q] members).or
        ((newer (w.files p) (w.files q)).map File.content) := by
  induction members generalizing k w with
  | nil =>
    rw [Artifact.extractMembers, Py.pure_apply, Prod.mk.injEq] at h
    rw [h.2]
    rfl
  | cons m members ih =>
    rw [Artifact.extractMembers] at h
    split at h
    · cases h
    · obtain ⟨u, w₁, hwrite, hrest⟩ := Py.bind_eq_ok.mp h
      obtain ⟨-, -, rfl⟩ := writeFile_eq_ok hwrite
      rw [ih (ht.put _ _) hrest, lastAt_cons, Option.or_assoc]
      apply congrArg
      have hcwd : (host.extractEnv k).cwd = host.cwd := rfl
      by_cases hm : resolve host.cwd (join cacheDir m.1) ∈ [p, q]
      · have hat : resolve host.cwd (join cacheDir m.1) = p ∨
            resolve host.cwd (join cacheDir m.1) = q := by simpa using hm
        rw [if_pos hm, hcwd, newer_put ht hat]
        rfl
      · have hat : p ≠ resolve host.cwd (join cacheDir m.1) ∧
            q ≠ resolve host.cwd (join cacheDir m.1) := by
          constructor
          · exact fun he => hm (by simp [he])
          · exact fun he => hm (by simp [he])
        rw [if_neg hm, hcwd, newer_put_other hat.1 hat.2]
        rfl

theorem keepsTimes_extractMembers (k : Nat) (members : List (Str × Bytes)) :
    Py.Keeps KeepsTimes (Artifact.extractMembers host cacheDir k members) := by
  induction members generalizing k with
  | nil => exact fun w => KeepsTimes.refl w
  | cons m members ih =>
    rw [Artifact.extractMembers]
    split
    · exact fun w => KeepsTimes.refl w
    · exact Py.Keeps.bind (R := KeepsTimes) KeepsTimes.trans (keepsTimes_writeFile _ _)
        fun _ => ih (k + 1)

end Extraction

section Loop

variable {host : Host} {sha256 : HashFunction 32} {self : Artifact} {cacheFile : Str}
  {cached : Option Bytes}

theorem validate_keeps (host : Host) (sha256 : HashFunction 32) (self : Artifact) (path : Str)
    (c : Client) :
    (self.validateSha256sum host sha256 path c).2.world = c.world ∧
      (self.validateSha256sum host sha256 path c).2.downloads = c.downloads := by
  rw [Artifact.validateSha256sum, Py.get_bind_apply]
  split
  · exact ⟨rfl, rfl⟩
  · obtain ⟨content, -, hgo⟩ | ⟨o, hend⟩ := Py.lift_bind_cases (Outcome.ofOption .fileNotFoundError
      (c.world.content host.env path)) (fun content => self.sha256sumProperty host >>= fun provider =>
        (pure (decide (some (sha256.hexdigest content) = provider)) : Py Client Bool)) c
    · obtain ⟨hw, hd⟩ := sha256sumProperty_keeps host self c
      rw [hgo]
      obtain ⟨provider, c₁, hask, h⟩ | ⟨o, hask, -⟩ := Py.bind_eq_cases (Prod.eta
        ((self.sha256sumProperty host >>= fun provider =>
          (pure (decide (some (sha256.hexdigest content) = provider)) : Py Client Bool)) c)).symm
      · rw [hask] at hw hd
        rw [← (Prod.mk.inj h).2]
        exact ⟨hw, hd⟩
      · rw [hask] at hw hd
        exact ⟨hw, hd⟩
    · rw [hend]
      exact ⟨rfl, rfl⟩

theorem retry_true {n : Nat} {c c' : Client} {r : Bool}
    (h : self.retry host sha256 cacheFile n true c = (.ok r, c')) : r = true := by
  induction n generalizing c with
  | zero =>
    rw [Artifact.retry, Py.pure_apply, Prod.mk.injEq, Outcome.ok.injEq] at h
    exact h.1.symm
  | succ n ih =>
    rw [Artifact.retry, Py.get_bind_apply] at h
    split at h
    · obtain ⟨valid, c₁, -, h⟩ := Py.bind_eq_ok.mp h
      split at h
      · rw [Py.pure_apply, Prod.mk.injEq, Outcome.ok.injEq] at h
        exact h.1.symm
      · obtain ⟨u, c₂, -, h⟩ := Py.bind_eq_ok.mp h
        obtain ⟨u', c₃, -, h⟩ := Py.bind_eq_ok.mp h
        exact ih h
    · obtain ⟨u, c₁, -, h⟩ := Py.bind_eq_ok.mp h
      exact ih h

/-- Without a new download nothing has changed. -/
theorem retry_false {n : Nat} {c c' : Client}
    (h : self.retry host sha256 cacheFile n false c = (.ok false, c')) : c'.world = c.world := by
  cases n with
  | zero =>
    rw [Artifact.retry, Py.pure_apply, Prod.mk.injEq] at h
    rw [← h.2]
  | succ n =>
    rw [Artifact.retry, Py.get_bind_apply] at h
    split at h
    · obtain ⟨valid, c₁, hvalid, h⟩ := Py.bind_eq_ok.mp h
      have hworld := (validate_keeps host sha256 self cacheFile c).1
      rw [hvalid] at hworld
      split at h
      · rw [Py.pure_apply, Prod.mk.injEq] at h
        rw [← h.2, hworld]
      · obtain ⟨u, c₂, -, h⟩ := Py.bind_eq_ok.mp h
        obtain ⟨u', c₃, -, h⟩ := Py.bind_eq_ok.mp h
        exact absurd (retry_true h) Bool.false_ne_true
    · obtain ⟨u, c₁, -, h⟩ := Py.bind_eq_ok.mp h
      exact absurd (retry_true h) Bool.false_ne_true

/-- What is in the cache after so many downloads is from one of them. -/
structure Sourced (host : Host) (cacheFile : Str) (cached : Option Bytes) (k : Nat) (c : Client) :
    Prop where
  downloads : c.downloads ≤ k
  content : ∀ b, c.world.content host.env cacheFile = some b →
    ∃ j, 1 ≤ j ∧ j ≤ k ∧ stage host cacheFile cached j = some b

theorem Sourced.of_missing {k : Nat} {c : Client} (hk : c.downloads ≤ k)
    (h : c.world.content host.env cacheFile = none) : Sourced host cacheFile cached k c := by
  refine ⟨hk, fun b hb => ?_⟩
  rw [h] at hb
  cases hb

theorem Sourced.fetch {k : Nat} {c c' : Client} (h : Sourced host cacheFile cached k c)
    (hrun : Artifact.fetch host cacheFile c = (.ok (), c')) :
    Sourced host cacheFile cached (k + 1) c' := by
  let a := host.attempt cacheFile c.downloads
  let w' : World := (DownloadExecutor.run host.env a cacheFile c.world).2
  have hend : c' = { c with world := w', downloads := c.downloads + 1 } :=
    (Prod.mk.inj hrun).2.symm
  subst hend
  refine ⟨Nat.add_le_add_right h.downloads 1, fun b hb => ?_⟩
  cases hr : a.received with
  | none =>
    have hw : w' = c.world := by simp only [w', DownloadExecutor.run, hr]
    obtain ⟨j, hj, hjk, hstage⟩ := h.content b (hw ▸ hb)
    exact ⟨j, hj, Nat.le_succ_of_le hjk, hstage⟩
  | some received =>
    have hw : w' = c.world.put (resolve host.env.cwd cacheFile) received := by
      simp only [w', DownloadExecutor.run, hr]
    have hput := World.content_put_self host.env c.world cacheFile (received_of_not_opened hr) received
    rw [← hw] at hput
    have hsame : received = b := Option.some.inj (hput.symm.trans hb)
    exact ⟨c.downloads + 1, Nat.le_add_left 1 _, Nat.add_le_add_right h.downloads 1,
      hsame ▸ hr⟩

theorem Sourced.remove {k : Nat} {c c' : Client} (hk : c.downloads ≤ k)
    (hrun : onWorld (removeFile host.env cacheFile) c = (.ok (), c')) :
    Sourced host cacheFile cached k c' := by
  rw [onWorld, Py.within_apply, removeFile] at hrun
  split at hrun
  · obtain ⟨-, rfl⟩ := Prod.mk.inj hrun
    refine ⟨hk, fun b hb => ?_⟩
    simp [World.content, World.file] at hb
  · cases hrun

/-- A turn that goes on has a missing or a removed file before its download. -/
theorem retry_sourced {n k : Nat} {c c' : Client} {new : Bool}
    (hk : c.downloads ≤ k) (hnew : new = true → Sourced host cacheFile cached k c)
    (h : self.retry host sha256 cacheFile n new c = (.ok true, c')) :
    Sourced host cacheFile cached (k + n) c' := by
  induction n generalizing k c new with
  | zero =>
    rw [Artifact.retry, Py.pure_apply, Prod.mk.injEq, Outcome.ok.injEq] at h
    exact h.2 ▸ hnew h.1
  | succ n ih =>
    have hassoc : k + (n + 1) = k + 1 + n := by omega
    rw [Artifact.retry, Py.get_bind_apply] at h
    split at h
    · obtain ⟨valid, c₁, hvalid, h⟩ := Py.bind_eq_ok.mp h
      obtain ⟨hworld, hdownloads⟩ := validate_keeps host sha256 self cacheFile c
      rw [hvalid] at hworld hdownloads
      split at h
      · rw [Py.pure_apply, Prod.mk.injEq, Outcome.ok.injEq] at h
        obtain ⟨hdown, hcontent⟩ := hnew h.1
        rw [← h.2]
        refine ⟨by rw [hdownloads]; omega, fun b hb => ?_⟩
        rw [hworld] at hb
        obtain ⟨j, hj, hjk, hstage⟩ := hcontent b hb
        exact ⟨j, hj, by omega, hstage⟩
      · obtain ⟨u, c₂, hremove, h⟩ := Py.bind_eq_ok.mp h
        obtain ⟨u', c₃, hfetch, h⟩ := Py.bind_eq_ok.mp h
        have hs : Sourced host cacheFile cached (k + 1) c₃ :=
          (Sourced.remove (hdownloads.le.trans hk) hremove).fetch hfetch
        rw [hassoc]
        exact ih hs.downloads (fun _ => hs) h
    · next hmissing =>
      obtain ⟨u, c₁, hfetch, h⟩ := Py.bind_eq_ok.mp h
      have hnone : c.world.content host.env cacheFile = none := by
        have hfile : c.world.isfile host.env cacheFile = false := by
          simp only [Host.exists_, Bool.or_eq_true, not_or] at hmissing
          exact Bool.eq_false_iff.mpr hmissing.1
        simpa [World.content, World.isfile] using hfile
      have hs : Sourced host cacheFile cached (k + 1) c₁ :=
        (Sourced.of_missing hk hnone).fetch hfetch
      rw [hassoc]
      exact ih hs.downloads (fun _ => hs) h

end Loop

section Times

variable {host : Host} {sha256 : HashFunction 32} {self : Artifact}

def Later (c c' : Client) : Prop := KeepsTimes c.world c'.world

theorem Later.trans {c c' c'' : Client} (h : Later c c') (h' : Later c' c'') : Later c c'' :=
  KeepsTimes.trans h h'

theorem later_same {α : Type} {x : Py Client α} (h : ∀ c, (x c).2 = c) : Py.Keeps Later x :=
  Py.Keeps.of_same (fun c => KeepsTimes.refl c.world) h

theorem later_bind {α β : Type} {x : Py Client α} {f : α → Py Client β} (hx : Py.Keeps Later x)
    (hf : ∀ a, Py.Keeps Later (f a)) : Py.Keeps Later (x >>= f) :=
  Py.Keeps.bind (R := Later) Later.trans hx hf

theorem later_onWorld {α : Type} {x : Py World α} (h : Py.Keeps KeepsTimes x) :
    Py.Keeps Later (onWorld x) :=
  Py.Keeps.within (fun _ _ ht => ht) h

theorem later_fetch (cacheFile : Str) : Py.Keeps Later (Artifact.fetch host cacheFile) := by
  refine later_bind (later_same fun _ => rfl) fun c =>
    later_bind (fun _ => KeepsTimes.refl _) fun _ => later_onWorld ?_
  intro w ht
  cases hr : (host.attempt cacheFile c.downloads).received with
  | none =>
    simp only [DownloadExecutor.run, hr]
    exact ht
  | some b =>
    simp only [DownloadExecutor.run, hr]
    exact ht.put _ _

theorem later_retry (cacheFile : Str) (n : Nat) (new : Bool) :
    Py.Keeps Later (self.retry host sha256 cacheFile n new) := by
  induction n generalizing new with
  | zero => exact later_same fun _ => rfl
  | succ n ih =>
    refine later_bind (later_same fun _ => rfl) fun c => ?_
    split
    · refine later_bind (fun c => ?_) fun valid => ?_
      · rw [Later, (validate_keeps host sha256 self cacheFile c).1]
        exact KeepsTimes.refl _
      · split
        · exact later_same fun _ => rfl
        · exact later_bind (later_onWorld (keepsTimes_removeFile _)) fun _ =>
            later_bind (later_fetch _) fun _ => ih true
    · exact later_bind (later_fetch _) fun _ => ih true

theorem later_extractall (cacheFile cacheDir : Str) :
    Py.Keeps Later (Artifact.extractall host cacheFile cacheDir) :=
  later_bind (later_onWorld (keepsTimes_readFile _)) fun _ =>
    later_bind (later_same fun _ => rfl) fun _ => later_onWorld (keepsTimes_extractMembers 0 _)

theorem later_copyIfNewer (cacheFile destFile : Str) :
    Py.Keeps Later (Artifact.copyIfNewer host cacheFile destFile) := by
  have hcopy : Py.Keeps Later (if host.isdir cacheFile = true ∨ host.isdir destFile = true then
      (Py.raise Exn.osError : Py Client Str)
      else onWorld (copyfile host.env cacheFile destFile) >>= fun _ => pure destFile) := by
    split
    · exact later_same fun _ => rfl
    · exact later_bind (later_onWorld (keepsTimes_copyfile _ _)) fun _ => later_same fun _ => rfl
  have hrest (needCopy : Bool) : Py.Keeps Later (if needCopy = true then
      if host.isdir cacheFile = true ∨ host.isdir destFile = true then
        (Py.raise Exn.osError : Py Client Str)
      else onWorld (copyfile host.env cacheFile destFile) >>= fun _ => pure destFile
      else pure destFile) := by
    cases needCopy with
    | true => exact hcopy
    | false => exact later_same fun _ => rfl
  refine later_bind (later_same fun _ => rfl) fun c => ?_
  dsimp only
  split
  · exact later_bind (later_same fun _ => rfl) hrest
  · exact later_bind (later_same fun _ => rfl) fun _ =>
      later_bind (later_same fun _ => rfl) fun _ => later_bind (later_same fun _ => rfl) hrest

/-- However a call ends, no file is from the future. -/
theorem later_download (destDir cacheDir : Str) :
    Py.Keeps Later (self.download host sha256 destDir cacheDir) := by
  refine later_bind (later_same fun _ => rfl) fun c => ?_
  split
  · exact later_same fun _ => rfl
  · split
    · exact later_same fun _ => rfl
    · refine later_bind (later_retry _ _ _) fun new => ?_
      split
      · refine later_bind (later_same fun _ => rfl) fun c' => ?_
        dsimp only
        split
        · exact later_bind (later_extractall _ _) fun _ => later_copyIfNewer _ _
        · exact later_copyIfNewer _ _
      · exact later_copyIfNewer _ _

end Times

section Copying

variable {host : Host} {extracted dest path : Str} {c c' : Client}

theorem file_of_exists (hdir : host.isdir path = false) {w : World}
    (h : host.exists_ w path = true) : ∃ f, w.file host.env path = some f := by
  rw [Host.exists_, hdir, Bool.or_false, World.isfile] at h
  exact Option.isSome_iff_exists.mp h

theorem getctime_eq_ok {w : World} {t : Nat} (hdir : host.isdir path = false)
    (h : host.getctime w path = .ok t) : ∃ f, w.file host.env path = some f ∧ f.ctime = t := by
  have hnone : host.dirs (resolve host.cwd path) = none := by simpa [Host.isdir] using hdir
  rw [Host.getctime, hnone, Option.or_none, Outcome.ofOption_eq_ok] at h
  obtain ⟨f, hf, ht⟩ := Option.map_eq_some_iff.mp h
  exact ⟨f, hf, ht⟩

/-- The newer of the two files is at the destination, and no other file was touched. -/
structure Copied (host : Host) (extracted dest : Str) (c : Client) (path : Str) (c' : Client) :
    Prop where
  path_eq : path = dest
  names : Names dest
  source : (c.world.file host.env extracted).isSome
  content : c'.world.content host.env dest =
    (newer (c.world.file host.env extracted) (c.world.file host.env dest)).map File.content
  frame : Frame host.env dest c.world c'.world
  newest : Timed c.world → newer (c'.world.file host.env extracted) (c'.world.file host.env dest) =
    c'.world.file host.env dest

theorem file_at_place {p : Str} {w : World} (h : Names p) :
    w.file host.env p = w.files (resolve host.cwd p) := World.file_of_names h

theorem copy_ok {f : File} (hf : c.world.file host.env extracted = some f)
    (hnewer : newer (some f) (c.world.file host.env dest) = some f)
    (h : (onWorld (copyfile host.env extracted dest) >>= fun _ => pure dest) c = (.ok path, c')) :
    Copied host extracted dest c path c' := by
  obtain ⟨u, w', hcopy, h⟩ := Py.within_bind_eq_ok.mp h
  obtain ⟨b, hb, hnames, hw⟩ := copyfile_eq_ok hcopy
  rw [World.content, hf, Option.map_some, Option.some.injEq] at hb
  rw [Py.pure_apply, Prod.mk.injEq, Outcome.ok.injEq] at h
  obtain ⟨hpath, rfl⟩ := h
  have hsource : (c.world.file host.env extracted).isSome := by rw [hf]; rfl
  refine ⟨hpath.symm, hnames, hsource, ?_, ?_, ?_⟩
  · rw [hf, hnewer, hw, Option.map_some, hb]
    exact World.content_put_self host.env _ dest hnames _
  · intro at_ hat
    rw [hw]
    exact files_put_of_ne hat _
  · intro ht
    have htick : Timed c.world.tick := ht.later 1
    rw [file_at_place (World.names_of_file hsource), file_at_place hnames, hw]
    exact (newer_put htick (Or.inr rfl) b).trans (files_put_self _ b).symm

theorem copyIfNewer_ok (hextracted : host.isdir extracted = false) (hdest : host.isdir dest = false)
    (h : Artifact.copyIfNewer host extracted dest c = (.ok path, c')) :
    Copied host extracted dest c path c' := by
  rw [Artifact.copyIfNewer, Py.get_bind_apply] at h
  by_cases hexists : host.exists_ c.world dest = true
  · obtain ⟨g, hg⟩ := file_of_exists hdest hexists
    rw [if_neg (by simp [hexists])] at h
    obtain ⟨t, ht, h⟩ := Py.lift_bind_eq_ok.mp h
    obtain ⟨t', ht', h⟩ := Py.lift_bind_eq_ok.mp h
    obtain ⟨f, hf, rfl⟩ := getctime_eq_ok hextracted ht
    obtain ⟨g', hg', rfl⟩ := getctime_eq_ok hdest ht'
    rw [hg, Option.some.injEq] at hg'
    subst hg'
    rw [Py.pure_bind_apply] at h
    beta_reduce at h
    by_cases hnew : f.ctime > g.ctime
    · rw [if_pos (decide_eq_true hnew), if_neg (by simp [hextracted, hdest])] at h
      exact copy_ok hf (by rw [hg, newer, if_pos hnew]) h
    · rw [if_neg (by simpa using hnew), Py.pure_apply, Prod.mk.injEq, Outcome.ok.injEq] at h
      obtain ⟨hpath, rfl⟩ := h
      have hcontent : c.world.content host.env dest = some g.content := by
        rw [World.content, hg, Option.map_some]
      have hnewer : newer (some f) (some g) = some g := if_neg hnew
      refine ⟨hpath.symm, World.names_of_content hcontent, by rw [hf]; rfl, ?_, Frame.refl _ _ _,
        fun _ => by rw [hf, hg, hnewer]⟩
      rw [hcontent, hf, hg, hnewer, Option.map_some]
  · have hmissing : c.world.file host.env dest = none := by
      rw [Host.exists_, hdest, Bool.or_false, World.isfile] at hexists
      simpa using hexists
    rw [if_pos hexists, Py.pure_bind_apply] at h
    beta_reduce at h
    rw [if_pos rfl, if_neg (by simp [hextracted, hdest])] at h
    obtain ⟨u, w', hcopy, -⟩ := Py.within_bind_eq_ok.mp h
    obtain ⟨b, hb, -⟩ := copyfile_eq_ok hcopy
    obtain ⟨f, hf, -⟩ := Option.map_eq_some_iff.mp hb
    exact copy_ok hf (by rw [hmissing, newer]) h

end Copying

section Calls

variable {host : Host} {sha256 : HashFunction 32} {self : Artifact} {destDir cacheDir path : Str}
  {c c' : Client}

theorem extractall_ok {cacheFile : Str}
    (h : Artifact.extractall host cacheFile cacheDir c = (.ok (), c')) :
    ∃ b members, c.world.content host.env cacheFile = some b ∧ host.untar b = some members ∧
      Artifact.extractMembers host cacheDir 0 members c.world.tick = (.ok (), c'.world) := by
  obtain ⟨b, w₁, hread, h⟩ := Py.within_bind_eq_ok.mp h
  obtain ⟨-, hb, rfl⟩ := readFile_eq_ok hread
  obtain ⟨members, hmembers, h⟩ := Py.lift_bind_eq_ok.mp h
  rw [onWorld, Py.within_apply, Prod.mk.injEq] at h
  refine ⟨b, members, hb, Outcome.ofOption_eq_ok.mp hmembers, Prod.ext h.1 ?_⟩
  rw [← h.2]

/-- A call that returns: the loop, an extraction if there is need, and the copy. -/
theorem download_ok (htar : Artifact.IsTarXz (join cacheDir self.filename))
    (h : self.download host sha256 destDir cacheDir c = (.ok path, c')) :
    ∃ new c₁ c₂, self.retry host sha256 (join cacheDir self.filename) 5 false c = (.ok new, c₁) ∧
      (if new = true ∨ ¬ host.exists_ c₁.world (Artifact.cut (join cacheDir self.filename)) = true then
        Artifact.extractall host (join cacheDir self.filename) cacheDir c₁ = (.ok (), c₂)
        else c₂ = c₁) ∧
      Artifact.copyIfNewer host (Artifact.cut (join cacheDir self.filename))
        (Artifact.cut (join destDir self.filename)) c₂ = (.ok path, c') := by
  rw [Artifact.download, Py.get_bind_apply] at h
  split at h
  · cases h
  · split at h
    · cases h
    · obtain ⟨new, c₁, hretry, h⟩ := Py.bind_eq_ok.mp h
      rw [if_pos htar, Py.get_bind_apply] at h
      refine ⟨new, c₁, ?_⟩
      by_cases hneed : new = true ∨
          ¬ host.exists_ c₁.world (Artifact.cut (join cacheDir self.filename)) = true
      · rw [if_pos hneed] at h
        obtain ⟨u, c₂, hextract, h⟩ := Py.bind_eq_ok.mp h
        exact ⟨c₂, hretry, by rw [if_pos hneed]; exact hextract, h⟩
      · rw [if_neg hneed] at h
        exact ⟨c₁, hretry, by rw [if_neg hneed], h⟩

end Calls

end TdxTools.CloudStack.DownloadSteps
