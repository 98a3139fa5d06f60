import Mathlib.Data.Nat.Find
import TdxTools.Python.Exec

namespace TdxTools.CloudStack.Cluster

open Python.Exec

def WAIT_INTERVAL : Nat := 2
def WAIT_TIMEOUT : Nat := 660

inductive Expect
  | CREATED
  | DELETED
  deriving DecidableEq, Repr

/-- An answer of the API: what was found, or an `ApiException` with its status. -/
inductive Answer (α : Type)
  | found (resp : α)
  | apiException (status : Int)
  deriving DecidableEq

def Answer.isError {α : Type} : Answer α → Bool
  | found _ => false
  | apiException _ => true

/-- The status of an object that is not there. -/
def NOT_FOUND : Int := 404

structure ClusterBase where
  interval : Nat := WAIT_INTERVAL
  timeout : Nat := WAIT_TIMEOUT
  interval_pos : 0 < interval := by decide
  timeout_pos : 0 < timeout := by decide

structure DeploymentStatus where
  availableReplicas : Option Int
  deriving DecidableEq

structure JobStatus where
  failed : Option Int
  succeeded : Option Int
  deriving DecidableEq

/-- A wait: the variable `interval` of the loop, the answers that were taken,
and what is returned. -/
structure Poll where
  interval : Nat := 0
  polls : Nat := 0
  result : Bool := false
  deriving DecidableEq, Repr

namespace ClusterBase

variable (self : ClusterBase)

def setInterval (newInterval : Int) : ClusterBase :=
  if h : 0 < newInterval then
    { self with interval := newInterval.toNat, interval_pos := by omega }
  else self

def setTimeout (newTimeout : Int) : ClusterBase :=
  if h : (self.interval : Int) < newTimeout then
    { self with timeout := newTimeout.toNat, timeout_pos := by omega }
  else self

section Wait

variable {α : Type} (created : α → Option Bool) (answers : Nat → Answer α) (expect : Expect)

/-- The loop that the waits share; `created` is what an object that was found
makes of a wait for its creation. -/
def waitLoop : Loop Poll where
  turn := fun p =>
    if p.interval < self.timeout then
      match answers p.polls with
      | .found resp =>
        match if expect = .CREATED then created resp else none with
        | some result => .stop { p with polls := p.polls + 1, result := result }
        | none => .next { p with interval := p.interval + self.interval, polls := p.polls + 1 }
      | .apiException _ =>
        if expect = .DELETED then .stop { p with polls := p.polls + 1, result := true }
        else .next { p with interval := p.interval + self.interval, polls := p.polls + 1 }
    else .stop { p with result := false }
  variant := fun p => self.timeout - p.interval
  decreases := by
    intro p p' h
    have hpos := self.interval_pos
    split at h
    · split at h
      · split at h
        · cases h
        · cases h
          dsimp only
          omega
      · split at h
        · cases h
        · cases h
          dsimp only
          omega
    · cases h

def wait : Poll := ((self.waitLoop created answers expect).run {}).2

end Wait

def waitForNamespace (answers : Nat → Answer Unit) (expect : Expect) : Poll :=
  self.wait (fun _ => some true) answers expect

def waitForDeployement (answers : Nat → Answer DeploymentStatus) (expect : Expect) : Poll :=
  self.wait (fun resp => if resp.availableReplicas ≠ none then some true else none) answers expect

def waitForService (answers : Nat → Answer Unit) (expect : Expect) : Poll :=
  self.wait (fun _ => some true) answers expect

def waitForJob (answers : Nat → Answer JobStatus) (expect : Expect) : Poll :=
  self.wait (fun resp =>
    if resp.failed ≠ none then some false
    else if ∃ n ∈ resp.succeeded, 1 ≤ n then some true else none) answers expect

/-- The call that deletes the object; its `ApiException` is not caught. -/
def callDelete (deletion : Answer Unit) : Outcome Unit :=
  match deletion with
  | .found _ => .ok ()
  | .apiException _ => .raised (.exception [])

def deleteNamespace (deletion : Answer Unit) (answers : Nat → Answer Unit) : Outcome Poll := do
  callDelete deletion
  .ok (self.waitForNamespace answers .DELETED)

def deleteDeployment (deletion : Answer Unit) (answers : Nat → Answer DeploymentStatus) :
    Outcome Poll := do
  callDelete deletion
  .ok (self.waitForDeployement answers .DELETED)

def deleteService (deletion : Answer Unit) (answers : Nat → Answer Unit) : Outcome Poll := do
  callDelete deletion
  .ok (self.waitForService answers .DELETED)

def deleteJob (deletion : Answer Unit) (answers : Nat → Answer JobStatus) : Outcome Poll := do
  callDelete deletion
  .ok (self.waitForJob answers .DELETED)

/-- The timeout by the interval, rounded up. -/
def maxPolls : Nat := (self.timeout + self.interval - 1) / self.interval

theorem lt_maxPolls_iff (k : Nat) : k < self.maxPolls ↔ k * self.interval < self.timeout := by
  have hpos := self.interval_pos
  have hle : k + 1 ≤ self.maxPolls ↔ (k + 1) * self.interval ≤ self.timeout + self.interval - 1 :=
    Nat.le_div_iff_mul_le hpos
  rw [Nat.add_mul, Nat.one_mul] at hle
  omega

section Deleted

variable {α : Type} {created : α → Option Bool} {answers : Nat → Answer α}

/-- The wait before its poll with this number, when nothing but objects was found. -/
def after (k : Nat) : Poll := { interval := k * self.interval, polls := k }

variable {self} {k : Nat}

theorem turn_found {resp : α} (hk : k < self.maxPolls) (h : answers k = .found resp) :
    (self.waitLoop created answers .DELETED).turn (self.after k) = .next (self.after (k + 1)) := by
  have hlt := (self.lt_maxPolls_iff k).mp hk
  have hturn : (self.waitLoop created answers .DELETED).turn (self.after k) =
      .next { interval := k * self.interval + self.interval, polls := k + 1 } := by
    simp [waitLoop, after, hlt, h]
  rw [hturn, after, Nat.add_mul, Nat.one_mul]

theorem turn_error {status : Int} (hk : k < self.maxPolls) (h : answers k = .apiException status) :
    (self.waitLoop created answers .DELETED).turn (self.after k) =
      .stop { self.after k with polls := k + 1, result := true } := by
  have hlt := (self.lt_maxPolls_iff k).mp hk
  simp [waitLoop, after, hlt, h]

theorem turn_timeout : (self.waitLoop created answers .DELETED).turn (self.after self.maxPolls) =
    .stop (self.after self.maxPolls) := by
  have hlt : ¬ self.maxPolls * self.interval < self.timeout :=
    fun h => Nat.lt_irrefl _ ((self.lt_maxPolls_iff _).mpr h)
  simp [waitLoop, after, hlt]

/-- The loop goes on as long as the object is found. -/
theorem reaches_after (hk : k ≤ self.maxPolls) (h : ∀ j < k, (answers j).isError = false) :
    (self.waitLoop created answers .DELETED).Reaches {} (self.after k) := by
  induction k with
  | zero =>
    have hstart : self.after 0 = {} := by rw [after, Nat.zero_mul]
    rw [hstart]
    exact .refl
  | succ k ih =>
    have hprev := ih (by omega) fun j hj => h j (by omega)
    have hfound := h k (by omega)
    cases ha : answers k with
    | found resp => exact hprev.next (turn_found (by omega) ha)
    | apiException status =>
      rw [ha] at hfound
      cases hfound

theorem wait_error {status : Int} (hk : k < self.maxPolls)
    (hbefore : ∀ j < k, (answers j).isError = false) (h : answers k = .apiException status) :
    self.wait created answers .DELETED = { self.after k with polls := k + 1, result := true } := by
  have hreach : (self.waitLoop created answers .DELETED).Reaches {} (self.after k) :=
    reaches_after (Nat.le_of_lt hk) hbefore
  rw [wait, hreach.run_stop (turn_error hk h)]

theorem wait_found (h : ∀ j < self.maxPolls, (answers j).isError = false) :
    self.wait created answers .DELETED = self.after self.maxPolls := by
  have hreach : (self.waitLoop created answers .DELETED).Reaches {} (self.after self.maxPolls) :=
    reaches_after (Nat.le_refl _) h
  rw [wait, hreach.run_stop turn_timeout]

variable (self answers)

/-- `True` is returned only if a poll found the object absent; without such a
poll `False` is returned, after so many polls at most. -/
def Reported (w : Poll) : Prop :=
  (w.result = true → ∃ j < w.polls, answers j = .apiException NOT_FOUND) ∧
    ((¬ ∃ j < w.polls, answers j = .apiException NOT_FOUND) →
      w.result = false ∧ w.polls ≤ self.maxPolls)

/-- The first error of the answers that a wait can take is that the object is absent. -/
def FirstErrorAbsent : Prop :=
  ∀ k < self.maxPolls, ∀ status, answers k = .apiException status →
    (∀ j < k, (answers j).isError = false) → status = NOT_FOUND

variable {self answers}

theorem reported_iff :
    self.Reported answers (self.wait created answers .DELETED) ↔ self.FirstErrorAbsent answers := by
  by_cases herror : ∃ k, k < self.maxPolls ∧ (answers k).isError = true
  · obtain ⟨hk, hisError⟩ := Nat.find_spec herror
    have hbefore : ∀ j < Nat.find herror, (answers j).isError = false := by
      intro j hj
      have hmin := Nat.find_min herror hj
      rw [not_and] at hmin
      simpa using hmin (by omega)
    cases ha : answers (Nat.find herror) with
    | found resp =>
      rw [ha] at hisError
      cases hisError
    | apiException status =>
      rw [wait_error hk hbefore ha]
      constructor
      · intro h k' hk' status' ha' hbefore'
        obtain ⟨j, hj, hj404⟩ := h.1 rfl
        have hj : j = Nat.find herror := by
          by_contra hne
          have hfound := hbefore j (by dsimp only at hj; omega)
          rw [hj404] at hfound
          cases hfound
        have hsame : k' = Nat.find herror := by
          by_contra hne
          rcases Nat.lt_or_gt_of_ne hne with hlt | hgt
          · have hfound := hbefore k' hlt
            rw [ha'] at hfound
            cases hfound
          · have hfound := hbefore' _ hgt
            rw [ha] at hfound
            cases hfound
        rw [hsame, ← hj, hj404, Answer.apiException.injEq] at ha'
        exact ha'.symm
      · intro h
        have hstatus := h _ hk status ha hbefore
        have hseen : ∃ j < Nat.find herror + 1, answers j = .apiException NOT_FOUND :=
          ⟨_, Nat.lt_succ_self _, hstatus ▸ ha⟩
        exact ⟨fun _ => hseen, fun hnot => absurd hseen hnot⟩
  · have hfound : ∀ j < self.maxPolls, (answers j).isError = false := by
      intro j hj
      by_contra hj'
      exact herror ⟨j, hj, by simpa using hj'⟩
    rw [wait_found hfound]
    refine iff_of_true ⟨fun h => absurd h Bool.false_ne_true, fun _ => ⟨rfl, Nat.le_refl _⟩⟩ ?_
    intro k hk status ha _
    have hk' := hfound k hk
    rw [ha] at hk'
    cases hk'

end Deleted

section Deletion

variable {α : Type} (waitFor : (Nat → Answer α) → Expect → Poll)
  (delete : Answer Unit → (Nat → Answer α) → Outcome Poll)

/-- A wait for the deletion is right just for these answers, and so is the
deletion itself, which raises if the API refuses it. -/
def RightOnly : Prop :=
  ∀ (deletion : Answer Unit) (answers : Nat → Answer α),
    (self.Reported answers (waitFor answers .DELETED) ↔ self.FirstErrorAbsent answers) ∧
    ((∀ w, delete deletion answers = .ok w → self.Reported answers w) ↔
      deletion.isError = true ∨ self.FirstErrorAbsent answers)

variable {self waitFor delete}

theorem rightOnly_of_wait {created : α → Option Bool}
    (hwait : ∀ answers, waitFor answers .DELETED = self.wait created answers .DELETED)
    (hdelete : ∀ deletion answers, delete deletion answers =
      (callDelete deletion >>= fun _ => .ok (waitFor answers .DELETED))) :
    self.RightOnly waitFor delete := by
  intro deletion answers
  have hreported : self.Reported answers (waitFor answers .DELETED) ↔
      self.FirstErrorAbsent answers := by
    rw [hwait]
    exact reported_iff
  refine ⟨hreported, ?_⟩
  rw [hdelete]
  cases deletion with
  | found u => simp [callDelete, Answer.isError, hreported]
  | apiException status => simp [callDelete, Answer.isError]

end Deletion

end ClusterBase

/-- Each wait for a deletion, and each deletion, is right just if the first
error that the polls can meet is that the object is absent. -/
theorem deletion_reported_iff (self : ClusterBase) :
    self.RightOnly self.waitForNamespace self.deleteNamespace ∧
      self.RightOnly self.waitForDeployement self.deleteDeployment ∧
      self.RightOnly self.waitForService self.deleteService ∧
      self.RightOnly self.waitForJob self.deleteJob :=
  ⟨ClusterBase.rightOnly_of_wait (fun _ => rfl) fun _ _ => rfl,
    ClusterBase.rightOnly_of_wait (fun _ => rfl) fun _ _ => rfl,
    ClusterBase.rightOnly_of_wait (fun _ => rfl) fun _ _ => rfl,
    ClusterBase.rightOnly_of_wait (fun _ => rfl) fun _ _ => rfl⟩

/-- A server that fails is taken for an object that is gone. -/
theorem server_error_deletes :
    let self : ClusterBase := {}
    let answers : Nat → Answer Unit := fun _ => .apiException 500
    self.deleteNamespace (.found ()) answers = .ok { polls := 1, result := true } ∧
      ¬ self.Reported answers (self.waitForNamespace answers .DELETED) := by
  intro self answers
  refine ⟨by decide +kernel, fun h => ?_⟩
  obtain ⟨j, -, hj⟩ := h.1 (by decide +kernel)
  have hstatus : (500 : Int) = NOT_FOUND := Answer.apiException.inj hj
  exact absurd hstatus (by decide)

end TdxTools.CloudStack.Cluster
