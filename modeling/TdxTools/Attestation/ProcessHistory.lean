import TdxTools.Attestation.LogTiling

namespace TdxTools.Attestation.ProcessHistory

open Python.ByteString Python.Exec Blob EventLog Actor EventLogDecoding RecordFormat LogScan
open LogTiling TDEventLogActor

/-- The entry points that parse the log. -/
inductive Call
  | process
  | replay
  | dumpTdEventLogs
  | dumpRtmrs
  deriving DecidableEq, Repr

section History

variable (sha384 : Bytes → Bytes) (data : Bytes)

def Call.run : Call → Py TDEventLogActor Unit
  | process => TDEventLogActor.process (.content data)
  | replay => TDEventLogActor.replay sha384 (.content data)
  | dumpTdEventLogs => TDEventLogActor.dumpTdEventLogs (.content data)
  | dumpRtmrs => TDEventLogActor.dumpRtmrs sha384 (.content data)

/-- The actor after some calls; the caller catches what they raise. -/
def runCalls : List Call → TDEventLogActor → TDEventLogActor
  | [], actor => actor
  | c :: calls, actor => runCalls calls (c.run sha384 data actor).2

/-- After a call whose parsing failed no call succeeds, and after one whose
parsing succeeded no call changes the event records. -/
def Atomic (base logLength : Nat) : Prop :=
  ∀ (pre : List Call) (c : Call) (post : List Call) (d : Call),
    let s := runCalls sha384 data pre (init base logLength)
    let s₁ := (c.run sha384 data s).2
    let s₂ := runCalls sha384 data post s₁
    (∀ e s', process (.content data) s = (.raised e, s') → (d.run sha384 data s₂).1 ≠ .ok ()) ∧
      ∀ s', process (.content data) s = (.ok (), s') → s₂.eventLogs = s'.eventLogs

end History

/-- The walk over the log ends with a spec-ID record behind it or before the
first record, or it breaks off without having met an EV_NO_ACTION record. -/
def Settled (data : Bytes) (logLength : Nat) : Prop :=
  ∀ c, Walks data logLength ⟨0, none⟩ c →
    (Ends data logLength c.index → c.sizes ≠ none ∨ c.index = 0) ∧
      (¬ Ends data logLength c.index → (∀ c', ¬ Moves data logLength c c') →
        c.sizes = none ∧ ¬ StartsNoAction data c.index)

variable {sha384 : Bytes → Bytes} {data : Bytes} {base logLength : Nat}

theorem call_run (sha384 : Bytes → Bytes) (data : Bytes) (c : Call) (s : TDEventLogActor) :
    (∀ e s', process (.content data) s = (.raised e, s') → c.run sha384 data s = (.raised e, s')) ∧
      ∀ s', process (.content data) s = (.ok (), s') →
        ∃ o rtmrs, c.run sha384 data s = (o, { s' with rtmrs := rtmrs }) := by
  have hreplay : ∀ s', process (.content data) s = (.ok (), s') →
      ∃ o rtmrs, replay sha384 (.content data) s = (o, { s' with rtmrs := rtmrs }) := by
    intro s' h
    rw [replay, Py.bind_ok h, Py.get_bind_apply]
    rcases Py.lift_bind_cases _ _ s' with ⟨byIndex, -, hrun⟩ | ⟨o, hrun⟩
    · rw [hrun]
      rcases Py.lift_bind_cases _ _ s' with ⟨rtmrs, -, hrun⟩ | ⟨o, hrun⟩
      · exact ⟨.ok (), rtmrs, hrun⟩
      · exact ⟨o, s'.rtmrs, hrun⟩
    · exact ⟨o, s'.rtmrs, hrun⟩
  cases c with
  | process => exact ⟨fun e s' h => h, fun s' h => ⟨.ok (), s'.rtmrs, h⟩⟩
  | replay => exact ⟨fun e s' h => Py.bind_raised h, hreplay⟩
  | dumpRtmrs => exact ⟨fun e s' h => Py.bind_raised h, hreplay⟩
  | dumpTdEventLogs =>
    refine ⟨fun e s' h => Py.bind_raised h, fun s' h => ?_⟩
    have hbind : Call.dumpTdEventLogs.run sha384 data s = _ := Py.bind_ok h
    rw [hbind, Py.get_bind_apply]
    rcases Py.lift_bind_cases _ _ s' with ⟨header, -, hrun⟩ | ⟨o, hrun⟩
    · rw [hrun]
      rcases Py.lift_bind_cases _ _ s' with ⟨_, -, hrun⟩ | ⟨o, hrun⟩
      · exact ⟨_, s'.rtmrs, hrun⟩
      · exact ⟨o, s'.rtmrs, hrun⟩
    · exact ⟨o, s'.rtmrs, hrun⟩

/-- Nothing was kept that stands in the way of parsing the log from its start. -/
structure Fresh (logLength : Nat) (s : TDEventLogActor) : Prop where
  specidHeader : s.specidHeader = none
  logLength : s.logLength = logLength

theorem fresh_init : Fresh logLength (init base logLength) := ⟨rfl, rfl⟩

theorem process_header {s : TDEventLogActor} (h : s.specidHeader ≠ none) :
    process (.content data) s = (.ok (), s) := by
  rw [process, Py.get_bind_apply, if_pos (Option.isSome_iff_ne_none.mpr h)]
  rfl

/-- The state of the loop over the log when the parsing starts. -/
def entered (data : Bytes) (s : TDEventLogActor) : ProcessState :=
  { index := 0, actor := { s with data := some data } }

theorem process_fresh {s : TDEventLogActor} (h : Fresh logLength s) (hne : data ≠ []) :
    process (.content data) s =
      (((processLoop data).run (entered data s)).1,
        ((processLoop data).run (entered data s)).2.actor) :=
  process_unread h.specidHeader hne

theorem process_fresh_empty {s : TDEventLogActor} (h : Fresh logLength s) :
    process (.content []) s = (.raised .assertionError, { s with data := some [] }) :=
  process_unread_empty h.specidHeader

theorem cursorOf_entered (data : Bytes) {s : TDEventLogActor} (h : Fresh logLength s) :
    cursorOf (entered data s) = ⟨0, none⟩ := by
  rw [cursorOf, entered, h.specidHeader]
  rfl

theorem process_stops {c : Cursor} {s : TDEventLogActor} (hfresh : Fresh logLength s)
    (hne : data ≠ []) (hwalk : Walks data logLength ⟨0, none⟩ c)
    (hstuck : ∀ c', ¬ Moves data logLength c c') :
    ∃ t, (processLoop data).Reaches (entered data s) t ∧ cursorOf t = c ∧
      (Ends data logLength c.index ∧ process (.content data) s = (.ok (), t.actor) ∨
        ¬ Ends data logLength c.index ∧ ∃ e specidHeader,
          process (.content data) s = (.raised e, { t.actor with specidHeader := specidHeader }) ∧
          (StartsNoAction data c.index → specidHeader.isSome) ∧
          (¬ StartsNoAction data c.index → specidHeader = t.actor.specidHeader)) := by
  rw [← cursorOf_entered data hfresh, ← hfresh.logLength] at hwalk
  obtain ⟨t, hreach, rfl⟩ := reaches_of_walks (s := entered data s) hwalk
  have hlog : t.actor.logLength = logLength :=
    (logLength_of_reaches hreach).trans hfresh.logLength
  rw [← hlog] at hstuck
  refine ⟨t, hreach, rfl, ?_⟩
  rw [process_fresh hfresh hne]
  rcases stops_of_stuck hstuck with ⟨hends, hturn⟩ | ⟨hends, e, specidHeader, hturn, hheader⟩
  · rw [hlog] at hends
    rw [hreach.run_stop hturn]
    exact Or.inl ⟨hends, rfl⟩
  · rw [hlog] at hends
    rw [hreach.run_raise hturn]
    exact Or.inr ⟨hends, e, specidHeader, rfl, hheader⟩

theorem walk_stops (data : Bytes) {s : TDEventLogActor} (hfresh : Fresh logLength s) :
    ∃ c, Walks data logLength ⟨0, none⟩ c ∧ ∀ c', ¬ Moves data logLength c c' := by
  obtain ⟨t, hreach, hend⟩ := (processLoop data).run_ends (entered data s)
  have hlog : t.actor.logLength = logLength :=
    (logLength_of_reaches hreach).trans hfresh.logLength
  have hwalk := walks_of_reaches hreach
  rw [cursorOf_entered data hfresh] at hwalk
  refine ⟨cursorOf t, hfresh.logLength ▸ hwalk, ?_⟩
  intro c' hmove
  rw [← hlog] at hmove
  obtain ⟨t', hturn, -⟩ := turn_of_moves hmove
  have hturn : (processLoop data).turn t = .next t' := hturn
  rcases hend with ⟨u, hstop, -⟩ | ⟨e, u, hraise, -⟩
  · rw [hturn] at hstop
    cases hstop
  · rw [hturn] at hraise
    cases hraise

theorem process_halts (s : TDEventLogActor) : (process (.content data) s).1 ≠ .running := by
  by_cases hheader : s.specidHeader = none
  · have hfresh : Fresh s.logLength s := ⟨hheader, rfl⟩
    by_cases hne : data = []
    · subst hne
      rw [process_fresh_empty hfresh]
      simp
    · rw [process_fresh hfresh hne]
      exact run_halts _
  · rw [process_header hheader]
    simp

theorem logLength_process (s : TDEventLogActor) :
    (process (.content data) s).2.logLength = s.logLength := by
  by_cases hheader : s.specidHeader = none
  · have hfresh : Fresh s.logLength s := ⟨hheader, rfl⟩
    by_cases hne : data = []
    · subst hne
      rw [process_fresh_empty hfresh]
    · obtain ⟨c, hwalk, hstuck⟩ := walk_stops data hfresh
      obtain ⟨t, hreach, -, hend⟩ := process_stops hfresh hne hwalk hstuck
      have hlog : t.actor.logLength = s.logLength := logLength_of_reaches hreach
      rcases hend with ⟨-, hrun⟩ | ⟨-, e, specidHeader, hrun, -⟩
      · rw [hrun]
        exact hlog
      · rw [hrun]
        exact hlog
  · rw [process_header hheader]

theorem call_state (sha384 : Bytes → Bytes) (data : Bytes) (c : Call) (s : TDEventLogActor) :
    ∃ rtmrs, (c.run sha384 data s).2 = { (process (.content data) s).2 with rtmrs := rtmrs } := by
  obtain ⟨hraised, hok⟩ := call_run sha384 data c s
  rcases hp : process (.content data) s with ⟨_ | e | _, s'⟩
  · obtain ⟨o, rtmrs, hrun⟩ := hok s' hp
    exact ⟨rtmrs, by rw [hrun]⟩
  · exact ⟨s'.rtmrs, by rw [hraised e s' hp]⟩
  · exact absurd (congrArg Prod.fst hp) (process_halts s)

theorem runCalls_invariant {P : TDEventLogActor → Prop}
    (hstep : ∀ c s, P s → P (Call.run sha384 data c s).2) (calls : List Call) {s : TDEventLogActor}
    (hs : P s) : P (runCalls sha384 data calls s) := by
  induction calls generalizing s with
  | nil => exact hs
  | cons c calls ih => exact ih (hstep c s hs)

theorem runCalls_header {s : TDEventLogActor} (h : s.specidHeader ≠ none) (calls : List Call) :
    (runCalls sha384 data calls s).eventLogs = s.eventLogs := by
  suffices hkept : (runCalls sha384 data calls s).specidHeader ≠ none ∧
      (runCalls sha384 data calls s).eventLogs = s.eventLogs from hkept.2
  apply runCalls_invariant (P := fun t => t.specidHeader ≠ none ∧ t.eventLogs = s.eventLogs)
  · intro c t ht
    obtain ⟨rtmrs, hstate⟩ := call_state sha384 data c t
    rw [hstate, process_header ht.1]
    exact ht
  · exact ⟨h, rfl⟩

/-- What parsing comes to in an actor that kept nothing of the log: it fails and
keeps nothing again, it finds no record, or it keeps a spec-ID record. -/
inductive Regime (data : Bytes) (logLength : Nat) : Prop
  | refused (h : ∀ s, Fresh logLength s → (∃ e, (process (.content data) s).1 = .raised e) ∧
      (process (.content data) s).2.specidHeader = none)
  | empty (h : ∀ s, Fresh logLength s → (process (.content data) s).1 = .ok () ∧
      (process (.content data) s).2.specidHeader = none ∧
      (process (.content data) s).2.eventLogs = s.eventLogs)
  | read (h : ∀ s, Fresh logLength s → (process (.content data) s).1 = .ok () ∧
      (process (.content data) s).2.specidHeader ≠ none)

theorem index_pos_of_reaches {s t : ProcessState} (h : (processLoop data).Reaches s t) :
    t = s ∨ s.index < t.index := by
  apply h.invariant (P := fun t => t = s ∨ s.index < t.index)
  · intro t t' ht hturn
    have hle := (processTurn_advances data t t' hturn).2.1
    rcases ht with rfl | hlt
    · exact Or.inr (by omega)
    · exact Or.inr (by omega)
  · exact Or.inl rfl

theorem regime_of_settled (h : Settled data logLength) : Regime data logLength := by
  by_cases hne : data = []
  · subst hne
    refine .refused fun s hfresh => ?_
    rw [process_fresh_empty hfresh]
    exact ⟨⟨_, rfl⟩, hfresh.specidHeader⟩
  · obtain ⟨c, hwalk, hstuck⟩ := walk_stops data (s := init 0 logLength) fresh_init
    obtain ⟨hsettled, hbroken⟩ := h c hwalk
    by_cases hends : Ends data logLength c.index
    · rcases hsettled hends with hsizes | hindex
      · refine .read fun s hfresh => ?_
        obtain ⟨t, -, rfl, ⟨-, hrun⟩ | ⟨hends', -⟩⟩ := process_stops hfresh hne hwalk hstuck
        · rw [hrun]
          refine ⟨rfl, fun hnone => hsizes ?_⟩
          rw [cursorOf, hnone]
          rfl
        · exact absurd hends hends'
      · refine .empty fun s hfresh => ?_
        obtain ⟨t, hreach, rfl, ⟨-, hrun⟩ | ⟨hends', -⟩⟩ := process_stops hfresh hne hwalk hstuck
        · rw [hrun]
          rcases index_pos_of_reaches hreach with rfl | hlt
          · exact ⟨rfl, hfresh.specidHeader, rfl⟩
          · exact absurd hindex (Nat.ne_of_gt hlt)
        · exact absurd hends hends'
    · obtain ⟨hsizes, hstarts⟩ := hbroken hends hstuck
      refine .refused fun s hfresh => ?_
      obtain ⟨t, -, rfl, ⟨hends', -⟩ | ⟨-, e, specidHeader, hrun, -, hother⟩⟩ :=
        process_stops hfresh hne hwalk hstuck
      · exact absurd hends' hends
      · rw [hrun, hother hstarts]
        exact ⟨⟨e, rfl⟩, Option.map_eq_none_iff.mp hsizes⟩

theorem fresh_call {s : TDEventLogActor} (hfresh : Fresh logLength s)
    (hnone : (process (.content data) s).2.specidHeader = none) (c : Call) :
    Fresh logLength (c.run sha384 data s).2 := by
  obtain ⟨rtmrs, hstate⟩ := call_state sha384 data c s
  rw [hstate]
  exact ⟨hnone, (logLength_process s).trans hfresh.logLength⟩

theorem atomic_of_refused (h : ∀ s, Fresh logLength s →
    (∃ e, (process (.content data) s).1 = .raised e) ∧
      (process (.content data) s).2.specidHeader = none) :
    Atomic sha384 data base logLength := by
  have hfresh : ∀ (calls : List Call) (s : TDEventLogActor), Fresh logLength s →
      Fresh logLength (runCalls sha384 data calls s) := by
    intro calls s hs
    apply runCalls_invariant _ calls hs
    intro c t ht
    exact fresh_call ht (h t ht).2 c
  intro pre c post d s s₁ s₂
  have hs : Fresh logLength s := hfresh pre _ fresh_init
  constructor
  · intro e s' _
    have hs₂ : Fresh logLength s₂ := hfresh post _ (fresh_call hs (h s hs).2 c)
    obtain ⟨⟨e', hraised⟩, -⟩ := h s₂ hs₂
    have hrun := (call_run sha384 data d s₂).1 e' _ (Prod.ext hraised rfl)
    rw [hrun]
    simp
  · intro s' hok
    obtain ⟨⟨e', hraised⟩, -⟩ := h s hs
    rw [hok] at hraised
    cases hraised

theorem atomic_of_empty (h : ∀ s, Fresh logLength s → (process (.content data) s).1 = .ok () ∧
    (process (.content data) s).2.specidHeader = none ∧
      (process (.content data) s).2.eventLogs = s.eventLogs) :
    Atomic sha384 data base logLength := by
  have hkept : ∀ (calls : List Call) (s : TDEventLogActor), Fresh logLength s →
      Fresh logLength (runCalls sha384 data calls s) ∧
        (runCalls sha384 data calls s).eventLogs = s.eventLogs := by
    intro calls s hs
    apply runCalls_invariant (P := fun t => Fresh logLength t ∧ t.eventLogs = s.eventLogs) _ calls
      ⟨hs, rfl⟩
    rintro c t ⟨ht, hlogs⟩
    obtain ⟨rtmrs, hstate⟩ := call_state sha384 data c t
    refine ⟨fresh_call ht (h t ht).2.1 c, ?_⟩
    rw [hstate]
    exact (h t ht).2.2.trans hlogs
  intro pre c post d s s₁ s₂
  have hs : Fresh logLength s := (hkept pre _ fresh_init).1
  constructor
  · intro e s' hraised
    have hok := (h s hs).1
    rw [hraised] at hok
    cases hok
  · intro s' hok
    have hlogs := (h s hs).2.2
    rw [hok] at hlogs
    exact (hkept (c :: post) s hs).2.trans hlogs.symm

theorem atomic_of_read (h : ∀ s, Fresh logLength s → (process (.content data) s).1 = .ok () ∧
    (process (.content data) s).2.specidHeader ≠ none) : Atomic sha384 data base logLength := by
  have hparsed : ∀ s : TDEventLogActor, s.logLength = logLength →
      (process (.content data) s).1 = .ok () ∧
        (process (.content data) s).2.specidHeader ≠ none := by
    intro s hlog
    by_cases hheader : s.specidHeader = none
    · exact h s ⟨hheader, hlog⟩
    · rw [process_header hheader]
      exact ⟨rfl, hheader⟩
  intro pre c post d s s₁ s₂
  have hlog : s.logLength = logLength := by
    apply runCalls_invariant (P := fun t => t.logLength = logLength) _ pre rfl
    intro c t ht
    obtain ⟨rtmrs, hstate⟩ := call_state sha384 data c t
    rw [hstate]
    exact (logLength_process t).trans ht
  obtain ⟨hok, hheader⟩ := hparsed s hlog
  constructor
  · intro e s' hraised
    rw [hraised] at hok
    cases hok
  · intro s' hrun
    rw [hrun] at hheader
    obtain ⟨rtmrs, hstate⟩ := call_state sha384 data c s
    rw [hrun] at hstate
    have hs₁ : s₁ = { s' with rtmrs := rtmrs } := hstate
    have hheader₁ : s₁.specidHeader ≠ none := by
      rw [hs₁]
      exact hheader
    have hlogs : s₁.eventLogs = s'.eventLogs := by rw [hs₁]
    exact (runCalls_header hheader₁ post).trans hlogs

theorem atomic_of_settled (h : Settled data logLength) : Atomic sha384 data base logLength := by
  cases regime_of_settled h with
  | refused h => exact atomic_of_refused h
  | empty h => exact atomic_of_empty h
  | read h => exact atomic_of_read h

theorem eventLogs_of_reaches {s t : ProcessState} (h : (processLoop data).Reaches s t) :
    t.actor.specidHeader ≠ none ∨ t = s ∨
      s.actor.eventLogs.length < t.actor.eventLogs.length := by
  apply h.invariant (P := fun t => t.actor.specidHeader ≠ none ∨ t = s ∨
    s.actor.eventLogs.length < t.actor.eventLogs.length)
  · intro t t' ht hturn
    cases turned_of hturn with
    | specId => exact Or.inl (Option.some_ne_none _)
    | event =>
      rcases ht with hheader | rfl | hlt
      · exact Or.inl hheader
      · exact Or.inr (Or.inr (by simp))
      · exact Or.inr (Or.inr (by simp; omega))
  · exact Or.inr (Or.inl rfl)

theorem walks_nil {b c : Cursor} (h : Walks [] logLength b c) : c = b := by
  rcases h.cases_tail with heq | ⟨b, -, hmove⟩
  · exact heq
  · cases hmove with
    | specId _ hstarts =>
      have h8 : b.index + 8 ≤ 0 := hstarts.1
      omega
    | event _ _ r _ _ hstands =>
      have hlen := (fields_of_record hstands).1
      rw [List.drop_nil] at hlen
      exact absurd hlen (by decide)

theorem not_starts_nil (index : Nat) : ¬ StartsNoAction [] index := by
  intro hstarts
  have h8 : index + 8 ≤ 0 := hstarts.1
  omega

section FirstCalls

variable (h : Atomic sha384 data base logLength) {s₁ : TDEventLogActor}
include h

theorem atomic_failed {e : Exn} (h₁ : process (.content data) (init base logLength) = (.raised e, s₁)) :
    (process (.content data) s₁).1 ≠ .ok () := by
  have hfailed := (h [] .process [] .process).1 e s₁ h₁
  simp only [runCalls, Call.run, h₁] at hfailed
  exact hfailed

theorem atomic_twice {s₂ : TDEventLogActor}
    (h₁ : process (.content data) (init base logLength) = (.ok (), s₁))
    (h₂ : process (.content data) s₁ = (.ok (), s₂)) : s₂.eventLogs = s₁.eventLogs := by
  have hlogs := (h [] .process [.process] .process).2 s₁ h₁
  simp only [runCalls, Call.run, h₁, h₂] at hlogs
  exact hlogs

end FirstCalls

theorem settled_of_atomic (h : Atomic sha384 data base logLength) : Settled data logLength := by
  intro c hwalk
  constructor
  · intro hends
    by_contra hnot
    push Not at hnot
    obtain ⟨hsizes, hindex⟩ := hnot
    have hne : data ≠ [] := by
      rintro rfl
      exact hindex (congrArg Cursor.index (walks_nil hwalk))
    -- Each parsing that ends here adds the records of the log once more.
    have hgrows : ∀ s, Fresh logLength s → ∃ s', process (.content data) s = (.ok (), s') ∧
        Fresh logLength s' ∧ s.eventLogs.length < s'.eventLogs.length := by
      intro s hfresh
      obtain ⟨t, hreach, hcursor, ⟨-, hrun⟩ | ⟨hends', -⟩⟩ :=
        process_stops hfresh hne hwalk hends.stuck
      · have hnone : t.actor.specidHeader = none := by
          rw [← hcursor] at hsizes
          exact Option.map_eq_none_iff.mp hsizes
        have hlog : t.actor.logLength = logLength :=
          (logLength_of_reaches hreach).trans hfresh.logLength
        refine ⟨t.actor, hrun, ⟨hnone, hlog⟩, ?_⟩
        rcases eventLogs_of_reaches hreach with hheader | rfl | hlt
        · exact absurd hnone hheader
        · exact absurd (congrArg Cursor.index hcursor).symm hindex
        · exact hlt
      · exact absurd hends hends'
    obtain ⟨s₁, hrun₁, hfresh₁, -⟩ := hgrows (init base logLength) fresh_init
    obtain ⟨s₂, hrun₂, -, hlt⟩ := hgrows s₁ hfresh₁
    rw [atomic_twice h hrun₁ hrun₂] at hlt
    exact absurd hlt (Nat.lt_irrefl _)
  · intro hends hstuck
    by_contra hnot
    have hne : data ≠ [] := by
      rintro rfl
      have hc : c = ⟨0, none⟩ := walks_nil hwalk
      exact hnot ⟨congrArg Cursor.sizes hc, not_starts_nil _⟩
    obtain ⟨t, hreach, rfl, ⟨hends', -⟩ | ⟨-, e, specidHeader, hrun, hnoaction, hother⟩⟩ :=
      process_stops (fresh_init : Fresh logLength (init base logLength)) hne hwalk hstuck
    · exact hends hends'
    · have hkept : specidHeader ≠ none := by
        by_cases hstarts : StartsNoAction data (cursorOf t).index
        · exact Option.isSome_iff_ne_none.mp (hnoaction hstarts)
        · rw [hother hstarts]
          intro hnone
          refine hnot ⟨?_, hstarts⟩
          rw [cursorOf, hnone]
          rfl
      have hfailed := atomic_failed h hrun
      rw [process_header hkept] at hfailed
      exact hfailed rfl

/-- For every log and every sequence of calls: parsing is atomic and idempotent
exactly when the walk over the log ends with a spec-ID record behind it or
before the first record, or breaks off with no EV_NO_ACTION record met. -/
theorem process_atomic_iff (sha384 : Bytes → Bytes) (data : Bytes) (base logLength : Nat) :
    Atomic sha384 data base logLength ↔ Settled data logLength :=
  ⟨settled_of_atomic, atomic_of_settled⟩

/-- A spec-ID record without algorithms, and the first half of a record. -/
def cutLog : Bytes :=
  leBytes 4 1 ++ leBytes 4 EV_NO_ACTION ++ List.replicate 48 0 ++ leBytes 4 0 ++ [0] ++
    leBytes 4 1 ++ leBytes 4 8

/-- The first call fails on the cut record, the second one succeeds without it. -/
theorem cutLog_retried :
    (process (.content cutLog) (init 0 100)).1 = .raised .assertionError ∧
      (replay id (.content cutLog) (process (.content cutLog) (init 0 100)).2).1 = .ok () ∧
      ¬ Atomic id cutLog 0 100 := by
  have hfailed : (process (.content cutLog) (init 0 100)).1 = .raised .assertionError := by
    decide +kernel
  have hagain : (replay id (.content cutLog) (process (.content cutLog) (init 0 100)).2).1 = .ok () := by
    decide +kernel
  refine ⟨hfailed, hagain, fun h => ?_⟩
  exact (h [] .process [] .replay).1 _ _ (Prod.ext hfailed rfl) hagain

end TdxTools.Attestation.ProcessHistory
