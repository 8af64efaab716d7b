/-
What a test result says about the failures of the test.

* `perform_of_finished`: a finished test hears no call any more.
* `Sound`: the failure counter counts the failure records, and the end of the test has been announced
  once when the test has finished and not before. Every call keeps it (`sound_perform`).
* `Explained`: a successful status means that no failure was recorded, or that the test was expected to
  fail. Of all calls only a skip of a test with a recorded failure breaks it (`explained_perform`,
  `not_explained_of_skip`).
* `recorded_failures_shown_iff`: in a run with fewer failures than the counter can count, every state is
  sound and explained and nothing changes after the end if and only if no skip arrives after a failure.
-/

import Cpptb.Testing.RunState

namespace Cpptb.Testing

/-! ### Finished tests -/

/-- What the sinks and the readers of a result see of two states is the same. -/
structure SameVerdict (s t : TestRunState) : Prop where
  result : t.result = s.result
  notifications : t.notifications = s.notifications
  hasSink : t.hasSink = s.hasSink
  expectedFailure : t.expectedFailure = s.expectedFailure

theorem SameVerdict.refl (s : TestRunState) : SameVerdict s s := ⟨rfl, rfl, rfl, rfl⟩

theorem SameVerdict.trans {s t u : TestRunState} (first : SameVerdict s t)
    (second : SameVerdict t u) : SameVerdict s u :=
  ⟨second.result.trans first.result, second.notifications.trans first.notifications,
    second.hasSink.trans first.hasSink, second.expectedFailure.trans first.expectedFailure⟩

/-- A finished test hears no call. -/
theorem perform_of_finished {s : TestRunState} (finished : s.result.finished = true) (call : Call) :
    SameVerdict s (call.perform s) := by
  have ended (m : Moment) (requested : TestStatus) (released : TestRunState → TestRunState) :
      s.finish m requested released = s := if_pos finished
  have excepted (m : Moment) (message : String) (location : Coro.SourceLocation)
      (released : TestRunState → TestRunState) :
      s.recordException m message location released = s := if_pos finished
  have skipped (m : Moment) (reason : String) (released : TestRunState → TestRunState) :
      s.recordSkip m reason released = s := if_pos finished
  have timed (m : Moment) (timeout : Nat) (location : Coro.SourceLocation)
      (released : TestRunState → TestRunState) :
      s.recordTimeout m timeout location released = s := if_pos finished
  have silent (level : LogLevel) : s.logEnabled level = false := by
    simp [TestRunState.logEnabled, finished]
  cases call with
  | captureTimeoutWaitGraph graph => exact ⟨rfl, rfl, rfl, rfl⟩
  | finishOwnedProcess m completion cancelled here released =>
      have same : (Call.finishOwnedProcess m completion cancelled here released).perform s = s := by
        cases cancelled <;> cases completion <;>
          simp [Call.perform, TestRunState.finishOwnedProcess, ended, excepted, skipped]
      rw [same]
      exact .refl s
  | rootEnded m completion timedOut declaration released =>
      have same : (Call.rootEnded m completion timedOut declaration released).perform s = s := by
        cases timedOut <;> cases completion <;>
          simp [Call.perform, TestRunState.rootEnded, ended, excepted, skipped, timed]
      rw [same]
      exact .refl s
  | _ =>
      simp only [Call.perform, TestRunState.recordCheck, TestRunState.recordFailure,
        TestRunState.recordWarning, TestRunState.recordSimLog, silent, ended, excepted, skipped,
        timed, finished, if_true]
      exact .refl s

theorem performAll_of_finished {s : TestRunState} (finished : s.result.finished = true)
    (calls : List Call) : SameVerdict s (performAll calls s) := by
  induction calls generalizing s with
  | nil => exact .refl s
  | cons call rest ih =>
      have same := perform_of_finished finished call
      exact same.trans (ih (by rw [same.result]; exact finished))

theorem performAll_append (before after : List Call) (s : TestRunState) :
    performAll (before ++ after) s = performAll after (performAll before s) := by
  induction before generalizing s with
  | nil => rfl
  | cons call rest ih => exact ih (call.perform s)

/-! ### Soundness -/

/-- How often the end of the test has been announced. -/
def TestRunState.announcements (s : TestRunState) : Nat := s.notifications.countP (·.isFinished)

/-- The counter counts the records, and the end of the test is announced once, when it comes. -/
structure Sound (s : TestRunState) : Prop where
  counted : s.result.failures = s.result.failureRecords.length % 4294967296
  announced : s.announcements = if s.hasSink ∧ s.result.finished then 1 else 0

/-- A successful status means that no failure was recorded, or that the test was expected to fail. -/
def Explained (s : TestRunState) : Prop :=
  s.result.finished = true → testStatusSuccessful s.result.status = true →
    s.result.failureRecords = [] ∨
      (s.expectedFailure = true ∧ s.result.status = .expectedFailure)

/-- What cancelling the processes of a finished test does to the state. -/
def Quiet (cancelOwnedProcesses : TestRunState → TestRunState) : Prop :=
  ∀ s, s.result.finished = true → SameVerdict s (cancelOwnedProcesses s)

theorem quiet_performAll (calls : List Call) : Quiet (performAll calls) :=
  fun _ finished => performAll_of_finished finished calls

section

variable {s : TestRunState} {m : Moment} {cancel : TestRunState → TestRunState}

@[simp] theorem result_notify (s : TestRunState) (n : Notification) :
    (s.notify n).result = s.result := by
  unfold TestRunState.notify
  split <;> rfl

@[simp] theorem hasSink_notify (s : TestRunState) (n : Notification) :
    (s.notify n).hasSink = s.hasSink := by
  unfold TestRunState.notify
  split <;> rfl

@[simp] theorem expectedFailure_notify (s : TestRunState) (n : Notification) :
    (s.notify n).expectedFailure = s.expectedFailure := by
  unfold TestRunState.notify
  split <;> rfl

theorem announcements_notify (s : TestRunState) (n : Notification) :
    (s.notify n).announcements =
      s.announcements + if s.hasSink ∧ n.isFinished then 1 else 0 := by
  unfold TestRunState.notify TestRunState.announcements
  by_cases sink : s.hasSink = true
  · cases ending : n.isFinished <;> simp [sink, ending, List.countP_append]
  · simp [sink]

/-- One more failure, counted and recorded. -/
structure Failed (s t : TestRunState) (status : TestStatus) : Prop where
  records : ∃ record, t.result.failureRecords = s.result.failureRecords ++ [record]
  failures : t.result.failures = (s.result.failures + 1) % 4294967296
  status : t.result.status = status
  finished : t.result.finished = s.result.finished
  announcements : t.announcements = s.announcements
  hasSink : t.hasSink = s.hasSink
  expectedFailure : t.expectedFailure = s.expectedFailure

theorem failed_storeFailure (s : TestRunState) (status : TestStatus) (record : FailureRecord) :
    Failed s (s.storeFailure status record) status where
  records := ⟨record, by simp [TestRunState.storeFailure]⟩
  failures := by simp [TestRunState.storeFailure]
  status := by simp [TestRunState.storeFailure]
  finished := by simp [TestRunState.storeFailure]
  announcements := by
    unfold TestRunState.storeFailure
    rw [announcements_notify]
    simp [Notification.isFinished, TestRunState.announcements]
  hasSink := by simp [TestRunState.storeFailure]
  expectedFailure := by simp [TestRunState.storeFailure]

theorem Failed.sound {t : TestRunState} {status : TestStatus} (failed : Failed s t status)
    (sound : Sound s) : Sound t where
  counted := by
    obtain ⟨record, records⟩ := failed.records
    rw [failed.failures, records, sound.counted, List.length_append, List.length_singleton]
    omega
  announced := by
    rw [failed.announcements, failed.hasSink, failed.finished]
    exact sound.announced

theorem failed_recordFailure (running : s.result.finished = false) (record : FailureRecord) :
    Failed s (s.recordFailure m record) .failed := by
  unfold TestRunState.recordFailure
  rw [if_neg (by rw [running]; exact Bool.false_ne_true)]
  exact failed_storeFailure s .failed _

/-- What deciding the status leaves, and when it decides for a successful one. -/
structure Decided (s : TestRunState) (requested : TestStatus) (t : TestRunState) (status : TestStatus) :
    Prop where
  sound : Sound s → Sound t
  running : t.result.finished = false
  announcements : t.announcements = s.announcements
  hasSink : t.hasSink = s.hasSink
  expectedFailure : t.expectedFailure = s.expectedFailure
  successful : testStatusSuccessful status = true →
    (status = .passed ∧ t.result.failures = 0) ∨
      (status = .expectedFailure ∧ s.expectedFailure = true) ∨
      (status = requested ∧ requested ≠ .passed)

/-- The reason of a status is no part of what is proved here. -/
theorem sound_reason (sound : Sound s) (reason : String) :
    Sound { s with result := { s.result with statusReason := reason } } :=
  ⟨sound.counted, sound.announced⟩

theorem decided_decideStatus (running : s.result.finished = false) (requested : TestStatus) :
    Decided s requested (s.decideStatus m requested).1 (s.decideStatus m requested).2 := by
  unfold TestRunState.decideStatus
  by_cases expected : (requested = .passed ∨ requested = .failed) ∧ s.expectedFailure = true
  · rw [if_pos expected]
    by_cases clean : s.result.failures = 0
    · -- nothing failed: the unexpected pass is itself recorded as a failure
      rw [if_neg (not_not.mpr clean)]
      have failed := failed_recordFailure (m := m) running
        { kind := .unexpectedPass
          label := TestRunState.unexpectedPassLabel s.expectedFailureReason }
      exact
        { sound := fun sound => sound_reason (failed.sound sound) _
          running := failed.finished.trans running
          announcements := failed.announcements
          hasSink := failed.hasSink
          expectedFailure := failed.expectedFailure
          successful := fun success => absurd (show false = true from success) Bool.false_ne_true }
    · rw [if_pos clean]
      exact
        { sound := fun sound => sound_reason sound _
          running := running
          announcements := rfl
          hasSink := rfl
          expectedFailure := rfl
          successful := fun _ => .inr (.inl ⟨rfl, expected.2⟩) }
  · rw [if_neg expected]
    by_cases failures : requested = .passed ∧ s.result.failures ≠ 0
    · rw [if_pos failures]
      refine ⟨id, running, rfl, rfl, rfl, fun success => ?_⟩
      by_cases erred : s.result.status = .error
      · simp [testStatusSuccessful, erred] at success
      · simp [testStatusSuccessful, erred] at success
    · rw [if_neg failures]
      refine ⟨id, running, rfl, rfl, rfl, fun _ => ?_⟩
      by_cases passed : requested = .passed
      · exact .inl ⟨passed, by_contra fun nonzero => failures ⟨passed, nonzero⟩⟩
      · exact .inr (.inr ⟨rfl, passed⟩)

/-- What closing a test leaves of its result and announces. -/
structure Closed (s : TestRunState) (status : TestStatus) (t : TestRunState) : Prop where
  failures : t.result.failures = s.result.failures
  records : t.result.failureRecords = s.result.failureRecords
  status : t.result.status = status
  finished : t.result.finished = true
  announcements : t.announcements = s.announcements + if s.hasSink then 1 else 0
  hasSink : t.hasSink = s.hasSink
  expectedFailure : t.expectedFailure = s.expectedFailure

theorem closed_close (s : TestRunState) (m : Moment) (status : TestStatus) (quiet : Quiet cancel) :
    Closed s status (s.close m status cancel) := by
  have same := quiet (s.markFinished m status) rfl
  unfold TestRunState.close
  refine ⟨?_, ?_, ?_, ?_, ?_, ?_, ?_⟩
  · rw [result_notify, same.result]; rfl
  · rw [result_notify, same.result]; rfl
  · rw [result_notify, same.result]; rfl
  · rw [result_notify, same.result]; rfl
  · rw [announcements_notify, same.hasSink]
    unfold TestRunState.announcements
    rw [same.notifications]
    simp [Notification.isFinished, TestRunState.markFinished]
  · rw [hasSink_notify, same.hasSink]; rfl
  · rw [expectedFailure_notify, same.expectedFailure]; rfl

theorem Closed.sound {t : TestRunState} {status : TestStatus} (closed : Closed s status t)
    (running : s.result.finished = false) (sound : Sound s) : Sound t where
  counted := by rw [closed.failures, closed.records, sound.counted]
  announced := by
    rw [closed.announcements, sound.announced, closed.hasSink, closed.finished, running]
    simp

/-- The statuses that hide failures when they are asked for: nothing but a skip asks for them. -/
def TestStatus.plain (requested : TestStatus) : Prop :=
  testStatusSuccessful requested = true → requested = .passed

theorem finish_of_running (running : s.result.finished = false) (requested : TestStatus) :
    s.finish m requested cancel =
      (s.decideStatus m requested).1.close m (s.decideStatus m requested).2 cancel :=
  if_neg (by rw [running]; exact Bool.false_ne_true)

/-- A finished test is sound, and explained unless a successful status was asked for as such. -/
theorem finish_spec (running : s.result.finished = false) (requested : TestStatus)
    (quiet : Quiet cancel) (sound : Sound s) :
    Sound (s.finish m requested cancel) ∧
      (requested.plain →
        (s.finish m requested cancel).result.failureRecords.length < 4294967296 →
        Explained (s.finish m requested cancel)) := by
  have decided := decided_decideStatus (m := m) running requested
  rw [finish_of_running running]
  generalize (s.decideStatus m requested).1 = t at decided ⊢
  generalize (s.decideStatus m requested).2 = status at decided ⊢
  have closed := closed_close t m status quiet
  refine ⟨closed.sound decided.running (decided.sound sound), fun plain few _ success => ?_⟩
  rw [closed.status] at success
  rcases decided.successful success with ⟨-, none⟩ | ⟨expected, marked⟩ | ⟨asked, notPassed⟩
  · left
    have counted := (decided.sound sound).counted
    rw [closed.records] at few ⊢
    rw [none, Nat.mod_eq_of_lt few] at counted
    exact List.length_eq_zero_iff.mp counted.symm
  · exact .inr ⟨by rw [closed.expectedFailure, decided.expectedFailure, marked],
      closed.status.trans expected⟩
  · exact absurd (plain (asked ▸ success)) notPassed

/-- A skip of a running test ends in `Skipped` with the failures it had. -/
theorem skipped_recordSkip (running : s.result.finished = false) (reason : String)
    (quiet : Quiet cancel) :
    Closed { s with result := { s.result with statusReason := reason } } .skipped
      (s.recordSkip m reason cancel) := by
  unfold TestRunState.recordSkip
  rw [if_neg (by rw [running]; exact Bool.false_ne_true)]
  unfold TestRunState.finish
  rw [if_neg (by rw [running]; exact Bool.false_ne_true)]
  exact closed_close _ m .skipped quiet

/-! ### One call -/

/-- What a call does to a running test: it keeps it sound, explains its status unless it skips the
test, and a skip keeps the failures. -/
structure Heard (s : TestRunState) (skips : Bool) (t : TestRunState) : Prop where
  sound : Sound t
  explained : skips = false → t.result.failureRecords.length < 4294967296 → Explained t
  skipped : skips = true → t.result.finished = true ∧ t.result.status = .skipped ∧
    t.result.failureRecords = s.result.failureRecords

/-- A call that leaves the test running. -/
theorem heard_of_running {t : TestRunState} (sound : Sound t) (running : t.result.finished = false) :
    Heard s false t where
  sound := sound
  explained := fun _ _ finished => absurd (running.symm.trans finished) Bool.false_ne_true
  skipped := fun skips => absurd skips Bool.false_ne_true

/-- A call that asks for a status other than a skip. -/
theorem heard_finish {t : TestRunState} (running : t.result.finished = false) (sound : Sound t)
    (requested : TestStatus) (plain : requested.plain) (quiet : Quiet cancel) :
    Heard s false (t.finish m requested cancel) where
  sound := (finish_spec running requested quiet sound).1
  explained := fun _ few => (finish_spec running requested quiet sound).2 plain few
  skipped := fun skips => absurd skips Bool.false_ne_true

theorem heard_recordException (running : s.result.finished = false) (sound : Sound s)
    (message : String) (location : Coro.SourceLocation) (quiet : Quiet cancel) :
    Heard s false (s.recordException m message location cancel) := by
  unfold TestRunState.recordException
  rw [if_neg (by rw [running]; exact Bool.false_ne_true)]
  have failed := failed_storeFailure s .error (s.attachCurrentProcess m
    { kind := .exception
      label := message
      sourceFile := location.file
      sourceLine := location.line
      simulationTimeFs := m.now })
  exact heard_finish (failed.finished.trans running) (failed.sound sound) .error
    (fun success => nomatch success) quiet

theorem heard_recordSimLogException (running : s.result.finished = false) (sound : Sound s)
    (error : String) (message : SimLogMessage) (quiet : Quiet cancel) :
    Heard s false (s.recordSimLogException m error message cancel) := by
  unfold TestRunState.recordSimLogException
  rw [if_neg (by rw [running]; exact Bool.false_ne_true)]
  have failed := failed_storeFailure s .error
    { kind := .exception
      label := error
      sourceFile := message.sourceFile
      sourceLine := message.sourceLine
      simulationTimeFs := message.simulationTimeFs }
  exact heard_finish (failed.finished.trans running) (failed.sound sound) .error
    (fun success => nomatch success) quiet

theorem heard_recordTimeout (running : s.result.finished = false) (sound : Sound s) (timeout : Nat)
    (location : Coro.SourceLocation) (quiet : Quiet cancel) :
    Heard s false (s.recordTimeout m timeout location cancel) := by
  unfold TestRunState.recordTimeout
  rw [if_neg (by rw [running]; exact Bool.false_ne_true)]
  have failed := failed_recordFailure (m := m)
    (s := { s with
      result := { s.result with
        statusReason := TestRunState.timeoutReason timeout s.pendingTimeoutGraph
        waitGraph := s.pendingTimeoutGraph.or s.result.waitGraph } }) running
    { kind := .timeout
      label := TestRunState.timeoutReason timeout s.pendingTimeoutGraph
      sourceFile := location.file
      sourceLine := location.line }
  exact heard_finish (failed.finished.trans running)
    (failed.sound ⟨sound.counted, sound.announced⟩) .timedOut (fun success => nomatch success) quiet

theorem heard_recordSkip (running : s.result.finished = false) (sound : Sound s) (reason : String)
    (quiet : Quiet cancel) : Heard s true (s.recordSkip m reason cancel) := by
  have closed := skipped_recordSkip (m := m) running reason quiet
  exact
    { sound := closed.sound running (sound_reason sound reason)
      explained := fun skips => nomatch skips
      skipped := fun _ => ⟨closed.finished, closed.status, closed.records⟩ }

end

/-- The calls that ask for a skip. -/
def Call.skips : Call → Bool
  | .recordSkip .. => true
  | .finishOwnedProcess _ (.skip _ _) cancelled _ _ => !cancelled
  | .rootEnded _ (.skip _ _) none _ _ => true
  | _ => false

theorem heard_perform {s : TestRunState} (running : s.result.finished = false) (sound : Sound s)
    (call : Call) : Heard s call.skips (call.perform s) := by
  have unfinished : ¬ s.result.finished = true := by rw [running]; exact Bool.false_ne_true
  have untouched : Heard s false s := heard_of_running sound running
  cases call with
  | recordCheck =>
      have same : (Call.recordCheck.perform s) = { s with
          result := { s.result with checks := (s.result.checks + 1) % 18446744073709551616 } } :=
        if_neg unfinished
      rw [same]
      exact heard_of_running ⟨sound.counted, sound.announced⟩ running
  | recordFailure m record =>
      have failed := failed_recordFailure (m := m) running record
      exact heard_of_running (failed.sound sound) (failed.finished.trans running)
  | recordWarning m message location =>
      simp only [Call.perform, TestRunState.recordWarning, if_neg unfinished]
      refine heard_of_running ⟨?_, ?_⟩ ?_
      · rw [result_notify]
        exact sound.counted
      · rw [announcements_notify, result_notify, hasSink_notify]
        simpa [Notification.isFinished, TestRunState.announcements] using sound.announced
      · rw [result_notify]
        exact running
  | captureTimeoutWaitGraph graph => exact heard_of_running ⟨sound.counted, sound.announced⟩ running
  | recordSimLog m message thrown released =>
      simp only [Call.perform, TestRunState.recordSimLog]
      split
      · exact untouched
      · cases thrown with
        | none => exact untouched
        | some error =>
            exact heard_recordSimLogException running sound error message
              (quiet_performAll released)
  | recordException m message location released =>
      exact heard_recordException running sound message location (quiet_performAll released)
  | recordSkip m reason released =>
      exact heard_recordSkip running sound reason (quiet_performAll released)
  | recordTimeout m timeout location released =>
      exact heard_recordTimeout running sound timeout location (quiet_performAll released)
  | finish m passed released =>
      refine heard_finish running sound _ ?_ (quiet_performAll released)
      cases passed with
      | true => exact fun _ => rfl
      | false => exact fun success => nomatch success
  | finishOwnedProcess m completion cancelled here released =>
      cases cancelled with
      | true => cases completion <;> exact untouched
      | false =>
          cases completion with
          | returned => exact untouched
          | abort =>
              exact heard_finish running sound .failed (fun success => nomatch success)
                (quiet_performAll released)
          | skip reason location =>
              exact heard_recordSkip running sound reason (quiet_performAll released)
          | error what =>
              exact heard_recordException running sound what here (quiet_performAll released)
          | unknown =>
              exact heard_recordException running sound _ here (quiet_performAll released)
  | rootEnded m completion timedOut declaration released =>
      cases timedOut with
      | some timeout =>
          have heard := heard_recordTimeout (m := m) running sound timeout declaration
            (quiet_performAll released)
          cases completion <;> exact heard
      | none =>
          cases completion with
          | returned =>
              exact heard_finish running sound .passed (fun _ => rfl) (quiet_performAll released)
          | abort =>
              exact heard_finish running sound .failed (fun success => nomatch success)
                (quiet_performAll released)
          | skip reason location =>
              exact heard_recordSkip running sound reason (quiet_performAll released)
          | error what =>
              exact heard_recordException running sound what declaration (quiet_performAll released)
          | unknown =>
              exact heard_recordException running sound _ declaration (quiet_performAll released)

/-! ### Runs -/

theorem SameVerdict.sound {s t : TestRunState} (same : SameVerdict s t) (sound : Sound s) :
    Sound t where
  counted := by rw [same.result]; exact sound.counted
  announced := by
    unfold TestRunState.announcements
    rw [same.notifications, same.hasSink, same.result]
    exact sound.announced

theorem SameVerdict.explained {s t : TestRunState} (same : SameVerdict s t)
    (explained : Explained s) : Explained t := by
  unfold Explained
  rw [same.result, same.expectedFailure]
  exact explained

theorem sound_perform {s : TestRunState} (sound : Sound s) (call : Call) : Sound (call.perform s) := by
  rcases Bool.eq_false_or_eq_true s.result.finished with finished | running
  · exact (perform_of_finished finished call).sound sound
  · exact (heard_perform running sound call).sound

theorem sound_performAll {s : TestRunState} (sound : Sound s) (calls : List Call) :
    Sound (performAll calls s) := by
  induction calls generalizing s with
  | nil => exact sound
  | cons call rest ih => exact ih (sound_perform sound call)

/-- A call explains the status it leaves, unless it skips a running test that has failures. -/
theorem explained_perform {s : TestRunState} (sound : Sound s) (explained : Explained s) (call : Call)
    (unhidden : s.result.finished = false → call.skips = true → s.result.failureRecords = [])
    (few : (call.perform s).result.failureRecords.length < 4294967296) :
    Explained (call.perform s) := by
  rcases Bool.eq_false_or_eq_true s.result.finished with finished | running
  · exact (perform_of_finished finished call).explained explained
  · have heard := heard_perform running sound call
    rcases Bool.eq_false_or_eq_true call.skips with skips | plain
    · exact fun _ _ => .inl ((heard.skipped skips).2.2.trans (unhidden running skips))
    · exact heard.explained plain few

/-- A skip of a running test with failures leaves a successful status that hides them. -/
theorem not_explained_of_skip {s : TestRunState} (sound : Sound s)
    (running : s.result.finished = false) {call : Call} (skips : call.skips = true)
    (failures : s.result.failureRecords ≠ []) : ¬ Explained (call.perform s) := by
  obtain ⟨finished, status, records⟩ := (heard_perform running sound call).skipped skips
  intro explained
  rcases explained finished (by rw [status]; rfl) with none | ⟨-, expected⟩
  · exact failures (records.symm.trans none)
  · rw [status] at expected
    exact nomatch expected

theorem announcements_state (start : Start) (address : Nat) (hasSink : Bool) (level : LogLevel) :
    (start.state address hasSink level).announcements = 0 := by
  cases start with
  | constructed => rfl
  | selected result m name metadata randomSeed => cases hasSink <;> rfl

theorem sound_state (start : Start) (address : Nat) (hasSink : Bool) (level : LogLevel) :
    Sound (start.state address hasSink level) := by
  have silent := announcements_state start address hasSink level
  cases start with
  | constructed => exact ⟨rfl, by rw [silent]; simp [Start.state]⟩
  | selected result m name metadata randomSeed =>
      refine ⟨?_, ?_⟩
      · simp [Start.state, TestRunState.start]
      · rw [silent]
        simp [Start.state, TestRunState.start]

theorem running_state (start : Start) (address : Nat) (hasSink : Bool) (level : LogLevel) :
    (start.state address hasSink level).result.finished = false := by
  cases start with
  | constructed => rfl
  | selected result m name metadata randomSeed => simp [Start.state, TestRunState.start]

/-- What a test result says about failures: the counter is the number of records, the end is announced
once, and a success hides nothing. -/
structure Shown (s : TestRunState) : Prop where
  counted : s.result.failures = s.result.failureRecords.length
  announced : s.announcements = if s.hasSink ∧ s.result.finished then 1 else 0
  explained : Explained s

theorem few_of_counted {s : TestRunState} (sound : Sound s)
    (counted : s.result.failures = s.result.failureRecords.length) :
    s.result.failureRecords.length < 4294967296 := by
  rw [← counted, sound.counted]
  exact Nat.mod_lt _ (by decide)

/-- In every run, every state shows the failures recorded so far and nothing changes after the end if
and only if no skip reaches a running test with a recorded failure, and the failures stay within the
range of their counter. -/
theorem recorded_failures_shown_iff (start : Start) (address : Nat) (hasSink : Bool)
    (level : LogLevel) (calls : List Call) :
    (∀ before, before <+: calls →
      Shown (performAll before (start.state address hasSink level)) ∧
        ((performAll before (start.state address hasSink level)).result.finished = true →
          SameVerdict (performAll before (start.state address hasSink level))
            (performAll calls (start.state address hasSink level)))) ↔
    (∀ before call, before ++ [call] <+: calls → call.skips = true →
      (performAll before (start.state address hasSink level)).result.finished = false →
        (performAll before (start.state address hasSink level)).result.failureRecords = []) ∧
      ∀ before, before <+: calls →
        (performAll before (start.state address hasSink level)).result.failureRecords.length <
          4294967296 := by
  have soundAt (before : List Call) : Sound (performAll before (start.state address hasSink level)) :=
    sound_performAll (sound_state start address hasSink level) before
  constructor
  · intro shown
    refine ⟨fun before call isPrefix skips running => ?_, fun before isPrefix => ?_⟩
    · by_contra failures
      have explained := (shown _ isPrefix).1.explained
      rw [performAll_append] at explained
      exact not_explained_of_skip (soundAt before) running skips failures explained
    · exact few_of_counted (soundAt before) (shown before isPrefix).1.counted
  · rintro ⟨unhidden, few⟩ before isPrefix
    refine ⟨⟨?_, (soundAt before).announced, ?_⟩, fun finished => ?_⟩
    · rw [(soundAt before).counted, Nat.mod_eq_of_lt (few before isPrefix)]
    · -- the status stays explained from call to call
      induction before using List.reverseRecOn with
      | nil =>
          intro finished
          rw [performAll, running_state] at finished
          cases finished
      | append_singleton before call ih =>
          have shorter : before <+: calls := (List.prefix_append before [call]).trans isPrefix
          have bounded := few _ isPrefix
          rw [performAll_append] at bounded ⊢
          exact explained_perform (soundAt before) (ih shorter) call
            (fun running skips => unhidden before call isPrefix skips running) bounded
    · obtain ⟨after, rfl⟩ := isPrefix
      rw [performAll_append]
      exact performAll_of_finished finished after

/-- A failed expectation, and then a skip by the root process. -/
theorem skip_hides_failure :
    ¬ ∀ (start : Start) (address : Nat) (hasSink : Bool) (level : LogLevel) (calls before : List Call),
      before <+: calls →
        Shown (performAll before (start.state address hasSink level)) ∧
          ((performAll before (start.state address hasSink level)).result.finished = true →
            SameVerdict (performAll before (start.state address hasSink level))
              (performAll calls (start.state address hasSink level))) := by
  intro shown
  have explained := (shown (.selected {} {} "smoke" {} 1) 1 true .info
    [.recordCheck, .recordFailure {} (booleanFailure .expectation "ready" ⟨"smoke.cpp", 12⟩),
      .rootEnded {} (.skip "no optional feature" ⟨"smoke.cpp", 13⟩) none ⟨"smoke.cpp", 9⟩ []] _
    List.prefix_rfl).1.explained
  have hidden := explained (by decide) (by decide)
  revert hidden
  decide

end Cpptb.Testing
