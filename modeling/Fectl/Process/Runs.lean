import Fectl.Process.Life
import Fectl.Process.Moves

/-!
# Every run of a supervisor

`view` is a supervisor's lifecycle; `view_step` shows that every event either leaves it as it is
or takes one `Life.Step`, so the lifecycle invariant holds of every supervisor `Process::start`
creates, after any events in any order (`good_run`). From it:

* `reports_discipline`, `reports_by_state`: what a supervisor reports of its lifecycle to its
  service, over any run;
* `watchdogs_armed`: the watchdog timers it holds in each state, over any run;
* `state_only_forward`: its state moves only forward (`step_state`, `run_rank`), and only on the
  events the handlers name.
-/

namespace Fectl.Process

/-- How many of the timers `ts` deliver `k`. -/
def armed (ts : List Timeout) (k : TimerMsg) : Nat := ts.countP fun t => t.msg = k

@[simp] theorem armed_append_single (ts : List Timeout) (t : Timeout) (k : TimerMsg) :
    armed (ts ++ [t]) k = armed ts k + if t.msg = k then 1 else 0 := by
  simp only [armed, List.countP_append, List.countP_cons, List.countP_nil]
  split <;> simp_all

theorem armed_erase {ts : List Timeout} {t : Timeout} (h : t ∈ ts) (k : TimerMsg) :
    armed (ts.erase t) k = armed ts k - if t.msg = k then 1 else 0 := by
  have := (List.perm_cons_erase h).countP_eq fun t => decide (t.msg = k)
  simp only [armed, this, List.countP_cons]
  split <;> simp_all

theorem armed_pos {ts : List Timeout} {t : Timeout} (h : t ∈ ts) : 0 < armed ts t.msg :=
  List.countP_pos_iff.mpr ⟨t, h, by simp⟩

@[simp] theorem reports_append_single (log : List ServiceMessage) (m : ServiceMessage) :
    reports (log ++ [m]) = reports log ++ (reportOf m).toList := by
  cases h : reportOf m <;> simp [reports, List.filterMap_append, h]

/-- The lifecycle of a supervisor. -/
def view (s : Sup) : Life :=
  ⟨s.proc.state, s.alive, reports s.log, armed s.timers .StartupTimeout,
    armed s.timers .Heartbeat, armed s.timers .StopTimeout⟩

theorem view_createFramed (idx : Nat) (cfg : ServiceConfig) (pid : Int) (now : Nat) :
    view (createFramed idx cfg pid now) = Life.init := rfl

/-! ## Each handler takes a lifecycle step, or none -/

variable {s : Sup}

theorem view_frame (ha : s.alive) (m : WorkerMessage) :
    view (deliver (.frame m) s) = view s ∨ Life.Step (view s) (view (deliver (.frame m) s)) := by
  cases m with
  | loaded =>
    cases hst : s.proc.state
    case Starting =>
      have e : view (deliver (.frame .loaded) s) = { view s with
          state := .Running, reports := (view s).reports ++ [.loaded],
          heartbeat := (view s).heartbeat + 1 } := by
        simp [deliver, handle, hst, view, reportOf]
      exact .inr (e ▸ .loaded ha hst)
    all_goals exact .inl (by simp [deliver, handle, hst])
  | cfgerror msg => exact .inl (by simp [deliver, handle, view, reportOf])
  | reload | restart => exact .inl (by simp [deliver, handle, view, reportOf])
  | forked | hb => exact .inl rfl

theorem view_kill (ha : s.alive) : Life.Step (view s) (view (kill s false)) := by
  have e : view (kill s false) = { view s with alive := false } := by simp [kill, view]
  exact e ▸ .quit ha

theorem view_fire (ha : s.alive) (t : Timeout) :
    view (deliver (.fire t) s) = view s ∨ Life.Step (view s) (view (deliver (.fire t) s)) := by
  by_cases ht : t ∈ s.timers
  swap
  · exact .inl (by simp [deliver, ht])
  have hp := armed_pos ht
  cases hm : t.msg with
  | Kill =>
    have e : view (deliver (.fire t) s) = { view s with alive := false } := by
      simp [deliver, ht, hm, TimerMsg.toMessage, handle, view, armed_erase ht]
    exact .inr (e ▸ .quit ha)
  | StartupTimeout =>
    rw [hm] at hp
    by_cases hst : s.proc.state = .Starting
    · have e : view (deliver (.fire t) s) = { view s with
          state := .Failed, alive := false, reports := (view s).reports ++ [.startupTimeout],
          startup := (view s).startup - 1 } := by
        simp [deliver, ht, hm, TimerMsg.toMessage, handle, hst, view, armed_erase ht, reportOf]
      exact .inr (e ▸ .startupTimeout ha hst hp)
    · have e : view (deliver (.fire t) s) = { view s with startup := (view s).startup - 1 } := by
        cases h : s.proc.state <;> simp_all [deliver, TimerMsg.toMessage, handle, view,
          armed_erase ht]
      exact .inr (e ▸ .startupStale ha hst hp)
  | StopTimeout =>
    rw [hm] at hp
    by_cases hst : s.proc.state = .Stopping
    · have e : view (deliver (.fire t) s) = { view s with
          state := .Failed, alive := false, reports := (view s).reports ++ [.stopTimeout],
          stop := (view s).stop - 1 } := by
        simp [deliver, ht, hm, TimerMsg.toMessage, handle, hst, view, armed_erase ht, reportOf]
      exact .inr (e ▸ .stopTimeout ha hst hp)
    · have e : view (deliver (.fire t) s) = { view s with stop := (view s).stop - 1 } := by
        cases h : s.proc.state <;> simp_all [deliver, TimerMsg.toMessage, handle, view,
          armed_erase ht]
      exact .inr (e ▸ .stopStale ha hst hp)
  | Heartbeat =>
    rw [hm] at hp
    by_cases hst : s.proc.state = .Running
    · by_cases hto : s.now - s.proc.hb > s.proc.timeout
      · have e : view (deliver (.fire t) s) = { view s with
            reports := (view s).reports ++ [.heartbeat], heartbeat := (view s).heartbeat - 1 } := by
          simp [deliver, ht, hm, TimerMsg.toMessage, handle, hst, hto, view, armed_erase ht,
            reportOf]
        exact .inr (e ▸ .heartbeatFailed ha hst hp)
      · refine .inl ?_
        simp [deliver, ht, hm, TimerMsg.toMessage, handle, hst, hto, view, armed_erase ht]
        omega
    · have e : view (deliver (.fire t) s) = { view s with heartbeat := (view s).heartbeat - 1 } := by
        cases h : s.proc.state <;> simp_all [deliver, TimerMsg.toMessage, handle, view,
          armed_erase ht]
      exact .inr (e ▸ .heartbeatStale ha hst hp)

theorem view_stopProcess (ha : s.alive) (ok : Bool) :
    Life.Step (view s) (view (deliver (.stopProcess ok) s)) := by
  by_cases hst : s.proc.state = .Running
  · cases ok
    · have e : view (deliver (.stopProcess false) s) = { view s with
          state := .Stopping, alive := false } := by
        simp [deliver, handleStopProcess, hst, view]
      exact e ▸ .stopUntimed ha hst
    · have e : view (deliver (.stopProcess true) s) = { view s with
          state := .Stopping, stop := (view s).stop + 1 } := by
        simp [deliver, handleStopProcess, hst, view]
      exact e ▸ .stopRunning ha hst
  · have e : view (deliver (.stopProcess ok) s) = { view s with alive := false } := by
      cases h : s.proc.state <;> simp_all [deliver, handleStopProcess, view]
    exact e ▸ .quit ha

theorem view_quitProcess (ha : s.alive) (graceful : Bool) :
    view (deliver (.quitProcess graceful) s) = view s ∨
      Life.Step (view s) (view (deliver (.quitProcess graceful) s)) := by
  cases graceful
  · have e : view (deliver (.quitProcess false) s) = { view s with alive := false } := by
      simp [deliver, handleQuitProcess, kill, view]
    exact .inr (e ▸ .quit ha)
  · exact .inl (by simp [deliver, handleQuitProcess, kill, view])

/-- Every event leaves a supervisor's lifecycle as it is, or takes one lifecycle step. -/
theorem view_step (e : Event) (s : Sup) :
    view (step e s) = view s ∨ Life.Step (view s) (view (step e s)) := by
  unfold step
  split
  · rename_i ha
    cases e with
    | frame m => exact view_frame ha m
    | fire t => exact view_fire ha t
    | stopProcess ok => exact .inr (view_stopProcess ha ok)
    | quitProcess graceful => exact view_quitProcess ha graceful
    | finished | error => exact .inr (view_kill ha)
    | tick _ | sendCommand _ | startProcess | pauseProcess | resumeProcess => exact .inl rfl
  · exact .inl rfl

theorem good_run_of {s₀ : Sup} (g : (view s₀).Good) (es : List Event) :
    (view (run es s₀)).Good :=
  @run_invariant (fun s => (view s).Good) (fun e s g => by
    rcases view_step e s with h | h
    · rw [h]; exact g
    · exact g.step h) es _ g

theorem good_createFramed (idx : Nat) (cfg : ServiceConfig) (pid : Int) (now : Nat) :
    (view (createFramed idx cfg pid now)).Good := by
  rw [view_createFramed]; exact Life.good_init

/-- The lifecycle invariant holds of every supervisor `Process::start` creates, after any run. -/
theorem good_run (idx : Nat) (cfg : ServiceConfig) (pid : Int) (now : Nat) (es : List Event) :
    (view (run es (createFramed idx cfg pid now))).Good :=
  good_run_of (good_createFramed idx cfg pid now) es

/-! ## The watchdog timers -/

variable {s₀ : Sup}

theorem run_shutdown_timeout (es : List Event) (s : Sup) :
    (run es s).proc.shutdown_timeout = s.proc.shutdown_timeout :=
  @run_invariant (fun s' => s'.proc.shutdown_timeout = s.proc.shutdown_timeout)
    (fun e s' h => (step_shutdown_timeout e s').trans h) es _ rfl

/-- A watchdog timer that fires in the state it watches fails the worker. -/
theorem step_fire_watchdog {s : Sup} {t : Timeout} (ha : s.alive) (ht : t ∈ s.timers)
    (h : t.msg = .StartupTimeout ∧ s.proc.state = .Starting ∨
      t.msg = .StopTimeout ∧ s.proc.state = .Stopping) :
    (step (.fire t) s).proc.state = .Failed := by
  rcases h with ⟨hm, hs⟩ | ⟨hm, hs⟩ <;> simp [step, ha, deliver, ht, hm, TimerMsg.toMessage, handle, hs]

/-- While a supervisor is `Starting`, the timer it was created with stays armed. -/
theorem startup_armed {t : Timeout} (hm : t.msg = .StartupTimeout)
    (h₀ : s₀.proc.state = .Starting → t ∈ s₀.timers) (es : List Event) :
    (run es s₀).proc.state = .Starting → t ∈ (run es s₀).timers := by
  refine @run_invariant (fun s => s.proc.state = .Starting → t ∈ s.timers)
    (fun e s h hs' => ?_) es _ h₀
  have hs : s.proc.state = .Starting := by
    rcases step_state e s with h' | ⟨-, -, h'⟩ | ⟨-, -, h'⟩ | ⟨-, -, h'⟩ | ⟨-, -, h'⟩ <;>
      simp_all
  by_cases he : e = .fire t
  · subst he
    cases ha : s.alive
    · rw [step_of_not_alive _ ha]; exact h hs
    · simp [step_fire_watchdog ha (h hs) (.inl ⟨hm, hs⟩)] at hs'
  · exact mem_timers_step e (h hs) he

/-- A running `Stopping` supervisor holds the stop timer armed when `StopProcess` was handled
in `Running`. -/
theorem stop_armed (h₀ : s₀.proc.state ≠ .Stopping) {es : List Event}
    (hs : (run es s₀).proc.state = .Stopping) (ha : (run es s₀).alive) :
    ∃ es₀ ok es₁, es = es₀ ++ .stopProcess ok :: es₁ ∧ (run es₀ s₀).proc.state = .Running ∧
      ⟨.StopTimeout, (run es₀ s₀).now + Duration.new s₀.proc.shutdown_timeout 0⟩ ∈
        (run es s₀).timers := by
  induction es using List.reverseRecOn with
  | nil => exact absurd hs h₀
  | append_singleton es e ih =>
    rw [run_concat] at hs ha ⊢
    have ha' := alive_of_step ha
    rcases step_state e (run es s₀) with h | ⟨-, -, h⟩ | ⟨hr, ⟨ok, rfl⟩, -⟩ | ⟨-, -, h⟩ | ⟨-, -, h⟩
    · obtain ⟨es₀, ok, es₁, rfl, hr, ht⟩ := ih (h ▸ hs) ha'
      refine ⟨es₀, ok, es₁ ++ [e], by simp, hr, mem_timers_step e ht fun he => ?_⟩
      subst he
      simp [step_fire_watchdog ha' ht (.inr ⟨rfl, h ▸ hs⟩)] at hs
    · simp [h] at hs
    · refine ⟨es, ok, [], by simp, hr, ?_⟩
      cases ok <;> simp_all [step, deliver, handleStopProcess, run_shutdown_timeout]
    · simp [h] at hs
    · simp [h] at hs

/-! ## What a supervisor reports -/

/-- A supervisor is `Stopping` only after a `StopProcess` it handled in `Running`. -/
theorem stopProcess_of_stopping (h₀ : s₀.proc.state ≠ .Stopping) {es : List Event}
    (hs : (run es s₀).proc.state = .Stopping) :
    ∃ es₀ ok es₁, es = es₀ ++ .stopProcess ok :: es₁ ∧ (run es₀ s₀).proc.state = .Running ∧
      (run es₀ s₀).alive := by
  induction es using List.reverseRecOn with
  | nil => exact absurd hs h₀
  | append_singleton es e ih =>
    rw [run_concat] at hs
    rcases step_state e (run es s₀) with h | ⟨-, -, h⟩ | ⟨hr, ⟨ok, rfl⟩, -⟩ | ⟨-, -, h⟩ | ⟨-, -, h⟩
    · obtain ⟨es₀, ok, es₁, rfl, hr, ha⟩ := ih (h ▸ hs)
      exact ⟨es₀, ok, es₁ ++ [e], by simp, hr, ha⟩
    · simp [h] at hs
    · refine ⟨es, ok, [], by simp, hr, ?_⟩
      cases ha : (run es s₀).alive
      · rw [step_of_not_alive _ ha, hr] at hs; cases hs
      · rfl
    · simp [h] at hs
    · simp [h] at hs

/-- A stop timeout is reported only after a `StopProcess` handled in `Running`, and not before
it was handled. -/
theorem stopTimeout_after_stopProcess (g₀ : (view s₀).Good) (h₀ : s₀.proc.state ≠ .Stopping)
    (hT₀ : .stopTimeout ∉ reports s₀.log) {es : List Event}
    (hT : .stopTimeout ∈ reports (run es s₀).log) :
    ∃ es₀ ok es₁, es = es₀ ++ .stopProcess ok :: es₁ ∧ (run es₀ s₀).proc.state = .Running ∧
      (run es₀ s₀).alive ∧ .stopTimeout ∉ reports (run (es₀ ++ [.stopProcess ok]) s₀).log := by
  induction es using List.reverseRecOn with
  | nil => exact absurd hT hT₀
  | append_singleton es e ih =>
    by_cases hTes : .stopTimeout ∈ reports (run es s₀).log
    · obtain ⟨es₀, ok, es₁, rfl, h⟩ := ih hTes
      exact ⟨es₀, ok, es₁ ++ [e], by simp, h⟩
    rw [run_concat] at hT
    have hs : (run es s₀).proc.state = .Stopping := by
      rcases view_step e (run es s₀) with h | h
      · have hT' : .stopTimeout ∈ (view (step e (run es s₀))).reports := hT
        rw [h] at hT'; exact absurd hT' hTes
      · exact h.stopping_of_stopTimeout hT hTes
    obtain ⟨es₀, ok, es₁, rfl, hr, ha⟩ := stopProcess_of_stopping h₀ hs
    refine ⟨es₀, ok, es₁ ++ [e], by simp, hr, ha, fun hT' => ?_⟩
    have hs' : (run (es₀ ++ [.stopProcess ok]) s₀).proc.state = .Stopping := by
      cases ok <;> simp [run_concat, step, ha, deliver, handleStopProcess, hr]
    rcases ((good_run_of g₀ _).stopping hs').2 with h | ⟨h, -⟩ <;> simp only [view] at h <;>
      simp [h] at hT'

/-- A timer that fires in a state other than the one it watches reports nothing. -/
theorem stale_fire_log (s : Sup) (t : Timeout)
    (h : t.msg = .StartupTimeout ∧ s.proc.state ≠ .Starting ∨
      t.msg = .Heartbeat ∧ s.proc.state ≠ .Running ∨
      t.msg = .StopTimeout ∧ s.proc.state ≠ .Stopping) :
    (step (.fire t) s).log = s.log := by
  simp only [step, deliver]
  split_ifs
  · rcases h with ⟨hm, hs⟩ | ⟨hm, hs⟩ | ⟨hm, hs⟩ <;> cases h : s.proc.state <;>
      simp_all [TimerMsg.toMessage, handle]
  all_goals rfl

theorem run_rank (s : Sup) (es : List Event) : s.proc.state.rank ≤ (run es s).proc.state.rank :=
  @run_invariant (fun s' => s.proc.state.rank ≤ s'.proc.state.rank)
    (fun e s' h => h.trans (step_rank e s')) es _ le_rfl

/-! ## Every run -/

/-- Over any run of a supervisor `Process::start` created, its reports to its service: at most
one `ProcessLoaded` and at most one `ProcessFailed(StartupTimeout)`, never both; at most one
`ProcessFailed(Heartbeat)`, after `ProcessLoaded`; at most one `ProcessFailed(StopTimeout)`, after
a `StopProcess` handled in `Running`; nothing from a stale timer; and none of these from a failed
fork. -/
theorem reports_discipline (idx : Nat) (cfg : ServiceConfig) (pid : Int) (now : Nat)
    (es : List Event) (err : String) :
    let s₀ := createFramed idx cfg pid now
    let r := reports (run es s₀).log
    r.count .loaded ≤ 1 ∧ r.count .startupTimeout ≤ 1 ∧ ¬(.loaded ∈ r ∧ .startupTimeout ∈ r) ∧
    r.count .heartbeat ≤ 1 ∧ (.heartbeat ∈ r → List.Sublist [.loaded, .heartbeat] r) ∧
    r.count .stopTimeout ≤ 1 ∧
    (.stopTimeout ∈ r → ∃ es₀ ok es₁, es = es₀ ++ .stopProcess ok :: es₁ ∧
      (run es₀ s₀).proc.state = .Running ∧ (run es₀ s₀).alive ∧
      .stopTimeout ∉ reports (run (es₀ ++ [.stopProcess ok]) s₀).log) ∧
    (∀ (s : Sup) (t : Timeout), t.msg = .StartupTimeout ∧ s.proc.state ≠ .Starting ∨
      t.msg = .Heartbeat ∧ s.proc.state ≠ .Running ∨
      t.msg = .StopTimeout ∧ s.proc.state ≠ .Stopping → (step (.fire t) s).log = s.log) ∧
    reports (start idx cfg (.error err) now).2 = [] := by
  intro s₀ r
  have key : ∀ r ∈ lifecycles, r.count .loaded ≤ 1 ∧ r.count .startupTimeout ≤ 1 ∧
      ¬(.loaded ∈ r ∧ .startupTimeout ∈ r) ∧ r.count .heartbeat ≤ 1 ∧
      (.heartbeat ∈ r → List.Sublist [.loaded, .heartbeat] r) ∧ r.count .stopTimeout ≤ 1 := by
    decide
  obtain ⟨h1, h2, h3, h4, h5, h6⟩ := key r (good_run idx cfg pid now es).reports_mem
  exact ⟨h1, h2, h3, h4, h5, h6,
    stopTimeout_after_stopProcess (good_createFramed idx cfg pid now) nofun
      (by simp [reports, createFramed]),
    stale_fire_log, rfl⟩

/-- Over any run of a supervisor `Process::start` created, its watchdog timers: at most one of
each armed; `Starting`, its startup timer armed, due when it was created plus `startup_timeout`,
and no heartbeat timer; `Stopping` while its context runs, the stop timer armed when
`StopProcess` was handled in `Running`, due then plus `shutdown_timeout`; `Running`, a heartbeat
timer armed unless a heartbeat failure was reported. A `hb` command goes down the pipe only when
an armed heartbeat timer fires, or when the service sends one. -/
theorem watchdogs_armed (idx : Nat) (cfg : ServiceConfig) (pid : Int) (now : Nat)
    (es : List Event) :
    let s₀ := createFramed idx cfg pid now
    let s := run es s₀
    armed s.timers .StartupTimeout ≤ 1 ∧ armed s.timers .Heartbeat ≤ 1 ∧
    armed s.timers .StopTimeout ≤ 1 ∧
    (s.proc.state = .Starting →
      ⟨.StartupTimeout, now + Duration.new cfg.startup_timeout 0⟩ ∈ s.timers ∧
      armed s.timers .Heartbeat = 0) ∧
    (s.proc.state = .Stopping → s.alive → ∃ es₀ ok es₁, es = es₀ ++ .stopProcess ok :: es₁ ∧
      (run es₀ s₀).proc.state = .Running ∧
      ⟨.StopTimeout, (run es₀ s₀).now + Duration.new cfg.shutdown_timeout 0⟩ ∈ s.timers) ∧
    (s.proc.state = .Running → .heartbeat ∉ reports s.log → 0 < armed s.timers .Heartbeat) ∧
    (∀ (e : Event) (s' : Sup), s'.sent.count .hb < (step e s').sent.count .hb →
      e = .sendCommand .hb ∨ ∃ t, e = .fire t ∧ t ∈ s'.timers ∧ t.msg = .Heartbeat) := by
  intro s₀ s
  have g := good_run idx cfg pid now es
  refine ⟨g.startup_le, g.heartbeat_le, g.stop_le,
    fun hs => ⟨startup_armed rfl (fun _ => List.mem_singleton_self _) es hs, (g.starting hs).2.1⟩,
    fun hs ha => stop_armed (by simp [s₀, createFramed]) hs ha, fun hs hh => ?_, step_sent_hb⟩
  rcases (g.running hs).2 with ⟨-, h⟩ | ⟨h, -⟩
  · exact Nat.lt_of_lt_of_eq Nat.one_pos h.symm
  · exact absurd (by rw [show reports s.log = _ from h]; simp) hh

/-- A `SendCommand(hb)` from the service writes `hb` down the pipe, though no timer fires. -/
theorem hb_sent_without_timer :
    let s := run [.frame .loaded] (createFramed 0 ⟨"web", 1, 10, 10, 10⟩ 7 0)
    s.sent.count .hb < (step (.sendCommand .hb) s).sent.count .hb ∧
      ∀ t, Event.sendCommand .hb ≠ .fire t :=
  ⟨by decide, nofun⟩

/-- A supervisor's state moves only forward, from `Starting` to `Running` on `loaded`, from
`Running` to `Stopping` on `StopProcess`, and to `Failed` from `Starting` on its startup timer or
from `Stopping` on its stop timer; over any run its place in that order never goes back, and
once stopped from `Running` it is never `Running` again. -/
theorem state_only_forward :
    (∀ (e : Event) (s : Sup),
      (step e s).proc.state = s.proc.state ∨
      s.proc.state = .Starting ∧ e = .frame .loaded ∧ (step e s).proc.state = .Running ∨
      s.proc.state = .Running ∧ (∃ ok, e = .stopProcess ok) ∧
        (step e s).proc.state = .Stopping ∨
      s.proc.state = .Starting ∧ (∃ t, e = .fire t ∧ t.msg = .StartupTimeout) ∧
        (step e s).proc.state = .Failed ∨
      s.proc.state = .Stopping ∧ (∃ t, e = .fire t ∧ t.msg = .StopTimeout) ∧
        (step e s).proc.state = .Failed) ∧
    (∀ (s : Sup) (es es' : List Event),
      (run es s).proc.state.rank ≤ (run (es ++ es') s).proc.state.rank) ∧
    (∀ (s : Sup) (es : List Event) (ok : Bool) (es' : List Event),
      (run es s).proc.state = .Running → (run es s).alive →
      (run (es ++ .stopProcess ok :: es') s).proc.state ≠ .Running) := by
  refine ⟨step_state, fun s es es' => run_append es es' s ▸ run_rank _ es',
    fun s es ok es' hr ha h => ?_⟩
  have hs : (step (.stopProcess ok) (run es s)).proc.state = .Stopping := by
    cases ok <;> simp [step, ha, deliver, handleStopProcess, hr]
  have := run_rank (step (.stopProcess ok) (run es s)) es'
  rw [run_append, run_cons] at h
  rw [h, hs] at this
  simp [ProcessState.rank] at this

/-- The lifecycle reports a supervisor has sent its service (`ProcessLoaded`, and
`ProcessFailed` for a startup, heartbeat or stop timeout) are fixed by the state it is in, after
any run: none while `Starting`; `ProcessLoaded`, and perhaps a heartbeat failure, while `Running`
or `Stopping`; and when `Failed`, the timeout that failed it, last. The config errors and the
`reload` and `restart` requests it forwards from its worker are sent in any state, and are not
among these. -/
theorem reports_by_state (idx : Nat) (cfg : ServiceConfig) (pid : Int) (now : Nat)
    (es : List Event) :
    let s := run es (createFramed idx cfg pid now)
    let r := reports s.log
    (s.proc.state = .Starting → r = []) ∧
    (s.proc.state = .Running → r = [.loaded] ∨ r = [.loaded, .heartbeat]) ∧
    (s.proc.state = .Stopping → r = [.loaded] ∨ r = [.loaded, .heartbeat]) ∧
    (s.proc.state = .Failed →
      r = [.startupTimeout] ∨ r = [.loaded, .stopTimeout] ∨ r = [.loaded, .heartbeat, .stopTimeout]) :=
  have g := good_run idx cfg pid now es
  ⟨fun h => (g.starting h).2.2.2, fun h => (g.running h).2.imp And.left And.left,
    fun h => (g.stopping h).2.imp_right And.left, g.failed⟩

end Fectl.Process
