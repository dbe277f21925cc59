import Mathlib.Data.List.Infix
import Fectl.Process.Moves
import Fectl.Process.Runs

/-!
# What a supervisor does to its worker, and tells its service

`process.rs` ends a worker in three ways: gracefully, with `stop` down the pipe and `SIGTERM`,
watched by the stop timer (`StopProcess` in `Running`); with `SIGQUIT`, and `SIGKILL` when a
`Kill` timer fires a second later (`QuitProcess(true)`); and at once, with `SIGKILL` (a watchdog
timer, `QuitProcess(false)`, the end of the pipe). `Signalled` says what a supervisor has
signalled its worker against its state and timers, and every step keeps it (`Signalled.step`).

* `signals_discipline`: over any run, `SIGTERM` at most once, after `stop` was written and on the
  way out of `Running`; a stopped context has signalled its worker; a failed supervisor has
  killed it; after a graceful quit a `Kill` timer is armed while the context runs.
* `heartbeat_watch_ends`: once a heartbeat failure is reported, no heartbeat timer is ever armed
  again, and `hb` goes down the pipe only when the service sends one: the supervisor stops
  watching its worker.
* `heartbeat_failure_after_silence`: a heartbeat failure is reported only after more than
  `timeout` seconds of clock time without an `hb` frame from the worker.
-/

namespace Fectl.Process

/-! ## Signals -/

/-- What a supervisor has signalled its worker, against its state and timers. -/
structure Signalled (s : Sup) : Prop where
  term_le : s.signals.count .SIGTERM ≤ 1
  /-- `SIGTERM` only after `stop`, on the way out of `Running`. -/
  term : .SIGTERM ∈ s.signals → 2 ≤ s.proc.state.rank ∧ .stop ∈ s.sent
  /-- A context stops only after it signalled its worker. -/
  dead : s.alive = false → .SIGKILL ∈ s.signals ∨ .SIGQUIT ∈ s.signals
  failed : s.proc.state = .Failed → .SIGKILL ∈ s.signals ∧ s.alive = false
  stopping : s.proc.state = .Stopping → s.alive → .SIGTERM ∈ s.signals
  /-- A `SIGQUIT` sent while the context runs is followed up by a `Kill` timer. -/
  quit : s.alive → .SIGQUIT ∈ s.signals → 0 < armed s.timers .Kill

theorem signalled_createFramed (idx : Nat) (cfg : ServiceConfig) (pid : Int) (now : Nat) :
    Signalled (createFramed idx cfg pid now) where
  term_le := by simp [createFramed]
  term h := by simp [createFramed] at h
  dead h := by simp [createFramed] at h
  failed h := by simp [createFramed] at h
  stopping h := by simp [createFramed] at h
  quit _ h := by simp [createFramed] at h

variable {s s' : Sup}

/-- A handler that signals nothing and keeps the context running keeps `Signalled`, if it moves
the state at most from `Starting` to `Running` and writes and arms no less than before. -/
theorem Signalled.keep (w : Signalled s) (hsig : s'.signals = s.signals) (ha : s'.alive = s.alive)
    (hst : s'.proc.state = s.proc.state ∨ s.proc.state = .Starting ∧ s'.proc.state = .Running)
    (hsent : s.sent ⊆ s'.sent) (hk : armed s.timers .Kill ≤ armed s'.timers .Kill) :
    Signalled s' where
  term_le := hsig ▸ w.term_le
  term h := by
    obtain ⟨hr, hs⟩ := w.term (hsig ▸ h)
    rcases hst with hst | ⟨hst, -⟩
    · exact ⟨hst ▸ hr, hsent hs⟩
    · simp [hst, ProcessState.rank] at hr
  dead h := hsig ▸ w.dead (ha ▸ h)
  failed h := by
    rcases hst with hst | ⟨-, hst⟩
    · rw [hsig, ha]; exact w.failed (hst ▸ h)
    · simp [hst] at h
  stopping h h' := by
    rcases hst with hst | ⟨-, hst⟩
    · rw [hsig]; exact w.stopping (hst ▸ h) (ha ▸ h')
    · simp [hst] at h
  quit h h' := Nat.lt_of_lt_of_le (w.quit (ha ▸ h) (hsig ▸ h')) hk

/-- A handler that stops the context after signalling `sigs`, `SIGKILL` or `SIGQUIT` and never
`SIGTERM`, keeps `Signalled`, if it fails the supervisor only with `SIGKILL`. -/
theorem Signalled.ends (w : Signalled s) (sigs : List Signal)
    (hsig : s'.signals = s.signals ++ sigs)
    (hterm : .SIGTERM ∉ sigs) (hkq : .SIGKILL ∈ sigs ∨ .SIGQUIT ∈ sigs) (ha : s'.alive = false)
    (hr : s.proc.state.rank ≤ s'.proc.state.rank) (hsent : s.sent ⊆ s'.sent)
    (hf : s'.proc.state = .Failed → .SIGKILL ∈ sigs) : Signalled s' where
  term_le := by rw [hsig, List.count_append, List.count_eq_zero.2 hterm]; exact w.term_le
  term h := by
    rw [hsig, List.mem_append] at h
    obtain ⟨h₁, h₂⟩ := w.term (h.resolve_right hterm)
    exact ⟨h₁.trans hr, hsent h₂⟩
  dead _ := by rw [hsig]; exact hkq.imp (List.mem_append_right _) (List.mem_append_right _)
  failed h := ⟨by rw [hsig]; exact List.mem_append_right _ (hf h), ha⟩
  stopping _ h := by simp [ha] at h
  quit h := by simp [ha] at h

/-- Every step keeps `Signalled`. -/
theorem Signalled.step (w : Signalled s) (e : Event) : Signalled (step e s) := by
  rcases step_move e s with ⟨-, h⟩ | ⟨ha, h⟩
  · rwa [h]
  have hnf : s.proc.state ≠ .Failed := fun h => by simp [(w.failed h).2] at ha
  have hk {t : Timeout} (ht : t ∈ s.timers) (h : t.msg ≠ .Kill) :
      armed s.timers .Kill ≤ armed (s.timers.erase t) .Kill := by
    simp [armed_erase ht, h]
  generalize Process.step e s = s' at h ⊢
  cases h with
  | loaded hs => exact w.keep (by simp) (by simp) (.inr ⟨hs, by simp⟩) (by simp) (by simp)
  | loadedLate _ | unarmed _ _ => exact w
  | startupTimeout t _ _ hs | stopTimeout t _ _ hs =>
    exact w.ends [.SIGKILL] (by simp) (by simp) (.inl (by simp)) (by simp)
      (by simp [hs, ProcessState.rank]) (by simp) fun _ => by simp
  | heartbeatFailed t ht hm | heartbeat t ht hm =>
    exact w.keep (by simp) (by simp) (.inl (by simp)) (by simp)
      (by simpa using hk ht (by simp [hm]))
  | stale t ht hst =>
    refine w.keep (by simp) (by simp) (.inl (by simp)) (by simp) (hk ht ?_)
    rcases hst with ⟨hm, -⟩ | ⟨hm, -⟩ | ⟨hm, -⟩ <;> simp [hm]
  | kill t | finished | error =>
    exact w.ends [.SIGKILL] (by simp) (by simp) (.inl (by simp)) (by simp) (by simp) (by simp)
      fun _ => by simp
  | quitHard =>
    exact w.ends [.SIGKILL, .SIGKILL] (by simp) (by simp) (.inl (by simp)) (by simp) (by simp)
      (by simp) fun _ => by simp
  | stopUntimed hs =>
    exact w.ends [.SIGQUIT] (by simp) (by simp) (.inr (by simp)) (by simp)
      (by simp [hs, ProcessState.rank]) (by simp) (by simp)
  | stopOther ok _ =>
    exact w.ends [.SIGQUIT] (by simp) (by simp) (.inr (by simp)) (by simp) (by simp) (by simp)
      fun h => absurd (by simpa using h) hnf
  | stopRunning hs =>
    have hterm : .SIGTERM ∉ s.signals := fun h => by
      simpa [hs, ProcessState.rank] using (w.term h).1
    exact
      { term_le := by simp [List.count_eq_zero.2 hterm]
        term := fun _ => by simp [ProcessState.rank]
        dead := by simp [ha]
        failed := by simp
        stopping := fun _ _ => by simp
        quit := fun _ h => by simpa using w.quit ha (by simpa using h) }
  | quitGraceful =>
    exact
      { term_le := by simpa using w.term_le
        term := fun h => by simpa using w.term (by simpa using h)
        dead := by simp [ha]
        failed := fun h => absurd (by simpa using h) hnf
        stopping := fun h _ => by simp [w.stopping (by simpa using h) ha]
        quit := fun _ _ => by simp }
  | _ => refine w.keep ?_ ?_ (.inl ?_) ?_ ?_ <;> simp

/-- `Signalled` holds of every supervisor `Process::start` creates, after any run. -/
theorem signalled_run (idx : Nat) (cfg : ServiceConfig) (pid : Int) (now : Nat)
    (es : List Event) : Signalled (run es (createFramed idx cfg pid now)) :=
  run_invariant (fun e _ w => w.step e) es (signalled_createFramed idx cfg pid now)

/-- Over any run of a supervisor `Process::start` created, what it signals its worker: `SIGTERM`
at most once, only after it wrote `stop` and left `Running`; its context stops only after it sent
`SIGKILL` or `SIGQUIT`; `Failed`, it has sent `SIGKILL` and its context has stopped; `Stopping`
with its context running, it has sent `SIGTERM`; and after a `SIGQUIT`, while its context runs,
a `Kill` timer is armed. -/
theorem signals_discipline (idx : Nat) (cfg : ServiceConfig) (pid : Int) (now : Nat)
    (es : List Event) :
    let s := run es (createFramed idx cfg pid now)
    s.signals.count .SIGTERM ≤ 1 ∧
    (.SIGTERM ∈ s.signals → (s.proc.state = .Stopping ∨ s.proc.state = .Failed) ∧ .stop ∈ s.sent) ∧
    (s.alive = false → .SIGKILL ∈ s.signals ∨ .SIGQUIT ∈ s.signals) ∧
    (s.proc.state = .Failed → .SIGKILL ∈ s.signals ∧ s.alive = false) ∧
    (s.proc.state = .Stopping → s.alive → .SIGTERM ∈ s.signals) ∧
    (s.alive → .SIGQUIT ∈ s.signals → 0 < armed s.timers .Kill) := by
  intro s
  have w : Signalled s := signalled_run idx cfg pid now es
  refine ⟨w.term_le, fun h => ⟨?_, (w.term h).2⟩, w.dead, w.failed, w.stopping, w.quit⟩
  have := (w.term h).1
  cases hst : s.proc.state <;> simp_all [ProcessState.rank]

/-! ## The heartbeat watchdog -/

/-- After a heartbeat failure, no heartbeat timer. -/
def Life.Quiet (l : Life) : Prop := .heartbeat ∈ l.reports → l.heartbeat = 0

theorem Life.Good.quiet_step {l l' : Life} (g : l.Good) (q : l.Quiet) (h : Life.Step l l') :
    l'.Quiet := by
  have := g.heartbeat_le
  intro hh
  cases h with
  | loaded _ hs => simp [(g.starting hs).2.2.2] at hh
  | heartbeatFailed => simp only; omega
  | heartbeatStale => simp only; have := q hh; omega
  | startupTimeout | stopTimeout => exact q (by simpa using hh)
  | _ => exact q hh

/-- A report made stays made. -/
theorem Life.Step.reports_mono {l l' : Life} (h : Life.Step l l') {r : Report}
    (hr : r ∈ l.reports) : r ∈ l'.reports := by
  cases h <;> simp [hr]

theorem quiet_run (idx : Nat) (cfg : ServiceConfig) (pid : Int) (now : Nat) (es : List Event) :
    (view (run es (createFramed idx cfg pid now))).Quiet :=
  (@run_invariant (fun s => (view s).Good ∧ (view s).Quiet) (fun e s ⟨g, q⟩ => by
    rcases view_step e s with h | h
    · rw [h]; exact ⟨g, q⟩
    · exact ⟨g.step h, g.quiet_step q h⟩) es _
    ⟨good_createFramed idx cfg pid now, by simp [Life.Quiet, view, reports, createFramed]⟩).2

theorem reports_mono_run {r : Report} {s : Sup} (h : r ∈ reports s.log) (es : List Event) :
    r ∈ reports (run es s).log :=
  @run_invariant (fun s => r ∈ reports s.log) (fun e s hr => by
    rcases view_step e s with h | h
    · show r ∈ (view (step e s)).reports
      rw [h]; exact hr
    · exact h.reports_mono hr) es _ h

/-- With no heartbeat timer armed, `hb` goes down the pipe only on the service's `SendCommand`. -/
theorem step_hb_le (e : Event) {s : Sup} (h : armed s.timers .Heartbeat = 0) :
    (step e s).sent.count .hb ≤ s.sent.count .hb + [e].count (.sendCommand .hb) := by
  by_contra hlt
  rcases step_sent_hb e s (by omega) with rfl | ⟨t, rfl, ht, hm⟩
  · apply hlt
    simp only [step]
    split <;> simp [deliver, handleSendCommand]
  · exact absurd h (hm ▸ armed_pos ht).ne'

/-- Once a supervisor `Process::start` created has reported a heartbeat failure, whatever happens
next: no heartbeat timer is armed, and every `hb` it writes down the pipe is one the service sent
with `SendCommand`. Its worker is watched no more. -/
theorem heartbeat_watch_ends (idx : Nat) (cfg : ServiceConfig) (pid : Int) (now : Nat)
    (es : List Event) (h : .heartbeat ∈ reports (run es (createFramed idx cfg pid now)).log)
    (es' : List Event) :
    let s := run es (createFramed idx cfg pid now)
    armed (run es' s).timers .Heartbeat = 0 ∧
    (run es' s).sent.count .hb ≤ s.sent.count .hb + es'.count (.sendCommand .hb) := by
  intro s
  have quiet (es' : List Event) : armed (run es' s).timers .Heartbeat = 0 := by
    have q := quiet_run idx cfg pid now (es ++ es')
    rw [run_append] at q
    exact q (reports_mono_run h es')
  refine ⟨quiet es', ?_⟩
  induction es' using List.reverseRecOn with
  | nil => simp
  | append_singleton es' e ih =>
    rw [run_concat, List.count_append]
    have := step_hb_le e (quiet es')
    omega

/-- A worker loads, and its heartbeat is late when the timer fires: the failure is reported. The
service then sends `hb`, the worker answers, and a heartbeat timer fires again: it is no longer
armed, and the one `hb` written is the service's. -/
theorem heartbeat_fails_once :
    let s := run [.frame .loaded, .tick 1, .fire ⟨.Heartbeat, Duration.new HEARTBEAT 0⟩]
      (createFramed 0 ⟨"web", 1, 0, 10, 10⟩ 7 0)
    let es' : List Event :=
      [.sendCommand .hb, .frame .hb, .tick 5, .fire ⟨.Heartbeat, Duration.new HEARTBEAT 0⟩]
    .heartbeat ∈ reports s.log ∧ armed (run es' s).timers .Heartbeat = 0 ∧
    (run es' s).sent.count .hb ≤ s.sent.count .hb + es'.count (.sendCommand .hb) :=
  ⟨by decide, heartbeat_watch_ends 0 ⟨"web", 1, 0, 10, 10⟩ 7 0 _ (by decide) _⟩

/-! ## When a heartbeat failure is reported -/

/-- A heartbeat failure is reported only by a heartbeat timer that fires in a running supervisor
more than the timeout after the worker was last heard from. -/
theorem step_heartbeat_report {e : Event} {s : Sup} (hn : .heartbeat ∉ reports s.log)
    (h : .heartbeat ∈ reports (step e s).log) :
    s.alive ∧ s.proc.timeout < s.now - s.proc.hb := by
  rcases step_move e s with ⟨-, h'⟩ | ⟨ha, h'⟩
  · rw [h'] at h; exact absurd h hn
  · refine ⟨ha, ?_⟩
    generalize step e s = s' at h h'
    cases h' <;> simp_all [reportOf]

/-- The clock time since the last `hb` frame among the events `es`, or since the first event if
there is none. -/
def silence (es : List Event) : Nat :=
  es.foldl (fun n e => if e = .frame .hb then 0 else n + e.elapsed) 0

theorem silence_concat (es : List Event) (e : Event) :
    silence (es ++ [e]) = if e = .frame .hb then 0 else silence es + e.elapsed := by
  simp [silence]

/-- While the context runs, the time since the worker was last heard from is at most the clock
time since its last `hb` frame. -/
theorem run_gap_le_silence {s : Sup} (hs : s.now - s.proc.hb = 0) (es : List Event)
    (ha : (run es s).alive) : (run es s).now - (run es s).proc.hb ≤ silence es := by
  induction es using List.reverseRecOn with
  | nil => simp [hs, silence]
  | append_singleton es e ih =>
    rw [run_concat] at ha ⊢
    have ha' := alive_of_step ha
    rw [silence_concat]
    split
    · subst_vars; simp [step, ha', deliver, handle]
    · have := step_clock e (run es s)
      have := ih ha'
      omega

/-- A supervisor `Process::start` created reports a heartbeat failure only after a stretch of
more than `timeout` seconds of clock time in which no `hb` frame came from its worker: a worker
that sends `hb` at least once every `timeout` seconds is never reported failed. -/
theorem heartbeat_failure_after_silence (idx : Nat) (cfg : ServiceConfig) (pid : Int) (now : Nat)
    (es : List Event) (h : .heartbeat ∈ reports (run es (createFramed idx cfg pid now)).log) :
    ∃ p ∈ es.inits, Duration.new cfg.timeout 0 < silence p := by
  obtain ⟨es₀, e, es₁, rfl, h₀, h₁⟩ :=
    @run_first (fun s => .heartbeat ∈ reports s.log) _ (by simp [createFramed, reports]) es h
  obtain ⟨ha, hlt⟩ := step_heartbeat_report h₀ h₁
  have hgap := run_gap_le_silence (by simp [createFramed]) es₀ ha
  have ht : (createFramed idx cfg pid now).proc.timeout = Duration.new cfg.timeout 0 := rfl
  rw [run_timeout, ht] at hlt
  exact ⟨es₀, (List.mem_inits _ _).2 (List.prefix_append _ _), by omega⟩

/-- A worker loads, and is silent for a nanosecond past a timeout of none when its heartbeat
timer fires. -/
theorem heartbeat_fails_silent :
    let es := [.frame .loaded, .tick 1, .fire ⟨.Heartbeat, Duration.new HEARTBEAT 0⟩]
    .heartbeat ∈ reports (run es (createFramed 0 ⟨"web", 1, 0, 10, 10⟩ 7 0)).log ∧
    ∃ p ∈ es.inits, Duration.new 0 0 < silence p :=
  ⟨by decide, heartbeat_failure_after_silence 0 ⟨"web", 1, 0, 10, 10⟩ 7 0 _ (by decide)⟩

end Fectl.Process
