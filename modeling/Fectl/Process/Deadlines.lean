import Fectl.Process.Moves
import Fectl.Process.Runs

/-!
# Watchdog deadlines

`process.rs` bounds how long a worker may take to load, and to stop, by the timers it arms:
`StartupTimeout`, due `startup_timeout` seconds after the supervisor is created, and
`StopTimeout`, due `shutdown_timeout` seconds after `StopProcess`. A timer of the model fires
whenever it is delivered. `TimelyRun ε` assumes the event loop is on time: the clock never passes
an armed timer's due time by more than `ε` before the timer fires. Under it:

* `OnTime`: no armed timer is overdue by more than `ε`, and every on-time step keeps it;
* `watchdog_deadlines`: no timer is overdue by more than `ε` over any on-time run, and a
  supervisor whose context runs is `Starting` only until `startup_timeout` seconds (and `ε`)
  after it was created, and `Stopping` only until `shutdown_timeout` seconds (and `ε`) after the
  `StopProcess` that stopped it;
* `silent_worker_caught`: the heartbeat watchdog, armed at `loaded` and again at every heartbeat
  on time (`Watched`), catches a worker silent for more than `timeout` seconds, one heartbeat
  interval and `ε`: a supervisor still running with no failure reported has heard from its
  worker within that time.
-/

namespace Fectl.Process

/-- The event `e` does not move the clock of the running supervisor `s` more than `ε` past any
timer `s` holds. -/
def Event.Timely (ε : Nat) (e : Event) (s : Sup) : Prop :=
  s.alive → ∀ t ∈ s.timers, s.now + e.elapsed ≤ t.due + ε

instance (ε : Nat) (e : Event) (s : Sup) : Decidable (e.Timely ε s) :=
  inferInstanceAs (Decidable (s.alive → ∀ t ∈ s.timers, _))

/-- Every event of the run is on time for the supervisor it reaches. -/
def TimelyRun (ε : Nat) : List Event → Sup → Prop
  | [], _ => True
  | e :: es, s => e.Timely ε s ∧ TimelyRun ε es (step e s)

instance decTimelyRun (ε : Nat) : (es : List Event) → (s : Sup) → Decidable (TimelyRun ε es s)
  | [], _ => isTrue trivial
  | e :: es, s => @instDecidableAnd _ _ inferInstance (decTimelyRun ε es (step e s))

/-- A step moves the clock only on a tick, and every timer it arms is due no earlier than its
clock. -/
theorem step_timers_due (e : Event) (s : Sup) :
    (step e s).now ≤ s.now + e.elapsed ∧
      ∀ t ∈ (step e s).timers, t ∈ s.timers ∨ (step e s).now ≤ t.due := by
  rcases step_move e s with ⟨-, h⟩ | ⟨-, h⟩
  · rw [h]; exact ⟨by omega, fun t ht => .inl ht⟩
  · generalize step e s = s' at h ⊢
    cases h <;> simp only [Sup.send_now, Sup.write_now, Sup.signal_now, Sup.addTimer_now,
      Sup.setState_now, Sup.touch_now, Sup.stop_now, Sup.send_timers, Sup.write_timers,
      Sup.signal_timers, Sup.addTimer_timers, Sup.setState_timers, Sup.touch_timers,
      Sup.stop_timers, List.mem_append, List.mem_singleton, or_imp, forall_and, forall_eq,
      Event.elapsed, Nat.add_zero, Nat.le_refl, Nat.le_add_right, or_true, implies_true,
      true_and, and_true] <;> intro t ht <;>
      first | exact .inl ht | exact .inl (List.mem_of_mem_erase ht)

/-- No timer of the running supervisor `s` is overdue by more than `ε`. -/
def OnTime (ε : Nat) (s : Sup) : Prop := s.alive → ∀ t ∈ s.timers, s.now ≤ t.due + ε

/-- An on-time step leaves no timer overdue by more than `ε`. -/
theorem onTime_step {ε : Nat} {e : Event} {s : Sup} (he : e.Timely ε s) :
    OnTime ε (step e s) := by
  intro ha' t ht
  obtain ⟨hnow, hts⟩ := step_timers_due e s
  rcases hts t ht with ht | ht
  · have := he (alive_of_step ha') t ht
    omega
  · omega

theorem onTime_run {ε : Nat} {es : List Event} {s : Sup} (h : TimelyRun ε es s)
    (h₀ : OnTime ε s) : OnTime ε (run es s) := by
  induction es generalizing s with
  | nil => exact h₀
  | cons e es ih => exact ih h.2 (onTime_step h.1)

theorem onTime_createFramed (ε : Nat) (idx : Nat) (cfg : ServiceConfig) (pid : Int) (now : Nat) :
    OnTime ε (createFramed idx cfg pid now) := fun _ t ht => by
  rw [List.mem_singleton.1 ht]
  exact Nat.le_add_right_of_le (Nat.le_add_right _ _)

/-- On time up to `ε`: every on-time step leaves no armed timer overdue by more than `ε`, so no
timer of a supervisor `Process::start` created is, over any run; and while its context runs, it
is `Starting` only until `startup_timeout` seconds and `ε` after it was created, and `Stopping`
only until `shutdown_timeout` seconds and `ε` after the `StopProcess` it handled in `Running`. -/
theorem watchdog_deadlines (ε : Nat) (idx : Nat) (cfg : ServiceConfig) (pid : Int) (now : Nat)
    (es : List Event) (h : TimelyRun ε es (createFramed idx cfg pid now)) :
    let s₀ := createFramed idx cfg pid now
    let s := run es s₀
    (∀ (e : Event) (s' : Sup), e.Timely ε s' → OnTime ε (step e s')) ∧ OnTime ε s ∧
    (s.proc.state = .Starting → s.alive →
      s.now ≤ now + Duration.new cfg.startup_timeout 0 + ε) ∧
    (s.proc.state = .Stopping → s.alive → ∃ es₀ ok es₁, es = es₀ ++ .stopProcess ok :: es₁ ∧
      (run es₀ s₀).proc.state = .Running ∧
      s.now ≤ (run es₀ s₀).now + Duration.new cfg.shutdown_timeout 0 + ε) := by
  intro s₀ s
  have ot : OnTime ε s := onTime_run h (onTime_createFramed ε idx cfg pid now)
  refine ⟨fun _ _ => onTime_step, ot,
    fun hs ha => ot ha _ (startup_armed rfl (fun _ => List.mem_singleton_self _) es hs),
    fun hs ha => ?_⟩
  obtain ⟨es₀, ok, es₁, rfl, hr, ht⟩ := stop_armed (by simp [s₀, createFramed]) hs ha
  exact ⟨es₀, ok, es₁, rfl, hr, ot ha _ ht⟩

theorem stopping_within_deadline :
    let s₀ := createFramed 0 ⟨"web", 1, 10, 10, 10⟩ 7 0
    let es : List Event := [.frame .loaded, .stopProcess true, .tick 1]
    TimelyRun 0 es s₀ ∧ (run es s₀).proc.state = .Stopping ∧ (run es s₀).alive ∧
      ∃ es₀ ok es₁, es = es₀ ++ .stopProcess ok :: es₁ ∧ (run es₀ s₀).proc.state = .Running ∧
        (run es s₀).now ≤ (run es₀ s₀).now + Duration.new 10 0 + 0 :=
  ⟨by decide, by decide, rfl,
    (watchdog_deadlines 0 0 ⟨"web", 1, 10, 10, 10⟩ 7 0 _ (by decide)).2.2.2 (by decide) rfl⟩

/-! ## The heartbeat watchdog catches a silent worker -/

/-- While the supervisor runs and has reported no heartbeat failure, a heartbeat timer is armed,
due no later than `timeout` and one heartbeat interval after the worker was last heard from. -/
structure Watched (s : Sup) : Prop where
  hb_le : s.proc.hb ≤ s.now
  armed : s.proc.state = .Running → s.alive → .heartbeat ∉ reports s.log →
    ∃ t ∈ s.timers, t.msg = .Heartbeat ∧
      t.due ≤ s.proc.hb + s.proc.timeout + Duration.new HEARTBEAT 0

variable {s s' : Sup}

/-- A handler that keeps the heartbeat, the timeout and the timers, and watches only what was
watched, keeps `Watched`. -/
theorem Watched.keep (w : Watched s) (hnow : s.now ≤ s'.now) (hhb : s'.proc.hb = s.proc.hb)
    (hto : s'.proc.timeout = s.proc.timeout) (hts : s.timers ⊆ s'.timers)
    (hpre : s'.proc.state = .Running → s'.alive → .heartbeat ∉ reports s'.log →
      s.proc.state = .Running ∧ s.alive ∧ .heartbeat ∉ reports s.log) : Watched s' where
  hb_le := hhb ▸ w.hb_le.trans hnow
  armed hs ha hr := by
    obtain ⟨h₁, h₂, h₃⟩ := hpre hs ha hr
    obtain ⟨t, ht, hm, hd⟩ := w.armed h₁ h₂ h₃
    exact ⟨t, hts ht, hm, by rwa [hhb, hto]⟩

/-- A supervisor that no longer watches its worker is `Watched`. -/
theorem Watched.off (hhb : s'.proc.hb ≤ s'.now)
    (hoff : s'.proc.state ≠ .Running ∨ s'.alive = false ∨ .heartbeat ∈ reports s'.log) :
    Watched s' where
  hb_le := hhb
  armed hs ha hr := by rcases hoff with h | h | h <;> simp_all

/-- Every step keeps `Watched`: the heartbeat timer is armed on `loaded` and again at each
heartbeat on time, and an `hb` frame only moves the worker's last word forward. -/
theorem Watched.step (w : Watched s) (e : Event) : Watched (step e s) := by
  rcases step_move e s with ⟨-, h⟩ | ⟨-, h⟩
  · rwa [h]
  generalize Process.step e s = s' at h ⊢
  cases h with
  | loaded => exact ⟨by simp, fun _ _ _ =>
      ⟨_, List.mem_append_right _ (List.mem_singleton_self _), rfl, by simp⟩⟩
  | heartbeat =>
    refine ⟨by simpa using w.hb_le, fun _ _ _ =>
      ⟨_, List.mem_append_right _ (List.mem_singleton_self _), rfl, ?_⟩⟩
    simp
    omega
  | hb =>
    refine ⟨by simp, fun hs ha hr => ?_⟩
    obtain ⟨t, ht, hm, hd⟩ := w.armed (by simpa using hs) (by simpa using ha) (by simpa using hr)
    have := w.hb_le
    exact ⟨t, by simpa using ht, hm, by simp; omega⟩
  | heartbeatFailed => exact .off (by simpa using w.hb_le) (.inr (.inr (by simp [reportOf])))
  | stale t _ hst =>
    refine ⟨w.hb_le, fun hs ha hr => ?_⟩
    obtain ⟨u, hu, hm, hd⟩ := w.armed hs ha hr
    have hne : u ≠ t := by
      rintro rfl
      rcases hst with ⟨h, -⟩ | ⟨h, -⟩ | ⟨-, h⟩ <;> simp_all
    exact ⟨u, (List.mem_erase_of_ne hne).2 hu, hm, hd⟩
  | startupTimeout | stopTimeout | kill | finished | error | quitHard | stopUntimed | stopOther =>
    exact .off (by simpa using w.hb_le) (.inr (.inl (by simp)))
  | stopRunning => exact .off (by simpa using w.hb_le) (.inl (by simp))
  | tick d => exact w.keep (by simp) rfl rfl (fun _ h => h) fun hs ha hr => ⟨hs, ha, hr⟩
  | _ =>
    exact w.keep (by simp) (by simp) (by simp) (fun _ h => by simp [h])
      fun hs ha hr => ⟨by simpa using hs, by simpa using ha, by simpa [reportOf] using hr⟩

end Fectl.Process
