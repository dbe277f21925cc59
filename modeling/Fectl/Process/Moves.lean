import Fectl.Process.Handle

/-!
# The branches of the handlers

`Moves s e s'` has one constructor for each branch the handlers of `process.rs` can take when the
event `e` reaches the running supervisor `s`, with the supervisor `s'` that branch leaves, and its
guard. `deliver_moves` shows that every event takes its branch, so a step leaves a stopped
supervisor as it is and takes one branch from a running one (`step_move`). Facts about every
step are proved from it by cases on the branch, with no unfolding of the handlers:

* `step_state`: a step moves the state only on the events the handlers name;
* `mem_timers_step`, `step_sent_hb`: a timer stays armed until it fires, and `hb` goes down the
  pipe only from a heartbeat timer or the service;
* `step_clock`: a step moves the time since the worker was last heard from on by no more than the
  clock moves;
* `step_timeout`: no step changes the heartbeat timeout.
-/

namespace Fectl.Process

/-- The clock time the event `e` lets pass. -/
def Event.elapsed : Event → Nat
  | .tick d => d
  | _ => 0

/-- The branches of the handlers, for the event `e` reaching the running supervisor `s`. -/
inductive Moves (s : Sup) : Event → Sup → Prop where
  | forked : Moves s (.frame .forked) (s.write .prepare)
  | loaded : s.proc.state = .Starting → Moves s (.frame .loaded)
      (((s.send (.ProcessLoaded s.proc.idx s.proc.pid)).setState .Running).touch.addTimer
        .Heartbeat HEARTBEAT)
  | loadedLate : s.proc.state ≠ .Starting → Moves s (.frame .loaded) s
  | hb : Moves s (.frame .hb) s.touch
  | reload : Moves s (.frame .reload) (s.send (.ProcessMessage s.proc.idx s.proc.pid .reload))
  | restart : Moves s (.frame .restart) (s.send (.ProcessMessage s.proc.idx s.proc.pid .restart))
  | cfgerror (msg : String) : Moves s (.frame (.cfgerror msg))
      (s.send (.ProcessFailed s.proc.idx s.proc.pid (.ConfigError msg)))
  | startupTimeout (t : Timeout) : t ∈ s.timers → t.msg = .StartupTimeout →
      s.proc.state = .Starting → Moves s (.fire t)
        ((({ s with timers := s.timers.erase t }.send
          (.ProcessFailed s.proc.idx s.proc.pid .StartupTimeout)).setState .Failed).signal
            .SIGKILL).stop
  | stopTimeout (t : Timeout) : t ∈ s.timers → t.msg = .StopTimeout →
      s.proc.state = .Stopping → Moves s (.fire t)
        ((({ s with timers := s.timers.erase t }.send
          (.ProcessFailed s.proc.idx s.proc.pid .StopTimeout)).setState .Failed).signal
            .SIGKILL).stop
  | heartbeatFailed (t : Timeout) : t ∈ s.timers → t.msg = .Heartbeat →
      s.proc.state = .Running → s.now - s.proc.hb > s.proc.timeout → Moves s (.fire t)
        ({ s with timers := s.timers.erase t }.send
          (.ProcessFailed s.proc.idx s.proc.pid .Heartbeat))
  | heartbeat (t : Timeout) : t ∈ s.timers → t.msg = .Heartbeat →
      s.proc.state = .Running → ¬s.now - s.proc.hb > s.proc.timeout → Moves s (.fire t)
        (({ s with timers := s.timers.erase t }.write .hb).addTimer .Heartbeat HEARTBEAT)
  /-- A watchdog timer fires in a state other than the one it watches. -/
  | stale (t : Timeout) : t ∈ s.timers →
      (t.msg = .StartupTimeout ∧ s.proc.state ≠ .Starting ∨
        t.msg = .StopTimeout ∧ s.proc.state ≠ .Stopping ∨
        t.msg = .Heartbeat ∧ s.proc.state ≠ .Running) →
      Moves s (.fire t) { s with timers := s.timers.erase t }
  | kill (t : Timeout) : t ∈ s.timers → t.msg = .Kill →
      Moves s (.fire t) (({ s with timers := s.timers.erase t }.signal .SIGKILL).stop)
  | unarmed (t : Timeout) : t ∉ s.timers → Moves s (.fire t) s
  | tick (d : Nat) : Moves s (.tick d) { s with now := s.now + d }
  | sendCommand (w : WorkerCommand) : Moves s (.sendCommand w) (s.write w)
  | startProcess : Moves s .startProcess (s.write .start)
  | pauseProcess : Moves s .pauseProcess (s.write .pause)
  | resumeProcess : Moves s .resumeProcess (s.write .resume)
  | stopRunning : s.proc.state = .Running → Moves s (.stopProcess true)
      ((((s.write .stop).setState .Stopping).addTimer .StopTimeout s.proc.shutdown_timeout).signal
        .SIGTERM)
  /-- `StopProcess` in `Running`, when no stop timer can be made. -/
  | stopUntimed : s.proc.state = .Running → Moves s (.stopProcess false)
      ((((s.write .stop).setState .Stopping).signal .SIGQUIT).stop)
  | stopOther (ok : Bool) : s.proc.state ≠ .Running → Moves s (.stopProcess ok)
      ((s.signal .SIGQUIT).stop)
  | quitGraceful : Moves s (.quitProcess true) ((s.signal .SIGQUIT).addTimer .Kill 1)
  | quitHard : Moves s (.quitProcess false) ((((s.signal .SIGKILL).stop).signal .SIGKILL).stop)
  | finished : Moves s .finished ((s.signal .SIGKILL).stop)
  | error : Moves s .error ((s.signal .SIGKILL).stop)

/-- Every event takes its branch of the handlers. -/
theorem deliver_moves (e : Event) (s : Sup) : Moves s e (deliver e s) := by
  cases e with
  | frame m =>
    cases m with
    | loaded =>
      simp only [deliver, handle]
      split
      · exact .loaded ‹_›
      · exact .loadedLate ‹_›
    | forked => exact .forked
    | hb => exact .hb
    | reload => exact .reload
    | restart => exact .restart
    | cfgerror msg => exact .cfgerror msg
  | fire t =>
    simp only [deliver]
    split
    · rename_i ht
      cases hm : t.msg with
      | StartupTimeout =>
        simp only [hm, TimerMsg.toMessage, handle]
        split
        · exact .startupTimeout t ht hm ‹_›
        · exact .stale t ht (.inl ⟨hm, ‹_›⟩)
      | StopTimeout =>
        simp only [hm, TimerMsg.toMessage, handle]
        split
        · exact .stopTimeout t ht hm ‹_›
        · exact .stale t ht (.inr (.inl ⟨hm, ‹_›⟩))
      | Heartbeat =>
        simp only [hm, TimerMsg.toMessage, handle]
        split
        · split
          · exact .heartbeatFailed t ht hm ‹_› ‹_›
          · exact .heartbeat t ht hm ‹_› ‹_›
        · exact .stale t ht (.inr (.inr ⟨hm, ‹_›⟩))
      | Kill =>
        simp only [hm, TimerMsg.toMessage, handle]
        exact .kill t ht hm
    · exact .unarmed t ‹_›
  | tick d => exact .tick d
  | sendCommand w => exact .sendCommand w
  | startProcess => exact .startProcess
  | pauseProcess => exact .pauseProcess
  | resumeProcess => exact .resumeProcess
  | stopProcess ok =>
    simp only [deliver, handleStopProcess]
    split
    · cases ok
      · exact .stopUntimed ‹_›
      · exact .stopRunning ‹_›
    · exact .stopOther ok ‹_›
  | quitProcess graceful =>
    cases graceful
    · exact .quitHard
    · exact .quitGraceful
  | finished => exact .finished
  | error => exact .error

/-- A step leaves a stopped supervisor as it is, and takes one branch of the handlers from a
running one. -/
theorem step_move (e : Event) (s : Sup) :
    s.alive = false ∧ step e s = s ∨ s.alive ∧ Moves s e (step e s) := by
  cases ha : s.alive
  · exact .inl ⟨rfl, step_of_not_alive e ha⟩
  · exact .inr ⟨rfl, by simpa [step, ha] using deliver_moves e s⟩

/-! ## What every step does -/

/-- The events that move a supervisor's state, and where they move it. -/
theorem step_state (e : Event) (s : Sup) :
    (step e s).proc.state = s.proc.state ∨
    s.proc.state = .Starting ∧ e = .frame .loaded ∧ (step e s).proc.state = .Running ∨
    s.proc.state = .Running ∧ (∃ ok, e = .stopProcess ok) ∧ (step e s).proc.state = .Stopping ∨
    s.proc.state = .Starting ∧ (∃ t, e = .fire t ∧ t.msg = .StartupTimeout) ∧
      (step e s).proc.state = .Failed ∨
    s.proc.state = .Stopping ∧ (∃ t, e = .fire t ∧ t.msg = .StopTimeout) ∧
      (step e s).proc.state = .Failed := by
  rcases step_move e s with ⟨-, h⟩ | ⟨-, h⟩
  · exact .inl (by rw [h])
  · generalize step e s = s' at h ⊢
    cases h
    case loaded hs => exact .inr (.inl ⟨hs, rfl, rfl⟩)
    case stopRunning hs => exact .inr (.inr (.inl ⟨hs, ⟨_, rfl⟩, rfl⟩))
    case stopUntimed hs => exact .inr (.inr (.inl ⟨hs, ⟨_, rfl⟩, rfl⟩))
    case startupTimeout t _ hm hs => exact .inr (.inr (.inr (.inl ⟨hs, ⟨t, rfl, hm⟩, rfl⟩)))
    case stopTimeout t _ hm hs => exact .inr (.inr (.inr (.inr ⟨hs, ⟨t, rfl, hm⟩, rfl⟩)))
    all_goals exact .inl rfl

theorem step_rank (e : Event) (s : Sup) : s.proc.state.rank ≤ (step e s).proc.state.rank := by
  rcases step_state e s with h | ⟨h, -, h'⟩ | ⟨h, -, h'⟩ | ⟨h, -, h'⟩ | ⟨h, -, h'⟩
  · rw [h]
  all_goals simp [h, h', ProcessState.rank]

/-- A timer that does not fire stays armed. -/
theorem mem_timers_step {t : Timeout} {s : Sup} (e : Event) (ht : t ∈ s.timers)
    (he : e ≠ .fire t) : t ∈ (step e s).timers := by
  rcases step_move e s with ⟨-, h⟩ | ⟨-, h⟩
  · rwa [h]
  · generalize step e s = s' at h ⊢
    cases h <;> simp_all [List.mem_erase_of_ne, eq_comm]

/-- A `hb` command goes down the pipe only when the service sends one, or when an armed
`Heartbeat` timer fires. -/
theorem step_sent_hb (e : Event) (s : Sup) (h : s.sent.count .hb < (step e s).sent.count .hb) :
    e = .sendCommand .hb ∨ ∃ t, e = .fire t ∧ t ∈ s.timers ∧ t.msg = .Heartbeat := by
  rcases step_move e s with ⟨-, h'⟩ | ⟨-, h'⟩
  · rw [h'] at h; exact absurd h (lt_irrefl _)
  · generalize step e s = s' at h h'
    cases h'
    case heartbeat t ht hm _ _ => exact .inr ⟨t, rfl, ht, hm⟩
    case sendCommand w => cases w <;> simp_all
    all_goals simp_all

theorem step_shutdown_timeout (e : Event) (s : Sup) :
    (step e s).proc.shutdown_timeout = s.proc.shutdown_timeout := by
  rcases step_move e s with ⟨-, h⟩ | ⟨-, h⟩
  · rw [h]
  · generalize step e s = s' at h ⊢
    cases h <;> rfl

/-- The time since the worker was last heard from moves on by no more than the clock. -/
theorem step_clock (e : Event) (s : Sup) :
    (step e s).now - (step e s).proc.hb ≤ s.now - s.proc.hb + e.elapsed := by
  rcases step_move e s with ⟨-, h⟩ | ⟨-, h⟩
  · rw [h]; omega
  · generalize step e s = s' at h ⊢
    cases h
    case tick d => simp only [Event.elapsed]; omega
    all_goals simp [Event.elapsed]

theorem step_timeout (e : Event) (s : Sup) : (step e s).proc.timeout = s.proc.timeout := by
  rcases step_move e s with ⟨-, h⟩ | ⟨-, h⟩
  · rw [h]
  · generalize step e s = s' at h ⊢
    cases h <;> simp

theorem run_timeout (es : List Event) (s : Sup) : (run es s).proc.timeout = s.proc.timeout :=
  @run_invariant (fun s' => s'.proc.timeout = s.proc.timeout)
    (fun e s' h => (step_timeout e s').trans h) es _ rfl

end Fectl.Process
