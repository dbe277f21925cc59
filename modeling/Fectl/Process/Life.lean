import Fectl.Process.Handle

/-!
# What a supervisor is for: its lifecycle

What a service is told of a worker's lifecycle, `Report`, is the reason a `Process` exists:
loaded once, and failed by its startup timer, its heartbeat or its stop timer only in the state
that timer watches. `Life` keeps of a supervisor only what decides that: its state, whether its
context runs, what it has reported, and how many of each watchdog timer it has armed. `Life.Step`
says everything a supervisor can do, seen so.

* `Life.Good`: at most one of each watchdog timer; `Starting` with its startup timer and no
  report; `Running` with a heartbeat timer or a heartbeat failure, never both; `Stopping`, while
  its context runs, with its stop timer; `Failed` after exactly one of three report sequences.
* `Life.Good.step`: every step keeps it;
* `Life.Good.reports_mem`: so a supervisor's reports are one of six sequences, `lifecycles`.

`Runs.lean` shows that the handlers of `process.rs` take these steps and no others.
-/

namespace Fectl.Process

/-- The reports of a worker's lifecycle a supervisor sends its service. -/
inductive Report where
  | loaded
  | startupTimeout
  | heartbeat
  | stopTimeout
  deriving DecidableEq, Repr

/-- The report a message to the service is, if it is one. -/
def reportOf : ServiceMessage → Option Report
  | .ProcessLoaded _ _ => some .loaded
  | .ProcessFailed _ _ .StartupTimeout => some .startupTimeout
  | .ProcessFailed _ _ .Heartbeat => some .heartbeat
  | .ProcessFailed _ _ .StopTimeout => some .stopTimeout
  | _ => none

/-- The lifecycle reports among the messages `log`, in order. -/
def reports (log : List ServiceMessage) : List Report := log.filterMap reportOf

/-- A supervisor as its lifecycle sees it: how many `StartupTimeout`, `Heartbeat` and
`StopTimeout` timers it has armed, besides its state, whether its context runs and what it has
reported. -/
structure Life where
  state : ProcessState
  alive : Bool
  reports : List Report
  startup : Nat
  heartbeat : Nat
  stop : Nat
  deriving DecidableEq, Repr

/-- Everything a supervisor can do, as its lifecycle sees it. A timer that fires in a state other
than the one it watches is stale: it is gone, and nothing else changes. -/
inductive Life.Step : Life → Life → Prop where
  | loaded {l : Life} : l.alive → l.state = .Starting →
      Step l { l with
        state := .Running, reports := l.reports ++ [.loaded], heartbeat := l.heartbeat + 1 }
  | startupTimeout {l : Life} : l.alive → l.state = .Starting → 0 < l.startup →
      Step l { l with
        state := .Failed, alive := false, reports := l.reports ++ [.startupTimeout],
        startup := l.startup - 1 }
  | startupStale {l : Life} : l.alive → l.state ≠ .Starting → 0 < l.startup →
      Step l { l with startup := l.startup - 1 }
  | heartbeatFailed {l : Life} : l.alive → l.state = .Running → 0 < l.heartbeat →
      Step l { l with reports := l.reports ++ [.heartbeat], heartbeat := l.heartbeat - 1 }
  | heartbeatStale {l : Life} : l.alive → l.state ≠ .Running → 0 < l.heartbeat →
      Step l { l with heartbeat := l.heartbeat - 1 }
  | stopTimeout {l : Life} : l.alive → l.state = .Stopping → 0 < l.stop →
      Step l { l with
        state := .Failed, alive := false, reports := l.reports ++ [.stopTimeout],
        stop := l.stop - 1 }
  | stopStale {l : Life} : l.alive → l.state ≠ .Stopping → 0 < l.stop →
      Step l { l with stop := l.stop - 1 }
  | stopRunning {l : Life} : l.alive → l.state = .Running →
      Step l { l with state := .Stopping, stop := l.stop + 1 }
  /-- `StopProcess` when no stop timer can be made. -/
  | stopUntimed {l : Life} : l.alive → l.state = .Running →
      Step l { l with state := .Stopping, alive := false }
  | quit {l : Life} : l.alive → Step l { l with alive := false }

/-- The lifecycle of a supervisor that has just started. -/
def Life.init : Life := ⟨.Starting, true, [], 1, 0, 0⟩

/-- The lifecycle invariant. -/
structure Life.Good (l : Life) : Prop where
  startup_le : l.startup ≤ 1
  heartbeat_le : l.heartbeat ≤ 1
  stop_le : l.stop ≤ 1
  starting : l.state = .Starting → l.startup = 1 ∧ l.heartbeat = 0 ∧ l.stop = 0 ∧ l.reports = []
  running : l.state = .Running → l.stop = 0 ∧
    (l.reports = [.loaded] ∧ l.heartbeat = 1 ∨ l.reports = [.loaded, .heartbeat] ∧ l.heartbeat = 0)
  stopping : l.state = .Stopping → (l.alive → l.stop = 1) ∧
    (l.reports = [.loaded] ∨ l.reports = [.loaded, .heartbeat] ∧ l.heartbeat = 0)
  failed : l.state = .Failed → l.reports = [.startupTimeout] ∨
    l.reports = [.loaded, .stopTimeout] ∨ l.reports = [.loaded, .heartbeat, .stopTimeout]

theorem Life.good_init : Life.init.Good where
  startup_le := le_rfl
  heartbeat_le := Nat.zero_le _
  stop_le := Nat.zero_le _
  starting _ := ⟨rfl, rfl, rfl, rfl⟩
  running h := nomatch h
  stopping h := nomatch h
  failed h := nomatch h

/-- Every step keeps the lifecycle invariant. -/
theorem Life.Good.step {l l' : Life} (g : l.Good) (h : Life.Step l l') : l'.Good := by
  have := g.startup_le; have := g.heartbeat_le; have := g.stop_le
  cases h with
  | loaded _ hs =>
    obtain ⟨h1, h2, h3, h4⟩ := g.starting hs
    exact ⟨by simpa, by simp [h2], by simpa, nofun, fun _ => ⟨h3, .inl ⟨by simp [h4], by simp [h2]⟩⟩,
      nofun, nofun⟩
  | startupTimeout _ hs =>
    obtain ⟨-, -, -, h4⟩ := g.starting hs
    exact ⟨by simp; omega, by simpa, by simpa, nofun, nofun, nofun, fun _ => .inl (by simp [h4])⟩
  | startupStale _ hs =>
    exact ⟨by simp; omega, by simpa, by simpa, fun h => absurd h hs, g.running, g.stopping,
      g.failed⟩
  | heartbeatFailed _ hs hp =>
    obtain ⟨h3, ⟨h4, -⟩ | ⟨-, h5⟩⟩ := g.running hs
    · exact ⟨by simpa, by simp; omega, by simpa, fun h => by simp [hs] at h,
        fun _ => ⟨h3, .inr ⟨by simp [h4], by simp; omega⟩⟩, fun h => by simp [hs] at h,
        fun h => by simp [hs] at h⟩
    · omega
  | heartbeatStale _ hs hp =>
    refine ⟨by simpa, by simp; omega, by simpa, fun h => ?_, fun h => absurd h hs, fun h => ?_,
      g.failed⟩
    · have := (g.starting h).2.1; omega
    · obtain ⟨h1, h2 | ⟨-, h3⟩⟩ := g.stopping h
      · exact ⟨h1, .inl h2⟩
      · omega
  | stopTimeout _ hs hp =>
    have h2 := (g.stopping hs).2
    exact ⟨by simpa, by simpa, by simp; omega, nofun, nofun, nofun, fun _ => by
      rcases h2 with h2 | ⟨h2, -⟩ <;> simp [h2]⟩
  | stopStale _ hs hp =>
    refine ⟨by simpa, by simpa, by simp; omega, fun h => ?_, fun h => ?_, fun h => absurd h hs,
      g.failed⟩
    · have := (g.starting h).2.2.1; omega
    · have := (g.running h).1; omega
  | stopRunning _ hs =>
    obtain ⟨h3, h4⟩ := g.running hs
    exact ⟨by simpa, by simpa, by simp; omega, nofun, nofun,
      fun _ => ⟨fun _ => by simp [h3], h4.imp And.left id⟩, nofun⟩
  | stopUntimed _ hs =>
    obtain ⟨-, h4⟩ := g.running hs
    exact ⟨by simpa, by simpa, by simpa, nofun, nofun, fun _ => ⟨nofun, h4.imp And.left id⟩,
      nofun⟩
  | quit _ =>
    exact ⟨g.startup_le, g.heartbeat_le, g.stop_le, g.starting, g.running,
      fun h => ⟨nofun, (g.stopping h).2⟩, g.failed⟩

/-- The report sequences the lifecycle invariant allows. -/
def lifecycles : List (List Report) :=
  [[], [.loaded], [.loaded, .heartbeat], [.startupTimeout], [.loaded, .stopTimeout],
    [.loaded, .heartbeat, .stopTimeout]]

theorem Life.Good.reports_mem {l : Life} (g : l.Good) : l.reports ∈ lifecycles := by
  cases hs : l.state with
  | Starting => simp [lifecycles, (g.starting hs).2.2.2]
  | Failed => rcases g.failed hs with h | h | h <;> simp [lifecycles, h]
  | Running => rcases (g.running hs).2 with ⟨h, -⟩ | ⟨h, -⟩ <;> simp [lifecycles, h]
  | Stopping => rcases (g.stopping hs).2 with h | ⟨h, -⟩ <;> simp [lifecycles, h]

/-- Only a `Stopping` supervisor's step reports a stop timeout. -/
theorem Life.Step.stopping_of_stopTimeout {l l' : Life} (h : Life.Step l l')
    (h' : .stopTimeout ∈ l'.reports) (hn : .stopTimeout ∉ l.reports) : l.state = .Stopping := by
  cases h <;> simp_all

end Fectl.Process
