import Mathlib.Data.List.Basic

/-!
# The data the supervisor passes around

The messages between a worker and its `Process` (`WorkerMessage`, `WorkerCommand`), what a
`Process` reports to its service (`ServiceMessage`), the errors and reasons a worker's end is
reported with (`ProcessError`, `Reason`), the signals the code sends and subscribes to, and the
fields of the configuration that the modelled code reads.

`worker.rs`, `event.rs`, `service.rs` and `config.rs` are not in the source: the types taken
from them follow the spec's data model (§3, §6). `ProcessError.from` is `ProcessError::from`:
the reserved exit codes 98, 99 and 100 (`from_reserved`), every other code verbatim
(`from_of_not_reserved`).
-/

namespace Fectl

/-- Modelled from the spec: `WorkerMessage` of `worker.rs`, what a worker sends up its pipe. -/
inductive WorkerMessage where
  | forked
  | loaded
  | hb
  | reload
  | restart
  | cfgerror (msg : String)
  deriving DecidableEq, Repr

/-- Modelled from the spec: `WorkerCommand` of `worker.rs`, what the parent sends down. -/
inductive WorkerCommand where
  | prepare
  | start
  | pause
  | resume
  | stop
  | hb
  deriving DecidableEq, Repr

/-- The signals the code sends to its workers or subscribes to, as `nix` names them. -/
inductive Signal where
  | SIGHUP
  | SIGINT
  | SIGQUIT
  | SIGKILL
  | SIGTERM
  | SIGCHLD
  deriving DecidableEq, Repr

/-- `ProcessState`. -/
inductive ProcessState where
  | Starting
  | Failed
  | Running
  | Stopping
  deriving DecidableEq, Repr

/-- `ProcessMessage`: what the `Process` actor handles, from its pipe or from its timers. -/
inductive ProcessMessage where
  | Message (msg : WorkerMessage)
  | StartupTimeout
  | StopTimeout
  | Heartbeat
  | Kill
  deriving DecidableEq, Repr

/-- `WORKER_TIMEOUT`, `WORKER_INIT_FAILED` and `WORKER_BOOT_FAILED`: the reserved exit codes. -/
def WORKER_TIMEOUT : Int := 98
def WORKER_INIT_FAILED : Int := 99
def WORKER_BOOT_FAILED : Int := 100

/-- `ProcessError`. A worker's exit code is an `i8`, kept as an `Int`. -/
inductive ProcessError where
  | Heartbeat
  | FailedToStart (err : Option String)
  | StartupTimeout
  | StopTimeout
  | ConfigError (msg : String)
  | InitFailed
  | BootFailed
  | Signal (sig : Nat)
  | ExitCode (code : Int)
  deriving DecidableEq, Repr

/-- `ProcessError::from`: the error an exit code stands for. -/
def ProcessError.from (code : Int) : ProcessError :=
  if code = WORKER_TIMEOUT then .StartupTimeout
  else if code = WORKER_INIT_FAILED then .InitFailed
  else if code = WORKER_BOOT_FAILED then .BootFailed
  else .ExitCode code

theorem ProcessError.from_reserved :
    ProcessError.from 98 = .StartupTimeout ∧ ProcessError.from 99 = .InitFailed ∧
      ProcessError.from 100 = .BootFailed := by
  decide

theorem ProcessError.from_of_not_reserved {code : Int} (h : code ≠ 98 ∧ code ≠ 99 ∧ code ≠ 100) :
    ProcessError.from code = .ExitCode code := by
  simp [ProcessError.from, WORKER_TIMEOUT, WORKER_INIT_FAILED, WORKER_BOOT_FAILED, h.1, h.2.1, h.2.2]

/-- `from` never yields an error a worker's exit does not stand for. -/
theorem ProcessError.from_cases (code : Int) :
    ProcessError.from code ∈ [.StartupTimeout, .InitFailed, .BootFailed, .ExitCode code] := by
  unfold ProcessError.from; split_ifs <;> simp

/-- Modelled from the spec: `Reason` of `event.rs`. -/
inductive Reason where
  | ConsoleRequest
  | Exit
  | HeartbeatFailed
  | FailedToStart (err : Option String)
  | StartupTimeout
  | StopTimeout
  | WorkerError (msg : String)
  | InitFailed
  | BootFailed
  | Signal (sig : Nat)
  | ExitCode (code : Int)
  deriving DecidableEq, Repr

/-- `From<&ProcessError> for Reason`. -/
def Reason.from : ProcessError → Reason
  | .Heartbeat => .HeartbeatFailed
  | .FailedToStart err => .FailedToStart err
  | .StartupTimeout => .StartupTimeout
  | .StopTimeout => .StopTimeout
  | .ConfigError err => .WorkerError err
  | .InitFailed => .InitFailed
  | .BootFailed => .BootFailed
  | .Signal sig => .Signal sig
  | .ExitCode code => .ExitCode code

/-- No two errors are reported with the same reason, and no error as a console request or an
exit. -/
theorem Reason.from_injective : Function.Injective Reason.from := by
  intro a b h; cases a <;> cases b <;> simp_all [Reason.from]

theorem Reason.from_ne (e : ProcessError) :
    Reason.from e ≠ .ConsoleRequest ∧ Reason.from e ≠ .Exit := by
  cases e <;> simp [Reason.from]

/-- Modelled from the spec: the messages `service.rs` takes from a `Process`. -/
inductive ServiceMessage where
  | ProcessLoaded (idx : Nat) (pid : Int)
  | ProcessFailed (idx : Nat) (pid : Int) (err : ProcessError)
  | ProcessMessage (idx : Nat) (pid : Int) (msg : WorkerMessage)
  deriving DecidableEq, Repr

/-- Modelled from the spec: the fields of a `ServiceConfig` (`config.rs`) the modelled code
reads; the command line, environment and directory a worker is run with are read only by
`exec_worker`. -/
structure ServiceConfig where
  name : String
  num : Nat
  timeout : Nat
  startup_timeout : Nat
  shutdown_timeout : Nat
  deriving DecidableEq, Repr

/-- Modelled from the spec: a `Config`, as the command center reads it. -/
structure Config where
  services : List ServiceConfig
  deriving DecidableEq, Repr

/-- What holds after a run of a state machine `f` and not before it came about at one step of the
run: the runs of the supervisor and of the command center are such folds. -/
theorem foldl_first {σ ε : Type} (f : σ → ε → σ) {P : σ → Prop} {s : σ} (h₀ : ¬P s)
    {es : List ε} (h : P (es.foldl f s)) :
    ∃ es₀ e es₁, es = es₀ ++ e :: es₁ ∧ ¬P (es₀.foldl f s) ∧ P (f (es₀.foldl f s) e) := by
  induction es using List.reverseRecOn with
  | nil => exact absurd h h₀
  | append_singleton es e ih =>
    by_cases hp : P (es.foldl f s)
    · obtain ⟨es₀, e', es₁, rfl, h₁, h₂⟩ := ih hp
      exact ⟨es₀, e', es₁ ++ [e], by simp, h₁, h₂⟩
    · exact ⟨es, e, [], by simp, hp, by rwa [List.foldl_append, List.foldl_cons,
        List.foldl_nil] at h⟩

end Fectl
