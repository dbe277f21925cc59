import Fectl.Basic
import Mathlib.Tactic.Simps.Basic

/-!
# The process supervisor and its handlers

A `Process` supervises one worker from a `FramedContext`. `Sup` is a supervisor between two
events: the actor, the clock, the timer futures its context holds, whether the context still
runs, and what it has sent, to its service (`log`), down the pipe (`sent`) and as signals to
its worker (`signals`). Every handler of `process.rs` is a function on `Sup`, and `step` hands
one event to them: a frame from the pipe, a timer firing, the clock moving on, a command from
the service, or the end of the pipe.

`Timeout::new(..).unwrap()` is taken to succeed: its failure is a panic, and no run goes on
after one. `StopProcess` handles the failure itself, so it is an argument of that event.
-/

namespace Fectl

/-- `HEARTBEAT`: seconds from one heartbeat to the next. -/
def HEARTBEAT : Nat := 2

/-- `Duration::new(secs, nanos)`, in nanoseconds, the unit of the clock. -/
def Duration.new (secs nanos : Nat) : Nat := secs * 1000000000 + nanos

/-- The `ProcessMessage`s a timer future is mapped to. -/
inductive TimerMsg where
  | StartupTimeout
  | StopTimeout
  | Heartbeat
  | Kill
  deriving DecidableEq, Repr

def TimerMsg.toMessage : TimerMsg → ProcessMessage
  | .StartupTimeout => .StartupTimeout
  | .StopTimeout => .StopTimeout
  | .Heartbeat => .Heartbeat
  | .Kill => .Kill

/-- A `Timeout` future added with `ctx.add_future`, due at `due`, mapped to `msg`. -/
structure Timeout where
  msg : TimerMsg
  due : Nat
  deriving DecidableEq, Repr

/-- `Process`, but for `addr`: what it sends there is `Sup.log`. -/
structure Process where
  idx : Nat
  pid : Int
  state : ProcessState
  hb : Nat
  timeout : Nat
  startup_timeout : Nat
  shutdown_timeout : Nat
  deriving DecidableEq, Repr

/-- A supervisor between two events. `ctx.stop()` and `ctx.terminate()` clear `alive`: a
stopped context handles nothing more, and none of its futures fires. -/
structure Sup where
  proc : Process
  now : Nat
  timers : List Timeout
  alive : Bool
  log : List ServiceMessage
  sent : List WorkerCommand
  signals : List Signal
  deriving DecidableEq, Repr

namespace Sup

/-- `self.addr.send(m)`. -/
@[simps] def send (s : Sup) (m : ServiceMessage) : Sup := { s with log := s.log ++ [m] }

/-- `ctx.send(w)`: a frame down the pipe. -/
@[simps] def write (s : Sup) (w : WorkerCommand) : Sup := { s with sent := s.sent ++ [w] }

/-- `kill(self.pid, sig)`. -/
@[simps] def signal (s : Sup) (sig : Signal) : Sup := { s with signals := s.signals ++ [sig] }

/-- `ctx.add_future(Timeout::new(Duration::new(secs, 0), ..).unwrap().map(|_| msg))`. -/
@[simps] def addTimer (s : Sup) (msg : TimerMsg) (secs : Nat) : Sup :=
  { s with timers := s.timers ++ [⟨msg, s.now + Duration.new secs 0⟩] }

/-- `self.state = st`. -/
@[simps] def setState (s : Sup) (st : ProcessState) : Sup :=
  { s with proc := { s.proc with state := st } }

/-- `self.hb = Instant::now()`. -/
@[simps] def touch (s : Sup) : Sup := { s with proc := { s.proc with hb := s.now } }

/-- `ctx.stop()` and `ctx.terminate()`. -/
@[simps] def stop (s : Sup) : Sup := { s with alive := false }

end Sup

/-- The states in the order a supervisor goes through them. -/
def ProcessState.rank : ProcessState → Nat
  | .Starting => 0
  | .Running => 1
  | .Stopping => 2
  | .Failed => 3

namespace Process

/-- The supervisor `Process::create_framed` starts: `Starting`, with a `StartupTimeout` due
`startup_timeout` seconds from `now`. -/
def createFramed (idx : Nat) (cfg : ServiceConfig) (pid : Int) (now : Nat) : Sup where
  proc :=
    { idx, pid, state := .Starting, hb := now, timeout := Duration.new cfg.timeout 0,
      startup_timeout := cfg.startup_timeout, shutdown_timeout := cfg.shutdown_timeout }
  now := now
  timers := [⟨.StartupTimeout, now + Duration.new cfg.startup_timeout 0⟩]
  alive := true
  log := []
  sent := []
  signals := []

/-- `Process::start`, given what `Process::fork` returns (the child's pid, or the error's
text): the pid and the supervisor it returns, and what it sent to its service. -/
def start (idx : Nat) (cfg : ServiceConfig) (fork : Except String Int) (now : Nat) :
    (Int × Option Sup) × List ServiceMessage :=
  match fork with
  | .error err => ((-1, none), [.ProcessFailed idx (-1) (.FailedToStart (some err))])
  | .ok pid => ((pid, some (createFramed idx cfg pid now)), [])

/-- `Process::kill`: if graceful, a `Kill` in a second; otherwise `SIGKILL`, and the end. -/
def kill (s : Sup) (graceful : Bool) : Sup :=
  if graceful then s.addTimer .Kill 1 else (s.signal .SIGKILL).stop

/-- `Handler<ProcessMessage>::handle`. -/
def handle (msg : ProcessMessage) (s : Sup) : Sup :=
  match msg with
  | .Message .forked => s.write .prepare
  | .Message .loaded =>
    match s.proc.state with
    | .Starting =>
      ((s.send (.ProcessLoaded s.proc.idx s.proc.pid)).setState .Running).touch.addTimer
        .Heartbeat HEARTBEAT
    | _ => s
  | .Message .hb => s.touch
  | .Message .reload => s.send (.ProcessMessage s.proc.idx s.proc.pid .reload)
  | .Message .restart => s.send (.ProcessMessage s.proc.idx s.proc.pid .restart)
  | .Message (.cfgerror msg) => s.send (.ProcessFailed s.proc.idx s.proc.pid (.ConfigError msg))
  | .StartupTimeout =>
    match s.proc.state with
    | .Starting =>
      (((s.send (.ProcessFailed s.proc.idx s.proc.pid .StartupTimeout)).setState .Failed).signal
        .SIGKILL).stop
    | _ => s
  | .StopTimeout =>
    match s.proc.state with
    | .Stopping =>
      (((s.send (.ProcessFailed s.proc.idx s.proc.pid .StopTimeout)).setState .Failed).signal
        .SIGKILL).stop
    | _ => s
  | .Heartbeat =>
    match s.proc.state with
    | .Running =>
      if s.now - s.proc.hb > s.proc.timeout then
        s.send (.ProcessFailed s.proc.idx s.proc.pid .Heartbeat)
      else (s.write .hb).addTimer .Heartbeat HEARTBEAT
    | _ => s
  | .Kill => (s.signal .SIGKILL).stop

/-- `Handler<SendCommand>::handle`. -/
def handleSendCommand (w : WorkerCommand) (s : Sup) : Sup := s.write w

/-- `Handler<StartProcess>::handle`. -/
def handleStartProcess (s : Sup) : Sup := s.write .start

/-- `Handler<PauseProcess>::handle`. -/
def handlePauseProcess (s : Sup) : Sup := s.write .pause

/-- `Handler<ResumeProcess>::handle`. -/
def handleResumeProcess (s : Sup) : Sup := s.write .resume

/-- `Handler<StopProcess>::handle`; `timeoutOk` is whether `Timeout::new` succeeds. -/
def handleStopProcess (timeoutOk : Bool) (s : Sup) : Sup :=
  match s.proc.state with
  | .Running =>
    let s := (s.write .stop).setState .Stopping
    if timeoutOk then (s.addTimer .StopTimeout s.proc.shutdown_timeout).signal .SIGTERM
    else (s.signal .SIGQUIT).stop
  | _ => (s.signal .SIGQUIT).stop

/-- `Handler<QuitProcess>::handle`. -/
def handleQuitProcess (graceful : Bool) (s : Sup) : Sup :=
  if graceful then kill (s.signal .SIGQUIT) true
  else ((kill s false).signal .SIGKILL).stop

/-- What reaches a supervisor. -/
inductive Event where
  /-- A frame decoded from the pipe. -/
  | frame (msg : WorkerMessage)
  /-- A timer future completes. -/
  | fire (t : Timeout)
  /-- The clock moves on. -/
  | tick (d : Nat)
  | sendCommand (w : WorkerCommand)
  | startProcess
  | pauseProcess
  | resumeProcess
  | stopProcess (timeoutOk : Bool)
  | quitProcess (graceful : Bool)
  /-- The pipe's stream ends (`StreamHandler::finished`). -/
  | finished
  /-- The pipe's stream fails (`Handler::error`). -/
  | error
  deriving DecidableEq, Repr

/-- An event, as a running context delivers it. -/
def deliver (e : Event) (s : Sup) : Sup :=
  match e with
  | .frame m => handle (.Message m) s
  | .fire t => if t ∈ s.timers then handle t.msg.toMessage { s with timers := s.timers.erase t }
    else s
  | .tick d => { s with now := s.now + d }
  | .sendCommand w => handleSendCommand w s
  | .startProcess => handleStartProcess s
  | .pauseProcess => handlePauseProcess s
  | .resumeProcess => handleResumeProcess s
  | .stopProcess ok => handleStopProcess ok s
  | .quitProcess graceful => handleQuitProcess graceful s
  | .finished => kill s false
  | .error => kill s false

/-- One event: a stopped context ignores it. -/
def step (e : Event) (s : Sup) : Sup := if s.alive then deliver e s else s

/-- The supervisor after the events `es`, in order. -/
def run (es : List Event) (s : Sup) : Sup := es.foldl (fun s e => step e s) s

@[simp] theorem run_nil (s : Sup) : run [] s = s := rfl

@[simp] theorem run_cons (e : Event) (es : List Event) (s : Sup) :
    run (e :: es) s = run es (step e s) := rfl

theorem run_append (es es' : List Event) (s : Sup) : run (es ++ es') s = run es' (run es s) :=
  List.foldl_append _ _ _ _

theorem run_concat (es : List Event) (e : Event) (s : Sup) :
    run (es ++ [e]) s = step e (run es s) := by
  rw [run_append]; rfl

/-- What holds of a supervisor and is kept by every step holds after every run. -/
theorem run_invariant {P : Sup → Prop} (hstep : ∀ e s, P s → P (step e s)) (es : List Event)
    {s : Sup} (h : P s) : P (run es s) := by
  induction es generalizing s with
  | nil => exact h
  | cons e es ih => exact ih (hstep e s h)

/-- What holds after a run and not before it came about at one step of the run. -/
theorem run_first {P : Sup → Prop} {s : Sup} (h₀ : ¬P s) {es : List Event}
    (h : P (run es s)) :
    ∃ es₀ e es₁, es = es₀ ++ e :: es₁ ∧ ¬P (run es₀ s) ∧ P (step e (run es₀ s)) :=
  foldl_first _ h₀ h

/-! ## A stopped context -/

theorem step_of_not_alive (e : Event) {s : Sup} (h : s.alive = false) : step e s = s := by
  simp [step, h]

theorem alive_of_step {e : Event} {s : Sup} (h : (step e s).alive) : s.alive := by
  by_contra ha; simp_all [step_of_not_alive]

end Process

end Fectl
