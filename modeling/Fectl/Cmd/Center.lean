import Fectl.Basic
import Mathlib.Data.List.Nodup
import Mathlib.Tactic.Simps.Basic

/-!
# The command center (`cmd.rs`)

`CommandCenter` owns the services of a configuration and answers the console: the API calls of
`impl CommandCenter`, and the commands `Stop`, `Quit`, `Reload` and `ReapWorkers` that `stop()`
and the signal streams send to its inbox, handled one at a time by `CommandCenterCommands::call`.
A global shutdown stops every service with `Reason::Exit`, waits for the completions it gets
back, and then resolves the stop-waiters and fires the terminal notifier (`exit`).

The center runs on one thread: every API call and every handler runs to its end before the next
starts. Its state is a record, and everything that can happen to it is an `Event`: an API call,
a subscribed signal or the failure of a signal stream, handling the inbox's head, the inbox
ending, a pending stop completion firing, or a service changing whether it reports `is_stopped`.
An event carries what the world answers during it: what each service's `stop` returns, and what
successive `waitpid` calls return.

A service is what the center reads of it, `is_stopped`. The calls the center makes on services
are recorded in order in `calls`, so that what it asks of them can be stated; each notifier
`stop()` hands out is a number, in the order they were made.

* `CommandCenterCommands.stopServices_eq`, `checkStopped_eq`: what the shutdown loop and the
  continuations it spawns do;
* `reap_reports_every_exit`: a `ReapWorkers` command tells every service of every child that
  `waitpid` reports gone, up to the first result that is not such a child.
-/

namespace Fectl

/-- Modelled from the spec: the state a service manager reports (`ServiceStatus`, `event.rs`). -/
inductive ServiceStatus where
  | Starting
  | Running
  | Reloading
  | Stopping
  | Stopped
  | Failed
  deriving DecidableEq, Repr

/-- Modelled from the spec: `ServiceOperationError` (`service.rs`), an operation that the state
the service is in does not allow. -/
structure ServiceOperationError where
  status : ServiceStatus
  deriving DecidableEq, Repr

/-- Modelled from the spec: what the command center reads of an `FeService` (`service.rs`),
whether it reports `is_stopped`. -/
structure FeService where
  stopped : Bool
  deriving DecidableEq, Repr

/-- Modelled from the spec: `FeService::start`, a service manager that has begun to start its
workers. -/
def FeService.start (_cfg : ServiceConfig) : FeService := ⟨false⟩

namespace Cmd

/-- Messages of the inbox can be compared. -/
instance instDecidableEqExcept {ε α : Type} [DecidableEq ε] [DecidableEq α] :
    DecidableEq (Except ε α)
  | .error a, .error b => decidable_of_iff (a = b) (by simp)
  | .ok a, .ok b => decidable_of_iff (a = b) (by simp)
  | .error _, .ok _ => isFalse nofun
  | .ok _, .error _ => isFalse nofun

/-- Command center errors (`CommandError`). -/
inductive CommandError where
  | NotReady
  | UnknownService
  | ServiceStopped
  | Service (err : ServiceOperationError)
  deriving DecidableEq, Repr

/-- The command center's state (`State`). -/
inductive State where
  | Starting
  | Running
  | Stopping
  deriving DecidableEq, Repr

/-- The commands of the inbox (`Command`). -/
inductive Command where
  | Stop
  | Quit
  | Reload
  | ReapWorkers
  deriving DecidableEq, Repr

/-- A method of `FeService` the command center calls. -/
inductive ServiceCall where
  | status
  | pids
  | startService
  | stop (graceful : Bool) (reason : Reason)
  | reload (graceful : Bool)
  | pause
  | resume
  | isStopped
  | exited (pid : Int) (err : ProcessError)
  deriving DecidableEq, Repr

/-- The calls the center still makes once it is stopping: asking a service whether it has
stopped, and telling it of a reaped child. -/
def ServiceCall.late : ServiceCall → Bool
  | .isStopped | .exited _ _ => true
  | _ => false

/-- The call that stops a service for a global shutdown. -/
def ServiceCall.isExitStop : ServiceCall → Bool
  | .stop _ .Exit => true
  | _ => false

theorem ServiceCall.late_iff (c : ServiceCall) :
    c.late ↔ c = .isStopped ∨ ∃ pid err, c = .exited pid err := by
  cases c <;> simp [late]

/-- The services by name (`HashMap<String, Rc<RefCell<FeService>>>`): its entries in an order
`values()` may visit them, with no name twice. -/
structure ServiceMap where
  entries : List (String × FeService)
  nodup : (entries.map Prod.fst).Nodup

namespace ServiceMap

/-- `HashMap::new`. -/
def empty : ServiceMap := ⟨[], List.nodup_nil⟩

/-- The names of the services, in the order `values()` visits them. -/
def names (m : ServiceMap) : List String := m.entries.map Prod.fst

/-- `HashMap::get`. -/
def get (m : ServiceMap) (name : String) : Option FeService := m.entries.lookup name

theorem map_fst_modify (l : List (String × FeService)) (name : String) (f : FeService → FeService) :
    (l.map fun e => if e.1 = name then (e.1, f e.2) else e).map Prod.fst = l.map Prod.fst := by
  induction l with
  | nil => rfl
  | cons e l ih => simp only [List.map_cons, ih]; split <;> rfl

/-- The service `name` changed by `f`, the others as they were. -/
def modify (m : ServiceMap) (name : String) (f : FeService → FeService) : ServiceMap :=
  ⟨m.entries.map fun e => if e.1 = name then (e.1, f e.2) else e,
    (map_fst_modify m.entries name f).symm ▸ m.nodup⟩

/-- `HashMap::insert`: the service `name` replaced, or added after the others. -/
def insert (m : ServiceMap) (name : String) (srv : FeService) : ServiceMap :=
  if h : name ∈ m.names then m.modify name fun _ => srv
  else ⟨m.entries ++ [(name, srv)], by
    rw [List.map_append]
    exact m.nodup.append (List.nodup_singleton _) (List.disjoint_singleton.2 h)⟩

/-- The service `name` now reports `is_stopped` as `b`. -/
def setStopped (m : ServiceMap) (name : String) (b : Bool) : ServiceMap :=
  m.modify name fun _ => ⟨b⟩

@[simp] theorem names_modify (m : ServiceMap) (name : String) (f : FeService → FeService) :
    (m.modify name f).names = m.names :=
  map_fst_modify m.entries name f

@[simp] theorem names_setStopped (m : ServiceMap) (name : String) (b : Bool) :
    (m.setStopped name b).names = m.names :=
  names_modify m name _

/-- A service found by name is one of the map's. -/
theorem mem_names_of_get {m : ServiceMap} {name : String} {srv : FeService}
    (h : m.get name = some srv) : name ∈ m.names := by
  obtain ⟨p, hp, he⟩ := List.lookup_isSome_iff.1 (Option.isSome_iff_exists.2 ⟨srv, h⟩)
  exact List.mem_map.2 ⟨p, hp, (beq_iff_eq.1 he).symm⟩

/-- An entry of a changed map is an entry of the map before, changed only if it is `name`'s. -/
theorem mem_modify {m : ServiceMap} {name : String} {f : FeService → FeService}
    {e : String × FeService} (h : e ∈ (m.modify name f).entries) :
    ∃ e₀ ∈ m.entries, e = if e₀.1 = name then (e₀.1, f e₀.2) else e₀ := by
  simpa [modify, eq_comm] using h

end ServiceMap

/-- The command center (`CommandCenter`), with what it has done so far. -/
structure CommandCenter where
  cfg : Config
  state : State
  /-- `stop`: the terminal notifier's sender, while it is held. -/
  stop_sender : Bool
  services : ServiceMap
  /-- The senders of the notifiers `stop()` returned that are not resolved yet. -/
  stop_waiters : List Nat
  /-- What was sent to `tx` and not handled yet, oldest first; `Err(())` is a failed signal
  stream. -/
  inbox : List (Except Unit Command)
  /-- The continuations `CommandCenterCommands::stop` spawned on stop completions, by the name
  of the service, that have not run yet. -/
  spawned : List String
  /-- The command service has finished: `call` or `finished` returned `Async::Ready`. -/
  done : Bool
  /-- How many notifiers `stop()` has made. -/
  waiters : Nat
  /-- What was sent on the terminal notifier. -/
  fired : List Bool
  /-- The notifiers resolved, in the order they were sent `true`. -/
  resolved : List Nat
  /-- The calls made on services, with the service's name, in order. -/
  calls : List (String × ServiceCall)

namespace CommandCenter

/-- `CommandCenter::new`. -/
def new (cfg : Config) : CommandCenter :=
  ⟨cfg, .Starting, true, .empty, [], [], [], false, 0, [], [], []⟩

/-- The command service runs: `start` has run and it has not finished. -/
def serving (st : CommandCenter) : Prop := st.state ≠ .Starting ∧ st.done = false

instance : DecidablePred serving := fun _ => inferInstanceAs (Decidable (_ ∧ _))

/-- A call of `c` on the service `name`. -/
@[simps] def invoke (st : CommandCenter) (name : String) (c : ServiceCall) : CommandCenter :=
  { st with calls := st.calls ++ [(name, c)] }

/-- The call `c` on every service, in the order `values()` visits them. -/
@[simps] def invokeAll (st : CommandCenter) (c : ServiceCall) : CommandCenter :=
  { st with calls := st.calls ++ st.services.names.map fun name => (name, c) }

/-- `CommandCenter::exit`: every stop-waiter is sent `true`, the last first, and the terminal
notifier, if it is still held, `success`. -/
@[simps] def exit (st : CommandCenter) (success : Bool) : CommandCenter :=
  { st with
    stop_waiters := []
    resolved := st.resolved ++ st.stop_waiters.reverse
    stop_sender := false
    fired := if st.stop_sender then st.fired ++ [success] else st.fired }

/-- `CommandCenter::stop`: a new notifier, numbered `st.waiters`, whose sender is kept among the
stop-waiters, and `Stop` sent to the inbox. -/
def stop (st : CommandCenter) : CommandCenter :=
  { st with
    stop_waiters := st.stop_waiters ++ [st.waiters]
    waiters := st.waiters + 1
    inbox := st.inbox ++ [.ok .Stop] }

/-- What the service-directed API calls share: only in `Running`, and on a known service, the
method `c` is called, and what it answers is returned with its error mapped by `err`. -/
def dispatch {ε α : Type} (st : CommandCenter) (name : String) (c : ServiceCall)
    (err : ε → CommandError) (answer : Except ε α) : Except CommandError α × CommandCenter :=
  match st.state with
  | .Running =>
    match st.services.get name with
    | some _ => (answer.mapError err, st.invoke name c)
    | none => (.error .UnknownService, st)
  | _ => (.error .NotReady, st)

/-- `CommandCenter::service_status`. -/
def serviceStatus (st : CommandCenter) (name : String) (status : ServiceStatus) :=
  st.dispatch name .status .Service (.ok status : Except ServiceOperationError _)

/-- `CommandCenter::service_worker_pids`. -/
def serviceWorkerPids (st : CommandCenter) (name : String) (pids : List String) :=
  st.dispatch name .pids .Service (.ok pids : Except ServiceOperationError _)

/-- `CommandCenter::start_service`. -/
def startService (st : CommandCenter) (name : String)
    (answer : Except ServiceOperationError Unit) :=
  st.dispatch name .startService .Service answer

/-- `CommandCenter::stop_service`: a service that refuses is reported stopped. -/
def stopService (st : CommandCenter) (name : String) (graceful : Bool)
    (answer : Except Unit Unit) :=
  st.dispatch name (.stop graceful .ConsoleRequest) (fun _ => .ServiceStopped) answer

/-- `CommandCenter::reload_service`. -/
def reloadService (st : CommandCenter) (name : String) (graceful : Bool)
    (answer : Except ServiceOperationError Unit) :=
  st.dispatch name (.reload graceful) .Service answer

/-- `CommandCenter::pause_service`. -/
def pauseService (st : CommandCenter) (name : String)
    (answer : Except ServiceOperationError Unit) :=
  st.dispatch name .pause .Service answer

/-- `CommandCenter::resume_service`. -/
def resumeService (st : CommandCenter) (name : String)
    (answer : Except ServiceOperationError Unit) :=
  st.dispatch name .resume .Service answer

/-- `CommandCenter::reload_all`: `reload(true)` on every service, in `Running` only; what each
answers is dropped. -/
def reloadAll (st : CommandCenter) : CommandCenter :=
  match st.state with
  | .Running => st.invokeAll (.reload true)
  | _ => st

theorem dispatch_not_running {ε α : Type} {st : CommandCenter} (h : st.state ≠ .Running)
    (name : String) (c : ServiceCall) (err : ε → CommandError) (answer : Except ε α) :
    st.dispatch name c err answer = (.error .NotReady, st) := by
  unfold dispatch; split <;> simp_all

/-- A service-directed API call leaves the center as it was, or, in `Running`, makes its call. -/
theorem dispatch_snd {ε α : Type} (st : CommandCenter) (name : String) (c : ServiceCall)
    (err : ε → CommandError) (answer : Except ε α) :
    (st.dispatch name c err answer).2 = st ∨ st.state = .Running ∧ name ∈ st.services.names ∧
      (st.dispatch name c err answer).2 = st.invoke name c := by
  unfold dispatch; split
  · split
    · exact .inr ⟨‹_›, ServiceMap.mem_names_of_get ‹_›, rfl⟩
    · exact .inl rfl
  · exact .inl rfl

theorem reloadAll_eq (st : CommandCenter) :
    st.reloadAll = if st.state = .Running then st.invokeAll (.reload true) else st := by
  unfold reloadAll; split <;> simp_all

end CommandCenter

open CommandCenter

/-- What successive `waitpid(None, Some(WNOHANG))` calls return (`WaitStatus`). -/
inductive WaitStatus where
  | Exited (pid : Int) (code : Int)
  | Signaled (pid : Int) (sig : Nat) (core : Bool)
  | Stopped (pid : Int) (sig : Nat)
  | Continued (pid : Int)
  | StillAlive
  deriving DecidableEq, Repr

/-- A result of `waitpid`: a status, or an errno. -/
abbrev WaitResult := Except Nat WaitStatus

/-- The child a result of `waitpid` reports gone, and what the services are told of it. -/
def reaped : WaitResult → Option (Int × ProcessError)
  | .ok (.Exited pid code) => some (pid, ProcessError.from code)
  | .ok (.Signaled pid sig _) => some (pid, .Signal sig)
  | _ => none

namespace CommandCenterCommands

/-- The command each signal stream `init_signals` subscribes sends; `SIGKILL` has none. -/
def initSignals : Signal → Option Command
  | .SIGHUP => some .Reload
  | .SIGTERM => some .Stop
  | .SIGINT => some .Quit
  | .SIGQUIT => some .Quit
  | .SIGCHLD => some .ReapWorkers
  | .SIGKILL => none

/-- The loop of `CommandCenterCommands::stop` over the services: `stop(graceful, Reason::Exit)`
on each, and a continuation spawned on each completion returned; `accepts name` says whether the
service `name` returned one. The flag is `waiting`. -/
def stopServices (graceful : Bool) (accepts : String → Bool) :
    List String → CommandCenter × Bool → CommandCenter × Bool
  | [], acc => acc
  | name :: names, (st, waiting) =>
    let st := st.invoke name (.stop graceful .Exit)
    if accepts name then
      stopServices graceful accepts names ({ st with spawned := st.spawned ++ [name] }, true)
    else stopServices graceful accepts names (st, waiting)

/-- `CommandCenterCommands::stop`. -/
def stop (graceful : Bool) (accepts : String → Bool) (st : CommandCenter) : CommandCenter :=
  if st.state ≠ .Stopping then
    let (st, waiting) :=
      stopServices graceful accepts st.services.names ({ st with state := .Stopping }, false)
    if waiting then st else st.exit true
  else st

/-- The continuation `stop` spawns on a completion: `is_stopped` asked of each service in turn,
up to the first that is not; if there is none, `exit(true)`. -/
def checkStopped : List (String × FeService) → CommandCenter → CommandCenter
  | [], st => st.exit true
  | (name, srv) :: rest, st =>
    let st := st.invoke name .isStopped
    if srv.stopped then checkStopped rest st else st

/-- The completion of the service `name`'s stop fires, and the continuation spawned on it runs. -/
def complete (name : String) (st : CommandCenter) : CommandCenter :=
  if name ∈ st.spawned then
    checkStopped st.services.entries { st with spawned := st.spawned.erase name }
  else st

/-- The `ReapWorkers` loop of `call`, over the results of successive `waitpid` calls: each child
reported gone is told to every service (`exited`), up to the first other result. The results it
did not read are returned with the center. -/
def reap : List WaitResult → CommandCenter → CommandCenter × List WaitResult
  | .ok (.Exited pid code) :: ws, st => reap ws (st.invokeAll (.exited pid (ProcessError.from code)))
  | .ok (.Signaled pid sig _) :: ws, st => reap ws (st.invokeAll (.exited pid (.Signal sig)))
  | _ :: ws, st => (st, ws)
  | [], st => (st, [])

/-- `CommandCenterCommands::call`, for one message of the inbox; `accepts` and `wait` are what
the services' `stop` and successive `waitpid` calls answer. An `Err` finishes the service. -/
def call (accepts : String → Bool) (wait : List WaitResult) (st : CommandCenter) :
    Except Unit Command → CommandCenter
  | .ok .Stop => stop true accepts st
  | .ok .Quit => stop false accepts st
  | .ok .Reload => st.reloadAll
  | .ok .ReapWorkers => (reap wait st).1
  | .error () => { st.exit false with done := true }

/-- `CommandCenterCommands::start`: a service started for each configured one, kept by its name,
and then `Running`. -/
def start (st : CommandCenter) : CommandCenter :=
  { st with
    services := st.cfg.services.foldl (fun m cfg => m.insert cfg.name (FeService.start cfg))
      st.services
    state := .Running }

/-- `CommandCenterCommands::finished`: the inbox has ended. -/
def finished (st : CommandCenter) : CommandCenter := { st.exit true with done := true }

/-- The shutdown loop calls `stop(graceful, Exit)` on every service, in order, and spawns a
continuation on each one that accepts. -/
theorem stopServices_eq (graceful : Bool) (accepts : String → Bool) (names : List String)
    (st : CommandCenter) (waiting : Bool) :
    stopServices graceful accepts names (st, waiting) =
      ({ st with
          calls := st.calls ++ names.map fun name => (name, .stop graceful .Exit)
          spawned := st.spawned ++ names.filter accepts },
        waiting || names.any accepts) := by
  induction names generalizing st waiting with
  | nil => simp [stopServices]
  | cons name names ih => cases h : accepts name <;> simp [stopServices, h, ih]

/-- A global shutdown, once: out of `Stopping`, `stop(graceful, Exit)` on every service, and
`exit(true)` at once if none returned a completion. -/
theorem stop_eq (graceful : Bool) (accepts : String → Bool) (st : CommandCenter) :
    stop graceful accepts st =
      if st.state ≠ .Stopping then
        let st' := { st with
          state := .Stopping
          calls := st.calls ++ st.services.names.map fun name => (name, .stop graceful .Exit)
          spawned := st.spawned ++ st.services.names.filter accepts }
        if st.services.names.any accepts then st' else st'.exit true
      else st := by
  simp only [stop, stopServices_eq, Bool.false_or]

/-- The continuation asks `is_stopped` of services, and exits when all of them are stopped. -/
theorem checkStopped_eq (es : List (String × FeService)) (st : CommandCenter) :
    ∃ new, (∀ c ∈ new, c.1 ∈ es.map Prod.fst ∧ c.2 = .isStopped) ∧
      checkStopped es st = if es.all fun e => e.2.stopped
        then { st with calls := st.calls ++ new }.exit true
        else { st with calls := st.calls ++ new } := by
  induction es generalizing st with
  | nil => exact ⟨[], by simp, by simp [checkStopped]⟩
  | cons e es ih =>
    obtain ⟨name, srv⟩ := e
    cases hs : srv.stopped
    · exact ⟨[(name, .isStopped)], by simp, by simp [checkStopped, hs, invoke]⟩
    · obtain ⟨new, hnew, heq⟩ := ih (st.invoke name .isStopped)
      refine ⟨(name, .isStopped) :: new, ?_, ?_⟩
      · simp only [List.mem_cons, List.map_cons]
        rintro c (rfl | hc)
        · exact ⟨.inl rfl, rfl⟩
        · exact (hnew c hc).imp_left .inr
      simp only [checkStopped, hs, if_true, heq, List.all_cons, Bool.true_and]
      split <;> simp

@[simp] theorem call_reap (accepts : String → Bool) (wait : List WaitResult) (st : CommandCenter) :
    call accepts wait st (.ok .ReapWorkers) = (reap wait st).1 := rfl

theorem reap_cons_some {w : WaitResult} {x : Int × ProcessError} (h : reaped w = some x)
    (ws : List WaitResult) (st : CommandCenter) :
    reap (w :: ws) st = reap ws (st.invokeAll (.exited x.1 x.2)) := by
  rcases w with _ | (_ | _ | _ | _ | _) <;> simp [reaped] at h <;> subst h <;> rfl

theorem reap_cons_none {w : WaitResult} (h : reaped w = none) (ws : List WaitResult)
    (st : CommandCenter) : reap (w :: ws) st = (st, ws) := by
  rcases w with _ | (_ | _ | _ | _ | _) <;> simp [reaped] at h <;> rfl

/-- Reading the results of `waitpid`: every child reported gone is told to every service. -/
theorem reap_append (st : CommandCenter) (pre : List WaitResult) (r : WaitResult)
    (post : List WaitResult) (hpre : ∀ w ∈ pre, (reaped w).isSome) (hr : reaped r = none) :
    let told := (pre.filterMap reaped).flatMap fun x =>
      st.services.names.map fun name => (name, ServiceCall.exited x.1 x.2)
    reap (pre ++ r :: post) st = ({ st with calls := st.calls ++ told }, post) := by
  induction pre generalizing st with
  | nil => simp [reap_cons_none hr]
  | cons w pre ih =>
    obtain ⟨x, hx⟩ := Option.isSome_iff_exists.1 (hpre w (.head _))
    simp [reap_cons_some hx, ih _ fun w hw => hpre w (.tail _ hw), hx]

/-- A `ReapWorkers` command reads the results of `waitpid` up to and including the first that is
neither `Exited` nor `Signaled`, and no further; each child reported gone before it is told to
every service once, in the order reaped. So when `waitpid` reports each exited child once and
then `StillAlive` or an error, every child reapable when the command ran is told to every service,
however many `SIGCHLD`s the one command stands for. -/
theorem reap_reports_every_exit (st : CommandCenter) (accepts : String → Bool)
    (pre : List WaitResult) (r : WaitResult) (post : List WaitResult)
    (hpre : ∀ w ∈ pre, (reaped w).isSome) (hr : reaped r = none) :
    let told := (pre.filterMap reaped).flatMap fun x =>
      st.services.names.map fun name => (name, ServiceCall.exited x.1 x.2)
    reap (pre ++ r :: post) st = ({ st with calls := st.calls ++ told }, post) ∧
      call accepts (pre ++ r :: post) st (.ok .ReapWorkers) =
        { st with calls := st.calls ++ told } ∧
      ∀ x ∈ pre.filterMap reaped, ∀ name ∈ st.services.names, (name, ServiceCall.exited x.1 x.2) ∈
        (call accepts (pre ++ r :: post) st (.ok .ReapWorkers)).calls := by
  have key := reap_append st pre r post hpre hr
  refine ⟨key, by simp [key], fun x hx name hn => ?_⟩
  simp only [call_reap, key, List.mem_append, List.mem_flatMap, List.mem_map]
  exact .inr ⟨x, hx, name, hn, rfl⟩

/-- Two children reaped, one exited with `WORKER_INIT_FAILED`, one killed by signal 9, and then
`StillAlive`: the one service is told of both. -/
theorem reap_two_children :
    let st := start (new ⟨[⟨"web", 1, 10, 10, 10⟩]⟩)
    call (fun _ => true) [.ok (.Exited 7 99), .ok (.Signaled 8 9 false), .ok .StillAlive] st
        (.ok .ReapWorkers) =
      { st with calls := [("web", .exited 7 .InitFailed), ("web", .exited 8 (.Signal 9))] } :=
  (reap_reports_every_exit _ _ [.ok (.Exited 7 99), .ok (.Signaled 8 9 false)] (.ok .StillAlive)
    [] (by decide) rfl).2.1

end CommandCenterCommands

open CommandCenterCommands

/-- The embedder's calls of the API of `CommandCenter`, with what the service answers. -/
inductive Api where
  | stop
  | serviceStatus (name : String) (status : ServiceStatus)
  | serviceWorkerPids (name : String) (pids : List String)
  | startService (name : String) (answer : Except ServiceOperationError Unit)
  | stopService (name : String) (graceful : Bool) (answer : Except Unit Unit)
  | reloadService (name : String) (graceful : Bool) (answer : Except ServiceOperationError Unit)
  | pauseService (name : String) (answer : Except ServiceOperationError Unit)
  | resumeService (name : String) (answer : Except ServiceOperationError Unit)
  | reloadAll

/-- The center an API call leaves. -/
def Api.apply : Api → CommandCenter → CommandCenter
  | .stop, st => st.stop
  | .serviceStatus name v, st => (st.serviceStatus name v).2
  | .serviceWorkerPids name v, st => (st.serviceWorkerPids name v).2
  | .startService name a, st => (st.startService name a).2
  | .stopService name g a, st => (st.stopService name g a).2
  | .reloadService name g a, st => (st.reloadService name g a).2
  | .pauseService name a, st => (st.pauseService name a).2
  | .resumeService name a, st => (st.resumeService name a).2
  | .reloadAll, st => st.reloadAll

/-- What can happen to the command center. -/
inductive Event where
  /-- The command service starts (`CommandCenterCommands::start`). -/
  | start
  | api (a : Api)
  /-- A signal arrives; the streams `init_signals` subscribed send its command. -/
  | signal (sig : Signal)
  /-- A signal stream fails, and sends `Err(())`. -/
  | signalError
  /-- The inbox's head is handled, with what services' `stop` and `waitpid` answer. -/
  | handle (accepts : String → Bool) (wait : List WaitResult)
  /-- The inbox ends. -/
  | finished
  /-- The stop completion of the service `name` fires. -/
  | complete (name : String)
  /-- The service `name` comes to report `is_stopped` as `stopped`. -/
  | service (name : String) (stopped : Bool)

/-- One event. Signals, the inbox and completions reach the center only while the command
service runs. -/
def step (e : Event) (st : CommandCenter) : CommandCenter :=
  match e with
  | .start => if st.state = .Starting then CommandCenterCommands.start st else st
  | .api a => a.apply st
  | .signal sig =>
    if st.serving then
      match initSignals sig with
      | some c => { st with inbox := st.inbox ++ [.ok c] }
      | none => st
    else st
  | .signalError => if st.serving then { st with inbox := st.inbox ++ [.error ()] } else st
  | .handle accepts wait =>
    if st.serving then
      match st.inbox with
      | [] => st
      | cmd :: rest => call accepts wait { st with inbox := rest } cmd
    else st
  | .finished => if st.serving then CommandCenterCommands.finished st else st
  | .complete name => if st.serving then complete name st else st
  | .service name b => { st with services := st.services.setStopped name b }

/-- A run of events. -/
def run (es : List Event) (st : CommandCenter) : CommandCenter :=
  es.foldl (fun st e => step e st) st

@[simp] theorem run_nil (st : CommandCenter) : run [] st = st := rfl

@[simp] theorem run_cons (e : Event) (es : List Event) (st : CommandCenter) :
    run (e :: es) st = run es (step e st) := rfl

theorem run_append (es es' : List Event) (st : CommandCenter) :
    run (es ++ es') st = run es' (run es st) := List.foldl_append _ _ _ _

theorem run_concat (es : List Event) (e : Event) (st : CommandCenter) :
    run (es ++ [e]) st = step e (run es st) := by
  rw [run_append]; rfl

/-- What every step keeps, every run keeps. -/
theorem run_invariant {P : CommandCenter → Prop} (hstep : ∀ e st, P st → P (step e st)) :
    ∀ (es : List Event) {st : CommandCenter}, P st → P (run es st)
  | [], _, h => h
  | e :: es, _, h => run_invariant hstep es (hstep e _ h)

end Fectl.Cmd
