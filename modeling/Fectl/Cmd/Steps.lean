import Fectl.Cmd.Center

/-!
# What a step of the command center can do

Every handler of `cmd.rs` changes the center in one of a few ways, and the lemmas here say so
once, function by function (`reap_eq`, `Api.apply_eq`, `stop_calls`), and then event by event:

* `step_state`: the state moves `Starting → Running` on `start`, and `Running → Stopping` on a
  `Stop` or `Quit` handled, and not otherwise;
* `step_calls`: a step appends calls on services and changes none; a shutdown's
  `stop(_, Exit)` comes only from a `Stop` or `Quit` handled in `Running`, and a center that is
  stopping calls nothing but `is_stopped` and `exited`;
* `step_pending`: completions are pended only by a shutdown, and a completion that fires is no
  longer pending;
* `state_machine_gated`: so, over every run, the state only moves forward, the API answers
  `NotReady` outside `Running` and touches no service, and once a shutdown has begun, services
  are only asked whether they have stopped and told of reaped children.
-/

namespace Fectl.Cmd

open CommandCenter CommandCenterCommands

/-- The event handles the inbox's head, `cmd`. -/
def Event.Handles (e : Event) (st : CommandCenter) (cmd : Except Unit Command) : Prop :=
  (∃ accepts wait, e = .handle accepts wait) ∧ st.serving ∧ st.inbox.head? = some cmd

/-- The event handles a `Stop`, if `graceful`, or else a `Quit`. -/
def Event.HandlesStop (e : Event) (st : CommandCenter) (graceful : Bool) : Prop :=
  e.Handles st (.ok (if graceful then .Stop else .Quit))

/-! ## Each function -/

/-- The reap loop only calls `exited`. -/
theorem reap_eq (ws : List WaitResult) (st : CommandCenter) :
    ∃ new, (∀ c ∈ new, c.1 ∈ st.services.names ∧ c.2.late) ∧
      (reap ws st).1 = { st with calls := st.calls ++ new } := by
  induction ws generalizing st with
  | nil => exact ⟨[], by simp, by simp [reap]⟩
  | cons w ws ih =>
    cases h : reaped w with
    | none => exact ⟨[], by simp, by simp [reap_cons_none h]⟩
    | some x =>
      obtain ⟨new, hn, h'⟩ := ih (st.invokeAll (.exited x.1 x.2))
      refine ⟨st.services.names.map (fun name => (name, .exited x.1 x.2)) ++ new, ?_,
        by simp [reap_cons_some h, h']⟩
      simp only [List.mem_append, List.mem_map]
      rintro c (⟨n, hn', rfl⟩ | hc)
      · exact ⟨hn', rfl⟩
      · exact hn c hc

/-- An API call makes a stop-waiter, or makes console calls, in `Running` only. -/
theorem Api.apply_eq (a : Api) (st : CommandCenter) :
    a.apply st = st.stop ∨ ∃ new, (new ≠ [] → st.state = .Running) ∧
      (∀ c ∈ new, c.1 ∈ st.services.names ∧ c.2.late = false ∧ c.2.isExitStop = false) ∧
      a.apply st = { st with calls := st.calls ++ new } := by
  have d : ∀ {ε α : Type} (name : String) (c : ServiceCall) (err : ε → CommandError)
      (answer : Except ε α), c.late = false → c.isExitStop = false →
      ∃ new, (new ≠ [] → st.state = .Running) ∧
        (∀ x ∈ new, x.1 ∈ st.services.names ∧ x.2.late = false ∧ x.2.isExitStop = false) ∧
        (st.dispatch name c err answer).2 = { st with calls := st.calls ++ new } := by
    intro ε α name c err answer h₁ h₂
    rcases dispatch_snd st name c err answer with h | ⟨hr, hn, h⟩
    · exact ⟨[], by simp, by simp, by simp [h]⟩
    · exact ⟨[(name, c)], fun _ => hr, by simp [hn, h₁, h₂], h⟩
  cases a with
  | stop => exact .inl rfl
  | reloadAll =>
    refine .inr ?_
    rw [Api.apply, reloadAll_eq]
    split
    · refine ⟨_, fun _ => ‹_›, fun c hc => ?_, rfl⟩
      obtain ⟨n, hn, rfl⟩ := List.mem_map.1 hc
      exact ⟨hn, rfl, rfl⟩
    · exact ⟨[], by simp, by simp, by simp⟩
  | _ => exact .inr (d _ _ _ _ rfl rfl)

theorem stop_calls (graceful : Bool) (accepts : String → Bool) (st : CommandCenter) :
    (stop graceful accepts st).calls = if st.state ≠ .Stopping
      then st.calls ++ st.services.names.map fun name => (name, .stop graceful .Exit)
      else st.calls := by
  rw [stop_eq]; split <;> (try split) <;> simp

theorem stop_state (graceful : Bool) (accepts : String → Bool) (st : CommandCenter) :
    (stop graceful accepts st).state = .Stopping := by
  rw [stop_eq]; split <;> (try split) <;> simp_all

theorem checkStopped_state (es : List (String × FeService)) (st : CommandCenter) :
    (checkStopped es st).state = st.state := by
  obtain ⟨new, -, h⟩ := checkStopped_eq es st
  rw [h]; split <;> rfl

theorem checkStopped_spawned (es : List (String × FeService)) (st : CommandCenter) :
    (checkStopped es st).spawned = st.spawned := by
  obtain ⟨new, -, h⟩ := checkStopped_eq es st
  rw [h]; split <;> rfl

theorem Api.apply_state (a : Api) (st : CommandCenter) : (a.apply st).state = st.state := by
  rcases Api.apply_eq a st with h | ⟨new, -, -, h⟩ <;> simp [h, CommandCenter.stop]

/-- Handling one message: a shutdown's `stop`, calls only, or an error that exits. -/
theorem call_cases (accepts : String → Bool) (wait : List WaitResult) (st : CommandCenter)
    (cmd : Except Unit Command) :
    (∃ g, cmd = .ok (if g then .Stop else .Quit) ∧ call accepts wait st cmd = stop g accepts st) ∨
    (∃ new, (∀ c ∈ new, c.1 ∈ st.services.names ∧
        (c.2.late ∨ st.state = .Running ∧ c.2.isExitStop = false)) ∧
      call accepts wait st cmd = { st with calls := st.calls ++ new }) ∨
    cmd = .error () ∧ call accepts wait st cmd = { st.exit false with done := true } := by
  rcases cmd with _ | (_ | _ | _ | _)
  · exact .inr (.inr ⟨rfl, rfl⟩)
  · exact .inl ⟨true, rfl, rfl⟩
  · exact .inl ⟨false, rfl, rfl⟩
  · refine .inr (.inl ?_)
    simp only [call, reloadAll_eq]
    split
    · refine ⟨_, fun c hc => ?_, rfl⟩
      obtain ⟨n, hn, rfl⟩ := List.mem_map.1 hc
      exact ⟨hn, .inr ⟨‹_›, rfl⟩⟩
    · exact ⟨[], by simp, by simp⟩
  · obtain ⟨new, hn, h⟩ := reap_eq wait st
    exact .inr (.inl ⟨new, fun c hc => ⟨(hn c hc).1, .inl (hn c hc).2⟩, h⟩)

/-! ## Each event -/

/-- Everything a step can do: nothing; `start`; an API call; queue a message; handle the
inbox's head; finish on the inbox's end; run the continuation of a pending completion; or record
a service's own change. -/
theorem step_cases (e : Event) (st : CommandCenter) :
    step e st = st ∨
    e = .start ∧ st.state = .Starting ∧ step e st = start st ∨
    (∃ a, e = .api a ∧ step e st = a.apply st) ∨
    (∃ c, (c = .error () → e = .signalError) ∧
      step e st = { st with inbox := st.inbox ++ [c] }) ∨
    (∃ accepts wait cmd rest, e = .handle accepts wait ∧ st.serving ∧ st.inbox = cmd :: rest ∧
      step e st = call accepts wait { st with inbox := rest } cmd) ∨
    e = .finished ∧ st.serving ∧ step e st = finished st ∨
    (∃ name, e = .complete name ∧ st.serving ∧ name ∈ st.spawned ∧
      step e st = checkStopped st.services.entries { st with spawned := st.spawned.erase name }) ∨
    ∃ name b, e = .service name b ∧
      step e st = { st with services := st.services.setStopped name b } := by
  cases e with
  | start =>
    by_cases hs : st.state = .Starting
    · exact .inr (.inl ⟨rfl, hs, if_pos hs⟩)
    · exact .inl (if_neg hs)
  | api a => exact .inr (.inr (.inl ⟨a, rfl, rfl⟩))
  | signal sig =>
    by_cases hs : st.serving
    · cases hc : initSignals sig with
      | none => exact .inl (by simp [step, hs, hc])
      | some c => exact .inr (.inr (.inr (.inl ⟨.ok c, nofun, by simp [step, hs, hc]⟩)))
    · exact .inl (by simp [step, hs])
  | signalError =>
    by_cases hs : st.serving
    · exact .inr (.inr (.inr (.inl ⟨.error (), fun _ => rfl, by simp [step, hs]⟩)))
    · exact .inl (by simp [step, hs])
  | handle accepts wait =>
    by_cases hs : st.serving
    · cases hin : st.inbox with
      | nil => exact .inl (by simp [step, hs, hin])
      | cons cmd rest =>
        exact .inr (.inr (.inr (.inr (.inl ⟨accepts, wait, cmd, rest, rfl, hs, rfl,
          by simp [step, hs, hin]⟩))))
    · exact .inl (by simp [step, hs])
  | finished =>
    by_cases hs : st.serving
    · exact .inr (.inr (.inr (.inr (.inr (.inl ⟨rfl, hs, if_pos hs⟩)))))
    · exact .inl (if_neg hs)
  | complete name =>
    by_cases hs : st.serving
    · by_cases hn : name ∈ st.spawned
      · exact .inr (.inr (.inr (.inr (.inr (.inr (.inl ⟨name, rfl, hs, hn,
          by simp [step, hs, complete, hn]⟩))))))
      · exact .inl (by simp [step, hs, complete, hn])
    · exact .inl (by simp [step, hs])
  | service name b => exact .inr (.inr (.inr (.inr (.inr (.inr (.inr ⟨name, b, rfl, rfl⟩))))))

theorem Event.handles_of (accepts : String → Bool) (wait : List WaitResult)
    {st : CommandCenter} {cmd : Except Unit Command} {rest : List (Except Unit Command)}
    (hs : st.serving) (hin : st.inbox = cmd :: rest) : (Event.handle accepts wait).Handles st cmd :=
  ⟨⟨accepts, wait, rfl⟩, hs, by simp [hin]⟩

theorem running_of_serving {st : CommandCenter} (hs : st.serving) (hr : st.state ≠ .Stopping) :
    st.state = .Running := by
  cases h : st.state <;> simp_all [serving]

/-- The state moves `Starting → Running` on `start`, and `Running → Stopping` on a `Stop` or
`Quit` handled. -/
theorem step_state (e : Event) (st : CommandCenter) :
    (step e st).state = st.state ∨
      st.state = .Starting ∧ e = .start ∧ (step e st).state = .Running ∨
      st.state = .Running ∧ (∃ g, e.HandlesStop st g) ∧ (step e st).state = .Stopping := by
  rcases step_cases e st with h | ⟨rfl, hs, h⟩ | ⟨a, -, h⟩ | ⟨c, -, h⟩ |
      ⟨accepts, wait, cmd, rest, rfl, hs, hin, h⟩ | ⟨-, -, h⟩ | ⟨name, -, -, -, h⟩ |
      ⟨name, b, -, h⟩ <;> rw [h]
  · exact .inl rfl
  · exact .inr (.inl ⟨hs, rfl, rfl⟩)
  · exact .inl (Api.apply_state a st)
  · exact .inl rfl
  · rcases call_cases accepts wait { st with inbox := rest } cmd with
      ⟨g, rfl, hc⟩ | ⟨new, -, hc⟩ | ⟨-, hc⟩ <;> rw [hc]
    · by_cases hr : st.state = .Stopping
      · exact .inl ((stop_state _ _ _).trans hr.symm)
      · exact .inr (.inr ⟨running_of_serving hs hr, ⟨g, Event.handles_of accepts wait hs hin⟩,
          stop_state _ _ _⟩)
    · exact .inl rfl
    · exact .inl rfl
  · exact .inl rfl
  · exact .inl (checkStopped_state _ _)
  · exact .inl rfl

/-- What a step does to the completions pending and to the command service's end: a shutdown
out of `Stopping` pends one for each service that accepted its `stop`, and a completion that
fires is no longer pending; the command service finishes only where the center exits, and the
terminal notifier's sender, once dropped, stays dropped. -/
theorem step_pending (e : Event) (st : CommandCenter) :
    ((step e st).spawned = st.spawned ∨
      (∃ name, e = .complete name ∧ st.serving ∧ name ∈ st.spawned ∧
        (step e st).spawned = st.spawned.erase name) ∨
      st.state ≠ .Stopping ∧ ∃ accepts wait, e = .handle accepts wait ∧
        (step e st).spawned = st.spawned ++ st.services.names.filter accepts) ∧
    ((step e st).done = true → st.done = true ∨ (step e st).stop_sender = false) ∧
    (st.stop_sender = false → (step e st).stop_sender = false) := by
  rcases step_cases e st with h | ⟨rfl, -, h⟩ | ⟨a, -, h⟩ | ⟨c, -, h⟩ |
      ⟨accepts, wait, cmd, rest, rfl, -, -, h⟩ | ⟨-, -, h⟩ | ⟨name, rfl, hs, hn, h⟩ |
      ⟨name, b, -, h⟩ <;> rw [h]
  · exact ⟨.inl rfl, .inl, id⟩
  · exact ⟨.inl rfl, .inl, id⟩
  · rcases Api.apply_eq a st with h' | ⟨new, -, -, h'⟩ <;> rw [h'] <;> exact ⟨.inl rfl, .inl, id⟩
  · exact ⟨.inl rfl, .inl, id⟩
  · rcases call_cases accepts wait { st with inbox := rest } cmd with
      ⟨g, -, hc⟩ | ⟨new, -, hc⟩ | ⟨-, hc⟩ <;> rw [hc]
    · rw [stop_eq]
      split
      · rename_i hs
        split
        · exact ⟨.inr (.inr ⟨hs, accepts, wait, rfl, rfl⟩), .inl, id⟩
        · exact ⟨.inr (.inr ⟨hs, accepts, wait, rfl, rfl⟩), .inl, fun _ => rfl⟩
      · exact ⟨.inl rfl, .inl, id⟩
    · exact ⟨.inl rfl, .inl, id⟩
    · exact ⟨.inl rfl, fun _ => .inr rfl, fun _ => rfl⟩
  · exact ⟨.inl rfl, fun _ => .inr rfl, fun _ => rfl⟩
  · obtain ⟨new, -, hc⟩ := checkStopped_eq st.services.entries
      { st with spawned := st.spawned.erase name }
    rw [hc]
    split
    · exact ⟨.inr (.inl ⟨name, rfl, hs, hn, rfl⟩), .inl, fun _ => rfl⟩
    · exact ⟨.inr (.inl ⟨name, rfl, hs, hn, rfl⟩), .inl, id⟩
  · exact ⟨.inl rfl, .inl, id⟩

/-- A step appends calls on services it owns. A shutdown's `stop(_, Exit)` is called only by a
`Stop` or `Quit` handled in `Running`, and out of `Running` only `is_stopped` and `exited` are
called. -/
theorem step_calls (e : Event) (st : CommandCenter) :
    ∃ new, (step e st).calls = st.calls ++ new ∧ ∀ c ∈ new, c.1 ∈ st.services.names ∧
      (c.2.late ∨ st.state = .Running ∧ (c.2.isExitStop → ∃ g, e.HandlesStop st g)) := by
  rcases step_cases e st with h | ⟨rfl, -, h⟩ | ⟨a, -, h⟩ | ⟨c, -, h⟩ |
      ⟨accepts, wait, cmd, rest, rfl, hs, hin, h⟩ | ⟨-, -, h⟩ | ⟨name, -, -, -, h⟩ |
      ⟨name, b, -, h⟩ <;> rw [h]
  · exact ⟨[], by simp, by simp⟩
  · exact ⟨[], by simp [start], by simp⟩
  · rcases Api.apply_eq a st with h' | ⟨new, hr, hn, h'⟩ <;> rw [h']
    · exact ⟨[], by simp [CommandCenter.stop], by simp⟩
    · exact ⟨new, rfl, fun c hc => ⟨(hn c hc).1, .inr ⟨hr (List.ne_nil_of_mem hc),
        by simp [(hn c hc).2.2]⟩⟩⟩
  · exact ⟨[], by simp, by simp⟩
  · rcases call_cases accepts wait { st with inbox := rest } cmd with
      ⟨g, rfl, hc⟩ | ⟨new, hn, hc⟩ | ⟨-, hc⟩ <;> rw [hc]
    · by_cases hr : st.state = .Stopping
      · exact ⟨[], by simp [stop_calls, hr], by simp⟩
      · refine ⟨st.services.names.map fun name => (name, .stop g .Exit), by simp [stop_calls, hr],
          fun c hc => ?_⟩
        obtain ⟨n, hn, rfl⟩ := List.mem_map.1 hc
        exact ⟨hn, .inr ⟨running_of_serving hs hr, fun _ => ⟨g, Event.handles_of accepts wait hs hin⟩⟩⟩
    · exact ⟨new, rfl, fun c hc => ⟨(hn c hc).1, (hn c hc).2.imp_right fun h => ⟨h.1, by simp [h.2]⟩⟩⟩
    · exact ⟨[], by simp, by simp⟩
  · exact ⟨[], by simp [finished], by simp⟩
  · obtain ⟨new, hn, hc⟩ := checkStopped_eq st.services.entries
      { st with spawned := st.spawned.erase name }
    exact ⟨new, by rw [hc]; split <;> simp,
      fun c hc' => ⟨(hn c hc').1, .inl (by simp [(hn c hc').2, ServiceCall.late])⟩⟩
  · exact ⟨[], by simp, by simp⟩

/-! ## Runs -/

theorem step_stopping {e : Event} {st : CommandCenter} (h : st.state = .Stopping) :
    (step e st).state = .Stopping := by
  rcases step_state e st with h' | ⟨h', -⟩ | ⟨h', -⟩ <;> simp_all

/-- Once stopping, the center calls nothing but `is_stopped` and `exited`. -/
theorem run_calls_stopping (es : List Event) {st : CommandCenter} (h : st.state = .Stopping) :
    ∃ later, (run es st).calls = st.calls ++ later ∧ ∀ c ∈ later, c.2.late := by
  induction es generalizing st with
  | nil => exact ⟨[], by simp, by simp⟩
  | cons e es ih =>
    obtain ⟨new, h₁, h₂⟩ := step_calls e st
    obtain ⟨later, h₃, h₄⟩ := ih (@step_stopping e st h)
    refine ⟨new ++ later, by simp [h₃, h₁], ?_⟩
    simp only [List.mem_append]
    rintro c (hc | hc)
    · exact (h₂ c hc).2.resolve_right (by simp [h])
    · exact h₄ c hc

/-- The command center's state only moves `Starting → Running` (on `start`) and
`Running → Stopping` (on a `Stop` or `Quit` handled), and never leaves `Stopping`. Every
service-directed API call made out of `Running` answers `NotReady` and leaves the center, and so
its services, as they were, and `reload_all` does nothing. Once a global shutdown has begun, the
center only asks services whether they have stopped and tells them of reaped children: no
`start_service`, `reload`, `pause`, `resume` or `stop(_, ConsoleRequest)` again, whatever
console requests and signals arrive. -/
theorem state_machine_gated :
    (∀ e st, (step e st).state = st.state ∨
      st.state = .Starting ∧ e = .start ∧ (step e st).state = .Running ∨
      st.state = .Running ∧ (∃ g, e.HandlesStop st g) ∧ (step e st).state = .Stopping) ∧
    (∀ st : CommandCenter, st.state ≠ .Running →
      (∀ name v, st.serviceStatus name v = (.error .NotReady, st)) ∧
      (∀ name v, st.serviceWorkerPids name v = (.error .NotReady, st)) ∧
      (∀ name a, st.startService name a = (.error .NotReady, st)) ∧
      (∀ name g a, st.stopService name g a = (.error .NotReady, st)) ∧
      (∀ name g a, st.reloadService name g a = (.error .NotReady, st)) ∧
      (∀ name a, st.pauseService name a = (.error .NotReady, st)) ∧
      (∀ name a, st.resumeService name a = (.error .NotReady, st)) ∧
      st.reloadAll = st) ∧
    ∀ (st : CommandCenter) es, st.state = .Stopping →
      (run es st).state = .Stopping ∧ ∃ later, (run es st).calls = st.calls ++ later ∧
        ∀ c ∈ later, c.2 = .isStopped ∨ ∃ pid err, c.2 = .exited pid err := by
  refine ⟨step_state, fun st h => ?_, fun st es h => ⟨?_, ?_⟩⟩
  · simp [serviceStatus, serviceWorkerPids, startService, stopService, reloadService,
      pauseService, resumeService, dispatch_not_running h, reloadAll_eq, h]
  · exact @run_invariant (fun st => st.state = .Stopping) (fun _ _ => step_stopping) es st h
  · obtain ⟨later, h₁, h₂⟩ := run_calls_stopping es h
    exact ⟨later, h₁, fun c hc => (ServiceCall.late_iff c.2).1 (h₂ c hc)⟩

end Fectl.Cmd
