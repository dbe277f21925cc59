import Fectl.Cmd.Steps

/-!
# Global shutdown

What a shutdown promises: the first `Stop` or `Quit` handled stops every service once, with
`Reason::Exit`; the terminal notifier fires once; and once every service has stopped, the
notifier has fired with `true` and the callers of `stop()` have been answered.

The notifiers are the part of the center its callers see. `Notifiers` keeps only them, and
`step_notifiers` shows that a step does one of three things to them: nothing, make a stop-waiter
(`Notifiers.wait`), or exit (`Notifiers.exit`), and says when it exits. Whatever these three
keep, every run keeps (`run_notifiers`).

Completions are tracked by `Tracked` (each pending once) and `Gone` (a completion that has fired
is no longer pending, unless the center has exited), so that the end of a shutdown can be read
off the events of a run (`run_gone`).

* `shutdown_law`: the shutdown, stated over every run: (i) the first `Stop` or `Quit` handled
  calls `stop(graceful, Exit)` on every service, once, and nothing calls it again; (ii) the
  terminal notifier fires at most once; (iii) where services behave (`Fair`), a shutdown with no
  completion pending has fired the notifier with `true` and resolved every stop-waiter made
  before; (iv) read off the run's events: once the completion of every service that accepted
  its `stop` has fired after the shutdown, the notifier has fired with `true`;
* `stop_waiters_stranded`: a stopping center with no completion pending never resolves a
  stop-waiter again, so a `stop()` made after the exit is never answered.
-/

namespace Fectl.Cmd

open CommandCenter CommandCenterCommands

/-! ## The notifiers -/

/-- The notifiers of the center: the terminal notifier, and those `stop()` hands out. -/
structure Notifiers where
  stop_sender : Bool
  fired : List Bool
  stop_waiters : List Nat
  resolved : List Nat
  waiters : Nat
  deriving DecidableEq, Repr

namespace Notifiers

/-- A caller of `stop()` gets a new notifier. -/
def wait (n : Notifiers) : Notifiers :=
  { n with stop_waiters := n.stop_waiters ++ [n.waiters], waiters := n.waiters + 1 }

/-- The center exits: every stop-waiter is resolved, and the terminal notifier fires if it has
not yet. -/
def exit (n : Notifiers) (success : Bool) : Notifiers :=
  { n with
    stop_waiters := []
    resolved := n.resolved ++ n.stop_waiters.reverse
    stop_sender := false
    fired := if n.stop_sender then n.fired ++ [success] else n.fired }

/-- The terminal notifier fires at most once, and not while its sender is held. -/
structure Good (n : Notifiers) : Prop where
  fired_le : n.fired.length ≤ 1
  held : n.stop_sender = true → n.fired = []
  /-- Every notifier made is held or resolved. -/
  made : ∀ w < n.waiters, w ∈ n.stop_waiters ∨ w ∈ n.resolved

theorem Good.wait {n : Notifiers} (g : n.Good) : n.wait.Good := by
  refine ⟨g.fired_le, g.held, fun w hw => ?_⟩
  simp only [Notifiers.wait, List.mem_append, List.mem_singleton] at hw ⊢
  rcases Nat.lt_succ_iff_lt_or_eq.1 hw with hw | rfl
  · exact (g.made w hw).imp_left .inl
  · exact .inl (.inr rfl)

theorem Good.exit {n : Notifiers} (g : n.Good) (b : Bool) : (n.exit b).Good := by
  refine ⟨?_, by simp [Notifiers.exit], fun w hw => .inr ?_⟩
  · cases h : n.stop_sender <;> simp [Notifiers.exit, h, g.fired_le, g.held]
  · rcases g.made w hw with h | h <;> simp [Notifiers.exit, h]

/-- A stop-waiter made before the terminal notifier fired is resolved by the time it fires. -/
def Answers (w : Nat) (n : Notifiers) : Prop :=
  w ∈ n.resolved ∨ w ∈ n.stop_waiters ∧ n.fired = []

theorem Answers.wait {w : Nat} {n : Notifiers} (h : Answers w n) : Answers w n.wait := by
  rcases h with h | ⟨h, hf⟩
  · exact .inl h
  · exact .inr ⟨by simp [Notifiers.wait, h], hf⟩

theorem Answers.exit {w : Nat} {n : Notifiers} (h : Answers w n) (b : Bool) :
    Answers w (n.exit b) := by
  rcases h with h | ⟨h, -⟩ <;> simp [Answers, Notifiers.exit, h]

end Notifiers

/-- The notifiers of a command center. -/
def CommandCenter.notifiers (st : CommandCenter) : Notifiers :=
  ⟨st.stop_sender, st.fired, st.stop_waiters, st.resolved, st.waiters⟩

theorem CommandCenter.notifiers_exit (st : CommandCenter) (b : Bool) :
    (st.exit b).notifiers = st.notifiers.exit b := rfl

/-- What a step does to the notifiers: nothing, a new stop-waiter, or an exit. An exit is
`exit(false)` only on an inbox error, and it comes from a shutdown in which no service returned
a completion, from a pending completion, from the inbox ending, or from an inbox error. -/
theorem step_notifiers (e : Event) (st : CommandCenter) :
    (step e st).notifiers = st.notifiers ∨ (step e st).notifiers = st.notifiers.wait ∨
    ∃ b, (step e st).notifiers = st.notifiers.exit b ∧ (b = false → e.Handles st (.error ())) ∧
      (st.state ≠ .Stopping ∧ (∃ g, e.HandlesStop st g) ∨ (∃ name ∈ st.spawned, e = .complete name) ∨
        e = .finished ∨ e.Handles st (.error ())) := by
  rcases step_cases e st with h | ⟨-, -, h⟩ | ⟨a, -, h⟩ | ⟨c, -, h⟩ |
      ⟨accepts, wait, cmd, rest, rfl, hs, hin, h⟩ | ⟨rfl, -, h⟩ | ⟨name, rfl, -, hn, h⟩ |
      ⟨name, b, -, h⟩ <;> rw [h]
  · exact .inl rfl
  · exact .inl rfl
  · rcases Api.apply_eq a st with h' | ⟨new, -, -, h'⟩ <;> rw [h']
    · exact .inr (.inl rfl)
    · exact .inl rfl
  · exact .inl rfl
  · have hh := Event.handles_of accepts wait hs hin
    rcases call_cases accepts wait { st with inbox := rest } cmd with
      ⟨g, rfl, hc⟩ | ⟨new, -, hc⟩ | ⟨rfl, hc⟩ <;> rw [hc]
    · rw [stop_eq]
      split
      · split
        · exact .inl rfl
        · exact .inr (.inr ⟨true, rfl, nofun, .inl ⟨‹_›, g, hh⟩⟩)
      · exact .inl rfl
    · exact .inl rfl
    · exact .inr (.inr ⟨false, rfl, fun _ => hh, .inr (.inr (.inr hh))⟩)
  · exact .inr (.inr ⟨true, rfl, nofun, .inr (.inr (.inl rfl))⟩)
  · obtain ⟨new, -, hc⟩ := checkStopped_eq st.services.entries
      { st with spawned := st.spawned.erase name }
    rw [hc]
    split
    · exact .inr (.inr ⟨true, rfl, nofun, .inr (.inl ⟨name, hn, rfl⟩)⟩)
    · exact .inl rfl
  · exact .inl rfl

/-- What making a stop-waiter and exiting keep, every run keeps. -/
theorem run_notifiers {I : Notifiers → Prop} (hw : ∀ n, I n → I n.wait)
    (hx : ∀ n b, I n → I (n.exit b)) (es : List Event) {st : CommandCenter}
    (h : I st.notifiers) : I (run es st).notifiers := by
  refine @run_invariant (fun st => I st.notifiers) (fun e st h => ?_) es st h
  rcases step_notifiers e st with h' | h' | ⟨b, h', -⟩ <;> rw [h']
  exacts [h, hw _ h, hx _ _ h]

theorem good_new (cfg : Config) : (new cfg).notifiers.Good :=
  ⟨Nat.zero_le _, fun _ => rfl, nofun⟩

/-! ## The first `Stop` or `Quit` -/

/-- The calls of a global shutdown among `calls`. -/
def exitStops (calls : List (String × ServiceCall)) : List (String × ServiceCall) :=
  calls.filter fun c => c.2.isExitStop

theorem ServiceCall.isExitStop_of_late {c : ServiceCall} (h : c.late) : c.isExitStop = false := by
  cases c <;> simp_all [ServiceCall.late, ServiceCall.isExitStop]

theorem exitStops_append (a b : List (String × ServiceCall)) :
    exitStops (a ++ b) = exitStops a ++ exitStops b :=
  List.filter_append _ _

theorem exitStops_of_late {calls : List (String × ServiceCall)} (h : ∀ c ∈ calls, c.2.late) :
    exitStops calls = [] :=
  List.filter_eq_nil_iff.2 fun c hc => by simp [ServiceCall.isExitStop_of_late (h c hc)]

theorem exitStops_stop (names : List String) (g : Bool) :
    exitStops (names.map fun name => (name, .stop g .Exit)) =
      names.map fun name => (name, .stop g .Exit) :=
  List.filter_eq_self.2 fun c hc => by
    obtain ⟨n, -, rfl⟩ := List.mem_map.1 hc; rfl

/-- Until a `Stop` or `Quit` is handled, the center is not stopping and has called no
shutdown's `stop`. -/
theorem run_before_shutdown (es : List Event) {st : CommandCenter} (hs : st.state ≠ .Stopping)
    (hfirst : ∀ es' e es'' g, es = es' ++ e :: es'' → ¬ e.HandlesStop (run es' st) g) :
    (run es st).state ≠ .Stopping ∧ exitStops (run es st).calls = exitStops st.calls := by
  induction es generalizing st with
  | nil => exact ⟨hs, rfl⟩
  | cons e es ih =>
    have he : ∀ g, ¬ e.HandlesStop st g := fun g => hfirst [] e es g rfl
    have h₁ : (step e st).state ≠ .Stopping := by
      rcases step_state e st with h | ⟨-, -, h⟩ | ⟨-, ⟨g, hg⟩, -⟩
      · rwa [h]
      · simp [h]
      · exact absurd hg (he g)
    have h₂ : exitStops (step e st).calls = exitStops st.calls := by
      obtain ⟨new, hc, hn⟩ := step_calls e st
      have hnew : exitStops new = [] := List.filter_eq_nil_iff.2 fun c hc' => by
        rcases (hn c hc').2 with h | ⟨-, h⟩
        · simp [ServiceCall.isExitStop_of_late h]
        · exact fun hx => (h hx).elim fun g hg => he g hg
      rw [hc, exitStops_append, hnew, List.append_nil]
    obtain ⟨h₃, h₄⟩ := ih h₁ fun es' e' es'' g h => hfirst (e :: es') e' es'' g (by rw [h]; rfl)
    exact ⟨h₃, h₄.trans h₂⟩

/-- Handling a `Stop` or `Quit` out of `Stopping` calls `stop(graceful, Exit)` on every service,
and the center is stopping. -/
theorem step_handlesStop {e : Event} {st : CommandCenter} {g : Bool} (h : e.HandlesStop st g)
    (hs : st.state ≠ .Stopping) :
    (step e st).calls = st.calls ++ st.services.names.map (fun name => (name, .stop g .Exit)) ∧
      (step e st).state = .Stopping := by
  obtain ⟨⟨accepts, wait, rfl⟩, hserv, hhead⟩ := h
  obtain ⟨rest, hin⟩ : ∃ rest, st.inbox = .ok (if g then .Stop else .Quit) :: rest := by
    cases h : st.inbox with
    | nil => simp [h] at hhead
    | cons c rest => exact ⟨rest, by simp_all⟩
  cases g <;> simp [step, hserv, hin, call, stop_calls, stop_state, hs]

/-! ## Draining -/

/-- What the shutdown law asks of the world, event by event: a service that refuses `stop`
already reports `is_stopped`; a completion fires only once its service reports `is_stopped`;
`is_stopped`, once reported, stays; and no signal stream fails. -/
def Fair (st : CommandCenter) : Event → Prop
  | .handle accepts _ => ∀ e ∈ st.services.entries, accepts e.1 = false → e.2.stopped = true
  | .complete name => ∀ e ∈ st.services.entries, e.1 = name → e.2.stopped = true
  | .service name b => ∀ e ∈ st.services.entries, e.1 = name → e.2.stopped = true → b = true
  | .signalError => False
  | _ => True

instance (st : CommandCenter) : (e : Event) → Decidable (Fair st e)
  | .handle accepts _ => inferInstanceAs
      (Decidable (∀ e ∈ st.services.entries, accepts e.1 = false → e.2.stopped = true))
  | .complete name => inferInstanceAs
      (Decidable (∀ e ∈ st.services.entries, e.1 = name → e.2.stopped = true))
  | .service name b => inferInstanceAs
      (Decidable (∀ e ∈ st.services.entries, e.1 = name → e.2.stopped = true → b = true))
  | .signalError => instDecidableFalse
  | .start | .api _ | .signal _ | .finished => instDecidableTrue

/-- A run in which every event is `Fair`. -/
def FairRun : CommandCenter → List Event → Prop
  | _, [] => True
  | st, e :: es => Fair st e ∧ FairRun (step e st) es

instance decFairRun : (st : CommandCenter) → (es : List Event) → Decidable (FairRun st es)
  | _, [] => isTrue trivial
  | st, e :: es => @instDecidableAnd _ _ inferInstance (decFairRun (step e st) es)

theorem FairRun.append {st : CommandCenter} {es es' : List Event} (h : FairRun st (es ++ es')) :
    FairRun st es ∧ FairRun (run es st) es' := by
  induction es generalizing st with
  | nil => exact ⟨trivial, h⟩
  | cons e es ih => exact ⟨⟨h.1, (ih h.2).1⟩, (ih h.2).2⟩

/-- The shutdown invariant, where the world is `Fair`. -/
structure Drains (st : CommandCenter) : Prop where
  /-- The terminal notifier has fired with `true`, or not at all. -/
  fired : st.stop_sender = true ∧ st.fired = [] ∨ st.stop_sender = false ∧ st.fired = [true]
  no_error : .error () ∉ st.inbox
  /-- Completions are pending only during a shutdown. -/
  idle : st.state ≠ .Stopping → st.spawned = []
  /-- During a shutdown, every service has stopped or has its completion pending. -/
  pending : st.state = .Stopping →
    ∀ e ∈ st.services.entries, e.2.stopped = true ∨ e.1 ∈ st.spawned
  /-- A shutdown with no completion pending has fired the terminal notifier with `true`. -/
  drained : st.state = .Stopping → st.spawned = [] → st.fired = [true]

theorem drains_new (cfg : Config) : Drains (new cfg) :=
  ⟨.inl ⟨rfl, rfl⟩, nofun, fun _ => rfl, by simp [new], by simp [new]⟩

namespace Drains

variable {st : CommandCenter}

/-- What the invariant reads is unchanged. -/
theorem congr {st' : CommandCenter} (h : Drains st) (hs : st'.state = st.state)
    (hsender : st'.stop_sender = st.stop_sender) (hf : st'.fired = st.fired)
    (hsp : st'.spawned = st.spawned) (hsv : st'.services = st.services)
    (hin : .error () ∉ st'.inbox) : Drains st' := by
  obtain ⟨h₁, -, h₃, h₄, h₅⟩ := h
  exact ⟨by rwa [hsender, hf], hin, by rwa [hs, hsp], by rwa [hs, hsp, hsv],
    by rwa [hs, hsp, hf]⟩

theorem exit_fired (h : Drains st) : (st.exit true).fired = [true] := by
  rcases h.fired with ⟨h₁, h₂⟩ | ⟨h₁, h₂⟩ <;> simp [h₁, h₂]

theorem exit (h : Drains st) : Drains (st.exit true) :=
  ⟨.inr ⟨rfl, h.exit_fired⟩, h.no_error, h.idle, h.pending, fun _ _ => h.exit_fired⟩

/-- A calls-only change keeps the invariant. -/
theorem calls (h : Drains st) (new : List (String × ServiceCall)) :
    Drains { st with calls := st.calls ++ new } :=
  h.congr rfl rfl rfl rfl rfl h.no_error

/-- The shutdown: every service that accepted has its completion pending, and every other has
stopped; when none accepted, the center has exited. -/
theorem shutdown (h : Drains st) (hs : st.state ≠ .Stopping) (g : Bool) (accepts : String → Bool)
    (hf : ∀ e ∈ st.services.entries, accepts e.1 = false → e.2.stopped = true) :
    Drains (stop g accepts st) := by
  have hsp := h.idle hs
  have hp : ∀ e ∈ st.services.entries,
      e.2.stopped = true ∨ e.1 ∈ st.spawned ++ st.services.names.filter accepts := by
    intro e he
    cases ha : accepts e.1
    · exact .inl (hf e he ha)
    · exact .inr (List.mem_append_right _ (List.mem_filter.2 ⟨List.mem_map_of_mem _ he, ha⟩))
  rw [stop_eq, if_pos hs]
  dsimp only
  split
  · rename_i hany
    refine ⟨h.fired, h.no_error, fun h' => absurd rfl h', fun _ => hp, fun _ hn => ?_⟩
    obtain ⟨n, hn', ha⟩ := List.any_eq_true.1 hany
    simp only [hsp, List.nil_append, List.filter_eq_nil_iff] at hn
    exact absurd ha (hn n hn')
  · exact ⟨.inr ⟨rfl, h.exit_fired⟩, h.no_error, fun h' => absurd rfl h', fun _ => hp,
      fun _ _ => h.exit_fired⟩

/-- A completion fires once its service has stopped; once the last has, the center exits. -/
theorem complete (h : Drains st) (name : String) (hn : name ∈ st.spawned)
    (hf : ∀ e ∈ st.services.entries, e.1 = name → e.2.stopped = true) :
    Drains (checkStopped st.services.entries { st with spawned := st.spawned.erase name }) := by
  have hs : st.state = .Stopping := by
    by_contra hs; simp [h.idle hs] at hn
  have hp : ∀ e ∈ st.services.entries, e.2.stopped = true ∨ e.1 ∈ st.spawned.erase name := by
    intro e he
    by_cases hname : e.1 = name
    · exact .inl (hf e he hname)
    · exact (h.pending hs e he).imp_right (List.mem_erase_of_ne hname).2
  obtain ⟨new, -, hc⟩ := checkStopped_eq st.services.entries
    { st with spawned := st.spawned.erase name }
  rw [hc]
  split
  · exact ⟨.inr ⟨rfl, h.exit_fired⟩, h.no_error, fun h' => absurd hs h', fun _ => hp,
      fun _ _ => h.exit_fired⟩
  · rename_i hall
    refine ⟨h.fired, h.no_error, fun h' => absurd hs h', fun _ => hp, fun _ hsp => absurd ?_ hall⟩
    have hsp : st.spawned.erase name = [] := hsp
    exact List.all_eq_true.2 fun e he => by simpa [hsp] using hp e he

/-- Every `Fair` step keeps the shutdown invariant. -/
theorem step (h : Drains st) (e : Event) (hf : Fair st e) : Drains (Cmd.step e st) := by
  rcases step_cases e st with h' | ⟨rfl, hs, h'⟩ | ⟨a, -, h'⟩ | ⟨c, hc, h'⟩ |
      ⟨accepts, wait, cmd, rest, rfl, -, hin, h'⟩ | ⟨-, -, h'⟩ | ⟨name, rfl, -, hn, h'⟩ |
      ⟨name, b, rfl, h'⟩ <;> rw [h']
  · exact h
  · have hsp := h.idle (by simp [hs])
    exact ⟨h.fired, h.no_error, fun _ => hsp, fun h' => absurd h' (by simp [start]),
      fun h' => absurd h' (by simp [start])⟩
  · rcases Api.apply_eq a st with ha | ⟨new, -, -, ha⟩ <;> rw [ha]
    · exact h.congr rfl rfl rfl rfl rfl (by simp [CommandCenter.stop, h.no_error])
    · exact h.calls new
  · refine h.congr rfl rfl rfl rfl rfl fun hm => ?_
    rcases List.mem_append.1 hm with hm | hm
    · exact h.no_error hm
    · rw [hc (List.mem_singleton.1 hm).symm] at hf
      exact hf
  · have h₁ : Drains { st with inbox := rest } :=
      h.congr rfl rfl rfl rfl rfl fun hr => h.no_error (hin ▸ .tail _ hr)
    rcases call_cases accepts wait { st with inbox := rest } cmd with
      ⟨g, rfl, hc⟩ | ⟨new, -, hc⟩ | ⟨rfl, hc⟩ <;> rw [hc]
    · by_cases hs : st.state = .Stopping
      · rw [stop_eq, if_neg (not_not.2 hs)]; exact h₁
      · exact h₁.shutdown hs g accepts hf
    · exact h₁.calls new
    · exact absurd (hin ▸ .head _) h.no_error
  · exact h.exit.congr rfl rfl rfl rfl rfl h.no_error
  · exact h.complete name hn hf
  · refine ⟨h.fired, h.no_error, h.idle, fun hs e he => ?_, h.drained⟩
    obtain ⟨e₀, he₀, rfl⟩ := ServiceMap.mem_modify he
    by_cases hn : e₀.1 = name
    · rw [if_pos hn]
      exact (h.pending hs e₀ he₀).imp_left (hf e₀ he₀ hn)
    · simpa [hn] using h.pending hs e₀ he₀

end Drains

theorem FairRun.drains {es : List Event} {st : CommandCenter} (hf : FairRun st es)
    (h : Drains st) : Drains (run es st) := by
  induction es generalizing st with
  | nil => exact h
  | cons e es ih => exact ih hf.2 (h.step e hf.1)

/-! ## Completions that fire -/

/-- Each completion is pending once, and the command service finishes only once the center has
exited. -/
structure Tracked (st : CommandCenter) : Prop where
  nodup : st.spawned.Nodup
  done : st.done = true → st.stop_sender = false

theorem tracked_new (cfg : Config) : Tracked (new cfg) := ⟨List.nodup_nil, nofun⟩

/-- Where completions are pending only during a shutdown, every step keeps them tracked. -/
theorem Tracked.step {st : CommandCenter} (h : Tracked st)
    (hidle : st.state ≠ .Stopping → st.spawned = []) (e : Event) : Tracked (step e st) := by
  obtain ⟨hsp, hdone, hsender⟩ := step_pending e st
  refine ⟨?_, fun hd => (hdone hd).elim (fun hd' => hsender (h.done hd')) id⟩
  rcases hsp with hsp | ⟨name, -, -, -, hsp⟩ | ⟨hs, accepts, -, -, hsp⟩ <;> rw [hsp]
  · exact h.nodup
  · exact h.nodup.erase name
  · rw [hidle hs, List.nil_append]
    exact st.services.nodup.filter _

theorem FairRun.tracked {es : List Event} {st : CommandCenter} (hf : FairRun st es)
    (hd : Drains st) (h : Tracked st) : Tracked (run es st) := by
  induction es generalizing st with
  | nil => exact h
  | cons e es ih => exact ih hf.2 (hd.step e hf.1) (h.step hd.idle e)

/-- Once stopping, no completion is pended again. -/
theorem run_spawned_subset {st : CommandCenter} (hs : st.state = .Stopping) (es : List Event) :
    (run es st).spawned ⊆ st.spawned := by
  induction es generalizing st with
  | nil => exact List.Subset.refl _
  | cons e es ih =>
    refine (ih (step_stopping hs)).trans ?_
    rcases (step_pending e st).1 with h | ⟨name, -, -, -, h⟩ | ⟨hs', -⟩
    · exact fun x hx => by rwa [h] at hx
    · exact fun x hx => List.mem_of_mem_erase (by rwa [h] at hx)
    · exact absurd hs hs'

/-- The completion of `name` is no longer pending, or the center has exited. -/
def Gone (name : String) (st : CommandCenter) : Prop := name ∉ st.spawned ∨ st.stop_sender = false

/-- Once stopping, a completion no longer pending stays so. -/
theorem Gone.step {name : String} {st : CommandCenter} (h : Gone name st)
    (hs : st.state = .Stopping) (e : Event) : Gone name (step e st) :=
  h.imp (fun hn hm => hn (run_spawned_subset hs [e] hm)) (step_pending e st).2.2

theorem Gone.run {name : String} {st : CommandCenter} (h : Gone name st)
    (hs : st.state = .Stopping) (es : List Event) : Gone name (run es st) :=
  (@run_invariant (fun st => Gone name st ∧ st.state = .Stopping)
    (fun e _ h => ⟨h.1.step h.2 e, step_stopping h.2⟩) es _ ⟨h, hs⟩).1

/-- Once stopping, the completion of `name` firing leaves it no longer pending, unless the center
has exited. -/
theorem gone_complete {st : CommandCenter} (h : Tracked st) (hs : st.state = .Stopping)
    (name : String) : Gone name (step (.complete name) st) := by
  by_cases hserv : st.serving
  · by_cases hn : name ∈ st.spawned
    · left
      rw [step, if_pos hserv, complete, if_pos hn, checkStopped_spawned]
      exact h.nodup.not_mem_erase
    · exact .inl (by simp [step, hserv, complete, hn])
  · have hd : st.done = true := by simpa [serving, hs] using hserv
    exact .inr (by simpa [step, hserv] using h.done hd)

/-- Where the world is `Fair`, every completion that fires once the center is stopping is no
longer pending at the end of the run, unless the center has exited. -/
theorem run_gone {es : List Event} {st : CommandCenter} (hf : FairRun st es) (hd : Drains st)
    (ht : Tracked st) (hs : st.state = .Stopping) {name : String} (hn : .complete name ∈ es) :
    Gone name (run es st) := by
  induction es generalizing st with
  | nil => exact absurd hn (List.not_mem_nil _)
  | cons e es ih =>
    rcases List.mem_cons.1 hn with rfl | hn
    · exact (gone_complete ht hs name).run (step_stopping hs) es
    · exact ih hf.2 (hd.step e hf.1) (ht.step hd.idle e) (step_stopping hs) hn

/-- The first shutdown pends a completion for each service that accepted its `stop`, and no
other. -/
theorem spawned_shutdown {st : CommandCenter} (hd : Drains st) (hns : st.state ≠ .Stopping)
    (accepts : String → Bool) (wait : List WaitResult) :
    ∀ x ∈ (step (.handle accepts wait) st).spawned, x ∈ st.services.names ∧ accepts x = true := by
  rcases (step_pending (.handle accepts wait) st).1 with h | ⟨_, h, -⟩ | ⟨-, _, _, h, hsp⟩
  · simp [h, hd.idle hns]
  · cases h
  · cases h
    simp [hsp, hd.idle hns]

/-- A fair run from a stopping center, in which the completion of every service still pending
fires, ends with the terminal notifier fired with `true`. -/
theorem FairRun.fired_of_completions {es : List Event} {st : CommandCenter} (hf : FairRun st es)
    (hd : Drains st) (ht : Tracked st) (hs : st.state = .Stopping)
    (hc : ∀ name ∈ st.spawned, .complete name ∈ es) : (run es st).fired = [true] := by
  have hd' := hf.drains hd
  by_cases hsender : (run es st).stop_sender = false
  · exact (hd'.fired.resolve_left fun h => by simp [h.1] at hsender).2
  · refine hd'.drained (@run_invariant (fun st => st.state = .Stopping) (fun _ _ => step_stopping)
      es _ hs) (List.eq_nil_iff_forall_not_mem.2 fun x hx => ?_)
    exact (run_gone hf hd ht hs (hc x (run_spawned_subset hs es hx))).elim (· hx) hsender

/-! ## The shutdown law -/

/-- The global shutdown, over every run of a command center from `CommandCenter::new`.
(i) The first `Stop` or `Quit` handled calls `stop(graceful, Reason::Exit)` on every service,
once each (`names` has no name twice), with `graceful` true for `Stop`; none was called before
it and none is called after it. (ii) The terminal notifier fires at most once. (iii) Where every
event is `Fair` (a service that refuses `stop` already reports `is_stopped`, a completion fires
only once its service does, `is_stopped` stays, and no signal stream fails), a center that is
stopping with no completion pending has fired the terminal notifier with `true`, and every
stop-waiter made before it fired has been resolved. (iv) The same, read off the run's events:
where every event is `Fair`, once the first `Stop` or `Quit` has been handled and the completion
of every service that accepted its `stop` has fired after it, the terminal notifier has fired
with `true`. -/
theorem shutdown_law (cfg : Config) :
    let s₀ := new cfg
    (∀ es₀ e es₁ g,
      (∀ es' e' es'' g', es₀ = es' ++ e' :: es'' → ¬ e'.HandlesStop (run es' s₀) g') →
      e.HandlesStop (run es₀ s₀) g →
      let st := run es₀ s₀
      let stops := st.services.names.map fun name => (name, ServiceCall.stop g .Exit)
      exitStops st.calls = [] ∧ (step e st).calls = st.calls ++ stops ∧
        exitStops (run (es₀ ++ e :: es₁) s₀).calls = stops) ∧
    (∀ es, (run es s₀).fired.length ≤ 1) ∧
    (∀ es, FairRun s₀ es → (run es s₀).state = .Stopping → (run es s₀).spawned = [] →
      (run es s₀).fired = [true] ∧
      ∀ es₀ es₁, es = es₀ ++ es₁ → (run es₀ s₀).fired = [] →
        ∀ w < (run es₀ s₀).waiters, w ∈ (run es s₀).resolved) ∧
    ∀ es₀ accepts wait es₁ g, FairRun s₀ (es₀ ++ .handle accepts wait :: es₁) →
      (Event.handle accepts wait).HandlesStop (run es₀ s₀) g → (run es₀ s₀).state ≠ .Stopping →
      (∀ name ∈ (run es₀ s₀).services.names, accepts name = true → .complete name ∈ es₁) →
      (run (es₀ ++ .handle accepts wait :: es₁) s₀).fired = [true] := by
  intro s₀
  have hgood : ∀ es, (run es s₀).notifiers.Good := fun es =>
    @run_notifiers Notifiers.Good (fun _ g => g.wait) (fun _ b g => g.exit b) es s₀ (good_new cfg)
  refine ⟨fun es₀ e es₁ g hfirst he => ?_, fun es => (hgood es).fired_le, fun es hf hs hsp => ?_,
    fun es₀ accepts wait es₁ g hf he hns hacc => ?_⟩
  · obtain ⟨h₁, h₂⟩ :=
      run_before_shutdown es₀ (show s₀.state ≠ .Stopping by simp [s₀, new]) hfirst
    obtain ⟨h₃, h₄⟩ := step_handlesStop he h₁
    obtain ⟨later, h₅, h₆⟩ := run_calls_stopping es₁ h₄
    have h₀ : exitStops (run es₀ s₀).calls = [] := h₂
    refine ⟨h₀, h₃, ?_⟩
    rw [run_append, run_cons, h₅, h₃, exitStops_append, exitStops_append, h₀, exitStops_stop,
      exitStops_of_late h₆, List.nil_append, List.append_nil]
  · have hfired := (hf.drains (drains_new cfg)).drained hs hsp
    refine ⟨hfired, fun es₀ es₁ hes hf₀ w hw => ?_⟩
    have ha : Notifiers.Answers w (run es₀ s₀).notifiers :=
      ((hgood es₀).made w hw).elim (fun h => .inr ⟨h, hf₀⟩) .inl
    have ha' := @run_notifiers (Notifiers.Answers w) (fun _ h => h.wait) (fun _ b h => h.exit b)
      es₁ (run es₀ s₀) ha
    rw [← run_append, ← hes] at ha'
    rcases ha' with h | ⟨-, h⟩
    · exact h
    · simp [CommandCenter.notifiers, hfired] at h
  · obtain ⟨hf₀, hfe, hf₁⟩ := FairRun.append hf
    have hd₀ := hf₀.drains (drains_new cfg)
    rw [run_append, run_cons]
    exact hf₁.fired_of_completions (hd₀.step _ hfe)
      ((hf₀.tracked (drains_new cfg) (tracked_new cfg)).step hd₀.idle _) (step_handlesStop he hns).2
      fun x hx => (spawned_shutdown hd₀ hns accepts wait x hx).elim (hacc x)

/-- One service, stopped from the console: it accepts its `stop`, comes to report `is_stopped`,
and its completion fires. The shutdown called its `stop` once, the terminal notifier fired with
`true`, and the console's stop-waiter was resolved. -/
theorem shutdown_one_service :
    let s₀ := new ⟨[⟨"web", 1, 10, 10, 10⟩]⟩
    let es₀ := [Event.start, .api .stop]
    let es₁ := [Event.service "web" true, .complete "web"]
    let es := es₀ ++ .handle (fun _ => true) [] :: es₁
    (Event.handle (fun _ => true) []).HandlesStop (run es₀ s₀) true ∧ FairRun s₀ es ∧
    exitStops (run es s₀).calls = [("web", .stop true .Exit)] ∧
    (run es s₀).fired = [true] ∧ 0 ∈ (run es s₀).resolved := by
  intro s₀ es₀ es₁ es
  have law := shutdown_law ⟨[⟨"web", 1, 10, 10, 10⟩]⟩
  have hs : (Event.handle (fun _ => true) []).HandlesStop (run es₀ s₀) true :=
    ⟨⟨_, _, rfl⟩, by decide, rfl⟩
  have hf : FairRun s₀ es := by decide
  have hfirst : ∀ es' e' es'' g', es₀ = es' ++ e' :: es'' → ¬ e'.HandlesStop (run es' s₀) g' := by
    rintro es' e' es'' g' h ⟨⟨a, w, rfl⟩, -⟩
    have : Event.handle a w ∈ es₀ := by rw [h]; simp
    simp [es₀] at this
  have hacc : ∀ name ∈ (run es₀ s₀).services.names, (fun _ => true) name = true →
      Event.complete name ∈ es₁ := by
    intro name hn _
    rw [show (run es₀ s₀).services.names = ["web"] by decide, List.mem_singleton] at hn
    exact hn ▸ List.mem_cons_of_mem _ (List.mem_singleton_self _)
  exact ⟨hs, hf, (law.1 es₀ _ es₁ true hfirst hs).2.2,
    law.2.2.2 es₀ _ [] es₁ true hf hs (by decide) hacc,
    (law.2.2.1 es hf (by decide) (by decide)).2 es₀ _ rfl (by decide) 0 (by decide)⟩

/-! ## A `stop()` after the exit -/

/-- The inbox fails or ends. -/
def Event.endsInbox : Event → Bool
  | .signalError | .finished => true
  | _ => false

/-- A stopping center with no completion pending and no inbox error. -/
structure Settled (st : CommandCenter) : Prop where
  stopping : st.state = .Stopping
  idle : st.spawned = []
  no_error : .error () ∉ st.inbox

/-- Unless the inbox fails, a settled center stays settled. -/
theorem Settled.step {st : CommandCenter} (h : Settled st) (e : Event)
    (he : e.endsInbox = false) : Settled (step e st) := by
  have keep : ∀ st', st'.state = st.state → st'.spawned = st.spawned → .error () ∉ st'.inbox →
      Settled st' := fun st' h₁ h₂ h₃ => ⟨h₁.trans h.stopping, h₂.trans h.idle, h₃⟩
  rcases step_cases e st with h' | ⟨-, hs, -⟩ | ⟨a, -, h'⟩ | ⟨c, hc, h'⟩ |
      ⟨accepts, wait, cmd, rest, -, -, hin, h'⟩ | ⟨rfl, -, -⟩ | ⟨name, -, -, hn, -⟩ |
      ⟨name, b, -, h'⟩
  · rwa [h']
  · simp [h.stopping] at hs
  · rw [h']
    rcases Api.apply_eq a st with ha | ⟨new, -, -, ha⟩ <;> rw [ha]
    · exact keep _ rfl rfl (by simp [CommandCenter.stop, h.no_error])
    · exact keep _ rfl rfl h.no_error
  · refine h' ▸ keep _ rfl rfl fun hm => ?_
    rcases List.mem_append.1 hm with hm | hm
    · exact h.no_error hm
    · simp [hc (List.mem_singleton.1 hm).symm, Event.endsInbox] at he
  · rw [h']
    have h₁ : Settled { st with inbox := rest } :=
      keep _ rfl rfl fun hr => h.no_error (hin ▸ .tail _ hr)
    rcases call_cases accepts wait { st with inbox := rest } cmd with
      ⟨g, rfl, hc⟩ | ⟨new, -, hc⟩ | ⟨rfl, hc⟩ <;> rw [hc]
    · simpa [stop_eq, h.stopping] using h₁
    · exact keep _ rfl rfl h₁.no_error
    · exact absurd (hin ▸ .head _) h.no_error
  · simp [Event.endsInbox] at he
  · simp [h.idle] at hn
  · rw [h']; exact keep _ rfl rfl h.no_error

/-- Once the center is stopping with no completion pending and no inbox error, it never exits
again unless its inbox fails or ends: no stop-waiter is resolved any more, and those it holds,
with all that `stop()` makes from then on, stay held. So a caller of `stop()` after the exit,
whose `Stop` is handled as a shutdown already under way, is never answered. -/
theorem stop_waiters_stranded (st : CommandCenter) (es : List Event)
    (hs : st.state = .Stopping) (hsp : st.spawned = []) (hin : .error () ∉ st.inbox)
    (hes : ∀ e ∈ es, e.endsInbox = false) :
    (run es st).resolved = st.resolved ∧ st.stop_waiters <+: (run es st).stop_waiters := by
  induction es generalizing st with
  | nil => exact ⟨rfl, List.prefix_refl _⟩
  | cons e es ih =>
    have he := hes e (.head _)
    have h' := Settled.step ⟨hs, hsp, hin⟩ e he
    obtain ⟨h₁, h₂⟩ := ih (step e st) h'.stopping h'.idle h'.no_error
      fun e' he' => hes e' (.tail _ he')
    have hn : (step e st).notifiers = st.notifiers ∨ (step e st).notifiers = st.notifiers.wait := by
      rcases step_notifiers e st with h | h | ⟨b, -, -, hc⟩
      · exact .inl h
      · exact .inr h
      · exfalso
        rcases hc with ⟨hst, -⟩ | ⟨name, hn, -⟩ | rfl | ⟨-, -, hhead⟩
        · exact hst hs
        · simp [hsp] at hn
        · simp [Event.endsInbox] at he
        · exact hin (List.mem_of_mem_head? hhead)
    have hstep : (step e st).resolved = st.resolved ∧
        st.stop_waiters <+: (step e st).stop_waiters := by
      rcases hn with h | h <;>
        simp only [CommandCenter.notifiers, Notifiers.wait, Notifiers.mk.injEq] at h <;>
        simp [h.2.2.1, h.2.2.2.1]
    exact ⟨h₁.trans hstep.1, hstep.2.trans h₂⟩

/-- A caller calls `stop()` after the center has exited: the terminal notifier has fired, the
caller's `Stop` has been handled, and its notifier, number 1, is still held, through a `SIGTERM`
handled after it. -/
theorem late_stop_unanswered :
    let st := run [.start, .api .stop, .handle (fun _ => true) [], .service "web" true,
      .complete "web", .api .stop, .handle (fun _ => true) []] (new ⟨[⟨"web", 1, 10, 10, 10⟩]⟩)
    let es : List Event := [.signal .SIGTERM, .handle (fun _ => true) []]
    st.fired = [true] ∧ st.inbox = [] ∧ st.stop_waiters = [1] ∧ st.resolved = [0] ∧
      (run es st).resolved = st.resolved ∧ st.stop_waiters <+: (run es st).stop_waiters :=
  ⟨by decide, by decide, by decide, by decide,
    stop_waiters_stranded _ _ (by decide) (by decide) (by decide) (by decide)⟩

end Fectl.Cmd
