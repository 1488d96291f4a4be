import PreviewDeploy.Proofs.Delays
import PreviewDeploy.Proofs.LoopStages

/-!
# What is told of the attempts of a deployment

Of each deployment observers are told its start, its failed attempts one by one, and its completion
(`Event.milestone?`).  Here is said what a single action tells of deployments (`State.Telling`);
what holds of a whole run is read off from that.
-/

namespace PreviewDeploy

/-! ### Milestones -/

/-- What observers are told of a deployment; attempts count from one. -/
inductive Milestone where
  | started
  | failed (attempt : Nat)
  | completed (attempts : Nat)
  deriving DecidableEq, Repr

namespace Milestone

/-- How many attempts have begun before, or have ended. -/
def rank : Milestone → Nat
  | started => 0
  | failed n | completed n => n

/-- The start and the failures of as many attempts. -/
def failures (k : Nat) : List Milestone := .started :: (List.range k).map fun i => .failed (i + 1)

/-- What is told of a deployment whose attempts fail as often, and then one succeeds. -/
def narrative (k : Nat) : List Milestone := failures k ++ [.completed (k + 1)]

/-- The failures up to an attempt are those before it and its own. -/
theorem failures_eq {n : Nat} (h : 0 < n) : failures n = failures (n - 1) ++ [.failed n] := by
  obtain ⟨k, rfl⟩ : ∃ k, n = k + 1 := ⟨n - 1, by omega⟩
  simp [failures, List.range_succ]

/-- Each milestone of a narrative has a higher rank than those before. -/
theorem pairwise_narrative (k : Nat) : (narrative k).Pairwise fun x y => x.rank < y.rank := by
  have hfailures : (failures k).Pairwise fun x y => x.rank < y.rank := by
    refine List.pairwise_cons.mpr ⟨by simp [rank], ?_⟩
    rw [List.pairwise_map]
    exact List.pairwise_lt_range.imp fun h => Nat.succ_lt_succ h
  refine List.pairwise_append.mpr ⟨hfailures, List.pairwise_singleton .., fun x hx y hy => ?_⟩
  obtain rfl := List.mem_singleton.mp hy
  rcases List.mem_cons.mp hx with rfl | hx
  · exact Nat.succ_pos k
  · obtain ⟨i, hi, rfl⟩ := List.mem_map.mp hx
    simpa [rank] using List.mem_range.mp hi

end Milestone

namespace Event

/-- What an event tells of a deployment, if it is about it. -/
def milestone? (d : DeploymentId) : Event → Option Milestone
  | started d' .. => if d' = d then some .started else none
  | attemptFailed d' _ attempt .. => if d' = d then some (.failed attempt.toNat) else none
  | completed d' _ _ attempts .. => if d' = d then some (.completed attempts.toNat) else none
  | _ => none

/-- A session was replaced. -/
def isRotation : Event → Bool
  | sessionRotated .. => true
  | _ => false

/-- What the event of a failed attempt says about whether the session was replaced. -/
def rotated? : Event → Option Bool
  | attemptFailed _ _ _ _ _ _ rotated => some rotated
  | _ => none

/-- The event is about a caller or about the monitor. -/
def isAside : Event → Bool
  | timedOut .. | selfHealTriggered .. => true
  | _ => false

end Event

/-- What was told of a deployment. -/
def milestones (d : DeploymentId) (told : List Event) : List Milestone :=
  told.filterMap (Event.milestone? d)

@[simp] theorem milestones_append (d : DeploymentId) (xs ys : List Event) :
    milestones d (xs ++ ys) = milestones d xs ++ milestones d ys := List.filterMap_append

/-- An event among those of two lists one after the other is one of the first or of the second. -/
theorem split_append {α : Type} {xs ys before after : List α} {x : α}
    (h : xs ++ ys = before ++ x :: after) :
    (∃ rest, xs = before ++ x :: rest ∧ after = rest ++ ys) ∨
      ∃ init, before = xs ++ init ∧ ys = init ++ x :: after := by
  rcases List.append_eq_append_iff.mp h with ⟨init, rfl, rfl⟩ | ⟨rest, rfl, hrest⟩
  · exact .inr ⟨init, rfl, rfl⟩
  · cases rest with
    | nil => exact .inr ⟨[], by simp, by simpa using hrest.symm⟩
    | cons y rest =>
        obtain ⟨rfl, rfl⟩ := List.cons.inj hrest
        exact .inl ⟨rest, rfl, rfl⟩

/-! ### Sessions that are replaced -/

/-- That a session was replaced is told directly before the failure it was replaced for. -/
structure Announced (told : List Event) : Prop where
  followed {before after : List Event} {e : Event} : told = before ++ e :: after →
    e.isRotation = true → ∃ f, after.head? = some f ∧ f.rotated? = some true
  preceded {before after : List Event} {f : Event} {rotated : Bool} :
    told = before ++ f :: after → f.rotated? = some rotated →
      (rotated = true ↔ ∃ e, before.getLast? = some e ∧ e.isRotation = true)

namespace Announced

/-- Nothing that is told is about sessions that are replaced or attempts that have failed. -/
theorem of_plain {told : List Event}
    (plain : ∀ e ∈ told, e.isRotation = false ∧ e.rotated? = none) : Announced told := by
  refine ⟨fun {before after e} hsplit he => ?_, fun {before after f rotated} hsplit hf => ?_⟩
  · have := (plain e (by simp [hsplit])).1
    rw [he] at this
    cases this
  · have := (plain f (by simp [hsplit])).2
    rw [hf] at this
    cases this

theorem append {xs ys : List Event} (hx : Announced xs) (hy : Announced ys) :
    Announced (xs ++ ys) := by
  refine ⟨fun {before after e} hsplit he => ?_, fun {before after f rotated} hsplit hf => ?_⟩
  · rcases split_append hsplit with ⟨rest, hxs, rfl⟩ | ⟨init, -, hys⟩
    · obtain ⟨f, hhead, hf⟩ := hx.followed hxs he
      exact ⟨f, by simp [List.head?_append, hhead], hf⟩
    · exact hy.followed hys he
  · rcases split_append hsplit with ⟨rest, hxs, -⟩ | ⟨init, rfl, hys⟩
    · exact hx.preceded hxs hf
    · have hiff := hy.preceded hys hf
      cases hlast : init.getLast? with
      | some e => simpa [List.getLast?_append, hlast] using hiff
      | none =>
          -- The failure is the first event of the second list.
          obtain rfl := List.getLast?_eq_none_iff.mp hlast
          have hunrotated : rotated ≠ true := fun h => by simpa using hiff.mp h
          refine iff_of_false hunrotated ?_
          rintro ⟨e, hxs, he⟩
          rw [List.append_nil] at hxs
          obtain ⟨init, rfl⟩ := List.getLast?_eq_some_iff.mp hxs
          obtain ⟨f', hhead, -⟩ := hx.followed rfl he
          cases hhead

/-- A session is replaced, and the failure is told. -/
theorem pair {e f : Event} (he : e.isRotation = true) (hf : f.rotated? = some true) :
    Announced [e, f] := by
  have he' : e.rotated? = none := by cases e <;> first | rfl | cases he
  have hf' : f.isRotation = false := by cases f <;> first | rfl | cases hf
  refine ⟨fun {before after x} hsplit hx => ?_, fun {before after x rotated} hsplit hx => ?_⟩
  · match before, hsplit with
    | [], hsplit =>
        cases hsplit
        exact ⟨f, rfl, hf⟩
    | [_], hsplit =>
        cases hsplit
        rw [hf'] at hx
        cases hx
    | _ :: _ :: _, hsplit => simp at hsplit
  · match before, hsplit with
    | [], hsplit =>
        cases hsplit
        rw [he'] at hx
        cases hx
    | [_], hsplit =>
        cases hsplit
        obtain rfl := Option.some.inj (hf.symm.trans hx)
        exact iff_of_true rfl ⟨_, rfl, he⟩
    | _ :: _ :: _, hsplit => simp at hsplit

/-- A failure is told after which the session is kept. -/
theorem single {f : Event} (hf : f.rotated? = some false) : Announced [f] := by
  have hf' : f.isRotation = false := by cases f <;> first | rfl | cases hf
  refine ⟨fun {before after x} hsplit hx => ?_, fun {before after x rotated} hsplit hx => ?_⟩
  · obtain ⟨rfl, rfl, rfl⟩ : before = [] ∧ x = f ∧ after = [] := by
      simpa [List.singleton_eq_append_iff, and_assoc] using hsplit
    rw [hf'] at hx
    cases hx
  · obtain ⟨rfl, rfl, rfl⟩ : before = [] ∧ x = f ∧ after = [] := by
      simpa [List.singleton_eq_append_iff, and_assoc] using hsplit
    obtain rfl := Option.some.inj (hf.symm.trans hx)
    simp

end Announced

namespace State

variable {s u : State} {a : Action} {n : Nat} {l : Loop}

/-! ### Single actions -/

/-- How a loop goes on without telling anything, by the stage that this leads to. -/
inductive Moves (now : Nat) (l : Loop) : LoopStage → Prop
  | begins (attempt : UInt32) (session : SessionId) (k deadline : Nat)
      (ready : l.stage = .ready attempt) (going : l.cancelled = false) :
      Moves now l (.attempting attempt session k deadline)
  | setsUp (attempt : UInt32) (session : SessionId) (k deadline : Nat)
      (attempting : l.stage = .attempting attempt session k deadline) (x : Execution)
      (reply : Pending ControlPlane.CommandsResponse) : Moves now l (.settingUp attempt x reply)
  | retries (attempt : UInt32) (due : Nat) (waiting : l.stage = .backingOff attempt due)
      (going : l.cancelled = false) (late : due ≤ now) : Moves now l (.ready (attempt + 1))
  | stops (cancelled : l.cancelled = true) (idle : (∃ attempt, l.stage = .ready attempt) ∨
      ∃ attempt due, l.stage = .backingOff attempt due) : Moves now l (.finished none)

/-- What an action tells of deployments, and what it does to the loops meanwhile. -/
inductive Telling (s u : State) : Action → List Event → Prop
  | fails {n : Nat} {l : Loop} {attempt : UInt32} {session : SessionId} {k deadline : Nat}
      {f : Failure} (here : s.self.loops[n]? = some l)
      (attempting : l.stage = .attempting attempt session k deadline)
      (loops : u.self.loops = (s.self.setLoop n (.backingOff attempt
        (s.world.now + (s.self.config.backoff.delay attempt).ceilMillis))).loops)
      (inst : u.identity.inst = none) :
      Telling s u (.step (.loop n)) (failureEvents l attempt session f s)
  | completes {n : Nat} {l : Loop} {attempt : UInt32} {x : Execution}
      (here : s.self.loops[n]? = some l)
      (trying : (∃ session k deadline, l.stage = .attempting attempt session k deadline) ∨
        ∃ x reply, l.stage = .settingUp attempt x reply)
      (loops : u.self.loops = (s.self.setLoop n (.finished (some x.inst.outcome))).loops) :
      Telling s u (.step (.loop n)) [completion l attempt x s.world.now]
  | moves {n : Nat} {l : Loop} {stage : LoopStage} (here : s.self.loops[n]? = some l)
      (moves : Moves s.world.now l stage) (loops : u.self.loops = (s.self.setLoop n stage).loops) :
      Telling s u (.step (.loop n)) []
  | starts {n : Nat} {c : Caller} (going : s.self.isClosed = false)
      (loops : u.self.loops = loopsAfter s.self ++ [newLoop c.request s]) :
      Telling s u (.step (.caller n)) (startEvents c.request s)
  | aside {a : Action} {told : List Event} (other : ∀ n, a ≠ .step (.loop n))
      (aside : ∀ e ∈ told, e.isAside = true)
      (loops : u.self.loops = s.self.loops ∨
        u.self.loops = s.self.loops.map fun l => { l with cancelled := true }) :
      Telling s u a told

theorem telling_of_stepLoop (h : s.stepLoop n = some u) :
    ∃ told, u.world.events = s.world.events ++ told ∧ Telling s u (.step (.loop n)) told := by
  obtain ⟨l, hl, hs⟩ := stepLoop_cases h
  cases hs with
  | stops cancelled idle =>
      exact ⟨[], by simp, .moves hl (.stops cancelled idle) (by simp [Orchestrator.setLoop])⟩
  | begins attempt ready going =>
      have hb := beginAttempt_frame s going n attempt
      exact ⟨[], by simp [hb], .moves hl (.begins attempt _ _ _ ready going) (by rw [hb.1]; rfl)⟩
  | succeeds attempt session k deadline attempting x result =>
      by_cases hset : s.self.setup = []
      · obtain ⟨hself, -, -, -, -, hevents⟩ := succeed_of_nil s hset n l attempt x
        exact ⟨_, hevents, .completes hl (.inl ⟨session, k, deadline, attempting⟩)
          (by simp [hself, Orchestrator.setLoop])⟩
      · obtain ⟨⟨reply, hself⟩, -, -, -, -, hevents⟩ := succeed_of_ne_nil s hset n l attempt x
        exact ⟨[], by simp [hevents],
          .moves hl (.setsUp attempt session k deadline attempting x reply)
            (by simp [hself, Orchestrator.setLoop])⟩
  | fails attempt session k deadline attempting f result =>
      refine ⟨_, (failAttempt_frame s n l attempt session f).2.2.2.2.2,
        .fails hl attempting (by simp) ?_⟩
      simp only [failAttempt_frame, identityAfter]
      split <;> rfl
  | retries attempt due waiting going late =>
      exact ⟨[], by simp, .moves hl (.retries attempt due waiting going late) (by simp)⟩
  | completes attempt x reply settingUp late =>
      exact ⟨[completion l attempt x s.world.now], by simp,
        .completes hl (.inr ⟨x, reply, settingUp⟩) (by simp [Orchestrator.setLoop])⟩

/-- What happens to the loops of an orchestrator that may have been left in the end. -/
theorem telling_of_leftSelf {o : Orchestrator} {told : List Event}
    (other : ∀ n, a ≠ .step (.loop n)) (aside : ∀ e ∈ told, e.isAside = true)
    (self : u.self = leftSelf o) (loops : o.loops = s.self.loops) : Telling s u a told := by
  refine .aside other aside ?_
  rcases leftSelf_loops o with h | ⟨h, -⟩
  · exact .inl (by rw [self, h, loops])
  · exact .inr (by rw [self, h, loops])

theorem telling_of_stepCaller (h : s.stepCaller n = some u) :
    ∃ told, u.world.events = s.world.events ++ told ∧ Telling s u (.step (.caller n)) told := by
  obtain ⟨c, -, hs⟩ := stepCaller_cases h
  cases hs with
  | refused =>
      exact ⟨[], by simp, telling_of_leftSelf (by simp) (by simp) (answer_frame s n c none).1 rfl⟩
  | joins =>
      exact ⟨[], by simp, .aside (by simp) (by simp) (.inl (by simp [Orchestrator.setCaller]))⟩
  | starts entering going free =>
      exact ⟨startEvents c.request s, by simp, .starts going (by simp [Orchestrator.setCaller])⟩
  | returns k since deadline starter waiting l loop outcome =>
      exact ⟨[], by simp, telling_of_leftSelf (by simp) (by simp) (answer_frame _ n c outcome).1
        (by simp [Orchestrator.setCaller])⟩
  | expires k since deadline starter waiting l =>
      exact ⟨[expiry since l.deployment s], by simp, telling_of_leftSelf (by simp)
        (by simp [expiry, Event.isAside]) (answer_frame _ n c none).1
        (by simp [Orchestrator.setCaller])⟩

theorem telling_of_perform (h : s.perform a = some u) :
    ∃ told, u.world.events = s.world.events ++ told ∧ Telling s u a told := by
  have quiet {a : Action} (other : ∀ n, a ≠ .step (.loop n)) (looping : Looping s u a)
      (started : ∀ n, a ≠ .step (.caller n)) {told : List Event}
      (aside : ∀ e ∈ told, e.isAside = true) : Telling s u a told := by
    refine .aside other aside ?_
    cases looping with
    | moves n => exact absurd rfl (other n)
    | starts n => exact absurd rfl (started n)
    | closes loops => exact .inr loops
    | stays loops => exact .inl loops
  have looping := looping_of_perform h
  cases deed_of_perform h with
  | transaction n hstep =>
      obtain ⟨t, site, stage, -, hstep', -, -, -, -, -, hevents⟩ := stepTransaction_cases hstep
      exact ⟨[], by simp [hevents, (Transaction.advances_of_step hstep').1.events],
        quiet (by simp) looping (by simp) (by simp)⟩
  | loop n hstep => exact telling_of_stepLoop hstep
  | caller n hstep => exact telling_of_stepCaller hstep
  | watch n hstep =>
      obtain ⟨site, monitor, heals, hkeeps, -, -, -, -, -, hevents, -⟩ := stepWatch_cases hstep
      obtain ⟨told, htold, hheals⟩ := hkeeps.events
      refine ⟨told, hevents.trans htold, quiet (by simp) looping (by simp) fun e he => ?_⟩
      split at hheals
      · obtain ⟨inst, rfl⟩ := hheals
        rw [List.mem_singleton.mp he]
        rfl
      · rw [hheals] at he
        cases he
  | passes millis =>
      exact ⟨[], (List.append_nil _).symm, quiet (by simp) looping (by simp) (by simp)⟩
  | calls request => exact ⟨[], by simp, quiet (by simp) looping (by simp) (by simp)⟩
  | abandons n => exact ⟨[], by simp, quiet (by simp) looping (by simp) (by simp)⟩
  | shuts => exact ⟨[], by simp, quiet (by simp) looping (by simp) (by simp)⟩
  | releases => exact ⟨[], by simp, quiet (by simp) looping (by simp) (by simp)⟩
  | sets other _ _ _ _ _ events =>
      exact ⟨[], by simp [events],
        quiet (fun n => other (.loop n)) looping (fun n => other (.caller n)) (by simp)⟩

/-! ### What the events of an action say -/

/-- A session is replaced after a failure that is fatal for it, and after every so many. -/
theorem rotates_iff (c : Config) (attempt : UInt32) (f : Failure) :
    rotates c attempt f = true ↔ Signature.saysLost f.message = true ∨
      0 < c.rotationThreshold ∧ c.rotationThreshold.toNat ∣ attempt.toNat := by
  have hpos : c.rotationThreshold ≠ 0 ↔ 0 < c.rotationThreshold := UInt32.pos_iff_ne_zero.symm
  have hdvd : attempt % c.rotationThreshold = 0 ↔
      c.rotationThreshold.toNat ∣ attempt.toNat := by
    rw [Nat.dvd_iff_mod_eq_zero, ← UInt32.toNat_mod, ← UInt32.toNat_inj, UInt32.toNat_zero]
  simp [rotates, Failure.isFatal, hpos, hdvd]

theorem announced_failureEvents (attempt : UInt32) (session : SessionId) (f : Failure) :
    Announced (failureEvents l attempt session f s) := by
  unfold failureEvents
  cases h : rotates s.self.config attempt f with
  | true => exact .pair rfl rfl
  | false => exact .single rfl

/-- At the start of a deployment its start is told, and that another one is superseded. -/
theorem of_mem_startEvents {request : Request} {e : Event} (he : e ∈ startEvents request s) :
    (∃ m l, superseded? s.self = some (m, l) ∧
        e = .superseded l.deployment s.world.mintDeployment.1) ∨
      ∃ session message files, e = .started s.world.mintDeployment.1 session message files := by
  unfold startEvents supersession at he
  rcases List.mem_append.mp he with he | he
  · split at he
    · rename_i m l hsup
      exact .inl ⟨m, l, hsup, List.mem_singleton.mp he⟩
    · cases he
  · exact .inr ⟨_, _, _, List.mem_singleton.mp he⟩

variable {told : List Event}

theorem Telling.announced (ht : Telling s u a told) : Announced told := by
  cases ht with
  | fails => exact announced_failureEvents ..
  | completes => exact .of_plain (by simp [completion, Event.isRotation, Event.rotated?])
  | moves => exact .of_plain (by simp)
  | starts =>
      refine .of_plain fun e he => ?_
      rcases of_mem_startEvents he with ⟨m, l, -, rfl⟩ | ⟨session, message, files, rfl⟩
      · exact ⟨rfl, rfl⟩
      · exact ⟨rfl, rfl⟩
  | aside other aside =>
      refine .of_plain fun e he => ?_
      have := aside e he
      cases e <;> first | exact ⟨rfl, rfl⟩ | cases this

/-- What is told of a failed attempt is what has become of it, and no instance is known then. -/
theorem Telling.of_attemptFailed {d : DeploymentId} {session : SessionId} {attempt : UInt32}
    {error kind : String} {retry : UInt64} {rotated : Bool} (ht : Telling s u a told)
    (he : .attemptFailed d session attempt error kind retry rotated ∈ told) :
    ∃ n l k deadline f, a = .step (.loop n) ∧ s.self.loops[n]? = some l ∧ l.deployment = d ∧
      l.stage = .attempting attempt session k deadline ∧
      u.self.loops = (s.self.setLoop n (.backingOff attempt
        (s.world.now + (s.self.config.backoff.delay attempt).ceilMillis))).loops ∧
      u.identity.inst = none ∧ error = f.message ∧
      retry = UInt64.ofNat (s.self.config.backoff.delay attempt).millis ∧
      rotated = rotates s.self.config attempt f := by
  cases ht with
  | @fails n l attempt' session' k deadline f here attempting loops inst =>
      unfold failureEvents at he
      rcases List.mem_append.mp he with he | he
      · split at he
        · cases List.mem_singleton.mp he
        · cases he
      · cases List.mem_singleton.mp he
        exact ⟨n, l, k, deadline, f, rfl, here, rfl, attempting, loops, inst, rfl, rfl, rfl⟩
  | completes => cases List.mem_singleton.mp he
  | moves => cases he
  | starts =>
      rcases of_mem_startEvents he with ⟨m, l, -, h⟩ | ⟨session, message, files, h⟩
      · cases h
      · cases h
  | aside other aside => cases aside _ he

/-- What is told of a deployment that is superseded: it was the active one, and a new one has
started. -/
theorem Telling.of_superseded {d d' : DeploymentId} {before after : List Event}
    (ht : Telling s u a told) (hsplit : told = before ++ .superseded d d' :: after) :
    ∃ request m l, superseded? s.self = some (m, l) ∧ l.deployment = d ∧
      u.self.loops = loopsAfter s.self ++ [newLoop request s] ∧
      ∃ session message files,
        after = [.started s.world.mintDeployment.1 session message files] := by
  have he : .superseded d d' ∈ told := by simp [hsplit]
  cases ht with
  | fails =>
      unfold failureEvents at he
      rcases List.mem_append.mp he with he | he
      · split at he
        · cases List.mem_singleton.mp he
        · cases he
      · cases List.mem_singleton.mp he
  | completes => cases List.mem_singleton.mp he
  | moves => cases he
  | @starts n c going loops =>
      unfold startEvents at hsplit
      rcases split_append hsplit with ⟨rest, hsup, rfl⟩ | ⟨init, -, hstarted⟩
      · unfold supersession at hsup
        split at hsup
        · rename_i m l hactive
          obtain ⟨rfl, rfl, -, rfl⟩ : before = [] ∧ d = l.deployment ∧
              d' = s.world.mintDeployment.1 ∧ rest = [] := by
            simpa [List.singleton_eq_append_iff, and_assoc] using hsup
          exact ⟨c.request, m, l, hactive, rfl, loops, _, _, _, rfl⟩
        · simp at hsup
      · have hmem : Event.superseded d d' ∈ init ++ .superseded d d' :: after := by simp
        rw [← hstarted] at hmem
        cases List.mem_singleton.mp hmem
  | aside other aside => cases aside _ he

end State

end PreviewDeploy
