import PreviewDeploy.Proofs.Trace

/-!
# The loop that may go on

At most one loop may go on at any time: one that has not ended and is not cancelled is the active
one, and the active one is the last that was started (`Orchestrator.OneActive`).  A deployment
that is superseded therefore begins no attempt any more.
-/

namespace PreviewDeploy

namespace State

variable {s u : State} {a : Action}

/-! ### What an action does to the loops -/

/-- The loops fare in one of four ways: one of them moves on, a new one takes the place of the
active one, all of them are cancelled, or they stay as they are. -/
inductive Looping (s u : State) : Action → Prop
  | moves (n : Nat) (l : Loop) (stage : LoopStage) (here : s.self.loops[n]? = some l)
      (step : LoopStep s n l u) (loops : u.self.loops = (s.self.setLoop n stage).loops)
      (active : u.self.active = s.self.active ∨
        (∃ outcome, stage = .finished outcome) ∧
          u.self.active = if s.self.active = some n then none else s.self.active)
      (ended : (∃ outcome, stage = .finished outcome) → u.self.active ≠ some n) :
      Looping s u (.step (.loop n))
  | starts (n : Nat) (c : Caller) (here : s.self.callers[n]? = some c)
      (entering : c.stage = .entering) (going : s.self.isClosed = false)
      (free : s.self.slot = none)
      (loops : u.self.loops = loopsAfter s.self ++ [newLoop c.request s])
      (active : u.self.active = some s.self.loops.length) : Looping s u (.step (.caller n))
  | closes {a : Action}
      (loops : u.self.loops = s.self.loops.map fun l => { l with cancelled := true })
      (active : u.self.active = s.self.active ∨ u.self.active = none)
      (closed : u.self.isClosed = true) : Looping s u a
  | stays {a : Action} (loops : u.self.loops = s.self.loops)
      (active : u.self.active = s.self.active) : Looping s u a

theorem leftSelf_loops (o : Orchestrator) :
    (leftSelf o).loops = o.loops ∨
      (leftSelf o).loops = (o.loops.map fun l => { l with cancelled := true }) ∧
        (leftSelf o).isClosed = true := by
  unfold leftSelf
  split
  · exact .inr ⟨rfl, rfl⟩
  · exact .inl rfl

@[simp] theorem length_leftSelf_loops (o : Orchestrator) :
    (leftSelf o).loops.length = o.loops.length := by
  rcases leftSelf_loops o with h | ⟨h, -⟩ <;> simp [h]

/-- An orchestrator that may have been left in the end. -/
theorem Looping.of_leftSelf {o : Orchestrator} (self : u.self = leftSelf o)
    (loops : o.loops = s.self.loops) (active : o.active = s.self.active) : Looping s u a := by
  have hactive : u.self.active = s.self.active := by rw [self]; simpa using active
  rcases leftSelf_loops o with h | ⟨h, hclosed⟩
  · exact .stays (by rw [self, h, loops]) hactive
  · exact .closes (by rw [self, h, loops]) (.inl hactive) (by rw [self, hclosed])

theorem looping_of_stepLoop {n : Nat} (h : s.stepLoop n = some u) :
    Looping s u (.step (.loop n)) := by
  obtain ⟨l, hl, hs⟩ := stepLoop_cases h
  have step := hs
  cases hs with
  | stops =>
      exact .moves n l (.finished none) hl step (by simp [Orchestrator.setLoop])
        (.inr ⟨⟨_, rfl⟩, by simp⟩) (by simp)
  | begins attempt ready going =>
      have hb := s.beginAttempt_frame going n attempt
      exact .moves n l _ hl step (by rw [hb.1]; rfl) (.inl (by rw [hb.1]; rfl)) (by simp)
  | succeeds attempt session k deadline attempting e result =>
      by_cases hset : s.self.setup = []
      · obtain ⟨hself, -⟩ := succeed_of_nil s hset n l attempt e
        exact .moves n l (.finished (some e.inst.outcome)) hl step
          (by simp [hself, Orchestrator.setLoop]) (.inr ⟨⟨_, rfl⟩, by simp [hself]⟩)
          (by simp [hself])
      · obtain ⟨⟨reply, hself⟩, -⟩ := succeed_of_ne_nil s hset n l attempt e
        exact .moves n l (.settingUp attempt e reply) hl step
          (by simp [hself, Orchestrator.setLoop]) (.inl (by simp [hself, Orchestrator.setLoop]))
          (by simp)
  | fails attempt =>
      exact .moves n l (.backingOff attempt
        (s.world.now + (s.self.config.backoff.delay attempt).ceilMillis)) hl step
        (by simp) (.inl (by simp [Orchestrator.setLoop])) (by simp)
  | retries attempt =>
      exact .moves n l (.ready (attempt + 1)) hl step (by simp)
        (.inl (by simp [Orchestrator.setLoop])) (by simp)
  | completes attempt e =>
      exact .moves n l (.finished (some e.inst.outcome)) hl step (by simp [Orchestrator.setLoop])
        (.inr ⟨⟨_, rfl⟩, by simp⟩) (by simp)

theorem looping_of_stepCaller {n : Nat} (h : s.stepCaller n = some u) :
    Looping s u (.step (.caller n)) := by
  obtain ⟨c, hc, hs⟩ := stepCaller_cases h
  cases hs with
  | refused => exact .of_leftSelf (answer_frame s n c none).1 rfl rfl
  | joins => exact .stays (by simp [Orchestrator.setCaller]) (by simp [Orchestrator.setCaller])
  | starts entering going free =>
      exact .starts n c hc entering going free (by simp [Orchestrator.setCaller])
        (by simp [Orchestrator.setCaller])
  | returns k since deadline starter waiting l loop outcome =>
      exact .of_leftSelf (answer_frame _ n c outcome).1 (by simp [Orchestrator.setCaller])
        (by simp [Orchestrator.setCaller])
  | expires k since deadline starter waiting l =>
      exact .of_leftSelf (answer_frame _ n c none).1 (by simp [Orchestrator.setCaller])
        (by simp [Orchestrator.setCaller])

theorem looping_of_abandon {n : Nat} : Looping s (s.abandon n) a := by
  have hself := (abandon_frame s n).1
  unfold abandonSelf at hself
  split at hself
  · exact .stays (by rw [hself]) (by rw [hself])
  · exact .stays (by rw [hself]) (by rw [hself])
  · exact .of_leftSelf hself rfl rfl
  · exact .of_leftSelf hself rfl rfl

theorem looping_of_shutdown : Looping s s.shutdown a := by
  have hself := (shutdown_frame s).1
  unfold shutSelf at hself
  split at hself
  · exact .stays (by rw [hself]) (by rw [hself])
  · exact .closes (by rw [hself]; rfl) (.inr (by rw [hself]))
      (by rw [Orchestrator.isClosed, hself]; simp)

theorem looping_of_perform (h : s.perform a = some u) : Looping s u a := by
  cases deed_of_perform h with
  | transaction n hstep =>
      obtain ⟨t, site, stage, -, -, hself, -⟩ := stepTransaction_cases hstep
      exact .stays (by simp [hself, advanceSelf, Orchestrator.setTransaction])
        (by simp [hself, advanceSelf, Orchestrator.setTransaction])
  | loop n hstep => exact looping_of_stepLoop hstep
  | caller n hstep => exact looping_of_stepCaller hstep
  | watch n hstep =>
      obtain ⟨site, monitor, heals, -, hself, -⟩ := stepWatch_cases hstep
      refine .stays ?_ ?_
      · rw [hself]; split <;> simp
      · rw [hself]; split <;> simp
  | passes => exact .stays rfl rfl
  | calls => exact .stays rfl rfl
  | abandons => exact looping_of_abandon
  | shuts => exact looping_of_shutdown
  | releases => exact .of_leftSelf (release_frame s).1 rfl rfl
  | sets _ _ self =>
      obtain ⟨setup, debugging, hself⟩ := self
      exact .stays (by rw [hself]) (by rw [hself])

end State

/-! ### At most one loop goes on -/

/-- A loop that has not ended and is not cancelled is the active one, and the active one is the
last that was started and has not ended. -/
structure Orchestrator.OneActive (o : Orchestrator) : Prop where
  current : ∀ n l, o.loops[n]? = some l → l.isFinished = false → l.cancelled = false →
    o.active = some n
  last : ∀ n, o.active = some n → n + 1 = o.loops.length
  running : ∀ n l, o.active = some n → o.loops[n]? = some l → l.isFinished = false

/-- A loop is what it was before, but for being cancelled. -/
structure Loop.Stays (l l' : Loop) : Prop where
  deployment : l'.deployment = l.deployment
  request : l'.request = l.request
  stage : l'.stage = l.stage
  cancelled : l.cancelled = true → l'.cancelled = true

namespace Loop

theorem isFinished_iff {l : Loop} :
    l.isFinished = true ↔ ∃ outcome, l.stage = .finished outcome := by
  unfold isFinished
  cases l.stage <;> simp

theorem Stays.refl (l : Loop) : l.Stays l := ⟨rfl, rfl, rfl, id⟩

theorem stays_cancelled (l : Loop) : l.Stays { l with cancelled := true } :=
  ⟨rfl, rfl, rfl, fun _ => rfl⟩

end Loop

namespace State

variable {s u : State} {a : Action}

theorem LoopStep.isFinished {n : Nat} {l : Loop} (h : LoopStep s n l u) :
    l.isFinished = false := by
  unfold Loop.isFinished
  cases h with
  | stops _ idle =>
      obtain ⟨attempt, hs⟩ | ⟨attempt, due, hs⟩ := idle
      · simp [hs]
      · simp [hs]
  | begins attempt hs => simp [hs]
  | succeeds attempt session k deadline hs => simp [hs]
  | fails attempt session k deadline hs => simp [hs]
  | retries attempt due hs => simp [hs]
  | completes attempt e reply hs => simp [hs]

/-- A loop that is not cancelled when a new one takes the place of the active one was not
cancelled before, and was not the active one. -/
theorem of_mem_loopsAfter {o : Orchestrator} {n : Nat} {l : Loop}
    (h : (loopsAfter o)[n]? = some l) :
    (∃ l', o.loops[n]? = some l' ∧ l'.Stays l) ∧
      (l.cancelled = false → o.loops[n]? = some l ∧ o.active ≠ some n) := by
  unfold loopsAfter superseded? at h
  cases hactive : o.active with
  | none =>
      rw [hactive] at h
      exact ⟨⟨l, h, .refl l⟩, fun _ => ⟨h, by simp⟩⟩
  | some k =>
      rw [hactive] at h
      cases hk : o.loops[k]? with
      | none =>
          simp only [Option.bind_some, hk, Option.map_none] at h
          refine ⟨⟨l, h, .refl l⟩, fun _ => ⟨h, ?_⟩⟩
          rintro ⟨⟩
          rw [hk] at h
          cases h
      | some lk =>
          simp only [Option.bind_some, hk, Option.map_some, List.getElem?_modify] at h
          split at h
          · rename_i hkn
            subst hkn
            simp only [hk, Option.map_eq_map, Option.map_some, Option.some.injEq] at h
            subst h
            exact ⟨⟨lk, hk, lk.stays_cancelled⟩, by simp⟩
          · rename_i hkn
            have h : o.loops[n]? = some l := by simpa using h
            exact ⟨⟨l, h, .refl l⟩, fun _ => ⟨h, by simpa using hkn⟩⟩

/-- A loop that was there stays when a new one takes the place of the active one. -/
theorem getElem?_loopsAfter {o : Orchestrator} {n : Nat} {l : Loop} (h : o.loops[n]? = some l) :
    ∃ l', (loopsAfter o)[n]? = some l' ∧ l.Stays l' := by
  unfold loopsAfter
  split
  · rw [List.getElem?_modify, h]
    refine ⟨_, rfl, ?_⟩
    split
    · exact l.stays_cancelled
    · exact .refl l
  · exact ⟨l, h, .refl l⟩

theorem length_loopsAfter (o : Orchestrator) : (loopsAfter o).length = o.loops.length := by
  unfold loopsAfter
  split <;> simp

/-! The entries of the loops after each kind of change. -/

theorem getElem?_setLoop {o : Orchestrator} {n m : Nat} {stage : LoopStage} {l l' : Loop}
    (hl : o.loops[n]? = some l) (h : (o.setLoop n stage).loops[m]? = some l') :
    (m = n ∧ l' = { l with stage }) ∨ (m ≠ n ∧ o.loops[m]? = some l') := by
  rw [Orchestrator.setLoop, List.getElem?_modify] at h
  by_cases hm : n = m
  · subst hm
    simp only [hl, if_true, Option.map_eq_map, Option.map_some, Option.some.injEq] at h
    exact .inl ⟨rfl, h.symm⟩
  · simp only [hm, if_false, Option.map_eq_map, Option.map_id'] at h
    exact .inr ⟨Ne.symm hm, h⟩

theorem getElem?_cancelled {loops : List Loop} {m : Nat} {l' : Loop}
    (h : (loops.map fun l => { l with cancelled := true })[m]? = some l') :
    ∃ l, loops[m]? = some l ∧ l' = { l with cancelled := true } := by
  rw [List.getElem?_map] at h
  obtain ⟨l, hl, rfl⟩ := Option.map_eq_some_iff.mp h
  exact ⟨l, hl, rfl⟩

/-! ### One loop -/

variable {m : Nat} {l : Loop}

/-- A loop keeps its deployment and its request, and what it has come to. -/
theorem loop_of_perform (hl : s.self.loops[m]? = some l) (hp : s.perform a = some u) :
    ∃ l', u.self.loops[m]? = some l' ∧ l'.deployment = l.deployment ∧ l'.request = l.request ∧
      ∀ outcome, l.stage = .finished outcome → l'.stage = .finished outcome := by
  have stays {l' : Loop} (h : l.Stays l') :
      l'.deployment = l.deployment ∧ l'.request = l.request ∧
        ∀ outcome, l.stage = .finished outcome → l'.stage = .finished outcome :=
    ⟨h.deployment, h.request, fun outcome hended => h.stage.trans hended⟩
  cases looping_of_perform hp with
  | moves n x stage here step loops =>
      by_cases hm : m = n
      · subst hm
        obtain rfl := Option.some.inj (hl.symm.trans here)
        refine ⟨{ l with stage }, by simp [loops, Orchestrator.setLoop, hl], rfl, rfl,
          fun outcome hended => ?_⟩
        have := step.isFinished
        simp [Loop.isFinished, hended] at this
      · exact ⟨l, by simp [loops, Orchestrator.setLoop, Ne.symm hm, hl], stays (.refl l)⟩
  | starts n c here entering going free loops =>
      obtain ⟨l', hl', h⟩ := getElem?_loopsAfter hl
      exact ⟨l', loops ▸ getElem?_concat_of_some hl', stays h⟩
  | closes loops => exact ⟨_, by simp [loops, hl], stays l.stays_cancelled⟩
  | stays loops => exact ⟨l, loops ▸ hl, stays (.refl l)⟩

theorem finished_of_trace {t : State} {h : List Moment} {outcome : Option Outcome}
    (hl : s.self.loops[m]? = some l) (hend : l.stage = .finished outcome) (ht : Trace s h t) :
    ∃ l', t.self.loops[m]? = some l' ∧ l'.stage = .finished outcome := by
  induction ht with
  | start => exact ⟨l, hl, hend⟩
  | step _ hp ih =>
      obtain ⟨x, hx, hxend⟩ := ih
      obtain ⟨l', hl', -, -, hkept⟩ := loop_of_perform hx hp
      exact ⟨l', hl', hkept _ hxend⟩

theorem stays_of_perform (hl : s.self.loops[m]? = some l) (hp : s.perform a = some u)
    (other : a ≠ .step (.loop m)) : ∃ l', u.self.loops[m]? = some l' ∧ l.Stays l' := by
  cases looping_of_perform hp with
  | moves n x stage here step loops =>
      have hne : n ≠ m := fun h => other (by rw [h])
      exact ⟨l, by simp [loops, Orchestrator.setLoop, hne, hl], .refl l⟩
  | starts n c here entering going free loops =>
      obtain ⟨l', hl', h⟩ := getElem?_loopsAfter hl
      exact ⟨l', loops ▸ getElem?_concat_of_some hl', h⟩
  | closes loops => exact ⟨_, by simp [loops, hl], l.stays_cancelled⟩
  | stays loops => exact ⟨l, loops ▸ hl, .refl l⟩

end State

namespace Orchestrator.OneActive

open State

variable {o o' : Orchestrator}

/-- One loop moves on. -/
theorem of_moves (ho : o.OneActive) {n : Nat} {l : Loop} {stage : LoopStage}
    (here : o.loops[n]? = some l) (unfinished : l.isFinished = false)
    (loops : o'.loops = (o.setLoop n stage).loops)
    (active : o'.active = o.active ∨
      (∃ outcome, stage = .finished outcome) ∧
        o'.active = if o.active = some n then none else o.active)
    (ended : (∃ outcome, stage = .finished outcome) → o'.active ≠ some n) : o'.OneActive := by
  have kept (m : Nat) (hm : o'.active = some m) : o.active = some m := by
    rcases active with h | ⟨-, h⟩
    · rw [← h, hm]
    · rw [hm] at h
      split at h
      · cases h
      · exact h.symm
  refine ⟨fun m l' hl' running uncancelled => ?_, fun m hm => ?_, fun m l' hm hl' => ?_⟩
  · rw [loops] at hl'
    rcases getElem?_setLoop here hl' with ⟨rfl, rfl⟩ | ⟨hne, hl'⟩
    · have := ho.current m l here unfinished uncancelled
      rcases active with h | ⟨⟨outcome, rfl⟩, -⟩
      · rw [h, this]
      · cases running
    · have := ho.current m l' hl' running uncancelled
      rcases active with h | ⟨-, h⟩
      · rw [h, this]
      · rw [h, this, if_neg (by simpa using hne)]
  · simpa [loops, setLoop] using ho.last m (kept m hm)
  · rw [loops] at hl'
    rcases getElem?_setLoop here hl' with ⟨rfl, rfl⟩ | ⟨-, hl'⟩
    · unfold Loop.isFinished
      split
      · rename_i outcome hstage
        exact absurd hm (ended ⟨outcome, hstage⟩)
      · rfl
    · exact ho.running m l' (kept m hm) hl'

/-- A new loop takes the place of the active one. -/
theorem of_starts (ho : o.OneActive) {request : Request} {s : State}
    (loops : o'.loops = loopsAfter o ++ [newLoop request s])
    (active : o'.active = some o.loops.length) : o'.OneActive := by
  refine ⟨fun m l' hl' running uncancelled => ?_, fun m hm => ?_, fun m l' hm hl' => ?_⟩
  · rw [loops] at hl'
    rcases of_getElem?_concat hl' with hl' | ⟨rfl, -⟩
    · obtain ⟨-, h⟩ := of_mem_loopsAfter hl'
      obtain ⟨hl', hne⟩ := h uncancelled
      exact absurd (ho.current m l' hl' running uncancelled) hne
    · rw [active, length_loopsAfter]
  · rw [active, Option.some.injEq] at hm
    simp [loops, length_loopsAfter, hm]
  · rw [active, Option.some.injEq] at hm
    rw [loops] at hl'
    rcases of_getElem?_concat hl' with hl' | ⟨-, rfl⟩
    · have := (List.getElem?_eq_some_iff.mp hl').1
      rw [length_loopsAfter] at this
      omega
    · rfl

/-- All loops are cancelled. -/
theorem of_closes (ho : o.OneActive)
    (loops : o'.loops = o.loops.map fun l => { l with cancelled := true })
    (active : o'.active = o.active ∨ o'.active = none) : o'.OneActive := by
  have kept (m : Nat) (hm : o'.active = some m) : o.active = some m := by
    rcases active with h | h
    · rw [← h, hm]
    · rw [hm] at h
      cases h
  refine ⟨fun m l' hl' _ uncancelled => ?_, fun m hm => ?_, fun m l' hm hl' => ?_⟩
  · obtain ⟨l, -, rfl⟩ := getElem?_cancelled (loops ▸ hl')
    cases uncancelled
  · simpa [loops] using ho.last m (kept m hm)
  · obtain ⟨l, hl, rfl⟩ := getElem?_cancelled (loops ▸ hl')
    exact ho.running m l (kept m hm) hl

end Orchestrator.OneActive

namespace State

variable {s u : State} {a : Action}

theorem loops_length_le_of_perform (h : s.perform a = some u) :
    s.self.loops.length ≤ u.self.loops.length := by
  cases looping_of_perform h with
  | moves n l stage here step loops => simp [loops, Orchestrator.setLoop]
  | starts n c here entering going free loops => simp [loops, length_loopsAfter]
  | closes loops => simp [loops]
  | stays loops => simp [loops]

theorem oneActive_of_perform (ho : s.self.OneActive) (h : s.perform a = some u) :
    u.self.OneActive := by
  cases looping_of_perform h with
  | moves n l stage here step loops active ended =>
      exact ho.of_moves here step.isFinished loops active ended
  | starts n c here entering going free loops active => exact ho.of_starts loops active
  | closes loops active => exact ho.of_closes loops active
  | stays loops active =>
      refine ⟨fun m l' hl' => ?_, fun m hm => ?_, fun m l' hm hl' => ?_⟩
      · rw [active]
        exact ho.current m l' (loops ▸ hl')
      · rw [loops]
        exact ho.last m (active ▸ hm)
      · exact ho.running m l' (active ▸ hm) (loops ▸ hl')

theorem IsStart.oneActive (hs : s.IsStart) : s.self.OneActive := by
  obtain ⟨number, config, blueprint, setup, hself⟩ := hs.eq_withConfig
  rw [hself]
  exact ⟨by simp [Orchestrator.withConfig], by simp [Orchestrator.withConfig],
    by simp [Orchestrator.withConfig]⟩

theorem oneActive_of_trace {h : List Moment} {t : State} (hs : s.IsStart) (ht : Trace s h t) :
    t.self.OneActive := by
  induction ht with
  | start => exact hs.oneActive
  | step _ hp ih => exact oneActive_of_perform ih hp

end State

end PreviewDeploy
