import PreviewDeploy.Proofs.Events
import PreviewDeploy.Proofs.FileSets

/-!
# The order of the transactions

Transactions stand in line, and only the first in line may talk to the control plane
(`Orchestrator.Turn`).  Attempts that were given up, or whose deployment was superseded, keep
their place.  As an attempt is begun only by the last deployment that was started, the line is
also in the order of the deployments: the calls of an older deployment come before those of a
newer one, its writes among them.
-/

namespace PreviewDeploy

/-- A call, with the task that makes it and the client that it goes through. -/
abbrev Call := Task × Client × ControlPlane.Request

/-- Who writes which files, if the call is a write. -/
def Call.write? (c : Call) : Option (Task × List File) :=
  match c.2.2 with
  | .write _ files _ => some (c.1, files)
  | _ => none

/-- It is the turn of the `j`-th transaction: those before it have ended, it has not, and those
after it have not begun. -/
structure Orchestrator.Turn (o : Orchestrator) (j : Nat) : Prop where
  le : j ≤ o.transactions.length
  line : o.line = List.range' j (o.transactions.length - j)
  ended : ∀ k t, o.transactions[k]? = some t → (State.isFinished t.stage = true ↔ k < j)
  waiting : ∀ k t, o.transactions[k]? = some t → j < k → t.stage = .queued

/-- The transaction has begun and has not ended. -/
def Transaction.IsUnderWay (t : Transaction) : Prop :=
  t.stage ≠ .queued ∧ State.isFinished t.stage = false

theorem Transaction.Advances.unfinished {b : Blueprint} {t : Transaction} {s : Site}
    {after : Option Instance} {stage : TransactionStage} (h : Advances b t s after stage) :
    State.isFinished t.stage = false := by
  unfold State.isFinished
  cases h with
  | checks hs => simp [hs]
  | creates hs => simp [hs]
  | reuses client known reply hs => simp [hs]
  | discards client known reply hs => simp [hs]
  | provisions client reply hs => simp [hs]
  | fails client reply hs => simp [hs]
  | writes target files reply hs => simp [hs]
  | forgets target files reply hs => simp [hs]
  | clears target written past unfinished =>
      split
      · rename_i hs
        simp [result?, hs] at unfinished
      · rfl

namespace State

variable {o : Orchestrator} {n k : Nat} {t x : Transaction} {stage : TransactionStage}

theorem getElem?_advanceSelf (ht : o.transactions[n]? = some t) :
    (advanceSelf n stage o).transactions[n]? = some { t with stage } := by
  simp [advanceSelf, Orchestrator.setTransaction, ht]

theorem getElem?_advanceSelf_of_ne (h : k ≠ n) :
    (advanceSelf n stage o).transactions[k]? = o.transactions[k]? := by
  simp [advanceSelf, Orchestrator.setTransaction, h.symm]

theorem of_getElem?_advanceSelf (ht : o.transactions[n]? = some t)
    (h : (advanceSelf n stage o).transactions[k]? = some x) :
    (k = n ∧ x = { t with stage }) ∨ (k ≠ n ∧ o.transactions[k]? = some x) := by
  by_cases hk : k = n
  · subst hk
    rw [getElem?_advanceSelf ht, Option.some.injEq] at h
    exact .inl ⟨rfl, h.symm⟩
  · rw [getElem?_advanceSelf_of_ne hk] at h
    exact .inr ⟨hk, h⟩

end State

namespace Orchestrator.Turn

open State

variable {o o' : Orchestrator} {j n : Nat} {t : Transaction} {stage : TransactionStage}

/-- Only the transaction whose turn it is can go on. -/
theorem eq_of_step (hj : o.Turn j) (ht : o.transactions[n]? = some t)
    (unfinished : isFinished t.stage = false) (first : t.stage = .queued → o.line.head? = some n) :
    n = j := by
  have hn : n < o.transactions.length := (List.getElem?_eq_some_iff.mp ht).1
  have hle : ¬ n < j := by
    intro hlt
    rw [(hj.ended n t ht).mpr hlt] at unfinished
    cases unfinished
  rcases Nat.lt_or_ge j n with hlt | hge
  · -- A later one is still in the queue, so it would have to stand first.
    have hhead := first (hj.waiting n t ht hlt)
    obtain ⟨m, hm⟩ := Nat.exists_eq_succ_of_ne_zero (Nat.sub_ne_zero_of_lt (Nat.lt_trans hlt hn))
    rw [hj.line, hm, List.range'_succ, List.head?_cons, Option.some.injEq] at hhead
    omega
  · omega

/-- The transaction whose turn it is goes on; once it ends, it is the turn of the next one. -/
theorem advance (hj : o.Turn j) (ht : o.transactions[j]? = some t) :
    (advanceSelf j stage o).Turn (if isFinished stage then j + 1 else j) := by
  have hn : j < o.transactions.length := (List.getElem?_eq_some_iff.mp ht).1
  have hlen : (advanceSelf j stage o).transactions.length = o.transactions.length := by
    simp [advanceSelf, setTransaction]
  refine ⟨?_, ?_, fun k x hx => ?_, fun k x hx hlt => ?_⟩
  · rw [hlen]
    split <;> omega
  · rw [hlen]
    simp only [advanceSelf]
    split
    · obtain ⟨m, hm⟩ := Nat.exists_eq_succ_of_ne_zero (Nat.sub_ne_zero_of_lt hn)
      have hm' : o.transactions.length - (j + 1) = m := by omega
      rw [hj.line, hm, hm', List.range'_succ, List.erase_cons_head]
    · exact hj.line
  · rcases of_getElem?_advanceSelf ht hx with ⟨rfl, rfl⟩ | ⟨hne, hx⟩
    · split
      · simpa
      · rename_i hstage
        simp [hstage]
    · rw [hj.ended k x hx]
      split <;> omega
  · have hlt' : j < k := by
      split at hlt <;> omega
    rcases of_getElem?_advanceSelf ht hx with ⟨rfl, -⟩ | ⟨-, hx⟩
    · omega
    · exact hj.waiting k x hx hlt'

theorem enqueue (hj : o.Turn j) {request : Request}
    (transactions : o'.transactions = o.transactions ++ [({ request } : Transaction)])
    (line : o'.line = o.line ++ [o.transactions.length]) : o'.Turn j := by
  have hle := hj.le
  refine ⟨?_, ?_, fun k x hx => ?_, fun k x hx hlt => ?_⟩
  · rw [transactions, List.length_append]
    omega
  · have hlen : o'.transactions.length - j = o.transactions.length - j + 1 := by
      rw [transactions, List.length_append, List.length_singleton]
      omega
    have hlast : o.transactions.length = j + 1 * (o.transactions.length - j) := by omega
    rw [line, hj.line, hlen, List.range'_concat, ← hlast]
  · rcases of_getElem?_concat (transactions ▸ hx) with hx | ⟨rfl, rfl⟩
    · exact hj.ended k x hx
    · simp [isFinished, hle]
  · rcases of_getElem?_concat (transactions ▸ hx) with hx | ⟨-, rfl⟩
    · exact hj.waiting k x hx hlt
    · rfl

theorem congr (hj : o.Turn j) (transactions : o'.transactions = o.transactions)
    (line : o'.line = o.line) : o'.Turn j :=
  ⟨transactions ▸ hj.le, by rw [line, transactions]; exact hj.line,
    transactions ▸ hj.ended, transactions ▸ hj.waiting⟩

theorem eq_of_isUnderWay (hj : o.Turn j) (ht : o.transactions[n]? = some t)
    (h : t.IsUnderWay) : n = j :=
  hj.eq_of_step ht h.2 fun hq => absurd hq h.1

end Orchestrator.Turn

namespace State

variable {s u t : State} {a : Action} {h : List Moment} {j : Nat}

/-! ### The calls follow the line -/

/-- An action makes calls of the transaction whose turn it is, and of no other one. -/
theorem turn_of_perform (hj : s.self.Turn j) (h : s.perform a = some u) :
    ∃ j', j ≤ j' ∧ u.self.Turn j' ∧
      s.self.transactions.length ≤ u.self.transactions.length ∧
      ∃ made, u.world.calls = s.world.calls ++ made ∧
        ∀ c ∈ made, ∀ k, c.1 = .transaction k → k = j ∧ k < s.self.transactions.length := by
  cases traffic_of_perform h with
  | advances n t stage here keeps advances first self =>
      obtain rfl := hj.eq_of_step here advances.unfinished first
      obtain ⟨made, hmade, hown⟩ := keeps.calls
      have hn : n < s.self.transactions.length := (List.getElem?_eq_some_iff.mp here).1
      refine ⟨_, ?_, self ▸ hj.advance here, ?_, made, hmade, fun c hc k hk => ?_⟩
      · split <;> omega
      · simp [self, advanceSelf, Orchestrator.setTransaction]
      · rw [hown c hc] at hk
        cases hk
        exact ⟨rfl, hn⟩
  | enqueues n l attempt here ready going transactions line inst calls =>
      exact ⟨j, Nat.le_refl j, hj.enqueue transactions line, by simp [transactions],
        [], by simp [calls], by simp⟩
  | stays other transactions line inst calls =>
      obtain ⟨made, hmade, hown⟩ := calls
      exact ⟨j, Nat.le_refl j, hj.congr transactions line, by simp [transactions],
        made, hmade, fun c hc k hk => absurd hk (hown c hc k)⟩

theorem IsStart.turn (hs : s.IsStart) : s.self.Turn 0 := by
  obtain ⟨number, config, blueprint, setup, hself⟩ := hs.eq_withConfig
  rw [hself]
  refine ⟨?_, ?_, ?_, ?_⟩ <;> simp [Orchestrator.withConfig]

/-- The calls of the transactions are made in the order of the line. -/
def InLine (calls : List Call) : Prop :=
  calls.Pairwise fun c d => ∀ a b, c.1 = .transaction a → d.1 = .transaction b → a ≤ b

theorem calls_of_trace (hs : s.IsStart) (ht : Trace s h t) :
    ∃ j, t.self.Turn j ∧ ∃ made, t.world.calls = s.world.calls ++ made ∧ InLine made ∧
      ∀ c ∈ made, ∀ k, c.1 = .transaction k → k ≤ j ∧ k < t.self.transactions.length := by
  induction ht with
  | start => exact ⟨0, hs.turn, [], by simp, .nil, by simp⟩
  | step _ hp ih =>
      obtain ⟨j, hj, made, hmade, hline, hbound⟩ := ih
      obtain ⟨j', hle, hj', hlen, more, hmore, hown⟩ := turn_of_perform hj hp
      refine ⟨j', hj', made ++ more, by rw [hmore, hmade, List.append_assoc], ?_, ?_⟩
      · refine List.pairwise_append.mpr ⟨hline, ?_, fun c hc d hd a b ha hb => ?_⟩
        · refine List.pairwise_of_forall_mem_list fun c hc d hd a b ha hb => ?_
          exact Nat.le_of_eq ((hown c hc a ha).1.trans (hown d hd b hb).1.symm)
        · rw [(hown d hd b hb).1]
          exact (hbound c hc a ha).1
      · intro c hc k hk
        rcases List.mem_append.mp hc with hc | hc
        · obtain ⟨h₁, h₂⟩ := hbound c hc k hk
          exact ⟨Nat.le_trans h₁ hle, by omega⟩
        · obtain ⟨h₁, h₂⟩ := hown c hc k hk
          exact ⟨h₁ ▸ hle, by omega⟩

end State

/-! ### The line follows the deployments -/

/-- The moment begins an attempt of the `n`-th loop, with the `k`-th transaction. -/
def Moment.Begins (e : Moment) (n k : Nat) : Prop :=
  ∃ l attempt, e.action = .step (.loop n) ∧ e.state.self.loops[n]? = some l ∧
    l.stage = .ready attempt ∧ l.cancelled = false ∧ e.state.self.transactions.length = k

/-- The `k`-th transaction is an attempt of the `n`-th loop. -/
def Serves (h : List Moment) (n k : Nat) : Prop := ∃ e ∈ h, e.Begins n k

theorem serves_cons {e : Moment} {h : List Moment} {n k : Nat} :
    Serves (e :: h) n k ↔ e.Begins n k ∨ Serves h n k := by
  simp [Serves]

/-- Every transaction is an attempt of one loop, and later ones are attempts of later loops. -/
structure Served (h : List Moment) (o : Orchestrator) : Prop where
  bound : ∀ n k, Serves h n k → n < o.loops.length ∧ k < o.transactions.length
  ordered : ∀ m n a b, Serves h m a → Serves h n b → a ≤ b → m ≤ n
  served : ∀ k < o.transactions.length, ∃ n, Serves h n k

namespace Served

variable {h : List Moment} {o o' : Orchestrator} {e : Moment} {n k : Nat}

theorem begins (hs : Served h o) (hb : e.Begins n k)
    (unique : ∀ m j, e.Begins m j → m = n ∧ j = k) (hn : n + 1 = o.loops.length)
    (hk : o.transactions.length = k) (loops : o'.loops.length = o.loops.length)
    (transactions : o'.transactions.length = k + 1) : Served (e :: h) o' := by
  have entry (m j : Nat) (h' : Serves (e :: h) m j) :
      (m = n ∧ j = k) ∨ (Serves h m j ∧ m ≤ n ∧ j < k) := by
    rcases serves_cons.mp h' with hb' | h'
    · exact .inl (unique m j hb')
    · obtain ⟨hm, hj⟩ := hs.bound m j h'
      exact .inr ⟨h', by omega, by omega⟩
  refine ⟨fun m j h' => ?_, fun m m' i j hi hj hle => ?_, fun j hj => ?_⟩
  · rcases entry m j h' with ⟨rfl, rfl⟩ | ⟨-, hm, hj⟩
    · exact ⟨by omega, by omega⟩
    · exact ⟨by omega, by omega⟩
  · rcases entry m i hi with ⟨rfl, rfl⟩ | ⟨hi', hm, hik⟩
    · rcases entry m' j hj with ⟨rfl, -⟩ | ⟨-, -, hlt⟩
      · exact Nat.le_refl _
      · omega
    · rcases entry m' j hj with ⟨rfl, -⟩ | ⟨hj', -, -⟩
      · exact hm
      · exact hs.ordered m m' i j hi' hj' hle
  · rcases Nat.lt_or_ge j k with hlt | hge
    · obtain ⟨m, hm⟩ := hs.served j (by omega)
      exact ⟨m, serves_cons.mpr (.inr hm)⟩
    · obtain rfl : j = k := by omega
      exact ⟨n, serves_cons.mpr (.inl hb)⟩

theorem stays (hs : Served h o) (hb : ∀ n k, ¬ e.Begins n k)
    (loops : o.loops.length ≤ o'.loops.length)
    (transactions : o'.transactions.length = o.transactions.length) : Served (e :: h) o' := by
  have hserves (m j : Nat) : Serves (e :: h) m j ↔ Serves h m j := by
    simp [serves_cons, hb m j]
  refine ⟨fun m j h' => ?_, fun m m' i j hi hj => ?_, fun j hj => ?_⟩
  · obtain ⟨hm, hj⟩ := hs.bound m j ((hserves m j).mp h')
    exact ⟨Nat.lt_of_lt_of_le hm loops, by omega⟩
  · exact hs.ordered m m' i j ((hserves m i).mp hi) ((hserves m' j).mp hj)
  · obtain ⟨m, hm⟩ := hs.served j (by omega)
    exact ⟨m, (hserves m j).mpr hm⟩

end Served

namespace State

variable {s u t : State} {a : Action} {h : List Moment} {n k : Nat}

/-- An attempt that begins is one of the last loop, and adds one transaction. -/
theorem of_begins {e : Moment} (ho : e.state.self.OneActive) (he : e.Begins n k)
    (h : e.state.perform e.action = some u) :
    n + 1 = e.state.self.loops.length ∧ u.self.loops.length = e.state.self.loops.length ∧
      e.state.self.transactions.length = k ∧ u.self.transactions.length = k + 1 := by
  obtain ⟨l, attempt, hact, hl, hready, hgoing, rfl⟩ := he
  have hlast := ho.last n (ho.current n l hl (by simp [Loop.isFinished, hready]) hgoing)
  have hu : e.state.beginAttempt n l attempt = u := by
    simpa [perform, step, stepLoop, hact, hl, hready] using h
  have hself := (beginAttempt_frame e.state hgoing n attempt).1
  rw [hu] at hself
  exact ⟨hlast, by simp [hself, attemptSelf, Orchestrator.setLoop], rfl,
    by simp [hself, attemptSelf]⟩

theorem transactions_length_of_perform (h : s.perform a = some u)
    (hb : ∀ n k, ¬ Moment.Begins ⟨s, a⟩ n k) :
    u.self.transactions.length = s.self.transactions.length := by
  cases traffic_of_perform h with
  | advances n t stage here keeps advances first self =>
      simp [self, advanceSelf, Orchestrator.setTransaction]
  | enqueues n l attempt here ready going =>
      exact absurd ⟨l, attempt, rfl, here, ready, going, rfl⟩ (hb n s.self.transactions.length)
  | stays other transactions => rw [transactions]

theorem served_of_perform (ho : s.self.OneActive) (hs : Served h s.self)
    (hp : s.perform a = some u) : Served (⟨s, a⟩ :: h) u.self := by
  by_cases hb : ∃ n k, Moment.Begins ⟨s, a⟩ n k
  · obtain ⟨n, k, hb⟩ := hb
    obtain ⟨hlast, hsame, hk, hnew⟩ := of_begins ho hb hp
    refine hs.begins hb (fun m j hb' => ?_) hlast hk hsame hnew
    obtain ⟨hlast', -, hk', -⟩ := of_begins ho hb' hp
    exact ⟨by omega, by omega⟩
  · have hb : ∀ n k, ¬ Moment.Begins ⟨s, a⟩ n k := fun n k h' => hb ⟨n, k, h'⟩
    exact hs.stays hb (loops_length_le_of_perform hp) (transactions_length_of_perform hp hb)

theorem served_of_trace (hs : s.IsStart) (ht : Trace s h t) : Served h t.self := by
  induction ht with
  | start => refine ⟨?_, ?_, ?_⟩ <;> simp [Serves, hs.loops_eq_nil, hs.transactions_eq_nil]
  | step ht hp ih => exact served_of_perform (oneActive_of_trace hs ht) ih hp

/-! ### Order of the calls -/

/-- Between two calls of one transaction no other transaction makes a call. -/
def NoOverlap (calls : List Call) : Prop :=
  ∀ before between after c d k, calls = before ++ c :: (between ++ d :: after) →
    c.1 = .transaction k → d.1 = .transaction k →
      ∀ x ∈ between, ∀ j, x.1 = .transaction j → j = k

/-- Calls for an older deployment come before those for a newer one. -/
def InDeploymentOrder (h : List Moment) (calls : List Call) : Prop :=
  calls.Pairwise fun c d => ∀ a b m n, c.1 = .transaction a → d.1 = .transaction b →
    Serves h m a → Serves h n b → m ≤ n

theorem InLine.noOverlap {calls : List Call} (h : InLine calls) : NoOverlap calls := by
  rintro before between after c d k rfl hc hd x hx j hj
  obtain ⟨-, h, -⟩ := List.pairwise_append.mp h
  obtain ⟨hfirst, h⟩ := List.pairwise_cons.mp h
  obtain ⟨-, -, hlast⟩ := List.pairwise_append.mp h
  have hle : k ≤ j := hfirst x (List.mem_append_left _ hx) k j hc hj
  have hge : j ≤ k := hlast x hx d (List.mem_cons_self ..) j k hj hd
  omega

/-- In every run the transactions take turns, and they make their calls in the order in which
their deployments were started, which is the order of the loops.  This is so whatever becomes of
their attempts: a transaction whose attempt was given up, or whose deployment was superseded, goes
on as well. -/
theorem transactions_in_order (hs : s.IsStart) (ht : Trace s h t) :
    ∃ made told, t.world.calls = s.world.calls ++ made ∧
      t.world.events = s.world.events ++ told ∧
      told.filterMap Event.started? = t.self.loops.map (·.deployment) ∧
      NoOverlap made ∧ InDeploymentOrder h made ∧
      (∀ c ∈ made, ∀ k, c.1 = .transaction k → ∃ n, Serves h n k ∧ ∀ m, Serves h m k → m = n) ∧
      ∀ (j k : Nat) (x y : Transaction), t.self.transactions[j]? = some x →
        t.self.transactions[k]? = some y → x.IsUnderWay → y.IsUnderWay → j = k := by
  obtain ⟨i, hturn, made, hmade, hline, hbound⟩ := calls_of_trace hs ht
  obtain ⟨told, hevents, hstarted, -⟩ := told_of_trace hs ht
  have hserved := served_of_trace hs ht
  refine ⟨made, told, hmade, hevents, hstarted, hline.noOverlap, ?_, fun c hc k hk => ?_,
    fun j k x y hx hy hxw hyw => ?_⟩
  · exact hline.imp fun hle a b m n ha hb hm hn => hserved.ordered m n a b hm hn (hle a b ha hb)
  · obtain ⟨n, hn⟩ := hserved.served k (hbound c hc k hk).2
    refine ⟨n, hn, fun m hm => Nat.le_antisymm ?_ ?_⟩
    · exact hserved.ordered m n k k hm hn (Nat.le_refl k)
    · exact hserved.ordered n m k k hn hm (Nat.le_refl k)
  · rw [hturn.eq_of_isUnderWay hx hxw, hturn.eq_of_isUnderWay hy hyw]

/-- A caller gives up while the first transaction waits for an instance; a second deployment, of a
single file, supersedes the first one, and its transaction waits until that of the first one has
written all files. -/
def takeover : List Action :=
  [.call .allFiles, .step (.caller 0), .step (.loop 0), .step (.transaction 0), .pass 300000,
    .step (.caller 0), .call oneFile, .step (.caller 1), .step (.loop 0), .step (.loop 0),
    .step (.loop 1), .step (.transaction 0), .step (.transaction 0), .step (.transaction 1),
    .step (.transaction 1)]

theorem transactions_in_order_of_takeover :
    ∃ t, furnished.IsStart ∧ Trace furnished (furnished.history takeover) t ∧
      t.self.loops.length = 2 ∧
      ∃ made, t.world.calls = furnished.world.calls ++ made ∧
        made.map (·.1) = [.transaction 0, .transaction 0, .transaction 1, .transaction 1] ∧
        made.filterMap Call.write? =
          [(.transaction 0, [⟨"index.html", "x"⟩, ⟨"src/App.tsx", "v1"⟩]),
            (.transaction 1, oneFile.files)] ∧
        NoOverlap made ∧ InDeploymentOrder (furnished.history takeover) made := by
  have hrun : (furnished.follow takeover).map (fun t => (t.self.loops.length,
      t.world.calls.map (·.1), t.world.calls.filterMap Call.write?)) =
        some (2, [.transaction 0, .transaction 0, .transaction 1, .transaction 1],
          [(.transaction 0, [⟨"index.html", "x"⟩, ⟨"src/App.tsx", "v1"⟩]),
            (.transaction 1, oneFile.files)]) := by
    rw [furnished, Project.ofTemplate_eq]
    simp only [takeover, follow, perform, step, stepTransaction, Transaction.step,
      Transaction.created, Transaction.checked, Transaction.beginWriting, Selection.select,
      Selection.ofCandidates_eq]
    decide +kernel
  obtain ⟨t, ht, hv⟩ := trace_of_map hrun
  simp only [Prod.mk.injEq] at hv
  obtain ⟨hloops, hcallers, hwrites⟩ := hv
  obtain ⟨made, -, hmade, -, -, hover, horder, -⟩ := transactions_in_order isStart_furnished ht
  have hnone : furnished.world.calls = [] := rfl
  rw [hmade, hnone, List.nil_append] at hcallers hwrites
  exact ⟨t, isStart_furnished, ht, hloops, made, hmade, hcallers, hwrites, hover, horder⟩

end State

end PreviewDeploy
