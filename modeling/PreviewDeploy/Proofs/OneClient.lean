import PreviewDeploy.Proofs.Calls
import PreviewDeploy.Proofs.IdentityHistory
import PreviewDeploy.Proofs.InstanceFiles
import PreviewDeploy.Proofs.MintedTokens

/-!
# One client for each transaction

The session can be replaced at any point of a transaction, by the loop that has given the
transaction up or by a later one.  The transaction keeps the client that it found when it began,
which is bound to the session of that time (`TransactionStage.GoesThrough`): all its calls and the
setup commands after it go through that client, new instances are made for the session of that
client, and only while it is the current one does the transaction record an instance
(`State.oneClient_of_trace`).
-/

namespace PreviewDeploy

/-! ### Stages -/

/-- A transaction has begun, and goes through a client. -/
def TransactionStage.GoesThrough (c : Client) : TransactionStage → Prop
  | .queued => False
  | .checking client _ _ | .creating client _ => client = c
  | .writing target _ _ | .readingLogs target _ _ | .clearingErrors target _ _ => target.client = c
  | .finished _ (.ok exec) => exec.client = c
  | .finished _ (.error _) => True

namespace Transaction

variable {b : Blueprint} {n : Nat} {request : Request} {s s' : Site} {stage : TransactionStage}
  {target : Ensured} {written : Nat} {client c : Client}

theorem goesThrough_beginClearing :
    (beginClearing n request target written s).2.GoesThrough target.client := by
  rw [beginClearing_eq]
  split <;> rfl

theorem goesThrough_beginWriting :
    (beginWriting b n request target s).2.GoesThrough target.client := by
  rw [beginWriting_eq]
  simp only
  split
  · exact goesThrough_beginClearing
  · rfl

theorem goesThrough_beginCreating : (beginCreating b n client s).2.GoesThrough client := by
  unfold beginCreating
  simp only
  split
  · trivial
  · rfl

theorem goesThrough_begin : (begin b n request s).2.GoesThrough s.connect.1 := by
  unfold begin
  simp only
  split
  · rfl
  · exact goesThrough_beginCreating

theorem goesThrough_checked {known : Instance}
    {result : Except ControlPlane.Fault ControlPlane.InstanceStatus} :
    (checked b n request client known result s).2.GoesThrough client := by
  unfold checked
  split
  · split
    · exact @goesThrough_beginWriting b n request s ⟨known, false, client⟩
    · exact goesThrough_beginCreating
  · exact goesThrough_beginCreating

theorem goesThrough_created {result : Except ControlPlane.Fault ControlPlane.CreateResponse} :
    (created b n request client result s).2.GoesThrough client := by
  unfold created
  split
  · trivial
  · split
    · trivial
    · rename_i inst _
      exact @goesThrough_beginWriting b n request _ ⟨inst, true, client⟩

theorem goesThrough_wrote {files : List File}
    {result : Except ControlPlane.Fault ControlPlane.WriteResponse} :
    (wrote n request target files result s).2.GoesThrough target.client := by
  unfold wrote
  split
  · trivial
  · simp only
    split
    · trivial
    · exact goesThrough_beginClearing

/-- A transaction goes on through its client; the first step takes the client of the site. -/
theorem goesThrough_of_step {t : Transaction} {first : Bool}
    (h : t.step b n first s = some (s', stage)) :
    (t.stage = .queued → stage.GoesThrough s.connect.1) ∧
      (t.stage.GoesThrough c → stage.GoesThrough c) := by
  have ends {o : Outcome} {c : Client} (h : o = (s', stage)) (hc : o.2.GoesThrough c) :
      stage.GoesThrough c := by
    rw [h] at hc
    exact hc
  have hsteps := stepsFrom_of_step h
  generalize t.stage = place at hsteps ⊢
  cases hsteps with
  | queued free goes => exact ⟨fun _ => ends goes goesThrough_begin, False.elim⟩
  | checking client known reply goes =>
      refine ⟨nofun, ?_⟩
      rintro rfl
      exact ends goes goesThrough_checked
  | creating client reply goes =>
      refine ⟨nofun, ?_⟩
      rintro rfl
      exact ends goes goesThrough_created
  | writing target files reply goes =>
      refine ⟨nofun, ?_⟩
      rintro rfl
      exact ends goes goesThrough_wrote
  | readingLogs target written reply goes =>
      refine ⟨nofun, ?_⟩
      rintro rfl
      exact ends goes rfl
  | clearingErrors target written reply goes =>
      refine ⟨nofun, ?_⟩
      rintro rfl
      exact ends goes rfl

theorem Asks.client_eq {call : Call} (h : Asks b n request s stage call)
    (hc : stage.GoesThrough c) : call.2.1 = c := by
  cases h <;> exact hc

end Transaction

/-! ### The client of a session -/

/-- The client that is there was built for the current session. -/
def Identity.Fits (id : Identity) : Prop := ∀ c, id.client = some c → c.session = id.session.id

namespace Site

variable {s : Site}

theorem session_connect (h : s.identity.Fits) : s.connect.1.session = s.identity.session.id := by
  unfold connect
  split
  · rename_i c hc
    exact h c hc
  · rfl

/-- The session stays, and the client as well, unless one is built for the session. -/
def Retains (s s' : Site) : Prop :=
  s'.identity.session = s.identity.session ∧
    (s'.identity.client = s.identity.client ∨ s'.identity.client = some s.connect.1)

theorem Retains.fits {s' : Site} (h : s.Retains s') (hf : s.identity.Fits) :
    s'.identity.Fits := by
  intro c hc
  rw [h.1]
  obtain hkept | hbuilt := h.2
  · exact hf c (hkept ▸ hc)
  · rw [Option.some.inj (hc.symm.trans hbuilt)]
    exact session_connect hf

end Site

namespace Transaction

variable {b : Blueprint} {n : Nat} {request : Request} {s s' : Site} {stage : TransactionStage}
  {target : Ensured} {client : Client}

theorem client_of_begin (h : begin b n request s = (s', stage)) :
    s'.identity.client = some s.connect.1 := by
  unfold begin at h
  simp only at h
  split at h
  · obtain ⟨rfl, -⟩ := Prod.mk.inj h
    simp
  · rw [(isSearching_of_beginCreating h).2.1, Site.connect_identity]

theorem client_of_checked {known : Instance}
    {result : Except ControlPlane.Fault ControlPlane.InstanceStatus}
    (h : checked b n request client known result s = (s', stage)) :
    s'.identity.client = s.identity.client := by
  unfold checked at h
  split at h
  · split at h
    · rw [(isSettled_of_beginWriting h).2.1]
    · rw [(isSearching_of_beginCreating h).2.1]
  · rw [(isSearching_of_beginCreating h).2.1]
    rfl

theorem client_of_created {result : Except ControlPlane.Fault ControlPlane.CreateResponse}
    (h : created b n request client result s = (s', stage)) :
    s'.identity.client = s.identity.client := by
  unfold created at h
  split at h
  · obtain ⟨rfl, -⟩ := Prod.mk.inj h
    rfl
  · split at h
    · obtain ⟨rfl, -⟩ := Prod.mk.inj h
      rfl
    · rename_i inst _
      have hset : (s.setInstanceIf client.session inst).2.identity.client =
          s.identity.client := by
        rw [Site.setInstanceIf_identity]
        split <;> rfl
      simp only at h
      rw [(isSettled_of_beginWriting h).2.1]
      split <;> exact hset

theorem client_of_wrote {files : List File}
    {result : Except ControlPlane.Fault ControlPlane.WriteResponse}
    (h : wrote n request target files result s = (s', stage)) :
    s'.identity.client = s.identity.client := by
  unfold wrote at h
  split at h
  · obtain ⟨rfl, -⟩ := Prod.mk.inj h
    rw [Site.clearInstanceIf_identity]
  · rename_i response
    have hwarned := (keeps_foldl_warn (n := n) "file write failed" response.failed s).2
    simp only at h
    split at h
    · obtain ⟨rfl, -⟩ := Prod.mk.inj h
      rw [Site.clearInstanceIf_identity, hwarned]
    · rw [(isPast_of_beginClearing h).2.1, hwarned]

/-- Only the first step of a transaction touches the client, and only if there is none. -/
theorem retains_of_step {t : Transaction} {first : Bool}
    (h : t.step b n first s = some (s', stage)) : s.Retains s' := by
  refine ⟨(advances_of_step h).1.session, ?_⟩
  have hsteps := stepsFrom_of_step h
  generalize t.stage = place at hsteps
  cases hsteps with
  | queued free goes => exact .inr (client_of_begin goes)
  | checking client known reply goes => exact .inl (client_of_checked goes)
  | creating client reply goes => exact .inl (client_of_created goes)
  | writing target files reply goes => exact .inl (client_of_wrote goes)
  | readingLogs target written reply goes =>
      obtain ⟨rfl, -⟩ := Prod.mk.inj goes
      refine .inl ?_
      simp only
      split <;> rfl
  | clearingErrors target written reply goes =>
      obtain ⟨rfl, -⟩ := Prod.mk.inj goes
      refine .inl ?_
      split <;> rfl

end Transaction

/-- Only a tick of a watch touches the client, and only if there is none. -/
theorem Monitor.retains_of_step {hs : Healers} {n : Nat} {s s' : Site} {m m' : Monitor}
    {heals : Bool} (h : m.step hs n s = some (s', m', heals)) : s.Retains s' := by
  refine ⟨(keeps_of_step h).session, ?_⟩
  obtain ⟨w, -, hsteps⟩ := stepsFrom_of_step h
  cases hsteps with
  | stops due unhealthy sleeping cancelled goes =>
      obtain ⟨rfl, -⟩ := Prod.mk.inj goes
      exact .inl rfl
  | ticks due unhealthy sleeping going goes =>
      simp only [tick, Prod.mk.injEq] at goes
      obtain ⟨rfl, -⟩ := goes
      exact .inr (by simp)
  | answered next unhealthy reply asking goes =>
      unfold Monitor.answered trigger at goes
      simp only at goes
      repeat' split at goes
      all_goals
        obtain ⟨rfl, -⟩ := Prod.mk.inj goes
        exact .inl (by simp)

namespace State

variable {s t u : State} {a : Action} {h : List Moment} {k n : Nat} {c : Client}

theorem fits_of_perform (hf : s.identity.Fits) (hp : s.perform a = some u) : u.identity.Fits := by
  cases deed_of_perform hp with
  | transaction n hstep =>
      obtain ⟨x, site, stage, -, hstep, -, hid, -⟩ := stepTransaction_cases hstep
      rw [hid]
      exact (Transaction.retains_of_step hstep).fits hf
  | loop n hstep =>
      obtain ⟨l, -, hs⟩ := stepLoop_cases hstep
      cases hs with
      | stops => simpa using hf
      | begins attempt ready going => simpa [s.beginAttempt_frame going n attempt] using hf
      | succeeds attempt session k deadline attempting e result =>
          by_cases hset : s.self.setup = []
          · rw [(succeed_of_nil s hset n l attempt e).2.1]
            exact hf
          · rw [(succeed_of_ne_nil s hset n l attempt e).2.1]
            exact hf
      | fails attempt session k deadline attempting f result =>
          simp only [failAttempt_frame, identityAfter]
          split
          · intro c hc
            cases hc
          · simpa [Identity.Fits] using hf
      | retries => exact hf
      | completes => simpa using hf
  | caller n hstep =>
      obtain ⟨c, -, hs⟩ := stepCaller_cases hstep
      cases hs with
      | refused => simpa using hf
      | joins => simpa using hf
      | starts => simpa using hf
      | returns => simpa using hf
      | expires => simpa using hf
  | watch n hstep =>
      obtain ⟨site, monitor, heals, -, -, hid, -, -, -, -, hm⟩ := stepWatch_cases hstep
      rw [hid]
      exact (Monitor.retains_of_step hm).fits hf
  | passes => exact hf
  | calls => simpa using hf
  | abandons => simpa using hf
  | shuts => simpa using hf
  | releases => simpa using hf
  | sets other _ self identity => rwa [identity]

theorem IsStart.fits (hs : s.IsStart) : s.identity.Fits := by
  obtain ⟨number, project, config, blueprint, setup, w, rfl⟩ := hs
  have fresh : (start number project config blueprint setup w).toSite.IsFresh := by
    cases project with
    | none => exact ⟨w, .inl rfl⟩
    | some p => exact ⟨w, .inr ⟨p, rfl⟩⟩
  intro c hc
  rw [fresh.client] at hc
  cases hc

theorem fits_of_trace (hs : s.IsStart) (ht : Trace s h t) : t.identity.Fits := by
  induction ht with
  | start => exact hs.fits
  | step _ hp ih => exact fits_of_perform ih hp

end State

/-! ### Moments -/

namespace Moment

/-- The transaction that is served at a moment: it goes on, or the loop that waits for it does. -/
def serves? (e : Moment) : Option Nat :=
  match e.action with
  | .step (.transaction k) => some k
  | .step (.loop n) =>
    match e.state.self.loops[n]?.map Loop.stage with
    | some (.attempting _ _ k _) => some k
    | _ => none
  | _ => none

/-- The `k`-th transaction begins at a moment, and takes the client of the session of that time. -/
structure Connects (e : Moment) (k : Nat) (c : Client) : Prop where
  action : e.action = .step (.transaction k)
  queued : e.state.self.transactions[k]?.map Transaction.stage = some .queued
  client : e.state.connect.1 = c
  session : c.session = e.state.identity.session.id

/-- What the `k`-th transaction does at a moment is done through a client and for its session. -/
structure KeepsTo (e : Moment) (k : Nat) (c : Client) : Prop where
  /-- Its calls and the setup commands after it go through the client. -/
  calls {call : Call} : e.serves? = some k → e.Makes call → call.2.1 = c
  /-- The environment of a new instance is one for the session of the client. -/
  minted {request : ControlPlane.CreateRequest} :
    e.Makes (.transaction k, c, .create request) → ∃ nonce,
      e.state.self.blueprint.env.forSession c.session e.state.world.unixSeconds nonce =
        .ok request.envVars
  /-- If there is a proxy, the token in it is accepted by the proxy as one of that session until
  it expires. -/
  token {request : ControlPlane.CreateRequest} {fixed : Vars} {proxy : Proxy} :
    e.Makes (.transaction k, c, .create request) →
      e.state.self.blueprint.env = .vars fixed (some proxy) →
      ∃ token claims, request.envVars.get? InstanceEnv.tokenVar = some token ∧
        claims.subject = c.session.text ∧ claims.issuedAt = e.state.world.unixSeconds ∧
        ∀ now, Token.leeway ≤ now → now - Token.leeway ≤ claims.expires.toInt →
          Token.verify proxy.secret now token = .ok claims
  /-- An instance is recorded only while the session of the client is the current one. -/
  recorded {u : State} {inst : Instance} : e.action = .step (.transaction k) →
    e.state.perform e.action = some u → u.identity.inst = some inst →
    e.state.identity.inst ≠ some inst →
    e.state.identity.session.id = c.session ∧ u.identity.session = e.state.identity.session

end Moment

/-- What a transaction does in a run is done through one client, that of the session at its
beginning. -/
structure OneClient (h : List Moment) (k : Nat) (c : Client) : Prop where
  begun : (∃ e ∈ h, e.action = .step (.transaction k)) → ∃ e ∈ h, e.Connects k c
  kept : ∀ e ∈ h, e.KeepsTo k c

namespace State

variable {s t u : State} {a : Action} {h : List Moment} {k n : Nat} {c : Client} {e : Moment}

/-- The `k`-th transaction has begun, and goes through a client. -/
def IsBound (k : Nat) (c : Client) (s : State) : Prop :=
  ∃ x, s.self.transactions[k]? = some x ∧ x.stage.GoesThrough c

/-- The `k`-th transaction has not begun. -/
def IsUnbegun (k : Nat) (s : State) : Prop :=
  ∀ x, s.self.transactions[k]? = some x → x.stage = .queued

theorem isBound_of_perform (hb : s.IsBound k c) (hp : s.perform a = some u) : u.IsBound k c := by
  obtain ⟨x, hx, hc⟩ := hb
  cases traffic_of_perform hp with
  | stays other transactions => exact ⟨x, transactions ▸ hx, hc⟩
  | enqueues n l attempt here ready going transactions =>
      exact ⟨x, transactions ▸ getElem?_concat_of_some hx, hc⟩
  | advances n y stage here keeps advances first self =>
      by_cases hn : k = n
      · subst hn
        obtain ⟨x', site, stage', hx', hstep, hself, -⟩ := stepTransaction_cases hp
        obtain rfl := Option.some.inj (hx.symm.trans hx')
        exact ⟨_, hself ▸ getElem?_advanceSelf hx, (Transaction.goesThrough_of_step hstep).2 hc⟩
      · refine ⟨x, ?_, hc⟩
        rw [self, getElem?_advanceSelf_of_ne hn, hx]

theorem isBound_of_begin (hq : s.IsUnbegun k) (hp : s.perform (.step (.transaction k)) = some u) :
    u.IsBound k s.connect.1 := by
  obtain ⟨x, site, stage, hx, hstep, hself, -⟩ := stepTransaction_cases hp
  exact ⟨_, hself ▸ getElem?_advanceSelf hx,
    (Transaction.goesThrough_of_step (c := s.connect.1) hstep).1 (hq x hx)⟩

theorem isUnbegun_of_perform (hq : s.IsUnbegun k) (other : a ≠ .step (.transaction k))
    (hp : s.perform a = some u) : u.IsUnbegun k := by
  intro x hx
  cases traffic_of_perform hp with
  | stays _ transactions => exact hq x (transactions ▸ hx)
  | enqueues n l attempt here ready going transactions =>
      rcases of_getElem?_concat (transactions ▸ hx) with hx | ⟨-, rfl⟩
      · exact hq x hx
      · rfl
  | advances n y stage here keeps advances first self =>
      rcases of_getElem?_advanceSelf here (self ▸ hx) with ⟨rfl, -⟩ | ⟨-, hx⟩
      · exact absurd rfl other
      · exact hq x hx

/-- The stage of the `k`-th transaction goes through the client, or it is to begin with it. -/
def IsBoundTo (k : Nat) (c : Client) (e : Moment) : Prop :=
  ∀ x, e.state.self.transactions[k]? = some x → x.stage.GoesThrough c ∨
    x.stage = .queued ∧ (e.action = .step (.transaction k) → e.state.connect.1 = c)

theorem finished_of_attemptResult? {deadline : Nat} {exec : Execution}
    (hr : s.attemptResult? k deadline = some (.ok exec)) :
    ∃ x time, s.self.transactions[k]? = some x ∧ x.stage = .finished time (.ok exec) := by
  unfold attemptResult? at hr
  split at hr
  · rename_i result hresult
    obtain rfl := Option.some.inj hr
    obtain ⟨x, hx, hresult⟩ := Option.bind_eq_some_iff.mp hresult
    unfold Transaction.result? at hresult
    split at hresult
    · rename_i time result hstage
      obtain rfl := Option.some.inj hresult
      exact ⟨x, time, hx, hstage⟩
    · cases hresult
  · simp at hr

/-- The calls of a transaction, and the setup commands after it, go through the client to which it
is bound. -/
theorem client_of_makes {call : Call} (hb : IsBoundTo k c e) (hserves : e.serves? = some k)
    (hmakes : e.Makes call) : call.2.1 = c := by
  cases asks_of_makes hmakes with
  | transaction m x first site stage action here goes asks =>
      obtain rfl : m = k := by simpa [Moment.serves?, action] using hserves
      refine asks.client_eq ?_
      obtain hc | ⟨hq, hc⟩ := hb x here
      · exact (Transaction.goesThrough_of_step goes).2 hc
      · exact hc action ▸ (Transaction.goesThrough_of_step (c := c) goes).1 hq
  | setup n exec success =>
      obtain ⟨l, attempt, session, m, deadline, action, hl, hs, result⟩ :=
        Moment.success?_eq_some.mp success
      obtain rfl : m = k := by simpa [Moment.serves?, action, hl, hs] using hserves
      obtain ⟨x, time, hx, hstage⟩ := finished_of_attemptResult? result
      obtain hc | ⟨hq, -⟩ := hb x hx
      · rw [hstage] at hc
        exact hc
      · cases hstage.symm.trans hq
  | status n w action => simp [Moment.serves?, action] at hserves

theorem minted_of_makes {request : ControlPlane.CreateRequest}
    (hmakes : e.Makes (.transaction k, c, .create request)) : ∃ nonce,
      e.state.self.blueprint.env.forSession c.session e.state.world.unixSeconds nonce =
        .ok request.envVars := by
  cases asks_of_makes hmakes with
  | transaction m x first site stage action here goes asks =>
      cases asks with
      | create client reply vars nonce minted => exact ⟨nonce, minted⟩

/-- A transaction records an instance only while the session of its client is the current one. -/
theorem session_of_records {inst : Instance} (hb : IsBoundTo k c e)
    (action : e.action = .step (.transaction k)) (hp : e.state.perform e.action = some u)
    (hinst : u.identity.inst = some inst) (hother : e.state.identity.inst ≠ some inst) :
    e.state.identity.session.id = c.session ∧ u.identity.session = e.state.identity.session := by
  cases traffic_of_perform (action ▸ hp) with
  | stays other => exact absurd rfl (other k)
  | advances n x stage here keeps advances first self =>
      cases advances with
      | provisions client reply creating inst' named records settled =>
          obtain hc | ⟨hq, -⟩ := hb x here
          · rw [creating] at hc
            obtain rfl : client = c := hc
            rw [records] at hinst
            split at hinst
            · rename_i current
              exact ⟨current, keeps.session⟩
            · exact absurd hinst hother
          · cases creating.symm.trans hq
      | forgets target files reply writing failure failed cleared =>
          rw [cleared] at hinst
          exact absurd (Option.filter_eq_some_iff.mp hinst).1 hother
      | checks queued known client reply inst keeps => exact absurd (keeps ▸ hinst) hother
      | creates queued keeps => exact absurd (keeps ▸ hinst) hother
      | reuses client known reply checking healthy keeps =>
          exact absurd (keeps ▸ hinst) hother
      | discards client known reply checking sick keeps => exact absurd (keeps ▸ hinst) hother
      | fails client reply creating failure refused keeps =>
          exact absurd (keeps ▸ hinst) hother
      | writes target files reply writing success keeps => exact absurd (keeps ▸ hinst) hother
      | clears target written past unfinished keeps => exact absurd (keeps ▸ hinst) hother

/-- What is done at a moment is done through the client to which the transaction is bound. -/
theorem keepsTo_of_isBoundTo (hb : IsBoundTo k c e) : e.KeepsTo k c := by
  refine ⟨client_of_makes hb, minted_of_makes, fun {request fixed proxy} hmakes henv => ?_,
    session_of_records hb⟩
  obtain ⟨nonce, hvars⟩ := minted_of_makes hmakes
  rw [henv] at hvars
  exact ⟨_, Token.claims c.session proxy.ttlSecs e.state.world.unixSeconds nonce,
    InstanceEnv.get?_tokenVar hvars, rfl, rfl,
    fun now since lasts => Token.verify_ofClaims rfl since lasts⟩

/-- As long as a transaction has not begun nothing is done for it; then it is bound to the client
with which it has begun. -/
theorem bound_of_trace (hs : s.IsStart) (ht : Trace s h t) (k : Nat) :
    t.IsUnbegun k ∧ (∀ e ∈ h, e.action ≠ .step (.transaction k)) ∧
        (∀ c, ∀ e ∈ h, e.KeepsTo k c) ∨
      ∃ c, t.IsBound k c ∧ (∃ e ∈ h, e.Connects k c) ∧ ∀ e ∈ h, e.KeepsTo k c := by
  induction ht with
  | start =>
      refine .inl ⟨fun x hx => ?_, by simp, by simp⟩
      rw [hs.transactions_eq_nil] at hx
      cases hx
  | @step h t u a ht hp ih =>
      obtain ⟨unbegun, silent, kept⟩ | ⟨c, bound, begun, kept⟩ := ih
      · by_cases ha : a = .step (.transaction k)
        · subst ha
          have hto : IsBoundTo k t.connect.1 ⟨t, .step (.transaction k)⟩ :=
            fun x hx => .inr ⟨unbegun x hx, fun _ => rfl⟩
          obtain ⟨x, site, stage, hx, -⟩ := stepTransaction_cases hp
          refine .inr ⟨_, isBound_of_begin unbegun hp, ⟨_, List.mem_cons_self .., rfl, ?_, rfl,
            Site.session_connect (fits_of_trace hs ht)⟩,
            List.forall_mem_cons.mpr ⟨keepsTo_of_isBoundTo hto, kept _⟩⟩
          rw [hx, Option.map_some, unbegun x hx]
        · refine .inl ⟨isUnbegun_of_perform unbegun ha hp, List.forall_mem_cons.mpr ⟨ha, silent⟩,
            fun c => List.forall_mem_cons.mpr ⟨keepsTo_of_isBoundTo fun x hx => ?_, kept c⟩⟩
          exact .inr ⟨unbegun x hx, fun action => absurd action ha⟩
      · obtain ⟨e, he, begun⟩ := begun
        have hto : IsBoundTo k c ⟨t, a⟩ := fun x hx => by
          obtain ⟨y, hy, hc⟩ := bound
          obtain rfl := Option.some.inj (hx.symm.trans hy)
          exact .inl hc
        exact .inr ⟨c, isBound_of_perform bound hp, ⟨e, List.mem_cons_of_mem _ he, begun⟩,
          List.forall_mem_cons.mpr ⟨keepsTo_of_isBoundTo hto, kept⟩⟩

/-- In every run each transaction goes through one client, whatever happens to the session
meanwhile; every call of a transaction and all setup commands are among what is done for a
transaction. -/
theorem oneClient_of_trace (hs : s.IsStart) (ht : Trace s h t) :
    (∀ k, ∃ c, OneClient h k c) ∧ ∃ made, t.world.calls = s.world.calls ++ made ∧
      ∀ call ∈ made, ∃ e ∈ h, e.Makes call ∧
        (∀ k, call.1 = .transaction k → e.serves? = some k) ∧
        ∀ inst commands, call.2.2 = .commands inst commands → ∃ k, e.serves? = some k := by
  refine ⟨fun k => ?_, ?_⟩
  · obtain ⟨-, silent, kept⟩ | ⟨c, -, begun, kept⟩ := bound_of_trace hs ht k
    · exact ⟨default, fun ⟨e, he, action⟩ => absurd action (silent e he), kept _⟩
    · exact ⟨c, fun _ => begun, kept⟩
  · obtain ⟨made, hmade, hmakes⟩ := makes_of_trace ht
    refine ⟨made, hmade, fun call hcall => ?_⟩
    obtain ⟨e, he, hmakes⟩ := hmakes call hcall
    refine ⟨e, he, hmakes, ?_⟩
    cases asks_of_makes hmakes with
    | transaction m x first site stage action here goes asks =>
        have hserves : e.serves? = some m := by simp [Moment.serves?, action]
        refine ⟨fun k hk => ?_, fun _ _ _ => ⟨m, hserves⟩⟩
        cases asks <;> exact hserves.trans (congrArg some (Task.transaction.inj hk))
    | setup n exec success =>
        obtain ⟨l, attempt, session, m, deadline, action, hl, hs, -⟩ :=
          Moment.success?_eq_some.mp success
        exact ⟨nofun, fun _ _ _ => ⟨m, by simp [Moment.serves?, action, hl, hs]⟩⟩
    | status n w action => exact ⟨nofun, nofun⟩

/-- An orchestrator whose attempts are given up after three seconds, and each time the session is
replaced.  New instances get a token for the proxy. -/
def brisk : State :=
  .start 0 none { attemptTimeout := .ofMillis 3000, rotationThreshold := 1 }
    { env := .vars .empty (some ⟨"https://proxy", "secret", 3600⟩) } [] {}

/-- The session is replaced while a transaction waits for its instance; then the instance comes,
and its logs are cleared. -/
def overtaking : List Action :=
  [.prepare { create := [⟨5000, .ok
      { success := true, runId := some "run-1", previewUrl := some "https://run-1" }⟩] },
    .call { files := [], clearLogs := true }, .step (.caller 0), .step (.loop 0),
    .step (.transaction 0), .pass 3000, .step (.loop 0), .pass 2000, .step (.transaction 0),
    .step (.transaction 0)]

/-- The logs are still cleared through the client of the former session, and the instance is not
recorded for the new one. -/
theorem oneClient_of_trace_of_overtaking : ∃ h t c, Trace brisk h t ∧ OneClient h 0 c ∧
    t.world.calls.map (·.2.1) = [c, c, c] ∧ t.identity.session.id ≠ c.session ∧
    t.identity.inst = none := by
  let client : Client := ⟨0, brisk.identity.session.id⟩
  have hrun : (brisk.follow overtaking).map (fun t =>
      (t.world.calls.map fun call => (call.1, call.2.1),
        decide (t.identity.session.id = client.session), t.identity.inst)) =
      some (List.replicate 3 (.transaction 0, client), false, none) := by
    decide +kernel
  obtain ⟨t, ht, hv⟩ := trace_of_map hrun
  simp only [Prod.mk.injEq, decide_eq_false_iff_not] at hv
  obtain ⟨hcalls, hsession, hinst⟩ := hv
  have hstart : brisk.IsStart := ⟨0, none, _, _, [], {}, rfl⟩
  obtain ⟨hone, made, hmade, hserved⟩ := oneClient_of_trace hstart ht
  obtain ⟨c, hc⟩ := hone 0
  have hnone : brisk.world.calls = [] := by decide +kernel
  rw [hnone, List.nil_append] at hmade
  obtain ⟨⟨task, client', request⟩, rest, hcons, hhead, -⟩ := List.map_eq_cons_iff.mp hcalls
  obtain ⟨rfl, rfl⟩ := Prod.mk.inj hhead
  obtain ⟨e, he, hmakes, hserves, -⟩ := hserved _ (hmade ▸ hcons ▸ List.mem_cons_self ..)
  obtain rfl : client = c := (hc.kept e he).calls (hserves 0 rfl) hmakes
  refine ⟨_, t, client, ht, hc, ?_, hsession, hinst⟩
  have hclients := congrArg (List.map Prod.snd) hcalls
  rwa [List.map_map] at hclients

end State

end PreviewDeploy
