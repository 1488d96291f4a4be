import PreviewDeploy.Proofs.Frames

/-!
# Histories of an identity

An identity is only changed by its five operations, in any order and with any arguments, while
the world changes elsewhere as it likes.  Session, client and instance depend on each other: the
client that is handed out was built for the session that is the current one, once for each
session, and the instance that is known was recorded for it (`Site.coherent_of_history`).  What
happened up to a point is a list of visits, the last one first.
-/

namespace PreviewDeploy

/-- What can be done to an identity. -/
inductive Operation where
  | connect
  | rotate
  | setInstanceIf (session : SessionId) (inst : Instance)
  | clearInstanceIf (name : InstanceId)
  | clearInstance
  deriving DecidableEq, Repr

namespace World

/-- The sessions for which clients were built, the last one first. -/
def builds (w : World) : List SessionId :=
  w.log.filterMap fun
    | (_, .newClient session) => some session
    | _ => none

variable (w : World)

@[simp] theorem builds_persist (complaint : String)
    (write : Store → Except Store.StoreError Store) :
    (w.persist complaint write).builds = w.builds := by
  unfold persist
  cases w.store with
  | none => rfl
  | some s =>
      simp only
      split
      · rfl
      · simp [builds, warn, note]

@[simp] theorem builds_mintSession : w.mintSession.2.builds = w.builds := rfl

end World

namespace Identity

variable (id : Identity) (w : World)

@[simp] theorem builds_sessionSaved : (id.sessionSaved w).builds = w.builds := by
  unfold sessionSaved
  split <;> simp

@[simp] theorem builds_instanceSaved : (id.instanceSaved w).builds = w.builds := by
  unfold instanceSaved
  split <;> simp

end Identity

namespace Site

/-- The site after an operation. -/
def operate (s : Site) : Operation → Site
  | .connect => s.connect.2
  | .rotate => s.rotate
  | .setInstanceIf session inst => (s.setInstanceIf session inst).2
  | .clearInstanceIf name => (s.clearInstanceIf name).2
  | .clearInstance => s.clearInstance

/-- What an operation says, if it says whether it did anything. -/
def reply? (s : Site) : Operation → Option Bool
  | .setInstanceIf session inst => some (s.setInstanceIf session inst).1
  | .clearInstanceIf name => some (s.clearInstanceIf name).1
  | _ => none

/-- An identity that was just made: a new one, or what is stored for a project. -/
def IsFresh (s : Site) : Prop :=
  ∃ w, s = Identity.start none w ∨ ∃ project, s = Identity.restore project w

variable {s : Site}

theorem IsFresh.client (h : s.IsFresh) : s.identity.client = none := by
  obtain ⟨w, rfl | ⟨project, rfl⟩⟩ := h
  · rfl
  · unfold Identity.restore
    repeat' split
    all_goals rfl

/-! ### Single operations -/

variable {op : Operation}

/-- Only a rotation replaces the session, and it takes the client with it. -/
theorem identity_operate_of_ne (h : op ≠ .rotate) :
    (s.operate op).identity.session = s.identity.session ∧
      ∀ c, s.identity.client = some c → (s.operate op).identity.client = some c := by
  cases op with
  | connect =>
      refine ⟨by simp [operate], fun c hc => ?_⟩
      simp [operate, connect, hc]
  | rotate => exact absurd rfl h
  | setInstanceIf session inst =>
      simp only [operate, setInstanceIf_identity]
      split <;> exact ⟨rfl, fun _ hc => hc⟩
  | clearInstanceIf name => simp [operate, clearInstanceIf_identity]
  | clearInstance => simp [operate]

theorem client_operate_of_ne (h : op ≠ .connect) (hc : s.identity.client = none) :
    (s.operate op).identity.client = none := by
  cases op with
  | connect => exact absurd rfl h
  | rotate => rfl
  | setInstanceIf session inst =>
      simp only [operate, setInstanceIf_identity]
      split <;> exact hc
  | clearInstanceIf name => simpa [operate, clearInstanceIf_identity] using hc
  | clearInstance => simpa [operate] using hc

/-- The factory is only called when the client is asked for and there is none. -/
theorem builds_operate (s : Site) (op : Operation) :
    (s.operate op).world.builds = s.world.builds ∨
    op = .connect ∧ s.identity.client = none ∧
      (s.operate op).world.builds = s.identity.session.id :: s.world.builds := by
  cases op with
  | connect =>
      cases hc : s.identity.client with
      | some c => exact .inl (by simp [operate, connect, hc])
      | none => exact .inr ⟨rfl, rfl, by simp [operate, connect, hc, World.builds, World.note]⟩
  | rotate => exact .inl (by simp [operate, rotate])
  | setInstanceIf session inst =>
      refine .inl ?_
      simp only [operate, setInstanceIf]
      split <;> simp
  | clearInstanceIf name =>
      refine .inl ?_
      simp only [operate, clearInstanceIf, dropInstance]
      repeat' split
      all_goals simp
  | clearInstance =>
      refine .inl ?_
      simp only [operate, clearInstance, dropInstance]
      split <;> simp

/-- An operation that says that it did nothing did nothing. -/
theorem operate_of_refused (h : s.reply? op = some false) : s.operate op = s := by
  cases op with
  | connect => cases h
  | rotate => cases h
  | clearInstance => cases h
  | setInstanceIf session inst =>
      have hne : s.identity.session.id ≠ session := by simpa [reply?] using h
      simp [operate, setInstanceIf, hne]
  | clearInstanceIf name =>
      simp only [reply?, operate, clearInstanceIf, Option.some.injEq] at h ⊢
      split at h
      · split at h
        · cases h
        · rename_i hne
          simp [hne]
      · rfl

theorem reply?_clearInstanceIf (name : InstanceId) :
    s.reply? (.clearInstanceIf name) = some (decide (s.identity.inst.map (·.id) = some name)) := by
  simp only [reply?, clearInstanceIf]
  cases s.identity.inst with
  | none => simp
  | some i => by_cases hi : i.id = name <;> simp [hi]

end Site

/-- An operation and the site on which it is done. -/
structure Visit where
  site : Site
  operation : Operation

namespace Visit

variable (e : Visit)

def after : Site := e.site.operate e.operation

/-- The client that is handed out to who asks for it. -/
def client : Client := e.site.connect.1

/-- A client is built: it is the next of all, and for the session it bears. -/
structure Builds (c : Client) : Prop where
  logged : e.after.world.builds = c.session :: e.site.world.builds
  serial : c.serial = e.site.world.clients
  counted : e.after.world.clients = c.serial + 1

/-- The known instance is cleared or replaced: there is a new session, an instance is recorded
for the current one, or the known instance is to be cleared. -/
def Touches : Prop :=
  match e.operation with
  | .connect => False
  | .rotate => True
  | .setInstanceIf session _ => e.site.identity.session.id = session
  | .clearInstanceIf name => e.site.identity.inst.map (·.id) = some name
  | .clearInstance => True

variable {e : Visit} {c : Client} {x : Instance}

/-- A client is only built if there is none, for the current session; it is the one that is
handed out. -/
theorem Builds.inv (h : e.Builds c) : e.operation = .connect ∧ e.site.identity.client = none ∧
    c.session = e.site.identity.session.id ∧ c = e.client := by
  rcases e.site.builds_operate e.operation with hb | ⟨hop, hc, hb⟩
  · have := h.logged
    rw [after, hb] at this
    exact absurd this.symm (List.cons_ne_self _ _)
  · have hl := h.logged
    rw [after, hb, List.cons.injEq] at hl
    refine ⟨hop, hc, hl.1.symm, ?_⟩
    simp only [client, Site.connect, hc]
    obtain ⟨serial, session⟩ := c
    exact congr (congrArg Client.mk h.serial) hl.1.symm

theorem builds_of_connect (hop : e.operation = .connect) (hc : e.site.identity.client = none) :
    e.Builds e.client := by
  refine ⟨?_, ?_, ?_⟩ <;>
    simp [after, hop, Site.operate, client, Site.connect, hc, World.builds, World.note]

theorem client_of_some (hc : e.site.identity.client = some c) : e.client = c := by
  simp [client, Site.connect, hc]

theorem client_after (hop : e.operation = .connect) :
    e.after.identity.client = some e.client := by
  simp [after, hop, Site.operate, client]

theorem inst_after_of_not_touches (h : ¬ e.Touches) :
    e.after.identity.inst = e.site.identity.inst := by
  unfold Touches at h
  unfold after
  split at h <;> rename_i hop <;> rw [hop]
  · simp [Site.operate]
  · exact absurd trivial h
  · simp [Site.operate, Site.setInstanceIf, h]
  · rename_i name
    have : e.site.reply? (.clearInstanceIf name) = some false := by
      rw [Site.reply?_clearInstanceIf, decide_eq_false h]
    rw [Site.operate_of_refused this]
  · exact absurd trivial h

/-- What touches the known instance records another one for the current session or clears it. -/
theorem inst_after_of_touches (h : e.Touches) : e.after.identity.inst = some x ↔
    e.operation = .setInstanceIf e.site.identity.session.id x := by
  unfold Touches at h
  unfold after
  split at h <;> rename_i hop <;> rw [hop]
  · exact h.elim
  · simp [Site.operate]
  · rename_i session inst
    simp [Site.operate, Site.setInstanceIf, h]
  · rename_i name
    obtain ⟨i, hi, hn⟩ := Option.map_eq_some_iff.mp h
    simp [Site.operate, Site.clearInstanceIf, hi, hn, Site.dropInstance]
  · simp [Site.operate]

theorem session_after_of_sets {session : SessionId}
    (h : e.operation = .setInstanceIf session x) :
    e.after.identity.session = e.site.identity.session :=
  (Site.identity_operate_of_ne (by simp [h])).1

end Visit

/-- A visit with `P` stands: no visit that came after it is one with `Q`. -/
def Stands (P Q : Visit → Prop) (h : List Visit) : Prop :=
  ∃ later e earlier, h = later ++ e :: earlier ∧ P e ∧ ∀ m ∈ later, ¬ Q m

theorem stands_cons {P Q : Visit → Prop} {h : List Visit} {e : Visit} :
    Stands P Q (e :: h) ↔ P e ∨ ¬ Q e ∧ Stands P Q h := by
  constructor
  · rintro ⟨later, b, earlier, hsplit, hb, stays⟩
    cases later with
    | nil =>
        cases hsplit
        exact .inl hb
    | cons m later =>
        cases hsplit
        exact .inr ⟨stays _ List.mem_cons_self, later, b, earlier, rfl, hb,
          fun m hm => stays m (List.mem_cons_of_mem _ hm)⟩
  · rintro (he | ⟨he, later, b, earlier, rfl, hb, stays⟩)
    · exact ⟨[], e, h, rfl, he, by simp⟩
    · exact ⟨e :: later, b, earlier, rfl, hb, List.forall_mem_cons.mpr ⟨he, stays⟩⟩

/-- The visits of a history lead from `s` to a site; between them the world changes elsewhere. -/
inductive Site.History (s : Site) : List Visit → Site → Prop
  | start : History s [] s
  | visit {h : List Visit} {t : Site} (op : Operation) :
      History s h t → History s (⟨t, op⟩ :: h) (t.operate op)
  | elsewhere {h : List Visit} {t : Site} (w : World) :
      History s h t → History s h { t with world := w }

/-- The sessions of a history, the current one first: each rotation ends one. -/
def Site.sessions (h : List Visit) (t : Site) : List SessionId :=
  t.identity.session.id ::
    (h.filter fun e => e.operation = .rotate).map fun e => e.site.identity.session.id

namespace Site

/-- The site after several operations. -/
def operateAll : List Operation → Site → Site
  | [], s => s
  | op :: rest, s => operateAll rest (s.operate op)

/-- The visits of several operations, the last one first. -/
def visits : List Operation → Site → List Visit
  | [], _ => []
  | op :: rest, s => visits rest (s.operate op) ++ [⟨s, op⟩]

end Site

namespace Site.History

variable {s t : Site} {h later earlier : List Visit} {e : Visit} {c : Client}

theorem trans {u : Site} {k : List Visit} (hh : History s h t) (hk : History t k u) :
    History s (k ++ h) u := by
  induction hk with
  | start => exact hh
  | visit op _ ih => exact ih.visit op
  | elsewhere w _ ih => exact ih.elsewhere w

theorem of_operateAll (ops : List Operation) : History s (visits ops s) (operateAll ops s) := by
  induction ops generalizing s with
  | nil => exact .start
  | cons op ops ih => exact (History.start.visit op).trans ih

theorem split (hh : History s (later ++ e :: earlier) t) :
    History s earlier e.site ∧ History e.after later t := by
  generalize hk : later ++ e :: earlier = k at hh
  induction hh generalizing later with
  | start => simp at hk
  | @visit h u op hu ih =>
      cases later with
      | nil =>
          cases hk
          exact ⟨hu, .start⟩
      | cons m later =>
          cases hk
          exact ⟨(ih rfl).1, (ih rfl).2.visit op⟩
  | elsewhere w hu ih => exact ⟨(ih hk).1, (ih hk).2.elsewhere w⟩

theorem keeps (hh : History s h t) (stays : ∀ e ∈ h, e.operation ≠ .rotate) :
    t.identity.session = s.identity.session ∧
      ∀ c, s.identity.client = some c → t.identity.client = some c := by
  induction hh with
  | start => exact ⟨rfl, fun _ hc => hc⟩
  | visit op hu ih =>
      obtain ⟨hs, hc⟩ := ih fun e he => stays e (List.mem_cons_of_mem _ he)
      obtain ⟨hs', hc'⟩ := identity_operate_of_ne (stays _ List.mem_cons_self)
      exact ⟨hs'.trans hs, fun c h => hc' c (hc c h)⟩
  | elsewhere w hu ih => exact ih stays

/-- The first session is among the sessions of a history, the last of them. -/
theorem exists_sessions (hh : History s h t) :
    ∃ newer, sessions h t = newer ++ [s.identity.session.id] := by
  induction hh with
  | start => exact ⟨[], rfl⟩
  | @visit h u op hu ih =>
      obtain ⟨newer, hn⟩ := ih
      by_cases hop : op = .rotate
      · subst hop
        refine ⟨u.rotate.identity.session.id :: newer, ?_⟩
        simpa [sessions, operate] using hn
      · refine ⟨newer, ?_⟩
        rw [← hn]
        simp [sessions, hop, (identity_operate_of_ne hop).1]
  | elsewhere w hu ih => exact ih

/-- The sessions of what happened after a point are newer than those before. -/
theorem sessions_append (hh : History s later t) (earlier : List Visit) :
    ∃ newer, sessions (later ++ earlier) t = newer ++ sessions earlier s := by
  obtain ⟨newer, hn⟩ := hh.exists_sessions
  refine ⟨newer, ?_⟩
  have : sessions (later ++ earlier) t = sessions later t ++
      (earlier.filter fun e => e.operation = .rotate).map fun e => e.site.identity.session.id := by
    simp [sessions]
  rw [this, hn]
  simp [sessions]

theorem session_ne (hh : History s h t) (distinct : (sessions h t).Nodup)
    (rotated : ∃ r ∈ h, r.operation = .rotate) :
    t.identity.session.id ≠ s.identity.session.id := by
  obtain ⟨r, hr, hop⟩ := rotated
  obtain ⟨newer, hn⟩ := hh.exists_sessions
  intro heq
  cases newer with
  | nil =>
      have : ∀ e ∈ h, e.operation ≠ .rotate := by simpa [sessions, heq] using hn
      exact this r hr hop
  | cons x newer =>
      have hx : t.identity.session.id = x := (List.cons.inj hn).1
      rw [hn, List.cons_append, List.nodup_cons] at distinct
      exact distinct.1 (by simp [← hx, heq])

/-- A client that is there was built in the history, and its session was not rotated away since. -/
theorem stands_builds (hh : History s h t) (fresh : s.identity.client = none)
    (hc : t.identity.client = some c) : Stands (·.Builds c) (·.operation = .rotate) h := by
  induction hh generalizing c with
  | start =>
      rw [fresh] at hc
      cases hc
  | @visit h u op hu ih =>
      cases hu' : u.identity.client with
      | none =>
          by_cases hop : op = .connect
          · have hb : Visit.Builds ⟨u, op⟩ _ := Visit.builds_of_connect hop hu'
            have hafter : (u.operate op).identity.client = _ :=
              Visit.client_after (e := ⟨u, op⟩) hop
            rw [hafter, Option.some.injEq] at hc
            subst hc
            exact stands_cons.mpr (.inl hb)
          · rw [client_operate_of_ne hop hu'] at hc
            cases hc
      | some c' =>
          have hop : op ≠ .rotate := fun hop => by simp [hop, operate] at hc
          obtain rfl : c = c' :=
            Option.some.inj (hc.symm.trans ((identity_operate_of_ne hop).2 c' hu'))
          exact stands_cons.mpr (.inr ⟨hop, ih hu'⟩)
  | elsewhere w hu ih => exact ih hc

/-- Who asks for the client gets one that was built for the current session. -/
theorem stands_builds_client (hh : History s earlier e.site)
    (fresh : s.identity.client = none) (asks : e.operation = .connect) :
    Stands (·.Builds e.client) (·.operation = .rotate) (e :: earlier) :=
  (hh.visit e.operation).stands_builds fresh (Visit.client_after asks)

theorem session_client (hh : History s earlier e.site) (fresh : s.identity.client = none)
    (asks : e.operation = .connect) : e.client.session = e.site.identity.session.id := by
  obtain ⟨between, b, before, hsplit, hb, stays⟩ := hh.stands_builds_client fresh asks
  have hafter : History s (e :: earlier) e.after := hh.visit e.operation
  rw [hsplit] at hafter
  have hsession := (hafter.split.2.keeps stays).1
  obtain ⟨hop, -, hcurrent, -⟩ := hb.inv
  have same (v : Visit) (h : v.operation = .connect) :
      v.after.identity.session = v.site.identity.session :=
    (identity_operate_of_ne (by simp [h])).1
  rw [hcurrent, ← same e asks, hsession, same b hop]

section Distinct

variable {between : List Visit} {e' : Visit}
variable (hh : History s (later ++ e :: (between ++ e' :: earlier)) t)
include hh

theorem follows : History e'.site (between ++ [e']) e.site :=
  (History.start.visit e'.operation).trans hh.split.1.split.2

variable (distinct : (sessions (later ++ e :: (between ++ e' :: earlier)) t).Nodup)
include distinct

theorem nodup_between : (sessions (between ++ [e']) e.site).Nodup := by
  have hl : History e.site (later ++ [e]) t := (History.start.visit e.operation).trans hh.split.2
  obtain ⟨newer, hn⟩ := hl.sessions_append (between ++ e' :: earlier)
  rw [List.append_assoc, List.singleton_append] at hn
  rw [hn] at distinct
  refine (distinct.sublist (List.sublist_append_right ..)).sublist ?_
  have : sessions (between ++ e' :: earlier) e.site = sessions (between ++ [e']) e.site ++
      (earlier.filter fun e => e.operation = .rotate).map fun e => e.site.identity.session.id := by
    simp [sessions, List.filter_append, List.filter_cons]
    split <;> simp
  rw [this]
  exact List.sublist_append_left ..

theorem session_ne_of_rotated (rotated : ∃ r ∈ between ++ [e'], r.operation = .rotate) :
    e.site.identity.session.id ≠ e'.site.identity.session.id :=
  hh.follows.session_ne (hh.nodup_between distinct) rotated

theorem session_ne_of_builds {c' : Client} (hb : e.Builds c) (hb' : e'.Builds c') :
    c.session ≠ c'.session := by
  obtain ⟨-, hnone, hcurrent, -⟩ := hb.inv
  obtain ⟨hop', -, hcurrent', -⟩ := hb'.inv
  rw [hcurrent, hcurrent']
  refine hh.session_ne_of_rotated distinct (Classical.byContradiction fun stays => ?_)
  have hkept := (hh.split.1.split.2.keeps fun m hm hop =>
    stays ⟨m, List.mem_append_left _ hm, hop⟩).2 _ (Visit.client_after hop')
  rw [hnone] at hkept
  cases hkept

variable (fresh : s.identity.client = none) (asks : e.operation = .connect)
include fresh asks

/-- Of two requests for the client the later one gets another client exactly if the session was
rotated away in between. -/
theorem client_eq_iff (asks' : e'.operation = .connect) :
    e.client = e'.client ↔ ∀ m ∈ between, m.operation ≠ .rotate := by
  constructor
  · intro heq m hm hop
    refine hh.session_ne_of_rotated distinct ⟨m, List.mem_append_left _ hm, hop⟩ ?_
    rw [← hh.split.1.session_client fresh asks, heq,
      hh.split.1.split.1.session_client fresh asks']
  · intro stays
    have hc := (hh.split.1.split.2.keeps stays).2 _ (Visit.client_after asks')
    exact Visit.client_of_some hc

/-- No client of a session is handed out once the session was rotated away. -/
theorem session_client_ne (rotates : e'.operation = .rotate) :
    e.client.session ≠ e'.site.identity.session.id := by
  rw [hh.split.1.session_client fresh asks]
  exact hh.session_ne_of_rotated distinct ⟨e', by simp, rotates⟩

end Distinct

/-- What instance is known: the last one that was recorded for the session of its time, or the
one at the start, if nothing has touched it since. -/
theorem inst_eq_some {x : Instance} (hh : History s h t) : t.identity.inst = some x ↔
    Stands (fun e => e.operation = .setInstanceIf e.site.identity.session.id x) Visit.Touches h ∨
      s.identity.inst = some x ∧ ∀ e ∈ h, ¬ e.Touches := by
  induction hh with
  | start => simp [Stands]
  | @visit h u op hu ih =>
      rw [stands_cons, List.forall_mem_cons]
      by_cases touches : Visit.Touches ⟨u, op⟩
      · have hafter := Visit.inst_after_of_touches (x := x) touches
        simp only [touches, not_true_eq_false, false_and, and_false, or_false]
        exact hafter
      · have hafter : (u.operate op).identity.inst = u.identity.inst :=
          Visit.inst_after_of_not_touches touches
        have silent : ¬ op = .setInstanceIf u.identity.session.id x := fun hop =>
          touches (by simp [Visit.Touches, hop])
        simp only [hafter, ih, silent, touches, not_false_eq_true, true_and, false_or]
  | elsewhere w hu ih => exact ih

theorem session_of_not_touches (hh : History s h t) (untouched : ∀ e ∈ h, ¬ e.Touches) :
    t.identity.session = s.identity.session :=
  (hh.keeps fun e he hop => untouched e he (by simp [Visit.Touches, hop])).1

/-- The known instance belongs to the current session. -/
theorem inst_eq_some_iff {x : Instance} (hh : History s h t) : t.identity.inst = some x ↔
    Stands (fun e => e.operation = .setInstanceIf t.identity.session.id x ∧
        e.site.identity.session = t.identity.session) Visit.Touches h ∨
      s.identity.session = t.identity.session ∧ s.identity.inst = some x ∧
        ∀ e ∈ h, ¬ e.Touches := by
  rw [hh.inst_eq_some]
  refine or_congr ⟨?_, ?_⟩ ⟨?_, fun h => h.2⟩
  · rintro ⟨later, e, earlier, rfl, hop, untouched⟩
    have hsession : t.identity.session = e.site.identity.session :=
      (hh.split.2.session_of_not_touches untouched).trans (Visit.session_after_of_sets hop)
    exact ⟨later, e, earlier, rfl, ⟨hsession ▸ hop, hsession.symm⟩, untouched⟩
  · rintro ⟨later, e, earlier, rfl, ⟨hop, hsession⟩, untouched⟩
    exact ⟨later, e, earlier, rfl, by simpa only [hsession] using hop, untouched⟩
  · rintro ⟨hx, untouched⟩
    exact ⟨(hh.session_of_not_touches untouched).symm, hx, untouched⟩

end Site.History

/-- Session, client and instance agree with the history of an identity. -/
structure Site.Coherent (s : Site) (h : List Visit) (t : Site) : Prop where
  /-- Who asks for the client gets one of the current session, which was built at the first such
  request since the last rotation. -/
  handed {later earlier : List Visit} {e : Visit} :
    h = later ++ e :: earlier → e.operation = .connect →
      e.client.session = e.site.identity.session.id ∧
        Stands (·.Builds e.client) (·.operation = .rotate) (e :: earlier)
  /-- The factory is only called for the current session, once for each request. -/
  current {e : Visit} : e ∈ h → e.after.world.builds = e.site.world.builds ∨
    ∃ c, e.Builds c ∧ c.session = e.site.identity.session.id
  /-- The factory is called at most once for a session. -/
  once {later between earlier : List Visit} {e e' : Visit} {c c' : Client} :
    h = later ++ e :: (between ++ e' :: earlier) → e.Builds c → e'.Builds c' →
      c.session ≠ c'.session
  /-- Two requests get the same client exactly if no rotation lies between them. -/
  same {later between earlier : List Visit} {e e' : Visit} :
    h = later ++ e :: (between ++ e' :: earlier) → e.operation = .connect →
      e'.operation = .connect → (e.client = e'.client ↔ ∀ m ∈ between, m.operation ≠ .rotate)
  /-- No client of a session is handed out after the session was rotated away. -/
  gone {later between earlier : List Visit} {e e' : Visit} :
    h = later ++ e :: (between ++ e' :: earlier) → e.operation = .connect →
      e'.operation = .rotate → e.client.session ≠ e'.site.identity.session.id
  /-- The known instance was recorded for the session that is still the current one, or was there
  together with it at the start, and was neither cleared nor replaced since. -/
  known {x : Instance} : t.identity.inst = some x ↔
    Stands (fun e => e.operation = .setInstanceIf t.identity.session.id x ∧
        e.site.identity.session = t.identity.session) Visit.Touches h ∨
      s.identity.session = t.identity.session ∧ s.identity.inst = some x ∧ ∀ e ∈ h, ¬ e.Touches
  /-- What names another session than the current one is refused, and changes nothing. -/
  stale {e : Visit} {session : SessionId} {x : Instance} : e ∈ h →
    e.operation = .setInstanceIf session x → e.site.identity.session.id ≠ session →
      e.site.reply? e.operation = some false ∧ e.after = e.site
  /-- What names another instance than the known one is refused, and changes nothing. -/
  spared {e : Visit} {name : InstanceId} : e ∈ h → e.operation = .clearInstanceIf name →
    e.site.identity.inst.map (·.id) ≠ some name →
      e.site.reply? e.operation = some false ∧ e.after = e.site

namespace Site

/-- Whatever is done to an identity, in any order: its client and its instance are those of its
session. -/
theorem coherent_of_history {s t : Site} {h : List Visit} (fresh : s.IsFresh)
    (hh : History s h t) (distinct : (sessions h t).Nodup) : Coherent s h t where
  handed hsplit asks := by
    subst hsplit
    exact ⟨hh.split.1.session_client fresh.client asks,
      hh.split.1.stands_builds_client fresh.client asks⟩
  current {e} _ := by
    rcases e.site.builds_operate e.operation with hb | ⟨hop, hc, -⟩
    · exact .inl hb
    · have hb := Visit.builds_of_connect hop hc
      exact .inr ⟨e.client, hb, hb.inv.2.2.1⟩
  once hsplit hb hb' := by
    subst hsplit
    exact hh.session_ne_of_builds distinct hb hb'
  same hsplit asks asks' := by
    subst hsplit
    exact hh.client_eq_iff distinct fresh.client asks asks'
  gone hsplit asks rotates := by
    subst hsplit
    exact hh.session_client_ne distinct fresh.client asks rotates
  known := hh.inst_eq_some_iff
  stale {e session x} _ hop hne := by
    have hrefused : e.site.reply? e.operation = some false := by simp [hop, reply?, hne]
    exact ⟨hrefused, operate_of_refused hrefused⟩
  spared {e name} _ hop hne := by
    have hrefused : e.site.reply? e.operation = some false := by
      rw [hop, reply?_clearInstanceIf, decide_eq_false hne]
    exact ⟨hrefused, operate_of_refused hrefused⟩

/-- An identity that is stored nowhere, with its first session. -/
def unstored : Site := Identity.start none {}

/-- An instance is recorded for a session that was rotated away, and then for the current one;
the instance of the former session is to be cleared after that. -/
def takeover : List Operation :=
  [.connect, .setInstanceIf unstored.identity.session.id ⟨⟨"run-1"⟩, none, none⟩, .rotate, .connect,
    .setInstanceIf unstored.identity.session.id ⟨⟨"run-2"⟩, none, none⟩,
    .setInstanceIf unstored.rotate.identity.session.id ⟨⟨"run-3"⟩, none, none⟩,
    .clearInstanceIf ⟨"run-1"⟩, .connect]

/-- Two clients are built, and the instance of the current session stays known. -/
theorem coherent_of_history_of_takeover :
    Coherent unstored (visits takeover unstored) (operateAll takeover unstored) ∧
      (operateAll takeover unstored).world.clients = 2 ∧
      (operateAll takeover unstored).identity.inst = some ⟨⟨"run-3"⟩, none, none⟩ :=
  ⟨coherent_of_history ⟨{}, .inl rfl⟩ (.of_operateAll takeover) (by decide +kernel),
    by decide +kernel, by decide +kernel⟩

end Site

end PreviewDeploy
