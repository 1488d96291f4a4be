import PreviewDeploy.Proofs.Frames

/-!
# What is stored of a project

Of the state that a store holds for a project only the instance counts here.  A row whose
instance was replaced holds the new one, a row with a new session holds none, and the history of
deployments is stored beside these rows.  So a world whose store takes all writes backs an
instance (`World.Backs`) through everything but the writes of a session and of an instance.
-/

namespace PreviewDeploy

namespace Store

open StateRow (ofSession)

/-! ### Rows -/

theorem bind_eq_ok {ε α β : Type} {x : Except ε α} {f : α → Except ε β} {b : β} :
    x >>= f = .ok b ↔ ∃ a, x = .ok a ∧ f a = .ok b := by
  cases x <;> simp [bind, Except.bind]

namespace StateRow

variable {r : StateRow} {x : StoredState} {project : String} {inst : Option Instance}
  {now : Timestamp}

@[simp] theorem read_ofText? (column : String) (index : Nat) (text : Option String) :
    read column index Place.text? (.ofText? text) = .ok text := by
  cases text <;> rfl

@[simp] theorem holds_ofSession (s : Session) : (ofSession project s now).holds project = true := by
  simp [holds, ofSession]

theorem find?_map_holds {f : StateRow → StateRow}
    (keeps : ∀ r, r.holds project → (f r).holds project) (rows : List StateRow) :
    (rows.map fun r => if r.holds project then f r else r).find? (·.holds project) =
      (rows.find? (·.holds project)).map f := by
  induction rows with
  | nil => rfl
  | cons r rows ih =>
      by_cases h : r.holds project
      · simp [h, keeps r h]
      · simpa [h] using ih

theorem toState_eq_ok : r.toState = .ok x ↔
    ∃ sessionId created instanceId previewUrl tunnelUrl createdAt updatedAt,
      read "session_id" 0 Place.text r.sessionId = .ok sessionId ∧
      read "session_created_at" 1 Place.text r.createdAt = .ok created ∧
      read "instance_id" 2 Place.text? r.instanceId = .ok instanceId ∧
      read "preview_url" 3 Place.text? r.previewUrl = .ok previewUrl ∧
      read "tunnel_url" 4 Place.text? r.tunnelUrl = .ok tunnelUrl ∧
      readTime "session_created_at" created = .ok createdAt ∧
      read "updated_at" 5 Place.text r.updatedAt = .ok updatedAt ∧
      x = ⟨⟨⟨sessionId⟩, createdAt⟩, instanceId.map fun id => ⟨⟨id⟩, previewUrl, tunnelUrl⟩,
        updatedAt⟩ := by
  constructor
  · intro h
    obtain ⟨sessionId, hsession, h⟩ := bind_eq_ok.mp h
    obtain ⟨created, hcreated, h⟩ := bind_eq_ok.mp h
    obtain ⟨instanceId, hname, h⟩ := bind_eq_ok.mp h
    obtain ⟨previewUrl, hpreview, h⟩ := bind_eq_ok.mp h
    obtain ⟨tunnelUrl, htunnel, h⟩ := bind_eq_ok.mp h
    obtain ⟨createdAt, htime, h⟩ := bind_eq_ok.mp h
    obtain ⟨updatedAt, hupdated, h⟩ := bind_eq_ok.mp h
    exact ⟨sessionId, created, instanceId, previewUrl, tunnelUrl, createdAt, updatedAt, hsession,
      hcreated, hname, hpreview, htunnel, htime, hupdated, (Except.ok.inj h).symm⟩
  · rintro ⟨sessionId, created, instanceId, previewUrl, tunnelUrl, createdAt, updatedAt, hsession,
      hcreated, hname, hpreview, htunnel, htime, hupdated, rfl⟩
    exact bind_eq_ok.mpr ⟨_, hsession, bind_eq_ok.mpr ⟨_, hcreated, bind_eq_ok.mpr ⟨_, hname,
      bind_eq_ok.mpr ⟨_, hpreview, bind_eq_ok.mpr ⟨_, htunnel, bind_eq_ok.mpr ⟨_, htime,
        bind_eq_ok.mpr ⟨_, hupdated, rfl⟩⟩⟩⟩⟩⟩⟩

theorem inst_of_toState_withInstance (h : (r.withInstance inst now).toState = .ok x) :
    x.inst = inst := by
  obtain ⟨sessionId, created, instanceId, previewUrl, tunnelUrl, createdAt, updatedAt, -, -, hname,
    hpreview, htunnel, -, -, rfl⟩ := toState_eq_ok.mp h
  simp only [withInstance, read_ofText?, Except.ok.injEq] at hname hpreview htunnel
  subst hname hpreview htunnel
  cases inst <;> rfl

/-- A row can be read after its instance was replaced if it could before. -/
theorem toState_withInstance (h : r.toState = .ok x) :
    (r.withInstance inst now).toState = .ok { x with inst, updatedAt := now.text } := by
  obtain ⟨sessionId, created, instanceId, previewUrl, tunnelUrl, createdAt, updatedAt, hsession,
    hcreated, -, -, -, htime, -, rfl⟩ := toState_eq_ok.mp h
  refine toState_eq_ok.mpr ⟨sessionId, created, _, _, _, createdAt, _, hsession, hcreated,
    read_ofText? .., read_ofText? .., read_ofText? .., htime, rfl, ?_⟩
  cases inst <;> rfl

theorem inst_of_toState_ofSession {s : Session}
    (h : (ofSession project s now).toState = .ok x) : x.inst = none := by
  obtain ⟨sessionId, created, instanceId, previewUrl, tunnelUrl, createdAt, updatedAt, -, -, hname,
    -, -, -, -, rfl⟩ := toState_eq_ok.mp h
  obtain rfl : none = instanceId := Except.ok.inj hname
  rfl

/-- A row with a new session is read with what the text of its time is read as. -/
theorem toState_ofSession (session : Session) :
    (ofSession project session now).toState =
      (readTime "session_created_at" session.createdAt.text).map fun createdAt =>
        ⟨⟨session.id, createdAt⟩, none, now.text⟩ := by
  have hread : (ofSession project session now).toState =
      readTime "session_created_at" session.createdAt.text >>= fun createdAt =>
        pure ⟨⟨session.id, createdAt⟩, none, now.text⟩ := rfl
  rw [hread]
  cases readTime "session_created_at" session.createdAt.text <;> rfl

end StateRow

/-! ### Stores -/

variable {s s' : Store} {project : String} {inst : Option Instance} {now : Timestamp}
  {x : StoredState}

/-- What can be read of a project. -/
def state? (project : String) (s : Store) : Option StoredState :=
  match s.state project with
  | .ok x => x
  | .error _ => none

theorem state?_eq_some : s.state? project = some x ↔
    ∃ r, s.tables.states.find? (·.holds project) = some r ∧ r.toState = .ok x := by
  unfold state? state
  cases s.tables.states.find? (·.holds project) with
  | none => simp
  | some r => cases h : r.toState <;> simp [Except.map, h]

theorem state?_congr (h : s'.tables.states = s.tables.states) :
    s'.state? project = s.state? project := by
  unfold state? state
  rw [h]

/-- The store after a write, which changes nothing if it fails. -/
def after (write : Store → Except StoreError Store) (s : Store) : Store :=
  match write s with
  | .ok s' => s'
  | .error _ => s

theorem find?_saveInstance :
    (s.after (·.saveInstance project inst now)).tables.states.find? (·.holds project) =
      (s.tables.states.find? (·.holds project)).map (·.withInstance inst now) := by
  unfold after saveInstance
  by_cases h : s.tables.states.any (·.holds project)
  · simp only [h, if_true]
    exact StateRow.find?_map_holds (f := (·.withInstance inst now)) (fun _ h => h) _
  · have hfind : s.tables.states.find? (·.holds project) = none := by
      simpa [List.find?_eq_none] using h
    simp only [h, Bool.false_eq_true, if_false, hfind, Option.map_none]

theorem inst_of_saveInstance (hx : (s.after (·.saveInstance project inst now)).state? project =
    some x) : x.inst = inst := by
  obtain ⟨r', hr', hread⟩ := state?_eq_some.mp hx
  rw [find?_saveInstance] at hr'
  obtain ⟨r, -, rfl⟩ := Option.map_eq_some_iff.mp hr'
  exact StateRow.inst_of_toState_withInstance hread

theorem isSome_saveInstance (h : (s.state? project).isSome) :
    ((s.after (·.saveInstance project inst now)).state? project).isSome := by
  obtain ⟨x, hx⟩ := Option.isSome_iff_exists.mp h
  obtain ⟨r, hr, hread⟩ := state?_eq_some.mp hx
  refine Option.isSome_iff_exists.mpr ⟨_, state?_eq_some.mpr ⟨r.withInstance inst now, ?_,
    StateRow.toState_withInstance hread⟩⟩
  rw [find?_saveInstance, hr]
  rfl

theorem find?_saveSession {session : Session} :
    (s.saveSession project session now).tables.states.find? (·.holds project) =
      some (ofSession project session now) := by
  simp only [saveSession]
  split
  · rename_i hsome
    obtain ⟨r, hr⟩ := Option.isSome_iff_exists.mp
      (List.find?_isSome.mpr (List.any_eq_true.mp hsome))
    rw [StateRow.find?_map_holds (by simp), hr, Option.map_some]
  · rename_i hnone
    have hfind : s.tables.states.find? (·.holds project) = none := by
      simpa [List.find?_eq_none] using hnone
    rw [List.find?_append, hfind]
    simp

/-- What is read after a new session was stored hangs on the text of its time only. -/
theorem state_saveSession_eq (session : Session) :
    (s.saveSession project session now).state project =
      (StateRow.readTime "session_created_at" session.createdAt.text).map fun createdAt =>
        some ⟨⟨session.id, createdAt⟩, none, now.text⟩ := by
  rw [state, find?_saveSession]
  simp only [StateRow.toState_ofSession]
  cases StateRow.readTime "session_created_at" session.createdAt.text <;> rfl

theorem inst_of_saveSession {session : Session}
    (hx : (s.saveSession project session now).state? project = some x) : x.inst = none := by
  obtain ⟨r, hr, hread⟩ := state?_eq_some.mp hx
  rw [find?_saveSession] at hr
  obtain rfl := Option.some.inj hr
  exact StateRow.inst_of_toState_ofSession hread

/-- The history of deployments is stored beside the states. -/
theorem states_of_entry {p : String} {e : Event} {entry : Journal.Entry}
    (h : Journal.entry? p e now = some entry) (hw : entry.write s = .ok s') :
    s'.tables.states = s.tables.states := by
  cases e with
  | started =>
      obtain rfl := Option.some.inj h
      simp only [start] at hw
      split at hw <;> cases hw
      rfl
  | attemptFailed =>
      obtain rfl := Option.some.inj h
      simp only [recordAttempt] at hw
      split at hw <;> cases hw
      rfl
  | completed =>
      obtain rfl := Option.some.inj h
      simp only [complete] at hw
      split at hw <;> cases hw
      rfl
  | timedOut =>
      obtain rfl := Option.some.inj h
      cases hw
      rfl
  | superseded =>
      obtain rfl := Option.some.inj h
      cases hw
      rfl
  | sessionRotated => cases h
  | selfHealTriggered => cases h

theorem state?_after_entry {p : String} {e : Event} {entry : Journal.Entry}
    (h : Journal.entry? p e now = some entry) :
    (s.after entry.write).state? project = s.state? project := by
  unfold after
  split
  · rename_i s' hw
    exact state?_congr (states_of_entry h hw)
  · rfl

end Store

/-! ### Worlds -/

namespace World

/-- What can be read of a project from the store. -/
def state? (project : String) (w : World) : Option Store.StoredState :=
  w.store.bind (·.state? project)

/-- The store takes all writes, and an instance is the stored one of a project, unless nothing can
be read of the project; `readable` says that something can be. -/
structure Backs (project : String) (readable : Bool) (inst : Option Instance) (w : World) :
    Prop where
  works : ∀ fails ∈ w.outages, fails = false
  agrees : ∀ x, w.state? project = some x → x.inst = inst
  there : readable = true → (w.state? project).isSome

variable {p : String} {r : Bool} {i : Option Instance} {w w' : World}

theorem state?_congr (h : w'.store = w.store) : w'.state? p = w.state? p := by
  unfold state?
  rw [h]

theorem backs_congr (hs : w'.store = w.store) (ho : w'.outages = w.outages) :
    w'.Backs p r i ↔ w.Backs p r i := by
  have hx : w'.state? p = w.state? p := state?_congr hs
  constructor
  · intro h
    exact ⟨ho ▸ h.works, hx ▸ h.agrees, hx ▸ h.there⟩
  · intro h
    exact ⟨ho ▸ h.works, hx ▸ h.agrees, hx ▸ h.there⟩

@[simp] theorem backs_note (h : Happening) : (w.note h).Backs p r i ↔ w.Backs p r i :=
  backs_congr rfl rfl

@[simp] theorem backs_warn (text : String) : (w.warn text).Backs p r i ↔ w.Backs p r i :=
  backs_congr rfl rfl

@[simp] theorem backs_wake (number : Nat) (t : Task) :
    (w.wake number t).Backs p r i ↔ w.Backs p r i := by
  unfold wake
  split
  · rfl
  · exact backs_congr rfl rfl

@[simp] theorem backs_countWith (f : Metrics → Metrics) :
    (w.countWith f).Backs p r i ↔ w.Backs p r i :=
  backs_congr rfl rfl

@[simp] theorem backs_count (c : Counter) : (w.count c).Backs p r i ↔ w.Backs p r i :=
  backs_congr rfl rfl

@[simp] theorem backs_logLine (l : LogLine) : (w.logLine l).Backs p r i ↔ w.Backs p r i := by
  unfold logLine
  split <;> simp

@[simp] theorem backs_ask {α : Type} (task : Task) (client : Client)
    (request : ControlPlane.Request)
    (take : ControlPlane.Script → ControlPlane.Reply α × ControlPlane.Script) :
    (w.ask task client request take).2.Backs p r i ↔ w.Backs p r i :=
  backs_congr rfl rfl

@[simp] theorem backs_clients (n : Nat) :
    ({ w with clients := n } : World).Backs p r i ↔ w.Backs p r i :=
  backs_congr rfl rfl

@[simp] theorem backs_mintSession : w.mintSession.2.Backs p r i ↔ w.Backs p r i :=
  backs_congr rfl rfl

@[simp] theorem backs_mintDeployment : w.mintDeployment.2.Backs p r i ↔ w.Backs p r i :=
  backs_congr rfl rfl

@[simp] theorem backs_mintNonce : w.mintNonce.2.Backs p r i ↔ w.Backs p r i :=
  backs_congr rfl rfl

/-- A store that takes all writes does what it is told to. -/
theorem persist_of_works (works : ∀ fails ∈ w.outages, fails = false) (complaint : String)
    (write : Store → Except Store.StoreError Store) :
    (∀ fails ∈ (w.persist complaint write).outages, fails = false) ∧
      (w.persist complaint write).store = w.store.map (·.after write) := by
  have first : w.outages.headD false = false := by
    cases h : w.outages with
    | nil => rfl
    | cons b bs => exact works b (by simp [h])
  have rest : ∀ fails ∈ w.outages.tail, fails = false :=
    fun fails h => works fails (List.mem_of_mem_tail h)
  unfold persist Store.after
  cases hs : w.store with
  | none => exact ⟨works, hs⟩
  | some s =>
      simp only [first, Bool.false_eq_true, if_false, Option.map_some]
      cases write s with
      | ok s' => exact ⟨rest, rfl⟩
      | error e => exact ⟨rest, rfl⟩

theorem Backs.journal (h : w.Backs p r i) (project : Option String) (e : Event) :
    (w.journal project e).Backs p r i := by
  unfold World.journal
  split
  · rename_i entry hentry
    obtain ⟨q, -, hentry⟩ := Option.bind_eq_some_iff.mp hentry
    obtain ⟨works, hstore⟩ := persist_of_works h.works ("failed to record " ++ entry.what)
      entry.write
    have same : (w.persist ("failed to record " ++ entry.what) entry.write).state? p =
        w.state? p := by
      unfold state?
      rw [hstore]
      cases w.store with
      | none => rfl
      | some s => exact Store.state?_after_entry hentry
    exact ⟨works, same ▸ h.agrees, same ▸ h.there⟩
  · exact h

theorem Backs.emit (h : w.Backs p r i) (project : Option String) (e : Event) :
    (w.emit project e).Backs p r i := by
  simpa [World.emit] using h.journal project e

end World

end PreviewDeploy
