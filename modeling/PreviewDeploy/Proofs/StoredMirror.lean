import PreviewDeploy.Proofs.IdentityHistory
import PreviewDeploy.Proofs.StoredStates
import PreviewDeploy.Proofs.Timestamps

/-!
# The mirror of an identity

An identity that is stored under a project is mirrored by the row of that project: a new session
replaces the row, a new instance replaces the instance in it, and what changes nothing is not
written.  So whatever the row held before, the store answers with the session and the instance of
the identity after each operation, as long as it takes all writes and nobody else writes that row
(`Site.mirrored_of_restored`).  The rows of other projects stay as they are.
-/

namespace PreviewDeploy

/-! ### Stores -/

namespace Store

variable {s s' : Store} {project : String} {now : Timestamp} {x : StoredState}

theorem state_eq_ok_some : s.state project = .ok (some x) ↔ s.state? project = some x := by
  unfold state?
  cases s.state project with
  | ok y => simp
  | error e => simp

/-- What is read of a project depends on the rows of that project only. -/
theorem state_congr
    (h : s'.tables.states.filter (·.holds project) = s.tables.states.filter (·.holds project)) :
    s'.state project = s.state project := by
  unfold state
  rw [← List.head?_filter, ← List.head?_filter, h]

/-- What is read after a new session was stored, if its time can be read. -/
theorem state_saveSession {session : Session}
    (time : Timestamp.parse? session.createdAt.text = some session.createdAt) :
    (s.saveSession project session now).state project =
      .ok (some ⟨session, none, now.text⟩) := by
  rw [state_saveSession_eq, StateRow.readTime, time]
  rfl

/-- What is read after an instance was stored, if something could be read before. -/
theorem state_saveInstance {inst : Option Instance} (h : s.state project = .ok (some x)) :
    (s.after (·.saveInstance project inst now)).state project =
      .ok (some { x with inst, updatedAt := now.text }) := by
  obtain ⟨r, hr, hread⟩ := state?_eq_some.mp (state_eq_ok_some.mp h)
  refine state_eq_ok_some.mpr (state?_eq_some.mpr ⟨_, ?_, StateRow.toState_withInstance hread⟩)
  rw [find?_saveInstance, hr, Option.map_some]

theorem StateRow.filter_map_holds {f : StateRow → StateRow}
    (keeps : ∀ r, r.holds project → (f r).holds project) (rows : List StateRow) :
    (rows.map fun r => if r.holds project then f r else r).filter (!·.holds project) =
      rows.filter (!·.holds project) := by
  induction rows with
  | nil => rfl
  | cons r rows ih =>
      by_cases h : r.holds project
      · simp [h, keeps r h, ih]
      · simp [h, ih]

/-- To store a session changes nothing but the rows of the project. -/
theorem deleteState_saveSession (session : Session) :
    (s.saveSession project session now).deleteState project = s.deleteState project := by
  unfold deleteState saveSession
  simp only
  split
  · rw [StateRow.filter_map_holds (by simp)]
  · simp [List.filter_append]

/-- To store an instance changes nothing but the rows of the project. -/
theorem deleteState_saveInstance (inst : Option Instance) :
    (s.after (·.saveInstance project inst now)).deleteState project = s.deleteState project := by
  unfold after saveInstance deleteState
  by_cases h : s.tables.states.any (·.holds project)
  · simp only [h, if_true]
    rw [StateRow.filter_map_holds (f := (·.withInstance inst now)) fun _ h => h]
  · simp only [h, Bool.false_eq_true, if_false]

end Store

/-! ### Worlds -/

namespace World

/-- There is a store that takes all writes, and the clock shows a year of four digits: a stored
time with another year cannot be read. -/
structure Takes (w : World) : Prop where
  there : w.store.isSome
  works : ∀ fails ∈ w.outages, fails = false
  dated : w.time.year ≤ 9999

/-- The rows of a project in the store. -/
def rowsOf (p : String) (w : World) : Option (List Store.StateRow) :=
  w.store.map (·.tables.states.filter (·.holds p))

/-- The store without the rows of a project. -/
def others (p : String) (w : World) : Option Store := w.store.map (·.deleteState p)

variable {w : World}

theorem time_persist (complaint : String) (write : Store → Except Store.StoreError Store) :
    (w.persist complaint write).time = w.time := by
  unfold time millis
  rw [epoch_persist, (w.persist_frame complaint write).1]

theorem Takes.persist (h : w.Takes) (complaint : String)
    (write : Store → Except Store.StoreError Store) :
    (w.persist complaint write).Takes ∧
      (w.persist complaint write).store = w.store.map (·.after write) := by
  obtain ⟨works, store⟩ := persist_of_works h.works complaint write
  refine ⟨⟨?_, works, ?_⟩, store⟩
  · rw [store, Option.isSome_map]
    exact h.there
  · rw [time_persist]
    exact h.dated

theorem Takes.parse?_time (h : w.Takes) : Timestamp.parse? w.time.text = some w.time := by
  have hnanos : w.millis % 1000 * 1000000 < 1000000000 := by omega
  obtain ⟨valid, since⟩ := Timestamp.valid_ofUnixSeconds (w.millis / 1000) hnanos
  exact Timestamp.parse?_text valid (by unfold time; omega) h.dated

end World

/-! ### Operations -/

namespace Site

variable {p : String} {s t : Site} {w : World}

/-- A new session was written in place of all that was stored of a project. -/
structure Renews (p : String) (w : World) (t : Site) : Prop where
  store : ∃ now, t.world.store = w.store.map (·.saveSession p t.identity.session now)
  time : Timestamp.parse? t.identity.session.createdAt.text = some t.identity.session.createdAt
  inst : t.identity.inst = none

/-- How what was done to an identity, from `s` to `t`, is written through. -/
inductive WritesThrough (p : String) (s t : Site) : Prop
  | nothing (store : t.world.store = s.world.store)
      (session : t.identity.session = s.identity.session)
      (inst : t.identity.inst = s.identity.inst)
  | session (renews : Renews p s.world t)
  | inst (now : Timestamp)
      (store : t.world.store =
        s.world.store.map (·.after (·.saveInstance p t.identity.inst now)))
      (session : t.identity.session = s.identity.session)

/-- A site whose changes are stored for a project, by a store that takes all writes. -/
structure Stores (p : String) (s : Site) : Prop where
  takes : s.world.Takes
  named : s.identity.project = some p

namespace Stores

theorem saveSession (takes : w.Takes) (id : Identity) (named : id.project = some p)
    (minted : id.session = w.mintSession.1) (inst : id.inst = none) :
    let t : Site := ⟨id.sessionSaved w.mintSession.2, id⟩
    t.Stores p ∧ Renews p w t := by
  have takes' : w.mintSession.2.Takes := ⟨takes.there, takes.works, takes.dated⟩
  obtain ⟨after, store⟩ := takes'.persist "failed to persist session"
    fun st => .ok (st.saveSession p id.session w.mintSession.2.time)
  have saved : id.sessionSaved w.mintSession.2 = w.mintSession.2.persist
      "failed to persist session"
      fun st => .ok (st.saveSession p id.session w.mintSession.2.time) := by
    simp only [Identity.sessionSaved, named]
  refine ⟨⟨saved ▸ after, named⟩, ⟨w.mintSession.2.time, ?_⟩, ?_, inst⟩
  · rw [saved, store]
    rfl
  · rw [minted]
    exact takes.parse?_time

theorem saveInstance (h : s.Stores p) (inst : Option Instance) :
    let id := { s.identity with inst }
    Stores p ⟨id.instanceSaved s.world, id⟩ ∧
      s.WritesThrough p ⟨id.instanceSaved s.world, id⟩ := by
  intro id
  obtain ⟨after, store⟩ := h.takes.persist "failed to persist instance"
    fun st => st.saveInstance p inst s.world.time
  have saved : id.instanceSaved s.world = s.world.persist "failed to persist instance"
      fun st => st.saveInstance p inst s.world.time := by
    simp only [Identity.instanceSaved, id, h.named]
  exact ⟨⟨saved ▸ after, h.named⟩, .inst s.world.time (saved ▸ store) rfl⟩

theorem unchanged (h : s.Stores p) : s.Stores p ∧ s.WritesThrough p s :=
  ⟨h, .nothing rfl rfl rfl⟩

theorem operate (h : s.Stores p) (op : Operation) :
    (s.operate op).Stores p ∧ s.WritesThrough p (s.operate op) := by
  cases op with
  | connect =>
      simp only [Site.operate, Site.connect]
      cases s.identity.client with
      | some c => exact h.unchanged
      | none =>
          exact ⟨⟨⟨h.takes.there, h.takes.works, h.takes.dated⟩, h.named⟩,
            .nothing rfl rfl rfl⟩
  | rotate =>
      obtain ⟨stores, renews⟩ := saveSession h.takes
        { s.identity with session := s.world.mintSession.1, client := none, inst := none }
        h.named rfl rfl
      exact ⟨stores, .session renews⟩
  | setInstanceIf session inst =>
      simp only [Site.operate, Site.setInstanceIf]
      split
      · exact h.saveInstance (some inst)
      · exact h.unchanged
  | clearInstanceIf name =>
      simp only [Site.operate, Site.clearInstanceIf]
      cases s.identity.inst with
      | none => exact h.unchanged
      | some i =>
          simp only
          split
          · exact h.saveInstance none
          · exact h.unchanged
  | clearInstance =>
      simp only [Site.operate, Site.clearInstance]
      split
      · exact h.saveInstance none
      · exact h.unchanged

end Stores

/-- What is written through leaves what is stored of other projects. -/
theorem WritesThrough.others (h : s.WritesThrough p t) : t.world.others p = s.world.others p := by
  unfold World.others
  cases h with
  | nothing store _ _ => rw [store]
  | session renews =>
      obtain ⟨now, store⟩ := renews.store
      rw [store, Option.map_map]
      exact congrArg (s.world.store.map ·) (funext fun st => Store.deleteState_saveSession _)
  | inst now store _ =>
      rw [store, Option.map_map]
      exact congrArg (s.world.store.map ·) (funext fun st => Store.deleteState_saveInstance _)

/-- The store answers for a project with the session and the instance of the identity. -/
def IsStored (p : String) (s : Site) : Prop :=
  ∃ st x, s.world.store = some st ∧ st.state p = .ok (some x) ∧
    x.session = s.identity.session ∧ x.inst = s.identity.inst

/-- A new session is stored whatever the row of the project held before. -/
theorem Renews.isStored (h : Renews p w t) (takes : w.Takes) : t.IsStored p := by
  obtain ⟨now, store⟩ := h.store
  obtain ⟨st, hst⟩ := Option.isSome_iff_exists.mp takes.there
  rw [hst, Option.map_some] at store
  exact ⟨_, _, store, Store.state_saveSession h.time, rfl, h.inst.symm⟩

namespace IsStored

/-- What is written through keeps the store in step with the identity. -/
theorem writesThrough (h : s.IsStored p) (takes : s.world.Takes)
    (written : s.WritesThrough p t) : t.IsStored p := by
  obtain ⟨st, x, hst, hx, session, inst⟩ := h
  cases written with
  | nothing store session' inst' =>
      exact ⟨st, x, store.trans hst, hx, session.trans session'.symm, inst.trans inst'.symm⟩
  | session renews => exact renews.isStored takes
  | inst now store session' =>
      rw [hst, Option.map_some] at store
      exact ⟨_, _, store, Store.state_saveInstance hx, session.trans session'.symm, rfl⟩

variable {w' : World} (h : s.IsStored p) (rows : w'.rowsOf p = s.world.rowsOf p)
include h rows

theorem elsewhere : IsStored p { s with world := w' } := by
  obtain ⟨st, x, hst, hx, session, inst⟩ := h
  simp only [World.rowsOf, hst, Option.map_some] at rows
  obtain ⟨st', hst', hrows⟩ := Option.map_eq_some_iff.mp rows
  exact ⟨st', x, hst', (Store.state_congr hrows).trans hx, session, inst⟩

/-- To restore what is stored yields that session and that instance, and writes nothing. -/
theorem restore :
    Identity.restore p w' = ⟨w', ⟨s.identity.session, none, s.identity.inst, some p⟩⟩ := by
  obtain ⟨st, x, hst, hx, session, inst⟩ := h.elsewhere rows
  change w'.store = some st at hst
  simp only [Identity.restore, hst, hx, session, inst]

end IsStored

/-! ### Histories -/

/-- A restored identity is stored, whatever the store held of the project. -/
theorem restored (takes : w.Takes) (p : String) :
    (Identity.restore p w).Stores p ∧ (Identity.restore p w).IsStored p ∧
      (Identity.restore p w).world.others p = w.others p := by
  have started {w' : World} (takes : w'.Takes) (same : w'.store = w.store) :
      (Identity.start (some p) w').Stores p ∧ (Identity.start (some p) w').IsStored p ∧
        (Identity.start (some p) w').world.others p = w.others p := by
    obtain ⟨stores, renews⟩ := Stores.saveSession takes
      { session := w'.mintSession.1, project := some p } rfl rfl rfl
    have others := (WritesThrough.session (s := ⟨w', default⟩) renews).others
    refine ⟨stores, renews.isStored takes, others.trans ?_⟩
    unfold World.others
    rw [same]
  obtain ⟨st, hst⟩ := Option.isSome_iff_exists.mp takes.there
  simp only [Identity.restore, hst]
  split
  · rename_i x hx
    exact ⟨⟨takes, rfl⟩, ⟨st, x, hst, hx, rfl, rfl⟩, rfl⟩
  · exact started takes rfl
  · exact started ⟨takes.there, takes.works, takes.dated⟩ rfl

/-- What happens to an identity whose row nobody else writes: its operations, and whatever else
happens in the world. -/
inductive SoleHistory (p : String) (s : Site) : Site → Prop
  | start : SoleHistory p s s
  | operate {t : Site} (op : Operation) : SoleHistory p s t → SoleHistory p s (t.operate op)
  | elsewhere {t : Site} (w : World) (takes : w.Takes) (rows : w.rowsOf p = t.world.rowsOf p) :
      SoleHistory p s t → SoleHistory p s { t with world := w }

theorem SoleHistory.of_operateAll (ops : List Operation) :
    SoleHistory p s (operateAll ops s) := by
  suffices ∀ t, SoleHistory p s t → SoleHistory p s (operateAll ops t) from this s .start
  induction ops with
  | nil => exact fun _ h => h
  | cons op ops ih => exact fun t h => ih _ (h.operate op)

/-- An identity stays stored as long as nobody else writes its row. -/
theorem SoleHistory.isStored (hh : SoleHistory p s t) (stores : s.Stores p)
    (stored : s.IsStored p) : t.Stores p ∧ t.IsStored p := by
  induction hh with
  | start => exact ⟨stores, stored⟩
  | operate op _ ih =>
      obtain ⟨stores, stored⟩ := ih
      obtain ⟨stores', written⟩ := stores.operate op
      exact ⟨stores', stored.writesThrough stores.takes written⟩
  | elsewhere w takes rows _ ih =>
      obtain ⟨stores, stored⟩ := ih
      exact ⟨⟨takes, stores.named⟩, stored.elsewhere rows⟩

/-- The store mirrors an identity. -/
structure IsMirrored (p : String) (s : Site) : Prop where
  /-- The store answers with the session and the instance of the identity. -/
  stored : s.IsStored p
  /-- Whoever restores the identity from these rows gets the same session and the same instance,
  and writes nothing. -/
  again {w : World} : w.rowsOf p = s.world.rowsOf p →
    (Identity.restore p w).identity.session = s.identity.session ∧
      (Identity.restore p w).identity.inst = s.identity.inst ∧
      (Identity.restore p w).world = w
  /-- No operation touches what is stored of other projects. -/
  others (op : Operation) : (s.operate op).world.others p = s.world.others p

/-- Whatever the store held of a project when its identity was restored, it mirrors the identity
from then on: if it could not be read it was replaced, and nothing else was touched. -/
theorem mirrored_of_restored (takes : w.Takes) (hh : SoleHistory p (Identity.restore p w) t) :
    t.IsMirrored p ∧ (Identity.restore p w).world.others p = w.others p := by
  obtain ⟨stores, stored, others⟩ := restored takes p
  obtain ⟨stores', stored'⟩ := hh.isStored stores stored
  refine ⟨⟨stored', fun rows => ?_, fun op => (stores'.operate op).2.others⟩, others⟩
  rw [stored'.restore rows]
  exact ⟨rfl, rfl, rfl⟩

/-- A store with the state of two projects; the time of the session of one of them is no time, and
its tunnel is no text. -/
def spoiled : World where
  store := some { tables.states :=
    [⟨.text "demo", .text "before", .text "yesterday", .text "run-0", .null, .blob [0xff],
        .text "2024-05-01T10:00:00+00:00"⟩,
      ⟨.text "other", .text "theirs", .text "2024-05-01T10:00:00+00:00", .null, .null, .null,
        .text "2024-05-01T10:00:00+00:00"⟩] }

/-- An instance is recorded, replaced and cleared, and another one recorded; the session is rotated,
and an instance of the former session comes too late. -/
def changes : List Operation :=
  let session : SessionId := (Identity.restore "demo" spoiled).identity.session.id
  [.connect, .setInstanceIf session ⟨⟨"run-1"⟩, some "https://one", none⟩,
    .setInstanceIf session ⟨⟨"run-2"⟩, none, none⟩, .clearInstanceIf ⟨"run-2"⟩,
    .setInstanceIf session ⟨⟨"run-3"⟩, none, none⟩, .rotate,
    .setInstanceIf session ⟨⟨"run-4"⟩, none, none⟩]

/-- A row that cannot be read is replaced, and mirrors the identity through all changes. -/
theorem mirrored_of_restored_of_spoiled :
    (∃ st e, spoiled.store = some st ∧ st.state "demo" = .error e) ∧
      IsMirrored "demo" (operateAll changes (Identity.restore "demo" spoiled)) :=
  ⟨⟨_, _, rfl, by rfl⟩,
    (mirrored_of_restored ⟨rfl, by decide, by decide +kernel⟩ (.of_operateAll changes)).1⟩

end Site

end PreviewDeploy
