import PreviewDeploy.Proofs.OneClient
import PreviewDeploy.Proofs.StoredMirror

/-!
# Changes of a site

What a transaction does to a site between two of its steps, told by the calls that it makes and
by what it makes of the known instance (`Site.Changes`): the session stays, and the row of the
project follows the known instance as long as the store takes all writes.  Changes add up.
-/

namespace PreviewDeploy

/-! ### Rows of a project -/

namespace Store

variable {s : Store} {project : String} {now : Timestamp}

theorem StateRow.filter_holds_map {f : StateRow → StateRow}
    (keeps : ∀ r, r.holds project → (f r).holds project) (rows : List StateRow) :
    (rows.map fun r => if r.holds project then f r else r).filter (·.holds project) =
      (rows.filter (·.holds project)).map f := by
  induction rows with
  | nil => rfl
  | cons r rows ih =>
      by_cases h : r.holds project
      · simp [h, keeps r h, ih]
      · simp [h, ih]

theorem filter_saveInstance (inst : Option Instance) :
    (s.after (·.saveInstance project inst now)).tables.states.filter (·.holds project) =
      (s.tables.states.filter (·.holds project)).map (·.withInstance inst now) := by
  unfold after saveInstance
  by_cases h : s.tables.states.any (·.holds project)
  · simp only [h, if_true]
    exact StateRow.filter_holds_map (f := (·.withInstance inst now)) (fun _ h => h) _
  · have hnone : s.tables.states.filter (·.holds project) = [] := by
      simpa [List.filter_eq_nil_iff] using h
    simp only [h, Bool.false_eq_true, if_false, hnone, List.map_nil]

end Store

/-- What becomes of the rows of a project when the known instance is replaced by another one or
none, if it is. -/
def World.Rewrites (p : String) (change : Option (Option Instance)) (w w' : World) : Prop :=
  match change with
  | none => w'.rowsOf p = w.rowsOf p
  | some inst => ∃ now, w'.rowsOf p = (w.rowsOf p).map (·.map (·.withInstance inst now))

namespace World.Rewrites

variable {p : String} {change change' : Option (Option Instance)} {w w' w'' : World}

/-- The last change counts. -/
theorem trans (h : Rewrites p change w w') (h' : Rewrites p change' w' w'') :
    Rewrites p (change'.or change) w w'' := by
  cases change' with
  | none =>
      cases change with
      | none => exact Eq.trans h' h
      | some inst =>
          obtain ⟨now, h⟩ := h
          exact ⟨now, Eq.trans h' h⟩
  | some inst' =>
      obtain ⟨now', h'⟩ := h'
      cases change with
      | none => exact ⟨now', h'.trans (congrArg _ h)⟩
      | some inst =>
          obtain ⟨now, h⟩ := h
          refine ⟨now', ?_⟩
          rw [h', h, Option.map_map]
          refine congrArg (Option.map · (w.rowsOf p)) (funext fun rows => ?_)
          rw [Function.comp_apply, List.map_map]
          rfl

end World.Rewrites

/-! ### Changes of a site -/

namespace Site

/-- The client that is there is the one of the session, and the store takes all writes. -/
structure IsSound (s : Site) : Prop where
  fits : s.identity.Fits
  works : ∀ fails ∈ s.world.outages, fails = false

/-- The calls of the `n`-th transaction. -/
def callsOf (n : Nat) (s : Site) : List Call := s.world.calls.filter (·.1 = .transaction n)

/-- From `s` to `u` the `n`-th transaction makes some calls, and the known instance is replaced by
another one or none, if it is; of the identity and its rows nothing else changes. -/
structure Changes (n : Nat) (made : List Call) (change : Option (Option Instance)) (s u : Site) :
    Prop where
  sound : u.IsSound
  session : u.identity.session = s.identity.session
  named : u.identity.project = s.identity.project
  inst : u.identity.inst = change.getD s.identity.inst
  rows : ∀ p, s.identity.project = some p → World.Rewrites p change s.world u.world
  calls : u.callsOf n = s.callsOf n ++ made

variable {n : Nat} {made made' : List Call} {change change' : Option (Option Instance)}
  {s t u : Site}

theorem Changes.trans (h : Changes n made change s t) (h' : Changes n made' change' t u) :
    Changes n (made ++ made') (change'.or change) s u where
  sound := h'.sound
  session := h'.session.trans h.session
  named := h'.named.trans h.named
  inst := by
    rw [h'.inst, h.inst]
    cases change' <;> rfl
  rows p hp := (h.rows p hp).trans (h'.rows p (h.named.trans hp))
  calls := by rw [h'.calls, h.calls, List.append_assoc]

/-- What comes before a change does not show if it changes nothing. -/
theorem Changes.before (h' : Changes n made change t u) (h : Changes n [] none s t) :
    Changes n made change s u := by
  simpa using h.trans h'

/-- Nor does what comes after it. -/
theorem Changes.after (h : Changes n made change s t) (h' : Changes n [] none t u) :
    Changes n made change s u := by
  simpa using h.trans h'

theorem Changes.of_quiet (hs : s.IsSound) (identity : u.identity = s.identity)
    (world : u.world.store = s.world.store ∧ u.world.outages = s.world.outages ∧
      u.world.calls = s.world.calls) : Changes n [] none s u where
  sound := ⟨identity ▸ hs.fits, world.2.1 ▸ hs.works⟩
  session := by rw [identity]
  named := by rw [identity]
  inst := by rw [identity]; rfl
  rows p _ := by simp only [World.Rewrites, World.rowsOf, world.1]
  calls := by rw [callsOf, world.2.2, List.append_nil, callsOf]

theorem Changes.refl (hs : s.IsSound) : Changes n [] none s s := .of_quiet hs rfl ⟨rfl, rfl, rfl⟩

theorem changes_warn (hs : s.IsSound) (text : String) : Changes n [] none s (s.warn text) :=
  .of_quiet hs rfl ⟨rfl, rfl, by simp⟩

theorem changes_warnIf (hs : s.IsSound) (ok : Bool) (text : String) :
    Changes n [] none s (if ok then s else s.warn text) := by
  cases ok with
  | true => exact .refl hs
  | false => exact changes_warn hs text

theorem changes_foldl_warn {α : Type} (text : String) (xs : List α) (hs : s.IsSound) :
    Changes n [] none s (xs.foldl (fun s _ => s.warn text) s) := by
  induction xs generalizing s with
  | nil => exact .refl hs
  | cons x xs ih =>
      have hw := changes_warn (n := n) hs text
      exact (ih hw.sound).before hw

theorem changes_ask {α : Type} (hs : s.IsSound) (client : Client) (request : ControlPlane.Request)
    (take : ControlPlane.Script → ControlPlane.Reply α × ControlPlane.Script) :
    Changes n [(.transaction n, client, request)] none s
      { s with world := (s.world.ask (.transaction n) client request take).2 } where
  sound := ⟨hs.fits, hs.works⟩
  session := rfl
  named := rfl
  inst := rfl
  rows _ _ := rfl
  calls := by simp [callsOf]

theorem changes_mintNonce (hs : s.IsSound) :
    Changes n [] none s { s with world := s.world.mintNonce.2 } :=
  .of_quiet hs rfl ⟨rfl, rfl, by simp⟩

theorem changes_connect (hs : s.IsSound) : Changes n [] none s s.connect.2 where
  sound := by
    refine ⟨?_, ?_⟩
    · have retains : s.Retains s.connect.2 := by simp [Retains]
      exact retains.fits hs.fits
    · have outages : s.connect.2.world.outages = s.world.outages := by
        unfold connect
        split <;> rfl
      exact outages ▸ hs.works
  session := by simp
  named := by simp
  inst := by simp
  rows p _ := by
    have store : s.connect.2.world.store = s.world.store := by
      unfold connect
      split <;> rfl
    simp only [World.Rewrites, World.rowsOf, store]
  calls := by simp [callsOf]

/-- The known instance is replaced, in the store as well. -/
theorem changes_instanceSaved (hs : s.IsSound) (inst : Option Instance) :
    let id := { s.identity with inst }
    Changes n [] (some inst) s ⟨id.instanceSaved s.world, id⟩ := by
  intro id
  refine ⟨⟨hs.fits, ?_⟩, rfl, rfl, rfl, fun p hp => ⟨s.world.time, ?_⟩, by simp [callsOf]⟩
  · simp only [Identity.instanceSaved]
    split
    · exact hs.works
    · exact (World.persist_of_works hs.works _ _).1
  · have hsaved : id.instanceSaved s.world = s.world.persist "failed to persist instance"
        fun st => st.saveInstance p inst s.world.time := by
      simp only [Identity.instanceSaved, id, hp]
    rw [hsaved, World.rowsOf, (World.persist_of_works hs.works _ _).2, World.rowsOf,
      Option.map_map, Option.map_map]
    exact congrArg (Option.map · s.world.store) (funext fun st => Store.filter_saveInstance inst)

theorem changes_setInstanceIf (hs : s.IsSound) {session : SessionId} (inst : Instance)
    (current : s.identity.session.id = session) :
    Changes n [] (some (some inst)) s (s.setInstanceIf session inst).2 := by
  simp only [setInstanceIf, current, if_true]
  exact changes_instanceSaved hs (some inst)

theorem changes_clearInstanceIf (hs : s.IsSound) {inst : Instance}
    (known : s.identity.inst = some inst) :
    Changes n [] (some none) s (s.clearInstanceIf inst.id).2 := by
  simp only [clearInstanceIf, known, if_true]
  exact changes_instanceSaved hs none

end Site

end PreviewDeploy
