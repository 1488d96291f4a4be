import PreviewDeploy.Proofs.Calls

/-!
# Writes and read-only paths

A read-only directory guards the paths whose texts continue its own (`ReadOnly.Guards`), and no
guarded path is ever written (`State.unguarded_of_write`).  Texts are compared and not places:
`./` and `/` are ignored at the front only, so a path with an empty component, `.` or `..` further
on can come down to a guarded place and is written nevertheless, and a directory whose text has
such components, such as two slashes at its end, guards nothing that is spelled without them.  For
texts that name their place plainly (`ReadOnly.IsPlain`) the two readings agree.
-/

namespace PreviewDeploy

namespace ReadOnly

variable {p d : List Char}

/-- The components of a text as they are written, after its front. -/
def parts (text : List Char) : List (List Char) := components (strip text)

/-- The components of a text are those that it comes down to; it may end with a slash. -/
def IsPlain (text : List Char) : Prop :=
  parts text = resolve text ∨ parts text = resolve text ++ [[]]

instance : Decidable (IsPlain p) := inferInstanceAs (Decidable (_ ∨ _))

/-- The text of a directory guards the text of a path. -/
def Guards (d p : List Char) : Prop :=
  asDirectory d ≠ ['/'] ∧ (asDirectory d <+: strip p ∨ strip p = trimSlashes (asDirectory d))

theorem isReadOnly_ofTexts {texts : List String} {path : String} :
    (Policy.ofTexts texts).isReadOnly path = true ↔
      ∃ d ∈ texts, Guards d.toList path.toList := by
  simp only [Policy.isReadOnly, Policy.ofTexts, Policy.covers, Guards, List.any_eq_true,
    List.mem_filter, List.mem_map, decide_eq_true_eq, Bool.or_eq_true, List.isPrefixOf_iff_prefix]
  constructor
  · rintro ⟨-, ⟨⟨d, hd, rfl⟩, hnamed⟩, hcovers⟩
    exact ⟨d, hd, hnamed, hcovers⟩
  · rintro ⟨d, hd, hnamed, hcovers⟩
    exact ⟨_, ⟨⟨d, hd, rfl⟩, hnamed⟩, hcovers⟩

/-! ### Components -/

theorem components_eq_splitOn (p : List Char) : components p = p.splitOn '/' := by
  induction p with
  | nil => rfl
  | cons c p ih =>
      have hne := List.splitOn_ne_nil '/' p
      rw [components, ih, List.splitOn_cons_eq_if_modifyHead]
      simp only [beq_iff_eq]
      split
      · rfl
      · cases hs : p.splitOn '/' with
        | nil => exact absurd hs hne
        | cons first more => rfl

/-- Names that go together as the components of one text. -/
structure AreNames (ns : List (List Char)) : Prop where
  nonempty : ∀ n ∈ ns, n ≠ []
  slashless : ∀ n ∈ ns, '/' ∉ n

theorem slash_not_mem_of_mem_components {c : List Char} (h : c ∈ components p) : '/' ∉ c := by
  induction p generalizing c with
  | nil =>
      rw [List.mem_singleton.mp h]
      exact List.not_mem_nil
  | cons x p ih =>
      unfold components at h
      split at h
      · obtain rfl | h := List.mem_cons.mp h
        · exact List.not_mem_nil
        · exact ih h
      · rename_i hx
        split at h
        · obtain rfl := List.mem_singleton.mp h
          simpa using Ne.symm hx
        · rename_i first more hcomponents
          obtain rfl | h := List.mem_cons.mp h
          · simp only [List.mem_cons, not_or]
            exact ⟨Ne.symm hx, ih (by simp [hcomponents])⟩
          · exact ih (by simp [hcomponents, h])

/-! ### What a text comes down to -/

theorem areNames_resolveFrom {done cs : List (List Char)} (hdone : AreNames done)
    (hcs : ∀ c ∈ cs, '/' ∉ c) : AreNames (resolveFrom done cs) := by
  induction cs generalizing done with
  | nil =>
      rw [resolveFrom]
      exact ⟨by simpa using hdone.nonempty, by simpa using hdone.slashless⟩
  | cons c cs ih =>
      obtain ⟨hc, hcs⟩ := List.forall_mem_cons.mp hcs
      unfold resolveFrom
      split
      · exact ih hdone hcs
      · rename_i hnamed
        split
        · exact ih ⟨fun n hn => hdone.nonempty n (List.mem_of_mem_tail hn),
            fun n hn => hdone.slashless n (List.mem_of_mem_tail hn)⟩ hcs
        · exact ih ⟨List.forall_mem_cons.mpr ⟨fun h => hnamed (.inl h), hdone.nonempty⟩,
            List.forall_mem_cons.mpr ⟨hc, hdone.slashless⟩⟩ hcs

theorem areNames_resolve (p : List Char) : AreNames (resolve p) :=
  areNames_resolveFrom ⟨by simp, by simp⟩ fun _ => slash_not_mem_of_mem_components

/-- What is ignored at the front of a text has no part in what the text comes down to. -/
theorem resolve_strip (p : List Char) : resolve (strip p) = resolve p := by
  induction p using strip.induct with
  | case1 rest ih =>
      rw [strip, ih]
      simp [resolve, components, resolveFrom]
  | case2 rest ih =>
      rw [strip, ih]
      simp [resolve, components, resolveFrom]
  | case3 p hdot hslash => rw [strip.eq_3 p hdot hslash]

theorem resolveFrom_of_named {done cs : List (List Char)}
    (hcs : ∀ c ∈ cs, c ≠ [] ∧ c ≠ ['.'] ∧ c ≠ ['.', '.']) :
    resolveFrom done cs = done.reverse ++ cs := by
  induction cs generalizing done with
  | nil => simp [resolveFrom]
  | cons c cs ih =>
      obtain ⟨⟨hempty, hdot, hdots⟩, hcs⟩ := List.forall_mem_cons.mp hcs
      simp [resolveFrom, hempty, hdot, hdots, ih hcs]

theorem isPlain_of_named (hp : ∀ c ∈ parts p, c ≠ [] ∧ c ≠ ['.'] ∧ c ≠ ['.', '.']) :
    IsPlain p := by
  refine .inl ?_
  rw [← resolve_strip, resolve, ← parts, resolveFrom_of_named hp]
  rfl

/-- A path that is written plainly lies under a directory if its components as they are written
begin with those of the directory. -/
theorem prefix_parts_iff_of_isPlain (hp : IsPlain p) :
    resolve d <+: parts p ↔ resolve d <+: resolve p := by
  obtain hp | hp := hp
  · rw [hp]
  · rw [hp, List.prefix_concat_iff]
    refine or_iff_right fun heq => ?_
    exact (areNames_resolve d).nonempty [] (by simp [heq]) rfl

/-! ### What a directory guards -/

/-- The text of some names with slashes between them. -/
def joined (ns : List (List Char)) : List Char := ['/'].intercalate ns

theorem joined_components (p : List Char) : joined (components p) = p := by
  rw [joined, components_eq_splitOn, List.intercalate_splitOn]

theorem joined_append {ns ms : List (List Char)} (hns : ns ≠ []) (hms : ms ≠ []) :
    joined (ns ++ ms) = joined ns ++ '/' :: joined ms := by
  unfold joined
  induction ns with
  | nil => exact absurd rfl hns
  | cons n ns ih =>
      by_cases h : ns = []
      · rw [h, List.singleton_append, List.intercalate_cons_of_ne_nil hms,
          List.intercalate_singleton, List.append_assoc, List.singleton_append]
      · rw [List.cons_append, List.intercalate_cons_of_ne_nil (by simp [h]), ih h,
          List.intercalate_cons_of_ne_nil h, List.append_assoc, List.append_assoc,
          List.append_assoc]

theorem components_append_slash (p q : List Char) :
    components (p ++ '/' :: q) = components p ++ components q := by
  simp only [components_eq_splitOn, List.splitOn_append_cons_self]

variable {ns : List (List Char)}

theorem components_joined (hns : AreNames ns) (hne : ns ≠ []) : components (joined ns) = ns := by
  rw [joined, components_eq_splitOn, List.splitOn_intercalate '/' hns.slashless hne]

theorem getLast?_joined_ne (hns : AreNames ns) (hne : ns ≠ []) :
    (joined ns).getLast? ≠ some '/' := by
  intro hlast
  obtain ⟨front, hfront⟩ := List.getLast?_eq_some_iff.mp hlast
  have hempty : [] ∈ ns := by
    rw [← components_joined hns hne, hfront, components_append_slash]
    exact List.mem_append_right _ (List.mem_singleton.mpr rfl)
  exact hns.nonempty [] hempty rfl

theorem trimSlashes_concat (hlast : p.getLast? ≠ some '/') : trimSlashes (p ++ ['/']) = p := by
  rw [← List.head?_reverse] at hlast
  have htrim : p.reverse.dropWhile (· = '/') = p.reverse := by
    cases hr : p.reverse with
    | nil => rfl
    | cons c cs =>
        rw [hr, List.head?_cons, ne_eq, Option.some.injEq] at hlast
        simp [hlast]
  simp [trimSlashes, htrim]

theorem trimSlashes_joined (hns : AreNames ns) (hne : ns ≠ []) :
    trimSlashes (joined ns ++ ['/']) = joined ns :=
  trimSlashes_concat (getLast?_joined_ne hns hne)

theorem asDirectory_of_isPlain (hd : IsPlain d) (hnamed : resolve d ≠ []) :
    asDirectory d = joined (resolve d) ++ ['/'] := by
  have hlast := getLast?_joined_ne (areNames_resolve d) hnamed
  have hstrip : strip d = joined (parts d) := (joined_components _).symm
  unfold asDirectory
  obtain hd | hd := hd
  · rw [hstrip, hd]
    simp [hlast]
  · rw [hstrip, hd, joined_append hnamed (List.cons_ne_nil _ _)]
    simp [joined]

/-- A plain directory text guards the paths whose components as they are written begin with its
own. -/
theorem guards_iff_of_isPlain (hd : IsPlain d) (hnamed : resolve d ≠ []) :
    Guards d p ↔ resolve d <+: parts p := by
  have hns := areNames_resolve d
  rw [Guards, asDirectory_of_isPlain hd hnamed, trimSlashes_joined hns hnamed]
  constructor
  · rintro ⟨-, ⟨rest, hrest⟩ | hsame⟩
    · rw [parts, ← hrest, List.append_assoc, List.singleton_append, components_append_slash,
        components_joined hns hnamed]
      exact List.prefix_append ..
    · have hparts : parts p = resolve d := by rw [parts, hsame, components_joined hns hnamed]
      exact hparts ▸ List.prefix_rfl
  · rintro ⟨rest, hrest⟩
    have hnonempty : joined (resolve d) ≠ [] := by
      intro h
      have hsingle := components_joined hns hnamed
      rw [h] at hsingle
      exact hns.nonempty [] (by simp [← hsingle, components]) rfl
    refine ⟨by simpa using hnonempty, ?_⟩
    rw [← joined_components (strip p), ← parts, ← hrest]
    by_cases h : rest = []
    · exact .inr (by simp [h])
    · rw [joined_append hnamed h]
      exact .inl ⟨joined rest, by simp⟩

end ReadOnly

/-! ### Runs -/

namespace State

variable {s t u : State} {a : Action} {h : List Moment} {texts : List String}

theorem blueprint_of_perform (hp : s.perform a = some u) :
    u.self.blueprint = s.self.blueprint := by
  cases deed_of_perform hp with
  | transaction k hstep =>
      obtain ⟨x, site, stage, -, -, hself, -⟩ := stepTransaction_cases hstep
      rw [hself]
      rfl
  | loop n hstep =>
      obtain ⟨l, -, hs⟩ := stepLoop_cases hstep
      cases hs with
      | begins attempt ready going =>
          simp [s.beginAttempt_frame going n attempt, attemptSelf, Orchestrator.setLoop]
      | succeeds attempt session k deadline attempting exec result =>
          by_cases hset : s.self.setup = []
          · simp [(succeed_of_nil s hset n l attempt exec).1, Orchestrator.setLoop]
          · obtain ⟨reply, hself⟩ := (succeed_of_ne_nil s hset n l attempt exec).1
            simp [hself, Orchestrator.setLoop]
      | stops => simp [Orchestrator.setLoop]
      | fails => simp [Orchestrator.setLoop]
      | retries => simp [Orchestrator.setLoop]
      | completes => simp [Orchestrator.setLoop]
  | caller n hstep =>
      obtain ⟨c, -, hs⟩ := stepCaller_cases hstep
      cases hs with
      | refused => simp [Orchestrator.setCaller]
      | joins => simp [Orchestrator.setCaller]
      | starts => simp [Orchestrator.setCaller]
      | returns => simp [Orchestrator.setCaller]
      | expires => simp [Orchestrator.setCaller]
  | watch n hstep =>
      obtain ⟨site, monitor, heals, -, hself, -⟩ := stepWatch_cases hstep
      rw [hself]
      split <;> simp
  | passes => rfl
  | calls => simp
  | abandons => simp
  | shuts => simp
  | releases => simp
  | sets other _ self =>
      obtain ⟨setup, debugging, hself⟩ := self
      rw [hself]

theorem blueprint_of_trace (ht : Trace s h t) :
    t.self.blueprint = s.self.blueprint ∧ ∀ e ∈ h, e.state.self.blueprint = s.self.blueprint := by
  induction ht with
  | start => simp
  | step ht hp ih =>
      refine ⟨(blueprint_of_perform hp).trans ih.1, fun e he => ?_⟩
      obtain rfl | he := List.mem_cons.mp he
      · exact ih.1
      · exact ih.2 e he

/-- A write has of each path the last candidate, unless a read-only directory guards the path.  So
no path is written whose components as they are written begin with those of a directory that is
named plainly; a path that is plain itself does not come down to the directory or below it. -/
theorem unguarded_of_write (ht : Trace s h t)
    (hpolicy : s.self.blueprint.policy = .ofTexts texts) :
    ∃ made, t.world.calls = s.world.calls ++ made ∧
      ∀ task client inst files message, (task, client, .write inst files message) ∈ made →
        (∃ e ∈ h, ∃ k x fresh, task = .transaction k ∧ e.action = .step task ∧
          e.state.self.transactions[k]? = some x ∧
          ∀ f, f ∈ files ↔
            lastAt f.path (Selection.candidates x.request.files fresh e.state.world.project) =
              some f ∧ ∀ d ∈ texts, ¬ ReadOnly.Guards d.toList f.path.toList) ∧
        ∀ f ∈ files, ∀ d ∈ texts, ReadOnly.IsPlain d.toList → ReadOnly.resolve d.toList ≠ [] →
          ¬ ReadOnly.resolve d.toList <+: ReadOnly.parts f.path.toList ∧
          (ReadOnly.IsPlain f.path.toList →
            ¬ ReadOnly.resolve d.toList <+: ReadOnly.resolve f.path.toList) := by
  obtain ⟨made, hmade, hmakes⟩ := makes_of_trace ht
  refine ⟨made, hmade, fun task client inst files message hcall => ?_⟩
  obtain ⟨e, he, hmade⟩ := hmakes _ hcall
  cases asks_of_makes hmade with
  | transaction k x first site stage action here goes asks =>
      cases asks with
      | write target reply =>
          have hfiles : ∀ f, f ∈ Transaction.selected e.state.self.blueprint x.request target.fresh
              e.state.toSite ↔ lastAt f.path (Selection.candidates x.request.files target.fresh
                e.state.world.project) = some f ∧
                ∀ d ∈ texts, ¬ ReadOnly.Guards d.toList f.path.toList := by
            intro f
            have hguards : (ReadOnly.Policy.ofTexts texts).isReadOnly f.path = true ↔ _ :=
              ReadOnly.isReadOnly_ofTexts
            rw [Transaction.selected, Selection.mem_files_iff, (blueprint_of_trace ht).2 e he,
              hpolicy, ← Bool.not_eq_true, hguards, and_comm]
            simp
          refine ⟨⟨e, he, k, x, target.fresh, rfl, action, here, hfiles⟩, ?_⟩
          intro f hf d hd hplain hnamed
          have hunguarded := ((hfiles f).mp hf).2 d hd
          rw [ReadOnly.guards_iff_of_isPlain hplain hnamed] at hunguarded
          exact ⟨hunguarded, fun hpath => by
            rwa [← ReadOnly.prefix_parts_iff_of_isPlain hpath]⟩

/-- A first deployment provisions an instance; a second one writes one file to it. -/
def updateOf (f : File) : List Action :=
  [.call .allFiles, .step (.caller 0), .step (.loop 0), .step (.transaction 0),
    .step (.transaction 0), .step (.loop 0), .step (.caller 0), .call { files := [f] },
    .step (.caller 1), .step (.loop 1), .step (.transaction 1), .step (.transaction 1)]

theorem trace_of_write {actions : List Action} {task : Task} {files : List File}
    (hrun : (s.follow actions).map (fun t => t.world.calls.filterMap Call.write?) =
      some [(task, files)]) :
    ∃ t client inst message, Trace s (s.history actions) t ∧
      (task, client, .write inst files message) ∈ t.world.calls := by
  obtain ⟨t, ht, hv⟩ := trace_of_map hrun
  have hmem : (task, files) ∈ t.world.calls.filterMap Call.write? := by simp [hv]
  obtain ⟨⟨task', client, request⟩, hcall, hwrite⟩ := List.mem_filterMap.mp hmem
  unfold Call.write? at hwrite
  split at hwrite
  · rename_i inst files' message hrequest
    obtain ⟨rfl, rfl⟩ := Prod.mk.inj (Option.some.inj hwrite)
    obtain rfl : request = .write inst files' message := hrequest
    exact ⟨t, client, inst, message, ht, hcall⟩
  · cases hwrite

/-- A file of the backend, under a path that takes a detour. -/
def detour : File := ⟨"src/../api-worker/index.ts", "v2"⟩

/-- The detour is written since its text does not begin with that of the directory in which it
ends. -/
theorem unguarded_of_write_of_detour : ∃ h t client inst files message, Trace bare h t ∧
    bare.self.blueprint.policy = .ofTexts ["api-worker/"] ∧
    (.transaction 1, client, .write inst files message) ∈ t.world.calls ∧ detour ∈ files ∧
    ¬ ReadOnly.resolve "api-worker/".toList <+: ReadOnly.parts detour.path.toList ∧
    ReadOnly.resolve "api-worker/".toList <+: ReadOnly.resolve detour.path.toList := by
  have hwritten : (bare.follow (updateOf detour)).map
      (fun t => t.world.calls.filterMap Call.write?) = some [(.transaction 1, [detour])] := by
    simp only [updateOf, follow, perform, step, stepTransaction, Transaction.step,
      Transaction.created, Transaction.checked, Transaction.beginWriting, Selection.select,
      Selection.ofCandidates_eq]
    decide +kernel
  obtain ⟨t, client, inst, message, ht, hcall⟩ := trace_of_write hwritten
  have hpolicy : bare.self.blueprint.policy = .ofTexts ["api-worker/"] := rfl
  obtain ⟨made, hmade, hwrites⟩ := unguarded_of_write ht hpolicy
  have hnone : bare.world.calls = [] := by decide +kernel
  rw [hnone, List.nil_append] at hmade
  obtain ⟨-, hfiles⟩ := hwrites _ _ _ _ _ (hmade ▸ hcall)
  have hmem := List.mem_singleton_self detour
  obtain ⟨hparts, -⟩ := hfiles detour hmem "api-worker/" (by simp) (by decide +kernel)
    (by decide +kernel)
  exact ⟨_, t, client, inst, [detour], message, ht, hpolicy, hcall, hmem, hparts,
    by decide +kernel⟩

/-- An orchestrator whose read-only directory has two slashes at its end. -/
def doubleSlashed : State := .start 0 none {} { policy := .ofTexts ["api-worker//"] } [] {}

/-- A file that is written can lie in a read-only directory. -/
theorem not_outside_of_write :
    ¬ ∀ (s t : State) (h : List Moment) (texts : List String) (made : List Call), s.IsStart →
      Trace s h t → s.self.blueprint.policy = .ofTexts texts →
      t.world.calls = s.world.calls ++ made →
      ∀ task client inst files message, (task, client, .write inst files message) ∈ made →
        ∀ f ∈ files, ∀ d ∈ texts, ReadOnly.resolve d.toList ≠ [] →
          ¬ ReadOnly.resolve d.toList <+: ReadOnly.resolve f.path.toList := by
  intro hclaim
  let backend : File := ⟨"api-worker/index.ts", "v2"⟩
  have hwritten : (doubleSlashed.follow (updateOf backend)).map
      (fun t => t.world.calls.filterMap Call.write?) = some [(.transaction 1, [backend])] := by
    simp only [updateOf, follow, perform, step, stepTransaction, Transaction.step,
      Transaction.created, Transaction.checked, Transaction.beginWriting, Selection.select,
      Selection.ofCandidates_eq]
    decide +kernel
  obtain ⟨t, client, inst, message, ht, hcall⟩ := trace_of_write hwritten
  have hnone : doubleSlashed.world.calls = [] := by decide +kernel
  refine hclaim doubleSlashed t _ ["api-worker//"] t.world.calls ⟨_, _, _, _, _, _, rfl⟩ ht rfl
    (by simp [hnone]) _ _ _ _ _ hcall backend (List.mem_singleton_self _) "api-worker//"
    (by simp) ?_ ?_ <;>
    decide +kernel

end State

end PreviewDeploy
