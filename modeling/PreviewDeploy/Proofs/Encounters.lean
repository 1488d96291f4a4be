import PreviewDeploy.Proofs.SiteChanges

/-!
# What a transaction meets

What decides over a transaction is the files of the project when it selects and the replies to its
calls, but for the clearing ones (`Encounter`).  From these follow the instance to write to, the
calls, the result (`Encounter.outcome`) and what becomes of the known instance: all that a whole
transaction does (`Transaction.Account`).
-/

namespace PreviewDeploy

open ControlPlane (Fault InstanceStatus CreateResponse WriteResponse)

/-- What decides over a transaction: the files of the project when it selects, and the replies to
its calls but for the clearing ones. -/
structure Encounter where
  project : Project
  status : Except Fault InstanceStatus
  create : Except Fault CreateResponse
  write : Except Fault WriteResponse
  deriving Inhabited

/-- The known instance, if it may be reused. -/
def Site.candidate (request : Request) (s : Site) : Option Instance :=
  if request.redeploy then none else s.identity.inst

/-- What is recorded of the instance that a transaction writes to, if it is new. -/
def Ensured.record (target : Ensured) : Option (Option Instance) :=
  if target.fresh then some (some target.inst) else none

namespace Encounter

variable (b : Blueprint) (n : Nat) (request : Request) (s : Site) (m : Encounter)

/-- The known instance, if it is reused. -/
def reused? : Option Instance := (s.candidate request).filter fun _ => saysHealthy m.status

/-- The instance to write to and whether it is new, or why there is none. -/
def ensured : Except Failure (Instance × Bool) :=
  match m.reused? request s, b.env with
  | some known, _ => .ok (known, false)
  | none, .failing fault => .error (.credential fault.message)
  | none, .vars .. => (provisioned m.create).map fun inst => (inst, true)

/-- There is an instance to write to: the known one is healthy, or a new one was created. -/
inductive Obtains : Instance → Bool → Prop
  | reused {inst : Instance} {status : InstanceStatus} (kept : request.redeploy = false)
      (known : s.identity.inst = some inst) (answered : m.status = .ok status)
      (healthy : status.success ∧ status.isHealthy) : Obtains inst false
  | created {response : CreateResponse} {id url : String} (unfit : m.reused? request s = none)
      (available : ∀ fault, b.env ≠ .failing fault) (answered : m.create = .ok response)
      (success : response.success) (named : response.runId = some id ∧ id ≠ "")
      (shown : response.previewUrl = some url ∧ url ≠ "") :
      Obtains ⟨⟨id⟩, some url, response.tunnelUrl⟩ true

/-- The files to write. -/
def selection (fresh : Bool) : List File :=
  (Selection.select b.policy request.files fresh m.project).files

/-- The write is answered with success, and no file has failed. -/
def Accepts : Prop :=
  ∃ response, m.write = .ok response ∧ response.success ∧ ∀ r ∈ response.results, r.success

/-- Why the write fails, if there is one and it does. -/
def refusal? (fresh : Bool) : Option Failure :=
  if m.selection b request fresh = [] then none else writeFailure? m.write

/-- What the transaction comes to: the instance, whether it is new, and how many files were
written. -/
def outcome : Except Failure (Instance × Bool × Nat) :=
  match m.ensured b request s with
  | .error failure => .error failure
  | .ok (inst, fresh) =>
    match m.refusal? b request fresh with
    | some failure => .error failure
    | none => .ok (inst, fresh, (m.selection b request fresh).length)

/-- The status of the instance that may be reused is asked for. -/
def statusCalls (client : Client) : List Call :=
  (s.candidate request).toList.map fun known => (.transaction n, client, .status known.id)

/-- A new instance is asked for once if none is reused and the environment can be had. -/
inductive Creates (client : Client) : Option Instance → List Call → Prop
  | reused (known : Instance) : Creates client (some known) []
  | failing {fault : Fault} (env : b.env = .failing fault) : Creates client none []
  | once {seconds : Int64} {nonce : String} {vars : Vars}
      (minted : b.env.forSession client.session seconds nonce = .ok vars) :
      Creates client none [(.transaction n, client, .create (b.creation vars))]

/-- The calls before the write, through the client of the session. -/
structure Opens (client : Client) (made : List Call) : Prop where
  own : client.session = s.identity.session.id
  calls : ∃ created, Creates b n client (m.reused? request s) created ∧
    made = statusCalls n request s client ++ created

/-- The files are written if there are any. -/
def writeCalls (target : Ensured) : List Call :=
  if m.selection b request target.fresh = [] then []
  else [writeCall n target request (m.selection b request target.fresh)]

/-- The logs and the runtime errors are cleared if the request says so. -/
def clearCalls (target : Ensured) : List Call :=
  if request.clearLogs then
    [(.transaction n, target.client, .logs target.inst.id true),
      (.transaction n, target.client, .clearErrors target.inst.id)]
  else []

/-- There is an instance to write to, after some calls. -/
structure Settles (target : Ensured) (made : List Call) : Prop where
  opens : m.Opens b n request s target.client made
  obtained : m.Obtains b request s target.inst target.fresh

/-- What was met once a transaction goes on from a stage. -/
def hear (t : Site) : TransactionStage → Encounter
  | .checking _ _ reply => { m with project := t.world.project, status := reply.result }
  | .creating _ reply => { m with project := t.world.project, create := reply.result }
  | .writing _ _ reply => { m with write := reply.result }
  | _ => m

variable {b n request s m} {m' : Encounter} {client : Client} {made : List Call}

theorem reused?_eq_some {inst : Instance} : m.reused? request s = some inst ↔
    request.redeploy = false ∧ s.identity.inst = some inst ∧ saysHealthy m.status := by
  unfold reused? Site.candidate
  cases request.redeploy <;> simp [Option.filter_eq_some_iff]

theorem ensured_eq_ok {inst : Instance} {fresh : Bool} :
    m.ensured b request s = .ok (inst, fresh) ↔
      m.reused? request s = some inst ∧ fresh = false ∨
      m.reused? request s = none ∧ (∀ fault, b.env ≠ .failing fault) ∧
        provisioned m.create = .ok inst ∧ fresh = true := by
  unfold ensured
  cases m.reused? request s with
  | some known => simp [eq_comm]
  | none =>
      cases b.env with
      | failing fault => simp
      | vars fixed proxy =>
          cases provisioned m.create <;> simp [Except.map, eq_comm]

theorem saysHealthy_eq_true {reply : Except Fault InstanceStatus} :
    saysHealthy reply = true ↔
      ∃ status, reply = .ok status ∧ status.success ∧ status.isHealthy := by
  cases reply <;> simp [saysHealthy]

/-- A new instance is named by an answer with success, with a run and a preview. -/
theorem provisioned_eq_ok {reply : Except Fault CreateResponse} {inst : Instance} :
    provisioned reply = .ok inst ↔ ∃ response id url, reply = .ok response ∧ response.success ∧
      (response.runId = some id ∧ id ≠ "") ∧ (response.previewUrl = some url ∧ url ≠ "") ∧
      inst = ⟨⟨id⟩, some url, response.tunnelUrl⟩ := by
  cases reply with
  | error fault => simp [provisioned]
  | ok response =>
      have nonEmpty_eq_some {text : Option String} {word : String} :
          CreateResponse.nonEmpty text = some word ↔ text = some word ∧ word ≠ "" := by
        simp [CreateResponse.nonEmpty, Option.filter_eq_some_iff]
      simp only [provisioned, CreateResponse.toInstance]
      constructor
      · intro h
        split at h
        · rename_i success
          split at h
          · rename_i id url named shown
            exact ⟨response, id, url, rfl, success, nonEmpty_eq_some.mp named,
              nonEmpty_eq_some.mp shown, (Except.ok.inj h).symm⟩
          · cases h
        · cases h
      · rintro ⟨_, id, url, answered, success, named, shown, rfl⟩
        obtain rfl := Except.ok.inj answered
        rw [if_pos success, nonEmpty_eq_some.mpr named, nonEmpty_eq_some.mpr shown]

/-- There is an instance to write to exactly when none of the ways to miss it is taken. -/
theorem obtains_iff {inst : Instance} {fresh : Bool} :
    m.Obtains b request s inst fresh ↔ m.ensured b request s = .ok (inst, fresh) := by
  rw [ensured_eq_ok]
  constructor
  · intro h
    cases h with
    | reused kept known answered healthy =>
        exact .inl ⟨reused?_eq_some.mpr ⟨kept, known,
          saysHealthy_eq_true.mpr ⟨_, answered, healthy⟩⟩, rfl⟩
    | created unfit available answered success named shown =>
        exact .inr ⟨unfit, available,
          provisioned_eq_ok.mpr ⟨_, _, _, answered, success, named, shown, rfl⟩, rfl⟩
  · rintro (⟨hreused, rfl⟩ | ⟨unfit, available, hprovisioned, rfl⟩)
    · obtain ⟨kept, known, hhealthy⟩ := reused?_eq_some.mp hreused
      obtain ⟨status, answered, healthy⟩ := saysHealthy_eq_true.mp hhealthy
      exact .reused kept known answered healthy
    · obtain ⟨response, id, url, answered, success, named, shown, rfl⟩ :=
        provisioned_eq_ok.mp hprovisioned
      exact .created unfit available answered success named shown

theorem refusal?_eq_none {fresh : Bool} :
    m.refusal? b request fresh = none ↔ m.selection b request fresh = [] ∨ m.Accepts := by
  have hwrite : writeFailure? m.write = none ↔ m.Accepts := by
    unfold Accepts
    cases m.write with
    | error fault => simp [writeFailure?]
    | ok response =>
        by_cases success : response.success
        · simp [writeFailure?, WriteResponse.failure?, WriteResponse.failed, success,
            List.filter_eq_nil_iff]
        · simp [writeFailure?, WriteResponse.failure?, success]
          split <;> simp
  by_cases hnone : m.selection b request fresh = []
  · simp [refusal?, hnone]
  · simp [refusal?, hnone, hwrite]

/-- The instance to write to is the known one once a new one is recorded. -/
theorem inst_of_obtains {target : Ensured} (h : m.Obtains b request s target.inst target.fresh) :
    target.record.getD s.identity.inst = some target.inst := by
  obtain ⟨hreused, hfresh⟩ | ⟨-, -, -, hfresh⟩ := ensured_eq_ok.mp (obtains_iff.mp h)
  · have hknown := (reused?_eq_some.mp hreused).2.1
    simp [Ensured.record, hfresh, hknown]
  · simp [Ensured.record, hfresh]

/-- Only the reply to the first call counts for the calls before the write. -/
theorem Opens.congr (h : m.Opens b n request s client made) (status : m'.status = m.status) :
    m'.Opens b n request s client made := by
  have hreused : m'.reused? request s = m.reused? request s := by rw [reused?, reused?, status]
  exact ⟨h.own, hreused ▸ h.calls⟩

/-- The reply to the write does not count for what is written to. -/
theorem Settles.write {target : Ensured} (h : m.Settles b n request s target made)
    (reply : Except Fault WriteResponse) :
    Settles b n request s { m with write := reply } target made where
  opens := h.opens.congr rfl
  obtained := by
    have hensured := obtains_iff.mp h.obtained
    exact obtains_iff.mpr hensured

end Encounter

namespace Transaction

open Encounter (statusCalls clearCalls)

/-- What a whole transaction does, from a site `s` to a site `t`, by what it has met. -/
inductive Account (b : Blueprint) (n : Nat) (request : Request) (s : Site) (m : Encounter)
    (t : Site) : Except Failure Execution → Prop
  /-- After success the instance that was written to is the known one. -/
  | done {target : Ensured} {made : List Call} (settles : m.Settles b n request s target made)
      (accepted : m.refusal? b request target.fresh = none)
      (changes : s.Changes n (made ++ m.writeCalls b n request target ++
        clearCalls n request target) target.record t) :
      Account b n request s m t (.ok ⟨target.inst, target.fresh,
        (m.selection b request target.fresh).length, target.client⟩)
  /-- Without an instance to write to nothing is changed. -/
  | missed {failure : Failure} {client : Client} {made : List Call}
      (opens : m.Opens b n request s client made)
      (missing : m.ensured b request s = .error failure) (changes : s.Changes n made none t) :
      Account b n request s m t (.error failure)
  /-- After a write that has failed no instance is known or stored. -/
  | refused {target : Ensured} {failure : Failure} {made : List Call}
      (settles : m.Settles b n request s target made)
      (refused : m.refusal? b request target.fresh = some failure)
      (changes : s.Changes n (made ++ m.writeCalls b n request target) (some none) t) :
      Account b n request s m t (.error failure)

namespace Account

variable {b : Blueprint} {n : Nat} {request : Request} {m : Encounter} {s t : Site}
  {result : Except Failure Execution}

/-- What was met determines the result, whatever the replies to the clearing calls were. -/
theorem map_result (h : Account b n request s m t result) :
    result.map (fun exec => (exec.inst, exec.fresh, exec.written)) = m.outcome b request s := by
  cases h with
  | done settles accepted changes =>
      simp [Encounter.outcome, Encounter.obtains_iff.mp settles.obtained, accepted, Except.map]
  | missed opens missing changes => simp [Encounter.outcome, missing, Except.map]
  | refused settles refused changes =>
      simp [Encounter.outcome, Encounter.obtains_iff.mp settles.obtained, refused, Except.map]

/-- A transaction answers with success exactly when there was an instance to write to, and there
was nothing to write or the write was accepted. -/
theorem ok_iff (h : Account b n request s m t result) :
    (∃ exec, result = .ok exec) ↔ ∃ inst fresh, m.Obtains b request s inst fresh ∧
      (m.selection b request fresh = [] ∨ m.Accepts) := by
  cases h with
  | done settles accepted changes =>
      have haccepted := Encounter.refusal?_eq_none.mp accepted
      exact ⟨fun _ => ⟨_, _, settles.obtained, haccepted⟩, fun _ => ⟨_, rfl⟩⟩
  | missed opens missing changes =>
      constructor
      · rintro ⟨exec, h⟩
        cases h
      · rintro ⟨inst, fresh, obtained, -⟩
        cases missing.symm.trans (Encounter.obtains_iff.mp obtained)
  | refused settles refused changes =>
      constructor
      · rintro ⟨exec, h⟩
        cases h
      · rintro ⟨inst, fresh, obtained, accepted⟩
        have hsame := (Encounter.obtains_iff.mp obtained).symm.trans
          (Encounter.obtains_iff.mp settles.obtained)
        obtain ⟨-, rfl⟩ := Prod.mk.inj (Except.ok.inj hsame)
        cases refused.symm.trans (Encounter.refusal?_eq_none.mpr accepted)

end Account

end Transaction

end PreviewDeploy
