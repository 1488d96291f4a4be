import PreviewDeploy.Store.Basic

/-!
# Overwriting cells

Another program may write to the tables.  `overwrite` puts a cell into one column of all rows
that a key names and answers their number, unless the rows would break a rule: a required column
is not null, no two rows have the same key, and an attempt has its deployment.
-/

namespace PreviewDeploy.Store

/-- No row after another one has the same key; null keys do not count. -/
def keysDistinct (key : Row → List Cell) : List Row → Bool
  | [] => true
  | r :: rest =>
    (((key r).contains .null) || rest.all fun q => key q ≠ key r) && keysDistinct key rest

/-- The rows with a cell in a column of those that a key names. -/
def overwriteRows (table : String) (columns : List (Column Row)) (named : Row → Bool)
    (column : String) (value : Cell) (rows : List Row) : Except StoreError (List Row) :=
  match columns.find? (·.name = column) with
  | none => .error (.notFound ("column " ++ table ++ "." ++ column))
  | some c =>
    let value := c.affinity.apply value
    if c.required && value = .null && rows.any named then
      .error (.broken (.notNull table column))
    else .ok (rows.map fun r => if named r then c.set r value else r)

/-- Every attempt has its deployment. -/
def Tables.linked (t : Tables) : Bool :=
  t.attempts.all fun a => t.deployments.any fun d => d.id = a.deploymentId

/-- The tables with a cell in one column of the rows that a key names. -/
def Tables.overwrite (t : Tables) (table key column : String) (value : Cell) :
    Except StoreError (Tables × Nat) :=
  match table with
  | "deployment_state" => do
    let named (r : StateRow) : Bool := r.project = .text key
    let rows ← overwriteRows table StateRow.columns named column value t.states
    if keysDistinct (fun r => [r.project]) rows then
      pure ({ t with states := rows }, t.states.countP named)
    else throw (.broken (.unique table ["project"]))
  | "deployments" => do
    let named (r : DeploymentRow) : Bool := r.id = .text key
    let rows ← overwriteRows table DeploymentRow.columns named column value t.deployments
    let t' := { t with deployments := rows }
    if !keysDistinct (fun r => [r.id]) rows then throw (.broken (.unique table ["id"]))
    else if t'.linked then pure (t', t.deployments.countP named)
    else throw (.broken .foreignKey)
  | "deployment_attempts" => do
    let named (r : AttemptRow) : Bool := r.deploymentId = .text key
    let rows ← overwriteRows table AttemptRow.columns named column value t.attempts
    let t' := { t with attempts := rows }
    if !keysDistinct (fun r => [r.deploymentId, r.attempt]) rows then
      throw (.broken (.unique table ["deployment_id", "attempt"]))
    else if t'.linked then pure (t', t.attempts.countP named)
    else throw (.broken .foreignKey)
  | _ => throw (.notFound ("table " ++ table))

/-- The store with a cell in one column of the rows that a key names, and their number. -/
def overwrite (s : Store) (table key column : String) (value : Cell) :
    Except StoreError (Store × Nat) :=
  (s.tables.overwrite table key column value).map fun (t, n) => ({ s with tables := t }, n)

end PreviewDeploy.Store
