/-
  The execution proxy of the source database (`services/query_runner.py`).

  `execute` runs what the text guard has let pass in a read-only transaction,
  fetches its rows in batches up to two caps and writes one line of audit.  What
  the source database makes of the statements of a session is a `Session`.

  * `serialize`: a value of a row as JSON;
  * `readBatch`, `fetchRows`: the two loops over the rows;
  * `readSession`: what becomes of a session;
  * `execute`: the call.
-/
import RoboMeta.QueryRunner

namespace RoboMeta.Source

/-! ## Settings and requests -/

/-- The part of the settings that `execute` reads. -/
structure Settings where
  execDefaultTimeoutS : ℤ
  execMaxTimeoutS : ℤ
  execDefaultMaxRows : ℤ
  execMaxRowsHard : ℤ
  execMaxBytes : ℤ
  sourcePgSchema : String

/-- The arguments of `execute`. -/
structure Request where
  sql : String
  timeoutS : Option ℤ
  maxRows : Option ℤ
  caller : Option String

/-- `max(1, min(int(given or default), maximum))`. -/
def applied (given : Option ℤ) (default maximum : ℤ) : ℤ := max 1 (min ((given.filter (· ≠ 0)).getD default) maximum)

/-! ## Sessions -/

/-- What is raised while a session lasts. -/
inductive Failure where
  /-- `psycopg.errors.QueryCanceled`. -/
  | canceled (text : String)
  /-- Any other `psycopg.Error`. -/
  | database (exc : Exc)
  /-- Any other exception. -/
  | other (exc : Exc)

/-- A value of a row. -/
inductive Value where
  | scalar (s : Scalar)
  /-- Bytes: their text in UTF-8, if it can be made, and their `repr`. -/
  | bytes (decoded : Option String) (repr : String)
  /-- Any other object: what `isoformat()`, `float` and `str` make of it, if they do not raise. -/
  | object (isoformat float : Option String) (str : Except Failure String)

/-- The rows that are still to be fetched; a row that cannot be loaded raises. -/
abbrev Cursor := List (Except Failure (List Value))

inductive Session where
  /-- The connection or a statement fails. -/
  | failed (failure : Failure)
  /-- All statements are run, and `COMMIT` if no row raises; a statement without columns has no rows. -/
  | executed (columns : Option (List String)) (cursor : Cursor) (commit : Option Failure)

/-- The statements of a session up to the one whose rows are fetched. -/
def statements (settings : Settings) (timeout : ℤ) (sql : String) : List String :=
  ["BEGIN READ ONLY", "SET LOCAL statement_timeout = '" ++ toString timeout ++ "s'", "SET LOCAL lock_timeout = '2s'",
    "SET LOCAL search_path = \"" ++ settings.sourcePgSchema ++ "\", public", sql]

/-! ## Rows -/

/-- `_serialize`. -/
def serialize : Value → Except Failure Scalar
  | .scalar s => .ok s
  | .bytes decoded repr => .ok (.str (decoded.getD repr))
  | .object (some text) _ _ => .ok (.str text)
  | .object none (some text) _ => .ok (.float text)
  | .object none none str => str.map .str

/-- What has been fetched so far. -/
structure Fetched where
  rows : List (List Scalar) := []
  totalBytes : ℕ := 0
  truncated : Bool := false

/-- `cur.fetchmany(size)`. -/
def fetchmany (size : ℕ) (cursor : Cursor) : Except Failure (List (List Value)) := (cursor.take size).mapM id

section
variable (maxRows maxBytes : ℤ)

/-- The loop over a batch, until a row is one too many or too long. -/
def readBatch : List (List Value) → Fetched → Fetched × Option Failure
  | [], f => (f, none)
  | r :: batch, f => match r.mapM serialize with
    | .error failure => (f, some failure)
    | .ok serial =>
      let rowBytes := (dumps serial).utf8ByteSize
      if maxRows ≤ f.rows.length ∨ maxBytes < f.totalBytes + rowBytes then ({ f with truncated := true }, none)
      else readBatch batch { f with rows := f.rows ++ [serial], totalBytes := f.totalBytes + rowBytes }

/-- The loop over the batches, until one is empty or a row has been left out. -/
def fetchRows (cursor : Cursor) (f : Fetched) : Fetched × Option Failure :=
  match _hbatch : fetchmany 200 cursor with
  | .error failure => (f, some failure)
  | .ok [] => (f, none)
  | .ok (r :: batch) =>
    let (f, failure) := readBatch maxRows maxBytes (r :: batch) f
    if failure.isSome ∨ f.truncated then (f, failure) else fetchRows (cursor.drop 200) f
termination_by cursor.length
decreasing_by
  have hcursor : 0 < cursor.length := by
    rw [List.length_pos_iff]
    rintro rfl
    cases _hbatch
  rw [List.length_drop]
  omega

/-- The `except` clauses: what was fetched so far stays. -/
def failed (timeout : ℤ) (o : Outcome) : Failure → Outcome
  | .canceled text =>
    { o with status := .timeout, error := some ("statement_timeout " ++ toString timeout ++ "s 초과: " ++ text) }
  | .database exc => { o with status := .dbError, error := some (exc.cls ++ ": " ++ exc.text) }
  | .other exc => { o with status := .error, error := some exc.text }

def readSession (timeout : ℤ) : Session → Outcome
  | .failed failure => failed timeout {} failure
  | .executed columns cursor commit =>
    let (f, failure) := columns.elim ({}, none) fun _ => fetchRows maxRows maxBytes cursor {}
    let o : Outcome := { columns := columns.getD [], rows := f.rows, truncated := f.truncated }
    (failure.or commit).elim o (failed timeout o)

end

/-! ## A call -/

/-- A line of audit of a call that was executed. -/
structure ExecutedAudit where
  ts : String
  auditId : String
  status : Status
  caller : Option String
  sql : String
  leadingKeyword : String
  timeoutSApplied : ℤ
  maxRowsApplied : ℤ
  rowCount : ℕ
  truncated : Bool
  elapsedMs : String
  error : Option String

inductive AuditRecord where
  | rejected (entry : RejectedAudit)
  | executed (entry : ExecutedAudit)

section
variable (U : Unicode) (settings : Settings) (db : List String → Session) (stamp : Stamp) (request : Request)

def executedAudit (report : GuardReport) (timeout maxRows : ℤ) (o : Outcome) : ExecutedAudit where
  ts := stamp.ts
  auditId := stamp.auditId
  status := o.status
  caller := request.caller
  sql := report.normalizedSql
  leadingKeyword := report.leadingKeyword
  timeoutSApplied := timeout
  maxRowsApplied := maxRows
  rowCount := o.rows.length
  truncated := o.truncated
  elapsedMs := stamp.elapsedMs
  error := o.error

def appliedTimeout : ℤ := applied request.timeoutS settings.execDefaultTimeoutS settings.execMaxTimeoutS

def appliedRows : ℤ := applied request.maxRows settings.execDefaultMaxRows settings.execMaxRowsHard

/-- What the session of a call comes to. -/
def sessionOutcome (report : GuardReport) : Outcome :=
  readSession (appliedRows settings request) settings.execMaxBytes (appliedTimeout settings request)
    (db (statements settings (appliedTimeout settings request) report.normalizedSql))

/-- The line of audit of a call that the guard has let pass. -/
def executedLine (report : GuardReport) : AuditRecord :=
  .executed (executedAudit stamp request report (appliedTimeout settings request) (appliedRows settings request)
    (sessionOutcome settings db request report))

/-- The line of audit is written, and the call ends with `result`, unless the write raises. -/
def conclude (fault : AuditRecord → Option Exc) (audit : List AuditRecord) (entry : AuditRecord)
    (result : Except ExecuteError ExecuteResponse) : Except ExecuteError ExecuteResponse × List AuditRecord :=
  match appendAudit fault audit entry with
  | .error exc => (.error (.raised exc), audit)
  | .ok audit => (result, audit)

/-- A call, behind the lines of audit that are there. -/
def execute (fault : AuditRecord → Option Exc) (audit : List AuditRecord) :
    Except ExecuteError ExecuteResponse × List AuditRecord :=
  match check U request.sql with
  | .error exc =>
    conclude fault audit (.rejected {
      ts := stamp.ts, auditId := stamp.auditId, reason := exc.message, caller := request.caller, sql := request.sql })
      (.error (.guard exc))
  | .ok report =>
    conclude fault audit (executedLine settings db stamp request report)
      (.ok (executeResponse stamp report (appliedTimeout settings request) (appliedRows settings request)
        (sessionOutcome settings db request report)))

end

end RoboMeta.Source
