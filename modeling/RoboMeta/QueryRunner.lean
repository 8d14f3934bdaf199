/-
  The execution proxy (`services/query_runner_mindsdb.py`).

  `execute` sends what three guards have let pass to MindsDB and writes one
  line of audit for it.  Its effects are kept in a `World`: the lines of audit
  and the requests that left the service.  What MindsDB answers is a `Reply`;
  a line of audit that is not taken raises, and leaves nothing behind.

  * `guardSql` is the guarded part, `readReply` what becomes of a reply;
  * `AuditedOnce`: one line of audit, no request past a guard, and agreement of
    audit, request and response;
  * `auditedOnce_iff`: a call is audited once iff the artifact guard, if it is
    reached, comes to a verdict, and the audit file takes the line.
-/
import RoboMeta.ArtifactGuardJson
import RoboMeta.Namespaces

namespace RoboMeta

/-! ## Settings, effects and results -/

/-- The part of the runtime settings that `execute` reads. -/
structure MindsdbRuntime extends ExecutionRuntime where
  backend : String
  sqlApiUrl : String
  integration : String
  defaultTimeoutSeconds : ℤ
  maximumTimeoutSeconds : ℤ
  defaultMaxRows : ℤ
  maximumRows : ℤ
  maximumResponseBytes : ℤ

inductive Status where
  | ok
  | dbError
  | timeout
  | error
  | rejected
deriving DecidableEq, Repr

/-- A line of audit of a call that was refused. -/
structure RejectedAudit where
  ts : String
  auditId : String
  reason : String
  caller : Option String
  sql : String

/-- A line of audit of a call that was executed. -/
structure ExecutedAudit where
  ts : String
  auditId : String
  status : Status
  caller : Option String
  sql : String
  backend : String
  integration : String
  timeoutSApplied : ℤ
  maxRowsApplied : ℤ
  rowCount : ℕ
  truncated : Bool
  elapsedMs : String
  error : Option String

inductive AuditRecord where
  | rejected (entry : RejectedAudit)
  | executed (entry : ExecutedAudit)

def AuditRecord.status : AuditRecord → Status
  | rejected _ => .rejected
  | executed entry => entry.status

/-- A request to the SQL API of MindsDB. -/
structure Post where
  url : String
  timeout : ℤ
  query : String

/-- `_append_audit`: the lines of the file behind it, or what the write raises. -/
def appendAudit {R : Type} (fault : R → Option Exc) (lines : List R) (entry : R) : Except Exc (List R) :=
  match fault entry with
  | some exc => .error exc
  | none => .ok (lines ++ [entry])

structure World where
  audit : List AuditRecord
  posts : List Post
  /-- What the write of a line raises, if it does: the file system, or the encoder
      at a text that is no Unicode (a lone surrogate). -/
  auditFault : AuditRecord → Option Exc := fun _ => none

def World.post (w : World) (p : Post) : World := { w with posts := w.posts ++ [p] }

/-- What becomes of the HTTP call. -/
inductive Reply where
  /-- The client cannot be opened: nothing is sent. -/
  | unsent (exc : Exc)
  /-- `httpx.TimeoutException`. -/
  | timeout
  /-- The transport fails, the status is one of failure, or the body is no JSON. -/
  | raised (exc : Exc)
  | body (value : JsonValue)

def Reply.sent : Reply → Bool
  | unsent _ => false
  | _ => true

structure ExecuteResponse where
  auditId : String
  status : Status
  error : Option String
  sqlExecuted : String
  columns : List String
  rows : List (List Scalar)
  rowCount : ℕ
  truncated : Bool
  elapsedMs : String
  timeoutSApplied : ℤ
  maxRowsApplied : ℤ

inductive ExecuteError where
  | guard (exc : GuardError)
  | raised (exc : Exc)

/-! ## The guards -/

section
variable (U : Unicode) (G : SqlglotAny) (runtime : ExecutionRuntime)

/-- What the three guards let pass; no artifact is the payload `None`. -/
def guardSql (sql : String) (artifactPayload : JsonValue) : Except ExecuteError GuardReport :=
  match check U sql with
  | .error exc => .error (.guard exc)
  | .ok report => match validateNamespaces U G.toSqlglot runtime report.normalizedSql with
    | .error exc => .error (.guard exc)
    | .ok () =>
      if artifactPayload.isNull then .ok report
      else match enforce U G runtime.dialect report.normalizedSql artifactPayload with
        | .ok () => .ok report
        | .error (.artifactGuard violations) =>
          .error (.guard ⟨"Artifact allowlist 위반: " ++ "; ".intercalate violations⟩)
        | .error (.raised exc) => .error (.raised exc)

end

/-! ## The reply -/

/-- `min(max(int(given if given is not None else default), 1), maximum)`. -/
def applied (given : Option ℤ) (default maximum : ℤ) : ℤ := min (max (given.getD default) 1) maximum

/-- What the call has to say when it is over. -/
structure Outcome where
  status : Status := .ok
  error : Option String := none
  columns : List String := []
  rows : List (List Scalar) := []
  truncated : Bool := false

/-- `except Exception`: what was read so far stays. -/
def Outcome.failed (o : Outcome) (exc : Exc) : Outcome :=
  { o with status := .error, error := some (exc.cls ++ ": " ++ exc.text) }

section
variable (repr : JsonValue → String)

/-- `_serialize`: lists and dicts are no date, so they become their text. -/
def serialize : JsonValue → Scalar
  | .scalar s => s
  | v => .str (v.pyStr repr)

/-- The loop over the rows, until a row is one too many or too long. -/
def readRows (maxRows maxBytes : ℤ) : List JsonValue → ℕ → Outcome → Outcome
  | [], _, o => o
  | rawRow :: rest, totalBytes, o =>
    match rawRow.iter with
    | .error exc => o.failed exc
    | .ok values =>
      let serialized := values.map (serialize repr)
      let rowBytes := (dumps serialized).utf8ByteSize
      if maxRows ≤ o.rows.length ∨ maxBytes < totalBytes + rowBytes then { o with truncated := true }
      else readRows maxRows maxBytes rest (totalBytes + rowBytes) { o with rows := o.rows ++ [serialized] }

/-- The error of a reply that is no table. -/
def dbErrorOf (body kind : JsonValue) : Except Exc String := do
  let message ← body.get "error_message"
  let error ← body.get "error"
  let unexpected := "Unexpected MindsDB response type: " ++ kind.pyStr repr
  return ((message.or error).or (.str unexpected)).pyStr repr

/-- The columns and the rows of a table, still to be read. -/
def tableOf (body : JsonValue) : Except Exc (List String × Except Exc (List JsonValue)) := do
  let columnNames ← itemsOf "column_names" body
  return (columnNames.map fun item => item.pyStr repr, itemsOf "data" body)

def readBody (maxRows maxBytes : ℤ) (body : JsonValue) : Outcome :=
  match body.get "type" with
  | .error exc => ({} : Outcome).failed exc
  | .ok kind =>
    if kind.isStr "table" then
      match tableOf repr body with
      | .error exc => ({} : Outcome).failed exc
      | .ok (columns, .error exc) => ({ columns := columns } : Outcome).failed exc
      | .ok (columns, .ok data) => readRows repr maxRows maxBytes data 0 { columns := columns }
    else match dbErrorOf repr body kind with
      | .error exc => ({ status := .dbError } : Outcome).failed exc
      | .ok error => { status := .dbError, error := some error }

def readReply (timeout maxRows maxBytes : ℤ) : Reply → Outcome
  | .timeout => { status := .timeout, error := some ("MindsDB request timeout: " ++ toString timeout ++ "s") }
  | .unsent exc | .raised exc => ({} : Outcome).failed exc
  | .body value => readBody repr maxRows maxBytes value

end

/-! ## A call -/

/-- The arguments of `execute`. -/
structure ExecuteRequest where
  sql : String
  timeoutS : Option ℤ
  maxRows : Option ℤ
  caller : Option String
  artifactPayload : JsonValue

/-- What a call takes from the clock and from `uuid4`. -/
structure Stamp where
  auditId : String
  ts : String
  elapsedMs : String

section
variable (U : Unicode) (G : SqlglotAny) (repr : JsonValue → String) (runtime : MindsdbRuntime)

section
variable (stamp : Stamp) (request : ExecuteRequest) (report : GuardReport) (timeout maxRows : ℤ) (o : Outcome)

def rejectedAudit (exc : GuardError) : RejectedAudit where
  ts := stamp.ts
  auditId := stamp.auditId
  reason := exc.message
  caller := request.caller
  sql := request.sql

def executedAudit : ExecutedAudit where
  ts := stamp.ts
  auditId := stamp.auditId
  status := o.status
  caller := request.caller
  sql := report.normalizedSql
  backend := runtime.backend
  integration := runtime.integration
  timeoutSApplied := timeout
  maxRowsApplied := maxRows
  rowCount := o.rows.length
  truncated := o.truncated
  elapsedMs := stamp.elapsedMs
  error := o.error

def executeResponse : ExecuteResponse where
  auditId := stamp.auditId
  status := o.status
  error := o.error
  sqlExecuted := report.normalizedSql
  columns := o.columns
  rows := o.rows
  rowCount := o.rows.length
  truncated := o.truncated
  elapsedMs := stamp.elapsedMs
  timeoutSApplied := timeout
  maxRowsApplied := maxRows

end

/-- The line of audit of a call that the guards have let pass. -/
def executedLine (reply : Reply) (stamp : Stamp) (request : ExecuteRequest) (report : GuardReport) : AuditRecord :=
  let timeout := applied request.timeoutS runtime.defaultTimeoutSeconds runtime.maximumTimeoutSeconds
  let maxRows := applied request.maxRows runtime.defaultMaxRows runtime.maximumRows
  .executed (executedAudit runtime stamp request report timeout maxRows
    (readReply repr timeout maxRows runtime.maximumResponseBytes reply))

/-- The line of audit is written, and the call ends with `result`, unless the write raises. -/
def World.conclude (w : World) (entry : AuditRecord) (result : Except ExecuteError ExecuteResponse) :
    Except ExecuteError ExecuteResponse × World :=
  match appendAudit w.auditFault w.audit entry with
  | .error exc => (.error (.raised exc), w)
  | .ok audit => (result, { w with audit := audit })

/-- The call behind the guards. -/
def executeGuarded (reply : Reply) (stamp : Stamp) (request : ExecuteRequest) (report : GuardReport) (w : World) :
    Except ExecuteError ExecuteResponse × World :=
  let timeout := applied request.timeoutS runtime.defaultTimeoutSeconds runtime.maximumTimeoutSeconds
  let maxRows := applied request.maxRows runtime.defaultMaxRows runtime.maximumRows
  let o := readReply repr timeout maxRows runtime.maximumResponseBytes reply
  let w := if reply.sent then w.post ⟨runtime.sqlApiUrl, timeout, report.normalizedSql⟩ else w
  w.conclude (executedLine repr runtime reply stamp request report)
    (.ok (executeResponse stamp report timeout maxRows o))

def execute (reply : Reply) (stamp : Stamp) (request : ExecuteRequest) (w : World) :
    Except ExecuteError ExecuteResponse × World :=
  match guardSql U G runtime.toExecutionRuntime request.sql request.artifactPayload with
  | .error (.guard exc) => w.conclude (.rejected (rejectedAudit stamp request exc)) (.error (.guard exc))
  -- no `except` clause but the one of `GuardError`
  | .error (.raised exc) => (.error (.raised exc), w)
  | .ok report => executeGuarded repr runtime reply stamp request report w

/-! ## Audit -/

/-- All guards accept the text that the text guard returns. -/
structure Guarded (request : ExecuteRequest) (report : GuardReport) : Prop where
  checked : check U request.sql = .ok report
  namespaces : validateNamespaces U G.toSqlglot runtime.toExecutionRuntime report.normalizedSql = .ok ()
  artifact : request.artifactPayload.isNull = false →
    enforce U G runtime.dialect report.normalizedSql request.artifactPayload = .ok ()

/-- The line of audit and the response of an executed call agree on what was run. -/
structure Agree (report : GuardReport) (entry : ExecutedAudit) (response : ExecuteResponse) : Prop where
  audited : entry.sql = report.normalizedSql
  returned : response.sqlExecuted = report.normalizedSql
  status : entry.status = response.status
  rowCount : entry.rowCount = response.rowCount
  truncated : entry.truncated = response.truncated

/-- One line of audit for a call, and no request that a guard has not let pass. -/
structure AuditedOnce (request : ExecuteRequest) (w : World)
    (result : Except ExecuteError ExecuteResponse × World) : Prop where
  audited : ∃ entry, result.2.audit = w.audit ++ [entry]
  posted : result.2.posts = w.posts ∨ ∃ report post, Guarded U G runtime request report ∧
    post.query = report.normalizedSql ∧ result.2.posts = w.posts ++ [post]
  refused : (∀ report, ¬ Guarded U G runtime request report) →
    result.2.posts = w.posts ∧ ∃ entry, result.2.audit = w.audit ++ [entry] ∧ entry.status = .rejected
  executed : ∀ report, Guarded U G runtime request report → ∃ entry response,
    result.1 = .ok response ∧ result.2.audit = w.audit ++ [.executed entry] ∧ Agree report entry response ∧
      ∀ post ∈ result.2.posts, post ∈ w.posts ∨ post.query = report.normalizedSql

/-- The artifact guard, if the call comes to it, can digest the text and the payload. -/
def ComesToVerdict (request : ExecuteRequest) : Prop :=
  ∀ report, check U request.sql = .ok report →
    validateNamespaces U G.toSqlglot runtime.toExecutionRuntime report.normalizedSql = .ok () →
      request.artifactPayload.isNull = false →
        Digests U G runtime.dialect report.normalizedSql request.artifactPayload

/-- The audit file takes the line of the call, be it refused or executed. -/
structure LineTaken (reply : Reply) (stamp : Stamp) (request : ExecuteRequest) (fault : AuditRecord → Option Exc) :
    Prop where
  refused : ∀ exc, guardSql U G runtime.toExecutionRuntime request.sql request.artifactPayload = .error (.guard exc) →
    fault (.rejected (rejectedAudit stamp request exc)) = none
  executed : ∀ report, Guarded U G runtime request report →
    fault (executedLine repr runtime reply stamp request report) = none

variable {U G repr runtime} {request : ExecuteRequest}

theorem guardSql_eq_ok {report : GuardReport} :
    guardSql U G runtime.toExecutionRuntime request.sql request.artifactPayload = .ok report ↔
      Guarded U G runtime request report := by
  unfold guardSql
  constructor
  · intro h
    split at h
    · cases h
    · rename_i report' hcheck
      split at h
      · cases h
      · rename_i hnamespaces
        split_ifs at h with hnull
        · cases h
          exact ⟨hcheck, hnamespaces, fun hgiven => absurd hnull (by simp [hgiven])⟩
        · split at h
          · rename_i hartifact
            cases h
            exact ⟨hcheck, hnamespaces, fun _ => hartifact⟩
          · cases h
          · cases h
  · rintro ⟨hcheck, hnamespaces, hartifact⟩
    simp only [hcheck, hnamespaces]
    split_ifs with hnull
    · rfl
    · rw [hartifact (Bool.eq_false_of_not_eq_true hnull)]

theorem comesToVerdict_iff :
    ComesToVerdict U G runtime request ↔ ∀ exc,
      guardSql U G runtime.toExecutionRuntime request.sql request.artifactPayload ≠ .error (.raised exc) := by
  unfold guardSql
  constructor
  · intro h exc hraised
    split at hraised
    · cases hraised
    · rename_i report hcheck
      split at hraised
      · cases hraised
      · rename_i hnamespaces
        split_ifs at hraised with hnull
        split at hraised
        · cases hraised
        · cases hraised
        · rename_i exc' hartifact
          have hverdict := h report hcheck hnamespaces (Bool.eq_false_of_not_eq_true hnull)
          exact digests_iff.1 hverdict exc' hartifact
  · intro h report hcheck hnamespaces hgiven
    refine digests_iff.2 fun exc hartifact => h exc ?_
    simp only [hcheck, hnamespaces, hgiven, hartifact]
    rfl

section
variable {w : World} {entry : AuditRecord} {result : Except ExecuteError ExecuteResponse}

theorem World.conclude_of_taken (h : w.auditFault entry = none) :
    w.conclude entry result = (result, { w with audit := w.audit ++ [entry] }) := by
  rw [conclude, appendAudit, h]

theorem World.conclude_of_fault {exc : Exc} (h : w.auditFault entry = some exc) :
    w.conclude entry result = (.error (.raised exc), w) := by
  rw [conclude, appendAudit, h]

theorem World.eq_of_conclude {r : ExecuteResponse} (h : (w.conclude entry result).1 = .ok r) : result = .ok r := by
  cases hfault : w.auditFault entry with
  | none => rwa [conclude_of_taken hfault] at h
  | some exc => rw [conclude_of_fault hfault] at h; cases h

theorem World.conclude_posts : (w.conclude entry result).2.posts = w.posts := by
  cases h : w.auditFault entry with
  | none => rw [conclude_of_taken h]
  | some exc => rw [conclude_of_fault h]

theorem World.conclude_auditFault : (w.conclude entry result).2.auditFault = w.auditFault := by
  cases h : w.auditFault entry with
  | none => rw [conclude_of_taken h]
  | some exc => rw [conclude_of_fault h]

end

section
variable (repr runtime request)

/-- What the call behind the guards comes to: the request, if it is sent, and the line of audit. -/
theorem executeGuarded_eq (reply : Reply) (stamp : Stamp) (report : GuardReport) (w : World) :
    ∃ (w' : World) (response : ExecuteResponse) (entry : ExecutedAudit),
      executeGuarded repr runtime reply stamp request report w =
        w'.conclude (executedLine repr runtime reply stamp request report) (.ok response) ∧
      executedLine repr runtime reply stamp request report = .executed entry ∧ Agree report entry response ∧
      w'.audit = w.audit ∧ w'.auditFault = w.auditFault ∧
      (w'.posts = w.posts ∨ ∃ post : Post, post.query = report.normalizedSql ∧ w'.posts = w.posts ++ [post]) := by
  refine ⟨_, _, _, rfl, rfl, ⟨rfl, rfl, rfl, rfl, rfl⟩, ?_⟩
  by_cases hsent : reply.sent = true
  · rw [if_pos hsent]
    exact ⟨rfl, rfl, Or.inr ⟨_, rfl, rfl⟩⟩
  · rw [if_neg hsent]
    exact ⟨rfl, rfl, Or.inl rfl⟩

end

theorem post_of_mem {w : World} {posts : List Post} {query : String}
    (h : posts = w.posts ∨ ∃ post : Post, post.query = query ∧ posts = w.posts ++ [post]) :
    ∀ post ∈ posts, post ∈ w.posts ∨ post.query = query := by
  rintro post hpost
  rcases h with rfl | ⟨post', hquery, rfl⟩
  · exact Or.inl hpost
  · rcases List.mem_append.1 hpost with hpost | hpost
    · exact Or.inl hpost
    · rw [List.mem_singleton.1 hpost]
      exact Or.inr hquery

section
variable (repr)

/-- An executed call is audited once, if its line is taken. -/
theorem auditedOnce_guarded {reply : Reply} {stamp : Stamp} {report : GuardReport} {w : World}
    (h : Guarded U G runtime request report)
    (htaken : w.auditFault (executedLine repr runtime reply stamp request report) = none) :
    AuditedOnce U G runtime request w (execute U G repr runtime reply stamp request w) := by
  obtain ⟨w', response, entry, hrun, hline, hagree, haudit, hfault, hposts⟩ :=
    executeGuarded_eq repr runtime request reply stamp report w
  rw [← hfault] at htaken
  rw [World.conclude_of_taken htaken, haudit, hline] at hrun
  have hrun : execute U G repr runtime reply stamp request w =
      (.ok response, { w' with audit := w.audit ++ [.executed entry] }) := by
    rw [execute, guardSql_eq_ok.2 h]
    exact hrun
  rw [hrun]
  refine ⟨⟨_, rfl⟩, ?_, fun hnone => absurd h (hnone report), fun report' h' => ?_⟩
  · rcases hposts with hposts | ⟨post, hquery, hposts⟩
    · exact Or.inl hposts
    · exact Or.inr ⟨report, post, h, hquery, hposts⟩
  · cases h.checked.symm.trans h'.checked
    exact ⟨entry, _, rfl, rfl, hagree, post_of_mem hposts⟩

/-- A refused call is audited once, if its line is taken. -/
theorem auditedOnce_refused {reply : Reply} {stamp : Stamp} {exc : GuardError} {w : World}
    (h : guardSql U G runtime.toExecutionRuntime request.sql request.artifactPayload = .error (.guard exc))
    (htaken : w.auditFault (.rejected (rejectedAudit stamp request exc)) = none) :
    AuditedOnce U G runtime request w (execute U G repr runtime reply stamp request w) := by
  have hnone : ∀ report, ¬ Guarded U G runtime request report := fun report hguarded => by
    rw [guardSql_eq_ok.2 hguarded] at h
    cases h
  have hrun : execute U G repr runtime reply stamp request w = (.error (.guard exc),
      { w with audit := w.audit ++ [.rejected (rejectedAudit stamp request exc)] }) := by
    rw [execute, h]
    exact World.conclude_of_taken htaken
  rw [hrun]
  exact ⟨⟨_, rfl⟩, Or.inl rfl, fun _ => ⟨rfl, _, rfl, rfl⟩, fun report hguarded => absurd hguarded (hnone report)⟩

theorem auditedOnce_of_comesToVerdict {reply : Reply} {stamp : Stamp} {w : World}
    (h : ComesToVerdict U G runtime request) (htaken : LineTaken U G repr runtime reply stamp request w.auditFault) :
    AuditedOnce U G runtime request w (execute U G repr runtime reply stamp request w) := by
  cases hguard : guardSql U G runtime.toExecutionRuntime request.sql request.artifactPayload with
  | ok report =>
    have hguarded := guardSql_eq_ok.1 hguard
    exact auditedOnce_guarded repr hguarded (htaken.executed report hguarded)
  | error e =>
    cases e with
    | guard exc => exact auditedOnce_refused repr hguard (htaken.refused exc hguard)
    | raised exc => exact absurd hguard (comesToVerdict_iff.1 h exc)

end

/-- A call whose line is written has had it taken. -/
theorem lineTaken_of_audited {reply : Reply} {stamp : Stamp} {w : World} {entry : AuditRecord}
    (h : (execute U G repr runtime reply stamp request w).2.audit = w.audit ++ [entry]) :
    LineTaken U G repr runtime reply stamp request w.auditFault where
  refused exc hguard := by
    rw [execute, hguard] at h
    by_contra hfault
    obtain ⟨exc', hfault⟩ := Option.ne_none_iff_exists'.1 hfault
    simp only [World.conclude_of_fault hfault] at h
    simp at h
  executed report hguarded := by
    obtain ⟨w', response, _, hrun, -, -, haudit, hfault, -⟩ :=
      executeGuarded_eq repr runtime request reply stamp report w
    rw [execute, guardSql_eq_ok.2 hguarded] at h
    simp only [hrun] at h
    rw [← hfault]
    by_contra hraises
    obtain ⟨exc, hraises⟩ := Option.ne_none_iff_exists'.1 hraises
    rw [World.conclude_of_fault hraises, haudit] at h
    simp at h

/-- **Exactly one line of audit.**  A call is audited once iff the artifact guard comes to a verdict, and the audit
file takes the line. -/
theorem auditedOnce_iff {reply : Reply} {stamp : Stamp} {w : World} :
    AuditedOnce U G runtime request w (execute U G repr runtime reply stamp request w) ↔
      ComesToVerdict U G runtime request ∧ LineTaken U G repr runtime reply stamp request w.auditFault := by
  refine ⟨fun h => ⟨comesToVerdict_iff.2 fun exc hraised => ?_, ?_⟩,
    fun h => auditedOnce_of_comesToVerdict repr h.1 h.2⟩
  · obtain ⟨entry, hentry⟩ := h.audited
    rw [execute, hraised] at hentry
    simp at hentry
  · obtain ⟨entry, hentry⟩ := h.audited
    exact lineTaken_of_audited hentry

end

/-! ## Runs of calls -/

structure ExecuteCall where
  request : ExecuteRequest
  reply : Reply
  stamp : Stamp

section
variable (U : Unicode) (G : SqlglotAny) (repr : JsonValue → String) (runtime : MindsdbRuntime)

/-- The effects of calls, one after the other. -/
def executeAll (calls : List ExecuteCall) (w : World) : World :=
  calls.foldl (fun w call => (execute U G repr runtime call.reply call.stamp call.request w).2) w

variable {U G repr runtime}

theorem execute_posts (reply : Reply) (stamp : Stamp) (request : ExecuteRequest) (w : World) :
    ∀ post ∈ (execute U G repr runtime reply stamp request w).2.posts, post ∈ w.posts ∨
      ∃ report, Guarded U G runtime request report ∧ post.query = report.normalizedSql := by
  intro post hpost
  rw [execute] at hpost
  cases hguard : guardSql U G runtime.toExecutionRuntime request.sql request.artifactPayload with
  | error e =>
    rw [hguard] at hpost
    cases e with
    | guard exc => exact Or.inl (World.conclude_posts ▸ hpost)
    | raised exc => exact Or.inl hpost
  | ok report =>
    rw [hguard] at hpost
    obtain ⟨w', _, _, hrun, -, -, -, -, hposts⟩ := executeGuarded_eq repr runtime request reply stamp report w
    simp only [hrun, World.conclude_posts] at hpost
    exact (post_of_mem hposts post hpost).imp_right fun hquery => ⟨report, guardSql_eq_ok.1 hguard, hquery⟩

theorem execute_auditFault (reply : Reply) (stamp : Stamp) (request : ExecuteRequest) (w : World) :
    (execute U G repr runtime reply stamp request w).2.auditFault = w.auditFault := by
  rw [execute]
  cases guardSql U G runtime.toExecutionRuntime request.sql request.artifactPayload with
  | error e =>
    cases e with
    | guard exc => exact World.conclude_auditFault
    | raised exc => rfl
  | ok report =>
    obtain ⟨w', _, _, hrun, -, -, -, hfault, -⟩ := executeGuarded_eq repr runtime request reply stamp report w
    simp only [hrun, World.conclude_auditFault, hfault]

/-- Whatever is sent in a run has passed the guards of its call. -/
theorem executeAll_posts (calls : List ExecuteCall) (w : World) :
    ∀ post ∈ (executeAll U G repr runtime calls w).posts, post ∈ w.posts ∨
      ∃ call ∈ calls, ∃ report, Guarded U G runtime call.request report ∧ post.query = report.normalizedSql := by
  induction calls generalizing w with
  | nil => exact fun post hpost => Or.inl hpost
  | cons call calls ih =>
    intro post hpost
    rcases ih _ post hpost with hpost | ⟨call', hcall, hguarded⟩
    · refine (execute_posts call.reply call.stamp call.request w post hpost).imp_right ?_
      exact fun hguarded => ⟨call, List.mem_cons_self, hguarded⟩
    · exact Or.inr ⟨call', List.mem_cons_of_mem call hcall, hguarded⟩

/-- A run has as many lines of audit as calls, if all of them come to a verdict and all lines are taken. -/
theorem executeAll_audit {calls : List ExecuteCall} {w : World}
    (h : ∀ call ∈ calls, ComesToVerdict U G runtime call.request ∧
      LineTaken U G repr runtime call.reply call.stamp call.request w.auditFault) :
    ∃ entries : List AuditRecord, entries.length = calls.length ∧
      (executeAll U G repr runtime calls w).audit = w.audit ++ entries := by
  induction calls generalizing w with
  | nil => exact ⟨[], rfl, (List.append_nil _).symm⟩
  | cons call calls ih =>
    obtain ⟨hverdict, htaken⟩ := h call List.mem_cons_self
    obtain ⟨entry, hentry⟩ := (auditedOnce_of_comesToVerdict repr hverdict htaken).audited
    have hrest : ∀ c ∈ calls, ComesToVerdict U G runtime c.request ∧
        LineTaken U G repr runtime c.reply c.stamp c.request
          (execute U G repr runtime call.reply call.stamp call.request w).2.auditFault := fun c hc => by
      rw [execute_auditFault]
      exact h c (List.mem_cons_of_mem call hc)
    obtain ⟨entries, hlength, hentries⟩ := ih hrest
    refine ⟨entry :: entries, by simp [hlength], ?_⟩
    rw [List.append_cons, ← hentry]
    exact hentries

end

/-! ## A mandatory filter without a text -/

def selectOne : String × Expression :=
  ("SELECT 1", .mk .root .select [.mk .expressions (.other "Literal")])

/-- `sqlglot` on that text; what is no string has no length. -/
def selectOneGlot : SqlglotAny where
  toSqlglot := .ofTexts [selectOne]
  parseOther _ v := .error ⟨"TypeError", "object of type '" ++ v.typeName ++ "' has no len()"⟩

def blankFilter : JsonValue :=
  .obj [("bindings", .arr [.obj [("binding_type", .str "FILTER"),
    ("spec", .obj [("filter_is_mandatory", .bool true)])]])]

/-- The settings of the container image. -/
def dockerRuntime : MindsdbRuntime where
  dialect := "mysql"
  allowedCatalogs := ["rwis_part1_pg"]
  allowedSchemas := ["rwis"]
  backend := "mindsdb"
  sqlApiUrl := "http://host.docker.internal:47334/api/sql/query"
  integration := "rwis_part1_pg"
  defaultTimeoutSeconds := 10
  maximumTimeoutSeconds := 30
  defaultMaxRows := 1000
  maximumRows := 10000
  maximumResponseBytes := 10485760

/-- The `KeyError` of the filter leaves no line of audit. -/
theorem not_forall_auditedOnce :
    ¬ ∀ (U : Unicode) (G : SqlglotAny) (repr : JsonValue → String) (runtime : MindsdbRuntime) (reply : Reply)
      (stamp : Stamp) (request : ExecuteRequest) (w : World),
      AuditedOnce U G runtime request w (execute U G repr runtime reply stamp request w) := by
  intro h
  obtain ⟨entry, hentry⟩ := (h .ascii selectOneGlot (fun _ => "") dockerRuntime .timeout ⟨"", "", ""⟩
    ⟨"SELECT 1", none, none, none, blankFilter⟩ { audit := [], posts := [] }).audited
  have hnone : (execute .ascii selectOneGlot (fun _ => "") dockerRuntime .timeout ⟨"", "", ""⟩
    ⟨"SELECT 1", none, none, none, blankFilter⟩ { audit := [], posts := [] }).2.audit.length = 0 := by decide +kernel
  rw [hentry] at hnone
  cases hnone

end RoboMeta
