/-
  The caps on a result, in both runners.

  The source runner fetches in batches and breaks out of two loops, the MindsDB
  runner has one loop over a list.  Both keep a row as long as it fits behind
  those that are kept.

  * `readBatch_eq`, `fetchRows_eq`, `readRows_eq`: the loops take the rows that
    fit;
  * `Capped`: a response has the longest initial part of the rows within the
    caps;
  * `caps_exact`: both runners answer so, and agree.
-/
import RoboMeta.QueryRunnerSource
import RoboMeta.Lib.Fitting
import RoboMeta.Lib.Outcome

namespace RoboMeta

/-- The size of a row, encoded. -/
def rowBytes (row : List Scalar) : ℕ := (dumps row).utf8ByteSize

/-- Rows within the caps of a runner. -/
abbrev RowsFit (maxRows maxBytes : ℤ) : List (List Scalar) → Prop := WithinCaps rowBytes maxRows maxBytes

section
variable {maxRows maxBytes : ℤ} {kept : List (List Scalar)}

/-- The test of both loops. -/
theorem over_iff {row : List Scalar} : (maxRows ≤ kept.length ∨ maxBytes < (kept.map rowBytes).sum + rowBytes row) ↔
    ¬ RowsFit maxRows maxBytes (kept ++ [row]) := by
  rw [RowsFit, withinCaps_concat, not_and_or, not_lt, not_le]

theorem takeFitting_cons_of_over {row : List Scalar} {rest : List (List Scalar)}
    (h : maxRows ≤ kept.length ∨ maxBytes < (kept.map rowBytes).sum + rowBytes row) :
    takeFitting (RowsFit maxRows maxBytes) kept (row :: rest) = (kept, true) := by
  rw [takeFitting, if_neg (over_iff.1 h)]

theorem takeFitting_cons_of_not_over {row : List Scalar} {rest : List (List Scalar)}
    (h : ¬ (maxRows ≤ kept.length ∨ maxBytes < (kept.map rowBytes).sum + rowBytes row)) :
    takeFitting (RowsFit maxRows maxBytes) kept (row :: rest) =
      takeFitting (RowsFit maxRows maxBytes) (kept ++ [row]) rest := by
  rw [takeFitting, if_pos (not_not.1 (mt over_iff.2 h))]

end

/-! ## The source runner -/

namespace Source

/-- The rows that are fetched, with their size, and whether one has been left out. -/
def Fetched.of (taken : List (List Scalar) × Bool) : Fetched where
  rows := taken.1
  totalBytes := (taken.1.map rowBytes).sum
  truncated := taken.2

variable {maxRows maxBytes : ℤ} {kept serialised : List (List Scalar)}

theorem readBatch_eq {batch : List (List Value)} (h : batch.mapM (fun r => r.mapM serialize) = .ok serialised) :
    readBatch maxRows maxBytes batch (.of (kept, false)) =
      (.of (takeFitting (RowsFit maxRows maxBytes) kept serialised), none) := by
  induction batch generalizing kept serialised with
  | nil =>
    cases h
    rfl
  | cons r batch ih =>
    rw [List.mapM_cons, Except.bind_eq_ok] at h
    obtain ⟨serial, hserial, h⟩ := h
    obtain ⟨rest, hrest, h⟩ := Except.bind_eq_ok.1 h
    cases h
    rw [readBatch, hserial]
    by_cases hover : maxRows ≤ kept.length ∨ maxBytes < (kept.map rowBytes).sum + rowBytes serial
    · rw [takeFitting_cons_of_over hover]
      exact if_pos hover
    · rw [takeFitting_cons_of_not_over hover, ← ih hrest]
      refine (if_neg hover).trans (congrArg (readBatch maxRows maxBytes batch) ?_)
      simp [Fetched.of, rowBytes]

/-- A row from the cursor, serialised. -/
def serializeRow (row : Except Failure (List Value)) : Except Failure (List Scalar) := row >>= fun r => r.mapM serialize

theorem fetchRows_of_empty {cursor : Cursor} {f : Fetched} (h : fetchmany 200 cursor = .ok []) :
    fetchRows maxRows maxBytes cursor f = (f, none) := by
  rw [fetchRows]
  split <;> simp_all

theorem fetchRows_of_batch {cursor : Cursor} {f : Fetched} {r : List Value} {batch : List (List Value)}
    (h : fetchmany 200 cursor = .ok (r :: batch)) :
    fetchRows maxRows maxBytes cursor f =
      if (readBatch maxRows maxBytes (r :: batch) f).2.isSome ∨ (readBatch maxRows maxBytes (r :: batch) f).1.truncated
      then readBatch maxRows maxBytes (r :: batch) f
      else fetchRows maxRows maxBytes (cursor.drop 200) (readBatch maxRows maxBytes (r :: batch) f).1 := by
  rw [fetchRows]
  split <;> simp_all

/-- A batch and what is behind it. -/
theorem exists_batch {cursor : Cursor} (h : cursor.mapM serializeRow = .ok serialised) (size : ℕ) :
    ∃ batch first rest, fetchmany size cursor = .ok batch ∧ batch.mapM (fun r => r.mapM serialize) = .ok first ∧
      (cursor.drop size).mapM serializeRow = .ok rest ∧ serialised = first ++ rest := by
  rw [← List.take_append_drop size cursor, List.mapM_append, Except.bind_eq_ok] at h
  obtain ⟨first, hfirst, h⟩ := h
  obtain ⟨rest, hrest, h⟩ := Except.bind_eq_ok.1 h
  obtain ⟨batch, hbatch, hfirst⟩ := (Except.mapM_bind_eq_ok (f := id)).1 hfirst
  exact ⟨batch, first, rest, hbatch, hfirst, hrest, (Except.ok.inj h).symm⟩

/-- The batches make no difference. -/
theorem fetchRows_eq {cursor : Cursor} (h : cursor.mapM serializeRow = .ok serialised) :
    fetchRows maxRows maxBytes cursor (.of (kept, false)) =
      (.of (takeFitting (RowsFit maxRows maxBytes) kept serialised), none) := by
  -- on the number of rows that are still to be fetched
  induction hlength : cursor.length using Nat.strong_induction_on generalizing cursor kept serialised with
  | _ n ih =>
    obtain ⟨batch, first, rest, hbatch, hfirst, hrest, rfl⟩ := exists_batch h 200
    have hread : readBatch maxRows maxBytes batch (.of (kept, false)) =
        (.of (takeFitting (RowsFit maxRows maxBytes) kept first), none) := readBatch_eq hfirst
    cases batch with
    | nil =>
      have htake : cursor.take 200 = [] := List.eq_nil_of_length_eq_zero (Except.length_of_mapM_eq_ok hbatch)
      have hcursor : cursor = [] := (List.take_eq_nil_iff.1 htake).resolve_left (by decide)
      rw [hcursor] at h
      rw [fetchRows_of_empty hbatch, ← Except.ok.inj h]
      rfl
    | cons r batch =>
      have hshort : (cursor.drop 200).length < n := by
        have htake : (cursor.take 200).length = (r :: batch).length := Except.length_of_mapM_eq_ok hbatch
        simp only [List.length_take, List.length_drop, List.length_cons] at htake ⊢
        omega
      rw [fetchRows_of_batch hbatch, hread, takeFitting_append]
      obtain ⟨kept', cut⟩ := takeFitting (RowsFit maxRows maxBytes) kept first
      cases cut with
      | true => exact if_pos (Or.inr rfl)
      | false =>
        refine (if_neg ?_).trans (ih _ hshort hrest rfl)
        simp [Fetched.of]

theorem readSession_eq {columns : List String} {cursor : Cursor} (h : cursor.mapM serializeRow = .ok serialised)
    (timeout : ℤ) : readSession maxRows maxBytes timeout (.executed (some columns) cursor none) = {
      columns := columns
      rows := (takeFitting (RowsFit maxRows maxBytes) [] serialised).1
      truncated := (takeFitting (RowsFit maxRows maxBytes) [] serialised).2 } := by
  have hfetch : fetchRows maxRows maxBytes cursor {} =
      (.of (takeFitting (RowsFit maxRows maxBytes) [] serialised), none) := fetchRows_eq h
  simp only [readSession, Option.elim, hfetch]
  rfl

end Source

/-! ## The MindsDB runner -/

section
variable {repr : JsonValue → String} {maxRows maxBytes : ℤ} {serialised : List (List Scalar)}

/-- A row of the reply, serialised. -/
def serializeRow (repr : JsonValue → String) (rawRow : JsonValue) : Except Exc (List Scalar) := do
  let values ← rawRow.iter
  return values.map (serialize repr)

theorem readRows_eq {data : List JsonValue} (h : data.mapM (serializeRow repr) = .ok serialised) {o : Outcome}
    (ho : o.truncated = false) :
    readRows repr maxRows maxBytes data (o.rows.map rowBytes).sum o =
      { o with
        rows := (takeFitting (RowsFit maxRows maxBytes) o.rows serialised).1
        truncated := (takeFitting (RowsFit maxRows maxBytes) o.rows serialised).2 } := by
  induction data generalizing o serialised with
  | nil =>
    rw [← Except.ok.inj h, readRows]
    show o = { o with truncated := false }
    rw [← ho]
  | cons rawRow data ih =>
    rw [List.mapM_cons, Except.bind_eq_ok] at h
    obtain ⟨row, hrow, h⟩ := h
    obtain ⟨rest, hrest, h⟩ := Except.bind_eq_ok.1 h
    cases h
    obtain ⟨values, hvalues, hrow⟩ := Except.bind_eq_ok.1 hrow
    cases hrow
    rw [readRows, hvalues]
    by_cases hover : maxRows ≤ o.rows.length ∨
        maxBytes < (o.rows.map rowBytes).sum + rowBytes (values.map (serialize repr))
    · rw [takeFitting_cons_of_over hover]
      exact if_pos hover
    · rw [takeFitting_cons_of_not_over hover]
      refine (if_neg hover).trans ?_
      have hnext := ih hrest (o := { o with rows := o.rows ++ [values.map (serialize repr)] }) ho
      simpa [rowBytes] using hnext

theorem readBody_eq {body kind : JsonValue} {columns : List String} {data : List JsonValue}
    (hkind : body.get "type" = .ok kind) (htable : kind.isStr "table" = true)
    (hdata : tableOf repr body = .ok (columns, .ok data)) (h : data.mapM (serializeRow repr) = .ok serialised) :
    readBody repr maxRows maxBytes body = {
      columns := columns
      rows := (takeFitting (RowsFit maxRows maxBytes) [] serialised).1
      truncated := (takeFitting (RowsFit maxRows maxBytes) [] serialised).2 } := by
  rw [readBody, hkind]
  simp only [htable, if_true, hdata]
  exact readRows_eq (o := { columns := columns }) h rfl

end

/-! ## Responses -/

/-- No error, and the longest initial part of the rows within the caps. -/
structure ExecuteResponse.Capped (maxBytes : ℤ) (serialised : List (List Scalar)) (response : ExecuteResponse) :
    Prop where
  status : response.status = .ok
  rowCount : response.rowCount = response.rows.length
  rows : LongestFit (RowsFit response.maxRowsApplied maxBytes) serialised response.rows response.truncated

theorem ExecuteResponse.Capped.of_taken {maxBytes : ℤ} {serialised : List (List Scalar)} {response : ExecuteResponse}
    (hstatus : response.status = .ok) (hcount : response.rowCount = response.rows.length)
    (hrows : response.rows = (takeFitting (RowsFit response.maxRowsApplied maxBytes) [] serialised).1)
    (htruncated : response.truncated = (takeFitting (RowsFit response.maxRowsApplied maxBytes) [] serialised).2) :
    response.Capped maxBytes serialised := by
  refine ⟨hstatus, hcount, ?_⟩
  rw [hrows, htruncated]
  exact longestFit_takeFitting WithinCaps.initial (Or.inl rfl) serialised

/-- Under caps that are not negative, no other list within them is longer. -/
theorem ExecuteResponse.Capped.longest {maxBytes : ℤ} {serialised : List (List Scalar)} {response : ExecuteResponse}
    (h : response.Capped maxBytes serialised) (hrows : 0 ≤ response.maxRowsApplied) (hbytes : 0 ≤ maxBytes) :
    ((response.rows.length : ℤ) ≤ response.maxRowsApplied ∧ ((response.rows.map rowBytes).sum : ℤ) ≤ maxBytes) ∧
      ∀ rows, rows <+: serialised → (rows.length : ℤ) ≤ response.maxRowsApplied →
        ((rows.map rowBytes).sum : ℤ) ≤ maxBytes → rows.length ≤ response.rows.length := by
  refine ⟨(withinCaps_iff hrows hbytes).1 h.rows.fits, fun rows hinitial hlength htotal => ?_⟩
  exact h.rows.longest rows hinitial ((withinCaps_iff hrows hbytes).2 ⟨hlength, htotal⟩)

/-- The session of a call runs through, and these are its rows. -/
def Source.Runs (U : Unicode) (settings : Source.Settings) (db : List String → Source.Session)
    (request : Source.Request) (serialised : List (List Scalar)) : Prop :=
  ∃ report columns cursor, check U request.sql = .ok report ∧
    db (Source.statements settings (Source.appliedTimeout settings request) report.normalizedSql) =
      .executed (some columns) cursor none ∧ cursor.mapM Source.serializeRow = .ok serialised

/-- The reply to a call is a table, and these are its rows. -/
def RepliesWith (U : Unicode) (G : SqlglotAny) (repr : JsonValue → String) (runtime : MindsdbRuntime) (reply : Reply)
    (request : ExecuteRequest) (serialised : List (List Scalar)) : Prop :=
  ∃ report body kind columns data,
    guardSql U G runtime.toExecutionRuntime request.sql request.artifactPayload = .ok report ∧ reply = .body body ∧
      body.get "type" = .ok kind ∧ kind.isStr "table" = true ∧ tableOf repr body = .ok (columns, .ok data) ∧
        data.mapM (serializeRow repr) = .ok serialised

section
variable {U : Unicode} {G : SqlglotAny} {repr : JsonValue → String} {serialised : List (List Scalar)}

/-- The line of audit of the call is written. -/
def Source.LineTaken (U : Unicode) (settings : Source.Settings) (db : List String → Source.Session) (stamp : Stamp)
    (request : Source.Request) (fault : Source.AuditRecord → Option Exc) : Prop :=
  ∀ report, check U request.sql = .ok report → fault (Source.executedLine settings db stamp request report) = none

theorem Source.Runs.capped {settings : Source.Settings} {db : List String → Source.Session} {request : Source.Request}
    (h : Source.Runs U settings db request serialised) (stamp : Stamp) (fault : Source.AuditRecord → Option Exc)
    (audit : List Source.AuditRecord) :
    ∃ response, (Source.LineTaken U settings db stamp request fault →
        (Source.execute U settings db stamp request fault audit).1 = .ok response) ∧
      (∀ r, (Source.execute U settings db stamp request fault audit).1 = .ok r → r = response) ∧
        response.maxRowsApplied = Source.appliedRows settings request ∧
          response.Capped settings.execMaxBytes serialised := by
  obtain ⟨report, columns, cursor, hcheck, hsession, hrows⟩ := h
  rw [Source.execute, hcheck]
  refine ⟨executeResponse stamp report (Source.appliedTimeout settings request) (Source.appliedRows settings request)
    (Source.sessionOutcome settings db request report), fun htaken => ?_, fun r hr => ?_, rfl, ?_⟩
  · simp only [Source.conclude, appendAudit, htaken report hcheck]
  · simp only [Source.conclude, appendAudit] at hr
    cases hfault : fault (Source.executedLine settings db stamp request report) with
    | none => rw [hfault] at hr; exact (Except.ok.inj hr).symm
    | some exc => rw [hfault] at hr; cases hr
  · rw [Source.sessionOutcome, hsession, Source.readSession_eq hrows]
    exact .of_taken rfl rfl rfl rfl

theorem RepliesWith.capped {runtime : MindsdbRuntime} {reply : Reply} {request : ExecuteRequest}
    (h : RepliesWith U G repr runtime reply request serialised) (stamp : Stamp) (w : World) :
    ∃ response, (LineTaken U G repr runtime reply stamp request w.auditFault →
        (execute U G repr runtime reply stamp request w).1 = .ok response) ∧
      (∀ r, (execute U G repr runtime reply stamp request w).1 = .ok r → r = response) ∧
        response.maxRowsApplied = applied request.maxRows runtime.defaultMaxRows runtime.maximumRows ∧
          response.Capped runtime.maximumResponseBytes serialised := by
  obtain ⟨report, body, kind, columns, data, hguard, rfl, hkind, htable, hdata, hrows⟩ := h
  rw [execute, hguard]
  refine ⟨_, fun htaken => ?_, fun r hr => (Except.ok.inj (World.eq_of_conclude hr)).symm, rfl, ?_⟩
  · have htaken : (w.post ⟨runtime.sqlApiUrl, applied request.timeoutS runtime.defaultTimeoutSeconds
        runtime.maximumTimeoutSeconds, report.normalizedSql⟩).auditFault
          (executedLine repr runtime (.body body) stamp request report) = none :=
      htaken.executed report (guardSql_eq_ok.1 hguard)
    exact congrArg Prod.fst (World.conclude_of_taken htaken)
  · simp only [readReply, readBody_eq hkind htable hdata hrows]
    exact .of_taken rfl rfl rfl rfl

/-- **The caps are exact.**  Without an error each runner returns the longest initial part of the rows within its caps
and says whether it left any out; so they agree under the same caps. -/
theorem caps_exact {settings : Source.Settings} {db : List String → Source.Session} {sourceRequest : Source.Request}
    {runtime : MindsdbRuntime} {reply : Reply} {request : ExecuteRequest} (sourceStamp stamp : Stamp)
    (fault : Source.AuditRecord → Option Exc) (audit : List Source.AuditRecord) (w : World) :
    (Source.Runs U settings db sourceRequest serialised →
      Source.LineTaken U settings db sourceStamp sourceRequest fault →
      ∃ response, (Source.execute U settings db sourceStamp sourceRequest fault audit).1 = .ok response ∧
        response.Capped settings.execMaxBytes serialised) ∧
    (RepliesWith U G repr runtime reply request serialised →
      LineTaken U G repr runtime reply stamp request w.auditFault →
      ∃ response, (execute U G repr runtime reply stamp request w).1 = .ok response ∧
        response.Capped runtime.maximumResponseBytes serialised) ∧
    (Source.Runs U settings db sourceRequest serialised → RepliesWith U G repr runtime reply request serialised →
      Source.appliedRows settings sourceRequest =
        applied request.maxRows runtime.defaultMaxRows runtime.maximumRows →
      settings.execMaxBytes = runtime.maximumResponseBytes →
      ∀ response response', (Source.execute U settings db sourceStamp sourceRequest fault audit).1 = .ok response →
        (execute U G repr runtime reply stamp request w).1 = .ok response' →
          response.rows = response'.rows ∧ response.truncated = response'.truncated) := by
  refine ⟨fun hsource htaken => ?_, fun hreply htaken => ?_,
    fun hsource hreply hrows hbytes response response' h h' => ?_⟩
  · obtain ⟨response, hresponse, -, -, hcapped⟩ := hsource.capped sourceStamp fault audit
    exact ⟨response, hresponse htaken, hcapped⟩
  · obtain ⟨response, hresponse, -, -, hcapped⟩ := hreply.capped stamp w
    exact ⟨response, hresponse htaken, hcapped⟩
  · obtain ⟨r, -, hr, happlied, hcapped⟩ := hsource.capped sourceStamp fault audit
    obtain ⟨r', -, hr', happlied', hcapped'⟩ := hreply.capped stamp w
    obtain rfl := hr _ h
    obtain rfl := hr' _ h'
    have hlongest := hcapped'.rows
    rw [happlied', ← hrows, ← happlied, ← hbytes] at hlongest
    exact hcapped.rows.unique hlongest

end

/-! ### Three rows under the cap 2 -/

def threeRows : List (List Scalar) := [[.int 1], [.int 2], [.int 3]]

/-- The settings where the environment says nothing. -/
def defaultSettings : Source.Settings where
  execDefaultTimeoutS := 10
  execMaxTimeoutS := 30
  execDefaultMaxRows := 1000
  execMaxRowsHard := 10000
  execMaxBytes := 10485760
  sourcePgSchema := "RWIS"

def threeRowsSession : Source.Session :=
  .executed (some ["n"]) [.ok [.scalar (.int 1)], .ok [.scalar (.int 2)], .ok [.scalar (.int 3)]] none

def threeRowsBody : JsonValue :=
  .obj [("type", .str "table"), ("column_names", .arr [.str "n"]),
    ("data", .arr [.arr [.scalar (.int 1)], .arr [.scalar (.int 2)], .arr [.scalar (.int 3)]])]

def threeRowsRequest : ExecuteRequest := ⟨"SELECT 1", none, some 2, none, .null⟩

theorem runs_threeRows :
    Source.Runs .ascii defaultSettings (fun _ => threeRowsSession) ⟨"SELECT 1", none, some 2, none⟩ threeRows :=
  ⟨⟨"SELECT 1", "SELECT", 1⟩, _, _, by decide +kernel, rfl, rfl⟩

theorem repliesWith_threeRows :
    RepliesWith .ascii selectOneGlot (fun _ => "") dockerRuntime (.body threeRowsBody) threeRowsRequest threeRows := by
  have hguarded : Guarded .ascii selectOneGlot dockerRuntime threeRowsRequest ⟨"SELECT 1", "SELECT", 1⟩ :=
    ⟨by decide +kernel, by decide +kernel, fun h => by cases h⟩
  exact ⟨_, threeRowsBody, .str "table", _, _, guardSql_eq_ok.2 hguarded, rfl, rfl, rfl, rfl, rfl⟩

/-- The answer of the source runner. -/
def sourceThreeRows : Except ExecuteError ExecuteResponse :=
  (Source.execute .ascii defaultSettings (fun _ => threeRowsSession) ⟨"", "", ""⟩ ⟨"SELECT 1", none, some 2, none⟩
    (fun _ => none) []).1

/-- The answer of the MindsDB runner. -/
def mindsdbThreeRows : Except ExecuteError ExecuteResponse :=
  (execute .ascii selectOneGlot (fun _ => "") dockerRuntime (.body threeRowsBody) ⟨"", "", ""⟩ threeRowsRequest
    { audit := [], posts := [] }).1

/-- Both runners leave out the third row, or neither does. -/
theorem caps_exact_threeRows :
    (∃ response, sourceThreeRows = .ok response ∧ response.Capped 10485760 threeRows) ∧
    (∃ response, mindsdbThreeRows = .ok response ∧ response.Capped 10485760 threeRows) ∧
    ∀ response response', sourceThreeRows = .ok response → mindsdbThreeRows = .ok response' →
      response.rows = response'.rows ∧ response.truncated = response'.truncated := by
  obtain ⟨hsource, hmindsdb, hagree⟩ :=
    caps_exact (U := .ascii) (G := selectOneGlot) ⟨"", "", ""⟩ ⟨"", "", ""⟩ (fun _ => none) []
      { audit := [], posts := [] }
  exact ⟨hsource runs_threeRows fun _ _ => rfl, hmindsdb repliesWith_threeRows ⟨fun _ _ => rfl, fun _ _ => rfl⟩,
    hagree runs_threeRows repliesWith_threeRows rfl rfl⟩

end RoboMeta
