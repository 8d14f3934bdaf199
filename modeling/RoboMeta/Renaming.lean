/-
  Which queries keep their verdict when their names change.

  The guard looks names up: a CTE's name anywhere in the query, an alias in the
  FROM clause of its own SELECT, any other qualifier as the name of a table.
  With fresh names for all sources and CTEs it goes by the bindings.

  * `Overlooked`, `Overblocked`: a reference is taken for another one that is
    allowed, or that is not;
  * `renaming_iff`: the verdict is the same iff some fault is one by name and
    by binding, or there are references of both kinds, or of neither.
-/
import RoboMeta.FreshNames

namespace RoboMeta

open Expression

/-! ## Verdicts -/

section
variable (U : Unicode) (G : Sqlglot) (dialect : String) (allow : Allowlist) (A : Resolved)

/-- What a reference is bound to is not allowed, and what its name is taken for is. -/
def Overlooked (i : Site) : Prop :=
  Fault U G dialect allow (byBinding U G) i ∧ ¬ Fault U G dialect allow (byName U G A) i

/-- What a reference is bound to is allowed, and what its name is taken for is not. -/
def Overblocked (i : Site) : Prop :=
  Fault U G dialect allow (byName U G A) i ∧ ¬ Fault U G dialect allow (byBinding U G) i

end

section
variable {U : Unicode} {G : Sqlglot} {dialect sqlText sqlText' : String} {payload : Payload} {A : Resolved}
  {ρ : Binder → Ident} {g : Label × Mark → Label}

theorem refused_map_iff (hg : KeepsKind g) :
    Refused (A.map g) ↔ (A.cls ≠ .select ∧ A.cls ≠ .union ∧ A.selects = []) ∨
      ∃ x : Resolved, x ∈ A.walk ∧ ∃ name, x.cls = .forbidden name := by
  have hcls : ∀ (x : Resolved) {d : Cls}, d.Nameless → (Expression.cls (x.map g) = d ↔ x.cls = d) := fun x d hd => by
    rw [cls_map]
    exact hg.cls_iff hd x.label
  have hselects : selects (A.map g) = [] ↔ A.selects = [] := by
    rw [selects_map hg, List.map_eq_nil_iff]
  have hselect : Cls.Nameless .select := nameless_of_kind rfl (by simp)
  have hunion : Cls.Nameless .union := nameless_of_kind rfl (by simp)
  have hforbidden : ∀ name, Cls.Nameless (.forbidden name) := fun name => nameless_of_kind rfl (by simp)
  simp only [Refused, ne_eq, hcls A hselect, hcls A hunion, hselects, RoseTree.walk_map, List.mem_map,
    exists_exists_and_eq_and, hcls _ (hforbidden _)]

theorem refused_renamed_iff : Refused (renamed ρ A) ↔ Refused (written A) :=
  (refused_map_iff (keepsKind_relabel ρ)).trans (refused_map_iff keepsKind_written).symm

/-- Two kinds of faults are present alike iff they meet, or each occurs without
    the other iff the other does. -/
theorem absent_iff_absent {ι : Type} {P N B : ι → Prop} :
    ((∀ i, P i → ¬ N i) ↔ ∀ i, P i → ¬ B i) ↔
      (∃ i, P i ∧ N i ∧ B i) ∨ ((∃ i, P i ∧ B i ∧ ¬ N i) ↔ ∃ i, P i ∧ N i ∧ ¬ B i) := by
  by_cases hboth : ∃ i, P i ∧ N i ∧ B i
  · obtain ⟨i, hi, hN, hB⟩ := hboth
    exact iff_of_true (iff_of_false (fun h => h i hi hN) fun h => h i hi hB) (Or.inl ⟨i, hi, hN, hB⟩)
  · have honly : ∀ {i}, P i → N i → ¬ B i := fun hi hN hB => hboth ⟨_, hi, hN, hB⟩
    have hN : (∃ i, P i ∧ N i ∧ ¬ B i) ↔ ∃ i, P i ∧ N i :=
      exists_congr fun i => and_congr_right fun hi => and_iff_left_of_imp (honly hi)
    have hB : (∃ i, P i ∧ B i ∧ ¬ N i) ↔ ∃ i, P i ∧ B i :=
      exists_congr fun i => and_congr_right fun hi => and_iff_left_of_imp fun hB hN => honly hi hN hB
    have habsent : ∀ Q : ι → Prop, (∀ i, P i → ¬ Q i) ↔ ¬ ∃ i, P i ∧ Q i := fun Q => by
      simp only [not_exists, not_and]
    rw [or_iff_right hboth, hN, hB, habsent, habsent, not_iff_not]
    exact iff_comm

/-- **Fresh names keep the verdict** iff some fault is one by name and by binding,
    or references are both overlooked and overblocked, or neither. -/
theorem renaming_iff (hparse : G.parse dialect sqlText = .ok [some (written A)])
    (hparse' : G.parse dialect sqlText' = .ok [some (renamed ρ A)]) (hmarked : WellMarked A) (hG : PrintsNames U G)
    (hfresh : ∀ allow, buildAllowlist U payload = .ok allow → FreshIn U G dialect allow A ρ) :
    (validateSqlAgainstArtifact U G dialect sqlText payload = .ok [] ↔
        validateSqlAgainstArtifact U G dialect sqlText' payload = .ok []) ↔
      ∀ allow, buildAllowlist U payload = .ok allow →
        Refused (written A) ∨
          (∃ i : Site, i.In allow A ∧ Fault U G dialect allow (byName U G A) i ∧
            Fault U G dialect allow (byBinding U G) i) ∨
          ((∃ i : Site, i.In allow A ∧ Overlooked U G dialect allow A i) ↔
            ∃ i : Site, i.In allow A ∧ Overblocked U G dialect allow A i) := by
  cases hbuilt : buildAllowlist U payload with
  | error e =>
    refine iff_of_true ?_ fun allow hallow => nomatch hallow
    have herror : ∀ text, validateSqlAgainstArtifact U G dialect text payload = .error e := fun text => by
      rw [validateSqlAgainstArtifact, hbuilt]
      rfl
    rw [herror, herror]
  | ok allow =>
    have hfresh := hfresh allow hbuilt
    have hwritten : Accepted U G dialect allow (written A) ↔
        ∀ i : Site, i.In allow A → ¬ Fault U G dialect allow (byName U G A) i := accepted_map_iff keepsKind_written
    have hrenamed : Accepted U G dialect allow (renamed ρ A) ↔
        ∀ i : Site, i.In allow A → ¬ Fault U G dialect allow (byBinding U G) i :=
      (accepted_map_iff (keepsKind_relabel ρ)).trans
        (forall_congr' fun i => forall_congr' fun hi => not_congr (fault_renamed_iff hmarked hfresh hG hi))
    rw [validate_eq_nil_iff hbuilt hparse, validate_eq_nil_iff hbuilt hparse', refused_renamed_iff, hwritten, hrenamed]
    simp only [Except.ok.injEq, forall_eq']
    by_cases hrefused : Refused (written A)
    · exact iff_of_true (iff_of_false (fun h => h.1 hrefused) fun h => h.1 hrefused) (Or.inl hrefused)
    · rw [and_iff_right hrefused, and_iff_right hrefused, or_iff_right hrefused]
      exact absent_iff_absent

end

/-! ## A column of the outer query -/

def identList : List Ident → String
  | [] => ""
  | i :: is => i.name ++ " " ++ identList is

theorem identList_append (is js : List Ident) : identList (is ++ js) = identList is ++ identList js := by
  induction is with
  | nil => exact (String.empty_append).symm
  | cons i is ih => simp only [List.cons_append, identList, ih, String.append_assoc]

/-- A printer that lists the identifiers of a tree. -/
def identSqlglot (texts : List (String × Expression)) : Sqlglot :=
  { Sqlglot.ofTexts texts with
    sql := fun _ e => identList (e.walk.flatMap fun (x : Expression) => (Expression.cls x).idents) }

theorem printsNames_identSqlglot (texts : List (String × Expression)) : PrintsNames .ascii (identSqlglot texts) := by
  intro e x hx i hi _
  have happend := uppercases_ascii.bare_append
  have hblank : bare .ascii " " = " " := by decide
  have hmem : i ∈ e.walk.flatMap fun (x : Expression) => (Expression.cls x).idents :=
    List.mem_flatMap.2 ⟨x, hx, hi⟩
  obtain ⟨front, back, hsplit⟩ := List.append_of_mem hmem
  refine ⟨(bare .ascii (identList front)).toList, ' ' :: (bare .ascii (identList back)).toList, ?_, ?_, ?_⟩
  · change (bare .ascii (identList (e.walk.flatMap fun (x : Expression) => (Expression.cls x).idents))).toList = _
    rw [hsplit, identList_append, identList, happend, happend, happend, hblank]
    simp [String.toList_append]
  · intro c hc
    rcases List.eq_nil_or_concat' front with rfl | ⟨is, j, rfl⟩
    · cases hc
    · have hlast : bare .ascii (identList (is ++ [j])) = bare .ascii (identList is ++ j.name) ++ " " := by
        rw [identList_append, identList, identList, ← String.append_assoc, ← String.append_assoc, String.append_empty,
          happend, hblank]
      rw [hlast, String.toList_append, show (" ").toList = [' '] from rfl, List.getLast?_concat] at hc
      cases hc
      decide
  · intro c hc
    cases hc
    decide

/-- `SELECT (SELECT t.secret FROM u) FROM t` -/
def outerSecret : Resolved :=
  .node (⟨.root, .select⟩, .unmarked) [
    .node (⟨.expressions, .subquery none []⟩, .unmarked) [
      .node (⟨.this, .select⟩, .unmarked) [
        .node (⟨.expressions, .column { table := some ⟨"t", false⟩, this := some ⟨"secret", false⟩ }⟩, .column 0) [],
        .node (⟨.from_, .from_⟩, .unmarked) [
          .node (⟨.this, .table { this := ⟨"u", false⟩ }⟩, .source 1 none) []]]],
    .node (⟨.from_, .from_⟩, .unmarked) [
      .node (⟨.this, .table { this := ⟨"t", false⟩ }⟩, .source 0 none) []]]

def outerNames : Binder → Ident
  | .source k => ⟨if k = 0 then "a1" else "a2", false⟩
  | .cte _ => ⟨"a3", false⟩

def outerTexts : Sqlglot :=
  identSqlglot [
    ("SELECT (SELECT t.secret FROM u) FROM t", written outerSecret),
    ("SELECT (SELECT a1.secret FROM u AS a2) FROM t AS a1", renamed outerNames outerSecret)]

def largerAllowlist : Allowlist := ⟨["T", "T", "U", "U"], [("T", "X"), ("U", "Y")], [], []⟩

theorem mark_outerSecret : ∀ x : Resolved, x ∈ outerSecret.walk →
    x.mark ∈ [Mark.unmarked, .column 0, .source 0 none, .source 1 none] := by
  decide

theorem from_outerSecret : ∀ s ∈ outerSecret.selects, ∀ x ∈ s.fromItems,
    x.mark = .source 0 none ∨ x.mark = .source 1 none := by
  decide

theorem wellMarked_outerSecret : WellMarked outerSecret where
  fits := by decide
  from_ s hs x hx _ _ := by
    have hmark : x.mark = .source 0 none ∨ x.mark = .source 1 none := from_outerSecret s hs x hx
    exact hmark.elim (fun h => ⟨_, _, h⟩) fun h => ⟨_, _, h⟩
  reference x hx k n hk := by
    have hmark := mark_outerSecret x hx
    rw [hk] at hmark
    simp at hmark
  distinct := by decide

theorem fresh_outerNames : FreshIn .ascii outerTexts dialectPostgres largerAllowlist outerSecret outerNames where
  injective := by decide
  nonempty := by decide
  query := by decide
  tables := by decide
  filters _ _ _ hm := nomatch hm

theorem fresh_of_larger (allow : Allowlist) (hallow : buildAllowlist .ascii larger = .ok allow) :
    FreshIn .ascii outerTexts dialectPostgres allow outerSecret outerNames := by
  cases (show buildAllowlist .ascii larger = .ok largerAllowlist from rfl).symm.trans hallow
  exact fresh_outerNames

/-- In the inner SELECT, `t` is the name of a table and `a1` is nothing. -/
theorem refused_outerSecret :
    validateSqlAgainstArtifact .ascii outerTexts dialectPostgres "SELECT (SELECT t.secret FROM u) FROM t" larger ≠
      .ok [] := by
  decide

theorem accepted_outerSecret :
    validateSqlAgainstArtifact .ascii outerTexts dialectPostgres
      "SELECT (SELECT a1.secret FROM u AS a2) FROM t AS a1" larger = .ok [] := by
  decide

theorem renaming_iff_outerSecret :
    (validateSqlAgainstArtifact .ascii outerTexts dialectPostgres "SELECT (SELECT t.secret FROM u) FROM t" larger =
          .ok [] ↔
        validateSqlAgainstArtifact .ascii outerTexts dialectPostgres
          "SELECT (SELECT a1.secret FROM u AS a2) FROM t AS a1" larger = .ok []) ↔
      ∀ allow, buildAllowlist .ascii larger = .ok allow →
        Refused (written outerSecret) ∨
          (∃ i : Site, i.In allow outerSecret ∧
            Fault .ascii outerTexts dialectPostgres allow (byName .ascii outerTexts outerSecret) i ∧
            Fault .ascii outerTexts dialectPostgres allow (byBinding .ascii outerTexts) i) ∨
          ((∃ i : Site, i.In allow outerSecret ∧ Overlooked .ascii outerTexts dialectPostgres allow outerSecret i) ↔
            ∃ i : Site, i.In allow outerSecret ∧ Overblocked .ascii outerTexts dialectPostgres allow outerSecret i) :=
  renaming_iff rfl rfl wellMarked_outerSecret (printsNames_identSqlglot _) fresh_of_larger

theorem not_forall_renaming :
    ¬ ∀ (U : Unicode) (G : Sqlglot) (sqlText sqlText' : String) (payload : Payload) (A : Resolved)
      (ρ : Binder → Ident), G.parse dialectPostgres sqlText = .ok [some (written A)] →
      G.parse dialectPostgres sqlText' = .ok [some (renamed ρ A)] → WellMarked A → PrintsNames U G →
      (∀ allow, buildAllowlist U payload = .ok allow → FreshIn U G dialectPostgres allow A ρ) →
      (validateSqlAgainstArtifact U G dialectPostgres sqlText payload = .ok [] ↔
        validateSqlAgainstArtifact U G dialectPostgres sqlText' payload = .ok []) := by
  intro h
  have hiff := h .ascii outerTexts "SELECT (SELECT t.secret FROM u) FROM t"
    "SELECT (SELECT a1.secret FROM u AS a2) FROM t AS a1" larger outerSecret outerNames rfl rfl
    wellMarked_outerSecret (printsNames_identSqlglot _) fresh_of_larger
  exact refused_outerSecret (hiff.2 accepted_outerSecret)

end RoboMeta
