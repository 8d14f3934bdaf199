/-
  Ambiguous mentions (`resolve_entities` and `_append_resolution` of
  `services/entity_resolution.py`).

  The pairs of a code and a label that the lookups find for a keyword and a
  column are cut to five before `_append_resolution` counts them.

  * `pairLookup`: what the lookups find, before the cut;
  * `Demanded`: what is to be emitted for it, by the number of the pairs;
  * `emits_iff`: a run emits what is demanded iff no lookup finds more than five
    pairs and the entities are of known types.
-/
import RoboMeta.CodeLabelRows

namespace RoboMeta

/-! ## What is found -/

/-- The column and the table of a matched pair, and the pairs of codes and labels that are found for it. -/
structure PairLookup where
  col : ColumnCandidate
  spec : ProbeSpec
  found : List (String × String)
deriving DecidableEq, Repr

def PairLookup.values (l : PairLookup) : List ResolvedValue := l.found.map fun p => ⟨p.1, some p.2⟩

section
variable (U : Unicode) (settings : ProbeSettings) (db : SourceDb) (specs : List ProbeSpec)

/-- By the labels, and else by the keyword. -/
def lookupPairs (pair : MatchedPair) (col : ColumnCandidate) (spec : ProbeSpec) : List (String × String) :=
  let byValues := lookupCodeLabelPairsForValues U settings db pair.kw col spec.codeColumn spec.pgSchema
    pair.values 10
  if byValues = [] then lookupCodeLabelPairs U settings db pair.kw col spec.codeColumn spec.pgSchema 10 else byValues

def pairLookup (pair : MatchedPair) : Option PairLookup := do
  guard (pair.values ≠ [])
  let col ← (probeSpecsToColumns specs).find? fun col => col.columnFqn = pair.columnFqn
  let spec ← specForColumn U specs col.tableName col.name
  return ⟨col, spec, lookupPairs U settings db pair col spec⟩

variable {U settings db} in
/-- The pairs that are found are distinct. -/
theorem nodup_lookupPairs (pair : MatchedPair) (col : ColumnCandidate) (spec : ProbeSpec) :
    (lookupPairs U settings db pair col spec).Nodup := by
  have hfetch : ∀ sql, (fetchPairs db pair.kw col sql).Nodup := by
    intro sql
    unfold fetchPairs
    split
    · exact .nil
    · exact nodup_rowsToCodeLabelPairs _
  unfold lookupPairs lookupCodeLabelPairs lookupCodeLabelPairsForValues
  dsimp only
  split_ifs <;> first | exact hfetch _ | exact .nil

theorem foundCodes_eq (pair : MatchedPair) (col : ColumnCandidate) (spec : ProbeSpec) :
    foundCodes U settings db pair col spec =
      (PairLookup.values ⟨col, spec, lookupPairs U settings db pair col spec⟩).take maxResolvedValues :=
  List.map_take

/-- The codes are the first five of what is found. -/
theorem pairCodes_eq (pair : MatchedPair) : pairCodes U settings db specs pair =
    (pairLookup U settings db specs pair).bind fun l =>
      if l.found = [] then none else some (l.col, l.spec, l.values.take maxResolvedValues) := by
  simp only [pairCodes, pairLookup, Option.bind_eq_bind, Option.bind_assoc, Option.pure_def, Option.bind_some]
  refine congrArg _ (funext fun _ => congrArg _ (funext fun col => congrArg _ (funext fun spec => ?_)))
  rw [foundCodes_eq]
  by_cases h : lookupPairs U settings db pair col spec = []
  · simp [h, PairLookup.values, guard]
  · have hne : (PairLookup.values ⟨col, spec, lookupPairs U settings db pair col spec⟩).take maxResolvedValues ≠
        [] := by
      simp [PairLookup.values, maxResolvedValues, h]
    rw [if_neg h, guard, if_pos hne]
    rfl

/-! ## What is emitted -/

/-- The entity of a keyword and a column, with all that is found for it. -/
structure ListsAll (kw : String) (l : PairLookup) (entity : ResolvedEntity) : Prop where
  mention : entity.mention = kw
  table : entity.table = l.col.tableName
  nameColumn : entity.nameColumn = l.col.name
  values : entity.values = l.values

/-- A probe for the keyword and the column. -/
def ProbesFor (kw : String) (l : PairLookup) (probe : SuggestedProbe) : Prop :=
  ∃ reason, probe = suggestedProbe U settings.sourcePgSchema kw l.col l.spec.codeColumn l.spec.pgSchema reason

/-- What is to be emitted for a keyword and a column. -/
inductive Demanded (kw : String) (l : PairLookup) : List ResolvedEntity × List SuggestedProbe → Prop
  | nothing : l.found = [] → Demanded kw l ([], [])
  | one {entity} : l.found.length = 1 → ListsAll kw l entity → Demanded kw l ([entity], [])
  | several {entity probe} : 2 ≤ l.found.length → l.found.length ≤ maxResolvedValues → ListsAll kw l entity →
      ProbesFor U settings kw l probe → Demanded kw l ([entity], [probe])
  | many {probe} : maxResolvedValues < l.found.length → ProbesFor U settings kw l probe → Demanded kw l ([], [probe])

/-- What is to be emitted for a matched pair; nothing, if it is passed over. -/
structure Demands (pair : MatchedPair) (d : List ResolvedEntity × List SuggestedProbe) : Prop where
  of_some : ∀ l ∈ pairLookup U settings db specs pair, Demanded U settings pair.kw l d
  of_none : pairLookup U settings db specs pair = none → d = ([], [])

/-- The result is what is demanded for the matched pairs, one after the other. -/
def Emits (pool : Option SourceDb) (registry : Option (List ProbeSpec)) (keywords : List String) : Prop :=
  ∃ result, resolveEntities U settings pool registry keywords = .ok result ∧
    ∀ db specs, reached settings pool registry keywords = some (db, specs) → ∃ ds,
      List.Forall₂ (Demands U settings db specs)
        (matchedPairs (batchDbProbe U settings db keywords (probeSpecsToColumns specs))) ds ∧
      result.resolved = ds.flatMap Prod.fst ∧ result.probes = ds.flatMap Prod.snd

/-- No more pairs are found than an entity takes, and the type of the entity is known. -/
def WithinLimit (pair : MatchedPair) : Prop :=
  ∀ l ∈ pairLookup U settings db specs pair,
    l.found.length ≤ maxResolvedValues ∧ (l.found ≠ [] → l.spec.entityType ∈ entityTypes)

end

section
variable {U : Unicode} {settings : ProbeSettings} {db : SourceDb} {specs : List ProbeSpec} {pair : MatchedPair}
  {d : List ResolvedEntity × List SuggestedProbe}

/-! ## One pair -/

/-- A pair without codes is passed over. -/
theorem resolvePair_of_nil (h : ∀ l ∈ pairLookup U settings db specs pair, l.found = []) :
    resolvePair U settings db specs ([], []) pair = .ok ([], []) := by
  have hnone : pairCodes U settings db specs pair = none := by
    rw [pairCodes_eq, Option.bind_eq_none_iff]
    intro l hl
    exact if_pos (h l hl)
  simp only [resolvePair, hnone]

/-- What the body of the loop adds for a pair with codes. -/
theorem resolvePair_of_found {l : PairLookup} (h : pairLookup U settings db specs pair = some l) (hne : l.found ≠ []) :
    resolvePair U settings db specs ([], []) pair =
      (resolvedEntity pair.kw l.col (some l.spec) l.spec.codeColumn (l.values.take maxResolvedValues)).map
        fun entity => ([entity], if (l.values.take maxResolvedValues).length = 1 then [] else
          [suggestedProbe U settings.sourcePgSchema pair.kw l.col l.spec.codeColumn l.spec.pgSchema
            ("multiple matches (" ++ toString (l.values.take maxResolvedValues).length ++ ") for mention=" ++
              pair.kw)]) := by
  have hcodes : pairCodes U settings db specs pair = some (l.col, l.spec, l.values.take maxResolvedValues) := by
    rw [pairCodes_eq, h, Option.bind_some, if_neg hne]
  simp only [resolvePair, hcodes]
  exact appendResolution_eq U settings.sourcePgSchema [] [] pair.kw l.col (some l.spec) l.spec.codeColumn
    l.spec.pgSchema (List.length_take_le _ _)

theorem exists_resolvedEntity_iff {kw codeCol : String} {col : ColumnCandidate} {spec : ProbeSpec}
    {values : List ResolvedValue} :
    (∃ entity, resolvedEntity kw col (some spec) codeCol values = .ok entity) ↔ spec.entityType ∈ entityTypes := by
  simp only [resolvedEntity, Option.map_some, Option.getD_some]
  split_ifs with h
  · simp [h]
  · simpa using h

theorem resolvedEntity_fields {kw codeCol : String} {col : ColumnCandidate} {spec : Option ProbeSpec}
    {values : List ResolvedValue} {entity : ResolvedEntity}
    (h : resolvedEntity kw col spec codeCol values = .ok entity) :
    entity.mention = kw ∧ entity.table = col.tableName ∧ entity.nameColumn = col.name ∧ entity.values = values := by
  simp only [resolvedEntity] at h
  split_ifs at h
  rw [← Except.ok.inj h]
  exact ⟨rfl, rfl, rfl, rfl⟩

/-- The body of the loop succeeds iff the entity, if there is one, is of a known type. -/
theorem exists_resolvePair_iff : (∃ d, resolvePair U settings db specs ([], []) pair = .ok d) ↔
    ∀ l ∈ pairLookup U settings db specs pair, l.found ≠ [] → l.spec.entityType ∈ entityTypes := by
  by_cases hnil : ∀ l ∈ pairLookup U settings db specs pair, l.found = []
  · exact iff_of_true ⟨_, resolvePair_of_nil hnil⟩ fun l hl hne => absurd (hnil l hl) hne
  · push Not at hnil
    obtain ⟨l, hl, hne⟩ := hnil
    simp only [resolvePair_of_found hl hne, Except.map_eq_ok]
    constructor
    · rintro ⟨d, entity, hentity, -⟩ l' hl' -
      obtain rfl := Option.some.inj (hl.symm.trans hl')
      exact exists_resolvedEntity_iff.1 ⟨entity, hentity⟩
    · intro htype
      obtain ⟨entity, hentity⟩ := exists_resolvedEntity_iff.2 (htype l hl hne)
      exact ⟨_, entity, hentity, rfl⟩

@[simp] theorem PairLookup.length_values (l : PairLookup) : l.values.length = l.found.length := List.length_map _

/-- Within the limit the body of the loop adds what is demanded. -/
theorem demands_of_ok (h : resolvePair U settings db specs ([], []) pair = .ok d)
    (hle : ∀ l ∈ pairLookup U settings db specs pair, l.found.length ≤ maxResolvedValues) :
    Demands U settings db specs pair d := by
  constructor
  · intro l hl
    by_cases hne : l.found = []
    · rw [resolvePair_of_nil fun l' hl' => Option.some.inj (hl.symm.trans hl') ▸ hne] at h
      exact Except.ok.inj h ▸ .nothing hne
    · have hall : l.values.take maxResolvedValues = l.values :=
        List.take_of_length_le (l.length_values.trans_le (hle l hl))
      rw [resolvePair_of_found hl hne, hall] at h
      obtain ⟨entity, hentity, rfl⟩ := Except.map_eq_ok.1 h
      obtain ⟨hmention, htable, hname, hvalues⟩ := resolvedEntity_fields hentity
      have hlists : ListsAll pair.kw l entity := ⟨hmention, htable, hname, hvalues⟩
      by_cases hone : l.found.length = 1
      · rw [l.length_values, if_pos hone]
        exact .one hone hlists
      · have hpos := List.length_pos_iff.2 hne
        rw [l.length_values, if_neg hone]
        exact .several (by omega) (hle l hl) hlists ⟨_, rfl⟩
  · intro hnone
    rw [resolvePair_of_nil fun l hl => by simp [hnone] at hl] at h
    exact (Except.ok.inj h).symm

/-! ## The number of the entities -/

/-- The number of the pairs that are found. -/
def foundCount (U : Unicode) (settings : ProbeSettings) (db : SourceDb) (specs : List ProbeSpec)
    (pair : MatchedPair) : ℕ :=
  ((pairLookup U settings db specs pair).map fun l => l.found.length).getD 0

theorem foundCount_of_some {l : PairLookup} (h : pairLookup U settings db specs pair = some l) :
    foundCount U settings db specs pair = l.found.length := by
  rw [foundCount, h]
  rfl

theorem length_of_ok (h : resolvePair U settings db specs ([], []) pair = .ok d) :
    d.1.length = if decide (1 ≤ foundCount U settings db specs pair) then 1 else 0 := by
  by_cases hnil : ∀ l ∈ pairLookup U settings db specs pair, l.found = []
  · have hzero : foundCount U settings db specs pair = 0 := by
      cases hl : pairLookup U settings db specs pair with
      | none => rw [foundCount, hl]; rfl
      | some l => rw [foundCount_of_some hl, hnil l hl]; rfl
    rw [resolvePair_of_nil hnil] at h
    rw [← Except.ok.inj h, hzero]
    rfl
  · push Not at hnil
    obtain ⟨l, hl, hne⟩ := hnil
    rw [resolvePair_of_found hl hne] at h
    obtain ⟨entity, -, rfl⟩ := Except.map_eq_ok.1 h
    have hpos : 1 ≤ l.found.length := List.length_pos_iff.2 hne
    rw [foundCount_of_some hl, if_pos (decide_eq_true hpos)]
    rfl

theorem length_of_demands (h : Demands U settings db specs pair d) :
    d.1.length = if decide (1 ≤ foundCount U settings db specs pair ∧
      foundCount U settings db specs pair ≤ maxResolvedValues) then 1 else 0 := by
  cases hl : pairLookup U settings db specs pair with
  | none =>
    rw [h.of_none hl, foundCount, hl]
    rfl
  | some l =>
    rw [foundCount_of_some hl]
    cases h.of_some l hl with
    | nothing hnil => simp [hnil]
    | one hone _ => simp [hone, maxResolvedValues]
    | several htwo hle _ _ => simp [hle, show 1 ≤ l.found.length by omega]
    | many hmany _ => simp [show ¬ l.found.length ≤ maxResolvedValues by omega]

/-! ## A run -/

variable {pairs : List MatchedPair} {resolved : List ResolvedEntity} {probes : List SuggestedProbe}

/-- A run succeeds iff the body of the loop does on every pair. -/
theorem exists_resolvePairs_iff : (∃ r, resolvePairs U settings db specs pairs = .ok r) ↔
    ∀ pair ∈ pairs, ∃ d, resolvePair U settings db specs ([], []) pair = .ok d := by
  rw [← Except.exists_mapM_eq_ok, resolvePairs, Except.foldlM_eq_map resolvePair_eq]
  simp only [Except.map_eq_ok]
  constructor
  · rintro ⟨r, ds, h, -⟩
    exact ⟨ds, h⟩
  · rintro ⟨ds, h⟩
    exact ⟨_, ds, h, rfl⟩

/-- A run that emits what is demanded has no pair with more codes than an entity takes. -/
theorem foundCount_le {ds : List (List ResolvedEntity × List SuggestedProbe)}
    (h : resolvePairs U settings db specs pairs = .ok (resolved, probes))
    (hds : List.Forall₂ (Demands U settings db specs) pairs ds) (hresolved : resolved = ds.flatMap Prod.fst) :
    ∀ pair ∈ pairs, foundCount U settings db specs pair ≤ maxResolvedValues := by
  obtain ⟨ds', hds', hresolved', -⟩ := resolvePairs_ok h
  -- the entities of the run are those of the pairs with codes
  have hcount := length_flatMap_of_forall₂ (f := Prod.fst) ((Except.mapM_eq_ok.1 hds').imp fun _ _ => length_of_ok)
  have hcount' := length_flatMap_of_forall₂ (f := Prod.fst) (hds.imp fun _ _ => length_of_demands)
  rw [← hresolved'] at hcount
  rw [← hresolved] at hcount'
  intro pair hpair
  by_cases hpos : 1 ≤ foundCount U settings db specs pair
  · have hall := of_countP_eq (fun x _ hx => decide_eq_true (of_decide_eq_true hx).1) (hcount.symm.trans hcount') pair
      hpair (decide_eq_true hpos)
    exact (of_decide_eq_true hall).2
  · exact (Nat.lt_of_not_le hpos).le.trans (by decide)

/-- Within the limit a run emits what is demanded. -/
theorem exists_demands (h : resolvePairs U settings db specs pairs = .ok (resolved, probes))
    (hlimit : ∀ pair ∈ pairs, WithinLimit U settings db specs pair) :
    ∃ ds, List.Forall₂ (Demands U settings db specs) pairs ds ∧ resolved = ds.flatMap Prod.fst ∧
      probes = ds.flatMap Prod.snd := by
  obtain ⟨ds, hds, hresolved, hprobes⟩ := resolvePairs_ok h
  refine ⟨ds, ?_, hresolved, hprobes⟩
  have hall := (List.forall₂_and_left _ _).2 ⟨hlimit, Except.mapM_eq_ok.1 hds⟩
  exact hall.imp fun pair d hd => demands_of_ok hd.2 fun l hl => (hd.1 l hl).1

end

section
variable {U : Unicode} {settings : ProbeSettings} {pool : Option SourceDb} {registry : Option (List ProbeSpec)}
  {keywords : List String}

/-- A run that emits what is demanded is within the limit. -/
theorem withinLimit_of_emits (h : Emits U settings pool registry keywords) :
    AllMatched U settings pool registry keywords (WithinLimit U settings) := by
  obtain ⟨result, hrun, hdemands⟩ := h
  intro db specs hreached pair hpair l hl
  obtain ⟨ds, hds, hresolved, -⟩ := hdemands db specs hreached
  simp only [resolveEntities, hreached] at hrun
  obtain ⟨⟨resolved, probes⟩, hpairs, hresult⟩ := Except.bind_eq_ok.1 hrun
  obtain rfl := Except.ok.inj hresult
  constructor
  · rw [← foundCount_of_some hl]
    exact foundCount_le hpairs hds hresolved pair hpair
  · exact exists_resolvePair_iff.1 (exists_resolvePairs_iff.1 ⟨_, hpairs⟩ pair hpair) l hl

/-- **A run emits what is demanded** iff no lookup finds more than five pairs and the entities are of known types. -/
theorem emits_iff : Emits U settings pool registry keywords ↔
    AllMatched U settings pool registry keywords (WithinLimit U settings) := by
  refine ⟨withinLimit_of_emits, fun hlimit => ?_⟩
  cases hreached : reached settings pool registry keywords with
  | none =>
    refine ⟨{ status := earlyStatus settings pool registry keywords }, ?_, fun db specs h => ?_⟩
    · simp only [resolveEntities, hreached]
    · cases hreached.symm.trans h
  | some found =>
    obtain ⟨db, specs⟩ := found
    have hpairs := (allMatched_iff hreached).1 hlimit
    obtain ⟨⟨resolved, probes⟩, hrun⟩ := exists_resolvePairs_iff.2 fun pair hpair =>
      exists_resolvePair_iff.2 fun l hl => (hpairs pair hpair l hl).2
    refine ⟨⟨resolved, probes, statusOf resolved probes⟩, ?_, fun db' specs' h => ?_⟩
    · simp only [resolveEntities, hreached, hrun]
      rfl
    · obtain ⟨rfl, rfl⟩ := Prod.mk.inj (Option.some.inj (hreached.symm.trans h))
      exact exists_demands hrun hpairs

end

/-- A source where one name matches, with six codes. -/
def sixDb : SourceDb where
  values _ _ _ := some [some "Dam"]
  codes _ _ _ := some (["1", "2", "3", "4", "5", "6"].map fun code => ⟨some code, some "Dam"⟩)

/-- A mention with six codes is given an entity with five of them. -/
theorem not_forall_emits : ¬ ∀ (U : Unicode) (settings : ProbeSettings) (pool : Option SourceDb)
    (registry : Option (List ProbeSpec)) (keywords : List String), (∀ specs ∈ registry, ∀ spec ∈ specs,
      spec.entityType ∈ entityTypes) → Emits U settings pool registry keywords := by
  intro h
  have hlimit := withinLimit_of_emits (h .ascii {} (some sixDb) (some [facilitySpec]) ["Dam"] (by decide))
  have hmem : ⟨"Dam", "rwis.RDISAUP_TB.SUJ_NAME", ["Dam"]⟩ ∈ matchedPairs
      (batchDbProbe .ascii {} sixDb ["Dam"] (probeSpecsToColumns [facilitySpec])) := by
    decide +kernel
  have hcount : foundCount .ascii {} sixDb [facilitySpec] ⟨"Dam", "rwis.RDISAUP_TB.SUJ_NAME", ["Dam"]⟩ = 6 := by
    decide +kernel
  cases hl : pairLookup .ascii {} sixDb [facilitySpec] ⟨"Dam", "rwis.RDISAUP_TB.SUJ_NAME", ["Dam"]⟩ with
  | none =>
    rw [foundCount, hl] at hcount
    cases hcount
  | some l =>
    have hle := (hlimit sixDb [facilitySpec] rfl _ hmem l hl).1
    rw [← foundCount_of_some hl, hcount] at hle
    exact absurd hle (by decide)

end RoboMeta
