/-
  Subject areas of tables (`services/subject_area.py`,
  `rules/subject_area_rules.yaml`).

  A table is classified by its full name: by an exception, or else by the first
  pattern that is found in the name or in that of the table alone, letters of
  either case being the same.

  * `classify` with the rules as data, `subjectAreaRules`;
  * `search_table`: a pattern found in the table's name is found in the full one;
  * `firstPattern_overrides`: the exceptions say what the patterns say;
  * `classify_respelled`: the case of the letters makes no difference.
-/
import RoboMeta.MetaPostgres

namespace RoboMeta

/-! ## Rules -/

/-- The letters that `re.IGNORECASE` takes for the same. -/
structure CaseFold where
  fold : Char → Char
  fold_ascii : ∀ c, c.toNat < 128 → fold c = c.toLower
  fold_eq_newline : ∀ c, fold c = '\n' ↔ c = '\n'

def CaseFold.text (F : CaseFold) (s : String) : Text := s.toList.map F.fold

/-- The regular expressions of the rules: `.*(w|w'|…).*` and `.*w$`. -/
inductive NamePattern where
  | anyOf (words : List String)
  | endsWith (word : String)
deriving DecidableEq, Repr

structure AreaRules where
  default : SubjectArea
  namePatterns : List (NamePattern × SubjectArea)
  promoteMasterIfOntologyLinked : Bool
  promoteAggIfUsesByQuery : Bool
  usesByQueryThreshold : ℤ
  overrides : List (String × SubjectArea)

def subjectAreaRules : AreaRules where
  default := .unknown
  namePatterns := [
    (.anyOf ["_DD", "_HH", "_MM", "RDD01DD", "RDF01HH", "AGG", "SUMMARY", "_STAT"], .agg),
    (.anyOf ["HIST", "_LOG", "_LOG_TB", "JOBLOG", "YUYUK_LOG"], .hist),
    (.anyOf ["CODE", "_CODE_TB", "CD_TB", "TYPE_TB"], .code),
    (.anyOf ["RDITAG", "TAGUNIT", "_MAST_", "_MASTER_", "_BONBU", "_SAMUSO", "_SAMUPR", "_RSSYS"], .master),
    (.anyOf ["LINK", "MAP", "REL", "XREF", "_LINK_TB"], .link),
    (.endsWith "_TB", .raw)]
  promoteMasterIfOntologyLinked := false
  promoteAggIfUsesByQuery := true
  usesByQueryThreshold := 3
  overrides := [("RWIS.RDD01DD_TB", .agg), ("RWIS.RDF01HH_TB", .agg), ("RWIS.RDITAG_TB", .master),
    ("RWIS.RDITAGUNIT_TB", .master)]

section
variable (F : CaseFold)

/-- `pattern.search(s)`; `$` also stands in front of a line feed at the end. -/
def NamePattern.search (s : String) : NamePattern → Bool
  | anyOf words => words.any fun w => decide (F.text w <:+: F.text s)
  | endsWith w => decide (F.text w <:+ F.text s) || decide (F.text w ++ ['\n'] <:+ F.text s)

/-- The value of the first pattern that is found in one of the names. -/
def firstPattern (rules : AreaRules) (fqn tableName : String) : Option SubjectArea :=
  (rules.namePatterns.find? fun rule => rule.1.search F fqn || rule.1.search F tableName).map Prod.snd

def classify (rules : AreaRules) (schemaName tableName : String) (usesByQueryCount : ℤ) (ontologyLinked : Bool) :
    SubjectArea :=
  let fqn := schemaName ++ "." ++ tableName
  match rules.overrides.lookup fqn with
  | some area => area
  | none => match firstPattern F rules fqn tableName with
    | some area => area
    | none =>
      if rules.promoteAggIfUsesByQuery ∧ rules.usesByQueryThreshold ≤ usesByQueryCount then .agg
      else if rules.promoteMasterIfOntologyLinked ∧ ontologyLinked then .master
      else rules.default

end

/-! ## The full name is enough -/

section
variable {F : CaseFold} {p : NamePattern} {schemaName tableName : String}

theorem text_append (s t : String) : F.text (s ++ t) = F.text s ++ F.text t := by
  rw [CaseFold.text, String.toList_append, List.map_append, CaseFold.text, CaseFold.text]

/-- What is found in the name of the table is found in the full name. -/
theorem search_table (h : p.search F tableName = true) : p.search F (schemaName ++ "." ++ tableName) = true := by
  have hsuffix : F.text tableName <:+ F.text (schemaName ++ "." ++ tableName) := by
    rw [text_append]
    exact List.suffix_append _ _
  cases p with
  | anyOf words =>
    obtain ⟨w, hw, hfound⟩ := List.any_eq_true.1 h
    exact List.any_eq_true.2 ⟨w, hw, decide_eq_true ((of_decide_eq_true hfound).trans hsuffix.isInfix)⟩
  | endsWith w =>
    rw [NamePattern.search, Bool.or_eq_true, decide_eq_true_eq, decide_eq_true_eq] at h ⊢
    exact h.imp (fun h => h.trans hsuffix) fun h => h.trans hsuffix

theorem firstPattern_eq (rules : AreaRules) : firstPattern F rules (schemaName ++ "." ++ tableName) tableName =
    (rules.namePatterns.find? fun rule => rule.1.search F (schemaName ++ "." ++ tableName)).map Prod.snd := by
  have hor : ∀ rule : NamePattern × SubjectArea,
      (rule.1.search F (schemaName ++ "." ++ tableName) || rule.1.search F tableName) =
        rule.1.search F (schemaName ++ "." ++ tableName) := fun rule => by
    cases htable : rule.1.search F tableName with
    | false => rw [Bool.or_false]
    | true => rw [search_table htable, Bool.true_or]
  rw [firstPattern]
  simp only [hor]

end

/-! ## The exceptions -/

theorem toLower_eq_newline {c : Char} : c.toLower = '\n' ↔ c = '\n' := by
  by_cases hc : c.val ≥ 'A'.val ∧ c.val ≤ 'Z'.val
  · -- neither a capital letter nor the small one is a line feed
    obtain ⟨hge, hval⟩ := toNat_toLower hc
    have hfeed : ('\n' : Char).val.toNat = 10 := rfl
    constructor
    · intro h
      rw [h, hfeed] at hval
      omega
    · rintro rfl
      omega
  · have hsame : c.toLower = c := dif_neg hc
    rw [hsame]

/-- The fold that knows ASCII letters only. -/
def CaseFold.ascii : CaseFold where
  fold := Char.toLower
  fold_ascii _ _ := rfl
  fold_eq_newline _ := toLower_eq_newline

def NamePattern.words : NamePattern → List String
  | anyOf words => words
  | endsWith w => [w]

section
variable {F : CaseFold}

theorem text_of_ascii {s : String} (h : ∀ c ∈ s.toList, c.toNat < 128) : F.text s = CaseFold.ascii.text s :=
  List.map_congr_left fun c hc => F.fold_ascii c (h c hc)

/-- For names and patterns in ASCII every fold does the same. -/
theorem search_of_ascii {p : NamePattern} {s : String} (hp : ∀ w ∈ p.words, ∀ c ∈ w.toList, c.toNat < 128)
    (hs : ∀ c ∈ s.toList, c.toNat < 128) : p.search F s = p.search CaseFold.ascii s := by
  cases p with
  | anyOf words =>
    rw [NamePattern.search, NamePattern.search, Bool.eq_iff_iff, List.any_eq_true, List.any_eq_true]
    refine exists_congr fun w => and_congr_right fun hw => ?_
    rw [text_of_ascii (hp w hw), text_of_ascii hs]
  | endsWith w => rw [NamePattern.search, NamePattern.search, text_of_ascii (hp w (List.mem_singleton_self w)),
      text_of_ascii hs]

theorem rules_ascii : ∀ rule ∈ subjectAreaRules.namePatterns, ∀ w ∈ rule.1.words, ∀ c ∈ w.toList, c.toNat < 128 := by
  have h : (subjectAreaRules.namePatterns.all fun rule =>
      rule.1.words.all fun w => w.toList.all fun c => c.toNat < 128) = true := by decide +kernel
  simpa only [List.all_eq_true, decide_eq_true_eq] using h

theorem overrides_ascii : ∀ item ∈ subjectAreaRules.overrides, ∀ c ∈ item.1.toList, c.toNat < 128 := by
  have h : (subjectAreaRules.overrides.all fun item => item.1.toList.all fun c => c.toNat < 128) = true := by
    decide +kernel
  simpa only [List.all_eq_true, decide_eq_true_eq] using h

/-- The exceptions say what the patterns say. -/
theorem firstPattern_overrides : ∀ item ∈ subjectAreaRules.overrides,
    (subjectAreaRules.namePatterns.find? fun rule => rule.1.search F item.1).map Prod.snd = some item.2 := by
  intro item hitem
  have hfold : (subjectAreaRules.namePatterns.find? fun rule => rule.1.search F item.1) =
      subjectAreaRules.namePatterns.find? fun rule => rule.1.search CaseFold.ascii item.1 := by
    have hrules := rules_ascii
    generalize subjectAreaRules.namePatterns = rules at hrules
    induction rules with
    | nil => rfl
    | cons rule rules ih =>
      rw [List.find?_cons, List.find?_cons, ih fun rule' hrule' => hrules rule' (List.mem_cons_of_mem rule hrule'),
        search_of_ascii (hrules rule List.mem_cons_self) (overrides_ascii item hitem)]
  rw [hfold]
  clear hfold
  revert item
  decide

/-- The area by the patterns alone. -/
theorem classify_eq {schemaName tableName : String} (uses : ℤ) (linked : Bool) :
    classify F subjectAreaRules schemaName tableName uses linked =
      ((subjectAreaRules.namePatterns.find? fun rule => rule.1.search F (schemaName ++ "." ++ tableName)).map
        Prod.snd).getD (if 3 ≤ uses then .agg else .unknown) := by
  unfold classify
  simp only [firstPattern_eq]
  cases hlookup : subjectAreaRules.overrides.lookup (schemaName ++ "." ++ tableName) with
  | some area =>
    have hmem : (schemaName ++ "." ++ tableName, area) ∈ subjectAreaRules.overrides := by
      obtain ⟨front, back, heq, -⟩ := List.lookup_eq_some_iff.1 hlookup
      rw [heq]
      exact List.mem_append_right front List.mem_cons_self
    rw [firstPattern_overrides _ hmem]
    rfl
  | none =>
    cases (subjectAreaRules.namePatterns.find? fun rule => rule.1.search F (schemaName ++ "." ++ tableName)).map
      Prod.snd with
    | some area => rfl
    | none => simp [subjectAreaRules]

/-- **The case of the letters** in the name of a table makes no difference, the exceptions included. -/
theorem classify_respelled {schemaName tableName schemaName' tableName' : String}
    (h : F.text (schemaName ++ "." ++ tableName) = F.text (schemaName' ++ "." ++ tableName')) (uses : ℤ)
    (linked : Bool) :
    classify F subjectAreaRules schemaName tableName uses linked =
      classify F subjectAreaRules schemaName' tableName' uses linked := by
  have hsearch : ∀ p : NamePattern, p.search F (schemaName ++ "." ++ tableName) =
      p.search F (schemaName' ++ "." ++ tableName') := fun p => by
    cases p with
    | anyOf words => rw [NamePattern.search, NamePattern.search, h]
    | endsWith w => rw [NamePattern.search, NamePattern.search, h]
  rw [classify_eq, classify_eq]
  simp only [hsearch]

end

theorem classify_respelled_rwis :
    classify .ascii subjectAreaRules "RWIS" "RDITAG_TB" 0 false =
      classify .ascii subjectAreaRules "rwis" "rditag_tb" 0 false :=
  classify_respelled (by decide) 0 false

end RoboMeta
