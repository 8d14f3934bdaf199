/-
  Tables as they are listed against tables as they are looked up.

  An item of `listBatch` carries the names of a table as they are.  `getTable`
  takes the first table by id that goes by these names up to letter case, and
  the foreign keys of all tables that do.

  * `Answers`: a response describes the table that an item lists;
  * `Addressed`: the names of the item lead to the table, and its rows can be
    read;
  * `answers_iff_addressed`: a table is answered iff it is addressed;
  * `answers_of_addressed`: the items of a listing lead back to the tables.
-/
import RoboMeta.MetaPostgres
import RoboMeta.Lib.Outcome
import RoboMeta.Lib.Ranking

namespace RoboMeta

/-! ## Items and answers -/

/-- The item under which a table is listed. -/
structure MetaTable.Listed (t : MetaTable) (item : TableKey) : Prop where
  db : t.db = item.db
  schemaName : t.schemaName = some item.schemaName
  tableName : t.originalName = some item.tableName

namespace MetaCatalog

variable (c : MetaCatalog) (S : MetaSql)

/-- The foreign keys of a table. -/
def leaving (t : MetaTable) : List MetaFk :=
  c.fkConstraints.filter fun fk => (c.column? fk.fromColumnId).any fun col => col.tableId = t.id

/-- What a response has to say about a foreign key. -/
def Entry (fk : MetaFk) (ref : RefMeta) : Prop :=
  ∃ j, c.joinedFk fk = some j ∧ (j.row S >>= RefRow.refMeta) = .ok ref

/-- A response is about a table and the names under which it is listed. -/
structure Answers (t : MetaTable) (item : TableKey) (response : MetaTableResponse) : Prop where
  db : some response.tableInfo.db = item.db
  schemaName : response.tableInfo.schemaName = item.schemaName
  tableName : response.tableInfo.tableName = item.tableName
  columns : ∃ columns, (c.columnsOf t.id).mapM c.columnMeta = .ok columns ∧ response.columns.Perm columns
  fk : ∃ refs, List.Forall₂ (c.Entry S) (c.leaving t) refs ∧ response.fk.Perm refs

/-- The first table by id that goes by the names of an item. -/
structure First (item : TableKey) (u : MetaTable) : Prop where
  mem : u ∈ c.tables
  named : u.Named S item.db item.schemaName item.tableName
  first : ∀ u' ∈ c.tables, u'.Named S item.db item.schemaName item.tableName → u.id ≤ u'.id

/-- The columns of both tables are described by the same rows. -/
def SameColumns (u t : MetaTable) : Prop :=
  ∃ us ts, (c.columnsOf u.id).mapM c.columnMeta = .ok us ∧ (c.columnsOf t.id).mapM c.columnMeta = .ok ts ∧ us.Perm ts

/-- The names of the item lead to the table and to its foreign keys only, and all of their rows can be read. -/
structure Addressed (t : MetaTable) (item : TableKey) : Prop where
  labelled : item.db ≠ none
  first : ∃ u, c.First S item u ∧ u.Listed item ∧ c.SameColumns u t ∧
    ∀ col ∈ c.columnsOf u.id, ∃ n, S.intMember col.metadata "ordinal_position" = .ok n
  own : ∀ j ∈ c.joinedFks, j.tFrom.Named S item.db item.schemaName item.tableName → j.tFrom.id = t.id
  entries : ∀ fk ∈ c.leaving t, ∃ ref, c.Entry S fk ref

end MetaCatalog

/-! ## Names -/

section
variable {c : MetaCatalog} {S : MetaSql} {item : TableKey} {t u : MetaTable}

theorem MetaTable.Listed.named (h : t.Listed item) : t.Named S item.db item.schemaName item.tableName :=
  ⟨fun d hd => ⟨d, h.db.trans hd, rfl⟩, ⟨_, h.schemaName, rfl⟩, ⟨_, h.tableName, rfl⟩⟩

/-- The names in a response are those of the item iff they are those of the table, and it has a label. -/
theorem listed_iff_texts (h : u.Named S item.db item.schemaName item.tableName) :
    some (formatOptional u.db) = item.db ∧ formatOptional u.schemaName = item.schemaName ∧
      formatOptional u.originalName = item.tableName ↔ item.db ≠ none ∧ u.Listed item := by
  obtain ⟨hdb, ⟨s, hs, -⟩, ⟨n, hn, -⟩⟩ := h
  rw [Option.mem_def] at hs hn
  constructor
  · rintro ⟨hlabel, hschema, hname⟩
    obtain ⟨d, hd, -⟩ := hdb _ hlabel.symm
    rw [hs] at hschema
    rw [hn] at hname
    rw [Option.mem_def.1 hd] at hlabel
    refine ⟨fun hnone => Option.some_ne_none _ (hlabel.trans hnone), ?_, hs.trans (congrArg some hschema),
      hn.trans (congrArg some hname)⟩
    exact hd.trans hlabel
  · rintro ⟨hlabel, hlisted⟩
    obtain ⟨d, hd⟩ := Option.ne_none_iff_exists'.1 hlabel
    rw [hlisted.db, hlisted.schemaName, hlisted.tableName, hd]
    exact ⟨rfl, rfl, rfl⟩

theorem MetaCatalog.eq_of_id (ht : t ∈ c.tables) (hu : u ∈ c.tables) (hid : u.id = t.id) : u = t :=
  List.inj_on_of_nodup_map c.nodup_tables hu ht hid

theorem firstNamed_eq_some :
    c.firstNamed S item.db item.schemaName item.tableName = some u ↔ c.First S item u := by
  have hfirst {u : MetaTable} (h : c.firstNamed S item.db item.schemaName item.tableName = some u) :
      c.First S item u := by
    obtain ⟨hu, hle⟩ := le_of_head?_insertionSort h
    rw [List.mem_filter, decide_eq_true_eq] at hu
    exact ⟨hu.1, hu.2, fun u' hu' hnamed => hle u' (List.mem_filter.2 ⟨hu', decide_eq_true hnamed⟩)⟩
  refine ⟨hfirst, fun h => ?_⟩
  cases hsome : c.firstNamed S item.db item.schemaName item.tableName with
  | none =>
    have hmem : u ∈ c.tables.filter fun t => t.Named S item.db item.schemaName item.tableName :=
      List.mem_filter.2 ⟨h.mem, decide_eq_true h.named⟩
    rw [← List.mem_insertionSort fun t t' => t.id ≤ t'.id, List.head?_eq_none_iff.1 hsome] at hmem
    cases hmem
  | some u' =>
    have h' := hfirst hsome
    have hid : u.id = u'.id := le_antisymm (h.first u' h'.mem h'.named) (h'.first u h.mem h.named)
    rw [MetaCatalog.eq_of_id h'.mem h.mem hid]

end

/-! ## Foreign keys -/

section
variable {c : MetaCatalog} {S : MetaSql} {item : TableKey} {t : MetaTable}

theorem joinedFk_from {fk : MetaFk} {j : JoinedFk} (h : c.joinedFk fk = some j) :
    ∃ cFrom, c.column? fk.fromColumnId = some cFrom ∧ j.tFrom ∈ c.tables ∧ j.tFrom.id = cFrom.tableId := by
  simp only [MetaCatalog.joinedFk, bind, pure, Option.bind_eq_some_iff] at h
  obtain ⟨cFrom, hfrom, tFrom, htable, cTo, -, tTo, -, hj⟩ := h
  cases hj
  exact ⟨cFrom, hfrom, List.mem_of_find?_eq_some htable, by simpa using List.find?_some htable⟩

/-- The joined foreign keys that leave a table, by the table that the join finds. -/
theorem filter_joinedFks (t : MetaTable) :
    (c.joinedFks.filter fun j => j.tFrom.id = t.id) = (c.leaving t).filterMap c.joinedFk := by
  rw [MetaCatalog.joinedFks, MetaCatalog.leaving, List.filter_filterMap, List.filterMap_filter]
  refine List.filterMap_congr fun fk _ => ?_
  cases hjoin : c.joinedFk fk with
  | none => simp
  | some j =>
    obtain ⟨cFrom, hfrom, -, hid⟩ := joinedFk_from hjoin
    simp [hfrom, hid, Option.filter]

/-- All foreign keys have an entry iff they join and their rows can be read. -/
theorem forall₂_entry_iff {fks : List MetaFk} {refs : List RefMeta} :
    List.Forall₂ (c.Entry S) fks refs ↔ (∀ fk ∈ fks, (c.joinedFk fk).isSome) ∧
      ((fks.filterMap c.joinedFk).mapM fun j => j.row S >>= RefRow.refMeta) = .ok refs := by
  rw [Except.mapM_eq_ok]
  induction fks generalizing refs with
  | nil => simp
  | cons fk fks ih =>
    rw [List.forall₂_cons_left_iff, List.forall_mem_cons]
    cases hjoin : c.joinedFk fk with
    | none => simp [MetaCatalog.Entry, hjoin]
    | some j =>
      rw [List.filterMap_cons_some hjoin, List.forall₂_cons_left_iff]
      simp only [MetaCatalog.Entry, hjoin, Option.some.injEq, exists_eq_left', ih, Option.isSome_some, true_and]
      constructor
      · rintro ⟨ref, refs', href, ⟨hall, hrest⟩, rfl⟩
        exact ⟨hall, ref, refs', href, hrest, rfl⟩
      · rintro ⟨hall, ref, refs', href, hrest, rfl⟩
        exact ⟨ref, refs', href, ⟨hall, hrest⟩, rfl⟩

end

section
variable {r : MetaRepository} {item : TableKey} {t : MetaTable}

/-- The foreign keys that `fetchRefs` finds by the names of an item. -/
def MetaRepository.foundFks (r : MetaRepository) (item : TableKey) : List JoinedFk :=
  r.catalog.joinedFks.filter fun j => j.tFrom.Named r.sql item.db item.schemaName item.tableName

/-- The entries of the foreign keys that are found, in whatever order. -/
theorem exists_refs_iff {P : List RefMeta → Prop} (hP : ∀ {fk refs}, fk.Perm refs → (P fk ↔ P refs)) :
    (∃ rows fk, r.fetchRefs item.db item.schemaName item.tableName = .ok rows ∧
      rows.mapM RefRow.refMeta = .ok fk ∧ P fk) ↔
    ∃ refs, ((r.foundFks item).mapM fun j => j.row r.sql >>= RefRow.refMeta) = .ok refs ∧ P refs := by
  have hfetch {rows : List RefRow} : r.fetchRefs item.db item.schemaName item.tableName = .ok rows ↔
      ∃ found, (r.foundFks item).mapM (JoinedFk.row r.sql) = .ok found ∧ rows = r.refOrder found := by
    rw [MetaRepository.fetchRefs, Except.bind_eq_ok]
    refine exists_congr fun found => and_congr_right fun _ => ?_
    exact ⟨fun h => (Except.ok.inj h).symm, fun h => congrArg Except.ok h.symm⟩
  constructor
  · rintro ⟨rows, fk, hrows, hfk, h⟩
    obtain ⟨found, hfound, rfl⟩ := hfetch.1 hrows
    obtain ⟨refs, hrefs, hperm⟩ := Except.exists_mapM_eq_ok_of_perm hfk (r.refOrder_perm found).symm
    exact ⟨refs, Except.mapM_bind_eq_ok.2 ⟨found, hfound, hrefs⟩, (hP hperm).2 h⟩
  · rintro ⟨refs, hrefs, h⟩
    obtain ⟨found, hfound, hrefs⟩ := Except.mapM_bind_eq_ok.1 hrefs
    obtain ⟨fk, hfk, hperm⟩ := Except.exists_mapM_eq_ok_of_perm hrefs (r.refOrder_perm found)
    exact ⟨_, fk, hfetch.2 ⟨found, hfound, rfl⟩, hfk, (hP hperm).2 h⟩

/-- A listed table is found under the names of its item. -/
theorem filter_foundFks (ht : t ∈ r.catalog.tables) (hlisted : t.Listed item) :
    ((r.foundFks item).filter fun j => j.tFrom.id = t.id) = (r.catalog.leaving t).filterMap r.catalog.joinedFk := by
  rw [← filter_joinedFks, MetaRepository.foundFks, List.filter_filter]
  refine List.filter_congr fun j hj => ?_
  obtain ⟨fk, -, hjoin⟩ := List.mem_filterMap.1 hj
  obtain ⟨cFrom, -, hmem, -⟩ := joinedFk_from hjoin
  by_cases hid : j.tFrom.id = t.id
  · rw [MetaCatalog.eq_of_id ht hmem hid]
    simp [hlisted.named]
  · simp [hid]

/-- The foreign keys of an answer are those of the table iff no other table of these names has any,
and each one has an entry. -/
theorem exists_fk_iff (ht : t ∈ r.catalog.tables) (hlisted : t.Listed item) :
    (∃ rows fk, r.fetchRefs item.db item.schemaName item.tableName = .ok rows ∧ rows.mapM RefRow.refMeta = .ok fk ∧
      ∃ refs, List.Forall₂ (r.catalog.Entry r.sql) (r.catalog.leaving t) refs ∧ fk.Perm refs) ↔
    (∀ j ∈ r.catalog.joinedFks, j.tFrom.Named r.sql item.db item.schemaName item.tableName → j.tFrom.id = t.id) ∧
      ∀ fk ∈ r.catalog.leaving t, ∃ ref, r.catalog.Entry r.sql fk ref := by
  have hown : (∀ j ∈ r.catalog.joinedFks, j.tFrom.Named r.sql item.db item.schemaName item.tableName →
      j.tFrom.id = t.id) ↔ ∀ j ∈ r.foundFks item, decide (j.tFrom.id = t.id) = true := by
    simp [MetaRepository.foundFks]
  have hfound := filter_foundFks ht hlisted
  have hperms {fk fk' : List RefMeta} (hperm : fk.Perm fk') :
      (∃ refs, List.Forall₂ (r.catalog.Entry r.sql) (r.catalog.leaving t) refs ∧ fk.Perm refs) ↔
        ∃ refs, List.Forall₂ (r.catalog.Entry r.sql) (r.catalog.leaving t) refs ∧ fk'.Perm refs :=
    exists_congr fun refs => and_congr_right fun _ => ⟨hperm.symm.trans, hperm.trans⟩
  rw [hown, exists_refs_iff hperms]
  constructor
  · rintro ⟨refs, hrefs, refs', hentries, hperm⟩
    obtain ⟨hjoins, hrefs'⟩ := forall₂_entry_iff.1 hentries
    refine ⟨List.length_filter_eq_length_iff.1 ?_, fun fk hfk => ?_⟩
    · rw [hfound, Except.length_of_mapM_eq_ok hrefs', Except.length_of_mapM_eq_ok hrefs, hperm.length_eq]
    · obtain ⟨ref, -, href⟩ := exists_of_mem_left hentries hfk
      exact ⟨ref, href⟩
  · rintro ⟨hall, hentries⟩
    obtain ⟨refs, hrefs⟩ := exists_forall₂_iff.2 hentries
    rw [List.filter_eq_self.2 hall] at hfound
    rw [hfound]
    exact ⟨refs, (forall₂_entry_iff.1 hrefs).2, refs, hrefs, .refl refs⟩

/-! ## Columns -/

/-- The columns of an answer are those of the table iff they are described alike and can be ordered. -/
theorem exists_columns_iff {u : MetaTable} :
    (∃ columns metas, r.fetchColumns u.id = .ok columns ∧ columns.mapM r.catalog.columnMeta = .ok metas ∧
      ∃ ts, (r.catalog.columnsOf t.id).mapM r.catalog.columnMeta = .ok ts ∧ metas.Perm ts) ↔
    r.catalog.SameColumns u t ∧
      ∀ col ∈ r.catalog.columnsOf u.id, ∃ n, r.sql.intMember col.metadata "ordinal_position" = .ok n := by
  have horder := r.columnOrder_perm (r.catalog.columnsOf u.id)
  have hfetch {columns : List MetaColumn} : r.fetchColumns u.id = .ok columns ↔
      (∃ ns, (r.catalog.columnsOf u.id).mapM (fun col => r.sql.intMember col.metadata "ordinal_position") = .ok ns) ∧
        columns = r.columnOrder (r.catalog.columnsOf u.id) := by
    rw [MetaRepository.fetchColumns, Except.bind_eq_ok, ← exists_and_right]
    refine exists_congr fun ns => and_congr_right fun _ => ?_
    exact ⟨fun h => (Except.ok.inj h).symm, fun h => congrArg Except.ok h.symm⟩
  rw [← Except.exists_mapM_eq_ok]
  constructor
  · rintro ⟨columns, metas, hcolumns, hmetas, ts, hts, hperm⟩
    obtain ⟨hns, rfl⟩ := hfetch.1 hcolumns
    obtain ⟨us, hus, hperm'⟩ := Except.exists_mapM_eq_ok_of_perm hmetas horder.symm
    exact ⟨⟨us, ts, hus, hts, hperm'.trans hperm⟩, hns⟩
  · rintro ⟨⟨us, ts, hus, hts, hperm⟩, hns⟩
    obtain ⟨metas, hmetas, hperm'⟩ := Except.exists_mapM_eq_ok_of_perm hus horder
    exact ⟨_, metas, hfetch.2 ⟨hns, rfl⟩, hmetas, ts, hts, hperm'.trans hperm⟩

/-! ## Answers -/

/-- What `getTable` went through. -/
theorem getTable_eq_some {response : MetaTableResponse} :
    r.getTable item.db item.schemaName item.tableName = .ok (some response) ↔
      ∃ u columns rows metas fk, r.catalog.First r.sql item u ∧ r.fetchColumns u.id = .ok columns ∧
        r.fetchRefs (some (formatOptional u.db)) (formatOptional u.schemaName) (formatOptional u.originalName) =
          .ok rows ∧
        columns.mapM r.catalog.columnMeta = .ok metas ∧ rows.mapM RefRow.refMeta = .ok fk ∧
        response = {
          tableInfo := TableDetail.tableInfo ⟨u, u.datasourceId.bind fun id =>
            r.catalog.datasources.find? fun ds => ds.id = id, columns, rows⟩
          columns := metas
          fk := fk } := by
  rw [MetaRepository.getTable, Except.bind_eq_ok]
  constructor
  · rintro ⟨detail, hdetail, hanswer⟩
    cases detail with
    | none => cases hanswer
    | some detail =>
      obtain ⟨metas, hmetas, hanswer⟩ := Except.bind_eq_ok.1 hanswer
      obtain ⟨fk, hfk, hanswer⟩ := Except.bind_eq_ok.1 hanswer
      cases hanswer
      rw [MetaRepository.fetchTableDetail] at hdetail
      cases hfirst : r.catalog.firstNamed r.sql item.db item.schemaName item.tableName with
      | none =>
        rw [hfirst] at hdetail
        cases hdetail
      | some u =>
        rw [hfirst] at hdetail
        obtain ⟨columns, hcolumns, hdetail⟩ := Except.bind_eq_ok.1 hdetail
        obtain ⟨rows, hrows, hdetail⟩ := Except.bind_eq_ok.1 hdetail
        cases hdetail
        exact ⟨u, columns, rows, metas, fk, firstNamed_eq_some.1 hfirst, hcolumns, hrows, hmetas, hfk, rfl⟩
  · rintro ⟨u, columns, rows, metas, fk, hfirst, hcolumns, hrows, hmetas, hfk, rfl⟩
    refine ⟨some ⟨u, _, columns, rows⟩, ?_, Except.bind_eq_ok.2 ⟨metas, hmetas, Except.bind_eq_ok.2 ⟨fk, hfk, rfl⟩⟩⟩
    rw [MetaRepository.fetchTableDetail, firstNamed_eq_some.2 hfirst]
    exact Except.bind_eq_ok.2 ⟨columns, hcolumns, Except.bind_eq_ok.2 ⟨rows, hrows, rfl⟩⟩

/-- A listed table is answered under the names of its item iff it is addressed by them. -/
theorem answers_iff_addressed (ht : t ∈ r.catalog.tables) (hlisted : t.Listed item) :
    (∃ response, r.getTable item.db item.schemaName item.tableName = .ok (some response) ∧
      r.catalog.Answers r.sql t item response) ↔ r.catalog.Addressed r.sql t item := by
  constructor
  · rintro ⟨response, hget, hanswers⟩
    obtain ⟨u, columns, rows, metas, fk, hfirst, hcolumns, hrows, hmetas, hfk, rfl⟩ := getTable_eq_some.1 hget
    have htexts : some (formatOptional u.db) = item.db ∧ formatOptional u.schemaName = item.schemaName ∧
        formatOptional u.originalName = item.tableName := ⟨hanswers.db, hanswers.schemaName, hanswers.tableName⟩
    obtain ⟨hlabel, hulisted⟩ := (listed_iff_texts hfirst.named).1 htexts
    rw [htexts.1, htexts.2.1, htexts.2.2] at hrows
    obtain ⟨hsame, hpositions⟩ := exists_columns_iff.1 ⟨columns, metas, hcolumns, hmetas, hanswers.columns⟩
    obtain ⟨hown, hentries⟩ := (exists_fk_iff ht hlisted).1 ⟨rows, fk, hrows, hfk, hanswers.fk⟩
    exact ⟨hlabel, ⟨u, hfirst, hulisted, hsame, hpositions⟩, hown, hentries⟩
  · rintro ⟨hlabel, ⟨u, hfirst, hulisted, hsame, hpositions⟩, hown, hentries⟩
    have htexts := (listed_iff_texts hfirst.named).2 ⟨hlabel, hulisted⟩
    obtain ⟨columns, metas, hcolumns, hmetas, hts⟩ := exists_columns_iff.2 ⟨hsame, hpositions⟩
    obtain ⟨rows, fk, hrows, hfk, hrefs⟩ := (exists_fk_iff ht hlisted).2 ⟨hown, hentries⟩
    rw [← htexts.1, ← htexts.2.1, ← htexts.2.2] at hrows
    exact ⟨_, getTable_eq_some.2 ⟨u, columns, rows, metas, fk, hfirst, hcolumns, hrows, hmetas, hfk, rfl⟩,
      htexts.1, htexts.2.1, htexts.2.2, hts, hrefs⟩

end

/-! ## Listings -/

section
variable {r : MetaRepository} {items : List TableKey}

theorem batchItem_eq_ok {t : MetaTable} {item : TableKey} :
    ListedTable.batchItem ⟨t.db, t.schemaName, t.originalName⟩ = .ok item ↔ t.Listed item := by
  constructor
  · intro h
    cases hschema : t.schemaName with
    | none =>
      rw [hschema] at h
      cases h
    | some s =>
      cases hname : t.originalName with
      | none =>
        rw [hschema, hname] at h
        cases h
      | some n =>
        rw [hschema, hname] at h
        cases h
        exact ⟨rfl, hschema, hname⟩
  · rintro ⟨hdb, hschema, hname⟩
    rw [hdb, hschema, hname]
    rfl

/-- Every item of a listing lists a table. -/
theorem exists_listed_of_mem (h : r.listBatch = .ok items) {item : TableKey} (hitem : item ∈ items) :
    ∃ t ∈ r.catalog.tables, t.Listed item := by
  obtain ⟨row, hrow, hok⟩ := Except.exists_of_mem_mapM_eq_ok h hitem
  obtain ⟨t, ht, rfl⟩ := List.mem_map.1 hrow
  exact ⟨t, (r.tableOrder_perm _).mem_iff.1 ht, batchItem_eq_ok.1 hok⟩

/-- **The items of a listing lead back to its tables**, as far as their names do. -/
theorem answers_of_addressed (h : r.listBatch = .ok items) :
    ∀ item ∈ items, (∃ t ∈ r.catalog.tables, t.Listed item) ∧
      ∀ t ∈ r.catalog.tables, t.Listed item → r.catalog.Addressed r.sql t item →
        ∃ response, r.getTable item.db item.schemaName item.tableName = .ok (some response) ∧
          r.catalog.Answers r.sql t item response :=
  fun _ hitem => ⟨exists_listed_of_mem h hitem, fun _ ht hlisted => (answers_iff_addressed ht hlisted).2⟩

end

/-! ### The plants of a basin -/

def basinTable : MetaTable :=
  { id := 1, db := some "RWIS", schemaName := some "RWIS", name := some "basin", originalName := some "basin" }

def plantTable : MetaTable :=
  { id := 2, db := some "RWIS", schemaName := some "RWIS", name := some "plant", originalName := some "plant" }

def plantItem : TableKey := ⟨some "RWIS", "RWIS", "plant"⟩

/-- A plant lies in a basin. -/
def basinRows : MetaRepository := .ofCatalog {
  tables := [basinTable, plantTable]
  columns := [
    { id := 10, tableId := 1, name := "basin_code", isPrimaryKey := true },
    { id := 20, tableId := 2, name := "basin_code", metadata := some (.obj [("is_unique", .bool false)]) }]
  fkConstraints := [{ fromColumnId := 20, toColumnId := 10 }]
  nodup_tables := by decide
  nodup_columns := by decide } .ascii

theorem addressed_plant : basinRows.catalog.Addressed basinRows.sql plantTable plantItem where
  labelled := Option.some_ne_none _
  first := ⟨plantTable, ⟨by decide, by decide +kernel, by decide +kernel⟩, ⟨rfl, rfl, rfl⟩,
    ⟨_, _, rfl, rfl, .refl _⟩, List.forall_mem_singleton.2 ⟨none, rfl⟩⟩
  own := List.forall_mem_singleton.2 fun _ => rfl
  entries := List.forall_mem_singleton.2 ⟨_, _, rfl, rfl⟩

/-- The item of the plants leads back to them and to their foreign key. -/
theorem answers_of_addressed_plant :
    basinRows.listBatch = .ok [⟨some "RWIS", "RWIS", "basin"⟩, plantItem] ∧
      ∃ response, basinRows.getTable plantItem.db plantItem.schemaName plantItem.tableName = .ok (some response) ∧
        basinRows.catalog.Answers basinRows.sql plantTable plantItem response :=
  ⟨rfl, (answers_of_addressed (r := basinRows) rfl plantItem (by decide)).2 plantTable (by decide) ⟨rfl, rfl, rfl⟩
    addressed_plant⟩

/-! ### Names that differ in case -/

/-- Two tables whose names are equal up to letter case. -/
def gaugeRows : MetaRepository := .ofCatalog {
  tables := [
    { id := 1, db := some "RWIS", schemaName := some "RWIS", name := some "GAUGE", originalName := some "GAUGE" },
    { id := 2, db := some "RWIS", schemaName := some "RWIS", name := some "gauge", originalName := some "gauge" }]
  columns := [
    { id := 10, tableId := 1, name := "GAUGE_CODE" },
    { id := 20, tableId := 2, name := "level" }]
  fkConstraints := []
  nodup_tables := by decide
  nodup_columns := by decide } .ascii

/-- The item of the second table leads to the first one. -/
theorem not_forall_answers :
    ¬ ∀ (r : MetaRepository) (items : List TableKey), r.listBatch = .ok items →
      ∀ item ∈ items, ∃ t ∈ r.catalog.tables, t.Listed item ∧
        ∃ response, r.getTable item.db item.schemaName item.tableName = .ok (some response) ∧
          r.catalog.Answers r.sql t item response := by
  intro h
  obtain ⟨t, -, -, response, hget, hanswers⟩ := h gaugeRows
    [⟨some "RWIS", "RWIS", "GAUGE"⟩, ⟨some "RWIS", "RWIS", "gauge"⟩] rfl ⟨some "RWIS", "RWIS", "gauge"⟩ (by decide)
  have hfirst : (gaugeRows.getTable (some "RWIS") "RWIS" "gauge").toOption.map
      (Option.map fun response => response.tableInfo.tableName) = some (some "GAUGE") := by
    decide +kernel
  rw [hget] at hfirst
  exact absurd (hanswers.tableName.symm.trans (Option.some.inj (Option.some.inj hfirst))) (by decide)

end RoboMeta
