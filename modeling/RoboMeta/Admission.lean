/-
  Two ways to an artifact.

  `/v2/data_decision` serves what the hard filter lets pass; `/query/execute`
  takes the first artifact of the asked id that the store lists.  What the stores
  list is no more than the tenant's artifacts, and for the Postgres store the
  published ones: the rest of the hard filter is left to chance.

  * `tenant_of_listed`, `published_of_listed`: what the two listings guarantee;
  * `Unchecked`: what is left over of the hard filter;
  * `resolved_admitted_iff`.
-/
import RoboMeta.Lib.Outcome
import RoboMeta.Decision

namespace RoboMeta

/-- The two implementations of the store. -/
inductive StoreContent (K : Type) where
  | inMemory (store : InMemoryV2Store K)
  | postgres (store : PostgresV2Store K)

variable {K : Type}

def StoreContent.reads : StoreContent K → V2Store K
  | inMemory store => store.reads
  | postgres store => store.reads

/-- The content lists the published artifacts only. -/
def StoreContent.ListsPublished : StoreContent K → Prop
  | inMemory _ => False
  | postgres _ => True

/-! ## Listings -/

/-- What the query over the table has checked. -/
theorem PostgresV2Store.checked_of_listed {store : PostgresV2Store K} {tenantId : String} {r : Record}
    (h : r ∈ store.listPublishedArtifacts tenantId) : r.tenantId = some tenantId ∧ r.status = some .published := by
  obtain ⟨row, hrow, rfl⟩ := List.mem_map.1 h
  have hkept := (List.mem_filter.1 hrow).2
  simp only [Bool.decide_and, Bool.and_eq_true, decide_eq_true_eq] at hkept
  rw [ArtifactRow.record, hkept.1, hkept.2]
  exact ⟨rfl, rfl⟩

theorem StoreContent.tenant_of_listed {content : StoreContent K} {tenantId : String} {r : Record}
    (h : r ∈ content.reads.listPublishedArtifacts tenantId) : r.tenantId = some tenantId := by
  cases content with
  | inMemory store => simpa using (List.mem_filter.1 h).2
  | postgres store => exact (PostgresV2Store.checked_of_listed h).1

theorem StoreContent.published_of_listed {content : StoreContent K} (hpublished : content.ListsPublished)
    {tenantId : String} {r : Record} (h : r ∈ content.reads.listPublishedArtifacts tenantId) :
    r.status = some .published := by
  cases content with
  | inMemory store => exact hpublished.elim
  | postgres store => exact (PostgresV2Store.checked_of_listed h).2

/-! ## Admission -/

/-- Who asks for an artifact, by the snapshots that the store knows. -/
def accessOf (content : StoreContent K) (auth : AuthContext) (now : String) : Access where
  tenantId := auth.tenantId
  roles := auth.roles
  now := now
  knownSnapshotIds := content.reads.knownSnapshotIds auth.tenantId

/-- What the listing does not see to. -/
structure Unchecked (content : StoreContent K) (access : Access) (r : Record) : Prop where
  published : ¬ content.ListsPublished → r.status = some .published
  ready : r.readiness = some .ready
  from_ : ∀ t ∈ given r.validFrom, t ≤ access.now
  to_ : ∀ t ∈ given r.validTo, access.now ≤ t
  snapshot : r.snapshotId ∈ access.knownSnapshotIds
  role : ∀ policy ∈ r.payload.security, ¬ policy.denies access.roles

theorem hardFilter_listed_iff {content : StoreContent K} {auth : AuthContext} {now : String} {r : Record}
    (hlisted : r ∈ content.reads.listPublishedArtifacts auth.tenantId) :
    hardFilter (accessOf content auth now) r = none ↔ Unchecked content (accessOf content auth now) r := by
  rw [hardFilter_eq_none_iff]
  constructor
  · intro hs
    exact ⟨fun _ => hs.published, hs.ready, hs.from_, hs.to_, hs.snapshot, hs.role⟩
  · intro hu
    refine ⟨StoreContent.tenant_of_listed hlisted, ?_, hu.ready, hu.from_, hu.to_, hu.snapshot, hu.role⟩
    by_cases hp : content.ListsPublished
    · exact StoreContent.published_of_listed hp hlisted
    · exact hu.published hp

/-- The payload that is resolved is that of the first record listed under the id. -/
theorem resolveArtifactPayload_eq_ok {U : Unicode} {deps : V2Deps K} {auth : AuthContext}
    {authorization artifactId : String} {payload : Payload} (hauth : getAuth U deps authorization = .ok auth)
    (h : resolveArtifactPayload U (some deps) authorization artifactId = .ok payload) :
    ∃ r, resolveRecord deps.store auth.tenantId artifactId = some r ∧ r.payload = payload := by
  obtain ⟨auth', hauth', h⟩ := Except.bind_eq_ok.1 h
  cases hauth.symm.trans hauth'
  split at h
  · rename_i r hr
    exact ⟨r, hr, Except.ok.inj h⟩
  · cases h

/-- **Admission.**  The artifact that `/query/execute` resolves passes the hard
    filter iff it meets by itself what its listing does not see to. -/
theorem resolved_admitted_iff {U : Unicode} {deps : V2Deps K} {content : StoreContent K} {auth : AuthContext}
    {authorization now artifactId : String} {payload : Payload}
    (hauth : getAuth U { deps with store := content.reads } authorization = .ok auth)
    (h : resolveArtifactPayload U (some { deps with store := content.reads }) authorization artifactId =
      .ok payload) :
    ∃ r, resolveRecord content.reads auth.tenantId artifactId = some r ∧ r.payload = payload ∧
      (hardFilter (accessOf content auth now) r = none ↔
        Unchecked content (accessOf content auth now) r) := by
  obtain ⟨r, hr, hpayload⟩ := resolveArtifactPayload_eq_ok hauth h
  exact ⟨r, hr, hpayload, hardFilter_listed_iff (List.mem_of_find?_eq_some hr)⟩

/-! ## An expired artifact -/

/-- The artifact expired on the first of July. -/
def expired : ArtifactRow where
  artifactId := "art-rainfall"
  tenantId := "kwater"
  status := .published
  readiness := some .ready
  validFrom := none
  validTo := some ⟨2026, 7, 1, 0, 0, 0⟩
  snapshotId := "snap-1"
  payload := {}
  payloadSha256 := "0"

def expiredContent : StoreContent ℚ := .postgres {
  semanticArtifacts := [expired]
  artifactEmbeddingRows := []
  physicalSnapshots := [⟨"snap-1", "kwater", { tenantId := some "kwater" }⟩]
  terms := []
  synonyms := [] }

theorem resolved_admitted_iff_expired :
    ∃ r, resolveRecord expiredContent.reads "kwater" "art-rainfall" = some r ∧ r.payload = {} ∧
      (hardFilter (accessOf expiredContent internalAuth "2026-07-13T02:00:00Z") r = none ↔
        Unchecked expiredContent (accessOf expiredContent internalAuth "2026-07-13T02:00:00Z") r) := by
  have hauth : getAuth .ascii { closedNetwork with store := expiredContent.reads } "" = .ok internalAuth := rfl
  have hresolved : resolveArtifactPayload .ascii (some { closedNetwork with store := expiredContent.reads }) ""
      "art-rainfall" = .ok {} := rfl
  exact resolved_admitted_iff hauth hresolved

theorem not_forall_resolved_admitted :
    ¬ ∀ (U : Unicode) (deps : V2Deps ℚ) (content : StoreContent ℚ) (auth : AuthContext)
      (authorization now artifactId : String) (r : Record),
      getAuth U { deps with store := content.reads } authorization = .ok auth →
      resolveRecord content.reads auth.tenantId artifactId = some r →
      resolveArtifactPayload U (some { deps with store := content.reads }) authorization artifactId =
        .ok r.payload →
      hardFilter (accessOf content auth now) r = none := by
  intro h
  have hnone := h .ascii closedNetwork expiredContent internalAuth "" "2026-07-13T02:00:00Z" "art-rainfall"
    expired.record rfl rfl rfl
  exact absurd hnone (by decide +kernel)

end RoboMeta
