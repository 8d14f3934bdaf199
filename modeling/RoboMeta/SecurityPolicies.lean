/-
  The security policies of an artifact (`services/artifact_selector.py`).

  The hard filter reads one security policy of the payload, the first.  So the
  order of the policies counts, and those behind the first one do not.

  * `hardFilter_of_available`, `hardFilter_of_not_available`: the filter apart
    from its last check, and that check;
  * `policiesEnforced_iff`: when every policy is enforced, in any order.
-/
import RoboMeta.Bundle

namespace RoboMeta

section
variable {α : Type*} {p : α → Bool} {q : α → Prop} {l l' : List α} {x : α}

/-! ## The first of a list -/

theorem exists_find?_iff_of_agree (h : ∀ x ∈ l, ∀ y ∈ l, p x → p y → (q x ↔ q y)) :
    (∃ x ∈ l.find? p, q x) ↔ ∃ x ∈ l, p x ∧ q x := by
  constructor
  · rintro ⟨x, hx, hq⟩
    exact ⟨x, List.mem_of_find?_eq_some hx, List.find?_some hx, hq⟩
  · rintro ⟨x, hx, hp, hq⟩
    obtain ⟨y, hy⟩ := Option.isSome_iff_exists.1 (List.find?_isSome.2 ⟨x, hx, hp⟩)
    exact ⟨y, hy, (h x hx y (List.mem_of_find?_eq_some hy) hp (List.find?_some hy)).1 hq⟩

/-- Each of the elements sought is the first in some order. -/
theorem exists_perm_find?_eq_some (hx : x ∈ l) (hp : p x) : ∃ l' : List α, l'.Perm l ∧ l'.find? p = some x := by
  obtain ⟨l₁, l₂, rfl⟩ := List.append_of_mem hx
  exact ⟨x :: (l₁ ++ l₂), List.perm_middle.symm, List.find?_cons_of_pos hp⟩

end

/-! ## The checks before the last -/

/-- The artifact passes every check but that of the roles. -/
structure Available (access : Access) (record : Record) : Prop where
  tenant : record.tenantId = some access.tenantId
  published : record.status = some .published
  ready : record.readiness = some .ready
  from_ : ∀ t ∈ given record.validFrom, t ≤ access.now
  to_ : ∀ t ∈ given record.validTo, access.now ≤ t
  snapshot : record.snapshotId ∈ access.knownSnapshotIds

theorem servable_iff {access : Access} {record : Record} :
    Servable access record ↔
      Available access record ∧ ∀ policy ∈ record.payload.security, ¬ policy.denies access.roles :=
  ⟨fun h => ⟨⟨h.tenant, h.published, h.ready, h.from_, h.to_, h.snapshot⟩, h.role⟩,
    fun ⟨h, hrole⟩ => ⟨h.tenant, h.published, h.ready, h.from_, h.to_, h.snapshot, hrole⟩⟩

def Record.withPolicies (record : Record) (policies : List Policy) : Record :=
  { record with payload := { record.payload with policies := policies } }

section
variable {access : Access} {record : Record} {policies : List Policy}

theorem available_withPolicies : Available access (record.withPolicies policies) ↔ Available access record :=
  ⟨fun h => ⟨h.tenant, h.published, h.ready, h.from_, h.to_, h.snapshot⟩,
    fun h => ⟨h.tenant, h.published, h.ready, h.from_, h.to_, h.snapshot⟩⟩

theorem hardFilter_of_available (h : Available access record) :
    hardFilter access record =
      if ∃ policy ∈ record.payload.security, policy.denies access.roles then some .roleDenied else none :=
  hardFilter_of_checks h.tenant h.published h.ready h.from_ h.to_ h.snapshot

/-- An artifact that an earlier check rejects is rejected for that reason,
    whatever its policies. -/
theorem hardFilter_of_not_available (h : ¬ Available access record) :
    hardFilter access (record.withPolicies policies) = hardFilter access record := by
  refine ite_congr rfl (fun _ => rfl) fun htenant => ite_congr rfl (fun _ => rfl) fun hpublished =>
    ite_congr rfl (fun _ => rfl) fun hready => ite_congr rfl (fun _ => rfl) fun hfrom =>
    ite_congr rfl (fun _ => rfl) fun hto => ite_congr rfl (fun _ => rfl) fun hsnapshot => absurd ?_ h
  exact {
    tenant := not_not.1 htenant
    published := not_not.1 hpublished
    ready := not_not.1 hready
    from_ := fun t ht => not_lt.1 fun hlt => hfrom ⟨t, ht, hlt⟩
    to_ := fun t ht => not_lt.1 fun hlt => hto ⟨t, ht, hlt⟩
    snapshot := not_not.1 hsnapshot }

end

/-! ## Enforcement -/

/-- Of every security policy that names roles, an accepted caller has one. -/
def PoliciesEnforced (access : Access) (record : Record) : Prop :=
  hardFilter access record = none → ∀ policy ∈ record.payload.policies, policy.policyType = .security →
    policy.allowedRoles ≠ [] → ∃ r ∈ policy.allowedRoles, r ∈ access.roles

def OrderFree (access : Access) (record : Record) : Prop :=
  ∀ policies, policies.Perm record.payload.policies →
    hardFilter access (record.withPolicies policies) = hardFilter access record

/-- The security policies are of one mind about the caller. -/
def PoliciesAgree (access : Access) (record : Record) : Prop :=
  ∀ p ∈ record.payload.policies, ∀ q ∈ record.payload.policies,
    p.policyType = .security → q.policyType = .security → (p.denies access.roles ↔ q.denies access.roles)

theorem Policy.not_denies_iff {policy : Policy} {roles : List String} :
    ¬ policy.denies roles ↔ policy.allowedRoles ≠ [] → ∃ r ∈ policy.allowedRoles, r ∈ roles := by
  simp [Policy.denies]

section
variable {access : Access} {record : Record}

theorem denied_iff_of_agree (h : PoliciesAgree access record) {policies : List Policy}
    (hperm : policies.Perm record.payload.policies) :
    (∃ policy ∈ policies.find? fun p => p.policyType = .security, policy.denies access.roles) ↔
      ∃ policy ∈ record.payload.policies, policy.policyType = .security ∧ policy.denies access.roles := by
  rw [exists_find?_iff_of_agree fun p hp q hq hps hqs =>
    h p (hperm.mem_iff.1 hp) q (hperm.mem_iff.1 hq) (of_decide_eq_true hps) (of_decide_eq_true hqs)]
  simp only [hperm.mem_iff, decide_eq_true_eq]

theorem policiesEnforced_of_agree (h : PoliciesAgree access record) : PoliciesEnforced access record := by
  intro hnone policy hpolicy hsecurity
  rw [hardFilter_eq_none_iff] at hnone
  refine Policy.not_denies_iff.1 fun hdenies => ?_
  obtain ⟨first, hfirst, hdenies⟩ := (denied_iff_of_agree h (List.Perm.refl _)).2 ⟨policy, hpolicy, hsecurity, hdenies⟩
  exact hnone.role first hfirst hdenies

theorem orderFree_of_agree (h : PoliciesAgree access record) : OrderFree access record := by
  intro policies hperm
  by_cases havailable : Available access record
  · rw [hardFilter_of_available havailable, hardFilter_of_available (available_withPolicies.2 havailable)]
    have hsame := (denied_iff_of_agree h hperm).trans (denied_iff_of_agree h (List.Perm.refl _)).symm
    exact if_congr hsame rfl rfl
  · exact hardFilter_of_not_available havailable

/-- If the order of the policies does not count, all security policies judge
    as the first one does. -/
theorem agree_of_orderFree (havailable : Available access record) (h : OrderFree access record) :
    PoliciesAgree access record := by
  have hfirst : ∀ p ∈ record.payload.policies, p.policyType = .security →
      (p.denies access.roles ↔ hardFilter access record ≠ none) := by
    intro p hp hsecurity
    obtain ⟨policies, hperm, hfind⟩ := exists_perm_find?_eq_some (p := fun p => p.policyType = .security) hp
      (decide_eq_true hsecurity)
    have hsecurity : (record.withPolicies policies).payload.security = some p := hfind
    rw [← h policies hperm, hardFilter_of_available (available_withPolicies.2 havailable), hsecurity]
    simp
  exact fun p hp q hq hps hqs => (hfirst p hp hps).trans (hfirst q hq hqs).symm

end

/-- **Every security policy is enforced**, in any order of the policies, iff an
    earlier check rejects the artifact or its security policies agree. -/
theorem policiesEnforced_iff (access : Access) (record : Record) :
    PoliciesEnforced access record ∧ OrderFree access record ↔
      (Available access record → PoliciesAgree access record) := by
  constructor
  · rintro ⟨-, horder⟩ havailable
    exact agree_of_orderFree havailable horder
  · intro h
    by_cases havailable : Available access record
    · exact ⟨policiesEnforced_of_agree (h havailable), orderFree_of_agree (h havailable)⟩
    · refine ⟨fun hnone => ?_, fun policies _ => hardFilter_of_not_available havailable⟩
      exact absurd (servable_iff.1 (hardFilter_eq_none_iff.1 hnone)).1 havailable

/-- The rainfall artifact with a security policy for everybody and one for
    publishers, in this order. -/
def shadowed : Record := rainfall.withPolicies [⟨.security, []⟩, ⟨.security, ["PUBLISHER"]⟩]

/-- A policy for everybody hides those behind it. -/
theorem policiesEnforced_shadowed :
    ¬ (PoliciesEnforced rainfallArgs.toAccess shadowed ∧ OrderFree rainfallArgs.toAccess shadowed) := by
  rintro ⟨henforced, -⟩
  have haccepted : hardFilter rainfallArgs.toAccess shadowed = none := by decide
  obtain ⟨r, hr, hrole⟩ := henforced haccepted ⟨.security, ["PUBLISHER"]⟩ (by decide) rfl (by decide)
  have hnone : ∀ r ∈ ["PUBLISHER"], r ∉ rainfallArgs.roles := by decide
  exact hnone r hr hrole

end RoboMeta
