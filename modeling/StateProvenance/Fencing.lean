import StateProvenance.Reachable

/-! What a fenced publish admits. The fence looks at the claim and at nothing else: a record is current in
the dimensions in which it repeats its claim. -/

namespace StateProvenance

open Std Library.OrderedMap

def Agrees {Tag : Type} (value current : ScalarIdentifier Tag) : Prop :=
  value = {} ∨ current = {} ∨ value = current

def AgreesBoot (a : AuthorityState) (w : WorkerId) (b : WorkerBootId) : Prop :=
  ∀ cur, a.bootOf w = some cur → Agrees b cur

structure RecordCurrent (a : AuthorityState) (d : RecordData) : Prop where
  epoch : d.coordinatorEpoch = 0 ∨ a.epoch = 0 ∨ d.coordinatorEpoch = a.epoch
  boot : AgreesBoot a d.workerId d.workerBoot
  attemptId : Agrees d.attemptId a.attemptId
  attemptGeneration : Agrees d.attemptGeneration a.attemptGeneration
  stateGeneration : Agrees d.stateGeneration a.stateGeneration
  provenanceGeneration : Agrees d.provenanceGeneration a.provenanceGeneration
  artifactGeneration : Agrees d.artifactGeneration a.artifactGeneration
  modelGeneration : Agrees d.modelGeneration a.modelGeneration
  adapterGeneration : Agrees d.adapterGeneration a.adapterGeneration
  compositionGeneration : Agrees d.compositionGeneration a.compositionGeneration
  policyGeneration : Agrees d.policyGeneration a.policyGeneration

structure ClaimCurrent (a : AuthorityState) (c : AuthorityClaim) : Prop where
  epoch : c.coordinatorEpoch = a.epoch
  boot : c.workerId = {} ∨ a.bootOf c.workerId = some c.workerBoot
  attemptId : Agrees c.attemptId a.attemptId
  attemptGeneration : Agrees c.attemptGeneration a.attemptGeneration
  stateGeneration : Agrees c.stateGeneration a.stateGeneration
  provenanceGeneration : Agrees c.provenanceGeneration a.provenanceGeneration
  artifactGeneration : a.artifactGeneration = {} ∨ ∀ g ∈ c.artifactGeneration, g = a.artifactGeneration
  modelGeneration : a.modelGeneration = {} ∨ ∀ g ∈ c.modelGeneration, g = a.modelGeneration
  adapterGeneration : a.adapterGeneration = {} ∨ ∀ g ∈ c.adapterGeneration, g = a.adapterGeneration
  compositionGeneration : a.compositionGeneration = {} ∨
    ∀ g ∈ c.compositionGeneration, g = a.compositionGeneration
  policyGeneration : a.policyGeneration = {} ∨ ∀ g ∈ c.policyGeneration, g = a.policyGeneration
  dependencyGeneration : a.dependencyGeneration = {} ∨
    ∀ g ∈ c.dependencyGeneration, g = a.dependencyGeneration

structure RepeatedCurrent (a : AuthorityState) (d : RecordData) (c : AuthorityClaim) : Prop where
  epoch : d.coordinatorEpoch = c.coordinatorEpoch → d.coordinatorEpoch = a.epoch
  boot : d.workerId = c.workerId → d.workerBoot = c.workerBoot →
    d.workerId = {} ∨ a.bootOf d.workerId = some d.workerBoot
  attemptId : d.attemptId = c.attemptId → Agrees d.attemptId a.attemptId
  attemptGeneration : d.attemptGeneration = c.attemptGeneration →
    Agrees d.attemptGeneration a.attemptGeneration
  stateGeneration : d.stateGeneration = c.stateGeneration → Agrees d.stateGeneration a.stateGeneration
  provenanceGeneration : d.provenanceGeneration = c.provenanceGeneration →
    Agrees d.provenanceGeneration a.provenanceGeneration
  artifactGeneration : some d.artifactGeneration = c.artifactGeneration →
    Agrees d.artifactGeneration a.artifactGeneration
  modelGeneration : some d.modelGeneration = c.modelGeneration → Agrees d.modelGeneration a.modelGeneration
  adapterGeneration : some d.adapterGeneration = c.adapterGeneration →
    Agrees d.adapterGeneration a.adapterGeneration
  compositionGeneration : some d.compositionGeneration = c.compositionGeneration →
    Agrees d.compositionGeneration a.compositionGeneration
  policyGeneration : some d.policyGeneration = c.policyGeneration →
    Agrees d.policyGeneration a.policyGeneration

lemma accepted_iff_claimCurrent (a : AuthorityState) (c : AuthorityClaim) :
    (a.evaluateClaim c).accepted = true ↔ ClaimCurrent a c := by
  rw [AuthorityState.evaluateClaim_accepted_iff]
  simp only [AuthorityState.fences, List.forall_mem_cons, AuthorityState.epochFence_eq_none,
    AuthorityState.bootFence_eq_none, AuthorityState.staleFence_eq_none,
    AuthorityState.generationFence_eq_none, List.not_mem_nil, false_implies, implies_true, and_true]
  constructor
  · rintro ⟨he, hb, ha, hag, hs, hp, har, hm, had, hc, hpo, hd⟩
    exact ⟨he, hb, ha, hag, hs, hp, har, hm, had, hc, hpo, hd⟩
  · rintro ⟨he, hb, ha, hag, hs, hp, har, hm, had, hc, hpo, hd⟩
    exact ⟨he, hb, ha, hag, hs, hp, har, hm, had, hc, hpo, hd⟩

lemma agrees_of_generation {Tag : Type} {value current : ScalarIdentifier Tag}
    {claimed : Option (ScalarIdentifier Tag)} (h : current = {} ∨ ∀ g ∈ claimed, g = current)
    (hv : some value = claimed) : Agrees value current := by
  cases h with
  | inl hnull => exact Or.inr (Or.inl hnull)
  | inr heq => exact Or.inr (Or.inr (heq value hv.symm))

lemma ClaimCurrent.repeated {a : AuthorityState} {c : AuthorityClaim} (h : ClaimCurrent a c) (d : RecordData) :
    RepeatedCurrent a d c where
  epoch := fun he => he.trans h.epoch
  boot := by
    intro hw hb
    rw [hw, hb]
    exact h.boot
  attemptId := fun hd => hd ▸ h.attemptId
  attemptGeneration := fun hd => hd ▸ h.attemptGeneration
  stateGeneration := fun hd => hd ▸ h.stateGeneration
  provenanceGeneration := fun hd => hd ▸ h.provenanceGeneration
  artifactGeneration := agrees_of_generation h.artifactGeneration
  modelGeneration := agrees_of_generation h.modelGeneration
  adapterGeneration := agrees_of_generation h.adapterGeneration
  compositionGeneration := agrees_of_generation h.compositionGeneration
  policyGeneration := agrees_of_generation h.policyGeneration

namespace ProvenanceStore

def Publishes (s : ProvenanceStore) (d : RecordData) (c : AuthorityClaim) : Prop :=
  ∃ o, (s.publishFenced d c).1 = .ok o ∧ o.ok = true

lemma accepted_of_publishes {s : ProvenanceStore} {d : RecordData} {c : AuthorityClaim}
    (h : s.Publishes d c) : (s.authority.evaluateClaim c).accepted = true := by
  obtain ⟨o, hres, hok⟩ := h
  rw [publishFenced] at hres
  cases hr : s.rejection d c with
  | none => exact accepted_of_rejection hr
  | some r =>
    obtain ⟨error, rfl⟩ := rejection_eq_some hr
    rw [hr] at hres
    cases hres
    contradiction

theorem publishes_current {s : ProvenanceStore} {d : RecordData} {c : AuthorityClaim}
    (h : s.Publishes d c) : ClaimCurrent s.authority c ∧ RepeatedCurrent s.authority d c := by
  have hcurrent := (accepted_iff_claimCurrent _ _).mp (accepted_of_publishes h)
  exact ⟨hcurrent, hcurrent.repeated d⟩

def attemptStore : ProvenanceStore := ({} : ProvenanceStore).applyAuthority (.beginAttempt ⟨7⟩ ⟨3⟩)

def attemptRecord : RecordData :=
  { RecordData.produced 1 with attemptId := ⟨7⟩, attemptGeneration := ⟨3⟩ }

def attemptClaim : AuthorityClaim where
  attemptId := ⟨7⟩
  attemptGeneration := ⟨3⟩
  coordinatorEpoch := 1

theorem attempt_publishes_current : ClaimCurrent attemptStore.authority attemptClaim ∧
    RepeatedCurrent attemptStore.authority attemptRecord attemptClaim :=
  publishes_current ⟨{ ok := true, record := some ⟨attemptRecord⟩ }, rfl, rfl⟩

theorem stale_record_published :
    ¬ ∀ s, Reachable s → ∀ d c, s.Publishes d c → RecordCurrent s.authority d := by
  -- The record names attempt 1 and travels under a claim of the current attempt 7.
  intro h
  have hcurrent := h attemptStore (.applyAuthority .empty _) { attemptRecord with attemptId := ⟨1⟩ }
    attemptClaim ⟨{ ok := true, record := some ⟨_⟩ }, rfl, rfl⟩
  have hattempt := hcurrent.attemptId
  revert hattempt
  rw [Agrees]
  decide

end ProvenanceStore

end StateProvenance
