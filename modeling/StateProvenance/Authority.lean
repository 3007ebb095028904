import StateProvenance.Ids

/-! Mutation authority and fencing. A claim is accepted when no fence rejects it; the first fence that
does decides the verdict. -/

namespace StateProvenance

open Std Library.OrderedMap

inductive FenceOutcome
  | accept | reject
deriving DecidableEq

structure FenceVerdict where
  outcome : FenceOutcome := .reject
  dimension : String := ""
  detail : String := ""
deriving DecidableEq

def FenceVerdict.accepted (v : FenceVerdict) : Bool := v.outcome = .accept

structure AuthorityClaim where
  workerId : WorkerId := {}
  workerBoot : WorkerBootId := {}
  attemptId : AttemptId := {}
  attemptGeneration : AttemptGeneration := {}
  stateGeneration : StateGeneration := {}
  provenanceGeneration : ProvenanceGeneration := {}
  coordinatorEpoch : UInt64 := 0
  artifactGeneration : Option ArtifactGeneration := none
  modelGeneration : Option ModelGeneration := none
  adapterGeneration : Option AdapterGeneration := none
  compositionGeneration : Option CompositionGeneration := none
  policyGeneration : Option PolicyGeneration := none
  dependencyGeneration : Option DependencyGeneration := none

@[ext] structure AuthorityState where
  epoch : UInt64 := 1
  boot : OrdMap WorkerId WorkerBootId := ∅
  attemptId : AttemptId := {}
  attemptGeneration : AttemptGeneration := {}
  stateGeneration : StateGeneration := {}
  provenanceGeneration : ProvenanceGeneration := {}
  artifactGeneration : ArtifactGeneration := {}
  modelGeneration : ModelGeneration := {}
  adapterGeneration : AdapterGeneration := {}
  compositionGeneration : CompositionGeneration := {}
  policyGeneration : PolicyGeneration := {}
  dependencyGeneration : DependencyGeneration := {}

namespace AuthorityState

def rollEpoch (a : AuthorityState) : AuthorityState := { a with epoch := a.epoch + 1 }

def setEpoch (a : AuthorityState) (e : UInt64) : AuthorityState :=
  { a with epoch := if e = 0 then 1 else e }

def registerBoot (a : AuthorityState) (worker : WorkerId) (boot : WorkerBootId) : AuthorityState :=
  { a with boot := a.boot.insert worker boot }

def bootOf (a : AuthorityState) (worker : WorkerId) : Option WorkerBootId := a.boot[worker]?

def beginAttempt (a : AuthorityState) (id : AttemptId) (gen : AttemptGeneration) : AuthorityState :=
  { a with attemptId := id, attemptGeneration := gen }

def reject (dim detail : String) : FenceVerdict := ⟨.reject, dim, detail⟩

def epochFence (a : AuthorityState) (claim : AuthorityClaim) : Option FenceVerdict :=
  if claim.coordinatorEpoch ≠ a.epoch then
    some (reject "CoordinatorEpoch" ("claim epoch " ++ toString claim.coordinatorEpoch.toNat
      ++ " != current epoch " ++ toString a.epoch.toNat))
  else none

def bootFence (a : AuthorityState) (claim : AuthorityClaim) : Option FenceVerdict :=
  if claim.workerId.valid then
    match a.bootOf claim.workerId with
    | none => some (reject "WorkerBootId" ("worker " ++ claim.workerId.toText ++ " not registered"))
    | some cur =>
      if cur ≠ claim.workerBoot then
        some (reject "WorkerBootId" ("worker " ++ claim.workerId.toText ++ " boot "
          ++ claim.workerBoot.toText ++ " stale (current " ++ cur.toText ++ ")"))
      else none
  else none

def staleFence {Tag : Type} (dim detail : String) (value current : ScalarIdentifier Tag) :
    Option FenceVerdict :=
  if value.valid && current.valid && value ≠ current then some (reject dim detail) else none

def generationFence {Tag : Type} (dim detail : String) (value : Option (ScalarIdentifier Tag))
    (current : ScalarIdentifier Tag) : Option FenceVerdict :=
  match value with
  | none => none
  | some g => if current.valid && g ≠ current then some (reject dim detail) else none

def fences (a : AuthorityState) (claim : AuthorityClaim) : List (Option FenceVerdict) :=
  [a.epochFence claim,
    a.bootFence claim,
    staleFence "AttemptId" ("attempt " ++ claim.attemptId.toText ++ " stale (current "
      ++ a.attemptId.toText ++ ")") claim.attemptId a.attemptId,
    staleFence "AttemptGeneration" "attempt generation stale" claim.attemptGeneration a.attemptGeneration,
    staleFence "StateGeneration" "state generation stale" claim.stateGeneration a.stateGeneration,
    staleFence "ProvenanceGeneration" "provenance generation stale" claim.provenanceGeneration
      a.provenanceGeneration,
    generationFence "ArtifactGeneration" "artifact generation stale" claim.artifactGeneration
      a.artifactGeneration,
    generationFence "ModelGeneration" "model generation stale" claim.modelGeneration a.modelGeneration,
    generationFence "AdapterGeneration" "adapter generation stale" claim.adapterGeneration
      a.adapterGeneration,
    generationFence "CompositionGeneration" "composition generation stale" claim.compositionGeneration
      a.compositionGeneration,
    generationFence "PolicyGeneration" "policy generation stale" claim.policyGeneration a.policyGeneration,
    generationFence "DependencyGeneration" "dependency generation stale" claim.dependencyGeneration
      a.dependencyGeneration]

def evaluateClaim (a : AuthorityState) (claim : AuthorityClaim) : FenceVerdict :=
  ((a.fences claim).findSome? id).getD ⟨.accept, "", "accepted"⟩

lemma epochFence_eq_none (a : AuthorityState) (claim : AuthorityClaim) :
    a.epochFence claim = none ↔ claim.coordinatorEpoch = a.epoch := by
  simp [epochFence]

lemma staleFence_eq_none {Tag : Type} (dim detail : String) (value current : ScalarIdentifier Tag) :
    staleFence dim detail value current = none ↔ value = {} ∨ current = {} ∨ value = current := by
  simp [staleFence]
  tauto

lemma generationFence_eq_none {Tag : Type} (dim detail : String) (value : Option (ScalarIdentifier Tag))
    (current : ScalarIdentifier Tag) :
    generationFence dim detail value current = none ↔ current = {} ∨ ∀ g ∈ value, g = current := by
  cases value with
  | none => simp [generationFence]
  | some g =>
    simp [generationFence]
    tauto

lemma bootFence_eq_none (a : AuthorityState) (claim : AuthorityClaim) :
    a.bootFence claim = none ↔
      claim.workerId = {} ∨ a.bootOf claim.workerId = some claim.workerBoot := by
  rw [bootFence]
  by_cases hw : claim.workerId = {}
  · simp [hw, ScalarIdentifier.valid]
  · rw [if_pos ((ScalarIdentifier.valid_eq_true_iff _).mpr hw)]
    cases a.bootOf claim.workerId with
    | none => simp [hw]
    | some cur => simp [hw]

lemma rejected_of_mem_fences (a : AuthorityState) (claim : AuthorityClaim) {v : FenceVerdict}
    (hv : some v ∈ a.fences claim) : v.outcome = .reject := by
  have stale : ∀ {Tag : Type} (dim detail : String) (value current : ScalarIdentifier Tag),
      some v = staleFence dim detail value current → v.outcome = .reject := by
    intro Tag dim detail value current h
    rw [staleFence] at h
    split at h
    · cases h
      rfl
    · contradiction
  have generation : ∀ {Tag : Type} (dim detail : String) (value : Option (ScalarIdentifier Tag))
      (current : ScalarIdentifier Tag), some v = generationFence dim detail value current →
        v.outcome = .reject := by
    intro Tag dim detail value current h
    simp only [generationFence] at h
    split at h
    · contradiction
    · split at h
      · cases h
        rfl
      · contradiction
  simp only [fences, List.mem_cons, List.not_mem_nil, or_false] at hv
  rcases hv with h | h | h | h | h | h | h | h | h | h | h | h
  · rw [epochFence] at h
    split at h
    · cases h
      rfl
    · contradiction
  · rw [bootFence] at h
    split at h
    · split at h
      · cases h
        rfl
      · split at h
        · cases h
          rfl
        · contradiction
    · contradiction
  all_goals first | exact stale _ _ _ _ h | exact generation _ _ _ _ h

lemma evaluateClaim_accepted_iff (a : AuthorityState) (claim : AuthorityClaim) :
    (a.evaluateClaim claim).accepted = true ↔ ∀ f ∈ a.fences claim, f = none := by
  rw [evaluateClaim]
  cases hf : (a.fences claim).findSome? id with
  | none =>
    rw [List.findSome?_eq_none_iff] at hf
    simpa [FenceVerdict.accepted] using hf
  | some v =>
    obtain ⟨f, hm, hv⟩ := List.exists_of_findSome?_eq_some hf
    obtain rfl : f = some v := hv
    have hr := rejected_of_mem_fences a claim hm
    constructor
    · intro h
      simp [FenceVerdict.accepted, hr] at h
    · intro h
      have := h _ hm
      contradiction

lemma epoch_eq_of_accepted {a : AuthorityState} {claim : AuthorityClaim}
    (h : (a.evaluateClaim claim).accepted = true) : claim.coordinatorEpoch = a.epoch := by
  rw [evaluateClaim_accepted_iff] at h
  exact (epochFence_eq_none a claim).mp (h _ (by simp [fences]))

end AuthorityState

end StateProvenance
