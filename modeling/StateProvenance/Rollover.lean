import StateProvenance.Fencing
import StateProvenance.Library.Runs

/-! Rollovers: an authority operation that changes its dimension fences the claims accepted before it, for as
long as the dimension keeps the new value. -/

namespace StateProvenance

open Std Library.OrderedMap Library.Runs

structure AuthorityClaim.FullySet (c : AuthorityClaim) : Prop where
  workerId : c.workerId ≠ {}
  workerBoot : c.workerBoot ≠ {}
  attemptId : c.attemptId ≠ {}
  attemptGeneration : c.attemptGeneration ≠ {}
  stateGeneration : c.stateGeneration ≠ {}
  provenanceGeneration : c.provenanceGeneration ≠ {}
  coordinatorEpoch : c.coordinatorEpoch ≠ 0
  artifactGeneration : ∃ g, c.artifactGeneration = some g ∧ g ≠ {}
  modelGeneration : ∃ g, c.modelGeneration = some g ∧ g ≠ {}
  adapterGeneration : ∃ g, c.adapterGeneration = some g ∧ g ≠ {}
  compositionGeneration : ∃ g, c.compositionGeneration = some g ∧ g ≠ {}
  policyGeneration : ∃ g, c.policyGeneration = some g ∧ g ≠ {}
  dependencyGeneration : ∃ g, c.dependencyGeneration = some g ∧ g ≠ {}

namespace AuthorityOp

def Keeps (s s' : ProvenanceStore) : AuthorityOp → Prop
  | .rollEpoch => s'.authority.epoch = s.authority.epoch
  | .registerBoot w _ => s'.authority.bootOf w = s.authority.bootOf w
  | .beginAttempt _ _ => s'.authority.attemptId = s.authority.attemptId ∧
      s'.authority.attemptGeneration = s.authority.attemptGeneration
  | .rollStateGeneration _ => s'.authority.stateGeneration = s.authority.stateGeneration
  | .rollProvenanceGeneration _ => s'.authority.provenanceGeneration = s.authority.provenanceGeneration
  | .setModelGeneration _ => s'.authority.modelGeneration = s.authority.modelGeneration
  | .setAdapterGeneration _ => s'.authority.adapterGeneration = s.authority.adapterGeneration
  | .setCompositionGeneration _ => s'.authority.compositionGeneration = s.authority.compositionGeneration
  | .setPolicyGeneration _ => s'.authority.policyGeneration = s.authority.policyGeneration
  | .setDependencyGeneration _ => s'.authority.dependencyGeneration = s.authority.dependencyGeneration
  | .setArtifactGeneration _ => s'.authority.artifactGeneration = s.authority.artifactGeneration
  | .setRuntimeGeneration _ => s'.runtimeGeneration = s.runtimeGeneration

def Rollover (s : ProvenanceStore) (c : AuthorityClaim) : AuthorityOp → Prop
  | .rollEpoch => True
  | .registerBoot w b => w = c.workerId ∧ s.authority.bootOf w ≠ some b
  | .beginAttempt id g => id ≠ s.authority.attemptId ∨ g ≠ s.authority.attemptGeneration
  | .rollStateGeneration g => g ≠ {} ∧ g ≠ s.authority.stateGeneration
  | .rollProvenanceGeneration g => g ≠ {} ∧ g ≠ s.authority.provenanceGeneration
  | .setModelGeneration g => g ≠ {} ∧ g ≠ s.authority.modelGeneration
  | .setAdapterGeneration g => g ≠ {} ∧ g ≠ s.authority.adapterGeneration
  | .setCompositionGeneration g => g ≠ {} ∧ g ≠ s.authority.compositionGeneration
  | .setPolicyGeneration g => g ≠ {} ∧ g ≠ s.authority.policyGeneration
  | .setDependencyGeneration g => g ≠ {} ∧ g ≠ s.authority.dependencyGeneration
  | .setArtifactGeneration g => g ≠ {} ∧ g ≠ s.authority.artifactGeneration
  | .setRuntimeGeneration g => g ≠ {} ∧ g ≠ s.runtimeGeneration

def Supersedes (c : AuthorityClaim) : AuthorityOp → Prop
  | .rollEpoch => True
  | .registerBoot _ _ => True
  | .beginAttempt id g => id ≠ {} ∧ id ≠ c.attemptId ∨ g ≠ {} ∧ g ≠ c.attemptGeneration
  | .rollStateGeneration g => g ≠ c.stateGeneration
  | .rollProvenanceGeneration g => g ≠ c.provenanceGeneration
  | .setModelGeneration g => some g ≠ c.modelGeneration
  | .setAdapterGeneration g => some g ≠ c.adapterGeneration
  | .setCompositionGeneration g => some g ≠ c.compositionGeneration
  | .setPolicyGeneration g => some g ≠ c.policyGeneration
  | .setDependencyGeneration g => some g ≠ c.dependencyGeneration
  | .setArtifactGeneration g => some g ≠ c.artifactGeneration
  | .setRuntimeGeneration _ => False

lemma Keeps.trans {op : AuthorityOp} {s s' s'' : ProvenanceStore} (h : op.Keeps s s')
    (h' : op.Keeps s' s'') : op.Keeps s s'' := by
  cases op with
  | beginAttempt id g => exact ⟨h'.1.trans h.1, h'.2.trans h.2⟩
  | _ => exact Eq.trans h' h

lemma Keeps.refl (op : AuthorityOp) (s : ProvenanceStore) : op.Keeps s s := by
  cases op with
  | beginAttempt id g => exact ⟨rfl, rfl⟩
  | _ => rfl

end AuthorityOp

namespace ProvenanceStore

def FencedBy (s : ProvenanceStore) (c : AuthorityClaim) (op : AuthorityOp) : Prop :=
  ∀ later, Along applyAuthority (fun s' o => op.Keeps s' (s'.applyAuthority o)) (s.applyAuthority op) later →
    ((run applyAuthority (s.applyAuthority op) later).evaluateClaim c).accepted = false

lemma keeps_run {op : AuthorityOp} {s : ProvenanceStore} {later : List AuthorityOp}
    (h : Along applyAuthority (fun s' o => op.Keeps s' (s'.applyAuthority o)) s later) :
    op.Keeps s (run applyAuthority s later) :=
  @run_invariant _ _ _ _ _ (op.Keeps s) (fun _ _ hs he => hs.trans he) _ (.refl op s) h

lemma not_agrees {Tag : Type} {value new current : ScalarIdentifier Tag} (hv : value ≠ {}) (hnew : new ≠ {})
    (hne : new ≠ value) (hc : current = new) : ¬ Agrees value current := by
  subst hc
  rintro (h | h | h)
  · exact hv h
  · exact hnew h
  · exact hne h.symm

lemma not_current {Tag : Type} {claimed : Option (ScalarIdentifier Tag)}
    {new current : ScalarIdentifier Tag} (hv : ∃ g, claimed = some g ∧ g ≠ {}) (hnew : new ≠ {})
    (hne : some new ≠ claimed) (hc : current = new) :
    ¬ (current = {} ∨ ∀ g ∈ claimed, g = current) := by
  subst hc
  obtain ⟨g, rfl, -⟩ := hv
  rintro (h | h)
  · exact hnew h
  · exact hne (congrArg some (h g rfl).symm)

lemma not_claimCurrent_of_keeps {s s' : ProvenanceStore} {c : AuthorityClaim} {op : AuthorityOp}
    (hset : c.FullySet) (hcur : ClaimCurrent s.authority c) (hroll : op.Rollover s c) (hsup : op.Supersedes c)
    (hkeep : op.Keeps (s.applyAuthority op) s') : ¬ ClaimCurrent s'.authority c := by
  intro h
  cases op with
  | rollEpoch =>
    have he : s'.authority.epoch = s.authority.epoch + 1 := hkeep
    have hne := hcur.epoch.symm.trans (h.epoch.trans he)
    simp at hne
  | registerBoot w b =>
    obtain ⟨rfl, hne⟩ := hroll
    have hb : s'.authority.bootOf c.workerId = some b := by
      refine Eq.trans hkeep ?_
      exact ExtTreeMap.getElem?_insert_self
    have hold := hcur.boot.resolve_left hset.workerId
    have hnew := h.boot.resolve_left hset.workerId
    exact hne (hold.trans (hnew.symm.trans hb))
  | beginAttempt id g =>
    obtain ⟨hid, hg⟩ := hkeep
    rcases hsup with ⟨hnull, hne⟩ | ⟨hnull, hne⟩
    · exact not_agrees hset.attemptId hnull hne hid h.attemptId
    · exact not_agrees hset.attemptGeneration hnull hne hg h.attemptGeneration
  | rollStateGeneration g => exact not_agrees hset.stateGeneration hroll.1 hsup hkeep h.stateGeneration
  | rollProvenanceGeneration g =>
    exact not_agrees hset.provenanceGeneration hroll.1 hsup hkeep h.provenanceGeneration
  | setModelGeneration g => exact not_current hset.modelGeneration hroll.1 hsup hkeep h.modelGeneration
  | setAdapterGeneration g =>
    exact not_current hset.adapterGeneration hroll.1 hsup hkeep h.adapterGeneration
  | setCompositionGeneration g =>
    exact not_current hset.compositionGeneration hroll.1 hsup hkeep h.compositionGeneration
  | setPolicyGeneration g => exact not_current hset.policyGeneration hroll.1 hsup hkeep h.policyGeneration
  | setDependencyGeneration g =>
    exact not_current hset.dependencyGeneration hroll.1 hsup hkeep h.dependencyGeneration
  | setArtifactGeneration g =>
    exact not_current hset.artifactGeneration hroll.1 hsup hkeep h.artifactGeneration
  | setRuntimeGeneration g => exact hsup

lemma current_of_claimed {Tag : Type} {claimed : Option (ScalarIdentifier Tag)} {g : ScalarIdentifier Tag}
    (h : ¬ some g ≠ claimed) : g = {} ∨ ∀ g' ∈ claimed, g' = g := by
  obtain rfl := not_not.mp h
  simp

lemma claimCurrent_of_not_supersedes {s : ProvenanceStore} {c : AuthorityClaim} {op : AuthorityOp}
    (hcur : ClaimCurrent s.authority c) (hno : ¬ op.Supersedes c) :
    ClaimCurrent (s.applyAuthority op).authority c := by
  cases op with
  | rollEpoch => exact absurd trivial hno
  | registerBoot w b => exact absurd trivial hno
  | beginAttempt id g =>
    simp only [AuthorityOp.Supersedes, not_or, not_and_or, not_not] at hno
    exact { hcur with
      attemptId := Or.inr (hno.1.imp_right Eq.symm)
      attemptGeneration := Or.inr (hno.2.imp_right Eq.symm) }
  | rollStateGeneration g => exact { hcur with stateGeneration := Or.inr (Or.inr (not_not.mp hno).symm) }
  | rollProvenanceGeneration g =>
    exact { hcur with provenanceGeneration := Or.inr (Or.inr (not_not.mp hno).symm) }
  | setModelGeneration g =>
    exact { hcur with modelGeneration := current_of_claimed hno }
  | setAdapterGeneration g =>
    exact { hcur with adapterGeneration := current_of_claimed hno }
  | setCompositionGeneration g =>
    exact { hcur with compositionGeneration := current_of_claimed hno }
  | setPolicyGeneration g =>
    exact { hcur with policyGeneration := current_of_claimed hno }
  | setDependencyGeneration g =>
    exact { hcur with dependencyGeneration := current_of_claimed hno }
  | setArtifactGeneration g =>
    exact { hcur with artifactGeneration := current_of_claimed hno }
  | setRuntimeGeneration g => exact hcur

theorem fencedBy_iff {s : ProvenanceStore} {c : AuthorityClaim} {op : AuthorityOp} (hset : c.FullySet)
    (hacc : (s.evaluateClaim c).accepted = true) (hroll : op.Rollover s c) :
    s.FencedBy c op ↔ op.Supersedes c := by
  have hcur := (accepted_iff_claimCurrent _ _).mp hacc
  constructor
  · intro hf
    by_contra hno
    have hacc' := (accepted_iff_claimCurrent _ _).mpr (claimCurrent_of_not_supersedes hcur hno)
    have hrej := hf [] trivial
    rw [run_nil, evaluateClaim, hacc'] at hrej
    contradiction
  · intro hsup later hl
    have hno := not_claimCurrent_of_keeps hset hcur hroll hsup (keeps_run hl)
    rwa [← accepted_iff_claimCurrent, Bool.not_eq_true] at hno

def bootStore : ProvenanceStore := ({} : ProvenanceStore).applyAuthority (.registerBoot ⟨1⟩ ⟨1⟩)

def fullClaim : AuthorityClaim where
  workerId := ⟨1⟩
  workerBoot := ⟨1⟩
  attemptId := ⟨1⟩
  attemptGeneration := ⟨1⟩
  stateGeneration := ⟨1⟩
  provenanceGeneration := ⟨1⟩
  coordinatorEpoch := 1
  artifactGeneration := some ⟨1⟩
  modelGeneration := some ⟨1⟩
  adapterGeneration := some ⟨1⟩
  compositionGeneration := some ⟨1⟩
  policyGeneration := some ⟨1⟩
  dependencyGeneration := some ⟨1⟩

lemma fullySet_fullClaim : fullClaim.FullySet := by
  constructor <;> simp [fullClaim]

theorem bootStore_fencedBy : bootStore.FencedBy fullClaim (.setModelGeneration ⟨2⟩) :=
  (@fencedBy_iff bootStore _ (.setModelGeneration ⟨2⟩) fullySet_fullClaim (by decide)
    ⟨by decide, by decide⟩).mpr (by simp [AuthorityOp.Supersedes, fullClaim])

theorem runtime_generation_unfenced : ¬ ∀ s, Reachable s → ∀ c op, AuthorityClaim.FullySet c →
    (s.evaluateClaim c).accepted = true → op.Rollover s c → s.FencedBy c op := by
  intro h
  have hrej := h bootStore (.applyAuthority .empty _) fullClaim (.setRuntimeGeneration ⟨2⟩) fullySet_fullClaim
    (by decide) ⟨by decide, by decide⟩ [] trivial
  revert hrej
  decide

end ProvenanceStore

end StateProvenance
