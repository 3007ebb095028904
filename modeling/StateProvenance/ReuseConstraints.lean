import StateProvenance.Reuse
import Mathlib.Tactic.MkIffOfInductiveProp

/-! Which constraints of a request, which declared requirements of a record, and which explanations a
reuse answer accounts for. -/

namespace StateProvenance

open Std Library.OrderedMap

def IdMet {Tag : Type} (req r : ScalarIdentifier Tag) : Prop := req.valid = true → r.valid = true ∧ req = r

def TextMet (req r : ByteString) : Prop := req ≠ [] → r ≠ [] ∧ req = r

def DependencyMet (req : DependencyGeneration) (deps : List Dependency) : Prop :=
  req.valid = true → deps ≠ [] ∧ ∀ dep ∈ deps, dep.generation = req

@[mk_iff]
structure CheckedMet (r : RecordData) (req : ReuseRequest) : Prop where
  modelId : IdMet req.modelId r.modelId
  modelRevision : TextMet req.modelRevision r.modelRevision
  tokenizer : TextMet req.tokenizer r.tokenizer
  adapterId : IdMet req.adapterId r.adapterId
  adapterRevision : TextMet req.adapterRevision r.adapterRevision
  compositionFingerprint : TextMet req.compositionFingerprint r.compositionFingerprint
  backendId : IdMet req.backendId r.backendId
  runtimeId : IdMet req.runtimeId r.runtimeId
  toolchainId : IdMet req.toolchainId r.toolchainId
  architecture : TextMet req.architecture r.architecture
  computeCapability : TextMet req.computeCapability r.computeCapability
  abi : TextMet req.abi r.abi
  dtype : TextMet req.dtype r.dtype
  layout : TextMet req.layout r.layout
  shape : TextMet req.shape r.shape
  modelGeneration : IdMet req.modelGeneration r.modelGeneration
  adapterGeneration : IdMet req.adapterGeneration r.adapterGeneration
  compositionGeneration : IdMet req.compositionGeneration r.compositionGeneration
  runtimeGeneration : IdMet req.runtimeGeneration r.runtimeGeneration
  policyGeneration : IdMet req.policyGeneration r.policyGeneration
  artifactGeneration : IdMet req.artifactGeneration r.artifactGeneration

structure RequestMet (r : RecordData) (req : ReuseRequest) : Prop extends CheckedMet r req where
  compositionId : IdMet req.compositionId r.compositionId
  dependencyGeneration : DependencyMet req.dependencyGeneration r.dependencies

lemma idCheck_met {Tag : Type} (dim : CompatibilityDimension) (req r : ScalarIdentifier Tag) (what : String) :
    (idCheck dim req r what).met ↔ IdMet req r := by
  simp [DimCheck.met, idCheck, IdMet]

lemma textCheck_met (dim : CompatibilityDimension) (req r : ByteString) (what : String) :
    (textCheck dim req r what).met ↔ TextMet req r := by
  simp [DimCheck.met, textCheck, TextMet]

lemma forall_dimChecks_met (r : RecordData) (req : ReuseRequest) :
    (∀ c ∈ dimChecks r req, c.met) ↔ CheckedMet r req := by
  simp only [dimChecks, List.forall_mem_cons, idCheck_met, textCheck_met, checkedMet_iff, List.not_mem_nil,
    false_imp_iff, implies_true, and_true]

def EligibleExactly (rec : ProvenanceRecord) (req : ReuseRequest) : Prop :=
  (evaluateReuse rec req).eligibility = .eligible ↔ rec.d.validity = .named .valid ∧ RequestMet rec.d req

theorem eligibleExactly_iff (rec : ProvenanceRecord) (req : ReuseRequest) :
    EligibleExactly rec req ↔ ¬ CheckedMet rec.d req ∨
      (rec.d.validity = .named .invalidated ∨ rec.d.validity = .named .stale ∨
        rec.d.validity = .named .unknown) ∨
      rec.d.validity = .named .valid ∧ IdMet req.compositionId rec.d.compositionId ∧
        DependencyMet req.dependencyGeneration rec.d.dependencies := by
  have hmet : RequestMet rec.d req ↔ CheckedMet rec.d req ∧ IdMet req.compositionId rec.d.compositionId ∧
      DependencyMet req.dependencyGeneration rec.d.dependencies :=
    ⟨fun h => ⟨h.toCheckedMet, h.compositionId, h.dependencyGeneration⟩, fun h => ⟨h.1, h.2.1, h.2.2⟩⟩
  rw [EligibleExactly, evaluateReuse_eligible_iff, forall_dimChecks_met, hmet]
  by_cases hv : rec.d.validity = .named .valid
  · simp only [hv, EnumValue.named.injEq, reduceCtorEq, not_false_eq_true, ne_eq, and_self, true_and, or_self,
      false_or]
    tauto
  · simp only [hv, false_and, or_false, iff_false]
    tauto

theorem composition_id_unchecked : ¬ ∀ rec req, EligibleExactly rec req := by
  intro h
  have hone := (h ⟨{ RecordData.produced 1 with compositionId := ⟨1⟩ }⟩ { compositionId := ⟨2⟩ }).mp
    (by decide)
  have hid := hone.2.compositionId (by decide)
  revert hid
  decide

/-! Declared requirements. The ten dimensions that a text field of a request describes. -/

def ReuseRequest.text (req : ReuseRequest) : CompatibilityDimension → Option ByteString
  | .modelRevision => some req.modelRevision
  | .tokenizer => some req.tokenizer
  | .adapterRevision => some req.adapterRevision
  | .adapterComposition => some req.compositionFingerprint
  | .architecture => some req.architecture
  | .computeCapability => some req.computeCapability
  | .abi => some req.abi
  | .dtype => some req.dtype
  | .layout => some req.layout
  | .tensorGeometry => some req.shape
  | _ => none

def RecordData.text (r : RecordData) : CompatibilityDimension → Option ByteString
  | .modelRevision => some r.modelRevision
  | .tokenizer => some r.tokenizer
  | .adapterRevision => some r.adapterRevision
  | .adapterComposition => some r.compositionFingerprint
  | .architecture => some r.architecture
  | .computeCapability => some r.computeCapability
  | .abi => some r.abi
  | .dtype => some r.dtype
  | .layout => some r.layout
  | .tensorGeometry => some r.shape
  | _ => none

lemma CheckedMet.text {r : RecordData} {req : ReuseRequest} (h : CheckedMet r req)
    (dim : CompatibilityDimension) {v : ByteString} (hv : req.text dim = some v) :
    ∃ w, r.text dim = some w ∧ TextMet v w := by
  cases dim <;> simp only [ReuseRequest.text, Option.some.injEq, reduceCtorEq] at hv <;> subst hv
  case modelRevision => exact ⟨_, rfl, h.modelRevision⟩
  case tokenizer => exact ⟨_, rfl, h.tokenizer⟩
  case adapterRevision => exact ⟨_, rfl, h.adapterRevision⟩
  case adapterComposition => exact ⟨_, rfl, h.compositionFingerprint⟩
  case architecture => exact ⟨_, rfl, h.architecture⟩
  case computeCapability => exact ⟨_, rfl, h.computeCapability⟩
  case abi => exact ⟨_, rfl, h.abi⟩
  case dtype => exact ⟨_, rfl, h.dtype⟩
  case layout => exact ⟨_, rfl, h.layout⟩
  case tensorGeometry => exact ⟨_, rfl, h.shape⟩

namespace ProvenanceStore

/-- An eligible answer demands of every requirement of the subject's record, in one of the text
dimensions, that the request leaves the dimension open or asks for the required value. -/
def EnforcesRequirements (s : ProvenanceStore) (id : StateId) (req : ReuseRequest) : Prop :=
  (s.checkReuse id req).eligibility = .eligible → ∀ rec, s.find id = some rec →
    ∀ c ∈ rec.d.requirements, ∀ dim, c.dimension = .named dim → ∀ v, req.text dim = some v →
      v = [] ∨ v = c.requiredValue

theorem enforcesRequirements_iff (s : ProvenanceStore) (id : StateId) (req : ReuseRequest) :
    s.EnforcesRequirements id req ↔ s.Denied id req ∨ ∀ rec, s.find id = some rec →
      ∀ c ∈ rec.d.requirements, ∀ dim, c.dimension = .named dim → ∀ v w, req.text dim = some v →
        rec.d.text dim = some w → v = [] ∨ w = c.requiredValue := by
  rw [EnforcesRequirements, checkReuse_eligible_iff]
  by_cases hd : s.Denied id req
  · simp [hd]
  simp only [hd, not_false_eq_true, true_imp_iff, false_or]
  refine forall_congr' fun rec => imp_congr_right fun hrec => ?_
  have hmet : CheckedMet rec.d req := by
    rw [Denied, not_or] at hd
    rw [← forall_dimChecks_met]
    by_contra hno
    refine hd.2 fun rec' hrec' => ?_
    obtain rfl : rec = rec' := Option.some.inj (hrec.symm.trans hrec')
    exact Or.inr (by simpa using hno)
  refine forall_congr' fun c => imp_congr_right fun _ => forall_congr' fun dim => imp_congr_right fun _ =>
    forall_congr' fun v => ?_
  constructor
  · intro h w hv hw
    obtain ⟨w', hw', hm⟩ := hmet.text dim hv
    obtain rfl : w = w' := Option.some.inj (hw.symm.trans hw')
    rcases h hv with he | he
    · exact Or.inl he
    · by_cases hne : v = []
      · exact Or.inl hne
      · exact Or.inr ((hm hne).2.symm.trans he)
  · intro h hv
    obtain ⟨w, hw, hm⟩ := hmet.text dim hv
    by_cases hne : v = []
    · exact Or.inl hne
    · rcases h w hv hw with he | he
      · exact Or.inl he
      · exact Or.inr ((hm hne).2.trans he)

theorem requirement_ignored : ¬ ∀ s, Reachable s → ∀ id req, s.EnforcesRequirements id req := by
  -- The record's own layout agrees with the request, its declared requirement does not.
  intro h
  let need : CompatibilityRequirement := ⟨.named .layout, [98], []⟩
  let data : RecordData := { RecordData.produced 1 with layout := [97], requirements := [need] }
  have hall := h (({} : ProvenanceStore).publish data).2 (Reachable.empty.publish data) ⟨1⟩ { layout := [97] }
    (by decide) ⟨data⟩ (by rfl) need (by simp [data]) .layout rfl [97] rfl
  revert hall
  decide

end ProvenanceStore

namespace DimCheck

def missing (c : DimCheck) : Bool := c.reqSet && !c.recSet

def mismatched (c : DimCheck) : Bool := c.reqSet && c.recSet && !c.agree

def reason (c : DimCheck) : Option String :=
  if c.missing then some (c.what ++ " required by request but absent in provenance")
  else if c.mismatched then some (c.what ++ " incompatible with requested environment")
  else none

lemma reason_eq_none (c : DimCheck) : c.reason = none ↔ c.missing = false ∧ c.mismatched = false := by
  rw [reason]
  cases c.missing <;> cases c.mismatched <;> simp

lemma missing_of_mismatched {c : DimCheck} (h : c.mismatched = true) : c.missing = false := by
  rcases c with ⟨dim, reqSet, recSet, agree, what⟩
  cases recSet <;> simp [missing, mismatched] at h ⊢

end DimCheck

lemma foldl_dimCheck (l : List DimCheck) (t : Tally) :
    l.foldl Tally.dimCheck t =
      { anyMismatch := t.anyMismatch || l.any DimCheck.mismatched
        anyIncomplete := t.anyIncomplete || l.any DimCheck.missing
        mismatchDims := t.mismatchDims ++ (l.filter DimCheck.mismatched).map DimCheck.dim
        incompleteDims := t.incompleteDims ++ (l.filter DimCheck.missing).map DimCheck.dim
        reasons := t.reasons ++ l.filterMap DimCheck.reason } := by
  induction l generalizing t with
  | nil => simp
  | cons c l ih =>
    rw [List.foldl_cons, ih]
    rcases c with ⟨dim, reqSet, recSet, agree, what⟩
    cases reqSet <;> cases recSet <;> cases agree <;>
      simp [Tally.dimCheck, DimCheck.missing, DimCheck.mismatched, DimCheck.reason]

lemma length_reasons (l : List DimCheck) :
    (l.filterMap DimCheck.reason).length =
      (l.filter DimCheck.missing).length + (l.filter DimCheck.mismatched).length := by
  induction l with
  | nil => rfl
  | cons c l ih =>
    cases hm : c.mismatched with
    | true =>
      have hn := DimCheck.missing_of_mismatched hm
      simp [DimCheck.reason, hm, hn, ih]
      omega
    | false =>
      cases hn : c.missing with
      | true =>
        simp [DimCheck.reason, hm, hn, ih]
        omega
      | false => simp [DimCheck.reason, hm, hn, ih]

def ReasonFor (checks : List DimCheck) (reason : String) (dim : CompatibilityDimension) : Prop :=
  ∃ c ∈ checks, c.dim = dim ∧ c.reason = some reason

lemma reasonFor_filter (failed : DimCheck → Bool) (l checks : List DimCheck) (hl : ∀ c ∈ l, c ∈ checks)
    (hf : ∀ c ∈ l, failed c = true ↔ c.reason ≠ none) :
    List.Forall₂ (ReasonFor checks) (l.filterMap DimCheck.reason) ((l.filter failed).map DimCheck.dim) := by
  induction l with
  | nil => exact .nil
  | cons c l ih =>
    obtain ⟨hc, hl⟩ := List.forall_mem_cons.mp hl
    obtain ⟨hfc, hf⟩ := List.forall_mem_cons.mp hf
    cases hr : c.reason with
    | none =>
      have hn : failed c = false := by simpa [hr] using hfc
      rw [List.filterMap_cons_none hr, List.filter_cons_of_neg (by simp [hn])]
      exact ih hl hf
    | some w =>
      have hy : failed c = true := by simp [hfc, hr]
      rw [List.filterMap_cons_some hr, List.filter_cons_of_pos hy]
      exact .cons ⟨c, hc, rfl, hr⟩ (ih hl hf)

lemma reasonFor_aligned_iff (l : List DimCheck) (failed other : DimCheck → Bool)
    (hlen : (l.filterMap DimCheck.reason).length = (l.filter other).length + (l.filter failed).length)
    (hr : ∀ c ∈ l, c.reason = none ↔ other c = false ∧ failed c = false) :
    List.Forall₂ (ReasonFor l) (l.filterMap DimCheck.reason) ((l.filter failed).map DimCheck.dim) ↔
      l.any other = false := by
  constructor
  · intro h
    have he := h.length_eq
    rw [hlen, List.length_map] at he
    have hnil : l.filter other = [] := List.length_eq_zero_iff.mp (by omega)
    simpa using hnil
  · intro h
    rw [List.any_eq_false] at h
    refine reasonFor_filter failed l l (fun _ hc => hc) fun c hc => ?_
    rw [ne_eq, hr c hc]
    simp [h c hc]

@[mk_iff explained_iff_fields]
structure Explained (rec : ProvenanceRecord) (req : ReuseRequest) : Prop where
  nonempty : (evaluateReuse rec req).eligibility ≠ .eligible → (evaluateReuse rec req).reasons ≠ []
  aligned : (evaluateReuse rec req).eligibility = .incompatible ∨
      (evaluateReuse rec req).eligibility = .incompleteProvenance →
    List.Forall₂ (ReasonFor (dimChecks rec.d req)) (evaluateReuse rec req).reasons
      (evaluateReuse rec req).failedDimensions

theorem explained_iff (rec : ProvenanceRecord) (req : ReuseRequest) :
    Explained rec req ↔
      (rec.d.validity = .named .unknown →
        ∃ c ∈ dimChecks rec.d req, c.missing = true ∨ c.mismatched = true) ∧
      (rec.d.validity ≠ .named .invalidated → rec.d.validity ≠ .named .stale →
        ¬ ((∃ c ∈ dimChecks rec.d req, c.missing = true) ∧
          ∃ c ∈ dimChecks rec.d req, c.mismatched = true)) := by
  have hmism := reasonFor_aligned_iff (dimChecks rec.d req) DimCheck.mismatched DimCheck.missing
    (length_reasons _) fun c _ => c.reason_eq_none
  have hmiss := reasonFor_aligned_iff (dimChecks rec.d req) DimCheck.missing DimCheck.mismatched
    ((length_reasons _).trans (Nat.add_comm _ _)) fun c _ => c.reason_eq_none.trans and_comm
  have hnil : (dimChecks rec.d req).filterMap DimCheck.reason = [] ↔
      (dimChecks rec.d req).any DimCheck.missing = false ∧
        (dimChecks rec.d req).any DimCheck.mismatched = false := by
    simp only [List.filterMap_eq_nil_iff, DimCheck.reason_eq_none, List.any_eq_false, Bool.not_eq_true]
    exact ⟨fun h => ⟨fun c hc => (h c hc).1, fun c hc => (h c hc).2⟩, fun h c hc => ⟨h.1 c hc, h.2 c hc⟩⟩
  have hany : ∀ p : DimCheck → Bool, (∃ c ∈ dimChecks rec.d req, p c = true) ↔
      (dimChecks rec.d req).any p = true := fun p => List.any_eq_true.symm
  simp only [explained_iff_fields, evaluateReuse, foldl_dimCheck, and_or_left, exists_or, hany]
  simp only [List.nil_append, Bool.false_or]
  generalize dimChecks rec.d req = l at *
  by_cases hi : rec.d.validity = .named .invalidated
  · by_cases he : l.filterMap DimCheck.reason = [] <;> simp [hi, he]
  by_cases hs : rec.d.validity = .named .stale
  · by_cases he : l.filterMap DimCheck.reason = [] <;> simp [hs, he]
  cases hb : l.any DimCheck.mismatched <;> cases ha : l.any DimCheck.missing <;>
    by_cases hu : rec.d.validity = .named .unknown <;> simp [hi, hs, hu, hb, ha, hnil, hmism, hmiss]

theorem denial_unexplained :
    ¬ Explained ⟨{ RecordData.produced 1 with layout := [97] }⟩ { dtype := [97], layout := [98] } ∧
      ¬ Explained ⟨{ RecordData.produced 1 with validity := .named .unknown }⟩ {} := by
  constructor
  · -- One absent and one mismatched field: two reasons, one failed dimension.
    intro h
    have hlen := (h.aligned (Or.inl (by decide))).length_eq
    revert hlen
    decide
  · -- No field is requested, so nothing but the validity denies.
    intro h
    have hne := h.nonempty (by decide)
    revert hne
    decide

end StateProvenance
