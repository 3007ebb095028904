import StateProvenance.Record

/-! Typed compatibility and reuse-eligibility evaluation: one check for every dimension, in the source's
order, and an outcome chosen by precedence. -/

namespace StateProvenance

structure ReuseRequest where
  modelId : ModelId := {}
  modelGeneration : ModelGeneration := {}
  modelRevision : ByteString := []
  tokenizer : ByteString := []
  adapterId : AdapterId := {}
  adapterGeneration : AdapterGeneration := {}
  adapterRevision : ByteString := []
  compositionId : CompositionId := {}
  compositionGeneration : CompositionGeneration := {}
  compositionFingerprint : ByteString := []
  runtimeId : RuntimeId := {}
  runtimeGeneration : RuntimeGeneration := {}
  backendId : BackendId := {}
  toolchainId : ToolchainId := {}
  architecture : ByteString := []
  computeCapability : ByteString := []
  abi : ByteString := []
  dtype : ByteString := []
  layout : ByteString := []
  shape : ByteString := []
  policyGeneration : PolicyGeneration := {}
  artifactGeneration : ArtifactGeneration := {}
  dependencyGeneration : DependencyGeneration := {}

structure ReuseDecision where
  eligibility : ReuseEligibility := .unknown
  failedDimensions : List CompatibilityDimension := []
  reasons : List String := []
deriving DecidableEq

structure DimCheck where
  dim : CompatibilityDimension
  reqSet : Bool
  recSet : Bool
  agree : Bool
  what : String

def idCheck {Tag : Type} (dim : CompatibilityDimension) (req r : ScalarIdentifier Tag) (what : String) :
    DimCheck :=
  ⟨dim, req.valid, r.valid, req = r, what⟩

def textCheck (dim : CompatibilityDimension) (req r : ByteString) (what : String) : DimCheck :=
  ⟨dim, !req.isEmpty, !r.isEmpty, req = r, what⟩

def dimChecks (r : RecordData) (req : ReuseRequest) : List DimCheck :=
  [idCheck .modelIdentity req.modelId r.modelId "model identity",
    textCheck .modelRevision req.modelRevision r.modelRevision "model revision",
    textCheck .tokenizer req.tokenizer r.tokenizer "tokenizer/vocabulary",
    idCheck .adapterIdentity req.adapterId r.adapterId "adapter identity",
    textCheck .adapterRevision req.adapterRevision r.adapterRevision "adapter revision",
    textCheck .adapterComposition req.compositionFingerprint r.compositionFingerprint "adapter composition",
    idCheck .backend req.backendId r.backendId "backend",
    idCheck .runtime req.runtimeId r.runtimeId "runtime",
    idCheck .toolchain req.toolchainId r.toolchainId "toolchain",
    textCheck .architecture req.architecture r.architecture "architecture",
    textCheck .computeCapability req.computeCapability r.computeCapability "compute capability",
    textCheck .abi req.abi r.abi "ABI",
    textCheck .dtype req.dtype r.dtype "dtype",
    textCheck .layout req.layout r.layout "layout",
    textCheck .tensorGeometry req.shape r.shape "tensor geometry",
    idCheck .modelGen req.modelGeneration r.modelGeneration "model generation",
    idCheck .adapterGen req.adapterGeneration r.adapterGeneration "adapter generation",
    idCheck .compositionGen req.compositionGeneration r.compositionGeneration "composition generation",
    idCheck .runtimeGen req.runtimeGeneration r.runtimeGeneration "runtime generation",
    idCheck .policyGen req.policyGeneration r.policyGeneration "policy generation",
    idCheck .artifactGen req.artifactGeneration r.artifactGeneration "artifact generation"]

structure Tally where
  anyMismatch : Bool := false
  anyIncomplete : Bool := false
  mismatchDims : List CompatibilityDimension := []
  incompleteDims : List CompatibilityDimension := []
  reasons : List String := []

def Tally.dimCheck (t : Tally) (c : DimCheck) : Tally :=
  if !c.reqSet then t
  else if !c.recSet then
    { t with
      anyIncomplete := true
      incompleteDims := t.incompleteDims ++ [c.dim]
      reasons := t.reasons ++ [c.what ++ " required by request but absent in provenance"] }
  else if !c.agree then
    { t with
      anyMismatch := true
      mismatchDims := t.mismatchDims ++ [c.dim]
      reasons := t.reasons ++ [c.what ++ " incompatible with requested environment"] }
  else t

def evaluateReuse (rec : ProvenanceRecord) (req : ReuseRequest) : ReuseDecision :=
  let r := rec.d
  let t := (dimChecks r req).foldl Tally.dimCheck {}
  if r.validity = .named .invalidated then
    { eligibility := .invalidated
      failedDimensions := [.provenanceIntegrity]
      reasons := if t.reasons.isEmpty then ["subject has been invalidated"] else t.reasons }
  else if r.validity = .named .stale then
    { eligibility := .stale
      reasons := if t.reasons.isEmpty then ["subject is stale"] else t.reasons }
  else if t.anyMismatch then
    { eligibility := .incompatible, failedDimensions := t.mismatchDims, reasons := t.reasons }
  else if t.anyIncomplete then
    { eligibility := .incompleteProvenance, failedDimensions := t.incompleteDims, reasons := t.reasons }
  else if r.validity = .named .unknown then { eligibility := .unknown, reasons := t.reasons }
  else { eligibility := .eligible, reasons := t.reasons }

def DimCheck.met (c : DimCheck) : Prop := c.reqSet = true → c.recSet = true ∧ c.agree = true

lemma foldl_dimCheck_clear (l : List DimCheck) (t : Tally) :
    (l.foldl Tally.dimCheck t).anyMismatch = false ∧ (l.foldl Tally.dimCheck t).anyIncomplete = false ↔
      (t.anyMismatch = false ∧ t.anyIncomplete = false) ∧ ∀ c ∈ l, c.met := by
  induction l generalizing t with
  | nil => simp
  | cons c l ih =>
    rw [List.foldl_cons, ih, List.forall_mem_cons]
    rcases c with ⟨dim, reqSet, recSet, agree, what⟩
    cases reqSet <;> cases recSet <;> cases agree <;> simp [Tally.dimCheck, DimCheck.met]

lemma evaluateReuse_eligible_iff (rec : ProvenanceRecord) (req : ReuseRequest) :
    (evaluateReuse rec req).eligibility = .eligible ↔
      (rec.d.validity ≠ .named .invalidated ∧ rec.d.validity ≠ .named .stale ∧
        rec.d.validity ≠ .named .unknown) ∧ ∀ c ∈ dimChecks rec.d req, c.met := by
  have hclear := (foldl_dimCheck_clear (dimChecks rec.d req) {}).trans (and_iff_right ⟨rfl, rfl⟩)
  rw [← hclear]
  unfold evaluateReuse
  by_cases hi : rec.d.validity = .named .invalidated
  · simp [hi]
  by_cases hs : rec.d.validity = .named .stale
  · simp [hs]
  cases hm : ((dimChecks rec.d req).foldl Tally.dimCheck {}).anyMismatch <;>
    cases hc : ((dimChecks rec.d req).foldl Tally.dimCheck {}).anyIncomplete <;>
      by_cases hu : rec.d.validity = .named .unknown <;> simp [hi, hs, hm, hc, hu]

end StateProvenance
