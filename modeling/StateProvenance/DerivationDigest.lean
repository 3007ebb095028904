import StateProvenance.Record
import StateProvenance.PrintedNumbers

/-! The derivation digest as the absorption of one list of words: one for each field of a fixed layout, then
those of the sorted references. -/

namespace StateProvenance

open Std Library.OrderedMap Library.Mixing Digest

inductive ScalarField
  | provenanceId | provenanceGeneration | subjectId | subjectKind | stateGeneration | producerId
  | producerGeneration | executionId | attemptId | attemptGeneration | createdAt | modelId | modelGeneration
  | adapterId | adapterGeneration | compositionId | compositionGeneration | runtimeId | runtimeGeneration
  | artifactGeneration | backendId | toolchainId | deviceId | policyId | policyGeneration | coordinatorEpoch
  | workerId | workerBoot | evidence | validity | invalidationReason | reuseEligibility
deriving DecidableEq

inductive TextField
  | modelRevision | tokenizer | adapterRevision | compositionFingerprint | architecture | computeCapability
  | abi | dtype | layout | shape | policyFingerprint | contentDigest | note
deriving DecidableEq

namespace RecordData

def scalarField (d : RecordData) : ScalarField → UInt64
  | .provenanceId => d.provenanceId.get
  | .provenanceGeneration => d.provenanceGeneration.get
  | .subjectId => d.subjectId.get
  | .subjectKind => d.subjectKind.toByte.toUInt64
  | .stateGeneration => d.stateGeneration.get
  | .producerId => d.producerId.get
  | .producerGeneration => d.producerGeneration.get
  | .executionId => d.executionId.get
  | .attemptId => d.attemptId.get
  | .attemptGeneration => d.attemptGeneration.get
  | .createdAt => d.createdAt.toUInt64
  | .modelId => d.modelId.get
  | .modelGeneration => d.modelGeneration.get
  | .adapterId => d.adapterId.get
  | .adapterGeneration => d.adapterGeneration.get
  | .compositionId => d.compositionId.get
  | .compositionGeneration => d.compositionGeneration.get
  | .runtimeId => d.runtimeId.get
  | .runtimeGeneration => d.runtimeGeneration.get
  | .artifactGeneration => d.artifactGeneration.get
  | .backendId => d.backendId.get
  | .toolchainId => d.toolchainId.get
  | .deviceId => d.deviceId.get
  | .policyId => d.policyId.get
  | .policyGeneration => d.policyGeneration.get
  | .coordinatorEpoch => d.coordinatorEpoch
  | .workerId => d.workerId.get
  | .workerBoot => d.workerBoot.get
  | .evidence => d.evidence.toByte.toUInt64
  | .validity => d.validity.toByte.toUInt64
  | .invalidationReason => d.invalidationReason.toByte.toUInt64
  | .reuseEligibility => d.reuseEligibility.toByte.toUInt64

def textField (d : RecordData) : TextField → ByteString
  | .modelRevision => d.modelRevision
  | .tokenizer => d.tokenizer
  | .adapterRevision => d.adapterRevision
  | .compositionFingerprint => d.compositionFingerprint
  | .architecture => d.architecture
  | .computeCapability => d.computeCapability
  | .abi => d.abi
  | .dtype => d.dtype
  | .layout => d.layout
  | .shape => d.shape
  | .policyFingerprint => d.policyFingerprint
  | .contentDigest => d.contentDigest
  | .note => d.note

end RecordData

inductive DigestField
  | scalar (f : ScalarField)
  | text (f : TextField)
deriving DecidableEq

structure DiffersOnlyAt (f : ScalarField) (a b : RecordData) : Prop where
  differ : a.scalarField f ≠ b.scalarField f
  scalars : ∀ g, g ≠ f → a.scalarField g = b.scalarField g
  texts : ∀ t, a.textField t = b.textField t
  inputStates : a.inputStates = b.inputStates
  parentProvenance : a.parentProvenance = b.parentProvenance
  dependencies : a.dependencies = b.dependencies
  requirements : a.requirements = b.requirements

namespace RecordData

lemma eq_of_fields {a b : RecordData} (hs : ∀ f, a.scalarField f = b.scalarField f)
    (ht : ∀ f, a.textField f = b.textField f)
    (hinputs : a.inputStates = b.inputStates) (hparents : a.parentProvenance = b.parentProvenance)
    (hdeps : a.dependencies = b.dependencies) (hreqs : a.requirements = b.requirements) : a = b := by
  have hid : ∀ {Tag : Type} {i j : ScalarIdentifier Tag}, i.get = j.get → i = j :=
    fun h => ScalarIdentifier.value_injective h
  have henum : ∀ {E : Type} [EnumClass E] {v w : EnumValue E}, v.toByte.toUInt64 = w.toByte.toUInt64 → v = w :=
    fun h => EnumValue.toByte_injective (UInt8.toUInt64_inj.mp h)
  have hint : ∀ {i j : Int64}, i.toUInt64 = j.toUInt64 → i = j := by
    rintro ⟨i⟩ ⟨j⟩ rfl
    rfl
  cases a
  cases b
  rw [RecordData.mk.injEq]
  exact ⟨hid (hs .provenanceId), hid (hs .provenanceGeneration), hid (hs .subjectId), henum (hs .subjectKind),
    hid (hs .stateGeneration), hid (hs .producerId), hid (hs .producerGeneration), hid (hs .executionId),
    hid (hs .attemptId), hid (hs .attemptGeneration), hint (hs .createdAt), hid (hs .modelId),
    hid (hs .modelGeneration), ht .modelRevision, ht .tokenizer, hid (hs .adapterId),
    hid (hs .adapterGeneration), ht .adapterRevision, hid (hs .compositionId),
    hid (hs .compositionGeneration), ht .compositionFingerprint, hid (hs .runtimeId),
    hid (hs .runtimeGeneration), hid (hs .artifactGeneration), hid (hs .backendId), hid (hs .toolchainId),
    hid (hs .deviceId), ht .architecture, ht .computeCapability, ht .abi, ht .dtype, ht .layout, ht .shape,
    hinputs, hparents, hdeps, hreqs, hid (hs .policyId), hid (hs .policyGeneration), ht .policyFingerprint,
    ht .contentDigest, hs .coordinatorEpoch, hid (hs .workerId), hid (hs .workerBoot), henum (hs .evidence),
    henum (hs .validity), henum (hs .invalidationReason), henum (hs .reuseEligibility), ht .note⟩

end RecordData

def digestLayout : List DigestField :=
  [.scalar .provenanceId, .scalar .provenanceGeneration, .scalar .subjectId, .scalar .subjectKind,
    .scalar .stateGeneration, .scalar .producerId, .scalar .producerGeneration, .scalar .executionId,
    .scalar .attemptId, .scalar .attemptGeneration, .scalar .createdAt, .scalar .modelId,
    .scalar .modelGeneration, .text .modelRevision, .text .tokenizer, .scalar .adapterId,
    .scalar .adapterGeneration, .text .adapterRevision, .scalar .compositionId,
    .scalar .compositionGeneration, .text .compositionFingerprint, .scalar .runtimeId,
    .scalar .runtimeGeneration, .scalar .backendId, .scalar .toolchainId, .scalar .deviceId,
    .text .architecture, .text .computeCapability, .text .abi, .text .dtype, .text .layout, .text .shape,
    .scalar .policyId, .scalar .policyGeneration, .text .policyFingerprint, .text .contentDigest,
    .scalar .coordinatorEpoch, .scalar .workerId, .scalar .workerBoot, .scalar .evidence, .scalar .validity,
    .scalar .invalidationReason, .scalar .reuseEligibility, .text .note]

namespace RecordData

def word (d : RecordData) : DigestField → UInt64
  | .scalar f => d.scalarField f
  | .text f => fnv1a64 (d.textField f)

def referenceWords (d : RecordData) : List UInt64 :=
  (stdSort d.inputStates).flatMap (fun v => [v.get]) ++ [(stdSort d.inputStates).length.toUInt64] ++
  (stdSort d.parentProvenance).flatMap (fun v => [v.get]) ++ [(stdSort d.parentProvenance).length.toUInt64] ++
  (stdSort d.dependencies).flatMap
    (fun dep => [dep.id.get, dep.generation.get, fnv1a64 dep.kind, fnv1a64 dep.revision]) ++
  [(stdSort d.dependencies).length.toUInt64] ++
  (stdSort d.requirements).flatMap
    (fun req => [req.dimension.toByte.toUInt64, fnv1a64 req.requiredValue, fnv1a64 req.note]) ++
  [(stdSort d.requirements).length.toUInt64]

end RecordData

namespace Digest.StableDigest

lemma withWord_h (sd : StableDigest) (v : UInt64) : (sd.withWord v).h = mix sd.h v := rfl

lemma withEnum_h {E : Type} [EnumClass E] (sd : StableDigest) (v : EnumValue E) :
    (sd.withEnum v).h = mix sd.h v.toByte.toUInt64 := rfl

lemma withId_h {Tag : Type} (sd : StableDigest) (id : ScalarIdentifier Tag) :
    (sd.withId id).h = mix sd.h id.get := rfl

lemma withString_h (sd : StableDigest) (sv : ByteString) : (sd.withString sv).h = mix sd.h (fnv1a64 sv) :=
  mixString_eq sd.h sv

lemma foldl_h {A : Type} {step : StableDigest → A → StableDigest} {words : A → List UInt64}
    (hstep : ∀ sd a, (step sd a).h = (words a).foldl mix sd.h) (l : List A) (sd : StableDigest) :
    (l.foldl step sd).h = (l.flatMap words).foldl mix sd.h := by
  induction l generalizing sd with
  | nil => rfl
  | cons a l ih => rw [List.foldl_cons, ih, hstep, List.flatMap_cons, List.foldl_append]

end Digest.StableDigest

namespace ProvenanceRecord

open StableDigest RecordData

lemma derivationDigest_eq (rec : ProvenanceRecord) : rec.derivationDigest =
    digestString ((digestLayout.map rec.d.word ++ rec.d.referenceWords).foldl mix 0x70726f76656e6365) := by
  have hid : ∀ {Tag : Type} (l : List (ScalarIdentifier Tag)) (sd : StableDigest),
      (l.foldl (fun sd v => sd.withWord v.get) sd).h = (l.flatMap fun v => [v.get]).foldl mix sd.h := by
    intro l sd
    apply foldl_h
    exact fun _ _ => rfl
  have hdep : ∀ (l : List Dependency) (sd : StableDigest),
      (l.foldl (fun sd dep =>
        sd.withId dep.id |>.withId dep.generation |>.withString dep.kind |>.withString dep.revision) sd).h =
      (l.flatMap fun dep => [dep.id.get, dep.generation.get, fnv1a64 dep.kind, fnv1a64 dep.revision]).foldl
        mix sd.h := by
    intro l sd
    apply foldl_h
    exact fun _ _ => rfl
  have hreq : ∀ (l : List CompatibilityRequirement) (sd : StableDigest),
      (l.foldl (fun sd req =>
        sd.withEnum req.dimension |>.withString req.requiredValue |>.withString req.note) sd).h =
      (l.flatMap fun req => [req.dimension.toByte.toUInt64, fnv1a64 req.requiredValue,
        fnv1a64 req.note]).foldl mix sd.h := by
    intro l sd
    apply foldl_h
    exact fun _ _ => rfl
  rw [derivationDigest, str]
  simp only [hid, hdep, hreq, withWord_h, withEnum_h, withId_h, withString_h, digestLayout, List.map_cons,
    List.map_nil, word, scalarField, textField, referenceWords, List.foldl_append, List.foldl_cons, List.foldl_nil]

lemma scalar_mem_digestLayout {f : ScalarField} (hf : f ≠ .artifactGeneration) :
    DigestField.scalar f ∈ digestLayout := by
  cases f
  case artifactGeneration => exact absurd rfl hf
  all_goals decide

lemma nodup_digestLayout : digestLayout.Nodup := by decide

section OneField

variable {f : ScalarField} {a b : RecordData} (h : DiffersOnlyAt f a b)

include h

lemma map_word_eq {l : List DigestField} (hl : DigestField.scalar f ∉ l) : l.map a.word = l.map b.word := by
  refine List.map_congr_left fun g hg => ?_
  cases g with
  | scalar g => exact h.scalars g (by rintro rfl; exact hl hg)
  | text t => exact congrArg fnv1a64 (h.texts t)

lemma referenceWords_eq : a.referenceWords = b.referenceWords := by
  simp only [referenceWords, h.inputStates, h.parentProvenance, h.dependencies, h.requirements]

lemma derivationDigest_ne (hf : f ≠ .artifactGeneration) :
    derivationDigest ⟨a⟩ ≠ derivationDigest ⟨b⟩ := by
  obtain ⟨before, after, hlayout⟩ := List.append_of_mem (scalar_mem_digestLayout hf)
  have hn := nodup_digestLayout
  rw [hlayout] at hn
  have hbefore : DigestField.scalar f ∉ before :=
    fun hm => (List.nodup_append.mp hn).2.2 _ hm _ List.mem_cons_self rfl
  have hafter : DigestField.scalar f ∉ after := (List.nodup_cons.mp (List.nodup_append.mp hn).2.1).1
  rw [derivationDigest_eq, derivationDigest_eq, hlayout]
  simp only [List.map_append, List.map_cons, List.append_assoc, List.cons_append]
  rw [map_word_eq h hbefore, map_word_eq h hafter, referenceWords_eq h]
  intro he
  exact absorbing_mix.foldl_ne h.differ _ _ _ (hex16_injective he)

end OneField

lemma derivationDigest_artifactGeneration (d : RecordData) (g : ArtifactGeneration) :
    derivationDigest ⟨{ d with artifactGeneration := g }⟩ = derivationDigest ⟨d⟩ := rfl

lemma differsOnlyAt_artifactGeneration {d : RecordData} {g : ArtifactGeneration}
    (hg : d.artifactGeneration ≠ g) :
    DiffersOnlyAt .artifactGeneration d { d with artifactGeneration := g } where
  differ := fun he => hg (ScalarIdentifier.value_injective he)
  scalars := by
    intro f hf
    cases f
    case artifactGeneration => exact absurd rfl hf
    all_goals rfl
  texts := by
    intro t
    cases t <;> rfl
  inputStates := rfl
  parentProvenance := rfl
  dependencies := rfl
  requirements := rfl

lemma eq_set_artifactGeneration {a b : RecordData} (h : DiffersOnlyAt .artifactGeneration a b) :
    { a with artifactGeneration := b.artifactGeneration } = b := by
  have hset : DiffersOnlyAt .artifactGeneration a { a with artifactGeneration := b.artifactGeneration } :=
    differsOnlyAt_artifactGeneration fun he => h.differ (congrArg ScalarIdentifier.value he)
  refine eq_of_fields (fun f => ?_) (fun t => (hset.texts t).symm.trans (h.texts t)) h.inputStates
    h.parentProvenance h.dependencies h.requirements
  by_cases hf : f = .artifactGeneration
  · subst hf
    rfl
  · exact (hset.scalars f hf).symm.trans (h.scalars f hf)

lemma derivationDigest_eq_of_artifactGeneration {a b : RecordData}
    (h : DiffersOnlyAt .artifactGeneration a b) : derivationDigest ⟨a⟩ = derivationDigest ⟨b⟩ := by
  rw [← derivationDigest_artifactGeneration a b.artifactGeneration, eq_set_artifactGeneration h]

theorem derivationDigest_ne_iff {f : ScalarField} {a b : RecordData} (h : DiffersOnlyAt f a b) :
    derivationDigest ⟨a⟩ ≠ derivationDigest ⟨b⟩ ↔ f ≠ .artifactGeneration := by
  refine ⟨?_, derivationDigest_ne h⟩
  rintro hne rfl
  exact hne (derivationDigest_eq_of_artifactGeneration h)

lemma differsOnlyAt_modelId :
    DiffersOnlyAt .modelId (.produced 1) { RecordData.produced 1 with modelId := ⟨7⟩ } where
  differ := by decide
  scalars := by
    intro g hg
    cases g
    case modelId => exact absurd rfl hg
    all_goals rfl
  texts := by
    intro t
    cases t <;> rfl
  inputStates := rfl
  parentProvenance := rfl
  dependencies := rfl
  requirements := rfl

theorem derivationDigest_model :
    derivationDigest ⟨.produced 1⟩ ≠ derivationDigest ⟨{ RecordData.produced 1 with modelId := ⟨7⟩ }⟩ :=
  (derivationDigest_ne_iff differsOnlyAt_modelId).mpr (by decide)

theorem derivationDigest_ignores_artifact :
    ¬ ∀ (f : ScalarField) (a b : RecordData), DiffersOnlyAt f a b →
      derivationDigest ⟨a⟩ ≠ derivationDigest ⟨b⟩ := by
  intro hall
  have hgen : (RecordData.produced 1).artifactGeneration ≠ ⟨1⟩ := by decide
  exact hall _ _ _ (differsOnlyAt_artifactGeneration hgen) (derivationDigest_artifactGeneration _ ⟨1⟩).symm

theorem derivationDigest_perm (d : RecordData) {inputs : List StateId} {parents : List ProvenanceId}
    {deps : List Dependency} {reqs : List CompatibilityRequirement} (hinputs : inputs.Perm d.inputStates)
    (hparents : parents.Perm d.parentProvenance) (hdeps : deps.Perm d.dependencies)
    (hreqs : reqs.Perm d.requirements) :
    derivationDigest ⟨{ d with
        inputStates := inputs, parentProvenance := parents, dependencies := deps, requirements := reqs }⟩ =
      derivationDigest ⟨d⟩ := by
  simp only [derivationDigest, stdSort_eq_of_perm hinputs, stdSort_eq_of_perm hparents,
    stdSort_eq_of_perm hdeps, stdSort_eq_of_perm hreqs]

theorem derivationDigest_perm_pair :
    derivationDigest ⟨{ RecordData.produced 1 with
        inputStates := [⟨2⟩, ⟨3⟩]
        dependencies := [{ id := ⟨1⟩, kind := [97] }, { id := ⟨1⟩, kind := [98] }] }⟩ =
      derivationDigest ⟨{ RecordData.produced 1 with
        inputStates := [⟨3⟩, ⟨2⟩]
        dependencies := [{ id := ⟨1⟩, kind := [98] }, { id := ⟨1⟩, kind := [97] }] }⟩ :=
  derivationDigest_perm
    { RecordData.produced 1 with
      inputStates := [⟨3⟩, ⟨2⟩]
      dependencies := [{ id := ⟨1⟩, kind := [98] }, { id := ⟨1⟩, kind := [97] }] }
    (List.Perm.swap _ _ []) (List.Perm.refl _) (List.Perm.swap _ _ []) (List.Perm.refl _)

end ProvenanceRecord

end StateProvenance
