import StateProvenance.Protocol
import StateProvenance.PersistRoundTrip
import StateProvenance.Fencing

/-! The publish payload read back. A domain generation of 0 is written like an absent one, and is the only
thing that the wire loses. -/

namespace StateProvenance

open Std Library.OrderedMap Library.ByteCodec ProvenanceStore

section Takes

def Takes {α : Type} (m : StateM ClaimReader α) (cs : List Chunk) (a : α) : Prop :=
  ∀ w, emit cs = .ok w → ∀ rest u, ∃ u', m ⟨⟨w ++ rest, true⟩, u⟩ = (a, ⟨⟨rest, true⟩, u'⟩)

lemma Takes.pure {α : Type} (a : α) : Takes (Pure.pure a) [] a := by
  intro w hw rest u
  cases hw
  exact ⟨u, rfl⟩

lemma Takes.cons {α β : Type} {m : StateM ClaimReader α} {f : α → StateM ClaimReader β} {c : Chunk}
    {ds : List Chunk} {a : α} {b : β} (hm : Takes m [c] a) (hf : Takes (f a) ds b) :
    Takes (m >>= f) (c :: ds) b := by
  intro w hw rest u
  obtain ⟨x, y, hx, hy, rfl⟩ := (emit_append_eq_ok [c] ds w).mp hw
  obtain ⟨u₁, h₁⟩ := hm x hx (y ++ rest) u
  obtain ⟨u₂, h₂⟩ := hf y hy rest u₁
  have hbind : ∀ s, (m >>= f) s = f (m s).1 (m s).2 := fun _ => rfl
  refine ⟨u₂, ?_⟩
  rw [hbind, List.append_assoc, h₁]
  exact h₂

lemma takes_next (v : UInt64) : Takes ClaimReader.next [BinaryWriter.u64 v] v := by
  intro w hw rest u
  have he : emit [BinaryWriter.u64 v] = .ok (toLE 8 v.toNat ++ []) := rfl
  obtain rfl := Except.ok.inj (he.symm.trans hw)
  refine ⟨v, ?_⟩
  rw [List.append_nil, ClaimReader.next, u64_append]

lemma takes_nextId {Tag : Type} (v : ScalarIdentifier Tag) :
    Takes ClaimReader.nextId [BinaryWriter.id v] v :=
  (takes_next v.get).cons (Takes.pure v)

/-- A domain generation after the wire: the null value is read as absent. -/
def wireGeneration {Tag : Type} (g : Option (ScalarIdentifier Tag)) : Option (ScalarIdentifier Tag) :=
  g.filter ScalarIdentifier.valid

lemma takes_nextOptional {Tag : Type} (old g : Option (ScalarIdentifier Tag)) :
    Takes (ClaimReader.nextOptional old) [optionalWord g] ((wireGeneration g).or old) := by
  have hvalue : (if g.elim 0 ScalarIdentifier.get ≠ 0 then some ⟨g.elim 0 ScalarIdentifier.get⟩ else old) =
      (wireGeneration g).or old := by
    cases g with
    | none => rfl
    | some g =>
      by_cases hg : g.value = 0
      · simp [wireGeneration, ScalarIdentifier.valid, ScalarIdentifier.get, Option.filter, hg]
      · simp [wireGeneration, ScalarIdentifier.valid, ScalarIdentifier.get, Option.filter, hg]
  rw [← hvalue]
  exact (takes_next _).cons (Takes.pure _)

end Takes

def onWire (c : AuthorityClaim) : AuthorityClaim :=
  { c with
    artifactGeneration := wireGeneration c.artifactGeneration
    modelGeneration := wireGeneration c.modelGeneration
    adapterGeneration := wireGeneration c.adapterGeneration
    compositionGeneration := wireGeneration c.compositionGeneration
    policyGeneration := wireGeneration c.policyGeneration
    dependencyGeneration := wireGeneration c.dependencyGeneration }

/-- The claim that is read into `base`: a generation read as 0 leaves the one that was there. -/
def receivedOver (base c : AuthorityClaim) : AuthorityClaim :=
  { c with
    artifactGeneration := (wireGeneration c.artifactGeneration).or base.artifactGeneration
    modelGeneration := (wireGeneration c.modelGeneration).or base.modelGeneration
    adapterGeneration := (wireGeneration c.adapterGeneration).or base.adapterGeneration
    compositionGeneration := (wireGeneration c.compositionGeneration).or base.compositionGeneration
    policyGeneration := (wireGeneration c.policyGeneration).or base.policyGeneration
    dependencyGeneration := (wireGeneration c.dependencyGeneration).or base.dependencyGeneration }

@[simp] lemma receivedOver_default (c : AuthorityClaim) : receivedOver {} c = onWire c := by
  simp [receivedOver, onWire]

lemma takes_claim (base c : AuthorityClaim) :
    Takes (readClaim base) (encodeClaim c) (receivedOver base c) := by
  rw [readClaim, encodeClaim]
  apply (takes_next _).cons
  iterate 6 apply (takes_nextId _).cons
  iterate 6 apply (takes_nextOptional _ _).cons
  exact Takes.pure _

lemma emits_encodeClaim (c : AuthorityClaim) : Emits (encodeClaim c) := by
  simp [encodeClaim, optionalWord, BinaryWriter.id, BinaryWriter.u64]

lemma length_encodeClaim {c : AuthorityClaim} {w : ByteString} (h : emit (encodeClaim c) = .ok w) :
    w.length = 104 := by
  rw [length_emit h]
  simp [encodeClaim, optionalWord, BinaryWriter.id, BinaryWriter.u64, chunkSize]

/-! The offset after a claim. The old offset is added to the whole length of the payload. -/

lemma decodeClaim_at (base : AuthorityClaim) {c : AuthorityClaim} {w : ByteString}
    (h : emit (encodeClaim c) = .ok w) (front back : ByteString) :
    decodeClaim (front ++ w ++ back) front.length base =
      (receivedOver base c, 2 * front.length + w.length) := by
  obtain ⟨u, hread⟩ := takes_claim base c w h back 0
  have hdrop : (front ++ w ++ back).drop front.length = w ++ back := by
    rw [List.append_assoc, List.drop_left]
  have hlen : (front ++ w ++ back).length = front.length + w.length + back.length := by
    simp only [List.length_append]
  rw [decodeClaim, hdrop, hread, hlen]
  simp only [Cursor.remaining, if_true, Prod.mk.injEq, true_and]
  omega

lemma decodeClaim_append {c : AuthorityClaim} {w : ByteString} (h : emit (encodeClaim c) = .ok w)
    (rest : ByteString) : decodeClaim (w ++ rest) 0 {} = (onWire c, w.length) := by
  simpa using decodeClaim_at {} h [] rest

/-- A claim written between `front` and `back` is read up to `back`. -/
def AdvancesExactly (base c : AuthorityClaim) (front back : ByteString) : Prop :=
  ∃ w, emit (encodeClaim c) = .ok w ∧
    (decodeClaim (front ++ w ++ back) front.length base).2 = front.length + w.length ∧
    (front ++ w ++ back).drop (decodeClaim (front ++ w ++ back) front.length base).2 = back

theorem advancesExactly_iff (base c : AuthorityClaim) (front back : ByteString) :
    AdvancesExactly base c front back ↔ front = [] := by
  constructor
  · rintro ⟨w, hw, hoff, -⟩
    rw [decodeClaim_at base hw] at hoff
    change 2 * front.length + w.length = front.length + w.length at hoff
    exact List.length_eq_zero_iff.mp (by omega)
  · rintro rfl
    obtain ⟨w, hw⟩ := emits_encodeClaim c
    have hread := decodeClaim_at base hw [] back
    refine ⟨w, hw, ?_, ?_⟩
    · rw [hread]
      simp
    · rw [hread]
      simp

theorem decodeClaim_overshoots : ¬ ∀ base c front back, AdvancesExactly base c front back := by
  -- One byte in front of the claim is counted twice.
  intro h
  obtain ⟨w, hw, hoff, -⟩ := h {} {} [0] []
  rw [decodeClaim_at {} hw] at hoff
  change 2 * 1 + w.length = 1 + w.length at hoff
  omega

structure Readable (d : RecordData) : Prop where
  valid : validateRecord d = none
  named : RecordNamed d
  bounds : RecordBounds d

lemma decodePublishPayload_append {d : RecordData} {c : AuthorityClaim} {payload : ByteString} (hd : Readable d)
    (he : encodePublishPayload d c = .ok payload) (extra : ByteString) :
    decodePublishPayload (payload ++ extra) = some (d, onWire c) := by
  obtain ⟨w, v, hw, hv, rfl⟩ := (emit_append_eq_ok _ _ _).mp he
  have hread : readRecord {} ⟨v ++ extra, true⟩ = .ok (d, ⟨extra, true⟩) := by
    have hreads : Reads True (readRecord {}) (writeRecord d) d :=
      reads_record hd.bounds (fun _ => hd.named) fun _ => hd.valid
    simpa using hreads v hv extra
  have hlen : ¬ (w ++ (v ++ extra)).length < 104 := by
    rw [List.length_append, length_encodeClaim hw]
    omega
  rw [List.append_assoc, decodePublishPayload, if_neg hlen, decodeClaim_append hw]
  simp only [List.drop_left, hread]

lemma decodePublishPayload_encode {d : RecordData} (hv : validateRecord d = none) (hn : RecordNamed d)
    (hb : RecordBounds d) (c : AuthorityClaim) : ∃ payload, encodePublishPayload d c = .ok payload ∧
      decodePublishPayload payload = some (d, onWire c) := by
  obtain ⟨w, hw⟩ := emits_encodeClaim c
  obtain ⟨v, hrec⟩ := (emits_writeRecord_iff d).mpr hb.strings
  have he : encodePublishPayload d c = .ok (w ++ v) := (emit_append_eq_ok _ _ _).mpr ⟨w, v, hw, hrec, rfl⟩
  have hread := decodePublishPayload_append ⟨hv, hn, hb⟩ he []
  rw [List.append_nil] at hread
  exact ⟨w ++ v, he, hread⟩

def SameVerdict (c c' : AuthorityClaim) : Prop :=
  ∀ a : AuthorityState, (a.evaluateClaim c').outcome = (a.evaluateClaim c).outcome ∧
    (a.evaluateClaim c').dimension = (a.evaluateClaim c).dimension

@[mk_iff] structure NoNullGeneration (c : AuthorityClaim) : Prop where
  artifactGeneration : c.artifactGeneration ≠ some {}
  modelGeneration : c.modelGeneration ≠ some {}
  adapterGeneration : c.adapterGeneration ≠ some {}
  compositionGeneration : c.compositionGeneration ≠ some {}
  policyGeneration : c.policyGeneration ≠ some {}
  dependencyGeneration : c.dependencyGeneration ≠ some {}

section Verdict

variable {Tag : Type} {g : Option (ScalarIdentifier Tag)}

lemma wireGeneration_eq (h : g ≠ some {}) : wireGeneration g = g := by
  cases g with
  | none => rfl
  | some g =>
    have hvalid : g.valid = true := (ScalarIdentifier.valid_eq_true_iff g).mpr fun he => h (congrArg some he)
    exact Option.filter_some_pos hvalid

def distinguish (g : Option (ScalarIdentifier Tag)) : ScalarIdentifier Tag := if g = some {} then ⟨1⟩ else {}

lemma distinguish_wire (g : Option (ScalarIdentifier Tag)) :
    distinguish g = {} ∨ ∀ x ∈ wireGeneration g, x = distinguish g := by
  by_cases h : g = some {}
  · right
    simp [h, wireGeneration, Option.filter]
  · left
    rw [distinguish, if_neg h]

lemma ne_null_of_distinguish (h : distinguish g = {} ∨ ∀ x ∈ g, x = distinguish g) : g ≠ some {} := by
  rintro rfl
  have hone : (1 : UInt64) ≠ 0 := by decide
  have hne : (⟨1⟩ : ScalarIdentifier Tag) ≠ {} := fun h => hone (congrArg ScalarIdentifier.value h)
  rw [distinguish, if_pos rfl] at h
  cases h with
  | inl hnull => exact hne hnull
  | inr heq => exact hne (heq {} rfl).symm

end Verdict

def distinguishing (c : AuthorityClaim) : AuthorityState where
  epoch := c.coordinatorEpoch
  boot := (∅ : OrdMap WorkerId WorkerBootId).insert c.workerId c.workerBoot
  artifactGeneration := distinguish c.artifactGeneration
  modelGeneration := distinguish c.modelGeneration
  adapterGeneration := distinguish c.adapterGeneration
  compositionGeneration := distinguish c.compositionGeneration
  policyGeneration := distinguish c.policyGeneration
  dependencyGeneration := distinguish c.dependencyGeneration

lemma distinguishing_current (c : AuthorityClaim) : ClaimCurrent (distinguishing c) (onWire c) where
  epoch := rfl
  boot := Or.inr (by simp [AuthorityState.bootOf, distinguishing, onWire])
  attemptId := Or.inr (Or.inl rfl)
  attemptGeneration := Or.inr (Or.inl rfl)
  stateGeneration := Or.inr (Or.inl rfl)
  provenanceGeneration := Or.inr (Or.inl rfl)
  artifactGeneration := distinguish_wire c.artifactGeneration
  modelGeneration := distinguish_wire c.modelGeneration
  adapterGeneration := distinguish_wire c.adapterGeneration
  compositionGeneration := distinguish_wire c.compositionGeneration
  policyGeneration := distinguish_wire c.policyGeneration
  dependencyGeneration := distinguish_wire c.dependencyGeneration

lemma noNullGeneration_of_current {c : AuthorityClaim} (h : ClaimCurrent (distinguishing c) c) :
    NoNullGeneration c where
  artifactGeneration := ne_null_of_distinguish h.artifactGeneration
  modelGeneration := ne_null_of_distinguish h.modelGeneration
  adapterGeneration := ne_null_of_distinguish h.adapterGeneration
  compositionGeneration := ne_null_of_distinguish h.compositionGeneration
  policyGeneration := ne_null_of_distinguish h.policyGeneration
  dependencyGeneration := ne_null_of_distinguish h.dependencyGeneration

lemma onWire_eq {c : AuthorityClaim} (h : NoNullGeneration c) : onWire c = c := by
  cases c
  rw [onWire, wireGeneration_eq h.artifactGeneration, wireGeneration_eq h.modelGeneration,
    wireGeneration_eq h.adapterGeneration, wireGeneration_eq h.compositionGeneration,
    wireGeneration_eq h.policyGeneration, wireGeneration_eq h.dependencyGeneration]

lemma sameVerdict_onWire_iff (c : AuthorityClaim) : SameVerdict c (onWire c) ↔ NoNullGeneration c := by
  constructor
  · intro h
    have haccept := (accepted_iff_claimCurrent _ _).mpr (distinguishing_current c)
    rw [FenceVerdict.accepted, (h (distinguishing c)).1] at haccept
    exact noNullGeneration_of_current ((accepted_iff_claimCurrent _ _).mp haccept)
  · intro h a
    rw [onWire_eq h]
    exact ⟨rfl, rfl⟩

def WirePreserves (d : RecordData) (c : AuthorityClaim) : Prop :=
  ∃ payload c', encodePublishPayload d c = .ok payload ∧ decodePublishPayload payload = some (d, c') ∧
    SameVerdict c c'

theorem wirePreserves_iff {d : RecordData} (hv : validateRecord d = none) (hn : RecordNamed d)
    (hb : RecordBounds d) (c : AuthorityClaim) :
    (∃ payload, encodePublishPayload d c = .ok payload ∧ decodePublishPayload payload = some (d, onWire c)) ∧
      (WirePreserves d c ↔ NoNullGeneration c) := by
  obtain ⟨payload, he, hd⟩ := decodePublishPayload_encode hv hn hb c
  refine ⟨⟨payload, he, hd⟩, ?_⟩
  rw [← sameVerdict_onWire_iff]
  constructor
  · rintro ⟨payload', c', he', hd', hsame⟩
    obtain rfl := Except.ok.inj (he.symm.trans he')
    obtain rfl := congrArg Prod.snd (Option.some.inj (hd.symm.trans hd'))
    exact hsame
  · intro hsame
    exact ⟨payload, onWire c, he, hd, hsame⟩

theorem produced_wirePreserves :
    (∃ payload, encodePublishPayload (.produced 1) attemptClaim = .ok payload ∧
        decodePublishPayload payload = some (.produced 1, onWire attemptClaim)) ∧
      (WirePreserves (.produced 1) attemptClaim ↔ NoNullGeneration attemptClaim) :=
  wirePreserves_iff rfl (by decide) (by decide) _

theorem null_generation_lost : ¬ ∀ d c, validateRecord d = none → RecordNamed d → RecordBounds d →
    WirePreserves d c := by
  intro h
  obtain ⟨payload, c', he, hd, hsame⟩ :=
    h (.produced 1) { artifactGeneration := some ⟨0⟩ } rfl (by decide) (by decide)
  obtain ⟨payload', he', hd'⟩ := decodePublishPayload_encode (d := .produced 1) rfl (by decide) (by decide)
    { artifactGeneration := some ⟨0⟩ }
  obtain rfl := Except.ok.inj (he.symm.trans he')
  obtain rfl := congrArg Prod.snd (Option.some.inj (hd.symm.trans hd'))
  exact ((sameVerdict_onWire_iff _).mp hsame).artifactGeneration rfl

end StateProvenance
