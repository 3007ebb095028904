import StateProvenance.PublishWire
import StateProvenance.SnapshotStream

/-! Accepted publish payloads. The decoder takes the claim's words and one record and does not ask whether
the payload ends there: it accepts exactly the encodings with any bytes after them. -/

namespace StateProvenance

open Std Library.OrderedMap Library.ByteCodec ProvenanceStore

section Words

lemma exists_words (n : ℕ) {w : ByteString} (hw : w.length = 8 * n) :
    ∃ l : List UInt64, l.length = n ∧ emit (l.map BinaryWriter.u64) = .ok w := by
  induction n generalizing w with
  | zero =>
    obtain rfl := List.length_eq_zero_iff.mp hw
    exact ⟨[], rfl, rfl⟩
  | succ n ih =>
    have hhead : (w.take 8).length = 8 := by
      rw [List.length_take]
      omega
    have htail : (w.drop 8).length = 8 * n := by
      rw [List.length_drop]
      omega
    obtain ⟨l, hl, he⟩ := ih htail
    refine ⟨(ofLE (w.take 8)).toUInt64 :: l, by rw [List.length_cons, hl], ?_⟩
    have hword : BinaryWriter.u64 (ofLE (w.take 8)).toUInt64 = .ok (w.take 8) := by
      rw [BinaryWriter.u64, toLE_toUInt64 hhead]
    exact (emit_cons_eq_ok _ _ _).mpr ⟨_, _, hword, he, (List.take_append_drop 8 w).symm⟩

lemma exists_claim {w : ByteString} (hw : w.length = 104) : ∃ c, emit (encodeClaim c) = .ok w := by
  obtain ⟨l, hl, he⟩ := exists_words 13 hw
  match l, hl with
  | [epoch, worker, boot, attempt, attemptGen, state, provenance, artifact, model, adapter, composition,
      policy, dependency], _ =>
    let c : AuthorityClaim := {
      coordinatorEpoch := epoch, workerId := ⟨worker⟩, workerBoot := ⟨boot⟩, attemptId := ⟨attempt⟩
      attemptGeneration := ⟨attemptGen⟩, stateGeneration := ⟨state⟩, provenanceGeneration := ⟨provenance⟩
      artifactGeneration := some ⟨artifact⟩, modelGeneration := some ⟨model⟩
      adapterGeneration := some ⟨adapter⟩, compositionGeneration := some ⟨composition⟩
      policyGeneration := some ⟨policy⟩, dependencyGeneration := some ⟨dependency⟩ }
    exact ⟨c, he⟩

lemma optionalWord_wireGeneration {Tag : Type} (g : Option (ScalarIdentifier Tag)) :
    optionalWord (wireGeneration g) = optionalWord g := by
  by_cases h : g = some {}
  · rw [h]
    rfl
  · rw [wireGeneration_eq h]

lemma encodeClaim_onWire (c : AuthorityClaim) : encodeClaim (onWire c) = encodeClaim c := by
  simp only [encodeClaim, onWire, optionalWord_wireGeneration]

end Words

section Acceptance

variable {d : RecordData} {c : AuthorityClaim}

lemma encode_of_decodePublishPayload {payload : ByteString} (h : decodePublishPayload payload = some (d, c)) :
    Readable d ∧ ∃ front extra, encodePublishPayload d c = .ok front ∧ payload = front ++ extra := by
  rw [decodePublishPayload] at h
  split at h
  · contradiction
  · next hlen =>
    have hclaim : (payload.take 104).length = 104 := by
      rw [List.length_take]
      omega
    obtain ⟨c₀, hc₀⟩ := exists_claim hclaim
    have hdecoded := decodeClaim_append hc₀ (payload.drop 104)
    rw [List.take_append_drop, hclaim] at hdecoded
    simp only [hdecoded] at h
    cases hr : readRecord {} ⟨payload.drop 104, true⟩ with
    | error e => simp [hr] at h
    | ok x =>
      rcases x with ⟨d', r⟩
      simp only [hr, Option.some.injEq, Prod.mk.injEq] at h
      obtain ⟨rfl, rfl⟩ := h
      obtain ⟨cs, v, ⟨rfl, hfit⟩, hv, hrest, -⟩ := parses_record _ _ _ hr
      obtain ⟨hvalid, hnamed⟩ := ensures_record _ _ _ hr
      have hbounds : RecordBounds d' := ⟨(emits_writeRecord_iff d').mp ⟨v, hv⟩, hfit.inputStates,
        hfit.parentProvenance, hfit.dependencies, hfit.requirements⟩
      refine ⟨⟨hvalid, hnamed, hbounds⟩, payload.take 104 ++ v, r.rest, ?_, ?_⟩
      · rw [encodePublishPayload, encodeClaim_onWire]
        exact (emit_append_eq_ok _ _ _).mpr ⟨_, v, hc₀, hv, rfl⟩
      · rw [List.append_assoc, ← hrest, List.take_append_drop]

end Acceptance

def ExtraBytes (payload : ByteString) : Prop :=
  ∃ d c front extra, Readable d ∧ encodePublishPayload d c = .ok front ∧ extra ≠ [] ∧ payload = front ++ extra

def AcceptedExactly (payload : ByteString) : Prop :=
  ∀ d c, decodePublishPayload payload = some (d, c) → encodePublishPayload d c = .ok payload

theorem acceptedExactly_iff (payload : ByteString) : (AcceptedExactly payload ↔ ¬ ExtraBytes payload) ∧
    (ExtraBytes payload → ∃ d c, decodePublishPayload payload = some (d, c)) := by
  refine ⟨⟨?_, ?_⟩, ?_⟩
  · rintro hexact ⟨d, c, front, extra, hd, he, hne, rfl⟩
    have hwhole := hexact d (onWire c) (decodePublishPayload_append hd he extra)
    rw [encodePublishPayload, encodeClaim_onWire] at hwhole
    have hsame : front = front ++ extra := Except.ok.inj (he.symm.trans hwhole)
    exact hne (List.self_eq_append_right.mp hsame)
  · intro hend d c h
    obtain ⟨hd, front, extra, he, rfl⟩ := encode_of_decodePublishPayload h
    have hnone : extra = [] := by
      by_contra hne
      exact hend ⟨d, c, front, extra, hd, he, hne, rfl⟩
    rw [he, hnone, List.append_nil]
  · rintro ⟨d, c, front, extra, hd, he, -, rfl⟩
    exact ⟨d, onWire c, decodePublishPayload_append hd he extra⟩

theorem trailing_byte_accepted :
    ¬ ∀ payload d c, decodePublishPayload payload = some (d, c) → encodePublishPayload d c = .ok payload := by
  intro h
  obtain ⟨payload, he, -⟩ :=
    decodePublishPayload_encode (d := .produced 1) rfl (by decide) (by decide) {}
  have hd : Readable (.produced 1) := ⟨rfl, by decide, by decide⟩
  have hagain := h (payload ++ [0]) _ _ (decodePublishPayload_append hd he [0])
  rw [encodePublishPayload, encodeClaim_onWire] at hagain
  have hsame := congrArg List.length (Except.ok.inj (he.symm.trans hagain))
  simp at hsame

end StateProvenance
