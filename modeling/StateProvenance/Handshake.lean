import StateProvenance.Worker
import StateProvenance.PrintedNumbers
import StateProvenance.Fencing

/-! The handshake. The response lists the authority values as text, the epoch in decimal; the worker reads
every value with base 16. -/

namespace StateProvenance

open Std Library.OrderedMap Library.ByteCodec ProvenanceStore

namespace Worker

def join : List (ByteString × ByteString) → ByteString
  | [] => []
  | [e] => e.1 ++ 0x3D :: e.2
  | e :: e' :: es => e.1 ++ 0x3D :: (e.2 ++ 0x3B :: join (e' :: es))

def Clean (e : ByteString × ByteString) : Prop := 0x3D ∉ e.1 ∧ 0x3B ∉ e.1 ∧ 0x3B ∉ e.2

lemma findIdx?_append_cons {c : UInt8} {k : ByteString} (hk : c ∉ k) (rest : ByteString) :
    (k ++ c :: rest).findIdx? (· = c) = some k.length := by
  have hnone : k.findIdx? (· = c) = none := by
    rw [List.findIdx?_eq_none_iff]
    intro b hb
    exact decide_eq_false fun he => hk (he ▸ hb)
  rw [List.findIdx?_append, hnone, List.findIdx?_cons]
  simp

lemma parseFrom_cons (m : OrdMap ByteString ByteString) {e : ByteString × ByteString} (he : Clean e)
    (rest : ByteString) :
    parseFrom m (e.1 ++ 0x3D :: (e.2 ++ 0x3B :: rest)) = parseFrom (m.insert e.1 e.2) rest := by
  obtain ⟨k, v⟩ := e
  obtain ⟨heq, hk, hv⟩ := he
  have hsplit : k ++ 0x3D :: (v ++ 0x3B :: rest) = (k ++ 0x3D :: v) ++ 0x3B :: rest := by simp
  have hsem : (k ++ 0x3D :: (v ++ 0x3B :: rest)).findIdx? (· = 0x3B) = some (k.length + (v.length + 1)) := by
    have hnot : (0x3B : UInt8) ∉ k ++ 0x3D :: v := by simp [hk, hv]
    rw [hsplit, findIdx?_append_cons hnot, List.length_append, List.length_cons]
  rw [parseFrom, findIdx?_append_cons heq]
  simp only
  split
  · next h =>
    rw [hsem] at h
    contradiction
  · next sem h =>
    obtain rfl := Option.some.inj (hsem.symm.trans h)
    have hlt : ¬ k.length + (v.length + 1) < k.length := by omega
    have hlen : k.length + (v.length + 1) - k.length - 1 = v.length := by omega
    have hdrop : (k ++ 0x3D :: (v ++ 0x3B :: rest)).drop (k.length + 1) = v ++ 0x3B :: rest := by
      rw [← List.drop_drop, List.drop_left]
      rfl
    have hrest : (k ++ 0x3D :: (v ++ 0x3B :: rest)).drop (k.length + (v.length + 1) + 1) = rest := by
      have hsum : k.length + (v.length + 1) + 1 = (k.length + 1) + (v.length + 1) := by omega
      rw [hsum, ← List.drop_drop, hdrop, ← List.drop_drop, List.drop_left]
      rfl
    rw [if_neg hlt, hlen, hdrop, hrest, List.take_left, List.take_left]

lemma parseFrom_last (m : OrdMap ByteString ByteString) {e : ByteString × ByteString} (he : Clean e) :
    parseFrom m (e.1 ++ 0x3D :: e.2) = m.insert e.1 e.2 := by
  obtain ⟨k, v⟩ := e
  obtain ⟨heq, hk, hv⟩ := he
  have hsem : (k ++ 0x3D :: v).findIdx? (· = 0x3B) = none := by
    rw [List.findIdx?_eq_none_iff]
    intro b hb
    apply decide_eq_false
    rintro rfl
    simp [hk, hv] at hb
  rw [parseFrom, findIdx?_append_cons heq]
  simp only
  split
  · rw [List.take_left, ← List.drop_drop, List.drop_left]
    rfl
  · next h =>
    rw [hsem] at h
    contradiction

lemma parseFrom_join (m : OrdMap ByteString ByteString) {es : List (ByteString × ByteString)}
    (hes : ∀ e ∈ es, Clean e) : parseFrom m (join es) = es.foldl (fun m e => m.insert e.1 e.2) m := by
  induction es generalizing m with
  | nil =>
    rw [join, parseFrom]
    rfl
  | cons e es ih =>
    obtain ⟨he, hrest⟩ := List.forall_mem_cons.mp hes
    cases es with
    | nil => exact parseFrom_last m he
    | cons e' es =>
      rw [join, parseFrom_cons m he, ih _ hrest]
      rfl

lemma parse_join {es : List (ByteString × ByteString)} (hes : ∀ e ∈ es, Clean e) :
    parse (join es) = fill Prod.fst Prod.snd es :=
  parseFrom_join ∅ hes

end Worker

section Response

open ByteString

def responseEntries (a : AuthoritySnapshot) (policy : ByteString) : List (ByteString × ByteString) :=
  [(ofText "epoch", ofText (toString a.epoch.toNat)), (ofText "attempt", ofText a.attemptId.toText),
    (ofText "attempt_gen", ofText a.attemptGeneration.toText),
    (ofText "state_gen", ofText a.stateGeneration.toText),
    (ofText "prov_gen", ofText a.provenanceGeneration.toText),
    (ofText "dep_gen", ofText a.dependencyGeneration.toText),
    (ofText "model_gen", ofText a.modelGeneration.toText),
    (ofText "adapter_gen", ofText a.adapterGeneration.toText), (ofText "policy_gen", policy)]

lemma semicolon_notMem_digits {ds : List ℕ} (h : ∀ d ∈ ds, d < 16) : (0x3B : UInt8) ∉ ds.map digitByte := by
  intro hm
  obtain ⟨d, hd, hb⟩ := List.mem_map.mp hm
  have hnot := digitByte_notMem (h d hd)
  rw [hb] at hnot
  simp at hnot

lemma semicolon_notMem_toText {Tag : Type} (id : ScalarIdentifier Tag) : (0x3B : UInt8) ∉ ofText id.toText := by
  rw [ofText_toText]
  simp [semicolon_notMem_digits (hexDigits_lt id.value)]

lemma semicolon_notMem_decimal (n : ℕ) : (0x3B : UInt8) ∉ ofText (toString n) := by
  obtain ⟨ds, -, htext, hds, -⟩ := ofText_toString n
  rw [htext]
  exact semicolon_notMem_digits fun d hd => (hds d hd).trans (by decide)

lemma length_toText {Tag : Type} (id : ScalarIdentifier Tag) : id.toText.length = 18 := by
  simp [ScalarIdentifier.toText, ScalarIdentifier.hex16]
  rfl

lemma length_toString_le {n : ℕ} (h : n < 2 ^ 64) : (toString n).length ≤ 20 := by
  have hle : (Nat.toDigits 10 n).length ≤ 20 :=
    (Nat.length_toDigits_le_iff (by decide) (by decide)).mpr (h.trans (by decide))
  rw [← String.length_toList]
  simpa using hle

lemma ofText_eq_flatMap (t : String) : ofText t = t.toList.flatMap String.utf8EncodeChar := by
  rw [← ofText_ofList, String.ofList_toList]

lemma ofText_authoritySummary (s : ProvenanceStore) : ∃ policy, (0x3B : UInt8) ∉ policy ∧
    ofText (authoritySummary s) = Worker.join (responseEntries s.authoritySnapshot policy) := by
  let a := s.authoritySnapshot
  let text := "epoch=" ++ toString a.epoch.toNat ++ ";attempt=" ++ a.attemptId.toText
    ++ ";attempt_gen=" ++ a.attemptGeneration.toText ++ ";state_gen=" ++ a.stateGeneration.toText
    ++ ";prov_gen=" ++ a.provenanceGeneration.toText ++ ";dep_gen=" ++ a.dependencyGeneration.toText
    ++ ";model_gen=" ++ a.modelGeneration.toText ++ ";adapter_gen=" ++ a.adapterGeneration.toText
    ++ ";policy_gen="
  have hlen : text.toList.length ≤ 255 := by
    have hepoch := length_toString_le a.epoch.toNat_lt
    simp only [text, String.length_toList, String.length_append, length_toText]
    change 6 + _ + 9 + 18 + 13 + 18 + 11 + 18 + 10 + 18 + 9 + 18 + 11 + 18 + 13 + 18 + 12 ≤ 255
    omega
  have hsummary : authoritySummary s =
      String.ofList (text.toList ++ a.policyGeneration.toText.toList.take (255 - text.toList.length)) := by
    have htake : authoritySummary s = String.ofList ((text ++ a.policyGeneration.toText).toList.take 255) := rfl
    rw [htake, String.toList_append, List.take_append, List.take_of_length_le hlen]
  refine ⟨(a.policyGeneration.toText.toList.take (255 - text.toList.length)).flatMap String.utf8EncodeChar,
    ?_, ?_⟩
  · intro hm
    obtain ⟨c, hc, hb⟩ := List.mem_flatMap.mp hm
    apply semicolon_notMem_toText a.policyGeneration
    rw [ofText_eq_flatMap]
    exact List.mem_flatMap.mpr ⟨c, List.mem_of_mem_take hc, hb⟩
  · rw [hsummary, ofText_ofList, List.flatMap_append, ← ofText_eq_flatMap]
    have hepoch : ofText "epoch=" = ofText "epoch" ++ [0x3D] := by decide +kernel
    have hattempt : ofText ";attempt=" = 0x3B :: (ofText "attempt" ++ [0x3D]) := by decide +kernel
    have hattemptGen : ofText ";attempt_gen=" = 0x3B :: (ofText "attempt_gen" ++ [0x3D]) := by decide +kernel
    have hstateGen : ofText ";state_gen=" = 0x3B :: (ofText "state_gen" ++ [0x3D]) := by decide +kernel
    have hprovGen : ofText ";prov_gen=" = 0x3B :: (ofText "prov_gen" ++ [0x3D]) := by decide +kernel
    have hdepGen : ofText ";dep_gen=" = 0x3B :: (ofText "dep_gen" ++ [0x3D]) := by decide +kernel
    have hmodelGen : ofText ";model_gen=" = 0x3B :: (ofText "model_gen" ++ [0x3D]) := by decide +kernel
    have hadapterGen : ofText ";adapter_gen=" = 0x3B :: (ofText "adapter_gen" ++ [0x3D]) := by decide +kernel
    have hpolicyGen : ofText ";policy_gen=" = 0x3B :: (ofText "policy_gen" ++ [0x3D]) := by decide +kernel
    simp only [text, ofText_append, hepoch, hattempt, hattemptGen, hstateGen, hprovGen, hdepGen, hmodelGen,
      hadapterGen, hpolicyGen, Worker.join,
      responseEntries, List.append_assoc, List.cons_append, List.nil_append]
    rfl

def responseKeys : List ByteString :=
  [ofText "epoch", ofText "attempt", ofText "attempt_gen", ofText "state_gen", ofText "prov_gen",
    ofText "dep_gen", ofText "model_gen", ofText "adapter_gen", ofText "policy_gen"]

lemma map_fst_responseEntries (a : AuthoritySnapshot) (policy : ByteString) :
    (responseEntries a policy).map Prod.fst = responseKeys := rfl

lemma clean_responseKeys : ∀ k ∈ responseKeys, (0x3D : UInt8) ∉ k ∧ (0x3B : UInt8) ∉ k := by decide +kernel

lemma nodup_responseKeys : responseKeys.Nodup := by decide +kernel

variable (a : AuthoritySnapshot) {policy : ByteString} (hpolicy : (0x3B : UInt8) ∉ policy)

include hpolicy

lemma clean_responseEntries : ∀ e ∈ responseEntries a policy, Worker.Clean e := by
  intro e he
  have hkey : e.1 ∈ responseKeys := map_fst_responseEntries a policy ▸ List.mem_map_of_mem he
  obtain ⟨heq, hsemicolon⟩ := clean_responseKeys e.1 hkey
  refine ⟨heq, hsemicolon, ?_⟩
  simp only [responseEntries, List.mem_cons, List.not_mem_nil, or_false] at he
  rcases he with rfl | rfl | rfl | rfl | rfl | rfl | rfl | rfl | rfl
  · exact semicolon_notMem_decimal _
  · exact semicolon_notMem_toText _
  · exact semicolon_notMem_toText _
  · exact semicolon_notMem_toText _
  · exact semicolon_notMem_toText _
  · exact semicolon_notMem_toText _
  · exact semicolon_notMem_toText _
  · exact semicolon_notMem_toText _
  · exact hpolicy

lemma field_response {key : String} {v : ByteString} (hv : (ofText key, v) ∈ responseEntries a policy) :
    Worker.field (Worker.parse (Worker.join (responseEntries a policy))) key = hx v := by
  have hnodup : ((responseEntries a policy).map Prod.fst).Nodup := by
    rw [map_fst_responseEntries]
    exact nodup_responseKeys
  rw [Worker.field, Worker.parse_join (clean_responseEntries a hpolicy)]
  exact congrArg hx (getD_fill Prod.fst Prod.snd hnodup hv [])

end Response

lemma ofResponse_authoritySummary (s : ProvenanceStore) :
    WorkerAuthority.ofResponse (ByteString.ofText (authoritySummary s)) =
      { epoch := hx (ByteString.ofText (toString s.authority.epoch.toNat))
        attempt := s.authority.attemptId.value
        attemptGen := s.authority.attemptGeneration.value
        stateGen := s.authority.stateGeneration.value
        provGen := s.authority.provenanceGeneration.value
        depGen := s.authority.dependencyGeneration.value
        modelGen := s.authority.modelGeneration.value } := by
  obtain ⟨policy, hpolicy, htext⟩ := ofText_authoritySummary s
  have hfield : ∀ {i : ℕ} {key : String} {v : ByteString},
      (responseEntries s.authoritySnapshot policy)[i]? = some (ByteString.ofText key, v) →
      Worker.field (Worker.parse (ByteString.ofText (authoritySummary s))) key = hx v := by
    intro i key v hv
    rw [htext]
    exact field_response _ hpolicy (List.mem_of_getElem? hv)
  have hepoch := hfield (i := 0) rfl
  have hattempt := (hfield (i := 1) rfl).trans (hx_toText _)
  have hattemptGen := (hfield (i := 2) rfl).trans (hx_toText _)
  have hstateGen := (hfield (i := 3) rfl).trans (hx_toText _)
  have hprovGen := (hfield (i := 4) rfl).trans (hx_toText _)
  have hdepGen := (hfield (i := 5) rfl).trans (hx_toText _)
  have hmodelGen := (hfield (i := 6) rfl).trans (hx_toText _)
  simp only [WorkerAuthority.ofResponse, hepoch, hattempt, hattemptGen, hstateGen, hprovGen, hdepGen, hmodelGen]
  rfl

lemma agrees_orOne {Tag : Type} (id : ScalarIdentifier Tag) : Agrees ⟨WorkerAuthority.orOne id.value⟩ id := by
  by_cases h : id = {}
  · exact Or.inr (Or.inl h)
  · have hvalue : id.value ≠ 0 := fun he => h (ScalarIdentifier.value_injective he)
    right
    right
    rw [WorkerAuthority.orOne, if_pos hvalue]

structure HandedOver (r : ProvenanceStore) (w : WorkerAuthority) (wid : WorkerId) (boot : WorkerBootId) :
    Prop where
  epoch : w.epoch = r.authority.epoch
  attempt : w.attempt = r.authority.attemptId.value
  attemptGen : w.attemptGen = r.authority.attemptGeneration.value
  stateGen : w.stateGen = r.authority.stateGeneration.value
  provGen : w.provGen = r.authority.provenanceGeneration.value
  depGen : w.depGen = r.authority.dependencyGeneration.value
  modelGen : w.modelGen = r.authority.modelGeneration.value
  accepted : (r.evaluateClaim (w.claim wid boot)).accepted = true

def Handshake (s : ProvenanceStore) (wid : WorkerId) (boot : WorkerBootId) : Prop :=
  ∃ text r, handleMessage s (.hello (Worker.hello wid boot)) = (.ok text, r) ∧
    HandedOver r (WorkerAuthority.ofResponse (ByteString.ofText text)) wid boot

lemma claim_current {r : ProvenanceStore} {w : WorkerAuthority} {wid : WorkerId} {boot : WorkerBootId}
    (hboot : r.authority.bootOf wid = some boot) (hepoch : w.epoch = r.authority.epoch)
    (hattempt : w.attempt = r.authority.attemptId.value)
    (hattemptGen : w.attemptGen = r.authority.attemptGeneration.value)
    (hstateGen : w.stateGen = r.authority.stateGeneration.value)
    (hprovGen : w.provGen = r.authority.provenanceGeneration.value)
    (hdepGen : w.depGen = r.authority.dependencyGeneration.value) :
    ClaimCurrent r.authority (w.claim wid boot) where
  epoch := hepoch
  boot := Or.inr hboot
  attemptId := by
    rw [WorkerAuthority.claim, hattempt]
    exact agrees_orOne _
  attemptGeneration := by
    rw [WorkerAuthority.claim, hattemptGen]
    exact agrees_orOne _
  stateGeneration := by
    rw [WorkerAuthority.claim, hstateGen]
    exact agrees_orOne _
  provenanceGeneration := by
    rw [WorkerAuthority.claim, hprovGen]
    exact agrees_orOne _
  artifactGeneration := Or.inr (by simp [WorkerAuthority.claim])
  modelGeneration := Or.inr (by simp [WorkerAuthority.claim])
  adapterGeneration := Or.inr (by simp [WorkerAuthority.claim])
  compositionGeneration := Or.inr (by simp [WorkerAuthority.claim])
  policyGeneration := Or.inr (by simp [WorkerAuthority.claim])
  dependencyGeneration := Or.inr (by simp [WorkerAuthority.claim, hdepGen])

lemma handleMessage_hello (s : ProvenanceStore) (wid : WorkerId) (boot : WorkerBootId) :
    handleMessage s (.hello (Worker.hello wid boot)) =
      (.ok (authoritySummary (s.applyAuthority (.registerBoot wid boot))),
        s.applyAuthority (.registerBoot wid boot)) := by
  rw [handleMessage, Worker.handleHello_hello]

lemma handshake_iff_epoch (s : ProvenanceStore) (wid : WorkerId) (boot : WorkerBootId) :
    Handshake s wid boot ↔ hx (ByteString.ofText (toString s.authority.epoch.toNat)) = s.authority.epoch := by
  have hread := ofResponse_authoritySummary (s.applyAuthority (.registerBoot wid boot))
  constructor
  · rintro ⟨text, r, hmessage, h⟩
    rw [handleMessage_hello] at hmessage
    obtain ⟨htext, hr⟩ := Prod.mk.inj hmessage
    have hepoch := h.epoch
    rw [← hr, ← Except.ok.inj htext] at hepoch
    rw [hread] at hepoch
    exact hepoch
  · intro hepoch
    have hboot : (s.applyAuthority (.registerBoot wid boot)).authority.bootOf wid = some boot := by
      simp [applyAuthority, AuthorityState.apply, AuthorityState.registerBoot, AuthorityState.bootOf]
    refine ⟨_, _, handleMessage_hello s wid boot, ?_⟩
    rw [hread]
    exact {
      epoch := hepoch
      attempt := rfl
      attemptGen := rfl
      stateGen := rfl
      provGen := rfl
      depGen := rfl
      modelGen := rfl
      accepted := (accepted_iff_claimCurrent _ _).mpr (claim_current hboot hepoch rfl rfl rfl rfl rfl) }

theorem handshake_iff (s : ProvenanceStore) (wid : WorkerId) (boot : WorkerBootId) :
    Handshake s wid boot ↔ s.authority.epoch.toNat < 10 ∨ s.authority.epoch.toNat = 2 ^ 64 - 1 :=
  (handshake_iff_epoch s wid boot).trans (hx_decimal_iff s.authority.epoch)

structure AllSet (a : AuthorityState) : Prop where
  epoch : a.epoch ≠ 0
  attemptId : a.attemptId ≠ {}
  attemptGeneration : a.attemptGeneration ≠ {}
  stateGeneration : a.stateGeneration ≠ {}
  provenanceGeneration : a.provenanceGeneration ≠ {}
  artifactGeneration : a.artifactGeneration ≠ {}
  modelGeneration : a.modelGeneration ≠ {}
  adapterGeneration : a.adapterGeneration ≠ {}
  compositionGeneration : a.compositionGeneration ≠ {}
  policyGeneration : a.policyGeneration ≠ {}
  dependencyGeneration : a.dependencyGeneration ≠ {}

def tenthEpoch : AuthorityState where
  epoch := 10
  attemptId := ⟨1⟩
  attemptGeneration := ⟨1⟩
  stateGeneration := ⟨1⟩
  provenanceGeneration := ⟨1⟩
  artifactGeneration := ⟨1⟩
  modelGeneration := ⟨1⟩
  adapterGeneration := ⟨1⟩
  compositionGeneration := ⟨1⟩
  policyGeneration := ⟨1⟩
  dependencyGeneration := ⟨1⟩

theorem tenth_epoch_misread : ¬ ∀ (s : ProvenanceStore) (wid : WorkerId) (boot : WorkerBootId),
    AllSet s.authority → wid ≠ {} → boot ≠ {} → Handshake s wid boot := by
  intro h
  have hset : AllSet tenthEpoch := by
    constructor
    all_goals decide
  have hepoch := (handshake_iff_epoch _ _ _).mp
    (h { authority := tenthEpoch } ⟨1⟩ ⟨1⟩ hset (by decide) (by decide))
  rcases (hx_decimal_iff _).mp hepoch with hlt | hmax
  · exact absurd hlt (by decide)
  · exact absurd hmax (by decide)

end StateProvenance
