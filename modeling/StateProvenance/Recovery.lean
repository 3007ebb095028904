import StateProvenance.PersistRoundTrip
import StateProvenance.Reachable

/-! Recovery from a snapshot: what the restored store agrees on with the one that was saved, first its
provenance data, then its authority. -/

namespace StateProvenance

open Std Library.OrderedMap Library

lemma foldl_registerBoot (l : List (WorkerId × WorkerBootId)) (a : AuthorityState) :
    l.foldl (fun authority e => authority.registerBoot e.1 e.2) a =
      { a with boot := l.foldl (fun m e => m.insert e.1 e.2) a.boot } := by
  induction l generalizing a with
  | nil => rfl
  | cons e l ih =>
    rw [List.foldl_cons, ih]
    rfl

lemma rebuildAuthority_eq (a : AuthoritySnapshot) : rebuildAuthority a = {
    epoch := if a.epoch = 0 then 1 else a.epoch
    boot := a.boots
    attemptId := a.attemptId
    attemptGeneration := a.attemptGeneration
    stateGeneration := a.stateGeneration
    provenanceGeneration := a.provenanceGeneration
    artifactGeneration := a.artifactGeneration
    modelGeneration := a.modelGeneration
    adapterGeneration := a.adapterGeneration
    compositionGeneration := a.compositionGeneration
    policyGeneration := a.policyGeneration
    dependencyGeneration := a.dependencyGeneration } := by
  have hboots : a.boots.toList.foldl (fun m e => m.insert e.1 e.2) ∅ = a.boots := fill_toList a.boots
  rw [rebuildAuthority, foldl_registerBoot]
  simp only [AuthorityState.setEpoch, hboots]

namespace ProvenanceStore

lemma rebuild_authoritySnapshot (s : ProvenanceStore) (he : s.authority.epoch ≠ 0) :
    rebuildAuthority s.authoritySnapshot = { s.authority with boot := s.authoritySnapshot.boots } := by
  rw [rebuildAuthority_eq]
  simp [authoritySnapshot, he]

lemma getElem?_authoritySnapshot_boots (s : ProvenanceStore) (w : WorkerId) :
    s.authoritySnapshot.boots[w]? = if w ∈ s.workers then s.authority.bootOf w else none := by
  have hfold : ∀ (l : List WorkerId) (m : OrdMap WorkerId WorkerBootId),
      (l.foldl s.authority.listBoot m)[w]? = if w ∈ l then (s.authority.bootOf w).or m[w]? else m[w]? := by
    intro l
    induction l with
    | nil => simp
    | cons v l ih =>
      intro m
      rw [List.foldl_cons, ih, AuthorityState.listBoot]
      by_cases hv : v = w
      · subst hv
        cases s.authority.bootOf v <;> simp
      · have hw : w ≠ v := Ne.symm hv
        cases s.authority.bootOf v <;> simp [ExtTreeMap.getElem?_insert, hv, hw]
  have h := hfold s.workers.toList ∅
  simp only [ExtTreeSet.mem_toList, ExtTreeMap.getElem?_empty, Option.or_none] at h
  exact h

/-- Two stores answer every question about records, lineage, validity and reuse alike. -/
structure SameProvenance (r s : ProvenanceStore) : Prop where
  ids : r.ids = s.ids
  find : ∀ x, r.find x = s.find x
  findByProvenance : ∀ q, r.findByProvenance q = s.findByProvenance q
  status : r.status = s.status
  validityOf : ∀ x, r.validityOf x = s.validityOf x
  parents : ∀ x, r.parents x = s.parents x
  children : ∀ x, r.children x = s.children x
  ancestors : ∀ x, r.ancestors x = s.ancestors x
  descendants : ∀ x, r.descendants x = s.descendants x
  roots : r.roots = s.roots
  topologicalOrder : r.topologicalOrder = s.topologicalOrder
  byModel : ∀ k, r.byModel k = s.byModel k
  byAdapter : ∀ k, r.byAdapter k = s.byAdapter k
  byProducer : ∀ k, r.byProducer k = s.byProducer k
  byExecution : ∀ k, r.byExecution k = s.byExecution k
  byAttempt : ∀ k, r.byAttempt k = s.byAttempt k
  byDependency : ∀ k, r.byDependency k = s.byDependency k
  byArtifactGeneration : ∀ k, r.byArtifactGeneration k = s.byArtifactGeneration k
  byValidity : ∀ v, r.byValidity v = s.byValidity v
  byEvidence : ∀ v, r.byEvidence v = s.byEvidence v
  checkReuse : ∀ x req, r.checkReuse x req = s.checkReuse x req
  storeDigest : storeDigest r.snapshot = storeDigest s.snapshot

lemma storeDigest_congr {a b : StoreSnapshot} (hr : a.records = b.records) (hs : a.status = b.status)
    (he : a.authority.epoch = b.authority.epoch) : storeDigest a = storeDigest b := by
  rw [storeDigest, storeDigest, hr, hs, he]

lemma Live.sameProvenance {r s : ProvenanceStore} (hr : r.Live) (hs : s.Live)
    (hrecords : r.records = s.records) (hstatus : r.status = s.status)
    (hepoch : r.authority.epoch = s.authority.epoch) : r.SameProvenance s := by
  have hprov := hr.provToState_eq hs.toCore hrecords
  have hgraph := hr.graph_eq hs.toCore hrecords
  have hindexes : r.indexes = { s.indexes with byValidity := r.indexes.byValidity } :=
    hr.indexes_eq hs.toCore hrecords
  have hquery : ∀ (f : Indexes → List StateId),
      f { s.indexes with byValidity := r.indexes.byValidity } = f s.indexes → f r.indexes = f s.indexes := by
    intro f hf
    rw [hindexes]
    exact hf
  have hany : r.anyStatus = s.anyStatus := by
    funext anc v
    rw [anyStatus, anyStatus, hstatus]
  have hvalidity : ∀ v, r.indexes.byValidity.getD v ∅ = s.indexes.byValidity.getD v ∅ := by
    intro v
    apply set_ext
    intro x
    rw [Live.byValidity hr, Live.byValidity hs, hstatus]
  constructor
  case ids => rw [ids, ids, hrecords]
  case find =>
    intro x
    rw [find, find, hrecords]
  case findByProvenance =>
    intro q
    rw [findByProvenance, findByProvenance, hprov, hrecords]
  case status => exact hstatus
  case validityOf =>
    intro x
    rw [validityOf, validityOf, hstatus]
  case checkReuse =>
    intro x req
    have hescalate : r.escalate = s.escalate := by
      funext anc d
      rw [escalate, escalate, hany]
    rw [checkReuse, checkReuse, hrecords, hstatus, hgraph, hescalate]
  case storeDigest =>
    refine storeDigest_congr ?_ hstatus hepoch
    rw [snapshot, snapshot, hrecords]
  case roots => rw [roots, roots, hgraph]
  case topologicalOrder => rw [topologicalOrder, topologicalOrder, hgraph]
  case parents | children | ancestors | descendants =>
    intro x
    simp only [parents, children, ancestors, descendants, hgraph]
  case byValidity =>
    intro v
    rw [ProvenanceStore.byValidity, ProvenanceStore.byValidity, indexQuery, indexQuery, hvalidity]
  case byModel => exact fun k => hquery (fun ix => indexQuery ix.byModel k) rfl
  case byAdapter => exact fun k => hquery (fun ix => indexQuery ix.byAdapter k) rfl
  case byProducer => exact fun k => hquery (fun ix => indexQuery ix.byProducer k) rfl
  case byExecution => exact fun k => hquery (fun ix => indexQuery ix.byExecution k) rfl
  case byAttempt => exact fun k => hquery (fun ix => indexQuery ix.byAttempt k) rfl
  case byDependency => exact fun k => hquery (fun ix => indexQuery ix.byDependency k) rfl
  case byArtifactGeneration => exact fun k => hquery (fun ix => indexQuery ix.byArtifact k) rfl
  case byEvidence => exact fun k => hquery (fun ix => indexQuery ix.byEvidence k) rfl

theorem recovery_sameProvenance {s : ProvenanceStore} (h : Reachable s) (he : s.authority.epoch ≠ 0)
    (hn : Named s.snapshot) (hb : InBounds s.snapshot) (t : ProvenanceStore) :
    ∃ bytes snap r, encodeSnapshot s.snapshot = .ok bytes ∧ decodeSnapshot bytes = .ok snap ∧
      t.restore snap = (.ok (), r) ∧ r.SameProvenance s := by
  obtain ⟨bytes, hbytes⟩ := emits_snapshotChunks hb
  have hdecode := decodeSnapshot_encode (loadable_snapshot h.live.toCore) hn hb hbytes
  obtain ⟨r, hrun, hr, hrecords⟩ := restore_snapshot h.live.toCore t
  have hlive : r.Live := by
    have := restore_snapshot_live h.live t
    rwa [hrun] at this
  refine ⟨bytes, s.snapshot, r, hbytes, hdecode, hrun, hlive.sameProvenance h.live hrecords hr.status ?_⟩
  have hauthority : r.authority = { s.authority with boot := s.authoritySnapshot.boots } :=
    hr.authority.trans (s.rebuild_authoritySnapshot he)
  rw [hauthority]

theorem pair_sameProvenance :
    ∃ bytes snap r, encodeSnapshot (pair (.produced 1)).snapshot = .ok bytes ∧
      decodeSnapshot bytes = .ok snap ∧ ({} : ProvenanceStore).restore snap = (.ok (), r) ∧
      r.SameProvenance (pair (.produced 1)) :=
  recovery_sameProvenance (reachable_pair _) (by decide) (by decide) (by decide) {}

inductive Unrestored : ProvenanceStore → Prop
  | empty : Unrestored {}
  | publish {s : ProvenanceStore} (h : Unrestored s) (data : RecordData) : Unrestored (s.publish data).2
  | publishFenced {s : ProvenanceStore} (h : Unrestored s) (data : RecordData) (claim : AuthorityClaim) :
      Unrestored (s.publishFenced data claim).2
  | invalidate {s : ProvenanceStore} (h : Unrestored s) (subj : InvalidatingSubject) :
      Unrestored (s.invalidate subj).2
  | applyAuthority {s : ProvenanceStore} (h : Unrestored s) (op : AuthorityOp) :
      Unrestored (s.applyAuthority op)

lemma Unrestored.reachable {s : ProvenanceStore} (h : Unrestored s) : Reachable s := by
  induction h with
  | empty => exact .empty
  | publish _ data ih => exact ih.publish data
  | publishFenced _ data claim ih => exact ih.publishFenced data claim
  | invalidate _ subj ih => exact ih.invalidate subj
  | applyAuthority _ op ih => exact ih.applyAuthority op

def WorkersNamed (s : ProvenanceStore) : Prop :=
  ∀ w, w ∈ s.workers ↔ w.valid = true ∧ ∃ x rec, s.find x = some rec ∧ rec.d.workerId = w

lemma WorkersNamed.commit {s : ProvenanceStore} (h : s.WorkersNamed) {d : RecordData} (hi : s.Insertable d)
    (g : ProvenanceGraph) : (s.commit d g).WorkersNamed := by
  intro w
  have hnew : ∀ {x : StateId} {rec : ProvenanceRecord}, s.find x = some rec → d.subjectId ≠ x := by
    rintro x rec hx rfl
    exact hi.newSubject (ExtTreeMap.mem_iff_isSome_getElem?.mpr (by rw [← find, hx]; rfl))
  have hnamed : (∃ x rec, (s.commit d g).find x = some rec ∧ rec.d.workerId = w) ↔
      d.workerId = w ∨ ∃ x rec, s.find x = some rec ∧ rec.d.workerId = w := by
    simp only [find, getElem?_commit_records]
    constructor
    · rintro ⟨x, rec, hx, hw⟩
      split at hx
      · obtain rfl := Option.some.inj hx
        exact Or.inl hw
      · exact Or.inr ⟨x, rec, hx, hw⟩
    · rintro (rfl | ⟨x, rec, hx, hw⟩)
      · exact ⟨d.subjectId, ⟨d⟩, if_pos rfl, rfl⟩
      · exact ⟨x, rec, by rw [if_neg (hnew hx)]; exact hx, hw⟩
  rw [hnamed, mem_commit_workers, h w]
  constructor
  · rintro (⟨hv, rfl⟩ | ⟨hw, hx⟩)
    · exact ⟨hv, Or.inl rfl⟩
    · exact ⟨hw, Or.inr hx⟩
  · rintro ⟨hw, rfl | hx⟩
    · exact Or.inl ⟨hw, rfl⟩
    · exact Or.inr ⟨hw, hx⟩

lemma PublishStep.workersNamed {s : ProvenanceStore} (h : s.WorkersNamed) {d : RecordData}
    {r : Except GraphError PublishOutcome × ProvenanceStore} (hr : s.PublishStep d r) : r.2.WorkersNamed := by
  cases hr with
  | rejected error => exact h
  | accepted g hv hi hg => exact h.commit hi g

lemma Unrestored.workersNamed {s : ProvenanceStore} (h : Unrestored s) : s.WorkersNamed := by
  induction h with
  | empty => simp [WorkersNamed, find]
  | publish hs data ih => exact (publish_step hs.reachable.live.toCore data).workersNamed ih
  | publishFenced hs data claim ih =>
    exact (publishFenced_step hs.reachable.live.toCore data claim).workersNamed ih
  | @invalidate s _ subj ih =>
    obtain ⟨status, byValidity, he⟩ := s.invalidate_frame subj
    rw [he]
    exact ih
  | applyAuthority _ op ih => exact ih

structure SameAuthority (r s : ProvenanceStore) : Prop where
  evaluateClaim : ∀ claim, r.evaluateClaim claim = s.evaluateClaim claim
  runtimeGeneration : r.runtimeGeneration = s.runtimeGeneration

lemma evaluateClaim_congr {a : AuthorityState} {boots : OrdMap WorkerId WorkerBootId}
    (h : ∀ w : WorkerId, w.valid = true → boots[w]? = a.bootOf w) (claim : AuthorityClaim) :
    ({ a with boot := boots } : AuthorityState).evaluateClaim claim = a.evaluateClaim claim := by
  have hboot : ({ a with boot := boots } : AuthorityState).bootFence claim = a.bootFence claim := by
    simp only [AuthorityState.bootFence]
    split
    · next hw =>
      have hb : ({ a with boot := boots } : AuthorityState).bootOf claim.workerId = a.bootOf claim.workerId :=
        h _ hw
      rw [hb]
    · rfl
  rw [AuthorityState.evaluateClaim, AuthorityState.fences]
  rw [hboot]
  rfl

def bootClaim (s : ProvenanceStore) (w : WorkerId) (b : WorkerBootId) : AuthorityClaim :=
  { workerId := w, workerBoot := b, coordinatorEpoch := s.authority.epoch }

lemma bootClaim_accepted_iff (s : ProvenanceStore) (w : WorkerId) (b : WorkerBootId) :
    (s.evaluateClaim (s.bootClaim w b)).accepted = true ↔ w = {} ∨ s.authority.bootOf w = some b := by
  rw [ProvenanceStore.evaluateClaim, AuthorityState.evaluateClaim_accepted_iff]
  simp only [AuthorityState.fences, List.forall_mem_cons, AuthorityState.epochFence_eq_none,
    AuthorityState.bootFence_eq_none, AuthorityState.staleFence_eq_none,
    AuthorityState.generationFence_eq_none]
  simp [bootClaim]

theorem restore_sameAuthority_iff {s : ProvenanceStore} (h : Unrestored s) (he : s.authority.epoch ≠ 0)
    (t : ProvenanceStore) : (t.restore s.snapshot).2.SameAuthority s ↔
      (∀ w : WorkerId, w.valid = true → w ∈ s.authority.boot →
        ∃ x rec, s.find x = some rec ∧ rec.d.workerId = w) ∧
      t.runtimeGeneration = s.runtimeGeneration := by
  obtain ⟨r, hrun, hr, -⟩ := restore_snapshot h.reachable.live.toCore t
  have hauthority : r.authority = { s.authority with boot := s.authoritySnapshot.boots } :=
    hr.authority.trans (s.rebuild_authoritySnapshot he)
  rw [hrun]
  constructor
  · rintro ⟨hclaims, hruntime⟩
    refine ⟨fun w hw hb => ?_, hr.runtimeGeneration.symm.trans hruntime⟩
    obtain ⟨b, hb⟩ := Option.isSome_iff_exists.mp (ExtTreeMap.mem_iff_isSome_getElem?.mp hb)
    have hs : (s.evaluateClaim (s.bootClaim w b)).accepted = true :=
      (s.bootClaim_accepted_iff w b).mpr (Or.inr hb)
    have hrepoch : r.bootClaim w b = s.bootClaim w b := by
      rw [bootClaim, bootClaim, hauthority]
    rw [← hclaims, ← hrepoch, r.bootClaim_accepted_iff w b, hauthority] at hs
    have hlisted : s.authoritySnapshot.boots[w]? = some b := hs.resolve_left ((w.valid_eq_true_iff).mp hw)
    rw [getElem?_authoritySnapshot_boots] at hlisted
    split at hlisted
    · next hm => exact ((h.workersNamed w).mp hm).2
    · contradiction
  · rintro ⟨hboots, hruntime⟩
    refine ⟨fun claim => ?_, hr.runtimeGeneration.trans hruntime⟩
    rw [ProvenanceStore.evaluateClaim, ProvenanceStore.evaluateClaim, hauthority]
    refine evaluateClaim_congr (fun w hw => ?_) claim
    rw [getElem?_authoritySnapshot_boots]
    split
    · rfl
    · next hm =>
      symm
      apply ExtTreeMap.getElem?_eq_none
      intro hb
      exact hm ((h.workersNamed w).mpr ⟨hw, hboots w hw hb⟩)

def worked : ProvenanceStore :=
  (([.registerBoot ⟨7⟩ ⟨3⟩, .rollEpoch, .beginAttempt ⟨1⟩ ⟨2⟩, .rollStateGeneration ⟨4⟩, .rollProvenanceGeneration ⟨5⟩,
    .setModelGeneration ⟨6⟩, .setRuntimeGeneration ⟨8⟩].foldl applyAuthority {}).publish
      { RecordData.produced 1 with workerId := ⟨7⟩, workerBoot := ⟨3⟩ }).2

lemma unrestored_worked : Unrestored worked :=
  (((((((Unrestored.empty.applyAuthority _).applyAuthority _).applyAuthority _).applyAuthority _).applyAuthority
    _).applyAuthority _).applyAuthority _).publish _

theorem worked_sameAuthority :
    ((({} : ProvenanceStore).applyAuthority (.setRuntimeGeneration ⟨8⟩)).restore worked.snapshot).2.SameAuthority
      worked := by
  have hboot : worked.authority.boot = (∅ : OrdMap WorkerId WorkerBootId).insert ⟨7⟩ ⟨3⟩ := by decide
  refine (restore_sameAuthority_iff unrestored_worked (by decide) _).mpr ⟨fun w _ hw => ?_, by decide⟩
  rw [hboot, ExtTreeMap.mem_insert, LawfulEqCmp.compare_eq_iff_eq] at hw
  rcases hw with rfl | hw
  · have hfind : (worked.find ⟨1⟩).map (fun rec => rec.d.workerId) = some ⟨7⟩ := by decide
    exact ⟨⟨1⟩, Option.map_eq_some_iff.mp hfind⟩
  · exact absurd hw ExtTreeMap.not_mem_empty

theorem registered_boot_lost :
    ¬ ∀ s, Unrestored s → s.authority.epoch ≠ 0 → ∀ t : ProvenanceStore,
      (t.restore s.snapshot).2.SameAuthority s := by
  intro h
  have hsame := (h _ (Unrestored.empty.applyAuthority (.registerBoot ⟨1⟩ ⟨1⟩)) (by decide) {}).evaluateClaim
    { workerId := ⟨1⟩, workerBoot := ⟨1⟩, coordinatorEpoch := 1 }
  revert hsame
  decide

end ProvenanceStore

end StateProvenance
