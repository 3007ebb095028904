import StateProvenance.InvalidationEffect
import StateProvenance.Reuse
import StateProvenance.Library.Lineage

/-! What a provenance store is for: a ledger of immutable records in which an invalidation taints everything
derived from its subject, whichever came first. The store propagates an invalidation over the descendants it has and
looks at the ancestors of a subject when it is asked; over every session with it the two come to the same. -/

namespace StateProvenance

open Std Library.OrderedMap Library.Lineage

abbrev ProvenanceLedger := Ledger StateId RecordData

namespace ProvenanceLedger

section Definitions

variable (l : ProvenanceLedger)

def Names (q : ProvenanceId) (x : StateId) : Prop := ∃ d, l.entry x = some d ∧ d.provenanceId = q

structure Admits (d : RecordData) : Prop where
  valid : validateRecord d = none
  newSubject : l.entry d.subjectId = none
  newProvenance : ∀ x, ¬ l.Names d.provenanceId x
  inputs : ∀ x ∈ d.inputStates, (l.entry x).isSome
  parents : ∀ q ∈ d.parentProvenance, ∃ x, l.Names q x

def sources (d : RecordData) : Set StateId :=
  {p | p ∈ d.inputStates ∨ ∃ q ∈ d.parentProvenance, l.Names q p}

def record (d : RecordData) : ProvenanceLedger :=
  l.add d.subjectId d (l.sources d) (d.validity = .named .invalidated)

def StaleAbove (x : StateId) : Prop :=
  ∃ a, Relation.TransGen l.Derived a x ∧ ∃ d, l.entry a = some d ∧ d.validity = .named .stale

open Classical in
noncomputable def verdict (x : StateId) (req : ReuseRequest) : ReuseEligibility :=
  match l.entry x with
  | none => .unknown
  | some d =>
    if l.Tainted x then .invalidated
    else if d.validity = .named .stale then .stale
    else if d.validity = .named .unknown then .unknown
    else if l.StaleAbove x then .stale
    else (evaluateReuse ⟨d⟩ req).eligibility

end Definitions

end ProvenanceLedger

def reportsOk : Except GraphError PublishOutcome → Bool
  | .ok o => o.ok
  | .error _ => false

structure Represents (s : ProvenanceStore) (l : ProvenanceLedger) : Prop where
  live : s.Live
  coherent : l.Coherent
  find : ∀ x, (s.find x).map ProvenanceRecord.d = l.entry x
  parents : ∀ p c, p ∈ s.parents c ↔ l.Derived p c
  tainted : below l.Derived {x | s.validityOf x = .named .invalidated} = below l.Derived l.marked
  status : ∀ x st d, s.status[x]? = some st → l.entry x = some d →
    st.validity = .named .invalidated ∨ st.validity = d.validity

namespace Represents

variable {s : ProvenanceStore} {l : ProvenanceLedger} (h : Represents s l)

include h

lemma entry_eq_some (x : StateId) (d : RecordData) : l.entry x = some d ↔ s.records[x]? = some ⟨d⟩ := by
  rw [← h.find, ProvenanceStore.find, Option.map_eq_some_iff]
  constructor
  · rintro ⟨rec, hrec, rfl⟩
    exact hrec
  · intro hx
    exact ⟨⟨d⟩, hx, rfl⟩

lemma entry_isSome (x : StateId) : (l.entry x).isSome ↔ x ∈ s.records := by
  rw [← h.find, Option.isSome_map, ProvenanceStore.find, ExtTreeMap.mem_iff_isSome_getElem?]

lemma entry_eq_none (x : StateId) : l.entry x = none ↔ x ∉ s.records := by
  rw [← h.entry_isSome, Option.isSome_iff_ne_none, not_not]

lemma names_iff (q : ProvenanceId) (x : StateId) : l.Names q x ↔ s.provToState[q]? = some x := by
  rw [h.live.prov, ProvenanceLedger.Names]
  simp only [h.entry_eq_some]
  constructor
  · rintro ⟨d, hd, hq⟩
    exact ⟨⟨d⟩, hd, hq⟩
  · rintro ⟨rec, hrec, hq⟩
    exact ⟨rec.d, hrec, hq⟩

lemma names_any_iff (q : ProvenanceId) : (∃ x, l.Names q x) ↔ q ∈ s.provToState := by
  rw [ExtTreeMap.mem_iff_isSome_getElem?, Option.isSome_iff_exists]
  exact exists_congr fun x => h.names_iff q x

lemma sources_iff (d : RecordData) (p : StateId) : p ∈ l.sources d ↔ s.IsParent p d := by
  rw [ProvenanceLedger.sources, Set.mem_ofPred_eq, ProvenanceStore.IsParent]
  simp only [h.names_iff]

lemma admits_iff (d : RecordData) : l.Admits d ↔ validateRecord d = none ∧ s.Insertable d := by
  constructor
  · rintro ⟨hv, hsubject, hprov, hinputs, hparents⟩
    refine ⟨hv, ⟨fun x hx => ?_, fun q hq => ?_⟩, (h.entry_eq_none _).mp hsubject, fun hm => ?_⟩
    · exact (h.entry_isSome x).mp (hinputs x hx)
    · exact (h.names_any_iff q).mp (hparents q hq)
    · obtain ⟨x, hx⟩ := (h.names_any_iff _).mpr hm
      exact hprov x hx
  · rintro ⟨hv, ⟨hinputs, hparents⟩, hsubject, hprov⟩
    refine ⟨hv, (h.entry_eq_none _).mpr hsubject, fun x hx => ?_, fun x hx => ?_, fun q hq => ?_⟩
    · exact hprov ((h.names_any_iff _).mp ⟨x, hx⟩)
    · exact (h.entry_isSome x).mpr (hinputs x hx)
    · exact (h.names_any_iff q).mpr (hparents q hq)

lemma parents_eq : (fun p c => p ∈ s.parents c) = l.Derived :=
  funext fun p => funext fun c => propext (h.parents p c)

lemma mem_ancestors (a x : StateId) : a ∈ s.ancestors x ↔ Relation.TransGen l.Derived a x := by
  rw [h.live.toCore.mem_ancestors, h.parents_eq]

lemma atOrBelow_iff (a x : StateId) : s.AtOrBelow a x ↔ Relation.ReflTransGen l.Derived a x := by
  rw [ProvenanceStore.AtOrBelow, h.parents_eq, Relation.reflTransGen_iff_eq_or_transGen]

lemma tainted_iff (x : StateId) : l.Tainted x ↔
    s.validityOf x = .named .invalidated ∨ ∃ a ∈ s.ancestors x, s.validityOf a = .named .invalidated := by
  rw [Ledger.Tainted, ← h.tainted, mem_below_iff]
  simp only [Set.mem_ofPred_eq, h.mem_ancestors]
  refine or_congr_right (exists_congr fun a => ?_)
  rw [and_comm]

section Record

variable {d : RecordData} (hd : l.Admits d)

include hd

lemma sources_recorded (p : StateId) (hp : p ∈ l.sources d) : (l.entry p).isSome := by
  rw [h.entry_isSome]
  exact ProvenanceStore.isParent_mem h.live.toCore ((h.admits_iff d).mp hd).2.toResolved
    ((h.sources_iff d p).mp hp)

lemma tainted_record (g : ProvenanceGraph) :
    below (l.record d).Derived {x | (s.commit d g).validityOf x = .named .invalidated} =
      below (l.record d).Derived (l.record d).marked := by
  have hsources := h.sources_recorded hd
  have hvalidity : ∀ x, (s.commit d g).validityOf x = .named .invalidated ↔
      if x = d.subjectId then d.validity = .named .invalidated
      else s.validityOf x = .named .invalidated := by
    intro x
    rw [ProvenanceStore.validityOf, ProvenanceStore.getElem?_commit_status]
    by_cases hx : x = d.subjectId
    · simp [hx]
    · simp [hx, Ne.symm hx, ProvenanceStore.validityOf]
  have hnew : s.validityOf d.subjectId ≠ .named .invalidated := by
    intro hinv
    obtain ⟨st, hst, -⟩ := (s.validityOf_eq_iff d.subjectId (v := .invalidated) (by decide)).mp hinv
    have hmem := (h.live.status _).mp (ExtTreeMap.mem_iff_isSome_getElem?.mpr (by rw [hst]; rfl))
    exact (h.entry_eq_none _).mp hd.newSubject hmem
  have hset : {x | (s.commit d g).validityOf x = .named .invalidated} =
      {x | x ∈ {x | s.validityOf x = .named .invalidated} ∨
        x = d.subjectId ∧ d.validity = .named .invalidated} := by
    ext x
    simp only [Set.mem_ofPred_eq, hvalidity]
    by_cases hx : x = d.subjectId
    · simp [hx, hnew]
    · simp [hx]
  rw [hset]
  exact h.coherent.below_add_congr hd.newSubject hsources h.tainted d _

lemma commit {g : ProvenanceGraph} (hg : s.Linked d g) : Represents (s.commit d g) (l.record d) where
  live := h.live.commit ((h.admits_iff d).mp hd).2 hd.valid hg
  coherent := h.coherent.add hd.newSubject (h.sources_recorded hd) d _
  find := by
    intro x
    rw [ProvenanceStore.find, ProvenanceStore.getElem?_commit_records, ProvenanceLedger.record, Ledger.add,
      ← ProvenanceStore.find]
    by_cases hx : d.subjectId = x
    · simp [hx]
    · simp [hx, Ne.symm hx, h.find]
  parents := by
    intro p c
    refine (ProvenanceGraph.mem_parents g p c).trans ((hg.arcs p c).trans ?_)
    rw [← h.sources_iff, ← s.parents_eq_arc, h.parents_eq]
    rfl
  tainted := h.tainted_record hd g
  status := by
    intro x st e hst he
    rw [ProvenanceStore.getElem?_commit_status] at hst
    rw [ProvenanceLedger.record, Ledger.add] at he
    by_cases hx : d.subjectId = x
    · subst hx
      rw [if_pos rfl] at hst
      obtain rfl := Option.some.inj hst
      obtain rfl : d = e := by simpa using he
      exact Or.inr rfl
    · rw [if_neg hx] at hst
      exact h.status x st e hst (by simpa [Ne.symm hx] using he)

end Record

lemma publish_step {d : RecordData} {r : Except GraphError PublishOutcome × ProvenanceStore}
    (hr : s.PublishStep d r) (hok : reportsOk r.1 = true → l.Admits d) :
    Represents r.2 (if reportsOk r.1 = true then l.record d else l) := by
  cases hr with
  | rejected error => exact h
  | accepted g hv hi hg => exact h.commit (hok rfl) hg

lemma reportsOk_publish (d : RecordData) : reportsOk (s.publish d).1 = true ↔ l.Admits d := by
  rw [h.admits_iff]
  constructor
  · intro hok
    have hstep := ProvenanceStore.publish_step h.live.toCore d
    generalize s.publish d = r at hok hstep
    cases hstep with
    | rejected error => contradiction
    | accepted g hv hi hg => exact ⟨hv, hi⟩
  · rintro ⟨hv, hi⟩
    obtain ⟨g, -, he⟩ := ProvenanceStore.publish_accepted h.live.toCore hv hi
    rw [he]
    rfl

omit h in
lemma reportsOk_publishFenced (s : ProvenanceStore) (d : RecordData) (c : AuthorityClaim) :
    reportsOk (s.publishFenced d c).1 = true ↔
      (s.evaluateClaim c).accepted = true ∧ reportsOk (s.publish d).1 = true := by
  rw [ProvenanceStore.publishFenced, ProvenanceStore.rejection, ProvenanceStore.publish]
  cases hv : validateRecord d with
  | some error => simp [reportsOk, ProvenanceStore.publishValidated, hv]
  | none =>
    simp only [ProvenanceStore.evaluateClaim]
    cases (s.authority.evaluateClaim c).accepted <;> simp [reportsOk]

lemma invalidate {subj : InvalidatingSubject} (hs : subj.subject ∈ s.records) :
    Represents (s.invalidate subj).2 (l.mark subj.subject) where
  live := h.live.invalidate subj
  coherent := h.coherent.mark ((h.entry_isSome _).mpr hs)
  find := by
    intro x
    rw [ProvenanceStore.find, (h.live.toCore.invalidatesBelow hs).records]
    exact h.find x
  parents := by
    intro p c
    rw [ProvenanceStore.parents, (h.live.toCore.invalidatesBelow hs).graph]
    exact h.parents p c
  tainted := by
    have hset : {x | (s.invalidate subj).2.validityOf x = .named .invalidated} =
        {x | s.validityOf x = .named .invalidated} ∪ below l.Derived {subj.subject} := by
      ext x
      simp only [Set.mem_ofPred_eq, (h.live.toCore.invalidatesBelow hs).invalidated, h.atOrBelow_iff,
        Set.mem_union, below, Set.mem_singleton_iff, exists_eq_left]
    have hmark : (l.mark subj.subject).marked = l.marked ∪ {subj.subject} := by
      rw [Ledger.mark, Set.union_singleton]
    have hidem : below l.Derived (below l.Derived {subj.subject}) = below l.Derived {subj.subject} :=
      below_eq_of_subset subset_below fun _ hx => hx
    rw [hset, hmark]
    change below l.Derived _ = below l.Derived _
    rw [below_union, below_union, hidem, h.tainted]
  status := by
    intro x st d hst hd
    rw [h.live.toCore.getElem?_invalidate_status hs] at hst
    split at hst
    · obtain rfl := Option.some.inj hst
      exact Or.inl rfl
    · exact h.status x st d hst hd

lemma applyAuthority (op : AuthorityOp) : Represents (s.applyAuthority op) l where
  live := h.live.applyAuthority op
  coherent := h.coherent
  find := h.find
  parents := h.parents
  tainted := h.tainted
  status := h.status

lemma restore (t : ProvenanceStore) :
    (t.restore s.snapshot).1.isOk = true ∧ Represents (t.restore s.snapshot).2 l := by
  obtain ⟨r, hrun, hr, hrecords⟩ := ProvenanceStore.restore_snapshot h.live.toCore t
  have hlive : r.Live := by
    have hl := ProvenanceStore.restore_snapshot_live h.live t
    rwa [hrun] at hl
  have hstatus : r.status = s.status := hr.status
  have hgraph := hlive.toCore.graph_eq h.live.toCore hrecords
  rw [hrun]
  refine ⟨rfl, hlive, h.coherent, fun x => ?_, fun p c => ?_, ?_, ?_⟩
  · rw [ProvenanceStore.find, hrecords]
    exact h.find x
  · rw [ProvenanceStore.parents, hgraph]
    exact h.parents p c
  · have hvalidity : r.validityOf = s.validityOf := by
      funext x
      rw [ProvenanceStore.validityOf, ProvenanceStore.validityOf, hstatus]
    rw [hvalidity]
    exact h.tainted
  · rw [hstatus]
    exact h.status

end Represents

lemma represents_empty : Represents {} .empty where
  live := ProvenanceStore.live_empty
  coherent := Ledger.coherent_empty
  find := by simp [ProvenanceStore.find, Ledger.empty]
  parents := by
    intro p c
    rw [ProvenanceStore.parents, ProvenanceGraph.mem_parents]
    simp [ProvenanceGraph.Arc, Ledger.empty]
  tainted := by
    have hnone : {x | ({} : ProvenanceStore).validityOf x = .named .invalidated} = ∅ := by
      simp [ProvenanceStore.validityOf]
    rw [hnone]
    rfl
  status := by simp

lemma evaluateReuse_invalidated_iff (rec : ProvenanceRecord) (req : ReuseRequest) :
    (evaluateReuse rec req).eligibility = .invalidated ↔ rec.d.validity = .named .invalidated := by
  rw [evaluateReuse]
  by_cases hi : rec.d.validity = .named .invalidated
  · simp [hi]
  · simp only [hi, if_false, iff_false]
    repeat' split
    all_goals simp

lemma eligibility_escalate (s : ProvenanceStore) (anc : List StateId) (d : ReuseDecision) :
    (s.escalate anc d).eligibility =
      if s.anyStatus anc .invalidated = true then .invalidated
      else if s.anyStatus anc .stale = true ∧ d.eligibility ≠ .invalidated then .stale
      else d.eligibility := by
  rw [ProvenanceStore.escalate]
  split
  · rfl
  · simp only [Bool.and_eq_true, decide_eq_true_eq]
    split <;> rfl

lemma eligibility_checkReuse {s : ProvenanceStore} {x : StateId} {rec : ProvenanceRecord} {st : RecordStatus}
    (hrec : s.records[x]? = some rec) (hst : s.status[x]? = some st) (req : ReuseRequest) :
    (s.checkReuse x req).eligibility =
      if st.validity = .named .invalidated then .invalidated
      else if st.validity = .named .stale then .stale
      else if st.validity = .named .unknown then .unknown
      else (s.escalate (s.ancestors x) (evaluateReuse rec req)).eligibility := by
  rw [ProvenanceStore.checkReuse, hrec, hst]
  simp only [Option.bind_some, ProvenanceStore.statusDecision]
  by_cases hi : st.validity = .named .invalidated
  · simp [hi]
  by_cases hs : st.validity = .named .stale
  · simp [hs]
  by_cases hu : st.validity = .named .unknown
  · simp [hu]
  simp only [hi, hs, hu, if_false]
  rfl

namespace Represents

variable {s : ProvenanceStore} {l : ProvenanceLedger} (h : Represents s l)

include h

lemma anyStatus_ancestors (x : StateId) (v : ValidityState) : s.anyStatus (s.ancestors x) v = true ↔
    ∃ a, Relation.TransGen l.Derived a x ∧ ∃ st, s.status[a]? = some st ∧ st.validity = .named v := by
  rw [ProvenanceStore.anyStatus_iff]
  simp only [h.mem_ancestors]

lemma tainted_iff_status {x : StateId} {st : RecordStatus} (hst : s.status[x]? = some st) : l.Tainted x ↔
    st.validity = .named .invalidated ∨ s.anyStatus (s.ancestors x) .invalidated = true := by
  rw [h.tainted_iff, s.validityOf_eq_iff x (v := .invalidated) (by decide), hst, ProvenanceStore.anyStatus_iff]
  simp only [s.validityOf_eq_iff _ (v := .invalidated) (by decide), Option.some.injEq, exists_eq_left']

lemma staleAbove_iff {x : StateId} (hx : ¬ l.Tainted x) :
    s.anyStatus (s.ancestors x) .stale = true ↔ l.StaleAbove x := by
  rw [h.anyStatus_ancestors, ProvenanceLedger.StaleAbove]
  refine exists_congr fun a => and_congr_right fun ha => ?_
  have hclean : s.validityOf a ≠ .named .invalidated := fun hinv =>
    hx ((h.tainted_iff x).mpr (Or.inr ⟨a, (h.mem_ancestors a x).mpr ha, hinv⟩))
  rw [ne_eq, s.validityOf_eq_iff a (v := .invalidated) (by decide)] at hclean
  have hsome : (l.entry a).isSome := by
    obtain ⟨c, hc, -⟩ := Relation.TransGen.head'_iff.mp ha
    exact (h.coherent.recorded a c hc).1
  obtain ⟨d, hd⟩ := Option.isSome_iff_exists.mp hsome
  obtain ⟨st, hst⟩ := Option.isSome_iff_exists.mp (ExtTreeMap.mem_iff_isSome_getElem?.mp
    ((h.live.status a).mpr ((h.entry_isSome a).mp hsome)))
  have hsame : st.validity = d.validity :=
    (h.status a st d hst hd).resolve_left fun hinv => hclean ⟨st, hst, hinv⟩
  simp [hst, hd, hsame]

lemma checkReuse_verdict (x : StateId) (req : ReuseRequest) :
    (s.checkReuse x req).eligibility = l.verdict x req ∨
      l.Tainted x ∧ ∃ d, l.entry x = some d ∧
        (d.validity = .named .stale ∧ (s.checkReuse x req).eligibility = .stale ∨
          d.validity = .named .unknown ∧ (s.checkReuse x req).eligibility = .unknown) := by
  cases hd : l.entry x with
  | none =>
    have hrec := ExtTreeMap.getElem?_eq_none ((h.entry_eq_none x).mp hd)
    simp [ProvenanceLedger.verdict, ProvenanceStore.checkReuse, hd, hrec]
  | some d =>
    have hrec := (h.entry_eq_some x d).mp hd
    have hmem := (h.entry_isSome x).mp (by rw [hd]; rfl)
    obtain ⟨st, hst⟩ := Option.isSome_iff_exists.mp (ExtTreeMap.mem_iff_isSome_getElem?.mp
      ((h.live.status x).mpr hmem))
    have htaint := h.tainted_iff_status hst
    rw [eligibility_checkReuse hrec hst, ProvenanceLedger.verdict, hd]
    simp only
    by_cases hinv : st.validity = .named .invalidated
    · simp [hinv, htaint]
    have hsame := (h.status x st d hst hd).resolve_left hinv
    rw [hsame] at hinv htaint ⊢
    by_cases hstale : d.validity = .named .stale
    · by_cases ht : l.Tainted x <;> simp [hstale, ht]
    by_cases hunknown : d.validity = .named .unknown
    · by_cases ht : l.Tainted x <;> simp [hunknown, ht]
    left
    rw [eligibility_escalate]
    by_cases ht : l.Tainted x
    · simp [hinv, hstale, hunknown, ht, (htaint.mp ht).resolve_left hinv]
    · have hany : ¬ s.anyStatus (s.ancestors x) .invalidated = true := fun ha => ht (htaint.mpr (Or.inr ha))
      have heval : (evaluateReuse ⟨d⟩ req).eligibility ≠ .invalidated :=
        mt (evaluateReuse_invalidated_iff ⟨d⟩ req).mp hinv
      rw [if_neg hinv, if_neg hstale, if_neg hunknown, if_neg ht, if_neg hstale, if_neg hunknown, if_neg hany]
      by_cases habove : l.StaleAbove x
      · rw [if_pos habove, if_pos ⟨(h.staleAbove_iff ht).mpr habove, heval⟩]
      · rw [if_neg habove, if_neg fun hs => habove ((h.staleAbove_iff ht).mp hs.1)]

end Represents

end StateProvenance
