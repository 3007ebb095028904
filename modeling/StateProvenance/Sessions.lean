import StateProvenance.Ledger
import StateProvenance.Library.Runs

/-! Sessions with a provenance store, with saving and recovering in between, against sessions with a ledger. -/

namespace StateProvenance

open Std Library.OrderedMap Library.Lineage Library.Runs

/-! Sessions with a ledger. Whether the authority lets a record in is not the ledger's to say. -/

inductive LedgerEvent
  | record (d : RecordData) (fence : Bool)
  | revoke (x : StateId)
  | save
  | recover
  | skip

structure LedgerSession where
  ledger : ProvenanceLedger := .empty
  saved : Option ProvenanceLedger := none

namespace LedgerSession

open Classical in
noncomputable def step (u : LedgerSession) : LedgerEvent → LedgerSession
  | .record d fence => if fence = true ∧ u.ledger.Admits d then { u with ledger := u.ledger.record d } else u
  | .revoke x => if (u.ledger.entry x).isSome then { u with ledger := u.ledger.mark x } else u
  | .save => { u with saved := some u.ledger }
  | .recover =>
    match u.saved with
    | none => u
    | some l => { u with ledger := l }
  | .skip => u

open Classical in
noncomputable def answer (u : LedgerSession) : LedgerEvent → Bool
  | .record d fence => decide (fence = true ∧ u.ledger.Admits d)
  | .revoke x => (u.ledger.entry x).isSome
  | .recover => u.saved.isSome
  | _ => true

end LedgerSession

inductive SessionEvent
  | publish (data : RecordData)
  | publishFenced (data : RecordData) (claim : AuthorityClaim)
  | invalidate (subj : InvalidatingSubject)
  | authority (op : AuthorityOp)
  | save
  | recover

structure Session where
  store : ProvenanceStore := {}
  saved : Option StoreSnapshot := none

namespace Session

def step (t : Session) : SessionEvent → Session
  | .publish data => { t with store := (t.store.publish data).2 }
  | .publishFenced data claim => { t with store := (t.store.publishFenced data claim).2 }
  | .invalidate subj => { t with store := (t.store.invalidate subj).2 }
  | .authority op => { t with store := t.store.applyAuthority op }
  | .save => { t with saved := some t.store.snapshot }
  | .recover =>
    match t.saved with
    | none => t
    | some snap => { t with store := (t.store.restore snap).2 }

def answer (t : Session) : SessionEvent → Bool
  | .publish data => reportsOk (t.store.publish data).1
  | .publishFenced data claim => reportsOk (t.store.publishFenced data claim).1
  | .invalidate subj => (t.store.invalidate subj).1.ok
  | .authority _ => true
  | .save => true
  | .recover =>
    match t.saved with
    | none => false
    | some snap => (t.store.restore snap).1.isOk

def asLedgerEvent (t : Session) : SessionEvent → LedgerEvent
  | .publish data => .record data true
  | .publishFenced data claim => .record data (t.store.evaluateClaim claim).accepted
  | .invalidate subj => .revoke subj.subject
  | .authority _ => .skip
  | .save => .save
  | .recover => .recover

end Session

structure Simulates (t : Session) (u : LedgerSession) : Prop where
  store : Represents t.store u.ledger
  saved : ∀ snap, t.saved = some snap → ∃ s l, snap = s.snapshot ∧ u.saved = some l ∧ Represents s l
  unsaved : t.saved = none → u.saved = none

section Steps

variable {t : Session} {u : LedgerSession} (h : Simulates t u)

include h

open Classical in
lemma Simulates.record {d : RecordData} {r : Except GraphError PublishOutcome × ProvenanceStore}
    (hr : t.store.PublishStep d r) {fence : Bool}
    (hacc : reportsOk r.1 = true ↔ fence = true ∧ u.ledger.Admits d) :
    reportsOk r.1 = u.answer (.record d fence) ∧ Simulates { t with store := r.2 } (u.step (.record d fence)) := by
  have hstore := h.store.publish_step hr fun ha => (hacc.mp ha).2
  by_cases ha : fence = true ∧ u.ledger.Admits d
  · rw [if_pos (hacc.mpr ha)] at hstore
    rw [LedgerSession.answer, LedgerSession.step, if_pos ha, decide_eq_true ha]
    exact ⟨hacc.mpr ha, hstore, h.saved, h.unsaved⟩
  · rw [if_neg (mt hacc.mp ha)] at hstore
    rw [LedgerSession.answer, LedgerSession.step, if_neg ha, decide_eq_false ha]
    exact ⟨Bool.not_eq_true _ ▸ mt hacc.mp ha, hstore, h.saved, h.unsaved⟩

lemma Simulates.revoke (subj : InvalidatingSubject) :
    (t.store.invalidate subj).1.ok = u.answer (.revoke subj.subject) ∧
      Simulates { t with store := (t.store.invalidate subj).2 } (u.step (.revoke subj.subject)) := by
  have hmem := h.store.entry_isSome subj.subject
  rw [LedgerSession.answer, LedgerSession.step]
  by_cases hs : subj.subject ∈ t.store.records
  · rw [if_pos (hmem.mpr hs), hmem.mpr hs]
    refine ⟨?_, h.store.invalidate hs, h.saved, h.unsaved⟩
    rw [ProvenanceStore.invalidate_known hs]
  · obtain ⟨hno, hsame⟩ := ProvenanceStore.invalidate_unknown hs
    rw [if_neg (mt hmem.mp hs), hno, hsame, Bool.eq_false_iff.mpr (mt hmem.mp hs)]
    exact ⟨rfl, h.store, h.saved, h.unsaved⟩

lemma Simulates.recover : t.answer .recover = u.answer .recover ∧ Simulates (t.step .recover) (u.step .recover) := by
  cases hsaved : t.saved with
  | none =>
    have hu := h.unsaved hsaved
    have hstep : t.step .recover = t := by simp [Session.step, hsaved]
    have hustep : u.step .recover = u := by simp [LedgerSession.step, hu]
    rw [hstep, hustep, Session.answer, hsaved, LedgerSession.answer, hu]
    exact ⟨rfl, h⟩
  | some snap =>
    obtain ⟨s, l, rfl, hu, hs⟩ := h.saved snap hsaved
    obtain ⟨hok, hrestored⟩ := hs.restore t.store
    have hstep : t.step .recover = { t with store := (t.store.restore s.snapshot).2 } := by
      simp [Session.step, hsaved]
    have hustep : u.step .recover = { u with ledger := l } := by simp [LedgerSession.step, hu]
    rw [hstep, hustep]
    refine ⟨?_, hrestored, h.saved, h.unsaved⟩
    rw [Session.answer, hsaved, LedgerSession.answer, hu]
    exact hok

lemma Simulates.step (e : SessionEvent) :
    t.answer e = u.answer (t.asLedgerEvent e) ∧ Simulates (t.step e) (u.step (t.asLedgerEvent e)) := by
  have hcore := h.store.live.toCore
  cases e with
  | publish data =>
    exact h.record (ProvenanceStore.publish_step hcore data) (by rw [h.store.reportsOk_publish, eq_self, true_and])
  | publishFenced data claim =>
    refine h.record (ProvenanceStore.publishFenced_step hcore data claim) ?_
    rw [Represents.reportsOk_publishFenced, h.store.reportsOk_publish]
  | invalidate subj => exact h.revoke subj
  | authority op => exact ⟨rfl, h.store.applyAuthority op, h.saved, h.unsaved⟩
  | save =>
    exact ⟨rfl, h.store, fun snap hs => ⟨t.store, u.ledger, (Option.some.inj hs).symm, rfl, h.store⟩, nofun⟩
  | recover => exact h.recover

end Steps

def Session.answers (t : Session) (es : List SessionEvent) : List Bool :=
  observe Session.step (fun t e => some (t.answer e)) t es

def Session.ledgerEvents (t : Session) (es : List SessionEvent) : List LedgerEvent :=
  observe Session.step (fun t e => some (t.asLedgerEvent e)) t es

noncomputable def LedgerSession.answers (u : LedgerSession) (es : List LedgerEvent) : List Bool :=
  observe LedgerSession.step (fun u e => some (u.answer e)) u es

lemma Simulates.run {t : Session} {u : LedgerSession} (h : Simulates t u) (es : List SessionEvent) :
    t.answers es = u.answers (t.ledgerEvents es) ∧
      Simulates (run Session.step t es) (run LedgerSession.step u (t.ledgerEvents es)) := by
  induction es generalizing t u with
  | nil => exact ⟨rfl, h⟩
  | cons e es ih =>
    obtain ⟨hanswer, hstep⟩ := h.step e
    obtain ⟨hrest, hrun⟩ := ih hstep
    refine ⟨?_, hrun⟩
    have hcons : t.answers (e :: es) = t.answer e :: (t.step e).answers es := rfl
    rw [hcons, hanswer, hrest]
    rfl

lemma simulates_empty : Simulates {} {} := ⟨represents_empty, nofun, fun _ => rfl⟩

noncomputable def ledgerAfter (es : List SessionEvent) : ProvenanceLedger :=
  (run LedgerSession.step {} (Session.ledgerEvents {} es)).ledger

def storeAfter (es : List SessionEvent) : ProvenanceStore := (run Session.step {} es).store

lemma represents_after (es : List SessionEvent) : Represents (storeAfter es) (ledgerAfter es) :=
  (simulates_empty.run es).2.store

theorem session_refines (es : List SessionEvent) :
    Session.answers {} es = LedgerSession.answers {} (Session.ledgerEvents {} es) ∧
      (∀ x, ((storeAfter es).find x).map ProvenanceRecord.d = (ledgerAfter es).entry x) ∧
      (∀ q x, (∃ rec, (storeAfter es).findByProvenance q = some rec ∧ rec.d.subjectId = x) ↔
        (ledgerAfter es).Names q x) ∧
      (∀ p c, p ∈ (storeAfter es).parents c ↔ (ledgerAfter es).Derived p c) ∧
      (∀ a x, a ∈ (storeAfter es).ancestors x ↔ Relation.TransGen (ledgerAfter es).Derived a x) ∧
      ∀ x, (ledgerAfter es).Tainted x ↔ (storeAfter es).validityOf x = .named .invalidated ∨
        ∃ a ∈ (storeAfter es).ancestors x, (storeAfter es).validityOf a = .named .invalidated := by
  have h := represents_after es
  refine ⟨(simulates_empty.run es).1, h.find, fun q x => ?_, h.parents, h.mem_ancestors, h.tainted_iff⟩
  rw [h.names_iff, ProvenanceStore.findByProvenance]
  constructor
  · rintro ⟨rec, hrec, rfl⟩
    cases hq : (storeAfter es).provToState[q]? with
    | none => simp [hq] at hrec
    | some y =>
      simp only [hq] at hrec
      rw [(h.live.keyed y rec hrec).1]
  · intro hq
    obtain ⟨rec, hrec, -⟩ := (h.live.prov q x).mp hq
    rw [hq]
    exact ⟨rec, hrec, (h.live.keyed x rec hrec).1⟩

/-- A verdict is the ledger's, but for a subject that was published stale or of unknown validity: once tainted, it may
still get the verdict of its publication. -/
theorem session_verdict (es : List SessionEvent) (x : StateId) (req : ReuseRequest) :
    ((storeAfter es).checkReuse x req).eligibility = (ledgerAfter es).verdict x req ∨
      (ledgerAfter es).Tainted x ∧ ∃ d, (ledgerAfter es).entry x = some d ∧
        (d.validity = .named .stale ∧ ((storeAfter es).checkReuse x req).eligibility = .stale ∨
          d.validity = .named .unknown ∧ ((storeAfter es).checkReuse x req).eligibility = .unknown) :=
  (represents_after es).checkReuse_verdict x req

end StateProvenance
