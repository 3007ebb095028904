import StateProvenance.Reachable
import StateProvenance.Library.Runs

/-! Fenced publish calls that run concurrently with authority changes. A call evaluates its claim in one
step and inserts its record in a later one, under the lock; the other operations are one step each. -/

namespace StateProvenance

open Std Library.OrderedMap Library.Runs ProvenanceStore

structure Shared where
  store : ProvenanceStore := {}
  admitted : List (RecordData × AuthorityClaim) := []

inductive Event
  | evaluate (data : RecordData) (claim : AuthorityClaim)
  | insert (n : ℕ)
  | authority (op : AuthorityOp)

namespace Shared

def step (t : Shared) : Event → Shared
  -- A call that is not admitted returns at once; any admitted call may be the next to take the lock.
  | .evaluate data claim =>
    match t.store.rejection data claim with
    | some _ => t
    | none => { t with admitted := t.admitted ++ [(data, claim)] }
  | .insert n =>
    match t.admitted[n]? with
    | none => t
    | some (data, _) => ⟨(t.store.publishValidated data).2, t.admitted.eraseIdx n⟩
  | .authority op => { t with store := t.store.applyAuthority op }

def Inserts (s : ProvenanceStore) (data : RecordData) : Prop :=
  ∃ o, (s.publishValidated data).1 = .ok o ∧ o.ok = true

def InsertedUnderAuthority (t : Shared) : Event → Prop
  | .insert n => ∀ data claim, t.admitted[n]? = some (data, claim) → Inserts t.store data →
      (t.store.evaluateClaim claim).accepted = true
  | _ => True

def SparesAdmitted (t : Shared) : Event → Prop
  | .authority op => ∀ call ∈ t.admitted,
      ((t.store.applyAuthority op).evaluateClaim call.2).accepted = true
  | _ => True

lemma step_evaluate_insert (t : Shared) (data : RecordData) (claim : AuthorityClaim)
    (h : t.store.rejection data claim = none) :
    (t.step (.evaluate data claim)).step (.insert t.admitted.length) =
      { t with store := (t.store.publishFenced data claim).2 } := by
  simp [step, h, publishFenced, List.eraseIdx_append_of_length_le]

def AllAccepted (t : Shared) : Prop :=
  ∀ call ∈ t.admitted, (t.store.evaluateClaim call.2).accepted = true

lemma AllAccepted.step {t : Shared} (h : t.AllAccepted) {e : Event} (he : t.SparesAdmitted e) :
    (t.step e).AllAccepted := by
  cases e with
  | evaluate data claim =>
    simp only [Shared.step]
    split
    · exact h
    · next hnone =>
      intro call hcall
      rcases List.mem_append.mp hcall with hm | hm
      · exact h call hm
      · obtain rfl := List.mem_singleton.mp hm
        exact accepted_of_rejection hnone
  | insert n =>
    simp only [Shared.step]
    split
    · exact h
    · intro call hcall
      have hold := h call (List.mem_of_mem_eraseIdx hcall)
      rwa [evaluateClaim, authority_publishValidated]
  | authority op => exact he

theorem inserted_under_authority (s : ProvenanceStore) {es : List Event}
    (h : Along step SparesAdmitted ⟨s, []⟩ es) : Along step InsertedUnderAuthority ⟨s, []⟩ es := by
  have hinit : AllAccepted ⟨s, []⟩ := by simp [AllAccepted]
  refine along_of_invariant (fun t e ht he => ht.step he) (fun t e ht _ => ?_) hinit h
  cases e with
  | insert n => exact fun data claim hn _ => ht _ (List.mem_of_getElem? hn)
  | evaluate data claim => trivial
  | authority op => trivial

theorem spared_call_inserted :
    Along step InsertedUnderAuthority ⟨{}, []⟩ [.evaluate (.produced 1) { coordinatorEpoch := 1 },
      .authority (.setModelGeneration ⟨5⟩), .insert 0] := by
  refine inserted_under_authority {} ⟨trivial, ?_, trivial, trivial⟩
  exact List.forall_mem_singleton.mpr (by decide)

theorem superseded_call_inserted :
    ¬ ∀ s, Reachable s → ∀ es, Along step InsertedUnderAuthority ⟨s, []⟩ es := by
  intro h
  have hrun := h {} .empty [.evaluate (.produced 1) { coordinatorEpoch := 1 }, .authority .rollEpoch, .insert 0]
  have hinserts : Inserts ((({} : ProvenanceStore)).applyAuthority .rollEpoch) (.produced 1) :=
    ⟨{ ok := true, record := some ⟨.produced 1⟩ }, rfl, rfl⟩
  have haccepted := hrun.2.2.1 (.produced 1) { coordinatorEpoch := 1 } rfl hinserts
  revert haccepted
  decide

lemma not_spared {t : Shared} {n : ℕ} {data : RecordData} {claim : AuthorityClaim}
    (hn : t.admitted[n]? = some (data, claim)) {op : AuthorityOp}
    (hi : Inserts (t.store.applyAuthority op) data)
    (hop : ((t.store.applyAuthority op).evaluateClaim claim).accepted = false) :
    ¬ Along step InsertedUnderAuthority t [.authority op, .insert n] := by
  rintro ⟨-, hinsert, -⟩
  have haccepted := hinsert data claim hn hi
  exact Bool.false_ne_true (hop.symm.trans haccepted)

end Shared

end StateProvenance
