import StateProvenance.Coordinator
import StateProvenance.Recovery
import StateProvenance.SnapshotFile

/-! Epochs over a whole run of the coordinator. A roll is lost when the process ends before it is saved;
otherwise no claim of an earlier epoch is accepted again. -/

namespace StateProvenance

open Std Library.OrderedMap Library.Runs ProvenanceStore

namespace Coordinator

def EpochFenced (t : Coordinator) (es : List CoordinatorEvent) : Prop :=
  ∀ before mid after payload e d c,
    es = before ++ .message .rollEpoch :: (mid ++ .message (.publish payload) :: after) →
    (run step t before).answer (.message .rollEpoch) = some ("epoch=" ++ toString e) →
    decodePublishPayload payload = some (d, c) → c.coordinatorEpoch.toNat < e →
    (run step t (before ++ .message .rollEpoch :: mid)).answer (.message (.publish payload)) ≠ some "ok"

def NoWrap (t : Coordinator) : CoordinatorEvent → Prop
  | .message .rollEpoch => ∀ s ∈ t.memory, s.authority.epoch.toNat + 1 < 2 ^ 64
  | _ => True

def SavedFrom (t : Coordinator) (e : ℕ) : Prop :=
  ∀ bytes ∈ t.saved, ∀ snap ∈ (loadFile bytes).snapshot, e ≤ snap.authority.epoch.toNat

def EndsSaved (t : Coordinator) (ev : CoordinatorEvent) : Prop :=
  (t.step ev).memory = none → ∀ s ∈ t.memory, t.SavedFrom s.authority.epoch.toNat

structure AtLeast (e : ℕ) (t : Coordinator) : Prop where
  running : ∀ s ∈ t.memory, e ≤ s.authority.epoch.toNat
  stopped : t.memory = none → t.SavedFrom e

lemma epoch_foldl_applyAuthority {l : List AuthorityOp}
    (hl : ∀ op ∈ l, ∀ s : ProvenanceStore, (s.applyAuthority op).authority.epoch = s.authority.epoch)
    (s : ProvenanceStore) : (l.foldl applyAuthority s).authority.epoch = s.authority.epoch := by
  induction l generalizing s with
  | nil => rfl
  | cons op l ih =>
    rw [List.foldl_cons, ih fun o ho => hl o (List.mem_cons_of_mem _ ho), hl op List.mem_cons_self]

lemma epoch_setAuthority (s : ProvenanceStore) (payload : ByteString) :
    ((setAuthorityOps payload).foldl applyAuthority s).authority.epoch = s.authority.epoch := by
  have hguard : ∀ (p : Prop) [Decidable p] (o op : AuthorityOp), op ∈ (if p then [o] else []) → op = o := by
    intro p _ o op h
    split at h
    · exact List.mem_singleton.mp h
    · simp at h
  refine epoch_foldl_applyAuthority (fun op hop s => ?_) s
  simp only [setAuthorityOps, List.mem_append] at hop
  rcases hop with h | h | h | h | h | h
  all_goals
    obtain rfl := hguard _ _ _ h
    rfl

lemma epoch_handleHello (s : ProvenanceStore) (payload : ByteString) :
    (handleHello s payload).authority.epoch = s.authority.epoch := by
  rw [handleHello]
  split
  · rfl
  · rfl

lemma authority_handlePublish (s : ProvenanceStore) (payload : ByteString) :
    (handlePublish s payload).2.authority = s.authority := by
  rw [handlePublish]
  split
  · rfl
  · next d c hd =>
    have h := s.authority_publishFenced d c
    split
    · next he =>
      rw [he] at h
      exact h
    · next he =>
      rw [he] at h
      exact h

lemma toNat_rollEpoch (s : ProvenanceStore) (h : s.authority.epoch.toNat + 1 < 2 ^ 64) :
    (s.applyAuthority .rollEpoch).authority.epoch.toNat = s.authority.epoch.toNat + 1 := by
  have hroll : (s.applyAuthority .rollEpoch).authority.epoch = s.authority.epoch + 1 := rfl
  rw [hroll, UInt64.toNat_add]
  exact Nat.mod_eq_of_lt h

lemma epoch_le_handleMessage (s : ProvenanceStore) (m : Message)
    (h : m = .rollEpoch → s.authority.epoch.toNat + 1 < 2 ^ 64) :
    s.authority.epoch.toNat ≤ (handleMessage s m).2.authority.epoch.toNat := by
  cases m with
  | hello payload => exact Nat.le_of_eq (congrArg UInt64.toNat (epoch_handleHello s payload).symm)
  | publish payload =>
    exact Nat.le_of_eq (congrArg (fun a => a.epoch.toNat) (authority_handlePublish s payload).symm)
  | rollEpoch =>
    have hroll := toNat_rollEpoch s (h rfl)
    simp only [handleMessage]
    omega
  | setAuthority payload => exact Nat.le_of_eq (congrArg UInt64.toNat (epoch_setAuthority s payload).symm)
  | save => exact Nat.le_refl _

lemma epoch_of_publish_ok {s : ProvenanceStore} {payload : ByteString} {d : RecordData} {c : AuthorityClaim}
    (hd : decodePublishPayload payload = some (d, c)) (h : (handlePublish s payload).1 = .ok "ok") :
    c.coordinatorEpoch = s.authority.epoch := by
  cases hrej : s.rejection d c with
  | none => exact AuthorityState.epoch_eq_of_accepted (accepted_of_rejection hrej)
  | some o =>
    obtain ⟨error, rfl⟩ := rejection_eq_some hrej
    simp only [handlePublish, hd, publishFenced, hrej] at h
    have hlen := congrArg String.length (Except.ok.inj h)
    have hok : "ok".length = 2 := rfl
    have herr : "err:".length = 4 := rfl
    rw [if_neg Bool.false_ne_true, String.length_append, hok, herr] at hlen
    omega

lemma epoch_of_loadStore {bytes : ByteString} {s : ProvenanceStore} (h : loadStore bytes = some s) :
    ∃ snap ∈ (loadFile bytes).snapshot, snap.authority.epoch.toNat ≤ s.authority.epoch.toNat := by
  rw [loadStore] at h
  cases hsnap : (loadFile bytes).snapshot with
  | none => simp [hsnap] at h
  | some snap =>
    refine ⟨snap, rfl, ?_⟩
    obtain ⟨_, _, _, -, -, -, -, hd⟩ := (loadFile_eq_some_iff bytes snap).mp hsnap
    have hl := decodeSnapshot_loadable hd
    by_cases ho : Orderable snap.records
    · obtain ⟨r, hrun, hr⟩ := ({} : ProvenanceStore).restore_restored hl ho
      simp only [hsnap, hrun] at h
      obtain rfl := Option.some.inj h
      rw [hr.authority, rebuildAuthority_eq]
      simp only
      split
      · next hzero => simp [hzero]
      · exact Nat.le_refl _
    · simp [hsnap, restore_refused _ hl.distinct ho] at h

lemma toString_injective {m n : ℕ} (h : toString m = toString n) : m = n := by
  have hdigits := congrArg String.toList h
  rw [Nat.toString_eq_repr, Nat.toString_eq_repr, Nat.toList_repr, Nat.toList_repr] at hdigits
  have hvalue := congrArg (Nat.ofDigitChars 10 · 0) hdigits
  simpa only [Nat.ofDigitChars_ten_toDigits] using hvalue

lemma AtLeast.message {e : ℕ} {t : Coordinator} (h : AtLeast e t) {m : Message} (hw : t.NoWrap (.message m))
    (hs : t.EndsSaved (.message m)) : AtLeast e (t.step (.message m)) := by
  cases hm : t.memory with
  | none =>
    have hstep : t.step (.message m) = t := by simp [Coordinator.step, hm]
    rwa [hstep]
  | some s =>
    have hle := h.running s hm
    have hwrap : m = .rollEpoch → s.authority.epoch.toNat + 1 < 2 ^ 64 := by
      rintro rfl
      exact hw s hm
    have hmono := epoch_le_handleMessage s m hwrap
    rcases hr : handleMessage s m with ⟨r, s'⟩
    rw [hr] at hmono
    cases r with
    | error err =>
      have hstep : t.step (.message m) = { t with memory := none } := by simp [Coordinator.step, hm, hr]
      have hsaved := hs (by rw [hstep]) s hm
      rw [hstep]
      exact ⟨by simp, fun _ bytes hb snap hsnap => hle.trans (hsaved bytes hb snap hsnap)⟩
    | ok text =>
      have hstep : t.step (.message m) = ⟨some s', (writtenFile s m).or t.saved⟩ := by
        simp [Coordinator.step, hm, hr]
      rw [hstep]
      refine ⟨fun u hu => ?_, by simp⟩
      obtain rfl := Option.some.inj hu
      exact hle.trans hmono

lemma AtLeast.restart {e : ℕ} {t : Coordinator} (h : AtLeast e t) : AtLeast e (t.step .restart) := by
  cases hm : t.memory with
  | some s =>
    have hstep : t.step .restart = t := by simp [Coordinator.step, hm]
    rwa [hstep]
  | none =>
    have hstep : t.step .restart = { t with memory := t.saved.bind loadStore } := by
      simp [Coordinator.step, hm]
    rw [hstep]
    refine ⟨fun s hsm => ?_, fun _ => h.stopped hm⟩
    obtain ⟨bytes, hb, hload⟩ := Option.bind_eq_some_iff.mp hsm
    obtain ⟨snap, hsnap, hle⟩ := epoch_of_loadStore hload
    exact (h.stopped hm bytes hb snap hsnap).trans hle

lemma AtLeast.step {e : ℕ} {t : Coordinator} (h : AtLeast e t) {ev : CoordinatorEvent} (hw : t.NoWrap ev)
    (hs : t.EndsSaved ev) : AtLeast e (t.step ev) := by
  cases ev with
  | message m => exact h.message hw hs
  | crash =>
    refine ⟨by simp [Coordinator.step], fun _ => ?_⟩
    cases hm : t.memory with
    | none => exact h.stopped hm
    | some s =>
      have hsaved := hs rfl s hm
      exact fun bytes hb snap hsnap => (h.running s hm).trans (hsaved bytes hb snap hsnap)
  | restart => exact h.restart

lemma atLeast_roll {t : Coordinator} {e : ℕ} (hw : t.NoWrap (.message .rollEpoch))
    (ha : t.answer (.message .rollEpoch) = some ("epoch=" ++ toString e)) :
    AtLeast e (t.step (.message .rollEpoch)) := by
  obtain ⟨s, hm, hr⟩ := Option.bind_eq_some_iff.mp ha
  have hroll := toNat_rollEpoch s (hw s hm)
  have htext := (String.append_right_inj _).mp (Option.some.inj hr)
  have he := toString_injective htext
  have hstep : t.step (.message .rollEpoch) = { t with memory := some (s.applyAuthority .rollEpoch) } := by
    simp [Coordinator.step, hm, handleMessage, writtenFile]
  rw [hstep]
  refine ⟨fun u hu => ?_, by simp⟩
  obtain rfl := Option.some.inj hu
  exact Nat.le_of_eq he.symm

theorem epochFenced_of_endsSaved {t : Coordinator} {es : List CoordinatorEvent}
    (hw : Along step NoWrap t es) (hs : Along step EndsSaved t es) : t.EpochFenced es := by
  rintro before mid after payload e d c rfl hroll hd hlt hok
  rw [along_append, along_cons, along_append] at hw hs
  have hstart := atLeast_roll hw.2.1 hroll
  have hboth : Along step (fun t ev => t.NoWrap ev ∧ t.EndsSaved ev)
      ((run step t before).step (.message .rollEpoch)) mid := along_and.mpr ⟨hw.2.2.1, hs.2.2.1⟩
  have hmid := run_invariant (fun t ev ht hc => ht.step hc.1 hc.2) hstart hboth
  rw [run_append, run_cons] at hok
  obtain ⟨s, hm, hr⟩ := Option.bind_eq_some_iff.mp hok
  have hpub : (handlePublish s payload).1 = .ok "ok" := by
    cases hres : (handlePublish s payload).1 with
    | error err => simp [handleMessage, hres, Except.toOption] at hr
    | ok text => simpa [handleMessage, hres, Except.toOption] using hr
  rw [epoch_of_publish_ok hd hpub] at hlt
  exact absurd (hmid.running s hm) (by omega)

def firstEpochPayload : ByteString :=
  (encodePublishPayload (.produced 1) { coordinatorEpoch := 1 }).toOption.getD []

lemma endsSaved_of_isSome {t : Coordinator} {ev : CoordinatorEvent} (h : (t.step ev).memory.isSome = true) :
    t.EndsSaved ev := by
  intro hnone
  rw [hnone] at h
  contradiction

theorem saved_roll_fenced :
    EpochFenced {} [.message .rollEpoch, .message .save, .crash, .restart,
      .message (.publish firstEpochPayload)] := by
  refine epochFenced_of_endsSaved ⟨fun s hs => ?_, trivial, trivial, trivial, trivial, trivial⟩
    ⟨endsSaved_of_isSome (by decide +kernel), endsSaved_of_isSome (by decide +kernel),
      fun _ s hs bytes hb snap hsnap => ?_, endsSaved_of_isSome (by decide +kernel),
      endsSaved_of_isSome (by decide +kernel), trivial⟩
  · obtain rfl := Option.some.inj hs
    decide
  · have hstore : (((({} : Coordinator).step (.message .rollEpoch)).step (.message .save)).memory.all
        fun s => s.authority.epoch.toNat ≤ 2) = true := by decide +kernel
    have hfile : (((({} : Coordinator).step (.message .rollEpoch)).step (.message .save)).saved.all
        fun b => (loadFile b).snapshot.all fun snap => 2 ≤ snap.authority.epoch.toNat) = true := by
      decide +kernel
    rw [Option.mem_def.mp hs, Option.all_some, decide_eq_true_iff] at hstore
    rw [Option.mem_def.mp hb, Option.all_some, Option.mem_def.mp hsnap, Option.all_some,
      decide_eq_true_iff] at hfile
    exact hstore.trans hfile

theorem unsaved_roll_lost : ¬ ∀ es, Along step NoWrap {} es → EpochFenced {} es := by
  intro h
  have hfenced := h [.message .save, .message .rollEpoch, .crash, .restart,
    .message (.publish firstEpochPayload)]
    ⟨trivial, fun s hs => by
      obtain rfl := Option.some.inj hs
      decide +kernel, trivial, trivial, trivial, trivial⟩
  have hclaim : ((decodePublishPayload firstEpochPayload).map fun x => x.2.coordinatorEpoch) = some 1 := by
    decide +kernel
  obtain ⟨⟨d, c⟩, hd, hc⟩ := Option.map_eq_some_iff.mp hclaim
  refine hfenced [.message .save] [.crash, .restart] [] firstEpochPayload 2 d c rfl ?_ hd ?_ ?_
  · decide +kernel
  · rw [hc]
    decide
  · decide +kernel

end Coordinator

end StateProvenance
