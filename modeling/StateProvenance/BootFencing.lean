import StateProvenance.Connections
import StateProvenance.Recovery
import StateProvenance.Worker

/-! Superseded worker boots. Registering a boot overwrites the one before it, so an old boot comes back with
its registration, and with nothing else. -/

namespace StateProvenance

open Std Library.OrderedMap Library.Runs ProvenanceStore

def StoreCall.register (w : WorkerId) (b : WorkerBootId) : StoreCall := .authority (.registerBoot w b)

def Superseded (calls : List StoreCall) (w : WorkerId) (b : WorkerBootId) : Prop :=
  ∃ pre mid later b', b' ≠ b ∧ calls = pre ++ .register w b :: (mid ++ .register w b' :: later)

lemma bootOf_apply (s : ProvenanceStore) {call : StoreCall} {w : WorkerId} {b : WorkerBootId}
    (hcall : call ≠ .register w b) (h : (call.apply s).authority.bootOf w = some b) :
    s.authority.bootOf w = some b := by
  cases call with
  | publish d c => rwa [StoreCall.apply, authority_publishFenced] at h
  | authority op =>
    cases op with
    | registerBoot w' b' =>
      have hget : (s.authority.boot.insert w' b')[w]? = some b := h
      rw [ExtTreeMap.getElem?_insert] at hget
      split at hget
      · next hw =>
        obtain rfl := LawfulEqCmp.eq_of_compare hw
        obtain rfl := Option.some.inj hget
        exact absurd rfl hcall
      · exact hget
    | _ => exact h

lemma bootOf_foldl (s : ProvenanceStore) {calls : List StoreCall} {w : WorkerId} {b : WorkerBootId}
    (hcalls : .register w b ∉ calls) (h : (calls.foldl StoreCall.apply s).authority.bootOf w = some b) :
    s.authority.bootOf w = some b := by
  induction calls generalizing s with
  | nil => exact h
  | cons call calls ih =>
    rw [List.mem_cons, not_or] at hcalls
    exact bootOf_apply s (fun he => hcalls.1 he.symm) (ih _ hcalls.2 h)

lemma bootOf_register (s : ProvenanceStore) (w : WorkerId) (b : WorkerBootId) :
    ((StoreCall.register w b).apply s).authority.bootOf w = some b := by
  have hget : (s.authority.boot.insert w b)[w]? = some b := ExtTreeMap.getElem?_insert_self
  exact hget

lemma bootOf_superseded (s : ProvenanceStore) {pre later : List StoreCall} {w : WorkerId} {b b' : WorkerBootId}
    (hne : b' ≠ b) (hlater : .register w b ∉ later) :
    ((pre ++ .register w b' :: later).foldl StoreCall.apply s).authority.bootOf w ≠ some b := by
  intro h
  rw [List.foldl_append, List.foldl_cons] at h
  have hold := bootOf_foldl _ hlater h
  rw [bootOf_register] at hold
  exact hne (Option.some.inj hold)

namespace Server

def NeverRegains (t : Server) (es : List ServerEvent) : Prop :=
  ∀ fs, fs <+: es → ∀ w b, Superseded (t.executed fs) w b → ∀ c : AuthorityClaim, c.workerId = w →
    c.workerBoot = b → ((run step t fs).store.evaluateClaim c).accepted ≠ true

def BootFenced (t : Server) (es : List ServerEvent) : Prop :=
  ∀ fs e d c, fs ++ [e] <+: es → (run step t fs).calling e = some (.publish d c) →
    Superseded (t.executed fs) c.workerId c.workerBoot → ¬ (run step t fs).store.Publishes d c

def NeverReregistered (t : Server) (es : List ServerEvent) : Prop :=
  ∀ pre mid later (w : WorkerId) (b b' : WorkerBootId), b' ≠ b →
    t.executed es = pre ++ .register w b :: (mid ++ .register w b' :: later) →
    w ≠ {} ∧ .register w b ∉ later

lemma NeverReregistered.neverRegains {t : Server} {es : List ServerEvent} (h : t.NeverReregistered es) :
    t.NeverRegains es := by
  rintro fs ⟨gs, rfl⟩ w b ⟨pre, mid, later, b', hne, hsplit⟩ c hw hb haccepted
  have hall : t.executed (fs ++ gs) =
      pre ++ .register w b :: (mid ++ .register w b' :: (later ++ (run step t fs).executed gs)) := by
    rw [executed_append, hsplit]
    simp
  obtain ⟨hnull, hlater⟩ := h pre mid _ w b b' hne hall
  have hboot := ((accepted_iff_claimCurrent _ _).mp haccepted).boot
  have hcalls : t.executed fs = (pre ++ .register w b :: mid) ++ .register w b' :: later := by
    rw [hsplit]
    simp
  rw [hw, hb, store_run, hcalls] at hboot
  cases hboot with
  | inl hn => exact hnull hn
  | inr hcur => exact bootOf_superseded _ hne (fun hm => hlater (List.mem_append_left _ hm)) hcur

lemma NeverRegains.neverReregistered {t : Server} {es : List ServerEvent} (h : t.NeverRegains es) :
    t.NeverReregistered es := by
  intro pre mid later w b b' hne hsplit
  constructor
  · intro hnull
    exact h es List.prefix_rfl w b ⟨pre, mid, later, b', hne, hsplit⟩ _ rfl rfl
      ((bootClaim_accepted_iff _ w b).mpr (Or.inl hnull))
  · intro hm
    obtain ⟨later₁, later₂, rfl⟩ := List.append_of_mem hm
    have hcut : t.executed es =
        (pre ++ .register w b :: (mid ++ .register w b' :: (later₁ ++ [.register w b]))) ++ later₂ := by
      rw [hsplit]
      simp
    obtain ⟨fs, gs, rfl, hcalls, -⟩ := observe_eq_append hcut
    have hfs : t.executed fs =
        pre ++ .register w b :: (mid ++ .register w b' :: (later₁ ++ [.register w b])) := hcalls
    have hboot : (run step t fs).store.authority.bootOf w = some b := by
      have hlast : t.executed fs =
          (pre ++ .register w b :: (mid ++ .register w b' :: later₁)) ++ [.register w b] := by
        rw [hfs]
        simp
      rw [store_run, hlast, List.foldl_append, List.foldl_cons, List.foldl_nil]
      exact bootOf_register _ w b
    exact h fs (List.prefix_append fs gs) w b ⟨pre, mid, later₁ ++ [.register w b], b', hne, hfs⟩ _ rfl rfl
      ((bootClaim_accepted_iff _ w b).mpr (Or.inr hboot))

lemma NeverRegains.bootFenced {t : Server} {es : List ServerEvent} (h : t.NeverRegains es) : t.BootFenced es := by
  intro fs e d c hfs _ hsuperseded hpublishes
  exact h fs ((List.prefix_append fs [e]).trans hfs) _ _ hsuperseded c rfl rfl (accepted_of_publishes hpublishes)

theorem bootFenced_iff (t : Server) (es : List ServerEvent) :
    (t.NeverRegains es ↔ t.NeverReregistered es) ∧ (t.NeverReregistered es → t.BootFenced es) :=
  ⟨⟨fun h => h.neverReregistered, fun h => h.neverRegains⟩, fun h => h.neverRegains.bootFenced⟩

def registration : StoreCall → Option (WorkerId × WorkerBootId)
  | .authority (.registerBoot w b) => some (w, b)
  | _ => none

lemma neverReregistered_of_nodup {t : Server} {es : List ServerEvent}
    (hnodup : ((t.executed es).filterMap registration).Nodup)
    (hnull : ∀ x ∈ (t.executed es).filterMap registration, x.1 ≠ {}) : t.NeverReregistered es := by
  intro pre mid later w b b' _ hsplit
  have hregister : ∀ b, registration (.register w b) = some (w, b) := fun _ => rfl
  rw [hsplit] at hnodup hnull
  simp only [List.filterMap_append, List.filterMap_cons, hregister] at hnodup hnull
  constructor
  · exact hnull (w, b) (List.mem_append_right _ List.mem_cons_self)
  · intro hm
    have hlater : (w, b) ∈ later.filterMap registration := List.mem_filterMap.mpr ⟨_, hm, hregister b⟩
    have hfresh := (List.nodup_cons.mp (List.nodup_append.mp hnodup).2.1).1
    exact hfresh (List.mem_append_right _ (List.mem_cons_of_mem _ hlater))

lemma storeCalls_hello (w : WorkerId) (b : WorkerBootId) :
    storeCalls (.hello (Worker.hello w b)) = [.register w b] := by
  rw [storeCalls, helloCalls, if_pos (Worker.length_hello w b).ge, Worker.u64_hello]
  simp only [u64_append, Option.getD_some]
  rfl

def bootClaim : AuthorityClaim where
  workerId := ⟨1⟩
  workerBoot := ⟨1⟩
  coordinatorEpoch := 1

def bootPayload : ByteString := (encodePublishPayload (.produced 1) bootClaim).toOption.getD []

lemma storeCalls_boot : storeCalls (.publish bootPayload) = [.publish (.produced 1) bootClaim] := by
  rw [storeCalls, bootPayload, publishCalls_encode rfl (by decide) (by decide)]
  rfl

def restarted : List ServerEvent :=
  alone 0 (.hello (Worker.hello ⟨1⟩ ⟨1⟩)) ++ alone 1 (.hello (Worker.hello ⟨1⟩ ⟨2⟩))

def afterRestart : ProvenanceStore :=
  (({} : ProvenanceStore).applyAuthority (.registerBoot ⟨1⟩ ⟨1⟩)).applyAuthority (.registerBoot ⟨1⟩ ⟨2⟩)

lemma run_hello (s : ProvenanceStore) (conn : ℕ) (w : WorkerId) (b : WorkerBootId) :
    run step (start s) (alone conn (.hello (Worker.hello w b))) =
      start (s.applyAuthority (.registerBoot w b)) := by
  rw [run_alone, handleMessage_store, storeCalls_hello]
  rfl

lemma run_restarted : run step (start {}) restarted = start afterRestart := by
  rw [restarted, run_append, run_hello, run_hello]
  rfl

lemma executed_restarted : (start {}).executed restarted = [.register ⟨1⟩ ⟨1⟩, .register ⟨1⟩ ⟨2⟩] := by
  rw [restarted, executed_append, run_hello, executed_alone, executed_alone, storeCalls_hello, storeCalls_hello]
  rfl

theorem restarted_bootFenced : BootFenced (start {}) (restarted ++ alone 0 (.publish bootPayload)) := by
  have hcalls : (start {}).executed (restarted ++ alone 0 (.publish bootPayload)) =
      [.register ⟨1⟩ ⟨1⟩, .register ⟨1⟩ ⟨2⟩, .publish (.produced 1) bootClaim] := by
    rw [executed_append, executed_restarted, run_restarted, executed_alone, storeCalls_boot]
    rfl
  have honce : NeverReregistered (start {}) (restarted ++ alone 0 (.publish bootPayload)) := by
    apply neverReregistered_of_nodup
    · rw [hcalls]
      decide
    · rw [hcalls]
      decide
  exact (bootFenced_iff _ _).2 honce

def resent : List ServerEvent := restarted ++ alone 0 (.hello (Worker.hello ⟨1⟩ ⟨1⟩))

theorem resent_hello_accepted : ¬ ∀ t es, BootFenced t es := by
  intro h
  have hrun : run step (start {}) (resent ++ [.receive 0 (.publish bootPayload)]) =
      (start (afterRestart.applyAuthority (.registerBoot ⟨1⟩ ⟨1⟩))).step (.receive 0 (.publish bootPayload)) := by
    rw [resent, run_append, run_append, run_restarted, run_hello]
    rfl
  have hcalls : (start {}).executed (resent ++ [.receive 0 (.publish bootPayload)]) =
      [.register ⟨1⟩ ⟨1⟩, .register ⟨1⟩ ⟨2⟩, .register ⟨1⟩ ⟨1⟩] := by
    rw [resent, executed_append, executed_append, executed_restarted, run_restarted, executed_alone,
      storeCalls_hello]
    rfl
  have hpublishes : (afterRestart.applyAuthority (.registerBoot ⟨1⟩ ⟨1⟩)).Publishes (.produced 1) bootClaim :=
    ⟨{ ok := true, record := some ⟨.produced 1⟩ }, rfl, rfl⟩
  refine h (start {}) (resent ++ [.receive 0 (.publish bootPayload), .call 0])
    (resent ++ [.receive 0 (.publish bootPayload)]) (.call 0) (.produced 1) bootClaim ?_ ?_ ?_ ?_
  · rw [List.append_assoc]
    exact List.prefix_rfl
  · rw [hrun]
    exact calling_of_handling (handling_receive _ 0 _) storeCalls_boot
  · rw [hcalls]
    exact ⟨[], [], [.register ⟨1⟩ ⟨1⟩], ⟨2⟩, by decide, rfl⟩
  · rw [hrun]
    exact hpublishes

end Server

end StateProvenance
