import StateProvenance.Answers
import StateProvenance.Handshake

/-! A worker's publish on its way: the record that the worker builds from the answer to its `Hello`, the frame it
sends, and the turns that the coordinator takes on it. Between two of them other connections take any of theirs. -/

namespace StateProvenance

open Std Library.OrderedMap Library.ByteCodec Library.Runs ProvenanceStore

namespace Worker

inductive Mode
  | produceRoot | produceChild | register
deriving DecidableEq

def Mode.ofArg (arg : String) : Mode :=
  if arg = "produce_root" then .produceRoot else if arg = "produce_child" then .produceChild else .register

end Worker

namespace WorkerAuthority

open Worker

def record (a : WorkerAuthority) (mode : Mode) (wid : WorkerId) (boot : WorkerBootId) (sid input : StateId) :
    RecordData where
  provenanceId := ⟨sid.get⟩
  provenanceGeneration := ⟨orOne a.provGen⟩
  subjectId := sid
  subjectKind := .named (if mode = .produceChild then .tensorState else .kvState)
  stateGeneration := ⟨orOne a.stateGen⟩
  producerId := ⟨0x7000000000000000 ||| wid.get⟩
  producerGeneration := ⟨1⟩
  executionId := ⟨0x8000000000000000 ||| sid.get⟩
  attemptId := ⟨orOne a.attempt⟩
  attemptGeneration := ⟨orOne a.attemptGen⟩
  modelId := ⟨0x9000000000000000⟩
  modelGeneration := ⟨orOne a.modelGen⟩
  architecture := ByteString.ofText "sm_120"
  computeCapability := ByteString.ofText "12.0"
  evidence := .named .measured
  validity := .named .valid
  coordinatorEpoch := a.epoch
  workerId := wid
  workerBoot := boot
  inputStates := if mode = .produceChild ∧ input.valid then [input] else []
  contentDigest := ByteString.ofText ("sha256:mock:" ++ sid.toText)

end WorkerAuthority

def Worker.request (mode : Mode) (wid : WorkerId) (boot : WorkerBootId) (sid input : StateId) (resp : ByteString) :
    Option (Except String ByteString) :=
  let a := WorkerAuthority.ofResponse resp
  match mode with
  | .register => none
  | mode => some (encodePublishPayload (a.record mode wid boot sid input) (a.claim wid boot))

namespace WorkerAuthority

open Worker

variable (a : WorkerAuthority) (mode : Mode) (wid : WorkerId) (boot : WorkerBootId) (sid input : StateId)

lemma orOne_ne_zero (v : UInt64) : orOne v ≠ 0 := by
  rw [orOne]
  split
  · assumption
  · decide

lemma or_ne_zero {v : UInt64} (hv : v ≠ 0) (w : UInt64) : v ||| w ≠ 0 := by
  intro h
  exact hv (UInt64.or_eq_zero_iff.mp h).1

lemma valid_mk {Tag : Type} {v : UInt64} (hv : v ≠ 0) : (⟨v⟩ : ScalarIdentifier Tag).valid = true :=
  (ScalarIdentifier.valid_eq_true_iff _).mpr fun h => hv (congrArg ScalarIdentifier.value h)

lemma inputStates_record : (a.record mode wid boot sid input).inputStates =
    if mode = .produceChild ∧ input.valid then [input] else [] := rfl

lemma validateRecord_record : validateRecord (a.record mode wid boot sid input) = none ↔ sid ≠ {} := by
  rw [validateRecord_eq_none_iff]
  constructor
  · intro h
    exact (ScalarIdentifier.valid_eq_true_iff _).mp h.subjectId
  · intro hsid
    have hget : sid.get ≠ 0 := fun he => hsid (ScalarIdentifier.value_injective he)
    exact {
      provenanceId := valid_mk hget
      provenanceGeneration := valid_mk (orOne_ne_zero _)
      subjectId := (ScalarIdentifier.valid_eq_true_iff _).mpr hsid
      stateGeneration := valid_mk (orOne_ne_zero _)
      producerId := valid_mk (or_ne_zero (by decide) _)
      producerGeneration := valid_mk (by decide)
      subjectKind := by
        cases mode <;> exact fun h => nomatch EnumValue.named.inj h
      grounded := fun _ _ _ => valid_mk (or_ne_zero (by decide) _)
      inputStates := by
        rw [inputStates_record]
        split
        · exact List.nodup_singleton input
        · exact List.nodup_nil
      parentProvenance := List.nodup_nil
      notOwnParent := List.not_mem_nil
      dependencies := fun _ h => absurd h List.not_mem_nil
      requirements := fun _ h => absurd h List.not_mem_nil }

lemma named_record : RecordNamed (a.record mode wid boot sid input) where
  subjectKind := by cases mode <;> rfl
  requirements := fun _ h => absurd h List.not_mem_nil
  evidence := rfl
  validity := rfl
  invalidationReason := rfl
  reuseEligibility := rfl

lemma length_digest : (ByteString.ofText ("sha256:mock:" ++ sid.toText)).length = 30 := by
  have hscheme : (ByteString.ofText "sha256:mock:").length = 12 := length_ofText _
  have hid : (ByteString.ofText sid.toText).length = 18 := by
    rw [ofText_toText]
    simp [hexDigits]
  rw [ofText_append, List.length_append, hscheme, hid]

lemma bounds_record : RecordBounds (a.record mode wid boot sid input) where
  strings := by
    have harch : (ByteString.ofText "sm_120").length ≤ kMaxStringLen.toNat := by
      rw [length_ofText]
      decide
    have hcap : (ByteString.ofText "12.0").length ≤ kMaxStringLen.toNat := by
      rw [length_ofText]
      decide
    have hdigest := length_digest sid
    have hmax : 30 ≤ kMaxStringLen.toNat := by decide
    simp [RecordData.strings, record, harch, hcap, hdigest, hmax]
  inputStates := by
    have hmax : 1 ≤ kMaxVecLen.toNat := by decide
    rw [inputStates_record]
    split
    · exact hmax
    · exact Nat.zero_le _
  parentProvenance := Nat.zero_le _
  dependencies := Nat.zero_le _
  requirements := Nat.zero_le _

end WorkerAuthority

lemma decodePublishPayload_named {d : RecordData} (hn : RecordNamed d) (hb : RecordBounds d) {c : AuthorityClaim}
    {payload : ByteString} (he : encodePublishPayload d c = .ok payload) :
    decodePublishPayload payload = if validateRecord d = none then some (d, onWire c) else none := by
  obtain ⟨w, v, hw, hv, rfl⟩ := (emit_append_eq_ok _ _ _).mp he
  have hlen : ¬ (w ++ v).length < 104 := by
    rw [List.length_append, length_encodeClaim hw]
    omega
  have hread : readRecord {} ⟨v, true⟩ = .ok (d, ⟨[], true⟩) ∨
      ¬ validateRecord d = none ∧ ∃ e, readRecord {} ⟨v, true⟩ = .error e := by
    simpa using reads_record hb (fun _ => hn) id v hv []
  rw [decodePublishPayload, if_neg hlen, decodeClaim_append hw]
  simp only [List.drop_left]
  rcases hread with hread | ⟨hinvalid, e, hread⟩
  · rw [if_pos (ensures_record _ _ _ hread).1, hread]
  · rw [if_neg hinvalid, hread]

lemma Worker.request_eq {mode : Mode} (hmode : mode ≠ .register) (wid : WorkerId) (boot : WorkerBootId)
    (sid input : StateId) (resp : ByteString) : ∃ payload, request mode wid boot sid input resp = some (.ok payload) ∧
      decodePublishPayload payload = if sid ≠ {} then
        some ((WorkerAuthority.ofResponse resp).record mode wid boot sid input,
          onWire ((WorkerAuthority.ofResponse resp).claim wid boot)) else none := by
  let a := WorkerAuthority.ofResponse resp
  let d := a.record mode wid boot sid input
  let c := a.claim wid boot
  obtain ⟨w, hw⟩ := emits_encodeClaim c
  obtain ⟨v, hv⟩ := (emits_writeRecord_iff d).mpr (a.bounds_record mode wid boot sid input).strings
  have he : encodePublishPayload d c = .ok (w ++ v) := (emit_append_eq_ok _ _ _).mpr ⟨w, v, hw, hv, rfl⟩
  refine ⟨w ++ v, ?_, ?_⟩
  · cases mode with
    | register => contradiction
    | _ => exact congrArg some he
  · have hnamed := a.named_record mode wid boot sid input
    rw [decodePublishPayload_named hnamed (a.bounds_record mode wid boot sid input) he]
    simp only [a.validateRecord_record]
    rfl

@[mk_iff] structure ToldCurrent (told s : ProvenanceStore) (wid : WorkerId) (boot : WorkerBootId) : Prop where
  -- The digits that were printed with base 10 are read with base 16.
  epoch : hx (ByteString.ofText (toString told.authority.epoch.toNat)) = s.authority.epoch
  boot : wid = {} ∨ s.authority.bootOf wid = some boot
  attemptId : Agrees ⟨WorkerAuthority.orOne told.authority.attemptId.value⟩ s.authority.attemptId
  attemptGeneration :
    Agrees ⟨WorkerAuthority.orOne told.authority.attemptGeneration.value⟩ s.authority.attemptGeneration
  stateGeneration : Agrees ⟨WorkerAuthority.orOne told.authority.stateGeneration.value⟩ s.authority.stateGeneration
  provenanceGeneration :
    Agrees ⟨WorkerAuthority.orOne told.authority.provenanceGeneration.value⟩ s.authority.provenanceGeneration
  dependencyGeneration : Agrees told.authority.dependencyGeneration s.authority.dependencyGeneration

@[mk_iff] structure ProvenanceStore.HasRoom (s : ProvenanceStore) (mode : Worker.Mode) (sid input : StateId) :
    Prop where
  newSubject : sid ∉ s.records
  newProvenance : (⟨sid.get⟩ : ProvenanceId) ∉ s.provToState
  input : mode = .produceChild → input ≠ {} → input ∈ s.records

instance {Tag : Type} (g current : ScalarIdentifier Tag) : Decidable (Agrees g current) :=
  inferInstanceAs (Decidable (_ ∨ _))

instance (told s : ProvenanceStore) (wid : WorkerId) (boot : WorkerBootId) : Decidable (ToldCurrent told s wid boot) :=
  decidable_of_iff' _ (toldCurrent_iff told s wid boot)

instance (s : ProvenanceStore) (mode : Worker.Mode) (sid input : StateId) : Decidable (s.HasRoom mode sid input) :=
  decidable_of_iff' _ (s.hasRoom_iff mode sid input)

section Meets

variable (told s : ProvenanceStore) (mode : Worker.Mode) (wid : WorkerId) (boot : WorkerBootId) (sid input : StateId)

lemma wireGeneration_iff {Tag : Type} (g current : ScalarIdentifier Tag) :
    (current = {} ∨ ∀ x ∈ wireGeneration (some g), x = current) ↔ Agrees g current := by
  by_cases hg : g = {}
  · subst hg
    simp [Agrees, wireGeneration, Option.filter, ScalarIdentifier.valid]
  · have hne : some g ≠ some {} := fun h => hg (Option.some.inj h)
    simp [Agrees, wireGeneration_eq hne, hg]

lemma claimCurrent_iff_told : ClaimCurrent s.authority
      (onWire ((WorkerAuthority.ofResponse (ByteString.ofText (authoritySummary told))).claim wid boot)) ↔
    ToldCurrent told s wid boot := by
  rw [ofResponse_authoritySummary]
  constructor
  · intro h
    exact {
      epoch := h.epoch
      boot := h.boot
      attemptId := h.attemptId
      attemptGeneration := h.attemptGeneration
      stateGeneration := h.stateGeneration
      provenanceGeneration := h.provenanceGeneration
      dependencyGeneration := (wireGeneration_iff _ _).mp h.dependencyGeneration }
  · intro h
    exact {
      epoch := h.epoch
      boot := h.boot
      attemptId := h.attemptId
      attemptGeneration := h.attemptGeneration
      stateGeneration := h.stateGeneration
      provenanceGeneration := h.provenanceGeneration
      artifactGeneration := .inr nofun
      modelGeneration := .inr nofun
      adapterGeneration := .inr nofun
      compositionGeneration := .inr nofun
      policyGeneration := .inr nofun
      dependencyGeneration := (wireGeneration_iff _ _).mpr h.dependencyGeneration }

lemma rejection_eq_none_iff (d : RecordData) (c : AuthorityClaim) :
    s.rejection d c = none ↔ validateRecord d = none ∧ ClaimCurrent s.authority c := by
  rw [← accepted_iff_claimCurrent, rejection]
  cases validateRecord d with
  | some e => simp
  | none => simp

lemma insertable_record_iff (a : WorkerAuthority) :
    s.Insertable (a.record mode wid boot sid input) ↔ s.HasRoom mode sid input := by
  have hinputs : (∀ x ∈ (a.record mode wid boot sid input).inputStates, x ∈ s.records) ↔
      (mode = .produceChild → input ≠ {} → input ∈ s.records) := by
    simp only [a.inputStates_record, ScalarIdentifier.valid_eq_true_iff]
    split
    · next h => simp [h]
    · next h => simpa using fun hmode hinput => absurd ⟨hmode, hinput⟩ h
  constructor
  · intro h
    exact ⟨h.newSubject, h.newProvenance, hinputs.mp h.inputs⟩
  · intro h
    exact ⟨⟨hinputs.mpr h.input, fun _ hq => absurd hq List.not_mem_nil⟩, h.newSubject, h.newProvenance⟩

end Meets

structure Turn where
  o : CallOutcomes
  arg : StatsArg
  meanwhile : List ServiceEvent

def Turn.Of (i : ℕ) (x : Turn) : Prop := ∀ o arg, ServiceEvent.act i o arg ∉ x.meanwhile

namespace Service

def turn (t : Service) (i : ℕ) (x : Turn) : Service := run step (t.step (.act i x.o x.arg)) x.meanwhile

variable {t : Service} {i : ℕ} {x : Turn}

lemma conns_setConn (t : Service) (i : ℕ) (c : Connection) : (t.setConn i c).conns i = c := by
  rw [setConn]
  exact Function.update_self i c t.conns

lemma thread_run_of_notMem (t : Service) {es : List ServiceEvent} (hes : ∀ o arg, ServiceEvent.act i o arg ∉ es) :
    ((run step t es).conns i).thread = (t.conns i).thread := by
  induction es generalizing t with
  | nil => rfl
  | cons e es ih =>
    rw [run_cons, ih _ fun o arg he => hes o arg (List.mem_cons_of_mem e he)]
    cases e with
    | arrive j bytes => exact thread_arrive t j bytes i
    | act j o arg =>
      by_cases hj : i = j
      · subst hj
        exact absurd List.mem_cons_self (hes o arg)
      · rw [conns_step_of_ne t hj]

lemma Sound.turn (ht : t.Sound) (i : ℕ) (x : Turn) : (t.turn i x).Sound :=
  (ht.step _).run _

lemma Sound.traffic_act {f : Frame} {task : Task} (ht : t.Sound) (hthread : (t.conns i).thread = .handling f task)
    (o : CallOutcomes) (arg : StatsArg) : t.traffic (.act i o arg) = task.sent.map (.answered i f) := by
  simp only [traffic, ht.running, hthread, Option.isSome_none, Bool.false_eq_true, if_false]

lemma Sound.turn_handling {f : Frame} {task : Task} (ht : t.Sound) (hx : x.Of i)
    (hthread : (t.conns i).thread = .handling f task) {g : Globals} {th : Thread}
    (hstep : task.step f x.o x.arg t.globals = .ok (g, th)) : ((t.turn i x).conns i).thread = th := by
  rw [Service.turn, thread_run_of_notMem _ hx, Service.step, ht.running, Service.act, hthread]
  simp only [Option.isSome_none, Bool.false_eq_true, if_false, hstep, conns_setConn]

lemma Sound.turn_receiving {f : Frame} (ht : t.Sound) (hx : x.Of i)
    (hreceived : t.traffic (.act i x.o x.arg) = some (.received i f)) :
    ((t.turn i x).conns i).thread = .handling f (.start f) := by
  have hacts := ht.act i x.o x.arg
  rw [Service.turn, thread_run_of_notMem _ hx]
  rw [hreceived] at hacts
  generalize t.step (.act i x.o x.arg) = t', hseen : some (Traffic.received i f) = seen at hacts
  cases hacts with
  | idle => contradiction
  | checked => contradiction
  | received f' rest hf hold =>
    obtain ⟨-, rfl⟩ := Traffic.received.inj (Option.some.inj hseen)
    rw [conns_setConn]
  | handled f' task globals thread hold hstep =>
    obtain ⟨text, -, htext⟩ := Option.map_eq_some_iff.mp hseen.symm
    contradiction

lemma Sound.turn_checking (ht : t.Sound) (hx : x.Of i) (hthread : (t.conns i).thread = .checking) (f : Frame)
    (task : Task) : ((t.turn i x).conns i).thread ≠ .handling f task := by
  have hacts := ht.act i x.o x.arg
  rw [Service.turn, thread_run_of_notMem _ hx]
  generalize t.step (.act i x.o x.arg) = t', t.traffic (.act i x.o x.arg) = seen at hacts
  cases hacts with
  | idle hold =>
    rw [hthread]
    exact nofun
  | checked thread hopen hold =>
    rw [conns_setConn]
    rcases hopen with rfl | ⟨rfl, -⟩
    · exact nofun
    · exact nofun
  | received f' rest hf hold =>
    rw [hthread] at hold
    contradiction
  | handled f' task globals thread hold hstep =>
    rw [hthread] at hold
    contradiction

section Publish

variable {f : Frame} {x₁ x₂ x₃ : Turn}

lemma not_answered {text : String} (hthread : ∀ f task, (t.conns i).thread ≠ .handling f task) (e : ServiceEvent) :
    t.traffic e ≠ some (.answered i f text) := by
  intro ha
  obtain ⟨o, arg, task, -, hhandling, -⟩ := answered_eq ha
  exact hthread f task hhandling

lemma start_malformed (hf : IsPublish f) (hd : decodePublishPayload f.payload = none) : Task.start f = .malformed := by
  rcases hf with hop | hop
  · simp only [Task.start, hop, hd]
  · simp only [Task.start, hop, hd]

lemma start_evaluate (hf : IsPublish f) {d : RecordData} {c : AuthorityClaim}
    (hd : decodePublishPayload f.payload = some (d, c)) : Task.start f = .evaluate d c := by
  rcases hf with hop | hop
  · simp only [Task.start, hop, hd]
  · simp only [Task.start, hop, hd]

variable (ht : t.Sound)

include ht

lemma not_answered_malformed (hx₁ : x₁.Of i) (hx₂ : x₂.Of i) (hx₃ : x₃.Of i)
    (hthread : (t.conns i).thread = .handling f .malformed) (e : ServiceEvent) (text : String) :
    (((t.turn i x₁).turn i x₂).turn i x₃).traffic e ≠ some (.answered i f text) := by
  have hcounting := ht.turn_handling hx₁ hthread rfl
  have hchecking := (ht.turn i x₁).turn_handling hx₂ hcounting rfl
  exact not_answered (((ht.turn i x₁).turn i x₂).turn_checking hx₃ hchecking) e

lemma not_answered_refused (hx₁ : x₁.Of i) (hx₂ : x₂.Of i) {error : String}
    (hthread : (t.conns i).thread = .handling f (.countRejected error)) (e : ServiceEvent) (text : String) :
    ((t.turn i x₁).turn i x₂).traffic e ≠ some (.answered i f text) := by
  have hresponding := ht.turn_handling hx₁ hthread rfl
  have hchecking := (ht.turn i x₁).turn_handling hx₂ hresponding rfl
  refine not_answered (fun f task => ?_) e
  rw [hchecking]
  exact nofun

lemma answered_insert {d : RecordData} (hv : validateRecord d = none) (hx₁ : x₁.Of i) (hx₂ : x₂.Of i)
    (hthread : (t.conns i).thread = .handling f (.insert d)) (o : CallOutcomes) (arg : StatsArg) :
    ((t.turn i x₁).turn i x₂).traffic (.act i o arg) = some (.answered i f "ok") ↔ t.globals.store.Insertable d := by
  have hinserted := ht.turn i x₁
  have hpublish : t.globals.store.publishValidated d = t.globals.store.insertValidated d := by
    rw [publishValidated, hv]
  by_cases hi : t.globals.store.Insertable d
  · obtain ⟨g, -, hinsert⟩ := insertValidated_accepted ht.store.toCore hv hi
    have hcounting := ht.turn_handling hx₁ hthread (by rw [Task.step, hpublish, hinsert])
    have hresponding := hinserted.turn_handling hx₂ hcounting rfl
    exact iff_of_true ((hinserted.turn i x₂).traffic_act hresponding o arg) hi
  · obtain ⟨error, hinsert⟩ := insertValidated_rejected hi
    have hcounting := ht.turn_handling hx₁ hthread (by rw [Task.step, hpublish, hinsert])
    have hresponding := hinserted.turn_handling hx₂ hcounting rfl
    have hanswered := (hinserted.turn i x₂).traffic_act hresponding o arg
    refine iff_of_false (fun hok => ?_) hi
    obtain ⟨-, -, he⟩ := Traffic.answered.inj (Option.some.inj (hanswered.symm.trans hok))
    exact err_ne_ok error he

lemma accepted_iff_looks (hf : IsPublish f) (hx₁ : x₁.Of i) (hx₂ : x₂.Of i) (hx₃ : x₃.Of i)
    (hthread : (t.conns i).thread = .handling f (.start f)) (o : CallOutcomes) (arg : StatsArg) :
    (((t.turn i x₁).turn i x₂).turn i x₃).traffic (.act i o arg) = some (.answered i f "ok") ↔
      ∃ d c, decodePublishPayload f.payload = some (d, c) ∧ t.globals.store.rejection d c = none ∧
        (t.turn i x₁).globals.store.Insertable d := by
  cases hd : decodePublishPayload f.payload with
  | none =>
    rw [start_malformed hf hd] at hthread
    refine iff_of_false (not_answered_malformed ht hx₁ hx₂ hx₃ hthread _ _) ?_
    rintro ⟨d, c, h, -⟩
    contradiction
  | some x =>
    obtain ⟨d, c⟩ := x
    rw [start_evaluate hf hd] at hthread
    have hread := (encode_of_decodePublishPayload hd).1
    simp only [Option.some.injEq, Prod.mk.injEq, exists_eq_left', and_assoc, exists_and_left]
    cases hr : t.globals.store.rejection d c with
    | some r =>
      have hrefused := ht.turn_handling hx₁ hthread (by rw [Task.step, hr])
      have hnone : some r ≠ none := Option.some_ne_none r
      exact iff_of_false (not_answered_refused (ht.turn i x₁) hx₂ hx₃ hrefused _ _) fun h => hnone h.1
    | none =>
      have hinserting := ht.turn_handling hx₁ hthread (by rw [Task.step, hr])
      rw [answered_insert (ht.turn i x₁) hread.valid hx₂ hx₃ hinserting]
      simp only [true_and]

end Publish

section Worker

variable {mode : Worker.Mode} {wid : WorkerId} {boot : WorkerBootId} {sid input : StateId} {told : ProvenanceStore}
  {payload : ByteString}

/-- The publish of a worker that was told the authority of some store, before or by another process, is accepted exactly
when its claim is current when it is looked at, and there is room for its record when that is inserted. -/
theorem worker_accepted_iff {load : Option ByteString} {s : ProvenanceStore} (h : startStore load = some s)
    (es : List ServiceEvent) (hrequest : Worker.request mode wid boot sid input
      (ByteString.ofText (authoritySummary told)) = some (.ok payload)) {x₁ x₂ x₃ x₄ : Turn}
    (hturns : ∀ x ∈ [x₁, x₂, x₃, x₄], x.Of i) (hreceived : (run step (start s) es).traffic (.act i x₁.o x₁.arg) =
      some (.received i ⟨Op.publish.code, payload⟩)) (o : CallOutcomes) (arg : StatsArg) :
    let received := (run step (start s) es).turn i x₁
    let checked := received.turn i x₂
    let inserted := checked.turn i x₃
    let counted := inserted.turn i x₄
    counted.traffic (.act i o arg) = some (.answered i ⟨Op.publish.code, payload⟩ "ok") ↔
      sid ≠ {} ∧ ToldCurrent told received.globals.store wid boot ∧
        checked.globals.store.HasRoom mode sid input := by
  intro received checked inserted counted
  have hsound := (sound_start (savable_startStore h)).run es
  simp only [List.forall_mem_cons] at hturns
  obtain ⟨hx₁, hx₂, hx₃, hx₄, -⟩ := hturns
  have hthread := hsound.turn_receiving hx₁ hreceived
  have hmode : mode ≠ .register := by
    rintro rfl
    contradiction
  obtain ⟨payload', hpayload, hdecode⟩ :=
    Worker.request_eq hmode wid boot sid input (ByteString.ofText (authoritySummary told))
  obtain rfl := Except.ok.inj (Option.some.inj (hrequest.symm.trans hpayload))
  rw [accepted_iff_looks (hsound.turn i x₁) (.inl rfl) hx₂ hx₃ hx₄ hthread, hdecode]
  by_cases hsid : sid = {}
  · simp [hsid]
  · rw [if_pos hsid, ← claimCurrent_iff_told, ← insertable_record_iff checked.globals.store mode wid boot sid input
      (WorkerAuthority.ofResponse (ByteString.ofText (authoritySummary told)))]
    simp only [Option.some.injEq, Prod.mk.injEq, exists_eq_left', and_assoc, exists_and_left, rejection_eq_none_iff,
      WorkerAuthority.validateRecord_record, ne_eq]
    exact Iff.rfl

def firstAuthority : WorkerAuthority := ⟨1, 0, 0, 0, 0, 0, 0⟩

def workerFrame : Frame :=
  ⟨Op.publish.code, (encodePublishPayload (firstAuthority.record .produceRoot ⟨1⟩ ⟨2⟩ ⟨5⟩ {})
    (firstAuthority.claim ⟨1⟩ ⟨2⟩)).toOption.getD []⟩

def helloThenPublish : List ServiceEvent :=
  exchange 0 ⟨Op.hello.code, Worker.hello ⟨1⟩ ⟨2⟩⟩ 5 ++ exchange 0 workerFrame 1

def bareTurn : Turn := ⟨callsDone, .size, []⟩

def rollingTurn : Turn := ⟨callsDone, .size, exchange 1 ⟨Op.rollEpoch.code, []⟩ 4⟩

theorem rolled_meanwhile_accepted :
    (((((run step (start {}) helloThenPublish).turn 0 bareTurn).turn 0 rollingTurn).turn 0 bareTurn).turn 0
      bareTurn).traffic (.act 0 callsDone .size) = some (.answered 0 workerFrame "ok") := by
  let told := ({} : ProvenanceStore).applyAuthority (.registerBoot ⟨1⟩ ⟨2⟩)
  have hread : WorkerAuthority.ofResponse (ByteString.ofText (authoritySummary told)) = firstAuthority := by
    rw [ofResponse_authoritySummary]
    decide +kernel
  have hrequest : Worker.request .produceRoot ⟨1⟩ ⟨2⟩ ⟨5⟩ {} (ByteString.ofText (authoritySummary told)) =
      some (.ok workerFrame.payload) := by
    obtain ⟨payload, hpayload, -⟩ := @Worker.request_eq .produceRoot (by decide) ⟨1⟩ ⟨2⟩ ⟨5⟩ {}
      (ByteString.ofText (authoritySummary told))
    have he := Option.some.inj hpayload
    rw [hread] at he
    rw [hpayload, workerFrame, he]
    rfl
  have hturns : ∀ x ∈ [bareTurn, rollingTurn, bareTurn, bareTurn], x.Of 0 := by
    simp [Turn.Of, bareTurn, rollingTurn, exchange]
  exact (@worker_accepted_iff 0 .produceRoot ⟨1⟩ ⟨2⟩ ⟨5⟩ {} told workerFrame.payload none {} rfl helloThenPublish
    hrequest bareTurn rollingTurn bareTurn bareTurn hturns (by decide +kernel) callsDone .size).mpr
      ⟨by decide, by decide +kernel, by decide +kernel⟩

end Worker

end Service

end StateProvenance
