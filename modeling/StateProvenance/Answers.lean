import StateProvenance.Responses

/-! What an answer says. Each is the outcome of one call on the store, made while its frame was handled, except for those
of `SetAuthority` and `Stats`; so a record whose publish was answered is found by every later query. -/

namespace StateProvenance

open Std Library.OrderedMap Library.ByteCodec Library.Runs ProvenanceStore

def queryId (payload : ByteString) : StateId := ⟨(BinaryReader.u64 ⟨payload, true⟩).1.getD 0⟩

def queryAnswer (s : ProvenanceStore) (payload : ByteString) : String :=
  if payload.length ≥ 8 then
    match s.find (queryId payload) with
    | none => "absent"
    | some rec => presentText rec (s.validityOf (queryId payload)) s.size
  else "err:bad query"

def PublishExplains (d : RecordData) (c : AuthorityClaim) (text : String) (s s' : ProvenanceStore) : Prop :=
  (∃ r, s.rejection d c = some r ∧ text = "err:" ++ r.error ∧ s' = s) ∨
    ∃ r, s.publishValidated d = (.ok r, s') ∧ text = if r.ok then "ok" else "err:" ++ r.error

def Explains (f : Frame) (text : String) (s s' : ProvenanceStore) : Prop :=
  match Op.ofCode f.op with
  | some .hello => text = authoritySummary s ∧ s' = s
  | some .publish | some .publishStale =>
    match decodePublishPayload f.payload with
    | none => text = "err:malformed publish" ∧ s' = s
    | some (d, c) => PublishExplains d c text s s'
  | some .rollEpoch =>
    s' = s.applyAuthority .rollEpoch ∧ text = "epoch=" ++ toString s'.authority.epoch.toNat
  | some .save => (text = "saved;digest=" ++ storeDigest s.snapshot ∨ ∃ e, text = "err:" ++ e) ∧ s' = s
  | some .query => text = queryAnswer s f.payload ∧ s' = s
  | some .setAuthority | some .stats => True
  | some .shutdown => text = "bye"
  | some .respond | some .load | none => text = "err:unknown op"

lemma err_ne_ok (error : String) : "err:" ++ error ≠ "ok" := by
  intro he
  have hlen := congrArg String.length he
  rw [String.length_append] at hlen
  change 4 + _ = 2 at hlen
  omega

def Thread.frame : Thread → Option Frame
  | .handling f _ => some f
  | _ => none

def ProvenanceStore.Has (s : ProvenanceStore) (d : RecordData) : Prop :=
  s.find d.subjectId = some ⟨d⟩ ∧ s.validityOf d.subjectId = d.validity

lemma ProvenanceStore.Grows.has {s s' : ProvenanceStore} (h : s.Grows s') {d : RecordData} (hd : s.Has d) : s'.Has d :=
  ⟨h.find hd.1, (h.validityOf hd.1).trans hd.2⟩

def Service.Handles (t : Service) (i : ℕ) (f : Frame) : Prop := ∃ task, (t.conns i).thread = .handling f task

lemma Service.Handles.frame {t : Service} {i : ℕ} {f : Frame} (h : t.Handles i f) :
    (t.conns i).thread.frame = some f := by
  obtain ⟨task, htask⟩ := h
  rw [htask, Thread.frame]

/-- Connection `i` handles `f`, and `Q` holds of the store before and after a step that was made meanwhile. -/
def Service.Witnessed (t : Service) (i : ℕ) (f : Frame) (es : List ServiceEvent)
    (Q : ProvenanceStore → ProvenanceStore → Prop) : Prop :=
  Since Service.step (fun t e => Q t.globals.store (t.step e).globals.store) (fun t => t.Handles i f) t es

def Task.Justified (f : Frame) (seen : (ProvenanceStore → ProvenanceStore → Prop) → Prop) : Task → Prop
  | .registerBoot _ _ | .authoritySummary => Op.ofCode f.op = some .hello
  | .evaluate d c => IsPublish f ∧ decodePublishPayload f.payload = some (d, c)
  | .insert d => IsPublish f ∧ ∃ c, decodePublishPayload f.payload = some (d, c)
  | .countAccepted => IsPublish f ∧ seen (Explains f "ok")
  | .countRejected error => IsPublish f ∧ seen (Explains f ("err:" ++ error))
  | .malformed => IsPublish f ∧ seen (Explains f "err:malformed publish")
  | .rollEpoch => Op.ofCode f.op = some .rollEpoch
  | .setAuthority _ => Op.ofCode f.op = some .setAuthority
  | .snapshot => Op.ofCode f.op = some .save
  | .saveFile snap => Op.ofCode f.op = some .save ∧ seen fun s s' => s.snapshot = snap ∧ s' = s
  | .find sid | .validityOf sid _ | .size sid _ _ =>
    Op.ofCode f.op = some .query ∧ f.payload.length ≥ 8 ∧ queryId f.payload = sid
  | .stats _ => Op.ofCode f.op = some .stats
  | .respond text => seen (Explains f text)
  | .bye => Op.ofCode f.op = some .shutdown ∧ seen (Explains f "bye")
  | .countMalformed | .stop => True

section Justified

variable {f : Frame} {seen seen' : (ProvenanceStore → ProvenanceStore → Prop) → Prop}

lemma Task.Justified.mono (hseen : ∀ Q, seen Q → seen' Q) {task : Task} (h : task.Justified f seen) :
    task.Justified f seen' := by
  cases task with
  | saveFile snap => exact ⟨h.1, hseen _ h.2⟩
  | countAccepted => exact ⟨h.1, hseen _ h.2⟩
  | countRejected error => exact ⟨h.1, hseen _ h.2⟩
  | malformed => exact ⟨h.1, hseen _ h.2⟩
  | respond text => exact hseen _ h
  | bye => exact ⟨h.1, hseen _ h.2⟩
  | _ => exact h

lemma explains_publish {d : RecordData} {c : AuthorityClaim} (hop : IsPublish f)
    (hd : decodePublishPayload f.payload = some (d, c)) {text : String} {s s' : ProvenanceStore}
    (h : PublishExplains d c text s s') : Explains f text s s' := by
  rcases hop with hop | hop
  · simpa only [Explains, hop, hd] using h
  · simpa only [Explains, hop, hd] using h

lemma Task.justified_start {s : ProvenanceStore}
    (hnow : ∀ Q : ProvenanceStore → ProvenanceStore → Prop, Q s s → seen Q) : (Task.start f).Justified f seen := by
  have hstart := Task.starts f
  generalize Task.start f = task at hstart ⊢
  cases hstart with
  | hello wid bid hop => exact hop
  | summary hop => exact hop
  | publish d c hop hd => exact ⟨hop, hd⟩
  | malformed hop hd =>
    have hexplains : Explains f "err:malformed publish" s s := by
      rcases hop with hop | hop
      · simp [Explains, hop, hd]
      · simp [Explains, hop, hd]
    exact ⟨hop, hnow _ hexplains⟩
  | rollEpoch hop => exact hop
  | setAuthority ops hop => exact hop
  | save hop => exact hop
  | query hop hlen => exact ⟨hop, hlen, rfl⟩
  | badQuery hop hlen => exact hnow _ (by simp [Explains, hop, queryAnswer, hlen])
  | stats hop => exact hop
  | shutdown hop => exact ⟨hop, hnow _ (by simp [Explains, hop])⟩
  | unknown hop =>
    have hexplains : Explains f "err:unknown op" s s := by
      simp only [List.mem_cons, List.not_mem_nil, or_false] at hop
      rcases hop with hop | hop | hop <;> simp [Explains, hop]
    exact hnow _ hexplains

lemma Task.frame_step {task task' : Task} {f' : Frame} {o : CallOutcomes} {arg : StatsArg} {g g' : Globals}
    (hstep : task.step f o arg g = .ok (g', .handling f' task')) : f' = f := by
  cases Task.steps hstep <;> rfl

lemma Task.justified_step {task task' : Task} {o : CallOutcomes} {arg : StatsArg} {g g' : Globals}
    (h : task.Justified f seen) (hready : task.Ready g.store)
    (hweaken : ∀ Q Q' : ProvenanceStore → ProvenanceStore → Prop, (∀ s s', Q s s' → Q' s s') → seen Q → seen Q')
    (hold : ∀ Q, seen Q → seen' Q) (hnow : ∀ Q : ProvenanceStore → ProvenanceStore → Prop,
      Q g.store g'.store → seen' Q)
    (hstep : task.step f o arg g = .ok (g', .handling f task')) : task'.Justified f seen' := by
  cases Task.steps hstep with
  | registered wid bid => exact h
  | summarized =>
    have hop : Op.ofCode f.op = some .hello := h
    exact hnow _ (by simp only [Explains, hop, and_self])
  | refused d c r hr => exact ⟨h.1, hnow _ (explains_publish h.1 h.2 (.inl ⟨r, hr, rfl, rfl⟩))⟩
  | admitted d c hr => exact ⟨h.1, c, h.2⟩
  | inserted d r s hp hok =>
    obtain ⟨hpublish, c, hd⟩ := h
    exact ⟨hpublish, hnow _ (explains_publish hpublish hd (.inr ⟨r, hp, by rw [hok, if_pos rfl]⟩))⟩
  | notInserted d r s hp hok =>
    obtain ⟨hpublish, c, hd⟩ := h
    exact ⟨hpublish, hnow _ (explains_publish hpublish hd (.inr ⟨r, hp, by rw [hok]; rfl⟩))⟩
  | countedAccepted => exact hold _ h.2
  | countedRejected error => exact hold _ h.2
  | malformed => trivial
  | rolled =>
    have hop : Op.ofCode f.op = some .rollEpoch := h
    exact hnow _ (by simp only [Explains, hop, and_self])
  | authoritySet =>
    have hop : Op.ofCode f.op = some .setAuthority := h
    exact hnow _ (by simp only [Explains, hop])
  | settingAuthority op ops => exact h
  | snapshotted => exact ⟨h, hnow _ ⟨rfl, rfl⟩⟩
  | saved snap =>
    obtain ⟨hop, hseen⟩ := h
    refine hold _ (hweaken _ _ (fun s s' hs => ?_) hseen)
    simp only [Explains, hop]
    exact ⟨.inl (by rw [hs.1]), hs.2⟩
  | notSaved snap o e he =>
    obtain ⟨hop, hseen⟩ := h
    refine hold _ (hweaken _ _ (fun s s' hs => ?_) hseen)
    simp only [Explains, hop]
    exact ⟨.inr ⟨e, rfl⟩, hs.2⟩
  | absent sid hfind =>
    obtain ⟨hquery, hlen, hid⟩ := h
    exact hnow _ (by simp only [Explains, hquery, queryAnswer, hlen, if_true, hid, hfind, and_self])
  | found sid rec hfind => exact h
  | validated sid rec => exact h
  | presented sid rec v =>
    obtain ⟨hquery, hlen, hid⟩ := h
    obtain ⟨hfind, hv⟩ := hready
    exact hnow _ (by simp only [Explains, hquery, queryAnswer, hlen, if_true, hid, hfind, hv, and_self])
  | statsRead args args' => exact h
  | statsPrinted args args' text ht =>
    have hop : Op.ofCode f.op = some .stats := h
    exact hnow _ (by simp only [Explains, hop])
  | bye => trivial

end Justified

namespace Service

variable {t : Service} {i : ℕ} {f : Frame}

lemma witnessed_concat (es : List ServiceEvent) (e : ServiceEvent) (Q : ProvenanceStore → ProvenanceStore → Prop) :
    t.Witnessed i f (es ++ [e]) Q ↔
      (Q (run step t es).globals.store ((run step t es).step e).globals.store ∨ t.Witnessed i f es Q) ∧
        ((run step t es).step e).Handles i f := by
  rw [Witnessed, since_concat, run_append]
  rfl

def Justified (t : Service) (es : List ServiceEvent) : Prop :=
  ∀ i f task, ((run step t es).conns i).thread = .handling f task → task.Justified f (t.Witnessed i f es)

lemma justified_concat (ht : t.Sound) {es : List ServiceEvent} (h : t.Justified es) (e : ServiceEvent) :
    t.Justified (es ++ [e]) := by
  intro i f task hthread
  rw [run_append] at hthread
  have hsound := ht.run es
  have hhandles : ((run step t es).step e).Handles i f := ⟨task, hthread⟩
  have hold : ∀ Q, t.Witnessed i f es Q → t.Witnessed i f (es ++ [e]) Q := fun Q hQ =>
    (witnessed_concat es e Q).mpr ⟨.inr hQ, hhandles⟩
  have hnow : ∀ Q : ProvenanceStore → ProvenanceStore → Prop,
      Q (run step t es).globals.store ((run step t es).step e).globals.store → t.Witnessed i f (es ++ [e]) Q :=
    fun Q hQ => (witnessed_concat es e Q).mpr ⟨.inl hQ, hhandles⟩
  have hkept : ((run step t es).conns i).thread = .handling f task → task.Justified f (t.Witnessed i f (es ++ [e])) :=
    fun hsame => (h i f task hsame).mono hold
  change (((run step t es).step e).conns i).thread = _ at hthread
  cases e with
  | arrive j bytes =>
    rw [thread_arrive] at hthread
    exact hkept hthread
  | act j o arg =>
    by_cases hj : i = j
    · subst hj
      have hacts := hsound.act i o arg
      generalize (run step t es).step (.act i o arg) = t', (run step t es).traffic (.act i o arg) = seen at *
      cases hacts with
      | idle => exact hkept hthread
      | checked thread hopen hwas =>
        rcases hopen with rfl | ⟨rfl, -⟩
        · simp [setConn] at hthread
        · simp [setConn] at hthread
      | received f' rest hf hwas =>
        obtain ⟨rfl, rfl⟩ : f' = f ∧ Task.start f' = task := by simpa [setConn] using hthread
        exact Task.justified_start hnow
      | handled f' task' globals thread hwas hstep =>
        obtain rfl : thread = .handling f task := by simpa [setConn] using hthread
        have hready := hsound.threads i
        rw [hwas] at hready
        obtain rfl := Task.frame_step hstep
        exact Task.justified_step (h i _ task' hwas) hready (fun Q Q' hQ hseen => hseen.mono fun t e => hQ _ _)
          hold hnow hstep
    · rw [conns_step_of_ne _ hj] at hthread
      exact hkept hthread

lemma justified_run (s : ProvenanceStore) (hs : s.Savable) (es : List ServiceEvent) : (start s).Justified es := by
  induction es using List.reverseRecOn with
  | nil =>
    intro i f task hthread
    change Thread.checking = _ at hthread
    contradiction
  | append_singleton es e ih => exact justified_concat (sound_start hs) ih e

lemma answered_witnessed {s : ProvenanceStore} (hs : s.Savable) {es : List ServiceEvent} {e : ServiceEvent}
    {text : String} (ha : (run step (start s) es).traffic e = some (.answered i f text)) :
    (start s).Witnessed i f es (Explains f text) := by
  obtain ⟨o, arg, task, rfl, hthread, hsent⟩ := answered_eq ha
  have hjustified := justified_run s hs es i f task hthread
  cases task with
  | malformed =>
    obtain rfl := Option.some.inj hsent
    exact hjustified.2
  | respond text =>
    obtain rfl := Option.some.inj hsent
    exact hjustified
  | bye =>
    obtain rfl := Option.some.inj hsent
    exact hjustified.2
  | _ => contradiction

theorem answers_explained {load : Option ByteString} {s : ProvenanceStore} (h : startStore load = some s)
    (es : List ServiceEvent) {e : ServiceEvent} {i : ℕ} {f : Frame} {text : String}
    (ha : (run step (start s) es).traffic e = some (.answered i f text)) :
    (start s).Witnessed i f es (Explains f text) :=
  answered_witnessed (savable_startStore h) ha

def publishFrame : Frame :=
  ⟨Op.publish.code, (encodePublishPayload (.produced 1) { coordinatorEpoch := 1 }).toOption.getD []⟩

theorem accepted_publish_explained :
    (start {}).Witnessed 0 publishFrame (exchange 0 publishFrame 5) (Explains publishFrame "ok") :=
  @answers_explained none {} rfl (exchange 0 publishFrame 5) (.act 0 callsDone .size) 0 publishFrame "ok"
    (by decide +kernel)

lemma Sound.grows {t : Service} (h : t.Sound) (e : ServiceEvent) :
    t.globals.store.Grows (t.step e).globals.store := by
  cases e with
  | arrive j bytes => exact .same
  | act j o arg =>
    have hacts := h.act j o arg
    generalize t.step (.act j o arg) = t', t.traffic (.act j o arg) = new at hacts
    cases hacts with
    | handled f task globals thread hold hstep hgrows => exact hgrows
    | _ => exact .same

def Holds (d : RecordData) (t : Service) : Prop := t.globals.store.Has d

lemma Holds.step {d : RecordData} {t : Service} (h : Holds d t) (ht : t.Sound) (e : ServiceEvent) :
    Holds d (t.step e) :=
  (ht.grows e).has h

def Publishes (f : Frame) (d : RecordData) : Prop :=
  IsPublish f ∧ ∃ c, decodePublishPayload f.payload = some (d, c)

def Asks (f : Frame) (x : StateId) : Prop :=
  Op.ofCode f.op = some .query ∧ f.payload.length ≥ 8 ∧ queryId f.payload = x

lemma holds_of_ok {d : RecordData} (hf : Publishes f d) (ht : t.Sound) {e : ServiceEvent}
    (h : Explains f "ok" t.globals.store (t.step e).globals.store) : Holds d (t.step e) := by
  obtain ⟨hop, c, hd⟩ := hf
  have hexplains : PublishExplains d c "ok" t.globals.store (t.step e).globals.store := by
    rcases hop with hop | hop
    · simpa only [Explains, hop, hd] using h
    · simpa only [Explains, hop, hd] using h
  rcases hexplains with ⟨r, -, htext, -⟩ | ⟨r, hp, htext⟩
  · exact absurd htext.symm (err_ne_ok _)
  · have hok : r.ok = true := by
      by_contra hno
      rw [if_neg hno] at htext
      exact err_ne_ok _ htext.symm
    have hstep := publishValidated_step ht.store.toCore d
    generalize t.globals.store.publishValidated d = result at hstep hp
    cases hstep with
    | rejected error =>
      obtain ⟨hr, -⟩ := Prod.mk.inj hp
      obtain rfl := Except.ok.inj hr
      contradiction
    | accepted g hv hi hg =>
      obtain ⟨-, hstore⟩ := Prod.mk.inj hp
      constructor
      · rw [← hstore, find, getElem?_commit_records, if_pos rfl]
      · rw [← hstore, validityOf, getElem?_commit_status, if_pos rfl]

lemma holds_of_answered {s : ProvenanceStore} (hs : s.Savable) {es : List ServiceEvent} {e : ServiceEvent}
    {d : RecordData} (hf : Publishes f d) (hok : (run step (start s) es).traffic e = some (.answered i f "ok")) :
    Holds d (run step (start s) (es ++ [e])) := by
  have hsound := sound_start hs
  have hkeeps : ∀ t e, Sound t → Sound (Service.step t e) := fun t e ht => ht.step e
  have hpublished := (answered_witnessed hs hok).brings (K := Holds d) hkeeps hsound
    (fun t e ht he => holds_of_ok hf ht he) fun t e ht hd => hd.step ht e
  rw [run_append]
  exact hpublished.step (hsound.run es) e

theorem published_found {load : Option ByteString} {s : ProvenanceStore} (h : startStore load = some s)
    {es es' : List ServiceEvent} {e e' : ServiceEvent} {i j : ℕ} {f q : Frame} {d : RecordData} {text : String}
    (hf : Publishes f d) (hok : (run step (start s) es).traffic e = some (.answered i f "ok"))
    (hq : Asks q d.subjectId) (hnew : ¬ (run step (start s) (es ++ [e])).Handles j q)
    (ha : (run step (start s) (es ++ [e] ++ es')).traffic e' = some (.answered j q text)) :
    ∃ size, text = presentText ⟨d⟩ d.validity size := by
  have hs := savable_startStore h
  have hlater := (answered_witnessed hs ha).after hnew
  have hstart : Sound (run step (start s) (es ++ [e])) ∧ Holds d (run step (start s) (es ++ [e])) :=
    ⟨(sound_start hs).run _, holds_of_answered hs hf hok⟩
  have hheld : ∀ t e, Sound t ∧ Holds d t → Sound (Service.step t e) ∧ Holds d (Service.step t e) := fun t e ht =>
    ⟨ht.1.step e, ht.2.step ht.1 e⟩
  obtain ⟨t, e, ⟨ht, hfind, hvalidity⟩, hexplains⟩ := hlater.exists hheld hstart
  obtain ⟨hop, hlen, hid⟩ := hq
  simp only [Explains, hop, queryAnswer, if_pos hlen, hid, hfind, hvalidity] at hexplains
  exact ⟨_, hexplains.1⟩

lemma publishFrame_publishes : Publishes publishFrame (.produced 1) := by
  obtain ⟨payload, he, hdecode⟩ :=
    @decodePublishPayload_encode (.produced 1) rfl (by decide) (by decide) { coordinatorEpoch := 1 }
  have hpayload : publishFrame.payload = payload := by rw [publishFrame, he]; rfl
  exact ⟨.inl (by decide), _, hpayload ▸ hdecode⟩

def queryFrame : Frame := ⟨Op.query.code, [1, 0, 0, 0, 0, 0, 0, 0]⟩

theorem accepted_publish_found : ∃ size, "present;kind=Generic;validity=VALID;derivation_digest=8a2028051dddb5d1;"
    ++ "prov_gen=0x0000000000000001;state_gen=0x0000000000000001;model_gen=0x0000000000000000;"
    ++ "evidence=UNKNOWN;size=1" = presentText ⟨.produced 1⟩ (RecordData.produced 1).validity size := by
  have hasks : Asks queryFrame (RecordData.produced 1).subjectId := ⟨by decide, by decide, by decide⟩
  have hframe : ((run step (start {}) (exchange 0 publishFrame 6)).conns 1).thread.frame = none := by decide +kernel
  have hnew : ¬ (run step (start {}) (exchange 0 publishFrame 5 ++ [.act 0 callsDone .size])).Handles 1 queryFrame := by
    intro hhandles
    rw [show exchange 0 publishFrame 5 ++ [.act 0 callsDone .size] = exchange 0 publishFrame 6 from rfl] at hhandles
    exact absurd (hframe.symm.trans hhandles.frame) (by simp)
  exact @published_found none {} rfl (exchange 0 publishFrame 5) (exchange 1 queryFrame 5) (.act 0 callsDone .size)
    (.act 1 callsDone .size) 0 1 publishFrame queryFrame (.produced 1) _ publishFrame_publishes (by decide +kernel)
    hasks hnew (by decide +kernel)

end Service

end StateProvenance
