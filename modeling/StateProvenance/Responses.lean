import StateProvenance.Service
import StateProvenance.Handshake

/-! Requests and responses of a connection, whatever the other threads do in between: each frame taken gets one
response, in order, and the stream of responses reads back as them. -/

namespace StateProvenance

open Std Library.OrderedMap Library.ByteCodec Library.Runs ProvenanceStore

section Lengths

def Within (n : ℕ) (error : Option String) : Prop := ∀ e, error = some e → e.length ≤ n

variable {n : ℕ}

lemma within_none : Within n none := nofun

lemma length_le_of_size {s : String} (h : s.utf8ByteSize ≤ n) : s.length ≤ n := by
  have hsize : s.utf8ByteSize = (s.toList.flatMap String.utf8EncodeChar).length := by
    rw [← ofText_ofList, String.ofList_toList, length_ofText]
  have hle : ∀ l : List Char, l.length ≤ (l.flatMap String.utf8EncodeChar).length := by
    intro l
    induction l with
    | nil => exact Nat.le_refl 0
    | cons c l ih =>
      have hpos := c.utf8Size_pos
      rw [List.length_cons, List.flatMap_cons, List.length_append, String.length_utf8EncodeChar]
      omega
  rw [hsize] at h
  exact (hle s.toList).trans h

lemma within_some {e : String} (h : e.length ≤ n) : Within n (some e) := by
  rintro _ ⟨⟩
  exact h

lemma within_ite {c : Prop} [Decidable c] {a b : Option String} (ha : Within n a) (hb : Within n b) :
    Within n (if c then a else b) := by
  split
  · exact ha
  · exact hb

lemma within_findSome {α : Type} {f : α → Option String} (h : ∀ x, Within n (f x)) (l : List α) :
    Within n (l.findSome? f) := by
  intro e he
  obtain ⟨x, -, hx⟩ := List.exists_of_findSome?_eq_some he
  exact h x e hx

lemma within_validateRecord (d : RecordData) : Within 60 (validateRecord d) := by
  rw [validateRecord]
  iterate 12 refine within_ite (within_some (length_le_of_size (by decide))) ?_
  refine within_findSome (fun req => ?_) _
  iterate 2 refine within_ite (within_some (length_le_of_size (by decide))) ?_
  exact within_none

def Short (v : FenceVerdict) : Prop := v.dimension.length ≤ 25 ∧ v.detail.length ≤ 100

lemma short_stale {Tag : Type} {dim detail : String} (hdim : dim.length ≤ 25) (hdetail : detail.length ≤ 100)
    (value current : ScalarIdentifier Tag) :
    ∀ v, AuthorityState.staleFence dim detail value current = some v → Short v := by
  intro v hv
  rw [AuthorityState.staleFence] at hv
  split at hv
  · obtain rfl := Option.some.inj hv
    exact ⟨hdim, hdetail⟩
  · contradiction

lemma short_generation {Tag : Type} {dim detail : String} (hdim : dim.length ≤ 25) (hdetail : detail.length ≤ 100)
    (value : Option (ScalarIdentifier Tag)) (current : ScalarIdentifier Tag) :
    ∀ v, AuthorityState.generationFence dim detail value current = some v → Short v := by
  intro v hv
  cases value with
  | none => contradiction
  | some g =>
    simp only [AuthorityState.generationFence] at hv
    split at hv
    · obtain rfl := Option.some.inj hv
      exact ⟨hdim, hdetail⟩
    · contradiction

lemma short_epoch (a : AuthorityState) (c : AuthorityClaim) : ∀ v, a.epochFence c = some v → Short v := by
  intro v hv
  rw [AuthorityState.epochFence] at hv
  split at hv
  · obtain rfl := Option.some.inj hv
    have hclaim := length_toString_le c.coordinatorEpoch.toNat_lt
    have hepoch := length_toString_le a.epoch.toNat_lt
    refine ⟨(length_le_of_size (by decide) : "CoordinatorEpoch".length ≤ 25), ?_⟩
    simp only [AuthorityState.reject, String.length_append]
    change 12 + _ + 18 + _ ≤ 100
    omega
  · contradiction

lemma short_boot (a : AuthorityState) (c : AuthorityClaim) : ∀ v, a.bootFence c = some v → Short v := by
  intro v hv
  rw [AuthorityState.bootFence] at hv
  split at hv
  · split at hv
    · obtain rfl := Option.some.inj hv
      refine ⟨(length_le_of_size (by decide) : "WorkerBootId".length ≤ 25), ?_⟩
      simp only [AuthorityState.reject, String.length_append, length_toText]
      decide
    · split at hv
      · obtain rfl := Option.some.inj hv
        refine ⟨(length_le_of_size (by decide) : "WorkerBootId".length ≤ 25), ?_⟩
        simp only [AuthorityState.reject, String.length_append, length_toText]
        decide
      · contradiction
  · contradiction

lemma short_evaluateClaim (a : AuthorityState) (c : AuthorityClaim) : Short (a.evaluateClaim c) := by
  have hattempt : ("attempt " ++ c.attemptId.toText ++ " stale (current " ++ a.attemptId.toText ++ ")").length ≤
      100 := by
    simp only [String.length_append, length_toText]
    decide
  rw [AuthorityState.evaluateClaim]
  cases hf : (a.fences c).findSome? id with
  | none => exact ⟨length_le_of_size (by decide), length_le_of_size (by decide)⟩
  | some v =>
    obtain ⟨f, hm, rfl⟩ := List.exists_of_findSome?_eq_some hf
    simp only [AuthorityState.fences, List.mem_cons, List.not_mem_nil, or_false] at hm
    rcases hm with h | h | h | h | h | h | h | h | h | h | h | h
    · exact short_epoch a c v h.symm
    · exact short_boot a c v h.symm
    · exact short_stale (length_le_of_size (by decide)) hattempt _ _ v h.symm
    iterate 3 exact short_stale (length_le_of_size (by decide)) (length_le_of_size (by decide)) _ _ v h.symm
    all_goals exact short_generation (length_le_of_size (by decide)) (length_le_of_size (by decide)) _ _ v h.symm

lemma length_rejection {s : ProvenanceStore} {d : RecordData} {c : AuthorityClaim} {o : PublishOutcome}
    (h : s.rejection d c = some o) : o.error.length ≤ 200 := by
  rw [rejection] at h
  split at h
  · next e he =>
    obtain rfl := Option.some.inj h
    exact (within_validateRecord d e he).trans (by decide)
  · obtain ⟨hdim, hdetail⟩ := short_evaluateClaim s.authority c
    simp only at h
    split at h
    · obtain rfl := Option.some.inj h
      simp only [String.length_append]
      change 17 + _ + 3 + _ ≤ 200
      omega
    · contradiction

lemma within_danglingInput (s : ProvenanceStore) (d : RecordData) : Within 200 (s.danglingInput d) := by
  refine within_findSome (fun x => within_ite within_none (within_some ?_)) _
  simp only [String.length_append, length_toText]
  decide

lemma within_danglingParent (s : ProvenanceStore) (d : RecordData) : Within 200 (s.danglingParent d) := by
  refine within_findSome (fun q => within_ite within_none (within_some ?_)) _
  simp only [String.length_append, length_toText]
  decide

lemma length_addParents (child : StateId) {l : List StateId} {g g' : ProvenanceGraph} {e : String}
    (h : addParents child l g = (.error e, g')) : e.length ≤ 200 := by
  induction l generalizing g with
  | nil => cases h
  | cons p l ih =>
    rw [addParents] at h
    split at h
    · next err graph harc =>
      obtain ⟨rfl, -⟩ : "graph rejection: " ++ err.what = e ∧ graph = g' := by simpa using h
      simp only [ProvenanceGraph.addArc] at harc
      repeat' split at harc
      all_goals
        cases harc
        try exact length_le_of_size (by decide)
    · exact ih h

lemma length_publishValidated {s s' : ProvenanceStore} {d : RecordData} {o : PublishOutcome}
    (h : s.publishValidated d = (.ok o, s')) : o.error.length ≤ 200 := by
  have hresult : (s.publishValidated d).1 = .ok o := by rw [h]
  rw [publishValidated] at hresult
  split at hresult
  · next e he =>
    obtain rfl := Except.ok.inj hresult
    exact (within_validateRecord d e he).trans (by decide)
  rw [insertValidated] at hresult
  split at hresult
  · obtain rfl := Except.ok.inj hresult
    simp only [String.length_append, length_toText]
    decide
  split at hresult
  · obtain rfl := Except.ok.inj hresult
    simp only [String.length_append, length_toText]
    decide
  split at hresult
  · next e he =>
    obtain rfl := Except.ok.inj hresult
    exact within_danglingInput s d e he
  split at hresult
  · next e he =>
    obtain rfl := Except.ok.inj hresult
    exact within_danglingParent s d e he
  split at hresult
  · contradiction
  split at hresult
  · next e g he =>
    obtain rfl := Except.ok.inj hresult
    exact length_addParents _ he
  · obtain rfl := Except.ok.inj hresult
    exact Nat.zero_le _

lemma length_saveFile {snap : StoreSnapshot} {path : String} {o : CallOutcomes} {e : String}
    (h : (saveFile snap path o).1 = .ok (some e)) : e.length ≤ path.length + 50 := by
  rw [saveFile] at h
  split at h
  · contradiction
  simp only at h
  split at h
  · obtain rfl := Option.some.inj (Except.ok.inj h)
    simp only [String.length_append]
    change 33 + (_ + 4) ≤ _
    omega
  split at h
  · obtain rfl := Option.some.inj (Except.ok.inj h)
    simp only [String.length_append]
    change 14 + (_ + 4) ≤ _
    omega
  split at h
  · simp at h
  split at h
  · simp at h
  · obtain rfl := Option.some.inj (Except.ok.inj h)
    simp only [String.length_append]
    change 23 + _ ≤ _
    omega

lemma length_snprintf (n : ℕ) (text : String) : (snprintf n text).length ≤ n - 1 := by
  rw [← String.length_toList, snprintf, String.toList_ofList, List.length_take]
  exact Nat.min_le_left _ _

lemma length_textOf (bytes : ByteString) : (textOf bytes).length = bytes.length := by
  rw [← String.length_toList, textOf, String.toList_ofList, List.length_map]

lemma length_storeDigest (snap : StoreSnapshot) : (storeDigest snap).length = 16 := by
  have hhex : ∀ v : UInt64, (ScalarIdentifier.hex16 v).length = 16 := by simp [ScalarIdentifier.hex16]
  exact hhex _

lemma length_bytesOf (text : String) : (bytesOf text).length = text.length := by
  rw [bytesOf, List.length_map, String.length_toList]

end Lengths

lemma recvAll_more {stream data rest : ByteString} {n : ℕ} (h : recvAll stream n = some (data, rest))
    (more : ByteString) : recvAll (stream ++ more) n = some (data, rest ++ more) := by
  rw [recvAll] at h
  split at h
  · next hn =>
    obtain ⟨rfl, rfl⟩ := Prod.mk.inj (Option.some.inj h)
    rw [recvAll, if_pos (hn.trans (by simp)), List.take_append_of_le_length hn, List.drop_append_of_le_length hn]
  · contradiction

lemma recvFrame_eq_some {stream rest : ByteString} {f : Frame} (h : recvFrame stream = some (f, rest)) :
    (∀ more, recvFrame (stream ++ more) = some (f, rest ++ more)) ∧ f.payload.length < 32 * 1024 * 1024 := by
  simp only [recvFrame, Option.bind_eq_bind, Option.bind_eq_some_iff, Prod.exists] at h
  obtain ⟨head, s₁, h₁, h⟩ := h
  split at h
  · contradiction
  next hlen =>
  obtain ⟨op, s₂, h₂, payload, s₃, h₃, h⟩ := by
    simpa only [Option.bind_eq_some_iff, Prod.exists] using h
  obtain ⟨rfl, rfl⟩ : (⟨op.headD 0, payload⟩ : Frame) = f ∧ s₃ = rest := by simpa using h
  constructor
  · intro more
    rw [recvPayload_eq] at h₃
    simp only [recvFrame, Option.bind_eq_bind, recvAll_more h₁ more, Option.bind_some, if_neg hlen,
      recvAll_more h₂ more, recvPayload_eq, recvAll_more h₃ more]
    rfl
  · rw [recvPayload_eq] at h₃
    obtain ⟨hzero, hmax⟩ := not_or.mp hlen
    have hpayload : payload.length = ((ofLE head).toUInt32 - 1).toNat := by
      rw [recvAll] at h₃
      split at h₃
      · next hn =>
        obtain ⟨rfl, -⟩ := Prod.mk.inj (Option.some.inj h₃)
        rw [List.length_take, Nat.min_eq_left hn]
      · contradiction
    have hone : (1 : UInt32) ≤ (ofLE head).toUInt32 := by
      rw [UInt32.le_iff_toNat_le]
      exact Nat.pos_of_ne_zero fun h0 => hzero (UInt32.toNat_inj.mp h0)
    have hpos : 0 < (ofLE head).toUInt32.toNat := by
      rw [UInt32.le_iff_toNat_le] at hone
      exact hone
    have hle : (ofLE head).toUInt32.toNat ≤ 32 * 1024 * 1024 := by
      have hcap := UInt32.not_lt.mp hmax
      rw [UInt32.le_iff_toNat_le] at hcap
      exact hcap
    have hsub : ((ofLE head).toUInt32 - 1).toNat = (ofLE head).toUInt32.toNat - 1 := by
      rw [UInt32.toNat_sub_of_le _ _ hone]
      rfl
    change payload.length < _
    omega

/-- Only the error of a `Save`, which repeats the path, can be long. -/
def BriefAnswer (f : Frame) (text : String) : Prop :=
  text.length ≤ 300 ∨ Op.ofCode f.op = some .save ∧ text.length ≤ f.payload.length + 60

def Task.Brief (f : Frame) : Task → Prop
  | .countRejected error => error.length ≤ 200
  | .snapshot | .saveFile _ => Op.ofCode f.op = some .save
  | .respond text => BriefAnswer f text
  | _ => True

def Thread.Brief : Thread → Prop
  | .handling f task => f.payload.length < 32 * 1024 * 1024 ∧ task.Brief f
  | _ => True

lemma Task.brief_start (f : Frame) : (Task.start f).Brief f := by
  have hstart := Task.starts f
  generalize Task.start f = task at hstart ⊢
  cases hstart with
  | save hop => exact hop
  | badQuery => exact .inl (length_le_of_size (by decide))
  | unknown => exact .inl (length_le_of_size (by decide))
  | _ => trivial

lemma Task.brief_sent {f : Frame} {task : Task} (h : task.Brief f) {text : String} (ht : task.sent = some text) :
    BriefAnswer f text := by
  cases task with
  | malformed =>
    obtain rfl := Option.some.inj ht
    exact .inl (length_le_of_size (by decide))
  | bye =>
    obtain rfl := Option.some.inj ht
    exact .inl (length_le_of_size (by decide))
  | respond t =>
    obtain rfl := Option.some.inj ht
    exact h
  | _ => contradiction

lemma StatsArgs.length_text {args : StatsArgs} {text : String} (h : args.text = some text) :
    text.length ≤ 127 := by
  simp only [StatsArgs.text, Option.bind_eq_bind, Option.bind_eq_some_iff] at h
  obtain ⟨_, -, _, -, _, -, _, -, _, -, h⟩ := h
  obtain rfl := Option.some.inj h
  exact length_snprintf 128 _

lemma Task.brief_step {f : Frame} (hf : f.payload.length < 32 * 1024 * 1024) {task : Task} (h : task.Brief f)
    {o : CallOutcomes} {arg : StatsArg} {g g' : Globals} {th : Thread}
    (hstep : task.step f o arg g = .ok (g', th)) : th.Brief := by
  cases Task.steps hstep with
  | summarized => exact ⟨hf, .inl ((length_snprintf 256 _).trans (by decide))⟩
  | refused d c r hr => exact ⟨hf, length_rejection hr⟩
  | notInserted d r s hp hok => exact ⟨hf, length_publishValidated hp⟩
  | countedAccepted => exact ⟨hf, .inl (length_le_of_size (by decide))⟩
  | countedRejected error =>
    refine ⟨hf, .inl ?_⟩
    rw [String.length_append]
    exact (Nat.add_le_add_left h 4).trans (by decide)
  | rolled =>
    refine ⟨hf, .inl ?_⟩
    rw [String.length_append]
    exact (Nat.add_le_add_left (length_toString_le (UInt64.toNat_lt _)) 6).trans (by decide)
  | authoritySet => exact ⟨hf, .inl (length_le_of_size (by decide))⟩
  | snapshotted => exact ⟨hf, h⟩
  | saved snap =>
    refine ⟨hf, .inl ?_⟩
    rw [String.length_append, length_storeDigest]
    decide
  | notSaved snap o e he =>
    refine ⟨hf, .inr ⟨h, ?_⟩⟩
    have hlen := length_saveFile he
    rw [length_textOf] at hlen
    rw [String.length_append]
    change 4 + _ ≤ _
    omega
  | absent sid hfind => exact ⟨hf, .inl (length_le_of_size (by decide))⟩
  | presented sid rec v => exact ⟨hf, .inl ((length_snprintf 256 _).trans (by decide))⟩
  | statsPrinted args args' text ht => exact ⟨hf, .inl ((StatsArgs.length_text ht).trans (by decide))⟩
  | countedMalformed => trivial
  | responded text => trivial
  | stopped => trivial
  | _ => exact ⟨hf, trivial⟩

def arrivedOn (i : ℕ) (es : List ServiceEvent) : ByteString :=
  es.flatMap fun
    | .arrive j bytes => if j = i then bytes else []
    | _ => []

def requestsOn (i : ℕ) (seen : List Traffic) : List Frame :=
  seen.filterMap fun
    | .received j f => if j = i then some f else none
    | _ => none

def answersOn (i : ℕ) (seen : List Traffic) : List (Frame × String) :=
  seen.filterMap fun
    | .answered j f text => if j = i then some (f, text) else none
    | _ => none

def Task.answered : Task → Bool
  | .countMalformed | .stop => true
  | _ => false

def Thread.unanswered : Thread → List Frame
  | .handling f task => if task.answered then [] else [f]
  | _ => []

lemma Task.answered_start (f : Frame) : (Task.start f).answered = false := by
  have hstart := Task.starts f
  generalize Task.start f = task at hstart ⊢
  cases hstart <;> rfl

lemma Task.unanswered_step {f : Frame} {task : Task} {o : CallOutcomes} {arg : StatsArg} {g g' : Globals}
    {thread : Thread} (hstep : task.step f o arg g = .ok (g', thread)) :
    (Thread.handling f task).unanswered = (task.sent.map fun _ => f).toList ++ thread.unanswered := by
  cases Task.steps hstep <;> rfl

structure InStep (i : ℕ) (arrived : ByteString) (seen : List Traffic) (c : Connection) : Prop where
  inbox : ∀ more, recvFrames (arrived ++ more) = requestsOn i seen ++ recvFrames (c.inbox ++ more)
  requests : requestsOn i seen = (answersOn i seen).map Prod.fst ++ c.thread.unanswered
  outbox : c.outbox = ((answersOn i seen).map fun a => response a.2).flatMap wire
  brief : c.thread.Brief
  answers : ∀ a ∈ answersOn i seen, a.1.payload.length < 32 * 1024 * 1024 ∧ BriefAnswer a.1 a.2

section Steps

variable {i : ℕ} {arrived : ByteString} {seen : List Traffic} {c : Connection} (h : InStep i arrived seen c)

include h

lemma InStep.arrive (bytes : ByteString) : InStep i (arrived ++ bytes) seen { c with inbox := c.inbox ++ bytes } where
  inbox := by
    intro more
    rw [List.append_assoc, List.append_assoc]
    exact h.inbox (bytes ++ more)
  requests := h.requests
  outbox := h.outbox
  brief := h.brief
  answers := h.answers

lemma InStep.check {thread : Thread} (hthread : thread = .closed ∨ thread = .receiving)
    (hold : c.thread = .checking) : InStep i arrived seen { c with thread } where
  inbox := h.inbox
  requests := by
    have hrequests := h.requests
    rw [hold] at hrequests
    rcases hthread with rfl | rfl <;> exact hrequests
  outbox := h.outbox
  brief := by rcases hthread with rfl | rfl <;> trivial
  answers := h.answers

lemma InStep.receive {f : Frame} {rest : ByteString} (hf : recvFrame c.inbox = some (f, rest))
    (hold : c.thread = .receiving) : InStep i arrived (seen ++ [.received i f])
      { c with inbox := rest, thread := .handling f (.start f) } where
  inbox := by
    intro more
    rw [h.inbox more, recvFrames_some ((recvFrame_eq_some hf).1 more)]
    simp [requestsOn]
  requests := by
    have hidle : Thread.receiving.unanswered = [] := rfl
    have hrequests := h.requests
    rw [hold, hidle, List.append_nil] at hrequests
    rw [Thread.unanswered, Task.answered_start]
    simpa [requestsOn, answersOn] using hrequests
  outbox := by
    rw [h.outbox]
    simp [answersOn]
  brief := ⟨(recvFrame_eq_some hf).2, Task.brief_start f⟩
  answers := by
    have hanswers := h.answers
    simpa [answersOn] using hanswers

lemma InStep.handle {f : Frame} {task : Task} (hold : c.thread = .handling f task) {o : CallOutcomes}
    {arg : StatsArg} {g g' : Globals} {thread : Thread} (hstep : task.step f o arg g = .ok (g', thread)) :
    InStep i arrived (seen ++ (task.sent.map (.answered i f)).toList) { c.send task.sent with thread } := by
  have hbrief := h.brief
  have hrequests := h.requests
  rw [hold] at hbrief hrequests
  rw [Task.unanswered_step hstep] at hrequests
  have hthread := Task.brief_step hbrief.1 hbrief.2 hstep
  cases hsent : task.sent with
  | none =>
    rw [hsent] at hrequests
    simp only [Option.map_none, Option.toList_none, List.append_nil, Connection.send, Option.elim_none]
    exact ⟨h.inbox, hrequests, h.outbox, hthread, h.answers⟩
  | some text =>
    rw [hsent] at hrequests
    have hanswer := Task.brief_sent hbrief.2 hsent
    have hsame : requestsOn i (seen ++ [.answered i f text]) = requestsOn i seen := by simp [requestsOn]
    have hlast : answersOn i (seen ++ [.answered i f text]) = answersOn i seen ++ [(f, text)] := by
      simp [answersOn]
    simp only [Option.map_some, Option.toList_some, Connection.send, Option.elim_some]
    refine ⟨?_, ?_, ?_, hthread, ?_⟩
    · rw [hsame]
      exact h.inbox
    · rw [hsame, hlast, hrequests]
      simp
    · rw [hlast, List.map_append, List.flatMap_append, ← h.outbox, sendCall, sendFrame_eq]
      simp
    · rw [hlast]
      intro a ha
      rcases List.mem_append.mp ha with ha | ha
      · exact h.answers a ha
      · obtain rfl := List.mem_singleton.mp ha
        exact ⟨hbrief.1, hanswer⟩

end Steps

lemma InStep.other {i : ℕ} {arrived : ByteString} {seen new : List Traffic} {c : Connection}
    (h : InStep i arrived seen c) (hnew : requestsOn i new = [] ∧ answersOn i new = []) :
    InStep i arrived (seen ++ new) c := by
  have hrequests : requestsOn i (seen ++ new) = requestsOn i seen := by
    rw [requestsOn, List.filterMap_append]
    exact (congrArg _ hnew.1).trans (List.append_nil _)
  have hanswers : answersOn i (seen ++ new) = answersOn i seen := by
    rw [answersOn, List.filterMap_append]
    exact (congrArg _ hnew.2).trans (List.append_nil _)
  exact ⟨by rw [hrequests]; exact h.inbox, by rw [hrequests, hanswers]; exact h.requests,
    by rw [hanswers]; exact h.outbox, h.brief, by rw [hanswers]; exact h.answers⟩

lemma Task.stopping_step {f : Frame} {task : Task} {o : CallOutcomes} {arg : StatsArg} {g g' : Globals}
    {thread : Thread} (h : g.stopping = true) (hstep : task.step f o arg g = .ok (g', thread)) :
    g'.stopping = true := by
  cases Task.steps hstep with
  | stopped => rfl
  | _ => exact h

def Task.Parting (f : Frame) (said : Prop) : Task → Prop
  | .bye => Op.ofCode f.op = some .shutdown
  | .stop => said
  | _ => True

def Thread.Parting (said : Prop) : Thread → Prop
  | .handling f task => task.Parting f said
  | _ => True

lemma Thread.Parting.mono {said said' : Prop} (hsaid : said → said') {th : Thread} (h : th.Parting said) :
    th.Parting said' := by
  cases th with
  | handling f task =>
    cases task with
    | bye => exact h
    | stop => exact hsaid h
    | _ => trivial
  | _ => trivial

lemma Task.parting_start (f : Frame) (said : Prop) : (Task.start f).Parting f said := by
  have hstart := Task.starts f
  generalize Task.start f = task at hstart ⊢
  cases hstart with
  | shutdown hop => exact hop
  | _ => trivial

lemma Task.parting_step {f : Frame} {task : Task} {o : CallOutcomes} {arg : StatsArg} {g g' : Globals}
    {thread : Thread} {said said' : Prop} (hold : said → said') (hsent : Op.ofCode f.op = some .shutdown →
      task.sent = some "bye" → said') (hg : g.stopping = true → said) (h : task.Parting f said)
    (hstep : task.step f o arg g = .ok (g', thread)) :
    (g'.stopping = true → said') ∧ thread.Parting said' := by
  cases Task.steps hstep with
  | bye => exact ⟨fun hs => hold (hg hs), hsent h rfl⟩
  | stopped => exact ⟨fun _ => hold h, trivial⟩
  | inserted d r s hp hok => exact ⟨fun hs => hold (hg hs), trivial⟩
  | _ => exact ⟨fun hs => hold (hg hs), trivial⟩

namespace Service

lemma Acts.elsewhere {t t' : Service} {i j : ℕ} (hij : i ≠ j) {o : CallOutcomes} {arg : StatsArg}
    {new : Option Traffic} (h : t.Acts j o arg t' new) :
    t'.conns i = t.conns i ∧ requestsOn i new.toList = [] ∧ answersOn i new.toList = [] := by
  have hji : j ≠ i := fun he => hij he.symm
  cases h with
  | idle => exact ⟨rfl, rfl, rfl⟩
  | checked => exact ⟨by simp [Service.setConn, Function.update_of_ne hij], rfl, rfl⟩
  | received f rest hf hold =>
    refine ⟨by simp [Service.setConn, Function.update_of_ne hij], ?_, ?_⟩
    · simp [requestsOn, hji]
    · simp [answersOn]
  | handled f task globals thread hold hstep =>
    refine ⟨by simp [Service.setConn, Function.update_of_ne hij], ?_, ?_⟩
    · cases task.sent <;> simp [requestsOn]
    · cases task.sent <;> simp [answersOn, hji]

lemma inStep_step {t : Service} (hs : t.Sound) {i : ℕ} {arrived : ByteString} {seen : List Traffic}
    (h : InStep i arrived seen (t.conns i)) (e : ServiceEvent) :
    InStep i (arrived ++ arrivedOn i [e]) (seen ++ (t.traffic e).toList) ((t.step e).conns i) := by
  cases e with
  | arrive j bytes =>
    by_cases hj : j = i
    · subst hj
      simpa [arrivedOn, Service.step, Service.setConn, traffic] using h.arrive bytes
    · have hne : i ≠ j := fun he => hj he.symm
      simpa [arrivedOn, hj, Service.step, Service.setConn, traffic, Function.update_of_ne hne] using h
  | act j o arg =>
    have hacts := hs.act j o arg
    have harrived : arrivedOn i [.act j o arg] = [] := rfl
    rw [harrived, List.append_nil]
    generalize t.step (.act j o arg) = t', t.traffic (.act j o arg) = new at hacts ⊢
    by_cases hj : j = i
    · subst hj
      cases hacts with
      | idle => simpa using h
      | checked thread hthread hold => simpa [Service.setConn] using h.check (hthread.imp_right And.left) hold
      | received f rest hf hold => simpa [Service.setConn] using h.receive hf hold
      | handled f task globals thread hold hstep => simpa [Service.setConn] using h.handle hold hstep
    · obtain ⟨hconn, hnew⟩ := hacts.elsewhere fun he => hj he.symm
      rw [hconn]
      exact h.other hnew

lemma inStep_run {t : Service} (hs : t.Sound) {i : ℕ} {arrived : ByteString} {seen : List Traffic}
    (h : InStep i arrived seen (t.conns i)) (es : List ServiceEvent) :
    InStep i (arrived ++ arrivedOn i es) (seen ++ t.history es) ((run step t es).conns i) := by
  induction es generalizing t arrived seen with
  | nil => simpa [arrivedOn, history, observe] using h
  | cons e es ih =>
    have hrest := ih (hs.step e) (inStep_step hs h e)
    have harrived : arrivedOn i (e :: es) = arrivedOn i [e] ++ arrivedOn i es := by simp [arrivedOn]
    rw [harrived, history, observe, ← List.append_assoc, ← List.append_assoc]
    exact hrest

lemma inStep_start (s : ProvenanceStore) (i : ℕ) : InStep i [] [] ((start s).conns i) :=
  ⟨fun _ => rfl, rfl, rfl, trivial, nofun⟩

/-- Whatever the threads do in between: the frames that arrived on a connection are taken in order, each is answered once
before the next is taken, and the client reads the answers back in that order. Only the error of a `Save` of a very
long path can be too long for a frame, and is dropped. -/
theorem responses_in_step {load : Option ByteString} {s : ProvenanceStore} (h : startStore load = some s)
    (es : List ServiceEvent) (i : ℕ) :
    let t := run step (start s) es
    let seen := (start s).history es
    recvFrames (arrivedOn i es) = requestsOn i seen ++ recvFrames (t.conns i).inbox ∧
      requestsOn i seen = (answersOn i seen).map Prod.fst ++ (t.conns i).thread.unanswered ∧
      recvFrames (t.conns i).outbox = ((answersOn i seen).map fun a => response a.2).filter (fun f => Fits f) ∧
      ∀ a ∈ answersOn i seen, Fits (response a.2) ∨
        Op.ofCode a.1.op = some .save ∧ 32 * 1024 * 1024 ≤ a.1.payload.length + 60 := by
  intro t seen
  have hsound := sound_start (savable_startStore h)
  have hstep : InStep i (arrivedOn i es) seen (t.conns i) := inStep_run hsound (inStep_start s i) es
  refine ⟨?_, hstep.requests, ?_, fun a ha => ?_⟩
  · simpa using hstep.inbox []
  · rw [hstep.outbox, recvFrames_wire_iff]
    intro f hf hwraps
    obtain ⟨a, ha, rfl⟩ := List.mem_map.mp hf
    obtain ⟨hpayload, hbrief⟩ := hstep.answers a ha
    have hlen : (response a.2).payload.length = a.2.length := length_bytesOf a.2
    have hlong := hwraps.1
    rcases hbrief with hb | ⟨-, hb⟩
    · omega
    · omega
  · obtain ⟨hpayload, hbrief⟩ := hstep.answers a ha
    have hlen : (response a.2).payload.length = a.2.length := length_bytesOf a.2
    by_cases hlong : a.2.length + 1 ≤ 32 * 1024 * 1024
    · left
      rw [Fits, hlen, Nat.mod_eq_of_lt (by omega)]
      exact hlong
    · right
      rcases hbrief with hb | ⟨hsave, hb⟩
      · omega
      · exact ⟨hsave, by omega⟩

def rollFrame : Frame := ⟨Op.rollEpoch.code, []⟩

def statsFrame : Frame := ⟨Op.stats.code, []⟩

def threeFrames : List ServiceEvent :=
  exchange 0 rollFrame 5 ++ exchange 1 rollFrame 4 ++ exchange 0 ⟨99, [1]⟩ 5 ++ exchange 0 statsFrame 2

theorem threeFrames_answered :
    recvFrames ((run step (start {}) threeFrames).conns 0).outbox = [response "epoch=2", response "err:unknown op"] ∧
      requestsOn 0 ((start {}).history threeFrames) = [rollFrame, ⟨99, [1]⟩, statsFrame] := by
  obtain ⟨-, hrequests, houtbox, -⟩ := @responses_in_step none {} rfl threeFrames 0
  exact ⟨houtbox.trans (by decide), hrequests.trans (by decide)⟩

lemma stopping_step {t : Service} (ht : t.Sound) (h : t.globals.stopping = true) (e : ServiceEvent) :
    (t.step e).globals.stopping = true := by
  cases e with
  | arrive i bytes => exact h
  | act i o arg =>
    have hacts := ht.act i o arg
    generalize t.step (.act i o arg) = t', t.traffic (.act i o arg) = new at hacts ⊢
    cases hacts with
    | handled f task globals thread hold hstep =>
      change globals.stopping = true
      exact Task.stopping_step h hstep
    | _ => exact h

lemma requests_stopping {t : Service} (ht : t.Sound) (h : t.globals.stopping = true) (i : ℕ)
    (es : List ServiceEvent) :
    (requestsOn i (t.history es)).length ≤ 1 ∧
      ((t.conns i).thread ≠ .receiving → requestsOn i (t.history es) = []) := by
  induction es generalizing t with
  | nil => exact ⟨Nat.zero_le 1, fun _ => rfl⟩
  | cons e es ih =>
    have hrest := ih (ht.step e) (stopping_step ht h e)
    have hhistory : requestsOn i (t.history (e :: es)) =
        requestsOn i (t.traffic e).toList ++ requestsOn i ((t.step e).history es) := by
      rw [history, observe, requestsOn, List.filterMap_append]
      rfl
    rw [hhistory]
    cases e with
    | arrive j bytes =>
      rw [thread_arrive] at hrest
      exact hrest
    | act j o arg =>
      have hacts := ht.act j o arg
      generalize t.step (.act j o arg) = t', t.traffic (.act j o arg) = new at hacts hrest ⊢
      by_cases hj : i = j
      · subst hj
        cases hacts with
        | idle => exact hrest
        | checked thread hopen hold =>
          obtain rfl : thread = .closed := by
            rcases hopen with rfl | ⟨-, hrun⟩
            · rfl
            · exact absurd h (by rw [hrun]; exact Bool.false_ne_true)
          have hnone := hrest.2 (by simp [setConn])
          rw [hnone]
          exact ⟨Nat.zero_le 1, fun _ => rfl⟩
        | received f rest hf hold =>
          have hnone := hrest.2 (by simp [setConn])
          rw [hnone, hold]
          exact ⟨by simp [requestsOn], fun hne => absurd rfl hne⟩
        | handled f task globals thread hold hstep =>
          have hsent : requestsOn i (task.sent.map (.answered i f)).toList = [] := by
            cases task.sent with
            | none => rfl
            | some text => simp [requestsOn]
          have hnone := hrest.2 (by
            simp only [setConn, Function.update_self]
            cases Task.steps hstep <;> simp)
          rw [hsent, hnone]
          exact ⟨Nat.zero_le 1, fun _ => rfl⟩
      · obtain ⟨hconn, hnone, -⟩ := hacts.elsewhere hj
        rw [hconn] at hrest
        rw [hnone]
        exact hrest

def ByeSaid (seen : List Traffic) : Prop :=
  ∃ i f, .answered i f "bye" ∈ seen ∧ Op.ofCode f.op = some .shutdown

structure Parting (seen : List Traffic) (t : Service) : Prop where
  globals : t.globals.stopping = true → ByeSaid seen
  threads : ∀ i, (t.conns i).thread.Parting (ByeSaid seen)

lemma ByeSaid.append {seen : List Traffic} (h : ByeSaid seen) (new : List Traffic) : ByeSaid (seen ++ new) := by
  obtain ⟨i, f, hmem, hop⟩ := h
  exact ⟨i, f, List.mem_append_left new hmem, hop⟩

lemma Parting.append {seen : List Traffic} {t : Service} (h : Parting seen t) (new : List Traffic) :
    Parting (seen ++ new) t :=
  ⟨fun hs => (h.globals hs).append new, fun i => (h.threads i).mono fun hsaid => hsaid.append new⟩

lemma Parting.setConn {seen : List Traffic} {t : Service} (h : Parting seen t) (i : ℕ) {c : Connection}
    (hc : c.thread.Parting (ByeSaid seen)) : Parting seen (t.setConn i c) :=
  ⟨h.globals, forall_setConn (P := fun c => c.thread.Parting (ByeSaid seen)) h.threads i hc⟩

lemma parting_step {t : Service} (ht : t.Sound) {seen : List Traffic} (h : Parting seen t) (e : ServiceEvent) :
    Parting (seen ++ (t.traffic e).toList) (t.step e) := by
  cases e with
  | arrive i bytes => exact (h.append _).setConn i ((h.append _).threads i)
  | act i o arg =>
    have hacts := ht.act i o arg
    generalize t.step (.act i o arg) = t', t.traffic (.act i o arg) = new at hacts ⊢
    have hkept := h.append new.toList
    cases hacts with
    | idle => exact hkept
    | checked thread hopen hold =>
      refine hkept.setConn i ?_
      rcases hopen with rfl | ⟨rfl, -⟩ <;> trivial
    | received f rest hf hold => exact hkept.setConn i (Task.parting_start f _)
    | handled f task globals thread hold hstep =>
      have htask := h.threads i
      rw [hold] at htask
      have hsaid : Op.ofCode f.op = some .shutdown → task.sent = some "bye" →
          ByeSaid (seen ++ (task.sent.map (.answered i f)).toList) := by
        intro hop hsent
        rw [hsent]
        exact ⟨i, f, List.mem_append_right seen (List.mem_singleton.mpr rfl), hop⟩
      obtain ⟨hglobals, hthread⟩ := Task.parting_step (fun hs => hs.append _) hsaid h.globals htask hstep
      have hstopped : Parting (seen ++ (task.sent.map (.answered i f)).toList) { t with globals } :=
        ⟨hglobals, hkept.threads⟩
      exact hstopped.setConn i hthread

lemma parting_run {t : Service} (ht : t.Sound) {seen : List Traffic} (h : Parting seen t) (es : List ServiceEvent) :
    Parting (seen ++ t.history es) (run step t es) := by
  induction es generalizing t seen with
  | nil => simpa [history, observe] using h
  | cons e es ih =>
    have hrest := ih (ht.step e) (parting_step ht h e)
    rw [history, observe, ← List.append_assoc]
    exact hrest

lemma parting_start (s : ProvenanceStore) : Parting [] (start s) :=
  ⟨fun hs => absurd hs Bool.false_ne_true, fun _ => trivial⟩

theorem shutdown_drains {load : Option ByteString} {s : ProvenanceStore} (h : startStore load = some s)
    {es : List ServiceEvent} (hstop : (run step (start s) es).globals.stopping = true) :
    (∃ i f, .answered i f "bye" ∈ (start s).history es ∧ Op.ofCode f.op = some .shutdown) ∧
      ∀ fs i, (requestsOn i ((run step (start s) es).history fs)).length ≤ 1 := by
  have hsound := sound_start (savable_startStore h)
  have hparting := parting_run hsound (parting_start s) es
  exact ⟨hparting.globals hstop, fun fs i => (requests_stopping (hsound.run es) hstop i fs).1⟩

theorem shutdown_answered : ∃ i f, .answered i f "bye" ∈ (start {}).history (exchange 0 ⟨Op.shutdown.code, []⟩ 4) ∧
    Op.ofCode f.op = some .shutdown :=
  (@shutdown_drains none {} rfl _ (by decide)).1

end Service

end StateProvenance
