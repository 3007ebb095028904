import StateProvenance.Coordinator
import StateProvenance.PublishWire

/-! The coordinator's connections. Each one handles a message at a time, as a list of calls on the store; a
call is one step, and any connection may make the next one. A publish reads the authority without a lock and inserts
under a later one; the reading is taken as atomic here, and with the insertion as one step. -/

namespace StateProvenance

open Std Library.OrderedMap Library.Runs ProvenanceStore

inductive StoreCall
  | authority (op : AuthorityOp)
  | publish (d : RecordData) (c : AuthorityClaim)

def StoreCall.apply (s : ProvenanceStore) : StoreCall → ProvenanceStore
  | .authority op => s.applyAuthority op
  | .publish d c => (s.publishFenced d c).2

def helloCalls (payload : ByteString) : List StoreCall :=
  if payload.length ≥ 16 then
    let (wid, r) := BinaryReader.u64 ⟨payload, true⟩
    let (bid, _) := r.u64
    [.authority (.registerBoot ⟨wid.getD 0⟩ ⟨bid.getD 0⟩)]
  else []

def publishCalls (payload : ByteString) : List StoreCall :=
  match decodePublishPayload payload with
  | none => []
  | some (d, c) => [.publish d c]

def storeCalls : Message → List StoreCall
  | .hello payload => helloCalls payload
  | .publish payload => publishCalls payload
  | .rollEpoch => [.authority .rollEpoch]
  | .setAuthority payload => (setAuthorityOps payload).map .authority
  | .save => []

lemma handleHello_eq (s : ProvenanceStore) (payload : ByteString) :
    handleHello s payload = (helloCalls payload).foldl StoreCall.apply s := by
  rw [handleHello, helloCalls]
  split
  · rfl
  · rfl

lemma handlePublish_store (s : ProvenanceStore) (payload : ByteString) :
    (handlePublish s payload).2 = (publishCalls payload).foldl StoreCall.apply s := by
  rw [handlePublish, publishCalls]
  cases decodePublishPayload payload with
  | none => rfl
  | some x =>
    rcases x with ⟨d, c⟩
    simp only [List.foldl_cons, List.foldl_nil, StoreCall.apply]
    split
    · next h => rw [h]
    · next h => rw [h]

lemma handleMessage_store (s : ProvenanceStore) (m : Message) :
    (handleMessage s m).2 = (storeCalls m).foldl StoreCall.apply s := by
  cases m with
  | hello payload => exact handleHello_eq s payload
  | publish payload => exact handlePublish_store s payload
  | rollEpoch => rfl
  | setAuthority payload =>
    rw [storeCalls, List.foldl_map]
    rfl
  | save => rfl

structure Handling where
  message : Message
  made : ℕ
  more : made < (storeCalls message).length

namespace Handling

def call (h : Handling) : StoreCall := (storeCalls h.message).get ⟨h.made, h.more⟩

def after (m : Message) (n : ℕ) : Option Handling :=
  if h : n < (storeCalls m).length then some ⟨m, n, h⟩ else none

def progress : Option Handling → List StoreCall
  | none => []
  | some h => (storeCalls h.message).take h.made

def remaining : Option Handling → List StoreCall
  | none => []
  | some h => (storeCalls h.message).drop h.made

lemma map_call_after (m : Message) (n : ℕ) : (after m n).map call = (storeCalls m)[n]? := by
  rw [after]
  split
  · next h => exact (List.getElem?_eq_getElem h).symm
  · next h => exact (List.getElem?_eq_none (Nat.not_lt.mp h)).symm

lemma remaining_after (m : Message) (n : ℕ) : remaining (after m n) = (storeCalls m).drop n := by
  rw [after]
  split
  · rfl
  · next h => exact (List.drop_eq_nil_of_le (Nat.not_lt.mp h)).symm

lemma remaining_some (h : Handling) :
    remaining (some h) = h.call :: remaining (after h.message (h.made + 1)) := by
  rw [remaining_after, remaining, call]
  exact List.drop_eq_getElem_cons h.more

lemma progress_after_zero (m : Message) : progress (after m 0) = [] := by
  rw [after]
  split
  · rfl
  · rfl

lemma take_succ_made (h : Handling) :
    (storeCalls h.message).take (h.made + 1) = progress (some h) ++ [h.call] := by
  rw [progress, call]
  exact (List.take_append_getElem h.more).symm

lemma length_storeCalls_le {m : Message} (hm : ∀ payload, m ≠ .setAuthority payload) : (storeCalls m).length ≤ 1 := by
  cases m with
  | hello payload =>
    rw [storeCalls, helloCalls]
    split
    · exact Nat.le_refl 1
    · exact Nat.zero_le 1
  | publish payload =>
    rw [storeCalls, publishCalls]
    split
    · exact Nat.zero_le 1
    · exact Nat.le_refl 1
  | rollEpoch => exact Nat.le_refl 1
  | setAuthority payload => exact absurd rfl (hm payload)
  | save => exact Nat.zero_le 1

lemma made_eq_zero {h : Handling} (hm : ∀ payload, h.message ≠ .setAuthority payload) : h.made = 0 :=
  Nat.lt_one_iff.mp (h.more.trans_le (length_storeCalls_le hm))

lemma storeCalls_eq_singleton {h : Handling} (hm : ∀ payload, h.message ≠ .setAuthority payload) :
    storeCalls h.message = [h.call] := by
  obtain ⟨c, hc⟩ := List.length_eq_one_iff.mp (Nat.le_antisymm (length_storeCalls_le hm) (Nat.zero_lt_of_lt h.more))
  have hmem : h.call ∈ storeCalls h.message := List.get_mem _ _
  rw [hc, List.mem_singleton] at hmem
  rw [hc, hmem]

lemma made_eq_zero_of_publish {h : Handling} {d : RecordData} {c : AuthorityClaim}
    (hcall : h.call = .publish d c) : h.made = 0 := by
  refine made_eq_zero fun payload hm => ?_
  have hmem : StoreCall.publish d c ∈ storeCalls h.message := hcall ▸ List.get_mem _ _
  simp [hm, storeCalls] at hmem

end Handling

structure Server where
  store : ProvenanceStore
  handling : ℕ → Option Handling

inductive ServerEvent
  | receive (conn : ℕ) (m : Message)
  | call (conn : ℕ)

def ServerEvent.conn : ServerEvent → ℕ
  | .receive conn _ => conn
  | .call conn => conn

namespace Server

def start (s : ProvenanceStore) : Server := ⟨s, fun _ => none⟩

def step (t : Server) : ServerEvent → Server
  -- A connection that is busy leaves the next frame where it is.
  | .receive conn m =>
    match t.handling conn with
    | some _ => t
    | none => { t with handling := Function.update t.handling conn (Handling.after m 0) }
  | .call conn =>
    match t.handling conn with
    | none => t
    | some h =>
      ⟨h.call.apply t.store, Function.update t.handling conn (Handling.after h.message (h.made + 1))⟩

def receiving (t : Server) : ServerEvent → Option (ℕ × Message)
  | .receive conn m => if (t.handling conn).isSome then none else some (conn, m)
  | .call _ => none

def calling (t : Server) : ServerEvent → Option StoreCall
  | .receive _ _ => none
  | .call conn => (t.handling conn).map Handling.call

def finishing (t : Server) : ServerEvent → Option Message
  | .receive conn m => if (t.handling conn).isSome || (Handling.after m 0).isSome then none else some m
  | .call conn => (t.handling conn).bind fun h =>
      if (Handling.after h.message (h.made + 1)).isSome then none else some h.message

def received (t : Server) (es : List ServerEvent) : List (ℕ × Message) := observe step receiving t es

/-- The calls that have been made, in the order in which they took the lock. -/
def executed (t : Server) (es : List ServerEvent) : List StoreCall := observe step calling t es

def finished (t : Server) (es : List ServerEvent) : List Message := observe step finishing t es

lemma store_step (t : Server) (e : ServerEvent) :
    (t.step e).store = (t.calling e).toList.foldl StoreCall.apply t.store := by
  cases e with
  | receive conn m =>
    rw [step, calling]
    split
    · rfl
    · rfl
  | call conn =>
    rw [step, calling]
    cases t.handling conn with
    | none => rfl
    | some h => rfl

lemma handling_step_of_ne (t : Server) {e : ServerEvent} {j : ℕ} (hj : j ≠ e.conn) :
    (t.step e).handling j = t.handling j := by
  cases e with
  | receive conn m =>
    rw [step]
    split
    · rfl
    · exact Function.update_of_ne hj _ _
  | call conn =>
    rw [step]
    split
    · rfl
    · exact Function.update_of_ne hj _ _

lemma store_run (t : Server) (es : List ServerEvent) :
    (run step t es).store = (t.executed es).foldl StoreCall.apply t.store := by
  induction es generalizing t with
  | nil => rfl
  | cons e es ih => rw [run_cons, ih, store_step, executed, executed, observe, List.foldl_append]

def busy (s : ProvenanceStore) (conn : ℕ) (m : Message) (n : ℕ) : Server :=
  ⟨s, Function.update (fun _ => none) conn (Handling.after m n)⟩

def alone (conn : ℕ) (m : Message) : List ServerEvent :=
  .receive conn m :: List.replicate (storeCalls m).length (.call conn)

lemma executed_append (t : Server) (es fs : List ServerEvent) :
    t.executed (es ++ fs) = t.executed es ++ (run step t es).executed fs :=
  observe_append t es fs

lemma step_receive_start (s : ProvenanceStore) (conn : ℕ) (m : Message) :
    (start s).step (.receive conn m) = busy s conn m 0 := rfl

lemma handling_receive (s : ProvenanceStore) (conn : ℕ) (m : Message) :
    ((start s).step (.receive conn m)).handling conn = Handling.after m 0 := by
  simp [step_receive_start, busy]

lemma busy_end (s : ProvenanceStore) (conn : ℕ) (m : Message) :
    busy s conn m (storeCalls m).length = start s := by
  rw [busy, Handling.after, dif_neg (Nat.lt_irrefl _), Function.update_eq_self]
  rfl

section Call

variable {conn : ℕ} {m : Message} {pre rest : List StoreCall} {c : StoreCall}
  (hm : storeCalls m = pre ++ c :: rest) (s : ProvenanceStore)

include hm

variable (conn)

lemma handling_busy : ∃ h : Handling, (busy s conn m pre.length).handling conn = some h ∧ h.message = m ∧
    h.made = pre.length ∧ h.call = c := by
  have hlt : pre.length < (storeCalls m).length := by
    rw [hm, List.length_append, List.length_cons]
    omega
  have hafter : Handling.after m pre.length = some ⟨m, pre.length, hlt⟩ := dif_pos hlt
  have hcall := Handling.map_call_after m pre.length
  rw [hafter, hm, List.getElem?_append_right (Nat.le_refl _), Nat.sub_self] at hcall
  refine ⟨⟨m, pre.length, hlt⟩, ?_, rfl, rfl, Option.some.inj hcall⟩
  rw [← hafter]
  simp [busy]

lemma calling_busy : (busy s conn m pre.length).calling (.call conn) = some c := by
  obtain ⟨h, hh, -, -, hcall⟩ := handling_busy conn hm s
  rw [calling, hh, Option.map_some, hcall]

lemma step_busy : (busy s conn m pre.length).step (.call conn) = busy (c.apply s) conn m (pre.length + 1) := by
  obtain ⟨h, hh, hmessage, hmade, hcall⟩ := handling_busy conn hm s
  rw [step, hh]
  simp only [hmessage, hmade, hcall, busy, Function.update_idem]

end Call

lemma run_busy (s : ProvenanceStore) (conn : ℕ) {m : Message} {pre rest : List StoreCall}
    (hm : storeCalls m = pre ++ rest) :
    run step (busy s conn m pre.length) (List.replicate rest.length (.call conn)) =
        start (rest.foldl StoreCall.apply s) ∧
      (busy s conn m pre.length).executed (List.replicate rest.length (.call conn)) = rest := by
  induction rest generalizing s pre with
  | nil =>
    have hlen : pre.length = (storeCalls m).length := by rw [hm, List.append_nil]
    rw [hlen, busy_end]
    exact ⟨rfl, rfl⟩
  | cons c rest ih =>
    have hnext : storeCalls m = (pre ++ [c]) ++ rest := by rw [hm, List.append_assoc, List.singleton_append]
    obtain ⟨hrun, hcalls⟩ := ih (c.apply s) hnext
    rw [List.length_append, List.length_singleton] at hrun hcalls
    rw [List.length_cons, List.replicate_succ, run_cons, executed, observe, calling_busy conn hm, step_busy conn hm]
    exact ⟨hrun, congrArg (c :: ·) hcalls⟩

lemma run_alone (s : ProvenanceStore) (conn : ℕ) (m : Message) :
    run step (start s) (alone conn m) = start (handleMessage s m).2 := by
  rw [alone, run_cons, step_receive_start, handleMessage_store]
  exact (@run_busy s conn m [] (storeCalls m) rfl).1

lemma executed_alone (s : ProvenanceStore) (conn : ℕ) (m : Message) :
    (start s).executed (alone conn m) = storeCalls m := by
  rw [alone, executed, observe, step_receive_start]
  exact (@run_busy s conn m [] (storeCalls m) rfl).2

def receivedOn (i : ℕ) (t : Server) (es : List ServerEvent) : List Message :=
  (t.received es).filterMap fun x => if x.1 = i then some x.2 else none

def callingOn (i : ℕ) (t : Server) : ServerEvent → Option StoreCall
  | .receive _ _ => none
  | .call conn => if conn = i then t.calling (.call conn) else none

def executedOn (i : ℕ) (t : Server) (es : List ServerEvent) : List StoreCall := observe step (callingOn i) t es

lemma executedOn_step (i : ℕ) (t : Server) (e : ServerEvent) :
    (callingOn i t e).toList ++ Handling.remaining ((t.step e).handling i) =
      Handling.remaining (t.handling i) ++ (receivedOn i t [e]).flatMap storeCalls := by
  cases e with
  | receive conn m =>
    cases hconn : t.handling conn with
    | some h => simp [callingOn, step, receivedOn, received, observe, receiving, hconn]
    | none =>
      by_cases hi : conn = i
      · subst hi
        simp [callingOn, step, receivedOn, received, observe, receiving, hconn, Handling.remaining_after]
        rfl
      · have hne : i ≠ conn := fun h => hi h.symm
        simp [callingOn, step, receivedOn, received, observe, receiving, hconn, hi, hne]
  | call conn =>
    cases hconn : t.handling conn with
    | none => simp [callingOn, calling, step, receivedOn, received, observe, receiving, hconn]
    | some h =>
      by_cases hi : conn = i
      · subst hi
        simp [callingOn, calling, step, receivedOn, received, observe, receiving, hconn,
          Handling.remaining_some]
      · have hne : i ≠ conn := fun h => hi h.symm
        simp [callingOn, step, receivedOn, received, observe, receiving, hconn, hi, hne]

lemma executedOn_run (i : ℕ) (t : Server) (es : List ServerEvent) :
    t.executedOn i es ++ Handling.remaining ((run step t es).handling i) =
      Handling.remaining (t.handling i) ++ (t.receivedOn i es).flatMap storeCalls := by
  induction es generalizing t with
  | nil => simp [executedOn, receivedOn, received, observe]
  | cons e es ih =>
    have hsplit : t.receivedOn i (e :: es) = t.receivedOn i [e] ++ (t.step e).receivedOn i es := by
      simp [receivedOn, received, observe]
    calc t.executedOn i (e :: es) ++ Handling.remaining ((run step t (e :: es)).handling i)
        = (callingOn i t e).toList ++ ((t.step e).executedOn i es ++
            Handling.remaining ((run step (t.step e) es).handling i)) := by
          rw [executedOn, observe, List.append_assoc]
          rfl
      _ = (callingOn i t e).toList ++ Handling.remaining ((t.step e).handling i) ++
            ((t.step e).receivedOn i es).flatMap storeCalls := by rw [ih, List.append_assoc]
      _ = Handling.remaining (t.handling i) ++ (t.receivedOn i (e :: es)).flatMap storeCalls := by
          rw [executedOn_step, hsplit, List.flatMap_append, List.append_assoc]

def serve (s : ProvenanceStore) (ms : List Message) : ProvenanceStore :=
  ms.foldl (fun s m => (handleMessage s m).2) s

/-- No call is made while the message of another connection is part-way. -/
def Undisturbed (t : Server) : ServerEvent → Prop
  | .receive _ _ => True
  | .call conn => ∀ j ≠ conn, ∀ h, t.handling j = some h → h.made = 0

/-- No call of a `SetAuthority` is made while another one is part-way. -/
def Apart (t : Server) : ServerEvent → Prop
  | .receive _ _ => True
  | .call conn => ∀ h payload, t.handling conn = some h → h.message = .setAuthority payload →
      ∀ j ≠ conn, ∀ h, t.handling j = some h → h.made = 0

/-- At most one connection is part-way, and but for its calls the store is as the finished messages left it. -/
def Serial {α : Type} (proj : ProvenanceStore → α) (act : α → StoreCall → α) (s : ProvenanceStore) (t : Server)
    (ms : List Message) : Prop :=
  ∃ i, (∀ j ≠ i, Handling.progress (t.handling j) = []) ∧
    proj t.store = (Handling.progress (t.handling i)).foldl act (proj (serve s ms))

lemma progress_of_made {t : Server} {j : ℕ} (h : ∀ x, t.handling j = some x → x.made = 0) :
    Handling.progress (t.handling j) = [] := by
  cases hh : t.handling j with
  | none => rfl
  | some x => rw [Handling.progress, h x hh, List.take_zero]

lemma progress_update {handling : ℕ → Option Handling} {conn : ℕ} {x : Option Handling}
    (hx : Handling.progress x = Handling.progress (handling conn)) (j : ℕ) :
    Handling.progress (Function.update handling conn x j) = Handling.progress (handling j) := by
  by_cases hj : j = conn
  · rw [hj, Function.update_self, hx]
  · rw [Function.update_of_ne hj]

section Serial

variable {α : Type} {proj : ProvenanceStore → α} {act : α → StoreCall → α}
  (hact : ∀ s c, proj (StoreCall.apply s c) = act (proj s) c) {s : ProvenanceStore} {t : Server} {ms : List Message}

lemma Serial.at_call (h : Serial proj act s t ms) {conn : ℕ}
    (hothers : ∀ j ≠ conn, ∀ x, t.handling j = some x → x.made = 0) :
    proj t.store = (Handling.progress (t.handling conn)).foldl act (proj (serve s ms)) := by
  obtain ⟨i, hidle, hstore⟩ := h
  by_cases hi : conn = i
  · rw [hi]
    exact hstore
  · rw [hidle conn hi]
    rw [progress_of_made (hothers i (Ne.symm hi))] at hstore
    exact hstore

include hact

lemma proj_foldl (s : ProvenanceStore) (calls : List StoreCall) :
    proj (calls.foldl StoreCall.apply s) = calls.foldl act (proj s) := by
  induction calls generalizing s with
  | nil => rfl
  | cons c calls ih => rw [List.foldl_cons, List.foldl_cons, ih, hact]

lemma serve_after (s : ProvenanceStore) (ms : List Message) (m : Message) (n : ℕ) :
    (Handling.progress (Handling.after m n)).foldl act
        (proj (serve s (ms ++ (if (Handling.after m n).isSome then none else some m).toList))) =
      ((storeCalls m).take n).foldl act (proj (serve s ms)) := by
  rw [Handling.after]
  by_cases h : n < (storeCalls m).length
  · rw [dif_pos h]
    simp [Handling.progress]
  · have hlast : proj (handleMessage (serve s ms) m).2 = (storeCalls m).foldl act (proj (serve s ms)) := by
      rw [handleMessage_store, proj_foldl hact]
    rw [dif_neg h, List.take_of_length_le (Nat.not_lt.mp h), ← hlast]
    simp [Handling.progress, serve]

lemma Serial.receive (h : Serial proj act s t ms) (conn : ℕ) (m : Message) :
    Serial proj act s (t.step (.receive conn m)) (ms ++ (t.finishing (.receive conn m)).toList) := by
  obtain ⟨i, hothers, hstore⟩ := h
  cases hconn : t.handling conn with
  | some x =>
    refine ⟨i, ?_⟩
    simp only [Server.step, finishing, hconn, Option.isSome_some, Bool.true_or, if_true,
      Option.toList_none, List.append_nil]
    exact ⟨hothers, hstore⟩
  | none =>
    -- A message that starts has made no call, so it counts for nothing yet.
    have hsame : ∀ j, Handling.progress (Function.update t.handling conn (Handling.after m 0) j) =
        Handling.progress (t.handling j) := by
      apply progress_update
      rw [Handling.progress_after_zero, hconn]
      rfl
    have hserve := serve_after hact s ms m 0
    rw [Handling.progress_after_zero, List.take_zero, List.foldl_nil, List.foldl_nil] at hserve
    refine ⟨i, ?_⟩
    simp only [Server.step, finishing, hconn, Option.isSome_none, Bool.false_or, hsame, hserve]
    exact ⟨hothers, hstore⟩

lemma Serial.call (h : Serial proj act s t ms) {conn : ℕ}
    (hothers : ∀ j ≠ conn, ∀ x, t.handling j = some x → x.made = 0) :
    Serial proj act s (t.step (.call conn)) (ms ++ (t.finishing (.call conn)).toList) := by
  have hstore := h.at_call hothers
  cases hconn : t.handling conn with
  | none =>
    rw [hconn] at hstore
    refine ⟨conn, ?_⟩
    simp only [Server.step, finishing, hconn, Option.bind_none, Option.toList_none, List.append_nil]
    exact ⟨fun j hj => progress_of_made (hothers j hj), hstore⟩
  | some x =>
    refine ⟨conn, fun j hj => ?_, ?_⟩
    · simp only [Server.step, hconn, Function.update_of_ne hj]
      exact progress_of_made (hothers j hj)
    · have hserve := serve_after hact s ms x.message (x.made + 1)
      rw [Handling.take_succ_made, List.foldl_append, ← hconn, ← hstore] at hserve
      simp only [Server.step, finishing, hconn, Function.update_self, Option.bind_some]
      rw [hserve, hact]
      rfl

end Serial

lemma serial_run (s : ProvenanceStore) {es : List ServerEvent} (h : Along step Undisturbed (start s) es) :
    Serial id StoreCall.apply s (run step (start s) es) (finished (start s) es) := by
  have hstart : Serial id StoreCall.apply s (start s) [] := ⟨0, fun _ _ => rfl, rfl⟩
  refine observe_invariant (fun t ms e hs hu => ?_) hstart h
  cases e with
  | receive conn m => exact hs.receive (fun _ _ => rfl) conn m
  | call conn => exact hs.call (fun _ _ => rfl) hu

/-! The authority, which a publish leaves as it is, and on which the calls of other messages commute with those of a
`SetAuthority`. -/

def authorityCall (a : AuthorityState) : StoreCall → AuthorityState
  | .authority op => a.apply op
  | .publish _ _ => a

lemma authority_call (s : ProvenanceStore) (c : StoreCall) :
    (StoreCall.apply s c).authority = authorityCall s.authority c := by
  cases c with
  | authority op => rfl
  | publish d c => exact s.authority_publishFenced d c

lemma authorityCall_comm {m : Message} (hm : ∀ payload, m ≠ .setAuthority payload) {payload : ByteString}
    {c c' : StoreCall} (hc : c ∈ storeCalls m) (hc' : c' ∈ storeCalls (.setAuthority payload)) (a : AuthorityState) :
    authorityCall (authorityCall a c') c = authorityCall (authorityCall a c) c' := by
  obtain ⟨op, hop, rfl⟩ := List.mem_map.mp hc'
  simp only [setAuthorityOps, List.mem_append, List.mem_ite_nil_right, List.mem_singleton] at hop
  have hcall : (∃ d claim, c = .publish d claim) ∨ c = .authority .rollEpoch ∨
      ∃ w b, c = .authority (.registerBoot w b) := by
    cases m with
    | hello payload =>
      rw [storeCalls, helloCalls] at hc
      split at hc
      · exact .inr (.inr ⟨_, _, List.mem_singleton.mp hc⟩)
      · contradiction
    | publish payload =>
      rw [storeCalls, publishCalls] at hc
      split at hc
      · contradiction
      · exact .inl ⟨_, _, List.mem_singleton.mp hc⟩
    | rollEpoch => exact .inr (.inl (List.mem_singleton.mp hc))
    | setAuthority payload => exact absurd rfl (hm payload)
    | save => contradiction
  rcases hcall with ⟨d, claim, rfl⟩ | rfl | ⟨w, b, rfl⟩
  · rfl
  · rcases hop with ⟨-, rfl⟩ | ⟨-, rfl⟩ | ⟨-, rfl⟩ | ⟨-, rfl⟩ | ⟨-, rfl⟩ | ⟨-, rfl⟩ <;> rfl
  · rcases hop with ⟨-, rfl⟩ | ⟨-, rfl⟩ | ⟨-, rfl⟩ | ⟨-, rfl⟩ | ⟨-, rfl⟩ | ⟨-, rfl⟩ <;> rfl

lemma progress_comm {x : Handling} (hx : ∀ payload, x.message ≠ .setAuthority payload) (y : Option Handling)
    (a : AuthorityState) : (Handling.progress y).foldl authorityCall (authorityCall a x.call) =
      authorityCall ((Handling.progress y).foldl authorityCall a) x.call := by
  cases y with
  | none => rfl
  | some y =>
    by_cases hy : ∃ payload, y.message = .setAuthority payload
    · obtain ⟨payload, hy⟩ := hy
      have hcall : x.call ∈ storeCalls x.message := List.get_mem _ _
      have hmem : ∀ c ∈ Handling.progress (some y), c ∈ storeCalls (.setAuthority payload) := fun c hc =>
        hy ▸ List.mem_of_mem_take hc
      generalize Handling.progress (some y) = calls at hmem
      induction calls generalizing a with
      | nil => rfl
      | cons c calls ih =>
        obtain ⟨hc, hrest⟩ := List.forall_mem_cons.mp hmem
        rw [List.foldl_cons, List.foldl_cons, ← ih _ hrest, authorityCall_comm hx hcall hc]
    · rw [Handling.progress, Handling.made_eq_zero fun payload h => hy ⟨payload, h⟩, List.take_zero]
      rfl

section Apart

variable {s : ProvenanceStore} {t : Server} {ms : List Message}
  (h : Serial ProvenanceStore.authority authorityCall s t ms)

include h

lemma Serial.single {conn : ℕ} {x : Handling} (hconn : t.handling conn = some x)
    (hx : ∀ payload, x.message ≠ .setAuthority payload) :
    Serial ProvenanceStore.authority authorityCall s (t.step (.call conn)) (ms ++ (t.finishing (.call conn)).toList) := by
  obtain ⟨i, hothers, hstore⟩ := h
  have hafter : Handling.after x.message (x.made + 1) = none := by
    rw [Handling.made_eq_zero hx]
    exact dif_neg (Nat.not_lt.mpr (Handling.length_storeCalls_le hx))
  have hsame : ∀ j, Handling.progress (Function.update t.handling conn none j) = Handling.progress (t.handling j) := by
    apply progress_update
    rw [hconn, Handling.progress, Handling.progress, Handling.made_eq_zero hx, List.take_zero]
  have hserve : (serve s (ms ++ [x.message])).authority = authorityCall (serve s ms).authority x.call := by
    rw [serve, List.foldl_append, List.foldl_cons, List.foldl_nil, handleMessage_store,
      Handling.storeCalls_eq_singleton hx]
    exact authority_call _ _
  refine ⟨i, ?_⟩
  simp only [Server.step, finishing, hconn, Option.bind_some, hafter, hsame]
  refine ⟨hothers, (authority_call t.store x.call).trans ?_⟩
  rw [hstore, ← progress_comm hx, ← hserve]
  rfl

lemma Serial.apart_step {e : ServerEvent} (he : t.Apart e) :
    Serial ProvenanceStore.authority authorityCall s (t.step e) (ms ++ (t.finishing e).toList) := by
  cases e with
  | receive conn m => exact h.receive authority_call conn m
  | call conn =>
    cases hconn : t.handling conn with
    | none =>
      simp only [Server.step, finishing, hconn, Option.bind_none, Option.toList_none, List.append_nil]
      exact h
    | some x =>
      by_cases hx : ∃ payload, x.message = .setAuthority payload
      · obtain ⟨payload, hx⟩ := hx
        exact h.call authority_call (he x payload hconn hx)
      · exact h.single hconn fun payload hm => hx ⟨payload, hm⟩

end Apart

lemma authority_run (s : ProvenanceStore) {es : List ServerEvent} (h : Along step Apart (start s) es)
    (hidle : ∀ j x, (run step (start s) es).handling j = some x → x.made = 0) :
    (run step (start s) es).store.authority = (serve s (finished (start s) es)).authority := by
  have hstart : Serial ProvenanceStore.authority authorityCall s (start s) [] := ⟨0, fun _ _ => rfl, rfl⟩
  obtain ⟨i, -, hauthority⟩ := observe_invariant (fun _ _ _ hs he => hs.apart_step he) hstart h
  rw [progress_of_made (hidle i)] at hauthority
  exact hauthority

theorem publish_authority (s : ProvenanceStore) (es : List ServerEvent) (e : ServerEvent) (d : RecordData)
    (c : AuthorityClaim) (hcall : (run step (start s) es).calling e = some (.publish d c)) :
    (run step (start s) es).store = (executed (start s) es).foldl StoreCall.apply s ∧
      (∀ i, executedOn i (start s) es <+: (receivedOn i (start s) es).flatMap storeCalls) ∧
      (Along step Undisturbed (start s) (es ++ [e]) →
        (run step (start s) es).store = serve s (finished (start s) es)) ∧
      (Along step Apart (start s) es → (∀ j x, (run step (start s) es).handling j = some x → x.made = 0) →
        (run step (start s) es).store.authority = (serve s (finished (start s) es)).authority) := by
  refine ⟨store_run _ es, fun i => ⟨_, executedOn_run i (start s) es⟩, fun hu => ?_, authority_run s⟩
  obtain ⟨hes, hlast, -⟩ := (along_append es [e]).mp hu
  cases e with
  | receive conn m => contradiction
  | call conn =>
    obtain ⟨x, hx, hp⟩ := Option.map_eq_some_iff.mp hcall
    have hstore := (serial_run s hes).at_call hlast
    rw [hx, Handling.progress, Handling.made_eq_zero_of_publish hp, List.take_zero] at hstore
    exact hstore

def generationsPayload : ByteString := ByteString.ofText "state_gen=2;prov_gen=2"

def attemptPayload : ByteString := (encodePublishPayload (.produced 1) attemptClaim).toOption.getD []

lemma setAuthorityOps_generations :
    setAuthorityOps generationsPayload = [.rollStateGeneration ⟨2⟩, .rollProvenanceGeneration ⟨2⟩] := by
  decide +kernel

lemma publishCalls_encode {d : RecordData} (hv : validateRecord d = none) (hn : RecordNamed d)
    (hb : RecordBounds d) (c : AuthorityClaim) :
    publishCalls ((encodePublishPayload d c).toOption.getD []) = [.publish d (onWire c)] := by
  obtain ⟨payload, he, hd⟩ := decodePublishPayload_encode hv hn hb c
  rw [he, Except.toOption, Option.getD_some, publishCalls, hd]

lemma storeCalls_attempt :
    storeCalls (.publish attemptPayload) = [.publish (.produced 1) attemptClaim] := by
  rw [storeCalls, attemptPayload, publishCalls_encode rfl (by decide) (by decide)]
  rfl

lemma calling_of_handling {t : Server} {conn : ℕ} {m : Message} {c : StoreCall} {rest : List StoreCall}
    (h : t.handling conn = Handling.after m 0) (hm : storeCalls m = c :: rest) :
    t.calling (.call conn) = some c := by
  rw [calling, h, Handling.map_call_after, hm]
  rfl

def wholeRun : List ServerEvent :=
  alone 0 (.setAuthority generationsPayload) ++ [.receive 1 (.publish attemptPayload)]

lemma wholeRun_calling : (run step (start {}) wholeRun).calling (.call 1) =
    some (.publish (.produced 1) attemptClaim) := by
  rw [wholeRun, run_append, run_alone]
  exact calling_of_handling (handling_receive _ 1 _) storeCalls_attempt

lemma undisturbed_of_idle {t : Server} {conn : ℕ} (h : ∀ j ≠ conn, t.handling j = none) :
    t.Undisturbed (.call conn) := by
  intro j hj x hx
  rw [h j hj] at hx
  contradiction

lemma undisturbed_busy (s : ProvenanceStore) (conn : ℕ) {m : Message} {pre rest : List StoreCall}
    (hm : storeCalls m = pre ++ rest) :
    Along step Undisturbed (busy s conn m pre.length) (List.replicate rest.length (.call conn)) := by
  induction rest generalizing s pre with
  | nil => trivial
  | cons c rest ih =>
    have hnext : storeCalls m = (pre ++ [c]) ++ rest := by rw [hm, List.append_assoc, List.singleton_append]
    have htail := ih (c.apply s) hnext
    rw [List.length_append, List.length_singleton] at htail
    rw [List.length_cons, List.replicate_succ, along_cons, step_busy conn hm]
    exact ⟨undisturbed_of_idle fun j hj => by simp [busy, hj], htail⟩

lemma undisturbed_alone (s : ProvenanceStore) (conn : ℕ) (m : Message) :
    Along step Undisturbed (start s) (alone conn m) :=
  ⟨trivial, @undisturbed_busy s conn m [] (storeCalls m) rfl⟩

def mixedRun : List ServerEvent :=
  [.receive 0 (.setAuthority generationsPayload), .call 0, .receive 1 (.publish attemptPayload), .call 1, .call 0,
    .receive 1 (.publish attemptPayload)]

theorem wholeRun_authority :
    (run step (start {}) wholeRun).store = serve {} (finished (start {}) wholeRun) ∧
      (run step (start {}) mixedRun).store.authority = (serve {} (finished (start {}) mixedRun)).authority := by
  constructor
  · refine (publish_authority {} wholeRun (.call 1) (.produced 1) attemptClaim wholeRun_calling).2.2.1 ?_
    rw [wholeRun, List.append_assoc, along_append, run_alone]
    refine ⟨undisturbed_alone {} 0 _, trivial, undisturbed_of_idle fun j hj => ?_, trivial⟩
    exact handling_step_of_ne _ hj
  · have hset : storeCalls (.setAuthority generationsPayload) =
        [.authority (.rollStateGeneration ⟨2⟩), .authority (.rollProvenanceGeneration ⟨2⟩)] := by
      rw [storeCalls, setAuthorityOps_generations]
      rfl
    refine (publish_authority {} mixedRun (.call 1) (.produced 1) attemptClaim ?_).2.2.2 ?_ ?_
    · apply calling_of_handling _ storeCalls_attempt
      simp [mixedRun, run, step, start, Handling.after, hset, storeCalls_attempt]
    · simp [mixedRun, step, start, Handling.after, hset, storeCalls_attempt, Apart, Function.update_apply]
      refine ⟨?_, fun _ _ _ _ j hj _ => hj⟩
      rintro _ payload rfl hm
      contradiction
    · simp [mixedRun, run, step, start, Handling.after, hset, storeCalls_attempt, Function.update_apply]
      intro j x hx
      split_ifs at hx
      cases hx
      rfl

def SeesWholeMessages (s : ProvenanceStore) (es : List ServerEvent) : Prop :=
  ∃ ms, (∀ m ∈ ms, m ∈ (received (start s) es).map Prod.snd) ∧
    (run step (start s) es).store.authority = (serve s ms).authority

lemma authority_serve {s : ProvenanceStore} {ms : List Message}
    (hms : ∀ m ∈ ms, m = .setAuthority generationsPayload ∨ m = .publish attemptPayload)
    (hs : s.authority.stateGeneration = {} ∨ s.authority.provenanceGeneration = ⟨2⟩) :
    (serve s ms).authority.stateGeneration = {} ∨ (serve s ms).authority.provenanceGeneration = ⟨2⟩ := by
  induction ms generalizing s with
  | nil => exact hs
  | cons m ms ih =>
    obtain ⟨hm, hrest⟩ := List.forall_mem_cons.mp hms
    refine ih hrest ?_
    simp only [handleMessage_store]
    rcases hm with rfl | rfl
    · right
      simp [storeCalls, setAuthorityOps_generations, StoreCall.apply, applyAuthority, AuthorityState.apply]
    · simpa [storeCalls_attempt, StoreCall.apply, authority_publishFenced] using hs

def splitRun : List ServerEvent :=
  [.receive 0 (.setAuthority generationsPayload), .call 0, .receive 1 (.publish attemptPayload)]

theorem publish_between_calls : ¬ ∀ s es e d c, (run step (start s) es).calling e = some (.publish d c) →
    SeesWholeMessages s es := by
  intro h
  have hcall : (run step (start {}) splitRun).calling (.call 1) = some (.publish (.produced 1) attemptClaim) := by
    apply calling_of_handling _ storeCalls_attempt
    simp [splitRun, run, step, start, Handling.after, storeCalls, setAuthorityOps_generations]
  have hreceived : (received (start {}) splitRun).map Prod.snd =
      [.setAuthority generationsPayload, .publish attemptPayload] := by
    simp [splitRun, received, observe, receiving, step, start, Handling.after, storeCalls,
      setAuthorityOps_generations]
  have hexecuted : executed (start {}) splitRun = [.authority (.rollStateGeneration ⟨2⟩)] := by
    simp [splitRun, executed, observe, calling, step, start, Handling.map_call_after, storeCalls,
      setAuthorityOps_generations]
  obtain ⟨ms, hms, hauthority⟩ := h {} splitRun (.call 1) (.produced 1) attemptClaim hcall
  rw [hreceived] at hms
  have hwhole := authority_serve (s := {}) (fun m hm => by simpa using hms m hm) (Or.inl rfl)
  rw [← hauthority, store_run, hexecuted] at hwhole
  revert hwhole
  decide +kernel

end Server

end StateProvenance
