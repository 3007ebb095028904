import StateProvenance.Answers
import Mathlib.Algebra.BigOperators.Group.Finset.Piecewise

/-! The counters of the coordinator. A thread counts its publish before it answers it, but a malformed one after; what the
threads still owe makes up the difference, and when none handles a frame the counters are the answers sent. -/

namespace StateProvenance

open Std Library.OrderedMap Library.Runs ProvenanceStore

instance (f : Frame) : Decidable (IsPublish f) := inferInstanceAs (Decidable (_ ∨ _))

namespace Thread

/-- A record inserted and not counted. -/
def accepting : Thread → ℕ
  | .handling _ .countAccepted => 1
  | _ => 0

/-- A publish counted as accepted and not answered. -/
def acknowledging : Thread → ℕ
  | .handling f (.respond text) => if IsPublish f ∧ text = "ok" then 1 else 0
  | _ => 0

/-- A publish counted as rejected and not answered. -/
def refusing : Thread → ℕ
  | .handling f (.respond text) => if IsPublish f ∧ text ≠ "ok" then 1 else 0
  | _ => 0

/-- A publish answered and not counted. -/
def uncounted : Thread → ℕ
  | .handling _ .countMalformed => 1
  | _ => 0

end Thread

structure Thread.Quiet (th : Thread) : Prop where
  accepting : th.accepting = 0
  acknowledging : th.acknowledging = 0
  refusing : th.refusing = 0
  uncounted : th.uncounted = 0

def okAnswers (seen : List Traffic) : ℕ :=
  seen.countP fun
    | .answered _ f text => IsPublish f ∧ text = "ok"
    | _ => false

def errAnswers (seen : List Traffic) : ℕ :=
  seen.countP fun
    | .answered _ f text => IsPublish f ∧ text ≠ "ok"
    | _ => false

lemma not_isPublish {f : Frame} {op : Op} (hop : Op.ofCode f.op = some op) (h : op ≠ .publish ∧ op ≠ .publishStale) :
    ¬ IsPublish f := by
  rw [IsPublish, hop]
  simp [h]

structure Balance (f : Frame) (task : Task) (g g' : Globals) (th : Thread) (sent : List Traffic) (a b r : ℕ) :
    Prop where
  accepted : g'.accepted = g.accepted + Int64.ofNat a
  stored : g'.store.size = g.store.size + b
  rejected : g'.rejected = g.rejected + Int64.ofNat r
  acknowledged : a + (Thread.handling f task).acknowledging = okAnswers sent + th.acknowledging
  inserted : b + (Thread.handling f task).accepting = a + th.accepting
  refused : r + (Thread.handling f task).refusing + th.uncounted =
    errAnswers sent + th.refusing + (Thread.handling f task).uncounted

lemma size_commit {s : ProvenanceStore} {d : RecordData} (hi : s.Insertable d) (g : ProvenanceGraph) :
    (s.commit d g).size = s.size + 1 := by
  have hsize : (s.records.insert d.subjectId ⟨d⟩).size = s.records.size + 1 := by
    rw [ExtTreeMap.size_insert, if_neg (mt ExtTreeMap.contains_iff_mem.mp hi.newSubject)]
  exact hsize

lemma add_ofNat_zero (n : Int64) : n = n + Int64.ofNat 0 := by simp

section Step

variable {f : Frame}

lemma quiet_respond (hf : ¬ IsPublish f) (text : String) : (Thread.handling f (.respond text)).Quiet :=
  ⟨rfl, by simp [Thread.acknowledging, hf], by simp [Thread.refusing, hf], rfl⟩

lemma Balance.quiet {task : Task} {g g' : Globals} {th : Thread} (hold : (Thread.handling f task).Quiet)
    (hnew : th.Quiet) (haccepted : g'.accepted = g.accepted) (hrejected : g'.rejected = g.rejected)
    (hsize : g'.store.size = g.store.size) : Balance f task g g' th [] 0 0 0 where
  accepted := by rw [haccepted, ← add_ofNat_zero]
  stored := hsize
  rejected := by rw [hrejected, ← add_ofNat_zero]
  acknowledged := by rw [hold.acknowledging, hnew.acknowledging]; rfl
  inserted := by rw [hold.accepting, hnew.accepting]
  refused := by rw [hold.refusing, hnew.refusing, hold.uncounted, hnew.uncounted]; rfl

variable {seen : (ProvenanceStore → ProvenanceStore → Prop) → Prop} {i : ℕ} {o : CallOutcomes} {arg : StatsArg}
  {g g' : Globals} {th : Thread} (hs : g.store.Core)

include hs

lemma Task.balance {task : Task} (h : task.Justified f seen) (hstep : task.step f o arg g = .ok (g', th)) :
    ∃ a b r, Balance f task g g' th (task.sent.map (.answered i f)).toList a b r := by
  have hquiet : ∀ task' : Task, task'.sent = none → task' ≠ .countAccepted → task' ≠ .countMalformed →
      (Thread.handling f task').Quiet := by
    intro task' hsent haccepted hmalformed
    cases task' with
    | countAccepted => contradiction
    | countMalformed => contradiction
    | respond => contradiction
    | _ => exact ⟨rfl, rfl, rfl, rfl⟩
  have hrespond : ∀ {op : Op} {text : String}, Op.ofCode f.op = some op → op ≠ .publish ∧ op ≠ .publishStale →
      (Thread.handling f (.respond text)).Quiet := fun hop hne => quiet_respond (not_isPublish hop hne) _
  cases Task.steps hstep with
  | registered wid bid => exact ⟨0, 0, 0, .quiet (hquiet _ rfl nofun nofun) (hquiet _ rfl nofun nofun) rfl rfl rfl⟩
  | inserted d r s hp hok =>
    have hpublish := publishValidated_step hs d
    rw [hp] at hpublish
    cases hpublish with
    | rejected error => contradiction
    | accepted graph hv hi hg =>
      exact ⟨0, 1, 0, add_ofNat_zero _, size_commit hi graph, add_ofNat_zero _, rfl, rfl, rfl⟩
  | notInserted d r s hp hok =>
    have hpublish := publishValidated_step hs d
    rw [hp] at hpublish
    cases hpublish with
    | rejected error =>
      exact ⟨0, 0, 0, .quiet (hquiet _ rfl nofun nofun) (hquiet _ rfl nofun nofun) rfl rfl rfl⟩
    | accepted graph hv hi hg => contradiction
  | countedAccepted =>
    refine ⟨1, 0, 0, rfl, rfl, add_ofNat_zero _, ?_, rfl, ?_⟩
    · simp [Thread.acknowledging, h.1, okAnswers, Task.sent]
    · simp [Thread.refusing, Thread.uncounted, errAnswers, Task.sent]
  | countedRejected error =>
    have hne := err_ne_ok error
    refine ⟨0, 0, 1, add_ofNat_zero _, rfl, rfl, ?_, rfl, ?_⟩
    · simp [Thread.acknowledging, hne, okAnswers, Task.sent]
    · simp [Thread.refusing, Thread.uncounted, h.1, hne, errAnswers, Task.sent]
  | malformed =>
    refine ⟨0, 0, 0, add_ofNat_zero _, rfl, add_ofNat_zero _, ?_, rfl, ?_⟩
    · simp [Thread.acknowledging, okAnswers, Task.sent]
    · simp [Thread.refusing, Thread.uncounted, h.1, errAnswers, Task.sent]
  | countedMalformed => exact ⟨0, 0, 1, add_ofNat_zero _, rfl, rfl, rfl, rfl, rfl⟩
  | responded text =>
    refine ⟨0, 0, 0, add_ofNat_zero _, rfl, add_ofNat_zero _, ?_, rfl, ?_⟩
    · simp [Thread.acknowledging, okAnswers, Task.sent]
    · simp [Thread.refusing, Thread.uncounted, errAnswers, Task.sent]
  | bye =>
    have hnot := not_isPublish h.1 (by decide)
    refine ⟨0, 0, 0, add_ofNat_zero _, rfl, add_ofNat_zero _, ?_, rfl, ?_⟩
    · simp [Thread.acknowledging, okAnswers, Task.sent, hnot]
    · simp [Thread.refusing, Thread.uncounted, errAnswers, Task.sent, hnot]
  | stopped => exact ⟨0, 0, 0, .quiet (hquiet _ rfl nofun nofun) ⟨rfl, rfl, rfl, rfl⟩ rfl rfl rfl⟩
  | summarized => exact ⟨0, 0, 0, .quiet (hquiet _ rfl nofun nofun) (hrespond h (by decide)) rfl rfl rfl⟩
  | rolled => exact ⟨0, 0, 0, .quiet (hquiet _ rfl nofun nofun) (hrespond h (by decide)) rfl rfl rfl⟩
  | authoritySet => exact ⟨0, 0, 0, .quiet (hquiet _ rfl nofun nofun) (hrespond h (by decide)) rfl rfl rfl⟩
  | saved snap => exact ⟨0, 0, 0, .quiet (hquiet _ rfl nofun nofun) (hrespond h.1 (by decide)) rfl rfl rfl⟩
  | notSaved snap o e he =>
    exact ⟨0, 0, 0, .quiet (hquiet _ rfl nofun nofun) (hrespond h.1 (by decide)) rfl rfl rfl⟩
  | absent sid hfind => exact ⟨0, 0, 0, .quiet (hquiet _ rfl nofun nofun) (hrespond h.1 (by decide)) rfl rfl rfl⟩
  | presented sid rec v =>
    exact ⟨0, 0, 0, .quiet (hquiet _ rfl nofun nofun) (hrespond h.1 (by decide)) rfl rfl rfl⟩
  | statsPrinted args args' text ht =>
    exact ⟨0, 0, 0, .quiet (hquiet _ rfl nofun nofun) (hrespond h (by decide)) rfl rfl rfl⟩
  | _ => exact ⟨0, 0, 0, .quiet (hquiet _ rfl nofun nofun) (hquiet _ rfl nofun nofun) rfl rfl rfl⟩

end Step

lemma sum_update {A : Type} (w : A → ℕ) (c : ℕ → A) (x : A) {i : ℕ} {S : Finset ℕ} (hi : i ∈ S) :
    ∑ j ∈ S, w (Function.update c i x j) + w (c i) = ∑ j ∈ S, w (c j) + w x := by
  have hcomp : (fun j => w (Function.update c i x j)) = Function.update (fun j => w (c j)) i (w x) :=
    Function.comp_update w c i x
  have herase := Finset.add_sum_erase S (fun j => w (c j)) hi
  rw [hcomp, Finset.sum_update_of_mem hi, Finset.sdiff_singleton_eq_erase]
  omega

namespace Service

def owing (t : Service) (n : ℕ) (w : Thread → ℕ) : ℕ := ∑ j ∈ Finset.range n, w (t.conns j).thread

lemma owing_setConn (t : Service) {n i : ℕ} (hi : i < n) (c : Connection) (w : Thread → ℕ) :
    (t.setConn i c).owing n w + w (t.conns i).thread = t.owing n w + w c.thread :=
  sum_update (fun c : Connection => w c.thread) t.conns c (Finset.mem_range.mpr hi)

structure Accounts (s : ProvenanceStore) (n : ℕ) (t : Service) (seen : List Traffic) : Prop where
  accepted : t.globals.accepted = Int64.ofNat (okAnswers seen + t.owing n Thread.acknowledging)
  stored : t.globals.store.size =
    s.size + okAnswers seen + t.owing n Thread.acknowledging + t.owing n Thread.accepting
  rejected : ∃ r, t.globals.rejected = Int64.ofNat r ∧
    r + t.owing n Thread.uncounted = errAnswers seen + t.owing n Thread.refusing

lemma Accounts.same {s : ProvenanceStore} {n : ℕ} {t : Service} {seen : List Traffic} (h : Accounts s n t seen)
    {i : ℕ} (hi : i < n) {c : Connection} (hthread : c.thread = (t.conns i).thread ∨
      (t.conns i).thread.Quiet ∧ c.thread.Quiet) : Accounts s n (t.setConn i c) seen := by
  have howing : ∀ w : Thread → ℕ, w c.thread = w (t.conns i).thread → (t.setConn i c).owing n w = t.owing n w := by
    intro w hw
    have hupdate := t.owing_setConn hi c w
    omega
  obtain ⟨haccepting, hacknowledging, hrefusing, huncounted⟩ :
      c.thread.accepting = (t.conns i).thread.accepting ∧ c.thread.acknowledging = (t.conns i).thread.acknowledging ∧
        c.thread.refusing = (t.conns i).thread.refusing ∧ c.thread.uncounted = (t.conns i).thread.uncounted := by
    rcases hthread with he | ⟨hold, hnew⟩
    · rw [he]
      exact ⟨rfl, rfl, rfl, rfl⟩
    · exact ⟨hnew.accepting.trans hold.accepting.symm, hnew.acknowledging.trans hold.acknowledging.symm,
        hnew.refusing.trans hold.refusing.symm, hnew.uncounted.trans hold.uncounted.symm⟩
  have h1 := howing _ haccepting
  have h2 := howing _ hacknowledging
  have h3 := howing _ hrefusing
  have h4 := howing _ huncounted
  refine ⟨?_, ?_, ?_⟩
  · rw [h2]
    exact h.accepted
  · rw [h1, h2]
    exact h.stored
  · rw [h3, h4]
    exact h.rejected

lemma quiet_start (f : Frame) : (Thread.handling f (.start f)).Quiet := by
  have hstart := Task.starts f
  generalize Task.start f = task at hstart ⊢
  cases hstart with
  | badQuery hop => exact quiet_respond (not_isPublish hop (by decide)) _
  | unknown hop =>
    refine quiet_respond (fun hf => ?_) _
    rcases hf with hf | hf <;> simp [hf] at hop
  | _ => exact ⟨rfl, rfl, rfl, rfl⟩

lemma Accounts.handled {s : ProvenanceStore} {n : ℕ} {t : Service} {seen new : List Traffic} (h : Accounts s n t seen)
    {i : ℕ} (hi : i < n) {f : Frame} {task : Task} (hold : (t.conns i).thread = .handling f task) {g : Globals}
    {c : Connection} {a b r : ℕ} (hb : Balance f task t.globals g c.thread new a b r) :
    Accounts s n ({ t with globals := g }.setConn i c) (seen ++ new) := by
  have hupdate := fun w => t.owing_setConn hi c w
  have howing : ∀ w, ({ t with globals := g }.setConn i c).owing n w = (t.setConn i c).owing n w := fun _ => rfl
  have h1 := hupdate Thread.accepting
  have h2 := hupdate Thread.acknowledging
  have h3 := hupdate Thread.refusing
  have h4 := hupdate Thread.uncounted
  rw [hold] at h1 h2 h3 h4
  have hok : okAnswers (seen ++ new) = okAnswers seen + okAnswers new := List.countP_append
  have herr : errAnswers (seen ++ new) = errAnswers seen + errAnswers new := List.countP_append
  obtain ⟨m, hm, hbalance⟩ := h.rejected
  obtain ⟨haccepted, hstored, hrejected, hacknowledged, hinserted, hrefused⟩ := hb
  refine ⟨?_, ?_, m + r, ?_, ?_⟩
  · change g.accepted = _
    rw [haccepted, h.accepted, ← Int64.ofNat_add, howing, hok]
    congr 1
    omega
  · change g.store.size = _
    have hsize := h.stored
    rw [howing, howing, hok]
    omega
  · change g.rejected = _
    rw [hrejected, hm, Int64.ofNat_add]
  · rw [howing, howing, herr]
    omega

lemma Accounts.step {s : ProvenanceStore} {n : ℕ} {t : Service} {seen : List Traffic} (h : Accounts s n t seen)
    (ht : t.Sound) (hjustified : ∀ i f task, (t.conns i).thread = .handling f task → ∃ seen, task.Justified f seen)
    {e : ServiceEvent} (he : e.conn < n) : Accounts s n (t.step e) (seen ++ (t.traffic e).toList) := by
  cases e with
  | arrive i bytes =>
    rw [traffic, Option.toList_none, List.append_nil]
    exact h.same (c := { t.conns i with inbox := (t.conns i).inbox ++ bytes }) he (.inl rfl)
  | act i o arg =>
    have hacts := ht.act i o arg
    generalize t.step (.act i o arg) = t', t.traffic (.act i o arg) = new at hacts ⊢
    have hidle : ∀ thread, thread = Thread.closed ∨ thread = .receiving ∨ thread = .checking → thread.Quiet := by
      rintro _ (rfl | rfl | rfl) <;> exact ⟨rfl, rfl, rfl, rfl⟩
    cases hacts with
    | idle => simpa using h
    | checked thread hopen hold =>
      rw [Option.toList_none, List.append_nil]
      refine h.same he (.inr ⟨hidle _ (.inr (.inr hold)), ?_⟩)
      rcases hopen with rfl | ⟨rfl, -⟩
      · exact hidle _ (.inl rfl)
      · exact hidle _ (.inr (.inl rfl))
    | received f rest hf hold =>
      have hsame := h.same (c := { t.conns i with inbox := rest, thread := .handling f (.start f) }) he
        (.inr ⟨hidle _ (.inr (.inl hold)), quiet_start f⟩)
      have hok : okAnswers (seen ++ [.received i f]) = okAnswers seen := by simp [okAnswers]
      have herr : errAnswers (seen ++ [.received i f]) = errAnswers seen := by simp [errAnswers]
      rw [Option.toList_some]
      exact ⟨by rw [hok]; exact hsame.accepted, by rw [hok]; exact hsame.stored, by rw [herr]; exact hsame.rejected⟩
    | handled f task globals thread hold hstep =>
      obtain ⟨_, hj⟩ := hjustified i f task hold
      obtain ⟨a, b, r, hb⟩ := Task.balance ht.store.toCore hj hstep
      exact h.handled he hold hb

lemma accounts_run {s : ProvenanceStore} (hs : s.Savable) {n : ℕ} {es : List ServiceEvent}
    (hn : ∀ e ∈ es, e.conn < n) : Accounts s n (run step (start s) es) ((start s).history es) := by
  induction es using List.reverseRecOn with
  | nil =>
    have hzero : ∀ w : Thread → ℕ, w .checking = 0 → (run step (start s) []).owing n w = 0 := fun w hw =>
      Finset.sum_eq_zero fun j _ => hw
    refine ⟨?_, ?_, 0, rfl, ?_⟩
    · rw [hzero _ rfl]
      rfl
    · rw [hzero _ rfl, hzero _ rfl]
      rfl
    · rw [hzero Thread.uncounted rfl, hzero Thread.refusing rfl]
      rfl
  | append_singleton es e ih =>
    have hlast := (ih fun x hx => hn x (List.mem_append_left _ hx)).step ((sound_start hs).run es)
      (fun i f task hthread => ⟨_, justified_run s hs es i f task hthread⟩)
      (hn e (List.mem_append_right _ (List.mem_singleton_self e)))
    have hhistory : (start s).history (es ++ [e]) =
        (start s).history es ++ ((run step (start s) es).traffic e).toList := by
      rw [history, observe_append]
      simp [observe, history]
    rw [run_append, hhistory]
    exact hlast

theorem counters_account {load : Option ByteString} {s : ProvenanceStore} (h : startStore load = some s)
    (es : List ServiceEvent) (hidle : ∀ i f, ¬ (run step (start s) es).Handles i f) :
    let t := run step (start s) es
    let seen := (start s).history es
    t.globals.accepted = Int64.ofNat (okAnswers seen) ∧ t.globals.rejected = Int64.ofNat (errAnswers seen) ∧
      t.globals.store.size = s.size + okAnswers seen := by
  intro t seen
  obtain ⟨n, hn⟩ : ∃ n, ∀ e ∈ es, e.conn < n := by
    refine ⟨(es.map ServiceEvent.conn).sum + 1, fun e he => ?_⟩
    exact Nat.lt_succ_of_le (List.single_le_sum (fun _ _ => Nat.zero_le _) _ (List.mem_map_of_mem he))
  have hquiet : ∀ i, (t.conns i).thread.Quiet := by
    intro i
    cases hthread : (t.conns i).thread with
    | handling f task => exact absurd ⟨task, hthread⟩ (hidle i f)
    | _ => exact ⟨rfl, rfl, rfl, rfl⟩
  have hzero : ∀ w : Thread → ℕ, (∀ i, w (t.conns i).thread = 0) → t.owing n w = 0 := fun w hw =>
    Finset.sum_eq_zero fun j _ => hw j
  obtain ⟨haccepted, hstored, r, hrejected, hbalance⟩ := accounts_run (savable_startStore h) hn
  rw [hzero _ fun i => (hquiet i).acknowledging] at haccepted hstored
  rw [hzero _ fun i => (hquiet i).accepting] at hstored
  rw [hzero _ fun i => (hquiet i).uncounted, hzero _ fun i => (hquiet i).refusing] at hbalance
  obtain rfl : r = errAnswers seen := hbalance
  exact ⟨haccepted, hrejected, hstored⟩

def publishedTwice : List ServiceEvent := exchange 0 publishFrame 6 ++ exchange 0 publishFrame 6

theorem publishedTwice_accounted : (run step (start {}) publishedTwice).globals.accepted = 1 ∧
    (run step (start {}) publishedTwice).globals.rejected = 1 ∧
      (run step (start {}) publishedTwice).globals.store.size = 1 := by
  have hframe : ((run step (start {}) publishedTwice).conns 0).thread.frame = none := by decide +kernel
  have hconn : ∀ e ∈ publishedTwice, e.conn = 0 := by
    intro e he
    simp only [publishedTwice, exchange, List.mem_append, List.mem_cons, List.mem_replicate] at he
    rcases he with (rfl | ⟨-, rfl⟩) | rfl | ⟨-, rfl⟩ <;> rfl
  have hidle : ∀ i f, ¬ (run step (start {}) publishedTwice).Handles i f := by
    intro i f hhandles
    by_cases hi : i = 0
    · subst hi
      exact absurd (hframe.symm.trans hhandles.frame) (by simp)
    · obtain ⟨task, htask⟩ := hhandles
      rw [conns_run_of_ne (start {}) fun e he => (hconn e he).symm ▸ hi] at htask
      exact nomatch (htask : Thread.checking = .handling f task)
  obtain ⟨haccepted, hrejected, hsize⟩ := @counters_account none {} rfl publishedTwice hidle
  have hok : okAnswers ((start {}).history publishedTwice) = 1 := by decide +kernel
  have herr : errAnswers ((start {}).history publishedTwice) = 1 := by decide +kernel
  have hempty : ({} : ProvenanceStore).size = 0 := rfl
  exact ⟨haccepted.trans (congrArg Int64.ofNat hok), hrejected.trans (congrArg Int64.ofNat herr),
    hsize.trans (by rw [hok, hempty])⟩

end Service

end StateProvenance
