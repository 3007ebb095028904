import StateProvenance.Answers

/-! The coordinator over crashes and restarts from its snapshot file. A crash can fall between the file-system calls of a
save. Two saves at once, which would share a temporary file, are left out: each is one step. A file has one spelling,
up to the null character where a name ends. What a save has written is in the store of every later process, where all
saves come over one connection. -/

namespace StateProvenance

open Std Library.OrderedMap Library.ByteCodec Library.Runs ProvenanceStore Service Digest

def Thread.effects (o : CallOutcomes) : Thread → List FileEffect
  | .handling f (.saveFile snap) => (saveFile snap (textOf f.payload) o).2
  | _ => []

def Thread.size : Thread → ℕ
  | .handling _ (.saveFile snap) => payloadSize snap
  | _ => 0

inductive LifeEvent
  | serve (e : ServiceEvent)
  -- The process ends while a thread is behind `n` of its calls on the files.
  | crash (conn : ℕ) (o : CallOutcomes) (n : ℕ)
  | restart

structure Life where
  process : Option Service
  files : Files

namespace Life

def call (l : Life) (t : Service) (i : ℕ) (o : CallOutcomes) (n : ℕ) : Files :=
  l.files.after (((t.conns i).thread.effects o).take n)

def serve (l : Life) (t : Service) (e : ServiceEvent) : Life :=
  let t' := t.step e
  ⟨if t'.failure.isSome then none else some t',
    match e with
    | .arrive _ _ => l.files
    | .act i o _ => l.call t i o ((t.conns i).thread.effects o).length⟩

def step (path : ByteString) (l : Life) : LifeEvent → Life
  | .serve e =>
    match l.process with
    | none => l
    | some t => l.serve t e
  | .crash i o n =>
    match l.process with
    | none => l
    | some t => ⟨none, l.call t i o n⟩
  | .restart =>
    match l.process with
    | some _ => l
    | none => { l with process := ((l.files.content (textOf path)).bind loadStore).map start }

/-- Files are saved from connection `c` alone, and none is longer than a vector can be. -/
def Orderly (c : ℕ) (l : Life) (_ : LifeEvent) : Prop :=
  ∀ t ∈ l.process, ∀ i f snap, (t.conns i).thread = .handling f (.saveFile snap) → i = c ∧ payloadSize snap < 2 ^ 64

end Life

lemma take_of_loadFile {s : StoreSnapshot} {payload bytes : ByteString} (hp : encodeSnapshot s = .ok payload)
    (h : fileImage s = .ok bytes) (hlen : payload.length < 2 ^ 64) {k : ℕ} {t : StoreSnapshot}
    (hload : (loadFile (bytes.take k)).snapshot = some t) : bytes.take k = bytes := by
  obtain ⟨header, rfl, hheader, hread⟩ := fileImage_parts hp h
  obtain ⟨payloadLen, crc, r, hr, -, hsize, -, -⟩ := (loadFile_eq_some_iff _ t).mp hload
  rw [List.length_take, List.length_append, hheader] at hsize
  have htake : ((header ++ payload).take k).take 28 = header := by
    rw [List.take_take, Nat.min_eq_left (by omega), ← hheader, List.take_left]
  rw [htake, hread] at hr
  obtain ⟨⟨rfl, rfl⟩, rfl⟩ : (payload.length.toUInt64 = payloadLen ∧ crc32 payload = crc) ∧ _ = r := by
    simpa only [Except.ok.injEq, Prod.mk.injEq] using hr
  have hword : payload.length.toUInt64.toNat = payload.length := by
    rw [Nat.toUInt64_eq, UInt64.toNat_ofNat', Nat.mod_eq_of_lt hlen]
  apply List.take_of_length_le
  rw [List.length_append, hheader]
  omega

def Shows (d : RecordData) (snap : StoreSnapshot) : Prop := ∃ s : ProvenanceStore, s.Core ∧ s.Has d ∧ s.snapshot = snap

lemma Shows.of_image {d : RecordData} {snap : StoreSnapshot} (h : Shows d snap) {bytes : ByteString}
    (himage : fileImage snap = .ok bytes) (hsize : payloadSize snap < 2 ^ 64) {k : ℕ} {u : ProvenanceStore}
    (hload : loadStore (bytes.take k) = some u) : u.Has d := by
  obtain ⟨s, hs, ⟨hfind, hvalidity⟩, rfl⟩ := h
  obtain ⟨payload, hp⟩ := encode_of_fileImage himage
  have hf : StringsFit s.snapshot := (emits_snapshotChunks_iff s.snapshot).mp ⟨payload, hp⟩
  have hlen := length_encode hf hp
  cases hsnap : (loadFile (bytes.take k)).snapshot with
  | none => simp [loadStore, hsnap] at hload
  | some t =>
    have htake := take_of_loadFile hp himage (hlen ▸ hsize) hsnap
    rw [htake] at hsnap hload
    obtain ⟨hmax, hd⟩ := (loadFile_fileImage_iff hp himage t).mp hsnap
    obtain rfl := eq_of_decode_encode (inBounds_of_payloadSize hf (hlen ▸ hmax)) hp hd
    obtain ⟨v, hrun, hv, hrecords⟩ := restore_snapshot hs ({} : ProvenanceStore)
    simp only [loadStore, hsnap, hrun] at hload
    obtain rfl := Option.some.inj hload
    constructor
    · rw [find, hrecords]
      exact hfind
    · rw [validityOf, hv.status]
      exact hvalidity

variable {snap : StoreSnapshot} {o : CallOutcomes} {path name : String}

def Safe (d : RecordData) (content : Option ByteString) : Prop :=
  ∀ bytes ∈ content, ∀ s, loadStore bytes = some s → s.Has d

lemma Shows.safe {d : RecordData} (h : Shows d snap) (hsize : payloadSize snap < 2 ^ 64) {image : ByteString}
    (himage : fileImage snap = .ok image) (k : ℕ) : Safe d (some (image.take k)) := by
  intro bytes hb s hs
  obtain rfl := Option.some.inj hb
  exact h.of_image himage hsize hs

lemma safe_none (d : RecordData) : Safe d none := nofun

lemma safe_empty (d : RecordData) : Safe d (some []) := by
  intro bytes hb s hs
  obtain rfl := Option.some.inj hb
  simp [loadStore, loadFile] at hs

section Save

variable {d : RecordData} (h : Shows d snap) (hsize : payloadSize snap < 2 ^ 64) {files : Files}

include h hsize

lemma Shows.keeps (hname : Safe d (files.content name)) (n : ℕ) :
    Safe d ((files.after ((saveFile snap path o).2.take n)).content name) :=
  saveFile_keeps (safe_none d) (safe_empty d) (fun _ himage => h.safe hsize himage) hname n

lemma Shows.saved (hdone : (saveFile snap path o).1 = .ok none) :
    Safe d ((files.after (saveFile snap path o).2).content path) := by
  obtain ⟨image, himage, hcontent | ⟨-, hcontent⟩⟩ := saveFile_done hdone files
  · rw [hcontent]
    exact h.safe hsize himage _
  · rw [hcontent]
    exact safe_none d

end Save

inductive Task.Saving (d : RecordData) (written : Prop) : Task → Prop
  | snapshot : Saving d written .snapshot
  | saveFile (snap : StoreSnapshot) (h : Shows d snap) : Saving d written (.saveFile snap)
  | respond (text : String) (h : ∀ digest, text = "saved;digest=" ++ digest → written) :
      Saving d written (.respond text)

namespace Life

variable {l : Life} {t : Service} {c i n : ℕ} {d : RecordData} {q : Frame} {path : ByteString}

lemma call_eq (l : Life) (t : Service) (i : ℕ) (o : CallOutcomes) (n : ℕ) : l.call t i o n = l.files ∨
    ∃ f snap, (t.conns i).thread = .handling f (.saveFile snap) ∧
      l.call t i o n = l.files.after ((saveFile snap (textOf f.payload) o).2.take n) := by
  unfold call Thread.effects
  split
  · next f snap hthread => exact .inr ⟨f, snap, hthread, rfl⟩
  · exact .inl (by rw [List.take_nil]; rfl)

lemma process_serve (l : Life) (ht : t.Sound) (e : ServiceEvent) : (l.serve t e).process = some (t.step e) := by
  have hprocess : (l.serve t e).process = if (t.step e).failure.isSome then none else some (t.step e) := rfl
  rw [hprocess, (ht.step e).running]
  rfl

structure Awaits (d : RecordData) (c : ℕ) (q : Frame) (path : ByteString) (l : Life) : Prop where
  running : ∃ t, l.process = some t ∧ t.Sound ∧ Holds d t ∧
    ∀ task, (t.conns c).thread = .handling q task → task.Saving d (Safe d (l.files.content (textOf path)))

structure Durable (d : RecordData) (c : ℕ) (path : ByteString) (l : Life) : Prop where
  file : Safe d (l.files.content (textOf path))
  running : ∀ t ∈ l.process, t.Sound ∧ Holds d t ∧
    ∀ f snap, (t.conns c).thread = .handling f (.saveFile snap) → Shows d snap

section Orderly

variable {e : LifeEvent} (hl : l.process = some t) (horderly : l.Orderly c e)

include hl horderly

lemma call_of_ne (hi : i ≠ c) (o : CallOutcomes) (n : ℕ) : l.call t i o n = l.files := by
  rcases l.call_eq t i o n with h | ⟨f, snap, hthread, -⟩
  · exact h
  · exact absurd (horderly t hl i f snap hthread).1 hi

lemma call_safe (hsafe : Safe d (l.files.content (textOf path)))
    (hshows : ∀ f snap, (t.conns c).thread = .handling f (.saveFile snap) → Shows d snap) (i : ℕ) (o : CallOutcomes)
    (n : ℕ) : Safe d ((l.call t i o n).content (textOf path)) := by
  rcases l.call_eq t i o n with h | ⟨f, snap, hthread, h⟩
  · rw [h]
    exact hsafe
  · obtain ⟨rfl, hsize⟩ := horderly t hl i f snap hthread
    rw [h]
    exact (hshows f snap hthread).keeps hsize hsafe n

lemma call_done {f : Frame} {snap : StoreSnapshot} {o : CallOutcomes}
    (hthread : (t.conns c).thread = .handling f (.saveFile snap)) (hshows : Shows d snap)
    (hdone : (saveFile snap (textOf f.payload) o).1 = .ok none) :
    Safe d ((l.call t c o ((t.conns c).thread.effects o).length).content (textOf f.payload)) := by
  have hsize := (horderly t hl c f snap hthread).2
  rw [call, hthread, Thread.effects, List.take_length]
  exact hshows.saved hsize hdone

end Orderly

end Life

lemma Task.shows_step {f f' : Frame} {task : Task} {o : CallOutcomes} {arg : StatsArg} {g g' : Globals} {d : RecordData}
    {snap : StoreSnapshot} (hs : g.store.Core) (hd : g.store.Has d)
    (hstep : task.step f o arg g = .ok (g', .handling f' (.saveFile snap))) : Shows d snap := by
  cases Task.steps hstep
  exact ⟨g.store, hs, hd, rfl⟩

lemma err_ne_saved (error digest : String) : "err:" ++ error ≠ "saved;digest=" ++ digest := by
  intro h
  have hlist := congrArg String.toList h
  rw [String.toList_append, String.toList_append] at hlist
  exact absurd (List.cons.inj hlist).1 (by decide)

lemma Task.Saving.step {d : RecordData} {written written' : Prop} {f : Frame} {task task' : Task} {o : CallOutcomes}
    {arg : StatsArg} {g g' : Globals} (hs : g.store.Core) (hd : g.store.Has d) (h : task.Saving d written)
    (hwritten : ∀ snap, task = .saveFile snap → Shows d snap →
      (StateProvenance.saveFile snap (textOf f.payload) o).1 = .ok none → written')
    (hstep : task.step f o arg g = .ok (g', .handling f task')) : task'.Saving d written' := by
  cases h with
  | snapshot =>
    cases Task.steps hstep
    exact .saveFile _ ⟨g.store, hs, hd, rfl⟩
  | saveFile snap hshows =>
    rw [Task.step] at hstep
    split at hstep
    · contradiction
    · next e he =>
      cases hstep
      exact .respond _ fun digest htext => absurd htext (err_ne_saved e digest)
    · next hdone =>
      cases hstep
      exact .respond _ fun _ _ => hwritten snap rfl hshows hdone
  | respond text htext =>
    cases Task.steps hstep

namespace Life

variable {l : Life} {c : ℕ} {d : RecordData} {q : Frame} {path : ByteString}

lemma shows_step {t : Service} (ht : t.Sound) (hd : Holds d t)
    (h : ∀ f snap, (t.conns c).thread = .handling f (.saveFile snap) → Shows d snap) (e : ServiceEvent) :
    ∀ f snap, ((t.step e).conns c).thread = .handling f (.saveFile snap) → Shows d snap := by
  intro f snap hthread
  cases e with
  | arrive j bytes =>
    rw [thread_arrive] at hthread
    exact h f snap hthread
  | act j o arg =>
    by_cases hj : c = j
    · subst hj
      have hacts := ht.act c o arg
      generalize t.step (.act c o arg) = t', t.traffic (.act c o arg) = new at hacts hthread
      cases hacts with
      | idle => exact h f snap hthread
      | checked thread hopen hold =>
        rcases hopen with rfl | ⟨rfl, -⟩
        · simp [setConn] at hthread
        · simp [setConn] at hthread
      | received f' rest hf hold =>
        obtain ⟨rfl, hstart⟩ : f' = f ∧ Task.start f' = .saveFile snap := by simpa [setConn] using hthread
        have hstarts := Task.starts f'
        rw [hstart] at hstarts
        cases hstarts
      | handled f' task globals thread hold htask =>
        obtain rfl : thread = .handling f (.saveFile snap) := by simpa [setConn] using hthread
        exact Task.shows_step ht.store.toCore hd htask
    · rw [conns_step_of_ne t hj] at hthread
      exact h f snap hthread

lemma Awaits.serve (hq : Op.ofCode q.op = some .save) (hpath : q.payload = path) (h : l.Awaits d c q path)
    {e : ServiceEvent} (horderly : l.Orderly c (.serve e)) : (l.step path (.serve e)).Awaits d c q path := by
  obtain ⟨t, hl, ht, hd, hsaving⟩ := h.running
  have hstep : l.step path (.serve e) = l.serve t e := by rw [Life.step, hl]
  rw [hstep]
  refine ⟨t.step e, process_serve l ht e, ht.step e, hd.step ht e, fun task hthread => ?_⟩
  cases e with
  | arrive j bytes =>
    rw [thread_arrive] at hthread
    exact hsaving task hthread
  | act j o arg =>
    by_cases hj : c = j
    · subst hj
      have hacts := ht.act c o arg
      generalize t.step (.act c o arg) = t', t.traffic (.act c o arg) = new at hacts hthread
      cases hacts with
      | idle hold => rcases hold with hold | hold <;> simp [hold] at hthread
      | checked thread hopen hold =>
        rcases hopen with rfl | ⟨rfl, -⟩
        · simp [setConn] at hthread
        · simp [setConn] at hthread
      | received f rest hf hold =>
        obtain ⟨rfl, rfl⟩ : f = q ∧ Task.start f = task := by simpa [setConn] using hthread
        rw [Task.start, hq]
        exact .snapshot
      | handled f task' globals thread hold htask =>
        obtain rfl : thread = .handling q task := by simpa [setConn] using hthread
        obtain rfl := Task.frame_step htask
        refine (hsaving task' hold).step ht.store.toCore hd (fun snap hsnap hshows hdone => ?_) htask
        subst hsnap
        subst hpath
        exact call_done hl horderly hold hshows hdone
    · rw [conns_step_of_ne t hj] at hthread
      have hfiles : (l.serve t (.act j o arg)).files = l.files := call_of_ne hl horderly (Ne.symm hj) o _
      rw [hfiles]
      exact hsaving task hthread

lemma Durable.serve (h : l.Durable d c path) {e : ServiceEvent} (horderly : l.Orderly c (.serve e)) :
    (l.step path (.serve e)).Durable d c path := by
  cases hl : l.process with
  | none =>
    have hstep : l.step path (.serve e) = l := by rw [Life.step, hl]
    rwa [hstep]
  | some t =>
    obtain ⟨ht, hd, hshows⟩ := h.running t hl
    have hstep : l.step path (.serve e) = l.serve t e := by rw [Life.step, hl]
    rw [hstep]
    refine ⟨?_, ?_⟩
    · cases e with
      | arrive j bytes => exact h.file
      | act j o arg => exact call_safe hl horderly h.file hshows j o _
    · intro t' ht'
      obtain rfl := Option.some.inj ((process_serve l ht e).symm.trans ht')
      exact ⟨ht.step e, hd.step ht e, shows_step ht hd hshows e⟩

lemma Durable.step (h : l.Durable d c path) {e : LifeEvent} (horderly : l.Orderly c e) :
    (l.step path e).Durable d c path := by
  cases e with
  | serve e => exact h.serve horderly
  | crash i o n =>
    cases hl : l.process with
    | none =>
      have hstep : l.step path (.crash i o n) = l := by rw [Life.step, hl]
      rwa [hstep]
    | some t =>
      have hstep : l.step path (.crash i o n) = ⟨none, l.call t i o n⟩ := by rw [Life.step, hl]
      rw [hstep]
      exact ⟨call_safe hl horderly h.file (h.running t hl).2.2 i o n, nofun⟩
  | restart =>
    cases hl : l.process with
    | some t =>
      have hstep : l.step path .restart = l := by rw [Life.step, hl]
      rwa [hstep]
    | none =>
      have hstep : l.step path .restart =
          { l with process := ((l.files.content (textOf path)).bind loadStore).map start } := by
        rw [Life.step, hl]
      rw [hstep]
      refine ⟨h.file, fun t ht => ?_⟩
      obtain ⟨s, hs, rfl⟩ := Option.map_eq_some_iff.mp ht
      obtain ⟨bytes, hb, hload⟩ := Option.bind_eq_some_iff.mp hs
      have hsavable : s.Savable := @savable_startStore (some bytes) s hload
      refine ⟨sound_start hsavable, h.file bytes hb s hload, fun f snap hthread => ?_⟩
      contradiction

lemma Awaits.run (hq : Op.ofCode q.op = some .save) (hpath : q.payload = path) (h : l.Awaits d c q path)
    {es : List ServiceEvent} (horderly : Along (Life.step path) (Orderly c) l (es.map .serve)) :
    (run (Life.step path) l (es.map .serve)).Awaits d c q path := by
  induction es generalizing l with
  | nil => exact h
  | cons e es ih => exact ih (h.serve hq hpath horderly.1) horderly.2

end Life

end StateProvenance
